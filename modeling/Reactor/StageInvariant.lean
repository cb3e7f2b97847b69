import Reactor.StageSteps

/-!
Every connection of a server is in one of its stages, after any steps that are orderly.
-/

namespace Reactor

namespace ServerSys

variable {conf : ServerConf} {s s' : ServerSys}

/-! ### The other connections -/

lemma unmoved_rest {d : ConnId} {t : LoopId} {f : Functor} {batch : List Functor}
    (hpc : (s.loops t).pc = .functors (f :: batch)) (hne : d ≠ f.conn) :
    s.Unmoved d (s.setPc t (.functors batch)) := by
  refine unmoved_setPc ?_ (Nat.zero_le _) (by simp)
  rw [hpc]
  exact (List.filter_cons_of_neg (by simpa using hne.symm)).symm

lemma unmoved_tail {d : ConnId} {t : LoopId} {e : ActiveChannel} {active : List ActiveChannel}
    (hpc : (s.loops t).pc = .handling (e :: active)) :
    s.Unmoved d (s.setPc t (.handling active)) := by
  refine unmoved_setPc ?_ ?_ (by simp) <;> rw [hpc]
  · rfl
  · exact (List.sublist_cons_self ..).count_le _

/-- A member function of one connection leaves the others alone. -/
lemma unmoved_withConn {c d : ConnId} {t : LoopId} {op : Ctx → Ctx} (hr : s.Registered conf)
    (hc : s.Made c) (hd : s.Made d) (hne : d ≠ c) (hf : (s.ctx c t).Frame (op (s.ctx c t))) :
    s.Unmoved d (s.withConn c t op) := by
  refine (applied_withConn hf).unmoved hne fun e he hed => ?_
  have hname : (op (s.ctx c t)).conn.name_ = (s.conn c).name_ := hf.name_
  rw [hr.entries e he, hed, hname]
  exact hr.ne hc hd hne

/-- Taking one entry out leaves the others. -/
lemma unmoved_erase {d : ConnId} {e : String × ConnId} {left : ConnectionMap}
    (hphase : s.phase = .destroying left) (hne : d ≠ e.2) :
    s.Unmoved d { s with phase := .destroying (left.erase e) } := by
  refine unmoved_setPhase _ _ ?_
  rintro ⟨e', he', rfl⟩
  rw [entries_destroying hphase] at he'
  refine ⟨e', (List.mem_erase_of_ne ?_).mpr he', rfl⟩
  rintro rfl
  exact hne rfl

/-- When the server has seen to all of its connections, they are out of its hands. -/
lemma unmoved_ended {d : ConnId} (phase : Phase) (m : ConnectionMap) (h : s.entries = []) :
    s.Unmoved d { s with phase := phase, connections_ := m } := by
  refine unmoved_setPhase _ _ ?_
  rintro ⟨e, he, -⟩
  rw [h] at he
  cases he

/-! ### Events reported -/

/-- A descriptor is reported once, and so is its connection. -/
lemma count_activeOf_le {p : EpollPoller ConnId} {c : ConnId} {n : ℕ}
    (h : ∀ fd m, p.epoll fd = some (m, c) → fd = n) (ready : List Ready) :
    (ready.filterMap (activeOf p)).count (.conn c) ≤
      (ready.filterMap Ready.descriptor).count n := by
  induction ready with
  | nil => exact le_refl _
  | cons r ready ih =>
      cases r with
      | acceptor =>
          have hacc : (Ready.acceptor :: ready).filterMap (activeOf p) =
              .acceptor :: ready.filterMap (activeOf p) := rfl
          have hdesc : (Ready.acceptor :: ready).filterMap Ready.descriptor =
              ready.filterMap Ready.descriptor := rfl
          rw [hacc, hdesc, List.count_cons_of_ne (by simp)]
          exact ih
      | fd k revents =>
          have hdesc : (Ready.fd k revents :: ready).filterMap Ready.descriptor =
              k :: ready.filterMap Ready.descriptor := rfl
          rw [hdesc]
          have hmono := (List.sublist_cons_self k (ready.filterMap Ready.descriptor)).count_le n
          cases hent : p.epoll k with
          | none =>
              rw [List.filterMap_cons_none (by rw [activeOf, hent]; rfl)]
              exact ih.trans hmono
          | some e =>
              rw [List.filterMap_cons_some (b := .conn e.2) (by rw [activeOf, hent]; rfl)]
              rcases eq_or_ne e.2 c with hec | hec
              · have hk : k = n := h k e.1 (by rw [hent, ← hec])
                rw [hec, hk, List.count_cons_self, List.count_cons_self]
                exact Nat.succ_le_succ ih
              · rw [List.count_cons_of_ne (by simpa using hec)]
                exact ih.trans hmono

/-- A connection in an epoll set is on its loop, under its descriptor, and knows it. -/
lemma Polled.index_of_entry {c : ConnId} {t : LoopId} {n : ℕ} {m : Mask} (h : s.Polled)
    (hp : s.Placed) (hent : (s.loops t).poller_.epoll n = some (m, c)) :
    t = (s.conn c).loop_ ∧ n = (s.conn c).channel_.fd_ ∧ (s.view c).index = kAdded := by
  obtain ⟨hc, hloop⟩ := hp.epoll t n m c hent
  obtain ⟨hdes, hfd⟩ := h.ref t n m c hent
  refine ⟨hloop.symm, hfd.symm, ?_⟩
  obtain ⟨m', hm'⟩ := h.entry c hc hdes
  rw [hloop, hfd, hent] at hm'
  by_contra hidx
  rw [if_neg (by exact hidx)] at hm'
  cases hm'

/-- Only a connection that is up is reported, and only once. -/
lemma Stage.polls {c : ConnId} {t : LoopId} {ready : List Ready} (h : s.Stage c)
    (hp : s.Placed) (hpolled : s.Polled) (hpc : (s.loops t).pc = .poll)
    (hready : s.CanReport t ready) : (s.fillActiveChannels t ready).Stage c := by
  have hmem : 0 < (ready.filterMap (activeOf (s.loops t).poller_)).count (.conn c) →
      t = (s.conn c).loop_ ∧ (s.view c).index = kAdded := by
    intro hpos
    obtain ⟨n, m, hent⟩ := mem_activeOf (List.count_pos_iff.mp hpos)
    obtain ⟨ht, -, hidx⟩ := hpolled.index_of_entry hp hent
    exact ⟨ht, hidx⟩
  have hone : (ready.filterMap (activeOf (s.loops t).poller_)).count (.conn c) ≤ 1 := by
    refine (count_activeOf_le (n := (s.conn c).channel_.fd_) ?_ ready).trans
      (List.nodup_iff_count_le_one.mp hready.1 _)
    exact fun fd m hent => (hpolled.index_of_entry hp hent).2.1
  obtain ⟨conn, he, hr⟩ := fillActiveChannels_eq t ready s
  generalize ready.filterMap (activeOf (s.loops t).poller_) = active at he hmem hone
  have hk : s.Kept c (s.fillActiveChannels t ready) := by
    have hconn : s.Kept c { s with conn := conn } :=
      ⟨hr c, rfl, fun _ => rfl, fun hd => hd, fun _ hi => hi⟩
    rw [he]
    refine hconn.trans (kept_setLoop ?_ nofun)
    change _ = (s.loops t).jobs.filter _
    rw [LoopThread.jobs, LoopThread.jobs, hpc]
    rfl
  have hreports : ∀ i, (s.fillActiveChannels t ready).reports c i =
      if i = t then active.count (.conn c) else s.reports c i := by
    intro i
    rw [he, reports_setPc]
    rfl
  -- a connection that is not in the epoll set is not reported
  have hzero : (s.view c).index ≠ kAdded → active.count (.conn c) = 0 := by
    intro hidx
    by_contra hne
    exact hidx (hmem (Nat.pos_of_ne_zero hne)).2
  cases h with
  | fresh h hl ha =>
      refine .fresh (h.alike hk.alike) (hk.loop_ ▸ hl) (ha.kept hk fun i => ?_)
      rw [hreports, hzero (by rw [h.index]; exact kNew_ne_kAdded)]
      split_ifs with hi hloop hloop
      · exact le_refl 0
      · exact le_refl 0
      · exact (ha.reports i).trans_eq (if_pos hloop)
      · exact (ha.reports i).trans_eq (if_neg hloop)
  | up h ha =>
      refine .up (h.alike hk.alike) (ha.kept hk fun i => ?_)
      rw [hreports]
      split_ifs with hi hloop hloop
      · exact hone
      · exact Nat.le_zero.mpr (Nat.eq_zero_of_not_pos fun hpos => hloop (hi.trans (hmem hpos).1))
      · exact (ha.reports i).trans_eq (if_pos hloop)
      · exact (ha.reports i).trans_eq (if_neg hloop)
  | down htail h hqueue hrep =>
      refine .down htail (h.alike hk.alike) (fun i => ?_) fun i => ?_
      · rw [hk.queue]
        exact hqueue i
      · rw [hreports, hzero h.index, hrep]
        exact ite_self 0

/-! ### The destructor on the base loop -/

lemma Stage.destroysHere {c : ConnId} (onDown : Script) (phase : Phase) (h : s.Stage c)
    (hloop : (s.conn c).loop_ = 0) (hpc : (s.loops 0).pc = .check)
    (hst : (s.conn c).state_ ≠ .kDisconnectiong) :
    (withConn c 0 (Ctx.connectDestroy onDown) { s with phase := phase }).Stage c := by
  have hzero : s.reports c 0 = 0 := by
    rw [reports, LoopThread.active, hpc]
    rfl
  have hquiet : (∀ i, .connectEstablished c ∉ s.queue c i) ∧ (∀ i, s.reports c i = 0) ∧
      ¬ (s.view c).Fresh := by
    cases h with
    | fresh h hl ha => exact absurd hloop hl
    | up h ha =>
        refine ⟨ha.not_mem, fun i => ?_, fun hx => ?_⟩
        · rcases eq_or_ne i 0 with rfl | hi
          · exact hzero
          · exact Nat.le_zero.mp ((ha.reports i).trans_eq (if_neg (hloop ▸ hi)))
        · rcases h.state with hs | hs <;> cases hx.state.symm.trans hs
    | down htail h hqueue hreports =>
        exact ⟨hqueue, hreports, fun hx => by cases hx.state.symm.trans h.state⟩
  exact h.connectDestroy onDown hst rfl rfl hquiet.1 hquiet.2.1 hquiet.2.2

/-! ### A loop that leaves -/

/-- A loop that quits in order leaves nothing behind that is not down. -/
lemma Attended.stays {first : List Functor} {n : ℕ} {c : ConnId} {t : LoopId}
    (ha : s.Attended first n c) (hentries : s.entries = [])
    (hleave : .connectDestroy c ∉ s.queue c t) : (s.conn c).loop_ ≠ t := by
  rintro rfl
  obtain ⟨rest, hrest, -, hheld⟩ := ha.here
  rcases hheld with ⟨e, he, -⟩ | hm
  · rw [hentries] at he
    cases he
  · exact hleave (by rw [hrest]; exact List.mem_append_right _ hm)

lemma Attended.leaves {first : List Functor} {n : ℕ} {c : ConnId} {t : LoopId}
    (ha : s.Attended first n c) (ht : (s.conn c).loop_ ≠ t) :
    (s.setLoop t { s.loops t with pc := .returned, pendingFuntors_ := [] }).Attended first n c := by
  refine ⟨fun i hi => ?_, ?_, fun i => ?_, ?_⟩
  · rw [queue_setLoop]
    split_ifs
    · rfl
    · exact ha.elsewhere i hi
  · obtain ⟨rest, hrest, haux, hheld⟩ := ha.here
    refine ⟨rest, ?_, haux, hheld⟩
    rw [queue_setLoop, if_neg (by exact ht)]
    exact hrest
  · rw [reports_setLoop]
    split_ifs with hi hloop hloop
    · exact Nat.zero_le _
    · exact le_refl 0
    · exact (ha.reports i).trans_eq (if_pos hloop)
    · exact (ha.reports i).trans_eq (if_neg hloop)
  · rw [setLoop_loops, if_neg (by exact ht)]
    exact ha.running

lemma Stage.leaves {c : ConnId} {t : LoopId} (h : s.Stage c) (hentries : s.entries = [])
    (hleave : .connectDestroy c ∈ s.queue c t → (s.conn c).state_ = .kDisconnected) :
    (s.setLoop t { s.loops t with pc := .returned, pendingFuntors_ := [] }).Stage c := by
  cases h with
  | fresh h hl ha =>
      have ht := ha.stays hentries fun hm => by cases h.state.symm.trans (hleave hm)
      exact .fresh (h.alike (.of_eq rfl rfl)) hl (ha.leaves ht)
  | up h ha =>
      have ht := ha.stays hentries fun hm => by
        rcases h.state with hs | hs <;> cases hs.symm.trans (hleave hm)
      exact .up (h.alike (.of_eq rfl rfl)) (ha.leaves ht)
  | down htail h hqueue hreports =>
      refine .down htail (h.alike (.of_eq rfl rfl)) (fun i => ?_) fun i => ?_
      · rw [queue_setLoop]
        split_ifs
        · exact List.not_mem_nil
        · exact hqueue i
      · rw [reports_setLoop]
        split_ifs
        · rfl
        · exact hreports i

/-! ### A new connection -/

/-- Nothing speaks of a connection that is still to be made. -/
lemma Placed.queue_new (h : s.Placed) (t : LoopId) : s.queue s.nextConnId_ t = [] := by
  refine List.filter_eq_nil_iff.mpr fun f hf he => ?_
  exact Nat.lt_irrefl _ ((of_decide_eq_true he) ▸ (h.jobs t f hf).1.2)

lemma Placed.reports_new (h : s.Placed) (t : LoopId) : s.reports s.nextConnId_ t = 0 :=
  List.count_eq_zero.mpr fun hm => Nat.lt_irrefl _ (h.active t _ hm).1.2

lemma unmoved_addConnection {d : ConnId} (hr : s.Registered conf) (halive : s.phase = .alive)
    (hid : s.nextConnId_ + 1 < 2 ^ 31) (hd : s.Made d) (sockfd : ℕ) :
    s.Unmoved d (addConnection conf sockfd s) where
  conn := ⟨_, addConnection_conn hd sockfd⟩
  trace := addConnection_trace hd sockfd
  queue _ := rfl
  held := by
    rintro ⟨e, he, hed⟩
    refine ⟨e, ?_, hed⟩
    have hname : e.1 ≠ connName conf s.nextConnId_ := by
      rw [hr.entries e he, hed]
      intro hname
      have hlt : s.nextConnId_ < 2 ^ 31 := by omega
      exact Nat.ne_of_lt hd.2 (connName_inj (Nat.lt_trans hd.2 hlt) hlt hname)
    rw [entries_alive halive] at he
    rw [entries_alive (by exact halive)]
    exact List.mem_append_left _ (List.mem_filter.mpr ⟨he, decide_eq_true hname⟩)
  returned _ hi := hi
  reports _ := le_refl _

lemma fresh_addConnection (sockfd : ℕ) (t : LoopId) (s : ServerSys) :
    ((addConnection conf sockfd s).ctx s.nextConnId_ t).Fresh := by
  have hconn : (addConnection conf sockfd s).conn s.nextConnId_ = newConn conf sockfd s :=
    addConnection_conn_new sockfd s
  refine ⟨?_, ?_, ?_, ?_⟩
  · change ((addConnection conf sockfd s).conn s.nextConnId_).state_ = _
    rw [hconn]
    rfl
  · change ((addConnection conf sockfd s).conn s.nextConnId_).channel_.index_ = _
    rw [hconn]
    rfl
  · change ((addConnection conf sockfd s).conn s.nextConnId_).channel_.events_ = _
    rw [hconn]
    rfl
  · change ((addConnection conf sockfd s).trace s.nextConnId_).map Prod.snd = _
    rw [addConnection_trace_new]
    rfl

lemma held_addConnection (halive : s.phase = .alive) (sockfd : ℕ) :
    (addConnection conf sockfd s).Held s.nextConnId_ := by
  refine ⟨(connName conf s.nextConnId_, s.nextConnId_), ?_, rfl⟩
  rw [entries_alive (by exact halive)]
  exact List.mem_append_right _ (List.mem_singleton.mpr rfl)

/-- **A connection is made**: established at once on the base loop, or queued for its own. -/
lemma stage_newConnection {sockfd : ℕ} {onUp : Script} (hp : s.Placed)
    (halive : s.phase = .alive) (hret : ∀ t, (s.loops t).pc ≠ .returned) :
    (newConnection conf sockfd onUp s).Stage s.nextConnId_ := by
  have hheld : (addConnection conf sockfd s).Held s.nextConnId_ :=
    held_addConnection halive sockfd
  have hqueue : ∀ t, (addConnection conf sockfd s).queue s.nextConnId_ t = [] := hp.queue_new
  have hreports : ∀ t, (addConnection conf sockfd s).reports s.nextConnId_ t = 0 := hp.reports_new
  have hloop : ((addConnection conf sockfd s).conn s.nextConnId_).loop_ =
      (getNextLoop conf s.next_).1 := by
    rw [addConnection_conn_new]
    rfl
  unfold newConnection
  simp only
  split_ifs with h0
  · have hatt : (addConnection conf sockfd s).Attended [] 1 s.nextConnId_ :=
      ⟨fun t _ => hqueue t, ⟨[], hqueue _, by simp, Or.inl hheld⟩,
        fun t => (hreports t).trans_le (Nat.zero_le _), hret _⟩
    have hprim := Ctx.primitive_frame ((addConnection conf sockfd s).ctx s.nextConnId_ 0)
    have hf := hprim.connectEstablished onUp (.refl _)
    exact .up ((Ctx.up_connectEstablished onUp (fresh_addConnection sockfd 0 s)).alike
      (applied_withConn hf).alike) (hatt.applied (applied_withConn hf) hf
        (Ctx.quiet_noClose.connectEstablished onUp (noClose_ctx _ _ _)))
  · refine .fresh ((fresh_addConnection sockfd (getNextLoop conf s.next_).1 s).alike
      (.of_eq rfl rfl)) ?_ ⟨fun t ht => ?_, ⟨[], ?_, by simp, Or.inl hheld⟩, fun t => ?_, ?_⟩
    · exact fun he => h0 (hloop.symm.trans he)
    · rw [queue_push, hqueue, if_neg fun he => ht (he.1.trans hloop.symm)]
      rfl
    · rw [queue_push, hqueue, if_pos ⟨hloop, rfl⟩]
      rfl
    · rw [reports_push, hreports]
      exact Nat.zero_le _
    · rw [push_pc]
      exact hret _

lemma unmoved_newConnection {d : ConnId} {sockfd : ℕ} {onUp : Script} (hp : s.Placed)
    (hr : s.Registered conf) (halive : s.phase = .alive) (hid : s.nextConnId_ + 1 < 2 ^ 31)
    (hd : s.Made d) : s.Unmoved d (newConnection conf sockfd onUp s) := by
  have hne : d ≠ s.nextConnId_ := Nat.ne_of_lt hd.2
  have hr' : (addConnection conf sockfd s).Registered conf := hr.addConnection halive hid sockfd
  refine (unmoved_addConnection hr halive hid hd sockfd).trans ?_
  unfold newConnection
  simp only
  split_ifs
  · exact unmoved_withConn hr' ⟨hp.next, Nat.lt_succ_self _⟩ (hd.addConnection sockfd) hne
      ((Ctx.primitive_frame _).connectEstablished onUp (.refl _))
  · exact unmoved_push hne.symm

/-! ### The invariant -/

variable (conf) in
/-- **What holds after orderly steps.** -/
structure Inv (s : ServerSys) : Prop where
  placed : s.Placed
  registered : s.Registered conf
  phased : s.Phased
  polled : s.Polled
  stage : ∀ c, s.Made c → s.Stage c

lemma inv_new : new.Inv conf where
  placed := placed_new
  registered := registered_new
  phased := phased_new
  polled := polled_new
  stage _ hc := absurd (Nat.lt_of_le_of_lt hc.1 hc.2) (Nat.lt_irrefl 1)

lemma Phased.not_returned (h : s.Phased) (halive : s.phase = .alive) (t : LoopId) :
    (s.loops t).pc ≠ .returned := by
  intro ht
  have hended := h.quit t (h.returned t ht)
  rw [halive] at hended
  cases hended

/-- A step about one connection is in order if that connection is, and the others are left
alone. -/
lemma stage_of_unmoved {c : ConnId} (h : s.Inv conf) (hnext : s'.nextConnId_ = s.nextConnId_)
    (hc : s'.Stage c) (hother : ∀ d, s.Made d → d ≠ c → s.Unmoved d s') (d : ConnId)
    (hd : s'.Made d) : s'.Stage d := by
  have hmade : s.Made d := (made_congr hnext d).mp hd
  rcases eq_or_ne d c with rfl | hne
  · exact hc
  · exact (h.stage d hmade).congr (hother d hmade hne)

lemma stage_of_forall_unmoved (h : s.Inv conf) (hnext : s'.nextConnId_ = s.nextConnId_)
    (hother : ∀ d, s.Made d → s.Unmoved d s') (d : ConnId) (hd : s'.Made d) : s'.Stage d := by
  have hmade : s.Made d := (made_congr hnext d).mp hd
  exact (h.stage d hmade).congr (hother d hmade)

lemma nextConnId_withConn {c : ConnId} {t : LoopId} {op : Ctx → Ctx}
    (hf : (s.ctx c t).Frame (op (s.ctx c t))) :
    (s.withConn c t op).nextConnId_ = s.nextConnId_ := (applied_withConn hf).nextConnId_

/-- A loop's step about the connection at the head of its batch. -/
lemma unmoved_functor {d : ConnId} {t : LoopId} {f : Functor} {batch : List Functor}
    {op : Ctx → Ctx} (h : s.Inv conf) (hpc : (s.loops t).pc = .functors (f :: batch))
    (hd : s.Made d) (hne : d ≠ f.conn)
    (hf : ((s.setPc t (.functors batch)).ctx f.conn t).Frame
      (op ((s.setPc t (.functors batch)).ctx f.conn t))) :
    s.Unmoved d ((s.setPc t (.functors batch)).withConn f.conn t op) :=
  (unmoved_rest hpc hne).trans
    (unmoved_withConn ((sameTable_setLoop _ _).registered h.registered) (h.placed.head hpc).1 hd
      hne hf)

/-- **The stage lemma**: a step in order leaves every connection in a stage. -/
theorem stage_trans {a : ServerAct} (h : s.Inv conf) (ha : s.Orderly a)
    (ht : Trans conf s a s') : ∀ c, s'.Made c → s'.Stage c := by
  have hprim := fun x => Ctx.primitive_frame x
  cases ht with
  | @leaves t hrun hpc hquit =>
      intro c hc
      refine (h.stage c hc).leaves (entries_ended (h.phased.quit t hquit)) fun hm => ?_
      obtain ⟨hjob, -⟩ := List.mem_filter.mp hm
      exact ha hquit _ hjob rfl
  | waits hrun hpc hquit =>
      refine stage_of_forall_unmoved h rfl fun d hd => unmoved_setPc ?_ ?_ (by simp) <;> rw [hpc]
      · rfl
      · exact le_refl 0
  | polls hrun hpc hready =>
      intro c hc
      obtain ⟨conn, he, -⟩ := fillActiveChannels_eq _ _ s
      have hmade : s.Made c := by
        rw [he] at hc
        exact hc
      exact (h.stage c hmade).polls h.placed h.polled hpc hready
  | @accepts sockfd onUp active hpc halive hfd hid =>
      have hp' : (s.setPc 0 (.handling active)).Placed := h.placed.tail hpc
      have hr' : (s.setPc 0 (.handling active)).Registered conf :=
        (sameTable_setLoop _ _).registered h.registered
      have hph' : (s.setPc 0 (.handling active)).Phased :=
        h.phased.setPc (runs_base conf halive) (by simp)
      intro d hd
      rw [made_congr (sameTable_newConnection sockfd onUp).next] at hd
      rcases made_addConnection hd with hd | rfl
      · exact (h.stage d hd).congr ((unmoved_tail hpc).trans
          (unmoved_newConnection hp' hr' halive hid hd))
      · exact stage_newConnection hp' halive (hph'.not_returned halive)
  | acceptFails hrun hpc => exact stage_of_forall_unmoved h rfl fun d hd => unmoved_tail hpc
  | @handles t env c active hrun hpc =>
      obtain ⟨hc, -⟩ := h.placed.report hpc
      have hf := (hprim ((s.setPc t (.handling active)).ctx c t)).handleEvent env (.refl _)
      refine stage_of_unmoved h (nextConnId_withConn hf) ((h.stage c hc).handles hpc ha)
        fun d hd hne => (unmoved_tail hpc).trans ?_
      exact unmoved_withConn ((sameTable_setLoop _ _).registered h.registered) hc hd hne hf
  | @swaps t hrun hpc =>
      refine stage_of_forall_unmoved h rfl fun d hd => unmoved_setLoop ?_ (Nat.zero_le _) nofun
      rw [queue, LoopThread.jobs, LoopThread.jobs, hpc, ThreadPc.batch, List.append_nil]
      rfl
  | @establishes t env c batch hrun hpc =>
      have hf := (hprim ((s.setPc t (.functors batch)).ctx c t)).connectEstablished env.acts
        (.refl _)
      exact stage_of_unmoved h (nextConnId_withConn hf)
        ((h.stage c (h.placed.head hpc).1).establishes env.acts hpc)
        fun d hd hne => unmoved_functor h hpc hd hne hf
  | @destroys t env c batch hrun hpc =>
      have hf := (hprim ((s.setPc t (.functors batch)).ctx c t)).connectDestroy env.acts (.refl _)
      have hst : (s.conn c).state_ ≠ .kDisconnectiong := by
        rw [Orderly, hpc] at ha
        exact ha
      exact stage_of_unmoved h (nextConnId_withConn hf)
        ((h.stage c (h.placed.head hpc).1).destroys env.acts hpc hst)
        fun d hd hne => unmoved_functor h hpc hd hne hf
  | @removes t env c batch hrun hpc halive =>
      have hc := (h.placed.head hpc).1
      refine stage_of_unmoved (c := c) h rfl ((h.stage c hc).removes hpc) fun d hd hne => ?_
      have herase : (s.setPc t (.functors batch)).Unmoved d { s.setPc t (.functors batch) with
          connections_ := s.connections_.filter fun e => e.1 ≠ (s.conn c).name_ } := by
        refine unmoved_setPhase s.phase _ ?_
        rintro ⟨e, he, hed⟩
        have hname : e.1 ≠ (s.conn c).name_ := by
          rw [h.registered.entries e he, hed]
          exact h.registered.ne hc hd hne
        rw [entries_alive (by exact halive)] at he
        refine ⟨e, ?_, hed⟩
        rw [entries_alive (by exact halive)]
        exact List.mem_filter.mpr ⟨he, decide_eq_true hname⟩
      exact ((unmoved_rest hpc hne).trans herase).trans (unmoved_push hne.symm)
  | @runs t env f batch hrun hpc haux =>
      have hf := frame_auxOp env f ((s.setPc t (.functors batch)).ctx f.conn t)
      exact stage_of_unmoved h (nextConnId_withConn hf)
        ((h.stage f.conn (h.placed.head hpc).1).runs hpc haux)
        fun d hd hne => unmoved_functor h hpc hd hne hf
  | endsBatch hrun hpc =>
      refine stage_of_forall_unmoved h rfl fun d hd => unmoved_setPc ?_ ?_ (by simp) <;> rw [hpc]
      · rfl
      · exact le_refl 0
  | @userCalls t c act hc =>
      have hf := (hprim (s.ctx c t)).act act (.refl _)
      exact stage_of_unmoved h (nextConnId_withConn hf) ((h.stage c hc).acts t act)
        fun d hd hne => unmoved_withConn h.registered hc hd hne hf
  | beginsDestroy halive hpc =>
      refine stage_of_forall_unmoved h rfl fun d hd => unmoved_setPhase _ _ ?_
      rintro ⟨e, he, hed⟩
      rw [entries_alive halive] at he
      exact ⟨e, he, hed⟩
  | @destroysHere e onDown left hphase he hloop =>
      have hc := h.placed.entries e (by rw [entries_destroying hphase]; exact he)
      have hpc := h.phased.idle (by simp [hphase]) (by simp [hphase])
      have hf := (hprim (ctx e.2 0 { s with phase := .destroying (left.erase e) })).connectDestroy
        onDown (.refl _)
      have hr' := (sameTable_erase (e := e) hphase).registered h.registered
      exact stage_of_unmoved h (nextConnId_withConn hf)
        ((h.stage e.2 hc).destroysHere onDown _ hloop hpc (ha hloop))
        fun d hd hne => (unmoved_erase hphase hne).trans (unmoved_withConn hr' hc hd hne hf)
  | @destroysThere e onDown left hphase he hloop =>
      have hc := h.placed.entries e (by rw [entries_destroying hphase]; exact he)
      refine stage_of_unmoved h rfl (h.stage e.2 hc).queued fun d hd hne => ?_
      exact (unmoved_erase hphase hne).trans (unmoved_push hne.symm)
  | destroysMembers hphase =>
      exact stage_of_forall_unmoved h rfl fun d hd =>
        unmoved_ended _ _ (entries_destroying hphase)
  | @quits i hphase =>
      refine stage_of_forall_unmoved h rfl fun d hd =>
        (unmoved_ended (.joining i) s.connections_ (entries_ended ?_)).trans
          (unmoved_setLoop rfl (le_refl _) fun hret => hret)
      rw [hphase]
      rfl
  | joins hphase hpc =>
      refine stage_of_forall_unmoved h rfl fun d hd => unmoved_ended _ _ (entries_ended ?_)
      rw [hphase]
      rfl

/-! ### The epoll sets -/

lemma Stage.down_of_destroyed {c : ConnId} (h : s.Stage c) (hd : s.destroyed c) :
    ∃ tail, (s.view c).Down tail := by
  cases h with
  | fresh h =>
      have hcalls : (s.trace c).map Prod.snd = [] := h.calls
      rw [destroyed, hcalls] at hd
      cases hd
  | up h => exact absurd hd h.calls
  | down htail h => exact ⟨_, h⟩

/-- A member function of a connection keeps the epoll sets right. -/
lemma Polled.withConn {c : ConnId} {t : LoopId} {op : Ctx → Ctx} (h : s.Polled) (hp : s.Placed)
    (hc : s.Made c) (hf : (s.ctx c t).Frame (op (s.ctx c t))) (hst : (s.withConn c t op).Stage c)
    (hepoll : s.destroyed c →
      (op (s.ctx c t)).poller_.epoll = (s.loops (s.conn c).loop_).poller_.epoll) :
    (s.withConn c t op).Polled := by
  have hy := applied_withConn hf
  by_cases hd : s.destroyed c
  · exact h.applied_destroyed hf hy hd (hepoll hd)
  · refine h.applied hp hc hf hy hd fun hdes => ?_
    obtain ⟨tail, hdown⟩ := hst.down_of_destroyed (hy.destroyed_self.mpr hdes)
    have hidx : ((s.withConn c t op).conn c).channel_.index_ ≠ kAdded := hdown.index
    rw [hy.conn_self] at hidx
    exact hidx

lemma Stage.not_destroyed {c : ConnId} {t : LoopId} (h : s.Stage c)
    (hm : .connectEstablished c ∈ s.queue c t) : ¬ s.destroyed c := by
  intro hd
  obtain ⟨tail, hx⟩ := h.down_of_destroyed hd
  cases h with
  | fresh h => cases h.state.symm.trans hx.state
  | up h => rcases h.state with hs | hs <;> cases hs.symm.trans hx.state
  | down htail h hqueue => exact hqueue t hm

/-- A connection already destroyed is down wherever it is looked at. -/
lemma Inv.down_ctx {c : ConnId} (h : s.Inv conf) (hc : s.Made c) (t : LoopId) (s₁ : ServerSys)
    (hconn : s₁.conn = s.conn) (htrace : s₁.trace = s.trace) (hd : s₁.destroyed c) :
    ∃ tail, (s₁.ctx c t).Down tail := by
  rw [destroyed, htrace] at hd
  obtain ⟨tail, hx⟩ := (h.stage c hc).down_of_destroyed hd
  exact ⟨tail, hx.alike (alike_ctx c t s₁ hconn htrace)⟩

lemma made_withConn {c d : ConnId} {t : LoopId} {op : Ctx → Ctx}
    (hf : (s.ctx c t).Frame (op (s.ctx c t))) : (s.withConn c t op).Made d ↔ s.Made d :=
  made_congr (applied_withConn hf).nextConnId_ d

lemma Polled.newConnection {sockfd : ℕ} {onUp : Script} (h : s.Polled) (hp : s.Placed)
    (halive : s.phase = .alive) (hfree : s.FreeFd sockfd)
    (hst : (newConnection conf sockfd onUp s).Stage s.nextConnId_) :
    (newConnection conf sockfd onUp s).Polled := by
  have h' : (ServerSys.addConnection conf sockfd s).Polled := h.addConnection hp hfree
  unfold ServerSys.newConnection at hst ⊢
  simp only at hst ⊢
  split_ifs at hst ⊢
  · refine h'.withConn (hp.addConnection halive sockfd) ⟨hp.next, Nat.lt_succ_self _⟩
      ((Ctx.primitive_frame _).connectEstablished onUp (.refl _)) hst fun hd => ?_
    rw [destroyed, addConnection_trace_new] at hd
    cases hd
  · exact h'.setLoop rfl

theorem polled_trans {a : ServerAct} (h : s.Inv conf) (ht : Trans conf s a s')
    (hst : ∀ c, s'.Made c → s'.Stage c) : s'.Polled := by
  have hprim := fun x => Ctx.primitive_frame x
  cases ht with
  | leaves hrun hpc hquit => exact h.polled.setLoop rfl
  | waits hrun hpc hquit => exact h.polled.setLoop rfl
  | @polls t ready hrun hpc hready =>
      obtain ⟨conn, he, hr⟩ := fillActiveChannels_eq t ready s
      have h' : Polled { s with conn := conn } := h.polled.congr rfl hr rfl fun _ => rfl
      rw [he]
      exact h'.setLoop rfl
  | accepts hpc halive hfd hid =>
      refine Polled.newConnection (h.polled.setLoop rfl) (h.placed.tail hpc) halive hfd (hst _ ?_)
      rw [made_congr (sameTable_newConnection _ _).next]
      exact ⟨h.placed.next, Nat.lt_succ_self _⟩
  | acceptFails hrun hpc => exact h.polled.setLoop rfl
  | @handles t env c active hrun hpc =>
      obtain ⟨hc, -⟩ := h.placed.report hpc
      have hf := (hprim ((s.setPc t (.handling active)).ctx c t)).handleEvent env (.refl _)
      have h' : (s.setPc t (.handling active)).Polled := h.polled.setLoop rfl
      refine h'.withConn (h.placed.tail hpc) hc hf (hst c ((made_withConn hf).mpr hc)) fun hd => ?_
      have hr : 0 < s.reports c t := by
        rw [reports, LoopThread.active, hpc]
        exact List.count_pos_iff.mpr (List.mem_cons_self ..)
      exact absurd hd ((h.stage c hc).up_of_reports hr).1.calls
  | swaps hrun hpc => exact h.polled.setLoop rfl
  | @establishes t env c batch hrun hpc =>
      have hc := (h.placed.head hpc).1
      have hf := (hprim ((s.setPc t (.functors batch)).ctx c t)).connectEstablished env.acts
        (.refl _)
      have h' : (s.setPc t (.functors batch)).Polled := h.polled.setLoop rfl
      refine h'.withConn (h.placed.rest hpc) hc hf (hst c ((made_withConn hf).mpr hc)) fun hd => ?_
      exact absurd hd ((h.stage c hc).not_destroyed (mem_queue_head hpc))
  | @destroys t env c batch hrun hpc =>
      have hc := (h.placed.head hpc).1
      have hf := (hprim ((s.setPc t (.functors batch)).ctx c t)).connectDestroy env.acts (.refl _)
      have h' : (s.setPc t (.functors batch)).Polled := h.polled.setLoop rfl
      refine h'.withConn (h.placed.rest hpc) hc hf (hst c ((made_withConn hf).mpr hc)) fun hd => ?_
      obtain ⟨tail, hx⟩ := h.down_ctx hc t (s.setPc t (.functors batch)) rfl rfl hd
      exact (hx.connectDestroy env.acts).2
  | removes hrun hpc halive =>
      exact h.polled.congr rfl (fun _ => ⟨_, rfl⟩) rfl fun i => by
        rw [removeConnectionInLoop, push_poller]
        exact setPc_poller ..
  | @runs t env f batch hrun hpc haux =>
      have hc := (h.placed.head hpc).1
      have hf := frame_auxOp env f ((s.setPc t (.functors batch)).ctx f.conn t)
      have h' : (s.setPc t (.functors batch)).Polled := h.polled.setLoop rfl
      have hst' := hst f.conn ((made_withConn hf).mpr hc)
      refine h'.withConn (h.placed.rest hpc) hc hf hst' fun hd => ?_
      obtain ⟨tail, hx⟩ := h.down_ctx hc t (s.setPc t (.functors batch)) rfl rfl hd
      exact congrArg _ (closed_auxOp (Ctx.closed_down tail _) env f ⟨hx, rfl⟩).2
  | endsBatch hrun hpc => exact h.polled.setLoop rfl
  | @userCalls t c act hc =>
      have hf := (hprim (s.ctx c t)).act act (.refl _)
      refine h.polled.withConn h.placed hc hf (hst c ((made_withConn hf).mpr hc)) fun hd => ?_
      obtain ⟨tail, hx⟩ := h.down_ctx hc t _ rfl rfl hd
      exact congrArg _ ((Ctx.closed_down tail _).act act ⟨hx, rfl⟩).2
  | beginsDestroy halive hpc => exact h.polled.congr rfl (fun _ => ⟨_, rfl⟩) rfl fun _ => rfl
  | @destroysHere e onDown left hphase he hloop =>
      have he' : e ∈ s.entries := entries_destroying hphase ▸ he
      have hc := h.placed.entries e he'
      have hf := (hprim (ctx e.2 0 { s with phase := .destroying (left.erase e) })).connectDestroy
        onDown (.refl _)
      have h' : Polled { s with phase := .destroying (left.erase e) } :=
        h.polled.congr rfl (fun _ => ⟨_, rfl⟩) rfl fun _ => rfl
      have hp' : Placed { s with phase := .destroying (left.erase e) } :=
        h.placed.setPhase _ _ (by
          rw [entries_destroying hphase]
          exact List.erase_subset)
      refine h'.withConn hp' hc hf (hst e.2 ((made_withConn hf).mpr hc)) fun hd => ?_
      obtain ⟨tail, hx⟩ := h.down_ctx hc 0 _ rfl rfl hd
      exact (hx.connectDestroy onDown).2
  | destroysThere hphase he hloop =>
      exact h.polled.congr rfl (fun _ => ⟨_, rfl⟩) rfl fun i => push_poller ..
  | destroysMembers hphase => exact h.polled.congr rfl (fun _ => ⟨_, rfl⟩) rfl fun _ => rfl
  | @quits i hphase =>
      have h' : Polled { s with phase := .joining i } :=
        h.polled.congr rfl (fun _ => ⟨_, rfl⟩) rfl fun _ => rfl
      exact h'.setLoop rfl
  | joins hphase hpc => exact h.polled.congr rfl (fun _ => ⟨_, rfl⟩) rfl fun _ => rfl

/-- **The invariant is kept by steps in order.** -/
theorem Inv.trans {a : ServerAct} (h : s.Inv conf) (ha : s.Orderly a) (ht : Trans conf s a s') :
    s'.Inv conf where
  placed := h.placed.trans ht
  registered := h.registered.trans ht
  phased := h.phased.trans ht
  polled := polled_trans h ht (stage_trans h ha ht)
  stage := stage_trans h ha ht

end ServerSys

end Reactor
