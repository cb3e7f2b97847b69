import Reactor.ServerProgress
import Reactor.SingleLoop

/-!
What becomes of a connection that is down: while the server lives, its base loop takes it out of
`connections_` and destroys it.

Only the base loop has to go on for that. What the other loops, the clients and the callbacks do
meanwhile does not matter.
-/

namespace Reactor

open Lib.Schedule

/-! ### Going down -/

namespace Ctx

variable {x : Ctx}

/-- The connection is not down. -/
def Standing (x : Ctx) : Prop := x.conn.state_ ≠ .kDisconnected

lemma Standing.congr {y : Ctx} (h : x.Standing) (hst : y.conn.state_ = x.conn.state_) :
    y.Standing := by
  rw [Standing, hst]
  exact h

/-- No callback of the user brings a connection down. -/
lemma closed_standing : Closed Standing where
  same hs h := by rw [hs]; exact h
  input _ h := h
  sendInLoop {x} data res h := by
    obtain ⟨-, hst, -⟩ := sendInLoop_fields data res x
    exact h.congr hst
  disconnecting _ _ := by
    change StateE.kDisconnectiong ≠ _
    decide
  shutdownInLoop {x} h := h.congr (shutdownInLoop_fields x).1

lemma standing_connectEstablished (onUp : Script) : (x.connectEstablished onUp).Standing := by
  have hup : ((x.log .connectEstablished).setState .kConnected).tie.enableReading.Standing := by
    change StateE.kConnected ≠ _
    decide
  exact closed_standing.runScript onUp hup

lemma Standing.handleWrite (h : x.Standing) (res : WriteResult) : (x.handleWrite res).Standing := by
  rcases handleWrite_cases res x with ⟨he, -⟩ | ⟨taken, rest, b, hw, -, -, -, he⟩
  · rw [he]
    exact h
  · have hwrote : (x.wrote taken b).Standing := h
    rw [he]
    split_ifs
    · exact hwrote.congr (drained_fields (x := x.wrote taken b) hw).1
    · exact hwrote

/-- The connection is not down, or the server has been told that it closes. -/
def Announced (x : Ctx) : Prop := x.Standing ∨ .closeCallback ∈ x.out

lemma primitive_told : Primitive fun x => .closeCallback ∈ x.out where
  log _ h := h
  queue _ _ _ h := List.mem_append_left _ h
  setState _ h := h
  tie h := h
  onChannel _ h := h
  accept _ h := h
  shutWr h := h
  input _ h := h
  output _ h := h
  close h := List.mem_append_left _ h

lemma told_handleClose (onDown : Script) : .closeCallback ∈ (x.handleClose onDown).out := by
  unfold Ctx.handleClose emit
  exact List.mem_append_right _ (List.mem_singleton.mpr rfl)

lemma Announced.handleRead (h : x.Announced) (res : ReadResult) (onMessage onDown : Script) :
    (x.handleRead res onMessage onDown).Announced := by
  rcases h with h | h
  swap
  · exact Or.inr (primitive_told.steady.handleRead res onMessage onDown h)
  obtain ⟨b, ⟨-, he⟩ | ⟨-, he⟩ | ⟨-, he⟩⟩ := handleRead_cases res onMessage onDown x <;> rw [he]
  · exact Or.inl h
  · exact Or.inr (told_handleClose onDown)
  · have hread :
        Standing (log .messageCallback { x.log .handleRead with conn.inputBuffer_ := b }) := h
    exact Or.inl (closed_standing.runScript onMessage hread)

lemma Announced.handleWrite (h : x.Announced) (res : WriteResult) :
    (x.handleWrite res).Announced :=
  h.imp (fun h => h.handleWrite res) (primitive_told.toQuiet.handleWrite res)

/-- **A connection that an event brings down** has told the server. -/
lemma announced_handleEvent (env : EventEnv) (h : x.Standing) : (x.handleEvent env).Announced :=
  handleEvent_of (fun _ => Or.inr (told_handleClose _)) (fun h => h.handleRead _ _ _)
    (fun h => h.handleWrite _) (Or.inl h)

end Ctx

namespace ServerSys

variable {conf : ServerConf} {s s' : ServerSys} {c : ConnId} {sched : ℕ → ServerAct}

/-! ### The table -/

lemma not_held_filter (hr : s.Registered conf) (halive : s.phase = .alive) (hc : s.Made c)
    (hm : s'.connections_ ⊆ s.connections_) (hname : ∀ e ∈ s'.connections_, e.1 ≠ (s.conn c).name_)
    (halive' : s'.phase = .alive) : ¬ s'.Held c := by
  rintro ⟨e, he, rfl⟩
  rw [entries_alive halive'] at he
  refine hname e he ?_
  rw [hr.name_ _ hc]
  exact hr.entries e (by rw [entries_alive halive]; exact hm he)

/-- A step that the server survives puts no entry back. -/
lemma Trans.not_held {a : ServerAct} (ht : Trans conf s a s') (hc : s.Made c)
    (h : ¬ s.Held c) : ¬ s'.Held c := by
  rintro ⟨e, he, rfl⟩
  rcases ht.sameTable with hs | ⟨active, sockfd, halive, -, hs⟩
  · exact h ⟨e, hs.entries he, rfl⟩
  · have hmem := hs.entries he
    rw [entries_alive (by exact halive)] at hmem
    rcases List.mem_append.mp hmem with hmem | hmem
    · refine h ⟨e, ?_, rfl⟩
      rw [entries_alive halive]
      exact List.mem_of_mem_filter hmem
    · rw [List.mem_singleton.mp hmem] at hc
      exact Nat.lt_irrefl _ hc.2

lemma effect_connections (t : LoopId) (e : Effect) (s : ServerSys) :
    (s.effect t c e).connections_ ⊆ s.connections_ ∧
      (e = .closeCallback → t = 0 →
        ∀ x ∈ (s.effect t c e).connections_, x.1 ≠ (s.conn c).name_) := by
  cases e with
  | queueInloop f => exact ⟨fun _ he => he, by rintro ⟨⟩⟩
  | closeCallback =>
      rw [effect, removeConnection]
      split_ifs with ht
      · exact ⟨List.filter_subset_self _,
          fun _ _ x hx => of_decide_eq_true (List.mem_filter.mp hx).2⟩
      · exact ⟨fun _ he => he, fun _ h0 => absurd h0 ht⟩

/-- A connection that closes in the base loop's thread is out of the table. -/
lemma connections_withConn {t : LoopId} (op : Ctx → Ctx) :
    (s.withConn c t op).connections_ ⊆ s.connections_ ∧
      (.closeCallback ∈ (op (s.ctx c t)).out → t = 0 →
        ∀ x ∈ (s.withConn c t op).connections_, x.1 ≠ (op (s.ctx c t)).conn.name_) := by
  have hfold : ∀ (es : List Effect) (s₁ : ServerSys),
      (es.foldl (effect t c) s₁).connections_ ⊆ s₁.connections_ ∧
        (.closeCallback ∈ es → t = 0 →
          ∀ x ∈ (es.foldl (effect t c) s₁).connections_, x.1 ≠ (s₁.conn c).name_) := by
    intro es
    induction es with
    | nil => exact fun s₁ => ⟨fun _ he => he, fun h => absurd h List.not_mem_nil⟩
    | cons e es ih =>
        intro s₁
        obtain ⟨hsub, hnames⟩ := effect_connections t e s₁ (c := c)
        obtain ⟨hsub', hnames'⟩ := ih (s₁.effect t c e)
        rw [List.foldl_cons]
        refine ⟨fun _ he => hsub (hsub' he), fun hmem ht x hx => ?_⟩
        rcases List.mem_cons.mp hmem with he | hmem
        · exact hnames he.symm ht x (hsub' hx)
        · rw [← effect_conn c t e s₁]
          exact hnames' hmem ht x hx
  have hname : ((s.put c (op (s.ctx c t))).conn c).name_ = (op (s.ctx c t)).conn.name_ :=
    congrArg TcpConnection.name_ (Function.update_self ..)
  obtain ⟨hsub, hnames⟩ := hfold (op (s.ctx c t)).out (s.put c (op (s.ctx c t)))
  rw [hname] at hnames
  exact ⟨hsub, hnames⟩

/-! ### What is still to come -/

/-- What is still to come for a connection that is down: the base loop has it queued to be taken
out of the table and to be destroyed, as long as that has not been done. -/
structure Leaving (c : ConnId) (s : ServerSys) : Prop where
  table : ¬ s.Held c ∨ .removeConnectionInLoop c ∈ (s.loops 0).jobs
  destroy : s.destroyed c ∨ .connectDestroy c ∈ (s.loops 0).jobs ∨
    .removeConnectionInLoop c ∈ (s.loops 0).jobs

/-- A connection that closes in the base loop's thread is out of the table. -/
lemma not_held_withConn {op : Ctx → Ctx} (hr : s.Registered conf) (halive : s.phase = .alive)
    (hc : s.Made c) (hf : (s.ctx c 0).Frame (op (s.ctx c 0)))
    (htold : .closeCallback ∈ (op (s.ctx c 0)).out) : ¬ (s.withConn c 0 op).Held c := by
  obtain ⟨hsub, hname⟩ := connections_withConn (s := s) (c := c) (t := 0) op
  refine not_held_filter hr halive hc hsub ?_ (by rw [(applied_withConn hf).phase, halive])
  have hsame : (op (s.ctx c 0)).conn.name_ = (s.conn c).name_ := hf.name_
  rw [← hsame]
  exact hname htold rfl

/-- A connection that tells the server that it closes is on its way. -/
lemma leaving_withConn {t : LoopId} {op : Ctx → Ctx} (hr : s.Registered conf)
    (halive : s.phase = .alive) (hc : s.Made c) (hf : (s.ctx c t).Frame (op (s.ctx c t)))
    (htold : .closeCallback ∈ (op (s.ctx c t)).out) : (s.withConn c t op).Leaving c := by
  have hpend : removal t c ∈ ((s.withConn c t op).loops 0).jobs :=
    List.mem_append_right _ (mem_pending_withConn.mpr (Or.inr (Or.inr ⟨rfl, htold, rfl⟩)))
  unfold removal at hpend
  split_ifs at hpend with ht
  · subst ht
    exact ⟨Or.inl (not_held_withConn hr halive hc hf htold), Or.inr (Or.inl hpend)⟩
  · exact ⟨Or.inr hpend, Or.inr (Or.inr hpend)⟩

lemma not_held_remove (hr : s.Registered conf) (halive : s.phase = .alive) (hc : s.Made c) :
    ¬ (s.removeConnectionInLoop c).Held c :=
  not_held_filter hr halive hc (List.filter_subset_self _)
    (fun _ hx => of_decide_eq_true (List.mem_filter.mp hx).2) halive

/-- **`removeConnectionInLoop`** takes the connection out of the table and has it destroyed. -/
lemma Trans.removed {a : ServerAct} {t : LoopId} (ht : Trans conf s a s') (hr : s.Registered conf)
    (hp : s.Placed) (h : .removeConnectionInLoop c ∈ s.takenBy a t) :
    ¬ s'.Held c ∧ .connectDestroy c ∈ (s'.loops 0).jobs := by
  obtain ⟨env, batch, rfl, hpc⟩ := head_of_mem_takenBy h
  cases ht with
  | establishes hrun hpc' | destroys hrun hpc' => cases hpc.symm.trans hpc'
  | runs hrun hpc' haux =>
      cases hpc.symm.trans hpc'
      cases haux
  | @removes _ _ d batch hrun hpc' halive =>
      cases hpc.symm.trans hpc'
      have hdestroy : .connectDestroy c ∈
          (((s.setPc t (.functors batch)).removeConnectionInLoop c).loops 0).pendingFuntors_ :=
        mem_pending_push.mpr (Or.inr ⟨rfl, rfl⟩)
      have hr' : (s.setPc t (.functors batch)).Registered conf :=
        (sameTable_setLoop _ _).registered hr
      exact ⟨not_held_remove hr' halive (hp.head hpc).1, List.mem_append_right _ hdestroy⟩

/-- A connection has a `connectDestroy` queued in `s'` only if it had so in `s`, or is out of the
table. -/
def DoomsAbsent (s s' : ServerSys) : Prop :=
  ∀ t c, .connectDestroy c ∈ (s'.loops t).jobs → .connectDestroy c ∈ (s.loops t).jobs ∨ ¬ s'.Held c

lemma DoomsAbsent.of_subset (h : ∀ t, (s'.loops t).jobs ⊆ (s.loops t).jobs) : s.DoomsAbsent s' :=
  fun t _ hm => Or.inl (h t hm)

lemma DoomsAbsent.after {s₁ : ServerSys} (h : ∀ t, (s₁.loops t).jobs ⊆ (s.loops t).jobs)
    (h' : s₁.DoomsAbsent s') : s.DoomsAbsent s' :=
  fun t c hm => (h' t c hm).imp_left fun hm => h t hm

lemma jobs_setLoop_subset {i : LoopId} {l : LoopThread} (h : l.jobs ⊆ (s.loops i).jobs)
    (t : LoopId) : ((s.setLoop i l).loops t).jobs ⊆ (s.loops t).jobs := by
  rw [setLoop_loops]
  split_ifs with ht
  · exact ht ▸ h
  · exact List.Subset.refl _

lemma jobs_setPc_subset {i : LoopId} {pc : ThreadPc} (h : pc.batch ⊆ (s.loops i).pc.batch)
    (t : LoopId) : ((s.setPc i pc).loops t).jobs ⊆ (s.loops t).jobs :=
  jobs_setLoop_subset (l := { s.loops i with pc := pc }) (List.append_subset.mpr
    ⟨fun _ hf => List.mem_append_left _ (h hf), List.subset_append_right _ _⟩) t

lemma doomsAbsent_push {i : LoopId} {f : Functor} (hf : ∀ c, f ≠ .connectDestroy c) :
    s.DoomsAbsent (s.push i f) := by
  intro t c hm
  rw [jobs_push] at hm
  rcases List.mem_append.mp hm with hm | hm
  · exact Or.inl hm
  · split_ifs at hm
    · exact absurd (List.mem_singleton.mp hm).symm (hf c)
    · cases hm

lemma doomsAbsent_withConn {t : LoopId} {op : Ctx → Ctx} (hr : s.Registered conf)
    (halive : s.phase = .alive) (hc : s.Made c) (hf : (s.ctx c t).Frame (op (s.ctx c t))) :
    s.DoomsAbsent (s.withConn c t op) := by
  intro i d hm
  rw [LoopThread.jobs, (applied_withConn hf).pc] at hm
  rcases List.mem_append.mp hm with hm | hm
  · exact Or.inl (List.mem_append_left _ hm)
  rcases mem_pending_withConn.mp hm with hm | ⟨-, hq⟩ | ⟨-, htold, hd⟩
  · exact Or.inl (List.mem_append_right _ hm)
  · obtain ⟨l, hl, hof⟩ := hf.out
    have hof := hof (.queueInloop (.connectDestroy d)) (by
      rw [hl] at hq
      simpa [ctx] using hq)
    cases hof.2
  · unfold removal at hd
    split_ifs at hd with ht
    · subst ht
      cases hd
      exact Or.inr (not_held_withConn hr halive hc hf htold)

lemma doomsAbsent_remove (hr : s.Registered conf) (halive : s.phase = .alive) (hc : s.Made c) :
    s.DoomsAbsent (s.removeConnectionInLoop c) := by
  intro i d hm
  rw [removeConnectionInLoop, jobs_push] at hm
  rcases List.mem_append.mp hm with hm | hm
  · exact Or.inl hm
  · split_ifs at hm
    · cases List.mem_singleton.mp hm
      exact Or.inr (not_held_remove hr halive hc)
    · cases hm

/-- The loop goes on to the next functor. -/
lemma jobs_rest_subset {i : LoopId} {f : Functor} {batch : List Functor}
    (hpc : (s.loops i).pc = .functors (f :: batch)) (t : LoopId) :
    ((s.setPc i (.functors batch)).loops t).jobs ⊆ (s.loops t).jobs :=
  jobs_setPc_subset (by rw [hpc]; exact List.subset_cons_self ..) t

/-- **While the server lives, it destroys only what is out of the table.** -/
theorem Trans.doomsAbsent {a : ServerAct} (ht : Trans conf s a s') (hp : s.Placed)
    (hr : s.Registered conf) (halive' : s'.phase = .alive) : s.DoomsAbsent s' := by
  have halive := ht.alive halive'
  have hprim := fun x => Ctx.primitive_frame x
  have hreg : ∀ t pc, (s.setPc t pc).Registered conf := fun _ _ =>
    (sameTable_setLoop _ _).registered hr
  cases ht with
  | leaves | waits => exact .of_subset (jobs_setLoop_subset (List.append_subset.mpr
      ⟨List.nil_subset _, by first | exact List.nil_subset _ | exact List.subset_append_right _ _⟩))
  | @polls t ready hrun hpc hready =>
      obtain ⟨conn, he, -⟩ := fillActiveChannels_eq t ready s
      rw [he]
      exact .of_subset (jobs_setPc_subset (s := { s with conn := conn }) (List.nil_subset _))
  | @accepts sockfd onUp active hpc _ hfd hid =>
      have hsub : ∀ t, ((addConnection conf sockfd (s.setPc 0 (.handling active))).loops t).jobs ⊆
          (s.loops t).jobs := jobs_setPc_subset (List.nil_subset _)
      refine .after hsub ?_
      have hmade : (addConnection conf sockfd (s.setPc 0 (.handling active))).Made
          (s.setPc 0 (.handling active)).nextConnId_ := ⟨hp.next, Nat.lt_succ_self _⟩
      unfold newConnection
      simp only
      split_ifs
      · exact doomsAbsent_withConn ((hreg 0 (.handling active)).addConnection halive hid sockfd)
          halive hmade ((hprim _).connectEstablished onUp (.refl _))
      · exact doomsAbsent_push (by rintro d ⟨⟩)
  | acceptFails hrun hpc | endsBatch hrun hpc =>
      exact .of_subset (jobs_setPc_subset (List.nil_subset _))
  | @handles t env d active hrun hpc =>
      exact .after (jobs_setPc_subset (List.nil_subset _)) (doomsAbsent_withConn (hreg _ _) halive
        (hp.report hpc).1 ((hprim _).handleEvent env (.refl _)))
  | swaps hrun hpc =>
      refine .of_subset (jobs_setLoop_subset (List.append_subset.mpr ⟨?_, List.nil_subset _⟩))
      exact List.subset_append_right _ _
  | @establishes t env d batch hrun hpc =>
      exact .after (jobs_rest_subset hpc) (doomsAbsent_withConn (hreg _ _) halive (hp.head hpc).1
        ((hprim _).connectEstablished env.acts (.refl _)))
  | @destroys t env d batch hrun hpc =>
      exact .after (jobs_rest_subset hpc) (doomsAbsent_withConn (hreg _ _) halive (hp.head hpc).1
        ((hprim _).connectDestroy env.acts (.refl _)))
  | @removes t env d batch hrun hpc _ =>
      exact .after (jobs_rest_subset hpc) (doomsAbsent_remove (hreg _ _) halive (hp.head hpc).1)
  | @runs t env f batch hrun hpc haux =>
      exact .after (jobs_rest_subset hpc) (doomsAbsent_withConn (hreg _ _) halive (hp.head hpc).1
        (frame_auxOp env f _))
  | @userCalls t d act hd =>
      exact doomsAbsent_withConn hr halive hd ((hprim _).act act (.refl _))
  | beginsDestroy => cases halive'
  | @destroysHere e onDown left hphase he hloop => cases hphase.symm.trans halive
  | destroysThere hphase | destroysMembers hphase | quits hphase | joins hphase =>
      cases hphase.symm.trans halive

/-- The connection is not down. -/
def Standing (c : ConnId) (s : ServerSys) : Prop := (s.conn c).state_ ≠ .kDisconnected

/-- A member function of a connection brings no other one down. -/
lemma standing_withConn {d : ConnId} {t : LoopId} {op : Ctx → Ctx}
    (hf : (s.ctx d t).Frame (op (s.ctx d t))) (h : s.Standing c)
    (hop : c = d → (s.ctx d t).Standing → (op (s.ctx d t)).Standing) :
    (s.withConn d t op).Standing c := by
  unfold Standing
  rcases eq_or_ne c d with rfl | hne
  · rw [(applied_withConn hf).conn_self]
    exact hop rfl h
  · rw [(applied_withConn hf).conn_of_ne hne]
    exact h

lemma Standing.auxOp {x : Ctx} {env : FunctorEnv} {f : Functor} (h : x.Standing) :
    (auxOp env f x).Standing := by
  unfold ServerSys.auxOp
  split
  · exact Ctx.closed_standing.sendInLoop _ _ h
  · exact Ctx.closed_standing.shutdownInLoop h
  · exact Ctx.closed_standing.runScript _ h

/-- **How a connection comes down while the server lives**: it closes, or it is destroyed. -/
theorem Trans.down {a : ServerAct} (ht : Trans conf s a s')
    (hr : s.Registered conf) (halive' : s'.phase = .alive) (hc : s.Made c) (h : s.Standing c) :
    s'.Standing c ∨ s'.Leaving c ∨
      s'.destroyed c ∧ ∃ t, .connectDestroy c ∈ (s.loops t).jobs := by
  have halive := ht.alive halive'
  have hprim := fun x => Ctx.primitive_frame x
  cases ht with
  | @polls t ready hrun hpc hready =>
      left
      obtain ⟨conn, he, hr⟩ := fillActiveChannels_eq t ready s
      obtain ⟨r, hr⟩ := hr c
      rw [he]
      change (conn c).state_ ≠ _
      rw [hr]
      exact h
  | @accepts sockfd onUp active hpc _ hfd hid =>
      left
      have hold : (addConnection conf sockfd (s.setPc 0 (.handling active))).Standing c := by
        unfold Standing
        rw [addConnection_conn (by exact hc)]
        exact h
      unfold newConnection
      simp only
      split_ifs
      · exact standing_withConn ((hprim _).connectEstablished onUp (.refl _)) hold
          fun _ _ => Ctx.standing_connectEstablished onUp
      · exact hold
  | @handles t env d active hrun hpc =>
      have hf := (hprim ((s.setPc t (.handling active)).ctx d t)).handleEvent env (.refl _)
      rcases eq_or_ne c d with rfl | hne
      · rcases Ctx.announced_handleEvent env
          (x := (s.setPc t (.handling active)).ctx c t) h with hst | htold
        · exact Or.inl (standing_withConn hf h fun _ _ => hst)
        · have hr' : (s.setPc t (.handling active)).Registered conf :=
            (sameTable_setLoop _ _).registered hr
          exact Or.inr (Or.inl (leaving_withConn hr' halive hc hf htold))
      · exact Or.inl (standing_withConn hf h fun he => absurd he hne)
  | @establishes t env d batch hrun hpc =>
      exact Or.inl (standing_withConn ((hprim _).connectEstablished env.acts (.refl _)) h
        fun _ _ => Ctx.standing_connectEstablished env.acts)
  | @destroys t env d batch hrun hpc =>
      rcases eq_or_ne c d with rfl | hne
      · refine Or.inr (Or.inr ⟨destroyed_withConn .., t, ?_⟩)
        rw [LoopThread.jobs, hpc]
        exact List.mem_cons_self ..
      · exact Or.inl (standing_withConn ((hprim _).connectDestroy env.acts (.refl _)) h
          fun he => absurd he hne)
  | @runs t env f batch hrun hpc haux =>
      exact Or.inl (standing_withConn (frame_auxOp env f _) h fun _ hst => Standing.auxOp hst)
  | @userCalls t d act hd =>
      exact Or.inl (standing_withConn ((hprim _).act act (.refl _)) h
        fun _ hst => Ctx.closed_standing.act act hst)
  | @destroysHere e onDown left hphase he hloop => cases hphase.symm.trans halive
  | _ => exact Or.inl h

/-- A connection is not down when it has been made. -/
lemma Trans.standing_new {a : ServerAct} (ht : Trans conf s a s') (hc : ¬ s.Made c)
    (hc' : s'.Made c) : s'.Standing c := by
  by_cases ha : ∃ sockfd onUp, a = .accept sockfd onUp
  swap
  · push Not at ha
    exact absurd ((made_congr (ht.nextConnId ha) c).mp hc') hc
  obtain ⟨sockfd, onUp, rfl⟩ := ha
  cases ht with
  | @accepts _ _ active hpc halive hfd hid =>
      have hadd : (addConnection conf sockfd (s.setPc 0 (.handling active))).Made c :=
        (made_congr (sameTable_newConnection sockfd onUp).next c).mp hc'
      rcases made_addConnection hadd with hold | rfl
      · exact absurd hold hc
      have hnew : (addConnection conf sockfd (s.setPc 0 (.handling active))).Standing
          (s.setPc 0 (.handling active)).nextConnId_ := by
        unfold Standing
        rw [addConnection_conn_new]
        change StateE.kConnecting ≠ _
        decide
      unfold newConnection
      simp only
      split_ifs
      · exact standing_withConn ((Ctx.primitive_frame _).connectEstablished onUp (.refl _)) hnew
          fun _ _ => Ctx.standing_connectEstablished onUp
      · exact hnew

/-! ### What the server keeps -/

/-- **What holds in every state of a run.** While the server lives, what is down is leaving, and
what is to be destroyed is out of the table. -/
structure Clearing (conf : ServerConf) (s : ServerSys) : Prop where
  placed : s.Placed
  registered : s.Registered conf
  phased : s.Phased
  leaving : s.phase = .alive → ∀ c, s.Made c → s.Standing c ∨ s.Leaving c
  absent : s.phase = .alive → ∀ t c, .connectDestroy c ∈ (s.loops t).jobs → ¬ s.Held c

lemma clearing_new : new.Clearing conf where
  placed := placed_new
  registered := registered_new
  phased := phased_new
  leaving _ _ hc := absurd (Nat.lt_of_le_of_lt hc.1 hc.2) (Nat.lt_irrefl 1)
  absent _ _ _ hm := absurd hm List.not_mem_nil

/-- What is leaving comes closer to having left. -/
lemma Clearing.leaves {a : ServerAct} (h : s.Clearing conf) (ht : Trans conf s a s')
    (halive : s.phase = .alive) (hc : s.Made c) (hl : s.Leaving c) : s'.Leaving c where
  table := by
    rcases hl.table with hno | hf
    · exact Or.inl (ht.not_held hc hno)
    · rcases h.phased.jobs ht halive hf with htaken | hf
      · exact Or.inl (ht.removed h.registered h.placed htaken).1
      · exact Or.inr hf
  destroy := by
    rcases hl.destroy with hd | hf | hf
    · exact Or.inl (ht.later.destroyed hc hd)
    · rcases h.phased.jobs ht halive hf with htaken | hf
      · exact Or.inl (ht.destroyed_of_taken htaken)
      · exact Or.inr (Or.inl hf)
    · rcases h.phased.jobs ht halive hf with htaken | hf
      · exact Or.inr (Or.inl (ht.removed h.registered h.placed htaken).2)
      · exact Or.inr (Or.inr hf)

theorem Clearing.trans {a : ServerAct} (h : s.Clearing conf) (ht : Trans conf s a s') :
    s'.Clearing conf where
  placed := h.placed.trans ht
  registered := h.registered.trans ht
  phased := h.phased.trans ht
  leaving halive' c hc' := by
    have halive := ht.alive halive'
    by_cases hc : s.Made c
    · rcases h.leaving halive c hc with hst | hl
      · rcases ht.down h.registered halive' hc hst with hst | hl | ⟨hd, t, hm⟩
        · exact Or.inl hst
        · exact Or.inr hl
        · exact Or.inr ⟨Or.inl (ht.not_held hc (h.absent halive t c hm)), Or.inl hd⟩
      · exact Or.inr (h.leaves ht halive hc hl)
    · exact Or.inl (ht.standing_new hc hc')
  absent halive' t c hm := by
    have halive := ht.alive halive'
    rcases ht.doomsAbsent h.placed h.registered halive' t c hm with hm | hno
    · exact ht.not_held (h.placed.jobs t _ hm).1 (h.absent halive t c hm)
    · exact hno

/-! ### What becomes of a closed connection -/

/-- The connection is destroyed and out of the table. -/
def Cleared (c : ConnId) (s : ServerSys) : Prop := s.destroyed c ∧ ¬ s.Held c

lemma not_held_later {n m : ℕ} (hc : (play (step conf) new sched n).Made c)
    (h : ¬ (play (step conf) new sched n).Held c) (hm : n ≤ m) :
    ¬ (play (step conf) new sched m).Held c :=
  (kept (fun s => s.Made c ∧ ¬ s.Held c)
    (fun _ _ _ ht h => ⟨ht.later.made h.1, ht.not_held h.1 h.2⟩) hm ⟨hc, h⟩).2

/-- A connection that has left stays so. -/
lemma cleared_later {n m : ℕ} (hc : (play (step conf) new sched n).Made c)
    (h : (play (step conf) new sched n).phase = .alive →
      (play (step conf) new sched n).Cleared c) (hm : n ≤ m)
    (halive : (play (step conf) new sched m).phase = .alive) :
    (play (step conf) new sched m).Cleared c := by
  let K (s : ServerSys) : Prop := s.Made c ∧ (s.phase = .alive → s.Cleared c)
  have hkeep : ∀ s a s', Trans conf s a s' → K s → K s' := by
    rintro s a s' ht ⟨hc, hs⟩
    refine ⟨ht.later.made hc, fun halive' => ?_⟩
    obtain ⟨hd, hno⟩ := hs (ht.alive halive')
    exact ⟨ht.later.destroyed hc hd, ht.not_held hc hno⟩
  exact (kept K hkeep hm ⟨hc, h⟩).2 halive

lemma clearing_play (n : ℕ) : (play (step conf) new sched n).Clearing conf :=
  holds_play clearing_new (fun _ _ _ ht h => h.trans ht) n

/-- The base loop comes to every functor queued on it. -/
lemma base_takes (fair : Fair conf 0 sched) {f : Functor} (Q : ServerSys → Prop)
    (htaken : ∀ s a s', s.Clearing conf → Trans conf s a s' → f ∈ s.takenBy a 0 → Q s') {n : ℕ}
    (h : f ∈ ((play (step conf) new sched n).loops 0).jobs) :
    ∃ m ≥ n, (play (step conf) new sched m).phase = .alive → Q (play (step conf) new sched m) := by
  obtain ⟨m, hm, hend⟩ := eventually_taken clearing_new (fun _ _ _ ht h => h.trans ht) fair
    (Nat.zero_le _) Q htaken h
  exact ⟨m, hm, fun halive => hend.resolve_left (not_not_intro halive)⟩

/-- What is leaving comes out of the table. -/
lemma eventually_removed (fair : Fair conf 0 sched) {n : ℕ}
    (hl : (play (step conf) new sched n).Leaving c) :
    ∃ m ≥ n, (play (step conf) new sched m).phase = .alive →
      ¬ (play (step conf) new sched m).Held c ∧
        ((play (step conf) new sched m).destroyed c ∨
          .connectDestroy c ∈ ((play (step conf) new sched m).loops 0).jobs) := by
  by_cases hjob : .removeConnectionInLoop c ∈ ((play (step conf) new sched n).loops 0).jobs
  · obtain ⟨m, hm, hend⟩ := base_takes fair
      (fun s => ¬ s.Held c ∧ .connectDestroy c ∈ (s.loops 0).jobs)
      (fun _ _ _ h ht htaken => ht.removed h.registered h.placed htaken) hjob
    exact ⟨m, hm, fun halive => (hend halive).imp_right Or.inr⟩
  · refine ⟨n, le_rfl, fun _ => ⟨hl.table.resolve_right hjob, ?_⟩⟩
    exact hl.destroy.imp_right fun hd => hd.resolve_right hjob

/-- **What becomes of a closed connection.** Under any schedule that lets the base loop's thread go
on while the server lives, a connection that is down is taken out of `connections_` and destroyed,
and stays so. No wait needs its timeout for that. -/
theorem closed_cleared (conf : ServerConf) (sched : ℕ → ServerAct) (fair : Fair conf 0 sched)
    (n : ℕ) (c : ConnId) (hc : (play (step conf) new sched n).Made c)
    (hdown : ((play (step conf) new sched n).conn c).state_ = .kDisconnected) :
    ∃ m ≥ n, ∀ k ≥ m, (play (step conf) new sched k).phase = .alive →
      (play (step conf) new sched k).destroyed c ∧ ¬ (play (step conf) new sched k).Held c := by
  -- once it is cleared, or the server no longer lives, there is nothing more to do
  have hlast : ∀ m ≥ n, ((play (step conf) new sched m).phase = .alive →
      (play (step conf) new sched m).Cleared c) →
      ∃ m ≥ n, ∀ k ≥ m, (play (step conf) new sched k).phase = .alive →
        (play (step conf) new sched k).Cleared c := fun m hm h =>
    ⟨m, hm, fun k hk => cleared_later (made_later hc hm) h hk⟩
  by_cases halive : (play (step conf) new sched n).phase = .alive
  swap
  · exact hlast n le_rfl fun h => absurd h halive
  have hl := ((clearing_play n).leaving halive c hc).resolve_left fun hst => hst hdown
  obtain ⟨m, hm, hstage⟩ := eventually_removed fair hl
  by_cases halive : (play (step conf) new sched m).phase = .alive
  swap
  · exact hlast m hm fun h => absurd h halive
  obtain ⟨hno, hd | hjob⟩ := hstage halive
  · exact hlast m hm fun _ => ⟨hd, hno⟩
  obtain ⟨k, hk, hend⟩ := base_takes fair (destroyed c)
    (fun _ _ _ _ ht htaken => ht.destroyed_of_taken htaken) hjob
  refine hlast k (hm.trans hk) fun halive => ⟨hend halive, ?_⟩
  exact not_held_later (made_later hc hm) hno hk

theorem closed_cleared_hangsUp :
    ∃ m ≥ 14, ∀ k ≥ m, (play (step (.echo 1)) new hangsUp k).phase = .alive →
      (play (step (.echo 1)) new hangsUp k).destroyed 1 ∧
        ¬ (play (step (.echo 1)) new hangsUp k).Held 1 :=
  closed_cleared (.echo 1) hangsUp (fair_hangsUp 0) 14 1 (by decide +kernel) (by decide +kernel)

end ServerSys

end Reactor
