import Reactor.ServerSteps

/-!
Where the connections of a server are spoken of: functors and events of a connection reach its
own loop only, but for what `removeConnection` queues on the base loop.
-/

namespace Reactor

/-- Where a functor may be queued: on the loop of its connection, and on the base loop what
`removeConnection` queues. -/
def Functor.At (loop : LoopId) : Functor → LoopId → Prop
  | .connectDestroy _, t => t = loop ∨ t = 0
  | .removeConnectionInLoop _, _ => True
  | _, t => t = loop

lemma Functor.at_of_isAux {f : Functor} (h : f.isAux = true) (loop : LoopId) :
    f.At loop loop := by
  cases f <;> first | rfl | cases h

namespace ServerSys

variable {conf : ServerConf} {s s' : ServerSys}

/-- The connections the server still has to see to. -/
def entries (s : ServerSys) : ConnectionMap :=
  match s.phase with
  | .alive => s.connections_
  | .destroying left => left
  | _ => []

lemma entries_alive (h : s.phase = .alive) : s.entries = s.connections_ := by
  rw [entries, h]

lemma entries_destroying {left : ConnectionMap} (h : s.phase = .destroying left) :
    s.entries = left := by
  rw [entries, h]

lemma Applied.entries {c : ConnId} {t : LoopId} {y : Ctx} (h : Applied c t y s s') :
    s'.entries = s.entries ∨ .closeCallback ∈ y.out ∧
      s'.entries = s.entries.filter fun e => e.1 ≠ y.conn.name_ := by
  unfold ServerSys.entries
  rw [h.phase]
  split
  · exact h.connections_
  · exact Or.inl rfl
  · exact Or.inl rfl

lemma made_congr (h : s'.nextConnId_ = s.nextConnId_) (c : ConnId) : s'.Made c ↔ s.Made c := by
  rw [Made, Made, h]

/-- What is queued, reported or registered belongs to the loop where it is, and to a
connection that exists. -/
structure Placed (s : ServerSys) : Prop where
  next : 1 ≤ s.nextConnId_
  jobs : ∀ t, ∀ f ∈ (s.loops t).jobs, s.Made f.conn ∧ f.At (s.conn f.conn).loop_ t
  active : ∀ t c, .conn c ∈ (s.loops t).active → s.Made c ∧ (s.conn c).loop_ = t
  epoll : ∀ t n m c, (s.loops t).poller_.epoll n = some (m, c) →
    s.Made c ∧ (s.conn c).loop_ = t
  entries : ∀ e ∈ s.entries, s.Made e.2

lemma placed_new : new.Placed where
  next := le_refl 1
  jobs _ f hf := absurd hf (List.not_mem_nil)
  active _ c hc := absurd hc (List.not_mem_nil)
  epoll _ _ _ _ h := by cases h
  entries e he := absurd he (List.not_mem_nil)

/-- Taking functors, reports and connections away breaks nothing. -/
lemma Placed.mono (h : s.Placed) (hloop : ∀ c, (s'.conn c).loop_ = (s.conn c).loop_)
    (hnext : s'.nextConnId_ = s.nextConnId_)
    (hjobs : ∀ t, (s'.loops t).jobs ⊆ (s.loops t).jobs)
    (hactive : ∀ t, (s'.loops t).active ⊆ (s.loops t).active)
    (hpoller : ∀ t, (s'.loops t).poller_ = (s.loops t).poller_)
    (hentries : s'.entries ⊆ s.entries) : s'.Placed where
  next := hnext ▸ h.next
  jobs t f hf := by
    rw [made_congr hnext, hloop]
    exact h.jobs t f (hjobs t hf)
  active t c hc := by
    rw [made_congr hnext, hloop]
    exact h.active t c (hactive t hc)
  epoll t n m c hc := by
    rw [made_congr hnext, hloop]
    exact h.epoll t n m c (hpoller t ▸ hc)
  entries e he := by
    rw [made_congr hnext]
    exact h.entries e (hentries he)

/-- A member function of an existing connection keeps what it queues and registers in
place. -/
lemma Placed.applied {c : ConnId} {t : LoopId} {y : Ctx} (h : s.Placed) (hc : s.Made c)
    (hf : (s.ctx c t).Frame y) (hy : Applied c t y s s') : s'.Placed := by
  have hloop : ∀ d, (s'.conn d).loop_ = (s.conn d).loop_ := by
    intro d
    rw [hy.conn]
    rcases eq_or_ne d c with rfl | hd
    · rw [Function.update_self]
      exact hf.loop_
    · rw [Function.update_of_ne hd]
  refine ⟨hy.nextConnId_ ▸ h.next, fun i f hfj => ?_, fun i d hd => ?_, fun i n m d hd => ?_,
    fun e he => ?_⟩ <;> rw [made_congr hy.nextConnId_]
  · obtain ⟨l, hl, hof⟩ := hy.jobs i
    rw [hloop]
    rw [hl] at hfj
    rcases List.mem_append.mp hfj with hfj | hfj
    · exact h.jobs i f hfj
    · obtain ⟨hfc, ⟨haux, hi⟩ | ⟨-, hi, hf | hf⟩⟩ := hof f hfj
      · rw [hfc, hi]
        exact ⟨hc, Functor.at_of_isAux haux _⟩
      · rw [hfc, hf]
        exact ⟨hc, Or.inr hi⟩
      · rw [hfc, hf]
        exact ⟨hc, trivial⟩
  · rw [hloop]
    rw [hy.active] at hd
    exact h.active i d hd
  · rw [hloop]
    rw [hy.poller_] at hd
    split_ifs at hd with hi
    · -- the poller of `c`: the entry is an old one, or it is that of `c`
      have hold : d = c ∨ (s.loops i).poller_.epoll n = some (m, d) := by
        rw [hi]
        rcases eq_or_ne n (s.ctx c t).fd with rfl | hn
        · exact hf.own m d hd
        · exact Or.inr ((hf.others n hn).symm.trans hd)
      rcases hold with rfl | hold
      · exact ⟨hc, hi.symm⟩
      · exact h.epoll i n m d hold
    · exact h.epoll i n m d hd
  · rcases hy.entries with hm | ⟨-, hm⟩
    · exact h.entries e (hm ▸ he)
    · rw [hm] at he
      exact h.entries e (List.mem_of_mem_filter he)

lemma Placed.setLoop {t : LoopId} {l : LoopThread} (h : s.Placed)
    (hjobs : l.jobs ⊆ (s.loops t).jobs) (hactive : l.active ⊆ (s.loops t).active)
    (hpoller : l.poller_ = (s.loops t).poller_) : (s.setLoop t l).Placed := by
  refine h.mono (fun _ => rfl) rfl (fun i => ?_) (fun i => ?_) (fun i => ?_) (fun _ he => he) <;>
    rw [setLoop_loops] <;> split_ifs with hi
  · exact hi ▸ hjobs
  · exact fun _ hf => hf
  · exact hi ▸ hactive
  · exact fun _ ha => ha
  · exact hi ▸ hpoller
  · rfl

lemma Placed.setPc {t : LoopId} {pc : ThreadPc} (h : s.Placed)
    (hbatch : pc.batch ⊆ (s.loops t).pc.batch) (hactive : pc.active ⊆ (s.loops t).pc.active) :
    (s.setPc t pc).Placed :=
  h.setLoop (List.append_subset.mpr ⟨fun _ hf => List.mem_append_left _ (hbatch hf),
    List.subset_append_right _ _⟩) hactive rfl

/-- A step of `~TcpServer` that leaves the loops alone. -/
lemma Placed.setPhase (h : s.Placed) (phase : Phase) (m : ConnectionMap)
    (hm : ServerSys.entries { s with phase := phase, connections_ := m } ⊆ s.entries) :
    Placed { s with phase := phase, connections_ := m } :=
  h.mono (fun _ => rfl) rfl (fun _ _ hf => hf) (fun _ _ ha => ha) (fun _ => rfl) hm

lemma Placed.push {t : LoopId} {f : Functor} (h : s.Placed) (hc : s.Made f.conn)
    (hf : f.At (s.conn f.conn).loop_ t) : (s.push t f).Placed where
  next := h.next
  jobs i g hg := by
    rw [jobs_push] at hg
    rcases List.mem_append.mp hg with hg | hg
    · exact h.jobs i g hg
    · split_ifs at hg with hi
      · rw [List.mem_singleton.mp hg, hi]
        exact ⟨hc, hf⟩
      · cases hg
  active i c hi := by
    rw [LoopThread.active, push_pc] at hi
    exact h.active i c hi
  epoll i n m c hi := by
    rw [push_poller] at hi
    exact h.epoll i n m c hi
  entries := h.entries

lemma Made.addConnection {c : ConnId} (h : s.Made c) (sockfd : ℕ) :
    (addConnection conf sockfd s).Made c := ⟨h.1, Nat.lt_succ_of_lt h.2⟩

lemma addConnection_conn {c : ConnId} (h : s.Made c) (sockfd : ℕ) :
    (addConnection conf sockfd s).conn c = s.conn c := Function.update_of_ne (Nat.ne_of_lt h.2) ..

/-- A new connection is one that nothing refers to yet. -/
lemma Placed.addConnection (h : s.Placed) (halive : s.phase = .alive) (sockfd : ℕ) :
    (addConnection conf sockfd s).Placed := by
  refine ⟨Nat.le_add_left .., fun t f hf => ?_, fun t c hc => ?_, fun t n m c hc => ?_,
    fun e he => ?_⟩
  · obtain ⟨hmade, hat⟩ := h.jobs t f hf
    rw [addConnection_conn hmade]
    exact ⟨hmade.addConnection sockfd, hat⟩
  · obtain ⟨hmade, hat⟩ := h.active t c hc
    rw [addConnection_conn hmade]
    exact ⟨hmade.addConnection sockfd, hat⟩
  · obtain ⟨hmade, hat⟩ := h.epoll t n m c hc
    rw [addConnection_conn hmade]
    exact ⟨hmade.addConnection sockfd, hat⟩
  · rw [entries_alive (by exact halive)] at he
    rcases List.mem_append.mp he with he | he
    · have hold := h.entries e (by
        rw [entries_alive halive]
        exact List.mem_of_mem_filter he)
      exact hold.addConnection sockfd
    · rw [List.mem_singleton.mp he]
      exact ⟨h.next, Nat.lt_succ_self _⟩

lemma addConnection_conn_new (sockfd : ℕ) (s : ServerSys) :
    (addConnection conf sockfd s).conn s.nextConnId_ = newConn conf sockfd s :=
  Function.update_self ..

lemma Placed.newConnection (h : s.Placed) (halive : s.phase = .alive) (sockfd : ℕ)
    (onUp : Script) : (newConnection conf sockfd onUp s).Placed := by
  have h' : (ServerSys.addConnection conf sockfd s).Placed := h.addConnection halive sockfd
  have hmade : (ServerSys.addConnection conf sockfd s).Made s.nextConnId_ :=
    ⟨h.next, Nat.lt_succ_self _⟩
  unfold ServerSys.newConnection
  simp only
  split_ifs with hloop
  · have hf := (Ctx.primitive_frame _).connectEstablished onUp
      (Ctx.Frame.refl ((ServerSys.addConnection conf sockfd s).ctx s.nextConnId_ 0))
    exact h'.applied hmade hf (applied_withConn hf)
  · refine h'.push hmade ?_
    change _ = (((ServerSys.addConnection conf sockfd s).conn s.nextConnId_).loop_)
    rw [addConnection_conn_new]
    rfl

lemma Placed.withConn {c : ConnId} {t : LoopId} {op : Ctx → Ctx} (h : s.Placed)
    (hc : s.Made c) (hf : (s.ctx c t).Frame (op (s.ctx c t))) : (s.withConn c t op).Placed :=
  h.applied hc hf (applied_withConn hf)

/-- What is reported is registered. -/
lemma Placed.polls (h : s.Placed) (t : LoopId) (ready : List Ready) :
    (s.fillActiveChannels t ready).Placed := by
  obtain ⟨conn, he, hr⟩ := fillActiveChannels_eq t ready s
  have hloop : ∀ c, (conn c).loop_ = (s.conn c).loop_ := by
    intro c
    obtain ⟨r, hr⟩ := hr c
    rw [hr]
    rfl
  have h' : Placed { s with conn := conn } :=
    h.mono hloop rfl (fun _ _ hf => hf) (fun _ _ ha => ha) (fun _ => rfl) (fun _ he => he)
  rw [he]
  refine ⟨h'.next, fun i f hf => h'.jobs i f ?_, fun i c hc => ?_, fun i n m c hc => ?_,
    h'.entries⟩
  · rw [jobs_setPc] at hf
    split_ifs at hf
    · exact List.mem_append_right _ hf
    · exact hf
  · rw [active_setPc] at hc
    split_ifs at hc with hi
    · obtain ⟨n, m, hent⟩ := mem_activeOf hc
      rw [hi]
      exact h'.epoll t n m c hent
    · exact h'.active i c hc
  · rw [setPc_poller] at hc
    exact h'.epoll i n m c hc

lemma frame_auxOp (env : FunctorEnv) (f : Functor) (x : Ctx) : x.Frame (auxOp env f x) := by
  have h := Ctx.primitive_frame x
  unfold auxOp
  split
  · exact h.sendInLoop _ _ (.refl x)
  · exact h.shutdownInLoop (.refl x)
  · exact h.runScript _ (.refl x)

/-- The functor at the head of a batch is in its place. -/
lemma Placed.head {t : LoopId} {f : Functor} {batch : List Functor} (h : s.Placed)
    (hpc : (s.loops t).pc = .functors (f :: batch)) :
    s.Made f.conn ∧ f.At (s.conn f.conn).loop_ t := by
  refine h.jobs t f ?_
  rw [LoopThread.jobs, hpc]
  exact List.mem_cons_self ..

/-- So is the channel at the head of those to handle. -/
lemma Placed.report {t : LoopId} {c : ConnId} {active : List ActiveChannel} (h : s.Placed)
    (hpc : (s.loops t).pc = .handling (.conn c :: active)) :
    s.Made c ∧ (s.conn c).loop_ = t := by
  refine h.active t c ?_
  rw [LoopThread.active, hpc]
  exact List.mem_cons_self ..

lemma Placed.rest {t : LoopId} {f : Functor} {batch : List Functor} (h : s.Placed)
    (hpc : (s.loops t).pc = .functors (f :: batch)) : (s.setPc t (.functors batch)).Placed := by
  refine h.setPc ?_ (List.nil_subset _)
  rw [hpc]
  exact List.subset_cons_self ..

lemma Placed.tail {t : LoopId} {e : ActiveChannel} {active : List ActiveChannel} (h : s.Placed)
    (hpc : (s.loops t).pc = .handling (e :: active)) : (s.setPc t (.handling active)).Placed := by
  refine h.setPc (List.nil_subset _) ?_
  rw [hpc]
  exact List.subset_cons_self ..

/-- **A step puts nothing in a wrong place.** -/
theorem Placed.trans {a : ServerAct} (h : s.Placed) (ht : Trans conf s a s') : s'.Placed := by
  cases ht with
  | leaves hrun hpc hquit => exact h.setLoop (List.nil_subset _) (List.nil_subset _) rfl
  | waits hrun hpc hquit => exact h.setPc (List.nil_subset _) (List.nil_subset _)
  | polls hrun hpc hready => exact h.polls _ _
  | accepts hpc halive hfd hid => exact (h.tail hpc).newConnection halive _ _
  | acceptFails hrun hpc => exact h.tail hpc
  | handles hrun hpc =>
      exact (h.tail hpc).withConn (h.report hpc).1 ((Ctx.primitive_frame _).handleEvent _ (.refl _))
  | swaps hrun hpc =>
      refine h.setLoop ?_ (List.nil_subset _) rfl
      rw [LoopThread.jobs, LoopThread.jobs, hpc, ThreadPc.batch, List.append_nil]
      exact List.subset_append_right _ _
  | establishes hrun hpc =>
      exact (h.rest hpc).withConn (h.head hpc).1
        ((Ctx.primitive_frame _).connectEstablished _ (.refl _))
  | destroys hrun hpc =>
      exact (h.rest hpc).withConn (h.head hpc).1
        ((Ctx.primitive_frame _).connectDestroy _ (.refl _))
  | @removes t env c batch hrun hpc halive =>
      have h' := (h.rest hpc).setPhase s.phase
        (s.connections_.filter fun e => e.1 ≠ (s.conn c).name_) (by
          rw [entries_alive (by exact halive), entries_alive (by exact halive)]
          exact List.filter_subset_self _)
      exact h'.push (f := .connectDestroy c) (h.head hpc).1 (Or.inr rfl)
  | runs hrun hpc haux => exact (h.rest hpc).withConn (h.head hpc).1 (frame_auxOp _ _ _)
  | endsBatch hrun hpc => exact h.setPc (List.nil_subset _) (List.nil_subset _)
  | userCalls hc => exact h.withConn hc ((Ctx.primitive_frame _).act _ (.refl _))
  | beginsDestroy halive hpc =>
      refine h.setPhase _ _ ?_
      rw [entries_alive halive]
      exact fun _ he => he
  | @destroysHere e onDown left hphase he hloop =>
      have he' : e ∈ s.entries := entries_destroying hphase ▸ he
      have h' := h.setPhase (.destroying (left.erase e)) s.connections_ (by
        rw [entries_destroying hphase]
        exact List.erase_subset)
      exact h'.withConn (h.entries e he') ((Ctx.primitive_frame _).connectDestroy _ (.refl _))
  | @destroysThere e onDown left hphase he hloop =>
      have he' : e ∈ s.entries := entries_destroying hphase ▸ he
      have h' := h.setPhase (.destroying (left.erase e)) s.connections_ (by
        rw [entries_destroying hphase]
        exact List.erase_subset)
      exact h'.push (f := .connectDestroy e.2) (h.entries e he') (Or.inl rfl)
  | destroysMembers hphase =>
      refine h.setPhase _ _ ?_
      unfold ServerSys.entries
      simp only
      split <;> first | exact List.nil_subset _ | split_ifs at *
  | @quits i hphase =>
      have h' := h.setPhase (.joining i) s.connections_ (List.nil_subset _)
      exact h'.setLoop (fun _ hf => hf) (fun _ ha => ha) rfl
  | joins hphase hpc =>
      refine h.setPhase _ _ ?_
      unfold ServerSys.entries
      simp only
      split <;> first | exact List.nil_subset _ | split_ifs at *

end ServerSys

end Reactor
