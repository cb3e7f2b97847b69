import Reactor.ConnStage

/-!
How the steps of a server take its connections from stage to stage.

Three kinds of steps break the order of the stages. `handleEvent` goes on to read after a
hang-up with urgent data. `connectDestroy` leaves a connection in `kDisconnectiong` as it is. A
loop that quits drops the functors still queued, and `connectDestroy` with them.
-/

namespace Reactor

namespace ServerSys

variable {conf : ServerConf} {s s' : ServerSys}

/-- The steps that do none of these. -/
def Orderly (s : ServerSys) : ServerAct → Prop
  | .handle t env =>
    match (s.loops t).pc with
    | .handling (.conn c :: _) =>
      ¬ (Channel.hangsUp (s.conn c).channel_.revents_ ∧
        Channel.reads (s.conn c).channel_.revents_ ∧ env.read.isOk)
    | _ => True
  | .functor t _ =>
    match (s.loops t).pc with
    | .functors (.connectDestroy c :: _) => (s.conn c).state_ ≠ .kDisconnectiong
    | _ => True
  | .destroyNext e _ => (s.conn e.2).loop_ = 0 → (s.conn e.2).state_ ≠ .kDisconnectiong
  | .check t => (s.loops t).quit_ = true →
    ∀ f ∈ (s.loops t).jobs, f = .connectDestroy f.conn → (s.conn f.conn).state_ = .kDisconnected
  | _ => True

instance (s : ServerSys) (a : ServerAct) : Decidable (s.Orderly a) := by
  unfold Orderly
  split
  · split <;> infer_instance
  · split <;> infer_instance
  · infer_instance
  · infer_instance
  · infer_instance

/-! ### Where a connection is spoken of -/

/-- A connection of which an event is reported is up. -/
lemma Stage.up_of_reports {c : ConnId} {t : LoopId} (h : s.Stage c) (hr : 0 < s.reports c t) :
    (s.view c).Up ∧ s.Attended [] 1 c ∧ t = (s.conn c).loop_ := by
  have hzero : ∀ {first n}, s.Attended first n c → (n = 0 ∨ t ≠ (s.conn c).loop_) → False := by
    intro first n ha hn
    have hle := ha.reports t
    split_ifs at hle with ht
    · rcases hn with hn | hn
      · omega
      · exact hn ht
    · omega
  cases h with
  | fresh h hl ha => exact (hzero ha (Or.inl rfl)).elim
  | up h ha => exact ⟨h, ha, not_not.mp fun ht => hzero ha (Or.inr ht)⟩
  | down htail h hqueue hreports => exact absurd (hreports t) (Nat.ne_of_gt hr)

/-- A functor of a connection that is not down waits on its loop. -/
lemma Attended.loop_of_mem {first : List Functor} {n : ℕ} {c : ConnId} {t : LoopId} {f : Functor}
    (ha : s.Attended first n c) (hf : f ∈ s.queue c t) : t = (s.conn c).loop_ := by
  by_contra ht
  rw [ha.elsewhere t ht] at hf
  cases hf

lemma queue_head {t : LoopId} {f : Functor} {batch : List Functor}
    (hpc : (s.loops t).pc = .functors (f :: batch)) :
    s.queue f.conn t = f :: (s.setPc t (.functors batch)).queue f.conn t := by
  rw [queue, queue, jobs_setPc, if_pos rfl, LoopThread.jobs, hpc]
  simp [ThreadPc.batch]

lemma mem_queue_head {t : LoopId} {f : Functor} {batch : List Functor}
    (hpc : (s.loops t).pc = .functors (f :: batch)) : f ∈ s.queue f.conn t := by
  rw [queue_head hpc]
  exact List.mem_cons_self ..

lemma queue_rest {c : ConnId} {t i : LoopId} {pc : ThreadPc} (hi : i ≠ t) :
    (s.setPc t pc).queue c i = s.queue c i := by
  rw [queue, queue, jobs_setPc, if_neg hi]

/-- The head of a batch is taken off. -/
lemma Attended.rest {first first' rest : List Functor} {n : ℕ} {t : LoopId} {f : Functor}
    {batch : List Functor} (ha : s.Attended first n f.conn)
    (hpc : (s.loops t).pc = .functors (f :: batch))
    (hrest : s.queue f.conn (s.conn f.conn).loop_ = f :: (first' ++ rest))
    (haux : ∀ g ∈ rest, g.isAux = true ∨ g = .connectDestroy f.conn)
    (hheld : s.Held f.conn ∨ .connectDestroy f.conn ∈ rest) :
    (s.setPc t (.functors batch)).Attended first' n f.conn := by
  have hq := queue_head hpc
  have ht : t = (s.conn f.conn).loop_ := ha.loop_of_mem (mem_queue_head hpc)
  have hloop : ((s.setPc t (.functors batch)).conn f.conn).loop_ = t := ht.symm
  refine ⟨fun i hi => ?_, ⟨rest, ?_, haux, hheld⟩, fun i => ?_, ?_⟩ <;> rw [hloop] at *
  · rw [queue_rest hi]
    exact ha.elsewhere i (ht ▸ hi)
  · rw [← ht, hq] at hrest
    exact (List.cons.inj hrest).2
  · rw [reports_setPc]
    have hle := ha.reports i
    rw [← ht] at hle
    split_ifs at hle ⊢
    · exact Nat.zero_le _
    · exact hle
  · rw [setPc_pc, if_pos rfl]
    simp

lemma Attended.pop {first : List Functor} {n : ℕ} {t : LoopId} {f : Functor}
    {batch : List Functor} (ha : s.Attended (f :: first) n f.conn)
    (hpc : (s.loops t).pc = .functors (f :: batch)) :
    (s.setPc t (.functors batch)).Attended first n f.conn := by
  obtain ⟨rest, hrest, haux, hheld⟩ := ha.here
  exact ha.rest hpc hrest haux hheld

/-- A functor that a member function queued is taken off. -/
lemma Attended.pop_aux {n : ℕ} {t : LoopId} {f : Functor} {batch : List Functor}
    (ha : s.Attended [] n f.conn) (hpc : (s.loops t).pc = .functors (f :: batch))
    (haux : f.isAux = true) : (s.setPc t (.functors batch)).Attended [] n f.conn := by
  obtain ⟨rest, hrest, hall, hheld⟩ := ha.here
  have hq := queue_head hpc
  have ht : t = (s.conn f.conn).loop_ := ha.loop_of_mem (mem_queue_head hpc)
  rw [← ht, hq, List.nil_append] at hrest
  subst hrest
  refine ha.rest hpc (ht ▸ hq) (fun g hg => hall g (List.mem_cons_of_mem _ hg)) ?_
  refine hheld.imp_right fun hm => ?_
  rcases List.mem_cons.mp hm with he | hm
  · rw [← he] at haux
    cases haux
  · exact hm

lemma reports_pop (c : ConnId) {t i : LoopId} {batch : List Functor} (h : s.reports c i = 0) :
    (s.setPc t (.functors batch)).reports c i = 0 := by
  rw [reports_setPc]
  split_ifs
  · rfl
  · exact h

lemma not_mem_pop {c : ConnId} {t i : LoopId} {f : Functor} {batch : List Functor}
    (hpc : (s.loops t).pc = .functors (f :: batch)) (h : .connectEstablished c ∉ s.queue c i) :
    .connectEstablished c ∉ (s.setPc t (.functors batch)).queue c i := by
  intro hm
  refine h (List.mem_filter.mpr ⟨?_, (List.mem_filter.mp hm).2⟩)
  have hm' := (List.mem_filter.mp hm).1
  rw [jobs_setPc] at hm'
  split_ifs at hm' with hi
  · rw [hi] at hm'
    rw [LoopThread.jobs, hi, hpc]
    exact List.mem_cons_of_mem _ hm'
  · exact hm'

lemma Attended.mono {first : List Functor} {n m : ℕ} {c : ConnId} (hn : n ≤ m)
    (ha : s.Attended first n c) : s.Attended first m c := by
  refine { ha with reports := fun t => (ha.reports t).trans ?_ }
  split_ifs
  · exact hn
  · exact le_refl 0

/-! ### The connection a step is about -/

lemma closed_auxOp {P : Ctx → Prop} (hP : Ctx.Closed P) (env : FunctorEnv) (f : Functor) {x : Ctx}
    (h : P x) : P (auxOp env f x) := by
  unfold auxOp
  split
  · exact hP.sendInLoop _ _ h
  · exact hP.shutdownInLoop h
  · exact hP.runScript _ h

lemma steady_auxOp {ok : Functor → Prop} {P : Ctx → Prop} (hP : Ctx.Steady ok P)
    (env : FunctorEnv) (f : Functor) {x : Ctx} (h : P x) : P (auxOp env f x) := by
  unfold auxOp
  split
  · exact hP.sendInLoop _ _ h
  · exact hP.shutdownInLoop h
  · exact hP.runScript _ h

lemma quiet_auxOp {P : Ctx → Prop} (hP : Ctx.Quiet P) (env : FunctorEnv) (f : Functor) {x : Ctx}
    (h : P x) : P (auxOp env f x) := steady_auxOp hP.steady env f h

lemma alike_ctx (c : ConnId) (t : LoopId) (s' : ServerSys) (hconn : s'.conn = s.conn)
    (htrace : s'.trace = s.trace) : (s.view c).Alike (s'.ctx c t) := by
  refine .of_eq ?_ ?_
  · change s'.conn c = s.conn c
    rw [hconn]
  · change (s'.trace c).map Prod.snd = (s.trace c).map Prod.snd
    rw [htrace]

lemma noClose_ctx (c : ConnId) (t : LoopId) (s : ServerSys) :
    .closeCallback ∉ (s.ctx c t).out := List.not_mem_nil

/-- **An event.** -/
lemma Stage.handles {c : ConnId} {t : LoopId} {active : List ActiveChannel} {env : EventEnv}
    (h : s.Stage c) (hpc : (s.loops t).pc = .handling (.conn c :: active))
    (ha : s.Orderly (.handle t env)) :
    ((s.setPc t (.handling active)).withConn c t (Ctx.handleEvent env)).Stage c := by
  have hr : s.reports c t = active.count (.conn c) + 1 := by
    rw [reports, LoopThread.active, hpc]
    exact List.count_cons_self ..
  obtain ⟨hup, hatt, ht⟩ := h.up_of_reports (t := t) (by omega)
  have hle := hatt.reports t
  rw [if_pos ht] at hle
  have hatt' : (s.setPc t (.handling active)).Attended [] 1 c := by
    refine hatt.congr (unmoved_setPc ?_ ?_ (by simp)) <;> rw [hpc]
    · rfl
    · exact (List.sublist_cons_self ..).count_le _
  have hzero : ∀ i, (s.setPc t (.handling active)).reports c i = 0 := by
    intro i
    rw [reports_setPc]
    split_ifs with hi
    · change active.count (.conn c) = 0
      omega
    · have hi' := hatt.reports i
      rw [if_neg (ht ▸ hi)] at hi'
      omega
  have hf := (Ctx.primitive_frame ((s.setPc t (.handling active)).ctx c t)).handleEvent env
    (.refl _)
  have hx : ((s.setPc t (.handling active)).ctx c t).StillUp :=
    ⟨hup.alike (alike_ctx c t _ rfl rfl), noClose_ctx c t _⟩
  have hok : Channel.hangsUp (s.conn c).channel_.revents_ = true →
      Channel.reads (s.conn c).channel_.revents_ = true → ∀ bs, env.read ≠ .ok bs := by
    intro hhup hread bs hbs
    rw [Orderly, hpc] at ha
    exact ha ⟨hhup, hread, by rw [hbs]; rfl⟩
  rcases Ctx.handleEvent_life env hx hok with hy | hy
  · exact .up (hy.1.alike (applied_withConn hf).alike)
      (hatt'.applied (applied_withConn hf) hf hy.2)
  · exact .down_applied (applied_withConn hf) (Or.inr rfl) hy hatt'.not_mem hzero

/-- **Establishing.** -/
lemma Stage.establishes {c : ConnId} {t : LoopId} {batch : List Functor} (onUp : Script)
    (h : s.Stage c) (hpc : (s.loops t).pc = .functors (.connectEstablished c :: batch)) :
    ((s.setPc t (.functors batch)).withConn c t (Ctx.connectEstablished onUp)).Stage c := by
  have hmem : .connectEstablished c ∈ s.queue c t := mem_queue_head hpc
  have hf := (Ctx.primitive_frame ((s.setPc t (.functors batch)).ctx c t)).connectEstablished onUp
    (.refl _)
  cases h with
  | fresh h hl ha =>
      have hy := Ctx.up_connectEstablished onUp
        (h.alike (alike_ctx c t (s.setPc t (.functors batch)) rfl rfl))
      have hout := Ctx.quiet_noClose.connectEstablished onUp
        (noClose_ctx c t (s.setPc t (.functors batch)))
      exact .up (hy.alike (applied_withConn hf).alike)
        (((ha.pop hpc).mono (Nat.zero_le 1)).applied (applied_withConn hf) hf hout)
  | up h ha => exact absurd hmem (ha.not_mem t)
  | down htail h hqueue hreports => exact absurd hmem (hqueue t)

/-- **Destroying**, once nothing waits to establish the connection. -/
lemma Stage.connectDestroy {c : ConnId} {t : LoopId} {s₁ : ServerSys} (onDown : Script)
    (h : s.Stage c) (hst : (s.conn c).state_ ≠ .kDisconnectiong) (hconn : s₁.conn = s.conn)
    (htrace : s₁.trace = s.trace) (hqueue : ∀ i, .connectEstablished c ∉ s₁.queue c i)
    (hreports : ∀ i, s₁.reports c i = 0) (hfresh : ¬ (s.view c).Fresh) :
    (s₁.withConn c t (Ctx.connectDestroy onDown)).Stage c := by
  have hf := (Ctx.primitive_frame (s₁.ctx c t)).connectDestroy onDown (.refl _)
  have halike := alike_ctx c t s₁ hconn htrace
  cases h with
  | fresh h => exact absurd h hfresh
  | up h ha =>
      have hk : (s₁.ctx c t).conn.state_ = .kConnected := by
        rcases (h.alike halike).state with hk | hk
        · exact hk
        · change (s₁.conn c).state_ = _ at hk
          rw [hconn] at hk
          exact absurd hk hst
      exact .down_applied (applied_withConn hf) (Or.inl rfl)
        (Ctx.down_connectDestroy onDown (h.alike halike) hk) hqueue hreports
  | down htail h _ _ =>
      exact .down_applied (applied_withConn hf) htail ((h.alike halike).connectDestroy onDown).1
        hqueue hreports

/-- A functor at the head of a batch is the first of its connection. -/
lemma Attended.head {first : List Functor} {n : ℕ} {t : LoopId} {f g : Functor}
    {batch : List Functor} (ha : s.Attended (g :: first) n f.conn)
    (hpc : (s.loops t).pc = .functors (f :: batch)) : f = g := by
  have hq := queue_head hpc
  have ht : t = (s.conn f.conn).loop_ := ha.loop_of_mem (mem_queue_head hpc)
  obtain ⟨rest, hrest, -⟩ := ha.here
  rw [← ht, hq] at hrest
  exact (List.cons.inj hrest).1

lemma Stage.destroys {c : ConnId} {t : LoopId} {batch : List Functor} (onDown : Script)
    (h : s.Stage c) (hpc : (s.loops t).pc = .functors (.connectDestroy c :: batch))
    (hst : (s.conn c).state_ ≠ .kDisconnectiong) :
    ((s.setPc t (.functors batch)).withConn c t (Ctx.connectDestroy onDown)).Stage c := by
  have hfresh : ¬ (s.view c).Fresh ∧ (∀ i, .connectEstablished c ∉ s.queue c i) ∧
      ∀ i, i ≠ t → s.reports c i = 0 := by
    cases h with
    | fresh h hl ha => cases ha.head hpc
    | up h ha =>
        have hmem : .connectDestroy c ∈ s.queue c t := mem_queue_head hpc
        refine ⟨fun hx => ?_, ha.not_mem, fun i hi => ?_⟩
        · rcases h.state with hs | hs <;> cases hx.state.symm.trans hs
        · have hle := ha.reports i
          rw [if_neg (ha.loop_of_mem hmem ▸ hi)] at hle
          omega
    | down htail h hqueue hreports =>
        exact ⟨fun hx => (by cases hx.state.symm.trans h.state), hqueue, fun i _ => hreports i⟩
  obtain ⟨hfresh, hqueue, hreports⟩ := hfresh
  refine h.connectDestroy onDown hst rfl rfl (fun i => not_mem_pop hpc (hqueue i)) (fun i => ?_)
    hfresh
  rw [reports_setPc]
  split_ifs with hi
  · rfl
  · exact hreports i hi

/-- **A functor that a member function queued.** -/
lemma Stage.runs {t : LoopId} {f : Functor} {batch : List Functor} {env : FunctorEnv}
    (h : s.Stage f.conn) (hpc : (s.loops t).pc = .functors (f :: batch)) (haux : f.isAux = true) :
    ((s.setPc t (.functors batch)).withConn f.conn t (auxOp env f)).Stage f.conn := by
  have hf := frame_auxOp env f ((s.setPc t (.functors batch)).ctx f.conn t)
  have halike := alike_ctx f.conn t (s.setPc t (.functors batch)) rfl rfl
  cases h with
  | fresh h hl ha =>
      rw [ha.head hpc] at haux
      cases haux
  | up h ha =>
      have hout := quiet_auxOp Ctx.quiet_noClose env f
        (noClose_ctx f.conn t (s.setPc t (.functors batch)))
      exact .up ((closed_auxOp Ctx.closed_up env f (h.alike halike)).alike
        (applied_withConn hf).alike) ((ha.pop_aux hpc haux).applied (applied_withConn hf) hf hout)
  | down htail h hqueue hreports =>
      exact .down_applied (applied_withConn hf) htail
        (closed_auxOp (Ctx.closed_down _ _) env f ⟨h.alike halike, rfl⟩).1
        (fun i => not_mem_pop hpc (hqueue i)) fun i => reports_pop _ (hreports i)

/-- **A call of `send` or `shutdown`.** -/
lemma Stage.acts {c : ConnId} (t : LoopId) (a : UserAct) (h : s.Stage c) :
    (s.withConn c t (Ctx.act a)).Stage c := by
  have hf := (Ctx.primitive_frame (s.ctx c t)).act a (.refl _)
  have hout := Ctx.quiet_noClose.act a (noClose_ctx c t s)
  have halike := alike_ctx c t s rfl rfl
  have hloop : ((s.withConn c t (Ctx.act a)).conn c).loop_ = (s.conn c).loop_ := by
    rw [(applied_withConn hf).conn_self]
    exact hf.loop_
  cases h with
  | fresh h hl ha =>
      exact .fresh (((h.alike halike).act a).alike (applied_withConn hf).alike) (hloop ▸ hl)
        (ha.applied (applied_withConn hf) hf hout)
  | up h ha =>
      exact .up ((Ctx.closed_up.act a (h.alike halike)).alike (applied_withConn hf).alike)
        (ha.applied (applied_withConn hf) hf hout)
  | down htail h hqueue hreports =>
      exact .down_applied (applied_withConn hf) htail
        ((Ctx.closed_down _ _).act a ⟨h.alike halike, rfl⟩).1 hqueue hreports

/-- **`removeConnectionInLoop`**, which is queued for a connection that is down only. -/
lemma Stage.removes {c : ConnId} {t : LoopId} {batch : List Functor} (h : s.Stage c)
    (hpc : (s.loops t).pc = .functors (.removeConnectionInLoop c :: batch)) :
    ((s.setPc t (.functors batch)).removeConnectionInLoop c).Stage c := by
  have hmem : .removeConnectionInLoop c ∈ s.queue c t := mem_queue_head hpc
  cases h with
  | fresh h hl ha => cases ha.head hpc
  | up h ha =>
      obtain ⟨rest, hrest, haux, -⟩ := ha.here
      rw [ha.loop_of_mem hmem, hrest] at hmem
      rcases haux _ hmem with he | he <;> cases he
  | down htail h hqueue hreports =>
      refine .down htail (h.alike (.of_eq rfl rfl)) (fun i hm => ?_) fun i => ?_
      · rw [removeConnectionInLoop, queue_push] at hm
        rcases List.mem_append.mp hm with hm | hm
        · exact not_mem_pop hpc (hqueue i) hm
        · split_ifs at hm
          · cases List.mem_singleton.mp hm
          · cases hm
      · rw [removeConnectionInLoop, reports_push]
        exact reports_pop c (hreports i)

/-- **`connectDestroy` is handed to the loop of the connection.** -/
lemma Stage.queued {c : ConnId} {left : ConnectionMap} (h : s.Stage c) :
    (push (s.conn c).loop_ (.connectDestroy c) { s with phase := .destroying left }).Stage c := by
  have hatt : ∀ {first n}, s.Attended first n c → Attended first n c
      (push (s.conn c).loop_ (.connectDestroy c) { s with phase := .destroying left }) := by
    intro first n ha
    obtain ⟨rest, hrest, haux, -⟩ := ha.here
    refine ⟨fun i hi => ?_, ⟨rest ++ [.connectDestroy c], ?_, fun f hf => ?_, Or.inr (by simp)⟩,
      fun i => ?_, ?_⟩
    · rw [queue_push, if_neg fun he => hi he.1, List.append_nil]
      exact ha.elsewhere i hi
    · rw [queue_push, if_pos ⟨rfl, rfl⟩, ← List.append_assoc, ← hrest]
      rfl
    · rcases List.mem_append.mp hf with hf | hf
      · exact haux f hf
      · exact Or.inr (List.mem_singleton.mp hf)
    · rw [reports_push]
      exact ha.reports i
    · rw [push_pc]
      exact ha.running
  cases h with
  | fresh h hl ha => exact .fresh (h.alike (.of_eq rfl rfl)) hl (hatt ha)
  | up h ha => exact .up (h.alike (.of_eq rfl rfl)) (hatt ha)
  | down htail h hqueue hreports =>
      refine .down htail (h.alike (.of_eq rfl rfl)) (fun i hm => ?_) fun i => ?_
      · rw [queue_push] at hm
        rcases List.mem_append.mp hm with hm | hm
        · exact hqueue i hm
        · split_ifs at hm
          · cases List.mem_singleton.mp hm
          · cases hm
      · rw [reports_push]
        exact hreports i

end ServerSys

end Reactor
