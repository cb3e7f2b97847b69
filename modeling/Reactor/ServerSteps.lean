import Reactor.TcpServer
import Reactor.MemberFrame

/-!
What one step of the server and its loops can do: one case for each branch of the code, and
what a member function run by a thread makes of the whole.
-/

namespace Reactor

namespace ServerSys

variable {conf : ServerConf} {s s' : ServerSys}

/-! ### Loops -/

@[simp] lemma setLoop_self (t : LoopId) (l : LoopThread) : (s.setLoop t l).loops t = l := by
  simp [setLoop]

lemma setLoop_of_ne {t i : LoopId} (h : i ≠ t) (l : LoopThread) :
    (s.setLoop t l).loops i = s.loops i := by
  simp [setLoop, h]

lemma setLoop_loops (t i : LoopId) (l : LoopThread) :
    (s.setLoop t l).loops i = if i = t then l else s.loops i := by
  by_cases h : i = t
  · subst h; simp
  · simp [setLoop_of_ne h, h]

@[simp] lemma push_pc (t i : LoopId) (f : Functor) :
    ((s.push t f).loops i).pc = (s.loops i).pc := by
  rw [push, setLoop_loops]
  split_ifs with h <;> simp [h]

@[simp] lemma push_quit (t i : LoopId) (f : Functor) :
    ((s.push t f).loops i).quit_ = (s.loops i).quit_ := by
  rw [push, setLoop_loops]
  split_ifs with h <;> simp [h]

@[simp] lemma push_poller (t i : LoopId) (f : Functor) :
    ((s.push t f).loops i).poller_ = (s.loops i).poller_ := by
  rw [push, setLoop_loops]
  split_ifs with h <;> simp [h]

lemma push_pending (t i : LoopId) (f : Functor) :
    ((s.push t f).loops i).pendingFuntors_ =
      (s.loops i).pendingFuntors_ ++ if i = t then [f] else [] := by
  rw [push, setLoop_loops]
  split_ifs with h <;> simp [h]

@[simp] lemma setPc_pc (t i : LoopId) (pc : ThreadPc) :
    ((s.setPc t pc).loops i).pc = if i = t then pc else (s.loops i).pc := by
  rw [setPc, setLoop_loops]
  split_ifs <;> rfl

@[simp] lemma setPc_quit (t i : LoopId) (pc : ThreadPc) :
    ((s.setPc t pc).loops i).quit_ = (s.loops i).quit_ := by
  rw [setPc, setLoop_loops]
  split_ifs with h <;> simp [h]

@[simp] lemma setPc_poller (t i : LoopId) (pc : ThreadPc) :
    ((s.setPc t pc).loops i).poller_ = (s.loops i).poller_ := by
  rw [setPc, setLoop_loops]
  split_ifs with h <;> simp [h]

@[simp] lemma setPc_pending (t i : LoopId) (pc : ThreadPc) :
    ((s.setPc t pc).loops i).pendingFuntors_ = (s.loops i).pendingFuntors_ := by
  rw [setPc, setLoop_loops]
  split_ifs with h <;> simp [h]

lemma jobs_setPc (t i : LoopId) (pc : ThreadPc) :
    ((s.setPc t pc).loops i).jobs =
      if i = t then pc.batch ++ (s.loops i).pendingFuntors_ else (s.loops i).jobs := by
  simp only [LoopThread.jobs, setPc_pc, setPc_pending]
  split_ifs <;> rfl

lemma active_setPc (t i : LoopId) (pc : ThreadPc) :
    ((s.setPc t pc).loops i).active = if i = t then pc.active else (s.loops i).active := by
  simp only [LoopThread.active, setPc_pc]
  split_ifs <;> rfl

lemma jobs_push (t i : LoopId) (f : Functor) :
    ((s.push t f).loops i).jobs = (s.loops i).jobs ++ if i = t then [f] else [] := by
  simp only [LoopThread.jobs, push_pc, push_pending, List.append_assoc]

/-! ### Member functions run by a thread -/

/-- What a member function of `c`, run by the thread `t` and ending in `y`, makes of the
state `s`. Nothing is queued but functors of `c`: those of its own loop, and on the base loop
what `removeConnection` queues. -/
structure Applied (c : ConnId) (t : LoopId) (y : Ctx) (s s' : ServerSys) : Prop where
  conn : s'.conn = Function.update s.conn c y.conn
  trace : s'.trace = Function.update s.trace c y.trace
  phase : s'.phase = s.phase
  next_ : s'.next_ = s.next_
  nextConnId_ : s'.nextConnId_ = s.nextConnId_
  connections_ : s'.connections_ = s.connections_ ∨
    .closeCallback ∈ y.out ∧
      s'.connections_ = s.connections_.filter fun e => e.1 ≠ y.conn.name_
  pc : ∀ i, (s'.loops i).pc = (s.loops i).pc
  quit_ : ∀ i, (s'.loops i).quit_ = (s.loops i).quit_
  poller_ : ∀ i, (s'.loops i).poller_ =
    if i = (s.conn c).loop_ then y.poller_ else (s.loops i).poller_
  pending : ∀ i, ∃ l, (s'.loops i).pendingFuntors_ = (s.loops i).pendingFuntors_ ++ l ∧
    ∀ f ∈ l, f.conn = c ∧ (f.isAux = true ∧ i = (s.conn c).loop_ ∨
      .closeCallback ∈ y.out ∧ i = 0 ∧ (f = .connectDestroy c ∨ f = .removeConnectionInLoop c))

lemma applied_put (c : ConnId) (t : LoopId) (y : Ctx) : Applied c t y s (s.put c y) where
  conn := rfl
  trace := rfl
  phase := rfl
  next_ := rfl
  nextConnId_ := rfl
  connections_ := Or.inl rfl
  pc i := by
    rw [put, setLoop_loops]
    split_ifs with h <;> simp [h]
  quit_ i := by
    rw [put, setLoop_loops]
    split_ifs with h <;> simp [h]
  poller_ i := by
    rw [put, setLoop_loops]
    split_ifs <;> rfl
  pending i := by
    refine ⟨[], ?_, by simp⟩
    rw [put, setLoop_loops]
    split_ifs with h <;> simp [h]

lemma Applied.jobs {c : ConnId} {t : LoopId} {y : Ctx} (h : Applied c t y s s') (i : LoopId) :
    ∃ l, (s'.loops i).jobs = (s.loops i).jobs ++ l ∧
      ∀ f ∈ l, f.conn = c ∧ (f.isAux = true ∧ i = (s.conn c).loop_ ∨
        .closeCallback ∈ y.out ∧ i = 0 ∧
          (f = .connectDestroy c ∨ f = .removeConnectionInLoop c)) := by
  obtain ⟨l, hl, hof⟩ := h.pending i
  exact ⟨l, by rw [LoopThread.jobs, LoopThread.jobs, h.pc, hl, List.append_assoc], hof⟩

lemma Applied.active {c : ConnId} {t : LoopId} {y : Ctx} (h : Applied c t y s s') (i : LoopId) :
    (s'.loops i).active = (s.loops i).active := by
  rw [LoopThread.active, LoopThread.active, h.pc]

/-- One functor of `c` more is queued. -/
lemma Applied.push {c : ConnId} {t i : LoopId} {y : Ctx} {f : Functor} (h : Applied c t y s s')
    (hf : f.conn = c ∧ (f.isAux = true ∧ i = (s.conn c).loop_ ∨
      .closeCallback ∈ y.out ∧ i = 0 ∧ (f = .connectDestroy c ∨ f = .removeConnectionInLoop c))) :
    Applied c t y s (s'.push i f) where
  conn := h.conn
  trace := h.trace
  phase := h.phase
  next_ := h.next_
  nextConnId_ := h.nextConnId_
  connections_ := h.connections_
  pc j := by rw [push_pc, h.pc]
  quit_ j := by rw [push_quit, h.quit_]
  poller_ j := by rw [push_poller, h.poller_]
  pending j := by
    obtain ⟨l, hl, hof⟩ := h.pending j
    rw [push_pending, hl, List.append_assoc]
    refine ⟨_, rfl, fun g hg => ?_⟩
    rcases List.mem_append.mp hg with hg | hg
    · exact hof g hg
    · split_ifs at hg with hj
      · rw [List.mem_singleton.mp hg, hj]
        exact hf
      · cases hg

lemma Applied.effect {c : ConnId} {t : LoopId} {y : Ctx} {e : Effect} (h : Applied c t y s s')
    (hloop : y.conn.loop_ = (s.conn c).loop_) (he : e ∈ y.out) (hof : e.Of c) :
    Applied c t y s (s'.effect t c e) := by
  have hc : s'.conn c = y.conn := by rw [h.conn, Function.update_self]
  cases e with
  | queueInloop f =>
      have hl : (s'.conn c).loop_ = (s.conn c).loop_ := by rw [hc, hloop]
      exact h.push ⟨hof.1, Or.inl ⟨hof.2, hl⟩⟩
  | closeCallback =>
      rw [ServerSys.effect, removeConnection]
      split_ifs
      · have h' : Applied c t y s { s' with
            connections_ := s'.connections_.filter fun e => e.1 ≠ (s'.conn c).name_ } := by
          refine { h with connections_ := Or.inr ⟨he, ?_⟩ }
          rw [hc]
          rcases h.connections_ with hm | ⟨-, hm⟩ <;> rw [hm]
          simp
        exact h'.push ⟨rfl, Or.inr ⟨he, rfl, Or.inl rfl⟩⟩
      · exact h.push ⟨rfl, Or.inr ⟨he, rfl, Or.inr rfl⟩⟩

/-- **What a member function run by a thread does to the whole.** -/
theorem applied_withConn {c : ConnId} {t : LoopId} {op : Ctx → Ctx}
    (h : (s.ctx c t).Frame (op (s.ctx c t))) :
    Applied c t (op (s.ctx c t)) s (s.withConn c t op) := by
  have hof : ∀ e ∈ (op (s.ctx c t)).out, e.Of c := by
    obtain ⟨l, hl, hof⟩ := h.out
    intro e he
    rw [hl] at he
    exact hof e (by simpa [ctx] using he)
  unfold withConn
  have hput := applied_put (s := s) c t (op (s.ctx c t))
  generalize op (s.ctx c t) = y at h hof hput
  -- the effects are applied one after the other
  have hfold : ∀ (es : List Effect) (s'' : ServerSys), es ⊆ y.out → Applied c t y s s'' →
      Applied c t y s (es.foldl (ServerSys.effect t c) s'') := by
    intro es
    induction es with
    | nil => exact fun _ _ h => h
    | cons e es ih =>
        intro s'' hes h'
        have he := hes (List.mem_cons_self ..)
        exact ih _ (fun _ hm => hes (List.mem_cons_of_mem _ hm)) (h'.effect h.loop_ he (hof e he))
  exact hfold _ _ (fun _ hm => hm) hput

/-! ### Events reported -/

/-- The events reported are stored in the channels, and nothing else changes. -/
lemma foldl_setRevents (t : LoopId) (ready : List Ready) (s : ServerSys) :
    ∃ conn, ready.foldl (setRevents t) s = { s with conn := conn } ∧
      ∀ c, ∃ r, conn c = (s.conn c).set_revents r := by
  induction ready generalizing s with
  | nil => exact ⟨s.conn, rfl, fun c => ⟨(s.conn c).channel_.revents_, rfl⟩⟩
  | cons e ready ih =>
      have hone : ∃ conn, setRevents t s e = { s with conn := conn } ∧
          ∀ c, ∃ r, conn c = (s.conn c).set_revents r := by
        have hsame : ∃ conn, s = { s with conn := conn } ∧
            ∀ c, ∃ r, conn c = (s.conn c).set_revents r :=
          ⟨s.conn, rfl, fun c => ⟨(s.conn c).channel_.revents_, rfl⟩⟩
        cases e with
        | acceptor => exact hsame
        | fd n revents =>
            cases hent : (s.loops t).poller_.epoll n with
            | none => simpa only [setRevents, hent] using hsame
            | some e =>
                simp only [setRevents, hent]
                refine ⟨_, rfl, fun c => ?_⟩
                rcases eq_or_ne c e.2 with rfl | hc
                · exact ⟨revents, Function.update_self ..⟩
                · exact ⟨(s.conn c).channel_.revents_, Function.update_of_ne hc ..⟩
      obtain ⟨conn, hconn, hr⟩ := hone
      obtain ⟨conn', hconn', hr'⟩ := ih (setRevents t s e)
      refine ⟨conn', by rw [List.foldl_cons, hconn', hconn], fun c => ?_⟩
      obtain ⟨r, hr⟩ := hr c
      obtain ⟨r', hr'⟩ := hr' c
      refine ⟨r', ?_⟩
      rw [hr', hconn]
      change (conn c).set_revents r' = _
      rw [hr]
      rfl

/-- **What a wait that reports events leaves.** -/
lemma fillActiveChannels_eq (t : LoopId) (ready : List Ready) (s : ServerSys) :
    ∃ conn, s.fillActiveChannels t ready =
        setPc t (.handling (ready.filterMap (activeOf (s.loops t).poller_)))
          { s with conn := conn } ∧
      ∀ c, ∃ r, conn c = (s.conn c).set_revents r := by
  obtain ⟨conn, hconn, hr⟩ := foldl_setRevents t ready s
  exact ⟨conn, by rw [fillActiveChannels, hconn], hr⟩

/-- A connection reported has an entry in the epoll set. -/
lemma mem_activeOf {p : EpollPoller ConnId} {ready : List Ready} {c : ConnId}
    (h : .conn c ∈ ready.filterMap (activeOf p)) : ∃ n m, p.epoll n = some (m, c) := by
  obtain ⟨r, -, hr⟩ := List.mem_filterMap.mp h
  cases r with
  | acceptor => simp [activeOf] at hr
  | fd n revents =>
      rw [activeOf, Option.map_eq_some_iff] at hr
      obtain ⟨⟨m, d⟩, he, hd⟩ := hr
      cases hd
      exact ⟨n, m, he⟩

/-! ### The steps -/

/-- What a functor of the connection's own loop runs. -/
def auxOp (env : FunctorEnv) : Functor → Ctx → Ctx
  | .sendInLoop _ _ => Ctx.sendInLoop env.data env.res
  | .shutdownInLoop _ => Ctx.shutdownInLoop
  | _ => Ctx.runScript env.acts

variable (conf s) in
/-- The steps from `s`, case by case. -/
inductive Trans : ServerAct → ServerSys → Prop
  | leaves {t : LoopId} (hrun : s.Runs conf t) (hpc : (s.loops t).pc = .check)
      (hquit : (s.loops t).quit_ = true) :
      Trans (.check t) (s.setLoop t { s.loops t with pc := .returned, pendingFuntors_ := [] })
  | waits {t : LoopId} (hrun : s.Runs conf t) (hpc : (s.loops t).pc = .check)
      (hquit : (s.loops t).quit_ = false) :
      Trans (.check t) (s.setPc t .poll)
  | polls {t : LoopId} {ready : List Ready} (hrun : s.Runs conf t)
      (hpc : (s.loops t).pc = .poll) (hready : s.CanReport t ready) :
      Trans (.poll t ready) (s.fillActiveChannels t ready)
  | accepts {sockfd : ℕ} {onUp : Script} {active : List ActiveChannel}
      (hpc : (s.loops 0).pc = .handling (.acceptor :: active)) (halive : s.phase = .alive)
      (hfd : s.FreeFd sockfd) (hid : s.nextConnId_ + 1 < 2 ^ 31) :
      Trans (.accept sockfd onUp)
        (newConnection conf sockfd onUp (s.setPc 0 (.handling active)))
  | acceptFails {active : List ActiveChannel} (hrun : s.Runs conf 0)
      (hpc : (s.loops 0).pc = .handling (.acceptor :: active)) :
      Trans .acceptFails (s.setPc 0 (.handling active))
  | handles {t : LoopId} {env : EventEnv} {c : ConnId} {active : List ActiveChannel}
      (hrun : s.Runs conf t) (hpc : (s.loops t).pc = .handling (.conn c :: active)) :
      Trans (.handle t env) ((s.setPc t (.handling active)).withConn c t (Ctx.handleEvent env))
  | swaps {t : LoopId} (hrun : s.Runs conf t) (hpc : (s.loops t).pc = .handling []) :
      Trans (.swap t) (s.setLoop t { s.loops t with
        pc := .functors (s.loops t).pendingFuntors_
        pendingFuntors_ := [] })
  | establishes {t : LoopId} {env : FunctorEnv} {c : ConnId} {batch : List Functor}
      (hrun : s.Runs conf t) (hpc : (s.loops t).pc = .functors (.connectEstablished c :: batch)) :
      Trans (.functor t env)
        ((s.setPc t (.functors batch)).withConn c t (Ctx.connectEstablished env.acts))
  | destroys {t : LoopId} {env : FunctorEnv} {c : ConnId} {batch : List Functor}
      (hrun : s.Runs conf t) (hpc : (s.loops t).pc = .functors (.connectDestroy c :: batch)) :
      Trans (.functor t env)
        ((s.setPc t (.functors batch)).withConn c t (Ctx.connectDestroy env.acts))
  | removes {t : LoopId} {env : FunctorEnv} {c : ConnId} {batch : List Functor}
      (hrun : s.Runs conf t)
      (hpc : (s.loops t).pc = .functors (.removeConnectionInLoop c :: batch))
      (halive : s.phase = .alive) :
      Trans (.functor t env) ((s.setPc t (.functors batch)).removeConnectionInLoop c)
  | runs {t : LoopId} {env : FunctorEnv} {f : Functor} {batch : List Functor}
      (hrun : s.Runs conf t) (hpc : (s.loops t).pc = .functors (f :: batch))
      (haux : f.isAux = true) :
      Trans (.functor t env) ((s.setPc t (.functors batch)).withConn f.conn t (auxOp env f))
  | endsBatch {t : LoopId} (hrun : s.Runs conf t) (hpc : (s.loops t).pc = .functors []) :
      Trans (.endBatch t) (s.setPc t .check)
  | userCalls {t : LoopId} {c : ConnId} {act : UserAct} (hc : s.Made c) :
      Trans (.userCall t c act) (s.withConn c t (Ctx.act act))
  | beginsDestroy (halive : s.phase = .alive) (hpc : (s.loops 0).pc = .check) :
      Trans .destroy { s with phase := .destroying s.connections_ }
  | destroysHere {e : String × ConnId} {onDown : Script} {left : ConnectionMap}
      (hphase : s.phase = .destroying left) (he : e ∈ left) (hloop : (s.conn e.2).loop_ = 0) :
      Trans (.destroyNext e onDown)
        (withConn e.2 0 (Ctx.connectDestroy onDown) { s with phase := .destroying (left.erase e) })
  | destroysThere {e : String × ConnId} {onDown : Script} {left : ConnectionMap}
      (hphase : s.phase = .destroying left) (he : e ∈ left) (hloop : (s.conn e.2).loop_ ≠ 0) :
      Trans (.destroyNext e onDown)
        (push (s.conn e.2).loop_ (.connectDestroy e.2)
          { s with phase := .destroying (left.erase e) })
  | destroysMembers (hphase : s.phase = .destroying []) :
      Trans .destroyMembers { s with
        phase := if conf.numThreads_ = 0 then .gone else .quitting 1
        connections_ := [] }
  | quits {i : LoopId} (hphase : s.phase = .quitting i) :
      Trans .quit (setLoop i { s.loops i with quit_ := true } { s with phase := .joining i })
  | joins {i : LoopId} (hphase : s.phase = .joining i) (hpc : (s.loops i).pc = .returned) :
      Trans .join { s with
        phase := if i < conf.numThreads_ then .quitting (i + 1) else .gone }

lemma trans_runFunctor {t : LoopId} {env : FunctorEnv} {f : Functor} {batch : List Functor}
    (hrun : s.Runs conf t) (hpc : (s.loops t).pc = .functors (f :: batch))
    (h : (s.setPc t (.functors batch)).runFunctor t env f = some s') :
    Trans conf s (.functor t env) s' := by
  cases f with
  | connectEstablished c =>
      obtain rfl := Option.some.inj h
      exact .establishes hrun hpc
  | connectDestroy c =>
      obtain rfl := Option.some.inj h
      exact .destroys hrun hpc
  | removeConnectionInLoop c =>
      simp only [runFunctor, Option.ite_none_right_eq_some, Option.some.injEq] at h
      obtain ⟨halive, rfl⟩ := h
      exact .removes hrun hpc halive
  | sendInLoop c len =>
      simp only [runFunctor, Option.ite_none_right_eq_some, Option.some.injEq] at h
      obtain ⟨-, rfl⟩ := h
      exact .runs hrun hpc rfl
  | shutdownInLoop c =>
      obtain rfl := Option.some.inj h
      exact .runs hrun hpc rfl
  | writeCompleteCallback c =>
      obtain rfl := Option.some.inj h
      exact .runs hrun hpc rfl
  | highWaterMarkCallback c len =>
      obtain rfl := Option.some.inj h
      exact .runs hrun hpc rfl

/-- **Inversion of a step.** -/
theorem Step.trans {a : ServerAct} (h : s.Step conf a s') : Trans conf s a s' := by
  unfold Step step at h
  cases a with
  | check t =>
      simp only [Option.ite_none_right_eq_some] at h
      obtain ⟨hrun, h⟩ := h
      cases hpc : (s.loops t).pc <;> simp only [loopStep, hpc, reduceCtorEq] at h
      split_ifs at h with hquit <;> obtain rfl := Option.some.inj h
      · exact .leaves hrun hpc hquit
      · exact .waits hrun hpc (Bool.eq_false_iff.mpr hquit)
  | poll t ready =>
      simp only [Option.ite_none_right_eq_some] at h
      obtain ⟨hrun, h⟩ := h
      cases hpc : (s.loops t).pc <;> simp only [loopStep, hpc, reduceCtorEq] at h
      simp only [Option.ite_none_right_eq_some, Option.some.injEq] at h
      obtain ⟨hready, rfl⟩ := h
      exact .polls hrun hpc hready
  | accept sockfd onUp =>
      simp only [Option.ite_none_right_eq_some] at h
      obtain ⟨-, h⟩ := h
      rcases hpc : (s.loops 0).pc with _ | _ | (_ | ⟨_ | c, active⟩) | batch | _ <;>
        simp only [loopStep, hpc, reduceCtorEq] at h
      simp only [Option.ite_none_right_eq_some, Option.some.injEq] at h
      obtain ⟨⟨halive, hfd, hid⟩, rfl⟩ := h
      exact .accepts hpc halive hfd hid
  | acceptFails =>
      simp only [Option.ite_none_right_eq_some] at h
      obtain ⟨hrun, h⟩ := h
      rcases hpc : (s.loops 0).pc with _ | _ | (_ | ⟨_ | c, active⟩) | batch | _ <;>
        simp only [loopStep, hpc, reduceCtorEq] at h
      obtain rfl := Option.some.inj h
      exact .acceptFails hrun hpc
  | handle t env =>
      simp only [Option.ite_none_right_eq_some] at h
      obtain ⟨hrun, h⟩ := h
      rcases hpc : (s.loops t).pc with _ | _ | (_ | ⟨_ | c, active⟩) | batch | _ <;>
        simp only [loopStep, hpc, reduceCtorEq] at h
      obtain rfl := Option.some.inj h
      exact .handles hrun hpc
  | swap t =>
      simp only [Option.ite_none_right_eq_some] at h
      obtain ⟨hrun, h⟩ := h
      rcases hpc : (s.loops t).pc with _ | _ | (_ | ⟨_ | c, active⟩) | batch | _ <;>
        simp only [loopStep, hpc, reduceCtorEq] at h
      obtain rfl := Option.some.inj h
      exact .swaps hrun hpc
  | functor t env =>
      simp only [Option.ite_none_right_eq_some] at h
      obtain ⟨hrun, h⟩ := h
      rcases hpc : (s.loops t).pc with _ | _ | active | (_ | ⟨f, batch⟩) | _ <;>
        simp only [loopStep, hpc, reduceCtorEq] at h
      exact trans_runFunctor hrun hpc h
  | endBatch t =>
      simp only [Option.ite_none_right_eq_some] at h
      obtain ⟨hrun, h⟩ := h
      rcases hpc : (s.loops t).pc with _ | _ | active | (_ | ⟨f, batch⟩) | _ <;>
        simp only [loopStep, hpc, reduceCtorEq] at h
      obtain rfl := Option.some.inj h
      exact .endsBatch hrun hpc
  | userCall t c act =>
      simp only [Option.ite_none_right_eq_some, Option.some.injEq] at h
      obtain ⟨⟨hc, -⟩, rfl⟩ := h
      exact .userCalls hc
  | destroy =>
      cases hphase : s.phase <;> simp only [destroyStep, hphase, reduceCtorEq] at h
      simp only [Option.ite_none_right_eq_some, Option.some.injEq] at h
      obtain ⟨hpc, rfl⟩ := h
      exact .beginsDestroy hphase hpc
  | destroyNext e onDown =>
      cases hphase : s.phase <;> simp only [destroyStep, hphase, reduceCtorEq] at h
      simp only [Option.ite_none_right_eq_some, Option.some.injEq] at h
      obtain ⟨he, rfl⟩ := h
      split_ifs with hloop
      · exact .destroysHere hphase he hloop
      · exact .destroysThere hphase he hloop
  | destroyMembers =>
      rcases hphase : s.phase with _ | (_ | ⟨e, left⟩) | i | i | _ <;>
        simp only [destroyStep, hphase, reduceCtorEq] at h
      obtain rfl := Option.some.inj h
      exact .destroysMembers hphase
  | quit =>
      cases hphase : s.phase <;> simp only [destroyStep, hphase, reduceCtorEq] at h
      obtain rfl := Option.some.inj h
      exact .quits hphase
  | join =>
      cases hphase : s.phase <;> simp only [destroyStep, hphase, reduceCtorEq] at h
      simp only [Option.ite_none_right_eq_some, Option.some.injEq] at h
      obtain ⟨hpc, rfl⟩ := h
      exact .joins hphase hpc

end ServerSys

end Reactor
