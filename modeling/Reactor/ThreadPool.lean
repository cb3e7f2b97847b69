import Mathlib.Data.List.GetD
import Reactor.TcpServer
import Reactor.Lib.Handshake
import Reactor.Lib.Rotation
import Reactor.Lib.Schedule

/-!
The start of a pool of threads, each with a loop of its own, and how the pool hands the loops
out: `ThreadPool` and `WorkerThread` of the HTTP servers, `EventLoopThreadPoll` and
`EventLoopThread`.

For each thread in turn, the main thread creates it and waits until it has set its pointer to
the loop. A worker of an HTTP server gives the mutex up and notifies then, `threadFunc` notifies
first.
-/

namespace Reactor

open Lib.Handshake Lib.Rotation Lib.Schedule

/-- The kinds of pools, with the number of threads: what a worker does first once its loop is
set, where the index goes from a loop that is handed out, and whether the pool keeps the pointer
that the start of the thread returned or reads the thread's own. -/
structure PoolConf where
  order : Order
  threadNum : ℕ
  advance : ℕ → ℕ
  keepsPointer : Bool
  advance_eq : ∀ k, 0 < threadNum → advance (k % threadNum) = (k + 1) % threadNum

namespace PoolConf

/-- `ThreadPool` of the HTTP servers: `++m_index % m_threadNum`. -/
def httpPool (threadNum : ℕ) : PoolConf where
  order := .unlockFirst
  threadNum := threadNum
  advance i := (i + 1) % threadNum
  keepsPointer := false
  advance_eq k _ := Nat.mod_add_mod k threadNum 1

/-- `EventLoopThreadPoll`: `next_` starts again when it has reached `loops_.size()`. -/
def eventLoopThreadPoll (threadNum : ℕ) : PoolConf where
  order := .notifyFirst
  threadNum := threadNum
  advance i := if i + 1 ≥ threadNum then 0 else i + 1
  keepsPointer := true
  advance_eq _ hn := wrap_eq hn

end PoolConf

/-- A pool, its threads and what it has handed out. `returned` are the pointers that the starts
of the threads have returned so far, and `taken` those handed out; the loop of the thread `i` is
the loop `i + 1`. -/
structure ThreadPool where
  isStart : Bool
  index : ℕ
  workers : ℕ → State
  returned : List (Option LoopId)
  taken : List (Option LoopId)

/-- The steps: those of the main thread in `run`, those of the workers until they enter their
loops, a wait that ends for no reason, and a loop handed out. -/
inductive PoolAct
  | run
  | start (a : WaiterAct)
  | push
  | worker (i : ℕ) (a : SetterAct)
  | spurious (i : ℕ)
  | take
  deriving DecidableEq

namespace ThreadPool

variable (conf : PoolConf)

def new (spurious : ℕ → ℕ) : ThreadPool where
  isStart := false
  index := 0
  workers i := .new (spurious i)
  returned := []
  taken := []

/-- The pointer of the thread `i` to its loop. -/
def evLoop (i : ℕ) (s : ThreadPool) : Option LoopId :=
  if (s.workers i).flag then some (i + 1) else none

def setWorker (i : ℕ) (w : State) (s : ThreadPool) : ThreadPool :=
  { s with workers := Function.update s.workers i w }

/-- The main thread is in `run`, starting the thread `returned.length`. -/
def Starting (s : ThreadPool) : Prop := s.isStart = true ∧ s.returned.length < conf.threadNum

instance (s : ThreadPool) : Decidable (s.Starting conf) := inferInstanceAs (Decidable (_ ∧ _))

/-- `run` has come back. -/
def Started (s : ThreadPool) : Prop := s.isStart = true ∧ conf.threadNum ≤ s.returned.length

instance (s : ThreadPool) : Decidable (s.Started conf) := inferInstanceAs (Decidable (_ ∧ _))

/-- The loop that the pool hands out next. -/
def nextLoop (s : ThreadPool) : Option LoopId :=
  if conf.threadNum = 0 then some 0
  else if conf.keepsPointer then s.returned.getD s.index none
  else s.evLoop s.index

def step (s : ThreadPool) (a : PoolAct) : Option ThreadPool :=
  match a with
  | .run => if s.isStart = false then some { s with isStart := true } else none
  | .start a =>
    if s.Starting conf then
      ((s.workers s.returned.length).waiterStep a).map fun w => s.setWorker s.returned.length w
    else none
  | .push =>
    if s.Starting conf ∧ (s.workers s.returned.length).waiter = .done then
      some { s with returned := s.returned ++ [s.evLoop s.returned.length] }
    else none
  | .worker i a =>
    if i < conf.threadNum then
      ((s.workers i).setterStep conf.order a).map fun w => s.setWorker i w
    else none
  | .spurious i =>
    if i < conf.threadNum then (s.workers i).spuriousStep.map fun w => s.setWorker i w else none
  | .take =>
    if s.Started conf then
      some { s with
        index := if conf.threadNum = 0 then s.index else conf.advance s.index
        taken := s.taken ++ [s.nextLoop conf] }
    else none

/-! ### What a step does -/

variable {conf} {s t : ThreadPool}

/-- The steps, each with the state it leads to. -/
inductive Trans (conf : PoolConf) (s : ThreadPool) : PoolAct → ThreadPool → Prop
  | run (h : s.isStart = false) : Trans conf s .run { s with isStart := true }
  | start {a : WaiterAct} {w : State} (h : s.Starting conf)
      (hw : (s.workers s.returned.length).waiterStep a = some w) :
      Trans conf s (.start a) (s.setWorker s.returned.length w)
  | push (h : s.Starting conf) (hdone : (s.workers s.returned.length).waiter = .done) :
      Trans conf s .push { s with returned := s.returned ++ [s.evLoop s.returned.length] }
  | worker {i : ℕ} {a : SetterAct} {w : State} (hi : i < conf.threadNum)
      (hw : (s.workers i).setterStep conf.order a = some w) :
      Trans conf s (.worker i a) (s.setWorker i w)
  | spurious {i : ℕ} {w : State} (hi : i < conf.threadNum)
      (hw : (s.workers i).spuriousStep = some w) : Trans conf s (.spurious i) (s.setWorker i w)
  | take (h : s.Started conf) :
      Trans conf s .take { s with
        index := if conf.threadNum = 0 then s.index else conf.advance s.index
        taken := s.taken ++ [s.nextLoop conf] }

lemma trans_of_step {a : PoolAct} (h : s.step conf a = some t) : Trans conf s a t := by
  cases a <;> simp only [step, Option.ite_none_right_eq_some, Option.some.injEq,
    Option.map_eq_some_iff] at h
  case run =>
    obtain ⟨h, rfl⟩ := h
    exact .run h
  case start =>
    obtain ⟨h, w, hw, rfl⟩ := h
    exact .start h hw
  case push =>
    obtain ⟨⟨h, hdone⟩, rfl⟩ := h
    exact .push h hdone
  case worker =>
    obtain ⟨h, w, hw, rfl⟩ := h
    exact .worker h hw
  case spurious =>
    obtain ⟨h, w, hw, rfl⟩ := h
    exact .spurious h hw
  case take =>
    obtain ⟨h, rfl⟩ := h
    exact .take h

/-! ### The invariant -/

/-- The loop of the `k`-th turn. -/
def turn (conf : PoolConf) (k : ℕ) : LoopId :=
  if conf.threadNum = 0 then 0 else k % conf.threadNum + 1

/-- **What holds throughout.** -/
structure Inv (conf : PoolConf) (s : ThreadPool) : Prop where
  workers : ∀ i, (s.workers i).Inv conf.order
  length : s.returned.length ≤ conf.threadNum
  returned : s.returned = (List.range s.returned.length).map fun i => some (i + 1)
  set : ∀ i < s.returned.length, (s.workers i).flag = true
  index : 0 < conf.threadNum → s.index = s.taken.length % conf.threadNum
  taken : s.taken = (List.range s.taken.length).map fun k => some (turn conf k)

lemma inv_new (spurious : ℕ → ℕ) : (new spurious).Inv conf where
  workers _ := State.inv_new _
  length := Nat.zero_le _
  returned := rfl
  set _ h := absurd h (Nat.not_lt_zero _)
  index _ := (Nat.zero_mod _).symm
  taken := rfl

@[simp] lemma workers_setWorker (i j : ℕ) (w : State) :
    (s.setWorker i w).workers j = if j = i then w else s.workers j := by
  simp [setWorker, Function.update_apply]

/-- A step of one of the threads. -/
lemma Inv.setWorker {i : ℕ} {w : State} (h : s.Inv conf)
    (hw : (s.workers i).Step conf.order w) : (s.setWorker i w).Inv conf := by
  refine ⟨fun j => ?_, h.length, h.returned, fun j hj => ?_, h.index, h.taken⟩ <;>
    rw [workers_setWorker] <;> split_ifs with hji
  · exact (h.workers i).step hw
  · exact h.workers j
  · exact hw.flag (h.set i (hji ▸ hj))
  · exact h.set j hj

/-- The loop that is handed out is that of the thread whose turn it is. -/
lemma Inv.nextLoop (h : s.Inv conf) (hs : s.Started conf) :
    s.nextLoop conf = some (turn conf s.taken.length) := by
  unfold ThreadPool.nextLoop turn
  split_ifs with hn hkeep
  · rfl
  · have hlt := Nat.mod_lt s.taken.length (Nat.pos_of_ne_zero hn)
    rw [h.index (Nat.pos_of_ne_zero hn), h.returned, List.getD_eq_getElem?_getD,
      List.getElem?_map, List.getElem?_range (by have := hs.2; omega)]
    rfl
  · have hlt := Nat.mod_lt s.taken.length (Nat.pos_of_ne_zero hn)
    rw [h.index (Nat.pos_of_ne_zero hn), evLoop, if_pos (h.set _ (hlt.trans_le hs.2))]

lemma Inv.trans {a : PoolAct} (h : s.Inv conf) (ht : Trans conf s a t) : t.Inv conf := by
  cases ht with
  | run => exact ⟨h.workers, h.length, h.returned, h.set, h.index, h.taken⟩
  | start hs hw => exact h.setWorker (.waiter _ hw)
  | worker hi hw => exact h.setWorker (.setter _ hw)
  | spurious hi hw => exact h.setWorker (.spurious hw)
  | push hs hdone =>
      have hflag : (s.workers s.returned.length).flag = true :=
        (h.workers _).seen (Or.inr hdone)
      refine ⟨h.workers, ?_, ?_, fun i hi => ?_, h.index, h.taken⟩
      · rw [List.length_append]
        exact hs.2
      · rw [List.length_append, List.length_singleton, List.range_succ, List.map_append,
          ← h.returned, evLoop, if_pos hflag]
        rfl
      · rw [List.length_append, List.length_singleton] at hi
        rcases Nat.lt_succ_iff_lt_or_eq.mp hi with hi | rfl
        · exact h.set i hi
        · exact hflag
  | take hs =>
      refine ⟨h.workers, h.length, h.returned, h.set, fun hn => ?_, ?_⟩
      · rw [List.length_append, List.length_singleton, if_neg (Nat.ne_of_gt hn), h.index hn,
          conf.advance_eq _ hn]
      · rw [List.length_append, List.length_singleton, List.range_succ, List.map_append,
          ← h.taken, h.nextLoop hs]
        rfl

/-! ### Coming back from `run` -/

/-- Whose turn it is: the main thread in `run`, or the thread `i` before it enters its loop. -/
inductive Party
  | main
  | worker (i : ℕ)

def Does : Party → PoolAct → Prop
  | .main, .start _ | .main, .push => True
  | .worker i, .worker j _ => i = j
  | _, _ => False

def Enabled (conf : PoolConf) (p : Party) (s : ThreadPool) : Prop :=
  ∃ a, Does p a ∧ (s.step conf a).isSome

/-- A schedule that lets everyone finish what has been begun. -/
def Fair (conf : PoolConf) (spurious : ℕ → ℕ) (sched : ℕ → PoolAct) : Prop :=
  ∀ p, WeaklyFair (step conf) (new spurious) sched (Enabled conf p) (Does p)

/-- How many steps `run` may still take. -/
def rank (conf : PoolConf) (s : ThreadPool) : ℕ :=
  ∑ i ∈ Finset.range conf.threadNum, (s.workers i).rank +
    (conf.threadNum - s.returned.length)

/-- Who can move while `run` has not come back. -/
def helpful (s : ThreadPool) : Party :=
  if (s.workers s.returned.length).waiter = .done then .main
  else match (s.workers s.returned.length).helpful with
    | .waiter => .main
    | .setter => .worker s.returned.length

lemma Inv.rank_setWorker {i : ℕ} {w : State} (h : s.Inv conf) (hi : i < conf.threadNum)
    (hw : (s.workers i).Step conf.order w) : (s.setWorker i w).rank conf < s.rank conf := by
  have hlt := (h.workers i).rank_step hw
  refine Nat.add_lt_add_right (Finset.sum_lt_sum (fun j _ => ?_) ⟨i, Finset.mem_range.mpr hi, ?_⟩) _
  · rw [workers_setWorker]
    split_ifs with hji
    · exact hji ▸ hlt.le
    · exact le_rfl
  · rw [workers_setWorker, if_pos rfl]
    exact hlt

/-- **Every step brings the end closer.** -/
lemma Inv.rank_trans {a : PoolAct} (h : s.Inv conf) (hs : s.Starting conf)
    (ht : Trans conf s a t) : t.rank conf < s.rank conf := by
  cases ht with
  | run hno => exact absurd (hno.symm.trans hs.1) (by decide)
  | start _ hw => exact h.rank_setWorker hs.2 (.waiter _ hw)
  | worker hi hw => exact h.rank_setWorker hi (.setter _ hw)
  | spurious hi hw => exact h.rank_setWorker hi (.spurious hw)
  | push =>
      have hlt := hs.2
      simp only [rank, List.length_append, List.length_singleton]
      omega
  | take hstarted => exact absurd hs.2 (Nat.not_lt.mpr hstarted.2)

/-- **Someone can move until `run` comes back.** -/
lemma Inv.helpful_enabled (h : s.Inv conf) (hs : s.Starting conf) :
    Enabled conf s.helpful s := by
  unfold ThreadPool.helpful
  split_ifs with hdone
  · exact ⟨.push, trivial, by simp only [step, if_pos (And.intro hs hdone), Option.isSome_some]⟩
  · have hmoves := (h.workers s.returned.length).helpful_moves hdone
    cases hhelp : (s.workers s.returned.length).helpful <;> rw [hhelp] at hmoves
    · obtain ⟨a, w, hw⟩ := hmoves
      exact ⟨.start a, trivial, by simp [step, hs, hw]⟩
    · obtain ⟨a, w, hw⟩ := hmoves
      exact ⟨.worker _ a, rfl, by simp [step, hs.2, hw]⟩

/-- `run` has been called. -/
structure Begun (conf : PoolConf) (s : ThreadPool) : Prop where
  inv : s.Inv conf
  isStart : s.isStart = true

lemma Begun.trans {a : PoolAct} (h : s.Begun conf) (ht : Trans conf s a t) : t.Begun conf := by
  refine ⟨h.inv.trans ht, ?_⟩
  cases ht with
  | run => rfl
  | _ => exact h.isStart

/-- **The start of a pool.** Whatever the schedule, each loop handed out is that of the thread
whose turn it is, and is set; and if nobody is held up for ever, `run` comes back once it has
been called. No wake-up is lost, whether the worker notifies before or after it has given the
mutex up. -/
theorem pool_starts (conf : PoolConf) (spurious : ℕ → ℕ) {sched : ℕ → PoolAct}
    (fair : Fair conf spurious sched) :
    (∀ n, (play (step conf) (new spurious) sched n).taken =
      (List.range (play (step conf) (new spurious) sched n).taken.length).map fun k =>
        some (turn conf k)) ∧
    ∀ n, (play (step conf) (new spurious) sched n).isStart = true →
      ∃ m ≥ n, (play (step conf) (new spurious) sched m).Started conf := by
  have hinv : ∀ n, (play (step conf) (new spurious) sched n).Inv conf :=
    play_inv (fun _ _ _ hs hst => hs.trans (trans_of_step hst)) (inv_new spurious)
  refine ⟨fun n => (hinv n).taken, fun n hstart => ?_⟩
  have hstarting : ∀ {s : ThreadPool}, s.isStart = true → ¬ s.Started conf → s.Starting conf :=
    fun hs hno => ⟨hs, Nat.lt_of_not_le fun hle => hno ⟨hs, hle⟩⟩
  have hbegun : Begun conf (play (step conf) (new spurious) sched n) := ⟨hinv n, hstart⟩
  exact eventually_of_helpful (fun s => s.Started conf) (rank conf) helpful (Enabled conf) Does
    (fun s a t hs _ hst => hs.trans (trans_of_step hst))
    (fun s hs hno => hs.inv.helpful_enabled (hstarting hs.isStart hno))
    (fun s a t hs hno hst => Or.inr (Or.inl
      (hs.inv.rank_trans (hstarting hs.isStart hno) (trans_of_step hst))))
    (fun s a t hs hno _ hst => Or.inr
      (hs.inv.rank_trans (hstarting hs.isStart hno) (trans_of_step hst))) fair hbegun

/-- One worker, which notifies after the main thread has seen the loop; two connections. -/
def startOne : List PoolAct :=
  [.run, .start .create, .worker 0 .lock, .worker 0 .set, .worker 0 .unlock, .start .lock,
    .start .test, .start .unlock, .worker 0 .notify, .push, .take, .take]

/-- `run` is not called twice. -/
lemma step_run (h : s.isStart = true) : s.step conf .run = none := by
  simp [step, h]

lemma play_startOne (k : ℕ) :
    play (step (.httpPool 1)) (new fun _ => 0) (startOne.getD · .run) (12 + k) =
      play (step (.httpPool 1)) (new fun _ => 0) (startOne.getD · .run) 12 := by
  have hstart : (play (step (.httpPool 1)) (new fun _ => 0) (startOne.getD · .run)
      12).isStart = true := by decide +kernel
  refine play_stuck (fun i => ?_) k
  rw [List.getD_eq_default _ _ (Nat.le_add_right 12 i)]
  exact step_run hstart

/-- At the end nobody has anything begun. -/
lemma fair_startOne : Fair (.httpPool 1) (fun _ => 0) (startOne.getD · .run) := by
  intro p n h
  obtain ⟨a, hdoes, hsome⟩ := h (12 + n) (Nat.le_add_left n 12)
  rw [play_startOne] at hsome
  have hreturned : (play (step (.httpPool 1)) (new fun _ => 0) (startOne.getD · .run)
      12).returned.length = 1 := by decide +kernel
  have hworker : (play (step (.httpPool 1)) (new fun _ => 0) (startOne.getD · .run)
      12).workers 0 = ⟨.done, .done, true, 0⟩ := by decide +kernel
  generalize play (step (.httpPool 1)) (new fun _ => 0) (startOne.getD · .run) 12 = s at *
  have hno : ¬ s.Starting (.httpPool 1) := fun hs => Nat.lt_irrefl 1 (hreturned ▸ hs.2)
  cases p with
  | main => cases a <;> first | exact hdoes.elim | simp [step, hno] at hsome
  | worker i =>
      cases a with
      | worker j b =>
          obtain rfl : i = j := hdoes
          by_cases hi : i < (PoolConf.httpPool 1).threadNum
          · obtain rfl : i = 0 := Nat.lt_one_iff.mp hi
            cases b <;> simp [step, State.setterStep, hworker, PoolConf.httpPool] at hsome
          · simp [step, hi] at hsome
      | _ => exact hdoes.elim

theorem pool_starts_one :
    (play (step (.httpPool 1)) (new fun _ => 0) (startOne.getD · .run) 12).taken =
        [some 1, some 1] ∧
      ∃ m ≥ 1, (play (step (.httpPool 1)) (new fun _ => 0) (startOne.getD · .run) m).Started
        (.httpPool 1) :=
  ⟨by decide +kernel, (pool_starts _ _ fair_startOne).2 1 (by decide +kernel)⟩

end ThreadPool

end Reactor
