import Reactor.EventLoop

/-!
A loop with a thread of its own, and the thread that owns both: `EventLoopThread.cc`.

The owner calls `startLoop` and later the destructor, the worker runs `threadFunc`, and any
other thread may call into the loop as long as there is one. The sections under `mutex_` are
single steps, so that `mutex_` is free in every state. The last of them compares `loop_` with
`nullptr`, and leaves it as it is.
-/

namespace Reactor

open Lib.Trace

/-- Where the owner is, in `startLoop` and in `~EventLoopThread`. -/
inductive OwnerPc
  | idle
  /-- in `startLoop`, until `loop_` is set -/
  | starting
  | started
  /-- in the destructor, before its test of `loop_` -/
  | destroying
  /-- before the store of `quit()` -/
  | quitting
  /-- in `quit()`, before `wakeup()` -/
  | waking
  | joining
  | done
  deriving DecidableEq

/-- Where the worker is, in `threadFunc`. -/
inductive WorkerPc
  | notStarted
  /-- before `EventLoop loop` -/
  | starting
  /-- in `callback_`, before it sets `loop_` -/
  | callback
  /-- in `loop.loop()`, or before it -/
  | looping
  /-- before the last section under `mutex_` -/
  | returned
  /-- before the end of the scope of `loop` -/
  | unlocked
  | done
  deriving DecidableEq

/-- The two threads and the loop. The last field counts the waits the loop has begun since
the destructor's store to `quit_`. -/
structure EventLoopThread (F : Type*) where
  loop_ : Bool
  exiting_ : Bool
  owner : OwnerPc
  worker : WorkerPc
  sys : LoopSys F
  polls : ℕ

/-- The steps of the owner, those of the worker, and `loop`: a step in `loop.loop()`, or of
another thread that calls into the loop. -/
inductive ThreadAct (F : Type*)
  | start
  | awaitLoop
  | destroy
  | testLoop
  | storeQuit
  | wakeup
  | join
  | construct
  | publish
  | loop (a : LoopAct F)
  | lastSection
  | destroyLoop

/-- The thread that makes the step, unless it is the loop's own. -/
def LoopAct.caller {F : Type*} : LoopAct F → Option ℕ
  | .push t _ | .storeQuit t | .wakeup t => some t
  | _ => none

namespace EventLoopThread

variable {F : Type*}

def new : EventLoopThread F where
  loop_ := false
  exiting_ := false
  owner := .idle
  worker := .notStarted
  sys := .new
  polls := 0

/-- The loop has been constructed and not been destroyed. -/
def Alive (s : EventLoopThread F) : Prop :=
  s.worker = .callback ∨ s.worker = .looping ∨ s.worker = .returned ∨ s.worker = .unlocked

instance (s : EventLoopThread F) : Decidable s.Alive :=
  inferInstanceAs (Decidable (_ ∨ _))

/-- The destructor has stored to `quit_`, and the join has not come back. -/
def Stored (s : EventLoopThread F) : Prop := s.owner = .waking ∨ s.owner = .joining

instance (s : EventLoopThread F) : Decidable s.Stored := inferInstanceAs (Decidable (_ ∨ _))

/-- A step on the loop. The owner is the caller 0. -/
def loopStep (s : EventLoopThread F) (a : LoopAct F) : Option (EventLoopThread F) :=
  (s.sys.step a).map fun sys => { s with sys := sys }

/-- The loop's thread in `loop()`. -/
def run (s : EventLoopThread F) (a : LoopAct F) : Option (EventLoopThread F) :=
  (s.loopStep a).map fun t =>
    match a with
    | .leave => { t with worker := .returned }
    | .epollWait _ => { t with polls := if s.Stored then s.polls + 1 else s.polls }
    | _ => t

def step (s : EventLoopThread F) (a : ThreadAct F) : Option (EventLoopThread F) :=
  match a with
  | .start =>
    if s.owner = .idle then some { s with owner := .starting, worker := .starting } else none
  | .awaitLoop =>
    if s.owner = .starting ∧ s.loop_ then some { s with owner := .started } else none
  | .destroy =>
    if s.owner = .idle ∨ s.owner = .started then
      some { s with exiting_ := true, owner := .destroying }
    else none
  | .testLoop =>
    if s.owner = .destroying then some { s with owner := if s.loop_ then .quitting else .done }
    else none
  | .storeQuit =>
    if s.owner = .quitting then ({ s with owner := .waking }).loopStep (.storeQuit 0) else none
  | .wakeup =>
    if s.owner = .waking then ({ s with owner := .joining }).loopStep (.wakeup 0) else none
  | .join =>
    if s.owner = .joining ∧ s.worker = .done then some { s with owner := .done } else none
  | .construct =>
    if s.worker = .starting then some { s with worker := .callback, sys := .new } else none
  | .publish =>
    if s.worker = .callback then some { s with worker := .looping, loop_ := true } else none
  | .loop a =>
    match a.caller with
    | some t => if t ≠ 0 ∧ s.Alive then s.loopStep a else none
    | none => if s.worker = .looping then s.run a else none
  | .lastSection =>
    if s.worker = .returned then some { s with worker := .unlocked } else none
  | .destroyLoop =>
    if s.worker = .unlocked then some { s with worker := .done } else none

def Step (s : EventLoopThread F) (a : ThreadAct F) (t : EventLoopThread F) : Prop :=
  s.step a = some t

/-! ### What a step does -/

/-- The steps, each with the state it leads to. -/
inductive Trans (s : EventLoopThread F) : ThreadAct F → EventLoopThread F → Prop
  | start (ho : s.owner = .idle) :
    Trans s .start { s with owner := .starting, worker := .starting }
  | awaitLoop (ho : s.owner = .starting) : Trans s .awaitLoop { s with owner := .started }
  | destroy (ho : s.owner = .idle ∨ s.owner = .started) :
    Trans s .destroy { s with exiting_ := true, owner := .destroying }
  | testLoop (ho : s.owner = .destroying) :
    Trans s .testLoop { s with owner := if s.loop_ then .quitting else .done }
  | storeQuit (ho : s.owner = .quitting) {sys : LoopSys F}
    (hsys : s.sys.step (.storeQuit 0) = some sys) :
    Trans s .storeQuit { s with owner := .waking, sys := sys }
  | wakeup (ho : s.owner = .waking) {sys : LoopSys F}
    (hsys : s.sys.step (.wakeup 0) = some sys) :
    Trans s .wakeup { s with owner := .joining, sys := sys }
  | join (ho : s.owner = .joining) (hw : s.worker = .done) :
    Trans s .join { s with owner := .done }
  | construct (hw : s.worker = .starting) :
    Trans s .construct { s with worker := .callback, sys := .new }
  | publish (hw : s.worker = .callback) :
    Trans s .publish { s with worker := .looping, loop_ := true }
  | loop {a : LoopAct F} {sys : LoopSys F} (hl : s.Alive)
    (hw : a.caller = none → s.worker = .looping) (hsys : s.sys.step a = some sys)
    (hleave : a ≠ .leave) (hpoll : ∀ active, a ≠ .epollWait active) :
    Trans s (.loop a) { s with sys := sys }
  | poll {active : List Active} {sys : LoopSys F} (hw : s.worker = .looping)
    (hsys : s.sys.step (.epollWait active) = some sys) :
    Trans s (.loop (.epollWait active))
      { s with sys := sys, polls := if s.Stored then s.polls + 1 else s.polls }
  | leave {sys : LoopSys F} (hw : s.worker = .looping) (hsys : s.sys.step .leave = some sys) :
    Trans s (.loop .leave) { s with sys := sys, worker := .returned }
  | lastSection (hw : s.worker = .returned) : Trans s .lastSection { s with worker := .unlocked }
  | destroyLoop (hw : s.worker = .unlocked) : Trans s .destroyLoop { s with worker := .done }

/-- A step on the loop changes nothing else. -/
lemma loopStep_eq {s t : EventLoopThread F} {a : LoopAct F} (h : s.loopStep a = some t) :
    ∃ sys, s.sys.step a = some sys ∧ t = { s with sys := sys } := by
  obtain ⟨sys, hsys, rfl⟩ := Option.map_eq_some_iff.mp h
  exact ⟨sys, hsys, rfl⟩

lemma run_trans {s t : EventLoopThread F} {a : LoopAct F} (hw : s.worker = .looping)
    (h : s.run a = some t) : Trans s (.loop a) t := by
  obtain ⟨u, hu, rfl⟩ := Option.map_eq_some_iff.mp h
  obtain ⟨sys, hsys, rfl⟩ := loopStep_eq hu
  cases a with
  | leave => exact .leave hw hsys
  | epollWait active => exact .poll hw hsys
  | _ => exact .loop (Or.inr (Or.inl hw)) (fun _ => hw) hsys (by simp) (by simp)

lemma Step.trans {s t : EventLoopThread F} {a : ThreadAct F} (h : Step s a t) :
    Trans s a t := by
  unfold Step at h
  cases a with
  | loop a =>
    simp only [step] at h
    rcases hc : a.caller with _ | i <;> rw [hc] at h <;>
      simp only [Option.ite_none_right_eq_some] at h
    · exact run_trans h.1 h.2
    · obtain ⟨⟨-, hl⟩, h⟩ := h
      obtain ⟨sys, hsys, rfl⟩ := loopStep_eq h
      exact .loop hl (by simp [hc]) hsys (by rintro rfl; cases hc) (by rintro active rfl; cases hc)
  | storeQuit =>
    simp only [step, Option.ite_none_right_eq_some] at h
    obtain ⟨sys, hsys, rfl⟩ := loopStep_eq h.2
    exact .storeQuit h.1 hsys
  | wakeup =>
    simp only [step, Option.ite_none_right_eq_some] at h
    obtain ⟨sys, hsys, rfl⟩ := loopStep_eq h.2
    exact .wakeup h.1 hsys
  | _ =>
    simp only [step, Option.ite_none_right_eq_some, Option.some.injEq] at h
    obtain ⟨h₁, rfl⟩ := h
    first
      | exact .start h₁ | exact .awaitLoop h₁.1 | exact .destroy h₁ | exact .testLoop h₁
      | exact .join h₁.1 h₁.2 | exact .construct h₁ | exact .publish h₁
      | exact .lastSection h₁ | exact .destroyLoop h₁

/-! ### Where the threads are -/

/-- The worker has set `loop_`. -/
def Published (s : EventLoopThread F) : Prop :=
  s.worker = .looping ∨ s.worker = .returned ∨ s.worker = .unlocked ∨ s.worker = .done

/-- How far the two threads are with respect to each other. -/
structure Base (s : EventLoopThread F) : Prop where
  idle : s.owner = .idle → s.worker = .notStarted
  published : s.loop_ = true ↔ s.Published
  quitting : s.owner = .quitting ∨ s.Stored → s.loop_ = true

lemma base_new : Base (new : EventLoopThread F) := by
  constructor <;> simp [new, Published, Stored]

lemma Base.trans {s t : EventLoopThread F} {a : ThreadAct F} (hb : s.Base) (h : Trans s a t) :
    t.Base := by
  obtain ⟨hidle, hpub, hquit⟩ := hb
  cases h with
  | testLoop ho =>
    refine ⟨?_, hpub, ?_⟩ <;> cases s.loop_ <;> simp [Stored]
  | destroy ho =>
    exact ⟨by simp, hpub, by simp [Stored]⟩
  | loop | poll => exact ⟨hidle, hpub, hquit⟩
  | _ => constructor <;> simp_all [Published, Stored]

end EventLoopThread

end Reactor
