import Reactor.Lib.Trace

/-!
One event loop and the threads that talk to it: `EventLoop.cc`, cut into the steps that
another thread can come between.

The loop's thread runs `loop()`; any number of other threads call `queueInloop`, `runInloop`
or `quit`. A `runInloop` in the loop's thread is a plain call, and elsewhere a `queueInloop`.
A functor is a value of `F`; what it does when it runs is up to the run.
-/

namespace Reactor

/-- What a loop shares between threads. `wakeupCount` is the counter behind `wakeupFd_`. -/
structure EventLoop (F : Type*) where
  looping_ : Bool
  quit_ : Bool
  callingPendingFunctors_ : Bool
  pendingFuntors_ : List F
  wakeupCount : ℕ

namespace EventLoop

variable {F : Type*}

def new : EventLoop F where
  looping_ := false
  quit_ := false
  callingPendingFunctors_ := false
  pendingFuntors_ := []
  wakeupCount := 0

/-- The part of `queueInloop` under `mutex_`. -/
def push (f : F) (l : EventLoop F) : EventLoop F :=
  { l with pendingFuntors_ := l.pendingFuntors_ ++ [f] }

/-- A write of one to an eventfd, which fails when the counter is at its largest value. -/
def wakeup (l : EventLoop F) : EventLoop F :=
  if l.wakeupCount < 2 ^ 64 - 2 then { l with wakeupCount := l.wakeupCount + 1 } else l

/-- A read of an eventfd. -/
def handleRead (l : EventLoop F) : EventLoop F := { l with wakeupCount := 0 }

lemma wakeup_pos (l : EventLoop F) : 0 < l.wakeup.wakeupCount := by
  unfold wakeup
  split_ifs
  · exact Nat.succ_pos _
  · omega

@[simp] lemma wakeup_pendingFuntors (l : EventLoop F) :
    l.wakeup.pendingFuntors_ = l.pendingFuntors_ := by
  unfold wakeup
  split_ifs <;> rfl

@[simp] lemma wakeup_quit (l : EventLoop F) : l.wakeup.quit_ = l.quit_ := by
  unfold wakeup
  split_ifs <;> rfl

@[simp] lemma wakeup_callingPendingFunctors (l : EventLoop F) :
    l.wakeup.callingPendingFunctors_ = l.callingPendingFunctors_ := by
  unfold wakeup
  split_ifs <;> rfl

end EventLoop

/-- Where a thread other than the loop's is between its store and its `wakeup()`. -/
inductive Caller
  | idle
  /-- in `queueInloop`, having pushed -/
  | pushed
  /-- in `quit`, having set `quit_` -/
  | quitting
  deriving DecidableEq

/-- Where user code in the loop's thread is, with respect to a `queueInloop` of its own. -/
inductive Inner
  | running
  /-- having pushed, before the test of `callingPendingFunctors_` -/
  | pushed
  /-- before the write of `wakeup()` -/
  | waking
  deriving DecidableEq

/-- An entry of `activeChannels_`. -/
inductive Active
  | wakeupChannel
  | channel
  deriving DecidableEq

/-- Where the loop's thread is in `loop()` and `doPendingFunctors`. -/
inductive LoopPc (F : Type*)
  | outside
  /-- before `quit_ = false` -/
  | enter
  /-- before the test of `quit_` -/
  | check
  /-- about to call `epoll_wait` -/
  | poll
  | handling (active : List Active)
  | callback (inner : Inner) (active : List Active)
  /-- `callingPendingFunctors_` is set, before the swap -/
  | swap
  | functors (batch : List F)
  | functor (inner : Inner) (batch : List F)
  /-- before `looping_ = false` -/
  | leave

namespace LoopPc

variable {F : Type*}

/-- The part of the local `functors` of `doPendingFunctors` not yet run. -/
def batch : LoopPc F → List F
  | .functors batch => batch
  | .functor _ batch => batch
  | _ => []

/-- Where user code is, when user code is running. -/
def inner : LoopPc F → Option Inner
  | .callback inner _ => some inner
  | .functor inner _ => some inner
  | _ => none

def setInner (inner : Inner) : LoopPc F → LoopPc F
  | .callback _ active => .callback inner active
  | .functor _ batch => .functor inner batch
  | pc => pc

@[simp] lemma batch_setInner (inner : Inner) (pc : LoopPc F) :
    (pc.setInner inner).batch = pc.batch := by
  cases pc <;> rfl

/-- User code runs within a callback or within a functor. -/
lemma inner_eq_some {pc : LoopPc F} {inner : Inner} (h : pc.inner = some inner) :
    (∃ active, pc = .callback inner active) ∨ ∃ batch, pc = .functor inner batch := by
  cases pc <;> cases h
  · exact Or.inl ⟨_, rfl⟩
  · exact Or.inr ⟨_, rfl⟩

end LoopPc

/-- The loop, its thread and the other threads; with the history of the functors: those
pushed in the order `mutex_` was taken, those run, and how many had been pushed at the last
swap. -/
structure LoopSys (F : Type*) where
  loop : EventLoop F
  pc : LoopPc F
  callers : ℕ → Caller
  pushed : List F
  executed : List F
  swapped : ℕ

/-- The steps. The first three are made by the other thread `t`, the last five by user code
in the loop's thread. -/
inductive LoopAct (F : Type*)
  | push (t : ℕ) (f : F)
  | storeQuit (t : ℕ)
  | wakeup (t : ℕ)
  | enter
  | clearQuit
  | test
  | epollWait (active : List Active)
  | nextChannel
  | setCalling
  | swap
  | nextFunctor
  | clearCalling
  | leave
  | innerPush (f : F)
  | innerTest
  | innerWakeup
  | innerQuit
  | ret

namespace LoopSys

variable {F : Type*}

def new : LoopSys F where
  loop := .new
  pc := .outside
  callers := fun _ => .idle
  pushed := []
  executed := []
  swapped := 0

/-- A push onto `pendingFuntors_`, recorded. -/
def push (f : F) (s : LoopSys F) : LoopSys F :=
  { s with loop := s.loop.push f, pushed := s.pushed ++ [f] }

/-- A call of another thread. -/
def other (s : LoopSys F) : LoopAct F → Option (LoopSys F)
  | .push t f =>
      if s.callers t = .idle then
        some { s.push f with callers := Function.update s.callers t .pushed }
      else none
  | .storeQuit t =>
      if s.callers t = .idle then
        some { s with
          loop := { s.loop with quit_ := true }
          callers := Function.update s.callers t .quitting }
      else none
  | .wakeup t =>
      if s.callers t = .idle then none
      else some { s with
        loop := s.loop.wakeup
        callers := Function.update s.callers t .idle }
  | _ => none

/-- User code in the loop's thread. `quit` is called in the thread of the loop here, and does
not wake it up. -/
def user (s : LoopSys F) (a : LoopAct F) : Option (LoopSys F) :=
  match a, s.pc.inner with
  | .innerPush f, some .running => some { s.push f with pc := s.pc.setInner .pushed }
  | .innerTest, some .pushed =>
      some { s with
        pc := s.pc.setInner (if s.loop.callingPendingFunctors_ then .waking else .running) }
  | .innerWakeup, some .waking =>
      some { s with loop := s.loop.wakeup, pc := s.pc.setInner .running }
  | .innerQuit, some .running => some { s with loop := { s.loop with quit_ := true } }
  | _, _ => none

/-- The loop's thread in `loop()`, `handleRead` and `doPendingFunctors`. A wait may return at
any time and with any of the channels, the wakeup channel among them only if its counter is
not zero. -/
def own (s : LoopSys F) (a : LoopAct F) : Option (LoopSys F) :=
  match a, s.pc with
  | .enter, .outside => some { s with loop := { s.loop with looping_ := true }, pc := .enter }
  | .clearQuit, .enter => some { s with loop := { s.loop with quit_ := false }, pc := .check }
  | .test, .check => some { s with pc := if s.loop.quit_ then .leave else .poll }
  | .epollWait active, .poll =>
      if .wakeupChannel ∈ active → 0 < s.loop.wakeupCount then
        some { s with pc := .handling active }
      else none
  | .nextChannel, .handling (.wakeupChannel :: active) =>
      some { s with loop := s.loop.handleRead, pc := .handling active }
  | .nextChannel, .handling (.channel :: active) =>
      some { s with pc := .callback .running active }
  | .setCalling, .handling [] =>
      some { s with loop := { s.loop with callingPendingFunctors_ := true }, pc := .swap }
  | .swap, .swap =>
      some { s with
        loop := { s.loop with pendingFuntors_ := [] }
        pc := .functors s.loop.pendingFuntors_
        swapped := s.pushed.length }
  | .nextFunctor, .functors (f :: batch) =>
      some { s with pc := .functor .running batch, executed := s.executed ++ [f] }
  | .clearCalling, .functors [] =>
      some { s with loop := { s.loop with callingPendingFunctors_ := false }, pc := .check }
  | .ret, .callback .running active => some { s with pc := .handling active }
  | .ret, .functor .running batch => some { s with pc := .functors batch }
  | .leave, .leave =>
      some { s with loop := { s.loop with looping_ := false }, pc := .outside }
  | _, _ => none

/-- One step of one of the threads. -/
def step (s : LoopSys F) (a : LoopAct F) : Option (LoopSys F) :=
  match a with
  | .push _ _ | .storeQuit _ | .wakeup _ => s.other a
  | .innerPush _ | .innerTest | .innerWakeup | .innerQuit => s.user a
  | _ => s.own a

/-- What user code does in one step. -/
lemma user_cases {s t : LoopSys F} {a : LoopAct F} (h : s.user a = some t) :
    (∃ f, s.pc.inner = some .running ∧ t = { s.push f with pc := s.pc.setInner .pushed }) ∨
    (s.pc.inner = some .pushed ∧ t = { s with
      pc := s.pc.setInner (if s.loop.callingPendingFunctors_ then .waking else .running) }) ∨
    (s.pc.inner = some .waking ∧
      t = { s with loop := s.loop.wakeup, pc := s.pc.setInner .running }) ∨
    (s.pc.inner = some .running ∧ t = { s with loop := { s.loop with quit_ := true } }) := by
  unfold user at h
  split at h
  · exact Or.inl ⟨_, ‹_›, (Option.some.inj h).symm⟩
  · exact Or.inr (Or.inl ⟨‹_›, (Option.some.inj h).symm⟩)
  · exact Or.inr (Or.inr (Or.inl ⟨‹_›, (Option.some.inj h).symm⟩))
  · exact Or.inr (Or.inr (Or.inr ⟨‹_›, (Option.some.inj h).symm⟩))
  · cases h

def Step (s : LoopSys F) (a : LoopAct F) (t : LoopSys F) : Prop := s.step a = some t

/-- The functor that a step pushes. -/
def pushedBy : LoopAct F → Option F
  | .push _ f => some f
  | .innerPush f => some f
  | _ => none

/-- The functor that a step runs. -/
def ranBy (s : LoopSys F) : LoopAct F → List F
  | .nextFunctor => s.pc.batch.take 1
  | _ => []

/-- What the step adds to the history is the functor it pushes and the one it runs. -/
def Records (s : LoopSys F) (a : LoopAct F) (t : LoopSys F) : Prop :=
  t.pushed = s.pushed ++ (pushedBy a).toList ∧ t.executed = s.executed ++ s.ranBy a

lemma records_other {s t : LoopSys F} {a : LoopAct F} (h : s.other a = some t) :
    s.Records a t := by
  cases a with
  | push | storeQuit | wakeup =>
      simp only [other, Option.ite_none_right_eq_some, Option.ite_none_left_eq_some,
        Option.some.injEq] at h
      obtain ⟨-, rfl⟩ := h
      simp [Records, pushedBy, ranBy, push]
  | _ => cases h

lemma records_user {s t : LoopSys F} {a : LoopAct F} (h : s.user a = some t) :
    s.Records a t := by
  unfold user at h
  split at h
  case h_5 => cases h
  all_goals
    obtain rfl := Option.some.inj h
    simp [Records, pushedBy, ranBy, push]

lemma records_own {s t : LoopSys F} {a : LoopAct F} (h : s.own a = some t) :
    s.Records a t := by
  unfold own at h
  split at h
  case h_4 =>
    simp only [Option.ite_none_right_eq_some, Option.some.injEq] at h
    obtain ⟨-, rfl⟩ := h
    simp [Records, pushedBy, ranBy]
  case h_9 hpc =>
    -- `nextFunctor`
    obtain rfl := Option.some.inj h
    simp [Records, pushedBy, ranBy, LoopPc.batch, hpc]
  case h_14 => cases h
  all_goals
    obtain rfl := Option.some.inj h
    simp [Records, pushedBy, ranBy]

lemma records_step {s t : LoopSys F} {a : LoopAct F} (h : s.step a = some t) :
    s.Records a t := by
  unfold step at h
  split at h
  all_goals first
    | exact records_other h
    | exact records_user h
    | exact records_own h

end LoopSys

end Reactor
