import Mathlib.Tactic

/-!
One thread waits for another to set a flag: a mutex, a condition variable and a loop around the
wait, which may end for no reason.

The other thread notifies with the lock held, or after it has given it up. Either way no wake-up
is lost, the flag is set when the wait is over, and the two come to an end after a bounded number
of steps, one of the two being able to move until then. Waits that end for no reason are finitely
many.
-/

namespace Reactor.Lib.Handshake

/-- Where the thread is that waits. -/
inductive WaiterPc
  /-- before it creates the other thread -/
  | idle
  | locking
  /-- holds the lock, before the test of the flag -/
  | testing
  /-- in the wait, with the lock given up -/
  | waiting
  /-- in the wait, notified and without the lock -/
  | waking
  /-- holds the lock and has seen the flag -/
  | leaving
  | done
  deriving DecidableEq

/-- Where the thread is that sets the flag. -/
inductive SetterPc
  | idle
  | locking
  /-- holds the lock, before it sets the flag -/
  | setting
  /-- holds the lock, the flag set -/
  | set
  /-- has notified and holds the lock -/
  | notified
  /-- has given the lock up and not notified -/
  | unlocked
  | done
  deriving DecidableEq

/-- How far each of the two is from its end. -/
def WaiterPc.rank : WaiterPc → ℕ
  | .idle => 6
  | .locking => 4
  | .testing => 3
  | .waiting => 2
  | .waking => 4
  | .leaving => 1
  | .done => 0

def SetterPc.rank : SetterPc → ℕ
  | .idle => 6
  | .locking => 5
  | .setting => 4
  | .set => 3
  | .notified => 1
  | .unlocked => 1
  | .done => 0

/-- Which the setter does first, once the flag is set. -/
inductive Order
  | notifyFirst
  | unlockFirst
  deriving DecidableEq

/-- The two threads, the flag, and how many waits may still end for no reason. -/
structure State where
  waiter : WaiterPc
  setter : SetterPc
  flag : Bool
  spurious : ℕ
  deriving DecidableEq

/-- Those of the waiter. -/
inductive WaiterAct
  | create
  | lock
  | test
  | relock
  | unlock
  deriving DecidableEq

/-- Those of the setter. -/
inductive SetterAct
  | lock
  | set
  | notify
  | unlock
  deriving DecidableEq

namespace State

def new (spurious : ℕ) : State := ⟨.idle, .idle, false, spurious⟩

def WaiterHolds (s : State) : Prop := s.waiter = .testing ∨ s.waiter = .leaving

def SetterHolds (s : State) : Prop :=
  s.setter = .setting ∨ s.setter = .set ∨ s.setter = .notified

instance (s : State) : Decidable s.WaiterHolds := inferInstanceAs (Decidable (_ ∨ _))

instance (s : State) : Decidable s.SetterHolds := inferInstanceAs (Decidable (_ ∨ _ ∨ _))

def Free (s : State) : Prop := ¬ s.WaiterHolds ∧ ¬ s.SetterHolds

instance (s : State) : Decidable s.Free := inferInstanceAs (Decidable (_ ∧ _))

/-- A thread in the wait goes on to take the lock. -/
def wake (s : State) : State :=
  if s.waiter = .waiting then { s with waiter := .waking } else s

def waiterStep (s : State) : WaiterAct → Option State
  | .create =>
    if s.waiter = .idle then some { s with waiter := .locking, setter := .locking } else none
  | .lock => if s.waiter = .locking ∧ s.Free then some { s with waiter := .testing } else none
  | .test =>
    if s.waiter = .testing then
      some { s with waiter := if s.flag then .leaving else .waiting }
    else none
  | .relock => if s.waiter = .waking ∧ s.Free then some { s with waiter := .testing } else none
  | .unlock => if s.waiter = .leaving then some { s with waiter := .done } else none

def setterStep (o : Order) (s : State) : SetterAct → Option State
  | .lock => if s.setter = .locking ∧ s.Free then some { s with setter := .setting } else none
  | .set => if s.setter = .setting then some { s with setter := .set, flag := true } else none
  | .notify =>
    match o, s.setter with
    | .notifyFirst, .set => some { s.wake with setter := .notified }
    | .unlockFirst, .unlocked => some { s.wake with setter := .done }
    | _, _ => none
  | .unlock =>
    match o, s.setter with
    | .notifyFirst, .notified => some { s with setter := .done }
    | .unlockFirst, .set => some { s with setter := .unlocked }
    | _, _ => none

/-- The wait ends for no reason. -/
def spuriousStep (s : State) : Option State :=
  if s.waiter = .waiting ∧ 0 < s.spurious then
    some { s with waiter := .waking, spurious := s.spurious - 1 }
  else none

/-- A step of either thread, or of neither. -/
inductive Step (o : Order) (s t : State) : Prop
  | waiter (a : WaiterAct) (h : s.waiterStep a = some t)
  | setter (a : SetterAct) (h : s.setterStep o a = some t)
  | spurious (h : s.spuriousStep = some t)

variable {o : Order} {s t : State}

/-! ### The invariant -/

/-- The setter is done with the flag. -/
def Notified (s : State) : Prop := s.setter = .notified ∨ s.setter = .done

/-- **What holds throughout.** -/
structure Inv (o : Order) (s : State) : Prop where
  /-- the lock is held by one of the two -/
  exclusive : ¬ (s.WaiterHolds ∧ s.SetterHolds)
  idle : s.waiter = .idle ↔ s.setter = .idle
  flag : s.flag = true ↔
    s.setter = .set ∨ s.setter = .notified ∨ s.setter = .unlocked ∨ s.setter = .done
  /-- no wake-up is lost -/
  waiting : s.waiter = .waiting → ¬ s.Notified
  seen : s.waiter = .leaving ∨ s.waiter = .done → s.flag = true
  order : (s.setter = .notified → o = .notifyFirst) ∧ (s.setter = .unlocked → o = .unlockFirst)

lemma inv_new (n : ℕ) : (new n).Inv o := by
  constructor <;> simp [new, WaiterHolds, SetterHolds, Notified]

lemma Inv.waiterStep {a : WaiterAct} (h : s.Inv o) (hst : s.waiterStep a = some t) : t.Inv o := by
  obtain ⟨hex, hidle, hflag, hwait, hseen, horder⟩ := h
  cases a <;>
    simp only [State.waiterStep, Option.ite_none_right_eq_some, Option.some.injEq] at hst <;>
    obtain ⟨hpc, rfl⟩ := hst
  case test =>
    -- without the flag the setter has not taken the lock
    cases hf : s.flag <;> constructor <;>
      simp_all [WaiterHolds, SetterHolds, Notified]
  all_goals
    constructor <;> simp_all [WaiterHolds, SetterHolds, Notified, Free]

/-- What a notification leaves. -/
lemma wake_eq (s : State) : ∃ w, s.wake = { s with waiter := w } ∧ w ≠ .waiting ∧
    (w = s.waiter ∨ s.waiter = .waiting ∧ w = .waking) := by
  unfold wake
  split_ifs with h
  · exact ⟨.waking, rfl, by decide, Or.inr ⟨h, rfl⟩⟩
  · exact ⟨s.waiter, rfl, h, Or.inl rfl⟩

lemma Inv.setterStep {a : SetterAct} (h : s.Inv o) (hst : s.setterStep o a = some t) : t.Inv o := by
  obtain ⟨hex, hidle, hflag, hwait, hseen, horder⟩ := h
  obtain ⟨w, hwake, hw, hww⟩ := wake_eq s
  cases a <;> simp only [State.setterStep] at hst
  case notify =>
    -- whoever waits is woken, and whoever comes later sees the flag
    split at hst <;> simp only [Option.some.injEq, reduceCtorEq] at hst
    all_goals
      rw [hwake] at hst
      subst hst
      rcases hww with rfl | ⟨hs, rfl⟩ <;> constructor <;>
        simp_all [WaiterHolds, SetterHolds, Notified]
  case unlock =>
    split at hst <;> simp only [Option.some.injEq, reduceCtorEq] at hst
    all_goals
      subst hst
      constructor <;> simp_all [WaiterHolds, SetterHolds, Notified]
  all_goals
    simp only [Option.ite_none_right_eq_some, Option.some.injEq] at hst
    obtain ⟨hpc, rfl⟩ := hst
    constructor <;> simp_all [WaiterHolds, SetterHolds, Notified, Free]

lemma Inv.spuriousStep (h : s.Inv o) (hst : s.spuriousStep = some t) : t.Inv o := by
  obtain ⟨hex, hidle, hflag, hwait, hseen, horder⟩ := h
  simp only [State.spuriousStep, Option.ite_none_right_eq_some, Option.some.injEq] at hst
  obtain ⟨⟨hpc, -⟩, rfl⟩ := hst
  constructor <;> simp_all [WaiterHolds, SetterHolds, Notified]

/-- **The step lemma.** -/
theorem Inv.step (h : s.Inv o) (hst : s.Step o t) : t.Inv o := by
  cases hst with
  | waiter a hst => exact h.waiterStep hst
  | setter a hst => exact h.setterStep hst
  | spurious hst => exact h.spuriousStep hst

/-- A flag once set stays set. -/
lemma Step.flag (hst : s.Step o t) (hf : s.flag = true) : t.flag = true := by
  cases hst with
  | waiter a hst =>
      cases a <;>
        simp only [State.waiterStep, Option.ite_none_right_eq_some, Option.some.injEq] at hst <;>
        obtain ⟨-, rfl⟩ := hst <;> exact hf
  | setter a hst =>
      have hwake : s.wake.flag = s.flag := by
        unfold wake
        split_ifs <;> rfl
      cases a <;> simp only [State.setterStep] at hst
      case notify =>
        split at hst <;> simp only [Option.some.injEq, reduceCtorEq] at hst <;> subst hst <;>
          exact hwake.trans hf
      case unlock =>
        split at hst <;> simp only [Option.some.injEq, reduceCtorEq] at hst <;> subst hst <;>
          exact hf
      case lock =>
        simp only [Option.ite_none_right_eq_some, Option.some.injEq] at hst
        obtain ⟨-, rfl⟩ := hst
        exact hf
      case set =>
        simp only [Option.ite_none_right_eq_some, Option.some.injEq] at hst
        obtain ⟨-, rfl⟩ := hst
        rfl
  | spurious hst =>
      simp only [State.spuriousStep, Option.ite_none_right_eq_some, Option.some.injEq] at hst
      obtain ⟨-, rfl⟩ := hst
      exact hf

/-! ### The end -/

/-- How many steps are left, at most. Being woken takes the waiter two steps back. -/
def rank (s : State) : ℕ := s.waiter.rank + 3 * s.setter.rank + 3 * s.spurious

/-- **Every step brings the end closer.** -/
theorem Inv.rank_step (h : s.Inv o) (hst : s.Step o t) : t.rank < s.rank := by
  cases hst with
  | waiter a hst =>
      cases a <;>
        simp only [State.waiterStep, Option.ite_none_right_eq_some, Option.some.injEq] at hst <;>
        obtain ⟨hpc, rfl⟩ := hst
      case create =>
        simp only [rank, hpc, h.idle.mp hpc, WaiterPc.rank, SetterPc.rank]
        omega
      case test => cases hf : s.flag <;> simp [rank, hpc, WaiterPc.rank]
      all_goals simp [rank, hpc, WaiterPc.rank]
  | setter a hst =>
      have hwake : s.wake.waiter.rank ≤ s.waiter.rank + 2 := by
        unfold wake
        split_ifs with hw
        · simp [hw, WaiterPc.rank]
        · exact Nat.le_add_right _ _
      have hspur : s.wake.spurious = s.spurious := by
        unfold wake
        split_ifs <;> rfl
      cases a <;> simp only [State.setterStep] at hst
      case notify =>
        split at hst <;> simp only [Option.some.injEq, reduceCtorEq] at hst
        all_goals
          subst hst
          simp_all only [rank, SetterPc.rank]
          omega
      case unlock =>
        split at hst <;> simp only [Option.some.injEq, reduceCtorEq] at hst
        all_goals
          subst hst
          simp_all [rank, SetterPc.rank]
      all_goals
        simp only [Option.ite_none_right_eq_some, Option.some.injEq] at hst
        obtain ⟨hpc, rfl⟩ := hst
        simp [rank, hpc, SetterPc.rank]
  | spurious hst =>
      simp only [State.spuriousStep, Option.ite_none_right_eq_some, Option.some.injEq] at hst
      obtain ⟨⟨hpc, hpos⟩, rfl⟩ := hst
      simp only [rank, hpc, WaiterPc.rank]
      omega

/-- The thread that can move while the waiter is not done. -/
inductive Party
  | waiter
  | setter
  deriving DecidableEq

def helpful (s : State) : Party :=
  match s.waiter with
  | .idle | .testing | .leaving => .waiter
  | .locking | .waking => if s.SetterHolds then .setter else .waiter
  | .waiting | .done => .setter

/-- A setter that has begun and is not done can move, when the lock is not in its way. -/
lemma Inv.setter_moves (h : s.Inv o) (hidle : s.setter ≠ .idle) (hdone : s.setter ≠ .done)
    (hfree : s.setter = .locking → s.Free) : ∃ a t, s.setterStep o a = some t := by
  cases hpc : s.setter with
  | idle => exact absurd hpc hidle
  | locking => exact ⟨.lock, _, if_pos ⟨hpc, hfree hpc⟩⟩
  | setting => exact ⟨.set, _, if_pos hpc⟩
  | set =>
      cases o
      · exact ⟨.notify, { s.wake with setter := .notified }, by simp only [State.setterStep, hpc]⟩
      · exact ⟨.unlock, { s with setter := .unlocked }, by simp only [State.setterStep, hpc]⟩
  | notified =>
      obtain rfl := h.order.1 hpc
      exact ⟨.unlock, { s with setter := .done }, by simp only [State.setterStep, hpc]⟩
  | unlocked =>
      obtain rfl := h.order.2 hpc
      exact ⟨.notify, { s.wake with setter := .done }, by simp only [State.setterStep, hpc]⟩
  | done => exact absurd hpc hdone

/-- **Someone can move until the waiter is done.** -/
theorem Inv.helpful_moves (h : s.Inv o) (hnot : s.waiter ≠ .done) :
    match s.helpful with
    | .waiter => ∃ a t, s.waiterStep a = some t
    | .setter => ∃ a t, s.setterStep o a = some t := by
  have hbegun : s.waiter ≠ .idle → s.setter ≠ .idle := fun hw hs => hw (h.idle.mpr hs)
  cases hpc : s.waiter with
  | done => exact absurd hpc hnot
  | idle =>
      simp only [helpful, hpc]
      exact ⟨.create, _, if_pos hpc⟩
  | testing =>
      simp only [helpful, hpc]
      exact ⟨.test, _, if_pos hpc⟩
  | leaving =>
      simp only [helpful, hpc]
      exact ⟨.unlock, _, if_pos hpc⟩
  | waiting =>
      simp only [helpful, hpc]
      have hnoti := h.waiting hpc
      refine h.setter_moves (hbegun (by simp [hpc])) (fun hd => hnoti (Or.inr hd)) fun hl => ?_
      simp [Free, WaiterHolds, SetterHolds, hpc, hl]
  | locking =>
      by_cases hs : s.SetterHolds
      · simp only [helpful, hpc, if_pos hs]
        refine h.setter_moves (hbegun (by simp [hpc])) ?_ fun hl => ?_
        · rintro hd
          simp [SetterHolds, hd] at hs
        · simp [SetterHolds, hl] at hs
      · simp only [helpful, hpc, if_neg hs]
        exact ⟨.lock, _, if_pos ⟨hpc, by simp [WaiterHolds, hpc], hs⟩⟩
  | waking =>
      by_cases hs : s.SetterHolds
      · simp only [helpful, hpc, if_pos hs]
        refine h.setter_moves (hbegun (by simp [hpc])) ?_ fun hl => ?_
        · rintro hd
          simp [SetterHolds, hd] at hs
        · simp [SetterHolds, hl] at hs
      · simp only [helpful, hpc, if_neg hs]
        exact ⟨.relock, _, if_pos ⟨hpc, by simp [WaiterHolds, hpc], hs⟩⟩

end State

end Reactor.Lib.Handshake
