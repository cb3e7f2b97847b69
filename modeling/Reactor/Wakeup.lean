import Reactor.EventLoop

/-!
No wake-up of a loop is lost: when the loop's thread is about to wait although a functor is
pending or the loop was told to quit, the wait returns at once, or some other thread is about
to make it return.

A push or a store of `quit_` owes a wake-up until the counter is written. The wait is reached
with the debts since the last swap unpaid but on their way: the drain of the counter comes
before the swap of the same iteration, and a functor that pushes sees
`callingPendingFunctors_`.
-/

namespace Reactor

open Lib.Trace

namespace LoopSys

variable {F : Type*}

/-- The wait returns at once, or another thread has yet to write the counter. -/
def Woken (s : LoopSys F) : Prop :=
  0 < s.loop.wakeupCount ∨ ∃ t, s.callers t = .pushed ∨ s.callers t = .quitting

/-- **The property of a loop about to wait.** -/
def WakesUp (s : LoopSys F) : Prop :=
  s.pc = .poll → s.loop.pendingFuntors_ ≠ [] ∨ s.loop.quit_ = true → s.Woken

/-- A pending functor wakes the loop up. -/
def Owed (s : LoopSys F) : Prop := s.loop.pendingFuntors_ ≠ [] → s.Woken

/-- What holds at each place of the loop's thread. Between the wait and the swap nothing is
owed, since the swap takes all that is pending. -/
def Inv (s : LoopSys F) : Prop :=
  match s.pc with
  | .outside | .enter | .check | .leave => s.Owed
  | .poll => s.loop.pendingFuntors_ ≠ [] ∨ s.loop.quit_ = true → s.Woken
  | .handling _ | .callback _ _ => True
  | .swap => s.loop.callingPendingFunctors_ = true
  | .functors _ => s.loop.callingPendingFunctors_ = true ∧ s.Owed
  | .functor inner _ => s.loop.callingPendingFunctors_ = true ∧
      (s.loop.pendingFuntors_ ≠ [] → s.Woken ∨ inner ≠ .running)

lemma Inv.wakesUp {s : LoopSys F} (h : s.Inv) : s.WakesUp := by
  intro hpc
  rw [Inv, hpc] at h
  exact h

/-- Once the loop is woken up the invariant asks only for `callingPendingFunctors_`. -/
lemma Inv.of_woken {s t : LoopSys F} (h : s.Inv) (hw : t.Woken) (hpc : t.pc = s.pc)
    (hc : t.loop.callingPendingFunctors_ = s.loop.callingPendingFunctors_) : t.Inv := by
  unfold Inv at h ⊢
  rw [hpc]
  cases hs : s.pc <;> rw [hs] at h
  case swap => exact hc.trans h
  case functors batch => exact ⟨hc.trans h.1, fun _ => hw⟩
  case functor inner batch => exact ⟨hc.trans h.1, fun _ => Or.inl hw⟩
  all_goals first | exact fun _ => hw | trivial

/-! ### The steps -/

/-- Every step of another thread leaves the loop woken up: it has stored and not yet written,
or it has just written. -/
lemma other_woken {s t : LoopSys F} {a : LoopAct F} (h : s.other a = some t) :
    t.Woken ∧ t.pc = s.pc ∧
      t.loop.callingPendingFunctors_ = s.loop.callingPendingFunctors_ := by
  cases a with
  | push i f =>
      simp only [other, Option.ite_none_right_eq_some, Option.some.injEq] at h
      obtain ⟨-, rfl⟩ := h
      exact ⟨Or.inr ⟨i, Or.inl (Function.update_self ..)⟩, rfl, rfl⟩
  | storeQuit i =>
      simp only [other, Option.ite_none_right_eq_some, Option.some.injEq] at h
      obtain ⟨-, rfl⟩ := h
      exact ⟨Or.inr ⟨i, Or.inr (Function.update_self ..)⟩, rfl, rfl⟩
  | wakeup i =>
      simp only [other, Option.ite_none_left_eq_some, Option.some.injEq] at h
      obtain ⟨-, rfl⟩ := h
      exact ⟨Or.inl s.loop.wakeup_pos, rfl, s.loop.wakeup_callingPendingFunctors⟩
  | _ => cases h

/-- In a callback user code owes nothing. In a functor its push comes before a test that
succeeds and a write. -/
lemma Inv.user {s t : LoopSys F} {a : LoopAct F} (h : s.Inv) (hstep : s.user a = some t) :
    t.Inv := by
  have huser := user_cases hstep
  obtain ⟨inner, hinner⟩ : ∃ inner, s.pc.inner = some inner := by
    rcases huser with ⟨f, hi, -⟩ | ⟨hi, -⟩ | ⟨hi, -⟩ | ⟨hi, -⟩ <;> exact ⟨_, hi⟩
  rcases LoopPc.inner_eq_some hinner with ⟨active, hpc⟩ | ⟨batch, hpc⟩
  · have hcb : ∃ inner', t.pc = .callback inner' active := by
      rcases huser with ⟨f, -, rfl⟩ | ⟨-, rfl⟩ | ⟨-, rfl⟩ | ⟨-, rfl⟩ <;>
        simp [hpc, LoopPc.setInner]
    obtain ⟨inner', hpc'⟩ := hcb
    rw [Inv, hpc']
    trivial
  · rw [Inv, hpc] at h
    obtain ⟨hcalling, howed⟩ := h
    rcases huser with ⟨f, -, rfl⟩ | ⟨-, rfl⟩ | ⟨-, rfl⟩ | ⟨hi, rfl⟩ <;>
      simp only [Inv, hpc, LoopPc.setInner]
    · exact ⟨hcalling, fun _ => Or.inr (by decide)⟩
    · rw [hcalling]
      exact ⟨rfl, fun _ => Or.inr (by decide)⟩
    · exact ⟨by rw [EventLoop.wakeup_callingPendingFunctors, hcalling],
        fun _ => Or.inl (Or.inl s.loop.wakeup_pos)⟩
    · exact ⟨hcalling, howed⟩

/-- The loop's thread pays for what is pending by the swap, before it waits again. -/
lemma Inv.own {s t : LoopSys F} {a : LoopAct F} (h : s.Inv) (hstep : s.own a = some t) :
    t.Inv := by
  unfold LoopSys.own at hstep
  split at hstep
  case h_1 hpc =>
    -- `enter`
    obtain rfl := Option.some.inj hstep
    rw [Inv, hpc] at h
    exact h
  case h_2 hpc =>
    -- `clearQuit`
    obtain rfl := Option.some.inj hstep
    rw [Inv, hpc] at h
    exact h
  case h_3 hpc =>
    -- `test`: the loop waits only if `quit_` is not set yet
    obtain rfl := Option.some.inj hstep
    rw [Inv, hpc] at h
    by_cases hq : s.loop.quit_ = true
    · simp only [Inv, hq, if_true]
      exact h
    · simp only [Inv, hq]
      exact fun howed => h (howed.resolve_right Bool.false_ne_true)
  case h_4 hpc =>
    -- `epollWait`
    simp only [Option.ite_none_right_eq_some, Option.some.injEq] at hstep
    obtain ⟨-, rfl⟩ := hstep
    trivial
  case h_5 hpc =>
    -- `nextChannel`, the wakeup channel
    obtain rfl := Option.some.inj hstep
    trivial
  case h_6 hpc =>
    obtain rfl := Option.some.inj hstep
    trivial
  case h_7 hpc =>
    -- `setCalling`
    obtain rfl := Option.some.inj hstep
    rfl
  case h_8 hpc =>
    -- `swap`: nothing is pending
    obtain rfl := Option.some.inj hstep
    rw [Inv, hpc] at h
    exact ⟨h, fun hne => absurd rfl hne⟩
  case h_9 hpc =>
    -- `nextFunctor`
    obtain rfl := Option.some.inj hstep
    rw [Inv, hpc] at h
    exact ⟨h.1, fun hne => Or.inl (h.2 hne)⟩
  case h_10 hpc =>
    -- `clearCalling`
    obtain rfl := Option.some.inj hstep
    rw [Inv, hpc] at h
    exact h.2
  case h_11 hpc =>
    -- `ret`, from a callback
    obtain rfl := Option.some.inj hstep
    trivial
  case h_12 hpc =>
    -- `ret`, from a functor that owes nothing any more
    obtain rfl := Option.some.inj hstep
    rw [Inv, hpc] at h
    exact ⟨h.1, fun hne => (h.2 hne).resolve_right fun hr => hr rfl⟩
  case h_13 hpc =>
    -- `leave`
    obtain rfl := Option.some.inj hstep
    rw [Inv, hpc] at h
    exact h
  case h_14 => cases hstep

/-- **The step lemma.** -/
lemma Inv.step {s t : LoopSys F} {a : LoopAct F} (h : s.Inv) (hstep : s.Step a t) : t.Inv := by
  unfold Step LoopSys.step at hstep
  split at hstep
  all_goals first
    | exact h.of_woken (other_woken hstep).1 (other_woken hstep).2.1 (other_woken hstep).2.2
    | exact h.user hstep
    | exact h.own hstep

lemma inv_new : (new : LoopSys F).Inv := fun hne => absurd rfl hne

/-- **No lost wake-up.** In every run of a loop and any number of other threads, a loop that
is about to wait with a functor pending or with `quit_` set is woken up. -/
theorem no_lost_wakeup {tr : List (LoopAct F × LoopSys F)} (h : Chain Step new tr) :
    Always WakesUp new tr :=
  (always_of_inv (fun _ _ _ hs hstep => hs.step hstep) inv_new h).mono fun _ hs => hs.wakesUp

/-- A functor pushed between the test of `quit_` and the wait. -/
theorem no_lost_wakeup_before_wait :
    (walk step (new : LoopSys ℕ) [.enter, .clearQuit, .test, .push 1 7]).length = 4 ∧
      Always WakesUp (new : LoopSys ℕ)
        (walk step new [.enter, .clearQuit, .test, .push 1 7]) :=
  ⟨rfl, no_lost_wakeup (chain_walk _ _ _)⟩

end LoopSys

end Reactor
