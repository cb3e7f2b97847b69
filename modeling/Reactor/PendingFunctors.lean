import Reactor.EventLoop

/-!
Every functor pushed runs once, and functors run in the order in which they were pushed,
whoever pushes and whenever: the functors run, the rest of the batch and the functors pending
are always together the functors pushed. A batch ends where the pushes had come to when it was
swapped out.
-/

namespace Reactor

open Lib.Trace

namespace LoopSys

variable {F : Type*}

/-- **No functor is lost, doubled or overtaken, and no batch grows**: what has run of the
batch and what has not comes from the pushes made before the swap. -/
structure InOrder (s : LoopSys F) : Prop where
  order : s.executed ++ s.pc.batch ++ s.loop.pendingFuntors_ = s.pushed
  batchEnd : s.executed ++ s.pc.batch = s.pushed.take s.swapped
  after : s.loop.pendingFuntors_ = s.pushed.drop s.swapped

/-- The invariant: the functors in order, and how far the batch goes. -/
structure Queued (s : LoopSys F) : Prop where
  order : s.executed ++ s.pc.batch ++ s.loop.pendingFuntors_ = s.pushed
  swapped : (s.executed ++ s.pc.batch).length = s.swapped

lemma Queued.inOrder {s : LoopSys F} (h : s.Queued) : s.InOrder where
  order := h.order
  batchEnd := by rw [← h.order, ← h.swapped, List.take_left]
  after := by rw [← h.order, ← h.swapped, List.drop_left]

/-- A step that touches neither the functors run nor the batch keeps the invariant, if it
pushes what it adds. -/
lemma Queued.pushing {s t : LoopSys F} (fs : List F) (h : s.Queued)
    (he : t.executed = s.executed) (hb : t.pc.batch = s.pc.batch)
    (hpend : t.loop.pendingFuntors_ = s.loop.pendingFuntors_ ++ fs)
    (hpush : t.pushed = s.pushed ++ fs) (hs : t.swapped = s.swapped) : t.Queued where
  order := by rw [he, hb, hpend, hpush, ← h.order, List.append_assoc _ _ fs]
  swapped := by rw [he, hb, hs, h.swapped]

lemma Queued.idle {s t : LoopSys F} (h : s.Queued) (he : t.executed = s.executed)
    (hb : t.pc.batch = s.pc.batch) (hpend : t.loop.pendingFuntors_ = s.loop.pendingFuntors_)
    (hpush : t.pushed = s.pushed) (hs : t.swapped = s.swapped) : t.Queued :=
  h.pushing [] he hb (by rw [hpend, List.append_nil]) (by rw [hpush, List.append_nil]) hs

/-! ### The steps -/

lemma Queued.other {s t : LoopSys F} {a : LoopAct F} (h : s.Queued)
    (hstep : s.other a = some t) : t.Queued := by
  cases a with
  | push i f =>
      simp only [LoopSys.other, Option.ite_none_right_eq_some, Option.some.injEq] at hstep
      obtain ⟨-, rfl⟩ := hstep
      exact h.pushing [f] rfl rfl rfl rfl rfl
  | storeQuit i =>
      simp only [LoopSys.other, Option.ite_none_right_eq_some, Option.some.injEq] at hstep
      obtain ⟨-, rfl⟩ := hstep
      exact h.idle rfl rfl rfl rfl rfl
  | wakeup i =>
      simp only [LoopSys.other, Option.ite_none_left_eq_some, Option.some.injEq] at hstep
      obtain ⟨-, rfl⟩ := hstep
      exact h.idle rfl rfl s.loop.wakeup_pendingFuntors rfl rfl
  | _ => cases hstep

lemma Queued.user {s t : LoopSys F} {a : LoopAct F} (h : s.Queued)
    (hstep : s.user a = some t) : t.Queued := by
  rcases user_cases hstep with ⟨f, -, rfl⟩ | ⟨-, rfl⟩ | ⟨-, rfl⟩ | ⟨-, rfl⟩
  · exact h.pushing [f] rfl (LoopPc.batch_setInner _ _) rfl rfl rfl
  · exact h.idle rfl (LoopPc.batch_setInner _ _) rfl rfl rfl
  · exact h.idle rfl (LoopPc.batch_setInner _ _) s.loop.wakeup_pendingFuntors rfl rfl
  · exact h.idle rfl rfl rfl rfl rfl

/-- The swap makes the pending functors the batch; each functor of the batch runs in its
turn. -/
lemma Queued.own {s t : LoopSys F} {a : LoopAct F} (h : s.Queued) (hstep : s.own a = some t) :
    t.Queued := by
  unfold LoopSys.own at hstep
  split at hstep
  case h_4 hpc =>
    simp only [Option.ite_none_right_eq_some, Option.some.injEq] at hstep
    obtain ⟨-, rfl⟩ := hstep
    exact h.idle rfl (by rw [hpc]; rfl) rfl rfl rfl
  case h_8 hpc =>
    -- `swap`
    obtain rfl := Option.some.inj hstep
    have hall := h.order
    rw [hpc] at hall
    change s.executed ++ [] ++ s.loop.pendingFuntors_ = s.pushed at hall
    rw [List.append_nil] at hall
    refine ⟨?_, congrArg List.length hall⟩
    change s.executed ++ s.loop.pendingFuntors_ ++ [] = s.pushed
    rw [List.append_nil, hall]
  case h_9 f batch hpc =>
    -- `nextFunctor`
    obtain rfl := Option.some.inj hstep
    have hbatch : s.executed ++ [f] ++ batch = s.executed ++ s.pc.batch := by
      rw [hpc, List.append_assoc]
      rfl
    exact ⟨(congrArg (· ++ _) hbatch).trans h.order, (congrArg _ hbatch).trans h.swapped⟩
  case h_14 => cases hstep
  all_goals
    rename_i hpc
    obtain rfl := Option.some.inj hstep
    refine h.idle rfl ?_ rfl rfl rfl
    rw [hpc]
    first | rfl | (split_ifs <;> rfl)

/-- **The step lemma.** -/
lemma Queued.step {s t : LoopSys F} {a : LoopAct F} (h : s.Queued) (hstep : s.Step a t) :
    t.Queued := by
  unfold Step LoopSys.step at hstep
  split at hstep
  all_goals first
    | exact h.other hstep
    | exact h.user hstep
    | exact h.own hstep

lemma queued_new : (new : LoopSys F).Queued := ⟨rfl, rfl⟩

/-- **Pending functors run exactly once and in order.** -/
theorem functors_in_order {tr : List (LoopAct F × LoopSys F)} (h : Chain Step new tr) :
    Always InOrder new tr :=
  (always_of_inv (fun _ _ _ hs hstep => hs.step hstep) queued_new h).mono fun _ hs => hs.inOrder

/-- A functor that pushes another while it runs. -/
theorem functors_in_order_nested :
    let tr := walk step (new : LoopSys ℕ) [.push 1 5, .wakeup 1, .enter, .clearQuit, .test,
      .epollWait [.wakeupChannel], .nextChannel, .setCalling, .swap, .nextFunctor, .innerPush 6]
    tr.getLast?.map (fun e => (e.2.executed, e.2.loop.pendingFuntors_)) = some ([5], [6]) ∧
      Always InOrder new tr :=
  ⟨by decide, functors_in_order (chain_walk _ _ _)⟩

end LoopSys

end Reactor
