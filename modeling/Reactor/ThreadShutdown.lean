import Reactor.EventLoopThread

/-!
The end of an `EventLoopThread`.

The destructor sets `quit_` and joins. That ends the loop unless the worker has yet to come to
the `quit_ = false` at the top of `loop()`, which overwrites the request. And as the worker
leaves `loop_` as it is when its loop is gone, whoever tests `loop_` after that is told that
there is a loop.
-/

namespace Reactor

open Lib.Trace

/-! ### The quit flag of a loop -/

namespace LoopSys

variable {F : Type*}

/-- In its own thread a loop changes the flag at the top of `loop()` only, and it comes to a
wait only by a test that finds the flag clear. -/
lemma own_quit {s t : LoopSys F} {a : LoopAct F} (h : s.own a = some t) :
    (a ≠ .clearQuit → t.loop.quit_ = s.loop.quit_) ∧
      (t.pc = .poll → a = .test ∧ s.loop.quit_ = false) := by
  unfold own at h
  split at h
  case h_2 =>
    -- `clearQuit`
    obtain rfl := Option.some.inj h
    exact ⟨fun ha => absurd rfl ha, fun hp => nomatch hp⟩
  case h_3 =>
    -- `test`
    obtain rfl := Option.some.inj h
    refine ⟨fun _ => rfl, fun hp => ⟨rfl, ?_⟩⟩
    cases hq : s.loop.quit_
    · rfl
    · simp [hq] at hp
  case h_4 =>
    -- `epollWait`
    simp only [Option.ite_none_right_eq_some, Option.some.injEq] at h
    obtain ⟨-, rfl⟩ := h
    exact ⟨fun _ => rfl, fun hp => nomatch hp⟩
  case h_14 => cases h
  all_goals
    obtain rfl := Option.some.inj h
    exact ⟨fun _ => rfl, fun hp => nomatch hp⟩

lemma other_quit {s t : LoopSys F} {a : LoopAct F} (h : s.other a = some t) :
    (s.loop.quit_ = true → t.loop.quit_ = true) ∧ t.pc = s.pc := by
  cases a with
  | push | storeQuit | wakeup =>
    simp only [other, Option.ite_none_right_eq_some, Option.ite_none_left_eq_some,
      Option.some.injEq] at h
    obtain ⟨-, rfl⟩ := h
    simp [LoopSys.push, EventLoop.push]
  | _ => cases h

lemma user_quit {s t : LoopSys F} {a : LoopAct F} (h : s.user a = some t) :
    (s.loop.quit_ = true → t.loop.quit_ = true) ∧ t.pc ≠ .poll := by
  have hpc : ∃ inner, t.pc.inner = some inner := by
    rcases user_cases h with ⟨f, hi, rfl⟩ | ⟨hi, rfl⟩ | ⟨hi, rfl⟩ | ⟨hi, rfl⟩ <;>
      rcases LoopPc.inner_eq_some hi with ⟨active, hpc⟩ | ⟨batch, hpc⟩ <;>
      simp [hpc, LoopPc.setInner, LoopPc.inner]
  refine ⟨?_, ?_⟩
  · rcases user_cases h with ⟨f, -, rfl⟩ | ⟨-, rfl⟩ | ⟨-, rfl⟩ | ⟨-, rfl⟩ <;>
      simp [LoopSys.push, EventLoop.push]
  · intro hp
    obtain ⟨inner, hi⟩ := hpc
    rw [hp] at hi
    cases hi

/-- The flag stays set until the top of `loop()`. -/
lemma quit_of_step {s t : LoopSys F} {a : LoopAct F} (h : s.step a = some t)
    (ha : a ≠ .clearQuit) (hq : s.loop.quit_ = true) : t.loop.quit_ = true := by
  unfold step at h
  split at h
  all_goals
    first
      | exact (other_quit h).1 hq
      | exact (user_quit h).1 hq
      | exact ((own_quit h).1 ha).trans hq

/-- A wait begins with a test that finds the flag clear. -/
lemma poll_of_step {s t : LoopSys F} {a : LoopAct F} (h : s.step a = some t)
    (hp : t.pc = .poll) : s.pc = .poll ∨ s.loop.quit_ = false := by
  unfold step at h
  split at h
  all_goals
    first
      | exact Or.inl ((other_quit h).2 ▸ hp)
      | exact absurd hp (user_quit h).2
      | exact Or.inr ((own_quit h).2 hp).2

lemma pc_of_epollWait {s t : LoopSys F} {active : List Active}
    (h : s.step (.epollWait active) = some t) : s.pc = .poll := by
  simp only [step, own] at h
  split at h
  all_goals first | assumption | simp_all

lemma quit_of_clearQuit {s t : LoopSys F} (h : s.step .clearQuit = some t) :
    t.loop.quit_ = false := by
  simp only [step, own] at h
  split at h
  case h_2 =>
    obtain rfl := Option.some.inj h
    rfl
  all_goals simp_all

lemma handling_of_epollWait {s t : LoopSys F} {active : List Active}
    (h : s.step (.epollWait active) = some t) : t.pc ≠ .poll := by
  intro hp
  exact nomatch ((own_quit h).2 hp).1

end LoopSys

namespace EventLoopThread

variable {F : Type*}

/-! ### A quit request -/

/-- **The property of a quit request.** From the store of the destructor until `loop()`
returns, `quit_` stays set, and the loop begins at most the wait it was about to begin. -/
def QuitKept (s : EventLoopThread F) : Prop :=
  (s.Stored → s.worker = .looping → s.sys.loop.quit_ = true) ∧ s.polls ≤ 1

instance (s : EventLoopThread F) : Decidable s.QuitKept := inferInstanceAs (Decidable (_ ∧ _))

/-- The step is not the `quit_ = false` of `loop()` after the store of the destructor. -/
def ClearsInTime (s : EventLoopThread F) (a : ThreadAct F) : Prop :=
  a = .loop .clearQuit → ¬ s.Stored

/-- What keeps the request. -/
structure QuitInv (s : EventLoopThread F) : Prop where
  base : s.Base
  before : ¬ s.Stored → s.owner ≠ .done → s.polls = 0
  kept : s.Stored → s.worker = .looping → s.sys.loop.quit_ = true
  polls_le : s.polls ≤ 1
  polls_eq : s.Stored → s.worker = .looping → s.sys.pc = .poll → s.polls = 0

lemma quitInv_new : QuitInv (new : EventLoopThread F) :=
  ⟨base_new, fun _ _ => rfl, by simp [new], Nat.zero_le _, by simp [new]⟩

lemma QuitInv.trans {s t : EventLoopThread F} {a : ThreadAct F} (hi : s.QuitInv)
    (h : Trans s a t) (hg : s.ClearsInTime a) : t.QuitInv := by
  have hbase := hi.base.trans h
  cases h with
  | start ho =>
    have hz := hi.before (by simp [Stored, ho]) (by simp [ho])
    exact ⟨hbase, fun _ _ => hz, by simp [Stored], hi.polls_le, by simp⟩
  | storeQuit ho hsys =>
    have hz := hi.before (by simp [Stored, ho]) (by simp [ho])
    refine ⟨hbase, by simp [Stored], fun _ _ => ?_, hi.polls_le, fun _ _ _ => hz⟩
    simp only [LoopSys.step, LoopSys.other, Option.ite_none_right_eq_some,
      Option.some.injEq] at hsys
    obtain ⟨-, rfl⟩ := hsys
    rfl
  | wakeup ho hsys =>
    have hs : s.Stored := Or.inl ho
    refine ⟨hbase, by simp [Stored], fun _ hw => ?_, hi.polls_le, fun _ hw hp => ?_⟩
    · exact LoopSys.quit_of_step hsys (by simp) (hi.kept hs hw)
    · have hq := hi.kept hs hw
      rcases LoopSys.poll_of_step hsys hp with hp | hq'
      · exact hi.polls_eq hs hw hp
      · simp [hq] at hq'
  | loop hl hw hsys hleave hpoll =>
    refine ⟨hbase, hi.before, fun hs hw => ?_, hi.polls_le, fun hs hw hp => ?_⟩
    · refine LoopSys.quit_of_step hsys ?_ (hi.kept hs hw)
      rintro rfl
      exact hg rfl hs
    · have hq := hi.kept hs hw
      rcases LoopSys.poll_of_step hsys hp with hp | hq'
      · exact hi.polls_eq hs hw hp
      · simp [hq] at hq'
  | poll hw hsys =>
    have hpc := LoopSys.pc_of_epollWait hsys
    have hpc' := LoopSys.handling_of_epollWait hsys
    refine ⟨hbase, fun hs ho => ?_, fun hs hw => LoopSys.quit_of_step hsys (by simp)
      (hi.kept hs hw), ?_, fun _ _ hp => absurd hp hpc'⟩
    · exact (if_neg hs).trans (hi.before hs ho)
    · by_cases hs : s.Stored
      · rw [if_pos hs, hi.polls_eq hs hw hpc]
      · rw [if_neg hs]
        exact hi.polls_le
  | leave hw hsys =>
    exact ⟨hbase, hi.before, by simp, hi.polls_le, by simp⟩
  | join ho hw => exact ⟨hbase, by simp, by simp [Stored], hi.polls_le, by simp [Stored]⟩
  | testLoop ho =>
    have hz := hi.before (by simp [Stored, ho]) (by simp [ho])
    have hns : ¬ Stored { s with owner := if s.loop_ then OwnerPc.quitting else .done } := by
      cases s.loop_ <;> simp [Stored]
    exact ⟨hbase, fun _ _ => hz, fun hs => absurd hs hns, hi.polls_le, fun hs => absurd hs hns⟩
  | awaitLoop ho =>
    have hz := hi.before (by simp [Stored, ho]) (by simp [ho])
    exact ⟨hbase, fun _ _ => hz, by simp [Stored], hi.polls_le, by simp [Stored]⟩
  | destroy ho =>
    have hz := hi.before (by rcases ho with ho | ho <;> simp [Stored, ho])
      (by rcases ho with ho | ho <;> simp [ho])
    exact ⟨hbase, fun _ _ => hz, by simp [Stored], hi.polls_le, by simp [Stored]⟩
  | publish hw =>
    -- the destructor stores nothing before `loop_` is set
    have hns : ¬ s.Stored := fun hs => by
      have := hi.base.published.mp (hi.base.quitting (Or.inr hs))
      simp [Published, hw] at this
    exact ⟨hbase, hi.before, fun hs => absurd hs hns, hi.polls_le, fun hs => absurd hs hns⟩
  | construct | lastSection | destroyLoop =>
    exact ⟨hbase, hi.before, by simp, hi.polls_le, by simp⟩

/-- A store of `false` over the request breaks the property at once. -/
lemma Trans.not_quitKept {s t : EventLoopThread F} {a : ThreadAct F} (h : Trans s a t)
    (hg : ¬ s.ClearsInTime a) : ¬ t.QuitKept := by
  simp only [ClearsInTime, Classical.not_imp, not_not] at hg
  obtain ⟨rfl, hs⟩ := hg
  intro hk
  cases h with
  | loop hl hw hsys hleave hpoll =>
    have hq : _ = true := hk.1 hs (hw rfl)
    rw [LoopSys.quit_of_clearQuit hsys] at hq
    cases hq

/-- **A quit request is lost when `loop()` clears `quit_` after it, and only then.** -/
theorem quit_kept_iff {tr : List (ThreadAct F × EventLoopThread F)}
    (h : Chain Step (new : EventLoopThread F) tr) :
    Always QuitKept new tr ↔ Chain (fun s a _ => s.ClearsInTime a) new tr :=
  always_iff_of_inv (fun _ hi => ⟨hi.kept, hi.polls_le⟩)
    (fun _ _ _ hi hst hg => hi.trans hst.trans hg)
    (fun _ _ _ _ hst hg => hst.trans.not_quitKept hg) quitInv_new h

/-- The destructor stores before `loop()` is entered, and the loop waits twice more. -/
def lostQuit : List (ThreadAct Unit) :=
  [.start, .construct, .publish, .awaitLoop, .destroy, .testLoop, .storeQuit, .loop .enter,
    .loop .clearQuit, .wakeup, .loop .test, .loop (.epollWait [.wakeupChannel]),
    .loop .nextChannel, .loop .setCalling, .loop .swap, .loop .clearCalling, .loop .test,
    .loop (.epollWait [])]

/-- A quit request that is lost. -/
theorem quit_not_kept :
    Chain Step (new : EventLoopThread Unit) (walk step new lostQuit) ∧
      (walk step new lostQuit).length = lostQuit.length ∧
      ¬ Always QuitKept (new : EventLoopThread Unit) (walk step new lostQuit) :=
  ⟨chain_walk _ _ _, by decide +kernel, by decide +kernel⟩

/-- The destructor stores while the loop waits. -/
def keptQuit : List (ThreadAct Unit) :=
  [.start, .construct, .publish, .awaitLoop, .loop .enter, .loop .clearQuit, .loop .test,
    .destroy, .testLoop, .storeQuit]

theorem quit_kept_keptQuit :
    Always QuitKept (new : EventLoopThread Unit) (walk step new keptQuit) ↔
      Chain (fun s a _ => s.ClearsInTime a) (new : EventLoopThread Unit)
        (walk step new keptQuit) :=
  quit_kept_iff (chain_walk _ _ _)

/-! ### The life of the loop -/

/-- **The property of `loop_`.** What it points to has not been destroyed. -/
def LoopLive (s : EventLoopThread F) : Prop := s.loop_ = true → s.Alive

instance (s : EventLoopThread F) : Decidable s.LoopLive := inferInstanceAs (Decidable (_ → _))

/-- The calls of the destructor find a loop. -/
def QuitsLive (s : EventLoopThread F) (a : ThreadAct F) : Prop :=
  a = .storeQuit ∨ a = .wakeup → s.Alive

lemma Base.alive {s : EventLoopThread F} (hb : s.Base) (hw : s.worker ≠ .done) : s.LoopLive := by
  intro hl
  rcases hb.published.mp hl with h | h | h | h
  · exact Or.inr (Or.inl h)
  · exact Or.inr (Or.inr (Or.inl h))
  · exact Or.inr (Or.inr (Or.inr h))
  · exact absurd h hw

/-- Only the end of its scope makes the worker done. -/
lemma Trans.worker_done {s t : EventLoopThread F} {a : ThreadAct F} (h : Trans s a t)
    (hw : s.worker ≠ .done) (ha : a ≠ .destroyLoop) : t.worker ≠ .done := by
  cases h with
  | destroyLoop => exact absurd rfl ha
  | loop | poll | awaitLoop | destroy | testLoop | storeQuit | wakeup => exact hw
  | join ho hw' => exact absurd hw' hw
  | _ => simp

/-- The loop is not gone, and where the threads are. -/
def LoopInv (s : EventLoopThread F) : Prop := s.Base ∧ s.worker ≠ .done

lemma LoopInv.trans {s t : EventLoopThread F} {a : ThreadAct F} (hi : s.LoopInv)
    (h : Trans s a t) (ha : a ≠ .destroyLoop) : t.LoopInv ∧ t.LoopLive ∧ s.QuitsLive a := by
  have hb' := hi.1.trans h
  have hw' := h.worker_done hi.2 ha
  refine ⟨⟨hb', hw'⟩, hb'.alive hw', fun hq => hi.1.alive hi.2 (hi.1.quitting ?_)⟩
  rcases hq with rfl | rfl
  · cases h with
    | storeQuit ho => exact Or.inl ho
  · cases h with
    | wakeup ho => exact Or.inr (Or.inl ho)

/-- The worker leaves `loop_` as it is. -/
lemma LoopInv.not_loopLive {s t : EventLoopThread F} (hi : s.LoopInv)
    (h : Trans s .destroyLoop t) : ¬ t.LoopLive := by
  intro hlive
  cases h with
  | destroyLoop hw =>
    have hl := hi.1.published.mpr (Or.inr (Or.inr (Or.inl hw)))
    simp [LoopLive, Alive, hl] at hlive

/-- **`loop_` points to a loop as long as the worker has one**, and no longer. -/
theorem loop_live_iff {tr : List (ThreadAct F × EventLoopThread F)}
    (h : Chain Step (new : EventLoopThread F) tr) :
    Always LoopLive new tr ∧ Chain (fun s a _ => s.QuitsLive a) new tr ↔
      Chain (fun _ a _ => a ≠ .destroyLoop) new tr := by
  have hnew : (new : EventLoopThread F).LoopLive := fun hl => nomatch hl
  have hinv : (new : EventLoopThread F).LoopInv := ⟨base_new, by simp [new]⟩
  rw [always_iff_chain, and_iff_right hnew, ← chain_and]
  refine chain_iff_of_inv (fun s a t (hi : s.LoopInv) hst ha => hi.trans hst.trans ha)
    (fun s a t hi hst ha hR => ?_) hinv h
  obtain rfl := not_not.mp ha
  exact hi.not_loopLive hst.trans hR.1

/-- A callback quits the loop, which is gone when the destructor quits it. -/
def deadLoop : List (ThreadAct Unit) :=
  [.start, .construct, .publish, .awaitLoop, .loop .enter, .loop .clearQuit, .loop .test,
    .loop (.epollWait [.channel]), .loop .nextChannel, .loop .innerQuit, .loop .ret,
    .loop .setCalling, .loop .swap, .loop .clearCalling, .loop .test, .loop .leave,
    .lastSection, .destroyLoop, .destroy, .testLoop, .storeQuit, .wakeup, .join]

theorem loop_not_live :
    Chain Step (new : EventLoopThread Unit) (walk step new deadLoop) ∧
      (walk step new deadLoop).length = deadLoop.length ∧
      ¬ Always LoopLive (new : EventLoopThread Unit) (walk step new deadLoop) :=
  ⟨chain_walk _ _ _, by decide +kernel, by decide +kernel⟩

theorem loop_live_keptQuit :
    Always LoopLive (new : EventLoopThread Unit) (walk step new keptQuit) ∧
        Chain (fun s a _ => s.QuitsLive a) (new : EventLoopThread Unit)
          (walk step new keptQuit) ↔
      Chain (fun _ a _ => a ≠ .destroyLoop) (new : EventLoopThread Unit)
        (walk step new keptQuit) :=
  loop_live_iff (chain_walk _ _ _)

end EventLoopThread

end Reactor
