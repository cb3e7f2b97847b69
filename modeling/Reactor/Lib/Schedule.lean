import Mathlib.Order.WellFounded
import Mathlib.Tactic

/-!
Endless runs under a schedule.

A schedule names a label for every instant; a label that is not enabled is passed over, so that
every finite run is the start of the run of some schedule. What a fair label brings closer comes
about, if no other label moves it away.
-/

namespace Reactor.Lib.Schedule

variable {σ α ρ : Type*}

/-- The states of the run of a partial step function under a schedule. -/
def play (f : σ → α → Option σ) (s : σ) (sched : ℕ → α) : ℕ → σ
  | 0 => s
  | n + 1 => (f (play f s sched n) (sched n)).getD (play f s sched n)

variable {f : σ → α → Option σ} {s : σ} {sched : ℕ → α}

lemma play_succ_of_some {n : ℕ} {t : σ} (h : f (play f s sched n) (sched n) = some t) :
    play f s sched (n + 1) = t := by
  simp [play, h]

lemma play_succ_of_none {n : ℕ} (h : f (play f s sched n) (sched n) = none) :
    play f s sched (n + 1) = play f s sched n := by
  simp [play, h]

/-- Once no label of the schedule is enabled, the state stays. -/
lemma play_stuck {n : ℕ} (h : ∀ k, f (play f s sched n) (sched (n + k)) = none) (k : ℕ) :
    play f s sched (n + k) = play f s sched n := by
  induction k with
  | zero => rfl
  | succ k ih =>
    have hnone : f (play f s sched (n + k)) (sched (n + k)) = none := by
      rw [ih]
      exact h k
    exact (play_succ_of_none hnone).trans ih

/-- **The invariant rule.** What holds at the start and is kept by every step holds at all
times. -/
theorem play_inv {Inv : σ → Prop} (keep : ∀ s a t, Inv s → f s a = some t → Inv t)
    (h0 : Inv s) (n : ℕ) : Inv (play f s sched n) := by
  induction n with
  | zero => exact h0
  | succ n ih =>
    rcases h : f (play f s sched n) (sched n) with _ | t
    · rw [play_succ_of_none h]
      exact ih
    · rw [play_succ_of_some h]
      exact keep _ _ _ ih h

/-- What no step lowers grows with time. -/
theorem play_mono [Preorder ρ] (g : σ → ρ) (keep : ∀ s a t, f s a = some t → g s ≤ g t)
    {n m : ℕ} (hnm : n ≤ m) : g (play f s sched n) ≤ g (play f s sched m) := by
  induction m, hnm using Nat.le_induction with
  | base => exact le_rfl
  | succ m _ ih =>
    rcases hm : f (play f s sched m) (sched m) with _ | t
    · rw [play_succ_of_none hm]
      exact ih
    · rw [play_succ_of_some hm]
      exact ih.trans (keep _ _ _ hm)

/-- The schedule takes a label of the kind again and again. -/
def Recurs (f : σ → α → Option σ) (s : σ) (sched : ℕ → α) (Fair : α → Prop) : Prop :=
  ∀ n, ∃ m ≥ n, Fair (sched m) ∧ (f (play f s sched m) (sched m)).isSome

/-- **The progress rule.** Until `P` holds, a fair step lowers the rank and no step raises it; if
fair steps recur, `P` comes to hold. -/
theorem eventually_of_rank [Preorder ρ] [WellFoundedLT ρ] {Inv : σ → Prop} {Fair : α → Prop}
    (P : σ → Prop) (rank : σ → ρ) (keep : ∀ s a t, Inv s → f s a = some t → Inv t)
    (stay : ∀ s a t, Inv s → ¬ P s → f s a = some t → P t ∨ rank t ≤ rank s)
    (down : ∀ s a t, Inv s → ¬ P s → Fair a → f s a = some t → P t ∨ rank t < rank s)
    (fair : Recurs f s sched Fair) {n : ℕ} (h : Inv (play f s sched n)) :
    ∃ m ≥ n, P (play f s sched m) := by
  induction hr : rank (play f s sched n) using WellFoundedLT.induction generalizing n with
  | ind r ih =>
    subst hr
    by_contra hnot
    have hno : ∀ m ≥ n, ¬ P (play f s sched m) := fun m hm hP => hnot ⟨m, hm, hP⟩
    obtain ⟨m, hm, hfair, hsome⟩ := fair n
    -- until the fair step the rank is not raised
    have hInv : ∀ k ≥ n, Inv (play f s sched k) ∧
        rank (play f s sched k) ≤ rank (play f s sched n) := by
      intro k hk
      induction k, hk using Nat.le_induction with
      | base => exact ⟨h, le_rfl⟩
      | succ k hk ihk =>
        rcases hstep : f (play f s sched k) (sched k) with _ | t
        · rw [play_succ_of_none hstep]
          exact ihk
        · have ht := play_succ_of_some hstep
          have hle := (stay _ _ _ ihk.1 (hno k hk) hstep).resolve_left
            (ht ▸ hno (k + 1) (by omega))
          rw [ht]
          exact ⟨keep _ _ _ ihk.1 hstep, hle.trans ihk.2⟩
    obtain ⟨t, ht⟩ := Option.isSome_iff_exists.mp hsome
    have hnext := play_succ_of_some ht
    have hlt := (down _ _ _ (hInv m hm).1 (hno m hm) hfair ht).resolve_left
      (hnext ▸ hno (m + 1) (by omega))
    have hlow : rank (play f s sched (m + 1)) < rank (play f s sched n) :=
      hnext ▸ hlt.trans_le (hInv m hm).2
    obtain ⟨k, hk, hP⟩ := ih _ hlow (hInv (m + 1) (by omega)).1 rfl
    exact hno k (by omega) hP

/-- Weak fairness: what stays enabled is done. -/
def WeaklyFair (f : σ → α → Option σ) (s : σ) (sched : ℕ → α) (Enabled : σ → Prop)
    (Does : α → Prop) : Prop :=
  ∀ n, (∀ m ≥ n, Enabled (play f s sched m)) →
    ∃ m ≥ n, Does (sched m) ∧ (f (play f s sched m) (sched m)).isSome

/-- **The progress rule for several parties.** Until `P` holds, one party is helpful: it is enabled,
its step lowers the rank, and any other step lowers the rank too or leaves the party helpful. If
every party is treated fairly, `P` comes to hold. -/
theorem eventually_of_helpful {ι : Type*} [PartialOrder ρ] [WellFoundedLT ρ] {Inv : σ → Prop}
    (P : σ → Prop) (rank : σ → ρ) (helpful : σ → ι) (Enabled : ι → σ → Prop)
    (Does : ι → α → Prop) (keep : ∀ s a t, Inv s → ¬ P s → f s a = some t → Inv t)
    (enabled : ∀ s, Inv s → ¬ P s → Enabled (helpful s) s)
    (stay : ∀ s a t, Inv s → ¬ P s → f s a = some t →
      P t ∨ rank t < rank s ∨ rank t = rank s ∧ helpful t = helpful s)
    (down : ∀ s a t, Inv s → ¬ P s → Does (helpful s) a → f s a = some t →
      P t ∨ rank t < rank s)
    (fair : ∀ i, WeaklyFair f s sched (Enabled i) (Does i)) {n : ℕ}
    (h : Inv (play f s sched n)) : ∃ m ≥ n, P (play f s sched m) := by
  induction hr : rank (play f s sched n) using WellFoundedLT.induction generalizing n with
  | ind r ih =>
    subst hr
    by_contra hnot
    have hno : ∀ m ≥ n, ¬ P (play f s sched m) := fun m hm hP => hnot ⟨m, hm, hP⟩
    -- no lower rank is reached, by the induction hypothesis
    have hlow : ∀ m ≥ n, Inv (play f s sched m) →
        ¬ rank (play f s sched m) < rank (play f s sched n) := by
      intro m hm hInv hlt
      obtain ⟨k, hk, hP⟩ := ih _ hlt hInv rfl
      exact hno k (hm.trans hk) hP
    have hsame : ∀ m ≥ n, Inv (play f s sched m) ∧
        rank (play f s sched m) = rank (play f s sched n) ∧
        helpful (play f s sched m) = helpful (play f s sched n) := by
      intro m hm
      induction m, hm using Nat.le_induction with
      | base => exact ⟨h, rfl, rfl⟩
      | succ m hm ihm =>
        obtain ⟨hInv, hrank, hhelp⟩ := ihm
        rcases hstep : f (play f s sched m) (sched m) with _ | t
        · rw [play_succ_of_none hstep]
          exact ⟨hInv, hrank, hhelp⟩
        · have ht := play_succ_of_some hstep
          have hInv' := keep _ _ _ hInv (hno m hm) hstep
          rcases stay _ _ _ hInv (hno m hm) hstep with hP | hlt | ⟨heq, hh⟩
          · exact absurd (ht ▸ hP) (hno (m + 1) (by omega))
          · rw [hrank] at hlt
            exact absurd (ht ▸ hlt) (hlow (m + 1) (by omega) (ht ▸ hInv'))
          · rw [ht]
            exact ⟨hInv', heq.trans hrank, hh.trans hhelp⟩
    obtain ⟨m, hm, hdoes, hsome⟩ := fair (helpful (play f s sched n)) n fun m hm => by
      obtain ⟨hInv, -, hhelp⟩ := hsame m hm
      exact hhelp ▸ enabled _ hInv (hno m hm)
    obtain ⟨t, ht⟩ := Option.isSome_iff_exists.mp hsome
    obtain ⟨hInv, hrank, hhelp⟩ := hsame m hm
    have hnext := play_succ_of_some ht
    have hlt := (down _ _ _ hInv (hno m hm) (hhelp ▸ hdoes) ht).resolve_left
      (hnext ▸ hno (m + 1) (by omega))
    rw [hrank] at hlt
    exact hlow (m + 1) (by omega) (hnext ▸ keep _ _ _ hInv (hno m hm) ht) (hnext ▸ hlt)

end Reactor.Lib.Schedule
