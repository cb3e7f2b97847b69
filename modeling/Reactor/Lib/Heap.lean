import Mathlib.Logic.Function.Basic
import Mathlib.Tactic

/-!
A memory as a partial map from addresses to values, and the strings found in it.

An address without a value is not allocated. A read of `n` values answers `none` when one of
them is not there.
-/

namespace Reactor.Lib.Heap

variable {α : Type*}

/-- Reads `n` values from the address `p` on. -/
def read (h : ℕ → Option α) (p : ℕ) : ℕ → Option (List α)
  | 0 => some []
  | n + 1 =>
    match h p, read h (p + 1) n with
    | some x, some xs => some (x :: xs)
    | _, _ => none

/-- **What a read finds**: the values of the addresses read, one by one. -/
theorem read_eq_some_iff {h : ℕ → Option α} {p n : ℕ} {xs : List α} :
    read h p n = some xs ↔ xs.length = n ∧ ∀ k < n, h (p + k) = xs[k]? := by
  induction n generalizing p xs with
  | zero =>
      cases xs <;> simp [read]
  | succ n ih =>
      have hshift : ∀ k, p + 1 + k = p + (k + 1) := fun k => by omega
      constructor
      · intro hr
        unfold read at hr
        split at hr
        · rename_i x ys hx hys
          obtain rfl := Option.some.inj hr
          obtain ⟨hlen, hval⟩ := ih.mp hys
          refine ⟨by simp [hlen], fun k hk => ?_⟩
          cases k with
          | zero => simpa using hx
          | succ k => simpa [hshift] using hval k (by omega)
        · cases hr
      · rintro ⟨hlen, hval⟩
        cases xs with
        | nil => cases hlen
        | cons x xs =>
            have hx : h p = some x := by simpa using hval 0 (by omega)
            have hxs : read h (p + 1) n = some xs := by
              refine ih.mpr ⟨by simpa using hlen, fun k hk => ?_⟩
              simpa [hshift] using hval (k + 1) (by omega)
            simp [read, hx, hxs]

/-- The address `i` is one of the `n` addresses from `p` on. -/
def Covers (p n i : ℕ) : Prop := p ≤ i ∧ i < p + n

instance (p n i : ℕ) : Decidable (Covers p n i) := inferInstanceAs (Decidable (_ ∧ _))

/-- A read is not concerned by what happens at other addresses. -/
theorem read_update_of_not_covers {h : ℕ → Option α} {p n i : ℕ} (v : Option α)
    (hi : ¬ Covers p n i) : read (Function.update h i v) p n = read h p n := by
  refine Option.ext fun xs => ?_
  rw [read_eq_some_iff, read_eq_some_iff]
  refine and_congr_right fun _ => forall₂_congr fun k hk => ?_
  rw [Function.update_of_ne]
  rintro rfl
  exact hi ⟨by omega, by omega⟩

/-- **A read sees a change**: after an address it covers has got another value, it does not
find what it found before. -/
theorem read_update_ne {h : ℕ → Option α} {p n i : ℕ} {v : Option α} {xs : List α}
    (hr : read h p n = some xs) (hi : Covers p n i) (hv : h i ≠ v) :
    read (Function.update h i v) p n ≠ some xs := by
  obtain ⟨k, rfl⟩ : ∃ k, i = p + k := ⟨i - p, by have := hi.1; omega⟩
  have hk : k < n := by have := hi.2; omega
  intro hr'
  have hnew := (read_eq_some_iff.mp hr').2 k hk
  rw [Function.update_self] at hnew
  exact hv ((read_eq_some_iff.mp hr).2 k hk ▸ hnew.symm)

end Reactor.Lib.Heap
