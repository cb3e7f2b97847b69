import Mathlib.Data.Int.CardIntervalMod
import Mathlib.Tactic

/-!
Taking turns: the `k`-th of a sequence of jobs goes to the place `k % n`. No place is ahead of
another by more than one job.
-/

namespace Reactor.Lib.Rotation

variable {n k i j : ℕ}

/-- The turn after `k` jobs, and the next one: an index that starts again at `n`. -/
lemma wrap_eq (hn : 0 < n) : (if k % n + 1 ≥ n then 0 else k % n + 1) = (k + 1) % n := by
  have hlt := Nat.mod_lt k hn
  rw [← Nat.mod_add_mod]
  split_ifs with h
  · have hk : k % n + 1 = n := by omega
    rw [hk, Nat.mod_self]
  · exact (Nat.mod_eq_of_lt (by omega)).symm

/-- How many of the first `m` jobs the place `i` has had. -/
def share (n m i : ℕ) : ℕ := m.count fun k => k % n = i

end Reactor.Lib.Rotation
