import Mathlib.Data.List.Basic
import Mathlib.Tactic

/-!
A block of memory as a list of cells, with the copies a program makes into it.

Copies go cell by cell from the lowest address up, as `std::copy` does, and answer `none`
when they would touch a cell outside the block. A copy to a lower address that overlaps its
source is read correctly, because a cell is read before it is overwritten.
-/

namespace Reactor.Lib.Memory

variable {α : Type*}

/-- Writes `xs` to the cells from `dst` on. -/
def store (mem : List α) (dst : ℕ) : List α → Option (List α)
  | [] => some mem
  | x :: xs => if dst < mem.length then store (mem.set dst x) (dst + 1) xs else none

/-- Copies `n` cells of the block from `src` on to the cells from `dst` on. -/
def copyFwd (mem : List α) (src dst : ℕ) : ℕ → Option (List α)
  | 0 => some mem
  | n + 1 =>
    match mem[src]? with
    | none => none
    | some x => if dst < mem.length then copyFwd (mem.set dst x) (src + 1) (dst + 1) n else none

/-- Reads `n` cells from `src` on. -/
def load (mem : List α) (src n : ℕ) : Option (List α) :=
  if src + n ≤ mem.length then some ((mem.drop src).take n) else none

/-- Copies `n` cells from `src` on to the cells from `dst` on, which may be among them. -/
def memmove (mem : List α) (dst src n : ℕ) : Option (List α) := do
  let xs ← load mem src n
  store mem dst xs

/-- The `n` cells from `dst` on and the `n` cells from `src` on have none in common. -/
def Apart (dst src n : ℕ) : Prop := dst + n ≤ src ∨ src + n ≤ dst

instance (dst src n : ℕ) : Decidable (Apart dst src n) := inferInstanceAs (Decidable (_ ∨ _))

/-- `memmove`, but undefined where the two ranges overlap. -/
def memcpy (mem : List α) (dst src n : ℕ) : Option (List α) :=
  if Apart dst src n then memmove mem dst src n else none

/-- Makes the block `n` cells long, cutting it or filling it up with `x`. -/
def resize (mem : List α) (n : ℕ) (x : α) : List α :=
  mem.take n ++ List.replicate (n - mem.length) x

@[simp] lemma length_resize (mem : List α) (n : ℕ) (x : α) : (resize mem n x).length = n := by
  simp [resize]; omega

lemma resize_of_le {mem : List α} {n : ℕ} (x : α) (h : mem.length ≤ n) :
    resize mem n x = mem ++ List.replicate (n - mem.length) x := by
  rw [resize, List.take_of_length_le h]

lemma load_eq {mem : List α} {src n : ℕ} (h : src + n ≤ mem.length) :
    load mem src n = some ((mem.drop src).take n) := by
  simp [load, h]

lemma take_succ_set {mem : List α} {i : ℕ} (x : α) (h : i < mem.length) :
    (mem.set i x).take (i + 1) = mem.take i ++ [x] := by
  rw [List.take_add_one, List.take_set_of_le (by omega)]
  simp [h]

/-- A store inside the block replaces the cells written and leaves the others. -/
theorem store_eq {mem : List α} {dst : ℕ} {xs : List α} (h : dst + xs.length ≤ mem.length) :
    store mem dst xs = some (mem.take dst ++ xs ++ mem.drop (dst + xs.length)) := by
  induction xs generalizing mem dst with
  | nil => simp [store]
  | cons x xs ih =>
      simp only [List.length_cons] at h
      have hlt : dst < mem.length := by omega
      rw [store, if_pos hlt, ih (by rw [List.length_set]; omega), take_succ_set x hlt,
        List.drop_set_of_lt (by omega)]
      simp [Nat.add_assoc, Nat.add_comm 1]

lemma memmove_eq {mem : List α} {dst src n : ℕ} (hsrc : src + n ≤ mem.length)
    (hdst : dst + n ≤ mem.length) :
    memmove mem dst src n =
      some (mem.take dst ++ (mem.drop src).take n ++ mem.drop (dst + n)) := by
  have hlen : ((mem.drop src).take n).length = n := by
    rw [List.length_take, List.length_drop]
    omega
  rw [memmove, load_eq hsrc, Option.bind_eq_bind, Option.bind_some, store_eq (by omega), hlen]

/-- A copy to a lower or equal address moves the source cells as they were at the start. -/
theorem copyFwd_eq {mem : List α} {src dst n : ℕ} (hle : dst ≤ src)
    (h : src + n ≤ mem.length) :
    copyFwd mem src dst n =
      some (mem.take dst ++ (mem.drop src).take n ++ mem.drop (dst + n)) := by
  induction n generalizing mem src dst with
  | zero => simp [copyFwd]
  | succ n ih =>
      have hsrc : src < mem.length := by omega
      have hdst : dst < mem.length := by omega
      have hcell : (mem.drop src).take (n + 1) = mem[src] :: (mem.drop (src + 1)).take n := by
        rw [List.drop_eq_getElem_cons hsrc, List.take_succ_cons]
      rw [copyFwd, List.getElem?_eq_getElem hsrc]
      simp only
      rw [if_pos hdst, ih (by omega) (by rw [List.length_set]; omega), take_succ_set _ hdst,
        List.drop_set_of_lt (by omega), List.drop_set_of_lt (by omega), hcell]
      simp [Nat.add_assoc, Nat.add_comm 1]

/-! ### The size of the block -/

lemma length_store {mem mem' : List α} {dst : ℕ} {xs : List α}
    (h : store mem dst xs = some mem') : mem'.length = mem.length := by
  induction xs generalizing mem dst with
  | nil => rw [Option.some.inj h]
  | cons x xs ih =>
      rw [store] at h
      split_ifs at h
      rw [ih h, List.length_set]

lemma length_copyFwd {mem mem' : List α} {src dst n : ℕ}
    (h : copyFwd mem src dst n = some mem') : mem'.length = mem.length := by
  induction n generalizing mem src dst with
  | zero => rw [Option.some.inj h]
  | succ n ih =>
      rw [copyFwd] at h
      split at h
      · cases h
      · split_ifs at h
        rw [ih h, List.length_set]

end Reactor.Lib.Memory
