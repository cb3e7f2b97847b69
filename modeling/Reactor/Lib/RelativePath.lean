import Mathlib.Data.List.Basic
import Mathlib.Data.List.Count
import Mathlib.Tactic

/-!
Paths that are resolved component by component, and those that never leave the directory they start
in.
-/

namespace Reactor.Lib.RelativePath

/-- What is between the slashes. -/
def components (path : List UInt8) : List (List UInt8) := path.splitOn 47

/-- The component that leads up. -/
def up : List UInt8 := [46, 46]

/-- A component that leads down. -/
def Ordinary (c : List UInt8) : Prop := c ≠ [] ∧ c ≠ [46] ∧ c ≠ up

instance (c : List UInt8) : Decidable (Ordinary c) := inferInstanceAs (Decidable (_ ∧ _ ∧ _))

/-- The path is relative, and none of its prefixes leads up more often than down. -/
def Stays (path : List UInt8) : Prop :=
  path.head? ≠ some 47 ∧ ∀ cs, cs <+: components path → cs.count up ≤ cs.countP Ordinary

/-! ### One component after the other -/

/-- The depth that a component leads to, unless it leaves the directory. -/
def enter (depth : ℕ) (c : List UInt8) : Option ℕ :=
  if c = up then (if depth = 0 then none else some (depth - 1))
  else if Ordinary c then some (depth + 1)
  else some depth

/-- The components, from a depth on, never leave the directory. -/
def Descends (depth : ℕ) : List (List UInt8) → Prop
  | [] => True
  | c :: cs => ∃ d, enter depth c = some d ∧ Descends d cs

lemma enter_eq_some {depth d : ℕ} {c : List UInt8} :
    enter depth c = some d ↔ d + [c].count up = depth + [c].countP Ordinary := by
  have hup : [c].count up = if c = up then 1 else 0 := by
    simp [List.count_singleton]
  have hdown : [c].countP Ordinary = if Ordinary c then 1 else 0 := by
    simp [List.countP_singleton]
  rw [hup, hdown, enter]
  split_ifs with hc hd hord hord hord
  · exact absurd hc hord.2.2
  · simp only [false_iff]
    omega
  · exact absurd hc hord.2.2
  · rw [Option.some_inj]
    omega
  · rw [Option.some_inj]
    omega
  · rw [Option.some_inj]
    omega

lemma descends_iff {depth : ℕ} {cs : List (List UInt8)} :
    Descends depth cs ↔ ∀ p, p <+: cs → p.count up ≤ depth + p.countP Ordinary := by
  induction cs generalizing depth with
  | nil =>
      refine iff_of_true trivial fun p hp => ?_
      rw [List.prefix_nil.mp hp]
      exact Nat.zero_le _
  | cons c cs ih =>
      have hcount : ∀ p, (c :: p).count up = [c].count up + p.count up := fun p =>
        (List.count_append : ([c] ++ p).count up = _)
      have hcountP : ∀ p, (c :: p).countP Ordinary = [c].countP Ordinary + p.countP Ordinary :=
        fun p => (List.countP_append : ([c] ++ p).countP Ordinary = _)
      constructor
      · rintro ⟨d, hd, hcs⟩ p hp
        rw [enter_eq_some] at hd
        rcases List.prefix_cons_iff.mp hp with rfl | ⟨t, rfl, ht⟩
        · exact Nat.zero_le _
        · have := ih.mp hcs t ht
          rw [hcount, hcountP]
          omega
      · intro h
        have hone := h [c] (List.prefix_cons_iff.mpr (Or.inr ⟨[], rfl, List.nil_prefix⟩))
        refine ⟨depth + [c].countP Ordinary - [c].count up, enter_eq_some.mpr (by omega),
          ih.mpr fun p hp => ?_⟩
        have := h (c :: p) (List.prefix_cons_iff.mpr (Or.inr ⟨p, rfl, hp⟩))
        rw [hcount, hcountP] at this
        omega

/-! ### One byte after the other -/

/-- What a component is, as far as it has been read. -/
inductive Part
  | empty
  | dot
  | dots
  | name
  deriving DecidableEq

def part (c : List UInt8) : Part :=
  if c = [] then .empty else if c = [46] then .dot else if c = up then .dots else .name

namespace Part

/-- The component with one more byte. -/
def step (c : UInt8) : Part → Part
  | empty => if c = 46 then dot else name
  | dot => if c = 46 then dots else name
  | _ => name

def enter (depth : ℕ) : Part → Option ℕ
  | dots => if depth = 0 then none else some (depth - 1)
  | name => some (depth + 1)
  | _ => some depth

end Part

lemma part_concat (cur : List UInt8) (c : UInt8) : part (cur ++ [c]) = (part cur).step c := by
  rcases cur with _ | ⟨a, _ | ⟨b, t⟩⟩
  · simp [part, up, Part.step]
  · by_cases ha : a = 46 <;> simp [part, up, Part.step, ha]
  · -- with three bytes it can only be a name
    have hlong : part (a :: b :: t ++ [c]) = .name := by simp [part, up]
    rw [hlong, part, if_neg (by simp), if_neg (by simp)]
    split_ifs <;> rfl

lemma enter_part (depth : ℕ) (c : List UInt8) : (part c).enter depth = enter depth c := by
  unfold part enter
  by_cases hempty : c = []
  · subst hempty
    rfl
  by_cases hdot : c = [46]
  · subst hdot
    rfl
  by_cases hup : c = up
  · rw [if_neg hempty, if_neg hdot, if_pos hup, if_pos hup]
    rfl
  · rw [if_neg hempty, if_neg hdot, if_neg hup, if_neg hup, if_pos ⟨hempty, hdot, hup⟩]
    rfl

/-- The path, from a depth and what has been read of a component on, never leaves the directory. -/
def walk : ℕ → Part → List UInt8 → Bool
  | depth, p, [] => (p.enter depth).isSome
  | depth, p, c :: s =>
    if c = 47 then
      match p.enter depth with
      | none => false
      | some d => walk d .empty s
    else walk depth (p.step c) s

lemma components_cons (c : UInt8) (s : List UInt8) : components (c :: s) =
    if c = 47 then [] :: components s else (components s).modifyHead (c :: ·) := by
  rw [components, List.splitOn, List.splitOnP_cons_eq_if_modifyHead]
  simp only [beq_iff_eq]
  rfl

lemma modifyHead_nil_append (cs : List (List UInt8)) : cs.modifyHead ([] ++ ·) = cs := by
  cases cs <;> rfl

lemma walk_iff {depth : ℕ} {cur s : List UInt8} :
    walk depth (part cur) s ↔ Descends depth ((components s).modifyHead (cur ++ ·)) := by
  induction s generalizing depth cur with
  | nil =>
      have hnil : (components []).modifyHead (cur ++ ·) = [cur] := by
        simp [components]
      rw [walk, enter_part, hnil, Option.isSome_iff_exists]
      simp only [Descends, and_true]
  | cons c s ih =>
      rw [walk, components_cons, enter_part]
      split_ifs with hc
      · -- the component ends here
        rw [List.modifyHead_cons, List.append_nil, Descends]
        have hrest : ∀ d, walk d .empty s ↔ Descends d (components s) := by
          intro d
          have hstart : walk d (part []) s ↔ _ := ih
          rwa [modifyHead_nil_append] at hstart
        cases enter depth cur with
        | none => simp
        | some d => simpa using hrest d
      · rw [← part_concat, ih, List.modifyHead_modifyHead]
        simp [Function.comp_def]

/-- **A path that never leaves the directory**, byte by byte. -/
theorem stays_iff_walk {path : List UInt8} :
    Stays path ↔ path.head? ≠ some 47 ∧ walk 0 .empty path := by
  have hwalk : walk 0 (part []) path ↔ _ := walk_iff
  rw [modifyHead_nil_append, descends_iff] at hwalk
  simp only [Nat.zero_add] at hwalk
  exact and_congr_right fun _ => hwalk.symm

end Reactor.Lib.RelativePath
