import Reactor.Lib.Infix

/-!
Texts made of a head and a body: lines that each end in a pair of elements, an empty line behind
them, and whatever follows.

A text of this form is taken apart again as it was put together, and a part of it that has arrived
is either not a whole head yet or the same head with a part of the body.
-/

namespace Reactor.Lib.HeadBody

open Lib.Infix

variable {α : Type*} {a b : α} {lines : List (List α)} {body : List α}

/-- Lines, an empty line and a body. -/
def join (a b : α) (lines : List (List α)) (body : List α) : List α :=
  lines.flatMap (· ++ [a, b]) ++ [a, b] ++ body

/-- A line that is not empty and does not end early. -/
def Line (a b : α) (l : List α) : Prop := l ≠ [] ∧ ¬ [a, b] <:+: l

lemma join_nil (body : List α) : join a b [] body = [a, b] ++ body := rfl

lemma join_cons (l : List α) (lines : List (List α)) (body : List α) :
    join a b (l :: lines) body = l ++ [a, b] ++ join a b lines body := by
  simp [join]

lemma length_lines_lt : lines.length < (join a b lines body).length := by
  induction lines with
  | nil => simp [join]
  | cons l lines ih =>
      rw [join_cons]
      simp only [List.length_append, List.length_cons, List.length_nil]
      omega

/-- A start of a line, its end and more that has no whole end in it. -/
lemma not_infix_of_isPrefix (hab : a ≠ b) {p l s : List α} (hl : ¬ [a, b] <:+: l)
    (hp : p <+: l ++ [a, b] ++ s) (hlt : p.length < l.length + 2) : ¬ [a, b] <:+: p := by
  have hshort : p <+: l ++ [a] := by
    have hlong : l ++ [a] <+: l ++ [a, b] ++ s := ⟨b :: s, by simp⟩
    refine List.prefix_of_prefix_length_le hp hlong ?_
    simp only [List.length_append, List.length_singleton]
    omega
  intro hi
  rcases List.infix_concat_iff.mp (hi.trans hshort.isInfix) with hsuf | hi
  · have hlast := List.IsSuffix.getLast hsuf (by simp)
    simp only [List.getLast_append_singleton, List.getLast_cons_cons, List.getLast_singleton]
      at hlast
    exact hab hlast.symm
  · exact hl hi

section

variable [BEq α]

/-- The lines up to the first empty one, and what is behind that, if it comes within a number of
lines. -/
def splitWithin (a b : α) : ℕ → List α → Option (List (List α) × List α)
  | 0, _ => none
  | n + 1, s =>
    match s.dropInfix? [a, b] with
    | none => none
    | some ([], body) => some ([], body)
    | some (l, rest) => (splitWithin a b n rest).map fun (lines, body) => (l :: lines, body)

/-- A text taken apart. No more lines end in it than it is long. -/
def split (a b : α) (s : List α) : Option (List (List α) × List α) :=
  splitWithin a b s.length s

lemma splitWithin_cons {n : ℕ} {l rest s : List α} (hl : l ≠ [])
    (h : s.dropInfix? [a, b] = some (l, rest)) :
    splitWithin a b (n + 1) s =
      (splitWithin a b n rest).map fun (lines, body) => (l :: lines, body) := by
  obtain ⟨x, l, rfl⟩ := List.exists_cons_of_ne_nil hl
  rw [splitWithin, h]

end

variable [BEq α] [LawfulBEq α] (hab : a ≠ b)
include hab

lemma splitWithin_join {n : ℕ} (hlines : ∀ l ∈ lines, Line a b l) (hn : lines.length < n) :
    splitWithin a b n (join a b lines body) = some (lines, body) := by
  induction lines generalizing n with
  | nil =>
      obtain ⟨n, rfl⟩ := Nat.exists_eq_succ_of_ne_zero (Nat.ne_zero_of_lt hn)
      have hcut : (join a b [] body).dropInfix? [a, b] = some ([], body) := by
        rw [join_nil, ← List.nil_append ([a, b] ++ body), ← List.append_assoc]
        exact dropInfix_pair (by simp) hab
      rw [splitWithin, hcut]
  | cons l lines ih =>
      obtain ⟨n, rfl⟩ := Nat.exists_eq_succ_of_ne_zero (Nat.ne_zero_of_lt hn)
      obtain ⟨hl, hlines⟩ := List.forall_mem_cons.mp hlines
      have hcut := dropInfix_pair (s := join a b lines body) hl.2 hab
      rw [← join_cons] at hcut
      rw [splitWithin_cons hl.1 hcut, ih hlines (Nat.lt_of_succ_lt_succ hn)]
      rfl

/-- **Round trip.** -/
theorem split_join (hlines : ∀ l ∈ lines, Line a b l) :
    split a b (join a b lines body) = some (lines, body) :=
  splitWithin_join hab hlines length_lines_lt

lemma splitWithin_prefix {p : List α} (hlines : ∀ l ∈ lines, Line a b l)
    (hp : p <+: join a b lines body) (n : ℕ) :
    splitWithin a b n p = none ∨ ∃ part, part <+: body ∧ p = join a b lines part := by
  induction lines generalizing p n with
  | nil =>
      rcases Nat.lt_or_ge p.length 2 with hlt | hge
      · left
        cases n with
        | zero => rfl
        | succ n =>
            have hnone : p.dropInfix? [a, b] = none :=
              dropInfix_eq_none_iff.mpr (not_infix_of_isPrefix hab (l := []) (by simp) hp hlt)
            rw [splitWithin, hnone]
      · right
        obtain ⟨part, rfl⟩ : [a, b] <+: p :=
          List.prefix_of_prefix_length_le (List.prefix_append _ _) hp hge
        exact ⟨part, (List.prefix_append_right_inj _).mp hp, rfl⟩
  | cons l lines ih =>
      obtain ⟨hl, hlines⟩ := List.forall_mem_cons.mp hlines
      rw [join_cons] at hp
      rcases Nat.lt_or_ge p.length (l.length + 2) with hlt | hge
      · left
        cases n with
        | zero => rfl
        | succ n =>
            have hnone : p.dropInfix? [a, b] = none :=
              dropInfix_eq_none_iff.mpr (not_infix_of_isPrefix hab hl.2 hp hlt)
            rw [splitWithin, hnone]
      · obtain ⟨p', rfl⟩ : l ++ [a, b] <+: p :=
          List.prefix_of_prefix_length_le (List.prefix_append _ _) hp (by simpa)
        have hcut := dropInfix_pair (s := p') hl.2 hab
        cases n with
        | zero => exact Or.inl rfl
        | succ n =>
            rw [splitWithin_cons hl.1 hcut]
            have hp' := (List.prefix_append_right_inj _).mp hp
            rcases ih hlines hp' n with hnone | ⟨part, hpart, rfl⟩
            · left
              rw [hnone]
              rfl
            · exact Or.inr ⟨part, hpart, (join_cons _ _ _).symm⟩

/-- **A part that has arrived** is not a whole head yet, or is the head with a part of the
body. -/
theorem split_prefix {p : List α} (hlines : ∀ l ∈ lines, Line a b l)
    (hp : p <+: join a b lines body) :
    split a b p = none ∨ ∃ part, part <+: body ∧ p = join a b lines part :=
  splitWithin_prefix hab hlines hp p.length

end Reactor.Lib.HeadBody
