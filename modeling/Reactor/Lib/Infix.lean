import Mathlib.Data.List.Basic
import Mathlib.Data.List.Infix
import Mathlib.Tactic

/-!
The first occurrence of one list in another, as a position: what a substring search answers.

`List.dropInfix?` cuts a list at the first occurrence. The lemmas give the position when the
list is known in pieces, and the pieces when the position is known.
-/

namespace Reactor.Lib.Infix

variable {α : Type*} [BEq α] [LawfulBEq α]

/-- The position of the first occurrence of `i` in `l`. -/
def find (l i : List α) : Option ℕ := (l.dropInfix? i).map fun r => r.1.length

lemma find_eq_some {l i : List α} {n : ℕ} :
    find l i = some n ↔ ∃ p s, l = p ++ i ++ s ∧ p.length = n ∧
      ∀ p' s', l = p' ++ i ++ s' → n ≤ p'.length := by
  simp only [find, Option.map_eq_some_iff, Prod.exists, List.dropInfix?_eq_some_iff, beq_iff_eq]
  constructor
  · rintro ⟨p, s, ⟨⟨i', hl, rfl⟩, hfirst⟩, rfl⟩
    exact ⟨p, s, hl, rfl, fun p' s' hl' => hfirst p' i' s' hl' rfl⟩
  · rintro ⟨p, s, hl, rfl, hfirst⟩
    exact ⟨p, s, ⟨⟨i, hl, rfl⟩, fun p' i' s' hl' hi => hfirst p' s' (hi ▸ hl')⟩, rfl⟩

/-- The pieces around a first occurrence. -/
lemma eq_of_find {l i : List α} {n : ℕ} (h : find l i = some n) :
    l = l.take n ++ i ++ l.drop (n + i.length) := by
  obtain ⟨p, s, rfl, rfl, -⟩ := find_eq_some.mp h
  simp

/-- The cut that `List.dropInfix?` makes is the one at the first occurrence. -/
lemma dropInfix_of_find {l i : List α} {n : ℕ} (h : find l i = some n) :
    l.dropInfix? i = some (l.take n, l.drop (n + i.length)) := by
  obtain ⟨⟨p, s⟩, hd, rfl⟩ := Option.map_eq_some_iff.mp h
  obtain ⟨⟨i', hl, hi⟩, -⟩ := List.dropInfix?_eq_some_iff.mp hd
  obtain rfl := eq_of_beq hi
  rw [hd]
  simp [hl]

omit [LawfulBEq α] in
lemma dropInfix_of_find_none {l i : List α} (h : find l i = none) : l.dropInfix? i = none :=
  Option.map_eq_none_iff.mp h

/-- The two pieces of a cut, as positions of the list. -/
lemma eq_of_dropInfix {l i p s : List α} (h : l.dropInfix? i = some (p, s)) :
    p = l.take p.length ∧ s = l.drop (p.length + i.length) ∧
      p.length + i.length ≤ l.length := by
  obtain ⟨⟨i', rfl, hi⟩, -⟩ := List.dropInfix?_eq_some_iff.mp h
  obtain rfl := eq_of_beq hi
  simp

/-- An occurrence lies within the list. -/
lemma find_le {l i : List α} {n : ℕ} (h : find l i = some n) : n + i.length ≤ l.length := by
  obtain ⟨p, s, rfl, rfl, -⟩ := find_eq_some.mp h
  simp only [List.length_append]
  omega

lemma find_eq_none {l i : List α} : find l i = none ↔ ¬ i <:+: l := by
  refine ⟨fun h hi => ?_, fun h => ?_⟩
  · -- the shortest of the lists in front of an occurrence
    classical
    have hex : ∃ n, ∃ p s, l = p ++ i ++ s ∧ p.length = n := by
      obtain ⟨p, s, hps⟩ := hi
      exact ⟨_, p, s, hps.symm, rfl⟩
    obtain ⟨p, s, hl, hp⟩ := Nat.find_spec hex
    have hs : find l i = some (Nat.find hex) :=
      find_eq_some.mpr ⟨p, s, hl, hp, fun p' s' hl' => Nat.find_min' hex ⟨p', s', hl', rfl⟩⟩
    simp [hs] at h
  · rcases hf : find l i with _ | n
    · rfl
    · exact absurd ⟨_, _, (eq_of_find hf).symm⟩ h

lemma dropInfix_eq_none_iff {l i : List α} : l.dropInfix? i = none ↔ ¬ i <:+: l := by
  rw [← find_eq_none, find, Option.map_eq_none_iff]

lemma exists_dropInfix_iff {l i : List α} :
    (∃ p s, l.dropInfix? i = some (p, s)) ↔ i <:+: l := by
  rw [← not_iff_not, ← dropInfix_eq_none_iff, Option.eq_none_iff_forall_ne_some]
  simp only [not_exists, Prod.forall, ne_eq]

/-- **The position of the first occurrence.** If `i` occurs behind `p` and begins nowhere
in `p`, that is where it is found. -/
theorem find_append {p i s : List α} (h : ¬ i <:+: p ++ i.dropLast) (hi : i ≠ []) :
    find (p ++ i ++ s) i = some p.length := by
  rcases hf : find (p ++ i ++ s) i with _ | n
  · exact absurd ⟨p, s, rfl⟩ (find_eq_none.mp hf)
  have hpos : 0 < i.length := List.length_pos_iff.mpr hi
  obtain ⟨p', s', hl, rfl, hfirst⟩ := find_eq_some.mp hf
  have hle : p'.length ≤ p.length := hfirst p s rfl
  rcases hle.lt_or_eq with hlt | heq
  · -- an occurrence that begins in `p` ends before the last element of `i`
    refine absurd ?_ h
    have hpos : 0 < i.length := List.length_pos_iff.mpr hi
    have hocc : p' ++ i <+: p ++ i ++ s := ⟨s', hl.symm⟩
    have hpre : p ++ i.dropLast <+: p ++ i ++ s :=
      ((List.prefix_append_right_inj p).mpr (List.dropLast_prefix i)).trans
        (List.prefix_append _ s)
    have hin : p' ++ i <+: p ++ i.dropLast := by
      refine List.prefix_of_prefix_length_le hocc hpre ?_
      simp only [List.length_append, List.length_dropLast]
      omega
    exact (List.suffix_append p' i).isInfix.trans hin.isInfix
  · rw [heq]

/-- What is found stays where it is when the list goes on. -/
lemma find_append_of_eq_some {l i : List α} {n : ℕ} (h : find l i = some n) (s : List α) :
    find (l ++ s) i = some n := by
  obtain ⟨p, t, hl, hp, hfirst⟩ := find_eq_some.mp h
  refine find_eq_some.mpr ⟨p, t ++ s, by simp [hl], hp, fun p' s' hs' => ?_⟩
  by_contra hlt
  have hle : (p' ++ i).length ≤ l.length := by
    simp only [hl, List.length_append]
    omega
  have hocc : p' ++ i <+: l :=
    List.prefix_of_prefix_length_le ⟨s', hs'.symm⟩ (List.prefix_append l s) hle
  obtain ⟨t', ht'⟩ := hocc
  exact hlt (hfirst p' t' ht'.symm)

/-! ### One element, and two -/

lemma find_singleton {p s : List α} {a : α} (h : a ∉ p) :
    find (p ++ a :: s) [a] = some p.length := by
  have := find_append (p := p) (i := [a]) (s := s) (by simpa [List.singleton_infix_iff] using h)
    (by simp)
  simpa using this

/-- The parts on both sides of a separator that is not in the first are determined. -/
lemma append_cons_inj {p p' s s' : List α} {a : α} (h : a ∉ p) (h' : a ∉ p') :
    p ++ a :: s = p' ++ a :: s' ↔ p = p' ∧ s = s' := by
  refine ⟨fun heq => ?_, fun heq => by rw [heq.1, heq.2]⟩
  have hlen : p.length = p'.length :=
    Option.some.inj ((find_singleton (s := s) h).symm.trans (heq ▸ find_singleton h'))
  obtain ⟨hp, hs⟩ := List.append_inj heq hlen
  exact ⟨hp, (List.cons.inj hs).2⟩

/-- A pair whose second element differs from its first is found where it first stands. -/
lemma find_pair {p s : List α} {a b : α} (h : ¬ [a, b] <:+: p) (hab : a ≠ b) :
    find (p ++ a :: b :: s) [a, b] = some p.length := by
  have hinf : ¬ [a, b] <:+: p ++ [a] := by
    intro hi
    rcases List.infix_concat_iff.mp hi with hsuf | hi
    · have := List.IsSuffix.getLast hsuf (by simp)
      simp at this
      exact hab this.symm
    · exact h hi
  have := find_append (p := p) (i := [a, b]) (s := s) (by simpa using hinf) (by simp)
  simpa using this

/-- A list cut at a pair. -/
lemma dropInfix_pair {p s : List α} {a b : α} (h : ¬ [a, b] <:+: p) (hab : a ≠ b) :
    (p ++ [a, b] ++ s).dropInfix? [a, b] = some (p, s) := by
  have hf := dropInfix_of_find (find_pair (s := s) h hab)
  simpa [← List.drop_drop] using hf

/-- A text laid over another, with something behind, is what the two are in a row exactly if it is
how the other starts and how what is behind starts. -/
lemma overlay_eq_iff {β : Type*} {first second tmp : List β} (hle : second.length ≤ first.length) :
    second ++ first.drop second.length ++ tmp.take second.length = first ++ second ↔
      second <+: first ∧ second <+: tmp := by
  have hlen : (second ++ first.drop second.length).length = first.length := by
    rw [List.length_append, List.length_drop]
    omega
  constructor
  · intro h
    obtain ⟨hover, htmp⟩ := List.append_inj h hlen
    exact ⟨⟨_, hover⟩, htmp ▸ List.take_prefix _ _⟩
  · rintro ⟨⟨rest, rfl⟩, ⟨rest', rfl⟩⟩
    rw [List.drop_left, List.take_left]

end Reactor.Lib.Infix
