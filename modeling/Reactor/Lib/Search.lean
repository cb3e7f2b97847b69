import Mathlib.Data.List.Basic

/-!
The first element of a list with some property, and when two searches of one list agree.
-/

namespace Reactor.Lib.Search

variable {α β : Type*}

/-- `a` is the first in the list that `p` holds of. -/
def First (p : α → Prop) (l : List α) (a : α) : Prop :=
  ∃ before after, l = before ++ a :: after ∧ p a ∧ ∀ x ∈ before, ¬ p x

variable {p p' : α → Prop} [DecidablePred p] [DecidablePred p'] {l : List α} (f : α → β)

lemma find_eq_some_iff_first {a : α} : l.find? (fun x => p x) = some a ↔ First p l a := by
  rw [List.find?_eq_some_iff_append, First]
  simp only [decide_eq_true_eq, Bool.not_eq_true', decide_eq_false_iff_not]
  constructor
  · rintro ⟨ha, before, after, hl, hbefore⟩
    exact ⟨before, after, hl, ha, hbefore⟩
  · rintro ⟨before, after, hl, ha, hbefore⟩
    exact ⟨ha, before, after, hl, hbefore⟩

/-- Two searches give the same, if both find nothing or what they find is mapped to the same. -/
lemma map_find_eq_iff :
    (l.find? fun x => p x).map f = (l.find? fun x => p' x).map f ↔
      (∀ a ∈ l, ¬ p a ∧ ¬ p' a) ∨ ∃ a a', First p l a ∧ First p' l a' ∧ f a = f a' := by
  constructor
  · intro h
    rcases hp : l.find? fun x => p x with _ | a
    · rw [hp, Option.map_none, eq_comm, Option.map_eq_none_iff] at h
      refine Or.inl fun a ha => ⟨?_, ?_⟩
      · simpa using List.find?_eq_none.mp hp a ha
      · simpa using List.find?_eq_none.mp h a ha
    · rw [hp, Option.map_some, eq_comm, Option.map_eq_some_iff] at h
      obtain ⟨a', hp', hf⟩ := h
      exact Or.inr ⟨a, a', find_eq_some_iff_first.mp hp, find_eq_some_iff_first.mp hp', hf.symm⟩
  · rintro (hnone | ⟨a, a', ha, ha', hf⟩)
    · have hp : l.find? (fun x => p x) = none :=
        List.find?_eq_none.mpr fun a ha => by simpa using (hnone a ha).1
      have hp' : l.find? (fun x => p' x) = none :=
        List.find?_eq_none.mpr fun a ha => by simpa using (hnone a ha).2
      rw [hp, hp']
    · rw [find_eq_some_iff_first.mpr ha, find_eq_some_iff_first.mpr ha', Option.map_some,
        Option.map_some, hf]

end Reactor.Lib.Search
