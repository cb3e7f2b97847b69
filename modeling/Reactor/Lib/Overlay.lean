import Mathlib.Data.List.Induction
import Mathlib.Tactic

/-!
An array into which several texts are written, each from the start: at each place stands what the
last text that reaches it has there.
-/

namespace Reactor.Lib.Overlay

variable {α : Type*}

/-- The array with a text written over its start. -/
def overlay (mem text : List α) : List α := text ++ mem.drop text.length

/-- The last of the texts that reaches the place `i` has `b` there. -/
def LastAt (texts : List (List α)) (i : ℕ) (b : α) : Prop :=
  ∃ before text after, texts = before ++ text :: after ∧ text[i]? = some b ∧
    ∀ t ∈ after, t.length ≤ i

lemma getElem?_overlay_of_lt {mem text : List α} {i : ℕ} (h : i < text.length) :
    (overlay mem text)[i]? = text[i]? := List.getElem?_append_left h

lemma getElem?_overlay_of_le {mem text : List α} {i : ℕ} (h : text.length ≤ i) :
    (overlay mem text)[i]? = mem[i]? := by
  rw [overlay, List.getElem?_append_right h, List.getElem?_drop]
  congr 1
  omega

lemma not_lastAt_nil {i : ℕ} {b : α} : ¬ LastAt [] i b := by
  rintro ⟨before, text, after, h, -⟩
  simp at h

/-- One more text is the last where it reaches. -/
lemma lastAt_concat {texts : List (List α)} {text : List α} {i : ℕ} {b : α} :
    LastAt (texts ++ [text]) i b ↔
      if i < text.length then text[i]? = some b else LastAt texts i b := by
  constructor
  · rintro ⟨before, t, after, heq, hb, hafter⟩
    rcases List.eq_nil_or_concat after with rfl | ⟨init, last, rfl⟩
    · obtain ⟨-, h⟩ := List.append_inj' heq rfl
      obtain rfl := (List.cons.inj h).1
      rw [if_pos (List.getElem?_eq_some_iff.mp hb).1]
      exact hb
    · -- the last text does not reach `i`
      rw [List.concat_eq_append, ← List.cons_append, ← List.append_assoc] at heq
      obtain ⟨h, hlast⟩ := List.append_inj' heq rfl
      obtain rfl := (List.cons.inj hlast).1
      rw [if_neg (Nat.not_lt.mpr (hafter text (by simp)))]
      exact ⟨before, t, init, h, hb, fun u hu => hafter u (by simp [hu])⟩
  · split_ifs with hi
    · exact fun hb => ⟨texts, text, [], rfl, hb, by simp⟩
    · rintro ⟨before, t, after, rfl, hb, hafter⟩
      refine ⟨before, t, after ++ [text], by simp, hb, fun u hu => ?_⟩
      rcases List.mem_append.mp hu with hu | hu
      · exact hafter u hu
      · rw [List.mem_singleton.mp hu]
        exact Nat.not_lt.mp hi

lemma lastAt_singleton {text : List α} {i : ℕ} {b : α} : LastAt [text] i b ↔ text[i]? = some b := by
  rw [← List.nil_append [text], lastAt_concat]
  split_ifs with hi
  · rfl
  · rw [List.getElem?_eq_none (Nat.not_lt.mp hi)]
    exact iff_of_false not_lastAt_nil nofun

/-- **What stands in the array.** Anything but what the array was filled with was written by the
last text that reaches the place. -/
theorem getElem?_foldl_overlay_iff {texts : List (List α)} {n i : ℕ} {a b : α} (hb : b ≠ a)
    (h : ∀ t ∈ texts, t.length ≤ n) :
    (texts.foldl overlay (List.replicate n a))[i]? = some b ↔ LastAt texts i b := by
  induction texts using List.reverseRecOn with
  | nil =>
      refine iff_of_false (fun hget => ?_) not_lastAt_nil
      rw [List.foldl_nil, List.getElem?_replicate] at hget
      split_ifs at hget
      exact hb (Option.some.inj hget).symm
  | append_singleton texts text ih =>
      rw [List.foldl_append, List.foldl_cons, List.foldl_nil, lastAt_concat]
      split_ifs with hi
      · rw [getElem?_overlay_of_lt hi]
      · rw [getElem?_overlay_of_le (Nat.not_lt.mp hi)]
        exact ih fun t ht => h t (List.mem_append_left _ ht)

end Reactor.Lib.Overlay
