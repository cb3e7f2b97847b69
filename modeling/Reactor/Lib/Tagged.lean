import Mathlib.Data.List.Basic
import Mathlib.Data.List.Nodup
import Mathlib.Tactic

/-!
The pieces of a stream, each element tagged with the piece it is from.

When no piece is used twice, the place of an element says which pieces are wholly before it.
-/

namespace Reactor.Lib.Tagged

variable {ι α : Type*}

/-- The pieces `f i`, for the `i` of the list, one after the other. -/
def tagged (f : ι → List α) (l : List ι) : List (ι × α) := l.flatMap fun i => (f i).map (Prod.mk i)

@[simp] lemma tagged_nil (f : ι → List α) : tagged f [] = [] := rfl

@[simp] lemma tagged_cons (f : ι → List α) (i : ι) (l : List ι) :
    tagged f (i :: l) = (f i).map (Prod.mk i) ++ tagged f l := List.flatMap_cons

@[simp] lemma tagged_append (f : ι → List α) (l₁ l₂ : List ι) :
    tagged f (l₁ ++ l₂) = tagged f l₁ ++ tagged f l₂ := List.flatMap_append

/-- A tag is that of a piece. -/
lemma mem_of_mem_tagged {f : ι → List α} {l : List ι} {e : ι × α} (h : e ∈ tagged f l) :
    e.1 ∈ l := by
  obtain ⟨i, hi, he⟩ := List.mem_flatMap.mp h
  obtain ⟨a, -, rfl⟩ := List.mem_map.mp he
  exact hi

lemma tagged_congr {f g : ι → List α} {l : List ι} (h : ∀ i ∈ l, f i = g i) :
    tagged f l = tagged g l := by
  induction l with
  | nil => rfl
  | cons i l ih =>
      rw [tagged_cons, tagged_cons, h i (List.mem_cons_self ..),
        ih fun j hj => h j (List.mem_cons_of_mem _ hj)]

/-- In a list sorted by `r`, what is smaller stands before. -/
lemma sublist_of_sorted {r : ι → ι → Prop} (hr : ∀ a b, r a b → ¬ r b a) {l : List ι}
    (hl : l.Pairwise r) {i j : ι} (hi : i ∈ l) (hj : j ∈ l) (hij : r i j) :
    [i, j].Sublist l := by
  obtain ⟨l₁, l₂, rfl⟩ := List.append_of_mem hi
  have hbefore := (List.pairwise_append.mp hl).2.2
  rcases List.mem_append.mp hj with hj | hj
  · exact absurd (hbefore j hj i (List.mem_cons_self ..)) (hr i j hij)
  · rcases List.mem_cons.mp hj with rfl | hj
    · exact absurd hij (hr j j hij)
    · exact (List.Sublist.cons_cons i (List.singleton_sublist.mpr hj)).trans
        (List.sublist_append_right _ _)

variable [DecidableEq ι]

lemma filter_tagged_of_notMem {f : ι → List α} {l : List ι} {i : ι} (h : i ∉ l) :
    (tagged f l).filter (fun e => e.1 = i) = [] := by
  refine List.filter_eq_nil_iff.mpr fun e he => ?_
  simp only [decide_eq_true_eq]
  rintro rfl
  exact h (mem_of_mem_tagged he)

/-- A piece used once is found by its tag. -/
theorem filter_tagged {f : ι → List α} {l : List ι} {i : ι} (hl : l.Nodup) (h : i ∈ l) :
    (tagged f l).filter (fun e => e.1 = i) = (f i).map (Prod.mk i) := by
  obtain ⟨l₁, l₂, rfl⟩ := List.append_of_mem h
  obtain ⟨-, h₂, hdis⟩ := List.nodup_append.mp hl
  have hi₁ : i ∉ l₁ := fun hi => hdis i hi i (List.mem_cons_self ..) rfl
  have hi₂ : i ∉ l₂ := (List.nodup_cons.mp h₂).1
  have hown : ((f i).map (Prod.mk i)).filter (fun e => e.1 = i) = (f i).map (Prod.mk i) := by
    refine List.filter_eq_self.mpr fun e he => ?_
    obtain ⟨a, -, rfl⟩ := List.mem_map.mp he
    exact decide_eq_true rfl
  simp [hown, filter_tagged_of_notMem hi₁, filter_tagged_of_notMem hi₂]

/-- **A piece that comes first is complete** by the time an element of a later one is met, in
any initial part of the stream. -/
theorem filter_before {f : ι → List α} {l : List ι} {i j : ι} {pre post : List (ι × α)} {b : α}
    (hl : l.Nodup) (h : [i, j].Sublist l) (hpre : pre ++ (j, b) :: post <+: tagged f l) :
    pre.filter (fun e => e.1 = i) = (f i).map (Prod.mk i) := by
  obtain ⟨l₁, l₂, rfl, hi, hj⟩ := List.cons_sublist_iff.mp h
  obtain ⟨h₁, -, hdis⟩ := List.nodup_append.mp hl
  have hj₂ : j ∈ l₂ := List.singleton_sublist.mp hj
  have hi₂ : i ∉ l₂ := fun hm => hdis i hi i hm rfl
  have hnot : (j, b) ∉ tagged f l₁ := fun hm => hdis j (mem_of_mem_tagged hm) j hj₂ rfl
  rw [tagged_append] at hpre
  -- the element of `j` lies behind the whole of `l₁`
  have hle : tagged f l₁ <+: pre := by
    have hjpre : pre ++ [(j, b)] <+: tagged f l₁ ++ tagged f l₂ := by
      refine List.IsPrefix.trans ⟨post, ?_⟩ hpre
      simp
    rcases List.prefix_or_prefix_of_prefix hjpre (List.prefix_append _ _) with hp | hp
    · exact absurd (hp.subset (by simp)) hnot
    · rcases List.prefix_concat_iff.mp hp with he | hp
      · exact absurd (he ▸ List.mem_append_right _ (List.mem_singleton_self _)) hnot
      · exact hp
  obtain ⟨rest, rfl⟩ := hle
  rw [List.append_assoc, List.prefix_append_right_inj] at hpre
  have hrest : rest.filter (fun e => e.1 = i) = [] := by
    refine List.filter_eq_nil_iff.mpr fun e he => ?_
    simp only [decide_eq_true_eq]
    rintro rfl
    exact hi₂ (mem_of_mem_tagged (hpre.subset (List.mem_append_left _ he)))
  rw [List.filter_append, filter_tagged h₁ hi, hrest, List.append_nil]

end Reactor.Lib.Tagged
