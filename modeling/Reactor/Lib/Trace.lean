import Mathlib.Data.List.Basic
import Mathlib.Tactic

/-!
Runs of a labelled transition relation.

A run is kept as its first state and the list of the labels taken, each with the state it
led to. A property of a run is a property of all its states, or of all its steps, and both
follow from what one step does.
-/

namespace Reactor.Lib.Trace

variable {σ τ α β : Type*}

/-- Every step of the run satisfies `R`: the state it starts in, its label, the state
reached. -/
def Chain (R : σ → α → σ → Prop) : σ → List (α × σ) → Prop
  | _, [] => True
  | s, e :: tr => R s e.1 e.2 ∧ Chain R e.2 tr

/-- Every state of the run satisfies `P`. -/
def Always (P : σ → Prop) (s : σ) (tr : List (α × σ)) : Prop :=
  P s ∧ ∀ e ∈ tr, P e.2

@[simp] lemma chain_nil (R : σ → α → σ → Prop) (s : σ) : Chain R s [] := trivial

@[simp] lemma chain_cons {R : σ → α → σ → Prop} {s : σ} {e : α × σ} {tr : List (α × σ)} :
    Chain R s (e :: tr) ↔ R s e.1 e.2 ∧ Chain R e.2 tr := Iff.rfl

@[simp] lemma always_nil {P : σ → Prop} {s : σ} :
    Always P s ([] : List (α × σ)) ↔ P s := by
  simp [Always]

@[simp] lemma always_cons {P : σ → Prop} {s : σ} {e : α × σ} {tr : List (α × σ)} :
    Always P s (e :: tr) ↔ P s ∧ Always P e.2 tr := by
  simp [Always]

instance {P : σ → Prop} [DecidablePred P] (s : σ) (tr : List (α × σ)) :
    Decidable (Always P s tr) := inferInstanceAs (Decidable (_ ∧ _))

lemma Always.mono {P Q : σ → Prop} {s : σ} {tr : List (α × σ)} (h : Always P s tr)
    (hPQ : ∀ s, P s → Q s) : Always Q s tr :=
  ⟨hPQ _ h.1, fun e he => hPQ _ (h.2 e he)⟩

lemma chain_and {R S : σ → α → σ → Prop} {s : σ} {tr : List (α × σ)} :
    Chain (fun s a t => R s a t ∧ S s a t) s tr ↔ Chain R s tr ∧ Chain S s tr := by
  induction tr generalizing s with
  | nil => simp
  | cons e tr ih => simp only [chain_cons, ih, and_and_and_comm]

/-- The states after the first satisfy `P` exactly when every step ends in `P`. -/
lemma always_iff_chain {P : σ → Prop} {s : σ} {tr : List (α × σ)} :
    Always P s tr ↔ P s ∧ Chain (fun _ _ t => P t) s tr := by
  induction tr generalizing s with
  | nil => simp
  | cons e tr ih => simp [ih]

/-- **The invariant rule.** What holds at the start and is kept by every step holds
throughout the run. -/
theorem always_of_inv {step : σ → α → σ → Prop} {Inv : σ → Prop}
    (keep : ∀ s a t, Inv s → step s a t → Inv t) {s : σ} {tr : List (α × σ)}
    (h0 : Inv s) (h : Chain step s tr) : Always Inv s tr := by
  induction tr generalizing s with
  | nil => simpa using h0
  | cons e tr ih => exact always_cons.mpr ⟨h0, ih (keep _ _ _ h0 h.1) h.2⟩

/-- The invariant rule for properties of steps. -/
theorem chain_of_inv {step R : σ → α → σ → Prop} {Inv : σ → Prop}
    (keep : ∀ s a t, Inv s → step s a t → Inv t ∧ R s a t) {s : σ} {tr : List (α × σ)}
    (h0 : Inv s) (h : Chain step s tr) : Chain R s tr := by
  induction tr generalizing s with
  | nil => trivial
  | cons e tr ih =>
      obtain ⟨hInv, hR⟩ := keep _ _ _ h0 h.1
      exact ⟨hR, ih hInv h.2⟩

/-- **The exactness rule.** If a step that meets the condition `G` keeps the invariant and
satisfies `R`, and a step that does not meet it falsifies `R` at once, then a run satisfies
`R` exactly when all its steps meet the condition. -/
theorem chain_iff_of_inv {step R : σ → α → σ → Prop} {G : σ → α → Prop} {Inv : σ → Prop}
    (keep : ∀ s a t, Inv s → step s a t → G s a → Inv t ∧ R s a t)
    (brk : ∀ s a t, Inv s → step s a t → ¬ G s a → ¬ R s a t)
    {s : σ} {tr : List (α × σ)} (h0 : Inv s) (h : Chain step s tr) :
    Chain R s tr ↔ Chain (fun s a _ => G s a) s tr := by
  induction tr generalizing s with
  | nil => simp
  | cons e tr ih =>
      obtain ⟨hstep, hrest⟩ := h
      by_cases hG : G s e.1
      · obtain ⟨hInv, hR⟩ := keep _ _ _ h0 hstep hG
        simp only [chain_cons, hG, hR, true_and]
        exact ih hInv hrest
      · simp [hG, brk _ _ _ h0 hstep hG]

/-- The exactness rule for a property of states. -/
theorem always_iff_of_inv {step : σ → α → σ → Prop} {P Inv : σ → Prop} {G : σ → α → Prop}
    (sound : ∀ s, Inv s → P s)
    (keep : ∀ s a t, Inv s → step s a t → G s a → Inv t)
    (brk : ∀ s a t, Inv s → step s a t → ¬ G s a → ¬ P t)
    {s : σ} {tr : List (α × σ)} (h0 : Inv s) (h : Chain step s tr) :
    Always P s tr ↔ Chain (fun s a _ => G s a) s tr := by
  rw [always_iff_chain, and_iff_right (sound s h0)]
  have keep' : ∀ s a t, Inv s → step s a t → G s a → Inv t ∧ P t := fun s a t hs hst hG =>
    ⟨keep s a t hs hst hG, sound t (keep s a t hs hst hG)⟩
  exact chain_iff_of_inv keep' brk h0 h

/-- **Simulation.** If every step from an invariant state is a step of `S` between the
images, the image of a run is a run of `S`. -/
theorem chain_map {R : σ → α → σ → Prop} {S : τ → β → τ → Prop} {Inv : σ → Prop}
    (f : σ → τ) (g : α → β)
    (sim : ∀ s a t, Inv s → R s a t → Inv t ∧ S (f s) (g a) (f t))
    {s : σ} {tr : List (α × σ)} (h0 : Inv s) (h : Chain R s tr) :
    Chain S (f s) (tr.map (Prod.map g f)) := by
  induction tr generalizing s with
  | nil => trivial
  | cons e tr ih =>
      obtain ⟨hInv, hS⟩ := sim _ _ _ h0 h.1
      exact ⟨hS, ih hInv h.2⟩

/-! ### Runs of a function -/

/-- The run that a step function makes of a list of labels. -/
def path (f : σ → α → σ) : σ → List α → List (α × σ)
  | _, [] => []
  | s, a :: as => (a, f s a) :: path f (f s a) as

lemma chain_path (f : σ → α → σ) (s : σ) (as : List α) :
    Chain (fun s a t => t = f s a) s (path f s as) := by
  induction as generalizing s with
  | nil => trivial
  | cons a as ih => exact ⟨rfl, ih _⟩

/-- The invariant rule for a step function. -/
theorem always_path {f : σ → α → σ} {Inv : σ → Prop} (keep : ∀ s a, Inv s → Inv (f s a))
    {s : σ} (h0 : Inv s) (as : List α) : Always Inv s (path f s as) :=
  always_of_inv (fun s a _ hs ht => ht ▸ keep s a hs) h0 (chain_path f s as)

/-- The exactness rule for a step function. -/
theorem always_path_iff {f : σ → α → σ} {P Inv : σ → Prop} {G : σ → α → Prop}
    (sound : ∀ s, Inv s → P s) (keep : ∀ s a, Inv s → G s a → Inv (f s a))
    (brk : ∀ s a, Inv s → ¬ G s a → ¬ P (f s a)) {s : σ} (h0 : Inv s) (as : List α) :
    Always P s (path f s as) ↔ Chain (fun s a _ => G s a) s (path f s as) := by
  refine always_iff_of_inv sound ?_ ?_ h0 (chain_path f s as)
  · rintro s a _ hs rfl hG
    exact keep s a hs hG
  · rintro s a _ hs rfl hG
    exact brk s a hs hG

/-! ### Runs of a partial function -/

instance {R : σ → α → σ → Prop} [∀ s a t, Decidable (R s a t)] :
    ∀ (s : σ) (tr : List (α × σ)), Decidable (Chain R s tr)
  | _, [] => inferInstanceAs (Decidable True)
  | s, e :: tr =>
      have : Decidable (Chain R e.2 tr) := instDecidableChain e.2 tr
      inferInstanceAs (Decidable (R s e.1 e.2 ∧ Chain R e.2 tr))

/-- The run that a partial step function makes of a list of labels, as far as they are
enabled. -/
def walk (f : σ → α → Option σ) : σ → List α → List (α × σ)
  | _, [] => []
  | s, a :: as =>
      match f s a with
      | some t => (a, t) :: walk f t as
      | none => []

lemma chain_walk (f : σ → α → Option σ) (s : σ) (as : List α) :
    Chain (fun s a t => f s a = some t) s (walk f s as) := by
  induction as generalizing s with
  | nil => trivial
  | cons a as ih =>
      unfold walk
      split
      · exact ⟨‹_›, ih _⟩
      · trivial

/-- Its labels are among those of the list. -/
lemma chain_walk_and {f : σ → α → Option σ} {P : α → Prop} {as : List α} (h : ∀ a ∈ as, P a)
    (s : σ) : Chain (fun s a t => f s a = some t ∧ P a) s (walk f s as) := by
  induction as generalizing s with
  | nil => trivial
  | cons a as ih =>
      unfold walk
      split
      · exact ⟨⟨‹_›, h a (List.mem_cons_self ..)⟩, ih (fun b hb => h b (List.mem_cons_of_mem _ hb)) _⟩
      · trivial

/-- The last step of such a run. -/
lemma of_chain_walk {f : σ → α → Option σ} {R : σ → α → σ → Prop} {as : List α} {a : α}
    {s t u : σ} (h : Chain R s (walk f s (as ++ [a]))) (has : as.foldlM f s = some t)
    (ha : f t a = some u) : R t a u := by
  induction as generalizing s with
  | nil =>
      obtain rfl := Option.some.inj has
      rw [List.nil_append, walk, ha] at h
      exact h.1
  | cons b as ih =>
      obtain ⟨s', hs', has⟩ := Option.bind_eq_some_iff.mp has
      rw [List.cons_append, walk, hs'] at h
      exact ih h.2 has

end Reactor.Lib.Trace
