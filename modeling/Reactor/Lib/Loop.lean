import Mathlib.Tactic

/-!
A loop, as the body that one round runs.

The body goes on with a new state or leaves the loop with a result. How often it may go on is a
number of rounds; what the loop ends with does not depend on it.
-/

namespace Reactor.Lib.Loop

variable {σ τ : Type*}

/-- What the loop is left with, if that happens within a number of rounds. -/
def loop (body : σ → σ ⊕ τ) : ℕ → σ → Option τ
  | 0, _ => none
  | rounds + 1, s =>
      match body s with
      | .inl s => loop body rounds s
      | .inr t => some t

/-- The loop comes to an end, and is left with `t`. -/
def Ends (body : σ → σ ⊕ τ) (s : σ) (t : τ) : Prop := ∃ rounds, loop body rounds s = some t

variable {body : σ → σ ⊕ τ} {s s' : σ} {t t' : τ}

/-- A round that goes on can be left out. -/
lemma ends_inl (h : body s = .inl s') : Ends body s t ↔ Ends body s' t := by
  constructor
  · rintro ⟨rounds, hr⟩
    cases rounds with
    | zero => cases hr
    | succ rounds =>
        rw [loop, h] at hr
        exact ⟨rounds, hr⟩
  · rintro ⟨rounds, hr⟩
    refine ⟨rounds + 1, ?_⟩
    rw [loop, h]
    exact hr

lemma ends_inr (h : body s = .inr t') : Ends body s t ↔ t = t' := by
  constructor
  · rintro ⟨rounds, hr⟩
    cases rounds with
    | zero => cases hr
    | succ rounds =>
        rw [loop, h] at hr
        exact (Option.some.inj hr).symm
  · rintro rfl
    exact ⟨1, by rw [loop, h]⟩

/-- **The invariant rule.** What every round that goes on keeps, and every round that leaves the
loop turns into `Post`, gives `Post` at the end. -/
theorem Ends.of_inv {Inv : σ → Prop} {Post : τ → Prop}
    (keep : ∀ s s', Inv s → body s = .inl s' → Inv s')
    (exit : ∀ s t, Inv s → body s = .inr t → Post t) (h : Ends body s t) (h0 : Inv s) :
    Post t := by
  obtain ⟨rounds, hr⟩ := h
  induction rounds generalizing s with
  | zero => cases hr
  | succ rounds ih =>
      rw [loop] at hr
      split at hr
      · exact ih (keep _ _ h0 ‹_›) hr
      · obtain rfl := Option.some.inj hr
        exact exit _ _ h0 ‹_›

/-- **A loop without an end.** From an invariant state every round goes on, to an invariant
state. -/
theorem not_ends_of_inv {Inv : σ → Prop} (keep : ∀ s, Inv s → ∃ s', body s = .inl s' ∧ Inv s')
    (h0 : Inv s) : ¬ Ends body s t := by
  have hgo : ∀ s s', Inv s → body s = .inl s' → Inv s' := by
    intro s s' hs hx
    obtain ⟨_, hs', hinv⟩ := keep s hs
    rw [hs'] at hx
    cases hx
    exact hinv
  have hleave : ∀ s t, Inv s → body s = .inr t → False := by
    intro s t hs hx
    obtain ⟨_, hs', -⟩ := keep s hs
    rw [hs'] at hx
    cases hx
  intro h
  have hend := h.of_inv hgo hleave h0
  exact hend

end Reactor.Lib.Loop
