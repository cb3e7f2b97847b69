import Reactor.Lib.Trace

/-!
Data refinement over whole runs.

An implementation runs beside the abstract state it stands for. A call may fail, and after that
there is no implementation left that could stand for anything.
-/

namespace Reactor.Lib.DataRefinement

open Trace

variable {ε σ τ α : Type*}

/-- When a call may be made, what it makes of an implementation, and what it means. -/
structure Calls (ε σ τ α : Type*) where
  Legal : σ → α → Prop
  run : σ → α → Except ε σ
  spec : τ → α → τ

/-- An implementation, unless a call has failed, and the state it stands for. -/
structure Beside (ε σ τ : Type*) where
  impl : Except ε σ
  spec : τ

/-- A legal call, made on both sides. -/
def Calls.Step (C : Calls ε σ τ α) (s : Beside ε σ τ) (a : α) (s' : Beside ε σ τ) : Prop :=
  ∃ x, s.impl = .ok x ∧ C.Legal x a ∧ s' = ⟨C.run x a, C.spec s.spec a⟩

/-- There is an implementation, and it stands for the state. -/
def Refines (R : σ → τ → Prop) (s : Beside ε σ τ) : Prop := ∃ x, s.impl = .ok x ∧ R x s.spec

/-- The call is made on an implementation on which it meets the condition. -/
def Meets (G : σ → α → Prop) (s : Beside ε σ τ) (a : α) : Prop := ∃ x, s.impl = .ok x ∧ G x a

variable {C : Calls ε σ τ α} {R : σ → τ → Prop} {G : σ → α → Prop} {s s' : Beside ε σ τ} {a : α}

lemma Refines.step
    (keep : ∀ x t a, R x t → C.Legal x a → G x a → ∃ x', C.run x a = .ok x' ∧ R x' (C.spec t a))
    (h : Refines R s) (hst : C.Step s a s') (hG : Meets G s a) : Refines R s' := by
  obtain ⟨x, hx, hR⟩ := h
  obtain ⟨y, hy, hlegal, rfl⟩ := hst
  obtain ⟨z, hz, hG⟩ := hG
  obtain rfl : x = y := Except.ok.inj (hx.symm.trans hy)
  obtain rfl : x = z := Except.ok.inj (hx.symm.trans hz)
  exact keep x s.spec a hR hlegal hG

lemma Refines.breaks
    (brk : ∀ x t a x', R x t → C.Legal x a → ¬ G x a → C.run x a = .ok x' → ¬ R x' (C.spec t a))
    (h : Refines R s) (hst : C.Step s a s') (hG : ¬ Meets G s a) : ¬ Refines R s' := by
  obtain ⟨x, hx, hR⟩ := h
  obtain ⟨y, hy, hlegal, rfl⟩ := hst
  obtain rfl : x = y := Except.ok.inj (hx.symm.trans hy)
  rintro ⟨x', hx', hR'⟩
  exact brk x s.spec a x' hR hlegal (fun hG' => hG ⟨x, hx, hG'⟩) hx' hR'

/-- **The refinement rule.** If a legal call that meets the condition does to the implementation
what it does to the state, and one that does not meet it never does, then the implementation stands
for the state throughout a run exactly when all its calls meet the condition. -/
theorem Calls.always_refines_iff (C : Calls ε σ τ α)
    (keep : ∀ x t a, R x t → C.Legal x a → G x a → ∃ x', C.run x a = .ok x' ∧ R x' (C.spec t a))
    (brk : ∀ x t a x', R x t → C.Legal x a → ¬ G x a → C.run x a = .ok x' → ¬ R x' (C.spec t a))
    {tr : List (α × Beside ε σ τ)} (h0 : Refines R s) (h : Chain C.Step s tr) :
    Always (Refines R) s tr ↔ Chain (fun s a _ => Meets G s a) s tr :=
  always_iff_of_inv (fun _ hs => hs) (fun _ _ _ hs hst hG => hs.step keep hst hG)
    (fun _ _ _ hs hst hG => hs.breaks brk hst hG) h0 h

end Reactor.Lib.DataRefinement
