import Mathlib.Data.Set.Basic

/-!
The errors that a computation can end in, as a set that is at least as large; and two computations
in step with each other, whose errors have different names.
-/

namespace Reactor.Lib.Errors

universe u v

variable {ε : Type u} {α β : Type v}

/-- An error of the computation is one of `E`. -/
def Raises (E : Set ε) (x : Except ε α) : Prop := ∀ e, x = .error e → e ∈ E

lemma raises_ok (E : Set ε) (a : α) : Raises E (.ok a) := fun _ h => nomatch h

lemma raises_error {E : Set ε} {e : ε} (h : e ∈ E) :
    Raises E (.error e : Except ε α) := by
  intro e' he
  rwa [← Except.error.inj he]

lemma Raises.mono {E F : Set ε} {x : Except ε α} (h : Raises E x) (hEF : E ⊆ F) : Raises F x :=
  fun e he => hEF (h e he)

/-- An error of a sequence is one of the part it stops in. -/
theorem Raises.bind {E : Set ε} {x : Except ε α} {f : α → Except ε β} (hx : Raises E x)
    (hf : ∀ a, x = .ok a → Raises E (f a)) : Raises E (x >>= f) := by
  intro e he
  cases x with
  | error e' => exact hx e (by simpa [Bind.bind, Except.bind] using he)
  | ok a => exact hf a rfl e he

lemma ok_bind (a : α) (f : α → Except ε β) : (Except.ok a >>= f) = f a := rfl

lemma error_bind (e : ε) (f : α → Except ε β) : (Except.error e >>= f) = .error e := rfl

/-- A sequence that comes back is one whose parts do. -/
lemma ok_of_bind {x : Except ε α} {f : α → Except ε β} {r : β} (h : x >>= f = .ok r) :
    ∃ a, x = .ok a ∧ f a = .ok r := by
  cases x with
  | error e => exact nomatch h
  | ok a => exact ⟨a, rfl, h⟩

/-- A sequence that fails does so in its first part or behind it. -/
lemma error_of_bind {x : Except ε α} {f : α → Except ε β} {e : ε} (h : x >>= f = .error e) :
    x = .error e ∨ ∃ a, x = .ok a ∧ f a = .error e := by
  cases x with
  | error e' => exact Or.inl (congrArg Except.error (Except.error.inj h))
  | ok a => exact Or.inr ⟨a, rfl, h⟩

lemma mapError_bind {ε' : Type u} (g : ε → ε') (x : Except ε α) (f : α → Except ε β) :
    (x >>= f).mapError g = x.mapError g >>= fun a => (f a).mapError g := by
  cases x <;> rfl

lemma mapError_ok {ε' : Type u} (g : ε → ε') (a : α) :
    (Except.ok a : Except ε α).mapError g = .ok a := rfl

/-- An error of a loop is one of its body, on what the rounds before leave. -/
theorem raises_foldlM_of_inv {E : Set ε} {f : β → α → Except ε β} {l : List α} (Inv : β → Prop)
    (hf : ∀ b, Inv b → ∀ a ∈ l, Raises E (f b a) ∧ ∀ b', f b a = .ok b' → Inv b') {b : β}
    (hb : Inv b) : Raises E (l.foldlM f b) := by
  induction l generalizing b with
  | nil => exact raises_ok E b
  | cons a l ih =>
    rw [List.foldlM_cons]
    obtain ⟨hraises, hkeep⟩ := hf b hb a List.mem_cons_self
    refine hraises.bind fun b' hb' => ih (fun b hb a ha => ?_) (hkeep b' hb')
    exact hf b hb a (List.mem_cons_of_mem _ ha)

/-- `y` does what `x` does, with another name for its error, and what comes back satisfies `P`. -/
structure Follows {ε' : Type u} (g : ε → ε') (P : α → Prop) (y : Except ε' α) (x : Except ε α) :
    Prop where
  eq : y = x.mapError g
  keeps : ∀ a, x = .ok a → P a

namespace Follows

variable {ε' : Type u} {g : ε → ε'} {P : α → Prop} {Q : β → Prop} {x : Except ε α}
  {y : Except ε' α}

lemma ok {a : α} (h : P a) : Follows g P (.ok a) (.ok a) where
  eq := rfl
  keeps b hb := by
    rwa [← Except.ok.inj hb]

lemma error (e : ε) : Follows g P (.error (g e)) (.error e) where
  eq := rfl
  keeps a ha := by cases ha

/-- One after the other. -/
theorem bind {f : α → Except ε β} {f' : α → Except ε' β} (h : Follows g P y x)
    (hf : ∀ a, P a → Follows g Q (f' a) (f a)) : Follows g Q (y >>= f') (x >>= f) := by
  obtain ⟨rfl, hP⟩ := h
  cases x with
  | error e => exact error e
  | ok a => exact hf a (hP a rfl)

/-- Loops whose rounds are in step, as long as an invariant holds. -/
theorem foldlM {f : β → α → Except ε β} {f' : β → α → Except ε' β} {l : List α} (Inv : β → Prop)
    (hf : ∀ b, Inv b → ∀ a ∈ l, Follows g Inv (f' b a) (f b a)) {b : β} (hb : Inv b) :
    Follows g Inv (l.foldlM f' b) (l.foldlM f b) := by
  induction l generalizing b with
  | nil => exact ok hb
  | cons a l ih =>
    rw [List.foldlM_cons, List.foldlM_cons]
    refine (hf b hb a List.mem_cons_self).bind fun b' hb' => ih (fun b hb a ha => ?_) hb'
    exact hf b hb a (List.mem_cons_of_mem _ ha)

end Follows

end Reactor.Lib.Errors
