import Mathlib.Data.List.Basic
import Mathlib.Tactic

/-!
Percent encoding: a byte may be written as a percent sign and two hexadecimal digits, and a percent
sign must be.
-/

namespace Reactor.Lib.PercentEncoding

/-- The value of a hexadecimal digit, of either case. -/
def digit? (c : UInt8) : Option ℕ :=
  if 48 ≤ c ∧ c ≤ 57 then some (c.toNat - 48)
  else if 97 ≤ c ∧ c ≤ 102 then some (c.toNat - 97 + 10)
  else if 65 ≤ c ∧ c ≤ 70 then some (c.toNat - 65 + 10)
  else none

/-- The byte that the text starts with if it starts with an escape, and what follows. -/
def escape? : List UInt8 → Option (UInt8 × List UInt8)
  | p :: a :: b :: s =>
    if p = 37 then
      match digit? a, digit? b with
      | some x, some y => some (UInt8.ofNat (x * 16 + y), s)
      | _, _ => none
    else none
  | _ => none

lemma escape?_eq_some {s s' : List UInt8} {c : UInt8} (h : escape? s = some (c, s')) :
    ∃ a b x y, s = 37 :: a :: b :: s' ∧ digit? a = some x ∧ digit? b = some y ∧
      c = UInt8.ofNat (x * 16 + y) := by
  unfold escape? at h
  split at h
  case h_1 p a b t =>
    split_ifs at h with hp
    split at h
    case h_1 x y hx hy =>
      obtain ⟨rfl, rfl⟩ := Prod.mk.inj (Option.some.inj h)
      exact ⟨a, b, x, y, by rw [hp], hx, hy, rfl⟩
    · cases h
  · cases h

lemma escape?_length {s s' : List UInt8} {c : UInt8} (h : escape? s = some (c, s')) :
    s'.length < s.length := by
  obtain ⟨a, b, x, y, rfl, -⟩ := escape?_eq_some h
  simp only [List.length_cons]
  omega

/-- The text read from left to right, with every escape replaced by its byte. -/
def decode (s : List UInt8) : List UInt8 :=
  match s with
  | [] => []
  | c :: t =>
    match _h : escape? (c :: t) with
    | some (c', s') => c' :: decode s'
    | none => c :: decode t
termination_by s.length
decreasing_by
  · exact escape?_length _h
  · exact Nat.lt_succ_self _

/-- `e` is the text `t` with some of its bytes escaped, its percent signs among them. -/
inductive Encodes : List UInt8 → List UInt8 → Prop
  | nil : Encodes [] []
  | plain {c : UInt8} {t e : List UInt8} : c ≠ 37 → Encodes t e → Encodes (c :: t) (c :: e)
  | escape {c a b : UInt8} {t e : List UInt8} : digit? a = some (c.toNat / 16) →
      digit? b = some (c.toNat % 16) → Encodes t e → Encodes (c :: t) (37 :: a :: b :: e)

@[simp] lemma decode_nil : decode [] = [] := by
  rw [decode]

lemma decode_escape {s s' : List UInt8} {c : UInt8} (h : escape? s = some (c, s')) :
    decode s = c :: decode s' := by
  cases s with
  | nil => cases h
  | cons d t =>
      rw [decode]
      split
      case h_1 c' t' heq =>
        obtain ⟨rfl, rfl⟩ := Prod.mk.inj (Option.some.inj (heq.symm.trans h))
        rfl
      case h_2 heq => cases heq.symm.trans h

lemma decode_plain {s : List UInt8} {c : UInt8} (h : escape? (c :: s) = none) :
    decode (c :: s) = c :: decode s := by
  rw [decode]
  split
  case h_1 heq => cases heq.symm.trans h
  case h_2 => rfl

lemma escape?_of_ne {c : UInt8} (h : c ≠ 37) (s : List UInt8) : escape? (c :: s) = none := by
  rcases s with _ | ⟨a, _ | ⟨b, s⟩⟩
  · rfl
  · rfl
  · exact if_neg h

/-- The byte that comes next, escaped or not, and what follows. -/
def next? (s : List UInt8) : Option (UInt8 × List UInt8) :=
  match escape? s, s with
  | some next, _ => some next
  | none, [] => none
  | none, c :: t => some (c, t)

lemma next?_eq_none {s : List UInt8} (h : next? s = none) : s = [] := by
  unfold next? at h
  split at h
  · cases h
  · rfl
  · cases h

lemma decode_next {s s' : List UInt8} {c : UInt8} (h : next? s = some (c, s')) :
    decode s = c :: decode s' := by
  unfold next? at h
  split at h
  case h_1 next hesc => exact decode_escape (hesc.trans h)
  case h_2 => cases h
  case h_3 c' t hesc =>
    obtain ⟨rfl, rfl⟩ := Prod.mk.inj (Option.some.inj h)
    exact decode_plain hesc

lemma next?_length {s s' : List UInt8} {c : UInt8} (h : next? s = some (c, s')) :
    s'.length < s.length := by
  unfold next? at h
  split at h
  case h_1 next hesc => exact escape?_length (hesc.trans h)
  case h_2 => cases h
  case h_3 c' t hesc =>
    obtain ⟨-, rfl⟩ := Prod.mk.inj (Option.some.inj h)
    exact Nat.lt_succ_self _

lemma digit?_ne_zero {c : UInt8} {x : ℕ} (h : digit? c = some x) : c ≠ 0 := by
  rintro rfl
  cases h

/-- **Decoding undoes encoding.** -/
theorem Encodes.decode_eq {t e : List UInt8} (h : Encodes t e) : decode e = t := by
  induction h with
  | nil => exact decode_nil
  | plain hc _ ih => rw [decode_plain (escape?_of_ne hc _), ih]
  | @escape c a b t e ha hb _ ih =>
      have hesc : escape? (37 :: a :: b :: e) = some (c, e) := by
        have hbyte : UInt8.ofNat (c.toNat / 16 * 16 + c.toNat % 16) = c := by
          rw [Nat.div_add_mod', UInt8.ofNat_toNat]
        rw [escape?, if_pos rfl, ha, hb]
        exact congrArg (fun c => some (c, e)) hbyte
      rw [decode_escape hesc, ih]

/-- A text without null bytes is encoded without null bytes. -/
lemma Encodes.zero_notMem {t e : List UInt8} (h : Encodes t e) (ht : 0 ∉ t) : 0 ∉ e := by
  induction h with
  | nil => exact ht
  | plain _ _ ih =>
      rw [List.mem_cons, not_or] at ht ⊢
      exact ⟨ht.1, ih ht.2⟩
  | escape ha hb _ ih =>
      simp only [List.mem_cons, not_or]
      exact ⟨by decide, (digit?_ne_zero ha).symm, (digit?_ne_zero hb).symm,
        ih fun h0 => ht (List.mem_cons_of_mem _ h0)⟩

/-! ### Texts without escapes -/

/-- There is no escape in the text. -/
def Plain (s : List UInt8) : Prop := ∀ p t, s = p ++ t → escape? t = none

lemma plain_cons {c : UInt8} {s : List UInt8} :
    Plain (c :: s) ↔ escape? (c :: s) = none ∧ Plain s := by
  constructor
  · exact fun h => ⟨h [] _ rfl, fun p t ht => h (c :: p) t (congrArg _ ht)⟩
  · rintro ⟨hesc, hs⟩ p t ht
    rcases List.cons_eq_append_iff.mp ht with ⟨rfl, rfl⟩ | ⟨p', rfl, ht'⟩
    · exact hesc
    · exact hs p' t ht'

lemma plain_of_notMem {s : List UInt8} (h : 37 ∉ s) : Plain s := by
  rintro p t rfl
  rcases t with _ | ⟨c, t⟩
  · rfl
  · exact escape?_of_ne (fun hc => h (hc ▸ List.mem_append_right p List.mem_cons_self)) t

lemma length_decode_le (s : List UInt8) : (decode s).length ≤ s.length := by
  induction s using decode.induct with
  | case1 => rw [decode_nil]
  | case2 c t c' s' hesc ih =>
      rw [decode_escape hesc, List.length_cons]
      exact (Nat.succ_le_succ ih).trans (escape?_length hesc)
  | case3 c t hesc ih =>
      rw [decode_plain hesc, List.length_cons]
      exact Nat.succ_le_succ ih

/-- **A text decodes to itself** if it has no escape, and to less if it has one. -/
theorem length_decode_eq_iff {s : List UInt8} : (decode s).length = s.length ↔ Plain s := by
  induction s using decode.induct with
  | case1 => exact iff_of_true (by rw [decode_nil]) (plain_of_notMem (by simp))
  | case2 c t c' s' hesc ih =>
      rw [plain_cons, hesc]
      refine iff_of_false (fun hlen => ?_) (fun h => nomatch h.1)
      rw [decode_escape hesc, List.length_cons] at hlen
      obtain ⟨a, b, x, y, heq, -⟩ := escape?_eq_some hesc
      have hle := length_decode_le s'
      rw [heq] at hlen
      simp only [List.length_cons] at hlen
      omega
  | case3 c t hesc ih =>
      rw [plain_cons, and_iff_right hesc, decode_plain hesc, ← ih, List.length_cons,
        List.length_cons, Nat.succ_inj]

lemma Plain.decode_eq {s : List UInt8} (h : Plain s) : decode s = s := by
  induction s with
  | nil => exact decode_nil
  | cons c s ih =>
      obtain ⟨hesc, hs⟩ := plain_cons.mp h
      rw [decode_plain hesc, ih hs]

end Reactor.Lib.PercentEncoding
