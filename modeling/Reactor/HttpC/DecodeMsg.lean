import Reactor.HttpC.HttpRequest
import Reactor.Lib.Memory
import Reactor.Lib.PercentEncoding

/-!
`decodeMsg` of the C version of the server, which is called with one pointer for both of its
arguments: each byte of the block that is read or written, and what it leaves behind.
-/

namespace Reactor.HttpC

open Lib.Memory Lib.PercentEncoding
open Http (cstr cstr_append_null cstr_of_notMem isxdigit hexToDec)

/-! ### The loop in place -/

/-- A byte of the block is read, or written while the one at `from_` is decoded. -/
inductive Access
  | read (i : ℕ)
  | write (to_ from_ : ℕ)

/-- The block, and which of its bytes have been touched. -/
structure Cells where
  mem : List Byte
  touched : List Access

namespace Cells

def touch (log : List Access) (x : Cells) : Cells := { x with touched := x.touched ++ log }

def set (i : ℕ) (c : Byte) (x : Cells) : Cells := { x with mem := x.mem.set i c }

def read (i : ℕ) (x : Cells) : Option (Byte × Cells) :=
  x.mem[i]?.map fun c => (c, x.touch [.read i])

def write (to_ from_ : ℕ) (c : Byte) (x : Cells) : Option Cells :=
  if to_ < x.mem.length then some ((x.set to_ c).touch [.write to_ from_]) else none

/-- The test for `%` and two digits, which reads no further than it has to. -/
def isEscape (from_ : ℕ) (x : Cells) : Option (Bool × Cells) := do
  let (c, x) ← x.read from_
  if c ≠ 37 then some (false, x)
  else do
    let (c₁, x) ← x.read (from_ + 1)
    if ¬ isxdigit c₁ then some (false, x)
    else do
      let (c₂, x) ← x.read (from_ + 2)
      some (isxdigit c₂, x)

/-- One round of the loop, and where it leaves `from`. -/
def decodeRound (to_ from_ : ℕ) (x : Cells) : Option (ℕ × Cells) := do
  let (escape, x) ← x.isEscape from_
  if escape then do
    let (c₁, x) ← x.read (from_ + 1)
    let (c₂, x) ← x.read (from_ + 2)
    let x ← x.write to_ from_ (UInt8.ofNat (hexToDec c₁ * 16 + hexToDec c₂))
    some (from_ + 2 + 1, x)
  else do
    let (c, x) ← x.read from_
    let x ← x.write to_ from_ c
    some (from_ + 1, x)

/-- The loop, within a number of rounds. -/
def decodeLoop : ℕ → ℕ → ℕ → Cells → Option Cells
  | 0, _, _, _ => none
  | rounds + 1, to_, from_, x => do
    let (c, x) ← x.read from_
    if c = 0 then x.write to_ from_ 0
    else do
      let (from_, x) ← x.decodeRound to_ from_
      decodeLoop rounds (to_ + 1) from_ x

end Cells

/-- `decodeMsg(p, p)`, on the block at `p`. -/
def decodeInPlace (mem : List Byte) : Option Cells :=
  Cells.decodeLoop mem.length 0 0 { mem := mem, touched := [] }

/-! ### The code's test and the library's -/

lemma isxdigit_eq (c : Byte) : isxdigit c = (digit? c).isSome := by
  unfold isxdigit digit?
  split_ifs with h1 h2 h3
  · exact decide_eq_true (Or.inl h1)
  · exact decide_eq_true (Or.inr (Or.inl h2))
  · exact decide_eq_true (Or.inr (Or.inr h3))
  · exact decide_eq_false (not_or.mpr ⟨h1, not_or.mpr ⟨h2, h3⟩⟩)

lemma hexToDec_eq {c : Byte} {x : ℕ} (h : digit? c = some x) : hexToDec c = x := by
  unfold digit? at h
  unfold hexToDec
  split_ifs at h ⊢ <;> exact Option.some.inj h

lemma escape?_eq_ite (c c₁ c₂ : Byte) (s : List Byte) : escape? (c :: c₁ :: c₂ :: s) =
    if c = 37 ∧ isxdigit c₁ ∧ isxdigit c₂ then
      some (UInt8.ofNat (hexToDec c₁ * 16 + hexToDec c₂), s)
    else none := by
  rw [escape?, isxdigit_eq, isxdigit_eq]
  rcases h₁ : digit? c₁ with _ | x
  · simp
  rcases h₂ : digit? c₂ with _ | y
  · simp
  rw [hexToDec_eq h₁, hexToDec_eq h₂]
  simp

/-- **The loop of `decodeMsg` is the decoder.** -/
lemma decode_eq (s : List Byte) : Http.decode s = decode s := by
  induction s using Http.decode.induct with
  | case1 c c₁ c₂ s h ih =>
      have hesc := (escape?_eq_ite c c₁ c₂ s).trans (if_pos h)
      rw [Http.decode, if_pos h, decode_escape hesc, ih]
  | case2 c c₁ c₂ s h ih =>
      have hesc := (escape?_eq_ite c c₁ c₂ s).trans (if_neg h)
      rw [Http.decode, if_neg h, decode_plain hesc, ih]
  | case3 s h =>
      rcases s with _ | ⟨c, _ | ⟨c₁, _ | ⟨c₂, s⟩⟩⟩
      · exact decode_nil.symm
      · rw [decode_plain rfl, decode_nil]
        rfl
      · rw [decode_plain rfl, decode_plain rfl, decode_nil]
        rfl
      · exact absurd rfl (h c c₁ c₂ s)

/-! ### One round -/

/-- What is read is in front of the byte `n` or is it, and what is written is not behind what is
being read. -/
def Access.Within (n : ℕ) : Access → Prop
  | .read i => i ≤ n
  | .write to_ from_ => to_ ≤ from_

namespace Cells

variable {x : Cells} {to_ from_ : ℕ} {s rest : List Byte}

@[simp] lemma touch_mem (log : List Access) (x : Cells) : (x.touch log).mem = x.mem := rfl

@[simp] lemma touch_touch (log log' : List Access) (x : Cells) :
    (x.touch log).touch log' = x.touch (log ++ log') := by
  rw [touch, touch, touch, List.append_assoc]

@[simp] lemma set_mem (i : ℕ) (c : Byte) (x : Cells) : (x.set i c).mem = x.mem.set i c := rfl

@[simp] lemma set_touch (i : ℕ) (c : Byte) (log : List Access) (x : Cells) :
    (x.touch log).set i c = (x.set i c).touch log := rfl

lemma read_eq {l : List Byte} (hx : x.mem.drop from_ = l) {k : ℕ} {c : Byte}
    (hk : l[k]? = some c) : x.read (from_ + k) = some (c, x.touch [.read (from_ + k)]) := by
  rw [read, ← List.getElem?_drop, hx, hk]
  rfl

lemma isEscape_of_ne {l : List Byte} {c : Byte} (hx : x.mem.drop from_ = c :: l) (hc : c ≠ 37) :
    x.isEscape from_ = some (false, x.touch [.read from_]) := by
  have h0 : x.read from_ = _ := read_eq (k := 0) hx rfl
  rw [isEscape, h0]
  exact if_pos hc

lemma isEscape_of_not_digit {l : List Byte} {c₁ : Byte}
    (hx : x.mem.drop from_ = 37 :: c₁ :: l) (h₁ : ¬ isxdigit c₁) :
    x.isEscape from_ = some (false, x.touch [.read from_, .read (from_ + 1)]) := by
  have h0 : x.read from_ = _ := read_eq (k := 0) hx rfl
  have h1 := read_eq (x := x.touch [.read from_]) (k := 1) hx rfl
  simp [isEscape, h0, h1, h₁]

lemma isEscape_of_digit {l : List Byte} {c₁ c₂ : Byte}
    (hx : x.mem.drop from_ = 37 :: c₁ :: c₂ :: l) (h₁ : isxdigit c₁) :
    x.isEscape from_ = some (isxdigit c₂,
      x.touch [.read from_, .read (from_ + 1), .read (from_ + 2)]) := by
  have h0 : x.read from_ = _ := read_eq (k := 0) hx rfl
  have h1 := read_eq (x := x.touch [.read from_]) (k := 1) hx rfl
  have h2 := read_eq (x := x.touch [.read from_, .read (from_ + 1)]) (k := 2) hx rfl
  simp [isEscape, h0, h1, h2, h₁]

/-- **The test** finds an escape, and reads no further than the null byte. -/
lemma isEscape_eq (hx : x.mem.drop from_ = s ++ 0 :: rest) (hne : s ≠ []) :
    ∃ log, x.isEscape from_ = some ((escape? s).isSome, x.touch log) ∧
      ∀ a ∈ log, a.Within (from_ + s.length) := by
  rcases s with _ | ⟨c, s⟩
  · exact absurd rfl hne
  by_cases hc : c ≠ 37
  · refine ⟨_, by rw [isEscape_of_ne hx hc, escape?_of_ne hc]; rfl, ?_⟩
    simp [Access.Within]
  rw [not_not] at hc
  subst hc
  rcases s with _ | ⟨c₁, s⟩
  · -- the null byte is no digit
    refine ⟨_, isEscape_of_not_digit hx (by decide), ?_⟩
    simp [Access.Within]
  by_cases h₁ : isxdigit c₁
  · rcases s with _ | ⟨c₂, s⟩
    · refine ⟨_, isEscape_of_digit hx h₁, ?_⟩
      simp [Access.Within]
    · refine ⟨[.read from_, .read (from_ + 1), .read (from_ + 2)],
        (isEscape_of_digit hx h₁).trans ?_, ?_⟩
      · rw [escape?_eq_ite]
        by_cases h₂ : isxdigit c₂
        · rw [if_pos ⟨rfl, h₁, h₂⟩, h₂]
          rfl
        · rw [if_neg (fun h => h₂ h.2.2), Bool.eq_false_of_not_eq_true h₂]
          rfl
      · simp [Access.Within]
  · refine ⟨[.read from_, .read (from_ + 1)], (isEscape_of_not_digit hx h₁).trans ?_, ?_⟩
    · rcases s with _ | ⟨c₂, s⟩
      · rfl
      · rw [escape?_eq_ite, if_neg (fun h => h₁ h.2.1)]
        rfl
    · simp [Access.Within]

/-- What a round writes, and what is left to decode after it. -/
lemma exists_decoded (hne : s ≠ []) : ∃ c p s', s = p ++ s' ∧ p ≠ [] ∧
    decode s = c :: decode s' ∧
    ((∃ c₁ c₂, (escape? s).isSome ∧ p = [37, c₁, c₂] ∧
      c = UInt8.ofNat (hexToDec c₁ * 16 + hexToDec c₂)) ∨ escape? s = none ∧ p = [c]) := by
  rcases s with _ | ⟨c, s⟩
  · exact absurd rfl hne
  rcases hesc : escape? (c :: s) with _ | ⟨c', s'⟩
  · exact ⟨c, [c], s, rfl, List.cons_ne_nil _ _, decode_plain hesc, Or.inr ⟨rfl, rfl⟩⟩
  · obtain ⟨c₁, c₂, y₁, y₂, heq, h₁, h₂, rfl⟩ := escape?_eq_some hesc
    refine ⟨_, [37, c₁, c₂], s', heq, List.cons_ne_nil _ _, decode_escape hesc,
      Or.inl ⟨c₁, c₂, rfl, rfl, ?_⟩⟩
    rw [hexToDec_eq h₁, hexToDec_eq h₂]

/-- What is written in front of the null byte is written inside the memory. -/
lemma lt_length_of_drop_eq (hx : x.mem.drop from_ = s ++ 0 :: rest) (hto : to_ ≤ from_) :
    to_ < x.mem.length := by
  have hlen := congrArg List.length hx
  simp only [List.length_drop, List.length_append, List.length_cons] at hlen
  omega

/-- **A round** writes the next byte, where it reads or before. -/
lemma decodeRound_eq (hx : x.mem.drop from_ = s ++ 0 :: rest) (hne : s ≠ []) (hto : to_ ≤ from_) :
    ∃ c p s' log, s = p ++ s' ∧ p ≠ [] ∧ decode s = c :: decode s' ∧
      x.decodeRound to_ from_ =
        some (from_ + p.length, (x.set to_ c).touch log) ∧
      ∀ a ∈ log, a.Within (from_ + s.length) := by
  obtain ⟨log, hesc, hlog⟩ := isEscape_eq hx hne
  obtain ⟨c, p, s', rfl, hp, hdec, hround⟩ := exists_decoded hne
  have hlt := lt_length_of_drop_eq hx hto
  rcases hround with ⟨c₁, c₂, hsome, rfl, rfl⟩ | ⟨hnone, rfl⟩
  · have h1 := read_eq (x := x.touch log) (k := 1) hx rfl
    have h2 := read_eq (x := x.touch (log ++ [.read (from_ + 1)])) (k := 2) hx rfl
    rw [hsome] at hesc
    refine ⟨_, _, s', log ++ [.read (from_ + 1), .read (from_ + 2), .write to_ from_], rfl, hp,
      hdec, by simp [decodeRound, hesc, h1, h2, write, hlt], ?_⟩
    simp only [List.mem_append]
    rintro a (ha | ha)
    · exact hlog a ha
    · fin_cases ha <;> simp only [Access.Within, List.length_append, List.length_cons] <;> omega
  · have h0 : (x.touch log).read from_ = _ := read_eq (x := x.touch log) (k := 0) hx rfl
    rw [hnone] at hesc
    refine ⟨c, [c], s', log ++ [.read from_, .write to_ from_], rfl, hp, hdec,
      by simp [decodeRound, hesc, h0, write, hlt], ?_⟩
    simp only [List.mem_append]
    rintro a (ha | ha)
    · exact hlog a ha
    · fin_cases ha <;> simp only [Access.Within] <;> omega

/-- **The loop** comes to the null byte, and leaves the decoded text in front of what was behind
it. -/
lemma decodeLoop_eq {rounds : ℕ} (hrounds : s.length < rounds)
    (hx : x.mem.drop from_ = s ++ 0 :: rest) (hs : 0 ∉ s) (hto : to_ ≤ from_) :
    ∃ log, decodeLoop rounds to_ from_ x =
        some { mem := x.mem.take to_ ++ decode s ++ 0 :: x.mem.drop (to_ + (decode s).length + 1)
               touched := x.touched ++ log } ∧
      ∀ a ∈ log, a.Within (from_ + s.length) := by
  induction rounds generalizing s to_ from_ x with
  | zero => exact absurd hrounds (Nat.not_lt_zero _)
  | succ rounds ih =>
      have hlt := lt_length_of_drop_eq hx hto
      by_cases hne : s = []
      · subst hne
        have h0 : x.read from_ = _ := read_eq (k := 0) hx rfl
        refine ⟨[.read from_, .write to_ from_], ?_, by simp [Access.Within, hto]⟩
        simp [decodeLoop, h0, write, hlt, touch, set, List.set_eq_take_append_cons_drop]
      · obtain ⟨c₀, t, rfl⟩ := List.exists_cons_of_ne_nil hne
        have h0 : x.read from_ = _ := read_eq (k := 0) hx rfl
        have hc₀ : c₀ ≠ 0 := fun h => hs (h ▸ List.mem_cons_self)
        obtain ⟨c, p, s', log, heq, hp, hdec, hround, hlog⟩ :=
          decodeRound_eq (x := x.touch [.read from_]) hx hne hto
        have hplen := List.length_pos_of_ne_nil hp
        have hlen := congrArg List.length heq
        simp only [List.length_append, List.length_cons] at hlen
        have hrounds' : s'.length < rounds := by
          simp only [List.length_cons] at hrounds
          omega
        -- what is still to be read is what was there, for the byte written lies in front of it
        have hnext : ((x.set to_ c).touch ([.read from_] ++ log)).mem.drop (from_ + p.length) =
            s' ++ 0 :: rest := by
          change (x.mem.set to_ c).drop (from_ + p.length) = _
          rw [List.drop_set_of_lt (by omega), ← List.drop_drop, hx, heq, List.append_assoc,
            List.drop_left]
        have hs' : 0 ∉ s' := fun h => hs (heq ▸ List.mem_append_right p h)
        have hto' : to_ + 1 ≤ from_ + p.length := by omega
        obtain ⟨log', hloop, hlog'⟩ := ih hrounds' hnext hs' hto'
        have htake : (x.mem.set to_ c).take (to_ + 1) = x.mem.take to_ ++ [c] :=
          take_succ_set c hlt
        have hdrop : (x.mem.set to_ c).drop (to_ + 1 + (decode s').length + 1) =
            x.mem.drop (to_ + (decode (c₀ :: t)).length + 1) := by
          rw [List.drop_set_of_lt (by omega), hdec, List.length_cons]
          congr 1
          omega
        refine ⟨[.read from_] ++ log ++ log', ?_, ?_⟩
        · rw [set_touch, touch_touch] at hround
          calc decodeLoop (rounds + 1) to_ from_ x
              = decodeLoop rounds (to_ + 1) (from_ + p.length)
                  ((x.set to_ c).touch ([.read from_] ++ log)) := by
                simp [decodeLoop, h0, hc₀, hround]
            _ = _ := hloop
            _ = _ := by
                simp only [htake, hdrop, hdec, touch, set, List.append_assoc, List.cons_append,
                  List.nil_append]
        · simp only [List.mem_append, List.mem_singleton]
          rintro a ((rfl | ha) | ha)
          · exact Nat.le_add_right _ _
          · exact hlog a ha
          · have := hlog' a ha
            rwa [show from_ + p.length + s'.length = from_ + (c₀ :: t).length by
              rw [List.length_cons]; omega] at this

end Cells

/-! ### The string left behind -/

/-- **In place** the block is left as the model of `processHttpRequest` has it. -/
lemma decodeInPlace_eq {s : List Byte} (hs : 0 ∉ s) (rest : List Byte) :
    ∃ log, decodeInPlace (s ++ 0 :: rest) =
        some { mem := decodeMsg (s ++ 0 :: rest), touched := log } ∧
      ∀ a ∈ log, a.Within s.length := by
  have hrounds : s.length < (s ++ 0 :: rest).length := by
    rw [List.length_append, List.length_cons]
    omega
  obtain ⟨log, hloop, hlog⟩ := Cells.decodeLoop_eq (x := ⟨s ++ 0 :: rest, []⟩) hrounds
    (List.drop_zero) hs le_rfl
  refine ⟨log, ?_, by simpa using hlog⟩
  rw [decodeInPlace, hloop, decodeMsg, cstr_append_null, cstr_of_notMem hs, decode_eq]
  simp

/-- Both versions leave the string that the text is decoded to. -/
lemma cstr_decodeMsg {s : List Byte} (hs : 0 ∉ s) (rest : List Byte) :
    cstr (decodeMsg (s ++ 0 :: rest)) = cstr (decode s) ∧
      cstr (Http.decodeMsg s) = cstr (decode s) := by
  rw [decodeMsg, Http.decodeMsg, cstr_append_null, cstr_of_notMem hs, decode_eq, List.append_assoc]
  exact ⟨cstr_append_null _ _, cstr_append_null _ _⟩

/-- **`decodeMsg` of both versions.** In place it ends, reads nothing behind the null byte and
writes nothing behind what it reads. It leaves the decoded string, as the other version returns it,
and what has been encoded is decoded. -/
theorem decodeMsg_decodes :
    (∀ s rest : List Byte, 0 ∉ s → ∃ x, decodeInPlace (s ++ 0 :: rest) = some x ∧
      (∀ a ∈ x.touched, a.Within s.length) ∧ cstr x.mem = cstr (decode s) ∧
      cstr (Http.decodeMsg s) = cstr (decode s)) ∧
    ∀ t e rest : List Byte, 0 ∉ t → Encodes t e → ∃ x, decodeInPlace (e ++ 0 :: rest) = some x ∧
      cstr x.mem = t ∧ cstr (Http.decodeMsg e) = t := by
  constructor
  · intro s rest hs
    obtain ⟨log, hplace, hlog⟩ := decodeInPlace_eq hs rest
    exact ⟨_, hplace, hlog, cstr_decodeMsg hs rest⟩
  · intro t e rest ht he
    have hs := he.zero_notMem ht
    obtain ⟨log, hplace, -⟩ := decodeInPlace_eq hs rest
    obtain ⟨hc, hcpp⟩ := cstr_decodeMsg hs rest
    rw [he.decode_eq, cstr_of_notMem ht] at hc hcpp
    exact ⟨_, hplace, hc, hcpp⟩

/-- The text `A%`, written as `%41%25`. -/
theorem decodeMsg_decodes_escaped :
    ∃ x, decodeInPlace ([37, 52, 49, 37, 50, 53] ++ [0]) = some x ∧ cstr x.mem = [65, 37] := by
  have he : Encodes [65, 37] [37, 52, 49, 37, 50, 53] :=
    .escape (by decide) (by decide) (.escape (by decide) (by decide) .nil)
  obtain ⟨x, hx, hmem, -⟩ := decodeMsg_decodes.2 _ _ [] (by decide) he
  exact ⟨x, hx, hmem⟩

end Reactor.HttpC
