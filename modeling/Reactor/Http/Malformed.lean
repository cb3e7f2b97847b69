import Reactor.Http.Lines

/-!
What the line parsers do with malformed input.

`parseRequestHeader` takes anything. `parseRequestLine` asserts that its line has two spaces,
and it subtracts pointers before it asks whether there is a line end: without one, the size of
the line is the distance from the data to the next multiple of `2 ^ 32`, cut to an `int`, and
the call gives up only if that comes out negative or zero.
-/

namespace Reactor.Http

open Lib.Infix

/-- The call comes back, with the positions in order; and if it found no line, it has changed
nothing. -/
def Clean (b : Buffer) (r : HttpRequest) : Except Fault (Bool × HttpRequest × Buffer) → Prop
  | .ok (flag, r', b') =>
    (0 ≤ b'.m_readPos ∧ b'.m_readPos ≤ b'.m_writePos) ∧ (flag = false → b' = b ∧ r' = r)
  | .error _ => False

namespace Buffer

/-- The bytes from the start of the data to the next multiple of `2 ^ 32`. -/
def gap (b : Buffer) : ℕ := 2 ^ 32 - b.data % 2 ^ 32

/-- The first line is empty or has two spaces. If there is no line end, the data does not lie
in the upper half of its 4 GiB block; or else the block ends so early in the readable bytes
that the part up to there passes for a line. -/
def LineInOrder (b : Buffer) : Prop :=
  match find b.readable [CR, LF] with
  | some n => n = 0 ∨ 2 ≤ (b.readable.take n).count SP
  | none => 2 ^ 31 ≤ b.gap ∨
      b.gap + 2 ≤ b.readable.length ∧ 2 ≤ (b.readable.take b.gap).count SP

end Buffer

/-! ### Two spaces -/

lemma count_dropInfix {l p s : List Byte} (h : l.dropInfix? [SP] = some (p, s)) :
    SP ∉ p ∧ l = p ++ SP :: s := by
  obtain ⟨⟨i', rfl, hi⟩, hfirst⟩ := List.dropInfix?_eq_some_iff.mp h
  obtain rfl := eq_of_beq hi
  refine ⟨fun hmem => ?_, by simp⟩
  obtain ⟨p', s', rfl⟩ := List.append_of_mem hmem
  have := hfirst p' [SP] (s' ++ [SP] ++ s) (by simp) (by simp)
  simp only [List.length_append, List.length_cons] at this
  omega

lemma dropInfix_eq_none {l : List Byte} : l.dropInfix? [SP] = none ↔ SP ∉ l := by
  rw [dropInfix_eq_none_iff, List.singleton_infix_iff]

/-- A line can be cut when it has two spaces. -/
lemma cutLine_eq_none {line : List Byte} : cutLine line = none ↔ line.count SP < 2 := by
  rcases hm : line.dropInfix? [SP] with _ | ⟨method, l⟩
  · have := List.count_eq_zero.mpr (dropInfix_eq_none.mp hm)
    simp [cutLine, hm, this]
  obtain ⟨hmethod, rfl⟩ := count_dropInfix hm
  rcases hu : l.dropInfix? [SP] with _ | ⟨url, version⟩
  · have hl := List.count_eq_zero.mpr (dropInfix_eq_none.mp hu)
    simp [cutLine, hm, hu, List.count_append, List.count_eq_zero.mpr hmethod, hl]
  · obtain ⟨hurl, rfl⟩ := count_dropInfix hu
    simp only [cutLine, hm, hu, Option.bind_some, Option.map_some, List.count_append,
      List.count_cons_self, reduceCtorEq, false_iff]
    omega

/-- The two spaces of a line that can be cut lie in front of the version. -/
lemma two_le_count_take {l method url version : List Byte}
    (h : cutLine l = some (method, url, version)) (n : ℕ) :
    2 ≤ (l.take n).count SP ↔ method.length + 1 + url.length + 1 ≤ n := by
  obtain ⟨⟨p, s⟩, hm, hs⟩ := Option.bind_eq_some_iff.mp h
  obtain ⟨⟨u, v⟩, hu, he⟩ := Option.map_eq_some_iff.mp hs
  obtain ⟨rfl, rfl, rfl⟩ : p = method ∧ u = url ∧ v = version := by simpa using he
  obtain ⟨hmethod, rfl⟩ := count_dropInfix hm
  obtain ⟨hurl, hl⟩ := count_dropInfix hu
  simp only at hl
  subst hl
  have hfront : (p ++ SP :: (u ++ SP :: v)).take (p.length + 1 + u.length) = p ++ SP :: u := by
    rw [show p ++ SP :: (u ++ SP :: v) = (p ++ SP :: u) ++ SP :: v by simp]
    refine List.take_left' ?_
    rw [List.length_append, List.length_cons]
    omega
  have hcount : (p ++ SP :: u).count SP = 1 := by
    rw [List.count_append, List.count_cons_self, List.count_eq_zero.mpr hmethod,
      List.count_eq_zero.mpr hurl]
  constructor
  · intro htwo
    by_contra hlt
    have hle : (p ++ SP :: (u ++ SP :: v)).take n <+: p ++ SP :: u := by
      rw [← hfront]
      exact List.take_prefix_take_left (by omega)
    have := hle.sublist.count_le SP
    omega
  · intro hle
    have hsub : p ++ SP :: (u ++ [SP]) <+: (p ++ SP :: (u ++ SP :: v)).take n := by
      refine List.prefix_take_iff.mpr ⟨⟨v, by simp⟩, ?_⟩
      simp only [List.length_append, List.length_cons, List.length_nil]
      omega
    have := hsub.sublist.count_le SP
    simp only [List.count_append, List.count_cons_self] at this
    omega

/-! ### With a line end -/

namespace HttpRequest

variable {b : Buffer} (hv : b.Valid)
include hv

lemma clean_skip {n : ℕ} (hn : n ≤ b.readable.length) (r r' : HttpRequest) :
    Clean b r (.ok (true, r', b.skip n)) :=
  ⟨⟨(hv.skip hn).readPos_nonneg, (hv.skip hn).readPos_le⟩, fun h => nomatch h⟩

lemma clean_self (r : HttpRequest) : Clean b r (.ok (false, r, b)) :=
  ⟨⟨hv.readPos_nonneg, hv.readPos_le⟩, fun _ => ⟨rfl, rfl⟩⟩

/-- **`parseRequestHeader` is clean on any input.** -/
theorem parseRequestHeader_clean (r : HttpRequest) : Clean b r (r.parseRequestHeader b) := by
  rcases hn : find b.readable [CR, LF] with _ | n
  · have : r.parseRequestHeader b = .ok (false, r, b) := by
      simp [parseRequestHeader, hv.findCRLF_eq, hn, ok_bind]
    rw [this]
    exact clean_self hv r
  · have hle : n + 2 ≤ b.readable.length := find_le hn
    rw [parseRequestHeader_eq hv hn]
    split
    · exact clean_skip hv (by omega) _ _
    · exact clean_skip hv hle _ _

lemma parseRequestLine_clean_line {n : ℕ} (hn : find b.readable [CR, LF] = some n)
    (r : HttpRequest) :
    Clean b r (r.parseRequestLine b) ↔ n = 0 ∨ 2 ≤ (b.readable.take n).count SP := by
  have hle : n + 2 ≤ b.readable.length := find_le hn
  rw [parseRequestLine_eq hv hn]
  rcases Nat.eq_zero_or_pos n with rfl | hpos
  · simpa using clean_self hv r
  rw [if_neg (by omega)]
  rcases hc : cutLine (b.readable.take n) with _ | ⟨method, url, version⟩
  · have := cutLine_eq_none.mp hc
    simp only [Clean, false_iff]
    omega
  · have : ¬ (b.readable.take n).count SP < 2 := fun h => by
      rw [cutLine_eq_none.mpr h] at hc
      cases hc
    exact iff_of_true (clean_skip hv hle _ _) (Or.inr (by omega))

/-! ### Without a line end -/

omit hv in
lemma toInt_null_sub (h : b.gap < 2 ^ 31) {k : ℕ} (hk : k < 2 ^ 31) :
    toInt (((nullptr : ℕ) : ℤ) - ((b.data + k : ℕ) : ℤ)) = (b.gap : ℤ) - k := by
  unfold Buffer.gap at *
  unfold toInt nullptr
  rw [Int.bmod_def]
  split <;> omega

omit hv in
lemma toInt_null_nonpos (h : 2 ^ 31 ≤ b.gap) :
    toInt (((nullptr : ℕ) : ℤ) - (b.data : ℤ)) ≤ 0 := by
  unfold Buffer.gap at *
  unfold toInt nullptr
  rw [Int.bmod_def]
  split <;> omega

/-- Without a line end, a space is searched for to the end of the address space. -/
lemma splitRequestLine_null {k : ℕ} (hk : k ≤ b.readable.length) :
    splitRequestLine (b.data + k) nullptr (some [SP]) b =
      match (b.readable.drop k).dropInfix? [SP] with
      | some r => .ok (r.1, b.data + (k + r.1.length + 1))
      | none => .error .outside := by
  have hend := hv.data_add_lt
  have hlt := hv.readable_lt
  have hsize : toSize (((nullptr : ℕ) : ℤ) - ((b.data + k : ℕ) : ℤ)) =
      2 ^ 64 - (b.data + k) := by
    have := hv.zero_lt_data
    unfold toSize nullptr
    omega
  have hlen : ¬ 2 ^ 64 - (b.data + k) ≤ (b.readable.drop k).length := by
    rw [List.length_drop]
    omega
  have htake : (b.readable.drop k).take (2 ^ 64 - (b.data + k)) = b.readable.drop k :=
    List.take_of_length_le (by omega)
  simp only [splitRequestLine, hsize, Buffer.memmem, Buffer.Valid.region_add, htake, if_neg hlen]
  rcases hf : find (b.readable.drop k) [SP] with _ | i
  · simp [dropInfix_of_find_none hf, error_bind]
  · have hi := find_le hf
    simp only [List.length_drop, List.length_singleton] at hi
    have hsub := hv.toInt_piece (k := k) (i := i) (by omega)
    have hdata := hv.zero_lt_data
    have hnull : b.data + k + i ≠ nullptr := by unfold nullptr; omega
    have hi' : ((b.readable.drop k).take i).length = i := by
      rw [List.length_take, List.length_drop]
      omega
    simp only [dropInfix_of_find hf, ok_bind, if_neg hnull, hsub]
    rw [Buffer.Valid.string_eq (by omega), hi', ok_bind, Nat.add_assoc, Nat.add_assoc,
      Nat.add_assoc]

/-- What is taken for the version is what lies before the next multiple of `2 ^ 32`. -/
lemma splitRequestLine_null_end (h : b.gap < 2 ^ 31) {k : ℕ} (hk : k ≤ b.readable.length) :
    splitRequestLine (b.data + k) nullptr none b =
      if b.gap < k then .error .lengthError
      else if b.gap ≤ b.readable.length then
        .ok ((b.readable.take b.gap).drop k, nullptr + 1)
      else .error .outside := by
  have hlt := hv.readable_lt
  simp only [splitRequestLine, ok_bind, toInt_null_sub h (show k < 2 ^ 31 by omega)]
  unfold Buffer.string
  rw [Buffer.Valid.region_add, List.length_drop]
  have hnat : ((b.gap : ℤ) - k).toNat = b.gap - k := by omega
  rcases Nat.lt_or_ge b.gap k with hgk | hgk
  · rw [if_pos (by omega), if_pos hgk, error_bind]
  have hpos : ¬ (b.gap : ℤ) - k < 0 := by omega
  rw [if_neg hpos, if_neg (Nat.not_lt.mpr hgk), hnat, List.drop_take]
  rcases Nat.lt_or_ge b.readable.length b.gap with hgl | hgl
  · rw [if_neg (by omega), if_neg (Nat.not_le.mpr hgl), error_bind]
  · rw [if_pos (by omega), if_pos hgl, ok_bind]

/-- Without a line end, the call gives up when the size of the line does not come out
positive. -/
lemma parseRequestLine_none (hn : find b.readable [CR, LF] = none) (h : 2 ^ 31 ≤ b.gap)
    (r : HttpRequest) : r.parseRequestLine b = .ok (false, r, b) := by
  have hsize := toInt_null_nonpos h
  simp only [parseRequestLine, hv.findCRLF_eq, hn, ok_bind]
  rw [if_neg (by omega)]

/-- What `parseRequestLine` does without a line end, when the size of the line comes out
positive. -/
lemma parseRequestLine_gap (hn : find b.readable [CR, LF] = none) (h : b.gap < 2 ^ 31)
    (r : HttpRequest) :
    r.parseRequestLine b =
      match cutLine b.readable with
      | none => .error .outside
      | some (method, url, _) =>
        if b.gap < method.length + 1 + url.length + 1 then .error .lengthError
        else if b.gap ≤ b.readable.length then
          .ok (true, ⟨method, url,
              (b.readable.take b.gap).drop (method.length + 1 + url.length + 1),
              r.m_reqHeaders, .ParseReqHeaders⟩,
            b.readPosIncrease (toInt (b.gap + 2)))
        else .error .outside := by
  have hgap : 0 < b.gap := by unfold Buffer.gap; omega
  have hsize : toInt (((nullptr : ℕ) : ℤ) - (b.data : ℤ)) = b.gap := by
    have := toInt_null_sub h (k := 0) (Nat.two_pow_pos 31)
    rwa [Nat.cast_zero, Int.sub_zero, Nat.add_zero] at this
  simp only [parseRequestLine, hv.findCRLF_eq, hn, ok_bind, hsize]
  rw [if_pos (by omega)]
  have hmethod := splitRequestLine_null hv (k := 0) (by omega)
  simp only [Nat.add_zero, List.drop_zero, Nat.zero_add] at hmethod
  rcases hm : b.readable.dropInfix? [SP] with _ | ⟨method, line⟩
  · simp only [hm] at hmethod
    simp only [hmethod, error_bind, cutLine, hm, Option.bind_none]
  obtain ⟨-, hline, hmn⟩ := eq_of_dropInfix hm
  simp only [List.length_singleton] at hline hmn
  have hurl := splitRequestLine_null hv hmn
  simp only [hm] at hmethod
  rw [← hline] at hurl
  rcases hu : line.dropInfix? [SP] with _ | ⟨url, version⟩
  · simp only [hu] at hurl
    simp only [hmethod, hurl, ok_bind, error_bind, cutLine, hm, hu, Option.bind_some,
      Option.map_none]
  obtain ⟨-, -, hun⟩ := eq_of_dropInfix hu
  have hlen := congrArg List.length hline
  simp only [List.length_drop, List.length_singleton] at hlen hun
  have hend := splitRequestLine_null_end hv h
    (show method.length + 1 + url.length + 1 ≤ b.readable.length by omega)
  simp only [hu] at hurl
  simp only [hmethod, hurl, ok_bind, cutLine, hm, hu, Option.bind_some, Option.map_some]
  rw [hend]
  split_ifs <;> simp only [ok_bind, error_bind]

lemma parseRequestLine_clean_gap (hn : find b.readable [CR, LF] = none) (h : b.gap < 2 ^ 31)
    (r : HttpRequest) :
    Clean b r (r.parseRequestLine b) ↔
      b.gap + 2 ≤ b.readable.length ∧ 2 ≤ (b.readable.take b.gap).count SP := by
  rw [parseRequestLine_gap hv hn h]
  rcases hc : cutLine b.readable with _ | ⟨method, url, version⟩
  · have hcount := cutLine_eq_none.mp hc
    have hle := List.Sublist.count_le SP (List.take_sublist b.gap b.readable)
    simp only [Clean, false_iff]
    omega
  have htwo := two_le_count_take hc b.gap
  simp only
  rw [htwo]
  rcases Nat.lt_or_ge b.gap (method.length + 1 + url.length + 1) with hgk | hgk
  · rw [if_pos hgk]
    simp only [Clean, false_iff]
    omega
  rw [if_neg (Nat.not_lt.mpr hgk)]
  rcases Nat.lt_or_ge b.readable.length b.gap with hgl | hgl
  · rw [if_neg (Nat.not_le.mpr hgl)]
    simp only [Clean, false_iff]
    omega
  rw [if_pos hgl]
  rcases Nat.lt_or_ge b.readable.length (b.gap + 2) with hlt | hle
  · refine iff_of_false ?_ (by omega)
    -- the position comes out behind `m_writePos`, or wraps around and comes out negative
    rintro ⟨⟨hpos, hpos'⟩, -⟩
    have := hv.length_readable
    have := hv.readPos_nonneg
    have := hv.writePos_le
    have := hv.capacity_lt
    simp only [Buffer.readPosIncrease, toInt, Int.bmod_def] at hpos hpos'
    omega
  · rw [hv.skip_line hle]
    exact iff_of_true (clean_skip hv hle _ _) ⟨hle, hgk⟩

/-- **Malformed input.** `parseRequestHeader` is clean on every buffer, and `parseRequestLine`
on those whose first line is in order. -/
theorem parse_clean_iff (r : HttpRequest) :
    (Clean b r (r.parseRequestLine b) ↔ b.LineInOrder) ∧
      Clean b r (r.parseRequestHeader b) := by
  refine ⟨?_, parseRequestHeader_clean hv r⟩
  unfold Buffer.LineInOrder
  rcases hn : find b.readable [CR, LF] with _ | n
  · rcases Nat.lt_or_ge b.gap (2 ^ 31) with h | h
    · simp only [parseRequestLine_clean_gap hv hn h, show ¬ 2 ^ 31 ≤ b.gap by omega, false_or]
    · rw [parseRequestLine_none hv hn h]
      exact iff_of_true (clean_self hv r) (Or.inl h)
  · exact parseRequestLine_clean_line hv hn r

end HttpRequest

/-! ### Two inputs -/

/-- The line `GET /`, with one space. -/
def oneSpace : Buffer where
  m_data := 4096
  bytes := [71, 69, 84, 32, 47, 13, 10]
  m_readPos := 0
  m_writePos := 7

/-- The bytes `GET` of a request still to come, 16 bytes in front of a multiple of `2 ^ 32`. -/
def incomplete : Buffer where
  m_data := 2 ^ 32 - 16
  bytes := [71, 69, 84]
  m_readPos := 0
  m_writePos := 3

lemma oneSpace_valid : oneSpace.Valid := by
  constructor <;> decide

lemma incomplete_valid : incomplete.Valid := by
  constructor <;> decide

/-- On the first the assertion fails, on the second the search for a space leaves the
buffer. -/
theorem parseRequestLine_not_clean :
    (oneSpace.Valid ∧ HttpRequest.reset.m_curState = .ParseReqLine ∧
      HttpRequest.reset.parseRequestLine oneSpace = .error .assertion ∧
      ¬ Clean oneSpace .reset (HttpRequest.reset.parseRequestLine oneSpace)) ∧
    incomplete.Valid ∧ HttpRequest.reset.parseRequestLine incomplete = .error .outside ∧
      ¬ Clean incomplete .reset (HttpRequest.reset.parseRequestLine incomplete) := by
  have h₁ : HttpRequest.reset.parseRequestLine oneSpace = .error .assertion := by
    decide +kernel
  have h₂ : HttpRequest.reset.parseRequestLine incomplete = .error .outside := by
    decide +kernel
  refine ⟨⟨oneSpace_valid, rfl, h₁, ?_⟩, incomplete_valid, h₂, ?_⟩
  · rw [h₁]
    exact id
  · rw [h₂]
    exact id

/-- The condition and what it decides, on the first of the two. -/
theorem parse_clean_iff_oneSpace :
    ¬ Clean oneSpace .reset (HttpRequest.reset.parseRequestLine oneSpace) ∧
      Clean oneSpace .reset (HttpRequest.reset.parseRequestHeader oneSpace) := by
  have h := HttpRequest.parse_clean_iff oneSpace_valid .reset
  refine ⟨fun hc => ?_, h.2⟩
  have : ¬ oneSpace.LineInOrder := by
    unfold Buffer.LineInOrder
    rw [show find oneSpace.readable [CR, LF] = some 5 by decide +kernel]
    decide +kernel
  exact this (h.1.mp hc)

end Reactor.Http
