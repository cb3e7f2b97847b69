import Reactor.Http.HttpRequest

/-!
The line parsers on the readable bytes: as long as the buffer holds a line end, the pointers
of the parser stay in the readable region, and what it does is a matter of the line alone.
-/

namespace Reactor.Http

open Lib.Infix

lemma toInt_eq {x : ℤ} (h₁ : -2 ^ 31 ≤ x) (h₂ : x < 2 ^ 31) : toInt x = x := by
  unfold toInt
  rw [Int.bmod_eq_of_le] <;> omega

lemma toSize_natCast {n : ℕ} (h : n < 2 ^ 64) : toSize n = n := by
  unfold toSize
  omega

lemma ok_bind {α β : Type} (a : α) (f : α → Except Fault β) : (Except.ok a >>= f) = f a := by
  simp only [bind, Except.bind]

lemma error_bind {α β : Type} (e : Fault) (f : α → Except Fault β) :
    (Except.error e >>= f) = .error e := by
  simp only [bind, Except.bind]

/-! ### Pointers into the readable region -/

namespace Buffer

/-- The buffer after `n` of its readable bytes. -/
def skip (n : ℕ) (b : Buffer) : Buffer := { b with m_readPos := b.m_readPos + n }

lemma skip_skip (m n : ℕ) (b : Buffer) : (b.skip m).skip n = b.skip (m + n) := by
  simp [skip, Int.add_assoc]

namespace Valid

variable {b : Buffer} (hv : b.Valid)
include hv

lemma length_readable : (b.readable.length : ℤ) = b.m_writePos - b.m_readPos := by
  have := hv.readPos_nonneg
  have := hv.readPos_le
  have := hv.writePos_le
  simp only [readable, readableSize, List.length_take, List.length_drop]
  omega

lemma readable_lt : b.readable.length < 2 ^ 31 := by
  have := hv.length_readable
  have := hv.readPos_nonneg
  have := hv.writePos_le
  have := hv.capacity_lt
  omega

lemma data_eq : (b.data : ℤ) = b.m_data + b.m_readPos := by
  have := hv.readPos_nonneg
  unfold data
  omega

/-- The readable region lies between address 0 and the last one. -/
lemma zero_lt_data : 0 < b.data := by
  have := hv.data_eq
  have := hv.readPos_nonneg
  have := hv.data_pos
  omega

lemma data_add_lt : b.data + b.readable.length < 2 ^ 64 := by
  have := hv.data_eq
  have := hv.length_readable
  have := hv.writePos_le
  have := hv.data_lt
  omega

omit hv in
lemma region_add (k : ℕ) : b.region (b.data + k) = b.readable.drop k := by
  simp [region]

lemma toInt_sub {i j : ℕ} (h : i ≤ b.readable.length) (hj : j ≤ i) :
    toInt (((b.data + i : ℕ) : ℤ) - ((b.data + j : ℕ) : ℤ)) = ((i - j : ℕ) : ℤ) := by
  have := hv.readable_lt
  rw [toInt_eq] <;> omega

/-- The length of a piece of the readable region, from its ends. -/
lemma toInt_piece {k i : ℕ} (h : k + i ≤ b.readable.length) :
    toInt (((b.data + k + i : ℕ) : ℤ) - ((b.data + k : ℕ) : ℤ)) = i := by
  rw [Nat.add_assoc, hv.toInt_sub h (Nat.le_add_right k i)]
  omega

/-- The length of a piece from the start. -/
lemma toInt_start {i : ℕ} (h : i ≤ b.readable.length) :
    toInt (((b.data + i : ℕ) : ℤ) - (b.data : ℤ)) = i := by
  simpa using hv.toInt_piece (k := 0) (i := i) (by omega)

omit hv in
/-- A search of a part of the readable region. -/
lemma memmem_eq {k len : ℕ} (h : k + len ≤ b.readable.length) (needle : List Byte) :
    b.memmem (b.data + k) len needle =
      .ok (match find ((b.readable.drop k).take len) needle with
        | some n => b.data + k + n
        | none => nullptr) := by
  have hlen : len ≤ (b.readable.drop k).length := by
    rw [List.length_drop]
    omega
  rcases hf : find ((b.readable.drop k).take len) needle with _ | n
  · simp only [memmem, region_add, hf, if_pos hlen]
  · simp only [memmem, region_add, hf]

omit hv in
lemma string_eq {k len : ℕ} (h : k + len ≤ b.readable.length) :
    b.string (b.data + k) len = .ok ((b.readable.drop k).take len) := by
  have hlen : len ≤ (b.readable.drop k).length := by
    rw [List.length_drop]
    omega
  rw [string, if_neg (by omega), region_add, Int.toNat_natCast, if_pos hlen]

lemma findCRLF_eq :
    b.findCRLF = .ok (match find b.readable [CR, LF] with
      | some n => b.data + n
      | none => nullptr) := by
  have hlen : toSize b.readableSize = b.readable.length := by
    have := hv.readable_lt
    rw [readableSize, ← hv.length_readable, toSize_natCast (by omega)]
  have := memmem_eq (show 0 + b.readable.length ≤ b.readable.length by omega) [CR, LF]
  simpa [findCRLF, hlen] using this

lemma skip_eq {n : ℕ} (h : n ≤ b.readable.length) : b.readPosIncrease n = b.skip n := by
  have := hv.length_readable
  have := hv.readPos_nonneg
  have := hv.readPos_le
  have := hv.writePos_le
  have := hv.capacity_lt
  rw [readPosIncrease, skip, toInt_eq] <;> omega

/-- Past a line and its end. -/
lemma skip_line {n : ℕ} (h : n + 2 ≤ b.readable.length) :
    b.readPosIncrease (toInt (n + 2)) = b.skip (n + 2) := by
  have := hv.readable_lt
  rw [toInt_eq (by omega) (by omega)]
  exact_mod_cast hv.skip_eq h

lemma skip {n : ℕ} (h : n ≤ b.readable.length) : (b.skip n).Valid := by
  have := hv.length_readable
  have := hv.readPos_nonneg
  have := hv.readPos_le
  exact { hv with
    readPos_nonneg := by simp only [Buffer.skip]; omega
    readPos_le := by simp only [Buffer.skip]; omega }

lemma readable_skip (n : ℕ) : (b.skip n).readable = b.readable.drop n := by
  have := hv.readPos_nonneg
  have := hv.readPos_le
  have h₁ : (b.m_readPos + n).toNat = b.m_readPos.toNat + n := by omega
  have h₂ : (b.m_writePos - (b.m_readPos + n)).toNat =
      (b.m_writePos - b.m_readPos).toNat - n := by omega
  simp only [readable, Buffer.skip, readableSize, h₁, h₂, List.drop_take, List.drop_drop]

end Valid

end Buffer

/-! ### A request line -/

/-- A line cut at its first two spaces. -/
def cutLine (line : List Byte) : Option (List Byte × List Byte × List Byte) :=
  (line.dropInfix? [SP]).bind fun r =>
    (r.2.dropInfix? [SP]).map fun s => (r.1, s.1, s.2)

namespace HttpRequest

variable {b : Buffer} (hv : b.Valid)
include hv

/-- A field of the request line, up to a space or up to the end of the line. -/
lemma splitRequestLine_space {k n : ℕ} (hk : k ≤ n) (hn : n ≤ b.readable.length) :
    splitRequestLine (b.data + k) (b.data + n) (some [SP]) b =
      match ((b.readable.take n).drop k).dropInfix? [SP] with
      | some r => .ok (r.1, b.data + (k + r.1.length + 1))
      | none => .error .assertion := by
  have hsize : toSize (((b.data + n : ℕ) : ℤ) - ((b.data + k : ℕ) : ℤ)) = n - k := by
    have hlt := hv.readable_lt
    rw [← toSize_natCast (show n - k < 2 ^ 64 by omega)]
    congr 1
    omega
  have hlen : k + (n - k) ≤ b.readable.length := by omega
  simp only [splitRequestLine, hsize, Buffer.Valid.memmem_eq hlen, List.drop_take]
  have hpos := hv.zero_lt_data
  rcases hf : find ((b.readable.drop k).take (n - k)) [SP] with _ | i
  · simp [dropInfix_of_find_none hf, ok_bind, error_bind]
  · have hi := find_le hf
    simp only [List.length_take, List.length_drop, List.length_singleton] at hi
    have hsub := hv.toInt_piece (k := k) (i := i) (by omega)
    have hnull : b.data + k + i ≠ nullptr := by unfold nullptr; omega
    simp only [dropInfix_of_find hf, ok_bind, error_bind, if_neg hnull, hsub]
    rw [Buffer.Valid.string_eq (by omega), List.take_take, Nat.min_eq_left (by omega)]
    have hi' : ((b.readable.drop k).take i).length = i := by
      rw [List.length_take, List.length_drop]
      omega
    rw [hi', ok_bind, Nat.add_assoc, Nat.add_assoc, Nat.add_assoc]

/-- The last field of the request line. -/
lemma splitRequestLine_end {k n : ℕ} (hk : k ≤ n) (hn : n ≤ b.readable.length) :
    splitRequestLine (b.data + k) (b.data + n) none b =
      .ok ((b.readable.take n).drop k, b.data + n + 1) := by
  simp only [splitRequestLine, ok_bind, hv.toInt_sub hn hk]
  rw [Buffer.Valid.string_eq (by omega), ok_bind, List.drop_take]

/-- **What `parseRequestLine` does with a line.** Nothing, if the line is empty; and its
assertion fails, if the line has fewer than two spaces. -/
theorem parseRequestLine_eq {n : ℕ} (hn : find b.readable [CR, LF] = some n)
    (r : HttpRequest) :
    r.parseRequestLine b =
      if n = 0 then .ok (false, r, b)
      else match cutLine (b.readable.take n) with
        | none => .error .assertion
        | some (method, url, version) =>
          .ok (true, ⟨method, url, version, r.m_reqHeaders, .ParseReqHeaders⟩,
            b.skip (n + 2)) := by
  have hle : n + 2 ≤ b.readable.length := find_le hn
  have hlt := hv.readable_lt
  have hsize := hv.toInt_start (i := n) (by omega)
  simp only [parseRequestLine, hv.findCRLF_eq, hn, ok_bind, hsize]
  rcases Nat.eq_zero_or_pos n with rfl | hpos
  · simp
  rw [if_pos (by omega), if_neg (by omega)]
  have hmethod := splitRequestLine_space hv (k := 0) (by omega) (show n ≤ _ by omega)
  simp only [Nat.add_zero, List.drop_zero, Nat.zero_add] at hmethod
  rcases hm : (b.readable.take n).dropInfix? [SP] with _ | ⟨method, line⟩
  · simp only [hm] at hmethod
    simp only [hmethod, error_bind, cutLine, hm, Option.bind_none]
  obtain ⟨-, hline, hmn⟩ := eq_of_dropInfix hm
  simp only [List.length_take, List.length_singleton] at hline hmn
  have hurl := splitRequestLine_space hv (k := method.length + 1) (by omega)
    (show n ≤ _ by omega)
  simp only [hm] at hmethod
  rw [← hline] at hurl
  rcases hu : line.dropInfix? [SP] with _ | ⟨url, version⟩
  · simp only [hu] at hurl
    simp only [hmethod, hurl, ok_bind, error_bind, cutLine, hm, hu, Option.bind_some,
      Option.map_none]
  obtain ⟨-, hversion, hun⟩ := eq_of_dropInfix hu
  have hlen := congrArg List.length hline
  simp only [List.length_take, List.length_drop, List.length_singleton] at hlen hversion hun
  have hend : splitRequestLine (b.data + (method.length + 1 + url.length + 1)) (b.data + n)
      none b = .ok (version, b.data + n + 1) := by
    rw [splitRequestLine_end hv (by omega) (by omega), Nat.add_assoc _ url.length,
      ← List.drop_drop, ← hline, ← hversion]
  simp only [hu] at hurl
  simp only [hmethod, hurl, hend, ok_bind, cutLine, hm, hu, Option.bind_some, Option.map_some,
    hv.skip_line hle]

/-- **What `parseRequestHeader` does with a line.** -/
theorem parseRequestHeader_eq {n : ℕ} (hn : find b.readable [CR, LF] = some n)
    (r : HttpRequest) :
    r.parseRequestHeader b =
      match (b.readable.take n).dropInfix? [COLON, SP] with
      | none => .ok (true, { r with m_curState := .ParseReqDone }, b.skip 2)
      | some (key, value) => .ok (true, r.addHeader key value, b.skip (n + 2)) := by
  have hle : n + 2 ≤ b.readable.length := find_le hn
  have hlt := hv.readable_lt
  have hdata := hv.zero_lt_data
  have hsize := hv.toInt_start (i := n) (by omega)
  have hend : b.data + n ≠ nullptr := by unfold nullptr; omega
  have hfind := Buffer.Valid.memmem_eq (show 0 + n ≤ b.readable.length by omega) [COLON, SP]
  simp only [Nat.add_zero, List.drop_zero] at hfind
  simp only [parseRequestHeader, hv.findCRLF_eq, hn, ok_bind, hsize]
  rw [if_pos hend, toSize_natCast (by omega), hfind]
  rcases hf : find (b.readable.take n) [COLON, SP] with _ | i
  · have hskip : b.readPosIncrease 2 = b.skip 2 := hv.skip_eq (n := 2) (by omega)
    simp [dropInfix_of_find_none hf, ok_bind, hskip]
  · have hi := find_le hf
    simp only [List.length_take, List.length_cons, List.length_nil] at hi
    have hmiddle : b.data + i ≠ nullptr := by unfold nullptr; omega
    have hkey := hv.toInt_start (i := i) (by omega)
    have hvalue : toInt (((b.data + n : ℕ) : ℤ) - ((b.data + i : ℕ) : ℤ) - 2) =
        ((n - (i + 2) : ℕ) : ℤ) := by
      rw [toInt_eq] <;> omega
    have hkeys := Buffer.Valid.string_eq (show 0 + i ≤ b.readable.length by omega)
    have hvals := Buffer.Valid.string_eq (show i + 2 + (n - (i + 2)) ≤ b.readable.length by omega)
    simp only [Nat.add_zero, List.drop_zero] at hkeys
    simp only [dropInfix_of_find hf, if_pos hmiddle, hkey, hvalue, Nat.add_assoc, hkeys, hvals,
      ok_bind, hv.skip_line hle]
    have hvalue' : (b.readable.take n).drop (i + [COLON, SP].length) =
        (b.readable.drop (i + 2)).take (n - (i + 2)) := List.drop_take
    rw [List.take_take, Nat.min_eq_left (by omega), hvalue']
    split_ifs with hpos
    · rfl
    · have hempty : b.readable.take i = [] ∨
          (b.readable.drop (i + 2)).take (n - (i + 2)) = [] := by
        rcases Nat.eq_zero_or_pos i with rfl | hi₀
        · exact Or.inl rfl
        · have hn₀ : n - (i + 2) = 0 := by omega
          exact Or.inr (by rw [hn₀, List.take_zero])
      rw [addHeader, if_pos hempty]

end HttpRequest

end Reactor.Http
