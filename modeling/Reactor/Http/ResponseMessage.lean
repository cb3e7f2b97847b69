import Reactor.Http.HttpResponse
import Reactor.Http.Rendering
import Reactor.Lib.HeadBody

/-!
The responses of the older HTTP server as messages: how one is written down, and what a client
makes of it, or of as much of it as has arrived.
-/

namespace Reactor.Http

open Lib.Infix Lib.HeadBody

/-! ### Numbers and file types -/

/-- The digits of a number, with a sign in front of one below 0. -/
lemma decimal_eq (n : ℤ) :
    decimal n = (if n < 0 then [45] else []) ++ ascii (Nat.repr n.natAbs) := by
  cases n with
  | ofNat k => rfl
  | negSucc k =>
      change ascii ("-" ++ Nat.repr (k + 1)) = _
      rw [ascii, String.toList_append, List.map_append, if_pos (Int.negSucc_lt_zero k)]
      rfl

/-- A digit as a byte. -/
lemma toNat_digit {d : Char} (h : d.isDigit) :
    48 ≤ d.toNat ∧ d.toNat ≤ 57 ∧ (UInt8.ofNat d.toNat).toNat = d.toNat := by
  simp only [Char.isDigit, Bool.and_eq_true, decide_eq_true_eq] at h
  have hlo : 48 ≤ d.toNat := h.1
  have hhi : d.toNat ≤ 57 := h.2
  refine ⟨hlo, hhi, ?_⟩
  rw [UInt8.toNat_ofNat']
  exact Nat.mod_eq_of_lt (by omega)

lemma mem_digits {k : ℕ} {c : Byte} (h : c ∈ ascii (Nat.repr k)) : 48 ≤ c ∧ c ≤ 57 := by
  obtain ⟨d, hd, rfl⟩ := List.mem_map.mp h
  rw [Nat.toList_repr] at hd
  obtain ⟨hlo, hhi, hd⟩ := toNat_digit (Nat.isDigit_of_mem_toDigits (by decide) (by decide) hd)
  rw [UInt8.le_iff_toNat_le, UInt8.le_iff_toNat_le, hd]
  exact ⟨hlo, hhi⟩

lemma mem_decimal {n : ℤ} {c : Byte} (h : c ∈ decimal n) : 45 ≤ c ∧ c ≤ 57 := by
  rw [decimal_eq] at h
  rcases List.mem_append.mp h with h | h
  · split_ifs at h
    · obtain rfl := List.mem_singleton.mp h
      decide
    · cases h
  · obtain ⟨hlo, hhi⟩ := mem_digits h
    exact ⟨UInt8.le_trans (by decide) hlo, hhi⟩

lemma decimal_ne_nil (n : ℤ) : decimal n ≠ [] := by
  rw [decimal_eq]
  refine List.append_ne_nil_of_right_ne_nil _ fun h => ?_
  rw [ascii, List.map_eq_nil_iff, Nat.toList_repr] at h
  exact Nat.toDigits_ne_nil h

/-- A number of 64 bits has twenty digits at most, and the sign. -/
lemma length_decimal_le {n : ℤ} (h : n.natAbs < 2 ^ 64) : (decimal n).length ≤ 21 := by
  have hdigits : (ascii (Nat.repr n.natAbs)).length ≤ 20 := by
    rw [ascii, List.length_map, Nat.toList_repr]
    exact (Nat.length_toDigits_le_iff (by decide) (by decide)).mpr (h.trans (by decide))
  rw [decimal_eq, List.length_append]
  split_ifs <;> simp only [List.length_singleton, List.length_nil] <;> omega

/-- The number that some digits stand for. -/
def number (digits : List Byte) : ℕ :=
  Nat.ofDigitChars 10 (digits.map fun c => Char.ofNat c.toNat) 0

lemma number_decimal (n : ℕ) : number (decimal n) = n := by
  have hback : (ascii (Nat.repr n)).map (fun c => Char.ofNat c.toNat) = Nat.toDigits 10 n := by
    rw [ascii, Nat.toList_repr, List.map_map]
    refine (List.map_congr_left fun d hd => ?_).trans (List.map_id _)
    have hd := toNat_digit (Nat.isDigit_of_mem_toDigits (by decide) (by decide) hd)
    rw [Function.comp_apply, hd.2.2, Char.ofNat_toNat, id]
  exact (congrArg (Nat.ofDigitChars 10 · 0) hback).trans
    (Nat.ofDigitChars_toDigits (by decide) (by decide))

/-- What holds of every file type holds of that of a name. -/
lemma of_fileTypes {P : List Byte → Prop} (hplain : P (ascii "text/plain; charset=utf-8"))
    (htypes : ∀ t ∈ fileTypes, P (ascii t.2)) (name : List Byte) : P (getFileType name) := by
  unfold getFileType
  rcases strrchr (cstr name) 46 with _ | dot
  · exact hplain
  · dsimp only
    rcases hfind : List.find? _ fileTypes with _ | t
    · exact hplain
    · exact htypes t (List.mem_of_find?_eq_some hfind)

/-! ### Messages -/

namespace Header

/-- The header that says the type of a file with a name. -/
def contentType (name : List Byte) : Header where
  key := ascii "Content-type"
  value := getFileType name
  key_ne := by decide
  value_ne := of_fileTypes (P := (· ≠ [])) (by decide) (by decide) name
  key_sep := by decide
  key_unbroken := by decide
  value_unbroken := of_fileTypes (P := Unbroken) (by decide) (by decide) name

/-- The header that says how long a body is. -/
def contentLength (n : ℤ) : Header where
  key := ascii "Content-length"
  value := decimal n
  key_ne := by decide
  value_ne := decimal_ne_nil n
  key_sep := by decide
  key_unbroken := by decide
  value_unbroken := ⟨fun h => absurd (mem_decimal h).1 (by decide),
    fun h => absurd (mem_decimal h).1 (by decide)⟩

end Header

/-- A response as a client is to see it. -/
structure Message where
  m_statusCode : StatusCode
  headers : List Header
  body : List Byte

/-- The reason phrase of a code. -/
def StatusCode.phrase (code : StatusCode) : List Byte :=
  ascii ((HttpResponse.m_info.lookup code.toNat).getD "")

/-- A status line. -/
def statusLine (code : StatusCode) (phrase : List Byte) : List Byte :=
  ascii "HTTP/1.1" ++ [SP] ++ decimal code.toNat ++ [SP] ++ phrase

def StatusCode.line (code : StatusCode) : List Byte := statusLine code code.phrase

namespace Message

/-- The status line and the header lines. -/
def lines (m : Message) : List (List Byte) := m.m_statusCode.line :: m.headers.map Header.line

/-- The bytes of a message. -/
def render (m : Message) : List Byte := join CR LF m.lines m.body

end Message

/-- A message that has been read, or the part of it that has arrived. -/
structure Received where
  version : List Byte
  code : ℕ
  phrase : List Byte
  headers : List (List Byte × List Byte)
  body : List Byte
  deriving DecidableEq

/-- How a client reads: nothing before the head is whole. -/
def receive (s : List Byte) : Option Received := do
  let (lines, body) ← split CR LF s
  let statusLine ← lines.head?
  let (version, code, phrase) ← cutLine statusLine
  let headers ← lines.tail.mapM (·.dropInfix? [COLON, SP])
  some ⟨version, number code, phrase, headers, body⟩

namespace Received

end Received

/-! ### Reading back -/

section

variable {code : StatusCode} {phrase : List Byte} {hs : List Header} {body : List Byte}

lemma cutLine_statusLine (code : StatusCode) (phrase : List Byte) :
    cutLine (statusLine code phrase) = some (ascii "HTTP/1.1", decimal code.toNat, phrase) :=
  cutLine_fields (by decide) fun h => absurd (mem_decimal h).1 (by decide)

/-- The lines of the head, read one by one. -/
lemma mapM_headers (hs : List Header) :
    (hs.map Header.line).mapM (·.dropInfix? [COLON, SP]) =
      some (hs.map fun h => (h.key, h.value)) := by
  induction hs with
  | nil => rfl
  | cons h hs ih =>
      rw [List.map_cons, List.mapM_cons, h.dropInfix_line, ih]
      rfl

/-- The lines of a head do not end early. -/
lemma line_head (hline : Line CR LF (statusLine code phrase)) :
    ∀ l ∈ statusLine code phrase :: hs.map Header.line, Line CR LF l := by
  intro l hl
  rcases List.mem_cons.mp hl with rfl | hl
  · exact hline
  · obtain ⟨h, -, rfl⟩ := List.mem_map.mp hl
    refine ⟨?_, h.line_unbroken.not_infix⟩
    simp [Header.line]

/-- **Round trip.** A client reads what was written down. -/
theorem receive_join (hline : Line CR LF (statusLine code phrase)) (hs : List Header)
    (body : List Byte) :
    receive (join CR LF (statusLine code phrase :: hs.map Header.line) body) =
      some ⟨ascii "HTTP/1.1", code.toNat, phrase, hs.map fun h => (h.key, h.value), body⟩ := by
  rw [receive, split_join (by decide) (line_head hline)]
  simp only [List.head?_cons, List.tail_cons, cutLine_statusLine, mapM_headers, number_decimal,
    Option.bind_eq_bind, Option.bind_some]

/-- **A part of a message** says nothing to a client, or is the message with a part of its body. -/
theorem receive_part (hline : Line CR LF (statusLine code phrase)) {s : List Byte}
    (h : s <+: join CR LF (statusLine code phrase :: hs.map Header.line) body) :
    receive s = none ∨ ∃ part, part <+: body ∧
      s = join CR LF (statusLine code phrase :: hs.map Header.line) part := by
  rcases split_prefix (by decide) (line_head hline) h with hnone | hpart
  · left
    simp [receive, hnone]
  · exact Or.inr hpart

/-- A part that is read as the message is the whole. -/
lemma receive_part_eq_iff (hline : Line CR LF (statusLine code phrase)) {s : List Byte}
    (h : s <+: join CR LF (statusLine code phrase :: hs.map Header.line) body) :
    receive s = receive (join CR LF (statusLine code phrase :: hs.map Header.line) body) ↔
      s = join CR LF (statusLine code phrase :: hs.map Header.line) body := by
  refine ⟨fun hs => ?_, fun hs => hs ▸ rfl⟩
  rw [receive_join hline] at hs
  rcases receive_part hline h with hnone | ⟨part, -, rfl⟩
  · rw [hnone] at hs
    cases hs
  · rw [receive_join hline] at hs
    have hbody : part = body := congrArg Received.body (Option.some.inj hs)
    rw [hbody]

end

namespace Message

/-- A message as it is read. -/
def received (m : Message) : Received where
  version := ascii "HTTP/1.1"
  code := m.m_statusCode.toNat
  phrase := m.m_statusCode.phrase
  headers := m.headers.map fun h => (h.key, h.value)
  body := m.body

lemma line_statusLine (code : StatusCode) : Line CR LF code.line := by
  cases code <;> exact ⟨by decide, Unbroken.not_infix (by decide)⟩

theorem receive_render (m : Message) : receive m.render = some m.received :=
  receive_join (line_statusLine _) _ _

lemma receive_eq_iff {m : Message} {s : List Byte} (h : s <+: m.render) :
    receive s = some m.received ↔ s = m.render := by
  rw [← receive_render]
  exact receive_part_eq_iff (line_statusLine _) h

end Message

end Reactor.Http
