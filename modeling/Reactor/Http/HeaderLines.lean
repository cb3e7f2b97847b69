import Reactor.Http.Malformed
import Reactor.Lib.Trace

/-!
The header parser line by line: a call that finds a line should take that line and its end, and
come to the end of the headers at the empty line alone.

The source takes every line without a separator for the empty one. Of a line that is not empty
it takes two bytes, and what is left of the line stays in the buffer.
-/

namespace Reactor.Http

open Lib.Infix Lib.Trace

/-- The call comes back; and if it found a line, it has taken the line and its end, and is done
exactly if the line is empty. -/
def TakesLine (b : Buffer) : Except Fault (Bool × HttpRequest × Buffer) → Prop
  | .ok (flag, r', b') => flag = true → ∃ line rest,
      b.readable = line ++ [CR, LF] ++ rest ∧ ¬ [CR, LF] <:+: line ∧
      b'.readable = rest ∧ b'.m_readPos = b.m_readPos + (line.length + 2) ∧
      (r'.m_curState = .ParseReqDone ↔ line = [])
  | .error _ => False

/-- The first line, if there is one, is empty or has a separator. -/
def Buffer.HeaderInOrder (b : Buffer) : Prop :=
  ∀ n, find b.readable [CR, LF] = some n → n = 0 ∨ [COLON, SP] <:+: b.readable.take n

lemma take_unbroken {l : List Byte} {n : ℕ} (h : find l [CR, LF] = some n) :
    ¬ [CR, LF] <:+: l.take n := by
  rintro ⟨p, s, hp⟩
  obtain ⟨q, t, rfl, rfl, hfirst⟩ := find_eq_some.mp h
  have hlen := congrArg List.length hp
  rw [List.append_assoc q, List.take_left] at hp hlen
  have := hfirst p (s ++ [CR, LF] ++ t) (by rw [← hp]; simp)
  simp only [List.length_append, List.length_cons, List.length_nil] at hlen
  omega

/-- A line end is found where the line before it has none. -/
lemma find_of_line {l line rest : List Byte} (h : l = line ++ [CR, LF] ++ rest)
    (hline : ¬ [CR, LF] <:+: line) : find l [CR, LF] = some line.length := by
  rw [h]
  simpa using find_pair (s := rest) hline (by decide)

namespace HttpRequest

variable {b : Buffer} (hv : b.Valid)
include hv

lemma parseRequestHeader_none (hn : find b.readable [CR, LF] = none) (r : HttpRequest) :
    r.parseRequestHeader b = .ok (false, r, b) := by
  simp [parseRequestHeader, hv.findCRLF_eq, hn, ok_bind]

/-- The line and what follows it. -/
lemma readable_line {n : ℕ} (hn : find b.readable [CR, LF] = some n) :
    b.readable = b.readable.take n ++ [CR, LF] ++ (b.skip (n + 2)).readable := by
  rw [hv.readable_skip]
  exact eq_of_find hn

/-- **When a call takes its line.** -/
theorem takesLine_iff {r : HttpRequest} (hr : r.m_curState = .ParseReqHeaders) :
    TakesLine b (r.parseRequestHeader b) ↔ b.HeaderInOrder := by
  rcases hn : find b.readable [CR, LF] with _ | n
  · rw [parseRequestHeader_none hv hn]
    refine iff_of_true (fun h => nomatch h) fun n h => ?_
    rw [hn] at h
    cases h
  have hle : n + 2 ≤ b.readable.length := find_le hn
  have hlen : (b.readable.take n).length = n := List.length_take_of_le (by omega)
  have horder : b.HeaderInOrder ↔ n = 0 ∨ [COLON, SP] <:+: b.readable.take n := by
    simp only [Buffer.HeaderInOrder, hn, Option.some.injEq, forall_eq']
  rw [parseRequestHeader_eq hv hn, horder]
  rcases hd : (b.readable.take n).dropInfix? [COLON, SP] with _ | ⟨key, value⟩
  · -- no separator: two bytes are taken, the whole line if it is empty
    have hsep : ¬ [COLON, SP] <:+: b.readable.take n := by
      rw [← find_eq_none, find, hd, Option.map_none]
    rw [or_iff_left hsep]
    constructor
    · intro h
      obtain ⟨line, rest, hb, hline, -, hpos, -⟩ := h rfl
      have hsome := find_of_line hb hline
      rw [hn, Option.some.injEq] at hsome
      simp only [Buffer.skip] at hpos
      omega
    · rintro rfl -
      refine ⟨[], (b.skip 2).readable, by simpa using readable_line hv hn, by simp, rfl, ?_, ?_⟩
      · simp [Buffer.skip]
      · simp
  · -- a separator: the whole line is taken, and it is not empty
    have hcut := eq_of_dropInfix hd
    simp only [hlen, List.length_cons, List.length_nil] at hcut
    have hsep : [COLON, SP] <:+: b.readable.take n := by
      by_contra hno
      rw [← find_eq_none, find, hd, Option.map_some] at hno
      cases hno
    refine iff_of_true (fun _ => ?_) (Or.inr hsep)
    refine ⟨b.readable.take n, _, readable_line hv hn, take_unbroken hn, rfl, ?_, ?_⟩
    · simp [Buffer.skip, hlen]
    · have hstate : (r.addHeader key value).m_curState = .ParseReqHeaders := by
        unfold addHeader
        split_ifs <;> exact hr
      have hne : b.readable.take n ≠ [] := List.ne_nil_of_length_pos (by omega)
      simp [hstate, hne]

end HttpRequest

/-! ### Runs -/

/-- What happens while the headers are read: a call of `parseRequestHeader`, or bytes that are
received. -/
inductive HeaderAct
  | parses
  | receives (data : List Byte)

/-- The buffer and the request after a call. -/
def afterCall (b : Buffer) (r : HttpRequest) : Buffer × HttpRequest :=
  match r.parseRequestHeader b with
  | .ok (_, r', b') => (b', r')
  | .error _ => (b, r)

/-- A step of a reader of headers. Received bytes come behind the readable ones, wherever these
then lie. -/
def HeaderStep : Buffer × HttpRequest → HeaderAct → Buffer × HttpRequest → Prop
  | (b, r), .parses, t => r.m_curState = .ParseReqHeaders ∧ t = afterCall b r
  | (b, r), .receives data, (b', r') => r' = r ∧ b'.Valid ∧ b'.readable = b.readable ++ data

lemma Buffer.Valid.afterCall {b : Buffer} (hv : b.Valid) (r : HttpRequest) :
    (afterCall b r).1.Valid := by
  unfold Http.afterCall
  rcases hn : find b.readable [CR, LF] with _ | n
  · rw [HttpRequest.parseRequestHeader_none hv hn]
    exact hv
  · have hle : n + 2 ≤ b.readable.length := find_le hn
    rw [HttpRequest.parseRequestHeader_eq hv hn]
    split <;> rename_i heq <;> split at heq <;> cases heq
    · exact hv.skip (by omega)
    · exact hv.skip hle

/-- Every call of a run takes its line. -/
def LineByLine (b : Buffer) (r : HttpRequest) (run : List (HeaderAct × Buffer × HttpRequest)) :
    Prop :=
  Chain (fun s a _ => a = .parses → TakesLine s.1 (s.2.parseRequestHeader s.1)) (b, r) run

/-- **The line discipline of the header parser.** In a run of calls from state
`ParseReqHeaders`, with bytes received in between, every call that finds a line takes exactly
that line, and is done exactly at the empty one, if and only if every call finds the first line
empty or with a separator, or no line. -/
theorem lineByLine_iff {b : Buffer} (hv : b.Valid) (r : HttpRequest)
    {run : List (HeaderAct × Buffer × HttpRequest)} (hrun : Chain HeaderStep (b, r) run) :
    LineByLine b r run ↔
      Chain (fun s a _ => a = .parses → s.1.HeaderInOrder) (b, r) run := by
  have hkeep : ∀ s a t, s.1.Valid → HeaderStep s a t → t.1.Valid := by
    rintro ⟨b, r⟩ (_ | data) ⟨b', r'⟩ hv hstep
    · rw [hstep.2]
      exact hv.afterCall r
    · exact hstep.2.1
  have hcall : ∀ s a t, s.1.Valid → HeaderStep s a t →
      ((a = .parses → TakesLine s.1 (s.2.parseRequestHeader s.1)) ↔
        (a = .parses → s.1.HeaderInOrder)) := by
    rintro ⟨b, r⟩ (_ | data) t hv hstep
    · simpa using HttpRequest.takesLine_iff hv hstep.1
    · simp
  refine chain_iff_of_inv (fun s a t (hs : s.1.Valid) hstep hG => ?_)
    (fun s a t hs hstep hG hR => ?_) hv hrun
  · exact ⟨hkeep s a t hs hstep, (hcall s a t hs hstep).mpr hG⟩
  · exact hG ((hcall s a t hs hstep).mp hR)

/-- The readable bytes `data`, at the start of a buffer. -/
def lineBuffer (data : List Byte) : Buffer where
  m_data := 4096
  bytes := data
  m_readPos := 0
  m_writePos := data.length

/-- A request whose first line has been parsed. -/
def inHeaders : HttpRequest := { HttpRequest.reset with m_curState := .ParseReqHeaders }

/-- The header `A: b` and the empty line. -/
def separated : Buffer := lineBuffer [65, 58, 32, 98, 13, 10, 13, 10]

/-- The header `A: b` is taken as a line. -/
theorem lineByLine_iff_separated :
    LineByLine separated inHeaders [(.parses, afterCall separated inHeaders)] := by
  have hvalid : separated.Valid := by constructor <;> decide
  have hrun : Chain HeaderStep (separated, inHeaders)
      [(.parses, afterCall separated inHeaders)] := ⟨⟨rfl, rfl⟩, trivial⟩
  refine (lineByLine_iff hvalid _ hrun).mpr ⟨fun _ n hn => Or.inr ?_, trivial⟩
  have h4 : find separated.readable [CR, LF] = some 4 := by decide +kernel
  obtain rfl : 4 = n := Option.some.inj (h4.symm.trans hn)
  exact ⟨[65], [98], by decide⟩

/-- The line `A:b` and the empty line. -/
def unseparated : Buffer := lineBuffer [65, 58, 98, 13, 10, 13, 10]

/-- Of the line `A:b` two bytes are taken, and the parser is done. -/
theorem lineByLine_not :
    unseparated.Valid ∧
    Chain HeaderStep (unseparated, inHeaders) [(.parses, afterCall unseparated inHeaders)] ∧
    afterCall unseparated inHeaders =
      ({ unseparated with m_readPos := 2 }, { inHeaders with m_curState := .ParseReqDone }) ∧
    ¬ LineByLine unseparated inHeaders [(.parses, afterCall unseparated inHeaders)] := by
  refine ⟨by constructor <;> decide, ⟨⟨rfl, rfl⟩, trivial⟩, by decide +kernel, fun h => ?_⟩
  have hcall : inHeaders.parseRequestHeader unseparated =
      .ok (true, { inHeaders with m_curState := .ParseReqDone },
        { unseparated with m_readPos := 2 }) := by
    decide +kernel
  have h₁ := h.1 rfl
  simp only [hcall] at h₁
  obtain ⟨line, rest, hb, -, -, -, hdone⟩ := h₁ rfl
  obtain rfl : line = [] := hdone.mp rfl
  revert hb
  simp [Buffer.readable, unseparated, lineBuffer, Buffer.readableSize, CR]

end Reactor.Http
