import Reactor.HttpC.DecodeMsg
import Reactor.Http.HeaderLines
import Reactor.Lib.Errors
import Reactor.Lib.Overlay
import Reactor.SimpleHttp.Server

/-!
When a request that arrives in pieces is answered for its first line.

`totle` stays 0, so that every piece is written over the start of the buffer, and the path is
decoded while nothing has been read into it.
-/

namespace Reactor.SimpleHttp

open Lib.Infix Lib.Errors Lib.Overlay Lib.PercentEncoding
open Http (Stat cstr cstr_append_null cstr_append cstr_prefix zero_notMem_cstr cstr_of_notMem
  cstr_cons length_cstr_le ascii isGet find_of_line SP CR LF)
open HttpC (Fault)

/-! ### Requests -/

/-- A request: a method, a path with its slash and what else is in the first line, and what follows
the end of the line. -/
structure Request where
  method : List Byte
  name : List Byte
  version : List Byte
  rest : List Byte
  method_ne : method ≠ []
  method_space : SP ∉ method
  name_space : SP ∉ name
  version_space : version = [] ∨ ∃ v, version = SP :: v
  unbroken : ¬ [CR, LF] <:+: method ++ SP :: 47 :: name ++ version

namespace Request

variable (r : Request)

def path : List Byte := 47 :: r.name
def line : List Byte := r.method ++ SP :: r.path ++ r.version
def text : List Byte := r.line ++ [CR, LF] ++ r.rest

/-- The file that the decoded path names. -/
def fileName : List Byte :=
  let path := cstr (decode r.path)
  if path = [47] then ascii "./" else path.drop 1

/-- The file that the path names as it stands. -/
def rawName : List Byte := if r.path = [47] then ascii "./" else r.name

end Request

/-- A request of fewer bytes than the buffer has, in the chunks in which it is received. -/
structure Arrival where
  request : Request
  chunks : List Chunk
  flatten_eq : (chunks.map (·.1)).flatten = request.text
  length_lt : request.text.length < bufferSize

/-- The first line is handed to `parseRequestLine`, which looks up the file that the decoded path
names if the method is `get`, and none otherwise. -/
def Answers (locals : Locals) (stat : List Byte → Option Stat) (a : Arrival) : Prop :=
  ∃ answer, recvHttpRequest locals stat a.chunks (.error EAGAIN) =
      .ok (.parsed a.request.line answer) ∧
    answer.map Answer.file = if isGet a.request.method then some a.request.fileName else none

/-! ### The buffer -/

/-- What the chunks leave in the buffer. -/
def written (chunks : List Chunk) : List Byte :=
  (chunks.map (·.1)).foldl overlay (List.replicate bufferSize 0)

lemma copy_eq (buffer : List Byte) (tmp : Chunk) :
    Received.copy ⟨0, buffer⟩ tmp = ⟨0, overlay buffer tmp.1⟩ := by
  have hlt : 0 + tmp.1.length < bufferSize := by
    have := tmp.2.2
    simp only [tmpSize] at this
    simp only [bufferSize]
    omega
  rw [Received.copy, if_pos hlt]
  simp [overlay]

lemma foldl_copy (chunks : List Chunk) (buffer : List Byte) :
    chunks.foldl Received.copy ⟨0, buffer⟩ = ⟨0, (chunks.map (·.1)).foldl overlay buffer⟩ := by
  induction chunks generalizing buffer with
  | nil => rfl
  | cons tmp chunks ih =>
      rw [List.foldl_cons, copy_eq, ih]
      rfl

lemma length_le_of_mem {chunks : List Chunk} {t : List Byte} (h : t ∈ chunks.map (·.1)) :
    t.length ≤ tmpSize := by
  obtain ⟨chunk, -, rfl⟩ := List.mem_map.mp h
  exact chunk.2.2

lemma written_getElem?_iff {chunks : List Chunk} {i : ℕ} {b : Byte} (hb : b ≠ 0) :
    (written chunks)[i]? = some b ↔ LastAt (chunks.map (·.1)) i b :=
  getElem?_foldl_overlay_iff hb fun _ ht => (length_le_of_mem ht).trans (by decide)

/-- The text stands at the start of the buffer. -/
lemma prefix_written_iff {chunks : List Chunk} {s : List Byte} (hs : 0 ∉ s) :
    s <+: written chunks ↔ ∀ i b, s[i]? = some b → LastAt (chunks.map (·.1)) i b := by
  have hne : ∀ {i : ℕ} {b : Byte}, s[i]? = some b → b ≠ 0 := by
    rintro i _ hb rfl
    exact hs (List.mem_of_getElem? hb)
  rw [List.prefix_iff_getElem?]
  constructor
  · intro h i b hb
    obtain ⟨hi, rfl⟩ := List.getElem?_eq_some_iff.mp hb
    exact (written_getElem?_iff (hne hb)).mp (h i hi)
  · intro h i hi
    have hb := List.getElem?_eq_getElem hi
    exact (written_getElem?_iff (hne hb)).mpr (h i _ hb)

lemma cstr_set {s : List Byte} (h0 : 0 ∉ s) (c : Byte) (t : List Byte) :
    cstr ((s ++ c :: t).set s.length 0) = s := by
  rw [List.set_append_right _ _ le_rfl, Nat.sub_self, List.set_cons_zero, cstr_append_null,
    cstr_of_notMem h0]

/-- **The line handed on** is the one that stands at the start of the buffer. -/
lemma line_eq_iff {buffer line : List Byte} (hline : ¬ [CR, LF] <:+: line) :
    (∃ pos, find (cstr buffer) [CR, LF] = some pos ∧ cstr (buffer.set pos 0) = line) ↔
      0 ∉ line ∧ line ++ [CR, LF] <+: buffer := by
  constructor
  · rintro ⟨pos, hpos, rfl⟩
    obtain ⟨p, s, hl, rfl, -⟩ := find_eq_some.mp hpos
    obtain ⟨t, ht⟩ := cstr_prefix buffer
    have hbuffer : buffer = p ++ CR :: LF :: (s ++ t) := by
      rw [← ht, hl]
      simp
    have h0 : 0 ∉ p := by
      intro hmem
      refine zero_notMem_cstr buffer ?_
      rw [hl]
      simp [hmem]
    rw [hbuffer, cstr_set h0]
    exact ⟨h0, s ++ t, by simp⟩
  · rintro ⟨h0, rest, rfl⟩
    have hbuffer : line ++ [CR, LF] ++ rest = line ++ CR :: LF :: rest := by simp
    have hcstr : cstr (line ++ [CR, LF] ++ rest) = line ++ [CR, LF] ++ cstr rest := by
      refine cstr_append ?_ rest
      simpa [SP, CR, LF] using h0
    refine ⟨line.length, ?_, ?_⟩
    · rw [hcstr]
      exact find_of_line rfl hline
    · rw [hbuffer, cstr_set h0]

/-! ### The request line -/

lemma field_append {s rest : List Byte} (hs : SP ∉ s) (hrest : rest = [] ∨ ∃ v, rest = SP :: v) :
    (s ++ rest).takeWhile (· ≠ SP) = s ∧ (s ++ rest).dropWhile (· ≠ SP) = rest := by
  have hne : ∀ c ∈ s, decide (c ≠ SP) = true := by
    intro c hc
    exact decide_eq_true fun h => hs (h ▸ hc)
  rw [List.takeWhile_append_of_pos hne, List.dropWhile_append_of_pos hne]
  rcases hrest with rfl | ⟨v, rfl⟩ <;> simp

namespace Request

variable {r : Request}

lemma line_unbroken : ¬ [CR, LF] <:+: r.line := r.unbroken

lemma path_space : SP ∉ r.path := by
  rw [path, List.mem_cons, not_or]
  exact ⟨by decide, r.name_space⟩

lemma sscanf_line (method path : List Byte) : sscanf r.line method path =
    (do
      let method ← putString r.method method
      let path ← putString r.path path
      .ok (method, path)) := by
  have hline : r.line = r.method ++ SP :: (r.path ++ r.version) := by simp [line]
  obtain ⟨hmethod, hrest⟩ := field_append r.method_space
    (show SP :: (r.path ++ r.version) = [] ∨ _ from Or.inr ⟨_, rfl⟩)
  have hskip : (SP :: (r.path ++ r.version)).dropWhile isspace = r.path ++ r.version := rfl
  have hpath := (field_append (r.path_space) r.version_space).1
  have hne : r.path ≠ [] := List.cons_ne_nil _ _
  simp only [sscanf, hline, hmethod, hrest, hskip, hpath, if_neg r.method_ne, if_neg hne]

lemma fileOf_path (h0 : 0 ∉ r.path) (t : List Byte) :
    fileOf (r.path ++ 0 :: t) = .ok r.rawName := by
  have hname : 0 ∉ r.name := fun h => h0 (List.mem_cons_of_mem _ h)
  have hdrop : (r.path ++ 0 :: t).drop 1 = r.name ++ 0 :: t := rfl
  rw [fileOf, hdrop, cstr_append_null, cstr_append_null, cstr_of_notMem h0, cstr_of_notMem hname,
    rawName, if_pos (show 0 ∈ r.name ++ 0 :: t by simp)]
  split_ifs <;> rfl

lemma decode_path : decode r.path = 47 :: decode r.name :=
  decode_plain (escape?_of_ne (by decide) _)

lemma cstr_decode_path : cstr (decode r.path) = 47 :: cstr (decode r.name) := by
  rw [decode_path, cstr_cons (by decide)]

/-- The name is the one that the later servers look up. -/
lemma fileName_eq (h0 : 0 ∉ r.path) : r.fileName = Http.fileOf (Http.decodeMsg r.path) := by
  have hdrop : (decode r.path ++ [0]).drop 1 = decode r.name ++ [0] := by rw [decode_path]; rfl
  rw [Http.decodeMsg, cstr_of_notMem h0, HttpC.decode_eq, Http.fileOf, hdrop, cstr_append_null,
    cstr_append_null, cstr_decode_path, fileName, cstr_decode_path]
  rfl

/-- Both names agree exactly when there is nothing to decode. -/
lemma rawName_eq_fileName_iff (h0 : 0 ∉ r.path) : r.rawName = r.fileName ↔ Plain r.path := by
  have hname : 0 ∉ r.name := fun h => h0 (List.mem_cons_of_mem _ h)
  have hplain : Plain r.path ↔ Plain r.name := by
    rw [path, plain_cons, and_iff_right (escape?_of_ne (by decide) _)]
  have hroot : r.path = [47] ↔ r.name = [] := by simp [path]
  rw [hplain]
  simp only [rawName, fileName, cstr_decode_path, hroot, List.cons.injEq, true_and, List.drop_one,
    List.tail_cons]
  constructor
  · intro heq
    split_ifs at heq with hnil hcstr hcstr
    · rw [hnil]
      exact plain_of_notMem (by simp)
    · rw [hnil]
      exact plain_of_notMem (by simp)
    · rw [heq]
      exact plain_of_notMem (by decide)
    · -- an escape makes the name shorter
      have hle := length_cstr_le (decode r.name)
      have hle' := length_decode_le r.name
      rw [← heq] at hle
      exact length_decode_eq_iff.mp (le_antisymm hle' hle)
  · intro h
    rw [h.decode_eq, cstr_of_notMem hname]

end Request

lemma zero_notMem_path {r : Request} (h0 : 0 ∉ r.line) : 0 ∉ r.path := by
  intro h
  exact h0 (by simp [Request.line, h])

lemma length_decodeMsg {path : List Byte} (h0 : 0 ∈ path) :
    (HttpC.decodeMsg path).length = path.length := by
  obtain ⟨s, t, rfl, hs⟩ := List.eq_append_cons_of_mem h0
  have hle := length_decode_le s
  rw [HttpC.decodeMsg, cstr_append_null, cstr_of_notMem hs, HttpC.decode_eq]
  simp only [List.length_append, List.length_cons, List.length_drop, List.length_nil]
  omega

lemma putString_of_lt {s array : List Byte} (h : s.length < array.length) :
    putString s array = .ok (s ++ 0 :: array.drop (s.length + 1)) := if_pos h

lemma parseRequestLine_line {r : Request} (h0 : 0 ∉ r.line) (hpath : r.path.length < 1024)
    (locals : Locals) (stat : List Byte → Option Stat) :
    parseRequestLine locals stat r.line =
      if 0 ∈ locals.path ∧ r.method.length < 12 then
        .ok (if isGet r.method then some (answerTo r.rawName (stat r.rawName)) else none)
      else .error .memory := by
  have h0' := zero_notMem_path h0
  by_cases hstack : 0 ∈ locals.path
  swap
  · rw [parseRequestLine, decodeMsg, if_neg hstack, if_neg fun h => hstack h.1]
    rfl
  by_cases hmethod : r.method.length < 12
  swap
  · have hput : putString r.method locals.method = .error .memory :=
      if_neg (by rw [locals.method_length]; exact hmethod)
    rw [parseRequestLine, decodeMsg, if_pos hstack, ok_bind, Request.sscanf_line, hput,
      if_neg fun h => hmethod h.2]
    rfl
  have hroom : r.method.length < locals.method.length := by
    rw [locals.method_length]
    exact hmethod
  have hroom' : r.path.length < (HttpC.decodeMsg locals.path).length := by
    rw [length_decodeMsg hstack, locals.path_length]
    exact hpath
  have hget : isGet (r.method ++ 0 :: locals.method.drop (r.method.length + 1)) ↔
      isGet r.method := by rw [isGet, isGet, cstr_append_null]
  rw [if_pos (show 0 ∈ locals.path ∧ r.method.length < 12 from ⟨hstack, hmethod⟩)]
  simp only [parseRequestLine, decodeMsg, if_pos hstack, Request.sscanf_line,
    putString_of_lt hroom, putString_of_lt hroom', ok_bind, Request.fileOf_path h0', hget]
  by_cases hg : isGet r.method
  · rw [if_neg (not_not.mpr hg), if_pos hg]
  · rw [if_pos hg, if_neg hg]

/-! ### The whole -/

variable {locals : Locals} {stat : List Byte → Option Stat} {a : Arrival}

lemma recvHttpRequest_eq (chunks : List Chunk) :
    recvHttpRequest locals stat chunks (.error EAGAIN) =
      match find (cstr (written chunks)) [CR, LF] with
      | none => .error .memory
      | some pos => (do
        let line := cstr ((written chunks).set pos 0)
        let answer ← parseRequestLine locals stat line
        .ok (.parsed line answer)) := by
  rw [recvHttpRequest, foldl_copy]
  rfl

lemma recvHttpRequest_eq_parsed_iff {chunks : List Chunk} {line : List Byte}
    {answer : Option Answer} (hline : ¬ [CR, LF] <:+: line) :
    recvHttpRequest locals stat chunks (.error EAGAIN) = .ok (.parsed line answer) ↔
      (0 ∉ line ∧ line ++ [CR, LF] <+: written chunks) ∧
        parseRequestLine locals stat line = .ok answer := by
  rw [← line_eq_iff hline, recvHttpRequest_eq]
  constructor
  · intro h
    split at h
    · cases h
    · rename_i pos hpos
      obtain ⟨answer', hparse, h⟩ := ok_of_bind h
      obtain ⟨rfl, rfl⟩ := Outcome.parsed.inj (Except.ok.inj h)
      exact ⟨⟨pos, hpos, rfl⟩, hparse⟩
  · rintro ⟨⟨pos, hpos, rfl⟩, hparse⟩
    rw [hpos]
    simp only [hparse, ok_bind]

lemma answerTo_file (file : List Byte) (st : Option Stat) : (answerTo file st).file = file := by
  rcases st with _ | st
  · rfl
  · rw [answerTo]
    split_ifs <;> rfl

/-- The file looked up is the one that the decoded path names. -/
lemma map_file_eq_iff {r : Request} (h0 : 0 ∉ r.path) :
    (if isGet r.method then some (answerTo r.rawName (stat r.rawName)) else none).map Answer.file =
      (if isGet r.method then some r.fileName else none) ↔ (isGet r.method → Plain r.path) := by
  rw [← Request.rawName_eq_fileName_iff h0]
  by_cases hget : isGet r.method
  · simp [hget, answerTo_file]
  · simp [hget]

/-- What is handed on fits into one chunk. -/
lemma length_path_lt
    (h : ∀ i b, (a.request.line ++ [CR, LF])[i]? = some b → LastAt (a.chunks.map (·.1)) i b) :
    a.request.path.length < 1024 := by
  have hlast : (a.request.line ++ [CR, LF])[a.request.line.length + 1]? = some LF := by simp
  obtain ⟨before, text, after, htexts, htext, -⟩ := h _ _ hlast
  have hlt := (List.getElem?_eq_some_iff.mp htext).1
  have hle : text.length ≤ tmpSize := length_le_of_mem (by rw [htexts]; simp)
  simp only [Request.line, List.length_append, List.length_cons, tmpSize] at hlt hle
  omega

lemma prefix_written {r : Request} {chunks : List Chunk} (h0 : 0 ∉ r.line) :
    r.line ++ [CR, LF] <+: written chunks ↔
      ∀ i b, (r.line ++ [CR, LF])[i]? = some b → LastAt (chunks.map (·.1)) i b :=
  prefix_written_iff (by simpa [CR, LF] using h0)

/-- What an answer takes. -/
lemma of_answers (h : Answers locals stat a) :
    (∀ i b, (a.request.line ++ [CR, LF])[i]? = some b → LastAt (a.chunks.map (·.1)) i b) ∧
      0 ∉ a.request.line ∧ a.request.method.length < 12 ∧ 0 ∈ locals.path ∧
      (isGet a.request.method → Plain a.request.path) := by
  obtain ⟨answer, hrecv, hfile⟩ := h
  obtain ⟨⟨h0, hprefix⟩, hparse⟩ :=
    (recvHttpRequest_eq_parsed_iff a.request.line_unbroken).mp hrecv
  have hlast := (prefix_written h0).mp hprefix
  rw [parseRequestLine_line h0 (length_path_lt hlast)] at hparse
  by_cases hfits : 0 ∈ locals.path ∧ a.request.method.length < 12
  swap
  · rw [if_neg hfits] at hparse
    cases hparse
  rw [if_pos hfits] at hparse
  obtain rfl := Except.ok.inj hparse
  exact ⟨hlast, h0, hfits.2, hfits.1, (map_file_eq_iff (zero_notMem_path h0)).mp hfile⟩

/-- What is enough for an answer. -/
lemma answers_of
    (hlast : ∀ i b, (a.request.line ++ [CR, LF])[i]? = some b → LastAt (a.chunks.map (·.1)) i b)
    (h0 : 0 ∉ a.request.line) (hmethod : a.request.method.length < 12) (hstack : 0 ∈ locals.path)
    (hplain : isGet a.request.method → Plain a.request.path) : Answers locals stat a := by
  have hparse := parseRequestLine_line h0 (length_path_lt hlast) locals stat
  rw [if_pos ⟨hstack, hmethod⟩] at hparse
  have hprefix := (prefix_written h0).mpr hlast
  exact ⟨_, (recvHttpRequest_eq_parsed_iff a.request.line_unbroken).mpr ⟨⟨h0, hprefix⟩, hparse⟩,
    (map_file_eq_iff (zero_notMem_path h0)).mpr hplain⟩

/-- **When a request in pieces is answered.** Its first line is handed on, and the file is looked up
that its decoded path names, exactly when every byte of the line and of its end stands at its place
in the last chunk that is long enough to reach there, the line has no null byte, the method fits
into its array, the array for the path happens to hold a null byte, and, if the method is `get`,
there is no escape in the path. -/
theorem answers_arrival_iff (locals : Locals) (stat : List Byte → Option Stat) (a : Arrival) :
    Answers locals stat a ↔
      (∀ i b, (a.request.line ++ [CR, LF])[i]? = some b → LastAt (a.chunks.map (·.1)) i b) ∧
        0 ∉ a.request.line ∧ a.request.method.length < 12 ∧ 0 ∈ locals.path ∧
        (isGet a.request.method → Plain a.request.path) := by
  constructor
  · exact of_answers
  · rintro ⟨hlast, h0, hmethod, hstack, hplain⟩
    exact answers_of hlast h0 hmethod hstack hplain

/-- **In one piece** a request is answered unless it needs more room than there is, has a null byte
or something to decode. -/
lemma answers_single_iff {tmp : Chunk} (h : a.chunks = [tmp]) : Answers locals stat a ↔
    0 ∉ a.request.line ∧ a.request.method.length < 12 ∧ 0 ∈ locals.path ∧
      (isGet a.request.method → Plain a.request.path) := by
  have htext : tmp.1 = a.request.text := by simpa [h] using a.flatten_eq
  constructor
  · intro hanswers
    exact (of_answers hanswers).2
  · rintro ⟨h0, hmethod, hstack, hplain⟩
    refine answers_of ?_ h0 hmethod hstack hplain
    intro i b hb
    have hi := (List.getElem?_eq_some_iff.mp hb).1
    rw [h, List.map_singleton, lastAt_singleton, htext, Request.text,
      List.getElem?_append_left hi]
    exact hb

lemma get_space : SP ∉ ([71, 69, 84] : List Byte) := by decide

/-- `GET` of a short name. -/
def getName (name : List Byte) (hspace : SP ∉ name)
    (hbroken : ¬ [CR, LF] <:+: [71, 69, 84] ++ SP :: 47 :: name ++ []) : Request where
  method := [71, 69, 84]
  name := name
  version := []
  rest := []
  method_ne := List.cons_ne_nil _ _
  method_space := get_space
  name_space := hspace
  version_space := Or.inl rfl
  unbroken := hbroken

/-- `GET /a`, cut behind the slash. -/
def inTwo : Arrival where
  request := getName [97] (by decide) (by decide)
  chunks := [⟨[71, 69, 84, 32, 47], by decide⟩, ⟨[97, 13, 10], by decide⟩]
  flatten_eq := by decide
  length_lt := by decide

/-- `GET /%41`, in one piece. -/
def escaped : Arrival where
  request := getName [37, 52, 49] (by decide) (by decide)
  chunks := [⟨[71, 69, 84, 32, 47, 37, 52, 49, 13, 10], by decide⟩]
  flatten_eq := by decide
  length_lt := by decide

/-- Arrays with null bytes only. -/
def cleared : Locals where
  method := List.replicate 12 0
  path := List.replicate 1024 0
  method_length := List.length_replicate
  path_length := List.length_replicate

theorem not_answers :
    ¬ Answers cleared (fun _ => none) inTwo ∧ ¬ Answers cleared (fun _ => none) escaped := by
  constructor
  · intro hanswers
    obtain ⟨hlast, -⟩ := of_answers hanswers
    -- the second piece has an `a` where the request has its `G`
    have h : LastAt ([[71, 69, 84, 32, 47]] ++ [[97, 13, 10]]) 0 (71 : Byte) := hlast 0 71 rfl
    rw [lastAt_concat] at h
    cases h
  · intro hanswers
    obtain ⟨-, -, -, -, hplain⟩ := of_answers hanswers
    have h := hplain (by decide) [47] [37, 52, 49] rfl
    cases h

end Reactor.SimpleHttp
