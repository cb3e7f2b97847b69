import Reactor.Http.Answered
import Reactor.HttpC.HttpRequest

/-!
What the C version answers to a request that has arrived as a whole, in step with the other
version: it asks for more of the request, because its arrays do not grow.
-/

namespace Reactor.HttpC

open Lib.Infix Lib.Errors
open Http (CompleteRequest isGet cstr cstr_append_null cstr_cstr length_cstr_le decode nullptr toInt
  toSize ascii find_of_line SP CR LF COLON)

/-! ### Strings -/

lemma cstr_block (s : List Byte) : cstr (block s) = cstr s := by
  have hnull : ∃ t, block s = cstr s ++ 0 :: t := by
    unfold block
    rcases Nat.eq_zero_or_pos (s.length - (cstr s).length) with h | h
    · exact ⟨[], by simp [h]⟩
    · obtain ⟨n, hn⟩ := Nat.exists_eq_add_of_lt h
      exact ⟨List.replicate n 0 ++ [0], by simp [hn, List.replicate_succ]⟩
  obtain ⟨t, ht⟩ := hnull
  rw [ht, cstr_append_null, cstr_cstr]

lemma length_block (s : List Byte) : (block s).length = s.length + 1 := by
  have := length_cstr_le s
  simp only [block, List.length_append, List.length_replicate, List.length_singleton]
  omega

lemma decode_eq_nil {s : List Byte} (h : decode s = []) : s = [] := by
  match s with
  | [] => rfl
  | [_] => simp [decode] at h
  | [_, _] => simp [decode] at h
  | _ :: _ :: _ :: _ =>
    unfold decode at h
    split_ifs at h

/-- Both versions look up the same name, but for the empty one. -/
lemma fileOf_decodeMsg {url : List Byte} (h : url ≠ []) :
    fileOf (decodeMsg (block url)) = .ok (Http.fileOf (Http.decodeMsg url)) := by
  have hpos := List.length_pos_iff.mpr h
  simp only [decodeMsg, cstr_block, fileOf, Http.fileOf, Http.decodeMsg, List.append_assoc,
    List.singleton_append, cstr_append_null, List.length_append, List.length_cons,
    List.length_drop, length_block]
  rw [if_neg (show ¬ (decode (cstr url)).length +
    (url.length + 1 - ((decode (cstr url)).length + 1) + 1) ≤ 1 by omega)]
  rcases hd : decode (cstr url) with _ | ⟨c, d⟩
  · -- the block holds null bytes only
    have hnull : block url = List.replicate url.length 0 ++ [0] := by
      simp [block, decode_eq_nil hd]
    have hrest : (block url).drop 1 = List.replicate url.length 0 := by
      rw [hnull, ← List.replicate_succ']
      simp
    simp [hrest, cstr]
  · simp only [List.cons_append, List.drop_succ_cons, List.drop_zero, cstr_append_null]
    split_ifs <;> rfl

lemma fileOf_decodeMsg_nil : fileOf (decodeMsg (block [])) = .error .memory := by decide

/-! ### In step with the other parser -/

/-- A string found there is copied into a block here. -/
lemma strncpy_of {start : ℕ} {n : ℤ} {b : Buffer} {str : List Byte}
    (h : Http.Buffer.string start n b = .ok str) : strncpy start n b = .ok (block str) := by
  unfold Http.Buffer.string at h
  split_ifs at h with hneg hle
  have hstr : (b.region start).take n.toNat = str := Except.ok.inj h
  have hlen : str.length = n.toNat := by
    rw [← hstr, List.length_take_of_le hle]
  simp only [strncpy, hstr]
  rw [if_neg hneg, if_pos (Or.inr hlen), block, hlen]

lemma memmem_of {haystack len p : ℕ} {needle : List Byte} {b : Buffer}
    (h : Http.Buffer.memmem haystack len needle b = .ok p) :
    memmem haystack len needle b = .ok p := by
  simp only [memmem, h]

lemma findCRLFBuffer_eq {b : Buffer} (hv : b.Valid) {n : ℕ}
    (hn : find b.readable [CR, LF] = some n) : findCRLFBuffer b = .ok (b.data + n) := by
  have := hv.findCRLF_eq
  rw [hn] at this
  exact memmem_of this

lemma findCRLFBuffer_none {b : Buffer} (hv : b.Valid) (hn : find b.readable [CR, LF] = none) :
    findCRLFBuffer b = .ok nullptr := by
  have := hv.findCRLF_eq
  rw [hn] at this
  exact memmem_of this

namespace HttpRequest

lemma splitRequestLine_of {start end_ p : ℕ} {sub : Option (List Byte)} {b : Buffer}
    {str : List Byte} (h : Http.HttpRequest.splitRequestLine start end_ sub b = .ok (str, p)) :
    splitRequestLine start end_ sub b = .ok (block str, p) := by
  cases sub with
  | none =>
    obtain ⟨space, hspace, h⟩ := ok_of_bind h
    obtain rfl := Except.ok.inj hspace
    obtain ⟨s, hs, h⟩ := ok_of_bind h
    simp only [Except.ok.injEq, Prod.mk.injEq] at h
    obtain ⟨rfl, rfl⟩ := h
    simp only [splitRequestLine, ok_bind, strncpy_of hs]
  | some sub =>
    obtain ⟨space, hspace, h⟩ := ok_of_bind h
    split_ifs at h with hnull
    · exact nomatch h
    · obtain ⟨space, hok, h⟩ := ok_of_bind h
      obtain rfl := Except.ok.inj hok
      obtain ⟨s, hs, h⟩ := ok_of_bind h
      simp only [Except.ok.injEq, Prod.mk.injEq] at h
      obtain ⟨rfl, rfl⟩ := h
      simp only [splitRequestLine, memmem_of hspace, ok_bind, if_neg hnull, strncpy_of hs]

/-- The same request line is found. -/
lemma parseHttpRequestLine_of {b b' : Buffer} {r₀ r₁ : Http.HttpRequest}
    (h : r₀.parseRequestLine b = .ok (true, r₁, b')) (r : HttpRequest) :
    r.parseHttpRequestLine b = .ok (true,
      { r with
        method := some (block r₁.m_method)
        url := some (block r₁.m_url)
        version := some (block r₁.m_version)
        curState := .ParseReqHeader },
      b') := by
  unfold Http.HttpRequest.parseRequestLine at h
  obtain ⟨end_, hend, h⟩ := ok_of_bind h
  dsimp only at h
  split_ifs at h with hsize
  · obtain ⟨⟨method, p⟩, hm, h⟩ := ok_of_bind h
    obtain ⟨⟨url, p'⟩, hu, h⟩ := ok_of_bind h
    obtain ⟨⟨version, p''⟩, hv, h⟩ := ok_of_bind h
    simp only [Except.ok.injEq, Prod.mk.injEq, true_and] at h
    obtain ⟨rfl, rfl⟩ := h
    have hend' : findCRLFBuffer b = .ok end_ := memmem_of hend
    simp only [parseHttpRequestLine, hend', ok_bind, splitRequestLine_of hm,
      splitRequestLine_of hu, splitRequestLine_of hv]
    rw [if_pos (by omega)]
  · simp at h

/-- **What `parseHttpRequestHeader` does with a line.** -/
lemma parseHttpRequestHeader_eq {b : Buffer} (hv : b.Valid) {n : ℕ}
    (hn : find b.readable [CR, LF] = some n) (r : HttpRequest) :
    r.parseHttpRequestHeader b =
      match (b.readable.take n).dropInfix? [COLON, SP] with
      | none => .ok (true, { r with curState := .ParseReqDone }, b.skip 2)
      | some (key, value) =>
        (r.addHttpRequestHeader (block key) (block value)).map fun r =>
          (true, r, b.skip (n + 2)) := by
  have hle : n + 2 ≤ b.readable.length := find_le hn
  have hlt := hv.readable_lt
  have hdata := hv.zero_lt_data
  have hsize := hv.toInt_start (i := n) (by omega)
  have hend : b.data + n ≠ nullptr := by unfold nullptr; omega
  have hfind := Http.Buffer.Valid.memmem_eq (show 0 + n ≤ b.readable.length by omega) [COLON, SP]
  simp only [Nat.add_zero, List.drop_zero] at hfind
  simp only [parseHttpRequestHeader, findCRLFBuffer_eq hv hn, ok_bind, hsize]
  rw [if_pos hend, Http.toSize_natCast (by omega), memmem_of hfind]
  rcases hf : find (b.readable.take n) [COLON, SP] with _ | i
  · have hskip : b.readPosIncrease 2 = b.skip 2 := hv.skip_eq (n := 2) (by omega)
    simp [dropInfix_of_find_none hf, ok_bind, hskip]
  · have hi := find_le hf
    simp only [List.length_take, List.length_cons, List.length_nil] at hi
    have hmiddle : b.data + i ≠ nullptr := by unfold nullptr; omega
    have hkey : ((b.data + i : ℕ) : ℤ) - (b.data : ℤ) = i := by omega
    have hvalue :
        ((b.data + n : ℕ) : ℤ) - ((b.data + i : ℕ) : ℤ) - 2 = ((n - (i + 2) : ℕ) : ℤ) := by
      omega
    have hkeys := strncpy_of
      (Http.Buffer.Valid.string_eq (show 0 + i ≤ b.readable.length by omega))
    have hvals := strncpy_of
      (Http.Buffer.Valid.string_eq (show i + 2 + (n - (i + 2)) ≤ b.readable.length by omega))
    simp only [Nat.add_zero, List.drop_zero] at hkeys
    have hskip : (b.readPosIncrease n).readPosIncrease 2 = b.skip (n + 2) := by
      have hrest : 2 ≤ (b.skip n).readable.length := by
        rw [hv.readable_skip, List.length_drop]
        omega
      rw [hv.skip_eq (by omega), ← Http.Buffer.skip_skip]
      exact (hv.skip (by omega)).skip_eq hrest
    have hvalue' : (b.readable.take n).drop (i + [COLON, SP].length) =
        (b.readable.drop (i + 2)).take (n - (i + 2)) := List.drop_take
    simp only [dropInfix_of_find hf, if_pos hmiddle, hkey, hvalue, Nat.add_assoc, hkeys, hvals,
      ok_bind, hskip]
    rw [List.take_take, Nat.min_eq_left (by omega), hvalue']
    cases r.addHttpRequestHeader _ _ <;> rfl

/-! ### The parse -/

/-- The line has a separator. -/
def IsHeader (line : List Byte) : Bool := (line.dropInfix? [COLON, SP]).isSome

/-- The header lines that the parser comes to: those in front of the first line that it takes
for the empty one. -/
def headerLines (lines : List (List Byte)) : ℕ := (lines.takeWhile IsHeader).length

/-- The loop ends with a request in state `ParseReqDone` if its headers have room, and else in a
write behind the array. -/
structure Parses (rounds : ℕ) (b : Buffer) (r : HttpRequest) (fits : Prop) : Prop where
  done : fits → ∃ r' b', r'.method = r.method ∧ r'.url = r.url ∧ r'.curState = .ParseReqDone ∧
    ∀ n ≥ rounds, r.parseLoop n true b = some (.ok (true, r', b'))
  full : ¬ fits → ∀ n ≥ rounds, r.parseLoop n true b = some (.error .memory)

/-- **A round with a header line**, and room for the header. -/
lemma parseLoop_header {b : Buffer} (hv : b.Valid) {r : HttpRequest}
    (hr : r.curState = .ParseReqHeader) {l t key value : List Byte}
    (hb : b.readable = l ++ [CR, LF] ++ t) (hl : ¬ [CR, LF] <:+: l)
    (hd : l.dropInfix? [COLON, SP] = some (key, value)) (hroom : r.reqHeader.length < HeaderSize)
    (n : ℕ) :
    r.parseLoop (n + 1) true b =
      { r with reqHeader := r.reqHeader ++ [(block key, block value)] }.parseLoop n true
        (b.skip (l.length + 2)) := by
  have hstep := parseHttpRequestHeader_eq hv (find_of_line hb hl) r
  rw [hb, List.append_assoc, List.take_left, hd] at hstep
  simp only [addHttpRequestHeader, if_pos hroom] at hstep
  simp [parseLoop, parseStep, hr, hstep, Except.map]

/-- **The round with the line that ends the headers.** -/
lemma parseLoop_done {b : Buffer} {r : HttpRequest} (hr : r.curState = .ParseReqHeader)
    (h : r.parseHttpRequestHeader b = .ok (true, { r with curState := .ParseReqDone }, b.skip 2))
    (n : ℕ) :
    r.parseLoop (n + 2) true b =
      some (.ok (true, { r with curState := .ParseReqDone }, b.skip 2)) := by
  simp [parseLoop, parseStep, hr, h]

/-- At a line without a separator, the loop ends. -/
lemma parses_done {b : Buffer} {r : HttpRequest} (hr : r.curState = .ParseReqHeader)
    (h : r.parseHttpRequestHeader b = .ok (true, { r with curState := .ParseReqDone }, b.skip 2))
    {rounds : ℕ} (hrounds : 2 ≤ rounds) {fits : Prop} (hfits : fits) :
    Parses rounds b r fits where
  done _ := by
    refine ⟨{ r with curState := .ParseReqDone }, b.skip 2, rfl, rfl, rfl, fun n hn => ?_⟩
    obtain ⟨n, rfl⟩ := Nat.exists_eq_add_of_le' (hrounds.trans hn)
    exact parseLoop_done hr h n
  full hf := absurd hfits hf

/-- From the header lines on. -/
lemma parses_lines {lines : List (List Byte)} (hline : ∀ l ∈ lines, ¬ [CR, LF] <:+: l)
    (s : List Byte) :
    ∀ {b : Buffer}, b.Valid → b.readable = lines.flatMap (· ++ [CR, LF]) ++ [CR, LF] ++ s →
    ∀ {r : HttpRequest}, r.curState = .ParseReqHeader → r.reqHeader.length ≤ HeaderSize →
    Parses (lines.length + 2) b r (r.reqHeader.length + headerLines lines ≤ HeaderSize) := by
  induction lines with
  | nil =>
    intro b hv hb r hr hroom
    have hf : find b.readable [CR, LF] = some ([] : List Byte).length :=
      find_of_line hb (by decide)
    exact parses_done hr (parseHttpRequestHeader_eq hv hf r) le_rfl (by simpa [headerLines])
  | cons l lines ih =>
    intro b hv hb r hr hroom
    obtain ⟨hl, hlines⟩ := List.forall_mem_cons.mp hline
    set t := lines.flatMap (· ++ [CR, LF]) ++ [CR, LF] ++ s with ht
    have hb' : b.readable = l ++ [CR, LF] ++ t := by simpa [ht] using hb
    have hf := find_of_line hb' hl
    have htake : b.readable.take l.length = l := by
      rw [hb', List.append_assoc, List.take_left]
    have hstep := parseHttpRequestHeader_eq hv hf r
    rw [htake] at hstep
    rcases hd : l.dropInfix? [COLON, SP] with _ | ⟨key, value⟩
    · -- the line is taken for the empty one
      rw [hd] at hstep
      refine parses_done hr hstep (by omega) ?_
      simpa [headerLines, IsHeader, hd] using hroom
    simp only [hd] at hstep
    have hcount : headerLines (l :: lines) = headerLines lines + 1 := by
      simp [headerLines, IsHeader, hd]
    rw [hcount, List.length_cons]
    rcases Nat.lt_or_ge r.reqHeader.length HeaderSize with hlt | hge
    · set r₁ : HttpRequest := { r with reqHeader := r.reqHeader ++ [(block key, block value)] }
      have hle : l.length + 2 ≤ b.readable.length := find_le hf
      have hrest : (b.skip (l.length + 2)).readable = t := by
        rw [hv.readable_skip, hb', List.drop_left' (by simp)]
      have hlen : r₁.reqHeader.length = r.reqHeader.length + 1 := by simp [r₁]
      have ih := ih hlines (hv.skip hle) hrest (r := r₁) hr (by omega)
      have hround : ∀ n, r.parseLoop (n + 1) true b =
          r₁.parseLoop n true (b.skip (l.length + 2)) := parseLoop_header hv hr hb' hl hd hlt
      rw [hlen, show r.reqHeader.length + 1 + headerLines lines =
        r.reqHeader.length + (headerLines lines + 1) by omega] at ih
      constructor
      · intro hfits
        obtain ⟨r', b', hm, hu, hdone, hloop⟩ := ih.done hfits
        refine ⟨r', b', hm, hu, hdone, fun n hn => ?_⟩
        obtain ⟨n, rfl⟩ := Nat.exists_eq_add_of_le' (show 1 ≤ n by omega)
        rw [hround, hloop n (by omega)]
      · intro hfits n hn
        obtain ⟨n, rfl⟩ := Nat.exists_eq_add_of_le' (show 1 ≤ n by omega)
        rw [hround, ih.full hfits n (by omega)]
    · -- no room for the header
      rw [addHttpRequestHeader, if_neg (Nat.not_lt.mpr hge)] at hstep
      refine ⟨fun hfits => by omega, fun _ n hn => ?_⟩
      obtain ⟨n, rfl⟩ := Nat.exists_eq_add_of_le' (show 1 ≤ n by omega)
      simp [parseLoop, parseStep, hr, hstep, Except.map]

/-- **The round with the request line**, and what it leaves in the buffer. -/
lemma parseLoop_requestLine (q : CompleteRequest) (rest : List Byte) {b : Buffer} (hv : b.Valid)
    (hb : b.readable = q.render ++ rest) :
    ∃ b', b'.Valid ∧ b'.readable = q.lines.flatMap (· ++ [CR, LF]) ++ [CR, LF] ++ rest ∧
      ∀ n, init.parseLoop (n + 1) true b =
        parseLoop n true b' ⟨some (block q.method), some (block q.url), some (block q.version), [],
          .ParseReqHeader⟩ := by
  set s := q.lines.flatMap (· ++ [CR, LF]) ++ [CR, LF] ++ rest with hs
  have hb' : b.readable = q.line ++ [CR, LF] ++ s := by
    rw [hb, CompleteRequest.render, hs]
    simp
  have hf := Http.find_of_line hb' q.line_unbroken
  have htake : b.readable.take q.line.length = q.line := by
    rw [hb', List.append_assoc, List.take_left]
  have hpos : q.line.length ≠ 0 := by simp [CompleteRequest.line]
  have hstep := Http.HttpRequest.parseRequestLine_eq hv hf .reset
  rw [if_neg hpos, htake, CompleteRequest.line,
    Http.cutLine_fields q.method_space q.url_space] at hstep
  have hstep := parseHttpRequestLine_of hstep init
  have hle : q.line.length + 2 ≤ b.readable.length := find_le hf
  have hrest : (b.skip (q.line.length + 2)).readable = s := by
    rw [hv.readable_skip, hb', List.drop_left' (by simp)]
  refine ⟨_, hv.skip hle, hrest, fun n => ?_⟩
  have hinit : init.curState = .ParseReqLine := rfl
  rw [parseLoop, hinit, if_neg (by decide), parseStep, hinit]
  simp only [hstep]
  rfl

/-- **A complete request is parsed, if its headers have room.** -/
theorem parses (q : CompleteRequest) (rest : List Byte) {b : Buffer} (hv : b.Valid)
    (hb : b.readable = q.render ++ rest) :
    (headerLines q.lines ≤ HeaderSize → ∃ r' b', r'.method = some (block q.method) ∧
      r'.url = some (block q.url) ∧ r'.curState = .ParseReqDone ∧
      ∀ n ≥ q.lines.length + 3, init.parseLoop n true b = some (.ok (true, r', b'))) ∧
    (¬ headerLines q.lines ≤ HeaderSize → ∀ n ≥ q.lines.length + 3,
      init.parseLoop n true b = some (.error .memory)) := by
  obtain ⟨b₁, hv₁, hrest, hround⟩ := parseLoop_requestLine q rest hv hb
  set r : HttpRequest := ⟨some (block q.method), some (block q.url), some (block q.version), [],
    .ParseReqHeader⟩ with hr
  have hlines := parses_lines q.lines_unbroken rest hv₁ hrest (r := r) rfl (by simp [r])
  rw [show r.reqHeader.length + headerLines q.lines = headerLines q.lines by simp [r]] at hlines
  constructor
  · intro hfits
    obtain ⟨r', b', hm, hu, hdone, hloop⟩ := hlines.done hfits
    refine ⟨r', b', hm, hu, hdone, fun n hn => ?_⟩
    obtain ⟨n, rfl⟩ := Nat.exists_eq_add_of_le' (show 1 ≤ n by omega)
    rw [hround, hloop n (by omega)]
  · intro hfits n hn
    obtain ⟨n, rfl⟩ := Nat.exists_eq_add_of_le' (show 1 ≤ n by omega)
    rw [hround, hlines.full hfits n (by omega)]

end HttpRequest

/-! ### The response -/

/-- What `prepareMsgHttpResponse` needs: a code with a reason phrase, and a function that sends the
data. -/
structure HttpResponse.Prepared (resp : HttpResponse) : Prop where
  code : resp.StatusCode ≠ .Unknown
  phrase : resp.StatusMsg ≠ []
  function : resp.sendDataFunc.isSome

lemma isGet_block {method : List Byte} : isGet (block method) ↔ isGet method := by
  rw [isGet, cstr_block, isGet]

/-- A name that is found has room in `fileName`. -/
def NameFits (host : Http.Host) (file : List Byte) : Prop :=
  ∀ st, host.stat file = some st → file.length < fileNameSize

namespace HttpRequest

variable {r : HttpRequest} {method url : List Byte} (hm : r.method = some (block method))
  (hu : r.url = some (block url))
include hm hu

/-- **Every exit of `processHttpRequest`**, for the response of a new connection. -/
lemma processHttpRequest_get (hget : isGet method) (host : Http.Host) (fileName : List Byte) :
    (∃ r' resp, r.processHttpRequest host (.init fileName) = .ok (r', resp) ∧ resp.Prepared) ↔
      url ≠ [] ∧ NameFits host (Http.fileOf (Http.decodeMsg url)) := by
  simp only [processHttpRequest, hm, hu]
  rw [if_neg (not_not.mpr (isGet_block.mpr hget))]
  rcases eq_or_ne url [] with rfl | hurl
  · simp [fileOf_decodeMsg_nil, error_bind]
  rw [fileOf_decodeMsg hurl, ok_bind]
  set file := Http.fileOf (Http.decodeMsg url)
  have hnf : ascii "Not Found" ≠ [] := by decide
  have hok : ascii "OK" ≠ [] := by decide
  rcases hst : host.stat file with _ | st
  · refine iff_of_true ?_ ⟨hurl, fun st h => by rw [hst] at h; cases h⟩
    exact ⟨_, _, rfl, nofun, hnf, rfl⟩
  · have hname : NameFits host file ↔ file.length < fileNameSize := by
      simp [NameFits, hst]
    rw [and_iff_right hurl, hname]
    rcases Nat.lt_or_ge file.length fileNameSize with hlen | hlen
    · refine iff_of_true ?_ hlen
      simp only [strcpy, if_pos hlen, ok_bind]
      cases st.isDir
      · exact ⟨_, _, rfl, nofun, hok, rfl⟩
      · exact ⟨_, _, rfl, nofun, hok, rfl⟩
    · rw [strcpy, if_neg (Nat.not_lt.mpr hlen)]
      simp [error_bind, hlen]

end HttpRequest

/-! ### A defined response -/

/-- Within any number of rounds that is large enough, the parse of what is in the buffer of a new
connection comes back, having called `prepareMsgHttpResponse` on a response that can be
prepared. -/
def Answers {ω : Type} (out : Output ω) (host : Http.Host) (fileName : List Byte) (b : Buffer)
    (w : ω) : Prop :=
  ∃ rounds, ∀ n ≥ rounds, ∃ r b' resp w',
    HttpRequest.init.parseHttpRequest out host n b (.init fileName) w =
        some (.ok (true, r, b', some resp, w')) ∧
      resp.Prepared

/-- What this version asks of a request besides: that its header lines have room in `reqHeader`,
that its url is not empty, and that the name looked up, if it is there, has room in `fileName`. -/
structure Fits (host : Http.Host) (q : CompleteRequest) : Prop where
  headers : HttpRequest.headerLines q.lines ≤ HeaderSize
  url : q.url ≠ []
  name : NameFits host (Http.fileOf (Http.decodeMsg q.url))

section

variable {ω : Type} (out : Output ω)

end

/-- `method / HTTP/1.1`, without header lines. -/
def requestRoot (method : List Byte) (hm : SP ∉ method)
    (hl : ¬ [CR, LF] <:+: method ++ [SP] ++ [47] ++ [SP] ++ [72, 84, 84, 80, 47, 49, 46, 49]) :
    CompleteRequest where
  method := method
  url := [47]
  version := [72, 84, 84, 80, 47, 49, 46, 49]
  lines := []
  method_space := hm
  url_space := Http.getRoot.url_space
  line_unbroken := hl
  lines_ne := by simp
  lines_unbroken := by simp

def getRoot : CompleteRequest :=
  requestRoot [71, 69, 84] Http.getRoot.method_space Http.getRoot.line_not_infix
/-- The request alone in a buffer. -/
def bufferOf (q : CompleteRequest) : Buffer := ⟨4096, q.render, 0, q.render.length⟩

/-- A connection of which nothing is kept. -/
def noOutput : Output Unit := ⟨fun _ => id, id, fun _ => id, fun _ => id⟩

end Reactor.HttpC
