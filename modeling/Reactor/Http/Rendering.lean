import Reactor.Http.Lines

/-!
Parsing a request that was rendered: the parser finds what was put in, up to the first of
several headers with one key, and leaves exactly what follows the request.
-/

namespace Reactor.Http

open Lib.Infix

/-- No part of a line end. -/
def Unbroken (s : List Byte) : Prop := CR ∉ s ∧ LF ∉ s

instance (s : List Byte) : Decidable (Unbroken s) := inferInstanceAs (Decidable (_ ∧ _))

/-- A header that its line says unambiguously. -/
structure Header where
  key : List Byte
  value : List Byte
  key_ne : key ≠ []
  value_ne : value ≠ []
  key_sep : ¬ [COLON, SP] <:+: key
  key_unbroken : Unbroken key
  value_unbroken : Unbroken value

/-- A request, as it is rendered. -/
structure Request where
  method : List Byte
  url : List Byte
  version : List Byte
  headers : List Header
  method_space : SP ∉ method
  url_space : SP ∉ url
  method_unbroken : Unbroken method
  url_unbroken : Unbroken url
  version_unbroken : Unbroken version

/-- `k: v`. -/
def Header.line (h : Header) : List Byte := h.key ++ [COLON, SP] ++ h.value

def Header.render (h : Header) : List Byte := h.line ++ [CR, LF]

def renderHeaders (hs : List Header) : List Byte := hs.flatMap Header.render

namespace Request

/-- `method url version`. -/
def line (q : Request) : List Byte := q.method ++ [SP] ++ q.url ++ [SP] ++ q.version

def render (q : Request) : List Byte := q.line ++ [CR, LF] ++ renderHeaders q.headers ++ [CR, LF]

/-- The value of the first header with the key. -/
def valueOf (key : List Byte) (q : Request) : List Byte :=
  ((q.headers.find? fun h => h.key = key).map Header.value).getD []

end Request

/-! ### The lines -/

lemma Unbroken.not_infix {l : List Byte} (h : Unbroken l) : ¬ [CR, LF] <:+: l :=
  fun hi => h.1 (hi.subset (by simp))

lemma find_lineEnd {l : List Byte} (h : Unbroken l) (s : List Byte) :
    find (l ++ [CR, LF] ++ s) [CR, LF] = some l.length := by
  simpa using find_pair (s := s) h.not_infix (by decide)

lemma Request.line_unbroken (q : Request) : Unbroken q.line := by
  have hm := q.method_unbroken
  have hu := q.url_unbroken
  have hv := q.version_unbroken
  have hs : Unbroken [SP] := by decide
  simp only [Unbroken, line, List.mem_append, not_or] at hm hu hv hs ⊢
  tauto

/-- The three fields of a request line are found again. -/
lemma cutLine_fields {method url version : List Byte} (hm : SP ∉ method) (hu : SP ∉ url) :
    cutLine (method ++ [SP] ++ url ++ [SP] ++ version) = some (method, url, version) := by
  have hm := dropInfix_of_find (find_singleton (s := url ++ [SP] ++ version) hm)
  have hu := dropInfix_of_find (find_singleton (s := version) hu)
  simp only [List.length_singleton, List.take_left, List.append_assoc, List.singleton_append,
    ← List.drop_drop, List.drop_left, List.drop_one, List.tail_cons] at hm hu
  simp only [cutLine, List.append_assoc, List.cons_append, List.nil_append, hm, hu,
    Option.bind_some, Option.map_some]

lemma Request.cutLine_line (q : Request) :
    cutLine q.line = some (q.method, q.url, q.version) :=
  cutLine_fields q.method_space q.url_space

lemma Request.line_not_infix (q : Request) : ¬ [CR, LF] <:+: q.line :=
  q.line_unbroken.not_infix

lemma Header.line_unbroken (h : Header) : Unbroken h.line := by
  have hk := h.key_unbroken
  have hv := h.value_unbroken
  have hs : Unbroken [COLON, SP] := by decide
  simp only [Unbroken, line, List.mem_append, not_or] at hk hv hs ⊢
  tauto

lemma Header.dropInfix_line (h : Header) :
    h.line.dropInfix? [COLON, SP] = some (h.key, h.value) := dropInfix_pair h.key_sep (by decide)

/-! ### The headers -/

namespace HttpRequest

/-- The request with the headers added. -/
def addHeaders (hs : List Header) (r : HttpRequest) : HttpRequest :=
  hs.foldl (fun r h => r.addHeader h.key h.value) r

/-- Adding a header changes the headers only. -/
lemma addHeader_eq (key value : List Byte) (r : HttpRequest) :
    r.addHeader key value = { r with m_reqHeaders := (r.addHeader key value).m_reqHeaders } := by
  unfold addHeader
  split_ifs <;> rfl

lemma addHeaders_eq (hs : List Header) (r : HttpRequest) :
    r.addHeaders hs = { r with m_reqHeaders := (r.addHeaders hs).m_reqHeaders } := by
  induction hs generalizing r with
  | nil => rfl
  | cons h hs ih =>
    have hh := addHeader_eq h.key h.value r
    calc r.addHeaders (h :: hs) = (r.addHeader h.key h.value).addHeaders hs := rfl
      _ = { r.addHeader h.key h.value with
            m_reqHeaders := ((r.addHeader h.key h.value).addHeaders hs).m_reqHeaders } := ih _
      _ = { r with m_reqHeaders := (r.addHeaders (h :: hs)).m_reqHeaders } := by
          simp only [mk.injEq]
          exact ⟨by rw [hh], by rw [hh], by rw [hh], rfl, by rw [hh]⟩

lemma lookup_addHeader (h : Header) (key : List Byte) (r : HttpRequest) :
    (r.addHeader h.key h.value).m_reqHeaders.lookup key =
      (r.m_reqHeaders.lookup key).or (if h.key = key then some h.value else none) := by
  rw [addHeader, if_neg (by simp [h.key_ne, h.value_ne])]
  split_ifs with hsome hkey hkey
  · obtain ⟨v, hv⟩ := Option.isSome_iff_exists.mp hsome
    rw [hkey] at hv
    simp [hv]
  · simp
  · simp [List.lookup_append, hkey]
  · have : (key == h.key) = false := by simp [Ne.symm hkey]
    simp [List.lookup_append, List.lookup_cons, this]

/-- The first of the headers with a key is the one that stays. -/
lemma lookup_addHeaders (hs : List Header) (key : List Byte) (r : HttpRequest) :
    (r.addHeaders hs).m_reqHeaders.lookup key =
      (r.m_reqHeaders.lookup key).or ((hs.find? fun h => h.key = key).map Header.value) := by
  induction hs generalizing r with
  | nil => simp [addHeaders]
  | cons h hs ih =>
    have := ih (r.addHeader h.key h.value)
    rw [lookup_addHeader] at this
    rw [show r.addHeaders (h :: hs) = (r.addHeader h.key h.value).addHeaders hs from rfl, this,
      Option.or_assoc, List.find?_cons]
    by_cases hk : h.key = key <;> simp [hk]

/-! ### The parse -/

section

variable {ω : Type*} (processHttpRequest : HttpRequest → ω → List Byte × ω) (prepareMsg : ω → ω)

/-- **A header line adds its header.** -/
lemma parseRequestHeader_render {b : Buffer} (hv : b.Valid) (h : Header) (s : List Byte)
    (hb : b.readable = h.render ++ s) (r : HttpRequest) :
    r.parseRequestHeader b = .ok (true, r.addHeader h.key h.value, b.skip h.render.length) := by
  have hf := find_lineEnd h.line_unbroken s
  rw [← Header.render, ← hb] at hf
  have hline : b.readable.take h.line.length = h.line := by
    rw [hb, Header.render, List.append_assoc, List.take_left]
  rw [parseRequestHeader_eq hv hf, hline, h.dropInfix_line]
  simp [Header.render]

/-- **The empty line ends the headers.** -/
lemma parseRequestHeader_end {b : Buffer} (hv : b.Valid) (s : List Byte)
    (hb : b.readable = [CR, LF] ++ s) (r : HttpRequest) :
    r.parseRequestHeader b = .ok (true, { r with m_curState := .ParseReqDone }, b.skip 2) := by
  have hf := find_lineEnd (l := []) (by decide) s
  rw [List.nil_append, ← hb] at hf
  rw [parseRequestHeader_eq hv hf]
  rfl

/-- The request parsed out of the rendered headers. -/
def withHeaders (hs : List Header) (r : HttpRequest) : HttpRequest :=
  { r.addHeaders hs with m_curState := .ParseReqDone }

/-- The rest of the parse, from the first header line on: one round for each header, one for
the empty line, and one to leave the loop. -/
lemma parseLoop_renderHeaders (hs : List Header) (s : List Byte) :
    ∀ {b : Buffer}, b.Valid → b.readable = renderHeaders hs ++ [CR, LF] ++ s →
    ∀ {r : HttpRequest}, r.m_curState = .ParseReqHeaders → ∀ (w : ω) (rounds : ℕ),
    parseLoop processHttpRequest prepareMsg (rounds + 2 + hs.length) true b r w =
      some (.ok (true,
        { r.withHeaders hs with
          m_url := (processHttpRequest (r.withHeaders hs) w).1
          m_curState := .ParseReqLine },
        b.skip ((renderHeaders hs).length + 2),
        prepareMsg (processHttpRequest (r.withHeaders hs) w).2)) := by
  induction hs with
  | nil =>
    intro b hv hb r hr w rounds
    have hstep := parseRequestHeader_end hv s (by simpa [renderHeaders] using hb) r
    simp [parseLoop, parseStep, hr, hstep, withHeaders, addHeaders, renderHeaders]
  | cons h hs ih =>
    intro b hv hb r hr w rounds
    have hb' : b.readable = h.render ++ (renderHeaders hs ++ [CR, LF] ++ s) := by
      simpa [renderHeaders] using hb
    have hstep := parseRequestHeader_render hv h _ hb' r
    have hle : h.render.length ≤ b.readable.length := by
      rw [hb', List.length_append]
      omega
    have hrest : (b.skip h.render.length).readable = renderHeaders hs ++ [CR, LF] ++ s := by
      rw [hv.readable_skip, hb', List.drop_left]
    have hr' : (r.addHeader h.key h.value).m_curState = .ParseReqHeaders := by
      rw [addHeader_eq, hr]
    have hloop := ih (hv.skip hle) hrest hr' w rounds
    have hlen : h.render.length + ((renderHeaders hs).length + 2) =
        (renderHeaders (h :: hs)).length + 2 := by
      simp only [renderHeaders, List.flatMap_cons, List.length_append, Nat.add_assoc]
    rw [List.length_cons, ← Nat.add_assoc, parseLoop]
    simp only [parseStep, hr, hstep]
    rw [if_neg (by decide), if_neg (by decide), hr', if_neg (by decide), hloop,
      Buffer.skip_skip, hlen]
    rfl

end

/-- **Parsing inverts rendering.** For a buffer that holds a rendered request and more, the
loop comes to a request in state `ParseReqDone` with the fields that were rendered, hands it to
`processHttpRequest`, whatever that does, and leaves the bytes after the request. -/
theorem parseHttpRequest_render {ω : Type*} (q : Request) (rest : List Byte) {b : Buffer}
    (hv : b.Valid) (hb : b.readable = q.render ++ rest) :
    ∃ (r : HttpRequest) (b' : Buffer),
      r.m_curState = .ParseReqDone ∧ r.m_method = q.method ∧ r.m_url = q.url ∧
      r.m_version = q.version ∧ (∀ key, r.getHeader key = q.valueOf key) ∧
      b'.readable = rest ∧
      ∀ (processHttpRequest : HttpRequest → ω → List Byte × ω) (prepareMsg : ω → ω) (w : ω),
        ∀ rounds ≥ q.headers.length + 3,
          parseHttpRequest processHttpRequest prepareMsg rounds b reset w =
            some (.ok (true,
              { r with
                m_url := (processHttpRequest r w).1
                m_curState := .ParseReqLine },
              b', prepareMsg (processHttpRequest r w).2)) := by
  set s := renderHeaders q.headers ++ [CR, LF] ++ rest with hs
  have hb' : b.readable = q.line ++ [CR, LF] ++ s := by
    rw [hb, Request.render, hs]
    simp
  have hf := find_lineEnd q.line_unbroken s
  rw [← hb'] at hf
  have hline : b.readable.take q.line.length = q.line := by
    rw [hb', List.append_assoc, List.take_left]
  have hpos : q.line.length ≠ 0 := by
    simp [Request.line]
  have hstep := parseRequestLine_eq hv hf reset
  rw [if_neg hpos, hline, q.cutLine_line] at hstep
  have hle : q.line.length + 2 ≤ b.readable.length := find_le hf
  have hrest : (b.skip (q.line.length + 2)).readable = s := by
    rw [hv.readable_skip, hb', List.drop_left' (by simp)]
  set r₀ : HttpRequest := ⟨q.method, q.url, q.version, [], .ParseReqHeaders⟩ with hr₀
  have hfields := addHeaders_eq q.headers r₀
  refine ⟨r₀.withHeaders q.headers,
    (b.skip (q.line.length + 2)).skip ((renderHeaders q.headers).length + 2), rfl, ?_, ?_, ?_,
    fun key => ?_, ?_, fun processHttpRequest prepareMsg w rounds hrounds => ?_⟩
  · rw [withHeaders, hfields]
  · rw [withHeaders, hfields]
  · rw [withHeaders, hfields]
  · rw [getHeader, withHeaders, lookup_addHeaders, Request.valueOf]
    rfl
  · rw [(hv.skip hle).readable_skip, hrest, hs, List.drop_left' (by simp)]
  · obtain ⟨n, rfl⟩ : ∃ n, rounds = n + 2 + q.headers.length + 1 :=
      ⟨rounds - (q.headers.length + 3), by omega⟩
    have hloop := parseLoop_renderHeaders processHttpRequest prepareMsg q.headers rest
      (hv.skip hle) hrest (r := r₀) rfl w n
    rw [parseHttpRequest, parseLoop, parseStep, if_neg (by decide)]
    simp only [reset] at hstep ⊢
    simp only [hstep]
    rw [if_neg (by decide), if_neg (by decide), hloop]

end HttpRequest

/-- `GET / HTTP/1.1` with the headers `A:: x: y` and `A:: z`. -/
def getRoot : Request where
  method := [71, 69, 84]
  url := [47]
  version := [72, 84, 84, 80, 47, 49, 46, 49]
  headers :=
    [ { key := [65, 58], value := [120, 58, 32, 121], key_ne := by decide,
        value_ne := by decide, key_sep := by decide, key_unbroken := by decide,
        value_unbroken := by decide },
      { key := [65, 58], value := [122], key_ne := by decide, value_ne := by decide,
        key_sep := by decide, key_unbroken := by decide, value_unbroken := by decide } ]
  method_space := by decide
  url_space := by decide
  method_unbroken := by decide
  url_unbroken := by decide
  version_unbroken := by decide

/-- The request in a buffer, after two bytes read and before two that follow it. -/
def getRootBuffer : Buffer where
  m_data := 4096
  bytes := [0, 0] ++ getRoot.render ++ [71, 69, 0, 0]
  m_readPos := 2
  m_writePos := 2 + getRoot.render.length + 2

lemma getRootBuffer_valid : getRootBuffer.Valid := by
  constructor <;> decide +kernel

/-- The headers `A:` and the two bytes left, for a server that answers nothing. -/
theorem parseHttpRequest_render_getRoot :
    ∃ (r : HttpRequest) (b' : Buffer), r.m_curState = .ParseReqDone ∧ r.m_method = [71, 69, 84] ∧
      r.getHeader [65, 58] = [120, 58, 32, 121] ∧ b'.readable = [71, 69] ∧
      HttpRequest.parseHttpRequest (fun r (_ : Unit) => (r.m_url, ())) id 5 getRootBuffer
        .reset () = some (.ok (true, { r with m_curState := .ParseReqLine }, b', ())) := by
  obtain ⟨r, b', hdone, hmethod, -, -, hheader, hrest, hparse⟩ :=
    HttpRequest.parseHttpRequest_render (ω := Unit) getRoot [71, 69] getRootBuffer_valid
      (by decide +kernel)
  refine ⟨r, b', hdone, hmethod, (hheader _).trans (by decide +kernel), hrest, ?_⟩
  exact hparse _ _ () 5 (by decide)

end Reactor.Http
