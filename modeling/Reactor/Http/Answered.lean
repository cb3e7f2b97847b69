import Reactor.Http.HeaderLines
import Reactor.Http.Rendering
import Reactor.Http.HttpResponse
import Reactor.Lib.Errors

/-!
What the server answers to a request that has arrived as a whole, of any form of header lines: the
parse comes to `prepareMsg` once, with a response that can be prepared exactly if the method is
`get` in any case.
-/

namespace Reactor.Http

open Lib.Infix Lib.Errors

/-- A request with any three fields and any header lines. -/
structure CompleteRequest where
  method : List Byte
  url : List Byte
  version : List Byte
  lines : List (List Byte)
  method_space : SP ∉ method
  url_space : SP ∉ url
  line_unbroken : ¬ [CR, LF] <:+: method ++ [SP] ++ url ++ [SP] ++ version
  lines_ne : ∀ l ∈ lines, l ≠ []
  lines_unbroken : ∀ l ∈ lines, ¬ [CR, LF] <:+: l

namespace CompleteRequest

/-- `method url version`. -/
def line (q : CompleteRequest) : List Byte := q.method ++ [SP] ++ q.url ++ [SP] ++ q.version

def render (q : CompleteRequest) : List Byte :=
  q.line ++ [CR, LF] ++ q.lines.flatMap (· ++ [CR, LF]) ++ [CR, LF]

end CompleteRequest

/-! ### The parse -/

namespace HttpRequest

section

variable {ω : Type*} (processHttpRequest : HttpRequest → ω → List Byte × ω) (prepareMsg : ω → ω)

/-- The parse hands the request `r'` over, whatever that does, and comes back. -/
def HandsOver (rounds : ℕ) (b : Buffer) (r r' : HttpRequest) (b' : Buffer) : Prop :=
  r'.m_method = r.m_method ∧ r'.m_url = r.m_url ∧ ∀ n ≥ rounds, ∀ w,
    parseLoop processHttpRequest prepareMsg n true b r w =
      some (.ok (true,
        { r' with
          m_url := (processHttpRequest r' w).1
          m_curState := .ParseReqLine },
        b', prepareMsg (processHttpRequest r' w).2))

/-- At a line without a separator, the parse is over. -/
lemma handsOver_done {b : Buffer} {r : HttpRequest} (hr : r.m_curState = .ParseReqHeaders)
    (h : r.parseRequestHeader b =
      .ok (true, { r with m_curState := .ParseReqDone }, b.skip 2)) :
    HandsOver processHttpRequest prepareMsg 2 b r { r with m_curState := .ParseReqDone }
      (b.skip 2) := by
  refine ⟨rfl, rfl, fun n hn w => ?_⟩
  obtain ⟨n, rfl⟩ := Nat.exists_eq_add_of_le' hn
  simp [parseLoop, parseStep, hr, h]

/-- From the header lines on. -/
lemma handsOver_lines {lines : List (List Byte)} (hne : ∀ l ∈ lines, l ≠ [])
    (hline : ∀ l ∈ lines, ¬ [CR, LF] <:+: l) (s : List Byte) :
    ∀ {b : Buffer}, b.Valid → b.readable = lines.flatMap (· ++ [CR, LF]) ++ [CR, LF] ++ s →
    ∀ {r : HttpRequest}, r.m_curState = .ParseReqHeaders →
    ∃ r' b', HandsOver processHttpRequest prepareMsg (lines.length + 2) b r r' b' := by
  induction lines with
  | nil =>
    intro b hv hb r hr
    exact ⟨_, _, handsOver_done _ _ hr (parseRequestHeader_end hv s (by simpa using hb) r)⟩
  | cons l lines ih =>
    intro b hv hb r hr
    obtain ⟨hl, hlines⟩ := List.forall_mem_cons.mp hline
    set t := lines.flatMap (· ++ [CR, LF]) ++ [CR, LF] ++ s with ht
    have hb' : b.readable = l ++ [CR, LF] ++ t := by simpa [ht] using hb
    have hf := find_of_line hb' hl
    have htake : b.readable.take l.length = l := by
      rw [hb', List.append_assoc, List.take_left]
    have hstep := parseRequestHeader_eq hv hf r
    rw [htake] at hstep
    rcases hd : l.dropInfix? [COLON, SP] with _ | ⟨key, value⟩
    · -- the line is taken for the empty one
      rw [hd] at hstep
      obtain ⟨hm, hu, hloop⟩ := handsOver_done processHttpRequest prepareMsg hr hstep
      exact ⟨_, _, hm, hu, fun n hn => hloop n (by omega)⟩
    · rw [hd] at hstep
      have hle : l.length + 2 ≤ b.readable.length := find_le hf
      have hrest : (b.skip (l.length + 2)).readable = t := by
        rw [hv.readable_skip, hb', List.drop_left' (by simp)]
      have hr' : (r.addHeader key value).m_curState = .ParseReqHeaders := by
        rw [addHeader_eq, hr]
      obtain ⟨r', b', hm, hu, hloop⟩ :=
        ih (List.forall_mem_cons.mp hne).2 hlines (hv.skip hle) hrest hr'
      refine ⟨r', b', ?_, ?_, fun n hn w => ?_⟩
      · rw [hm, addHeader_eq]
      · rw [hu, addHeader_eq]
      · obtain ⟨n, rfl⟩ := Nat.exists_eq_add_of_le' hn
        have hn' := hloop (n + 2 + lines.length) (by omega) w
        rw [show n + ((l :: lines).length + 2) = n + 2 + lines.length + 1 by
          rw [List.length_cons]; omega, parseLoop]
        simp only [parseStep, hr, hstep]
        rw [if_neg (by decide), if_neg (by decide), hr', if_neg (by decide), hn']

/-- **A complete request is handed over.** -/
theorem handsOver (q : CompleteRequest) (rest : List Byte) {b : Buffer} (hv : b.Valid)
    (hb : b.readable = q.render ++ rest) :
    ∃ r' b', r'.m_method = q.method ∧ r'.m_url = q.url ∧ ∀ n ≥ q.lines.length + 3, ∀ w,
      parseHttpRequest processHttpRequest prepareMsg n b reset w =
        some (.ok (true,
          { r' with
            m_url := (processHttpRequest r' w).1
            m_curState := .ParseReqLine },
          b', prepareMsg (processHttpRequest r' w).2)) := by
  set s := q.lines.flatMap (· ++ [CR, LF]) ++ [CR, LF] ++ rest with hs
  have hb' : b.readable = q.line ++ [CR, LF] ++ s := by
    rw [hb, CompleteRequest.render, hs]
    simp
  have hf := find_of_line hb' q.line_unbroken
  have htake : b.readable.take q.line.length = q.line := by
    rw [hb', List.append_assoc, List.take_left]
  have hpos : q.line.length ≠ 0 := by simp [CompleteRequest.line]
  have hstep := parseRequestLine_eq hv hf reset
  rw [if_neg hpos, htake, CompleteRequest.line,
    cutLine_fields q.method_space q.url_space] at hstep
  have hle : q.line.length + 2 ≤ b.readable.length := find_le hf
  have hrest : (b.skip (q.line.length + 2)).readable = s := by
    rw [hv.readable_skip, hb', List.drop_left' (by simp)]
  obtain ⟨r', b', hm, hu, hloop⟩ := handsOver_lines processHttpRequest prepareMsg q.lines_ne
    q.lines_unbroken rest (hv.skip hle) hrest
    (r := ⟨q.method, q.url, q.version, [], .ParseReqHeaders⟩) rfl
  refine ⟨r', b', hm, hu, fun n hn w => ?_⟩
  obtain ⟨n, rfl⟩ := Nat.exists_eq_add_of_le' hn
  have hn' := hloop (n + (q.lines.length + 2)) (by omega) w
  rw [parseHttpRequest, show n + (q.lines.length + 3) = n + (q.lines.length + 2) + 1 by omega,
    parseLoop, parseStep, if_neg (by decide)]
  simp only [reset] at hstep ⊢
  simp only [CompleteRequest.line] at hn'
  simp only [hstep]
  rw [if_neg (by decide), if_neg (by decide), hn']

end

end HttpRequest

/-! ### The response -/

lemma raises_sprintf (size : ℕ) (text : List Byte) : Raises {.memory} (sprintf size text) := by
  unfold sprintf
  split_ifs
  · exact raises_ok _ _
  · exact raises_error rfl

namespace HttpResponse

/-- What `prepareMsg` needs: a code with a reason phrase, and a function that sends the data. -/
def Prepared (r : HttpResponse) : Prop :=
  (m_info.lookup r.m_statusCode.toNat).isSome ∧ r.sendDataFunc.isSome

instance (r : HttpResponse) : Decidable r.Prepared := inferInstanceAs (Decidable (_ ∧ _))

@[simp] lemma addHeader_m_statusCode (key value : List Byte) (r : HttpResponse) :
    (r.addHeader key value).m_statusCode = r.m_statusCode := by
  unfold addHeader
  split_ifs <;> rfl

end HttpResponse

/-- `prepareMsg` has been called, each time on a response that can be prepared, and it has not
ended in the lookup of the code nor in the call of the function. -/
structure Reply.Defined (w : Reply) : Prop where
  called : w.prepared ≠ []
  prepared : ∀ response ∈ w.prepared, response.Prepared
  code : w.abort ≠ some .outOfRange
  function : w.abort ≠ some .badFunctionCall

/-- Within any number of rounds that is large enough, the parse of what is in the buffer of a new
connection comes back with a defined response. -/
def Answers (host : Host) (b sendBuf : Buffer) (socket : Socket) : Prop :=
  ∃ rounds, ∀ n ≥ rounds, ∃ r b' w,
    HttpRequest.reset.parse host n b (.new .new sendBuf socket) = some (.ok (true, r, b', w)) ∧
      w.Defined

end Reactor.Http
