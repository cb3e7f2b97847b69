import Reactor.HttpC.Answered
import Reactor.Lib.Search

/-!
The headers that the C version stores and looks up. The array has room for `HeaderSize`, and
`getHttpRequestHeader` returns the first header that `strncasecmp` tells apart from the key.
-/

namespace Reactor.HttpC

open Lib.Infix Lib.Search
open Http (CompleteRequest cstr tolower find_of_line SP CR LF COLON)

/-! ### Keys -/

/-- A string, ignoring case. -/
def lower (s : List Byte) : List Byte := (cstr s).map tolower

/-- The keys are equal, ignoring case. -/
def SameKey (key key' : List Byte) : Prop := lower key = lower key'

/-- A key begins with another, ignoring case. -/
def BeginsWith (key first : List Byte) : Prop := lower first <+: lower key

instance (key key' : List Byte) : Decidable (SameKey key key') :=
  inferInstanceAs (Decidable (_ = _))

instance (key first : List Byte) : Decidable (BeginsWith key first) :=
  inferInstanceAs (Decidable (_ <+: _))

lemma lower_block (s : List Byte) : lower (block s) = lower s := by rw [lower, cstr_block, lower]

/-- Over the length of the second string, `strncasecmp` compares with the start of the first. -/
lemma strncasecmp_iff (key first : List Byte) :
    strncasecmp key first (cstr first).length ↔ BeginsWith key first := by
  rw [strncasecmp, BeginsWith, List.prefix_iff_eq_take, List.take_length, List.map_take, lower,
    lower, List.length_map]
  exact eq_comm

/-! ### Header lines -/

/-- A line `key: value`, with the first separator between the two. -/
structure HeaderLine where
  key : List Byte
  value : List Byte
  key_sep : ¬ [COLON, SP] <:+: key
  line_unbroken : ¬ [CR, LF] <:+: key ++ [COLON, SP] ++ value

namespace HeaderLine

/-- `key: value`. -/
def line (h : HeaderLine) : List Byte := h.key ++ [COLON, SP] ++ h.value

/-- What is stored of it. -/
def stored (h : HeaderLine) : List Byte × List Byte := (block h.key, block h.value)

lemma line_ne (h : HeaderLine) : h.line ≠ [] := by simp [line]

lemma dropInfix_line (h : HeaderLine) :
    h.line.dropInfix? [COLON, SP] = some (h.key, h.value) := dropInfix_pair h.key_sep (by decide)

end HeaderLine

/-- A complete request of which every header line is of the form `key: value`. -/
structure WellFormed extends CompleteRequest where
  headers : List HeaderLine
  lines_eq : lines = headers.map HeaderLine.line

namespace HttpRequest

lemma headerLines_map (hs : List HeaderLine) :
    headerLines (hs.map HeaderLine.line) = hs.length := by
  rw [headerLines, List.takeWhile_eq_self_iff.mpr, List.length_map]
  intro l hl
  obtain ⟨h, -, rfl⟩ := List.mem_map.mp hl
  rw [IsHeader, h.dropInfix_line, Option.isSome_some]

/-- **The rounds with the header lines**: what they say is stored, in their order. -/
lemma parseLoop_headers (hs : List HeaderLine) (s : List Byte) :
    ∀ {b : Buffer}, b.Valid →
    b.readable = (hs.map HeaderLine.line).flatMap (· ++ [CR, LF]) ++ [CR, LF] ++ s →
    ∀ {r : HttpRequest}, r.curState = .ParseReqHeader →
    r.reqHeader.length + hs.length ≤ HeaderSize →
    ∃ b', ∀ n ≥ hs.length + 2, r.parseLoop n true b =
      some (.ok (true,
        { r with
          reqHeader := r.reqHeader ++ hs.map HeaderLine.stored
          curState := .ParseReqDone },
        b')) := by
  induction hs with
  | nil =>
      intro b hv hb r hr hroom
      have hf : find b.readable [CR, LF] = some ([] : List Byte).length :=
        find_of_line hb (by decide)
      refine ⟨b.skip 2, fun n hn => ?_⟩
      obtain ⟨n, rfl⟩ := Nat.exists_eq_add_of_le' hn
      rw [List.map_nil, List.append_nil]
      exact parseLoop_done hr (parseHttpRequestHeader_eq hv hf r) n
  | cons h hs ih =>
      intro b hv hb r hr hroom
      set t := (hs.map HeaderLine.line).flatMap (· ++ [CR, LF]) ++ [CR, LF] ++ s with ht
      have hb' : b.readable = h.line ++ [CR, LF] ++ t := by simpa [ht] using hb
      have hf := find_of_line hb' h.line_unbroken
      have hrest : (b.skip (h.line.length + 2)).readable = t := by
        rw [hv.readable_skip, hb', List.drop_left' (by simp)]
      rw [List.length_cons] at hroom
      set r₁ : HttpRequest := { r with reqHeader := r.reqHeader ++ [h.stored] }
      have hlen : r₁.reqHeader.length = r.reqHeader.length + 1 := by simp [r₁]
      obtain ⟨b', hloop⟩ := ih (hv.skip (find_le hf)) hrest (r := r₁) hr (by omega)
      refine ⟨b', fun n hn => ?_⟩
      rw [List.length_cons] at hn
      obtain ⟨n, rfl⟩ := Nat.exists_eq_add_of_le' (show 1 ≤ n by omega)
      have hround := parseLoop_header hv hr hb' h.line_unbroken h.dropInfix_line
        (show r.reqHeader.length < HeaderSize by omega) n
      rw [hround]
      simpa [r₁, HeaderLine.stored] using hloop n (by omega)

/-- **The headers of a request that has room for them.** -/
lemma parseLoop_wellFormed (q : WellFormed) (rest : List Byte) {b : Buffer} (hv : b.Valid)
    (hb : b.readable = q.render ++ rest) (hroom : q.headers.length ≤ HeaderSize) :
    ∃ r b', r.reqHeader = q.headers.map HeaderLine.stored ∧
      ∀ n ≥ q.headers.length + 3, init.parseLoop n true b = some (.ok (true, r, b')) := by
  obtain ⟨b₁, hv₁, hrest, hround⟩ := parseLoop_requestLine q.toCompleteRequest rest hv hb
  rw [q.lines_eq] at hrest
  obtain ⟨b', hloop⟩ := parseLoop_headers q.headers rest hv₁ hrest
    (r := ⟨some (block q.method), some (block q.url), some (block q.version), [], .ParseReqHeader⟩)
    rfl (by simpa using hroom)
  refine ⟨⟨some (block q.method), some (block q.url), some (block q.version),
    [] ++ q.headers.map HeaderLine.stored, .ParseReqDone⟩, b', List.nil_append _, fun n hn => ?_⟩
  obtain ⟨n, rfl⟩ := Nat.exists_eq_add_of_le' (show 1 ≤ n by omega)
  rw [hround, hloop n (by omega)]

/-! ### The lookup -/

/-- `getHttpRequestHeader` gives the first header whose key does not begin with the one asked
for. -/
lemma getHttpRequestHeader_eq {r : HttpRequest} {hs : List HeaderLine}
    (hr : r.reqHeader = hs.map HeaderLine.stored) (key : List Byte) :
    (r.getHttpRequestHeader key).map cstr =
      (hs.find? fun h => ¬ BeginsWith h.key key).map (cstr ·.value) := by
  have hkey : ∀ h : HeaderLine,
      strncasecmp h.stored.1 key (cstr key).length ↔ BeginsWith h.key key := fun h => by
    rw [strncasecmp_iff, HeaderLine.stored, BeginsWith, lower_block, BeginsWith]
  rw [getHttpRequestHeader, hr, List.find?_map, Option.map_map, Option.map_map]
  have hfind : ((fun h => decide ¬ strncasecmp h.1 key (cstr key).length) ∘ HeaderLine.stored) =
      fun h : HeaderLine => decide ¬ BeginsWith h.key key := by
    funext h
    simp only [Function.comp_apply, hkey]
  rw [hfind]
  refine congrArg (Option.map · _) ?_
  funext h
  exact cstr_block h.value

/-- The value of the first header with the key. -/
lemma find_sameKey_eq (hs : List HeaderLine) (key : List Byte) :
    ((hs.map HeaderLine.stored).find? fun h => SameKey h.1 key).map (cstr ·.2) =
      (hs.find? fun h => SameKey h.key key).map (cstr ·.value) := by
  rw [List.find?_map, Option.map_map]
  have hfind : ((fun h : List Byte × List Byte => decide (SameKey h.1 key)) ∘
      HeaderLine.stored) = fun h : HeaderLine => decide (SameKey h.key key) := by
    funext h
    refine decide_eq_decide.mpr ?_
    rw [HeaderLine.stored, SameKey, lower_block, SameKey]
  rw [hfind]
  refine congrArg (Option.map · _) ?_
  funext h
  exact cstr_block h.value

/-- The parse comes to its end, the array has room for what is stored, and the lookup gives the
value of the first header stored under the key, or `NULL` if there is none. -/
def Found (b : Buffer) (key : List Byte) : Prop :=
  ∃ rounds r b', (∀ n ≥ rounds, init.parseLoop n true b = some (.ok (true, r, b'))) ∧
    r.reqHeader.length ≤ HeaderSize ∧
    (r.getHttpRequestHeader key).map cstr =
      (r.reqHeader.find? fun h => SameKey h.1 key).map (cstr ·.2)

/-- All keys begin with the one asked for, and none equals it, or the first that does not begin
with it has the same value as the first that equals it. -/
def Agree (hs : List HeaderLine) (key : List Byte) : Prop :=
  (∀ h ∈ hs, BeginsWith h.key key ∧ ¬ SameKey h.key key) ∨
    ∃ h h', First (fun h : HeaderLine => ¬ BeginsWith h.key key) hs h ∧
      First (fun h : HeaderLine => SameKey h.key key) hs h' ∧ cstr h.value = cstr h'.value

lemma agree_iff (hs : List HeaderLine) (key : List Byte) : Agree hs key ↔
    (hs.find? fun h => ¬ BeginsWith h.key key).map (cstr ·.value) =
      (hs.find? fun h => SameKey h.key key).map (cstr ·.value) := by
  rw [map_find_eq_iff, Agree]
  simp only [not_not]

/-- With room for the headers. -/
lemma found_iff_agree (q : WellFormed) (rest : List Byte) {b : Buffer} (hv : b.Valid)
    (hb : b.readable = q.render ++ rest) (hroom : q.headers.length ≤ HeaderSize)
    (key : List Byte) : Found b key ↔ Agree q.headers key := by
  obtain ⟨r, b', hr, hloop⟩ := parseLoop_wellFormed q rest hv hb hroom
  have hagree : (r.getHttpRequestHeader key).map cstr =
      (r.reqHeader.find? fun h => SameKey h.1 key).map (cstr ·.2) ↔ Agree q.headers key := by
    rw [getHttpRequestHeader_eq hr, hr, find_sameKey_eq, agree_iff]
  rw [← hagree]
  constructor
  · rintro ⟨rounds, r', b'', hloop', -, hfound⟩
    have heq := (hloop _ (le_max_left _ rounds)).symm.trans (hloop' _ (le_max_right _ _))
    simp only [Option.some.injEq, Except.ok.injEq, Prod.mk.injEq, true_and] at heq
    obtain ⟨rfl, -⟩ := heq
    exact hfound
  · intro hfound
    refine ⟨_, r, b', hloop, ?_, hfound⟩
    rwa [hr, List.length_map]

/-- **When the right value is found.** -/
theorem found_iff (q : WellFormed) (rest : List Byte) {b : Buffer} (hv : b.Valid)
    (hb : b.readable = q.render ++ rest) (key : List Byte) :
    Found b key ↔ q.headers.length ≤ HeaderSize ∧ Agree q.headers key := by
  by_cases hroom : q.headers.length ≤ HeaderSize
  · rw [found_iff_agree q rest hv hb hroom, and_iff_right hroom]
  · refine iff_of_false ?_ fun h => hroom h.1
    rintro ⟨rounds, r, b', hloop, -⟩
    have hlines : headerLines q.lines = q.headers.length := by rw [q.lines_eq, headerLines_map]
    -- the header behind the last slot is written outside of the array
    have hfull := (parses q.toCompleteRequest rest hv hb).2 (by rwa [hlines]) _
      (le_max_left _ rounds)
    rw [hloop _ (le_max_right _ _)] at hfull
    cases hfull

/-- `GET / HTTP/1.1` with header lines. -/
def getRootWith (hs : List HeaderLine) : WellFormed where
  toCompleteRequest := { getRoot with
    lines := hs.map HeaderLine.line
    lines_ne := by
      intro l hl
      obtain ⟨h, -, rfl⟩ := List.mem_map.mp hl
      exact h.line_ne
    lines_unbroken := by
      intro l hl
      obtain ⟨h, -, rfl⟩ := List.mem_map.mp hl
      exact h.line_unbroken }
  headers := hs
  lines_eq := rfl

/-- `Host: a`. -/
def host : HeaderLine := ⟨[72, 111, 115, 116], [97], by decide, by decide⟩

/-- `Accept-Encoding: b`. -/
def acceptEncoding : HeaderLine :=
  ⟨[65, 99, 99, 101, 112, 116, 45, 69, 110, 99, 111, 100, 105, 110, 103], [98], by decide,
    by decide⟩

/-- `NULL` is found for `accept`, with a longer key stored. -/
theorem found_iff_longer :
    Found (bufferOf (getRootWith [acceptEncoding]).toCompleteRequest)
      [97, 99, 99, 101, 112, 116] := by
  have hv : (bufferOf (getRootWith [acceptEncoding]).toCompleteRequest).Valid := by
    constructor <;> decide
  refine (found_iff (getRootWith [acceptEncoding]) [] hv (by decide) _).mpr ⟨by decide, Or.inl ?_⟩
  intro h hh
  obtain rfl := List.mem_singleton.mp hh
  decide

/-- **A header that was sent is not found**, and a header with another key is. -/
theorem not_found : ¬ ∀ (q : WellFormed) (rest : List Byte) (b : Buffer), b.Valid →
    b.readable = q.render ++ rest → ∀ key, Found b key := by
  intro h
  set q := getRootWith [host, acceptEncoding]
  have hv : (bufferOf q.toCompleteRequest).Valid := by constructor <;> decide
  have hb : (bufferOf q.toCompleteRequest).readable = q.render ++ [] := by decide
  have hfound := h q [] _ hv hb host.key
  rw [found_iff_agree q [] hv hb (by decide), agree_iff] at hfound
  exact absurd hfound (by decide)

end HttpRequest

end Reactor.HttpC
