import Reactor.Http.Malformed
import Reactor.HttpC.Answered

/-!
When the loop of `parseHttpRequest` of the C version comes to an end. It goes on until the state is
`ParseReqDone`, and a call that finds no line to take leaves the state and the buffer as they are.
-/

namespace Reactor.HttpC

open Lib.Infix Lib.Errors
open Http (toInt nullptr find_of_line take_unbroken cutLine cutLine_eq_none SP CR LF COLON)

namespace HttpRequest

variable {b : Buffer} {r : HttpRequest} {flag : Bool}

/-- The loop is left within some number of rounds, by its condition or by an assertion that
fails. -/
def Leaves (flag : Bool) (b : Buffer) (r : HttpRequest) : Prop :=
  ∃ rounds x, r.parseLoop rounds flag b = some x ∧ (x = .error .assertion ∨ ∃ y, x = .ok y)

/-- The loop of `parseHttpRequest` is left, and on the way no pointer is subtracted from `NULL`. -/
def Ends (b : Buffer) (r : HttpRequest) : Prop :=
  (r.curState = .ParseReqLine → findCRLFBuffer b ≠ .ok nullptr) ∧ r.Leaves true b

/-! ### One round -/

lemma leaves_done (hr : r.curState = .ParseReqDone) : r.Leaves flag b :=
  ⟨1, _, by rw [parseLoop, if_pos hr], Or.inr ⟨_, rfl⟩⟩

lemma leaves_step (hr : r.curState ≠ .ParseReqDone) : r.Leaves flag b ↔
    r.parseStep flag b = .error .assertion ∨
      ∃ flag' r' b', r.parseStep flag b = .ok (flag', r', b') ∧ r'.Leaves flag' b' := by
  constructor
  · rintro ⟨rounds, x, hx, hend⟩
    cases rounds with
    | zero => cases hx
    | succ rounds =>
        rw [parseLoop, if_neg hr] at hx
        rcases hstep : r.parseStep flag b with fault | ⟨flag', r', b'⟩
        · rw [hstep] at hx
          obtain rfl := Option.some.inj hx
          rcases hend with heq | ⟨y, hy⟩
          · rw [Except.error.inj heq]
            exact Or.inl rfl
          · cases hy
        · rw [hstep] at hx
          exact Or.inr ⟨flag', r', b', rfl, rounds, x, hx, hend⟩
  · rintro (hstep | ⟨flag', r', b', hstep, rounds, x, hx, hend⟩)
    · exact ⟨1, _, by rw [parseLoop, if_neg hr, hstep], Or.inl rfl⟩
    · refine ⟨rounds + 1, x, ?_, hend⟩
      rw [parseLoop, if_neg hr, hstep]
      exact hx

/-- **A round that changes nothing** is followed by rounds that change nothing. -/
lemma parseLoop_stuck (hr : r.curState ≠ .ParseReqDone)
    (hstep : ∀ flag, ∃ flag', r.parseStep flag b = .ok (flag', r, b)) (rounds : ℕ) (flag : Bool) :
    r.parseLoop rounds flag b = none := by
  induction rounds generalizing flag with
  | zero => rfl
  | succ rounds ih =>
      obtain ⟨flag', h⟩ := hstep flag
      rw [parseLoop, if_neg hr, h]
      exact ih flag'

lemma not_leaves_stuck (hr : r.curState ≠ .ParseReqDone)
    (hstep : ∀ flag, ∃ flag', r.parseStep flag b = .ok (flag', r, b)) : ¬ r.Leaves flag b := by
  rintro ⟨rounds, x, hx, -⟩
  rw [parseLoop_stuck hr hstep] at hx
  cases hx

/-! ### Header lines -/

/-- The header lines come to an end in a text: it has a complete line without a separator, and
those in front of it have room behind the `k` that are stored. -/
def HeadersEnd (k : ℕ) (text : List Byte) : Prop :=
  ∃ (ls : List (List Byte)) (l rest : List Byte),
    text = ls.flatMap (· ++ [CR, LF]) ++ (l ++ [CR, LF] ++ rest) ∧
    (∀ l' ∈ ls, ¬ [CR, LF] <:+: l' ∧ [COLON, SP] <:+: l') ∧
    ¬ [CR, LF] <:+: l ∧ ¬ [COLON, SP] <:+: l ∧ (ls = [] ∨ k + ls.length ≤ HeaderSize)

/-- The first line ends them, or has a separator and room, and they end behind it. -/
lemma headersEnd_iff {k : ℕ} {text : List Byte} : HeadersEnd k text ↔
    ∃ n, find text [CR, LF] = some n ∧ (¬ [COLON, SP] <:+: text.take n ∨
      [COLON, SP] <:+: text.take n ∧ k < HeaderSize ∧
        HeadersEnd (k + 1) (text.drop (n + 2))) := by
  constructor
  · rintro ⟨ls, l, rest, rfl, hls, hl, hsep, hroom⟩
    cases ls with
    | nil =>
        have htext : ([] : List (List Byte)).flatMap (· ++ [CR, LF]) ++ (l ++ [CR, LF] ++ rest) =
            l ++ ([CR, LF] ++ rest) := by simp
        refine ⟨l.length, find_of_line (htext.trans (List.append_assoc _ _ _).symm) hl,
          Or.inl ?_⟩
        rwa [htext, List.take_left]
    | cons l' ls =>
        set text := ls.flatMap (· ++ [CR, LF]) ++ (l ++ [CR, LF] ++ rest) with ht
        have htext : (l' :: ls).flatMap (· ++ [CR, LF]) ++ (l ++ [CR, LF] ++ rest) =
            l' ++ ([CR, LF] ++ text) := by simp [ht]
        obtain ⟨⟨hl', hsep'⟩, hls⟩ := List.forall_mem_cons.mp hls
        have hroom' : k + (ls.length + 1) ≤ HeaderSize := hroom.resolve_left (List.cons_ne_nil _ _)
        refine ⟨l'.length, find_of_line (htext.trans (List.append_assoc _ _ _).symm) hl',
          Or.inr ⟨?_, by omega, ls, l, rest, ?_, hls, hl, hsep, Or.inr (by omega)⟩⟩
        · rwa [htext, List.take_left]
        · rw [htext, ← List.append_assoc, List.drop_left' (by simp)]
  · rintro ⟨n, hn, hsep | ⟨hsep, hk, ls, l, rest, htext, hls, hl, hl', hroom⟩⟩
    · exact ⟨[], text.take n, _, eq_of_find hn, nofun, take_unbroken hn, hsep, Or.inl rfl⟩
    · refine ⟨text.take n :: ls, l, rest, ?_, ?_, hl, hl', Or.inr ?_⟩
      · rw [List.flatMap_cons, List.append_assoc, ← htext]
        exact eq_of_find hn
      · exact List.forall_mem_cons.mpr ⟨⟨take_unbroken hn, hsep⟩, hls⟩
      · rcases hroom with rfl | hroom
        · exact hk
        · rw [List.length_cons]
          omega

/-- Without a line end, a call for a header line changes nothing. -/
lemma parseHttpRequestHeader_none (hv : b.Valid) (hn : find b.readable [CR, LF] = none)
    (r : HttpRequest) : r.parseHttpRequestHeader b = .ok (false, r, b) := by
  rw [parseHttpRequestHeader, findCRLFBuffer_none hv hn, ok_bind, if_neg (not_not.mpr rfl)]

/-- **From a header line on.** -/
lemma leaves_header_iff (hv : b.Valid) (hr : r.curState = .ParseReqHeader) : r.Leaves flag b ↔
    ∃ n, find b.readable [CR, LF] = some n ∧ (¬ [COLON, SP] <:+: b.readable.take n ∨
      ∃ key value, (b.readable.take n).dropInfix? [COLON, SP] = some (key, value) ∧
        r.reqHeader.length < HeaderSize ∧
        { r with reqHeader := r.reqHeader ++ [(block key, block value)] }.Leaves true
          (b.skip (n + 2))) := by
  have hne : r.curState ≠ .ParseReqDone := by
    rw [hr]
    decide
  have hparse : ∀ flag, r.parseStep flag b = r.parseHttpRequestHeader b := fun flag => by
    rw [parseStep, hr]
  rcases hn : find b.readable [CR, LF] with _ | n
  · refine iff_of_false (not_leaves_stuck hne fun flag => ⟨false, ?_⟩) (by simp)
    rw [hparse, parseHttpRequestHeader_none hv hn]
  rw [leaves_step hne, hparse, parseHttpRequestHeader_eq hv hn]
  rcases hd : (b.readable.take n).dropInfix? [COLON, SP] with _ | ⟨key, value⟩
  · exact iff_of_true (Or.inr ⟨_, _, _, rfl, leaves_done rfl⟩)
      ⟨n, rfl, Or.inl (dropInfix_eq_none_iff.mp hd)⟩
  have hsep : [COLON, SP] <:+: b.readable.take n := exists_dropInfix_iff.mp ⟨key, value, hd⟩
  by_cases hroom : r.reqHeader.length < HeaderSize
  · simp only [addHttpRequestHeader, if_pos hroom]
    constructor
    · rintro (h | ⟨flag', r', b', h, hleaves⟩)
      · cases h
      · simp only [Except.map, Except.ok.injEq, Prod.mk.injEq] at h
        obtain ⟨rfl, rfl, rfl⟩ := h
        exact ⟨n, rfl, Or.inr ⟨key, value, hd, hroom, hleaves⟩⟩
    · rintro ⟨m, hm, h⟩
      obtain rfl := Option.some.inj hm
      rcases h with h | ⟨key', value', hd', -, hleaves⟩
      · exact absurd hsep h
      · obtain ⟨rfl, rfl⟩ := Prod.mk.inj (Option.some.inj (hd.symm.trans hd'))
        exact Or.inr ⟨_, _, _, rfl, hleaves⟩
  · -- the array is full
    simp only [addHttpRequestHeader, if_neg hroom]
    refine iff_of_false ?_ ?_
    · rintro (h | ⟨flag', r', b', h, -⟩)
      · cases h
      · cases h
    · rintro ⟨m, hm, h⟩
      obtain rfl := Option.some.inj hm
      rcases h with h | ⟨key', value', -, hlt, -⟩
      · exact h hsep
      · exact hroom hlt

/-- **The loop ends where the header lines do.** -/
lemma leaves_iff_headersEnd (hv : b.Valid) (hr : r.curState = .ParseReqHeader) :
    r.Leaves flag b ↔ HeadersEnd r.reqHeader.length b.readable := by
  -- by the length of the text, which every header line shortens
  obtain ⟨len, hlen⟩ : ∃ len, len = b.readable.length := ⟨_, rfl⟩
  induction len using Nat.strong_induction_on generalizing b r flag with
  | _ len ih =>
      rw [leaves_header_iff hv hr, headersEnd_iff]
      refine exists_congr fun n => and_congr_right fun hn => or_congr_right ?_
      have hle : n + 2 ≤ b.readable.length := find_le hn
      have hrest := hv.readable_skip (n + 2)
      have hshort : (b.skip (n + 2)).readable.length < len := by
        rw [hrest, List.length_drop]
        omega
      have hstep : ∀ key value,
          { r with reqHeader := r.reqHeader ++ [(block key, block value)] }.Leaves true
            (b.skip (n + 2)) ↔
          HeadersEnd (r.reqHeader.length + 1) (b.readable.drop (n + 2)) := by
        intro key value
        set r' : HttpRequest := { r with reqHeader := r.reqHeader ++ [(block key, block value)] }
        have hcount : r'.reqHeader.length = r.reqHeader.length + 1 := List.length_append
        have hr' : r'.curState = .ParseReqHeader := hr
        rw [← hrest, ← hcount]
        exact ih _ hshort (hv.skip hle) hr' rfl
      simp only [hstep]
      rw [← exists_dropInfix_iff]
      simp only [exists_and_right]

/-! ### The request line -/

lemma memmem_ne_assertion (haystack len : ℕ) (needle : List Byte) (b : Buffer) :
    Http.Buffer.memmem haystack len needle b ≠ .error .assertion := by
  unfold Http.Buffer.memmem
  split
  · nofun
  · split_ifs <;> nofun

lemma string_ne_assertion (start : ℕ) (length : ℤ) (b : Buffer) :
    Http.Buffer.string start length b ≠ .error .assertion := by
  unfold Http.Buffer.string
  split_ifs <;> nofun

/-- The assertion on a missing space fails here where it does there. -/
lemma splitRequestLine_assertion {start end_ : ℕ} {sub : Option (List Byte)}
    (h : Http.HttpRequest.splitRequestLine start end_ sub b = .error .assertion) :
    splitRequestLine start end_ sub b = .error .assertion := by
  have hstr : ∀ space : ℕ, (Http.Buffer.string start (toInt (space - start)) b >>= fun str =>
      (.ok (str, space + 1) : Except Http.Fault (List Byte × ℕ))) ≠ .error .assertion := by
    intro space hspace
    rcases error_of_bind hspace with h | ⟨_, -, h⟩
    · exact string_ne_assertion _ _ _ h
    · cases h
  cases sub with
  | none => exact absurd h (hstr end_)
  | some sub =>
      rcases error_of_bind h with h | ⟨space, hspace, h⟩
      · exact absurd h (memmem_ne_assertion _ _ _ _)
      split_ifs at h with hnull
      · simp only [splitRequestLine, memmem_of hspace, ok_bind, if_pos hnull]
        rfl
      · rcases error_of_bind h with h | ⟨space', -, h⟩
        · cases h
        · exact absurd h (hstr space')

/-- The line without enough spaces is the same. -/
lemma parseHttpRequestLine_assertion {r₀ : Http.HttpRequest}
    (h : r₀.parseRequestLine b = .error .assertion) (r : HttpRequest) :
    r.parseHttpRequestLine b = .error .assertion := by
  unfold Http.HttpRequest.parseRequestLine at h
  rcases error_of_bind h with h | ⟨end_, hend, h⟩
  · exact absurd h (memmem_ne_assertion _ _ _ _)
  dsimp only at h
  split_ifs at h with hsize
  have hend' : findCRLFBuffer b = .ok end_ := memmem_of hend
  simp only [parseHttpRequestLine, hend', ok_bind]
  rw [if_pos (by omega)]
  rcases error_of_bind h with h | ⟨⟨method, p⟩, hm, h⟩
  · rw [splitRequestLine_assertion h]
    rfl
  rw [splitRequestLine_of hm, ok_bind]
  rcases error_of_bind h with h | ⟨⟨url, p'⟩, hu, h⟩
  · dsimp only at h ⊢
    rw [splitRequestLine_assertion h]
    rfl
  dsimp only at hu ⊢
  rw [splitRequestLine_of hu, ok_bind]
  rcases error_of_bind h with h | ⟨_, -, h⟩
  · dsimp only at h ⊢
    rw [splitRequestLine_assertion h]
    rfl
  · cases h

/-- **What `parseHttpRequestLine` does with a line.** -/
lemma parseHttpRequestLine_eq (hv : b.Valid) {n : ℕ} (hn : find b.readable [CR, LF] = some n)
    (r : HttpRequest) :
    r.parseHttpRequestLine b =
      if n = 0 then .ok (false, r, b)
      else match cutLine (b.readable.take n) with
        | none => .error .assertion
        | some (method, url, version) =>
          .ok (true,
            { r with
              method := some (block method)
              url := some (block url)
              version := some (block version)
              curState := .ParseReqHeader },
            b.skip (n + 2)) := by
  have hline := Http.HttpRequest.parseRequestLine_eq hv hn .reset
  split_ifs at hline ⊢ with hzero
  · subst hzero
    rw [parseHttpRequestLine, findCRLFBuffer_eq hv hn, ok_bind]
    simp [toInt]
  · rcases hcut : cutLine (b.readable.take n) with _ | ⟨method, url, version⟩
    · rw [hcut] at hline
      exact parseHttpRequestLine_assertion hline r
    · rw [hcut] at hline
      exact parseHttpRequestLine_of hline r

/-- What of the text has arrived of a request, from the state of the parse on: enough for the loop
to end. -/
def Enough (text : List Byte) (r : HttpRequest) : Prop :=
  match r.curState with
  | .ParseReqLine => ∃ line rest, text = line ++ [CR, LF] ++ rest ∧ ¬ [CR, LF] <:+: line ∧
      line ≠ [] ∧ (line.count SP < 2 ∨ HeadersEnd r.reqHeader.length rest)
  | .ParseReqHeader => HeadersEnd r.reqHeader.length text
  | .ParseReqBody => False
  | .ParseReqDone => True

lemma enough_line_iff {text : List Byte} (hr : r.curState = .ParseReqLine) : r.Enough text ↔
    ∃ n, find text [CR, LF] = some n ∧ n ≠ 0 ∧
      ((text.take n).count SP < 2 ∨ HeadersEnd r.reqHeader.length (text.drop (n + 2))) := by
  simp only [Enough, hr]
  constructor
  · rintro ⟨line, rest, rfl, hline, hne, h⟩
    refine ⟨line.length, find_of_line rfl hline, mt List.length_eq_zero_iff.mp hne, ?_⟩
    rw [List.drop_left' (by simp), List.append_assoc, List.take_left]
    exact h
  · rintro ⟨n, hn, hne, h⟩
    refine ⟨text.take n, text.drop (n + 2), eq_of_find hn, take_unbroken hn, fun hnil => hne ?_, h⟩
    have hle := find_le hn
    have := congrArg List.length hnil
    rw [List.length_take, List.length_nil] at this
    omega

/-- **From the request line on.** -/
lemma ends_line_iff (hv : b.Valid) (hr : r.curState = .ParseReqLine) :
    r.Ends b ↔ r.Enough b.readable := by
  have hne : r.curState ≠ .ParseReqDone := by
    rw [hr]
    decide
  have hparse : ∀ flag, r.parseStep flag b = r.parseHttpRequestLine b := fun flag => by
    rw [parseStep, hr]
  rw [enough_line_iff hr, Ends]
  rcases hn : find b.readable [CR, LF] with _ | n
  · simp [hr, findCRLFBuffer_none hv hn]
  rw [findCRLFBuffer_eq hv hn]
  have hdata : b.data + n ≠ nullptr := by
    have := hv.zero_lt_data
    unfold nullptr
    omega
  have hle : n + 2 ≤ b.readable.length := find_le hn
  have hguard : r.curState = .ParseReqLine →
      (.ok (b.data + n) : Except Fault ℕ) ≠ .ok nullptr := fun _ h => hdata (Except.ok.inj h)
  have hline := parseHttpRequestLine_eq hv hn r
  simp only [Option.some_inj, exists_eq_left']
  rw [and_iff_right hguard]
  by_cases hzero : n = 0
  · rw [if_pos hzero] at hline
    exact iff_of_false (not_leaves_stuck hne fun flag => ⟨false, (hparse flag).trans hline⟩)
      fun h => h.1 hzero
  rw [if_neg hzero] at hline
  rw [leaves_step hne, hparse, hline, and_iff_right hzero]
  rcases hcut : cutLine (b.readable.take n) with _ | ⟨method, url, version⟩
  · exact iff_of_true (Or.inl rfl) (Or.inl (cutLine_eq_none.mp hcut))
  · have hcount : ¬ (b.readable.take n).count SP < 2 := fun h => by
      rw [cutLine_eq_none.mpr h] at hcut
      cases hcut
    rw [or_iff_right hcount, ← hv.readable_skip]
    set r' : HttpRequest := { r with
      method := some (block method)
      url := some (block url)
      version := some (block version)
      curState := .ParseReqHeader }
    have hrest : r'.Leaves true (b.skip (n + 2)) ↔
        HeadersEnd r.reqHeader.length (b.skip (n + 2)).readable :=
      leaves_iff_headersEnd (hv.skip hle) rfl
    rw [← hrest]
    constructor
    · rintro (h | ⟨flag', r'', b', h, hleaves⟩)
      · cases h
      · simp only [Except.ok.injEq, Prod.mk.injEq] at h
        obtain ⟨rfl, rfl, rfl⟩ := h
        exact hleaves
    · exact fun hleaves => Or.inr ⟨_, _, _, rfl, hleaves⟩

/-- **When the loop ends.** -/
theorem ends_iff (hv : b.Valid) (hr : r.curState ≠ .ParseReqBody) :
    r.Ends b ↔ r.Enough b.readable := by
  rcases hstate : r.curState
  · exact ends_line_iff hv hstate
  · rw [Ends, leaves_iff_headersEnd hv hstate, Enough, hstate]
    simp
  · exact absurd hstate hr
  · refine iff_of_true ⟨fun h => ?_, leaves_done hstate⟩ ?_
    · rw [hstate] at h
      cases h
    · simp only [Enough, hstate]

/-- The line of `GET / H`, and `rest`. -/
def afterLine (rest : List Byte) : Buffer :=
  Http.lineBuffer ([71, 69, 84, 32, 47, 32, 72, 13, 10] ++ rest)

theorem ends_iff_complete : init.Ends (afterLine [13, 10]) := by
  have hv : (afterLine [13, 10]).Valid := by constructor <;> decide
  exact (ends_iff hv (by decide)).mpr ⟨[71, 69, 84, 32, 47, 32, 72], [13, 10], rfl, by decide,
    by decide, Or.inr ⟨[], [], [], rfl, nofun, by decide, by decide, Or.inl rfl⟩⟩

/-- **A request of which only the line has come** keeps the loop going for ever. -/
theorem not_ends : ¬ ∀ (b : Buffer) (r : HttpRequest), b.Valid → r.curState ≠ .ParseReqBody →
    r.Ends b := by
  intro h
  have hv : (afterLine []).Valid := by constructor <;> decide
  have hends := h (afterLine []) init hv (by decide)
  rw [ends_line_iff hv rfl, enough_line_iff rfl] at hends
  obtain ⟨n, hn, -, hline⟩ := hends
  have hfirst : find (afterLine []).readable [CR, LF] = some 7 := by decide
  obtain rfl := Option.some.inj (hfirst.symm.trans hn)
  rcases hline with hcount | hheaders
  · exact absurd hcount (by decide)
  · obtain ⟨m, hm, -⟩ := headersEnd_iff.mp hheaders
    have hnone : find ((afterLine []).readable.drop (7 + 2)) [CR, LF] = none := by decide
    cases hnone.symm.trans hm

end HttpRequest

end Reactor.HttpC
