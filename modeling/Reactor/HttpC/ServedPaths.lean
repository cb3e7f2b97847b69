import Reactor.HttpC.Answered
import Reactor.HttpC.DecodeMsg
import Reactor.Lib.RelativePath

/-!
The names of files that a request makes both versions of the server ask for. They are relative to
the directory that `main` changes to, and lead out of it unless the `url` says otherwise.
-/

namespace Reactor.HttpC

open Lib.PercentEncoding Lib.RelativePath Lib.Errors
open Http (Host isGet cstr cstr_nil cstr_null cstr_cons cstr_append_null cstr_cstr ascii)

/-! ### The names passed on -/

/-- What the C++ version passes to `stat`, and in the response to `sendFile` or `sendDir`. -/
def passedCpp (host : Host) (response : Http.HttpResponse) (r : Http.HttpRequest) :
    List (List Byte) :=
  if ¬ isGet r.m_method then []
  else
    [Http.fileOf (Http.decodeMsg r.m_url), (r.processHttpRequest host response).2.m_fileName]

/-- What the C version passes to them, unless it reads outside the `url` for it. -/
def passed (host : Host) (resp : HttpResponse) (r : HttpRequest) :
    Except Fault (List (List Byte)) :=
  match r.method, r.url with
  | some method, some url =>
    if ¬ isGet method then .ok []
    else do
      let file ← fileOf (decodeMsg url)
      match r.processHttpRequest host resp with
      | .error _ => .ok [file]
      | .ok (_, resp) => .ok [file, resp.fileName]
  | _, _ => .error .null

/-! ### The condition -/

/-- Whether the rest of a `url`, read byte by byte, never leaves the directory. A null byte ends the
name. -/
def scan (depth : ℕ) (p : Part) (s : List Byte) : Bool :=
  match _h : next? s with
  | none => (p.enter depth).isSome
  | some (c, s') =>
    if c = 0 then (p.enter depth).isSome
    else if c = 47 then
      match p.enter depth with
      | none => false
      | some d => scan d .empty s'
    else scan depth (p.step c) s'
termination_by s.length
decreasing_by all_goals exact next?_length _h

/-- **The byte behind the first is no slash, and from there on no part of the `url` leads out.** -/
def Contained (url : List Byte) : Prop :=
  ∀ c s, next? url = some (c, s) → (∀ s', next? s ≠ some (47, s')) ∧ scan 0 .empty s

/-- The `url` is read as the name that it is decoded to. -/
lemma scan_eq (depth : ℕ) (p : Part) (s : List Byte) :
    scan depth p s = walk depth p (cstr (decode s)) := by
  fun_induction scan depth p s with
  | case1 depth p s h =>
      rw [next?_eq_none h, decode_nil, cstr_nil, walk]
  | case2 depth p s s' h =>
      rw [decode_next h, cstr_null, walk]
  | case3 depth p s s' hd h hc =>
      rw [decode_next h, cstr_cons hc, walk, if_pos rfl, hd]
  | case4 depth p s s' d hd h hc ih =>
      rw [decode_next h, cstr_cons hc, walk, if_pos rfl, hd, ih]
  | case5 depth p s c s' h hc hslash ih =>
      rw [decode_next h, cstr_cons hc, walk, if_neg hslash, ih]

/-! ### The name looked up -/

/-- But for the root, the name is what is behind the first byte. -/
lemma stays_fileOf_iff {url s : List Byte} {c : Byte} (h : next? (cstr url) = some (c, s)) :
    Stays (Http.fileOf (Http.decodeMsg url)) ↔ Stays (cstr (decode s)) := by
  rw [Http.decodeMsg, decode_eq, decode_next h, List.cons_append, Http.fileOf, List.drop_one,
    List.tail_cons, cstr_append_null]
  split_ifs with hroot
  · have hempty : cstr (decode s) = [] := by
      have hc : c ≠ 0 := by
        rintro rfl
        cases hroot
      rw [cstr_cons hc, cstr_append_null] at hroot
      exact (List.cons.inj hroot).2
    rw [hempty, stays_iff_walk, stays_iff_walk]
    decide
  · rfl

lemma head?_cstr_decode (s : List Byte) :
    (cstr (decode s)).head? = some 47 ↔ ∃ s', next? s = some (47, s') := by
  rcases h : next? s with _ | ⟨c, s'⟩
  · rw [next?_eq_none h, decode_nil, cstr_nil]
    simp
  · rw [decode_next h]
    by_cases hc : c = 0
    · simp [hc, cstr_null]
    · simp [cstr_cons hc]

lemma stays_fileOf (url : List Byte) :
    Stays (Http.fileOf (Http.decodeMsg url)) ↔ Contained (cstr url) := by
  rcases h : next? (cstr url) with _ | ⟨c, s⟩
  · have hempty := next?_eq_none h
    rw [Http.decodeMsg, hempty]
    refine iff_of_true (stays_iff_walk.mpr (by decide)) fun c s hnext => ?_
    cases hnext
  · rw [stays_fileOf_iff h, stays_iff_walk, ← scan_eq, ne_eq, head?_cstr_decode, not_exists]
    constructor
    · rintro hstays c' s' h'
      obtain ⟨rfl, rfl⟩ := Prod.mk.inj (Option.some.inj (h.symm.trans h'))
      exact hstays
    · exact fun hcont => hcont c s h

/-! ### Both versions -/

lemma stays_notFound : Stays (ascii "404.html") := by
  rw [stays_iff_walk]
  decide

@[simp] lemma addHeader_m_fileName (key value : List Byte) (r : Http.HttpResponse) :
    (r.addHeader key value).m_fileName = r.m_fileName := by
  unfold Http.HttpResponse.addHeader
  split_ifs <;> rfl

/-- The response names the file that was looked up, or the page for those that are missing. -/
lemma fileName_cpp (host : Host) (response : Http.HttpResponse) {r : Http.HttpRequest}
    (hget : isGet r.m_method) :
    (r.processHttpRequest host response).2.m_fileName = Http.fileOf (Http.decodeMsg r.m_url) ∨
      (r.processHttpRequest host response).2.m_fileName = ascii "404.html" := by
  simp only [Http.HttpRequest.processHttpRequest, hget, not_true_eq_false, if_false]
  rcases host.stat (Http.fileOf (Http.decodeMsg r.m_url)) with _ | st
  · exact Or.inr (addHeader_m_fileName _ _ _)
  · left
    cases hd : st.isDir <;>
      simp [Http.HttpResponse.setStatusCode, Http.HttpResponse.setFileName, hd]

lemma passedCpp_stays_iff (r : Http.HttpRequest) :
    (∀ host response, ∀ name ∈ passedCpp host response r, Stays name) ↔
      (isGet r.m_method → Contained (cstr r.m_url)) := by
  rw [← stays_fileOf]
  constructor
  · intro h hget
    refine h Host.empty .new _ ?_
    rw [passedCpp, if_neg (not_not.mpr hget)]
    exact List.mem_cons_self
  · intro h host response name hname
    unfold passedCpp at hname
    split_ifs at hname with hget
    · rcases List.mem_pair.mp hname with rfl | rfl
      · exact h hget
      · rcases fileName_cpp host response hget with hf | hf
        · exact hf ▸ h hget
        · exact hf ▸ stays_notFound
    · exact absurd hname List.not_mem_nil

lemma fileName_c {host : Host} {resp resp' : HttpResponse} {r r' : HttpRequest}
    {method url file : List Byte} (hm : r.method = some method) (hu : r.url = some url)
    (hget : isGet method) (hfile : fileOf (decodeMsg url) = .ok file)
    (h : r.processHttpRequest host resp = .ok (r', resp')) :
    resp'.fileName = file ∨ resp'.fileName = ascii "404.html" := by
  have hadd : ∀ {key value : List Byte} {resp resp' : HttpResponse},
      resp.addHeaderHttpResponse key value = .ok resp' → resp'.fileName = resp.fileName := by
    intro key value resp resp' hok
    unfold HttpResponse.addHeaderHttpResponse at hok
    split_ifs at hok
    rw [← Except.ok.inj hok]
  simp only [HttpRequest.processHttpRequest, hm, hu] at h
  rw [if_neg (not_not.mpr hget), hfile, ok_bind] at h
  rcases hst : host.stat file with _ | st
  · simp only [hst] at h
    obtain ⟨resp₁, hok, h⟩ := ok_of_bind h
    obtain ⟨-, rfl⟩ := Prod.mk.inj (Except.ok.inj h)
    exact Or.inr (hadd hok)
  · simp only [hst] at h
    obtain ⟨name, hname, h⟩ := ok_of_bind h
    have hfile' : name = file := by
      unfold strcpy at hname
      split_ifs at hname
      exact (Except.ok.inj hname).symm
    subst hfile'
    left
    split_ifs at h
    · obtain ⟨resp₁, hok, h⟩ := ok_of_bind h
      obtain ⟨-, rfl⟩ := Prod.mk.inj (Except.ok.inj h)
      exact hadd hok
    · obtain ⟨resp₁, hok, h⟩ := ok_of_bind h
      obtain ⟨resp₂, hok', h⟩ := ok_of_bind h
      obtain ⟨-, rfl⟩ := Prod.mk.inj (Except.ok.inj h)
      exact (hadd hok').trans (hadd hok)

lemma passed_stays_iff {method url : List Byte} {r : HttpRequest}
    (hm : r.method = some (block method)) (hu : r.url = some (block url)) :
    (∀ host resp, ∃ names, passed host resp r = .ok names ∧ ∀ name ∈ names, Stays name) ↔
      (isGet method → url ≠ [] ∧ Contained (cstr url)) := by
  have hpassed : ∀ host resp, passed host resp r =
      if ¬ isGet (block method) then .ok []
      else fileOf (decodeMsg (block url)) >>= fun file =>
        match r.processHttpRequest host resp with
        | .error _ => .ok [file]
        | .ok (_, resp) => .ok [file, resp.fileName] := by
    intro host resp
    rw [passed, hm, hu]
  by_cases hget : isGet method
  swap
  · refine iff_of_true (fun host resp => ⟨[], ?_, nofun⟩) fun h => absurd h hget
    rw [hpassed, if_pos (mt isGet_block.mp hget)]
  simp only [hget, true_imp_iff]
  have hget' : isGet (block method) := isGet_block.mpr hget
  simp only [hpassed, if_neg (not_not.mpr hget')]
  rcases eq_or_ne url [] with rfl | hurl
  · rw [fileOf_decodeMsg_nil]
    refine iff_of_false (fun h => ?_) fun h => absurd rfl h.1
    obtain ⟨names, hnames, -⟩ := h Host.empty (.init [])
    cases hnames
  have hfile := fileOf_decodeMsg hurl
  rw [hfile, and_iff_right hurl, ← stays_fileOf]
  constructor
  · intro h
    obtain ⟨names, hnames, hstay⟩ := h Host.empty (.init [])
    refine hstay _ ?_
    rw [ok_bind] at hnames
    rcases hproc : r.processHttpRequest Host.empty (.init []) with e | ⟨r', resp'⟩
    · rw [hproc] at hnames
      rw [← Except.ok.inj hnames]
      exact List.mem_cons_self
    · rw [hproc] at hnames
      rw [← Except.ok.inj hnames]
      exact List.mem_cons_self
  · intro hstay host resp
    rw [ok_bind]
    rcases hproc : r.processHttpRequest host resp with e | ⟨r', resp'⟩
    · exact ⟨_, rfl, fun name hname => List.mem_singleton.mp hname ▸ hstay⟩
    · refine ⟨_, rfl, fun name hname => ?_⟩
      rcases List.mem_pair.mp hname with rfl | rfl
      · exact hstay
      · rcases fileName_c hm hu hget' hfile hproc with hf | hf
        · exact hf ▸ hstay
        · exact hf ▸ stays_notFound

/-- **The names passed on stay in the directory exactly if the `url` does**, and in the C version
there is more of it than the null byte. -/
theorem names_stay_iff (r : Http.HttpRequest) {q : HttpRequest}
    (hm : q.method = some (block r.m_method)) (hu : q.url = some (block r.m_url)) :
    ((∀ host response, ∀ name ∈ passedCpp host response r, Stays name) ↔
      (isGet r.m_method → Contained (cstr r.m_url))) ∧
    ((∀ host resp, ∃ names, passed host resp q = .ok names ∧ ∀ name ∈ names, Stays name) ↔
      (isGet r.m_method → r.m_url ≠ [] ∧ Contained (cstr r.m_url))) :=
  ⟨passedCpp_stays_iff r, passed_stays_iff hm hu⟩

/-- A `GET` of a `url`, in the C++ version. -/
def getCpp (url : List Byte) : Http.HttpRequest :=
  { Http.HttpRequest.reset with m_method := [71, 69, 84], m_url := url }

/-- A `GET` of a `url`, in the C version. -/
def getC (url : List Byte) : HttpRequest :=
  { HttpRequest.init with method := some (block [71, 69, 84]), url := some (block url) }

/-- The name in `/a` stays. -/
theorem names_stay_iff_file :
    (∀ host response, ∀ name ∈ passedCpp host response (getCpp [47, 97]), Stays name) ∧
      ∀ host resp, ∃ names, passed host resp (getC [47, 97]) = .ok names ∧
        ∀ name ∈ names, Stays name := by
  have hcont : Contained (cstr [47, 97]) := by
    intro c s h
    have hfirst : next? (cstr [47, 97]) = some (47, [97]) := by decide
    obtain ⟨-, rfl⟩ := Prod.mk.inj (Option.some.inj (hfirst.symm.trans h))
    refine ⟨fun s' hslash => ?_, ?_⟩
    · have hnext : next? [97] = some (97, []) := by decide
      rw [hnext] at hslash
      cases hslash
    · rw [scan_eq, ← decode_eq]
      decide
  obtain ⟨hcpp, hc⟩ := names_stay_iff (getCpp [47, 97]) (q := getC [47, 97]) rfl rfl
  exact ⟨hcpp.mpr fun _ => hcont, hc.mpr fun _ => ⟨by decide, hcont⟩⟩

/-- **`/../x` leads out of the directory** in both versions. -/
theorem not_names_stay :
    (¬ ∀ (r : Http.HttpRequest) (host : Host) (response : Http.HttpResponse),
      ∀ name ∈ passedCpp host response r, Stays name) ∧
    ¬ ∀ (r : HttpRequest) (host : Host) (resp : HttpResponse) (names : List (List Byte)),
      passed host resp r = .ok names → ∀ name ∈ names, Stays name := by
  have hout : ¬ Stays [46, 46, 47, 120] := by
    rw [stays_iff_walk]
    decide
  constructor
  · intro h
    exact hout (h (getCpp [47, 46, 46, 47, 120]) Host.empty .new _ List.mem_cons_self)
  · intro h
    exact hout (h (getC [47, 46, 46, 47, 120]) Host.empty (.init []) _ rfl _ List.mem_cons_self)

end Reactor.HttpC
