import Reactor.HttpC.ServedPaths

/-!
The arrays of fixed size that the C version copies into: the fields of the response, the texts that
`prepareMsgHttpResponse` and `sendDir` print, and a number. A call ends here as soon as a copy
leaves its array, or reads from outside of the block it is told to read.
-/

namespace Reactor.HttpC

open Lib.Errors
open Http (isGet decode decimal ascii cstr toInt getFileType)

/-- How a call ends that does not return, with the copies told apart from the rest. -/
inductive Stop
  /-- more is copied into an array than there is room for -/
  | overrun
  /-- a string is read that is not in its block -/
  | read
  /-- a pointer is freed that was never set -/
  | free
  /-- a null pointer is read or called -/
  | null
  deriving DecidableEq

namespace Stop

def fault : Stop → Fault
  | overrun => .memory
  | read => .memory
  | free => .memory
  | null => .null

end Stop

namespace Sized

/-- `strcpy` or `sprintf` into an array of `size` bytes. -/
def sprintf (size : ℕ) (text : List Byte) : Except Stop (List Byte) :=
  if text.length < size then .ok text else .error .overrun

def StatusMsgSize : ℕ := 128
def keySize : ℕ := 32
def valueSize : ℕ := 128

/-- The header is written to the next one of the array. -/
def addHeaderHttpResponse (key value : List Byte) (resp : HttpResponse) :
    Except Stop HttpResponse :=
  if resp.ResponseHeader.length < Header then do
    let key ← sprintf keySize key
    let value ← sprintf valueSize value
    .ok { resp with ResponseHeader := resp.ResponseHeader ++ [(key, value)] }
  else .error .overrun

def processHttpRequest (host : Http.Host) (r : HttpRequest) (resp : HttpResponse) :
    Except Stop (HttpRequest × HttpResponse) :=
  match r.method, r.url with
  | some method, some url =>
    if ¬ isGet method then .ok (r, resp)
    else do
      let url := decodeMsg url
      let r := { r with url := some url }
      let file ← (fileOf url).mapError fun _ => .read
      let html := getFileType (ascii ".html")
      match host.stat file with
      | none =>
        let msg ← sprintf StatusMsgSize (ascii "Not Found")
        let name ← sprintf fileNameSize (ascii "404.html")
        let resp := { resp with StatusCode := .NotFound, StatusMsg := msg, fileName := name }
        let resp ← addHeaderHttpResponse (ascii "Content-type") html resp
        .ok (r, { resp with sendDataFunc := some .sendFile })
      | some st =>
        let msg ← sprintf StatusMsgSize (ascii "OK")
        let name ← sprintf fileNameSize file
        let resp := { resp with StatusCode := .OK, StatusMsg := msg, fileName := name }
        if st.isDir then
          let resp ← addHeaderHttpResponse (ascii "Content-type") html resp
          .ok (r, { resp with sendDataFunc := some .sendDir })
        else
          let tmp ← sprintf 12 (decimal (toInt st.st_size))
          let resp ← addHeaderHttpResponse (ascii "Content-type") (getFileType file) resp
          let resp ← addHeaderHttpResponse (ascii "Content-length") tmp resp
          .ok (r, { resp with sendDataFunc := some .sendFile })
  | _, _ => .error .null

/-- The row of a directory entry. -/
def row (name : List Byte) (st : Http.Stat) : List Byte :=
  ascii "<tr><td><a href=\"" ++ name ++ ascii (if st.isDir then "/\">" else "\">") ++ name ++
    ascii "</a></td><td>" ++ decimal (toInt st.st_size) ++ ascii "</td></tr>"

section

variable {ω : Type} (out : Output ω) (host : Http.Host)

def sendDir (dirName : List Byte) (w : ω) : Except Stop ω := do
  let buf ← sprintf 4096
    (ascii "<html><head><title>" ++ dirName ++ ascii "</title></head><body><table>")
  let namelise := host.scandir dirName
  let (_, w) ← (namelise.getD []).foldlM (fun (buf, w) name => do
    let subPath ← sprintf 1024 (dirName ++ ascii "/" ++ name)
    let st := (host.stat subPath).getD host.unset
    let buf ← sprintf 4096 (buf ++ row name st)
    .ok ([], out.sendDataBuffer (out.appendStringBuffer buf w))) (buf, w)
  let buf ← sprintf 4096 (ascii "</table></body></html>")
  let w := out.sendDataBuffer (out.appendStringBuffer buf w)
  -- without a list, the pointer that is freed was never set
  if namelise.isNone then .error .free else .ok w

def prepareMsgHttpResponse (resp : HttpResponse) (w : ω) : Except Stop ω := do
  let tmp ← sprintf 1024
    (ascii "HTTP/1.1 " ++ decimal resp.StatusCode.toNat ++ ascii " " ++ resp.StatusMsg ++
      ascii "\r\n")
  let w := out.appendStringBuffer tmp w
  let w ← resp.ResponseHeader.foldlM (fun w h => do
    let tmp ← sprintf 1024 (h.1 ++ ascii ": " ++ h.2 ++ ascii "\r\n")
    .ok (out.appendStringBuffer tmp w)) w
  let w := out.sendDataBuffer (out.appendStringBuffer (ascii "\r\n") w)
  match resp.sendDataFunc with
  | none => .error .null
  | some .sendFile => .ok (out.sendFile resp.fileName w)
  | some .sendDir => sendDir out host resp.fileName w

/-- What `parseHttpRequest` of a new connection does with a request that is parsed. -/
def answer (fileName : List Byte) (r : HttpRequest) (w : ω) : Except Stop ω := do
  let (_, resp) ← processHttpRequest host r (.init fileName)
  prepareMsgHttpResponse out host resp w

end

/-! ### Lengths -/

lemma length_decimal {n : ℤ} (hlo : -2 ^ 31 ≤ n) (hhi : n < 2 ^ 31) : (decimal n).length < 12 := by
  simp only [decimal, ascii, List.length_map, String.length_toList]
  cases n with
  | ofNat n =>
      have hlen : (Nat.repr n).length ≤ 10 :=
        Nat.repr_length n 10 (by decide) (by simp only [Int.ofNat_eq_natCast] at hhi; omega)
      exact Nat.lt_of_le_of_lt hlen (by decide)
  | negSucc n =>
      have hlen : (Nat.repr (n + 1)).length ≤ 10 :=
        Nat.repr_length (n + 1) 10 (by decide) (by omega)
      change ("-" ++ Nat.repr (n + 1)).length < 12
      rw [String.length_append]
      have hsign : "-".length = 1 := rfl
      omega

lemma length_decimal_toInt (n : ℤ) : (decimal (toInt n)).length < 12 := by
  have hlo := Int.le_bmod (x := n) (m := 2 ^ 32) (by decide)
  have hhi := Int.bmod_lt (x := n) (m := 2 ^ 32) (by decide)
  exact length_decimal (by unfold toInt; omega) (by unfold toInt; omega)

lemma length_decimal_code (code : Http.StatusCode) : (decimal code.toNat).length < 12 := by
  refine length_decimal (by omega) ?_
  cases code <;> decide

lemma length_getFileType (name : List Byte) : (getFileType name).length < valueSize := by
  have htypes : ∀ t ∈ Http.fileTypes, (ascii t.2).length < valueSize := by decide
  unfold getFileType
  rcases Http.strrchr (cstr name) 46 with _ | dot
  · decide
  · dsimp only
    rcases hfind : List.find? _ Http.fileTypes with _ | t
    · decide
    · exact htypes t (List.mem_of_find?_eq_some hfind)

lemma sprintf_of {size : ℕ} {text : List Byte} (h : text.length < size) :
    sprintf size text = .ok text := if_pos h

lemma addHeaderHttpResponse_eq {key value : List Byte} (hkey : key.length < keySize)
    (hvalue : value.length < valueSize) (resp : HttpResponse) :
    (addHeaderHttpResponse key value resp).mapError Stop.fault =
      resp.addHeaderHttpResponse key value := by
  unfold addHeaderHttpResponse HttpResponse.addHeaderHttpResponse
  rw [sprintf_of hkey, sprintf_of hvalue]
  split_ifs <;> rfl

/-! ### The response -/

lemma fileOf_mapError (url : List Byte) :
    ((fileOf url).mapError fun _ => Stop.read).mapError Stop.fault = fileOf url := by
  unfold fileOf
  split_ifs <;> rfl

lemma sprintf_mapError (file : List Byte) :
    (sprintf fileNameSize file).mapError Stop.fault = strcpy file := by
  unfold sprintf strcpy
  split_ifs <;> rfl

/-- **Only the copy of the name can leave its array**, so the model of `processHttpRequest` checks
no other. -/
lemma processHttpRequest_eq (host : Http.Host) (r : HttpRequest) (resp : HttpResponse) :
    (processHttpRequest host r resp).mapError Stop.fault = r.processHttpRequest host resp := by
  unfold processHttpRequest HttpRequest.processHttpRequest
  rcases r.method with _ | method
  · rfl
  rcases r.url with _ | url
  · rfl
  by_cases hget : isGet method
  · simp only [hget, not_true_eq_false, if_false]
    rw [mapError_bind, fileOf_mapError]
    refine congrArg _ (funext fun file => ?_)
    have hnotFound : (ascii "Not Found").length < StatusMsgSize := by decide
    have hok : (ascii "OK").length < StatusMsgSize := by decide
    have h404 : (ascii "404.html").length < fileNameSize := by decide
    have htype : (ascii "Content-type").length < keySize := by decide
    have hlength : (ascii "Content-length").length < keySize := by decide
    rcases host.stat file with _ | st
    · simp only [sprintf_of hnotFound, sprintf_of h404, ok_bind, mapError_bind, mapError_ok,
        addHeaderHttpResponse_eq htype (length_getFileType _)]
    · have hvalue : (decimal (toInt st.st_size)).length < valueSize :=
        (length_decimal_toInt _).trans (by decide)
      simp only [sprintf_of hok, ok_bind, mapError_bind, sprintf_mapError]
      refine congrArg _ (funext fun name => ?_)
      cases st.isDir
      · simp only [Bool.false_eq_true, if_false, sprintf_of (length_decimal_toInt _), ok_bind,
          mapError_bind, mapError_ok, addHeaderHttpResponse_eq htype (length_getFileType _),
          addHeaderHttpResponse_eq hlength hvalue]
      · simp only [if_true, mapError_bind, mapError_ok,
          addHeaderHttpResponse_eq htype (length_getFileType _)]
  · simp only [hget, not_false_eq_true, if_true]
    rfl

lemma of_sprintf {size : ℕ} {text copy : List Byte} (h : sprintf size text = .ok copy) :
    copy.length < size := by
  unfold sprintf at h
  split_ifs at h with hlt
  rwa [← Except.ok.inj h]

/-- What is in the fields of a response is a string that is in its array. The name is not set
before the function is. -/
structure Fits (resp : HttpResponse) : Prop where
  msg : resp.StatusMsg.length < StatusMsgSize
  headers : ∀ h ∈ resp.ResponseHeader, h.1.length < keySize ∧ h.2.length < valueSize
  name : resp.sendDataFunc.isSome → resp.fileName.length < fileNameSize

lemma fits_init (fileName : List Byte) : Fits (.init fileName) where
  msg := Nat.zero_lt_succ _
  headers := nofun
  name := nofun

lemma Fits.addHeader {key value : List Byte} {resp resp' : HttpResponse} (h : Fits resp)
    (hadd : addHeaderHttpResponse key value resp = .ok resp') :
    Fits resp' ∧ resp'.fileName = resp.fileName := by
  unfold addHeaderHttpResponse at hadd
  split_ifs at hadd
  obtain ⟨k, hk, hadd⟩ := ok_of_bind hadd
  obtain ⟨v, hv, hadd⟩ := ok_of_bind hadd
  obtain rfl := Except.ok.inj hadd
  refine ⟨⟨h.msg, fun x hx => ?_, h.name⟩, rfl⟩
  rcases List.mem_append.mp hx with hx | hx
  · exact h.headers x hx
  · rw [List.mem_singleton.mp hx]
    exact ⟨of_sprintf hk, of_sprintf hv⟩

/-- The function is set when all is copied. -/
lemma Fits.setFunc {resp : HttpResponse} (h : Fits resp)
    (hname : resp.fileName.length < fileNameSize) (f : Http.SendData) :
    Fits { resp with sendDataFunc := some f } := ⟨h.msg, h.headers, fun _ => hname⟩

/-- **Every field that is copied to holds what is copied.** -/
lemma Fits.processHttpRequest {host : Http.Host} {r r' : HttpRequest} {resp resp' : HttpResponse}
    (h : Fits resp) (hproc : Sized.processHttpRequest host r resp = .ok (r', resp')) :
    Fits resp' := by
  unfold Sized.processHttpRequest at hproc
  split at hproc
  swap
  · cases hproc
  split_ifs at hproc
  swap
  · obtain ⟨-, rfl⟩ := Prod.mk.inj (Except.ok.inj hproc)
    exact h
  obtain ⟨file, -, hproc⟩ := ok_of_bind hproc
  dsimp only at hproc
  split at hproc
  · obtain ⟨msg, hmsg, hproc⟩ := ok_of_bind hproc
    obtain ⟨name, hname, hproc⟩ := ok_of_bind hproc
    obtain ⟨resp₁, hadd, hproc⟩ := ok_of_bind hproc
    obtain ⟨-, rfl⟩ := Prod.mk.inj (Except.ok.inj hproc)
    have hset : Fits { resp with StatusCode := .NotFound, StatusMsg := msg, fileName := name } :=
      ⟨of_sprintf hmsg, h.headers, fun _ => of_sprintf hname⟩
    obtain ⟨hfits, heq⟩ := hset.addHeader hadd
    exact hfits.setFunc (heq ▸ of_sprintf hname) _
  · obtain ⟨msg, hmsg, hproc⟩ := ok_of_bind hproc
    obtain ⟨name, hname, hproc⟩ := ok_of_bind hproc
    have hset : Fits { resp with StatusCode := .OK, StatusMsg := msg, fileName := name } :=
      ⟨of_sprintf hmsg, h.headers, fun _ => of_sprintf hname⟩
    split_ifs at hproc
    · obtain ⟨resp₁, hadd, hproc⟩ := ok_of_bind hproc
      obtain ⟨-, rfl⟩ := Prod.mk.inj (Except.ok.inj hproc)
      obtain ⟨hfits, heq⟩ := hset.addHeader hadd
      exact hfits.setFunc (heq ▸ of_sprintf hname) _
    · obtain ⟨tmp, -, hproc⟩ := ok_of_bind hproc
      obtain ⟨resp₁, hadd, hproc⟩ := ok_of_bind hproc
      obtain ⟨resp₂, hadd', hproc⟩ := ok_of_bind hproc
      obtain ⟨-, rfl⟩ := Prod.mk.inj (Except.ok.inj hproc)
      obtain ⟨hfits, heq⟩ := hset.addHeader hadd
      obtain ⟨hfits', heq'⟩ := hfits.addHeader hadd'
      exact hfits'.setFunc (heq' ▸ heq ▸ of_sprintf hname) _

/-! ### What is printed -/

/-- The ends that are no copies. -/
def others : Set Stop := {.free, .null}

lemma raises_sprintf {size : ℕ} {text : List Byte} (h : text.length < size) :
    Raises others (sprintf size text) := by
  rw [sprintf_of h]
  exact raises_ok _ _

lemma length_row {name : List Byte} (h : name.length ≤ 255) (st : Http.Stat) :
    (row name st).length < 600 := by
  have hnum := length_decimal_toInt st.st_size
  have hlink : (ascii (if st.isDir then "/\">" else "\">")).length ≤ 3 := by
    split_ifs <;> decide
  have hopen : (ascii "<tr><td><a href=\"").length = 17 := by decide
  have hmiddle : (ascii "</a></td><td>").length = 13 := by decide
  have hclose : (ascii "</td></tr>").length = 10 := by decide
  simp only [row, List.length_append]
  omega

section

variable {ω : Type} (out : Output ω) {host : Http.Host}

/-- The names of directory entries have at most 255 bytes. -/
def ShortNames (host : Http.Host) : Prop :=
  ∀ dirName names, host.scandir dirName = some names → ∀ name ∈ names, name.length ≤ 255

lemma raises_sendDir (hnames : ShortNames host) {dirName : List Byte}
    (hdir : dirName.length < fileNameSize) (w : ω) :
    Raises others (sendDir out host dirName w) := by
  have hopen : (ascii "<html><head><title>").length = 19 := by decide
  have hhead : (ascii "</title></head><body><table>").length = 28 := by decide
  have hslash : (ascii "/").length = 1 := by decide
  unfold fileNameSize at hdir
  have htitle : (ascii "<html><head><title>" ++ dirName ++
      ascii "</title></head><body><table>").length < 200 := by
    simp only [List.length_append]
    omega
  have hshort : ∀ name ∈ (host.scandir dirName).getD [], name.length ≤ 255 := by
    rcases hscan : host.scandir dirName with _ | names
    · exact nofun
    · exact hnames dirName names hscan
  unfold sendDir
  refine (raises_sprintf (htitle.trans (by decide))).bind fun buf hbuf => ?_
  obtain rfl : _ = buf := Except.ok.inj ((sprintf_of (htitle.trans (by decide))).symm.trans hbuf)
  -- the text in front of a row is the title, or nothing
  refine (raises_foldlM_of_inv (fun p : List Byte × ω => p.1.length < 200) ?_ htitle).bind
    fun p _ => ?_
  · rintro ⟨buf, w⟩ hlen name hname
    have hrow := length_row (hshort name hname)
    have hname := hshort name hname
    constructor
    · refine (raises_sprintf ?_).bind fun subPath _ => (raises_sprintf ?_).bind fun buf' _ =>
        raises_ok _ _
      · simp only [List.length_append]
        omega
      · have := hrow ((host.stat subPath).getD host.unset)
        rw [List.length_append]
        dsimp only at hlen
        omega
    · rintro p hp
      obtain ⟨subPath, -, hp⟩ := ok_of_bind hp
      obtain ⟨buf', -, hp⟩ := ok_of_bind hp
      obtain rfl := Except.ok.inj hp
      exact Nat.zero_lt_succ _
  · refine (raises_sprintf (by decide)).bind fun buf _ => ?_
    dsimp only
    split_ifs
    · exact raises_error (Or.inl rfl)
    · exact raises_ok _ _

/-- **What is printed fits**, for a response whose fields do. -/
lemma Fits.raises_prepareMsgHttpResponse {resp : HttpResponse} (h : Fits resp)
    (hnames : ShortNames host) (w : ω) :
    Raises others (prepareMsgHttpResponse out host resp w) := by
  have hversion : (ascii "HTTP/1.1 ").length = 9 := by decide
  have hspace : (ascii " ").length = 1 := by decide
  have hcolon : (ascii ": ").length = 2 := by decide
  have hend : (ascii "\r\n").length = 2 := by decide
  have hcode := length_decimal_code resp.StatusCode
  have hmsg := h.msg
  unfold StatusMsgSize at hmsg
  unfold prepareMsgHttpResponse
  refine (raises_sprintf ?_).bind fun tmp _ => ?_
  · simp only [List.length_append]
    omega
  refine (raises_foldlM_of_inv (fun _ => True) (fun w _ x hx => ⟨?_, fun _ _ => trivial⟩)
    trivial).bind fun w _ => ?_
  · obtain ⟨hkey, hvalue⟩ := h.headers x hx
    unfold keySize at hkey
    unfold valueSize at hvalue
    refine (raises_sprintf ?_).bind fun tmp _ => raises_ok _ _
    simp only [List.length_append]
    omega
  · rcases hfunc : resp.sendDataFunc with _ | f
    · exact raises_error (Or.inr rfl)
    · cases f with
      | sendFile => exact raises_ok _ _
      | sendDir => exact raises_sendDir out hnames (h.name (by rw [hfunc]; rfl)) _

/-! ### The condition -/

variable {r : HttpRequest} {method url : List Byte} (hm : r.method = some (block method))
  (hu : r.url = some (block url))
include hm hu

/-- Behind an empty `url` there is nothing to look up. -/
lemma processHttpRequest_nil (hget : isGet method) (hurl : url = []) (resp : HttpResponse) :
    processHttpRequest host r resp = .error .read := by
  subst hurl
  simp only [processHttpRequest, hm, hu]
  rw [if_neg (not_not.mpr (isGet_block.mpr hget)), fileOf_decodeMsg_nil]
  rfl

/-- A name that is found and has no room is copied all the same. -/
lemma processHttpRequest_long (hget : isGet method) (hurl : url ≠ []) {st : Http.Stat}
    (hst : host.stat (Http.fileOf (Http.decodeMsg url)) = some st)
    (hlen : fileNameSize ≤ (Http.fileOf (Http.decodeMsg url)).length) (resp : HttpResponse) :
    processHttpRequest host r resp = .error .overrun := by
  have hok : (ascii "OK").length < StatusMsgSize := by decide
  have hname : sprintf fileNameSize (Http.fileOf (Http.decodeMsg url)) = .error .overrun :=
    if_neg (Nat.not_lt.mpr hlen)
  simp only [processHttpRequest, hm, hu]
  rw [if_neg (not_not.mpr (isGet_block.mpr hget)), fileOf_decodeMsg hurl, mapError_ok, ok_bind]
  simp only [hst, sprintf_of hok, ok_bind, hname, error_bind]

/-- A name with room is copied like the rest. -/
lemma processHttpRequest_fits (hget : isGet method) (hurl : url ≠ [])
    (hname : NameFits host (Http.fileOf (Http.decodeMsg url))) (fileName : List Byte) :
    ∃ r' resp, processHttpRequest host r (.init fileName) = .ok (r', resp) ∧ Fits resp := by
  obtain ⟨r', resp, hproc, -⟩ :=
    (HttpRequest.processHttpRequest_get hm hu hget host fileName).mpr ⟨hurl, hname⟩
  rw [← processHttpRequest_eq] at hproc
  rcases hsized : processHttpRequest host r (.init fileName) with stop | ⟨r₁, resp₁⟩
  · rw [hsized] at hproc
    cases hproc
  · exact ⟨r₁, resp₁, rfl, (fits_init fileName).processHttpRequest hsized⟩

/-- **When no copy leaves its array**: if the name of a file that is there has room in `fileName`.
An empty `url` is read from outside of its block. -/
theorem raises_answer_iff (hnames : ShortNames host) (fileName : List Byte) (w : ω) :
    Raises others (answer out host fileName r w) ↔
      (isGet method → url ≠ [] ∧ NameFits host (Http.fileOf (Http.decodeMsg url))) := by
  by_cases hget : isGet method
  swap
  · refine iff_of_true ?_ fun h => absurd h hget
    have hproc : processHttpRequest host r (.init fileName) = .ok (r, .init fileName) := by
      simp only [processHttpRequest, hm, hu]
      rw [if_pos (mt isGet_block.mp hget)]
    rw [answer, hproc, ok_bind]
    exact (fits_init fileName).raises_prepareMsgHttpResponse out hnames w
  rw [imp_iff_right hget]
  constructor
  · intro h
    have hurl : url ≠ [] := by
      intro hnil
      rw [answer, processHttpRequest_nil hm hu hget hnil, error_bind] at h
      rcases h _ rfl with h | h <;> cases h
    refine ⟨hurl, fun st hst => ?_⟩
    by_contra hlen
    rw [answer, processHttpRequest_long hm hu hget hurl hst (Nat.not_lt.mp hlen), error_bind] at h
    rcases h _ rfl with h | h <;> cases h
  · rintro ⟨hurl, hname⟩
    obtain ⟨r', resp, hproc, hfits⟩ := processHttpRequest_fits hm hu hget hurl hname fileName
    rw [answer, hproc, ok_bind]
    exact hfits.raises_prepareMsgHttpResponse out hnames w

end

/-- A host on which every name is that of a directory with one entry, `a`. -/
def oneEntry : Http.Host :=
  { Http.Host.empty with stat := fun _ => some ⟨true, 4096⟩, scandir := fun _ => some [[97]] }

lemma shortNames_oneEntry : ShortNames oneEntry := by
  intro dirName names hnames name hname
  obtain rfl := Option.some.inj hnames
  rw [List.mem_singleton.mp hname]
  decide

/-- The listing of `/a` fits. -/
theorem raises_answer_iff_directory :
    Raises others (answer noOutput oneEntry [] (getC [47, 97]) ()) :=
  (raises_answer_iff noOutput (r := getC [47, 97]) rfl rfl shortNames_oneEntry [] ()).mpr fun _ =>
    ⟨by decide, fun _ _ => by decide⟩

set_option maxRecDepth 2000 in
/-- **A name of 128 bytes** has no room for its null byte. -/
theorem not_raises_answer : ¬ ∀ (host : Http.Host), ShortNames host → ∀ (method url : List Byte)
    (r : HttpRequest), r.method = some (block method) → r.url = some (block url) →
    ∀ fileName, Raises others (answer noOutput host fileName r ()) := by
  intro h
  have hraises := h oneEntry shortNames_oneEntry [71, 69, 84] (47 :: List.replicate 128 97)
    (getC (47 :: List.replicate 128 97)) rfl rfl []
  rw [answer, processHttpRequest_long (r := getC (47 :: List.replicate 128 97)) rfl rfl (by decide)
    (List.cons_ne_nil _ _) rfl (by decide), error_bind] at hraises
  rcases hraises _ rfl with h | h <;> cases h

end Sized

end Reactor.HttpC
