import Reactor.Http.Answered
import Reactor.Http.BufferQueue
import Reactor.Http.FileTransfer
import Reactor.Http.ResponseMessage
import Reactor.Http.TcpConnection

/-!
How the older HTTP server's response comes to the client: the message that a request is to be
answered with, and what the send buffer and the socket hold of it, whatever the calls of `send`
return.
-/

namespace Reactor.Http

open Lib Lib.Errors

/-! ### The message for a request -/

namespace Host

/-- The contents of a file, if it can be opened and read to its end. -/
def contents (host : Host) (name : List Byte) : Option (List Byte) :=
  (host.openFile name).bind fun file => if file.fails then none else some file.data

def pageHead (dirName : List Byte) : List Byte :=
  ascii "<html><head><title>" ++ dirName ++ ascii "</title></head><body><table>"

/-- The path that `sendDir` looks an entry up under. -/
def subPath (dirName name : List Byte) : List Byte := dirName ++ ascii "/" ++ name

def pageRow (host : Host) (dirName name : List Byte) : List Byte :=
  row name ((host.stat (subPath dirName name)).getD host.unset)

def pageEnd : List Byte := ascii "</table></body></html>"

/-- What `sendDir` writes with `sprintf` for some entries fits its arrays: the paths, and the rows,
of which the first is put behind what is in `buf`. -/
def RowsFit (host : Host) (dirName : List Byte) : List Byte → List (List Byte) → Prop
  | _, [] => True
  | buf, name :: names =>
    (subPath dirName name).length < 1024 ∧ (buf ++ host.pageRow dirName name).length < 4096 ∧
      RowsFit host dirName [] names

/-- The rows behind what is in `buf`, which is sent with the first of them. -/
def pageRows (host : Host) (dirName buf : List Byte) (names : List (List Byte)) : List Byte :=
  (if names = [] then [] else buf) ++ names.flatMap (host.pageRow dirName)

instance decidableRowsFit (host : Host) (dirName : List Byte) :
    ∀ (buf : List Byte) (names : List (List Byte)), Decidable (host.RowsFit dirName buf names)
  | _, [] => inferInstanceAs (Decidable True)
  | _, _ :: names =>
    have := decidableRowsFit host dirName [] names
    inferInstanceAs (Decidable (_ ∧ _ ∧ _))

/-- The page of a directory. Without entries it has no head. -/
def page (host : Host) (dirName : List Byte) : Option (List Byte) :=
  (host.scandir dirName).bind fun names =>
    if (pageHead dirName).length < 4096 ∧ host.RowsFit dirName (pageHead dirName) names then
      some (host.pageRows dirName (pageHead dirName) names ++ pageEnd)
    else none

end Host

/-- What a function sends for a name. -/
def SendData.body (host : Host) (name : List Byte) : SendData → Option (List Byte)
  | sendFile => host.contents name
  | sendDir => host.page name

/-- A header whose line fits the array it is written to, as a string. -/
def Header.Fits (h : Header) : Prop :=
  0 ∉ h.key ∧ 0 ∉ h.value ∧ (h.line ++ [CR, LF]).length < 1024

/-- The message that answers a request, if it can be answered. -/
def Host.answer (host : Host) (m_method m_url : List Byte) : Option Message :=
  if ¬ isGet m_method then none
  else
    let file := fileOf (decodeMsg m_url)
    let html := Header.contentType (ascii ".html")
    match host.stat file with
    | none => (host.contents (ascii "404.html")).map fun body => ⟨.NotFound, [html], body⟩
    | some st =>
      if st.isDir then (host.page file).map fun body => ⟨.OK, [html], body⟩
      else (host.contents file).map fun body =>
        ⟨.OK, [.contentLength st.st_size, .contentType file], body⟩

/-- No file changes between a `stat` and a `read` of it. -/
def Host.Steady (host : Host) : Prop :=
  ∀ name st file, host.stat name = some st → st.isDir = false →
    host.openFile name = some file → st.st_size = file.data.length

/-- The bytes written to a socket, with those that wait in the send buffer behind them. -/
def wire (out : Buffer × Socket) : List Byte := out.2.written ++ out.1.readable

/-- A computation that comes back exactly if there is a text, and has put it on the wire. -/
def Puts {ε : Type} (text : Option (List Byte)) (out : Buffer × Socket)
    (x : Except ε (Buffer × Socket)) : Prop :=
  match text with
  | none => ∃ e, x = .error e
  | some data => ∃ out', x = .ok out' ∧ out'.1.InBounds ∧ wire out' = wire out ++ data

namespace Puts

variable {ε : Type} {out : Buffer × Socket} {x : Except ε (Buffer × Socket)}
  {f : Buffer × Socket → Except ε (Buffer × Socket)} {data : List Byte}
  {text : Option (List Byte)}

lemma of_error (e : ε) : Puts none out (.error e) := ⟨e, rfl⟩

lemma nothing (h : out.1.InBounds) :
    Puts (some []) out (.ok out : Except ε (Buffer × Socket)) :=
  ⟨out, rfl, h, (List.append_nil _).symm⟩

/-- **One after the other.** -/
lemma bind (hx : Puts (some data) out x) (hf : ∀ out', out'.1.InBounds → Puts text out' (f out')) :
    Puts (text.map (data ++ ·)) out (x >>= f) := by
  obtain ⟨out', rfl, hin, hwire⟩ := hx
  have hf := hf out' hin
  cases text with
  | none => exact hf
  | some rest =>
      obtain ⟨out'', hx, hin', hwire'⟩ := hf
      exact ⟨out'', hx, hin', by rw [hwire', hwire, List.append_assoc]⟩

/-- A first part that fails. -/
lemma bind_none (hx : Puts none out x) : Puts none out (x >>= f) := by
  obtain ⟨e, rfl⟩ := hx
  exact ⟨e, rfl⟩

lemma mapError {ε' : Type} (hx : Puts text out x) (g : ε → ε') : Puts text out (x.mapError g) := by
  cases text with
  | none =>
      obtain ⟨e, rfl⟩ := hx
      exact ⟨g e, rfl⟩
  | some data =>
      obtain ⟨out', rfl, hout⟩ := hx
      exact ⟨out', rfl, hout⟩

end Puts

variable {host : Host}

/-- Every byte of what is sent is written or waits, whatever `send` returns. -/
lemma wire_sendData {b : Buffer} (h : b.InBounds) (socket : Socket) :
    wire (b.sendData socket).2 = wire (b, socket) := by
  have hread := (h.sendData socket).2
  have hwritten : (b.sendData socket).2.2.written =
      socket.written ++ b.readable.take (socket.send b.readable).1.toNat := by
    unfold Buffer.sendData
    split_ifs with hsize
    · rfl
    · have hnil : b.readable = [] := by
        have hlen := h.length_readable
        exact List.length_eq_zero_iff.mp (by omega)
      simp [hnil]
  rw [wire, wire, hread, hwritten, List.append_assoc, List.take_append_drop]

lemma flatten_toChunks_go (n : ℕ) (data : List Byte) (acc : Array Byte)
    (bufs : Array (List Byte)) :
    (List.toChunks.go n data acc bufs).flatten = bufs.toList.flatten ++ acc.toList ++ data := by
  induction data generalizing acc bufs with
  | nil => simp [List.toChunks.go]
  | cons c data ih =>
      rw [List.toChunks.go]
      split <;> simp [ih]

/-- The chunks of a file make up its bytes. -/
lemma flatten_toChunks {n : ℕ} (hn : n ≠ 0) (data : List Byte) :
    (data.toChunks n).flatten = data := by
  cases data with
  | nil => rfl
  | cons c data =>
      rw [List.toChunks]
      · simp [flatten_toChunks_go]
      · simpa using hn

section

variable (hmem : ∀ p n, (host.realloc p n).isSome)
include hmem

lemma puts_appendAndSend {out : Buffer × Socket} (h : out.1.InBounds) (data : List Byte) :
    Puts (some data) out (appendAndSend host data out) := by
  obtain ⟨ret, b', happ, hin, hread⟩ := h.appendString hmem data
  refine ⟨_, by rw [appendAndSend, happ]; rfl, (hin.sendData out.2).1, ?_⟩
  rw [wire_sendData hin, wire, wire, hread, List.append_assoc]

lemma puts_appendAndSend_all {out : Buffer × Socket} (h : out.1.InBounds)
    (bufs : List (List Byte)) :
    Puts (some bufs.flatten) out
      (bufs.foldlM (fun out buf => appendAndSend host buf out) out) := by
  induction bufs generalizing out with
  | nil => exact .nothing h
  | cons buf bufs ih =>
      rw [List.foldlM_cons]
      exact (puts_appendAndSend hmem h buf).bind fun out' h' => ih h'

/-- `sendFile` sends the contents of the file, if there are any. -/
lemma puts_sendFile {out : Buffer × Socket} (h : out.1.InBounds) (fileName : List Byte) :
    Puts (host.contents (cstr fileName)) out (sendFile host fileName out) := by
  unfold sendFile Host.contents
  rcases host.openFile (cstr fileName) with _ | file
  · exact .of_error _
  have hcopy := puts_appendAndSend_all hmem h (file.data.toChunks 1024)
  rw [flatten_toChunks (by decide)] at hcopy
  cases hfails : file.fails
  · have hput := hcopy.bind fun out' h' => Puts.nothing h'
    simpa [hfails] using hput
  · have hput := hcopy.bind fun out' h' => (Puts.of_error Abort.endless : Puts none out' _)
    simpa [hfails] using hput

/-- What `sendDir` does with an entry. -/
def putEntry (host : Host) (dirName : List Byte) (s : List Byte × Buffer × Socket)
    (name : List Byte) : Except Abort (List Byte × Buffer × Socket) := do
  let subPath ← sprintf 1024 (dirName ++ ascii "/" ++ name)
  let st := (host.stat subPath).getD host.unset
  let buf ← sprintf 4096 (s.1 ++ row name st)
  let out ← appendAndSend host buf s.2
  .ok ([], out)

omit hmem in
lemma sprintf_eq {size : ℕ} {text : List Byte} (h : text.length < size) :
    sprintf size text = .ok text := if_pos h

omit hmem in
lemma sprintf_eq_error {size : ℕ} {text : List Byte} (h : ¬ text.length < size) :
    sprintf size text = .error .memory := if_neg h

omit hmem in
lemma putEntry_eq (dirName buf name : List Byte) (out : Buffer × Socket) :
    putEntry host dirName (buf, out) name =
      if (Host.subPath dirName name).length < 1024 ∧
          (buf ++ host.pageRow dirName name).length < 4096 then
        appendAndSend host (buf ++ host.pageRow dirName name) out >>= fun out => .ok ([], out)
      else .error .memory := by
  unfold putEntry Host.pageRow Host.subPath
  by_cases hpath : (dirName ++ ascii "/" ++ name).length < 1024
  · rw [sprintf_eq hpath, Lib.Errors.ok_bind]
    dsimp only
    set text := buf ++ row name ((host.stat (dirName ++ ascii "/" ++ name)).getD host.unset)
    by_cases hrow : text.length < 4096
    · rw [sprintf_eq hrow, if_pos ⟨hpath, hrow⟩]
      rfl
    · rw [sprintf_eq_error hrow, if_neg fun h => hrow h.2]
      rfl
  · rw [sprintf_eq_error hpath, if_neg fun h => hpath h.1]
    rfl

/-- The rows, the first with what is in `buf` in front. -/
lemma puts_rows {out : Buffer × Socket} (h : out.1.InBounds) (dirName buf : List Byte)
    (names : List (List Byte)) :
    Puts (if host.RowsFit dirName buf names then some (host.pageRows dirName buf names) else none)
      out ((names.foldlM (putEntry host dirName) (buf, out)).map Prod.snd) := by
  induction names generalizing buf out with
  | nil => exact .nothing h
  | cons name names ih =>
      rw [List.foldlM_cons, putEntry_eq]
      by_cases hfits : (Host.subPath dirName name).length < 1024 ∧
          (buf ++ host.pageRow dirName name).length < 4096
      · rw [if_pos hfits]
        have hrow := puts_appendAndSend hmem h (buf ++ host.pageRow dirName name)
        have hput := hrow.bind fun out' h' => ih h' []
        have hloop : ((appendAndSend host (buf ++ host.pageRow dirName name) out >>= fun out =>
              Except.ok ([], out)) >>= (names.foldlM (putEntry host dirName) ·)).map Prod.snd =
            appendAndSend host (buf ++ host.pageRow dirName name) out >>= fun out =>
              (names.foldlM (putEntry host dirName) ([], out)).map Prod.snd := by
          cases appendAndSend host (buf ++ host.pageRow dirName name) out <;> rfl
        rw [hloop]
        convert hput using 1
        by_cases hrows : host.RowsFit dirName [] names
        · rw [if_pos ⟨hfits.1, hfits.2, hrows⟩, if_pos hrows]
          simp [Host.pageRows]
        · rw [if_neg fun h => hrows h.2.2, if_neg hrows]
          rfl
      · rw [if_neg hfits, if_neg fun hrows => hfits ⟨hrows.1, hrows.2.1⟩]
        exact .of_error _

omit hmem in
lemma sendDir_eq (dirName : List Byte) (out : Buffer × Socket) :
    sendDir host dirName out =
      (sprintf 4096 (Host.pageHead (cstr dirName)) >>= fun buf =>
        (((host.scandir (cstr dirName)).getD []).foldlM (putEntry host (cstr dirName))
          (buf, out)).map Prod.snd >>= fun out =>
          appendAndSend host Host.pageEnd out >>= fun out =>
            if (host.scandir (cstr dirName)).isNone then .error .memory else .ok out) := by
  unfold sendDir Host.pageHead
  dsimp only
  congr 1
  funext buf
  change (List.foldlM (putEntry host (cstr dirName)) (buf, out) _ >>= _) = _
  cases List.foldlM (putEntry host (cstr dirName)) (buf, out)
    ((host.scandir (cstr dirName)).getD []) <;> rfl

/-- `sendDir` sends the page of the directory, if it has one. -/
lemma puts_sendDir {out : Buffer × Socket} (h : out.1.InBounds) (dirName : List Byte) :
    Puts (host.page (cstr dirName)) out (sendDir host dirName out) := by
  rw [sendDir_eq, Host.page]
  set d := cstr dirName
  by_cases hhead : (Host.pageHead d).length < 4096
  swap
  · have hnone : ((host.scandir d).bind fun names =>
        if (Host.pageHead d).length < 4096 ∧ host.RowsFit d (Host.pageHead d) names then
          some (host.pageRows d (Host.pageHead d) names ++ Host.pageEnd) else none) = none :=
      Option.bind_eq_none_iff.mpr fun names _ => if_neg fun h => hhead h.1
    rw [sprintf_eq_error hhead, hnone]
    exact .of_error _
  rw [sprintf_eq hhead, Lib.Errors.ok_bind]
  rcases host.scandir d with _ | names
  · have hend := puts_appendAndSend hmem h Host.pageEnd
    exact hend.bind fun _ _ => Puts.of_error _
  have hrows := puts_rows hmem h d (Host.pageHead d) names
  simp only [Option.bind_some, Option.getD_some, Option.isNone_some, Bool.false_eq_true, if_false]
  by_cases hfit : host.RowsFit d (Host.pageHead d) names
  · rw [if_pos hfit] at hrows
    rw [if_pos ⟨hhead, hfit⟩]
    have hend : ∀ out' : Buffer × Socket, out'.1.InBounds → Puts (some Host.pageEnd) out'
        (appendAndSend host Host.pageEnd out' >>= fun out => .ok out) := by
      intro out' h'
      simpa using (puts_appendAndSend hmem h' Host.pageEnd).bind fun _ h'' => .nothing h''
    exact hrows.bind hend
  · rw [if_neg hfit] at hrows
    rw [if_neg fun h => hfit h.2]
    exact hrows.bind_none

lemma puts_call {out : Buffer × Socket} (h : out.1.InBounds) (f : SendData) (name : List Byte) :
    Puts (f.body host (cstr name)) out (f.call host name out) := by
  cases f with
  | sendFile => exact puts_sendFile hmem h name
  | sendDir => exact puts_sendDir hmem h name

/-! ### The response -/

/-- Some texts are appended one by one. -/
def putTexts (host : Host) (texts : List (List Byte)) (sendBuf : Buffer) : Except Abort Buffer :=
  texts.foldlM (fun sendBuf text => (sendBuf.appendString host text).map Prod.snd) sendBuf

/-- Some texts, an empty line, and what a function sends. -/
def putMessage (host : Host) (texts : List (List Byte)) (f : SendData) (name : List Byte)
    (out : Buffer × Socket) : Except Abort (Buffer × Socket) := do
  let sendBuf ← putTexts host texts out.1
  let out ← appendAndSend host [CR, LF] (sendBuf, out.2)
  f.call host name out

lemma putTexts_eq {b : Buffer} (h : b.InBounds) (texts : List (List Byte)) :
    ∃ b', putTexts host texts b = .ok b' ∧ b.Appended texts.flatten b' := by
  induction texts generalizing b with
  | nil => exact ⟨b, rfl, h, (List.append_nil _).symm⟩
  | cons text texts ih =>
      obtain ⟨ret, b₁, happ, hin, hread⟩ := h.appendString hmem text
      obtain ⟨b', hfold, hin', hread'⟩ := ih hin
      refine ⟨b', ?_, hin', ?_⟩
      · rw [putTexts, List.foldlM_cons, happ]
        exact hfold
      · rw [hread', hread, List.append_assoc]
        rfl

/-- **A message is put on the wire**, unless there is no body. -/
lemma puts_putMessage {out : Buffer × Socket} (h : out.1.InBounds) (lines : List (List Byte))
    (f : SendData) (name : List Byte) :
    Puts ((f.body host (cstr name)).map (HeadBody.join CR LF lines)) out
      (putMessage host (lines.map (· ++ [CR, LF])) f name out) := by
  obtain ⟨b, htexts, hin, hread⟩ := putTexts_eq hmem h (lines.map (· ++ [CR, LF]))
  have hempty : Puts (some [CR, LF]) (b, out.2) (appendAndSend host [CR, LF] (b, out.2)) :=
    puts_appendAndSend hmem hin [CR, LF]
  have hput := hempty.bind fun out' h' => puts_call hmem h' f name
  have hhead : ∀ body, wire out ++ HeadBody.join CR LF lines body =
      wire (b, out.2) ++ ([CR, LF] ++ body) := by
    intro body
    simp [wire, hread, HeadBody.join, List.flatMap_def]
  rw [putMessage, htexts, Lib.Errors.ok_bind]
  generalize f.body host (cstr name) = text at hput ⊢
  rcases text with _ | body
  · exact hput
  · obtain ⟨out', hout, hin', hwire⟩ := hput
    exact ⟨out', hout, hin', hwire.trans (hhead body).symm⟩

omit hmem in
lemma statusLine_eq {code : StatusCode} {phrase : String}
    (h : HttpResponse.m_info.lookup code.toNat = some phrase) :
    ascii "HTTP/1.1 " ++ decimal code.toNat ++ ascii " " ++ ascii phrase ++ ascii "\r\n" =
      code.line ++ [CR, LF] ∧ (code.line ++ [CR, LF]).length < 1024 ∧
      0 ∉ code.line ++ [CR, LF] := by
  have hphrase : code.phrase = ascii phrase := by rw [StatusCode.phrase, h]; rfl
  have hline : code.line ++ [CR, LF] =
      ascii "HTTP/1.1 " ++ decimal code.toNat ++ ascii " " ++ ascii phrase ++ ascii "\r\n" := by
    rw [StatusCode.line, hphrase]
    rfl
  rw [hline]
  refine ⟨rfl, ?_⟩
  cases code <;> cases h <;> decide

omit hmem in
lemma Header.Fits.text {h : Header} (hfit : h.Fits) :
    cstr h.key ++ ascii ": " ++ cstr h.value ++ ascii "\r\n" = h.render ∧
      h.render.length < 1024 ∧ 0 ∉ h.render := by
  obtain ⟨hkey, hvalue, hlen⟩ := hfit
  rw [cstr_of_notMem hkey, cstr_of_notMem hvalue]
  refine ⟨rfl, hlen, ?_⟩
  have hsep : (0 : Byte) ∉ [COLON, SP] := by decide
  have hend : (0 : Byte) ∉ [CR, LF] := by decide
  simp only [Header.render, Header.line, List.mem_append, not_or]
  exact ⟨⟨⟨hkey, hsep⟩, hvalue⟩, hend⟩

/-- What `prepareMsg` does with a header. -/
def putHeader (host : Host) (sendBuf : Buffer) (h : List Byte × List Byte) :
    Except Abort Buffer := do
  let tmp ← sprintf 1024 (cstr h.1 ++ ascii ": " ++ cstr h.2 ++ ascii "\r\n")
  let (_, sendBuf) ← Buffer.appendCString host tmp sendBuf
  .ok sendBuf

omit hmem in
/-- The header lines, appended one by one. -/
lemma putHeaders_eq {hs : List Header} (hfit : ∀ h ∈ hs, h.Fits) (b : Buffer) :
    (hs.map fun h => (h.key, h.value)).foldlM (putHeader host) b =
      putTexts host (hs.map Header.render) b := by
  induction hs generalizing b with
  | nil => rfl
  | cons header hs ih =>
      obtain ⟨hheader, hfit⟩ := List.forall_mem_cons.mp hfit
      obtain ⟨htext, hlen, hzero⟩ := hheader.text
      have hput : putHeader host b (header.key, header.value) =
          (b.appendString host header.render).map Prod.snd := by
        rw [putHeader, htext, sprintf_eq hlen, Lib.Errors.ok_bind, Buffer.appendCString,
          cstr_of_notMem hzero]
        rfl
      rw [List.map_cons, List.map_cons, List.foldlM_cons, hput, putTexts, List.foldlM_cons]
      exact congrArg _ (funext fun b => ih hfit b)

/-- **`prepareMsg` puts the message on the wire**, and does not return if there is no body. -/
lemma puts_prepareMsg {out : Buffer × Socket} (h : out.1.InBounds) {r : HttpResponse}
    {hs : List Header} {f : SendData} (hcode : r.m_statusCode ≠ .Unknown)
    (hheaders : r.m_headers = hs.map fun h => (h.key, h.value)) (hfit : ∀ h ∈ hs, h.Fits)
    (hf : r.sendDataFunc = some f) :
    Puts ((f.body host (cstr r.m_fileName)).map fun body =>
      Message.render ⟨r.m_statusCode, hs, body⟩) out (r.prepareMsg host out) := by
  obtain ⟨phrase, hphrase⟩ : ∃ phrase,
      HttpResponse.m_info.lookup r.m_statusCode.toNat = some phrase := by
    cases hr : r.m_statusCode <;> first | exact absurd hr hcode | exact ⟨_, rfl⟩
  obtain ⟨htext, hlen, hzero⟩ := statusLine_eq hphrase
  have hprep : r.prepareMsg host out =
      putMessage host ((r.m_statusCode.line :: hs.map Header.line).map (· ++ [CR, LF])) f
        r.m_fileName out := by
    have hlines : (hs.map Header.line).map (· ++ [CR, LF]) = hs.map Header.render := by
      rw [List.map_map]
      rfl
    rw [HttpResponse.prepareMsg, putMessage, List.map_cons, hlines, putTexts, List.foldlM_cons]
    simp only [hphrase, hf, hheaders]
    rw [Lib.Errors.ok_bind, htext, sprintf_eq hlen, Lib.Errors.ok_bind, Buffer.appendCString,
      cstr_of_notMem hzero]
    rcases out.1.appendString host (r.m_statusCode.line ++ [CR, LF]) with e | ⟨ret, b⟩
    · rfl
    · change (List.foldlM (putHeader host) b _ >>= _) = (putTexts host _ b >>= _)
      rw [putHeaders_eq hfit]
      rfl
  rw [hprep]
  exact puts_putMessage hmem h (r.m_statusCode.line :: hs.map Header.line) f r.m_fileName

/-! ### The request -/

omit hmem in
/-- The name that is looked up is a string. -/
lemma cstr_fileOf (m_url : List Byte) : cstr (fileOf m_url) = fileOf m_url := by
  unfold fileOf
  split_ifs
  · decide
  · exact cstr_cstr _

omit hmem in
lemma fits_contentType (name : List Byte) : (Header.contentType name).Fits := by
  have hkey : (0 : Byte) ∉ ascii "Content-type" := by decide
  refine ⟨hkey, of_fileTypes (P := (0 ∉ ·)) (by decide) (by decide) name, ?_⟩
  exact of_fileTypes
    (P := fun value => (ascii "Content-type" ++ [COLON, SP] ++ value ++ [CR, LF]).length < 1024)
    (by decide) (by decide) name

omit hmem in
lemma fits_contentLength {n : ℤ} (h : n.natAbs < 2 ^ 64) : (Header.contentLength n).Fits := by
  have hkey : (0 : Byte) ∉ ascii "Content-length" := by decide
  refine ⟨hkey, fun h => absurd (mem_decimal h).1 (by decide), ?_⟩
  have hlen := length_decimal_le h
  have hname : (ascii "Content-length" ++ [COLON, SP]).length = 16 := by decide
  simp only [Header.line, Header.contentLength, List.length_append, List.length_cons,
    List.length_nil] at hname ⊢
  omega

end

/-- A `struct stat` holds the size of a file as a 64-bit number. -/
def Host.Sized (host : Host) : Prop :=
  ∀ name st, host.stat name = some st → 0 ≤ st.st_size ∧ st.st_size < 2 ^ 63

/-- A header as `m_headers` has it. -/
def Header.pair (h : Header) : List Byte × List Byte := (h.key, h.value)

lemma addHeader_first (name : List Byte) {r : HttpResponse} (h : r.m_headers = []) :
    r.addHeader (ascii "Content-type") (getFileType name) =
      { r with m_headers := [(Header.contentType name).pair] } := by
  have hvalue : getFileType name ≠ [] := (Header.contentType name).value_ne
  rw [HttpResponse.addHeader, if_neg (by simp [hvalue]; decide), h]
  rfl

lemma addHeader_length (name : List Byte) (n : ℤ) {r : HttpResponse}
    (h : r.m_headers = [(Header.contentType name).pair]) :
    r.addHeader (ascii "Content-length") (decimal n) =
      { r with m_headers := [(Header.contentLength n).pair, (Header.contentType name).pair] } := by
  have hvalue : decimal n ≠ [] := decimal_ne_nil n
  rw [HttpResponse.addHeader, if_neg (by simp [hvalue]; decide), h]
  have hne : (Header.contentType name).pair.1 ≠ ascii "Content-length" := by
    change ascii "Content-type" ≠ _
    decide
  have hlt : ascii "Content-length" < (Header.contentType name).pair.1 := by
    change _ < ascii "Content-type"
    decide
  rw [HttpResponse.insertHeader, if_neg hne, if_pos hlt]
  rfl

/-- **A request is answered with its message**, or `prepareMsg` does not return. -/
theorem puts_answer (hmem : ∀ p n, (host.realloc p n).isSome) (hsize : host.Sized)
    {out : Buffer × Socket} (h : out.1.InBounds) (r : HttpRequest) :
    Puts ((host.answer r.m_method r.m_url).map Message.render) out
      ((r.processHttpRequest host .new).2.prepareMsg host out) := by
  unfold Host.answer HttpRequest.processHttpRequest
  by_cases hget : isGet r.m_method
  swap
  · rw [if_pos hget, if_pos hget]
    exact ⟨.outOfRange, rfl⟩
  rw [if_neg (not_not_intro hget), if_neg (not_not_intro hget)]
  have hfile := cstr_fileOf (decodeMsg r.m_url)
  have hone : ∀ h ∈ [Header.contentType (ascii ".html")], h.Fits := by
    simpa using fits_contentType _
  dsimp only
  generalize fileOf (decodeMsg r.m_url) = file at hfile ⊢
  rcases hstat : host.stat file with _ | st
  · dsimp only
    rw [addHeader_first _ rfl]
    have hput := puts_prepareMsg hmem h
      (r := ⟨.NotFound, ascii "404.html", [(Header.contentType (ascii ".html")).pair],
        some .sendFile⟩) (by simp) rfl hone rfl
    rw [Option.map_map]
    exact hput
  obtain ⟨hlo, hhi⟩ := hsize file st hstat
  dsimp only
  cases st.isDir
  · rw [if_neg Bool.false_ne_true, if_neg Bool.false_ne_true, addHeader_first _ rfl,
      addHeader_length _ _ rfl]
    have htwo : ∀ h ∈ [Header.contentLength st.st_size, Header.contentType file], h.Fits := by
      simpa using ⟨fits_contentLength (by omega), fits_contentType file⟩
    have hput := puts_prepareMsg hmem h
      (r := ⟨.OK, file, [(Header.contentLength st.st_size).pair, (Header.contentType file).pair],
        some .sendFile⟩) (by simp) rfl htwo rfl
    rw [hfile] at hput
    rw [Option.map_map]
    exact hput
  · rw [if_pos rfl, if_pos rfl, addHeader_first _ rfl]
    have hput := puts_prepareMsg hmem h
      (r := ⟨.OK, file, [(Header.contentType (ascii ".html")).pair], some .sendDir⟩) (by simp) rfl
      hone rfl
    rw [hfile] at hput
    rw [Option.map_map]
    exact hput

/-! ### The parse -/

/-- **The parse answers once at most.** It fails without an answer, or comes back with one. -/
lemma HttpRequest.parseLoop_answers {ω : Type*} {processHttpRequest : HttpRequest → ω → List Byte × ω}
    {prepareMsg : ω → ω} {n : ℕ} {flag flag' : Bool} {b b' : Buffer} {r r' : HttpRequest} {w w' : ω}
    (hr : r.m_curState ≠ .ParseReqDone)
    (h : parseLoop processHttpRequest prepareMsg n flag b r w = some (.ok (flag', r', b', w'))) :
    flag' = false ∧ w' = w ∨
      flag' = true ∧ ∃ r₀, w' = prepareMsg (processHttpRequest r₀ w).2 := by
  induction n generalizing flag b r with
  | zero => cases h
  | succ n ih =>
      rw [parseLoop, if_neg hr] at h
      split at h
      · cases h
      rename_i flag₁ r₁ b₁ hstep
      split_ifs at h with hflag hdone
      · simp only [Option.some.injEq, Except.ok.injEq, Prod.mk.injEq] at h
        exact Or.inl ⟨h.1 ▸ by simpa using hflag, h.2.2.2.symm⟩
      · -- the next round is the last
        right
        cases n with
        | zero => cases h
        | succ n =>
            simp only [parseLoop, hdone, if_true, Option.some.injEq, Except.ok.injEq,
              Prod.mk.injEq] at h
            exact ⟨h.1 ▸ by simpa using hflag, r₁, h.2.2.2.symm⟩
      · exact ih hdone h

/-- A message on the wire, with nothing in front. -/
structure Carries (m : Message) (out : Buffer × Socket) : Prop where
  inBounds : out.1.InBounds
  wire : wire out = m.render

namespace Carries

variable {m : Message} {out : Buffer × Socket}

lemma written_prefix (h : Carries m out) : out.2.written <+: m.render := ⟨_, h.wire⟩

/-- Nothing waits in the send buffer exactly if the client can read the message. -/
lemma sent_iff (h : Carries m out) :
    out.1.readableSize = 0 ↔ receive out.2.written = some m.received := by
  have hlen := h.inBounds.length_readable
  have hwire : out.2.written ++ out.1.readable = m.render := h.wire
  rw [Message.receive_eq_iff h.written_prefix, ← hwire, List.self_eq_append_right,
    ← List.length_eq_zero_iff]
  omega

end Carries

/-! ### A call of `processRead` -/

namespace TcpConnection

/-- A connection that has not answered a request, with a socket that has not been written to. -/
structure Fresh (conn : TcpConnection) (socket : Socket) : Prop where
  request : conn.m_request.m_curState ≠ .ParseReqDone
  response : conn.m_response = .new
  inBounds : conn.m_writeBuf.InBounds
  empty : conn.m_writeBuf.readable = []
  unwritten : socket.written = []

lemma fresh_new (readData writeData : ℕ) {socket : Socket} (h : socket.written = []) :
    (new readData writeData).Fresh socket :=
  ⟨by simp [new, HttpRequest.reset], rfl, Buffer.inBounds_new _ _, Buffer.readable_new _ _, h⟩

/-- What a parse that came back leaves on the wire. -/
lemma carries_prepared (hmem : ∀ p n, (host.realloc p n).isSome) (hsize : host.Sized)
    {conn : TcpConnection} {socket : Socket} (hconn : conn.Fresh socket) (r : HttpRequest)
    {w : Reply} (hw : w = Reply.prepareMsg host (Reply.processHttpRequest host r
      (.new conn.m_response conn.m_writeBuf socket)).2) :
    match host.answer r.m_method r.m_url with
    | none => ∃ a, w.abort = some a
    | some m => w.abort = none ∧ w.handled = [r] ∧ Carries m (w.sendBuf, w.socket) := by
  have hin : (conn.m_writeBuf, socket).1.InBounds := hconn.inBounds
  have hput := puts_answer hmem hsize hin r
  have hwire : wire (conn.m_writeBuf, socket) = [] := by
    rw [wire, hconn.empty, hconn.unwritten, List.append_nil]
  rw [hconn.response] at hw
  simp only [Reply.prepareMsg, Reply.processHttpRequest, Reply.new] at hw
  generalize host.answer r.m_method r.m_url = answer at hput
  rcases answer with _ | m
  · obtain ⟨e, he⟩ := hput
    rw [he] at hw
    exact ⟨e, congrArg Reply.abort hw⟩
  · obtain ⟨⟨b, socket'⟩, hout, hin, hm⟩ := hput
    rw [hout] at hw
    rw [hwire] at hm
    subst hw
    exact ⟨rfl, rfl, hin, hm⟩

/-- **A call that comes back has sent nothing**, or has put one message on the wire. -/
lemma processRead_answers (hmem : ∀ p n, (host.realloc p n).isSome) (hsize : host.Sized)
    {conn : TcpConnection} {socket : Socket} (hconn : conn.Fresh socket) {rounds : ℕ}
    {incoming : ReadResult} {s : Served}
    (h : conn.processRead host rounds incoming socket = some (.ok s)) :
    s.socket = socket ∨ ∃ m_method m_url m, host.answer m_method m_url = some m ∧
      Carries m (s.conn.m_writeBuf, s.socket) := by
  obtain ⟨result, hresult, h⟩ := Option.map_eq_some_iff.mp h
  cases result with
  | error e => cases h
  | ok s₀ =>
  obtain rfl := Except.ok.inj h
  simp only
  unfold readRequest at hresult
  split at hresult
  · cases hresult
  split_ifs at hresult with hcount
  swap
  · obtain rfl := Except.ok.inj (Option.some.inj hresult)
    exact Or.inl rfl
  obtain ⟨parsed, hparse, hfinish⟩ := Option.map_eq_some_iff.mp hresult
  cases parsed with
  | error f => cases hfinish
  | ok parsed =>
  obtain ⟨flag, request, readBuf, w⟩ := parsed
  rcases HttpRequest.parseLoop_answers hconn.request hparse with ⟨rfl, rfl⟩ | ⟨rfl, r, hw⟩
  · left
    simp only [finishRead, Reply.new, Bool.false_eq_true, if_false] at hfinish
    split at hfinish
    · cases hfinish
    · obtain rfl := Except.ok.inj hfinish
      rfl
  · right
    have hwire := carries_prepared hmem hsize hconn r hw
    rcases hm : host.answer r.m_method r.m_url with _ | m
    · rw [hm] at hwire
      obtain ⟨a, ha⟩ := hwire
      simp only [finishRead, ha] at hfinish
      cases hfinish
    · rw [hm] at hwire
      obtain ⟨ha, -, hcarries⟩ := hwire
      simp only [finishRead, ha, if_true] at hfinish
      obtain rfl := Except.ok.inj hfinish
      exact ⟨_, _, m, hm, hcarries⟩

/-- What the client is told by a call that answers with a message, on a socket not written to
before: it has read nothing, or the right head and a part of the body; and the connection's end
closes the socket exactly if nothing read is left and the client has the whole message. -/
structure Delivers (m : Message) (s : Served) : Prop where
  reads : receive s.socket.written = none ∨
    ∃ part, part <+: m.body ∧ receive s.socket.written = some { m.received with body := part }
  closes : s.conn.frees = true ↔
    s.conn.m_readBuf.readableSize = 0 ∧ receive s.socket.written = some m.received

end TcpConnection

end Reactor.Http
