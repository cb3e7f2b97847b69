import Reactor.Http.Delivery
import Reactor.HttpC.TcpConnection

/-!
How the C version's response comes to the client. As long as no `send` fails, its functions write
what those of the other version write on a system whose file sizes are numbers of 32 bits; so it
answers with the same messages, but for the order of the header lines and a reason phrase.
-/

namespace Reactor.HttpC

open Lib Lib.Errors Lib.HeadBody Lib.Memory
open Http (Host SendData Stat StatusCode Socket Abort Message Received Puts wire receive statusLine putTexts
  putMessage Unbroken CompleteRequest isGet cstr cstr_of_notMem ascii decimal toInt SP CR LF COLON)

/-! ### In step with the other version -/

/-- A `struct stat` as `%d` prints it. -/
def narrowStat (st : Stat) : Stat := { st with st_size := toInt st.st_size }

/-- The system with the sizes that are printed. -/
def narrow (host : Host) : Host :=
  { host with
    stat := fun name => (host.stat name).map narrowStat
    unset := narrowStat host.unset }

/-- How a call ends, in the words of the C version. -/
def halt : Abort → Halt
  | .outOfRange => .fault .null
  | .badFunctionCall => .fault .null
  | .assertion => .fault .assertion
  | .memory => .fault .memory
  | .endless => .endless

/-- A send buffer in order, and a socket on which no `send` fails. -/
structure Out.Sends (out : Out) : Prop where
  inBounds : out.1.InBounds
  sends : ∀ i, 0 ≤ out.2.sends i

namespace Out

variable {host : Host} (hmem : ∀ p n, (host.realloc p n).isSome)
include hmem

lemma extendRoomBuffer_host {b : Buffer} (h : b.InBounds) (size : ℕ) :
    extendRoomBuffer memmove host.realloc size b = .ok (b.extendRoom (narrow host) size) := by
  obtain ⟨tmp, hnew⟩ :=
    Option.isSome_iff_exists.mp (hmem b.m_data (b.m_capacity + size).toNat)
  have hnew' : (narrow host).realloc b.m_data (b.m_capacity + size).toNat = some tmp := hnew
  unfold extendRoomBuffer Http.Buffer.extendRoom
  simp only [bufferWriteAbleSize_eq, bufferReadAbleSize_eq, if_neg h.not_neg, h.memmove_eq, hnew,
    hnew']
  split_ifs <;> rfl

lemma appendDataBuffer_host {b : Buffer} (h : b.InBounds) (data : List Byte) :
    appendDataBuffer memmove host.realloc data b =
      (b.appendString (narrow host) data).mapError fun _ => .memory := by
  unfold appendDataBuffer Http.Buffer.appendString
  split_ifs
  · rfl
  · rw [extendRoomBuffer_host hmem h, ok_bind]
    dsimp only
    rw [mapError_bind]
    rfl

/-- The other version's append has memory too. -/
lemma appendString_narrow {b : Buffer} (h : b.InBounds) (data : List Byte) :
    ∃ ret b', b.appendString (narrow host) data = .ok (ret, b') ∧ b.Appended data b' := by
  have hmem' : ∀ p n, ((narrow host).realloc p n).isSome := hmem
  exact h.appendString hmem' data

lemma append_eq {out : Out} (h : out.1.InBounds) (data : List Byte) :
    append host data out =
      (((out.1.appendString (narrow host) data).map Prod.snd).map (·, out.2)).mapError halt := by
  obtain ⟨ret, b, happ, -⟩ := appendString_narrow hmem h data
  rw [append, appendDataBuffer_host hmem h, happ]
  rfl

omit hmem in
lemma send_eq {out : Out} (h : Sends out) : send out = (out.1.sendData out.2).2 := by
  have hcount : 0 ≤ (out.2.send out.1.readable).1 :=
    le_min (h.sends _) (Int.natCast_nonneg _)
  unfold send sendDataBuffer Http.Buffer.sendData
  dsimp only
  rw [bufferReadAbleSize_eq]
  by_cases hsize : out.1.readableSize > 0
  swap
  · rw [if_neg hsize, if_neg hsize]
  rw [if_pos hsize, if_pos hsize]
  by_cases hzero : (out.2.send out.1.readable).1 = 0
  · rw [if_neg (not_not.mpr hzero), if_neg (by omega)]
  · rw [if_pos hzero, if_pos (by omega)]

omit hmem in
lemma sends_sendData {b : Buffer} {socket : Socket} (h : b.InBounds)
    (hsends : ∀ i, 0 ≤ socket.sends i) : Sends (b.sendData socket).2 := by
  refine ⟨(h.sendData socket).1, ?_⟩
  unfold Http.Buffer.sendData
  split_ifs
  · exact hsends
  · exact hsends

lemma appendAndSend_follows {out : Out} (h : Sends out) (data : List Byte) :
    Follows halt Sends (appendAndSend host data out)
      (Http.appendAndSend (narrow host) data out) := by
  obtain ⟨ret, b, happ, hin, -⟩ := appendString_narrow hmem h.inBounds data
  have hb : Sends (b, out.2) := ⟨hin, h.sends⟩
  have hput : Http.appendAndSend (narrow host) data out = .ok (b.sendData out.2).2 := by
    rw [Http.appendAndSend, happ]
    rfl
  have hsend : appendAndSend host data out = .ok (b.sendData out.2).2 := by
    rw [appendAndSend, append_eq hmem h.inBounds, happ]
    exact congrArg Except.ok (send_eq hb)
  rw [hput, hsend]
  exact .ok (sends_sendData hin h.sends)

lemma sendFile_follows {out : Out} (h : Sends out) (name : List Byte) :
    Follows halt Sends (sendFile host name out) (Http.sendFile (narrow host) name out) := by
  unfold sendFile Http.sendFile
  have hopen : (narrow host).openFile (cstr name) = host.openFile (cstr name) := rfl
  rw [hopen]
  rcases host.openFile (cstr name) with _ | file
  · exact .error Abort.assertion
  refine (Follows.foldlM Sends (fun out h data _ => appendAndSend_follows hmem h data) h).bind
    fun out h => ?_
  split_ifs
  · exact .error Abort.endless
  · exact .ok h

omit hmem in
lemma sprintf_follows (size : ℕ) (text : List Byte) :
    Follows halt (fun _ => True) (sprintf size text) (Http.sprintf size text) := by
  unfold sprintf Sized.sprintf Http.sprintf
  split_ifs
  · exact .ok trivial
  · exact .error Abort.memory

/-- An entry is looked up and printed alike, once the sizes are those printed. -/
lemma sendDir_follows {out : Out} (h : Sends out) (dirName : List Byte) :
    Follows halt Sends (sendDir host dirName out) (Http.sendDir (narrow host) dirName out) := by
  have hstat : ∀ path, ((narrow host).stat path).getD (narrow host).unset =
      narrowStat ((host.stat path).getD host.unset) := by
    intro path
    exact Option.getD_map ..
  have hrow : ∀ name st, Sized.row name st = Http.row name (narrowStat st) := fun _ _ => rfl
  unfold sendDir Http.sendDir
  refine (sprintf_follows _ _).bind fun buf _ => ?_
  refine (Follows.foldlM (fun p : List Byte × Out => Sends p.2) ?_ h).bind fun p hp => ?_
  · rintro ⟨buf, out⟩ hout name -
    refine (sprintf_follows _ _).bind fun subPath _ => ?_
    dsimp only
    rw [hstat, hrow]
    refine (sprintf_follows _ _).bind fun buf _ => ?_
    exact (appendAndSend_follows hmem hout buf).bind fun out hout => .ok hout
  · refine (appendAndSend_follows hmem hp _).bind fun out hout => ?_
    have hscan : (narrow host).scandir (cstr dirName) = host.scandir (cstr dirName) := rfl
    rw [hscan]
    split_ifs
    · exact .error Abort.memory
    · exact .ok hout

lemma call_follows {out : Out} (h : Sends out) (f : SendData) (name : List Byte) :
    Follows halt Sends ((output host).call f name (.ok out)) (f.call (narrow host) name out) := by
  cases f with
  | sendFile => exact sendFile_follows hmem h name
  | sendDir => exact sendDir_follows hmem h name

/-- Some texts appended one by one. -/
lemma append_texts {out : Out} (h : Sends out) (texts : List (List Byte)) :
    ∃ b, putTexts (narrow host) texts out.1 = .ok b ∧ Sends (b, out.2) ∧
      texts.foldl (fun w text => w >>= append host text) (.ok out) = .ok (b, out.2) := by
  induction texts generalizing out with
  | nil => exact ⟨out.1, rfl, h, rfl⟩
  | cons text texts ih =>
      obtain ⟨ret, b₁, happ, hin, -⟩ := appendString_narrow hmem h.inBounds text
      have hnext : Sends (b₁, out.2) := ⟨hin, h.sends⟩
      obtain ⟨b, htexts, hsends, hfold⟩ := ih hnext
      refine ⟨b, ?_, hsends, ?_⟩
      · rw [putTexts, List.foldlM_cons, happ]
        exact htexts
      · rw [List.foldl_cons, ok_bind, append_eq hmem h.inBounds, happ]
        exact hfold

omit hmem in
/-- The texts that `prepareMsgHttpResponse` appends in front of the empty line. -/
lemma texts_eq {resp : HttpResponse} {hs : List Http.Header} (hmsg : 0 ∉ resp.StatusMsg)
    (hheaders : resp.ResponseHeader = hs.map Http.Header.pair) (hfit : ∀ h ∈ hs, h.Fits) :
    cstr (ascii "HTTP/1.1 " ++ decimal resp.StatusCode.toNat ++ ascii " " ++ resp.StatusMsg ++
        ascii "\r\n") = statusLine resp.StatusCode resp.StatusMsg ++ [CR, LF] ∧
      resp.ResponseHeader.map (fun h => cstr (h.1 ++ ascii ": " ++ h.2 ++ ascii "\r\n")) =
        (hs.map Http.Header.line).map (· ++ [CR, LF]) := by
  constructor
  · have hversion : (0 : Byte) ∉ ascii "HTTP/1.1 " := by decide
    have hcode : (0 : Byte) ∉ decimal resp.StatusCode.toNat := fun h =>
      absurd (Http.mem_decimal h).1 (by decide)
    have hspace : (0 : Byte) ∉ ascii " " := by decide
    have hend : (0 : Byte) ∉ ascii "\r\n" := by decide
    rw [cstr_of_notMem]
    · rfl
    · simp only [List.mem_append, not_or]
      exact ⟨⟨⟨⟨hversion, hcode⟩, hspace⟩, hmsg⟩, hend⟩
  · rw [hheaders, List.map_map, List.map_map]
    refine List.map_congr_left fun h hh => ?_
    obtain ⟨htext, -, hzero⟩ := (hfit h hh).text
    have hkey : cstr h.key = h.key := cstr_of_notMem (hfit h hh).1
    have hvalue : cstr h.value = h.value := cstr_of_notMem (hfit h hh).2.1
    rw [hkey, hvalue] at htext
    exact (congrArg cstr htext).trans (cstr_of_notMem hzero)

/-- **`prepareMsgHttpResponse` puts the message on the wire**, like the other version's function. -/
lemma prepareMsgHttpResponse_follows {out : Out} (h : Sends out) {resp : HttpResponse}
    {hs : List Http.Header} {f : SendData} (hmsg : 0 ∉ resp.StatusMsg)
    (hheaders : resp.ResponseHeader = hs.map Http.Header.pair) (hfit : ∀ h ∈ hs, h.Fits)
    (hf : resp.sendDataFunc = some f) :
    ∃ w, resp.prepareMsgHttpResponse (output host) (.ok out) = .ok w ∧
      Follows halt Sends w (putMessage (narrow host)
        ((statusLine resp.StatusCode resp.StatusMsg :: hs.map Http.Header.line).map
          (· ++ [CR, LF])) f resp.fileName out) := by
  obtain ⟨hline, hlines⟩ := texts_eq hmsg hheaders hfit
  obtain ⟨b, htexts, hsends, hfold⟩ := append_texts hmem h
    ((statusLine resp.StatusCode resp.StatusMsg :: hs.map Http.Header.line).map (· ++ [CR, LF]))
  have hend : cstr (ascii "\r\n") = [CR, LF] := by decide
  refine ⟨appendAndSend host [CR, LF] (b, out.2) >>= fun out =>
    (output host).call f resp.fileName (.ok out), ?_, ?_⟩
  · unfold HttpResponse.prepareMsgHttpResponse
    simp only [hf]
    rw [List.map_cons, List.foldl_cons, ← hline, ← hlines, List.foldl_map] at hfold
    have hhead : (output host).appendStringBuffer (ascii "\r\n")
        (resp.ResponseHeader.foldl (fun w h => (output host).appendStringBuffer
          (h.1 ++ ascii ": " ++ h.2 ++ ascii "\r\n") w)
          ((output host).appendStringBuffer (ascii "HTTP/1.1 " ++ decimal resp.StatusCode.toNat ++
            ascii " " ++ resp.StatusMsg ++ ascii "\r\n") (.ok out))) =
        append host [CR, LF] (b, out.2) := by
      rw [← hend]
      exact congrArg (· >>= append host (cstr (ascii "\r\n"))) hfold
    rw [hhead]
    cases f <;> cases hcall : append host [CR, LF] (b, out.2) <;>
      simp only [appendAndSend, hcall] <;> rfl
  · rw [putMessage, htexts, ok_bind]
    exact (appendAndSend_follows hmem hsends [CR, LF]).bind fun out h =>
      call_follows hmem h f resp.fileName

end Out

/-! ### The message for a request -/

/-- The text copied into `StatusMsg` beside a code. There are two. -/
def reason : StatusCode → List Byte
  | .NotFound => ascii "Not Found"
  | _ => ascii "OK"

/-- The bytes of a message here: the header lines are in the order in which they were added. -/
def render (m : Message) : List Byte :=
  join CR LF (statusLine m.m_statusCode (reason m.m_statusCode) ::
    m.headers.reverse.map Http.Header.line) m.body

/-- A message from here as it is read. -/
def received (m : Message) : Received :=
  { m.received with
    phrase := reason m.m_statusCode
    headers := m.received.headers.reverse }

lemma line_reason (code : StatusCode) : Line CR LF (statusLine code (reason code)) := by
  cases code <;> exact ⟨by decide, Unbroken.not_infix (by decide)⟩

theorem receive_render (m : Message) : receive (render m) = some (received m) := by
  rw [render, Http.receive_join (line_reason _), received, Message.received, List.map_reverse]

/-- A message is put on the wire by the response that has its parts. -/
lemma puts_response {host : Host} (hmem : ∀ p n, (host.realloc p n).isSome) {out : Out}
    (h : out.Sends) (resp : HttpResponse) {code : StatusCode} (hs : List Http.Header) {f : SendData}
    (hcode : resp.StatusCode = code) (hmsg : resp.StatusMsg = reason code)
    (hheaders : resp.ResponseHeader = hs.reverse.map Http.Header.pair) (hfit : ∀ h ∈ hs, h.Fits)
    (hf : resp.sendDataFunc = some f) :
    ∃ w, resp.prepareMsgHttpResponse (Out.output host) (.ok out) = .ok w ∧
      Puts ((f.body (narrow host) (cstr resp.fileName)).map fun body => render ⟨code, hs, body⟩)
        out w := by
  have hzero : 0 ∉ resp.StatusMsg := by
    rw [hmsg]
    cases code <;> decide
  obtain ⟨w, hw, hfollows⟩ := Out.prepareMsgHttpResponse_follows hmem h hzero hheaders
    (fun h hh => hfit h (List.mem_reverse.mp hh)) hf
  refine ⟨w, hw, ?_⟩
  rw [hfollows.eq, hcode, hmsg]
  have hmem' : ∀ p n, ((narrow host).realloc p n).isSome := hmem
  exact (Http.puts_putMessage hmem' h.inBounds
    (statusLine code (reason code) :: hs.reverse.map Http.Header.line) f resp.fileName).mapError halt

section

variable {host : Host} (hmem : ∀ p n, (host.realloc p n).isSome) {r : HttpRequest}
  {method url : List Byte} (hm : r.method = some (block method)) (hu : r.url = some (block url))
include hmem hm hu

/-- **A request that fits is answered with the other version's message**, made on the system with
the sizes that are printed; or a call does not return. -/
theorem puts_answer (hget : isGet method) (hurl : url ≠ [])
    (hname : NameFits host (Http.fileOf (Http.decodeMsg url))) (fileName : List Byte) {out : Out}
    (h : out.Sends) :
    ∃ r' resp w, r.processHttpRequest host (.init fileName) = .ok (r', resp) ∧
      resp.prepareMsgHttpResponse (Out.output host) (.ok out) = .ok w ∧
      Puts (((narrow host).answer method url).map render) out w := by
  have hfile := Http.cstr_fileOf (Http.decodeMsg url)
  simp only [HttpRequest.processHttpRequest, hm, hu]
  rw [if_neg (not_not.mpr (isGet_block.mpr hget)), fileOf_decodeMsg hurl, ok_bind, Host.answer,
    if_neg (not_not.mpr hget)]
  have hstat : (narrow host).stat = fun name => (host.stat name).map narrowStat := rfl
  simp only [hstat]
  generalize Http.fileOf (Http.decodeMsg url) = file at hfile hname ⊢
  have hone : ∀ h ∈ [Http.Header.contentType (ascii ".html")], h.Fits := by
    simpa using Http.fits_contentType _
  rcases hst : host.stat file with _ | st
  · simp only [Option.map_none, Option.map_map]
    obtain ⟨w, hw, hputs⟩ := puts_response hmem h
      ⟨.NotFound, ascii "Not Found", [(Http.Header.contentType (ascii ".html")).pair],
        some .sendFile, ascii "404.html"⟩ [Http.Header.contentType (ascii ".html")]
      rfl rfl rfl hone rfl
    exact ⟨_, _, w, rfl, hw, hputs⟩
  · have hlt := hname st hst
    simp only [strcpy, if_pos hlt, ok_bind, Option.map_some]
    have hdir : (narrowStat st).isDir = st.isDir := rfl
    rw [hdir]
    cases st.isDir
    · simp only [Bool.false_eq_true, if_false, Option.map_map]
      have htwo : ∀ h ∈ [Http.Header.contentLength (toInt st.st_size), Http.Header.contentType file],
          h.Fits := by
        have hlo := Int.le_bmod (x := st.st_size) (m := 2 ^ 32) (by decide)
        have hhi := Int.bmod_lt (x := st.st_size) (m := 2 ^ 32) (by decide)
        have hsize : (toInt st.st_size).natAbs < 2 ^ 64 := by unfold toInt; omega
        simpa using ⟨Http.fits_contentLength hsize, Http.fits_contentType file⟩
      obtain ⟨w, hw, hputs⟩ := puts_response hmem h
        ⟨.OK, ascii "OK", [(Http.Header.contentType file).pair,
          (Http.Header.contentLength (toInt st.st_size)).pair], some .sendFile, file⟩
        [Http.Header.contentLength (toInt st.st_size), Http.Header.contentType file]
        rfl rfl rfl htwo rfl
      rw [hfile] at hputs
      exact ⟨_, _, w, rfl, hw, hputs⟩
    · simp only [if_true, Option.map_map]
      obtain ⟨w, hw, hputs⟩ := puts_response hmem h
        ⟨.OK, ascii "OK", [(Http.Header.contentType (ascii ".html")).pair], some .sendDir, file⟩
        [Http.Header.contentType (ascii ".html")] rfl rfl rfl hone rfl
      rw [hfile] at hputs
      exact ⟨_, _, w, rfl, hw, hputs⟩

end

/-! ### A call of `processRead` -/

namespace TcpConnection

section

variable {host : Host} {conn : TcpConnection} {rounds : ℕ} {incoming : ReadResult}
  {socket : Socket} {count : ℤ} {b : Buffer} (hreq : conn.req = .init)
  (hsock : socketReadBuffer memmove host.realloc incoming conn.readBuf = .ok (count, b))
  (hcount : 0 < count)
include hreq hsock hcount

variable (hmem : ∀ p n, (host.realloc p n).isSome) {q : CompleteRequest} {rest : List Byte}
  (hv : b.Valid) (hread : b.readable = q.render ++ rest) (hrounds : q.lines.length + 3 ≤ rounds)
  {fileName : List Byte} (hresp : conn.resp = .init fileName)
  (hsends : Out.Sends (conn.writeBuf, socket))
include hmem hv hread hrounds hresp hsends

end

end TcpConnection

end Reactor.HttpC
