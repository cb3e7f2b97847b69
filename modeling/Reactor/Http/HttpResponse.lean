import Reactor.Http.SendBuffer

/-!
The response of the older HTTP server: `HttpResponse.h`, `Httpresponse.cpp` and the second half of
`HttpRequest.cpp`, from `processHttpRequest` on, in `old/ReactorHttp_cpp`.

The server is built without `MSG_SEND_AUTO`, so what is appended to the buffer is sent at once.
-/

namespace Reactor.Http

inductive StatusCode
  | Unknown
  | OK
  | MovedPermanently
  | MovedTemporarily
  | BadRequest
  | NotFound
  deriving DecidableEq

def StatusCode.toNat : StatusCode → ℕ
  | Unknown => 0
  | OK => 200
  | MovedPermanently => 301
  | MovedTemporarily => 302
  | BadRequest => 400
  | NotFound => 404

/-- The functions that `sendDataFunc` is set to. -/
inductive SendData
  | sendFile
  | sendDir
  deriving DecidableEq

/-- A response. `m_headers` is kept in the order of its keys, each once. -/
structure HttpResponse where
  m_statusCode : StatusCode
  m_fileName : List Byte
  m_headers : List (List Byte × List Byte)
  sendDataFunc : Option SendData
  deriving DecidableEq

/-! ### `sendFile` and `sendDir` -/

/-- What is appended and sent. -/
def appendAndSend (host : Host) (data : List Byte) (out : Buffer × Socket) :
    Except Abort (Buffer × Socket) := do
  let (_, sendBuf) ← out.1.appendString host data
  .ok (sendBuf.sendData out.2).2

def sendFile (host : Host) (fileName : List Byte) (out : Buffer × Socket) :
    Except Abort (Buffer × Socket) :=
  match host.openFile (cstr fileName) with
  | none => .error .assertion
  | some file => do
    let out ← (file.data.toChunks 1024).foldlM (fun out buf => appendAndSend host buf out) out
    -- after an error the descriptor is closed, and is read from again
    if file.fails then .error .endless else .ok out

/-- The row of a directory entry. -/
def row (name : List Byte) (st : Stat) : List Byte :=
  ascii "<tr><td><a href=\"" ++ name ++ ascii (if st.isDir then "/\">" else "\">") ++ name ++
    ascii "</a></td><td>" ++ decimal st.st_size ++ ascii "</td></tr>"

def sendDir (host : Host) (dirName : List Byte) (out : Buffer × Socket) :
    Except Abort (Buffer × Socket) := do
  let dirName := cstr dirName
  let buf ← sprintf 4096
    (ascii "<html><head><title>" ++ dirName ++ ascii "</title></head><body><table>")
  let namelist := host.scandir dirName
  let (_, out) ← (namelist.getD []).foldlM (fun (buf, out) name => do
    let subPath ← sprintf 1024 (dirName ++ ascii "/" ++ name)
    let st := (host.stat subPath).getD host.unset
    let buf ← sprintf 4096 (buf ++ row name st)
    let out ← appendAndSend host buf out
    .ok ([], out)) (buf, out)
  let out ← appendAndSend host (ascii "</table></body></html>") out
  -- without a list, the pointer that is freed was never set
  if namelist.isNone then .error .memory else .ok out

def SendData.call : SendData → Host → List Byte → Buffer × Socket → Except Abort (Buffer × Socket)
  | sendFile => Http.sendFile
  | sendDir => Http.sendDir

/-! ### The response -/

namespace HttpResponse

def new : HttpResponse where
  m_statusCode := .Unknown
  m_fileName := []
  m_headers := []
  sendDataFunc := none

/-- The reason phrases. -/
def m_info : List (ℕ × String) :=
  [(200, "OK"), (301, "MovedPermanently"), (302, "MovedTemporarily"), (400, "BadRequest"),
    (404, "NotFound")]

/-- `map::insert`, which keeps the value of a key that is there. -/
def insertHeader (key value : List Byte) :
    List (List Byte × List Byte) → List (List Byte × List Byte)
  | [] => [(key, value)]
  | h :: hs =>
    if h.1 = key then h :: hs
    else if key < h.1 then (key, value) :: h :: hs
    else h :: insertHeader key value hs

def addHeader (key value : List Byte) (r : HttpResponse) : HttpResponse :=
  if key = [] ∨ value = [] then r
  else { r with m_headers := insertHeader key value r.m_headers }

def setFileName (name : List Byte) (r : HttpResponse) : HttpResponse :=
  { r with m_fileName := name }

def setStatusCode (code : StatusCode) (r : HttpResponse) : HttpResponse :=
  { r with m_statusCode := code }

def prepareMsg (host : Host) (out : Buffer × Socket) (r : HttpResponse) :
    Except Abort (Buffer × Socket) := do
  let code := r.m_statusCode.toNat
  let phrase ← match m_info.lookup code with
    | none => .error .outOfRange
    | some phrase => .ok phrase
  let tmp ← sprintf 1024
    (ascii "HTTP/1.1 " ++ decimal code ++ ascii " " ++ ascii phrase ++ ascii "\r\n")
  let (_, sendBuf) ← out.1.appendCString host tmp
  let sendBuf ← r.m_headers.foldlM (fun sendBuf h => do
    let tmp ← sprintf 1024 (cstr h.1 ++ ascii ": " ++ cstr h.2 ++ ascii "\r\n")
    let (_, sendBuf) ← Buffer.appendCString host tmp sendBuf
    .ok sendBuf) sendBuf
  let out ← appendAndSend host (ascii "\r\n") (sendBuf, out.2)
  match r.sendDataFunc with
  | none => .error .badFunctionCall
  | some f => f.call host r.m_fileName out

end HttpResponse

/-! ### What is answered -/

def isxdigit (c : Byte) : Bool :=
  (48 ≤ c ∧ c ≤ 57) ∨ (97 ≤ c ∧ c ≤ 102) ∨ (65 ≤ c ∧ c ≤ 70)

def hexToDec (c : Byte) : ℕ :=
  if 48 ≤ c ∧ c ≤ 57 then c.toNat - 48
  else if 97 ≤ c ∧ c ≤ 102 then c.toNat - 97 + 10
  else if 65 ≤ c ∧ c ≤ 70 then c.toNat - 65 + 10
  else 0

/-- The loop of `decodeMsg`, over a string without its null byte. -/
def decode : List Byte → List Byte
  | c :: c₁ :: c₂ :: from_ =>
    if c = 37 ∧ isxdigit c₁ ∧ isxdigit c₂ then
      UInt8.ofNat (hexToDec c₁ * 16 + hexToDec c₂) :: decode from_
    else c :: decode (c₁ :: c₂ :: from_)
  | from_ => from_

/-- `decodeMsg` ends its string with a null byte of its own. -/
def decodeMsg (msg : List Byte) : List Byte := decode (cstr msg) ++ [0]

/-- The bytes from the last `c` on. -/
def strrchr (s : List Byte) (c : Byte) : Option (List Byte) :=
  (s.tails.filter fun t => t.head? = some c).getLast?

def fileTypes : List (String × String) :=
  [(".html", "text/html; charset=utf-8"), (".htm", "text/html; charset=utf-8"),
    (".jpg", "image/jpeg"), (".jpeg", "image/jpeg"), (".gif", "image/gif"),
    (".png", "image/png"), (".css", "text/css"), (".au", "audio/basic"), (".wav", "audio/wav"),
    (".avi", "video/x-msvideo"), (".mov", "video/quicktime"), (".qt", "video/quicktime"),
    (".mpeg", "video/mpeg"), (".mpe", "video/mpeg"), (".vrml", "model/vrml"),
    (".wrl", "model/vrml"), (".midi", "audio/midi"), (".mid", "audio/midi"),
    (".mp3", "audio/mpeg"), (".ogg", "application/ogg"),
    (".pac", "application/x-ns-proxy-autoconfig")]

def getFileType (name : List Byte) : List Byte :=
  let plain := ascii "text/plain; charset=utf-8"
  match strrchr (cstr name) 46 with
  | none => plain
  | some dot => ((fileTypes.find? fun t => ascii t.1 = dot).map fun t => ascii t.2).getD plain

def tolower (c : Byte) : Byte := if 65 ≤ c ∧ c ≤ 90 then c + 32 else c

/-- `strcasecmp` with `get` gives 0. -/
def isGet (method : List Byte) : Prop := (cstr method).map tolower = [103, 101, 116]

instance (method : List Byte) : Decidable (isGet method) := inferInstanceAs (Decidable (_ = _))

/-- The name that is looked up for a `m_url` that has been decoded. -/
def fileOf (m_url : List Byte) : List Byte :=
  if cstr m_url = [47] then [46, 47] else cstr (m_url.drop 1)

/-- `processHttpRequest`: the `m_url` and the response it leaves. Its own result is not used. -/
def HttpRequest.processHttpRequest (host : Host) (r : HttpRequest) (response : HttpResponse) :
    List Byte × HttpResponse :=
  if ¬ isGet r.m_method then (r.m_url, response)
  else
    let m_url := decodeMsg r.m_url
    let file := fileOf m_url
    let html := getFileType (ascii ".html")
    match host.stat file with
    | none =>
      let response := (response.setFileName (ascii "404.html")).setStatusCode .NotFound
      let response := response.addHeader (ascii "Content-type") html
      (m_url, { response with sendDataFunc := some .sendFile })
    | some st =>
      let response := (response.setFileName file).setStatusCode .OK
      if st.isDir then
        let response := response.addHeader (ascii "Content-type") html
        (m_url, { response with sendDataFunc := some .sendDir })
      else
        let response := response.addHeader (ascii "Content-type") (getFileType file)
        let response := response.addHeader (ascii "Content-length") (decimal st.st_size)
        (m_url, { response with sendDataFunc := some .sendFile })

/-! ### What a parse is given to answer with -/

/-- The response, the buffer and the socket of a connection; the requests that were processed and
the responses that `prepareMsg` was called on, in order; and how a call of it ended that did not
return. -/
structure Reply where
  response : HttpResponse
  sendBuf : Buffer
  socket : Socket
  handled : List HttpRequest
  prepared : List HttpResponse
  abort : Option Abort

namespace Reply

def new (response : HttpResponse) (sendBuf : Buffer) (socket : Socket) : Reply where
  response := response
  sendBuf := sendBuf
  socket := socket
  handled := []
  prepared := []
  abort := none

def processHttpRequest (host : Host) (r : HttpRequest) (w : Reply) : List Byte × Reply :=
  let (m_url, response) := r.processHttpRequest host w.response
  (m_url, { w with response := response, handled := w.handled ++ [r] })

def prepareMsg (host : Host) (w : Reply) : Reply :=
  let w := { w with prepared := w.prepared ++ [w.response] }
  match w.response.prepareMsg host (w.sendBuf, w.socket) with
  | .error abort => { w with abort := some abort }
  | .ok (sendBuf, socket) => { w with sendBuf := sendBuf, socket := socket }

end Reply

/-- `parseHttpRequest`, with what it calls on the response. -/
def HttpRequest.parse (host : Host) (rounds : ℕ) (b : Buffer) (r : HttpRequest) (w : Reply) :
    Option (Except Fault (Bool × HttpRequest × Buffer × Reply)) :=
  parseHttpRequest (Reply.processHttpRequest host) (Reply.prepareMsg host) rounds b r w

end Reactor.Http
