import Reactor.Http.HttpResponse

/-!
The requests and responses of the C version of the HTTP server: `HttpRequest.c`, `HttpResponse.c`
and their headers, in `old/ReactorHttp_c`.

A buffer is that of the other version, and so are the status codes, the decoding of a byte and the
file types. A `char*` to a block is the block. What the functions do that append, send and read
files is left open.
-/

namespace Reactor.HttpC

open Http (SendData StatusCode toInt toSize nullptr cstr ascii decimal isGet tolower decode
  getFileType SP CR LF COLON)

abbrev Buffer := Http.Buffer

/-- How a call ends that does not return. -/
inductive Fault
  | assertion
  /-- memory is touched that is not part of the block meant -/
  | memory
  /-- a null pointer is read or called -/
  | null
  deriving DecidableEq

/-! ### Blocks -/

/-- What `strncpy` leaves of `n` bytes in a block of one more, ended by a null byte. -/
def block (str : List Byte) : List Byte :=
  cstr str ++ List.replicate (str.length - (cstr str).length) 0 ++ [0]

/-- A block of `n + 1` bytes with the string copied into it. The copy stops at a null byte. -/
def strncpy (start : ℕ) (n : ℤ) (b : Buffer) : Except Fault (List Byte) :=
  let src := (b.region start).take n.toNat
  if n < 0 then .error .memory
  else if (cstr src).length < src.length ∨ src.length = n.toNat then
    .ok (cstr src ++ List.replicate (n.toNat - (cstr src).length) 0 ++ [0])
  else .error .memory

/-- `strncasecmp` gives 0. -/
def strncasecmp (s₁ s₂ : List Byte) (n : ℕ) : Prop :=
  ((cstr s₁).take n).map tolower = ((cstr s₂).take n).map tolower

instance (s₁ s₂ : List Byte) (n : ℕ) : Decidable (strncasecmp s₁ s₂ n) :=
  inferInstanceAs (Decidable (_ = _))

def memmem (haystack len : ℕ) (needle : List Byte) (b : Buffer) : Except Fault ℕ :=
  match b.memmem haystack len needle with
  | .ok p => .ok p
  | .error _ => .error .memory

def findCRLFBuffer (b : Buffer) : Except Fault ℕ :=
  memmem b.data (toSize b.readableSize) [CR, LF] b

/-! ### The request -/

inductive HttpRequestState
  | ParseReqLine
  | ParseReqHeader
  | ParseReqBody
  | ParseReqDone
  deriving DecidableEq

/-- A request, with its fields as blocks. The array `reqHeader` has room for `HeaderSize`. -/
structure HttpRequest where
  method : Option (List Byte)
  url : Option (List Byte)
  version : Option (List Byte)
  reqHeader : List (List Byte × List Byte)
  curState : HttpRequestState
  deriving DecidableEq

def HeaderSize : ℕ := 12

namespace HttpRequest

/-- `initHttpRequest`. -/
def init : HttpRequest where
  method := none
  url := none
  version := none
  reqHeader := []
  curState := .ParseReqLine

def addHttpRequestHeader (key value : List Byte) (r : HttpRequest) : Except Fault HttpRequest :=
  if r.reqHeader.length < HeaderSize then
    .ok { r with reqHeader := r.reqHeader ++ [(key, value)] }
  else .error .memory

/-- The value of the first header for which `strncasecmp`, over the length of the key, is not 0. -/
def getHttpRequestHeader (key : List Byte) (r : HttpRequest) : Option (List Byte) :=
  (r.reqHeader.find? fun h => ¬ strncasecmp h.1 key (cstr key).length).map Prod.snd

/-- The block stored through `ptr`, and the pointer returned. -/
def splitRequestLine (start end_ : ℕ) (sub : Option (List Byte)) (b : Buffer) :
    Except Fault (List Byte × ℕ) := do
  let space ← match sub with
    | none => .ok end_
    | some sub => do
      let space ← memmem start (toSize (end_ - start)) sub b
      if space = nullptr then .error .assertion else .ok space
  let lenght := toInt (space - start)
  let tmp ← strncpy start lenght b
  .ok (tmp, space + 1)

def parseHttpRequestLine (b : Buffer) (r : HttpRequest) :
    Except Fault (Bool × HttpRequest × Buffer) := do
  let end_ ← findCRLFBuffer b
  let start := b.data
  let lineSize := toInt (end_ - start)
  if lineSize ≠ 0 then
    let (method, start) ← splitRequestLine start end_ (some [SP]) b
    let (url, start) ← splitRequestLine start end_ (some [SP]) b
    let (version, _) ← splitRequestLine start end_ none b
    let b := b.readPosIncrease (toInt (lineSize + 2))
    .ok (true,
      { r with
        method := some method
        url := some url
        version := some version
        curState := .ParseReqHeader },
      b)
  else .ok (false, r, b)

def parseHttpRequestHeader (b : Buffer) (r : HttpRequest) :
    Except Fault (Bool × HttpRequest × Buffer) := do
  let end_ ← findCRLFBuffer b
  if end_ ≠ nullptr then
    let start := b.data
    let lineSize := toInt (end_ - start)
    let space ← memmem start (toSize lineSize) [COLON, SP] b
    if space ≠ nullptr then
      let key ← strncpy start (space - start) b
      let value ← strncpy (space + 2) (end_ - space - 2) b
      let r ← r.addHttpRequestHeader key value
      .ok (true, r, (b.readPosIncrease lineSize).readPosIncrease 2)
    else
      -- a line without a separator is taken for the empty line
      .ok (true, { r with curState := .ParseReqDone }, b.readPosIncrease 2)
  else .ok (false, r, b)

/-- The `switch` of `parseHttpRequest`. -/
def parseStep (flag : Bool) (b : Buffer) (r : HttpRequest) :
    Except Fault (Bool × HttpRequest × Buffer) :=
  match r.curState with
  | .ParseReqLine => r.parseHttpRequestLine b
  | .ParseReqHeader => r.parseHttpRequestHeader b
  | _ => .ok (flag, r, b)

/-- The loop of `parseHttpRequest`, within a number of rounds. It does not look at `flag`. -/
def parseLoop : ℕ → Bool → Buffer → HttpRequest →
    Option (Except Fault (Bool × HttpRequest × Buffer))
  | 0, _, _, _ => none
  | rounds + 1, flag, b, r =>
    if r.curState = .ParseReqDone then some (.ok (flag, r, b))
    else
      match r.parseStep flag b with
      | .error fault => some (.error fault)
      | .ok (flag, r, b) => parseLoop rounds flag b r

end HttpRequest

/-! ### The response -/

/-- A response. The array `ResponseHeader` has room for `Header`, and what is printed into its
fields and into `StatusMsg` fits: the texts below, and a number of at most 11 characters. -/
structure HttpResponse where
  StatusCode : StatusCode
  StatusMsg : List Byte
  ResponseHeader : List (List Byte × List Byte)
  sendDataFunc : Option SendData
  fileName : List Byte
  deriving DecidableEq

def Header : ℕ := 16

/-- The room of `fileName`. -/
def fileNameSize : ℕ := 128

namespace HttpResponse

/-- `initHttpResponse`, which leaves `fileName` unset. -/
def init (fileName : List Byte) : HttpResponse where
  StatusCode := .Unknown
  StatusMsg := []
  ResponseHeader := []
  sendDataFunc := none
  fileName := fileName

def addHeaderHttpResponse (key value : List Byte) (resp : HttpResponse) :
    Except Fault HttpResponse :=
  if resp.ResponseHeader.length < Header then
    .ok { resp with ResponseHeader := resp.ResponseHeader ++ [(key, value)] }
  else .error .memory

end HttpResponse

/-- `decodeMsg` in place. -/
def decodeMsg (url : List Byte) : List Byte :=
  let decoded := decode (cstr url)
  decoded ++ [0] ++ url.drop (decoded.length + 1)

/-- The name that is looked up for a `url` that has been decoded. -/
def fileOf (url : List Byte) : Except Fault (List Byte) :=
  if cstr url = [47] then .ok [46, 47]
  else if url.length ≤ 1 then .error .memory
  else .ok (cstr (url.drop 1))

/-- `strcpy` into `fileName`. -/
def strcpy (file : List Byte) : Except Fault (List Byte) :=
  if file.length < fileNameSize then .ok file else .error .memory

/-- `processHttpRequest`. Its own result is not used. -/
def HttpRequest.processHttpRequest (host : Http.Host) (r : HttpRequest) (resp : HttpResponse) :
    Except Fault (HttpRequest × HttpResponse) :=
  match r.method, r.url with
  | some method, some url =>
    if ¬ isGet method then .ok (r, resp)
    else do
      let url := decodeMsg url
      let r := { r with url := some url }
      let file ← fileOf url
      let html := getFileType (ascii ".html")
      match host.stat file with
      | none =>
        let resp := { resp with
          StatusCode := .NotFound
          StatusMsg := ascii "Not Found"
          fileName := ascii "404.html" }
        let resp ← resp.addHeaderHttpResponse (ascii "Content-type") html
        .ok (r, { resp with sendDataFunc := some .sendFile })
      | some st =>
        let name ← strcpy file
        let resp := { resp with StatusCode := .OK, StatusMsg := ascii "OK", fileName := name }
        if st.isDir then
          let resp ← resp.addHeaderHttpResponse (ascii "Content-type") html
          .ok (r, { resp with sendDataFunc := some .sendDir })
        else
          let tmp := decimal (toInt st.st_size)
          let resp ← resp.addHeaderHttpResponse (ascii "Content-type") (getFileType file)
          let resp ← resp.addHeaderHttpResponse (ascii "Content-length") tmp
          .ok (r, { resp with sendDataFunc := some .sendFile })
  | _, _ => .error .null

/-- The functions that write to the send buffer and the socket of a connection, on some `ω`. -/
structure Output (ω : Type*) where
  appendStringBuffer : List Byte → ω → ω
  sendDataBuffer : ω → ω
  sendFile : List Byte → ω → ω
  sendDir : List Byte → ω → ω

section

variable {ω : Type} (out : Output ω)

def Output.call : SendData → List Byte → ω → ω
  | .sendFile => out.sendFile
  | .sendDir => out.sendDir

def HttpResponse.prepareMsgHttpResponse (resp : HttpResponse) (w : ω) : Except Fault ω :=
  let w := out.appendStringBuffer
    (ascii "HTTP/1.1 " ++ decimal resp.StatusCode.toNat ++ ascii " " ++ resp.StatusMsg ++
      ascii "\r\n") w
  let w := resp.ResponseHeader.foldl (fun w h =>
    out.appendStringBuffer (h.1 ++ ascii ": " ++ h.2 ++ ascii "\r\n") w) w
  let w := out.appendStringBuffer (ascii "\r\n") w
  let w := out.sendDataBuffer w
  match resp.sendDataFunc with
  | none => .error .null
  | some f => .ok (out.call f resp.fileName w)

/-- `parseHttpRequest`, with the response that `prepareMsgHttpResponse` was called on. -/
def HttpRequest.parseHttpRequest (host : Http.Host) (rounds : ℕ) (b : Buffer) (r : HttpRequest)
    (resp : HttpResponse) (w : ω) :
    Option (Except Fault (Bool × HttpRequest × Buffer × Option HttpResponse × ω)) :=
  (r.parseLoop rounds true b).map fun parsed => do
    let (flag, r, b) ← parsed
    if !flag then .ok (flag, r, b, none, w)
    else if r.curState = .ParseReqDone then
      let (r, resp) ← r.processHttpRequest host resp
      let w ← resp.prepareMsgHttpResponse out w
      .ok (flag, { r with curState := .ParseReqLine }, b, some resp, w)
    else .ok (flag, { r with curState := .ParseReqLine }, b, none, w)

end

end Reactor.HttpC
