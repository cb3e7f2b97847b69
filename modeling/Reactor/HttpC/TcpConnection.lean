import Reactor.HttpC.BufferQueue
import Reactor.HttpC.FixedFields
import Reactor.HttpC.WakeUp

/-!
A connection of the C version of the HTTP server: `TcpConnection.h` and `TcpConnection.c`, with what
it writes to its send buffer and its socket, in `old/ReactorHttp_c`.

`_SEND_MSG_AUTO` is not defined, so that what is appended is sent at once and write events are never
asked for. What is logged is left out. The copy that makes room is taken for one that may overlap.
-/

namespace Reactor.HttpC

open Lib.Memory
open Http (Host SendData cstr ascii)

/-- How a call ends that does not return. -/
inductive Halt
  | fault (f : Fault)
  /-- a loop goes on for ever -/
  | endless
  deriving DecidableEq

/-! ### Appending and sending -/

/-- A send buffer and a socket. -/
abbrev Out := Buffer × Http.Socket

namespace Out

variable (host : Host)

/-- `appendDataBuffer` to the send buffer. Its own result is not used. -/
def append (data : List Byte) (out : Out) : Except Halt Out :=
  ((appendDataBuffer memmove host.realloc data out.1).mapError Halt.fault).map fun r =>
    (r.2, out.2)

/-- `sendDataBuffer` of the send buffer. -/
def send (out : Out) : Out := (sendDataBuffer out.2 out.1).2

def appendAndSend (data : List Byte) (out : Out) : Except Halt Out := (append host data out).map send

/-- `sendFile`. An error of `read` stays, so that the loop does not end. -/
def sendFile (namefile : List Byte) (out : Out) : Except Halt Out :=
  match host.openFile (cstr namefile) with
  | none => .error (.fault .assertion)
  | some file => do
    let out ← (file.data.toChunks 1024).foldlM (fun out buffer => appendAndSend host buffer out) out
    if file.fails then .error .endless else .ok out

/-- `sprintf` into an array of `size` bytes. -/
def sprintf (size : ℕ) (text : List Byte) : Except Halt (List Byte) :=
  (Sized.sprintf size text).mapError fun stop => .fault stop.fault

def sendDir (dirName : List Byte) (out : Out) : Except Halt Out := do
  let dirName := cstr dirName
  let buf ← sprintf 4096
    (ascii "<html><head><title>" ++ dirName ++ ascii "</title></head><body><table>")
  let namelise := host.scandir dirName
  let (_, out) ← (namelise.getD []).foldlM (fun (buf, out) name => do
    let subPath ← sprintf 1024 (dirName ++ ascii "/" ++ name)
    let st := (host.stat subPath).getD host.unset
    let buf ← sprintf 4096 (buf ++ Sized.row name st)
    let out ← appendAndSend host buf out
    .ok ([], out)) (buf, out)
  let out ← appendAndSend host (ascii "</table></body></html>") out
  -- without a list, the pointer that is freed was never set
  if namelise.isNone then .error (.fault .memory) else .ok out

/-- What a response is written to, as long as the calls return. -/
def output : Output (Except Halt Out) where
  appendStringBuffer data w := w >>= append host (cstr data)
  sendDataBuffer w := w.map send
  sendFile name w := w >>= sendFile host name
  sendDir name w := w >>= sendDir host name

end Out

/-! ### The connection -/

/-- A connection, without its channel and its loop. -/
structure TcpConnection where
  readBuf : Buffer
  writeBuf : Buffer
  req : HttpRequest
  resp : HttpResponse
  deriving DecidableEq

/-- A call of `processRead` that has returned: the connection and its socket, the response that was
sent, whether the error reply was appended, and the tasks added for the channel. -/
structure Served where
  conn : TcpConnection
  socket : Http.Socket
  sent : Option HttpResponse
  rejected : Bool
  tasks : List TaskType

namespace TcpConnection

def bufferSize : ℕ := 10240

/-- `initTcpConnection`, with its buffers' data at two addresses. -/
def init (readData writeData : ℕ) (fileName : List Byte) : TcpConnection where
  readBuf := initBuffer readData bufferSize
  writeBuf := initBuffer writeData bufferSize
  req := .init
  resp := .init fileName

def msg : List Byte := ascii "HTTP/1.1 400 Bad Request\r\n"

/-- What `processRead` does once the parse has come back. -/
def finishRead (host : Host) (conn : TcpConnection)
    (parsed : Bool × HttpRequest × Buffer × Option HttpResponse × Except Halt Out) :
    Except Halt Served := do
  let (flag, req, readBuf, sent, w) := parsed
  let out ← if flag then w else w >>= Out.append host (cstr msg)
  .ok {
    conn := ⟨readBuf, out.1, req, sent.getD conn.resp⟩
    socket := out.2
    sent := sent
    rejected := !flag
    tasks := [.DELETE] }

/-- `processRead`, within a number of rounds of the parser. If nothing was read it adds no task. -/
def processRead (host : Host) (rounds : ℕ) (incoming : ReadResult) (socket : Http.Socket)
    (conn : TcpConnection) : Option (Except Halt Served) :=
  match socketReadBuffer memmove host.realloc incoming conn.readBuf with
  | .error f => some (.error (.fault f))
  | .ok (count, readBuf) =>
    if count > 0 then
      (conn.req.parseHttpRequest (Out.output host) host rounds readBuf conn.resp
        (.ok (conn.writeBuf, socket))).map fun
        | .error f => .error (.fault f)
        | .ok parsed => finishRead host conn parsed
    else some (.ok ⟨{ conn with readBuf := readBuf }, socket, none, false, []⟩)

/-- Whether `detroyTcpConnection` destroys the channel, which closes the socket. -/
def frees (conn : TcpConnection) : Bool :=
  bufferReadAbleSize conn.readBuf = 0 ∧ bufferReadAbleSize conn.writeBuf = 0

end TcpConnection

end Reactor.HttpC
