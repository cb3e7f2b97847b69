import Reactor.BufferQueue
import Reactor.Channel

/-!
A connection and what its member functions do: `TcpConnection.cc`, with the dispatch of
events in `Channel.cc`.

A member function runs on some thread, with the connection, the poller of the connection's
loop and whatever the outside world answers: the results of `::readv` and `::write`, and what
the user's callbacks do. Log lines are left out, `errno` after one being what it was before.
-/

namespace Reactor

/-- An `EventLoop *`, which also names the thread that runs the loop. -/
abbrev LoopId := ℕ

/-- A `TcpConnection *`. -/
abbrev ConnId := ℕ

inductive StateE
  | kDisconnected
  | kConnecting
  | kConnected
  | kDisconnectiong
  deriving DecidableEq

/-- What is handed to `queueInloop`, with the pointers bound to it. `sendInLoop` is bound to
an address and a length: what the memory holds is seen when the functor runs. -/
inductive Functor
  | connectEstablished (c : ConnId)
  | connectDestroy (c : ConnId)
  | removeConnectionInLoop (c : ConnId)
  | sendInLoop (c : ConnId) (len : ℕ)
  | shutdownInLoop (c : ConnId)
  | writeCompleteCallback (c : ConnId)
  | highWaterMarkCallback (c : ConnId) (len : ℕ)
  deriving DecidableEq

/-- The connection a functor is bound to. -/
def Functor.conn : Functor → ConnId
  | .connectEstablished c => c
  | .connectDestroy c => c
  | .removeConnectionInLoop c => c
  | .sendInLoop c _ => c
  | .shutdownInLoop c => c
  | .writeCompleteCallback c => c
  | .highWaterMarkCallback c _ => c

/-- The calls on a connection that a history records. `sendInLoop` is recorded as it ends,
with whether the payload was accepted; `shutdownWrite` with the bytes still buffered. -/
inductive Call
  | updateChannel
  | removeChannel
  | connectEstablished
  | connectDestroy
  | handleRead
  | handleWrite
  | handleClose
  | sendInLoop (data : List Byte) (accepted : Bool)
  | shutdown
  | shutdownInLoop
  | shutdownWrite (backlog : ℕ)
  | connectionCallback (connected : Bool)
  | messageCallback
  | closeCallback
  deriving DecidableEq

/-- What a member function asks of the loop and of the server. -/
inductive Effect
  | queueInloop (f : Functor)
  | closeCallback
  deriving DecidableEq

/-- The socket, with what the kernel was given: the bytes `::write` accepted, and whether
the write half was shut down. -/
structure Socket where
  sent : List Byte
  shutWr : Bool

structure TcpConnection where
  loop_ : LoopId
  name_ : String
  state_ : StateE
  socket_ : Socket
  channel_ : Channel
  writeCompleteCallback_ : Bool
  highWaterMarkCallback_ : Bool
  highWaterMark_ : ℕ
  inputBuffer_ : SafeBuffer
  outputBuffer_ : SafeBuffer

namespace TcpConnection

def new (loop : LoopId) (nameArg : String) (sockfd : ℕ) : TcpConnection where
  loop_ := loop
  name_ := nameArg
  state_ := .kConnecting
  socket_ := ⟨[], false⟩
  channel_ := .new sockfd
  writeCompleteCallback_ := false
  highWaterMarkCallback_ := false
  highWaterMark_ := 64 * 1024 * 1024
  inputBuffer_ := .new kInitialSize
  outputBuffer_ := .new kInitialSize

def connected (c : TcpConnection) : Bool := c.state_ = .kConnected

end TcpConnection

/-- What a member function runs on: the connection, its pointer, the poller of its loop and
the thread; and what the function leaves: the calls made so far and the effects asked for. -/
structure Ctx where
  id : ConnId
  conn : TcpConnection
  poller_ : EpollPoller ConnId
  tid : LoopId
  trace : List (LoopId × Call)
  out : List Effect

namespace Ctx

def log (call : Call) (x : Ctx) : Ctx := { x with trace := x.trace ++ [(x.tid, call)] }

def emit (e : Effect) (x : Ctx) : Ctx := { x with out := x.out ++ [e] }

def isInLoopThread (x : Ctx) : Bool := x.conn.loop_ = x.tid

def queueInloop (f : Functor) (x : Ctx) : Ctx := x.emit (.queueInloop f)

/-- `loop_->runInloop`: `run` here, or `f` queued. -/
def runInloop (f : Functor) (run : Ctx → Ctx) (x : Ctx) : Ctx :=
  if x.isInLoopThread then run x else x.queueInloop f

def setState (state : StateE) (x : Ctx) : Ctx := { x with conn := { x.conn with state_ := state } }

/-- A channel operation, through the poller of the loop. -/
def onChannel (op : ConnId → Channel → EpollPoller ConnId → EpollPoller ConnId × Channel)
    (x : Ctx) : Ctx :=
  { x with
    poller_ := (op x.id x.conn.channel_ x.poller_).1
    conn := { x.conn with channel_ := (op x.id x.conn.channel_ x.poller_).2 } }

def enableReading (x : Ctx) : Ctx := (x.onChannel Channel.enableReading).log .updateChannel
def enableWriting (x : Ctx) : Ctx := (x.onChannel Channel.enableWriting).log .updateChannel
def disableWriting (x : Ctx) : Ctx := (x.onChannel Channel.disableWriting).log .updateChannel
def disableAll (x : Ctx) : Ctx := (x.onChannel Channel.disableAll).log .updateChannel
def remove (x : Ctx) : Ctx := (x.onChannel Channel.remove).log .removeChannel

def tie (x : Ctx) : Ctx := { x with conn := { x.conn with channel_ := x.conn.channel_.tie } }

def isWriting (x : Ctx) : Bool := x.conn.channel_.isWriting

/-- The bytes waiting in `outputBuffer_`. -/
def backlog (x : Ctx) : List Byte := x.conn.outputBuffer_.content

/-- The kernel accepts bytes for the socket. -/
def accept (bytes : List Byte) (x : Ctx) : Ctx :=
  { x with conn.socket_.sent := x.conn.socket_.sent ++ bytes }

/-- `socket_->shutdownWrite()`. -/
def shutdownWrite (x : Ctx) : Ctx :=
  ({ x with conn.socket_.shutWr := true }).log (.shutdownWrite x.backlog.length)

/-! ### Sending -/

/-- `writeCompleteCallback_`, when it is set, is left for the loop. -/
def queueWriteComplete (x : Ctx) : Ctx :=
  if x.conn.writeCompleteCallback_ then x.queueInloop (.writeCompleteCallback x.id) else x

/-- `highWaterMarkCallback_`, when it is set and the backlog is about to cross the mark, is
left for the loop. -/
def queueHighWaterMark (remaining : ℕ) (x : Ctx) : Ctx :=
  let oldlen := x.conn.outputBuffer_.readableBytes
  if oldlen + remaining ≥ x.conn.highWaterMark_ ∧ oldlen < x.conn.highWaterMark_ ∧
      x.conn.highWaterMarkCallback_ then
    x.queueInloop (.highWaterMarkCallback x.id (oldlen + remaining))
  else x

/-- The direct `::write` of `sendInLoop`, with the values it leaves in `nwrote`, `remaining`
and `faultError`. -/
def writeDirectly (data : List Byte) (res : WriteResult) (x : Ctx) : Ctx × ℕ × ℕ × Bool :=
  match write data res with
  | (.ok nwrote, taken) =>
    let x := x.accept taken
    let remaining := data.length - nwrote
    (if remaining = 0 then x.queueWriteComplete else x, nwrote, remaining, false)
  | (.error errno, _) =>
    (x, 0, data.length, errno ≠ EWOULDBLOCK ∧ (errno = EPIPE ∨ errno = ECONNRESET))

/-- `sendInLoop` writes to the socket only when nothing is waiting to be written. -/
def WritesDirectly (x : Ctx) : Prop :=
  x.isWriting = false ∧ x.conn.outputBuffer_.readableBytes = 0

instance (x : Ctx) : Decidable x.WritesDirectly := inferInstanceAs (Decidable (_ ∧ _))

/-- The tail of `sendInLoop`: what was not written waits in `outputBuffer_`. -/
def bufferRest (rest : List Byte) (x : Ctx) : Ctx :=
  let x := x.queueHighWaterMark rest.length
  let x := { x with conn.outputBuffer_ := x.conn.outputBuffer_.append rest }
  if !x.isWriting then x.enableWriting else x

def sendInLoop (data : List Byte) (res : WriteResult) (x : Ctx) : Ctx :=
  if x.conn.state_ = .kDisconnected then x.log (.sendInLoop data false)
  else
    let (x, nwrote, remaining, faultError) :=
      if x.WritesDirectly then x.writeDirectly data res else (x, 0, data.length, false)
    let x := if !faultError ∧ remaining > 0 then x.bufferRest ((data.drop nwrote).take remaining)
      else x
    x.log (.sendInLoop data !faultError)

def send (data : List Byte) (res : WriteResult) (x : Ctx) : Ctx :=
  if x.conn.state_ = .kConnected then
    x.runInloop (.sendInLoop x.id data.length) (sendInLoop data res)
  else x

/-! ### Shutting down -/

def shutdownInLoop (x : Ctx) : Ctx :=
  let x := x.log .shutdownInLoop
  if !x.isWriting then x.shutdownWrite else x

def shutdown (x : Ctx) : Ctx :=
  if x.conn.state_ = .kConnected then
    ((x.log .shutdown).setState .kDisconnectiong).runInloop (.shutdownInLoop x.id) shutdownInLoop
  else x

end Ctx

/-- What a callback of the user does with the connection: send, with the answer of a direct
`::write`, shut down, or take bytes out of `inputBuffer_`. -/
inductive UserAct
  | send (data : List Byte) (res : WriteResult)
  | shutdown
  | retrieve (len : ℕ)

abbrev Script := List UserAct

namespace Ctx

def act : UserAct → Ctx → Ctx
  | .send data res, x => x.send data res
  | .shutdown, x => x.shutdown
  | .retrieve len, x => { x with conn.inputBuffer_ := x.conn.inputBuffer_.retrieve len }

def runScript (acts : Script) (x : Ctx) : Ctx := acts.foldl (fun x a => x.act a) x

/-- `connectionCallback_(shared_from_this())`. -/
def connectionCallback (acts : Script) (x : Ctx) : Ctx :=
  (x.log (.connectionCallback x.conn.connected)).runScript acts

/-! ### Establishing and destroying -/

def connectEstablished (onUp : Script) (x : Ctx) : Ctx :=
  ((((x.log .connectEstablished).setState .kConnected).tie).enableReading).connectionCallback onUp

def connectDestroy (onDown : Script) (x : Ctx) : Ctx :=
  let x := x.log .connectDestroy
  let x := if x.conn.state_ = .kConnected then
    ((x.setState .kDisconnected).disableAll).connectionCallback onDown else x
  x.remove

/-! ### Events -/

def handleClose (onDown : Script) (x : Ctx) : Ctx :=
  let x := (((x.log .handleClose).setState .kDisconnected).disableAll).connectionCallback onDown
  (x.log .closeCallback).emit .closeCallback

def handleRead (res : ReadResult) (onMessage onDown : Script) (x : Ctx) : Ctx :=
  let x := x.log .handleRead
  let r := x.conn.inputBuffer_.readFd res
  let x := { x with conn.inputBuffer_ := r.2 }
  match r.1 with
  | .ok n => if n > 0 then (x.log .messageCallback).runScript onMessage else x.handleClose onDown
  | .error _ => x

/-- The tail of `handleWrite`, when the last byte that was waiting has been written. -/
def drained (x : Ctx) : Ctx :=
  let x := x.disableWriting.queueWriteComplete
  if x.conn.state_ = .kDisconnectiong then x.shutdownInLoop else x

def handleWrite (res : WriteResult) (x : Ctx) : Ctx :=
  let x := x.log .handleWrite
  if x.isWriting then
    match x.conn.outputBuffer_.writeFd res with
    | (.ok n, taken) =>
      let x := x.accept taken
      if n > 0 then
        let x := { x with conn.outputBuffer_ := x.conn.outputBuffer_.retrieve n }
        if x.conn.outputBuffer_.readableBytes = 0 then x.drained else x
      else x
    | (.error _, _) => x
  else x

end Ctx

/-- What the outside world answers during one `handleEvent`: the user's callbacks and the
system calls, in the order they may be needed. -/
structure EventEnv where
  onHup : Script
  read : ReadResult
  onMessage : Script
  onDown : Script
  write : WriteResult

namespace Channel

/-- The tests `handleEventWrithGuARD` makes on `revents_` before it closes, reads and
writes. -/
def hangsUp (revents : Mask) : Bool :=
  revents &&& EPOLLHUP ≠ 0 ∧ ¬ revents &&& EPOLLIN ≠ 0
def reads (revents : Mask) : Bool := revents &&& (EPOLLIN ||| EPOLLPRI) ≠ 0
def writes (revents : Mask) : Bool := revents &&& EPOLLOUT ≠ 0

end Channel

namespace Ctx

/-- `handleEventWrithGuARD`, with the callbacks a connection sets on its channel. Its error
callback, which the test for `EPOLLERR` guards, reads `SO_ERROR` and logs. -/
def handleEvent (env : EventEnv) (x : Ctx) : Ctx :=
  let revents := x.conn.channel_.revents_
  let x := if Channel.hangsUp revents then x.handleClose env.onHup else x
  let x := if Channel.reads revents then x.handleRead env.read env.onMessage env.onDown else x
  if Channel.writes revents then x.handleWrite env.write else x

end Ctx

end Reactor
