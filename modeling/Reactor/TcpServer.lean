import Reactor.TcpConnection
import Reactor.Lib.Trace

/-!
A started server with its loops and its connections: `TcpServer.cc`, `Acceprot.cc`,
`EventLoopThreadPool.cc` and the threads of `EventLoopThread.cc`.

Loop 0 is the base loop, loops 1 to `numThreads_` are those of the pool. Every loop runs the
iteration of `EventLoop::loop`; what one thread does between two of the steps below is not
interrupted here, and a wait may return at any time. The base loop's thread also runs
`~TcpServer`, between two iterations of its loop.
-/

namespace Reactor

/-- The settings of a server. An address printed by `toIpPort` has at most 21 characters. -/
structure ServerConf where
  name_ : String
  ipPort_ : String
  ipPort_length : ipPort_.length ≤ 21
  numThreads_ : ℕ
  writeCompleteCallback_ : Bool

/-- An echo server on port 8080. -/
def ServerConf.echo (numThreads : ℕ) : ServerConf where
  name_ := "Echoserver"
  ipPort_ := "0.0.0.0:8080"
  ipPort_length := by decide
  numThreads_ := numThreads
  writeCompleteCallback_ := false

/-- An entry of `activeChannels_`: the channel of the acceptor or that of a connection. -/
inductive ActiveChannel
  | acceptor
  | conn (c : ConnId)
  deriving DecidableEq

/-- What a wait reports: that the listening socket has a client, or events on a descriptor of
the epoll set. -/
inductive Ready
  | acceptor
  | fd (fd : ℕ) (revents : Mask)
  deriving DecidableEq

def Ready.descriptor : Ready → Option ℕ
  | .acceptor => none
  | .fd n _ => some n

/-- Where the thread of a loop is. -/
inductive ThreadPc
  /-- between two iterations -/
  | check
  | poll
  | handling (active : List ActiveChannel)
  | functors (batch : List Functor)
  /-- `loop()` has returned and the loop is gone -/
  | returned
  deriving DecidableEq

namespace ThreadPc

def active : ThreadPc → List ActiveChannel
  | .handling active => active
  | _ => []

def batch : ThreadPc → List Functor
  | .functors batch => batch
  | _ => []

end ThreadPc

/-- A loop and its thread. -/
structure LoopThread where
  pc : ThreadPc
  quit_ : Bool
  pendingFuntors_ : List Functor
  poller_ : EpollPoller ConnId

namespace LoopThread

def new : LoopThread where
  pc := .check
  quit_ := false
  pendingFuntors_ := []
  poller_ := .new

/-- The channels still to handle. -/
def active (l : LoopThread) : List ActiveChannel := l.pc.active

/-- The functors still to run: the rest of the batch, then those pending. -/
def jobs (l : LoopThread) : List Functor := l.pc.batch ++ l.pendingFuntors_

end LoopThread

abbrev ConnectionMap := List (String × ConnId)

/-- How far the server is in its destructor. -/
inductive Phase
  | alive
  /-- in the body, with the entries of `connections_` it has not come to -/
  | destroying (left : ConnectionMap)
  /-- in `~EventLoopThread` of the loop `i`, before its `quit()` -/
  | quitting (i : LoopId)
  /-- in `~EventLoopThread` of the loop `i`, in its `join()` -/
  | joining (i : LoopId)
  | gone
  deriving DecidableEq

/-- The server, its loops, and the connections it has made, with the calls on each of
them. -/
structure ServerSys where
  phase : Phase
  next_ : ℕ
  nextConnId_ : ℕ
  connections_ : ConnectionMap
  loops : LoopId → LoopThread
  conn : ConnId → TcpConnection
  trace : ConnId → List (LoopId × Call)

/-- What the outside world answers while a functor runs: what a callback of the user does,
and, for `sendInLoop`, the bytes found at the address bound and the answer of `::write`. -/
structure FunctorEnv where
  acts : Script
  data : List Byte
  res : WriteResult

/-- `channel->set_revents(revents)`, for the channel of the connection. -/
def TcpConnection.set_revents (c : TcpConnection) (revents : Mask) : TcpConnection :=
  { c with channel_ := c.channel_.set_revents revents }

namespace ServerSys

def new : ServerSys where
  phase := .alive
  next_ := 0
  nextConnId_ := 1
  connections_ := []
  loops := fun _ => .new
  conn := fun _ => .new 0 "" 0
  trace := fun _ => []

def setLoop (t : LoopId) (l : LoopThread) (s : ServerSys) : ServerSys :=
  { s with loops := Function.update s.loops t l }

def setPc (t : LoopId) (pc : ThreadPc) (s : ServerSys) : ServerSys :=
  s.setLoop t { s.loops t with pc := pc }

/-- `queueInloop` on the loop `t`. -/
def push (t : LoopId) (f : Functor) (s : ServerSys) : ServerSys :=
  s.setLoop t { s.loops t with pendingFuntors_ := (s.loops t).pendingFuntors_ ++ [f] }

/-! ### Connections -/

def removeConnectionInLoop (c : ConnId) (s : ServerSys) : ServerSys :=
  push 0 (.connectDestroy c)
    { s with connections_ := s.connections_.filter fun e => e.1 ≠ (s.conn c).name_ }

/-- `removeConnection`, called by the thread `t`. -/
def removeConnection (t : LoopId) (c : ConnId) (s : ServerSys) : ServerSys :=
  if t = 0 then s.removeConnectionInLoop c else s.push 0 (.removeConnectionInLoop c)

/-- The connection `c` as a member function run by the thread `t` finds it. -/
def ctx (c : ConnId) (t : LoopId) (s : ServerSys) : Ctx where
  id := c
  conn := s.conn c
  poller_ := (s.loops (s.conn c).loop_).poller_
  tid := t
  trace := s.trace c
  out := []

/-- The connection, its poller and its history as a member function leaves them. -/
def put (c : ConnId) (x : Ctx) (s : ServerSys) : ServerSys :=
  setLoop (s.conn c).loop_ { s.loops (s.conn c).loop_ with poller_ := x.poller_ }
    { s with
      conn := Function.update s.conn c x.conn
      trace := Function.update s.trace c x.trace }

def effect (t : LoopId) (c : ConnId) (s : ServerSys) : Effect → ServerSys
  | .queueInloop f => s.push (s.conn c).loop_ f
  | .closeCallback => s.removeConnection t c

/-- The thread `t` runs the member function `op` of the connection `c`. -/
def withConn (c : ConnId) (t : LoopId) (op : Ctx → Ctx) (s : ServerSys) : ServerSys :=
  (op (s.ctx c t)).out.foldl (effect t c) (s.put c (op (s.ctx c t)))

section

variable (conf : ServerConf)

/-- The text `snprintf` leaves in `buf`, which has room for 63 characters, after `name_`. -/
def connName (id : ℕ) : String :=
  conf.name_ ++ String.ofList (("-" ++ conf.ipPort_ ++ "#" ++ toString id).toList.take 63)

/-- The loop `getNextLoop` picks, and the `next_` it leaves. -/
def getNextLoop (next : ℕ) : LoopId × ℕ :=
  if conf.numThreads_ = 0 then (0, next)
  else (next + 1, if next + 1 ≥ conf.numThreads_ then 0 else next + 1)

/-- `connections_[connName] = conn`. -/
def insertConnection (connName : String) (c : ConnId) (m : ConnectionMap) : ConnectionMap :=
  m.filter (fun e => e.1 ≠ connName) ++ [(connName, c)]

/-- The connection that `newConnection` constructs. -/
def newConn (sockfd : ℕ) (s : ServerSys) : TcpConnection :=
  { TcpConnection.new (getNextLoop conf s.next_).1 (connName conf s.nextConnId_) sockfd with
    writeCompleteCallback_ := conf.writeCompleteCallback_ }

/-- `newConnection` before its last line. -/
def addConnection (sockfd : ℕ) (s : ServerSys) : ServerSys :=
  { s with
    next_ := (getNextLoop conf s.next_).2
    nextConnId_ := s.nextConnId_ + 1
    connections_ :=
      insertConnection (connName conf s.nextConnId_) s.nextConnId_ s.connections_
    conn := Function.update s.conn s.nextConnId_ (newConn conf sockfd s)
    trace := Function.update s.trace s.nextConnId_ [] }

/-- `newConnection`, in the base loop's thread. -/
def newConnection (sockfd : ℕ) (onUp : Script) (s : ServerSys) : ServerSys :=
  let ioloop := (getNextLoop conf s.next_).1
  let c := s.nextConnId_
  if ioloop = 0 then (addConnection conf sockfd s).withConn c 0 (Ctx.connectEstablished onUp)
  else (addConnection conf sockfd s).push ioloop (.connectEstablished c)

end

/-- The connection has been made. -/
def Made (c : ConnId) (s : ServerSys) : Prop := 1 ≤ c ∧ c < s.nextConnId_

instance (c : ConnId) (s : ServerSys) : Decidable (s.Made c) :=
  inferInstanceAs (Decidable (_ ∧ _))

/-! ### Loops -/

/-- `connectDestroy` has run on the connection. -/
def destroyed (c : ConnId) (s : ServerSys) : Prop :=
  .connectDestroy ∈ (s.trace c).map Prod.snd

instance (c : ConnId) (s : ServerSys) : Decidable (s.destroyed c) :=
  inferInstanceAs (Decidable (_ ∈ _))

/-- The kernel hands out a descriptor that no connection holds. -/
def FreeFd (fd : ℕ) (s : ServerSys) : Prop :=
  ∀ c < s.nextConnId_, 1 ≤ c → ¬ s.destroyed c → (s.conn c).channel_.fd_ ≠ fd

instance (fd : ℕ) (s : ServerSys) : Decidable (s.FreeFd fd) :=
  inferInstanceAs (Decidable (∀ c < s.nextConnId_, _))

/-- The channel of a connection whose event is reported is told the event. -/
def setRevents (t : LoopId) (s : ServerSys) : Ready → ServerSys
  | .acceptor => s
  | .fd fd revents =>
    match (s.loops t).poller_.epoll fd with
    | some (_, c) =>
      { s with conn := Function.update s.conn c ((s.conn c).set_revents revents) }
    | none => s

def activeOf (p : EpollPoller ConnId) : Ready → Option ActiveChannel
  | .acceptor => some .acceptor
  | .fd fd _ => (p.epoll fd).map fun e => .conn e.2

def fillActiveChannels (t : LoopId) (ready : List Ready) (s : ServerSys) : ServerSys :=
  (ready.foldl (setRevents t) s).setPc t
    (.handling (ready.filterMap (activeOf (s.loops t).poller_)))

/-- A wait of the loop `t` can report an event on a descriptor of its epoll set, and a client
on the base loop of a server. -/
def canReport (t : LoopId) (s : ServerSys) : Ready → Bool
  | .acceptor => t = 0 ∧ s.phase = .alive
  | .fd fd _ => ((s.loops t).poller_.epoll fd).isSome

/-- A wait reports each descriptor once. -/
def CanReport (t : LoopId) (ready : List Ready) (s : ServerSys) : Prop :=
  (ready.filterMap Ready.descriptor).Nodup ∧ ∀ r ∈ ready, s.canReport t r = true

instance (t : LoopId) (ready : List Ready) (s : ServerSys) : Decidable (s.CanReport t ready) :=
  inferInstanceAs (Decidable (_ ∧ _))

/-- A functor, run by the thread `t`. Nothing is said of one bound to a server that is
gone. -/
def runFunctor (t : LoopId) (env : FunctorEnv) (s : ServerSys) : Functor → Option ServerSys
  | .connectEstablished c => some (s.withConn c t (Ctx.connectEstablished env.acts))
  | .connectDestroy c => some (s.withConn c t (Ctx.connectDestroy env.acts))
  | .removeConnectionInLoop c =>
    if s.phase = .alive then some (s.removeConnectionInLoop c) else none
  | .sendInLoop c len =>
    if env.data.length = len then some (s.withConn c t (Ctx.sendInLoop env.data env.res))
    else none
  | .shutdownInLoop c => some (s.withConn c t Ctx.shutdownInLoop)
  | .writeCompleteCallback c => some (s.withConn c t (Ctx.runScript env.acts))
  | .highWaterMarkCallback c _ => some (s.withConn c t (Ctx.runScript env.acts))

end ServerSys

/-- The steps: those of the thread of the loop `t` or of the base loop, a call of `send` or
`shutdown` by any thread, and those of `~TcpServer`. -/
inductive ServerAct
  | check (t : LoopId)
  | poll (t : LoopId) (ready : List Ready)
  | accept (sockfd : ℕ) (onUp : Script)
  | acceptFails
  | handle (t : LoopId) (env : EventEnv)
  | swap (t : LoopId)
  | functor (t : LoopId) (env : FunctorEnv)
  | endBatch (t : LoopId)
  | userCall (t : LoopId) (c : ConnId) (act : UserAct)
  | destroy
  | destroyNext (e : String × ConnId) (onDown : Script)
  | destroyMembers
  | quit
  | join

namespace ServerSys

variable (conf : ServerConf)

/-- The thread of the loop `t` is in its loop. That of the base loop is not while it runs
`~TcpServer`. -/
def Runs (s : ServerSys) (t : LoopId) : Prop :=
  if t = 0 then s.phase = .alive ∨ s.phase = .gone else t ≤ conf.numThreads_

instance (s : ServerSys) (t : LoopId) : Decidable (s.Runs conf t) := by
  unfold Runs
  infer_instance

/-- The thread `t` may call `send` or `shutdown`: the thread of a loop from user code. -/
def MayCall (s : ServerSys) (t : LoopId) : Prop :=
  t ≤ conf.numThreads_ → (s.loops t).pc ≠ .check ∧ (s.loops t).pc ≠ .poll ∧
    (s.loops t).pc ≠ .returned

instance (s : ServerSys) (t : LoopId) : Decidable (s.MayCall conf t) :=
  inferInstanceAs (Decidable (_ → _))

/-- A step of the thread of the loop `t`, in `loop()`. -/
def loopStep (t : LoopId) (s : ServerSys) (a : ServerAct) : Option ServerSys :=
  match a, (s.loops t).pc with
  | .check _, .check =>
    if (s.loops t).quit_ then
      some (s.setLoop t { s.loops t with pc := .returned, pendingFuntors_ := [] })
    else some (s.setPc t .poll)
  | .poll _ ready, .poll =>
    if s.CanReport t ready then some (s.fillActiveChannels t ready) else none
  | .accept sockfd onUp, .handling (.acceptor :: active) =>
    if s.phase = .alive ∧ s.FreeFd sockfd ∧ s.nextConnId_ + 1 < 2 ^ 31 then
      some (newConnection conf sockfd onUp (s.setPc t (.handling active)))
    else none
  | .acceptFails, .handling (.acceptor :: active) => some (s.setPc t (.handling active))
  | .handle _ env, .handling (.conn c :: active) =>
    some ((s.setPc t (.handling active)).withConn c t (Ctx.handleEvent env))
  | .swap _, .handling [] =>
    some (s.setLoop t { s.loops t with
      pc := .functors (s.loops t).pendingFuntors_
      pendingFuntors_ := [] })
  | .functor _ env, .functors (f :: batch) =>
    (s.setPc t (.functors batch)).runFunctor t env f
  | .endBatch _, .functors [] => some (s.setPc t .check)
  | _, _ => none

/-- A step of the base loop's thread in `~TcpServer`: the body, which hands `connectDestroy`
of each connection to its loop, and then the destructors of the loops' threads. -/
def destroyStep (s : ServerSys) (a : ServerAct) : Option ServerSys :=
  match a, s.phase with
  | .destroy, .alive =>
    if (s.loops 0).pc = .check then some { s with phase := .destroying s.connections_ }
    else none
  | .destroyNext e onDown, .destroying left =>
    if e ∈ left then
      let s := { s with phase := .destroying (left.erase e) }
      some (if (s.conn e.2).loop_ = 0 then s.withConn e.2 0 (Ctx.connectDestroy onDown)
        else s.push (s.conn e.2).loop_ (.connectDestroy e.2))
    else none
  | .destroyMembers, .destroying [] =>
    some { s with
      phase := if conf.numThreads_ = 0 then .gone else .quitting 1
      connections_ := [] }
  | .quit, .quitting i =>
    some (setLoop i { s.loops i with quit_ := true } { s with phase := .joining i })
  | .join, .joining i =>
    if (s.loops i).pc = .returned then
      some { s with phase := if i < conf.numThreads_ then .quitting (i + 1) else .gone }
    else none
  | _, _ => none

def step (s : ServerSys) (a : ServerAct) : Option ServerSys :=
  match a with
  | .check t | .poll t _ | .handle t _ | .swap t | .functor t _ | .endBatch t =>
    if s.Runs conf t then loopStep conf t s a else none
  | .accept _ _ | .acceptFails => if s.Runs conf 0 then loopStep conf 0 s a else none
  | .userCall t c act =>
    if s.Made c ∧ s.MayCall conf t then some (s.withConn c t (Ctx.act act)) else none
  | .destroy | .destroyNext _ _ | .destroyMembers | .quit | .join => s.destroyStep conf a

def Step (s : ServerSys) (a : ServerAct) (s' : ServerSys) : Prop := s.step conf a = some s'

end ServerSys

end Reactor
