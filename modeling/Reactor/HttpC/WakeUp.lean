import Reactor.HttpC.Dispatch
import Reactor.Lib.Trace

/-!
The threads around an event loop of the C version of the HTTP server: `initEventLoopEx`,
`RunEventLoop`, `AddTaskEventLoop`, `processTaskEventLoop` and the wake-up through the socket
pair, in `EventLoop.c`.

A thread is a stack of the calls it is in, the innermost first, each at the place it has come to;
without a call it runs code of its own. A push under the lock is one step; the tasks are processed
one by one with the lock held. Bytes on the socket pair are counted.
-/

namespace Reactor.HttpC

open Lib.Watch Lib.Trace

/-! ### The socket pair -/

/-- The endpoints `socketpair[0]` and `socketpair[1]`. -/
inductive End
  | first
  | second
  deriving DecidableEq

def End.peer : End → End
  | .first => .second
  | .second => .first

/-- The bytes that can be read at each endpoint. -/
abbrev SocketPair := End → ℕ

namespace SocketPair

/-- What is written to one endpoint can be read at the other. -/
def write (e : End) (n : ℕ) (s : SocketPair) : SocketPair :=
  Function.update s e.peer (s e.peer + n)

def read (e : End) (n : ℕ) (s : SocketPair) : SocketPair := Function.update s e (s e - n)

end SocketPair

/-! ### The tasks -/

inductive TaskType
  | ADD
  | DELETE
  | MODIFY
  deriving DecidableEq

/-- A node of the task list. -/
structure ChannelEvent (κ : Type*) where
  type : TaskType
  channel : κ

/-- A call a thread is in, and the place it has come to. -/
inductive Frame (κ : Type*)
  /-- about to push under the lock -/
  | AddTaskEventLoop (node : ChannelEvent κ)
  /-- has released the lock, about to compare the thread -/
  | pushed
  | taskWakeUp
  /-- about to take the lock -/
  | processTaskEventLoop
  /-- holds the lock, with the nodes from `head` on to be processed -/
  | nodes (head : List (ChannelEvent κ))
  /-- in a callback of a channel -/
  | callback
  | readLocalMessage
  /-- about to compare the thread -/
  | RunEventLoop
  /-- about to test `_isQuite` -/
  | loop
  /-- about to block -/
  | dispatch
  /-- the descriptors found ready for which `ActivateEvent` has not been called -/
  | active (ready : List (ℕ × Event))

/-- What the next step of a thread leaves open. -/
inductive Choice (κ : Type*)
  | go
  /-- code of the user adds a task, with an `AddTaskEventLoop` that has yet to begin -/
  | AddTaskEventLoop (node : ChannelEvent κ)
  /-- code of the user starts the loop -/
  | RunEventLoop
  /-- the descriptors that `dispatch` finds ready -/
  | ready (active : List (ℕ × Event))
  /-- the mask of the channel of a node, the memory that the table may grow into, and whether the
  `_destroycallback` destroys the channel -/
  | node (_events : Mask) (mem : ℕ → ℕ) (frees : Bool)

/-- The channels a loop may be given and its socket pair, whose first descriptor is that of the
channel `wake`. The second, which stays open, is no channel's. -/
structure LoopFds (κ : Type*) where
  ptr : κ → ℕ
  ptr_ne : ∀ p, ptr p ≠ NULL
  _fd : κ → ℕ
  socketpair : End → ℕ
  wake : κ
  wake_fd : _fd wake = socketpair .first
  apart : ∀ p, _fd p ≠ socketpair .second

structure WakeSys (κ τ : Type*) where
  loop : EventLoop EpollData
  list : List (ChannelEvent κ)
  _isQuite : Bool
  _threadID : τ
  _mutex : Option τ
  sockets : SocketPair
  stack : τ → List (Frame κ)

namespace WakeSys

variable {κ τ : Type*} (fds : LoopFds κ) [DecidableEq τ]

/-- `sizeof(msg)` is the size of a pointer. -/
def msgSize : ℕ := 8

/-- The room of `readLocalMessage`. -/
def bufSize : ℕ := 256

/-- `initEventLoopEx`, run by the thread of the loop, adds the channel of `socketpair[0]`. The
table of channels comes from `malloc`. -/
def init (mem : ℕ → ℕ) (owner : τ) : WakeSys κ τ where
  loop := .init 128 mem .epollinit
  list := []
  _isQuite := false
  _threadID := owner
  _mutex := none
  sockets _ := 0
  stack t := if t = owner then [.AddTaskEventLoop ⟨.ADD, fds.wake⟩] else []

def owner (s : WakeSys κ τ) : List (Frame κ) := s.stack s._threadID

/-- The thread `t` goes on with other calls. -/
def goto (s : WakeSys κ τ) (t : τ) (k : List (Frame κ)) : WakeSys κ τ :=
  { s with stack := Function.update s.stack t k }

def taskWakeUp (s : WakeSys κ τ) : WakeSys κ τ :=
  { s with sockets := s.sockets.write .first msgSize }

def readLocalMessage (s : WakeSys κ τ) : WakeSys κ τ :=
  { s with sockets := s.sockets.read .second bufSize }

/-- What `processTaskEventLoop` does with a node. -/
def processNode (node : ChannelEvent κ) (_events : Mask) (mem : ℕ → ℕ) (frees : Bool)
    (l : EventLoop EpollData) : EventLoop EpollData :=
  let c : Channel := ⟨fds.ptr node.channel, fds._fd node.channel, _events, fds.ptr_ne _⟩
  match node.type with
  | .ADD => l.AddEventLoop mem c
  | .DELETE => l.DeleteEventLoop (fun l => if frees then l.destroyChannel c else l) c
  | .MODIFY => l.ModifyEventLoop c

/-- What a thread has to do after it has processed a node: the rest of the `_destroycallback`, if
it is called. -/
def afterNode (node : ChannelEvent κ) (l : EventLoop EpollData) (k : List (Frame κ)) :
    List (Frame κ) :=
  if node.type = .DELETE ∧ fds._fd node.channel < l._channelmap._size then .callback :: k else k

/-- The callback that `ActivateEvent` calls. Of a descriptor without a channel, whose channel it
would read, there is none. -/
def ActivateEvent (ready : ℕ × Event) (s : WakeSys κ τ) : Option (Frame κ) :=
  match s.loop.word ready.1 with
  | none => none
  | some w =>
    if w = NULL then none
    else if w = fds.ptr fds.wake ∧ ready.2 = .read then some .readLocalMessage
    else some .callback

/-- The next step of the thread `t`. There is none where it waits for the lock, or reads bytes
that are not there. -/
def step (s : WakeSys κ τ) : τ × Choice κ → Option (WakeSys κ τ)
  | (t, choice) =>
    match s.stack t, choice with
    -- code of the user, in or out of a callback
    | [], .AddTaskEventLoop node => some (s.goto t [.AddTaskEventLoop node])
    | [], .RunEventLoop => some (s.goto t [.RunEventLoop])
    | .callback :: k, .AddTaskEventLoop node =>
      some (s.goto t (.AddTaskEventLoop node :: .callback :: k))
    | .callback :: k, .go => some (s.goto t k)
    -- `AddTaskEventLoop`
    | .AddTaskEventLoop node :: k, .go =>
      if s._mutex = none then some ({ s with list := s.list ++ [node] }.goto t (.pushed :: k))
      else none
    | .pushed :: k, .go =>
      some (s.goto t (if t = s._threadID then .processTaskEventLoop :: k else .taskWakeUp :: k))
    | .taskWakeUp :: k, .go => some (s.taskWakeUp.goto t k)
    -- `processTaskEventLoop`
    | .processTaskEventLoop :: k, .go =>
      if s._mutex = none then some ({ s with _mutex := some t }.goto t (.nodes s.list :: k))
      else none
    | .nodes [] :: k, .go => some ({ s with list := [], _mutex := none }.goto t k)
    | .nodes (node :: rest) :: k, .node _events mem frees =>
      some ({ s with loop := processNode fds node _events mem frees s.loop }.goto t
        (afterNode fds node s.loop (.nodes rest :: k)))
    -- `RunEventLoop`
    | .RunEventLoop :: k, .go => some (s.goto t (if t = s._threadID then .loop :: k else k))
    | .loop :: k, .go =>
      some (s.goto t (if s._isQuite then k else .dispatch :: .processTaskEventLoop :: .loop :: k))
    | .dispatch :: k, .ready active => some (s.goto t (.active active :: k))
    | .active [] :: k, .go => some (s.goto t k)
    | .active (r :: rs) :: k, .go =>
      (s.ActivateEvent fds r).map fun call => s.goto t (call :: .active rs :: k)
    | .readLocalMessage :: k, .go =>
      if s.sockets .second = 0 then none else some (s.readLocalMessage.goto t k)
    | _, _ => none

def Step (s : WakeSys κ τ) (a : τ × Choice κ) (s' : WakeSys κ τ) : Prop := s.step fds a = some s'

/-- A thread has released the lock after its push, and not yet written to the socket pair. -/
def Between (k : List (Frame κ)) : Prop := k.head? = some .pushed ∨ k.head? = some .taskWakeUp

/-- Another thread but `t` is about to wake the loop up. -/
def Producer (s : WakeSys κ τ) (t : τ) : Prop :=
  ∃ t' ≠ s._threadID, t' ≠ t ∧ Between (s.stack t')

/-- An endpoint registered with the dispatcher has bytes of a `taskWakeUp` to be read. -/
def Readable (s : WakeSys κ τ) : Prop :=
  ∃ e m, s.loop.disepatherData.epoll (fds.socketpair e) = some (m, fds.socketpair e) ∧
    m &&& EPOLLIN ≠ 0 ∧ 0 < s.sockets e

/-- **The property of a loop about to block**: the wait ends at once, or is about to. -/
def WakesUp (s : WakeSys κ τ) : Prop :=
  s.owner.head? = some .dispatch → s.list ≠ [] →
    s.Readable fds ∨ ∃ t ≠ s._threadID, Between (s.stack t)

/-- No thread writes its wake-up as the last one to do so while the loop is about to block with a
task in its list, and the loop does not go to block with a task in its list unless some thread
has yet to write. -/
def InTime (s : WakeSys κ τ) (a : τ × Choice κ) : Prop :=
  match (s.stack a.1).head? with
  | some .taskWakeUp => s.owner.head? = some .dispatch → s.list ≠ [] → s.Producer a.1
  | some .loop => a.1 = s._threadID → s._isQuite = false → s.list ≠ [] → s.Producer a.1
  | _ => True

end WakeSys

end Reactor.HttpC
