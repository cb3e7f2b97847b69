import Reactor.Channel
import Reactor.Lib.Watch

/-!
The event loop of the older HTTP server and its three dispatchers: `Channel.h`, `EventLoop.h`,
`Dispatcher.h`, `SelectDispatcher.h`, `PollDispatcher.h`, `EpollDispatcher.h` and the sources
beside them, in `old/ReactorHttp_cpp`.

A pointer to a channel is a value of `κ`, and what it points at is handed along with it. The
threads that add tasks are left to another module.
-/

namespace Reactor.Http

open Lib.Watch

namespace FDEvent

def TimeOut : Mask := 0x01
def ReadEvent : Mask := 0x02
def WriteEvent : Mask := 0x04

end FDEvent

structure Channel where
  m_fd : ℕ
  m_events : Mask
  deriving DecidableEq

namespace Channel

def writeEventEnable (flag : Bool) (c : Channel) : Channel :=
  if flag then { c with m_events := c.m_events ||| FDEvent.WriteEvent }
  else { c with m_events := c.m_events &&& ~~~FDEvent.WriteEvent }

def wantsRead (c : Channel) : Bool := c.m_events &&& FDEvent.ReadEvent ≠ 0
def wantsWrite (c : Channel) : Bool := c.m_events &&& FDEvent.WriteEvent ≠ 0

/-- The events the channel asks for. -/
def interest (c : Channel) : Interest := ⟨c.wantsRead, c.wantsWrite⟩

end Channel

/-- What an event loop calls on its dispatcher, with the code returned. `remove` ends by calling
the channel's `destroyCallback`, which is left to the loop. -/
class Dispatcher (δ : Type*) where
  add : Channel → δ → ℤ × δ
  remove : Channel → δ → ℤ × δ
  modify : Channel → δ → ℤ × δ

/-! ### `select` -/

structure SelectDispatcher where
  m_readSet : Finset ℕ
  m_writeSet : Finset ℕ

namespace SelectDispatcher

def m_maxSize : ℕ := 1024

def new : SelectDispatcher := ⟨∅, ∅⟩

def setFdSet (c : Channel) (d : SelectDispatcher) : SelectDispatcher where
  m_readSet := if c.wantsRead then insert c.m_fd d.m_readSet else d.m_readSet
  m_writeSet := if c.wantsWrite then insert c.m_fd d.m_writeSet else d.m_writeSet

def clearFdSet (c : Channel) (d : SelectDispatcher) : SelectDispatcher where
  m_readSet := if c.wantsRead then d.m_readSet.erase c.m_fd else d.m_readSet
  m_writeSet := if c.wantsWrite then d.m_writeSet.erase c.m_fd else d.m_writeSet

/-- The source clears the sets again after it has set them. -/
instance : Dispatcher SelectDispatcher where
  add c d := if c.m_fd ≥ m_maxSize then (-1, d) else (0, d.setFdSet c)
  remove c d := (0, d.clearFdSet c)
  modify c d := (0, (d.setFdSet c).clearFdSet c)

end SelectDispatcher

/-! ### `poll` -/

def POLLIN : BitVec 16 := 0x1
def POLLOUT : BitVec 16 := 0x4

structure PollFd where
  fd : ℤ
  events : BitVec 16
  revents : BitVec 16
  deriving DecidableEq

/-- The bits for the events asked for. -/
def pollEvents (i : Interest) : BitVec 16 :=
  (if i.read then POLLIN else 0) ||| (if i.write then POLLOUT else 0)

/-- The array `m_fds` as a function, of which the first `m_maxNode` values are used. -/
structure PollDispatcher where
  m_maxfd : ℕ
  m_fds : ℕ → PollFd

namespace PollDispatcher

def m_maxNode : ℕ := 1024

def new : PollDispatcher where
  m_maxfd := 0
  m_fds _ := ⟨-1, 0, 0⟩

/-- The first slot with the descriptor `fd`, where a loop over `m_fds` breaks. -/
@[irreducible] def slot (fd : ℤ) (d : PollDispatcher) : Option ℕ :=
  (List.range m_maxNode).find? fun i => (d.m_fds i).fd = fd

instance : Dispatcher PollDispatcher where
  add c d :=
    match d.slot (-1) with
    | some i =>
      let entry := { d.m_fds i with events := pollEvents c.interest, fd := c.m_fd }
      (0, { m_maxfd := if i > d.m_maxfd then i else d.m_maxfd
            m_fds := Function.update d.m_fds i entry })
    | none => (-1, d)
  remove c d :=
    match d.slot c.m_fd with
    | some i => (0, { d with m_fds := Function.update d.m_fds i ⟨-1, 0, 0⟩ })
    | none => (-1, d)
  modify c d :=
    match d.slot c.m_fd with
    | some i =>
      let entry := { d.m_fds i with events := pollEvents c.interest }
      (0, { d with m_fds := Function.update d.m_fds i entry })
    | none => (-1, d)

end PollDispatcher

/-! ### `epoll` -/

/-- The epoll set behind `m_epfd`, and whether a failed call has ended the process. -/
structure EpollDispatcher where
  epoll : ℕ → Option (Mask × ℕ)
  exited : Bool

namespace EpollDispatcher

def new : EpollDispatcher where
  epoll _ := none
  exited := false

def epollEvents (i : Interest) : Mask :=
  (if i.read then EPOLLIN else 0) ||| (if i.write then EPOLLOUT else 0)

/-- A failed call is followed by `exit(0)`. -/
def epollCtl (op : CtlOp) (c : Channel) (d : EpollDispatcher) : ℤ × EpollDispatcher :=
  match epoll_ctl op c.m_fd (epollEvents c.interest, c.m_fd) d.epoll with
  | some set => (0, { d with epoll := set })
  | none => (-1, { d with exited := true })

instance : Dispatcher EpollDispatcher where
  add := epollCtl .EPOLL_CTL_ADD
  remove := epollCtl .EPOLL_CTL_DEL
  modify := epollCtl .EPOLL_CTL_MOD

end EpollDispatcher

/-! ### The event loop -/

inductive ElemType
  | ADD
  | DELETE
  | MODIFY
  deriving DecidableEq

/-- A node of the task queue. -/
structure ChannelElement (κ : Type*) where
  type : ElemType
  channel : κ
  deriving DecidableEq

structure EventLoop (κ δ : Type*) where
  m_dispatcher : δ
  m_taskQ : List (ChannelElement κ)
  m_channelMap : ℕ → Option κ

namespace EventLoop

variable {κ δ : Type*}

def new (d : δ) : EventLoop κ δ where
  m_dispatcher := d
  m_taskQ := []
  m_channelMap _ := none

variable [Dispatcher δ]

def add (p : κ) (c : Channel) (l : EventLoop κ δ) : ℤ × EventLoop κ δ :=
  if l.m_channelMap c.m_fd = none then
    let (ret, d) := Dispatcher.add c l.m_dispatcher
    (ret, { l with
      m_channelMap := Function.update l.m_channelMap c.m_fd (some p)
      m_dispatcher := d })
  else (-1, l)

/-- With what the channel's `destroyCallback` does to the loop. -/
def remove (destroyCallback : EventLoop κ δ → EventLoop κ δ) (c : Channel)
    (l : EventLoop κ δ) : ℤ × EventLoop κ δ :=
  if l.m_channelMap c.m_fd = none then (-1, l)
  else
    let (ret, d) := Dispatcher.remove c l.m_dispatcher
    (ret, destroyCallback { l with m_dispatcher := d })

def modify (c : Channel) (l : EventLoop κ δ) : ℤ × EventLoop κ δ :=
  if l.m_channelMap c.m_fd = none then (-1, l)
  else
    let (ret, d) := Dispatcher.modify c l.m_dispatcher
    (ret, { l with m_dispatcher := d })

omit [Dispatcher δ] in
/-- Whether the channel was in the map, in which case its descriptor is closed and it is
deleted, and the loop. -/
def freeChannel (c : Channel) (l : EventLoop κ δ) : Bool × EventLoop κ δ :=
  if l.m_channelMap c.m_fd = none then (false, l)
  else (true, { l with m_channelMap := Function.update l.m_channelMap c.m_fd none })

end EventLoop

end Reactor.Http
