import Reactor.Http.DispatcherTables
import Reactor.HttpC.EventLoop

/-!
The three dispatchers of the C version of the HTTP server: `PollDispatch.c`, `SelectDispatch.c`
and `EpollDispatche.c`, in `old/ReactorHttp_c`.

What is ready is handed to `poll` and `select` for every descriptor and event. A dispatch is
the list of its calls of `ActivateEvent`; what the callbacks do in turn is left out.
-/

namespace Reactor.HttpC

open Lib.Watch
open Reactor.Http (POLLIN POLLOUT PollFd pollEvents)

namespace Channel

def wantsRead (c : Channel) : Bool := c._events &&& FDevent.readevent ≠ 0
def wantsWrite (c : Channel) : Bool := c._events &&& FDevent.writevent ≠ 0

/-- The events the channel asks for. -/
def interest (c : Channel) : Interest := ⟨c.wantsRead, c.wantsWrite⟩

end Channel

def MAX : ℕ := 1024

/-- Which descriptors are ready for which events. -/
abbrev Ready := ℕ → Event → Bool

/-- The calls of `ActivateEvent` for one descriptor. -/
def activations (fd : ℕ) (i : Interest) : List (ℕ × Event) :=
  (if i.read then [(fd, .read)] else []) ++ (if i.write then [(fd, .write)] else [])

/-! ### `poll` -/

/-- The array `_fds` as a function, of which the first `MAX` values are used. -/
structure PollData where
  Maxfd : ℕ
  _fds : ℕ → PollFd

namespace PollData

def pollinit : PollData where
  Maxfd := 0
  _fds _ := ⟨-1, 0, 0⟩

/-- The first slot with the descriptor `fd`, where a loop over `_fds` breaks. -/
@[irreducible] def slot (fd : ℤ) (d : PollData) : Option ℕ :=
  (List.range MAX).find? fun i => (d._fds i).fd = fd

/-- `_fds->fd` and `_fds->events` are those of the first slot, whatever slot was found. -/
instance : Dispatcher PollData where
  add c d :=
    match d.slot (-1) with
    | some i =>
      { Maxfd := if i > d.Maxfd then i else d.Maxfd
        _fds := Function.update d._fds 0
          { d._fds 0 with fd := c._fd, events := pollEvents c.interest } }
    | none => d
  remove c d :=
    match d.slot c._fd with
    | some _ =>
      { d with _fds := Function.update d._fds 0 { d._fds 0 with fd := -1, events := 0 } }
    | none => d
  modify c d :=
    match d.slot c._fd with
    | some _ =>
      { d with _fds := Function.update d._fds 0 { d._fds 0 with events := pollEvents c.interest } }
    | none => d

/-- The events of a slot that are ready. -/
def revents (ready : Ready) (p : PollFd) : BitVec 16 :=
  if p.fd < 0 then 0
  else p.events &&& pollEvents ⟨ready p.fd.toNat .read, ready p.fd.toNat .write⟩

/-- The system call on the slots up to `Maxfd`: how many of them have events, and the slots. -/
def poll (ready : Ready) (d : PollData) : ℕ × PollData :=
  let d := { d with
    _fds := fun i =>
      if i ≤ d.Maxfd then { d._fds i with revents := revents ready (d._fds i) } else d._fds i }
  ((List.range (d.Maxfd + 1)).countP fun i => (d._fds i).revents ≠ 0, d)

/-- The calls for a slot after the system call. -/
def activate (p : PollFd) : List (ℕ × Event) :=
  if p.fd = -1 then []
  else activations p.fd.toNat ⟨p.revents &&& POLLIN ≠ 0, p.revents &&& POLLOUT ≠ 0⟩

/-- The loop goes over as many slots as have events. -/
def polldispatch (ready : Ready) (d : PollData) : List (ℕ × Event) × PollData :=
  let (count, d) := d.poll ready
  ((List.range count).flatMap fun i => activate (d._fds i), d)

end PollData

/-! ### `select` -/

structure SelectData where
  _writeset : Finset ℕ
  _readset : Finset ℕ

namespace SelectData

def selectinit : SelectData := ⟨∅, ∅⟩

def setFdSet (c : Channel) (d : SelectData) : SelectData where
  _readset := if c.wantsRead then insert c._fd d._readset else d._readset
  _writeset := if c.wantsWrite then insert c._fd d._writeset else d._writeset

def clearFdSet (c : Channel) (d : SelectData) : SelectData where
  _readset := if c.wantsRead then d._readset.erase c._fd else d._readset
  _writeset := if c.wantsWrite then d._writeset.erase c._fd else d._writeset

/-- The source clears the sets again after it has set them. -/
instance : Dispatcher SelectData where
  add c d := if c._fd ≥ MAX then d else d.setFdSet c
  remove c d := d.clearFdSet c
  modify c d := (d.setFdSet c).clearFdSet c

/-- The system call: what is ready of the descriptors to be read and of those to be written. -/
def select (ready : Ready) (readfds writefds : Finset ℕ) : Finset ℕ × Finset ℕ :=
  (readfds.filter fun fd => ready fd .read, writefds.filter fun fd => ready fd .write)

/-- The copy of `_writeset` is handed over in the place of the descriptors to be read, and that
of `_readset` in the place of those to be written. -/
def selectdispatch (ready : Ready) (d : SelectData) : List (ℕ × Event) :=
  let (wset, rset) := select ready d._writeset d._readset
  (List.range MAX).flatMap fun i => activations i ⟨i ∈ rset, i ∈ wset⟩

end SelectData

/-! ### `epoll` -/

/-- The epoll set behind `_epfd`, and whether a failed call has ended the process. -/
structure EpollData where
  epoll : ℕ → Option (Mask × ℕ)
  exited : Bool

namespace EpollData

def epollinit : EpollData where
  epoll _ := none
  exited := false

/-- A failed call is followed by `exit(0)`. -/
def epollctl (op : CtlOp) (c : Channel) (d : EpollData) : EpollData :=
  match epoll_ctl op c._fd (Http.EpollDispatcher.epollEvents c.interest, c._fd) d.epoll with
  | some set => { d with epoll := set }
  | none => { d with exited := true }

instance : Dispatcher EpollData where
  add := epollctl .EPOLL_CTL_ADD
  remove := epollctl .EPOLL_CTL_DEL
  modify := epollctl .EPOLL_CTL_MOD

end EpollData

end Reactor.HttpC
