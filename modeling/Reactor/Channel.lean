import Mathlib.Logic.Function.Basic
import Mathlib.Tactic

/-!
Channels and the poller they register with: `Channel.h`, `Channel.cc`, `Poller.cc` and
`EpollPoller.cc`.

A registration is kept three times: in the channel's `index_`, in the poller's `channels_`
and in the kernel's epoll set. The epoll set maps a descriptor to the mask watched and the
pointer handed back with an event. A pointer to a channel is a value of `ρ`.
-/

namespace Reactor

abbrev Mask := BitVec 32

def EPOLLIN : Mask := 0x1
def EPOLLPRI : Mask := 0x2
def EPOLLOUT : Mask := 0x4
def EPOLLHUP : Mask := 0x10

def kNoneEvent : Mask := 0
def kReadEvent : Mask := EPOLLIN ||| EPOLLPRI
def kWriteEvent : Mask := EPOLLOUT

/-- The channel is not in the poller. -/
def kNew : ℤ := -1
/-- The channel is in the poller and in the epoll set. -/
def kAdded : ℤ := 1
/-- The channel is in the poller and no longer in the epoll set. -/
def kDeleted : ℤ := 2

structure Channel where
  fd_ : ℕ
  events_ : Mask
  revents_ : Mask
  index_ : ℤ
  tied_ : Bool
  deriving DecidableEq

namespace Channel

def new (fd : ℕ) : Channel where
  fd_ := fd
  events_ := 0
  revents_ := 0
  index_ := kNew
  tied_ := false

def isNoneEvent (c : Channel) : Bool := c.events_ = kNoneEvent
def isWriting (c : Channel) : Bool := c.events_ &&& kWriteEvent ≠ 0
def isReading (c : Channel) : Bool := c.events_ &&& kReadEvent ≠ 0

def set_revents (c : Channel) (revt : Mask) : Channel := { c with revents_ := revt }

def tie (c : Channel) : Channel := { c with tied_ := true }

end Channel

inductive CtlOp
  | EPOLL_CTL_ADD
  | EPOLL_CTL_MOD
  | EPOLL_CTL_DEL
  deriving DecidableEq

variable {ρ : Type*}

/-- `epoll_ctl`: adding fails when the descriptor is in the set, changing and deleting when
it is not. -/
def epoll_ctl (op : CtlOp) (fd : ℕ) (ev : Mask × ρ) (set : ℕ → Option (Mask × ρ)) :
    Option (ℕ → Option (Mask × ρ)) :=
  match op with
  | .EPOLL_CTL_ADD => if (set fd).isSome then none else some (Function.update set fd (some ev))
  | .EPOLL_CTL_MOD => if (set fd).isSome then some (Function.update set fd (some ev)) else none
  | .EPOLL_CTL_DEL => if (set fd).isSome then some (Function.update set fd none) else none

/-- The poller and the epoll set behind its `epollfd_`. The last two fields say what became
of failed calls of `epoll_ctl`: how many failures to delete were logged, and whether
`LOG_FATAL` has ended the process. -/
structure EpollPoller (ρ : Type*) where
  channels_ : ℕ → Option ρ
  epoll : ℕ → Option (Mask × ρ)
  delErrors : ℕ
  exited : Bool

namespace EpollPoller

def new : EpollPoller ρ where
  channels_ := fun _ => none
  epoll := fun _ => none
  delErrors := 0
  exited := false

def update (operation : CtlOp) (ptr : ρ) (c : Channel) (p : EpollPoller ρ) : EpollPoller ρ :=
  match epoll_ctl operation c.fd_ (c.events_, ptr) p.epoll with
  | some set => { p with epoll := set }
  | none =>
    if operation = .EPOLL_CTL_DEL then { p with delErrors := p.delErrors + 1 }
    else { p with exited := true }

def updateChannel (ptr : ρ) (c : Channel) (p : EpollPoller ρ) : EpollPoller ρ × Channel :=
  if c.index_ = kNew ∨ c.index_ = kDeleted then
    let p := if c.index_ = kNew then
        { p with channels_ := Function.update p.channels_ c.fd_ (some ptr) } else p
    let c := { c with index_ := kAdded }
    (p.update .EPOLL_CTL_ADD ptr c, c)
  else if c.isNoneEvent then
    (p.update .EPOLL_CTL_DEL ptr c, { c with index_ := kDeleted })
  else
    (p.update .EPOLL_CTL_MOD ptr c, c)

def removeChannel (ptr : ρ) (c : Channel) (p : EpollPoller ρ) : EpollPoller ρ × Channel :=
  let p := { p with channels_ := Function.update p.channels_ c.fd_ none }
  let p := if c.index_ = kAdded then p.update .EPOLL_CTL_DEL ptr c else p
  (p, { c with index_ := kNew })

def hasChannel [DecidableEq ρ] (ptr : ρ) (c : Channel) (p : EpollPoller ρ) : Bool :=
  p.channels_ c.fd_ = some ptr

lemma updateChannel_events (ptr : ρ) (c : Channel) (p : EpollPoller ρ) :
    (p.updateChannel ptr c).2.events_ = c.events_ := by
  unfold updateChannel
  split_ifs <;> rfl

/-- An event on the descriptor comes back with the pointer `ptr`. -/
def Armed (p : EpollPoller ρ) (fd : ℕ) (ptr : ρ) : Prop :=
  ∃ m, p.epoll fd = some (m, ptr)

end EpollPoller

namespace Channel

/-- A channel operation: change the interest mask, then tell the poller of the loop. -/
def withEvents (f : Mask → Mask) (ptr : ρ) (c : Channel) (p : EpollPoller ρ) :
    EpollPoller ρ × Channel :=
  p.updateChannel ptr { c with events_ := f c.events_ }

lemma withEvents_events (f : Mask → Mask) (ptr : ρ) (c : Channel) (p : EpollPoller ρ) :
    (c.withEvents f ptr p).2.events_ = f c.events_ :=
  EpollPoller.updateChannel_events _ _ _

def enableReading (ptr : ρ) := withEvents (· ||| kReadEvent) ptr
def disableReading (ptr : ρ) := withEvents (· &&& ~~~kReadEvent) ptr
def enableWriting (ptr : ρ) := withEvents (· ||| kWriteEvent) ptr
/-- The source clears the read bits here, as in `disableReading`. -/
def disableWriting (ptr : ρ) := withEvents (· &&& ~~~kReadEvent) ptr
def disableAll (ptr : ρ) := withEvents (fun _ => kNoneEvent) ptr
def remove (ptr : ρ) (c : Channel) (p : EpollPoller ρ) : EpollPoller ρ × Channel :=
  p.removeChannel ptr c

end Channel

end Reactor
