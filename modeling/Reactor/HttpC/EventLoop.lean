import Reactor.Channel
import Mathlib.Data.List.Basic

/-!
The event loop of the C version of the HTTP server, without its task list: `Channel.h`,
`Channel.c`, `ChannelMap.h`, `ChannelMap.c`, `Dispatcher.h` and the parts of `EventLoop.c` that
work on the table of channels, in `old/ReactorHttp_c`.

The table is a block of words, each `NULL` or a pointer. What a block holds that has just been
allocated is not known, so it is handed to the functions that allocate. The codes that the
functions return are left out: no caller reads one, and some functions return none.
-/

namespace Reactor.HttpC

def NULL : ℕ := 0

namespace FDevent

def TimeOut : Mask := 0x01
def writevent : Mask := 0x02
def readevent : Mask := 0x04

end FDevent

/-- A channel and the address it is at. -/
structure Channel where
  ptr : ℕ
  _fd : ℕ
  _events : Mask
  ptr_ne : ptr ≠ NULL
  deriving DecidableEq

def writeEventEnable (flag : Bool) (c : Channel) : Channel :=
  if flag then { c with _events := c._events ||| FDevent.writevent }
  else { c with _events := c._events &&& ~~~FDevent.writevent }

/-! ### The table of channels -/

structure ChannelMap where
  _size : ℕ
  _list : List ℕ
  deriving DecidableEq

/-- `malloc` hands out a block with the words `mem`. -/
def initChannelMap (size : ℕ) (mem : ℕ → ℕ) : ChannelMap where
  _size := size
  _list := (List.range size).map mem

/-- `realloc`: the words of a longer block that come behind those of the old one are those of
`mem`. -/
def realloc (list : List ℕ) (size : ℕ) (mem : ℕ → ℕ) : List ℕ :=
  list.take size ++ ((List.range size).drop list.length).map mem

/-- `memset` of `n` words from the index `i` on, to zero. -/
def memset (list : List ℕ) (i n : ℕ) : List ℕ :=
  list.take i ++ List.replicate n 0 ++ list.drop (i + n)

/-- The loop that doubles `cursize`, within a number of rounds. -/
def doubled : ℕ → ℕ → ℕ → ℕ
  | 0, cursize, _ => cursize
  | rounds + 1, cursize, newsize =>
    if cursize < newsize then doubled rounds (cursize * 2) newsize else cursize

/-- The source clears from `_size` on after it has set `_size`, and so clears nothing. -/
def ChannelMapAddROM (mem : ℕ → ℕ) (newsize : ℕ) (map : ChannelMap) : Bool × ChannelMap :=
  if map._size < newsize then
    let cursize := doubled newsize map._size newsize
    let map : ChannelMap := { _size := cursize, _list := realloc map._list cursize mem }
    (true, { map with _list := memset map._list map._size (cursize - map._size) })
  else (false, map)

/-! ### The event loop -/

/-- What an event loop calls on its dispatcher. `remove` ends by calling the channel's
`_destroycallback`, which is left to the loop. -/
class Dispatcher (δ : Type*) where
  add : Channel → δ → δ
  remove : Channel → δ → δ
  modify : Channel → δ → δ

/-- A loop. The last two fields say what became of its channels: whether the table was accessed
outside, and which channels were closed and freed. -/
structure EventLoop (δ : Type*) where
  disepatherData : δ
  _channelmap : ChannelMap
  outside : Bool
  released : List Channel

namespace EventLoop

variable {δ : Type*}

/-- `initEventLoopEx`. -/
def init (size : ℕ) (mem : ℕ → ℕ) (d : δ) : EventLoop δ where
  disepatherData := d
  _channelmap := initChannelMap size mem
  outside := false
  released := []

/-- The word in `_list[fd]`. -/
def word (fd : ℕ) (l : EventLoop δ) : Option ℕ := l._channelmap._list[fd]?

/-- `_list[fd] = p`. -/
def store (fd p : ℕ) (l : EventLoop δ) : EventLoop δ :=
  { l with _channelmap._list := l._channelmap._list.set fd p }

variable [Dispatcher δ]

def AddEventLoop (mem : ℕ → ℕ) (c : Channel) (l : EventLoop δ) : EventLoop δ :=
  let grown := if c._fd ≥ l._channelmap._size then ChannelMapAddROM mem c._fd l._channelmap
    else (true, l._channelmap)
  if !grown.1 then l
  else
    let l := { l with _channelmap := grown.2 }
    match l.word c._fd with
    | none => { l with outside := true }
    | some p =>
      if p = NULL then
        { l.store c._fd c.ptr with disepatherData := Dispatcher.add c l.disepatherData }
      else l

def DeleteEventLoop (destroycallback : EventLoop δ → EventLoop δ) (c : Channel)
    (l : EventLoop δ) : EventLoop δ :=
  if c._fd ≥ l._channelmap._size then l
  else destroycallback { l with disepatherData := Dispatcher.remove c l.disepatherData }

def ModifyEventLoop (c : Channel) (l : EventLoop δ) : EventLoop δ :=
  if c._fd ≥ l._channelmap._size then l
  else
    match l.word c._fd with
    | none => { l with outside := true }
    | some p =>
      if p = NULL then l
      else { l with disepatherData := Dispatcher.modify c l.disepatherData }

omit [Dispatcher δ] in
def destroyChannel (c : Channel) (l : EventLoop δ) : EventLoop δ :=
  match l.word c._fd with
  | none => { l with outside := true }
  | some _ => { l.store c._fd NULL with released := l.released ++ [c] }

end EventLoop

end Reactor.HttpC
