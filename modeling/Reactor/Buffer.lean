import Reactor.Lib.Memory

/-!
The byte buffer of a connection: `Buffer.h` and `Buffer.cc`, with the three system calls
the library reads and writes sockets with.

The vector is a list of bytes and its indices are natural numbers; sums of sizes are taken
to stay below `SIZE_MAX`. An access outside the vector is undefined in the source, and
answers `none` here. What a system call gives is a parameter of the function that makes it.
-/

namespace Reactor

open Lib.Memory

abbrev Byte := UInt8

/-- The value of `errno` after a failed call. -/
abbrev Errno := ℕ

def EWOULDBLOCK : Errno := 11
def EPIPE : Errno := 32
def ECONNRESET : Errno := 104

/-- The bytes waiting at the socket, or `-1` with `errno`. -/
abbrev ReadResult := Except Errno (List Byte)

/-- How many bytes the kernel would take, or `-1` with `errno`. -/
abbrev WriteResult := Except Errno ℕ

/-- Bytes put into vectors of the given lengths, in order. -/
def scatter : List ℕ → List Byte → List (List Byte)
  | [], _ => []
  | n :: ns, bs => bs.take n :: scatter ns (bs.drop n)

/-- `::readv`: the kernel fills the vectors in order and stops when they are full. -/
def readv (iov : List ℕ) : ReadResult → Except Errno (List (List Byte))
  | .error e => .error e
  | .ok bs => .ok (scatter iov bs)

/-- `::write`: the return value, and the bytes taken from the front of the data. -/
def write (data : List Byte) : WriteResult → WriteResult × List Byte
  | .error e => (.error e, [])
  | .ok n => (.ok (min n data.length), data.take n)

structure Buffer where
  buffer_ : List Byte
  readerIndex_ : ℕ
  wirteIndex_ : ℕ
  deriving DecidableEq

def kChreapPrepend : ℕ := 8
def kInitialSize : ℕ := 1024

/-- The size of `extrabuf`. -/
def extrabufSize : ℕ := 65536

namespace Buffer

def new (initalSize : ℕ) : Buffer where
  buffer_ := List.replicate (kChreapPrepend + initalSize) 0
  readerIndex_ := kChreapPrepend
  wirteIndex_ := kChreapPrepend

def readableBytes (b : Buffer) : ℕ := b.wirteIndex_ - b.readerIndex_
def writeableBytes (b : Buffer) : ℕ := b.buffer_.length - b.wirteIndex_
def prependableBytes (b : Buffer) : ℕ := b.readerIndex_

def retrieveAll (b : Buffer) : Buffer :=
  { b with readerIndex_ := kChreapPrepend, wirteIndex_ := kChreapPrepend }

def retrieve (len : ℕ) (b : Buffer) : Buffer :=
  if len < b.readableBytes then { b with readerIndex_ := b.readerIndex_ + len }
  else b.retrieveAll

def retrieveAsstring (len : ℕ) (b : Buffer) : Option (List Byte × Buffer) := do
  let result ← load b.buffer_ b.readerIndex_ len
  some (result, b.retrieve len)

def retrieveAllAsString (b : Buffer) : Option (List Byte × Buffer) :=
  b.retrieveAsstring b.readableBytes

/-- `makeSpace` grows the vector, rather than moving the readable bytes to its front. -/
def Grows (len : ℕ) (b : Buffer) : Prop :=
  b.writeableBytes + b.prependableBytes < len + kChreapPrepend

instance (len : ℕ) (b : Buffer) : Decidable (b.Grows len) :=
  inferInstanceAs (Decidable (_ < _))

def makeSpace (len : ℕ) (b : Buffer) : Option Buffer :=
  if b.Grows len then
    some { b with buffer_ := resize b.buffer_ (b.wirteIndex_ + len) 0 }
  else do
    let readable := b.readableBytes
    let buf ← copyFwd b.buffer_ b.readerIndex_ kChreapPrepend (b.wirteIndex_ - b.readerIndex_)
    some ⟨buf, kChreapPrepend, kChreapPrepend + readable⟩

def ensureWriteableBytes (len : ℕ) (b : Buffer) : Option Buffer :=
  if b.writeableBytes < len then b.makeSpace len else some b

def append (data : List Byte) (b : Buffer) : Option Buffer := do
  let b ← b.ensureWriteableBytes data.length
  let buf ← store b.buffer_ b.wirteIndex_ data
  some { b with buffer_ := buf, wirteIndex_ := b.wirteIndex_ + data.length }

/-- The vectors `readFd` offers to `::readv`. -/
def iov (b : Buffer) : List ℕ :=
  if b.writeableBytes < extrabufSize then [b.writeableBytes, extrabufSize]
  else [b.writeableBytes]

/-- The buffer with its writeable part counted as written, to which `readFd` appends what
landed in `extrabuf`. -/
def filled (b : Buffer) : Buffer := { b with wirteIndex_ := b.buffer_.length }

def readFd (res : ReadResult) (b : Buffer) : Option (WriteResult × Buffer) :=
  let writeable := b.writeableBytes
  match readv b.iov res with
  | .error e => some (.error e, b)
  | .ok vec => do
    let n := (vec.map List.length).sum
    let buf ← store b.buffer_ b.wirteIndex_ (vec.getD 0 [])
    let b := { b with buffer_ := buf }
    if n ≤ writeable then
      some (.ok n, { b with wirteIndex_ := b.wirteIndex_ + n })
    else do
      let extrabuf := resize (vec.getD 1 []) extrabufSize 0
      let data ← load extrabuf 0 (n - writeable)
      let b ← b.filled.append data
      some (.ok n, b)

/-- The return value of `writeFd` and the bytes it hands to the kernel. The buffer is left
as it is. -/
def writeFd (res : WriteResult) (b : Buffer) : Option (WriteResult × List Byte) := do
  let data ← load b.buffer_ b.readerIndex_ b.readableBytes
  some (write data res)

end Buffer

end Reactor
