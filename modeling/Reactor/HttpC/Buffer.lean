import Reactor.Http.BufferRoom
import Reactor.HttpC.HttpRequest

/-!
The buffer of the C version of the HTTP server: `Buffer.c`, but for what the parser reads.

The copy that makes room is left open, so that it can be taken for one that may overlap or for one
that may not. What `realloc`, `readv` and `send` answer is handed in.
-/

namespace Reactor.HttpC

open Http (cstr)

/-- `realloc` gives the address of the block, or `NULL`. -/
abbrev Realloc := ℕ → ℕ → Option ℕ

/-- A copy of `n` cells to `dst` from `src` in a block, unless it is undefined. -/
abbrev Copy := List Byte → ℕ → ℕ → ℕ → Option (List Byte)

/-- `initBuffer`, with the data at an address that `malloc` gave. -/
def initBuffer (_data size : ℕ) : Buffer := Http.Buffer.new _data size

def bufferWriteAbleSize (b : Buffer) : ℤ := b.m_capacity - b.m_writePos

def bufferReadAbleSize (b : Buffer) : ℤ := b.m_writePos - b.m_readPos

lemma bufferWriteAbleSize_eq (b : Buffer) : bufferWriteAbleSize b = b.writeableSize := rfl

lemma bufferReadAbleSize_eq (b : Buffer) : bufferReadAbleSize b = b.readableSize := rfl

/-- Bytes copied to an offset of the block. -/
def store (offset : ℤ) (data : List Byte) (b : Buffer) : Except Fault Buffer :=
  (b.store offset data).mapError fun _ => .memory

section

variable (copy : Copy) (realloc : Realloc)

def extendRoomBuffer (size : ℤ) (b : Buffer) : Except Fault Buffer :=
  if bufferWriteAbleSize b ≥ size then .ok b
  else if b.m_readPos + bufferWriteAbleSize b ≥ size then
    let readable := bufferReadAbleSize b
    if b.m_readPos < 0 ∨ readable < 0 then .error .memory
    else
      match copy b.bytes 0 b.m_readPos.toNat readable.toNat with
      | none => .error .memory
      | some bytes => .ok { b with bytes := bytes, m_readPos := 0, m_writePos := readable }
  else
    match realloc b.m_data (b.m_capacity + size).toNat with
    | none => .error .assertion
    | some tmp => .ok { b with m_data := tmp, bytes := b.bytes ++ List.replicate size.toNat 0 }

def appendDataBuffer (data : List Byte) (b : Buffer) : Except Fault (ℤ × Buffer) :=
  if data = [] then .ok (-1, b)
  else do
    let b ← extendRoomBuffer copy realloc data.length b
    let b ← store b.m_writePos data b
    .ok (0, { b with m_writePos := b.m_writePos + data.length })

def appendStringBuffer (data : List Byte) (b : Buffer) : Except Fault (ℤ × Buffer) :=
  appendDataBuffer copy realloc (cstr data) b

/-- The size of the block `tmp`. -/
def tmpSize : ℕ := 40960

def socketReadBuffer (incoming : ReadResult) (b : Buffer) : Except Fault (ℤ × Buffer) :=
  let writreable := bufferWriteAbleSize b
  match incoming with
  | .error _ => .ok (-1, b)
  | .ok bs => do
    let first := bs.take writreable.toNat
    let tmp := (bs.drop writreable.toNat).take tmpSize
    let result : ℤ := first.length + tmp.length
    let b ← store b.m_writePos first b
    if result ≤ writreable then .ok (result, { b with m_writePos := b.m_writePos + result })
    else do
      let b := { b with m_writePos := b.m_capacity }
      let (_, b) ← appendDataBuffer copy realloc (tmp.take (result - writreable).toNat) b
      .ok (result, b)

end

/-- `sendDataBuffer`. What `send` returns is added to the read position unless it is 0. -/
def sendDataBuffer (socket : Http.Socket) (b : Buffer) : ℤ × Buffer × Http.Socket :=
  let readable := bufferReadAbleSize b
  if readable > 0 then
    let (count, socket) := socket.send b.readable
    (count, if count ≠ 0 then { b with m_readPos := b.m_readPos + count } else b, socket)
  else (0, b, socket)

end Reactor.HttpC
