import Mathlib.Data.List.TakeWhile
import Reactor.Http.HttpRequest

/-!
The rest of `Buffer.cpp` of the older HTTP server: making room, appending, and the two calls on a
socket.

What the system answers is handed in, so that a function is given any answer. Sums of sizes are
taken to stay below `2 ^ 31`.
-/

namespace Reactor.Http

/-- How a call outside the parser ends that does not return. -/
inductive Abort
  /-- `map::at` throws `std::out_of_range` -/
  | outOfRange
  /-- an empty `std::function` throws `std::bad_function_call` -/
  | badFunctionCall
  | assertion
  /-- memory is touched that is not part of the array or block meant -/
  | memory
  /-- a loop goes on for ever -/
  | endless
  deriving DecidableEq

/-- What `stat` fills in. -/
structure Stat where
  isDir : Bool
  st_size : ℤ

/-- What reading a file gives: its bytes, and then its end or an error. -/
structure File where
  data : List Byte
  fails : Bool

/-- The system and the memory around the server. -/
structure Host where
  /-- the address of the block moved, unless there is no memory -/
  realloc : ℕ → ℕ → Option ℕ
  /-- what a fresh block for the second vector of `readv` holds -/
  tmpbuf : List Byte
  stat : List Byte → Option Stat
  /-- what a `struct stat` holds that is not filled in -/
  unset : Stat
  /-- the file behind a descriptor above 0, if there is one -/
  openFile : List Byte → Option File
  scandir : List Byte → Option (List (List Byte))

/-- A system without files and memory. -/
def Host.empty : Host where
  realloc _ _ := none
  tmpbuf := []
  stat _ := none
  unset := ⟨false, 0⟩
  openFile _ := none
  scandir _ := none

/-- A socket: what the calls of `send` return, how many there were, and what was written. -/
structure Socket where
  sends : ℕ → ℤ
  calls : ℕ
  written : List Byte

/-- `send` writes as many bytes as it returns, and no more than there are. -/
def Socket.send (data : List Byte) (s : Socket) : ℤ × Socket :=
  let count := min (s.sends s.calls) data.length
  (count, { s with
    calls := s.calls + 1
    written := s.written ++ data.take count.toNat })

/-- The string that a `char*` points at. -/
def cstr (mem : List Byte) : List Byte := mem.takeWhile (· ≠ 0)

@[simp] lemma cstr_nil : cstr [] = [] := rfl

lemma cstr_null (s : List Byte) : cstr (0 :: s) = [] := rfl

lemma cstr_cons {c : Byte} (hc : c ≠ 0) (s : List Byte) : cstr (c :: s) = c :: cstr s :=
  List.takeWhile_cons_of_pos (decide_eq_true hc)

/-- A string ends at a null byte. -/
lemma cstr_append_null (s t : List Byte) : cstr (s ++ 0 :: t) = cstr s := by
  induction s with
  | nil => simp [cstr]
  | cons c s ih =>
    by_cases hc : c = 0
    · simp [cstr, hc]
    · simpa [cstr, hc] using ih

lemma cstr_cstr (s : List Byte) : cstr (cstr s) = cstr s := by
  unfold cstr
  induction s with
  | nil => rfl
  | cons c s ih =>
    by_cases hc : c = 0
    · simp [hc]
    · simpa [hc] using ih

lemma length_cstr_le (s : List Byte) : (cstr s).length ≤ s.length :=
  (List.takeWhile_prefix _).length_le

lemma cstr_of_notMem {s : List Byte} (h : 0 ∉ s) : cstr s = s := by
  rw [cstr, List.takeWhile_eq_self_iff]
  intro c hc
  exact decide_eq_true fun h0 => h (h0 ▸ hc)

lemma cstr_append {s : List Byte} (h : 0 ∉ s) (t : List Byte) : cstr (s ++ t) = s ++ cstr t := by
  rw [cstr, List.takeWhile_append_of_pos]
  · rfl
  · intro c hc
    exact decide_eq_true fun h0 => h (h0 ▸ hc)

lemma cstr_prefix (s : List Byte) : cstr s <+: s := List.takeWhile_prefix _

lemma zero_notMem_cstr (s : List Byte) : 0 ∉ cstr s := by
  intro h
  simpa using List.mem_takeWhile_imp h

/-- The bytes of an ASCII literal. -/
def ascii (s : String) : List Byte := s.toList.map fun c => UInt8.ofNat c.toNat

/-- The decimal digits that `to_string` and `%d` give. -/
def decimal (n : ℤ) : List Byte := ascii (toString n)

/-- `sprintf` into an array of `size` bytes. -/
def sprintf (size : ℕ) (text : List Byte) : Except Abort (List Byte) :=
  if text.length < size then .ok text else .error .memory

namespace Buffer

/-- A buffer from `Buffer(size)`, with its data at an address that `malloc` gave. -/
def new (m_data size : ℕ) : Buffer where
  m_data := m_data
  bytes := List.replicate size 0
  m_readPos := 0
  m_writePos := 0

def m_capacity (b : Buffer) : ℤ := b.bytes.length

def writeableSize (b : Buffer) : ℤ := b.m_capacity - b.m_writePos

/-- Bytes written at an offset. -/
def store (offset : ℤ) (data : List Byte) (b : Buffer) : Except Abort Buffer :=
  if 0 ≤ offset ∧ offset + data.length ≤ b.m_capacity then
    .ok { b with
      bytes := b.bytes.take offset.toNat ++ data ++ b.bytes.drop (offset.toNat + data.length) }
  else .error .memory

def extendRoom (host : Host) (size : ℤ) (b : Buffer) : Buffer :=
  if b.writeableSize ≥ size then b
  else if b.m_readPos + b.writeableSize ≥ size then
    { b with
      bytes := b.readable ++ b.bytes.drop b.readable.length
      m_readPos := 0
      m_writePos := b.readableSize }
  else
    match host.realloc b.m_data (b.m_capacity + size).toNat with
    | none => b
    | some temp => { b with m_data := temp, bytes := b.bytes ++ List.replicate size.toNat 0 }

/-- `appendString(data, size)`. -/
def appendString (host : Host) (data : List Byte) (b : Buffer) : Except Abort (ℤ × Buffer) :=
  if data = [] then .ok (-1, b)
  else do
    let b := b.extendRoom host data.length
    let b ← b.store b.m_writePos data
    .ok (0, { b with m_writePos := b.m_writePos + data.length })

/-- `appendString(data)`, of a `char*` or the `data()` of a string. -/
def appendCString (host : Host) (data : List Byte) (b : Buffer) : Except Abort (ℤ × Buffer) :=
  b.appendString host (cstr data)

/-- The size of the second vector. -/
def tmpSize : ℕ := 40960

/-- `socketRead`. Both vectors start at `m_writePos`, and what is appended for the second is the
block that was meant for it. -/
def socketRead (host : Host) (incoming : ReadResult) (b : Buffer) :
    Except Abort (ℤ × Buffer) :=
  let writeable := b.writeableSize
  match incoming with
  | .error _ => .ok (-1, b)
  | .ok bs => do
    let first := bs.take writeable.toNat
    let second := (bs.drop writeable.toNat).take tmpSize
    let result : ℤ := first.length + second.length
    let b ← b.store b.m_writePos first
    let b ← b.store b.m_writePos second
    if result ≤ writeable then .ok (result, { b with m_writePos := b.m_writePos + result })
    else do
      let b := { b with m_writePos := b.m_capacity }
      let (_, b) ← b.appendString host (host.tmpbuf.take (result - writeable).toNat)
      .ok (result, b)

def sendData (socket : Socket) (b : Buffer) : ℤ × Buffer × Socket :=
  if b.readableSize > 0 then
    let (count, socket) := socket.send b.readable
    (count, if count > 0 then { b with m_readPos := b.m_readPos + count } else b, socket)
  else (0, b, socket)

end Buffer

end Reactor.Http
