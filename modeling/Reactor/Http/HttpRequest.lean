import Reactor.Buffer
import Reactor.Lib.Infix

/-!
The request parser of the older HTTP server: `HttpRequest.h`, `HttpRequest.cpp` and the parts
of its `Buffer.h` and `Buffer.cpp` that the parser uses, in `old/ReactorHttp_cpp`.

The parser works on pointers into the buffer, so a buffer says at which address its data
lies. Pointers are 64-bit addresses, and a difference of two is cut to 32 bits where the
source keeps it in an `int`. A call that does not return ends in one of three faults.
-/

namespace Reactor.Http

open Lib.Infix

/-- A `char*` is an address. -/
def nullptr : ℕ := 0

/-- How a call ends that does not return. -/
inductive Fault
  | assertion
  /-- a byte is read that is not in the readable region of the buffer -/
  | outside
  /-- a string is constructed with a length no string can have, and `std::length_error` is
  thrown -/
  | lengthError
  deriving DecidableEq

/-- The conversion to `int`. -/
def toInt (x : ℤ) : ℤ := x.bmod (2 ^ 32)

/-- The conversion to `size_t`. -/
def toSize (x : ℤ) : ℕ := (x % 2 ^ 64).toNat

def SP : Byte := 32
def CR : Byte := 13
def LF : Byte := 10
def COLON : Byte := 58

/-- A buffer with the `m_capacity` bytes at `m_data`. -/
structure Buffer where
  m_data : ℕ
  bytes : List Byte
  m_readPos : ℤ
  m_writePos : ℤ
  deriving DecidableEq

namespace Buffer

def readableSize (b : Buffer) : ℤ := b.m_writePos - b.m_readPos

def data (b : Buffer) : ℕ := (b.m_data + b.m_readPos).toNat

def readPosIncrease (count : ℤ) (b : Buffer) : Buffer :=
  { b with m_readPos := toInt (b.m_readPos + count) }

/-- The readable bytes. -/
def readable (b : Buffer) : List Byte :=
  (b.bytes.drop b.m_readPos.toNat).take b.readableSize.toNat

/-- The readable bytes from the address `p` on. -/
def region (p : ℕ) (b : Buffer) : List Byte :=
  if b.data ≤ p then b.readable.drop (p - b.data) else []

/-- `memmem`, which reads from the front and stops at a match. -/
def memmem (haystack : ℕ) (len : ℕ) (needle : List Byte) (b : Buffer) : Except Fault ℕ :=
  match find ((b.region haystack).take len) needle with
  | some n => .ok (haystack + n)
  | none => if len ≤ (b.region haystack).length then .ok nullptr else .error .outside

/-- `string(start, length)`. A negative length is a `size_t` above `max_size()`. -/
def string (start : ℕ) (length : ℤ) (b : Buffer) : Except Fault (List Byte) :=
  if length < 0 then .error .lengthError
  else if length.toNat ≤ (b.region start).length then
    .ok ((b.region start).take length.toNat)
  else .error .outside

def findCRLF (b : Buffer) : Except Fault ℕ :=
  b.memmem b.data (toSize b.readableSize) [CR, LF]

/-- The positions are in order and the allocation lies below `2 ^ 64`. -/
structure Valid (b : Buffer) : Prop where
  data_pos : 0 < b.m_data
  data_lt : b.m_data + b.bytes.length < 2 ^ 64
  capacity_lt : b.bytes.length < 2 ^ 31
  readPos_nonneg : 0 ≤ b.m_readPos
  readPos_le : b.m_readPos ≤ b.m_writePos
  writePos_le : b.m_writePos ≤ b.bytes.length

end Buffer

inductive PrecessState
  | ParseReqLine
  | ParseReqHeaders
  | ParseReqBody
  | ParseReqDone
  deriving DecidableEq

/-- A request. `m_reqHeaders` is kept in the order of insertion, each key once. -/
structure HttpRequest where
  m_method : List Byte
  m_url : List Byte
  m_version : List Byte
  m_reqHeaders : List (List Byte × List Byte)
  m_curState : PrecessState
  deriving DecidableEq

namespace HttpRequest

/-- A request after `reset()`. -/
def reset : HttpRequest where
  m_method := []
  m_url := []
  m_version := []
  m_reqHeaders := []
  m_curState := .ParseReqLine

/-- `map::insert`, which keeps the value of a key that is there. -/
def addHeader (key value : List Byte) (r : HttpRequest) : HttpRequest :=
  if key = [] ∨ value = [] then r
  else if (r.m_reqHeaders.lookup key).isSome then r
  else { r with m_reqHeaders := r.m_reqHeaders ++ [(key, value)] }

def getHeader (key : List Byte) (r : HttpRequest) : List Byte :=
  (r.m_reqHeaders.lookup key).getD []

/-- The string handed to `callback`, and the pointer returned. -/
def splitRequestLine (start end_ : ℕ) (sub : Option (List Byte)) (b : Buffer) :
    Except Fault (List Byte × ℕ) := do
  let space ← match sub with
    | none => .ok end_
    | some sub => do
      let space ← b.memmem start (toSize (end_ - start)) sub
      if space = nullptr then .error .assertion else .ok space
  let str ← b.string start (toInt (space - start))
  .ok (str, space + 1)

def parseRequestLine (b : Buffer) (r : HttpRequest) :
    Except Fault (Bool × HttpRequest × Buffer) := do
  let end_ ← b.findCRLF
  let start := b.data
  let lineSize := toInt (end_ - start)
  if lineSize > 0 then
    let (method, start) ← splitRequestLine start end_ (some [SP]) b
    let r := { r with m_method := method }
    let (url, start) ← splitRequestLine start end_ (some [SP]) b
    let r := { r with m_url := url }
    let (version, _) ← splitRequestLine start end_ none b
    let r := { r with m_version := version }
    let b := b.readPosIncrease (toInt (lineSize + 2))
    .ok (true, { r with m_curState := .ParseReqHeaders }, b)
  else .ok (false, r, b)

def parseRequestHeader (b : Buffer) (r : HttpRequest) :
    Except Fault (Bool × HttpRequest × Buffer) := do
  let end_ ← b.findCRLF
  if end_ ≠ nullptr then
    let start := b.data
    let lineSize := toInt (end_ - start)
    let middle ← b.memmem start (toSize lineSize) [COLON, SP]
    if middle ≠ nullptr then
      let keyLen := toInt (middle - start)
      let valueLen := toInt (end_ - middle - 2)
      let r ← if keyLen > 0 ∧ valueLen > 0 then do
          let key ← b.string start keyLen
          let value ← b.string (middle + 2) valueLen
          .ok (r.addHeader key value)
        else .ok r
      .ok (true, r, b.readPosIncrease (toInt (lineSize + 2)))
    else
      -- a line without a separator is taken for the empty line
      .ok (true, { r with m_curState := .ParseReqDone }, b.readPosIncrease 2)
  else .ok (false, r, b)

/-- The `switch` of `parseHttpRequest`. -/
def parseStep (flag : Bool) (b : Buffer) (r : HttpRequest) :
    Except Fault (Bool × HttpRequest × Buffer) :=
  match r.m_curState with
  | .ParseReqLine => r.parseRequestLine b
  | .ParseReqHeaders => r.parseRequestHeader b
  | _ => .ok (flag, r, b)

section

variable {ω : Type*} (processHttpRequest : HttpRequest → ω → List Byte × ω) (prepareMsg : ω → ω)

/-- The loop of `parseHttpRequest` from a value of `flag` on, within a number of rounds. What
it does with a parsed request is a parameter: the request `processHttpRequest` is called on
has its `m_url` replaced, and the response and the socket are some `ω`. -/
def parseLoop : ℕ → Bool → Buffer → HttpRequest → ω →
    Option (Except Fault (Bool × HttpRequest × Buffer × ω))
  | 0, _, _, _, _ => none
  | rounds + 1, flag, b, r, w =>
    if r.m_curState = .ParseReqDone then
      some (.ok (flag, { r with m_curState := .ParseReqLine }, b, w))
    else
      match r.parseStep flag b with
      | .error fault => some (.error fault)
      | .ok (flag, r, b) =>
        if !flag then some (.ok (flag, r, b, w))
        else if r.m_curState = .ParseReqDone then
          let (url, w) := processHttpRequest r w
          parseLoop rounds flag b { r with m_url := url } (prepareMsg w)
        else parseLoop rounds flag b r w

def parseHttpRequest (rounds : ℕ) (b : Buffer) (r : HttpRequest) (w : ω) :
    Option (Except Fault (Bool × HttpRequest × Buffer × ω)) :=
  parseLoop processHttpRequest prepareMsg rounds true b r w

end

end HttpRequest

end Reactor.Http
