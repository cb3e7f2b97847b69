import Reactor.Http.Dispatcher
import Reactor.Http.HttpResponse
import Reactor.Http.Lines

/-!
A connection of the older HTTP server: `TcpConnection.h` and `TcpConnection.cpp`, in
`old/ReactorHttp_cpp`, built without `MSG_SEND_AUTO`. What is logged is left out.
-/

namespace Reactor.Http

/-- How a call of `processRead` ends that does not return. -/
inductive Crash
  | fault (f : Fault)
  | abort (a : Abort)
  deriving DecidableEq

/-- A connection, without its channel and its loop. -/
structure TcpConnection where
  m_readBuf : Buffer
  m_writeBuf : Buffer
  m_request : HttpRequest
  m_response : HttpResponse
  deriving DecidableEq

/-- A call of `processRead` that has returned: the connection and its socket, the requests that
were processed, whether the error reply was appended, and the tasks added for the channel. -/
structure Served where
  conn : TcpConnection
  socket : Socket
  handled : List HttpRequest
  rejected : Bool
  tasks : List ElemType

namespace TcpConnection

def bufferSize : ℕ := 10240

/-- A connection with its buffers' data at two addresses. -/
def new (readData writeData : ℕ) : TcpConnection where
  m_readBuf := .new readData bufferSize
  m_writeBuf := .new writeData bufferSize
  m_request := .reset
  m_response := .new

def errMsg : List Byte := ascii "Http/1.1 400 Bad Request\r\n\r\n"

/-- What `processRead` does once the parse has come back. -/
def finishRead (host : Host) (parsed : Bool × HttpRequest × Buffer × Reply) :
    Except Crash Served := do
  let (flag, request, readBuf, w) := parsed
  match w.abort with
  | some a => .error (.abort a)
  | none =>
    let conn : TcpConnection := ⟨readBuf, w.sendBuf, request, w.response⟩
    if flag then .ok ⟨conn, w.socket, w.handled, false, []⟩
    else
      match conn.m_writeBuf.appendCString host errMsg with
      | .error a => .error (.abort a)
      | .ok (_, writeBuf) =>
        .ok ⟨{ conn with m_writeBuf := writeBuf }, w.socket, w.handled, true, []⟩

/-- The reading of `processRead` and the parse, within a number of rounds of the parser. -/
def readRequest (host : Host) (rounds : ℕ) (incoming : ReadResult) (socket : Socket)
    (conn : TcpConnection) : Option (Except Crash Served) :=
  match conn.m_readBuf.socketRead host incoming with
  | .error a => some (.error (.abort a))
  | .ok (count, readBuf) =>
    if count > 0 then
      (conn.m_request.parse host rounds readBuf
        (.new conn.m_response conn.m_writeBuf socket)).map fun
        | .error f => .error (.fault f)
        | .ok parsed => finishRead host parsed
    else some (.ok ⟨{ conn with m_readBuf := readBuf }, socket, [], false, []⟩)

/-- `processRead`. Whatever was read and parsed, it ends by adding a `DELETE` task. -/
def processRead (host : Host) (rounds : ℕ) (incoming : ReadResult) (socket : Socket)
    (conn : TcpConnection) : Option (Except Crash Served) :=
  (readRequest host rounds incoming socket conn).map fun result => result.map fun s =>
    { s with tasks := s.tasks ++ [.DELETE] }

/-- Whether the destructor frees the channel, which closes the socket. -/
def frees (conn : TcpConnection) : Bool :=
  conn.m_readBuf.readableSize = 0 ∧ conn.m_writeBuf.readableSize = 0

end TcpConnection

namespace TcpConnection

lemma finishRead_tasks {host : Host} {parsed : Bool × HttpRequest × Buffer × Reply} {s : Served}
    (h : finishRead host parsed = .ok s) : s.tasks = [] := by
  obtain ⟨flag, request, readBuf, w⟩ := parsed
  simp only [finishRead] at h
  split at h
  · cases h
  split_ifs at h
  · obtain rfl := Except.ok.inj h
    rfl
  · split at h
    · cases h
    · obtain rfl := Except.ok.inj h
      rfl

lemma readRequest_tasks {host : Host} {rounds : ℕ} {incoming : ReadResult} {socket : Socket}
    {conn : TcpConnection} {s : Served}
    (h : conn.readRequest host rounds incoming socket = some (.ok s)) : s.tasks = [] := by
  unfold readRequest at h
  split at h
  · cases h
  split_ifs at h
  · obtain ⟨result, -, h⟩ := Option.map_eq_some_iff.mp h
    cases result with
    | error f => cases h
    | ok parsed => exact finishRead_tasks h
  · obtain rfl := Except.ok.inj (Option.some.inj h)
    rfl

/-- A call that comes back has added a `DELETE` task, and no other. -/
lemma processRead_tasks {host : Host} {rounds : ℕ} {incoming : ReadResult} {socket : Socket}
    {conn : TcpConnection} {s : Served}
    (h : conn.processRead host rounds incoming socket = some (.ok s)) : s.tasks = [.DELETE] := by
  obtain ⟨result, hresult, h⟩ := Option.map_eq_some_iff.mp h
  cases result with
  | error e => cases h
  | ok s' =>
    obtain rfl := Except.ok.inj h
    simp only [readRequest_tasks hresult, List.nil_append]

end TcpConnection

/-! ### Reading and appending where there is room -/

namespace Buffer

variable {b : Buffer} (hv : b.Valid)
include hv

/-- Bytes written at `m_writePos`, once it has moved on. -/
lemma readable_store {data : List Byte} (h : data.length ≤ b.writeableSize) :
    ∃ b', b.store b.m_writePos data = .ok b' ∧ b'.m_data = b.m_data ∧
      b'.bytes.length = b.bytes.length ∧ b'.m_readPos = b.m_readPos ∧
      b'.m_writePos = b.m_writePos ∧
      ({ b' with m_writePos := b.m_writePos + data.length } : Buffer).readable =
        b.readable ++ data := by
  have hr := hv.readPos_nonneg
  have hrw := hv.readPos_le
  have hw := hv.writePos_le
  unfold writeableSize m_capacity at h
  refine ⟨_, if_pos ⟨by omega, by unfold m_capacity; omega⟩, rfl, ?_, rfl, rfl, ?_⟩
  · simp only [List.length_append, List.length_take, List.length_drop]
    omega
  · have htake : (b.bytes.take b.m_writePos.toNat).length = b.m_writePos.toNat := by
      rw [List.length_take]
      omega
    have hold : (b.bytes.take b.m_writePos.toNat).drop b.m_readPos.toNat = b.readable := by
      rw [readable, readableSize, List.drop_take]
      congr 1
      omega
    have hlen : (b.m_writePos + data.length - b.m_readPos).toNat =
        b.readable.length + data.length := by
      have := hv.length_readable
      omega
    calc _ = ((b.bytes.take b.m_writePos.toNat ++ data ++
            b.bytes.drop (b.m_writePos.toNat + data.length)).drop b.m_readPos.toNat).take
          (b.m_writePos + data.length - b.m_readPos).toNat := rfl
      _ = (b.readable ++ data ++ b.bytes.drop (b.m_writePos.toNat + data.length)).take
          (b.readable ++ data).length := by
        rw [List.append_assoc, List.drop_append_of_le_length (by omega), hold, hlen,
          List.length_append, List.append_assoc]
      _ = b.readable ++ data := List.take_left

/-- Bytes appended where there is room. -/
lemma appendString_eq (host : Host) {data : List Byte} (hne : data ≠ [])
    (h : data.length ≤ b.writeableSize) :
    ∃ b', b.appendString host data = .ok (0, b') ∧ b'.readable = b.readable ++ data := by
  obtain ⟨b', hstore, -, -, -, hwrite, hread⟩ := readable_store hv h
  have hroom : b.extendRoom host data.length = b := if_pos h
  refine ⟨{ b' with m_writePos := b.m_writePos + data.length }, ?_, hread⟩
  rw [appendString, if_neg hne]
  simp only [hroom, hstore, bind, Except.bind, hwrite]

/-- Bytes read where there is room. -/
lemma socketRead_eq (host : Host) {bs : List Byte} (h : bs.length ≤ b.writeableSize) :
    ∃ b', b.socketRead host (.ok bs) = .ok (bs.length, b') ∧ b'.Valid ∧
      b'.m_data = b.m_data ∧ b'.m_readPos = b.m_readPos ∧ b'.readable = b.readable ++ bs := by
  obtain ⟨b₁, hstore, hdata, hlen, hpos, hwrite, hread⟩ := readable_store hv h
  have hr := hv.readPos_nonneg
  have hrw := hv.readPos_le
  have hw := hv.writePos_le
  have hroom : (b.m_writePos : ℤ) + bs.length ≤ b.bytes.length := by
    unfold writeableSize m_capacity at h
    omega
  have hfirst : bs.take b.writeableSize.toNat = bs := List.take_of_length_le (by omega)
  have hsecond : (bs.drop b.writeableSize.toNat).take tmpSize = [] := by
    rw [List.drop_of_length_le (by omega), List.take_nil]
  have hnone : b₁.store b.m_writePos [] = .ok b₁ := by
    have : 0 ≤ b.m_writePos ∧ b.m_writePos + (([] : List Byte).length : ℤ) ≤ b₁.m_capacity := by
      unfold m_capacity
      simp only [List.length_nil, Nat.cast_zero]
      omega
    rw [store, if_pos this]
    simp
  refine ⟨{ b₁ with m_writePos := b.m_writePos + bs.length }, ?_, ?_, hdata, hpos, hread⟩
  · rw [socketRead]
    simp only [hfirst, hsecond, hstore, bind, Except.bind, hnone, List.length_nil, Nat.cast_zero,
      Int.add_zero, hwrite]
    rw [if_pos h]
  · exact {
      data_pos := by rw [hdata]; exact hv.data_pos
      data_lt := by rw [hdata, hlen]; exact hv.data_lt
      capacity_lt := by rw [hlen]; exact hv.capacity_lt
      readPos_nonneg := by rw [hpos]; exact hr
      readPos_le := by rw [hpos]; dsimp only; omega
      writePos_le := by rw [hlen]; exact hroom }

end Buffer

end Reactor.Http
