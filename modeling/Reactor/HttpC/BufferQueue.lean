import Reactor.HttpC.Buffer
import Reactor.Lib.DataRefinement

/-!
The buffer of the C version of the server is a queue of bytes as long as no `send` fails: what is
readable is what was put in and not yet taken out, in order. A failed `send` moves the read
position back by one.

The copy that makes room is taken for one that may overlap.
-/

namespace Reactor.HttpC

open Lib.Memory Lib.Trace Lib.DataRefinement
open Http (cstr Host Socket)

variable {b : Buffer} {realloc : Realloc}

/-! ### One call -/

/-- Room is made as in the other version, unless the assertion fails. -/
lemma extendRoomBuffer_eq (h : b.InBounds) (size : ℕ) :
    extendRoomBuffer memmove realloc size b = .error .assertion ∨
      ∃ host : Host, (∀ p n, (host.realloc p n).isSome) ∧
        extendRoomBuffer memmove realloc size b = .ok (b.extendRoom host size) := by
  unfold extendRoomBuffer Http.Buffer.extendRoom
  simp only [bufferWriteAbleSize_eq, bufferReadAbleSize_eq, if_neg h.not_neg, h.memmove_eq]
  rcases hnew : realloc b.m_data (b.m_capacity + size).toNat with _ | tmp
  · split_ifs
    · exact Or.inr ⟨{ Host.empty with realloc := fun _ _ => some 0 }, fun _ _ => rfl, rfl⟩
    · exact Or.inr ⟨{ Host.empty with realloc := fun _ _ => some 0 }, fun _ _ => rfl, rfl⟩
    · exact Or.inl rfl
  · exact Or.inr ⟨{ Host.empty with realloc := fun _ _ => some tmp }, fun _ _ => rfl, by
      split_ifs <;> rfl⟩

lemma store_eq (h : b.InBounds) {data : List Byte} (hroom : data.length ≤ b.tail.length) :
    store b.m_writePos data b = .ok (b.fill data) := by
  rw [store, h.store_eq hroom]
  rfl

lemma appendDataBuffer_spec (realloc : Realloc) (h : b.InBounds) (data : List Byte) :
    appendDataBuffer memmove realloc data b = .error .assertion ∨
      ∃ ret b', appendDataBuffer memmove realloc data b = .ok (ret, b') ∧
        b.Appended data b' := by
  unfold appendDataBuffer
  split_ifs with hdata
  · exact Or.inr ⟨_, _, rfl, h, by rw [hdata, List.append_nil]⟩
  · rcases extendRoomBuffer_eq h data.length with hfail | ⟨host, hmem, hroom⟩
    · exact Or.inl (by rw [hfail]; rfl)
    · obtain ⟨hin, hread, hlen⟩ := h.extendRoom hmem data.length
      obtain ⟨hin', hread'⟩ := hin.written hlen
      refine Or.inr ⟨0, _, ?_, hin', hread'.trans (by rw [hread])⟩
      rw [hroom]
      change (store _ data (b.extendRoom host data.length) >>= _) = _
      rw [store_eq hin hlen]
      rfl

lemma socketReadBuffer_spec (h : b.InBounds) {bs : List Byte}
    (hbs : bs.length ≤ bufferWriteAbleSize b + tmpSize) :
    socketReadBuffer memmove realloc (.ok bs) b = .error .assertion ∨
      ∃ ret b', socketReadBuffer memmove realloc (.ok bs) b = .ok (ret, b') ∧
        b.Appended bs b' := by
  have hwrite : (b.tail.length : ℤ) = bufferWriteAbleSize b := h.length_tail
  have hn : (bufferWriteAbleSize b).toNat = b.tail.length := by omega
  have htmp : (bs.drop b.tail.length).take tmpSize = bs.drop b.tail.length :=
    List.take_of_length_le (by rw [List.length_drop]; omega)
  have hroom : (bs.take b.tail.length).length ≤ b.tail.length := List.length_take_le _ _
  have hresult : ((bs.take b.tail.length).length : ℤ) + (bs.drop b.tail.length).length =
      bs.length := by
    simp only [List.length_take, List.length_drop]
    omega
  obtain ⟨hin, hread⟩ := h.written hroom
  unfold socketReadBuffer
  simp only [hn, htmp, hresult, store_eq h hroom]
  change (if (bs.length : ℤ) ≤ bufferWriteAbleSize b then _ else _) = _ ∨
    ∃ ret b', (if (bs.length : ℤ) ≤ bufferWriteAbleSize b then _ else _) = _ ∧ _
  by_cases hle : (bs.length : ℤ) ≤ bufferWriteAbleSize b
  · -- all that came is in the first vector
    have hfirst : bs.take b.tail.length = bs := List.take_of_length_le (by omega)
    rw [hfirst] at hin hread
    exact Or.inr ⟨_, _, if_pos hle, by rw [hfirst]; exact hin, by rw [hfirst]; exact hread⟩
  · -- the first vector is full, and the rest is appended
    have hfull : (bs.take b.tail.length).length = b.tail.length := by
      rw [List.length_take]
      omega
    have hrest : (bs.drop b.tail.length).take (bs.length - bufferWriteAbleSize b).toNat =
        bs.drop b.tail.length := List.take_of_length_le (by rw [List.length_drop]; omega)
    rw [if_neg hle, h.advance_full hfull, hrest]
    rcases appendDataBuffer_spec realloc hin (bs.drop b.tail.length)
      with hfail | ⟨ret, b', happ, hin', hread'⟩
    · exact Or.inl (by rw [hfail]; rfl)
    · refine Or.inr ⟨bs.length, b', by rw [happ]; rfl, hin', ?_⟩
      rw [hread', hread, List.append_assoc, List.take_append_drop]

/-- **A `send` that does not fail** takes out what it writes. -/
lemma sendDataBuffer_spec (h : b.InBounds) {socket : Socket}
    (hsend : b.readable ≠ [] → 0 ≤ socket.sends socket.calls) :
    (sendDataBuffer socket b).2.1.InBounds ∧
      (sendDataBuffer socket b).2.1.readable =
        b.readable.drop (socket.send b.readable).1.toNat := by
  have hlen := h.length_readable
  unfold sendDataBuffer
  rw [bufferReadAbleSize_eq, ← hlen]
  by_cases hne : b.readable = []
  · rw [if_neg (by simp [hne])]
    exact ⟨h, by rw [hne, List.drop_nil]⟩
  · rw [if_pos (by exact_mod_cast List.length_pos_of_ne_nil hne)]
    have hcount : 0 ≤ (socket.send b.readable).1 := le_min (hsend hne) (Int.natCast_nonneg _)
    have hle : (socket.send b.readable).1.toNat ≤ b.readable.length :=
      Int.toNat_le.mpr (min_le_right _ _)
    have htaken := h.taken hle
    rw [Int.toNat_of_nonneg hcount] at htaken
    dsimp only
    split_ifs with hzero
    · exact htaken
    · rw [not_not.mp hzero]
      exact ⟨h, rfl⟩

/-- After a `send` that fails one more byte counts as readable. -/
lemma sendDataBuffer_fails (h : b.InBounds) {socket : Socket} (hne : b.readable ≠ [])
    (hsend : socket.sends socket.calls = -1) :
    (sendDataBuffer socket b).2.1.readableSize = b.readable.length + 1 := by
  have hlen := h.length_readable
  have hcount : (socket.send b.readable).1 = -1 := by
    rw [Socket.send, hsend]
    exact min_eq_left (by omega)
  unfold sendDataBuffer
  rw [bufferReadAbleSize_eq, ← hlen, if_pos (by exact_mod_cast List.length_pos_of_ne_nil hne)]
  dsimp only
  rw [hcount, if_pos (by decide), hlen]
  simp only [Http.Buffer.readableSize]
  ring

/-! ### Runs -/

/-- A call on a buffer, with what the system answers. -/
inductive BufferOp
  | appendDataBuffer (data : List Byte) (realloc : Realloc)
  | appendStringBuffer (data : List Byte) (realloc : Realloc)
  | socketReadBuffer (incoming : ReadResult) (realloc : Realloc)
  /-- the parser moves the read position -/
  | consume (count : ℕ)
  | sendDataBuffer (socket : Socket)

namespace BufferOp

/-- What the call makes of the buffer. -/
def run (b : Buffer) : BufferOp → Except Fault Buffer
  | .appendDataBuffer data realloc =>
    (HttpC.appendDataBuffer memmove realloc data b).map Prod.snd
  | .appendStringBuffer data realloc =>
    (HttpC.appendStringBuffer memmove realloc data b).map Prod.snd
  | .socketReadBuffer incoming realloc =>
    (HttpC.socketReadBuffer memmove realloc incoming b).map Prod.snd
  | .consume count => .ok (b.readPosIncrease count)
  | .sendDataBuffer socket => .ok (HttpC.sendDataBuffer socket b).2.1

/-- What the call makes of a queue of bytes. A `send` takes out as many as it returns, and none
if it returns -1. -/
def queue (q : List Byte) : BufferOp → List Byte
  | .appendDataBuffer data _ => q ++ data
  | .appendStringBuffer data _ => q ++ cstr data
  | .socketReadBuffer (.ok bs) _ => q ++ bs
  | .socketReadBuffer (.error _) _ => q
  | .consume count => q.drop count
  | .sendDataBuffer socket => q.drop (socket.send q).1.toNat

/-- `readv` gives no more than is offered, `send` gives -1 or a count, and the parser takes out no
more than there is. -/
def Answers (b : Buffer) : BufferOp → Prop
  | .socketReadBuffer (.ok bs) _ => bs.length ≤ bufferWriteAbleSize b + tmpSize
  | .consume count => count ≤ bufferReadAbleSize b
  | .sendDataBuffer socket => -1 ≤ socket.sends socket.calls
  | _ => True

/-- A call after which the process still runs. No sum of sizes leaves `int`. -/
structure Legal (b : Buffer) (op : BufferOp) : Prop where
  answers : op.Answers b
  capacity_lt : b.m_capacity < 2 ^ 31
  capacity_lt_run : ∀ b', op.run b = .ok b' → b'.m_capacity < 2 ^ 31
  goes_on : op.run b ≠ .error .assertion

/-- The call is not a `send` of bytes that fails. -/
def Sends (b : Buffer) : BufferOp → Prop
  | .sendDataBuffer socket => b.readable ≠ [] → 0 ≤ socket.sends socket.calls
  | _ => True

def calls : Calls Fault Buffer (List Byte) BufferOp where
  Legal := Legal
  run := run
  spec := queue

end BufferOp

/-- The buffer is a queue: the positions are in order and in the block, and what is readable is
what the queue holds. -/
def IsQueue (b : Buffer) (q : List Byte) : Prop := b.InBounds ∧ b.readable = q

namespace IsQueue

variable {q : List Byte} {op : BufferOp}

/-- **A call that is not a `send` that fails** does to the buffer what it does to the queue. -/
lemma run (h : IsQueue b q) (hlegal : op.Legal b) (hop : op.Sends b) :
    ∃ b', op.run b = .ok b' ∧ IsQueue b' (op.queue q) := by
  obtain ⟨hin, rfl⟩ := h
  obtain ⟨hans, hcap, -, hrun⟩ := hlegal
  have happend : ∀ {called : Except Fault (ℤ × Buffer)} {data : List Byte},
      (called = .error .assertion ∨ ∃ ret b', called = .ok (ret, b') ∧ b.Appended data b') →
      called.map Prod.snd ≠ .error .assertion →
      ∃ b', called.map Prod.snd = .ok b' ∧ IsQueue b' (b.readable ++ data) := by
    rintro called data (rfl | ⟨ret, b', rfl, happ⟩) hne
    · exact absurd rfl hne
    · exact ⟨b', rfl, happ⟩
  cases op with
  | appendDataBuffer data realloc => exact happend (appendDataBuffer_spec realloc hin data) hrun
  | appendStringBuffer data realloc =>
      exact happend (appendDataBuffer_spec realloc hin (cstr data)) hrun
  | socketReadBuffer incoming realloc =>
      cases incoming with
      | error e => exact ⟨b, rfl, hin, rfl⟩
      | ok bs => exact happend (socketReadBuffer_spec hin hans) hrun
  | consume count =>
      have hle : count ≤ b.readable.length := by
        have := hin.length_readable
        simp only [BufferOp.Answers, bufferReadAbleSize_eq] at hans
        omega
      exact ⟨_, rfl, hin.readPosIncrease hcap hle⟩
  | sendDataBuffer socket => exact ⟨_, rfl, sendDataBuffer_spec hin hop⟩

/-- A `send` that fails breaks it at once. -/
lemma breaks {b' : Buffer} (h : IsQueue b q) (hlegal : op.Legal b) (hop : ¬ op.Sends b)
    (hrun : op.run b = .ok b') : ¬ IsQueue b' (op.queue q) := by
  obtain ⟨hin, rfl⟩ := h
  cases op with
  | sendDataBuffer socket =>
      simp only [BufferOp.Sends, Classical.not_imp, not_le] at hop
      obtain ⟨hne, hneg⟩ := hop
      have hsend : socket.sends socket.calls = -1 := by
        have hans := hlegal.answers
        simp only [BufferOp.Answers] at hans
        omega
      have hsize := sendDataBuffer_fails hin hne hsend
      rintro ⟨hin', hread'⟩
      obtain rfl := Except.ok.inj hrun
      rw [← hin'.length_readable, hread'] at hsize
      simp only [BufferOp.queue, Socket.send, hsend, List.length_drop] at hsize
      omega
  | _ => exact absurd trivial hop

end IsQueue

/-- A new buffer, and an empty queue. -/
def bufferInit (_data size : ℕ) : Beside Fault Buffer (List Byte) :=
  ⟨.ok (initBuffer _data size), []⟩

/-- **The buffer is a queue of bytes exactly as long as no `send` fails.** -/
theorem queue_iff_sends (_data size : ℕ)
    {tr : List (BufferOp × Beside Fault Buffer (List Byte))}
    (h : Chain BufferOp.calls.Step (bufferInit _data size) tr) :
    Always (Refines IsQueue) (bufferInit _data size) tr ↔
      Chain (fun s op _ => Meets BufferOp.Sends s op) (bufferInit _data size) tr := by
  have h0 : Refines IsQueue (bufferInit _data size) :=
    ⟨_, rfl, Http.Buffer.inBounds_new _data size, Http.Buffer.readable_new _data size⟩
  exact BufferOp.calls.always_refines_iff (fun _ _ _ hq hlegal hop => hq.run hlegal hop)
    (fun _ _ _ _ hq hlegal hop hrun => hq.breaks hlegal hop hrun) h0 h

/-- One byte is appended, and a `send` of it returns `ret`. -/
def oneSend (ret : ℤ) : List (BufferOp × Beside Fault Buffer (List Byte)) :=
  [(.appendDataBuffer [65] fun _ _ => none,
      ⟨.ok { m_data := 0, bytes := [65, 0], m_readPos := 0, m_writePos := 1 }, [65]⟩),
    (.sendDataBuffer ⟨fun _ => ret, 0, []⟩,
      ⟨.ok { m_data := 0, bytes := [65, 0], m_readPos := ret, m_writePos := 1 },
        [65].drop ret.toNat⟩)]

lemma oneSend_run {ret : ℤ} (hret : ret = -1 ∨ ret = 1) :
    Chain BufferOp.calls.Step (bufferInit 0 2) (oneSend ret) := by
  have hcap : ∀ {b b' : Buffer}, b.m_capacity < 2 ^ 31 →
      (.ok b : Except Fault Buffer) = .ok b' → b'.m_capacity < 2 ^ 31 := by
    intro b b' hb heq
    rwa [← Except.ok.inj heq]
  refine ⟨⟨_, rfl, ⟨trivial, by decide, fun _ => hcap (by decide), by decide⟩, rfl⟩, ?_, trivial⟩
  have hans : (-1 : ℤ) ≤ ret := by omega
  rcases hret with rfl | rfl
  · exact ⟨_, rfl, ⟨hans, by decide, fun _ => hcap (by decide), by decide⟩, rfl⟩
  · exact ⟨_, rfl, ⟨hans, by decide, fun _ => hcap (by decide), by decide⟩, rfl⟩

theorem queue_iff_sends_oneSend :
    Always (Refines IsQueue) (bufferInit 0 2) (oneSend 1) :=
  (queue_iff_sends 0 2 (oneSend_run (Or.inr rfl))).mpr
    ⟨⟨_, rfl, trivial⟩, ⟨_, rfl, fun _ => by decide⟩, trivial⟩

/-- **A `send` that fails** puts the read position in front of the block. -/
theorem not_queue_failed_send :
    ¬ ∀ (_data size : ℕ) (tr : List (BufferOp × Beside Fault Buffer (List Byte))),
      Chain BufferOp.calls.Step (bufferInit _data size) tr →
        Always (Refines IsQueue) (bufferInit _data size) tr := by
  intro h
  obtain ⟨b, hb, hin, -⟩ := (h 0 2 (oneSend (-1)) (oneSend_run (Or.inl rfl))).2 _
    (List.mem_cons_of_mem _ List.mem_cons_self)
  obtain rfl := Except.ok.inj hb
  exact absurd hin.readPos_nonneg (by decide)

end Reactor.HttpC
