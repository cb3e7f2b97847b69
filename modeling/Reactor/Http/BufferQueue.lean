import Reactor.Http.BufferRoom
import Reactor.Lib.DataRefinement
import Reactor.Lib.Infix

/-!
When the buffer of the older HTTP server is a queue of bytes. A read that needs the second vector
stores it over the first and appends a block that nothing was read into, so it is one only where
that makes no difference.

The copy that makes room is taken for one that may overlap.
-/

namespace Reactor.Http

open Lib.Memory Lib.Trace Lib.DataRefinement Lib.Infix

namespace Buffer

variable {b : Buffer} {host : Host}

/-! ### One call -/

/-- The part of what is read that goes to the first vector, and the part for the second. -/
def Parts (b : Buffer) (first second : List Byte) : Prop :=
  first.length ≤ b.tail.length ∧ (second = [] ∨ first.length = b.tail.length)

lemma parts_take_drop (b : Buffer) (bs : List Byte) :
    b.Parts (bs.take b.tail.length) (bs.drop b.tail.length) := by
  refine ⟨List.length_take_le _ _, ?_⟩
  rw [List.drop_eq_nil_iff, List.length_take]
  omega

namespace InBounds

variable (h : b.InBounds)
include h

/-- What is stored twice is stored as the second over the first. -/
lemma fill_fill {first second : List Byte} (hle : second.length ≤ first.length) :
    (b.fill first).fill second = b.fill (second ++ first.drop second.length) := by
  have htake := h.take_writePos_length
  have htail := h.tail_fill first
  have hlen : (second ++ first.drop second.length).length = first.length := by
    rw [List.length_append, List.length_drop]
    omega
  have hfront : (b.fill first).bytes.take b.m_writePos.toNat = b.bytes.take b.m_writePos.toNat := by
    rw [Buffer.fill, List.append_assoc]
    exact List.take_left' htake
  rw [Buffer.fill, htail, List.drop_append_of_le_length hle]
  change ({ b.fill first with
    bytes := (b.fill first).bytes.take b.m_writePos.toNat ++ _ ++ _ } : Buffer) = _
  rw [hfront, Buffer.fill, Buffer.fill, hlen]
  simp only [List.append_assoc]

lemma appendString (hmem : ∀ p n, (host.realloc p n).isSome) (data : List Byte) :
    ∃ ret b', b.appendString host data = .ok (ret, b') ∧ b.Appended data b' := by
  unfold Buffer.appendString
  split_ifs with hdata
  · exact ⟨_, _, rfl, h, by rw [hdata, List.append_nil]⟩
  · obtain ⟨hin, hread, hlen⟩ := h.extendRoom hmem data.length
    obtain ⟨hin', hread'⟩ := hin.written hlen
    refine ⟨0, _, ?_, hin', hread'.trans (by rw [hread])⟩
    change ((b.extendRoom host data.length).store _ data >>= _) = _
    rw [hin.store_eq hlen]
    rfl

/-- `socketRead`, up to where the second vector is stored. -/
lemma socketRead_eq {first second : List Byte} (hparts : b.Parts first second)
    (hlen : second.length ≤ tmpSize) :
    b.socketRead host (.ok (first ++ second)) =
      ((b.fill first).store b.m_writePos second >>= fun b' =>
        if second = [] then
          .ok (((first ++ second).length : ℤ),
            { b' with m_writePos := b'.m_writePos + (first ++ second).length })
        else do
          let (_, b') ← { b' with m_writePos := b'.m_capacity }.appendString host
            (host.tmpbuf.take second.length)
          .ok (((first ++ second).length : ℤ), b')) := by
  obtain ⟨hroom, hfull⟩ := hparts
  have hwrite := h.length_tail
  have hn : b.writeableSize.toNat = b.tail.length := by omega
  have hfirst : (first ++ second).take b.tail.length = first := by
    rcases hfull with rfl | hfull
    · rw [List.append_nil, List.take_of_length_le hroom]
    · exact List.take_left' hfull
  have hsecond : ((first ++ second).drop b.tail.length).take tmpSize = second := by
    rcases hfull with rfl | hfull
    · rw [List.append_nil, List.drop_of_length_le hroom, List.take_nil]
    · rw [List.drop_left' hfull, List.take_of_length_le hlen]
  have hresult : (first.length : ℤ) + second.length = (first ++ second).length := by
    rw [List.length_append]
    omega
  have hrest : second ≠ [] →
      (((first ++ second).length : ℤ) - b.writeableSize).toNat = second.length := by
    intro hne
    rw [List.length_append]
    have := hfull.resolve_left hne
    omega
  have hnil : ((first ++ second).length : ℤ) ≤ b.writeableSize ↔ second = [] := by
    rw [← List.length_eq_zero_iff, List.length_append]
    rcases hfull with rfl | hfull
    · rw [List.length_nil]
      omega
    · omega
  unfold Buffer.socketRead
  simp only [hn, hfirst, hsecond, hresult, h.store_eq hroom]
  change (store b.m_writePos second (b.fill first) >>= _) = _
  simp only [hnil]
  by_cases hs : second = []
  · simp only [if_pos hs]
  · simp only [if_neg hs, hrest hs]

/-- **What a read appends**: the second part over the first, and as much of the unused block. -/
lemma socketRead (hmem : ∀ p n, (host.realloc p n).isSome) {first second : List Byte}
    (hparts : b.Parts first second) (hlen : second.length ≤ tmpSize)
    (hle : second.length ≤ first.length) :
    ∃ ret b', b.socketRead host (.ok (first ++ second)) = .ok (ret, b') ∧
      b.Appended (second ++ first.drop second.length ++ host.tmpbuf.take second.length) b' := by
  have hroom := hparts.1
  have hover : (second ++ first.drop second.length).length = first.length := by
    rw [List.length_append, List.length_drop]
    omega
  have hstore : (b.fill first).store b.m_writePos second =
      .ok (b.fill (second ++ first.drop second.length)) := by
    have htail : second.length ≤ (b.fill first).tail.length := by
      rw [h.tail_fill, List.length_append]
      omega
    rw [← h.fill_fill hle]
    exact (h.fill hroom).store_eq htail
  have hwritten := h.written (hover.le.trans hroom)
  rw [h.socketRead_eq hparts hlen, hstore]
  change ∃ ret b', (if second = [] then _ else _) = _ ∧ _
  by_cases hs : second = []
  · rw [if_pos hs]
    refine ⟨_, _, rfl, ?_⟩
    rw [hover] at hwritten
    simp only [hs, List.append_nil, List.length_nil, List.take_zero] at hwritten ⊢
    exact hwritten
  · have hfull := hparts.2.resolve_left hs
    obtain ⟨ret, b', happ, hin', hread'⟩ := hwritten.1.appendString hmem
      (host.tmpbuf.take second.length)
    rw [if_neg hs, h.advance_full (hover.trans hfull), happ]
    exact ⟨_, b', rfl, hin', by rw [hread', hwritten.2, List.append_assoc]⟩

/-- A second part that is longer than the first is stored past the end of the block. -/
lemma socketRead_eq_error (host : Host) {first second : List Byte} (hparts : b.Parts first second)
    (hlen : second.length ≤ tmpSize) (hlt : first.length < second.length) :
    b.socketRead host (.ok (first ++ second)) = .error .memory := by
  have hfull : first.length = b.tail.length :=
    hparts.2.resolve_left (List.ne_nil_of_length_pos (by omega))
  have htail : (b.fill first).tail.length < second.length := by
    rw [h.tail_fill, List.length_append, List.length_drop]
    omega
  have hstore : (b.fill first).store b.m_writePos second = .error .memory :=
    (h.fill hparts.1).store_eq_error htail
  rw [h.socketRead_eq hparts hlen, hstore]
  rfl

/-- The readable bytes are shorter by what `send` writes, if anything. -/
lemma sendData (socket : Socket) :
    (b.sendData socket).2.1.InBounds ∧
      (b.sendData socket).2.1.readable = b.readable.drop (socket.send b.readable).1.toNat := by
  have hlen := h.length_readable
  unfold Buffer.sendData
  rw [← hlen]
  by_cases hne : b.readable = []
  · rw [if_neg (by simp [hne])]
    exact ⟨h, by rw [hne, List.drop_nil]⟩
  · rw [if_pos (by exact_mod_cast List.length_pos_of_ne_nil hne)]
    have hle : (socket.send b.readable).1.toNat ≤ b.readable.length :=
      Int.toNat_le.mpr (min_le_right _ _)
    have htaken := h.taken hle
    dsimp only
    split_ifs with hpos
    · rw [Int.toNat_of_nonneg (le_of_lt hpos)] at htaken
      exact htaken
    · rw [Int.toNat_of_nonpos (not_lt.mp hpos)]
      exact ⟨h, rfl⟩

end InBounds

end Buffer

/-! ### Runs -/

/-- A call on a buffer, with what the system answers. -/
inductive BufferOp
  | appendString (data : List Byte) (host : Host)
  | socketRead (incoming : ReadResult) (host : Host)
  | readPosIncrease (count : ℕ)
  | sendData (socket : Socket)

namespace BufferOp

/-- What the call makes of the buffer. -/
def run (b : Buffer) : BufferOp → Except Abort Buffer
  | .appendString data host => (b.appendString host data).map Prod.snd
  | .socketRead incoming host => (b.socketRead host incoming).map Prod.snd
  | .readPosIncrease count => .ok (b.readPosIncrease count)
  | .sendData socket => .ok (b.sendData socket).2.1

/-- What the call makes of a queue of bytes. -/
def queue (q : List Byte) : BufferOp → List Byte
  | .appendString data _ => q ++ data
  | .socketRead (.ok bs) _ => q ++ bs
  | .socketRead (.error _) _ => q
  | .readPosIncrease count => q.drop count
  | .sendData socket => q.drop (socket.send q).1.toNat

/-- There is memory, a block for the second vector has its size, `readv` gives no more than is
offered and the parser takes out no more than there is. -/
def Answers (b : Buffer) : BufferOp → Prop
  | .appendString _ host => ∀ p n, (host.realloc p n).isSome
  | .socketRead (.ok bs) host => (∀ p n, (host.realloc p n).isSome) ∧
    host.tmpbuf.length = Buffer.tmpSize ∧ bs.length ≤ b.writeableSize + Buffer.tmpSize
  | .readPosIncrease count => count ≤ b.readableSize
  | _ => True

/-- No sum of sizes leaves `int`. -/
structure Legal (b : Buffer) (op : BufferOp) : Prop where
  answers : op.Answers b
  capacity_lt : b.m_capacity < 2 ^ 31
  capacity_lt_run : ∀ b', op.run b = .ok b' → b'.m_capacity < 2 ^ 31

/-- What is read beyond the room there is starts what is read first, and the unused block too. -/
def Spares (b : Buffer) : BufferOp → Prop
  | .socketRead (.ok bs) host =>
    bs.drop b.writeableSize.toNat <+: bs.take b.writeableSize.toNat ∧
      bs.drop b.writeableSize.toNat <+: host.tmpbuf
  | _ => True

def calls : Calls Abort Buffer (List Byte) BufferOp where
  Legal := Legal
  run := run
  spec := queue

end BufferOp

/-- The buffer is a queue: the positions are in order and in the block, and what is readable is
what the queue holds. -/
def IsQueue (b : Buffer) (q : List Byte) : Prop := b.InBounds ∧ b.readable = q

namespace IsQueue

variable {b : Buffer} {q : List Byte} {op : BufferOp}

/-- **A call that needs no second vector, or is spared,** does to the buffer what it does to the
queue. -/
lemma run (h : IsQueue b q) (hlegal : op.Legal b) (hop : op.Spares b) :
    ∃ b', op.run b = .ok b' ∧ IsQueue b' (op.queue q) := by
  obtain ⟨hin, rfl⟩ := h
  obtain ⟨hans, hcap, -⟩ := hlegal
  have hread := hin.length_readable
  have hwrite := hin.length_tail
  cases op with
  | appendString data host =>
      obtain ⟨ret, b', happ, hb'⟩ := hin.appendString hans data
      exact ⟨b', by rw [BufferOp.run, happ]; rfl, hb'⟩
  | socketRead incoming host =>
      cases incoming with
      | error e => exact ⟨b, rfl, hin, rfl⟩
      | ok bs =>
          obtain ⟨hmem, -, hbs⟩ := hans
          have hn : b.writeableSize.toNat = b.tail.length := by omega
          simp only [BufferOp.Spares, hn] at hop
          have hle := hop.1.length_le
          have hlen : (bs.drop b.tail.length).length ≤ Buffer.tmpSize := by
            rw [List.length_drop]
            omega
          obtain ⟨ret, b', hsock, hb'⟩ := hin.socketRead hmem (b.parts_take_drop bs) hlen hle
          rw [(overlay_eq_iff hle).mpr hop, List.take_append_drop] at hb'
          rw [List.take_append_drop] at hsock
          exact ⟨b', by rw [BufferOp.run, hsock]; rfl, hb'⟩
  | readPosIncrease count =>
      simp only [BufferOp.Answers] at hans
      exact ⟨_, rfl, hin.readPosIncrease hcap (by omega)⟩
  | sendData socket => exact ⟨_, rfl, hin.sendData socket⟩

/-- A read that is not spared appends other bytes, or does not return. -/
lemma breaks {b' : Buffer} (h : IsQueue b q) (hlegal : op.Legal b) (hop : ¬ op.Spares b)
    (hrun : op.run b = .ok b') : ¬ IsQueue b' (op.queue q) := by
  obtain ⟨hin, rfl⟩ := h
  have hwrite := hin.length_tail
  cases op with
  | socketRead incoming host =>
      cases incoming with
      | error e => exact absurd trivial hop
      | ok bs =>
          obtain ⟨hmem, -, hbs⟩ := hlegal.answers
          have hn : b.writeableSize.toNat = b.tail.length := by omega
          simp only [BufferOp.Spares, hn] at hop
          have hparts := b.parts_take_drop bs
          have hlen : (bs.drop b.tail.length).length ≤ Buffer.tmpSize := by
            rw [List.length_drop]
            omega
          rw [BufferOp.run] at hrun
          rcases le_or_gt (bs.drop b.tail.length).length (bs.take b.tail.length).length
            with hle | hlt
          · -- what is read first is overwritten, or the unused block is appended
            obtain ⟨ret, b'', hsock, hb''⟩ := hin.socketRead hmem hparts hlen hle
            rw [List.take_append_drop] at hsock
            rw [hsock] at hrun
            obtain rfl : b'' = b' := Except.ok.inj hrun
            rintro ⟨-, hread⟩
            rw [hb''.2] at hread
            have hover := List.append_cancel_left hread
            conv_rhs at hover => rw [← List.take_append_drop b.tail.length bs]
            exact hop ((overlay_eq_iff hle).mp hover)
          · -- the second vector does not fit
            have hsock := hin.socketRead_eq_error host hparts hlen hlt
            rw [List.take_append_drop] at hsock
            rw [hsock] at hrun
            cases hrun
  | _ => exact absurd trivial hop

end IsQueue

/-- A new buffer, and an empty queue. -/
def bufferInit (m_data size : ℕ) : Beside Abort Buffer (List Byte) := ⟨.ok (.new m_data size), []⟩

/-- **The buffer is a queue of bytes exactly as long as no read needs the second vector**, but for
one that brings the same bytes in both, and in the unused block. -/
theorem queue_iff_spares (m_data size : ℕ)
    {tr : List (BufferOp × Beside Abort Buffer (List Byte))}
    (h : Chain BufferOp.calls.Step (bufferInit m_data size) tr) :
    Always (Refines IsQueue) (bufferInit m_data size) tr ↔
      Chain (fun s op _ => Meets BufferOp.Spares s op) (bufferInit m_data size) tr := by
  have h0 : Refines IsQueue (bufferInit m_data size) :=
    ⟨_, rfl, Buffer.inBounds_new m_data size, Buffer.readable_new m_data size⟩
  exact BufferOp.calls.always_refines_iff (fun _ _ _ hq hlegal hop => hq.run hlegal hop)
    (fun _ _ _ _ hq hlegal hop hrun => hq.breaks hlegal hop hrun) h0 h

/-- A block with room for one byte, and a read of the bytes in `bs`. -/
def oneRead (bs : List Byte) : List (BufferOp × Beside Abort Buffer (List Byte)) :=
  let op := BufferOp.socketRead (.ok bs)
    { Host.empty with realloc := fun _ _ => some 0, tmpbuf := List.replicate Buffer.tmpSize 0 }
  [(op, ⟨op.run (.new 0 1), bs⟩)]

lemma oneRead_run {bs : List Byte} (hbs : bs = [97] ∨ bs = [97, 98]) :
    Chain BufferOp.calls.Step (bufferInit 0 1) (oneRead bs) := by
  refine ⟨⟨_, rfl, ⟨⟨fun _ _ => rfl, List.length_replicate, ?_⟩, by decide, ?_⟩, rfl⟩, trivial⟩
  · rcases hbs with rfl | rfl <;> decide
  · intro b' hb'
    rcases hbs with rfl | rfl
    · rw [← Except.ok.inj hb']
      decide
    · rw [← Except.ok.inj hb']
      decide

theorem queue_iff_spares_oneRead : Always (Refines IsQueue) (bufferInit 0 1) (oneRead [97]) :=
  (queue_iff_spares 0 1 (oneRead_run (Or.inl rfl))).mpr
    ⟨⟨_, rfl, List.nil_prefix, List.nil_prefix⟩, trivial⟩

/-- **A read that needs the second vector** overwrites the byte in front, and a byte that was not
read stands behind. -/
theorem not_queue_second_vector :
    ¬ ∀ (m_data size : ℕ) (tr : List (BufferOp × Beside Abort Buffer (List Byte))),
      Chain BufferOp.calls.Step (bufferInit m_data size) tr →
        Always (Refines IsQueue) (bufferInit m_data size) tr := by
  intro h
  obtain ⟨b, hb, -, hread⟩ := (h 0 1 (oneRead [97, 98]) (oneRead_run (Or.inr rfl))).2 _
    List.mem_cons_self
  obtain rfl := Except.ok.inj hb
  exact absurd hread (by decide)

end Reactor.Http
