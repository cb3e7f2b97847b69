import Reactor.Http.SendBuffer
import Reactor.Http.Lines
import Reactor.Lib.Memory

/-!
The buffer of the older HTTP server as a block with two positions: what the bytes in front of the
write position and those behind it become as bytes are stored, counted as written and moved to the
front.
-/

namespace Reactor.Http.Buffer

open Lib.Memory

/-- The positions are in order and in the block. -/
structure InBounds (b : Buffer) : Prop where
  readPos_nonneg : 0 ≤ b.m_readPos
  readPos_le : b.m_readPos ≤ b.m_writePos
  writePos_le : b.m_writePos ≤ b.m_capacity

/-- The bytes behind the write position. -/
def tail (b : Buffer) : List Byte := b.bytes.drop b.m_writePos.toNat

/-- The buffer with `n` more bytes counted as written. -/
def advance (n : ℕ) (b : Buffer) : Buffer := { b with m_writePos := b.m_writePos + n }

/-- The buffer with bytes stored behind the write position. -/
def fill (data : List Byte) (b : Buffer) : Buffer :=
  { b with bytes := b.bytes.take b.m_writePos.toNat ++ data ++ b.tail.drop data.length }

/-- A buffer in which what was readable, and then `data`, is readable. -/
def Appended (b : Buffer) (data : List Byte) (b' : Buffer) : Prop :=
  b'.InBounds ∧ b'.readable = b.readable ++ data

/-- `extendRoom` comes to its second branch: there is room if the readable bytes are moved. -/
def Compacts (size : ℤ) (b : Buffer) : Prop :=
  b.writeableSize < size ∧ size ≤ b.m_readPos + b.writeableSize

/-- `extendRoom`, with the copy that its second branch makes left open, as it may be undefined. -/
def extendRoomWith (copy : List Byte → ℕ → ℕ → ℕ → Option (List Byte)) (host : Host) (size : ℤ)
    (b : Buffer) : Except Abort Buffer :=
  if b.writeableSize ≥ size then .ok b
  else if b.m_readPos + b.writeableSize ≥ size then
    let readable := b.readableSize
    match copy b.bytes 0 b.m_readPos.toNat readable.toNat with
    | none => .error .memory
    | some bytes => .ok { b with bytes := bytes, m_readPos := 0, m_writePos := readable }
  else
    match host.realloc b.m_data (b.m_capacity + size).toNat with
    | none => .ok b
    | some temp => .ok { b with m_data := temp, bytes := b.bytes ++ List.replicate size.toNat 0 }

lemma inBounds_new (m_data size : ℕ) : (new m_data size).InBounds :=
  ⟨le_rfl, le_rfl, by simp [new, m_capacity]⟩

lemma readable_new (m_data size : ℕ) : (new m_data size).readable = [] := by
  simp [new, readable, readableSize]

namespace InBounds

variable {b : Buffer} (h : b.InBounds)
include h

lemma length_readable : (b.readable.length : ℤ) = b.readableSize := by
  obtain ⟨h1, h2, h3⟩ := h
  simp only [m_capacity] at h3
  simp only [readable, readableSize, List.length_take, List.length_drop]
  omega

lemma not_neg : ¬ (b.m_readPos < 0 ∨ b.readableSize < 0) := by
  obtain ⟨h1, h2, -⟩ := h
  simp only [readableSize]
  omega

lemma length_tail : (b.tail.length : ℤ) = b.writeableSize := by
  obtain ⟨h1, h2, h3⟩ := h
  simp only [m_capacity] at h3
  simp only [tail, writeableSize, m_capacity, List.length_drop]
  omega

/-! ### Writing -/

lemma store_eq {data : List Byte} (hroom : data.length ≤ b.tail.length) :
    b.store b.m_writePos data = .ok (b.fill data) := by
  have hlen := h.length_tail
  obtain ⟨h1, h2, -⟩ := h
  simp only [writeableSize] at hlen
  rw [store, if_pos ⟨by omega, by omega⟩, fill, tail, List.drop_drop]

lemma store_eq_error {data : List Byte} (hroom : b.tail.length < data.length) :
    b.store b.m_writePos data = .error .memory := by
  have hlen := h.length_tail
  simp only [writeableSize] at hlen
  rw [store, if_neg]
  rintro ⟨-, hle⟩
  omega

lemma bytes_fill_length {data : List Byte} (hroom : data.length ≤ b.tail.length) :
    (b.fill data).bytes.length = b.bytes.length := by
  obtain ⟨h1, h2, h3⟩ := h
  simp only [m_capacity] at h3
  simp only [tail, List.length_drop] at hroom
  simp only [fill, tail, List.length_append, List.length_take, List.length_drop]
  omega

lemma fill {data : List Byte} (hroom : data.length ≤ b.tail.length) : (b.fill data).InBounds := by
  have hlen := h.bytes_fill_length hroom
  obtain ⟨h1, h2, h3⟩ := h
  exact ⟨h1, h2, by rw [m_capacity, hlen]; exact h3⟩

lemma take_writePos_length : (b.bytes.take b.m_writePos.toNat).length = b.m_writePos.toNat := by
  obtain ⟨h1, h2, h3⟩ := h
  simp only [m_capacity] at h3
  rw [List.length_take]
  omega

lemma tail_fill (data : List Byte) : (b.fill data).tail = data ++ b.tail.drop data.length := by
  have htake := h.take_writePos_length
  rw [tail, Buffer.fill, List.append_assoc]
  exact List.drop_left' htake

/-- What is readable are the bytes from the read position to the write position. -/
lemma readable_eq : b.readable = (b.bytes.take b.m_writePos.toNat).drop b.m_readPos.toNat := by
  obtain ⟨h1, h2, -⟩ := h
  rw [List.drop_take, readable, readableSize]
  congr 1
  omega

lemma readable_fill {data : List Byte} (hroom : data.length ≤ b.tail.length) :
    (b.fill data).readable = b.readable := by
  have htake := h.take_writePos_length
  rw [(h.fill hroom).readable_eq, h.readable_eq]
  congr 1
  rw [Buffer.fill, List.append_assoc]
  exact List.take_left' htake

lemma advance {n : ℕ} (hn : n ≤ b.tail.length) : (b.advance n).InBounds := by
  have hlen := h.length_tail
  obtain ⟨h1, h2, h3⟩ := h
  simp only [writeableSize] at hlen
  exact ⟨h1, by simp only [Buffer.advance]; omega,
    by simp only [Buffer.advance, m_capacity] at hlen ⊢; omega⟩

/-- Bytes counted as written are those stored behind the write position. -/
lemma readable_advance {n : ℕ} (hn : n ≤ b.tail.length) :
    (b.advance n).readable = b.readable ++ b.tail.take n := by
  have htake := h.take_writePos_length
  rw [(h.advance hn).readable_eq, h.readable_eq]
  obtain ⟨h1, h2, -⟩ := h
  have hpos : (b.m_writePos + n).toNat = b.m_writePos.toNat + n := by omega
  simp only [Buffer.advance, hpos, List.take_add]
  rw [List.drop_append_of_le_length (by omega)]
  rfl

/-- **Bytes written behind those that are readable.** -/
lemma written {data : List Byte} (hroom : data.length ≤ b.tail.length) :
    b.Appended data ((b.fill data).advance data.length) := by
  have hfill := h.fill hroom
  have htail := h.tail_fill data
  have hlen : data.length ≤ (b.fill data).tail.length := by
    rw [htail, List.length_append]
    omega
  refine ⟨hfill.advance hlen, ?_⟩
  rw [hfill.readable_advance hlen, h.readable_fill hroom, htail, List.take_left]

/-- A vector that is full is counted as written to the end of the block. -/
lemma advance_full {data : List Byte} (hfull : data.length = b.tail.length) :
    ({ b.fill data with m_writePos := (b.fill data).m_capacity } : Buffer) =
      (b.fill data).advance data.length := by
  have hbytes := h.bytes_fill_length hfull.le
  have hlen := h.length_tail
  simp only [Buffer.advance, m_capacity, hbytes, hfull, hlen, writeableSize]
  congr 1
  simp only [Buffer.fill]
  ring

/-! ### Reading -/

/-- **Bytes taken out at the front.** -/
lemma taken {n : ℕ} (hn : n ≤ b.readable.length) :
    let b' : Buffer := { b with m_readPos := b.m_readPos + n }
    b'.InBounds ∧ b'.readable = b.readable.drop n := by
  have hlen := h.length_readable
  obtain ⟨h1, h2, h3⟩ := h
  simp only [readableSize] at hlen
  refine ⟨⟨by simp only; omega, by simp only; omega, h3⟩, ?_⟩
  have hpos : (b.m_readPos + n).toNat = b.m_readPos.toNat + n := by omega
  have hsize : (b.m_writePos - (b.m_readPos + n)).toNat =
      (b.m_writePos - b.m_readPos).toNat - n := by omega
  simp only [readable, readableSize, hpos, hsize, List.drop_take, List.drop_drop]

lemma readPosIncrease (hcap : b.m_capacity < 2 ^ 31) {n : ℕ} (hn : n ≤ b.readable.length) :
    (b.readPosIncrease n).InBounds ∧ (b.readPosIncrease n).readable = b.readable.drop n := by
  have htaken := h.taken hn
  have hlen := h.length_readable
  obtain ⟨h1, h2, h3⟩ := h
  simp only [readableSize] at hlen
  rw [Buffer.readPosIncrease, toInt_eq (by omega) (by omega)]
  exact htaken

/-! ### Making room -/

/-- The copy of the second branch, if it may overlap. -/
lemma memmove_eq : memmove b.bytes 0 b.m_readPos.toNat b.readableSize.toNat =
    some (b.readable ++ b.bytes.drop b.readable.length) := by
  have hlen := h.length_readable
  obtain ⟨h1, h2, h3⟩ := h
  simp only [m_capacity] at h3
  simp only [readableSize] at hlen
  have hsize : b.readableSize.toNat = b.readable.length := by
    rw [readableSize]
    omega
  rw [Lib.Memory.memmove_eq (by rw [hsize]; omega) (by rw [hsize]; omega), List.take_zero,
    List.nil_append, Nat.zero_add, hsize, ← hsize]
  rfl

/-- With such a copy the model of `extendRoom` is the one that never fails. -/
lemma extendRoomWith_memmove (host : Host) (size : ℤ) :
    b.extendRoomWith memmove host size = .ok (b.extendRoom host size) := by
  unfold extendRoomWith Buffer.extendRoom
  simp only [h.memmove_eq]
  split_ifs
  · rfl
  · rfl
  · cases host.realloc b.m_data (b.m_capacity + size).toNat <;> rfl

/-- **When the copy is one that `memcpy` may make**: if at least as many bytes have been read as
are left. -/
lemma memcpy_isSome : (memcpy b.bytes 0 b.m_readPos.toNat b.readableSize.toNat).isSome ↔
    b.readableSize ≤ b.m_readPos := by
  have hmove := h.memmove_eq
  obtain ⟨h1, h2, -⟩ := h
  have hapart : Apart 0 b.m_readPos.toNat b.readableSize.toNat ↔ b.readableSize ≤ b.m_readPos := by
    simp only [Apart, readableSize]
    omega
  rw [← hapart, memcpy, hmove]
  split_ifs with hc <;> simp [hc]

/-- The bytes from the read position on, moved to the front. -/
lemma compacted :
    let b' : Buffer := { b with
      bytes := b.readable ++ b.bytes.drop b.readable.length
      m_readPos := 0
      m_writePos := b.readableSize }
    b'.InBounds ∧ b'.readable = b.readable ∧ b'.writeableSize = b.m_readPos + b.writeableSize := by
  have hlen := h.length_readable
  have hreadable : b.readable.length ≤ b.bytes.length := by
    simp only [readable, List.length_take, List.length_drop]
    omega
  obtain ⟨h1, h2, h3⟩ := h
  simp only [m_capacity] at h3
  simp only [readableSize] at hlen
  refine ⟨⟨le_rfl, by simp only [readableSize]; omega, ?_⟩, ?_, ?_⟩
  · simp only [m_capacity, readableSize, List.length_append, List.length_drop]
    omega
  · have hsize : b.readableSize.toNat = b.readable.length := by
      rw [readableSize]
      omega
    rw [readable, readableSize]
    simp only [Int.toNat_zero, List.drop_zero, sub_zero, hsize]
    exact List.take_left
  · simp only [writeableSize, m_capacity, readableSize, List.length_append, List.length_drop]
    omega

lemma grown (m_data n : ℕ) :
    let b' : Buffer := { b with m_data := m_data, bytes := b.bytes ++ List.replicate n 0 }
    b'.InBounds ∧ b'.readable = b.readable ∧ b'.writeableSize = b.writeableSize + n := by
  obtain ⟨h1, h2, h3⟩ := h
  simp only [m_capacity] at h3
  refine ⟨⟨h1, h2, ?_⟩, ?_, ?_⟩
  · simp only [m_capacity, List.length_append, List.length_replicate]
    omega
  · have hlen : b.m_readPos.toNat ≤ b.bytes.length := by omega
    simp only [readable, readableSize]
    rw [List.drop_append_of_le_length hlen, List.take_append_of_le_length]
    rw [List.length_drop]
    omega
  · simp only [writeableSize, m_capacity, List.length_append, List.length_replicate]
    omega

/-- `extendRoom` makes room, and touches nothing that is readable. -/
lemma extendRoom {host : Host} (hmem : ∀ p n, (host.realloc p n).isSome) (size : ℕ) :
    (b.extendRoom host size).InBounds ∧ (b.extendRoom host size).readable = b.readable ∧
      size ≤ (b.extendRoom host size).tail.length := by
  have hroom : ∀ {b' : Buffer}, b'.InBounds → size ≤ b'.writeableSize → size ≤ b'.tail.length := by
    intro b' hb' hle
    have := hb'.length_tail
    omega
  unfold Buffer.extendRoom
  split_ifs with hfits hmove
  · exact ⟨h, rfl, hroom h hfits⟩
  · obtain ⟨hb', hread, hsize⟩ := h.compacted
    exact ⟨hb', hread, hroom hb' (hsize ▸ hmove)⟩
  · obtain ⟨p, hp⟩ := Option.isSome_iff_exists.mp (hmem b.m_data (b.m_capacity + size).toNat)
    obtain ⟨hb', hread, hsize⟩ := h.grown p size
    have hwrite : 0 ≤ b.writeableSize := sub_nonneg.mpr h.writePos_le
    rw [hp]
    exact ⟨hb', hread, hroom hb' (by rw [Int.toNat_natCast, hsize]; omega)⟩

end InBounds

end Reactor.Http.Buffer
