import Reactor.HttpC.Buffer

/-!
The copy that moves the readable bytes of a buffer to the front, in both versions of the server.
Whether its two ranges overlap is not what decides that it is made: they do unless at least as many
bytes have been read as are left.
-/

namespace Reactor.HttpC

open Lib.Memory

variable {b : Buffer} {size : ℤ}

/-- Where the copy writes. -/
def copyTo (b : Buffer) : Set ℤ := Set.Ico 0 b.readableSize

/-- Where the copy reads. -/
def copyFrom (b : Buffer) : Set ℤ := Set.Ico b.m_readPos (b.m_readPos + b.readableSize)

/-- The two have no byte in common. -/
def CopyApart (b : Buffer) : Prop := ∀ i ∈ copyTo b, i ∉ copyFrom b

lemma copyApart_iff (h : b.InBounds) : CopyApart b ↔ b.readableSize ≤ b.m_readPos := by
  obtain ⟨h1, h2, -⟩ := h
  simp only [CopyApart, copyTo, copyFrom, Set.mem_Ico, Http.Buffer.readableSize]
  constructor
  · intro hapart
    by_contra hlt
    exact hapart b.m_readPos ⟨h1, by omega⟩ ⟨le_rfl, by omega⟩
  · intro hle i hto hfrom
    omega

lemma extendRoomBuffer_isOk (h : b.InBounds) (hc : b.Compacts size) (copy : Copy)
    (realloc : Realloc) : (extendRoomBuffer copy realloc size b).isOk ↔
      (copy b.bytes 0 b.m_readPos.toNat b.readableSize.toNat).isSome := by
  have hfits : ¬ bufferWriteAbleSize b ≥ size := not_le.mpr hc.1
  have hmoves : b.m_readPos + bufferWriteAbleSize b ≥ size := hc.2
  have hpos : ¬ (b.m_readPos < 0 ∨ bufferReadAbleSize b < 0) := h.not_neg
  rw [extendRoomBuffer, if_neg hfits, if_pos hmoves]
  dsimp only
  rw [if_neg hpos, bufferReadAbleSize_eq]
  cases copy b.bytes 0 b.m_readPos.toNat b.readableSize.toNat <;> rfl

lemma extendRoomWith_isOk (hc : b.Compacts size) (copy : Copy) (host : Http.Host) :
    (b.extendRoomWith copy host size).isOk ↔
      (copy b.bytes 0 b.m_readPos.toNat b.readableSize.toNat).isSome := by
  have hfits : ¬ b.writeableSize ≥ size := not_le.mpr hc.1
  have hmoves : b.m_readPos + b.writeableSize ≥ size := hc.2
  rw [Http.Buffer.extendRoomWith, if_neg hfits, if_pos hmoves]
  dsimp only
  cases copy b.bytes 0 b.m_readPos.toNat b.readableSize.toNat <;> rfl

/-- **When the ranges of the copy are disjoint**, and when a `memcpy` that is undefined on others is
defined in both versions: if at least as many bytes have been read as are left. -/
theorem copyApart_iff_readableSize_le (h : b.InBounds) (hc : b.Compacts size)
    (realloc : Realloc) (host : Http.Host) :
    (CopyApart b ↔ b.readableSize ≤ b.m_readPos) ∧
      ((extendRoomBuffer memcpy realloc size b).isOk ↔ b.readableSize ≤ b.m_readPos) ∧
      ((b.extendRoomWith memcpy host size).isOk ↔ b.readableSize ≤ b.m_readPos) :=
  ⟨copyApart_iff h, (extendRoomBuffer_isOk h hc memcpy realloc).trans h.memcpy_isSome,
    (extendRoomWith_isOk hc memcpy host).trans h.memcpy_isSome⟩

/-- A full buffer of four bytes, of which `n` have been read. -/
def fullBuffer (n : ℤ) : Buffer where
  m_data := 0
  bytes := [65, 66, 67, 68]
  m_readPos := n
  m_writePos := 4

lemma fullBuffer_inBounds {n : ℤ} (hn : 0 ≤ n) (hn' : n ≤ 4) : (fullBuffer n).InBounds :=
  ⟨hn, hn', le_refl (4 : ℤ)⟩

lemma fullBuffer_compacts {n : ℤ} (hn : 0 < n) : (fullBuffer n).Compacts 1 := by
  simp only [Http.Buffer.Compacts, Http.Buffer.writeableSize, Http.Buffer.m_capacity, fullBuffer,
    List.length_cons, List.length_nil]
  omega

theorem copyApart_iff_readableSize_le_three :
    (extendRoomBuffer memcpy (fun _ _ => none) 1 (fullBuffer 3)).isOk :=
  ((copyApart_iff_readableSize_le (fullBuffer_inBounds (by decide) (by decide))
    (fullBuffer_compacts (by decide)) (fun _ _ => none) Http.Host.empty).2.1).mpr (by decide)

/-- **One byte has been read of four**, and room is made for one. -/
theorem not_copyApart : ¬ ∀ (b : Buffer) (size : ℤ), b.InBounds → 0 < size → b.Compacts size →
    CopyApart b := by
  intro h
  have hin : (fullBuffer 1).InBounds := fullBuffer_inBounds (by decide) (by decide)
  have hapart := h (fullBuffer 1) 1 hin (by decide) (fullBuffer_compacts (by decide))
  rw [copyApart_iff hin] at hapart
  exact absurd hapart (by decide)

end Reactor.HttpC
