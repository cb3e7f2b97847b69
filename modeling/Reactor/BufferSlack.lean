import Reactor.BufferQueue

/-!
How large the vector of a buffer grows. It is made longer only where what is in front of the
readable bytes and behind them is too short for what is appended, and then by no more than that:
so bytes taken out long ago never add up to more than the most that was ever readable.
-/

namespace Reactor.Buffer

open Lib.Memory Lib.Trace

variable {b b' : Buffer}

/-! ### One call -/

/-- The vector is as long as it was, or so short that half of it can be read. -/
def Tight (b b' : Buffer) : Prop :=
  b'.buffer_.length = b.buffer_.length ∨
    b'.buffer_.length ≤ kChreapPrepend + 2 * b'.readableBytes

/-- **What `ensureWriteableBytes` makes of the vector.** A vector that grows ends where the bytes
to be written will. -/
lemma ensureWriteableBytes_size {len : ℕ} (h : b.ensureWriteableBytes len = some b') :
    b'.buffer_.length = b.buffer_.length ∨
      b' = { b with buffer_ := resize b.buffer_ (b.wirteIndex_ + len) 0 } ∧ b.Grows len := by
  unfold ensureWriteableBytes makeSpace at h
  split_ifs at h with hlen hg
  · exact Or.inr ⟨(Option.some.inj h).symm, hg⟩
  · obtain ⟨buf, hcopy, h⟩ := Option.bind_eq_some_iff.mp h
    rw [← Option.some.inj h]
    exact Or.inl (length_copyFwd hcopy)
  · rw [Option.some.inj h]
    exact Or.inl rfl

lemma Ok.append_tight (hb : b.Ok) {data : List Byte} (h : b.append data = some b') :
    b.Tight b' := by
  obtain ⟨b₁, hens, h⟩ := Option.bind_eq_some_iff.mp h
  obtain ⟨buf, hst, h⟩ := Option.bind_eq_some_iff.mp h
  obtain rfl := (Option.some.inj h).symm
  have hbuf := length_store hst
  rcases ensureWriteableBytes_size hens with hsame | ⟨rfl, hg⟩
  · exact Or.inl (hbuf.trans hsame)
  · -- what is in front of the readable bytes is shorter than what is written behind them
    right
    have horder := hb.order
    have hbound := hb.bound
    simp only [Grows, writeableBytes, prependableBytes] at hg
    simp only [length_resize] at hbuf
    simp only [hbuf, readableBytes]
    omega

lemma retrieve_buffer (len : ℕ) (b : Buffer) : (b.retrieve len).buffer_ = b.buffer_ := by
  unfold retrieve retrieveAll
  split_ifs <;> rfl

lemma Ok.readFd_tight (hb : b.Ok) {res : ReadResult} {n : WriteResult}
    (h : b.readFd res = some (n, b')) : b.Tight b' := by
  unfold Buffer.readFd at h
  split at h
  · obtain ⟨-, rfl⟩ := Prod.mk.inj (Option.some.inj h)
    exact Or.inl rfl
  case h_2 vec _ =>
    obtain ⟨buf, hst, h⟩ := Option.bind_eq_some_iff.mp h
    have hbuf := length_store hst
    dsimp only at h
    split_ifs at h with hn
    · obtain ⟨-, rfl⟩ := Prod.mk.inj (Option.some.inj h)
      exact Or.inl hbuf
    · obtain ⟨data, -, h⟩ := Option.bind_eq_some_iff.mp h
      obtain ⟨b₁, happ, h⟩ := Option.bind_eq_some_iff.mp h
      obtain ⟨-, rfl⟩ := Prod.mk.inj (Option.some.inj h)
      have hok : Buffer.Ok { b with buffer_ := buf } := ⟨hb.prepend, hb.order, hbuf ▸ hb.bound⟩
      rcases hok.filled.append_tight happ with hsame | htight
      · exact Or.inl (hsame.trans hbuf)
      · exact Or.inr htight

/-- The calls that put bytes in and take bytes out. -/
def Op.Moves : Op → Prop
  | .ensureWriteableBytes _ => False
  | _ => True

/-- **A call leaves the vector tight.** -/
lemma Ok.exec_tight (hb : b.Ok) {op : Op} {out : Out} (hop : op.Moves)
    (h : b.exec op = some (b', out)) : b.Tight b' := by
  cases op with
  | append data =>
      obtain ⟨b₁, happ, heq⟩ := Option.map_eq_some_iff.mp h
      obtain ⟨rfl, -⟩ := Prod.mk.inj heq
      exact hb.append_tight happ
  | retrieve len =>
      obtain ⟨rfl, -⟩ := Prod.mk.inj (Option.some.inj h)
      exact Or.inl (by rw [retrieve_buffer])
  | retrieveAll =>
      obtain ⟨rfl, -⟩ := Prod.mk.inj (Option.some.inj h)
      exact Or.inl rfl
  | retrieveAsstring len =>
      obtain ⟨r, hr, heq⟩ := Option.map_eq_some_iff.mp h
      obtain ⟨str, -, hr⟩ := Option.bind_eq_some_iff.mp hr
      obtain ⟨rfl, -⟩ := Prod.mk.inj heq
      rw [← Option.some.inj hr]
      exact Or.inl (by rw [retrieve_buffer])
  | retrieveAllAsString =>
      obtain ⟨r, hr, heq⟩ := Option.map_eq_some_iff.mp h
      obtain ⟨str, -, hr⟩ := Option.bind_eq_some_iff.mp hr
      obtain ⟨rfl, -⟩ := Prod.mk.inj heq
      rw [← Option.some.inj hr]
      exact Or.inl (by rw [retrieve_buffer])
  | ensureWriteableBytes len => exact hop.elim
  | readFd res =>
      obtain ⟨r, hr, heq⟩ := Option.map_eq_some_iff.mp h
      obtain ⟨rfl, -⟩ := Prod.mk.inj heq
      exact hb.readFd_tight hr
  | writeFd res =>
      obtain ⟨r, -, heq⟩ := Option.map_eq_some_iff.mp h
      obtain ⟨rfl, -⟩ := Prod.mk.inj heq
      exact Or.inl rfl

/-! ### Whole runs -/

/-- A buffer, and the most bytes that were readable after one of the calls so far. -/
structure Peaked where
  buffer : Buffer
  peak : ℕ

namespace Peaked

def new (initalSize : ℕ) : Peaked := ⟨.new initalSize, 0⟩

def Step (s : Peaked) (l : Op × Out) (s' : Peaked) : Prop :=
  s.buffer.Step l s'.buffer ∧ l.1.Moves ∧ s'.peak = max s.peak s'.buffer.readableBytes

/-- The vector is no longer than at first, or than twice the peak. -/
def Slack (initalSize : ℕ) (s : Peaked) : Prop :=
  s.buffer.buffer_.length ≤ max (kChreapPrepend + initalSize) (kChreapPrepend + 2 * s.peak)

lemma Slack.step {initalSize : ℕ} {s s' : Peaked} {l : Op × Out} (hok : s.buffer.Ok)
    (h : s.Slack initalSize) (hst : s.Step l s') : s'.Slack initalSize := by
  obtain ⟨hstep, hmoves, hpeak⟩ := hst
  have hle : s.peak ≤ s'.peak := hpeak ▸ le_max_left _ _
  have hread : s'.buffer.readableBytes ≤ s'.peak := hpeak ▸ le_max_right _ _
  unfold Slack at h ⊢
  rcases hok.exec_tight hmoves hstep.2 with hsame | htight
  · omega
  · omega

end Peaked

/-- **Bounded slack.** Over every run of calls that put bytes in and take bytes out, the vector is
at most as long as it was at first, or as the prepend area and twice the largest number of bytes
that were readable after a call so far. -/
theorem slack_bounded (initalSize : ℕ) {tr : List ((Op × Out) × Peaked)}
    (h : Chain Peaked.Step (.new initalSize) tr) :
    Always (Peaked.Slack initalSize) (.new initalSize) tr := by
  have h0 : (Peaked.new initalSize).buffer.Ok ∧ (Peaked.new initalSize).Slack initalSize :=
    ⟨ok_new initalSize, by simp [Peaked.Slack, Peaked.new, new]⟩
  have hkeep : ∀ (s : Peaked) (l : Op × Out) (s' : Peaked),
      s.buffer.Ok ∧ s.Slack initalSize → s.Step l s' → s'.buffer.Ok ∧ s'.Slack initalSize :=
    fun s l s' hs hst => ⟨(hs.1.step hst.1).1, hs.2.step hs.1 hst⟩
  exact (always_of_inv hkeep h0 h).mono fun s hs => hs.2

/-- A run in which the vector grows although most of it has been read. -/
theorem slack_bounded_grown :
    ∃ tr : List ((Op × Out) × Peaked), tr.length = 3 ∧
      Always (Peaked.Slack 4) (Peaked.new 4) tr :=
  ⟨[((.append [1, 2, 3, 4], .unit), ⟨⟨[0, 0, 0, 0, 0, 0, 0, 0, 1, 2, 3, 4], 8, 12⟩, 4⟩),
    ((.retrieve 3, .unit), ⟨⟨[0, 0, 0, 0, 0, 0, 0, 0, 1, 2, 3, 4], 11, 12⟩, 4⟩),
    ((.append [5, 6, 7, 8], .unit),
      ⟨⟨[0, 0, 0, 0, 0, 0, 0, 0, 1, 2, 3, 4, 5, 6, 7, 8], 11, 16⟩, 5⟩)],
    rfl, slack_bounded 4 ⟨⟨⟨trivial, rfl⟩, trivial, rfl⟩, ⟨⟨trivial, rfl⟩, trivial, rfl⟩,
      ⟨⟨trivial, rfl⟩, trivial, rfl⟩, trivial⟩⟩

end Reactor.Buffer
