import Reactor.Buffer
import Reactor.Lib.Trace

/-!
The buffer is a queue of bytes: what is readable is what was put in and not yet taken out,
in order, and no copy leaves the vector.
-/

namespace Reactor.Buffer

open Lib.Memory Lib.Trace

/-- The indices are in order, inside the vector and past the prepend area. -/
structure Ok (b : Buffer) : Prop where
  prepend : kChreapPrepend ≤ b.readerIndex_
  order : b.readerIndex_ ≤ b.wirteIndex_
  bound : b.wirteIndex_ ≤ b.buffer_.length

/-- The readable bytes: `peek()` and the `readableBytes()` from there on. -/
def content (b : Buffer) : List Byte :=
  (b.buffer_.drop b.readerIndex_).take (b.wirteIndex_ - b.readerIndex_)

lemma Ok.length_content {b : Buffer} (h : b.Ok) : b.content.length = b.readableBytes := by
  have := h.bound
  simp only [content, readableBytes, List.length_take, List.length_drop]
  omega

lemma ok_new (n : ℕ) : (new n).Ok :=
  ⟨le_rfl, le_rfl, by simp [new]⟩

@[simp] lemma content_new (n : ℕ) : (new n).content = [] := by
  simp [content, new]

/-! ### Taking out -/

lemma Ok.retrieveAll {b : Buffer} (h : b.Ok) : b.retrieveAll.Ok := by
  obtain ⟨h1, h2, h3⟩ := h
  exact ⟨le_rfl, le_rfl, by simp only [Buffer.retrieveAll]; omega⟩

@[simp] lemma content_retrieveAll (b : Buffer) : b.retrieveAll.content = [] := by
  simp [content, Buffer.retrieveAll]

lemma Ok.retrieve {b : Buffer} (h : b.Ok) (len : ℕ) : (b.retrieve len).Ok := by
  unfold Buffer.retrieve
  split_ifs with hlt
  · obtain ⟨h1, h2, h3⟩ := h
    simp only [readableBytes] at hlt
    exact ⟨by simp only; omega, by simp only; omega, h3⟩
  · exact h.retrieveAll

lemma Ok.content_retrieve {b : Buffer} (h : b.Ok) (len : ℕ) :
    (b.retrieve len).content = b.content.drop len := by
  unfold Buffer.retrieve
  split_ifs with hlt
  · simp only [content, List.drop_take, List.drop_drop]
    congr 1
    omega
  · rw [content_retrieveAll, List.drop_of_length_le (by rw [h.length_content]; omega)]

lemma Ok.retrieveAsstring {b : Buffer} (h : b.Ok) {len : ℕ} (hlen : len ≤ b.readableBytes) :
    b.retrieveAsstring len = some (b.content.take len, b.retrieve len) := by
  obtain ⟨h1, h2, h3⟩ := h
  simp only [readableBytes] at hlen
  have hload : load b.buffer_ b.readerIndex_ len = some (b.content.take len) := by
    rw [load_eq (by omega), content, List.take_take, Nat.min_eq_left hlen]
  simp [Buffer.retrieveAsstring, hload]

lemma Ok.retrieveAllAsString {b : Buffer} (h : b.Ok) :
    b.retrieveAllAsString = some (b.content, b.retrieveAll) := by
  rw [Buffer.retrieveAllAsString, h.retrieveAsstring le_rfl,
    List.take_of_length_le h.length_content.le]
  simp [Buffer.retrieve]

/-! ### Making room -/

/-- The readable bytes are moved to the front, and only ever to a lower address: a vector
with nothing before the readable bytes but the prepend area would have been grown. -/
lemma Ok.prepend_lt_of_not_grows {b : Buffer} (h : b.Ok) {len : ℕ}
    (hlen : b.writeableBytes < len) (hg : ¬ b.Grows len) :
    kChreapPrepend < b.readerIndex_ := by
  have := h.prepend
  simp only [Grows, prependableBytes] at hg
  omega

lemma Ok.makeSpace_grow {b : Buffer} (h : b.Ok) {len : ℕ} (hlen : b.writeableBytes < len)
    (hg : b.Grows len) :
    ∃ b', b.makeSpace len = some b' ∧ b'.Ok ∧ b'.content = b.content ∧
      len ≤ b'.writeableBytes := by
  obtain ⟨h1, h2, h3⟩ := h
  simp only [writeableBytes] at hlen
  refine ⟨_, if_pos hg, ⟨h1, h2, by simp⟩, ?_, by simp [writeableBytes]⟩
  -- what was readable lies below the write index, which the vector keeps
  have hbuf : resize b.buffer_ (b.wirteIndex_ + len) 0 = _ := resize_of_le 0 (by omega)
  simp only [content, hbuf]
  rw [List.drop_append_of_le_length (by omega), List.take_append_of_le_length (by simp; omega)]

lemma Ok.makeSpace_move {b : Buffer} (h : b.Ok) {len : ℕ} (hlen : b.writeableBytes < len)
    (hg : ¬ b.Grows len) :
    ∃ b', b.makeSpace len = some b' ∧ b'.Ok ∧ b'.content = b.content ∧
      len ≤ b'.writeableBytes := by
  have hlow := h.prepend_lt_of_not_grows hlen hg
  obtain ⟨h1, h2, h3⟩ := h
  have hn : ((b.buffer_.drop b.readerIndex_).take (b.wirteIndex_ - b.readerIndex_)).length =
      b.wirteIndex_ - b.readerIndex_ := by simp; omega
  have hcopy : copyFwd b.buffer_ b.readerIndex_ kChreapPrepend
      (b.wirteIndex_ - b.readerIndex_) = _ := copyFwd_eq (by omega) (by omega)
  refine ⟨_, by rw [makeSpace, if_neg hg, hcopy]; rfl, ⟨le_rfl, by simp, ?_⟩, ?_, ?_⟩
  · simp only [readableBytes, List.length_append, List.length_take, List.length_drop]
    omega
  · have htake : (b.buffer_.take kChreapPrepend).length = kChreapPrepend := by simp; omega
    simp only [content, readableBytes, List.append_assoc, Nat.add_sub_cancel_left]
    rw [List.drop_append_of_le_length htake.ge, List.drop_of_length_le htake.le,
      List.nil_append, List.take_append_of_le_length hn.ge, List.take_of_length_le hn.le]
  · simp only [Grows, writeableBytes, prependableBytes] at hg
    simp only [writeableBytes, readableBytes, List.length_append, List.length_take,
      List.length_drop]
    omega

/-- Room is made without touching what is readable. -/
lemma Ok.ensureWriteableBytes {b : Buffer} (h : b.Ok) (len : ℕ) :
    ∃ b', b.ensureWriteableBytes len = some b' ∧ b'.Ok ∧ b'.content = b.content ∧
      len ≤ b'.writeableBytes := by
  unfold Buffer.ensureWriteableBytes
  split_ifs with hlen
  · by_cases hg : b.Grows len
    · exact h.makeSpace_grow hlen hg
    · exact h.makeSpace_move hlen hg
  · exact ⟨b, rfl, h, rfl, by omega⟩

/-! ### Putting in -/

/-- Bytes written from the write index on become readable behind those that were. -/
lemma Ok.written {b : Buffer} (h : b.Ok) {data : List Byte}
    (hlen : data.length ≤ b.writeableBytes) :
    ∃ buf, store b.buffer_ b.wirteIndex_ data = some buf ∧
      buf.length = b.buffer_.length ∧
      (Buffer.mk buf b.readerIndex_ (b.wirteIndex_ + data.length)).Ok ∧
      (Buffer.mk buf b.readerIndex_ (b.wirteIndex_ + data.length)).content =
        b.content ++ data := by
  obtain ⟨h1, h2, h3⟩ := h
  simp only [writeableBytes] at hlen
  have htake : (b.buffer_.take b.wirteIndex_).length = b.wirteIndex_ := by simp; omega
  refine ⟨_, store_eq (by omega), ?_, ⟨h1, by simp only; omega, ?_⟩, ?_⟩
  · simp only [List.length_append, List.length_take, List.length_drop]; omega
  · simp only [List.length_append, List.length_take, List.length_drop]; omega
  · have hcont : b.content = (b.buffer_.take b.wirteIndex_).drop b.readerIndex_ := by
      rw [content, List.drop_take]
    have hl : ((b.buffer_.take b.wirteIndex_).drop b.readerIndex_ ++ data).length =
        b.wirteIndex_ + data.length - b.readerIndex_ := by
      rw [List.length_append, List.length_drop, htake]; omega
    simp only [content, List.append_assoc]
    rw [List.drop_append_of_le_length (by omega), ← List.append_assoc,
      List.take_append_of_le_length hl.ge, List.take_of_length_le hl.le, List.drop_take]

lemma Ok.append {b : Buffer} (h : b.Ok) (data : List Byte) :
    ∃ b', b.append data = some b' ∧ b'.Ok ∧ b'.content = b.content ++ data := by
  obtain ⟨b₁, hens, hok, hcont, hroom⟩ := h.ensureWriteableBytes data.length
  obtain ⟨buf, hst, -, hok', hcont'⟩ := hok.written hroom
  exact ⟨_, by simp [Buffer.append, hens, hst], hok', by rw [hcont', hcont]⟩

/-! ### Reading from a socket -/

/-- How many bytes `readFd` offers room for. -/
def offered (b : Buffer) : ℕ := b.iov.sum

/-- The bytes `readFd` takes: as many of those waiting as there is room for. -/
def taken (b : Buffer) (bs : List Byte) : List Byte := bs.take b.offered

lemma taken_eq_self {b : Buffer} {bs : List Byte} (h : bs.length ≤ b.offered) :
    b.taken bs = bs :=
  List.take_of_length_le h

lemma chunk_count (b : Buffer) (bs : List Byte) :
    ((scatter b.iov bs).map List.length).sum = (b.taken bs).length := by
  unfold taken offered iov
  split_ifs <;> simp [scatter]
  omega

lemma taken_eq_chunks (b : Buffer) (bs : List Byte) :
    b.taken bs = bs.take b.writeableBytes ++ (scatter b.iov bs).getD 1 [] := by
  unfold taken offered iov
  split_ifs
  · simp [scatter, List.take_add]
  · simp [scatter]

lemma offered_pos (b : Buffer) : 0 < b.offered := by
  unfold offered iov
  split_ifs with h
  · simp [extrabufSize]
  · simp only [extrabufSize, not_lt] at h
    simpa using by omega

lemma length_taken_eq_zero (b : Buffer) (bs : List Byte) : (b.taken bs).length = 0 ↔ bs = [] := by
  have hpos := b.offered_pos.ne'
  simp [taken, hpos]

lemma Ok.filled {b : Buffer} (h : b.Ok) : b.filled.Ok :=
  ⟨h.prepend, h.order.trans h.bound, le_rfl⟩

/-- **What a read gives is appended**, whether it landed in the vector, in `extrabuf` or in
both. -/
lemma Ok.readFd {b : Buffer} (h : b.Ok) (bs : List Byte) :
    ∃ b', b.readFd (.ok bs) = some (.ok (b.taken bs).length, b') ∧ b'.Ok ∧
      b'.content = b.content ++ b.taken bs := by
  have hfst : (scatter b.iov bs).getD 0 [] = bs.take b.writeableBytes := by
    unfold iov; split_ifs <;> rfl
  have hfit : (bs.take b.writeableBytes).length ≤ b.writeableBytes := by simp
  obtain ⟨buf, hst, hbuf, hok, hcont⟩ := h.written hfit
  have hsplit := taken_eq_chunks b bs
  simp only [Buffer.readFd, readv, chunk_count, hfst, hst, Option.bind_eq_bind, Option.bind_some]
  split_ifs with hn
  · -- all of it in the vector
    have hall : b.taken bs = bs.take b.writeableBytes := by
      have hlen := congrArg List.length hsplit
      rw [List.length_append, List.length_take] at hlen
      have hle : (b.taken bs).length ≤ bs.length := by simp [taken]
      have hnil : (scatter b.iov bs).getD 1 [] = [] := by
        by_cases hshort : bs.length ≤ b.writeableBytes
        · unfold iov
          split_ifs <;> simp [scatter, List.drop_of_length_le hshort]
        · exact List.eq_nil_of_length_eq_zero (by omega)
      rw [hsplit, hnil, List.append_nil]
    rw [hall]
    exact ⟨_, rfl, hok, hcont⟩
  · -- the writeable part is full, the rest went to `extrabuf`
    have hfull : (bs.take b.writeableBytes).length = b.writeableBytes := by
      have : (b.taken bs).length ≤ bs.length := by simp [taken]
      rw [List.length_take]; omega
    have hrest : ((scatter b.iov bs).getD 1 []).length =
        (b.taken bs).length - b.writeableBytes := by
      have hlen := congrArg List.length hsplit
      rw [List.length_append, hfull] at hlen
      omega
    have hle : ((scatter b.iov bs).getD 1 []).length ≤ extrabufSize := by
      unfold iov; split_ifs <;> simp [scatter]
    have hload : load (resize ((scatter b.iov bs).getD 1 []) extrabufSize 0) 0
        ((b.taken bs).length - b.writeableBytes) = some ((scatter b.iov bs).getD 1 []) := by
      rw [load_eq (by rw [length_resize]; omega), ← hrest, List.drop_zero,
        resize, List.take_of_length_le hle, List.take_append_of_le_length le_rfl,
        List.take_length]
    have hfilled : (Buffer.filled { b with buffer_ := buf }) =
        Buffer.mk buf b.readerIndex_ (b.wirteIndex_ + (bs.take b.writeableBytes).length) := by
      have hw : buf.length = b.wirteIndex_ + (bs.take b.writeableBytes).length := by
        have := h.bound
        rw [hfull, hbuf, writeableBytes]
        omega
      simp only [Buffer.filled, hw]
    obtain ⟨b', happ, hok', hcont'⟩ := hok.append ((scatter b.iov bs).getD 1 [])
    refine ⟨b', by simp only [hload, hfilled, happ, Option.bind_some], hok', ?_⟩
    rw [hcont', hcont, hsplit, List.append_assoc]

lemma Ok.writeFd {b : Buffer} (h : b.Ok) (res : WriteResult) :
    b.writeFd res = some (write b.content res) := by
  have := h.bound
  have := h.order
  have hload : load b.buffer_ b.readerIndex_ b.readableBytes = some b.content :=
    load_eq (by simp only [readableBytes]; omega)
  simp [Buffer.writeFd, hload]

/-! ### Whole runs -/

/-- The calls of the buffer's interface, with what the kernel answers to them. -/
inductive Op
  | append (data : List Byte)
  | retrieve (len : ℕ)
  | retrieveAll
  | retrieveAsstring (len : ℕ)
  | retrieveAllAsString
  | ensureWriteableBytes (len : ℕ)
  | readFd (res : ReadResult)
  | writeFd (res : WriteResult)

/-- What a call gives back: nothing, a string, the count read, or the count written with
the bytes the kernel took. -/
inductive Out
  | unit
  | str (s : List Byte)
  | count (n : WriteResult)
  | sent (n : WriteResult) (data : List Byte)
  deriving DecidableEq

def exec (b : Buffer) : Op → Option (Buffer × Out)
  | .append data => (b.append data).map (·, .unit)
  | .retrieve len => some (b.retrieve len, .unit)
  | .retrieveAll => some (b.retrieveAll, .unit)
  | .retrieveAsstring len => (b.retrieveAsstring len).map fun r => (r.2, .str r.1)
  | .retrieveAllAsString => b.retrieveAllAsString.map fun r => (r.2, .str r.1)
  | .ensureWriteableBytes len => (b.ensureWriteableBytes len).map (·, .unit)
  | .readFd res => (b.readFd res).map fun r => (r.2, .count r.1)
  | .writeFd res => (b.writeFd res).map fun r => (b, .sent r.1 r.2)

/-- The caller asks for no more than is readable, and the kernel moves no more than it is
offered. -/
def Legal (b : Buffer) : Op → Prop
  | .retrieveAsstring len => len ≤ b.readableBytes
  | .readFd (.ok bs) => bs.length ≤ b.offered
  | .writeFd (.ok n) => n ≤ b.readableBytes
  | _ => True

/-- The same calls on a queue of bytes. -/
def queueExec (q : List Byte) : Op → List Byte × Out
  | .append data => (q ++ data, .unit)
  | .retrieve len => (q.drop len, .unit)
  | .retrieveAll => ([], .unit)
  | .retrieveAsstring len => (q.drop len, .str (q.take len))
  | .retrieveAllAsString => ([], .str q)
  | .ensureWriteableBytes _ => (q, .unit)
  | .readFd (.ok bs) => (q ++ bs, .count (.ok bs.length))
  | .readFd (.error e) => (q, .count (.error e))
  | .writeFd (.ok n) => (q, .sent (.ok n) (q.take n))
  | .writeFd (.error e) => (q, .sent (.error e) [])

/-- A legal call of the buffer is carried out, and is the queue's. -/
theorem Ok.exec {b : Buffer} (h : b.Ok) {op : Op} (hop : b.Legal op) :
    ∃ b' out, b.exec op = some (b', out) ∧ b'.Ok ∧
      queueExec b.content op = (b'.content, out) := by
  cases op with
  | append data =>
      obtain ⟨b', he, hok, hc⟩ := h.append data
      exact ⟨b', .unit, by simp [Buffer.exec, he], hok, by simp [queueExec, hc]⟩
  | retrieve len =>
      exact ⟨_, _, rfl, h.retrieve len, by simp [queueExec, h.content_retrieve]⟩
  | retrieveAll => exact ⟨_, _, rfl, h.retrieveAll, by simp [queueExec]⟩
  | retrieveAsstring len =>
      have he := h.retrieveAsstring hop
      exact ⟨_, _, by simp [Buffer.exec, he]; rfl, h.retrieve len,
        by simp [queueExec, h.content_retrieve]⟩
  | retrieveAllAsString =>
      have he := h.retrieveAllAsString
      exact ⟨_, _, by simp [Buffer.exec, he]; rfl, h.retrieveAll, by simp [queueExec]⟩
  | ensureWriteableBytes len =>
      obtain ⟨b', he, hok, hc, -⟩ := h.ensureWriteableBytes len
      exact ⟨b', .unit, by simp [Buffer.exec, he], hok, by simp [queueExec, hc]⟩
  | readFd res =>
      cases res with
      | error e => exact ⟨b, .count (.error e), rfl, h, rfl⟩
      | ok bs =>
          obtain ⟨b', he, hok, hc⟩ := h.readFd bs
          rw [taken_eq_self hop] at he hc
          exact ⟨b', _, by simp [Buffer.exec, he]; rfl, hok, by simp [queueExec, hc]⟩
  | writeFd res =>
      have he := h.writeFd res
      cases res with
      | error e => exact ⟨b, _, by simp [Buffer.exec, he]; rfl, h, by simp [queueExec, write]⟩
      | ok n =>
          have hn : min n b.content.length = n := by
            rw [h.length_content]; exact Nat.min_eq_left hop
          exact ⟨b, _, by simp [Buffer.exec, he]; rfl, h, by simp [queueExec, write, hn]⟩

/-- A step of a run: a legal call that is carried out. -/
def Step (b : Buffer) (l : Op × Out) (b' : Buffer) : Prop :=
  b.Legal l.1 ∧ b.exec l.1 = some (b', l.2)

def QueueStep (q : List Byte) (l : Op × Out) (q' : List Byte) : Prop :=
  queueExec q l.1 = (q', l.2)

/-- `ensureWriteableBytes(len)` moves the readable bytes to the front. -/
def Compacts (len : ℕ) (b : Buffer) : Prop := b.writeableBytes < len ∧ ¬ b.Grows len

/-- What holds of the buffer between two calls: its indices are in order, no copy of a legal
call leaves the vector, room asked for is given, and a compaction moves bytes to a lower
address, also the one `readFd` makes once the writeable part is full. -/
structure Sound (b : Buffer) : Prop where
  ok : b.Ok
  carried : ∀ op, b.Legal op → (b.exec op).isSome
  room : ∀ len b', b.ensureWriteableBytes len = some b' → len ≤ b'.writeableBytes
  lower : ∀ len, b.Compacts len ∨ b.filled.Compacts len → kChreapPrepend < b.readerIndex_

lemma Ok.sound {b : Buffer} (h : b.Ok) : b.Sound where
  ok := h
  carried op hop := by
    obtain ⟨b', out, he, -⟩ := h.exec hop
    simp [he]
  room len b' he := by
    obtain ⟨b₁, he₁, -, -, hroom⟩ := h.ensureWriteableBytes len
    rw [he] at he₁
    cases he₁
    exact hroom
  lower len := by
    rintro (⟨hlt, hg⟩ | ⟨hlt, hg⟩)
    · exact h.prepend_lt_of_not_grows hlt hg
    · exact h.filled.prepend_lt_of_not_grows hlt hg

lemma Ok.step {b b' : Buffer} {l : Op × Out} (h : b.Ok) (hst : Step b l b') :
    b'.Ok ∧ QueueStep b.content l b'.content := by
  obtain ⟨b₁, out, he, hok, hq⟩ := h.exec hst.1
  rw [hst.2] at he
  cases he
  exact ⟨hok, hq⟩

/-- **The buffer refines a queue of bytes**: over every run of legal calls it stays sound,
and its readable bytes and answers are the queue's. -/
theorem run_refines_queue (initalSize : ℕ) {tr : List ((Op × Out) × Buffer)}
    (h : Chain Step (new initalSize) tr) :
    Always Sound (new initalSize) tr ∧ Chain QueueStep [] (tr.map (Prod.map id content)) := by
  have h0 := ok_new initalSize
  refine ⟨(always_of_inv (fun _ _ _ hs hst => (hs.step hst).1) h0 h).mono fun _ => Ok.sound, ?_⟩
  rw [← content_new initalSize]
  exact chain_map content id (fun _ _ _ hs hst => hs.step hst) h0 h

/-- A run that fills the vector, moves what is readable to its front and fills it again. -/
theorem run_refines_queue_compacting :
    ∃ tr : List ((Op × Out) × Buffer), tr.length = 4 ∧ Always Sound (new 4) tr ∧
      Chain QueueStep [] (tr.map (Prod.map id content)) :=
  ⟨[((.append [1, 2, 3, 4], .unit), ⟨[0, 0, 0, 0, 0, 0, 0, 0, 1, 2, 3, 4], 8, 12⟩),
    ((.retrieve 3, .unit), ⟨[0, 0, 0, 0, 0, 0, 0, 0, 1, 2, 3, 4], 11, 12⟩),
    ((.append [5, 6], .unit), ⟨[0, 0, 0, 0, 0, 0, 0, 0, 4, 5, 6, 4], 8, 11⟩),
    ((.readFd (.ok [7]), .count (.ok 1)), ⟨[0, 0, 0, 0, 0, 0, 0, 0, 4, 5, 6, 7], 8, 12⟩)],
    rfl, run_refines_queue 4 ⟨⟨trivial, rfl⟩, ⟨trivial, rfl⟩, ⟨trivial, rfl⟩,
      ⟨by simp only [Legal]; decide, rfl⟩, trivial⟩⟩

end Reactor.Buffer

namespace Reactor

/-- A buffer together with the order of its indices. Its calls are those of `Buffer`, which
cannot leave the vector. -/
structure SafeBuffer where
  raw : Buffer
  ok : raw.Ok

namespace SafeBuffer

open Buffer

def new (initalSize : ℕ) : SafeBuffer := ⟨.new initalSize, ok_new initalSize⟩

def content (b : SafeBuffer) : List Byte := b.raw.content
def readableBytes (b : SafeBuffer) : ℕ := b.raw.readableBytes

lemma readableBytes_eq (b : SafeBuffer) : b.readableBytes = b.content.length :=
  b.ok.length_content.symm

@[simp] lemma content_new (n : ℕ) : (new n).content = [] := Buffer.content_new n

def retrieve (len : ℕ) (b : SafeBuffer) : SafeBuffer := ⟨b.raw.retrieve len, b.ok.retrieve len⟩

@[simp] lemma content_retrieve (len : ℕ) (b : SafeBuffer) :
    (b.retrieve len).content = b.content.drop len :=
  b.ok.content_retrieve len

def append (data : List Byte) (b : SafeBuffer) : SafeBuffer where
  raw := (b.raw.append data).get (by obtain ⟨b', he, -⟩ := b.ok.append data; simp [he])
  ok := by obtain ⟨b', he, hok, -⟩ := b.ok.append data; simpa [he] using hok

@[simp] lemma content_append (data : List Byte) (b : SafeBuffer) :
    (b.append data).content = b.content ++ data := by
  obtain ⟨b', he, -, hc⟩ := b.ok.append data
  simpa [append, content, he] using hc

lemma exists_readFd (b : SafeBuffer) (res : ReadResult) :
    ∃ n b', b.raw.readFd res = some (n, b') ∧ b'.Ok := by
  cases res with
  | error e => exact ⟨_, _, rfl, b.ok⟩
  | ok bs =>
      obtain ⟨b', he, hok, -⟩ := b.ok.readFd bs
      exact ⟨_, _, he, hok⟩

def readFd (res : ReadResult) (b : SafeBuffer) : WriteResult × SafeBuffer :=
  let r := (b.raw.readFd res).get (by obtain ⟨n, b', he, -⟩ := b.exists_readFd res; simp [he])
  (r.1, ⟨r.2, by obtain ⟨n, b', he, hok⟩ := b.exists_readFd res; simpa [r, he] using hok⟩)

lemma readFd_ok (b : SafeBuffer) (bs : List Byte) :
    (b.readFd (.ok bs)).1 = .ok (b.raw.taken bs).length ∧
      (b.readFd (.ok bs)).2.content = b.content ++ b.raw.taken bs := by
  obtain ⟨b', he, -, hc⟩ := b.ok.readFd bs
  exact ⟨by simp [readFd, he], by simpa [readFd, content, he] using hc⟩

def writeFd (res : WriteResult) (b : SafeBuffer) : WriteResult × List Byte :=
  (b.raw.writeFd res).get (by simp [b.ok.writeFd])

lemma writeFd_eq (b : SafeBuffer) (res : WriteResult) : b.writeFd res = write b.content res := by
  simp [writeFd, b.ok.writeFd, content]

end SafeBuffer

end Reactor
