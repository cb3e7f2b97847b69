import Reactor.OutputStream

/-!
What `sendInLoop` and `handleWrite` leave for the loop: `highWaterMarkCallback_` as the backlog
comes to the mark, and `writeCompleteCallback_` as the last byte that was accepted is handed to
the kernel.
-/

namespace Reactor

open Lib.Trace

/-- A step of a run on an open connection, with the answer of `::write`. -/
inductive SendOp
  | sendInLoop (data : List Byte) (res : WriteResult)
  | handleWrite (res : WriteResult)

def SendOp.toConnOp : SendOp → ConnOp
  | sendInLoop data res => .sendInLoop data res
  | handleWrite res => .handleWrite res

namespace Ctx

def sendStep (x : Ctx) (op : SendOp) : Ctx := x.step op.toConnOp

/-! ### What is queued -/

def takesAll (data : List Byte) : WriteResult → Bool
  | .ok n => data.length ≤ n
  | .error _ => false

/-- The direct `::write` takes the whole payload. -/
def WritesAll (data : List Byte) (res : WriteResult) (x : Ctx) : Prop :=
  x.conn.state_ ≠ .kDisconnected ∧ x.WritesDirectly ∧ takesAll data res = true

instance (data : List Byte) (res : WriteResult) (x : Ctx) : Decidable (x.WritesAll data res) :=
  inferInstanceAs (Decidable (_ ∧ _))

/-- `writeCompleteCallback_` is due: the backlog has gone, or there was none to be. -/
def Completes (x : Ctx) (y : Ctx) : SendOp → Prop
  | .sendInLoop data res => x.WritesAll data res
  | .handleWrite _ => x.backlog ≠ [] ∧ y.backlog = []

/-- `highWaterMarkCallback_` is due: a call of `sendInLoop` takes the backlog over the mark. -/
def Crosses (x : Ctx) (y : Ctx) : SendOp → Prop
  | .sendInLoop _ _ =>
    x.backlog.length < x.conn.highWaterMark_ ∧ x.conn.highWaterMark_ ≤ y.backlog.length
  | .handleWrite _ => False

instance (x y : Ctx) : (op : SendOp) → Decidable (x.Completes y op)
  | .sendInLoop data res => inferInstanceAs (Decidable (x.WritesAll data res))
  | .handleWrite _ => inferInstanceAs (Decidable (_ ∧ _))

instance (x y : Ctx) : (op : SendOp) → Decidable (x.Crosses y op)
  | .sendInLoop _ _ => inferInstanceAs (Decidable (_ ∧ _))
  | .handleWrite _ => inferInstanceAs (Decidable False)

/-- What a step from `x` to `y` is to queue. -/
def due (x : Ctx) (op : SendOp) (y : Ctx) : List Effect :=
  (if x.conn.highWaterMarkCallback_ = true ∧ x.Crosses y op then
    [.queueInloop (.highWaterMarkCallback x.id y.backlog.length)] else []) ++
  if x.conn.writeCompleteCallback_ = true ∧ x.Completes y op then
    [.queueInloop (.writeCompleteCallback x.id)] else []

/-- **The accounts of one step**: it queues what is due, and nothing else; when
`writeCompleteCallback_` is due, all that was accepted so far has been handed to the kernel; and
the callbacks and the mark stay what they are. -/
structure Accounts (x : Ctx) (op : SendOp) (y : Ctx) : Prop where
  queued : y.out = x.out ++ x.due op y
  complete : x.Completes y op → y.conn.socket_.sent = y.accepted
  id : y.id = x.id
  writeComplete : y.conn.writeCompleteCallback_ = x.conn.writeCompleteCallback_
  highWater : y.conn.highWaterMarkCallback_ = x.conn.highWaterMarkCallback_
  mark : y.conn.highWaterMark_ = x.conn.highWaterMark_

/-! ### The parts of the calls -/

/-- The callbacks and the mark are what they were. -/
structure Settled (x y : Ctx) : Prop where
  id : y.id = x.id
  writeComplete : y.conn.writeCompleteCallback_ = x.conn.writeCompleteCallback_
  highWater : y.conn.highWaterMarkCallback_ = x.conn.highWaterMarkCallback_
  mark : y.conn.highWaterMark_ = x.conn.highWaterMark_

lemma Settled.of_same {x y : Ctx} (h : x.Same y) : x.Settled y := by
  rw [h]
  exact ⟨rfl, rfl, rfl, rfl⟩

lemma out_queueWriteComplete (x : Ctx) : x.queueWriteComplete.out = x.out ++
    if x.conn.writeCompleteCallback_ then [.queueInloop (.writeCompleteCallback x.id)] else [] := by
  unfold queueWriteComplete
  split_ifs
  · rfl
  · exact (List.append_nil _).symm

lemma out_queueHighWaterMark (remaining : ℕ) (x : Ctx) :
    (x.queueHighWaterMark remaining).out = x.out ++
      if x.conn.highWaterMarkCallback_ ∧ x.backlog.length < x.conn.highWaterMark_ ∧
          x.conn.highWaterMark_ ≤ x.backlog.length + remaining then
        [.queueInloop (.highWaterMarkCallback x.id (x.backlog.length + remaining))] else [] := by
  unfold queueHighWaterMark
  simp only [SafeBuffer.readableBytes_eq, ge_iff_le]
  by_cases h : x.conn.highWaterMarkCallback_ ∧ x.backlog.length < x.conn.highWaterMark_ ∧
      x.conn.highWaterMark_ ≤ x.backlog.length + remaining
  · rw [if_pos h, if_pos ⟨h.2.2, h.2.1, h.1⟩]
    rfl
  · rw [if_neg h, if_neg fun h' => h ⟨h'.2.2, h'.2.1, h'.1⟩, List.append_nil]

/-- What waits is one payload longer, and the mark is looked at before. -/
lemma bufferRest_queues (rest : List Byte) (x : Ctx) :
    (x.bufferRest rest).out = (x.queueHighWaterMark rest.length).out ∧
      (x.bufferRest rest).backlog = x.backlog ++ rest ∧ x.Settled (x.bufferRest rest) := by
  have hs := same_queueHighWaterMark rest.length x
  unfold bufferRest
  generalize x.queueHighWaterMark rest.length = y at hs ⊢
  have hb : y.conn.outputBuffer_ = x.conn.outputBuffer_ := by rw [hs]
  obtain ⟨h1, h2, h3, h4⟩ := Settled.of_same hs
  dsimp only
  split_ifs <;>
    exact ⟨rfl, by simp [backlog, hb, enableWriting, onChannel, Ctx.log], h1, h2, h3, h4⟩

/-- A rest that waits is what the mark is looked at for; without one nothing is queued. -/
lemma rest_queues (rest : List Byte) (x : Ctx) :
    (if rest = [] then x else x.bufferRest rest).out = x.out ++
        (if x.conn.highWaterMarkCallback_ ∧ x.backlog.length < x.conn.highWaterMark_ ∧
            x.conn.highWaterMark_ ≤ x.backlog.length + rest.length then
          [.queueInloop (.highWaterMarkCallback x.id (x.backlog.length + rest.length))] else []) ∧
      (if rest = [] then x else x.bufferRest rest).backlog = x.backlog ++ rest ∧
      x.Settled (if rest = [] then x else x.bufferRest rest) := by
  by_cases hnil : rest = []
  · have hno : ¬ (x.conn.highWaterMarkCallback_ = true ∧
        x.backlog.length < x.conn.highWaterMark_ ∧
        x.conn.highWaterMark_ ≤ x.backlog.length + rest.length) := by
      rintro ⟨-, hlt, hle⟩
      rw [hnil] at hle
      exact absurd hlt (Nat.not_lt.mpr hle)
    rw [if_pos hnil, if_neg hno, hnil]
    exact ⟨(List.append_nil _).symm, (List.append_nil _).symm, rfl, rfl, rfl, rfl⟩
  · rw [if_neg hnil]
    obtain ⟨hout, hrest⟩ := bufferRest_queues rest x
    exact ⟨hout.trans (out_queueHighWaterMark _ _), hrest⟩

lemma shutdownInLoop_queues (x : Ctx) :
    x.shutdownInLoop.out = x.out ∧ x.shutdownInLoop.backlog = x.backlog ∧
      x.Settled x.shutdownInLoop := by
  unfold shutdownInLoop
  dsimp only
  split_ifs <;> exact ⟨rfl, rfl, rfl, rfl, rfl, rfl⟩

lemma drained_queues (x : Ctx) :
    x.drained.out = x.queueWriteComplete.out ∧ x.drained.backlog = x.backlog ∧
      x.Settled x.drained := by
  have hs := same_queueWriteComplete x.disableWriting
  have hout : x.disableWriting.queueWriteComplete.out = x.queueWriteComplete.out := by
    rw [out_queueWriteComplete, out_queueWriteComplete]
    rfl
  unfold drained
  dsimp only
  generalize x.disableWriting.queueWriteComplete = y at hs hout ⊢
  have hb : y.backlog = x.backlog := by rw [hs]; rfl
  obtain ⟨h1, h2, h3, h4⟩ : x.Settled y := by rw [hs]; exact ⟨rfl, rfl, rfl, rfl⟩
  split_ifs
  · obtain ⟨ho, hb', h1', h2', h3', h4'⟩ := y.shutdownInLoop_queues
    exact ⟨ho.trans hout, hb'.trans hb, h1'.trans h1, h2'.trans h2, h3'.trans h3, h4'.trans h4⟩
  · exact ⟨hout, hb, h1, h2, h3, h4⟩

/-! ### `sendInLoop` -/

/-- **The three ends of `sendInLoop`**: it refuses the payload, it hands the whole of it to the
kernel, or it leaves a rest to wait. -/
lemma sendInLoop_ends (data : List Byte) (res : WriteResult) (x : Ctx) :
    (¬ x.WritesAll data res ∧ x.sendInLoop data res = x.log (.sendInLoop data false)) ∨
    (x.WritesAll data res ∧ x.sendInLoop data res =
      ((x.accept data).queueWriteComplete).log (.sendInLoop data true)) ∨
    (¬ x.WritesAll data res ∧ ∃ taken rest, x.sendInLoop data res =
      (if rest = [] then x.accept taken else (x.accept taken).bufferRest rest).log
        (.sendInLoop data true)) := by
  by_cases hst : x.conn.state_ = .kDisconnected
  · exact Or.inl ⟨fun h => h.1 hst, by rw [sendInLoop, if_pos hst]⟩
  by_cases hw : x.WritesDirectly
  · rcases res with errno | n
    · have hnot : ¬ x.WritesAll data (.error errno) := fun h => nomatch h.2.2
      by_cases hf : errno = EPIPE ∨ errno = ECONNRESET
      · have hne : errno ≠ EWOULDBLOCK := by rcases hf with rfl | rfl <;> decide
        refine Or.inl ⟨hnot, ?_⟩
        simp [sendInLoop, hst, hw, writeDirectly, write, hne, hf]
      · refine Or.inr (Or.inr ⟨hnot, [], data, ?_⟩)
        cases data <;> simp [sendInLoop, hst, hw, writeDirectly, write, hf, accept]
    · by_cases hall : data.length ≤ n
      · refine Or.inr (Or.inl ⟨⟨hst, hw, decide_eq_true hall⟩, ?_⟩)
        simp [sendInLoop, hst, hw, writeDirectly, write, hall, List.take_of_length_le hall]
      · have hnot : ¬ x.WritesAll data (.ok n) := fun h => hall (of_decide_eq_true h.2.2)
        have hmin : min n data.length = n := by omega
        have hpos : data.length - n ≠ 0 := by omega
        refine Or.inr (Or.inr ⟨hnot, data.take n, data.drop n, ?_⟩)
        simp [sendInLoop, hst, hw, writeDirectly, write, hmin, hpos, hall, List.take_of_length_le,
          Nat.sub_pos_of_lt (Nat.lt_of_not_le hall)]
  · refine Or.inr (Or.inr ⟨fun h => hw h.2.1, [], data, ?_⟩)
    cases data <;> simp [sendInLoop, hst, hw, accept]

/-- What a call that takes nothing whole is to queue. -/
lemma due_of_not_completes {x y : Ctx} {op : SendOp} (h : ¬ x.Completes y op) :
    x.due op y = if x.conn.highWaterMarkCallback_ = true ∧ x.Crosses y op then
      [.queueInloop (.highWaterMarkCallback x.id y.backlog.length)] else [] := by
  rw [due, if_neg (mt And.right h), List.append_nil]

lemma accounts_sendInLoop (data : List Byte) (res : WriteResult) {x : Ctx} (h : x.Stream) :
    x.Accounts (.sendInLoop data res) (x.sendInLoop data res) := by
  have hstream := h.sendInLoop data res
  rcases sendInLoop_ends data res x with ⟨hnot, he⟩ | ⟨hall, he⟩ | ⟨hnot, taken, rest, he⟩
  · refine ⟨?_, fun hc => absurd hc hnot, by rw [he]; rfl, by rw [he]; rfl, by rw [he]; rfl,
      by rw [he]; rfl⟩
    have hcross : ¬ x.Crosses (x.sendInLoop data res) (.sendInLoop data res) := by
      rw [he]
      exact fun hc => absurd hc.1 (Nat.not_lt.mpr hc.2)
    have hdue : x.due (.sendInLoop data res) (x.sendInLoop data res) = _ :=
      due_of_not_completes hnot
    rw [hdue, if_neg fun hc => hcross hc.2, he, List.append_nil]
    rfl
  · have hempty := WritesDirectly.backlog hall.2.1
    have hs := same_queueWriteComplete (x.accept data)
    have hout := out_queueWriteComplete (x.accept data)
    have hb : (x.sendInLoop data res).backlog = [] := by
      rw [he, ← hempty]
      generalize (x.accept data).queueWriteComplete = y at hs ⊢
      rw [hs]
      rfl
    have hset : x.Settled (x.sendInLoop data res) := by
      obtain ⟨h1, h2, h3, h4⟩ := Settled.of_same hs
      rw [he]
      exact ⟨h1, h2, h3, h4⟩
    refine ⟨?_, fun _ => ?_, hset.id, hset.writeComplete, hset.highWater, hset.mark⟩
    · have hcross : ¬ x.Crosses (x.sendInLoop data res) (.sendInLoop data res) := by
        rintro ⟨hlt, hle⟩
        rw [hb, List.length_nil] at hle
        exact Nat.not_lt_zero _ (hlt.trans_le hle)
      rw [due, if_neg fun hc => hcross hc.2, List.nil_append, he]
      refine hout.trans (congrArg (x.out ++ ·) ?_)
      exact if_congr (and_iff_left hall).symm rfl rfl
    · rw [Stream, hb, List.append_nil] at hstream
      exact hstream
  · obtain ⟨hout, hb, h1, h2, h3, h4⟩ := rest_queues rest (x.accept taken)
    refine ⟨?_, fun hc => absurd hc hnot, by rw [he]; exact h1, by rw [he]; exact h2,
      by rw [he]; exact h3, by rw [he]; exact h4⟩
    have hdue : x.due (.sendInLoop data res) (x.sendInLoop data res) = _ :=
      due_of_not_completes hnot
    rw [hdue, he]
    refine hout.trans ?_
    have hlen : (((if rest = [] then x.accept taken else (x.accept taken).bufferRest rest).log
        (.sendInLoop data true)).backlog).length = x.backlog.length + rest.length :=
      (congrArg List.length hb).trans List.length_append
    simp only [Crosses, hlen]
    rfl

/-! ### `handleWrite` -/

lemma accounts_handleWrite (res : WriteResult) {x : Ctx} (h : x.Stream) :
    x.Accounts (.handleWrite res) (x.handleWrite res) := by
  have hstream := h.handleWrite res
  have hcross : ∀ y, ¬ x.Crosses y (.handleWrite res) := fun _ hc => hc
  rcases handleWrite_cases res x with ⟨he, hno⟩ | ⟨taken, rest, b, hw, hsplit, hb, hdrain, he⟩
  · -- nothing is taken
    have hnot : ¬ x.Completes (x.handleWrite res) (.handleWrite res) := by
      rw [he]
      exact fun hc => hc.1 hc.2
    refine ⟨?_, fun hc => absurd hc hnot, by rw [he]; rfl, by rw [he]; rfl, by rw [he]; rfl,
      by rw [he]; rfl⟩
    rw [due_of_not_completes hnot, if_neg fun hc => hcross _ hc.2, he, List.append_nil]
    rfl
  by_cases hrest : rest = []
  · -- the last byte is taken
    rw [if_pos hrest] at he
    obtain ⟨hout, hbacklog, hset⟩ := drained_queues (x.wrote taken b)
    have hempty : (x.handleWrite res).backlog = [] := by
      rw [he, hbacklog]
      exact hb.trans hrest
    have hall : x.Completes (x.handleWrite res) (.handleWrite res) :=
      ⟨(hdrain.mp hrest).2.1, hempty⟩
    refine ⟨?_, fun _ => ?_, by rw [he]; exact hset.id, by rw [he]; exact hset.writeComplete,
      by rw [he]; exact hset.highWater, by rw [he]; exact hset.mark⟩
    · rw [due, if_neg fun hc => hcross _ hc.2, List.nil_append]
      have houts := hout.trans (out_queueWriteComplete (x.wrote taken b))
      rw [← he] at houts
      refine houts.trans (congrArg (x.out ++ ·) ?_)
      exact if_congr (and_iff_left hall).symm rfl rfl
    · rw [Stream, hempty, List.append_nil] at hstream
      exact hstream
  · rw [if_neg hrest] at he
    have hnot : ¬ x.Completes (x.handleWrite res) (.handleWrite res) := by
      rintro ⟨-, hc⟩
      rw [he] at hc
      exact hrest (hb.symm.trans hc)
    refine ⟨?_, fun hc => absurd hc hnot, by rw [he]; rfl, by rw [he]; rfl, by rw [he]; rfl,
      by rw [he]; rfl⟩
    rw [due_of_not_completes hnot, if_neg fun hc => hcross _ hc.2, he, List.append_nil]
    rfl

/-! ### Runs -/

lemma Stream.accounts {x : Ctx} (op : SendOp) (h : x.Stream) :
    x.Accounts op (x.sendStep op) := by
  cases op with
  | sendInLoop data res => exact accounts_sendInLoop data res h
  | handleWrite res => exact accounts_handleWrite res h

/-- **The accounts of the backlog.** In every run of `sendInLoop` and `handleWrite` on a connection
that has been established, each step queues `highWaterMarkCallback_` once if it takes the backlog
over the mark, with the new backlog, and `writeCompleteCallback_` once if it takes the last byte of
what waits or the whole of a payload written directly; neither is queued else; and by then all that
was accepted has been handed to the kernel. -/
theorem backlog_accounts (conf : Conf) (onUp : Script) (ops : List SendOp) :
    Chain Accounts (conf.established onUp) (path sendStep (conf.established onUp) ops) := by
  refine chain_of_inv (fun x op y (hx : Stream x) hy => ?_) (stream_established conf onUp)
    (chain_path sendStep _ ops)
  rw [hy]
  exact ⟨hx.step op.toConnOp, hx.accounts op⟩

end Ctx

end Reactor
