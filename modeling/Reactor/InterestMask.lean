import Reactor.ConnRun

/-!
The interest mask of an open connection: it should hold the read bits always, and `EPOLLOUT`
while bytes wait in `outputBuffer_`.

`disableWriting` clears the read bits and leaves `EPOLLOUT`, so the first write event that
takes all the backlog leaves a mask that is wrong in both respects. Nothing else does.
-/

namespace Reactor

open Lib.Trace

/-! ### The bits of the mask -/

lemma mask_write_read (m : Mask) : (m ||| kWriteEvent) &&& kReadEvent = m &&& kReadEvent := by
  have h : kWriteEvent &&& kReadEvent = 0#32 := by decide
  rw [BitVec.and_or_distrib_right, h, BitVec.or_zero]

lemma mask_write_write (m : Mask) : (m ||| kWriteEvent) &&& kWriteEvent ≠ 0 := by
  rw [BitVec.and_or_distrib_right, BitVec.and_self]
  intro h
  have hbit := congrArg (fun b : Mask => b.getLsbD 2) h
  simp [kWriteEvent, EPOLLOUT] at hbit

lemma mask_unread (m : Mask) : (m &&& ~~~kReadEvent) &&& kReadEvent ≠ kReadEvent := by
  have h : (m &&& ~~~kReadEvent) &&& kReadEvent = 0#32 := by
    rw [BitVec.and_assoc, BitVec.not_and_self]
    exact BitVec.and_zero
  rw [h]
  decide

namespace Ctx

/-- The interest mask of the channel. -/
def events (x : Ctx) : Mask := x.conn.channel_.events_

/-- **The mask a connection should have**: the read bits, and `EPOLLOUT` exactly when bytes
are waiting. -/
def Watches (x : Ctx) : Prop :=
  x.events &&& kReadEvent = kReadEvent ∧
    (x.events &&& EPOLLOUT ≠ 0 ↔ x.conn.outputBuffer_.readableBytes > 0)

instance (x : Ctx) : Decidable x.Watches := inferInstanceAs (Decidable (_ ∧ _))

lemma events_enableWriting (x : Ctx) : x.enableWriting.events = x.events ||| kWriteEvent :=
  Channel.withEvents_events _ _ _ _

lemma events_disableWriting (x : Ctx) : x.disableWriting.events = x.events &&& ~~~kReadEvent :=
  Channel.withEvents_events _ _ _ _

lemma isWriting_iff (x : Ctx) : x.isWriting = true ↔ x.events &&& EPOLLOUT ≠ 0 := by
  exact decide_eq_true_iff

lemma events_shutdownInLoop (x : Ctx) : x.shutdownInLoop.events = x.events := by
  unfold shutdownInLoop
  simp only
  split_ifs <;> rfl

lemma events_drained (x : Ctx) : x.drained.events = x.events &&& ~~~kReadEvent := by
  have hs := same_queueWriteComplete x.disableWriting
  have he : x.disableWriting.queueWriteComplete.events = x.events &&& ~~~kReadEvent := by
    rw [hs]
    exact x.events_disableWriting
  unfold drained
  simp only
  split_ifs
  · rw [events_shutdownInLoop, he]
  · exact he

/-! ### What keeps the mask right -/

/-- The mask is right for as long as the connection is open. -/
def WatchesOpen (x : Ctx) : Prop := x.Open → x.Watches

instance : DecidablePred WatchesOpen := fun _ => inferInstanceAs (Decidable (_ → _))

lemma WatchesOpen.same {x y : Ctx} (hs : x.Same y) (h : x.WatchesOpen) : y.WatchesOpen := by
  rw [hs]; exact h

/-- Bytes put behind others, or before none, leave the mask right: `bufferRest` turns on
`EPOLLOUT` where it was off. -/
lemma Watches.bufferRest {x : Ctx} {rest : List Byte} (hrest : rest ≠ []) (h : x.Watches) :
    (x.bufferRest rest).Watches := by
  obtain ⟨y, hs, he⟩ := bufferRest_cases rest x
  have hpos : (x.conn.outputBuffer_.append rest).readableBytes > 0 := by
    rw [SafeBuffer.readableBytes_eq, SafeBuffer.content_append, List.length_append]
    have := List.length_pos_of_ne_nil hrest
    omega
  rw [he, hs]
  split_ifs with hw
  · exact ⟨h.1, iff_of_true (x.isWriting_iff.mp hw) hpos⟩
  · refine ⟨?_, iff_of_true ?_ hpos⟩
    · rw [events_enableWriting, mask_write_read]
      exact h.1
    · rw [events_enableWriting]
      exact mask_write_write _

lemma WatchesOpen.sendInLoop {x : Ctx} (data : List Byte) (res : WriteResult)
    (h : x.WatchesOpen) : (x.sendInLoop data res).WatchesOpen := by
  intro hopen
  obtain ⟨updates, ok, -, hcalls⟩ := calls_sendInLoop data res x
  rw [List.append_assoc] at hcalls
  have hx : x.Watches := h (hopen.of_append hcalls)
  rcases sendInLoop_cases data res x with ⟨he, -⟩ | ⟨taken, rest, y, -, -, -, hs, he⟩
  · rw [he]
    exact hx
  · have hy : y.Watches := by rw [hs]; exact hx
    rw [he]
    split_ifs with hrest
    · exact hy
    · exact hy.bufferRest hrest

lemma WatchesOpen.shutdownInLoop {x : Ctx} (h : x.WatchesOpen) :
    x.shutdownInLoop.WatchesOpen := by
  intro hopen
  have hx : x.Watches := h (hopen.of_append (calls_shutdownInLoop x))
  unfold Ctx.shutdownInLoop
  simp only
  split_ifs <;> exact hx

lemma closed_watchesOpen : Closed WatchesOpen where
  same := WatchesOpen.same
  input _ h := h
  sendInLoop := WatchesOpen.sendInLoop
  disconnecting {x} _ h hopen :=
    h (hopen.of_append (x.calls_log .shutdown))
  shutdownInLoop := WatchesOpen.shutdownInLoop

/-- A log of another call leaves the mask as it was. -/
lemma WatchesOpen.log {x : Ctx} (call : Call) (h : x.WatchesOpen) : (x.log call).WatchesOpen :=
  fun hopen => h (hopen.of_append (x.calls_log call))

lemma WatchesOpen.connectionCallback {x : Ctx} (acts : Script) (h : x.WatchesOpen) :
    (x.connectionCallback acts).WatchesOpen :=
  closed_watchesOpen.runScript acts (h.log _)

/-- A fresh connection is established with the right mask. -/
lemma watchesOpen_established (conf : Conf) (onUp : Script) :
    (conf.established onUp).WatchesOpen := by
  refine WatchesOpen.connectionCallback onUp fun _ => ?_
  have hev :
      ((((conf.fresh.log .connectEstablished).setState .kConnected).tie).enableReading).events =
        0 ||| kReadEvent := Channel.withEvents_events _ _ _ _
  rw [Watches, hev]
  refine ⟨by decide, iff_of_false (by decide) ?_⟩
  change ¬ (SafeBuffer.new kInitialSize).readableBytes > 0
  decide

lemma WatchesOpen.handleRead {x : Ctx} (res : ReadResult) (onMessage onDown : Script)
    (h : x.WatchesOpen) : (x.handleRead res onMessage onDown).WatchesOpen := by
  obtain ⟨b, ⟨-, he⟩ | ⟨-, he⟩ | ⟨-, he⟩⟩ := handleRead_cases res onMessage onDown x
  · rw [he]
    exact h.log .handleRead
  · rw [he]
    exact fun hopen => absurd hopen (not_open_handleClose _ _)
  · rw [he]
    exact closed_watchesOpen.runScript onMessage
      (WatchesOpen.log (x := { x.log .handleRead with conn.inputBuffer_ := b }) _
        (h.log .handleRead))

/-- A write event neither closes nor destroys. -/
lemma open_handleWrite (res : WriteResult) (x : Ctx) : (x.handleWrite res).Open ↔ x.Open := by
  have hl : ∃ l, (x.handleWrite res).calls = x.calls ++ l ∧
      ∀ c ∈ l, c ≠ .handleClose ∧ c ≠ .connectDestroy := by
    rcases handleWrite_cases res x with ⟨he, -⟩ | ⟨taken, rest, b, -, -, -, -, he⟩
    · exact ⟨[.handleWrite], by rw [he, calls_log], by simp⟩
    · rw [he]
      split_ifs
      · rw [calls_drained, calls_wrote, List.append_assoc]
        refine ⟨_, rfl, ?_⟩
        split_ifs <;> simp
      · exact ⟨[.handleWrite], by rw [calls_wrote], by simp⟩
  obtain ⟨l, hc, hl⟩ := hl
  exact ⟨fun h => h.of_append hc, fun h => h.append hc hl⟩

/-- A write event that leaves something waiting leaves the mask right. -/
lemma WatchesOpen.handleWrite {x : Ctx} {res : WriteResult} (h : x.WatchesOpen)
    (hd : x.Open → ¬ x.Drains res) : (x.handleWrite res).WatchesOpen := by
  intro hopen
  have hx : x.Open := (open_handleWrite res x).mp hopen
  rcases handleWrite_cases res x with ⟨he, -⟩ | ⟨taken, rest, b, hw, hsplit, hb, hdr, he⟩
  · rw [he]
    exact h hx
  · have hrest : rest ≠ [] := mt hdr.mp (hd hx)
    rw [he, if_neg hrest]
    refine ⟨(h hx).1, iff_of_true (x.isWriting_iff.mp hw) ?_⟩
    change b.readableBytes > 0
    rw [SafeBuffer.readableBytes_eq, hb]
    exact List.length_pos_of_ne_nil hrest

/-- **Where the mask goes wrong.** A write event that takes all that is waiting clears the
read bits of an open connection. -/
lemma not_watchesOpen_handleWrite {x : Ctx} {res : WriteResult} (hopen : x.Open)
    (hd : x.Drains res) : ¬ (x.handleWrite res).WatchesOpen := by
  intro h
  have hread := (h ((open_handleWrite res x).mpr hopen)).1
  rcases handleWrite_cases res x with ⟨-, hnot⟩ | ⟨taken, rest, b, -, -, -, hdr, he⟩
  · exact hnot hd
  · rw [he, if_pos (hdr.mpr hd), events_drained] at hread
    exact mask_unread _ hread

/-- The step does not drain the backlog of an open connection through a write event. -/
def LeavesSome (x : Ctx) (op : ConnOp) : Prop :=
  ∀ res, op = .handleWrite res → x.Open → ¬ x.Drains res

lemma WatchesOpen.step {x : Ctx} {op : ConnOp} (h : x.WatchesOpen) (hop : x.LeavesSome op) :
    (x.step op).WatchesOpen := by
  cases op with
  | sendInLoop data res => exact h.sendInLoop data res
  | handleWrite res => exact h.handleWrite (hop res rfl)
  | handleRead res onMessage onDown => exact h.handleRead res onMessage onDown
  | handleClose onDown => exact fun hopen => absurd hopen (not_open_handleClose _ _)
  | shutdownInLoop => exact h.shutdownInLoop
  | connectDestroy onDown => exact fun hopen => absurd hopen (not_open_connectDestroy _ _)
  | call tid a => exact closed_watchesOpen.act (x := { x with tid := tid }) a h

/-- **When the interest mask is right.** Over a run of an established connection the mask is
right in every state in which the connection is open exactly when no write event takes the
whole backlog of the open connection. -/
theorem interest_mask (conf : Conf) (onUp : Script) (ops : List ConnOp) :
    Always WatchesOpen (conf.established onUp) (path step (conf.established onUp) ops) ↔
      Chain (fun x op _ => x.LeavesSome op) (conf.established onUp)
        (path step (conf.established onUp) ops) := by
  refine always_path_iff (fun _ h => h) (fun _ _ h hop => h.step hop) ?_
    (watchesOpen_established conf onUp) ops
  intro x op hx hop
  simp only [LeavesSome, not_forall, not_not] at hop
  obtain ⟨res, rfl, hopen, hd⟩ := hop
  exact not_watchesOpen_handleWrite hopen hd

/-- A byte that has to wait and is then written leaves the connection deaf. -/
theorem interest_mask_lost :
    ¬ Always WatchesOpen (Conf.plain.established []) (path step (Conf.plain.established [])
      [.sendInLoop [1] (.error EWOULDBLOCK), .handleWrite (.ok 1)]) := by
  decide +kernel

end Ctx

end Reactor
