import Reactor.ClosedConnections
import Reactor.MemberSteps
import Reactor.OutputStream

/-!
What becomes of the bytes that a connection has accepted: while the server lives and the connection
is not down they are sent, in order, as long as the kernel goes on to take some.
-/

namespace Reactor

open Lib.Schedule

/-! ### What waits is watched for -/

namespace Ctx

variable {x : Ctx}

/-- Nothing the user does brings a connection up again that is down. -/
lemma closed_fallen : Closed fun x => x.conn.state_ = .kDisconnected where
  same hs h := by
    rw [hs]
    exact h
  input _ h := h
  sendInLoop {x} data res h := by
    obtain ⟨-, hst, -⟩ := sendInLoop_fields data res x
    exact hst.trans h
  disconnecting hst h := by cases hst.symm.trans h
  shutdownInLoop {x} h := (shutdownInLoop_fields x).1.trans h

lemma state_handleClose (onDown : Script) :
    (x.handleClose onDown).conn.state_ = .kDisconnected :=
  closed_fallen.runScript onDown
    (x := (((x.log .handleClose).setState .kDisconnected).disableAll).log _) rfl

/-- What is accepted is sent or waits, and what waits is watched for while the connection is not
down. -/
structure Flows (x : Ctx) : Prop where
  stream : x.Stream
  watching : x.Standing → x.backlog ≠ [] → x.isWriting = true

lemma Flows.of_fallen (h : x.Stream) (hst : x.conn.state_ = .kDisconnected) : x.Flows :=
  ⟨h, fun hs => absurd hst hs⟩

lemma closed_flows : Closed Flows where
  same hs h := by
    rw [hs]
    exact ⟨h.stream, h.watching⟩
  input _ h := ⟨h.stream, h.watching⟩
  sendInLoop {x} data res h := by
    obtain ⟨rest, hst, -, -, hb, hw, -⟩ := sendInLoop_fields data res x
    refine ⟨h.stream.sendInLoop data res, ?_⟩
    rw [Standing, hst, hb, hw]
    intro hs hne
    by_cases hrest : rest = []
    · subst hrest
      rw [h.watching hs (by simpa using hne)]
      rfl
    · simp [hrest]
  disconnecting {x} hst h := by
    refine ⟨closed_stream.disconnecting hst h.stream, fun _ => h.watching ?_⟩
    rw [Standing, hst]
    decide
  shutdownInLoop {x} h := by
    obtain ⟨hst, hb, hw, -⟩ := shutdownInLoop_fields x
    refine ⟨h.stream.shutdownInLoop, ?_⟩
    rw [Standing, hst, hb, hw]
    exact h.watching

lemma Flows.handleClose (h : x.Flows) (onDown : Script) : (x.handleClose onDown).Flows :=
  .of_fallen (h.stream.handleClose onDown) (state_handleClose onDown)

lemma Flows.handleRead (h : x.Flows) (res : ReadResult) (onMessage onDown : Script) :
    (x.handleRead res onMessage onDown).Flows := by
  have hread : ∀ b, Flows { x.log .handleRead with conn.inputBuffer_ := b } := fun b =>
    ⟨h.stream.log (c := .handleRead) rfl, h.watching⟩
  obtain ⟨b, ⟨-, he⟩ | ⟨-, he⟩ | ⟨-, he⟩⟩ := handleRead_cases res onMessage onDown x <;> rw [he]
  · exact hread b
  · exact (hread b).handleClose onDown
  · exact closed_flows.runScript onMessage
      ⟨(hread b).stream.log (c := .messageCallback) rfl, (hread b).watching⟩

lemma Flows.handleWrite (h : x.Flows) (res : WriteResult) : (x.handleWrite res).Flows := by
  refine ⟨h.stream.handleWrite res, ?_⟩
  rcases handleWrite_cases res x with ⟨he, -⟩ | ⟨taken, rest, b, hw, -, -, -, he⟩ <;> rw [he]
  · exact h.watching
  · have hwrote : (x.wrote taken b).isWriting = true := hw
    split_ifs
    · exact fun _ _ => (drained_fields hwrote).2.2.1
    · exact fun _ _ => hwrote

/-- A connection that is not established yet has accepted nothing. -/
lemma Flows.fresh (h : x.Flows) (hx : x.Fresh) : x.backlog = [] := by
  have hstream : x.conn.socket_.sent ++ x.backlog = acceptedOf x.calls := h.stream
  rw [hx.calls] at hstream
  exact (List.append_eq_nil_iff.mp hstream).2

lemma Flows.connectEstablished (h : x.Flows) (hx : x.Fresh) (onUp : Script) :
    (x.connectEstablished onUp).Flows := by
  have hempty : (((x.log .connectEstablished).setState .kConnected).tie).enableReading.backlog =
      [] := h.fresh hx
  have hlog := h.stream.log (c := .connectEstablished) rfl
  have hup : (((x.log .connectEstablished).setState .kConnected).tie).enableReading.Stream :=
    Stream.log (x := Ctx.onChannel _ _) hlog rfl
  exact closed_flows.runScript onUp ⟨hup.log rfl, fun _ hne => absurd hempty hne⟩

lemma Flows.connectDestroy (h : x.Flows) (onDown : Script) : (x.connectDestroy onDown).Flows := by
  have hstream := h.stream.connectDestroy onDown
  by_cases hst : x.conn.state_ = .kConnected
  · rw [connectDestroy_connected onDown hst] at hstream ⊢
    refine .of_fallen hstream ?_
    exact closed_fallen.runScript onDown (x := x.lowered .connectDestroy) rfl
  · rw [connectDestroy_eq onDown hst] at hstream ⊢
    refine ⟨hstream, fun hs hne => ?_⟩
    have hev : (x.log .connectDestroy).remove.events = x.events :=
      Channel.remove_events x.id x.conn.channel_ x.poller_
    rw [isWriting_iff, hev, ← isWriting_iff]
    exact h.watching hs hne

lemma Flows.alike {y : Ctx} (h : x.Flows) (hy : x.Alike y) : y.Flows := by
  obtain ⟨⟨r, hr⟩, hc⟩ := hy
  constructor
  · rw [Stream, backlog, accepted, hr, hc]
    exact h.stream
  · rw [Standing, backlog, isWriting, hr]
    exact h.watching

lemma keeps_flows : ServerSys.Keeps Flows where
  toClosed := closed_flows
  alike hy h := h.alike hy
  handleEvent _ h := handleEvent_of (fun h => h.handleClose _) (fun h => h.handleRead _ _ _)
    (fun h => h.handleWrite _) h
  connectEstablished onUp hx h := h.connectEstablished hx onUp
  connectDestroy onDown h := h.connectDestroy onDown

/-! ### What has been sent -/

lemma primitive_sent (l : List Byte) : Primitive fun x => l <+: x.conn.socket_.sent where
  log _ h := h
  queue _ _ _ h := h
  setState _ h := h
  tie h := h
  onChannel _ h := h
  accept _ h := h.trans (List.prefix_append ..)
  shutWr h := h
  input _ h := h
  output _ h := h
  close h := h

lemma primitive_accepted (l : List Byte) : Primitive fun x => l <+: x.accepted where
  log {x} call h := by
    rw [accepted, calls_log, acceptedOf_append]
    exact h.trans (List.prefix_append ..)
  queue _ _ _ h := h
  setState _ h := h
  tie h := h
  onChannel _ h := h
  accept _ h := h
  shutWr h := h
  input _ h := h
  output _ h := h
  close h := h

/-- A write event takes what the kernel accepts off the front of what waits. -/
lemma sent_handleWrite {k : ℕ} (hw : x.isWriting = true) (hk : 0 < k) (hne : x.backlog ≠ []) :
    x.conn.socket_.sent ++ x.backlog.take k <+: (x.handleWrite (.ok k)).conn.socket_.sent := by
  have hprim := primitive_sent (x.conn.socket_.sent ++ x.backlog.take k)
  have hn : min k x.backlog.length > 0 := lt_min hk (List.length_pos_of_ne_nil hne)
  have haccept : x.conn.socket_.sent ++ x.backlog.take k <+:
      ((x.log .handleWrite).accept (x.backlog.take k)).conn.socket_.sent := List.prefix_rfl
  have hlog : (x.log .handleWrite).isWriting = true := hw
  unfold Ctx.handleWrite
  simp only [hlog, if_true, SafeBuffer.writeFd_eq, write]
  change _ <+: (if min k x.backlog.length > 0 then _ else _ : Ctx).conn.socket_.sent
  rw [if_pos hn]
  split_ifs
  · exact hprim.toQuiet.steady.drained (hprim.output _ haccept)
  · exact hprim.output _ haccept

/-- The bytes `l` have been sent, and more wait unless the connection is down. -/
structure Owes (l : List Byte) (x : Ctx) : Prop where
  flows : x.Flows
  waits : x.Standing → x.backlog ≠ []
  sent : l <+: x.conn.socket_.sent

variable {l : List Byte}

lemma closed_waits : Closed fun x => x.Standing → x.backlog ≠ [] where
  same hs h := by
    rw [hs]
    exact h
  input _ h := h
  sendInLoop {x} data res h := by
    obtain ⟨rest, hst, -, -, hb, -, -⟩ := sendInLoop_fields data res x
    rw [Standing, hst, hb]
    exact fun hs hnil => h hs (List.append_eq_nil_iff.mp hnil).1
  disconnecting {x} hst h _ := by
    refine h ?_
    rw [Standing, hst]
    decide
  shutdownInLoop {x} h := by
    obtain ⟨hst, hb, -⟩ := shutdownInLoop_fields x
    rw [Standing, hst, hb]
    exact h

lemma Owes.handleClose (h : x.Owes l) (onDown : Script) : (x.handleClose onDown).Owes l where
  flows := h.flows.handleClose onDown
  waits hs := absurd (state_handleClose onDown) hs
  sent := (primitive_sent l).steady.handleClose onDown h.sent

lemma Owes.handleRead (h : x.Owes l) (res : ReadResult) (onMessage onDown : Script) :
    (x.handleRead res onMessage onDown).Owes l where
  flows := h.flows.handleRead res onMessage onDown
  waits := by
    obtain ⟨b, ⟨-, he⟩ | ⟨-, he⟩ | ⟨-, he⟩⟩ := handleRead_cases res onMessage onDown x <;> rw [he]
    · exact h.waits
    · exact fun hs => absurd (state_handleClose onDown) hs
    · exact closed_waits.runScript onMessage h.waits
  sent := (primitive_sent l).steady.handleRead res onMessage onDown h.sent

lemma state_handleWrite (res : WriteResult) : (x.handleWrite res).conn.state_ = x.conn.state_ := by
  rcases handleWrite_cases res x with ⟨he, -⟩ | ⟨taken, rest, b, hw, -, -, -, he⟩ <;> rw [he]
  · rfl
  · split_ifs
    · exact (drained_fields (x := x.wrote taken b) hw).1
    · rfl

/-- **An event of a connection that has something waiting**, if the socket takes a byte: more has
been sent by the end, or the connection is down. -/
theorem sends_handleEvent {env : EventEnv} {k : ℕ} (h : x.Flows) (hne : x.backlog ≠ [])
    (hwrites : Channel.writes x.conn.channel_.revents_ = true) (hk : 0 < k)
    (hres : env.write = .ok k) (hst : (x.handleEvent env).Standing) :
    x.conn.socket_.sent.length < (x.handleEvent env).conn.socket_.sent.length := by
  have hx : x.Owes x.conn.socket_.sent := ⟨h, fun _ => hne, List.prefix_rfl⟩
  have hbefore : ∃ y : Ctx, y.Owes x.conn.socket_.sent ∧
      x.handleEvent env = y.handleWrite (.ok k) := by
    unfold Ctx.handleEvent
    simp only
    rw [if_pos hwrites, hres]
    split_ifs
    · exact ⟨_, (hx.handleClose _).handleRead _ _ _, rfl⟩
    · exact ⟨_, hx.handleRead _ _ _, rfl⟩
    · exact ⟨_, hx.handleClose _, rfl⟩
    · exact ⟨_, hx, rfl⟩
  obtain ⟨y, hy, he⟩ := hbefore
  rw [he] at hst ⊢
  have hys : y.Standing := by
    rwa [Standing, state_handleWrite] at hst
  have hwait := hy.waits hys
  have hsent := (sent_handleWrite (hy.flows.watching hys hwait) hk hwait).length_le
  have htake : 0 < (y.backlog.take k).length := by
    rw [List.length_take]
    exact lt_min hk (List.length_pos_of_ne_nil hwait)
  rw [List.length_append] at hsent
  have hold := hy.sent.length_le
  omega

end Ctx

end Reactor
