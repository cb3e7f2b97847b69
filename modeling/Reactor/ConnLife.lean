import Reactor.GracefulShutdown
import Reactor.MemberFrame

/-!
The life of one connection as its member functions see it: fresh, up and down.

A connection that is up is in the epoll set. `handleClose` and `connectDestroy` take it down
once and for all, provided that `handleEvent` does not go on to read after it has closed and
that `connectDestroy` does not find `kDisconnectiong`.
-/

namespace Reactor

/-- The calls that the protocol of a connection's callbacks speaks of. -/
def Call.isMilestone : Call → Bool
  | .connectEstablished => true
  | .connectionCallback _ => true
  | .messageCallback => true
  | .closeCallback => true
  | _ => false

namespace Channel

variable {ρ : Type*} (ptr : ρ) (c : Channel) (p : EpollPoller ρ) (f : Mask → Mask)

/-- A channel in the epoll set stays there while it has an event left. -/
lemma withEvents_index_of_ne (h : c.index_ = kAdded) (hf : f c.events_ ≠ kNoneEvent) :
    (c.withEvents f ptr p).2.index_ = kAdded := by
  simp [withEvents, EpollPoller.updateChannel, isNoneEvent, h, hf, kNew_ne_kAdded.symm,
    kDeleted_ne_kAdded.symm]

/-- A new channel enters the epoll set. -/
lemma withEvents_index_of_new (h : c.index_ = kNew) :
    (c.withEvents f ptr p).2.index_ = kAdded := by
  simp [withEvents, EpollPoller.updateChannel, h]

/-- A channel in the epoll set that has no event left is taken out of it. -/
lemma disableAll_index (h : c.index_ = kAdded) : (c.disableAll ptr p).2.index_ = kDeleted := by
  simp [disableAll, withEvents, EpollPoller.updateChannel, isNoneEvent, h, kNew_ne_kAdded.symm,
    kDeleted_ne_kAdded.symm]

lemma disableAll_events : (c.disableAll ptr p).2.events_ = kNoneEvent := withEvents_events ..

lemma remove_index : (c.remove ptr p).2.index_ = kNew := by
  simp only [remove, EpollPoller.removeChannel]

lemma remove_events : (c.remove ptr p).2.events_ = c.events_ := by
  simp only [remove, EpollPoller.removeChannel]

end Channel

namespace Ctx

def index (x : Ctx) : ℤ := x.conn.channel_.index_

def milestones (x : Ctx) : List Call := x.calls.filter Call.isMilestone

/-- The connection has been established and announced, has been handed messages, and then has
seen the milestones `tail`. -/
def Reached (tail : List Call) (x : Ctx) : Prop :=
  ∃ n, x.milestones = .connectEstablished :: .connectionCallback true ::
    (List.replicate n .messageCallback ++ tail)

/-- The connection is made and not established. -/
structure Fresh (x : Ctx) : Prop where
  state : x.conn.state_ = .kConnecting
  index : x.index = kNew
  events : x.events = kNoneEvent
  calls : x.calls = []

/-- The connection is established and not closed. -/
structure Up (x : Ctx) : Prop where
  state : x.conn.state_ = .kConnected ∨ x.conn.state_ = .kDisconnectiong
  index : x.index = kAdded
  events : x.events ≠ kNoneEvent
  reached : x.Reached []
  calls : .connectDestroy ∉ x.calls

/-- The connection is down, with the milestones `tail` since its last message. -/
structure Down (tail : List Call) (x : Ctx) : Prop where
  state : x.conn.state_ = .kDisconnected
  index : x.index ≠ kAdded
  events : x.events = kNoneEvent
  reached : x.Reached tail

lemma milestones_append {x y : Ctx} {l : List Call} (hc : y.calls = x.calls ++ l) :
    y.milestones = x.milestones ++ l.filter Call.isMilestone := by
  rw [milestones, hc, List.filter_append]
  rfl

lemma Reached.append {x y : Ctx} {tail l : List Call} (h : x.Reached tail)
    (hc : y.calls = x.calls ++ l) : y.Reached (tail ++ l.filter Call.isMilestone) := by
  obtain ⟨n, hn⟩ := h
  refine ⟨n, ?_⟩
  rw [milestones_append hc, hn, List.cons_append, List.cons_append, List.append_assoc]

lemma filter_isMilestone {l : List Call} (hl : ∀ c ∈ l, c.isMilestone = false) :
    l.filter Call.isMilestone = [] :=
  List.filter_eq_nil_iff.mpr fun c hcl => by simp [hl c hcl]

lemma Reached.same {x y : Ctx} {tail l : List Call} (h : x.Reached tail)
    (hc : y.calls = x.calls ++ l) (hl : ∀ c ∈ l, c.isMilestone = false) : y.Reached tail := by
  have h' := h.append hc
  rwa [filter_isMilestone hl, List.append_nil] at h'

/-- One message more. -/
lemma Reached.message {x y : Ctx} (h : x.Reached [])
    (hc : y.calls = x.calls ++ [.messageCallback]) : y.Reached [] := by
  obtain ⟨n, hn⟩ := h
  refine ⟨n + 1, ?_⟩
  rw [milestones_append hc, hn, List.replicate_succ']
  simp [Call.isMilestone]

/-! ### What the other functions keep -/

/-- Calls that are no milestones, and changes that keep the channel in the epoll set, keep a
connection up. -/
lemma Up.step {x y : Ctx} {l : List Call} (h : x.Up) (hc : y.calls = x.calls ++ l)
    (hl : ∀ c ∈ l, c.isMilestone = false ∧ c ≠ .connectDestroy)
    (hst : y.conn.state_ = .kConnected ∨ y.conn.state_ = .kDisconnectiong)
    (hi : y.index = kAdded) (he : y.events ≠ kNoneEvent) : y.Up where
  state := hst
  index := hi
  events := he
  reached := h.reached.same hc fun c hcl => (hl c hcl).1
  calls := by
    rw [hc, List.mem_append, not_or]
    exact ⟨h.calls, fun hm => (hl _ hm).2 rfl⟩

lemma Up.congr {x y : Ctx} (h : x.Up) (hst : y.conn.state_ = x.conn.state_)
    (hi : y.index = x.index) (he : y.events = x.events) (hc : y.calls = x.calls) : y.Up :=
  h.step (l := []) (by rw [hc, List.append_nil]) (by simp) (hst ▸ h.state) (hi ▸ h.index)
    (he ▸ h.events)

lemma Down.step {x y : Ctx} {tail l : List Call} (h : x.Down tail) (hc : y.calls = x.calls ++ l)
    (hl : ∀ c ∈ l, c.isMilestone = false) (hst : y.conn.state_ = .kDisconnected)
    (hi : y.index ≠ kAdded) (he : y.events = kNoneEvent) : y.Down tail where
  state := hst
  index := hi
  events := he
  reached := h.reached.same hc hl

lemma Down.congr {x y : Ctx} {tail : List Call} (h : x.Down tail)
    (hst : y.conn.state_ = x.conn.state_) (hi : y.index = x.index) (he : y.events = x.events)
    (hc : y.calls = x.calls) : y.Down tail :=
  h.step (l := []) (by rw [hc, List.append_nil]) (by simp) (hst ▸ h.state) (hi ▸ h.index)
    (he ▸ h.events)

lemma index_enableWriting {x : Ctx} (h : x.index = kAdded) : x.enableWriting.index = kAdded := by
  refine Channel.withEvents_index_of_ne _ _ _ _ h fun hnone => ?_
  exact mask_write_write x.events (by rw [events, hnone]; decide)

lemma events_enableWriting_ne (x : Ctx) : x.enableWriting.events ≠ kNoneEvent := by
  rw [events_enableWriting]
  intro hnone
  exact mask_write_write x.events (by rw [hnone]; decide)

lemma Up.bufferRest {x : Ctx} (rest : List Byte) (h : x.Up) : (x.bufferRest rest).Up := by
  have hc := calls_bufferRest rest x
  obtain ⟨y, hs, he⟩ := bufferRest_cases rest x
  rw [he, hs] at hc ⊢
  split_ifs at hc ⊢ with hw
  · exact h.step hc (by simp) h.state h.index h.events
  · exact h.step hc (by simp [Call.isMilestone]) h.state (index_enableWriting h.index)
      (events_enableWriting_ne _)

lemma channel_shutdownInLoop (x : Ctx) :
    x.shutdownInLoop.conn.channel_ = x.conn.channel_ ∧ x.shutdownInLoop.poller_ = x.poller_ := by
  unfold Ctx.shutdownInLoop
  simp only
  split_ifs <;> exact ⟨rfl, rfl⟩

lemma calls_shutdownInLoop_quiet (x : Ctx) :
    ∃ l, x.shutdownInLoop.calls = x.calls ++ l ∧
      ∀ c ∈ l, c.isMilestone = false ∧ c ≠ .connectDestroy := by
  refine ⟨_, calls_shutdownInLoop x, ?_⟩
  split_ifs <;> simp [Call.isMilestone]

/-- Calls of the user keep a connection up. -/
lemma closed_up : Closed Up where
  same hs h := by
    rw [hs]
    exact h.congr rfl rfl rfl rfl
  input _ h := h.congr rfl rfl rfl rfl
  sendInLoop {x} data res h := by
    rcases sendInLoop_cases data res x with ⟨he, -⟩ | ⟨taken, rest, y, -, -, -, hs, he⟩
    · rw [he]
      exact h.step (x.calls_log _) (by simp [Call.isMilestone]) h.state h.index h.events
    · have hy : y.Up := by
        rw [hs]
        exact h.congr rfl rfl rfl rfl
      have hz : (if rest = [] then y else y.bufferRest rest).Up := by
        split_ifs
        · exact hy
        · exact hy.bufferRest rest
      rw [he]
      exact hz.step (calls_log _ _) (by simp [Call.isMilestone]) hz.state hz.index hz.events
  disconnecting {x} _ h :=
    h.step (x.calls_log .shutdown) (by simp [Call.isMilestone]) (Or.inr rfl) h.index h.events
  shutdownInLoop {x} h := by
    obtain ⟨l, hc, hl⟩ := calls_shutdownInLoop_quiet x
    obtain ⟨hch, -⟩ := channel_shutdownInLoop x
    refine h.step hc hl ((shutdownInLoop_fields x).1 ▸ h.state) ?_ ?_
    · rw [index, hch]
      exact h.index
    · rw [events, hch]
      exact h.events

/-- Nothing the user does changes a connection that is down, or its poller. -/
lemma closed_down (tail : List Call) (p : EpollPoller ConnId) :
    Closed fun x => x.Down tail ∧ x.poller_ = p where
  same hs h := by
    rw [hs]
    exact ⟨h.1.congr rfl rfl rfl rfl, h.2⟩
  input _ h := ⟨h.1.congr rfl rfl rfl rfl, h.2⟩
  sendInLoop {x} data res h := by
    rw [Ctx.sendInLoop, if_pos h.1.state]
    exact ⟨h.1.step (x.calls_log _) (by simp [Call.isMilestone]) h.1.state h.1.index h.1.events,
      h.2⟩
  disconnecting hst h := by
    rw [h.1.state] at hst
    cases hst
  shutdownInLoop {x} h := by
    obtain ⟨l, hc, hl⟩ := calls_shutdownInLoop_quiet x
    obtain ⟨hch, hp⟩ := channel_shutdownInLoop x
    refine ⟨h.1.step hc (fun c hcl => (hl c hcl).1)
      ((shutdownInLoop_fields x).1.trans h.1.state) ?_ ?_, hp.trans h.2⟩
    · rw [index, hch]
      exact h.1.index
    · rw [events, hch]
      exact h.1.events

/-- A connection that is not established yet lets the user do nothing. -/
lemma Fresh.act {x : Ctx} (a : UserAct) (h : x.Fresh) : (x.act a).Fresh := by
  have hst : x.conn.state_ ≠ .kConnected := by rw [h.state]; decide
  cases a with
  | send data res =>
      rw [Ctx.act, send, if_neg hst]
      exact h
  | shutdown =>
      rw [Ctx.act, shutdown, if_neg hst]
      exact h
  | retrieve len => exact ⟨h.state, h.index, h.events, h.calls⟩

/-- The connection is connected and the user about to be told. -/
def raised (x : Ctx) : Ctx :=
  ((x.log .connectEstablished).setState .kConnected).tie.enableReading.log
    (.connectionCallback true)

lemma up_raised {x : Ctx} (h : x.Fresh) : x.raised.Up := by
  have hcalls : x.raised.calls =
      [.connectEstablished, .updateChannel, .connectionCallback true] := by
    have hnil : x.trace.map Prod.snd = [] := h.calls
    simp [raised, enableReading, tie, setState, onChannel, calls, log, hnil]
  have hev : x.raised.events = x.events ||| kReadEvent := Channel.withEvents_events _ _ _ _
  refine ⟨Or.inl rfl, Channel.withEvents_index_of_new _ _ _ _ h.index, ?_, ⟨0, ?_⟩, ?_⟩
  · rw [hev, h.events]
    decide
  · rw [milestones, hcalls]
    rfl
  · rw [hcalls]
    decide

/-- **Establishing.** -/
theorem up_connectEstablished {x : Ctx} (onUp : Script) (h : x.Fresh) :
    (x.connectEstablished onUp).Up := closed_up.runScript onUp (up_raised h)

/-! ### Staying up -/

lemma Up.disableWriting {x : Ctx} (hw : x.isWriting = true) (h : x.Up) : x.disableWriting.Up := by
  have hev : x.disableWriting.events ≠ kNoneEvent := by
    intro hnone
    have hdw := x.isWriting_disableWriting.trans hw
    rw [isWriting_iff, hnone] at hdw
    exact hdw (by decide)
  refine h.step (x.calls_log .updateChannel) (by simp [Call.isMilestone]) h.state ?_ hev
  refine Channel.withEvents_index_of_ne _ _ _ _ h.index ?_
  rw [events_disableWriting] at hev
  exact hev

lemma Up.drained {x : Ctx} (hw : x.isWriting = true) (h : x.Up) : x.drained.Up := by
  have hy : x.disableWriting.queueWriteComplete.Up :=
    closed_up.same (same_queueWriteComplete _) (h.disableWriting hw)
  unfold Ctx.drained
  simp only
  split_ifs
  · exact closed_up.shutdownInLoop hy
  · exact hy

lemma Up.handleWrite {x : Ctx} (res : WriteResult) (h : x.Up) : (x.handleWrite res).Up := by
  rcases handleWrite_cases res x with ⟨he, -⟩ | ⟨taken, rest, b, hw, -, -, -, he⟩
  · rw [he]
    exact h.step (x.calls_log _) (by simp [Call.isMilestone]) h.state h.index h.events
  · have hwrote : (x.wrote taken b).Up :=
      h.step (x.calls_wrote taken b) (by simp [Call.isMilestone]) h.state h.index h.events
    rw [he]
    split_ifs
    · exact hwrote.drained hw
    · exact hwrote

/-! ### Going down -/

/-- The connection is disconnected by the call `call` and the user about to be told. -/
def lowered (call : Call) (x : Ctx) : Ctx :=
  ((x.log call).setState .kDisconnected).disableAll.log (.connectionCallback false)

lemma calls_lowered (call : Call) (x : Ctx) :
    (x.lowered call).calls = x.calls ++ [call, .updateChannel, .connectionCallback false] := by
  simp [lowered, disableAll, setState, onChannel, calls, log]

lemma down_lowered {x : Ctx} (call : Call) (hcall : call.isMilestone = false) (h : x.Up) :
    (x.lowered call).Down [.connectionCallback false] := by
  refine ⟨rfl, ?_, Channel.disableAll_events _ _ _, ?_⟩
  · have hidx : (x.lowered call).index = kDeleted := Channel.disableAll_index _ _ _ h.index
    rw [hidx]
    exact kDeleted_ne_kAdded
  · have hreached := h.reached.append (calls_lowered call x)
    rw [List.filter_cons_of_neg (by rw [hcall]; decide)] at hreached
    exact hreached

/-- **Closing.** -/
theorem down_handleClose {x : Ctx} (onDown : Script) (h : x.Up) :
    (x.handleClose onDown).Down [.connectionCallback false, .closeCallback] := by
  obtain ⟨hz, -⟩ := (closed_down _ _).runScript onDown ⟨down_lowered .handleClose rfl h, rfl⟩
  exact ⟨hz.state, hz.index, hz.events, hz.reached.append (calls_log _ .closeCallback)⟩

lemma Down.remove {x : Ctx} {tail : List Call} (h : x.Down tail) : x.remove.Down tail := by
  refine h.step (calls_log _ .removeChannel) (by simp [Call.isMilestone]) h.state ?_ ?_
  · have hidx : x.remove.index = kNew := Channel.remove_index x.id x.conn.channel_ x.poller_
    rw [hidx]
    exact kNew_ne_kAdded
  · exact (Channel.remove_events x.id x.conn.channel_ x.poller_).trans h.events

lemma connectDestroy_connected {x : Ctx} (onDown : Script) (hst : x.conn.state_ = .kConnected) :
    x.connectDestroy onDown = ((x.lowered .connectDestroy).runScript onDown).remove := by
  unfold Ctx.connectDestroy
  simp only
  rw [if_pos (by exact hst)]
  rfl

/-- **Destroying** a connection that is connected. -/
theorem down_connectDestroy {x : Ctx} (onDown : Script) (h : x.Up)
    (hst : x.conn.state_ = .kConnected) :
    (x.connectDestroy onDown).Down [.connectionCallback false] := by
  obtain ⟨hz, -⟩ := (closed_down _ _).runScript onDown ⟨down_lowered .connectDestroy rfl h, rfl⟩
  rw [connectDestroy_connected onDown hst]
  exact hz.remove

/-! ### Staying down -/

lemma connectDestroy_eq {x : Ctx} (onDown : Script) (hst : x.conn.state_ ≠ .kConnected) :
    x.connectDestroy onDown = (x.log .connectDestroy).remove := by
  unfold Ctx.connectDestroy
  simp only
  rw [if_neg (by exact hst)]

/-- Destroying a connection that is down changes nothing the callbacks would show, nor the
epoll set. -/
lemma Down.connectDestroy {x : Ctx} {tail : List Call} (onDown : Script) (h : x.Down tail) :
    (x.connectDestroy onDown).Down tail ∧
      (x.connectDestroy onDown).poller_.epoll = x.poller_.epoll := by
  have hlog : (x.log .connectDestroy).Down tail :=
    h.step (calls_log _ _) (by simp [Call.isMilestone]) h.state h.index h.events
  rw [connectDestroy_eq onDown (by rw [h.state]; decide)]
  refine ⟨hlog.remove, ?_⟩
  exact EpollPoller.removeChannel_epoll (c := x.conn.channel_) h.index

lemma Down.handleWrite {x : Ctx} {tail : List Call} (res : WriteResult) (h : x.Down tail) :
    (x.handleWrite res).Down tail := by
  rcases handleWrite_cases res x with ⟨he, -⟩ | ⟨taken, rest, b, hw, -⟩
  · rw [he]
    exact h.step (x.calls_log _) (by simp [Call.isMilestone]) h.state h.index h.events
  · rw [isWriting_iff, h.events] at hw
    exact absurd hw (by decide)

/-- A connection that is down reads nothing, when `::readv` fails. -/
lemma Down.handleRead {x : Ctx} {tail : List Call} {res : ReadResult} (onMessage onDown : Script)
    (h : x.Down tail) (hres : ∀ bs, res ≠ .ok bs) :
    (x.handleRead res onMessage onDown).Down tail := by
  obtain ⟨b, ⟨-, he⟩ | ⟨hr, -⟩ | ⟨⟨bs, -, hr⟩, -⟩⟩ := handleRead_cases res onMessage onDown x
  · rw [he]
    exact h.step (x.calls_log .handleRead) (by simp [Call.isMilestone]) h.state h.index h.events
  · exact absurd hr (hres _)
  · exact absurd hr (hres _)

/-! ### Events -/

lemma quiet_noClose : Quiet fun x => .closeCallback ∉ x.out where
  log _ h := h
  queue f hf haux h := by
    intro hm
    rcases List.mem_append.mp hm with hm | hm
    · exact h hm
    · cases List.mem_singleton.mp hm
  setState _ h := h
  tie h := h
  onChannel _ h := h
  accept _ h := h
  shutWr h := h
  input _ h := h
  output _ h := h

/-- The connection is as before an event: up, and nothing closed. -/
def StillUp (x : Ctx) : Prop := x.Up ∧ .closeCallback ∉ x.out

lemma handleRead_life {x : Ctx} (res : ReadResult) (onMessage onDown : Script)
    (h : x.StillUp) :
    (x.handleRead res onMessage onDown).StillUp ∨
      (x.handleRead res onMessage onDown).Down [.connectionCallback false, .closeCallback] := by
  have hread : ∀ b, Up { x.log .handleRead with conn.inputBuffer_ := b } := fun b =>
    h.1.step (x.calls_log .handleRead) (by simp [Call.isMilestone]) h.1.state h.1.index h.1.events
  obtain ⟨b, ⟨-, he⟩ | ⟨-, he⟩ | ⟨-, he⟩⟩ := handleRead_cases res onMessage onDown x <;> rw [he]
  · exact Or.inl ⟨hread b, h.2⟩
  · exact Or.inr (down_handleClose onDown (hread b))
  · have hmsg : Up (log .messageCallback { x.log .handleRead with conn.inputBuffer_ := b }) :=
      ⟨h.1.state, h.1.index, h.1.events, (hread b).reached.message (calls_log _ _), by
        rw [calls_log, List.mem_append, not_or]
        exact ⟨(hread b).calls, by simp⟩⟩
    exact Or.inl ⟨closed_up.runScript onMessage hmsg, quiet_noClose.runScript onMessage h.2⟩

/-- **What an event does to a connection that is up**, unless the connection hangs up and is
read from in one event. -/
theorem handleEvent_life {x : Ctx} (env : EventEnv) (h : x.StillUp)
    (hok : Channel.hangsUp x.conn.channel_.revents_ = true →
      Channel.reads x.conn.channel_.revents_ = true → ∀ bs, env.read ≠ .ok bs) :
    (x.handleEvent env).StillUp ∨
      (x.handleEvent env).Down [.connectionCallback false, .closeCallback] := by
  have hwrite : ∀ y : Ctx,
      y.StillUp ∨ y.Down [.connectionCallback false, .closeCallback] →
      StillUp (if Channel.writes x.conn.channel_.revents_ then y.handleWrite env.write else y) ∨
        Down [.connectionCallback false, .closeCallback]
          (if Channel.writes x.conn.channel_.revents_ then y.handleWrite env.write else y) := by
    intro y hy
    split_ifs
    · exact hy.imp (fun hy => ⟨hy.1.handleWrite _, quiet_noClose.handleWrite _ hy.2⟩)
        (fun hy => hy.handleWrite _)
    · exact hy
  unfold Ctx.handleEvent
  simp only
  refine hwrite _ ?_
  by_cases hhup : Channel.hangsUp x.conn.channel_.revents_ = true
  · -- after the hang-up nothing is read
    have hdown := down_handleClose env.onHup h.1
    rw [if_pos hhup]
    split_ifs with hread
    · exact Or.inr (hdown.handleRead _ _ (hok hhup hread))
    · exact Or.inr hdown
  · rw [if_neg hhup]
    split_ifs
    · exact handleRead_life _ _ _ h
    · exact Or.inl h

end Ctx

end Reactor
