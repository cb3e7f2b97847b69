import Reactor.LifetimeSteps

/-!
A server without sub-loops: what its only loop and its poller know of the connections.

A connection is in `channels_` and in the epoll set from `connectEstablished` to
`connectDestroy`. Events come only before the functors of an iteration are run, so none is left
when a connection is destroyed; what is queued for it later finds it neither `kConnected` nor
registered.
-/

namespace Reactor

/-! ### Entries of `channels_` -/

/-- An operation of the channel `c` with pointer `ptr` changes the entry of its descriptor in
`channels_` only, and to one of its own. -/
structure SlotFrame (p : EpollPoller ConnId) (ptr : ConnId) (c : Channel)
    (p' : EpollPoller ConnId) : Prop where
  others : ∀ n ≠ c.fd_, p'.channels_ n = p.channels_ n
  own : p'.channels_ c.fd_ = p.channels_ c.fd_ ∨ p'.channels_ c.fd_ = none ∨
    p'.channels_ c.fd_ = some ptr

namespace EpollPoller

variable {p : EpollPoller ConnId} {ptr : ConnId} {c : Channel}

@[simp] lemma update_channels (op : CtlOp) :
    (p.update op ptr c).channels_ = p.channels_ := by
  unfold update
  split
  · rfl
  · split_ifs <;> rfl

lemma updateChannel_slot (ptr : ConnId) (c : Channel) (p : EpollPoller ConnId) :
    SlotFrame p ptr c (p.updateChannel ptr c).1 := by
  unfold updateChannel
  simp only
  split_ifs <;> constructor <;> simp +contextual [Function.update_of_ne]

lemma removeChannel_channels (ptr : ConnId) (c : Channel) (p : EpollPoller ConnId) :
    (p.removeChannel ptr c).1.channels_ = Function.update p.channels_ c.fd_ none := by
  unfold removeChannel
  simp only
  split_ifs <;> simp

end EpollPoller

lemma ChannelOp.apply_slot (op : ChannelOp) (ptr : ConnId) (c : Channel)
    (p : EpollPoller ConnId) : SlotFrame p ptr c (op.apply ptr c p).1 := by
  have hupd : ∀ f : Mask → Mask, SlotFrame p ptr c (Channel.withEvents f ptr c p).1 := by
    intro f
    obtain ⟨hothers, hown⟩ := EpollPoller.updateChannel_slot ptr { c with events_ := f c.events_ } p
    exact ⟨hothers, hown⟩
  cases op with
  | enableReading => exact hupd (· ||| kReadEvent)
  | disableReading => exact hupd (· &&& ~~~kReadEvent)
  | enableWriting => exact hupd (· ||| kWriteEvent)
  | disableWriting => exact hupd (· &&& ~~~kReadEvent)
  | disableAll => exact hupd fun _ => kNoneEvent
  | remove =>
      have hch := EpollPoller.removeChannel_channels ptr c p
      refine ⟨fun n hn => ?_, Or.inr (Or.inl ?_)⟩
      · exact (congrFun hch n).trans (Function.update_of_ne hn ..)
      · exact (congrFun hch c.fd_).trans (Function.update_self ..)

namespace Ctx

/-- What a member function leaves as it is, with the entries of `channels_`. -/
structure Slots (x y : Ctx) : Prop extends x.Frame y where
  slots : ∀ n ≠ x.fd, y.poller_.channels_ n = x.poller_.channels_ n
  slot : ∀ c, y.poller_.channels_ x.fd = some c → c = x.id ∨ x.poller_.channels_ x.fd = some c

lemma Slots.refl (x : Ctx) : x.Slots x := ⟨.refl x, fun _ _ => rfl, fun _ h => Or.inr h⟩

lemma Slots.of_frame {x y z : Ctx} (h : x.Slots y) (hf : x.Frame z) (hp : z.poller_ = y.poller_) :
    x.Slots z :=
  ⟨hf, fun n hn => hp ▸ h.slots n hn, fun c hc => h.slot c (hp ▸ hc)⟩

/-- The frame rule, for `channels_`. -/
lemma primitive_slots (x : Ctx) : Primitive x.Slots where
  log call h := h.of_frame ((primitive_frame x).log call h.toFrame) rfl
  queue f hf haux h := h.of_frame ((primitive_frame x).queue f hf haux h.toFrame) rfl
  setState state h := h.of_frame ((primitive_frame x).setState state h.toFrame) rfl
  tie h := h.of_frame ((primitive_frame x).tie h.toFrame) rfl
  onChannel {y} op h := by
    obtain ⟨hothers, hown⟩ := op.apply_slot y.id y.conn.channel_ y.poller_
    have hfd : y.conn.channel_.fd_ = x.fd := h.fd
    rw [hfd] at hothers hown
    refine ⟨(primitive_frame x).onChannel op h.toFrame, fun n hn => ?_, fun c hc => ?_⟩
    · exact (hothers n hn).trans (h.slots n hn)
    · rcases hown with hsame | hnone | hset
      · exact h.slot c (hsame.symm.trans hc)
      · cases hnone.symm.trans hc
      · exact Or.inl ((Option.some.inj (hset.symm.trans hc)).symm.trans h.id)
  accept bytes h := h.of_frame ((primitive_frame x).accept bytes h.toFrame) rfl
  shutWr h := h.of_frame ((primitive_frame x).shutWr h.toFrame) rfl
  input b h := h.of_frame ((primitive_frame x).input b h.toFrame) rfl
  output b h := h.of_frame ((primitive_frame x).output b h.toFrame) rfl
  close h := h.of_frame ((primitive_frame x).close h.toFrame) rfl

/-! ### Only `connectDestroy` destroys -/

/-- `connectDestroy` has not run. -/
def Undestroyed (x : Ctx) : Prop := .connectDestroy ∉ x.calls

lemma Undestroyed.step {x y : Ctx} {l : List Call} (h : x.Undestroyed) (hc : y.calls = x.calls ++ l)
    (hl : .connectDestroy ∉ l) : y.Undestroyed := by
  rw [Undestroyed, hc, List.mem_append, not_or]
  exact ⟨h, hl⟩

lemma closed_undestroyed : Closed Undestroyed where
  same hs h := by rw [hs]; exact h
  input _ h := h
  sendInLoop {x} data res h := by
    obtain ⟨updates, ok, hup, hc⟩ := calls_sendInLoop data res x
    rw [List.append_assoc] at hc
    refine h.step hc fun hm => ?_
    rcases List.mem_append.mp hm with hm | hm
    · cases hup _ hm
    · simp at hm
  disconnecting {x} _ h := h.step (x.calls_log .shutdown) (by simp)
  shutdownInLoop {x} h := h.step (calls_shutdownInLoop x) (by split_ifs <;> simp)

lemma Undestroyed.connectionCallback {x : Ctx} (acts : Script) (h : x.Undestroyed) :
    (x.connectionCallback acts).Undestroyed :=
  closed_undestroyed.runScript acts (h.step (calls_log _ _) (by simp))

lemma Undestroyed.connectEstablished {x : Ctx} (onUp : Script) (h : x.Undestroyed) :
    (x.connectEstablished onUp).Undestroyed := by
  have hc : ((((x.log .connectEstablished).setState .kConnected).tie).enableReading).calls =
      x.calls ++ [.connectEstablished, .updateChannel] := by
    simp [enableReading, tie, setState, onChannel, calls, log]
  exact (h.step hc (by simp)).connectionCallback onUp

lemma Undestroyed.handleClose {x : Ctx} (onDown : Script) (h : x.Undestroyed) :
    (x.handleClose onDown).Undestroyed := by
  have hlow : (x.lowered .handleClose).Undestroyed := h.step (calls_lowered _ _) (by simp)
  exact (closed_undestroyed.runScript onDown hlow).step (calls_log _ .closeCallback) (by simp)

lemma Undestroyed.handleRead {x : Ctx} (res : ReadResult) (onMessage onDown : Script)
    (h : x.Undestroyed) : (x.handleRead res onMessage onDown).Undestroyed := by
  have hread : ∀ b, Undestroyed { x.log .handleRead with conn.inputBuffer_ := b } := fun b =>
    h.step (x.calls_log .handleRead) (by simp)
  obtain ⟨b, ⟨-, he⟩ | ⟨-, he⟩ | ⟨-, he⟩⟩ := handleRead_cases res onMessage onDown x <;> rw [he]
  · exact hread b
  · exact (hread b).handleClose onDown
  · exact closed_undestroyed.runScript onMessage
      ((hread b).step (calls_log _ .messageCallback) (by simp))

lemma Undestroyed.handleWrite {x : Ctx} (res : WriteResult) (h : x.Undestroyed) :
    (x.handleWrite res).Undestroyed := by
  rcases handleWrite_cases res x with ⟨he, -⟩ | ⟨taken, rest, b, -, -, -, -, he⟩
  · rw [he]
    exact h.step (x.calls_log .handleWrite) (by simp)
  · have hwrote : (x.wrote taken b).Undestroyed := h.step (x.calls_wrote taken b) (by simp)
    rw [he]
    split_ifs
    · exact hwrote.step (calls_drained _) (by split_ifs <;> simp)
    · exact hwrote

lemma Undestroyed.handleEvent {x : Ctx} (env : EventEnv) (h : x.Undestroyed) :
    (x.handleEvent env).Undestroyed :=
  handleEvent_of (fun h => h.handleClose _) (fun h => h.handleRead _ _ _)
    (fun h => h.handleWrite _) h

/-! ### After `connectDestroy` -/

/-- A connection as `connectDestroy` leaves it: not connected, and unknown to the poller. -/
structure Spent (x : Ctx) : Prop where
  state : x.conn.state_ ≠ .kConnected
  index : x.index = kNew

lemma Spent.alike {x y : Ctx} (h : x.Spent) (hy : ∃ r, y.conn = x.conn.set_revents r) :
    y.Spent := by
  obtain ⟨r, hr⟩ := hy
  refine ⟨?_, ?_⟩
  · rw [hr]
    exact h.state
  · rw [Ctx.index, hr]
    exact h.index

lemma remove_channels (x : Ctx) :
    x.remove.poller_.channels_ = Function.update x.poller_.channels_ x.fd none :=
  EpollPoller.removeChannel_channels x.id x.conn.channel_ x.poller_

/-- What `connectDestroy` ends with. -/
lemma connectDestroy_ends (onDown : Script) (x : Ctx) :
    ∃ y : Ctx, y.conn.state_ ≠ .kConnected ∧ x.Slots y ∧ x.connectDestroy onDown = y.remove := by
  have hslots := primitive_slots x
  by_cases hst : x.conn.state_ = .kConnected
  · have hlow : x.Slots (x.lowered .connectDestroy) :=
      hslots.log _ (hslots.steady.disableAll (hslots.setState _ (hslots.log _ (.refl x))))
    have hdown : (x.lowered .connectDestroy).conn.state_ ≠ .kConnected := by
      change StateE.kDisconnected ≠ _
      decide
    refine ⟨(x.lowered .connectDestroy).runScript onDown, ?_, hslots.runScript onDown hlow,
      connectDestroy_connected onDown hst⟩
    obtain ⟨b, hb⟩ := runScript_eq onDown hdown
    rw [hb]
    exact hdown
  · exact ⟨x.log .connectDestroy, hst, hslots.log _ (.refl x), connectDestroy_eq onDown hst⟩

/-- **`connectDestroy` spends the connection**, and takes its descriptor out of `channels_`. -/
theorem spent_connectDestroy (onDown : Script) (x : Ctx) :
    (x.connectDestroy onDown).Spent ∧
      (x.connectDestroy onDown).poller_.channels_ x.fd = none := by
  obtain ⟨y, hst, hy, he⟩ := connectDestroy_ends onDown x
  rw [he]
  refine ⟨⟨hst, Channel.remove_index y.id y.conn.channel_ y.poller_⟩, ?_⟩
  have hfd : y.fd = x.fd := hy.fd
  rw [remove_channels, hfd, Function.update_self]

/-- A connection that is spent has nothing in the epoll set to take out. -/
lemma Spent.connectDestroy_epoll {x : Ctx} (h : x.Spent) (onDown : Script) :
    (x.connectDestroy onDown).poller_.epoll = x.poller_.epoll := by
  rw [connectDestroy_eq onDown h.state]
  refine EpollPoller.removeChannel_epoll (c := x.conn.channel_) ?_
  have hidx : x.conn.channel_.index_ = kNew := h.index
  rw [hidx]
  exact kNew_ne_kAdded

end Ctx

namespace ServerSys

variable {conf : ServerConf} {s s' : ServerSys} {c : ConnId}

/-- The functors that a loop with no other loop beside it has to run. -/
def Plain (f : Functor) : Prop := f = .connectDestroy f.conn ∨ f.isAux = true ∧ f.owns = true

/-- **What the only loop knows of the connections.** -/
structure Solo (s : ServerSys) : Prop where
  loop_ : ∀ c, s.Made c → (s.conn c).loop_ = 0
  polled : s.Polled
  channels : ∀ n c, (s.loops 0).poller_.channels_ n = some c →
    s.Made c ∧ ¬ s.destroyed c ∧ (s.conn c).channel_.fd_ = n
  spent : ∀ c, s.Made c → s.destroyed c → (s.view c).Spent
  active : ∀ c, .conn c ∈ (s.loops 0).active → ¬ s.destroyed c
  acceptor : .acceptor ∈ (s.loops 0).active → s.phase = .alive
  jobs : ∀ f ∈ (s.loops 0).jobs, Plain f
  /-- `connectDestroy` is queued while the events of an iteration are handled -/
  pending : ∀ c, .connectDestroy c ∈ (s.loops 0).pendingFuntors_ →
    ∃ active, (s.loops 0).pc = .handling active
  quit : (s.loops 0).quit_ = true → (s.loops 0).pc = .returned
  ended : s.phase.ended = true → s.phase = .gone

lemma solo_new : new.Solo where
  loop_ c hc := absurd (Nat.lt_of_le_of_lt hc.1 hc.2) (Nat.lt_irrefl 1)
  polled := polled_new
  channels _ _ h := by cases h
  spent c hc := absurd (Nat.lt_of_le_of_lt hc.1 hc.2) (Nat.lt_irrefl 1)
  active _ h := absurd h List.not_mem_nil
  acceptor h := absurd h List.not_mem_nil
  jobs _ h := absurd h List.not_mem_nil
  pending _ h := absurd h List.not_mem_nil
  quit h := by cases h
  ended h := by cases h

/-- The loop or the server moves on, and no member function runs. -/
lemma Solo.turn (h : s.Solo) (hnext : s'.nextConnId_ = s.nextConnId_)
    (hconn : ∀ c, ∃ r, s'.conn c = (s.conn c).set_revents r) (htrace : s'.trace = s.trace)
    (hpoller : ∀ t, (s'.loops t).poller_ = (s.loops t).poller_)
    (hactive : ∀ c, .conn c ∈ (s'.loops 0).active → ¬ s.destroyed c)
    (hacceptor : .acceptor ∈ (s'.loops 0).active → s'.phase = .alive)
    (hjobs : (s'.loops 0).jobs ⊆ (s.loops 0).jobs)
    (hpending : ∀ c, .connectDestroy c ∈ (s'.loops 0).pendingFuntors_ →
      ∃ active, (s'.loops 0).pc = .handling active)
    (hquit : (s'.loops 0).quit_ = true → (s'.loops 0).pc = .returned)
    (hended : s'.phase.ended = true → s'.phase = .gone) : s'.Solo := by
  have hdes : ∀ c, s'.destroyed c ↔ s.destroyed c := fun c => by rw [destroyed, destroyed, htrace]
  refine ⟨fun c hc => ?_, h.polled.congr hnext hconn htrace hpoller, fun n c hc => ?_,
    fun c hc hd => ?_, fun c hc => ?_, hacceptor, fun f hf => h.jobs f (hjobs hf), hpending, hquit,
    hended⟩
  · obtain ⟨r, hr⟩ := hconn c
    rw [hr]
    exact h.loop_ c ((made_congr hnext c).mp hc)
  · obtain ⟨r, hr⟩ := hconn c
    rw [hpoller] at hc
    rw [made_congr hnext, hdes, hr]
    exact h.channels n c hc
  · exact (h.spent c ((made_congr hnext c).mp hc) ((hdes c).mp hd)).alike (hconn c)
  · rw [hdes]
    exact hactive c hc

/-- The loop moves on. -/
lemma Solo.setLoop {l : LoopThread} (h : s.Solo) (hpoller : l.poller_ = (s.loops 0).poller_)
    (hactive : l.active ⊆ (s.loops 0).active) (hjobs : l.jobs ⊆ (s.loops 0).jobs)
    (hpending : ∀ c, .connectDestroy c ∈ l.pendingFuntors_ → ∃ active, l.pc = .handling active)
    (hquit : l.quit_ = true → l.pc = .returned) : (s.setLoop 0 l).Solo := by
  refine h.turn rfl (fun c => ⟨_, rfl⟩) rfl (fun t => ?_) (fun c hc => ?_) (fun hm => ?_) ?_ ?_ ?_
    h.ended
  · rw [setLoop_loops]
    split_ifs with ht
    · rw [ht, hpoller]
    · rfl
  · rw [setLoop_self] at hc
    exact h.active c (hactive hc)
  · rw [setLoop_self] at hm
    exact h.acceptor (hactive hm)
  · rw [setLoop_self]
    exact hjobs
  · rw [setLoop_self]
    exact hpending
  · rw [setLoop_self]
    exact hquit

/-- No `connectDestroy` is pending but while events are handled. -/
lemma Solo.setPc {pc : ThreadPc} (h : s.Solo) (hactive : pc.active ⊆ (s.loops 0).active)
    (hbatch : pc.batch ⊆ (s.loops 0).pc.batch)
    (hpc : (∃ active, pc = .handling active) ∨ ∀ active, (s.loops 0).pc ≠ .handling active)
    (hret : (s.loops 0).pc ≠ .returned) : (s.setPc 0 pc).Solo := by
  refine h.setLoop rfl hactive ?_ (fun c hc => ?_) fun hq => absurd (h.quit hq) hret
  · exact List.append_subset.mpr ⟨fun f hf => List.mem_append_left _ (hbatch hf),
      List.subset_append_right _ _⟩
  · rcases hpc with hpc | hpc
    · exact hpc
    · obtain ⟨active, ha⟩ := h.pending c hc
      exact absurd ha (hpc active)

/-! ### Member functions -/

/-- A member function, provided it leaves the epoll set and the entry under its own descriptor
in order. -/
lemma Solo.member {op : Ctx → Ctx} (h : s.Solo) (hc : s.Made c)
    (hs : (s.ctx c 0).Slots (op (s.ctx c 0))) (hpolled : (s.withConn c 0 op).Polled)
    (hslot : ∀ d, (op (s.ctx c 0)).poller_.channels_ (s.ctx c 0).fd = some d →
      ¬ (s.withConn c 0 op).destroyed d)
    (hspent : (s.withConn c 0 op).destroyed c → (op (s.ctx c 0)).Spent)
    (hactive : .conn c ∈ (s.loops 0).active → ¬ (s.withConn c 0 op).destroyed c)
    (hout : ∀ f, .queueInloop f ∈ (op (s.ctx c 0)).out → f.owns = true)
    (hclose : .closeCallback ∈ (op (s.ctx c 0)).out → ∃ active, (s.loops 0).pc = .handling active) :
    (s.withConn c 0 op).Solo := by
  have hf := hs.toFrame
  have hy := applied_withConn hf
  have hmade := made_congr hy.nextConnId_
  have hpoller : ((s.withConn c 0 op).loops 0).poller_ = (op (s.ctx c 0)).poller_ := by
    rw [hy.poller_, if_pos (h.loop_ c hc).symm]
  have hold : (s.ctx c 0).poller_ = (s.loops 0).poller_ := by
    rw [ctx, h.loop_ c hc]
  have haux : ∀ f, .queueInloop f ∈ (op (s.ctx c 0)).out → f.isAux = true := by
    intro f hq
    obtain ⟨l, hl, hof⟩ := hf.out
    rw [hl, ctx, List.nil_append] at hq
    exact (hof _ hq).2
  refine ⟨fun d hd => ?_, hpolled, fun n d hd => ?_, fun d hd hdd => ?_, fun d hd => ?_,
    fun hm => ?_, fun f hfj => ?_, fun d hd => ?_, ?_, hy.phase ▸ h.ended⟩
  · have hloop := (later_withConn hf).loop_ d ((hmade d).mp hd).2
    exact hloop.trans (h.loop_ d ((hmade d).mp hd))
  · rw [hpoller] at hd
    rw [hmade, hy.fd hf]
    by_cases hn : n = (s.ctx c 0).fd
    · subst hn
      refine ⟨?_, hslot d hd, ?_⟩ <;> rcases hs.slot d hd with rfl | hd
      · exact hc
      · exact (h.channels _ d (hold ▸ hd)).1
      · rfl
      · exact (h.channels _ d (hold ▸ hd)).2.2
    · rw [hs.slots n hn, hold] at hd
      obtain ⟨hdm, hdd, hfd⟩ := h.channels n d hd
      have hne : d ≠ c := by
        rintro rfl
        exact hn hfd.symm
      rw [hy.destroyed_of_ne hne]
      exact ⟨hdm, hdd, hfd⟩
  · rcases eq_or_ne d c with rfl | hne
    · exact (hspent hdd).alike ⟨_, hy.conn_self⟩
    · have hold := h.spent d ((hmade d).mp hd) ((hy.destroyed_of_ne hne).mp hdd)
      exact hold.alike ⟨_, hy.conn_of_ne hne⟩
  · rw [hy.active] at hd
    rcases eq_or_ne d c with rfl | hne
    · exact hactive hd
    · rw [hy.destroyed_of_ne hne]
      exact h.active d hd
  · rw [hy.active] at hm
    exact hy.phase.trans (h.acceptor hm)
  · rw [LoopThread.jobs, hy.pc] at hfj
    rcases List.mem_append.mp hfj with hfj | hfj
    · exact h.jobs f (List.mem_append_left _ hfj)
    · rcases mem_pending_withConn.mp hfj with hfj | ⟨-, hq⟩ | ⟨-, -, rfl⟩
      · exact h.jobs f (List.mem_append_right _ hfj)
      · exact Or.inr ⟨haux f hq, hout f hq⟩
      · exact Or.inl rfl
  · rw [hy.pc]
    rcases mem_pending_withConn.mp hd with hd | ⟨-, hq⟩ | ⟨-, hq, -⟩
    · exact h.pending d hd
    · cases haux _ hq
    · exact hclose hq
  · rw [hy.quit_, hy.pc]
    exact h.quit

/-- **A member function of a connection not yet destroyed**, which does not destroy it. -/
lemma Solo.live {op : Ctx → Ctx} (h : s.Solo) (hp : s.Placed) (hc : s.Made c)
    (hlive : ¬ s.destroyed c) (hs : (s.ctx c 0).Slots (op (s.ctx c 0)))
    (hun : (s.ctx c 0).Undestroyed → (op (s.ctx c 0)).Undestroyed)
    (hhere : (s.ctx c 0).Here → (op (s.ctx c 0)).Here)
    (hclose : .closeCallback ∈ (op (s.ctx c 0)).out → ∃ active, (s.loops 0).pc = .handling active) :
    (s.withConn c 0 op).Solo := by
  have hf := hs.toFrame
  have hy := applied_withConn hf
  have hlive' : ¬ (s.withConn c 0 op).destroyed c := mt hy.destroyed_self.mp (hun hlive)
  have hpolled : (s.withConn c 0 op).Polled :=
    h.polled.applied hp hc hf hy hlive fun hd => absurd hd (hun hlive)
  have hin : (s.ctx c 0).Here :=
    ⟨decide_eq_true (h.loop_ c hc), fun _ hq => absurd hq List.not_mem_nil⟩
  refine h.member hc hs hpolled (fun d hd => ?_) (fun hd => absurd hd hlive') (fun _ => hlive')
    (hhere hin).owns hclose
  rcases hs.slot d hd with rfl | hd
  · exact hlive'
  · rcases eq_or_ne d c with rfl | hne
    · exact hlive'
    · rw [ctx, h.loop_ c hc] at hd
      rw [hy.destroyed_of_ne hne]
      exact (h.channels _ d hd).2.1

/-- A callback on a connection that has been destroyed. -/
lemma Solo.late {op : Ctx → Ctx} (h : s.Solo) (hc : s.Made c) (hd : s.destroyed c)
    (hs : (s.ctx c 0).Slots (op (s.ctx c 0)))
    (hop : ∃ b, op (s.ctx c 0) = { s.ctx c 0 with conn.inputBuffer_ := b }) :
    (s.withConn c 0 op).Solo := by
  obtain ⟨b, hb⟩ := hop
  have hf := hs.toFrame
  have hy := applied_withConn hf
  have hpolled : (s.withConn c 0 op).Polled :=
    h.polled.applied_destroyed hf hy hd (by rw [hb]; rfl)
  have hspent := h.spent c hc hd
  refine h.member hc hs hpolled (fun d hslot => ?_) (fun _ => ?_) (fun ha => ?_) (fun f hq => ?_)
    fun hq => ?_
  · rw [hb, ctx, h.loop_ c hc] at hslot
    obtain ⟨-, hdd, -⟩ := h.channels _ d hslot
    have hne : d ≠ c := fun he => hdd (he ▸ hd)
    rw [hy.destroyed_of_ne hne]
    exact hdd
  · rw [hb]
    exact ⟨hspent.state, hspent.index⟩
  · exact absurd hd (h.active c ha)
  · rw [hb] at hq
    exact absurd hq List.not_mem_nil
  · rw [hb] at hq
    exact absurd hq List.not_mem_nil

/-- **`connectDestroy`**, the first time or again, when no event is left. -/
lemma Solo.destroys (h : s.Solo) (hp : s.Placed) (hc : s.Made c) (onDown : Script)
    (hidle : (s.loops 0).active = []) : (s.withConn c 0 (Ctx.connectDestroy onDown)).Solo := by
  have hs := (Ctx.primitive_slots _).connectDestroy onDown (.refl (s.ctx c 0))
  have hf := hs.toFrame
  have hy := applied_withConn hf
  obtain ⟨hspent, hslot⟩ := Ctx.spent_connectDestroy onDown (s.ctx c 0)
  have hpolled : (s.withConn c 0 (Ctx.connectDestroy onDown)).Polled := by
    by_cases hd : s.destroyed c
    · have hsp := h.spent c hc hd
      have hsp' : (s.ctx c 0).Spent := ⟨hsp.state, hsp.index⟩
      exact h.polled.applied_destroyed hf hy hd (hsp'.connectDestroy_epoll onDown)
    · refine h.polled.applied hp hc hf hy hd fun _ => ?_
      rw [hspent.index]
      exact kNew_ne_kAdded
  have hout := Ctx.out_connectDestroy onDown (s.ctx c 0)
  refine h.member hc hs hpolled (fun d hd => ?_) (fun _ => hspent) (fun ha => ?_) (fun f hq => ?_)
    fun hq => ?_
  · cases hslot.symm.trans hd
  · rw [hidle] at ha
    cases ha
  · rw [hout] at hq
    exact absurd hq List.not_mem_nil
  · rw [hout] at hq
    exact absurd hq List.not_mem_nil

/-- A callback of the user, or a functor of a callback. -/
lemma Solo.script (h : s.Solo) (hp : s.Placed) (hc : s.Made c) (acts : Script) :
    (s.withConn c 0 (Ctx.runScript acts)).Solo := by
  have hs := (Ctx.primitive_slots _).runScript acts (.refl (s.ctx c 0))
  by_cases hd : s.destroyed c
  · exact h.late hc hd hs (Ctx.runScript_eq acts (h.spent c hc hd).state)
  · refine h.live hp hc hd hs (Ctx.closed_undestroyed.runScript acts)
      (Ctx.steady_here.runScript acts) fun hq => ?_
    exact absurd hq (Ctx.quiet_noClose.runScript acts (noClose_ctx _ _ _))

/-! ### A new connection -/

lemma getNextLoop_solo (h0 : conf.numThreads_ = 0) (next : ℕ) :
    getNextLoop conf next = (0, next) := if_pos h0

lemma Solo.addConnection {sockfd : ℕ} (h : s.Solo) (h0 : conf.numThreads_ = 0) (hp : s.Placed)
    (hfree : s.FreeFd sockfd) : (addConnection conf sockfd s).Solo := by
  have hdes : ∀ {d}, s.Made d →
      ((ServerSys.addConnection conf sockfd s).destroyed d ↔ s.destroyed d) := by
    intro d hd
    rw [ServerSys.destroyed, ServerSys.destroyed, addConnection_trace hd]
  have hnew : ¬ (ServerSys.addConnection conf sockfd s).destroyed s.nextConnId_ := by
    rw [ServerSys.destroyed, addConnection_trace_new]
    exact List.not_mem_nil
  refine ⟨fun d hd => ?_, h.polled.addConnection hp hfree, fun n d hd => ?_, fun d hd hdd => ?_,
    fun d hd => ?_, h.acceptor, h.jobs, h.pending, h.quit, h.ended⟩
  · rcases made_addConnection hd with hd | rfl
    · rw [addConnection_conn hd]
      exact h.loop_ d hd
    · rw [addConnection_conn_new]
      exact congrArg Prod.fst (getNextLoop_solo h0 s.next_)
  · obtain ⟨hmade, hdd, hfd⟩ := h.channels n d hd
    rw [hdes hmade, addConnection_conn hmade]
    exact ⟨hmade.addConnection sockfd, hdd, hfd⟩
  · rcases made_addConnection hd with hd | rfl
    · exact (h.spent d hd ((hdes hd).mp hdd)).alike ⟨_, addConnection_conn hd sockfd⟩
    · exact absurd hdd hnew
  · rw [hdes (hp.active 0 d hd).1]
    exact h.active d hd

lemma Solo.newConnection {sockfd : ℕ} {onUp : Script} (h : s.Solo) (h0 : conf.numThreads_ = 0)
    (hp : s.Placed) (halive : s.phase = .alive) (hfree : s.FreeFd sockfd) :
    (newConnection conf sockfd onUp s).Solo := by
  have hadd := h.addConnection h0 hp hfree
  have hnew : ¬ (ServerSys.addConnection conf sockfd s).destroyed s.nextConnId_ := by
    rw [ServerSys.destroyed, addConnection_trace_new]
    exact List.not_mem_nil
  unfold ServerSys.newConnection
  simp only
  rw [if_pos (congrArg Prod.fst (getNextLoop_solo h0 s.next_))]
  refine hadd.live (hp.addConnection halive sockfd) ⟨hp.next, Nat.lt_succ_self _⟩ hnew
    ((Ctx.primitive_slots _).connectEstablished onUp (.refl _))
    (fun hun => hun.connectEstablished onUp) (Ctx.steady_here.connectEstablished onUp) fun hq => ?_
  exact absurd hq (Ctx.quiet_noClose.connectEstablished onUp (noClose_ctx _ _ _))

/-! ### Steps -/

lemma runs_zero {t : LoopId} (h0 : conf.numThreads_ = 0) (hrun : s.Runs conf t) : t = 0 := by
  by_contra ht
  rw [Runs, if_neg ht, h0] at hrun
  exact ht (Nat.le_zero.mp hrun)

/-- The loop goes on to the next event. -/
lemma Solo.tail {e : ActiveChannel} {active : List ActiveChannel} (h : s.Solo)
    (hpc : (s.loops 0).pc = .handling (e :: active)) : (s.setPc 0 (.handling active)).Solo := by
  refine h.setPc ?_ (List.nil_subset _) (Or.inl ⟨active, rfl⟩) (by simp [hpc])
  rw [LoopThread.active, hpc]
  exact List.subset_cons_self ..

/-- The loop goes on to the next functor. -/
lemma Solo.rest {f : Functor} {batch : List Functor} (h : s.Solo)
    (hpc : (s.loops 0).pc = .functors (f :: batch)) : (s.setPc 0 (.functors batch)).Solo := by
  refine h.setPc (List.nil_subset _) ?_ (Or.inr (by simp [hpc])) (by simp [hpc])
  rw [hpc]
  exact List.subset_cons_self ..

lemma Solo.head {f : Functor} {batch : List Functor} (h : s.Solo)
    (hpc : (s.loops 0).pc = .functors (f :: batch)) : Plain f := by
  refine h.jobs f ?_
  rw [LoopThread.jobs, hpc]
  exact List.mem_cons_self ..

/-- An owning functor of a callback runs a script. -/
lemma auxOp_script {env : FunctorEnv} {f : Functor} (hown : f.owns = true) :
    auxOp env f = Ctx.runScript env.acts := by
  cases f <;> first | rfl | cases hown

/-- **A step of a server without sub-loops.** -/
theorem Solo.trans {a : ServerAct} (h : s.Solo) (h0 : conf.numThreads_ = 0) (hp : s.Placed)
    (hph : s.Phased) (ht : Trans conf s a s') (hcall : ∀ t c act, a = .userCall t c act → t = 0) :
    s'.Solo := by
  cases ht with
  | leaves hrun hpc hquit =>
      cases runs_zero h0 hrun
      rw [h.quit hquit] at hpc
      cases hpc
  | waits hrun hpc hquit =>
      cases runs_zero h0 hrun
      exact h.setPc (List.nil_subset _) (List.nil_subset _) (Or.inr (by simp [hpc]))
        (by simp [hpc])
  | @polls t ready hrun hpc hready =>
      cases runs_zero h0 hrun
      obtain ⟨conn, he, hr⟩ := fillActiveChannels_eq 0 ready s
      rw [he]
      refine h.turn rfl hr rfl (fun t => setPc_poller 0 t _) (fun c hc => ?_) (fun hm => ?_) ?_
        (fun c _ => ?_) (fun hq => ?_) h.ended
      · -- what is reported is in the epoll set
        rw [active_setPc, if_pos rfl] at hc
        obtain ⟨n, m, hent⟩ := mem_activeOf hc
        exact (h.polled.ref 0 n m c hent).1
      · rw [active_setPc, if_pos rfl] at hm
        obtain ⟨r, hr, he⟩ := List.mem_filterMap.mp hm
        cases r with
        | acceptor => exact (decide_eq_true_iff.mp (hready.2 _ hr)).2
        | fd n revents => simp [activeOf] at he
      · rw [jobs_setPc, if_pos rfl]
        exact List.subset_append_right _ _
      · rw [setPc_pc, if_pos rfl]
        exact ⟨_, rfl⟩
      · rw [setPc_quit] at hq
        have hret : (s.loops 0).pc = .returned := h.quit hq
        rw [hpc] at hret
        cases hret
  | accepts hpc halive hfd hid =>
      exact (h.tail hpc).newConnection h0 (hp.tail hpc) halive hfd
  | acceptFails hrun hpc => exact h.tail hpc
  | @handles t env c active hrun hpc =>
      cases runs_zero h0 hrun
      have hlive : ¬ s.destroyed c := by
        refine h.active c ?_
        rw [LoopThread.active, hpc]
        exact List.mem_cons_self ..
      refine (h.tail hpc).live (hp.tail hpc) (hp.report hpc).1 hlive
        ((Ctx.primitive_slots _).handleEvent env (.refl _)) (fun hun => hun.handleEvent env)
        (Ctx.steady_here.handleEvent env) fun _ => ?_
      rw [setPc_pc, if_pos rfl]
      exact ⟨active, rfl⟩
  | swaps hrun hpc =>
      cases runs_zero h0 hrun
      refine h.setLoop rfl (List.nil_subset _) ?_ (fun c hc => ?_) fun hq => ?_
      · rw [LoopThread.jobs, LoopThread.jobs, hpc, ThreadPc.batch, List.append_nil]
        exact List.subset_append_right _ _
      · cases hc
      · have hret : (s.loops 0).pc = .returned := h.quit hq
        rw [hpc] at hret
        cases hret
  | establishes hrun hpc =>
      cases runs_zero h0 hrun
      rcases h.head hpc with he | ⟨he, -⟩ <;> cases he
  | @destroys t env c batch hrun hpc =>
      cases runs_zero h0 hrun
      refine (h.rest hpc).destroys (hp.rest hpc) (hp.head hpc).1 env.acts ?_
      rw [active_setPc, if_pos rfl]
      rfl
  | removes hrun hpc halive =>
      cases runs_zero h0 hrun
      rcases h.head hpc with he | ⟨he, -⟩ <;> cases he
  | @runs t env f batch hrun hpc haux =>
      cases runs_zero h0 hrun
      have hown : f.owns = true := by
        rcases h.head hpc with he | ⟨-, hown⟩
        · rw [he] at haux
          cases haux
        · exact hown
      rw [auxOp_script hown]
      exact (h.rest hpc).script (hp.rest hpc) (hp.head hpc).1 env.acts
  | endsBatch hrun hpc =>
      cases runs_zero h0 hrun
      exact h.setPc (List.nil_subset _) (List.nil_subset _) (Or.inr (by simp [hpc]))
        (by simp [hpc])
  | @userCalls t c act hc =>
      cases hcall t c act rfl
      exact h.script hp hc [act]
  | beginsDestroy halive hpc =>
      refine h.turn rfl (fun c => ⟨_, rfl⟩) rfl (fun _ => rfl) h.active (fun hm => ?_)
        (fun _ hf => hf) h.pending h.quit fun hended => ?_
      · change .acceptor ∈ (s.loops 0).active at hm
        rw [LoopThread.active, hpc] at hm
        cases hm
      · cases hended
  | @destroysHere e onDown left hphase he hloop =>
      have h' : Solo { s with phase := .destroying (left.erase e) } := by
        refine h.turn rfl (fun c => ⟨_, rfl⟩) rfl (fun _ => rfl) h.active (fun hm => ?_)
          (fun _ hf => hf) h.pending h.quit fun hended => ?_
        · cases hphase.symm.trans (h.acceptor hm)
        · cases hended
      have hp' : Placed { s with phase := .destroying (left.erase e) } :=
        hp.setPhase _ s.connections_ (by
          rw [entries_destroying hphase]
          exact List.erase_subset)
      have hc : s.Made e.2 := hp.entries e (entries_destroying hphase ▸ he)
      refine h'.destroys hp' hc onDown ?_
      have hpc := hph.idle (by simp [hphase]) (by simp [hphase])
      change (s.loops 0).active = []
      rw [LoopThread.active, hpc]
      rfl
  | @destroysThere e onDown left hphase he hloop =>
      exact absurd (h.loop_ _ (hp.entries e (entries_destroying hphase ▸ he))) hloop
  | destroysMembers hphase =>
      refine h.turn rfl (fun c => ⟨_, rfl⟩) rfl (fun _ => rfl) h.active (fun hm => ?_)
        (fun _ hf => hf) h.pending h.quit fun _ => if_pos h0
      cases hphase.symm.trans (h.acceptor hm)
  | quits hphase =>
      have hgone := h.ended (by rw [hphase]; rfl)
      rw [hphase] at hgone
      cases hgone
  | joins hphase hpc =>
      have hgone := h.ended (by rw [hphase]; rfl)
      rw [hphase] at hgone
      cases hgone

/-! ### Connections to destroy -/

/-- Only `accept` makes a connection. -/
lemma Trans.nextConnId {a : ServerAct} (ht : Trans conf s a s')
    (ha : ∀ sockfd onUp, a ≠ .accept sockfd onUp) : s'.nextConnId_ = s.nextConnId_ := by
  have hprim := fun x => Ctx.primitive_frame x
  cases ht with
  | accepts => exact absurd rfl (ha _ _)
  | @polls t ready hrun hpc hready =>
      obtain ⟨conn, he, -⟩ := fillActiveChannels_eq t ready s
      rw [he]
      rfl
  | handles hrun hpc => exact nextConnId_withConn ((hprim _).handleEvent _ (.refl _))
  | establishes hrun hpc => exact nextConnId_withConn ((hprim _).connectEstablished _ (.refl _))
  | destroys hrun hpc => exact nextConnId_withConn ((hprim _).connectDestroy _ (.refl _))
  | runs hrun hpc haux => exact nextConnId_withConn (frame_auxOp _ _ _)
  | userCalls hc => exact nextConnId_withConn ((hprim _).act _ (.refl _))
  | destroysHere hphase he hloop =>
      exact nextConnId_withConn ((hprim _).connectDestroy _ (.refl _))
  | leaves | waits | acceptFails | swaps | removes | endsBatch | beginsDestroy | destroysThere |
    destroysMembers | quits | joins => rfl

/-- The connection is in the table, or a `connectDestroy` of it is queued. -/
def ToDestroy (c : ConnId) (s : ServerSys) : Prop :=
  s.Held c ∨ .connectDestroy c ∈ (s.loops 0).jobs

/-- A connection just made is in the table. -/
lemma held_newConnection {sockfd : ℕ} {onUp : Script} (h0 : conf.numThreads_ = 0)
    (halive : s.phase = .alive) : (newConnection conf sockfd onUp s).Held s.nextConnId_ := by
  unfold ServerSys.newConnection
  simp only
  rw [if_pos (congrArg Prod.fst (getNextLoop_solo h0 s.next_))]
  exact (held_addConnection halive sockfd).of_entries
    (entries_withConn ((Ctx.primitive_frame _).connectEstablished onUp (.refl _))
      (Ctx.quiet_noClose.connectEstablished onUp (noClose_ctx _ _ _)))

/-- An event leaves its connection in the table, or closes it. -/
lemma Held.handles {env : EventEnv} {active : List ActiveChannel} (h : s.Held c) :
    ((s.setPc 0 (.handling active)).withConn c 0 (Ctx.handleEvent env)).ToDestroy c := by
  by_cases hclose : .closeCallback ∈ (((s.setPc 0 (.handling active)).ctx c 0).handleEvent env).out
  · right
    exact List.mem_append_right _
      (mem_pending_withConn.mpr (Or.inr (Or.inr ⟨rfl, hclose, rfl⟩)))
  · left
    exact h.of_entries (entries_withConn ((Ctx.primitive_frame _).handleEvent env (.refl _)) hclose)

lemma destroyed_withConn (c : ConnId) (t : LoopId) (onDown : Script) (s : ServerSys) :
    (s.withConn c t (Ctx.connectDestroy onDown)).destroyed c := by
  have hy := applied_withConn ((Ctx.primitive_frame (s.ctx c t)).connectDestroy onDown (.refl _))
  refine hy.destroyed_self.mpr (List.mem_map.mpr ⟨(t, .connectDestroy), ?_, rfl⟩)
  exact (Ctx.primitive_mem (t, .connectDestroy)).connectDestroy_of_log onDown
    (List.mem_append_right _ (List.mem_singleton.mpr rfl))

/-- A `connectDestroy` taken from a batch destroys. -/
lemma Trans.destroyed_of_taken {a : ServerAct} {t : LoopId} (ht : Trans conf s a s')
    (h : .connectDestroy c ∈ s.takenBy a t) : s'.destroyed c := by
  have hhead : ∀ {i f batch}, (s.loops i).pc = .functors (f :: batch) →
      .connectDestroy c ∈ (if i = t then (s.loops t).pc.batch.take 1 else []) →
        f = .connectDestroy c := by
    intro i f batch hpc hm
    split_ifs at hm with hi
    · rw [← hi, hpc] at hm
      exact (List.mem_singleton.mp hm).symm
    · cases hm
  cases ht with
  | destroys hrun hpc =>
      cases hhead hpc h
      exact destroyed_withConn ..
  | establishes hrun hpc => cases hhead hpc h
  | removes hrun hpc halive => cases hhead hpc h
  | runs hrun hpc haux =>
      rw [hhead hpc h] at haux
      cases haux
  | _ => cases h

/-- The loop does not leave. -/
lemma Solo.stays {a : ServerAct} (h : s.Solo) (ht : Trans conf s a s') (ha : a = .check 0) :
    (s.loops 0).quit_ = false := by
  subst ha
  refine Bool.eq_false_iff.mpr fun hq => ?_
  have hret := h.quit hq
  cases ht with
  | leaves hrun hpc hquit => cases hpc.symm.trans hret
  | waits hrun hpc hquit => cases hpc.symm.trans hret

/-- **A connection not yet destroyed is one to destroy.** -/
theorem Solo.toDestroy {a : ServerAct} (h : s.Solo) (h0 : conf.numThreads_ = 0) (hp : s.Placed)
    (hr : s.Registered conf) (hph : s.Phased) (ht : Trans conf s a s')
    (hcall : ∀ t c act, a = .userCall t c act → t = 0)
    (hto : ∀ c, s.Made c → ¬ s.destroyed c → s.ToDestroy c) (hc' : s'.Made c)
    (hd' : ¬ s'.destroyed c) : s'.ToDestroy c := by
  have hp' := hp.trans ht
  have h' := h.trans h0 hp hph ht hcall
  by_cases hc : s.Made c
  · have hd : ¬ s.destroyed c := mt (ht.later.destroyed hc) hd'
    rcases hto c hc hd with hheld | hjob
    · rcases ht.held hp hr hph hc hheld with hheld | ⟨t, -, -, hpend⟩ | ⟨t, env, active, rfl, hpc⟩ |
        herase
      · exact Or.inl hheld
      · -- it is pending on the only loop
        have hat : t = 0 := by
          rcases (hp'.jobs t _ (List.mem_append_right _ hpend)).2 with hat | hat
          · exact hat.trans (h'.loop_ c hc')
          · exact hat
        exact Or.inr (List.mem_append_right _ (hat ▸ hpend))
      · cases ht with
        | handles hrun hpc' =>
            cases runs_zero h0 hrun
            cases hpc.symm.trans hpc'
            exact hheld.handles
      · cases ht with
        | destroysHere hphase he hloop =>
            obtain ⟨rfl, -⟩ := herase
            exact absurd (destroyed_withConn ..) hd'
        | destroysThere hphase he hloop =>
            obtain ⟨rfl, hl, -⟩ := herase
            exact absurd hl hloop
        | _ => exact herase.elim
    · have hon := ht.onward (h.stays ht)
      rcases List.mem_append.mp hjob with hjob | hjob
      · rcases List.mem_append.mp (hon.batch hjob) with hm | hm
        · exact absurd (ht.destroyed_of_taken hm) hd'
        · exact Or.inr (List.mem_append_left _ hm)
      · exact Or.inr (hon.pending hjob)
  · by_cases ha : ∃ sockfd onUp, a = .accept sockfd onUp
    · obtain ⟨sockfd, onUp, rfl⟩ := ha
      cases ht with
      | @accepts _ _ active hpc halive hfd hid =>
          have hadd : (ServerSys.addConnection conf sockfd (s.setPc 0 (.handling active))).Made c :=
            (made_congr (sameTable_newConnection sockfd onUp).next c).mp hc'
          rcases made_addConnection hadd with hold | rfl
          · exact absurd hold hc
          · have halive' : (s.setPc 0 (.handling active)).phase = .alive := halive
            exact Or.inl (held_newConnection h0 halive')
    · push Not at ha
      exact absurd ((made_congr (ht.nextConnId ha) c).mp hc') hc

/-- What the channels of the loop itself and of the acceptor live by: the server goes with the
last step of `~TcpServer`, and events are handled until the swap. -/
structure Lasts (a : ServerAct) (s s' : ServerSys) : Prop where
  gone : s'.phase = .gone → s.phase = .gone ∨ a = .destroyMembers
  handling : a ≠ .swap 0 → (∃ active, (s.loops 0).pc = .handling active) →
    ∃ active, (s'.loops 0).pc = .handling active

lemma Applied.lasts {a : ServerAct} {t : LoopId} {y : Ctx} (h : Applied c t y s s') :
    s.Lasts a s' where
  gone hg := Or.inl (h.phase ▸ hg)
  handling _ hpc := by
    rw [h.pc]
    exact hpc

lemma Lasts.trans {a : ServerAct} {s'' : ServerSys} (h : s.Lasts a s') (h' : s'.Lasts a s'') :
    s.Lasts a s'' where
  gone hg := (h'.gone hg).elim h.gone Or.inr
  handling ha hpc := h'.handling ha (h.handling ha hpc)

lemma lasts_setPc {a : ServerAct} {pc : ThreadPc}
    (hpc : (∃ active, pc = .handling active) ∨ ∀ active, (s.loops 0).pc ≠ .handling active) :
    s.Lasts a (s.setPc 0 pc) where
  gone hg := Or.inl hg
  handling _ hold := by
    rw [setPc_pc, if_pos rfl]
    rcases hpc with hpc | hpc
    · exact hpc
    · obtain ⟨active, ha⟩ := hold
      exact absurd ha (hpc active)

theorem Solo.lasts {a : ServerAct} (h : s.Solo) (h0 : conf.numThreads_ = 0)
    (ht : Trans conf s a s') : s.Lasts a s' := by
  have hprim := fun x => Ctx.primitive_frame x
  cases ht with
  | leaves hrun hpc hquit =>
      cases runs_zero h0 hrun
      cases hpc.symm.trans (h.quit hquit)
  | waits hrun hpc hquit =>
      cases runs_zero h0 hrun
      exact lasts_setPc (Or.inr (by simp [hpc]))
  | @polls t ready hrun hpc hready =>
      cases runs_zero h0 hrun
      obtain ⟨conn, he, -⟩ := fillActiveChannels_eq 0 ready s
      have hconn : s.Lasts (.poll 0 ready) { s with conn := conn } := ⟨Or.inl, fun _ hpc => hpc⟩
      rw [he]
      exact hconn.trans (lasts_setPc (Or.inl ⟨_, rfl⟩))
  | @accepts sockfd onUp active hpc halive hfd hid =>
      have hset : s.Lasts (.accept sockfd onUp) (s.setPc 0 (.handling active)) :=
        lasts_setPc (Or.inl ⟨active, rfl⟩)
      have hadd : s.Lasts (.accept sockfd onUp)
          (ServerSys.addConnection conf sockfd (s.setPc 0 (.handling active))) :=
        hset.trans ⟨Or.inl, fun _ hpc => hpc⟩
      refine hadd.trans ?_
      unfold ServerSys.newConnection
      simp only
      rw [if_pos (congrArg Prod.fst (getNextLoop_solo h0 _))]
      exact (applied_withConn ((hprim _).connectEstablished onUp (.refl _))).lasts
  | acceptFails hrun hpc => exact lasts_setPc (Or.inl ⟨_, rfl⟩)
  | @handles t env c active hrun hpc =>
      cases runs_zero h0 hrun
      have hset : s.Lasts (.handle 0 env) (s.setPc 0 (.handling active)) :=
        lasts_setPc (Or.inl ⟨active, rfl⟩)
      exact hset.trans (applied_withConn ((hprim _).handleEvent env (.refl _))).lasts
  | swaps hrun hpc =>
      cases runs_zero h0 hrun
      exact ⟨Or.inl, fun ha => absurd rfl ha⟩
  | establishes hrun hpc =>
      cases runs_zero h0 hrun
      rcases h.head hpc with he | ⟨he, -⟩ <;> cases he
  | @destroys t env c batch hrun hpc =>
      cases runs_zero h0 hrun
      have hset : s.Lasts (.functor 0 env) (s.setPc 0 (.functors batch)) :=
        lasts_setPc (Or.inr (by simp [hpc]))
      exact hset.trans (applied_withConn ((hprim _).connectDestroy env.acts (.refl _))).lasts
  | removes hrun hpc halive =>
      cases runs_zero h0 hrun
      rcases h.head hpc with he | ⟨he, -⟩ <;> cases he
  | @runs t env f batch hrun hpc haux =>
      cases runs_zero h0 hrun
      have hset : s.Lasts (.functor 0 env) (s.setPc 0 (.functors batch)) :=
        lasts_setPc (Or.inr (by simp [hpc]))
      exact hset.trans (applied_withConn (frame_auxOp env f _)).lasts
  | endsBatch hrun hpc =>
      cases runs_zero h0 hrun
      exact lasts_setPc (Or.inr (by simp [hpc]))
  | userCalls hc => exact (applied_withConn ((hprim _).act _ (.refl _))).lasts
  | beginsDestroy halive hpc => exact ⟨fun hg => (by cases hg), fun _ hpc => hpc⟩
  | @destroysHere e onDown left hphase he hloop =>
      have hset : s.Lasts (.destroyNext e onDown) { s with phase := .destroying (left.erase e) } :=
        ⟨fun hg => (by cases hg), fun _ hpc => hpc⟩
      exact hset.trans (applied_withConn ((hprim _).connectDestroy onDown (.refl _))).lasts
  | destroysThere hphase he hloop =>
      refine ⟨fun hg => (by cases hg), fun _ hpc => ?_⟩
      rw [push_pc]
      exact hpc
  | destroysMembers hphase => exact ⟨fun _ => Or.inr rfl, fun _ hpc => hpc⟩
  | quits hphase =>
      have hgone := h.ended (by rw [hphase]; rfl)
      cases hphase.symm.trans hgone
  | joins hphase hpc =>
      have hgone := h.ended (by rw [hphase]; rfl)
      cases hphase.symm.trans hgone

end ServerSys

end Reactor
