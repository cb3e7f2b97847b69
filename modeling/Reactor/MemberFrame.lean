import Reactor.TcpConnection
import Reactor.PollerCoherence

/-!
What no member function of a connection does, however it is nested in callbacks of the user.

Every member function is made of a few primitive changes. A property kept by each of these is
kept by all of the functions.
-/

namespace Reactor

/-- A functor that a member function queues on the loop of its connection. -/
def Functor.isAux : Functor → Bool
  | .sendInLoop _ _ => true
  | .shutdownInLoop _ => true
  | .writeCompleteCallback _ => true
  | .highWaterMarkCallback _ _ => true
  | _ => false

/-- An effect that the connection `c` may ask for. -/
def Effect.Of (c : ConnId) : Effect → Prop
  | .queueInloop f => f.conn = c ∧ f.isAux = true
  | .closeCallback => True

namespace Ctx

/-- A property kept by the primitive changes, `closeCallback_` apart. -/
structure Quiet (P : Ctx → Prop) : Prop where
  log : ∀ {x} call, P x → P (x.log call)
  queue : ∀ {x : Ctx} f, f.conn = x.id → f.isAux = true → P x → P (x.queueInloop f)
  setState : ∀ {x} state, P x → P (x.setState state)
  tie : ∀ {x}, P x → P x.tie
  onChannel : ∀ {x} (op : ChannelOp), P x → P (x.onChannel op.apply)
  accept : ∀ {x} bytes, P x → P (x.accept bytes)
  shutWr : ∀ {x : Ctx}, P x → P { x with conn.socket_.shutWr := true }
  input : ∀ {x : Ctx} b, P x → P { x with conn.inputBuffer_ := b }
  output : ∀ {x : Ctx} b, P x → P { x with conn.outputBuffer_ := b }

/-- A property kept by all the primitive changes. -/
structure Primitive (P : Ctx → Prop) : Prop extends Quiet P where
  close : ∀ {x : Ctx}, P x → P (x.emit .closeCallback)

/-- A property kept by the primitive changes, `closeCallback_` apart, when no functor is queued
but those of `ok`. These are all the functors of a member function, or else the property
tells that the function runs in the thread of the loop. -/
structure Steady (ok : Functor → Prop) (P : Ctx → Prop) : Prop where
  log : ∀ {x} call, P x → P (x.log call)
  queue : ∀ {x : Ctx} f, f.conn = x.id → f.isAux = true → ok f → P x → P (x.queueInloop f)
  setState : ∀ {x} state, P x → P (x.setState state)
  tie : ∀ {x}, P x → P x.tie
  onChannel : ∀ {x} (op : ChannelOp), P x → P (x.onChannel op.apply)
  accept : ∀ {x} bytes, P x → P (x.accept bytes)
  shutWr : ∀ {x : Ctx}, P x → P { x with conn.socket_.shutWr := true }
  input : ∀ {x : Ctx} b, P x → P { x with conn.inputBuffer_ := b }
  output : ∀ {x : Ctx} b, P x → P { x with conn.outputBuffer_ := b }
  writeComplete : ∀ c, ok (.writeCompleteCallback c)
  highWaterMark : ∀ c len, ok (.highWaterMarkCallback c len)
  elsewhere : ∀ {x : Ctx} f, f.isAux = true → x.isInLoopThread = false → P x → ok f

/-- The same, and `closeCallback_` keeps the property. -/
structure SteadyPrimitive (ok : Functor → Prop) (P : Ctx → Prop) : Prop extends Steady ok P where
  close : ∀ {x : Ctx}, P x → P (x.emit .closeCallback)

/-- What the three callbacks of an event keep, the event keeps. -/
lemma handleEvent_of {P : Ctx → Prop} {x : Ctx} {env : EventEnv}
    (hclose : ∀ {y : Ctx}, P y → P (y.handleClose env.onHup))
    (hread : ∀ {y : Ctx}, P y → P (y.handleRead env.read env.onMessage env.onDown))
    (hwrite : ∀ {y : Ctx}, P y → P (y.handleWrite env.write)) (h : P x) :
    P (x.handleEvent env) := by
  have hup :
      P (if Channel.hangsUp x.conn.channel_.revents_ then x.handleClose env.onHup else x) := by
    split_ifs
    · exact hclose h
    · exact h
  unfold Ctx.handleEvent
  simp only
  generalize (if Channel.hangsUp x.conn.channel_.revents_ then x.handleClose env.onHup else x) = y
    at hup ⊢
  split_ifs
  · exact hwrite (hread hup)
  · exact hwrite hup
  · exact hread hup
  · exact hup

lemma Quiet.steady {P : Ctx → Prop} (hP : Quiet P) : Steady (fun f => f.isAux = true) P where
  log := hP.log
  queue f hf haux _ := hP.queue f hf haux
  setState := hP.setState
  tie := hP.tie
  onChannel := hP.onChannel
  accept := hP.accept
  shutWr := hP.shutWr
  input := hP.input
  output := hP.output
  writeComplete _ := rfl
  highWaterMark _ _ := rfl
  elsewhere _ haux _ _ := haux

lemma Primitive.steady {P : Ctx → Prop} (hP : Primitive P) :
    SteadyPrimitive (fun f => f.isAux = true) P :=
  ⟨hP.toQuiet.steady, hP.close⟩

namespace Steady

variable {ok : Functor → Prop} {P : Ctx → Prop} (hP : Steady ok P) {x : Ctx}

include hP

lemma queueWriteComplete (h : P x) : P x.queueWriteComplete := by
  unfold Ctx.queueWriteComplete
  split_ifs
  · exact hP.queue _ rfl rfl (hP.writeComplete _) h
  · exact h

lemma queueHighWaterMark (remaining : ℕ) (h : P x) : P (x.queueHighWaterMark remaining) := by
  unfold Ctx.queueHighWaterMark
  simp only
  split_ifs
  · exact hP.queue _ rfl rfl (hP.highWaterMark _ _) h
  · exact h

lemma writeDirectly (data : List Byte) (res : WriteResult) (h : P x) :
    P (x.writeDirectly data res).1 := by
  unfold Ctx.writeDirectly
  split
  · simp only
    split_ifs
    · exact hP.queueWriteComplete (hP.accept _ h)
    · exact hP.accept _ h
  · exact h

lemma enableWriting (h : P x) : P x.enableWriting := hP.log _ (hP.onChannel .enableWriting h)

lemma disableAll (h : P x) : P x.disableAll := hP.log _ (hP.onChannel .disableAll h)

lemma bufferRest (rest : List Byte) (h : P x) : P (x.bufferRest rest) := by
  have h' := hP.output (((x.queueHighWaterMark rest.length).conn.outputBuffer_).append rest)
    (hP.queueHighWaterMark rest.length h)
  unfold Ctx.bufferRest
  simp only
  split_ifs
  · exact hP.enableWriting h'
  · exact h'

lemma sendInLoop (data : List Byte) (res : WriteResult) (h : P x) :
    P (x.sendInLoop data res) := by
  unfold Ctx.sendInLoop
  split_ifs
  · exact hP.log _ h
  · simp only
    split_ifs
    · exact hP.log _ (hP.bufferRest _ (hP.writeDirectly data res h))
    · exact hP.log _ (hP.writeDirectly data res h)
  · simp only
    split_ifs
    · exact hP.log _ (hP.bufferRest _ h)
    · exact hP.log _ h

lemma shutdownInLoop (h : P x) : P x.shutdownInLoop := by
  unfold Ctx.shutdownInLoop
  simp only
  split_ifs
  · exact hP.log _ (hP.shutWr (hP.log _ h))
  · exact hP.log _ h

/-- `runInloop` queues the functor elsewhere only. -/
lemma runInloop {f : Functor} {run : Ctx → Ctx} (hf : f.conn = x.id) (haux : f.isAux = true)
    (hrun : P x → P (run x)) (h : P x) : P (x.runInloop f run) := by
  unfold Ctx.runInloop
  split_ifs with hin
  · exact hrun h
  · exact hP.queue f hf haux (hP.elsewhere f haux (Bool.eq_false_iff.mpr hin) h) h

lemma act (a : UserAct) (h : P x) : P (x.act a) := by
  cases a with
  | send data res =>
      rw [Ctx.act, Ctx.send]
      split_ifs
      · exact hP.runInloop rfl rfl (hP.sendInLoop data res) h
      · exact h
  | shutdown =>
      rw [Ctx.act, Ctx.shutdown]
      split_ifs
      · exact hP.runInloop rfl rfl hP.shutdownInLoop (hP.setState _ (hP.log _ h))
      · exact h
  | retrieve len => exact hP.input _ h

lemma runScript (acts : Script) (h : P x) : P (x.runScript acts) := by
  induction acts generalizing x with
  | nil => exact h
  | cons a acts ih => exact ih (hP.act a h)

lemma connectionCallback (acts : Script) (h : P x) : P (x.connectionCallback acts) :=
  hP.runScript acts (hP.log _ h)

lemma connectEstablished (onUp : Script) (h : P x) : P (x.connectEstablished onUp) := by
  have h' := hP.tie (hP.setState .kConnected (hP.log .connectEstablished h))
  exact hP.connectionCallback onUp (hP.log _ (hP.onChannel .enableReading h'))

/-- From the moment the call is recorded. -/
lemma connectDestroy_of_log (onDown : Script) (h : P (x.log .connectDestroy)) :
    P (x.connectDestroy onDown) := by
  unfold Ctx.connectDestroy
  simp only
  split_ifs
  · exact hP.log _ (hP.onChannel .remove
      (hP.connectionCallback onDown (hP.disableAll (hP.setState _ h))))
  · exact hP.log _ (hP.onChannel .remove h)

lemma connectDestroy (onDown : Script) (h : P x) : P (x.connectDestroy onDown) :=
  hP.connectDestroy_of_log onDown (hP.log _ h)

lemma drained (h : P x) : P x.drained := by
  have h' := hP.queueWriteComplete (hP.log .updateChannel (hP.onChannel .disableWriting h))
  unfold Ctx.drained
  simp only
  split_ifs
  · exact hP.shutdownInLoop h'
  · exact h'

lemma handleWrite (res : WriteResult) (h : P x) : P (x.handleWrite res) := by
  have h' := hP.log .handleWrite h
  unfold Ctx.handleWrite
  simp only
  split_ifs
  · split
    · split_ifs
      · exact hP.drained (hP.output _ (hP.accept _ h'))
      · exact hP.output _ (hP.accept _ h')
      · exact hP.accept _ h'
    · exact h'
  · exact h'

end Steady

namespace SteadyPrimitive

variable {ok : Functor → Prop} {P : Ctx → Prop} (hP : SteadyPrimitive ok P) {x : Ctx}

include hP

lemma handleClose (onDown : Script) (h : P x) : P (x.handleClose onDown) := by
  have h' := hP.disableAll (hP.setState .kDisconnected (hP.log .handleClose h))
  exact hP.close (hP.log _ (hP.connectionCallback onDown h'))

lemma handleRead (res : ReadResult) (onMessage onDown : Script) (h : P x) :
    P (x.handleRead res onMessage onDown) := by
  have h' := hP.input ((x.log .handleRead).conn.inputBuffer_.readFd res).2 (hP.log .handleRead h)
  unfold Ctx.handleRead
  simp only
  split
  · split_ifs
    · exact hP.runScript onMessage (hP.log _ h')
    · exact hP.handleClose onDown h'
  · exact h'

lemma handleEvent (env : EventEnv) (h : P x) : P (x.handleEvent env) :=
  handleEvent_of (hP.handleClose _) (hP.handleRead _ _ _) (hP.handleWrite _) h

end SteadyPrimitive

section

variable {P : Ctx → Prop} {x : Ctx}

lemma Quiet.sendInLoop (hP : Quiet P) (data : List Byte) (res : WriteResult) (h : P x) :
    P (x.sendInLoop data res) := hP.steady.sendInLoop data res h

lemma Quiet.shutdownInLoop (hP : Quiet P) (h : P x) : P x.shutdownInLoop :=
  hP.steady.shutdownInLoop h

lemma Quiet.act (hP : Quiet P) (a : UserAct) (h : P x) : P (x.act a) := hP.steady.act a h

lemma Quiet.runScript (hP : Quiet P) (acts : Script) (h : P x) : P (x.runScript acts) :=
  hP.steady.runScript acts h

lemma Quiet.connectEstablished (hP : Quiet P) (onUp : Script) (h : P x) :
    P (x.connectEstablished onUp) := hP.steady.connectEstablished onUp h

lemma Quiet.connectDestroy_of_log (hP : Quiet P) (onDown : Script)
    (h : P (x.log .connectDestroy)) : P (x.connectDestroy onDown) :=
  hP.steady.connectDestroy_of_log onDown h

lemma Quiet.connectDestroy (hP : Quiet P) (onDown : Script) (h : P x) :
    P (x.connectDestroy onDown) := hP.steady.connectDestroy onDown h

lemma Quiet.handleWrite (hP : Quiet P) (res : WriteResult) (h : P x) : P (x.handleWrite res) :=
  hP.steady.handleWrite res h

lemma Primitive.handleEvent (hP : Primitive P) (env : EventEnv) (h : P x) :
    P (x.handleEvent env) := hP.steady.handleEvent env h

end

end Ctx

/-! ### What a channel operation does to the epoll set -/

/-- The epoll set holds the channel exactly when `index_` says so. -/
def EpollPoller.Entry (p : EpollPoller ConnId) (ptr : ConnId) (c : Channel) : Prop :=
  ∃ m, p.epoll c.fd_ = if c.index_ = kAdded then some (m, ptr) else none

/-- An operation of the channel `c` with pointer `ptr` changed the entry of its descriptor
only, and to one of its own. -/
structure EpollFrame (p : EpollPoller ConnId) (ptr : ConnId) (c : Channel)
    (r : EpollPoller ConnId × Channel) : Prop where
  fd : r.2.fd_ = c.fd_
  others : ∀ n ≠ c.fd_, r.1.epoll n = p.epoll n
  own : r.1.epoll c.fd_ = p.epoll c.fd_ ∨ r.1.epoll c.fd_ = none ∨
    r.1.epoll c.fd_ = some (r.2.events_, ptr)
  entry : p.Entry ptr c → r.1.Entry ptr r.2

namespace EpollPoller

variable {p : EpollPoller ConnId} {ptr : ConnId} {c : Channel}

/-- One call of `epoll_ctl`. -/
lemma update_frame (op : CtlOp) :
    (∀ n ≠ c.fd_, (p.update op ptr c).epoll n = p.epoll n) ∧
      ((p.update op ptr c).epoll c.fd_ = p.epoll c.fd_ ∨
        (p.update op ptr c).epoll c.fd_ = none ∨
        (p.update op ptr c).epoll c.fd_ = some (c.events_, ptr)) := by
  cases op <;> unfold update epoll_ctl <;> simp only <;> split_ifs <;>
    simp +contextual [Function.update_of_ne]

lemma updateChannel_frame (ptr : ConnId) (c : Channel) (p : EpollPoller ConnId) :
    EpollFrame p ptr c (p.updateChannel ptr c) := by
  by_cases hidx : c.index_ = kNew ∨ c.index_ = kDeleted
  · have hadd : c.index_ ≠ kAdded := by
      rcases hidx with h | h <;> rw [h]
      · exact kNew_ne_kAdded
      · exact kDeleted_ne_kAdded
    simp only [updateChannel, if_pos hidx]
    split_ifs with hnew
    all_goals
      refine ⟨rfl, (update_frame _).1, (update_frame _).2, fun h => ⟨c.events_, ?_⟩⟩
      obtain ⟨m, h⟩ := h
      rw [if_neg hadd] at h
      rw [update_add ptr (by exact h)]
      simp
  · simp only [updateChannel, if_neg hidx]
    split_ifs with hnone
    · refine ⟨rfl, (update_frame _).1, (update_frame _).2, fun h => ⟨0, ?_⟩⟩
      obtain ⟨m, h⟩ := h
      rw [if_neg kDeleted_ne_kAdded]
      by_cases hadd : c.index_ = kAdded
      · rw [if_pos hadd] at h
        rw [update_del ptr h]
        simp
      · rw [if_neg hadd] at h
        simp [update, epoll_ctl, h]
    · refine ⟨rfl, (update_frame _).1, (update_frame _).2, fun h => ⟨c.events_, ?_⟩⟩
      obtain ⟨m, h⟩ := h
      by_cases hadd : c.index_ = kAdded
      · rw [if_pos hadd] at h
        rw [if_pos hadd, update_mod ptr h]
        simp
      · rw [if_neg hadd] at h
        rw [if_neg hadd]
        simp [update, epoll_ctl, h]

lemma removeChannel_frame (ptr : ConnId) (c : Channel) (p : EpollPoller ConnId) :
    EpollFrame p ptr c (p.removeChannel ptr c) := by
  unfold removeChannel
  simp only
  split_ifs with hadd
  · refine ⟨rfl, (update_frame _).1, (update_frame _).2, fun h => ⟨0, ?_⟩⟩
    obtain ⟨m, h⟩ := h
    rw [if_pos hadd] at h
    rw [if_neg kNew_ne_kAdded, update_del ptr (by exact h)]
    simp
  · refine ⟨rfl, fun _ _ => rfl, Or.inl rfl, fun h => ⟨0, ?_⟩⟩
    obtain ⟨m, h⟩ := h
    rw [if_neg hadd] at h
    rw [if_neg kNew_ne_kAdded]
    exact h

/-- A channel that is not in the epoll set leaves `channels_` only. -/
lemma removeChannel_epoll (h : c.index_ ≠ kAdded) :
    (p.removeChannel ptr c).1.epoll = p.epoll := by
  unfold removeChannel
  simp only
  rw [if_neg h]

end EpollPoller

lemma ChannelOp.apply_frame (op : ChannelOp) (ptr : ConnId) (c : Channel)
    (p : EpollPoller ConnId) : EpollFrame p ptr c (op.apply ptr c p) := by
  have hupd : ∀ f : Mask → Mask, EpollFrame p ptr c (Channel.withEvents f ptr c p) := by
    intro f
    obtain ⟨hfd, hothers, hown, hentry⟩ :=
      EpollPoller.updateChannel_frame ptr { c with events_ := f c.events_ } p
    exact ⟨hfd, hothers, hown, hentry⟩
  cases op with
  | enableReading => exact hupd (· ||| kReadEvent)
  | disableReading => exact hupd (· &&& ~~~kReadEvent)
  | enableWriting => exact hupd (· ||| kWriteEvent)
  | disableWriting => exact hupd (· &&& ~~~kReadEvent)
  | disableAll => exact hupd fun _ => kNoneEvent
  | remove => exact EpollPoller.removeChannel_frame ptr c p

namespace Ctx

def fd (x : Ctx) : ℕ := x.conn.channel_.fd_

/-- The epoll set of the loop holds the channel exactly when `index_` says so. -/
def Entry (x : Ctx) : Prop := x.poller_.Entry x.id x.conn.channel_

/-- **What every member function leaves as it is** between its start `x` and a later
moment `y`. -/
structure Frame (x y : Ctx) : Prop where
  id : y.id = x.id
  tid : y.tid = x.tid
  loop_ : y.conn.loop_ = x.conn.loop_
  name_ : y.conn.name_ = x.conn.name_
  fd : y.fd = x.fd
  trace : ∃ l, y.trace = x.trace ++ l ∧ ∀ e ∈ l, e.1 = x.tid
  out : ∃ l, y.out = x.out ++ l ∧ ∀ e ∈ l, e.Of x.id
  others : ∀ n ≠ x.fd, y.poller_.epoll n = x.poller_.epoll n
  own : ∀ m c, y.poller_.epoll x.fd = some (m, c) → c = x.id ∨
    x.poller_.epoll x.fd = some (m, c)
  entry : x.Entry → y.Entry

lemma Frame.refl (x : Ctx) : x.Frame x :=
  ⟨rfl, rfl, rfl, rfl, rfl, ⟨[], by simp, by simp⟩, ⟨[], by simp, by simp⟩, fun _ _ => rfl,
    fun _ _ h => Or.inr h, fun h => h⟩

lemma Frame.emit {x y : Ctx} {e : Effect} (h : x.Frame y) (he : e.Of x.id) :
    x.Frame (y.emit e) := by
  obtain ⟨l, hl, hof⟩ := h.out
  refine { h with out := ⟨l ++ [e], ?_, ?_⟩ }
  · simp [Ctx.emit, hl]
  · intro e' he'
    rcases List.mem_append.mp he' with he' | he'
    · exact hof e' he'
    · rw [List.mem_singleton.mp he']
      exact he

/-- What is recorded stays recorded. -/
lemma primitive_mem (e : LoopId × Call) : Primitive fun x => e ∈ x.trace where
  log _ h := List.mem_append_left _ h
  queue _ _ _ h := h
  setState _ h := h
  tie h := h
  onChannel _ h := h
  accept _ h := h
  shutWr h := h
  input _ h := h
  output _ h := h
  close h := h

/-- **The frame rule.** -/
theorem primitive_frame (x : Ctx) : Primitive x.Frame where
  log {y} call h := by
    obtain ⟨l, hl, htid⟩ := h.trace
    refine { h with trace := ⟨l ++ [(y.tid, call)], ?_, ?_⟩ }
    · simp [log, hl]
    · intro e he
      rcases List.mem_append.mp he with he | he
      · exact htid e he
      · rw [List.mem_singleton.mp he]
        exact h.tid
  queue {y} f hf haux h := h.emit ⟨hf.trans h.id, haux⟩
  setState _ h := { h with }
  tie h := { h with }
  onChannel {y} op h := by
    obtain ⟨hfd, hothers, hown, hentry⟩ := op.apply_frame y.id y.conn.channel_ y.poller_
    have hyfd : y.conn.channel_.fd_ = x.fd := h.fd
    refine { h with fd := hfd.trans h.fd, others := ?_, own := ?_, entry := fun he => ?_ }
    · intro n hn
      exact (hothers n (by rw [hyfd]; exact hn)).trans (h.others n hn)
    · intro m c hc
      rw [hyfd] at hown
      rcases hown with hsame | hnone | hset
      · exact h.own m c (hsame ▸ hc)
      · cases hnone.symm.trans hc
      · obtain ⟨-, hcid⟩ := Prod.mk.inj (Option.some.inj (hset.symm.trans hc))
        exact Or.inl (hcid.symm.trans h.id)
    · exact hentry (h.entry he)
  accept _ h := { h with }
  shutWr h := { h with }
  input _ h := { h with }
  output _ h := { h with }
  close h := h.emit trivial

end Ctx

end Reactor
