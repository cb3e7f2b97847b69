import Reactor.TcpConnection
import Reactor.Lib.Trace

/-!
Runs of one connection on its loop, and what one call of a member function can do.

The other functions are built from `sendInLoop` and `shutdownInLoop`, each of which has a
lemma that says all it can do, and from changes of single fields. A property kept by these is
kept by whatever a user's callback does.
-/

namespace Reactor

open Lib.Trace

namespace Ctx

/-- The calls made so far. -/
def calls (x : Ctx) : List Call := x.trace.map Prod.snd

@[simp] lemma calls_log (x : Ctx) (call : Call) : (x.log call).calls = x.calls ++ [call] := by
  simp [calls, log]

/-- The bytes of the accepted payloads, in the order of the calls of `sendInLoop`. -/
def acceptedOf : List Call → List Byte
  | [] => []
  | .sendInLoop data true :: calls => data ++ acceptedOf calls
  | _ :: calls => acceptedOf calls

lemma acceptedOf_append (l₁ l₂ : List Call) :
    acceptedOf (l₁ ++ l₂) = acceptedOf l₁ ++ acceptedOf l₂ := by
  induction l₁ using acceptedOf.induct with
  | case1 => rfl
  | case2 data calls ih => simp [acceptedOf, ih]
  | case3 call calls hne ih => simp [acceptedOf, ih]

def accepted (x : Ctx) : List Byte := acceptedOf x.calls

/-! ### What one call does -/

/-- Two contexts that differ at most in the effects asked for. -/
def Same (x y : Ctx) : Prop := y = { x with out := y.out }

lemma Same.refl (x : Ctx) : x.Same x := rfl

lemma same_queueWriteComplete (x : Ctx) : x.Same x.queueWriteComplete := by
  unfold queueWriteComplete
  split_ifs <;> rfl

lemma same_queueHighWaterMark (remaining : ℕ) (x : Ctx) :
    x.Same (x.queueHighWaterMark remaining) := by
  unfold queueHighWaterMark
  simp only
  split_ifs <;> rfl

/-- **What `sendInLoop` can do.** It refuses the payload and leaves everything as it was; or
it splits the payload in what the kernel takes at once and what has to wait. -/
theorem sendInLoop_cases (data : List Byte) (res : WriteResult) (x : Ctx) :
    (x.sendInLoop data res = x.log (.sendInLoop data false) ∧
      (x.conn.state_ = .kDisconnected ∨ x.WritesDirectly ∧
        ∃ errno, res = .error errno ∧ (errno = EPIPE ∨ errno = ECONNRESET))) ∨
    ∃ taken rest y, data = taken ++ rest ∧ x.conn.state_ ≠ .kDisconnected ∧
      (taken = [] ∨ x.WritesDirectly) ∧ (x.accept taken).Same y ∧
      x.sendInLoop data res =
        (if rest = [] then y else y.bufferRest rest).log (.sendInLoop data true) := by
  unfold sendInLoop
  split_ifs with hst hw
  · exact Or.inl ⟨rfl, Or.inl hst⟩
  · -- the direct path
    rcases res with errno | n
    · by_cases hf : errno = EPIPE ∨ errno = ECONNRESET
      · refine Or.inl ⟨?_, Or.inr ⟨hw, errno, rfl, hf⟩⟩
        have hne : errno ≠ EWOULDBLOCK := by rcases hf with rfl | rfl <;> decide
        simp [writeDirectly, write, hne, hf]
      · refine Or.inr ⟨[], data, x, rfl, hst, Or.inl rfl, by simp [Same, accept], ?_⟩
        cases data <;> simp [writeDirectly, write, hf]
    · refine Or.inr ⟨data.take n, data.drop n, ?_⟩
      by_cases hall : data.length ≤ n
      · have hdrop : data.drop n = [] := List.drop_of_length_le hall
        refine ⟨_, by simp, hst, Or.inr hw, same_queueWriteComplete _, ?_⟩
        simp [writeDirectly, write, hdrop, hall]
      · have hmin : min n data.length = n := by omega
        have hpos : data.length - n ≠ 0 := by omega
        refine ⟨x.accept (data.take n), by simp, hst, Or.inr hw, Same.refl _, ?_⟩
        simp [writeDirectly, write, hmin, hpos, hall, List.take_of_length_le,
          Nat.sub_pos_of_lt (Nat.lt_of_not_le hall)]
  · -- what is already waiting goes first
    refine Or.inr ⟨[], data, x, rfl, hst, Or.inl rfl, by simp [Same, accept], ?_⟩
    cases data <;> simp

/-- **What `bufferRest` does**: the rest waits behind what already did, and the channel
watches for `EPOLLOUT`. -/
theorem bufferRest_cases (rest : List Byte) (x : Ctx) :
    ∃ y, x.Same y ∧ x.bufferRest rest =
      if x.isWriting then { y with conn.outputBuffer_ := x.conn.outputBuffer_.append rest }
      else enableWriting { y with conn.outputBuffer_ := x.conn.outputBuffer_.append rest } := by
  have hs := same_queueHighWaterMark rest.length x
  refine ⟨_, hs, ?_⟩
  generalize hy : x.queueHighWaterMark rest.length = y at hs ⊢
  rw [bufferRest, hy]
  rw [hs]
  cases hw : x.isWriting <;> simp [isWriting] at hw ⊢ <;> simp [hw]

/-- A write event takes all that is waiting. -/
def Drains (res : WriteResult) (x : Ctx) : Prop :=
  x.isWriting = true ∧ x.backlog ≠ [] ∧ ∃ n, res = .ok n ∧ x.backlog.length ≤ n

/-- A write event before its tail: the kernel has taken bytes and `b` is left in
`outputBuffer_`. -/
def wrote (taken : List Byte) (b : SafeBuffer) (x : Ctx) : Ctx :=
  { (x.log .handleWrite).accept taken with conn.outputBuffer_ := b }

@[simp] lemma calls_wrote (taken : List Byte) (b : SafeBuffer) (x : Ctx) :
    (x.wrote taken b).calls = x.calls ++ [.handleWrite] := x.calls_log .handleWrite

/-- **What `handleWrite` can do.** Nothing; or the kernel takes some bytes from the front of
what is waiting, and if it takes the last one the tail of the function runs. -/
theorem handleWrite_cases (res : WriteResult) (x : Ctx) :
    (x.handleWrite res = x.log .handleWrite ∧ ¬ x.Drains res) ∨
    ∃ taken rest b, x.isWriting = true ∧ x.backlog = taken ++ rest ∧ b.content = rest ∧
      (rest = [] ↔ x.Drains res) ∧
      x.handleWrite res = if rest = [] then (x.wrote taken b).drained else x.wrote taken b := by
  have hlog : (x.log .handleWrite).isWriting = x.isWriting := rfl
  unfold handleWrite
  simp only [hlog, SafeBuffer.writeFd_eq]
  split_ifs with hw
  · rcases res with errno | n
    · refine Or.inl ⟨rfl, ?_⟩
      rintro ⟨-, -, n, he, -⟩
      cases he
    · by_cases hn : min n x.backlog.length = 0
      · refine Or.inl ⟨?_, ?_⟩
        · have htake : x.backlog.take n = [] := by
            rw [List.take_eq_nil_iff, ← List.length_eq_zero_iff]; omega
          simp only [backlog] at hn htake
          simp [write, log, hn, htake, accept]
        · rintro ⟨-, hne, m, he, hle⟩
          cases he
          have := List.length_pos_of_ne_nil hne
          omega
      · have hrest : (x.conn.outputBuffer_.retrieve (min n x.backlog.length)).content =
            x.backlog.drop n := by
          rw [SafeBuffer.content_retrieve]
          change x.backlog.drop (min n x.backlog.length) = _
          rcases Nat.le_total n x.backlog.length with hle | hle
          · rw [Nat.min_eq_left hle]
          · rw [Nat.min_eq_right hle, List.drop_length, List.drop_of_length_le hle]
        refine Or.inr ⟨x.backlog.take n, x.backlog.drop n, _, hw,
          (List.take_append_drop _ _).symm, hrest, ?_, ?_⟩
        · rw [List.drop_eq_nil_iff]
          refine ⟨fun hle => ⟨hw, ?_, n, rfl, hle⟩, ?_⟩
          · rintro hnil
            simp [hnil] at hn
          · rintro ⟨-, -, m, he, hle⟩
            cases he
            exact hle
        · have hempty : (x.conn.outputBuffer_.retrieve (min n x.backlog.length)).readableBytes = 0 ↔
              x.backlog.drop n = [] := by
            rw [SafeBuffer.readableBytes_eq, hrest, List.length_eq_zero_iff]
          have hpos : min n x.backlog.length > 0 := Nat.pos_of_ne_zero hn
          by_cases hr : x.backlog.drop n = []
          · have h0 := hempty.mpr hr
            rw [if_pos hr]
            simp only [backlog] at hpos h0
            simp only [wrote, write, log, accept, backlog, hpos, if_true, h0]
          · have h0 := mt hempty.mp hr
            rw [if_neg hr]
            simp only [backlog] at hpos h0
            simp only [wrote, write, log, accept, backlog, hpos, if_true, h0, if_false]
  · exact Or.inl ⟨rfl, fun hd => hw hd.1⟩

/-- **What `handleRead` can do**: log an error, close on a read of nothing, or hand what was
read to the user. -/
theorem handleRead_cases (res : ReadResult) (onMessage onDown : Script) (x : Ctx) :
    ∃ b, ((∃ errno, res = .error errno) ∧
        x.handleRead res onMessage onDown = { x.log .handleRead with conn.inputBuffer_ := b }) ∨
      (res = .ok [] ∧ x.handleRead res onMessage onDown =
        handleClose onDown { x.log .handleRead with conn.inputBuffer_ := b }) ∨
      ((∃ bs, bs ≠ [] ∧ res = .ok bs) ∧ x.handleRead res onMessage onDown =
        runScript onMessage
          (log .messageCallback { x.log .handleRead with conn.inputBuffer_ := b })) := by
  refine ⟨((x.log .handleRead).conn.inputBuffer_.readFd res).2, ?_⟩
  unfold handleRead
  rcases res with errno | bs
  · exact Or.inl ⟨⟨errno, rfl⟩, rfl⟩
  · have hn := ((x.log .handleRead).conn.inputBuffer_.readFd_ok bs).1
    have hz := (x.log .handleRead).conn.inputBuffer_.raw.length_taken_eq_zero bs
    simp only [hn]
    by_cases hbs : bs = []
    · have h0 := hz.mpr hbs
      refine Or.inr (Or.inl ⟨by rw [hbs], ?_⟩)
      rw [if_neg (by omega)]
    · refine Or.inr (Or.inr ⟨⟨bs, hbs, rfl⟩, ?_⟩)
      rw [if_pos (Nat.pos_of_ne_zero (mt hz.mp hbs))]

/-! ### What a callback does -/

/-- A property that no call made by a callback of the user breaks. -/
structure Closed (P : Ctx → Prop) : Prop where
  same : ∀ {x y}, x.Same y → P x → P y
  input : ∀ {x : Ctx} b, P x → P { x with conn.inputBuffer_ := b }
  sendInLoop : ∀ {x} data res, P x → P (x.sendInLoop data res)
  disconnecting : ∀ {x}, x.conn.state_ = .kConnected → P x →
    P ((x.log .shutdown).setState .kDisconnectiong)
  shutdownInLoop : ∀ {x}, P x → P x.shutdownInLoop

variable {P : Ctx → Prop}

lemma Closed.runInloop (hP : Closed P) {x : Ctx} (f : Functor) {run : Ctx → Ctx}
    (hrun : P x → P (run x)) (h : P x) : P (x.runInloop f run) := by
  unfold Ctx.runInloop
  split_ifs
  · exact hrun h
  · exact hP.same rfl h

lemma Closed.act (hP : Closed P) {x : Ctx} (a : UserAct) (h : P x) : P (x.act a) := by
  cases a with
  | send data res =>
      rw [Ctx.act, send]
      split_ifs
      · exact hP.runInloop _ (hP.sendInLoop data res) h
      · exact h
  | shutdown =>
      rw [Ctx.act, shutdown]
      split_ifs with hst
      · exact hP.runInloop _ hP.shutdownInLoop (hP.disconnecting hst h)
      · exact h
  | retrieve len => exact hP.input _ h

lemma Closed.runScript (hP : Closed P) {x : Ctx} (acts : Script) (h : P x) :
    P (x.runScript acts) := by
  induction acts generalizing x with
  | nil => exact h
  | cons a acts ih => exact ih (hP.act a h)

/-! ### Calls made and not undone -/

lemma calls_shutdownInLoop (x : Ctx) :
    x.shutdownInLoop.calls = x.calls ++ if x.isWriting then [.shutdownInLoop]
      else [.shutdownInLoop, .shutdownWrite x.backlog.length] := by
  have hw : (x.log .shutdownInLoop).isWriting = x.isWriting := rfl
  unfold shutdownInLoop
  simp only [hw]
  cases x.isWriting <;> simp [calls, shutdownWrite, log, backlog]

lemma calls_bufferRest (rest : List Byte) (x : Ctx) :
    (x.bufferRest rest).calls = x.calls ++ if x.isWriting then [] else [.updateChannel] := by
  obtain ⟨y, hs, he⟩ := bufferRest_cases rest x
  rw [he, hs]
  split_ifs <;> simp [enableWriting, onChannel, calls, log]

/-- What `drained` calls, the mask of the channel being as `disableWriting` leaves it. -/
lemma calls_drained (x : Ctx) :
    x.drained.calls = x.calls ++ .updateChannel ::
      if x.conn.state_ = .kDisconnectiong then
        if x.disableWriting.isWriting then [.shutdownInLoop]
        else [.shutdownInLoop, .shutdownWrite x.backlog.length]
      else [] := by
  have hs := same_queueWriteComplete x.disableWriting
  have hup : x.disableWriting.calls = x.calls ++ [.updateChannel] := calls_log _ _
  unfold drained
  generalize x.disableWriting.queueWriteComplete = y at hs ⊢
  have hst : y.conn.state_ = x.conn.state_ := by rw [hs]; rfl
  have hw : y.isWriting = x.disableWriting.isWriting := by rw [hs]; rfl
  have hb : y.backlog = x.backlog := by rw [hs]; rfl
  have hy : y.calls = x.disableWriting.calls := by rw [hs]; rfl
  simp only [hst]
  split_ifs with hd <;> simp_all [calls_shutdownInLoop]

/-- A call of `sendInLoop` is recorded once, as it ends. -/
lemma calls_sendInLoop (data : List Byte) (res : WriteResult) (x : Ctx) :
    ∃ updates ok, (∀ c ∈ updates, c = .updateChannel) ∧
      (x.sendInLoop data res).calls = x.calls ++ updates ++ [.sendInLoop data ok] := by
  rcases sendInLoop_cases data res x with ⟨he, -⟩ | ⟨taken, rest, y, -, -, -, hs, he⟩
  · exact ⟨[], false, by simp, by simp [he]⟩
  · have hy : y.calls = x.calls := by rw [hs]; rfl
    rw [he]
    split_ifs
    · exact ⟨[], true, by simp, by simp [hy]⟩
    · refine ⟨_, true, ?_, by rw [calls_log, calls_bufferRest, hy]⟩
      intro c hc
      split_ifs at hc <;> simp_all

/-- A call once made stays recorded. -/
lemma closed_mem (call : Call) : Closed fun x => call ∈ x.calls where
  same hs h := by rw [hs]; exact h
  input _ h := h
  sendInLoop {x} data res h := by
    obtain ⟨updates, ok, -, hc⟩ := calls_sendInLoop data res x
    simp [hc, h]
  disconnecting {x} _ h := by
    have hc : ((x.log .shutdown).setState .kDisconnectiong).calls = x.calls ++ [.shutdown] :=
      x.calls_log .shutdown
    simp [hc, h]
  shutdownInLoop {x} h := by simp [calls_shutdownInLoop, h]

lemma mem_calls_connectionCallback {call : Call} (acts : Script) {x : Ctx}
    (h : call ∈ x.calls) : call ∈ (x.connectionCallback acts).calls :=
  (closed_mem call).runScript acts (by simp [h])

lemma calls_disableAll (x : Ctx) : x.disableAll.calls = x.calls ++ [.updateChannel] := by
  simp [disableAll, onChannel, calls, log]

/-- The connection has neither been closed nor destroyed. -/
def Open (x : Ctx) : Prop := .handleClose ∉ x.calls ∧ .connectDestroy ∉ x.calls

instance (x : Ctx) : Decidable x.Open := inferInstanceAs (Decidable (_ ∧ _))

lemma Open.of_append {x y : Ctx} {l : List Call} (hc : y.calls = x.calls ++ l) (h : y.Open) :
    x.Open := by
  simp only [Open, hc, List.mem_append, not_or] at h
  exact ⟨h.1.1, h.2.1⟩

lemma Open.append {x y : Ctx} {l : List Call} (hc : y.calls = x.calls ++ l)
    (hl : ∀ c ∈ l, c ≠ .handleClose ∧ c ≠ .connectDestroy) (h : x.Open) : y.Open := by
  refine ⟨?_, ?_⟩ <;> rw [hc, List.mem_append, not_or]
  · exact ⟨h.1, fun hm => (hl _ hm).1 rfl⟩
  · exact ⟨h.2, fun hm => (hl _ hm).2 rfl⟩

/-- What is recorded by the time `handleClose` runs stays recorded, its own call included. -/
lemma mem_calls_handleClose {call : Call} (onDown : Script) {x : Ctx}
    (h : call ∈ (x.log .handleClose).calls) : call ∈ (x.handleClose onDown).calls := by
  have hm : call ∈ ((x.log .handleClose).setState .kDisconnected).disableAll.calls := by
    rw [calls_disableAll]
    exact List.mem_append_left _ h
  unfold handleClose
  simp only [emit, calls, log, List.map_append, List.mem_append]
  exact Or.inl (mem_calls_connectionCallback onDown hm)

lemma mem_calls_connectDestroy {call : Call} (onDown : Script) {x : Ctx}
    (h : call ∈ (x.log .connectDestroy).calls) : call ∈ (x.connectDestroy onDown).calls := by
  unfold connectDestroy remove
  simp only [calls_log, onChannel]
  refine List.mem_append_left _ ?_
  split_ifs
  · refine mem_calls_connectionCallback onDown ?_
    rw [calls_disableAll]
    exact List.mem_append_left _ h
  · exact h

lemma not_open_handleClose (onDown : Script) (x : Ctx) : ¬ (x.handleClose onDown).Open :=
  fun h => h.1 (mem_calls_handleClose onDown (by simp))

lemma not_open_connectDestroy (onDown : Script) (x : Ctx) : ¬ (x.connectDestroy onDown).Open :=
  fun h => h.2 (mem_calls_connectDestroy onDown (by simp))

end Ctx

/-! ### Runs -/

/-- A step of a run: a member function run by the loop, or a call of `send` or `shutdown` by
a thread. -/
inductive ConnOp
  | sendInLoop (data : List Byte) (res : WriteResult)
  | handleWrite (res : WriteResult)
  | handleRead (res : ReadResult) (onMessage onDown : Script)
  | handleClose (onDown : Script)
  | shutdownInLoop
  | connectDestroy (onDown : Script)
  | call (tid : LoopId) (act : UserAct)

namespace Ctx

/-- `a`, made by the thread `tid`. -/
def actBy (tid : LoopId) (a : UserAct) (x : Ctx) : Ctx :=
  { ({ x with tid := tid } : Ctx).act a with tid := x.tid }

def step (x : Ctx) : ConnOp → Ctx
  | .sendInLoop data res => x.sendInLoop data res
  | .handleWrite res => x.handleWrite res
  | .handleRead res onMessage onDown => x.handleRead res onMessage onDown
  | .handleClose onDown => x.handleClose onDown
  | .shutdownInLoop => x.shutdownInLoop
  | .connectDestroy onDown => x.connectDestroy onDown
  | .call tid a => x.actBy tid a

/-- No call is forgotten. -/
lemma mem_calls_step {call : Call} (op : ConnOp) {x : Ctx} (h : call ∈ x.calls) :
    call ∈ (x.step op).calls := by
  cases op with
  | sendInLoop data res => exact (closed_mem call).sendInLoop data res h
  | handleWrite res =>
      rcases handleWrite_cases res x with ⟨he, -⟩ | ⟨taken, rest, b, -, -, -, -, he⟩
      · simp [step, he, h]
      · rw [step, he]
        split_ifs
        · rw [calls_drained, calls_wrote]
          simp [h]
        · simp [h]
  | handleRead res onMessage onDown =>
      have hlog (b : SafeBuffer) :
          call ∈ calls { x.log .handleRead with conn.inputBuffer_ := b } := by
        change call ∈ (x.log .handleRead).calls
        simp [h]
      obtain ⟨b, ⟨-, he⟩ | ⟨-, he⟩ | ⟨-, he⟩⟩ := handleRead_cases res onMessage onDown x
      · rw [step, he]
        exact hlog b
      · rw [step, he]
        refine mem_calls_handleClose onDown ?_
        rw [calls_log]
        exact List.mem_append_left _ (hlog b)
      · rw [step, he]
        refine (closed_mem call).runScript onMessage ?_
        rw [calls_log]
        exact List.mem_append_left _ (hlog b)
  | handleClose onDown => exact mem_calls_handleClose onDown (by simp [h])
  | shutdownInLoop => exact (closed_mem call).shutdownInLoop h
  | connectDestroy onDown => exact mem_calls_connectDestroy onDown (by simp [h])
  | call tid a => exact (closed_mem call).act (x := { x with tid := tid }) a h

/-- A connection once closed or destroyed is not open again. -/
lemma open_of_step {x : Ctx} {op : ConnOp} (h : (x.step op).Open) : x.Open :=
  ⟨fun hm => h.1 (mem_calls_step op hm), fun hm => h.2 (mem_calls_step op hm)⟩

end Ctx

/-- What a connection is constructed with, and what its loop polls already. -/
structure Conf where
  id : ConnId
  loop : LoopId
  name : String
  sockfd : ℕ
  writeCompleteCallback : Bool
  highWaterMarkCallback : Bool
  highWaterMark : ℕ
  poller : EpollPoller ConnId

namespace Conf

/-- The connection before `connectEstablished`, on the thread of its loop. -/
def fresh (conf : Conf) : Ctx where
  id := conf.id
  conn := { TcpConnection.new conf.loop conf.name conf.sockfd with
    writeCompleteCallback_ := conf.writeCompleteCallback
    highWaterMarkCallback_ := conf.highWaterMarkCallback
    highWaterMark_ := conf.highWaterMark }
  poller_ := conf.poller
  tid := conf.loop
  trace := []
  out := []

/-- A connection on the base loop, alone in its poller and with no callback to set. -/
def plain : Conf where
  id := 0
  loop := 0
  name := ""
  sockfd := 5
  writeCompleteCallback := false
  highWaterMarkCallback := false
  highWaterMark := 64 * 1024 * 1024
  poller := .new

def established (conf : Conf) (onUp : Script) : Ctx := conf.fresh.connectEstablished onUp

end Conf

end Reactor
