import Reactor.LifetimeSteps
import Reactor.RoundRobin

/-!
`EchoServer.cc`: a server that answers `OK` to whatever a client sends and shuts down its
half of the connection.

What becomes of a connection is one of four things, decided by the `::write` of its first
message. Where a byte had to wait, `disableWriting` leaves `EPOLLOUT` watched, and the write
half is never shut down.
-/

namespace Reactor

open Lib.Trace

namespace EchoServer

/-- `"OK"`. -/
def ok : List Byte := [79, 75]

/-- `onConnection` prints a line. -/
def onConnection : Script := []

/-- `onMessage`, with the answer of the `::write` that its `send` may make. -/
def onMessage (res : WriteResult) : Script := [.send ok res, .shutdown]

/-- A step in which the callbacks are those of the server, and in which no thread calls
`send` or `shutdown` but from these. -/
def Runs : ServerAct → Prop
  | .accept _ onUp => onUp = onConnection
  | .handle _ env => env.onHup = onConnection ∧ env.onDown = onConnection ∧
      ∃ res, env.onMessage = onMessage res
  | .functor _ env => env.acts = onConnection
  | .userCall _ _ _ => False
  | .destroyNext _ onDown => onDown = onConnection
  | _ => True

/-! ### What a client is given -/

/-- What becomes of the answer to a client. -/
inductive Answer
  /-- the client has not asked, or the connection was down by then -/
  | unasked
  /-- the peer was gone -/
  | refused
  /-- the kernel took both bytes -/
  | whole
  /-- a byte had to wait -/
  | held
  deriving DecidableEq

/-- What the `::write` of the first message decides. -/
def Answer.of : WriteResult → Answer
  | .ok n => if ok.length ≤ n then .whole else .held
  | .error errno => if errno = EPIPE ∨ errno = ECONNRESET then .refused else .held

/-- A connection as its client and the write side see it. -/
structure Face where
  state : StateE
  sent : List Byte
  waiting : List Byte
  shutWr : Bool
  writing : Bool
  deriving DecidableEq

def face (c : TcpConnection) : Face where
  state := c.state_
  sent := c.socket_.sent
  waiting := c.outputBuffer_.content
  shutWr := c.socket_.shutWr
  writing := c.channel_.isWriting

/-- The connection answers no more. -/
def Face.Past (f : Face) : Prop := f.state = .kDisconnectiong ∨ f.state = .kDisconnected

/-- How an answer shows: what the client has been given, what waits, and whether the write
half is shut down. -/
def Face.Stands (f : Face) : Answer → Prop
  | .unasked => f.state ≠ .kDisconnectiong ∧ f.sent = [] ∧ f.waiting = [] ∧
      f.shutWr = false ∧ f.writing = false
  | .refused => f.Past ∧ f.sent = [] ∧ f.waiting = [] ∧ f.shutWr = true ∧ f.writing = false
  | .whole => f.Past ∧ f.sent = ok ∧ f.waiting = [] ∧ f.shutWr = true ∧ f.writing = false
  | .held => f.Past ∧ f.sent ++ f.waiting = ok ∧ f.shutWr = false ∧
      (f.state = .kDisconnectiong → f.writing = true)

/-- An answer shows. -/
lemma Face.Stands.unique {f : Face} {a b : Answer} (ha : f.Stands a) (hb : f.Stands b) :
    a = b := by
  have hok : ok ≠ [] := by decide
  cases a <;> cases b <;> simp_all [Face.Stands]

/-- `kDisconnected`, with nothing watched. -/
def Face.down (f : Face) : Face := { f with state := .kDisconnected, writing := false }

lemma Face.Stands.down {f : Face} {a : Answer} (h : f.Stands a) : f.down.Stands a := by
  cases a <;> simp_all [Face.Stands, Face.down, Face.Past]

end EchoServer

namespace Ctx

open EchoServer

variable {x : Ctx} {a : Answer}

def face (x : Ctx) : Face := EchoServer.face x.conn

lemma face_disableAll (x : Ctx) : x.disableAll.face = { x.face with writing := false } := by
  have hw : x.disableAll.isWriting = false := by
    have hev : x.disableAll.events = kNoneEvent := Channel.withEvents_events _ _ _ _
    rw [Bool.eq_false_iff, Ne, isWriting_iff, hev]
    decide
  exact congrArg (Face.mk _ _ _ _) hw

lemma face_enableReading (x : Ctx) : x.enableReading.face = x.face := by
  have hw : x.enableReading.isWriting = x.isWriting := by
    have hev : x.enableReading.events = x.events ||| kReadEvent :=
      Channel.withEvents_events _ _ _ _
    have hmask : kReadEvent &&& EPOLLOUT = 0#32 := by decide
    refine isWriting_eq_of_events ?_
    rw [hev, BitVec.and_or_distrib_right, hmask, BitVec.or_zero]
  exact congrArg (Face.mk _ _ _ _) hw

lemma face_connectEstablished (x : Ctx) :
    (x.connectEstablished onConnection).face = { x.face with state := .kConnected } :=
  face_enableReading _

lemma face_handleClose (x : Ctx) : (x.handleClose onConnection).face = x.face.down :=
  face_disableAll _

lemma face_connectDestroy (x : Ctx) :
    (x.connectDestroy onConnection).face =
      if x.conn.state_ = .kConnected then x.face.down else x.face := by
  have hremove : ∀ y : Ctx, y.remove.face = y.face := fun y =>
    congrArg (fun w => Face.mk y.conn.state_ _ _ _ (decide (w &&& kWriteEvent ≠ 0)))
      (Channel.remove_events y.id y.conn.channel_ y.poller_)
  split_ifs with hst
  · rw [connectDestroy_connected _ hst, hremove]
    exact face_disableAll _
  · rw [connectDestroy_eq _ hst, hremove]
    rfl

/-! ### The first message -/

/-- What `sendInLoop` does when nothing is waiting. -/
lemma sendInLoop_idle {data : List Byte} (res : WriteResult) (hne : data ≠ [])
    (hst : x.conn.state_ ≠ .kDisconnected) (hw : x.WritesDirectly) :
    x.sendInLoop data res = match res with
      | .ok n => log (.sendInLoop data true)
          (if data.length ≤ n then (x.accept data).queueWriteComplete
            else (x.accept (data.take n)).bufferRest (data.drop n))
      | .error errno =>
          if errno = EPIPE ∨ errno = ECONNRESET then x.log (.sendInLoop data false)
          else (x.bufferRest data).log (.sendInLoop data true) := by
  have hlen : data.length ≠ 0 := by simpa using hne
  rcases res with errno | n
  · by_cases hf : errno = EPIPE ∨ errno = ECONNRESET
    · have hblock : errno ≠ EWOULDBLOCK := by rcases hf with rfl | rfl <;> decide
      simp [sendInLoop, hst, hw, writeDirectly, write, hblock, hf]
    · simp [sendInLoop, hst, hw, writeDirectly, write, hf, Nat.pos_of_ne_zero hlen]
  · by_cases hall : data.length ≤ n
    · simp [sendInLoop, hst, hw, writeDirectly, write, hall, List.take_of_length_le hall]
    · have hmin : min n data.length = n := by omega
      have hpos : data.length - n ≠ 0 := by omega
      simp [sendInLoop, hst, hw, writeDirectly, write, hmin, hpos, hall, List.take_of_length_le,
        Nat.sub_pos_of_lt (Nat.lt_of_not_le hall)]

lemma face_bufferRest (rest : List Byte) (hw : x.isWriting = false) :
    (x.bufferRest rest).face =
      { x.face with waiting := x.backlog ++ rest, writing := true } := by
  obtain ⟨y, hs, he⟩ := bufferRest_cases rest x
  have hcontent : (x.conn.outputBuffer_.append rest).content = x.backlog ++ rest :=
    SafeBuffer.content_append _ _
  rw [hw, if_neg Bool.false_ne_true] at he
  rw [he, hs, ← hcontent]
  exact congrArg (Face.mk _ _ _ _) (isWriting_enableWriting _)

/-- How a connection with nothing waiting shows after `sendInLoop`. -/
lemma face_sendInLoop {data : List Byte} (res : WriteResult) (hne : data ≠ [])
    (hst : x.conn.state_ ≠ .kDisconnected) (hw : x.WritesDirectly) :
    (x.sendInLoop data res).face = match res with
      | .ok n =>
          if data.length ≤ n then { x.face with sent := x.face.sent ++ data }
          else { x.face with
            sent := x.face.sent ++ data.take n
            waiting := x.face.waiting ++ data.drop n
            writing := true }
      | .error errno =>
          if errno = EPIPE ∨ errno = ECONNRESET then x.face
          else { x.face with waiting := x.face.waiting ++ data, writing := true } := by
  have hcomplete : ∀ y : Ctx, y.queueWriteComplete.face = y.face := by
    intro y
    rw [same_queueWriteComplete y]
    rfl
  rw [sendInLoop_idle res hne hst hw]
  rcases res with errno | n
  · simp only
    split_ifs
    · rfl
    · exact face_bufferRest data hw.1
  · simp only
    split_ifs
    · exact hcomplete _
    · exact face_bufferRest (x := x.accept (data.take n)) _ hw.1

lemma face_shutdownInLoop (x : Ctx) :
    x.shutdownInLoop.face = { x.face with shutWr := !x.face.writing || x.face.shutWr } := by
  obtain ⟨hstate, hb, hw, hshut⟩ := shutdownInLoop_fields x
  have hsent : x.shutdownInLoop.conn.socket_.sent = x.conn.socket_.sent := by
    unfold shutdownInLoop
    simp only
    split_ifs <;> rfl
  unfold face EchoServer.face
  rw [hstate, hsent, hshut]
  exact congrArg₂ (fun b w => Face.mk _ _ b _ w) hb hw

/-- `shutdown`, in the thread of the loop. -/
lemma face_shutdown (hin : x.isInLoopThread = true) (hst : x.conn.state_ = .kConnected) :
    x.shutdown.face =
      { x.face with
        state := .kDisconnectiong
        shutWr := !x.face.writing || x.face.shutWr } := by
  have hin' : ((x.log .shutdown).setState .kDisconnectiong).isInLoopThread = true := hin
  rw [shutdown, if_pos hst, Ctx.runInloop, if_pos hin', face_shutdownInLoop]
  rfl

/-- **The first message decides the answer.** -/
theorem stands_message (res : WriteResult) (hin : x.isInLoopThread = true)
    (hst : x.conn.state_ = .kConnected) (h : x.face.Stands .unasked) :
    (x.runScript (onMessage res)).face.Stands (.of res) := by
  obtain ⟨-, hsent, hwait, hshut, hw⟩ := h
  have hidle : x.WritesDirectly := by
    refine ⟨hw, ?_⟩
    rw [SafeBuffer.readableBytes_eq]
    exact List.length_eq_zero_iff.mpr hwait
  have hsend : x.send ok res = x.sendInLoop ok res := by
    rw [send, if_pos hst, Ctx.runInloop, if_pos hin]
  have hscript : x.runScript (onMessage res) = (x.sendInLoop ok res).shutdown := by
    rw [← hsend]
    rfl
  obtain ⟨-, hst', hin', -⟩ := sendInLoop_fields ok res x
  rw [hscript, face_shutdown (hin'.trans hin) (hst'.trans hst),
    face_sendInLoop res (by decide) (by rw [hst]; decide) hidle]
  rcases res with errno | n
  · simp only [Answer.of]
    split_ifs <;> simp [Face.Stands, Face.Past, hsent, hwait, hshut, hw]
  · simp only [Answer.of]
    split_ifs <;> simp [Face.Stands, Face.Past, hsent, hwait, hshut, hw]

/-- No message but the first is answered. -/
lemma runScript_onMessage (res : WriteResult) (hst : x.conn.state_ ≠ .kConnected) :
    x.runScript (onMessage res) = x := by
  have hsend : x.send ok res = x := if_neg hst
  have hshut : x.shutdown = x := if_neg hst
  change (x.send ok res).shutdown = x
  rw [hsend, hshut]

/-! ### Events -/

/-- The tail of a write event shows nothing: `EPOLLOUT` is still watched. -/
lemma face_drained (hw : x.isWriting = true) : x.drained.face = x.face := by
  have hdw : x.disableWriting.face = x.face :=
    congrArg (Face.mk _ _ _ _) (isWriting_disableWriting x)
  have hy : x.disableWriting.queueWriteComplete.face = x.face := by
    rw [same_queueWriteComplete x.disableWriting]
    exact hdw
  have hyw : x.disableWriting.queueWriteComplete.face.writing = true := by rw [hy]; exact hw
  unfold drained
  simp only
  split_ifs
  · rw [face_shutdownInLoop, hyw, ← hy]
    rfl
  · exact hy

/-- A write event goes on with what waits. -/
lemma stands_handleWrite (res : WriteResult) (h : x.face.Stands a) :
    (x.handleWrite res).face.Stands a ∧ (x.handleWrite res).face.state = x.face.state := by
  rcases handleWrite_cases res x with ⟨he, -⟩ | ⟨taken, rest, b, hw, hb, hcontent, -, he⟩
  · rw [he]
    exact ⟨h, rfl⟩
  · have hwriting : x.face.writing = true := hw
    have hwrote : (x.wrote taken b).face =
        { x.face with sent := x.face.sent ++ taken, waiting := rest } :=
      congrArg (fun b => Face.mk _ _ b _ _) hcontent
    have hface : (x.handleWrite res).face =
        { x.face with sent := x.face.sent ++ taken, waiting := rest } := by
      rw [he]
      split_ifs
      · rw [face_drained (by exact hw), hwrote]
      · exact hwrote
    rw [hface]
    refine ⟨?_, rfl⟩
    cases a with
    | held =>
        obtain ⟨hpast, hstream, hshut, -⟩ := h
        have hwait : x.face.waiting = taken ++ rest := hb
        refine ⟨hpast, ?_, hshut, fun _ => hwriting⟩
        rw [List.append_assoc, ← hwait]
        exact hstream
    | unasked | refused | whole =>
        -- the channel of such a connection is not writing
        rw [h.2.2.2.2] at hwriting
        cases hwriting

end Ctx

/-! ### One event -/

namespace EchoServer

/-- The event brings the first message of a client. -/
def Asks (c : TcpConnection) (env : EventEnv) : Prop :=
  c.state_ = .kConnected ∧ Channel.hangsUp c.channel_.revents_ = false ∧
    Channel.reads c.channel_.revents_ = true ∧ ∃ bs, bs ≠ [] ∧ env.read = .ok bs

end EchoServer

namespace Ctx

open EchoServer

variable {x : Ctx} {a : Answer}

/-- A read that is not the first message of a connection. -/
lemma stands_handleRead (read : ReadResult) (res : WriteResult) (h : x.face.Stands a)
    (hno : x.face.state = .kConnected → ∀ bs, bs ≠ [] → read ≠ .ok bs) :
    (x.handleRead read (onMessage res) onConnection).face.Stands a ∧
      ((x.handleRead read (onMessage res) onConnection).face.state = .kConnected →
        x.face.state = .kConnected) := by
  obtain ⟨b, ⟨-, he⟩ | ⟨-, he⟩ | ⟨⟨bs, hbs, hread⟩, he⟩⟩ :=
    handleRead_cases read (onMessage res) onConnection x <;> rw [he]
  · exact ⟨h, fun hst => hst⟩
  · rw [face_handleClose]
    exact ⟨h.down, by rintro ⟨⟩⟩
  · have hst : x.conn.state_ ≠ .kConnected := fun hst => hno hst bs hbs hread
    rw [runScript_onMessage res (by exact hst)]
    exact ⟨h, fun hst => hst⟩

/-- **What an event does to the answer.** The first message decides it, and nothing else
changes it. -/
theorem stands_handleEvent {env : EventEnv} {res : WriteResult} (hin : x.isInLoopThread = true)
    (hhup : env.onHup = onConnection) (hdown : env.onDown = onConnection)
    (hmsg : env.onMessage = onMessage res) (h : x.face.Stands a) :
    (Asks x.conn env → (x.handleEvent env).face.Stands (.of res)) ∧
      (¬ Asks x.conn env → (x.handleEvent env).face.Stands a ∧
        ((x.handleEvent env).face.state = .kConnected → x.face.state = .kConnected)) := by
  have hwrite : ∀ {y : Ctx} {b : Answer}, y.face.Stands b →
      (if Channel.writes x.conn.channel_.revents_ then y.handleWrite env.write
        else y).face.Stands b ∧
      (if Channel.writes x.conn.channel_.revents_ then y.handleWrite env.write
        else y).face.state = y.face.state := by
    intro y b hy
    split_ifs
    · exact stands_handleWrite _ hy
    · exact ⟨hy, rfl⟩
  unfold Ctx.handleEvent
  simp only
  rw [hhup, hdown, hmsg]
  constructor
  · rintro ⟨hst, hclose, hreads, bs, hbs, hread⟩
    have hclose' : ¬ Channel.hangsUp x.conn.channel_.revents_ = true := by
      rw [hclose]
      decide
    rw [if_neg hclose', if_pos hreads]
    refine (hwrite ?_).1
    have hun : x.face.Stands .unasked := by
      have hface : x.face.state = .kConnected := hst
      cases a with
      | unasked => exact h
      | refused | whole | held =>
          rcases h.1 with hp | hp <;> cases hface.symm.trans hp
    obtain ⟨b, ⟨⟨errno, hr⟩, -⟩ | ⟨hr, -⟩ | ⟨-, he⟩⟩ :=
      handleRead_cases env.read (onMessage res) onConnection x
    · cases hread.symm.trans hr
    · exact absurd (Except.ok.inj (hread.symm.trans hr)) hbs
    · rw [he]
      exact stands_message res hin hst hun
  · intro hno
    -- the hang-up comes first
    have hup : (if Channel.hangsUp x.conn.channel_.revents_ then x.handleClose onConnection
          else x).face.Stands a ∧
        ((if Channel.hangsUp x.conn.channel_.revents_ then x.handleClose onConnection
          else x).face.state = .kConnected →
          Channel.hangsUp x.conn.channel_.revents_ = false ∧ x.face.state = .kConnected) := by
      split_ifs with hclose
      · rw [face_handleClose]
        exact ⟨h.down, by rintro ⟨⟩⟩
      · exact ⟨h, fun hst => ⟨Bool.eq_false_iff.mpr hclose, hst⟩⟩
    generalize (if Channel.hangsUp x.conn.channel_.revents_ then x.handleClose onConnection
      else x) = y at hup ⊢
    obtain ⟨hy, hst⟩ := hup
    by_cases hreads : Channel.reads x.conn.channel_.revents_ = true
    · rw [if_pos hreads]
      obtain ⟨hz, hzst⟩ := stands_handleRead env.read res hy
        fun hyst bs hbs hread => hno ⟨(hst hyst).2, (hst hyst).1, hreads, bs, hbs, hread⟩
      refine ⟨(hwrite hz).1, fun hk => ?_⟩
      rw [(hwrite hz).2] at hk
      exact (hst (hzst hk)).2
    · rw [if_neg hreads]
      refine ⟨(hwrite hy).1, fun hk => ?_⟩
      rw [(hwrite hy).2] at hk
      exact (hst hk).2

end Ctx

/-! ### The server -/

namespace EchoServer

/-- The connection has not been connected yet, or was down before it was. -/
def Face.Blank (f : Face) : Prop := f.Stands .unasked ∧ f.state ≠ .kConnected

/-- A connection that is taken down unless it is on its way. -/
def Face.destroyed (f : Face) : Face := if f.state = .kConnected then f.down else f

lemma Face.Stands.destroyed {f : Face} {a : Answer} (h : f.Stands a) : f.destroyed.Stands a := by
  unfold Face.destroyed
  split_ifs
  · exact h.down
  · exact h

lemma Face.Blank.destroyed {f : Face} (h : f.Blank) : f.destroyed.Blank := by
  rw [Face.destroyed, if_neg h.2]
  exact h

/-- A connection that is established now shows nothing yet. -/
lemma Face.Blank.established {f : Face} (h : f.Blank) :
    Face.Stands { f with state := .kConnected } .unasked := ⟨by rintro ⟨⟩, h.1.2⟩

lemma blank_newConn (conf : ServerConf) (sockfd : ℕ) (s : ServerSys) :
    (face (ServerSys.newConn conf sockfd s)).Blank := by
  have hcontent : (SafeBuffer.new kInitialSize).content = [] := SafeBuffer.content_new _
  have hwriting : (face (ServerSys.newConn conf sockfd s)).writing = false := by
    simp [face, ServerSys.newConn, TcpConnection.new, Channel.new, Channel.isWriting]
  exact ⟨⟨by rintro ⟨⟩, rfl, hcontent, rfl, hwriting⟩, by rintro ⟨⟩⟩

/-- The answer to the client of a connection. -/
def Answered (c : ConnId) (s : ServerSys) (a : Answer) : Prop := (face (s.conn c)).Stands a

/-- The step handles an event of the connection. -/
def Handles (c : ConnId) (env : EventEnv) (s : ServerSys) (a : ServerAct) : Prop :=
  ∃ t active, a = .handle t env ∧ (s.loops t).pc = .handling (.conn c :: active)

/-- The step handles the first message of the connection, `res` being the answer of
`::write`. -/
def First (c : ConnId) (res : WriteResult) (s : ServerSys) (a : ServerAct) : Prop :=
  ∃ env, Handles c env s a ∧ env.onMessage = onMessage res ∧ Asks (s.conn c) env

/-- What a step may make of a connection. -/
inductive Moves (c : ConnId) (s : ServerSys) : ServerAct → Face → Prop
  | same {a : ServerAct} (hno : ∀ env, ¬ Handles c env s a) : Moves c s a (face (s.conn c))
  | established {t : LoopId} {env : FunctorEnv} {batch : List Functor}
      (hpc : (s.loops t).pc = .functors (.connectEstablished c :: batch)) :
      Moves c s (.functor t env) { face (s.conn c) with state := .kConnected }
  | destroyed {a : ServerAct} (hno : ∀ env, ¬ Handles c env s a) :
      Moves c s a (face (s.conn c)).destroyed
  | handled {t : LoopId} {env : EventEnv} {active : List ActiveChannel} {x : Ctx}
      (hpc : (s.loops t).pc = .handling (.conn c :: active)) (hx : x.conn = s.conn c)
      (hin : x.isInLoopThread = true) : Moves c s (.handle t env) (x.handleEvent env).face

variable {n : ℕ} {s s' : ServerSys}

/-- A member function of `d` changes no other connection. -/
lemma moves_withConn {c d : ConnId} {t : LoopId} {a : ServerAct} {op : Ctx → Ctx}
    {r : ServerSys} (hs : r.conn = s.conn) (hf : (r.ctx d t).Frame (op (r.ctx d t)))
    (hno : c ≠ d → ∀ env, ¬ Handles c env s a) (h : c = d → Moves c s a (op (r.ctx d t)).face) :
    Moves c s a (face ((r.withConn d t op).conn c)) := by
  rcases eq_or_ne c d with rfl | hd
  · rw [(ServerSys.applied_withConn hf).conn_self]
    exact h rfl
  · rw [(ServerSys.applied_withConn hf).conn_of_ne hd, hs]
    exact .same (hno hd)

/-- The functors that this server queues run nothing, those of `newConnection` and
`removeConnection` apart. -/
lemma auxOp_eq {env : FunctorEnv} {f : Functor} (henv : env.acts = onConnection)
    (hown : f.owns = true) (haux : f.isAux = true) (x : Ctx) :
    ServerSys.auxOp env f x = x := by
  cases f with
  | writeCompleteCallback c | highWaterMarkCallback c len =>
      change x.runScript env.acts = x
      rw [henv]
      rfl
  | sendInLoop c len | shutdownInLoop c => cases hown
  | connectEstablished c | connectDestroy c | removeConnectionInLoop c => cases haux

/-- **What a step makes of a connection.** -/
theorem moves_trans {a : ServerAct} (hp : s.Placed)
    (hown : ∀ t, ∀ f ∈ (s.loops t).jobs, f.owns = true)
    (ht : ServerSys.Trans (.echo n) s a s') (ha : Runs a) {c : ConnId} (hc : s.Made c) :
    Moves c s a (face (s'.conn c)) := by
  have hprim := fun x => Ctx.primitive_frame x
  have hnot : (∀ t env, a ≠ .handle t env) → ∀ env, ¬ Handles c env s a := by
    rintro h env ⟨t, -, he, -⟩
    exact h t env he
  cases ht with
  | leaves | waits | swaps | acceptFails | endsBatch | removes | beginsDestroy | destroysThere
  | destroysMembers | quits | joins => exact .same (hnot (by rintro _ _ ⟨⟩))
  | @polls t ready hrun hpc hready =>
      obtain ⟨conn, he, hr⟩ := ServerSys.fillActiveChannels_eq t ready s
      obtain ⟨r, hr⟩ := hr c
      rw [he]
      change Moves c s _ (face (conn c))
      rw [hr]
      exact .same (hnot (by rintro _ _ ⟨⟩))
  | @accepts sockfd onUp active hpc halive hfd hid =>
      have hold : (ServerSys.addConnection (.echo n) sockfd
          (s.setPc 0 (.handling active))).conn c = s.conn c :=
        ServerSys.addConnection_conn (by exact hc) sockfd
      have hne : c ≠ (s.setPc 0 (.handling active)).nextConnId_ := Nat.ne_of_lt hc.2
      unfold ServerSys.newConnection
      simp only
      split_ifs
      · rw [(ServerSys.applied_withConn ((hprim _).connectEstablished onUp (.refl _))).conn_of_ne
          hne, hold]
        exact .same (hnot (by rintro _ _ ⟨⟩))
      · change Moves c s _ (face ((ServerSys.addConnection _ _ _).conn c))
        rw [hold]
        exact .same (hnot (by rintro _ _ ⟨⟩))
  | @handles t env d active hrun hpc =>
      refine moves_withConn (r := s.setPc t (.handling active)) rfl
        ((hprim _).handleEvent env (.refl _)) ?_ ?_
      · rintro hne env' ⟨t', active', he, hpc'⟩
        obtain ⟨rfl, -⟩ := ServerAct.handle.inj he
        rw [hpc] at hpc'
        cases hpc'
        exact hne rfl
      rintro rfl
      exact .handled hpc rfl (decide_eq_true (hp.report hpc).2)
  | @establishes t env d batch hrun hpc =>
      have henv : env.acts = onConnection := ha
      refine moves_withConn (r := s.setPc t (.functors batch)) rfl
        ((hprim _).connectEstablished _ (.refl _)) (fun _ => hnot (by rintro _ _ ⟨⟩)) ?_
      rintro rfl
      rw [henv, Ctx.face_connectEstablished]
      exact .established hpc
  | @destroys t env d batch hrun hpc =>
      refine moves_withConn (r := s.setPc t (.functors batch)) rfl
        ((hprim _).connectDestroy _ (.refl _)) (fun _ => hnot (by rintro _ _ ⟨⟩)) ?_
      rintro rfl
      have henv : env.acts = onConnection := ha
      rw [henv, Ctx.face_connectDestroy]
      exact .destroyed (hnot (by rintro _ _ ⟨⟩))
  | @runs t env f batch hrun hpc haux =>
      refine moves_withConn (r := s.setPc t (.functors batch)) rfl
        (ServerSys.frame_auxOp env f _) (fun _ => hnot (by rintro _ _ ⟨⟩)) ?_
      rintro rfl
      have hmem : f ∈ (s.loops t).jobs := by
        rw [LoopThread.jobs, hpc]
        exact List.mem_cons_self ..
      rw [auxOp_eq ha (hown t f hmem) haux]
      exact .same (hnot (by rintro _ _ ⟨⟩))
  | userCalls => exact ha.elim
  | @destroysHere e onDown left hphase he hloop =>
      obtain rfl : onDown = onConnection := ha
      refine moves_withConn (r := { s with phase := .destroying (left.erase e) }) rfl
        ((hprim _).connectDestroy _ (.refl _)) (fun _ => hnot (by rintro _ _ ⟨⟩)) ?_
      rintro rfl
      rw [Ctx.face_connectDestroy]
      exact .destroyed (hnot (by rintro _ _ ⟨⟩))

/-! ### Connections on their way -/

/-- How often the loop `t` has still to establish the connection. -/
def establishing (c : ConnId) (t : LoopId) (s : ServerSys) : ℕ :=
  (s.loops t).jobs.count (.connectEstablished c)

variable {conf : ServerConf} {c : ConnId} {t : LoopId}

lemma establishing_setPc {i : LoopId} {pc : ThreadPc} (h : pc.batch = (s.loops i).pc.batch) :
    establishing c t (s.setPc i pc) = establishing c t s := by
  unfold establishing
  rw [ServerSys.jobs_setPc]
  split_ifs with ht
  · rw [h, ht]
    rfl
  · rfl

lemma establishing_push {i : LoopId} {f : Functor} (h : f ≠ .connectEstablished c) :
    establishing c t (s.push i f) = establishing c t s := by
  unfold establishing
  rw [ServerSys.jobs_push, List.count_append]
  split_ifs <;> simp [h]

/-- A member function queues none to establish a connection. -/
lemma establishing_applied {d : ConnId} {i : LoopId} {y : Ctx}
    (h : ServerSys.Applied d i y s s') : establishing c t s' = establishing c t s := by
  obtain ⟨l, hl, hof⟩ := h.jobs t
  have hzero : l.count (.connectEstablished c) = 0 := by
    rw [List.count_eq_zero]
    intro hm
    rcases hof _ hm with ⟨-, ⟨haux, -⟩ | ⟨-, -, hf | hf⟩⟩
    · cases haux
    · cases hf
    · cases hf
  unfold establishing
  rw [hl, List.count_append, hzero, Nat.add_zero]

/-- The next functor of a batch is taken. -/
lemma establishing_rest {i : LoopId} {f : Functor} {batch : List Functor} (env : FunctorEnv)
    (hpc : (s.loops i).pc = .functors (f :: batch)) :
    establishing c t (s.setPc i (.functors batch)) +
      (ServerSys.takenBy (.functor i env) t s).count (.connectEstablished c) =
        establishing c t s := by
  have htaken : ServerSys.takenBy (.functor i env) t s =
      if i = t then (s.loops t).pc.batch.take 1 else [] := rfl
  unfold establishing
  rw [htaken, ServerSys.jobs_setPc]
  by_cases hi : t = i
  · subst hi
    rw [if_pos rfl, if_pos rfl, LoopThread.jobs, hpc]
    simp only [ThreadPc.batch, List.take_succ_cons, List.take_zero, List.count_append,
      List.count_cons, List.count_nil]
    omega
  · rw [if_neg hi, if_neg (Ne.symm hi)]
    rfl

/-- **Only `newConnection` has a connection established**, and a functor that has run is
gone. -/
theorem establishing_trans {a : ServerAct} (ht : ServerSys.Trans conf s a s') (c : ConnId)
    (t : LoopId) :
    establishing c t s' + (ServerSys.takenBy a t s).count (.connectEstablished c) ≤
      establishing c t s + if c < s.nextConnId_ then 0 else 1 := by
  have hprim := fun x => Ctx.primitive_frame x
  cases ht with
  | @leaves i hrun hpc hquit =>
      unfold establishing
      rw [ServerSys.setLoop_loops]
      split_ifs <;> simp [LoopThread.jobs, ThreadPc.batch, ServerSys.takenBy]
  | @waits i hrun hpc hquit =>
      have h : establishing c t (s.setPc i .poll) = establishing c t s :=
        establishing_setPc (by rw [hpc]; rfl)
      rw [h]
      simp [ServerSys.takenBy]
  | @polls i ready hrun hpc hready =>
      obtain ⟨conn, he, -⟩ := ServerSys.fillActiveChannels_eq i ready s
      have h : establishing c t (({ s with conn := conn } : ServerSys).setPc i
          (.handling (ready.filterMap (ServerSys.activeOf (s.loops i).poller_)))) =
          establishing c t { s with conn := conn } :=
        establishing_setPc (by change _ = (s.loops i).pc.batch; rw [hpc]; rfl)
      rw [he, h]
      exact Nat.le_add_right _ _
  | @accepts sockfd onUp active hpc halive hfd hid =>
      have h : establishing c t (s.setPc 0 (.handling active)) = establishing c t s :=
        establishing_setPc (by rw [hpc]; rfl)
      unfold ServerSys.newConnection
      simp only
      split_ifs with hloop hc hc
      · rw [establishing_applied
          (ServerSys.applied_withConn ((hprim _).connectEstablished onUp (.refl _)))]
        exact h.le
      · rw [establishing_applied
          (ServerSys.applied_withConn ((hprim _).connectEstablished onUp (.refl _)))]
        exact h.le.trans (Nat.le_succ _)
      · have hne : Functor.connectEstablished (s.setPc 0 (.handling active)).nextConnId_ ≠
            .connectEstablished c :=
          fun he => Nat.ne_of_lt hc (Functor.connectEstablished.inj he).symm
        rw [establishing_push hne]
        exact h.le
      · unfold establishing at h ⊢
        rw [ServerSys.jobs_push, List.count_append]
        have hone : (if t = (ServerSys.getNextLoop conf (s.setPc 0 (.handling active)).next_).1
            then [Functor.connectEstablished (s.setPc 0 (.handling active)).nextConnId_]
            else []).count (.connectEstablished c) ≤ 1 := by
          split_ifs
          · exact List.count_le_length
          · exact Nat.zero_le _
        have hsum := Nat.add_le_add h.le hone
        exact hsum
  | @acceptFails active hrun hpc =>
      have h : establishing c t (s.setPc 0 (.handling active)) = establishing c t s :=
        establishing_setPc (by rw [hpc]; rfl)
      rw [h]
      exact Nat.le_add_right _ _
  | @handles i env d active hrun hpc =>
      have h : establishing c t (s.setPc i (.handling active)) = establishing c t s :=
        establishing_setPc (by rw [hpc]; rfl)
      rw [establishing_applied (ServerSys.applied_withConn ((hprim _).handleEvent env (.refl _))),
        h]
      exact Nat.le_add_right _ _
  | @swaps i hrun hpc =>
      unfold establishing
      rw [ServerSys.setLoop_loops]
      split_ifs with ht <;> simp [LoopThread.jobs, ThreadPc.batch, ServerSys.takenBy, ht, hpc]
  | @establishes i env d batch hrun hpc =>
      rw [establishing_applied
        (ServerSys.applied_withConn ((hprim _).connectEstablished env.acts (.refl _))),
        establishing_rest env hpc]
      exact Nat.le_add_right _ _
  | @destroys i env d batch hrun hpc =>
      rw [establishing_applied
        (ServerSys.applied_withConn ((hprim _).connectDestroy env.acts (.refl _))),
        establishing_rest env hpc]
      exact Nat.le_add_right _ _
  | @removes i env d batch hrun hpc halive =>
      have h : establishing c t ((s.setPc i (.functors batch)).removeConnectionInLoop d) =
          establishing c t (s.setPc i (.functors batch)) := establishing_push (by rintro ⟨⟩)
      rw [h, establishing_rest env hpc]
      exact Nat.le_add_right _ _
  | @runs i env f batch hrun hpc haux =>
      rw [establishing_applied
        (ServerSys.applied_withConn (ServerSys.frame_auxOp env f _)), establishing_rest env hpc]
      exact Nat.le_add_right _ _
  | @endsBatch i hrun hpc =>
      have h : establishing c t (s.setPc i .check) = establishing c t s :=
        establishing_setPc (by rw [hpc]; rfl)
      rw [h]
      exact Nat.le_add_right _ _
  | @userCalls i d act hd =>
      rw [establishing_applied (ServerSys.applied_withConn ((hprim _).act act (.refl _)))]
      exact Nat.le_add_right _ _
  | beginsDestroy | destroysMembers | joins => exact Nat.le_add_right _ _
  | @destroysHere e onDown left hphase he hloop =>
      rw [establishing_applied
        (ServerSys.applied_withConn ((hprim _).connectDestroy onDown (.refl _)))]
      exact Nat.le_add_right _ _
  | @destroysThere e onDown left hphase he hloop =>
      rw [establishing_push (f := .connectDestroy e.2) (by rintro ⟨⟩)]
      exact Nat.le_add_right _ _
  | @quits i hphase =>
      unfold establishing
      rw [ServerSys.setLoop_loops]
      split_ifs with ht <;> simp [LoopThread.jobs, ServerSys.takenBy, ht]

/-! ### Runs -/

/-- **What a run of the server keeps.** -/
structure Serving (s : ServerSys) : Prop where
  placed : s.Placed
  owns : ∀ t, ∀ f ∈ (s.loops t).jobs, f.owns = true
  once : ∀ c t, establishing c t s ≤ 1
  blank : ∀ c t, establishing c t s ≠ 0 → (face (s.conn c)).Blank
  answered : ∀ c, s.Made c → ∃ a, Answered c s a

lemma serving_new : Serving .new where
  placed := ServerSys.placed_new
  owns _ _ h := absurd h List.not_mem_nil
  once _ _ := Nat.zero_le 1
  blank _ _ h := absurd rfl h
  answered _ hc := absurd (Nat.lt_of_le_of_lt hc.1 hc.2) (Nat.lt_irrefl 1)

/-- A connection on its way is one that exists, and its loop the one that has it. -/
lemma Serving.mem (h : Serving s) (hc : establishing c t s ≠ 0) :
    s.Made c ∧ t = (s.conn c).loop_ :=
  h.placed.jobs t _ (List.count_pos_iff.mp (Nat.pos_of_ne_zero hc))

/-- **What a step does to an answer.** The first message decides it, and nothing else changes
it. -/
theorem Moves.stands {a : ServerAct} {f : Face} {x : Answer} (hm : Moves c s a f) (ha : Runs a)
    (h : Serving s) (hx : Answered c s x) :
    (∀ res, First c res s a → f.Stands (.of res)) ∧
      ((∀ res, ¬ First c res s a) → f.Stands x) := by
  cases hm with
  | same hno => exact ⟨fun res ⟨env, hh, _⟩ => absurd hh (hno env), fun _ => hx⟩
  | destroyed hno =>
      exact ⟨fun res ⟨env, hh, _⟩ => absurd hh (hno env), fun _ => hx.destroyed⟩
  | @established t env batch hpc =>
      refine ⟨?_, fun _ => ?_⟩
      · rintro res ⟨_, ⟨_, _, he, -⟩, -⟩
        cases he
      have hne : establishing c t s ≠ 0 := by
        refine Nat.ne_of_gt (List.count_pos_iff.mpr ?_)
        rw [LoopThread.jobs, hpc]
        exact List.mem_cons_self ..
      obtain ⟨hun, -⟩ := h.blank c t hne
      obtain rfl := hx.unique hun
      exact (h.blank c t hne).established
  | @handled t env active y hpc hy hin =>
      obtain ⟨hhup, hdown, res, hmsg⟩ := ha
      have hstands : y.face.Stands x := by
        unfold Ctx.face
        rw [hy]
        exact hx
      obtain ⟨hfirst, hrest⟩ := Ctx.stands_handleEvent hin hhup hdown hmsg hstands
      rw [hy] at hfirst hrest
      constructor
      · rintro res' ⟨env', ⟨t', active', he, -⟩, hmsg', hasks⟩
        obtain ⟨-, rfl⟩ := ServerAct.handle.inj he
        have hres : onMessage res = onMessage res' := hmsg.symm.trans hmsg'
        obtain rfl : res = res' := by
          simp only [onMessage, List.cons.injEq, UserAct.send.injEq] at hres
          exact hres.1.2
        exact hfirst hasks
      · intro hno
        exact (hrest fun hasks => hno res ⟨env, ⟨t, active, rfl, hpc⟩, hmsg, hasks⟩).1

/-- A connection on its way shows nothing yet, and is not established twice. -/
theorem Moves.blank {a : ServerAct} {f : Face} (hm : Moves c s a f) (ha : Runs a)
    (hb : (face (s.conn c)).Blank)
    (hnot : ∀ t env batch, a = .functor t env →
      (s.loops t).pc ≠ .functors (.connectEstablished c :: batch)) : f.Blank := by
  cases hm with
  | same => exact hb
  | destroyed => exact hb.destroyed
  | @established t env batch hpc => exact absurd hpc (hnot t env batch rfl)
  | @handled t env active y hpc hy hin =>
      obtain ⟨hhup, hdown, res, hmsg⟩ := ha
      have hface : y.face = face (s.conn c) := congrArg face hy
      have hno : ¬ Asks y.conn env := fun hasks => hb.2 (by
        rw [← hface]
        exact hasks.1)
      obtain ⟨hstands, hst⟩ :=
        (Ctx.stands_handleEvent hin hhup hdown hmsg (hface ▸ hb.1)).2 hno
      exact ⟨hstands, fun hk => hb.2 (hface ▸ hst hk)⟩

/-- A connection that the step makes shows nothing yet. -/
lemma Serving.new_conn {a : ServerAct} (h : Serving s) (ha : Runs a)
    (ht : ServerSys.Trans (.echo n) s a s') (hc : s'.Made c) (hno : ¬ s.Made c) :
    Answered c s' .unasked ∧ (establishing c t s' ≠ 0 → (face (s'.conn c)).Blank) := by
  rcases ht.settled with hs | ⟨sockfd, onUp, active, rfl, hpc, rfl⟩
  · exact absurd ((ServerSys.made_congr hs.nextConnId_ c).mp hc) hno
  obtain rfl : onUp = onConnection := ha
  obtain ⟨-, hid, -⟩ := ServerSys.newConnection_settled (.echo n) sockfd onConnection
    (s.setPc 0 (.handling active))
  obtain rfl : c = s.nextConnId_ := by
    have hlt := hc.2
    rw [hid] at hlt
    by_contra hne
    exact hno ⟨hc.1, Nat.lt_of_le_of_ne (Nat.lt_succ_iff.mp hlt) hne⟩
  have hblank : (face ((ServerSys.addConnection (.echo n) sockfd
      (s.setPc 0 (.handling active))).conn s.nextConnId_)).Blank := by
    have hnew : (ServerSys.addConnection (.echo n) sockfd
        (s.setPc 0 (.handling active))).conn s.nextConnId_ = _ :=
      ServerSys.addConnection_conn_new sockfd (s.setPc 0 (.handling active))
    exact hnew ▸ blank_newConn _ _ _
  unfold Answered ServerSys.newConnection
  simp only
  split_ifs with hloop
  · -- established here and now
    have hf := (Ctx.primitive_frame ((ServerSys.addConnection (.echo n) sockfd
      (s.setPc 0 (.handling active))).ctx s.nextConnId_ 0)).connectEstablished onConnection
        (.refl _)
    have hA := ServerSys.applied_withConn hf
    have hzero : establishing s.nextConnId_ t (s.setPc 0 (.handling active)) = 0 := by
      rw [establishing_setPc (by rw [hpc]; rfl)]
      by_contra hne
      exact Nat.lt_irrefl _ (h.mem hne).1.2
    refine ⟨?_, fun hne => absurd ((establishing_applied hA).trans hzero) hne⟩
    have hstands : (((ServerSys.addConnection (.echo n) sockfd (s.setPc 0 (.handling active))).ctx
        s.nextConnId_ 0).connectEstablished onConnection).face.Stands .unasked := by
      rw [Ctx.face_connectEstablished]
      exact hblank.established
    have hconn := hA.conn_self
    change (face ((ServerSys.withConn s.nextConnId_ 0 _ _).conn s.nextConnId_)).Stands _
    rw [hconn]
    exact hstands
  · exact ⟨hblank.1, fun _ => hblank⟩

/-- **The step lemma.** -/
theorem Serving.trans {a : ServerAct} (h : Serving s) (ha : Runs a)
    (ht : ServerSys.Trans (.echo n) s a s') : Serving s' := by
  have hplaced := h.placed.trans ht
  have hmove : ∀ {c}, s.Made c → Moves c s a (face (s'.conn c)) :=
    fun hc => moves_trans h.placed h.owns ht ha hc
  have hcount := establishing_trans ht
  have hold : ∀ {c t}, establishing c t s' ≠ 0 → s'.Made c := fun hc =>
    (hplaced.jobs _ _ (List.count_pos_iff.mp (Nat.pos_of_ne_zero hc))).1
  refine ⟨hplaced, fun t f hf => ?_, fun c t => ?_, fun c t hc => ?_, fun c hc => ?_⟩
  · by_contra hown
    have hnone := ht.noneBare h.placed fun t c act he => by
      rw [he] at ha
      exact ha.elim
    exact hown (h.owns t f (hnone t f hf (Bool.eq_false_iff.mpr hown)))
  · have hle := hcount c t
    have hone := h.once c t
    split_ifs at hle with hlt
    · omega
    · have hzero : establishing c t s = 0 := by
        by_contra hne
        exact hlt (h.mem hne).1.2
      omega
  · by_cases hmade : s.Made c
    · have hle := hcount c t
      rw [if_pos hmade.2] at hle
      have hne : establishing c t s ≠ 0 := by omega
      refine (hmove hmade).blank ha (h.blank c t hne) fun i env batch he hpc => ?_
      -- the functor that runs would be the one that is still queued
      have htaken : (ServerSys.takenBy a i s).count (.connectEstablished c) = 1 := by
        rw [he, ServerSys.takenBy, if_pos rfl, hpc]
        simp [ThreadPc.batch]
      have hi : i = t := by
        have hin : establishing c i s ≠ 0 := by
          have := hcount c i
          rw [if_pos hmade.2] at this
          omega
        rw [(h.mem hin).2, (h.mem hne).2]
      rw [hi] at htaken
      have hone := h.once c t
      omega
    · exact (h.new_conn ha ht (hold hc) hmade).2 hc
  · by_cases hmade : s.Made c
    · obtain ⟨x, hx⟩ := h.answered c hmade
      obtain ⟨hfirst, hrest⟩ := (hmove hmade).stands ha h hx
      by_cases hno : ∃ res, First c res s a
      · obtain ⟨res, hres⟩ := hno
        exact ⟨_, hfirst res hres⟩
      · exact ⟨x, hrest fun res hres => hno ⟨res, hres⟩⟩
    · exact ⟨_, (h.new_conn (t := 0) ha ht hc hmade).1⟩

/-- **What a step does to the answers**: a first message decides that of its connection, a new
connection has none, and nothing else changes. -/
structure Answers (s : ServerSys) (a : ServerAct) (s' : ServerSys) : Prop where
  first : ∀ c res, s.Made c → First c res s a → Answered c s .unasked ∧ Answered c s' (.of res)
  fresh : ∀ c, s'.Made c → ¬ s.Made c → Answered c s' .unasked
  rest : ∀ c x, s.Made c → (∀ res, ¬ First c res s a) → Answered c s x → Answered c s' x

lemma Serving.decides {a : ServerAct} (h : Serving s) (ha : Runs a)
    (ht : ServerSys.Trans (.echo n) s a s') : Answers s a s' where
  first c res hc hfirst := by
    obtain ⟨x, hx⟩ := h.answered c hc
    refine ⟨?_, ((moves_trans h.placed h.owns ht ha hc).stands ha h hx).1 res hfirst⟩
    obtain ⟨env, -, -, hst, -⟩ := hfirst
    cases x with
    | unasked => exact hx
    | refused | whole | held =>
        rcases hx.1 with hp | hp <;> cases hst.symm.trans hp
  fresh c hc hno := (h.new_conn (t := 0) ha ht hc hno).1
  rest c x hc hno hx := ((moves_trans h.placed h.owns ht ha hc).stands ha h hx).2 hno

/-- **What a client of the server is given.** Over every run, whatever the clients send and
however the threads interleave, each connection is in exactly one of four cases: nothing
given, refused with the write half shut down, `OK` given and the write half shut down, or
`OK` given in part or whole and the write half open. The `::write` of the first message
decides which, and no later step changes it. -/
theorem answers (n : ℕ) {tr : List (ServerAct × ServerSys)}
    (h : Chain (fun s a s' => s.Step (.echo n) a s' ∧ Runs a) .new tr) :
    Always (fun s => ∀ c, s.Made c → ∃! x, Answered c s x) .new tr ∧ Chain Answers .new tr := by
  constructor
  · have hserving : Always Serving .new tr :=
      always_of_inv (fun _ _ _ hs hst => hs.trans hst.2 hst.1.trans) serving_new h
    refine hserving.mono fun s hs c hc => ?_
    obtain ⟨x, hx⟩ := hs.answered c hc
    exact ⟨x, hx, fun y hy => Face.Stands.unique hy hx⟩
  · exact chain_of_inv (fun _ _ _ hs hst =>
      ⟨hs.trans hst.2 hst.1.trans, hs.decides hst.2 hst.1.trans⟩) serving_new h

/-- A client sends a byte, and the kernel takes one byte of the answer. Then it takes the
other. -/
def heldRun : List ServerAct :=
  [.check 0, .poll 0 [.acceptor], .accept 7 onConnection, .swap 0, .endBatch 0, .check 0,
    .poll 0 [.fd 7 EPOLLIN], .handle 0 ⟨onConnection, .ok [63], onMessage (.ok 1), onConnection,
      .ok 0⟩, .swap 0, .endBatch 0, .check 0, .poll 0 [.fd 7 EPOLLOUT],
    .handle 0 ⟨onConnection, .ok [], onMessage (.ok 1), onConnection, .ok 1⟩]

/-- The whole answer is out, and the write half is open for good. -/
theorem answers_held :
    let tr := walk (ServerSys.step (.echo 0)) .new heldRun
    tr.getLast?.map (fun e => face (e.2.conn 1)) =
        some ⟨.kDisconnectiong, ok, [], false, true⟩ ∧
      Always (fun s => ∀ c, s.Made c → ∃! x, Answered c s x) .new tr ∧ Chain Answers .new tr := by
  have hruns : ∀ a ∈ heldRun, Runs a := by
    simp [heldRun, Runs, onMessage]
  exact ⟨by decide +kernel, answers 0 (chain_walk_and hruns _)⟩

end EchoServer

end Reactor
