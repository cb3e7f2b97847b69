import Reactor.ConnRun

/-!
The output stream of a connection: what the kernel has accepted and what waits in
`outputBuffer_` are together the payloads accepted so far, whatever mixture of direct and
buffered writes carried them.
-/

namespace Reactor

open Lib.Trace

namespace Ctx

/-- The bytes sent, then the bytes waiting, are the payloads accepted, in order. -/
def Stream (x : Ctx) : Prop := x.conn.socket_.sent ++ x.backlog = x.accepted

lemma Stream.log {x : Ctx} {c : Call} (h : x.Stream) (hc : acceptedOf [c] = []) :
    (x.log c).Stream := by
  have hacc : (x.log c).accepted = x.accepted := by
    simp [accepted, acceptedOf_append, hc]
  rw [Stream, hacc]
  exact h

lemma Stream.same {x y : Ctx} (hs : x.Same y) (h : x.Stream) : y.Stream := by
  rw [hs]; exact h

/-- Bytes put at the end of `outputBuffer_` belong to the stream once they are accepted. -/
lemma stream_bufferRest {x : Ctx} {taken rest : List Byte}
    (h : x.conn.socket_.sent ++ x.backlog = x.accepted ++ taken) :
    ((x.bufferRest rest).log (.sendInLoop (taken ++ rest) true)).Stream := by
  obtain ⟨y, hs, he⟩ := bufferRest_cases rest x
  rw [he, hs]
  cases x.isWriting <;>
    simp [Stream, accepted, acceptedOf_append, acceptedOf, backlog, enableWriting, onChannel,
      calls, Ctx.log] at h ⊢ <;> rw [← List.append_assoc, h, List.append_assoc]

lemma WritesDirectly.backlog {x : Ctx} (h : x.WritesDirectly) : x.backlog = [] := by
  have := h.2
  rw [SafeBuffer.readableBytes_eq] at this
  exact List.eq_nil_of_length_eq_zero this

/-- **The two paths of `sendInLoop` meet**: the direct path is taken only with nothing
waiting, so what it writes comes right behind what was sent. -/
lemma Stream.sendInLoop {x : Ctx} (data : List Byte) (res : WriteResult) (h : x.Stream) :
    (x.sendInLoop data res).Stream := by
  rcases sendInLoop_cases data res x with ⟨he, -⟩ | ⟨taken, rest, y, rfl, -, hdir, hs, he⟩
  · rw [he]
    exact h.log rfl
  · have hy : y.conn.socket_.sent ++ y.backlog = y.accepted ++ taken := by
      have hx : x.conn.socket_.sent ++ taken ++ x.backlog = x.accepted ++ taken := by
        rcases hdir with rfl | hdir
        · rw [List.append_nil, List.append_nil]; exact h
        · rw [← h, hdir.backlog]; simp
      rw [hs]
      exact hx
    rw [he]
    split_ifs with hrest
    · subst hrest
      simpa [Stream, accepted, acceptedOf_append, acceptedOf, backlog, Ctx.log, calls] using hy
    · exact stream_bufferRest hy

lemma Stream.shutdownInLoop {x : Ctx} (h : x.Stream) : x.shutdownInLoop.Stream := by
  unfold Ctx.shutdownInLoop
  have h' := h.log (c := .shutdownInLoop) rfl
  simp only
  split_ifs
  · exact Stream.log (x := { x.log .shutdownInLoop with conn.socket_.shutWr := true }) h' rfl
  · exact h'

lemma closed_stream : Closed Stream where
  same := Stream.same
  input _ h := h
  sendInLoop := Stream.sendInLoop
  disconnecting _ h := h.log (c := .shutdown) rfl
  shutdownInLoop := Stream.shutdownInLoop

lemma Stream.connectionCallback {x : Ctx} (acts : Script) (h : x.Stream) :
    (x.connectionCallback acts).Stream :=
  closed_stream.runScript acts (h.log rfl)

lemma Stream.connectEstablished {x : Ctx} (onUp : Script) (h : x.Stream) :
    (x.connectEstablished onUp).Stream := by
  have h' := h.log (c := .connectEstablished) rfl
  have h'' : (((x.log .connectEstablished).setState .kConnected).tie).enableReading.Stream :=
    Stream.log (x := Ctx.onChannel _ _) h' rfl
  exact h''.connectionCallback onUp

lemma Stream.disconnected {x : Ctx} (onDown : Script) (h : x.Stream) :
    (((x.setState .kDisconnected).disableAll).connectionCallback onDown).Stream := by
  have h' : (x.setState .kDisconnected).disableAll.Stream :=
    Stream.log (x := Ctx.onChannel _ (x.setState .kDisconnected)) h rfl
  exact h'.connectionCallback onDown

lemma Stream.handleClose {x : Ctx} (onDown : Script) (h : x.Stream) :
    (x.handleClose onDown).Stream := by
  have h' := (h.log (c := .handleClose) rfl).disconnected onDown
  exact Stream.same rfl (h'.log (c := .closeCallback) rfl)

lemma Stream.connectDestroy {x : Ctx} (onDown : Script) (h : x.Stream) :
    (x.connectDestroy onDown).Stream := by
  have h' := h.log (c := .connectDestroy) rfl
  unfold Ctx.connectDestroy
  simp only
  split_ifs
  · exact Stream.log (x := Ctx.onChannel _ _) (h'.disconnected onDown) rfl
  · exact Stream.log (x := Ctx.onChannel _ _) h' rfl

lemma Stream.handleRead {x : Ctx} (res : ReadResult) (onMessage onDown : Script) (h : x.Stream) :
    (x.handleRead res onMessage onDown).Stream := by
  have h' := h.log (c := .handleRead) rfl
  unfold Ctx.handleRead
  simp only
  split
  · split_ifs
    · exact closed_stream.runScript onMessage
        (Stream.log (x := { x.log .handleRead with conn.inputBuffer_ := _ }) h' rfl)
    · exact Stream.handleClose onDown
        (x := { x.log .handleRead with conn.inputBuffer_ := _ }) h'
  · exact h'

lemma Stream.drained {x : Ctx} (h : x.Stream) : x.drained.Stream := by
  have h' : x.disableWriting.Stream := Stream.log (x := x.onChannel _) h rfl
  have h'' := h'.same (same_queueWriteComplete _)
  unfold Ctx.drained
  simp only
  split_ifs
  · exact h''.shutdownInLoop
  · exact h''

/-- What a write event takes off the front of `outputBuffer_` is what the kernel accepted. -/
lemma Stream.handleWrite {x : Ctx} (res : WriteResult) (h : x.Stream) :
    (x.handleWrite res).Stream := by
  have h' := h.log (c := .handleWrite) rfl
  rcases handleWrite_cases res x with ⟨he, -⟩ | ⟨taken, rest, b, -, hsplit, hb, -, he⟩
  · rw [he]
    exact h'
  · have hmoved : (x.wrote taken b).Stream := by
      have hx : x.conn.socket_.sent ++ x.backlog = (x.log .handleWrite).accepted := h'
      change x.conn.socket_.sent ++ taken ++ b.content = (x.log .handleWrite).accepted
      rw [← hx, hb, hsplit, List.append_assoc]
    rw [he]
    split_ifs
    · exact hmoved.drained
    · exact hmoved

lemma Stream.step {x : Ctx} (op : ConnOp) (h : x.Stream) : (x.step op).Stream := by
  cases op with
  | sendInLoop data res => exact h.sendInLoop data res
  | handleWrite res => exact h.handleWrite res
  | handleRead res onMessage onDown => exact h.handleRead res onMessage onDown
  | handleClose onDown => exact h.handleClose onDown
  | shutdownInLoop => exact h.shutdownInLoop
  | connectDestroy onDown => exact h.connectDestroy onDown
  | call tid a => exact closed_stream.act (x := { x with tid := tid }) a h

/-- A call of `sendInLoop` is recorded once. It is refused only when the connection is down
or its own direct write found the peer gone, and a refused payload leaves no byte behind. -/
structure Accounted (data : List Byte) (res : WriteResult) (x : Ctx) (ok : Bool) : Prop where
  recorded : ∃ updates, (∀ c ∈ updates, c = .updateChannel) ∧
    (x.sendInLoop data res).calls = x.calls ++ updates ++ [.sendInLoop data ok]
  reason : ok = false → x.conn.state_ = .kDisconnected ∨
    x.WritesDirectly ∧ ∃ errno, res = .error errno ∧ (errno = EPIPE ∨ errno = ECONNRESET)
  sent : ok = false → (x.sendInLoop data res).conn.socket_.sent = x.conn.socket_.sent
  backlog : ok = false → (x.sendInLoop data res).backlog = x.backlog

/-- Only a refused payload is recorded as such. -/
lemma refused {data : List Byte} {res : WriteResult} {x : Ctx} {before : List Call}
    (h : (x.sendInLoop data res).calls = before ++ [.sendInLoop data false]) :
    x.sendInLoop data res = x.log (.sendInLoop data false) ∧
      (x.conn.state_ = .kDisconnected ∨ x.WritesDirectly ∧
        ∃ errno, res = .error errno ∧ (errno = EPIPE ∨ errno = ECONNRESET)) := by
  rcases sendInLoop_cases data res x with hrefuse | ⟨taken, rest, y, -, -, -, -, he⟩
  · exact hrefuse
  · have hlast := congrArg List.getLast? h
    simp [he] at hlast

lemma accounted (data : List Byte) (res : WriteResult) (x : Ctx) :
    ∃ ok, x.Accounted data res ok := by
  obtain ⟨updates, ok, hup, hcalls⟩ := calls_sendInLoop data res x
  refine ⟨ok, ⟨updates, hup, hcalls⟩, ?_, ?_, ?_⟩ <;> rintro rfl
  · exact (refused hcalls).2
  · rw [(refused hcalls).1]; rfl
  · rw [(refused hcalls).1]; rfl

lemma stream_established (conf : Conf) (onUp : Script) : (conf.established onUp).Stream := by
  have h0 : conf.fresh.Stream := by simp [Stream, Conf.fresh, TcpConnection.new, backlog,
    accepted, calls, acceptedOf]
  exact h0.connectEstablished onUp

/-- **Output stream integrity.** Over every run of an established connection the bytes the
kernel has accepted, followed by those still buffered, are the accepted payloads in the order
of the calls; and every call accounts for its payload. -/
theorem output_stream (conf : Conf) (onUp : Script) (ops : List ConnOp) :
    Always Stream (conf.established onUp) (path step (conf.established onUp) ops) ∧
      ∀ (data : List Byte) (res : WriteResult) (x : Ctx), ∃ ok, x.Accounted data res ok := by
  exact ⟨always_path (fun _ op hx => hx.step op) (stream_established conf onUp) ops, accounted⟩

end Ctx

end Reactor
