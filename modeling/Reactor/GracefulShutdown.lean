import Reactor.InterestMask

/-!
Graceful shutdown: `shutdown` should close the write half at the step where the last waiting
byte has been written, and not before.

It is never closed too early. It is not closed at all when something had to wait before:
`disableWriting` leaves `EPOLLOUT` in the mask, and `shutdownInLoop` waits for a connection
that is still writing.
-/

namespace Reactor

open Lib.Trace

namespace Ctx

/-- `shutdown` has been called, and `shutdownInLoop` has run since. -/
def ShutdownRan (x : Ctx) : Prop := [.shutdown, .shutdownInLoop].Sublist x.calls

instance (x : Ctx) : Decidable x.ShutdownRan := inferInstanceAs (Decidable (List.Sublist _ _))

/-- **The state that should not be reached**: everything is written, and the write half stays
open. -/
def Stuck (x : Ctx) : Prop :=
  x.ShutdownRan ∧ x.conn.state_ = .kDisconnectiong ∧ x.backlog = [] ∧
    x.conn.socket_.shutWr = false

instance (x : Ctx) : Decidable x.Stuck := inferInstanceAs (Decidable (_ ∧ _))

/-- `EPOLLOUT` is watched with nothing to write and the write half open. -/
def Idle (x : Ctx) : Prop :=
  x.isWriting = true ∧ x.backlog = [] ∧ x.conn.socket_.shutWr = false

/-- What holds of an open connection whether or not it gets stuck. -/
structure Sending (x : Ctx) : Prop where
  watching : x.backlog ≠ [] → x.isWriting = true
  disconnecting : x.conn.state_ = .kDisconnectiong → .shutdown ∈ x.calls
  connected : x.conn.state_ = .kConnected → .shutdown ∉ x.calls
  finished : ∀ n, .shutdownWrite n ∈ x.calls → n = 0

/-! ### Recorded calls -/

lemma shutdownRan_append {x y : Ctx} {l : List Call} (hc : y.calls = x.calls ++ l)
    (hl : .shutdownInLoop ∉ l) (h : y.ShutdownRan) : x.ShutdownRan := by
  rw [ShutdownRan, hc, List.sublist_append_iff] at h
  obtain ⟨l₁, l₂, hsplit, h₁, h₂⟩ := h
  rcases List.eq_nil_or_concat l₂ with rfl | ⟨l₂, c, rfl⟩
  · rw [List.append_nil] at hsplit
    rw [ShutdownRan, hsplit]
    exact h₁
  · -- the last call found in `l` would be `shutdownInLoop`
    have hlast := congrArg List.getLast? hsplit
    simp at hlast
    exact absurd (h₂.subset (by simp [← hlast])) hl

lemma shutdownRan_intro {x y : Ctx} {l : List Call} (hc : y.calls = x.calls ++ l)
    (hx : .shutdown ∈ x.calls) (hl : .shutdownInLoop ∈ l) : y.ShutdownRan := by
  rw [ShutdownRan, hc]
  exact (List.singleton_sublist.mpr hx).append (List.singleton_sublist.mpr hl)

lemma ShutdownRan.mem {x : Ctx} (h : x.ShutdownRan) : .shutdown ∈ x.calls :=
  h.subset (by simp)

/-! ### The fields the shutdown depends on -/

lemma isWriting_eq_of_events {x y : Ctx} (h : y.events &&& EPOLLOUT = x.events &&& EPOLLOUT) :
    y.isWriting = x.isWriting := by
  rw [Bool.eq_iff_iff, isWriting_iff, isWriting_iff, h]

lemma isWriting_enableWriting (x : Ctx) : x.enableWriting.isWriting = true := by
  rw [isWriting_iff, events_enableWriting]
  exact mask_write_write _

/-- `disableWriting` does not. -/
lemma isWriting_disableWriting (x : Ctx) : x.disableWriting.isWriting = x.isWriting := by
  refine isWriting_eq_of_events ?_
  have h : ~~~kReadEvent &&& EPOLLOUT = EPOLLOUT := by decide
  rw [events_disableWriting, BitVec.and_assoc, h]

/-- What a call of `sendInLoop` adds to the backlog, if anything. While the channel is
writing that is all of the payload. -/
lemma sendInLoop_fields (data : List Byte) (res : WriteResult) (x : Ctx) :
    ∃ rest, (x.sendInLoop data res).conn.state_ = x.conn.state_ ∧
      (x.sendInLoop data res).isInLoopThread = x.isInLoopThread ∧
      (x.sendInLoop data res).conn.socket_.shutWr = x.conn.socket_.shutWr ∧
      (x.sendInLoop data res).backlog = x.backlog ++ rest ∧
      (x.sendInLoop data res).isWriting = (x.isWriting || !rest.isEmpty) ∧
      (x.conn.state_ ≠ .kDisconnected → x.isWriting = true → rest = data) := by
  rcases sendInLoop_cases data res x with ⟨he, hwhy⟩ | ⟨taken, rest, y, rfl, -, hdir, hs, he⟩
  · refine ⟨[], by rw [he]; rfl, by rw [he]; rfl, by rw [he]; rfl,
      by rw [he, List.append_nil]; rfl, ?_, ?_⟩
    · rw [he]
      exact (Bool.or_false _).symm
    · intro hst hw
      rcases hwhy with hwhy | ⟨hdir, -⟩
      · exact absurd hwhy hst
      · exact absurd hw (by simp [hdir.1])
  · have hall : x.conn.state_ ≠ .kDisconnected → x.isWriting = true → rest = taken ++ rest := by
      intro _ hw
      rcases hdir with rfl | hdir
      · rfl
      · exact absurd hw (by simp [hdir.1])
    refine ⟨rest, ?_⟩
    rw [he, hs]
    split_ifs with hrest
    · subst hrest
      exact ⟨rfl, rfl, rfl, (List.append_nil _).symm, (Bool.or_false _).symm, hall⟩
    · obtain ⟨z, hz, hbuf⟩ := bufferRest_cases rest { x.accept taken with out := y.out }
      have hcontent : (x.conn.outputBuffer_.append rest).content = x.backlog ++ rest :=
        SafeBuffer.content_append _ _
      have hne : (!rest.isEmpty) = true := by simp [hrest]
      rw [hbuf, hz, hne, Bool.or_true]
      split_ifs with hw
      · exact ⟨rfl, rfl, rfl, hcontent, hw, hall⟩
      · exact ⟨rfl, rfl, rfl, hcontent, isWriting_enableWriting _, hall⟩

lemma shutdownInLoop_fields (x : Ctx) :
    x.shutdownInLoop.conn.state_ = x.conn.state_ ∧ x.shutdownInLoop.backlog = x.backlog ∧
      x.shutdownInLoop.isWriting = x.isWriting ∧
      x.shutdownInLoop.conn.socket_.shutWr = (!x.isWriting || x.conn.socket_.shutWr) := by
  have hw : (x.log .shutdownInLoop).isWriting = x.isWriting := rfl
  unfold shutdownInLoop
  simp only [hw]
  cases h : x.isWriting
  · exact ⟨rfl, rfl, h, rfl⟩
  · exact ⟨rfl, rfl, h, (Bool.false_or _).symm⟩

/-- The tail of a write event of a channel that is writing closes nothing. -/
lemma drained_fields {x : Ctx} (hw : x.isWriting = true) :
    x.drained.conn.state_ = x.conn.state_ ∧ x.drained.backlog = x.backlog ∧
      x.drained.isWriting = true ∧
      x.drained.conn.socket_.shutWr = x.conn.socket_.shutWr := by
  have hs := same_queueWriteComplete x.disableWriting
  have hdw : x.disableWriting.isWriting = true := by rw [isWriting_disableWriting, hw]
  unfold drained
  generalize x.disableWriting.queueWriteComplete = y at hs ⊢
  have hy : y.conn.state_ = x.conn.state_ ∧ y.backlog = x.backlog ∧ y.isWriting = true ∧
      y.conn.socket_.shutWr = x.conn.socket_.shutWr := by
    rw [hs]
    exact ⟨rfl, rfl, hdw, rfl⟩
  obtain ⟨hst, hb, hyw, hsh⟩ := hy
  simp only
  split_ifs
  · obtain ⟨hst', hb', hw', hsh'⟩ := shutdownInLoop_fields y
    exact ⟨hst'.trans hst, hb'.trans hb, hw'.trans hyw, by rw [hsh', hyw, hsh]; rfl⟩
  · exact ⟨hst, hb, hyw, hsh⟩

/-! ### What always holds -/

lemma Sending.extend {x y : Ctx} {l : List Call} (h : x.Sending) (hc : y.calls = x.calls ++ l)
    (hw : y.backlog ≠ [] → y.isWriting = true) (hst : y.conn.state_ = x.conn.state_)
    (hl : ∀ c ∈ l, c ≠ .shutdown ∧ ∀ n, c = .shutdownWrite n → n = 0) : y.Sending where
  watching := hw
  disconnecting hd := by
    rw [hst] at hd
    simp [hc, h.disconnecting hd]
  connected hk := by
    rw [hst] at hk
    rw [hc, List.mem_append, not_or]
    exact ⟨h.connected hk, fun hm => (hl _ hm).1 rfl⟩
  finished n hn := by
    rw [hc, List.mem_append] at hn
    exact hn.elim (h.finished n) fun hm => (hl _ hm).2 n rfl

def SendingOpen (x : Ctx) : Prop := x.Open → x.Sending

lemma SendingOpen.log {x : Ctx} {call : Call} (h : x.SendingOpen)
    (hcall : call ≠ .shutdown ∧ ∀ n, call = .shutdownWrite n → n = 0) :
    (x.log call).SendingOpen := by
  intro hopen
  have hx := h (hopen.of_append (x.calls_log call))
  exact hx.extend (x.calls_log call) hx.watching rfl (by simpa using hcall)

lemma SendingOpen.sendInLoop {x : Ctx} (data : List Byte) (res : WriteResult)
    (h : x.SendingOpen) : (x.sendInLoop data res).SendingOpen := by
  intro hopen
  obtain ⟨updates, ok, hup, hc⟩ := calls_sendInLoop data res x
  rw [List.append_assoc] at hc
  have hx := h (hopen.of_append hc)
  obtain ⟨rest, hst, -, -, hb, hw, -⟩ := sendInLoop_fields data res x
  refine hx.extend hc ?_ hst ?_
  · rw [hb, hw]
    intro hne
    by_cases hrest : rest = []
    · subst hrest
      rw [hx.watching (by simpa using hne)]
      rfl
    · simp [hrest]
  · intro c hcl
    rcases List.mem_append.mp hcl with hc | hc
    · simp [hup c hc]
    · simp [List.mem_singleton.mp hc]

/-- `shutdownInLoop` closes the write half of a channel that is not writing, which has
nothing waiting. -/
lemma SendingOpen.shutdownInLoop {x : Ctx} (h : x.SendingOpen) :
    x.shutdownInLoop.SendingOpen := by
  intro hopen
  have hx := h (hopen.of_append (calls_shutdownInLoop x))
  obtain ⟨hst, hb, hw, -⟩ := shutdownInLoop_fields x
  refine hx.extend (calls_shutdownInLoop x) (by rw [hb, hw]; exact hx.watching) hst ?_
  split_ifs with hwr
  · simp
  · have hempty : x.backlog = [] := by
      by_contra hne
      exact hwr (hx.watching hne)
    simp [hempty]

lemma closed_sendingOpen : Closed SendingOpen where
  same hs h := by
    rw [hs]
    intro hopen
    exact (h hopen).extend (List.append_nil _).symm (h hopen).watching rfl (by simp)
  input _ h hopen := (h hopen).extend (List.append_nil _).symm (h hopen).watching rfl (by simp)
  sendInLoop := SendingOpen.sendInLoop
  disconnecting {x} _ h := by
    intro hopen
    have hc : ((x.log .shutdown).setState .kDisconnectiong).calls = x.calls ++ [.shutdown] :=
      x.calls_log .shutdown
    have hx := h (hopen.of_append hc)
    refine ⟨hx.watching, fun _ => by simp [hc], nofun, fun n hn => hx.finished n ?_⟩
    simpa [hc] using hn
  shutdownInLoop := SendingOpen.shutdownInLoop

lemma SendingOpen.handleWrite {x : Ctx} (res : WriteResult) (h : x.SendingOpen) :
    (x.handleWrite res).SendingOpen := by
  intro hopen
  have hx := h ((open_handleWrite res x).mp hopen)
  rcases handleWrite_cases res x with ⟨he, -⟩ | ⟨taken, rest, b, hw, -, -, -, he⟩
  · rw [he]
    exact hx.extend (x.calls_log _) hx.watching rfl (by simp)
  · have hwrote : (x.wrote taken b).isWriting = true := hw
    rw [he]
    split_ifs
    · obtain ⟨hst, -, hdw, -⟩ := drained_fields hwrote
      have hc := calls_drained (x.wrote taken b)
      rw [calls_wrote, List.append_assoc] at hc
      refine hx.extend hc (fun _ => hdw) hst ?_
      rw [isWriting_disableWriting, hwrote, if_pos rfl]
      split_ifs <;> simp
    · exact hx.extend (calls_wrote _ _ _) (fun _ => hwrote) rfl (by simp)

/-! ### When a callback gets stuck -/

/-- The callback shuts down with nothing sent before. -/
def shutsUnsent : Script → Bool
  | [] => false
  | .send data _ :: acts => data.isEmpty && shutsUnsent acts
  | .shutdown :: _ => true
  | .retrieve _ :: acts => shutsUnsent acts

/-- Shutting down in the loop's thread here gets stuck. -/
def StallsIfShut (x : Ctx) : Prop :=
  x.isInLoopThread = true ∧ x.conn.state_ = .kConnected ∧ x.Idle

lemma Stuck.of_append {x y : Ctx} {l : List Call} (hc : y.calls = x.calls ++ l)
    (hl : .shutdownInLoop ∉ l) (hst : y.conn.state_ = x.conn.state_)
    (hb : y.backlog = x.backlog) (hsh : y.conn.socket_.shutWr = x.conn.socket_.shutWr)
    (h : y.Stuck) : x.Stuck :=
  ⟨shutdownRan_append hc hl h.1, hst ▸ h.2.1, hb ▸ h.2.2.1, hsh ▸ h.2.2.2⟩

/-- Sending does not make a connection stuck. -/
lemma Stuck.of_sendInLoop {x : Ctx} {data : List Byte} {res : WriteResult}
    (h : (x.sendInLoop data res).Stuck) : x.Stuck := by
  obtain ⟨updates, ok, hup, hc⟩ := calls_sendInLoop data res x
  obtain ⟨rest, hst, -, hsh, hb, -, -⟩ := sendInLoop_fields data res x
  rw [List.append_assoc] at hc
  have hrest : rest = [] := by
    have hnil := h.2.2.1
    rw [hb] at hnil
    exact (List.append_eq_nil_iff.mp hnil).2
  refine h.of_append hc ?_ hst (by rw [hb, hrest, List.append_nil]) hsh
  intro hm
  rcases List.mem_append.mp hm with hm | hm
  · exact absurd (hup _ hm) (by simp)
  · simp at hm

lemma stuck_shutdownInLoop {x : Ctx} (hx : x.Sending) :
    x.shutdownInLoop.Stuck ↔ x.conn.state_ = .kDisconnectiong ∧ x.Idle := by
  obtain ⟨hst, hb, -, hsh⟩ := shutdownInLoop_fields x
  rw [Stuck, hst, hb, hsh, Bool.or_eq_false_iff, Bool.not_eq_false']
  constructor
  · rintro ⟨-, hd, hnil, hw, hopen⟩
    exact ⟨hd, hw, hnil, hopen⟩
  · rintro ⟨hd, hw, hnil, hopen⟩
    refine ⟨shutdownRan_intro (calls_shutdownInLoop x) (hx.disconnecting hd) ?_,
      hd, hnil, hw, hopen⟩
    rw [if_pos hw]
    simp

lemma stallsIfShut_sendInLoop {x : Ctx} {data : List Byte} {res : WriteResult}
    (hst : x.conn.state_ = .kConnected) :
    (x.sendInLoop data res).StallsIfShut ↔ x.StallsIfShut ∧ data = [] := by
  obtain ⟨rest, hst', hin, hsh, hb, hw, hall⟩ := sendInLoop_fields data res x
  have hne : x.conn.state_ ≠ .kDisconnected := by rw [hst]; decide
  simp only [StallsIfShut, Idle, hst', hin, hsh, hb, hw, List.append_eq_nil_iff, Bool.or_eq_true]
  constructor
  · rintro ⟨hloop, -, hwr, ⟨hnil, rfl⟩, hopen⟩
    have hwr : x.isWriting = true := hwr.resolve_right (by simp)
    exact ⟨⟨hloop, hst, hwr, hnil, hopen⟩, (hall hne hwr).symm⟩
  · rintro ⟨⟨hloop, -, hwr, hnil, hopen⟩, rfl⟩
    exact ⟨hloop, hst, Or.inl hwr, ⟨hnil, hall hne hwr⟩, hopen⟩

/-- Calls of the user neither close nor destroy. -/
lemma closed_open : Closed Open where
  same hs h := by rw [hs]; exact h
  input _ h := h
  sendInLoop {x} data res h := by
    obtain ⟨updates, ok, hup, hc⟩ := calls_sendInLoop data res x
    rw [List.append_assoc] at hc
    refine h.append hc fun c hcl => ?_
    rcases List.mem_append.mp hcl with hc | hc
    · simp [hup c hc]
    · simp [List.mem_singleton.mp hc]
  disconnecting {x} _ h :=
    Open.append (y := (x.log .shutdown).setState .kDisconnectiong) (x.calls_log _) (by simp) h
  shutdownInLoop {x} h := by
    refine h.append (calls_shutdownInLoop x) ?_
    split_ifs <;> simp

lemma state_shutdown {x : Ctx} (hst : x.conn.state_ = .kConnected) :
    x.shutdown.conn.state_ = .kDisconnectiong := by
  rw [shutdown, if_pos hst, Ctx.runInloop]
  split_ifs
  · exact (shutdownInLoop_fields _).1
  · rfl

/-- A call of `shutdown` on an open connection leaves it stuck exactly when it runs
`shutdownInLoop` there and then, on a channel that writes nothing. -/
lemma stuck_shutdown {x : Ctx} (hst : x.conn.state_ = .kConnected) (hopen : x.Open)
    (hx : x.SendingOpen) : x.shutdown.Stuck ↔ x.StallsIfShut := by
  have hcalls : ((x.log .shutdown).setState .kDisconnectiong).calls = x.calls ++ [.shutdown] :=
    x.calls_log _
  have hin : ((x.log .shutdown).setState .kDisconnectiong).isInLoopThread = x.isInLoopThread :=
    rfl
  rw [shutdown, if_pos hst, Ctx.runInloop, hin]
  split_ifs with hloop
  · have hsend := closed_sendingOpen.disconnecting hst hx (hopen.append hcalls (by simp))
    rw [stuck_shutdownInLoop hsend]
    exact ⟨fun h => ⟨hloop, hst, h.2⟩, fun h => ⟨rfl, h.2.2⟩⟩
  · refine iff_of_false (fun h => ?_) fun h => hloop h.1
    have hran : x.ShutdownRan := shutdownRan_append hcalls (by simp) h.1
    exact (hx hopen).connected hst hran.mem

/-- Nothing the user does helps a connection that is stuck. -/
lemma Stuck.runScript {x : Ctx} (acts : Script) (h : x.Stuck) : (x.runScript acts).Stuck := by
  induction acts generalizing x with
  | nil => exact h
  | cons a acts ih =>
      have hst : x.conn.state_ ≠ .kConnected := by rw [h.2.1]; decide
      refine ih ?_
      cases a with
      | send data res => simpa [act, send, hst] using h
      | shutdown => simpa [act, shutdown, hst] using h
      | retrieve len => exact h

/-- Sending leaves open whether shutting down next would get stuck, unless it sends
something. -/
lemma stallsIfShut_send {x : Ctx} (data : List Byte) (res : WriteResult) :
    (x.send data res).StallsIfShut ↔ x.StallsIfShut ∧ data = [] := by
  unfold send Ctx.runInloop
  split_ifs with hst hloop
  · exact stallsIfShut_sendInLoop hst
  · exact iff_of_false (fun h => hloop h.1) fun h => hloop h.1.1
  · exact iff_of_false (fun h => hst h.2.1) fun h => hst h.1.2.1

lemma Stuck.of_send {x : Ctx} {data : List Byte} {res : WriteResult}
    (h : (x.send data res).Stuck) : x.Stuck := by
  unfold send Ctx.runInloop at h
  split_ifs at h
  · exact h.of_sendInLoop
  · exact h
  · exact h

/-- **When a callback gets stuck.** A callback of an open connection leaves it stuck exactly
when it shuts down at once, in the loop's thread, a connection that watches `EPOLLOUT` with
nothing to write. -/
lemma stuck_runScript {x : Ctx} (acts : Script) (hopen : x.Open) (hx : x.SendingOpen)
    (hs : ¬ x.Stuck) :
    (x.runScript acts).Stuck ↔ x.StallsIfShut ∧ shutsUnsent acts = true := by
  induction acts generalizing x with
  | nil => exact iff_of_false hs (by simp [shutsUnsent])
  | cons a acts ih =>
      have ih' := ih (closed_open.act a hopen) (closed_sendingOpen.act a hx)
      change ((x.act a).runScript acts).Stuck ↔ _
      cases a with
      | send data res =>
          rw [ih' fun h => hs h.of_send, act, stallsIfShut_send]
          simp [shutsUnsent, and_assoc]
      | shutdown =>
          by_cases hst : x.conn.state_ = .kConnected
          · by_cases hstall : x.StallsIfShut
            · have hstuck := (stuck_shutdown hst hopen hx).mpr hstall
              exact iff_of_true (hstuck.runScript acts) ⟨hstall, rfl⟩
            · rw [ih' (mt (stuck_shutdown hst hopen hx).mp hstall)]
              refine iff_of_false (fun h => ?_) fun h => hstall h.1
              have hk := h.1.2.1
              rw [act, state_shutdown hst] at hk
              cases hk
          · have hact : x.act .shutdown = x := if_neg hst
            rw [hact] at ih' ⊢
            rw [ih' hs]
            exact iff_of_false (fun h => hst h.1.2.1) fun h => hst h.1.2.1
      | retrieve len => exact ih' hs

/-! ### Runs -/

/-- **The steps that get an open connection stuck.** A write event takes the last waiting
byte of a connection that is shutting down; or `shutdownInLoop` runs, as a functor or within
a call of `shutdown`, on a connection whose channel has kept `EPOLLOUT` with nothing to
write. -/
def Stalls (x : Ctx) : ConnOp → Prop
  | .handleWrite res =>
      x.Drains res ∧ x.conn.state_ = .kDisconnectiong ∧ x.conn.socket_.shutWr = false
  | .shutdownInLoop => x.conn.state_ = .kDisconnectiong ∧ x.Idle
  | .call tid a => ({ x with tid := tid } : Ctx).StallsIfShut ∧ shutsUnsent [a] = true
  | .handleRead res onMessage _ =>
      (∃ bs, bs ≠ [] ∧ res = .ok bs) ∧ x.StallsIfShut ∧ shutsUnsent onMessage = true
  | _ => False

/-- The property of an open connection: the write half was never closed with bytes waiting,
and the connection is not stuck. -/
def Graceful (x : Ctx) : Prop :=
  x.Open → (∀ n, .shutdownWrite n ∈ x.calls → n = 0) ∧ ¬ x.Stuck

/-- The invariant of the runs in which no step stalls. -/
def Flowing (x : Ctx) : Prop := x.SendingOpen ∧ (x.Open → ¬ x.Stuck)

lemma Flowing.graceful {x : Ctx} (h : x.Flowing) : x.Graceful :=
  fun hopen => ⟨(h.1 hopen).finished, h.2 hopen⟩

lemma stuck_handleWrite {x : Ctx} (res : WriteResult) (hx : x.Sending) (hs : ¬ x.Stuck) :
    (x.handleWrite res).Stuck ↔
      x.Drains res ∧ x.conn.state_ = .kDisconnectiong ∧ x.conn.socket_.shutWr = false := by
  rcases handleWrite_cases res x with ⟨he, hd⟩ | ⟨taken, rest, b, hw, hsplit, hb, hd, he⟩
  · rw [he]
    refine iff_of_false (fun h => hs ?_) fun h => hd h.1
    exact h.of_append (x.calls_log _) (by simp) rfl rfl rfl
  · rw [he, ← hd]
    split_ifs with hrest
    · obtain ⟨hst, hb', -, hsh⟩ := drained_fields (x := x.wrote taken b) hw
      have hdw : (x.wrote taken b).disableWriting.isWriting = true := by
        rw [isWriting_disableWriting]
        exact hw
      rw [Stuck, hst, hb', hsh]
      constructor
      · rintro ⟨-, hdis, -, hopen⟩
        exact ⟨hrest, hdis, hopen⟩
      · rintro ⟨-, hdis, hopen⟩
        have hc := calls_drained (x.wrote taken b)
        rw [if_pos (show (x.wrote taken b).conn.state_ = _ from hdis), if_pos hdw] at hc
        exact ⟨shutdownRan_intro hc (by simp [hx.disconnecting hdis]) (by simp), hdis,
          hb.trans hrest, hopen⟩
    · refine iff_of_false (fun h => hrest ?_) fun h => hrest h.1
      exact hb.symm.trans h.2.2.1

/-- A step of an open connection that leaves it open leaves it stuck exactly when it
stalls. -/
lemma stuck_step {x : Ctx} (op : ConnOp) (hopen : x.Open) (hx : x.SendingOpen)
    (hs : ¬ x.Stuck) (hopen' : (x.step op).Open) : (x.step op).Stuck ↔ x.Stalls op := by
  cases op with
  | sendInLoop data res => exact iff_of_false (fun h => hs (Stuck.of_sendInLoop h)) not_false
  | handleWrite res => exact stuck_handleWrite res (hx hopen) hs
  | handleRead res onMessage onDown =>
      have hlog : (x.log .handleRead).Stuck → x.Stuck :=
        fun h => h.of_append (x.calls_log _) (by simp) rfl rfl rfl
      obtain ⟨b, ⟨⟨errno, hres⟩, he⟩ | ⟨-, he⟩ | ⟨hres, he⟩⟩ :=
        handleRead_cases res onMessage onDown x
      · rw [step, he]
        refine iff_of_false (fun h => hs (hlog h)) ?_
        rintro ⟨⟨bs, -, hok⟩, -⟩
        cases hres.symm.trans hok
      · rw [step, he] at hopen'
        exact absurd hopen' (not_open_handleClose _ _)
      · have hc : (log .messageCallback { x.log .handleRead with conn.inputBuffer_ := b }).calls =
            x.calls ++ [.handleRead, .messageCallback] := by
          simp [calls, Ctx.log]
        have hsend : (log .messageCallback
            { x.log .handleRead with conn.inputBuffer_ := b }).SendingOpen := fun _ =>
          (hx hopen).extend hc (hx hopen).watching rfl (by simp)
        rw [step, he, stuck_runScript onMessage (hopen.append hc (by simp)) hsend
          fun h => hs (h.of_append hc (by simp) rfl rfl rfl)]
        exact ⟨fun h => ⟨hres, h⟩, fun h => h.2⟩
  | handleClose onDown => exact absurd hopen' (not_open_handleClose _ _)
  | shutdownInLoop => exact stuck_shutdownInLoop (hx hopen)
  | connectDestroy onDown => exact absurd hopen' (not_open_connectDestroy _ _)
  | call tid a =>
      have hsend : ({ x with tid := tid } : Ctx).SendingOpen := fun _ =>
        (hx hopen).extend (List.append_nil _).symm (hx hopen).watching rfl (by simp)
      exact stuck_runScript (x := { x with tid := tid }) [a] hopen hsend hs

/-- A step that stalls neither closes nor destroys. -/
lemma open_of_stalls {x : Ctx} {op : ConnOp} (hopen : x.Open) (h : x.Stalls op) :
    (x.step op).Open := by
  cases op with
  | sendInLoop data res => exact closed_open.sendInLoop data res hopen
  | handleWrite res => exact (open_handleWrite res x).mpr hopen
  | handleRead res onMessage onDown =>
      obtain ⟨⟨bs, hbs, hok⟩, -⟩ := h
      obtain ⟨b, ⟨⟨errno, hres⟩, -⟩ | ⟨hres, -⟩ | ⟨-, he⟩⟩ :=
        handleRead_cases res onMessage onDown x
      · cases hres.symm.trans hok
      · cases hres.symm.trans hok
        exact absurd rfl hbs
      · rw [step, he]
        refine closed_open.runScript onMessage (hopen.append (l := [.handleRead, .messageCallback])
          ?_ (by simp))
        simp [calls, Ctx.log]
  | handleClose onDown => exact h.elim
  | shutdownInLoop => exact closed_open.shutdownInLoop hopen
  | connectDestroy onDown => exact h.elim
  | call tid a => exact closed_open.act (x := { x with tid := tid }) a hopen

lemma SendingOpen.step {x : Ctx} (op : ConnOp) (h : x.SendingOpen) : (x.step op).SendingOpen := by
  cases op with
  | sendInLoop data res => exact h.sendInLoop data res
  | handleWrite res => exact h.handleWrite res
  | handleRead res onMessage onDown =>
      have h' (b : SafeBuffer) : SendingOpen { x.log .handleRead with conn.inputBuffer_ := b } :=
        closed_sendingOpen.input b (h.log (by simp))
      obtain ⟨b, ⟨-, he⟩ | ⟨-, he⟩ | ⟨-, he⟩⟩ := handleRead_cases res onMessage onDown x
      · rw [Ctx.step, he]
        exact h' b
      · rw [Ctx.step, he]
        exact fun hopen => absurd hopen (not_open_handleClose _ _)
      · rw [Ctx.step, he]
        exact closed_sendingOpen.runScript onMessage ((h' b).log (by simp))
  | handleClose onDown => exact fun hopen => absurd hopen (not_open_handleClose _ _)
  | shutdownInLoop => exact h.shutdownInLoop
  | connectDestroy onDown => exact fun hopen => absurd hopen (not_open_connectDestroy _ _)
  | call tid a =>
      have h' : ({ x with tid := tid } : Ctx).SendingOpen := fun hopen =>
        (h hopen).extend (List.append_nil _).symm (h hopen).watching rfl (by simp)
      intro hopen
      have hact := closed_sendingOpen.act a h' hopen
      exact hact.extend (List.append_nil _).symm hact.watching rfl (by simp)

/-- A connection is established with nothing waiting and nothing shut down. -/
lemma established_sending (conf : Conf) (onUp : Script) :
    (conf.established onUp).SendingOpen ∧ ¬ (conf.established onUp).Stuck := by
  set x := log (.connectionCallback true)
    ((((conf.fresh.log .connectEstablished).setState .kConnected).tie).enableReading) with hx
  have hcalls : x.calls = [.connectEstablished, .updateChannel, .connectionCallback true] := rfl
  have hback : x.backlog = [] := by
    change (SafeBuffer.new kInitialSize).content = []
    decide
  have hwr : x.isWriting = false := by
    have hev : x.events = 0 ||| kReadEvent := Channel.withEvents_events _ _ _ _
    rw [← Bool.not_eq_true, isWriting_iff, hev]
    decide
  have hsend : x.SendingOpen := fun _ =>
    { watching := fun hne => absurd hback hne
      disconnecting := nofun
      connected := fun _ => by simp [hcalls]
      finished := fun n hn => by simp [hcalls] at hn }
  have hopen : x.Open := by simp [Open, hcalls]
  have hstuck : ¬ x.Stuck := fun h => nomatch (h.2.1 : StateE.kConnected = .kDisconnectiong)
  refine ⟨closed_sendingOpen.runScript onUp hsend, ?_⟩
  change ¬ (x.runScript onUp).Stuck
  rw [stuck_runScript onUp hopen hsend hstuck]
  rintro ⟨⟨-, -, hw, -⟩, -⟩
  rw [hwr] at hw
  cases hw

/-- **When a shutdown is graceful.** Over a run of an established connection the write half is
never closed with bytes waiting; and the connection is never stuck while it is open exactly
when no step of the open connection stalls. -/
theorem graceful_shutdown (conf : Conf) (onUp : Script) (ops : List ConnOp) :
    Always Graceful (conf.established onUp) (path step (conf.established onUp) ops) ↔
      Chain (fun x op _ => x.Open → ¬ x.Stalls op) (conf.established onUp)
        (path step (conf.established onUp) ops) := by
  obtain ⟨hsend, hstuck⟩ := established_sending conf onUp
  have h0 : (conf.established onUp).Flowing := ⟨hsend, fun _ => hstuck⟩
  refine always_path_iff (fun _ hx => hx.graceful) ?_ ?_ h0 ops
  · rintro x op ⟨hx, hs⟩ hop
    refine ⟨hx.step op, fun hopen' => ?_⟩
    have hopen := open_of_step hopen'
    rw [stuck_step op hopen hx (hs hopen) hopen']
    exact hop hopen
  · rintro x op ⟨hx, hs⟩ hop hgr
    obtain ⟨hopen, hst⟩ : x.Open ∧ x.Stalls op := by simpa using hop
    have hopen' := open_of_stalls hopen hst
    exact (hgr hopen').2 ((stuck_step op hopen hx (hs hopen) hopen').mpr hst)

/-- A byte that has to wait keeps the connection from closing its write half. -/
theorem graceful_shutdown_stuck :
    ¬ Always Graceful (Conf.plain.established []) (path step (Conf.plain.established [])
      [.sendInLoop [1] (.error EWOULDBLOCK), .call 0 .shutdown, .handleWrite (.ok 1)]) := by
  intro h
  have hlast := h.2 _ (List.getLast_mem (List.cons_ne_nil _ _))
  exact (hlast (by decide +kernel)).2 (by decide +kernel)

end Ctx

end Reactor
