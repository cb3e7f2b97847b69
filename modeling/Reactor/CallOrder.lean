import Reactor.PendingFunctors
import Reactor.OutputStream
import Reactor.GracefulShutdown
import Reactor.Lib.Tagged

/-!
Calls of `send` and `shutdown` on one connection, by the thread of its loop and by others:
`TcpConnection::send` and `shutdown` cut into the steps that another thread can come between.

A call of the loop's thread does its work on the spot, one of another thread leaves a functor
for the loop. A clock goes with the steps, and the history says when each call was made, when
its functor was pushed, when `sendInLoop` or `shutdownInLoop` ran for it and when it returned.
The connection stays open: nothing here closes it, and no `::write` finds the peer gone.
-/

namespace Reactor

open Lib.Trace Lib.Tagged

/-- A call: the thread that makes it, `none` being the loop's, and which of its calls it is. -/
structure CallId where
  thread : Option ℕ
  no : ℕ
  deriving DecidableEq

/-- What is called. -/
inductive Msg
  | send (data : List Byte)
  | shutdown
  deriving DecidableEq

def Msg.bytes : Msg → List Byte
  | .send data => data
  | .shutdown => []

/-- A functor in the queue of the loop. -/
inductive Job
  | call (i : CallId)
  | other
  deriving DecidableEq

/-- Where a thread is in its call. -/
inductive CallPc
  | idle
  /-- in `shutdown`, before it stores `kDisconnectiong` -/
  | tested (n : ℕ)
  /-- before `sendInLoop`, or `runInloop` -/
  | ready (n : ℕ)
  | returning (n : ℕ)
  deriving DecidableEq

/-- When the steps of each call were made. -/
structure Times where
  called : CallId → Option ℕ
  pushed : CallId → Option ℕ
  ran : CallId → Option ℕ
  returned : CallId → Option ℕ

/-- One step was made before another. -/
def Before (a b : Option ℕ) : Prop := ∃ m n, a = some m ∧ b = some n ∧ m < n

/-- The loop and the other threads, the connection, and the history of the calls: those
handed to `sendInLoop`, in order, and those that have come to `shutdownWrite()`, with the bytes
the socket had got by then. -/
structure CallSys where
  sys : LoopSys Job
  conn : Ctx
  calls : Option ℕ → CallPc
  clock : ℕ
  msg : CallId → Msg
  times : Times
  handed : List CallId
  shut : List (CallId × List (CallId × Byte))

/-- The steps: of the thread `w` in a call, of the loop's thread with a functor or with a write
event, and of the loop or of any thread in it. -/
inductive CallAct
  | call (w : Option ℕ) (n : ℕ) (m : Msg)
  | setState (w : Option ℕ)
  | runHere (res : WriteResult)
  | push (t : ℕ)
  | ret (w : Option ℕ)
  | functor (res : WriteResult)
  | handleWrite (res : WriteResult)
  | loop (a : LoopAct Job)

/-- The peer is not gone. -/
def NoFault (res : WriteResult) : Prop := ∀ e, res = .error e → e ≠ EPIPE ∧ e ≠ ECONNRESET

instance (res : WriteResult) : Decidable (NoFault res) :=
  match res with
  | .ok _ => isTrue nofun
  | .error e => decidable_of_iff (e ≠ EPIPE ∧ e ≠ ECONNRESET)
      ⟨fun h _ he => Except.error.inj he ▸ h, fun h => h e rfl⟩

namespace CallSys

/-- The connection has been established, and nobody has called yet. -/
def new (conf : Conf) : CallSys where
  sys := .new
  conn := conf.established []
  calls := fun _ => .idle
  clock := 0
  msg := fun _ => .shutdown
  times := ⟨fun _ => none, fun _ => none, fun _ => none, fun _ => none⟩
  handed := []
  shut := []

/-- The bytes of the calls handed to `sendInLoop`, each with its call. -/
def stream (s : CallSys) : List (CallId × Byte) := tagged (fun i => (s.msg i).bytes) s.handed

/-- The bytes the socket has got, each with the call it is of. -/
def wire (s : CallSys) : List (CallId × Byte) := s.stream.take s.conn.conn.socket_.sent.length

/-- The thread can begin a call: that of the loop from user code. -/
def Free (s : CallSys) : Option ℕ → Prop
  | none => s.sys.pc.inner = some .running
  | some t => s.sys.callers t = .idle

instance (s : CallSys) (w : Option ℕ) : Decidable (s.Free w) := by
  cases w <;> unfold Free <;> infer_instance

/-- A thread in a call does nothing else with the loop, and functors of calls are pushed and
run by the steps that are about them. -/
def MayStep (s : CallSys) : LoopAct Job → Prop
  | .push t f => f = .other ∧ s.calls (some t) = .idle
  | .storeQuit t | .wakeup t => s.calls (some t) = .idle
  | .innerPush f => f = .other ∧ s.calls none = .idle
  | .nextFunctor => False
  | _ => s.calls none = .idle

instance (s : CallSys) (a : LoopAct Job) : Decidable (s.MayStep a) := by
  cases a <;> unfold MayStep <;> infer_instance

/-- The time of a step of the call `i`. -/
def stamp (i : CallId) (s : CallSys) (f : CallId → Option ℕ) : CallId → Option ℕ :=
  Function.update f i (some s.clock)

def setPc (w : Option ℕ) (pc : CallPc) (s : CallSys) : CallSys :=
  { s with calls := Function.update s.calls w pc }

/-- `sendInLoop` or `shutdownInLoop` runs for the call `i`. -/
def exec (i : CallId) (res : WriteResult) (s : CallSys) : CallSys :=
  let s' := { s with times.ran := s.stamp i s.times.ran }
  match s.msg i with
  | .send data => { s' with conn := s.conn.sendInLoop data res, handed := s.handed ++ [i] }
  | .shutdown => { s' with
      conn := s.conn.shutdownInLoop
      shut := if s.conn.isWriting then s.shut else s.shut ++ [(i, s.wire)] }

/-- A step, but for the clock. A call counts when its test finds `kConnected`. -/
def act (s : CallSys) (a : CallAct) : Option CallSys :=
  match a with
  | .call w n m =>
    if s.calls w = .idle ∧ s.Free w ∧ s.times.called ⟨w, n⟩ = none ∧
        s.conn.conn.state_ = .kConnected then
      some (setPc w (match m with | .send _ => .ready n | .shutdown => .tested n)
        { s with
          msg := Function.update s.msg ⟨w, n⟩ m
          times.called := s.stamp ⟨w, n⟩ s.times.called })
    else none
  | .setState w =>
    match s.calls w with
    | .tested n => some (setPc w (.ready n) { s with conn := s.conn.setState .kDisconnectiong })
    | _ => none
  | .runHere res =>
    match s.calls none with
    | .ready n =>
      if NoFault res then some ((s.exec ⟨none, n⟩ res).setPc none (.returning n)) else none
    | _ => none
  | .push t =>
    match s.calls (some t) with
    | .ready n => (s.sys.step (.push t (.call ⟨some t, n⟩))).map fun sys =>
        setPc (some t) (.returning n)
          { s with sys := sys, times.pushed := s.stamp ⟨some t, n⟩ s.times.pushed }
    | _ => none
  | .ret w =>
    match s.calls w with
    | .returning n =>
      (match w with | none => some s.sys | some t => s.sys.step (.wakeup t)).map fun sys =>
        setPc w .idle
          { s with sys := sys, times.returned := s.stamp ⟨w, n⟩ s.times.returned }
    | _ => none
  | .functor res =>
    if s.calls none = .idle ∧ NoFault res then
      (s.sys.step .nextFunctor).map fun sys =>
        match s.sys.pc.batch with
        | .call i :: _ => exec i res { s with sys := sys }
        | _ => { s with sys := sys }
    else none
  | .handleWrite res =>
    match s.sys.pc with
    | .callback .running _ =>
      if s.calls none = .idle then some { s with conn := s.conn.handleWrite res } else none
    | _ => none
  | .loop a =>
    if s.MayStep a then (s.sys.step a).map fun sys => { s with sys := sys } else none

def step (s : CallSys) (a : CallAct) : Option CallSys :=
  (s.act a).map fun t => { t with clock := s.clock + 1 }

def Step (s : CallSys) (a : CallAct) (t : CallSys) : Prop := s.step a = some t

end CallSys

end Reactor
