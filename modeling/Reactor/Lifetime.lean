import Reactor.CallbackProtocol

/-!
Who holds a connection: the `shared_ptr`s to the connections of a server, while its loops run,
the user keeps and drops pointers, and threads call `send` and `shutdown` on connections of
other loops.

A loop keeps the functors of a batch, with what is bound to them, until all have run, and
`handleEvent` its `guard` until it returns. A call of another thread is cut into the test of
`state_`, the store of `shutdown`, the push and the return, and the thread holds a pointer from
the first to the last. A connection that nothing holds is deleted.
-/

namespace Reactor

/-- What another thread calls. -/
inductive Method
  | send (len : ℕ)
  | shutdown
  deriving DecidableEq

/-- The functor that the call queues. It is bound to `this`. -/
def Method.functor (c : ConnId) : Method → Functor
  | .send len => .sendInLoop c len
  | .shutdown => .shutdownInLoop c

/-- Where a call is that has found `kConnected`. -/
inductive MethodPc
  /-- in `shutdown`, before `setState` -/
  | storing
  /-- before the push -/
  | queueing
  | returning
  deriving DecidableEq

def Method.start : Method → MethodPc
  | .send _ => .queueing
  | .shutdown => .storing

/-- A call by the thread `tid`, which does not run the loop of the connection. -/
structure OffCall where
  tid : LoopId
  conn : ConnId
  method : Method
  pc : MethodPc
  deriving DecidableEq

/-- What may hold a pointer to a connection. -/
inductive Holder
  /-- `connections_` -/
  | table
  /-- the local `functors` of the loop `t` -/
  | batch (t : LoopId)
  /-- `pendingFuntors_` of the loop `t` -/
  | pending (t : LoopId)
  /-- the local `guard` in the thread of the loop `t` -/
  | guard (t : LoopId)
  | user
  /-- a call by the thread `t` -/
  | call (t : LoopId)
  deriving DecidableEq

/-- A server, with the functors that each loop has run of its batch, what is guarded, the
number of pointers of the user to each connection, the calls other threads are in, and the
connections deleted. -/
structure Lifetime where
  sys : ServerSys
  ran : LoopId → List Functor
  guard : LoopId → Option ConnId
  user : ConnId → ℕ
  calls : List OffCall
  deleted : ConnId → Bool

/-- The steps: those of the server and its loops, the return of `handleEvent`, what the user
does with pointers, and what another thread does in a call. -/
inductive LifeAct
  | server (a : ServerAct)
  | unguard (t : LoopId)
  | copy (c : ConnId)
  | drop (c : ConnId)
  | call (t : LoopId) (c : ConnId) (method : Method)
  | store (t : LoopId)
  | queue (t : LoopId)
  | ret (t : LoopId)

/-- The thread that takes the step. -/
def ServerAct.thread : ServerAct → LoopId
  | .check t => t
  | .poll t _ => t
  | .handle t _ => t
  | .swap t => t
  | .functor t _ => t
  | .endBatch t => t
  | .userCall t _ _ => t
  | _ => 0

namespace ServerSys

instance (c : ConnId) (s : ServerSys) : Decidable (s.Held c) :=
  inferInstanceAs (Decidable (∃ e ∈ s.entries, e.2 = c))

/-- The base loop and the loops of the connections made. -/
def loopIds (s : ServerSys) : List LoopId :=
  0 :: (List.range s.nextConnId_).map fun c => (s.conn c).loop_

end ServerSys

namespace Lifetime

def new : Lifetime where
  sys := .new
  ran := fun _ => []
  guard := fun _ => none
  user := fun _ => 0
  calls := []
  deleted := fun _ => false

/-! ### Holders -/

/-- One of the functors is bound to a pointer to the connection. -/
def Binds (c : ConnId) (fs : List Functor) : Prop := ∃ f ∈ fs, f.conn = c ∧ f.owns = true

instance (c : ConnId) (fs : List Functor) : Decidable (Binds c fs) :=
  inferInstanceAs (Decidable (∃ f ∈ fs, _))

/-- The functors that the local `functors` of the loop `t` holds. -/
def batch (t : LoopId) (s : Lifetime) : List Functor := s.ran t ++ (s.sys.loops t).pc.batch

def Holds (c : ConnId) (s : Lifetime) : Holder → Prop
  | .table => s.sys.Held c
  | .batch t => (s.sys.loops t).pc ≠ .returned ∧ Binds c (s.batch t)
  | .pending t => (s.sys.loops t).pc ≠ .returned ∧ Binds c (s.sys.loops t).pendingFuntors_
  | .guard t => s.guard t = some c
  | .user => 0 < s.user c
  | .call t => ∃ k ∈ s.calls, k.tid = t ∧ k.conn = c

instance (c : ConnId) (s : Lifetime) : DecidablePred (s.Holds c)
  | .table => inferInstanceAs (Decidable (s.sys.Held c))
  | .batch _ => inferInstanceAs (Decidable (_ ∧ _))
  | .pending _ => inferInstanceAs (Decidable (_ ∧ _))
  | .guard _ => inferInstanceAs (Decidable (_ = _))
  | .user => inferInstanceAs (Decidable (_ < _))
  | .call _ => inferInstanceAs (Decidable (∃ k ∈ s.calls, _))

/-- All that may hold a connection. -/
def holders (s : Lifetime) : List Holder :=
  .table :: .user :: (s.calls.map fun k => .call k.tid) ++
    s.sys.loopIds.flatMap fun t => [.batch t, .pending t, .guard t]

/-- Something holds the connection. -/
def Owned (c : ConnId) (s : Lifetime) : Prop := ∃ h ∈ s.holders, s.Holds c h

instance (c : ConnId) (s : Lifetime) : Decidable (s.Owned c) :=
  inferInstanceAs (Decidable (∃ h ∈ s.holders, _))

/-- The connection is made and not deleted. Something holds it, so a pointer to it can be
had. -/
def Alive (c : ConnId) (s : Lifetime) : Prop := s.sys.Made c ∧ s.deleted c = false

instance (c : ConnId) (s : Lifetime) : Decidable (s.Alive c) :=
  inferInstanceAs (Decidable (_ ∧ _))

/-! ### Steps -/

/-- The call that the thread `t` is in. -/
def callOf (t : LoopId) (s : Lifetime) : Option OffCall := s.calls.find? fun k => k.tid = t

/-- The thread `t` is further in its call. -/
def advance (t : LoopId) (pc : MethodPc) (s : Lifetime) : Lifetime :=
  { s with calls := s.calls.map fun k => if k.tid = t then { k with pc := pc } else k }

/-- `tie_.lock()`, for the channel at the head of those to handle. -/
def lock (t : LoopId) (s : Lifetime) : Option ConnId :=
  match (s.sys.loops t).active with
  | .conn c :: _ => if s.Alive c then some c else none
  | _ => none

/-- What a step of the server, to `sys`, makes of the functors run and of what is guarded. -/
def note (a : ServerAct) (sys : ServerSys) (s : Lifetime) : Lifetime :=
  match a with
  | .functor t _ =>
    { s with
      sys := sys
      ran := Function.update s.ran t (s.ran t ++ (s.sys.loops t).pc.batch.take 1) }
  | .endBatch t => { s with sys := sys, ran := Function.update s.ran t [] }
  | .handle t _ => { s with sys := sys, guard := Function.update s.guard t (s.lock t) }
  | _ => { s with sys := sys }

/-- The step can come next in its thread. The calls on connections of other loops are cut
into steps of their own. -/
def May (s : Lifetime) : ServerAct → Prop
  | .userCall t c _ => s.callOf t = none ∧ (s.sys.conn c).loop_ = t ∧ s.Alive c
  | a => s.callOf a.thread = none ∧ s.guard a.thread = none

instance (s : Lifetime) : DecidablePred s.May
  | .userCall _ _ _ => inferInstanceAs (Decidable (_ ∧ _ ∧ _))
  | .check _ | .poll _ _ | .accept _ _ | .acceptFails | .handle _ _ | .swap _ | .functor _ _
  | .endBatch _ | .destroy | .destroyNext _ _ | .destroyMembers | .quit | .join =>
    inferInstanceAs (Decidable (_ ∧ _))

variable (conf : ServerConf)

/-- A step, before anything is deleted. -/
def act (s : Lifetime) : LifeAct → Option Lifetime
  | .server a => if s.May a then (s.sys.step conf a).map fun sys => s.note a sys else none
  | .unguard t =>
    if s.callOf t = none then some { s with guard := Function.update s.guard t none } else none
  | .copy c =>
    if s.Alive c then some { s with user := Function.update s.user c (s.user c + 1) } else none
  | .drop c =>
    if 0 < s.user c then some { s with user := Function.update s.user c (s.user c - 1) } else none
  | .call t c method =>
    if s.Alive c ∧ (s.sys.conn c).loop_ ≠ t ∧ s.callOf t = none ∧ s.sys.MayCall conf t then
      if (s.sys.conn c).state_ = .kConnected then
        some { s with calls := ⟨t, c, method, method.start⟩ :: s.calls }
      else some s
    else none
  | .store t =>
    match s.callOf t with
    | some ⟨_, c, _, .storing⟩ =>
      some (advance t .queueing { s with
        sys := s.sys.withConn c t fun x => (x.log .shutdown).setState .kDisconnectiong })
    | _ => none
  | .queue t =>
    match s.callOf t with
    | some ⟨_, c, method, .queueing⟩ =>
      some (advance t .returning { s with
        sys := s.sys.push (s.sys.conn c).loop_ (method.functor c) })
    | _ => none
  | .ret t =>
    match s.callOf t with
    | some ⟨_, _, _, .returning⟩ => some { s with calls := s.calls.filter fun k => k.tid ≠ t }
    | _ => none

/-- `~TcpConnection` has run for the connections that nothing holds. -/
def sweep (s : Lifetime) : Lifetime :=
  { s with deleted := fun c => s.deleted c || decide (s.sys.Made c ∧ ¬ s.Owned c) }

def step (s : Lifetime) (a : LifeAct) : Option Lifetime := (s.act conf a).map sweep

def Step (s : Lifetime) (a : LifeAct) (t : Lifetime) : Prop := s.step conf a = some t

end Lifetime

end Reactor
