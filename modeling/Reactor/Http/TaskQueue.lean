import Reactor.Http.Dispatcher

/-!
The threads around an event loop of the older HTTP server: `EventLoop::run`, `addTask`,
`processTaskQ` and the wake-up through the socket pair.

A thread is a stack of the calls it is in, the innermost first, each at the place it has come
to; without a call it runs code of its own. What is done under the lock is one step, and so is
the test for an empty queue. Bytes on the socket pair are counted.
-/

namespace Reactor.Http

open Lib.Watch

/-- A call a thread is in, and the place it has come to. -/
inductive Frame (κ : Type*)
  /-- about to push under the lock -/
  | addTask (node : ChannelElement κ)
  /-- has pushed, about to compare the thread -/
  | pushed
  | taskWakeup
  /-- about to test for an empty queue -/
  | processTaskQ
  /-- about to take the first node under the lock -/
  | pop
  /-- has taken a node, about to add, remove or modify its channel -/
  | apply (node : ChannelElement κ)
  /-- in a callback of a channel -/
  | callback
  | readMessage
  /-- about to compare the thread -/
  | run
  /-- about to test `m_isQuit` -/
  | loop
  /-- about to block -/
  | dispatch
  /-- the descriptors found ready for which `eventActive` has not been called -/
  | active (ready : List (ℕ × Event))
  deriving DecidableEq

/-- What the next step of a thread leaves open. -/
inductive Choice (κ : Type*)
  | go
  /-- code of the user adds a task, with an `addTask` that has yet to begin -/
  | addTask (node : ChannelElement κ)
  /-- code of the user starts the loop -/
  | run
  /-- the descriptors that `dispatch` finds ready -/
  | ready (active : List (ℕ × Event))
  /-- what the channel of a node holds, and whether its `destroyCallback` frees it -/
  | contents (c : Channel) (frees : Bool)

/-- An event loop, its threads, and what was pushed and applied by whom. The channel `wake` is
that of `m_socketPair[1]`, where `unread` bytes wait. -/
structure TaskSys (κ δ τ : Type*) where
  loop : EventLoop κ δ
  m_isQuit : Bool
  m_threadID : τ
  wake : κ
  unread : ℕ
  stack : τ → List (Frame κ)
  pushed : List (ChannelElement κ)
  applied : List (τ × ChannelElement κ)

namespace TaskSys

variable {κ δ τ : Type*} [DecidableEq κ] [DecidableEq τ] [Dispatcher δ]

/-- The message of `taskWakeup`. -/
def msg : String := "我是要成为海贼王的男人!!!"

/-- The room of `readMessage`. -/
def bufSize : ℕ := 256

/-- The constructor, run by the thread of the loop, adds the wake-up channel. -/
def new (d : δ) (owner : τ) (wake : κ) : TaskSys κ δ τ where
  loop := .new d
  m_isQuit := true
  m_threadID := owner
  wake := wake
  unread := 0
  stack := fun t => if t = owner then [.addTask ⟨.ADD, wake⟩] else []
  pushed := []
  applied := []

/-- The owner of the loop. -/
def owner (s : TaskSys κ δ τ) : List (Frame κ) := s.stack s.m_threadID

/-- The thread `t` goes on with other calls. -/
def goto (s : TaskSys κ δ τ) (t : τ) (k : List (Frame κ)) : TaskSys κ δ τ :=
  { s with stack := Function.update s.stack t k }

def push (node : ChannelElement κ) (s : TaskSys κ δ τ) : TaskSys κ δ τ :=
  { s with
    loop := { s.loop with m_taskQ := s.loop.m_taskQ ++ [node] }
    pushed := s.pushed ++ [node] }

def taskWakeup (s : TaskSys κ δ τ) : TaskSys κ δ τ :=
  { s with unread := s.unread + msg.utf8ByteSize }

def readMessage (s : TaskSys κ δ τ) : TaskSys κ δ τ :=
  { s with unread := s.unread - bufSize }

def setTaskQ (q : List (ChannelElement κ)) (s : TaskSys κ δ τ) : TaskSys κ δ τ :=
  { s with loop := { s.loop with m_taskQ := q } }

/-- What `processTaskQ` does with a node it has taken. -/
def applyNode (node : ChannelElement κ) (c : Channel) (frees : Bool) (l : EventLoop κ δ) :
    EventLoop κ δ :=
  match node.type with
  | .ADD => (l.add node.channel c).2
  | .DELETE => (l.remove (fun l => if frees then (l.freeChannel c).2 else l) c).2
  | .MODIFY => (l.modify c).2

/-- What a thread has to do after it has applied a node: the rest of the `destroyCallback`, if
the channel was in the map. -/
def afterNode (node : ChannelElement κ) (c : Channel) (l : EventLoop κ δ)
    (k : List (Frame κ)) : List (Frame κ) :=
  if node.type = .DELETE ∧ (l.m_channelMap c.m_fd).isSome then .callback :: k else k

def apply (t : τ) (node : ChannelElement κ) (c : Channel) (frees : Bool)
    (s : TaskSys κ δ τ) : TaskSys κ δ τ :=
  { s with
    loop := applyNode node c frees s.loop
    applied := s.applied ++ [(t, node)] }

/-- The callback that `eventActive` calls. Of a descriptor without a channel, whose channel it
would read, there is none. -/
def eventActive (ready : ℕ × Event) (s : TaskSys κ δ τ) : Option (Frame κ) :=
  match s.loop.m_channelMap ready.1 with
  | none => none
  | some p => if p = s.wake ∧ ready.2 = .read then some .readMessage else some .callback

/-- The next step of the thread `t`. There is none where it would take a node from an empty
queue, or read bytes that are not there. -/
def step (s : TaskSys κ δ τ) : τ × Choice κ → Option (TaskSys κ δ τ)
  | (t, choice) =>
    match s.stack t, choice with
    -- code of the user, in or out of a callback
    | [], .addTask node => some (s.goto t [.addTask node])
    | [], .run => some (s.goto t [.run])
    | .callback :: k, .addTask node => some (s.goto t (.addTask node :: .callback :: k))
    | .callback :: k, .go => some (s.goto t k)
    -- `addTask`
    | .addTask node :: k, .go => some ((s.push node).goto t (.pushed :: k))
    | .pushed :: k, .go =>
      some (s.goto t (if t = s.m_threadID then .processTaskQ :: k else .taskWakeup :: k))
    | .taskWakeup :: k, .go => some (s.taskWakeup.goto t k)
    -- `processTaskQ`
    | .processTaskQ :: k, .go =>
      some (s.goto t (if s.loop.m_taskQ = [] then k else .pop :: k))
    | .pop :: k, .go =>
      match s.loop.m_taskQ with
      | [] => none
      | node :: q => some ((s.setTaskQ q).goto t (.apply node :: .processTaskQ :: k))
    | .apply node :: k, .contents c frees =>
      some ((s.apply t node c frees).goto t (afterNode node c s.loop k))
    -- `run`
    | .run :: k, .go =>
      some ({ s with m_isQuit := false }.goto t (if t = s.m_threadID then .loop :: k else k))
    | .loop :: k, .go =>
      some (s.goto t (if s.m_isQuit then k else .dispatch :: .processTaskQ :: .loop :: k))
    | .dispatch :: k, .ready active => some (s.goto t (.active active :: k))
    | .active [] :: k, .go => some (s.goto t k)
    | .active (r :: rs) :: k, .go =>
      (s.eventActive r).map fun call => s.goto t (call :: .active rs :: k)
    | .readMessage :: k, .go => if s.unread = 0 then none else some (s.readMessage.goto t k)
    | _, _ => none

/-- A thread is between its push and its `taskWakeup`. -/
def Between (k : List (Frame κ)) : Prop := k.head? = some .pushed ∨ k.head? = some .taskWakeup

/-- The wait of the loop's thread is sure to end: bytes wait to be read, or another thread is
about to write some. -/
def Woken (s : TaskSys κ δ τ) : Prop :=
  0 < s.unread ∨ ∃ t ≠ s.m_threadID, Between (s.stack t)

/-- The node that the loop's thread has taken and not applied yet. -/
def taken : List (Frame κ) → List (ChannelElement κ)
  | .apply node :: _ => [node]
  | _ => []

/-- **Delivery.** The tasks applied, the one in hand and those in the queue are the tasks
pushed, in their order; the loop's thread applies them all, and takes a task only if there is
one; and it is woken up if it is about to block with tasks in the queue. -/
structure Delivers (s : TaskSys κ δ τ) : Prop where
  inOrder : s.applied.map Prod.snd ++ taken s.owner ++ s.loop.m_taskQ = s.pushed
  byOwner : ∀ e ∈ s.applied, e.1 = s.m_threadID
  others : ∀ t ≠ s.m_threadID, ∀ f ∈ s.stack t, f ≠ .pop ∧ ∀ node, f ≠ .apply node
  nonempty : ∀ k, s.owner = .pop :: k → s.loop.m_taskQ ≠ []
  wakes : s.owner.head? = some .dispatch → s.loop.m_taskQ ≠ [] → s.Woken

end TaskSys

end Reactor.Http
