import Reactor.Http.TcpConnection
import Reactor.Lib.Trace

/-!
The connections of one event loop of the older HTTP server, from `acceptConnection` to the end of
the `DELETE` task: `EventLoop::processTaskQ`, `SelectDispatcher::remove`, `TcpConnection::destroy`,
the destructor and `freeChannel`.

Connections and channels are numbered as they are made, and no number is used twice, so that the
object behind an old pointer is never mistaken for a new one. Descriptors are used again.
-/

namespace Reactor.Http

open Lib.Trace

/-- A pointer to a channel, which says what the channel's `m_arg` points at: a connection, or a
server or a loop. -/
inductive ChannelPtr
  | conn (id : ℕ)
  | other (id : ℕ)
  deriving DecidableEq

def ChannelPtr.id : ChannelPtr → ℕ
  | conn id => id
  | other id => id

/-- The connection that `m_arg` points at. -/
def ChannelPtr.m_arg : ChannelPtr → Option ℕ
  | conn id => some id
  | other _ => none

/-- An event loop with the connections handed to it. For a descriptor, `opened` says whose it is;
for a socket, `closed` says how often it was closed. -/
structure ConnSys where
  loop : EventLoop ChannelPtr SelectDispatcher
  m_fd : ChannelPtr → ℕ
  conn : ℕ → Option TcpConnection
  socket : ℕ → Socket
  opened : ℕ → Option ChannelPtr
  closed : ChannelPtr → ℕ
  next : ℕ
  /-- the loop's thread is in `processTaskQ` -/
  draining : Bool

inductive ConnAct
  /-- a connection is made for a descriptor that `accept` returned, with buffers at two addresses
  and a socket that will answer `send` in some way -/
  | accept (fd readData writeData : ℕ) (sends : ℕ → ℤ)
  /-- another channel is added, as for the socket pair or the listening socket -/
  | attach (fd : ℕ)
  /-- a read event, with what the system does during `processRead` -/
  | read (fd : ℕ) (host : Host) (rounds : ℕ) (incoming : ReadResult)
  /-- `processTaskQ` takes the first task, or returns -/
  | task

namespace ConnSys

def init : ConnSys where
  loop := .new .new
  m_fd _ := 0
  conn _ := none
  socket _ := ⟨fun _ => 0, 0, []⟩
  opened _ := none
  closed _ := 0
  next := 0
  draining := false

/-- The channel, which asks for read events all its life. -/
def channel (p : ChannelPtr) (s : ConnSys) : Channel := ⟨s.m_fd p, FDEvent.ReadEvent⟩

def addTask (type : ElemType) (p : ChannelPtr) (s : ConnSys) : ConnSys :=
  { s with loop := { s.loop with m_taskQ := s.loop.m_taskQ ++ [⟨type, p⟩] } }

def setTaskQ (q : List (ChannelElement ChannelPtr)) (s : ConnSys) : ConnSys :=
  { s with loop := { s.loop with m_taskQ := q } }

/-- A channel for an open descriptor. -/
def make (fd : ℕ) (p : ChannelPtr) (s : ConnSys) : ConnSys :=
  { s with
    m_fd := Function.update s.m_fd p fd
    opened := Function.update s.opened fd (some p)
    next := s.next + 1 }

/-- `close`. -/
def close (fd : ℕ) (s : ConnSys) : ConnSys :=
  match s.opened fd with
  | none => s
  | some p =>
    { s with
      opened := Function.update s.opened fd none
      closed := Function.update s.closed p (s.closed p + 1) }

/-- `remove`, whose dispatcher calls `destroy`: the connection is deleted, and the destructor
frees the channel if both buffers are empty. There is nothing to destroy for a channel without a
`destroyCallback`, nor for a connection that has been deleted before. -/
def remove (p : ChannelPtr) (s : ConnSys) : Option ConnSys :=
  let c := s.channel p
  if s.loop.m_channelMap c.m_fd = none then some s
  else
    match p with
    | .other _ => none
    | .conn id => (s.conn id).map fun conn =>
      let freeChannel := fun l : EventLoop ChannelPtr SelectDispatcher =>
        if conn.frees then (l.freeChannel c).2 else l
      let s := { s with
        loop := (s.loop.remove freeChannel c).2
        conn := Function.update s.conn id none }
      if conn.frees then s.close c.m_fd else s

/-- What `processTaskQ` does with a node. -/
def applyNode (node : ChannelElement ChannelPtr) (s : ConnSys) : Option ConnSys :=
  let c := s.channel node.channel
  match node.type with
  | .ADD => some { s with loop := (s.loop.add node.channel c).2 }
  | .DELETE => s.remove node.channel
  | .MODIFY => some { s with loop := (s.loop.modify c).2 }

/-- What `processRead` leaves. The tasks it adds are processed by its own thread. -/
def served (id : ℕ) (result : Served) (s : ConnSys) : ConnSys :=
  result.tasks.foldl (fun s type => s.addTask type (.conn id)) { s with
    conn := Function.update s.conn id (some result.conn)
    socket := Function.update s.socket id result.socket
    draining := true }

/-- A step. There is none where a call does not return. -/
def step (s : ConnSys) : ConnAct → Option ConnSys
  | .accept fd readData writeData sends =>
    if s.opened fd = none then
      some (({ s with
        conn := Function.update s.conn s.next (some (.new readData writeData))
        socket := Function.update s.socket s.next ⟨sends, 0, []⟩ }.make fd
          (.conn s.next)).addTask .ADD (.conn s.next))
    else none
  | .attach fd =>
    if s.opened fd = none then
      some ((s.make fd (.other s.next)).addTask .ADD (.other s.next))
    else none
  | .read fd host rounds incoming =>
    if s.draining = false ∧ fd ∈ s.loop.m_dispatcher.m_readSet then
      match s.loop.m_channelMap fd with
      | some (.conn id) =>
        match s.conn id with
        | some conn =>
          match conn.processRead host rounds incoming (s.socket id) with
          | some (.ok result) => some (s.served id result)
          | _ => none
        | none => none
      | _ => none
    else none
  | .task =>
    match s.loop.m_taskQ with
    | [] => some { s with draining := false }
    | node :: q => (s.setTaskQ q).applyNode node

/-- The connection whose `DELETE` task is processed next. -/
def deletes (s : ConnSys) : ConnAct → Option ℕ
  | .task =>
    match s.loop.m_taskQ with
    | ⟨.DELETE, p⟩ :: _ => p.m_arg
    | _ => none
  | _ => none

/-- The connection's socket has been closed once, its descriptor has no channel, and no channel
points at a connection that is not there. -/
structure Released (id : ℕ) (s : ConnSys) : Prop where
  closed : s.closed (.conn id) = 1
  noEntry : s.loop.m_channelMap (s.m_fd (.conn id)) = none
  noDangling : ∀ fd p id', s.loop.m_channelMap fd = some p → p.m_arg = some id' →
    s.conn id' ≠ none

/-- A step that processes the `DELETE` task of a connection releases it. -/
def Releases (s : ConnSys) (a : ConnAct) (t : ConnSys) : Prop :=
  ∀ id, s.deletes a = some id → t.Released id

/-- When the `DELETE` task of a connection is processed, both of its buffers are empty. -/
def Drained (s : ConnSys) (a : ConnAct) : Prop :=
  ∀ id conn, s.deletes a = some id → s.conn id = some conn →
    conn.m_readBuf.readableSize = 0 ∧ conn.m_writeBuf.readableSize = 0

/-! ### The tables -/

/-- What holds as long as every connection deleted has been released. -/
structure Inv (s : ConnSys) : Prop where
  /-- a channel in the map is there under its descriptor, and its connection is there -/
  entry : ∀ fd p, s.loop.m_channelMap fd = some p →
    s.m_fd p = fd ∧ p.id < s.next ∧ ∀ id, p = .conn id → s.conn id ≠ none
  /-- a connection that is there has its descriptor to itself, and its socket is open -/
  alive : ∀ id, s.conn id ≠ none → id < s.next ∧
    s.opened (s.m_fd (.conn id)) = some (.conn id) ∧ s.closed (.conn id) = 0
  known : ∀ node ∈ s.loop.m_taskQ, node.channel.id < s.next
  nodup : s.loop.m_taskQ.Nodup
  /-- a connection that is to be added is there and has not been added -/
  added : ∀ id, ⟨.ADD, .conn id⟩ ∈ s.loop.m_taskQ →
    s.conn id ≠ none ∧ s.loop.m_channelMap (s.m_fd (.conn id)) ≠ some (.conn id)
  /-- a channel that is to be deleted is the channel of a connection and is in the map -/
  deleted : ∀ p, ⟨.DELETE, p⟩ ∈ s.loop.m_taskQ →
    (∃ id, p = .conn id) ∧ s.loop.m_channelMap (s.m_fd p) = some p
  /-- one channel is deleted at a time, and only while the queue is drained -/
  single : ∀ p p', ⟨.DELETE, p⟩ ∈ s.loop.m_taskQ → ⟨.DELETE, p'⟩ ∈ s.loop.m_taskQ → p = p'
  drained : s.draining = false → ∀ p, ⟨.DELETE, p⟩ ∉ s.loop.m_taskQ
  fresh : ∀ id ≥ s.next, s.closed (.conn id) = 0

lemma inv_init : init.Inv := by
  constructor <;> simp [init, EventLoop.new]

/-- A new channel with a number not used before, of an open descriptor not in use, is added. -/
lemma Inv.make {s : ConnSys} (h : s.Inv) {fd : ℕ} (hfd : s.opened fd = none) {p : ChannelPtr}
    (hp : p.id = s.next) (conn' : ℕ → Option TcpConnection) (socket' : ℕ → Socket)
    (hconn' : ∀ id, conn' id ≠ none ↔ s.conn id ≠ none ∨ p = .conn id) :
    ((({ s with conn := conn', socket := socket' } : ConnSys).make fd p).addTask .ADD p).Inv := by
  have hother : ∀ p' : ChannelPtr, p'.id < s.next → p' ≠ p := by
    rintro p' hlt rfl
    omega
  have hupd : ∀ p' : ChannelPtr, p'.id < s.next →
      Function.update s.m_fd p fd p' = s.m_fd p' := fun p' hlt =>
    Function.update_of_ne (hother p' hlt) _ _
  have hmem : ∀ type p', (⟨type, p'⟩ : ChannelElement ChannelPtr) ∈
      s.loop.m_taskQ ++ [⟨.ADD, p⟩] ↔ ⟨type, p'⟩ ∈ s.loop.m_taskQ ∨ type = .ADD ∧ p' = p := by
    simp
  have hdel : ∀ p', (⟨.DELETE, p'⟩ : ChannelElement ChannelPtr) ∈
      s.loop.m_taskQ ++ [⟨.ADD, p⟩] ↔ ⟨.DELETE, p'⟩ ∈ s.loop.m_taskQ := by
    simp
  constructor
  case entry =>
    intro fd' p' hmap
    obtain ⟨hfd', hlt, hconn⟩ := h.entry fd' p' hmap
    exact ⟨(hupd p' hlt).trans hfd', Nat.lt_succ_of_lt hlt, fun id hid =>
      (hconn' id).mpr (Or.inl (hconn id hid))⟩
  case alive =>
    intro id hid
    rcases (hconn' id).mp hid with hid | rfl
    · obtain ⟨hlt, hopen, hclosed⟩ := h.alive id hid
      refine ⟨Nat.lt_succ_of_lt hlt, ?_, hclosed⟩
      change Function.update s.opened fd (some p) (Function.update s.m_fd p fd (.conn id)) = _
      rw [hupd (.conn id) hlt, Function.update_of_ne ?_ _ _, hopen]
      rintro heq
      rw [heq, hfd] at hopen
      cases hopen
    · have hnext : id = s.next := hp
      refine ⟨hnext ▸ Nat.lt_succ_self _, ?_, h.fresh id hnext.ge⟩
      change Function.update s.opened fd (some (.conn id))
        (Function.update s.m_fd (.conn id) fd (.conn id)) = _
      rw [Function.update_self, Function.update_self]
  case known =>
    intro node hnode
    rcases List.mem_append.mp hnode with hnode | hnode
    · exact Nat.lt_succ_of_lt (h.known node hnode)
    · obtain rfl := List.mem_singleton.mp hnode
      exact hp ▸ Nat.lt_succ_self _
  case nodup =>
    refine h.nodup.append (List.nodup_singleton _) ?_
    rintro node hnode hnode'
    obtain rfl := List.mem_singleton.mp hnode'
    have hlt : p.id < s.next := h.known _ hnode
    omega
  case added =>
    intro id hid
    rcases (hmem _ _).mp hid with hid | ⟨-, hpid⟩
    · have hlt : (ChannelPtr.conn id).id < s.next := h.known _ hid
      obtain ⟨hconn, hmap⟩ := h.added id hid
      refine ⟨(hconn' id).mpr (Or.inl hconn), ?_⟩
      change s.loop.m_channelMap (Function.update s.m_fd p fd (.conn id)) ≠ _
      rwa [hupd _ hlt]
    · refine ⟨(hconn' id).mpr (Or.inr hpid.symm), fun hmap => ?_⟩
      exact hother _ (h.entry _ _ hmap).2.1 hpid
  case deleted =>
    intro p' hp'
    have hp' := (hdel p').mp hp'
    obtain ⟨hconn, hmap⟩ := h.deleted p' hp'
    refine ⟨hconn, ?_⟩
    change s.loop.m_channelMap (Function.update s.m_fd p fd p') = _
    rw [hupd p' (h.known _ hp'), hmap]
  case single => exact fun p₁ p₂ h₁ h₂ => h.single p₁ p₂ ((hdel _).mp h₁) ((hdel _).mp h₂)
  case drained => exact fun hd p' hp' => h.drained hd p' ((hdel p').mp hp')
  case fresh => exact fun id hid => h.fresh id (Nat.le_of_succ_le hid)

/-- A connection is served, and its channel is to be deleted. -/
lemma Inv.read {s : ConnSys} (h : s.Inv) (hd : s.draining = false) {fd id : ℕ}
    (hmap : s.loop.m_channelMap fd = some (.conn id)) {result : Served}
    (htasks : result.tasks = [.DELETE]) : (s.served id result).Inv := by
  obtain ⟨hfd, hlt, hconn⟩ := h.entry fd _ hmap
  have hnone := h.drained hd
  have hkeep : ∀ id', Function.update s.conn id (some result.conn) id' ≠ none ↔
      s.conn id' ≠ none := fun id' => by
    by_cases hid : id' = id
    · subst hid
      simpa using hconn _ rfl
    · rw [Function.update_of_ne hid]
  have hdel : ∀ p', (⟨.DELETE, p'⟩ : ChannelElement ChannelPtr) ∈
      s.loop.m_taskQ ++ [⟨.DELETE, .conn id⟩] ↔ p' = .conn id := fun p' => by
    simp [hnone p']
  rw [served, htasks]
  constructor
  case entry =>
    intro fd' p' hmap'
    obtain ⟨hfd', hlt', hconn'⟩ := h.entry fd' p' hmap'
    exact ⟨hfd', hlt', fun id' hid' => (hkeep id').mpr (hconn' id' hid')⟩
  case alive => exact fun id' hid' => h.alive id' ((hkeep id').mp hid')
  case known =>
    intro node hnode
    rcases List.mem_append.mp hnode with hnode | hnode
    · exact h.known node hnode
    · obtain rfl := List.mem_singleton.mp hnode
      exact hlt
  case nodup =>
    refine h.nodup.append (List.nodup_singleton _) ?_
    rintro node hnode hnode'
    obtain rfl := List.mem_singleton.mp hnode'
    exact hnone _ hnode
  case added =>
    intro id' hid'
    have hid' : ⟨.ADD, .conn id'⟩ ∈ s.loop.m_taskQ := by
      simpa using (List.mem_append.mp hid').resolve_right (by simp)
    obtain ⟨hconn', hmap'⟩ := h.added id' hid'
    exact ⟨(hkeep id').mpr hconn', hmap'⟩
  case deleted =>
    intro p' hp'
    obtain rfl := (hdel p').mp hp'
    refine ⟨⟨id, rfl⟩, ?_⟩
    change s.loop.m_channelMap (s.m_fd (.conn id)) = _
    rw [hfd, hmap]
  case single => exact fun p₁ p₂ h₁ h₂ => ((hdel p₁).mp h₁).trans ((hdel p₂).mp h₂).symm
  case drained => exact fun hd' => nomatch hd'
  case fresh => exact h.fresh

/-! ### The tasks -/

lemma Inv.tail {s : ConnSys} (h : s.Inv) {node : ChannelElement ChannelPtr}
    {q : List (ChannelElement ChannelPtr)} (hq : s.loop.m_taskQ = node :: q) :
    (s.setTaskQ q).Inv := by
  have hmem : ∀ n ∈ q, n ∈ s.loop.m_taskQ := fun n hn => hq ▸ List.mem_cons_of_mem _ hn
  exact {
    entry := h.entry
    alive := h.alive
    known := fun n hn => h.known n (hmem n hn)
    nodup := (List.nodup_cons.mp (hq ▸ h.nodup)).2
    added := fun id hid => h.added id (hmem _ hid)
    deleted := fun p hp => h.deleted p (hmem _ hp)
    single := fun p p' hp hp' => h.single p p' (hmem _ hp) (hmem _ hp')
    drained := fun hd p hp => h.drained hd p (hmem _ hp)
    fresh := h.fresh }

/-- The sets of the dispatcher do not matter. -/
lemma Inv.dispatcher {s : ConnSys} (h : s.Inv) (d : SelectDispatcher) :
    ({ s with loop := { s.loop with m_dispatcher := d } } : ConnSys).Inv :=
  ⟨h.entry, h.alive, h.known, h.nodup, h.added, h.deleted, h.single, h.drained, h.fresh⟩

/-- A channel that is not waiting to be added again is added. -/
lemma Inv.add {s : ConnSys} (h : s.Inv) {p : ChannelPtr} (hlt : p.id < s.next)
    (hconn : ∀ id, p = .conn id → s.conn id ≠ none) (hnot : ⟨.ADD, p⟩ ∉ s.loop.m_taskQ) :
    ({ s with loop := (s.loop.add p (s.channel p)).2 } : ConnSys).Inv := by
  by_cases hmap : s.loop.m_channelMap (s.m_fd p) = none
  swap
  · have hsame : (s.loop.add p (s.channel p)).2 = s.loop := by
      rw [EventLoop.add, channel, if_neg hmap]
    rw [hsame]
    exact h
  have hadd : (s.loop.add p (s.channel p)).2 = { s.loop with
      m_dispatcher := (Dispatcher.add (s.channel p) s.loop.m_dispatcher).2
      m_channelMap := Function.update s.loop.m_channelMap (s.m_fd p) (some p) } := by
    simp only [EventLoop.add, channel, hmap, if_true]
  rw [hadd]
  have hupd : ∀ fd p', Function.update s.loop.m_channelMap (s.m_fd p) (some p) fd = some p' →
      (fd = s.m_fd p ∧ p' = p) ∨ s.loop.m_channelMap fd = some p' := fun fd p' hfd => by
    by_cases heq : fd = s.m_fd p
    · subst heq
      rw [Function.update_self] at hfd
      exact Or.inl ⟨rfl, (Option.some.inj hfd).symm⟩
    · rw [Function.update_of_ne heq] at hfd
      exact Or.inr hfd
  exact {
    entry := fun fd p' hfd => by
      rcases hupd fd p' hfd with ⟨rfl, rfl⟩ | hfd
      · exact ⟨rfl, hlt, hconn⟩
      · exact h.entry fd p' hfd
    alive := h.alive
    known := h.known
    nodup := h.nodup
    added := fun id hid => by
      obtain ⟨hid', hmap'⟩ := h.added id hid
      refine ⟨hid', fun hfd => ?_⟩
      rcases hupd _ _ hfd with ⟨-, rfl⟩ | hfd
      · exact hnot hid
      · exact hmap' hfd
    deleted := fun p' hp' => by
      obtain ⟨hconn', hmap'⟩ := h.deleted p' hp'
      refine ⟨hconn', ?_⟩
      have hne : s.m_fd p' ≠ s.m_fd p := fun heq => by
        rw [heq, hmap] at hmap'
        cases hmap'
      exact (Function.update_of_ne hne _ _).trans hmap'
    single := h.single
    drained := h.drained
    fresh := h.fresh }

/-- What `remove` does with a connection whose channel is in the map. -/
lemma remove_eq {s : ConnSys} {id : ℕ} {conn : TcpConnection}
    (hmap : s.loop.m_channelMap (s.m_fd (.conn id)) ≠ none) (hconn : s.conn id = some conn) :
    s.remove (.conn id) = some (
      let d := (Dispatcher.remove (s.channel (.conn id)) s.loop.m_dispatcher).2
      let t := { s with
        loop := { s.loop with
          m_dispatcher := d
          m_channelMap := if conn.frees then
              Function.update s.loop.m_channelMap (s.m_fd (.conn id)) none
            else s.loop.m_channelMap }
        conn := Function.update s.conn id none }
      if conn.frees then t.close (s.m_fd (.conn id)) else t) := by
  have hloop : ∀ frees : Bool, (s.loop.remove (fun l => if frees then
      (l.freeChannel (s.channel (.conn id))).2 else l) (s.channel (.conn id))).2 =
      { s.loop with
        m_dispatcher := (Dispatcher.remove (s.channel (.conn id)) s.loop.m_dispatcher).2
        m_channelMap := if frees then
            Function.update s.loop.m_channelMap (s.m_fd (.conn id)) none
          else s.loop.m_channelMap } := fun frees => by
    cases frees <;> simp [EventLoop.remove, EventLoop.freeChannel, channel, hmap]
  have hmap' : s.loop.m_channelMap (s.channel (.conn id)).m_fd ≠ none := hmap
  simp only [remove, if_neg hmap', hconn, Option.map_some, hloop]
  rfl

/-- A connection with empty buffers is released. -/
lemma Inv.release {s : ConnSys} (h : s.Inv) {id : ℕ} {conn : TcpConnection}
    (hmap : s.loop.m_channelMap (s.m_fd (.conn id)) = some (.conn id))
    (hconn : s.conn id = some conn) (hfrees : conn.frees = true)
    (hnot : ∀ p, ⟨.DELETE, p⟩ ∉ s.loop.m_taskQ) :
    ∃ t, s.remove (.conn id) = some t ∧ t.Inv ∧ t.Released id := by
  obtain ⟨hlt, hopen, hclosed⟩ := h.alive id (by simp [hconn])
  have hne : ∀ id', id' ≠ id → s.conn id' ≠ none → s.m_fd (.conn id') ≠ s.m_fd (.conn id) :=
    fun id' hid hconn' heq => by
      have hopen' := (h.alive id' hconn').2.1
      rw [heq, hopen] at hopen'
      exact hid (ChannelPtr.conn.inj (Option.some.inj hopen')).symm
  have hupd : ∀ id', Function.update s.conn id none id' ≠ none ↔ id' ≠ id ∧ s.conn id' ≠ none :=
    fun id' => by
      by_cases hid : id' = id
      · simp [hid]
      · simp [hid]
  have hentry : ∀ fd p, Function.update s.loop.m_channelMap (s.m_fd (.conn id)) none fd = some p →
      fd ≠ s.m_fd (.conn id) ∧ s.loop.m_channelMap fd = some p := fun fd p hfd => by
    by_cases heq : fd = s.m_fd (.conn id)
    · rw [heq, Function.update_self] at hfd
      cases hfd
    · exact ⟨heq, by rwa [Function.update_of_ne heq] at hfd⟩
  have hdangle : ∀ fd p id', Function.update s.loop.m_channelMap (s.m_fd (.conn id)) none fd =
      some p → p = .conn id' → Function.update s.conn id none id' ≠ none :=
    fun fd p id' hfd hp => by
      obtain ⟨hfd', hold⟩ := hentry fd p hfd
      obtain ⟨hkey, -, hconn'⟩ := h.entry fd p hold
      refine (hupd id').mpr ⟨?_, hconn' id' hp⟩
      rintro rfl
      exact hfd' (hp ▸ hkey.symm)
  have hremove := remove_eq (by simp [hmap]) hconn
  simp only [hfrees, if_true, close, hopen] at hremove
  refine ⟨_, hremove, ?_, ?_⟩
  · exact {
      entry := fun fd p hfd => by
        obtain ⟨-, hold⟩ := hentry fd p hfd
        obtain ⟨hfd', hlt', -⟩ := h.entry fd p hold
        exact ⟨hfd', hlt', fun id' hp => hdangle fd p id' hfd hp⟩
      alive := fun id' hid' => by
        obtain ⟨hid, hold⟩ := (hupd id').mp hid'
        obtain ⟨hlt', hopen', hclosed'⟩ := h.alive id' hold
        refine ⟨hlt', ?_, ?_⟩
        · exact (Function.update_of_ne (hne id' hid hold) _ _).trans hopen'
        · exact (Function.update_of_ne (by simpa using hid) _ _).trans hclosed'
      known := h.known
      nodup := h.nodup
      added := fun id' hid' => by
        obtain ⟨hconn', hmap'⟩ := h.added id' hid'
        have hid : id' ≠ id := by
          rintro rfl
          exact hmap' hmap
        exact ⟨(hupd id').mpr ⟨hid, hconn'⟩, fun hfd => hmap' (hentry _ _ hfd).2⟩
      deleted := fun p hp => absurd hp (hnot p)
      single := h.single
      drained := h.drained
      fresh := fun id' hid' => by
        have hid : (ChannelPtr.conn id') ≠ .conn id := by
          rintro heq
          obtain rfl := ChannelPtr.conn.inj heq
          exact absurd hlt (Nat.not_lt.mpr hid')
        exact (Function.update_of_ne hid _ _).trans (h.fresh id' hid') }
  · refine ⟨?_, Function.update_self _ _ _, fun fd p id' hfd harg => hdangle fd p id' hfd ?_⟩
    · exact (Function.update_self _ _ _).trans (by rw [hclosed])
    · cases p with
      | conn id'' => exact congrArg _ (Option.some.inj harg)
      | other n => cases harg

/-- The `DELETE` task of a channel that is in the map releases its connection exactly if the buffers
are empty. -/
lemma Inv.delete {s t : ConnSys} (h : s.Inv) {p : ChannelPtr}
    {q : List (ChannelElement ChannelPtr)} (hq : s.loop.m_taskQ = ⟨.DELETE, p⟩ :: q)
    (ht : s.step .task = some t) :
    (s.Drained .task → t.Inv ∧ s.Releases .task t) ∧
      (¬ s.Drained .task → ¬ s.Releases .task t) := by
  obtain ⟨⟨id, rfl⟩, hmap⟩ := h.deleted p (by simp [hq])
  obtain ⟨conn, hconn⟩ : ∃ conn, s.conn id = some conn :=
    Option.ne_none_iff_exists'.mp ((h.entry _ _ hmap).2.2 id rfl)
  have hdel : s.deletes .task = some id := by
    simp [deletes, hq, ChannelPtr.m_arg]
  have hfrees : s.Drained .task ↔ conn.frees = true := by
    simp only [Drained, hdel, Option.some.injEq, TcpConnection.frees, decide_eq_true_eq]
    constructor
    · exact fun hd => hd id conn rfl hconn
    · rintro hd _ conn' rfl hconn'
      rw [hconn] at hconn'
      exact Option.some.inj hconn' ▸ hd
  have hnot : ∀ p, ⟨.DELETE, p⟩ ∉ (s.setTaskQ q).loop.m_taskQ := fun p' hp' => by
    obtain rfl := h.single p' (.conn id) (hq ▸ List.mem_cons_of_mem _ hp') (by simp [hq])
    exact (List.nodup_cons.mp (hq ▸ h.nodup)).1 hp'
  have hstep : (s.setTaskQ q).remove (.conn id) = some t := by
    simpa only [step, hq, applyNode] using ht
  refine ⟨fun hd => ?_, fun hd hrel => ?_⟩
  · obtain ⟨t', ht', hinv, hrel⟩ := (h.tail hq).release hmap hconn (hfrees.mp hd) hnot
    obtain rfl := Option.some.inj (hstep.symm.trans ht')
    refine ⟨hinv, fun id' hid' => ?_⟩
    rw [hdel] at hid'
    exact Option.some.inj hid' ▸ hrel
  · have hnf : conn.frees = false := by simpa using mt hfrees.mpr hd
    have hremove := remove_eq (s := s.setTaskQ q) (by simp [setTaskQ, hmap]) hconn
    rw [hstep, hnf] at hremove
    simp only [Bool.false_eq_true, if_false, Option.some.injEq] at hremove
    have hclosed := (hrel id hdel).closed
    rw [hremove] at hclosed
    have hzero : s.closed (.conn id) = 0 := (h.alive id (by simp [hconn])).2.2
    exact absurd (hzero.symm.trans hclosed) (by decide)

/-- A step other than that keeps the tables. -/
lemma Inv.step {s t : ConnSys} (h : s.Inv) {a : ConnAct} (ht : s.step a = some t)
    (hdel : a = .task → ∀ p q, s.loop.m_taskQ ≠ ⟨.DELETE, p⟩ :: q) :
    t.Inv := by
  cases a with
  | accept fd readData writeData sends =>
    simp only [ConnSys.step] at ht
    split_ifs at ht with hfd
    obtain rfl := Option.some.inj ht
    refine h.make hfd rfl _ _ fun id => ?_
    by_cases hid : id = s.next
    · simp [hid]
    · simp [hid, Ne.symm hid]
  | attach fd =>
    simp only [ConnSys.step] at ht
    split_ifs at ht with hfd
    obtain rfl := Option.some.inj ht
    exact h.make hfd rfl s.conn s.socket fun id => by simp
  | read fd host rounds incoming =>
    simp only [ConnSys.step] at ht
    split_ifs at ht with hd
    split at ht
    · rename_i id hmap
      split at ht
      · split at ht
        · rename_i result hread
          obtain rfl := Option.some.inj ht
          exact h.read hd.1 hmap (TcpConnection.processRead_tasks hread)
        · cases ht
      · cases ht
    · cases ht
  | task =>
    rcases hq : s.loop.m_taskQ with _ | ⟨⟨type, p⟩, q⟩
    · simp only [ConnSys.step, hq, Option.some.injEq] at ht
      subst ht
      exact { h with drained := fun _ p hp => by simp [hq] at hp }
    have hstep : (s.setTaskQ q).applyNode ⟨type, p⟩ = some t := by
      simpa only [ConnSys.step, hq] using ht
    have htail := h.tail hq
    cases type with
    | ADD =>
      obtain rfl := Option.some.inj hstep
      refine htail.add (h.known _ (by simp [hq])) ?_ (List.nodup_cons.mp (hq ▸ h.nodup)).1
      rintro id rfl
      exact (h.added id (by simp [hq])).1
    | DELETE => exact absurd hq (hdel rfl p q)
    | MODIFY =>
      obtain rfl := Option.some.inj hstep
      dsimp only [EventLoop.modify]
      split_ifs
      · exact htail
      · exact htail.dispatcher _

lemma deletes_eq_none {s : ConnSys} {a : ConnAct}
    (h : a = .task → ∀ p q, s.loop.m_taskQ ≠ ⟨.DELETE, p⟩ :: q) : s.deletes a = none := by
  unfold deletes
  split
  · split
    · rename_i p q hq
      exact absurd hq (h rfl p q)
    · rfl
  · rfl

/-- **What a step releases.** -/
lemma Inv.step_exact {s t : ConnSys} (h : s.Inv) {a : ConnAct} (ht : s.step a = some t) :
    (s.Drained a → t.Inv ∧ s.Releases a t) ∧ (¬ s.Drained a → ¬ s.Releases a t) := by
  by_cases hdel : a = .task → ∀ p q, s.loop.m_taskQ ≠ ⟨.DELETE, p⟩ :: q
  · have hnone := deletes_eq_none hdel
    refine ⟨fun _ => ⟨h.step ht hdel, fun id hid => ?_⟩, fun hd => absurd ?_ hd⟩
    · rw [hnone] at hid
      cases hid
    · intro id conn hid
      rw [hnone] at hid
      cases hid
  · push Not at hdel
    obtain ⟨rfl, p, q, hq⟩ := hdel
    exact h.delete hq ht

/-- **Teardown.** In a run, every connection whose `DELETE` task is processed is released exactly
if both of its buffers are empty each time. -/
theorem releases_iff (as : List ConnAct) :
    Chain Releases init (walk step init as) ↔
      Chain (fun s a _ => s.Drained a) init (walk step init as) := by
  have keep : ∀ (s : ConnSys) (a : ConnAct) (t : ConnSys), s.Inv → s.step a = some t →
      s.Drained a → t.Inv ∧ s.Releases a t := fun s a t h ht hd => (h.step_exact ht).1 hd
  have brk : ∀ (s : ConnSys) (a : ConnAct) (t : ConnSys), s.Inv → s.step a = some t →
      ¬ s.Drained a → ¬ s.Releases a t := fun s a t h ht hd => (h.step_exact ht).2 hd
  exact chain_iff_of_inv keep brk inv_init (chain_walk step init as)

/-- Once its `DELETE` task is processed, a connection gets no read events. -/
lemma not_mem_readSet {s t : ConnSys} {id : ℕ} (hdel : s.deletes .task = some id)
    (hmap : s.loop.m_channelMap (s.m_fd (.conn id)) ≠ none) (ht : s.step .task = some t) :
    s.m_fd (.conn id) ∉ t.loop.m_dispatcher.m_readSet := by
  rcases hq : s.loop.m_taskQ with _ | ⟨⟨type, p⟩, q⟩
  · simp [deletes, hq] at hdel
  cases type <;> simp only [deletes, hq, reduceCtorEq] at hdel
  cases p with
  | other n => cases hdel
  | conn id' =>
    obtain rfl := Option.some.inj hdel
    simp only [step, hq, applyNode] at ht
    rcases hconn : s.conn id' with _ | conn
    · have hnone : (s.setTaskQ q).remove (.conn id') = none := by
        have hmap' : (s.setTaskQ q).loop.m_channelMap
          ((s.setTaskQ q).channel (.conn id')).m_fd ≠ none := hmap
        have hconn' : (s.setTaskQ q).conn id' = none := hconn
        rw [remove, if_neg hmap']
        simp only [hconn', Option.map_none]
      rw [hnone] at ht
      cases ht
    · have hremove := remove_eq (s := s.setTaskQ q) hmap hconn
      rw [ht] at hremove
      have hclear : s.m_fd (.conn id') ∉ (Dispatcher.remove (s.channel (.conn id'))
          s.loop.m_dispatcher).2.m_readSet := by
        have hread : (s.channel (.conn id')).wantsRead = true := by
          have hmask : FDEvent.ReadEvent &&& FDEvent.ReadEvent ≠ 0 := by decide
          exact decide_eq_true hmask
        simp only [Dispatcher.remove, SelectDispatcher.clearFdSet, hread, if_true]
        exact Finset.notMem_erase _ _
      cases hf : conn.frees
      · simp only [hf, Bool.false_eq_true, if_false, Option.some.injEq] at hremove
        rw [hremove]
        exact hclear
      · simp only [hf, if_true, Option.some.injEq] at hremove
        rw [hremove, close]
        split <;> exact hclear

/-- A connection is made, added and reads the bytes `GET` of a request still to come; then its
`DELETE` task is processed. -/
def incompleteRun : List ConnAct :=
  [.accept 5 4096 65536 fun _ => 0, .task, .read 5 .empty 4 (.ok [71, 69, 84])] ++ [.task]

/-- The connection is gone, its descriptor is open, and its channel is in the map. -/
theorem not_releases :
    (∃ t, incompleteRun.foldlM step init = some t ∧ t.closed (.conn 0) = 0 ∧
      t.opened 5 = some (.conn 0) ∧ t.loop.m_channelMap 5 = some (.conn 0) ∧ t.conn 0 = none) ∧
      ¬ Chain Releases init (walk step init incompleteRun) := by
  have hrun : (([.accept 5 4096 65536 fun _ => 0, .task,
        .read 5 .empty 4 (.ok [71, 69, 84])].foldlM step init).bind fun s =>
      (s.step .task).map fun t => (s.deletes .task, t.closed (.conn 0), t.opened 5,
        t.loop.m_channelMap 5, (t.conn 0).isSome)) =
      some (some 0, 0, some (.conn 0), some (.conn 0), false) := by decide +kernel
  obtain ⟨s, hs, hrun⟩ := Option.bind_eq_some_iff.mp hrun
  obtain ⟨t, ht, hrun⟩ := Option.map_eq_some_iff.mp hrun
  simp only [Prod.mk.injEq, Option.isSome_eq_false_iff, Option.isNone_iff_eq_none] at hrun
  obtain ⟨hdel, hclosed, hopened, hentry, hconn⟩ := hrun
  refine ⟨⟨t, ?_, hclosed, hopened, hentry, hconn⟩, fun h => ?_⟩
  · rw [incompleteRun, List.foldlM_append, hs]
    simpa using ht
  · have hrel := (of_chain_walk h hs ht) 0 hdel
    rw [hrel.closed] at hclosed
    cases hclosed

end ConnSys

end Reactor.Http
