import Reactor.Http.ConnRelease
import Reactor.Http.Delivery

/-!
What the clients of the older HTTP server are told over whole runs of its connections: parts of one
answer each, and the whole of it where the server has closed the socket.

The runs are all those of the connections, also those in which one is not released.
-/

namespace Reactor.Http

open Lib.Trace

namespace ConnSys

/-- The channels that are to be deleted. -/
def pending (s : ConnSys) : List ChannelPtr :=
  s.loop.m_taskQ.filterMap fun node => if node.type = .DELETE then some node.channel else none

/-- Nothing has been sent to the client, or a part of one of some messages, the rest of which is in
the send buffer. -/
def Settled (P : Message → Prop) (conn : TcpConnection) (socket : Socket) : Prop :=
  socket.written = [] ∨ ∃ m, P m ∧ Carries m (conn.m_writeBuf, socket)

/-- What has been written is nothing, or a part of one of some messages. -/
def Partial (P : Message → Prop) (socket : Socket) : Prop :=
  socket.written = [] ∨ ∃ m, P m ∧ socket.written <+: m.render

/-- What has been written is nothing, or one of some messages as a whole. -/
def Whole (P : Message → Prop) (socket : Socket) : Prop :=
  socket.written = [] ∨ ∃ m, P m ∧ receive socket.written = some m.received

variable {P : Message → Prop} {s t : ConnSys} {id : ℕ}

lemma Settled.isPartial {conn : TcpConnection} {socket : Socket} (h : Settled P conn socket) :
    Partial P socket := by
  rcases h with h | ⟨m, hm, h⟩
  · exact Or.inl h
  · exact Or.inr ⟨m, hm, h.written_prefix⟩

lemma Settled.whole {conn : TcpConnection} {socket : Socket} (h : Settled P conn socket)
    (hfrees : conn.frees = true) : Whole P socket := by
  rcases h with h | ⟨m, hm, h⟩
  · exact Or.inl h
  · refine Or.inr ⟨m, hm, h.sent_iff.mp ?_⟩
    simp only [TcpConnection.frees, decide_eq_true_eq] at hfrees
    exact hfrees.2

/-- A connection is fresh until it is read from, and from then on its channel is to be deleted, which
is the only one. -/
structure Ledger (P : Message → Prop) (s : ConnSys) : Prop where
  pending : s.pending = [] ∨ s.draining = true ∧ ∃ id, s.pending = [.conn id] ∧
    s.loop.m_channelMap (s.m_fd (.conn id)) = some (.conn id)
  entry : ∀ fd p, s.loop.m_channelMap fd = some p → s.m_fd p = fd ∧ p.id < s.next
  known : ∀ node ∈ s.loop.m_taskQ, node.channel.id < s.next
  alive : ∀ id conn, s.conn id = some conn → id < s.next ∧
    s.opened (s.m_fd (.conn id)) = some (.conn id) ∧
    (conn.Fresh (s.socket id) ∨ s.pending = [.conn id] ∧ Settled P conn (s.socket id))
  gone : ∀ id, s.conn id = none → Partial P (s.socket id)
  closed : ∀ id, s.closed (.conn id) ≠ 0 →
    id < s.next ∧ s.conn id = none ∧ Whole P (s.socket id)

/-- A new channel with a number not used before, of an open descriptor not in use, is added. -/
lemma Ledger.make (h : s.Ledger P) {fd : ℕ} (hfd : s.opened fd = none) {p : ChannelPtr}
    (hp : p.id = s.next) (conn' : ℕ → Option TcpConnection) (socket' : ℕ → Socket)
    (hold : ∀ id, p ≠ .conn id → conn' id = s.conn id ∧ socket' id = s.socket id)
    (hnew : ∀ id, p = .conn id → ∃ conn, conn' id = some conn ∧ conn.Fresh (socket' id)) :
    ((({ s with conn := conn', socket := socket' } : ConnSys).make fd p).addTask .ADD p).Ledger
      P := by
  have hfilter : ConnSys.pending ((({ s with conn := conn', socket := socket' } : ConnSys).make fd
      p).addTask .ADD p) = s.pending := by
    simp [ConnSys.pending, addTask, ConnSys.make]
  have hother : ∀ p' : ChannelPtr, p'.id < s.next →
      Function.update s.m_fd p fd p' = s.m_fd p' := by
    intro p' hlt
    refine Function.update_of_ne ?_ _ _
    rintro rfl
    omega
  have hclosed : ∀ id, p = .conn id → s.closed (.conn id) = 0 := by
    rintro id rfl
    by_contra hne
    exact absurd hp (Nat.ne_of_lt (h.closed id hne).1)
  constructor
  case pending =>
    rw [hfilter]
    rcases h.pending with hnil | ⟨hdrain, id, hid, hmap⟩
    · exact Or.inl hnil
    · refine Or.inr ⟨hdrain, id, hid, ?_⟩
      have hlt := (h.entry _ _ hmap).2
      exact (congrArg s.loop.m_channelMap (hother _ hlt)).trans hmap
  case entry =>
    intro fd' p' hmap
    obtain ⟨hfd', hlt⟩ := h.entry fd' p' hmap
    exact ⟨(hother p' hlt).trans hfd', Nat.lt_succ_of_lt hlt⟩
  case known =>
    intro node hnode
    rcases List.mem_append.mp hnode with hnode | hnode
    · exact Nat.lt_succ_of_lt (h.known node hnode)
    · obtain rfl := List.mem_singleton.mp hnode
      exact hp ▸ Nat.lt_succ_self _
  case alive =>
    intro id conn hconn
    rw [hfilter]
    by_cases hid : p = .conn id
    · obtain ⟨conn₁, hconn₁, hfresh⟩ := hnew id hid
      obtain rfl : conn₁ = conn := Option.some.inj (hconn₁.symm.trans hconn)
      subst hid
      refine ⟨hp ▸ Nat.lt_succ_self _, ?_, Or.inl hfresh⟩
      change Function.update s.opened fd _ (Function.update s.m_fd _ fd _) = _
      rw [Function.update_self, Function.update_self]
    · obtain ⟨hsame, hsocket⟩ := hold id hid
      obtain ⟨hlt, hopen, hstate⟩ := h.alive id conn (hsame.symm.trans hconn)
      refine ⟨Nat.lt_succ_of_lt hlt, ?_, ?_⟩
      · change Function.update s.opened fd (some p) (Function.update s.m_fd p fd (.conn id)) = _
        rw [hother (.conn id) hlt, Function.update_of_ne ?_ _ _, hopen]
        rintro heq
        rw [heq, hfd] at hopen
        cases hopen
      · change conn.Fresh (socket' id) ∨ _ ∧ Settled P conn (socket' id)
        rwa [hsocket]
  case gone =>
    intro id hconn
    by_cases hid : p = .conn id
    · obtain ⟨conn₁, hconn₁, -⟩ := hnew id hid
      cases hconn₁.symm.trans hconn
    · obtain ⟨hsame, hsocket⟩ := hold id hid
      change Partial P (socket' id)
      rw [hsocket]
      exact h.gone id (hsame.symm.trans hconn)
  case closed =>
    intro id hne
    obtain ⟨hlt, hnone, hwhole⟩ := h.closed id hne
    have hid : p ≠ .conn id := fun hid => hne (hclosed id hid)
    obtain ⟨hsame, hsocket⟩ := hold id hid
    refine ⟨Nat.lt_succ_of_lt hlt, hsame.trans hnone, ?_⟩
    change Whole P (socket' id)
    rwa [hsocket]

/-- A fresh connection is served. -/
lemma Ledger.read (h : s.Ledger P) (hdrain : s.draining = false) {fd : ℕ}
    (hmap : s.loop.m_channelMap fd = some (.conn id)) {conn : TcpConnection}
    (hconn : s.conn id = some conn) {result : Served} (htasks : result.tasks = [.DELETE])
    (hresult : conn.Fresh (s.socket id) → Settled P result.conn result.socket) :
    (s.served id result).Ledger P := by
  have hnone : s.pending = [] := by
    rcases h.pending with hnil | ⟨hdrain', -⟩
    · exact hnil
    · cases hdrain.symm.trans hdrain'
  obtain ⟨hfd, hid⟩ := h.entry fd _ hmap
  have hfresh : conn.Fresh (s.socket id) := by
    rcases (h.alive id conn hconn).2.2 with hfresh | ⟨hpending, -⟩
    · exact hfresh
    · cases hnone.symm.trans hpending
  have hserved : (s.served id result).pending = [.conn id] := by
    have hnil : s.loop.m_taskQ.filterMap (fun node =>
      if node.type = .DELETE then some node.channel else none) = [] := hnone
    simp [ConnSys.pending, served, htasks, addTask, hnil]
  have hopen := (h.alive id conn hconn).2.1
  rw [served, htasks] at hserved ⊢
  constructor
  case pending =>
    refine Or.inr ⟨rfl, id, hserved, ?_⟩
    exact (congrArg s.loop.m_channelMap hfd).trans hmap
  case entry => exact h.entry
  case known =>
    intro node hnode
    rcases List.mem_append.mp hnode with hnode | hnode
    · exact h.known node hnode
    · obtain rfl := List.mem_singleton.mp hnode
      exact hid
  case alive =>
    intro id' conn' hconn'
    rw [hserved]
    change Function.update s.conn id _ id' = _ at hconn'
    change _ ∧ _ ∧ (conn'.Fresh (Function.update s.socket id _ id') ∨
      _ ∧ Settled P conn' (Function.update s.socket id _ id'))
    rcases eq_or_ne id' id with rfl | hne
    · rw [Function.update_self] at hconn' ⊢
      obtain rfl := Option.some.inj hconn'
      exact ⟨hid, hopen, Or.inr ⟨rfl, hresult hfresh⟩⟩
    · rw [Function.update_of_ne hne] at hconn' ⊢
      obtain ⟨hlt, hopen', hstate⟩ := h.alive id' conn' hconn'
      rw [hnone] at hstate
      exact ⟨hlt, hopen', Or.inl (hstate.resolve_right fun hs => by cases hs.1)⟩
  case gone =>
    intro id' hconn'
    change Function.update s.conn id _ id' = _ at hconn'
    change Partial P (Function.update s.socket id _ id')
    rcases eq_or_ne id' id with rfl | hne
    · rw [Function.update_self] at hconn'
      cases hconn'
    · rw [Function.update_of_ne hne] at hconn' ⊢
      exact h.gone id' hconn'
  case closed =>
    intro id' hne
    obtain ⟨hlt, hconn', hwhole⟩ := h.closed id' hne
    have hid' : id' ≠ id := by
      rintro rfl
      cases hconn.symm.trans hconn'
    refine ⟨hlt, (Function.update_of_ne hid' _ _).trans hconn', ?_⟩
    change Whole P (Function.update s.socket id _ id')
    rwa [Function.update_of_ne hid']

/-! ### The tasks -/

/-- A task that is not a deletion is taken out. -/
lemma Ledger.tail (h : s.Ledger P) {node : ChannelElement ChannelPtr}
    {q : List (ChannelElement ChannelPtr)} (hq : s.loop.m_taskQ = node :: q)
    (hnode : node.type ≠ .DELETE) : (s.setTaskQ q).Ledger P := by
  have hpending : (s.setTaskQ q).pending = s.pending := by
    rw [ConnSys.pending, ConnSys.pending, hq, List.filterMap_cons, if_neg hnode]
    rfl
  exact {
    pending := by rw [hpending]; exact h.pending
    entry := h.entry
    known := fun n hn => h.known n (hq ▸ List.mem_cons_of_mem _ hn)
    alive := fun id conn hconn => by rw [hpending]; exact h.alive id conn hconn
    gone := h.gone
    closed := h.closed }

/-- The loop, with its dispatcher and its map changed. -/
def setLoop (d : SelectDispatcher) (m : ℕ → Option ChannelPtr) (s : ConnSys) : ConnSys :=
  { s with loop := { s.loop with m_dispatcher := d, m_channelMap := m } }

/-- Entries are added to the map, each under the descriptor of its channel. -/
lemma Ledger.setLoop (h : s.Ledger P) (d : SelectDispatcher) {m : ℕ → Option ChannelPtr}
    (hold : ∀ fd p, s.loop.m_channelMap fd = some p → m fd = some p)
    (hnew : ∀ fd p, m fd = some p → s.m_fd p = fd ∧ p.id < s.next) :
    (s.setLoop d m).Ledger P where
  pending := by
    rcases h.pending with hnil | ⟨hdrain, id, hid, hmap⟩
    · exact Or.inl hnil
    · exact Or.inr ⟨hdrain, id, hid, hold _ _ hmap⟩
  entry := hnew
  known := h.known
  alive := h.alive
  gone := h.gone
  closed := h.closed

lemma Ledger.add (h : s.Ledger P) {p : ChannelPtr} (hlt : p.id < s.next) :
    ({ s with loop := (s.loop.add p (s.channel p)).2 } : ConnSys).Ledger P := by
  by_cases hmap : s.loop.m_channelMap (s.m_fd p) = none
  swap
  · have hsame : (s.loop.add p (s.channel p)).2 = s.loop := by
      rw [EventLoop.add, channel, if_neg hmap]
    rw [hsame]
    exact h
  have hadd : ({ s with loop := (s.loop.add p (s.channel p)).2 } : ConnSys) =
      s.setLoop (Dispatcher.add (s.channel p) s.loop.m_dispatcher).2
        (Function.update s.loop.m_channelMap (s.m_fd p) (some p)) := by
    simp only [EventLoop.add, channel, hmap, if_true, ConnSys.setLoop]
  rw [hadd]
  refine h.setLoop _ (fun fd p' hfd => ?_) fun fd p' hfd => ?_
  · rw [Function.update_of_ne ?_ _ _, hfd]
    rintro rfl
    cases hmap.symm.trans hfd
  · rcases eq_or_ne fd (s.m_fd p) with rfl | hne
    · rw [Function.update_self] at hfd
      obtain rfl := Option.some.inj hfd
      exact ⟨rfl, hlt⟩
    · rw [Function.update_of_ne hne] at hfd
      exact h.entry fd p' hfd

/-- The system without a connection, whose channel may be gone and whose socket closed. -/
def drop (id : ℕ) (d : SelectDispatcher) (m : ℕ → Option ChannelPtr)
    (opened : ℕ → Option ChannelPtr) (closed : ChannelPtr → ℕ) (s : ConnSys) : ConnSys :=
  { s with
    loop := { s.loop with m_dispatcher := d, m_channelMap := m }
    conn := Function.update s.conn id none
    opened := opened
    closed := closed }

/-- With its deletion the only one, a connection is dropped. -/
lemma Ledger.drop (h : s.Ledger P) {q : List (ChannelElement ChannelPtr)}
    (hq : s.loop.m_taskQ = ⟨.DELETE, .conn id⟩ :: q) (hnone : (s.setTaskQ q).pending = [])
    {conn : TcpConnection} (hconn : s.conn id = some conn)
    (hsettled : Settled P conn (s.socket id)) (d : SelectDispatcher)
    {m : ℕ → Option ChannelPtr} {opened : ℕ → Option ChannelPtr} {closed : ChannelPtr → ℕ}
    (hmap : ∀ fd p, m fd = some p → s.loop.m_channelMap fd = some p)
    (hopened : ∀ id' ≠ id, s.opened (s.m_fd (.conn id')) = some (.conn id') →
      opened (s.m_fd (.conn id')) = some (.conn id'))
    (hclosed : ∀ id', closed (.conn id') ≠ 0 →
      s.closed (.conn id') ≠ 0 ∨ id' = id ∧ conn.frees = true) :
    ((s.setTaskQ q).drop id d m opened closed).Ledger P := by
  have hid : s.pending = [.conn id] := by
    have hcons : s.pending = .conn id :: (s.setTaskQ q).pending := by
      rw [ConnSys.pending, hq]
      rfl
    rw [hcons, hnone]
  have hupd : ∀ id', Function.update s.conn id none id' = none ↔ id' = id ∨ s.conn id' = none := by
    intro id'
    rcases eq_or_ne id' id with rfl | hne
    · simp
    · simp [hne]
  constructor
  case pending => exact Or.inl hnone
  case entry => exact fun fd p hfd => h.entry fd p (hmap fd p hfd)
  case known => exact fun node hnode => h.known node (hq ▸ List.mem_cons_of_mem _ hnode)
  case alive =>
    intro id' conn' hconn'
    change Function.update s.conn id none id' = _ at hconn'
    have hne : id' ≠ id := by
      rintro rfl
      rw [Function.update_self] at hconn'
      cases hconn'
    rw [Function.update_of_ne hne] at hconn'
    obtain ⟨hlt, hopen, hstate⟩ := h.alive id' conn' hconn'
    refine ⟨hlt, hopened id' hne hopen, Or.inl (hstate.resolve_right fun hs => hne ?_)⟩
    simpa using hs.1.symm.trans hid
  case gone =>
    intro id' hgone
    rcases (hupd id').mp hgone with rfl | hgone
    · exact hsettled.isPartial
    · exact h.gone id' hgone
  case closed =>
    intro id' hne
    rcases hclosed id' hne with hne | ⟨rfl, hfrees⟩
    · obtain ⟨hlt, hgone, hwhole⟩ := h.closed id' hne
      exact ⟨hlt, (hupd id').mpr (Or.inr hgone), hwhole⟩
    · exact ⟨(h.alive id' conn hconn).1, (hupd id').mpr (Or.inl rfl), hsettled.whole hfrees⟩

/-- **A connection is deleted**, and its socket is closed if both of its buffers are empty. -/
lemma Ledger.delete (h : s.Ledger P) {p : ChannelPtr} {q : List (ChannelElement ChannelPtr)}
    (hq : s.loop.m_taskQ = ⟨.DELETE, p⟩ :: q) (ht : (s.setTaskQ q).remove p = some t) :
    t.Ledger P := by
  have hpending : s.pending = p :: (s.setTaskQ q).pending := by
    rw [ConnSys.pending, hq]
    rfl
  obtain ⟨hdrain, id, hid, hmap⟩ := h.pending.resolve_left fun hnil => by
    cases hnil.symm.trans hpending
  obtain ⟨rfl, hnone⟩ := List.cons.inj (hpending.symm.trans hid)
  rcases hconn : s.conn id with _ | conn
  · -- there is nothing to be deleted
    have hmap' : (s.setTaskQ q).loop.m_channelMap ((s.setTaskQ q).channel (.conn id)).m_fd ≠
        none := by
      have : s.loop.m_channelMap (s.m_fd (.conn id)) ≠ none := by simp [hmap]
      exact this
    have hconn' : (s.setTaskQ q).conn id = none := hconn
    simp only [remove, if_neg hmap', hconn', Option.map_none] at ht
    cases ht
  obtain ⟨hlt, hopen, hstate⟩ := h.alive id conn hconn
  have hsettled : Settled P conn (s.socket id) := by
    rcases hstate with hfresh | ⟨-, hsettled⟩
    · exact Or.inl hfresh.unwritten
    · exact hsettled
  have hmap' : (s.setTaskQ q).loop.m_channelMap ((s.setTaskQ q).m_fd (.conn id)) ≠ none := by
    change s.loop.m_channelMap (s.m_fd (.conn id)) ≠ none
    simp [hmap]
  have hconn' : (s.setTaskQ q).conn id = some conn := hconn
  have hremove := remove_eq hmap' hconn'
  obtain rfl := Option.some.inj (hremove.symm.trans ht)
  cases hfrees : conn.frees
  · simp only [Bool.false_eq_true, if_false]
    exact h.drop hq hnone hconn hsettled _ (fun _ _ hfd => hfd) (fun _ _ hopen' => hopen')
      fun _ hne => Or.inl hne
  · have hopen' : (s.setTaskQ q).opened ((s.setTaskQ q).m_fd (.conn id)) = some (.conn id) := hopen
    simp only [if_true, close, hopen']
    refine h.drop hq hnone hconn hsettled _ (fun fd p hfd => ?_) (fun id' hne hid' => ?_)
      fun id' hne => ?_
    · change Function.update s.loop.m_channelMap (s.m_fd (.conn id)) none fd = _ at hfd
      rcases eq_or_ne fd (s.m_fd (.conn id)) with rfl | hne
      · rw [Function.update_self] at hfd
        cases hfd
      · rwa [Function.update_of_ne hne] at hfd
    · have hfd : s.m_fd (.conn id') ≠ s.m_fd (.conn id) := fun heq => hne (by
        rw [heq, hopen] at hid'
        simpa using hid'.symm)
      exact (Function.update_of_ne hfd _ _).trans hid'
    · rcases eq_or_ne id' id with rfl | hid'
      · exact Or.inr ⟨rfl, hfrees⟩
      · refine Or.inl ?_
        have hptr : ChannelPtr.conn id' ≠ .conn id := by simpa using hid'
        rwa [Function.update_of_ne hptr] at hne

/-! ### Runs -/

/-- What the server relies on: there is memory, and sizes are 64-bit numbers. -/
def Provides (host : Host) : Prop := (∀ p n, (host.realloc p n).isSome) ∧ host.Sized

/-- The system around the server provides this at every read, and what it answers is one of some
messages. -/
def Serves (P : Message → Prop) : ConnAct → Prop
  | .read _ host _ _ => Provides host ∧
    ∀ m_method m_url m, host.answer m_method m_url = some m → P m
  | _ => True

/-- **A step keeps the ledger.** -/
lemma Ledger.step (h : s.Ledger P) {a : ConnAct} (ha : Serves P a) (ht : s.step a = some t) :
    t.Ledger P := by
  cases a with
  | accept fd readData writeData sends =>
    simp only [ConnSys.step] at ht
    split_ifs at ht with hfd
    obtain rfl := Option.some.inj ht
    refine h.make hfd rfl _ _ (fun id hid => ?_) fun id hid => ?_
    · have hne : id ≠ s.next := fun heq => hid (by rw [heq])
      exact ⟨Function.update_of_ne hne _ _, Function.update_of_ne hne _ _⟩
    · obtain rfl : s.next = id := by simpa using hid
      rw [Function.update_self, Function.update_self]
      exact ⟨_, rfl, TcpConnection.fresh_new _ _ rfl⟩
  | attach fd =>
    simp only [ConnSys.step] at ht
    split_ifs at ht with hfd
    obtain rfl := Option.some.inj ht
    exact h.make hfd rfl s.conn s.socket (fun _ _ => ⟨rfl, rfl⟩) fun _ hid => by cases hid
  | read fd host rounds incoming =>
    simp only [ConnSys.step] at ht
    split_ifs at ht with hdrain
    split at ht
    · rename_i id hmap
      split at ht
      · rename_i conn hconn
        split at ht
        · rename_i result hread
          obtain rfl := Option.some.inj ht
          refine h.read hdrain.1 hmap hconn (TcpConnection.processRead_tasks hread) fun hfresh => ?_
          obtain ⟨⟨hmem, hsize⟩, hanswer⟩ := ha
          rcases TcpConnection.processRead_answers hmem hsize hfresh hread with
            hsame | ⟨_, _, m, hm, hcarries⟩
          · exact Or.inl (hsame ▸ hfresh.unwritten)
          · exact Or.inr ⟨m, hanswer _ _ m hm, hcarries⟩
        · cases ht
      · cases ht
    · cases ht
  | task =>
    rcases hq : s.loop.m_taskQ with _ | ⟨⟨type, p⟩, q⟩
    · simp only [ConnSys.step, hq, Option.some.injEq] at ht
      subst ht
      have hnil : s.pending = [] := by
        rw [ConnSys.pending, hq]
        rfl
      exact { h with pending := Or.inl hnil }
    have hstep : (s.setTaskQ q).applyNode ⟨type, p⟩ = some t := by
      simpa only [ConnSys.step, hq] using ht
    cases type with
    | ADD =>
      obtain rfl := Option.some.inj hstep
      exact (h.tail hq (by simp)).add (h.known ⟨.ADD, p⟩ (by simp [hq]))
    | DELETE => exact h.delete hq hstep
    | MODIFY =>
      obtain rfl := Option.some.inj hstep
      have htail := h.tail hq (by simp)
      dsimp only [EventLoop.modify]
      split_ifs
      · exact htail
      · exact htail.setLoop _ (fun _ _ hfd => hfd) htail.entry

/-- What the client of a connection has been told: a part of one answer at most, and the whole of
it if its socket has been closed. -/
structure Told (P : Message → Prop) (s : ConnSys) (id : ℕ) : Prop where
  partially : Partial P (s.socket id)
  wholly : s.closed (.conn id) ≠ 0 → Whole P (s.socket id)

lemma Ledger.told (h : s.Ledger P) (id : ℕ) : s.Told P id where
  partially := by
    rcases hconn : s.conn id with _ | conn
    · exact h.gone id hconn
    · rcases (h.alive id conn hconn).2.2 with hfresh | ⟨-, hsettled⟩
      · exact Or.inl hfresh.unwritten
      · exact hsettled.isPartial
  wholly hne := (h.closed id hne).2.2

end ConnSys

end Reactor.Http
