import Reactor.HttpC.DispatchTables
import Reactor.HttpC.FdTable

/-!
The three dispatchers of the C server behind one loop, on channels with descriptors of their own
below the size of the table.

Channels are added, modified, deleted and have their write events switched on and off, in any
order, and at any time what is ready is dispatched. What is deleted has its `_destroycallback`
called, which may or may not destroy the channel; a channel that is destroyed takes part no more.
-/

namespace Reactor.HttpC

open Lib.Watch Lib.Trace

/-- The three dispatchers side by side. -/
structure BackEnds where
  poll : PollData
  select : SelectData
  epoll : EpollData

namespace BackEnds

def init : BackEnds := ⟨.pollinit, .selectinit, .epollinit⟩

instance : Dispatcher BackEnds where
  add c d := ⟨Dispatcher.add c d.poll, Dispatcher.add c d.select, Dispatcher.add c d.epoll⟩
  remove c d :=
    ⟨Dispatcher.remove c d.poll, Dispatcher.remove c d.select, Dispatcher.remove c d.epoll⟩
  modify c d :=
    ⟨Dispatcher.modify c d.poll, Dispatcher.modify c d.select, Dispatcher.modify c d.epoll⟩

/-- Each of the three contains what the table says, and the process goes on. -/
structure AllContain (d : BackEnds) (t : Table) : Prop where
  poll : d.poll.Contains t
  select : Agrees d.select.Watches t
  epoll : d.epoll.Contains t
  exited : d.epoll.exited = false

end BackEnds

/-- Channels with distinct descriptors below the size of the table. -/
structure Channels (κ : Type*) where
  ptr : κ → ℕ
  ptr_ne : ∀ p, ptr p ≠ NULL
  _fd : κ → ℕ
  inj : Function.Injective _fd
  lt : ∀ p, _fd p < 128

inductive WatchOp (κ : Type*)
  | add (p : κ)
  | modify (p : κ)
  /-- `frees` says whether the `_destroycallback` destroys the channel -/
  | delete (p : κ) (frees : Bool)
  | writeEventEnable (p : κ) (flag : Bool)
  | dispatch (ready : Ready)

/-- A loop and the channels it works on: their masks, and which of them are destroyed. The last
three fields record what was asked of the loop: the mask each channel added and not deleted had
at its last add or modify; the events a channel asked for then, and did not when it was deleted;
and whether a channel was deleted that was not added. -/
structure WatchState (κ : Type*) where
  loop : EventLoop BackEnds
  _events : κ → Mask
  destroyed : κ → Bool
  asked : Table
  left : ℕ → Interest
  failed : Bool

namespace WatchState

variable {κ : Type*} (chans : Channels κ)

/-- The table of channels comes from `malloc`. -/
def init (mem : ℕ → ℕ) (_events : κ → Mask) : WatchState κ where
  loop := .init 128 mem .init
  _events := _events
  destroyed _ := false
  asked := .new
  left _ := .idle
  failed := false

def channel (s : WatchState κ) (p : κ) : Channel where
  ptr := chans.ptr p
  _fd := chans._fd p
  _events := s._events p
  ptr_ne := chans.ptr_ne p

/-- The dispatchers behind the loop. -/
def ends (s : WatchState κ) : BackEnds := s.loop.disepatherData

variable [DecidableEq κ]

/-- The table does not grow, so nothing is allocated. -/
def apply : WatchOp κ → WatchState κ → WatchState κ
  | .add p, s =>
    let c := s.channel chans p
    { s with
      loop := s.loop.AddEventLoop (fun _ => NULL) c
      asked := s.asked.add c._fd c.interest }
  | .modify p, s =>
    let c := s.channel chans p
    { s with
      loop := s.loop.ModifyEventLoop c
      asked := s.asked.modify c._fd c.interest }
  | .delete p frees, s =>
    let c := s.channel chans p
    { s with
      loop := s.loop.DeleteEventLoop (fun l => if frees then l.destroyChannel c else l) c
      destroyed := Function.update s.destroyed p (s.destroyed p || frees)
      asked := s.asked.remove c._fd
      left := Function.update s.left c._fd
        (((s.asked c._fd).getD (s.left c._fd)).without c.interest)
      failed := s.failed || (s.asked c._fd).isNone }
  | .writeEventEnable p flag, s =>
    { s with
      _events := Function.update s._events p (writeEventEnable flag (s.channel chans p))._events }
  | .dispatch ready, s =>
    { s with
      loop := { s.loop with
        disepatherData := { s.ends with poll := (s.ends.poll.polldispatch ready).2 } } }

/-- A channel that takes part is not destroyed. -/
def Step (s : WatchState κ) (op : WatchOp κ) (t : WatchState κ) : Prop :=
  t = s.apply chans op ∧
    match op with
    | .add p | .modify p | .delete p _ | .writeEventEnable p _ => s.destroyed p = false
    | .dispatch _ => True

/-- What the three are for: after an add or modify they contain what was asked for, and a
dispatch calls back what is ready of it. -/
def WatchesAsked (s : WatchState κ) (op : WatchOp κ) (t : WatchState κ) : Prop :=
  match op with
  | .add _ | .modify _ => t.ends.AllContain t.asked
  | .dispatch ready =>
    ActivatesReady (s.ends.poll.polldispatch ready).1 s.asked ready ∧
      ActivatesReady (s.ends.select.selectdispatch ready) s.asked ready
  | .delete _ _ | .writeEventEnable _ _ => True

/-- Every delete was of a channel added and not deleted, which asked for all that it asked for
before. -/
def Clean (s : WatchState κ) : Prop := s.failed = false ∧ ∀ fd, s.left fd = .idle

/-- A channel whose slot is `NULL` is added only while no other channel is; one whose slot is not,
only if it is added already and asks for the same. A channel whose slot is not `NULL` is modified
only if it is added, and asks for nothing and did so before; and neither is done after a delete
that left something behind. What is ready of the descriptors added, or left behind by a delete, is
ready for the one event exactly if it is for the other. -/
def InStep (s : WatchState κ) : WatchOp κ → Prop
  | .add p => s.Clean ∧
      if s.loop.word (chans._fd p) = some NULL then s.asked = .new
      else s.asked (chans._fd p) = some (s.channel chans p).interest
  | .modify p => s.Clean ∧ (s.loop.word (chans._fd p) ≠ some NULL →
      s.asked (chans._fd p) = some .idle ∧ (s.channel chans p).interest = .idle)
  | .dispatch ready => ∀ fd e, s.asked.Watches fd e ∧ ready fd e = true ↔
      (s.asked.Watches fd e ∨ (s.left fd).has e = true) ∧
        ready fd (SelectData.asked e) = true
  | .delete _ _ | .writeEventEnable _ _ => True

/-! ### The invariant -/

/-- `poll` holds the one entry there is, `select` watches what was asked and what was left behind,
and the kernel's set is what was asked, unless the process has ended. A channel that is asked
for or has left something behind has a slot that is not `NULL`, as long as it takes part. -/
structure Inv (s : WatchState κ) : Prop where
  poll : s.ends.poll.Sole s.asked
  select : ∀ fd e, s.ends.select.Watches fd e ↔
    s.asked.Watches fd e ∨ (s.left fd).has e = true
  epoll : s.ends.epoll.Contains s.asked
  exited : s.ends.epoll.exited = s.failed
  known : ∀ fd, s.asked fd ≠ none ∨ s.left fd ≠ .idle → ∃ p, fd = chans._fd p
  apart : ∀ fd, s.asked fd ≠ none → s.left fd = .idle
  stored : ∀ p, s.asked (chans._fd p) ≠ none ∨ s.left (chans._fd p) ≠ .idle →
    s.destroyed p = true ∨ s.loop.word (chans._fd p) ≠ some NULL
  size : s.loop._channelmap._size = 128
  length : s.loop._channelmap._list.length = 128

omit [DecidableEq κ] in
lemma inv_init (mem : ℕ → ℕ) (_events : κ → Mask) : Inv chans (init mem _events) where
  poll := PollData.sole_init
  select fd e := by
    have hagree : (init mem _events).ends.select.Watches fd e ↔
        (init mem _events).asked.Watches fd e := FdSets.agrees_zero fd e
    rw [hagree]
    simp [init]
  epoll _ := rfl
  exited := rfl
  known _ h := by simp [init, Table.new] at h
  apart _ _ := rfl
  stored _ h := by simp [init, Table.new] at h
  size := rfl
  length := by simp [init, EventLoop.init, initChannelMap]

variable {chans} {s : WatchState κ} {p : κ}

/-! What each operation comes to, by the slot of the descriptor. -/

omit [DecidableEq κ] in
lemma Inv.word (h : s.Inv chans) (p : κ) : ∃ w, s.loop.word (chans._fd p) = some w := by
  have hlt : chans._fd p < s.loop._channelmap._list.length := h.length ▸ chans.lt p
  exact ⟨_, List.getElem?_eq_getElem hlt⟩

omit [DecidableEq κ] in
lemma Inv.fd_lt (h : s.Inv chans) (p : κ) : chans._fd p < s.loop._channelmap._size := by
  rw [h.size]
  exact chans.lt p

lemma word_store {l : EventLoop BackEnds} {fd w : ℕ} (hlt : fd < l._channelmap._list.length)
    (fd' : ℕ) : (l.store fd w).word fd' = if fd' = fd then some w else l.word fd' := by
  split_ifs with hne
  · simp [EventLoop.word, EventLoop.store, hne, hlt]
  · simp only [EventLoop.word, EventLoop.store, List.getElem?_set_ne (Ne.symm hne)]

lemma Inv.apply_add_null (h : s.Inv chans) (hw : s.loop.word (chans._fd p) = some NULL) :
    s.apply chans (.add p) = { s with
      loop := { s.loop.store (chans._fd p) (chans.ptr p) with
        disepatherData := Dispatcher.add (s.channel chans p) s.ends }
      asked := s.asked.add (chans._fd p) (s.channel chans p).interest } := by
  have hword : s.loop.word (s.channel chans p)._fd = some NULL := hw
  have hlt : (s.channel chans p)._fd < s.loop._channelmap._size := h.fd_lt p
  simp only [apply, EventLoop.AddEventLoop_eq, if_pos hlt, EventLoop.place, hword, if_true]
  rfl

lemma Inv.apply_add (h : s.Inv chans) (hw : s.loop.word (chans._fd p) ≠ some NULL) :
    s.apply chans (.add p) = { s with
      asked := s.asked.add (chans._fd p) (s.channel chans p).interest } := by
  obtain ⟨w, hword⟩ := h.word p
  have hne : w ≠ NULL := fun he => hw (he ▸ hword)
  have hlt : (s.channel chans p)._fd < s.loop._channelmap._size := h.fd_lt p
  change s.loop.word (s.channel chans p)._fd = some w at hword
  simp only [apply, EventLoop.AddEventLoop_eq, if_pos hlt, EventLoop.place, hword, if_neg hne]
  rfl

lemma Inv.apply_modify_null (h : s.Inv chans) (hw : s.loop.word (chans._fd p) = some NULL) :
    s.apply chans (.modify p) = { s with
      asked := s.asked.modify (chans._fd p) (s.channel chans p).interest } := by
  have hlt := Nat.not_le.mpr (h.fd_lt p)
  simp only [apply, channel, EventLoop.ModifyEventLoop, ge_iff_le, if_neg hlt, hw, if_true]

lemma Inv.apply_modify (h : s.Inv chans) (hw : s.loop.word (chans._fd p) ≠ some NULL) :
    s.apply chans (.modify p) = { s with
      loop := { s.loop with disepatherData := Dispatcher.modify (s.channel chans p) s.ends }
      asked := s.asked.modify (chans._fd p) (s.channel chans p).interest } := by
  obtain ⟨w, hword⟩ := h.word p
  have hne : w ≠ NULL := fun he => hw (he ▸ hword)
  have hlt := Nat.not_le.mpr (h.fd_lt p)
  simp only [apply, channel, EventLoop.ModifyEventLoop, ge_iff_le, if_neg hlt, hword, if_neg hne,
    ends]

/-- A delete goes through whatever the slot holds, and a channel that is destroyed leaves a slot
that is `NULL`. -/
lemma Inv.apply_delete (h : s.Inv chans) (frees : Bool) :
    (s.apply chans (.delete p frees)).ends = Dispatcher.remove (s.channel chans p) s.ends ∧
      (s.apply chans (.delete p frees)).loop._channelmap._size = s.loop._channelmap._size ∧
      (s.apply chans (.delete p frees)).loop._channelmap._list.length =
        s.loop._channelmap._list.length ∧
      ∀ fd, (frees = false ∨ fd ≠ chans._fd p) →
        (s.apply chans (.delete p frees)).loop.word fd = s.loop.word fd := by
  obtain ⟨w, hword⟩ := h.word p
  have hlt := Nat.not_le.mpr (h.fd_lt p)
  have hlen : chans._fd p < s.loop._channelmap._list.length := h.length ▸ chans.lt p
  have hloop : (s.apply chans (.delete p frees)).loop =
      let l := { s.loop with disepatherData := Dispatcher.remove (s.channel chans p) s.ends }
      if frees then { l.store (chans._fd p) NULL with
        released := l.released ++ [s.channel chans p] } else l := by
    have hword' : EventLoop.word (chans._fd p) { s.loop with
        disepatherData := Dispatcher.remove (s.channel chans p) s.ends } = some w := hword
    simp only [apply, channel, EventLoop.DeleteEventLoop, ge_iff_le, if_neg hlt]
    cases frees
    · rfl
    · simp only [if_true, EventLoop.destroyChannel]
      simp only [ends, channel] at hword'
      rw [hword']
      rfl
  cases frees
  · rw [ends, hloop]
    exact ⟨rfl, rfl, rfl, fun _ _ => rfl⟩
  · rw [ends, hloop]
    refine ⟨rfl, rfl, by simp [EventLoop.store], fun fd hfd => ?_⟩
    have hne : fd ≠ chans._fd p := hfd.resolve_left (by decide)
    simp only [EventLoop.word, EventLoop.store, if_true, List.getElem?_set_ne (Ne.symm hne)]

/-! ### What the dispatchers contain -/

omit [DecidableEq κ] in
/-- All three contain what was asked exactly if no delete left anything behind. -/
lemma Inv.allContain_iff (h : s.Inv chans) : s.ends.AllContain s.asked ↔ s.Clean := by
  constructor
  · intro ha
    refine ⟨h.exited.symm.trans ha.exited, fun fd => ?_⟩
    by_contra hleft
    refine hleft (Interest.eq_idle_iff.mpr fun e he => ?_)
    obtain ⟨k, hk, -⟩ := (ha.select fd e).mp ((h.select fd e).mpr (Or.inr he))
    exact hleft (h.apart fd (by simp [hk]))
  · rintro ⟨hfailed, hleft⟩
    refine ⟨h.poll.contains, fun fd e => ?_, h.epoll, h.exited.trans hfailed⟩
    rw [h.select fd e, hleft fd]
    simp

omit [DecidableEq κ] in
/-- What `poll` dispatches is always right; what `select` dispatches is right exactly if the two
events are ready together. -/
lemma Inv.activates_iff (h : s.Inv chans) (ready : Ready) :
    (ActivatesReady (s.ends.poll.polldispatch ready).1 s.asked ready ∧
      ActivatesReady (s.ends.select.selectdispatch ready) s.asked ready) ↔
        s.InStep chans (.dispatch ready) := by
  rw [and_iff_right h.poll.activates, ActivatesReady, and_iff_right SelectData.nodup_selectdispatch]
  refine forall_congr' fun fd => forall_congr' fun e => ?_
  have hlt : s.ends.select.Watches fd e → fd < MAX := by
    intro hw
    obtain ⟨p, rfl⟩ := h.known fd <| (h.select fd e).mp hw |>.imp
      (fun ⟨k, hk, _⟩ => by simp [hk]) fun hl hidle => by simp [hidle] at hl
    exact (chans.lt p).trans (by decide)
  rw [SelectData.mem_selectdispatch, ← h.select fd e]
  constructor
  · intro hiff
    exact ⟨fun ha => (hiff.mpr ha).2, fun hb => hiff.mp ⟨hlt hb.1, hb⟩⟩
  · intro hiff
    exact ⟨fun ha => hiff.mpr ha.2, fun hb => ⟨hlt (hiff.mp hb).1, hiff.mp hb⟩⟩

omit [DecidableEq κ] in
/-- The slot of a channel that is asked for is not `NULL`. -/
lemma Inv.asked_none (h : s.Inv chans) (hpart : s.destroyed p = false)
    (hw : s.loop.word (chans._fd p) = some NULL) :
    s.asked (chans._fd p) = none ∧ s.left (chans._fd p) = .idle := by
  have hnot : ¬ (s.asked (chans._fd p) ≠ none ∨ s.left (chans._fd p) ≠ .idle) := by
    intro hor
    rcases h.stored p hor with hd | hne
    · simp [hpart] at hd
    · exact hne hw
  simpa only [not_or, not_not] using hnot

/-! ### The steps in step -/

/-- The first channel is added. -/
lemma Inv.add_null (h : s.Inv chans) (hw : s.loop.word (chans._fd p) = some NULL)
    (hclean : s.Clean) (hnew : s.asked = .new) : (s.apply chans (.add p)).Inv chans := by
  have hlt : chans._fd p < s.loop._channelmap._list.length := h.length ▸ chans.lt p
  have hnone : s.asked (s.channel chans p)._fd = none := by rw [hnew]; rfl
  obtain ⟨hset, hexit⟩ := h.epoll.add hnone
  have hasked : ∀ fd, s.asked.add (chans._fd p) (s.channel chans p).interest fd ≠ none →
      fd = chans._fd p := by
    intro fd hfd
    by_contra hne
    rw [Table.add_of_ne hne, hnew] at hfd
    exact hfd rfl
  rw [h.apply_add_null hw]
  refine ⟨?_, fun fd e => ?_, hset, hexit.trans h.exited, fun fd hfd => ?_,
    fun fd _ => hclean.2 fd, fun q hq => Or.inr ?_, h.size, by simp [EventLoop.store, h.length]⟩
  · rw [hnew]
    exact h.poll.add
  · have hwatch : (Dispatcher.add (s.channel chans p) s.ends.select).Watches fd e ↔ _ :=
      SelectData.watches_add ((chans.lt p).trans (by decide))
    have hold : ¬ s.ends.select.Watches fd e := by
      rw [h.select fd e, hclean.2 fd, hnew]
      simp [Table.Watches, Table.new]
    refine hwatch.trans ?_
    simp only [hold, false_or, hclean.2 fd, Interest.idle_has, Bool.false_eq_true, or_false]
    by_cases hne : fd = chans._fd p
    · subst hne
      rw [Table.watches_of_some Table.add_self]
      exact and_iff_right rfl
    · rw [Table.watches_congr (Table.add_of_ne hne), hnew]
      exact iff_of_false (fun hc => hne hc.1) (Table.not_watches_of_none rfl)
  · exact ⟨p, hasked fd (hfd.resolve_right fun hl => hl (hclean.2 fd))⟩
  · have hqp : chans._fd q = chans._fd p :=
      hasked _ (hq.resolve_right fun hl => hl (hclean.2 _))
    have hword := word_store (w := chans.ptr p) hlt (chans._fd q)
    rw [if_pos hqp] at hword
    intro hnull
    exact chans.ptr_ne p (Option.some.inj (hword.symm.trans hnull))

lemma Inv.add (h : s.Inv chans) (hstep : s.InStep chans (.add p)) :
    (s.apply chans (.add p)).Inv chans ∧
      WatchesAsked s (.add p) (s.apply chans (.add p)) := by
  obtain ⟨hclean, hstep⟩ := hstep
  split_ifs at hstep with hw
  · have hnext := h.add_null hw hclean hstep
    refine ⟨hnext, hnext.allContain_iff.mpr ?_⟩
    rw [h.apply_add_null hw]
    exact hclean
  · have hsame : s.asked.add (chans._fd p) (s.channel chans p).interest = s.asked :=
      Function.update_eq_self_iff.mpr hstep.symm
    rw [WatchesAsked, h.apply_add hw, hsame]
    exact ⟨h, h.allContain_iff.mpr hclean⟩

lemma Inv.modify (h : s.Inv chans) (hpart : s.destroyed p = false)
    (hstep : s.InStep chans (.modify p)) :
    (s.apply chans (.modify p)).Inv chans ∧
      WatchesAsked s (.modify p) (s.apply chans (.modify p)) := by
  obtain ⟨hclean, hstep⟩ := hstep
  have hall := h.allContain_iff.mpr hclean
  by_cases hw : s.loop.word (chans._fd p) = some NULL
  · have hsame : s.asked.modify (chans._fd p) (s.channel chans p).interest = s.asked :=
      Table.modify_of_none (h.asked_none hpart hw).1
    rw [WatchesAsked, h.apply_modify_null hw, hsame]
    exact ⟨h, hall⟩
  · obtain ⟨hidle, hi⟩ := hstep hw
    have hfd : s.asked (s.channel chans p)._fd = some .idle := hidle
    obtain ⟨hset, hexit⟩ := h.epoll.modify hfd
    have hselect := (SelectData.agrees_modify_iff hall.select hfd).mpr ⟨rfl, hi⟩
    have hsome : ∀ fd, s.asked.modify (chans._fd p) (s.channel chans p).interest fd ≠ none →
        s.asked fd ≠ none := by
      intro fd hne hnone
      have hpq : fd ≠ chans._fd p := by
        rintro rfl
        rw [hidle] at hnone
        cases hnone
      exact hne ((Table.modify_of_ne hpq).trans hnone)
    have hnext : (s.apply chans (.modify p)).Inv chans := by
      rw [h.apply_modify hw]
      refine ⟨h.poll.modify hfd, fun fd e => ?_, hset, hexit.trans h.exited,
        fun fd hk => h.known fd (hk.imp_left (hsome fd)), fun fd hk => h.apart fd (hsome fd hk),
        fun q hq => h.stored q (hq.imp_left (hsome _)), h.size, h.length⟩
      have hleft : ¬ (s.left fd).has e = true := by
        rw [hclean.2 fd]
        simp
      exact (hselect fd e).trans (or_iff_left hleft).symm
    refine ⟨hnext, hnext.allContain_iff.mpr ?_⟩
    rw [h.apply_modify hw]
    exact hclean

/-- What a delete leaves behind is recorded. -/
lemma Inv.delete (h : s.Inv chans) (frees : Bool) :
    (s.apply chans (.delete p frees)).Inv chans := by
  obtain ⟨hends, hsize, hlength, hword⟩ := h.apply_delete (p := p) frees
  have hasked : (s.apply chans (.delete p frees)).asked = s.asked.remove (chans._fd p) := rfl
  have hleft : (s.apply chans (.delete p frees)).left = Function.update s.left (chans._fd p)
      (((s.asked (chans._fd p)).getD (s.left (chans._fd p))).without
        (s.channel chans p).interest) := rfl
  have hfailed : (s.apply chans (.delete p frees)).failed =
      (s.failed || (s.asked (chans._fd p)).isNone) := rfl
  have hset : (Dispatcher.remove (s.channel chans p) s.ends.epoll).Contains
        (s.asked.remove (chans._fd p)) ∧
      (Dispatcher.remove (s.channel chans p) s.ends.epoll).exited =
        (s.failed || (s.asked (chans._fd p)).isNone) := by
    cases hj : s.asked (chans._fd p) with
    | none =>
      have htable : s.asked.remove (chans._fd p) = s.asked :=
        Function.update_eq_self_iff.mpr hj.symm
      rw [(h.epoll.exits (c := s.channel chans p) hj).2, htable]
      exact ⟨h.epoll, by simp⟩
    | some j =>
      obtain ⟨hset, hexit⟩ := h.epoll.remove (c := s.channel chans p) hj
      exact ⟨hset, hexit.trans (h.exited.trans (by simp))⟩
  have hselect : ∀ fd e, (Dispatcher.remove (s.channel chans p) s.ends.select).Watches fd e ↔
      (s.asked.remove (chans._fd p)).Watches fd e ∨
        ((s.apply chans (.delete p frees)).left fd).has e = true := by
    intro fd e
    rw [SelectData.watches_remove, h.select fd e, hleft]
    by_cases hne : fd = chans._fd p
    · subst hne
      have hnone : s.asked.remove (chans._fd p) (chans._fd p) = none := Table.remove_self
      have hrem := Table.not_watches_of_none (e := e) hnone
      have hself : chans._fd p = (s.channel chans p)._fd := rfl
      simp only [← hself, true_and, hrem, false_or, Function.update_self, Interest.without_has,
        Bool.and_eq_true, Bool.not_eq_true', Bool.not_eq_true]
      refine and_congr_left' ?_
      cases hj : s.asked (chans._fd p) with
      | none => simp [Table.Watches, hj]
      | some j =>
        have hidle := h.apart _ (by rw [hj]; simp : s.asked (chans._fd p) ≠ none)
        simp [Table.watches_of_some hj, hidle]
    · have hne' : fd ≠ (s.channel chans p)._fd := hne
      rw [Table.watches_congr (Table.remove_of_ne hne), Function.update_of_ne hne]
      simp [hne']
  refine ⟨?_, ?_, ?_, ?_, fun fd hfd => ?_, fun fd hfd => ?_, fun q hq => ?_,
    hsize.trans h.size, hlength.trans h.length⟩
  · rw [hends]
    exact h.poll.remove
  · rw [hends]
    exact hselect
  · rw [hends]
    exact hset.1
  · rw [hends]
    exact hset.2
  · by_cases hne : fd = chans._fd p
    · exact ⟨p, hne⟩
    · rw [hasked, hleft, Table.remove_of_ne hne, Function.update_of_ne hne] at hfd
      exact h.known fd hfd
  · have hne : fd ≠ chans._fd p := by
      rintro rfl
      rw [hasked] at hfd
      exact hfd Table.remove_self
    rw [hasked, Table.remove_of_ne hne] at hfd
    rw [hleft, Function.update_of_ne hne]
    exact h.apart fd hfd
  · have hdestroyed : (s.apply chans (.delete p frees)).destroyed =
        Function.update s.destroyed p (s.destroyed p || frees) := rfl
    by_cases hqp : q = p
    · subst hqp
      have hold : s.asked (chans._fd q) ≠ none ∨ s.left (chans._fd q) ≠ .idle := by
        by_contra hnot
        obtain ⟨hnone, hidle⟩ := not_or.mp hnot
        rw [not_not] at hnone hidle
        rw [hasked, hleft, Function.update_self, hnone, Option.getD_none, hidle] at hq
        exact hq.elim (fun hne => hne Table.remove_self) fun hne =>
          hne (Interest.eq_idle_iff.mpr fun e => by simp)
      rw [hdestroyed, Function.update_self]
      rcases h.stored q hold with hd | hne
      · exact Or.inl (by rw [hd, Bool.true_or])
      · cases frees
        · exact Or.inr (by rwa [hword _ (Or.inl rfl)])
        · exact Or.inl (Bool.or_true _)
    · have hne : chans._fd q ≠ chans._fd p := fun he => hqp (chans.inj he)
      rw [hasked, hleft, Table.remove_of_ne hne, Function.update_of_ne hne] at hq
      rw [hdestroyed, Function.update_of_ne hqp, hword _ (Or.inr hne)]
      exact h.stored q hq

/-! ### The steps out of step -/

lemma Inv.not_add (h : s.Inv chans) (hpart : s.destroyed p = false)
    (hstep : ¬ s.InStep chans (.add p)) :
    ¬ WatchesAsked s (.add p) (s.apply chans (.add p)) := by
  intro ha
  rw [WatchesAsked] at ha
  by_cases hw : s.loop.word (chans._fd p) = some NULL
  · obtain ⟨hnone, hidle⟩ := h.asked_none hpart hw
    rw [h.apply_add_null hw] at ha
    have hfd : s.asked (s.channel chans p)._fd = none := hnone
    have hnew : s.asked = .new := by
      by_contra hne
      exact h.poll.not_contains_add hfd hne ha.poll
    refine hstep ⟨⟨?_, fun fd => ?_⟩, by rwa [if_pos hw]⟩
    · exact h.exited.symm.trans ((h.epoll.add hfd).2.symm.trans ha.exited)
    · by_cases hne : fd = chans._fd p
      · exact hne ▸ hidle
      · refine Interest.eq_idle_iff.mpr fun e he => ?_
        have hwatch : (Dispatcher.add (s.channel chans p) s.ends.select).Watches fd e :=
          (SelectData.watches_add ((chans.lt p).trans (by decide))).mpr
            (Or.inl ((h.select fd e).mpr (Or.inr he)))
        have hadd := (ha.select fd e).mp hwatch
        rw [Table.watches_congr (Table.add_of_ne hne), hnew] at hadd
        exact Table.not_watches_of_none rfl hadd
  · rw [h.apply_add hw] at ha
    change s.ends.AllContain (s.asked.add (chans._fd p) (s.channel chans p).interest) at ha
    have hset := (ha.epoll (chans._fd p)).symm.trans (h.epoll (chans._fd p))
    rw [Table.add_self] at hset
    obtain ⟨j, hj, heq⟩ := Option.map_eq_some_iff.mp hset.symm
    have hji : j = (s.channel chans p).interest :=
      EpollData.epollEvents_inj (congrArg Prod.fst heq)
    rw [hji] at hj
    have hsame : s.asked.add (chans._fd p) (s.channel chans p).interest = s.asked :=
      Function.update_eq_self_iff.mpr hj.symm
    rw [hsame] at ha
    exact hstep ⟨h.allContain_iff.mp ha, by rwa [if_neg hw]⟩

lemma Inv.not_modify (h : s.Inv chans) (hpart : s.destroyed p = false)
    (hstep : ¬ s.InStep chans (.modify p)) :
    ¬ WatchesAsked s (.modify p) (s.apply chans (.modify p)) := by
  intro ha
  rw [WatchesAsked] at ha
  by_cases hw : s.loop.word (chans._fd p) = some NULL
  · rw [h.apply_modify_null hw, Table.modify_of_none (h.asked_none hpart hw).1] at ha
    exact hstep ⟨h.allContain_iff.mp ha, fun hne => absurd hw hne⟩
  · rw [h.apply_modify hw] at ha
    change (Dispatcher.modify (s.channel chans p) s.ends).AllContain
      (s.asked.modify (chans._fd p) (s.channel chans p).interest) at ha
    cases hj : s.asked (chans._fd p) with
    | none =>
      have hexit : (Dispatcher.modify (s.channel chans p) s.ends.epoll).exited = true := by
        rw [(h.epoll.exits (c := s.channel chans p) hj).1]
      exact Bool.false_ne_true (ha.exited.symm.trans hexit)
    | some j =>
      have hfd : s.asked (s.channel chans p)._fd = some j := hj
      have hclean : s.Clean := by
        refine ⟨?_, fun fd => ?_⟩
        · exact h.exited.symm.trans ((h.epoll.modify hfd).2.symm.trans ha.exited)
        · by_contra hleft
          refine hleft (Interest.eq_idle_iff.mpr fun e he => ?_)
          have hne : fd ≠ chans._fd p := by
            rintro rfl
            exact hleft (h.apart _ (by simp [hj]))
          have hwatch : (Dispatcher.modify (s.channel chans p) s.ends.select).Watches fd e :=
            SelectData.watches_modify.mpr
              ⟨(h.select fd e).mpr (Or.inr he), fun hc => hne hc.1⟩
          obtain ⟨k, hk, -⟩ := (ha.select fd e).mp hwatch
          rw [Table.modify_of_ne hne] at hk
          exact hleft (h.apart fd (by simp [hk]))
      obtain ⟨rfl, hi⟩ := (SelectData.agrees_modify_iff (h.allContain_iff.mpr hclean).select
        hfd).mp ha.select
      exact hstep ⟨hclean, fun _ => ⟨hj, hi⟩⟩

/-! ### Runs -/

lemma Inv.step {op : WatchOp κ} {t : WatchState κ} (h : s.Inv chans) (hstep : Step chans s op t)
    (hG : s.InStep chans op) : t.Inv chans ∧ WatchesAsked s op t := by
  obtain ⟨rfl, hpart⟩ := hstep
  cases op with
  | add p => exact h.add hG
  | modify p => exact h.modify hpart hG
  | delete p frees => exact ⟨h.delete frees, trivial⟩
  | writeEventEnable p flag =>
    exact ⟨⟨h.poll, h.select, h.epoll, h.exited, h.known, h.apart, h.stored, h.size, h.length⟩,
      trivial⟩
  | dispatch ready =>
    exact ⟨⟨h.poll.polldispatch, h.select, h.epoll, h.exited, h.known, h.apart, h.stored, h.size,
      h.length⟩, (h.activates_iff ready).mpr hG⟩

lemma Inv.not_step {op : WatchOp κ} {t : WatchState κ} (h : s.Inv chans)
    (hstep : Step chans s op t) (hG : ¬ s.InStep chans op) : ¬ WatchesAsked s op t := by
  obtain ⟨rfl, hpart⟩ := hstep
  cases op with
  | add p => exact h.not_add hpart hG
  | modify p => exact h.not_modify hpart hG
  | delete p frees => exact absurd trivial hG
  | writeEventEnable p flag => exact absurd trivial hG
  | dispatch ready => exact fun ha => hG ((h.activates_iff ready).mp ha)

variable (chans) in
/-- **When the three dispatchers watch what the channels ask for.** In a run on channels with
distinct descriptors below the size of the table, whatever memory the table was made of, each of
the three contains after every add and modify the channels added and not deleted with what they
asked for then, and `poll` and `select` dispatch what is ready of it, if and only if every
operation is in step. -/
theorem watchesAsked_iff {mem : ℕ → ℕ} {_events : κ → Mask}
    {run : List (WatchOp κ × WatchState κ)} (hrun : Chain (Step chans) (init mem _events) run) :
    Chain WatchesAsked (init mem _events) run ↔
      Chain (fun s op _ => s.InStep chans op) (init mem _events) run := by
  refine chain_iff_of_inv (fun _ _ _ h hstep hG => ?_) (fun _ _ _ h hstep hG => ?_)
    (inv_init chans mem _events) hrun
  · exact h.step hstep hG
  · exact h.not_step hstep hG

end WatchState

/-- Two channels, on the descriptors 5 and 6. -/
def twoChannels : Channels Bool where
  ptr b := if b then 200 else 100
  ptr_ne b := by cases b <;> decide
  _fd b := if b then 6 else 5
  inj b b' h := by revert h; cases b <;> cases b' <;> decide
  lt b := by cases b <;> decide

/-- A channel for reading is added, dispatched while its descriptor is ready for both events, and
deleted. -/
theorem watchesAsked_iff_dispatched :
    let s₀ : WatchState Bool := .init (fun _ => NULL) fun _ => FDevent.readevent
    let s₁ := s₀.apply twoChannels (.add false)
    let s₂ := s₁.apply twoChannels (.dispatch fun _ _ => true)
    Chain WatchState.WatchesAsked s₀ [(.add false, s₁), (.dispatch fun _ _ => true, s₂),
      (.delete false true, s₂.apply twoChannels (.delete false true))] := by
  intro s₀ s₁ s₂
  have hrun : Chain (WatchState.Step twoChannels) s₀ [(.add false, s₁),
      (.dispatch fun _ _ => true, s₂),
      (.delete false true, s₂.apply twoChannels (.delete false true))] :=
    ⟨⟨rfl, rfl⟩, ⟨rfl, trivial⟩, ⟨rfl, rfl⟩, trivial⟩
  have hnull : s₀.loop.word (twoChannels._fd false) = some NULL := by decide
  refine (WatchState.watchesAsked_iff twoChannels hrun).mpr
    ⟨⟨⟨rfl, fun _ => rfl⟩, ?_⟩, fun fd e => ?_, trivial, trivial⟩
  · rw [if_pos hnull]
    rfl
  · have hleft : (s₁.left fd).has e = false := by cases e <;> rfl
    simp [hleft]

/-- Two channels are added: the second takes the slot of the first. -/
theorem not_watchesAsked :
    let s₀ : WatchState Bool := .init (fun _ => NULL) fun _ => FDevent.readevent
    let s₁ := s₀.apply twoChannels (.add false)
    let run := [(WatchOp.add false, s₁), (.add true, s₁.apply twoChannels (.add true))]
    Chain (WatchState.Step twoChannels) s₀ run ∧ ¬ Chain WatchState.WatchesAsked s₀ run := by
  intro s₀ s₁ run
  refine ⟨⟨⟨rfl, rfl⟩, ⟨rfl, rfl⟩, trivial⟩, fun h => ?_⟩
  have h₀ : s₀.Inv twoChannels := WatchState.inv_init _ _ _
  have hnull : s₀.loop.word (twoChannels._fd false) = some NULL := by decide
  have hnull' : s₁.loop.word (twoChannels._fd true) = some NULL := by decide
  have hfirst : s₀.InStep twoChannels (.add false) := by
    refine ⟨⟨rfl, fun _ => rfl⟩, ?_⟩
    rw [if_pos hnull]
    rfl
  have hsecond : ¬ s₁.InStep twoChannels (.add true) := by
    rintro ⟨-, hnew⟩
    rw [if_pos hnull'] at hnew
    have h5 : s₁.asked 5 = none := by rw [hnew]; rfl
    exact absurd h5 (by decide)
  exact (h₀.add hfirst).1.not_add rfl hsecond h.2.1

end Reactor.HttpC
