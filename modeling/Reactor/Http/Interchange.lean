import Reactor.Http.DispatcherTables
import Reactor.Lib.Trace

/-!
The three dispatchers behind one loop, on channels with descriptors of their own.

Channels are added, modified, removed and have their write events switched on and off, in any
order. What is removed is destroyed by its `destroyCallback`, which may or may not free the
channel; a channel that is freed takes part no more.
-/

namespace Reactor.Http

open Lib.Watch Lib.Trace

/-- The three dispatchers side by side, with the table of what they were told to watch. The code
returned, which no caller reads, is that of the first. -/
structure SideBySide where
  select : SelectDispatcher
  poll : PollDispatcher
  epoll : EpollDispatcher
  table : Table

namespace SideBySide

def new : SideBySide := ⟨.new, .new, .new, .new⟩

instance : Dispatcher SideBySide where
  add c d := ((Dispatcher.add c d.select).1,
    { select := (Dispatcher.add c d.select).2
      poll := (Dispatcher.add c d.poll).2
      epoll := (Dispatcher.add c d.epoll).2
      table := d.table.add c.m_fd c.interest })
  remove c d := ((Dispatcher.remove c d.select).1,
    { select := (Dispatcher.remove c d.select).2
      poll := (Dispatcher.remove c d.poll).2
      epoll := (Dispatcher.remove c d.epoll).2
      table := d.table.remove c.m_fd })
  modify c d := ((Dispatcher.modify c d.select).1,
    { select := (Dispatcher.modify c d.select).2
      poll := (Dispatcher.modify c d.poll).2
      epoll := (Dispatcher.modify c d.epoll).2
      table := d.table.modify c.m_fd c.interest })

/-- Each of the three watches what a table says, and the process goes on. -/
structure AllAgree (d : SideBySide) (t : Table) : Prop where
  select : Agrees d.select.Watches t
  poll : Agrees d.poll.Watches t
  epoll : Agrees d.epoll.Watches t
  exited : d.epoll.exited = false

/-- None of the three watches the descriptor, and the process goes on. -/
structure Unwatched (d : SideBySide) (fd : ℕ) : Prop where
  select : ∀ e, ¬ d.select.Watches fd e
  poll : ∀ e, ¬ d.poll.Watches fd e
  epoll : ∀ e, ¬ d.epoll.Watches fd e
  exited : d.epoll.exited = false

lemma AllAgree.same {d : SideBySide} {t t' : Table} (h : d.AllAgree t') (hs : t.Same t') :
    d.AllAgree t :=
  ⟨h.select.same hs, h.poll.same hs, h.epoll.same hs, h.exited⟩

lemma AllAgree.unwatched {d : SideBySide} {t : Table} (h : d.AllAgree t) {fd : ℕ}
    (hfd : t fd = none) : d.Unwatched fd where
  select e hw := Table.not_watches_of_none hfd ((h.select fd e).mp hw)
  poll e hw := Table.not_watches_of_none hfd ((h.poll fd e).mp hw)
  epoll e hw := Table.not_watches_of_none hfd ((h.epoll fd e).mp hw)
  exited := h.exited

/-- The three represent the table, whose descriptors are below the last slot of `poll`. -/
structure Holds (d : SideBySide) : Prop where
  select : Agrees d.select.Watches d.table
  poll : d.poll.Holds d.table
  epoll : d.epoll.Holds d.table
  fds : ∀ fd k, d.table fd = some k → fd ≤ 1022

variable {d : SideBySide} {c : Channel} {j : Interest} {t : Table}

lemma holds_new : new.Holds :=
  ⟨FdSets.agrees_zero, PollDispatcher.holds_new, EpollDispatcher.holds_new, fun _ _ h => nomatch h⟩

lemma Holds.allAgree (h : d.Holds) : d.AllAgree d.table :=
  ⟨h.select, h.poll.agrees, h.epoll.agrees, h.epoll.exited⟩

lemma Holds.fds_lt (h : d.Holds) (fd : ℕ) (k : Interest) (hk : d.table fd = some k) :
    fd + 1 < PollDispatcher.m_maxNode := by
  have := h.fds fd k hk
  simp only [PollDispatcher.m_maxNode]
  omega

/-! What the three together do is taken apart into what each does. -/

lemma add_eq (c : Channel) (d : SideBySide) : (Dispatcher.add c d).2 =
    ⟨(Dispatcher.add c d.select).2, (Dispatcher.add c d.poll).2, (Dispatcher.add c d.epoll).2,
      d.table.add c.m_fd c.interest⟩ := rfl

lemma remove_eq (c : Channel) (d : SideBySide) : (Dispatcher.remove c d).2 =
    ⟨(Dispatcher.remove c d.select).2, (Dispatcher.remove c d.poll).2,
      (Dispatcher.remove c d.epoll).2, d.table.remove c.m_fd⟩ := rfl

lemma modify_eq (c : Channel) (d : SideBySide) : (Dispatcher.modify c d).2 =
    ⟨(Dispatcher.modify c d.select).2, (Dispatcher.modify c d.poll).2,
      (Dispatcher.modify c d.epoll).2, d.table.modify c.m_fd c.interest⟩ := rfl

lemma Holds.add (h : d.Holds) (hfd : d.table c.m_fd = none) (hle : c.m_fd ≤ 1022) :
    (Dispatcher.add c d).2.Holds := by
  have hlt : c.m_fd < SelectDispatcher.m_maxSize := by
    simp only [SelectDispatcher.m_maxSize]
    omega
  rw [add_eq]
  refine ⟨SelectDispatcher.agrees_add h.select hfd hlt, h.poll.add h.fds_lt hfd, h.epoll.add hfd,
    fun fd k hk => ?_⟩
  by_cases hne : fd = c.m_fd
  · rw [hne]
    exact hle
  · exact h.fds fd k ((Table.add_of_ne hne).symm.trans hk)

lemma Holds.modify (h : d.Holds) (hfd : d.table c.m_fd = some j)
    (hi : j = .idle ∧ c.interest = .idle) : (Dispatcher.modify c d).2.Holds := by
  rw [modify_eq]
  refine ⟨(SelectDispatcher.agrees_modify_iff h.select hfd).mpr hi, h.poll.modify,
    h.epoll.modify hfd, fun fd k hk => ?_⟩
  by_cases hne : fd = c.m_fd
  · rw [hne]
    exact h.fds _ _ hfd
  · exact h.fds fd k ((Table.modify_of_ne hne).symm.trans hk)

/-- **All three follow a change only between no interest and none.** -/
lemma Holds.modify_iff (h : d.Holds) (hs : t.Same d.table) (hfd : d.table c.m_fd = some j)
    (ht : t c.m_fd = some j) :
    (Dispatcher.modify c d).2.AllAgree (t.modify c.m_fd c.interest) ↔
      j = .idle ∧ c.interest = .idle := by
  refine ⟨fun ha => ?_, fun hi => (h.modify hfd hi).allAgree.same (hs.modify ht hfd)⟩
  rw [modify_eq] at ha
  exact (SelectDispatcher.agrees_modify_iff (h.select.same hs) ht).mp ha.select

lemma Holds.remove (h : d.Holds) (hfd : d.table c.m_fd = some j) (hle : j ≤ c.interest) :
    (Dispatcher.remove c d).2.Holds := by
  rw [remove_eq]
  refine ⟨SelectDispatcher.agrees_remove h.select hfd hle, h.poll.remove, h.epoll.remove hfd,
    fun fd k hk => ?_⟩
  by_cases hne : fd = c.m_fd
  · rw [hne] at hk
    exact absurd (Table.remove_self.symm.trans hk) (by simp)
  · exact h.fds fd k ((Table.remove_of_ne hne).symm.trans hk)

/-- **All three forget a channel only if it asks for all it asked for.** -/
lemma Holds.remove_iff (h : d.Holds) (hfd : d.table c.m_fd = some j) :
    (Dispatcher.remove c d).2.Unwatched c.m_fd ↔ j ≤ c.interest := by
  refine ⟨fun hu => ?_, fun hle => (h.remove hfd hle).allAgree.unwatched Table.remove_self⟩
  rw [remove_eq] at hu
  exact (SelectDispatcher.not_watches_remove_iff h.select hfd).mp hu.select

/-- A channel that is not in the table can be neither modified nor removed. -/
lemma Holds.exits (h : d.Holds) (hfd : d.table c.m_fd = none) :
    (Dispatcher.modify c d).2.epoll.exited = true ∧
      (Dispatcher.remove c d).2.epoll.exited = true := by
  rw [modify_eq, remove_eq]
  exact h.epoll.exits hfd

end SideBySide

/-! ### Runs of a loop -/

/-- Channels with distinct descriptors that fit into each of the three. -/
structure Channels (κ : Type*) where
  m_fd : κ → ℕ
  inj : Function.Injective m_fd
  le : ∀ p, m_fd p ≤ 1022

inductive LoopOp (κ : Type*)
  | add (p : κ)
  | modify (p : κ)
  /-- `frees` says whether the `destroyCallback` frees the channel -/
  | remove (p : κ) (frees : Bool)
  | writeEventEnable (p : κ) (flag : Bool)

def LoopOp.channel {κ : Type*} : LoopOp κ → κ
  | .add p | .modify p | .remove p _ | .writeEventEnable p _ => p

/-- A loop and the channels it works on: their masks, which of them are deleted, and the mask
each channel added and not removed had at its last `add` or `modify`. -/
structure LoopState (κ : Type*) where
  loop : EventLoop κ SideBySide
  m_events : κ → Mask
  deleted : κ → Bool
  asked : Table

namespace LoopState

variable {κ : Type*} (chans : Channels κ)

def new (m_events : κ → Mask) : LoopState κ where
  loop := .new .new
  m_events := m_events
  deleted _ := false
  asked := .new

def channel (s : LoopState κ) (p : κ) : Channel := ⟨chans.m_fd p, s.m_events p⟩

/-- The dispatchers behind the loop. -/
def side (s : LoopState κ) : SideBySide := s.loop.m_dispatcher

variable [DecidableEq κ]

def apply : LoopOp κ → LoopState κ → LoopState κ
  | .add p, s =>
    let c := s.channel chans p
    { s with loop := (s.loop.add p c).2, asked := s.asked.add c.m_fd c.interest }
  | .modify p, s =>
    let c := s.channel chans p
    { s with loop := (s.loop.modify c).2, asked := s.asked.modify c.m_fd c.interest }
  | .remove p frees, s =>
    let c := s.channel chans p
    let destroyCallback l := if frees then (l.freeChannel c).2 else l
    { s with
      loop := (s.loop.remove destroyCallback c).2
      deleted := if frees then
          Function.update s.deleted p (s.deleted p || (s.loop.freeChannel c).1)
        else s.deleted
      asked := s.asked.remove c.m_fd }
  | .writeEventEnable p flag, s =>
    { s with
      m_events :=
        Function.update s.m_events p ((s.channel chans p).writeEventEnable flag).m_events }

/-- A channel that is deleted takes part no more. -/
def Step (s : LoopState κ) (op : LoopOp κ) (t : LoopState κ) : Prop :=
  s.deleted op.channel = false ∧ t = s.apply chans op

/-- What the three have in common after an operation. -/
def Interchangeable (op : LoopOp κ) (t : LoopState κ) : Prop :=
  match op with
  | .add _ | .modify _ => t.side.AllAgree t.asked
  | .remove p _ => t.side.Unwatched (chans.m_fd p)
  | .writeEventEnable _ _ => True

/-- A channel whose descriptor is in the map already is added only if it asks for what it asked
for before; it is modified only if it asks for nothing and did so when it was last added or
modified; and removed only if it has been added and not removed, and asks for all it asked for
then. -/
def InStep (s : LoopState κ) : LoopOp κ → Prop
  | .add p => s.loop.m_channelMap (chans.m_fd p) ≠ none →
      (s.asked (chans.m_fd p)).getD .idle = (s.channel chans p).interest
  | .modify p => s.loop.m_channelMap (chans.m_fd p) ≠ none →
      s.side.table (chans.m_fd p) = some .idle ∧ (s.channel chans p).interest = .idle
  | .remove p _ => s.loop.m_channelMap (chans.m_fd p) ≠ none →
      ∃ j, s.side.table (chans.m_fd p) = some j ∧ j ≤ (s.channel chans p).interest
  | .writeEventEnable _ _ => True

/-- The three represent the table of what they were told, which is what was asked up to entries
without interest; and what was asked is in the map. -/
structure Inv (s : LoopState κ) : Prop where
  holds : s.side.Holds
  same : s.asked.Same s.side.table
  told : ∀ fd j, s.side.table fd = some j → s.asked fd = some j
  mapped : ∀ fd, s.loop.m_channelMap fd = none → s.asked fd = none

omit [DecidableEq κ] in
lemma inv_new (m_events : κ → Mask) : (new m_events).Inv :=
  ⟨SideBySide.holds_new, fun _ _ => Iff.rfl, fun _ _ h => h, fun _ _ => rfl⟩

variable {chans} {s : LoopState κ} {p : κ}

/-! What each operation comes to, by whether the descriptor is in the map. -/

lemma apply_add_none (h : s.loop.m_channelMap (chans.m_fd p) = none) :
    s.apply chans (.add p) = { s with
      loop := { s.loop with
        m_dispatcher := (Dispatcher.add (s.channel chans p) s.side).2
        m_channelMap := Function.update s.loop.m_channelMap (chans.m_fd p) (some p) }
      asked := s.asked.add (chans.m_fd p) (s.channel chans p).interest } := by
  simp [apply, EventLoop.add, channel, side, h]

lemma apply_add_some (h : s.loop.m_channelMap (chans.m_fd p) ≠ none) :
    s.apply chans (.add p) = { s with
      asked := s.asked.add (chans.m_fd p) (s.channel chans p).interest } := by
  simp [apply, EventLoop.add, channel, h]

lemma apply_modify_none (h : s.loop.m_channelMap (chans.m_fd p) = none) :
    s.apply chans (.modify p) = { s with
      asked := s.asked.modify (chans.m_fd p) (s.channel chans p).interest } := by
  simp [apply, EventLoop.modify, channel, h]

lemma apply_modify_some (h : s.loop.m_channelMap (chans.m_fd p) ≠ none) :
    s.apply chans (.modify p) = { s with
      loop := { s.loop with m_dispatcher := (Dispatcher.modify (s.channel chans p) s.side).2 }
      asked := s.asked.modify (chans.m_fd p) (s.channel chans p).interest } := by
  simp [apply, EventLoop.modify, channel, side, h]

lemma apply_remove_none (h : s.loop.m_channelMap (chans.m_fd p) = none) (frees : Bool) :
    (s.apply chans (.remove p frees)).loop = s.loop := by
  simp [apply, EventLoop.remove, channel, h]

lemma apply_remove_some (h : s.loop.m_channelMap (chans.m_fd p) ≠ none) (frees : Bool) :
    (s.apply chans (.remove p frees)).loop = { s.loop with
      m_dispatcher := (Dispatcher.remove (s.channel chans p) s.side).2
      m_channelMap := if frees then Function.update s.loop.m_channelMap (chans.m_fd p) none
        else s.loop.m_channelMap } := by
  cases frees <;> simp [apply, EventLoop.remove, EventLoop.freeChannel, channel, side, h]

lemma apply_remove_asked (frees : Bool) :
    (s.apply chans (.remove p frees)).asked = s.asked.remove (chans.m_fd p) := rfl

omit [DecidableEq κ] in
lemma Inv.table_none (h : s.Inv) {fd : ℕ} (hfd : s.loop.m_channelMap fd = none) :
    s.side.table fd = none := by
  cases hj : s.side.table fd with
  | none => rfl
  | some j =>
    have := h.told fd j hj
    rw [h.mapped fd hfd] at this
    cases this

omit [DecidableEq κ] in
lemma Inv.allAgree (h : s.Inv) : s.side.AllAgree s.asked := h.holds.allAgree.same h.same

omit [DecidableEq κ] in
/-- A channel that is not in the map is watched by none of the three. -/
lemma Inv.unwatched (h : s.Inv) (hmap : s.loop.m_channelMap (chans.m_fd p) = none) :
    s.side.Unwatched (chans.m_fd p) :=
  h.allAgree.unwatched (h.mapped _ hmap)

/-- A channel not in the map is added to all three. -/
lemma Inv.add_none (h : s.Inv) (hmap : s.loop.m_channelMap (chans.m_fd p) = none) :
    (s.apply chans (.add p)).Inv := by
  have hadd := h.holds.add (c := s.channel chans p) (h.table_none hmap) (chans.le p)
  rw [apply_add_none hmap]
  refine ⟨hadd, h.same.add, fun fd j hj => ?_, fun fd hfd => ?_⟩
  all_goals by_cases hne : fd = chans.m_fd p
  · subst hne
    rw [← hj]
    exact Table.add_self.trans Table.add_self.symm
  · exact (Table.add_of_ne hne).trans (h.told fd j ((Table.add_of_ne hne).symm.trans hj))
  · subst hne
    simp at hfd
  · simp only [Function.update_of_ne hne] at hfd
    exact (Table.add_of_ne hne).trans (h.mapped fd hfd)

/-- A channel in the map is refused, which makes no difference if it asks for the same. -/
lemma Inv.add_some (h : s.Inv) (hmap : s.loop.m_channelMap (chans.m_fd p) ≠ none)
    (hask : (s.asked (chans.m_fd p)).getD .idle = (s.channel chans p).interest) :
    (s.apply chans (.add p)).Inv := by
  rw [apply_add_some hmap]
  refine ⟨h.holds, h.same.add_again hask, fun fd j hj => ?_, fun fd hfd => ?_⟩
  · by_cases hne : fd = chans.m_fd p
    · subst hne
      rw [h.told _ j hj, Option.getD_some] at hask
      rw [hask]
      exact Table.add_self
    · exact (Table.add_of_ne hne).trans (h.told fd j hj)
  · have hne : fd ≠ chans.m_fd p := by
      rintro rfl
      exact hmap hfd
    exact (Table.add_of_ne hne).trans (h.mapped fd hfd)

lemma Inv.add (h : s.Inv) (hstep : s.InStep chans (.add p)) :
    (s.apply chans (.add p)).Inv := by
  by_cases hmap : s.loop.m_channelMap (chans.m_fd p) = none
  · exact h.add_none hmap
  · exact h.add_some hmap (hstep hmap)

lemma Inv.modify (h : s.Inv) (hstep : s.InStep chans (.modify p)) :
    (s.apply chans (.modify p)).Inv := by
  by_cases hmap : s.loop.m_channelMap (chans.m_fd p) = none
  · rw [apply_modify_none hmap, Table.modify_of_none (h.mapped _ hmap)]
    exact h
  · obtain ⟨htable, hidle⟩ := hstep hmap
    have hasked := h.told _ _ htable
    have hmod := h.holds.modify (c := s.channel chans p) htable ⟨rfl, hidle⟩
    rw [apply_modify_some hmap]
    refine ⟨hmod, h.same.modify hasked htable, fun fd j hj => ?_, fun fd hfd => ?_⟩
    · by_cases hne : fd = chans.m_fd p
      · subst hne
        rw [← hj]
        exact (Table.modify_of_some hasked).trans (Table.modify_of_some htable).symm
      · exact (Table.modify_of_ne hne).trans
          (h.told fd j ((Table.modify_of_ne hne).symm.trans hj))
    · have hne : fd ≠ chans.m_fd p := by
        rintro rfl
        exact hmap hfd
      exact (Table.modify_of_ne hne).trans (h.mapped fd hfd)

lemma Inv.remove (h : s.Inv) {frees : Bool} (hstep : s.InStep chans (.remove p frees)) :
    (s.apply chans (.remove p frees)).Inv := by
  by_cases hmap : s.loop.m_channelMap (chans.m_fd p) = none
  · have hloop := apply_remove_none hmap frees
    have hasked : (s.apply chans (.remove p frees)).asked = s.asked :=
      Function.update_eq_self_iff.mpr (h.mapped _ hmap).symm
    refine ⟨?_, ?_, ?_, ?_⟩
    all_goals simp only [side, hloop, hasked]
    · exact h.holds
    · exact h.same
    · exact h.told
    · exact h.mapped
  · obtain ⟨j, htable, hle⟩ := hstep hmap
    have hrem := h.holds.remove (c := s.channel chans p) htable hle
    have hloop := apply_remove_some hmap frees
    refine ⟨?_, ?_, fun fd j hj => ?_, fun fd hfd => ?_⟩
    · rw [side, hloop]
      exact hrem
    · rw [side, hloop]
      exact h.same.remove
    · rw [side, hloop] at hj
      rw [apply_remove_asked]
      by_cases hne : fd = chans.m_fd p
      · subst hne
        rw [← hj]
        exact Table.remove_self.trans Table.remove_self.symm
      · exact (Table.remove_of_ne hne).trans
          (h.told fd j ((Table.remove_of_ne hne).symm.trans hj))
    · rw [hloop] at hfd
      rw [apply_remove_asked]
      by_cases hne : fd = chans.m_fd p
      · rw [hne]
        exact Table.remove_self
      · refine (Table.remove_of_ne hne).trans (h.mapped fd ?_)
        cases frees
        · exact hfd
        · simpa [Function.update_of_ne hne] using hfd

lemma Inv.apply (h : s.Inv) {op : LoopOp κ} (hstep : s.InStep chans op) :
    (s.apply chans op).Inv := by
  cases op with
  | add p => exact h.add hstep
  | modify p => exact h.modify hstep
  | remove p frees => exact h.remove hstep
  | writeEventEnable p flag => exact ⟨h.holds, h.same, h.told, h.mapped⟩

/-- **What an operation in step leaves in common.** -/
lemma Inv.interchangeable (h : s.Inv) {op : LoopOp κ} (hstep : s.InStep chans op) :
    Interchangeable chans op (s.apply chans op) := by
  have hnext := h.apply hstep
  cases op with
  | add p => exact hnext.allAgree
  | modify p => exact hnext.allAgree
  | writeEventEnable p flag => trivial
  | remove p frees => exact hnext.allAgree.unwatched Table.remove_self

/-- **An operation out of step** leaves a back end behind, or ends the process of one. -/
lemma Inv.not_interchangeable (h : s.Inv) {op : LoopOp κ} (hstep : ¬ s.InStep chans op) :
    ¬ Interchangeable chans op (s.apply chans op) := by
  cases op with
  | writeEventEnable p flag => exact absurd trivial hstep
  | add p =>
    simp only [InStep, Classical.not_imp] at hstep
    obtain ⟨hmap, hask⟩ := hstep
    rw [Interchangeable, apply_add_some hmap]
    intro ha
    have hsame : ∀ e, (s.channel chans p).interest.has e = true ↔
        ((s.asked (chans.m_fd p)).getD .idle).has e = true := by
      intro e
      have hnew := ha.select (chans.m_fd p) e
      rw [Table.watches_of_some Table.add_self] at hnew
      exact hnew.symm.trans ((h.allAgree.select _ e).trans Table.watches_getD)
    exact hask (Interest.ext_has fun e => Bool.eq_iff_iff.mpr (hsame e).symm)
  | modify p =>
    simp only [InStep, Classical.not_imp] at hstep
    obtain ⟨hmap, hidle⟩ := hstep
    rw [Interchangeable, apply_modify_some hmap]
    intro ha
    change (Dispatcher.modify (s.channel chans p) s.side).2.AllAgree _ at ha
    rcases hj : s.side.table (chans.m_fd p) with _ | j
    · have hexit := (h.holds.exits (c := s.channel chans p) hj).1
      rw [ha.exited] at hexit
      cases hexit
    · have hiff := h.holds.modify_iff (c := s.channel chans p) h.same hj (h.told _ _ hj)
      obtain ⟨rfl, hi⟩ := hiff.mp ha
      exact hidle ⟨hj, hi⟩
  | remove p frees =>
    simp only [InStep, Classical.not_imp] at hstep
    obtain ⟨hmap, hsub⟩ := hstep
    rw [Interchangeable, side, apply_remove_some hmap frees]
    intro hu
    change (Dispatcher.remove (s.channel chans p) s.side).2.Unwatched _ at hu
    rcases hj : s.side.table (chans.m_fd p) with _ | j
    · have hexit := (h.holds.exits (c := s.channel chans p) hj).2
      rw [hu.exited] at hexit
      cases hexit
    · exact hsub ⟨j, hj, (h.holds.remove_iff (c := s.channel chans p) hj).mp hu⟩

variable (chans) in
/-- **When the three dispatchers are interchangeable.** In a run on channels with distinct
descriptors, after every `add` and `modify` each of the three watches the channels added and not
removed for what they asked for then, and after every `remove` none watches the descriptor, if
and only if every operation is in step. -/
theorem interchangeable_iff {m_events : κ → Mask} {run : List (LoopOp κ × LoopState κ)}
    (hrun : Chain (Step chans) (new m_events) run) :
    Chain (fun _ op t => Interchangeable chans op t) (new m_events) run ↔
      Chain (fun s op _ => s.InStep chans op) (new m_events) run := by
  refine chain_iff_of_inv ?_ ?_ (inv_new m_events) hrun
  · rintro s op _ h ⟨-, rfl⟩ hG
    exact ⟨h.apply hG, h.interchangeable hG⟩
  · rintro s op _ h ⟨-, rfl⟩ hG
    exact h.not_interchangeable hG

end LoopState

/-- One channel, on descriptor 5. -/
def oneChannel : Channels Unit where
  m_fd _ := 5
  inj _ _ _ := rfl
  le _ := by decide

/-- A channel for reading is added and removed. -/
theorem interchangeable_iff_added :
    let s₀ : LoopState Unit := .new fun _ => FDEvent.ReadEvent
    let s₁ := s₀.apply oneChannel (.add ())
    Chain (fun _ op t => LoopState.Interchangeable oneChannel op t) s₀
      [(.add (), s₁), (.remove () true, s₁.apply oneChannel (.remove () true))] := by
  intro s₀ s₁
  have hrun : Chain (LoopState.Step oneChannel) s₀
      [(.add (), s₁), (.remove () true, s₁.apply oneChannel (.remove () true))] :=
    ⟨⟨rfl, rfl⟩, ⟨rfl, rfl⟩, trivial⟩
  refine (LoopState.interchangeable_iff oneChannel hrun).mpr
    ⟨fun h => absurd rfl h, fun _ => ?_, trivial⟩
  exact ⟨⟨true, false⟩, by decide, by decide⟩

/-- A channel for reading is added and its write events are switched on: after `modify`, `select`
does not watch it at all. -/
theorem not_interchangeable :
    let s₀ : LoopState Unit := .new fun _ => FDEvent.ReadEvent
    let s₁ := s₀.apply oneChannel (.add ())
    let s₂ := s₁.apply oneChannel (.writeEventEnable () true)
    let run := [(.add (), s₁), (.writeEventEnable () true, s₂),
      (.modify (), s₂.apply oneChannel (.modify ()))]
    Chain (LoopState.Step oneChannel) s₀ run ∧
      ¬ Chain (fun _ op t => LoopState.Interchangeable oneChannel op t) s₀ run := by
  intro s₀ s₁ s₂ run
  refine ⟨⟨⟨rfl, rfl⟩, ⟨rfl, rfl⟩, ⟨rfl, rfl⟩, trivial⟩, fun h => ?_⟩
  have hagree : (s₂.apply oneChannel (.modify ())).side.AllAgree _ := h.2.2.1
  have hread := (hagree.select 5 .read).mpr ⟨⟨true, true⟩, by decide, rfl⟩
  have hempty : (s₂.apply oneChannel (.modify ())).side.select.m_readSet = ∅ := by decide
  change 5 ∈ (s₂.apply oneChannel (.modify ())).side.select.m_readSet at hread
  rw [hempty] at hread
  exact absurd hread (by decide)

end Reactor.Http
