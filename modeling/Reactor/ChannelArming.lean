import Reactor.PollerCoherence

/-!
A channel without interest and the epoll set: while a channel has no event its descriptor
should not be in the set, where `EPOLLHUP` and `EPOLLERR` are reported whatever the mask.

`updateChannel` adds a channel that is new or deleted without a look at its mask. An empty mask
keeps the descriptor out only if it is reached from a channel that was in the set.
-/

namespace Reactor

open Lib.Trace

variable {ρ : Type*}

/-- The mask that an operation leaves. -/
def ChannelOp.mask : ChannelOp → Mask → Mask
  | .enableReading, m => m ||| kReadEvent
  | .disableReading, m => m &&& ~~~kReadEvent
  | .enableWriting, m => m ||| kWriteEvent
  | .disableWriting, m => m &&& ~~~kReadEvent
  | .disableAll, _ => kNoneEvent
  | .remove, m => m

lemma ChannelOp.apply_events (op : ChannelOp) (ptr : ρ) (c : Channel) (p : EpollPoller ρ) :
    (op.apply ptr c p).2.events_ = op.mask c.events_ := by
  cases op with
  | remove => rfl
  | _ => exact Channel.withEvents_events _ _ _ _

/-- An operation is an update of the channel with the new mask, or its removal. -/
lemma ChannelOp.apply_eq {op : ChannelOp} (hop : op ≠ .remove) (ptr : ρ) (c : Channel)
    (p : EpollPoller ρ) :
    op.apply ptr c p = p.updateChannel ptr { c with events_ := op.mask c.events_ } := by
  cases op with
  | remove => exact absurd rfl hop
  | _ => rfl

/-- **Where `updateChannel` leaves a channel**: in the set, unless it was there and has lost
its last event. -/
lemma updateChannel_index_iff {p : EpollPoller ρ} (ptr : ρ) {c : Channel}
    (hidx : c.index_ = kNew ∨ c.index_ = kAdded ∨ c.index_ = kDeleted) :
    (p.updateChannel ptr c).2.index_ = kAdded ↔
      ¬ (c.index_ = kAdded ∧ c.events_ = kNoneEvent) := by
  by_cases hadded : c.index_ = kAdded
  · have hold : ¬ (c.index_ = kNew ∨ c.index_ = kDeleted) := by
      rw [hadded]; exact not_or.mpr ⟨kNew_ne_kAdded.symm, kDeleted_ne_kAdded.symm⟩
    simp only [EpollPoller.updateChannel, if_neg hold, Channel.isNoneEvent, decide_eq_true_iff]
    split_ifs with hnone
    · exact iff_of_false kDeleted_ne_kAdded (not_not.mpr ⟨hadded, hnone⟩)
    · exact iff_of_true hadded fun h => hnone h.2
  · have hfresh : c.index_ = kNew ∨ c.index_ = kDeleted := by tauto
    simp only [EpollPoller.updateChannel, if_pos hfresh, true_iff]
    exact fun h => hadded h.1

namespace LoopChannels

/-- The descriptor of a channel without interest is not in the epoll set. -/
def Disarmed (s : LoopChannels ρ) : Prop :=
  ∀ p, (s.channel p).isNoneEvent = true → s.poller_.epoll (s.channel p).fd_ = none

/-- A channel is left without interest only from the epoll set, or by `remove`. -/
def EmptiesAdded (s : LoopChannels ρ) (a : ρ × ChannelOp) : Prop :=
  a.2 ≠ .remove → a.2.mask (s.channel a.1).events_ = kNoneEvent →
    (s.channel a.1).index_ = kAdded

lemma Inv.disarmed_iff_index {s : LoopChannels ρ} (h : s.Inv) :
    s.Disarmed ↔ ∀ p, (s.channel p).events_ = kNoneEvent → (s.channel p).index_ ≠ kAdded := by
  refine forall_congr' fun p => ?_
  rw [Channel.isNoneEvent, decide_eq_true_iff, (h.registered p).epoll]
  split_ifs with hadded <;> simp [hadded]

variable [DecidableEq ρ]

/-- Where a step leaves the channel it works on. -/
lemma Inv.step_index_iff {s : LoopChannels ρ} (h : s.Inv) (ptr : ρ) {op : ChannelOp}
    (hop : op ≠ .remove) :
    ((s.step (ptr, op)).channel ptr).index_ = kAdded ↔
      ¬ ((s.channel ptr).index_ = kAdded ∧ op.mask (s.channel ptr).events_ = kNoneEvent) := by
  simp only [LoopChannels.step, Function.update_self, op.apply_eq hop]
  exact updateChannel_index_iff ptr (h.registered ptr).index

lemma step_events (s : LoopChannels ρ) (ptr : ρ) (op : ChannelOp) :
    ((s.step (ptr, op)).channel ptr).events_ = op.mask (s.channel ptr).events_ := by
  simp only [LoopChannels.step, Function.update_self, op.apply_events]

/-- A step that empties no mask outside the set arms no channel without interest. -/
lemma Inv.disarmed_step {s : LoopChannels ρ} (h : s.Inv) (hd : s.Disarmed) {a : ρ × ChannelOp}
    (ha : s.EmptiesAdded a) : (s.step a).Disarmed := by
  obtain ⟨ptr, op⟩ := a
  rw [(h.step _).disarmed_iff_index]
  rw [h.disarmed_iff_index] at hd
  intro p hnone
  by_cases hp : p = ptr
  · subst hp
    rw [step_events] at hnone
    by_cases hop : op = .remove
    · subst hop
      simp only [LoopChannels.step, Function.update_self]
      exact kNew_ne_kAdded
    · rw [Ne, h.step_index_iff p hop, not_not]
      exact ⟨ha hop hnone, hnone⟩
  · simp only [LoopChannels.step, Function.update_of_ne hp] at hnone ⊢
    exact hd p hnone

/-- A step that empties a mask outside the set arms the channel. -/
lemma Inv.not_disarmed_step {s : LoopChannels ρ} (h : s.Inv) {a : ρ × ChannelOp}
    (ha : ¬ s.EmptiesAdded a) : ¬ (s.step a).Disarmed := by
  obtain ⟨ptr, op⟩ := a
  simp only [EmptiesAdded, not_forall] at ha
  obtain ⟨hop, hnone, hidx⟩ := ha
  intro hd
  rw [(h.step _).disarmed_iff_index] at hd
  refine hd ptr ((step_events s ptr op).trans hnone) ?_
  exact (h.step_index_iff ptr hop).mpr fun hc => hidx hc.1

/-- **When a channel without interest stays out of the epoll set.** Over every run of operations
on channels with distinct descriptors, no channel without interest is in the set exactly when
every operation but `remove` that leaves a mask empty finds its channel in the set. -/
theorem disarmed_iff {fd : ρ → ℕ} (hfd : Function.Injective fd) (ops : List (ρ × ChannelOp)) :
    Always Disarmed (new fd) (path step (new fd) ops) ↔
      Chain (fun s a _ => s.EmptiesAdded a) (new fd) (path step (new fd) ops) := by
  refine always_path_iff (fun (s : LoopChannels ρ) (h : s.Inv ∧ s.Disarmed) => h.2) ?_ ?_ ?_ ops
  · exact fun s a h ha => ⟨h.1.step a, h.1.disarmed_step h.2 ha⟩
  · exact fun s a h ha => h.1.not_disarmed_step ha
  · exact ⟨inv_new hfd, fun _ _ => rfl⟩

/-- A channel enabled, emptied and removed. -/
theorem disarmed_iff_enabled :
    Always Disarmed (new fun _ : Unit => 4) (path step (new fun _ : Unit => 4)
      [((), .enableReading), ((), .disableAll), ((), .remove)]) := by
  refine (disarmed_iff (fun _ _ _ => rfl) _).mpr ?_
  refine ⟨fun _ h => ?_, fun _ _ => ?_, fun h => absurd rfl h, trivial⟩
  · revert h
    decide
  · decide

/-- The second `disableAll` puts the descriptor back into the set, with no event. -/
theorem disarmed_not :
    ¬ Always Disarmed (new fun _ : Unit => 4) (path step (new fun _ : Unit => 4)
      [((), .enableReading), ((), .disableAll), ((), .disableAll)]) := by
  intro h
  have hlast := h.2 _ (List.mem_of_getElem? (i := 2) rfl) () rfl
  revert hlast
  decide

end LoopChannels

end Reactor
