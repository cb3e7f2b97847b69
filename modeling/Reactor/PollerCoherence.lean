import Reactor.Channel
import Reactor.Lib.Trace

/-!
The three copies of a registration agree: over every run of channel operations on one loop,
a channel's `index_`, the poller's `channels_` and the epoll set say the same, and no call of
`epoll_ctl` fails.
-/

namespace Reactor

open Lib.Trace

variable {ρ : Type*}

lemma kNew_ne_kAdded : kNew ≠ kAdded := by decide
lemma kNew_ne_kDeleted : kNew ≠ kDeleted := by decide
lemma kDeleted_ne_kAdded : kDeleted ≠ kAdded := by decide

/-- The poller holds the registration that the channel's `index_` claims, with mask `m`. -/
structure Registered (p : EpollPoller ρ) (ptr : ρ) (c : Channel) (m : Mask) : Prop where
  index : c.index_ = kNew ∨ c.index_ = kAdded ∨ c.index_ = kDeleted
  epoll : p.epoll c.fd_ = if c.index_ = kAdded then some (m, ptr) else none
  channels : p.channels_ c.fd_ = if c.index_ = kNew then none else some ptr

/-- Nothing changes but the registration of one descriptor, and no `epoll_ctl` fails. -/
structure OnlyAt (fd : ℕ) (p p' : EpollPoller ρ) : Prop where
  epoll : ∀ fd' ≠ fd, p'.epoll fd' = p.epoll fd'
  channels : ∀ fd' ≠ fd, p'.channels_ fd' = p.channels_ fd'
  delErrors : p'.delErrors = p.delErrors
  exited : p'.exited = p.exited

/-- What an operation on a channel with descriptor `fd` made of the poller `p` and of the
channel: the registration has the channel's mask, and nothing else has changed. -/
structure Reregistered (p : EpollPoller ρ) (ptr : ρ) (fd : ℕ) (r : EpollPoller ρ × Channel) :
    Prop where
  registered : Registered r.1 ptr r.2 r.2.events_
  fd_eq : r.2.fd_ = fd
  onlyAt : OnlyAt fd p r.1

namespace EpollPoller

lemma update_add {p : EpollPoller ρ} {c : Channel} (ptr : ρ) (h : p.epoll c.fd_ = none) :
    p.update .EPOLL_CTL_ADD ptr c =
      { p with epoll := Function.update p.epoll c.fd_ (some (c.events_, ptr)) } := by
  simp [update, epoll_ctl, h]

lemma update_mod {p : EpollPoller ρ} {c : Channel} (ptr : ρ) {e : Mask × ρ}
    (h : p.epoll c.fd_ = some e) :
    p.update .EPOLL_CTL_MOD ptr c =
      { p with epoll := Function.update p.epoll c.fd_ (some (c.events_, ptr)) } := by
  simp [update, epoll_ctl, h]

lemma update_del {p : EpollPoller ρ} {c : Channel} (ptr : ρ) {e : Mask × ρ}
    (h : p.epoll c.fd_ = some e) :
    p.update .EPOLL_CTL_DEL ptr c = { p with epoll := Function.update p.epoll c.fd_ none } := by
  simp [update, epoll_ctl, h]

/-- **What `updateChannel` does to a registered channel**: one call of `epoll_ctl`, which
succeeds, after which the registration has the channel's mask. -/
theorem updateChannel_registered {p : EpollPoller ρ} {ptr : ρ} {c : Channel} {m : Mask}
    (h : Registered p ptr c m) :
    Reregistered p ptr c.fd_ (p.updateChannel ptr c) := by
  obtain ⟨hidx | hidx | hidx, hep, hch⟩ := h
  · -- a new channel enters `channels_` and is added
    have hnone : p.epoll c.fd_ = none := by rw [hep, hidx, if_neg kNew_ne_kAdded]
    simp only [updateChannel, hidx, true_or, if_true]
    rw [update_add ptr (by exact hnone)]
    refine ⟨⟨Or.inr (Or.inl rfl), ?_, ?_⟩, rfl, ⟨fun fd hfd => ?_, fun fd hfd => ?_, rfl, rfl⟩⟩
    · simp
    · simp [kNew_ne_kAdded.symm]
    · simp [Function.update_of_ne hfd]
    · simp [Function.update_of_ne hfd]
  · -- a channel in the epoll set is deleted from it when it has no event, else changed
    rw [hidx, if_pos rfl] at hep
    rw [hidx, if_neg kNew_ne_kAdded.symm] at hch
    have hold : ¬ (c.index_ = kNew ∨ c.index_ = kDeleted) := by
      rw [hidx]; exact not_or.mpr ⟨kNew_ne_kAdded.symm, kDeleted_ne_kAdded.symm⟩
    simp only [updateChannel, if_neg hold]
    split_ifs
    · rw [update_del ptr hep]
      refine ⟨⟨Or.inr (Or.inr rfl), ?_, ?_⟩, rfl, ⟨fun fd hfd => ?_, fun _ _ => rfl, rfl, rfl⟩⟩
      · simp [kDeleted_ne_kAdded]
      · simp [kNew_ne_kDeleted.symm, hch]
      · simp [Function.update_of_ne hfd]
    · rw [update_mod ptr hep]
      refine ⟨⟨Or.inr (Or.inl hidx), ?_, ?_⟩, rfl, ⟨fun fd hfd => ?_, fun _ _ => rfl, rfl, rfl⟩⟩
      · simp [hidx]
      · simp [hidx, kNew_ne_kAdded.symm, hch]
      · simp [Function.update_of_ne hfd]
  · -- a deleted channel is still in `channels_` and is added again
    have hnone : p.epoll c.fd_ = none := by rw [hep, hidx, if_neg kDeleted_ne_kAdded]
    rw [hidx, if_neg kNew_ne_kDeleted.symm] at hch
    simp only [updateChannel, hidx, or_true, if_true, if_neg kNew_ne_kDeleted.symm]
    rw [update_add ptr (by exact hnone)]
    refine ⟨⟨Or.inr (Or.inl rfl), ?_, ?_⟩, rfl, ⟨fun fd hfd => ?_, fun _ _ => rfl, rfl, rfl⟩⟩
    · simp
    · simp [kNew_ne_kAdded.symm, hch]
    · simp [Function.update_of_ne hfd]

/-- **What `removeChannel` does to a registered channel.** -/
theorem removeChannel_registered {p : EpollPoller ρ} {ptr : ρ} {c : Channel} {m : Mask}
    (h : Registered p ptr c m) :
    Reregistered p ptr c.fd_ (p.removeChannel ptr c) := by
  obtain ⟨-, hep, -⟩ := h
  by_cases hidx : c.index_ = kAdded
  · rw [if_pos hidx] at hep
    simp only [removeChannel, if_pos hidx]
    rw [update_del ptr (by exact hep)]
    refine ⟨⟨Or.inl rfl, ?_, ?_⟩, rfl, ⟨fun fd hfd => ?_, fun fd hfd => ?_, rfl, rfl⟩⟩
    · simp [kNew_ne_kAdded]
    · simp
    · simp [Function.update_of_ne hfd]
    · simp [Function.update_of_ne hfd]
  · rw [if_neg hidx] at hep
    simp only [removeChannel, if_neg hidx]
    refine ⟨⟨Or.inl rfl, ?_, ?_⟩, rfl, ⟨fun _ _ => rfl, fun fd hfd => ?_, rfl, rfl⟩⟩
    · simp [hep, kNew_ne_kAdded]
    · simp
    · simp [Function.update_of_ne hfd]

end EpollPoller

/-! ### The channels of one loop -/

inductive ChannelOp
  | enableReading
  | disableReading
  | enableWriting
  | disableWriting
  | disableAll
  | remove

def ChannelOp.apply : ChannelOp → ρ → Channel → EpollPoller ρ → EpollPoller ρ × Channel
  | .enableReading => Channel.enableReading
  | .disableReading => Channel.disableReading
  | .enableWriting => Channel.enableWriting
  | .disableWriting => Channel.disableWriting
  | .disableAll => Channel.disableAll
  | .remove => Channel.remove

/-- An operation on a registered channel leaves it registered, with the mask it now has. -/
theorem ChannelOp.apply_registered (op : ChannelOp) {p : EpollPoller ρ} {ptr : ρ} {c : Channel}
    {m : Mask} (h : Registered p ptr c m) : Reregistered p ptr c.fd_ (op.apply ptr c p) := by
  have hupd : ∀ f : Mask → Mask, Reregistered p ptr c.fd_ (Channel.withEvents f ptr c p) := by
    intro f
    have h' : Registered p ptr { c with events_ := f c.events_ } m :=
      ⟨h.index, h.epoll, h.channels⟩
    exact EpollPoller.updateChannel_registered h'
  cases op with
  | enableReading => exact hupd (· ||| kReadEvent)
  | disableReading => exact hupd (· &&& ~~~kReadEvent)
  | enableWriting => exact hupd (· ||| kWriteEvent)
  | disableWriting => exact hupd (· &&& ~~~kReadEvent)
  | disableAll => exact hupd fun _ => kNoneEvent
  | remove => exact EpollPoller.removeChannel_registered h

/-- The poller of a loop and the channels whose pointers it may hold. -/
structure LoopChannels (ρ : Type*) where
  poller_ : EpollPoller ρ
  channel : ρ → Channel

namespace LoopChannels

/-- A loop whose channels have just been constructed on the descriptors `fd`. -/
def new (fd : ρ → ℕ) : LoopChannels ρ where
  poller_ := .new
  channel p := .new (fd p)

variable [DecidableEq ρ]

def step (s : LoopChannels ρ) (a : ρ × ChannelOp) : LoopChannels ρ where
  poller_ := (a.2.apply a.1 (s.channel a.1) s.poller_).1
  channel := Function.update s.channel a.1 (a.2.apply a.1 (s.channel a.1) s.poller_).2

/-- The three copies agree, and no call of `epoll_ctl` has failed. -/
structure Coherent (s : LoopChannels ρ) : Prop where
  added : ∀ p, (s.channel p).index_ = kAdded ↔
    s.poller_.epoll (s.channel p).fd_ = some ((s.channel p).events_, p)
  known : ∀ p, (s.channel p).index_ = kAdded ∨ (s.channel p).index_ = kDeleted ↔
    s.poller_.channels_ (s.channel p).fd_ = some p
  hasChannel : ∀ p, s.poller_.hasChannel p (s.channel p) = true ↔
    (s.channel p).index_ = kAdded ∨ (s.channel p).index_ = kDeleted
  delErrors : s.poller_.delErrors = 0
  exited : s.poller_.exited = false

/-- Every channel is registered with the mask it has, on a descriptor of its own. -/
structure Inv (s : LoopChannels ρ) : Prop where
  registered : ∀ p, Registered s.poller_ p (s.channel p) (s.channel p).events_
  distinct : Function.Injective fun p => (s.channel p).fd_
  delErrors : s.poller_.delErrors = 0
  exited : s.poller_.exited = false

lemma Inv.coherent {s : LoopChannels ρ} (h : s.Inv) : s.Coherent := by
  have hknown : ∀ p, (s.channel p).index_ = kAdded ∨ (s.channel p).index_ = kDeleted ↔
      s.poller_.channels_ (s.channel p).fd_ = some p := by
    intro p
    obtain ⟨hidx, -, hch⟩ := h.registered p
    rw [hch]
    rcases hidx with hidx | hidx | hidx <;> rw [hidx] <;>
      simp [kNew_ne_kAdded, kNew_ne_kDeleted, kNew_ne_kAdded.symm, kNew_ne_kDeleted.symm]
  refine ⟨fun p => ?_, hknown, fun p => ?_, h.delErrors, h.exited⟩
  · rw [(h.registered p).epoll]
    split_ifs with hidx <;> simp [hidx]
  · rw [hknown p, EpollPoller.hasChannel, decide_eq_true_iff]

/-- Channels stay on their descriptors. -/
lemma Inv.step_fd {s : LoopChannels ρ} (h : s.Inv) (a : ρ × ChannelOp) (p : ρ) :
    ((s.step a).channel p).fd_ = (s.channel p).fd_ := by
  obtain ⟨ptr, op⟩ := a
  by_cases hp : p = ptr
  · subst hp
    simp [LoopChannels.step, (op.apply_registered (h.registered p)).fd_eq]
  · simp [LoopChannels.step, Function.update_of_ne hp]

/-- A step touches the registration of one descriptor only, so the other channels keep
theirs. -/
lemma Inv.step {s : LoopChannels ρ} (h : s.Inv) (a : ρ × ChannelOp) : (s.step a).Inv := by
  have hfds := h.step_fd a
  obtain ⟨ptr, op⟩ := a
  obtain ⟨hreg, -, hat⟩ := op.apply_registered (h.registered ptr)
  refine ⟨fun p => ?_, ?_, hat.delErrors.trans h.delErrors, hat.exited.trans h.exited⟩
  · by_cases hp : p = ptr
    · subst hp; simpa [LoopChannels.step] using hreg
    · have hne : (s.channel p).fd_ ≠ (s.channel ptr).fd_ := fun he => hp (h.distinct he)
      obtain ⟨hidx, hep, hch⟩ := h.registered p
      simp only [LoopChannels.step, Function.update_of_ne hp]
      exact ⟨hidx, by rw [hat.epoll _ hne, hep], by rw [hat.channels _ hne, hch]⟩
  · intro p q hpq
    simp only [hfds] at hpq
    exact h.distinct hpq

/-- A pointer in the epoll set is under the descriptor of its channel. -/
def Refs (s : LoopChannels ρ) : Prop :=
  ∀ n m p, s.poller_.epoll n = some (m, p) → (s.channel p).fd_ = n

lemma Inv.refs_step {s : LoopChannels ρ} (h : s.Inv) (hrefs : s.Refs) (a : ρ × ChannelOp) :
    (s.step a).Refs := by
  intro n m p hent
  rw [h.step_fd a]
  obtain ⟨ptr, op⟩ := a
  obtain ⟨hreg, hfd, hat⟩ := op.apply_registered (h.registered ptr)
  by_cases hn : n = (s.channel ptr).fd_
  · subst hn
    have hown := hreg.epoll
    rw [hfd] at hown
    split_ifs at hown
    · cases hent.symm.trans hown
      rfl
    · cases hent.symm.trans hown
  · exact hrefs n m p ((hat.epoll n hn).symm.trans hent)

omit [DecidableEq ρ] in
lemma inv_new {fd : ρ → ℕ} (hfd : Function.Injective fd) : (new fd).Inv where
  registered p := ⟨Or.inl rfl, by simp [new, Channel.new, EpollPoller.new, kNew_ne_kAdded],
    by simp [new, Channel.new, EpollPoller.new]⟩
  distinct := hfd
  delErrors := rfl
  exited := rfl

/-- **Registrations agree over every run** of operations on channels with distinct
descriptors, in any order and repeated. -/
theorem registrations_coherent {fd : ρ → ℕ} (hfd : Function.Injective fd)
    (ops : List (ρ × ChannelOp)) : Always Coherent (new fd) (path step (new fd) ops) :=
  (always_path (fun _ a hs => hs.step a) (inv_new hfd) ops).mono fun _ => Inv.coherent

/-- Two channels, one of them deleted, added again and removed. -/
theorem registrations_coherent_two :
    Always Coherent (new (fun b : Bool => if b then 5 else 4))
      (path step (new fun b : Bool => if b then 5 else 4)
        [(true, .enableReading), (false, .enableReading), (true, .disableAll),
          (true, .disableAll), (true, .enableWriting), (true, .remove), (true, .remove)]) :=
  registrations_coherent (by decide) _

end LoopChannels

end Reactor
