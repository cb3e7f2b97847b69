import Reactor.Http.Dispatcher

/-!
What each dispatcher makes of a table of interests.

`poll` keeps one slot for each entry and `epoll` one entry of the kernel's set. The sets of
`select` do not follow the table: its `modify` clears them again after it has set them, and its
`remove` clears only what the channel asks for at that moment.
-/

namespace Reactor.Http

open Lib.Watch

/-! ### `select` follows the table as two sets -/

namespace SelectDispatcher

variable {d : SelectDispatcher} {c : Channel} {t : Table} {j : Interest}

def sets (d : SelectDispatcher) : FdSets := ⟨d.m_readSet, d.m_writeSet⟩

def Watches (d : SelectDispatcher) : ℕ → Event → Prop := d.sets.Watches

lemma sets_setFdSet : (d.setFdSet c).sets = d.sets.set c.m_fd c.interest := rfl
lemma sets_clearFdSet : (d.clearFdSet c).sets = d.sets.clear c.m_fd c.interest := rfl

lemma add_of_lt (hlt : c.m_fd < m_maxSize) : Dispatcher.add c d = (0, d.setFdSet c) :=
  if_neg (Nat.not_le.mpr hlt)

lemma agrees_add (h : Agrees d.Watches t) (hfd : t c.m_fd = none) (hlt : c.m_fd < m_maxSize) :
    Agrees (Dispatcher.add c d).2.Watches (t.add c.m_fd c.interest) := by
  have hset : (d.setFdSet c).Watches = (d.sets.set c.m_fd c.interest).Watches := by
    rw [Watches, sets_setFdSet]
  rw [add_of_lt hlt, hset]
  exact FdSets.agrees_set h hfd

lemma watches_modify : (Dispatcher.modify c d).2.Watches =
    ((d.sets.set c.m_fd c.interest).clear c.m_fd c.interest).Watches := by
  rw [← sets_setFdSet, ← sets_clearFdSet]
  rfl

lemma watches_remove :
    (Dispatcher.remove c d).2.Watches = (d.sets.clear c.m_fd c.interest).Watches := by
  rw [← sets_clearFdSet]
  rfl

lemma agrees_modify_iff (h : Agrees d.Watches t) (hfd : t c.m_fd = some j) :
    Agrees (Dispatcher.modify c d).2.Watches (t.modify c.m_fd c.interest) ↔
      j = .idle ∧ c.interest = .idle := by
  rw [watches_modify]
  exact FdSets.agrees_set_clear_iff h hfd

lemma not_watches_remove_iff (h : Agrees d.Watches t) (hfd : t c.m_fd = some j) :
    (∀ e, ¬ (Dispatcher.remove c d).2.Watches c.m_fd e) ↔ j ≤ c.interest := by
  rw [watches_remove]
  exact FdSets.not_watches_clear_iff h hfd

lemma agrees_remove (h : Agrees d.Watches t) (hfd : t c.m_fd = some j) (hle : j ≤ c.interest) :
    Agrees (Dispatcher.remove c d).2.Watches (t.remove c.m_fd) := by
  rw [watches_remove]
  exact FdSets.agrees_clear h hfd hle

end SelectDispatcher

/-! ### `poll` keeps one slot for each entry of the table -/

def pollBit : Event → BitVec 16
  | .read => POLLIN
  | .write => POLLOUT

lemma pollEvents_has (i : Interest) (e : Event) :
    pollEvents i &&& pollBit e ≠ 0 ↔ i.has e = true := by
  obtain ⟨r, w⟩ := i
  cases r <;> cases w <;> cases e <;> decide

namespace PollDispatcher

variable {d : PollDispatcher} {c : Channel} {t : Table} {j : Interest}

/-- The entries that `poll` is given: those up to `m_maxfd` whose descriptor is not -1. -/
def Watches (d : PollDispatcher) (fd : ℕ) (e : Event) : Prop :=
  ∃ i ≤ d.m_maxfd, (d.m_fds i).fd = fd ∧ (d.m_fds i).events &&& pollBit e ≠ 0

/-- The slots in use hold the entries of the table, one each. -/
structure Holds (d : PollDispatcher) (t : Table) : Prop where
  used : ∀ i < m_maxNode, (d.m_fds i).fd = -1 ∨
    ∃ fd k, t fd = some k ∧ (d.m_fds i).fd = fd ∧ (d.m_fds i).events = pollEvents k
  slot : ∀ fd k, t fd = some k → ∃ i < m_maxNode, (d.m_fds i).fd = fd
  once : ∀ i < m_maxNode, ∀ i' < m_maxNode, (d.m_fds i).fd = (d.m_fds i').fd →
    (d.m_fds i).fd ≠ -1 → i = i'
  max_lt : d.m_maxfd < m_maxNode
  le_max : ∀ i < m_maxNode, (d.m_fds i).fd ≠ -1 → i ≤ d.m_maxfd

lemma natCast_ne (fd : ℕ) : (fd : ℤ) ≠ -1 := by omega

lemma slot_eq_some {fd : ℤ} {i : ℕ} (h : d.slot fd = some i) :
    i < m_maxNode ∧ (d.m_fds i).fd = fd := by
  unfold PollDispatcher.slot at h
  have hp := List.find?_some h
  have hm := List.mem_of_find?_eq_some h
  exact ⟨List.mem_range.mp hm, by simpa using hp⟩

lemma slot_eq_none {fd : ℤ} (h : d.slot fd = none) {i : ℕ} (hi : i < m_maxNode) :
    (d.m_fds i).fd ≠ fd := by
  unfold PollDispatcher.slot at h
  simpa using List.find?_eq_none.mp h i (List.mem_range.mpr hi)

lemma holds_new : new.Holds .new where
  used _ _ := Or.inl rfl
  slot _ _ h := nomatch h
  once _ _ _ _ _ h := absurd rfl h
  max_lt := by decide
  le_max _ _ h := absurd rfl h

/-- `m_maxfd` is a slot, and none above it is in use. -/
structure Bounded (d : PollDispatcher) : Prop where
  maxfd_lt : d.m_maxfd < m_maxNode
  le_maxfd : ∀ i < m_maxNode, (d.m_fds i).fd ≠ -1 → i ≤ d.m_maxfd

/-- The slots with the channel in one of them. -/
def fdsWith (d : PollDispatcher) (c : Channel) (i : ℕ) : ℕ → PollFd :=
  Function.update d.m_fds i { d.m_fds i with events := pollEvents c.interest, fd := c.m_fd }

@[simp] lemma fdsWith_self {i : ℕ} : d.fdsWith c i i =
    { d.m_fds i with events := pollEvents c.interest, fd := c.m_fd } := Function.update_self ..

lemma fdsWith_of_ne {i i' : ℕ} (h : i' ≠ i) : d.fdsWith c i i' = d.m_fds i' :=
  Function.update_of_ne h ..

lemma add_of_slot {i : ℕ} (hs : d.slot (-1) = some i) :
    Dispatcher.add c d = (0, { m_maxfd := max d.m_maxfd i, m_fds := d.fdsWith c i }) := by
  have hmax : (if i > d.m_maxfd then i else d.m_maxfd) = max d.m_maxfd i := by
    rw [max_def]
    split_ifs <;> omega
  simp only [Dispatcher.add, hs, hmax]
  rfl

lemma Bounded.add (h : d.Bounded) {i : ℕ} (hs : d.slot (-1) = some i) :
    (Dispatcher.add c d).2.Bounded := by
  obtain ⟨hi, -⟩ := slot_eq_some hs
  rw [add_of_slot hs]
  refine ⟨Nat.max_lt.mpr ⟨h.maxfd_lt, hi⟩, fun i' hi' hne => ?_⟩
  by_cases hii : i' = i
  · rw [hii]
    exact le_max_right _ _
  · simp only [fdsWith_of_ne hii] at hne
    exact (h.le_maxfd i' hi' hne).trans (le_max_left _ _)

/-- The entry of a slot with a descriptor. -/
lemma Holds.entry (h : d.Holds t) {i fd : ℕ} (hi : i < m_maxNode) (hfd : (d.m_fds i).fd = fd) :
    ∃ k, t fd = some k ∧ (d.m_fds i).events = pollEvents k := by
  rcases h.used i hi with hfree | ⟨fd', k, hk, hfd', hev⟩
  · exact absurd (hfd.symm.trans hfree) (natCast_ne fd)
  · obtain rfl : fd = fd' := by exact_mod_cast hfd.symm.trans hfd'
    exact ⟨k, hk, hev⟩

lemma Holds.agrees (h : d.Holds t) : Agrees d.Watches t := by
  intro fd e
  constructor
  · rintro ⟨i, hi, hfd, he⟩
    obtain ⟨k, hk, hev⟩ := h.entry (Nat.lt_of_le_of_lt hi h.max_lt) hfd
    rw [hev, pollEvents_has] at he
    exact ⟨k, hk, he⟩
  · rintro ⟨k, hk, he⟩
    obtain ⟨i, hi, hfd⟩ := h.slot fd k hk
    obtain ⟨k', hk', hev⟩ := h.entry hi hfd
    obtain rfl : k = k' := Option.some.inj (hk.symm.trans hk')
    refine ⟨i, h.le_max i hi (by rw [hfd]; exact natCast_ne fd), hfd, ?_⟩
    rw [hev, pollEvents_has]
    exact he

lemma Holds.bounded (h : d.Holds t) : d.Bounded := ⟨h.max_lt, h.le_max⟩

/-- There is a free slot as long as all descriptors lie below the last slot. -/
lemma Holds.slot_free (h : d.Holds t) (hle : ∀ fd k, t fd = some k → fd + 1 < m_maxNode) :
    ∃ i, d.slot (-1) = some i := by
  rcases hs : d.slot (-1) with _ | i
  swap
  · exact ⟨i, rfl⟩
  -- else the slots are mapped one to one into the descriptors, of which there are fewer
  have hused : ∀ i < m_maxNode, ∃ fd k, t fd = some k ∧ (d.m_fds i).fd = fd := by
    intro i hi
    obtain ⟨fd, k, hk, hfd, -⟩ := (h.used i hi).resolve_left (slot_eq_none hs hi)
    exact ⟨fd, k, hk, hfd⟩
  have hmaps : ∀ i ∈ Finset.range m_maxNode,
      (d.m_fds i).fd.toNat ∈ Finset.range (m_maxNode - 1) := by
    intro i hi
    obtain ⟨fd, k, hk, hfd⟩ := hused i (Finset.mem_range.mp hi)
    rw [hfd, Int.toNat_natCast, Finset.mem_range]
    have := hle fd k hk
    omega
  have hcard : (Finset.range (m_maxNode - 1)).card < (Finset.range m_maxNode).card := by
    simp [m_maxNode]
  obtain ⟨i, hi, i', hi', hne, heq⟩ :=
    Finset.exists_ne_map_eq_of_card_lt_of_maps_to hcard hmaps
  obtain ⟨fd, -, -, hfd⟩ := hused i (Finset.mem_range.mp hi)
  obtain ⟨fd', -, -, hfd'⟩ := hused i' (Finset.mem_range.mp hi')
  rw [hfd, hfd', Int.toNat_natCast, Int.toNat_natCast] at heq
  refine absurd (h.once i (Finset.mem_range.mp hi) i' (Finset.mem_range.mp hi') ?_ ?_) hne
  · rw [hfd, hfd', heq]
  · rw [hfd]
    exact natCast_ne fd

/-- **A new entry takes a free slot.** -/
lemma Holds.add (h : d.Holds t) (hle : ∀ fd k, t fd = some k → fd + 1 < m_maxNode)
    (hfd : t c.m_fd = none) :
    (Dispatcher.add c d).2.Holds (t.add c.m_fd c.interest) := by
  obtain ⟨i, hs⟩ := h.slot_free hle
  obtain ⟨hi, hfree⟩ := slot_eq_some hs
  have hother : ∀ i' < m_maxNode, (d.m_fds i').fd ≠ c.m_fd := by
    intro i' hi' hc
    obtain ⟨k, hk, -⟩ := h.entry hi' hc
    rw [hfd] at hk
    cases hk
  have hbounded : (Dispatcher.add c d).2.Bounded := h.bounded.add hs
  refine ⟨?_, ?_, ?_, hbounded.maxfd_lt, hbounded.le_maxfd⟩
  all_goals rw [add_of_slot hs]
  · intro i' hi'
    by_cases hii : i' = i
    · subst hii
      exact Or.inr ⟨c.m_fd, c.interest, Table.add_self, by simp, by simp⟩
    · simp only [fdsWith_of_ne hii]
      refine (h.used i' hi').imp_right ?_
      rintro ⟨fd, k, hk, hfd', hev⟩
      have hne : fd ≠ c.m_fd := by
        rintro rfl
        exact hother i' hi' hfd'
      exact ⟨fd, k, (Table.add_of_ne hne).trans hk, hfd', hev⟩
  · intro fd k hk
    by_cases hne : fd = c.m_fd
    · exact ⟨i, hi, by simp [hne]⟩
    · rw [Table.add_of_ne hne] at hk
      obtain ⟨i', hi', hfd'⟩ := h.slot fd k hk
      have hii : i' ≠ i := by
        rintro rfl
        exact natCast_ne fd (hfd'.symm.trans hfree)
      exact ⟨i', hi', by simpa only [fdsWith_of_ne hii] using hfd'⟩
  · intro i₁ h₁ i₂ h₂ heq hne
    dsimp only at heq hne
    by_cases h₁i : i₁ = i <;> by_cases h₂i : i₂ = i
    · rw [h₁i, h₂i]
    · rw [h₁i, fdsWith_self, fdsWith_of_ne h₂i] at heq
      exact absurd heq.symm (hother i₂ h₂)
    · rw [h₂i, fdsWith_self, fdsWith_of_ne h₁i] at heq
      exact absurd heq (hother i₁ h₁)
    · rw [fdsWith_of_ne h₁i] at heq hne
      rw [fdsWith_of_ne h₂i] at heq
      exact h.once i₁ h₁ i₂ h₂ heq hne

/-- **A change goes to the slot of the entry.** -/
lemma Holds.modify (h : d.Holds t) :
    (Dispatcher.modify c d).2.Holds (t.modify c.m_fd c.interest) := by
  rcases hs : d.slot c.m_fd with _ | i
  · have hfd : t c.m_fd = none := by
      rcases hk : t c.m_fd with _ | k
      · rfl
      · obtain ⟨i, hi, hi'⟩ := h.slot _ k hk
        exact absurd hi' (slot_eq_none hs hi)
    simpa only [Dispatcher.modify, hs, Table.modify_of_none hfd] using h
  obtain ⟨hi, hifd⟩ := slot_eq_some hs
  obtain ⟨j, hj, -⟩ := h.entry hi hifd
  have hfds : ∀ i', (Function.update d.m_fds i { d.m_fds i with
      events := pollEvents c.interest } i').fd = (d.m_fds i').fd := by
    intro i'
    by_cases hii : i' = i
    · rw [hii, Function.update_self]
    · rw [Function.update_of_ne hii]
  simp only [Dispatcher.modify, hs]
  refine ⟨fun i' hi' => ?_, fun fd k hk => ?_, ?_, h.max_lt, ?_⟩
  · simp only [hfds]
    refine (h.used i' hi').imp_right ?_
    rintro ⟨fd, k, hk, hfd', hev⟩
    by_cases hii : i' = i
    · subst hii
      obtain rfl : fd = c.m_fd := by exact_mod_cast hfd'.symm.trans hifd
      exact ⟨c.m_fd, c.interest, Table.modify_of_some hj, hfd', by simp⟩
    · have hne : fd ≠ c.m_fd := by
        rintro rfl
        exact hii (h.once i' hi' i hi (hfd'.trans hifd.symm) (by rw [hfd']; exact natCast_ne _))
      exact ⟨fd, k, (Table.modify_of_ne hne).trans hk, hfd', by rw [Function.update_of_ne hii, hev]⟩
  · simp only [hfds]
    by_cases hne : fd = c.m_fd
    · exact ⟨i, hi, by rw [hifd, hne]⟩
    · rw [Table.modify_of_ne hne] at hk
      exact h.slot fd k hk
  · simpa only [hfds] using h.once
  · simpa only [hfds] using h.le_max

/-- **A removal frees the slot of the entry.** -/
lemma Holds.remove (h : d.Holds t) :
    (Dispatcher.remove c d).2.Holds (t.remove c.m_fd) := by
  rcases hs : d.slot c.m_fd with _ | i
  · have hfd : t.remove c.m_fd = t := by
      refine Function.update_eq_self_iff.mpr ?_
      rcases hk : t c.m_fd with _ | k
      · rfl
      · obtain ⟨i, hi, hi'⟩ := h.slot _ k hk
        exact absurd hi' (slot_eq_none hs hi)
    simpa only [Dispatcher.remove, hs, hfd] using h
  obtain ⟨hi, hifd⟩ := slot_eq_some hs
  have hfds : ∀ i', (Function.update d.m_fds i ⟨-1, 0, 0⟩ i').fd ≠ -1 → i' ≠ i := by
    rintro i' hne rfl
    rw [Function.update_self] at hne
    exact hne rfl
  simp only [Dispatcher.remove, hs]
  refine ⟨fun i' hi' => ?_, fun fd k hk => ?_, fun i₁ h₁ i₂ h₂ heq hne => ?_, h.max_lt,
    fun i' hi' hne => ?_⟩
  · simp only
    by_cases hii : i' = i
    · rw [hii, Function.update_self]
      exact Or.inl rfl
    · rw [Function.update_of_ne hii]
      refine (h.used i' hi').imp_right ?_
      rintro ⟨fd, k, hk, hfd', hev⟩
      have hne : fd ≠ c.m_fd := by
        rintro rfl
        exact hii (h.once i' hi' i hi (hfd'.trans hifd.symm) (by rw [hfd']; exact natCast_ne _))
      exact ⟨fd, k, (Table.remove_of_ne hne).trans hk, hfd', hev⟩
  · have hne : fd ≠ c.m_fd := by
      rintro rfl
      simp at hk
    rw [Table.remove_of_ne hne] at hk
    obtain ⟨i', hi', hfd'⟩ := h.slot fd k hk
    have hii : i' ≠ i := by
      rintro rfl
      exact hne (by exact_mod_cast hfd'.symm.trans hifd)
    exact ⟨i', hi', by simpa only [Function.update_of_ne hii] using hfd'⟩
  · have h₁i := hfds i₁ hne
    have h₂i := hfds i₂ (heq ▸ hne)
    simp only [Function.update_of_ne h₁i, Function.update_of_ne h₂i] at heq hne
    exact h.once i₁ h₁ i₂ h₂ heq hne
  · have hii := hfds i' hne
    simp only [Function.update_of_ne hii] at hne
    exact h.le_max i' hi' hne

end PollDispatcher

/-! ### `epoll` keeps the table in the kernel -/

def epollBit : Event → Mask
  | .read => EPOLLIN
  | .write => EPOLLOUT

namespace EpollDispatcher

lemma epollEvents_has (i : Interest) (e : Event) :
    epollEvents i &&& epollBit e ≠ 0 ↔ i.has e = true := by
  obtain ⟨r, w⟩ := i
  cases r <;> cases w <;> cases e <;> decide

variable {d : EpollDispatcher} {c : Channel} {t : Table} {j : Interest}

def Watches (d : EpollDispatcher) (fd : ℕ) (e : Event) : Prop :=
  ∃ m, d.epoll fd = some (m, fd) ∧ m &&& epollBit e ≠ 0

/-- The set is the table, and no call has failed. -/
structure Holds (d : EpollDispatcher) (t : Table) : Prop where
  epoll : ∀ fd, d.epoll fd = (t fd).map fun k => (epollEvents k, fd)
  exited : d.exited = false

lemma holds_new : new.Holds .new := ⟨fun _ => rfl, rfl⟩

lemma Holds.agrees (h : d.Holds t) : Agrees d.Watches t := by
  intro fd e
  rw [Watches, Table.Watches, h.epoll fd]
  rcases t fd with _ | k
  · simp
  · simpa using epollEvents_has k e

lemma Holds.isSome (h : d.Holds t) (fd : ℕ) : (d.epoll fd).isSome = (t fd).isSome := by
  rw [h.epoll fd, Option.isSome_map]

/-- A successful call changes the entry of its descriptor. -/
lemma Holds.update (h : d.Holds t) (fd : ℕ) (k : Option Interest) :
    Holds { d with epoll := Function.update d.epoll fd (k.map fun k => (epollEvents k, fd)) }
      (Function.update t fd k) := by
  refine ⟨fun fd' => ?_, h.exited⟩
  by_cases hne : fd' = fd
  · subst hne
    simp
  · simp only [Function.update_of_ne hne]
    exact h.epoll fd'

lemma Holds.add (h : d.Holds t) (hfd : t c.m_fd = none) :
    (Dispatcher.add c d).2.Holds (t.add c.m_fd c.interest) := by
  have hnone : (d.epoll c.m_fd).isSome = false := by rw [h.isSome, hfd, Option.isSome_none]
  simp only [Dispatcher.add, epollCtl, epoll_ctl, hnone, Bool.false_eq_true, if_false]
  exact h.update c.m_fd (some c.interest)

lemma Holds.modify (h : d.Holds t) (hfd : t c.m_fd = some j) :
    (Dispatcher.modify c d).2.Holds (t.modify c.m_fd c.interest) := by
  have hsome : (d.epoll c.m_fd).isSome = true := by rw [h.isSome, hfd, Option.isSome_some]
  have ht : t.modify c.m_fd c.interest = Function.update t c.m_fd (some c.interest) := by
    simp [Table.modify, hfd]
  simp only [Dispatcher.modify, epollCtl, epoll_ctl, hsome, if_true, ht]
  exact h.update c.m_fd (some c.interest)

lemma Holds.remove (h : d.Holds t) (hfd : t c.m_fd = some j) :
    (Dispatcher.remove c d).2.Holds (t.remove c.m_fd) := by
  have hsome : (d.epoll c.m_fd).isSome = true := by rw [h.isSome, hfd, Option.isSome_some]
  simp only [Dispatcher.remove, epollCtl, epoll_ctl, hsome, if_true]
  exact h.update c.m_fd none

/-- **A descriptor that is not in the set can be neither changed nor removed.** The process
ends. -/
lemma Holds.exits (h : d.Holds t) (hfd : t c.m_fd = none) :
    (Dispatcher.modify c d).2.exited = true ∧ (Dispatcher.remove c d).2.exited = true := by
  have hnone : (d.epoll c.m_fd).isSome = false := by rw [h.isSome, hfd, Option.isSome_none]
  simp [Dispatcher.modify, Dispatcher.remove, epollCtl, epoll_ctl, hnone]

end EpollDispatcher

end Reactor.Http
