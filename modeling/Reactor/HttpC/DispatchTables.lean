import Reactor.HttpC.Dispatch

/-!
What each dispatcher of the C server makes of a table of interests, and which callbacks it calls.

`poll` uses one slot only, so it follows a table of one entry. The sets of `select` are cleared
again after they have been set, and are searched for the wrong events. `epoll` keeps the table in
the kernel.
-/

namespace Reactor.HttpC

open Lib.Watch
open Reactor.Http (POLLIN POLLOUT PollFd pollEvents)

/-! ### The calls for a descriptor -/

lemma mem_activations {fd fd' : ℕ} {i : Interest} {e : Event} :
    (fd, e) ∈ activations fd' i ↔ fd = fd' ∧ i.has e = true := by
  obtain ⟨r, w⟩ := i
  cases r <;> cases w <;> cases e <;> simp [activations, Interest.has]

lemma nodup_activations (fd : ℕ) (i : Interest) : (activations fd i).Nodup := by
  obtain ⟨r, w⟩ := i
  cases r <;> cases w <;> simp [activations]

/-- Each pair of a watched descriptor and an event it is ready for is activated once. -/
def ActivatesReady (calls : List (ℕ × Event)) (t : Table) (ready : Ready) : Prop :=
  calls.Nodup ∧ ∀ fd e, (fd, e) ∈ calls ↔ t.Watches fd e ∧ ready fd e = true

/-! ### `poll` uses its first slot -/

namespace PollData

variable {d : PollData} {c : Channel} {t : Table} {j : Interest}

/-- The slots up to `Maxfd` are the entries of the table. -/
def Contains (d : PollData) (t : Table) : Prop :=
  ∀ (fd : ℕ) ev, (∃ i ≤ d.Maxfd, (d._fds i).fd = fd ∧ (d._fds i).events = ev) ↔
    ∃ k, t fd = some k ∧ ev = pollEvents k

/-- The table has one entry at most, which the first slot holds. -/
structure Sole (d : PollData) (t : Table) : Prop where
  rest : ∀ i ≠ 0, (d._fds i).fd = -1
  first : ((d._fds 0).fd = -1 ∧ t = .new) ∨
    ∃ (fd : ℕ) (k : Interest), (d._fds 0).fd = fd ∧ (d._fds 0).events = pollEvents k ∧
      t = Table.new.add fd k

lemma natCast_ne (fd : ℕ) : (fd : ℤ) ≠ -1 := by omega

lemma slot_isSome_iff {fd : ℤ} : (d.slot fd).isSome ↔ ∃ i < MAX, (d._fds i).fd = fd := by
  unfold slot
  simp

lemma sole_init : pollinit.Sole .new := ⟨fun _ _ => rfl, Or.inl ⟨rfl, rfl⟩⟩

/-- An entry of the table is its only one, and in the first slot. -/
lemma Sole.entry (h : d.Sole t) {fd : ℕ} (hfd : t fd = some j) :
    t = Table.new.add fd j ∧ (d._fds 0).fd = fd ∧ (d._fds 0).events = pollEvents j := by
  rcases h.first with ⟨-, rfl⟩ | ⟨fd', k, hfd', hev, rfl⟩
  · cases hfd
  · by_cases hne : fd = fd'
    · subst hne
      obtain rfl := Option.some.inj (hfd.symm.trans Table.add_self)
      exact ⟨rfl, hfd', hev⟩
    · rw [Table.add_of_ne hne] at hfd
      cases hfd

/-- A slot with a descriptor is the first, and the descriptor is in the table. -/
lemma Sole.of_slot (h : d.Sole t) {i fd : ℕ} (hi : (d._fds i).fd = fd) :
    i = 0 ∧ ∃ k, t fd = some k := by
  obtain rfl : i = 0 := by
    by_contra hne
    exact natCast_ne fd (hi.symm.trans (h.rest i hne))
  rcases h.first with ⟨hfree, -⟩ | ⟨fd', k, hfd', -, rfl⟩
  · exact absurd (hi.symm.trans hfree) (natCast_ne fd)
  · obtain rfl : fd = fd' := by exact_mod_cast hi.symm.trans hfd'
    exact ⟨rfl, k, Table.add_self⟩

lemma Sole.contains (h : d.Sole t) : d.Contains t := by
  intro fd ev
  constructor
  · rintro ⟨i, -, hfd, rfl⟩
    obtain ⟨rfl, k, hk⟩ := h.of_slot hfd
    exact ⟨k, hk, (h.entry hk).2.2⟩
  · rintro ⟨k, hk, rfl⟩
    exact ⟨0, Nat.zero_le _, (h.entry hk).2⟩

/-- The first slot takes another descriptor or other events. -/
lemma Sole.update (h : d.Sole t) {p : PollFd} {t' : Table} {n : ℕ}
    (hp : (p.fd = -1 ∧ t' = .new) ∨ ∃ (fd : ℕ) (k : Interest), p.fd = fd ∧
      p.events = pollEvents k ∧ t' = Table.new.add fd k) :
    Sole ⟨n, Function.update d._fds 0 p⟩ t' := by
  refine ⟨fun i hi => ?_, ?_⟩
  · simpa only [Function.update_of_ne hi] using h.rest i hi
  · simpa only [Function.update_self] using hp

/-- The second slot is free, so there is always a slot to be found. -/
lemma Sole.add_eq (h : d.Sole t) : ∃ n, Dispatcher.add c d = ⟨n, Function.update d._fds 0
    { d._fds 0 with fd := c._fd, events := pollEvents c.interest }⟩ := by
  have hfree : (d.slot (-1)).isSome := slot_isSome_iff.mpr ⟨1, by decide, h.rest 1 (by decide)⟩
  obtain ⟨i, hi⟩ := Option.isSome_iff_exists.mp hfree
  refine ⟨if i > d.Maxfd then i else d.Maxfd, ?_⟩
  simp only [Dispatcher.add, hi]

lemma Sole.add (h : d.Sole t) :
    (Dispatcher.add c d).Sole (Table.new.add c._fd c.interest) := by
  obtain ⟨n, hn⟩ := h.add_eq (c := c)
  rw [hn]
  exact h.update (Or.inr ⟨c._fd, c.interest, rfl, rfl, rfl⟩)

/-- **A second entry takes the slot of the first.** -/
lemma Sole.not_contains_add (h : d.Sole t) (hc : t c._fd = none) (ht : t ≠ .new) :
    ¬ (Dispatcher.add c d).Contains (t.add c._fd c.interest) := by
  obtain ⟨fd, k, -, -, rfl⟩ := h.first.resolve_left fun hf => ht hf.2
  have hne : fd ≠ c._fd := by
    rintro rfl
    simp at hc
  intro hall
  obtain ⟨i, -, hfd, -⟩ := (hall fd (pollEvents k)).mpr
    ⟨k, (Table.add_of_ne hne).trans Table.add_self, rfl⟩
  obtain ⟨-, k', hk'⟩ := h.add.of_slot hfd
  rw [Table.add_of_ne hne] at hk'
  cases hk'

/-- The slot of a descriptor is found if it is in the table. -/
lemma Sole.slot_isSome (h : d.Sole t) {fd : ℕ} : (d.slot fd).isSome ↔ (t fd).isSome := by
  rw [slot_isSome_iff]
  constructor
  · rintro ⟨i, -, hi⟩
    obtain ⟨-, k, hk⟩ := h.of_slot hi
    rw [hk, Option.isSome_some]
  · intro hsome
    obtain ⟨k, hk⟩ := Option.isSome_iff_exists.mp hsome
    exact ⟨0, by decide, (h.entry hk).2.1⟩

lemma Sole.modify (h : d.Sole t) (hc : t c._fd = some j) :
    (Dispatcher.modify c d).Sole (t.modify c._fd c.interest) := by
  obtain ⟨i, hi⟩ := Option.isSome_iff_exists.mp (h.slot_isSome.mpr (by rw [hc]; rfl))
  obtain ⟨ht, hfd, -⟩ := h.entry hc
  have htable : t.modify c._fd c.interest = Table.new.add c._fd c.interest := by
    rw [ht]
    simp [Table.modify, Table.add]
  simp only [Dispatcher.modify, hi]
  exact h.update (Or.inr ⟨c._fd, c.interest, hfd, rfl, htable⟩)

lemma Sole.remove (h : d.Sole t) : (Dispatcher.remove c d).Sole (t.remove c._fd) := by
  cases hc : t c._fd with
  | none =>
    have hnone : d.slot c._fd = none := by
      rw [← Option.not_isSome_iff_eq_none, h.slot_isSome, hc]
      simp
    have htable : t.remove c._fd = t := Function.update_eq_self_iff.mpr hc.symm
    simpa only [Dispatcher.remove, hnone, htable] using h
  | some j =>
    obtain ⟨i, hi⟩ := Option.isSome_iff_exists.mp (h.slot_isSome.mpr (by rw [hc]; rfl))
    have htable : t.remove c._fd = .new := by
      rw [(h.entry hc).1]
      simp [Table.remove, Table.add, Table.new]
    simp only [Dispatcher.remove, hi]
    exact h.update (Or.inl ⟨rfl, htable⟩)

/-! What is dispatched. -/

variable {ready : Ready}

lemma revents_has {p : PollFd} {fd : ℕ} (hfd : p.fd = fd) (hev : p.events = pollEvents j) :
    (⟨revents ready p &&& POLLIN ≠ 0, revents ready p &&& POLLOUT ≠ 0⟩ : Interest) =
      ⟨j.read && ready fd .read, j.write && ready fd .write⟩ := by
  have hnonneg : ¬ (fd : ℤ) < 0 := by omega
  rw [revents, hfd, if_neg hnonneg, hev, Int.toNat_natCast]
  obtain ⟨r, w⟩ := j
  cases r <;> cases w <;> cases ready fd .read <;> cases ready fd .write <;> decide

/-- A slot without events is not called back. -/
lemma activate_zero {p : PollFd} (h : p.revents = 0) : activate p = [] := by
  unfold activate activations
  split_ifs <;> simp_all

/-- The slots after the first have no events, so the loop ends before them, if it begins. -/
lemma Sole.polldispatch_eq (h : d.Sole t) : (d.polldispatch ready).1 =
    activate { d._fds 0 with revents := revents ready (d._fds 0) } := by
  have hrest : ∀ i ≠ 0, revents ready (d._fds i) = 0 := by
    intro i hi
    rw [revents, h.rest i hi]
    rfl
  have hcount : (d.poll ready).1 = if revents ready (d._fds 0) ≠ 0 then 1 else 0 := by
    simp only [poll, List.range_succ_eq_map, List.countP_cons, List.countP_map]
    rw [List.countP_eq_zero.mpr, Nat.zero_add]
    · simp
    · intro i hi
      have hle : i + 1 ≤ d.Maxfd := List.mem_range.mp hi
      simp [hle, hrest (i + 1) (Nat.succ_ne_zero i)]
  have hfirst : (d.poll ready).2._fds 0 =
      { d._fds 0 with revents := revents ready (d._fds 0) } := by
    simp [poll]
  simp only [polldispatch, hcount]
  split_ifs with hev
  · simp [hfirst]
  · rw [activate_zero (by simpa using hev)]
    rfl

/-- **With one entry `poll` calls back what is ready.** -/
lemma Sole.activates (h : d.Sole t) : ActivatesReady (d.polldispatch ready).1 t ready := by
  rw [h.polldispatch_eq]
  rcases h.first with ⟨hfree, rfl⟩ | ⟨fd, k, hfd, hev, rfl⟩
  · rw [activate, if_pos hfree]
    exact ⟨List.nodup_nil, fun fd e => by simp [Table.Watches, Table.new]⟩
  · have hne : (d._fds 0).fd ≠ -1 := by
      rw [hfd]
      exact natCast_ne fd
    rw [activate, if_neg hne, hfd, Int.toNat_natCast, revents_has hfd hev]
    refine ⟨nodup_activations _ _, fun fd' e => ?_⟩
    rw [mem_activations]
    by_cases heq : fd' = fd
    · subst heq
      rw [Table.watches_of_some Table.add_self]
      cases e <;> simp [Interest.has]
    · have hnone : (Table.new.add fd k) fd' = none := Table.add_of_ne heq
      simp [heq, Table.not_watches_of_none hnone]

lemma Sole.polldispatch (h : d.Sole t) : (d.polldispatch ready).2.Sole t := by
  have hfds : ∀ i, ((d.polldispatch ready).2._fds i).fd = (d._fds i).fd ∧
      ((d.polldispatch ready).2._fds i).events = (d._fds i).events := by
    intro i
    simp only [PollData.polldispatch, poll]
    split_ifs <;> exact ⟨rfl, rfl⟩
  refine ⟨fun i hi => (hfds i).1.trans (h.rest i hi), ?_⟩
  rw [(hfds 0).1, (hfds 0).2]
  exact h.first

end PollData

/-! ### `select` follows the table as two sets -/

namespace SelectData

variable {d : SelectData} {c : Channel} {t : Table} {j : Interest} {ready : Ready}

def sets (d : SelectData) : FdSets := ⟨d._readset, d._writeset⟩

def Watches (d : SelectData) : ℕ → Event → Prop := d.sets.Watches

lemma sets_setFdSet : (d.setFdSet c).sets = d.sets.set c._fd c.interest := rfl
lemma sets_clearFdSet : (d.clearFdSet c).sets = d.sets.clear c._fd c.interest := rfl

lemma watches_add (hlt : c._fd < MAX) {fd : ℕ} {e : Event} :
    (Dispatcher.add c d).Watches fd e ↔ d.Watches fd e ∨ fd = c._fd ∧ c.interest.has e = true := by
  have hadd : Dispatcher.add c d = d.setFdSet c := if_neg (Nat.not_le.mpr hlt)
  rw [hadd, Watches, sets_setFdSet]
  exact FdSets.watches_set

lemma watches_remove {fd : ℕ} {e : Event} : (Dispatcher.remove c d).Watches fd e ↔
    d.Watches fd e ∧ ¬ (fd = c._fd ∧ c.interest.has e = true) := by
  have hrem : Dispatcher.remove c d = d.clearFdSet c := rfl
  rw [hrem, Watches, sets_clearFdSet]
  exact FdSets.watches_clear

lemma watches_modify {fd : ℕ} {e : Event} : (Dispatcher.modify c d).Watches fd e ↔
    d.Watches fd e ∧ ¬ (fd = c._fd ∧ c.interest.has e = true) := by
  have hmod : Dispatcher.modify c d = (d.setFdSet c).clearFdSet c := rfl
  rw [hmod, Watches, sets_clearFdSet, sets_setFdSet]
  exact FdSets.watches_set_clear

lemma agrees_modify_iff (h : Agrees d.Watches t) (hfd : t c._fd = some j) :
    Agrees (Dispatcher.modify c d).Watches (t.modify c._fd c.interest) ↔
      j = .idle ∧ c.interest = .idle :=
  FdSets.agrees_set_clear_iff (i := c.interest) h hfd

/-- The event `select` is asked about in the place of another. -/
def asked : Event → Event
  | .read => .write
  | .write => .read

/-- **What is dispatched are the descriptors watched for an event and ready for the other.** -/
lemma mem_selectdispatch {fd : ℕ} {e : Event} : (fd, e) ∈ d.selectdispatch ready ↔
    fd < MAX ∧ d.Watches fd e ∧ ready fd (asked e) = true := by
  simp only [selectdispatch, select, List.mem_flatMap, List.mem_range, mem_activations]
  constructor
  · rintro ⟨i, hi, rfl, he⟩
    refine ⟨hi, ?_⟩
    cases e <;> simpa [Interest.has, Watches, sets, FdSets.Watches, asked] using he
  · rintro ⟨hi, he⟩
    refine ⟨fd, hi, rfl, ?_⟩
    cases e <;> simpa [Interest.has, Watches, sets, FdSets.Watches, asked] using he

lemma nodup_selectdispatch : (d.selectdispatch ready).Nodup := by
  simp only [selectdispatch, select]
  refine List.nodup_flatMap.mpr ⟨fun i _ => nodup_activations _ _, ?_⟩
  refine List.Nodup.pairwise_of_forall_ne List.nodup_range fun i _ i' _ hne => ?_
  rintro ⟨fd, e⟩ h h'
  exact hne ((mem_activations.mp h).1.symm.trans (mem_activations.mp h').1)

end SelectData

/-! ### `epoll` keeps the table in the kernel -/

namespace EpollData

open Http.EpollDispatcher (epollEvents)

variable {d : EpollData} {c : Channel} {t : Table} {j : Interest}

lemma epollEvents_inj {i j : Interest} (h : epollEvents i = epollEvents j) : i = j := by
  refine Interest.ext_has fun e => Bool.eq_iff_iff.mpr ?_
  rw [← Http.EpollDispatcher.epollEvents_has, ← Http.EpollDispatcher.epollEvents_has, h]

/-- The set is the table. -/
def Contains (d : EpollData) (t : Table) : Prop :=
  ∀ fd, d.epoll fd = (t fd).map fun k => (epollEvents k, fd)

lemma Contains.isSome (h : d.Contains t) (fd : ℕ) : (d.epoll fd).isSome = (t fd).isSome := by
  rw [h fd, Option.isSome_map]

/-- A successful call changes the entry of its descriptor. -/
lemma Contains.update (h : d.Contains t) (fd : ℕ) (k : Option Interest) :
    Contains { d with epoll := Function.update d.epoll fd (k.map fun k => (epollEvents k, fd)) }
      (Function.update t fd k) := by
  intro fd'
  by_cases hne : fd' = fd
  · subst hne
    simp
  · simp only [Function.update_of_ne hne]
    exact h fd'

lemma Contains.add (h : d.Contains t) (hfd : t c._fd = none) :
    (Dispatcher.add c d).Contains (t.add c._fd c.interest) ∧
      (Dispatcher.add c d).exited = d.exited := by
  have hnone : (d.epoll c._fd).isSome = false := by rw [h.isSome, hfd, Option.isSome_none]
  simp only [Dispatcher.add, epollctl, epoll_ctl, hnone, Bool.false_eq_true, if_false]
  exact ⟨h.update c._fd (some c.interest), trivial⟩

lemma Contains.modify (h : d.Contains t) (hfd : t c._fd = some j) :
    (Dispatcher.modify c d).Contains (t.modify c._fd c.interest) ∧
      (Dispatcher.modify c d).exited = d.exited := by
  have hsome : (d.epoll c._fd).isSome = true := by rw [h.isSome, hfd, Option.isSome_some]
  have ht : t.modify c._fd c.interest = Function.update t c._fd (some c.interest) := by
    simp [Table.modify, hfd]
  simp only [Dispatcher.modify, epollctl, epoll_ctl, hsome, if_true, ht]
  exact ⟨h.update c._fd (some c.interest), trivial⟩

lemma Contains.remove (h : d.Contains t) (hfd : t c._fd = some j) :
    (Dispatcher.remove c d).Contains (t.remove c._fd) ∧
      (Dispatcher.remove c d).exited = d.exited := by
  have hsome : (d.epoll c._fd).isSome = true := by rw [h.isSome, hfd, Option.isSome_some]
  simp only [Dispatcher.remove, epollctl, epoll_ctl, hsome, if_true]
  exact ⟨h.update c._fd none, trivial⟩

/-- **A descriptor that is not in the set can be neither changed nor removed.** The process
ends. -/
lemma Contains.exits (h : d.Contains t) (hfd : t c._fd = none) :
    Dispatcher.modify c d = { d with exited := true } ∧
      Dispatcher.remove c d = { d with exited := true } := by
  have hnone : (d.epoll c._fd).isSome = false := by rw [h.isSome, hfd, Option.isSome_none]
  simp [Dispatcher.modify, Dispatcher.remove, epollctl, epoll_ctl, hnone]

end EpollData

end Reactor.HttpC
