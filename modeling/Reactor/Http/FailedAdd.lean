import Reactor.Http.DispatcherTables
import Reactor.Lib.Trace

/-!
An `EventLoop::add` that fails.

The channel is put into `m_channelMap` before the dispatcher is asked, and stays there when the
dispatcher refuses it.
-/

namespace Reactor.Http

open Lib.Watch Lib.Trace

variable {κ δ : Type*} [Dispatcher δ]

/-! ### What a dispatcher makes of a new channel -/

/-- `takes` says which channels `add` takes, and `shows` which of these are then watched, as long
as the dispatcher is in order. -/
structure AddSpec (watched : δ → Set ℕ) (ok : δ → Prop) (takes : Channel → δ → Prop)
    (shows : Channel → Prop) : Prop where
  refuse : ∀ {c d}, ¬ takes c d → Dispatcher.add c d = (-1, d)
  accept : ∀ {c d}, takes c d → (Dispatcher.add c d).1 = 0
  keep : ∀ {c d}, ok d → takes c d → ok (Dispatcher.add c d).2
  watch : ∀ {c d}, ok d → takes c d → shows c →
    watched (Dispatcher.add c d).2 = insert c.m_fd (watched d)
  hide : ∀ {c d}, ok d → takes c d → ¬ shows c → watched (Dispatcher.add c d).2 = watched d

namespace SelectDispatcher

/-- The descriptors in one of the sets that `select` is given. -/
def watched (d : SelectDispatcher) : Set ℕ := {fd | fd ∈ d.m_readSet ∨ fd ∈ d.m_writeSet}

lemma watched_new : new.watched = ∅ := by
  ext fd
  simp [watched, new]

lemma mem_watched_setFdSet {c : Channel} {d : SelectDispatcher} {fd : ℕ} :
    fd ∈ (d.setFdSet c).watched ↔ fd = c.m_fd ∧ c.interest ≠ .idle ∨ fd ∈ d.watched := by
  have hidle : c.interest ≠ .idle ↔ c.wantsRead = true ∨ c.wantsWrite = true := by
    cases hr : c.wantsRead <;> cases hw : c.wantsWrite <;>
      simp [Channel.interest, hr, hw, Interest.idle]
  rw [hidle]
  cases hr : c.wantsRead <;> cases hw : c.wantsWrite <;>
    simp [watched, setFdSet, hr, hw] <;> tauto

lemma addSpec : AddSpec watched (fun _ => True) (fun c _ => c.m_fd < m_maxSize)
    (fun c => c.interest ≠ .idle) where
  refuse hc := if_pos (Nat.not_lt.mp hc)
  accept hc := by rw [add_of_lt hc]
  keep _ _ := trivial
  watch _ hc hshows := by
    ext fd
    rw [add_of_lt hc, mem_watched_setFdSet, and_iff_left hshows, Set.mem_insert_iff]
  hide _ hc hshows := by
    ext fd
    rw [add_of_lt hc, mem_watched_setFdSet, or_iff_right fun h => hshows h.2]

end SelectDispatcher

namespace PollDispatcher

/-- The descriptors in the slots that `poll` is given. -/
def watched (d : PollDispatcher) : Set ℕ := {fd | ∃ i ≤ d.m_maxfd, (d.m_fds i).fd = fd}

/-- One of the slots is free. -/
def HasFree (d : PollDispatcher) : Prop := ∃ i < m_maxNode, (d.m_fds i).fd = -1

lemma bounded_new : new.Bounded := ⟨by decide, fun _ _ h => absurd rfl h⟩

lemma watched_new : new.watched = ∅ := by
  ext fd
  simp [watched, new, eq_comm, natCast_ne]

lemma hasFree_iff {d : PollDispatcher} : d.HasFree ↔ ∃ i, d.slot (-1) = some i := by
  constructor
  · rintro ⟨i, hi, hfree⟩
    rcases hs : d.slot (-1) with _ | i'
    · exact absurd hfree (slot_eq_none hs hi)
    · exact ⟨i', rfl⟩
  · rintro ⟨i, hs⟩
    exact ⟨i, slot_eq_some hs⟩

lemma Bounded.watched_add {d : PollDispatcher} (h : d.Bounded) {c : Channel} {i : ℕ}
    (hs : d.slot (-1) = some i) :
    (Dispatcher.add c d).2.watched = insert c.m_fd d.watched := by
  obtain ⟨hi, hfree⟩ := slot_eq_some hs
  rw [add_of_slot hs]
  ext fd
  rw [Set.mem_insert_iff]
  constructor
  · rintro ⟨i', hle, hfd⟩
    by_cases hii : i' = i
    · subst hii
      simp only [fdsWith_self] at hfd
      exact Or.inl (by exact_mod_cast hfd.symm)
    · simp only [fdsWith_of_ne hii] at hfd
      have hlt : i' < m_maxNode := Nat.lt_of_le_of_lt hle (Nat.max_lt.mpr ⟨h.maxfd_lt, hi⟩)
      exact Or.inr ⟨i', h.le_maxfd i' hlt (by rw [hfd]; exact natCast_ne fd), hfd⟩
  · rintro (rfl | ⟨i', hle, hfd⟩)
    · exact ⟨i, le_max_right _ _, by simp⟩
    · have hii : i' ≠ i := by
        rintro rfl
        exact natCast_ne fd (hfd.symm.trans hfree)
      exact ⟨i', hle.trans (le_max_left _ _), by simpa only [fdsWith_of_ne hii] using hfd⟩

lemma addSpec : AddSpec watched Bounded (fun _ d => d.HasFree) (fun _ => True) where
  refuse {c d} hfull := by
    rw [hasFree_iff] at hfull
    rcases hs : d.slot (-1) with _ | i
    · simp only [Dispatcher.add, hs]
    · exact absurd ⟨i, hs⟩ hfull
  accept hfree := by
    obtain ⟨i, hs⟩ := hasFree_iff.mp hfree
    rw [add_of_slot hs]
  keep h hfree := by
    obtain ⟨i, hs⟩ := hasFree_iff.mp hfree
    exact h.add hs
  watch h hfree _ := by
    obtain ⟨i, hs⟩ := hasFree_iff.mp hfree
    exact h.watched_add hs
  hide _ _ hshows := absurd trivial hshows

end PollDispatcher

/-! ### The loop -/

namespace EventLoop

/-- An `add` that fails leaves the map and the descriptors watched as they were. -/
def FailsUnchanged (watched : δ → Set ℕ) (p : κ) (c : Channel) (l : EventLoop κ δ) : Prop :=
  (l.add p c).1 ≠ 0 →
    (l.add p c).2.m_channelMap = l.m_channelMap ∧
      watched (l.add p c).2.m_dispatcher = watched l.m_dispatcher

omit [Dispatcher δ] in
/-- The descriptors watched are those in the map. -/
def MapsWatched (watched : δ → Set ℕ) (l : EventLoop κ δ) : Prop :=
  ∀ fd, l.m_channelMap fd ≠ none ↔ fd ∈ watched l.m_dispatcher

/-- One `add` after the other. -/
def adds (l : EventLoop κ δ) (as : List (κ × Channel)) : List ((κ × Channel) × EventLoop κ δ) :=
  path (fun l a => (l.add a.1 a.2).2) l as

variable {watched : δ → Set ℕ} {ok : δ → Prop} {takes : Channel → δ → Prop}
  {shows : Channel → Prop} {p : κ} {c : Channel} {l : EventLoop κ δ}

lemma add_mapped (h : l.m_channelMap c.m_fd ≠ none) : l.add p c = (-1, l) := if_neg h

lemma add_unmapped (h : l.m_channelMap c.m_fd = none) : l.add p c =
    ((Dispatcher.add c l.m_dispatcher).1, { l with
      m_channelMap := Function.update l.m_channelMap c.m_fd (some p)
      m_dispatcher := (Dispatcher.add c l.m_dispatcher).2 }) := if_pos h

lemma failsUnchanged_iff (spec : AddSpec watched ok takes shows) :
    l.FailsUnchanged watched p c ↔
      l.m_channelMap c.m_fd ≠ none ∨ takes c l.m_dispatcher := by
  by_cases hmap : l.m_channelMap c.m_fd = none
  swap
  · simp [FailsUnchanged, add_mapped hmap, hmap]
  rw [or_iff_right (not_not.mpr hmap), FailsUnchanged, add_unmapped hmap]
  constructor
  · intro h
    by_contra htakes
    have hret : (Dispatcher.add c l.m_dispatcher).1 ≠ 0 := by
      rw [spec.refuse htakes]
      simp
    have hself := congrFun (h hret).1 c.m_fd
    simp [hmap] at hself
  · intro htakes hret
    exact absurd (spec.accept htakes) hret

/-- The adds that keep the map and the dispatcher together. -/
def Follows (takes : Channel → δ → Prop) (shows : Channel → Prop) (l : EventLoop κ δ)
    (c : Channel) : Prop :=
  l.m_channelMap c.m_fd ≠ none ∨ takes c l.m_dispatcher ∧ shows c

omit [Dispatcher δ] in
lemma MapsWatched.not_mem (h : l.MapsWatched watched) {fd : ℕ} (hmap : l.m_channelMap fd = none) :
    fd ∉ watched l.m_dispatcher := fun hw => (h fd).mpr hw hmap

lemma MapsWatched.add (spec : AddSpec watched ok takes shows) (h : l.MapsWatched watched)
    (hok : ok l.m_dispatcher) (hc : l.Follows takes shows c) :
    (l.add p c).2.MapsWatched watched ∧ ok (l.add p c).2.m_dispatcher := by
  by_cases hmap : l.m_channelMap c.m_fd = none
  swap
  · rw [add_mapped hmap]
    exact ⟨h, hok⟩
  obtain ⟨htakes, hshows⟩ := hc.resolve_left (not_not.mpr hmap)
  rw [add_unmapped hmap]
  refine ⟨fun fd => ?_, spec.keep hok htakes⟩
  rw [spec.watch hok htakes hshows, Set.mem_insert_iff]
  by_cases hne : fd = c.m_fd
  · simp [hne]
  · simp only [Function.update_of_ne hne, hne, false_or]
    exact h fd

/-- **A channel that is refused, or that the dispatcher does not show, is in the map only.** -/
lemma MapsWatched.not_add (spec : AddSpec watched ok takes shows) (h : l.MapsWatched watched)
    (hok : ok l.m_dispatcher) (hc : ¬ l.Follows takes shows c) :
    ¬ (l.add p c).2.MapsWatched watched := by
  obtain ⟨hmap, hrest⟩ := not_or.mp hc
  rw [not_not] at hmap
  have hsame : watched (Dispatcher.add c l.m_dispatcher).2 = watched l.m_dispatcher := by
    by_cases htakes : takes c l.m_dispatcher
    · exact spec.hide hok htakes fun hshows => hrest ⟨htakes, hshows⟩
    · rw [spec.refuse htakes]
  rw [add_unmapped hmap]
  intro hnext
  have hwatched := (hnext c.m_fd).mp (by simp)
  rw [hsame] at hwatched
  exact h.not_mem hmap hwatched

lemma always_mapsWatched_iff (spec : AddSpec watched ok takes shows) {d : δ} (hok : ok d)
    (hnew : watched d = ∅) (as : List (κ × Channel)) :
    Always (MapsWatched watched) (new d) (adds (new d) as) ↔
      Chain (fun l a _ => l.Follows takes shows a.2) (new d) (adds (new d) as) := by
  let Inv (l : EventLoop κ δ) : Prop := l.MapsWatched watched ∧ ok l.m_dispatcher
  have h0 : Inv (new d) := by
    refine ⟨fun fd => ?_, hok⟩
    simp [new, hnew]
  have keep : ∀ (l : EventLoop κ δ) (a : κ × Channel), Inv l → l.Follows takes shows a.2 →
      Inv (l.add a.1 a.2).2 := fun l a hl hc => hl.1.add spec hl.2 hc
  have brk : ∀ (l : EventLoop κ δ) (a : κ × Channel), Inv l → ¬ l.Follows takes shows a.2 →
      ¬ (l.add a.1 a.2).2.MapsWatched watched := fun l a hl hc => hl.1.not_add spec hl.2 hc
  exact always_path_iff (fun l hl => hl.1) keep brk h0 as

/-- **When a failed `add` does no harm.** The map and what is watched stay as they were exactly
when the descriptor is in the map already or the dispatcher has room for it: below 1024 with
`select`, a free slot with `poll`. In a run of adds the two stay together exactly when every add
is such, and asks for some event where it is for `select`. -/
theorem failed_add_iff :
    ((∀ (l : EventLoop κ SelectDispatcher) (p : κ) (c : Channel),
        l.FailsUnchanged SelectDispatcher.watched p c ↔
          l.m_channelMap c.m_fd ≠ none ∨ c.m_fd < SelectDispatcher.m_maxSize) ∧
      ∀ as : List (κ × Channel),
        Always (MapsWatched SelectDispatcher.watched) (new .new)
            (adds (new SelectDispatcher.new) as) ↔
          Chain (fun l a _ => l.m_channelMap a.2.m_fd ≠ none ∨
              a.2.m_fd < SelectDispatcher.m_maxSize ∧ a.2.interest ≠ .idle)
            (new .new) (adds (new SelectDispatcher.new) as)) ∧
    (∀ (l : EventLoop κ PollDispatcher) (p : κ) (c : Channel),
        l.FailsUnchanged PollDispatcher.watched p c ↔
          l.m_channelMap c.m_fd ≠ none ∨ l.m_dispatcher.HasFree) ∧
      ∀ as : List (κ × Channel),
        Always (MapsWatched PollDispatcher.watched) (new .new)
            (adds (new PollDispatcher.new) as) ↔
          Chain (fun l a _ => l.m_channelMap a.2.m_fd ≠ none ∨ l.m_dispatcher.HasFree)
            (new .new) (adds (new PollDispatcher.new) as) := by
  refine ⟨⟨fun l p c => ?_, fun as => ?_⟩, fun l p c => ?_, fun as => ?_⟩
  · exact failsUnchanged_iff SelectDispatcher.addSpec
  · exact always_mapsWatched_iff SelectDispatcher.addSpec trivial SelectDispatcher.watched_new as
  · exact failsUnchanged_iff PollDispatcher.addSpec
  · have h := always_mapsWatched_iff PollDispatcher.addSpec PollDispatcher.bounded_new
      PollDispatcher.watched_new as
    simpa only [Follows, and_true] using h

/-- A channel for the descriptor 1024 is in the map after its `add` has failed, and `select` does
not watch it. -/
theorem not_failed_add :
    ¬ ((new .new : EventLoop Unit SelectDispatcher).FailsUnchanged SelectDispatcher.watched ()
        ⟨1024, FDEvent.ReadEvent⟩) ∧
      ¬ Always (MapsWatched SelectDispatcher.watched) (new .new)
        (adds (new .new) [((), ⟨1024, FDEvent.ReadEvent⟩)]) := by
  constructor
  · rw [failsUnchanged_iff SelectDispatcher.addSpec]
    simp [new, SelectDispatcher.m_maxSize]
  · rw [always_mapsWatched_iff SelectDispatcher.addSpec trivial SelectDispatcher.watched_new]
    simp [adds, path, Follows, new, SelectDispatcher.m_maxSize]

end EventLoop

end Reactor.Http
