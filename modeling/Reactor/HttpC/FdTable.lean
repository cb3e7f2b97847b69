import Reactor.HttpC.EventLoop
import Reactor.Lib.Trace

/-!
The table of channels as a map from descriptors to channels.

The words of a new block should be `NULL`, the table should grow past any descriptor, and the
slot of a descriptor should hold the channel added for it until that is destroyed. The source
leaves new words as they are, does not grow for a descriptor equal to the size, and grows too
little for one that is a doubling of it.
-/

namespace Reactor.HttpC

open Lib.Trace

/-! ### Growth -/

/-- The size doubles until it reaches the descriptor, and not further. -/
lemma doubled_spec {rounds cursize newsize : ℕ} (h : newsize ≤ cursize * 2 ^ rounds) :
    ∃ k, doubled rounds cursize newsize = cursize * 2 ^ k ∧ newsize ≤ cursize * 2 ^ k ∧
      ∀ j < k, cursize * 2 ^ j < newsize := by
  induction rounds generalizing cursize with
  | zero => exact ⟨0, by simp [doubled], h, fun j hj => absurd hj (Nat.not_lt_zero j)⟩
  | succ rounds ih =>
    unfold doubled
    split_ifs with hlt
    · have hrest : newsize ≤ cursize * 2 * 2 ^ rounds := by
        rw [Nat.mul_assoc, ← Nat.pow_succ']
        exact h
      obtain ⟨k, hk, hle, hmin⟩ := ih hrest
      rw [Nat.mul_assoc, ← Nat.pow_succ'] at hk hle
      refine ⟨k + 1, hk, hle, fun j hj => ?_⟩
      rcases j with _ | j
      · simpa using hlt
      · have := hmin j (by omega)
        rwa [Nat.mul_assoc, ← Nat.pow_succ'] at this
    · exact ⟨0, by simp, by simpa using hlt, fun j hj => absurd hj (Nat.not_lt_zero j)⟩

/-- There are rounds enough. -/
lemma le_doubled {cursize newsize : ℕ} (h : 0 < cursize) :
    newsize ≤ doubled newsize cursize newsize := by
  have hlt : newsize < 2 ^ newsize := Nat.lt_two_pow_self
  have hpow : 2 ^ newsize ≤ cursize * 2 ^ newsize := Nat.le_mul_of_pos_left _ h
  have hrounds : newsize ≤ cursize * 2 ^ newsize := by omega
  obtain ⟨k, hk, hle, -⟩ := doubled_spec hrounds
  omega

/-- **The size comes out equal to the descriptor exactly for a doubling of the old size.** -/
lemma doubled_eq_iff {cursize newsize : ℕ} (h : 0 < cursize) :
    doubled newsize cursize newsize = newsize ↔ ∃ k, newsize = cursize * 2 ^ k := by
  have hlt : newsize < 2 ^ newsize := Nat.lt_two_pow_self
  have hpow : 2 ^ newsize ≤ cursize * 2 ^ newsize := Nat.le_mul_of_pos_left _ h
  have hrounds : newsize ≤ cursize * 2 ^ newsize := by omega
  obtain ⟨k, hk, hle, hmin⟩ := doubled_spec hrounds
  refine ⟨fun he => ⟨k, by omega⟩, ?_⟩
  rintro ⟨j, hj⟩
  rw [hk]
  have hkj : k ≤ j := by
    by_contra hjk
    have := hmin j (by omega)
    omega
  have : cursize * 2 ^ k ≤ cursize * 2 ^ j :=
    Nat.mul_le_mul_left _ (Nat.pow_le_pow_right (by omega) hkj)
  omega

/-- Clearing nothing. -/
lemma memset_zero (list : List ℕ) (i : ℕ) : memset list i 0 = list := by
  simp [memset]

lemma length_realloc {list : List ℕ} {size : ℕ} (mem : ℕ → ℕ) (h : list.length ≤ size) :
    (realloc list size mem).length = size := by
  simp only [realloc, List.length_append, List.length_take, List.length_map, List.length_drop,
    List.length_range]
  omega

/-- The old words stay, and the new ones are what the memory held. -/
lemma getElem?_realloc {list : List ℕ} {size : ℕ} (mem : ℕ → ℕ) (h : list.length ≤ size)
    (i : ℕ) :
    (realloc list size mem)[i]? =
      if i < list.length then list[i]? else if i < size then some (mem i) else none := by
  rw [realloc, List.take_of_length_le h]
  split_ifs with hold hnew
  · rw [List.getElem?_append_left hold]
  · rw [List.getElem?_append_right (by omega), List.getElem?_map, List.getElem?_drop,
      List.getElem?_range (by omega)]
    simp only [Option.map_some, Option.some.injEq]
    congr 1
    omega
  · rw [List.getElem?_eq_none]
    simp only [List.length_append, List.length_map, List.length_drop, List.length_range]
    omega

namespace ChannelMap

/-- The channel in the slot of a descriptor. -/
def entry (fd : ℕ) (map : ChannelMap) : Option ℕ :=
  map._list[fd]?.bind fun p => if p = NULL then none else some p

/-- The block has `_size` words, and there are some. -/
structure WellFormed (map : ChannelMap) : Prop where
  length : map._list.length = map._size
  pos : 0 < map._size

variable {map : ChannelMap} {fd p : ℕ}

lemma entry_eq_none (h : map._list[fd]? = some NULL) : map.entry fd = none := by
  simp [entry, h]

lemma entry_eq_some (h : map._list[fd]? = some p) (hp : p ≠ NULL) : map.entry fd = some p := by
  simp [entry, h, hp]

lemma entry_outside (h : map._list.length ≤ fd) : map.entry fd = none := by
  simp [entry, List.getElem?_eq_none h]

end ChannelMap

/-! ### What the table is for -/

/-- A dispatcher that records what is added. -/
instance : Dispatcher (List Channel) where
  add c d := d ++ [c]
  remove _ d := d
  modify _ d := d

/-- The channel added for each descriptor and not destroyed, and all that were added. -/
structure Registry where
  current : ℕ → Option ℕ
  added : List Channel

namespace Registry

def new : Registry := ⟨fun _ => none, []⟩

/-- A channel is added for a descriptor without one. -/
def add (c : Channel) (r : Registry) : Registry :=
  if r.current c._fd = none then
    { current := Function.update r.current c._fd (some c.ptr), added := r.added ++ [c] }
  else r

def destroy (c : Channel) (r : Registry) : Registry :=
  if r.current c._fd = some c.ptr then
    { r with current := Function.update r.current c._fd none }
  else r

end Registry

inductive TableAct
  /-- an `AddEventLoop`, with what the memory holds that it may allocate -/
  | add (c : Channel) (mem : ℕ → ℕ)
  | destroy (c : Channel)

/-- The loop beside the registry. -/
structure TableSys where
  loop : EventLoop (List Channel)
  registry : Registry

namespace TableSys

def init (size : ℕ) (mem : ℕ → ℕ) : TableSys := ⟨.init size mem [], .new⟩

def step (s : TableSys) : TableAct → TableSys
  | .add c mem => ⟨s.loop.AddEventLoop mem c, s.registry.add c⟩
  | .destroy c => ⟨s.loop.destroyChannel c, s.registry.destroy c⟩

/-- The table is accessed inside only, each slot holds the channel added for its descriptor and
not destroyed, and what was added is registered with the dispatcher. -/
structure Total (s : TableSys) : Prop where
  inside : s.loop.outside = false
  entry : ∀ fd, s.loop._channelmap.entry fd = s.registry.current fd
  registered : s.loop.disepatherData = s.registry.added

/-- A channel is added below the size; or past it, where the size does not double to the
descriptor and the memory happens to hold `NULL` in every new slot. A channel is destroyed below
the size, with no other in its slot. -/
def InOrder (s : TableSys) : TableAct → Prop
  | .add c mem => c._fd < s.loop._channelmap._size ∨
      (s.loop._channelmap._size < c._fd ∧ (∀ k, c._fd ≠ s.loop._channelmap._size * 2 ^ k) ∧
        ∀ i, s.loop._channelmap._size ≤ i →
          i < doubled c._fd s.loop._channelmap._size c._fd → mem i = NULL)
  | .destroy c => c._fd < s.loop._channelmap._size ∧
      (s.loop._channelmap.entry c._fd = none ∨ s.loop._channelmap.entry c._fd = some c.ptr)

end TableSys

/-! ### The parts of `AddEventLoop` -/

namespace EventLoop

section

variable {δ : Type*} [Dispatcher δ] {l : EventLoop δ} {c : Channel} {mem : ℕ → ℕ}

/-- The second part of `AddEventLoop`, where the channel is put into its slot. -/
def place (c : Channel) (l : EventLoop δ) : EventLoop δ :=
  match l.word c._fd with
  | none => { l with outside := true }
  | some p =>
    if p = NULL then
      { l.store c._fd c.ptr with disepatherData := Dispatcher.add c l.disepatherData }
    else l

/-- The loop with a table grown for the descriptor `fd`. -/
def grown (mem : ℕ → ℕ) (fd : ℕ) (l : EventLoop δ) : EventLoop δ :=
  { l with
    _channelmap :=
      { _size := doubled fd l._channelmap._size fd
        _list := realloc l._channelmap._list (doubled fd l._channelmap._size fd) mem } }

lemma AddEventLoop_eq :
    l.AddEventLoop mem c =
      if c._fd < l._channelmap._size then l.place c
      else if l._channelmap._size < c._fd then (l.grown mem c._fd).place c
      else l := by
  simp only [AddEventLoop, ChannelMapAddROM, Nat.sub_self, memset_zero]
  rcases lt_trichotomy c._fd l._channelmap._size with hlt | heq | hgt
  · have hge : ¬ c._fd ≥ l._channelmap._size := by omega
    simp only [if_neg hge, if_pos hlt, Bool.not_true, Bool.false_eq_true, if_false]
    rfl
  · have hge : c._fd ≥ l._channelmap._size := by omega
    have hgt : ¬ l._channelmap._size < c._fd := by omega
    have hlt : ¬ c._fd < l._channelmap._size := by omega
    simp only [if_pos hge, if_neg hgt, if_neg hlt, Bool.not_false, if_true]
  · have hge : c._fd ≥ l._channelmap._size := by omega
    have hlt : ¬ c._fd < l._channelmap._size := by omega
    simp only [if_pos hge, if_pos hgt, if_neg hlt, Bool.not_true, Bool.false_eq_true, if_false]
    rfl

end

variable {l : EventLoop (List Channel)} {r : Registry} {c : Channel} {mem : ℕ → ℕ} {fd : ℕ}

/-- The slots after a store. -/
lemma entry_store (hwf : l._channelmap.WellFormed) {p : ℕ} (hfd : fd < l._channelmap._size)
    (fd' : ℕ) :
    (l.store fd p)._channelmap.entry fd' =
      if fd' = fd then (if p = NULL then none else some p) else l._channelmap.entry fd' := by
  have hlen := hwf.length
  split_ifs with hne hp
  · exact ChannelMap.entry_eq_none (by simp [store, hne, hp, hlen, hfd])
  · exact ChannelMap.entry_eq_some (by simp [store, hne, hlen, hfd]) hp
  · simp only [ChannelMap.entry, store, List.getElem?_set_ne (Ne.symm hne)]

lemma wellFormed_store (hwf : l._channelmap.WellFormed) (fd p : ℕ) :
    (l.store fd p)._channelmap.WellFormed :=
  ⟨by simpa [store] using hwf.length, hwf.pos⟩

/-- Below the size there is a word, which says what the slot holds. -/
lemma word_eq (hwf : l._channelmap.WellFormed) (hfd : fd < l._channelmap._size) :
    ∃ p, l.word fd = some p ∧
      l._channelmap.entry fd = if p = NULL then none else some p := by
  have hlt : fd < l._channelmap._list.length := hwf.length ▸ hfd
  refine ⟨l._channelmap._list[fd], List.getElem?_eq_getElem hlt, ?_⟩
  simp [ChannelMap.entry, List.getElem?_eq_getElem hlt]

lemma wellFormed_place (hwf : l._channelmap.WellFormed) : (l.place c)._channelmap.WellFormed := by
  unfold place
  split
  · exact hwf
  · split_ifs
    · exact wellFormed_store hwf _ _
    · exact hwf

lemma wellFormed_grown (hwf : l._channelmap.WellFormed) (hgt : l._channelmap._size < fd) :
    (l.grown mem fd)._channelmap.WellFormed := by
  have hle : fd ≤ doubled fd l._channelmap._size fd := le_doubled hwf.pos
  have := hwf.pos
  refine ⟨length_realloc mem ?_, ?_⟩
  · rw [hwf.length]
    omega
  · simp only [grown]
    omega

/-- The slots of a grown table. -/
lemma entry_grown (hwf : l._channelmap.WellFormed) (hgt : l._channelmap._size < fd) (fd' : ℕ) :
    (l.grown mem fd)._channelmap.entry fd' =
      if fd' < l._channelmap._size then l._channelmap.entry fd'
      else if fd' < doubled fd l._channelmap._size fd ∧ mem fd' ≠ NULL then some (mem fd')
      else none := by
  have hle : fd ≤ doubled fd l._channelmap._size fd := le_doubled hwf.pos
  have hlen := hwf.length
  have hroom : l._channelmap._list.length ≤ doubled fd l._channelmap._size fd := by omega
  have hword := getElem?_realloc mem hroom fd'
  rw [hlen] at hword
  simp only [ChannelMap.entry, grown, hword]
  split_ifs <;> simp_all

end EventLoop

/-! ### Runs -/

namespace TableSys

/-- The table is well formed and says what the registry says. -/
structure Inv (s : TableSys) : Prop where
  total : s.Total
  wellFormed : s.loop._channelmap.WellFormed

variable {l : EventLoop (List Channel)} {r : Registry} {c : Channel} {mem : ℕ → ℕ}

/-- **A channel is placed below the size** exactly as it is registered. -/
lemma Total.place (h : Total ⟨l, r⟩) (hwf : l._channelmap.WellFormed)
    (hfd : c._fd < l._channelmap._size) : Total ⟨l.place c, r.add c⟩ := by
  obtain ⟨p, hword, hentry⟩ := EventLoop.word_eq hwf hfd
  have hcur : r.current c._fd = if p = NULL then none else some p :=
    (h.entry c._fd).symm.trans hentry
  by_cases hp : p = NULL
  · rw [if_pos hp] at hcur
    simp only [EventLoop.place, hword, Registry.add, if_pos hp, if_pos hcur]
    refine ⟨h.inside, fun fd => ?_, congrArg (· ++ [c]) h.registered⟩
    refine (EventLoop.entry_store hwf hfd fd).trans ?_
    by_cases hne : fd = c._fd
    · subst hne
      simp [c.ptr_ne]
    · rw [if_neg hne]
      exact (h.entry fd).trans (Function.update_of_ne hne _ _).symm
  · rw [if_neg hp] at hcur
    have hsome : ¬ r.current c._fd = none := by simp [hcur]
    simp only [EventLoop.place, hword, Registry.add, if_neg hp, if_neg hsome]
    exact h

/-- A table that has grown over `NULL`s says the same. -/
lemma Total.grown (h : Total ⟨l, r⟩) (hwf : l._channelmap.WellFormed) {fd : ℕ}
    (hgt : l._channelmap._size < fd)
    (hmem : ∀ i, l._channelmap._size ≤ i → i < doubled fd l._channelmap._size fd →
      mem i = NULL) :
    Total ⟨l.grown mem fd, r⟩ := by
  refine ⟨h.inside, fun fd' => ?_, h.registered⟩
  rw [EventLoop.entry_grown hwf hgt, ← h.entry fd']
  by_cases hlt : fd' < l._channelmap._size
  · rw [if_pos hlt]
  · rw [if_neg hlt, if_neg fun hnew => hnew.2 (hmem fd' (Nat.not_lt.mp hlt) hnew.1)]
    exact (ChannelMap.entry_outside (by rw [hwf.length]; omega)).symm

/-- No channel is registered past the size. -/
lemma Total.current_outside (h : Total ⟨l, r⟩) (hwf : l._channelmap.WellFormed) {fd : ℕ}
    (hle : l._channelmap._size ≤ fd) : r.current fd = none :=
  (h.entry fd).symm.trans (ChannelMap.entry_outside (by rw [hwf.length]; exact hle))

/-- **A channel past the size** is placed right only in a table that has grown past it, over
`NULL`s. -/
lemma not_total_grown (h : Total ⟨l, r⟩) (hwf : l._channelmap.WellFormed)
    (hgt : l._channelmap._size < c._fd)
    (hbad : ¬ ((∀ k, c._fd ≠ l._channelmap._size * 2 ^ k) ∧
      ∀ i, l._channelmap._size ≤ i → i < doubled c._fd l._channelmap._size c._fd →
        mem i = NULL)) :
    ¬ Total ⟨(l.grown mem c._fd).place c, r.add c⟩ := by
  have hle : c._fd ≤ doubled c._fd l._channelmap._size c._fd := le_doubled hwf.pos
  have hwf' : (l.grown mem c._fd)._channelmap.WellFormed := EventLoop.wellFormed_grown hwf hgt
  have hnone : ∀ i, l._channelmap._size ≤ i → r.current i = none := fun i hi =>
    h.current_outside hwf hi
  rcases hle.lt_or_eq with hlt | heq
  · -- some new word is not `NULL`
    have hexact : ∀ k, c._fd ≠ l._channelmap._size * 2 ^ k := fun k hk =>
      absurd ((doubled_eq_iff hwf.pos).mpr ⟨k, hk⟩) (Nat.ne_of_gt hlt)
    simp only [hexact, implies_true, true_and, not_forall, ne_eq, not_false_eq_true] at hbad
    obtain ⟨i, hi, hinew, hword⟩ := hbad
    obtain ⟨p, hp, hentry⟩ := EventLoop.word_eq hwf' hlt
    have hslot : ∀ i, l._channelmap._size ≤ i → i < doubled c._fd l._channelmap._size c._fd →
        mem i ≠ NULL → (l.grown mem c._fd)._channelmap.entry i = some (mem i) := by
      intro i hi hinew hword
      rw [EventLoop.entry_grown hwf hgt, if_neg (by omega), if_pos ⟨hinew, hword⟩]
    have hadd : r.add c = { current := Function.update r.current c._fd (some c.ptr)
                            added := r.added ++ [c] } := by
      rw [Registry.add, if_pos (hnone c._fd (Nat.le_of_lt hgt))]
    rw [hadd]
    by_cases hpn : p = NULL
    · -- the channel is placed, and the slot `i` is taken by no channel
      simp only [EventLoop.place, hp, if_pos hpn]
      intro ht
      have hi' : i ≠ c._fd := by
        rintro rfl
        rw [hslot _ hi hinew hword, if_pos hpn] at hentry
        cases hentry
      have hent := ht.entry i
      simp only [Function.update_of_ne hi', hnone i hi] at hent
      have hst := (EventLoop.entry_store (p := c.ptr) hwf' hlt i).symm.trans hent
      rw [if_neg hi', hslot i hi hinew hword] at hst
      cases hst
    · -- the slot is taken, and the channel is not registered
      simp only [EventLoop.place, hp, if_neg hpn]
      intro ht
      have hreg : l.disepatherData = r.added ++ [c] := ht.registered
      rw [h.registered] at hreg
      simpa using congrArg List.length hreg
  · -- the descriptor is just past the table
    have hword : (l.grown mem c._fd).word c._fd = none := by
      rw [EventLoop.word, List.getElem?_eq_none]
      rw [hwf'.length]
      exact Nat.le_of_eq heq.symm
    simp only [EventLoop.place, hword]
    intro ht
    cases ht.inside

variable {s : TableSys}

/-- **An action in order keeps the table total.** -/
lemma Inv.step (h : s.Inv) {a : TableAct} (ha : s.InOrder a) : (s.step a).Inv := by
  cases a with
  | add c mem =>
    simp only [TableSys.step, EventLoop.AddEventLoop_eq]
    rcases ha with hlt | ⟨hgt, hexact, hmem⟩
    · rw [if_pos hlt]
      exact ⟨h.total.place h.wellFormed hlt, EventLoop.wellFormed_place h.wellFormed⟩
    · rw [if_neg (by omega), if_pos hgt]
      have hwf' : (s.loop.grown mem c._fd)._channelmap.WellFormed :=
        EventLoop.wellFormed_grown h.wellFormed hgt
      have hle : c._fd ≤ doubled c._fd s.loop._channelmap._size c._fd :=
        le_doubled h.wellFormed.pos
      have hne : doubled c._fd s.loop._channelmap._size c._fd ≠ c._fd := fun he => by
        obtain ⟨k, hk⟩ := (doubled_eq_iff h.wellFormed.pos).mp he
        exact hexact k hk
      have hlt : c._fd < (s.loop.grown mem c._fd)._channelmap._size :=
        Nat.lt_of_le_of_ne hle hne.symm
      exact ⟨(h.total.grown h.wellFormed hgt hmem).place hwf' hlt,
        EventLoop.wellFormed_place hwf'⟩
  | destroy c =>
    obtain ⟨hlt, hown⟩ := ha
    obtain ⟨p, hword, -⟩ := EventLoop.word_eq h.wellFormed hlt
    simp only [TableSys.step, EventLoop.destroyChannel, hword]
    refine ⟨⟨h.total.inside, fun fd => ?_, ?_⟩, EventLoop.wellFormed_store h.wellFormed _ _⟩
    · refine (EventLoop.entry_store h.wellFormed hlt fd).trans ?_
      rw [h.total.entry] at hown
      rw [if_pos rfl, Registry.destroy, h.total.entry]
      rcases hown with hnone | hsome
      · have hother : s.registry.current c._fd ≠ some c.ptr := by simp [hnone]
        rw [if_neg hother]
        split_ifs with hfd
        · rw [hfd, hnone]
        · rfl
      · rw [if_pos hsome]
        exact (Function.update_apply _ _ _ _).symm
    · rw [Registry.destroy]
      split_ifs <;> exact h.total.registered

/-- **An action out of order breaks the table.** -/
lemma Inv.not_total_step (h : s.Inv) {a : TableAct} (ha : ¬ s.InOrder a) :
    ¬ (s.step a).Total := by
  cases a with
  | add c mem =>
    simp only [InOrder, not_or] at ha
    obtain ⟨hge, hbad⟩ := ha
    simp only [TableSys.step, EventLoop.AddEventLoop_eq, if_neg hge]
    by_cases hgt : s.loop._channelmap._size < c._fd
    · rw [if_pos hgt]
      exact not_total_grown h.total h.wellFormed hgt fun hok => hbad ⟨hgt, hok⟩
    · -- the table does not grow for a descriptor equal to its size
      rw [if_neg hgt]
      intro ht
      have hnone := h.total.current_outside h.wellFormed (Nat.not_lt.mp hge)
      have hent := ht.entry c._fd
      simp only [Registry.add, if_pos hnone, Function.update_self] at hent
      rw [h.total.entry c._fd, hnone] at hent
      cases hent
  | destroy c =>
    by_cases hlt : c._fd < s.loop._channelmap._size
    · -- the slot of another channel is cleared
      obtain ⟨p, hword, -⟩ := EventLoop.word_eq h.wellFormed hlt
      simp only [InOrder, hlt, true_and, not_or, h.total.entry] at ha
      obtain ⟨hsome, hother⟩ := ha
      simp only [TableSys.step, EventLoop.destroyChannel, hword]
      intro ht
      have hent := ht.entry c._fd
      simp only [Registry.destroy, if_neg hother] at hent
      have hst := (EventLoop.entry_store (p := NULL) h.wellFormed hlt c._fd).symm.trans hent
      rw [if_pos rfl, if_pos rfl] at hst
      exact hsome hst.symm
    · have hword : s.loop.word c._fd = none := by
        rw [EventLoop.word, List.getElem?_eq_none]
        rw [h.wellFormed.length]
        exact Nat.not_lt.mp hlt
      simp only [TableSys.step, EventLoop.destroyChannel, hword]
      intro ht
      cases ht.inside

/-- A new table is total when the memory it is made of holds `NULL` everywhere. -/
lemma total_init {size : ℕ} {mem : ℕ → ℕ} :
    (init size mem).Total ↔ ∀ i < size, mem i = NULL := by
  have hword : ∀ i, (init size mem).loop._channelmap._list[i]? =
      if i < size then some (mem i) else none := by
    intro i
    simp only [init, EventLoop.init, initChannelMap, List.getElem?_map]
    split_ifs with hi
    · rw [List.getElem?_range hi, Option.map_some]
    · rw [List.getElem?_eq_none (by simpa using hi), Option.map_none]
  refine ⟨fun h i hi => ?_, fun h => ⟨rfl, fun fd => ?_, rfl⟩⟩
  · by_contra hne
    have hent := h.entry i
    rw [ChannelMap.entry_eq_some (by rw [hword, if_pos hi]) hne] at hent
    cases hent
  · change _ = none
    by_cases hfd : fd < size
    · exact ChannelMap.entry_eq_none (by rw [hword, if_pos hfd, h fd hfd])
    · simp [ChannelMap.entry, hword, hfd]

lemma wellFormed_init {size : ℕ} (hsize : 0 < size) (mem : ℕ → ℕ) :
    (init size mem).loop._channelmap.WellFormed :=
  ⟨by simp [init, EventLoop.init, initChannelMap], hsize⟩

/-- **When the table is total.** Over a run of `AddEventLoop` and `destroyChannel` from a table of
`size` slots, the table is accessed inside only and holds for every descriptor the channel added
and not destroyed, in every state, if and only if it was made of `NULL`s and every action is in
order. -/
theorem total_iff {size : ℕ} (hsize : 0 < size) (mem : ℕ → ℕ) (acts : List TableAct) :
    Always Total (init size mem) (path step (init size mem) acts) ↔
      (∀ i < size, mem i = NULL) ∧
        Chain (fun s a _ => s.InOrder a) (init size mem) (path step (init size mem) acts) := by
  by_cases h0 : (init size mem).Total
  · rw [and_iff_right (total_init.mp h0)]
    have hinv : (init size mem).Inv := ⟨h0, wellFormed_init hsize mem⟩
    refine always_path_iff (fun _ h => ?_) (fun _ _ h ha => ?_) (fun _ _ h ha => ?_) hinv acts
    · exact h.total
    · exact h.step ha
    · exact h.not_total_step ha
  · exact iff_of_false (fun h => h0 h.1) fun h => h0 (total_init.mpr h.1)

/-- The channel at address `p + 1` for the descriptor `fd`. -/
def chan (p fd : ℕ) : Channel := ⟨p + 1, fd, FDevent.readevent, Nat.succ_ne_zero p⟩

/-- In a table of four `NULL`s, which grows over `NULL`s to twelve. -/
theorem total_iff_grown :
    Always Total (init 4 fun _ => 0) (path step (init 4 fun _ => 0)
      [.add (chan 100 3) (fun _ => 0), .add (chan 200 5) (fun _ => 0), .destroy (chan 100 3)]) := by
  refine (total_iff (by decide) _ _).mpr ⟨fun _ _ => rfl, ?_⟩
  refine ⟨Or.inl (by decide), Or.inr ⟨by decide, fun k => ?_, fun _ _ _ => rfl⟩, ?_, trivial⟩
  · change 5 ≠ 4 * 2 ^ k
    omega
  · exact ⟨by decide, Or.inr (by decide)⟩

/-- A descriptor equal to the size is not added, and one equal to a doubling of the size is
looked up outside. -/
theorem not_total :
    ¬ Always Total (init 4 fun _ => 0)
      (path step (init 4 fun _ => 0) [.add (chan 100 4) (fun _ => 0)]) ∧
    ¬ Always Total (init 4 fun _ => 0)
      (path step (init 4 fun _ => 0) [.add (chan 100 8) (fun _ => 0)]) ∧
    ¬ Always Total (init 4 fun _ => 7) (path step (init 4 fun _ => 7) []) := by
  refine ⟨fun h => ?_, fun h => ?_, fun h => ?_⟩
  · have hent := (h.2 _ (List.mem_singleton_self _)).entry 4
    revert hent
    decide
  · have hin := (h.2 _ (List.mem_singleton_self _)).inside
    revert hin
    decide
  · have hent := h.1.entry 0
    revert hent
    decide

end TableSys

end Reactor.HttpC
