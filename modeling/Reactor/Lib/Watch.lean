import Mathlib.Data.Finset.Basic
import Mathlib.Logic.Function.Basic
import Mathlib.Tactic

/-!
What a dispatcher is for: a table that says for which events each descriptor is watched.

An entry is made by `add`, replaced by `modify` and taken out by `remove`. Two sets of
descriptors, one for each event, represent a table up to entries without interest. The lemmas
say which changes of the sets follow which changes of the table.
-/

namespace Reactor.Lib.Watch

inductive Event
  | read
  | write
  deriving DecidableEq

/-- The events a descriptor is watched for. -/
structure Interest where
  read : Bool
  write : Bool
  deriving DecidableEq

namespace Interest

def has (i : Interest) : Event → Bool
  | .read => i.read
  | .write => i.write

/-- No interest. -/
def idle : Interest := ⟨false, false⟩

@[simp] lemma idle_has (e : Event) : idle.has e = false := by cases e <;> rfl

lemma ext_has {i j : Interest} (h : ∀ e, i.has e = j.has e) : i = j := by
  obtain ⟨r, w⟩ := i
  obtain ⟨r', w'⟩ := j
  exact congrArg₂ mk (h .read) (h .write)

lemma eq_idle_iff {i : Interest} : i = idle ↔ ∀ e, ¬ i.has e = true := by
  refine ⟨?_, fun h => ext_has fun e => ?_⟩
  · rintro rfl e
    simp
  · simpa using h e

/-- The events of `i` that are not events of `j`. -/
def without (i j : Interest) : Interest := ⟨i.read && !j.read, i.write && !j.write⟩

@[simp] lemma without_has {i j : Interest} {e : Event} :
    (i.without j).has e = (i.has e && !j.has e) := by cases e <;> rfl

/-- The events of `i` are among those of `j`. -/
instance : LE Interest := ⟨fun i j => ∀ e, i.has e = true → j.has e = true⟩

instance (i j : Interest) : Decidable (i ≤ j) :=
  decidable_of_iff ((i.read = true → j.read = true) ∧ (i.write = true → j.write = true))
    ⟨fun h e => match e with
      | .read => h.1
      | .write => h.2,
    fun h => ⟨h .read, h .write⟩⟩

end Interest

/-! ### The table -/

/-- The interest in each descriptor that is watched. -/
abbrev Table := ℕ → Option Interest

namespace Table

def new : Table := fun _ => none

def add (fd : ℕ) (i : Interest) (t : Table) : Table := Function.update t fd (some i)

/-- A descriptor that is not watched stays so. -/
def modify (fd : ℕ) (i : Interest) (t : Table) : Table :=
  if (t fd).isSome then Function.update t fd (some i) else t

def remove (fd : ℕ) (t : Table) : Table := Function.update t fd none

def Watches (t : Table) (fd : ℕ) (e : Event) : Prop := ∃ i, t fd = some i ∧ i.has e = true

variable {t : Table} {fd fd' : ℕ} {i : Interest} {e : Event}

lemma watches_congr {t' : Table} (h : t fd = t' fd) : t.Watches fd e ↔ t'.Watches fd e := by
  rw [Watches, h]
  rfl

lemma watches_of_some (h : t fd = some i) : t.Watches fd e ↔ i.has e = true := by
  simp [Watches, h]

lemma watches_getD : t.Watches fd e ↔ ((t fd).getD .idle).has e = true := by
  cases h : t fd with
  | none => simp [Watches, h]
  | some j => simp [Watches, h]

lemma not_watches_of_none (h : t fd = none) : ¬ t.Watches fd e := by
  simp [Watches, h]

@[simp] lemma add_self : t.add fd i fd = some i := by simp [add]
@[simp] lemma remove_self : t.remove fd fd = none := by simp [remove]

lemma add_of_ne (h : fd' ≠ fd) : t.add fd i fd' = t fd' := by simp [add, h]
lemma remove_of_ne (h : fd' ≠ fd) : t.remove fd fd' = t fd' := by simp [remove, h]

lemma modify_of_ne (h : fd' ≠ fd) : t.modify fd i fd' = t fd' := by
  unfold modify
  split_ifs <;> simp [h]

lemma modify_of_some {j : Interest} (h : t fd = some j) : t.modify fd i fd = some i := by
  simp [modify, h]

lemma modify_of_none (h : t fd = none) : t.modify fd i = t := by simp [modify, h]

/-- Two tables that differ in entries without interest at most. -/
def Same (t t' : Table) : Prop := ∀ fd e, t.Watches fd e ↔ t'.Watches fd e

/-- A change of the entry of one descriptor, made in both. -/
lemma Same.congr_at {t t' u u' : Table} (h : t.Same t') (hu : ∀ fd' ≠ fd, u fd' = t fd')
    (hu' : ∀ fd' ≠ fd, u' fd' = t' fd') (hfd : ∀ e, u.Watches fd e ↔ u'.Watches fd e) :
    u.Same u' := by
  intro fd' e
  by_cases hne : fd' = fd
  · subst hne
    exact hfd e
  · rw [watches_congr (hu fd' hne), watches_congr (hu' fd' hne)]
    exact h fd' e

lemma Same.add {t' : Table} (h : t.Same t') : (t.add fd i).Same (t'.add fd i) :=
  h.congr_at (fun _ => add_of_ne) (fun _ => add_of_ne) fun _ => watches_congr (by simp)

lemma Same.remove {t' : Table} (h : t.Same t') : (t.remove fd).Same (t'.remove fd) :=
  h.congr_at (fun _ => remove_of_ne) (fun _ => remove_of_ne) fun _ => watches_congr (by simp)

lemma Same.modify {t' : Table} {j j' : Interest} (h : t.Same t') (hj : t fd = some j)
    (hj' : t' fd = some j') : (t.modify fd i).Same (t'.modify fd i) :=
  h.congr_at (fun _ => modify_of_ne) (fun _ => modify_of_ne) fun _ =>
    watches_congr (by rw [modify_of_some hj, modify_of_some hj'])

/-- An entry made again for the same events, or made for none, makes no difference. -/
lemma Same.add_again {t' : Table} (h : t.Same t') (hfd : (t fd).getD Interest.idle = i) :
    (t.add fd i).Same t' := by
  refine h.congr_at (fun _ => add_of_ne) (fun _ _ => rfl) fun e => ?_
  rw [watches_of_some add_self, ← h fd e, ← hfd, watches_getD]

end Table

/-- A representation watches what the table says. -/
def Agrees (watches : ℕ → Event → Prop) (t : Table) : Prop :=
  ∀ fd e, watches fd e ↔ t.Watches fd e

lemma Agrees.same {watches : ℕ → Event → Prop} {t t' : Table} (h : Agrees watches t')
    (hs : t.Same t') : Agrees watches t :=
  fun fd e => (h fd e).trans (hs fd e).symm

/-! ### Two sets of descriptors -/

structure FdSets where
  readSet : Finset ℕ
  writeSet : Finset ℕ
  deriving DecidableEq

namespace FdSets

def zero : FdSets := ⟨∅, ∅⟩

def Watches (s : FdSets) (fd : ℕ) : Event → Prop
  | .read => fd ∈ s.readSet
  | .write => fd ∈ s.writeSet

/-- Puts the descriptor into the sets of its events. -/
def set (fd : ℕ) (i : Interest) (s : FdSets) : FdSets where
  readSet := if i.read then insert fd s.readSet else s.readSet
  writeSet := if i.write then insert fd s.writeSet else s.writeSet

/-- Takes the descriptor out of the sets of its events. -/
def clear (fd : ℕ) (i : Interest) (s : FdSets) : FdSets where
  readSet := if i.read then s.readSet.erase fd else s.readSet
  writeSet := if i.write then s.writeSet.erase fd else s.writeSet

variable {s : FdSets} {fd fd' : ℕ} {i j : Interest} {e : Event} {t : Table}

lemma watches_set :
    (s.set fd i).Watches fd' e ↔ s.Watches fd' e ∨ fd' = fd ∧ i.has e = true := by
  cases e <;> simp only [set, Watches, Interest.has] <;> split_ifs with h <;> simp [h, or_comm]

lemma watches_clear :
    (s.clear fd i).Watches fd' e ↔ s.Watches fd' e ∧ ¬ (fd' = fd ∧ i.has e = true) := by
  cases e <;> simp only [clear, Watches, Interest.has] <;> split_ifs with h <;>
    simp [h, and_comm]

lemma agrees_zero : Agrees zero.Watches Table.new := by
  intro fd e
  cases e <;> simp [zero, Watches, Table.Watches, Table.new]

/-- A descriptor that was not watched can be put in. -/
lemma agrees_set (h : Agrees s.Watches t) (hfd : t fd = none) :
    Agrees (s.set fd i).Watches (t.add fd i) := by
  intro fd' e
  rw [watches_set, h fd' e]
  by_cases hne : fd' = fd
  · subst hne
    simp [Table.Watches, hfd]
  · rw [Table.watches_congr (Table.add_of_ne hne)]
    simp [hne]

/-- What is put in and taken out again is watched for nothing more than the events left over. -/
lemma watches_set_clear :
    ((s.set fd i).clear fd i).Watches fd' e ↔ s.Watches fd' e ∧ ¬ (fd' = fd ∧ i.has e = true) := by
  rw [watches_clear, watches_set]
  tauto

/-- **Putting in and taking out again follows a change of interest only between none and
none.** -/
lemma agrees_set_clear_iff (h : Agrees s.Watches t) (hfd : t fd = some j) :
    Agrees ((s.set fd i).clear fd i).Watches (t.modify fd i) ↔
      j = Interest.idle ∧ i = Interest.idle := by
  have hown : ∀ e, ((s.set fd i).clear fd i).Watches fd e ↔
      j.has e = true ∧ ¬ i.has e = true := by
    intro e
    rw [watches_set_clear, h fd e, Table.watches_of_some hfd]
    simp
  constructor
  · intro ha
    have hnew : ∀ e, (j.has e = true ∧ ¬ i.has e = true) ↔ i.has e = true := by
      intro e
      rw [← hown e, ha fd e, Table.watches_of_some (Table.modify_of_some hfd)]
    refine ⟨Interest.eq_idle_iff.mpr fun e he => ?_, Interest.eq_idle_iff.mpr fun e he => ?_⟩
    · by_cases hi : i.has e = true
      · exact ((hnew e).mpr hi).2 hi
      · exact hi ((hnew e).mp ⟨he, hi⟩)
    · exact ((hnew e).mpr he).2 he
  · rintro ⟨rfl, rfl⟩ fd' e
    by_cases hne : fd' = fd
    · subst hne
      rw [hown, Table.watches_of_some (Table.modify_of_some hfd)]
      simp
    · rw [watches_set_clear, h fd' e, Table.watches_congr (Table.modify_of_ne hne)]
      simp [hne]

/-- **Taking out follows a removal only of a descriptor watched for no other event.** -/
lemma not_watches_clear_iff (h : Agrees s.Watches t) (hfd : t fd = some j) :
    (∀ e, ¬ (s.clear fd i).Watches fd e) ↔ j ≤ i := by
  refine forall_congr' fun e => ?_
  rw [watches_clear, h fd e, Table.watches_of_some hfd]
  simp

lemma agrees_clear (h : Agrees s.Watches t) (hfd : t fd = some j) (hle : j ≤ i) :
    Agrees (s.clear fd i).Watches (t.remove fd) := by
  intro fd' e
  by_cases hne : fd' = fd
  · subst hne
    exact iff_of_false ((not_watches_clear_iff h hfd).mpr hle e)
      (Table.not_watches_of_none Table.remove_self)
  · rw [watches_clear, h fd' e, Table.watches_congr (Table.remove_of_ne hne)]
    simp [hne]

end FdSets

end Reactor.Lib.Watch
