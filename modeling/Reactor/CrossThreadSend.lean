import Reactor.EventLoop
import Reactor.TcpConnection
import Reactor.Lib.Heap

/-!
What a `send` from another thread hands over: `TcpConnection::send` outside the thread of the
loop, with the memory that the string is in.

`std::bind` keeps the address of the characters and their number. The characters are read when
the functor runs, and until then any thread may write to the memory, or free it.
-/

namespace Reactor

open Lib.Trace Lib.Heap

/-! ### Functors that have not run to their end -/

namespace LoopSys

variable {F : Type*}

/-- The functor that the loop's thread is in. -/
def running (s : LoopSys F) : Option F :=
  match s.pc with
  | .functor _ _ => s.executed.getLast?
  | _ => none

/-- The functors pushed that have not run to their end. -/
def unfinished (s : LoopSys F) : List F :=
  s.running.toList ++ s.pc.batch ++ s.loop.pendingFuntors_

lemma mem_unfinished_other {s t : LoopSys F} {a : LoopAct F} {f : F}
    (h : s.other a = some t) (hf : f ∈ t.unfinished) :
    f ∈ s.unfinished ∨ pushedBy a = some f := by
  cases a with
  | push i g =>
      simp only [other, Option.ite_none_right_eq_some, Option.some.injEq] at h
      obtain ⟨-, rfl⟩ := h
      have hf' : f ∈ s.running.toList ++ s.pc.batch ++ (s.loop.pendingFuntors_ ++ [g]) := hf
      rw [← List.append_assoc, List.mem_append, List.mem_singleton] at hf'
      exact hf'.imp id fun hg => congrArg some hg.symm
  | storeQuit i =>
      simp only [other, Option.ite_none_right_eq_some, Option.some.injEq] at h
      obtain ⟨-, rfl⟩ := h
      exact Or.inl hf
  | wakeup i =>
      simp only [other, Option.ite_none_left_eq_some, Option.some.injEq] at h
      obtain ⟨-, rfl⟩ := h
      rw [unfinished, EventLoop.wakeup_pendingFuntors] at hf
      exact Or.inl hf
  | _ => cases h

lemma mem_unfinished_user {s t : LoopSys F} {a : LoopAct F} {f : F}
    (h : s.user a = some t) (hf : f ∈ t.unfinished) :
    f ∈ s.unfinished ∨ pushedBy a = some f := by
  have hinner : ∀ (l : EventLoop F) (inner : Inner), l.pendingFuntors_ = s.loop.pendingFuntors_ →
      unfinished { s with loop := l, pc := s.pc.setInner inner } = s.unfinished := by
    intro l inner hl
    simp only [unfinished, running, LoopPc.batch_setInner, hl]
    cases s.pc <;> rfl
  unfold user at h
  split at h
  · rename_i g hi
    obtain rfl := Option.some.inj h
    have hg : unfinished { s.push g with pc := s.pc.setInner .pushed } = s.unfinished ++ [g] := by
      simp only [unfinished, running, LoopPc.batch_setInner, LoopSys.push, EventLoop.push,
        List.append_assoc]
      cases s.pc <;> rfl
    rw [hg, List.mem_append, List.mem_singleton] at hf
    exact hf.imp id fun hg => congrArg some hg.symm
  · obtain rfl := Option.some.inj h
    exact Or.inl ((hinner s.loop _ rfl) ▸ hf)
  · obtain rfl := Option.some.inj h
    exact Or.inl ((hinner _ _ s.loop.wakeup_pendingFuntors) ▸ hf)
  · obtain rfl := Option.some.inj h
    exact Or.inl hf
  · cases h

/-- The loop's thread takes a functor out of the queue to run it, and lets go of it then. -/
lemma mem_unfinished_own {s t : LoopSys F} {a : LoopAct F} {f : F}
    (h : s.own a = some t) (hf : f ∈ t.unfinished) : f ∈ s.unfinished := by
  unfold own at h
  split at h
  case h_4 hpc =>
    simp only [Option.ite_none_right_eq_some, Option.some.injEq] at h
    obtain ⟨-, rfl⟩ := h
    simpa [unfinished, running, LoopPc.batch, hpc] using hf
  case h_14 => cases h
  all_goals
    rename_i hpc
    obtain rfl := Option.some.inj h
    simp only [unfinished, running, LoopPc.batch, hpc] at hf ⊢
    first
      | simpa using hf
      | (split_ifs at hf <;> simpa using hf)
      | (simp at hf ⊢; tauto)

/-- **Only what is pushed is new.** -/
lemma mem_unfinished_step {s t : LoopSys F} {a : LoopAct F} {f : F} (h : s.step a = some t)
    (hf : f ∈ t.unfinished) : f ∈ s.unfinished ∨ pushedBy a = some f := by
  unfold step at h
  split at h
  all_goals first
    | exact mem_unfinished_other h hf
    | exact mem_unfinished_user h hf
    | exact Or.inl (mem_unfinished_own h hf)

end LoopSys

/-! ### The caller and its string -/

/-- A functor in the queue of the loop. Of a call of `send` it keeps the connection, the
address of the characters and their number; `given`, what the string held at the call, is
known to the history only. -/
inductive Bound
  | sendInLoop (c : ConnId) (data : ℕ) (len : ℕ) (given : List Byte)
  | other
  deriving DecidableEq

namespace Bound

/-- What the functor would read now is what it was given. -/
def Intact (heap : ℕ → Option Byte) : Bound → Prop
  | .sendInLoop _ data len given => read heap data len = some given
  | .other => True

instance (heap : ℕ → Option Byte) (f : Bound) : Decidable (f.Intact heap) := by
  cases f <;> unfold Intact <;> infer_instance

/-- The functor reads at the address `i`. -/
def Reads (i : ℕ) : Bound → Prop
  | .sendInLoop _ data len _ => Covers data len i
  | .other => False

instance (i : ℕ) (f : Bound) : Decidable (f.Reads i) := by
  cases f <;> unfold Reads <;> infer_instance

lemma Intact.update {heap : ℕ → Option Byte} {f : Bound} {i : ℕ} {v : Option Byte}
    (h : f.Intact heap) (hi : f.Reads i → heap i = v) :
    f.Intact (Function.update heap i v) := by
  cases f with
  | sendInLoop c data len given =>
      by_cases hr : Covers data len i
      · rw [← hi hr, Function.update_eq_self]
        exact h
      · exact (read_update_of_not_covers v hr).trans h
  | other => trivial

lemma not_intact_update {heap : ℕ → Option Byte} {f : Bound} {i : ℕ} {v : Option Byte}
    (h : f.Intact heap) (hr : f.Reads i) (hv : heap i ≠ v) :
    ¬ f.Intact (Function.update heap i v) := by
  cases f with
  | sendInLoop c data len given => exact read_update_ne h hr hv
  | other => exact hr.elim

end Bound

/-- The loop with the threads that call it, the memory, and what the connections have come
to. `calls` holds what the other thread `t` has bound in `send` and not queued yet. -/
structure SendSys where
  sys : LoopSys Bound
  heap : ℕ → Option Byte
  state_ : ConnId → StateE
  calls : ℕ → Option Bound

/-- The steps: of the other thread `t` in `send`, of the loop and of any thread in it, of a
connection that changes its state, and of anybody who allocates, writes to or frees an
address. -/
inductive SendAct
  | send (t : ℕ) (c : ConnId) (data : ℕ) (len : ℕ)
  | queue (t : ℕ)
  | loop (a : LoopAct Bound)
  | setState (c : ConnId) (state : StateE)
  | alloc (i : ℕ) (b : Byte)
  | store (i : ℕ) (b : Byte)
  | free (i : ℕ)

namespace SendSys

/-- A loop before `loop()`, with the connections and the memory as they happen to be. -/
def new (heap : ℕ → Option Byte) (state : ConnId → StateE) : SendSys where
  sys := .new
  heap := heap
  state_ := state
  calls := fun _ => none

/-- `send` alone queues `sendInLoop`, and a thread in it does nothing else with the loop. -/
def MayStep (s : SendSys) : LoopAct Bound → Prop
  | .push t f => f = .other ∧ s.calls t = none
  | .storeQuit t => s.calls t = none
  | .innerPush f => f = .other
  | _ => True

instance (s : SendSys) (a : LoopAct Bound) : Decidable (s.MayStep a) := by
  cases a <;> unfold MayStep <;> infer_instance

/-- One step. A call of `send` counts when its test finds `kConnected`, and its string is
there to be read. -/
def step (s : SendSys) (a : SendAct) : Option SendSys :=
  match a with
  | .send t c data len =>
    if s.calls t = none ∧ s.sys.callers t = .idle ∧ s.state_ c = .kConnected then
      (read s.heap data len).map fun given =>
        { s with calls := Function.update s.calls t (some (.sendInLoop c data len given)) }
    else none
  | .queue t =>
    match s.calls t with
    | some f => (s.sys.step (.push t f)).map fun sys =>
        { s with sys := sys, calls := Function.update s.calls t none }
    | none => none
  | .loop a =>
    if s.MayStep a then (s.sys.step a).map fun sys => { s with sys := sys } else none
  | .setState c state => some { s with state_ := Function.update s.state_ c state }
  | .alloc i b =>
    if s.heap i = none then some { s with heap := Function.update s.heap i (some b) } else none
  | .store i b =>
    if s.heap i = none then none else some { s with heap := Function.update s.heap i (some b) }
  | .free i =>
    if s.heap i = none then none else some { s with heap := Function.update s.heap i none }

def Step (s : SendSys) (a : SendAct) (t : SendSys) : Prop := s.step a = some t

/-- **The property of a `send`**: while `sendInLoop` runs, the bytes at its address are those
that `send` was given. -/
def Delivers (s : SendSys) : Prop := ∀ f, s.sys.running = some f → f.Intact s.heap

/-- The functor has been bound, and has not run to its end. -/
def Outstanding (s : SendSys) (f : Bound) : Prop :=
  f ∈ s.sys.unfinished ∨ ∃ t, s.calls t = some f

/-- The step leaves the strings alone that were given to a `send` whose functor has not run to
its end: it writes no other byte to them, and frees none of them. -/
def Spares (s : SendSys) : SendAct → Prop
  | .store i b => ∀ f, s.Outstanding f → f.Reads i → s.heap i = some b
  | .free i => ∀ f, s.Outstanding f → ¬ f.Reads i
  | _ => True

/-- Every functor that has not run to its end would find what it was given. -/
def AllIntact (s : SendSys) : Prop := ∀ f, s.Outstanding f → f.Intact s.heap

lemma AllIntact.delivers {s : SendSys} (h : s.AllIntact) : s.Delivers := fun f hf => by
  refine h f (Or.inl ?_)
  simp [LoopSys.unfinished, hf]

/-- Memory that changes at one address. -/
lemma AllIntact.update {s : SendSys} {i : ℕ} {v : Option Byte} (h : s.AllIntact)
    (hi : ∀ f, s.Outstanding f → f.Reads i → s.heap i = v) :
    AllIntact { s with heap := Function.update s.heap i v } := fun f hf =>
  (h f hf).update (hi f hf)

/-- An address that is not allocated belongs to no string. -/
lemma AllIntact.not_reads {s : SendSys} {i : ℕ} (h : s.AllIntact) (hi : s.heap i = none) :
    ∀ f, s.Outstanding f → ¬ f.Reads i := by
  intro f hf hr
  cases f with
  | sendInLoop c data len given =>
      obtain ⟨hlen, hval⟩ := read_eq_some_iff.mp (h _ hf)
      obtain ⟨hle, hlt⟩ := hr
      have hk := hval (i - data) (by omega)
      rw [Nat.add_sub_cancel' hle, hi, eq_comm, List.getElem?_eq_none_iff] at hk
      omega
  | other => exact hr

lemma AllIntact.send {s : SendSys} {t : ℕ} {c : ConnId} {data len : ℕ} {given : List Byte}
    (h : s.AllIntact) (hr : read s.heap data len = some given) :
    AllIntact { s with
      calls := Function.update s.calls t (some (.sendInLoop c data len given)) } := by
  rintro f (hf | ⟨i, hi⟩)
  · exact h f (Or.inl hf)
  · change Function.update _ _ _ i = _ at hi
    by_cases hit : i = t
    · subst hit
      rw [Function.update_self] at hi
      exact Option.some.inj hi ▸ hr
    · rw [Function.update_of_ne hit] at hi
      exact h f (Or.inr ⟨i, hi⟩)

/-- A functor that is queued, run or dropped was outstanding before. -/
lemma AllIntact.loop {s : SendSys} {a : LoopAct Bound} {sys : LoopSys Bound}
    {calls : ℕ → Option Bound} (h : s.AllIntact) (hsys : s.sys.step a = some sys)
    (hpush : ∀ f, LoopSys.pushedBy a = some f → f = .other ∨ s.Outstanding f)
    (hcalls : ∀ t f, calls t = some f → s.calls t = some f) :
    AllIntact { s with sys := sys, calls := calls } := by
  rintro f (hf | ⟨i, hi⟩)
  · rcases LoopSys.mem_unfinished_step hsys hf with hf | hf
    · exact h f (Or.inl hf)
    · rcases hpush f hf with rfl | hf
      · trivial
      · exact h f hf
  · exact h f (Or.inr ⟨i, hcalls i f hi⟩)

/-- **The step lemma.** -/
lemma AllIntact.step {s t : SendSys} {a : SendAct} (h : s.AllIntact) (hst : s.Step a t)
    (hg : s.Spares a) : t.AllIntact := by
  cases a with
  | send i c data len =>
      simp only [Step, SendSys.step, Option.ite_none_right_eq_some, Option.map_eq_some_iff] at hst
      obtain ⟨-, given, hr, rfl⟩ := hst
      exact h.send hr
  | queue i =>
      simp only [Step, SendSys.step] at hst
      split at hst
      · rename_i f hf
        obtain ⟨sys, hsys, rfl⟩ := Option.map_eq_some_iff.mp hst
        refine h.loop hsys (fun g hg => ?_) fun j g hj => ?_
        · cases hg
          exact Or.inr (Or.inr ⟨i, hf⟩)
        · by_cases hji : j = i
          · subst hji
            rw [Function.update_self] at hj
            cases hj
          · rwa [Function.update_of_ne hji] at hj
      · cases hst
  | loop a =>
      simp only [Step, SendSys.step, Option.ite_none_right_eq_some, Option.map_eq_some_iff] at hst
      obtain ⟨hmay, sys, hsys, rfl⟩ := hst
      refine h.loop hsys (fun f hf => Or.inl ?_) fun _ _ hj => hj
      cases a <;> cases hf
      · exact hmay.1
      · exact hmay
  | setState c state =>
      obtain rfl := Option.some.inj hst
      exact h
  | alloc i b =>
      simp only [Step, SendSys.step, Option.ite_none_right_eq_some, Option.some.injEq] at hst
      obtain ⟨hi, rfl⟩ := hst
      exact h.update fun f hf hr => absurd hr (h.not_reads hi f hf)
  | store i b =>
      simp only [Step, SendSys.step, Option.ite_none_left_eq_some, Option.some.injEq] at hst
      obtain ⟨-, rfl⟩ := hst
      exact h.update hg
  | free i =>
      simp only [Step, SendSys.step, Option.ite_none_left_eq_some, Option.some.injEq] at hst
      obtain ⟨-, rfl⟩ := hst
      exact h.update fun f hf hr => absurd hr (hg f hf)

/-- A step that does not spare a string changes it. -/
lemma not_allIntact_step {s t : SendSys} {a : SendAct} (h : s.AllIntact) (hst : s.Step a t)
    (hg : ¬ s.Spares a) : ¬ t.AllIntact := by
  intro ht
  cases a with
  | store i b =>
      simp only [Step, SendSys.step, Option.ite_none_left_eq_some, Option.some.injEq] at hst
      obtain ⟨-, rfl⟩ := hst
      simp only [Spares, not_forall] at hg
      obtain ⟨f, hf, hr, hv⟩ := hg
      exact Bound.not_intact_update (h f hf) hr hv (ht f hf)
  | free i =>
      simp only [Step, SendSys.step, Option.ite_none_left_eq_some, Option.some.injEq] at hst
      obtain ⟨hi, rfl⟩ := hst
      simp only [Spares, not_forall, not_not] at hg
      obtain ⟨f, hf, hr⟩ := hg
      exact Bound.not_intact_update (h f hf) hr hi (ht f hf)
  | _ => exact hg trivial

/-- **When a `send` from another thread delivers its bytes.** In a run whose steps all spare
the strings given to `send`, every functor finds the bytes of its call; and only in such a run
are the strings what they were at the calls for as long as a functor is bound to them. -/
theorem send_delivers (heap : ℕ → Option Byte) (state : ConnId → StateE)
    {tr : List (SendAct × SendSys)} (h : Chain Step (new heap state) tr) :
    (Chain (fun s a _ => s.Spares a) (new heap state) tr →
      Always Delivers (new heap state) tr) ∧
    (Chain (fun s a _ => s.Spares a) (new heap state) tr ↔
      Always AllIntact (new heap state) tr) := by
  have h0 : (new heap state).AllIntact := by
    rintro f (hf | ⟨t, ht⟩)
    · cases hf
    · cases ht
  have keep : ∀ s a t, AllIntact s → Step s a t → s.Spares a → t.AllIntact :=
    fun s a t hs hst hg => hs.step hst hg
  have brk : ∀ s a t, AllIntact s → Step s a t → ¬ s.Spares a → ¬ t.AllIntact :=
    fun s a t hs hst hg => not_allIntact_step hs hst hg
  have hiff := always_iff_of_inv (fun _ hs => hs) keep brk h0 h
  exact ⟨fun hg => (hiff.mpr hg).mono fun _ hs => hs.delivers, hiff.symm⟩

/-- The byte 65 is at the address 100. -/
def oneByte (i : ℕ) : Option Byte := if i = 100 then some 65 else none

/-- The thread 1 sends the byte at the address 100, and after the steps `between` the loop
comes to the functor. -/
def sendOne (between : List SendAct) : List (SendAct × SendSys) :=
  walk step (new oneByte fun _ => .kConnected) ([.send 1 7 100 1, .queue 1, .loop (.wakeup 1)] ++
    between ++ [.loop .enter, .loop .clearQuit, .loop .test, .loop (.epollWait [.wakeupChannel]),
      .loop .nextChannel, .loop .setCalling, .loop .swap, .loop .nextFunctor])

theorem send_delivers_oneByte :
    (sendOne [.alloc 200 66, .store 200 67]).length = 13 ∧
      Always Delivers (new oneByte fun _ => .kConnected)
        (sendOne [.alloc 200 66, .store 200 67]) := by
  refine ⟨by decide, (send_delivers _ _ (chain_walk _ _ _)).1 ⟨trivial, trivial, trivial, trivial,
    ?_, trivial, trivial, trivial, trivial, trivial, trivial, trivial, trivial, trivial⟩⟩
  rintro f (hf | ⟨t, ht⟩) hr
  · obtain rfl := List.mem_singleton.mp hf
    exact absurd hr (by decide)
  · by_cases h1 : t = 1
    · subst h1
      cases ht
    · change Function.update _ _ _ t = _ at ht
      rw [Function.update_of_ne h1] at ht
      change Function.update _ _ _ t = _ at ht
      rw [Function.update_of_ne h1] at ht
      cases ht

/-- The caller writes to its string, or lets it go, before the loop has come to the functor. -/
theorem send_delivers_broken :
    (Chain Step (new oneByte fun _ => .kConnected) (sendOne [.store 100 66]) ∧
      ¬ Always Delivers (new oneByte fun _ => .kConnected) (sendOne [.store 100 66])) ∧
    (Chain Step (new oneByte fun _ => .kConnected) (sendOne [.free 100]) ∧
      ¬ Always Delivers (new oneByte fun _ => .kConnected) (sendOne [.free 100])) := by
  have hlast : ∀ {tr : List (SendAct × SendSys)} {e},
      Always Delivers (new oneByte fun _ => .kConnected) tr → tr.getLast? = some e →
      e.2.Delivers := fun h he => h.2 _ (List.mem_of_getLast? he)
  refine ⟨⟨chain_walk _ _ _, fun h => ?_⟩, ⟨chain_walk _ _ _, fun h => ?_⟩⟩
  · exact absurd (hlast h rfl _ rfl) (by decide)
  · exact absurd (hlast h rfl _ rfl) (by decide)

end SendSys

end Reactor
