import Mathlib.Data.List.GetD
import Reactor.PendingFunctors
import Reactor.ThreadShutdown
import Reactor.Wakeup
import Reactor.Lib.Schedule

/-!
What a loop comes to: every functor pushed is run unless the loop is left before, and a loop that
was told to quit is left.

The timeout of `epoll_wait` plays no part. A wait has to end only if the wake-up counter is not
zero; apart from that each thread goes on with what it has begun, and code of the user comes to an
end.
-/

namespace Reactor.LoopSys

open Lib.Trace Lib.Schedule

variable {F : Type*} {s t : LoopSys F}

/-! ### Fairness -/

/-- Whose turn it is: the loop's thread in `loop()`, user code in that thread, or another thread
in `queueInloop` or `quit`. -/
inductive Party
  | loop
  | user
  | caller (t : ℕ)

/-- The loop's thread goes on unless it waits without a wake-up. -/
def Enabled : Party → LoopSys F → Prop
  | .loop, s => s.pc.inner = none ∧ s.pc ≠ .outside ∧ (s.pc = .poll → 0 < s.loop.wakeupCount)
  | .user, s => s.pc.inner ≠ none
  | .caller t, s => s.callers t ≠ .idle

/-- The steps of the loop's thread inside of `loop()`. -/
def ofLoop : LoopAct F → Bool
  | .clearQuit | .test | .epollWait _ | .nextChannel | .setCalling | .swap | .nextFunctor
  | .clearCalling | .leave => true
  | _ => false

def Does : Party → LoopAct F → Prop
  | .loop, a => ofLoop a = true
  | .user, a => a = .ret
  | .caller t, a => a = .wakeup t

/-- A schedule that lets everyone finish what has been begun. -/
def Fair (sched : ℕ → LoopAct F) : Prop :=
  ∀ p, WeaklyFair step new sched (Enabled p) (Does p)

/-! ### What a step does -/

/-- Where the loop's thread goes from where it is. -/
inductive Goes (s : LoopSys F) : LoopPc F → LoopPc F → Prop
  | enter : Goes s .outside .enter
  | clearQuit : Goes s .enter .check
  | testQuit (h : s.loop.quit_ = true) : Goes s .check .leave
  | test (h : s.loop.quit_ = false) : Goes s .check .poll
  | epollWait (active : List Active) : Goes s .poll (.handling active)
  | handleRead (active : List Active) :
      Goes s (.handling (.wakeupChannel :: active)) (.handling active)
  | callback (active : List Active) :
      Goes s (.handling (.channel :: active)) (.callback .running active)
  | setCalling : Goes s (.handling []) .swap
  | swap : Goes s .swap (.functors s.loop.pendingFuntors_)
  | nextFunctor (f : F) (batch : List F) :
      Goes s (.functors (f :: batch)) (.functor .running batch)
  | clearCalling : Goes s (.functors []) .check
  | retCallback (active : List Active) : Goes s (.callback .running active) (.handling active)
  | retFunctor (batch : List F) : Goes s (.functor .running batch) (.functors batch)
  | leave : Goes s .leave .outside

lemma own_goes {a : LoopAct F} (h : s.own a = some t) : s.Goes s.pc t.pc := by
  unfold own at h
  split at h
  case h_3 hpc =>
    obtain rfl := Option.some.inj h
    rw [hpc]
    cases hq : s.loop.quit_
    · exact .test hq
    · exact .testQuit hq
  case h_4 hpc =>
    simp only [Option.ite_none_right_eq_some, Option.some.injEq] at h
    obtain ⟨-, rfl⟩ := h
    rw [hpc]
    exact .epollWait _
  case h_14 => cases h
  all_goals
    rename_i hpc
    obtain rfl := Option.some.inj h
    rw [hpc]
    constructor

/-- What the other threads do leaves the loop's thread where it is. A thread that has begun goes on
to `wakeup()`. -/
lemma other_cases {a : LoopAct F} (h : s.other a = some t) :
    t.pc = s.pc ∧ s.loop.wakeupCount ≤ t.loop.wakeupCount ∧
      ((∃ i, a = .wakeup i ∧ 0 < t.loop.wakeupCount) ∨
        ((∃ i f, a = .push i f) ∨ ∃ i, a = .storeQuit i) ∧
          ∀ i, s.callers i ≠ .idle → t.callers i ≠ .idle) := by
  have hupdate : ∀ (i : ℕ) (c : Caller), c ≠ .idle → ∀ j, s.callers j ≠ .idle →
      Function.update s.callers i c j ≠ .idle := by
    intro i c hc j hj
    rcases eq_or_ne j i with rfl | hne
    · rwa [Function.update_self]
    · rwa [Function.update_of_ne hne]
  cases a with
  | push i f =>
      simp only [other, Option.ite_none_right_eq_some, Option.some.injEq] at h
      obtain ⟨-, rfl⟩ := h
      exact ⟨rfl, le_rfl, Or.inr ⟨Or.inl ⟨i, f, rfl⟩, hupdate i _ (by simp)⟩⟩
  | storeQuit i =>
      simp only [other, Option.ite_none_right_eq_some, Option.some.injEq] at h
      obtain ⟨-, rfl⟩ := h
      exact ⟨rfl, le_rfl, Or.inr ⟨Or.inr ⟨i, rfl⟩, hupdate i _ (by simp)⟩⟩
  | wakeup i =>
      simp only [other, Option.ite_none_left_eq_some, Option.some.injEq] at h
      obtain ⟨-, rfl⟩ := h
      refine ⟨rfl, ?_, Or.inl ⟨i, rfl, s.loop.wakeup_pos⟩⟩
      unfold EventLoop.wakeup
      split_ifs
      · exact Nat.le_succ _
      · exact le_rfl
  | _ => cases h

/-! ### How far it is -/

/-- The first of the threads that owe a wake-up. -/
noncomputable def firstCaller (s : LoopSys F) : ℕ := sInf {i | s.callers i ≠ .idle}

/-- Who brings the loop's thread on. -/
noncomputable def helpful (s : LoopSys F) : Party :=
  match s.pc with
  | .callback _ _ | .functor _ _ => .user
  | .poll => if s.loop.wakeupCount = 0 then .caller s.firstCaller else .loop
  | _ => .loop

/-- How far the loop's thread is from the end of what it is at: the wait, the events, the functors
of a batch, or the way out. -/
noncomputable def near (s : LoopSys F) : ℕ :=
  match s.pc with
  | .outside | .leave | .swap => 0
  | .check => 1
  | .enter => 2
  | .poll => if s.loop.wakeupCount = 0 then s.firstCaller + 1 else 0
  | .handling active => 2 * active.length + 1
  | .callback _ active => 2 * active.length + 2
  | .functors batch => 2 * batch.length + 2
  | .functor _ batch => 2 * batch.length + 3

lemma Woken.firstCaller (h : s.Woken) (h0 : s.loop.wakeupCount = 0) :
    s.callers s.firstCaller ≠ .idle := by
  obtain ⟨i, hi⟩ := h.resolve_left (by omega)
  have hne : Set.Nonempty {i | s.callers i ≠ .idle} := by
    refine ⟨i, ?_⟩
    rcases hi with hi | hi <;> simp [hi]
  exact Nat.sInf_mem hne

/-- The helpful one can go on. -/
lemma enabled_helpful (hout : s.pc ≠ .outside) (hw : s.pc = .poll → s.Woken) :
    Enabled s.helpful s := by
  unfold helpful
  split
  case h_1 hpc => simp [Enabled, hpc, LoopPc.inner]
  case h_2 hpc => simp [Enabled, hpc, LoopPc.inner]
  case h_3 hpc =>
    split_ifs with h0
    · exact (hw hpc).firstCaller h0
    · exact ⟨by simp [hpc, LoopPc.inner], hout, fun _ => Nat.pos_of_ne_zero h0⟩
  case h_4 hcb hf hpoll =>
    refine ⟨?_, hout, fun hpc => absurd hpc hpoll⟩
    cases hpc : s.pc <;> simp_all [LoopPc.inner]

/-- The other threads bring the loop's thread closer to the end of its wait, or leave it where it
is. -/
lemma other_near {a : LoopAct F} (h : s.other a = some t) (hw : s.pc = .poll → s.Woken) :
    (t.near < s.near ∨ t.near = s.near ∧ t.helpful = s.helpful) ∧
      (Does s.helpful a → t.near < s.near) := by
  obtain ⟨hpc, hcount, hcase⟩ := other_cases h
  have hloop : ofLoop a = false ∧ a ≠ .ret := by
    rcases hcase with ⟨i, rfl, -⟩ | ⟨⟨i, f, rfl⟩ | ⟨i, rfl⟩, -⟩ <;> exact ⟨rfl, by simp⟩
  by_cases hpoll : s.pc = .poll
  swap
  · have hnear : t.near = s.near ∧ t.helpful = s.helpful := by
      unfold near helpful
      rw [hpc]
      cases hs : s.pc <;> first | exact absurd hs hpoll | exact ⟨rfl, rfl⟩
    refine ⟨Or.inr hnear, fun hdoes => ?_⟩
    unfold helpful at hdoes
    cases hs : s.pc <;> rw [hs] at hdoes <;> simp_all [Does]
  have hnear (r : LoopSys F) (hr : r.pc = .poll) : r.near =
      if r.loop.wakeupCount = 0 then r.firstCaller + 1 else 0 := by rw [near, hr]
  have hhelp (r : LoopSys F) (hr : r.pc = .poll) : r.helpful =
      if r.loop.wakeupCount = 0 then .caller r.firstCaller else .loop := by rw [helpful, hr]
  have ht := hpc.trans hpoll
  rw [hnear t ht, hnear s hpoll, hhelp t ht, hhelp s hpoll]
  by_cases h0 : s.loop.wakeupCount = 0
  swap
  · have ht0 : t.loop.wakeupCount ≠ 0 := by omega
    rw [if_neg h0, if_neg ht0, if_neg h0, if_neg ht0]
    exact ⟨Or.inr ⟨rfl, rfl⟩, fun hdoes => absurd hdoes (by simp [Does, hloop])⟩
  rw [if_pos h0, if_pos h0]
  rcases hcase with ⟨i, -, hpos⟩ | ⟨hnot, hkeep⟩
  · rw [if_neg (by omega)]
    exact ⟨Or.inl (Nat.succ_pos _), fun _ => Nat.succ_pos _⟩
  · refine ⟨?_, ?_⟩
    · by_cases ht0 : t.loop.wakeupCount = 0
      · rw [if_pos ht0, if_pos ht0]
        have hle : t.firstCaller ≤ s.firstCaller :=
          Nat.sInf_le (hkeep _ ((hw hpoll).firstCaller h0))
        rcases hle.lt_or_eq with hlt | heq
        · exact Or.inl (by omega)
        · exact Or.inr (by rw [heq]; exact ⟨rfl, rfl⟩)
      · rw [if_neg ht0]
        exact Or.inl (Nat.succ_pos _)
    · intro hdoes
      rcases hnot with ⟨i, f, rfl⟩ | ⟨i, rfl⟩ <;> cases hdoes

/-- User code leaves the loop's thread where it is. -/
lemma user_near {a : LoopAct F} (h : s.user a = some t) :
    (t.near = s.near ∧ t.helpful = s.helpful) ∧ ¬ Does s.helpful a ∧
      ∃ inner, t.pc = s.pc.setInner inner ∨ t.pc = s.pc := by
  have huser := user_cases h
  obtain ⟨inner, hinner⟩ : ∃ inner, s.pc.inner = some inner := by
    rcases huser with ⟨f, hi, -⟩ | ⟨hi, -⟩ | ⟨hi, -⟩ | ⟨hi, -⟩ <;> exact ⟨_, hi⟩
  have hret : a ≠ .ret := by
    rintro rfl
    cases h
  have hpc : ∃ inner, t.pc = s.pc.setInner inner ∨ t.pc = s.pc := by
    rcases huser with ⟨f, -, rfl⟩ | ⟨-, rfl⟩ | ⟨-, rfl⟩ | ⟨-, rfl⟩
    · exact ⟨_, Or.inl rfl⟩
    · exact ⟨_, Or.inl rfl⟩
    · exact ⟨_, Or.inl rfl⟩
    · exact ⟨inner, Or.inr rfl⟩
  refine ⟨?_, ?_, hpc⟩
  · obtain ⟨inner', hpc⟩ := hpc
    rcases LoopPc.inner_eq_some hinner with ⟨active, hs⟩ | ⟨batch, hs⟩ <;>
      rcases hpc with hpc | hpc <;> simp [near, helpful, hpc, hs, LoopPc.setInner]
  · rcases LoopPc.inner_eq_some hinner with ⟨active, hs⟩ | ⟨batch, hs⟩ <;>
      simp [helpful, hs, Does, hret]

/-! ### Runs -/

variable {sched : ℕ → LoopAct F}

/-- What the steps of the loop's thread bring closer comes about, if `stage` is a measure of where
that thread is, whatever its user code does. -/
lemma eventually (Inv P : LoopSys F → Prop) (fair : Fair sched) (stage : LoopPc F → ℕ)
    (hstage : ∀ pc inner, stage (pc.setInner inner) = stage pc)
    (keep : ∀ s a t, Inv s → ¬ P s → s.step a = some t → Inv t)
    (hout : ∀ s, Inv s → ¬ P s → s.pc ≠ .outside)
    (hw : ∀ s, Inv s → ¬ P s → s.pc = .poll → s.Woken)
    (hown : ∀ s a t, Inv s → ¬ P s → s.own a = some t →
      P t ∨ toLex (stage t.pc, t.near) < toLex (stage s.pc, s.near))
    {n : ℕ} (h : Inv (play step new sched n)) : ∃ m ≥ n, P (play step new sched m) := by
  let rank (s : LoopSys F) : ℕ ×ₗ ℕ := toLex (stage s.pc, s.near)
  have hlt : ∀ {s t : LoopSys F}, t.pc = s.pc → t.near < s.near → rank t < rank s := by
    intro s t hpc hnear
    exact Prod.Lex.toLex_lt_toLex.mpr (Or.inr ⟨congrArg stage hpc, hnear⟩)
  have hsame : ∀ {s t : LoopSys F}, stage t.pc = stage s.pc → t.near = s.near →
      rank t = rank s := by
    intro s t hpc hnear
    simp only [rank, hpc, hnear]
  have hcases : ∀ s a t, Inv s → ¬ P s → s.step a = some t →
      (P t ∨ rank t < rank s ∨ rank t = rank s ∧ t.helpful = s.helpful) ∧
        (Does s.helpful a → P t ∨ rank t < rank s) := by
    intro s a t hInv hP hstep
    unfold step at hstep
    split at hstep
    case h_8 =>
      have hless := hown s _ t hInv hP hstep
      exact ⟨hless.imp_right Or.inl, fun _ => hless⟩
    case h_1 | h_2 | h_3 =>
      obtain ⟨hnear, hdoes⟩ := other_near hstep (hw s hInv hP)
      have hpc := (other_cases hstep).1
      refine ⟨Or.inr ?_, fun hd => Or.inr (hlt hpc (hdoes hd))⟩
      exact hnear.imp (hlt hpc) fun hn => ⟨hsame (congrArg stage hpc) hn.1, hn.2⟩
    all_goals
      obtain ⟨⟨hnear, hhelp⟩, hnot, inner, hpc⟩ := user_near hstep
      have hst : stage t.pc = stage s.pc := by
        rcases hpc with hpc | hpc
        · rw [hpc, hstage]
        · rw [hpc]
      exact ⟨Or.inr (Or.inr ⟨hsame hst hnear, hhelp⟩), fun hd => absurd hd hnot⟩
  exact eventually_of_helpful P rank helpful Enabled Does keep
    (fun s hInv hP => enabled_helpful (hout s hInv hP) (hw s hInv hP))
    (fun s a t hInv hP hstep => (hcases s a t hInv hP hstep).1)
    (fun s a t hInv hP hd hstep => (hcases s a t hInv hP hstep).2 hd) fair h

/-- The loop is left, or not yet entered. -/
def Left (s : LoopSys F) : Prop := s.pc = .leave ∨ s.pc = .outside

/-- The functor pushed at place `i` is the next to be run, or has been run. -/
structure Awaits (i : ℕ) (f : F) (s : LoopSys F) : Prop where
  inv : s.Inv
  queued : s.Queued
  pushed : s.pushed[i]? = some f
  next : i ≤ s.executed.length

lemma Awaits.step {i : ℕ} {f : F} {a : LoopAct F} (h : s.Awaits i f) (hstep : s.step a = some t) :
    t.Awaits i f := by
  obtain ⟨hpush, hrun⟩ := records_step hstep
  refine ⟨h.inv.step hstep, h.queued.step hstep, ?_, ?_⟩
  · have hi := (List.getElem?_eq_some_iff.mp h.pushed).1
    rw [hpush, List.getElem?_append_left hi, h.pushed]
  · rw [hrun, List.length_append]
    exact h.next.trans (Nat.le_add_right _ _)

/-- The functor that has been run at place `i` is the one pushed there. -/
lemma Awaits.executed {i : ℕ} {f : F} (h : s.Awaits i f) (hi : i < s.executed.length) :
    s.executed[i]? = some f := by
  rw [← h.pushed, ← h.queued.order, List.append_assoc, List.getElem?_append_left hi]

/-- As long as the functor has not been run, and none of the batch is left, it is pending. -/
lemma Awaits.pending {i : ℕ} {f : F} (h : s.Awaits i f) (hi : ¬ i < s.executed.length)
    (hbatch : s.pc.batch = []) : s.loop.pendingFuntors_ ≠ [] := by
  intro hnil
  have horder := h.queued.order
  rw [hbatch, hnil, List.append_nil, List.append_nil] at horder
  have hlt := (List.getElem?_eq_some_iff.mp h.pushed).1
  rw [← horder] at hlt
  exact hi hlt

/-- The loop's way round to the next functor: the rest of an iteration, the wait, the events, the
batch. -/
def turn : LoopPc F → ℕ
  | .functors (_ :: _) | .functor _ (_ :: _) => 0
  | .swap | .handling _ | .callback _ _ => 1
  | .poll => 2
  | _ => 3

/-- The loop's way out: the wait, the events, the batch and the next test. -/
def wayOut : LoopPc F → ℕ
  | .poll => 2
  | .swap | .handling _ | .callback _ _ => 1
  | _ => 0

lemma turn_setInner (pc : LoopPc F) (inner : Inner) : turn (pc.setInner inner) = turn pc := by
  cases pc with
  | functor _ batch => cases batch <;> rfl
  | _ => rfl

lemma wayOut_setInner (pc : LoopPc F) (inner : Inner) :
    wayOut (pc.setInner inner) = wayOut pc := by
  cases pc <;> rfl

/-- The loop's thread comes to the next functor. -/
lemma Awaits.own {i : ℕ} {f : F} {a : LoopAct F} (h : s.Awaits i f)
    (hnot : ¬ (i < s.executed.length ∨ s.Left)) (hstep : s.own a = some t) :
    (i < t.executed.length ∨ t.Left) ∨
      toLex (turn t.pc, t.near) < toLex (turn s.pc, s.near) := by
  obtain ⟨hi, hleft⟩ := not_or.mp hnot
  have hpend := h.pending hi
  have hrun := (records_own hstep).2
  have hgoes := own_goes hstep
  rw [Prod.Lex.toLex_lt_toLex]
  generalize hs : s.pc = p at hgoes hpend
  generalize ht : t.pc = q at hgoes
  cases hgoes with
  | enter => exact absurd (Or.inr hs) hleft
  | leave => exact absurd (Or.inl hs) hleft
  | testQuit => exact Or.inl (Or.inr (Or.inl ht))
  | test => exact Or.inr (Or.inl (Nat.lt_succ_self 2))
  | swap =>
      obtain ⟨g, batch, hcons⟩ := List.exists_cons_of_ne_nil (hpend rfl)
      refine Or.inr (Or.inl ?_)
      rw [hcons]
      exact Nat.zero_lt_one
  | nextFunctor g batch =>
      -- a functor runs
      left; left
      have hnext : a = .nextFunctor := by
        unfold LoopSys.own at hstep
        split at hstep <;> simp_all
      have hone : s.ranBy a = [g] := by rw [hnext, ranBy, hs]; rfl
      rw [hrun, hone, List.length_append, List.length_singleton]
      exact Nat.lt_succ_of_le h.next
  | epollWait active => exact Or.inr (Or.inl (Nat.lt_succ_self 1))
  | handleRead active | callback active =>
      refine Or.inr (Or.inr ⟨rfl, ?_⟩)
      simp only [near, hs, ht, List.length_cons]
      omega
  | retFunctor batch => cases batch <;> simp [turn, near, hs, ht]
  | _ => simp [turn, near, hs, ht]

/-- A loop that has been told to quit. -/
structure Quits (s : LoopSys F) : Prop where
  inv : s.Inv
  quit : s.loop.quit_ = true
  entered : s.pc ≠ .enter

lemma pc_of_clearQuit (h : s.step .clearQuit = some t) : s.pc = .enter := by
  simp only [step, own] at h
  split at h
  all_goals first | assumption | simp_all

/-- What a loop is told stays so until it has been left. -/
lemma Quits.step {a : LoopAct F} (h : s.Quits) (hout : s.pc ≠ .outside)
    (hstep : s.step a = some t) : t.Quits := by
  have hclear : a ≠ .clearQuit := by
    rintro rfl
    exact h.entered (pc_of_clearQuit hstep)
  refine ⟨h.inv.step hstep, quit_of_step hstep hclear h.quit, ?_⟩
  unfold LoopSys.step at hstep
  split at hstep
  case h_8 =>
    have hgoes := own_goes hstep
    intro hpc
    rw [hpc] at hgoes
    generalize s.pc = p at hgoes hout
    cases hgoes
    exact hout rfl
  case h_1 | h_2 | h_3 => exact (other_cases hstep).1 ▸ h.entered
  all_goals
    have hentered := h.entered
    obtain ⟨-, -, inner, hpc | hpc⟩ := user_near hstep
    · rw [hpc]
      cases hs : s.pc <;> simp_all [LoopPc.setInner]
    · rwa [hpc]

/-- The loop's thread comes to the way out. -/
lemma Quits.own {a : LoopAct F} (h : s.Quits) (hout : s.pc ≠ .outside)
    (hstep : s.own a = some t) :
    t.pc = .outside ∨ toLex (wayOut t.pc, t.near) < toLex (wayOut s.pc, s.near) := by
  have hgoes := own_goes hstep
  have hquit := h.quit
  have henter := h.entered
  rw [Prod.Lex.toLex_lt_toLex]
  generalize hs : s.pc = p at hgoes henter hout
  generalize ht : t.pc = q at hgoes
  cases hgoes with
  | enter => exact absurd rfl hout
  | clearQuit => exact absurd rfl henter
  | leave => exact Or.inl rfl
  | test hfalse => simp [hquit] at hfalse
  | swap => exact Or.inr (Or.inl Nat.zero_lt_one)
  | epollWait active => exact Or.inr (Or.inl (Nat.lt_succ_self 1))
  | handleRead active | callback active | nextFunctor f batch =>
      refine Or.inr (Or.inr ⟨rfl, ?_⟩)
      simp only [near, hs, ht, List.length_cons]
      omega
  | _ => exact Or.inr (Or.inr ⟨rfl, by simp [near, hs, ht]⟩)

lemma play_inv_new (n : ℕ) :
    (play step (new : LoopSys F) sched n).Inv ∧ (play step (new : LoopSys F) sched n).Queued :=
  play_inv (fun (s : LoopSys F) _ _ (h : s.Inv ∧ s.Queued) hstep =>
    ⟨h.1.step hstep, h.2.step hstep⟩) ⟨inv_new, queued_new⟩ n

/-- What has been pushed stays at its place. -/
lemma pushed_later {i n m : ℕ} {f : F} (h : (play step new sched n).pushed[i]? = some f)
    (hm : n ≤ m) : (play step new sched m).pushed[i]? = some f := by
  induction m, hm using Nat.le_induction with
  | base => exact h
  | succ m _ ih =>
      rcases hstep : step (play step new sched m) (sched m) with _ | t
      · rwa [play_succ_of_none hstep]
      · rw [play_succ_of_some hstep, (records_step hstep).1,
          List.getElem?_append_left (List.getElem?_eq_some_iff.mp ih).1, ih]

lemma awaits_play {i n m : ℕ} {f : F} (h : (play step new sched n).pushed[i]? = some f)
    (hm : n ≤ m) (hnext : i ≤ (play step new sched m).executed.length) :
    (play step new sched m).Awaits i f :=
  ⟨(play_inv_new m).1, (play_inv_new m).2, pushed_later h hm, hnext⟩

/-- The next functor comes to be run. -/
lemma runs_next (fair : Fair sched) {i n m : ℕ} {f : F}
    (h : (play step new sched n).pushed[i]? = some f) (hm : n ≤ m)
    (hnext : i ≤ (play step new sched m).executed.length) :
    ∃ k ≥ m, (play step new sched k).executed[i]? = some f ∨ (play step new sched k).Left := by
  have hrun := eventually (Awaits i f) (fun s => i < s.executed.length ∨ s.Left) fair turn
    turn_setInner (fun s a t hs _ hstep => hs.step hstep)
    (fun s _ hnot hpc => hnot (Or.inr (Or.inr hpc)))
    (fun s hs hnot hpc => by
      have hpend := hs.pending (fun hi => hnot (Or.inl hi)) (by rw [hpc]; rfl)
      exact hs.inv.wakesUp hpc (Or.inl hpend))
    (fun s a t hs hnot hstep => hs.own hnot hstep) (awaits_play h hm hnext)
  obtain ⟨k, hk, hrun⟩ := hrun
  exact ⟨k, hk, hrun.imp_left fun hi => (awaits_play h (hm.trans hk) hi.le).executed hi⟩

/-- **What a loop comes to.** Under any schedule that lets everyone finish what has been begun, a
functor pushed is run, in its place, or the loop is left; and a loop that was told to quit after
`loop()` had begun returns. No wait needs its timeout for that. -/
theorem functors_run (sched : ℕ → LoopAct F) (fair : Fair sched) :
    (∀ n (i : ℕ) f, (play step new sched n).pushed[i]? = some f →
      ∃ m ≥ n, (play step new sched m).executed[i]? = some f ∨ (play step new sched m).Left) ∧
    ∀ n, (play step new sched n).loop.quit_ = true → (play step new sched n).pc ≠ .enter →
      ∃ m ≥ n, (play step new sched m).pc = .outside := by
  refine ⟨?_, fun n hquit henter => ?_⟩
  · intro n i
    induction i with
    | zero => exact fun f hf => runs_next fair hf le_rfl (Nat.zero_le _)
    | succ i ih =>
        intro f hf
        have hlt := (List.getElem?_eq_some_iff.mp hf).1
        obtain ⟨m, hm, hrun | hleft⟩ := ih _ (List.getElem?_eq_getElem (Nat.lt_of_succ_lt hlt))
        · obtain ⟨k, hk, h⟩ := runs_next fair hf hm (List.getElem?_eq_some_iff.mp hrun).1
          exact ⟨k, hm.trans hk, h⟩
        · exact ⟨m, hm, Or.inr hleft⟩
  · exact eventually Quits (fun s => s.pc = .outside) fair wayOut wayOut_setInner
      (fun s a t hs hout hstep => hs.step hout hstep) (fun s _ hout => hout)
      (fun s hs _ hpc => hs.inv.wakesUp hpc (Or.inr hs.quit))
      (fun s a t hs hout hstep => hs.own hout hstep) ⟨(play_inv_new n).1, hquit, henter⟩

/-- A functor is pushed from outside, and then `quit` is called. -/
def pushThenQuit : List (LoopAct ℕ) :=
  [.enter, .clearQuit, .test, .push 1 7, .wakeup 1, .storeQuit 1, .wakeup 1,
    .epollWait [.wakeupChannel], .nextChannel, .setCalling, .swap, .nextFunctor, .ret,
    .clearCalling, .test, .leave]

lemma play_pushThenQuit (k : ℕ) :
    play step new (pushThenQuit.getD · .test) (16 + k) =
      play step new (pushThenQuit.getD · .test) 16 := by
  refine play_stuck (fun i => ?_) k
  rw [List.getD_eq_default _ _ (Nat.le_add_right 16 i)]
  rfl

/-- After it has left, nobody has anything begun. -/
lemma fair_pushThenQuit : Fair (pushThenQuit.getD · .test) := by
  intro p n h
  have hend := h (16 + n) (Nat.le_add_left n 16)
  rw [play_pushThenQuit] at hend
  cases p with
  | loop => exact absurd rfl hend.2.1
  | user => exact absurd rfl hend
  | caller t =>
      refine absurd ?_ hend
      change Function.update (Function.update (Function.update (Function.update
        (fun _ => Caller.idle) 1 .pushed) 1 .idle) 1 .quitting) 1 .idle t = .idle
      simp [Function.update_apply]

theorem functors_run_pushThenQuit :
    (∃ m ≥ 4, (play step new (pushThenQuit.getD · .test) m).executed[0]? = some 7 ∨
        (play step new (pushThenQuit.getD · .test) m).Left) ∧
      ∃ m ≥ 6, (play step new (pushThenQuit.getD · .test) m).pc = .outside :=
  ⟨(functors_run _ fair_pushThenQuit).1 4 0 7 rfl,
    (functors_run _ fair_pushThenQuit).2 6 rfl (by rintro ⟨⟩)⟩

end Reactor.LoopSys
