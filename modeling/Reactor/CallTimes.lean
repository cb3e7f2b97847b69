import Reactor.CallOrder

/-!
When calls run. Calls of the loop's thread run where they are made, and calls of the others run
in the order of their functors; so a call can be overtaken in one way, by a later one of the
loop's thread that does not wait for the functor.
-/

namespace Reactor

/-! ### Times -/

section

variable {a b c : Option ℕ} {clock : ℕ} {f : CallId → Option ℕ} {i j : CallId}

lemma Before.ne_left (h : Before a b) : a ≠ none := by
  obtain ⟨m, n, rfl, -, -⟩ := h
  simp

lemma Before.ne_right (h : Before a b) : b ≠ none := by
  obtain ⟨m, n, -, rfl, -⟩ := h
  simp

lemma Before.trans (h : Before a b) (h' : Before b c) : Before a c := by
  obtain ⟨m, n, rfl, rfl, hmn⟩ := h
  obtain ⟨n', k, he, rfl, hnk⟩ := h'
  cases he
  exact ⟨m, k, rfl, rfl, hmn.trans hnk⟩

lemma Before.not_refl (h : Before a a) : False := by
  obtain ⟨m, n, rfl, he, hlt⟩ := h
  cases he
  exact Nat.lt_irrefl _ hlt

/-- The times are before the clock. -/
def Past (clock : ℕ) (f : CallId → Option ℕ) : Prop := ∀ i n, f i = some n → n < clock

lemma Past.before (h : Past clock f) (hi : f i ≠ none) : Before (f i) (some clock) := by
  obtain ⟨n, hn⟩ := Option.ne_none_iff_exists'.mp hi
  exact ⟨n, clock, hn, rfl, h i n hn⟩

lemma Past.not_before (h : Past clock f) : ¬ Before (some clock) (f i) := by
  rintro ⟨m, n, he, hn, hlt⟩
  cases he
  exact Nat.lt_asymm hlt (h i n hn)

lemma Past.tick (h : Past clock f) : Past (clock + 1) f := fun i n hn =>
  Nat.lt_succ_of_lt (h i n hn)

lemma Past.update (h : Past clock f) (i : CallId) :
    Past (clock + 1) (Function.update f i (some clock)) := by
  intro j n hn
  by_cases hj : j = i
  · subst hj
    rw [Function.update_self] at hn
    cases hn
    exact Nat.lt_succ_self _
  · rw [Function.update_of_ne hj] at hn
    exact h.tick j n hn

end

/-- What the history says of a thread in a call. -/
def CallPc.Ok (times : Times) (w : Option ℕ) : CallPc → Prop
  | .idle => True
  | .tested n | .ready n => times.called ⟨w, n⟩ ≠ none ∧ times.pushed ⟨w, n⟩ = none ∧
      times.ran ⟨w, n⟩ = none ∧ times.returned ⟨w, n⟩ = none
  | .returning n => times.returned ⟨w, n⟩ = none ∧
      if w = none then times.ran ⟨w, n⟩ ≠ none else times.pushed ⟨w, n⟩ ≠ none

lemma CallPc.Ok.congr {times times' : Times} {w : Option ℕ} {pc : CallPc} (h : pc.Ok times w)
    (hn : ∀ n, times'.called ⟨w, n⟩ = times.called ⟨w, n⟩ ∧
      times'.pushed ⟨w, n⟩ = times.pushed ⟨w, n⟩ ∧ times'.ran ⟨w, n⟩ = times.ran ⟨w, n⟩ ∧
      times'.returned ⟨w, n⟩ = times.returned ⟨w, n⟩) : pc.Ok times' w := by
  cases pc with
  | idle => trivial
  | _ n =>
      obtain ⟨hc, hp, hr, ht⟩ := hn n
      simp only [Ok, hc, hp, hr, ht] at h ⊢
      exact h

lemma CallId.ne_of_thread {v w : Option ℕ} (h : v ≠ w) (m n : ℕ) :
    (⟨v, m⟩ : CallId) ≠ ⟨w, n⟩ := fun he => h (congrArg CallId.thread he)

/-- A step of the thread `w` in a call of its own. -/
lemma CallPc.Ok.update {times times' : Times} {calls : Option ℕ → CallPc} {w : Option ℕ}
    {pc : CallPc} (h : ∀ v, (calls v).Ok times v) (hpc : pc.Ok times' w)
    (ho : ∀ i : CallId, i.thread ≠ w → times'.called i = times.called i ∧
      times'.pushed i = times.pushed i ∧ times'.ran i = times.ran i ∧
      times'.returned i = times.returned i) (v : Option ℕ) :
    (Function.update calls w pc v).Ok times' v := by
  by_cases hv : v = w
  · subst hv
    rw [Function.update_self]
    exact hpc
  · rw [Function.update_of_ne hv]
    exact (h v).congr fun n => ho ⟨v, n⟩ hv

/-- The thread is in its call `n`, which has neither run nor left a functor. -/
def CallPc.Begun (n : ℕ) (pc : CallPc) : Prop := pc = .tested n ∨ pc = .ready n

/-- Two functors of calls, in the order in which they were pushed. -/
def Job.Sorted (times : Times) (f g : Job) : Prop :=
  ∀ i j, f = .call i → g = .call j → Before (times.pushed i) (times.pushed j)

/-- **The history of the calls.** The steps of a call come in order; the functors are in the
queue in the order of their times, and have run in it; and nothing runs while the loop's thread
is about to run a call of its own. -/
structure InTime (sys : LoopSys Job) (calls : Option ℕ → CallPc) (clock : ℕ)
    (times : Times) : Prop where
  queued : sys.Queued
  past_called : Past clock times.called
  past_pushed : Past clock times.pushed
  past_ran : Past clock times.ran
  past_returned : Past clock times.returned
  pushed : ∀ i, times.pushed i ≠ none →
    i.thread ≠ none ∧ Before (times.called i) (times.pushed i)
  ran : ∀ i, times.ran i ≠ none →
    Before (if i.thread = none then times.called i else times.pushed i) (times.ran i)
  returned : ∀ i, times.returned i ≠ none →
    Before (if i.thread = none then times.ran i else times.pushed i) (times.returned i)
  pcs : ∀ w, (calls w).Ok times w
  jobs : ∀ i, .call i ∈ sys.pushed ↔ times.pushed i ≠ none
  sorted : sys.pushed.Pairwise (Job.Sorted times)
  executed : ∀ i, i.thread ≠ none → (.call i ∈ sys.executed ↔ times.ran i ≠ none)
  fifo : ∀ i j, Before (times.pushed i) (times.pushed j) → times.ran j ≠ none →
    Before (times.ran i) (times.ran j)
  alone : ∀ n, (calls none).Begun n → ∀ i, times.ran i ≠ none →
    Before (times.ran i) (times.called ⟨none, n⟩)
  here : ∀ i j, j.thread = none → Before (times.ran i) (times.ran j) →
    Before (times.ran i) (times.called j)

namespace InTime

variable {sys sys' : LoopSys Job} {calls : Option ℕ → CallPc} {clock : ℕ} {times : Times}

/-- A call not made has not come to anything. -/
lemma not_called (h : InTime sys calls clock times) {i : CallId} (hi : times.called i = none) :
    times.pushed i = none ∧ times.ran i = none ∧ times.returned i = none := by
  have hp : times.pushed i = none := by
    by_contra hp
    exact (h.pushed i hp).2.ne_left hi
  have hr : times.ran i = none := by
    by_contra hr
    have := (h.ran i hr).ne_left
    split_ifs at this
    · exact this hi
    · exact this hp
  refine ⟨hp, hr, ?_⟩
  by_contra ht
  have := (h.returned i ht).ne_left
  split_ifs at this
  · exact this hr
  · exact this hp

/-- A step that pushes and runs no functor of a call. -/
lemma loop (h : InTime sys calls clock times) (hq : sys'.Queued)
    (hpushed : ∃ l, sys'.pushed = sys.pushed ++ l ∧ ∀ f ∈ l, f = .other)
    (hexec : ∀ i, .call i ∈ sys'.executed ↔ .call i ∈ sys.executed) :
    InTime sys' calls (clock + 1) times := by
  obtain ⟨l, hl, hother⟩ := hpushed
  refine ⟨hq, h.past_called.tick, h.past_pushed.tick, h.past_ran.tick, h.past_returned.tick,
    h.pushed, h.ran, h.returned, h.pcs, fun i => ?_, ?_, fun i hi => ?_, h.fifo, h.alone, h.here⟩
  · rw [hl, List.mem_append, h.jobs i]
    refine or_iff_left fun hi => ?_
    cases hother _ hi
  · rw [hl, List.pairwise_append]
    refine ⟨h.sorted, ?_, fun f _ g hg i j _ hj => ?_⟩
    · refine List.pairwise_of_forall_mem_list fun f hf g _ i j hi _ => ?_
      cases hi.symm.trans (hother f hf)
    · cases hj.symm.trans (hother g hg)
  · rw [hexec i, h.executed i hi]

/-- A call is made. -/
lemma call (h : InTime sys calls clock times) {w : Option ℕ} {n : ℕ} {pc : CallPc}
    (hnew : times.called ⟨w, n⟩ = none) (hpc : pc.Begun n) :
    InTime sys (Function.update calls w pc) (clock + 1)
      { times with called := Function.update times.called ⟨w, n⟩ (some clock) } := by
  obtain ⟨hp, hr, ht⟩ := h.not_called hnew
  have hother : ∀ {i : CallId} {f : CallId → Option ℕ}, f ⟨w, n⟩ = none → f i ≠ none →
      Function.update times.called ⟨w, n⟩ (some clock) i = times.called i := by
    intro i f hf hi
    refine Function.update_of_ne ?_ _ _
    rintro rfl
    exact hi hf
  refine ⟨h.queued, h.past_called.update _, h.past_pushed.tick, h.past_ran.tick,
    h.past_returned.tick, fun i hi => ?_, fun i hi => ?_, h.returned,
    CallPc.Ok.update h.pcs ?_ fun i hi => ⟨?_, rfl, rfl, rfl⟩, h.jobs, h.sorted, h.executed,
    h.fifo, fun m hm i hi => ?_, fun i j hj hij => ?_⟩
  · simp only [hother hp hi]
    exact h.pushed i hi
  · simp only [hother hr hi]
    exact h.ran i hi
  · rcases hpc with rfl | rfl <;> simp [CallPc.Ok, hp, hr, ht]
  · refine Function.update_of_ne ?_ _ _
    rintro rfl
    exact hi rfl
  · by_cases hw : none = w
    · subst hw
      rw [Function.update_self] at hm
      have hmn : m = n := by
        rcases hpc with rfl | rfl <;> rcases hm with hm | hm <;> cases hm <;> rfl
      subst hmn
      simp only [Function.update_self]
      exact h.past_ran.before hi
    · rw [Function.update_of_ne hw] at hm
      simp only [ne_eq, CallId.ne_of_thread hw m n, not_false_eq_true, Function.update_of_ne]
      exact h.alone m hm i hi
  · simp only [hother hr hij.ne_right]
    exact h.here i j hj hij

/-- A thread goes on in its call. -/
lemma setState (h : InTime sys calls clock times) {w : Option ℕ} {n : ℕ}
    (hpc : calls w = .tested n) :
    InTime sys (Function.update calls w (.ready n)) (clock + 1) times := by
  have hw := h.pcs w
  rw [hpc] at hw
  refine ⟨h.queued, h.past_called.tick, h.past_pushed.tick, h.past_ran.tick,
    h.past_returned.tick, h.pushed, h.ran, h.returned,
    CallPc.Ok.update h.pcs hw fun _ _ => ⟨rfl, rfl, rfl, rfl⟩, h.jobs, h.sorted, h.executed,
    h.fifo, fun m hm i hi => ?_, h.here⟩
  by_cases hnone : none = w
  · subst hnone
    rw [Function.update_self] at hm
    have hmn : m = n := by rcases hm with hm | hm <;> cases hm; rfl
    exact hmn ▸ h.alone n (Or.inl hpc) i hi
  · rw [Function.update_of_ne hnone] at hm
    exact h.alone m hm i hi

/-- The loop's thread runs its own call. -/
lemma runHere (h : InTime sys calls clock times) {n : ℕ} (hpc : calls none = .ready n) :
    InTime sys (Function.update calls none (.returning n)) (clock + 1)
      { times with ran := Function.update times.ran ⟨none, n⟩ (some clock) } := by
  have hw := h.pcs none
  rw [hpc] at hw
  obtain ⟨hcalled, hp, hr, ht⟩ := hw
  have hself : ∀ {i : CallId}, i ≠ ⟨none, n⟩ →
      Function.update times.ran ⟨none, n⟩ (some clock) i = times.ran i := fun hi =>
    Function.update_of_ne hi _ _
  refine ⟨h.queued, h.past_called.tick, h.past_pushed.tick, h.past_ran.update _,
    h.past_returned.tick, h.pushed, fun i hi => ?_, fun i hi => ?_,
    CallPc.Ok.update h.pcs ⟨ht, ?_⟩ fun i hi => ⟨rfl, rfl, hself ?_, rfl⟩, h.jobs, h.sorted,
    fun i hi => ?_, fun i j hij hj => ?_, fun m hm => ?_, fun i j hj hij => ?_⟩
  · by_cases hin : i = ⟨none, n⟩
    · subst hin
      simp only [if_pos, Function.update_self]
      exact h.past_called.before hcalled
    · simp only [hself hin] at hi ⊢
      exact h.ran i hi
  · have hin : i ≠ ⟨none, n⟩ := by
      rintro rfl
      exact hi ht
    simp only [hself hin]
    exact h.returned i hi
  · simp
  · rintro rfl
    exact hi rfl
  · have hin : i ≠ ⟨none, n⟩ := by
      rintro rfl
      exact hi rfl
    simp only [hself hin]
    exact h.executed i hi
  · have hne : ∀ k : CallId, times.pushed k ≠ none → k ≠ ⟨none, n⟩ := by
      rintro k hk rfl
      exact hk hp
    simp only [hself (hne i hij.ne_left), hself (hne j hij.ne_right)] at hj ⊢
    exact h.fifo i j hij hj
  · rw [Function.update_self] at hm
    rcases hm with hm | hm <;> cases hm
  · by_cases hin : i = ⟨none, n⟩
    · subst hin
      have hjn : j ≠ ⟨none, n⟩ := by
        rintro rfl
        exact hij.not_refl
      simp only [Function.update_self, hself hjn] at hij
      exact absurd hij h.past_ran.not_before
    · simp only [hself hin] at hij ⊢
      by_cases hjn : j = ⟨none, n⟩
      · subst hjn
        exact h.alone n (Or.inr hpc) i hij.ne_left
      · rw [hself hjn] at hij
        exact h.here i j hj hij

/-- Another thread leaves a functor for its call. -/
lemma push (h : InTime sys calls clock times) {t n : ℕ} (hpc : calls (some t) = .ready n)
    (hq : sys'.Queued) (hpushed : sys'.pushed = sys.pushed ++ [.call ⟨some t, n⟩])
    (hexec : sys'.executed = sys.executed) :
    InTime sys' (Function.update calls (some t) (.returning n)) (clock + 1)
      { times with pushed := Function.update times.pushed ⟨some t, n⟩ (some clock) } := by
  have hw := h.pcs (some t)
  rw [hpc] at hw
  obtain ⟨hcalled, hp, hr, ht⟩ := hw
  have hself : ∀ {i : CallId}, i ≠ ⟨some t, n⟩ →
      Function.update times.pushed ⟨some t, n⟩ (some clock) i = times.pushed i := fun hi =>
    Function.update_of_ne hi _ _
  have hne : ∀ {f : CallId → Option ℕ} {i : CallId}, f ⟨some t, n⟩ = none → f i ≠ none →
      i ≠ ⟨some t, n⟩ := by
    rintro f i hf hi rfl
    exact hi hf
  refine ⟨hq, h.past_called.tick, h.past_pushed.update _, h.past_ran.tick,
    h.past_returned.tick, fun i hi => ?_, fun i hi => ?_, fun i hi => ?_,
    CallPc.Ok.update h.pcs ⟨ht, ?_⟩ fun i hi => ⟨rfl, hself ?_, rfl, rfl⟩, fun i => ?_, ?_,
    fun i hi => by rw [hexec]; exact h.executed i hi, fun i j hij hj => ?_, fun m hm => ?_,
    h.here⟩
  · by_cases hin : i = ⟨some t, n⟩
    · subst hin
      simp only [Function.update_self]
      exact ⟨by simp, h.past_called.before hcalled⟩
    · simp only [hself hin] at hi ⊢
      exact h.pushed i hi
  · simp only [hself (hne hr hi)]
    exact h.ran i hi
  · simp only [hself (hne ht hi)]
    exact h.returned i hi
  · simp
  · rintro rfl
    exact hi rfl
  · rw [hpushed, List.mem_append, List.mem_singleton, Job.call.injEq, h.jobs i]
    by_cases hin : i = ⟨some t, n⟩
    · simp [hin]
    · simp [hin]
  · rw [hpushed, List.pairwise_append]
    have hmem : ∀ i, .call i ∈ sys.pushed → i ≠ ⟨some t, n⟩ := fun i hi =>
      hne hp ((h.jobs i).mp hi)
    refine ⟨h.sorted.imp_of_mem fun {f g} hf hg hfg i j hi hj => ?_, List.pairwise_singleton _ _,
      fun f hf g hg i j hi hj => ?_⟩
    · subst hi hj
      simp only [hself (hmem i hf), hself (hmem j hg)]
      exact hfg i j rfl rfl
    · rw [List.mem_singleton] at hg
      subst hi hj
      cases hg
      simp only [hself (hmem i hf), Function.update_self]
      exact h.past_pushed.before ((h.jobs i).mp hf)
  · have hjn := hne hr hj
    simp only [hself hjn] at hij
    by_cases hin : i = ⟨some t, n⟩
    · subst hin
      rw [Function.update_self] at hij
      exact absurd hij h.past_pushed.not_before
    · rw [hself hin] at hij
      exact h.fifo i j hij hj
  · rw [Function.update_of_ne (by simp)] at hm
    exact h.alone m hm

/-- A call returns. -/
lemma ret (h : InTime sys calls clock times) {w : Option ℕ} {n : ℕ}
    (hpc : calls w = .returning n) (hq : sys'.Queued) (hpushed : sys'.pushed = sys.pushed)
    (hexec : sys'.executed = sys.executed) :
    InTime sys' (Function.update calls w .idle) (clock + 1)
      { times with returned := Function.update times.returned ⟨w, n⟩ (some clock) } := by
  have hw := h.pcs w
  rw [hpc] at hw
  obtain ⟨ht, hdone⟩ := hw
  refine ⟨hq, h.past_called.tick, h.past_pushed.tick, h.past_ran.tick,
    h.past_returned.update _, h.pushed, h.ran, fun i hi => ?_,
    CallPc.Ok.update h.pcs trivial fun i hi => ⟨rfl, rfl, rfl, Function.update_of_ne ?_ _ _⟩,
    by rw [hpushed]; exact h.jobs, by rw [hpushed]; exact h.sorted,
    by rw [hexec]; exact h.executed, h.fifo, fun m hm => ?_, h.here⟩
  · by_cases hin : i = ⟨w, n⟩
    · subst hin
      simp only [Function.update_self]
      split_ifs at hdone ⊢
      · exact h.past_ran.before hdone
      · exact h.past_pushed.before hdone
    · simp only [ne_eq, hin, not_false_eq_true, Function.update_of_ne] at hi ⊢
      exact h.returned i hi
  · rintro rfl
    exact hi rfl
  · by_cases hnone : none = w
    · subst hnone
      rw [Function.update_self] at hm
      rcases hm with hm | hm <;> cases hm
    · rw [Function.update_of_ne hnone] at hm
      exact h.alone m hm

/-- The functor at the head of the batch is the next in the order of the pushes. -/
lemma head (h : InTime sys calls clock times) {i : CallId} {rest : List Job}
    (hbatch : sys.pc.batch = .call i :: rest) :
    i.thread ≠ none ∧ times.pushed i ≠ none ∧ times.ran i = none ∧
      ∀ j, Before (times.pushed j) (times.pushed i) → times.ran j ≠ none := by
  have horder := h.queued.order
  have hsorted := h.sorted
  rw [hbatch, List.append_assoc, List.cons_append] at horder
  have hpushed : times.pushed i ≠ none := by
    refine (h.jobs i).mp ?_
    rw [← horder]
    simp
  have hoff := (h.pushed i hpushed).1
  rw [← horder, List.pairwise_append, List.pairwise_cons] at hsorted
  obtain ⟨-, ⟨hafter, -⟩, hbefore⟩ := hsorted
  refine ⟨hoff, hpushed, ?_, fun j hj => ?_⟩
  · by_contra hr
    have hm := (h.executed i hoff).mpr hr
    exact (hbefore _ hm _ (List.mem_cons_self ..) i i rfl rfl).not_refl
  · have hm := (h.jobs j).mpr hj.ne_left
    have hjoff := (h.pushed j hj.ne_left).1
    rw [← horder, List.mem_append, List.mem_cons] at hm
    rcases hm with hm | hm | hm
    · exact (h.executed j hjoff).mp hm
    · cases hm
      exact hj.not_refl.elim
    · exact (hj.trans (hafter _ hm i j rfl rfl)).not_refl.elim

/-- The loop's thread runs a functor of a call. -/
lemma functor (h : InTime sys calls clock times) {i : CallId} {rest : List Job}
    (hbatch : sys.pc.batch = .call i :: rest) (hidle : calls none = .idle) (hq : sys'.Queued)
    (hpushed : sys'.pushed = sys.pushed) (hexec : sys'.executed = sys.executed ++ [.call i]) :
    InTime sys' calls (clock + 1)
      { times with ran := Function.update times.ran i (some clock) } := by
  obtain ⟨hoff, hp, hr, hfirst⟩ := h.head hbatch
  have hself : ∀ {j : CallId}, j ≠ i →
      Function.update times.ran i (some clock) j = times.ran j := fun hj =>
    Function.update_of_ne hj _ _
  have hmono : ∀ {j : CallId}, times.ran j ≠ none → j ≠ i := by
    rintro j hj rfl
    exact hj hr
  refine ⟨hq, h.past_called.tick, h.past_pushed.tick, h.past_ran.update _,
    h.past_returned.tick, h.pushed, fun j hj => ?_, fun j hj => ?_, fun w => ?_,
    by rw [hpushed]; exact h.jobs, by rw [hpushed]; exact h.sorted, fun j hj => ?_,
    fun a b hab hb => ?_, fun m hm => ?_, fun a b hb hab => ?_⟩
  · by_cases hji : j = i
    · subst hji
      simp only [if_neg hoff, Function.update_self]
      exact h.past_pushed.before hp
    · simp only [hself hji] at hj ⊢
      exact h.ran j hj
  · have hret := h.returned j hj
    split_ifs at hret ⊢ with hthread
    · have hji : j ≠ i := by
        rintro rfl
        exact hoff hthread
      simp only [hself hji]
      exact hret
    · exact hret
  · have hpc := h.pcs w
    cases hc : calls w with
    | idle => trivial
    | tested n | ready n =>
        rw [hc] at hpc
        obtain ⟨hcalled, hnp, hnr, hnt⟩ := hpc
        have hni : (⟨w, n⟩ : CallId) ≠ i := by
          rintro rfl
          exact hp hnp
        exact ⟨hcalled, hnp, (hself hni).trans hnr, hnt⟩
    | returning n =>
        rw [hc] at hpc
        refine ⟨hpc.1, ?_⟩
        have hdone := hpc.2
        split_ifs at hdone ⊢
        · simp only [hself (hmono hdone)]
          exact hdone
        · exact hdone
  · rw [hexec, List.mem_append, List.mem_singleton, Job.call.injEq, h.executed j hj]
    by_cases hji : j = i
    · simp [hji]
    · simp [hji]
  · by_cases hbi : b = i
    · subst hbi
      have hra := hfirst a hab
      simp only [Function.update_self, hself (hmono hra)]
      exact h.past_ran.before hra
    · simp only [hself hbi] at hb ⊢
      have hran := h.fifo a b hab hb
      rw [hself (hmono hran.ne_left)]
      exact hran
  · rw [hidle] at hm
    rcases hm with hm | hm <;> cases hm
  · have hbi : b ≠ i := by
      rintro rfl
      exact hoff hb
    simp only [hself hbi] at hab
    by_cases hai : a = i
    · subst hai
      rw [Function.update_self] at hab
      exact absurd hab h.past_ran.not_before
    · simp only [hself hai] at hab ⊢
      exact h.here a b hb hab

/-- **Real time.** Of two calls of which the first had returned before the second was made, the
first runs first, unless the second is made in the loop's thread while the functor of the first
has not run. -/
theorem order (h : InTime sys calls clock times) {i j : CallId}
    (hij : Before (times.returned i) (times.called j)) (hj : times.ran j ≠ none) :
    Before (times.ran i) (times.ran j) ↔
      i.thread = none ∨ j.thread ≠ none ∨ Before (times.ran i) (times.called j) := by
  have hrun : Before (times.called j) (times.ran j) := by
    have hran := h.ran j hj
    split_ifs at hran
    · exact hran
    · exact (h.pushed j hran.ne_left).2.trans hran
  have hret := h.returned i hij.ne_left
  constructor
  · intro hran
    by_cases hthread : j.thread = none
    · exact Or.inr (Or.inr (h.here i j hthread hran))
    · exact Or.inr (Or.inl hthread)
  · rintro (hi | hthread | hcalled)
    · rw [if_pos hi] at hret
      exact (hret.trans hij).trans hrun
    · by_cases hi : i.thread = none
      · rw [if_pos hi] at hret
        exact (hret.trans hij).trans hrun
      · -- both left functors, which run in the order of their pushes
        rw [if_neg hi] at hret
        have hran := h.ran j hj
        rw [if_neg hthread] at hran
        exact h.fifo i j ((hret.trans hij).trans (h.pushed j hran.ne_left).2) hj
    · exact hcalled.trans hrun

end InTime

end Reactor
