import Mathlib.Data.List.GetD
import Reactor.LifetimeSteps
import Reactor.RoundRobin
import Reactor.StageInvariant
import Reactor.Lib.Schedule

/-!
What the loops of a server come to while it lives: every functor queued on one of them is run, and
so every connection that is accepted is established in the thread of its loop.

A loop is woken for what is queued on it, so the timeout of `epoll_wait` plays no part. What the
clients and the callbacks do meanwhile does not matter.
-/

namespace Reactor

open Lib.Schedule

namespace ServerSys

variable {conf : ServerConf} {s s' : ServerSys} {c : ConnId}

/-! ### A server that lives -/

/-- The server never comes back to life. -/
lemma Trans.alive {a : ServerAct} (ht : Trans conf s a s') (h : s'.phase = .alive) :
    s.phase = .alive := by
  have hprim := fun x => Ctx.primitive_frame x
  cases ht with
  | @handles t env d active =>
      rw [(applied_withConn ((hprim _).handleEvent env (.refl _))).phase] at h
      exact h
  | @establishes t env d batch =>
      rw [(applied_withConn ((hprim _).connectEstablished env.acts (.refl _))).phase] at h
      exact h
  | @destroys t env d batch =>
      rw [(applied_withConn ((hprim _).connectDestroy env.acts (.refl _))).phase] at h
      exact h
  | @runs t env f batch =>
      rw [(applied_withConn (frame_auxOp env f _)).phase] at h
      exact h
  | @userCalls t d act =>
      rw [(applied_withConn ((hprim _).act act (.refl _))).phase] at h
      exact h
  | @destroysHere e onDown left =>
      have hphase : (withConn e.2 0 (Ctx.connectDestroy onDown)
          { s with phase := .destroying (left.erase e) }).phase = .destroying (left.erase e) :=
        (applied_withConn ((hprim _).connectDestroy _ (.refl _))).phase
      cases hphase.symm.trans h
  | @polls t ready =>
      obtain ⟨conn, he, -⟩ := fillActiveChannels_eq t ready s
      rw [he] at h
      exact h
  | accepts hpc halive => exact halive
  | beginsDestroy halive => exact halive
  | removes hrun hpc halive => exact halive
  | destroysMembers =>
      change (if conf.numThreads_ = 0 then Phase.gone else .quitting 1) = .alive at h
      split_ifs at h
  | @joins i =>
      change (if i < conf.numThreads_ then Phase.quitting (i + 1) else .gone) = .alive at h
      split_ifs at h
  | destroysThere => cases h
  | quits => cases h
  | _ => exact h

/-- No functor of a loop is lost while the server lives. -/
lemma Phased.jobs {a : ServerAct} {t : LoopId} {f : Functor} (h : s.Phased)
    (ht : Trans conf s a s') (halive : s.phase = .alive) (hf : f ∈ (s.loops t).jobs) :
    f ∈ s.takenBy a t ∨ f ∈ (s'.loops t).jobs := by
  have hon := ht.onward (t := t) fun _ => Bool.eq_false_iff.mpr fun hquit => by
    have hended := h.quit t hquit
    rw [halive] at hended
    cases hended
  rcases List.mem_append.mp hf with hf | hf
  · rcases List.mem_append.mp (hon.batch hf) with hf | hf
    · exact Or.inl hf
    · exact Or.inr (List.mem_append_left _ hf)
  · exact Or.inr (hon.pending hf)

/-! ### Where a thread goes -/

/-- A step of the thread of the loop `t` in `loop()`. -/
def OfLoop (t : LoopId) : ServerAct → Prop
  | .check i | .poll i _ | .handle i _ | .swap i | .functor i _ | .endBatch i => i = t
  | .accept _ _ | .acceptFails => 0 = t
  | _ => False

/-- Where the thread of the loop `t` goes from where it is. -/
inductive Goes (t : LoopId) (s : ServerSys) : ThreadPc → ThreadPc → Prop
  | leaves (h : (s.loops t).quit_ = true) : Goes t s .check .returned
  | waits (h : (s.loops t).quit_ = false) : Goes t s .check .poll
  | polls (active : List ActiveChannel) : Goes t s .poll (.handling active)
  | handles (e : ActiveChannel) (active : List ActiveChannel) :
      Goes t s (.handling (e :: active)) (.handling active)
  | swaps : Goes t s (.handling []) (.functors (s.loops t).pendingFuntors_)
  | runs (f : Functor) (batch : List Functor) :
      Goes t s (.functors (f :: batch)) (.functors batch)
  | endsBatch : Goes t s (.functors []) .check

variable (s s') in
/-- The thread of the loop `t` takes its next step, or stays where it is. -/
def Advances (t : LoopId) (a : ServerAct) : Prop :=
  OfLoop t a ∧ s.Goes t (s.loops t).pc (s'.loops t).pc ∨
    ¬ OfLoop t a ∧ (s'.loops t).pc = (s.loops t).pc

/-- The thread of the loop `i` takes a step. -/
lemma Goes.advances {a : ServerAct} {t i : LoopId} {pc pc' : ThreadPc} (ha : OfLoop t a ↔ i = t)
    (hpc : (s.loops i).pc = pc) (hg : s.Goes i pc pc')
    (hpc' : ∀ j, (s'.loops j).pc = if j = i then pc' else (s.loops j).pc) :
    s.Advances s' t a := by
  rcases eq_or_ne i t with rfl | hi
  · left
    rw [hpc', if_pos rfl, hpc]
    exact ⟨ha.mpr rfl, hg⟩
  · right
    rw [hpc', if_neg hi.symm]
    exact ⟨fun h => hi (ha.mp h), rfl⟩

/-- **Inversion, for the place of a thread.** -/
theorem Trans.advances {a : ServerAct} (ht : Trans conf s a s') (t : LoopId) :
    s.Advances s' t a := by
  have hprim := fun x => Ctx.primitive_frame x
  have hset : ∀ {i : LoopId} {l : LoopThread} (j : LoopId),
      ((s.setLoop i l).loops j).pc = if j = i then l.pc else (s.loops j).pc := by
    intro i l j
    rw [setLoop_loops]
    split_ifs <;> rfl
  cases ht with
  | leaves hrun hpc hquit => exact (Goes.leaves hquit).advances Iff.rfl hpc hset
  | waits hrun hpc hquit => exact (Goes.waits hquit).advances Iff.rfl hpc hset
  | @polls i ready hrun hpc hready =>
      obtain ⟨conn, he, -⟩ := fillActiveChannels_eq i ready s
      refine (Goes.polls (ready.filterMap (activeOf (s.loops i).poller_))).advances Iff.rfl hpc
        fun j => ?_
      rw [he]
      exact hset j
  | @accepts sockfd onUp active hpc halive hfd hid =>
      refine (Goes.handles _ active).advances Iff.rfl hpc fun j => ?_
      have hsame : ((newConnection conf sockfd onUp (s.setPc 0 (.handling active))).loops j).pc =
          ((s.setPc 0 (.handling active)).loops j).pc := by
        unfold newConnection
        simp only
        split_ifs with hloop
        · rw [(applied_withConn ((hprim _).connectEstablished onUp (.refl _))).pc]
          rfl
        · rw [push_pc]
          rfl
      rw [hsame, setPc_pc]
  | acceptFails hrun hpc => exact (Goes.handles _ _).advances Iff.rfl hpc hset
  | @handles i env d active hrun hpc =>
      refine (Goes.handles _ active).advances Iff.rfl hpc fun j => ?_
      rw [(applied_withConn ((hprim _).handleEvent env (.refl _))).pc, setPc_pc]
  | swaps hrun hpc => exact Goes.swaps.advances Iff.rfl hpc hset
  | @establishes i env d batch hrun hpc =>
      refine (Goes.runs _ batch).advances Iff.rfl hpc fun j => ?_
      rw [(applied_withConn ((hprim _).connectEstablished env.acts (.refl _))).pc, setPc_pc]
  | @destroys i env d batch hrun hpc =>
      refine (Goes.runs _ batch).advances Iff.rfl hpc fun j => ?_
      rw [(applied_withConn ((hprim _).connectDestroy env.acts (.refl _))).pc, setPc_pc]
  | @removes i env d batch hrun hpc halive =>
      refine (Goes.runs _ batch).advances Iff.rfl hpc fun j => ?_
      rw [removeConnectionInLoop, push_pc]
      exact setPc_pc ..
  | @runs i env f batch hrun hpc haux =>
      refine (Goes.runs _ batch).advances Iff.rfl hpc fun j => ?_
      rw [(applied_withConn (frame_auxOp env f _)).pc, setPc_pc]
  | endsBatch hrun hpc => exact Goes.endsBatch.advances Iff.rfl hpc hset
  | userCalls hd =>
      refine Or.inr ⟨id, ?_⟩
      rw [(applied_withConn ((hprim _).act _ (.refl _))).pc]
  | @destroysHere e onDown left hphase he hloop =>
      refine Or.inr ⟨id, ?_⟩
      rw [(applied_withConn ((hprim _).connectDestroy onDown (.refl _))).pc]
  | destroysThere hphase he hloop =>
      refine Or.inr ⟨id, ?_⟩
      rw [push_pc]
  | quits hphase =>
      refine Or.inr ⟨id, ?_⟩
      rw [setLoop_loops]
      split_ifs with hi
      · rw [hi]
      · rfl
  | beginsDestroy | destroysMembers | joins => exact Or.inr ⟨id, rfl⟩

/-- How far the thread of a loop is from the functor `f`: what is left of the batch, the test, the
wait, what is left of the events, and the functors in front of it. -/
def wayTo (f : Functor) : ThreadPc → ℕ ×ₗ ℕ
  | .functors batch => if f ∈ batch then toLex (0, batch.idxOf f) else toLex (4, batch.length)
  | .handling active => toLex (1, active.length)
  | .poll => toLex (2, 0)
  | .check => toLex (3, 0)
  | .returned => toLex (5, 0)

/-- The thread of a loop that does not leave comes closer to a functor, or takes it. -/
lemma Goes.wayTo_lt {t : LoopId} {f : Functor} {pc' : ThreadPc}
    (h : s.Goes t (s.loops t).pc pc') (hf : f ∈ (s.loops t).jobs) (hstay : pc' ≠ .returned)
    (hnext : ∀ batch, (s.loops t).pc ≠ .functors (f :: batch)) :
    wayTo f pc' < wayTo f (s.loops t).pc := by
  rw [LoopThread.jobs] at hf
  generalize hpc : (s.loops t).pc = pc at *
  cases h with
  | leaves => exact absurd rfl hstay
  | waits => exact Prod.Lex.toLex_lt_toLex.mpr (Or.inl (Nat.lt_succ_self 2))
  | polls active => exact Prod.Lex.toLex_lt_toLex.mpr (Or.inl Nat.one_lt_two)
  | handles e active => exact Prod.Lex.toLex_lt_toLex.mpr (Or.inr ⟨rfl, Nat.lt_succ_self _⟩)
  | swaps =>
      rw [wayTo, if_pos (by simpa [ThreadPc.batch] using hf)]
      exact Prod.Lex.toLex_lt_toLex.mpr (Or.inl Nat.zero_lt_one)
  | runs g batch =>
      have hne : g ≠ f := by
        rintro rfl
        exact hnext batch rfl
      by_cases hmem : f ∈ batch
      · rw [wayTo, wayTo, if_pos hmem, if_pos (List.mem_cons_of_mem _ hmem)]
        refine Prod.Lex.toLex_lt_toLex.mpr (Or.inr ⟨rfl, ?_⟩)
        rw [List.idxOf_cons_ne _ hne]
        exact Nat.lt_succ_self _
      · have hmem' : f ∉ g :: batch := by simp [hmem, hne.symm]
        rw [wayTo, wayTo, if_neg hmem, if_neg hmem']
        exact Prod.Lex.toLex_lt_toLex.mpr (Or.inr ⟨rfl, Nat.lt_succ_self _⟩)
  | endsBatch =>
      rw [wayTo, wayTo, if_neg List.not_mem_nil]
      exact Prod.Lex.toLex_lt_toLex.mpr (Or.inl (Nat.lt_succ_self 3))

/-- The functor taken from a batch is the one at its head. -/
lemma head_of_mem_takenBy {a : ServerAct} {t : LoopId} {f : Functor} (h : f ∈ s.takenBy a t) :
    ∃ env batch, a = .functor t env ∧ (s.loops t).pc = .functors (f :: batch) := by
  unfold takenBy at h
  split at h
  case h_2 => cases h
  case h_1 i env =>
    split_ifs at h with hi
    · subst hi
      rcases hpc : (s.loops i).pc with _ | _ | active | (_ | ⟨g, batch⟩) | _ <;> rw [hpc] at h
      all_goals first | cases h; done | skip
      obtain rfl := List.mem_singleton.mp h
      exact ⟨env, batch, rfl, rfl⟩
    · cases h

/-- The thread of a loop whose next functor is `f` runs it. -/
lemma Trans.takes {a : ServerAct} {t : LoopId} {f : Functor} {batch : List Functor}
    (ht : Trans conf s a s') (ha : OfLoop t a) (hpc : (s.loops t).pc = .functors (f :: batch)) :
    f ∈ s.takenBy a t := by
  have htaken : ∀ env, f ∈ s.takenBy (.functor t env) t := by
    intro env
    rw [takenBy, if_pos rfl, hpc]
    exact List.mem_singleton_self f
  cases ht with
  | establishes | destroys | removes | runs =>
      obtain rfl : _ = t := ha
      exact htaken _
  | accepts hpc' | acceptFails _ hpc' =>
      obtain rfl : 0 = t := ha
      cases hpc.symm.trans hpc'
  | leaves _ hpc' | waits _ hpc' | polls _ hpc' | handles _ hpc' | swaps _ hpc'
  | endsBatch _ hpc' =>
      obtain rfl : _ = t := ha
      cases hpc.symm.trans hpc'
  | userCalls | beginsDestroy | destroysHere | destroysThere | destroysMembers | quits | joins =>
      cases ha

/-! ### Fair schedules -/

variable (conf) in
/-- The thread of a loop goes on unless it waits with nothing queued. -/
def Enabled (t : LoopId) (s : ServerSys) : Prop :=
  s.phase = .alive ∧ t ≤ conf.numThreads_ ∧
    ((s.loops t).pc = .poll → (s.loops t).pendingFuntors_ ≠ [])

/-- A schedule that lets the thread of the loop `t` go on while the server lives. -/
def Fair (conf : ServerConf) (t : LoopId) (sched : ℕ → ServerAct) : Prop :=
  WeaklyFair (step conf) new sched (Enabled conf t) (OfLoop t)

variable {sched : ℕ → ServerAct}

/-- What holds at the start and is kept by every step holds at all times. -/
lemma holds_play {I : ServerSys → Prop} (hnew : I new)
    (keep : ∀ s a s', Trans conf s a s' → I s → I s') (n : ℕ) :
    I (play (step conf) new sched n) :=
  play_inv (fun s a s' h hstep => keep s a s' (Step.trans hstep) h) hnew n

/-- What is kept by every step holds later on. -/
lemma kept (P : ServerSys → Prop) (keep : ∀ s a s', Trans conf s a s' → P s → P s') {n m : ℕ}
    (hm : n ≤ m) (h : P (play (step conf) new sched n)) : P (play (step conf) new sched m) :=
  play_mono P (fun s a s' hstep => keep s a s' (Step.trans hstep)) hm h

lemma made_later {n m : ℕ} (hc : (play (step conf) new sched n).Made c) (hm : n ≤ m) :
    (play (step conf) new sched m).Made c :=
  kept (Made c) (fun _ _ _ ht hc => ht.later.made hc) hm hc

/-- **A loop comes to every functor queued on it**, while the server lives. -/
theorem eventually_taken {I : ServerSys → Prop} (hnew : I new)
    (keep : ∀ s a s', Trans conf s a s' → I s → I s') {t : LoopId} (fair : Fair conf t sched)
    (hle : t ≤ conf.numThreads_) {f : Functor} (Q : ServerSys → Prop)
    (htaken : ∀ s a s', I s → Trans conf s a s' → f ∈ s.takenBy a t → Q s') {n : ℕ}
    (h : f ∈ ((play (step conf) new sched n).loops t).jobs) :
    ∃ m ≥ n, (play (step conf) new sched m).phase ≠ .alive ∨ Q (play (step conf) new sched m) := by
  let P (s : ServerSys) : Prop := s.phase ≠ .alive ∨ Q s
  let Inv (s : ServerSys) : Prop := (s.Phased ∧ I s) ∧ (f ∈ (s.loops t).jobs ∨ P s)
  have hinv : ∀ s a s', Trans conf s a s' → s.Phased ∧ I s → s'.Phased ∧ I s' :=
    fun s a s' ht h => ⟨h.1.trans ht, keep s a s' ht h.2⟩
  have hcases : ∀ s a s', Inv s → ¬ P s → step conf s a = some s' →
      P s' ∨ f ∈ (s'.loops t).jobs ∧
        (wayTo f (s'.loops t).pc < wayTo f (s.loops t).pc ∨
          ¬ OfLoop t a ∧ (s'.loops t).pc = (s.loops t).pc) := by
    rintro s a s' ⟨hs, hjob⟩ hnot hstep
    have hf := hjob.resolve_right hnot
    have halive : s.phase = .alive := not_not.mp fun h => hnot (Or.inl h)
    have ht := Step.trans hstep
    by_cases halive' : s'.phase = .alive
    swap
    · exact Or.inl (Or.inl halive')
    by_cases hin : f ∈ s.takenBy a t
    · exact Or.inl (Or.inr (htaken s a s' hs.2 ht hin))
    refine Or.inr ⟨(hs.1.jobs ht halive hf).resolve_left hin, ?_⟩
    rcases ht.advances t with ⟨ha, hgoes⟩ | hstays
    · have hstay : (s'.loops t).pc ≠ .returned := (hs.1.trans ht).not_returned halive' t
      exact Or.inl (hgoes.wayTo_lt hf hstay fun batch hpc => hin (ht.takes ha hpc))
    · exact Or.inr hstays
  have hkeep : ∀ s a s', Inv s → ¬ P s → step conf s a = some s' → Inv s' := by
    intro s a s' hs hnot hstep
    refine ⟨hinv s a s' (Step.trans hstep) hs.1, ?_⟩
    rcases hcases s a s' hs hnot hstep with hP | ⟨hf, -⟩
    · exact Or.inr hP
    · exact Or.inl hf
  have henabled : ∀ s, Inv s → ¬ P s → Enabled conf t s := by
    intro s hs hnot
    refine ⟨not_not.mp fun h => hnot (Or.inl h), hle, fun hpoll => ?_⟩
    have hf := hs.2.resolve_right hnot
    rw [LoopThread.jobs, hpoll] at hf
    exact List.ne_nil_of_mem hf
  refine eventually_of_helpful P (fun s => wayTo f (s.loops t).pc) (fun _ => ())
    (fun _ => Enabled conf t) (fun _ => OfLoop t) hkeep henabled (fun s a s' hs hnot hstep => ?_)
    (fun s a s' hs hnot ha hstep => ?_) (fun _ => fair)
    ⟨holds_play ⟨phased_new, hnew⟩ hinv n, Or.inl h⟩
  · rcases hcases s a s' hs hnot hstep with hP | ⟨-, hlt | ⟨-, hpc⟩⟩
    · exact Or.inl hP
    · exact Or.inr (Or.inl hlt)
    · exact Or.inr (Or.inr ⟨congrArg (wayTo f) hpc, rfl⟩)
  · rcases hcases s a s' hs hnot hstep with hP | ⟨-, hlt | ⟨hno, -⟩⟩
    · exact Or.inl hP
    · exact Or.inr hlt
    · exact absurd ha hno

/-! ### Accepted connections -/

lemma primitive_mem_trace (e : LoopId × Call) : Ctx.Primitive fun x => e ∈ x.trace where
  log _ h := List.mem_append_left _ h
  queue _ _ _ h := h
  setState _ h := h
  tie h := h
  onChannel _ h := h
  accept _ h := h
  shutWr h := h
  input _ h := h
  output _ h := h
  close h := h

/-- **`connectEstablished` tells the user** that the connection is up. -/
lemma tells_connectEstablished (onUp : Script) (x : Ctx) :
    (x.tid, .connectionCallback true) ∈ (x.connectEstablished onUp).trace := by
  have hcall : (x.tid, .connectionCallback true) ∈
      (((((x.log .connectEstablished).setState .kConnected).tie).enableReading).log
        (.connectionCallback true)).trace := List.mem_append_right _ (List.mem_singleton.mpr rfl)
  exact (primitive_mem_trace _).steady.runScript onUp hcall

/-- The user has been told, in the thread of the connection's loop, that it is up. -/
def Welcomed (c : ConnId) (s : ServerSys) : Prop :=
  ((s.conn c).loop_, .connectionCallback true) ∈ s.trace c

lemma Later.welcomed (h : s.Later s') (hc : s.Made c) (hw : s.Welcomed c) : s'.Welcomed c := by
  rw [Welcomed, h.loop_ c hc.2]
  exact (h.trace c hc.2).subset hw

/-- A connection that is established in the thread of its loop. -/
lemma welcomed_withConn (onUp : Script) :
    (s.withConn c (s.conn c).loop_ (Ctx.connectEstablished onUp)).Welcomed c := by
  have hf := (Ctx.primitive_frame (s.ctx c (s.conn c).loop_)).connectEstablished onUp (.refl _)
  have hy := applied_withConn hf
  have hloop : ((s.ctx c (s.conn c).loop_).connectEstablished onUp).conn.loop_ =
      (s.conn c).loop_ := hf.loop_
  rw [Welcomed, hy.conn_self, hloop, hy.trace, Function.update_self]
  exact tells_connectEstablished onUp (s.ctx c (s.conn c).loop_)

lemma Trans.welcomed_of_taken {a : ServerAct} {t : LoopId} (ht : Trans conf s a s')
    (hp : s.Placed) (h : .connectEstablished c ∈ s.takenBy a t) : s'.Welcomed c := by
  obtain ⟨env, batch, rfl, hpc⟩ := head_of_mem_takenBy h
  cases ht with
  | @establishes _ _ d batch hrun hpc' =>
      cases hpc.symm.trans hpc'
      obtain rfl : t = (s.conn c).loop_ := (hp.head hpc).2
      exact welcomed_withConn (s := s.setPc (s.conn c).loop_ (.functors batch)) (c := c) env.acts
  | destroys hrun hpc' | removes hrun hpc' => cases hpc.symm.trans hpc'
  | runs hrun hpc' haux =>
      cases hpc.symm.trans hpc'
      cases haux

/-- The connection has been established, or is about to be. -/
def Expected (c : ConnId) (s : ServerSys) : Prop :=
  s.Welcomed c ∨ .connectEstablished c ∈ (s.loops (s.conn c).loop_).jobs

lemma expected_newConnection (sockfd : ℕ) (onUp : Script) (s : ServerSys) :
    (newConnection conf sockfd onUp s).Expected s.nextConnId_ := by
  have hloop : ((addConnection conf sockfd s).conn s.nextConnId_).loop_ =
      (getNextLoop conf s.next_).1 :=
    congrArg TcpConnection.loop_ (addConnection_conn_new sockfd s)
  unfold newConnection
  simp only
  split_ifs with h0
  · have hw := welcomed_withConn (s := addConnection conf sockfd s) (c := s.nextConnId_) onUp
    rw [hloop, h0] at hw
    exact Or.inl hw
  · refine Or.inr ?_
    change _ ∈ (((addConnection conf sockfd s).push _ _).loops
      ((addConnection conf sockfd s).conn s.nextConnId_).loop_).jobs
    rw [hloop, jobs_push, if_pos rfl]
    exact List.mem_append_right _ (List.mem_singleton.mpr rfl)

/-- **What holds in every state of a run.** While the server lives, every connection has been
established or is about to be. -/
structure Welcoming (conf : ServerConf) (s : ServerSys) : Prop where
  placed : s.Placed
  phased : s.Phased
  turns : s.TakesTurns conf
  expected : s.phase = .alive → ∀ c, s.Made c → s.Expected c

lemma welcoming_new : new.Welcoming conf where
  placed := placed_new
  phased := phased_new
  turns := takesTurns_new
  expected _ _ hc := absurd (Nat.lt_of_le_of_lt hc.1 hc.2) (Nat.lt_irrefl 1)

theorem Welcoming.trans {a : ServerAct} (h : s.Welcoming conf) (ht : Trans conf s a s') :
    s'.Welcoming conf where
  placed := h.placed.trans ht
  phased := h.phased.trans ht
  turns := h.turns.trans ht
  expected halive' c hc' := by
    have halive := ht.alive halive'
    by_cases hc : s.Made c
    · rcases h.expected halive c hc with hw | hjob
      · exact Or.inl (ht.later.welcomed hc hw)
      · rcases h.phased.jobs ht halive hjob with htaken | hjob
        · exact Or.inl (ht.welcomed_of_taken h.placed htaken)
        · refine Or.inr ?_
          rwa [ht.later.loop_ c hc.2]
    · rcases ht.settled with hs | ⟨sockfd, onUp, active, -, -, rfl⟩
      · exact absurd ((made_congr hs.nextConnId_ c).mp hc') hc
      · have hadd : (addConnection conf sockfd (s.setPc 0 (.handling active))).Made c :=
          (made_congr (sameTable_newConnection sockfd onUp).next c).mp hc'
        rcases made_addConnection hadd with hold | rfl
        · exact absurd hold hc
        · exact expected_newConnection sockfd onUp _

/-- The loop of a connection is one that runs. -/
lemma Welcoming.loop_le (h : s.Welcoming conf) (hc : s.Made c) :
    (s.conn c).loop_ ≤ conf.numThreads_ := by
  rw [h.turns.turns c hc, turn]
  split_ifs with h0
  · exact Nat.zero_le _
  · exact Nat.mod_lt _ (Nat.pos_of_ne_zero h0)

/-- **What becomes of an accepted connection.** Under any schedule that lets the threads of the
loops go on while the server lives, the user is told of every connection that it is up, in the
thread of its loop. -/
theorem accepted_welcomed (conf : ServerConf) (sched : ℕ → ServerAct)
    (fair : ∀ t, Fair conf t sched) (n : ℕ) (c : ConnId)
    (hc : (play (step conf) new sched n).Made c) :
    ∃ m ≥ n, (play (step conf) new sched m).phase ≠ .alive ∨
      ((play (step conf) new sched m).conn c).loop_ = turn conf c ∧
        (turn conf c, .connectionCallback true) ∈ (play (step conf) new sched m).trace c := by
  have hkeep : ∀ s a s', Trans conf s a s' → s.Welcoming conf → s'.Welcoming conf :=
    fun _ _ _ ht h => h.trans ht
  have hinv : ∀ m, (play (step conf) new sched m).Welcoming conf := holds_play welcoming_new hkeep
  have hlast : ∀ m ≥ n, (play (step conf) new sched m).phase ≠ .alive ∨
      (play (step conf) new sched m).Welcomed c →
      ∃ m ≥ n, (play (step conf) new sched m).phase ≠ .alive ∨
        ((play (step conf) new sched m).conn c).loop_ = turn conf c ∧
          (turn conf c, .connectionCallback true) ∈ (play (step conf) new sched m).trace c := by
    intro m hm h
    have hturn := (hinv m).turns.turns c (made_later hc hm)
    refine ⟨m, hm, h.imp_right fun hw => ⟨hturn, ?_⟩⟩
    rwa [Welcomed, hturn] at hw
  by_cases halive : (play (step conf) new sched n).phase = .alive
  swap
  · exact hlast n le_rfl (Or.inl halive)
  rcases (hinv n).expected halive c hc with hw | hjob
  · exact hlast n le_rfl (Or.inr hw)
  obtain ⟨m, hm, hend⟩ := eventually_taken placed_new (fun _ _ _ ht h => h.trans ht)
    (fair _) ((hinv n).loop_le hc) (Welcomed c)
    (fun _ _ _ hp ht htaken => ht.welcomed_of_taken hp htaken) hjob
  exact hlast m hm hend

/-- A client of a sub-loop connects and hangs up, and the server comes to rest: the sub-loop
establishes the connection and reads the end of the stream, and the base loop takes the connection
out of the table in one iteration and destroys it in the next. -/
def hangsUpRun : List ServerAct :=
  [.check 0, .poll 0 [.acceptor], .accept 7 [], .swap 0, .endBatch 0, .check 0,
    .check 1, .poll 1 [], .swap 1, .functor 1 ⟨[], [], .ok 0⟩, .endBatch 1, .check 1,
    .poll 1 [.fd 7 EPOLLIN], .handle 1 ⟨[], .ok [], [], [], .ok 0⟩, .swap 1, .endBatch 1, .check 1,
    .poll 0 [], .swap 0, .functor 0 ⟨[], [], .ok 0⟩, .endBatch 0, .check 0,
    .poll 0 [], .swap 0, .functor 0 ⟨[], [], .ok 0⟩, .endBatch 0, .check 0]

/-- The run, and after it nothing. -/
def hangsUp : ℕ → ServerAct := (hangsUpRun.getD · .join)

/-- At the end both loops wait, and nothing is queued on them. -/
lemma play_hangsUp_end : let s := play (step (.echo 1)) new hangsUp 27
    s.phase = .alive ∧ ∀ t ≤ 1, (s.loops t).pc = .poll ∧ (s.loops t).pendingFuntors_ = [] := by
  decide +kernel

lemma play_hangsUp (k : ℕ) :
    play (step (.echo 1)) new hangsUp (27 + k) = play (step (.echo 1)) new hangsUp 27 := by
  refine play_stuck (fun i => ?_) k
  have hact : hangsUp (27 + i) = .join := List.getD_eq_default _ _ (Nat.le_add_right 27 i)
  rw [hact]
  simp only [step, destroyStep, play_hangsUp_end.1]

lemma fair_hangsUp (t : LoopId) : Fair (.echo 1) t hangsUp := by
  intro n h
  obtain ⟨-, hle, hpoll⟩ := h (27 + n) (Nat.le_add_left n 27)
  rw [play_hangsUp] at hpoll
  obtain ⟨hpc, hpend⟩ := play_hangsUp_end.2 t hle
  exact absurd hpend (hpoll hpc)

theorem accepted_welcomed_hangsUp :
    ∃ m ≥ 3, (play (step (.echo 1)) new hangsUp m).phase ≠ .alive ∨
      ((play (step (.echo 1)) new hangsUp m).conn 1).loop_ = turn (.echo 1) 1 ∧
        (turn (.echo 1) 1, .connectionCallback true) ∈
          (play (step (.echo 1)) new hangsUp m).trace 1 :=
  accepted_welcomed (.echo 1) hangsUp fair_hangsUp 3 1 (by decide +kernel)

end ServerSys

end Reactor
