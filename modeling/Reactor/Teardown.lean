import Reactor.Registry

/-!
The end of a server with sub-loops: what becomes of the `connectDestroy` that `~TcpServer`
hands to the loop of each connection.

A sub-loop runs what is pending once in each iteration, and tests `quit_` after that. A
functor pushed after the swap of an iteration waits for the next one, and if the destructor
has set `quit_` by the end of the first there is no next one.
-/

namespace Reactor

open Lib.Trace

/-- A server, with the `connectDestroy` its destructor has queued on sub-loops, those the
sub-loops have run, and whether a sub-loop has swapped since the last of them was queued on
it. -/
structure Teardown where
  sys : ServerSys
  queued : List (LoopId × ConnId)
  executed : List (LoopId × ConnId)
  swept : LoopId → Bool

namespace Teardown

def new : Teardown where
  sys := .new
  queued := []
  executed := []
  swept := fun _ => true

/-- The functor that the loop `t` is about to run. -/
def nextFunctor (t : LoopId) (s : Teardown) : Option Functor := (s.sys.loops t).pc.batch.head?

/-- The history after a step to `sys`. -/
def note (a : ServerAct) (sys : ServerSys) (s : Teardown) : Teardown :=
  match a with
  | .destroyNext e _ =>
    if (s.sys.conn e.2).loop_ = 0 then { s with sys := sys }
    else { s with
      sys := sys
      queued := s.queued ++ [((s.sys.conn e.2).loop_, e.2)]
      swept := Function.update s.swept (s.sys.conn e.2).loop_ false }
  | .functor t _ =>
    match s.nextFunctor t with
    | some (.connectDestroy c) => { s with sys := sys, executed := s.executed ++ [(t, c)] }
    | _ => { s with sys := sys }
  | .swap t => { s with sys := sys, swept := Function.update s.swept t true }
  | _ => { s with sys := sys }

variable (conf : ServerConf)

def step (s : Teardown) (a : ServerAct) : Option Teardown :=
  (s.sys.step conf a).map fun sys => s.note a sys

def Step (s : Teardown) (a : ServerAct) (t : Teardown) : Prop := s.step conf a = some t

/-- **The property of the teardown.** A sub-loop that has returned has run every
`connectDestroy` queued on it. -/
def Torn (s : Teardown) : Prop :=
  ∀ t ≠ 0, (s.sys.loops t).pc = .returned → ∀ c, s.queued.count (t, c) ≤ s.executed.count (t, c)

/-- A sub-loop that finds `quit_` set has swapped since the last `connectDestroy` was queued
on it. -/
def SweepsFirst (s : Teardown) (a : ServerAct) : Prop :=
  ∀ t ≠ 0, a = .check t → (s.sys.loops t).quit_ = true → s.swept t = true

end Teardown

namespace ServerSys

variable {conf : ServerConf} {s s' : ServerSys}

/-! ### What a step does to the `connectDestroy` of a sub-loop -/

/-- Those of the connection `c` in the rest of the batch of the loop `t`. -/
def batchDestroys (t : LoopId) (c : ConnId) (s : ServerSys) : ℕ :=
  (s.loops t).pc.batch.count (.connectDestroy c)

def pendingDestroys (t : LoopId) (c : ConnId) (s : ServerSys) : ℕ :=
  (s.loops t).pendingFuntors_.count (.connectDestroy c)

/-- The step does nothing to them, and does not end the loop. -/
structure Still (t : LoopId) (s s' : ServerSys) : Prop where
  batch : ∀ c, s'.batchDestroys t c = s.batchDestroys t c
  pending : ∀ c, s'.pendingDestroys t c = s.pendingDestroys t c
  returned : (s'.loops t).pc = .returned ↔ (s.loops t).pc = .returned

lemma Still.of_loop {t : LoopId} (h : s'.loops t = s.loops t) : s.Still t s' := by
  constructor <;> simp [batchDestroys, pendingDestroys, h]

lemma Still.trans {t : LoopId} {s'' : ServerSys} (h : s.Still t s') (h' : s'.Still t s'') :
    s.Still t s'' :=
  ⟨fun c => (h'.batch c).trans (h.batch c), fun c => (h'.pending c).trans (h.pending c),
    h'.returned.trans h.returned⟩

/-- A thread moves on, past no `connectDestroy`. -/
lemma still_setPc {t i : LoopId} {pc : ThreadPc} (hpc : pc ≠ .returned)
    (hret : (s.loops i).pc ≠ .returned)
    (hbatch : ∀ c, pc.batch.count (.connectDestroy c) =
      (s.loops i).pc.batch.count (.connectDestroy c)) :
    s.Still t (s.setPc i pc) := by
  rcases eq_or_ne t i with rfl | hti
  · refine ⟨fun c => ?_, fun c => ?_, ?_⟩
    · rw [batchDestroys, setPc_pc, if_pos rfl, hbatch]
      rfl
    · rw [pendingDestroys, pendingDestroys, setPc_pending]
    · rw [setPc_pc, if_pos rfl]
      exact iff_of_false hpc hret
  · exact .of_loop (setLoop_of_ne hti _)

/-- A thread takes a functor off its batch that is no `connectDestroy`. -/
lemma still_nextFunctor {t i : LoopId} {f : Functor} {batch : List Functor}
    (hpc : (s.loops i).pc = .functors (f :: batch)) (hf : ∀ c, f ≠ .connectDestroy c) :
    s.Still t (s.setPc i (.functors batch)) := by
  refine still_setPc (by simp) (by simp [hpc]) fun c => ?_
  rw [hpc]
  exact (List.count_cons_of_ne (hf c)).symm

/-- What a member function queues on a sub-loop is no `connectDestroy`. -/
lemma Applied.still {c : ConnId} {t i : LoopId} {y : Ctx} (h : Applied c i y s s') (ht : t ≠ 0) :
    s.Still t s' := by
  refine ⟨fun d => ?_, fun d => ?_, by rw [h.pc]⟩
  · rw [batchDestroys, batchDestroys, h.pc]
  · obtain ⟨l, hl, hof⟩ := h.pending t
    rw [pendingDestroys, pendingDestroys, hl, List.count_append, Nat.add_eq_left,
      List.count_eq_zero]
    intro hmem
    rcases (hof _ hmem).2 with ⟨haux, -⟩ | ⟨-, h0, -⟩
    · cases haux
    · exact ht h0

lemma still_push {t i : LoopId} {f : Functor} (h : i = t → ∀ c, f ≠ .connectDestroy c) :
    s.Still t (s.push i f) := by
  refine ⟨fun d => ?_, fun d => ?_, by rw [push_pc]⟩
  · rw [batchDestroys, batchDestroys, push_pc]
  · rw [pendingDestroys, pendingDestroys, push_pending]
    split_ifs with hi
    · simp [h hi.symm d]
    · simp

lemma still_newConnection {t : LoopId} (ht : t ≠ 0) (sockfd : ℕ) (onUp : Script) :
    s.Still t (s.newConnection conf sockfd onUp) := by
  have hadd : s.Still t (s.addConnection conf sockfd) := .of_loop rfl
  unfold newConnection
  simp only
  split_ifs
  · exact hadd.trans
      ((applied_withConn ((Ctx.primitive_frame _).connectEstablished onUp (.refl _))).still ht)
  · exact hadd.trans (still_push fun _ c h => nomatch h)

/-- **Most steps** leave the `connectDestroy` of a sub-loop alone. -/
lemma Trans.still {a : ServerAct} (h : Trans conf s a s') {t : LoopId} (ht : t ≠ 0)
    (hcheck : a = .check t → (s.loops t).quit_ = false) (hswap : a ≠ .swap t)
    (hfunctor : ∀ env c batch, a = .functor t env →
      (s.loops t).pc ≠ .functors (.connectDestroy c :: batch))
    (hnext : ∀ e onDown, a = .destroyNext e onDown → (s.conn e.2).loop_ ≠ t) :
    s.Still t s' := by
  have hprim := fun x => Ctx.primitive_frame x
  cases h with
  | @leaves i hrun hpc hquit =>
      rcases eq_or_ne t i with rfl | hti
      · rw [hcheck rfl] at hquit
        cases hquit
      · exact .of_loop (setLoop_of_ne hti _)
  | waits hrun hpc hquit =>
      exact still_setPc (by simp) (by simp [hpc]) fun c => by rw [hpc]; rfl
  | @polls i ready hrun hpc hready =>
      obtain ⟨conn, he, -⟩ := fillActiveChannels_eq i ready s
      have hconn : s.Still t { s with conn := conn } := .of_loop rfl
      rw [he]
      refine hconn.trans (still_setPc (by simp) (by simp [hpc]) fun c => ?_)
      simp only [hpc]
      rfl
  | accepts hpc halive hfd hid =>
      exact (Still.of_loop (setLoop_of_ne ht _)).trans (still_newConnection ht _ _)
  | acceptFails hrun hpc => exact .of_loop (setLoop_of_ne ht _)
  | @handles i env c active hrun hpc =>
      have hmoves : s.Still t (s.setPc i (.handling active)) :=
        still_setPc (by simp) (by simp [hpc]) fun c => by rw [hpc]; rfl
      exact hmoves.trans ((applied_withConn ((hprim _).handleEvent _ (.refl _))).still ht)
  | @swaps i hrun hpc =>
      have hti : t ≠ i := fun h => hswap (h ▸ rfl)
      exact .of_loop (setLoop_of_ne hti _)
  | establishes hrun hpc =>
      exact (still_nextFunctor hpc (by simp)).trans
        ((applied_withConn ((hprim _).connectEstablished _ (.refl _))).still ht)
  | @destroys i env c batch hrun hpc =>
      have hti : t ≠ i := fun h => hfunctor env c batch (h ▸ rfl) (h ▸ hpc)
      exact (Still.of_loop (setLoop_of_ne hti _)).trans
        ((applied_withConn ((hprim _).connectDestroy _ (.refl _))).still ht)
  | @removes i env c batch hrun hpc halive =>
      have hfilter : (s.setPc i (.functors batch)).Still t { s.setPc i (.functors batch) with
          connections_ := s.connections_.filter fun e => e.1 ≠ (s.conn c).name_ } := .of_loop rfl
      exact (still_nextFunctor hpc (by simp)).trans
        (hfilter.trans (still_push fun h0 => absurd h0.symm ht))
  | @runs i env f batch hrun hpc haux =>
      have hf : ∀ c, f ≠ .connectDestroy c := by
        rintro c rfl
        cases haux
      exact (still_nextFunctor hpc hf).trans ((applied_withConn (frame_auxOp _ _ _)).still ht)
  | endsBatch hrun hpc =>
      exact still_setPc (by simp) (by simp [hpc]) fun c => by rw [hpc]; rfl
  | userCalls hc => exact (applied_withConn ((hprim _).act _ (.refl _))).still ht
  | beginsDestroy halive hpc => exact .of_loop rfl
  | @destroysHere e onDown left hphase he hloop =>
      have herase : s.Still t { s with phase := .destroying (left.erase e) } := .of_loop rfl
      exact herase.trans ((applied_withConn ((hprim _).connectDestroy _ (.refl _))).still ht)
  | @destroysThere e onDown left hphase he hloop =>
      have herase : s.Still t { s with phase := .destroying (left.erase e) } := .of_loop rfl
      exact herase.trans (still_push fun h => absurd h (hnext e onDown rfl))
  | destroysMembers hphase => exact .of_loop rfl
  | @quits i hphase =>
      have hjoin : s.Still t { s with phase := .joining i } := .of_loop rfl
      refine hjoin.trans ⟨fun c => ?_, fun c => ?_, ?_⟩
      · rw [batchDestroys, setLoop_loops]
        split_ifs with h
        · subst h; rfl
        · rfl
      · rw [pendingDestroys, setLoop_loops]
        split_ifs with h
        · subst h; rfl
        · rfl
      · rw [setLoop_loops]
        split_ifs with h
        · subst h; exact Iff.rfl
        · exact Iff.rfl
  | joins hphase hpc => exact .of_loop rfl

end ServerSys

namespace Teardown

variable {conf : ServerConf} {s s' : Teardown}

/-- What is queued on a sub-loop has been run, or is in its batch or pending; and it is
pending exactly as long as there is a swap to come. -/
structure Inv (s : Teardown) : Prop where
  phased : s.sys.Phased
  account : ∀ t ≠ 0, (s.sys.loops t).pc ≠ .returned → ∀ c, s.queued.count (t, c) =
    s.executed.count (t, c) + s.sys.batchDestroys t c + s.sys.pendingDestroys t c
  torn : s.Torn
  swept : ∀ t ≠ 0, s.swept t = true → ∀ c, s.sys.pendingDestroys t c = 0
  unswept : ∀ t ≠ 0, (s.sys.loops t).pc ≠ .returned → s.swept t = false →
    ∃ c, s.sys.pendingDestroys t c ≠ 0

lemma inv_new : Inv new where
  phased := ServerSys.phased_new
  account _ _ _ _ := rfl
  torn _ _ h := nomatch h
  swept _ _ _ _ := rfl
  unswept _ _ _ h := nomatch h

/-- A step that leaves the `connectDestroy` of the sub-loops alone. -/
lemma Inv.still {sys : ServerSys} (h : s.Inv) (hp : sys.Phased)
    (hs : ∀ t ≠ 0, s.sys.Still t sys) : Inv { s with sys := sys } where
  phased := hp
  account t ht hret c := by
    rw [(hs t ht).batch, (hs t ht).pending]
    exact h.account t ht (fun hr => hret ((hs t ht).returned.mpr hr)) c
  torn t ht hret := h.torn t ht ((hs t ht).returned.mp hret)
  swept t ht hsw c := by
    rw [(hs t ht).pending]
    exact h.swept t ht hsw c
  unswept t ht hret hsw := by
    obtain ⟨c, hc⟩ := h.unswept t ht (fun hr => hret ((hs t ht).returned.mpr hr)) hsw
    exact ⟨c, by rwa [(hs t ht).pending]⟩

/-- No sub-loop has returned while the destructor queues. -/
lemma Inv.not_returned (h : s.Inv) (hended : s.sys.phase.ended = false) (t : LoopId) :
    (s.sys.loops t).pc ≠ .returned := fun hr => by
  rw [h.phased.quit t (h.phased.returned t hr)] at hended
  cases hended

open ServerSys

/-- What the step does to the other sub-loops, and to the one that returns. -/
lemma Inv.leaves {t : LoopId} (h : s.Inv) (hpc : (s.sys.loops t).pc = .check)
    (hsw : t ≠ 0 → s.swept t = true) {l : LoopThread} (hl : l.pc = .returned)
    (hpend : l.pendingFuntors_ = []) (hp : (s.sys.setLoop t l).Phased) :
    Inv { s with sys := s.sys.setLoop t l } := by
  have hret : (s.sys.loops t).pc ≠ .returned := by simp [hpc]
  refine ⟨hp, fun i hi hpi c => ?_, fun i hi hpi c => ?_, fun i hi hswi c => ?_,
    fun i hi hpi hswi => ?_⟩
  · rcases eq_or_ne i t with rfl | hit
    · exact absurd (by simpa using hl) hpi
    · have hs : s.sys.Still i (s.sys.setLoop t l) := .of_loop (setLoop_of_ne hit l)
      rw [hs.batch, hs.pending]
      exact h.account i hi (fun hr => hpi (hs.returned.mpr hr)) c
  · rcases eq_or_ne i t with rfl | hit
    · -- nothing is in the batch, and nothing is pending
      have hacc := h.account i hi hret c
      have hb : s.sys.batchDestroys i c = 0 := by rw [batchDestroys, hpc]; rfl
      rw [hb, h.swept i hi (hsw hi) c] at hacc
      exact hacc.le
    · rw [setLoop_of_ne hit] at hpi
      exact h.torn i hi hpi c
  · rw [pendingDestroys, setLoop_loops]
    split_ifs with hit
    · rw [hpend]
      rfl
    · exact h.swept i hi hswi c
  · rcases eq_or_ne i t with rfl | hit
    · exact absurd (by simpa using hl) hpi
    · rw [setLoop_of_ne hit] at hpi
      obtain ⟨c, hc⟩ := h.unswept i hi hpi hswi
      exact ⟨c, by rwa [pendingDestroys, setLoop_of_ne hit]⟩

/-- **A sub-loop swaps.** What was pending is its batch. -/
lemma Inv.swaps {t : LoopId} (h : s.Inv) (hpc : (s.sys.loops t).pc = .handling [])
    {l : LoopThread} (hl : l.pc = .functors (s.sys.loops t).pendingFuntors_)
    (hpend : l.pendingFuntors_ = []) (hp : (s.sys.setLoop t l).Phased) :
    Inv { s with sys := s.sys.setLoop t l, swept := Function.update s.swept t true } := by
  have hret : (s.sys.loops t).pc ≠ .returned := by simp [hpc]
  refine ⟨hp, fun i hi hpi c => ?_, fun i hi hpi c => ?_, fun i hi hswi c => ?_,
    fun i hi hpi hswi => ?_⟩
  · rcases eq_or_ne i t with rfl | hit
    · have hacc := h.account i hi hret c
      have hb : s.sys.batchDestroys i c = 0 := by rw [batchDestroys, hpc]; rfl
      have hb' : (s.sys.setLoop i l).batchDestroys i c = s.sys.pendingDestroys i c := by
        rw [batchDestroys, setLoop_self, hl]
        rfl
      have hp' : (s.sys.setLoop i l).pendingDestroys i c = 0 := by
        rw [pendingDestroys, setLoop_self, hpend]
        rfl
      rw [hb', hp']
      rw [hb] at hacc
      exact hacc
    · have hs : s.sys.Still i (s.sys.setLoop t l) := .of_loop (setLoop_of_ne hit l)
      rw [hs.batch, hs.pending]
      exact h.account i hi (fun hr => hpi (hs.returned.mpr hr)) c
  · rcases eq_or_ne i t with rfl | hit
    · rw [setLoop_self, hl] at hpi
      cases hpi
    · rw [setLoop_of_ne hit] at hpi
      exact h.torn i hi hpi c
  · change Function.update s.swept t true i = true at hswi
    rw [pendingDestroys, setLoop_loops]
    split_ifs with hit
    · rw [hpend]
      rfl
    · rw [Function.update_of_ne hit] at hswi
      exact h.swept i hi hswi c
  · change Function.update s.swept t true i = false at hswi
    rcases eq_or_ne i t with rfl | hit
    · rw [Function.update_self] at hswi
      cases hswi
    · rw [Function.update_of_ne hit] at hswi
      rw [setLoop_of_ne hit] at hpi
      obtain ⟨c, hc⟩ := h.unswept i hi hpi hswi
      exact ⟨c, by rwa [pendingDestroys, setLoop_of_ne hit]⟩

/-- **A `connectDestroy` runs.** -/
lemma Inv.destroys {t : LoopId} {c : ConnId} {batch : List Functor} (h : s.Inv)
    (hpc : (s.sys.loops t).pc = .functors (.connectDestroy c :: batch)) {sys : ServerSys}
    (hp : sys.Phased) (hs : ∀ i ≠ 0, (s.sys.setPc t (.functors batch)).Still i sys) :
    Inv { s with sys := sys, executed := s.executed ++ [(t, c)] } := by
  have hpend : ∀ i d, (s.sys.setPc t (.functors batch)).pendingDestroys i d =
      s.sys.pendingDestroys i d := fun i d => by
    rw [pendingDestroys, setPc_pending, pendingDestroys]
  have hret : ∀ i ≠ 0, (sys.loops i).pc = .returned ↔ (s.sys.loops i).pc = .returned := by
    intro i hi
    rw [(hs i hi).returned, setPc_pc]
    split_ifs with hit
    · simp [hit, hpc]
    · exact Iff.rfl
  refine ⟨hp, fun i hi hpi d => ?_, fun i hi hpi d => ?_, fun i hi hswi d => ?_,
    fun i hi hpi hswi => ?_⟩
  · have hacc := h.account i hi (fun hr => hpi ((hret i hi).mpr hr)) d
    have hb : [(t, c)].count (i, d) + (s.sys.setPc t (.functors batch)).batchDestroys i d =
        s.sys.batchDestroys i d := by
      rw [batchDestroys, setPc_pc, batchDestroys]
      split_ifs with hit
      · subst hit
        rw [hpc]
        change _ + batch.count _ = (Functor.connectDestroy c :: batch).count _
        rw [List.count_singleton, List.count_cons, Nat.add_comm]
        simp [Prod.ext_iff]
      · rw [List.count_singleton, if_neg (by simp [Ne.symm hit]), Nat.zero_add]
    rw [(hs i hi).batch, (hs i hi).pending, hpend, List.count_append, hacc, ← hb]
    omega
  · rw [List.count_append]
    exact (h.torn i hi ((hret i hi).mp hpi) d).trans (Nat.le_add_right _ _)
  · rw [(hs i hi).pending, hpend]
    exact h.swept i hi hswi d
  · obtain ⟨d, hd⟩ := h.unswept i hi (fun hr => hpi ((hret i hi).mpr hr)) hswi
    exact ⟨d, by rwa [(hs i hi).pending, hpend]⟩

/-- **The destructor queues a `connectDestroy`.** -/
lemma Inv.queues {t : LoopId} {c : ConnId} (h : s.Inv) {sys : ServerSys}
    (hended : s.sys.phase.ended = false) (hp : sys.Phased)
    (hloop : ∀ i, sys.loops i = (s.sys.push t (.connectDestroy c)).loops i) :
    Inv { s with
      sys := sys
      queued := s.queued ++ [(t, c)]
      swept := Function.update s.swept t false } := by
  have hpc : ∀ i, (sys.loops i).pc = (s.sys.loops i).pc := fun i => by rw [hloop, push_pc]
  have hpend : ∀ i d, sys.pendingDestroys i d =
      s.sys.pendingDestroys i d + [(t, c)].count (i, d) := by
    intro i d
    rw [pendingDestroys, hloop, push_pending, List.count_append, pendingDestroys]
    congr 1
    split_ifs with hit
    · subst hit
      simp [List.count_singleton, Prod.ext_iff]
    · rw [List.count_singleton, if_neg (by simp [Ne.symm hit]), List.count_nil]
  refine ⟨hp, fun i hi hpi d => ?_, fun i hi hpi d => ?_, fun i hi hswi d => ?_,
    fun i hi hpi hswi => ?_⟩
  · have hacc := h.account i hi (h.not_returned hended i) d
    rw [batchDestroys, hpc, hpend, List.count_append, hacc]
    exact Nat.add_assoc _ _ _
  · exact absurd (hpc i ▸ hpi) (h.not_returned hended i)
  · change Function.update s.swept t false i = true at hswi
    rcases eq_or_ne i t with rfl | hit
    · rw [Function.update_self] at hswi
      cases hswi
    · rw [Function.update_of_ne hit] at hswi
      rw [hpend, h.swept i hi hswi d, List.count_singleton, if_neg (by simp [Ne.symm hit])]
  · change Function.update s.swept t false i = false at hswi
    rcases eq_or_ne i t with rfl | hit
    · exact ⟨c, by simp [hpend]⟩
    · rw [Function.update_of_ne hit] at hswi
      obtain ⟨d, hd⟩ := h.unswept i hi (h.not_returned hended i) hswi
      exact ⟨d, by rw [hpend]; omega⟩

/-- The history does not say which other functors were executed. -/
lemma note_functor {t : LoopId} {f : Functor} {batch : List Functor}
    (hpc : (s.sys.loops t).pc = .functors (f :: batch)) (hf : ∀ c, f ≠ .connectDestroy c)
    (env : FunctorEnv) (sys : ServerSys) :
    s.note (.functor t env) sys = { s with sys := sys } := by
  have hnext : s.nextFunctor t = some f := by rw [nextFunctor, hpc]; rfl
  simp only [note, hnext]
  cases f with
  | connectDestroy c => exact absurd rfl (hf c)
  | _ => rfl

/-- A loop executes another functor. -/
lemma Inv.otherFunctor {t : LoopId} {env : FunctorEnv} {f : Functor} {batch : List Functor}
    {sys : ServerSys} (h : s.Inv) (hpc : (s.sys.loops t).pc = .functors (f :: batch))
    (hf : ∀ c, f ≠ .connectDestroy c) (htr : Trans conf s.sys (.functor t env) sys) :
    Inv (s.note (.functor t env) sys) := by
  rw [note_functor hpc hf]
  refine h.still (h.phased.trans htr) fun i hi => htr.still hi (by simp) (by simp) ?_ (by simp)
  rintro env' c batch' heq hpc'
  cases heq
  rw [hpc] at hpc'
  cases hpc'
  exact hf c rfl

/-- **A step that meets the condition keeps the invariant.** -/
theorem Inv.trans {a : ServerAct} (h : s.Inv) (hst : s.Step conf a s')
    (hg : s.SweepsFirst a) : s'.Inv := by
  obtain ⟨sys, hsys, rfl⟩ := Option.map_eq_some_iff.mp hst
  have htr : Trans conf s.sys a sys := ServerSys.Step.trans hsys
  have htr' := htr
  have hp := h.phased.trans htr
  have hstill := fun t (ht : t ≠ 0) => htr.still ht
  cases htr with
  | @leaves t hrun hpc hquit =>
      exact h.leaves hpc (fun ht => hg t ht rfl hquit) rfl rfl hp
  | swaps hrun hpc => exact h.swaps hpc rfl rfl hp
  | @destroys t env c batch hrun hpc =>
      have hnote : ∀ sys, s.note (.functor t env) sys =
          { s with sys := sys, executed := s.executed ++ [(t, c)] } := fun sys => by
        simp [note, nextFunctor, hpc, ThreadPc.batch]
      rw [hnote]
      exact h.destroys hpc hp fun i hi =>
        (applied_withConn ((Ctx.primitive_frame _).connectDestroy _ (.refl _))).still hi
  | @destroysThere e onDown left hphase he hloop =>
      have hnote : ∀ sys, s.note (.destroyNext e onDown) sys = { s with
          sys := sys
          queued := s.queued ++ [((s.sys.conn e.2).loop_, e.2)]
          swept := Function.update s.swept (s.sys.conn e.2).loop_ false } := fun sys => by
        simp [note, hloop]
      rw [hnote]
      exact h.queues (by rw [hphase]; rfl) hp fun i => rfl
  | @destroysHere e onDown left hphase he hloop =>
      have hnote : ∀ sys, s.note (.destroyNext e onDown) sys = { s with sys := sys } :=
        fun sys => by simp [note, hloop]
      rw [hnote]
      refine h.still hp fun t ht => hstill t ht (by simp) (by simp) (by simp) ?_
      rintro e' onDown' heq
      cases heq
      rw [hloop]
      exact ht.symm
  | establishes hrun hpc => exact h.otherFunctor hpc (by rintro c ⟨⟩) htr'
  | removes hrun hpc halive => exact h.otherFunctor hpc (by rintro c ⟨⟩) htr'
  | runs hrun hpc haux =>
      refine h.otherFunctor hpc ?_ htr'
      rintro c rfl
      cases haux
  | @waits t hrun hpc hquit =>
      refine h.still hp fun i hi => hstill i hi ?_ (by simp) (by simp) (by simp)
      intro heq
      cases heq
      exact hquit
  | _ => exact h.still hp fun i hi => hstill i hi (by simp) (by simp) (by simp) (by simp)

/-- A step that does not breaks the property. -/
lemma Inv.not_torn {a : ServerAct} (h : s.Inv) (hst : s.Step conf a s')
    (hg : ¬ s.SweepsFirst a) : ¬ s'.Torn := by
  simp only [SweepsFirst, not_forall] at hg
  obtain ⟨t, ht, rfl, hquit, hsw⟩ := hg
  obtain ⟨sys, hsys, rfl⟩ := Option.map_eq_some_iff.mp hst
  intro htorn
  cases ServerSys.Step.trans hsys with
  | leaves hrun hpc _ =>
      -- what was pending is dropped
      have hret : (s.sys.loops t).pc ≠ .returned := by simp [hpc]
      obtain ⟨c, hc⟩ := h.unswept t ht hret (Bool.eq_false_iff.mpr hsw)
      have hacc := h.account t ht hret c
      have hle := htorn t ht (by simp [note]) c
      change s.queued.count (t, c) ≤ s.executed.count (t, c) at hle
      omega
  | waits hrun hpc hquit' =>
      rw [hquit'] at hquit
      cases hquit

/-- **Every `connectDestroy` of the destructor is run** before its sub-loop returns, exactly
when the sub-loops come to one more swap before they find `quit_` set. -/
theorem torn_iff {tr : List (ServerAct × Teardown)} (h : Chain (Step conf) new tr) :
    Always Torn new tr ↔ Chain (fun s a _ => s.SweepsFirst a) new tr := by
  have keep : ∀ s a t, Inv s → Step conf s a t → s.SweepsFirst a → Inv t :=
    fun s a t hi hst hg => hi.trans hst hg
  have brk : ∀ s a t, Inv s → Step conf s a t → ¬ s.SweepsFirst a → ¬ t.Torn :=
    fun s a t hi hst hg => hi.not_torn hst hg
  exact always_iff_of_inv (fun s hi => hi.torn) keep brk inv_new h

/-- A connection is made on the sub-loop of an echo server, the server is destroyed while the
sub-loop is between its swap and its test, and the sub-loop returns. -/
def droppedDestroy : List ServerAct :=
  [.check 0, .poll 0 [.acceptor], .accept 7 [], .check 1, .poll 1 [], .swap 1,
    .functor 1 ⟨[], [], .ok 0⟩, .swap 0, .endBatch 0, .destroy,
    .destroyNext ("Echoserver-0.0.0.0:8080#1", 1) [], .destroyMembers, .quit, .endBatch 1,
    .check 1, .join]

theorem not_torn :
    Chain (Step (.echo 1)) new (walk (step (.echo 1)) new droppedDestroy) ∧
      (walk (step (.echo 1)) new droppedDestroy).length = droppedDestroy.length ∧
      ¬ Always Torn new (walk (step (.echo 1)) new droppedDestroy) := by
  refine ⟨chain_walk _ _ _, by decide +kernel, fun htorn => ?_⟩
  have hlast := htorn.2 _ (List.getLast_mem (l := walk (step (.echo 1)) new droppedDestroy)
    (List.ne_nil_of_length_pos (by decide +kernel)))
  exact absurd (hlast 1 (by decide) (by decide +kernel) 1) (by decide +kernel)

/-- The server is destroyed while the sub-loop waits. -/
def sweptDestroy : List ServerAct :=
  [.check 0, .poll 0 [.acceptor], .accept 7 [], .check 1, .poll 1 [], .swap 1,
    .functor 1 ⟨[], [], .ok 0⟩, .endBatch 1, .check 1, .swap 0, .endBatch 0, .destroy,
    .destroyNext ("Echoserver-0.0.0.0:8080#1", 1) [], .destroyMembers, .quit, .poll 1 [],
    .swap 1, .functor 1 ⟨[], [], .ok 0⟩, .endBatch 1, .check 1, .join]

theorem torn_sweptDestroy :
    (walk (step (.echo 1)) new sweptDestroy).length = sweptDestroy.length ∧
      (Always Torn new (walk (step (.echo 1)) new sweptDestroy) ↔
        Chain (fun s a _ => s.SweepsFirst a) new (walk (step (.echo 1)) new sweptDestroy)) :=
  ⟨by decide +kernel, torn_iff (chain_walk _ _ _)⟩

end Teardown

end Reactor
