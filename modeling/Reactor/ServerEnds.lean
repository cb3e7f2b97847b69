import Reactor.ServerProgress

/-!
The end of a server: `~TcpServer` comes to an end, and leaves no thread of the pool behind.

The destructor joins the threads of the sub-loops one after the other. It has told each of them to
quit before that, and a loop that has been told so tests `quit_` when its iteration is over.
-/

namespace Reactor

open Lib.Schedule

namespace ServerSys

variable {conf : ServerConf} {s s' : ServerSys}

/-! ### Where the server goes -/

/-- A step of the destructor. -/
def OfServer : ServerAct → Prop
  | .destroy | .destroyNext _ _ | .destroyMembers | .quit | .join => True
  | _ => False

variable (conf s s') in
/-- Where the server goes from the phase it is in, on the way from `s` to `s'`. -/
inductive Unwinds : Phase → Phase → Prop
  | destroy : Unwinds .alive (.destroying s.connections_)
  | destroyNext {left : ConnectionMap} (e : String × ConnId) (he : e ∈ left) :
      Unwinds (.destroying left) (.destroying (left.erase e))
  | destroyMembers :
      Unwinds (.destroying []) (if conf.numThreads_ = 0 then .gone else .quitting 1)
  | quit (i : LoopId) (h : (s'.loops i).quit_ = true) : Unwinds (.quitting i) (.joining i)
  | join (i : LoopId) (h : (s.loops i).pc = .returned) :
      Unwinds (.joining i) (if i < conf.numThreads_ then .quitting (i + 1) else .gone)

/-- **Inversion, for the phase of the server.** -/
theorem Trans.unwinds {a : ServerAct} (ht : Trans conf s a s') :
    OfServer a ∧ s.Unwinds conf s' s.phase s'.phase ∨ ¬ OfServer a ∧ s'.phase = s.phase := by
  have hprim := fun x => Ctx.primitive_frame x
  cases ht with
  | @polls t ready hrun hpc hready =>
      obtain ⟨conn, he, -⟩ := fillActiveChannels_eq t ready s
      rw [he]
      exact Or.inr ⟨id, rfl⟩
  | @accepts sockfd onUp active hpc halive hfd hid =>
      refine Or.inr ⟨id, ?_⟩
      unfold newConnection
      simp only
      split_ifs
      · exact (applied_withConn ((hprim _).connectEstablished onUp (.refl _))).phase
      · rfl
  | @handles t env c active hrun hpc =>
      exact Or.inr ⟨id, (applied_withConn ((hprim _).handleEvent env (.refl _))).phase⟩
  | @establishes t env c batch hrun hpc =>
      exact Or.inr ⟨id, (applied_withConn ((hprim _).connectEstablished env.acts (.refl _))).phase⟩
  | @destroys t env c batch hrun hpc =>
      exact Or.inr ⟨id, (applied_withConn ((hprim _).connectDestroy env.acts (.refl _))).phase⟩
  | @runs t env f batch hrun hpc haux =>
      exact Or.inr ⟨id, (applied_withConn (frame_auxOp env f _)).phase⟩
  | @userCalls t c act hc =>
      exact Or.inr ⟨id, (applied_withConn ((hprim _).act act (.refl _))).phase⟩
  | beginsDestroy halive hpc =>
      rw [halive]
      exact Or.inl ⟨trivial, .destroy⟩
  | @destroysHere e onDown left hphase he hloop =>
      rw [(applied_withConn ((hprim _).connectDestroy onDown (.refl _))).phase, hphase]
      exact Or.inl ⟨trivial, .destroyNext e he⟩
  | @destroysThere e onDown left hphase he hloop =>
      rw [hphase]
      exact Or.inl ⟨trivial, .destroyNext e he⟩
  | destroysMembers hphase =>
      rw [hphase]
      exact Or.inl ⟨trivial, .destroyMembers⟩
  | @quits i hphase =>
      rw [hphase]
      refine Or.inl ⟨trivial, .quit i ?_⟩
      rw [setLoop_self]
  | @joins i hphase hpc =>
      rw [hphase]
      exact Or.inl ⟨trivial, .join i hpc⟩
  | _ => exact Or.inr ⟨id, rfl⟩

/-- A loop that has been told to quit stays so. -/
lemma Trans.quit_mono {a : ServerAct} {t : LoopId} (ht : Trans conf s a s')
    (h : (s.loops t).quit_ = true) : (s'.loops t).quit_ = true := by
  have hprim := fun x => Ctx.primitive_frame x
  have hset : ∀ {i : LoopId} {l : LoopThread}, l.quit_ = (s.loops i).quit_ →
      ((s.setLoop i l).loops t).quit_ = true := by
    intro i l hl
    rw [setLoop_loops]
    split_ifs with hi
    · rw [hl, ← hi, h]
    · exact h
  cases ht with
  | leaves | waits | acceptFails | swaps | endsBatch => exact hset rfl
  | @polls i ready hrun hpc hready =>
      obtain ⟨conn, he, -⟩ := fillActiveChannels_eq i ready s
      rw [he]
      exact hset rfl
  | @accepts sockfd onUp active hpc halive hfd hid =>
      unfold newConnection
      simp only
      split_ifs
      · rw [(applied_withConn ((hprim _).connectEstablished onUp (.refl _))).quit_]
        exact hset rfl
      · rw [push_quit]
        exact hset rfl
  | @handles i env c active hrun hpc =>
      rw [(applied_withConn ((hprim _).handleEvent env (.refl _))).quit_]
      exact hset rfl
  | @establishes i env c batch hrun hpc =>
      rw [(applied_withConn ((hprim _).connectEstablished env.acts (.refl _))).quit_]
      exact hset rfl
  | @destroys i env c batch hrun hpc =>
      rw [(applied_withConn ((hprim _).connectDestroy env.acts (.refl _))).quit_]
      exact hset rfl
  | removes =>
      rw [removeConnectionInLoop, push_quit]
      exact hset rfl
  | @runs i env f batch hrun hpc haux =>
      rw [(applied_withConn (frame_auxOp env f _)).quit_]
      exact hset rfl
  | @userCalls i c act hc =>
      rw [(applied_withConn ((hprim _).act act (.refl _))).quit_]
      exact h
  | @destroysHere e onDown left hphase he hloop =>
      rw [(applied_withConn ((hprim _).connectDestroy onDown (.refl _))).quit_]
      exact h
  | destroysThere =>
      rw [push_quit]
      exact h
  | @quits i hphase =>
      rw [setLoop_loops]
      split_ifs
      · rfl
      · exact h
  | beginsDestroy | destroysMembers | joins => exact h

/-- A loop that has been left stays so. -/
lemma Trans.returned_mono {a : ServerAct} {t : LoopId} (ht : Trans conf s a s')
    (h : (s.loops t).pc = .returned) : (s'.loops t).pc = .returned := by
  rcases ht.advances t with ⟨-, hgoes⟩ | ⟨-, hpc⟩
  · rw [h] at hgoes
    cases hgoes
  · rw [hpc, h]

/-! ### What the destructor keeps -/

/-- The thread that the destructor is at. -/
def current : Phase → Option LoopId
  | .quitting i | .joining i => some i
  | _ => none

/-- How many of the threads have been joined. -/
def joined (conf : ServerConf) : Phase → ℕ
  | .quitting i | .joining i => i - 1
  | .gone => conf.numThreads_
  | _ => 0

/-- **What holds in every state of a run.** The threads are joined in their order, each after it has
been told to quit. -/
structure Ending (conf : ServerConf) (s : ServerSys) : Prop where
  phased : s.Phased
  quits : ∀ i, s.phase = .joining i → (s.loops i).quit_ = true
  bounds : ∀ i, current s.phase = some i → i ∈ Finset.Icc 1 conf.numThreads_
  left : ∀ t ∈ Finset.Icc 1 (joined conf s.phase), (s.loops t).pc = .returned

lemma ending_new : new.Ending conf where
  phased := phased_new
  quits _ h := by cases h
  bounds _ h := by cases h
  left t ht := by simp [joined, new] at ht

lemma ending_at {p : Phase} (hs : s.phase = p) (hphased : s.Phased)
    (hquits : ∀ i, p = .joining i → (s.loops i).quit_ = true)
    (hbounds : ∀ i, current p = some i → i ∈ Finset.Icc 1 conf.numThreads_)
    (hleft : ∀ t ∈ Finset.Icc 1 (joined conf p), (s.loops t).pc = .returned) : s.Ending conf := by
  subst hs
  exact ⟨hphased, hquits, hbounds, hleft⟩

theorem Ending.trans {a : ServerAct} (h : s.Ending conf) (ht : Trans conf s a s') :
    s'.Ending conf := by
  have hphased := h.phased.trans ht
  rcases ht.unwinds with ⟨-, hu⟩ | ⟨-, hsame⟩
  swap
  · exact ending_at hsame hphased (fun i hi => ht.quit_mono (h.quits i hi)) h.bounds
      fun t htm => ht.returned_mono (h.left t htm)
  have hbounds := h.bounds
  have hleft : ∀ t ∈ Finset.Icc 1 (joined conf s.phase), (s'.loops t).pc = .returned :=
    fun t htm => ht.returned_mono (h.left t htm)
  generalize s.phase = p at hu hbounds hleft
  generalize hs' : s'.phase = p' at hu
  cases hu with
  | destroy | destroyNext =>
      exact ending_at hs' hphased (by rintro i ⟨⟩) (by rintro i ⟨⟩) hleft
  | destroyMembers =>
      split_ifs at hs' with h0
      · refine ending_at hs' hphased (by rintro i ⟨⟩) (by rintro i ⟨⟩) fun t htm => ?_
        rw [joined, h0] at htm
        exact hleft t htm
      · refine ending_at hs' hphased (by rintro i ⟨⟩) ?_ hleft
        rintro i ⟨⟩
        exact Finset.mem_Icc.mpr ⟨le_rfl, Nat.pos_of_ne_zero h0⟩
  | quit i hquit =>
      refine ending_at hs' hphased ?_ ?_ hleft
      · rintro j ⟨⟩
        exact hquit
      · rintro j ⟨⟩
        exact hbounds i rfl
  | join i hpc =>
      obtain ⟨hi, hle⟩ := Finset.mem_Icc.mp (hbounds i rfl)
      -- the thread that has just been joined is one more
      have hone : ∀ t ∈ Finset.Icc 1 i, (s'.loops t).pc = .returned := by
        intro t htm
        obtain ⟨ht1, hti⟩ := Finset.mem_Icc.mp htm
        rcases hti.eq_or_lt with rfl | hlt
        · exact ht.returned_mono hpc
        · exact hleft t (Finset.mem_Icc.mpr ⟨ht1, Nat.le_pred_of_lt hlt⟩)
      split_ifs at hs' with hlt
      · refine ending_at hs' hphased (by rintro j ⟨⟩) ?_ hone
        rintro j ⟨⟩
        exact Finset.mem_Icc.mpr ⟨Nat.succ_pos i, hlt⟩
      · refine ending_at hs' hphased (by rintro j ⟨⟩) (by rintro j ⟨⟩) fun t htm => ?_
        rw [joined, ← le_antisymm hle (not_lt.mp hlt)] at htm
        exact hone t htm

/-! ### How far it is -/

/-- Whose turn it is: the base loop's thread in the destructor, or the thread of a sub-loop. -/
inductive Party
  | server
  | loop (t : LoopId)

/-- The destructor goes on unless it waits for a thread, and the thread of a sub-loop unless it
waits with nothing queued and has not been told to quit. -/
def Party.Enabled (conf : ServerConf) : Party → ServerSys → Prop
  | .server, s => s.phase ≠ .alive ∧ s.phase ≠ .gone ∧
      ∀ i, s.phase = .joining i → (s.loops i).pc = .returned
  | .loop t, s => t ∈ Finset.Icc 1 conf.numThreads_ ∧ (s.loops t).pc ≠ .returned ∧
      ((s.loops t).pc = .poll → (s.loops t).pendingFuntors_ ≠ [] ∨ (s.loops t).quit_ = true)

def Party.Does : Party → ServerAct → Prop
  | .server, a => OfServer a
  | .loop t, a => OfLoop t a

/-- A schedule that lets the destructor and the threads of the sub-loops go on. -/
def LetsEnd (conf : ServerConf) (sched : ℕ → ServerAct) : Prop :=
  ∀ p : Party, WeaklyFair (step conf) new sched (p.Enabled conf) p.Does

/-- Who brings the destructor on. -/
def helpful (s : ServerSys) : Party :=
  match s.phase with
  | .joining i => if (s.loops i).pc = .returned then .server else .loop i
  | _ => .server

/-- How far the thread of a loop that has been told to quit is from leaving it. -/
def wayOut : ThreadPc → ℕ ×ₗ ℕ
  | .returned => toLex (0, 0)
  | .check => toLex (1, 0)
  | .functors batch => toLex (2, batch.length)
  | .handling active => toLex (3, active.length)
  | .poll => toLex (4, 0)

lemma Goes.wayOut_lt {t : LoopId} {pc pc' : ThreadPc} (h : s.Goes t pc pc')
    (hquit : (s.loops t).quit_ = true) : wayOut pc' < wayOut pc := by
  cases h with
  | waits hfalse => simp [hquit] at hfalse
  | _ => simp [wayOut, Prod.Lex.toLex_lt_toLex]

/-- How far the destructor is from its end. -/
def toGo (conf : ServerConf) (s : ServerSys) : ℕ ×ₗ ℕ ×ₗ ℕ :=
  match s.phase with
  | .alive => toLex (2 * conf.numThreads_ + 2, toLex (0, 0))
  | .destroying left => toLex (2 * conf.numThreads_ + 1, toLex (left.length, 0))
  | .quitting i => toLex (2 * (conf.numThreads_ + 1 - i), toLex (0, 0))
  | .joining i => toLex (2 * (conf.numThreads_ - i) + 1, wayOut (s.loops i).pc)
  | .gone => toLex (0, toLex (0, 0))

/-- A step of the destructor brings it closer to its end. -/
lemma Ending.unwinds_lt (h : s.Ending conf) (hu : s.Unwinds conf s' s.phase s'.phase) :
    s'.toGo conf < s.toGo conf := by
  have hbounds := h.bounds
  unfold toGo
  generalize s.phase = p at hu hbounds
  generalize s'.phase = p' at hu
  cases hu with
  | destroy => exact Prod.Lex.toLex_lt_toLex.mpr (Or.inl (Nat.lt_succ_self _))
  | @destroyNext left e he =>
      have hlt : (left.erase e).length < left.length := by
        rw [List.length_erase_of_mem he]
        exact Nat.pred_lt (List.length_pos_of_mem he).ne'
      exact Prod.Lex.toLex_lt_toLex.mpr
        (Or.inr ⟨rfl, Prod.Lex.toLex_lt_toLex.mpr (Or.inl hlt)⟩)
  | destroyMembers =>
      split_ifs
      · exact Prod.Lex.toLex_lt_toLex.mpr (Or.inl (Nat.succ_pos _))
      · exact Prod.Lex.toLex_lt_toLex.mpr (Or.inl (Nat.lt_succ_self _))
  | quit i hquit =>
      have hle := (Finset.mem_Icc.mp (hbounds i rfl)).2
      have hsucc : conf.numThreads_ + 1 - i = conf.numThreads_ - i + 1 := Nat.succ_sub hle
      exact Prod.Lex.toLex_lt_toLex.mpr (Or.inl (by omega))
  | join i hpc =>
      split_ifs
      · exact Prod.Lex.toLex_lt_toLex.mpr (Or.inl (by omega))
      · exact Prod.Lex.toLex_lt_toLex.mpr (Or.inl (by omega))

/-- **What a step does to the way that is left**: the helpful one makes it shorter, and any other
makes it shorter or leaves things as they are. -/
theorem Ending.closer {a : ServerAct} (h : s.Ending conf) (ht : Trans conf s a s') :
    (s'.toGo conf < s.toGo conf ∨ s'.toGo conf = s.toGo conf ∧ s'.helpful = s.helpful) ∧
      (s.helpful.Does a → s'.toGo conf < s.toGo conf) := by
  rcases ht.unwinds with ⟨-, hu⟩ | ⟨hno, hsame⟩
  · exact ⟨Or.inl (h.unwinds_lt hu), fun _ => h.unwinds_lt hu⟩
  by_cases hj : ∃ i, s.phase = .joining i
  · obtain ⟨i, hi⟩ := hj
    have hgo (r : ServerSys) (hr : r.phase = .joining i) : r.toGo conf =
        toLex (2 * (conf.numThreads_ - i) + 1, wayOut (r.loops i).pc) := by rw [toGo, hr]
    have hhelp (r : ServerSys) (hr : r.phase = .joining i) : r.helpful =
        if (r.loops i).pc = .returned then .server else .loop i := by rw [helpful, hr]
    have hi' := hsame.trans hi
    rw [hgo s hi, hgo s' hi', hhelp s hi, hhelp s' hi']
    rcases ht.advances i with ⟨ha, hgoes⟩ | ⟨hother, hpc⟩
    · have hlt : toLex (2 * (conf.numThreads_ - i) + 1, wayOut (s'.loops i).pc) <
          toLex (2 * (conf.numThreads_ - i) + 1, wayOut (s.loops i).pc) :=
        Prod.Lex.toLex_lt_toLex.mpr (Or.inr ⟨rfl, hgoes.wayOut_lt (h.quits i hi)⟩)
      exact ⟨Or.inl hlt, fun _ => hlt⟩
    · rw [hpc]
      refine ⟨Or.inr ⟨rfl, rfl⟩, fun hdoes => ?_⟩
      split_ifs at hdoes
      · exact absurd hdoes hno
      · exact absurd hdoes hother
  · have hother : s'.toGo conf = s.toGo conf ∧ s'.helpful = .server ∧ s.helpful = .server := by
      unfold toGo helpful
      rw [hsame]
      cases hp : s.phase with
      | joining i => exact absurd ⟨i, hp⟩ hj
      | _ => exact ⟨rfl, rfl, rfl⟩
    obtain ⟨hgo, hhelp', hhelp⟩ := hother
    rw [hhelp]
    exact ⟨Or.inr ⟨hgo, hhelp'⟩, fun hdoes => absurd hdoes hno⟩

/-- The helpful one can go on. -/
lemma Ending.enabled (h : s.Ending conf) (hbegun : s.phase ≠ .alive) (hnot : s.phase ≠ .gone) :
    s.helpful.Enabled conf s := by
  unfold helpful
  split
  case h_1 i hi =>
    split_ifs with hpc
    · refine ⟨hbegun, hnot, fun j hj => ?_⟩
      cases hi.symm.trans hj
      exact hpc
    · refine ⟨h.bounds i ?_, hpc, fun _ => Or.inr (h.quits i hi)⟩
      rw [hi]
      rfl
  case h_2 hno => exact ⟨hbegun, hnot, fun i hi => absurd hi (hno i)⟩

/-- **`~TcpServer` comes to an end.** Under any schedule that lets the destructor and the threads of
the sub-loops go on, a destructor that has begun returns, and the thread of every sub-loop has left
its loop. -/
theorem destructor_ends (conf : ServerConf) (sched : ℕ → ServerAct) (fair : LetsEnd conf sched)
    (n : ℕ) (hbegun : (play (step conf) new sched n).phase ≠ .alive) :
    ∃ m ≥ n, (play (step conf) new sched m).phase = .gone ∧
      ∀ t ∈ Finset.Icc 1 conf.numThreads_,
        ((play (step conf) new sched m).loops t).pc = .returned := by
  have hkeep : ∀ s a s', Trans conf s a s' → s.Ending conf → s'.Ending conf :=
    fun _ _ _ ht h => h.trans ht
  obtain ⟨m, hm, hgone⟩ := eventually_of_helpful (fun s => s.phase = .gone) (toGo conf) helpful
    (Party.Enabled conf) Party.Does
    (fun s a s' (hs : s.Ending conf ∧ s.phase ≠ .alive) _ hstep =>
      ⟨hs.1.trans (Step.trans hstep), fun h => hs.2 ((Step.trans hstep).alive h)⟩)
    (fun s hs hnot => hs.1.enabled hs.2 hnot)
    (fun s a s' hs _ hstep => Or.inr (hs.1.closer (Step.trans hstep)).1)
    (fun s a s' hs _ hdoes hstep => Or.inr ((hs.1.closer (Step.trans hstep)).2 hdoes))
    fair ⟨holds_play ending_new hkeep n, hbegun⟩
  refine ⟨m, hm, hgone, fun t htm => ?_⟩
  have hend : (play (step conf) new sched m).Ending conf := holds_play ending_new hkeep m
  have hleft := hend.left t
  rw [hgone] at hleft
  exact hleft htm

/-- A client of a sub-loop connects, and the server is destroyed while that loop waits. -/
def destroyedRun : List ServerAct :=
  [.check 0, .poll 0 [.acceptor], .accept 7 [], .swap 0, .endBatch 0, .check 1,
    .destroy, .destroyNext (connName (.echo 1) 1, 1) [], .destroyMembers, .quit,
    .poll 1 [], .swap 1, .functor 1 ⟨[], [], .ok 0⟩, .functor 1 ⟨[], [], .ok 0⟩, .endBatch 1,
    .check 1, .join]

/-- The run, and after it nothing. -/
def destroyedServer : ℕ → ServerAct := (destroyedRun.getD · .join)

lemma play_destroyed_end : let s := play (step (.echo 1)) new destroyedServer 17
    s.phase = .gone ∧ ∀ t ∈ Finset.Icc 1 1, (s.loops t).pc = .returned := by
  decide +kernel

lemma play_destroyed (k : ℕ) :
    play (step (.echo 1)) new destroyedServer (17 + k) =
      play (step (.echo 1)) new destroyedServer 17 := by
  refine play_stuck (fun i => ?_) k
  have hact : destroyedServer (17 + i) = .join :=
    List.getD_eq_default _ _ (Nat.le_add_right 17 i)
  rw [hact]
  simp only [step, destroyStep, play_destroyed_end.1]

/-- After that nobody has anything to do. -/
lemma letsEnd_destroyed : LetsEnd (.echo 1) destroyedServer := by
  intro p n h
  have hend := h (17 + n) (Nat.le_add_left n 17)
  rw [play_destroyed] at hend
  cases p with
  | server => exact absurd play_destroyed_end.1 hend.2.1
  | loop t => exact absurd (play_destroyed_end.2 t hend.1) hend.2.1

theorem destructor_ends_destroyed :
    ∃ m ≥ 7, (play (step (.echo 1)) new destroyedServer m).phase = .gone ∧
      ∀ t ∈ Finset.Icc 1 (ServerConf.echo 1).numThreads_,
        ((play (step (.echo 1)) new destroyedServer m).loops t).pc = .returned :=
  destructor_ends (.echo 1) destroyedServer letsEnd_destroyed 7 (by decide +kernel)

end ServerSys

end Reactor
