import Reactor.Placement

/-!
The table of a server's connections and the course of its destructor.

Connections have names of their own, so that erasing one by its name takes no other with it.
A loop is told to quit only after the destructor has come to every connection.
-/

namespace Reactor

namespace ServerSys

variable {conf : ServerConf} {s s' : ServerSys}

/-! ### Names -/

/-- `buf` holds the text of a connection whole. -/
lemma connName_eq {i : ℕ} (h : i < 2 ^ 31) :
    connName conf i = conf.name_ ++ ("-" ++ conf.ipPort_ ++ "#" ++ toString i) := by
  have hdigits : (toString i).length ≤ 10 := (Nat.length_repr_le_iff (by decide)).mpr (by omega)
  have hip := conf.ipPort_length
  have hdash : "-".length = 1 := by decide
  have hhash : "#".length = 1 := by decide
  unfold connName
  rw [List.take_of_length_le, String.ofList_toList]
  simp only [String.length_toList, String.length_append]
  omega

lemma connName_inj {i j : ℕ} (hi : i < 2 ^ 31) (hj : j < 2 ^ 31)
    (h : connName conf i = connName conf j) : i = j := by
  rw [connName_eq hi, connName_eq hj, String.append_right_inj, String.append_right_inj] at h
  have hd := congrArg (fun text : String => Nat.ofDigitChars 10 text.toList 0) h
  simpa [Nat.ofDigitChars_toDigits] using hd

/-- Between `s` and `s'` no connection is made and none enters the table. -/
structure SameTable (s s' : ServerSys) : Prop where
  next : s'.nextConnId_ = s.nextConnId_
  name_ : ∀ c, (s'.conn c).name_ = (s.conn c).name_
  entries : s'.entries ⊆ s.entries

lemma sameTable_setLoop (t : LoopId) (l : LoopThread) : s.SameTable (s.setLoop t l) :=
  ⟨rfl, fun _ => rfl, fun _ he => he⟩

lemma SameTable.trans {s'' : ServerSys} (h : s.SameTable s') (h' : s'.SameTable s'') :
    s.SameTable s'' :=
  ⟨h'.next.trans h.next, fun c => (h'.name_ c).trans (h.name_ c),
    fun _ he => h.entries (h'.entries he)⟩

/-- The destructor takes an entry out. -/
lemma sameTable_erase {e : String × ConnId} {left : ConnectionMap}
    (hphase : s.phase = .destroying left) :
    s.SameTable { s with phase := .destroying (left.erase e) } := by
  refine ⟨rfl, fun _ => rfl, ?_⟩
  rw [entries_destroying hphase]
  exact List.erase_subset

lemma Applied.sameTable {c : ConnId} {t : LoopId} {y : Ctx} (hf : (s.ctx c t).Frame y)
    (hy : Applied c t y s s') : s.SameTable s' := by
  refine ⟨hy.nextConnId_, fun d => ?_, fun e he => ?_⟩
  · rw [hy.conn]
    rcases eq_or_ne d c with rfl | hd
    · rw [Function.update_self]
      exact hf.name_
    · rw [Function.update_of_ne hd]
  · rcases hy.entries with hm | ⟨-, hm⟩ <;> rw [hm] at he
    · exact he
    · exact List.mem_of_mem_filter he

lemma sameTable_withConn {c : ConnId} {t : LoopId} {op : Ctx → Ctx}
    (hf : (s.ctx c t).Frame (op (s.ctx c t))) : s.SameTable (s.withConn c t op) :=
  (applied_withConn hf).sameTable hf

lemma sameTable_newConnection (sockfd : ℕ) (onUp : Script) :
    (addConnection conf sockfd s).SameTable (newConnection conf sockfd onUp s) := by
  unfold newConnection
  simp only
  split_ifs
  · exact sameTable_withConn ((Ctx.primitive_frame _).connectEstablished onUp (.refl _))
  · exact sameTable_setLoop _ _

/-- **What a step does to the table**: only an `accept` adds to it. -/
theorem Trans.sameTable {a : ServerAct} (ht : Trans conf s a s') :
    s.SameTable s' ∨ ∃ active sockfd, s.phase = .alive ∧ s.nextConnId_ + 1 < 2 ^ 31 ∧
      (addConnection conf sockfd (s.setPc 0 (.handling active))).SameTable s' := by
  have hprim := fun x => Ctx.primitive_frame x
  cases ht with
  | accepts hpc halive hfd hid =>
      exact Or.inr ⟨_, _, halive, hid, sameTable_newConnection _ _⟩
  | leaves hrun hpc hquit => exact Or.inl (sameTable_setLoop _ _)
  | waits hrun hpc hquit => exact Or.inl (sameTable_setLoop _ _)
  | @polls t ready hrun hpc hready =>
      left
      obtain ⟨conn, he, hr⟩ := fillActiveChannels_eq t ready s
      rw [he]
      refine ⟨rfl, fun c => ?_, fun _ he => he⟩
      obtain ⟨r, hr⟩ := hr c
      change (conn c).name_ = _
      rw [hr]
      rfl
  | acceptFails hrun hpc => exact Or.inl (sameTable_setLoop _ _)
  | handles hrun hpc =>
      left
      exact (sameTable_setLoop _ _).trans (sameTable_withConn ((hprim _).handleEvent _ (.refl _)))
  | swaps hrun hpc => exact Or.inl (sameTable_setLoop _ _)
  | establishes hrun hpc =>
      left
      exact (sameTable_setLoop _ _).trans
        (sameTable_withConn ((hprim _).connectEstablished _ (.refl _)))
  | destroys hrun hpc =>
      left
      exact (sameTable_setLoop _ _).trans
        (sameTable_withConn ((hprim _).connectDestroy _ (.refl _)))
  | removes hrun hpc halive =>
      left
      refine ⟨rfl, fun _ => rfl, ?_⟩
      rw [entries_alive (by exact halive), entries_alive halive]
      exact List.filter_subset_self _
  | runs hrun hpc haux =>
      left
      exact (sameTable_setLoop _ _).trans (sameTable_withConn (frame_auxOp _ _ _))
  | endsBatch hrun hpc => exact Or.inl (sameTable_setLoop _ _)
  | userCalls hc => exact Or.inl (sameTable_withConn ((hprim _).act _ (.refl _)))
  | beginsDestroy halive hpc =>
      left
      refine ⟨rfl, fun _ => rfl, ?_⟩
      rw [entries_alive halive]
      exact fun _ he => he
  | destroysHere hphase he hloop =>
      left
      exact (sameTable_erase hphase).trans
        (sameTable_withConn ((hprim _).connectDestroy _ (.refl _)))
  | destroysThere hphase he hloop =>
      exact Or.inl ((sameTable_erase hphase).trans (sameTable_setLoop _ _))
  | destroysMembers hphase =>
      left
      refine ⟨rfl, fun _ => rfl, ?_⟩
      unfold entries
      simp only
      split_ifs <;> exact List.nil_subset _
  | @quits i hphase =>
      have hquit : s.SameTable { s with phase := .joining i } :=
        ⟨rfl, fun _ => rfl, List.nil_subset _⟩
      exact Or.inl (hquit.trans (sameTable_setLoop _ _))
  | joins hphase hpc =>
      left
      refine ⟨rfl, fun _ => rfl, ?_⟩
      unfold entries
      simp only
      split_ifs <;> exact List.nil_subset _

variable (conf) in
/-- Connections are in the table under their names, and no two share one. -/
structure Registered (s : ServerSys) : Prop where
  bound : s.nextConnId_ ≤ 2 ^ 31
  name_ : ∀ c, s.Made c → (s.conn c).name_ = connName conf c
  entries : ∀ e ∈ s.entries, e.1 = connName conf e.2

lemma registered_new : new.Registered conf where
  bound := by decide
  name_ _ hc := absurd (Nat.lt_of_le_of_lt hc.1 hc.2) (Nat.lt_irrefl 1)
  entries e he := absurd he (List.not_mem_nil)

lemma SameTable.registered (h : s.SameTable s') (hr : s.Registered conf) :
    s'.Registered conf where
  bound := h.next ▸ hr.bound
  name_ c hc := (h.name_ c).trans (hr.name_ c ((made_congr h.next c).mp hc))
  entries e he := hr.entries e (h.entries he)

lemma Registered.addConnection (h : s.Registered conf) (halive : s.phase = .alive)
    (hid : s.nextConnId_ + 1 < 2 ^ 31) (sockfd : ℕ) :
    (addConnection conf sockfd s).Registered conf where
  bound := Nat.le_of_lt hid
  name_ c hc := by
    rcases Nat.lt_succ_iff_lt_or_eq.mp hc.2 with hlt | rfl
    · rw [addConnection_conn ⟨hc.1, hlt⟩]
      exact h.name_ c ⟨hc.1, hlt⟩
    · rw [addConnection_conn_new]
      rfl
  entries e he := by
    rw [entries_alive (by exact halive)] at he
    rcases List.mem_append.mp he with he | he
    · exact h.entries e (by
        rw [entries_alive halive]
        exact List.mem_of_mem_filter he)
    · rw [List.mem_singleton.mp he]

theorem Registered.trans {a : ServerAct} (h : s.Registered conf) (ht : Trans conf s a s') :
    s'.Registered conf := by
  rcases ht.sameTable with hs | ⟨active, sockfd, halive, hid, hs⟩
  · exact hs.registered h
  · have h' : (s.setPc 0 (.handling active)).Registered conf := (sameTable_setLoop _ _).registered h
    exact hs.registered (h'.addConnection halive hid sockfd)

/-- Connections that are made have different names. -/
lemma Registered.ne {c d : ConnId} (h : s.Registered conf) (hc : s.Made c) (hd : s.Made d)
    (hne : d ≠ c) : connName conf d ≠ (s.conn c).name_ := by
  rw [h.name_ c hc]
  have hcn := Nat.lt_of_lt_of_le hc.2 h.bound
  have hdn := Nat.lt_of_lt_of_le hd.2 h.bound
  exact fun he => hne (connName_inj hdn hcn he)

end ServerSys

/-! ### The destructor -/

/-- The destructor is done with the connections. -/
def Phase.ended : Phase → Bool
  | .quitting _ => true
  | .joining _ => true
  | .gone => true
  | _ => false

namespace ServerSys

variable {conf : ServerConf} {s s' : ServerSys}

/-- What the threads can be doing in each phase. -/
structure Phased (s : ServerSys) : Prop where
  quit : ∀ t, (s.loops t).quit_ = true → s.phase.ended = true
  returned : ∀ t, (s.loops t).pc = .returned → (s.loops t).quit_ = true
  base : s.phase = .alive ∨ s.phase = .gone ∨ (s.loops 0).pc = .check

lemma phased_new : new.Phased where
  quit _ h := by cases h
  returned _ h := by cases h
  base := Or.inl rfl

lemma entries_ended (h : s.phase.ended = true) : s.entries = [] := by
  unfold entries
  split <;> first | rfl | simp_all [Phase.ended]

/-- A step that changes neither the phase nor the place of a thread. -/
lemma Phased.congr (h : s.Phased) (hphase : s'.phase = s.phase)
    (hquit : ∀ t, (s'.loops t).quit_ = (s.loops t).quit_)
    (hpc : ∀ t, (s'.loops t).pc = (s.loops t).pc) : s'.Phased where
  quit t ht := hphase ▸ h.quit t (hquit t ▸ ht)
  returned t ht := (hquit t).trans (h.returned t (hpc t ▸ ht))
  base := by
    rw [hphase, hpc]
    exact h.base

/-- A thread moves on in its loop. -/
lemma Phased.setPc {t : LoopId} {pc : ThreadPc} (h : s.Phased) (hrun : s.Runs conf t)
    (hpc : pc ≠ .returned) : (s.setPc t pc).Phased where
  quit i hi := h.quit i (by rwa [setPc_quit] at hi)
  returned i hi := by
    rw [setPc_pc] at hi
    rw [setPc_quit]
    split_ifs at hi with hit
    · exact absurd hi hpc
    · exact h.returned i hi
  base := by
    rw [setPc_pc]
    split_ifs with ht
    · rw [Runs, if_pos ht.symm] at hrun
      exact hrun.imp_right Or.inl
    · exact h.base

lemma Phased.push (h : s.Phased) (t : LoopId) (f : Functor) : (s.push t f).Phased :=
  h.congr rfl (fun i => push_quit t i f) fun i => push_pc t i f

lemma Phased.applied {c : ConnId} {t : LoopId} {y : Ctx} (h : s.Phased)
    (hy : Applied c t y s s') : s'.Phased := h.congr hy.phase hy.quit_ hy.pc

/-- The destructor moves on, past the connections when a loop has quit. -/
lemma Phased.setPhase (h : s.Phased) (phase : Phase) (m : ConnectionMap)
    (hended : s.phase.ended = true → phase.ended = true) (hbase : (s.loops 0).pc = .check) :
    Phased { s with phase := phase, connections_ := m } where
  quit t ht := hended (h.quit t ht)
  returned := h.returned
  base := Or.inr (Or.inr hbase)

/-- During the destructor the base loop waits for nothing. -/
lemma Phased.idle (h : s.Phased) (halive : s.phase ≠ .alive) (hgone : s.phase ≠ .gone) :
    (s.loops 0).pc = .check := by
  rcases h.base with hb | hb | hb
  · exact absurd hb halive
  · exact absurd hb hgone
  · exact hb

/-- A connection of the table is taken leave of. -/
lemma Phased.erase {left : ConnectionMap} (h : s.Phased) (hphase : s.phase = .destroying left)
    (e : String × ConnId) : Phased { s with phase := .destroying (left.erase e) } := by
  have hbase : (s.loops 0).pc = .check := h.idle (by simp [hphase]) (by simp [hphase])
  exact h.setPhase _ _ (by simp [hphase, Phase.ended]) hbase

variable (conf) in
lemma runs_base (h : s.phase = .alive) : s.Runs conf 0 := by
  rw [Runs, if_pos rfl]
  exact Or.inl h

theorem Phased.trans {a : ServerAct} (h : s.Phased) (ht : Trans conf s a s') : s'.Phased := by
  have hprim := fun x => Ctx.primitive_frame x
  cases ht with
  | @leaves t hrun hpc hquit =>
      refine ⟨fun i hi => h.quit i ?_, fun i hi => ?_, ?_⟩
      · rw [setLoop_loops] at hi
        split_ifs at hi with hit
        · exact hit ▸ hi
        · exact hi
      · rw [setLoop_loops] at hi ⊢
        split_ifs at hi ⊢
        · exact hquit
        · exact h.returned i hi
      · rw [setLoop_loops]
        split_ifs with ht
        · rw [Runs, if_pos ht.symm] at hrun
          exact hrun.imp_right Or.inl
        · exact h.base
  | waits hrun hpc hquit => exact h.setPc hrun (by simp)
  | @polls t ready hrun hpc hready =>
      obtain ⟨conn, he, -⟩ := fillActiveChannels_eq t ready s
      have h' : Phased { s with conn := conn } := h.congr rfl (fun _ => rfl) fun _ => rfl
      rw [he]
      have hrun' : Runs conf { s with conn := conn } t := hrun
      exact h'.setPc hrun' (by simp)
  | @accepts sockfd onUp active hpc halive hfd hid =>
      have h' : (s.setPc 0 (.handling active)).Phased :=
        h.setPc (runs_base conf halive) (by simp)
      have hadd : (addConnection conf sockfd (s.setPc 0 (.handling active))).Phased :=
        h'.congr rfl (fun _ => rfl) fun _ => rfl
      unfold newConnection
      simp only
      split_ifs
      · exact hadd.applied (applied_withConn ((hprim _).connectEstablished _ (.refl _)))
      · exact hadd.push _ _
  | acceptFails hrun hpc => exact h.setPc hrun (by simp)
  | handles hrun hpc =>
      exact (h.setPc hrun (by simp)).applied (applied_withConn ((hprim _).handleEvent _ (.refl _)))
  | @swaps t hrun hpc =>
      have h' : (s.setPc t (.functors (s.loops t).pendingFuntors_)).Phased :=
        h.setPc hrun (by simp)
      refine h'.congr rfl (fun i => ?_) fun i => ?_ <;> rw [setLoop_loops]
      · rw [setPc_quit]
        split_ifs with hi
        · rw [hi]
        · rfl
      · rw [setPc_pc]
        split_ifs <;> rfl
  | establishes hrun hpc =>
      exact (h.setPc hrun (by simp)).applied
        (applied_withConn ((hprim _).connectEstablished _ (.refl _)))
  | destroys hrun hpc =>
      exact (h.setPc hrun (by simp)).applied
        (applied_withConn ((hprim _).connectDestroy _ (.refl _)))
  | @removes t env c batch hrun hpc halive =>
      have h' : (s.setPc t (.functors batch)).Phased := h.setPc hrun (by simp)
      have hfilter : Phased { s.setPc t (.functors batch) with
          connections_ := s.connections_.filter fun e => e.1 ≠ (s.conn c).name_ } :=
        h'.congr rfl (fun _ => rfl) fun _ => rfl
      exact hfilter.push 0 (.connectDestroy c)
  | runs hrun hpc haux =>
      exact (h.setPc hrun (by simp)).applied (applied_withConn (frame_auxOp _ _ _))
  | endsBatch hrun hpc => exact h.setPc hrun (by simp)
  | userCalls hc => exact h.applied (applied_withConn ((hprim _).act _ (.refl _)))
  | beginsDestroy halive hpc =>
      refine h.setPhase _ _ (fun hended => ?_) hpc
      rw [halive] at hended
      cases hended
  | @destroysHere e onDown left hphase he hloop =>
      have h' : Phased { s with phase := .destroying (left.erase e) } := h.erase hphase e
      exact h'.applied (applied_withConn ((hprim _).connectDestroy _ (.refl _)))
  | @destroysThere e onDown left hphase he hloop =>
      have h' : Phased { s with phase := .destroying (left.erase e) } := h.erase hphase e
      exact h'.push _ _
  | destroysMembers hphase =>
      refine h.setPhase _ _ (fun _ => ?_) (h.idle (by simp [hphase]) (by simp [hphase]))
      split_ifs <;> rfl
  | @quits i hphase =>
      have h' : Phased { s with phase := .joining i } :=
        h.setPhase _ _ (fun _ => rfl) (h.idle (by simp [hphase]) (by simp [hphase]))
      refine ⟨fun _ _ => rfl, fun j hj => ?_, ?_⟩
      · rw [setLoop_loops] at hj ⊢
        split_ifs at hj ⊢ with hji
        · rfl
        · exact h'.returned j hj
      · rw [setLoop_loops]
        split_ifs with h0
        · exact h0 ▸ h'.base
        · exact h'.base
  | joins hphase hpc =>
      refine h.setPhase _ _ (fun _ => ?_) (h.idle (by simp [hphase]) (by simp [hphase]))
      split_ifs <;> rfl

end ServerSys

end Reactor
