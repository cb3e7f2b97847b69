import Reactor.Lifetime

/-!
What a step of the server does to the functors queued and to the table, for those who hold a
connection by them.

A functor is not lost before it has run, and an entry that leaves the table leaves a
`connectDestroy` behind, unless `handleEvent` or `~TcpServer` holds the connection meanwhile.
A member function in the thread of its loop queues nothing that is bound to `this`.
-/

namespace Reactor

namespace Ctx

variable {x : Ctx}

/-- In the thread of the loop, with every functor asked for bound to a pointer. -/
structure Here (x : Ctx) : Prop where
  here : x.isInLoopThread = true
  owns : ∀ f, .queueInloop f ∈ x.out → f.owns = true

lemma steady_here : SteadyPrimitive (fun f => f.owns = true) Here where
  log _ h := ⟨h.here, h.owns⟩
  queue f hf haux hown h := by
    refine ⟨h.here, fun g hg => ?_⟩
    rcases List.mem_append.mp hg with hg | hg
    · exact h.owns g hg
    · cases List.mem_singleton.mp hg
      exact hown
  setState _ h := ⟨h.here, h.owns⟩
  tie h := ⟨h.here, h.owns⟩
  onChannel _ h := ⟨h.here, h.owns⟩
  accept _ h := ⟨h.here, h.owns⟩
  shutWr h := ⟨h.here, h.owns⟩
  input _ h := ⟨h.here, h.owns⟩
  output _ h := ⟨h.here, h.owns⟩
  writeComplete _ := rfl
  highWaterMark _ _ := rfl
  elsewhere f haux hin h := by
    rw [h.here] at hin
    cases hin
  close h := by
    refine ⟨h.here, fun g hg => ?_⟩
    rcases List.mem_append.mp hg with hg | hg
    · exact h.owns g hg
    · cases List.mem_singleton.mp hg

/-- A connection that is not connected lets the user take bytes out, and nothing else. -/
lemma act_eq (a : UserAct) (h : x.conn.state_ ≠ .kConnected) :
    ∃ b, x.act a = { x with conn.inputBuffer_ := b } := by
  cases a with
  | send data res => exact ⟨x.conn.inputBuffer_, if_neg h⟩
  | shutdown => exact ⟨x.conn.inputBuffer_, if_neg h⟩
  | retrieve len => exact ⟨_, rfl⟩

lemma runScript_eq (acts : Script) (h : x.conn.state_ ≠ .kConnected) :
    ∃ b, x.runScript acts = { x with conn.inputBuffer_ := b } := by
  induction acts generalizing x with
  | nil => exact ⟨x.conn.inputBuffer_, rfl⟩
  | cons a acts ih =>
      obtain ⟨b, hb⟩ := act_eq a h
      obtain ⟨b', hb'⟩ := ih (x := { x with conn.inputBuffer_ := b }) h
      refine ⟨b', ?_⟩
      rw [runScript, List.foldl_cons, hb]
      exact hb'

/-- Destroying asks for nothing, on whatever thread. -/
lemma out_connectDestroy (onDown : Script) (x : Ctx) : (x.connectDestroy onDown).out = x.out := by
  by_cases hst : x.conn.state_ = .kConnected
  · have hlow : (x.lowered .connectDestroy).conn.state_ ≠ .kConnected := by
      change StateE.kDisconnected ≠ _
      decide
    obtain ⟨b, hb⟩ := runScript_eq onDown hlow
    rw [connectDestroy_connected onDown hst, hb]
    rfl
  · rw [connectDestroy_eq onDown hst]
    rfl

end Ctx

namespace ServerSys

variable {conf : ServerConf} {s s' : ServerSys}

/-! ### Functors bound to `this` -/

lemma pending_put (c : ConnId) (y : Ctx) (i : LoopId) :
    ((s.put c y).loops i).pendingFuntors_ = (s.loops i).pendingFuntors_ := by
  rw [put, setLoop_loops]
  split_ifs with hi <;> simp [hi]

/-- A member function that asks for nothing queues nothing. -/
lemma pending_withConn {c : ConnId} {t : LoopId} {op : Ctx → Ctx}
    (h : (op (s.ctx c t)).out = []) (i : LoopId) :
    ((s.withConn c t op).loops i).pendingFuntors_ = (s.loops i).pendingFuntors_ := by
  rw [withConn, h]
  exact pending_put ..

/-- What `removeConnection` queues on the base loop, called by the thread `t`. -/
def removal (t : LoopId) (c : ConnId) : Functor :=
  if t = 0 then .connectDestroy c else .removeConnectionInLoop c

lemma removal_owns (t : LoopId) (c : ConnId) : (removal t c).owns = true := by
  unfold removal
  split_ifs <;> rfl

lemma mem_pending_push {t i : LoopId} {f g : Functor} :
    f ∈ ((s.push t g).loops i).pendingFuntors_ ↔
      f ∈ (s.loops i).pendingFuntors_ ∨ i = t ∧ f = g := by
  rw [push_pending]
  split_ifs with hi <;> simp [hi]

lemma mem_pending_effect {c : ConnId} {t i : LoopId} {e : Effect} {f : Functor} :
    f ∈ ((s.effect t c e).loops i).pendingFuntors_ ↔ f ∈ (s.loops i).pendingFuntors_ ∨
      i = (s.conn c).loop_ ∧ .queueInloop f = e ∨ i = 0 ∧ .closeCallback = e ∧ f = removal t c := by
  cases e with
  | queueInloop g =>
      rw [effect, mem_pending_push]
      simp
  | closeCallback =>
      rw [effect, removeConnection, removal]
      split_ifs
      · rw [removeConnectionInLoop, mem_pending_push]
        simp
      · rw [mem_pending_push]
        simp

lemma effect_conn (c : ConnId) (t : LoopId) (e : Effect) (s : ServerSys) :
    (s.effect t c e).conn = s.conn := by
  cases e with
  | queueInloop f => rfl
  | closeCallback =>
      rw [effect, removeConnection]
      split_ifs <;> rfl

/-- **What a member function leaves pending** was pending, was asked for, or is queued by
`removeConnection`. -/
lemma mem_pending_withConn {c : ConnId} {t i : LoopId} {op : Ctx → Ctx} {f : Functor} :
    f ∈ ((s.withConn c t op).loops i).pendingFuntors_ ↔ f ∈ (s.loops i).pendingFuntors_ ∨
      i = (op (s.ctx c t)).conn.loop_ ∧ .queueInloop f ∈ (op (s.ctx c t)).out ∨
        i = 0 ∧ .closeCallback ∈ (op (s.ctx c t)).out ∧ f = removal t c := by
  have hfold : ∀ (es : List Effect) (s₁ : ServerSys),
      f ∈ ((es.foldl (effect t c) s₁).loops i).pendingFuntors_ ↔
        f ∈ (s₁.loops i).pendingFuntors_ ∨ i = (s₁.conn c).loop_ ∧ .queueInloop f ∈ es ∨
          i = 0 ∧ .closeCallback ∈ es ∧ f = removal t c := by
    intro es
    induction es with
    | nil => simp
    | cons e es ih =>
        intro s₁
        rw [List.foldl_cons, ih, mem_pending_effect, effect_conn, List.mem_cons, List.mem_cons]
        tauto
  have hloop : ((s.put c (op (s.ctx c t))).conn c).loop_ = (op (s.ctx c t)).conn.loop_ :=
    congrArg TcpConnection.loop_ (Function.update_self ..)
  rw [withConn, hfold, pending_put, hloop]

variable (s s') in
/-- The functors bound to `this` that are queued in `s'` were so in `s`. -/
def NoneBare : Prop :=
  ∀ t, ∀ f ∈ (s'.loops t).jobs, f.owns = false → f ∈ (s.loops t).jobs

lemma NoneBare.trans {s'' : ServerSys} (h : s.NoneBare s') (h' : s'.NoneBare s'') :
    s.NoneBare s'' := fun t f hf hown => h t f (h' t f hf hown) hown

lemma noneBare_setLoop {t : LoopId} {l : LoopThread} (h : l.jobs ⊆ (s.loops t).jobs) :
    s.NoneBare (s.setLoop t l) := by
  intro i f hf _
  rw [setLoop_loops] at hf
  split_ifs at hf with hi
  · exact hi ▸ h hf
  · exact hf

lemma noneBare_setPc {t : LoopId} {pc : ThreadPc} (h : pc.batch ⊆ (s.loops t).pc.batch) :
    s.NoneBare (s.setPc t pc) :=
  noneBare_setLoop (List.append_subset.mpr ⟨fun _ hf => List.mem_append_left _ (h hf),
    List.subset_append_right _ _⟩)

lemma noneBare_push {t : LoopId} {f : Functor} (hf : f.owns = true) :
    s.NoneBare (s.push t f) := by
  intro i g hg hown
  rw [jobs_push] at hg
  rcases List.mem_append.mp hg with hg | hg
  · exact hg
  · split_ifs at hg
    · rw [List.mem_singleton.mp hg, hf] at hown
      cases hown
    · cases hg

lemma noneBare_withConn {c : ConnId} {t : LoopId} {op : Ctx → Ctx}
    (hf : (s.ctx c t).Frame (op (s.ctx c t)))
    (hout : ∀ f, .queueInloop f ∈ (op (s.ctx c t)).out → f.owns = true) :
    s.NoneBare (s.withConn c t op) := by
  intro i f hfj hown
  rw [LoopThread.jobs, (applied_withConn hf).pc] at hfj
  rcases List.mem_append.mp hfj with hfj | hfj
  · exact List.mem_append_left _ hfj
  · rcases mem_pending_withConn.mp hfj with hfj | ⟨-, hq⟩ | ⟨-, -, rfl⟩
    · exact List.mem_append_right _ hfj
    · rw [hout f hq] at hown
      cases hown
    · rw [removal_owns] at hown
      cases hown

/-- A member function that keeps `Here` queues nothing bound to `this`, on its own loop. -/
lemma noneBare_here {c : ConnId} {t : LoopId} {op : Ctx → Ctx}
    (hf : (s.ctx c t).Frame (op (s.ctx c t))) (hloop : (s.conn c).loop_ = t)
    (hop : (s.ctx c t).Here → (op (s.ctx c t)).Here) : s.NoneBare (s.withConn c t op) :=
  noneBare_withConn hf (hop ⟨decide_eq_true hloop, fun _ h => absurd h List.not_mem_nil⟩).owns

lemma noneBare_connectDestroy (c : ConnId) (t : LoopId) (onDown : Script) :
    s.NoneBare (s.withConn c t (Ctx.connectDestroy onDown)) := by
  refine noneBare_withConn ((Ctx.primitive_frame _).connectDestroy onDown (.refl _)) fun f hf => ?_
  rw [Ctx.out_connectDestroy] at hf
  exact absurd hf List.not_mem_nil

/-- The loop goes on to the next functor. -/
lemma noneBare_rest {t : LoopId} {f : Functor} {batch : List Functor}
    (hpc : (s.loops t).pc = .functors (f :: batch)) : s.NoneBare (s.setPc t (.functors batch)) := by
  refine noneBare_setPc ?_
  rw [hpc]
  exact List.subset_cons_self ..

/-- **No step of the server queues a functor bound to `this`**, calls on connections of other
loops apart. -/
theorem Trans.noneBare {a : ServerAct} (hp : s.Placed) (ht : Trans conf s a s')
    (hcall : ∀ t c act, a = .userCall t c act → (s.conn c).loop_ = t) : s.NoneBare s' := by
  have hprim := fun x => Ctx.primitive_frame x
  have hhere := Ctx.steady_here
  cases ht with
  | leaves hrun hpc hquit => exact noneBare_setLoop (List.nil_subset _)
  | waits hrun hpc hquit => exact noneBare_setPc (List.nil_subset _)
  | @polls t ready hrun hpc hready =>
      obtain ⟨conn, he, -⟩ := fillActiveChannels_eq t ready s
      rw [he]
      exact noneBare_setPc (s := { s with conn := conn }) (List.nil_subset _)
  | @accepts sockfd onUp active hpc halive hfd hid =>
      have hadd : s.NoneBare (addConnection conf sockfd (s.setPc 0 (.handling active))) :=
        noneBare_setPc (List.nil_subset _)
      refine hadd.trans ?_
      unfold newConnection
      simp only
      split_ifs with hloop
      · refine noneBare_here ((hprim _).connectEstablished onUp (.refl _)) ?_
          (hhere.connectEstablished onUp)
        rw [← hloop]
        exact congrArg TcpConnection.loop_ (addConnection_conn_new sockfd _)
      · exact noneBare_push rfl
  | acceptFails hrun hpc => exact noneBare_setPc (List.nil_subset _)
  | @handles t env c active hrun hpc =>
      have hset : s.NoneBare (s.setPc t (.handling active)) := noneBare_setPc (List.nil_subset _)
      exact hset.trans (noneBare_here ((hprim _).handleEvent env (.refl _)) (hp.report hpc).2
        (hhere.handleEvent env))
  | swaps hrun hpc =>
      refine noneBare_setLoop (List.append_subset.mpr ⟨?_, List.nil_subset _⟩)
      exact List.subset_append_right _ _
  | @establishes t env c batch hrun hpc =>
      have hloop : t = (s.conn c).loop_ := (hp.head hpc).2
      exact (noneBare_rest hpc).trans
        (noneBare_here ((hprim _).connectEstablished env.acts (.refl _)) hloop.symm
          (hhere.connectEstablished env.acts))
  | @destroys t env c batch hrun hpc =>
      exact (noneBare_rest hpc).trans (noneBare_connectDestroy c t env.acts)
  | @removes t env c batch hrun hpc halive =>
      exact (noneBare_rest hpc).trans (noneBare_push rfl)
  | @runs t env f batch hrun hpc haux =>
      have hloop : t = (s.conn f.conn).loop_ := by
        have hat := (hp.head hpc).2
        cases f <;> first | exact hat | cases haux
      exact (noneBare_rest hpc).trans (noneBare_here (frame_auxOp env f _) hloop.symm
        (steady_auxOp hhere.toSteady env f))
  | endsBatch hrun hpc => exact noneBare_setPc (List.nil_subset _)
  | @userCalls t c act hc =>
      exact noneBare_here ((hprim _).act act (.refl _)) (hcall t c act rfl) (hhere.act act)
  | @destroysHere e onDown left hphase he hloop =>
      exact noneBare_connectDestroy (s := { s with phase := .destroying (left.erase e) }) e.2 0
        onDown
  | @destroysThere e onDown left hphase he hloop =>
      exact noneBare_push (s := { s with phase := .destroying (left.erase e) }) rfl
  | @quits i hphase =>
      exact noneBare_setLoop (s := { s with phase := .joining i }) fun _ hf => hf
  | beginsDestroy | destroysMembers | joins => exact fun _ _ hf _ => hf

/-! ### The functors queued -/

/-- The functor that the loop `t` takes from its batch. -/
def takenBy (a : ServerAct) (t : LoopId) (s : ServerSys) : List Functor :=
  match a with
  | .functor i _ => if i = t then (s.loops t).pc.batch.take 1 else []
  | _ => []

/-- The functors of the loop `t` after a step that takes `taken` from its batch: none is
lost. -/
structure Onward (t : LoopId) (taken : List Functor) (s s' : ServerSys) : Prop where
  returned : (s'.loops t).pc = .returned ↔ (s.loops t).pc = .returned
  batch : (s.loops t).pc.batch ⊆ taken ++ (s'.loops t).pc.batch
  pending : (s.loops t).pendingFuntors_ ⊆ (s'.loops t).jobs

lemma Onward.of_loop {t : LoopId} {taken : List Functor} (h : s'.loops t = s.loops t) :
    s.Onward t taken s' where
  returned := by rw [h]
  batch := by rw [h]; exact List.subset_append_right _ _
  pending := by rw [h]; exact List.subset_append_right _ _

lemma Onward.trans {t : LoopId} {taken : List Functor} {s'' : ServerSys}
    (h : s.Onward t taken s') (h' : s'.Onward t [] s'') : s.Onward t taken s'' where
  returned := h'.returned.trans h.returned
  batch f hf := by
    rcases List.mem_append.mp (h.batch hf) with hf | hf
    · exact List.mem_append_left _ hf
    · exact List.mem_append_right _ (h'.batch hf)
  pending f hf := by
    rcases List.mem_append.mp (h.pending hf) with hf | hf
    · exact List.mem_append_left _ (h'.batch hf)
    · exact h'.pending hf

lemma Onward.jobs {t : LoopId} (h : s.Onward t [] s') : (s.loops t).jobs ⊆ (s'.loops t).jobs := by
  refine List.append_subset.mpr ⟨fun f hf => ?_, h.pending⟩
  exact List.mem_append_left _ (h.batch hf)

lemma Applied.onward {c : ConnId} {i t : LoopId} {y : Ctx} (h : Applied c i y s s') :
    s.Onward t [] s' where
  returned := by rw [h.pc]
  batch := by rw [h.pc]; exact fun _ hf => hf
  pending f hf := by
    obtain ⟨l, hl, -⟩ := h.pending t
    rw [LoopThread.jobs, hl]
    exact List.mem_append_right _ (List.mem_append_left _ hf)

lemma onward_push {t i : LoopId} {f : Functor} : s.Onward t [] (s.push i f) where
  returned := by rw [push_pc]
  batch := by rw [push_pc]; exact fun _ hf => hf
  pending g hg := by
    rw [jobs_push, LoopThread.jobs]
    exact List.mem_append_left _ (List.mem_append_right _ hg)

/-- A thread moves on, past the functors `taken`. -/
lemma onward_setPc {t i : LoopId} {pc : ThreadPc} {taken : List Functor} (hpc : pc ≠ .returned)
    (hbatch : i = t → (s.loops t).pc ≠ .returned ∧ (s.loops t).pc.batch ⊆ taken ++ pc.batch) :
    s.Onward t taken (s.setPc i pc) := by
  rcases eq_or_ne t i with rfl | hi
  · obtain ⟨hold, hsub⟩ := hbatch rfl
    refine ⟨?_, ?_, ?_⟩
    · rw [setPc_pc, if_pos rfl]
      exact iff_of_false hpc hold
    · rw [setPc_pc, if_pos rfl]
      exact hsub
    · rw [jobs_setPc, if_pos rfl]
      exact List.subset_append_right _ _
  · exact .of_loop (setLoop_of_ne hi _)

/-- The loop `i` takes the functor at the head of its batch. -/
lemma onward_rest {t i : LoopId} {env : FunctorEnv} {f : Functor} {batch : List Functor}
    (hpc : (s.loops i).pc = .functors (f :: batch)) :
    s.Onward t (s.takenBy (.functor i env) t) (s.setPc i (.functors batch)) := by
  refine onward_setPc (by simp) ?_
  rintro rfl
  rw [takenBy, if_pos rfl, hpc]
  exact ⟨by simp, fun _ hf => hf⟩

/-- **No step loses a functor** but the check of a loop that leaves. -/
theorem Trans.onward {a : ServerAct} {t : LoopId} (ht : Trans conf s a s')
    (hstay : a = .check t → (s.loops t).quit_ = false) : s.Onward t (s.takenBy a t) s' := by
  have hprim := fun x => Ctx.primitive_frame x
  cases ht with
  | @leaves i hrun hpc hquit =>
      rcases eq_or_ne t i with rfl | hi
      · rw [hstay rfl] at hquit
        cases hquit
      · exact .of_loop (setLoop_of_ne hi _)
  | waits hrun hpc hquit =>
      refine onward_setPc (by simp) ?_
      rintro rfl
      rw [hpc]
      exact ⟨by simp, List.nil_subset _⟩
  | @polls i ready hrun hpc hready =>
      obtain ⟨conn, he, -⟩ := fillActiveChannels_eq i ready s
      have hconn : s.Onward t [] { s with conn := conn } := .of_loop rfl
      rw [he]
      refine hconn.trans (onward_setPc (by simp) ?_)
      rintro rfl
      change (s.loops i).pc ≠ _ ∧ (s.loops i).pc.batch ⊆ _
      rw [hpc]
      exact ⟨by simp, List.nil_subset _⟩
  | @accepts sockfd onUp active hpc halive hfd hid =>
      have hset : s.Onward t [] (s.setPc 0 (.handling active)) := by
        refine onward_setPc (by simp) ?_
        rintro rfl
        rw [hpc]
        exact ⟨by simp, List.nil_subset _⟩
      have hadd : s.Onward t [] (addConnection conf sockfd (s.setPc 0 (.handling active))) :=
        hset.trans (.of_loop rfl)
      refine hadd.trans ?_
      unfold newConnection
      simp only
      split_ifs
      · exact (applied_withConn ((hprim _).connectEstablished onUp (.refl _))).onward
      · exact onward_push
  | acceptFails hrun hpc =>
      refine onward_setPc (by simp) ?_
      rintro rfl
      rw [hpc]
      exact ⟨by simp, List.nil_subset _⟩
  | @handles i env c active hrun hpc =>
      have hset : s.Onward t [] (s.setPc i (.handling active)) := by
        refine onward_setPc (by simp) ?_
        rintro rfl
        rw [hpc]
        exact ⟨by simp, List.nil_subset _⟩
      exact hset.trans (applied_withConn ((hprim _).handleEvent env (.refl _))).onward
  | @swaps i hrun hpc =>
      rcases eq_or_ne t i with rfl | hi
      · refine ⟨?_, ?_, ?_⟩
        · rw [setLoop_self, hpc]
          simp
        · rw [hpc]
          exact List.nil_subset _
        · rw [setLoop_self]
          exact List.subset_append_left _ _
      · exact .of_loop (setLoop_of_ne hi _)
  | establishes hrun hpc =>
      exact (onward_rest hpc).trans
        (applied_withConn ((hprim _).connectEstablished _ (.refl _))).onward
  | destroys hrun hpc =>
      exact (onward_rest hpc).trans
        (applied_withConn ((hprim _).connectDestroy _ (.refl _))).onward
  | @removes i env c batch hrun hpc halive =>
      have hfilter : Onward t [] (s.setPc i (.functors batch)) { s.setPc i (.functors batch) with
          connections_ := s.connections_.filter fun e => e.1 ≠ (s.conn c).name_ } := .of_loop rfl
      exact ((onward_rest hpc).trans hfilter).trans onward_push
  | runs hrun hpc haux =>
      exact (onward_rest hpc).trans (applied_withConn (frame_auxOp _ _ _)).onward
  | endsBatch hrun hpc =>
      refine onward_setPc (by simp) ?_
      rintro rfl
      rw [hpc]
      exact ⟨by simp, List.nil_subset _⟩
  | userCalls hc => exact (applied_withConn ((hprim _).act _ (.refl _))).onward
  | @destroysHere e onDown left hphase he hloop =>
      have hset : s.Onward t [] { s with phase := .destroying (left.erase e) } := .of_loop rfl
      exact hset.trans (applied_withConn ((hprim _).connectDestroy _ (.refl _))).onward
  | @destroysThere e onDown left hphase he hloop =>
      have hset : s.Onward t [] { s with phase := .destroying (left.erase e) } := .of_loop rfl
      exact hset.trans onward_push
  | @quits i hphase =>
      rcases eq_or_ne t i with rfl | hi
      · refine ⟨?_, ?_, ?_⟩ <;> rw [setLoop_self]
        · exact fun _ hf => hf
        · exact List.subset_append_right _ _
      · exact .of_loop (setLoop_of_ne hi _)
  | beginsDestroy | destroysMembers | joins => exact .of_loop rfl

/-! ### What lasts -/

/-- Connections stay on their loops, and their histories grow. -/
structure Later (s s' : ServerSys) : Prop where
  next : s.nextConnId_ ≤ s'.nextConnId_
  loop_ : ∀ c < s.nextConnId_, (s'.conn c).loop_ = (s.conn c).loop_
  trace : ∀ c < s.nextConnId_, s.trace c <+: s'.trace c

lemma Later.of_eq (hnext : s'.nextConnId_ = s.nextConnId_) (hconn : s'.conn = s.conn)
    (htrace : s'.trace = s.trace) : s.Later s' :=
  ⟨hnext.ge, fun c _ => by rw [hconn], fun c _ => by rw [htrace]⟩

lemma Later.trans {s'' : ServerSys} (h : s.Later s') (h' : s'.Later s'') : s.Later s'' :=
  ⟨h.next.trans h'.next, fun c hc => (h'.loop_ c (hc.trans_le h.next)).trans (h.loop_ c hc),
    fun c hc => (h.trace c hc).trans (h'.trace c (hc.trans_le h.next))⟩

lemma later_withConn {c : ConnId} {t : LoopId} {op : Ctx → Ctx}
    (hf : (s.ctx c t).Frame (op (s.ctx c t))) : s.Later (s.withConn c t op) := by
  have hy := applied_withConn hf
  refine ⟨hy.nextConnId_.ge, fun d _ => ?_, fun d _ => ?_⟩
  · rcases eq_or_ne d c with rfl | hd
    · rw [hy.conn_self]
      exact hf.loop_
    · rw [hy.conn_of_ne hd]
  · rw [hy.trace]
    rcases eq_or_ne d c with rfl | hd
    · obtain ⟨l, hl, -⟩ := hf.trace
      rw [Function.update_self]
      exact ⟨l, hl.symm⟩
    · rw [Function.update_of_ne hd]

theorem Trans.later {a : ServerAct} (ht : Trans conf s a s') : s.Later s' := by
  have hprim := fun x => Ctx.primitive_frame x
  cases ht with
  | @polls t ready hrun hpc hready =>
      obtain ⟨conn, he, hr⟩ := fillActiveChannels_eq t ready s
      rw [he]
      refine ⟨le_refl _, fun c _ => ?_, fun _ _ => List.prefix_rfl⟩
      obtain ⟨r, hr⟩ := hr c
      change (conn c).loop_ = _
      rw [hr]
      rfl
  | @accepts sockfd onUp active hpc halive hfd hid =>
      have hadd : s.Later (addConnection conf sockfd (s.setPc 0 (.handling active))) := by
        refine ⟨Nat.le_succ _, fun c hc => congrArg TcpConnection.loop_
          (Function.update_of_ne (Nat.ne_of_lt hc) ..), fun c hc => ?_⟩
        have htrace : (addConnection conf sockfd (s.setPc 0 (.handling active))).trace c =
            s.trace c := Function.update_of_ne (Nat.ne_of_lt hc) ..
        rw [htrace]
      refine hadd.trans ?_
      unfold newConnection
      simp only
      split_ifs
      · exact later_withConn ((hprim _).connectEstablished onUp (.refl _))
      · exact .of_eq rfl rfl rfl
  | @handles t env c active hrun hpc =>
      have hset : s.Later (s.setPc t (.handling active)) := .of_eq rfl rfl rfl
      exact hset.trans (later_withConn ((hprim _).handleEvent env (.refl _)))
  | @establishes t env c batch hrun hpc =>
      have hset : s.Later (s.setPc t (.functors batch)) := .of_eq rfl rfl rfl
      exact hset.trans (later_withConn ((hprim _).connectEstablished _ (.refl _)))
  | @destroys t env c batch hrun hpc =>
      have hset : s.Later (s.setPc t (.functors batch)) := .of_eq rfl rfl rfl
      exact hset.trans (later_withConn ((hprim _).connectDestroy _ (.refl _)))
  | @runs t env f batch hrun hpc haux =>
      have hset : s.Later (s.setPc t (.functors batch)) := .of_eq rfl rfl rfl
      exact hset.trans (later_withConn (frame_auxOp env f _))
  | userCalls hc => exact later_withConn ((hprim _).act _ (.refl _))
  | @destroysHere e onDown left hphase he hloop =>
      have hset : s.Later { s with phase := .destroying (left.erase e) } := .of_eq rfl rfl rfl
      exact hset.trans (later_withConn ((hprim _).connectDestroy _ (.refl _)))
  | leaves | waits | acceptFails | swaps | removes | endsBatch | beginsDestroy | destroysThere |
    destroysMembers | quits | joins => exact .of_eq rfl rfl rfl

lemma Later.loopIds {t : LoopId} (h : s.Later s') (ht : t ∈ s.loopIds) :
    t ∈ s'.loopIds := by
  rcases List.mem_cons.mp ht with rfl | ht
  · exact List.mem_cons_self ..
  · obtain ⟨c, hc, rfl⟩ := List.mem_map.mp ht
    have hlt := List.mem_range.mp hc
    exact List.mem_cons_of_mem _ (List.mem_map.mpr
      ⟨c, List.mem_range.mpr (hlt.trans_le h.next), h.loop_ c hlt⟩)

lemma Later.made {c : ConnId} (h : s.Later s') (hc : s.Made c) : s'.Made c :=
  ⟨hc.1, hc.2.trans_le h.next⟩

/-- A connection once destroyed remains so. -/
lemma Later.destroyed {c : ConnId} (h : s.Later s') (hc : s.Made c) (hd : s.destroyed c) :
    s'.destroyed c := by
  obtain ⟨e, he, hcall⟩ := List.mem_map.mp hd
  exact List.mem_map.mpr ⟨e, (h.trace c hc.2).subset he, hcall⟩

lemma zero_mem_loopIds (s : ServerSys) : 0 ∈ s.loopIds := List.mem_cons_self ..

lemma Made.loop_mem {c : ConnId} (h : s.Made c) : (s.conn c).loop_ ∈ s.loopIds :=
  List.mem_cons_of_mem _ (List.mem_map.mpr ⟨c, List.mem_range.mpr h.2, rfl⟩)

/-! ### The table -/

/-- The step is `handleEvent` of the connection. -/
def Guards (a : ServerAct) (c : ConnId) (s : ServerSys) : Prop :=
  ∃ t env active, a = .handle t env ∧ (s.loops t).pc = .handling (.conn c :: active)

/-- The step takes the last entry of the connection out of the table, in `~TcpServer` and in
the thread of its loop. -/
def Erases (c : ConnId) (s : ServerSys) : ServerAct → Prop
  | .destroyNext e _ =>
    e.2 = c ∧ (s.conn c).loop_ = 0 ∧ ∀ e' ∈ s.entries.erase e, e'.2 ≠ c
  | _ => False

instance (c : ConnId) (s : ServerSys) : DecidablePred (s.Erases c)
  | .destroyNext e _ =>
    inferInstanceAs (Decidable (_ ∧ _ ∧ ∀ e' ∈ s.entries.erase e, e'.2 ≠ c))
  | .check _ | .poll _ _ | .accept _ _ | .acceptFails | .handle _ _ | .swap _ | .functor _ _
  | .endBatch _ | .userCall _ _ _ | .destroy | .destroyMembers | .quit | .join =>
    inferInstanceAs (Decidable False)

/-- A `connectDestroy` of the connection is pending on a loop that has not returned. -/
def Doomed (c : ConnId) (s : ServerSys) : Prop :=
  ∃ t ∈ s.loopIds, (s.loops t).pc ≠ .returned ∧ .connectDestroy c ∈ (s.loops t).pendingFuntors_

lemma doomed_push {c : ConnId} {t : LoopId} (ht : t ∈ s.loopIds)
    (hret : (s.loops t).pc ≠ .returned) : (s.push t (.connectDestroy c)).Doomed c := by
  refine ⟨t, ht, ?_, ?_⟩
  · rw [push_pc]
    exact hret
  · rw [push_pending, if_pos rfl]
    exact List.mem_append_right _ (List.mem_singleton.mpr rfl)

lemma Held.of_entries {c : ConnId} (h : s.Held c) (he : s'.entries = s.entries) : s'.Held c := by
  obtain ⟨e, hmem, hc⟩ := h
  exact ⟨e, he ▸ hmem, hc⟩

/-- A member function that does not close leaves the table alone. -/
lemma entries_withConn {c : ConnId} {t : LoopId} {op : Ctx → Ctx}
    (hf : (s.ctx c t).Frame (op (s.ctx c t)))
    (hout : .closeCallback ∉ (op (s.ctx c t)).out) :
    (s.withConn c t op).entries = s.entries := by
  rcases (applied_withConn hf).entries with h | ⟨h, -⟩
  · exact h
  · exact absurd h hout

/-- **What becomes of a pointer in the table.** -/
theorem Trans.held {a : ServerAct} {c : ConnId} (hp : s.Placed) (hr : s.Registered conf)
    (hph : s.Phased) (ht : Trans conf s a s') (hc : s.Made c) (h : s.Held c) :
    s'.Held c ∨ s'.Doomed c ∨ s.Guards a c ∨ s.Erases c a := by
  have hprim := fun x => Ctx.primitive_frame x
  have hquiet := Ctx.quiet_noClose
  cases ht with
  | leaves | waits | acceptFails | swaps | endsBatch => exact Or.inl h
  | @polls t ready hrun hpc hready =>
      left
      obtain ⟨conn, he, -⟩ := fillActiveChannels_eq t ready s
      rw [he]
      exact h
  | @accepts sockfd onUp active hpc halive hfd hid =>
      left
      have hu := unmoved_tail (d := c) hpc
      exact (unmoved_newConnection (hp.tail hpc) ((sameTable_setLoop _ _).registered hr) halive hid
        hc).held (hu.held h)
  | @handles t env d active hrun hpc =>
      rcases eq_or_ne c d with rfl | hne
      · exact Or.inr (Or.inr (Or.inl ⟨t, env, active, rfl, hpc⟩))
      · left
        exact (unmoved_withConn ((sameTable_setLoop _ _).registered hr) (hp.report hpc).1 hc hne
          ((hprim _).handleEvent env (.refl _))).held h
  | establishes hrun hpc =>
      left
      exact h.of_entries (entries_withConn ((hprim _).connectEstablished _ (.refl _))
        (hquiet.connectEstablished _ (noClose_ctx _ _ _)))
  | destroys hrun hpc =>
      left
      exact h.of_entries (entries_withConn ((hprim _).connectDestroy _ (.refl _))
        (hquiet.connectDestroy _ (noClose_ctx _ _ _)))
  | @removes t env d batch hrun hpc halive =>
      rcases eq_or_ne c d with rfl | hne
      · right; left
        refine doomed_push (zero_mem_loopIds _) ?_
        have hret := hph.not_returned halive 0
        change ((s.setPc t (.functors batch)).loops 0).pc ≠ _
        rw [setPc_pc]
        split_ifs
        · simp
        · exact hret
      · left
        obtain ⟨e, he, rfl⟩ := h
        refine ⟨e, ?_, rfl⟩
        rw [entries_alive halive] at he
        rw [entries_alive (by exact halive)]
        refine List.mem_filter.mpr ⟨he, decide_eq_true ?_⟩
        rw [hr.entries e (by rwa [entries_alive halive])]
        exact hr.ne (hp.head hpc).1 hc hne
  | runs hrun hpc haux =>
      left
      exact h.of_entries (entries_withConn (frame_auxOp _ _ _)
        (quiet_auxOp hquiet _ _ (noClose_ctx _ _ _)))
  | userCalls hd =>
      left
      exact h.of_entries (entries_withConn ((hprim _).act _ (.refl _))
        (hquiet.act _ (noClose_ctx _ _ _)))
  | beginsDestroy halive hpc =>
      left
      refine h.of_entries ?_
      rw [entries_alive halive]
      rfl
  | @destroysHere e onDown left hphase he hloop =>
      have hentries : (withConn e.2 0 (Ctx.connectDestroy onDown)
          { s with phase := .destroying (left.erase e) }).entries = left.erase e :=
        entries_withConn ((hprim _).connectDestroy _ (.refl _))
          (hquiet.connectDestroy _ (noClose_ctx _ _ _))
      by_cases hother : ∃ e' ∈ left.erase e, e'.2 = c
      · left
        obtain ⟨e', he', hc'⟩ := hother
        refine ⟨e', ?_, hc'⟩
        rw [hentries]
        exact he'
      · push Not at hother
        right; right; right
        rw [← entries_destroying hphase] at hother
        obtain ⟨e', he', rfl⟩ := h
        have hee : e' = e := by
          by_contra hne
          exact hother e' ((List.mem_erase_of_ne hne).mpr he') rfl
        exact hee ▸ ⟨rfl, hee ▸ hloop, hee ▸ hother⟩
  | @destroysThere e onDown left hphase he hloop =>
      obtain ⟨e', he', rfl⟩ := h
      rw [entries_destroying hphase] at he'
      rcases eq_or_ne e' e with rfl | hne
      · right; left
        refine doomed_push (hc.loop_mem) fun hret => ?_
        have hended := hph.quit _ (hph.returned _ hret)
        rw [hphase] at hended
        cases hended
      · exact Or.inl ⟨e', (List.mem_erase_of_ne hne).mpr he', rfl⟩
  | destroysMembers hphase | quits hphase | joins hphase _ =>
      obtain ⟨e, he, -⟩ := h
      simp [ServerSys.entries, hphase] at he

end ServerSys

end Reactor
