import Reactor.StageInvariant

/-!
What a step of a server makes of one of its connections: nothing, or what one member function
makes of it. What the member functions keep, the server keeps.
-/

namespace Reactor

namespace ServerSys

variable {conf : ServerConf} {s s' : ServerSys} {c : ConnId} {a : ServerAct} {t : LoopId}
  {op : Ctx → Ctx}

/-! ### Inversion -/

/-- The step has the thread `t` run the member function `op` of the connection `c`. -/
inductive Member (c : ConnId) (s : ServerSys) : ServerAct → LoopId → (Ctx → Ctx) → Prop
  | handles {t : LoopId} {env : EventEnv} {active : List ActiveChannel}
      (hpc : (s.loops t).pc = .handling (.conn c :: active)) :
      Member c s (.handle t env) t (Ctx.handleEvent env)
  | establishes {t : LoopId} {env : FunctorEnv} {batch : List Functor}
      (hpc : (s.loops t).pc = .functors (.connectEstablished c :: batch)) :
      Member c s (.functor t env) t (Ctx.connectEstablished env.acts)
  | destroys {t : LoopId} {env : FunctorEnv} {batch : List Functor}
      (hpc : (s.loops t).pc = .functors (.connectDestroy c :: batch)) :
      Member c s (.functor t env) t (Ctx.connectDestroy env.acts)
  | runs {t : LoopId} {env : FunctorEnv} {f : Functor} {batch : List Functor}
      (hpc : (s.loops t).pc = .functors (f :: batch)) (hf : f.conn = c) (haux : f.isAux = true) :
      Member c s (.functor t env) t (auxOp env f)
  | acts {t : LoopId} {act : UserAct} : Member c s (.userCall t c act) t (Ctx.act act)
  | destroysHere {e : String × ConnId} {onDown : Script} (he : e.2 = c) :
      Member c s (.destroyNext e onDown) 0 (Ctx.connectDestroy onDown)

lemma Member.frame (h : Member c s a t op) (x : Ctx) : x.Frame (op x) := by
  have hprim := Ctx.primitive_frame x
  cases h with
  | handles => exact hprim.handleEvent _ (.refl _)
  | establishes => exact hprim.connectEstablished _ (.refl _)
  | destroys | destroysHere => exact hprim.connectDestroy _ (.refl _)
  | runs => exact frame_auxOp ..
  | acts => exact hprim.act _ (.refl _)

/-- A property kept by the primitive changes is kept by the step. -/
lemma Member.primitive {P : Ctx → Prop} {x : Ctx} (h : Member c s a t op) (hP : Ctx.Primitive P)
    (hx : P x) : P (op x) := by
  cases h with
  | handles => exact hP.handleEvent _ hx
  | establishes => exact hP.connectEstablished _ hx
  | destroys | destroysHere => exact hP.connectDestroy _ hx
  | runs => exact quiet_auxOp hP.toQuiet _ _ hx
  | acts => exact hP.act _ hx

/-- The connections, their histories and the pollers are the same. -/
structure SameConns (s s' : ServerSys) : Prop where
  nextConnId_ : s'.nextConnId_ = s.nextConnId_
  conn : s'.conn = s.conn
  trace : s'.trace = s.trace
  poller_ : ∀ t, (s'.loops t).poller_ = (s.loops t).poller_

lemma SameConns.refl (s : ServerSys) : s.SameConns s := ⟨rfl, rfl, rfl, fun _ => rfl⟩

lemma sameConns_setLoop {l : LoopThread} (h : l.poller_ = (s.loops t).poller_) :
    s.SameConns (s.setLoop t l) := by
  refine ⟨rfl, rfl, rfl, fun i => ?_⟩
  rw [setLoop_loops]
  split_ifs with hi
  · rw [hi, h]
  · rfl

lemma sameConns_setPc {pc : ThreadPc} : s.SameConns (s.setPc t pc) := sameConns_setLoop rfl

lemma SameConns.alike (h : s.SameConns s') (c : ConnId) (t : LoopId) :
    (s.view c).Alike (s'.ctx c t) := alike_ctx c t s' h.conn h.trace

lemma SameConns.made (h : s.SameConns s') : s'.Made c ↔ s.Made c := made_congr h.nextConnId_ c

variable (conf s) in
/-- What a step may do to the connections. -/
inductive Does (a : ServerAct) (s' : ServerSys) : Prop
  | rests (h : s.SameConns s')
  | polls {t : LoopId} {ready : List Ready} (ha : a = .poll t ready)
      (hpc : (s.loops t).pc = .poll) (hready : s.CanReport t ready)
      (hs : s' = s.fillActiveChannels t ready)
  | member {c : ConnId} {t : LoopId} {op : Ctx → Ctx} {r : ServerSys} (hr : s.SameConns r)
      (hop : s.Member c a t op) (hc : s.Made c) (hs : s' = r.withConn c t op)
  | accepts {sockfd : ℕ} {onUp : Script} {r : ServerSys} (hr : s.SameConns r)
      (hs : s' = newConnection conf sockfd onUp r)

/-- **Inversion, for the connections.** -/
theorem Trans.does (ht : Trans conf s a s') (hp : s.Placed) : s.Does conf a s' := by
  cases ht with
  | leaves | swaps => exact .rests (sameConns_setLoop rfl)
  | waits | acceptFails | endsBatch => exact .rests sameConns_setPc
  | polls hrun hpc hready => exact .polls rfl hpc hready rfl
  | accepts => exact .accepts sameConns_setPc rfl
  | handles hrun hpc => exact .member sameConns_setPc (.handles hpc) (hp.report hpc).1 rfl
  | establishes hrun hpc => exact .member sameConns_setPc (.establishes hpc) (hp.head hpc).1 rfl
  | destroys hrun hpc => exact .member sameConns_setPc (.destroys hpc) (hp.head hpc).1 rfl
  | @removes i env d batch hrun hpc =>
      refine .rests ⟨rfl, rfl, rfl, fun j => ?_⟩
      rw [removeConnectionInLoop, push_poller]
      exact setPc_poller i j _
  | runs hrun hpc haux => exact .member sameConns_setPc (.runs hpc rfl haux) (hp.head hpc).1 rfl
  | userCalls hc => exact .member (.refl s) .acts hc rfl
  | beginsDestroy | destroysMembers | joins => exact .rests ⟨rfl, rfl, rfl, fun _ => rfl⟩
  | @destroysHere e onDown left hphase he =>
      have hr : s.SameConns { s with phase := .destroying (left.erase e) } :=
        ⟨rfl, rfl, rfl, fun _ => rfl⟩
      refine .member hr (.destroysHere rfl) (hp.entries e ?_) rfl
      rw [entries_destroying hphase]
      exact he
  | destroysThere => exact .rests ⟨rfl, rfl, rfl, fun _ => push_poller ..⟩
  | @quits i =>
      refine .rests ⟨rfl, rfl, rfl, fun j => ?_⟩
      rw [setLoop_loops]
      split_ifs with hj
      · rw [hj]
      · rfl

/-! ### What the member functions keep -/

/-- A property of a connection and of the calls on it that the member functions keep. -/
structure Keeps (P : Ctx → Prop) : Prop extends Ctx.Closed P where
  alike : ∀ {x y : Ctx}, x.Alike y → P x → P y
  handleEvent : ∀ {x : Ctx} env, P x → P (x.handleEvent env)
  connectEstablished : ∀ {x : Ctx} onUp, x.Fresh → P x → P (x.connectEstablished onUp)
  connectDestroy : ∀ {x : Ctx} onDown, P x → P (x.connectDestroy onDown)

/-- What the primitive changes keep, if it is about the connection and the calls only. -/
lemma keeps_primitive {P : Ctx → Prop} (hP : Ctx.Primitive P)
    (halike : ∀ {x y : Ctx}, x.Alike y → P x → P y) : Keeps P where
  same hs h := halike (.of_eq (by rw [hs]) (by rw [hs]; rfl)) h
  input := hP.input
  sendInLoop data res h := hP.sendInLoop data res h
  disconnecting _ h := hP.setState _ (hP.log _ h)
  shutdownInLoop h := hP.shutdownInLoop h
  alike := halike
  handleEvent env h := hP.handleEvent env h
  connectEstablished onUp _ h := hP.connectEstablished onUp h
  connectDestroy onDown h := hP.connectDestroy onDown h

lemma Keeps.and {P Q : Ctx → Prop} (hP : Keeps P) (hQ : Keeps Q) : Keeps fun x => P x ∧ Q x where
  same hs h := ⟨hP.same hs h.1, hQ.same hs h.2⟩
  input b h := ⟨hP.input b h.1, hQ.input b h.2⟩
  sendInLoop data res h := ⟨hP.sendInLoop data res h.1, hQ.sendInLoop data res h.2⟩
  disconnecting hst h := ⟨hP.disconnecting hst h.1, hQ.disconnecting hst h.2⟩
  shutdownInLoop h := ⟨hP.shutdownInLoop h.1, hQ.shutdownInLoop h.2⟩
  alike hy h := ⟨hP.alike hy h.1, hQ.alike hy h.2⟩
  handleEvent env h := ⟨hP.handleEvent env h.1, hQ.handleEvent env h.2⟩
  connectEstablished onUp hf h :=
    ⟨hP.connectEstablished onUp hf h.1, hQ.connectEstablished onUp hf h.2⟩
  connectDestroy onDown h := ⟨hP.connectDestroy onDown h.1, hQ.connectDestroy onDown h.2⟩

/-- A connection that is about to be established is fresh. -/
lemma Inv.fresh (h : s.Inv conf) (hc : s.Made c) (hm : .connectEstablished c ∈ s.queue c t) :
    (s.view c).Fresh := by
  cases h.stage c hc with
  | fresh hx => exact hx
  | up hx ha => exact absurd hm (ha.not_mem t)
  | down htail hx hqueue => exact absurd hm (hqueue t)

section

variable {P : Ctx → Prop} (hP : Keeps P)
include hP

lemma Keeps.member (h : s.Inv conf) (hop : s.Member c a t op) (hc : s.Made c) {x : Ctx}
    (hx : (s.view c).Alike x) (hP' : P x) : P (op x) := by
  cases hop with
  | handles => exact hP.handleEvent _ hP'
  | establishes hpc =>
      exact hP.connectEstablished _ ((h.fresh hc (mem_queue_head hpc)).alike hx) hP'
  | destroys | destroysHere => exact hP.connectDestroy _ hP'
  | runs => exact closed_auxOp hP.toClosed _ _ hP'
  | acts => exact hP.act _ hP'

/-- **What the member functions keep, a step keeps.** -/
theorem Keeps.trans (h : s.Inv conf) (ht : Trans conf s a s') (hc : s.Made c)
    (hx : P (s.view c)) : P (s'.view c) := by
  cases ht.does h.placed with
  | rests hr => exact hP.alike (hr.alike c _) hx
  | @polls t ready _ _ _ hs =>
      subst hs
      have hsame : (s.view c).Alike ((s.fillActiveChannels t ready).view c) := by
        obtain ⟨conn, he, hr⟩ := fillActiveChannels_eq t ready s
        rw [he]
        exact ⟨hr c, rfl⟩
      exact hP.alike hsame hx
  | @member d t op r hr hop hd hs =>
      subst hs
      have hy := applied_withConn (hop.frame (r.ctx d t))
      rcases eq_or_ne c d with rfl | hne
      · exact hP.alike hy.alike (hP.member h hop hd (hr.alike c t) (hP.alike (hr.alike c t) hx))
      · have hsame : (s.view c).Alike ((r.withConn d t op).view c) := by
          refine .of_eq ((hy.conn_of_ne hne).trans (congrFun hr.conn c))
            (congrArg (List.map Prod.snd) ?_)
          exact (congrFun hy.trace c).trans
            ((Function.update_of_ne hne ..).trans (congrFun hr.trace c))
        exact hP.alike hsame hx
  | @accepts sockfd onUp r hr hs =>
      subst hs
      have hc' : r.Made c := hr.made.mpr hc
      have hadd : (s.view c).Alike ((addConnection conf sockfd r).view c) := by
        have htrace : (addConnection conf sockfd r).trace c = s.trace c :=
          (addConnection_trace hc' sockfd).trans (congrFun hr.trace c)
        exact .of_eq ((addConnection_conn hc' sockfd).trans (congrFun hr.conn c))
          (congrArg (List.map Prod.snd) htrace)
      have hne : c ≠ r.nextConnId_ := Nat.ne_of_lt hc'.2
      have hnew : ((addConnection conf sockfd r).view c).Alike
          ((newConnection conf sockfd onUp r).view c) := by
        unfold newConnection
        simp only
        split_ifs
        · have hy := applied_withConn ((Ctx.primitive_frame
            ((addConnection conf sockfd r).ctx r.nextConnId_ 0)).connectEstablished onUp (.refl _))
          exact .of_eq (hy.conn_of_ne hne) (congrArg (List.map Prod.snd)
            ((congrFun hy.trace c).trans (Function.update_of_ne hne ..)))
        · exact .of_eq rfl rfl
      exact hP.alike hnew (hP.alike hadd hx)

/-- What holds of every new connection holds of all. -/
theorem Keeps.all_trans (hnew : ∀ (sockfd : ℕ) (t : LoopId) (r : ServerSys),
    P ((addConnection conf sockfd r).ctx r.nextConnId_ t)) (h : s.Inv conf)
    (ht : Trans conf s a s') (hall : ∀ c, s.Made c → P (s.view c)) (c : ConnId)
    (hc' : s'.Made c) : P (s'.view c) := by
  by_cases hc : s.Made c
  · exact hP.trans h ht hc (hall c hc)
  have hno : s'.nextConnId_ ≠ s.nextConnId_ := fun he => hc ((made_congr he c).mp hc')
  cases ht.does h.placed with
  | rests hr => exact absurd hr.nextConnId_ hno
  | @polls t ready _ _ _ hs =>
      obtain ⟨conn, he, -⟩ := fillActiveChannels_eq t ready s
      rw [hs, he] at hno
      exact absurd rfl hno
  | @member d t op r hr hop hd hs =>
      rw [hs, (applied_withConn (hop.frame _)).nextConnId_] at hno
      exact absurd hr.nextConnId_ hno
  | @accepts sockfd onUp r hr hs =>
      subst hs
      have hadd : (addConnection conf sockfd r).Made c :=
        (made_congr (sameTable_newConnection sockfd onUp).next c).mp hc'
      obtain rfl := (made_addConnection hadd).resolve_left fun h => hc (hr.made.mp h)
      unfold newConnection
      simp only
      split_ifs
      · have hf := (Ctx.primitive_frame
          ((addConnection conf sockfd r).ctx r.nextConnId_ 0)).connectEstablished onUp (.refl _)
        exact hP.alike (applied_withConn hf).alike
          (hP.connectEstablished onUp (fresh_addConnection sockfd 0 r) (hnew sockfd 0 r))
      · have hpush : ((addConnection conf sockfd r).ctx r.nextConnId_ 0).Alike
            ((push (getNextLoop conf r.next_).1 (.connectEstablished r.nextConnId_)
              (addConnection conf sockfd r)).view r.nextConnId_) := .of_eq rfl rfl
        exact hP.alike hpush (hnew sockfd 0 r)

end

end ServerSys

end Reactor
