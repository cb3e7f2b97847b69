import Reactor.Placement

/-!
Which thread works on a connection: the channel, the poller and the event handlers of a
connection belong to the thread of its loop.

Functors and events of a connection reach its own loop only, but for one: `connectDestroy`
is queued on the base loop by `removeConnectionInLoop`, whatever the loop of the connection.
-/

namespace Reactor

open Lib.Trace

/-- The calls that belong to the thread of the connection's loop. -/
def Call.inLoop : Call → Bool
  | .updateChannel => true
  | .removeChannel => true
  | .connectEstablished => true
  | .connectDestroy => true
  | .handleRead => true
  | .handleWrite => true
  | .handleClose => true
  | _ => false

namespace ServerSys

variable {conf : ServerConf} {s s' : ServerSys}

/-- **Every such call was made by the thread of the connection's own loop.** -/
def Affine (s : ServerSys) : Prop :=
  ∀ c, ∀ e ∈ s.trace c, e.2.inLoop = true → e.1 = (s.conn c).loop_

/-- No `connectDestroy` is run but by the loop of its connection. -/
def DestroysAtHome (s : ServerSys) (a : ServerAct) : Prop :=
  ∀ t env c batch, a = .functor t env →
    (s.loops t).pc = .functors (.connectDestroy c :: batch) → t = (s.conn c).loop_

/-! ### Calls -/

/-- A member function run by the thread of the connection's loop is in its place. -/
lemma Affine.applied {c : ConnId} {t : LoopId} {y : Ctx} (h : s.Affine)
    (ht : t = (s.conn c).loop_) (hf : (s.ctx c t).Frame y) (hy : Applied c t y s s') :
    s'.Affine := by
  intro d e he hin
  rw [hy.trace] at he
  rw [hy.conn]
  rcases eq_or_ne d c with rfl | hd
  · rw [Function.update_self] at he ⊢
    have hloop : y.conn.loop_ = (s.conn d).loop_ := hf.loop_
    obtain ⟨l, hl, htid⟩ := hf.trace
    rw [hloop]
    rw [hl] at he
    rcases List.mem_append.mp he with he | he
    · exact h d e he hin
    · exact (htid e he).trans ht
  · rw [Function.update_of_ne hd] at he ⊢
    exact h d e he hin

lemma Affine.withConn {c : ConnId} {t : LoopId} {op : Ctx → Ctx} (h : s.Affine)
    (ht : t = (s.conn c).loop_) (hf : (s.ctx c t).Frame (op (s.ctx c t))) :
    (s.withConn c t op).Affine :=
  h.applied ht hf (applied_withConn hf)

lemma runInloop_elsewhere {x : Ctx} (hx : x.isInLoopThread = false) (f : Functor)
    (run : Ctx → Ctx) : x.runInloop f run = x.queueInloop f := by
  rw [Ctx.runInloop, if_neg (by rw [hx]; decide)]

/-- In another thread `send` and `shutdown` only queue. -/
lemma trace_act_elsewhere {x : Ctx} (a : UserAct) (hx : x.isInLoopThread = false) :
    ∀ e ∈ (x.act a).trace, e ∈ x.trace ∨ e.2.inLoop = false := by
  intro e he
  cases a with
  | send data res =>
      rw [Ctx.act, Ctx.send, runInloop_elsewhere hx] at he
      split_ifs at he
      · exact Or.inl he
      · exact Or.inl he
  | shutdown =>
      rw [Ctx.act, Ctx.shutdown, runInloop_elsewhere (by exact hx)] at he
      split_ifs at he
      · rcases List.mem_append.mp he with he | he
        · exact Or.inl he
        · rw [List.mem_singleton.mp he]
          exact Or.inr rfl
      · exact Or.inl he
  | retrieve len => exact Or.inl he

lemma Affine.userCall {c : ConnId} {t : LoopId} (a : UserAct) (h : s.Affine) :
    (s.withConn c t (Ctx.act a)).Affine := by
  have hf := (Ctx.primitive_frame (s.ctx c t)).act a (.refl _)
  by_cases ht : t = (s.conn c).loop_
  · exact h.withConn ht hf
  · have hx : (s.ctx c t).isInLoopThread = false := decide_eq_false fun he => ht he.symm
    have hy := applied_withConn hf
    intro d e he hin
    rw [hy.trace] at he
    rw [hy.conn]
    rcases eq_or_ne d c with rfl | hd
    · rw [Function.update_self] at he ⊢
      have hloop : ((s.ctx d t).act a).conn.loop_ = (s.conn d).loop_ := hf.loop_
      rw [hloop]
      rcases trace_act_elsewhere a hx e he with he | he
      · exact h d e he hin
      · rw [he] at hin
        cases hin
    · rw [Function.update_of_ne hd] at he ⊢
      exact h d e he hin

lemma Affine.of_eq (h : s.Affine) (htrace : s'.trace = s.trace)
    (hloop : ∀ c, (s'.conn c).loop_ = (s.conn c).loop_) : s'.Affine := by
  intro c e he hin
  rw [htrace] at he
  rw [hloop]
  exact h c e he hin

lemma Affine.addConnection (h : s.Affine) (sockfd : ℕ) :
    (addConnection conf sockfd s).Affine := by
  intro c e he hin
  rcases eq_or_ne c s.nextConnId_ with rfl | hc
  · have hnil : (ServerSys.addConnection conf sockfd s).trace s.nextConnId_ = [] :=
      Function.update_self ..
    rw [hnil] at he
    cases he
  · have htrace : (ServerSys.addConnection conf sockfd s).trace c = s.trace c :=
      Function.update_of_ne hc ..
    have hconn : (ServerSys.addConnection conf sockfd s).conn c = s.conn c :=
      Function.update_of_ne hc ..
    rw [htrace] at he
    rw [hconn]
    exact h c e he hin

lemma Affine.newConnection (h : s.Affine) (sockfd : ℕ) (onUp : Script) :
    (newConnection conf sockfd onUp s).Affine := by
  have h' : (ServerSys.addConnection conf sockfd s).Affine := h.addConnection sockfd
  unfold ServerSys.newConnection
  simp only
  split_ifs with hloop
  · refine h'.withConn ?_ ((Ctx.primitive_frame _).connectEstablished onUp (.refl _))
    rw [addConnection_conn_new]
    exact hloop.symm
  · exact h'.of_eq rfl fun _ => rfl

/-- A step keeps the calls in their place, if it does not run `connectDestroy` away from
home. -/
lemma Affine.trans {a : ServerAct} (h : s.Affine) (hp : s.Placed) (ha : s.DestroysAtHome a)
    (ht : Trans conf s a s') : s'.Affine := by
  cases ht with
  | leaves hrun hpc hquit => exact h.of_eq rfl fun _ => rfl
  | waits hrun hpc hquit => exact h.of_eq rfl fun _ => rfl
  | @polls t ready hrun hpc hready =>
      obtain ⟨conn, he, hr⟩ := fillActiveChannels_eq t ready s
      rw [he]
      refine h.of_eq rfl fun c => ?_
      obtain ⟨r, hr⟩ := hr c
      change (conn c).loop_ = (s.conn c).loop_
      rw [hr]
      rfl
  | @accepts sockfd onUp active hpc halive hfd hid =>
      have h' : (s.setPc 0 (.handling active)).Affine := h.of_eq rfl fun _ => rfl
      exact h'.newConnection sockfd onUp
  | acceptFails hrun hpc => exact h.of_eq rfl fun _ => rfl
  | @handles t env c active hrun hpc =>
      exact Affine.withConn (h.of_eq rfl fun _ => rfl) (hp.report hpc).2.symm
        ((Ctx.primitive_frame _).handleEvent env (.refl _))
  | swaps hrun hpc => exact h.of_eq rfl fun _ => rfl
  | @establishes t env c batch hrun hpc =>
      exact Affine.withConn (h.of_eq rfl fun _ => rfl) (hp.head hpc).2
        ((Ctx.primitive_frame _).connectEstablished _ (.refl _))
  | @destroys t env c batch hrun hpc =>
      exact Affine.withConn (h.of_eq rfl fun _ => rfl) (ha t env c batch rfl hpc)
        ((Ctx.primitive_frame _).connectDestroy _ (.refl _))
  | removes hrun hpc halive => exact h.of_eq rfl fun _ => rfl
  | @runs t env f batch hrun hpc haux =>
      have hat : t = (s.conn f.conn).loop_ := by
        have hat := (hp.head hpc).2
        cases f <;> first | exact hat | cases haux
      exact Affine.withConn (h.of_eq rfl fun _ => rfl) hat (frame_auxOp _ _ _)
  | endsBatch hrun hpc => exact h.of_eq rfl fun _ => rfl
  | userCalls hc => exact h.userCall _
  | beginsDestroy halive hpc => exact h.of_eq rfl fun _ => rfl
  | destroysHere hphase he hloop =>
      exact Affine.withConn (h.of_eq rfl fun _ => rfl) hloop.symm
        ((Ctx.primitive_frame _).connectDestroy _ (.refl _))
  | destroysThere hphase he hloop => exact h.of_eq rfl fun _ => rfl
  | destroysMembers hphase => exact h.of_eq rfl fun _ => rfl
  | quits hphase => exact h.of_eq rfl fun _ => rfl
  | joins hphase hpc => exact h.of_eq rfl fun _ => rfl

/-- A `connectDestroy` run away from home is out of place. -/
lemma not_affine {a : ServerAct} (ha : ¬ s.DestroysAtHome a) (ht : Trans conf s a s') :
    ¬ s'.Affine := by
  simp only [DestroysAtHome, not_forall] at ha
  obtain ⟨t, env, c, batch, rfl, hpc, hne⟩ := ha
  cases ht with
  | @destroys _ _ c' batch' hrun hpc' =>
      cases hpc.symm.trans hpc'
      intro h
      have hf := (Ctx.primitive_frame ((s.setPc t (.functors batch)).ctx c t)).connectDestroy
        env.acts (.refl _)
      have hy := applied_withConn hf
      have hmem : (t, .connectDestroy) ∈
          (((s.setPc t (.functors batch)).ctx c t).connectDestroy env.acts).trace :=
        (Ctx.primitive_mem _).connectDestroy_of_log _
          (List.mem_append_right _ (List.mem_singleton.mpr rfl))
      have hbad := h c (t, .connectDestroy) (by rw [hy.trace, Function.update_self]; exact hmem) rfl
      rw [hy.conn, Function.update_self] at hbad
      exact hne (hbad.trans hf.loop_)
  | establishes hrun hpc' => cases hpc.symm.trans hpc'
  | removes hrun hpc' halive => cases hpc.symm.trans hpc'
  | runs hrun hpc' haux =>
      cases hpc.symm.trans hpc'
      cases haux

/-- **When every call is in its place.** In every run of a server and its loops, whatever their
number, the calls that belong to a connection's loop are made by the thread of that loop
exactly when `connectDestroy` is never run by another. -/
theorem thread_affinity (conf : ServerConf) {tr : List (ServerAct × ServerSys)}
    (h : Chain (Step conf) new tr) :
    Always Affine new tr ↔ Chain (fun s a _ => s.DestroysAtHome a) new tr := by
  have h0 : new.Affine ∧ new.Placed := ⟨fun _ e he => absurd he (List.not_mem_nil), placed_new⟩
  refine always_iff_of_inv (fun s (hs : s.Affine ∧ s.Placed) => hs.1) ?_ ?_ h0 h
  · rintro s a s' ⟨hs, hp⟩ hstep ha
    exact ⟨hs.trans hp ha hstep.trans, hp.trans hstep.trans⟩
  · rintro s a s' - hstep ha
    exact not_affine ha hstep.trans

/-- A client is accepted by the base loop and its connection established by the sub-loop. -/
def acceptOne : List ServerAct :=
  [.check 0, .poll 0 [.acceptor], .accept 5 [], .swap 0, .endBatch 0, .check 1, .poll 1 [], .swap 1,
    .functor 1 ⟨[], [], .ok 0⟩, .endBatch 1]

/-- The client closes; the sub-loop tells the base loop, which queues `connectDestroy` for
itself and runs it. -/
def closeOne : List ServerAct :=
  [.check 1, .poll 1 [.fd 5 EPOLLIN], .handle 1 ⟨[], .ok [], [], [], .ok 0⟩, .check 0, .poll 0 [],
    .swap 0, .functor 0 ⟨[], [], .ok 0⟩, .endBatch 0, .check 0, .poll 0 [], .swap 0,
    .functor 0 ⟨[], [], .ok 0⟩]

theorem thread_affinity_accepted :
    (walk (step (.echo 1)) new acceptOne).length = 10 ∧
      (Always Affine new (walk (step (.echo 1)) new acceptOne) ↔
        Chain (fun s a _ => s.DestroysAtHome a) new (walk (step (.echo 1)) new acceptOne)) :=
  ⟨by decide +kernel, thread_affinity (.echo 1) (chain_walk _ _ _)⟩

/-- The base loop's thread destroys a connection of the sub-loop. -/
theorem thread_affinity_lost :
    let tr := walk (step (.echo 1)) new (acceptOne ++ closeOne)
    Chain (Step (.echo 1)) new tr ∧ ¬ Always Affine new tr := by
  refine ⟨chain_walk _ _ _, fun h => ?_⟩
  have hlast := h.2 _ (List.getLast_mem (by decide +kernel))
  have hbad := hlast 1 (0, .connectDestroy) (by decide +kernel) rfl
  revert hbad
  decide +kernel

end ServerSys

end Reactor
