import Reactor.Placement
import Reactor.Lib.Rotation

/-!
How `getNextLoop` shares the connections out among the loops of the pool.
-/

namespace Reactor

open Lib.Trace Lib.Rotation

namespace ServerSys

variable {conf : ServerConf} {s s' : ServerSys}

/-! ### What a step does to the counters -/

/-- What a step does that makes no connection. -/
structure Settled (s s' : ServerSys) : Prop where
  next_ : s'.next_ = s.next_
  nextConnId_ : s'.nextConnId_ = s.nextConnId_
  loop_ : ∀ c, (s'.conn c).loop_ = (s.conn c).loop_

lemma Settled.refl (s : ServerSys) : s.Settled s := ⟨rfl, rfl, fun _ => rfl⟩

lemma Settled.withConn {s₀ : ServerSys} {c : ConnId} {t : LoopId} {op : Ctx → Ctx}
    (h : s.Settled s₀) (hf : (s₀.ctx c t).Frame (op (s₀.ctx c t))) :
    s.Settled (s₀.withConn c t op) where
  next_ := (applied_withConn hf).next_.trans h.next_
  nextConnId_ := (applied_withConn hf).nextConnId_.trans h.nextConnId_
  loop_ d := by
    rw [(applied_withConn hf).conn, ← h.loop_]
    rcases eq_or_ne d c with rfl | hd
    · rw [Function.update_self]
      exact hf.loop_
    · rw [Function.update_of_ne hd]

/-- **Only `newConnection` moves the counters.** -/
theorem Trans.settled {a : ServerAct} (ht : Trans conf s a s') :
    s.Settled s' ∨ ∃ sockfd onUp active, a = .accept sockfd onUp ∧
      (s.loops 0).pc = .handling (.acceptor :: active) ∧
      s' = newConnection conf sockfd onUp (s.setPc 0 (.handling active)) := by
  have hprim := fun x => Ctx.primitive_frame x
  cases ht with
  | accepts hpc => exact Or.inr ⟨_, _, _, rfl, hpc, rfl⟩
  | @polls t ready =>
      obtain ⟨conn, he, hr⟩ := fillActiveChannels_eq t ready s
      rw [he]
      refine Or.inl ⟨rfl, rfl, fun c => ?_⟩
      obtain ⟨r, hr⟩ := hr c
      change (conn c).loop_ = _
      rw [hr]
      rfl
  | @handles t env c active =>
      have hs : s.Settled (s.setPc t (.handling active)) := ⟨rfl, rfl, fun _ => rfl⟩
      exact Or.inl (hs.withConn ((hprim _).handleEvent env (.refl _)))
  | @establishes t env c batch =>
      have hs : s.Settled (s.setPc t (.functors batch)) := ⟨rfl, rfl, fun _ => rfl⟩
      exact Or.inl (hs.withConn ((hprim _).connectEstablished env.acts (.refl _)))
  | @destroys t env c batch =>
      have hs : s.Settled (s.setPc t (.functors batch)) := ⟨rfl, rfl, fun _ => rfl⟩
      exact Or.inl (hs.withConn ((hprim _).connectDestroy env.acts (.refl _)))
  | @runs t env f batch =>
      have hs : s.Settled (s.setPc t (.functors batch)) := ⟨rfl, rfl, fun _ => rfl⟩
      exact Or.inl (hs.withConn (frame_auxOp env f _))
  | @userCalls t c act =>
      exact Or.inl ((Settled.refl s).withConn ((hprim _).act act (.refl _)))
  | @destroysHere e onDown left =>
      have hs : s.Settled { s with phase := .destroying (left.erase e) } :=
        ⟨rfl, rfl, fun _ => rfl⟩
      exact Or.inl (hs.withConn ((hprim _).connectDestroy onDown (.refl _)))
  | _ => exact Or.inl ⟨rfl, rfl, fun _ => rfl⟩

variable (conf) in
/-- What `newConnection` counts, and where it puts the connection. -/
lemma newConnection_settled (sockfd : ℕ) (onUp : Script) (s : ServerSys) :
    (newConnection conf sockfd onUp s).next_ = (getNextLoop conf s.next_).2 ∧
      (newConnection conf sockfd onUp s).nextConnId_ = s.nextConnId_ + 1 ∧
      ((newConnection conf sockfd onUp s).conn s.nextConnId_).loop_ =
        (getNextLoop conf s.next_).1 ∧
      ∀ c ≠ s.nextConnId_, ((newConnection conf sockfd onUp s).conn c).loop_ =
        (s.conn c).loop_ := by
  have hadd : (addConnection conf sockfd s).Settled (newConnection conf sockfd onUp s) := by
    unfold newConnection
    simp only
    split_ifs
    · exact (Settled.refl _).withConn ((Ctx.primitive_frame _).connectEstablished onUp (.refl _))
    · exact ⟨rfl, rfl, fun _ => rfl⟩
  refine ⟨hadd.next_, hadd.nextConnId_, ?_, fun c hc => ?_⟩
  · rw [hadd.loop_, addConnection_conn_new]
    rfl
  · rw [hadd.loop_]
    exact congrArg TcpConnection.loop_ (Function.update_of_ne hc ..)

/-! ### Taking turns -/

/-- The loop of the `c`-th connection. -/
def turn (conf : ServerConf) (c : ConnId) : LoopId :=
  if conf.numThreads_ = 0 then 0 else (c - 1) % conf.numThreads_ + 1

/-- How many connections the loop `i` has been given. -/
def load (i : LoopId) (s : ServerSys) : ℕ :=
  (s.nextConnId_ - 1).count fun k => (s.conn (k + 1)).loop_ = i

/-- **The loops take turns.** -/
structure TakesTurns (conf : ServerConf) (s : ServerSys) : Prop where
  first : 1 ≤ s.nextConnId_
  next_ : conf.numThreads_ ≠ 0 → s.next_ = (s.nextConnId_ - 1) % conf.numThreads_
  turns : ∀ c, s.Made c → (s.conn c).loop_ = turn conf c

lemma takesTurns_new : new.TakesTurns conf where
  first := le_refl 1
  next_ _ := (Nat.zero_mod _).symm
  turns _ hc := absurd (Nat.lt_of_le_of_lt hc.1 hc.2) (Nat.lt_irrefl 1)

lemma TakesTurns.settled (h : s.TakesTurns conf) (hs : s.Settled s') : s'.TakesTurns conf where
  first := hs.nextConnId_ ▸ h.first
  next_ hn := by
    rw [hs.next_, hs.nextConnId_]
    exact h.next_ hn
  turns c hc := by
    rw [hs.loop_]
    exact h.turns c ((made_congr hs.nextConnId_ c).mp hc)

lemma TakesTurns.newConnection (h : s.TakesTurns conf) (sockfd : ℕ) (onUp : Script) :
    (newConnection conf sockfd onUp s).TakesTurns conf := by
  obtain ⟨hnext, hid, hnew, hold⟩ := newConnection_settled conf sockfd onUp s
  have hfirst := h.first
  refine ⟨hid ▸ Nat.le_add_left .., fun hn => ?_, fun c hc => ?_⟩
  · rw [hnext, hid, getNextLoop, if_neg hn, h.next_ hn, wrap_eq (Nat.pos_of_ne_zero hn)]
    have hsucc : s.nextConnId_ - 1 + 1 = s.nextConnId_ + 1 - 1 := by omega
    rw [hsucc]
  · rcases eq_or_ne c s.nextConnId_ with rfl | hne
    · rw [hnew, turn, getNextLoop]
      by_cases hn : conf.numThreads_ = 0
      · rw [if_pos hn, if_pos hn]
      · rw [if_neg hn, if_neg hn, h.next_ hn]
    · rw [hold c hne]
      have hlt := hc.2
      rw [hid] at hlt
      exact h.turns c ⟨hc.1, Nat.lt_of_le_of_ne (Nat.lt_succ_iff.mp hlt) hne⟩

lemma TakesTurns.trans {a : ServerAct} (h : s.TakesTurns conf) (ht : Trans conf s a s') :
    s'.TakesTurns conf := by
  rcases ht.settled with hs | ⟨sockfd, onUp, active, -, -, rfl⟩
  · exact h.settled hs
  · have hpc : (s.setPc 0 (.handling active)).TakesTurns conf := ⟨h.first, h.next_, h.turns⟩
    exact hpc.newConnection sockfd onUp

/-- What a loop of the pool has been given is its share. -/
lemma TakesTurns.load_eq (h : s.TakesTurns conf) (hn : conf.numThreads_ ≠ 0) (i : LoopId) :
    s.load (i + 1) = share conf.numThreads_ (s.nextConnId_ - 1) i := by
  have hcount : ∀ m ≤ s.nextConnId_ - 1, (m.count fun k => (s.conn (k + 1)).loop_ = i + 1) =
      m.count fun k => k % conf.numThreads_ = i := by
    intro m hm
    induction m with
    | zero => simp
    | succ m ih =>
        have hlt : m + 1 < s.nextConnId_ := by omega
        have hturn := h.turns (m + 1) ⟨Nat.le_add_left .., hlt⟩
        rw [turn, if_neg hn, Nat.add_sub_cancel] at hturn
        simp only [Nat.count_succ, ih (by omega), hturn, Nat.add_right_cancel_iff]
  exact hcount _ le_rfl

end ServerSys

end Reactor
