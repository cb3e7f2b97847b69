import Reactor.TcpConnection
import Reactor.Lib.Trace

/-!
The atomic `state_` of a connection, with every load and every store a step of its own.

`shutdown` tests `state_` and then stores it. Between the two the loop's thread may run
`handleClose`, and the store then takes a connection that is down back to `kDisconnectiong`.
Nothing else moves `state_` backwards.
-/

namespace Reactor

open Lib.Trace

/-- How far a connection has come. -/
def StateE.rank : StateE → ℕ
  | .kConnecting => 0
  | .kConnected => 1
  | .kDisconnectiong => 2
  | .kDisconnected => 3

/-- Where the loop's thread is in a member function that loads `state_` and then stores
it. -/
inductive OwnPc
  /-- `connectEstablished` comes first -/
  | created
  | idle
  /-- in `connectDestroy`, having found `kConnected` -/
  | destroying
  /-- in `shutdown`, having found `kConnected` -/
  | shutting
  deriving DecidableEq

/-- `state_`, the loop's thread, and which of the other threads are in `shutdown`, having
found `kConnected`. -/
structure StateSys where
  state_ : StateE
  own : OwnPc
  others : ℕ → Bool

/-- A load or a store. The last three are made by the other thread `i`, the rest by the
loop's thread. -/
inductive StateAct
  | connectEstablished
  | handleClose
  | connectDestroyTest
  | connectDestroyStore
  | sendInLoopTest
  | handleWriteTest
  | sendTest
  | shutdownTest
  | shutdownStore
  | otherSendTest (i : ℕ)
  | otherShutdownTest (i : ℕ)
  | otherShutdownStore (i : ℕ)

namespace StateSys

def new : StateSys where
  state_ := .kConnecting
  own := .created
  others := fun _ => false

/-- One load or store. A load that decides nothing about a later store changes nothing. -/
def step (s : StateSys) (a : StateAct) : Option StateSys :=
  match a, s.own with
  | .connectEstablished, .created => some { s with state_ := .kConnected, own := .idle }
  | .handleClose, .idle => some { s with state_ := .kDisconnected, own := .idle }
  | .connectDestroyTest, .idle =>
      some { s with own := if s.state_ = .kConnected then .destroying else .idle }
  | .connectDestroyStore, .destroying => some { s with state_ := .kDisconnected, own := .idle }
  | .sendInLoopTest, .idle => some s
  | .handleWriteTest, .idle => some s
  | .sendTest, .idle => some s
  | .shutdownTest, .idle =>
      some { s with own := if s.state_ = .kConnected then .shutting else .idle }
  | .shutdownStore, .shutting => some { s with state_ := .kDisconnectiong, own := .idle }
  | .otherSendTest i, _ => if s.others i then none else some s
  | .otherShutdownTest i, _ =>
      if s.others i then none
      else some { s with others := Function.update s.others i (s.state_ = .kConnected) }
  | .otherShutdownStore i, _ =>
      if s.others i then
        some { s with
          state_ := .kDisconnectiong
          others := Function.update s.others i false }
      else none
  | _, _ => none

def Step (s : StateSys) (a : StateAct) (t : StateSys) : Prop := s.step a = some t

/-! ### Member functions that nothing interrupts -/

/-- What a list of steps, made one after the other, leaves in `state_`. -/
def runState (s : StateSys) (as : List StateAct) : StateE :=
  ((walk step s as).getLast?.map fun e => e.2.state_).getD s.state_

lemma runState_connectEstablished {s : StateSys} (h : s.own = .created) (x : Ctx) :
    s.runState [.connectEstablished] = (x.connectEstablished []).conn.state_ := by
  simp [runState, walk, step, h]
  rfl

lemma runState_handleClose {s : StateSys} (h : s.own = .idle) (x : Ctx) :
    s.runState [.handleClose] = (x.handleClose []).conn.state_ := by
  simp [runState, walk, step, h]
  rfl

lemma runState_connectDestroy {s : StateSys} {x : Ctx} (h : s.own = .idle)
    (hx : s.state_ = x.conn.state_) :
    s.runState [.connectDestroyTest, .connectDestroyStore] =
      (x.connectDestroy []).conn.state_ := by
  have hlog : (x.log .connectDestroy).conn.state_ = x.conn.state_ := rfl
  unfold Ctx.connectDestroy
  simp only [hlog]
  by_cases hst : x.conn.state_ = .kConnected
  · simp [runState, walk, step, h, hx, hst]
    rfl
  · simp [runState, walk, step, h, hx, hst]
    rfl

lemma runState_shutdown {s : StateSys} {x : Ctx} {i : ℕ} (h : s.others i = false)
    (hx : s.state_ = x.conn.state_) :
    s.runState [.otherShutdownTest i, .otherShutdownStore i] = x.shutdown.conn.state_ := by
  unfold Ctx.shutdown Ctx.runInloop Ctx.shutdownInLoop
  by_cases hst : x.conn.state_ = .kConnected
  · simp only [hst, if_true]
    split_ifs <;> simp [runState, walk, step, h, hx, hst] <;> rfl
  · simp [runState, walk, step, h, hx, hst]

/-- The step does not move `state_` backwards. -/
def Forward (s t : StateSys) : Prop := s.state_.rank ≤ t.state_.rank

instance (s t : StateSys) : Decidable (s.Forward t) := inferInstanceAs (Decidable (_ ≤ _))

/-- The step is not the store of another thread's `shutdown` on a connection that is down
already. -/
def InTime (s : StateSys) (a : StateAct) : Prop :=
  ∀ i, a = .otherShutdownStore i → s.state_ ≠ .kDisconnected

/-- What the places of the threads say about `state_`, up to the first late store. -/
structure Inv (s : StateSys) : Prop where
  created : s.own = .created ↔ s.state_ = .kConnecting
  tested : ∀ i, s.others i = true → s.state_ ≠ .kConnecting
  storing : s.own = .destroying ∨ s.own = .shutting → s.state_ ≠ .kDisconnected

lemma inv_new : new.Inv where
  created := by decide
  tested := nofun
  storing := by decide

/-- A store by the loop's thread, once the connection is established. -/
lemma inv_store {s : StateSys} {st : StateE} (hne : st ≠ .kConnecting)
    (hrank : s.state_.rank ≤ st.rank) :
    Inv { s with state_ := st, own := .idle } ∧
      s.Forward { s with state_ := st, own := .idle } :=
  ⟨⟨by simp [hne], fun _ _ => hne, by simp⟩, hrank⟩

/-- A test by the loop's thread: it goes on to store only if it finds `kConnected`. -/
lemma Inv.test {s : StateSys} (pc : OwnPc) (hpc : pc ≠ .created) (h : s.Inv)
    (hown : s.own = .idle) :
    Inv { s with own := if s.state_ = .kConnected then pc else .idle } := by
  have hne : s.state_ ≠ .kConnecting := by
    intro hst
    rw [h.created.mpr hst] at hown
    cases hown
  refine ⟨?_, h.tested, ?_⟩
  · split_ifs <;> simp [hpc, hne]
  · dsimp only
    split_ifs with hst
    · simp [hst]
    · simp

lemma rank_le_kDisconnected (st : StateE) : st.rank ≤ StateE.kDisconnected.rank := by
  cases st <;> decide

lemma rank_le_kDisconnectiong {st : StateE} (h : st ≠ .kDisconnected) :
    st.rank ≤ StateE.kDisconnectiong.rank := by
  cases st
  · exact absurd rfl h
  all_goals decide

/-- **The step lemma.** A step in time keeps the invariant and goes forward. -/
lemma Inv.step {s t : StateSys} {a : StateAct} (h : s.Inv) (hstep : s.Step a t)
    (ha : s.InTime a) : t.Inv ∧ s.Forward t := by
  unfold Step StateSys.step at hstep
  split at hstep
  case h_1 hown =>
    -- `connectEstablished`
    obtain rfl := Option.some.inj hstep
    have hst := h.created.mp hown
    exact inv_store (by decide) (hst ▸ by decide)
  case h_2 hown =>
    -- `handleClose`
    obtain rfl := Option.some.inj hstep
    exact inv_store (by decide) (rank_le_kDisconnected _)
  case h_3 hown =>
    -- `connectDestroy`, the test
    obtain rfl := Option.some.inj hstep
    exact ⟨h.test _ (by decide) hown, le_rfl⟩
  case h_4 hown =>
    obtain rfl := Option.some.inj hstep
    exact inv_store (by decide) (rank_le_kDisconnected _)
  case h_8 hown =>
    -- `shutdown` in the loop's thread, the test
    obtain rfl := Option.some.inj hstep
    exact ⟨h.test _ (by decide) hown, le_rfl⟩
  case h_9 hown =>
    -- only the loop's thread stores `kDisconnected`, and it is here
    obtain rfl := Option.some.inj hstep
    exact inv_store (by decide) (rank_le_kDisconnectiong (h.storing (Or.inr hown)))
  case h_10 i =>
    simp only [Option.ite_none_left_eq_some, Option.some.injEq] at hstep
    obtain ⟨-, rfl⟩ := hstep
    exact ⟨h, le_rfl⟩
  case h_11 i =>
    -- `shutdown` in another thread, the test
    simp only [Option.ite_none_left_eq_some, Option.some.injEq] at hstep
    obtain ⟨-, rfl⟩ := hstep
    refine ⟨⟨h.created, fun j hj => ?_, h.storing⟩, le_rfl⟩
    rcases eq_or_ne j i with rfl | hji
    · have hst : s.state_ = .kConnected := by simpa using hj
      simp [hst]
    · exact h.tested j (by simpa [hji] using hj)
  case h_12 i =>
    -- `shutdown` in another thread, the store
    simp only [Option.ite_none_right_eq_some, Option.some.injEq] at hstep
    obtain ⟨hi, rfl⟩ := hstep
    have hown : s.own ≠ .created := fun hc => h.tested i hi (h.created.mp hc)
    exact ⟨⟨by simp [hown], fun _ _ => by simp, fun _ => by simp⟩,
      rank_le_kDisconnectiong (ha i rfl)⟩
  case h_13 => cases hstep
  all_goals
    -- the other tests
    obtain rfl := Option.some.inj hstep
    exact ⟨h, le_rfl⟩

/-- A late store goes backwards. -/
lemma not_forward {s t : StateSys} {a : StateAct} (hstep : s.Step a t) (ha : ¬ s.InTime a) :
    ¬ s.Forward t := by
  simp only [InTime, not_forall, not_not] at ha
  obtain ⟨i, rfl, hst⟩ := ha
  simp only [Step, StateSys.step, Option.ite_none_right_eq_some, Option.some.injEq] at hstep
  obtain ⟨-, rfl⟩ := hstep
  have hrank : ¬ StateE.kDisconnected.rank ≤ StateE.kDisconnectiong.rank := by decide
  rw [Forward, hst]
  exact hrank

/-- **When `state_` only moves forward.** In every run of the loop's thread and any number of
other threads, each load and each store being a step, `state_` moves forward at every step
exactly when no store of another thread's `shutdown` comes after the connection is down. -/
theorem state_forward {tr : List (StateAct × StateSys)} (h : Chain Step new tr) :
    Chain (fun s _ t => s.Forward t) new tr ↔ Chain (fun s a _ => s.InTime a) new tr := by
  refine chain_iff_of_inv ?_ ?_ inv_new h
  · intro s a t hs hstep ha
    exact hs.step hstep ha
  · intro s a t hs hstep ha
    exact not_forward hstep ha

/-- A run in which the store of `shutdown` is in time. -/
theorem state_forward_in_time :
    let tr := walk step new [.connectEstablished, .otherShutdownTest 1, .otherShutdownStore 1,
      .handleClose]
    tr.getLast?.map (fun e => e.2.state_) = some .kDisconnected ∧
      (Chain (fun s _ t => s.Forward t) new tr ↔ Chain (fun s a _ => s.InTime a) new tr) :=
  ⟨rfl, state_forward (chain_walk _ _ _)⟩

/-- The peer closes between the test and the store of another thread's `shutdown`. -/
theorem state_backward :
    let tr := walk step new [.connectEstablished, .otherShutdownTest 1, .handleClose,
      .otherShutdownStore 1]
    tr.length = 4 ∧ Chain Step new tr ∧ ¬ Chain (fun s _ t => s.Forward t) new tr :=
  ⟨rfl, chain_walk _ _ _, by decide⟩

end StateSys

end Reactor
