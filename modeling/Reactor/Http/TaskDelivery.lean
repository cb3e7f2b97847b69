import Reactor.Http.TaskQueue
import Reactor.Lib.Schedule
import Mathlib.Data.Prod.Lex
import Mathlib.Order.WellFoundedSet

/-!
Every task pushed on the queue of a loop is applied once, by the thread of the loop, in the order
of the pushes, and no wake-up is lost.

A thread that does not own the loop is in one call at a time. In the calls of the thread that
owns it, every one that may let tasks lie is followed by a test for an empty queue before the
next wait, which is why tasks are owed a wake-up only outside of these.
-/

namespace Reactor.Http.TaskSys

open Lib.Watch Lib.Schedule

variable {κ δ τ : Type*}

/-! ### The calls of a thread -/

/-- The calls that begin others and go on after them. -/
def Calls : Frame κ → Bool
  | .callback | .processTaskQ | .loop | .active _ => true
  | _ => false

/-- The thread tests for an empty queue before it blocks. -/
def testsEmpty : List (Frame κ) → Bool
  | [] | .run :: _ | .loop :: _ | .dispatch :: _ => false
  | .taskWakeup :: k | .callback :: k | .readMessage :: k | .active _ :: k => testsEmpty k
  | .addTask _ :: _ | .pushed :: _ | .processTaskQ :: _ | .pop :: _ | .apply _ :: _ => true

/-- The calls within which tasks may lie in the queue without a wake-up, at the latest as soon
as they end. -/
def NeedsTest : Frame κ → Bool
  | .apply _ | .callback | .readMessage | .active _ | .dispatch => true
  | _ => false

/-- What the stack of the loop's thread is like. -/
def Sound : List (Frame κ) → Prop
  | [] => True
  | f :: k => f ≠ .taskWakeup ∧ (∀ g ∈ k.head?, Calls g = true) ∧
      (NeedsTest f = true → testsEmpty k = true) ∧ Sound k

/-- What the stack of another thread is like. -/
def Foreign : List (Frame κ) → Prop
  | [] | [.addTask _] | [.pushed] | [.taskWakeup] | [.run] => True
  | _ => False

lemma taken_of_calls {k : List (Frame κ)} (h : ∀ g ∈ k.head?, Calls g = true) : taken k = [] := by
  match k with
  | [] => rfl
  | g :: _ =>
    have := h g rfl
    cases g <;> first | rfl | cases this

lemma ne_pop_of_calls {k k' : List (Frame κ)} (h : ∀ g ∈ k.head?, Calls g = true) :
    k ≠ .pop :: k' := by
  rintro rfl
  cases h _ rfl

lemma Foreign.mem {k : List (Frame κ)} (h : Foreign k) {f : Frame κ} (hf : f ∈ k) :
    f ≠ .pop ∧ ∀ node, f ≠ .apply node := by
  unfold Foreign at h
  split at h
  all_goals first
    | cases hf
      done
    | obtain rfl := List.mem_singleton.mp hf
      simp
    | cases h

/-! ### What the steps leave alone -/

section Fields

variable {s : TaskSys κ δ τ}

@[simp] lemma readMessage_loop : s.readMessage.loop = s.loop := by rw [readMessage]
@[simp] lemma readMessage_isQuit : s.readMessage.m_isQuit = s.m_isQuit := by rw [readMessage]
@[simp] lemma readMessage_stack : s.readMessage.stack = s.stack := by rw [readMessage]
@[simp] lemma readMessage_pushed : s.readMessage.pushed = s.pushed := by rw [readMessage]
@[simp] lemma readMessage_applied : s.readMessage.applied = s.applied := by rw [readMessage]
@[simp] lemma readMessage_threadID : s.readMessage.m_threadID = s.m_threadID := by
  rw [readMessage]

variable [DecidableEq τ] {t : τ} {k : List (Frame κ)}

@[simp] lemma goto_loop : (s.goto t k).loop = s.loop := rfl
@[simp] lemma goto_threadID : (s.goto t k).m_threadID = s.m_threadID := rfl
@[simp] lemma goto_pushed : (s.goto t k).pushed = s.pushed := rfl
@[simp] lemma goto_applied : (s.goto t k).applied = s.applied := rfl

@[simp] lemma goto_stack_self : (s.goto t k).stack t = k := by simp [goto]

lemma goto_stack_of_ne {t' : τ} (h : t' ≠ t) : (s.goto t k).stack t' = s.stack t' := by
  simp [goto, h]

lemma goto_owner_self (h : t = s.m_threadID) : (s.goto t k).owner = k := by
  subst h
  simp [owner]

lemma goto_owner_of_ne (h : t ≠ s.m_threadID) : (s.goto t k).owner = s.owner :=
  goto_stack_of_ne h.symm

/-- The calls of the loop's thread wake nobody up. -/
lemma woken_goto (h : t = s.m_threadID) : (s.goto t k).Woken ↔ s.Woken := by
  subst h
  refine or_congr Iff.rfl (exists_congr fun t' => and_congr_right fun hne => ?_)
  have hne' : t' ≠ s.m_threadID := hne
  rw [goto_stack_of_ne hne']

lemma woken_goto_of_not_between (h : ¬ Between (s.stack t)) (hw : s.Woken) :
    (s.goto t k).Woken := by
  rcases hw with hu | ⟨t', hne, hb⟩
  · exact Or.inl hu
  · have htt : t' ≠ t := by
      rintro rfl
      exact h hb
    exact Or.inr ⟨t', hne, (goto_stack_of_ne htt).symm ▸ hb⟩

end Fields

/-! ### The steps, by the call a thread is in -/

section Moves

variable [DecidableEq τ] [Dispatcher δ]

/-- What a thread makes of its calls and of the rest of the state. -/
inductive Moves (s : TaskSys κ δ τ) (t : τ) :
    List (Frame κ) → TaskSys κ δ τ → List (Frame κ) → Prop
  | addTask (node : ChannelElement κ) : Moves s t [] s [.addTask node]
  | run : Moves s t [] s [.run]
  | addTaskWithin (node : ChannelElement κ) (k : List (Frame κ)) :
    Moves s t (.callback :: k) s (.addTask node :: .callback :: k)
  | returns (k : List (Frame κ)) : Moves s t (.callback :: k) s k
  | push (node : ChannelElement κ) (k : List (Frame κ)) :
    Moves s t (.addTask node :: k) (s.push node) (.pushed :: k)
  | pushedAtHome (k : List (Frame κ)) (h : t = s.m_threadID) :
    Moves s t (.pushed :: k) s (.processTaskQ :: k)
  | pushedAbroad (k : List (Frame κ)) (h : t ≠ s.m_threadID) :
    Moves s t (.pushed :: k) s (.taskWakeup :: k)
  | taskWakeup (k : List (Frame κ)) : Moves s t (.taskWakeup :: k) s.taskWakeup k
  | empty (k : List (Frame κ)) (h : s.loop.m_taskQ = []) : Moves s t (.processTaskQ :: k) s k
  | nonempty (k : List (Frame κ)) (h : s.loop.m_taskQ ≠ []) :
    Moves s t (.processTaskQ :: k) s (.pop :: k)
  | pop (node : ChannelElement κ) (q : List (ChannelElement κ)) (k : List (Frame κ))
      (h : s.loop.m_taskQ = node :: q) :
    Moves s t (.pop :: k) (s.setTaskQ q) (.apply node :: .processTaskQ :: k)
  | apply (node : ChannelElement κ) (c : Channel) (frees : Bool) (k : List (Frame κ)) :
    Moves s t (.apply node :: k) (s.apply t node c frees) (afterNode node c s.loop k)
  | runAtHome (k : List (Frame κ)) (h : t = s.m_threadID) :
    Moves s t (.run :: k) { s with m_isQuit := false } (.loop :: k)
  | runAbroad (k : List (Frame κ)) (h : t ≠ s.m_threadID) :
    Moves s t (.run :: k) { s with m_isQuit := false } k
  | quits (k : List (Frame κ)) (h : s.m_isQuit = true) : Moves s t (.loop :: k) s k
  | waits (k : List (Frame κ)) (h : s.m_isQuit = false) :
    Moves s t (.loop :: k) s (.dispatch :: .processTaskQ :: .loop :: k)
  | ready (active : List (ℕ × Event)) (k : List (Frame κ)) :
    Moves s t (.dispatch :: k) s (.active active :: k)
  | noneLeft (k : List (Frame κ)) : Moves s t (.active [] :: k) s k
  | eventActive (r : ℕ × Event) (rs : List (ℕ × Event)) (k : List (Frame κ)) (call : Frame κ)
      (h : call = .readMessage ∨ call = .callback) :
    Moves s t (.active (r :: rs) :: k) s (call :: .active rs :: k)
  | readMessage (k : List (Frame κ)) : Moves s t (.readMessage :: k) s.readMessage k

variable {s s' : TaskSys κ δ τ} {t : τ} {choice : Choice κ}

omit [DecidableEq τ] [Dispatcher δ] in
lemma eventActive_eq [DecidableEq κ] {r : ℕ × Event} {f : Frame κ} (h : s.eventActive r = some f) :
    f = .readMessage ∨ f = .callback := by
  unfold eventActive at h
  split at h
  · cases h
  · split_ifs at h
    · exact Or.inl (Option.some.inj h).symm
    · exact Or.inr (Option.some.inj h).symm

lemma step_moves [DecidableEq κ] (hstep : s.step (t, choice) = some s') :
    ∃ r k, Moves s t (s.stack t) r k ∧ s' = r.goto t k := by
  simp only [step] at hstep
  split at hstep
  all_goals try rename s.stack t = _ => hstack
  all_goals try rw [hstack]
  all_goals try split at hstep
  all_goals first
    | cases hstep
      done
    | obtain ⟨call, hcall, rfl⟩ := Option.map_eq_some_iff.mp hstep
      exact ⟨_, _, .eventActive _ _ _ _ (eventActive_eq hcall), rfl⟩
    | obtain rfl := Option.some.inj hstep
  · exact ⟨_, _, .addTask _, rfl⟩
  · exact ⟨_, _, .run, rfl⟩
  · exact ⟨_, _, .addTaskWithin _ _, rfl⟩
  · exact ⟨_, _, .returns _, rfl⟩
  · exact ⟨_, _, .push _ _, rfl⟩
  · exact ⟨_, _, .pushedAtHome _ ‹_›, rfl⟩
  · exact ⟨_, _, .pushedAbroad _ ‹_›, rfl⟩
  · exact ⟨_, _, .taskWakeup _, rfl⟩
  · exact ⟨_, _, .empty _ ‹_›, rfl⟩
  · exact ⟨_, _, .nonempty _ ‹_›, rfl⟩
  · exact ⟨_, _, .pop _ _ _ ‹_›, rfl⟩
  · exact ⟨_, _, .apply _ _ _ _, rfl⟩
  · exact ⟨_, _, .runAtHome _ ‹_›, rfl⟩
  · exact ⟨_, _, .runAbroad _ ‹_›, rfl⟩
  · exact ⟨_, _, .quits _ ‹_›, rfl⟩
  · exact ⟨_, _, .waits _ (Bool.eq_false_iff.mpr ‹_›), rfl⟩
  · exact ⟨_, _, .ready _ _, rfl⟩
  · exact ⟨_, _, .noneLeft _, rfl⟩
  · exact ⟨_, _, .readMessage _, rfl⟩

end Moves

lemma applyNode_taskQ [Dispatcher δ] (node : ChannelElement κ) (c : Channel) (frees : Bool)
    (l : EventLoop κ δ) : (applyNode node c frees l).m_taskQ = l.m_taskQ := by
  unfold applyNode EventLoop.add EventLoop.remove EventLoop.modify EventLoop.freeChannel
  cases node.type <;> dsimp only <;> split_ifs <;> rfl

/-! ### The invariant -/

structure Inv (s : TaskSys κ δ τ) : Prop where
  sound : Sound s.owner
  foreign : ∀ t ≠ s.m_threadID, Foreign (s.stack t)
  inOrder : s.applied.map Prod.snd ++ taken s.owner ++ s.loop.m_taskQ = s.pushed
  byOwner : ∀ e ∈ s.applied, e.1 = s.m_threadID
  nonempty : ∀ k, s.owner = .pop :: k → s.loop.m_taskQ ≠ []
  /-- tasks are owed a wake-up where the next test comes after a wait -/
  owed : s.loop.m_taskQ ≠ [] → s.Woken ∨ testsEmpty s.owner = true
  isQuit : .loop ∈ s.owner → s.m_isQuit = false

lemma Inv.delivers {s : TaskSys κ δ τ} (h : s.Inv) : s.Delivers where
  inOrder := h.inOrder
  byOwner := h.byOwner
  others t ht _ hf := (h.foreign t ht).mem hf
  nonempty := h.nonempty
  wakes hhead hq := by
    refine (h.owed hq).resolve_right ?_
    rcases hk : s.owner with _ | ⟨f, k⟩
    · simp [testsEmpty]
    · rw [hk] at hhead
      obtain rfl := Option.some.inj hhead
      simp [testsEmpty]

variable [DecidableEq τ]

lemma inv_new (d : δ) (t : τ) (wake : κ) : (new d t wake).Inv := by
  have howner : (new d t wake).owner = [.addTask ⟨.ADD, wake⟩] := by simp [new, owner]
  refine ⟨?_, fun t' ht => ?_, ?_, ?_, ?_, ?_, ?_⟩
  all_goals try rw [howner]
  · exact ⟨by simp, by simp, by simp [NeedsTest], trivial⟩
  · have hstack : (new d t wake).stack t' = [] := if_neg ht
    rw [hstack]
    trivial
  · rfl
  · simp [new]
  · simp
  · simp [new, EventLoop.new]
  · simp

variable {s s' : TaskSys κ δ τ} {t : τ} {k : List (Frame κ)} {f : Frame κ}

/-- The loop's thread goes on with other calls, and what it leaves in the queue it tests for. -/
lemma Inv.own (h : s.Inv) (ht : t = s.m_threadID) {r : TaskSys κ δ τ}
    (hid : r.m_threadID = s.m_threadID) (hstack : r.stack = s.stack) (hsound : Sound k)
    (horder : r.applied.map Prod.snd ++ taken k ++ r.loop.m_taskQ = r.pushed)
    (hby : ∀ e ∈ r.applied, e.1 = s.m_threadID)
    (hpop : ∀ k', k = .pop :: k' → r.loop.m_taskQ ≠ [])
    (howed : r.loop.m_taskQ ≠ [] → r.Woken ∨ testsEmpty k = true)
    (hquit : .loop ∈ k → r.m_isQuit = false) : (r.goto t k).Inv := by
  have ht' : t = r.m_threadID := ht.trans hid.symm
  have hown : (r.goto t k).owner = k := goto_owner_self ht'
  refine ⟨?_, fun t' htt => ?_, ?_, fun e he => (hby e he).trans hid.symm, ?_, ?_, ?_⟩
  all_goals try rw [hown]
  · exact hsound
  · have hne : t' ≠ r.m_threadID := htt
    rw [goto_stack_of_ne (ht' ▸ hne), hstack]
    exact h.foreign t' (hid ▸ hne)
  · exact horder
  · exact hpop
  · rw [woken_goto ht']
    exact howed
  · exact hquit

/-- Nothing but the calls changes. -/
lemma Inv.control (h : s.Inv) (ht : t = s.m_threadID) (hsound : Sound k)
    (htaken : taken k = taken s.owner) (hpop : ∀ k', k = .pop :: k' → s.loop.m_taskQ ≠ [])
    (howed : s.loop.m_taskQ ≠ [] → testsEmpty s.owner = true → testsEmpty k = true)
    (hquit : .loop ∈ k → .loop ∈ s.owner ∨ s.m_isQuit = false) : (s.goto t k).Inv := by
  refine h.own ht rfl rfl hsound (htaken ▸ h.inOrder) h.byOwner hpop (fun hq => ?_) fun hl => ?_
  · exact (h.owed hq).imp_right (howed hq)
  · exact (hquit hl).elim h.isQuit id

/-- A call of the loop's thread ends. -/
lemma Inv.ret (h : s.Inv) (ht : t = s.m_threadID) (hown : s.owner = f :: k) (hf : taken [f] = [])
    (howed : s.loop.m_taskQ ≠ [] → testsEmpty (f :: k) = true → testsEmpty k = true) :
    (s.goto t k).Inv := by
  have hs := h.sound
  rw [hown] at hs
  obtain ⟨-, hcalls, -, hk⟩ := hs
  refine h.control ht hk ?_ (fun k' hk' => absurd hk' (ne_pop_of_calls hcalls)) ?_ fun hl => ?_
  · rw [hown, taken_of_calls hcalls]
    cases f <;> first | rfl | cases hf
  · rw [hown]
    exact howed
  · rw [hown]
    exact Or.inl (List.mem_cons_of_mem _ hl)

/-! ### The steps of the other threads -/

/-- Another thread goes on: what it leaves in the queue is owed a wake-up, which it is about to
write or has written. -/
lemma Inv.other (h : s.Inv) (ht : t ≠ s.m_threadID) {r : TaskSys κ δ τ} (hk : Foreign k)
    (hid : r.m_threadID = s.m_threadID) (hstack : r.stack = s.stack)
    (happ : r.applied = s.applied) (hquit : s.m_isQuit = false → r.m_isQuit = false)
    (hqueue : ∃ fs, r.loop.m_taskQ = s.loop.m_taskQ ++ fs ∧ r.pushed = s.pushed ++ fs)
    (hwoken : (r.goto t k).Woken ∨ r.loop.m_taskQ = s.loop.m_taskQ ∧
      (s.Woken → (r.goto t k).Woken)) : (r.goto t k).Inv := by
  have ht' : t ≠ r.m_threadID := hid ▸ ht
  have hown : (r.goto t k).owner = s.owner := by
    rw [goto_owner_of_ne ht', owner, owner, hid, hstack]
  obtain ⟨fs, hq, hp⟩ := hqueue
  refine ⟨hown ▸ h.sound, fun t' htt => ?_, ?_, ?_, fun k' hk' => ?_, fun hne => ?_, fun hl => ?_⟩
  · by_cases he : t' = t
    · rw [he, goto_stack_self]
      exact hk
    · rw [goto_stack_of_ne he, hstack]
      exact h.foreign t' (hid ▸ htt)
  · rw [hown, goto_loop, goto_pushed, goto_applied, hq, hp, happ, ← List.append_assoc, h.inOrder]
  · intro e he
    rw [goto_applied, happ] at he
    exact (h.byOwner e he).trans hid.symm
  · rw [hown] at hk'
    rw [goto_loop, hq]
    exact List.append_ne_nil_of_left_ne_nil (h.nonempty k' hk') fs
  · rw [hown]
    rcases hwoken with hw | ⟨hsame, hw⟩
    · exact Or.inl hw
    · rw [goto_loop, hsame] at hne
      exact (h.owed hne).imp_left hw
  · rw [hown] at hl
    exact hquit (h.isQuit hl)

lemma msg_pos : 0 < msg.utf8ByteSize := by decide

variable [Dispatcher δ] {r : TaskSys κ δ τ} {k' : List (Frame κ)}

lemma Inv.step_other (h : s.Inv) (ht : t ≠ s.m_threadID) (hm : Moves s t (s.stack t) r k) :
    (r.goto t k).Inv := by
  have hf := h.foreign t ht
  unfold Foreign at hf
  split at hf
  case h_1 hstack =>
    -- a call begins
    have hnot : ¬ Between (s.stack t) := by simp [hstack, Between]
    rw [hstack] at hm
    cases hm
    all_goals
      exact h.other ht trivial rfl rfl rfl id ⟨[], by simp⟩
        (Or.inr ⟨rfl, woken_goto_of_not_between hnot⟩)
  case h_2 node hstack =>
    rw [hstack] at hm
    cases hm with
    | push =>
      exact h.other ht trivial rfl rfl rfl id ⟨[node], rfl, rfl⟩
        (Or.inl (Or.inr ⟨t, ht, by simp [Between]⟩))
  case h_3 hstack =>
    rw [hstack] at hm
    cases hm with
    | pushedAtHome _ hto => exact absurd hto ht
    | pushedAbroad =>
      exact h.other ht trivial rfl rfl rfl id ⟨[], by simp⟩
        (Or.inl (Or.inr ⟨t, ht, by simp [Between]⟩))
  case h_4 hstack =>
    rw [hstack] at hm
    cases hm with
    | taskWakeup =>
      exact h.other ht trivial rfl rfl rfl id ⟨[], by simp [TaskSys.taskWakeup]⟩
        (Or.inl (Or.inl (Nat.add_pos_right _ msg_pos)))
  case h_5 hstack =>
    -- a loop that another thread cannot run
    have hnot : ¬ Between (s.stack t) := by simp [hstack, Between]
    rw [hstack] at hm
    cases hm with
    | runAtHome _ hto => exact absurd hto ht
    | runAbroad =>
      exact h.other ht trivial rfl rfl rfl (fun _ => rfl) ⟨[], by simp⟩
        (Or.inr ⟨rfl, fun hw => woken_goto_of_not_between hnot hw⟩)
  case h_6 => cases hf

/-! ### The steps of the loop's thread -/

omit [Dispatcher δ] in
/-- A call begins one that is followed by a test, or the loop. -/
lemma Inv.call (h : s.Inv) (ht : t = s.m_threadID) (hcalls : ∀ g ∈ s.owner.head?, Calls g = true)
    (hf : f ≠ .taskWakeup ∧ taken [f] = [] ∧ f ≠ .pop ∧ f ≠ .loop)
    (htest : NeedsTest f = true → testsEmpty s.owner = true)
    (howed : testsEmpty s.owner = true → testsEmpty (f :: s.owner) = true) :
    (s.goto t (f :: s.owner)).Inv := by
  obtain ⟨hwake, htaken, hpop, hloop⟩ := hf
  refine h.control ht ⟨hwake, hcalls, htest, h.sound⟩ ?_ ?_ (fun _ => howed) fun hl => ?_
  · rw [taken_of_calls hcalls]
    cases f <;> first | rfl | cases htaken
  · rintro k' hk'
    exact absurd (List.cons.inj hk').1 hpop
  · exact Or.inl ((List.mem_cons.mp hl).resolve_left hloop.symm)

omit [Dispatcher δ] in
/-- Where a test is to come, nothing is owed. -/
lemma Inv.tested (h : s.Inv) (ht : t = s.m_threadID) {r : TaskSys κ δ τ}
    (hid : r.m_threadID = s.m_threadID) (hstack : r.stack = s.stack) (hsound : Sound k)
    (horder : r.applied.map Prod.snd ++ taken k ++ r.loop.m_taskQ = r.pushed)
    (hby : ∀ e ∈ r.applied, e.1 = s.m_threadID)
    (hhead : ∀ g ∈ k.head?, g ≠ .pop) (htest : testsEmpty k = true)
    (hquit : .loop ∈ k → r.m_isQuit = false) : (r.goto t k).Inv :=
  h.own ht hid hstack hsound horder hby
    (fun _ hk' => absurd rfl (hhead .pop (hk' ▸ rfl))) (fun _ => Or.inr htest) hquit

omit [DecidableEq τ] [Dispatcher δ] in
lemma Inv.isQuit_rest (h : s.Inv) (hk : s.owner = f :: k) (hl : .loop ∈ k) :
    s.m_isQuit = false :=
  h.isQuit (hk ▸ List.mem_cons_of_mem _ hl)

omit [DecidableEq τ] [Dispatcher δ] in
/-- The order of the tasks, where none is in hand. -/
lemma Inv.order_idle (h : s.Inv) (hk : taken s.owner = []) :
    s.applied.map Prod.snd ++ s.loop.m_taskQ = s.pushed := by
  have := h.inOrder
  rwa [hk, List.append_nil] at this

/-- Code of the user, in or out of a callback. -/
lemma Inv.step_user (h : s.Inv) (ht : t = s.m_threadID)
    (hk : s.owner = [] ∨ ∃ k, s.owner = .callback :: k) (hm : Moves s t s.owner r k') :
    (r.goto t k').Inv := by
  have hcalls : ∀ g ∈ s.owner.head?, Calls g = true := by
    rcases hk with hk | ⟨k, hk⟩ <;> simp [hk, Calls]
  have hadd := fun node => h.call (f := .addTask node) ht hcalls (by simp [taken])
    (by simp [NeedsTest]) (by simp [testsEmpty])
  rcases hk with hk | ⟨k, hk⟩ <;> rw [hk] at hm hadd
  · cases hm with
    | addTask node => exact hadd node
    | run =>
      have := h.call (f := .run) ht hcalls (by simp [taken]) (by simp [NeedsTest])
        (by simp [hk, testsEmpty])
      rwa [hk] at this
  · cases hm with
    | addTaskWithin node => exact hadd node
    | returns =>
      have hs := h.sound
      rw [hk] at hs
      exact h.ret ht hk rfl fun _ _ => hs.2.2.1 rfl

/-- The loop's thread pushes, and has the queue processed at once. -/
lemma Inv.step_addTask (h : s.Inv) (ht : t = s.m_threadID)
    (hf : f = .pushed ∨ ∃ node, f = .addTask node) (hk : s.owner = f :: k)
    (hm : Moves s t (f :: k) r k') : (r.goto t k').Inv := by
  obtain ⟨-, hcalls, -, hsk⟩ : Sound (f :: k) := hk ▸ h.sound
  have hquit := fun hl => h.isQuit_rest hk hl
  have hidle : taken s.owner = [] := by
    rw [hk]
    rcases hf with rfl | ⟨node, rfl⟩ <;> rfl
  have horder := h.order_idle hidle
  rcases hf with rfl | ⟨node, rfl⟩
  · cases hm with
    | pushedAbroad _ hto => exact absurd ht hto
    | pushedAtHome =>
      exact h.tested ht rfl rfl ⟨by simp, hcalls, by simp [NeedsTest], hsk⟩
        (by simpa [taken] using horder) h.byOwner (by simp) rfl fun hl => hquit (by simpa using hl)
  · cases hm with
    | push =>
      refine h.tested ht rfl rfl ⟨by simp, hcalls, by simp [NeedsTest], hsk⟩ ?_ h.byOwner
        (by simp) rfl fun hl => hquit (by simpa using hl)
      simp [TaskSys.push, taken, ← horder]

/-- The test for an empty queue, and the node that is taken if it is not. -/
lemma Inv.step_take (h : s.Inv) (ht : t = s.m_threadID) (hf : f = .processTaskQ ∨ f = .pop)
    (hk : s.owner = f :: k) (hm : Moves s t (f :: k) r k') : (r.goto t k').Inv := by
  obtain ⟨-, hcalls, -, hsk⟩ : Sound (f :: k) := hk ▸ h.sound
  have hquit := fun hl => h.isQuit_rest hk hl
  have hidle : taken s.owner = [] := by
    rw [hk]
    rcases hf with rfl | rfl <;> rfl
  have horder := h.order_idle hidle
  rcases hf with rfl | rfl
  · cases hm with
    | empty _ hq => exact h.ret ht hk rfl fun hne => absurd hq hne
    | nonempty _ hq =>
      exact h.own ht rfl rfl ⟨by simp, hcalls, by simp [NeedsTest], hsk⟩
        (by simpa [taken] using horder) h.byOwner (fun _ _ => hq) (fun _ => Or.inr rfl)
        fun hl => hquit (by simpa using hl)
  · cases hm with
    | pop node q _ hq =>
      refine h.tested ht rfl rfl ⟨by simp, by simp [Calls], by simp [testsEmpty], by simp, hcalls,
        by simp [NeedsTest], hsk⟩ ?_ h.byOwner (by simp) rfl fun hl => hquit (by simpa using hl)
      simp [setTaskQ, taken, ← horder, hq]

/-- The node in hand is applied. -/
lemma Inv.step_apply (h : s.Inv) (ht : t = s.m_threadID) {node : ChannelElement κ}
    (hk : s.owner = .apply node :: k) (hm : Moves s t (.apply node :: k) r k') :
    (r.goto t k').Inv := by
  obtain ⟨-, hcalls, htest, hsk⟩ : Sound (.apply node :: k) := hk ▸ h.sound
  have hback : testsEmpty k = true := htest rfl
  have hquit := fun hl => h.isQuit_rest hk hl
  have horder := h.inOrder
  rw [hk] at horder
  cases hm with
  | apply _ c frees =>
    have happ : (s.apply t node c frees).applied.map Prod.snd ++
        (s.apply t node c frees).loop.m_taskQ = (s.apply t node c frees).pushed := by
      simp only [taken] at horder
      simp [TaskSys.apply, applyNode_taskQ, ← horder]
    have hby : ∀ e ∈ (s.apply t node c frees).applied, e.1 = s.m_threadID := by
      intro e he
      rcases List.mem_append.mp he with he | he
      · exact h.byOwner e he
      · rw [List.mem_singleton.mp he]
        exact ht
    unfold afterNode
    split_ifs
    · exact h.tested ht rfl rfl ⟨by simp, hcalls, fun _ => hback, hsk⟩
        (by simpa [taken] using happ) hby (by simp) hback fun hl => hquit (by simpa using hl)
    · exact h.tested ht rfl rfl hsk (by simpa [taken_of_calls hcalls] using happ) hby
        (fun g hg => by rintro rfl; cases hcalls _ hg) hback hquit

/-- The loop is started, or goes round once more: only here does the thread come to block, with
its tasks owed a wake-up. -/
lemma Inv.step_loop (h : s.Inv) (ht : t = s.m_threadID) (hf : f = .run ∨ f = .loop)
    (hk : s.owner = f :: k) (hm : Moves s t (f :: k) r k') : (r.goto t k').Inv := by
  obtain ⟨-, hcalls, -, hsk⟩ : Sound (f :: k) := hk ▸ h.sound
  have hidle : taken s.owner = [] := by
    rw [hk]
    rcases hf with rfl | rfl <;> rfl
  have horder := h.order_idle hidle
  have howed : s.loop.m_taskQ ≠ [] → s.Woken := fun hq => by
    refine (h.owed hq).resolve_right ?_
    rw [hk]
    rcases hf with rfl | rfl <;> simp [testsEmpty]
  rcases hf with rfl | rfl
  · cases hm with
    | runAbroad _ hto => exact absurd ht hto
    | runAtHome =>
      exact h.own ht rfl rfl ⟨by simp, hcalls, by simp [NeedsTest], hsk⟩
        (by simpa [taken] using horder) h.byOwner (by simp) (fun hq => Or.inl (howed hq))
        fun _ => rfl
  · have hfalse : s.m_isQuit = false := h.isQuit (hk ▸ List.mem_cons_self ..)
    cases hm with
    | quits _ htrue => exact absurd (htrue.symm.trans hfalse) (by simp)
    | waits =>
      exact h.own ht rfl rfl ⟨by simp, by simp [Calls], by simp [testsEmpty], by simp,
        by simp [Calls], by simp [NeedsTest], by simp, hcalls, by simp [NeedsTest], hsk⟩
        (by simpa [taken] using horder) h.byOwner (by simp) (fun hq => Or.inl (howed hq))
        fun _ => hfalse

/-- The wait ends and the descriptors found ready are dealt with, with a test to come. -/
lemma Inv.step_dispatch (h : s.Inv) (ht : t = s.m_threadID)
    (hf : f = .dispatch ∨ f = .readMessage ∨ ∃ ready, f = .active ready) (hk : s.owner = f :: k)
    (hm : Moves s t (f :: k) r k') : (r.goto t k').Inv := by
  obtain ⟨-, hcalls, htest, hsk⟩ : Sound (f :: k) := hk ▸ h.sound
  have hback : testsEmpty k = true := htest (by rcases hf with rfl | rfl | ⟨_, rfl⟩ <;> rfl)
  have hquit := fun hl => h.isQuit_rest hk hl
  have hidle : taken s.owner = [] := by
    rw [hk]
    rcases hf with rfl | rfl | ⟨_, rfl⟩ <;> rfl
  have horder := h.order_idle hidle
  rcases hf with rfl | rfl | ⟨ready, rfl⟩
  · cases hm with
    | ready active =>
      exact h.tested ht rfl rfl ⟨by simp, hcalls, fun _ => hback, hsk⟩
        (by simpa [taken] using horder) h.byOwner (by simp) hback
        fun hl => hquit (by simpa using hl)
  · cases hm with
    | readMessage =>
      refine h.tested ht readMessage_threadID readMessage_stack hsk ?_ ?_
        (fun g hg => by rintro rfl; cases hcalls _ hg) hback fun hl => ?_
      · simpa [taken_of_calls hcalls] using horder
      · rw [readMessage_applied]
        exact h.byOwner
      · rw [readMessage_isQuit]
        exact hquit hl
  · cases hm with
    | noneLeft => exact h.ret ht hk rfl fun _ _ => hback
    | eventActive _ rs _ _ hcall =>
      have hrest : Sound (.active rs :: k) := ⟨by simp, hcalls, fun _ => hback, hsk⟩
      rcases hcall with rfl | rfl
      all_goals
        exact h.tested ht rfl rfl ⟨by simp, by simp [Calls], fun _ => hback, hrest⟩
          (by simpa [taken] using horder) h.byOwner (by simp) hback
          fun hl => hquit (by simpa using hl)

lemma Inv.step_owner (h : s.Inv) (ht : t = s.m_threadID) (hm : Moves s t s.owner r k') :
    (r.goto t k').Inv := by
  rcases hk : s.owner with _ | ⟨f, k⟩
  · exact h.step_user ht (Or.inl hk) hm
  · rw [hk] at hm
    cases f with
    | callback => exact h.step_user ht (Or.inr ⟨k, hk⟩) (hk ▸ hm)
    | addTask node => exact h.step_addTask ht (Or.inr ⟨node, rfl⟩) hk hm
    | pushed => exact h.step_addTask ht (Or.inl rfl) hk hm
    | taskWakeup =>
      have hs := h.sound
      rw [hk] at hs
      exact absurd rfl hs.1
    | processTaskQ => exact h.step_take ht (Or.inl rfl) hk hm
    | pop => exact h.step_take ht (Or.inr rfl) hk hm
    | apply node => exact h.step_apply ht hk hm
    | run => exact h.step_loop ht (Or.inl rfl) hk hm
    | loop => exact h.step_loop ht (Or.inr rfl) hk hm
    | dispatch => exact h.step_dispatch ht (Or.inl rfl) hk hm
    | readMessage => exact h.step_dispatch ht (Or.inr (Or.inl rfl)) hk hm
    | active ready => exact h.step_dispatch ht (Or.inr (Or.inr ⟨ready, rfl⟩)) hk hm

/-- **Every step keeps the invariant.** -/
lemma Inv.step [DecidableEq κ] (h : s.Inv) {a : τ × Choice κ} (hstep : s.step a = some s') :
    s'.Inv := by
  obtain ⟨r, k, hm, rfl⟩ := step_moves hstep
  by_cases ht : a.1 = s.m_threadID
  · refine h.step_owner ht ?_
    rwa [owner, ← ht]
  · exact h.step_other ht hm

/-! ### Progress -/

/-- How far the loop's thread is from its next test for an empty queue, if it need not block
before, or from blocking, if it need. -/
def stepsLeft : List (Frame κ) → ℕ
  | [] => 3
  | .run :: _ => 2
  | .loop :: _ => 1
  | .dispatch :: _ => 0
  | .addTask _ :: _ => 4
  | .pushed :: _ => 3
  | .processTaskQ :: _ => 2
  | .pop :: _ => 1
  | .apply _ :: _ => 0
  | .callback :: k => 5 + stepsLeft k
  | .taskWakeup :: k | .readMessage :: k => 1 + stepsLeft k
  | .active ready :: k => 6 * ready.length + 1 + stepsLeft k

/-- The wait, of which no bound is known beforehand, is before all that follows it. -/
def rank (k : List (Frame κ)) : ℕ ×ₗ ℕ := toLex (if testsEmpty k then 0 else 1, stepsLeft k)

omit [DecidableEq τ] [Dispatcher δ] in
lemma rank_lt_of_steps {k k' : List (Frame κ)} (htest : testsEmpty k = testsEmpty k')
    (h : stepsLeft k < stepsLeft k') : rank k < rank k' := by
  rw [rank, rank, htest]
  exact Prod.Lex.toLex_lt_toLex.mpr (Or.inr ⟨rfl, h⟩)

omit [DecidableEq τ] [Dispatcher δ] in
lemma rank_lt_of_test {k k' : List (Frame κ)} (h : testsEmpty k = true)
    (h' : testsEmpty k' = false) : rank k < rank k' := by
  rw [rank, rank, h, h']
  exact Prod.Lex.toLex_lt_toLex.mpr (Or.inl (by simp))

omit [Dispatcher δ] in
/-- The loop's thread goes on with calls that are nearer to their end. -/
lemma nearer {r : TaskSys κ δ τ} {k k' : List (Frame κ)} (ht : t = s.m_threadID)
    (hid : r.m_threadID = s.m_threadID) (happ : r.applied = s.applied) (hk : s.owner = k)
    (hrank : rank k' < rank k) :
    (r.goto t k').applied = s.applied ∧ rank (r.goto t k').owner < rank s.owner := by
  rw [goto_owner_self (ht.trans hid.symm), hk]
  exact ⟨happ, hrank⟩

/-- **As long as a task is left** each step of the loop's thread applies one, or brings the next
closer. -/
lemma Inv.closer (h : s.Inv) (ht : t = s.m_threadID) (hleft : s.applied.length < s.pushed.length)
    (hm : Moves s t s.owner r k') :
    r.applied.length = s.applied.length + 1 ∨
      (r.goto t k').applied = s.applied ∧ rank (r.goto t k').owner < rank s.owner := by
  have hs := h.sound
  rcases hk : s.owner with _ | ⟨f, k⟩ <;> rw [hk] at hs hm
  · right
    rw [← hk]
    cases hm with
    | addTask => exact nearer ht rfl rfl hk (rank_lt_of_test rfl rfl)
    | run => exact nearer ht rfl rfl hk (rank_lt_of_steps rfl (by simp [stepsLeft]))
  obtain ⟨hwake, -, htest, -⟩ := hs
  have hnear : ∀ {r : TaskSys κ δ τ} {k'}, r.m_threadID = s.m_threadID → r.applied = s.applied →
      rank k' < rank (f :: k) → (r.goto t k').applied = s.applied ∧
        rank (r.goto t k').owner < rank (f :: k) :=
    fun hid happ hrank => hk ▸ nearer ht hid happ hk hrank
  cases hm with
  | taskWakeup => exact absurd rfl hwake
  | apply node c frees =>
    left
    simp [TaskSys.apply]
  | addTaskWithin =>
    exact Or.inr (hnear rfl rfl (rank_lt_of_steps (by simp [testsEmpty, htest rfl])
      (by simp only [stepsLeft]; omega)))
  | returns =>
    exact Or.inr (hnear rfl rfl (rank_lt_of_steps (by simp [testsEmpty]) (by simp [stepsLeft])))
  | push => exact Or.inr (hnear rfl rfl (rank_lt_of_steps rfl (by simp [stepsLeft])))
  | pushedAbroad _ hto => exact absurd ht hto
  | pushedAtHome => exact Or.inr (hnear rfl rfl (rank_lt_of_steps rfl (by simp [stepsLeft])))
  | empty _ hq =>
    -- a task is left, and none is in hand
    have horder := h.order_idle (hk ▸ rfl)
    rw [hq, List.append_nil] at horder
    rw [← horder, List.length_map] at hleft
    exact absurd hleft (lt_irrefl _)
  | nonempty => exact Or.inr (hnear rfl rfl (rank_lt_of_steps rfl (by simp [stepsLeft])))
  | pop => exact Or.inr (hnear rfl rfl (rank_lt_of_steps rfl (by simp [stepsLeft])))
  | runAbroad _ hto => exact absurd ht hto
  | runAtHome => exact Or.inr (hnear rfl rfl (rank_lt_of_steps rfl (by simp [stepsLeft])))
  | quits _ htrue =>
    have hfalse : s.m_isQuit = false := h.isQuit (hk ▸ List.mem_cons_self ..)
    exact absurd (htrue.symm.trans hfalse) (by simp)
  | waits => exact Or.inr (hnear rfl rfl (rank_lt_of_steps rfl (by simp [stepsLeft])))
  | ready => exact Or.inr (hnear rfl rfl (rank_lt_of_test (htest rfl) rfl))
  | noneLeft => exact Or.inr (hnear rfl rfl (rank_lt_of_steps rfl (by simp [stepsLeft])))
  | eventActive r rs k call hcall =>
    refine Or.inr (hnear rfl rfl (rank_lt_of_steps ?_ ?_))
    all_goals rcases hcall with rfl | rfl
    · rfl
    · rfl
    · simp only [stepsLeft, List.length_cons]
      omega
    · simp only [stepsLeft, List.length_cons]
      omega
  | readMessage =>
    exact Or.inr (hnear readMessage_threadID readMessage_applied
      (rank_lt_of_steps (by simp [testsEmpty]) (by simp [stepsLeft])))

omit [DecidableEq τ] in
/-- What is pushed stays so, what is applied too, and the loop its thread's. -/
lemma Moves.grows {k : List (Frame κ)} (hm : Moves s t k r k') :
    r.m_threadID = s.m_threadID ∧ s.pushed.length ≤ r.pushed.length ∧
      s.applied.length ≤ r.applied.length := by
  cases hm <;> simp [TaskSys.push, TaskSys.taskWakeup, setTaskQ, TaskSys.apply]

/-- The steps of the other threads apply nothing, and take nothing back. -/
lemma Inv.other_keeps (h : s.Inv) (ht : t ≠ s.m_threadID) (hm : Moves s t (s.stack t) r k') :
    (r.goto t k').applied = s.applied ∧ (r.goto t k').owner = s.owner := by
  have hf := h.foreign t ht
  have hid : r.m_threadID = s.m_threadID := hm.grows.1
  have happ : r.applied = s.applied ∧ r.stack = s.stack := by
    generalize s.stack t = k at hm hf
    cases hm <;> first | exact False.elim hf | exact ⟨rfl, rfl⟩
  refine ⟨happ.1, ?_⟩
  rw [goto_owner_of_ne (hid ▸ ht), owner, owner, hid, happ.2]

variable [DecidableEq κ]

lemma step_grows {a : τ × Choice κ} (hstep : s.step a = some s') :
    s'.m_threadID = s.m_threadID ∧ s.pushed.length ≤ s'.pushed.length ∧
      s.applied.length ≤ s'.applied.length := by
  obtain ⟨r, k, hm, rfl⟩ := step_moves hstep
  exact hm.grows

/-! ### Runs -/

section Runs

variable {d : δ} {owner : τ} {wake : κ} {sched : ℕ → τ × Choice κ}

lemma play_inv_new (n : ℕ) : (play step (new d owner wake) sched n).Inv ∧
    (play step (new d owner wake) sched n).m_threadID = owner := by
  refine play_inv (fun (s : TaskSys κ δ τ) a s' (h : s.Inv ∧ s.m_threadID = owner) hstep => ?_)
    ⟨inv_new d owner wake, rfl⟩ n
  exact ⟨h.1.step hstep, (step_grows hstep).1.trans h.2⟩

lemma play_grows {n m : ℕ} (h : n ≤ m) :
    (play step (new d owner wake) sched n).pushed.length ≤
        (play step (new d owner wake) sched m).pushed.length ∧
      (play step (new d owner wake) sched n).applied.length ≤
        (play step (new d owner wake) sched m).applied.length :=
  ⟨play_mono (fun s : TaskSys κ δ τ => s.pushed.length) (fun _ _ _ h => (step_grows h).2.1) h,
    play_mono (fun s : TaskSys κ δ τ => s.applied.length) (fun _ _ _ h => (step_grows h).2.2) h⟩

/-- One more task comes to be applied, as long as one is left. -/
lemma applies_one (hfair : Recurs step (new d owner wake) sched fun a => a.1 = owner) {n i : ℕ}
    (hpushed : i < (play step (new d owner wake) sched n).pushed.length)
    (happlied : i ≤ (play step (new d owner wake) sched n).applied.length) :
    ∃ m ≥ n, i < (play step (new d owner wake) sched m).applied.length := by
  -- what is kept until then
  let Left (s : TaskSys κ δ τ) : Prop :=
    (s.Inv ∧ s.m_threadID = owner) ∧ i < s.pushed.length ∧ i ≤ s.applied.length
  have hmoves : ∀ s a s', Left s → ¬ i < s.applied.length → s.step a = some s' →
      i < s'.applied.length ∨ s'.applied = s.applied ∧ rank s'.owner ≤ rank s.owner ∧
        (a.1 = owner → rank s'.owner < rank s.owner) := by
    rintro s ⟨t, choice⟩ s' ⟨⟨hinv, hown⟩, hi, hle⟩ hnot hstep
    have heq : s.applied.length = i := by omega
    obtain ⟨r, k, hm, rfl⟩ := step_moves hstep
    by_cases ht : t = s.m_threadID
    · have hm' : Moves s t s.owner r k := by rwa [TaskSys.owner, ← ht]
      rcases hinv.closer ht (by omega) hm' with happ | ⟨happ, hrank⟩
      · exact Or.inl (by rw [goto_applied]; omega)
      · exact Or.inr ⟨happ, hrank.le, fun _ => hrank⟩
    · obtain ⟨happ, hsame⟩ := hinv.other_keeps ht hm
      exact Or.inr ⟨happ, hsame ▸ le_rfl, fun hto => absurd (hto.trans hown.symm) ht⟩
  have hkeep : ∀ s a s', Left s → s.step a = some s' → Left s' := by
    rintro s a s' ⟨⟨hinv, hown⟩, hi, hle⟩ hstep
    obtain ⟨hid, hpush, happ⟩ := step_grows hstep
    exact ⟨⟨hinv.step hstep, hid.trans hown⟩, hi.trans_le hpush, hle.trans happ⟩
  have hleft : Left (play step (new d owner wake) sched n) :=
    ⟨play_inv_new n, hpushed, happlied⟩
  refine eventually_of_rank (fun s => i < s.applied.length) (fun s => rank s.owner) hkeep
    (fun s a s' hs hnot hstep => ?_) (fun s a s' hs hnot hown hstep => ?_) hfair hleft
  · exact (hmoves s a s' hs hnot hstep).imp_right fun h => h.2.1
  · exact (hmoves s a s' hs hnot hstep).imp_right fun h => h.2.2 hown

/-- **Delivery of the tasks.** Whatever the threads do and in whatever order, at all times the
tasks applied are the tasks pushed so far, but for the one in hand and those in the queue, in
their order; the loop's thread applies them all; and it is woken up when it is about to block
with tasks in the queue. If that thread goes on again and again, every task pushed comes to be
applied. -/
theorem tasks_delivered (d : δ) (owner : τ) (wake : κ) (sched : ℕ → τ × Choice κ) :
    (∀ n, (play step (new d owner wake) sched n).Delivers) ∧
      (Recurs step (new d owner wake) sched (fun a => a.1 = owner) →
        ∀ n, ∀ i < (play step (new d owner wake) sched n).pushed.length,
          ∃ m, i < (play step (new d owner wake) sched m).applied.length) := by
  refine ⟨fun n => (play_inv_new n).1.delivers, fun hfair n i => ?_⟩
  induction i with
  | zero =>
    intro hi
    obtain ⟨m, -, hm⟩ := applies_one hfair hi (Nat.zero_le _)
    exact ⟨m, hm⟩
  | succ i ih =>
    intro hi
    obtain ⟨m, hm⟩ := ih (by omega)
    obtain ⟨m', -, hm'⟩ := applies_one hfair (hi.trans_le (play_grows (le_max_left n m)).1)
      ((Nat.succ_le_of_lt hm).trans (play_grows (le_max_right n m)).2)
    exact ⟨m', hm'⟩

end Runs

end Reactor.Http.TaskSys
