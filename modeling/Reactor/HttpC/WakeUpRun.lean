import Reactor.HttpC.FdTable
import Reactor.HttpC.WakeUp

/-!
When the loop of the C server is woken up for its tasks.

What `taskWakeUp` writes to `socketpair[0]` can be read at `socketpair[1]` only, and registered
is `socketpair[0]`. So no registered endpoint ever becomes readable, and all that is left for a
loop about to block with tasks in its list is a thread that has yet to write.
-/

namespace Reactor.HttpC

open Lib.Watch Lib.Trace

/-! ### What a task does to the dispatcher -/

namespace EventLoop

variable {δ : Type*} [Dispatcher δ] {l : EventLoop δ} {c : Channel}

lemma AddEventLoop_data (mem : ℕ → ℕ) :
    (l.AddEventLoop mem c).disepatherData = l.disepatherData ∨
      (l.AddEventLoop mem c).disepatherData = Dispatcher.add c l.disepatherData := by
  have hplace : ∀ l : EventLoop δ, (l.place c).disepatherData = l.disepatherData ∨
      (l.place c).disepatherData = Dispatcher.add c l.disepatherData := by
    intro l
    unfold place
    split
    · exact Or.inl rfl
    · split_ifs
      · exact Or.inr rfl
      · exact Or.inl rfl
  rw [AddEventLoop_eq]
  split_ifs
  · exact hplace l
  · exact hplace (l.grown mem c._fd)
  · exact Or.inl rfl

lemma ModifyEventLoop_data : (l.ModifyEventLoop c).disepatherData = l.disepatherData ∨
    (l.ModifyEventLoop c).disepatherData = Dispatcher.modify c l.disepatherData := by
  unfold ModifyEventLoop
  split_ifs
  · exact Or.inl rfl
  · split
    · exact Or.inl rfl
    · split_ifs
      · exact Or.inl rfl
      · exact Or.inr rfl

omit [Dispatcher δ] in
lemma destroyChannel_data : (l.destroyChannel c).disepatherData = l.disepatherData := by
  unfold destroyChannel
  split <;> rfl

lemma DeleteEventLoop_data {destroycallback : EventLoop δ → EventLoop δ}
    (h : ∀ l, (destroycallback l).disepatherData = l.disepatherData) :
    (l.DeleteEventLoop destroycallback c).disepatherData = l.disepatherData ∨
      (l.DeleteEventLoop destroycallback c).disepatherData =
        Dispatcher.remove c l.disepatherData := by
  unfold DeleteEventLoop
  split_ifs
  · exact Or.inl rfl
  · exact Or.inr (h _)

end EventLoop

namespace WakeSys

lemma epollctl_epoll {op : CtlOp} {c : Channel} {d : EpollData} {fd : ℕ} (h : fd ≠ c._fd) :
    (d.epollctl op c).epoll fd = d.epoll fd := by
  unfold EpollData.epollctl
  split
  · rename_i set hset
    cases op <;> simp only [epoll_ctl] at hset <;> split_ifs at hset <;>
      simp only [Option.some.injEq] at hset <;> simp [← hset, h]
  · rfl

variable {κ τ : Type*} {fds : LoopFds κ}

/-- A node changes the entry of its channel's descriptor only. -/
lemma processNode_epoll (node : ChannelEvent κ) (_events : Mask) (mem : ℕ → ℕ) (frees : Bool)
    (l : EventLoop EpollData) {fd : ℕ} (h : fd ≠ fds._fd node.channel) :
    (processNode fds node _events mem frees l).disepatherData.epoll fd =
      l.disepatherData.epoll fd := by
  unfold processNode
  set c : Channel := ⟨fds.ptr node.channel, fds._fd node.channel, _events, fds.ptr_ne _⟩
  have hc : fd ≠ c._fd := h
  cases node.type with
  | ADD =>
    rcases EventLoop.AddEventLoop_data (l := l) (c := c) mem with hd | hd <;> simp only [hd]
    exact epollctl_epoll hc
  | DELETE =>
    have hkeeps : ∀ l : EventLoop EpollData,
        (if frees then l.destroyChannel c else l).disepatherData = l.disepatherData := by
      intro l
      split_ifs
      · exact EventLoop.destroyChannel_data
      · rfl
    rcases EventLoop.DeleteEventLoop_data (l := l) (c := c) hkeeps with hd | hd <;> simp only [hd]
    exact epollctl_epoll hc
  | MODIFY =>
    rcases EventLoop.ModifyEventLoop_data (l := l) (c := c) with hd | hd <;> simp only [hd]
    exact epollctl_epoll hc

/-! ### The steps -/

/-- The calls that others can be within. -/
def Caller (f : Frame κ) : Prop := f ≠ .dispatch ∧ f ≠ .pushed ∧ f ≠ .taskWakeUp

/-- Nothing can be read at the first endpoint, the second is not registered, and what a thread
goes back to is neither the wait nor a wake-up. -/
structure Inv (fds : LoopFds κ) (s : WakeSys κ τ) : Prop where
  first : s.sockets .first = 0
  second : s.loop.disepatherData.epoll (fds.socketpair .second) = none
  callers : ∀ t, ∀ f ∈ (s.stack t).tail, Caller f

lemma Inv.not_readable {s : WakeSys κ τ} (h : s.Inv fds) : ¬ s.Readable fds := by
  rintro ⟨e, m, hset, -, hbytes⟩
  cases e with
  | first =>
    rw [h.first] at hbytes
    exact lt_irrefl 0 hbytes
  | second =>
    rw [h.second] at hset
    cases hset

/-- All that can wake the loop up is another thread. -/
lemma Inv.wakesUp_iff_between {s : WakeSys κ τ} (h : s.Inv fds) : s.WakesUp fds ↔
    (s.owner.head? = some .dispatch → s.list ≠ [] →
      ∃ t ≠ s._threadID, Between (s.stack t)) := by
  simp only [WakesUp, h.not_readable, false_or]

variable [DecidableEq τ] {s s' : WakeSys κ τ} {t t' : τ} {choice : Choice κ}

lemma inv_init (mem : ℕ → ℕ) (owner : τ) : (init fds mem owner).Inv fds := by
  refine ⟨rfl, rfl, fun t f hf => ?_⟩
  simp only [init] at hf
  split_ifs at hf <;> simp at hf

@[simp] lemma goto_list {k : List (Frame κ)} : (s.goto t k).list = s.list := rfl

@[simp] lemma goto_stack_self {k : List (Frame κ)} : (s.goto t k).stack t = k := by simp [goto]

lemma goto_stack_of_ne {k : List (Frame κ)} (h : t' ≠ t) : (s.goto t k).stack t' = s.stack t' := by
  simp [goto, h]

omit [DecidableEq τ] in
lemma ActivateEvent_eq {r : ℕ × Event} {f : Frame κ} (h : s.ActivateEvent fds r = some f) :
    f = .readLocalMessage ∨ f = .callback := by
  unfold ActivateEvent at h
  split at h
  · cases h
  · split_ifs at h
    · exact Or.inl (Option.some.inj h).symm
    · exact Or.inr (Option.some.inj h).symm

variable (fds) in
/-- What a thread makes of its calls and of the rest of the state. -/
inductive Moves (s : WakeSys κ τ) (t : τ) :
    List (Frame κ) → WakeSys κ τ → List (Frame κ) → Prop
  | AddTaskEventLoop (node : ChannelEvent κ) : Moves s t [] s [.AddTaskEventLoop node]
  | RunEventLoop : Moves s t [] s [.RunEventLoop]
  | AddTaskWithin (node : ChannelEvent κ) (k : List (Frame κ)) :
    Moves s t (.callback :: k) s (.AddTaskEventLoop node :: .callback :: k)
  | returns (k : List (Frame κ)) : Moves s t (.callback :: k) s k
  | push (node : ChannelEvent κ) (k : List (Frame κ)) :
    Moves s t (.AddTaskEventLoop node :: k) { s with list := s.list ++ [node] } (.pushed :: k)
  | pushedAtHome (k : List (Frame κ)) (h : t = s._threadID) :
    Moves s t (.pushed :: k) s (.processTaskEventLoop :: k)
  | pushedAbroad (k : List (Frame κ)) (h : t ≠ s._threadID) :
    Moves s t (.pushed :: k) s (.taskWakeUp :: k)
  | taskWakeUp (k : List (Frame κ)) : Moves s t (.taskWakeUp :: k) s.taskWakeUp k
  | locks (k : List (Frame κ)) :
    Moves s t (.processTaskEventLoop :: k) { s with _mutex := some t } (.nodes s.list :: k)
  | unlocks (k : List (Frame κ)) :
    Moves s t (.nodes [] :: k) { s with list := [], _mutex := none } k
  | node (node : ChannelEvent κ) (rest : List (ChannelEvent κ)) (k : List (Frame κ))
      (_events : Mask) (mem : ℕ → ℕ) (frees : Bool) :
    Moves s t (.nodes (node :: rest) :: k)
      { s with loop := processNode fds node _events mem frees s.loop }
      (afterNode fds node s.loop (.nodes rest :: k))
  | runAtHome (k : List (Frame κ)) (h : t = s._threadID) :
    Moves s t (.RunEventLoop :: k) s (.loop :: k)
  | runAbroad (k : List (Frame κ)) (h : t ≠ s._threadID) : Moves s t (.RunEventLoop :: k) s k
  | quits (k : List (Frame κ)) (h : s._isQuite = true) : Moves s t (.loop :: k) s k
  | waits (k : List (Frame κ)) (h : s._isQuite = false) :
    Moves s t (.loop :: k) s (.dispatch :: .processTaskEventLoop :: .loop :: k)
  | ready (active : List (ℕ × Event)) (k : List (Frame κ)) :
    Moves s t (.dispatch :: k) s (.active active :: k)
  | noneLeft (k : List (Frame κ)) : Moves s t (.active [] :: k) s k
  | ActivateEvent (r : ℕ × Event) (rs : List (ℕ × Event)) (k : List (Frame κ)) (call : Frame κ)
      (h : call = .readLocalMessage ∨ call = .callback) :
    Moves s t (.active (r :: rs) :: k) s (call :: .active rs :: k)
  | readLocalMessage (k : List (Frame κ)) :
    Moves s t (.readLocalMessage :: k) s.readLocalMessage k

lemma step_moves (hstep : s.step fds (t, choice) = some s') :
    ∃ r k, Moves fds s t (s.stack t) r k ∧ s' = r.goto t k := by
  simp only [step] at hstep
  split at hstep
  all_goals try rename s.stack t = _ => hstack
  all_goals try rw [hstack]
  all_goals try split at hstep
  all_goals first
    | cases hstep
      done
    | obtain ⟨call, hcall, rfl⟩ := Option.map_eq_some_iff.mp hstep
      exact ⟨_, _, .ActivateEvent _ _ _ _ (ActivateEvent_eq hcall), rfl⟩
    | obtain rfl := Option.some.inj hstep
  · exact ⟨_, _, .AddTaskEventLoop _, rfl⟩
  · exact ⟨_, _, .RunEventLoop, rfl⟩
  · exact ⟨_, _, .AddTaskWithin _ _, rfl⟩
  · exact ⟨_, _, .returns _, rfl⟩
  · exact ⟨_, _, .push _ _, rfl⟩
  · exact ⟨_, _, .pushedAtHome _ ‹_›, rfl⟩
  · exact ⟨_, _, .pushedAbroad _ ‹_›, rfl⟩
  · exact ⟨_, _, .taskWakeUp _, rfl⟩
  · exact ⟨_, _, .locks _, rfl⟩
  · exact ⟨_, _, .unlocks _, rfl⟩
  · exact ⟨_, _, .node _ _ _ _ _ _, rfl⟩
  · exact ⟨_, _, .runAtHome _ ‹_›, rfl⟩
  · exact ⟨_, _, .runAbroad _ ‹_›, rfl⟩
  · exact ⟨_, _, .quits _ ‹_›, rfl⟩
  · exact ⟨_, _, .waits _ (Bool.eq_false_iff.mpr ‹_›), rfl⟩
  · exact ⟨_, _, .ready _ _, rfl⟩
  · exact ⟨_, _, .noneLeft _, rfl⟩
  · exact ⟨_, _, .readLocalMessage _, rfl⟩

section Moves

variable {r : WakeSys κ τ} {k k' : List (Frame κ)}

omit [DecidableEq τ]

/-- Neither makes the first endpoint readable nor registers the second. -/
lemma Moves.keeps (hm : Moves fds s t k r k') :
    r._threadID = s._threadID ∧ r.stack = s.stack ∧ r.sockets .first = s.sockets .first ∧
      r.loop.disepatherData.epoll (fds.socketpair .second) =
        s.loop.disepatherData.epoll (fds.socketpair .second) := by
  cases hm with
  | node => exact ⟨rfl, rfl, rfl, processNode_epoll _ _ _ _ _ (fds.apart _).symm⟩
  | _ => exact ⟨rfl, rfl, rfl, rfl⟩

/-- What a thread can go back to, it goes back to. -/
lemma Moves.callers (hm : Moves fds s t k r k') (h : ∀ f ∈ k.tail, Caller f) :
    ∀ f ∈ k'.tail, Caller f := by
  cases hm
  all_goals try unfold afterNode
  all_goals try split
  all_goals first
    | exact fun f hf => h f (List.mem_of_mem_tail hf)
    | exact h
    | simpa [Caller] using h

/-- The list grows by a push only. -/
lemma Moves.list (hm : Moves fds s t k r k') :
    r.list = s.list ∨ r.list = [] ∨ k'.head? = some .pushed := by
  cases hm with
  | push => exact Or.inr (Or.inr rfl)
  | unlocks => exact Or.inr (Or.inl rfl)
  | _ => exact Or.inl rfl

/-- Only the test of `_isQuite` leads to the wait. -/
lemma Moves.dispatch (hm : Moves fds s t k r k') (h : ∀ f ∈ k.tail, Caller f)
    (hwait : k'.head? = some .dispatch) :
    k.head? = some .loop ∧ s._isQuite = false ∧ r.list = s.list := by
  have hback : ∀ k : List (Frame κ), (∀ f ∈ k, Caller f) → k.head? ≠ some .dispatch :=
    fun k hk hhead => (hk _ (List.mem_of_head? hhead)).1 rfl
  cases hm with
  | waits _ hquit => exact ⟨rfl, hquit, rfl⟩
  | node =>
    unfold afterNode at hwait
    split_ifs at hwait <;> cases hwait
  | ActivateEvent _ _ _ _ hcall => rcases hcall with rfl | rfl <;> cases hwait
  | _ =>
    first
      | cases hwait
      | exact absurd hwait (hback _ h)

/-- Only its `taskWakeUp` takes a thread out of the time between. -/
lemma Moves.between (hm : Moves fds s t k r k') (ht : t ≠ s._threadID) (hb : Between k) :
    Between k' ∨ k.head? = some .taskWakeUp := by
  rcases hb with hb | hb
  · left
    cases hm with
    | pushedAtHome _ hto => exact absurd hto ht
    | pushedAbroad => exact Or.inr rfl
    | _ => cases hb
  · exact Or.inr hb

end Moves

/-- A step changes the calls of its own thread only, and neither makes the first endpoint readable
nor registers the second. -/
lemma step_keeps (hstep : s.step fds (t, choice) = some s') :
    s'._threadID = s._threadID ∧ (∀ t' ≠ t, s'.stack t' = s.stack t') ∧
      s'.sockets .first = s.sockets .first ∧
      s'.loop.disepatherData.epoll (fds.socketpair .second) =
        s.loop.disepatherData.epoll (fds.socketpair .second) := by
  obtain ⟨r, k, hm, rfl⟩ := step_moves hstep
  obtain ⟨hid, hstack, hkeeps⟩ := hm.keeps
  exact ⟨hid, fun t' ht => (goto_stack_of_ne ht).trans (congrFun hstack t'), hkeeps⟩

lemma Inv.step (h : s.Inv fds) (hstep : s.step fds (t, choice) = some s') : s'.Inv fds := by
  obtain ⟨-, hothers, hfirst, hsecond⟩ := step_keeps hstep
  refine ⟨hfirst.trans h.first, hsecond.trans h.second, fun t' => ?_⟩
  by_cases ht : t' = t
  · obtain ⟨r, k, hm, rfl⟩ := step_moves hstep
    rw [ht, goto_stack_self]
    exact hm.callers (h.callers t)
  · rw [hothers t' ht]
    exact h.callers t'

/-! ### Runs -/

/-- **A step in time** leaves a thread to wake the loop up. -/
lemma Inv.wakesUp_step (h : s.Inv fds) (hw : s.WakesUp fds)
    (hstep : s.step fds (t, choice) = some s') (hG : s.InTime (t, choice)) : s'.WakesUp fds := by
  obtain ⟨hid, hothers, -, -⟩ := step_keeps hstep
  rw [(h.step hstep).wakesUp_iff_between, hid]
  rw [h.wakesUp_iff_between] at hw
  obtain ⟨r, k, hm, rfl⟩ := step_moves hstep
  intro hwait hlist
  rw [owner, hid] at hwait
  -- a producer other than `t` goes on to be one
  have hstays : s.Producer t → ∃ t' ≠ s._threadID, Between ((r.goto t k).stack t') := by
    rintro ⟨t', hown, ht, hb⟩
    exact ⟨t', hown, (hothers t' ht).symm ▸ hb⟩
  by_cases hown : t = s._threadID
  · -- the loop comes to block
    rw [← hown, goto_stack_self] at hwait
    obtain ⟨hhead, hquit, hsame⟩ := hm.dispatch (h.callers t) hwait
    rw [goto_list, hsame] at hlist
    simp only [InTime, hhead] at hG
    exact hstays (hG hown hquit hlist)
  · rw [hothers _ (Ne.symm hown)] at hwait
    by_cases hb : Between k
    · exact ⟨t, hown, by rwa [goto_stack_self]⟩
    have hsame : r.list = s.list := by
      rcases hm.list with hl | hl | hl
      · exact hl
      · exact absurd hl hlist
      · exact absurd (Or.inl hl) hb
    rw [goto_list, hsame] at hlist
    by_cases hhead : (s.stack t).head? = some .taskWakeUp
    · simp only [InTime, hhead] at hG
      exact hstays (hG hwait hlist)
    · obtain ⟨t', hown', hb'⟩ := hw hwait hlist
      by_cases ht : t' = t
      · rw [ht] at hb'
        exact absurd ((hm.between hown hb').resolve_right hhead) hb
      · exact hstays ⟨t', hown', ht, hb'⟩

/-- **A step out of time** leaves the loop to its timeout. -/
lemma Inv.not_wakesUp_step (h : s.Inv fds) (hstep : s.step fds (t, choice) = some s')
    (hG : ¬ s.InTime (t, choice)) : ¬ s'.WakesUp fds := by
  obtain ⟨hid, hothers, -, -⟩ := step_keeps hstep
  have hnone : ¬ s.Producer t → ¬ Between (s'.stack t) ∨ t = s._threadID →
      ¬ ∃ t ≠ s._threadID, Between (s'.stack t) := by
    rintro hno hself ⟨t', hown, hb⟩
    by_cases ht : t' = t
    · subst ht
      exact hself.elim (fun hn => hn hb) hown
    · exact hno ⟨t', hown, ht, (hothers t' ht) ▸ hb⟩
  rw [(h.step hstep).wakesUp_iff_between, hid]
  have hcallers := h.callers t
  obtain ⟨r, k', hm, rfl⟩ := step_moves hstep
  rcases hk : s.stack t with _ | ⟨f, k⟩
  · simp [InTime, hk] at hG
  rw [hk] at hm hcallers
  by_cases hwake : f = .taskWakeUp
  · -- the last wake-up is written to the wrong end
    subst hwake
    simp only [InTime, hk, List.head?_cons, Classical.not_imp] at hG
    obtain ⟨hwait, hlist, hno⟩ := hG
    have hown : t ≠ s._threadID := by
      rintro rfl
      rw [owner, hk] at hwait
      cases hwait
    cases hm with
    | taskWakeUp _ =>
      have hwait' : (s.taskWakeUp.goto t k').owner.head? = some .dispatch := by
        rw [owner, hid, hothers _ (Ne.symm hown)]
        exact hwait
      have hb : ¬ Between k' := by
        rintro (hb | hb)
        · exact (hcallers _ (List.mem_of_head? hb)).2.1 rfl
        · exact (hcallers _ (List.mem_of_head? hb)).2.2 rfl
      exact fun hw => hnone hno (Or.inl (by rwa [goto_stack_self])) (hw hwait' hlist)
  · have hloop : f = .loop := by
      by_contra hne
      refine hG ?_
      simp only [InTime, hk, List.head?_cons]
      split
      · exact absurd (Option.some.inj ‹_›) hwake
      · exact absurd (Option.some.inj ‹_›) hne
      · trivial
    -- the loop goes to block with a task left
    subst hloop
    simp only [InTime, hk, List.head?_cons, Classical.not_imp] at hG
    obtain ⟨hown, hquit, hlist, hno⟩ := hG
    cases hm with
    | quits _ htrue => exact absurd (htrue.symm.trans hquit) (by simp)
    | waits =>
      refine fun hw => hnone hno (Or.inr hown) (hw ?_ hlist)
      rw [owner, hid, ← hown, goto_stack_self]
      rfl

/-- **When the loop is woken up.** In a run of any threads that add tasks and of the loop's own,
the loop never comes to block with tasks in its list without being woken up, if and only if every
step is in time. -/
theorem wakesUp_iff {mem : ℕ → ℕ} {owner : τ} {run : List ((τ × Choice κ) × WakeSys κ τ)}
    (hrun : Chain (Step fds) (init fds mem owner) run) :
    Always (WakesUp fds) (init fds mem owner) run ↔
      Chain (fun s a _ => s.InTime a) (init fds mem owner) run := by
  have h0 : (init fds mem owner).Inv fds ∧ (init fds mem owner).WakesUp fds := by
    refine ⟨inv_init mem owner, fun hwait => ?_⟩
    simp [WakeSys.owner, init] at hwait
  refine always_iff_of_inv (fun s (h : Inv fds s ∧ WakesUp fds s) => ?_)
    (fun s a s' h hstep hG => ?_) (fun s a s' h hstep hG => ?_) h0 hrun
  · exact h.2
  · exact ⟨h.1.step hstep, h.1.wakesUp_step h.2 hstep hG⟩
  · exact h.1.not_wakesUp_step hstep hG

lemma someFds_ptr_ne (b : Bool) : (if b then 200 else 100) ≠ NULL := by
  cases b <;> decide

/-- A loop with its socket pair on the descriptors 3 and 4, and one channel more, on 7. -/
def someFds : LoopFds Bool where
  ptr b := if b then 200 else 100
  ptr_ne := someFds_ptr_ne
  _fd b := if b then 7 else 3
  socketpair
    | .first => 3
    | .second => 4
  wake := false
  wake_fd := rfl
  apart b := by cases b <;> decide

/-- The loop is made and comes to block for the first time. -/
def untilBlocked : List (Bool × Choice Bool) :=
  [(true, .go), (true, .go), (true, .go), (true, .node FDevent.readevent (fun _ => 0) false),
    (true, .go), (true, .RunEventLoop), (true, .go), (true, .go)]

/-- Another thread pushes while the loop is blocked, and writes when its wait has ended. -/
def lateWakeUp : List (Bool × Choice Bool) :=
  untilBlocked ++ [(false, .AddTaskEventLoop ⟨.ADD, true⟩), (false, .go), (false, .go),
    (true, .ready []), (false, .go)]

/-- The wake-up comes after the wait has ended by itself. -/
theorem wakesUp_iff_late :
    let s₀ : WakeSys Bool Bool := init someFds (fun _ => NULL) true
    Always (WakesUp someFds) s₀ (walk (step someFds) s₀ lateWakeUp) := by
  intro s₀
  have hrun : Chain (Step someFds) s₀ (walk (step someFds) s₀ lateWakeUp) :=
    chain_walk (step someFds) s₀ lateWakeUp
  refine (wakesUp_iff hrun).mpr ?_
  refine ⟨trivial, trivial, trivial, trivial, trivial, trivial, trivial, ?_, trivial, trivial,
    trivial, trivial, ?_, trivial⟩
  · exact fun _ _ hl => absurd rfl hl
  · exact fun hwait => nomatch hwait

/-- Another thread pushes and writes while the loop is blocked: nothing registered becomes
readable. -/
theorem not_wakesUp :
    let s₀ : WakeSys Bool Bool := init someFds (fun _ => NULL) true
    let run := walk (step someFds) s₀ (untilBlocked ++
      [(false, .AddTaskEventLoop ⟨.ADD, true⟩), (false, .go), (false, .go), (false, .go)])
    Chain (Step someFds) s₀ run ∧ ¬ Always (WakesUp someFds) s₀ run := by
  intro s₀ run
  have hrun : Chain (Step someFds) s₀ run := chain_walk (step someFds) s₀ _
  refine ⟨hrun, fun h => ?_⟩
  have hinv : Always (Inv someFds) s₀ run :=
    always_of_inv (fun _ _ _ h hstep => h.step hstep) (inv_init _ _) hrun
  have hlen : run.length = 12 := rfl
  have hmem : run[11] ∈ run := List.getElem_mem _
  obtain ⟨t, hown, hb⟩ :=
    (hinv.2 _ hmem).wakesUp_iff_between.mp (h.2 _ hmem) rfl (fun hl => nomatch hl)
  cases t
  · rcases hb with hb | hb <;> cases hb
  · exact hown rfl

end WakeSys

end Reactor.HttpC
