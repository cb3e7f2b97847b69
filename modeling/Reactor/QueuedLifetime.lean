import Reactor.LifetimeSteps

/-!
Whether the functors that `send` and `shutdown` queue find their connection alive.

They are bound to `this`, where `writeCompleteCallback_` is bound to `shared_from_this()` and
`connectDestroy` to the connection's pointer. So a connection can be deleted while one of them
is queued: exactly when a step lets go of the last pointer to it meanwhile. A pointer moves
from the table to a functor, from one list of functors to the next, and is let go of at six
places only.
-/

namespace Reactor

open Lib.Trace

/-- The loop that the holder belongs to. -/
def Holder.loop : Holder → Option LoopId
  | .batch t => some t
  | .pending t => some t
  | .guard t => some t
  | _ => none

namespace Lifetime

variable {conf : ServerConf} {s s' : Lifetime} {c : ConnId}

/-- What the step lets go of that may hold the connection: the functors a loop has run, those
of a loop that leaves, the entry that `~TcpServer` comes to, the guard of `handleEvent`, a
pointer of the user, or that of a call that returns. -/
def Releases (c : ConnId) (s : Lifetime) : LifeAct → Holder → Prop
  | .server (.endBatch t), h => h = .batch t
  | .server (.check t), h => (s.sys.loops t).quit_ = true ∧ (h = .batch t ∨ h = .pending t)
  | .server (.destroyNext e onDown), h => s.sys.Erases c (.destroyNext e onDown) ∧ h = .table
  | .unguard t, h => h = .guard t
  | .drop d, h => d = c ∧ s.user c = 1 ∧ h = .user
  | .ret t, h => h = .call t
  | _, _ => False

instance (c : ConnId) (s : Lifetime) (a : LifeAct) (h : Holder) :
    Decidable (s.Releases c a h) := by
  unfold Releases
  split <;> infer_instance

/-- The step ends the loop `t`. -/
def Ends (t : LoopId) (s : Lifetime) : LifeAct → Prop
  | .server (.check i) => i = t ∧ (s.sys.loops t).quit_ = true
  | _ => False

instance (t : LoopId) (s : Lifetime) (a : LifeAct) : Decidable (s.Ends t a) := by
  unfold Ends
  split <;> infer_instance

/-- A functor of `send` or `shutdown` on the connection is queued, on a loop that the step
does not end. -/
def Awaited (c : ConnId) (s : Lifetime) (a : LifeAct) : Prop :=
  ∃ t ∈ s.sys.loopIds, ((s.sys.loops t).pc ≠ .returned ∧ ¬ s.Ends t a) ∧
    ∃ f ∈ (s.sys.loops t).jobs, f.conn = c ∧ f.owns = false

instance (c : ConnId) (s : Lifetime) (a : LifeAct) : Decidable (s.Awaited c a) :=
  inferInstanceAs (Decidable (∃ t ∈ s.sys.loopIds, (_ ∧ ¬ _) ∧ ∃ f ∈ (s.sys.loops t).jobs, _))

/-- **The condition.** While a functor of `send` or `shutdown` is queued, the step leaves a
pointer to its connection to someone who had one. -/
def Spares (s : Lifetime) (a : LifeAct) : Prop :=
  ∀ c < s.sys.nextConnId_, s.Awaited c a → ∃ h ∈ s.holders, s.Holds c h ∧ ¬ s.Releases c a h

instance (s : Lifetime) (a : LifeAct) : Decidable (s.Spares a) :=
  inferInstanceAs (Decidable (∀ c < s.sys.nextConnId_, _ → ∃ h ∈ s.holders, _))

/-- **The property.** A functor of `send` or `shutdown` that a loop runs finds its connection
held, and not deleted. -/
def RunsHeld (s : Lifetime) : LifeAct → Prop
  | .server (.functor t _) => ∀ f ∈ (s.sys.loops t).pc.batch.take 1, f.owns = false →
      s.Owned f.conn ∧ s.deleted f.conn = false
  | _ => True

instance (s : Lifetime) (a : LifeAct) : Decidable (s.RunsHeld a) := by
  unfold RunsHeld
  split <;> infer_instance

/-- No functor of `send` or `shutdown` is queued on a connection that is deleted. -/
def Sound (s : Lifetime) : Prop :=
  ∀ t, (s.sys.loops t).pc ≠ .returned → ∀ f ∈ (s.sys.loops t).jobs, f.owns = false →
    s.deleted f.conn = false

/-! ### Pointers that move -/

/-- A holder in a loop is among the holders of a state when a connection is on the loop. -/
lemma mem_holders_loop {h : Holder} {t : LoopId} (hl : h.loop = some t) :
    h ∈ s.holders ↔ t ∈ s.sys.loopIds := by
  cases h <;> cases hl <;> simp [holders]

/-- Who holds a connection is found among the holders. -/
lemma Holds.owned {h : Holder} (hh : s'.Holds c h) (hmem : h ∈ s.holders)
    (hloops : s.sys.Later s'.sys) : s'.Owned c := by
  refine ⟨h, ?_, hh⟩
  have hin : ∀ {t}, h.loop = some t → h ∈ s'.holders := fun hl =>
    (mem_holders_loop hl).mpr (hloops.loopIds ((mem_holders_loop hl).mp hmem))
  cases h with
  | table | user => simp [holders]
  | call t =>
      obtain ⟨k, hk, rfl, -⟩ := hh
      simpa [holders] using ⟨k, hk, rfl⟩
  | batch t | pending t | guard t => exact hin rfl

lemma owned_of_loop {h : Holder} {t : LoopId} (hh : s.Holds c h) (hl : h.loop = some t)
    (ht : t ∈ s.sys.loopIds) : s.Owned c := ⟨h, (mem_holders_loop hl).mpr ht, hh⟩

lemma Binds.mono {fs fs' : List Functor} (h : Binds c fs) (hsub : fs ⊆ fs') : Binds c fs' := by
  obtain ⟨f, hf, hb⟩ := h
  exact ⟨f, hsub hf, hb⟩

/-- The functors run stay with the batch. -/
lemma Holds.batch_onward {t : LoopId} {taken : List Functor} (h : s.Holds c (.batch t))
    (ho : s.sys.Onward t taken s'.sys) (hran : s'.ran t = s.ran t ++ taken) :
    s'.Holds c (.batch t) := by
  refine ⟨mt ho.returned.mp h.1, h.2.mono fun f hf => ?_⟩
  rw [batch, hran, List.append_assoc]
  rcases List.mem_append.mp hf with hf | hf
  · exact List.mem_append_left _ hf
  · exact List.mem_append_right _ (ho.batch hf)

/-- What was pending is pending, or in the batch. -/
lemma Holds.pending_onward {t : LoopId} {taken : List Functor} (h : s.Holds c (.pending t))
    (ho : s.sys.Onward t taken s'.sys) : s'.Holds c (.batch t) ∨ s'.Holds c (.pending t) := by
  obtain ⟨hret, f, hf, hb⟩ := h
  rcases List.mem_append.mp (ho.pending hf) with hf | hf
  · exact Or.inl ⟨mt ho.returned.mp hret, f, List.mem_append_right _ hf, hb⟩
  · exact Or.inr ⟨mt ho.returned.mp hret, f, hf, hb⟩

/-! ### Steps of the server -/

@[simp] lemma note_sys (a : ServerAct) (sys : ServerSys) (s : Lifetime) :
    (s.note a sys).sys = sys := by
  cases a <;> rfl

@[simp] lemma note_user (a : ServerAct) (sys : ServerSys) (s : Lifetime) :
    (s.note a sys).user = s.user := by
  cases a <;> rfl

@[simp] lemma note_calls (a : ServerAct) (sys : ServerSys) (s : Lifetime) :
    (s.note a sys).calls = s.calls := by
  cases a <;> rfl

@[simp] lemma note_deleted (a : ServerAct) (sys : ServerSys) (s : Lifetime) :
    (s.note a sys).deleted = s.deleted := by
  cases a <;> rfl

/-- The functor a loop takes from its batch joins those it has run. -/
lemma note_ran {a : ServerAct} {t : LoopId} (sys : ServerSys) (h : a ≠ .endBatch t) :
    (s.note a sys).ran t = s.ran t ++ s.sys.takenBy a t := by
  cases a with
  | functor i env =>
      rcases eq_or_ne t i with rfl | hi
      · simp [note, ServerSys.takenBy]
      · simp [note, ServerSys.takenBy, hi, hi.symm]
  | endBatch i =>
      have hi : t ≠ i := fun he => h (he ▸ rfl)
      simp [note, ServerSys.takenBy, hi]
  | _ => simp [note, ServerSys.takenBy]

lemma note_guard {a : ServerAct} {t : LoopId} (sys : ServerSys)
    (h : ∀ env, a ≠ .handle t env) : (s.note a sys).guard t = s.guard t := by
  cases a with
  | handle i env =>
      have hi : t ≠ i := fun he => h env (he ▸ rfl)
      simp [note, hi]
  | _ => rfl

/-- Nothing is guarded in a thread that goes on in its loop. -/
lemma May.guard {t : LoopId} {env : EventEnv} (h : s.May (.handle t env)) : s.guard t = none :=
  h.2

variable (conf) in
/-- **What holds as long as every step meets the condition.** -/
structure Inv (s : Lifetime) : Prop where
  placed : s.sys.Placed
  registered : s.sys.Registered conf
  phased : s.sys.Phased
  held : ∀ c, s.Alive c → s.Owned c
  calls : ∀ k ∈ s.calls, s.Alive k.conn
  sound : s.Sound

/-- **A pointer that a step of the server does not let go of** is held after it, by its holder
or by the one it moved to. -/
theorem Inv.owned_server {a : ServerAct} {sys : ServerSys} {h : Holder} (hi : s.Inv conf)
    (hmay : s.May a) (ht : ServerSys.Trans conf s.sys a sys) (hc : s.Alive c)
    (hmem : h ∈ s.holders) (hh : s.Holds c h) (hrel : ¬ s.Releases c (.server a) h) :
    (s.note a sys).Owned c := by
  have hloops : s.sys.Later (s.note a sys).sys := by
    rw [note_sys]
    exact ht.later
  have htin : ∀ {t}, h.loop = some t → t ∈ (s.note a sys).sys.loopIds := fun hl =>
    hloops.loopIds ((mem_holders_loop hl).mp hmem)
  cases h with
  | table =>
      rcases ht.held hi.placed hi.registered hi.phased hc.1 hh with hheld | hdoom | hguard | herase
      · refine Holds.owned (h := .table) ?_ hmem hloops
        rw [Holds, note_sys]
        exact hheld
      · obtain ⟨t, htl, hret, hpend⟩ := hdoom
        refine owned_of_loop (h := .pending t) ?_ rfl (by rwa [note_sys])
        rw [Holds, note_sys]
        exact ⟨hret, _, hpend, rfl, rfl⟩
      · obtain ⟨t, env, active, rfl, hpc⟩ := hguard
        obtain ⟨-, hloopc⟩ := hi.placed.report hpc
        refine owned_of_loop (h := .guard t) ?_ rfl (hloops.loopIds (hloopc ▸ hc.1.loop_mem))
        simp [Holds, note, lock, LoopThread.active, hpc, ThreadPc.active, hc]
      · refine absurd ?_ hrel
        cases a with
        | destroyNext e onDown => exact ⟨herase, rfl⟩
        | _ => exact herase.elim
  | batch t =>
      have hne : a ≠ .endBatch t := by
        rintro rfl
        exact hrel rfl
      have ho : s.sys.Onward t (s.sys.takenBy a t) (s.note a sys).sys := by
        rw [note_sys]
        refine ht.onward ?_
        rintro rfl
        exact Bool.eq_false_iff.mpr fun hq => hrel ⟨hq, Or.inl rfl⟩
      exact owned_of_loop (hh.batch_onward ho (note_ran sys hne)) rfl (htin rfl)
  | pending t =>
      have ho : s.sys.Onward t (s.sys.takenBy a t) (s.note a sys).sys := by
        rw [note_sys]
        refine ht.onward ?_
        rintro rfl
        exact Bool.eq_false_iff.mpr fun hq => hrel ⟨hq, Or.inr rfl⟩
      rcases hh.pending_onward ho with hh | hh
      · exact owned_of_loop hh rfl (htin rfl)
      · exact owned_of_loop hh rfl (htin rfl)
  | guard t =>
      have hne : ∀ env, a ≠ .handle t env := by
        rintro env rfl
        rw [Holds, hmay.guard] at hh
        cases hh
      refine Holds.owned (h := .guard t) ?_ hmem hloops
      rw [Holds, note_guard sys hne]
      exact hh
  | user =>
      refine Holds.owned (h := .user) ?_ hmem hloops
      rw [Holds, note_user]
      exact hh
  | call t =>
      refine Holds.owned (h := .call t) ?_ hmem hloops
      rw [Holds, note_calls]
      exact hh

/-! ### The other steps -/

/-- A call goes on, and its step loses no functor and no entry. -/
lemma owned_advance {t : LoopId} {pc : MethodPc} {sys : ServerSys} {h : Holder}
    (hloops : s.sys.Later sys) (hon : ∀ i, s.sys.Onward i [] sys)
    (hheld : s.sys.Held c → sys.Held c) (hmem : h ∈ s.holders) (hh : s.Holds c h) :
    (advance t pc { s with sys := sys }).Owned c := by
  have hran : ∀ i, s.ran i = s.ran i ++ [] := fun i => (List.append_nil _).symm
  have htin : ∀ {i}, h.loop = some i → i ∈ sys.loopIds := fun hl =>
    hloops.loopIds ((mem_holders_loop hl).mp hmem)
  cases h with
  | table => exact Holds.owned (h := .table) (hheld hh) hmem hloops
  | batch i =>
      have hb : (advance t pc { s with sys := sys }).Holds c (.batch i) :=
        hh.batch_onward (hon i) (hran i)
      exact owned_of_loop hb rfl (htin rfl)
  | pending i =>
      have hp : (advance t pc { s with sys := sys }).Holds c (.batch i) ∨
          (advance t pc { s with sys := sys }).Holds c (.pending i) := hh.pending_onward (hon i)
      rcases hp with hp | hp
      · exact owned_of_loop hp rfl (htin rfl)
      · exact owned_of_loop hp rfl (htin rfl)
  | guard i => exact Holds.owned (h := .guard i) hh hmem hloops
  | user => exact Holds.owned (h := .user) hh hmem hloops
  | call i =>
      obtain ⟨k, hk, htid, hconn⟩ := hh
      refine Holds.owned (h := .call i) ⟨_, List.mem_map_of_mem hk, ?_, ?_⟩ hmem hloops
      · split_ifs <;> exact htid
      · split_ifs <;> exact hconn

/-- A call that the thread is in, and where. -/
lemma callOf_mem {t : LoopId} {k : OffCall} (h : s.callOf t = some k) :
    k ∈ s.calls ∧ k.tid = t :=
  ⟨List.mem_of_find?_eq_some h, by simpa using List.find?_some h⟩

/-- The store of `shutdown`. -/
lemma frame_store (x : Ctx) :
    x.Frame ((x.log .shutdown).setState .kDisconnectiong) :=
  (Ctx.primitive_frame x).setState _ ((Ctx.primitive_frame x).log _ (.refl x))

/-- **A pointer that a step does not let go of is held after it.** -/
theorem Inv.owned_act {a : LifeAct} {h : Holder} (hi : s.Inv conf) (hact : s.act conf a = some s')
    (hc : s.Alive c) (hmem : h ∈ s.holders) (hh : s.Holds c h) (hrel : ¬ s.Releases c a h) :
    s'.Owned c := by
  have hsame : ∀ {u : Lifetime}, u.sys = s.sys → s.sys.Later u.sys := fun hu =>
    .of_eq (by rw [hu]) (by rw [hu]) (by rw [hu])
  cases a with
  | server a =>
      simp only [act, Option.ite_none_right_eq_some, Option.map_eq_some_iff] at hact
      obtain ⟨hmay, sys, hsys, rfl⟩ := hact
      exact hi.owned_server hmay (ServerSys.Step.trans hsys) hc hmem hh hrel
  | unguard t =>
      simp only [act, Option.ite_none_right_eq_some, Option.some.injEq] at hact
      obtain ⟨-, rfl⟩ := hact
      refine Holds.owned (h := h) ?_ hmem (hsame rfl)
      cases h with
      | guard i =>
          have hne : i ≠ t := by
            rintro rfl
            exact hrel rfl
          exact (Function.update_of_ne hne ..).trans hh
      | table | batch | pending | user | call => exact hh
  | copy d =>
      simp only [act, Option.ite_none_right_eq_some, Option.some.injEq] at hact
      obtain ⟨-, rfl⟩ := hact
      refine Holds.owned (h := h) ?_ hmem (hsame rfl)
      cases h with
      | user =>
          rcases eq_or_ne c d with rfl | hne
          · simp [Holds]
          · simpa [Holds, hne] using hh
      | table | batch | pending | guard | call => exact hh
  | drop d =>
      simp only [act, Option.ite_none_right_eq_some, Option.some.injEq] at hact
      obtain ⟨-, rfl⟩ := hact
      refine Holds.owned (h := h) ?_ hmem (hsame rfl)
      cases h with
      | user =>
          rcases eq_or_ne c d with rfl | hne
          · have hpos : 0 < s.user c := hh
            have hlast : s.user c ≠ 1 := fun he => hrel ⟨rfl, he, rfl⟩
            simp only [Holds, Function.update_self]
            omega
          · simpa [Holds, hne] using hh
      | table | batch | pending | guard | call => exact hh
  | call t d method =>
      simp only [act, Option.ite_none_right_eq_some] at hact
      obtain ⟨-, hact⟩ := hact
      split_ifs at hact <;> obtain rfl := Option.some.inj hact
      · refine Holds.owned (h := h) ?_ hmem (hsame rfl)
        cases h with
        | call i =>
            obtain ⟨k, hk, hkc⟩ := hh
            exact ⟨k, List.mem_cons_of_mem _ hk, hkc⟩
        | table | batch | pending | guard | user => exact hh
      · exact ⟨h, hmem, hh⟩
  | store t =>
      simp only [act] at hact
      split at hact
      · obtain rfl := Option.some.inj hact
        refine owned_advance (ServerSys.later_withConn (frame_store _))
          (fun i => (ServerSys.applied_withConn (frame_store _)).onward) (fun hheld => ?_) hmem hh
        exact hheld.of_entries (ServerSys.entries_withConn (frame_store _)
          (by exact List.not_mem_nil))
      · cases hact
  | queue t =>
      simp only [act] at hact
      split at hact
      · obtain rfl := Option.some.inj hact
        exact owned_advance (.of_eq rfl rfl rfl) (fun i => ServerSys.onward_push) id hmem hh
      · cases hact
  | ret t =>
      simp only [act] at hact
      split at hact
      · obtain rfl := Option.some.inj hact
        refine Holds.owned (h := h) ?_ hmem (hsame rfl)
        cases h with
        | call i =>
            obtain ⟨k, hk, rfl, hkc⟩ := hh
            have hne : k.tid ≠ t := by
              rintro rfl
              exact hrel rfl
            exact ⟨k, List.mem_filter.mpr ⟨hk, decide_eq_true hne⟩, rfl, hkc⟩
        | table | batch | pending | guard | user => exact hh
      · cases hact

/-! ### The invariant -/

/-- What a step does to the server: a step of its own, the store or the push of a call, or
nothing. -/
lemma act_sys {a : LifeAct} (hact : s.act conf a = some s') :
    (∃ b, a = .server b ∧ s.May b ∧ ServerSys.Trans conf s.sys b s'.sys) ∨
    (∃ k ∈ s.calls, s'.sys = s.sys.withConn k.conn k.tid
      fun x => (x.log .shutdown).setState .kDisconnectiong) ∨
    (∃ k ∈ s.calls, s'.sys = s.sys.push (s.sys.conn k.conn).loop_ (k.method.functor k.conn) ∧
      ∃ k' ∈ s'.calls, k'.conn = k.conn) ∨
    s'.sys = s.sys := by
  cases a with
  | server b =>
      simp only [act, Option.ite_none_right_eq_some, Option.map_eq_some_iff] at hact
      obtain ⟨hmay, sys, hsys, rfl⟩ := hact
      rw [note_sys]
      exact Or.inl ⟨b, rfl, hmay, ServerSys.Step.trans hsys⟩
  | unguard t | copy d | drop d =>
      simp only [act, Option.ite_none_right_eq_some, Option.some.injEq] at hact
      obtain ⟨-, rfl⟩ := hact
      exact Or.inr (Or.inr (Or.inr rfl))
  | call t d method =>
      simp only [act, Option.ite_none_right_eq_some] at hact
      obtain ⟨-, hact⟩ := hact
      split_ifs at hact <;> obtain rfl := Option.some.inj hact <;>
        exact Or.inr (Or.inr (Or.inr rfl))
  | store t =>
      simp only [act] at hact
      split at hact
      · rename_i hk
        obtain ⟨hmem, rfl⟩ := callOf_mem hk
        obtain rfl := Option.some.inj hact
        exact Or.inr (Or.inl ⟨_, hmem, rfl⟩)
      · cases hact
  | queue t =>
      simp only [act] at hact
      split at hact
      · rename_i hk
        obtain ⟨hmem, rfl⟩ := callOf_mem hk
        obtain rfl := Option.some.inj hact
        refine Or.inr (Or.inr (Or.inl ⟨_, hmem, rfl, _, List.mem_map_of_mem hmem, ?_⟩))
        rw [if_pos rfl]
      · cases hact
  | ret t =>
      simp only [act] at hact
      split at hact
      · obtain rfl := Option.some.inj hact
        exact Or.inr (Or.inr (Or.inr rfl))
      · cases hact

lemma act_deleted {a : LifeAct} (hact : s.act conf a = some s') : s'.deleted = s.deleted := by
  cases a with
  | server b =>
      simp only [act, Option.ite_none_right_eq_some, Option.map_eq_some_iff] at hact
      obtain ⟨-, sys, -, rfl⟩ := hact
      exact note_deleted ..
  | unguard t | copy d | drop d =>
      simp only [act, Option.ite_none_right_eq_some, Option.some.injEq] at hact
      obtain ⟨-, rfl⟩ := hact
      rfl
  | call t d method =>
      simp only [act, Option.ite_none_right_eq_some] at hact
      obtain ⟨-, hact⟩ := hact
      split_ifs at hact <;> obtain rfl := Option.some.inj hact <;> rfl
  | store t | queue t | ret t =>
      simp only [act] at hact
      split at hact
      · obtain rfl := Option.some.inj hact
        rfl
      · cases hact

/-- A call is one that went on before the step, or begins on a connection that is alive. -/
lemma act_calls {a : LifeAct} {k : OffCall} (hact : s.act conf a = some s') (hk : k ∈ s'.calls) :
    (∃ k' ∈ s.calls, k'.conn = k.conn) ∨ s.Alive k.conn := by
  have hmap : ∀ {t pc}, k ∈ (s.calls.map fun k => if k.tid = t then { k with pc := pc } else k) →
      ∃ k' ∈ s.calls, k'.conn = k.conn := by
    intro t pc hk
    obtain ⟨k', hk', rfl⟩ := List.mem_map.mp hk
    refine ⟨k', hk', ?_⟩
    split_ifs <;> rfl
  cases a with
  | server b =>
      simp only [act, Option.ite_none_right_eq_some, Option.map_eq_some_iff] at hact
      obtain ⟨-, sys, -, rfl⟩ := hact
      rw [note_calls] at hk
      exact Or.inl ⟨k, hk, rfl⟩
  | unguard t | copy d | drop d =>
      simp only [act, Option.ite_none_right_eq_some, Option.some.injEq] at hact
      obtain ⟨-, rfl⟩ := hact
      exact Or.inl ⟨k, hk, rfl⟩
  | call t d method =>
      simp only [act, Option.ite_none_right_eq_some] at hact
      obtain ⟨hd, hact⟩ := hact
      split_ifs at hact <;> obtain rfl := Option.some.inj hact
      · rcases List.mem_cons.mp hk with rfl | hk
        · exact Or.inr hd.1
        · exact Or.inl ⟨k, hk, rfl⟩
      · exact Or.inl ⟨k, hk, rfl⟩
  | store t | queue t =>
      simp only [act] at hact
      split at hact
      · obtain rfl := Option.some.inj hact
        exact Or.inl (hmap hk)
      · cases hact
  | ret t =>
      simp only [act] at hact
      split at hact
      · obtain rfl := Option.some.inj hact
        exact Or.inl ⟨k, List.mem_of_mem_filter hk, rfl⟩
      · cases hact

lemma bare_functor (c : ConnId) (method : Method) :
    (method.functor c).conn = c ∧ (method.functor c).owns = false ∧
      ∀ loop, (method.functor c).At loop loop := by
  cases method <;> exact ⟨rfl, rfl, fun _ => rfl⟩

/-- A functor of `send` or `shutdown` is on the loop of its connection. -/
lemma Inv.loop_of_bare {t : LoopId} {f : Functor} (hi : s.Inv conf)
    (hf : f ∈ (s.sys.loops t).jobs) (hbare : f.owns = false) :
    s.sys.Made f.conn ∧ (s.sys.conn f.conn).loop_ = t := by
  obtain ⟨hmade, hat⟩ := hi.placed.jobs t f hf
  refine ⟨hmade, ?_⟩
  cases f <;> first | exact hat.symm | cases hbare

lemma Inv.sys_act {a : LifeAct} (hi : s.Inv conf) (hact : s.act conf a = some s') :
    s'.sys.Placed ∧ s'.sys.Registered conf ∧ s'.sys.Phased ∧ s.sys.Later s'.sys := by
  rcases act_sys hact with ⟨b, -, -, ht⟩ | ⟨k, hk, hsys⟩ | ⟨k, hk, hsys, -⟩ | hsys
  · exact ⟨hi.placed.trans ht, hi.registered.trans ht, hi.phased.trans ht, ht.later⟩
  · have hf := frame_store (s.sys.ctx k.conn k.tid)
    rw [hsys]
    exact ⟨hi.placed.withConn (hi.calls k hk).1 hf,
      (ServerSys.sameTable_withConn hf).registered hi.registered,
      hi.phased.applied (ServerSys.applied_withConn hf), ServerSys.later_withConn hf⟩
  · obtain ⟨hconn, -, hat⟩ := bare_functor k.conn k.method
    rw [hsys]
    refine ⟨hi.placed.push (by rw [hconn]; exact (hi.calls k hk).1) (by rw [hconn]; exact hat _),
      (ServerSys.sameTable_setLoop _ _).registered hi.registered, hi.phased.push _ _,
      .of_eq rfl rfl rfl⟩
  · rw [hsys]
    exact ⟨hi.placed, hi.registered, hi.phased, .of_eq rfl rfl rfl⟩

/-- A functor bound to `this` was queued before the step, or it is of a call that goes on. -/
lemma Inv.bare_act {a : LifeAct} {t : LoopId} {f : Functor} (hi : s.Inv conf)
    (hact : s.act conf a = some s') (hf : f ∈ (s'.sys.loops t).jobs) (hbare : f.owns = false) :
    f ∈ (s.sys.loops t).jobs ∨ ∃ k ∈ s'.calls, k.conn = f.conn := by
  rcases act_sys hact with ⟨b, -, hmay, ht⟩ | ⟨k, hk, hsys⟩ | ⟨k, hk, hsys, hk'⟩ | hsys
  · refine Or.inl (ht.noneBare hi.placed ?_ t f hf hbare)
    rintro i c act rfl
    exact hmay.2.1
  · rw [hsys] at hf
    refine Or.inl (ServerSys.noneBare_withConn (frame_store _) (fun g hg => ?_) t f hf hbare)
    exact absurd hg List.not_mem_nil
  · rw [hsys, ServerSys.jobs_push] at hf
    rcases List.mem_append.mp hf with hf | hf
    · exact Or.inl hf
    · split_ifs at hf
      · rw [List.mem_singleton.mp hf, (bare_functor k.conn k.method).1]
        exact Or.inr hk'
      · cases hf
  · rw [hsys] at hf
    exact Or.inl hf

/-- A loop that has not left after the step had not before, and the step does not end it. -/
lemma returned_act {a : LifeAct} {t : LoopId} (hact : s.act conf a = some s')
    (hret : (s'.sys.loops t).pc ≠ .returned) :
    (s.sys.loops t).pc ≠ .returned ∧ ¬ s.Ends t a := by
  have hsys := act_sys hact
  cases a with
  | server b =>
      simp only [act, Option.ite_none_right_eq_some, Option.map_eq_some_iff] at hact
      obtain ⟨-, sys, hb, rfl⟩ := hact
      rw [note_sys] at hret
      have ht := ServerSys.Step.trans hb
      have hends : ¬ s.Ends t (.server b) := by
        intro hends
        cases ht with
        | leaves hrun hpc hquit =>
            obtain ⟨rfl, -⟩ := hends
            rw [ServerSys.setLoop_self] at hret
            exact hret rfl
        | waits hrun hpc hquit =>
            obtain ⟨rfl, hq⟩ := hends
            rw [hquit] at hq
            cases hq
        | _ => exact hends.elim
      refine ⟨fun hr => hret ((ht.onward ?_).returned.mpr hr), hends⟩
      rintro rfl
      exact Bool.eq_false_iff.mpr fun hq => hends ⟨rfl, hq⟩
  | _ =>
      generalize s'.sys = sys at hsys hret
      rcases hsys with ⟨b, hb, -⟩ | ⟨k, -, rfl⟩ | ⟨k, -, rfl, -⟩ | rfl
      · cases hb
      · rw [(ServerSys.applied_withConn (frame_store _)).pc] at hret
        exact ⟨hret, id⟩
      · rw [ServerSys.push_pc] at hret
        exact ⟨hret, id⟩
      · exact ⟨hret, id⟩

/-- What is held after a step stays alive, when it was. -/
lemma alive_sweep (hd : s.deleted c = false) (ho : s.Owned c) : s.sweep.deleted c = false := by
  simp [sweep, hd, ho]

lemma owned_of_call {k : OffCall} (hk : k ∈ s.calls) : s.Owned k.conn := by
  refine ⟨.call k.tid, ?_, k, hk, rfl, rfl⟩
  simpa [holders] using ⟨k, hk, rfl⟩

/-- **A functor that a loop runs finds its connection held.** -/
lemma Inv.runsHeld (hi : s.Inv conf) (a : LifeAct) : s.RunsHeld a := by
  unfold RunsHeld
  split
  · rename_i t env
    intro f hf hbare
    have hbatch := List.mem_of_mem_take hf
    have hret : (s.sys.loops t).pc ≠ .returned := by
      intro hret
      rw [hret] at hbatch
      cases hbatch
    have hjobs : f ∈ (s.sys.loops t).jobs := List.mem_append_left _ hbatch
    have hdel := hi.sound t hret f hjobs hbare
    exact ⟨hi.held _ ⟨(hi.loop_of_bare hjobs hbare).1, hdel⟩, hdel⟩
  · trivial

/-- **A step that meets the condition keeps the invariant.** -/
theorem Inv.step {a : LifeAct} (hi : s.Inv conf) (hst : s.Step conf a s') (hg : s.Spares a) :
    s'.Inv conf := by
  obtain ⟨u, hact, rfl⟩ := Option.map_eq_some_iff.mp hst
  obtain ⟨hplaced, hreg, hphased, hloops⟩ := hi.sys_act hact
  have hdel := act_deleted hact
  have hmade : ∀ {c}, s.sys.Made c → u.sys.Made c := fun hc => ⟨hc.1, hc.2.trans_le hloops.next⟩
  have hcalls : ∀ k ∈ u.calls, s.Alive k.conn := fun k hk => by
    rcases act_calls hact hk with ⟨k', hk', he⟩ | ha
    · exact he ▸ hi.calls k' hk'
    · exact ha
  have hcall : ∀ k ∈ u.calls, u.sweep.deleted k.conn = false := fun k hk =>
    alive_sweep (by rw [hdel]; exact (hcalls k hk).2) (owned_of_call hk)
  refine ⟨hplaced, hreg, hphased, fun c hc => ?_, fun k hk => ?_, fun t hret f hf hbare => ?_⟩
  · by_contra hown
    have hd : u.sweep.deleted c = false := hc.2
    have hm : u.sys.Made c := hc.1
    have hno : ¬ u.Owned c := hown
    simp [sweep, hm, hno] at hd
  · exact ⟨hmade (hcalls k hk).1, hcall k hk⟩
  · rcases hi.bare_act hact hf hbare with hold | ⟨k, hk, he⟩
    · -- the connection is awaited, and keeps a pointer
      obtain ⟨hret', hends⟩ := returned_act hact hret
      obtain ⟨hm, hloop⟩ := hi.loop_of_bare hold hbare
      have hd := hi.sound t hret' f hold hbare
      obtain ⟨h, hmem, hh, hrel⟩ := hg f.conn hm.2
        ⟨t, hloop ▸ hm.loop_mem, ⟨hret', hends⟩, f, hold, rfl, hbare⟩
      exact alive_sweep (by rw [hdel]; exact hd) (hi.owned_act hact ⟨hm, hd⟩ hmem hh hrel)
    · exact he ▸ hcall k hk

/-! ### The last pointer -/

lemma holders_subset (hids : s'.sys.loopIds = s.sys.loopIds) (hcalls : s'.calls ⊆ s.calls) :
    s'.holders ⊆ s.holders := by
  intro h hh
  simp only [holders, hids, List.mem_append, List.mem_cons, List.mem_map] at hh ⊢
  rcases hh with (rfl | rfl | ⟨k, hk, rfl⟩) | hh
  · simp
  · simp
  · exact Or.inl (Or.inr (Or.inr ⟨k, hcalls hk, rfl⟩))
  · exact Or.inr hh

/-- A step that lets go of all who hold a connection leaves it to nobody. -/
lemma not_owned_of {a : LifeAct} (hall : ∀ h ∈ s.holders, s.Holds c h → s.Releases c a h)
    (hsub : s'.holders ⊆ s.holders)
    (hkept : ∀ h, s'.Holds c h → s.Holds c h ∧ ¬ s.Releases c a h) : ¬ s'.Owned c := by
  rintro ⟨h, hmem, hh⟩
  exact (hkept h hh).2 (hall h (hsub hmem) (hkept h hh).1)

lemma not_owned_endsBatch {t : LoopId} (hpc : (s.sys.loops t).pc = .functors [])
    (hall : ∀ h ∈ s.holders, s.Holds c h → s.Releases c (.server (.endBatch t)) h) :
    ¬ (s.note (.endBatch t) (s.sys.setPc t .check)).Owned c := by
  refine not_owned_of hall (holders_subset rfl fun _ hk => hk) fun h hh => ?_
  cases h with
  | batch i =>
      rcases eq_or_ne i t with rfl | hi
      · obtain ⟨-, f, hf, -⟩ := hh
        simp [batch, note, ThreadPc.batch] at hf
      · refine ⟨?_, by simpa [Releases] using hi⟩
        simpa [Holds, batch, note, hi] using hh
  | pending i =>
      refine ⟨⟨fun hr => hh.1 ?_, ?_⟩, by simp [Releases]⟩
      · have hi : i ≠ t := by
          rintro rfl
          rw [hpc] at hr
          cases hr
        simpa [note, hi] using hr
      · simpa [note] using hh.2
  | table | guard | user | call => exact ⟨hh, by simp [Releases]⟩

lemma not_owned_leaves {t : LoopId} (hquit : (s.sys.loops t).quit_ = true)
    (hall : ∀ h ∈ s.holders, s.Holds c h → s.Releases c (.server (.check t)) h) :
    ¬ (s.note (.check t) (s.sys.setLoop t
      { s.sys.loops t with pc := .returned, pendingFuntors_ := [] })).Owned c := by
  refine not_owned_of hall (holders_subset rfl fun _ hk => hk) fun h hh => ?_
  cases h with
  | batch i | pending i =>
      rcases eq_or_ne i t with rfl | hi
      · exact absurd (by simp [note]) hh.1
      · refine ⟨?_, by simpa [Releases, hquit] using hi⟩
        simpa [Holds, batch, note, ServerSys.setLoop_of_ne hi] using hh
  | table | guard | user | call => exact ⟨hh, by simp [Releases]⟩

lemma not_owned_destroysHere {e : String × ConnId} {onDown : Script} {left : ConnectionMap}
    (hphase : s.sys.phase = .destroying left) (herase : s.sys.Erases c (.destroyNext e onDown))
    (hall : ∀ h ∈ s.holders, s.Holds c h → s.Releases c (.server (.destroyNext e onDown)) h) :
    ¬ (s.note (.destroyNext e onDown) (ServerSys.withConn e.2 0 (Ctx.connectDestroy onDown)
      { s.sys with phase := .destroying (left.erase e) })).Owned c := by
  have hf := (Ctx.primitive_frame (ServerSys.ctx e.2 0
    { s.sys with phase := .destroying (left.erase e) })).connectDestroy onDown (.refl _)
  have hy := ServerSys.applied_withConn hf
  have hloops := ServerSys.later_withConn hf
  have hids : (ServerSys.withConn e.2 0 (Ctx.connectDestroy onDown)
      { s.sys with phase := .destroying (left.erase e) }).loopIds = s.sys.loopIds := by
    rw [ServerSys.loopIds, ServerSys.loopIds, hy.nextConnId_]
    refine congrArg (0 :: ·) (List.map_congr_left fun d hd => ?_)
    exact hloops.loop_ d (List.mem_range.mp hd)
  have hpend : ∀ i, ((ServerSys.withConn e.2 0 (Ctx.connectDestroy onDown)
      { s.sys with phase := .destroying (left.erase e) }).loops i).pendingFuntors_ =
        (s.sys.loops i).pendingFuntors_ :=
    fun i => ServerSys.pending_withConn (Ctx.out_connectDestroy onDown _) i
  refine not_owned_of hall (holders_subset hids fun _ hk => hk) fun h hh => ?_
  cases h with
  | table =>
      obtain ⟨e', he', hc⟩ := hh
      rw [note_sys, ServerSys.entries_withConn hf (Ctx.quiet_noClose.connectDestroy onDown
        (ServerSys.noClose_ctx _ _ _)), ServerSys.entries_destroying rfl] at he'
      rw [ServerSys.Erases, ServerSys.entries_destroying hphase] at herase
      exact absurd hc (herase.2.2 e' he')
  | batch i =>
      refine ⟨?_, by simp [Releases]⟩
      rw [Holds, batch, note_sys, hy.pc] at hh
      exact hh
  | pending i =>
      refine ⟨?_, by simp [Releases]⟩
      rw [Holds, note_sys, hy.pc, hpend] at hh
      exact hh
  | guard | user | call => exact ⟨hh, by simp [Releases]⟩

/-- A step of the server that lets go of all who hold a connection leaves it to nobody, and
the functors queued where they are. -/
lemma not_owned_server {b : ServerAct} {sys : ServerSys} {t : LoopId} {h : Holder}
    (ht : ServerSys.Trans conf s.sys b sys) (hends : ¬ s.Ends t (.server b))
    (hrel : s.Releases c (.server b) h)
    (hall : ∀ h ∈ s.holders, s.Holds c h → s.Releases c (.server b) h) :
    ¬ (s.note b sys).Owned c ∧ s.sys.Onward t [] sys := by
  have hstay : b = .check t → (s.sys.loops t).quit_ = false := by
    rintro rfl
    exact Bool.eq_false_iff.mpr fun hq => hends ⟨rfl, hq⟩
  have hon := ht.onward hstay
  cases ht with
  | leaves hrun hpc hquit => exact ⟨not_owned_leaves hquit hall, hon⟩
  | waits hrun hpc hquit =>
      rw [Releases, hquit] at hrel
      cases hrel.1
  | endsBatch hrun hpc => exact ⟨not_owned_endsBatch hpc hall, hon⟩
  | destroysHere hphase he hloop => exact ⟨not_owned_destroysHere hphase hrel.1 hall, hon⟩
  | @destroysThere e onDown left hphase he hloop =>
      obtain ⟨⟨rfl, h0, -⟩, -⟩ := hrel
      exact absurd h0 hloop
  | _ => exact hrel.elim

/-- **A step that takes the last pointer** to a connection that a functor is queued on deletes
it under the functor. -/
theorem Inv.not_sound {a : LifeAct} (hi : s.Inv conf) (hst : s.Step conf a s')
    (hg : ¬ s.Spares a) : ¬ s'.Sound := by
  simp only [Spares, not_forall, not_exists, not_and, not_not] at hg
  obtain ⟨c, -, ⟨t, -, ⟨hret, hends⟩, f, hf, rfl, hbare⟩, hall⟩ := hg
  obtain ⟨u, hact, rfl⟩ := Option.map_eq_some_iff.mp hst
  have hmade := (hi.loop_of_bare hf hbare).1
  obtain ⟨h, hmem, hh⟩ := hi.held _ ⟨hmade, hi.sound t hret f hf hbare⟩
  have hrel := hall h hmem hh
  -- nobody holds the connection, and the functor is still queued
  have hu : ¬ u.Owned f.conn ∧ s.sys.Onward t [] u.sys := by
    cases a with
    | server b =>
        simp only [act, Option.ite_none_right_eq_some, Option.map_eq_some_iff] at hact
        obtain ⟨-, sys, hsys, rfl⟩ := hact
        rw [note_sys]
        exact not_owned_server (ServerSys.Step.trans hsys) hends hrel hall
    | unguard i =>
        simp only [act, Option.ite_none_right_eq_some, Option.some.injEq] at hact
        obtain ⟨-, rfl⟩ := hact
        refine ⟨not_owned_of hall (holders_subset rfl fun _ hk => hk) fun h hh => ?_, .of_loop rfl⟩
        cases h with
        | guard j =>
            rcases eq_or_ne j i with rfl | hj
            · simp [Holds] at hh
            · exact ⟨by simpa [Holds, hj] using hh, by simpa [Releases] using hj⟩
        | table | batch | pending | user | call => exact ⟨hh, by simp [Releases]⟩
    | drop d =>
        simp only [act, Option.ite_none_right_eq_some, Option.some.injEq] at hact
        obtain ⟨-, rfl⟩ := hact
        obtain ⟨rfl, hlast, -⟩ := hrel
        refine ⟨not_owned_of hall (holders_subset rfl fun _ hk => hk) fun h hh => ?_, .of_loop rfl⟩
        cases h with
        | user => simp [Holds, hlast] at hh
        | table | batch | pending | guard | call => exact ⟨hh, by simp [Releases]⟩
    | ret i =>
        simp only [act] at hact
        split at hact
        · obtain rfl := Option.some.inj hact
          refine ⟨not_owned_of hall (holders_subset rfl (List.filter_subset_self _)) fun h hh => ?_,
            .of_loop rfl⟩
          cases h with
          | call j =>
              obtain ⟨k, hk, rfl, hkc⟩ := hh
              obtain ⟨hk, hne⟩ := List.mem_filter.mp hk
              exact ⟨⟨k, hk, rfl, hkc⟩, by simpa [Releases] using hne⟩
          | table | batch | pending | guard | user => exact ⟨hh, by simp [Releases]⟩
        · cases hact
    | copy | call | store | queue => exact hrel.elim
  obtain ⟨hown, hon⟩ := hu
  have hmade' : u.sys.Made f.conn :=
    ⟨hmade.1, hmade.2.trans_le (hi.sys_act hact).2.2.2.next⟩
  intro hsound
  have hd := hsound t (mt hon.returned.mp hret) f (hon.jobs hf) hbare
  simp [sweep, hmade', hown] at hd

lemma inv_new : new.Inv conf where
  placed := ServerSys.placed_new
  registered := ServerSys.registered_new
  phased := ServerSys.phased_new
  held _ hc := absurd (Nat.lt_of_le_of_lt hc.1.1 hc.1.2) (Nat.lt_irrefl 1)
  calls _ hk := absurd hk List.not_mem_nil
  sound _ _ _ hf := absurd hf List.not_mem_nil

/-- **When queued functors find their connection.** In every run of a server, its loops, the
user and the threads that call `send` and `shutdown`, a connection is never deleted while one
of their functors is queued, exactly when no step lets go of the last pointer to it. Then each
functor of theirs that a loop runs finds its connection held. -/
theorem queued_functors_held (conf : ServerConf) {tr : List (LifeAct × Lifetime)}
    (h : Chain (Step conf) new tr) :
    (Always Sound new tr ↔ Chain (fun s a _ => s.Spares a) new tr) ∧
      (Chain (fun s a _ => s.Spares a) new tr → Chain (fun s a _ => s.RunsHeld a) new tr) := by
  have keep : ∀ s a t, Inv conf s → Step conf s a t → Spares s a → Inv conf t :=
    fun s a t hi hst hg => hi.step hst hg
  have brk : ∀ s a t, Inv conf s → Step conf s a t → ¬ Spares s a → ¬ t.Sound :=
    fun s a t hi hst hg => hi.not_sound hst hg
  refine ⟨always_iff_of_inv (fun s hi => hi.sound) keep brk inv_new h, fun hg => ?_⟩
  have both : ∀ s a t, Inv conf s → Step conf s a t ∧ Spares s a → Inv conf t ∧ RunsHeld s a :=
    fun s a t hi hst => ⟨hi.step hst.1 hst.2, hi.runsHeld a⟩
  exact chain_of_inv both inv_new (chain_and.mpr ⟨h, hg⟩)

/-- A thread sends on a connection of the sub-loop, and the client closes before the sub-loop
comes to the functor. -/
def lateSend : List LifeAct :=
  [.server (.check 0), .server (.poll 0 [.acceptor]), .server (.accept 7 []), .server (.check 1),
    .server (.poll 1 []), .server (.swap 1), .server (.functor 1 ⟨[], [], .ok 0⟩),
    .server (.endBatch 1), .server (.check 1), .server (.poll 1 [.fd 7 EPOLLIN]),
    .call 2 1 (.send 1), .queue 2, .ret 2,
    .server (.handle 1 ⟨[], .ok [], [], [], .ok 0⟩), .unguard 1,
    .server (.swap 0), .server (.functor 0 ⟨[], [], .ok 0⟩), .server (.endBatch 0),
    .server (.check 0), .server (.poll 0 []), .server (.swap 0),
    .server (.functor 0 ⟨[], [], .ok 0⟩), .server (.endBatch 0),
    .server (.swap 1), .server (.functor 1 ⟨[], [65], .ok 1⟩)]

/-- The user has a pointer to the connection until the functor has run. -/
def keptSend : List LifeAct :=
  lateSend.take 10 ++ [.copy 1] ++ lateSend.drop 10 ++ [.server (.endBatch 1), .drop 1]

theorem queued_functors_held_kept :
    let tr := walk (step (.echo 1)) new keptSend
    tr.length = 28 ∧ Always Sound new tr ∧ Chain (fun s a _ => s.RunsHeld a) new tr := by
  have hspare : Chain (fun s a _ => s.Spares a) new (walk (step (.echo 1)) new keptSend) := by
    decide +kernel
  have hheld := queued_functors_held (.echo 1) (chain_walk (step (.echo 1)) new keptSend)
  exact ⟨by decide +kernel, hheld.1.mpr hspare, hheld.2 hspare⟩

/-- `sendInLoop` is run on a connection that has been deleted. -/
theorem queued_functors_held_late :
    let tr := walk (step (.echo 1)) new lateSend
    tr.length = 25 ∧ Chain (Step (.echo 1)) new tr ∧
      ¬ Chain (fun s a _ => s.RunsHeld a) new tr :=
  ⟨by decide +kernel, chain_walk _ _ _, by decide +kernel⟩

end Lifetime

end Reactor
