import Reactor.QueuedLifetime
import Reactor.SingleLoop

/-!
A server without sub-loops together with its only loop, from the constructors of both to
`~EventLoop`: the channels that the poller points to, and those still to handle, are there.

The poller has the channels of the connections and two more, the wake-up channel of the loop and
that of the acceptor. The user calls from callbacks only, on the loop's thread.
-/

namespace Reactor

open Lib.Trace

/-- The channels that are not those of connections. -/
inductive OwnChannel
  /-- `wakeupChannel_` -/
  | wakeup
  /-- `acceptChannel_` -/
  | acceptor
  deriving DecidableEq

/-- A `Channel *`. -/
inductive ChannelPtr
  | own (p : OwnChannel)
  | conn (c : ConnId)

/-- A server on its only loop, with what the poller of the loop has of its own two channels,
and whether the wake-up channel is in `activeChannels_` and not handled. -/
structure SoloServer where
  life : Lifetime
  own : LoopChannels OwnChannel
  started_ : ℕ
  woken : Bool

/-- The steps: `TcpServer::start`, a wait, `EventLoop::handleRead`, another step of the server,
the loop or the user, a call in a callback that `~TcpServer` runs, and `~EventLoop`. -/
inductive SoloAct
  | start
  | poll (ready : List Ready) (woken : Bool)
  | handleRead
  | life (a : LifeAct)
  | downCall (c : ConnId) (act : UserAct)
  | endLoop

namespace SoloServer

/-- `EventLoop` and `TcpServer` have been constructed, on the descriptors `fd`. -/
def new (fd : OwnChannel → ℕ) : SoloServer where
  life := .new
  own := (LoopChannels.new fd).step (.wakeup, .enableReading)
  started_ := 0
  woken := false

/-- The poller of the loop, with the channels of the connections. -/
def poller_ (s : SoloServer) : EpollPoller ConnId := (s.life.sys.loops 0).poller_

/-- A wait can report the channel: its descriptor is in the epoll set. -/
def armed (p : OwnChannel) (s : SoloServer) : Bool :=
  (s.own.poller_.epoll (s.own.channel p).fd_).isSome

/-- The step is one of the loop's thread, after the channels before it in `activeChannels_`. A
descriptor that is handed out is not in use. -/
def May (s : SoloServer) : LifeAct → Prop
  | .server (.poll _ _) => False
  | .server (.accept sockfd _) =>
    (s.own.channel .wakeup).fd_ ≠ sockfd ∧ (s.own.channel .acceptor).fd_ ≠ sockfd
  | .server (.swap _) => s.woken = false
  | .server _ => True
  | .unguard _ => True
  | .copy _ => True
  | .drop _ => True
  | _ => False

instance (s : SoloServer) : DecidablePred s.May
  | .server (.poll _ _) => inferInstanceAs (Decidable False)
  | .server (.accept _ _) => inferInstanceAs (Decidable (_ ∧ _))
  | .server (.swap _) => inferInstanceAs (Decidable (_ = _))
  | .server (.check _) | .server .acceptFails | .server (.handle _ _) | .server (.functor _ _)
  | .server (.endBatch _) | .server (.userCall _ _ _) | .server .destroy
  | .server (.destroyNext _ _) | .server .destroyMembers | .server .quit | .server .join
  | .unguard _ | .copy _ | .drop _ => inferInstanceAs (Decidable True)
  | .call _ _ _ | .store _ | .queue _ | .ret _ => inferInstanceAs (Decidable False)

/-- What a step, to `life`, makes of the loop's own channels: `~Acceprot` runs with the last
step of `~TcpServer`. -/
def note (a : LifeAct) (life : Lifetime) (s : SoloServer) : SoloServer :=
  match a with
  | .server .destroyMembers =>
    { s with
      life := life
      own := (s.own.step (.acceptor, .disableAll)).step (.acceptor, .remove) }
  | _ => { s with life := life }

/-- The loop has returned, and what is pending is gone with it. -/
def ended (sys : ServerSys) : ServerSys :=
  sys.setLoop 0 { sys.loops 0 with pc := .returned, quit_ := true, pendingFuntors_ := [] }

variable (conf : ServerConf)

def step (s : SoloServer) : SoloAct → Option SoloServer
  | .start =>
    if s.life.sys.phase = .alive then
      some { s with
        started_ := s.started_ + 1
        own := if s.started_ = 0 then s.own.step (.acceptor, .enableReading) else s.own }
    else none
  | .poll ready woken =>
    if (.acceptor ∈ ready → s.armed .acceptor = true) ∧ (woken = true → s.armed .wakeup = true) then
      (s.life.step conf (.server (.poll 0 ready))).map fun life =>
        { s with life := life, woken := woken }
    else none
  | .handleRead => if s.woken = true then some { s with woken := false } else none
  | .life a => if s.May a then (s.life.step conf a).map fun life => s.note a life else none
  | .downCall c act =>
    match s.life.sys.phase with
    | .destroying _ =>
      if s.life.Alive c then
        some { s with
          life := Lifetime.sweep { s.life with sys := s.life.sys.withConn c 0 (Ctx.act act) } }
      else none
    | _ => none
  | .endLoop =>
    if s.life.sys.phase = .gone ∧ (s.life.sys.loops 0).pc = .check then
      some { s with
        life := Lifetime.sweep { s.life with sys := ended s.life.sys }
        own := (s.own.step (.wakeup, .disableAll)).step (.wakeup, .remove) }
    else none

def Step (s : SoloServer) (a : SoloAct) (t : SoloServer) : Prop := s.step conf a = some t

/-! ### The property -/

/-- The pointer is the `data.ptr` of an entry of the epoll set. -/
def InEpollSet (s : SoloServer) : ChannelPtr → Prop
  | .own p => ∃ n m, s.own.poller_.epoll n = some (m, p)
  | .conn c => ∃ n m, s.poller_.epoll n = some (m, c)

/-- The pointer is in `channels_`. -/
def InChannels (s : SoloServer) : ChannelPtr → Prop
  | .own p => ∃ n, s.own.poller_.channels_ n = some p
  | .conn c => ∃ n, s.poller_.channels_ n = some c

/-- The pointer is in `activeChannels_`, and its channel has not been handled. -/
def Unhandled (s : SoloServer) : ChannelPtr → Prop
  | .own .wakeup => s.woken = true
  | .own .acceptor => .acceptor ∈ (s.life.sys.loops 0).active
  | .conn c => .conn c ∈ (s.life.sys.loops 0).active

/-- What owns the channel has not been destroyed: the loop, the acceptor of the server, or the
connection. -/
def Lives (s : SoloServer) : ChannelPtr → Prop
  | .own .wakeup => (s.life.sys.loops 0).pc ≠ .returned
  | .own .acceptor => s.life.sys.phase ≠ .gone
  | .conn c => s.life.Alive c

/-- **No pointer is stale**, and after `connectDestroy` there is none. -/
structure NoStale (s : SoloServer) : Prop where
  epoll : ∀ p, s.InEpollSet p → s.Lives p
  unhandled : ∀ p, s.Unhandled p → s.Lives p
  destroyed : ∀ c, s.life.sys.destroyed c → ¬ s.InEpollSet (.conn c) ∧ ¬ s.InChannels (.conn c)

end SoloServer

/-! ### Connections -/

namespace Lifetime

variable {conf : ServerConf} {s u : Lifetime} {c : ConnId}

variable (conf) in
/-- **What holds of the connections of a server without sub-loops**: only those destroyed are
deleted. -/
structure Solo (s : Lifetime) : Prop where
  placed : s.sys.Placed
  registered : s.sys.Registered conf
  phased : s.sys.Phased
  solo : s.sys.Solo
  toDestroy : ∀ c, s.sys.Made c → ¬ s.sys.destroyed c → s.sys.ToDestroy c
  kept : ∀ c, s.sys.Made c → ¬ s.sys.destroyed c → s.deleted c = false
  made : ∀ c, s.deleted c = true → s.sys.Made c

lemma solo_new : new.Solo conf where
  placed := ServerSys.placed_new
  registered := ServerSys.registered_new
  phased := ServerSys.phased_new
  solo := ServerSys.solo_new
  toDestroy c hc := absurd (Nat.lt_of_le_of_lt hc.1 hc.2) (Nat.lt_irrefl 1)
  kept _ _ _ := rfl
  made _ h := by cases h

/-- A connection to destroy is held, by the table or by the functor. -/
lemma owned_of_toDestroy (h : s.sys.Solo) (hc : s.sys.ToDestroy c) : s.Owned c := by
  rcases hc with hheld | hjob
  · exact ⟨.table, List.mem_cons_self .., hheld⟩
  · rcases List.mem_append.mp hjob with hjob | hjob
    · refine owned_of_loop (h := .batch 0)
        ⟨fun hret => ?_, _, List.mem_append_right _ hjob, rfl, rfl⟩ rfl
        (ServerSys.zero_mem_loopIds _)
      rw [hret] at hjob
      cases hjob
    · obtain ⟨active, hpc⟩ := h.pending c hjob
      refine owned_of_loop (h := .pending 0) ⟨?_, _, hjob, rfl, rfl⟩ rfl
        (ServerSys.zero_mem_loopIds _)
      rw [hpc]
      simp

/-- What nothing holds is deleted. -/
lemma Solo.sweep (hp : u.sys.Placed) (hr : u.sys.Registered conf) (hph : u.sys.Phased)
    (hs : u.sys.Solo) (hto : ∀ c, u.sys.Made c → ¬ u.sys.destroyed c → u.sys.ToDestroy c)
    (hkept : ∀ c, u.sys.Made c → ¬ u.sys.destroyed c → u.deleted c = false)
    (hmade : ∀ c, u.deleted c = true → u.sys.Made c) : u.sweep.Solo conf where
  placed := hp
  registered := hr
  phased := hph
  solo := hs
  toDestroy := hto
  kept c hc hd := alive_sweep (hkept c hc hd) (owned_of_toDestroy hs (hto c hc hd))
  made c hc := by
    rcases Bool.or_eq_true_iff.mp hc with hold | hnew
    · exact hmade c hold
    · exact (of_decide_eq_true hnew).1

/-- **A step of the server**, by the loop's thread. -/
lemma Solo.trans {a : ServerAct} (h : s.Solo conf) (h0 : conf.numThreads_ = 0)
    (ht : ServerSys.Trans conf s.sys a u.sys)
    (hcall : ∀ t c act, a = .userCall t c act → t = 0) (hdel : u.deleted = s.deleted) :
    u.sweep.Solo conf := by
  refine .sweep (h.placed.trans ht) (h.registered.trans ht) (h.phased.trans ht)
    (h.solo.trans h0 h.placed h.phased ht hcall) (fun c hc hd => ?_) (fun c hc hd => ?_)
    fun c hc => ?_
  · exact h.solo.toDestroy h0 h.placed h.registered h.phased ht hcall h.toDestroy hc hd
  · rw [hdel]
    by_contra hne
    have hold : s.sys.Made c := h.made c ((Bool.not_eq_false _).mp hne)
    exact hne (h.kept c hold (mt (ht.later.destroyed hold) hd))
  · rw [hdel] at hc
    exact ht.later.made (h.made c hc)

/-- A step that leaves the server as it is. -/
lemma Solo.same (h : s.Solo conf) (hsys : u.sys = s.sys) (hdel : u.deleted = s.deleted) :
    u.sweep.Solo conf := by
  refine .sweep ?_ ?_ ?_ ?_ ?_ ?_ ?_ <;> simp only [hsys, hdel]
  · exact h.placed
  · exact h.registered
  · exact h.phased
  · exact h.solo
  · exact h.toDestroy
  · exact h.kept
  · exact h.made

/-- After `~TcpServer`, between two iterations, every connection has been destroyed. -/
lemma Solo.all_destroyed (h : s.Solo conf) (hgone : s.sys.phase = .gone)
    (hpc : (s.sys.loops 0).pc = .check) (hc : s.sys.Made c) : s.sys.destroyed c := by
  by_contra hd
  rcases h.toDestroy c hc hd with ⟨e, he, -⟩ | hjob
  · rw [ServerSys.entries_ended (by rw [hgone]; rfl)] at he
    cases he
  · rw [LoopThread.jobs, hpc] at hjob
    obtain ⟨active, hpc'⟩ := h.solo.pending c hjob
    cases hpc.symm.trans hpc'

/-- **The loop goes.** -/
lemma Solo.ends (h : s.Solo conf) (hgone : s.sys.phase = .gone)
    (hpc : (s.sys.loops 0).pc = .check) :
    (Lifetime.sweep { s with sys := SoloServer.ended s.sys }).Solo conf := by
  have hdes : ∀ c, s.sys.Made c → s.sys.destroyed c := fun c hc => h.all_destroyed hgone hpc hc
  refine .sweep ?_ ?_ ?_ ?_ (fun c hc hd => ?_) (fun c hc hd => ?_) h.made
  · exact h.placed.setLoop (List.nil_subset _) (List.nil_subset _) rfl
  · exact (ServerSys.sameTable_setLoop _ _).registered h.registered
  · refine ⟨fun t _ => ?_, fun t ht => ?_, Or.inr (Or.inl hgone)⟩
    · change s.sys.phase.ended = true
      rw [hgone]
      rfl
    · change ((s.sys.setLoop 0 _).loops t).pc = _ at ht
      change ((s.sys.setLoop 0 _).loops t).quit_ = true
      rw [ServerSys.setLoop_loops] at ht ⊢
      split_ifs at ht ⊢
      · rfl
      · exact h.phased.returned t ht
  · exact h.solo.setLoop rfl (List.nil_subset _) (List.nil_subset _)
      (fun c hc => absurd hc List.not_mem_nil) fun _ => rfl
  · exact absurd (hdes c hc) hd
  · exact absurd (hdes c hc) hd

end Lifetime

namespace SoloServer

variable {conf : ServerConf} {s s' : SoloServer}

/-! ### The two channels of its own -/

variable (conf) in
/-- **The invariant.** The loop's own two channels are registered no longer than they are
there. -/
structure Inv (s : SoloServer) : Prop where
  life : s.life.Solo conf
  own : s.own.Inv
  refs : s.own.Refs
  acceptor : (s.own.channel .acceptor).index_ = kAdded → s.life.sys.phase ≠ .gone
  wakeup : (s.own.channel .wakeup).index_ = kAdded → (s.life.sys.loops 0).pc ≠ .returned
  woken : s.woken = true → ∃ active, (s.life.sys.loops 0).pc = .handling active

lemma inv_new {fd : OwnChannel → ℕ} (hfd : Function.Injective fd) : (new fd).Inv conf := by
  have hown := LoopChannels.inv_new hfd
  refine ⟨Lifetime.solo_new, hown.step _, hown.refs_step ?_ _, fun hidx => ?_, fun _ => ?_,
    fun hw => ?_⟩
  · intro n m p hent
    cases hent
  · have hnew : ((new fd).own.channel .acceptor).index_ = kNew := by
      simp [new, LoopChannels.step, LoopChannels.new, Channel.new]
    exact absurd (hnew.symm.trans hidx) kNew_ne_kAdded
  · simp [new, Lifetime.new, ServerSys.new, LoopThread.new]
  · cases hw

/-- A pointer in the epoll set is that of a channel that is added. -/
lemma Inv.added {p : OwnChannel} {n : ℕ} {m : Mask} (h : s.Inv conf)
    (hent : s.own.poller_.epoll n = some (m, p)) : (s.own.channel p).index_ = kAdded := by
  by_contra hidx
  have hreg := (h.own.registered p).epoll
  rw [if_neg hidx, h.refs n m p hent] at hreg
  cases hreg.symm.trans hent

/-- A connection made and not destroyed is alive. -/
lemma Inv.alive {c : ConnId} (h : s.Inv conf) (hc : s.life.sys.Made c)
    (hd : ¬ s.life.sys.destroyed c) : s.life.Alive c := ⟨hc, h.life.kept c hc hd⟩

/-- **The invariant is enough.** -/
theorem Inv.noStale (h : s.Inv conf) : s.NoStale where
  epoll p hp := by
    cases p with
    | own p =>
        obtain ⟨n, m, hent⟩ := hp
        have hidx := h.added hent
        cases p with
        | wakeup => exact h.wakeup hidx
        | acceptor => exact h.acceptor hidx
    | conn c =>
        obtain ⟨n, m, hent⟩ := hp
        exact h.alive (h.life.placed.epoll 0 n m c hent).1 (h.life.solo.polled.ref 0 n m c hent).1
  unhandled p hp := by
    cases p with
    | own p =>
        cases p with
        | wakeup =>
            obtain ⟨active, hpc⟩ := h.woken hp
            change (s.life.sys.loops 0).pc ≠ _
            rw [hpc]
            simp
        | acceptor =>
            change s.life.sys.phase ≠ _
            rw [h.life.solo.acceptor hp]
            simp
    | conn c => exact h.alive (h.life.placed.active 0 c hp).1 (h.life.solo.active c hp)
  destroyed c hd := by
    refine ⟨?_, ?_⟩
    · rintro ⟨n, m, hent⟩
      exact (h.life.solo.polled.ref 0 n m c hent).1 hd
    · rintro ⟨n, hslot⟩
      exact (h.life.solo.channels n c hslot).2.1 hd

/-! ### Steps -/

/-- A channel disabled and removed is no longer added, and the other is as it was. -/
lemma index_removed (own : LoopChannels OwnChannel) (p : OwnChannel) :
    (((own.step (p, .disableAll)).step (p, .remove)).channel p).index_ ≠ kAdded := by
  have hidx : (((own.step (p, .disableAll)).step (p, .remove)).channel p).index_ = kNew := by
    simp [LoopChannels.step, ChannelOp.apply, Channel.remove_index]
  rw [hidx]
  exact kNew_ne_kAdded

lemma channel_removed (own : LoopChannels OwnChannel) {p q : OwnChannel} (hq : q ≠ p) :
    ((own.step (p, .disableAll)).step (p, .remove)).channel q = own.channel q := by
  simp [LoopChannels.step, Function.update_of_ne hq]

/-- A step that the server takes, or one that leaves it as it is. -/
lemma May.cases {a : LifeAct} {life : Lifetime} (hmay : s.May a)
    (hst : s.life.step conf a = some life) :
    ∃ u : Lifetime, life = u.sweep ∧ u.deleted = s.life.deleted ∧
      ((∃ b, a = .server b ∧ s.life.May b ∧ ServerSys.Trans conf s.life.sys b u.sys) ∨
        u.sys = s.life.sys ∧ ∀ b, a ≠ .server b) := by
  obtain ⟨u, hact, rfl⟩ := Option.map_eq_some_iff.mp hst
  refine ⟨u, rfl, Lifetime.act_deleted hact, ?_⟩
  cases a with
  | server b =>
      simp only [Lifetime.act, Option.ite_none_right_eq_some, Option.map_eq_some_iff] at hact
      obtain ⟨hb, sys, hsys, rfl⟩ := hact
      rw [Lifetime.note_sys]
      exact Or.inl ⟨b, rfl, hb, ServerSys.Step.trans hsys⟩
  | unguard t | copy d | drop d =>
      simp only [Lifetime.act, Option.ite_none_right_eq_some, Option.some.injEq] at hact
      obtain ⟨-, rfl⟩ := hact
      exact Or.inr ⟨rfl, by simp⟩
  | call | store | queue | ret => exact hmay.elim

/-- What a step of the server keeps of what the loop's own channels live by. -/
lemma Inv.server {a : ServerAct} {u : Lifetime} (h : s.Inv conf) (h0 : conf.numThreads_ = 0)
    (ht : ServerSys.Trans conf s.life.sys a u.sys)
    (hcall : ∀ t c act, a = .userCall t c act → t = 0) (hdel : u.deleted = s.life.deleted) :
    u.sweep.Solo conf ∧ s.life.sys.Lasts a u.sys ∧
      ((u.sys.loops 0).pc = .returned → (s.life.sys.loops 0).pc = .returned) :=
  ⟨h.life.trans h0 ht hcall hdel, h.life.solo.lasts h0 ht,
    (ht.onward (h.life.solo.stays ht)).returned.mp⟩

/-- The calls of callbacks are on the loop's thread. -/
lemma Inv.call_zero {a : ServerAct} (h : s.Inv conf) (hmay : s.life.May a) :
    ∀ t c act, a = .userCall t c act → t = 0 := by
  rintro t c act rfl
  obtain ⟨-, hloop, hc, -⟩ := hmay
  exact hloop.symm.trans (h.life.solo.loop_ c hc)

/-- The acceptor is ready to take clients. -/
lemma Inv.start (h : s.Inv conf) (halive : s.life.sys.phase = .alive) :
    Inv conf { s with
      started_ := s.started_ + 1
      own := if s.started_ = 0 then s.own.step (.acceptor, .enableReading) else s.own } := by
  split_ifs
  · refine ⟨h.life, h.own.step _, h.own.refs_step h.refs _, fun _ => ?_, fun hidx => ?_, h.woken⟩
    · change s.life.sys.phase ≠ _
      rw [halive]
      simp
    · exact h.wakeup (by simpa [LoopChannels.step] using hidx)
  · exact ⟨h.life, h.own, h.refs, h.acceptor, h.wakeup, h.woken⟩

/-- A wait reports, and the channels reported are to be handled. -/
lemma Inv.polls {ready : List Ready} {life : Lifetime} {woken : Bool} (h : s.Inv conf)
    (h0 : conf.numThreads_ = 0) (hst : s.life.step conf (.server (.poll 0 ready)) = some life) :
    Inv conf { s with life := life, woken := woken } := by
  obtain ⟨u, hact, rfl⟩ := Option.map_eq_some_iff.mp hst
  have hdel := Lifetime.act_deleted hact
  simp only [Lifetime.act, Option.ite_none_right_eq_some, Option.map_eq_some_iff] at hact
  obtain ⟨hmay, sys, hsys, rfl⟩ := hact
  have ht := ServerSys.Step.trans hsys
  rw [← Lifetime.note_sys (.poll 0 ready) sys s.life] at ht
  obtain ⟨hlife, hlasts, hret⟩ := h.server h0 ht (h.call_zero hmay) hdel
  refine ⟨hlife, h.own, h.refs, fun hidx hgone => ?_, fun hidx hr => h.wakeup hidx (hret hr),
    fun _ => ?_⟩
  · rcases hlasts.gone hgone with hold | heq
    · exact h.acceptor hidx hold
    · cases heq
  · rw [Lifetime.note_sys] at ht
    cases ht with
    | polls hrun hpc hready =>
        have hfill : ((s.life.sys.fillActiveChannels 0 ready).loops 0).pc =
            .handling (ready.filterMap (ServerSys.activeOf (s.life.sys.loops 0).poller_)) := by
          rw [ServerSys.fillActiveChannels, ServerSys.setPc_pc, if_pos rfl]
        exact ⟨_, hfill⟩

/-- **A step of the server or the user.** -/
lemma Inv.acts {a : LifeAct} {life : Lifetime} (h : s.Inv conf) (h0 : conf.numThreads_ = 0)
    (hmay : s.May a) (hst : s.life.step conf a = some life) : (s.note a life).Inv conf := by
  obtain ⟨u, rfl, hdel, ⟨b, rfl, hb, ht⟩ | ⟨hsys, hne⟩⟩ := hmay.cases hst
  · obtain ⟨hlife, hlasts, hret⟩ := h.server h0 ht (h.call_zero hb) hdel
    have hwoken : s.woken = true → ∃ active, (u.sys.loops 0).pc = .handling active := by
      intro hw
      refine hlasts.handling ?_ (h.woken hw)
      rintro rfl
      rw [May] at hmay
      exact absurd (hmay.symm.trans hw) (by decide)
    by_cases hgone : b = .destroyMembers
    · subst hgone
      refine ⟨hlife, (h.own.step _).step _, (h.own.step _).refs_step (h.own.refs_step h.refs _) _,
        fun hidx => absurd hidx (index_removed _ _), fun hidx hr => ?_, hwoken⟩
      refine h.wakeup ?_ (hret hr)
      rwa [note, channel_removed _ (by decide)] at hidx
    · have hnote : s.note (.server b) u.sweep = { s with life := u.sweep } := by
        cases b <;> first | rfl | exact absurd rfl hgone
      rw [hnote]
      refine ⟨hlife, h.own, h.refs, fun hidx hg => ?_, fun hidx hr => h.wakeup hidx (hret hr),
        hwoken⟩
      exact (hlasts.gone hg).elim (h.acceptor hidx) hgone
  · have hnote : s.note a u.sweep = { s with life := u.sweep } := by
      cases a with
      | server b => exact absurd rfl (hne b)
      | _ => rfl
    rw [hnote]
    refine ⟨h.life.same hsys hdel, h.own, h.refs, fun hidx => ?_, fun hidx => ?_, fun hw => ?_⟩
    · change u.sys.phase ≠ _
      rw [hsys]
      exact h.acceptor hidx
    · change (u.sys.loops 0).pc ≠ _
      rw [hsys]
      exact h.wakeup hidx
    · change ∃ active, (u.sys.loops 0).pc = _
      rw [hsys]
      exact h.woken hw

/-- A callback that `~TcpServer` runs calls on a connection. -/
lemma Inv.downCall {c : ConnId} {act : UserAct} (h : s.Inv conf) (h0 : conf.numThreads_ = 0)
    (hc : s.life.Alive c) :
    Inv conf { s with
      life := Lifetime.sweep { s.life with sys := s.life.sys.withConn c 0 (Ctx.act act) } } := by
  have ht : ServerSys.Trans conf s.life.sys (.userCall 0 c act)
      (s.life.sys.withConn c 0 (Ctx.act act)) := .userCalls hc.1
  obtain ⟨hlife, hlasts, hret⟩ := h.server
    (u := { s.life with sys := s.life.sys.withConn c 0 (Ctx.act act) }) h0 ht
    (by rintro t d act' heq; cases heq; rfl) rfl
  refine ⟨hlife, h.own, h.refs, fun hidx hg => ?_, fun hidx hr => h.wakeup hidx (hret hr),
    fun hw => hlasts.handling (by simp) (h.woken hw)⟩
  rcases hlasts.gone hg with hold | heq
  · exact h.acceptor hidx hold
  · cases heq

/-- **The loop goes, and its wake-up channel with it.** -/
lemma Inv.ends (h : s.Inv conf) (hgone : s.life.sys.phase = .gone)
    (hpc : (s.life.sys.loops 0).pc = .check) :
    Inv conf { s with
      life := Lifetime.sweep { s.life with sys := ended s.life.sys }
      own := (s.own.step (.wakeup, .disableAll)).step (.wakeup, .remove) } := by
  refine ⟨h.life.ends hgone hpc, (h.own.step _).step _,
    (h.own.step _).refs_step (h.own.refs_step h.refs _) _, fun hidx => ?_,
    fun hidx => absurd hidx (index_removed _ _), fun hw => ?_⟩
  · refine absurd hgone (h.acceptor ?_)
    rwa [channel_removed _ (by decide)] at hidx
  · obtain ⟨active, hpc'⟩ := h.woken hw
    cases hpc.symm.trans hpc'

theorem Inv.step {a : SoloAct} (h : s.Inv conf) (h0 : conf.numThreads_ = 0)
    (hst : s.Step conf a s') : s'.Inv conf := by
  unfold Step SoloServer.step at hst
  cases a with
  | start =>
      simp only [Option.ite_none_right_eq_some, Option.some.injEq] at hst
      obtain ⟨halive, rfl⟩ := hst
      exact h.start halive
  | poll ready woken =>
      simp only [Option.ite_none_right_eq_some, Option.map_eq_some_iff] at hst
      obtain ⟨-, life, hlife, rfl⟩ := hst
      exact h.polls h0 hlife
  | handleRead =>
      simp only [Option.ite_none_right_eq_some, Option.some.injEq] at hst
      obtain ⟨-, rfl⟩ := hst
      exact ⟨h.life, h.own, h.refs, h.acceptor, h.wakeup, fun hw => by cases hw⟩
  | life a =>
      simp only [Option.ite_none_right_eq_some, Option.map_eq_some_iff] at hst
      obtain ⟨hmay, life, hlife, rfl⟩ := hst
      exact h.acts h0 hmay hlife
  | downCall c act =>
      simp only at hst
      split at hst
      · simp only [Option.ite_none_right_eq_some, Option.some.injEq] at hst
        obtain ⟨hc, rfl⟩ := hst
        exact h.downCall h0 hc
      · cases hst
  | endLoop =>
      simp only [Option.ite_none_right_eq_some, Option.some.injEq] at hst
      obtain ⟨⟨hgone, hpc⟩, rfl⟩ := hst
      exact h.ends hgone hpc

/-- **No stale channel.** In every run of a server without sub-loops and of its loop, a pointer
in the epoll set or in what is left of `activeChannels_` is that of a channel that is still
there, and after `connectDestroy` the channel of the connection is neither in the epoll set nor
in `channels_`. -/
theorem no_stale_channel {conf : ServerConf} (h0 : conf.numThreads_ = 0) {fd : OwnChannel → ℕ}
    (hfd : Function.Injective fd) {tr : List (SoloAct × SoloServer)}
    (h : Chain (Step conf) (new fd) tr) : Always NoStale (new fd) tr := by
  have keep : ∀ s a t, Inv conf s → Step conf s a t → Inv conf t :=
    fun s a t hi hst => hi.step h0 hst
  exact (always_of_inv keep (inv_new hfd) h).mono fun s hi => hi.noStale

/-- The wake-up descriptor is 4, the listening socket 5. -/
def ownFd : OwnChannel → ℕ
  | .wakeup => 4
  | .acceptor => 5

lemma ownFd_injective : Function.Injective ownFd := by
  intro p q h
  cases p <;> cases q <;> first | rfl | cases h

/-- Two clients connect. The first hangs up, with urgent data, and is closed twice by one event,
so that `connectDestroy` is run twice. The second is there when the server is destroyed, and
then the loop. -/
def closedTwice : List SoloAct :=
  [.start, .life (.server (.check 0)), .poll [.acceptor, .acceptor] false,
    .life (.server (.accept 7 [])), .life (.server (.accept 8 [])), .life (.server (.swap 0)),
    .life (.server (.endBatch 0)), .life (.server (.check 0)),
    .poll [.fd 7 (EPOLLHUP ||| EPOLLPRI), .fd 8 EPOLLIN] true,
    .life (.server (.handle 0 ⟨[], .ok [], [], [], .ok 0⟩)), .life (.copy 1), .life (.unguard 0),
    .handleRead, .life (.server (.handle 0 ⟨[], .ok [65], [.send [65] (.ok 1)], [], .ok 0⟩)),
    .life (.unguard 0), .life (.server (.swap 0)), .life (.server (.functor 0 ⟨[], [], .ok 0⟩)),
    .life (.drop 1), .life (.server (.functor 0 ⟨[], [], .ok 0⟩)), .life (.server (.endBatch 0)),
    .life (.server .destroy), .downCall 2 .shutdown,
    .life (.server (.destroyNext ("Echoserver-0.0.0.0:8080#2", 2) [])),
    .life (.server .destroyMembers), .endLoop]

theorem no_stale_channel_closedTwice :
    let tr := walk (step (.echo 0)) (new ownFd) closedTwice
    tr.length = 25 ∧ Always NoStale (new ownFd) tr :=
  ⟨by decide +kernel, no_stale_channel rfl ownFd_injective (chain_walk (step (.echo 0)) _ _)⟩

end SoloServer

end Reactor
