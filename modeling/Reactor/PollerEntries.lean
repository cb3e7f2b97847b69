import Reactor.Placement
import Reactor.ConnLife

/-!
The epoll sets of a server's loops hold the connections that are not destroyed, each under its
own descriptor and as its `index_` says.
-/

namespace Reactor

namespace ServerSys

variable {conf : ServerConf} {s s' : ServerSys}

/-- **What the epoll sets hold.** -/
structure Polled (s : ServerSys) : Prop where
  entry : ∀ c, s.Made c → ¬ s.destroyed c →
    (s.loops (s.conn c).loop_).poller_.Entry c (s.conn c).channel_
  ref : ∀ t n m c, (s.loops t).poller_.epoll n = some (m, c) →
    ¬ s.destroyed c ∧ (s.conn c).channel_.fd_ = n
  fds : ∀ c d, s.Made c → s.Made d → ¬ s.destroyed c → ¬ s.destroyed d →
    (s.conn c).channel_.fd_ = (s.conn d).channel_.fd_ → c = d

lemma polled_new : new.Polled where
  entry c hc := absurd (Nat.lt_of_le_of_lt hc.1 hc.2) (Nat.lt_irrefl 1)
  ref _ _ _ _ h := by cases h
  fds c d hc := absurd (Nat.lt_of_le_of_lt hc.1 hc.2) (Nat.lt_irrefl 1)

/-- A step that reports events, or leaves connections and pollers alone. -/
lemma Polled.congr (h : s.Polled) (hnext : s'.nextConnId_ = s.nextConnId_)
    (hconn : ∀ c, ∃ r, s'.conn c = (s.conn c).set_revents r) (htrace : s'.trace = s.trace)
    (hpoller : ∀ t, (s'.loops t).poller_ = (s.loops t).poller_) : s'.Polled := by
  have hdes : ∀ c, s'.destroyed c ↔ s.destroyed c := fun c => by rw [destroyed, destroyed, htrace]
  have hfd : ∀ c, (s'.conn c).channel_.fd_ = (s.conn c).channel_.fd_ := fun c => by
    obtain ⟨r, hr⟩ := hconn c
    rw [hr]
    rfl
  refine ⟨fun c hc hd => ?_, fun t n m c he => ?_, fun c d hc hd hcd hdd he => ?_⟩
  · obtain ⟨r, hr⟩ := hconn c
    have hold := h.entry c ((made_congr hnext c).mp hc) (mt (hdes c).mpr hd)
    rw [hr, hpoller]
    exact hold
  · rw [hdes, hfd]
    exact h.ref t n m c (hpoller t ▸ he)
  · rw [hfd, hfd] at he
    exact h.fds c d ((made_congr hnext c).mp hc) ((made_congr hnext d).mp hd)
      (mt (hdes c).mpr hcd) (mt (hdes d).mpr hdd) he

lemma Polled.setLoop {t : LoopId} {l : LoopThread} (h : s.Polled)
    (hpoller : l.poller_ = (s.loops t).poller_) : (s.setLoop t l).Polled := by
  refine h.congr rfl (fun c => ⟨_, rfl⟩) rfl fun i => ?_
  rw [setLoop_loops]
  split_ifs with hi
  · rw [hi, hpoller]
  · rfl

/-! ### Member functions -/

lemma Applied.destroyed_of_ne {c d : ConnId} {t : LoopId} {y : Ctx} (hy : Applied c t y s s')
    (hd : d ≠ c) : s'.destroyed d ↔ s.destroyed d := by
  rw [destroyed, destroyed, hy.trace, Function.update_of_ne hd]

lemma Applied.destroyed_self {c : ConnId} {t : LoopId} {y : Ctx} (hy : Applied c t y s s') :
    s'.destroyed c ↔ .connectDestroy ∈ y.calls := by
  rw [destroyed, hy.trace, Function.update_self]
  rfl

/-- A connection once destroyed remains so. -/
lemma Applied.destroyed {c d : ConnId} {t : LoopId} {y : Ctx} (hy : Applied c t y s s')
    (hf : (s.ctx c t).Frame y) (h : s.destroyed d) : s'.destroyed d := by
  rcases eq_or_ne d c with rfl | hd
  · obtain ⟨l, hl, -⟩ := hf.trace
    rw [hy.destroyed_self, Ctx.calls, hl, List.map_append]
    exact List.mem_append_left _ h
  · exact (hy.destroyed_of_ne hd).mpr h

lemma Applied.conn_of_ne {c d : ConnId} {t : LoopId} {y : Ctx} (hy : Applied c t y s s')
    (hd : d ≠ c) : s'.conn d = s.conn d := by
  rw [hy.conn, Function.update_of_ne hd]

lemma Applied.conn_self {c : ConnId} {t : LoopId} {y : Ctx} (hy : Applied c t y s s') :
    s'.conn c = y.conn := by
  rw [hy.conn, Function.update_self]

lemma Applied.fd {c : ConnId} {t : LoopId} {y : Ctx} (hy : Applied c t y s s')
    (hf : (s.ctx c t).Frame y) (d : ConnId) :
    (s'.conn d).channel_.fd_ = (s.conn d).channel_.fd_ := by
  rcases eq_or_ne d c with rfl | hd
  · rw [hy.conn_self]
    exact hf.fd
  · rw [hy.conn_of_ne hd]

/-- Descriptors stay apart. -/
lemma Polled.applied_fds {c : ConnId} {t : LoopId} {y : Ctx} (h : s.Polled)
    (hf : (s.ctx c t).Frame y) (hy : Applied c t y s s') (d e : ConnId) (hd : s'.Made d)
    (he : s'.Made e) (hdd : ¬ s'.destroyed d) (hde : ¬ s'.destroyed e)
    (hfd : (s'.conn d).channel_.fd_ = (s'.conn e).channel_.fd_) : d = e := by
  rw [hy.fd hf, hy.fd hf] at hfd
  exact h.fds d e ((made_congr hy.nextConnId_ d).mp hd) ((made_congr hy.nextConnId_ e).mp he)
    (mt (hy.destroyed hf) hdd) (mt (hy.destroyed hf) hde) hfd

/-- A member function of a connection not yet destroyed changes its own entry only, and has it
out of the epoll set when it destroys it. -/
lemma Polled.applied {c : ConnId} {t : LoopId} {y : Ctx} (h : s.Polled) (hp : s.Placed)
    (hc : s.Made c) (hf : (s.ctx c t).Frame y) (hy : Applied c t y s s')
    (hlive : ¬ s.destroyed c) (hdes : .connectDestroy ∈ y.calls → y.index ≠ kAdded) :
    s'.Polled := by
  have hown : y.Entry := hf.entry (h.entry c hc hlive)
  have hloop : y.conn.loop_ = (s.conn c).loop_ := hf.loop_
  have hid : y.id = c := hf.id
  refine ⟨fun d hd hdd => ?_, fun i n m d hd => ?_, h.applied_fds hf hy⟩
  · rw [made_congr hy.nextConnId_] at hd
    rcases eq_or_ne d c with rfl | hne
    · rw [hy.conn_self, hy.poller_, if_pos hloop]
      exact hid ▸ hown
    · rw [hy.destroyed_of_ne hne] at hdd
      rw [hy.conn_of_ne hne, hy.poller_]
      split_ifs with hl
      · -- the same poller, another descriptor
        have hfd : (s.conn d).channel_.fd_ ≠ (s.conn c).channel_.fd_ :=
          fun he => hne (h.fds d c hd hc hdd hlive he)
        obtain ⟨m, hm⟩ := h.entry d hd hdd
        refine ⟨m, ?_⟩
        rw [← hm, hl]
        exact hf.others _ hfd
      · exact h.entry d hd hdd
  · rw [hy.fd hf]
    rw [hy.poller_] at hd
    have hold : ∀ {i}, (s.loops i).poller_.epoll n = some (m, d) →
        d ≠ c → ¬ s'.destroyed d ∧ (s.conn d).channel_.fd_ = n := by
      intro i hi hne
      rw [hy.destroyed_of_ne hne]
      exact h.ref i n m d hi
    split_ifs at hd with hi
    · rcases eq_or_ne n (s.conn c).channel_.fd_ with rfl | hn
      · -- the entry is that of `c`
        have hdc : d = c := by
          rcases hf.own m d hd with he | he
          · exact he
          · obtain ⟨hdd, hfd⟩ := h.ref _ _ m d he
            exact h.fds d c (hp.epoll _ _ m d he).1 hc hdd hlive hfd
        subst hdc
        refine ⟨fun hdd => ?_, rfl⟩
        obtain ⟨m', hm'⟩ := hown
        have hidx : y.conn.channel_.index_ ≠ kAdded := hdes (hy.destroyed_self.mp hdd)
        have hfd : y.conn.channel_.fd_ = (s.conn d).channel_.fd_ := hf.fd
        rw [if_neg hidx, hfd] at hm'
        cases hm'.symm.trans hd
      · have he := (hf.others n hn).symm.trans hd
        exact hold he (fun hdc => hn (hdc ▸ (h.ref _ n m d he).2.symm))
    · exact hold hd (fun hdc => hi (hdc ▸ (hp.epoll i n m d hd).2.symm))

/-- A member function of a destroyed connection leaves the epoll set alone. -/
lemma Polled.applied_destroyed {c : ConnId} {t : LoopId} {y : Ctx} (h : s.Polled)
    (hf : (s.ctx c t).Frame y) (hy : Applied c t y s s') (hd : s.destroyed c)
    (hepoll : y.poller_.epoll = (s.loops (s.conn c).loop_).poller_.epoll) : s'.Polled := by
  have hsame : ∀ i, (s'.loops i).poller_.epoll = (s.loops i).poller_.epoll := by
    intro i
    rw [hy.poller_]
    split_ifs with hi
    · rw [hepoll, hi]
    · rfl
  have hne : ∀ {d}, ¬ s.destroyed d → d ≠ c := fun hdd he => hdd (he ▸ hd)
  refine ⟨fun d hmd hdd => ?_, fun i n m d he => ?_, h.applied_fds hf hy⟩
  · have hdd' := mt (hy.destroyed hf) hdd
    obtain ⟨m, hm⟩ := h.entry d ((made_congr hy.nextConnId_ d).mp hmd) hdd'
    refine ⟨m, ?_⟩
    rw [hy.conn_of_ne (hne hdd'), hsame]
    exact hm
  · rw [hsame] at he
    obtain ⟨hdd, hfd⟩ := h.ref i n m d he
    rw [hy.destroyed_of_ne (hne hdd), hy.fd hf]
    exact ⟨hdd, hfd⟩

/-! ### A new connection -/

lemma addConnection_trace {c : ConnId} (h : s.Made c) (sockfd : ℕ) :
    (addConnection conf sockfd s).trace c = s.trace c := Function.update_of_ne (Nat.ne_of_lt h.2) ..

lemma addConnection_trace_new (sockfd : ℕ) (s : ServerSys) :
    (addConnection conf sockfd s).trace s.nextConnId_ = [] := Function.update_self ..

lemma made_addConnection {c : ConnId} {sockfd : ℕ} (h : (addConnection conf sockfd s).Made c) :
    s.Made c ∨ c = s.nextConnId_ :=
  (Nat.lt_succ_iff_lt_or_eq.mp h.2).imp_left fun hlt => ⟨h.1, hlt⟩

/-- The kernel hands out a descriptor that is in no epoll set. -/
lemma Polled.addConnection {sockfd : ℕ} (h : s.Polled) (hp : s.Placed) (hfree : s.FreeFd sockfd) :
    (addConnection conf sockfd s).Polled := by
  have hdes : ∀ {c}, s.Made c →
      ((ServerSys.addConnection conf sockfd s).destroyed c ↔ s.destroyed c) := by
    intro c hc
    rw [ServerSys.destroyed, ServerSys.destroyed, addConnection_trace hc]
  have hnew : (ServerSys.addConnection conf sockfd s).conn s.nextConnId_ = newConn conf sockfd s :=
    addConnection_conn_new sockfd s
  have hfd : ∀ {c}, s.Made c → ¬ s.destroyed c → (s.conn c).channel_.fd_ ≠ sockfd :=
    fun hc hcd => hfree _ hc.2 hc.1 hcd
  refine ⟨fun c hc hcd => ?_, fun t n m c he => ?_, fun c d hc hd hcd hdd he => ?_⟩
  · rcases made_addConnection hc with hc | rfl
    · rw [hdes hc] at hcd
      rw [addConnection_conn hc]
      exact h.entry c hc hcd
    · rw [hnew]
      refine ⟨0, ?_⟩
      rw [if_neg (by exact kNew_ne_kAdded)]
      -- an entry would be one of a connection that holds the descriptor
      refine Option.eq_none_iff_forall_ne_some.mpr fun ⟨m, d⟩ hsome => ?_
      obtain ⟨hdd, hdfd⟩ := h.ref _ _ m d hsome
      exact hfd (hp.epoll _ _ m d hsome).1 hdd hdfd
  · have hc := (hp.epoll t n m c he).1
    rw [hdes hc, addConnection_conn hc]
    exact h.ref t n m c he
  · rcases made_addConnection hc with hc | rfl <;> rcases made_addConnection hd with hd | rfl
    · rw [hdes hc] at hcd
      rw [hdes hd] at hdd
      rw [addConnection_conn hc, addConnection_conn hd] at he
      exact h.fds c d hc hd hcd hdd he
    · rw [hdes hc] at hcd
      rw [addConnection_conn hc, hnew] at he
      exact absurd he (hfd hc hcd)
    · rw [hdes hd] at hdd
      rw [addConnection_conn hd, hnew] at he
      exact absurd he.symm (hfd hd hdd)
    · rfl

end ServerSys

end Reactor
