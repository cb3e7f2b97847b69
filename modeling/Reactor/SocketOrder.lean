import Reactor.CallTimes

/-!
In which order calls reach the socket: the bytes of a connection that stays open go out in the
order in which `sendInLoop` ran, and `shutdownWrite()` comes after all of those handed over
before it.
-/

namespace Reactor

open Lib.Trace Lib.Tagged

/-! ### The connection -/

namespace Ctx

/-- The connection is open and has been handed `bytes`: they are sent, or wait, in order. -/
structure Carries (x : Ctx) (bytes : List Byte) : Prop where
  state : x.conn.state_ ≠ .kDisconnected
  watching : x.backlog ≠ [] → x.isWriting = true
  stream : x.Stream
  accepted : x.accepted = bytes

variable {x : Ctx} {bytes : List Byte}

/-- A connection that is not writing has sent all it was handed. -/
lemma Carries.sent (h : x.Carries bytes) (hw : x.isWriting = false) :
    x.conn.socket_.sent = bytes := by
  have hempty : x.backlog = [] := by
    by_contra hne
    rw [h.watching hne] at hw
    cases hw
  have hstream : x.conn.socket_.sent ++ x.backlog = x.accepted := h.stream
  rwa [hempty, List.append_nil, h.accepted] at hstream

/-- How often the write half has been shut down. -/
def shutdowns (x : Ctx) : ℕ :=
  x.calls.countP fun call => match call with
    | .shutdownWrite _ => true
    | _ => false

lemma shutdowns_append {y : Ctx} {l : List Call} (hc : y.calls = x.calls ++ l) :
    y.shutdowns = x.shutdowns + l.countP fun call => match call with
      | .shutdownWrite _ => true
      | _ => false := by
  rw [shutdowns, hc, List.countP_append]
  rfl

lemma accepted_append {y : Ctx} {l : List Call} (hc : y.calls = x.calls ++ l) :
    y.accepted = x.accepted ++ acceptedOf l := by
  rw [Ctx.accepted, hc, acceptedOf_append]
  rfl

lemma acceptedOf_updates {l : List Call} (h : ∀ c ∈ l, c = .updateChannel) :
    acceptedOf l = [] := by
  rw [List.eq_replicate_of_mem h]
  induction l.length with
  | zero => rfl
  | succ n ih => exact ih

lemma shutdowns_sendInLoop (data : List Byte) (res : WriteResult) :
    (x.sendInLoop data res).shutdowns = x.shutdowns := by
  obtain ⟨updates, ok, hup, hc⟩ := calls_sendInLoop data res x
  rw [List.append_assoc] at hc
  rw [shutdowns_append hc, Nat.add_eq_left, List.countP_eq_zero]
  intro call hcall
  rcases List.mem_append.mp hcall with hm | hm
  · simp [hup call hm]
  · simp [List.mem_singleton.mp hm]

lemma shutdowns_shutdownInLoop :
    x.shutdownInLoop.shutdowns = x.shutdowns + if x.isWriting then 0 else 1 := by
  rw [shutdowns_append (calls_shutdownInLoop x)]
  split_ifs <;> rfl

/-- With the peer there, `sendInLoop` takes the payload. -/
lemma Carries.sendInLoop (h : x.Carries bytes) (data : List Byte) {res : WriteResult}
    (hres : NoFault res) : (x.sendInLoop data res).Carries (bytes ++ data) := by
  obtain ⟨ok, hacc⟩ := accounted data res x
  have hok : ok = true := by
    by_contra hf
    rcases hacc.reason (by simpa using hf) with hst | ⟨-, e, rfl, he⟩
    · exact h.state hst
    · obtain ⟨h₁, h₂⟩ := hres e rfl
      exact he.elim h₁ h₂
  subst hok
  obtain ⟨updates, hup, hc⟩ := hacc.recorded
  obtain ⟨rest, hst, -, -, hb, hw, -⟩ := sendInLoop_fields data res x
  refine ⟨hst ▸ h.state, ?_, h.stream.sendInLoop data res, ?_⟩
  · rw [hb, hw]
    intro hne
    by_cases hrest : rest = []
    · subst hrest
      rw [h.watching (by simpa using hne)]
      rfl
    · simp [hrest]
  · rw [List.append_assoc] at hc
    rw [accepted_append hc, h.accepted, acceptedOf_append, acceptedOf_updates hup]
    simp [acceptedOf]

lemma Carries.shutdownInLoop (h : x.Carries bytes) : x.shutdownInLoop.Carries bytes := by
  obtain ⟨hst, hb, hw, -⟩ := shutdownInLoop_fields x
  refine ⟨hst ▸ h.state, ?_, h.stream.shutdownInLoop, ?_⟩
  · rw [hb, hw]
    exact h.watching
  · rw [accepted_append (calls_shutdownInLoop x), h.accepted]
    split_ifs <;> simp [acceptedOf]

/-- A write event sends what waits, and closes nothing. -/
lemma Carries.handleWrite (h : x.Carries bytes) (res : WriteResult) :
    (x.handleWrite res).Carries bytes ∧ (x.handleWrite res).shutdowns = x.shutdowns := by
  have hstream := h.stream.handleWrite res
  rcases handleWrite_cases res x with ⟨he, -⟩ | ⟨taken, rest, b, hw, -, -, -, he⟩
  · rw [he] at hstream ⊢
    refine ⟨⟨h.state, h.watching, hstream, ?_⟩, shutdowns_append (x.calls_log .handleWrite)⟩
    rw [accepted_append (x.calls_log .handleWrite), h.accepted]
    exact List.append_nil _
  · have hwr : (x.wrote taken b).isWriting = true := hw
    have hacc : (x.wrote taken b).accepted = bytes := by
      rw [accepted_append (x.calls_wrote taken b), h.accepted]
      exact List.append_nil _
    rw [he] at hstream ⊢
    split_ifs at hstream ⊢
    · obtain ⟨hst, -, hdw, -⟩ := drained_fields hwr
      refine ⟨⟨?_, fun _ => hdw, hstream, ?_⟩, ?_⟩
      · rw [hst]
        exact h.state
      · rw [accepted_append (calls_drained _), hacc]
        split_ifs <;> simp [acceptedOf]
      · -- the channel is still writing after `disableWriting`
        rw [shutdowns_append (calls_drained _), isWriting_disableWriting, hwr,
          shutdowns_append (x.calls_wrote taken b), if_pos rfl]
        split_ifs <;> rfl
    · exact ⟨⟨h.state, fun _ => hwr, hstream, hacc⟩,
        shutdowns_append (x.calls_wrote taken b)⟩

lemma carries_established (conf : Conf) : (conf.established []).Carries [] where
  state := nofun
  watching hne := absurd rfl hne
  stream := Stream.connectEstablished [] (by simp [Stream, Conf.fresh, TcpConnection.new,
    backlog, Ctx.accepted, calls, acceptedOf])
  accepted := rfl

end Ctx

namespace CallSys

/-! ### The order of the bytes -/

/-- All bytes of the call `i` are among `w`. -/
def Reached (s : CallSys) (i : CallId) (w : List (CallId × Byte)) : Prop :=
  w.filter (fun e => e.1 = i) = (s.msg i).bytes.map (Prod.mk i)

/-- The call `i` comes before the call `j`: its bytes reach the socket before those of `j`, and
before the `shutdownWrite()` of `j`. -/
structure ComesFirst (s : CallSys) (i j : CallId) : Prop where
  sends : ∀ pre b post, s.wire = pre ++ (j, b) :: post → s.Reached i pre
  shutdown : ∀ w, (j, w) ∈ s.shut → s.Reached i w

/-- The call `j` of the loop's thread overtakes the call `i` of another one, whose functor has
not run by then. -/
def Overtakes (s : CallSys) (j i : CallId) : Prop :=
  i.thread ≠ none ∧ j.thread = none ∧ ¬ Before (s.times.ran i) (s.times.called j)

/-- **The order of calls**, of which the first, a `send`, had returned before the second was
made. What is on the wire is what the socket has got, and every `shutdownWrite()` is one of a
call. -/
structure RealTime (s : CallSys) : Prop where
  wire : s.wire.map Prod.snd = s.conn.conn.socket_.sent
  shutdowns : s.shut.length = s.conn.shutdowns
  first : ∀ i j data, s.msg i = .send data → Before (s.times.returned i) (s.times.called j) →
    ¬ s.Overtakes j i → s.ComesFirst i j
  overtaken : ∀ i j, Before (s.times.returned i) (s.times.called j) → s.times.ran j ≠ none →
    (s.Overtakes j i ↔ ¬ Before (s.times.ran i) (s.times.ran j))

/-- What the connection has been handed, and what had reached the socket at each
`shutdownWrite()`. -/
structure Wired (s : CallSys) : Prop where
  carries : s.conn.Carries (s.stream.map Prod.snd)
  mem_handed : ∀ i, i ∈ s.handed ↔ s.times.ran i ≠ none ∧ ∃ data, s.msg i = .send data
  sorted : s.handed.Pairwise fun i j => Before (s.times.ran i) (s.times.ran j)
  shut : ∀ e ∈ s.shut, s.times.ran e.1 ≠ none ∧ ∀ i data, s.msg i = .send data →
    Before (s.times.ran i) (s.times.ran e.1) → s.Reached i e.2
  shutdowns : s.shut.length = s.conn.shutdowns

def Inv (s : CallSys) : Prop := InTime s.sys s.calls s.clock s.times ∧ s.Wired

variable {s : CallSys}

lemma Wired.nodup (h : s.Wired) : s.handed.Nodup :=
  h.sorted.imp fun {i j} hij hne => by
    subst hne
    exact hij.not_refl

/-- What is on the wire is the stream as far as it has been sent. -/
lemma Wired.wire_prefix (h : s.Wired) : s.wire <+: s.stream ∧
    s.wire.map Prod.snd = s.conn.conn.socket_.sent := by
  refine ⟨List.take_prefix _ _, ?_⟩
  have hstream : s.conn.conn.socket_.sent ++ s.conn.backlog = s.conn.accepted := h.carries.stream
  rw [wire, List.map_take, ← h.carries.accepted, ← hstream, List.take_left]

lemma Inv.realTime (h : s.Inv) : s.RealTime := by
  obtain ⟨ht, hw⟩ := h
  obtain ⟨hpre, hwire⟩ := hw.wire_prefix
  have hrun : ∀ i j, Before (s.times.returned i) (s.times.called j) → s.times.ran j ≠ none →
      (s.Overtakes j i ↔ ¬ Before (s.times.ran i) (s.times.ran j)) := by
    intro i j hij hj
    rw [ht.order hij hj, Overtakes]
    tauto
  refine ⟨hwire, hw.shutdowns, fun i j data hi hij hover => ⟨?_, ?_⟩, hrun⟩
  · intro pre b post he
    have hmem : (j, b) ∈ s.stream := hpre.subset (he ▸ by simp)
    have hj : j ∈ s.handed := mem_of_mem_tagged hmem
    have hran := not_not.mp (mt (hrun i j hij ((hw.mem_handed j).mp hj).1).mpr hover)
    have hi' : i ∈ s.handed := (hw.mem_handed i).mpr ⟨hran.ne_left, data, hi⟩
    have hsub := sublist_of_sorted (fun _ _ h h' => (h.trans h').not_refl) hw.sorted hi' hj hran
    exact filter_before hw.nodup hsub (he ▸ hpre)
  · intro w hm
    obtain ⟨hj, hreached⟩ := hw.shut _ hm
    exact hreached i data hi (not_not.mp (mt (hrun i j hij hj).mpr hover))

/-! ### The steps -/

lemma Wired.frame (h : s.Wired) (sys : LoopSys Job) (calls : Option ℕ → CallPc) (clock : ℕ)
    (called pushed returned : CallId → Option ℕ) :
    Wired { s with
      sys := sys, calls := calls, clock := clock
      times := ⟨called, pushed, s.times.ran, returned⟩ } :=
  ⟨h.carries, h.mem_handed, h.sorted, h.shut, h.shutdowns⟩

/-- The times of calls that have run stay. -/
lemma stamp_of_ran {i j : CallId} (hi : s.times.ran i = none) (hj : s.times.ran j ≠ none) :
    s.stamp i s.times.ran j = s.times.ran j := by
  refine Function.update_of_ne ?_ _ _
  rintro rfl
  exact hj hi

/-- What ran before a call that had run already is what ran before it. -/
lemma before_of_stamp {i j k : CallId} (hp : Past s.clock s.times.ran)
    (hi : s.times.ran i = none) (hk : s.times.ran k ≠ none)
    (h : Before (s.stamp i s.times.ran j) (s.stamp i s.times.ran k)) :
    Before (s.times.ran j) (s.times.ran k) := by
  rw [stamp_of_ran hi hk] at h
  by_cases hj : j = i
  · subst hj
    rw [stamp, Function.update_self] at h
    exact absurd h hp.not_before
  · rwa [stamp, Function.update_of_ne hj] at h

lemma sorted_stamp {i : CallId} (h : s.Wired) (hi : s.times.ran i = none) :
    s.handed.Pairwise fun a b =>
      Before (s.stamp i s.times.ran a) (s.stamp i s.times.ran b) := by
  refine h.sorted.imp_of_mem fun {a b} ha hb hab => ?_
  rw [stamp_of_ran hi ((h.mem_handed a).mp ha).1, stamp_of_ran hi ((h.mem_handed b).mp hb).1]
  exact hab

/-- `sendInLoop` runs for a call. -/
lemma Wired.execSend (h : s.Wired) {i : CallId} {data : List Byte} {res : WriteResult}
    (hp : Past s.clock s.times.ran) (hi : s.times.ran i = none) (hmsg : s.msg i = .send data)
    (hres : NoFault res) : (s.exec i res).Wired := by
  have he : s.exec i res = { s with
      times.ran := s.stamp i s.times.ran
      conn := s.conn.sendInLoop data res
      handed := s.handed ++ [i] } := by
    simp only [exec, hmsg]
  rw [he]
  refine ⟨?_, fun j => ?_, ?_, fun e hm => ?_, ?_⟩
  · have hstream : stream { s with
        times.ran := s.stamp i s.times.ran
        conn := s.conn.sendInLoop data res
        handed := s.handed ++ [i] } = s.stream ++ data.map (Prod.mk i) := by
      simp [stream, hmsg, Msg.bytes]
    have hsnd : (data.map (Prod.mk i)).map Prod.snd = data := by simp [Function.comp_def]
    rw [hstream, List.map_append, hsnd]
    exact h.carries.sendInLoop data hres
  · rw [List.mem_append, List.mem_singleton, h.mem_handed j]
    by_cases hj : j = i
    · subst hj
      simp [stamp, hmsg]
    · simp [stamp, hj]
  · refine List.pairwise_append.mpr ⟨sorted_stamp h hi, List.pairwise_singleton _ _, ?_⟩
    intro a ha b hb
    obtain rfl := List.mem_singleton.mp hb
    have hra := ((h.mem_handed a).mp ha).1
    have hnew : s.stamp b s.times.ran b = some s.clock := Function.update_self ..
    simp only [stamp_of_ran hi hra, hnew]
    exact hp.before hra
  · obtain ⟨hr, hreached⟩ := h.shut e hm
    refine ⟨?_, fun j d hj hbefore => hreached j d hj (before_of_stamp hp hi hr hbefore)⟩
    simp only [stamp_of_ran hi hr]
    exact hr
  · simp only [Ctx.shutdowns_sendInLoop]
    exact h.shutdowns

/-- `shutdownInLoop` runs for a call. If it comes to `shutdownWrite()`, nothing waits. -/
lemma Wired.execShutdown (h : s.Wired) {i : CallId} {res : WriteResult}
    (hp : Past s.clock s.times.ran) (hi : s.times.ran i = none) (hmsg : s.msg i = .shutdown) :
    (s.exec i res).Wired := by
  have he : s.exec i res = { s with
      times.ran := s.stamp i s.times.ran
      conn := s.conn.shutdownInLoop
      shut := if s.conn.isWriting then s.shut else s.shut ++ [(i, s.wire)] } := by
    simp only [exec, hmsg]
  have hold : ∀ e ∈ s.shut, s.stamp i s.times.ran e.1 ≠ none ∧ ∀ j data,
      s.msg j = .send data →
      Before (s.stamp i s.times.ran j) (s.stamp i s.times.ran e.1) → s.Reached j e.2 := by
    intro e hm
    obtain ⟨hr, hreached⟩ := h.shut e hm
    refine ⟨?_, fun j d hj hbefore => hreached j d hj (before_of_stamp hp hi hr hbefore)⟩
    rw [stamp_of_ran hi hr]
    exact hr
  rw [he]
  refine ⟨h.carries.shutdownInLoop, fun j => ?_, sorted_stamp h hi, ?_, ?_⟩
  · rw [h.mem_handed j]
    by_cases hj : j = i
    · subst hj
      simp [hmsg]
    · simp [stamp, hj]
  · simp only
    split_ifs with hw
    · exact hold
    · intro e hm
      rcases List.mem_append.mp hm with hm | hm
      · exact hold e hm
      · obtain rfl := List.mem_singleton.mp hm
        refine ⟨by simp [stamp], fun j data hj hbefore => ?_⟩
        have hji : j ≠ i := by
          rintro rfl
          exact hbefore.not_refl
        have hran : s.times.ran j ≠ none := by
          have hne := hbefore.ne_left
          simpa [stamp, hji] using hne
        have hall : s.wire = s.stream := by
          rw [wire, h.carries.sent (by simpa using hw), List.length_map, List.take_length]
        change s.wire.filter _ = _
        rw [hall]
        exact filter_tagged h.nodup ((h.mem_handed j).mpr ⟨hran, data, hj⟩)
  · simp only [Ctx.shutdowns_shutdownInLoop]
    split_ifs
    · exact h.shutdowns
    · rw [List.length_append, h.shutdowns]
      rfl

/-- A call is made, and its message is new. -/
lemma Wired.call (h : s.Wired) (ht : InTime s.sys s.calls s.clock s.times) {i : CallId} (m : Msg)
    (hi : s.times.called i = none) :
    Wired { s with msg := Function.update s.msg i m } := by
  obtain ⟨-, hr, -⟩ := ht.not_called hi
  have hmsg : ∀ {j}, s.times.ran j ≠ none → Function.update s.msg i m j = s.msg j := by
    intro j hj
    refine Function.update_of_ne ?_ _ _
    rintro rfl
    exact hj hr
  have hstream : stream { s with msg := Function.update s.msg i m } = s.stream :=
    tagged_congr fun j hj => by
      change (Function.update s.msg i m j).bytes = _
      rw [hmsg ((h.mem_handed j).mp hj).1]
  refine ⟨by rw [hstream]; exact h.carries, fun j => ?_, h.sorted, fun e hm => ?_, h.shutdowns⟩
  · rw [h.mem_handed j]
    refine and_congr_right fun hj => ?_
    change (∃ data, s.msg j = _) ↔ ∃ data, Function.update s.msg i m j = _
    rw [hmsg hj]
  · obtain ⟨hran, hreached⟩ := h.shut e hm
    refine ⟨hran, fun j data hj hbefore => ?_⟩
    change Function.update s.msg i m j = _ at hj
    change _ = (Function.update s.msg i m j).bytes.map _
    rw [hmsg hbefore.ne_left] at hj ⊢
    exact hreached j data hj hbefore

/-- `sendInLoop` or `shutdownInLoop` runs for a call. -/
lemma Wired.exec (h : s.Wired) {i : CallId} {res : WriteResult} (hp : Past s.clock s.times.ran)
    (hi : s.times.ran i = none) (hres : NoFault res) : (s.exec i res).Wired := by
  rcases hmsg : s.msg i with data | _
  · exact h.execSend hp hi hmsg hres
  · exact h.execShutdown hp hi hmsg

lemma Wired.setState (h : s.Wired) :
    Wired { s with conn := s.conn.setState .kDisconnectiong } := by
  have hc := h.carries
  exact ⟨⟨nofun, hc.watching, hc.stream, hc.accepted⟩, h.mem_handed, h.sorted, h.shut, h.shutdowns⟩

lemma Wired.handleWrite (h : s.Wired) (res : WriteResult) :
    Wired { s with conn := s.conn.handleWrite res } := by
  obtain ⟨hc, hsh⟩ := h.carries.handleWrite res
  exact ⟨hc, h.mem_handed, h.sorted, h.shut, h.shutdowns.trans hsh.symm⟩

/-- Neither the loop nor another thread, outside a call, pushes or runs a functor of one. -/
lemma inTime_of_loop {sys : LoopSys Job} {a : LoopAct Job}
    (h : InTime s.sys s.calls s.clock s.times) (hsys : s.sys.step a = some sys)
    (hpush : ∀ f, LoopSys.pushedBy a = some f → f = .other)
    (hran : ∀ i, .call i ∉ s.sys.ranBy a) : InTime sys s.calls (s.clock + 1) s.times := by
  obtain ⟨hpushed, hexec⟩ := LoopSys.records_step hsys
  refine h.loop (h.queued.step hsys) ⟨_, hpushed, fun f hf => hpush f ?_⟩ fun i => ?_
  · simpa using hf
  · simp [hexec, hran i]

/-- **The step lemma.** -/
lemma Inv.step {t : CallSys} {a : CallAct} (h : s.Inv) (hst : s.Step a t) : t.Inv := by
  obtain ⟨ht, hw⟩ := h
  obtain ⟨u, hu, rfl⟩ := Option.map_eq_some_iff.mp hst
  cases a with
  | call w n m =>
      simp only [act, Option.ite_none_right_eq_some, Option.some.injEq] at hu
      obtain ⟨⟨-, -, hnew, -⟩, rfl⟩ := hu
      refine ⟨ht.call hnew ?_, (hw.call ht m hnew).frame _ _ _ _ _ _⟩
      cases m
      · exact Or.inr rfl
      · exact Or.inl rfl
  | setState w =>
      simp only [act] at hu
      split at hu
      · rename_i n hpc
        obtain rfl := Option.some.inj hu
        exact ⟨ht.setState hpc, hw.setState.frame _ _ _ _ _ _⟩
      · cases hu
  | runHere res =>
      simp only [act] at hu
      split at hu
      · rename_i n hpc
        simp only [Option.ite_none_right_eq_some, Option.some.injEq] at hu
        obtain ⟨hres, rfl⟩ := hu
        have hr : s.times.ran ⟨none, n⟩ = none := by
          have hok := ht.pcs none
          rw [hpc] at hok
          exact hok.2.2.1
        have hwired := (hw.exec ht.past_ran hr hres).frame
        refine ⟨?_, hwired _ _ _ _ _ _⟩
        have htime := ht.runHere hpc
        rcases hmsg : s.msg ⟨none, n⟩ with data | _ <;> simp only [exec, hmsg] <;> exact htime
      · cases hu
  | push i =>
      simp only [act] at hu
      split at hu
      · rename_i n hpc
        obtain ⟨sys, hsys, rfl⟩ := Option.map_eq_some_iff.mp hu
        obtain ⟨hpushed, hexec⟩ := LoopSys.records_step hsys
        simp only [LoopSys.ranBy, List.append_nil] at hexec
        exact ⟨ht.push hpc (ht.queued.step hsys) hpushed hexec, hw.frame _ _ _ _ _ _⟩
      · cases hu
  | ret w =>
      simp only [act] at hu
      split at hu
      · rename_i n hpc
        obtain ⟨sys, hsys, rfl⟩ := Option.map_eq_some_iff.mp hu
        refine ⟨?_, hw.frame _ _ _ _ _ _⟩
        cases w with
        | none =>
            obtain rfl := Option.some.inj hsys
            exact ht.ret hpc ht.queued rfl rfl
        | some i =>
            obtain ⟨hpushed, hexec⟩ := LoopSys.records_step hsys
            simp only [LoopSys.pushedBy, Option.toList_none, List.append_nil] at hpushed
            simp only [LoopSys.ranBy, List.append_nil] at hexec
            exact ht.ret hpc (ht.queued.step hsys) hpushed hexec
      · cases hu
  | functor res =>
      simp only [act, Option.ite_none_right_eq_some, Option.map_eq_some_iff] at hu
      obtain ⟨⟨hidle, hres⟩, sys, hsys, rfl⟩ := hu
      obtain ⟨hpushed, hexec⟩ := LoopSys.records_step hsys
      simp only [LoopSys.pushedBy, Option.toList_none, List.append_nil] at hpushed
      split
      · rename_i i rest hbatch
        have htime := ht.functor hbatch hidle (ht.queued.step hsys) hpushed
          (by rw [hexec, LoopSys.ranBy, hbatch]; rfl)
        have hsysw := hw.frame sys s.calls s.clock s.times.called s.times.pushed s.times.returned
        have hwired := (hsysw.exec ht.past_ran (ht.head hbatch).2.2.1 hres).frame
        refine ⟨?_, hwired _ _ _ _ _ _⟩
        rcases hmsg : s.msg i with data | _ <;> simp only [exec, hmsg] <;> exact htime
      · rename_i hbatch
        refine ⟨inTime_of_loop ht hsys (by simp [LoopSys.pushedBy]) fun i hi => ?_,
          hw.frame _ _ _ _ _ _⟩
        cases hb : s.sys.pc.batch with
        | nil => simp [LoopSys.ranBy, hb] at hi
        | cons f rest =>
            simp only [LoopSys.ranBy, hb, List.take_succ_cons, List.take_zero,
              List.mem_singleton] at hi
            exact hbatch i rest (hi ▸ hb)
  | handleWrite res =>
      simp only [act] at hu
      split at hu
      · simp only [Option.ite_none_right_eq_some, Option.some.injEq] at hu
        obtain ⟨-, rfl⟩ := hu
        exact ⟨ht.loop ht.queued ⟨[], by simp⟩ fun _ => Iff.rfl,
          (hw.handleWrite res).frame _ _ _ _ _ _⟩
      · cases hu
  | loop a =>
      simp only [act, Option.ite_none_right_eq_some, Option.map_eq_some_iff] at hu
      obtain ⟨hmay, sys, hsys, rfl⟩ := hu
      refine ⟨inTime_of_loop ht hsys ?_ ?_, hw.frame _ _ _ _ _ _⟩
      · cases a <;> simp [LoopSys.pushedBy] <;> exact hmay.1
      · cases a <;> simp [LoopSys.ranBy]
        exact hmay.elim

lemma inv_new (conf : Conf) : (new conf).Inv := by
  have hbefore : ∀ {a}, ¬ Before a none := fun h => h.ne_right rfl
  refine ⟨⟨LoopSys.queued_new, nofun, nofun, nofun, nofun, ?_, ?_, ?_, fun _ => trivial, ?_,
    List.Pairwise.nil, ?_, ?_, ?_, ?_⟩, ⟨Ctx.carries_established conf, ?_, List.Pairwise.nil,
    nofun, rfl⟩⟩
  · exact fun _ h => absurd rfl h
  · exact fun _ h => absurd rfl h
  · exact fun _ h => absurd rfl h
  · exact fun _ => ⟨nofun, fun h => absurd rfl h⟩
  · exact fun _ _ => ⟨nofun, fun h => absurd rfl h⟩
  · exact fun _ _ h => absurd h hbefore
  · rintro n (h | h) <;> cases h
  · exact fun _ _ _ h => absurd h hbefore
  · exact fun _ => ⟨nofun, fun h => absurd rfl h.1⟩

/-- **Calls keep their order in real time.** Over every run, if a `send` returned before
another `send` or a `shutdown` was made, its bytes reach the socket before those of the other
and before the `shutdownWrite()` of the other, unless the other is a call of the loop's thread
that overtakes it; and that is the only way to be overtaken. -/
theorem calls_in_real_time (conf : Conf) {tr : List (CallAct × CallSys)}
    (h : Chain Step (new conf) tr) : Always RealTime (new conf) tr :=
  (always_of_inv (fun _ _ _ hs hst => hs.step hst) (inv_new conf) h).mono fun _ hs => hs.realTime

/-- What the history says of a call and of a later one, and what has reached the socket. -/
structure Seen where
  msg : Msg
  returned : Option ℕ
  called : Option ℕ
  wire : List (CallId × Byte)
  shut : List (CallId × List (CallId × Byte))
  deriving DecidableEq

def seen (i j : CallId) (s : CallSys) : Seen :=
  ⟨s.msg i, s.times.returned i, s.times.called j, s.wire, s.shut⟩

/-- The thread 2 shuts down after the thread 1 has sent. -/
theorem calls_in_real_time_queued :
    let tr := walk step (new .plain) [.call (some 1) 0 (.send [65]), .push 1, .ret (some 1),
      .call (some 2) 0 .shutdown, .setState (some 2), .push 2, .ret (some 2), .loop .enter,
      .loop .clearQuit, .loop .test, .loop (.epollWait []), .loop .setCalling, .loop .swap,
      .functor (.ok 1), .loop .ret, .functor (.ok 0)]
    tr.getLast?.map (fun e => e.2.seen ⟨some 1, 0⟩ ⟨some 2, 0⟩) =
      some ⟨.send [65], some 2, some 3, [(⟨some 1, 0⟩, 65)],
        [(⟨some 2, 0⟩, [(⟨some 1, 0⟩, 65)])]⟩ ∧
      Always RealTime (new .plain) tr :=
  ⟨by decide +kernel, calls_in_real_time .plain (chain_walk _ _ _)⟩

/-- The thread 1 sends a byte, and has returned; the loop's thread makes the calls `here`, and
comes to the functor. -/
def sendThen (here : List CallAct) : List (CallAct × CallSys) :=
  walk step (new .plain) ([.call (some 1) 0 (.send [65]), .push 1, .ret (some 1), .loop .enter,
    .loop .clearQuit, .loop .test, .loop (.epollWait [.channel]), .loop .nextChannel] ++ here ++
    [.loop .ret, .loop .setCalling, .loop .swap, .functor (.ok 1)])

/-- The order as it is without the exception: what has returned comes first. -/
def Strict (s : CallSys) : Prop :=
  ∀ i j data, s.msg i = .send data → Before (s.times.returned i) (s.times.called j) →
    s.ComesFirst i j

/-- A `send`, and a `shutdown`, of the loop's thread that come before a `send` that has
returned. -/
theorem calls_in_real_time_overtaken :
    let sends := sendThen [.call none 0 (.send [66]), .runHere (.ok 1), .ret none]
    let shuts := sendThen [.call none 0 .shutdown, .setState none, .runHere (.ok 0), .ret none]
    (Chain Step (new .plain) sends ∧ ¬ Always Strict (new .plain) sends) ∧
      (Chain Step (new .plain) shuts ∧ ¬ Always Strict (new .plain) shuts) := by
  have hbefore : Before (some 2) (some 8) := ⟨2, 8, rfl, rfl, by decide⟩
  refine ⟨⟨chain_walk _ _ _, fun h => ?_⟩, ⟨chain_walk _ _ _, fun h => ?_⟩⟩
  · have hlast : (sendThen [.call none 0 (.send [66]), .runHere (.ok 1), .ret none]).getLast?.map
        (fun e => e.2.seen ⟨some 1, 0⟩ ⟨none, 0⟩) = some ⟨.send [65], some 2, some 8,
          [(⟨none, 0⟩, 66), (⟨some 1, 0⟩, 65)], []⟩ := by decide +kernel
    obtain ⟨e, he, hseen⟩ := Option.map_eq_some_iff.mp hlast
    obtain ⟨hmsg, hret, hcalled, hwire, -⟩ : _ ∧ _ ∧ _ ∧ _ ∧ _ := by simpa [seen] using hseen
    have hfirst := h.2 e (List.mem_of_getLast? he) _ _ _ hmsg (hret ▸ hcalled ▸ hbefore)
    have hreached := hfirst.sends [] _ _ hwire
    rw [Reached, hmsg] at hreached
    cases hreached
  · have hlast : (sendThen [.call none 0 .shutdown, .setState none, .runHere (.ok 0),
        .ret none]).getLast?.map (fun e => e.2.seen ⟨some 1, 0⟩ ⟨none, 0⟩) =
          some ⟨.send [65], some 2, some 8, [(⟨some 1, 0⟩, 65)], [(⟨none, 0⟩, [])]⟩ := by
      decide +kernel
    obtain ⟨e, he, hseen⟩ := Option.map_eq_some_iff.mp hlast
    obtain ⟨hmsg, hret, hcalled, -, hshut⟩ : _ ∧ _ ∧ _ ∧ _ ∧ _ := by simpa [seen] using hseen
    have hfirst := h.2 e (List.mem_of_getLast? he) _ _ _ hmsg (hret ▸ hcalled ▸ hbefore)
    have hreached := hfirst.shutdown [] (hshut ▸ List.mem_singleton_self _)
    rw [Reached, hmsg] at hreached
    cases hreached

end CallSys

end Reactor
