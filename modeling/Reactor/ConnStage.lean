import Reactor.Registry
import Reactor.PollerEntries

/-!
The stage a connection of a server is in, with what is still to come for it: the functors
queued, the events reported, and the entry the server will destroy it by.
-/

namespace Reactor

namespace Ctx

/-- Two contexts that show the same connection and the same calls, the events last reported
apart. -/
def Alike (x y : Ctx) : Prop := (∃ r, y.conn = x.conn.set_revents r) ∧ y.calls = x.calls

lemma Alike.of_eq {x y : Ctx} (hconn : y.conn = x.conn) (hcalls : y.calls = x.calls) :
    x.Alike y := ⟨⟨x.conn.channel_.revents_, hconn⟩, hcalls⟩

lemma Fresh.alike {x y : Ctx} (h : x.Fresh) (hy : x.Alike y) : y.Fresh := by
  obtain ⟨⟨r, hr⟩, hc⟩ := hy
  refine ⟨?_, ?_, ?_, hc.trans h.calls⟩
  · rw [hr]
    exact h.state
  · rw [Ctx.index, hr]
    exact h.index
  · rw [Ctx.events, hr]
    exact h.events

lemma Up.alike {x y : Ctx} (h : x.Up) (hy : x.Alike y) : y.Up := by
  obtain ⟨⟨r, hr⟩, hc⟩ := hy
  exact h.congr (by rw [hr]; rfl) (by rw [Ctx.index, hr]; rfl) (by rw [Ctx.events, hr]; rfl) hc

lemma Down.alike {x y : Ctx} {tail : List Call} (h : x.Down tail) (hy : x.Alike y) :
    y.Down tail := by
  obtain ⟨⟨r, hr⟩, hc⟩ := hy
  exact h.congr (by rw [hr]; rfl) (by rw [Ctx.index, hr]; rfl) (by rw [Ctx.events, hr]; rfl) hc

end Ctx

namespace ServerSys

variable {conf : ServerConf} {s s' : ServerSys}

/-- The functors of `c` that the loop `t` has still to run. -/
def queue (c : ConnId) (t : LoopId) (s : ServerSys) : List Functor :=
  (s.loops t).jobs.filter fun f => f.conn = c

/-- The number of events of `c` that the loop `t` has still to handle. -/
def reports (c : ConnId) (t : LoopId) (s : ServerSys) : ℕ := (s.loops t).active.count (.conn c)

/-- The connection as the thread of its loop finds it. -/
def view (c : ConnId) (s : ServerSys) : Ctx := s.ctx c (s.conn c).loop_

/-- The server has still to see to the connection. -/
def Held (c : ConnId) (s : ServerSys) : Prop := ∃ e ∈ s.entries, e.2 = c

/-- What is still to come for a connection that is not down: on its own loop, behind the
functors `first`, nothing but those a member function queues and `connectDestroy`; and up to
`n` events. -/
structure Attended (first : List Functor) (n : ℕ) (c : ConnId) (s : ServerSys) : Prop where
  elsewhere : ∀ t ≠ (s.conn c).loop_, s.queue c t = []
  here : ∃ rest, s.queue c (s.conn c).loop_ = first ++ rest ∧
    (∀ f ∈ rest, f.isAux = true ∨ f = .connectDestroy c) ∧
    (s.Held c ∨ .connectDestroy c ∈ rest)
  reports : ∀ t, s.reports c t ≤ if t = (s.conn c).loop_ then n else 0
  running : (s.loops (s.conn c).loop_).pc ≠ .returned

/-- **The stages of a connection.** -/
inductive Stage (c : ConnId) (s : ServerSys) : Prop
  | fresh (h : (s.view c).Fresh) (hloop : (s.conn c).loop_ ≠ 0)
      (ha : s.Attended [.connectEstablished c] 0 c)
  | up (h : (s.view c).Up) (ha : s.Attended [] 1 c)
  | down {tail : List Call}
      (htail : tail = [.connectionCallback false] ∨
        tail = [.connectionCallback false, .closeCallback])
      (h : (s.view c).Down tail) (hqueue : ∀ t, .connectEstablished c ∉ s.queue c t)
      (hreports : ∀ t, s.reports c t = 0)

/-! ### What a step leaves alone -/

/-- What a step keeps of a connection, the events reported apart. -/
structure Kept (d : ConnId) (s s' : ServerSys) : Prop where
  conn : ∃ r, s'.conn d = (s.conn d).set_revents r
  trace : s'.trace d = s.trace d
  queue : ∀ t, s'.queue d t = s.queue d t
  held : s.Held d → s'.Held d
  returned : ∀ t, (s'.loops t).pc = .returned → (s.loops t).pc = .returned

/-- What a step does to a connection that it is not about. -/
structure Unmoved (d : ConnId) (s s' : ServerSys) : Prop extends Kept d s s' where
  reports : ∀ t, s'.reports d t ≤ s.reports d t

lemma Kept.loop_ {d : ConnId} (h : s.Kept d s') : (s'.conn d).loop_ = (s.conn d).loop_ := by
  obtain ⟨r, hr⟩ := h.conn
  rw [hr]
  rfl

lemma Kept.alike {d : ConnId} (h : s.Kept d s') : (s.view d).Alike (s'.view d) := by
  refine ⟨h.conn, ?_⟩
  change (s'.trace d).map Prod.snd = (s.trace d).map Prod.snd
  rw [h.trace]

lemma Kept.trans {d : ConnId} {s'' : ServerSys} (h : s.Kept d s') (h' : s'.Kept d s'') :
    s.Kept d s'' where
  conn := by
    obtain ⟨r, hr⟩ := h.conn
    obtain ⟨r', hr'⟩ := h'.conn
    exact ⟨r', by rw [hr', hr]; rfl⟩
  trace := h'.trace.trans h.trace
  queue t := (h'.queue t).trans (h.queue t)
  held hd := h'.held (h.held hd)
  returned t ht := h.returned t (h'.returned t ht)

lemma Unmoved.trans {d : ConnId} {s'' : ServerSys} (h : s.Unmoved d s') (h' : s'.Unmoved d s'') :
    s.Unmoved d s'' :=
  ⟨h.toKept.trans h'.toKept, fun t => (h'.reports t).trans (h.reports t)⟩

/-- A connection stays attended, as far as the events reported allow. -/
lemma Attended.kept {first : List Functor} {n : ℕ} {d : ConnId} (h : s.Attended first n d)
    (hk : s.Kept d s')
    (hreports : ∀ t, s'.reports d t ≤ if t = (s.conn d).loop_ then n else 0) :
    s'.Attended first n d := by
  obtain ⟨rest, hrest, haux, hheld⟩ := h.here
  refine ⟨fun t ht => ?_, ⟨rest, ?_, haux, hheld.imp_left hk.held⟩, fun t => ?_, ?_⟩ <;>
    rw [hk.loop_] at *
  · rw [hk.queue]
    exact h.elsewhere t ht
  · rw [hk.queue]
    exact hrest
  · exact hreports t
  · exact mt (hk.returned _) h.running

lemma Attended.congr {first : List Functor} {n : ℕ} {d : ConnId} (h : s.Attended first n d)
    (hu : s.Unmoved d s') : s'.Attended first n d :=
  h.kept hu.toKept fun t => (hu.reports t).trans (h.reports t)

/-- A connection that the step is not about stays in its stage. -/
lemma Stage.congr {d : ConnId} (h : s.Stage d) (hu : s.Unmoved d s') : s'.Stage d := by
  cases h with
  | fresh h hl ha => exact .fresh (h.alike hu.alike) (hu.loop_ ▸ hl) (ha.congr hu)
  | up h ha => exact .up (h.alike hu.alike) (ha.congr hu)
  | down htail h hqueue hreports =>
      refine .down htail (h.alike hu.alike) (fun t => ?_) fun t => ?_
      · rw [hu.queue]
        exact hqueue t
      · exact Nat.le_zero.mp (hreports t ▸ hu.reports t)

lemma queue_setLoop (d : ConnId) (t i : LoopId) (l : LoopThread) :
    (s.setLoop t l).queue d i =
      if i = t then l.jobs.filter fun f => f.conn = d else s.queue d i := by
  rw [queue, queue, setLoop_loops]
  split_ifs <;> rfl

lemma reports_setLoop (d : ConnId) (t i : LoopId) (l : LoopThread) :
    (s.setLoop t l).reports d i = if i = t then l.active.count (.conn d) else s.reports d i := by
  rw [reports, reports, setLoop_loops]
  split_ifs <;> rfl

lemma reports_setPc (d : ConnId) (t i : LoopId) (pc : ThreadPc) :
    (s.setPc t pc).reports d i = if i = t then pc.active.count (.conn d) else s.reports d i :=
  reports_setLoop d t i _

/-- A thread moves on, past no functor of `d`. -/
lemma kept_setLoop {d : ConnId} {t : LoopId} {l : LoopThread}
    (hjobs : l.jobs.filter (fun f => f.conn = d) = s.queue d t)
    (hpc : l.pc = .returned → (s.loops t).pc = .returned) : s.Kept d (s.setLoop t l) where
  conn := ⟨_, rfl⟩
  trace := rfl
  queue i := by
    rw [queue_setLoop]
    split_ifs with hi
    · rw [hjobs, hi]
    · rfl
  held h := h
  returned i hi := by
    rw [setLoop_loops] at hi
    split_ifs at hi with hit
    · exact hit ▸ hpc hi
    · exact hi

lemma unmoved_setLoop {d : ConnId} {t : LoopId} {l : LoopThread}
    (hjobs : l.jobs.filter (fun f => f.conn = d) = s.queue d t)
    (hactive : l.active.count (.conn d) ≤ s.reports d t)
    (hpc : l.pc = .returned → (s.loops t).pc = .returned) : s.Unmoved d (s.setLoop t l) := by
  refine ⟨kept_setLoop hjobs hpc, fun i => ?_⟩
  rw [reports_setLoop]
  split_ifs with hi
  · exact hi ▸ hactive
  · exact le_refl _

lemma unmoved_setPc {d : ConnId} {t : LoopId} {pc : ThreadPc}
    (hbatch : pc.batch.filter (fun f => f.conn = d) =
      (s.loops t).pc.batch.filter fun f => f.conn = d)
    (hactive : pc.active.count (.conn d) ≤ (s.loops t).pc.active.count (.conn d))
    (hpc : pc ≠ .returned) : s.Unmoved d (s.setPc t pc) := by
  refine unmoved_setLoop ?_ hactive fun h => absurd h hpc
  rw [queue, LoopThread.jobs, LoopThread.jobs, List.filter_append, List.filter_append, ← hbatch]

lemma queue_push (d : ConnId) (t i : LoopId) (f : Functor) :
    (s.push t f).queue d i = s.queue d i ++ if i = t ∧ f.conn = d then [f] else [] := by
  rw [queue, queue, jobs_push, List.filter_append]
  by_cases hi : i = t <;> by_cases hf : f.conn = d <;> simp [hi, hf]

lemma reports_push (d : ConnId) (t i : LoopId) (f : Functor) :
    (s.push t f).reports d i = s.reports d i := by
  rw [reports, reports, LoopThread.active, LoopThread.active, push_pc]

lemma unmoved_push {d : ConnId} {t : LoopId} {f : Functor} (hf : f.conn ≠ d) :
    s.Unmoved d (s.push t f) where
  conn := ⟨_, rfl⟩
  trace := rfl
  queue i := by
    rw [queue_push, if_neg fun h => hf h.2, List.append_nil]
  reports i := le_of_eq (reports_push d t i f)
  held h := h
  returned i hi := by rwa [push_pc] at hi

/-- The destructor moves on, or an entry is erased. -/
lemma unmoved_setPhase {d : ConnId} (phase : Phase) (m : ConnectionMap)
    (hheld : s.Held d → Held d { s with phase := phase, connections_ := m }) :
    s.Unmoved d { s with phase := phase, connections_ := m } :=
  ⟨⟨⟨_, rfl⟩, rfl, fun _ => rfl, hheld, fun _ h => h⟩, fun _ => le_refl _⟩

/-! ### What a member function makes of its connection -/

/-- What a member function adds to the functors of its connection. -/
lemma Applied.queue {c : ConnId} {t : LoopId} {y : Ctx} (h : Applied c t y s s') (i : LoopId) :
    ∃ l, s'.queue c i = s.queue c i ++ l ∧
      ∀ f ∈ l, f.isAux = true ∧ i = (s.conn c).loop_ ∨
        .closeCallback ∈ y.out ∧ i = 0 ∧
          (f = .connectDestroy c ∨ f = .removeConnectionInLoop c) := by
  obtain ⟨l, hl, hof⟩ := h.jobs i
  refine ⟨l.filter fun f => f.conn = c, ?_, fun f hf => (hof f (List.mem_of_mem_filter hf)).2⟩
  rw [ServerSys.queue, ServerSys.queue, hl, List.filter_append]

lemma Applied.reports {c : ConnId} {t : LoopId} {y : Ctx} (h : Applied c t y s s') (d : ConnId)
    (i : LoopId) : s'.reports d i = s.reports d i := by
  rw [ServerSys.reports, ServerSys.reports, h.active]

/-- It leaves the other connections alone: those of other names stay in the table. -/
lemma Applied.unmoved {c d : ConnId} {t : LoopId} {y : Ctx} (h : Applied c t y s s')
    (hne : d ≠ c) (hname : ∀ e ∈ s.entries, e.2 = d → e.1 ≠ y.conn.name_) : s.Unmoved d s' where
  conn := ⟨_, h.conn_of_ne hne⟩
  trace := by rw [h.trace, Function.update_of_ne hne]
  queue i := by
    obtain ⟨l, hl, hof⟩ := h.jobs i
    have hnil : l.filter (fun f => f.conn = d) = [] :=
      List.filter_eq_nil_iff.mpr fun f hf => by simp [(hof f hf).1, hne.symm]
    rw [ServerSys.queue, ServerSys.queue, hl, List.filter_append, hnil, List.append_nil]
  reports i := le_of_eq (h.reports d i)
  held := by
    rintro ⟨e, he, hed⟩
    refine ⟨e, ?_, hed⟩
    rcases h.entries with hm | ⟨-, hm⟩ <;> rw [hm]
    · exact he
    · exact List.mem_filter.mpr ⟨he, decide_eq_true (hname e he hed)⟩
  returned i hi := h.pc i ▸ hi

lemma Applied.alike {c : ConnId} {t : LoopId} {y : Ctx} (h : Applied c t y s s') :
    y.Alike (s'.view c) := by
  refine .of_eq h.conn_self ?_
  change (s'.trace c).map Prod.snd = y.trace.map Prod.snd
  rw [h.trace, Function.update_self]

/-- A connection stays attended when it does not close. -/
lemma Attended.applied {first : List Functor} {n : ℕ} {c : ConnId} {t : LoopId} {y : Ctx}
    (ha : s.Attended first n c) (h : Applied c t y s s') (hf : (s.ctx c t).Frame y)
    (hout : .closeCallback ∉ y.out) : s'.Attended first n c := by
  have hloop : (s'.conn c).loop_ = (s.conn c).loop_ := by
    rw [h.conn_self]
    exact hf.loop_
  have hheld : s.Held c → s'.Held c := by
    rintro ⟨e, he, hec⟩
    refine ⟨e, ?_, hec⟩
    rcases h.entries with hm | ⟨hcl, -⟩
    · rw [hm]
      exact he
    · exact absurd hcl hout
  obtain ⟨rest, hrest, haux, hto⟩ := ha.here
  refine ⟨fun i hi => ?_, ?_, fun i => ?_, ?_⟩ <;> rw [hloop] at *
  · obtain ⟨l, hl, hof⟩ := h.queue i
    rw [hl, ha.elsewhere i hi, List.nil_append]
    refine List.eq_nil_iff_forall_not_mem.mpr fun f hfl => ?_
    rcases hof f hfl with ⟨-, he⟩ | ⟨hcl, -⟩
    · exact hi he
    · exact hout hcl
  · obtain ⟨l, hl, hof⟩ := h.queue (s.conn c).loop_
    refine ⟨rest ++ l, ?_, fun f hfl => ?_, ?_⟩
    · rw [hl, hrest, List.append_assoc]
    · rcases List.mem_append.mp hfl with hfl | hfl
      · exact haux f hfl
      · rcases hof f hfl with ⟨haux, -⟩ | ⟨hcl, -⟩
        · exact Or.inl haux
        · exact absurd hcl hout
    · exact hto.imp hheld (List.mem_append_left _)
  · rw [h.reports]
    exact ha.reports i
  · rw [h.pc]
    exact ha.running

/-- A connection that is down is in the last stage. -/
lemma Stage.down_applied {c : ConnId} {t : LoopId} {y : Ctx} {tail : List Call}
    (h : Applied c t y s s')
    (htail : tail = [.connectionCallback false] ∨
      tail = [.connectionCallback false, .closeCallback])
    (hy : y.Down tail) (hqueue : ∀ i, .connectEstablished c ∉ s.queue c i)
    (hreports : ∀ i, s.reports c i = 0) : s'.Stage c := by
  refine .down htail (hy.alike h.alike) (fun i => ?_) fun i => ?_
  · obtain ⟨l, hl, hof⟩ := h.queue i
    rw [hl, List.mem_append, not_or]
    refine ⟨hqueue i, fun hm => ?_⟩
    rcases hof _ hm with ⟨haux, -⟩ | ⟨-, -, he | he⟩
    · cases haux
    · cases he
    · cases he
  · rw [h.reports, hreports]

/-- Nothing waits to establish a connection that is up. -/
lemma Attended.not_mem {n : ℕ} {c : ConnId} (ha : s.Attended [] n c) (i : LoopId) :
    .connectEstablished c ∉ s.queue c i := by
  intro hm
  by_cases hi : i = (s.conn c).loop_
  · obtain ⟨rest, hrest, haux, -⟩ := ha.here
    rw [hi, hrest] at hm
    rcases haux _ hm with he | he
    · cases he
    · cases he
  · rw [ha.elsewhere i hi] at hm
    cases hm

end ServerSys

end Reactor
