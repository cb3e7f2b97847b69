import Reactor.StageSteps
import Reactor.InetAddress

/-!
The table of connections over any sequence of `newConnection` and `removeConnectionInLoop`:
it holds the connections made and not removed, each under a name no other has.

What goes before the number in a name has one length for all the connections of a server, and
the buffer has room for all of it; so the names differ because the numbers do.
-/

namespace Reactor

open Lib.Trace

/-- A server, and the connections it was told to remove. -/
structure TableSys where
  sys : ServerSys
  removed : List ConnId

inductive TableAct
  | newConnection (sockfd : ℕ) (onUp : Script)
  | removeConnectionInLoop (c : ConnId)

namespace TableSys

def new : TableSys where
  sys := .new
  removed := []

variable (conf : ServerConf)

/-- A call. Fewer than `2 ^ 31` connections are made, and only what was made is removed. -/
def step (s : TableSys) : TableAct → Option TableSys
  | .newConnection sockfd onUp =>
    if s.sys.nextConnId_ < 2 ^ 31 then
      some { s with sys := s.sys.newConnection conf sockfd onUp }
    else none
  | .removeConnectionInLoop c =>
    if s.sys.Made c then some ⟨s.sys.removeConnectionInLoop c, c :: s.removed⟩ else none

def Step (s : TableSys) (a : TableAct) (t : TableSys) : Prop := s.step conf a = some t

/-- **The property of the table.** The names are whole and differ, and the table holds what
was made and not removed, under its name, once. -/
structure Intact (s : TableSys) : Prop where
  name_ : ∀ c, s.sys.Made c →
    (s.sys.conn c).name_ = conf.name_ ++ ("-" ++ conf.ipPort_ ++ "#" ++ toString c)
  distinct : ∀ c d, s.sys.Made c → s.sys.Made d →
    (s.sys.conn c).name_ = (s.sys.conn d).name_ → c = d
  entries : ∀ e, e ∈ s.sys.connections_ ↔
    s.sys.Made e.2 ∧ e.2 ∉ s.removed ∧ e.1 = (s.sys.conn e.2).name_
  nodup : (s.sys.connections_.map Prod.fst).Nodup

/-- **The property of a call.** A connection made replaces no entry, and a removal leaves the
entries of the other connections. -/
def Keeps (s : TableSys) (a : TableAct) (t : TableSys) : Prop :=
  match a with
  | .newConnection _ _ =>
    ServerSys.connName conf s.sys.nextConnId_ ∉ s.sys.connections_.map Prod.fst
  | .removeConnectionInLoop c => ∀ e ∈ s.sys.connections_, e.2 ≠ c → e ∈ t.sys.connections_

/-! ### What a call does -/

variable {conf}

/-- Establishing a connection leaves the table alone. -/
lemma newConnection_connections (sockfd : ℕ) (onUp : Script) (s : ServerSys) :
    (s.newConnection conf sockfd onUp).connections_ =
      (s.addConnection conf sockfd).connections_ := by
  unfold ServerSys.newConnection
  simp only
  split_ifs
  · have hf := (Ctx.primitive_frame ((s.addConnection conf sockfd).ctx s.nextConnId_
      0)).connectEstablished onUp (.refl _)
    rcases (ServerSys.applied_withConn hf).connections_ with h | ⟨hout, -⟩
    · exact h
    · exact absurd hout (Ctx.quiet_noClose.connectEstablished onUp (ServerSys.noClose_ctx _ _ _))
  · rfl

lemma newConnection_nextConnId (sockfd : ℕ) (onUp : Script) (s : ServerSys) :
    (s.newConnection conf sockfd onUp).nextConnId_ = s.nextConnId_ + 1 :=
  (ServerSys.sameTable_newConnection sockfd onUp).next

/-- The names of the connections, with that of the new one. -/
lemma newConnection_name (sockfd : ℕ) (onUp : Script) (s : ServerSys) (c : ConnId) :
    ((s.newConnection conf sockfd onUp).conn c).name_ =
      if c = s.nextConnId_ then ServerSys.connName conf s.nextConnId_ else (s.conn c).name_ := by
  rw [(ServerSys.sameTable_newConnection sockfd onUp).name_, ServerSys.addConnection]
  split_ifs with h
  · subst h
    simp [Function.update_self, ServerSys.newConn, TcpConnection.new]
  · simp [Function.update_of_ne h]

/-! ### The invariant -/

lemma made_newConnection (sockfd : ℕ) (onUp : Script) {s : ServerSys}
    (hpos : 1 ≤ s.nextConnId_) (c : ConnId) :
    (s.newConnection conf sockfd onUp).Made c ↔ s.Made c ∨ c = s.nextConnId_ := by
  unfold ServerSys.Made
  rw [newConnection_nextConnId, Nat.lt_succ_iff_lt_or_eq]
  constructor
  · rintro ⟨h, hlt | heq⟩
    · exact Or.inl ⟨h, hlt⟩
    · exact Or.inr heq
  · rintro (⟨h, hlt⟩ | rfl)
    · exact ⟨h, Or.inl hlt⟩
    · exact ⟨hpos, Or.inr rfl⟩

variable (conf) in
/-- The table is intact, and of the numbers only those below the next are in use. -/
structure Inv (s : TableSys) : Prop where
  pos : 1 ≤ s.sys.nextConnId_
  bound : s.sys.nextConnId_ ≤ 2 ^ 31
  removed : ∀ c ∈ s.removed, c < s.sys.nextConnId_
  name_ : ∀ c, s.sys.Made c → (s.sys.conn c).name_ = ServerSys.connName conf c
  entries : ∀ e, e ∈ s.sys.connections_ ↔
    s.sys.Made e.2 ∧ e.2 ∉ s.removed ∧ e.1 = (s.sys.conn e.2).name_
  nodup : (s.sys.connections_.map Prod.fst).Nodup

lemma inv_new : Inv conf new where
  pos := Nat.le_refl 1
  bound := by decide
  removed := by simp [new]
  name_ c hc := absurd (Nat.lt_of_le_of_lt hc.1 hc.2) (by decide)
  entries e := iff_of_false (by simp [new, ServerSys.new]) fun h =>
    absurd (Nat.lt_of_le_of_lt h.1.1 h.1.2) (by decide)
  nodup := by simp [new, ServerSys.new]

lemma Inv.name_inj {s : TableSys} (h : s.Inv conf) {c d : ConnId} (hc : s.sys.Made c)
    (hd : s.sys.Made d) (he : (s.sys.conn c).name_ = (s.sys.conn d).name_) : c = d := by
  rw [h.name_ c hc, h.name_ d hd] at he
  exact ServerSys.connName_inj (Nat.lt_of_lt_of_le hc.2 h.bound)
    (Nat.lt_of_lt_of_le hd.2 h.bound) he

lemma Inv.intact {s : TableSys} (h : s.Inv conf) : s.Intact conf where
  name_ c hc := by
    rw [h.name_ c hc, ServerSys.connName_eq (Nat.lt_of_lt_of_le hc.2 h.bound)]
  distinct _ _ hc hd he := h.name_inj hc hd he
  entries := h.entries
  nodup := h.nodup

/-- The next name is in use for no entry. -/
lemma Inv.name_fresh {s : TableSys} (h : s.Inv conf) (hlt : s.sys.nextConnId_ < 2 ^ 31) :
    ServerSys.connName conf s.sys.nextConnId_ ∉ s.sys.connections_.map Prod.fst := by
  intro hmem
  obtain ⟨e, he, hname⟩ := List.mem_map.mp hmem
  obtain ⟨hmade, -, hfst⟩ := (h.entries e).mp he
  rw [hfst, h.name_ _ hmade] at hname
  have heq := ServerSys.connName_inj (Nat.lt_of_lt_of_le hmade.2 h.bound) hlt hname
  exact absurd hmade.2 (heq ▸ Nat.lt_irrefl _)

/-- **A connection is made.** -/
lemma Inv.newConnection {s : TableSys} (h : s.Inv conf) (hlt : s.sys.nextConnId_ < 2 ^ 31)
    (sockfd : ℕ) (onUp : Script) :
    Inv conf { s with sys := s.sys.newConnection conf sockfd onUp } := by
  have hfresh := h.name_fresh hlt
  have hmade : ∀ c, (s.sys.newConnection conf sockfd onUp).Made c ↔ _ :=
    made_newConnection sockfd onUp h.pos
  have hne : ∀ c, s.sys.Made c → c ≠ s.sys.nextConnId_ := fun c hc => Nat.ne_of_lt hc.2
  have hconns : (s.sys.newConnection conf sockfd onUp).connections_ = s.sys.connections_ ++
      [(ServerSys.connName conf s.sys.nextConnId_, s.sys.nextConnId_)] := by
    rw [newConnection_connections, ServerSys.addConnection, ServerSys.insertConnection]
    refine congrArg (· ++ _) (List.filter_eq_self.mpr fun e he => ?_)
    simpa using fun heq => hfresh (List.mem_map.mpr ⟨e, he, heq⟩)
  refine ⟨?_, ?_, fun c hc => ?_, fun c hc => ?_, fun e => ?_, ?_⟩
  · rw [newConnection_nextConnId]
    exact Nat.le_succ_of_le h.pos
  · rw [newConnection_nextConnId]
    exact hlt
  · rw [newConnection_nextConnId]
    exact Nat.lt_succ_of_lt (h.removed c hc)
  · rw [newConnection_name]
    rcases (hmade c).mp hc with hc | rfl
    · rw [if_neg (hne c hc), h.name_ c hc]
    · rw [if_pos rfl]
  · simp only [hconns, List.mem_append, List.mem_singleton, newConnection_name, hmade]
    constructor
    · rintro (he | rfl)
      · obtain ⟨hm, hr, hfst⟩ := (h.entries e).mp he
        exact ⟨Or.inl hm, hr, by rw [if_neg (hne _ hm), hfst]⟩
      · exact ⟨Or.inr rfl, fun hr => Nat.lt_irrefl _ (h.removed _ hr), (if_pos rfl).symm⟩
    · rintro ⟨hm | hm, hr, hfst⟩
      · rw [if_neg (hne _ hm)] at hfst
        exact Or.inl ((h.entries e).mpr ⟨hm, hr, hfst⟩)
      · rw [if_pos hm] at hfst
        exact Or.inr (Prod.ext hfst hm)
  · rw [hconns, List.map_append, List.map_singleton, List.nodup_append]
    refine ⟨h.nodup, List.nodup_singleton _, fun n hn m hm heq => ?_⟩
    rw [List.mem_singleton] at hm
    rw [heq, hm] at hn
    exact hfresh hn

/-- **A connection is removed**, for the first time or again. -/
lemma Inv.remove {s : TableSys} (h : s.Inv conf) {c : ConnId} (hc : s.sys.Made c) :
    Inv conf ⟨s.sys.removeConnectionInLoop c, c :: s.removed⟩ := by
  refine ⟨h.pos, h.bound, fun d hd => ?_, h.name_, fun e => ?_, ?_⟩
  · rcases List.mem_cons.mp hd with rfl | hd
    · exact hc.2
    · exact h.removed d hd
  · -- the entry with the name of `c` is that of `c`
    change e ∈ s.sys.connections_.filter _ ↔ s.sys.Made e.2 ∧ _ ∧ e.1 = (s.sys.conn e.2).name_
    rw [List.mem_filter, h.entries, List.mem_cons, not_or, decide_eq_true_eq]
    constructor
    · rintro ⟨⟨hm, hr, hfst⟩, hne⟩
      exact ⟨hm, ⟨fun he => hne (he ▸ hfst), hr⟩, hfst⟩
    · rintro ⟨hm, ⟨hne, hr⟩, hfst⟩
      exact ⟨⟨hm, hr, hfst⟩, fun heq => hne (h.name_inj hm hc (hfst ▸ heq))⟩
  · exact h.nodup.sublist (List.filter_sublist.map _)

lemma Inv.keeps_remove {s : TableSys} (h : s.Inv conf) {c : ConnId} (hc : s.sys.Made c)
    {e : String × ConnId} (he : e ∈ s.sys.connections_) (hne : e.2 ≠ c) :
    e ∈ (s.sys.removeConnectionInLoop c).connections_ := by
  obtain ⟨hmade, -, hfst⟩ := (h.entries e).mp he
  refine List.mem_filter.mpr ⟨he, ?_⟩
  simp only [decide_eq_true_eq]
  exact fun heq => hne (h.name_inj hmade hc (hfst ▸ heq))

/-- A call keeps the invariant and has its property. -/
lemma Inv.step {s t : TableSys} {a : TableAct} (h : s.Inv conf) (hst : s.Step conf a t) :
    t.Inv conf ∧ s.Keeps conf a t := by
  unfold Step at hst
  cases a with
  | newConnection sockfd onUp =>
    simp only [TableSys.step, Option.ite_none_right_eq_some, Option.some.injEq] at hst
    obtain ⟨hlt, rfl⟩ := hst
    exact ⟨h.newConnection hlt sockfd onUp, h.name_fresh hlt⟩
  | removeConnectionInLoop c =>
    simp only [TableSys.step, Option.ite_none_right_eq_some, Option.some.injEq] at hst
    obtain ⟨hc, rfl⟩ := hst
    exact ⟨h.remove hc, fun e he hne => h.keeps_remove hc he hne⟩

/-- The run lemma. -/
lemma intact_keeps {tr : List (TableAct × TableSys)} (h : Chain (Step conf) new tr) :
    Always (Intact conf) new tr ∧ Chain (Keeps conf) new tr := by
  have hinv : Always (Inv conf) new tr :=
    always_of_inv (fun s a t (hi : s.Inv conf) (hst : s.Step conf a t) => (hi.step hst).1)
      inv_new h
  exact ⟨hinv.mono fun _ hi => hi.intact,
    chain_of_inv (fun s a t (hi : s.Inv conf) (hst : s.Step conf a t) => hi.step hst) inv_new h⟩

/-- **Connection table integrity**, for a server on any address. -/
theorem table_intact (listenAddr : InetAddress) (nameArg : String) (numThreads : ℕ)
    (writeCompleteCallback : Bool) {tr : List (TableAct × TableSys)}
    (h : Chain (Step (.ofAddress listenAddr nameArg numThreads writeCompleteCallback)) new tr) :
    Always (Intact (.ofAddress listenAddr nameArg numThreads writeCompleteCallback)) new tr ∧
      Chain (Keeps (.ofAddress listenAddr nameArg numThreads writeCompleteCallback)) new tr :=
  intact_keeps h

/-- Two connections of a server on port 8080 with two sub-loops, the first removed twice. -/
theorem table_intact_removedTwice :
    let conf := ServerConf.ofAddress (.new 8080) "Echoserver" 2 false
    let tr := walk (step conf) new [.newConnection 7 [], .newConnection 8 [],
      .removeConnectionInLoop 1, .removeConnectionInLoop 1]
    tr.length = 4 ∧ Always (Intact conf) new tr ∧ Chain (Keeps conf) new tr :=
  ⟨by decide +kernel, table_intact (.new 8080) "Echoserver" 2 false (chain_walk _ _ _)⟩

end TableSys

end Reactor
