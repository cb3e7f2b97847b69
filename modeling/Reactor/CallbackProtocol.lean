import Reactor.StageInvariant

/-!
The protocol of a connection's callbacks: the user is told once that it is up and, before it is
gone, once that it is down, is handed messages in between, and the server is asked to remove it
at most once.
-/

namespace Reactor

open Lib.Trace

/-- The functors bound to a `TcpConnectionPtr`, which keeps the connection from going. -/
def Functor.owns : Functor → Bool
  | .sendInLoop _ _ => false
  | .shutdownInLoop _ => false
  | _ => true

namespace Ctx

end Ctx

namespace ServerSys

variable {conf : ServerConf} {s s' : ServerSys}

/-- Something holds a pointer to the connection: the table of the server, or a functor that a
loop has still to run. -/
def Owned (c : ConnId) (s : ServerSys) : Prop :=
  s.Held c ∨ ∃ t, (s.loops t).pc ≠ .returned ∧ ∃ f ∈ s.queue c t, f.owns = true

lemma Attended.owned {first : List Functor} {n : ℕ} {c : ConnId} (ha : s.Attended first n c) :
    s.Owned c := by
  obtain ⟨rest, hrest, -, hheld⟩ := ha.here
  refine hheld.imp_right fun hm => ⟨_, ha.running, .connectDestroy c, ?_, rfl⟩
  rw [hrest]
  exact List.mem_append_right _ hm

/-- A client is accepted, sends a byte and closes, and its connection is destroyed. -/
def served : List ServerAct :=
  [.check 0, .poll 0 [.acceptor], .accept 5 [], .swap 0, .endBatch 0, .check 0,
    .poll 0 [.fd 5 EPOLLIN], .handle 0 ⟨[], .ok [65], [], [], .ok 0⟩, .swap 0, .endBatch 0,
    .check 0, .poll 0 [.fd 5 EPOLLIN], .handle 0 ⟨[], .ok [], [], [], .ok 0⟩, .swap 0,
    .functor 0 ⟨[], [], .ok 0⟩, .endBatch 0]

end ServerSys

end Reactor
