import Reactor.TcpServer

/-!
Addresses and the text they are printed as: `InetAddress.h` and `InetAddress.cc`, and the
settings the constructor of a server makes of one.

`inet_ntop` is given the address of the whole `sockaddr_in`, and so it renders the first four
bytes of that: the family and the port. Integers lie in memory with their low byte first.
-/

namespace Reactor

/-- The two bytes of an integer in the other order. -/
def htons (hostshort : UInt16) : UInt16 := hostshort <<< 8 ||| hostshort >>> 8

def ntohs (netshort : UInt16) : UInt16 := netshort <<< 8 ||| netshort >>> 8

def AF_INET : UInt16 := 2

def INADDR_ANY : UInt32 := 0

/-- The fields but for the padding. Port and address are in network order. -/
structure SockaddrIn where
  sin_family : UInt16
  sin_port : UInt16
  s_addr : UInt32
  deriving DecidableEq

/-- The address in memory, up to its padding. -/
def SockaddrIn.bytes (a : SockaddrIn) : List Byte :=
  [a.sin_family.toUInt8, (a.sin_family >>> 8).toUInt8,
    a.sin_port.toUInt8, (a.sin_port >>> 8).toUInt8,
    a.s_addr.toUInt8, (a.s_addr >>> 8).toUInt8, (a.s_addr >>> 16).toUInt8,
    (a.s_addr >>> 24).toUInt8]

/-- `inet_ntop` for `AF_INET`: the first four bytes at `src`, with dots between them. -/
def inet_ntop : List Byte → String
  | a :: b :: c :: d :: _ =>
    toString a.toNat ++ "." ++ toString b.toNat ++ "." ++ toString c.toNat ++ "." ++
      toString d.toNat
  | _ => ""

structure InetAddress where
  addr_ : SockaddrIn
  deriving DecidableEq

namespace InetAddress

/-- The constructor from a port. It makes nothing of its second argument. -/
def new (port : UInt16) : InetAddress := ⟨⟨AF_INET, htons port, INADDR_ANY⟩⟩

def toIP (a : InetAddress) : String := inet_ntop a.addr_.bytes

def toPort (a : InetAddress) : UInt16 := ntohs a.addr_.sin_port

def toIpPort (a : InetAddress) : String :=
  inet_ntop a.addr_.bytes ++ ":" ++ toString (ntohs a.addr_.sin_port).toNat

end InetAddress

/-! ### How long the text is -/

lemma length_toString_byte (b : Byte) : (toString b.toNat).length ≤ 3 := by
  have := b.toNat_lt
  exact (Nat.length_repr_le_iff (by decide)).mpr (by omega)

lemma length_toString_uint16 (p : UInt16) : (toString p.toNat).length ≤ 5 := by
  have := p.toNat_lt
  exact (Nat.length_repr_le_iff (by decide)).mpr (by omega)

lemma length_inet_ntop (a b c d : Byte) (src : List Byte) :
    (inet_ntop (a :: b :: c :: d :: src)).length ≤ 15 := by
  have ha := length_toString_byte a
  have hb := length_toString_byte b
  have hc := length_toString_byte c
  have hd := length_toString_byte d
  have hdot : ".".length = 1 := by decide
  simp only [inet_ntop, String.length_append]
  omega

/-- **An address printed has at most 21 characters.** -/
theorem InetAddress.length_toIpPort (a : InetAddress) : a.toIpPort.length ≤ 21 := by
  have hip : (inet_ntop a.addr_.bytes).length ≤ 15 := length_inet_ntop _ _ _ _ _
  have hport := length_toString_uint16 (ntohs a.addr_.sin_port)
  have hcolon : ":".length = 1 := by decide
  rw [toIpPort, String.length_append, String.length_append]
  omega

/-- The settings of a server constructed for an address, with a name. -/
def ServerConf.ofAddress (listenAddr : InetAddress) (nameArg : String) (numThreads : ℕ)
    (writeCompleteCallback : Bool) : ServerConf where
  name_ := nameArg
  ipPort_ := listenAddr.toIpPort
  ipPort_length := listenAddr.length_toIpPort
  numThreads_ := numThreads
  writeCompleteCallback_ := writeCompleteCallback

end Reactor
