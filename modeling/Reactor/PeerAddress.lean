import Reactor.InetAddress
import Reactor.Lib.Infix

/-!
The way of a client's address from `accept4` to the connection: `Socket.cc`, `Acceprot.cc` and the
constructor call in `TcpServer.cc`.

`setSockAddrInet` assigns the member to itself, so the address that the acceptor hands on is the
one its default constructor made.
-/

namespace Reactor

open Lib.Infix

/-! ### From the acceptor to the connection -/

/-- The descriptor and the address of a new client, or `-1` with `errno`. -/
abbrev AcceptResult := Except Errno (ℕ × SockaddrIn)

def InetAddress.setSockAddrInet (_addr : SockaddrIn) (a : InetAddress) : InetAddress :=
  { a with addr_ := a.addr_ }

/-- `Socket::accept`: the descriptor, and what `*peeraddr` is left as. -/
def Socket.accept (res : AcceptResult) (peeraddr : InetAddress) : Except Errno ℕ × InetAddress :=
  match res with
  | .error e => (.error e, peeraddr)
  | .ok (cfd, addr) => (.ok cfd, peeraddr.setSockAddrInet addr)

/-- `Acceprot::handleRead`: what `newConnectionCallback_` gives, if it is called. -/
def Acceprot.handleRead {α : Type} (newConnectionCallback_ : Option (ℕ → InetAddress → α))
    (res : AcceptResult) : Option α :=
  match Socket.accept res (.new 0) with
  | (.ok cfd, peerAddr) => newConnectionCallback_.map fun callback => callback cfd peerAddr
  | (.error _, _) => none

/-- The addresses of a connection. -/
structure ConnAddrs where
  localAddr_ : InetAddress
  peerAddr_ : InetAddress

def ConnAddrs.peerAddress (c : ConnAddrs) : InetAddress := c.peerAddr_

/-- The connection that `TcpServer::newConnection` makes, `getsockname` having filled in
`local`. -/
def TcpServer.newConnection (local_ : SockaddrIn) (_sockfd : ℕ) (peerAddr : InetAddress) :
    ConnAddrs where
  localAddr_ := ⟨local_⟩
  peerAddr_ := peerAddr

/-! ### What a client's address is printed as -/

/-- The bytes of an address with dots between them. -/
def dotted (a b c d : Byte) : String :=
  toString a.toNat ++ "." ++ toString b.toNat ++ "." ++ toString c.toNat ++ "." ++
    toString d.toNat

/-- The `sockaddr_in` of the client `a.b.c.d` on port `p`. -/
def SockaddrIn.client (a b c d : Byte) (p : UInt16) : SockaddrIn where
  sin_family := AF_INET
  sin_port := htons p
  s_addr := .ofNat (a.toNat + 2 ^ 8 * b.toNat + 2 ^ 16 * c.toNat + 2 ^ 24 * d.toNat)

lemma ntohs_htons (p : UInt16) : ntohs (htons p) = p := by
  apply UInt16.toBitVec_inj.mp
  simp only [ntohs, htons, UInt16.toBitVec_or, UInt16.toBitVec_shiftLeft,
    UInt16.toBitVec_shiftRight]
  generalize p.toBitVec = v
  ext i hi
  simp only [UInt16.toBitVec_ofNat, BitVec.ofNat_eq_ofNat, BitVec.reduceMod,
    BitVec.shiftLeft_eq', BitVec.ushiftRight_eq', BitVec.toNat_ofNat, Nat.reducePow,
    Nat.reduceMod, BitVec.getElem_or, BitVec.getElem_shiftLeft, BitVec.getElem_ushiftRight,
    BitVec.getLsbD_or, BitVec.getLsbD_shiftLeft, BitVec.getLsbD_ushiftRight]
  grind

/-- The bytes of the address, in the order they have in memory. -/
lemma bytes_client (a b c d : Byte) (p : UInt16) :
    (SockaddrIn.client a b c d p).bytes.drop 4 = [a, b, c, d] := by
  have ha := a.toNat_lt
  have hb := b.toNat_lt
  have hc := c.toNat_lt
  have hd := d.toNat_lt
  simp only [SockaddrIn.client, SockaddrIn.bytes, List.drop_succ_cons, List.drop_zero,
    List.cons.injEq, and_true]
  refine ⟨?_, ?_, ?_, ?_⟩ <;> apply UInt8.toNat_inj.mp
  · simp only [UInt32.toNat_toUInt8, UInt32.toNat_ofNat']
    omega
  · simp only [UInt32.toNat_toUInt8, UInt32.toNat_shiftRight, UInt32.toNat_ofNat',
      Nat.shiftRight_eq_div_pow, UInt32.reduceToNat, Nat.reduceMod]
    omega
  · simp only [UInt32.toNat_toUInt8, UInt32.toNat_shiftRight, UInt32.toNat_ofNat',
      Nat.shiftRight_eq_div_pow, UInt32.reduceToNat, Nat.reduceMod]
    omega
  · simp only [UInt32.toNat_toUInt8, UInt32.toNat_shiftRight, UInt32.toNat_ofNat',
      Nat.shiftRight_eq_div_pow, UInt32.reduceToNat, Nat.reduceMod]
    omega

/-- **What `accept4` reports names the client**: `inet_ntop` of its `in_addr` is the address, and
`ntohs` of its port the port. -/
theorem client_names (a b c d : Byte) (p : UInt16) :
    inet_ntop ((SockaddrIn.client a b c d p).bytes.drop 4) = dotted a b c d ∧
      ntohs (SockaddrIn.client a b c d p).sin_port = p := by
  rw [bytes_client]
  exact ⟨rfl, ntohs_htons p⟩

/-! ### The text determines the address -/

lemma dot_notMem (n : ℕ) : '.' ∉ (toString n).toList := by
  rw [Nat.toString_eq_repr, Nat.toList_repr]
  intro h
  have := Nat.isDigit_of_mem_toDigits (by decide) (by decide) h
  revert this
  decide

lemma byte_of_toString {a a' : Byte}
    (h : (toString a.toNat).toList = (toString a'.toNat).toList) : a = a' := by
  have hd := congrArg (fun text : List Char => Nat.ofDigitChars 10 text 0) h
  exact UInt8.toNat_inj.mp (by simpa [Nat.ofDigitChars_toDigits] using hd)

lemma dotted_inj {a b c d a' b' c' d' : Byte} :
    dotted a b c d = dotted a' b' c' d' ↔ a = a' ∧ b = b' ∧ c = c' ∧ d = d' := by
  refine ⟨fun h => ?_, by rintro ⟨rfl, rfl, rfl, rfl⟩; rfl⟩
  have hl := congrArg String.toList h
  have hdot : ".".toList = ['.'] := rfl
  simp only [dotted, String.toList_append, List.append_assoc, hdot, List.singleton_append] at hl
  obtain ⟨ha, hl⟩ := (append_cons_inj (dot_notMem _) (dot_notMem _)).mp hl
  obtain ⟨hb, hl⟩ := (append_cons_inj (dot_notMem _) (dot_notMem _)).mp hl
  obtain ⟨hc, hd⟩ := (append_cons_inj (dot_notMem _) (dot_notMem _)).mp hl
  exact ⟨byte_of_toString ha, byte_of_toString hb, byte_of_toString hc, byte_of_toString hd⟩

/-! ### The peer address -/

/-- The address is printed as that of the client. -/
structure InetAddress.Names (i : InetAddress) (a b c d : Byte) (p : UInt16) : Prop where
  toIP : i.toIP = dotted a b c d
  toPort : i.toPort = p
  toIpPort : i.toIpPort = dotted a b c d ++ ":" ++ toString p.toNat

/-- **The property**: the acceptor hands on an address that names the client, and the connection
keeps it. -/
def PeerNamed (a b c d : Byte) (p : UInt16) (cfd : ℕ) (local_ : SockaddrIn) : Prop :=
  ∃ peerAddr, Acceprot.handleRead (some Prod.mk) (.ok (cfd, .client a b c d p)) =
      some (cfd, peerAddr) ∧
    peerAddr.Names a b c d p ∧
    ∃ conn, Acceprot.handleRead (some (TcpServer.newConnection local_))
        (.ok (cfd, .client a b c d p)) = some conn ∧
      conn.peerAddress.Names a b c d p

/-- The default address is printed as the family and the port it begins with. -/
lemma names_new {a b c d : Byte} {p : UInt16} :
    (InetAddress.new 0).Names a b c d p ↔ (a = 2 ∧ b = 0 ∧ c = 0 ∧ d = 0) ∧ p = 0 := by
  have hip : (InetAddress.new 0).toIP = dotted 2 0 0 0 := rfl
  have hport : (InetAddress.new 0).toPort = 0 := rfl
  constructor
  · intro h
    obtain ⟨ha, hb, hc, hd⟩ := dotted_inj.mp (hip.symm.trans h.toIP)
    exact ⟨⟨ha.symm, hb.symm, hc.symm, hd.symm⟩, (hport.symm.trans h.toPort).symm⟩
  · rintro ⟨⟨rfl, rfl, rfl, rfl⟩, rfl⟩
    exact ⟨hip, hport, rfl⟩

/-- **When a peer is named**: for the client `2.0.0.0` on port 0 only, whatever client there
is. -/
theorem peerNamed_iff (a b c d : Byte) (p : UInt16) (cfd : ℕ) (local_ : SockaddrIn) :
    PeerNamed a b c d p cfd local_ ↔ (a = 2 ∧ b = 0 ∧ c = 0 ∧ d = 0) ∧ p = 0 := by
  rw [← names_new]
  constructor
  · rintro ⟨peerAddr, hread, hnames, -⟩
    obtain ⟨-, rfl⟩ := Prod.mk.inj (Option.some.inj hread)
    exact hnames
  · intro h
    exact ⟨_, rfl, h, _, rfl, h⟩

/-- The client `127.0.0.1` on port 8080 is not named. -/
theorem not_peerNamed : ¬ PeerNamed 127 0 0 1 8080 7 ⟨AF_INET, htons 80, INADDR_ANY⟩ := by
  rintro ⟨peerAddr, hread, hnames, -⟩
  obtain ⟨-, rfl⟩ := Prod.mk.inj (Option.some.inj hread)
  exact absurd hnames.toPort (by decide)

end Reactor
