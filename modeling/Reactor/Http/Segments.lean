import Reactor.Http.Answered
import Reactor.Http.BufferRoom
import Reactor.Http.Malformed
import Reactor.Http.TcpConnection

/-!
A request that arrives in several reads. The first read that `processRead` is called for is also
the last: the `DELETE` task it adds is processed by the thread it runs in, before it returns, and
deletes the connection, whatever the parse has come to.
-/

namespace Reactor.Http

open Lib.Infix

/-- A request for `GET`. -/
structure GetRequest extends CompleteRequest where
  method_get : method = [71, 69, 84]

/-- Bytes that arrive in one or several reads. -/
structure Reads (bytes : List Byte) where
  parts : List (List Byte)
  parts_ne : parts ≠ []
  part_ne : ∀ p ∈ parts, p ≠ []
  flatten : parts.flatten = bytes

/-- A connection from the side of the client: what has become of it, the requests that were
processed, the error replies that were appended, and whether its `DELETE` task was processed. -/
structure Link where
  conn : TcpConnection
  socket : Socket
  handled : List HttpRequest
  rejected : ℕ
  closed : Bool

namespace Link

def new (readData writeData : ℕ) (sends : ℕ → ℤ) : Link where
  conn := .new readData writeData
  socket := ⟨sends, 0, []⟩
  handled := []
  rejected := 0
  closed := false

/-- A read event with its bytes. Once the connection is deleted, there are none. -/
def receive (host : Host) (rounds : ℕ) (bytes : List Byte) (l : Link) :
    Option (Except Crash Link) :=
  if l.closed then some (.ok l)
  else
    (l.conn.processRead host rounds (.ok bytes) l.socket).map fun result => result.map fun s =>
      { conn := s.conn
        socket := s.socket
        handled := l.handled ++ s.handled
        rejected := l.rejected + s.rejected.toNat
        closed := decide (.DELETE ∈ s.tasks) }

/-- One read after the other. -/
def run (host : Host) (rounds : ℕ) : List (List Byte) → Link → Option (Except Crash Link)
  | [], l => some (.ok l)
  | bytes :: parts, l =>
    match l.receive host rounds bytes with
    | some (.ok l) => run host rounds parts l
    | result => result

/-- The requests processed and the bytes written. -/
def seen (result : Option (Except Crash Link)) :
    Option (Except Crash (List HttpRequest × List Byte)) :=
  result.map fun result => result.map fun l => (l.handled, l.socket.written)

/-- The reads come to what a single read of all the bytes comes to; and after some of them, but not
all, no error reply has been appended and the connection is still there. -/
structure SegmentIndependent (host : Host) (rounds : ℕ) (parts : List (List Byte)) (l : Link) :
    Prop where
  same : seen (run host rounds parts l) = seen (run host rounds [parts.flatten] l)
  waits : ∀ k < parts.length, ∃ l', run host rounds (parts.take k) l = some (.ok l') ∧
    l'.rejected = 0 ∧ l'.closed = false

/-- A read that comes back has closed the connection. -/
lemma closed_of_receive {host : Host} {rounds : ℕ} {bytes : List Byte} {l l' : Link}
    (h : l.receive host rounds bytes = some (.ok l')) : l'.closed = true := by
  unfold receive at h
  split_ifs at h with hc
  · obtain rfl := Except.ok.inj (Option.some.inj h)
    exact hc
  · obtain ⟨result, hresult, h⟩ := Option.map_eq_some_iff.mp h
    cases result with
    | error e => cases h
    | ok s =>
      obtain rfl := Except.ok.inj h
      simp [TcpConnection.processRead_tasks hresult]

lemma run_singleton (host : Host) (rounds : ℕ) (bytes : List Byte) (l : Link) :
    run host rounds [bytes] l = l.receive host rounds bytes := by
  unfold run
  split
  · rename_i h
    rw [h, run]
  · rfl

/-- More than one read is one too many. -/
lemma not_waits {host : Host} {rounds : ℕ} {parts : List (List Byte)} {l : Link}
    (h : 1 < parts.length) : ¬ SegmentIndependent host rounds parts l := by
  rintro ⟨-, hwaits⟩
  obtain ⟨l', hrun, -, hopen⟩ := hwaits 1 h
  obtain ⟨bytes, parts, rfl⟩ := List.exists_cons_of_length_pos (Nat.zero_lt_of_lt h)
  rw [List.take_succ_cons, List.take_zero, run_singleton] at hrun
  rw [closed_of_receive hrun] at hopen
  cases hopen

end Link

/-- **Segments.** A request for `GET` that arrives in a new connection is served as if it had
arrived in a single read exactly if it does. -/
theorem segmentIndependent_iff (q : GetRequest) (reads : Reads q.render) (host : Host)
    (rounds readData writeData : ℕ) (sends : ℕ → ℤ) :
    Link.SegmentIndependent host rounds reads.parts (.new readData writeData sends) ↔
      reads.parts.length = 1 := by
  constructor
  · intro h
    have hpos := List.length_pos_iff.mpr reads.parts_ne
    by_contra hne
    exact Link.not_waits (by omega) h
  · intro h
    obtain ⟨bytes, hparts⟩ := List.length_eq_one_iff.mp h
    refine ⟨by simp [hparts], fun k hk => ?_⟩
    obtain rfl : k = 0 := by omega
    exact ⟨_, rfl, rfl, rfl⟩

/-! ### What becomes of an incomplete request -/

lemma take_of_append_eq {l s line t : List Byte} (h : l ++ s = line ++ [CR, LF] ++ t)
    (hle : line.length + 2 ≤ l.length) : l.take line.length = line :=
  calc l.take line.length = (l ++ s).take line.length :=
        (List.take_append_of_le_length (by omega)).symm
    _ = line := by rw [h, List.append_assoc, List.take_left]

namespace HttpRequest

section

variable {ω : Type*} (processHttpRequest : HttpRequest → ω → List Byte × ω) (prepareMsg : ω → ω)

/-- The parse gives up without having handed anything over. -/
def GivesUp (rounds : ℕ) (b : Buffer) (r : HttpRequest) : Prop :=
  ∃ r' b', ∀ n ≥ rounds, ∀ w,
    parseLoop processHttpRequest prepareMsg n true b r w = some (.ok (false, r', b', w))

/-- A step that comes back without a line ends the parse. -/
lemma givesUp_of_step {b : Buffer} {r : HttpRequest} (hr : r.m_curState ≠ .ParseReqDone)
    (h : r.parseStep true b = .ok (false, r, b)) {rounds : ℕ} (hrounds : 1 ≤ rounds) :
    GivesUp processHttpRequest prepareMsg rounds b r := by
  refine ⟨r, b, fun n hn w => ?_⟩
  obtain ⟨n, rfl⟩ := Nat.exists_eq_add_of_le' (hrounds.trans hn)
  simp [parseLoop, hr, h]

/-- Without the end of the empty line, from the header lines on. -/
lemma givesUp_lines {lines : List (List Byte)} (hline : ∀ l ∈ lines, ¬ [CR, LF] <:+: l)
    (hsep : ∀ l ∈ lines, [COLON, SP] <:+: l) {s : List Byte} (hs : s ≠ []) :
    ∀ {b : Buffer}, b.Valid → b.readable ++ s = lines.flatMap (· ++ [CR, LF]) ++ [CR, LF] →
    ∀ {r : HttpRequest}, r.m_curState = .ParseReqHeaders →
    GivesUp processHttpRequest prepareMsg (lines.length + 1) b r := by
  have hspos := List.length_pos_iff.mpr hs
  induction lines with
  | nil =>
    intro b hv hb r hr
    have hlen := congrArg List.length hb
    simp only [List.length_append, List.flatMap_nil, List.nil_append, List.length_cons,
      List.length_nil] at hlen
    have hf : find b.readable [CR, LF] = none := by
      rcases hf : find b.readable [CR, LF] with _ | n
      · rfl
      · have := find_le hf
        simp only [List.length_cons, List.length_nil] at this
        omega
    refine givesUp_of_step _ _ (by rw [hr]; decide) ?_ (by omega)
    rw [parseStep, hr]
    exact parseRequestHeader_none hv hf r
  | cons l lines ih =>
    intro b hv hb r hr
    obtain ⟨hl, hlines⟩ := List.forall_mem_cons.mp hline
    obtain ⟨hsl, hseps⟩ := List.forall_mem_cons.mp hsep
    rcases hf : find b.readable [CR, LF] with _ | n
    · refine givesUp_of_step _ _ (by rw [hr]; decide) ?_ (by omega)
      rw [parseStep, hr]
      exact parseRequestHeader_none hv hf r
    -- the line that is found is the first one
    set t := lines.flatMap (· ++ [CR, LF]) ++ [CR, LF] with ht
    have hb' : b.readable ++ s = l ++ [CR, LF] ++ t := by simpa [ht] using hb
    have hn : n = l.length := by
      have hfirst := find_append_of_eq_some hf s
      rw [find_of_line hb' hl] at hfirst
      exact (Option.some.inj hfirst).symm
    subst hn
    have hle : l.length + 2 ≤ b.readable.length := find_le hf
    have htake : b.readable.take l.length = l := take_of_append_eq hb' hle
    have hrest : (b.skip (l.length + 2)).readable ++ s = t := by
      rw [hv.readable_skip, ← List.drop_append_of_le_length hle, hb', List.drop_left' (by simp)]
    obtain ⟨i, hi⟩ : ∃ i, find l [COLON, SP] = some i := by
      rcases hi : find l [COLON, SP] with _ | i
      · exact absurd hsl (find_eq_none.mp hi)
      · exact ⟨i, rfl⟩
    have hstep := parseRequestHeader_eq hv hf r
    rw [htake, dropInfix_of_find hi] at hstep
    set r₁ := r.addHeader (l.take i) (l.drop (i + [COLON, SP].length)) with hr₁
    have hr' : r₁.m_curState = .ParseReqHeaders := by
      rw [hr₁, addHeader_eq, hr]
    obtain ⟨r', b', hloop⟩ := ih hlines hseps (hv.skip hle) hrest hr'
    refine ⟨r', b', fun n hn w => ?_⟩
    obtain ⟨n, rfl⟩ := Nat.exists_eq_add_of_le' (show 1 ≤ n by omega)
    have hn' := hloop n (by rw [List.length_cons] at hn; omega) w
    rw [parseLoop]
    simp only [parseStep, hr, hstep]
    rw [if_neg (by decide), if_neg (by decide), hr', if_neg (by decide), hn']

/-- **An incomplete request is given up**, unless the data lies in the upper half of its 4 GiB
block. -/
theorem givesUp (q : CompleteRequest) (hsep : ∀ l ∈ q.lines, [COLON, SP] <:+: l)
    {s : List Byte} (hs : s ≠ []) {b : Buffer} (hv : b.Valid) (hgap : 2 ^ 31 ≤ b.gap)
    (hb : b.readable ++ s = q.render) :
    GivesUp processHttpRequest prepareMsg (q.lines.length + 2) b reset := by
  rcases hf : find b.readable [CR, LF] with _ | n
  · exact givesUp_of_step (b := b) (r := reset) _ _ (by decide)
      (parseRequestLine_none hv hf hgap reset) (by omega)
  set t := q.lines.flatMap (· ++ [CR, LF]) ++ [CR, LF] with ht
  have hb' : b.readable ++ s = q.line ++ [CR, LF] ++ t := by
    rw [hb, CompleteRequest.render, ht]
    simp
  have hn : n = q.line.length := by
    have hfirst := find_append_of_eq_some hf s
    rw [find_of_line hb' q.line_unbroken] at hfirst
    exact (Option.some.inj hfirst).symm
  subst hn
  have hle : q.line.length + 2 ≤ b.readable.length := find_le hf
  have htake : b.readable.take q.line.length = q.line := take_of_append_eq hb' hle
  have hrest : (b.skip (q.line.length + 2)).readable ++ s = t := by
    rw [hv.readable_skip, ← List.drop_append_of_le_length hle, hb', List.drop_left' (by simp)]
  have hpos : q.line.length ≠ 0 := by simp [CompleteRequest.line]
  have hstep := parseRequestLine_eq hv hf reset
  rw [if_neg hpos, htake, CompleteRequest.line,
    cutLine_fields q.method_space q.url_space] at hstep
  obtain ⟨r', b', hloop⟩ := givesUp_lines processHttpRequest prepareMsg q.lines_unbroken hsep hs
    (hv.skip hle) hrest (r := ⟨q.method, q.url, q.version, [], .ParseReqHeaders⟩) rfl
  refine ⟨r', b', fun n hn w => ?_⟩
  obtain ⟨n, rfl⟩ := Nat.exists_eq_add_of_le' (show 1 ≤ n by omega)
  have hn' := hloop n (by omega) w
  rw [parseLoop, parseStep, if_neg (by decide)]
  simp only [reset] at hstep ⊢
  simp only [CompleteRequest.line] at hn'
  simp only [hstep]
  rw [if_neg (by decide), if_neg (by decide), hn']

end

end HttpRequest

lemma Buffer.writeableSize_new (m_data size : ℕ) :
    (Buffer.new m_data size).writeableSize = size := by
  simp [Buffer.writeableSize, Buffer.m_capacity, Buffer.new]

namespace Link

/-- **What a complete request gets**, in a single read: it is the one request processed, if the
answer comes back. -/
theorem receive_complete (q : CompleteRequest) (hlen : q.render.length ≤ TcpConnection.bufferSize)
    {readData : ℕ} (hread : (Buffer.new readData TcpConnection.bufferSize).Valid)
    (writeData : ℕ) (host : Host) (sends : ℕ → ℤ) :
    ∃ r : HttpRequest, r.m_method = q.method ∧ r.m_url = q.url ∧
      ∀ rounds ≥ q.lines.length + 3, ∀ l,
        (new readData writeData sends).receive host rounds q.render = some (.ok l) →
          l.handled = [r] ∧ l.rejected = 0 ∧ l.closed = true := by
  obtain ⟨b, hsocket, hv, -, -, hreadable⟩ := Buffer.socketRead_eq hread host
    (show (q.render.length : ℤ) ≤ _ by rw [Buffer.writeableSize_new]; exact_mod_cast hlen)
  rw [Buffer.readable_new, List.nil_append] at hreadable
  obtain ⟨r, b', hm, hu, hparse⟩ := HttpRequest.handsOver (Reply.processHttpRequest host)
    (Reply.prepareMsg host) q [] hv (by rw [hreadable, List.append_nil])
  refine ⟨r, hm, hu, fun rounds hrounds l hl => ?_⟩
  have hpos : (0 : ℤ) < q.render.length := by
    simp only [CompleteRequest.render, List.length_append, List.length_cons, List.length_nil]
    omega
  rw [receive, if_neg (by simp [new]), TcpConnection.processRead,
    TcpConnection.readRequest] at hl
  simp only [new, TcpConnection.new, hsocket] at hl
  rw [if_pos hpos, HttpRequest.parse, hparse rounds hrounds] at hl
  simp only [Option.map_some, TcpConnection.finishRead, Option.some.injEq] at hl
  set w := Reply.prepareMsg host
    (Reply.processHttpRequest host r (.new .new (.new writeData TcpConnection.bufferSize)
      ⟨sends, 0, []⟩)).2 with hw
  have hhandled : w.handled = [r] := by
    rw [hw, Reply.prepareMsg]
    split <;> rfl
  cases ha : w.abort with
  | some a => simp [ha, Except.map] at hl
  | none =>
    simp only [ha, if_true, Except.map, Except.ok.injEq] at hl
    subst hl
    exact ⟨by simpa using hhandled, rfl, rfl⟩

/-- **What an incomplete request gets.** The error reply is appended and not sent, and the
connection is closed; nothing has been processed. -/
theorem receive_incomplete (q : CompleteRequest) (hsep : ∀ l ∈ q.lines, [COLON, SP] <:+: l)
    {p s : List Byte} (hps : p ++ s = q.render) (hp : p ≠ []) (hs : s ≠ [])
    (hlen : p.length ≤ TcpConnection.bufferSize) {readData writeData : ℕ}
    (hread : (Buffer.new readData TcpConnection.bufferSize).Valid)
    (hwrite : (Buffer.new writeData TcpConnection.bufferSize).Valid)
    (hgap : 2 ^ 31 ≤ (Buffer.new readData TcpConnection.bufferSize).gap) (host : Host)
    (sends : ℕ → ℤ) {rounds : ℕ} (hrounds : q.lines.length + 2 ≤ rounds) :
    ∃ l, (new readData writeData sends).receive host rounds p = some (.ok l) ∧
      l.handled = [] ∧ l.socket.written = [] ∧ l.rejected = 1 ∧ l.closed = true ∧
      l.conn.m_writeBuf.readable = TcpConnection.errMsg := by
  obtain ⟨b, hsocket, hv, hdata, hpos, hreadable⟩ :=
    Buffer.socketRead_eq hread host
      (show (p.length : ℤ) ≤ _ by rw [Buffer.writeableSize_new]; exact_mod_cast hlen)
  rw [Buffer.readable_new, List.nil_append] at hreadable
  have hgap' : 2 ^ 31 ≤ b.gap := by
    rw [Buffer.gap, Buffer.data, hdata, hpos]
    exact hgap
  obtain ⟨r', b', hloop⟩ := HttpRequest.givesUp (Reply.processHttpRequest host)
    (Reply.prepareMsg host) q hsep hs hv hgap' (by rw [hreadable, hps])
  have herr : cstr TcpConnection.errMsg = TcpConnection.errMsg ∧ TcpConnection.errMsg ≠ [] ∧
      TcpConnection.errMsg.length = 28 := by decide
  obtain ⟨out, happend, hout⟩ := Buffer.appendString_eq hwrite host herr.2.1
    (show (TcpConnection.errMsg.length : ℤ) ≤ _ by
      rw [Buffer.writeableSize_new, herr.2.2]; decide)
  rw [Buffer.readable_new, List.nil_append] at hout
  have hpos : (0 : ℤ) < p.length := by exact_mod_cast List.length_pos_iff.mpr hp
  have hread : (TcpConnection.new readData writeData).processRead host rounds (.ok p)
      ⟨sends, 0, []⟩ =
      some (.ok ⟨⟨b', out, r', .new⟩, ⟨sends, 0, []⟩, [], true, [.DELETE]⟩) := by
    rw [TcpConnection.processRead, TcpConnection.readRequest]
    simp only [TcpConnection.new, hsocket]
    rw [if_pos hpos, HttpRequest.parse, HttpRequest.parseHttpRequest,
      hloop rounds hrounds]
    simp only [Option.map_some, TcpConnection.finishRead, Reply.new, Buffer.appendCString, herr.1,
      happend, Bool.false_eq_true, if_false]
    rfl
  refine ⟨⟨⟨b', out, r', .new⟩, ⟨sends, 0, []⟩, [], 1, true⟩, ?_, rfl, rfl, rfl, rfl, hout⟩
  rw [receive, if_neg (by simp [new])]
  simp only [new, hread]
  rfl

end Link

/-- `GET / HTTP/1.1` with a header `H: a`. -/
def getSlash : GetRequest where
  method := [71, 69, 84]
  url := [47]
  version := [72, 84, 84, 80, 47, 49, 46, 49]
  lines := [[72, 58, 32, 97]]
  method_space := getRoot.method_space
  url_space := getRoot.url_space
  line_unbroken := getRoot.line_not_infix
  lines_ne := by decide
  lines_unbroken := by decide
  method_get := rfl

/-- `GET`, and the rest. -/
def getSlashReads : Reads getSlash.render where
  parts := [[71, 69, 84], getSlash.render.drop 3]
  parts_ne := by decide
  part_ne := by decide
  flatten := by decide

lemma valid_new {m_data : ℕ} (h : 0 < m_data) (h' : m_data < 2 ^ 63) :
    (Buffer.new m_data TcpConnection.bufferSize).Valid where
  data_pos := h
  data_lt := by simp only [Buffer.new, List.length_replicate, TcpConnection.bufferSize]; omega
  capacity_lt := by
    simp only [Buffer.new, List.length_replicate, TcpConnection.bufferSize]
    omega
  readPos_nonneg := le_rfl
  readPos_le := le_rfl
  writePos_le := by simp [Buffer.new]

/-- After `GET`, the error reply waits and the connection is closed. -/
theorem not_segmentIndependent :
    (∃ l, (Link.new 4096 65536 fun _ => 0).receive .empty 4 [71, 69, 84] = some (.ok l) ∧
      l.handled = [] ∧ l.rejected = 1 ∧ l.closed = true) ∧
      ¬ Link.SegmentIndependent .empty 4 getSlashReads.parts (.new 4096 65536 fun _ => 0) := by
  refine ⟨?_, Link.not_waits (by decide)⟩
  have hread : (Buffer.new 4096 TcpConnection.bufferSize).Valid :=
    valid_new (by decide) (by decide)
  have hwrite : (Buffer.new 65536 TcpConnection.bufferSize).Valid :=
    valid_new (by decide) (by decide)
  have hgap : 2 ^ 31 ≤ (Buffer.new 4096 TcpConnection.bufferSize).gap := by
    simp [Buffer.gap, Buffer.data, Buffer.new]
  have hrounds : getSlash.lines.length + 2 ≤ 4 := by decide
  have hps : [71, 69, 84] ++ getSlash.render.drop 3 = getSlash.render := by decide
  obtain ⟨l, hl, hhandled, -, hrejected, hclosed, -⟩ :=
    Link.receive_incomplete getSlash.toCompleteRequest (by decide) hps (by decide) (by decide)
      (by decide) hread hwrite hgap .empty (fun _ => 0) hrounds
  exact ⟨l, hl, hhandled, hrejected, hclosed⟩

end Reactor.Http
