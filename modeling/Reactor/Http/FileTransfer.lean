import Reactor.Http.HttpResponse
import Reactor.Lib.Loop

/-!
The copy loop of `sendFile`, call by call, in the C++ and in the C version.

The two differ in what is closed when `read` fails, the file or the connection, and in neither is
the loop left then.
-/

namespace Reactor.Http

open Lib.Loop

/-! ### The calls of the loop -/

/-- `sizeof buf`. -/
def bufSize : ℕ := 1024

/-- A call on the send buffer or on the system. -/
inductive Call
  | append (data : List Byte)
  | send (socket : ℕ)
  | close (fd : ℕ)
  deriving DecidableEq

/-- What was appended to the send buffer, call by call. -/
def appended (calls : List Call) : List (List Byte) :=
  calls.filterMap fun
    | .append data => some data
    | _ => none

/-- The descriptors closed. -/
def closed (calls : List Call) : List ℕ :=
  calls.filterMap fun
    | .close fd => some fd
    | _ => none

/-- What the calls of `read` give on an open file: some chunks, and then the end of the file or
an error. What later calls give may depend on all that was called before. -/
structure FileReads where
  chunks : List {buf : List Byte // buf ≠ [] ∧ buf.length ≤ bufSize}
  error : Option Errno
  later : List Call → ReadResult

namespace FileReads

def bufs (reads : FileReads) : List (List Byte) := reads.chunks.map (·.1)

def last (reads : FileReads) : ReadResult :=
  match reads.error with
  | none => .ok []
  | some e => .error e

def results (reads : FileReads) : List ReadResult :=
  reads.bufs.map .ok ++ [reads.last]

/-- The bytes read before the end or the error. -/
def bytes (reads : FileReads) : List Byte := reads.bufs.flatten

lemma ne_nil_of_mem_bufs {reads : FileReads} {buf : List Byte} (h : buf ∈ reads.bufs) :
    buf ≠ [] := by
  obtain ⟨chunk, -, rfl⟩ := List.mem_map.mp h
  exact chunk.2.1

end FileReads

def EBADF : Errno := 9

/-- The loop between two rounds: the results of `read` that are still to come, and the calls
made. -/
structure Copy where
  results : List ReadResult
  calls : List Call

namespace Copy

/-- `read`, which fails once the descriptor has been closed. -/
def read (later : List Call → ReadResult) (fd : ℕ) (s : Copy) : ReadResult × Copy :=
  if .close fd ∈ s.calls then (.error EBADF, s)
  else
    match s.results with
    | result :: results => (result, { s with results := results })
    | [] => (later s.calls, s)

/-- One round. `wrong` is what is closed after an error. -/
def round (later : List Call → ReadResult) (cfd fd wrong : ℕ) (s : Copy) : Copy ⊕ Copy :=
  let (len, s) := s.read later fd
  match len with
  | .ok [] => .inr s
  | .ok buf => .inl { s with calls := s.calls ++ [.append buf, .send cfd] }
  | .error _ => .inl { s with calls := s.calls ++ [.close wrong] }

/-- The loop, and the `close` behind it. -/
def run (cfd fd wrong : ℕ) (reads : FileReads) (rounds : ℕ) : Option (List Call) :=
  (loop (round reads.later cfd fd wrong) rounds ⟨reads.results, []⟩).map fun s =>
    s.calls ++ [.close fd]

end Copy

/-- `HttpRequest::sendFile`, on a file opened as `fd`: after an error it closes the file. -/
def HttpRequest.sendFile (cfd fd : ℕ) (reads : FileReads) (rounds : ℕ) : Option (List Call) :=
  Copy.run cfd fd fd reads rounds

end Reactor.Http

namespace Reactor.HttpC

open Http (FileReads Call Copy)

/-- `sendFile`, on a file opened as `fd`: after an error it closes the connection. -/
def sendFile (cfd fd : ℕ) (reads : FileReads) (rounds : ℕ) : Option (List Call) :=
  Copy.run cfd fd cfd reads rounds

end Reactor.HttpC

namespace Reactor.Http

open Lib.Loop

/-! ### What the loop ends with -/

@[simp] lemma appended_append (as bs : List Call) :
    appended (as ++ bs) = appended as ++ appended bs := List.filterMap_append ..

@[simp] lemma closed_append (as bs : List Call) : closed (as ++ bs) = closed as ++ closed bs :=
  List.filterMap_append ..

lemma mem_closed {fd : ℕ} {calls : List Call} : fd ∈ closed calls ↔ .close fd ∈ calls := by
  rw [closed, List.mem_filterMap]
  constructor
  · rintro ⟨call, hmem, hcall⟩
    cases call <;> simp at hcall
    rw [← hcall]
    exact hmem
  · exact fun h => ⟨_, h, rfl⟩

namespace Copy

variable {later : List Call → ReadResult} {cfd fd wrong : ℕ} {s t : Copy}
  {result : ReadResult} {results : List ReadResult} {calls : List Call}

lemma read_closed (h : .close fd ∈ s.calls) : s.read later fd = (.error EBADF, s) := if_pos h

lemma read_cons (h : closed calls = []) :
    (⟨result :: results, calls⟩ : Copy).read later fd = (result, ⟨results, calls⟩) := by
  have hopen : .close fd ∉ calls := by simp [← mem_closed, h]
  simp [read, hopen]

/-- The calls of the rounds that copy some chunks. -/
def copyCalls (cfd : ℕ) (bufs : List (List Byte)) : List Call :=
  bufs.flatMap fun buf => [.append buf, .send cfd]

@[simp] lemma closed_copyCalls (bufs : List (List Byte)) : closed (copyCalls cfd bufs) = [] := by
  induction bufs with
  | nil => rfl
  | cons buf bufs ih => exact ih

@[simp] lemma appended_copyCalls (bufs : List (List Byte)) :
    appended (copyCalls cfd bufs) = bufs := by
  induction bufs with
  | nil => rfl
  | cons buf bufs ih => exact congrArg (buf :: ·) ih

/-- **The chunks are copied one by one.** -/
lemma ends_chunks (bufs : List (List Byte)) (hne : ∀ buf ∈ bufs, buf ≠ [])
    (hopen : closed calls = []) :
    Ends (round later cfd fd wrong) ⟨bufs.map .ok ++ results, calls⟩ t ↔
      Ends (round later cfd fd wrong) ⟨results, calls ++ copyCalls cfd bufs⟩ t := by
  induction bufs generalizing calls with
  | nil => simp [copyCalls]
  | cons buf bufs ih =>
      have hbuf : buf ≠ [] := hne buf List.mem_cons_self
      have hround : round later cfd fd wrong ⟨.ok buf :: (bufs.map .ok ++ results), calls⟩ =
          .inl ⟨bufs.map .ok ++ results, calls ++ [.append buf, .send cfd]⟩ := by
        obtain ⟨b, bs, rfl⟩ := List.exists_cons_of_ne_nil hbuf
        simp [round, read_cons hopen]
      have hopen' : closed (calls ++ [.append buf, .send cfd]) = [] := by
        rw [closed_append, hopen]
        rfl
      rw [List.map_cons, List.cons_append, ends_inl hround,
        ih (fun b hb => hne b (List.mem_cons_of_mem _ hb)) hopen', List.append_assoc]
      rfl

lemma round_eof (h : closed calls = []) :
    round later cfd fd wrong ⟨.ok [] :: results, calls⟩ = .inr ⟨results, calls⟩ := by
  simp [round, read_cons h]

lemma round_error (h : closed calls = []) (e : Errno) :
    round later cfd fd wrong ⟨.error e :: results, calls⟩ =
      .inl ⟨results, calls ++ [.close wrong]⟩ := by
  simp [round, read_cons h]

lemma read_calls (s : Copy) : (s.read later fd).2.calls = s.calls := by
  unfold read
  split
  · rfl
  · split <;> rfl

/-- A round adds calls behind those made, and the last one none. -/
lemma calls_round (s : Copy) :
    (∃ s', round later cfd fd wrong s = .inl s' ∧ s.calls <+: s'.calls) ∨
      ∃ t, round later cfd fd wrong s = .inr t ∧ t.calls = s.calls := by
  have hcalls : (s.read later fd).2.calls = s.calls := read_calls s
  unfold round
  rcases hread : s.read later fd with ⟨len, s₁⟩
  rw [hread] at hcalls
  rw [← hcalls]
  rcases len with e | bs
  · exact Or.inl ⟨_, rfl, List.prefix_append _ _⟩
  · rcases bs with _ | ⟨b, bs⟩
    · exact Or.inr ⟨_, rfl, rfl⟩
    · exact Or.inl ⟨_, rfl, List.prefix_append _ _⟩

lemma calls_of_inl (h : round later cfd fd wrong s = .inl t) : s.calls <+: t.calls := by
  rcases calls_round s with ⟨_, hs', hcalls⟩ | ⟨_, ht, -⟩
  · rwa [Sum.inl.inj (h.symm.trans hs')]
  · cases h.symm.trans ht

lemma calls_of_inr (h : round later cfd fd wrong s = .inr t) : t.calls = s.calls := by
  rcases calls_round s with ⟨_, hs', -⟩ | ⟨_, ht, hcalls⟩
  · cases h.symm.trans hs'
  · rwa [Sum.inr.inj (h.symm.trans ht)]

/-- **What was called stays called** to the end of the loop. -/
lemma calls_of_ends (h : Ends (round later cfd fd wrong) s t) : s.calls <+: t.calls := by
  have keep : ∀ s₁ s₂ : Copy, s.calls <+: s₁.calls → round later cfd fd wrong s₁ = .inl s₂ →
      s.calls <+: s₂.calls := fun _ _ hs hround => hs.trans (calls_of_inl hround)
  have exit : ∀ s₁ t : Copy, s.calls <+: s₁.calls → round later cfd fd wrong s₁ = .inr t →
      s.calls <+: t.calls := fun _ _ hs hround => calls_of_inr hround ▸ hs
  have hend := h.of_inv keep exit (List.prefix_refl _)
  exact hend

/-- The loop comes to the end of the file or the error. -/
lemma ends_results {reads : FileReads} :
    Ends (round reads.later cfd fd wrong) ⟨reads.results, []⟩ t ↔
      Ends (round reads.later cfd fd wrong) ⟨[reads.last], copyCalls cfd reads.bufs⟩ t :=
  ends_chunks _ (fun _ => FileReads.ne_nil_of_mem_bufs) rfl

lemma ends_of_eof {reads : FileReads} (herror : reads.error = none) :
    Ends (round reads.later cfd fd wrong) ⟨reads.results, []⟩ t ↔
      t = ⟨[], copyCalls cfd reads.bufs⟩ := by
  rw [ends_results, FileReads.last, herror]
  exact ends_inr (round_eof (closed_copyCalls _))

lemma ends_of_error {reads : FileReads} {e : Errno} (herror : reads.error = some e) :
    Ends (round reads.later cfd fd wrong) ⟨reads.results, []⟩ t ↔
      Ends (round reads.later cfd fd wrong) ⟨[], copyCalls cfd reads.bufs ++ [.close wrong]⟩ t := by
  rw [ends_results, FileReads.last, herror]
  exact ends_inl (round_error (closed_copyCalls _) e)

lemma run_eq_some {reads : FileReads} {rounds : ℕ} :
    run cfd fd wrong reads rounds = some calls ↔
      ∃ t, loop (round reads.later cfd fd wrong) rounds ⟨reads.results, []⟩ = some t ∧
        t.calls ++ [.close fd] = calls := Option.map_eq_some_iff

end Copy

/-- The loop ends, the file and nothing else has been closed, once, and the bytes read have been
appended. -/
def Transferred (fd : ℕ) (reads : FileReads) (sendFile : ℕ → Option (List Call)) : Prop :=
  ∃ rounds calls, sendFile rounds = some calls ∧ closed calls = [fd] ∧
    (appended calls).flatten = reads.bytes

lemma transferred_run_iff (cfd fd wrong : ℕ) (reads : FileReads) :
    Transferred fd reads (Copy.run cfd fd wrong reads) ↔ reads.error = none := by
  constructor
  · rintro ⟨rounds, calls, hrun, hclosed, -⟩
    obtain ⟨t, ht, rfl⟩ := Copy.run_eq_some.mp hrun
    by_contra herror
    obtain ⟨e, he⟩ := Option.ne_none_iff_exists'.mp herror
    have hcalls := Copy.calls_of_ends ((Copy.ends_of_error he).mp ⟨rounds, ht⟩)
    have hmem : wrong ∈ closed t.calls := mem_closed.mpr (hcalls.subset (by simp))
    -- the `close` behind the loop is the second then
    rw [closed_append] at hclosed
    have hnil : closed t.calls = [] := List.append_left_eq_self.mp hclosed
    rw [hnil] at hmem
    cases hmem
  · intro herror
    obtain ⟨rounds, ht⟩ : Ends (Copy.round reads.later cfd fd wrong) ⟨reads.results, []⟩ _ :=
      (Copy.ends_of_eof herror).mpr rfl
    refine ⟨rounds, _, Copy.run_eq_some.mpr ⟨_, ht, rfl⟩, ?_, ?_⟩
    · rw [closed_append, Copy.closed_copyCalls]
      rfl
    · rw [appended_append, Copy.appended_copyCalls]
      simp [appended, FileReads.bytes]

/-- **When a file is transferred.** In both versions the loop ends with the file closed once, no
other descriptor closed and all that was read appended, exactly when no `read` fails. -/
theorem transferred_iff (cfd fd : ℕ) (reads : FileReads) :
    (Transferred fd reads (HttpRequest.sendFile cfd fd reads) ↔ reads.error = none) ∧
      (Transferred fd reads (HttpC.sendFile cfd fd reads) ↔ reads.error = none) :=
  ⟨transferred_run_iff cfd fd fd reads, transferred_run_iff cfd fd cfd reads⟩

/-- A `read` that fails at once, as that of a directory does. -/
theorem not_transferred :
    ¬ Transferred 6 ⟨[], some 21, fun _ => .ok []⟩
        (HttpRequest.sendFile 5 6 ⟨[], some 21, fun _ => .ok []⟩) ∧
      ¬ Transferred 6 ⟨[], some 21, fun _ => .ok []⟩
        (HttpC.sendFile 5 6 ⟨[], some 21, fun _ => .ok []⟩) := by
  constructor <;>
    · intro h
      cases (transferred_run_iff _ _ _ _).mp h

/-! ### What the C++ version sends -/

/-- After an error the file is read from and closed again and again. -/
lemma HttpRequest.sendFile_endless {cfd fd : ℕ} {reads : FileReads} {e : Errno}
    (herror : reads.error = some e) (rounds : ℕ) : sendFile cfd fd reads rounds = none := by
  have keep : ∀ s : Copy, .close fd ∈ s.calls →
      ∃ s', Copy.round reads.later cfd fd fd s = .inl s' ∧ .close fd ∈ s'.calls := by
    intro s hs
    refine ⟨{ s with calls := s.calls ++ [.close fd] }, ?_, by simp⟩
    rw [Copy.round, Copy.read_closed hs]
  rw [sendFile, Copy.run, Option.map_eq_none_iff]
  by_contra hsome
  obtain ⟨t, ht⟩ := Option.ne_none_iff_exists'.mp hsome
  exact not_ends_of_inv keep (by simp) ((Copy.ends_of_error herror).mp ⟨rounds, ht⟩)

lemma HttpRequest.sendFile_eof (cfd fd : ℕ) {reads : FileReads} (herror : reads.error = none) :
    ∃ rounds calls, sendFile cfd fd reads rounds = some calls ∧ appended calls = reads.bufs := by
  obtain ⟨rounds, ht⟩ : Ends (Copy.round reads.later cfd fd fd) ⟨reads.results, []⟩ _ :=
    (Copy.ends_of_eof herror).mpr rfl
  refine ⟨rounds, _, Copy.run_eq_some.mpr ⟨_, ht, rfl⟩, ?_⟩
  rw [appended_append, Copy.appended_copyCalls]
  exact List.append_nil _

lemma of_mem_toChunks_go {n : ℕ} (hn : 0 < n) {xs buf : List Byte} {acc : Array Byte}
    {bufs : Array (List Byte)} (hacc : acc.toList ≠ [] ∧ acc.size ≤ n)
    (hbufs : ∀ b ∈ bufs, b ≠ [] ∧ b.length ≤ n)
    (h : buf ∈ List.toChunks.go n xs acc bufs) : buf ≠ [] ∧ buf.length ≤ n := by
  have hpush : ∀ (acc : Array Byte) (bufs : Array (List Byte)),
      acc.toList ≠ [] ∧ acc.size ≤ n → (∀ b ∈ bufs, b ≠ [] ∧ b.length ≤ n) →
      ∀ b ∈ bufs.push acc.toList, b ≠ [] ∧ b.length ≤ n := by
    intro acc bufs hacc hbufs b hb
    rcases Array.mem_push.mp hb with hb | rfl
    · exact hbufs b hb
    · exact hacc
  induction xs generalizing acc bufs with
  | nil =>
      rw [List.toChunks.go] at h
      exact hpush acc bufs hacc hbufs buf (Array.mem_toList_iff.mp h)
  | cons x xs ih =>
      rw [List.toChunks.go] at h
      split at h
      · refine ih ⟨by simp, ?_⟩ (hpush acc bufs hacc hbufs) h
        simpa using Nat.succ_le_of_lt hn
      · rename_i hsize
        have hlt : acc.size ≠ n := by simpa using hsize
        refine ih ⟨by simp, ?_⟩ hbufs h
        rw [Array.size_push]
        exact Nat.lt_of_le_of_ne hacc.2 hlt

/-- A `read` fills its array as far as it can, and gives at least one byte. -/
lemma of_mem_toChunks {xs buf : List Byte} (h : buf ∈ xs.toChunks bufSize) :
    buf ≠ [] ∧ buf.length ≤ bufSize := by
  cases xs with
  | nil => simp [List.toChunks] at h
  | cons x xs =>
      have hone : (#[x] : Array Byte).toList ≠ [] ∧ (#[x] : Array Byte).size ≤ bufSize := by
        simp [bufSize]
      exact of_mem_toChunks_go (by decide) hone (by simp) h

/-- What `read` gives on a file. -/
def FileReads.ofFile (file : File) (e : Errno) (later : List Call → ReadResult) : FileReads where
  chunks := (file.data.toChunks bufSize).attachWith _ fun _ => of_mem_toChunks
  error := if file.fails then some e else none
  later := later

lemma FileReads.bufs_ofFile (file : File) (e : Errno) (later : List Call → ReadResult) :
    (ofFile file e later).bufs = file.data.toChunks bufSize := by
  simp [bufs, ofFile]

/-- **`sendFile` on the send buffer** is the appends of the loop, one by one, and has no end if the
loop has none. -/
lemma sendFile_eq {host : Host} {fileName : List Byte} {file : File}
    (hopen : host.openFile (cstr fileName) = some file) (e : Errno)
    (later : List Call → ReadResult) (cfd fd : ℕ) (out : Buffer × Socket) :
    (file.fails = false → ∃ rounds calls,
      HttpRequest.sendFile cfd fd (.ofFile file e later) rounds = some calls ∧
        sendFile host fileName out =
          (appended calls).foldlM (fun out buf => appendAndSend host buf out) out) ∧
    (file.fails = true →
      (∀ rounds, HttpRequest.sendFile cfd fd (.ofFile file e later) rounds = none) ∧
        sendFile host fileName out =
          (FileReads.ofFile file e later).bufs.foldlM
            (fun out buf => appendAndSend host buf out) out >>= fun _ => .error .endless) := by
  constructor
  · intro hfails
    have herror : (FileReads.ofFile file e later).error = none := by
      simp [FileReads.ofFile, hfails]
    obtain ⟨rounds, calls, hcalls, happ⟩ := HttpRequest.sendFile_eof cfd fd herror
    refine ⟨rounds, calls, hcalls, ?_⟩
    rw [happ, FileReads.bufs_ofFile]
    simp only [sendFile, hopen, hfails, bufSize, Bool.false_eq_true, if_false]
    exact bind_pure _
  · intro hfails
    have herror : (FileReads.ofFile file e later).error = some e := by
      simp [FileReads.ofFile, hfails]
    refine ⟨HttpRequest.sendFile_endless herror, ?_⟩
    rw [FileReads.bufs_ofFile]
    simp [sendFile, hopen, hfails, bufSize]

end Reactor.Http
