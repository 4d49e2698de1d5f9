import Resolute.LTS.Basic
import Resolute.Wire.Backend
import Resolute.Wire.Collect

/-!
# The reader after a failed read

The reader task of a connection over a stream of bytes.  A collection that fails gives its request
an error, and the reader goes on with the next pending request and with whatever is in the receive
buffer.  Nothing skips what is left of the response that failed, so the next request gets it.

Each byte carries the request whose response it belongs to (`Octet`).  The server answers the
requests in order; its frames are as long as they say, unless they state a length that the parser
rejects, and their bodies may be malformed (`isResponse`).  A failing read is `harmless` if it
leaves no frame of the response behind.  If all failing reads are, every result is built from bytes
of its own response (`responses_own`).
-/

namespace Resolute.Conn.Resync

/-- A byte of the response to the request `owner`. -/
structure Octet where
  owner : ℕ
  val : UInt8
  deriving DecidableEq, Repr

/-- A collection under way. -/
structure Collecting where
  id : ℕ
  collector : ResponseCollector
  collect : Collect
  /-- The messages it was fed, and what it did besides. -/
  msgs : List BackendMsg
  effects : List Emit
  /-- The owners of the bytes it has taken from the buffer. -/
  owners : List ℕ
  deriving DecidableEq

/-- Where the reader task stands. -/
inductive Reader where
  /-- Waiting for a pending response. -/
  | idle
  /-- At the head of the loop of `read_msg`. -/
  | parsing (j : Collecting)
  /-- `stream.read_buf(buf).await`. -/
  | filling (j : Collecting)
  deriving DecidableEq

/-- A completed collection. -/
structure Response where
  id : ℕ
  collector : ResponseCollector
  msgs : List BackendMsg
  effects : List Emit
  owners : List ℕ
  outcome : Outcome
  deriving DecidableEq

/-- The reader, its receive buffer and the stream. -/
structure State where
  /-- The number of requests that were written. -/
  written : ℕ
  /-- The requests that are written and that the reader has not taken. -/
  pending : List (ℕ × ResponseCollector)
  /-- The writer has drained the pending queue and returned. -/
  stopped : Bool
  /-- How many requests the reader has taken. -/
  taken : ℕ
  /-- How many requests the server has answered. -/
  answered : ℕ
  /-- The bytes under way. -/
  net : List Octet
  /-- Nothing is sent any more. -/
  closed : Bool
  buf : List Octet
  reader : Reader
  /-- What the reader has completed. -/
  responses : List Response
  deriving DecidableEq

/-- The steps of the reader, the writer, the server and the requesters. -/
inductive Label where
  /-- The writer has written a request and registers it. -/
  | accept (collector : ResponseCollector)
  /-- `drain_pending_on_exit`; the reader has nothing more to take. -/
  | stop
  | lock
  | parse
  /-- `read_buf` receives `n` bytes. -/
  | fill (n : ℕ)
  /-- `read_buf` returns `0`. -/
  | eof
  /-- `read_buf` fails; this alone does not say that nothing more arrives. -/
  | ioError (kind : ErrorKind) (message : String)
  /-- The row receiver of the current request is dropped. -/
  | dropRx
  /-- The server answers the next request. -/
  | answer (frames : List Frame)
  /-- The connection is closed or breaks, and only the first `n` bytes under way arrive. -/
  | lose (n : ℕ)
  deriving DecidableEq

/-- The frames of a response: only the last has the tag of `ReadyForQuery`. -/
def isResponse : List Frame → Bool
  | [] => false
  | f :: fs => f.isFramed && (if f.tag = byte 'Z' then fs.isEmpty else isResponse fs)

/-- The bytes of a frame of the response to `owner`. -/
def octets (owner : ℕ) (f : Frame) : List Octet := f.encode.map (⟨owner, ·⟩)

/-- `parse_message` on the buffer: the result, the owners of the bytes taken and what is left. -/
def takeMessage (buf : List Octet) : Parsed × List ℕ × List Octet :=
  let (res, rest) := parseMessage (buf.map Octet.val)
  let n := buf.length - rest.length
  (res, (buf.take n).map Octet.owner, buf.drop n)

namespace Collecting

/-- The reader takes a pending entry. -/
def start (id : ℕ) (collector : ResponseCollector) : Collecting :=
  ⟨id, collector, Collect.init collector, [], [], []⟩

def dropRx (j : Collecting) : Collecting := { j with collect := j.collect.dropRx }

/-- The collector returns. -/
def finish (j : Collecting) (msgs : List BackendMsg) (effects : List Emit) (outcome : Outcome) :
    Response :=
  ⟨j.id, j.collector, msgs, j.effects ++ effects, j.owners, outcome⟩

end Collecting

namespace State

/-- Nothing has been sent. -/
def init : State := ⟨0, [], false, 0, 0, [], false, [], .idle, []⟩

/-- `read_msg` returns an error. -/
def fail (s : State) (j : Collecting) (e : PgWireError) : Option State :=
  match j.collect.feedError e with
  | .done es res => some { s with
      reader := .idle, responses := s.responses ++ [j.finish j.msgs es res] }
  | .more _ _ => none

/-- `read_msg` returns a message. -/
def deliver (s : State) (j : Collecting) (m : BackendMsg) : State :=
  match j.collect.feedMsg m with
  | .more es c => { s with
      reader := .parsing
        { j with collect := c, msgs := j.msgs ++ [m], effects := j.effects ++ es } }
  | .done es res => { s with
      reader := .idle, responses := s.responses ++ [j.finish (j.msgs ++ [m]) es res] }

/-- `parse_message` in `read_msg`, with `next` for what follows when there is no message. -/
def receive (s : State) (j : Collecting) (next : State → Collecting → Option State) :
    Option State :=
  let (res, owners, rest) := takeMessage s.buf
  let s' := { s with buf := rest }
  let j' := { j with owners := j.owners ++ owners }
  match res with
  | .ok (some m) => some (s'.deliver j' m)
  | .error e => s'.fail j' (.protocol e)
  | .ok none => next s' j'

end State

/-- One step. -/
def step (s : State) : Label → Option State
  | .accept collector =>
    if s.stopped then none
    else some { s with written := s.written + 1, pending := s.pending ++ [(s.written, collector)] }
  | .stop => if s.stopped then none else some { s with stopped := true, pending := [] }
  | .lock => match s.reader, s.pending with
    | .idle, (id, collector) :: rest => some { s with
        pending := rest, taken := s.taken + 1, reader := .parsing (.start id collector) }
    | _, _ => none
  | .parse => match s.reader with
    | .parsing j => s.receive j fun s' j' => some { s' with reader := .filling j' }
    | _ => none
  | .fill n => match s.reader with
    | .filling j =>
      if 0 < n ∧ n ≤ s.net.length then some { s with
        buf := s.buf ++ s.net.take n, net := s.net.drop n, reader := .parsing j }
      else none
    | _ => none
  | .eof => match s.reader with
    | .filling j =>
      if s.closed && s.net.isEmpty then s.receive j fun s' j' => s'.fail j' .connectionClosed
      else none
    | _ => none
  | .ioError kind message => match s.reader with
    | .filling j => s.fail j (.ioError kind message)
    | _ => none
  | .dropRx => match s.reader with
    | .parsing j => some { s with reader := .parsing j.dropRx }
    | .filling j => some { s with reader := .filling j.dropRx }
    | .idle => none
  | .answer frames =>
    if !s.closed && decide (s.answered < s.written) && isResponse frames then some { s with
      answered := s.answered + 1, net := s.net ++ frames.flatMap (octets s.answered) }
    else none
  | .lose n => if s.closed then none else some { s with closed := true, net := s.net.take n }

/-- The reader of a connection as a transition system. -/
def reader : LTS State Label := ⟨step⟩

/-- The values of the bytes in the buffer. -/
def State.bytes (s : State) : Bytes := s.buf.map Octet.val

/-- If the parser rejects what the buffer begins with, it is a length or a `ReadyForQuery`. -/
def harmlessError (s : State) : Prop :=
  match (takeMessage s.buf).1 with
  | .error _ => badHeader s.bytes = true ∨ s.bytes.head? = some (byte 'Z')
  | .ok _ => True

/-- A read fails only on a length that the parser rejects, on the `ReadyForQuery` of the response,
or when nothing more arrives and no complete frame is in the buffer. -/
def harmless (s : State) : Label → Prop
  | .parse => harmlessError s
  | .eof => harmlessError s ∧ ((takeMessage s.buf).1 = .ok none →
      hasFrame ((takeMessage s.buf).2.2.map Octet.val) = false)
  | .ioError _ _ => s.closed = true ∧ s.net = [] ∧ hasFrame s.bytes = false
  | _ => True

instance (s : State) : Decidable (harmlessError s) := by
  unfold harmlessError; split <;> infer_instance

instance (s : State) (l : Label) : Decidable (harmless s l) := by
  cases l <;> unfold harmless <;> infer_instance

/-! ### Alignment -/

/-- The frames on the stream: from somewhere in the response `i`, or from its beginning, up to the
beginning of the response `k`. -/
inductive Follows : ℕ → List (ℕ × Frame) → ℕ → Prop
  | nil (i : ℕ) : Follows i [] i
  | frame {i k f rest} (hf : f.isFramed = true) (hz : f.tag ≠ byte 'Z') (h : Follows i rest k) :
    Follows i ((i, f) :: rest) k
  | ready {i k f rest} (hf : f.isFramed = true) (hz : f.tag = byte 'Z')
        (h : Follows (i + 1) rest k) :
    Follows i ((i, f) :: rest) k

theorem Follows.append {i k l : ℕ} {a b : List (ℕ × Frame)} (ha : Follows i a k)
    (hb : Follows k b l) : Follows i (a ++ b) l := by
  induction ha with
  | nil => exact hb
  | frame hf hz _ ih => exact .frame hf hz (ih hb)
  | ready hf hz _ ih => exact .ready hf hz (ih hb)

theorem follows_of_isResponse {frames : List Frame} (i : ℕ) (h : isResponse frames = true) :
    Follows i (frames.map fun f => (i, f)) (i + 1) := by
  induction frames with
  | nil => cases h
  | cons f fs ih =>
    simp only [isResponse, Bool.and_eq_true] at h
    obtain ⟨hf, h⟩ := h
    by_cases hz : f.tag = byte 'Z'
    · rw [if_pos hz, List.isEmpty_iff] at h
      subst h
      exact .ready hf hz (.nil _)
    · rw [if_neg hz] at h
      exact .frame hf hz (ih h)

/-- The bytes of a stream of frames. -/
def stream (fs : List (ℕ × Frame)) : List Octet := fs.flatMap fun (i, f) => octets i f

/-- The buffer and the stream go on from the response `i`. -/
def Aligned (i : ℕ) (s : State) (fs : List (ℕ × Frame)) (k : ℕ) : Prop :=
  Follows i fs k ∧ s.buf ++ s.net <+: stream fs ∧
    -- all that was sent is there, unless the connection was lost
    (s.closed = false → s.buf ++ s.net = stream fs ∧ k = s.answered)

/-- Nothing can be parsed any more. -/
def Dead (s : State) : Prop :=
  badHeader s.bytes = true ∨ s.closed = true ∧ s.net = [] ∧ hasFrame s.bytes = false

theorem Dead.hasFrame {s : State} (h : Dead s) : hasFrame s.bytes = false := by
  rcases h with h | ⟨-, -, h⟩
  · exact hasFrame_of_badHeader h
  · exact h

/-- Without a complete frame in front, the parser takes nothing. -/
theorem takeMessage_of_not_hasFrame {buf : List Octet} (h : hasFrame (buf.map Octet.val) = false) :
    ∃ res, takeMessage buf = (res, [], buf) ∧
      (res = .ok none ∨ badHeader (buf.map Octet.val) = true ∧ ∃ e, res = .error e) := by
  by_cases hb : badHeader (buf.map Octet.val) = true
  · obtain ⟨e, he⟩ := parseMessage_badHeader hb
    exact ⟨.error e, by simp [takeMessage, he], .inr ⟨hb, e, rfl⟩⟩
  · have hnone := parseMessage_incomplete (by simpa using hb) h
    exact ⟨.ok none, by simp [takeMessage, hnone], .inl rfl⟩

/-- A complete frame in front of an aligned buffer belongs to the response at hand. -/
theorem Aligned.takeMessage {i k : ℕ} {s : State} {fs : List (ℕ × Frame)} (h : Aligned i s fs k)
    (hframe : hasFrame s.bytes = true) :
    ∃ (f : Frame) (owners : List ℕ) (rest : List Octet) (fs' : List (ℕ × Frame)),
      takeMessage s.buf = (parseBody f.tag f.body, owners, rest) ∧
      (∀ o ∈ owners, o = i) ∧ s.bytes.head? = some f.tag ∧
      Aligned (if f.tag = byte 'Z' then i + 1 else i) { s with buf := rest } fs' k := by
  obtain ⟨hfollows, hbytes, hcomplete⟩ := h
  have hbuf : s.buf <+: stream fs := (List.prefix_append _ _).trans hbytes
  -- the buffer begins with a frame of the response at hand
  have hcons : ∃ f fs', fs = (i, f) :: fs' ∧ f.isFramed = true ∧
      Follows (if f.tag = byte 'Z' then i + 1 else i) fs' k := by
    cases hfollows with
    | nil =>
      rw [State.bytes, List.eq_nil_of_prefix_nil hbuf] at hframe
      cases hframe
    | @frame _ _ f rest hf hz h => exact ⟨f, rest, rfl, hf, by rwa [if_neg hz]⟩
    | @ready _ _ f rest hf hz h => exact ⟨f, rest, rfl, hf, by rwa [if_pos hz]⟩
  obtain ⟨f, fs', rfl, hf, hfollows'⟩ := hcons
  have hsplit : stream ((i, f) :: fs') = octets i f ++ stream fs' := rfl
  rw [hsplit] at hbytes hbuf hcomplete
  have hvals : s.bytes <+: f.encode ++ (stream fs').map Octet.val := by
    simpa [State.bytes, octets, Function.comp_def] using hbuf.map Octet.val
  obtain ⟨haccepts, hlt, hhead⟩ := accepts_of_hasFrame hframe hvals
  have hlen : f.length.toNatClampNeg = f.body.length + 4 := by
    simpa [Frame.isFramed, haccepts] using hf
  -- … and has all of it, since its length field agrees with its body
  have hle : (octets i f).length ≤ s.buf.length := by
    simp only [octets, List.length_map, f.length_encode]
    simp only [State.bytes, List.length_map] at hlt
    omega
  obtain ⟨rest, hrest⟩ := List.prefix_of_prefix_length_le (List.prefix_append _ _) hbuf hle
  refine ⟨f, (octets i f).map Octet.owner, rest, fs', ?_, by simp [octets],
    hhead, hfollows', ?_, ?_⟩
  · have hparse : parseMessage (s.buf.map Octet.val) =
        (parseBody f.tag f.body, rest.map Octet.val) := by
      rw [← hrest, List.map_append, ← parseMessage_frame hf haccepts]
      simp [octets, Function.comp_def]
    simp only [Resync.takeMessage, hparse]
    rw [← hrest]
    simp
  · rwa [← hrest, List.append_assoc, List.prefix_append_right_inj] at hbytes
  · intro hc
    obtain ⟨heq, hk⟩ := hcomplete hc
    rw [← hrest, List.append_assoc, List.append_cancel_left_eq] at heq
    exact ⟨heq, hk⟩

/-- The reader goes on from the response `i`, or nothing can be parsed. -/
def Tracks (i : ℕ) (s : State) : Prop := Dead s ∨ ∃ fs k, Aligned i s fs k

theorem Tracks.fill {i n : ℕ} {s : State} (h : Tracks i s) (hn : 0 < n ∧ n ≤ s.net.length) :
    Tracks i { s with buf := s.buf ++ s.net.take n, net := s.net.drop n } := by
  rcases h with (h | ⟨-, hnet, -⟩) | ⟨fs, k, hfollows, hbytes⟩
  · exact .inl (.inl (by simpa [State.bytes] using badHeader_append h _))
  · rw [hnet] at hn
    simp only [List.length_nil] at hn
    omega
  · refine .inr ⟨fs, k, hfollows, ?_⟩
    simpa only [List.append_assoc, List.take_append_drop] using hbytes

theorem Tracks.answer {i : ℕ} {s : State} {frames : List Frame} (h : Tracks i s)
    (hc : s.closed = false) (hframes : isResponse frames = true) :
    Tracks i { s with
      answered := s.answered + 1, net := s.net ++ frames.flatMap (octets s.answered) } := by
  rcases h with (h | ⟨hclosed, -, -⟩) | ⟨fs, k, hfollows, -, hcomplete⟩
  · exact .inl (.inl h)
  · rw [hc] at hclosed
    cases hclosed
  · obtain ⟨heq, rfl⟩ := hcomplete hc
    have hsent : s.buf ++ (s.net ++ frames.flatMap (octets s.answered)) =
        stream (fs ++ frames.map fun f => (s.answered, f)) := by
      rw [← List.append_assoc, heq]
      simp [stream, List.flatMap_map]
    exact .inr ⟨_, _, hfollows.append (follows_of_isResponse _ hframes), hsent ▸ List.prefix_rfl,
      fun _ => ⟨hsent, rfl⟩⟩

theorem Tracks.lose {i n : ℕ} {s : State} (h : Tracks i s) (hc : s.closed = false) :
    Tracks i { s with closed := true, net := s.net.take n } := by
  rcases h with (h | ⟨hclosed, -, -⟩) | ⟨fs, k, hfollows, hbytes, -⟩
  · exact .inl (.inl h)
  · rw [hc] at hclosed
    cases hclosed
  · refine .inr ⟨fs, k, hfollows, List.IsPrefix.trans ?_ hbytes, nofun⟩
    exact (List.prefix_append_right_inj _).2 (List.take_prefix _ _)

/-- A collection under way is built from bytes of its own response. -/
def Own (j : Collecting) : Prop :=
  (∀ o ∈ j.owners, o = j.id) ∧
    (Collect.init j.collector).Consumes j.msgs j.effects j.collect

/-- The collection the reader is at. -/
def Reader.current : Reader → Option Collecting
  | idle => none
  | parsing j | filling j => some j

/-- The response the reader goes on from. -/
def State.position (s : State) : ℕ := (s.reader.current.map Collecting.id).getD s.taken

/-- The results so far are built from bytes of their own responses, and the pending queue is in
the order of the wire. -/
structure Settled (s : State) : Prop where
  queue : s.pending.map Prod.fst = List.range' s.taken s.pending.length
  written : s.stopped = false → s.written = s.taken + s.pending.length
  responses : ∀ r ∈ s.responses, (∀ o ∈ r.owners, o = r.id) ∧
    (Collect.init r.collector).Yields r.msgs r.effects r.outcome

/-- The invariant of the runs whose failing reads are harmless. -/
structure Sound (s : State) : Prop extends Settled s where
  current : ∀ j, s.reader.current = some j → j.id + 1 = s.taken ∧ Own j
  tracks : Tracks s.position s

/-- A collection that fails leaves the reader at the next response. -/
theorem Settled.fail {s s' : State} {j : Collecting} {e : PgWireError} (h : Settled s) (hj : Own j)
    (ht : Tracks s.taken s) (hfail : s.fail j e = some s') : Sound s' := by
  unfold State.fail at hfail
  split at hfail
  · rename_i es res hfeed
    cases hfail
    refine { h with responses := ?_, current := nofun, tracks := ht }
    intro r hr
    rcases List.mem_append.1 hr with hr | hr
    · exact h.responses r hr
    · obtain rfl := List.mem_singleton.1 hr
      exact ⟨hj.1, .broken hj.2 hfeed⟩
  · cases hfail

/-- A message leaves the reader where it is, or at the next response if it is `ReadyForQuery`. -/
theorem Settled.deliver {s : State} {j : Collecting} {m : BackendMsg} (h : Settled s) (hj : Own j)
    (hid : j.id + 1 = s.taken) (ht : Tracks (if m.isReady then s.taken else j.id) s) :
    Sound (s.deliver j m) := by
  unfold State.deliver
  split
  · rename_i es c hfeed
    rw [Collect.not_isReady_of_more _ hfeed] at ht
    refine { h with current := ?_, tracks := ht }
    rintro _ ⟨⟩
    exact ⟨hid, hj.1, .msg hj.2 hfeed⟩
  · rename_i es res hfeed
    rw [Collect.isReady_of_done _ hfeed] at ht
    refine { h with responses := ?_, current := nofun, tracks := ht }
    intro r hr
    rcases List.mem_append.1 hr with hr | hr
    · exact h.responses r hr
    · obtain rfl := List.mem_singleton.1 hr
      exact ⟨hj.1, .ready hj.2 hfeed⟩

/-- `parse_message` in a run whose failing reads are harmless. -/
theorem Settled.receive {s s' : State} {j : Collecting} {next : State → Collecting → Option State}
    (h : Settled s) (hj : Own j) (hid : j.id + 1 = s.taken) (ht : Tracks j.id s)
    (hharmless : harmlessError s) (hreceive : s.receive j next = some s')
    (hnext : ∀ owners rest, takeMessage s.buf = (.ok none, owners, rest) →
      Own { j with owners := j.owners ++ owners } → Tracks j.id { s with buf := rest } →
      next { s with buf := rest } { j with owners := j.owners ++ owners } = some s' → Sound s') :
    Sound s' := by
  by_cases hframe : hasFrame s.bytes = true
  · -- the frame in front is the next one of the response at hand
    rcases ht with hdead | ⟨fs, k, haligned⟩
    · rw [hdead.hasFrame] at hframe
      cases hframe
    obtain ⟨f, owners, rest, fs', htake, howners, hhead, haligned'⟩ := haligned.takeMessage hframe
    have hown : Own { j with owners := j.owners ++ owners } := by
      refine ⟨fun o ho => ?_, hj.2⟩
      rcases List.mem_append.1 ho with ho | ho
      · exact hj.1 o ho
      · exact howners o ho
    have hsettled : Settled { s with buf := rest } := { h with }
    rw [State.receive, htake] at hreceive
    cases hres : parseBody f.tag f.body with
    | error e =>
      rw [hres] at hreceive htake
      have hz : f.tag = byte 'Z' := by
        simp only [harmlessError, htake] at hharmless
        rcases hharmless with hbad | hz
        · rw [hasFrame_of_badHeader hbad] at hframe
          cases hframe
        · simpa [hhead] using hz
      rw [if_pos hz, hid] at haligned'
      exact hsettled.fail hown (.inr ⟨_, _, haligned'⟩) hreceive
    | ok msg =>
      rw [hres] at hreceive htake
      cases msg with
      | none =>
        have hz : f.tag ≠ byte 'Z' := fun hz => parseBody_ready f.body (hz ▸ hres)
        rw [if_neg hz] at haligned'
        exact hnext owners rest htake hown (.inr ⟨_, _, haligned'⟩) hreceive
      | some m =>
        cases hreceive
        refine hsettled.deliver hown hid (.inr ⟨fs', k, ?_⟩)
        simp only [isReady_of_parseBody hres]
        rwa [hid] at haligned'
  · -- nothing is taken from the buffer
    obtain ⟨res, htake, hres⟩ := takeMessage_of_not_hasFrame (Bool.eq_false_iff.2 hframe)
    have hown : Own { j with owners := j.owners ++ [] } := by simpa using hj
    rw [State.receive, htake] at hreceive
    rcases hres with rfl | ⟨hbad, e, rfl⟩
    · exact hnext [] s.buf htake hown ht hreceive
    · exact Settled.fail (s := { s with buf := s.buf }) { h with } hown (.inl (.inl hbad)) hreceive

theorem Sound.step {s s' : State} {l : Label} (h : Sound s) (hl : harmless s l)
    (hstep : reader.step s l = some s') : Sound s' := by
  have hsettled : Settled s := { h with }
  obtain ⟨written, pending, stopped, taken, answered, net, closed, buf, rd, responses⟩ := s
  cases l <;> simp only [reader, Resync.step] at hstep
  case accept collector =>
    split_ifs at hstep with hstop
    cases hstep
    have hwritten := h.written (by simpa using hstop)
    refine { h with queue := ?_, written := fun _ => ?_ }
    · have hqueue := h.queue
      simp only at hqueue hwritten
      simp [hqueue, hwritten, List.range'_concat]
    · simp only at hwritten
      simp only [List.length_append, List.length_singleton]
      omega
  case stop =>
    split_ifs at hstep with hstop
    cases hstep
    exact { h with queue := rfl, written := nofun }
  case lock =>
    split at hstep <;> cases hstep
    rename_i id collector rest
    have hqueue := h.queue
    have hwritten := h.written
    simp only [List.map_cons, List.length_cons, List.range'_succ, List.cons.injEq]
      at hqueue hwritten
    obtain ⟨rfl, hqueue⟩ := hqueue
    refine { h with queue := hqueue, written := fun hs => ?_, current := ?_, tracks := h.tracks }
    · have := hwritten hs
      simp only
      omega
    · rintro _ ⟨⟩
      exact ⟨rfl, nofun, .refl⟩
  case parse =>
    split at hstep
    · rename_i j
      obtain ⟨hid, hown⟩ := h.current j rfl
      refine hsettled.receive hown hid h.tracks hl hstep fun owners rest _ hown' ht hnext => ?_
      cases hnext
      refine { h with current := ?_, tracks := ht }
      rintro _ ⟨⟩
      exact ⟨hid, hown'⟩
    · cases hstep
  case fill n =>
    split at hstep
    · split_ifs at hstep with hn
      cases hstep
      exact { h with current := h.current, tracks := h.tracks.fill hn }
    · cases hstep
  case eof =>
    split at hstep
    · rename_i j
      split_ifs at hstep with hc
      simp only [Bool.and_eq_true, List.isEmpty_iff] at hc
      obtain ⟨hid, hown⟩ := h.current j rfl
      refine hsettled.receive hown hid h.tracks hl.1 hstep fun owners rest htake hown' _ hnext => ?_
      have hrest := hl.2 (by rw [htake])
      rw [htake] at hrest
      refine Settled.fail ?_ hown' ?_ hnext
      · exact { h with }
      · exact .inl (.inr ⟨hc.1, hc.2, hrest⟩)
    · cases hstep
  case ioError kind message =>
    split at hstep
    · rename_i j
      exact hsettled.fail (h.current j rfl).2 (.inl (.inr hl)) hstep
    · cases hstep
  case dropRx =>
    split at hstep <;> cases hstep
    all_goals
      rename_i j
      obtain ⟨hid, hown⟩ := h.current j rfl
      refine { h with current := ?_, tracks := h.tracks }
      rintro _ ⟨⟩
      exact ⟨hid, hown.1, .dropRx hown.2⟩
  case answer frames =>
    split_ifs at hstep with hc
    cases hstep
    simp only [Bool.and_eq_true, Bool.not_eq_true'] at hc
    exact { h with tracks := h.tracks.answer hc.1.1 hc.2 }
  case lose n =>
    split_ifs at hstep with hc
    cases hstep
    exact { h with tracks := h.tracks.lose (by simpa using hc) }

/-- **Harmless failures keep the stream in step.**  If every read that fails is harmless, each
result is what the collector yields on messages whose bytes belong to its own response. -/
theorem responses_own {s : State} (h : (reader.guard harmless).Reachable State.init s) :
    ∀ r ∈ s.responses, (∀ o ∈ r.owners, o = r.id) ∧
      (Collect.init r.collector).Yields r.msgs r.effects r.outcome :=
  have hinit : Sound State.init :=
    { queue := rfl
      written := fun _ => rfl
      responses := nofun
      current := nofun
      tracks := .inr ⟨[], 0, .nil 0, List.prefix_rfl, fun _ => ⟨rfl, rfl⟩⟩ }
  (h.guard_invariant hinit fun _ _ _ hs hl hstep => hs.step hl hstep).responses

/-- A frame with the right length. -/
def frame (tag : Char) (body : Bytes) : Frame := ⟨byte tag, Int32.ofNat (body.length + 4), body⟩

/-- A row with one cell, the letter `A`. -/
def row : Frame := frame 'D' [0, 1, 0, 0, 0, 1, byte 'A']

/-- `ReadyForQuery`. -/
def ready : Frame := frame 'Z' [byte 'I']

/-- Two requests of which the first gets a `ReadyForQuery` without a status. -/
def harmlessRun : List Label :=
  [.accept .rows, .accept .rows, .answer [row, frame 'Z' []], .answer [row, ready], .lock, .parse,
    .fill 35, .parse, .parse, .lock, .parse, .parse]

theorem responses_own_harmlessRun :
    ∃ s, (reader.guard harmless).exec State.init harmlessRun = some s ∧
      s.responses.map Response.id = [0, 1] ∧ ∀ r ∈ s.responses, ∀ o ∈ r.owners, o = r.id :=
  have h : (reader.guard harmless).exec State.init harmlessRun = some _ := rfl
  ⟨_, h, rfl, fun r hr => (responses_own (LTS.reachable_of_exec h) r hr).1⟩

/-- Two requests, and a malformed row in the response to the first. -/
def malformedRun : List Label :=
  [.accept .rows, .accept .rows, .answer [frame 'D' [], row, ready], .answer [ready], .lock, .parse,
    .fill 29, .parse, .lock, .parse, .parse]

/-- The second request completes with the row of the first. -/
theorem row_of_predecessor :
    ∃ s r₀ r₁, reader.exec State.init malformedRun = some s ∧ s.responses = [r₀, r₁] ∧
      r₀.outcome = .error (.protocol "DataRow: body too short for column count") ∧
      (∃ res, r₁.outcome = .ok res) ∧ r₁.id = 1 ∧ r₁.owners ≠ [] ∧ ∀ o ∈ r₁.owners, o = 0 := by
  have h : reader.exec State.init malformedRun = some _ := rfl
  exact ⟨_, _, _, h, rfl, rfl, ⟨_, rfl⟩, rfl, by decide, by decide⟩

end Resolute.Conn.Resync
