import Resolute.LTS.Basic
import Resolute.Wire.Collect

/-!
# The tasks of a connection

An `AsyncConn` is a bounded channel of requests, a *writer* task that coalesces what it finds there
into one write and then registers the requests as pending, and a *reader* task that takes one
pending request at a time and collects its response.  The two share the pending queue, under a
lock, and a `Notify`.  Any number of submitters send requests, and their receivers may go away at
any time.

Each step is what one task does between two `.await`s.  The socket is unbounded here; the server
answers the requests that have been written, in order.  A `State` has the history of what was
accepted, written and answered.  `Trans` has one rule for each transition of `asyncConn`, and
`trans_of_step` says that there are no others.
-/

namespace Resolute.Conn

/-- A `PipelineRequest`; `tag` says who sent it. -/
structure Request (τ : Type) where
  messages : List FrontendMsg
  collector : ResponseCollector
  /-- The capacity of the row channel of a stream; such a channel is never created with 0. -/
  rowBuffer : { n : ℕ // 0 < n } := ⟨1, Nat.one_pos⟩
  tag : τ
  deriving DecidableEq

/-- The request of `close`, which the server answers by closing the connection. -/
def Request.isTerminate {τ : Type} (r : Request τ) : Bool := r.messages == [.terminate]

/-- A request with its reply channel: the requests the channel accepts are numbered. -/
structure Item (τ : Type) where
  id : ℕ
  req : Request τ
  deriving DecidableEq

/-- What becomes of a reply channel. -/
inductive Completion where
  | sent (outcome : Outcome)
  | dropped
  deriving DecidableEq, Repr

/-- A request that is completed, and what its collector did besides. -/
structure Response where
  id : ℕ
  effects : List Emit
  completion : Completion
  deriving DecidableEq, Repr

/-- Where the writer task stands. -/
inductive Writer (τ : Type) where
  /-- `rx.recv().await`. -/
  | idle
  /-- The `try_recv` loop. -/
  | gathering (batch : List (Item τ))
  /-- `stream.write_all(..).await`; the first `sent` requests of the batch are written. -/
  | writing (batch : List (Item τ)) (sent : ℕ)
  /-- `pending.lock().await`. -/
  | enqueueing (batch : List (Item τ))
  /-- About to call `pending_notify.notify_one()`. -/
  | notifying
  /-- `drain_pending_on_exit(..).await`. -/
  | draining
  /-- About to return, which drops the receiver of the channel. -/
  | leaving
  | exited
  deriving DecidableEq

/-- Where the reader task stands; its loop has no exit. -/
inductive Reader (τ : Type) where
  /-- `pending.lock().await`. -/
  | locking
  /-- `pending_notify.notified().await`. -/
  | waiting
  /-- Collecting the response to `item`: the messages of it seen so far, what the collector did, and
  the rows that wait in the row channel. -/
  | collecting (item : Item τ) (collect : Collect) (seen : List BackendMsg) (effects : List Emit)
      (buffered : ℕ)
  deriving DecidableEq

/-- A connection. -/
structure State (τ : Type) where
  /-- The requests the channel has accepted, oldest first. -/
  accepted : List (Item τ)
  /-- Some handle to the connection is alive. -/
  handles : Bool
  chan : List (Item τ)
  writer : Writer τ
  pending : List (Item τ)
  /-- The permit that `notify_one` stores. -/
  permit : Bool
  reader : Reader τ
  /-- How many requests the reader has taken from the pending queue. -/
  taken : ℕ
  /-- The requests that are written, in the order of the wire. -/
  written : List (Item τ)
  /-- The response groups the server has sent, in the order of `written`. -/
  groups : List (List BackendMsg)
  /-- The messages that are received or under way. -/
  inbound : List BackendMsg
  /-- Nothing more arrives: reading fails once `inbound` is used up. -/
  lost : Bool
  /-- The streams whose row receiver was dropped. -/
  rxDropped : List ℕ
  responses : List Response

/-- The steps of the tasks, the server and the application. -/
inductive Label (τ : Type) where
  /-- The channel accepts a request. -/
  | accept (req : Request τ)
  /-- The last handle is dropped. -/
  | dropHandles
  | recv
  | tryRecv
  | startWrite
  /-- The next request of the batch is written in full. -/
  | transmit
  | writeDone
  | writeFail (msg : String)
  | enqueue
  | notify
  | drainPending
  | exit
  | lock
  | wake
  | read
  | readError (e : PgWireError)
  /-- The application takes a row from the row channel of the current stream. -/
  | takeRow
  | dropRx (id : ℕ)
  /-- The server answers the next request. -/
  | answer (group : List BackendMsg)
  /-- The server closes the connection, as `Terminate` asks. -/
  | hangup
  /-- The connection breaks, and only the first `n` messages under way arrive. -/
  | lose (n : ℕ)
  deriving DecidableEq

/-- The capacity of the request channel. -/
def chanCap : ℕ := 256

/-- A response group: it ends with its only `ReadyForQuery`. -/
def isWellFormed : List BackendMsg → Bool
  | [] => false
  | m :: ms => if m.isReady then ms.isEmpty else isWellFormed ms

/-- The errors of `read_msg` on a connection that is lost. -/
def lossError : PgWireError → Bool
  | .ioError _ _ | .connectionClosed => true
  | _ => false

section

variable {τ : Type}

/-- The collector of an item, whose row receiver may have been dropped already. -/
def startCollect (rxDropped : List ℕ) (item : Item τ) : Collect :=
  if item.id ∈ rxDropped then (Collect.init item.req.collector).dropRx
  else Collect.init item.req.collector

/-- `drain_pending_on_exit` and the dropped channel complete requests without a result. -/
def closeAll (completion : Completion) (items : List (Item τ)) : List Response :=
  items.map fun it => ⟨it.id, [], completion⟩

/-- The row channel takes what a pass of the collector sends: there is room, or no receiver. -/
def hasRoom (rxDropped : List ℕ) (item : Item τ) (buffered : ℕ) (effects : List Emit) : Bool :=
  decide (item.id ∈ rxDropped) || decide (buffered + effects.countP Emit.isRow ≤ item.req.rowBuffer)

namespace State

/-- `AsyncConn::new`. -/
def init : State τ where
  accepted := []
  handles := true
  chan := []
  writer := .idle
  pending := []
  permit := false
  reader := .locking
  taken := 0
  written := []
  groups := []
  inbound := []
  lost := false
  rxDropped := []
  responses := []

/-- The next request the server answers. -/
def unanswered (s : State τ) : Option (Item τ) := s.written[s.groups.length]?

/-- The writer has dropped the receiver of the channel. -/
def closed (s : State τ) : Bool :=
  match s.writer with
  | .exited => true
  | _ => false

end State

/-- One step of the connection. -/
def step (s : State τ) : Label τ → Option (State τ)
  | .accept req =>
    if s.handles && !s.closed && decide (s.chan.length < chanCap) then
      let item := ⟨s.accepted.length, req⟩
      some { s with accepted := s.accepted ++ [item], chan := s.chan ++ [item] }
    else none
  | .dropHandles => if s.handles then some { s with handles := false } else none
  | .recv => match s.writer, s.chan with
    | .idle, item :: rest => some { s with writer := .gathering [item], chan := rest }
    | .idle, [] => if s.handles then none else some { s with writer := .draining }
    | _, _ => none
  | .tryRecv => match s.writer, s.chan with
    | .gathering batch, item :: rest =>
      some { s with writer := .gathering (batch ++ [item]), chan := rest }
    | _, _ => none
  | .startWrite => match s.writer, s.chan with
    | .gathering batch, [] => some { s with writer := .writing batch 0 }
    | _, _ => none
  | .transmit => match s.writer with
    | .writing batch sent => (batch[sent]?).map fun item =>
      { s with writer := .writing batch (sent + 1), written := s.written ++ [item] }
    | _ => none
  | .writeDone => match s.writer with
    | .writing batch sent =>
      if sent = batch.length then some { s with writer := .enqueueing batch } else none
    | _ => none
  | .writeFail msg => match s.writer with
    | .writing batch _ => some { s with
        writer := .draining
        responses := s.responses ++ closeAll (.sent (.error (.ioError .brokenPipe msg))) batch }
    | _ => none
  | .enqueue => match s.writer with
    | .enqueueing batch => some { s with writer := .notifying, pending := s.pending ++ batch }
    | _ => none
  | .notify => match s.writer with
    | .notifying => some { s with writer := .idle, permit := true }
    | _ => none
  | .drainPending => match s.writer with
    | .draining => some { s with
        writer := .leaving
        pending := []
        responses := s.responses ++ closeAll (.sent (.error .connectionClosed)) s.pending }
    | _ => none
  | .exit => match s.writer with
    | .leaving => some { s with
        writer := .exited
        chan := []
        responses := s.responses ++ closeAll .dropped s.chan }
    | _ => none
  | .lock => match s.reader, s.pending with
    | .locking, item :: rest => some { s with
        pending := rest
        taken := s.taken + 1
        reader := .collecting item (startCollect s.rxDropped item) [] [] 0 }
    | .locking, [] => some { s with reader := .waiting }
    | _, _ => none
  | .wake => match s.reader with
    | .waiting => if s.permit then some { s with permit := false, reader := .locking } else none
    | _ => none
  | .read => match s.reader, s.inbound with
    | .collecting item c seen effects buffered, m :: rest => match c.feedMsg m with
      | .more es c' =>
        if hasRoom s.rxDropped item buffered es then some { s with
          inbound := rest
          reader := .collecting item c' (seen ++ [m]) (effects ++ es)
            (buffered + es.countP Emit.isRow) }
        else none
      | .done es res => some { s with
          inbound := rest
          reader := .locking
          responses := s.responses ++ [⟨item.id, effects ++ es, .sent res⟩] }
    | _, _ => none
  | .readError e => match s.reader, s.inbound with
    | .collecting item c _ effects buffered, [] => match c.feedError e with
      | .done es res =>
        if s.lost && lossError e && hasRoom s.rxDropped item buffered es then some { s with
          reader := .locking
          responses := s.responses ++ [⟨item.id, effects ++ es, .sent res⟩] }
        else none
      | .more _ _ => none
    | _, _ => none
  | .takeRow => match s.reader with
    | .collecting item c seen effects (buffered + 1) =>
      some { s with reader := .collecting item c seen effects buffered }
    | _ => none
  | .dropRx id =>
    let s' := { s with rxDropped := id :: s.rxDropped }
    match s.reader with
    | .collecting item c seen effects buffered =>
      if item.id = id then
        some { s' with reader := .collecting item c.dropRx seen effects buffered }
      else some s'
    | _ => some s'
  | .answer group => match s.unanswered with
    | some item =>
      if !s.lost && !item.req.isTerminate && isWellFormed group then
        some { s with groups := s.groups ++ [group], inbound := s.inbound ++ group }
      else none
    | none => none
  | .hangup => match s.unanswered with
    | some item => if !s.lost && item.req.isTerminate then some { s with lost := true } else none
    | none => none
  | .lose n => if s.lost then none else some { s with lost := true, inbound := s.inbound.take n }

end

/-! ### Response groups -/

theorem isWellFormed_split {g : List BackendMsg} (h : isWellFormed g = true) :
    ∃ ms m, g = ms ++ [m] ∧ m.isReady = true ∧ ∀ m' ∈ ms, m'.isReady = false := by
  induction g with
  | nil => cases h
  | cons m g ih =>
    simp only [isWellFormed] at h
    split_ifs at h with hm
    · exact ⟨[], m, by simpa using h, hm, by simp⟩
    · obtain ⟨ms, m', rfl, hm', hms⟩ := ih h
      exact ⟨m :: ms, m', rfl, hm', by simpa [hm] using hms⟩

/-- Two lists that agree up to their first `ReadyForQuery` have the same group in front. -/
theorem split_at_ready {ms ms' rest rest' : List BackendMsg} {m m' : BackendMsg}
    (hms : ∀ x ∈ ms, x.isReady = false) (hms' : ∀ x ∈ ms', x.isReady = false)
    (hm : m.isReady = true) (hm' : m'.isReady = true)
    (h : ms ++ m :: rest = ms' ++ m' :: rest') : ms = ms' ∧ m = m' ∧ rest = rest' := by
  induction ms generalizing ms' with
  | nil =>
    cases ms' with
    | nil => simpa using h
    | cons x ms' =>
      obtain ⟨rfl, -⟩ := List.cons.inj h
      exact absurd hm (by simp [hms' m List.mem_cons_self])
  | cons x ms ih =>
    cases ms' with
    | nil =>
      obtain ⟨rfl, -⟩ := List.cons.inj h
      exact absurd hm' (by simp [hms x List.mem_cons_self])
    | cons x' ms' =>
      obtain ⟨hx, htail⟩ := List.cons.inj h
      obtain ⟨rfl, hrest⟩ := ih (fun y hy => hms y (List.mem_cons_of_mem _ hy))
        (fun y hy => hms' y (List.mem_cons_of_mem _ hy)) htail
      exact ⟨by rw [hx], hrest⟩

/-- A group in front of the stream is used up with the first `ReadyForQuery`. -/
theorem flatten_of_ready {gs : List (List BackendMsg)} {ms rest : List BackendMsg} {m : BackendMsg}
    (hgs : ∀ g ∈ gs, isWellFormed g = true) (hms : ∀ x ∈ ms, x.isReady = false)
    (hm : m.isReady = true) (h : ms ++ m :: rest <+: gs.flatten) :
    ∃ gs', gs = (ms ++ [m]) :: gs' ∧ rest <+: gs'.flatten := by
  obtain ⟨tail, h⟩ := h
  cases gs with
  | nil => simp at h
  | cons g gs =>
    obtain ⟨ms', m', rfl, hm', hms'⟩ := isWellFormed_split (hgs g List.mem_cons_self)
    have hsplit : ms ++ m :: (rest ++ tail) = ms' ++ m' :: gs.flatten := by simpa using h
    obtain ⟨rfl, rfl, hrest⟩ := split_at_ready hms hms' hm hm' hsplit
    exact ⟨gs, rfl, tail, hrest⟩

/-- Messages without `ReadyForQuery` in front of the stream belong to its first group. -/
theorem prefix_of_not_ready {gs : List (List BackendMsg)} {ms : List BackendMsg}
    (hgs : ∀ g ∈ gs, isWellFormed g = true) (hms : ∀ x ∈ ms, x.isReady = false)
    (h : ms <+: gs.flatten) : ms <+: gs.getD 0 [] := by
  cases gs with
  | nil => simpa using h
  | cons g gs =>
    obtain ⟨ms', m', rfl, hm', -⟩ := isWellFormed_split (hgs g List.mem_cons_self)
    rcases List.prefix_or_prefix_of_prefix h
      (List.prefix_append (ms' ++ [m']) gs.flatten) with h | h
    · exact h
    · exact absurd (hms m' (h.subset (by simp))) (by simp [hm'])

/-- A connection as a transition system. -/
def asyncConn (τ : Type) : LTS (State τ) (Label τ) := ⟨step⟩

section

variable {τ : Type}

/-- The transitions of a connection. -/
inductive Trans (s : State τ) : Label τ → State τ → Prop
  | accept {req} (hh : s.handles = true) (hc : s.closed = false) (hroom : s.chan.length < chanCap) :
    Trans s (.accept req) { s with
      accepted := s.accepted ++ [⟨s.accepted.length, req⟩]
      chan := s.chan ++ [⟨s.accepted.length, req⟩] }
  | dropHandles (hh : s.handles = true) : Trans s .dropHandles { s with handles := false }
  | recv {item rest} (hw : s.writer = .idle) (hc : s.chan = item :: rest) :
    Trans s .recv { s with writer := .gathering [item], chan := rest }
  | recvClosed (hw : s.writer = .idle) (hc : s.chan = []) (hh : s.handles = false) :
    Trans s .recv { s with writer := .draining }
  | tryRecv {batch item rest} (hw : s.writer = .gathering batch) (hc : s.chan = item :: rest) :
    Trans s .tryRecv { s with writer := .gathering (batch ++ [item]), chan := rest }
  | startWrite {batch} (hw : s.writer = .gathering batch) (hc : s.chan = []) :
    Trans s .startWrite { s with writer := .writing batch 0 }
  | transmit {batch sent item} (hw : s.writer = .writing batch sent)
    (hb : batch[sent]? = some item) :
    Trans s .transmit { s with
      writer := .writing batch (sent + 1), written := s.written ++ [item] }
  | writeDone {batch} (hw : s.writer = .writing batch batch.length) :
    Trans s .writeDone { s with writer := .enqueueing batch }
  | writeFail {batch sent msg} (hw : s.writer = .writing batch sent) :
    Trans s (.writeFail msg) { s with
      writer := .draining
      responses := s.responses ++ closeAll (.sent (.error (.ioError .brokenPipe msg))) batch }
  | enqueue {batch} (hw : s.writer = .enqueueing batch) :
    Trans s .enqueue { s with writer := .notifying, pending := s.pending ++ batch }
  | notify (hw : s.writer = .notifying) : Trans s .notify { s with writer := .idle, permit := true }
  | drainPending (hw : s.writer = .draining) :
    Trans s .drainPending { s with
      writer := .leaving
      pending := []
      responses := s.responses ++ closeAll (.sent (.error .connectionClosed)) s.pending }
  | exit (hw : s.writer = .leaving) :
    Trans s .exit { s with
      writer := .exited
      chan := []
      responses := s.responses ++ closeAll .dropped s.chan }
  | lock {item rest} (hr : s.reader = .locking) (hp : s.pending = item :: rest) :
    Trans s .lock { s with
      pending := rest
      taken := s.taken + 1
      reader := .collecting item (startCollect s.rxDropped item) [] [] 0 }
  | lockEmpty (hr : s.reader = .locking) (hp : s.pending = []) :
    Trans s .lock { s with reader := .waiting }
  | wake (hr : s.reader = .waiting) (hp : s.permit = true) :
    Trans s .wake { s with permit := false, reader := .locking }
  | read {item c seen effects buffered m rest es c'}
    (hr : s.reader = .collecting item c seen effects buffered) (hi : s.inbound = m :: rest)
    (hfeed : c.feedMsg m = .more es c') (hroom : hasRoom s.rxDropped item buffered es = true) :
    Trans s .read { s with
      inbound := rest
      reader := .collecting item c' (seen ++ [m]) (effects ++ es)
        (buffered + es.countP Emit.isRow) }
  | readDone {item c seen effects buffered m rest es res}
    (hr : s.reader = .collecting item c seen effects buffered) (hi : s.inbound = m :: rest)
    (hfeed : c.feedMsg m = .done es res) :
    Trans s .read { s with
      inbound := rest
      reader := .locking
      responses := s.responses ++ [⟨item.id, effects ++ es, .sent res⟩] }
  | readError {item c seen effects buffered e es res}
    (hr : s.reader = .collecting item c seen effects buffered) (hi : s.inbound = [])
    (hfeed : c.feedError e = .done es res) (hl : s.lost = true) (he : lossError e = true)
    (hroom : hasRoom s.rxDropped item buffered es = true) :
    Trans s (.readError e) { s with
      reader := .locking
      responses := s.responses ++ [⟨item.id, effects ++ es, .sent res⟩] }
  | takeRow {item c seen effects buffered}
    (hr : s.reader = .collecting item c seen effects (buffered + 1)) :
    Trans s .takeRow { s with reader := .collecting item c seen effects buffered }
  | dropRxCurrent {item c seen effects buffered}
    (hr : s.reader = .collecting item c seen effects buffered) :
    Trans s (.dropRx item.id) { s with
      rxDropped := item.id :: s.rxDropped
      reader := .collecting item c.dropRx seen effects buffered }
  | dropRx {id} : Trans s (.dropRx id) { s with rxDropped := id :: s.rxDropped }
  | answer {item group} (hn : s.unanswered = some item) (hl : s.lost = false)
    (ht : item.req.isTerminate = false) (hg : isWellFormed group = true) :
    Trans s (.answer group) { s with
      groups := s.groups ++ [group], inbound := s.inbound ++ group }
  | hangup {item} (hn : s.unanswered = some item) (hl : s.lost = false)
    (ht : item.req.isTerminate = true) : Trans s .hangup { s with lost := true }
  | lose {n} (hl : s.lost = false) :
    Trans s (.lose n) { s with lost := true, inbound := s.inbound.take n }

/-- What a step can do. -/
theorem trans_of_step {s s' : State τ} {l : Label τ} (h : (asyncConn τ).step s l = some s') :
    Trans s l s' := by
  obtain ⟨accepted, handles, chan, writer, pending, permit, reader, taken, written, groups, inbound,
    lost, rxDropped, responses⟩ := s
  cases l <;> simp only [asyncConn, step] at h
  case accept req =>
    split_ifs at h with hc
    cases h
    simp only [Bool.and_eq_true, Bool.not_eq_true', decide_eq_true_eq] at hc
    exact .accept hc.1.1 hc.1.2 hc.2
  case dropHandles =>
    split_ifs at h with hh
    cases h
    exact .dropHandles hh
  case recv =>
    split at h
    · cases h; exact .recv rfl rfl
    · split_ifs at h with hh
      cases h
      exact .recvClosed rfl rfl (by simpa using hh)
    · cases h
  case tryRecv => split at h <;> cases h; exact .tryRecv rfl rfl
  case startWrite => split at h <;> cases h; exact .startWrite rfl rfl
  case transmit =>
    split at h
    · obtain ⟨item, hb, rfl⟩ := Option.map_eq_some_iff.1 h
      exact .transmit rfl hb
    · cases h
  case writeDone =>
    split at h
    · split_ifs at h with hs
      cases h
      subst hs
      exact .writeDone rfl
    · cases h
  case writeFail msg => split at h <;> cases h; exact .writeFail rfl
  case enqueue => split at h <;> cases h; exact .enqueue rfl
  case notify => split at h <;> cases h; exact .notify rfl
  case drainPending => split at h <;> cases h; exact .drainPending rfl
  case exit => split at h <;> cases h; exact .exit rfl
  case lock =>
    split at h <;> cases h
    · exact .lock rfl rfl
    · exact .lockEmpty rfl rfl
  case wake =>
    split at h
    · split_ifs at h with hp
      cases h
      exact .wake rfl hp
    · cases h
  case read =>
    split at h
    · split at h
      · split_ifs at h with hroom
        cases h
        exact .read rfl rfl (by assumption) hroom
      · cases h; exact .readDone rfl rfl (by assumption)
    · cases h
  case readError e =>
    split at h
    · split at h
      · split_ifs at h with hc
        cases h
        simp only [Bool.and_eq_true] at hc
        exact .readError rfl rfl (by assumption) hc.1.1 hc.1.2 hc.2
      · cases h
    · cases h
  case takeRow => split at h <;> cases h; exact .takeRow rfl
  case dropRx id =>
    split at h
    · split_ifs at h with hid <;> cases h
      · subst hid; exact .dropRxCurrent rfl
      · exact .dropRx
    · cases h; exact .dropRx
  case answer group =>
    split at h
    · split_ifs at h with hc
      cases h
      simp only [Bool.and_eq_true, Bool.not_eq_true'] at hc
      exact .answer (by assumption) hc.1.1 hc.1.2 hc.2
    · cases h
  case hangup =>
    split at h
    · split_ifs at h with hc
      cases h
      simp only [Bool.and_eq_true, Bool.not_eq_true'] at hc
      exact .hangup (by assumption) hc.1 hc.2
    · cases h
  case lose n =>
    split_ifs at h with hl
    cases h
    exact .lose (by simpa using hl)

end

end Resolute.Conn
