import Mathlib.Algebra.GroupWithZero.Nat
import Mathlib.Tactic.Common
import Resolute.LTS.Basic

/-!
# Back pressure

The two tasks of a connection over a socket with bounded buffers, one for each direction, and a
server that does not read while the buffer it sends to is full.  Requests and responses are byte
counts here, and `Socket.step` moves one byte at a time.  The writer registers a batch as pending
only after all of it is written, so while it waits for room in the outbound buffer the reader does
not know of the responses that arrive.

If the server waits for room too, they all wait for each other: the writer is `Socket.Stuck` beside
a reader that is parked.  This needs a batch whose requests after the first one do not fit into the
outbound buffer (`Socket.fits`); no run in which every batch fits gets stuck
(`Socket.not_stuck_of_fits`).
-/

namespace Resolute.Conn.Socket

/-- Where the writer task stands; a batch is the sizes of its requests. -/
inductive Writer where
  /-- `rx.recv().await`. -/
  | idle
  /-- The `try_recv` loop. -/
  | gathering (batch : List ℕ)
  /-- `stream.write_all(..).await`. -/
  | writing (batch : List ℕ)
  /-- `pending.lock().await`. -/
  | enqueueing (batch : List ℕ)
  /-- About to call `pending_notify.notify_one()`. -/
  | notifying
  deriving DecidableEq, Repr

/-- Where the reader task stands. -/
inductive Reader where
  /-- `pending.lock().await`. -/
  | locking
  /-- `pending_notify.notified().await`. -/
  | waiting
  /-- Collecting a response. -/
  | collecting
  deriving DecidableEq, Repr

/-- A byte in the inbound buffer: the request it answers, and whether it ends the response. -/
structure Byte where
  owner : ℕ
  last : Bool
  deriving DecidableEq, Repr

/-- The tasks, the buffers and the server. -/
structure State where
  /-- The sizes of the requests in the channel. -/
  chan : List ℕ
  /-- The sizes of the requests of all batches, in the order of the wire. -/
  order : List ℕ
  writer : Writer
  /-- The number of pending entries. -/
  pending : ℕ
  permit : Bool
  reader : Reader
  /-- The bytes the writer has put into the outbound buffer. -/
  sent : ℕ
  /-- The bytes the server has taken from it. -/
  received : ℕ
  /-- The number of requests the server has begun to answer. -/
  answered : ℕ
  /-- The bytes of the current response the server has yet to send. -/
  owed : ℕ
  inbound : List Byte
  deriving DecidableEq, Repr

/-- The steps; reading and writing go one byte at a time. -/
inductive Label where
  /-- The channel accepts a request of `size` bytes. -/
  | accept (size : ℕ)
  | recv
  | tryRecv
  | startWrite
  | write
  | writeDone
  | enqueue
  | notify
  | lock
  | wake
  | read
  /-- The server takes a byte of the requests. -/
  | serverRead
  /-- The server has a request in full and begins a response of `size + 1` bytes. -/
  | answer (size : ℕ)
  /-- The server sends a byte of its response. -/
  | serverSend
  deriving DecidableEq, Repr

/-- Nothing has been sent. -/
def init : State where
  chan := []
  order := []
  writer := .idle
  pending := 0
  permit := false
  reader := .locking
  sent := 0
  received := 0
  answered := 0
  owed := 0
  inbound := []

/-- One step, with buffers of `outCap` and `inCap` bytes. -/
def step (outCap inCap : ℕ) (s : State) : Label → Option State
  | .accept size => some { s with chan := s.chan ++ [size] }
  | .recv => match s.writer, s.chan with
    | .idle, size :: rest => some { s with writer := .gathering [size], chan := rest }
    | _, _ => none
  | .tryRecv => match s.writer, s.chan with
    | .gathering batch, size :: rest =>
      some { s with writer := .gathering (batch ++ [size]), chan := rest }
    | _, _ => none
  | .startWrite => match s.writer, s.chan with
    | .gathering batch, [] =>
      some { s with writer := .writing batch, order := s.order ++ batch }
    | _, _ => none
  | .write => match s.writer with
    | .writing _ =>
      if s.sent < s.order.sum ∧ s.sent < s.received + outCap then
        some { s with sent := s.sent + 1 }
      else none
    | _ => none
  | .writeDone => match s.writer with
    | .writing batch =>
      if s.sent = s.order.sum then some { s with writer := .enqueueing batch } else none
    | _ => none
  | .enqueue => match s.writer with
    | .enqueueing batch =>
      some { s with writer := .notifying, pending := s.pending + batch.length }
    | _ => none
  | .notify => match s.writer with
    | .notifying => some { s with writer := .idle, permit := true }
    | _ => none
  | .lock => match s.reader, s.pending with
    | .locking, n + 1 => some { s with reader := .collecting, pending := n }
    | .locking, 0 => some { s with reader := .waiting }
    | _, _ => none
  | .wake => match s.reader with
    | .waiting => if s.permit then some { s with permit := false, reader := .locking } else none
    | _ => none
  | .read => match s.reader, s.inbound with
    | .collecting, b :: rest =>
      some { s with inbound := rest, reader := if b.last then .locking else .collecting }
    | _, _ => none
  | .serverRead =>
    -- the server stops reading while its send buffer is full
    if s.inbound.length < inCap ∧ s.received < s.sent then
      some { s with received := s.received + 1 }
    else none
  | .answer size =>
    if s.owed = 0 ∧ s.answered < s.order.length ∧
        (s.order.take (s.answered + 1)).sum ≤ s.received then
      some { s with answered := s.answered + 1, owed := size + 1 }
    else none
  | .serverSend => match s.owed with
    | 0 => none
    | n + 1 =>
      if s.inbound.length < inCap then
        some { s with owed := n, inbound := s.inbound ++ [⟨s.answered - 1, n == 0⟩] }
      else none

/-- The tasks and the server over a socket with the given buffers. -/
def tasks (outCap inCap : ℕ) : LTS State Label := ⟨step outCap inCap⟩

/-- The writer is blocked in `write_all` on a full outbound buffer while the reader is parked,
waiting for a pending entry, and the inbound buffer holds bytes of a response to the batch. -/
def Stuck (outCap : ℕ) (s : State) : Prop :=
  ∃ batch, s.writer = .writing batch ∧ s.sent < s.order.sum ∧ s.sent = s.received + outCap ∧
    s.reader = .waiting ∧ s.permit = false ∧
    ∃ b ∈ s.inbound, s.order.length - batch.length ≤ b.owner

/-- A batch is written only if what follows its first request fits into the outbound buffer. -/
def fits (outCap : ℕ) (s : State) : Label → Prop
  | .startWrite => match s.writer with
    | .gathering batch => batch.tail.sum ≤ outCap
    | _ => True
  | _ => True

instance (outCap : ℕ) (s : State) (l : Label) : Decidable (fits outCap s l) := by
  cases l <;> simp only [fits] <;> first | infer_instance | (split <;> infer_instance)

/-- What holds in a run in which every batch fits. -/
structure Credit (outCap : ℕ) (s : State) : Prop where
  /-- A response has begun only if its request was received in full. -/
  answered_le : s.answered ≤ s.order.length
  received : (s.order.take s.answered).sum ≤ s.received
  owner : ∀ b ∈ s.inbound, b.owner < s.answered
  owed : 0 < s.owed → 0 < s.answered
  /-- The batch that is written is the last one. -/
  batch : ∀ batch, s.writer = .writing batch →
    ∃ before, s.order = before ++ batch ∧ batch.tail.sum ≤ outCap

theorem Credit.step {outCap inCap : ℕ} {s s' : State} {l : Label} (h : Credit outCap s)
    (hl : fits outCap s l) (hstep : (tasks outCap inCap).step s l = some s') :
    Credit outCap s' := by
  obtain ⟨chan, order, writer, pending, permit, reader, sent, received, answered,
    owed, inbound⟩ := s
  cases l <;> simp only [tasks, Socket.step] at hstep
  case accept => cases hstep; exact { h with }
  case recv | tryRecv | enqueue | notify =>
    split at hstep <;> cases hstep
    exact { h with batch := nofun }
  case startWrite =>
    split at hstep <;> cases hstep
    rename_i batch
    have htake : (order ++ batch).take answered = order.take answered :=
      List.take_append_of_le_length h.answered_le
    exact { h with
      answered_le := Nat.le_trans h.answered_le (by simp)
      received := htake ▸ h.received
      batch := fun b hb => by cases hb; exact ⟨order, rfl, hl⟩ }
  case write =>
    split at hstep
    · split_ifs at hstep
      cases hstep
      exact { h with }
    · cases hstep
  case writeDone =>
    split at hstep
    · split_ifs at hstep
      cases hstep
      exact { h with batch := nofun }
    · cases hstep
  case lock => split at hstep <;> cases hstep <;> exact { h with }
  case wake =>
    split at hstep
    · split_ifs at hstep
      cases hstep
      exact { h with }
    · cases hstep
  case read =>
    split at hstep <;> cases hstep
    exact { h with owner := fun b hb => h.owner b (List.mem_cons_of_mem _ hb) }
  case serverRead =>
    split_ifs at hstep
    cases hstep
    exact { h with received := Nat.le_succ_of_le h.received }
  case answer size =>
    split_ifs at hstep with hc
    cases hstep
    exact { h with
      answered_le := hc.2.1
      received := hc.2.2
      owner := fun b hb => Nat.lt_succ_of_lt (h.owner b hb)
      owed := fun _ => Nat.succ_pos _ }
  case serverSend =>
    split at hstep
    · cases hstep
    · rename_i n
      split_ifs at hstep
      cases hstep
      have hpos : 0 < answered := h.owed (Nat.succ_pos n)
      exact { h with
        owner := fun b hb => by
          rcases List.mem_append.1 hb with hb | hb
          · exact h.owner b hb
          · obtain rfl := List.mem_singleton.1 hb
            exact Nat.sub_one_lt_of_lt hpos
        owed := fun _ => hpos }

/-- **Batches that fit do not get stuck.**  If the requests of each batch after its first one fit
into the outbound buffer, the writer never waits for room once responses to the batch arrive. -/
theorem not_stuck_of_fits {outCap inCap : ℕ} {s : State}
    (h : ((tasks outCap inCap).guard (fits outCap)).Reachable init s) : ¬ Stuck outCap s := by
  have hcredit : Credit outCap s := h.guard_invariant
    ⟨Nat.le_refl _, Nat.le_refl _, nofun, nofun, nofun⟩ fun _ _ _ hs hl hstep => hs.step hl hstep
  rintro ⟨batch, hw, hsent, hfull, -, -, b, hb, howner⟩
  obtain ⟨before, horder, htail⟩ := hcredit.batch batch hw
  have hanswered := hcredit.owner b hb
  have hle := hcredit.answered_le
  have hreceived := hcredit.received
  rw [horder] at hsent hle hreceived howner
  cases batch with
  | nil => simp at howner hle; omega
  | cons first rest =>
    -- the server has taken everything up to the first request of the batch
    simp only [List.length_append, Nat.add_sub_cancel] at howner
    obtain ⟨k, hk⟩ : ∃ k, s.answered = before.length + (k + 1) :=
      ⟨s.answered - before.length - 1, by omega⟩
    rw [hk, List.take_length_add_append, List.take_succ_cons] at hreceived
    simp only [List.sum_append, List.sum_cons, List.tail_cons] at hreceived hsent htail
    omega

/-- Two requests are written while the first response is under way. -/
def fitsRun : List Label :=
  [.lock, .accept 6, .accept 6, .recv, .tryRecv, .startWrite] ++
    (List.replicate 6 [Label.write, .serverRead]).flatten ++ [.answer 4, .serverSend, .write]

theorem not_stuck_fitsRun :
    ∃ s, ((tasks 8 4).guard (fits 8)).exec init fitsRun = some s ∧ s.inbound = [⟨0, false⟩] ∧
      ¬ Stuck 8 s :=
  have h : ((tasks 8 4).guard (fits 8)).exec init fitsRun = some _ := rfl
  ⟨_, h, rfl, not_stuck_of_fits (LTS.reachable_of_exec h)⟩

/-- Three requests of which two do not fit into the outbound buffer, and a response that does not
fit into the inbound one. -/
def stuckRun : List Label :=
  [.lock, .accept 6, .accept 6, .accept 6, .recv, .tryRecv, .tryRecv, .startWrite] ++
    (List.replicate 6 [Label.write, .serverRead]).flatten ++
    [.answer 4, .serverSend, .serverSend, .serverSend, .serverSend] ++ List.replicate 8 .write

/-- The writer, the reader and the server wait for one another: only new requests can come. -/
theorem stuck_for_ever :
    ∃ s, (tasks 8 4).Reachable init s ∧ Stuck 8 s ∧
      (tasks 8 4).Quiescent (fun l => ∀ size, l ≠ .accept size) s := by
  have h : (tasks 8 4).exec init stuckRun = some _ := rfl
  refine ⟨_, LTS.reachable_of_exec h, ⟨[6, 6, 6], rfl, by decide, rfl, rfl, rfl, ⟨0, false⟩,
    List.mem_cons_self, Nat.le_refl _⟩, ?_⟩
  intro l hl
  cases l <;> first | rfl | exact absurd rfl (hl _)

end Resolute.Conn.Socket
