import Resolute.Pool.Hygiene
import Resolute.Wire.Read

/-!
# Pooled connections to PostgreSQL

`AsyncPoolable`, with the session of the server behind it, as far as its transaction status goes.
The `reset` of a connection that is flagged as state-mutated sends `DISCARD ALL`, which PostgreSQL
rejects inside a transaction block; the collector of the response takes the rejection for a success
(`discardAll_reported`).  A connection that is not flagged is not reset at all, and its last
requests may still be on their way.

So `reset` leaves a session idle only if the last request finds it idle
(`AsyncPoolable.leavesIdle`), and nothing that happens to a connection by itself brings its session
to idle either (`Drift`).  In a run in which guards are dropped only on connections that
`reset` leaves idle, those that are handed out are idle (`checkout_idle`).
-/

namespace Resolute.Pool

/-- The transaction status of a session. -/
inductive TxStatus where
  | idle
  /-- Inside a transaction block. -/
  | active
  /-- Inside a transaction block that has failed. -/
  | failed
  deriving DecidableEq, Repr

/-- The status byte of `ReadyForQuery`. -/
def TxStatus.toByte : TxStatus → UInt8
  | idle => byte 'I'
  | active => byte 'T'
  | failed => byte 'E'

/-- What a request makes of the transaction status; its SQL decides that, and the server. -/
abbrev Request := TxStatus → TxStatus

/-- PostgreSQL's answer to `DISCARD ALL`, and the status after it. -/
def discardAll : TxStatus → List BackendMsg × TxStatus
  | .idle => ([.commandComplete "DISCARD ALL"], .idle)
  | .active => ([.errorResponse { code := "25001" }], .failed)
  | .failed => ([.errorResponse { code := "25P02" }], .failed)

/-- Where the `DISCARD ALL` of a `reset` is. -/
inductive Discard where
  | none
  /-- Behind all the other requests. -/
  | queued
  /-- The server has answered, and the reader task has not read it yet. -/
  | answered (msgs : List BackendMsg) (status : TxStatus)
  /-- `submit` has returned. -/
  | returned (outcome : Outcome)
  deriving DecidableEq, Repr

/-- A pooled connection, with the session of the server behind it. -/
structure AsyncPoolable where
  /-- The transaction status of the session. -/
  status : TxStatus
  /-- The requests that the server has not carried out yet, oldest first. -/
  queue : List Request
  /-- The statuses of the answers that the reader task has not read yet, oldest first. -/
  unread : List TxStatus
  discard : Discard
  stateMutated : Bool
  broken : Bool
  alive : Bool

/-- What happens to a connection. -/
inductive WireEvent where
  /-- The holder's request is queued. -/
  | submit (r : Request)
  | markStateMutated
  | takeStateMutated
  | markBroken
  /-- The server carries out the oldest request. -/
  | serve
  /-- The reader task reads the oldest answer. -/
  | read
  /-- The writer task or the reader task exits. -/
  | exit
  /-- The `submit` of the `reset` fails. -/
  | giveUp

namespace AsyncPoolable

/-- `note_rfq_status`. -/
def noteRfqStatus (c : AsyncPoolable) (status : TxStatus) : AsyncPoolable :=
  { c with stateMutated :=
      c.stateMutated || (Collect.noteRfqStatus status.toByte).contains .stateMutated }

/-- What the collector of the `DISCARD ALL` makes of its answer. -/
def discardOutcome (msgs : List BackendMsg) (status : TxStatus) : Outcome :=
  Collect.await ((Collect.init .drain).run (msgs.map .ok ++ [.ok (.readyForQuery status.toByte)]))

/-- `AsyncPoolable::connect` can return the connection. -/
def isNew (c : AsyncPoolable) : Bool :=
  c.status = .idle && c.queue.isEmpty && c.unread.isEmpty && c.discard = .none &&
    !c.stateMutated && !c.broken && c.alive

/-- `AsyncPoolable::has_pending_data`. -/
def hasPendingData (c : AsyncPoolable) : Bool := !c.alive || c.broken

/-- `AsyncPoolable::reset`, up to its `await`. -/
def startReset (c : AsyncPoolable) : Reset AsyncPoolable :=
  if !c.alive then .done false c
  else if !c.stateMutated then .done true c
  else .waiting { c with stateMutated := false, discard := .queued }

/-- `AsyncPoolable::reset`, after its `await`. -/
def pollReset (c : AsyncPoolable) : Option (Bool × AsyncPoolable) :=
  match c.discard with
  | .returned outcome => some (outcome.isOk, c)
  | _ => none

/-- What the holder does with the connection. -/
def use (c : AsyncPoolable) : WireEvent → Option AsyncPoolable
  | .submit r => some { c with queue := c.queue ++ [r] }
  | .markStateMutated => some { c with stateMutated := true }
  | .takeStateMutated => some { c with stateMutated := false }
  | .markBroken => some { c with broken := true }
  | _ => none

/-- What happens to the connection by itself. -/
def drift (c : AsyncPoolable) : WireEvent → Option AsyncPoolable
  | .serve => match c.queue with
    | r :: rest =>
      some { c with status := r c.status, queue := rest, unread := c.unread ++ [r c.status] }
    | [] => match c.discard with
      | .queued =>
        some { c with
          status := (discardAll c.status).2
          discard := .answered (discardAll c.status).1 (discardAll c.status).2 }
      | _ => none
  | .read => match c.unread with
    | status :: rest => some ({ c with unread := rest }.noteRfqStatus status)
    | [] => match c.discard with
      | .answered msgs status =>
        some ({ c with discard := .returned (discardOutcome msgs status) }.noteRfqStatus status)
      | _ => none
  | .exit => some { c with alive := false }
  -- the caller waits no longer, and the connection will be destroyed
  | .giveUp => match c.discard with
    | .queued | .answered _ _ => some { c with discard := .returned (.error .connectionClosed) }
    | _ => none
  | _ => none

/-- The status of the session after the requests `queue`. -/
def after (status : TxStatus) (queue : List Request) : TxStatus :=
  queue.foldl (fun status r => r status) status

/-- The status of the session once it has carried out what is queued. -/
def settled (c : AsyncPoolable) : TxStatus := after c.status c.queue

/-- The session is idle, and after each of the requests. -/
def calm : TxStatus → List Request → Bool
  | status, [] => status = .idle
  | status, r :: rest => status = .idle && calm (r status) rest

/-- The session is idle, and remains so while it carries out what is queued. -/
def isCalm (c : AsyncPoolable) : Bool := calm c.status c.queue

/-- If a guard is dropped on the connection, `reset` leaves the session idle, or the connection is
destroyed: nobody can use it any more, or its session is idle already, or it will be when the
`DISCARD ALL` meets it. -/
def leavesIdle (c : AsyncPoolable) : Bool :=
  !c.alive || c.broken || c.isCalm || c.stateMutated && c.settled = .idle

theorem after_calm {status : TxStatus} {queue : List Request} (h : calm status queue = true) :
    after status queue = .idle := by
  induction queue generalizing status with
  | nil => exact of_decide_eq_true h
  | cons r rest ih =>
    simp only [calm, Bool.and_eq_true] at h
    exact ih h.2

theorem settled_of_isCalm {c : AsyncPoolable} (h : c.isCalm = true) : c.settled = .idle :=
  after_calm h

theorem isCalm_of_settled {c : AsyncPoolable} (hq : c.queue = []) (h : c.settled = .idle) :
    c.isCalm = true := by
  simpa [isCalm, calm, settled, after, hq] using h

/-! ### The connection by itself -/

/-- `Drift c c'` : the connection `c` can become `c'` by itself. -/
inductive Drift (c : AsyncPoolable) : AsyncPoolable → Prop
  | serve {r rest} (hq : c.queue = r :: rest) :
    Drift c { c with status := r c.status, queue := rest, unread := c.unread ++ [r c.status] }
  | serveDiscard (hq : c.queue = []) (hd : c.discard = .queued) :
    Drift c { c with
      status := (discardAll c.status).2
      discard := .answered (discardAll c.status).1 (discardAll c.status).2 }
  | read {status rest} (hu : c.unread = status :: rest) :
    Drift c ({ c with unread := rest }.noteRfqStatus status)
  | readDiscard {msgs status} (hd : c.discard = .answered msgs status) :
    Drift c ({ c with discard := .returned (discardOutcome msgs status) }.noteRfqStatus status)
  | exit : Drift c { c with alive := false }
  | giveUp : Drift c { c with discard := .returned (.error .connectionClosed) }

section

variable {c c' : AsyncPoolable} {a : WireEvent}

theorem drift_cases (h : c.drift a = some c') : Drift c c' := by
  cases a with
  | serve =>
    simp only [drift] at h
    split at h
    · rename_i r rest hq
      cases h
      exact .serve hq
    · rename_i hq
      split at h <;> cases h
      rename_i hd
      exact .serveDiscard hq hd
  | read =>
    simp only [drift] at h
    split at h
    · rename_i status rest hu
      cases h
      exact .read hu
    · split at h <;> cases h
      rename_i msgs status hd
      exact .readDiscard hd
  | exit => cases h; exact .exit
  | giveUp =>
    simp only [drift] at h
    split at h <;> cases h
    · exact .giveUp
    · exact .giveUp
  | _ => cases h

theorem Drift.alive (h : Drift c c') (ha : c'.alive = true) : c.alive = true := by
  cases h <;> first | exact ha | cases ha

theorem Drift.broken (h : Drift c c') : c'.broken = c.broken := by cases h <;> rfl

theorem Drift.stateMutated (h : Drift c c') (hm : c.stateMutated = true) :
    c'.stateMutated = true := by
  cases h <;> first | exact hm | simp [noteRfqStatus, hm]

theorem discardAll_idle_iff {status : TxStatus} :
    (discardAll status).2 = .idle ↔ status = .idle := by
  cases status <;> decide

/-- **Nothing that happens to a connection by itself brings its session to idle**, since `DISCARD
ALL` does not. -/
theorem Drift.settled_iff (h : Drift c c') : c'.settled = .idle ↔ c.settled = .idle := by
  cases h with
  | serve hq => simp [settled, after, hq]
  | serveDiscard hq => simp [settled, after, hq, discardAll_idle_iff]
  | _ => rfl

theorem Drift.isCalm (h : Drift c c') (hc : c.isCalm = true) : c'.isCalm = true := by
  cases h with
  | serve hq =>
    simp only [AsyncPoolable.isCalm, hq, calm, Bool.and_eq_true] at hc
    exact hc.2
  | serveDiscard hq =>
    exact isCalm_of_settled hq <|
      (Drift.settled_iff (.serveDiscard hq ‹_›)).2 (settled_of_isCalm hc)
  | _ => exact hc

theorem hasPendingData_drift (h : c.drift a = some c') (hp : c.hasPendingData = true) :
    c'.hasPendingData = true := by
  have hd := drift_cases h
  simp only [hasPendingData, hd.broken, Bool.or_eq_true, Bool.not_eq_true'] at hp ⊢
  refine hp.imp_left fun ha => ?_
  by_contra hne
  rw [hd.alive (by simpa using hne)] at ha
  cases ha

end

end AsyncPoolable

open AsyncPoolable

/-- `AsyncPoolable` as a connection of the pool. -/
def asyncWire : Poolable AsyncPoolable WireEvent where
  hasPendingData := hasPendingData
  connects := isNew
  startReset := startReset
  pollReset := pollReset
  use := use
  drift := drift
  drift_pending := hasPendingData_drift

/-- A `DISCARD ALL` that is answered counts as carried out, whatever the answer is. -/
theorem discardAll_reported (msgs : List BackendMsg) (status : TxStatus)
    (h : ∀ m ∈ msgs, m.isReady = false) : discardOutcome msgs status = .ok .done := by
  rw [discardOutcome, show Collect.init .drain = .drain from rfl, Collect.drain_run,
    responseGroup_append rfl h]
  rfl

/-! ### What is handed out -/

/-- A connection that waits for the answer to `DISCARD ALL`. -/
def awaitsDiscard (c : AsyncPoolable) : Prop :=
  c.settled = .idle ∧
    (c.queue = [] ∨ c.discard = .queued ∨ ∃ e, c.discard = .returned (.error e))

theorem AsyncPoolable.Drift.awaitsDiscard {c c' : AsyncPoolable} (h : Drift c c')
    (hc : awaitsDiscard c) : awaitsDiscard c' := by
  refine ⟨h.settled_iff.2 hc.1, ?_⟩
  cases h with
  | serve hq =>
    rcases hc.2 with hnil | hd
    · rw [hq] at hnil
      cases hnil
    · exact .inr hd
  | serveDiscard hq => exact .inl hq
  | readDiscard hd =>
    rcases hc.2 with hq | hd' | ⟨e, hd'⟩
    · exact .inl hq
    · rw [hd] at hd'
      cases hd'
    · rw [hd] at hd'
      cases hd'
  | giveUp => exact .inr (.inr ⟨_, rfl⟩)
  | _ => exact hc.2

theorem leavesIdle_iff {c : AsyncPoolable} :
    c.leavesIdle = true ↔ c.alive = false ∨ c.broken = true ∨ c.isCalm = true ∨
      c.stateMutated = true ∧ c.settled = .idle := by
  simp [leavesIdle, or_assoc]

/-- What `reset` achieves for a connection that it leaves idle. -/
def asyncHygiene : Hygiene asyncWire where
  clean c := c.alive = true → c.isCalm = true
  returnable := leavesIdle
  checked c := c.alive = true → c.isCalm = true ∨ c.stateMutated = true ∧ c.settled = .idle
  resetting c := c.alive = true → awaitsDiscard c
  clean_connects {c} h _ := by
    simp only [asyncWire, isNew, Bool.and_eq_true, decide_eq_true_eq, List.isEmpty_iff] at h
    obtain ⟨⟨⟨⟨⟨⟨hs, hq⟩, -⟩, -⟩, -⟩, -⟩, -⟩ := h
    simp [isCalm, calm, hs, hq]
  clean_drift h hc ha := (drift_cases h).isCalm (hc ((drift_cases h).alive ha))
  returnable_drift {c a c'} h hc := by
    have hd := drift_cases h
    rw [leavesIdle_iff, hd.broken] at *
    rcases hc with ha | hb | hcalm | ⟨hm, hs⟩
    · left
      by_contra hne
      rw [hd.alive (by simpa using hne)] at ha
      cases ha
    · exact .inr (.inl hb)
    · exact .inr (.inr (.inl (hd.isCalm hcalm)))
    · exact .inr (.inr (.inr ⟨hd.stateMutated hm, hd.settled_iff.2 hs⟩))
  checked_drift h hc ha :=
    (hc ((drift_cases h).alive ha)).imp (drift_cases h).isCalm
      (.imp (drift_cases h).stateMutated (drift_cases h).settled_iff.2)
  resetting_drift h hc ha := (drift_cases h).awaitsDiscard (hc ((drift_cases h).alive ha))
  checked_of_returnable {c} hc hp ha := by
    have hb : c.broken = false := by
      simp only [asyncWire, hasPendingData, Bool.or_eq_false_iff] at hp
      exact hp.2
    rw [leavesIdle_iff, ha, hb] at hc
    simpa using hc
  clean_of_start {c c'} h hc := by
    simp only [asyncWire, startReset] at h
    split_ifs at h with ha hm
    · cases h
    · cases h
      intro hal
      rcases hc hal with hcalm | ⟨hm', -⟩
      · exact hcalm
      · rw [hm'] at hm
        cases hm
  resetting_of_start {c c'} h hc := by
    simp only [asyncWire, startReset] at h
    split_ifs at h with ha hm
    cases h
    intro hal
    refine ⟨?_, .inr (.inl rfl)⟩
    rcases hc hal with hcalm | ⟨-, hs⟩
    · exact settled_of_isCalm hcalm
    · exact hs
  clean_of_poll {c c'} h hc := by
    simp only [asyncWire, pollReset] at h
    split at h
    · rename_i outcome hd
      cases outcome with
      | error e => cases h
      | ok r =>
        cases h
        intro ha
        obtain ⟨hs, hq | hd' | ⟨e, hd'⟩⟩ := hc ha
        · exact isCalm_of_settled hq hs
        · rw [hd] at hd'
          cases hd'
        · rw [hd] at hd'
          cases hd'
    · cases h

/-- **The session of a connection that is handed out is idle**, and remains so until the first
request of its holder: in a run in which guards are dropped only on connections that `reset` leaves
idle. -/
theorem checkout_idle {cfg : Config} {s₀ s s' : State AsyncPoolable}
    {l : Label AsyncPoolable WireEvent} {i : ℕ} {c : AsyncPoolable} (h₀ : s₀.Fresh cfg asyncWire)
    (h : ((system cfg asyncWire).guard fun s l =>
      returnsClean asyncHygiene s l = true).Reachable s₀ s)
    (hst : (system cfg asyncWire).step s l = some s') (hnew : s'.tasks[i]? = some (.held c))
    (hold : ∀ c', s.tasks[i]? ≠ some (.held c')) (ha : c.alive = true) :
    c.status = .idle ∧ c.isCalm = true := by
  have hcalm : c.isCalm = true := clean_of_held h₀ h hst hnew hold ha
  refine ⟨?_, hcalm⟩
  unfold isCalm calm at hcalm
  split at hcalm <;> simp_all

/-- A connection as `connect` returns it. -/
def AsyncPoolable.fresh : AsyncPoolable := ⟨.idle, [], [], .none, false, false, true⟩

/-- `BEGIN`; inside a transaction block it is only a warning, or an error. -/
def beginRequest : Request
  | .idle => .active
  | status => status

/-- A request that ends the transaction block. -/
def rollbackRequest : Request := fun _ => .idle

/-- A transaction is rolled back by a request that is still queued when the guard is dropped. -/
theorem checkout_idle_reset :
    ∃ s s' c, ((system ⟨1, 1, true, true⟩ asyncWire).guard fun s l =>
        returnsClean asyncHygiene s l = true).Reachable (.new [.fresh]) s ∧
      (system ⟨1, 1, true, true⟩ asyncWire).step s (.task 2 .run) = some s' ∧
      s'.tasks[2]? = some (.held c) ∧ c.alive = true ∧ c.status = .idle ∧ c.isCalm = true := by
  obtain ⟨s, h, hs⟩ := LTS.reachable_of_test
    (A := (system ⟨1, 1, true, true⟩ asyncWire).guard fun s l =>
      returnsClean asyncHygiene s l = true)
    (s := .new [.fresh])
    (r := .get :: runs 1 4 ++
      [.task 1 (.use .markStateMutated), .task 1 (.use (.submit beginRequest)),
        .task 1 (.drift .serve), .task 1 (.drift .read),
        .task 1 (.use (.submit rollbackRequest)), .task 1 .drop] ++ runs 1 3 ++
      [.task 1 (.drift .serve), .task 1 (.drift .serve), .task 1 (.drift .read),
        .task 1 (.drift .read)] ++ runs 1 4 ++ .get :: runs 2 3)
    (p := fun s => s.tasks[2]?.any fun t => t.handsOut.any fun c => c.alive) (by decide +kernel)
  obtain ⟨s', c, hst, hnew, hold, ha⟩ := held_of_test hs
  obtain ⟨hidle, hcalm⟩ :=
    checkout_idle ⟨[.fresh], rfl, by decide, by decide⟩ h hst hnew hold ha
  exact ⟨s, s', c, h, hst, hnew, ha, hidle, hcalm⟩

/-- A client is dropped inside a transaction: after `simple_query("BEGIN")`, when `DISCARD ALL` is
rejected and counts as carried out; and with a `BEGIN` on its way that `execute` has sent, when the
connection is not reset at all.  The next holder gets the transaction, failed or open. -/
theorem checkout_in_transaction :
    (∃ s s' c, (system ⟨1, 1, true, true⟩ asyncWire).Reachable (.new [.fresh]) s ∧
      (system ⟨1, 1, true, true⟩ asyncWire).step s (.task 2 .run) = some s' ∧
      s'.tasks[2]? = some (.held c) ∧ (∀ c', s.tasks[2]? ≠ some (.held c')) ∧
      c.alive = true ∧ c.status = .failed) ∧
    ∃ s s' c, (system ⟨1, 1, true, true⟩ asyncWire).Reachable (.new [.fresh]) s ∧
      (system ⟨1, 1, true, true⟩ asyncWire).step s (.task 2 .run) = some s' ∧
      s'.tasks[2]? = some (.held c) ∧ (∀ c', s.tasks[2]? ≠ some (.held c')) ∧
      c.alive = true ∧ c.status = .active := by
  constructor
  · obtain ⟨s, h, hs⟩ := LTS.reachable_of_test (A := system ⟨1, 1, true, true⟩ asyncWire)
      (s := .new [.fresh])
      (r := .get :: runs 1 4 ++
        [.task 1 (.use .markStateMutated), .task 1 (.use (.submit beginRequest)),
          .task 1 (.drift .serve), .task 1 (.drift .read), .task 1 .drop] ++ runs 1 3 ++
        [.task 1 (.drift .serve), .task 1 (.drift .read)] ++ runs 1 4 ++ .get :: runs 2 3)
      (p := fun s => s.tasks[2]?.any fun t => t.handsOut.any fun c =>
        decide (c.alive = true ∧ c.status = .failed)) (by decide +kernel)
    obtain ⟨s', c, hst, hnew, hold, hc⟩ := held_of_test hs
    exact ⟨s, s', c, h, hst, hnew, hold, of_decide_eq_true hc⟩
  · obtain ⟨s, h, hs⟩ := LTS.reachable_of_test (A := system ⟨1, 1, true, true⟩ asyncWire)
      (s := .new [.fresh])
      (r := .get :: runs 1 4 ++ [.task 1 (.use (.submit beginRequest)), .task 1 .drop] ++
        runs 1 6 ++ .drift 0 .serve :: .get :: runs 2 3)
      (p := fun s => s.tasks[2]?.any fun t => t.handsOut.any fun c =>
        decide (c.alive = true ∧ c.status = .active)) (by decide +kernel)
    obtain ⟨s', c, hst, hnew, hold, hc⟩ := held_of_test hs
    exact ⟨s, s', c, h, hst, hnew, hold, of_decide_eq_true hc⟩

end Resolute.Pool
