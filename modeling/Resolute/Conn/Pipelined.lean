import Resolute.Conn.Cache
import Resolute.Wire.Collect

/-!
# Pipelined transactions

`exec_transaction` sends the setup, the query and a `COMMIT` as three requests and awaits the three
response groups afterwards.  The first and the last are collected by `drain_until_ready`, so what
decides its result is the group of the query, and whether the groups are complete
(`Attempt.outcome`).

A `Dialogue` is a connection as one caller sees it, whose replies are given in advance.  The call is
sound if `Ok` means that setup, query and `COMMIT` were all carried out; on which replies it is says
`execTransaction_sound_iff`.
-/

namespace Resolute

/-- The next group of the input; at the end of the input the connection is closed. -/
def nextGroup (input : List ReadResult) :
    Except PgWireError (List BackendMsg) × List ReadResult :=
  (responseGroup input).getD (.error .connectionClosed, [])

/-- A connection with one caller: its statement cache, the input that is still to come, and what
was sent, oldest first. -/
structure Dialogue where
  stmts : Stmts
  input : List ReadResult
  sent : List (List FrontendMsg)

namespace Dialogue

/-- Send a request and collect its response. -/
def submit (messages : List FrontendMsg) (collector : ResponseCollector) (d : Dialogue) :
    Outcome × Dialogue :=
  let (outcome, rest) :=
    ((Collect.init collector).run d.input).getD (.error .connectionClosed, [])
  (outcome, { d with input := rest, sent := d.sent ++ [messages] })

/-- `cache_statement`; the `Close` of an evicted statement is sent and its response dropped. -/
def cacheStatement (sql : String) (name : Bytes) (d : Dialogue) : Dialogue :=
  match d.stmts.cacheStatement sql name with
  | (stmts, none) => { d with stmts := stmts }
  | (stmts, some old) => (submit (Stmts.closeMessages old) .drain { d with stmts := stmts }).2

end Dialogue

/-- The rows of a response. -/
def PipelineResponse.toRows : PipelineResponse → List RawRow
  | rows _ rs _ => rs
  | done => []

/-- The messages of the query in a pipelined transaction. -/
def dataMessages (querySql : String) (params : List (Option Bytes)) (paramOids : List Oid)
    (stmtName : Bytes) (needsParse : Bool) : List FrontendMsg :=
  (if needsParse then [.parse stmtName (asBytes querySql) paramOids] else []) ++
    [.bind [] stmtName (List.replicate params.length .text) params [.text], .execute [] 0, .sync]

/-- `pipeline_transaction`. -/
def pipelineTransaction (setupSql querySql : String) (params : List (Option Bytes))
    (paramOids : List Oid) (stmtName : Bytes) (needsParse : Bool) (d : Dialogue) :
    Except PgWireError (List RawRow) × Dialogue :=
  let (setup, d) := d.submit [.query (asBytes setupSql)] .drain
  let (data, d) := d.submit (dataMessages querySql params paramOids stmtName needsParse) .rows
  let (commit, d) := d.submit [.query (asBytes "COMMIT")] .drain
  (do
    let _ ← setup
    let dataResp ← data
    let _ ← commit
    pure dataResp.toRows, d)

/-- The error that makes the `exec_*` calls prepare their statement again. -/
def PgWireError.isStale : PgWireError → Bool
  | .pg e => isStaleStatementError e
  | _ => false

/-- `exec_transaction`. -/
def execTransaction (setupSql querySql : String) (params : List (Option Bytes))
    (paramOids : List Oid) (d : Dialogue) : Except PgWireError (List RawRow) × Dialogue :=
  let ((stmtName, needsParse), stmts) := d.stmts.lookupOrAlloc querySql paramOids
  match pipelineTransaction setupSql querySql params paramOids stmtName needsParse
      { d with stmts := stmts } with
  | (.ok rows, d) => (.ok rows, if needsParse then d.cacheStatement querySql stmtName else d)
  | (.error e, d) =>
    if !needsParse && e.isStale then
      let ((stmtName, _), stmts) :=
        (d.stmts.invalidateStatement querySql).lookupOrAlloc querySql paramOids
      match pipelineTransaction setupSql querySql params paramOids stmtName true
          { d with stmts := stmts } with
      | (.ok rows, d) => (.ok rows, d.cacheStatement querySql stmtName)
      | (.error e, d) => (.error e, d)
    else (.error e, d)

/-- The groups an attempt waits for. -/
structure Attempt where
  setup : Except PgWireError (List BackendMsg)
  data : Except PgWireError (List BackendMsg)
  commit : Except PgWireError (List BackendMsg)

/-- The groups of an attempt that starts with the given input, and the input after them. -/
def attempt (input : List ReadResult) : Attempt × List ReadResult :=
  let (setup, input) := nextGroup input
  let (data, input) := nextGroup input
  let (commit, input) := nextGroup input
  (⟨setup, data, commit⟩, input)

namespace Attempt

/-- What `pipeline_transaction` makes of the groups: only that of the query is looked into. -/
def outcome (a : Attempt) : Except PgWireError (List RawRow) := do
  let _ ← a.setup
  let msgs ← a.data
  let dataResp ← rowsResult [] [] "" msgs
  let _ ← a.commit
  pure dataResp.toRows

/-- The setup was not refused, the query returned `rows`, and the transaction was committed. -/
def CarriedOut (a : Attempt) (rows : List RawRow) : Prop :=
  ∃ setup data commit resp, a = ⟨.ok setup, .ok data, .ok commit⟩ ∧ errorFree setup = true ∧
    errorFree data = true ∧ rowsResult [] [] "" data = .ok resp ∧ resp.toRows = rows ∧
    committed commit = true

/-- If the groups are complete and the query was not refused, neither was the setup, and the
transaction was committed. -/
def Consistent (a : Attempt) : Prop :=
  ∀ setup data commit, a = ⟨.ok setup, .ok data, .ok commit⟩ → errorFree data = true →
    errorFree setup = true ∧ committed commit = true

theorem outcome_eq_ok {a : Attempt} {rows : List RawRow} :
    a.outcome = .ok rows ↔ ∃ setup data commit resp, a = ⟨.ok setup, .ok data, .ok commit⟩ ∧
      rowsResult [] [] "" data = .ok resp ∧ resp.toRows = rows := by
  obtain ⟨_ | setup, _ | data, commit⟩ := a
  · simp [outcome, bind, Except.bind]
  · simp [outcome, bind, Except.bind]
  · simp [outcome, bind, Except.bind]
  · rcases hrows : rowsResult [] [] "" data with e | resp <;> rcases commit with e' | commit <;>
      simp [outcome, bind, Except.bind, hrows, pure, Except.pure]

theorem carriedOut_iff (a : Attempt) :
    (∀ rows, a.outcome = .ok rows → a.CarriedOut rows) ↔ a.Consistent := by
  constructor
  · rintro h setup data commit rfl hdata
    obtain ⟨resp, hresp⟩ := (rowsResult_isOk [] [] "" data).2 hdata
    obtain ⟨_, _, _, _, ha, hsetup, -, -, -, hcommit⟩ :=
      h resp.toRows (outcome_eq_ok.2 ⟨setup, data, commit, resp, rfl, hresp, rfl⟩)
    cases ha
    exact ⟨hsetup, hcommit⟩
  · intro h rows hrows
    obtain ⟨setup, data, commit, resp, rfl, hresp, hrows⟩ := outcome_eq_ok.1 hrows
    have hdata := (rowsResult_isOk [] [] "" data).1 ⟨resp, hresp⟩
    obtain ⟨hsetup, hcommit⟩ := h setup data commit rfl hdata
    exact ⟨setup, data, commit, resp, rfl, hsetup, hdata, hresp, hrows, hcommit⟩

end Attempt

section

variable (setupSql querySql : String) (params : List (Option Bytes)) (paramOids : List Oid)

/-- `exec_transaction` tries again when its statement was cached and the first attempt says that it
is stale. -/
def retries (d : Dialogue) : Bool :=
  (d.stmts.cache.get? querySql).isSome &&
    match (attempt d.input).1.outcome with
    | .ok _ => false
    | .error e => e.isStale

/-- The attempt that decides the result. -/
def lastAttempt (d : Dialogue) : Attempt :=
  if retries querySql d then (attempt (attempt d.input).2).1 else (attempt d.input).1

/-- `exec_transaction` is sound: it returns `Ok` only if the setup and the query of its last attempt
were not refused, and the transaction was committed. -/
def TransactionSound (d : Dialogue) : Prop :=
  ∀ rows d', execTransaction setupSql querySql params paramOids d = (.ok rows, d') →
    (lastAttempt querySql d).CarriedOut rows

theorem submit_drain (messages : List FrontendMsg) (d : Dialogue) :
    d.submit messages .drain = ((nextGroup d.input).1.bind fun _ => .ok .done,
      { d with input := (nextGroup d.input).2, sent := d.sent ++ [messages] }) := by
  simp only [Dialogue.submit, Collect.init, Collect.drain_run, nextGroup]
  rcases responseGroup d.input with _ | ⟨_ | _, _⟩ <;> rfl

theorem submit_rows (messages : List FrontendMsg) (d : Dialogue) :
    d.submit messages .rows = ((nextGroup d.input).1.bind (rowsResult [] [] ""),
      { d with input := (nextGroup d.input).2, sent := d.sent ++ [messages] }) := by
  simp only [Dialogue.submit, Collect.init, Collect.rows_run, nextGroup]
  rcases responseGroup d.input with _ | ⟨_ | _, _⟩ <;> rfl

/-- An attempt succeeds or fails by its groups alone, and leaves the statement cache alone. -/
theorem pipelineTransaction_eq (stmtName : Bytes) (needsParse : Bool) (d : Dialogue) :
    ∃ sent, pipelineTransaction setupSql querySql params paramOids stmtName needsParse d =
      ((attempt d.input).1.outcome, ⟨d.stmts, (attempt d.input).2, sent⟩) := by
  simp only [pipelineTransaction, submit_drain, submit_rows, attempt, Attempt.outcome]
  refine ⟨_, Prod.ext ?_ rfl⟩
  rcases nextGroup d.input with ⟨_ | setup, input⟩
  · rfl
  · rcases nextGroup input with ⟨_ | data, input⟩
    · rfl
    · rcases hrows : rowsResult [] [] "" data with _ | resp
      · simp [bind, Except.bind, hrows]
      · rcases nextGroup input with ⟨_ | commit, input⟩ <;> simp [bind, Except.bind, hrows]

theorem execTransaction_fst (d : Dialogue) :
    (execTransaction setupSql querySql params paramOids d).1 =
      (lastAttempt querySql d).outcome := by
  have hpipe := pipelineTransaction_eq setupSql querySql params paramOids
  obtain hget | ⟨entry, hget⟩ := Option.eq_none_or_eq_some (d.stmts.cache.get? querySql)
  · obtain ⟨sent, h⟩ := hpipe (asBytes (stmtName d.stmts.counter)) true
      { d with stmts := { d.stmts with counter := d.stmts.counter + 1 } }
    simp only [execTransaction, lastAttempt, retries, Stmts.lookupOrAlloc_miss hget, hget, h,
      Option.isSome_none, Bool.false_and, Bool.false_eq_true, ↓reduceIte, Bool.not_true]
    rcases (attempt d.input).1.outcome with e | rows <;> rfl
  · obtain ⟨sent, h⟩ := hpipe (asBytes entry.name) false d
    simp only [execTransaction, lastAttempt, retries, Stmts.lookupOrAlloc_hit hget, hget, h,
      Option.isSome_some, Bool.true_and, Bool.not_false]
    rcases hout : (attempt d.input).1.outcome with e | rows
    · cases he : e.isStale
      · simp [he, hout]
      · -- the entry has just been evicted, so the second attempt draws a name
        obtain ⟨sent', h'⟩ :=
          hpipe (asBytes (stmtName (d.stmts.invalidateStatement querySql).counter))
          true ⟨{ d.stmts.invalidateStatement querySql with
            counter := (d.stmts.invalidateStatement querySql).counter + 1 },
            (attempt d.input).2, sent⟩
        simp only [Stmts.lookupOrAlloc_miss (Stmts.get?_invalidateStatement _ _), h', he,
          ↓reduceIte]
        rcases (attempt (attempt d.input).2).1.outcome with e' | rows <;> rfl
    · simp [hout]

/-- **On which replies `exec_transaction` is sound.** -/
theorem execTransaction_sound_iff (d : Dialogue) :
    TransactionSound setupSql querySql params paramOids d ↔
      (lastAttempt querySql d).Consistent := by
  rw [← Attempt.carriedOut_iff, ← execTransaction_fst setupSql querySql params paramOids d]
  constructor
  · intro h rows hrows
    exact h rows _ (Prod.ext hrows rfl)
  · intro h rows d' hrows
    exact h rows (by rw [hrows])

end

/-- The setup is rejected, so there is no transaction: the query runs and commits by itself, under
the role of the connection, and `exec_transaction` returns `Ok`. -/
theorem rejected_setup_ok :
    ¬ TransactionSound "BEGIN; SET LOCAL ROLE alice'" "DELETE FROM items" [] []
      ⟨Stmts.new,
        [.ok (.errorResponse { code := "42601" }), .ok (.readyForQuery (byte 'I')),
          .ok .parseComplete, .ok .bindComplete, .ok (.commandComplete "DELETE 1"),
          .ok (.readyForQuery (byte 'I')),
          .ok (.commandComplete "COMMIT"), .ok (.readyForQuery (byte 'I'))],
        []⟩ := fun h => by
  obtain ⟨_, _, _, _, ha, hsetup, -⟩ := h [] _ rfl
  cases ha
  simp [errorFree, BackendMsg.isError] at hsetup

end Resolute
