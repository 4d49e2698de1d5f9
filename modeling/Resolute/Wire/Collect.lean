import Resolute.Wire.Types

/-!
# Collecting a response

The reader task takes one pending entry at a time and feeds the messages it reads to the entry's
*collector* until the collector has a result.  Each collector of `async_conn.rs` is a loop around
`read_msg`; here it is the body of that loop, `Collect.feed`, a function from where the loop stands
(`Collect`) and the result of one `read_msg` to where it stands next.  `Collect.run` is a whole
collection over a list of read results.

The messages up to the next `ReadyForQuery` are one response group (`responseGroup`), and a
collector that goes on to its end consumes just this.  `drain_until_ready` reports success for every
group that is complete (`drain_run`); `collect_rows` reports what is in the group, or the first
`ErrorResponse` of it (`rows_run`).  `Consumes` and `Yields` say the same of the collections during
which the row receiver may be dropped at any time.
-/

namespace Resolute

/-- How to collect the response messages of a request. -/
inductive ResponseCollector where
  /-- Collect rows until `ReadyForQuery`. -/
  | rows
  /-- Drain until `ReadyForQuery`. -/
  | drain
  /-- Send the header, then each row, through the channels of the requester. -/
  | stream
  /-- COPY IN; the data was sent with the request. -/
  | copyIn
  /-- COPY OUT. -/
  | copyOut
  deriving DecidableEq, Repr

/-- The response to a request. -/
inductive PipelineResponse where
  | rows (fields : List FieldDescription) (rows : List RawRow) (commandTag : String)
  | done
  deriving DecidableEq, Repr

/-- The outcome that is sent to the requester. -/
abbrev Outcome := Except PgWireError PipelineResponse

/-- What a collector does besides producing its result. -/
inductive Emit where
  /-- `notification_tx.try_send`. -/
  | notify (pid : Int32) (channel payload : String)
  /-- `note_rfq_status` saw a status other than idle. -/
  | stateMutated
  /-- `header_tx.send`. -/
  | header (h : Except PgWireError (List FieldDescription))
  /-- `row_tx.send`. -/
  | row (r : Except PgWireError RawRow)
  deriving DecidableEq, Repr

/-- The effect goes through the row channel of the requester. -/
def Emit.isRow : Emit → Bool
  | row _ => true
  | _ => false

/-- Where the loop of a collector stands. -/
inductive Collect where
  | rows (fields : List FieldDescription) (rows : List RawRow) (commandTag : String)
  | drain
  /-- `header` : the header channel has not been used yet; `rowRx` : the row receiver is alive. -/
  | stream (header : Bool) (rowRx : Bool) (fields : List FieldDescription)
  | copyIn (commandTag : String)
  | copyOut (chunks : List RawRow) (commandTag : String)
  /-- `drain_until_ready(..).await?; return Err(Pg(fields))`. -/
  | drainErr (fields : PgError)
  /-- `let _ = drain_until_ready(..).await; return` of `stream_rows`. -/
  | streamDrain
  deriving DecidableEq, Repr

/-- What one pass of a collector's loop leads to: the loop goes on, or returns. -/
inductive Fed where
  | more (effects : List Emit) (next : Collect)
  | done (effects : List Emit) (result : Outcome)
  deriving DecidableEq, Repr

namespace Collect

/-- The collector at the start of its loop. -/
def init : ResponseCollector → Collect
  | .rows => .rows [] [] ""
  | .drain => .drain
  | .stream => .stream true true []
  | .copyIn => .copyIn ""
  | .copyOut => .copyOut [] ""

/-- A status other than idle flags the connection as state-mutated. -/
def noteRfqStatus (status : UInt8) : List Emit :=
  if status ≠ byte 'I' then [.stateMutated] else []

/-- `drain_until_ready`, with `next` for its loop and `ret` for what its caller returns. -/
def drainUntilReady (next : Collect) (ret : Outcome) : BackendMsg → Fed
  | .readyForQuery status => .done (noteRfqStatus status) ret
  | _ => .more [] next

/-- `collect_rows`. -/
def collectRows (fields : List FieldDescription) (rows : List RawRow) (commandTag : String) :
    BackendMsg → Fed
  | .dataRow row => .more [] (.rows fields (rows ++ [row]) commandTag)
  | .rowDescription f => .more [] (.rows f rows commandTag)
  | .commandComplete tag => .more [] (.rows fields rows tag)
  | .readyForQuery status => .done (noteRfqStatus status) (.ok (.rows fields rows commandTag))
  | .errorResponse fields => .more [] (.drainErr fields)
  | .notificationResponse pid channel payload =>
    .more [.notify pid channel payload] (.rows fields rows commandTag)
  | _ => .more [] (.rows fields rows commandTag)

/-- The header is sent once, by whichever arm comes first. -/
def sendHeader (header : Bool) (h : Except PgWireError (List FieldDescription)) : List Emit :=
  if header then [.header h] else []

/-- `stream_rows`. -/
def streamRows (header rowRx : Bool) (fields : List FieldDescription) : BackendMsg → Fed
  | .rowDescription f => .more [] (.stream header rowRx f)
  | .dataRow row =>
    if rowRx then
      .more (sendHeader header (.ok fields) ++ [.row (.ok row)]) (.stream false rowRx fields)
    else .more (sendHeader header (.ok fields)) .streamDrain
  | .commandComplete _ =>
    .more (sendHeader header (.ok fields)) (.stream false rowRx (if header then [] else fields))
  | .readyForQuery status =>
    .done (noteRfqStatus status ++ sendHeader header (.ok fields)) (.ok .done)
  | .errorResponse err =>
    .more [if header then .header (.error (.pg err)) else .row (.error (.pg err))] .streamDrain
  | .notificationResponse pid channel payload =>
    .more [.notify pid channel payload] (.stream header rowRx fields)
  | _ => .more [] (.stream header rowRx fields)

/-- `collect_copy_in_response`. -/
def collectCopyInResponse (commandTag : String) : BackendMsg → Fed
  | .commandComplete tag => .more [] (.copyIn tag)
  | .readyForQuery status => .done (noteRfqStatus status) (.ok (.rows [] [] commandTag))
  | .errorResponse fields => .more [] (.drainErr fields)
  | _ => .more [] (.copyIn commandTag)

/-- `collect_copy_out`. -/
def collectCopyOut (chunks : List RawRow) (commandTag : String) : BackendMsg → Fed
  | .copyData data => .more [] (.copyOut (chunks ++ [RawRow.fromFullBody data]) commandTag)
  | .commandComplete tag => .more [] (.copyOut chunks tag)
  | .readyForQuery status => .done (noteRfqStatus status) (.ok (.rows [] chunks commandTag))
  | .errorResponse fields => .more [] (.drainErr fields)
  | _ => .more [] (.copyOut chunks commandTag)

/-- What a collector returns when `read_msg` fails: every one propagates the error with `?`,
except `stream_rows`, which hands it to the requester's channels. -/
def feedError (e : PgWireError) : Collect → Fed
  | .stream header _ _ =>
    .done [if header then .header (.error e) else .row (.error e)] (.ok .done)
  | .streamDrain => .done [] (.ok .done)
  | _ => .done [] (.error e)

/-- One pass of the loop on a message. -/
def feedMsg : Collect → BackendMsg → Fed
  | .rows fields rs tag => collectRows fields rs tag
  | .drain => drainUntilReady .drain (.ok .done)
  | .stream header rowRx fields => streamRows header rowRx fields
  | .copyIn tag => collectCopyInResponse tag
  | .copyOut chunks tag => collectCopyOut chunks tag
  | .drainErr fields => drainUntilReady (.drainErr fields) (.error (.pg fields))
  | .streamDrain => drainUntilReady .streamDrain (.ok .done)

/-- One pass of the loop. -/
def feed (c : Collect) : ReadResult → Fed
  | .ok m => c.feedMsg m
  | .error e => c.feedError e

/-- The row receiver was dropped: later sends on it fail. -/
def dropRx : Collect → Collect
  | .stream header _ fields => .stream header false fields
  | c => c

/-- A whole collection: the result and the read results left over, `none` while the loop still
waits for a message. -/
def run : Collect → List ReadResult → Option (Outcome × List ReadResult)
  | _, [] => none
  | c, r :: rs =>
    match c.feed r with
    | .done _ res => some (res, rs)
    | .more _ c' => run c' rs

/-- What `submit` returns for a collection; a request that is never answered times out. -/
def await : Option (Outcome × List ReadResult) → Outcome
  | some (res, _) => res
  | none => .error .connectionClosed

/-- The collector `c` consumes `msgs` with the given effects and then stands at `c'`. -/
inductive Consumes (c : Collect) : List BackendMsg → List Emit → Collect → Prop
  | refl : Consumes c [] [] c
  | msg {msgs es es' c' c'' m} (h : Consumes c msgs es c') (hm : c'.feedMsg m = .more es' c'') :
    Consumes c (msgs ++ [m]) (es ++ es') c''
  | dropRx {msgs es c'} (h : Consumes c msgs es c') : Consumes c msgs es c'.dropRx

/-- The collector `c` returns `res` after `msgs`, by the last of them or by an error of
`read_msg`. -/
inductive Yields (c : Collect) : List BackendMsg → List Emit → Outcome → Prop
  | ready {msgs es es' c' m res} (h : Consumes c msgs es c') (hm : c'.feedMsg m = .done es' res) :
    Yields c (msgs ++ [m]) (es ++ es') res
  | broken {msgs es es' c' e res} (h : Consumes c msgs es c')
        (he : c'.feedError e = .done es' res) :
    Yields c msgs (es ++ es') res

/-- A collector returns on `ReadyForQuery`. -/
theorem feedMsg_of_isReady (c : Collect) {m : BackendMsg} (hm : m.isReady = true) :
    ∃ es res, c.feedMsg m = .done es res := by
  cases m <;> simp only [BackendMsg.isReady, Bool.false_eq_true] at hm
  cases c <;> exact ⟨_, _, rfl⟩

/-- A collector goes on after every other message, and sends at most one row. -/
theorem feedMsg_of_not_isReady (c : Collect) {m : BackendMsg} (hm : m.isReady = false) :
    ∃ es c', c.feedMsg m = .more es c' ∧ es.countP Emit.isRow ≤ 1 := by
  cases c with
  | stream header rowRx fields =>
    cases m <;> cases hm <;> cases header <;> cases rowRx <;> refine ⟨_, _, rfl, ?_⟩ <;>
      simp [sendHeader, Emit.isRow]
  | _ => cases m <;> cases hm <;> refine ⟨_, _, rfl, ?_⟩ <;> simp [Emit.isRow]

theorem not_isReady_of_more (c : Collect) {m : BackendMsg} {es : List Emit} {c' : Collect}
    (h : c.feedMsg m = .more es c') : m.isReady = false := by
  by_contra hm
  obtain ⟨es', res, hdone⟩ := c.feedMsg_of_isReady (by simpa using hm)
  rw [h] at hdone
  cases hdone

theorem isReady_of_done (c : Collect) {m : BackendMsg} {es : List Emit} {res : Outcome}
    (h : c.feedMsg m = .done es res) : m.isReady = true := by
  by_contra hm
  obtain ⟨es', c', hmore, -⟩ := c.feedMsg_of_not_isReady (by simpa using hm)
  rw [h] at hmore
  cases hmore

/-- A collector returns when `read_msg` fails. -/
theorem feedError_done (c : Collect) (e : PgWireError) :
    ∃ es res, c.feedError e = .done es res ∧ es.countP Emit.isRow ≤ 1 := by
  cases c with
  | stream header rowRx fields => cases header <;> exact ⟨_, _, rfl, by simp [Emit.isRow]⟩
  | _ => exact ⟨_, _, rfl, by simp⟩

end Collect

/-- The next response group: its messages before `ReadyForQuery`, and the input after it.  An error
of `read_msg` breaks the group off; `none` while the group is not over. -/
def responseGroup :
    List ReadResult → Option (Except PgWireError (List BackendMsg) × List ReadResult)
  | [] => none
  | .error e :: rs => some (.error e, rs)
  | .ok m :: rs =>
    if m.isReady then some (.ok [], rs)
    else (responseGroup rs).map fun (group, rest) => (group.map (m :: ·), rest)

/-- No message of the group is an `ErrorResponse`. -/
def errorFree (msgs : List BackendMsg) : Bool := msgs.all fun m => !m.isError

/-- The group of a `COMMIT` that was carried out: no error, and not answered by a rollback. -/
def committed (msgs : List BackendMsg) : Bool :=
  errorFree msgs && msgs.contains (.commandComplete "COMMIT")

/-- What `collect_rows` makes of the messages of a group. -/
def rowsResult (fields : List FieldDescription) (rows : List RawRow) (commandTag : String) :
    List BackendMsg → Outcome
  | [] => .ok (.rows fields rows commandTag)
  | .dataRow row :: ms => rowsResult fields (rows ++ [row]) commandTag ms
  | .rowDescription f :: ms => rowsResult f rows commandTag ms
  | .commandComplete tag :: ms => rowsResult fields rows tag ms
  | .errorResponse e :: _ => .error (.pg e)
  | _ :: ms => rowsResult fields rows commandTag ms

/-- `collect_rows` reports success exactly for the groups without an `ErrorResponse`. -/
theorem rowsResult_isOk (fields : List FieldDescription) (rows : List RawRow) (commandTag : String)
    (msgs : List BackendMsg) :
    (∃ r, rowsResult fields rows commandTag msgs = .ok r) ↔ errorFree msgs = true := by
  induction msgs generalizing fields rows commandTag with
  | nil => simp [rowsResult, errorFree]
  | cons m ms ih =>
    cases m <;> simp_all [rowsResult, errorFree, BackendMsg.isError]

namespace Collect

theorem responseGroup_cons {m : BackendMsg} (hm : m.isReady = false) (rs : List ReadResult) :
    responseGroup (.ok m :: rs) =
      (responseGroup rs).map fun (group, rest) => (group.map (m :: ·), rest) := by
  simp [responseGroup, hm]

/-- `drain_until_ready` waits for the end of the group, and returns what its caller wants. -/
theorem drainUntilReady_run {c : Collect} {ret : Outcome}
    (hmsg : ∀ m, c.feedMsg m = drainUntilReady c ret m)
    (herr : ∀ e, c.feedError e = .done [] (.error e)) (rs : List ReadResult) :
    c.run rs = (responseGroup rs).map fun (group, rest) => (group.bind fun _ => ret, rest) := by
  induction rs with
  | nil => rfl
  | cons r rs ih =>
    rcases r with e | m
    · simp [run, feed, herr, responseGroup, Except.bind]
    · cases hm : m.isReady
      · have hfeed : c.feedMsg m = .more [] c := by
          cases m <;> first | exact hmsg _ | cases hm
        simp only [run, feed, hfeed, ih, responseGroup_cons hm, Option.map_map]
        congr 1
        funext ⟨g, rest⟩
        cases g <;> rfl
      · cases m <;> simp [BackendMsg.isReady] at hm
        simp [run, feed, hmsg, drainUntilReady, responseGroup, BackendMsg.isReady, Except.bind]

theorem drain_run (rs : List ReadResult) :
    drain.run rs = (responseGroup rs).map fun (group, rest) =>
      (group.bind fun _ => .ok .done, rest) :=
  drainUntilReady_run (fun _ => rfl) (fun _ => rfl) rs

theorem drainErr_run (fields : PgError) (rs : List ReadResult) :
    (drainErr fields).run rs =
      (responseGroup rs).map fun (group, rest) => (group.bind fun _ => .error (.pg fields), rest) :=
  drainUntilReady_run (fun _ => rfl) (fun _ => rfl) rs

theorem rows_run (fields : List FieldDescription) (rows : List RawRow) (commandTag : String)
    (rs : List ReadResult) :
    (Collect.rows fields rows commandTag).run rs =
      (responseGroup rs).map fun (group, rest) =>
        (group.bind (rowsResult fields rows commandTag), rest) := by
  induction rs generalizing fields rows commandTag with
  | nil => rfl
  | cons r rs ih =>
    rcases r with e | m
    · rfl
    · cases hm : m.isReady
      · rw [responseGroup_cons hm, Option.map_map]
        cases m <;> cases hm
        all_goals
          simp only [run, feed, feedMsg, collectRows, ih, drainErr_run]
          congr 1
          funext ⟨g, rest⟩
          cases g <;> rfl
      · cases m <;> simp [BackendMsg.isReady] at hm
        rfl

end Collect

end Resolute
