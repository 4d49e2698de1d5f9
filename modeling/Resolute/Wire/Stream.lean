import Resolute.Wire.Read

/-!
# Streaming and collecting

`stream_rows` reads the same response groups as `collect_rows`, but hands the header and each row
to its consumer as they come.  The consumer may drop its receiver at any time; then the rest of the
group is drained.  `Collect.runDropping` is a collection during which this happens at some message,
or never, and then it is `Collect.run`.

Both collectors consume the same group, and the consumer is given what `collect_rows` returns
(`Delivers`), provided that the columns are described before the first row and before the end
(`describedFirst`), as the protocol has it.
-/

namespace Resolute

namespace BackendMsg

/-- The row of a `DataRow`. -/
def row? : BackendMsg → Option RawRow
  | dataRow row => some row
  | _ => none

/-- The fields of an `ErrorResponse`. -/
def error? : BackendMsg → Option PgError
  | errorResponse fields => some fields
  | _ => none

/-- The message describes the columns. -/
def isDescription : BackendMsg → Bool
  | rowDescription _ => true
  | _ => false

/-- The message is a row or the end of the statement: its columns are described already. -/
def isResult : BackendMsg → Bool
  | dataRow _ | commandComplete _ => true
  | _ => false

end BackendMsg

open BackendMsg

/-- The response to a statement describes the columns before it sends rows or completes. -/
def describedFirst : List BackendMsg → Bool
  | [] => true
  | m :: ms => (!m.isResult || ms.all fun m => !m.isDescription) && describedFirst ms

/-- The rows of a response, up to an error. -/
def rowsBeforeError (msgs : List BackendMsg) : List RawRow :=
  (msgs.takeWhile fun m => !m.isError).filterMap row?

/-- The error of a response. -/
def firstError (msgs : List BackendMsg) : Option PgError := msgs.findSome? error?

/-- The effect goes through the header channel of the requester. -/
def Emit.isHeader : Emit → Bool
  | header _ => true
  | _ => false

/-- What goes through the two channels of the consumer. -/
def delivered (es : List Emit) : List Emit := es.filter fun e => e.isHeader || e.isRow

/-- The consumer is given what `collect_rows` returns: the fields and the rows, or the error, once
and after the rows in front of it. -/
def Delivers (msgs : List BackendMsg) (es : List Emit) : Outcome → Prop
  | .ok (.rows fields rows _) =>
    delivered es = .header (.ok fields) :: rows.map fun row => .row (.ok row)
  | .ok .done => False
  | .error e =>
    delivered es = [.header (.error e)] ∧ rowsBeforeError msgs = [] ∨
      ∃ fields, delivered es = .header (.ok fields) ::
        (rowsBeforeError msgs).map (fun row => .row (.ok row)) ++ [.row (.error e)]

namespace Collect

/-- A whole collection; the receiver is dropped when `drop` messages are read, if ever.  What is
returned are the effects, the result and the messages left over. -/
def runDropping : Option ℕ → Collect → List BackendMsg →
    Option (List Emit × Outcome × List BackendMsg)
  | _, _, [] => none
  | drop, c, m :: ms =>
    match (if drop = some 0 then c.dropRx else c).feedMsg m with
    | .done es res => some (es, res, ms)
    | .more es c' => (runDropping (drop.map (· - 1)) c' ms).map fun (es', r) => (es ++ es', r)

/-- Without a dropped receiver this is the collection of the reader task. -/
theorem runDropping_eq_run (c : Collect) (msgs : List BackendMsg) :
    c.run (msgs.map .ok) =
      (runDropping none c msgs).map fun (_, res, rest) => (res, rest.map .ok) := by
  induction msgs generalizing c with
  | nil => rfl
  | cons m ms ih =>
    rw [List.map_cons, run, runDropping, if_neg (by simp)]
    dsimp only [feed]
    cases c.feedMsg m with
    | done es res => rfl
    | more es c' =>
      dsimp only
      rw [ih, Option.map_map]
      rfl

/-! ### The group is consumed up to its end -/

/-- A message before the end of the group is one turn of the loop. -/
theorem runDropping_cons {drop : Option ℕ} {c : Collect} {m : BackendMsg} {es : List Emit}
    {c' : Collect} (ms : List BackendMsg)
    (h : (if drop = some 0 then c.dropRx else c).feedMsg m = .more es c') :
    runDropping drop c (m :: ms) =
      (runDropping (drop.map (· - 1)) c' ms).map fun (es', r) => (es ++ es', r) := by
  rw [runDropping, h]

theorem runDropping_none_cons {c : Collect} {m : BackendMsg} {es : List Emit} {c' : Collect}
    (ms : List BackendMsg) (h : c.feedMsg m = .more es c') :
    runDropping none c (m :: ms) = (runDropping none c' ms).map fun (es', r) => (es ++ es', r) := by
  rw [runDropping, if_neg (by simp), h]
  rfl

theorem runDropping_streamDrain (drop : Option ℕ) {msgs : List BackendMsg}
    (hmsgs : ∀ m ∈ msgs, m.isReady = false) (status : UInt8) (rest : List BackendMsg) :
    runDropping drop .streamDrain (msgs ++ .readyForQuery status :: rest) =
      some (noteRfqStatus status, .ok .done, rest) := by
  induction msgs generalizing drop with
  | nil => simp [runDropping, dropRx, feedMsg, drainUntilReady]
  | cons m ms ih =>
    have hfeed : (if drop = some 0 then dropRx .streamDrain else .streamDrain).feedMsg m =
        .more [] .streamDrain := by
      have hm := hmsgs m (by simp)
      rw [show dropRx .streamDrain = .streamDrain from rfl, ite_self]
      cases m <;> first | rfl | cases hm
    rw [List.cons_append, runDropping_cons _ hfeed, ih _ fun m hm => hmsgs m (by simp [hm])]
    rfl

@[simp] theorem countP_isHeader_noteRfqStatus (status : UInt8) :
    (noteRfqStatus status).countP Emit.isHeader = 0 := by
  rw [noteRfqStatus]
  split <;> rfl

@[simp] theorem countP_isHeader_sendHeader (header : Bool)
    (h : Except PgWireError (List FieldDescription)) :
    (sendHeader header h).countP Emit.isHeader = if header then 1 else 0 := by
  cases header <;> rfl

theorem dropRx_stream (drop : Option ℕ) (header rowRx : Bool) (fields : List FieldDescription) :
    (if drop = some 0 then (Collect.stream header rowRx fields).dropRx
      else .stream header rowRx fields) =
      .stream header (if drop = some 0 then false else rowRx) fields := by
  split <;> rfl

/-- One turn of `stream_rows` before the end of the group: it goes on streaming or starts to drain,
and the header that is still to be sent is sent at most once. -/
theorem streamRows_more (header rowRx : Bool) (fields : List FieldDescription) {m : BackendMsg}
    (hm : m.isReady = false) :
    ∃ es c', (Collect.stream header rowRx fields).feedMsg m = .more es c' ∧
      ((∃ header' fields', c' = .stream header' rowRx fields' ∧
          es.countP Emit.isHeader + (if header' then 1 else 0) = if header then 1 else 0) ∨
        c' = .streamDrain ∧ es.countP Emit.isHeader = if header then 1 else 0) := by
  cases m with
  | readyForQuery status => cases hm
  | dataRow row =>
    cases rowRx
    · exact ⟨_, _, rfl, .inr ⟨rfl, by simp⟩⟩
    · exact ⟨_, _, rfl, .inl ⟨_, _, rfl, by simp [Emit.isHeader]⟩⟩
  | commandComplete tag => exact ⟨_, _, rfl, .inl ⟨_, _, rfl, by simp⟩⟩
  | errorResponse e => exact ⟨_, _, rfl, .inr ⟨rfl, by cases header <;> simp [Emit.isHeader]⟩⟩
  | _ => exact ⟨_, _, rfl, .inl ⟨_, _, rfl, by simp [Emit.isHeader]⟩⟩

/-- `stream_rows` takes its group up to the `ReadyForQuery` and no further, wherever the receiver is
dropped, and uses the header channel once. -/
theorem runDropping_stream (drop : Option ℕ) (header rowRx : Bool) (fields : List FieldDescription)
    {msgs : List BackendMsg} (hmsgs : ∀ m ∈ msgs, m.isReady = false) (status : UInt8)
    (rest : List BackendMsg) :
    ∃ es, runDropping drop (.stream header rowRx fields)
        (msgs ++ .readyForQuery status :: rest) = some (es, .ok .done, rest) ∧
      es.countP Emit.isHeader = if header then 1 else 0 := by
  induction msgs generalizing drop header rowRx fields with
  | nil =>
    refine ⟨noteRfqStatus status ++ sendHeader header (.ok fields), ?_, by simp⟩
    rw [List.nil_append, runDropping, dropRx_stream]
    rfl
  | cons m ms ih =>
    have hms : ∀ m ∈ ms, m.isReady = false := fun m hm => hmsgs m (by simp [hm])
    obtain ⟨es, c', hfeed, ⟨header', fields', rfl, hcount⟩ | ⟨rfl, hcount⟩⟩ :=
      streamRows_more header (if drop = some 0 then false else rowRx) fields (hmsgs m (by simp))
    · obtain ⟨es', hrun, hcount'⟩ := ih (drop.map (· - 1)) header' _ fields' hms
      refine ⟨es ++ es', ?_, by rw [List.countP_append, hcount', hcount]⟩
      rw [List.cons_append, runDropping_cons _ (by rwa [dropRx_stream]), hrun]
      rfl
    · refine ⟨es ++ noteRfqStatus status, ?_, by simpa using hcount⟩
      rw [List.cons_append, runDropping_cons _ (by rwa [dropRx_stream]),
        runDropping_streamDrain _ hms]
      rfl

end Collect

/-! ### What the consumer is given -/

@[simp] theorem delivered_append (es es' : List Emit) :
    delivered (es ++ es') = delivered es ++ delivered es' :=
  List.filter_append ..

@[simp] theorem delivered_noteRfqStatus (status : UInt8) :
    delivered (Collect.noteRfqStatus status) = [] := by
  rw [Collect.noteRfqStatus]
  split <;> rfl

/-- What follows the header: the rows, and the error behind them. -/
def streamedRows (msgs : List BackendMsg) : List Emit :=
  (rowsBeforeError msgs).map (fun row => .row (.ok row)) ++
    (firstError msgs).toList.map fun e => .row (.error (.pg e))

theorem rowsBeforeError_cons {m : BackendMsg} (hm : m.isError = false) (ms : List BackendMsg) :
    rowsBeforeError (m :: ms) = m.row?.toList ++ rowsBeforeError ms := by
  rw [rowsBeforeError, rowsBeforeError, List.takeWhile_cons_of_pos (by simp [hm]),
    List.filterMap_cons]
  cases m.row? <;> rfl

theorem rowsBeforeError_error (e : PgError) (ms : List BackendMsg) :
    rowsBeforeError (.errorResponse e :: ms) = [] := by
  simp [rowsBeforeError, BackendMsg.isError]

theorem firstError_cons {m : BackendMsg} (hm : m.isError = false) (ms : List BackendMsg) :
    firstError (m :: ms) = firstError ms := by
  cases m <;> first | rfl | cases hm

/-- With the columns described, `collect_rows` returns the first error, or all rows behind those it
has. -/
theorem rowsResult_eq (fields : List FieldDescription) (rows : List RawRow) (commandTag : String)
    {msgs : List BackendMsg} (hmsgs : (msgs.all fun m => !m.isDescription) = true) :
    ∃ tag, rowsResult fields rows commandTag msgs =
      match firstError msgs with
      | some e => .error (.pg e)
      | none => .ok (.rows fields (rows ++ rowsBeforeError msgs) tag) := by
  induction msgs generalizing rows commandTag with
  | nil => exact ⟨commandTag, by simp [rowsResult, firstError, rowsBeforeError]⟩
  | cons m ms ih =>
    rw [List.all_cons, Bool.and_eq_true] at hmsgs
    cases m with
    | rowDescription f => cases hmsgs.1
    | errorResponse e => exact ⟨commandTag, rfl⟩
    | dataRow row =>
      obtain ⟨tag, h⟩ := ih (rows ++ [row]) commandTag hmsgs.2
      refine ⟨tag, ?_⟩
      rw [rowsResult, h, firstError_cons rfl, rowsBeforeError_cons rfl, List.append_assoc]
      rfl
    | commandComplete tag => exact ih rows tag hmsgs.2
    | _ => exact ih rows commandTag hmsgs.2

/-- What stands behind the header is what `collect_rows` returns with it. -/
theorem delivers_of_streamedRows {fields : List FieldDescription} (row : List RawRow)
    {m : BackendMsg} {ms : List BackendMsg} {es : List Emit} (commandTag : String)
    (hm : m.isError = false) (hrow : m.row?.toList = row)
    (hms : (ms.all fun m => !m.isDescription) = true)
    (hes : delivered es = .header (.ok fields) :: row.map (fun row => .row (.ok row)) ++
      streamedRows ms) :
    Delivers (m :: ms) es (rowsResult fields row commandTag ms) := by
  obtain ⟨tag, h⟩ := rowsResult_eq fields row commandTag hms
  rw [h]
  cases he : firstError ms with
  | none => simp [Delivers, hes, streamedRows, he]
  | some e =>
    refine .inr ⟨fields, ?_⟩
    rw [hes, rowsBeforeError_cons hm, hrow]
    simp [streamedRows, he]

/-- A message that is neither a row nor an error, and sends nothing, can stand in front. -/
theorem Delivers.cons_skip {m : BackendMsg} {ms : List BackendMsg} {es es' : List Emit}
    {res : Outcome} (h : Delivers ms es' res) (he : m.isError = false) (hrow : m.row? = none)
    (hes : delivered es = []) : Delivers (m :: ms) (es ++ es') res := by
  have hrows : rowsBeforeError (m :: ms) = rowsBeforeError ms := by
    rw [rowsBeforeError_cons he, hrow]
    rfl
  rcases res with e | resp
  · simpa [Delivers, hes, hrows] using h
  · cases resp with
    | done => exact h
    | rows fields rows tag => simpa [Delivers, hes] using h

namespace Collect

/-- Once the header is sent, the rows follow one by one, and the error behind them. -/
theorem delivered_streamed (fields : List FieldDescription) {msgs : List BackendMsg}
    (hmsgs : ∀ m ∈ msgs, m.isReady = false) (status : UInt8) (rest : List BackendMsg) :
    ∃ es, runDropping none (.stream false true fields)
        (msgs ++ .readyForQuery status :: rest) = some (es, .ok .done, rest) ∧
      delivered es = streamedRows msgs := by
  induction msgs generalizing fields with
  | nil => exact ⟨noteRfqStatus status ++ [], rfl, by simp; rfl⟩
  | cons m ms ih =>
    have hms : ∀ m ∈ ms, m.isReady = false := fun m hm => hmsgs m (by simp [hm])
    have hm := hmsgs m (by simp)
    -- every message but an error leaves the loop where it is; a row is handed on
    have hmore (es : List Emit) (fields' : List FieldDescription) (he : m.isError = false)
        (hfeed : (Collect.stream false true fields).feedMsg m =
          .more es (.stream false true fields'))
        (hes : delivered es = m.row?.toList.map fun row => .row (.ok row)) :
        ∃ es, runDropping none (.stream false true fields)
            (m :: ms ++ .readyForQuery status :: rest) = some (es, .ok .done, rest) ∧
          delivered es = streamedRows (m :: ms) := by
      obtain ⟨es', hrun, hes'⟩ := ih fields' hms
      refine ⟨es ++ es', ?_, ?_⟩
      · rw [List.cons_append, runDropping_none_cons _ hfeed, hrun]
        rfl
      · rw [delivered_append, hes, hes', streamedRows, streamedRows, rowsBeforeError_cons he,
          firstError_cons he, List.map_append, List.append_assoc]
    cases m with
    | readyForQuery status => cases hm
    | errorResponse e =>
      refine ⟨[.row (.error (.pg e))] ++ noteRfqStatus status, ?_, ?_⟩
      · rw [List.cons_append, runDropping_none_cons _ rfl, runDropping_streamDrain _ hms]
        rfl
      · rw [delivered_append, delivered_noteRfqStatus, streamedRows, rowsBeforeError_error]
        rfl
    | _ => exact hmore _ _ rfl rfl rfl

/-- From the start, the consumer is given what `collect_rows` returns from there. -/
theorem delivers_stream (fields : List FieldDescription) (commandTag : String)
    {msgs : List BackendMsg} (hmsgs : ∀ m ∈ msgs, m.isReady = false)
    (hdesc : describedFirst msgs = true) (status : UInt8) (rest : List BackendMsg) :
    ∃ es, runDropping none (.stream true true fields)
        (msgs ++ .readyForQuery status :: rest) = some (es, .ok .done, rest) ∧
      Delivers msgs es (rowsResult fields [] commandTag msgs) := by
  induction msgs generalizing fields with
  | nil =>
    refine ⟨noteRfqStatus status ++ [.header (.ok fields)], rfl, ?_⟩
    rw [rowsResult, Delivers, delivered_append, delivered_noteRfqStatus]
    rfl
  | cons m ms ih =>
    have hms : ∀ m ∈ ms, m.isReady = false := fun m hm => hmsgs m (by simp [hm])
    have hm := hmsgs m (by simp)
    rw [describedFirst, Bool.and_eq_true] at hdesc
    -- what is neither a row nor the end leaves the header to be sent
    have hmore (es : List Emit) (fields' : List FieldDescription) (he : m.isError = false)
        (hrow : m.row? = none)
        (hfeed : (Collect.stream true true fields).feedMsg m = .more es (.stream true true fields'))
        (hes : delivered es = [])
        (hres : rowsResult fields [] commandTag (m :: ms) = rowsResult fields' [] commandTag ms) :
        ∃ es, runDropping none (.stream true true fields)
            (m :: ms ++ .readyForQuery status :: rest) = some (es, .ok .done, rest) ∧
          Delivers (m :: ms) es (rowsResult fields [] commandTag (m :: ms)) := by
      obtain ⟨es', hrun, hdel⟩ := ih fields' hms hdesc.2
      refine ⟨es ++ es', ?_, ?_⟩
      · rw [List.cons_append, runDropping_none_cons _ hfeed, hrun]
        rfl
      · rw [hres]
        exact hdel.cons_skip he hrow hes
    cases m with
    | readyForQuery status => cases hm
    | errorResponse e =>
      refine ⟨[.header (.error (.pg e))] ++ noteRfqStatus status, ?_, .inl ⟨?_, ?_⟩⟩
      · rw [List.cons_append, runDropping_none_cons _ rfl, runDropping_streamDrain _ hms]
        rfl
      · rw [delivered_append, delivered_noteRfqStatus]
        rfl
      · exact rowsBeforeError_error e ms
    | dataRow row =>
      obtain ⟨es, hrun, hes⟩ := delivered_streamed fields hms status rest
      refine ⟨[.header (.ok fields), .row (.ok row)] ++ es, ?_, ?_⟩
      · rw [List.cons_append, runDropping_none_cons _ rfl, hrun]
        rfl
      · refine delivers_of_streamedRows [row] commandTag rfl rfl hdesc.1 ?_
        rw [delivered_append, hes]
        rfl
    | commandComplete tag =>
      -- the fields went out with the header
      obtain ⟨es, hrun, hes⟩ := delivered_streamed [] hms status rest
      refine ⟨[.header (.ok fields)] ++ es, ?_, ?_⟩
      · rw [List.cons_append, runDropping_none_cons _ rfl, if_pos rfl, hrun]
        rfl
      · refine delivers_of_streamedRows [] tag rfl rfl hdesc.1 ?_
        rw [delivered_append, hes]
        rfl
    | _ => exact hmore _ _ rfl rfl rfl rfl rfl

end Collect

/-- `collect_rows` takes the group up to its `ReadyForQuery` and no further. -/
theorem runDropping_rows {msgs : List BackendMsg} (hmsgs : ∀ m ∈ msgs, m.isReady = false)
    (status : UInt8) (rest : List BackendMsg) :
    ∃ es, Collect.runDropping none (.init .rows) (msgs ++ .readyForQuery status :: rest) =
      some (es, rowsResult [] [] "" msgs, rest) := by
  have hrun := Collect.rows_run [] [] "" ((msgs ++ .readyForQuery status :: rest).map .ok)
  rw [Collect.runDropping_eq_run, List.map_append, List.map_cons,
    responseGroup_append rfl hmsgs] at hrun
  obtain ⟨⟨es, res, rest'⟩, hrun', heq⟩ := Option.map_eq_some_iff.mp hrun
  obtain ⟨rfl, hrest⟩ := Prod.mk.inj heq
  have hok (l l' : List BackendMsg) (h : l.map Except.ok = l'.map (Except.ok : _ → ReadResult)) :
      l = l' :=
    List.map_inj_right (fun _ _ => Except.ok.inj) |>.mp h
  exact ⟨es, hok _ _ hrest ▸ hrun'⟩

/-- **Streaming equals collecting.**  Both collectors take the group of a statement up to its
`ReadyForQuery` and no further, wherever the consumer drops its receiver; `stream_rows` uses the
header channel once, and a consumer that keeps reading is given what `collect_rows` returns. -/
theorem stream_eq_rows (drop : Option ℕ) (msgs : List BackendMsg) (status : UInt8)
    (rest : List BackendMsg) (hmsgs : ∀ m ∈ msgs, m.isReady = false)
    (hdesc : describedFirst msgs = true) :
    ∃ es es' res,
      Collect.runDropping none (.init .rows) (msgs ++ .readyForQuery status :: rest) =
        some (es', res, rest) ∧
      Collect.runDropping drop (.init .stream) (msgs ++ .readyForQuery status :: rest) =
        some (es, .ok .done, rest) ∧
      es.countP Emit.isHeader = 1 ∧ (drop = none → Delivers msgs es res) := by
  obtain ⟨es', hrows⟩ := runDropping_rows hmsgs status rest
  obtain ⟨es, hstream, hcount⟩ := Collect.runDropping_stream drop true true [] hmsgs status rest
  refine ⟨es, es', _, hrows, hstream, hcount, ?_⟩
  rintro rfl
  obtain ⟨es₂, hstream₂, hdel⟩ := Collect.delivers_stream [] "" hmsgs hdesc status rest
  obtain rfl : es = es₂ := by
    rw [hstream] at hstream₂
    exact (Prod.mk.inj (Option.some.inj hstream₂)).1
  exact hdel

/-- A response with a row, a notice and an error behind the row. -/
theorem stream_eq_rows_error :
    let msgs := [.rowDescription [], .dataRow (RawRow.fromFullBody []), .noticeResponse {},
      .errorResponse {}]
    ∃ es es' res,
      Collect.runDropping none (.init .rows) (msgs ++ [.readyForQuery 73]) =
        some (es', res, []) ∧
      Collect.runDropping none (.init .stream) (msgs ++ [.readyForQuery 73]) =
        some (es, .ok .done, []) ∧
      es.countP Emit.isHeader = 1 ∧ (none = (none : Option ℕ) → Delivers msgs es res) :=
  stream_eq_rows none _ 73 [] (by decide) (by decide)

end Resolute
