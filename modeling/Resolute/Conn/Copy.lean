import Mathlib.Data.List.Defs
import Resolute.Client.Prepared
import Resolute.Conn.Pipelined
import Resolute.LTS.Basic

/-!
# COPY on a shared connection

A statement `COPY … FROM STDIN` makes the server wait for copy data: it sends `CopyInResponse`, and
then nothing more until it has received `CopyDone` or `CopyFail`; a `Sync` is ignored meanwhile.
The text of a statement decides this, not the call it is given to.  `copy_in` and `copy_in_stream`
send the data and one `CopyDone` along with the text (`copyDones_requests`); all other calls send
none, and no collector answers a `CopyInResponse`.

The connection is *wedged* when the server waits for copy data and the reader for the server
(`State.Wedged`).  A step is `covered` if its statement enters copy-in mode no more often than its
request has `CopyDone`s, and no run of covered steps wedges the connection (`not_wedged`).  A `COPY`
that is given to `simple_query` does (`exists_wedged`).
-/

namespace Resolute.Conn.Copy

open Prepared (SqlParam callMessages)

/-! ### Requests -/

/-- A request, and how its response is collected. -/
structure Request where
  messages : List FrontendMsg
  collector : ResponseCollector
  deriving DecidableEq

/-- The bytes in a `CopyData` message of `copy_in`. -/
def chunkSize : ℕ := 1048576

/-- The messages of `copy_in` and `copy_in_stream`. -/
def copyInMessages (copySql : String) (chunks : List Bytes) : List FrontendMsg :=
  [.query (asBytes copySql)] ++ chunks.map .copyData ++ [.copyDone]

/-- `query_with_formats`. -/
def messagesWithFormats (sql : String) (params : List (Option Bytes)) (paramOids : List Oid)
    (paramFormats resultFormats : List FormatCode) (stmtName : Bytes) (needsParse : Bool) :
    List FrontendMsg :=
  let paramFmts := if paramFormats = [] then List.replicate params.length .text else paramFormats
  let resultFmts := if resultFormats = [] then [FormatCode.text] else resultFormats
  (if needsParse then [.parse stmtName (asBytes sql) paramOids] else []) ++
    [.bind [] stmtName paramFmts params resultFmts, .execute [] 0, .sync]

/-- The calls with SQL; those with parameters have looked up the name of their statement. -/
inductive Path where
  /-- `Client::simple_query`, and the `BEGIN`, `COMMIT` and `ROLLBACK` of other calls. -/
  | simpleQuery (sql : String)
  /-- `Client::query`, and each statement of a `Pipeline`. -/
  | query (sql : String) (params : List SqlParam) (stmtName : Bytes) (needsParse : Bool)
  /-- `Client::execute`. -/
  | execute (sql : String) (params : List SqlParam) (stmtName : Bytes) (needsParse : Bool)
  /-- `Client::query_stream`. -/
  | queryStream (sql : String) (params : List SqlParam) (stmtName : Bytes) (needsParse : Bool)
  /-- `exec_query_with_formats`; without formats `exec_query`. -/
  | queryWithFormats (sql : String) (params : List (Option Bytes)) (paramOids : List Oid)
      (paramFormats resultFormats : List FormatCode) (stmtName : Bytes) (needsParse : Bool)
  /-- `exec_transaction`, and `PgPipeline::pipeline_transaction`. -/
  | pipelineTransaction (setupSql querySql : String) (params : List (Option Bytes))
      (paramOids : List Oid) (stmtName : Bytes) (needsParse : Bool)
  | copyIn (copySql : String) (data : Bytes)
  /-- `copy_in_stream`, with what its reader has returned. -/
  | copyInStream (copySql : String) (chunks : List Bytes)
  | copyOut (copySql : String)
  /-- `PgPipeline::query`. -/
  | pgQuery (sql : String) (params : List (Option Bytes)) (paramOids : List Oid)
      (stmtName : Bytes) (needsParse : Bool)
  /-- `PgPipeline::simple_query`, which like `drain_until_ready` reads up to `ReadyForQuery`. -/
  | pgSimpleQuery (sql : String)
  /-- `PgPipeline::simple_query_rows`. -/
  | pgSimpleQueryRows (sql : String)
  /-- `PgPipeline::pipeline_with_setup`. -/
  | pgPipelineWithSetup (setupSql querySql : String) (params : List (Option Bytes))
      (paramOids : List Oid) (stmtName : Bytes) (needsParse : Bool)

/-- A simple query whose response is drained. -/
def drained (sql : String) : Request := ⟨[.query (asBytes sql)], .drain⟩

namespace Path

/-- The requests of a call; those of `PgPipeline` are the parts of its write that it reads
separately. -/
def requests : Path → List Request
  | simpleQuery sql | pgSimpleQuery sql => [drained sql]
  | query sql params stmtName needsParse =>
    [⟨callMessages true sql params stmtName needsParse, .rows⟩]
  | execute sql params stmtName needsParse =>
    [⟨callMessages false sql params stmtName needsParse, .rows⟩]
  | queryStream sql params stmtName needsParse =>
    [⟨callMessages true sql params stmtName needsParse, .stream⟩]
  | queryWithFormats sql params paramOids paramFormats resultFormats stmtName needsParse =>
    [⟨messagesWithFormats sql params paramOids paramFormats resultFormats stmtName needsParse,
      .rows⟩]
  | pipelineTransaction setupSql querySql params paramOids stmtName needsParse =>
    [drained setupSql, ⟨dataMessages querySql params paramOids stmtName needsParse, .rows⟩,
      drained "COMMIT"]
  | copyIn copySql data => [⟨copyInMessages copySql (data.toChunks chunkSize), .copyIn⟩]
  | copyInStream copySql chunks => [⟨copyInMessages copySql chunks, .copyIn⟩]
  | copyOut copySql => [⟨[.query (asBytes copySql)], .copyOut⟩]
  | pgQuery sql params paramOids stmtName needsParse =>
    [⟨dataMessages sql params paramOids stmtName needsParse, .rows⟩]
  | pgSimpleQueryRows sql => [⟨[.query (asBytes sql)], .rows⟩]
  | pgPipelineWithSetup setupSql querySql params paramOids stmtName needsParse =>
    [drained setupSql, ⟨dataMessages querySql params paramOids stmtName needsParse, .rows⟩]

/-- The call is there for copying to the server. -/
def copies : Path → Bool
  | copyIn _ _ | copyInStream _ _ => true
  | _ => false

end Path

/-- The number of times that the messages end copy-in mode. -/
def copyDones (ms : List FrontendMsg) : ℕ := ms.count .copyDone

/-! ### The server -/

/-- What a statement does. -/
inductive Effect where
  /-- It is carried out, with this response. -/
  | completes (msgs : List BackendMsg) (not_ready : ∀ m ∈ msgs, m.isReady = false)
  | fails (e : PgError)
  /-- It is a `COPY … FROM STDIN`; `result` is what becomes of it when the data has arrived. -/
  | copyIn (format : UInt8) (columnFormats : List Int16) (result : Except PgError String)

/-- What the server waits for. -/
inductive Mode where
  | idle
  /-- An error of the extended protocol: up to the next `Sync`. -/
  | skipping
  /-- Copy data; `rest` are the statements after it in the same `Query`, `none` in the extended
  protocol. -/
  | copying (result : Except PgError String) (rest : Option (List Effect))

/-- The statements of a `Query`. -/
def runQuery (status : UInt8) : List Effect → List BackendMsg × Mode
  | [] => ([.readyForQuery status], .idle)
  | .completes msgs _ :: rest =>
    let (msgs', mode) := runQuery status rest
    (msgs ++ msgs', mode)
  | .fails e :: _ => ([.errorResponse e, .readyForQuery status], .idle)
  | .copyIn format columnFormats result :: rest =>
    ([.copyInResponse format columnFormats], .copying result (some rest))

/-- The end of copy-in mode. -/
def endCopy (status : UInt8) : Except PgError String → Option (List Effect) →
    List BackendMsg × Mode
  | .ok tag, some rest =>
    let (msgs, mode) := runQuery status rest
    (.commandComplete tag :: msgs, mode)
  | .ok tag, none => ([.commandComplete tag], .idle)
  | .error e, some _ => ([.errorResponse e, .readyForQuery status], .idle)
  | .error e, none => ([.errorResponse e], .skipping)

/-- `query_canceled`, the answer to a `CopyFail`. -/
def copyFailed : PgError := { severity := "ERROR", code := "57014" }

/-- A message of the extended protocol other than `Sync`. -/
def extended (m : FrontendMsg) : Option Effect → List BackendMsg × Mode
  | none => ([], .idle)
  | some (.completes msgs _) => (msgs, .idle)
  | some (.fails e) => ([.errorResponse e], .skipping)
  | some (.copyIn format columnFormats result) => match m with
    | .execute _ _ => ([.copyInResponse format columnFormats], .copying result none)
    | _ => ([], .idle)

/-- What the server does with a message; `effects` are the statements that it runs. -/
def handle (effects : List Effect) (status : UInt8) : Mode → FrontendMsg → List BackendMsg × Mode
  | .copying result rest, .copyDone => endCopy status result rest
  | .copying _ rest, .copyFail _ => endCopy status (.error copyFailed) rest
  | .copying result rest, _ => ([], .copying result rest)
  | _, .sync => ([.readyForQuery status], .idle)
  | .skipping, _ => ([], .skipping)
  | .idle, .query _ => runQuery status effects
  -- these are left over from a copy that has ended
  | .idle, .copyData _ | .idle, .copyDone | .idle, .copyFail _ => ([], .idle)
  | .idle, m => extended m effects.head?

/-! ### The connection -/

/-- One connection. -/
structure State where
  /-- The requests that are not written yet. -/
  channel : List Request
  /-- What the server has not yet received of each request that is written. -/
  wire : List (List FrontendMsg)
  mode : Mode
  /-- What the reader has not yet read. -/
  out : List BackendMsg
  /-- Where the reader stands with the responses it waits for. -/
  pending : List Collect

/-- What happens. -/
inductive Label where
  /-- A task makes a call. -/
  | submit (p : Path)
  /-- The writer writes a request. -/
  | write
  /-- The server is done with the messages of a request. -/
  | next
  /-- The server receives a message. -/
  | serve (effects : List Effect) (status : UInt8)
  /-- The reader reads a message. -/
  | read

/-- A new connection. -/
def State.init : State := ⟨[], [], .idle, [], []⟩

/-- The connection. -/
def system : LTS State Label where
  step s
  | .submit p => some { s with channel := s.channel ++ p.requests }
  | .write => match s.channel with
    | r :: rest => some { s with
        channel := rest
        wire := s.wire ++ [r.messages]
        pending := s.pending ++ [Collect.init r.collector] }
    | [] => none
  | .next => match s.wire with
    | [] :: wire => some { s with wire := wire }
    | _ => none
  | .serve effects status => match s.wire with
    | (m :: ms) :: wire =>
      let (msgs, mode) := handle effects status s.mode m
      some { s with wire := ms :: wire, mode := mode, out := s.out ++ msgs }
    | _ => none
  | .read => match s.out, s.pending with
    | m :: out, c :: pending => match c.feedMsg m with
      | .more _ c => some { s with out := out, pending := c :: pending }
      | .done _ _ => some { s with out := out, pending := pending }
    | _, _ => none

/-- The server waits for copy data, it has all of the request whose statement wants them, and the
reader waits for the server. -/
def State.Wedged (s : State) : Prop :=
  (∃ result rest, s.mode = .copying result rest) ∧ s.wire.head? = some [] ∧ s.out = [] ∧
    s.pending ≠ []

/-- The number of times that the statements of a `Query` enter copy-in mode. -/
def copyIns : List Effect → ℕ
  | [] => 0
  | .completes _ _ :: rest => copyIns rest
  | .fails _ :: _ => 0
  | .copyIn _ _ (.ok _) :: rest => copyIns rest + 1
  | .copyIn _ _ (.error _) :: _ => 1

/-- The number of times that a message makes the server wait for copy data. -/
def demand (effects : List Effect) : FrontendMsg → ℕ
  | .query _ => copyIns effects
  | .execute _ _ => copyIns (effects.take 1)
  | _ => 0

/-- The statements that the server is about to run enter copy-in mode no more often than their
request has `CopyDone`s. -/
def covered (s : State) : Label → Bool
  | .serve effects _ => match s.mode, s.wire with
    | .idle, (m :: ms) :: _ => demand effects m ≤ copyDones ms
    | _, _ => true
  | _ => true

/-! ### The `CopyDone`s of a request -/

section CopyDones

@[simp] theorem copyDones_nil : copyDones [] = 0 := rfl

@[simp] theorem copyDones_append (ms ms' : List FrontendMsg) :
    copyDones (ms ++ ms') = copyDones ms + copyDones ms' :=
  List.count_append

@[simp] theorem copyDones_cons_copyDone (ms : List FrontendMsg) :
    copyDones (.copyDone :: ms) = copyDones ms + 1 :=
  List.count_cons_self

@[simp] theorem copyDones_cons_of_ne {m : FrontendMsg} (h : m ≠ .copyDone)
    (ms : List FrontendMsg) : copyDones (m :: ms) = copyDones ms :=
  List.count_cons_of_ne h

theorem copyDones_map_copyData (chunks : List Bytes) :
    copyDones (chunks.map .copyData) = 0 := by
  induction chunks with
  | nil => rfl
  | cons c chunks ih => simpa using ih

@[simp] theorem copyDones_copyInMessages (sql : String) (chunks : List Bytes) :
    copyDones (copyInMessages sql chunks) = 1 := by
  simp [copyInMessages, copyDones_map_copyData]

@[simp] theorem copyDones_callMessages (describe : Bool) (sql : String) (params : List SqlParam)
    (stmtName : Bytes) (needsParse : Bool) :
    copyDones (callMessages describe sql params stmtName needsParse) = 0 := by
  cases describe <;> cases needsParse <;> simp [callMessages]

@[simp] theorem copyDones_dataMessages (sql : String) (params : List (Option Bytes))
    (paramOids : List Oid) (stmtName : Bytes) (needsParse : Bool) :
    copyDones (dataMessages sql params paramOids stmtName needsParse) = 0 := by
  cases needsParse <;> simp [dataMessages]

@[simp] theorem copyDones_messagesWithFormats (sql : String) (params : List (Option Bytes))
    (paramOids : List Oid) (paramFormats resultFormats : List FormatCode) (stmtName : Bytes)
    (needsParse : Bool) :
    copyDones (messagesWithFormats sql params paramOids paramFormats resultFormats stmtName
      needsParse) = 0 := by
  cases needsParse <;> simp [messagesWithFormats]

/-- **The requests of the copy calls have one `CopyDone`, those of all other calls have none.** -/
theorem copyDones_requests (p : Path) :
    ∀ r ∈ p.requests, copyDones r.messages = if p.copies then 1 else 0 := by
  cases p <;> simp [Path.requests, Path.copies, drained]

end CopyDones

/-! ### Covered runs -/

/-- The number of `CopyDone`s up to the next answer to a `Sync`. -/
def Mode.needed : Mode → ℕ
  | .copying (.ok _) rest => copyIns (rest.getD []) + 1
  | .copying (.error _) _ => 1
  | .idle | .skipping => 0

@[simp] theorem Mode.needed_idle : Mode.idle.needed = 0 := rfl

@[simp] theorem Mode.needed_skipping : Mode.skipping.needed = 0 := rfl

@[simp] theorem Mode.needed_copying_ok (tag : String) (rest : Option (List Effect)) :
    (Mode.copying (.ok tag) rest).needed = copyIns (rest.getD []) + 1 := rfl

@[simp] theorem Mode.needed_copying_error (e : PgError) (rest : Option (List Effect)) :
    (Mode.copying (.error e) rest).needed = 1 := rfl

theorem Mode.one_le_needed (result : Except PgError String) (rest : Option (List Effect)) :
    1 ≤ (Mode.copying result rest).needed := by
  cases result <;> simp

theorem runQuery_needed (status : UInt8) (effects : List Effect) :
    (runQuery status effects).2.needed = copyIns effects := by
  induction effects with
  | nil => rfl
  | cons effect effects ih =>
    cases effect with
    | completes msgs h => exact ih
    | fails e => rfl
    | copyIn format columnFormats result => cases result <;> rfl

theorem endCopy_needed (status : UInt8) (result : Except PgError String)
    (rest : Option (List Effect)) :
    (endCopy status result rest).2.needed + 1 = (Mode.copying result rest).needed := by
  cases result <;> cases rest <;> simp [endCopy, runQuery_needed, copyIns]

theorem extended_needed (m : FrontendMsg) (effects : List Effect) :
    (extended m effects.head?).2.needed ≤ demand effects m := by
  cases effects with
  | nil => simp [extended]
  | cons effect effects =>
    cases effect with
    | completes msgs h => simp [extended]
    | fails e => simp [extended]
    | copyIn format columnFormats result =>
      cases m <;> cases result <;> simp [extended, demand, copyIns]

/-- A message leaves no more `CopyDone`s to wait for than the request still has. -/
theorem handle_needed {effects : List Effect} {mode : Mode} {m : FrontendMsg}
    {ms : List FrontendMsg} (status : UInt8) (h : mode.needed ≤ copyDones (m :: ms))
    (hc : mode = .idle → demand effects m ≤ copyDones ms) :
    (handle effects status mode m).2.needed ≤ copyDones ms := by
  cases mode with
  | idle =>
    have hm := hc rfl
    have hext := extended_needed m effects
    cases m <;> simp only [handle] <;> try exact hext.trans hm
    case query => rwa [runQuery_needed]
    all_goals exact Nat.zero_le _
  | skipping => cases m <;> exact Nat.zero_le _
  | copying result rest =>
    by_cases hm : m = .copyDone
    · subst hm
      have hend := endCopy_needed status result rest
      simp only [handle, copyDones_cons_copyDone] at h ⊢
      omega
    · rw [copyDones_cons_of_ne hm] at h
      cases m <;> try exact h
      case copyDone => exact absurd rfl hm
      case copyFail =>
        have hend := endCopy_needed status (.error copyFailed) rest
        simp only [Mode.needed_copying_error] at hend
        simp only [handle]
        omega

/-- What the server waits for is on its way, in the request that it is at. -/
def Awaited (s : State) : Prop := s.mode.needed ≤ copyDones (s.wire.head?.getD [])

theorem Awaited.init : Awaited .init := Nat.zero_le _

theorem Awaited.step {s s' : State} {l : Label} (h : Awaited s) (hc : covered s l = true)
    (hs : system.step s l = some s') : Awaited s' := by
  cases l with
  | submit p => cases hs; exact h
  | write =>
    simp only [system] at hs
    split at hs
    · cases hs
      refine h.trans ?_
      cases hw : s.wire with
      | nil => exact Nat.zero_le _
      | cons ms wire => exact le_rfl
    · cases hs
  | next =>
    simp only [system] at hs
    split at hs
    case h_1 wire hw =>
      cases hs
      have : s.mode.needed = 0 := by simpa [Awaited, hw] using h
      simp [Awaited, this]
    · cases hs
  | serve effects status =>
    simp only [system] at hs
    split at hs
    case h_1 m ms wire hw =>
      cases hs
      refine handle_needed status (by simpa [Awaited, hw] using h) fun hm => ?_
      simpa [covered, hm, hw] using hc
    · cases hs
  | read =>
    simp only [system] at hs
    split at hs
    · split at hs <;> cases hs <;> exact h
    · cases hs

/-- **A connection whose statements ask for no more copy data than their requests end never
wedges.** -/
theorem not_wedged {s : State}
    (h : (system.guard fun s l => covered s l = true).Reachable .init s) : ¬ s.Wedged := by
  have hs : Awaited s := h.guard_invariant .init fun _ _ _ hI hG hl => hI.step hG hl
  rintro ⟨⟨result, rest, hmode⟩, hwire, -, -⟩
  have hneeded := Mode.one_le_needed result rest
  simp only [Awaited, hmode, hwire, Option.getD_some, copyDones_nil] at hs
  omega

/-- `COPY t FROM STDIN`, of which the server takes one row. -/
def copyRow : Effect := .copyIn 0 [0] (.ok "COPY 1")

theorem not_wedged_copyIn : ∃ s : State,
    (system.guard fun s l => covered s l = true).Reachable .init s ∧
      (∃ result rest, s.mode = .copying result rest) ∧ ¬ s.Wedged := by
  have hrun := LTS.reachable_of_exec (rfl : (system.guard fun s l => covered s l = true).exec .init
    [.submit (.copyIn "COPY t FROM STDIN" [49, 10]), .write, .serve [copyRow] 73, .read] = some _)
  exact ⟨_, hrun, ⟨_, _, rfl⟩, not_wedged hrun⟩

/-- The same text given to `simple_query` wedges the connection. -/
theorem exists_wedged : ∃ s : State, system.Reachable .init s ∧ s.Wedged := by
  have hrun := LTS.reachable_of_exec (rfl : system.exec .init
    [.submit (.simpleQuery "COPY t FROM STDIN"), .write, .serve [copyRow] 73, .read] = some _)
  exact ⟨_, hrun, ⟨_, _, rfl⟩, rfl, rfl, List.cons_ne_nil _ _⟩

end Resolute.Conn.Copy
