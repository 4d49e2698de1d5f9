import Mathlib.Data.List.AList
import Resolute.Conn.Pipelined
import Resolute.LTS.Basic
import Resolute.Wire.Read

/-!
# The pipelined client

`PgPipeline` owns a `WireConn`.  Each of its calls writes all its messages at once and then reads
the responses itself: one response group for every `Query` and every `Sync` it has sent.  A call
that runs SQL with parameters looks its statement up first, in a cache that is filled before the
server has seen the `Parse`.  What a call writes, and how it reads the response, is its `Exchange`.

The server handles the messages one by one, as the verdicts of a `Script` say, and skips to the next
`Sync` after an error of the extended protocol (`Server.serve`).

Two things are asked of a client, its server and the input that is not read yet:

* that the cache only names statements that the server has prepared, which holds if it accepts the
  `Parse` of every call that misses the cache (`cache_sound`);
* that a call which reports a result has read as many `ReadyForQuery` messages as it has asked for,
  which holds unless it is a transaction whose query failed (`readies_consumed`).
-/

namespace Resolute

/-- `PgPipeline`, without its connection and its buffer. -/
structure PgPipeline where
  /-- The statement names, by SQL. -/
  stmtCache : AList fun _ : String => String
  stmtCounter : ℕ
  maxCacheSize : ℕ
  deriving DecidableEq

/-- What a call returns besides an error. -/
inductive Answer where
  | unit
  | rows (rows : List RawRow)
  | tagged (rows : List RawRow) (tag : String)
  deriving DecidableEq, Repr

/-- What a call does with the connection: one write, and the reading of the response. -/
structure Exchange where
  sent : List FrontendMsg
  read : Read Answer

/-- The loop of `PgPipeline::simple_query`, which keeps the first error. -/
def drainFirstError (firstError : Option PgError) : Read Answer
  | [] => none
  | .error e :: rs => some (.error e, rs)
  | .ok (.readyForQuery _) :: rs =>
    some (match firstError with
      | some err => .error (.pg err)
      | none => .ok .unit, rs)
  | .ok (.errorResponse fields) :: rs => drainFirstError (firstError <|> some fields) rs
  | .ok _ :: rs => drainFirstError firstError rs

namespace PgPipeline

open WireConn (collectRows drainUntilReady)

/-- `PgPipeline::new`. -/
def new : PgPipeline := ⟨∅, 0, 256⟩

/-- `lookup_or_alloc`: the name to use, and whether it needs a `Parse`.  A new name is cached at
once; a full cache is cleared to make room for it. -/
def lookupOrAlloc (sql : String) (p : PgPipeline) : (String × Bool) × PgPipeline :=
  match p.stmtCache.lookup sql with
  | some name => ((name, false), p)
  | none =>
    let stmtCache := if p.maxCacheSize ≤ p.stmtCache.entries.length then ∅ else p.stmtCache
    let name := stmtName p.stmtCounter
    ((name, true),
      { p with stmtCache := stmtCache.insert sql name, stmtCounter := p.stmtCounter + 1 })

/-- `query`. -/
def query (sql : String) (params : List (Option Bytes)) (paramOids : List Oid) (p : PgPipeline) :
    Exchange × PgPipeline :=
  let ((stmtName, needsParse), p) := p.lookupOrAlloc sql
  ({ sent := dataMessages sql params paramOids (asBytes stmtName) needsParse
     read := do
      let (rows, _tag) ← collectRows
      pure (.rows rows) }, p)

/-- `simple_query`. -/
def simpleQuery (sql : String) (p : PgPipeline) : Exchange × PgPipeline :=
  (⟨[.query (asBytes sql)], drainFirstError none⟩, p)

/-- `simple_query_rows`. -/
def simpleQueryRows (sql : String) (p : PgPipeline) : Exchange × PgPipeline :=
  ({ sent := [.query (asBytes sql)]
     read := do
      let (rows, tag) ← collectRows
      pure (.tagged rows tag) }, p)

/-- `pipeline_with_setup`. -/
def pipelineWithSetup (setupSql querySql : String) (params : List (Option Bytes))
    (paramOids : List Oid) (p : PgPipeline) : Exchange × PgPipeline :=
  let ((stmtName, needsParse), p) := p.lookupOrAlloc querySql
  ({ sent := .query (asBytes setupSql) ::
      dataMessages querySql params paramOids (asBytes stmtName) needsParse
     read := do
      drainUntilReady
      let (rows, _tag) ← collectRows
      pure (.rows rows) }, p)

/-- `pipeline_transaction`. -/
def pipelineTransaction (setupSql querySql : String) (params : List (Option Bytes))
    (paramOids : List Oid) (p : PgPipeline) : Exchange × PgPipeline :=
  let ((stmtName, needsParse), p) := p.lookupOrAlloc querySql
  ({ sent := .query (asBytes setupSql) ::
      dataMessages querySql params paramOids (asBytes stmtName) needsParse ++
        [.query (asBytes "COMMIT")]
     read := do
      drainUntilReady
      let (rows, _tag) ← collectRows
      drainUntilReady
      pure (.rows rows) }, p)

/-- `clear_cache`. -/
def clearCache (p : PgPipeline) : Exchange × PgPipeline :=
  (⟨[], pure .unit⟩, { p with stmtCache := ∅ })

/-- The calls. -/
inductive Op where
  | query (sql : String) (params : List (Option Bytes)) (paramOids : List Oid)
  | simpleQuery (sql : String)
  | simpleQueryRows (sql : String)
  | pipelineWithSetup (setupSql querySql : String) (params : List (Option Bytes))
      (paramOids : List Oid)
  | pipelineTransaction (setupSql querySql : String) (params : List (Option Bytes))
      (paramOids : List Oid)
  | clearCache
  deriving DecidableEq

namespace Op

/-- Start a call. -/
def start : Op → PgPipeline → Exchange × PgPipeline
  | query sql params paramOids => PgPipeline.query sql params paramOids
  | simpleQuery sql => PgPipeline.simpleQuery sql
  | simpleQueryRows sql => PgPipeline.simpleQueryRows sql
  | pipelineWithSetup setupSql querySql params paramOids =>
    PgPipeline.pipelineWithSetup setupSql querySql params paramOids
  | pipelineTransaction setupSql querySql params paramOids =>
    PgPipeline.pipelineTransaction setupSql querySql params paramOids
  | clearCache => PgPipeline.clearCache

/-- The SQL that is looked up, and the place of its `Parse` among the messages of the call. -/
def prepares : Op → Option (String × ℕ)
  | query sql _ _ => some (sql, 0)
  | pipelineWithSetup _ querySql _ _ | pipelineTransaction _ querySql _ _ => some (querySql, 1)
  | simpleQuery _ | simpleQueryRows _ | clearCache => none

/-- The call ends with a `COMMIT` of its own. -/
def isTransaction : Op → Bool
  | pipelineTransaction _ _ _ _ => true
  | _ => false

end Op

end PgPipeline

namespace FrontendMsg

/-- The message belongs to the extended protocol and is not a `Sync`. -/
def isExtended : FrontendMsg → Bool
  | .sync | .query _ => false
  | _ => true

/-- The message is a `Query`. -/
def isQuery : FrontendMsg → Bool
  | .query _ => true
  | _ => false

/-- The message is a `Parse`. -/
def isParse : FrontendMsg → Bool
  | .parse _ _ _ => true
  | _ => false

end FrontendMsg

/-! ### The server -/

/-- What the server makes of one message. -/
structure Verdict where
  /-- What it sends before it is done with the message. -/
  msgs : List BackendMsg
  not_ready : ∀ m ∈ msgs, m.isReady = false
  /-- The error with which it refuses the message. -/
  error : Option PgError
  /-- The transaction status that a `ReadyForQuery` reports. -/
  status : UInt8

/-- The verdicts on the messages of a call. -/
abbrev Script := ℕ → Verdict

/-- What matters of the server: the prepared statements, by name, and whether it skips messages up
to the next `Sync`. -/
structure Server where
  prepared : List (Bytes × Bytes)
  skipping : Bool
  deriving DecidableEq

namespace Server

/-- A statement of the given name is prepared. -/
def knows (s : Server) (name : Bytes) : Bool := s.prepared.any (·.1 = name)

/-- `duplicate_prepared_statement`. -/
def duplicate : PgError := { severity := "ERROR", code := "42P05" }

/-- `invalid_sql_statement_name`. -/
def missing : PgError := { severity := "ERROR", code := "26000" }

/-- The reply to a message of the extended protocol that is refused. -/
def refuse (s : Server) (msgs : List BackendMsg) (e : PgError) : List BackendMsg × Server :=
  (msgs ++ [.errorResponse e], { s with skipping := true })

/-- The end of a response group, with the error that comes before it, if any. -/
def finish (v : Verdict) : List BackendMsg :=
  v.msgs ++ v.error.toList.map .errorResponse ++ [.readyForQuery v.status]

/-- The reply to a message of the extended protocol other than `Sync`. -/
def extended (s : Server) (v : Verdict) (m : FrontendMsg) : List BackendMsg × Server :=
  match v.error with
  | some e => s.refuse v.msgs e
  | none => match m with
    | .parse name sql _ =>
      if s.knows name then s.refuse v.msgs duplicate
      else (v.msgs ++ [.parseComplete], { s with prepared := (name, sql) :: s.prepared })
    | .bind _ name _ _ _ =>
      if s.knows name then (v.msgs ++ [.bindComplete], s) else s.refuse v.msgs missing
    | _ => (v.msgs, s)

/-- The reply to one message. -/
def handle (s : Server) (v : Verdict) (m : FrontendMsg) : List BackendMsg × Server :=
  match m with
  | .sync => (finish v, { s with skipping := false })
  | .query _ => if s.skipping then ([], s) else (finish v, s)
  | _ => if s.skipping then ([], s) else s.extended v m

/-- The replies to the messages of a call. -/
def serve : Server → Script → List FrontendMsg → List BackendMsg × Server
  | s, _, [] => ([], s)
  | s, script, m :: ms =>
    let (msgs, s) := s.handle (script 0) m
    let (msgs', s) := s.serve (fun n => script (n + 1)) ms
    (msgs ++ msgs', s)

theorem serve_cons (s : Server) (script : Script) (m : FrontendMsg) (ms : List FrontendMsg) :
    s.serve script (m :: ms) =
      ((s.handle (script 0) m).1 ++
          ((s.handle (script 0) m).2.serve (fun n => script (n + 1)) ms).1,
        ((s.handle (script 0) m).2.serve (fun n => script (n + 1)) ms).2) := rfl

theorem serve_append (s : Server) (script : Script) (ms ms' : List FrontendMsg) :
    s.serve script (ms ++ ms') =
      ((s.serve script ms).1 ++
          ((s.serve script ms).2.serve (fun n => script (n + ms.length)) ms').1,
        ((s.serve script ms).2.serve (fun n => script (n + ms.length)) ms').2) := by
  induction ms generalizing s script with
  | nil => rfl
  | cons m ms ih =>
    simp only [List.cons_append, serve_cons, ih, List.append_assoc, List.length_cons]
    simp only [Nat.add_assoc]

/-- What the handling of an extended message replies has no `ReadyForQuery`. -/
theorem handle_not_ready (s : Server) (v : Verdict) {m : FrontendMsg} (hm : m.isExtended = true) :
    ∀ r ∈ (s.handle v m).1, r.isReady = false := by
  have hq := v.not_ready
  cases m <;> cases hm <;> simp only [handle] <;> split_ifs <;>
    simp only [extended, refuse, List.not_mem_nil, false_implies, implies_true]
  all_goals split <;> try split_ifs
  all_goals simpa [or_imp, forall_and, BackendMsg.isReady] using hq

/-- The replies to messages of the extended protocol have no `ReadyForQuery`. -/
theorem serve_not_ready (s : Server) (script : Script) {ms : List FrontendMsg}
    (hms : ∀ m ∈ ms, m.isExtended = true) : ∀ r ∈ (s.serve script ms).1, r.isReady = false := by
  induction ms generalizing s script with
  | nil => simp [serve]
  | cons m ms ih =>
    intro r hr
    rw [serve_cons] at hr
    rcases List.mem_append.1 hr with hr | hr
    · exact s.handle_not_ready _ (hms m List.mem_cons_self) r hr
    · exact ih _ _ (fun m hm => hms m (List.mem_cons_of_mem _ hm)) r hr

theorem finish_group (v : Verdict) : ∃ msgs r, (∀ m ∈ msgs, BackendMsg.isReady m = false) ∧
    BackendMsg.isReady r = true ∧ finish v = msgs ++ [r] := by
  refine ⟨_, _, fun m hm => ?_, rfl, rfl⟩
  rcases List.mem_append.1 hm with hm | hm
  · exact v.not_ready m hm
  · obtain ⟨e, -, rfl⟩ := List.mem_map.1 hm
    rfl

/-- Messages of the extended protocol and a `Sync` are answered by one group, after which the server
does not skip. -/
theorem serve_sync (s : Server) (script : Script) {ms : List FrontendMsg}
    (hms : ∀ m ∈ ms, m.isExtended = true) :
    (∃ msgs r, (∀ m ∈ msgs, BackendMsg.isReady m = false) ∧ BackendMsg.isReady r = true ∧
      (s.serve script (ms ++ [.sync])).1 = msgs ++ [r]) ∧
    (s.serve script (ms ++ [.sync])).2 = { (s.serve script ms).2 with skipping := false } := by
  rw [serve_append]
  obtain ⟨msgs, r, hmsgs, hr, hfinish⟩ := finish_group (script ms.length)
  refine ⟨⟨(s.serve script ms).1 ++ msgs, r, fun m hm => ?_, hr, ?_⟩, rfl⟩
  · rcases List.mem_append.1 hm with hm | hm
    · exact s.serve_not_ready script hms m hm
    · exact hmsgs m hm
  · simp [serve, handle, hfinish]

/-- Only a `Parse` prepares a statement. -/
theorem handle_prepared (s : Server) (v : Verdict) {m : FrontendMsg} (hm : m.isParse = false) :
    (s.handle v m).2.prepared = s.prepared := by
  cases m <;> simp only [FrontendMsg.isParse, Bool.true_eq_false] at hm <;>
    simp only [handle] <;> split_ifs <;> (try rfl) <;> simp only [extended, refuse] <;> split <;>
    try split_ifs
  all_goals rfl

theorem serve_prepared (s : Server) (script : Script) {ms : List FrontendMsg}
    (hms : ∀ m ∈ ms, m.isParse = false) : (s.serve script ms).2.prepared = s.prepared := by
  induction ms generalizing s script with
  | nil => rfl
  | cons m ms ih =>
    rw [serve_cons, ih _ _ fun m hm => hms m (List.mem_cons_of_mem _ hm)]
    exact s.handle_prepared _ (hms m List.mem_cons_self)

/-- The messages of a query that misses the cache prepare its statement if the server accepts the
`Parse`. -/
theorem serve_parse {s : Server} (hs : s.skipping = false) (script : Script) {name sql : Bytes}
    (hname : s.knows name = false) (oids : List Oid) {ms : List FrontendMsg}
    (hms : ∀ m ∈ ms, m.isParse = false) :
    (s.serve script (.parse name sql oids :: ms)).2.prepared =
      if (script 0).error = none then (name, sql) :: s.prepared else s.prepared := by
  rw [serve_cons, serve_prepared _ _ hms]
  cases he : (script 0).error <;> simp [handle, hs, extended, he, hname, refuse]

end Server

/-! ### A client and its server -/

namespace PgPipeline

/-- A client, the server behind it, and the input that is not read yet. -/
structure State where
  pipe : PgPipeline
  server : Server
  input : List ReadResult

/-- A call, and what the server makes of its messages. -/
structure Label where
  op : Op
  script : Script

namespace State

/-- A new connection. -/
def init : State := ⟨new, ⟨[], false⟩, []⟩

/-- The replies to the messages of a call, and the server after them. -/
def replies (s : State) (l : Label) : List BackendMsg × Server :=
  s.server.serve l.script (l.op.start s.pipe).1.sent

/-- What a call reads from. -/
def incoming (s : State) (l : Label) : List ReadResult := s.input ++ (s.replies l).1.map .ok

end State

/-- A call from its start to its return. -/
def step (s : State) (l : Label) : Option State :=
  ((l.op.start s.pipe).1.read (s.incoming l)).map fun (_, rest) =>
    ⟨(l.op.start s.pipe).2, (s.replies l).2, rest⟩

/-- The calls on a connection as a transition system. -/
def system : LTS State Label := ⟨step⟩

/-- The number of messages that are answered by a `ReadyForQuery`. -/
def requests (ms : List FrontendMsg) : ℕ :=
  ms.countP fun m => match m with
    | .query _ | .sync => true
    | _ => false

/-- The call returned `Ok` or an error of the server. -/
def reported : Except PgWireError Answer → Bool
  | .ok _ | .error (.pg _) => true
  | .error _ => false

/-- `recv_msg` never returns an error of the server. -/
def FromSocket (rs : List ReadResult) : Prop := ∀ e, Except.error (PgWireError.pg e) ∉ rs

/-- The second group of the input, which answers the query of a transaction, has an
`ErrorResponse`. -/
def queryFailed (rs : List ReadResult) : Bool :=
  match responseGroup rs with
  | some (.ok _, rs) => match responseGroup rs with
    | some (.ok msgs, _) => !errorFree msgs
    | _ => false
  | _ => false

/-- The query of a `pipeline_transaction` succeeds. -/
def answered (s : State) (l : Label) : Prop :=
  ¬ (l.op.isTransaction = true ∧ queryFailed (s.incoming l) = true)

instance (s : State) (l : Label) : Decidable (answered s l) := inferInstanceAs (Decidable (¬ _))

/-- Every cached name is prepared for its SQL. -/
def CacheSound (s : State) : Prop :=
  ∀ sql name, s.pipe.stmtCache.lookup sql = some name →
    (asBytes name, asBytes sql) ∈ s.server.prepared

/-- If the call misses the cache, the server accepts its `Parse`. -/
def parseAccepted (s : State) (l : Label) : Prop :=
  match l.op.prepares with
  | some (sql, n) => s.pipe.stmtCache.lookup sql = none → (l.script n).error = none
  | none => True

instance (s : State) (l : Label) : Decidable (parseAccepted s l) := by
  unfold parseAccepted; split <;> infer_instance

/-! ### The cache -/

theorem lookupOrAlloc_hit {p : PgPipeline} {sql name : String}
    (h : p.stmtCache.lookup sql = some name) : p.lookupOrAlloc sql = ((name, false), p) := by
  simp [lookupOrAlloc, h]

theorem lookupOrAlloc_miss {p : PgPipeline} {sql : String} (h : p.stmtCache.lookup sql = none) :
    (p.lookupOrAlloc sql).1 = (stmtName p.stmtCounter, true) ∧
    (p.lookupOrAlloc sql).2.stmtCounter = p.stmtCounter + 1 := by
  simp [lookupOrAlloc, h]

/-- After a miss the cache has the new name, and nothing else that it did not have before. -/
theorem lookup_of_miss {p : PgPipeline} {sql : String} (h : p.stmtCache.lookup sql = none) :
    (p.lookupOrAlloc sql).2.stmtCache.lookup sql = some (stmtName p.stmtCounter) ∧
    ∀ sql' name, (p.lookupOrAlloc sql).2.stmtCache.lookup sql' = some name → sql' ≠ sql →
      p.stmtCache.lookup sql' = some name := by
  simp only [lookupOrAlloc, h]
  refine ⟨AList.lookup_insert _, fun sql' name h' hne => ?_⟩
  rw [AList.lookup_insert_ne hne] at h'
  split_ifs at h'
  · simp at h'
  · exact h'

/-- What the calls with parameters send: queries around the messages of the statement. -/
theorem start_of_prepares {op : Op} {sql : String} {n : ℕ} (h : op.prepares = some (sql, n))
    (p : PgPipeline) :
    ∃ params oids before after, before.length = n ∧
      (∀ m ∈ before, FrontendMsg.isQuery m = true) ∧
      (∀ m ∈ after, FrontendMsg.isQuery m = true) ∧
      (op.start p).1.sent = before ++ dataMessages sql params oids
        (asBytes (p.lookupOrAlloc sql).1.1) (p.lookupOrAlloc sql).1.2 ++ after ∧
      (op.start p).2 = (p.lookupOrAlloc sql).2 := by
  cases op with
  | query sql params oids =>
    cases h
    exact ⟨params, oids, [], [], rfl, by simp, by simp, by simp [Op.start, query], rfl⟩
  | pipelineWithSetup setupSql querySql params oids =>
    cases h
    exact ⟨params, oids, [.query (asBytes setupSql)], [], rfl, by simp [FrontendMsg.isQuery],
      by simp, by simp [Op.start, pipelineWithSetup], rfl⟩
  | pipelineTransaction setupSql querySql params oids =>
    cases h
    exact ⟨params, oids, [.query (asBytes setupSql)], [.query (asBytes "COMMIT")], rfl,
      by simp [FrontendMsg.isQuery], by simp [FrontendMsg.isQuery],
      by simp [Op.start, pipelineTransaction], rfl⟩
  | simpleQuery sql => cases h
  | simpleQueryRows sql => cases h
  | clearCache => cases h

/-- The other calls send queries only, and cache nothing. -/
theorem start_of_not_prepares {op : Op} (h : op.prepares = none) (p : PgPipeline) :
    (∀ m ∈ (op.start p).1.sent, FrontendMsg.isQuery m = true) ∧
    (op.start p).2.stmtCounter = p.stmtCounter ∧
    ∀ sql name, (op.start p).2.stmtCache.lookup sql = some name →
      p.stmtCache.lookup sql = some name := by
  cases op with
  | simpleQuery sql =>
    refine ⟨?_, rfl, ?_⟩
    · simp [Op.start, simpleQuery, FrontendMsg.isQuery]
    · simp [Op.start, simpleQuery]
  | simpleQueryRows sql =>
    refine ⟨?_, rfl, ?_⟩
    · simp [Op.start, simpleQueryRows, FrontendMsg.isQuery]
    · simp [Op.start, simpleQueryRows]
  | clearCache => exact ⟨by simp [Op.start, clearCache], rfl, by simp [Op.start, clearCache]⟩
  | query sql params oids => cases h
  | pipelineWithSetup setupSql querySql params oids => cases h
  | pipelineTransaction setupSql querySql params oids => cases h

end PgPipeline

/-- A server that does not skip leaves queries with its state unchanged. -/
theorem Server.serve_queries {s : Server} (hs : s.skipping = false) (script : Script)
    {ms : List FrontendMsg} (hms : ∀ m ∈ ms, m.isQuery = true) : (s.serve script ms).2 = s := by
  induction ms generalizing script with
  | nil => rfl
  | cons m ms ih =>
    have hm := hms m List.mem_cons_self
    have ih := ih (fun n => script (n + 1)) fun m hm => hms m (List.mem_cons_of_mem _ hm)
    cases m <;> cases hm
    simpa [serve_cons, handle, hs] using ih

/-- The messages of a statement before its `Sync`. -/
def statementMessages (sql : String) (params : List (Option Bytes)) (oids : List Oid)
    (name : Bytes) (needsParse : Bool) : List FrontendMsg :=
  (if needsParse then [FrontendMsg.parse name (asBytes sql) oids] else []) ++
    [FrontendMsg.bind [] name (List.replicate params.length .text) params [.text],
      FrontendMsg.execute [] 0]

theorem dataMessages_eq (sql : String) (params : List (Option Bytes)) (oids : List Oid)
    (name : Bytes) (needsParse : Bool) : dataMessages sql params oids name needsParse =
      statementMessages sql params oids name needsParse ++ [FrontendMsg.sync] := by
  cases needsParse <;> rfl

theorem statementMessages_extended (sql : String) (params : List (Option Bytes))
    (oids : List Oid) (name : Bytes) (needsParse : Bool) :
    ∀ m ∈ statementMessages sql params oids name needsParse, m.isExtended = true := by
  cases needsParse <;> simp [statementMessages, FrontendMsg.isExtended]

/-- What the messages of a statement do to the server. -/
theorem Server.serve_data {s : Server} (hs : s.skipping = false) (script : Script) {name : Bytes}
    {needsParse : Bool} (hname : needsParse = true → s.knows name = false) (sql : String)
    (params : List (Option Bytes)) (oids : List Oid) :
    (s.serve script (dataMessages sql params oids name needsParse)).2 =
      ⟨if needsParse = true ∧ (script 0).error = none then (name, asBytes sql) :: s.prepared
        else s.prepared, false⟩ := by
  rw [dataMessages_eq, (s.serve_sync script
    (statementMessages_extended sql params oids name needsParse)).2]
  cases needsParse with
  | false =>
    simpa [statementMessages] using s.serve_prepared script (by simp [FrontendMsg.isParse])
  | true =>
    simpa [statementMessages] using
      serve_parse hs script (hname rfl) oids (by simp [FrontendMsg.isParse])

namespace PgPipeline

/-- What holds between the calls of a connection. -/
structure Inv (s : State) : Prop where
  awake : s.server.skipping = false
  /-- Every prepared statement has a name that was drawn from the counter. -/
  drawn : ∀ e ∈ s.server.prepared, ∃ k < s.pipe.stmtCounter, e.1 = asBytes (stmtName k)

/-- The next name is not in use. -/
theorem Inv.fresh {s : State} (h : Inv s) :
    s.server.knows (asBytes (stmtName s.pipe.stmtCounter)) = false := by
  simp only [Server.knows, List.any_eq_false, decide_eq_true_eq]
  intro e he heq
  obtain ⟨k, hk, hname⟩ := h.drawn e he
  have := stmtName_injective (asBytes_injective (hname.symm.trans heq))
  omega

/-- The server after a call that looks up `sql`. -/
theorem Inv.replies_of_prepares {s : State} (h : Inv s) {l : Label} {sql : String} {n : ℕ}
    (hl : l.op.prepares = some (sql, n)) :
    (s.replies l).2 =
      ⟨if s.pipe.stmtCache.lookup sql = none ∧ (l.script n).error = none then
          (asBytes (stmtName s.pipe.stmtCounter), asBytes sql) :: s.server.prepared
        else s.server.prepared, false⟩ := by
  obtain ⟨params, oids, before, after, hlen, hbefore, hafter, hsent, -⟩ :=
    start_of_prepares hl s.pipe
  have hawake := h.awake
  simp only [State.replies, hsent, Server.serve_append, Server.serve_queries hawake _ hbefore]
  rw [Server.serve_data hawake, Server.serve_queries rfl _ hafter]
  · cases hc : s.pipe.stmtCache.lookup sql with
    | some name => simp [lookupOrAlloc_hit hc]
    | none => simp [(lookupOrAlloc_miss hc).1, hlen]
  · intro hparse
    cases hc : s.pipe.stmtCache.lookup sql with
    | some name => simp [lookupOrAlloc_hit hc] at hparse
    | none => simpa [(lookupOrAlloc_miss hc).1] using h.fresh

theorem Inv.replies_of_not_prepares {s : State} (h : Inv s) {l : Label}
    (hl : l.op.prepares = none) : (s.replies l).2 = s.server :=
  Server.serve_queries h.awake _ (start_of_not_prepares hl s.pipe).1

theorem of_step {s s' : State} {l : Label} (h : system.step s l = some s') :
    s'.pipe = (l.op.start s.pipe).2 ∧ s'.server = (s.replies l).2 := by
  obtain ⟨r, -, rfl⟩ := Option.map_eq_some_iff.1 h
  exact ⟨rfl, rfl⟩

theorem Inv.step {s s' : State} {l : Label} (h : Inv s) (hst : system.step s l = some s') :
    Inv s' := by
  obtain ⟨hpipe, hserver⟩ := of_step hst
  cases hl : l.op.prepares with
  | none =>
    rw [h.replies_of_not_prepares hl] at hserver
    refine ⟨hserver ▸ h.awake, fun e he => ?_⟩
    rw [hpipe, (start_of_not_prepares hl s.pipe).2.1]
    exact h.drawn e (hserver ▸ he)
  | some sn =>
    obtain ⟨sql, n⟩ := sn
    obtain ⟨-, -, -, -, -, -, -, -, hstart⟩ := start_of_prepares hl s.pipe
    rw [h.replies_of_prepares hl] at hserver
    rw [hstart] at hpipe
    refine ⟨by rw [hserver], fun e he => ?_⟩
    rw [hserver] at he
    cases hc : s.pipe.stmtCache.lookup sql with
    | some name =>
      simp only [hc, reduceCtorEq, false_and, if_false] at he
      rw [hpipe, lookupOrAlloc_hit hc]
      exact h.drawn e he
    | none =>
      rw [hpipe, (lookupOrAlloc_miss hc).2]
      split_ifs at he
      · rcases List.mem_cons.1 he with rfl | he
        · exact ⟨_, Nat.lt_succ_self _, rfl⟩
        · obtain ⟨k, hk, hname⟩ := h.drawn e he
          exact ⟨k, by omega, hname⟩
      · obtain ⟨k, hk, hname⟩ := h.drawn e he
        exact ⟨k, by omega, hname⟩

/-- **When a call keeps the cache sound**: exactly if the server accepts its `Parse`, in case it
misses the cache. -/
theorem cacheSound_step_iff {s s' : State} {l : Label} (h : Inv s) (hc : CacheSound s)
    (hst : system.step s l = some s') : CacheSound s' ↔ parseAccepted s l := by
  obtain ⟨hpipe, hserver⟩ := of_step hst
  cases hl : l.op.prepares with
  | none =>
    rw [h.replies_of_not_prepares hl] at hserver
    refine iff_of_true (fun sql name hlook => ?_) (by simp [parseAccepted, hl])
    rw [hpipe] at hlook
    rw [hserver]
    exact hc _ _ ((start_of_not_prepares hl s.pipe).2.2 _ _ hlook)
  | some sn =>
    obtain ⟨sql, n⟩ := sn
    obtain ⟨-, -, -, -, -, -, -, -, hstart⟩ := start_of_prepares hl s.pipe
    rw [h.replies_of_prepares hl] at hserver
    rw [hstart] at hpipe
    simp only [parseAccepted, hl, CacheSound, hpipe, hserver]
    cases hmiss : s.pipe.stmtCache.lookup sql with
    | some name =>
      simp only [lookupOrAlloc_hit hmiss, reduceCtorEq, false_and, if_false, false_implies]
      exact iff_of_true hc trivial
    | none =>
      obtain ⟨hnew, hold⟩ := lookup_of_miss hmiss
      simp only [true_and, forall_const]
      constructor
      · -- the new name is cached, and no older statement has it
        intro hsound
        by_contra herr
        have hmem := hsound _ _ hnew
        rw [if_neg herr] at hmem
        have := h.fresh
        simp only [Server.knows, List.any_eq_false, decide_eq_true_eq] at this
        exact this _ hmem rfl
      · intro herr sql' name hlook
        rw [if_pos herr]
        by_cases hsql : sql' = sql
        · subst hsql
          rw [hnew] at hlook
          cases hlook
          exact List.mem_cons_self
        · exact List.mem_cons_of_mem _ (hc _ _ (hold _ _ hlook hsql))

theorem init_inv : Inv .init := ⟨rfl, by simp [State.init]⟩

/-- **Soundness of the cache.**  If the server accepts the `Parse` of every call that misses the
cache, every cached name is prepared for its SQL, and a call that sends no `Parse` binds a statement
that exists. -/
theorem cache_sound {s : State} (h : (system.guard parseAccepted).Reachable .init s) :
    CacheSound s ∧ ∀ sql name, (s.pipe.lookupOrAlloc sql).1 = (name, false) →
      (asBytes name, asBytes sql) ∈ s.server.prepared := by
  have hinv : Inv s ∧ CacheSound s := h.guard_invariant (I := fun s => Inv s ∧ CacheSound s)
    ⟨init_inv, by simp [CacheSound, State.init, new]⟩
    fun s l s' hs hg hst => ⟨hs.1.step hst, (cacheSound_step_iff hs.1 hs.2 hst).2 hg⟩
  refine ⟨hinv.2, fun sql name hlook => hinv.2 sql name ?_⟩
  cases hc : s.pipe.stmtCache.lookup sql with
  | some name' => rw [lookupOrAlloc_hit hc] at hlook; cases hlook; rfl
  | none => rw [(lookupOrAlloc_miss hc).1] at hlook; cases hlook

/-- The server carries a message out. -/
def carriedOut : Verdict := ⟨[], by simp, none, byte 'I'⟩

/-- The server refuses a message. -/
def refused (code : String) : Verdict := ⟨[], by simp, some { code := code }, byte 'I'⟩

/-- The SQL of a table that does not exist yet. -/
def itemsSql : String := "SELECT n FROM items"

theorem cache_sound_accepted : ∃ s, (system.guard parseAccepted).Reachable .init s ∧
    s.server.prepared = [(asBytes "s0", asBytes itemsSql)] ∧ CacheSound s := by
  have h : (system.guard parseAccepted).Reachable .init _ := LTS.reachable_of_exec
    (show (system.guard parseAccepted).exec .init [⟨.query itemsSql [] [], fun _ => carriedOut⟩,
      ⟨.query itemsSql [] [], fun _ => carriedOut⟩] = some _ from rfl)
  exact ⟨_, h, rfl, (cache_sound h).1⟩

/-- A query whose `Parse` is refused leaves its name in the cache: the next call for the SQL sends
no `Parse`, and binds a statement that does not exist. -/
theorem refused_parse_stays_cached : ∃ s, system.Reachable .init s ∧ ¬ CacheSound s ∧
    (s.pipe.lookupOrAlloc itemsSql).1 = ("s0", false) ∧ s.server.prepared = [] := by
  have h : system.Reachable .init _ := LTS.reachable_of_exec
    (show system.exec .init [⟨.query itemsSql [] [],
      fun n => if n = 0 then refused "42P01" else carriedOut⟩] = some _ from rfl)
  refine ⟨_, h, fun hc => ?_, rfl, rfl⟩
  exact absurd (hc itemsSql "s0" rfl) List.not_mem_nil

/-! ### The responses -/

/-- What `simple_query` makes of the messages of a group. -/
def firstErrorOf (firstError : Option PgError) : List BackendMsg → Except PgWireError Answer
  | [] => match firstError with
    | some err => .error (.pg err)
    | none => .ok .unit
  | .errorResponse fields :: ms => firstErrorOf (firstError <|> some fields) ms
  | _ :: ms => firstErrorOf firstError ms

/-- `simple_query` reads one group. -/
theorem drainFirstError_eq (firstError : Option PgError) :
    drainFirstError firstError = Read.ofGroup (firstErrorOf firstError) := by
  funext rs
  induction rs generalizing firstError with
  | nil => rfl
  | cons r rs ih =>
    rcases r with e | m
    · rfl
    · cases hm : m.isReady
      · simp only [Read.ofGroup, Collect.responseGroup_cons hm, Option.map_map]
        cases m with
        | readyForQuery status => cases hm
        | _ =>
          simp only [drainFirstError, ih, Read.ofGroup]
          congr 1
          funext group
          obtain ⟨g, rest⟩ := group
          cases g <;> rfl
      · cases m <;> simp [BackendMsg.isReady] at hm
        cases firstError <;> rfl

section Consumed

variable {α : Type} {rs rest : List ReadResult} {res : Except PgWireError Answer}

/-- The group that a reported result has read first. -/
theorem group_of_reported {f : List BackendMsg → Except PgWireError α} {k : α → Read Answer}
    (h : (Read.ofGroup f >>= k) rs = some (res, rest)) (hrs : FromSocket rs)
    (hres : reported res = true) :
    ∃ msgs rs', responseGroup rs = some (.ok msgs, rs') ∧ FromSocket rs' ∧
      (match f msgs with
        | .ok a => k a rs'
        | .error e => some (.error e, rs')) = some (res, rest) := by
  cases hg : responseGroup rs with
  | none =>
    have hnone : (Read.ofGroup f >>= k) rs = none := by
      change Read.bind (Read.ofGroup f) k rs = none
      simp [Read.bind, Read.ofGroup, hg]
    rw [hnone] at h
    cases h
  | some g =>
    obtain ⟨e | msgs, rs'⟩ := g
    · have herr : (Read.ofGroup f >>= k) rs = some (.error e, rs') := by
        change Read.bind (Read.ofGroup f) k rs = _
        simp [Read.bind, Read.ofGroup, hg, Except.bind]
      rw [herr] at h
      cases h
      -- only the server's errors are reported, and the socket has none
      cases e <;> simp only [reported, Bool.false_eq_true] at hres
      exact absurd (responseGroup_error hg) (hrs _)
    · obtain ⟨pre, rfl, -⟩ := readies_group hg
      exact ⟨msgs, rs', rfl, fun e he => hrs e (List.mem_append_right _ he),
        (Read.bind_ofGroup hg f k).symm.trans h⟩

/-- A call that only reads one group. -/
theorem readies_of_one {r : Read α} {f : List BackendMsg → Except PgWireError α}
    (hr : r = Read.ofGroup f) {g : α → Answer}
    (h : (r >>= fun a => pure (g a)) rs = some (res, rest)) (hrs : FromSocket rs)
    (hres : reported res = true) : ∃ pre, rs = pre ++ rest ∧ readies pre = 1 := by
  subst hr
  obtain ⟨msgs, rs', hg, -, hrest⟩ := group_of_reported h hrs hres
  obtain ⟨pre, rfl, hpre⟩ := readies_group hg
  refine ⟨pre, ?_, hpre⟩
  cases hf : f msgs <;> rw [hf] at hrest <;> cases hrest <;> rfl

/-- A call that reads a group whatever it says, and then another one. -/
theorem readies_of_two {r : Read α} {f : List BackendMsg → Except PgWireError α}
    (hr : r = Read.ofGroup f) {g : α → Answer}
    (h : (do
      WireConn.drainUntilReady
      let a ← r
      pure (g a)) rs = some (res, rest)) (hrs : FromSocket rs) (hres : reported res = true) :
    ∃ pre, rs = pre ++ rest ∧ readies pre = 2 := by
  rw [WireConn.drainUntilReady_eq] at h
  obtain ⟨msgs, rs', hg, hrs', hrest⟩ := group_of_reported h hrs hres
  obtain ⟨pre, rfl, hpre⟩ := readies_group hg
  obtain ⟨pre', rfl, hpre'⟩ := readies_of_one hr hrest hrs' hres
  exact ⟨pre ++ pre', by simp, by rw [readies_append, hpre, hpre']⟩

/-- A transaction reads all three groups, unless the one of its query has an error. -/
theorem readies_of_transaction
    (h : (do
      WireConn.drainUntilReady
      let (rows, _tag) ← WireConn.collectRows
      WireConn.drainUntilReady
      pure (Answer.rows rows)) rs = some (res, rest))
    (hrs : FromSocket rs) (hres : reported res = true) :
    ∃ pre, rs = pre ++ rest ∧ readies pre = if queryFailed rs = true then 2 else 3 := by
  rw [WireConn.drainUntilReady_eq, WireConn.collectRows_eq] at h
  obtain ⟨setup, rs₁, hg₁, hrs₁, h₁⟩ := group_of_reported h hrs hres
  obtain ⟨data, rs₂, hg₂, hrs₂, h₂⟩ := group_of_reported h₁ hrs₁ hres
  obtain ⟨pre₁, rfl, hpre₁⟩ := readies_group hg₁
  obtain ⟨pre₂, rfl, hpre₂⟩ := readies_group hg₂
  have hfail : queryFailed (pre₁ ++ (pre₂ ++ rs₂)) = !errorFree data := by
    simp [queryFailed, hg₁, hg₂]
  have hok := WireConn.rowsOf_isOk [] "" data
  cases hdata : WireConn.rowsOf [] "" data with
  | error e =>
    rw [hdata] at h₂ hok
    cases h₂
    have herr : errorFree data = false := by simpa using hok
    refine ⟨pre₁ ++ pre₂, by simp, ?_⟩
    rw [hfail, herr, readies_append, hpre₁, hpre₂]
    rfl
  | ok r =>
    rw [hdata] at h₂ hok
    have herr : errorFree data = true := by simpa using hok
    obtain ⟨pre₃, rfl, hpre₃⟩ := readies_of_one rfl (g := fun _ => .rows r.1) h₂ hrs₂ hres
    refine ⟨pre₁ ++ pre₂ ++ pre₃, by simp, ?_⟩
    rw [hfail, herr, readies_append, readies_append, hpre₁, hpre₂, hpre₃]
    rfl

end Consumed

@[simp] theorem requests_query (sql : Bytes) (ms : List FrontendMsg) :
    requests (.query sql :: ms) = requests ms + 1 := by simp [requests]

@[simp] theorem requests_nil : requests [] = 0 := rfl

@[simp] theorem requests_append (ms ms' : List FrontendMsg) :
    requests (ms ++ ms') = requests ms + requests ms' := List.countP_append

@[simp] theorem requests_dataMessages (sql : String) (params : List (Option Bytes))
    (oids : List Oid) (name : Bytes) (needsParse : Bool) :
    requests (dataMessages sql params oids name needsParse) = 1 := by
  cases needsParse <;> rfl

/-- A reported result has read a `ReadyForQuery` for every request, unless the query of a
transaction failed. -/
theorem readies_of_read (op : Op) (p : PgPipeline) {rs rest : List ReadResult}
    {res : Except PgWireError Answer} (h : (op.start p).1.read rs = some (res, rest))
    (hrs : FromSocket rs) (hres : reported res = true) :
    ∃ pre, rs = pre ++ rest ∧
      (readies pre = requests (op.start p).1.sent ↔
        ¬ (op.isTransaction = true ∧ queryFailed rs = true)) := by
  cases op with
  | query sql params oids =>
    obtain ⟨pre, rfl, hpre⟩ := readies_of_one WireConn.collectRows_eq (g := fun r => .rows r.1)
      h hrs hres
    exact ⟨pre, rfl, by simp [hpre, Op.start, query, Op.isTransaction]⟩
  | simpleQueryRows sql =>
    obtain ⟨pre, rfl, hpre⟩ := readies_of_one WireConn.collectRows_eq
      (g := fun r => .tagged r.1 r.2) h hrs hres
    exact ⟨pre, rfl, by simp [hpre, Op.start, simpleQueryRows, Op.isTransaction]⟩
  | simpleQuery sql =>
    have hread := Read.bind_pure_eq (drainFirstError none)
    obtain ⟨pre, rfl, hpre⟩ := readies_of_one (drainFirstError_eq none) (g := id)
      ((congrFun hread rs).trans h) hrs hres
    exact ⟨pre, rfl, by simp [hpre, Op.start, simpleQuery, Op.isTransaction]⟩
  | pipelineWithSetup setupSql querySql params oids =>
    obtain ⟨pre, rfl, hpre⟩ := readies_of_two WireConn.collectRows_eq (g := fun r => .rows r.1)
      h hrs hres
    exact ⟨pre, rfl, by simp [hpre, Op.start, pipelineWithSetup, Op.isTransaction]⟩
  | pipelineTransaction setupSql querySql params oids =>
    obtain ⟨pre, rfl, hpre⟩ := readies_of_transaction h hrs hres
    refine ⟨pre, rfl, ?_⟩
    have hsent : requests (pipelineTransaction setupSql querySql params oids p).1.sent = 3 := by
      simp [pipelineTransaction]
    rw [Op.start, hsent, hpre]
    cases queryFailed (pre ++ rest) <;> simp [Op.isTransaction]
  | clearCache =>
    cases h
    exact ⟨[], rfl, by simp [readies, Op.start, clearCache, Op.isTransaction]⟩

/-- The messages are `n` complete groups. -/
def IsGroups : ℕ → List BackendMsg → Prop
  | 0, ms => ms = []
  | n + 1, ms => ∃ msgs r ms', (∀ m ∈ msgs, BackendMsg.isReady m = false) ∧
      BackendMsg.isReady r = true ∧ ms = msgs ++ r :: ms' ∧ IsGroups n ms'

theorem IsGroups.append {j n : ℕ} {ms ms' : List BackendMsg} (h : IsGroups j ms)
    (h' : IsGroups n ms') : IsGroups (j + n) (ms ++ ms') := by
  induction j generalizing ms with
  | zero => cases h; simpa using h'
  | succ j ih =>
    obtain ⟨msgs, r, rest, hmsgs, hr, rfl, hrest⟩ := h
    rw [Nat.add_right_comm]
    exact ⟨msgs, r, rest ++ ms', hmsgs, hr, by simp, ih hrest⟩

theorem IsGroups.read {n : ℕ} {ms : List BackendMsg} (h : IsGroups (n + 1) ms) :
    ∃ msgs ms', responseGroup (ms.map .ok) = some (.ok msgs, ms'.map .ok) ∧ IsGroups n ms' := by
  obtain ⟨msgs, r, ms', hmsgs, hr, rfl, h⟩ := h
  exact ⟨msgs, ms', by simpa using responseGroup_append hr hmsgs (ms'.map .ok), h⟩

/-- A server that does not skip answers the messages of a statement with one group, and does not
skip afterwards. -/
theorem groups_of_data (s : Server) (script : Script) (sql : String)
    (params : List (Option Bytes)) (oids : List Oid) (name : Bytes) (needsParse : Bool) :
    IsGroups 1 (s.serve script (dataMessages sql params oids name needsParse)).1 ∧
    (s.serve script (dataMessages sql params oids name needsParse)).2.skipping = false := by
  obtain ⟨⟨msgs, r, hmsgs, hr, heq⟩, hskip⟩ :=
    s.serve_sync script (statementMessages_extended sql params oids name needsParse)
  rw [dataMessages_eq, heq, hskip]
  exact ⟨⟨msgs, r, [], hmsgs, hr, rfl, rfl⟩, rfl⟩

/-- A server that does not skip answers every query with one group. -/
theorem groups_of_queries {s : Server} (hs : s.skipping = false) (script : Script)
    {ms : List FrontendMsg} (hms : ∀ m ∈ ms, FrontendMsg.isQuery m = true) :
    IsGroups (requests ms) (s.serve script ms).1 := by
  induction ms generalizing script with
  | nil => rfl
  | cons m ms ih =>
    have hm := hms m List.mem_cons_self
    have ih := ih (fun n => script (n + 1)) fun m hm => hms m (List.mem_cons_of_mem _ hm)
    cases m <;> cases hm
    obtain ⟨msgs, r, hmsgs, hr, hfinish⟩ := Server.finish_group (script 0)
    rw [requests_query, Server.serve_cons, Server.handle, hs, if_neg (by simp), hfinish]
    exact ⟨msgs, r, _, hmsgs, hr, by simp, ih⟩

/-- The server answers a call with as many groups as the call has requests. -/
theorem Inv.groups {s : State} (h : Inv s) (l : Label) :
    IsGroups (requests (l.op.start s.pipe).1.sent) (s.replies l).1 := by
  have hawake := h.awake
  cases hl : l.op.prepares with
  | none => exact groups_of_queries hawake _ (start_of_not_prepares hl s.pipe).1
  | some sn =>
    obtain ⟨params, oids, before, after, -, hbefore, hafter, hsent, -⟩ :=
      start_of_prepares hl s.pipe
    simp only [State.replies, hsent, requests_append, requests_dataMessages, Server.serve_append]
    rw [Server.serve_queries hawake _ hbefore]
    refine ((groups_of_queries hawake _ hbefore).append ?_).append ?_
    · exact (groups_of_data _ _ _ _ _ _ _).1
    · exact groups_of_queries (groups_of_data _ _ _ _ _ _ _).2 _ hafter

section Unread

variable {α : Type} {r : Read α} {f : List BackendMsg → Except PgWireError α} {ms : List BackendMsg}
  {rest : List ReadResult} {res : Except PgWireError Answer}

/-- A call that reads one group leaves nothing of it. -/
theorem rest_of_one (hr : r = Read.ofGroup f) {g : α → Answer} (hms : IsGroups 1 ms)
    (h : (r >>= fun a => pure (g a)) (ms.map .ok) = some (res, rest)) : rest = [] := by
  subst hr
  obtain ⟨msgs, ms', hg, hms'⟩ := hms.read
  rw [Read.bind_ofGroup hg, hms'] at h
  cases hf : f msgs <;> rw [hf] at h <;> cases h <;> rfl

/-- A call that reads two groups leaves nothing of them. -/
theorem rest_of_two (hr : r = Read.ofGroup f) {g : α → Answer} (hms : IsGroups 2 ms)
    (h : (do
      WireConn.drainUntilReady
      let a ← r
      pure (g a)) (ms.map .ok) = some (res, rest)) : rest = [] := by
  obtain ⟨msgs, ms', hg, hms'⟩ := hms.read
  rw [WireConn.drainUntilReady_eq, Read.bind_ofGroup hg] at h
  exact rest_of_one hr hms' h

/-- A transaction whose query succeeds leaves nothing of its three groups. -/
theorem rest_of_transaction (hms : IsGroups 3 ms) (hok : queryFailed (ms.map .ok) = false)
    (h : (do
      WireConn.drainUntilReady
      let (rows, _tag) ← WireConn.collectRows
      WireConn.drainUntilReady
      pure (Answer.rows rows)) (ms.map .ok) = some (res, rest)) : rest = [] := by
  obtain ⟨setup, ms₁, hg₁, hms₁⟩ := hms.read
  obtain ⟨data, ms₂, hg₂, hms₂⟩ := hms₁.read
  have herr : errorFree data = true := by simpa [queryFailed, hg₁, hg₂] using hok
  obtain ⟨rows, hdata⟩ := (WireConn.rowsOf_isOk [] "" data).2 herr
  rw [WireConn.drainUntilReady_eq, WireConn.collectRows_eq, Read.bind_ofGroup hg₁] at h
  have h₂ := (Read.bind_ofGroup hg₂ (WireConn.rowsOf [] "") _).symm.trans h
  rw [hdata] at h₂
  exact rest_of_one rfl (g := fun _ => .rows rows.1) hms₂ h₂

end Unread

/-- A call whose query succeeds leaves nothing unread of the groups that answer it. -/
theorem read_groups (op : Op) (p : PgPipeline) {ms : List BackendMsg}
    {rest : List ReadResult} {res : Except PgWireError Answer}
    (hms : IsGroups (requests (op.start p).1.sent) ms)
    (hok : ¬ (op.isTransaction = true ∧ queryFailed (ms.map .ok) = true))
    (h : (op.start p).1.read (ms.map .ok) = some (res, rest)) : rest = [] := by
  cases op with
  | query sql params oids =>
    exact rest_of_one WireConn.collectRows_eq (g := fun r => .rows r.1)
      (by simpa [Op.start, query] using hms) h
  | simpleQuery sql =>
    have hread := Read.bind_pure_eq (drainFirstError none)
    exact rest_of_one (drainFirstError_eq none) (g := id)
      (by simpa [Op.start, simpleQuery] using hms) ((congrFun hread _).trans h)
  | simpleQueryRows sql =>
    exact rest_of_one WireConn.collectRows_eq (g := fun r => .tagged r.1 r.2)
      (by simpa [Op.start, simpleQueryRows] using hms) h
  | pipelineWithSetup setupSql querySql params oids =>
    exact rest_of_two WireConn.collectRows_eq (g := fun r => .rows r.1)
      (by simpa [Op.start, pipelineWithSetup] using hms) h
  | pipelineTransaction setupSql querySql params oids =>
    exact rest_of_transaction (by simpa [Op.start, pipelineTransaction] using hms)
      (by simpa [Op.isTransaction] using hok) h
  | clearCache =>
    have hnil : ms = [] := hms
    subst hnil
    cases h
    rfl

/-- **Synchronisation of the responses.**  A call that reports a result has read one
`ReadyForQuery` for every request it has sent, unless it is a transaction whose query failed; and
as long as no query of a transaction fails, nothing is left unread between the calls, so that every
call reads its own response. -/
theorem readies_consumed (op : Op) (p : PgPipeline) {rs rest : List ReadResult}
    {res : Except PgWireError Answer} (h : (op.start p).1.read rs = some (res, rest))
    (hrs : FromSocket rs) (hres : reported res = true) :
    (∃ pre, rs = pre ++ rest ∧
      (readies pre = requests (op.start p).1.sent ↔
        ¬ (op.isTransaction = true ∧ queryFailed rs = true))) ∧
    ∀ s, (system.guard answered).Reachable .init s → s.input = [] := by
  refine ⟨readies_of_read op p h hrs hres, fun s h => ?_⟩
  have hinv : Inv s ∧ s.input = [] := h.guard_invariant (I := fun s => Inv s ∧ s.input = [])
    ⟨init_inv, rfl⟩ fun s l s' hs hg hst => ?_
  · exact hinv.2
  · refine ⟨hs.1.step hst, ?_⟩
    obtain ⟨⟨res, rest⟩, hread, rfl⟩ := Option.map_eq_some_iff.1 hst
    have hin : s.incoming l = (s.replies l).1.map .ok := by simp [State.incoming, hs.2]
    rw [hin] at hread
    simp only [answered, hin] at hg
    exact read_groups l.op s.pipe (hs.1.groups l) hg hread

theorem readies_consumed_transaction :
    ∃ pre, [.ok (.readyForQuery (byte 'T')), .ok (.readyForQuery (byte 'T')),
        .ok (.readyForQuery (byte 'I'))] = pre ++ ([] : List ReadResult) ∧
      (readies pre = requests ((Op.pipelineTransaction "BEGIN" itemsSql [] []).start new).1.sent ↔
        ¬ ((Op.pipelineTransaction "BEGIN" itemsSql [] []).isTransaction = true ∧
          queryFailed [.ok (.readyForQuery (byte 'T')), .ok (.readyForQuery (byte 'T')),
            .ok (.readyForQuery (byte 'I'))] = true)) :=
  (readies_consumed (.pipelineTransaction "BEGIN" itemsSql [] []) new
    (show _ = some (.ok (.rows []), []) from rfl) (by intro e; simp) rfl).1

/-- A transaction whose query fails leaves the response to its `COMMIT` unread, for the next call to
take as its own. -/
theorem failed_query_leaves_commit :
    (¬ ∀ (op : Op) (p : PgPipeline) (rs rest : List ReadResult) (res : Except PgWireError Answer),
      (op.start p).1.read rs = some (res, rest) → FromSocket rs → reported res = true →
      ∃ pre, rs = pre ++ rest ∧ readies pre = requests (op.start p).1.sent) ∧
    ∃ s, system.Reachable .init s ∧ s.input = [.ok (.readyForQuery (byte 'I'))] := by
  constructor
  · intro h
    obtain ⟨pre, hpre, hcount⟩ := h (.pipelineTransaction "BEGIN" itemsSql [] []) new
      [.ok (.readyForQuery (byte 'T')), .ok (.errorResponse { code := "42P01" }),
        .ok (.readyForQuery (byte 'E')), .ok (.readyForQuery (byte 'I'))]
      [.ok (.readyForQuery (byte 'I'))] (.error (.pg { code := "42P01" })) rfl
      (by intro e; simp) rfl
    have hthree : pre = [.ok (.readyForQuery (byte 'T')), .ok (.errorResponse { code := "42P01" }),
        .ok (.readyForQuery (byte 'E'))] :=
      List.append_cancel_right (hpre.symm.trans rfl)
    subst hthree
    revert hcount
    decide
  · exact ⟨_, LTS.reachable_of_exec (show system.exec .init
      [⟨.pipelineTransaction "BEGIN" itemsSql [] [],
        fun n => if n = 1 then refused "42P01" else carriedOut⟩] = some _ from rfl), rfl⟩

end PgPipeline

end Resolute
