import Resolute.Client.Prepared
import Resolute.Codec.Basic
import Resolute.LTS.Basic
import Resolute.Pool.AsyncWire

/-!
# The reset that is skipped

`AsyncPoolable::reset` sends `DISCARD ALL` only to a connection that is flagged as state-mutated.
Some methods of `PooledClient` raise the flag before they send anything, and so does the reader task
when it reads a `ReadyForQuery` that does not report an idle session; `query` and `execute` leave it
alone, whatever their SQL does to the session.

A `Tenancy` follows a connection from its checkout to its return, with the `Settings` of its
session.  What a statement does to the session is arbitrary.  The connection does nothing that an
`AsyncPoolable` does not do (`wire_step`).  `skip_invisible_iff` says in which runs the next holder
cannot tell whether the reset was skipped, in terms of the steps alone: which of them raise the
flag, which end a transaction and which statements they carry out.
-/

namespace Resolute.Pool

open Prepared (SqlParam)

/-! ### Sessions -/

/-- The settings of a session, as far as they are not those of a new one. -/
structure Settings where
  /-- The run-time parameters that are set. -/
  parameters : List (String × String) := []
  /-- The advisory locks that the session holds. -/
  advisoryLocks : List ℤ := []
  tempTables : List String := []
  /-- The channels that the session listens to. -/
  channels : List String := []
  deriving DecidableEq

/-- The settings after a `DISCARD ALL`. -/
def Settings.discardAll (_ : Settings) : Settings := {}

/-- A statement: what it makes of the transaction status and of the settings. -/
structure Statement where
  request : Request
  effect : TxStatus → Settings → Settings

/-- The session after a statement. -/
def Statement.run (x : TxStatus × Settings) (s : Statement) : TxStatus × Settings :=
  (s.request x.1, s.effect x.1 x.2)

/-- What the server makes of the SQL that it is given. -/
abbrev Server := String → List SqlParam → Statement

/-! ### The methods of `PooledClient` -/

/-- What a method does with the connection. -/
inductive Action where
  | markStateMutated
  | submit (s : Statement)

/-- The parameter `key` of the advisory locks. -/
def keyParam (key : Int64) : SqlParam := .value (Scalar.oid .i64) (Scalar.bytes .i64 key)

/-- `IsolationLevel`. -/
inductive IsolationLevel where
  | readCommitted
  | repeatableRead
  | serializable
  deriving DecidableEq, Repr

/-- `IsolationLevel::as_sql`. -/
def IsolationLevel.asSql : IsolationLevel → String
  | readCommitted => "READ COMMITTED"
  | repeatableRead => "REPEATABLE READ"
  | serializable => "SERIALIZABLE"

namespace PooledClient

variable (server : Server)

def query (sql : String) (params : List SqlParam) : List Action := [.submit (server sql params)]

def execute (sql : String) (params : List SqlParam) : List Action := [.submit (server sql params)]

def simpleQuery (sql : String) : List Action := [.markStateMutated, .submit (server sql [])]

def copyIn (copySql : String) : List Action := [.markStateMutated, .submit (server copySql [])]

def copyOut (copySql : String) : List Action := [.markStateMutated, .submit (server copySql [])]

def advisoryLock (key : Int64) : List Action :=
  .markStateMutated :: execute server "SELECT pg_advisory_lock($1)" [keyParam key]

def tryAdvisoryLock (key : Int64) : List Action :=
  .markStateMutated :: query server "SELECT pg_try_advisory_lock($1)" [keyParam key]

def advisoryUnlock (key : Int64) : List Action :=
  query server "SELECT pg_advisory_unlock($1)" [keyParam key]

def advisoryXactLock (key : Int64) : List Action :=
  execute server "SELECT pg_advisory_xact_lock($1)" [keyParam key]

def tryAdvisoryXactLock (key : Int64) : List Action :=
  query server "SELECT pg_try_advisory_xact_lock($1)" [keyParam key]

def begin : List Action := simpleQuery server "BEGIN"

def beginWith (level : IsolationLevel) : List Action :=
  simpleQuery server s!"BEGIN ISOLATION LEVEL {level.asSql}"

end PooledClient

namespace PooledTransaction

variable (server : Server)

def commit : List Action := PooledClient.simpleQuery server "COMMIT"

def rollback : List Action := PooledClient.simpleQuery server "ROLLBACK"

end PooledTransaction

/-- The methods; `query` and `execute` of a `PooledTransaction` are those of its client. -/
inductive Method where
  | query (sql : String) (params : List SqlParam)
  | execute (sql : String) (params : List SqlParam)
  | simpleQuery (sql : String)
  | copyIn (copySql : String)
  | copyOut (copySql : String)
  | advisoryLock (key : Int64)
  | tryAdvisoryLock (key : Int64)
  | advisoryUnlock (key : Int64)
  | advisoryXactLock (key : Int64)
  | tryAdvisoryXactLock (key : Int64)
  | begin
  | beginWith (level : IsolationLevel)
  | commit
  | rollback

namespace Method

/-- What the method does. -/
def actions (server : Server) : Method → List Action
  | query sql params => PooledClient.query server sql params
  | execute sql params => PooledClient.execute server sql params
  | simpleQuery sql => PooledClient.simpleQuery server sql
  | copyIn copySql => PooledClient.copyIn server copySql
  | copyOut copySql => PooledClient.copyOut server copySql
  | advisoryLock key => PooledClient.advisoryLock server key
  | tryAdvisoryLock key => PooledClient.tryAdvisoryLock server key
  | advisoryUnlock key => PooledClient.advisoryUnlock server key
  | advisoryXactLock key => PooledClient.advisoryXactLock server key
  | tryAdvisoryXactLock key => PooledClient.tryAdvisoryXactLock server key
  | begin => PooledClient.begin server
  | beginWith level => PooledClient.beginWith server level
  | commit => PooledTransaction.commit server
  | rollback => PooledTransaction.rollback server

/-- The number of `PooledTransaction`s after `n` actions of the method. -/
def transactions (n open' : ℕ) : Method → Option ℕ
  -- the transaction is there when `BEGIN` is answered, so not before it is sent
  | begin | beginWith _ => some (if 2 ≤ n then open' + 1 else open')
  | commit | rollback => if open' = 0 ∨ n = 0 then none else some (open' - 1)
  | _ => some open'

end Method

/-! ### A connection and its holder -/

/-- A connection that is checked out, with the session of the server behind it. -/
structure Tenancy where
  status : TxStatus
  settings : Settings
  /-- The statements that the server has not carried out yet, oldest first. -/
  queue : List Statement
  /-- The statuses of the answers that the reader task has not read yet, oldest first. -/
  unread : List TxStatus
  stateMutated : Bool
  broken : Bool
  alive : Bool
  /-- The number of `PooledTransaction`s that there are. -/
  transactions : ℕ

/-- What happens. -/
inductive TenancyEvent where
  /-- The holder calls a method and drops its future after `n` actions, unless these are all. -/
  | call (server : Server) (m : Method) (n : ℕ)
  /-- A `PooledTransaction` is dropped; `hasRoom` says whether the channel has room. -/
  | dropTransaction (server : Server) (hasRoom : Bool)
  /-- The `Close` of a statement that has fallen out of the cache is queued. -/
  | closeEvicted
  /-- The server carries out the oldest statement. -/
  | serve
  /-- The reader task reads the oldest answer. -/
  | read (status : TxStatus)
  /-- The writer task or the reader task exits. -/
  | exit

namespace Tenancy

/-- A new connection, when it is handed out. -/
def new : Tenancy := ⟨.idle, {}, [], [], false, false, true, 0⟩

/-- The connection by itself. -/
def wire (t : Tenancy) : AsyncPoolable where
  status := t.status
  queue := t.queue.map (·.request)
  unread := t.unread
  discard := .none
  stateMutated := t.stateMutated
  broken := t.broken
  alive := t.alive

/-- One action of a method. -/
def act (t : Tenancy) : Action → Tenancy
  | .markStateMutated => { t with stateMutated := true }
  | .submit s => { t with queue := t.queue ++ [s] }

/-- `Drop` of `PooledTransaction`. -/
def dropTransaction (server : Server) (hasRoom : Bool) (t : Tenancy) : Tenancy :=
  if !t.alive then t
  else if hasRoom then t.act (.submit (server "ROLLBACK" []))
  else { t with broken := true }

/-- The session, when the server has carried out what is queued. -/
def session (t : Tenancy) : TxStatus × Settings :=
  t.queue.foldl Statement.run (t.status, t.settings)

/-- The settings that the next holder sees, if they are not reset. -/
def seen (t : Tenancy) : Settings := t.session.2

/-- The connection is returned now, and goes back to the pool without a `DISCARD ALL`. -/
def skipsReset (t : Tenancy) : Bool :=
  !t.wire.hasPendingData &&
    match t.wire.startReset with
    | .done ok _ => ok
    | .waiting _ => false

/-- The connection can go back to the pool. -/
def usable (t : Tenancy) : Bool := t.alive && !t.broken

end Tenancy

/-- The `Close` of a statement does nothing to the settings. -/
def closeStatement : Statement := ⟨id, fun _ => id⟩

/-- A connection from its checkout to its return. -/
def tenancy : LTS Tenancy TenancyEvent where
  step t
  | .call server m n =>
    (m.transactions n t.transactions).map fun k =>
      ((m.actions server).take n).foldl Tenancy.act { t with transactions := k }
  | .dropTransaction server hasRoom =>
    if t.transactions = 0 then none
    else some ({ t with transactions := t.transactions - 1 }.dropTransaction server hasRoom)
  | .closeEvicted => some (t.act (.submit closeStatement))
  | .serve => match t.queue with
    | s :: rest => some { t with
        status := s.request t.status
        settings := s.effect t.status t.settings
        queue := rest
        unread := t.unread ++ [s.request t.status] }
    | [] => none
  | .read status => match t.unread with
    | status' :: rest =>
      if status = status' then some { t with
        unread := rest
        stateMutated := (t.wire.noteRfqStatus status).stateMutated }
      else none
    | [] => none
  | .exit => some { t with alive := false }

namespace Action

/-- The statement that is submitted. -/
def statement : Action → Option Statement
  | markStateMutated => none
  | submit s => some s

/-- The action raises the flag. -/
def marks : Action → Bool
  | markStateMutated => true
  | submit _ => false

end Action

namespace TenancyEvent

/-- The step flags the connection as state-mutated. -/
def raises : TenancyEvent → Bool
  | call server m n => ((m.actions server).take n).any Action.marks
  | read status => status ≠ .idle
  | _ => false

/-- After the step nobody uses the connection again. -/
def ends : TenancyEvent → Bool
  | exit => true
  | dropTransaction _ hasRoom => !hasRoom
  | _ => false

/-- The statements that the step submits. -/
def statements : TenancyEvent → List Statement
  | call server m n => ((m.actions server).take n).filterMap Action.statement
  | dropTransaction server hasRoom => if hasRoom then [server "ROLLBACK" []] else []
  | closeEvicted => [closeStatement]
  | _ => []

end TenancyEvent

/-! ### The connection does what an `AsyncPoolable` does -/

section Wire

/-- Something happens to the connection. -/
def WireStep (c c' : AsyncPoolable) : Prop := ∃ a, c.use a = some c' ∨ c.drift a = some c'

theorem wire_act (t : Tenancy) (a : Action) : WireStep t.wire (t.act a).wire := by
  cases a with
  | markStateMutated => exact ⟨.markStateMutated, .inl rfl⟩
  | submit s =>
    exact ⟨.submit s.request, .inl (by simp [Tenancy.act, Tenancy.wire, AsyncPoolable.use])⟩

theorem wire_acts (as : List Action) (t : Tenancy) :
    Relation.ReflTransGen WireStep t.wire (as.foldl Tenancy.act t).wire := by
  induction as generalizing t with
  | nil => exact .refl
  | cons a as ih => exact .head (wire_act t a) (ih (t.act a))

/-- **A connection that is checked out does nothing that an `AsyncPoolable` does not do.** -/
theorem wire_step {t t' : Tenancy} {l : TenancyEvent} (h : tenancy.step t l = some t') :
    Relation.ReflTransGen WireStep t.wire t'.wire := by
  cases l with
  | call server m n =>
    obtain ⟨k, -, rfl⟩ := Option.map_eq_some_iff.1 h
    exact wire_acts _ { t with transactions := k }
  | dropTransaction server hasRoom =>
    simp only [tenancy] at h
    split_ifs at h
    cases h
    simp only [Tenancy.dropTransaction]
    split_ifs
    · exact .refl
    · exact .single (wire_act { t with transactions := t.transactions - 1 } _)
    · exact .single ⟨.markBroken, .inl rfl⟩
  | closeEvicted =>
    cases h
    exact .single (wire_act t _)
  | serve =>
    simp only [tenancy] at h
    split at h
    case h_1 s rest hq =>
      cases h
      exact .single ⟨.serve, .inr (by simp [AsyncPoolable.drift, Tenancy.wire, hq])⟩
    · cases h
  | read status =>
    simp only [tenancy] at h
    split at h
    case h_1 status' rest hu =>
      split_ifs at h with hs
      cases h
      subst hs
      exact .single ⟨.read, .inr (by simp [AsyncPoolable.drift, Tenancy.wire, hu,
        AsyncPoolable.noteRfqStatus])⟩
    · cases h
  | exit =>
    cases h
    exact .single ⟨.exit, .inr rfl⟩

end Wire

/-! ### What a step does -/

section Step

theorem stateMutated_acts (as : List Action) (t : Tenancy) :
    (as.foldl Tenancy.act t).stateMutated = (t.stateMutated || as.any Action.marks) := by
  induction as generalizing t with
  | nil => simp
  | cons a as ih => cases a <;> simp [ih, Tenancy.act, Action.marks]

theorem usable_acts (as : List Action) (t : Tenancy) :
    (as.foldl Tenancy.act t).usable = t.usable := by
  induction as generalizing t with
  | nil => rfl
  | cons a as ih => cases a <;> exact ih _

theorem session_acts (as : List Action) (t : Tenancy) :
    (as.foldl Tenancy.act t).session =
      (as.filterMap Action.statement).foldl Statement.run t.session := by
  induction as generalizing t with
  | nil => rfl
  | cons a as ih =>
    cases a with
    | markStateMutated => exact ih _
    | submit s =>
      rw [List.foldl_cons, ih]
      simp [Tenancy.act, Tenancy.session, Action.statement]

/-- Reading an answer raises the flag if the session is not idle. -/
theorem stateMutated_noteRfqStatus (c : AsyncPoolable) (status : TxStatus) :
    (c.noteRfqStatus status).stateMutated = (c.stateMutated || status ≠ .idle) := by
  cases status <;> rfl

variable {t t' : Tenancy} {l : TenancyEvent}

theorem stateMutated_step (h : tenancy.step t l = some t') :
    t'.stateMutated = (t.stateMutated || l.raises) := by
  cases l with
  | call server m n =>
    obtain ⟨k, -, rfl⟩ := Option.map_eq_some_iff.1 h
    exact stateMutated_acts _ _
  | dropTransaction server hasRoom =>
    simp only [tenancy] at h
    split_ifs at h
    cases h
    simp only [Tenancy.dropTransaction]
    split_ifs <;> simp [TenancyEvent.raises, Tenancy.act]
  | closeEvicted => cases h; simp [TenancyEvent.raises, Tenancy.act]
  | serve =>
    simp only [tenancy] at h
    split at h <;> cases h
    simp [TenancyEvent.raises]
  | read status =>
    simp only [tenancy] at h
    split at h
    · split_ifs at h
      cases h
      exact stateMutated_noteRfqStatus _ _
    · cases h
  | exit => cases h; simp [TenancyEvent.raises]

theorem usable_step (h : tenancy.step t l = some t') : t'.usable = (t.usable && !l.ends) := by
  cases l with
  | call server m n =>
    obtain ⟨k, -, rfl⟩ := Option.map_eq_some_iff.1 h
    simp only [TenancyEvent.ends, Bool.not_false, Bool.and_true]
    exact usable_acts _ _
  | dropTransaction server hasRoom =>
    simp only [tenancy] at h
    split_ifs at h
    cases h
    simp only [Tenancy.dropTransaction]
    split_ifs <;> simp_all [TenancyEvent.ends, Tenancy.act, Tenancy.usable]
  | closeEvicted => cases h; simp [TenancyEvent.ends, Tenancy.act, Tenancy.usable]
  | serve =>
    simp only [tenancy] at h
    split at h <;> cases h
    simp [TenancyEvent.ends, Tenancy.usable]
  | read status =>
    simp only [tenancy] at h
    split at h
    · split_ifs at h
      cases h
      simp [TenancyEvent.ends, Tenancy.usable]
    · cases h
  | exit => cases h; simp [TenancyEvent.ends, Tenancy.usable]

/-- Carrying out a statement does not change what the session will be; submitting one does. -/
theorem session_step (h : tenancy.step t l = some t') (ht : t.usable = true) :
    t'.session = l.statements.foldl Statement.run t.session := by
  cases l with
  | call server m n =>
    obtain ⟨k, -, rfl⟩ := Option.map_eq_some_iff.1 h
    exact session_acts _ _
  | dropTransaction server hasRoom =>
    simp only [tenancy] at h
    split_ifs at h
    cases h
    have halive : t.alive = true := (Bool.and_eq_true _ _ ▸ ht).1
    simp only [Tenancy.dropTransaction, halive]
    cases hasRoom <;> simp [TenancyEvent.statements, Tenancy.act, Tenancy.session]
  | closeEvicted => cases h; simp [TenancyEvent.statements, Tenancy.act, Tenancy.session]
  | serve =>
    simp only [tenancy] at h
    split at h
    case h_1 s rest hq =>
      cases h
      simp [TenancyEvent.statements, Tenancy.session, hq, Statement.run]
    · cases h
  | read status =>
    simp only [tenancy] at h
    split at h
    · split_ifs at h
      cases h
      rfl
    · cases h
  | exit => cases h; rfl

end Step

/-! ### What a run does -/

section Run

variable {t t' : Tenancy} {r : List TenancyEvent}

theorem stateMutated_exec (h : tenancy.exec t r = some t') :
    t'.stateMutated = (t.stateMutated || r.any TenancyEvent.raises) := by
  induction r generalizing t with
  | nil => cases h; simp
  | cons l r ih =>
    obtain ⟨u, hu, hr⟩ := Option.bind_eq_some_iff.1 h
    rw [ih hr, stateMutated_step hu, List.any_cons, Bool.or_assoc]

theorem usable_exec (h : tenancy.exec t r = some t') :
    t'.usable = (t.usable && !r.any TenancyEvent.ends) := by
  induction r generalizing t with
  | nil => cases h; simp
  | cons l r ih =>
    obtain ⟨u, hu, hr⟩ := Option.bind_eq_some_iff.1 h
    rw [ih hr, usable_step hu, List.any_cons, Bool.not_or, Bool.and_assoc]

theorem session_exec (h : tenancy.exec t r = some t') (ht : t'.usable = true) :
    t'.session = (r.flatMap TenancyEvent.statements).foldl Statement.run t.session := by
  induction r generalizing t with
  | nil => cases h; rfl
  | cons l r ih =>
    obtain ⟨u, hu, hr⟩ := Option.bind_eq_some_iff.1 h
    have hl : t.usable = true := by
      rw [usable_exec h, Bool.and_eq_true] at ht
      exact ht.1
    rw [ih hr, session_step hu hl, List.flatMap_cons, List.foldl_append]

theorem skipsReset_eq (t : Tenancy) : t.skipsReset = (t.usable && !t.stateMutated) := by
  obtain ⟨status, settings, queue, unread, stateMutated, broken, alive, transactions⟩ := t
  cases alive <;> cases broken <;> cases stateMutated <;> rfl

/-- **Which runs hide the skipped reset.**  If no step flags the connection, or makes it unusable,
the statements have to leave what a `DISCARD ALL` would leave. -/
theorem skip_invisible_iff (h : tenancy.exec t r = some t') :
    (t'.skipsReset = true → t'.seen = t'.seen.discardAll) ↔
      (t.stateMutated = true ∨ r.any TenancyEvent.raises = true) ∨
        (t.usable = false ∨ r.any TenancyEvent.ends = true) ∨
          ((r.flatMap TenancyEvent.statements).foldl Statement.run t.session).2 = {} := by
  have hmutated := stateMutated_exec h
  have husable := usable_exec h
  rw [skipsReset_eq, hmutated]
  by_cases hu : t'.usable = true
  · have hsession := session_exec h hu
    rw [hu, eq_comm, Bool.and_eq_true, Bool.not_eq_true'] at husable
    simp only [hu, husable.1, husable.2, Tenancy.seen, hsession, Settings.discardAll]
    cases t.stateMutated <;> cases r.any TenancyEvent.raises <;> simp
  · rw [Bool.not_eq_true] at hu
    rw [hu, eq_comm, Bool.and_eq_false_iff, Bool.not_eq_false'] at husable
    exact iff_of_true (by simp [hu]) (.inr (.inl husable))

end Run

/-- The holder runs a query that does nothing to the session. -/
def selectsOne : List TenancyEvent :=
  [.call (fun _ _ => ⟨id, fun _ => id⟩) (.query "SELECT 1" []) 1, .serve, .read .idle]

theorem skip_invisible_iff_selectsOne : ∃ t' : Tenancy,
    tenancy.exec .new selectsOne = some t' ∧ t'.skipsReset = true ∧
      t'.seen = t'.seen.discardAll := by
  have hrun : tenancy.exec .new selectsOne = some _ := rfl
  exact ⟨_, hrun, rfl, (skip_invisible_iff hrun).2 (.inr (.inr rfl)) rfl⟩

/-- `SET search_path`, as a server carries it out outside of transactions. -/
def setSearchPath : Statement :=
  ⟨id, fun _ settings =>
    { settings with parameters := ("search_path", "tenant1") :: settings.parameters }⟩

/-- The holder sets the `search_path` with `execute` and waits for the answer. -/
def setsSearchPath : List TenancyEvent :=
  [.call (fun _ _ => setSearchPath) (.execute "SET search_path TO tenant1" []) 1, .serve,
    .read .idle]

/-- The next holder runs its statements in the schema of the last one. -/
theorem exists_leak : ∃ (r : List TenancyEvent) (t' : Tenancy),
    tenancy.exec .new r = some t' ∧ t'.skipsReset = true ∧ t'.seen ≠ t'.seen.discardAll :=
  ⟨setsSearchPath, _, rfl, rfl, by decide⟩

end Resolute.Pool
