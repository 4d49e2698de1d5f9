import Resolute.Wire.Collect

/-!
# Calls of the typed client

The `async fn`s of `Client`, `PooledClient` and `Transaction` that other calls are built from.  A
`Call` is run by one task: it acts on the state of the process and of its connection, and may fail
with a `TypedError`.  What the connection does with a request is left to a `Link`, so that the same
definitions run against a server that follows the transaction rules and against an arbitrary stream
of replies.  `submit` sends a request and awaits its response; the SQL that is sent is either the
client's own or a caller's statement.
-/

namespace Resolute

/-- Errors of the typed layer. -/
inductive TypedError where
  | wire (e : PgWireError)
  | decode (column : ℕ) (message : String)
  | columnNotFound (name : String)
  | unexpectedNull (column : ℕ)
  | notExactlyOne (count : ℕ)
  | typeMismatch (expected actual : Oid)
  | timeout (millis : ℕ)
  | missingParam (name : String)
  | ioError (kind : ErrorKind) (message : String)
  | config (message : String)
  | queryFailed (source : TypedError) (sql : String)
  deriving DecidableEq, Repr

/-- An `async fn` that acts on a state `σ` and returns `Result<α, TypedError>`. -/
def Call (σ α : Type) : Type := σ → Except TypedError α × σ

namespace Call

variable {σ α β : Type}

/-- `let a = c.await?; f(a)`. -/
def bind (c : Call σ α) (f : α → Call σ β) : Call σ β := fun s =>
  match c s with
  | (.ok a, s') => f a s'
  | (.error e, s') => (.error e, s')

instance : Monad (Call σ) where
  pure a := fun s => (.ok a, s)
  bind := bind

/-- `Err(e)`. -/
def fail (e : TypedError) : Call σ α := fun s => (.error e, s)

/-- `match c.await { Ok(a) => ok(a), Err(e) => err(e) }`. -/
def attempt (c : Call σ α) (ok : α → Call σ β) (err : TypedError → Call σ β) : Call σ β := fun s =>
  match c s with
  | (.ok a, s') => ok a s'
  | (.error e, s') => err e s'

/-- Await a call and only log its error. -/
def logged (c : Call σ α) : Call σ Unit := c.attempt (fun _ => pure ()) fun _ => pure ()

theorem bind_eq (c : Call σ α) (f : α → Call σ β) (s : σ) :
    (c >>= f) s = match c s with
      | (.ok a, s') => f a s'
      | (.error e, s') => (.error e, s') := rfl

@[simp] theorem pure_apply (a : α) (s : σ) : (pure a : Call σ α) s = (.ok a, s) := rfl

@[simp] theorem fail_apply (e : TypedError) (s : σ) : (fail e : Call σ α) s = (.error e, s) := rfl

end Call

/-- The SQL the client sends on its own account, and a statement `a` of the caller. -/
inductive Sql (α : Type) where
  | begin
  | commit
  | rollback
  | savepoint (id : ℕ)
  | releaseSavepoint (id : ℕ)
  | rollbackToSavepoint (id : ℕ)
  | stmt (a : α)
  deriving DecidableEq, Repr

/-- The text that is sent. -/
def Sql.render {α : Type} (text : α → String) : Sql α → String
  | begin => "BEGIN"
  | commit => "COMMIT"
  | rollback => "ROLLBACK"
  | savepoint id => s!"SAVEPOINT resolute_sp_{id}"
  | releaseSavepoint id => s!"RELEASE SAVEPOINT resolute_sp_{id}"
  | rollbackToSavepoint id => s!"ROLLBACK TO SAVEPOINT resolute_sp_{id}"
  | stmt a => text a

/-- What the requests of one task meet: `AsyncConn`, and the server behind it. -/
structure Link (α σ : Type) where
  /-- Send a request and await its response. -/
  submit : Sql α → ResponseCollector → σ → Outcome × σ
  /-- `AsyncConn::mark_state_mutated`. -/
  markStateMutated : σ → σ

/-- The state a call acts on: `SAVEPOINT_COUNTER` of the process, and the connection. -/
structure Proc (σ : Type) where
  savepointCounter : ℕ
  conn : σ
  deriving DecidableEq, Repr

section

variable {α σ T : Type} (L : Link α σ)

/-- `conn.submit(..).await?`. -/
def submit (sql : Sql α) (collector : ResponseCollector) :
    Call (Proc σ) PipelineResponse := fun p =>
  match L.submit sql collector p.conn with
  | (.ok r, c) => (.ok r, { p with conn := c })
  | (.error e, c) => (.error (.wire e), { p with conn := c })

/-- `SAVEPOINT_COUNTER.fetch_add(1)`. -/
def fetchAddSavepoint : Call (Proc σ) ℕ := fun p =>
  (.ok p.savepointCounter, { p with savepointCounter := p.savepointCounter + 1 })

/-- The body the `atomic` methods share: open, run the closure, close on `Ok`, undo on `Err`; an
error of undoing is only logged. -/
def bracket (opening closing undoing : Call (Proc σ) Unit) (f : Call (Proc σ) T) :
    Call (Proc σ) T := do
  opening
  f.attempt
    (fun val => do
      closing
      pure val)
    (fun e => do
      undoing.logged
      Call.fail e)

namespace Client

/-- `Client::simple_query`. -/
def simpleQuery (sql : Sql α) : Call (Proc σ) Unit := do
  let _ ← submit L sql .drain
  pure ()

/-- `Client::execute` with the statement `a`, as far as its effect goes; its error is the one inside
of the `QueryFailed` that `with_sql` makes of it.  A retry after a stale plan sends the statement
once more; it belongs to the statement cache. -/
def execute (a : α) : Call (Proc σ) Unit := do
  let _ ← submit L (.stmt a) .rows
  pure ()

/-- `Client::atomic`.  The closure is handed the client itself. -/
def atomic (f : Call (Proc σ) T) : Call (Proc σ) T :=
  bracket (simpleQuery L .begin) (simpleQuery L .commit) (simpleQuery L .rollback) f

/-- `Client::with_transaction`. -/
def withTransaction (f : Call (Proc σ) T) : Call (Proc σ) T :=
  bracket (simpleQuery L .begin) (simpleQuery L .commit) (simpleQuery L .rollback) f

end Client

namespace PooledClient

/-- `PooledClient::simple_query`: the SQL is opaque, so the state counts as mutated. -/
def simpleQuery (sql : Sql α) : Call (Proc σ) Unit := fun p =>
  Client.simpleQuery L sql { p with conn := L.markStateMutated p.conn }

/-- `PooledClient::execute`. -/
def execute (a : α) : Call (Proc σ) Unit := do
  let _ ← submit L (.stmt a) .rows
  pure ()

/-- `PooledClient::atomic`. -/
def atomic (f : Call (Proc σ) T) : Call (Proc σ) T :=
  bracket (simpleQuery L .begin) (simpleQuery L .commit) (simpleQuery L .rollback) f

end PooledClient

namespace Transaction

/-- `Transaction::commit`. -/
def commit : Call (Proc σ) Unit := Client.simpleQuery L .commit

/-- `Transaction::rollback`. -/
def rollback : Call (Proc σ) Unit := Client.simpleQuery L .rollback

/-- `Transaction::atomic`.  The closure is handed the transaction itself. -/
def atomic (f : Call (Proc σ) T) : Call (Proc σ) T := do
  let id ← fetchAddSavepoint
  bracket (Client.simpleQuery L (.savepoint id)) (Client.simpleQuery L (.releaseSavepoint id))
    (Client.simpleQuery L (.rollbackToSavepoint id)) f

end Transaction

namespace PooledTransaction

/-- `PooledTransaction::atomic`. -/
def atomic (f : Call (Proc σ) T) : Call (Proc σ) T := do
  let id ← fetchAddSavepoint
  bracket (PooledClient.simpleQuery L (.savepoint id))
    (PooledClient.simpleQuery L (.releaseSavepoint id))
    (PooledClient.simpleQuery L (.rollbackToSavepoint id)) f

end PooledTransaction

end

end Resolute
