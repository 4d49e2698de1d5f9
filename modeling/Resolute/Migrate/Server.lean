import Resolute.LTS.Basic
import Resolute.Migrate.Basic

/-!
# Runners and their database

Any number of runners, each on a session of its own, with the database behind them.  A statement may
fail, its response may get lost after the server has carried it out, and a session may end at any
point; the end of a session rolls its transaction back and releases its lock.  A runner that is
cancelled, or that has lost its connection, is one whose session does nothing more but end.

What a script does to the tables of the application is left open: a `Database` is the table of the
runner and a `log` that names the scripts that have taken effect.  `Server.perform` and
`Server.answer` are what the server does with a statement.
-/

namespace Resolute.Migrate

/-- A committed state of the database. -/
structure Database where
  /-- The rows of `_resolute_migrations`, once it exists. -/
  table : Option (List Row)
  /-- The scripts that have taken effect, each with its session. -/
  log : List (ℕ × Effect)
  deriving DecidableEq

/-- A change of the database. -/
inductive Write where
  | createTable
  | effect (e : Effect)
  | insert (row : Row)
  | delete (version : ℤ)
  deriving DecidableEq

namespace Database

/-- A change by session `i`. -/
def apply (i : ℕ) (db : Database) : Write → Database
  | .createTable => { db with table := some (db.table.getD []) }
  | .effect e => { db with log := db.log ++ [(i, e)] }
  | .insert row => { db with table := db.table.map (· ++ [row]) }
  | .delete v => { db with table := db.table.map (·.filter (·.version ≠ v)) }

/-- The versions that are recorded. -/
def versions (db : Database) : List ℤ := (db.table.getD []).map (·.version)

end Database

/-- The transaction of a session, with the changes it has made. -/
inductive Tx where
  | idle
  | active (writes : List Write)
  | failed
  deriving DecidableEq

/-- The server as one session sees it. -/
structure Server where
  db : Database
  /-- The session that holds the advisory lock. -/
  lock : Option ℕ
  tx : Tx
  deriving DecidableEq

/-- What becomes of a statement. -/
inductive Fate where
  | carriedOut
  | failed (e : PgError)
  /-- It is carried out, and the client sees an error. -/
  | lost (e : PgWireError)
  deriving DecidableEq

namespace Server

/-- The database with the changes of the transaction. -/
def visible (i : ℕ) (x : Server) : Database :=
  match x.tx with
  | .active writes => writes.foldl (Database.apply i) x.db
  | _ => x.db

/-- A change, in the transaction if there is one. -/
def write (i : ℕ) (w : Write) (x : Server) : Server :=
  match x.tx with
  | .active writes => { x with tx := .active (writes ++ [w]) }
  | _ => { x with db := x.db.apply i w }

/-- A transaction does not survive an error. -/
def abort (x : Server) : Server :=
  match x.tx with
  | .active _ => { x with tx := .failed }
  | _ => x

/-- A statement fails. -/
def fail (code : String) (x : Server) : Server × Reply := (x.abort, .error (.pg { code }))

/-- A statement of session `i` is carried out, as far as that is possible; `none` as long as it
waits for the lock. -/
def perform (i : ℕ) (st : Stmt) (x : Server) : Option (Server × Reply) :=
  match st with
  | .lock => if x.lock = none then some ({ x with lock := some i }, .ok []) else none
  | .unlock => some ({ x with lock := if x.lock = some i then none else x.lock }, .ok [])
  | .createTable => some (x.write i .createTable, .ok [])
  | .selectVersions => some <| match (x.visible i).table with
    | some rows => (x, .ok (rows.insertionSort fun a b => a.version ≤ b.version))
    | none => x.fail "42P01"
  | .selectLast => some <| match (x.visible i).table with
    | some rows => (x, .ok ((rows.insertionSort fun a b => b.version ≤ a.version).take 1))
    | none => x.fail "42P01"
  | .begin => some ({ x with tx := if x.tx = .idle then .active [] else x.tx }, .ok [])
  | .commit => some ({ x with db := x.visible i, tx := .idle }, .ok [])
  | .rollback => some ({ x with tx := .idle }, .ok [])
  | .script effect _ => some (x.write i (.effect effect), .ok [])
  | .insert version literal => some <|
    match (x.visible i).table, unescape literal.toList with
    | some rows, some name =>
      if version ∈ rows.map (·.version) then x.fail "23505"
      else (x.write i (.insert ⟨version, String.ofList name⟩), .ok [])
    | some _, none => x.fail "42601"
    | none, _ => x.fail "42P01"
  | .delete version => some <| match (x.visible i).table with
    | some _ => (x.write i (.delete version), .ok [])
    | none => x.fail "42P01"

/-- The response to a statement of session `i`.  A failed transaction only takes its end; a `COMMIT`
that fails ends it as well. -/
def answer (i : ℕ) (st : Stmt) (fate : Fate) (x : Server) : Option (Server × Reply) :=
  if x.tx = .failed ∧ st ≠ .commit ∧ st ≠ .rollback then some (x.fail "25P02")
  else match fate with
    | .carriedOut => x.perform i st
    | .failed e => some (if st = .commit then { x with tx := .idle } else x.abort, .error (.pg e))
    | .lost e => (x.perform i st).map fun p => (p.1, .error e)

end Server

/-! ### The sessions -/

/-- A directory whose migrations have distinct versions. -/
structure MigrationsDir extends Dir where
  distinct : ∀ ms, scanMigrations toDir = .ok ms → (ms.map (·.version)).Nodup

/-- The two calls. -/
inductive Task where
  | run
  | revert
  deriving DecidableEq

/-- What they return. -/
inductive Result where
  | applied (migrations : List Migration)
  | reverted (migration : Option Migration)

/-- A call, once it is connected. -/
def Task.start (dir : Dir) : Task → Client Result
  | .run => do
    let migrations ← Migrate.run dir
    pure (.applied migrations)
  | .revert => do
    let migration ← Migrate.revert dir
    pure (.reverted migration)

/-- A call and its session. -/
structure Session where
  task : Task
  dir : MigrationsDir
  /-- What the call has still to do. -/
  client : Client Result
  tx : Tx
  /-- The session has not ended. -/
  live : Bool
  /-- The versions that were recorded when the session acquired the lock. -/
  found : Option (List ℤ)

/-- The database and the sessions. -/
structure State where
  db : Database
  lock : Option ℕ
  sessions : List Session

/-- What happens. -/
inductive Label where
  /-- A runner connects. -/
  | start (task : Task) (dir : MigrationsDir)
  /-- The statement of session `i` meets its fate, and its client goes on. -/
  | serve (i : ℕ) (fate : Fate)
  /-- Session `i` ends. -/
  | close (i : ℕ)

/-- An empty database. -/
def State.init : State := ⟨⟨none, []⟩, none, []⟩

/-- The server as session `c` sees it. -/
def State.server (s : State) (c : Session) : Server := ⟨s.db, s.lock, c.tx⟩

/-- The sessions and their server. -/
def system : LTS State Label where
  step s
  | .start task dir => some { s with
      sessions := s.sessions ++ [⟨task, dir, task.start dir.toDir, .idle, true, none⟩] }
  | .serve i fate => s.sessions[i]?.bind fun c => match c.client with
    | .done _ => none
    | .ask st k =>
      if c.live then
        ((s.server c).answer i st fate).map fun p => {
          db := p.1.db
          lock := p.1.lock
          sessions := s.sessions.set i { c with
            client := k p.2
            tx := p.1.tx
            found := if s.lock ≠ some i ∧ p.1.lock = some i then some s.db.versions else c.found } }
      else
        some { s with
          sessions := s.sessions.set i { c with client := k (.error .connectionClosed) } }
  | .close i => s.sessions[i]?.map fun c => { s with
      lock := if s.lock = some i then none else s.lock
      sessions := s.sessions.set i { c with tx := .idle, live := false } }

/-! ### What the database says -/

/-- The up-script of `v` has taken effect and has not been reverted since. -/
def InEffect (v : ℤ) (log : List (ℕ × Effect)) : Prop :=
  ∃ l₁ i l₂, log = l₁ ++ (i, .up v) :: l₂ ∧ ∀ j, (j, .down v) ∉ l₂

/-- The scripts of session `i` that have taken effect. -/
def own (i : ℕ) (log : List (ℕ × Effect)) : List Effect :=
  log.filterMap fun p => if p.1 = i then some p.2 else none

/-- The versions of a directory that are not recorded, in ascending order. -/
def pending (dir : Dir) (found : List ℤ) : List ℤ :=
  (((scanMigrations dir).toOption.getD []).map (·.version)).filter (· ∉ found)

end Resolute.Migrate
