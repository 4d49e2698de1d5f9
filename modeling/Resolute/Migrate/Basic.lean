import Mathlib.Data.List.Sort
import Resolute.Client.Basic
import Resolute.LTS.Conversation

/-!
# The migration runner

`migrate::run` applies the migrations of a directory that are not recorded in the table
`_resolute_migrations`; `migrate::revert` undoes the greatest one that is.  Both hold a
session-level advisory lock from before they touch the table to the end, and put each script into a
transaction with the change to the table.  They are conversations with a session, in the statements
of `Stmt`.

A migration is found by the names of its files (`scanMigrations`), and the migrations come in
ascending order of their versions (`pairwise_scanMigrations`).  The name of a migration is written
into the SQL with its quotes doubled, and what is recorded is the name in the file's name
(`unescape_escape`).
-/

namespace Resolute.Migrate

/-- A migration file pair on disk. -/
structure Migration where
  version : ℤ
  name : String
  upPath : String
  downPath : String
  deriving DecidableEq, Repr

/-! ### The directory -/

/-- An entry of a directory. -/
structure File where
  /-- The name, `none` when it is not UTF-8. -/
  name : Option String
  content : Except TypedError String

/-- A migrations directory. -/
structure Dir where
  path : String
  isDir : Bool
  /-- What `read_dir` yields, in the order of the file system. -/
  entries : Except TypedError (List File)

/-- `Path::join` with a file name. -/
def Dir.join (dir : Dir) (name : String) : String :=
  if dir.path = "" ∨ dir.path.toList.getLast? = some '/' then dir.path ++ name
  else dir.path ++ "/" ++ name

/-- The entry at a path. -/
def Dir.find? (dir : Dir) (path : String) : Option File :=
  (dir.entries.toOption.getD []).find? fun f => f.name.map dir.join = some path

/-- `Path::exists`. -/
def Dir.exists (dir : Dir) (path : String) : Bool := (dir.find? path).isSome

/-- `tokio::fs::read_to_string`. -/
def Dir.readToString (dir : Dir) (path : String) : Except TypedError String :=
  match dir.find? path with
  | some f => f.content
  | none => .error (.ioError (.other 2) "No such file or directory (os error 2)")

/-- `str::parse::<i64>`. -/
def parseI64 (s : List Char) : Option ℤ :=
  let (negative, digits) := match s with
    | '-' :: digits => (true, digits)
    | '+' :: digits => (false, digits)
    | digits => (false, digits)
  let n : ℤ := digits.foldl (fun n c => 10 * n + (c.toNat - '0'.toNat : ℕ)) 0
  let v := if negative then -n else n
  if digits ≠ [] ∧ digits.all Char.isDigit ∧
      -9223372036854775808 ≤ v ∧ v < 9223372036854775808 then some v else none

/-- `str::strip_suffix`. -/
def stripSuffix (suffix s : List Char) : Option (List Char) :=
  if suffix <:+ s then some (s.take (s.length - suffix.length)) else none

/-- `str::split_once`, with a default for the second part. -/
def splitOnce (sep : Char) (s default : List Char) : List Char × List Char :=
  match s.dropWhile (· ≠ sep) with
  | _ :: rest => (s.takeWhile (· ≠ sep), rest)
  | [] => (s, default)

/-- The body of the loop of `scan_migrations`. -/
def scanFile (dir : Dir) (f : File) : Except TypedError (Option Migration) :=
  let name := f.name.getD ""
  match stripSuffix ".up.sql".toList name.toList with
  | none => .ok none
  | some stem =>
    let (versionStr, migName) := splitOnce '_' stem "unnamed".toList
    match parseI64 versionStr with
    | none => .error (.config
        s!"invalid migration filename (expected timestamp prefix): {name}")
    | some version => .ok (some
        { version
          name := String.ofList migName
          upPath := dir.join name
          downPath := dir.join (String.ofList stem ++ ".down.sql") })

/-- `scan_migrations`. -/
def scanMigrations (dir : Dir) : Except TypedError (List Migration) :=
  if !dir.isDir then .ok []
  else do
    let entries ← dir.entries
    let out ← entries.mapM (scanFile dir)
    pure (out.reduceOption.insertionSort fun a b => a.version ≤ b.version)

/-! ### The statements -/

/-- What a script does, by the version of its migration. -/
inductive Effect where
  | up (version : ℤ)
  | down (version : ℤ)
  deriving DecidableEq, Repr

/-- A row of `_resolute_migrations`. -/
structure Row where
  version : ℤ
  name : String
  deriving DecidableEq, Repr

/-- The statements of a runner. -/
inductive Stmt where
  /-- `SELECT pg_advisory_lock(MIGRATION_LOCK_KEY)` -/
  | lock
  /-- `SELECT pg_advisory_unlock(MIGRATION_LOCK_KEY)` -/
  | unlock
  /-- `CREATE TABLE IF NOT EXISTS _resolute_migrations (…)` -/
  | createTable
  /-- `SELECT version FROM _resolute_migrations ORDER BY version` -/
  | selectVersions
  /-- `SELECT version, name FROM _resolute_migrations ORDER BY version DESC LIMIT 1` -/
  | selectLast
  | begin
  | commit
  | rollback
  /-- The text of a script. -/
  | script (effect : Effect) (sql : String)
  /-- `INSERT INTO _resolute_migrations (version, name) VALUES (version, E'literal')` -/
  | insert (version : ℤ) (literal : String)
  /-- `DELETE FROM _resolute_migrations WHERE version = version` -/
  | delete (version : ℤ)
  deriving DecidableEq, Repr

/-- What a statement returns. -/
abbrev Reply := Except PgWireError (List Row)

/-- A call of the runner. -/
abbrev Client (α : Type) := Conversation Stmt Reply TypedError α

/-- `simple_query_rows`. -/
def simpleQueryRows (st : Stmt) : Client (List Row) :=
  .ask st fun
    | .ok rows => pure rows
    | .error e => .fail (.wire e)

/-- `simple_query`. -/
def simpleQuery (st : Stmt) : Client Unit := do
  let _ ← simpleQueryRows st

/-- `m.name.replace('\\', "\\\\").replace('\'', "''")`. -/
def escape (name : List Char) : List Char :=
  (name.flatMap fun c => if c = '\\' then ['\\', '\\'] else [c]).flatMap fun c =>
    if c = '\'' then ['\'', '\''] else [c]

/-- How the server reads a literal `E'…'`, with the escapes that the runner writes. -/
def unescape : List Char → Option (List Char)
  | [] => some []
  | '\\' :: '\\' :: cs => (unescape cs).map ('\\' :: ·)
  | '\'' :: '\'' :: cs => (unescape cs).map ('\'' :: ·)
  | '\\' :: _ | '\'' :: _ => none
  | c :: cs => (unescape cs).map (c :: ·)

/-! ### The calls -/

/-- `acquire_advisory_lock`. -/
def acquireAdvisoryLock : Client Unit := simpleQuery .lock

/-- `release_advisory_lock`, which only logs an error. -/
def releaseAdvisoryLock : Client Unit :=
  (simpleQuery .unlock).attempt (fun _ => pure ()) fun _ => pure ()

/-- `ensure_tracking_table`. -/
def ensureTrackingTable : Client Unit := simpleQuery .createTable

/-- `read_applied_versions`. -/
def readAppliedVersions : Client (List ℤ) := do
  let rows ← simpleQueryRows .selectVersions
  pure (rows.map (·.version))

/-- A script runs in the transaction that was begun; if it fails, the transaction is rolled back. -/
def runScript (effect : Effect) (sql : String) : Client Unit :=
  (simpleQuery (.script effect sql)).attempt pure fun e =>
    (simpleQuery .rollback).attempt (fun _ => .fail e) fun _ => .fail e

/-- The loop of `run_inner`. -/
def applyPending (dir : Dir) (applied : List ℤ) : List Migration → List Migration →
    Client (List Migration)
  | newlyApplied, [] => pure newlyApplied
  | newlyApplied, m :: ms =>
    if m.version ∈ applied then applyPending dir applied newlyApplied ms
    else do
      let sql ← .lift (dir.readToString m.upPath)
      simpleQuery .begin
      runScript (.up m.version) sql
      simpleQuery (.insert m.version (String.ofList (escape m.name.toList)))
      simpleQuery .commit
      applyPending dir applied (newlyApplied ++ [m]) ms

/-- `run_inner`. -/
def runInner (dir : Dir) : Client (List Migration) := do
  let applied ← readAppliedVersions
  let migrations ← .lift (scanMigrations dir)
  applyPending dir applied [] migrations

/-- `run`, once it is connected. -/
def run (dir : Dir) : Client (List Migration) := do
  acquireAdvisoryLock
  .ensuring (do
    ensureTrackingTable
    runInner dir) releaseAdvisoryLock

/-- The migration that `revert_inner` undoes, and its script. -/
def findRevert (dir : Dir) (version : ℤ) : Except TypedError (Migration × String) := do
  let migrations ← scanMigrations dir
  match migrations.find? (·.version = version) with
  | none => .error (.config s!"no migration file found for version {version}")
  | some migration =>
    if !dir.exists migration.downPath then
      .error (.config s!"down migration missing: {migration.downPath}")
    else do
      let sql ← dir.readToString migration.downPath
      pure (migration, sql)

/-- `revert_inner`. -/
def revertInner (dir : Dir) : Client (Option Migration) := do
  let rows ← simpleQueryRows .selectLast
  match rows.head? with
  | none => pure none
  | some row => do
    let (migration, sql) ← .lift (findRevert dir row.version)
    simpleQuery .begin
    runScript (.down row.version) sql
    simpleQuery (.delete row.version)
    simpleQuery .commit
    pure (some migration)

/-- `revert`, once it is connected. -/
def revert (dir : Dir) : Client (Option Migration) := do
  acquireAdvisoryLock
  .ensuring (do
    ensureTrackingTable
    revertInner dir) releaseAdvisoryLock

/-! ### What is scanned and recorded -/

theorem pairwise_scanMigrations {dir : Dir} {ms : List Migration}
    (h : scanMigrations dir = .ok ms) :
    ms.Pairwise fun a b => a.version ≤ b.version := by
  unfold scanMigrations at h
  split_ifs at h with hdir
  · cases h
    exact List.Pairwise.nil
  · cases hentries : dir.entries with
    | error e =>
      rw [hentries] at h
      cases h
    | ok entries =>
      cases hout : entries.mapM (scanFile dir) with
      | error e =>
        simp only [hentries, bind, Except.bind, hout] at h
        cases h
      | ok out =>
        simp only [hentries, bind, Except.bind, hout, pure, Except.pure, Except.ok.injEq] at h
        subst h
        exact List.pairwise_insertionSort _ _

theorem unescape_escape (name : List Char) : unescape (escape name) = some name := by
  induction name with
  | nil => rfl
  | cons c cs ih =>
    by_cases hslash : c = '\\'
    · subst hslash
      change (unescape (escape cs)).map _ = _
      rw [ih]
      rfl
    · by_cases hquote : c = '\''
      · subst hquote
        change (unescape (escape cs)).map _ = _
        rw [ih]
        rfl
      · have hescape : escape (c :: cs) = c :: escape cs := by
          simp [escape, hslash, hquote]
        rw [hescape, unescape, ih]
        · rfl
        all_goals simp [hslash, hquote]

end Resolute.Migrate
