import Resolute.Migrate.Atomic
import Resolute.Migrate.Create

/-!
# Reports on migrations

`migrate::status`, `info` and `validate` compare the files of a directory with the rows of the
table.  They take no lock: runners apply and revert migrations while a report is made (`watched`),
and what it says is true of the moment when its rows were read.

The runners may have used other directories, for instance earlier versions of the one that is
reported on.  Every row has the version and the name of a migration that some runner has
(`named_watched`).  As long as the directory still `Covers` theirs, which is to have every migration
under the same name, no drift is reported, and what is pending is what the next run would apply
(`report_faithful`).
-/

namespace Resolute.Migrate

/-! ### The calls -/

/-- A row of `_resolute_migrations`, with the text of its time stamp. -/
structure AppliedMigration where
  version : ℤ
  name : String
  appliedAt : String
  deriving DecidableEq, Repr

structure StatusReport where
  files : List Migration
  applied : List AppliedMigration
  deriving DecidableEq, Repr

structure ValidateReport where
  ok : List AppliedMigration := []
  mismatched : List (AppliedMigration × Migration) := []
  missing : List AppliedMigration := []
  deriving DecidableEq, Repr

/-- `ValidateReport::is_clean` -/
def ValidateReport.isClean (report : ValidateReport) : Bool :=
  report.mismatched.isEmpty && report.missing.isEmpty

/-- The statements of a report. -/
inductive Look where
  /-- `CREATE TABLE IF NOT EXISTS _resolute_migrations (…)` -/
  | createTable
  /-- `SELECT version FROM _resolute_migrations ORDER BY version` -/
  | selectVersions
  /-- `SELECT version, name, applied_at::text FROM _resolute_migrations ORDER BY version` -/
  | selectApplied
  deriving DecidableEq, Repr

/-- A call that makes a report, once it is connected. -/
abbrev Reporter (α : Type) :=
  Conversation Look (Except PgWireError (List AppliedMigration)) TypedError α

/-- `simple_query_rows`. -/
def look (q : Look) : Reporter (List AppliedMigration) :=
  .ask q fun reply => .done (reply.mapError .wire)

/-- `read_applied`. -/
def readApplied : Reporter (List AppliedMigration) := look .selectApplied

/-- `status` -/
def status (dir : Dir) : Reporter StatusReport := do
  let _ ← look .createTable
  let applied ← readApplied
  let files ← .lift (scanMigrations dir)
  pure { files, applied }

/-- `info` -/
def info (dir : Dir) : Reporter (List Migration) := do
  let _ ← look .createTable
  let rows ← look .selectVersions
  let applied := rows.map (·.version)
  let files ← .lift (scanMigrations dir)
  pure (files.filter (·.version ∉ applied))

/-- The body of the loop of `validate`. -/
def classify (dir : Dir) (files : List Migration) (report : ValidateReport)
    (a : AppliedMigration) : ValidateReport :=
  match files.find? (·.version = a.version) with
  | some m =>
    if m.name ≠ a.name then { report with mismatched := report.mismatched ++ [(a, m)] }
    else if !dir.exists m.upPath then { report with missing := report.missing ++ [a] }
    else { report with ok := report.ok ++ [a] }
  | none => { report with missing := report.missing ++ [a] }

/-- `validate` -/
def validate (dir : Dir) : Reporter ValidateReport := do
  let _ ← look .createTable
  let applied ← readApplied
  let files ← .lift (scanMigrations dir)
  pure (applied.foldl (classify dir files) {})

/-! ### The runners, watched -/

/-- What happens: a step of a runner, or a report creates the table. -/
inductive Event where
  | runner (l : Label)
  | createTable

def watched : LTS State Event where
  step s
  | .runner l => system.step s l
  | .createTable => some { s with db := s.db.apply 0 .createTable }

/-- The rows of the table. -/
def Database.rows (db : Database) : List Row := db.table.getD []

/-- The rows as `ORDER BY version` returns them. -/
def Database.sorted (db : Database) : List Row :=
  db.rows.insertionSort fun a b => a.version ≤ b.version

/-- The row of a migration. -/
def Migration.row (m : Migration) : Row := ⟨m.version, m.name⟩

def AppliedMigration.row (a : AppliedMigration) : Row := ⟨a.version, a.name⟩

/-- What a statement of a report meets; the runners go on before and after it. -/
inductive Sees (s : State) : Look → Except PgWireError (List AppliedMigration) → State → Prop
  | createTable {t u} (ht : watched.Reachable s t)
      (hu : watched.Reachable { t with db := t.db.apply 0 .createTable } u) :
    Sees s .createTable (.ok []) u
  | selectVersions {t u applied} (ht : watched.Reachable s t) (htable : t.db.table.isSome)
      (h : applied.map AppliedMigration.version = t.db.sorted.map Row.version)
      (hu : watched.Reachable t u) : Sees s .selectVersions (.ok applied) u
  | selectApplied {t u applied} (ht : watched.Reachable s t) (htable : t.db.table.isSome)
      (h : applied.map AppliedMigration.row = t.db.sorted) (hu : watched.Reachable t u) :
    Sees s .selectApplied (.ok applied) u
  | failed {q e t} (h : watched.Reachable s t) : Sees s q (.error e) t

/-- The migrations of a directory. -/
def Dir.migrations (dir : Dir) : List Migration := (scanMigrations dir).toOption.getD []

/-- A migration of a directory has this row. -/
def Dir.Names (dir : Dir) (row : Row) : Prop := ∃ m ∈ dir.migrations, m.row = row

/-- A migration that some session has. -/
def State.Knows (s : State) (row : Row) : Prop := ∃ c ∈ s.sessions, c.dir.Names row

/-- The directory has every migration that was ever run, under its name. -/
def Covers (dir : Dir) (s : State) : Prop := ∀ row, s.Knows row → dir.Names row

/-! ### What is recorded -/

/-- The changes of a transaction. -/
def Tx.writes : Tx → List Write
  | .active writes => writes
  | _ => []

/-- What is inserted is the row of a migration. -/
def Inserts (N : Row → Prop) (st : Stmt) : Prop :=
  ∀ version literal name, st = .insert version literal → unescape literal.toList = some name →
    N ⟨version, String.ofList name⟩

/-- The rows that were recorded are `K`, and those of the transaction `N`. -/
structure Server.Named (K N : Row → Prop) (x : Server) : Prop where
  table : ∀ row ∈ x.db.rows, K row
  tx : ∀ row, .insert row ∈ x.tx.writes → N row

section

variable {K N : Row → Prop} {i : ℕ} {db : Database} {w : Write} {row : Row} {x x' : Server}
  {st : Stmt} {r : Reply}

theorem mem_rows_apply (h : row ∈ (db.apply i w).rows) : row ∈ db.rows ∨ w = .insert row := by
  unfold Database.rows at *
  cases w with
  | createTable =>
    left
    simpa [Database.apply] using h
  | effect e => exact .inl h
  | insert row' =>
    cases htable : db.table with
    | none => simp [Database.apply, htable] at h
    | some rows =>
      simp only [Database.apply, htable, Option.map_some, Option.getD_some, List.mem_append,
        List.mem_singleton] at h
      rcases h with h | rfl
      · exact .inl h
      · exact .inr rfl
  | delete v =>
    cases htable : db.table with
    | none => simp [Database.apply, htable] at h
    | some rows =>
      simp only [Database.apply, htable, Option.map_some, Option.getD_some] at h
      exact .inl (List.mem_of_mem_filter h)

theorem mem_rows_foldl {ws : List Write} (h : row ∈ (ws.foldl (Database.apply i) db).rows) :
    row ∈ db.rows ∨ .insert row ∈ ws := by
  induction ws generalizing db with
  | nil => exact .inl h
  | cons w ws ih =>
    rcases ih h with h | h
    · rcases mem_rows_apply h with h | rfl
      · exact .inl h
      · exact .inr List.mem_cons_self
    · exact .inr (List.mem_cons_of_mem _ h)

namespace Server.Named

theorem visible (h : x.Named K N) (hsub : ∀ row, N row → K row) :
    ∀ row ∈ (x.visible i).rows, K row := by
  intro row hrow
  unfold Server.visible at hrow
  cases htx : x.tx with
  | active writes =>
    rw [htx] at hrow
    rcases mem_rows_foldl hrow with hrow | hrow
    · exact h.table row hrow
    · exact hsub row (h.tx row (by rwa [htx]))
  | idle | failed =>
    rw [htx] at hrow
    exact h.table row hrow

theorem write (h : x.Named K N) (hsub : ∀ row, N row → K row)
    (hw : ∀ row, w = .insert row → N row) : (x.write i w).Named K N := by
  unfold Server.write
  cases htx : x.tx with
  | active writes =>
    refine ⟨h.table, fun row hrow => ?_⟩
    rcases List.mem_append.1 hrow with hrow | hrow
    · exact h.tx row (by rwa [htx])
    · exact hw row (List.mem_singleton.1 hrow).symm
  | idle | failed =>
    refine ⟨fun row hrow => ?_, fun row hrow => by cases hrow⟩
    rcases mem_rows_apply hrow with hrow | hrow
    · exact h.table row hrow
    · exact hsub row (hw row hrow)

theorem abort (h : x.Named K N) : x.abort.Named K N := by
  unfold Server.abort
  cases htx : x.tx with
  | active writes => exact ⟨h.table, fun row hrow => by cases hrow⟩
  | idle | failed => exact h

/-- A statement of the runner is carried out. -/
theorem perform (h : x.Named K N) (hsub : ∀ row, N row → K row) (hst : Inserts N st)
    (hx : x.perform i st = some (x', r)) : x'.Named K N := by
  cases st <;> simp only [Server.perform, Option.some.injEq, Server.fail] at hx
  case lock =>
    split_ifs at hx
    cases hx
    exact ⟨h.table, h.tx⟩
  case unlock =>
    cases hx
    exact ⟨h.table, h.tx⟩
  case createTable =>
    cases hx
    exact h.write hsub fun row hrow => by cases hrow
  case selectVersions | selectLast =>
    split at hx <;> cases hx
    · exact h
    · exact h.abort
  case begin =>
    cases hx
    refine ⟨h.table, fun row hrow => ?_⟩
    split_ifs at hrow with hidle
    · cases hrow
    · exact h.tx row hrow
  case commit =>
    cases hx
    exact ⟨h.visible hsub, fun row hrow => by cases hrow⟩
  case rollback =>
    cases hx
    exact ⟨h.table, fun row hrow => by cases hrow⟩
  case script effect sql =>
    cases hx
    exact h.write hsub fun row hrow => by cases hrow
  case insert version literal =>
    split at hx
    · next rows name htable hname =>
      split_ifs at hx with hmem <;> cases hx
      · exact h.abort
      · refine h.write hsub fun row hrow => ?_
        cases hrow
        exact hst version literal name rfl hname
    · cases hx
      exact h.abort
    · cases hx
      exact h.abort
  case delete version =>
    split at hx <;> cases hx
    · exact h.write hsub fun row hrow => by cases hrow
    · exact h.abort

/-- A statement of the runner is answered, whatever becomes of it. -/
theorem answer {fate : Fate} (h : x.Named K N) (hsub : ∀ row, N row → K row)
    (hst : Inserts N st) (hx : x.answer i st fate = some (x', r)) : x'.Named K N := by
  unfold Server.answer at hx
  by_cases hfailed : x.tx = .failed ∧ st ≠ .commit ∧ st ≠ .rollback
  · rw [if_pos hfailed] at hx
    cases hx
    exact h.abort
  · rw [if_neg hfailed] at hx
    cases fate with
    | carriedOut => exact h.perform hsub hst hx
    | failed e =>
      cases hx
      split_ifs
      · exact ⟨h.table, fun row hrow => by cases hrow⟩
      · exact h.abort
    | lost e =>
      obtain ⟨⟨x'', r'⟩, hperform, heq⟩ := Option.map_eq_some_iff.1 hx
      cases heq
      exact h.perform hsub hst hperform

end Server.Named

end

/-! ### What the runners ask -/

section

variable {N : Row → Prop} {dir : Dir}

theorem asks_simpleQueryRows {st : Stmt} (h : Inserts N st) :
    (simpleQueryRows st).Asks (Inserts N) := by
  refine ⟨h, fun r => ?_⟩
  cases r <;> trivial

theorem asks_simpleQuery {st : Stmt} (h : Inserts N st) : (simpleQuery st).Asks (Inserts N) :=
  (asks_simpleQueryRows h).bind fun _ => trivial

/-- A statement that inserts nothing. -/
theorem inserts_of_ne {st : Stmt} (h : ∀ version literal, st ≠ .insert version literal) :
    Inserts N st :=
  fun version literal _ hst _ => absurd hst (h version literal)

theorem asks_runScript (effect : Effect) (sql : String) :
    (runScript effect sql).Asks (Inserts N) := by
  refine (asks_simpleQuery (inserts_of_ne (by simp))).attempt (fun _ => trivial) fun e => ?_
  exact (asks_simpleQuery (inserts_of_ne (by simp))).attempt (fun _ => trivial) fun _ => trivial

/-- The literal for the name of a migration is read as that name. -/
theorem inserts_insert {m : Migration} (h : N m.row) :
    Inserts N (.insert m.version (String.ofList (escape m.name.toList))) := by
  intro version literal name hst hname
  obtain ⟨rfl, rfl⟩ := Stmt.insert.inj hst
  rw [String.toList_ofList, unescape_escape, Option.some.injEq] at hname
  subst hname
  rw [String.ofList_toList]
  exact h

theorem asks_applyPending {applied : List ℤ} {newly ms : List Migration}
    (h : ∀ m ∈ ms, N m.row) : (applyPending dir applied newly ms).Asks (Inserts N) := by
  induction ms generalizing newly with
  | nil => trivial
  | cons m ms ih =>
    obtain ⟨hm, hms⟩ := List.forall_mem_cons.1 h
    unfold applyPending
    split_ifs with happlied
    · exact ih hms
    · refine Conversation.Asks.bind trivial fun sql => ?_
      refine (asks_simpleQuery (inserts_of_ne (by simp))).bind fun _ => ?_
      refine (asks_runScript _ sql).bind fun _ => ?_
      refine (asks_simpleQuery (inserts_insert hm)).bind fun _ => ?_
      exact (asks_simpleQuery (inserts_of_ne (by simp))).bind fun _ => ih hms

theorem asks_releaseAdvisoryLock : releaseAdvisoryLock.Asks (Inserts N) :=
  (asks_simpleQuery (inserts_of_ne (by simp))).attempt (fun _ => trivial) fun _ => trivial

theorem asks_runInner : (runInner dir).Asks (Inserts dir.Names) := by
  refine Conversation.Asks.bind ?_ fun applied => ?_
  · exact (asks_simpleQueryRows (inserts_of_ne (by simp))).bind fun _ => trivial
  · unfold Conversation.lift
    cases hscan : scanMigrations dir with
    | error e => trivial
    | ok ms =>
      refine asks_applyPending fun m hm => ⟨m, ?_, rfl⟩
      rwa [Dir.migrations, hscan]

theorem asks_revertInner : (revertInner dir).Asks (Inserts N) := by
  refine (asks_simpleQueryRows (inserts_of_ne (by simp))).bind fun rows => ?_
  cases rows.head? with
  | none => trivial
  | some row =>
    refine Conversation.Asks.bind trivial fun found => ?_
    refine (asks_simpleQuery (inserts_of_ne (by simp))).bind fun _ => ?_
    refine (asks_runScript _ _).bind fun _ => ?_
    refine (asks_simpleQuery (inserts_of_ne (by simp))).bind fun _ => ?_
    exact (asks_simpleQuery (inserts_of_ne (by simp))).bind fun _ => trivial

/-- A call inserts rows of the migrations of its directory only. -/
theorem asks_start (task : Task) : (task.start dir).Asks (Inserts dir.Names) := by
  cases task with
  | run =>
    refine Conversation.Asks.bind ?_ fun _ => trivial
    refine (asks_simpleQuery (inserts_of_ne (by simp))).bind fun _ => ?_
    refine Conversation.Asks.ensuring ?_ asks_releaseAdvisoryLock
    exact (asks_simpleQuery (inserts_of_ne (by simp))).bind fun _ => asks_runInner
  | revert =>
    refine Conversation.Asks.bind ?_ fun _ => trivial
    refine (asks_simpleQuery (inserts_of_ne (by simp))).bind fun _ => ?_
    refine Conversation.Asks.ensuring ?_ asks_releaseAdvisoryLock
    exact (asks_simpleQuery (inserts_of_ne (by simp))).bind fun _ => asks_revertInner

end

/-! ### All sessions -/

/-- What holds in every reachable state. -/
structure State.Named (s : State) : Prop where
  table : ∀ row ∈ s.db.rows, s.Knows row
  client : ∀ c ∈ s.sessions, c.client.Asks (Inserts c.dir.Names)
  tx : ∀ c ∈ s.sessions, ∀ row, .insert row ∈ c.tx.writes → c.dir.Names row

section

variable {s s' : State} {i : ℕ} {c c' : Session}

/-- A session keeps its directory. -/
theorem knows_set {db : Database} {lock : Option ℕ} {row : Row} (hc : s.sessions[i]? = some c)
    (hdir : c'.dir = c.dir) (h : s.Knows row) :
    State.Knows ⟨db, lock, s.sessions.set i c'⟩ row := by
  obtain ⟨c₀, hc₀, hnames⟩ := h
  obtain ⟨j, hj⟩ := List.mem_iff_getElem?.1 hc₀
  by_cases hij : i = j
  · subst hij
    obtain rfl := Option.some.inj (hj.symm.trans hc)
    have hlt := (List.getElem?_eq_some_iff.1 hc).1
    exact ⟨c', List.mem_set hlt c', by rwa [hdir]⟩
  · refine ⟨c₀, List.mem_iff_getElem?.2 ⟨j, ?_⟩, hnames⟩
    rw [List.getElem?_set_ne hij, hj]

namespace State.Named

/-- A session goes on. -/
theorem set {db : Database} {lock : Option ℕ} (h : s.Named) (hc : s.sessions[i]? = some c)
    (hdir : c'.dir = c.dir) (hdb : ∀ row ∈ db.rows, s.Knows row)
    (hclient : c'.client.Asks (Inserts c'.dir.Names))
    (htx : ∀ row, .insert row ∈ c'.tx.writes → c'.dir.Names row) :
    State.Named ⟨db, lock, s.sessions.set i c'⟩ where
  table := fun row hrow => knows_set hc hdir (hdb row hrow)
  client := fun c₀ hc₀ => by
    rcases List.mem_or_eq_of_mem_set hc₀ with hc₀ | rfl
    · exact h.client c₀ hc₀
    · exact hclient
  tx := fun c₀ hc₀ => by
    rcases List.mem_or_eq_of_mem_set hc₀ with hc₀ | rfl
    · exact h.tx c₀ hc₀
    · exact htx

theorem step {e : Event} (h : s.Named) (hstep : watched.step s e = some s') : s'.Named := by
  cases e with
  | createTable =>
    cases hstep
    refine ⟨fun row hrow => ?_, h.client, h.tx⟩
    rcases mem_rows_apply hrow with hrow | hrow
    · exact h.table row hrow
    · cases hrow
  | runner l =>
    cases l with
    | start task dir =>
      cases hstep
      refine ⟨fun row hrow => ?_, fun c hc => ?_, fun c hc => ?_⟩
      · obtain ⟨c, hc, hnames⟩ := h.table row hrow
        exact ⟨c, List.mem_append_left _ hc, hnames⟩
      · rcases List.mem_append.1 hc with hc | hc
        · exact h.client c hc
        · obtain rfl := List.mem_singleton.1 hc
          exact asks_start task
      · rcases List.mem_append.1 hc with hc | hc
        · exact h.tx c hc
        · obtain rfl := List.mem_singleton.1 hc
          intro row hrow
          cases hrow
    | serve i fate =>
      obtain ⟨c, hc, hstep⟩ := Option.bind_eq_some_iff.1 hstep
      have hmem := List.mem_of_getElem? hc
      have hasks := h.client c hmem
      cases hclient : c.client with
      | done r =>
        rw [hclient] at hstep
        cases hstep
      | ask st k =>
        rw [hclient] at hasks
        simp only [hclient] at hstep
        split_ifs at hstep with hlive
        · obtain ⟨⟨x, r⟩, hx, rfl⟩ := Option.map_eq_some_iff.1 hstep
          have hserver : (s.server c).Named s.Knows c.dir.Names := ⟨h.table, h.tx c hmem⟩
          have hnamed := hserver.answer (fun row hrow => ⟨c, hmem, hrow⟩) hasks.1 hx
          exact h.set hc rfl hnamed.table (hasks.2 r) hnamed.tx
        · cases hstep
          exact h.set hc rfl h.table (hasks.2 _) (h.tx c hmem)
    | close i =>
      obtain ⟨c, hc, rfl⟩ := Option.map_eq_some_iff.1 hstep
      have hmem := List.mem_of_getElem? hc
      refine h.set hc rfl h.table (h.client c hmem) fun row hrow => ?_
      cases hrow

theorem init : State.init.Named where
  table := fun row hrow => by cases hrow
  client := fun c hc => by cases hc
  tx := fun c hc => by cases hc

end State.Named

/-- Every row has the version and the name of a migration that some session has. -/
theorem named_watched (h : watched.Reachable State.init s) : s.Named :=
  h.invariant State.Named.init fun _ _ _ hs hstep => hs.step hstep

end

/-! ### What is on disk -/

section

variable {dir : MigrationsDir} {ms : List Migration} {m m' : Migration}

theorem migrations_eq (h : scanMigrations dir.toDir = .ok ms) : dir.migrations = ms := by
  rw [Dir.migrations, h]
  rfl

/-- The script that was found is there. -/
theorem exists_upPath (h : scanMigrations dir.toDir = .ok ms) (hm : m ∈ ms) :
    dir.exists m.upPath = true := by
  have hmem := (accepted_of_scanMigrations h).2.mem_iff.1 hm
  obtain ⟨f, hf, hfound⟩ := List.mem_filterMap.1 hmem
  obtain ⟨name, hname, hpath⟩ : ∃ name, f.name = some name ∧ m.upPath = dir.join name := by
    cases hname : f.name with
    | none =>
      have hnone : scanFile dir.toDir f = .ok none := by
        rw [scanFile, hname]
        rfl
      rw [found_eq hnone] at hfound
      cases hfound
    | some name =>
      refine ⟨name, rfl, ?_⟩
      simp only [found, scanFile, hname, Option.getD_some] at hfound
      split at hfound
      · cases hfound
      · split at hfound
        · cases hfound
        · cases hfound
          rfl
  have hentry : f ∈ dir.entries.toOption.getD [] := by
    unfold Dir.files at hf
    split_ifs at hf
    · exact hf
    · cases hf
  rw [Dir.exists, Dir.find?, List.find?_isSome]
  exact ⟨f, hentry, by simp [hname, hpath]⟩

/-- A row that the directory has is that of its only migration with this version. -/
theorem row_of_names (h : scanMigrations dir.toDir = .ok ms) {row : Row} (hrow : dir.Names row)
    (hm : m ∈ ms) (hversion : m.version = row.version) : m.row = row := by
  obtain ⟨m', hm', rfl⟩ := hrow
  rw [migrations_eq h] at hm'
  rw [List.inj_on_of_nodup_map (dir.distinct ms h) hm hm' hversion]

/-- The loop of `validate`: a row that the directory has is as it was recorded. -/
theorem classify_names (h : scanMigrations dir.toDir = .ok ms) {a : AppliedMigration}
    (hrow : dir.Names a.row) (report : ValidateReport) :
    classify dir.toDir ms report a = { report with ok := report.ok ++ [a] } := by
  obtain ⟨m, hm, hmrow⟩ := id hrow
  rw [migrations_eq h] at hm
  cases hfind : ms.find? (·.version = a.version) with
  | none =>
    have hno := List.find?_eq_none.1 hfind m hm
    rw [decide_eq_true_eq] at hno
    exact absurd (congrArg Row.version hmrow) hno
  | some m' =>
    have hm' := List.mem_of_find?_eq_some hfind
    have hversion : m'.version = a.version := by simpa using List.find?_some hfind
    have hname : m'.name = a.name := congrArg Row.name (row_of_names h hrow hm' hversion)
    rw [classify, hfind]
    simp [hname, exists_upPath h hm']

theorem foldl_classify (h : scanMigrations dir.toDir = .ok ms) {applied : List AppliedMigration}
    (hrows : ∀ a ∈ applied, dir.Names a.row) (report : ValidateReport) :
    applied.foldl (classify dir.toDir ms) report =
      { report with ok := report.ok ++ applied } := by
  induction applied generalizing report with
  | nil => simp
  | cons a applied ih =>
    obtain ⟨ha, happlied⟩ := List.forall_mem_cons.1 hrows
    rw [List.foldl_cons, classify_names h ha, ih happlied]
    simp

end

/-! ### A report is made -/

section

variable {s t u v : State} {row : Row} {dir : MigrationsDir} {q : Look}

theorem knows_step {e : Event} (hstep : watched.step s e = some t) (h : s.Knows row) :
    t.Knows row := by
  cases e with
  | createTable =>
    cases hstep
    exact h
  | runner l =>
    cases l with
    | start task dir =>
      cases hstep
      obtain ⟨c, hc, hnames⟩ := h
      exact ⟨c, List.mem_append_left _ hc, hnames⟩
    | serve i fate =>
      obtain ⟨c, hc, hstep⟩ := Option.bind_eq_some_iff.1 hstep
      cases hclient : c.client with
      | done r =>
        rw [hclient] at hstep
        cases hstep
      | ask st k =>
        simp only [hclient] at hstep
        split_ifs at hstep with hlive
        · obtain ⟨p, -, rfl⟩ := Option.map_eq_some_iff.1 hstep
          exact knows_set hc rfl h
        · cases hstep
          exact knows_set hc rfl h
    | close i =>
      obtain ⟨c, hc, rfl⟩ := Option.map_eq_some_iff.1 hstep
      exact knows_set hc rfl h

/-- What was known before a report ends is covered by a directory that covers all at its end. -/
theorem names_of_covers (ht : watched.Reachable State.init t) (hu : watched.Reachable t u)
    (hcovers : Covers dir.toDir u) : ∀ row ∈ t.db.rows, dir.Names row := by
  intro row hrow
  exact hcovers row (hu.invariant ((named_watched ht).table row hrow)
    fun _ _ _ hknows hstep => knows_step hstep hknows)

/-- A migration is recorded by its version if and only if it is by its row. -/
theorem version_mem_iff {ms : List Migration} {m : Migration} {db : Database}
    (h : scanMigrations dir.toDir = .ok ms) (hnames : ∀ row ∈ db.rows, dir.Names row)
    (hm : m ∈ ms) : m.version ∈ db.versions ↔ m.row ∈ db.rows := by
  constructor
  · intro hversion
    obtain ⟨row, hrow, heq⟩ := List.mem_map.1 hversion
    rwa [row_of_names h (hnames row hrow) hm heq.symm]
  · exact fun hrow => List.mem_map_of_mem (f := Row.version) hrow

theorem filter_pending {ms : List Migration} {versions found : List ℤ}
    (h : scanMigrations dir.toDir = .ok ms) (hmem : ∀ w, w ∈ versions ↔ w ∈ found) :
    (ms.filter (·.version ∉ versions)).map Migration.version = pending dir.toDir found := by
  rw [pending, h, Except.toOption, Option.getD_some, List.filter_map]
  refine congrArg _ (List.filter_congr fun m _ => ?_)
  simp only [Function.comp_apply, hmem]

theorem mem_sorted {db : Database} : row ∈ db.sorted ↔ row ∈ db.rows :=
  (List.perm_insertionSort _ _).mem_iff

theorem Sees.reachable {r : Except PgWireError (List AppliedMigration)} (h : Sees s q r u) :
    watched.Reachable s u := by
  cases h with
  | createTable ht hu => exact (ht.tail (l := .createTable) rfl).trans hu
  | selectVersions ht htable h hu => exact ht.trans hu
  | selectApplied ht htable h hu => exact ht.trans hu
  | failed h => exact h

/-- One statement of a report. -/
theorem look_safe (hv : watched.Reachable s v) :
    (look q).Safe (watched.Reachable s) (fun _ => True) Sees
      (fun r u => ∀ rows, r = .ok rows → Sees v q (.ok rows) u) v := by
  refine ⟨hv, trivial, fun r u hr => ⟨hv.trans hr.reachable, ?_⟩⟩
  intro rows hrows
  cases r with
  | error e => cases hrows
  | ok rows' =>
    obtain rfl := Except.ok.inj hrows
    exact hr

/-- What a report says, if it succeeds: `P` of the rows at one moment before its end, as long as the
directory covers all that was run. -/
def Reports (dir : MigrationsDir) (s : State) {α : Type} (d : Reporter α) (P : α → State → Prop) :
    Prop :=
  d.Safe (watched.Reachable s) (fun _ => True) Sees
    (fun r u => ∀ a, r = .ok a → Covers dir.toDir u →
      ∃ t, watched.Reachable s t ∧ watched.Reachable t u ∧ P a t) s

/-- A report creates the table, reads rows and then scans the directory. -/
theorem reports_of_read {α : Type} {f : List AppliedMigration → List Migration → α}
    {P : α → State → Prop}
    (h : ∀ rows ms v u, scanMigrations dir.toDir = .ok ms → watched.Reachable s v →
      Sees v q (.ok rows) u → Covers dir.toDir u →
      ∃ t, watched.Reachable v t ∧ watched.Reachable t u ∧ P (f rows ms) t) :
    Reports dir s (do
      let _ ← look .createTable
      let rows ← look q
      let files ← .lift (scanMigrations dir.toDir)
      pure (f rows files)) P := by
  refine Conversation.Safe.bind ((look_safe (.refl s)).mono ?_)
  rintro r v hv -
  cases r with
  | error e => exact fun a ha => by cases ha
  | ok _ =>
    refine Conversation.Safe.bind ((look_safe hv).mono ?_)
    intro r u hu hrows
    cases r with
    | error e => exact fun a ha => by cases ha
    | ok rows =>
      cases hscan : scanMigrations dir.toDir with
      | error e => exact ⟨hu, fun a ha => by cases ha⟩
      | ok ms =>
        refine ⟨hu, fun a ha hcovers => ?_⟩
        obtain rfl := Except.ok.inj ha
        obtain ⟨t, ht, htu, hP⟩ := h rows ms v u hscan hv (hrows rows rfl) hcovers
        exact ⟨t, hv.trans ht, htu, hP⟩

/-- **No drift is reported** as long as the directory has, under its name, every migration that a
runner has ever had, whatever the runners are doing meanwhile; the rows are those of one moment, and
what is pending is what a run would apply then. -/
theorem report_faithful (h : watched.Reachable State.init s) :
    Reports dir s (status dir.toDir) (fun report t => report.files = dir.migrations ∧
      report.applied.map AppliedMigration.row = t.db.sorted ∧
      ∀ a ∈ report.applied, ∃ m ∈ report.files, m.row = a.row) ∧
    Reports dir s (info dir.toDir) (fun ms t =>
      ms.map Migration.version = pending dir.toDir t.db.versions ∧
      ∀ m, m ∈ ms ↔ m ∈ dir.migrations ∧ m.row ∉ t.db.rows) ∧
    Reports dir s (validate dir.toDir) (fun report t => report.isClean = true ∧
      report.ok.map AppliedMigration.row = t.db.sorted) := by
  -- the rows that are read are covered
  have hrows : ∀ {v u q rows}, watched.Reachable s v → Sees v q (.ok rows) u →
      q = .selectApplied → Covers dir.toDir u → ∃ t, watched.Reachable v t ∧
        watched.Reachable t u ∧ rows.map AppliedMigration.row = t.db.sorted ∧
        ∀ a ∈ rows, dir.Names a.row := by
    rintro v u q rows hv hsees rfl hcovers
    cases hsees with
    | @selectApplied t u applied ht htable hshown hu =>
      refine ⟨t, ht, hu, hshown, fun a ha => ?_⟩
      refine names_of_covers ((h.trans hv).trans ht) hu hcovers a.row (mem_sorted.1 ?_)
      rw [← hshown]
      exact List.mem_map_of_mem ha
  refine ⟨?_, ?_, ?_⟩
  · refine reports_of_read (q := .selectApplied) fun rows ms v u hscan hv hsees hcovers => ?_
    obtain ⟨t, ht, htu, hshown, hnames⟩ := hrows hv hsees rfl hcovers
    refine ⟨t, ht, htu, (migrations_eq hscan).symm, hshown, fun a ha => ?_⟩
    obtain ⟨m, hm, hrow⟩ := hnames a ha
    exact ⟨m, migrations_eq hscan ▸ hm, hrow⟩
  · refine reports_of_read (q := .selectVersions) fun rows ms v u hscan hv hsees hcovers => ?_
    cases hsees with
    | @selectVersions t u applied ht htable hshown hu =>
      have hnames := names_of_covers ((h.trans hv).trans ht) hu hcovers
      have hversions : ∀ w, w ∈ rows.map AppliedMigration.version ↔ w ∈ t.db.versions := by
        intro w
        rw [hshown]
        exact ((List.perm_insertionSort _ _).map _).mem_iff
      refine ⟨t, ht, hu, ?_, fun m => ?_⟩
      · exact filter_pending hscan hversions
      · rw [List.mem_filter, decide_eq_true_eq, hversions, migrations_eq hscan]
        exact and_congr_right fun hm => not_congr (version_mem_iff hscan hnames hm)
  · refine reports_of_read (q := .selectApplied) fun rows ms v u hscan hv hsees hcovers => ?_
    obtain ⟨t, ht, htu, hshown, hnames⟩ := hrows hv hsees rfl hcovers
    refine ⟨t, ht, htu, ?_⟩
    rw [foldl_classify hscan hnames]
    exact ⟨rfl, hshown⟩

end

/-- After the runs of which the first one ended early. -/
theorem report_faithful_crashRun : ∃ s, watched.Reachable State.init s ∧ s.db.versions = [1] ∧
    Reports exampleDir s (validate exampleDir.toDir) (fun report t => report.isClean = true ∧
      report.ok.map AppliedMigration.row = t.db.sorted) := by
  have htest : (watched.exec State.init (crashRun.map .runner)).any
      (fun s => decide (s.db.versions = [1])) = true := by decide +kernel
  obtain ⟨s, hreach, hs⟩ := LTS.reachable_of_test htest
  exact ⟨s, hreach, of_decide_eq_true hs, (report_faithful hreach).2.2⟩

end Resolute.Migrate
