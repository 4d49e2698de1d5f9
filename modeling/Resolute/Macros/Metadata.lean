import Mathlib.Data.List.Destutter
import Mathlib.Data.List.Sort
import Resolute.Sql.NamedParams
import Resolute.Wire.Types

/-!
# Query metadata and its cache

The query macros need the parameter types and the columns of a query when they are expanded.  They
look for a file in the cache directory first, and describe the query on a live connection if there
is none (`resolveMetadata`); `resolute-cli prepare` fills the directory in advance, from the queries
in the sources.  A file is named by the hash of its query's text.

The server is a parameter: a `Database` says how it describes a text and what its `pg_attribute`
holds.  A run is a list of events, expansions and preparations one after another on one cache
directory.  The cache is `Right` if what it holds for a text is what a live connection says of it,
and `run_right` says in which runs it is.
-/

namespace Resolute.QueryCache

open NamedParams (Unicode)

/-! ### The database -/

/-- A row of `pg_attribute`. -/
structure Attribute where
  attrelid : Oid
  attnum : Int16
  attnotnull : Bool
  deriving DecidableEq, Repr

structure Database where
  /-- `describe_statement`: the parameter types and the columns, or an error. -/
  describe : String → Option (List Oid × List FieldDescription)
  attributes : List Attribute

/-- `CachedColumn`. -/
structure CachedColumn where
  name : String
  typeOid : Oid
  nullable : Bool
  deriving DecidableEq, Repr

/-- The types of the parameters, and the columns. -/
abbrev Metadata := List Oid × List CachedColumn

/-- A column of the result that is a column of a table. -/
structure TableCol where
  idx : ℕ
  tableOid : Oid
  columnId : Int16
  deriving DecidableEq, Repr

def tableCols (fields : List FieldDescription) : List TableCol :=
  (fields.mapIdx fun i f => TableCol.mk i f.tableOid f.columnId).filter
    fun c => c.tableOid ≠ 0 ∧ 0 < c.columnId

/-- The rows for `SELECT attrelid, attnum, attnotnull FROM pg_attribute WHERE ...`. -/
def Database.attributesOf (db : Database) (cols : List TableCol) : List Attribute :=
  db.attributes.filter fun row =>
    cols.any fun c => row.attrelid == c.tableOid && row.attnum == c.columnId

/-- What a row says of the columns of the result. -/
def markNotNull (cols : List TableCol) (columns : List CachedColumn) (row : Attribute) :
    List CachedColumn :=
  cols.foldl (fun columns c =>
    if c.tableOid = row.attrelid ∧ c.columnId = row.attnum ∧ row.attnotnull then
      columns.modify c.idx ({ · with nullable := false })
    else columns) columns

/-- `describe_live`; `answered` says whether the query for the attributes was answered.  If it was
not, every column counts as nullable. -/
def describeLive (db : Database) (answered : Bool) (sql : String) : Option Metadata := do
  let (paramOids, fields) ← db.describe sql
  let columns := fields.map fun f => CachedColumn.mk f.name f.typeOid true
  let cols := tableCols fields
  if cols ≠ [] ∧ answered then
    return (paramOids, (db.attributesOf cols).foldl (markNotNull cols) columns)
  else return (paramOids, columns)

/-! ### The cache directory -/

/-- FNV-1a. -/
def hashSql (sql : String) : UInt64 :=
  (asBytes sql).foldl (fun h b => (h ^^^ b.toUInt64) * 0x100000001b3) 0xcbf29ce484222325

/-- A column in a file; `nullable` may be missing. -/
structure FileColumn where
  name : String
  typeOid : Oid
  nullable : Option Bool
  deriving DecidableEq, Repr

/-- A file of the cache directory. -/
structure File where
  sql : String
  hash : UInt64
  paramOids : List Oid
  columns : List FileColumn
  deriving DecidableEq, Repr

/-- The cache directory: the file `query-{hash}.json`. -/
abbrev Dir := UInt64 → Option File

def Dir.write (dir : Dir) (file : File) : Dir := Function.update dir file.hash (some file)

/-- The `CacheEntry` of the macros. -/
structure CacheEntry where
  sql : String
  hash : UInt64
  paramOids : List Oid
  columns : List CachedColumn
  deriving DecidableEq, Repr

def CacheEntry.metadata (entry : CacheEntry) : Metadata := (entry.paramOids, entry.columns)

/-- `write_cache`. -/
def CacheEntry.toFile (entry : CacheEntry) : File where
  sql := entry.sql
  hash := entry.hash
  paramOids := entry.paramOids
  columns := entry.columns.map fun c => ⟨c.name, c.typeOid, some c.nullable⟩

/-- `read_cache`, with `#[serde(default)]` for `nullable`. -/
def readCache (dir : Dir) (hash : UInt64) : Option CacheEntry :=
  (dir hash).map fun file =>
    ⟨file.sql, file.hash, file.paramOids,
      file.columns.map fun c => ⟨c.name, c.typeOid, c.nullable.getD false⟩⟩

/-! ### The macros -/

/-- What a macro is given: the text, and the names of the named bindings. -/
structure Query where
  sql : String
  named : List String := []
  deriving DecidableEq, Repr

/-- `resolve_named`: the text that is described, or an error. -/
def resolveNamed (U : Unicode) (q : Query) : Option String :=
  if q.named = [] then some q.sql
  else
    let (rewritten, names) := NamedParams.Macros.rewriteNamedParams U q.sql
    if (∀ name ∈ names, name ∈ q.named) ∧ ∀ name ∈ q.named, name ∈ names then some rewritten
    else none

/-- `resolve_metadata`; `stored` says whether the file could be written. -/
def resolveMetadata (db : Database) (offline answered stored : Bool) (dir : Dir) (sql : String) :
    Option Metadata × Dir :=
  match readCache dir (hashSql sql) with
  | some cached => (some cached.metadata, dir)
  | none =>
    if offline then (none, dir)
    else
      match describeLive db answered sql with
      | none => (none, dir)
      | some (paramOids, columns) =>
        let entry := CacheEntry.mk sql (hashSql sql) paramOids columns
        (some (paramOids, columns), if stored then dir.write entry.toFile else dir)

/-! ### The command -/

namespace Cli

/-- The `CacheEntry` of the command: its `CachedColumn` has no `nullable`. -/
def toFile (sql : String) (paramOids : List Oid) (fields : List FieldDescription) : File where
  sql := sql
  hash := hashSql sql
  paramOids := paramOids
  columns := fields.map fun f => ⟨f.name, f.typeOid, none⟩

/-- `scan_source_files`: the texts of the queries in the sources, as they are written there. -/
def scanSourceFiles (sources : List Query) : List String :=
  ((sources.map Query.sql).insertionSort (· ≤ ·)).destutter (· ≠ ·)

def prepareOne (db : Database) (dir : Dir) (sql : String) : Dir :=
  match db.describe sql with
  | some (paramOids, fields) => dir.write (toFile sql paramOids fields)
  | none => dir

/-- `prepare`; it stops at a file that cannot be written, after `done` queries. -/
def prepare (db : Database) (sources : List Query) (done : ℕ) (dir : Dir) : Dir :=
  ((scanSourceFiles sources).take done).foldl (prepareOne db) dir

end Cli

/-! ### Runs -/

inductive Event where
  /-- A macro is expanded. -/
  | expand (q : Query) (offline answered stored : Bool)
  /-- `resolute-cli prepare` on sources with these queries. -/
  | prepare (sources : List Query) (done : ℕ)
  deriving DecidableEq, Repr

section

variable (U : Unicode) (db : Database)

def step (dir : Dir) : Event → Dir
  | .expand q offline answered stored =>
    match resolveNamed U q with
    | some sql => (resolveMetadata db offline answered stored dir sql).2
    | none => dir
  | .prepare sources done => Cli.prepare db sources done dir

/-- The cache directory after a run; it is empty at first. -/
def run (events : List Event) : Dir := events.foldl (step U db) fun _ => none

/-- The event puts the query's metadata into the cache if it is not there: an expansion of the query
that can write the file, or the command on sources with the query; the text can be described. -/
def Event.Populates (q : Query) : Event → Prop
  | .expand q' offline _ stored =>
    q' = q ∧ offline = false ∧ stored = true ∧ (resolveNamed U q).any (db.describe · ≠ none)
  | .prepare sources done =>
    q ∈ sources ∧ q.sql ∈ (Cli.scanSourceFiles sources).take done ∧ db.describe q.sql ≠ none

/-- The texts that an event is about. -/
def Event.texts : Event → List String
  | .expand q _ _ _ => (resolveNamed U q).toList
  | .prepare sources _ => sources.map Query.sql ++ sources.filterMap (resolveNamed U)

/-- What the cache holds for a text is what a live connection says of it. -/
def Right (dir : Dir) (sql : String) : Prop :=
  ∃ entry, readCache dir (hashSql sql) = some entry ∧ entry.sql = sql ∧
    describeLive db true sql = some entry.metadata

/-- An expansion that describes its query has an answer for the attributes; and the command meets
only queries that are described as they are written and have no columns that can be null. -/
def Event.Meets : Event → Prop
  | .expand _ offline answered stored => offline = true ∨ stored = false ∨ answered = true
  | .prepare sources _ => ∀ q ∈ sources, db.describe q.sql ≠ none →
    (∀ sql, resolveNamed U q = some sql → q.sql = sql) ∧
    ∀ metadata, describeLive db true q.sql = some metadata → ∀ c ∈ metadata.2, c.nullable = false

end

/-! ### What is described -/

section

variable {U : Unicode} {db : Database}

/-- A column, as the command knows it. -/
def CachedColumn.plain (c : CachedColumn) : CachedColumn := { c with nullable := false }

theorem markNotNull_plain (cols : List TableCol) (columns : List CachedColumn) (row : Attribute) :
    (markNotNull cols columns row).map CachedColumn.plain = columns.map CachedColumn.plain := by
  unfold markNotNull
  induction cols generalizing columns with
  | nil => rfl
  | cons c cols ih =>
    rw [List.foldl_cons, ih]
    split_ifs
    · refine List.ext_getElem (by simp) fun i _ _ => ?_
      rw [List.getElem_map, List.getElem_map, List.getElem_modify]
      split_ifs <;> rfl
    · rfl

/-- A live connection and the command agree but for what can be null. -/
theorem describeLive_plain {answered : Bool} {sql : String} {metadata : Metadata}
    (h : describeLive db answered sql = some metadata) : ∃ fields,
      db.describe sql = some (metadata.1, fields) ∧
        metadata.2.map CachedColumn.plain = fields.map fun f => ⟨f.name, f.typeOid, false⟩ := by
  unfold describeLive at h
  cases hdescribe : db.describe sql with
  | none => simp [hdescribe] at h
  | some described =>
    obtain ⟨paramOids, fields⟩ := described
    refine ⟨fields, ?_⟩
    have hfold : ∀ (rows : List Attribute) (columns : List CachedColumn),
        (rows.foldl (markNotNull (tableCols fields)) columns).map CachedColumn.plain =
          columns.map CachedColumn.plain := by
      intro rows
      induction rows with
      | nil => exact fun _ => rfl
      | cons row rows ih => exact fun columns => (ih _).trans (markNotNull_plain _ _ _)
    simp only [hdescribe, Option.bind_eq_bind, Option.bind_some] at h
    split_ifs at h
    · obtain rfl := Option.some_inj.1 h
      exact ⟨rfl, by rw [hfold, List.map_map]; rfl⟩
    · obtain rfl := Option.some_inj.1 h
      exact ⟨rfl, by rw [List.map_map]; rfl⟩

theorem describeLive_ne_none (answered : Bool) {sql : String} (h : db.describe sql ≠ none) :
    describeLive db answered sql ≠ none := by
  obtain ⟨described, hdescribe⟩ := Option.ne_none_iff_exists'.1 h
  unfold describeLive
  simp only [hdescribe, Option.bind_eq_bind, Option.bind_some]
  split_ifs <;> exact fun h => by cases h

/-! ### What is in the cache -/

/-- The metadata that a macro reads from a file. -/
def File.metadata (file : File) : Metadata :=
  (file.paramOids, file.columns.map fun c => ⟨c.name, c.typeOid, c.nullable.getD false⟩)

/-- Each file has the metadata of its own text, which is one of `texts`. -/
def Coherent (db : Database) (texts : List String) (dir : Dir) : Prop :=
  ∀ hash file, dir hash = some file → hash = hashSql file.sql ∧ file.sql ∈ texts ∧
    describeLive db true file.sql = some file.metadata

theorem Coherent.write {texts : List String} {dir : Dir} (h : Coherent db texts dir) {file : File}
    (hhash : file.hash = hashSql file.sql) (htext : file.sql ∈ texts)
    (hlive : describeLive db true file.sql = some file.metadata) :
    Coherent db texts (dir.write file) := by
  intro hash file' hfile
  by_cases heq : hash = file.hash
  · subst heq
    obtain rfl : file = file' := by simpa [Dir.write] using hfile
    exact ⟨hhash, htext, hlive⟩
  · exact h hash file' (by simpa [Dir.write, heq] using hfile)

theorem write_ne_none {dir : Dir} {file : File} {hash : UInt64} (h : dir hash ≠ none) :
    dir.write file hash ≠ none := by
  unfold Dir.write
  by_cases heq : hash = file.hash
  · simp [heq]
  · simpa [heq] using h

theorem CacheEntry.metadata_toFile (entry : CacheEntry) :
    entry.toFile.metadata = entry.metadata := by
  have hcolumns : entry.toFile.columns.map
      (fun c => CachedColumn.mk c.name c.typeOid (c.nullable.getD false)) = entry.columns :=
    List.map_map.trans (List.map_id entry.columns)
  rw [File.metadata, hcolumns]
  rfl

/-- What the command writes is right if no column can be null. -/
theorem Cli.metadata_toFile {sql : String} {paramOids : List Oid} {fields : List FieldDescription}
    {metadata : Metadata} (h : describeLive db true sql = some metadata)
    (hdescribe : db.describe sql = some (paramOids, fields))
    (hnull : ∀ c ∈ metadata.2, c.nullable = false) :
    (toFile sql paramOids fields).metadata = metadata := by
  obtain ⟨fields', hdescribe', hplain⟩ := describeLive_plain h
  rw [hdescribe] at hdescribe'
  obtain ⟨rfl, rfl⟩ := Prod.mk.inj (Option.some_inj.1 hdescribe')
  have hself : ∀ c ∈ metadata.2, c.plain = c := fun c hc => by
    rw [CachedColumn.plain, ← hnull c hc]
  refine Prod.ext rfl ?_
  rw [List.map_congr_left hself, List.map_id'] at hplain
  rw [hplain]
  exact List.map_map

section

variable {texts : List String} {dir : Dir}

/-- The macros write nothing, or a file for a text that they have described. -/
theorem resolveMetadata_cases (db : Database) (offline answered stored : Bool) (dir : Dir)
    (sql : String) :
    (resolveMetadata db offline answered stored dir sql).2 = dir ∧
        (dir (hashSql sql) ≠ none ∨ offline = true ∨ stored = false ∨ db.describe sql = none) ∨
      offline = false ∧ stored = true ∧ ∃ metadata, describeLive db answered sql = some metadata ∧
        (resolveMetadata db offline answered stored dir sql).2 =
          dir.write (CacheEntry.mk sql (hashSql sql) metadata.1 metadata.2).toFile := by
  unfold resolveMetadata
  cases hread : readCache dir (hashSql sql) with
  | some cached =>
    refine .inl ⟨rfl, .inl fun hnone => ?_⟩
    simp [readCache, hnone] at hread
  | none =>
    cases offline with
    | true => exact .inl ⟨rfl, .inr (.inl rfl)⟩
    | false =>
      cases hlive : describeLive db answered sql with
      | none =>
        refine .inl ⟨rfl, .inr (.inr (.inr ?_))⟩
        by_contra hdescribe
        exact describeLive_ne_none _ hdescribe hlive
      | some metadata =>
        cases stored with
        | false => exact .inl ⟨rfl, .inr (.inr (.inl rfl))⟩
        | true => exact .inr ⟨rfl, rfl, metadata, rfl, rfl⟩

theorem prepareOne_cases (db : Database) (dir : Dir) (sql : String) :
    db.describe sql = none ∧ Cli.prepareOne db dir sql = dir ∨
      ∃ paramOids fields, db.describe sql = some (paramOids, fields) ∧
        Cli.prepareOne db dir sql = dir.write (Cli.toFile sql paramOids fields) := by
  unfold Cli.prepareOne
  cases hdescribe : db.describe sql with
  | none => exact .inl ⟨rfl, rfl⟩
  | some described => exact .inr ⟨described.1, described.2, rfl, rfl⟩

theorem resolveMetadata_coherent {offline answered stored : Bool} {sql : String}
    (h : Coherent db texts dir) (htext : sql ∈ texts)
    (hmeets : offline = true ∨ stored = false ∨ answered = true) :
    Coherent db texts (resolveMetadata db offline answered stored dir sql).2 := by
  rcases resolveMetadata_cases db offline answered stored dir sql with
    ⟨heq, -⟩ | ⟨hoffline, hstored, metadata, hlive, heq⟩
  · rw [heq]
    exact h
  · have hanswered : answered = true := by simpa [hoffline, hstored] using hmeets
    subst hanswered
    rw [heq]
    refine h.write rfl htext (hlive.trans ?_)
    rw [CacheEntry.metadata_toFile]
    rfl

theorem prepareOne_coherent {sql : String} (h : Coherent db texts dir) (htext : sql ∈ texts)
    (hnull : ∀ metadata, describeLive db true sql = some metadata →
      ∀ c ∈ metadata.2, c.nullable = false) :
    Coherent db texts (Cli.prepareOne db dir sql) := by
  rcases prepareOne_cases db dir sql with ⟨-, heq⟩ | ⟨paramOids, fields, hdescribe, heq⟩
  · rw [heq]
    exact h
  · have hsome : db.describe sql ≠ none := by
      rw [hdescribe]
      simp
    obtain ⟨metadata, hlive⟩ := Option.ne_none_iff_exists'.1 (describeLive_ne_none true hsome)
    rw [heq]
    refine h.write rfl htext (hlive.trans ?_)
    rw [Cli.metadata_toFile hlive hdescribe (hnull metadata hlive)]

theorem prepare_coherent {sources : List Query} (h : Coherent db texts dir)
    (htexts : ∀ q ∈ sources, q.sql ∈ texts)
    (hmeets : ∀ q ∈ sources, db.describe q.sql ≠ none →
      ∀ metadata, describeLive db true q.sql = some metadata → ∀ c ∈ metadata.2, c.nullable = false)
    (done : ℕ) : Coherent db texts (Cli.prepare db sources done dir) := by
  have hmem : ∀ sql ∈ (Cli.scanSourceFiles sources).take done, ∃ q ∈ sources, q.sql = sql := by
    intro sql hsql
    have hsorted := (List.destutter_sublist _ _).subset (List.mem_of_mem_take hsql)
    exact List.mem_map.1 ((List.mem_insertionSort _).1 hsorted)
  unfold Cli.prepare
  generalize (Cli.scanSourceFiles sources).take done = sqls at hmem ⊢
  induction sqls generalizing dir with
  | nil => exact h
  | cons sql sqls ih =>
    obtain ⟨q, hq, rfl⟩ := hmem sql List.mem_cons_self
    refine ih ?_ fun sql hsql => hmem sql (List.mem_cons_of_mem _ hsql)
    refine prepareOne_coherent h (htexts q hq) ?_
    by_cases hdescribe : db.describe q.sql = none
    · intro metadata hlive
      simp [describeLive, hdescribe] at hlive
    · exact hmeets q hq hdescribe

theorem step_coherent {e : Event} (h : Coherent db texts dir) (htexts : ∀ t ∈ e.texts U, t ∈ texts)
    (hmeets : e.Meets U db) : Coherent db texts (step U db dir e) := by
  cases e with
  | expand q offline answered stored =>
    cases hresolve : resolveNamed U q with
    | none => simpa [step, hresolve] using h
    | some sql =>
      have htext : sql ∈ texts := htexts sql (by simp [Event.texts, hresolve])
      simpa [step, hresolve] using resolveMetadata_coherent h htext hmeets
  | prepare sources done =>
    refine prepare_coherent h (fun q hq => htexts q.sql ?_)
      (fun q hq hdescribe => (hmeets q hq hdescribe).2) done
    exact List.mem_append_left _ (List.mem_map_of_mem hq)

/-! ### What stays in the cache -/

theorem prepareOne_ne_none {sql : String} {hash : UInt64} (h : dir hash ≠ none) :
    Cli.prepareOne db dir sql hash ≠ none := by
  rcases prepareOne_cases db dir sql with ⟨-, heq⟩ | ⟨paramOids, fields, -, heq⟩ <;> rw [heq]
  · exact h
  · exact write_ne_none h

theorem foldl_prepareOne_ne_none {sqls : List String} {hash : UInt64} (h : dir hash ≠ none) :
    sqls.foldl (Cli.prepareOne db) dir hash ≠ none := by
  induction sqls generalizing dir with
  | nil => exact h
  | cons sql sqls ih => exact ih (prepareOne_ne_none h)

theorem foldl_prepareOne_of_mem {sqls : List String} {sql : String} (h : sql ∈ sqls)
    (hdescribe : db.describe sql ≠ none) :
    sqls.foldl (Cli.prepareOne db) dir (hashSql sql) ≠ none := by
  induction sqls generalizing dir with
  | nil => cases h
  | cons sql' sqls ih =>
    rw [List.foldl_cons]
    rcases List.mem_cons.1 h with rfl | h
    · refine foldl_prepareOne_ne_none ?_
      rcases prepareOne_cases db dir sql with ⟨hnone, -⟩ | ⟨paramOids, fields, -, heq⟩
      · exact absurd hnone hdescribe
      · rw [heq]
        simp [Dir.write, Cli.toFile]
    · exact ih h

theorem step_ne_none {e : Event} {hash : UInt64} (h : dir hash ≠ none) :
    step U db dir e hash ≠ none := by
  cases e with
  | expand q offline answered stored =>
    cases hresolve : resolveNamed U q with
    | none => simpa [step, hresolve] using h
    | some sql =>
      simp only [step, hresolve]
      rcases resolveMetadata_cases db offline answered stored dir sql with
        ⟨heq, -⟩ | ⟨-, -, metadata, -, heq⟩ <;> rw [heq]
      · exact h
      · exact write_ne_none h
  | prepare sources done => exact foldl_prepareOne_ne_none h

/-- An event that populates the cache for a query leaves a file for its text. -/
theorem step_populates {q : Query} {sql : String} (hresolve : resolveNamed U q = some sql)
    {e : Event} (h : e.Populates U db q) (hmeets : e.Meets U db) :
    step U db dir e (hashSql sql) ≠ none := by
  cases e with
  | expand q' offline answered stored =>
    obtain ⟨rfl, rfl, rfl, hdescribe⟩ := h
    rw [hresolve, Option.any_some, decide_eq_true_eq] at hdescribe
    simp only [step, hresolve]
    rcases resolveMetadata_cases db false answered true dir sql with
      ⟨heq, hreason⟩ | ⟨-, -, metadata, -, heq⟩ <;> rw [heq]
    · simpa [hdescribe] using hreason
    · simp [Dir.write, CacheEntry.toFile]
  | prepare sources done =>
    obtain ⟨hq, hmem, hdescribe⟩ := h
    obtain rfl := (hmeets q hq hdescribe).1 sql hresolve
    exact foldl_prepareOne_of_mem hmem hdescribe

end

/-! ### Runs -/

theorem foldl_step_coherent {texts : List String} {dir : Dir} {events : List Event}
    (h : Coherent db texts dir) (htexts : ∀ e ∈ events, ∀ t ∈ e.texts U, t ∈ texts)
    (hmeets : ∀ e ∈ events, e.Meets U db) :
    Coherent db texts (events.foldl (step U db) dir) := by
  induction events generalizing dir with
  | nil => exact h
  | cons e events ih =>
    refine ih (step_coherent h (htexts e List.mem_cons_self) (hmeets e List.mem_cons_self)) ?_ ?_
    · exact fun e he => htexts e (List.mem_cons_of_mem _ he)
    · exact fun e he => hmeets e (List.mem_cons_of_mem _ he)

theorem foldl_step_ne_none {dir : Dir} {hash : UInt64} (h : dir hash ≠ none)
    (events : List Event) : events.foldl (step U db) dir hash ≠ none := by
  induction events generalizing dir with
  | nil => exact h
  | cons e events ih => exact ih (step_ne_none h)

theorem foldl_step_populates {dir : Dir} {q : Query} {sql : String}
    (hresolve : resolveNamed U q = some sql) {events : List Event}
    (hmeets : ∀ e ∈ events, e.Meets U db) (h : ∃ e ∈ events, e.Populates U db q) :
    events.foldl (step U db) dir (hashSql sql) ≠ none := by
  obtain ⟨e, he, hpopulates⟩ := h
  obtain ⟨before, after, rfl⟩ := List.append_of_mem he
  rw [List.foldl_append, List.foldl_cons]
  exact foldl_step_ne_none (step_populates hresolve hpopulates (hmeets e he)) after

theorem Event.mem_texts {q : Query} {sql : String} (hresolve : resolveNamed U q = some sql)
    {e : Event} (h : e.Populates U db q) : sql ∈ e.texts U := by
  cases e with
  | expand q' offline answered stored =>
    obtain ⟨rfl, -⟩ := h
    simp [Event.texts, hresolve]
  | prepare sources done =>
    exact List.mem_append_right _ (List.mem_filterMap.2 ⟨q, h.1, hresolve⟩)

/-- **When the cache is right.**  In a run of expansions and preparations that meet the condition,
and in which no two texts have the same hash, the cache has for each text no file or the metadata of
a live connection, and it has a file for each query that it was populated with. -/
theorem run_right (U : Unicode) (db : Database) (events : List Event)
    (hdistinct : ∀ s ∈ events.flatMap (Event.texts U), ∀ t ∈ events.flatMap (Event.texts U),
      hashSql s = hashSql t → s = t)
    (hmeets : ∀ e ∈ events, e.Meets U db) :
    (∀ sql ∈ events.flatMap (Event.texts U),
      readCache (run U db events) (hashSql sql) = none ∨ Right db (run U db events) sql) ∧
    ∀ q sql, resolveNamed U q = some sql → (∃ e ∈ events, e.Populates U db q) →
      Right db (run U db events) sql := by
  have hcoherent : Coherent db (events.flatMap (Event.texts U)) (run U db events) :=
    foldl_step_coherent (fun hash file hfile => by cases hfile)
      (fun e he t ht => List.mem_flatMap.2 ⟨e, he, ht⟩) hmeets
  have hright : ∀ sql ∈ events.flatMap (Event.texts U),
      run U db events (hashSql sql) ≠ none → Right db (run U db events) sql := by
    intro sql hsql hfile
    obtain ⟨file, hfile⟩ := Option.ne_none_iff_exists'.1 hfile
    obtain ⟨hhash, htext, hlive⟩ := hcoherent _ _ hfile
    obtain rfl := hdistinct sql hsql file.sql htext hhash
    exact ⟨⟨file.sql, file.hash, file.paramOids, file.metadata.2⟩, by rw [readCache, hfile]; rfl,
      rfl, hlive⟩
  constructor
  · intro sql hsql
    by_cases hfile : run U db events (hashSql sql) = none
    · exact .inl (by rw [readCache, hfile]; rfl)
    · exact .inr (hright sql hsql hfile)
  · rintro q sql hresolve hpopulates
    refine hright sql ?_ (foldl_step_populates hresolve hmeets hpopulates)
    obtain ⟨e, he, hpopulates⟩ := hpopulates
    exact List.mem_flatMap.2 ⟨e, he, Event.mem_texts hresolve hpopulates⟩

/-- One query and the command: what is right about it is what `run_right` asks for. -/
theorem prepared_iff {q : Query} {sql : String} (hdescribe : db.describe q.sql ≠ none) :
    Right db (run U db [.prepare [q] 1]) sql ↔ q.sql = sql ∧
      ∀ metadata, describeLive db true q.sql = some metadata →
        ∀ c ∈ metadata.2, c.nullable = false := by
  obtain ⟨described, hdescribe'⟩ := Option.ne_none_iff_exists'.1 hdescribe
  have hrun : run U db [.prepare [q] 1] =
      Dir.write (fun _ => none) (Cli.toFile q.sql described.1 described.2) := by
    simp [run, step, Cli.prepare, Cli.scanSourceFiles, Cli.prepareOne, hdescribe']
  rw [hrun]
  constructor
  · rintro ⟨entry, hread, hsql, hlive⟩
    rw [readCache] at hread
    obtain ⟨file, hfile, rfl⟩ := Option.map_eq_some_iff.1 hread
    obtain rfl : Cli.toFile q.sql described.1 described.2 = file := by
      by_cases heq : hashSql sql = hashSql q.sql
      · simpa [Dir.write, Cli.toFile, heq] using hfile
      · simp [Dir.write, Cli.toFile, heq] at hfile
    obtain rfl : q.sql = sql := hsql
    refine ⟨rfl, fun metadata hmetadata c hc => ?_⟩
    obtain rfl := Option.some_inj.1 (hmetadata.symm.trans hlive)
    obtain ⟨c', hc', rfl⟩ := List.mem_map.1 hc
    obtain ⟨f, -, rfl⟩ := List.mem_map.1 hc'
    rfl
  · rintro ⟨rfl, hnull⟩
    obtain ⟨metadata, hlive⟩ := Option.ne_none_iff_exists'.1 (describeLive_ne_none true hdescribe)
    have hmetadata := Cli.metadata_toFile hlive hdescribe' (hnull metadata hlive)
    refine ⟨⟨q.sql, hashSql q.sql, described.1, metadata.2⟩, ?_, rfl, ?_⟩
    · rw [← hmetadata]
      simp [readCache, Dir.write, Cli.toFile, File.metadata]
    · rw [hlive, ← hmetadata]
      rfl

/-- A column of a table that is never null, constants, and a parameter. -/
def sample : Database where
  describe sql :=
    if sql = "SELECT id FROM t" then some ([], [⟨"id", 16384, 1, 23, 4, -1, .text⟩])
    else if sql = "SELECT $1" then some ([25], [⟨"?column?", 0, 0, 25, -1, -1, .text⟩])
    else if "SELECT 1 AS ".toList <+: sql.toList then
      some ([], [⟨String.ofList (sql.toList.drop 12), 0, 0, 23, 4, -1, .text⟩])
    else none
  attributes := [⟨16384, 1, true⟩]

theorem run_right_sample : Right sample
    (run .ascii sample [.prepare [⟨"SELECT id FROM t", []⟩] 1,
      .expand ⟨"SELECT 1 AS n", []⟩ false true true]) "SELECT id FROM t" := by
  refine (run_right .ascii sample _ ?_ ?_).2 ⟨"SELECT id FROM t", []⟩ _ rfl
    ⟨_, List.mem_cons_self, List.mem_cons_self, ?_, ?_⟩
  · decide +kernel
  · intro e he
    rcases List.mem_cons.1 he with rfl | he
    · intro q hq _
      obtain rfl := List.mem_singleton.1 hq
      refine ⟨fun sql hresolve => Option.some_inj.1 hresolve, fun metadata hlive => ?_⟩
      have hcolumns : describeLive sample true "SELECT id FROM t" =
          some ([], [⟨"id", 23, false⟩]) := by decide +kernel
      obtain rfl := Option.some_inj.1 (hcolumns.symm.trans hlive)
      decide
    · obtain rfl := List.mem_singleton.1 he
      exact .inr (.inr rfl)
  · decide +kernel
  · decide

/-- A column that can be null, a named parameter, and two texts with the same hash. -/
theorem not_right :
    ¬Right sample (run .ascii sample [.prepare [⟨"SELECT 1 AS n", []⟩] 1]) "SELECT 1 AS n" ∧
    ¬Right sample (run .ascii sample [.prepare [⟨"SELECT :id", ["id"]⟩] 1]) "SELECT $1" ∧
    ¬Right sample
      (run .ascii sample [.expand ⟨"SELECT 1 AS c2f27579436069787", []⟩ false true true])
      "SELECT 1 AS caaba3b2bea7123c0" := by
  have hnull : describeLive sample true "SELECT 1 AS n" = some ([], [⟨"n", 23, true⟩]) := by
    decide +kernel
  refine ⟨?_, ?_, ?_⟩
  · rw [prepared_iff (by decide)]
    rintro ⟨-, hall⟩
    exact absurd (hall _ hnull ⟨"n", 23, true⟩ List.mem_cons_self) (by decide)
  · rintro ⟨entry, hread, -⟩
    have hnone : readCache (run .ascii sample [.prepare [⟨"SELECT :id", ["id"]⟩] 1])
        (hashSql "SELECT $1") = none := by decide +kernel
    cases hnone.symm.trans hread
  · rintro ⟨entry, hread, hsql, -⟩
    have hother : (readCache
        (run .ascii sample [.expand ⟨"SELECT 1 AS c2f27579436069787", []⟩ false true true])
        (hashSql "SELECT 1 AS caaba3b2bea7123c0")).map CacheEntry.sql =
          some "SELECT 1 AS c2f27579436069787" := by decide +kernel
    rw [hread, Option.map_some, hsql] at hother
    exact absurd hother (by decide)

end

end Resolute.QueryCache
