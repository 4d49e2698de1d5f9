import Resolute.Macros.Metadata
import Resolute.Relational.Basic
import Resolute.Wire.Read

/-!
# Which columns can be null

A column of a query's result is not nullable for the macros if it is a plain reference to a column
of a table that is `NOT NULL`.  The server's row description says what it refers to
(`Statement.fields`), and `pg_attribute` has the flag.  Neither says that an outer join may put NULL
in its place.

How the server parses a text is a parameter (`Server`).  The columns that `describe_live` has as not
nullable are known from the row description (`describeLive_eq`), and it is `Sound` if none of them
is NULL in any row.  `describeLive_sound_iff` says for which statements it is.
-/

namespace Resolute

namespace WireConn

/-- The loop of `WireConn::describe_statement`. -/
def describeFrom (paramOids : List Oid) (fields : List FieldDescription) :
    Read (List Oid × List FieldDescription)
  | [] => none
  | .error e :: rs => some (.error e, rs)
  | .ok (.parameterDescription typeOids) :: rs => describeFrom typeOids fields rs
  | .ok (.rowDescription fields) :: rs => describeFrom paramOids fields rs
  | .ok (.readyForQuery _) :: rs => some (.ok (paramOids, fields), rs)
  | .ok (.errorResponse fields) :: rs =>
    (drainUntilReady >>= fun _ => Read.fail (.pg fields)) rs
  | .ok _ :: rs => describeFrom paramOids fields rs

/-- `WireConn::describe_statement`, after `Parse`, `Describe` and `Sync` are sent. -/
def describeStatement : Read (List Oid × List FieldDescription) := describeFrom [] []

end WireConn

/-! ### What is reported -/

namespace QueryCache

/-- The field is a column of a table, and `pg_attribute` has it as `NOT NULL`. -/
def Database.NotNull (db : Database) (f : FieldDescription) : Prop :=
  f.tableOid ≠ 0 ∧ 0 < f.columnId ∧ ⟨f.tableOid, f.columnId, true⟩ ∈ db.attributes

instance (db : Database) (f : FieldDescription) : Decidable (db.NotNull f) :=
  inferInstanceAs (Decidable (_ ∧ _ ∧ _))

/-- The row says that column `i` is `NOT NULL`. -/
def marks (cols : List TableCol) (row : Attribute) (i : ℕ) : Bool :=
  cols.any fun c =>
    c.idx = i ∧ c.tableOid = row.attrelid ∧ c.columnId = row.attnum ∧ row.attnotnull

/-- The column, which is not nullable if `notNull`. -/
def CachedColumn.mark (c : CachedColumn) (notNull : Bool) : CachedColumn :=
  { c with nullable := c.nullable && !notNull }

theorem CachedColumn.mark_mark (c : CachedColumn) (b b' : Bool) :
    (c.mark b).mark b' = c.mark (b || b') := by
  simp [CachedColumn.mark, Bool.and_assoc]

theorem CachedColumn.mark_false (c : CachedColumn) : c.mark false = c := by
  simp [CachedColumn.mark]

theorem getElem?_modify_nullable (columns : List CachedColumn) (idx i : ℕ) :
    (columns.modify idx ({ · with nullable := false }))[i]? =
      columns[i]?.map (·.mark (decide (idx = i))) := by
  rw [List.getElem?_modify]
  by_cases h : idx = i
  · simp [h, CachedColumn.mark]
  · simp [h, CachedColumn.mark]

theorem getElem?_markNotNull (cols : List TableCol) (columns : List CachedColumn)
    (row : Attribute) (i : ℕ) :
    (markNotNull cols columns row)[i]? = columns[i]?.map (·.mark (marks cols row i)) := by
  unfold markNotNull marks
  induction cols generalizing columns with
  | nil => simp [CachedColumn.mark_false]
  | cons c cols ih =>
    rw [List.foldl_cons, ih, List.any_cons]
    split_ifs with h
    · rw [getElem?_modify_nullable, Option.map_map]
      congr 1
      funext column
      rw [Function.comp_apply, column.mark_mark]
      simp only [h, and_true]
    · simp only [h, and_false, decide_false, Bool.false_or]

theorem getElem?_foldl_markNotNull (cols : List TableCol) (rows : List Attribute)
    (columns : List CachedColumn) (i : ℕ) :
    (rows.foldl (markNotNull cols) columns)[i]? =
      columns[i]?.map (·.mark (rows.any (marks cols · i))) := by
  induction rows generalizing columns with
  | nil => simp [CachedColumn.mark_false]
  | cons row rows ih =>
    rw [List.foldl_cons, ih, getElem?_markNotNull, Option.map_map, List.any_cons]
    congr 1
    funext c
    exact c.mark_mark _ _

theorem mem_tableCols {fields : List FieldDescription} {c : TableCol} :
    c ∈ tableCols fields ↔ ∃ f, fields[c.idx]? = some f ∧ c.tableOid = f.tableOid ∧
      c.columnId = f.columnId ∧ f.tableOid ≠ 0 ∧ 0 < f.columnId := by
  unfold tableCols
  rw [List.mem_filter, List.mem_mapIdx, decide_eq_true_eq]
  constructor
  · rintro ⟨⟨i, hi, rfl⟩, hoid, hid⟩
    exact ⟨fields[i], List.getElem?_eq_getElem hi, rfl, rfl, hoid, hid⟩
  · rintro ⟨f, hf, hoid, hid, hne, hpos⟩
    obtain ⟨hi, rfl⟩ := List.getElem?_eq_some_iff.1 hf
    refine ⟨⟨c.idx, hi, ?_⟩, hoid ▸ hne, hid ▸ hpos⟩
    rw [← hoid, ← hid]

/-- The rows that are asked for say which columns are `NOT NULL`. -/
theorem any_marks_iff {db : Database} {fields : List FieldDescription} {i : ℕ}
    {f : FieldDescription} (hf : fields[i]? = some f) :
    (db.attributesOf (tableCols fields)).any (marks (tableCols fields) · i) = true ↔
      db.NotNull f := by
  simp only [List.any_eq_true, marks, decide_eq_true_eq]
  constructor
  · rintro ⟨row, hrow, c, hc, rfl, hoid, hid, hnotnull⟩
    obtain ⟨f', hf', hoid', hid', hne, hpos⟩ := mem_tableCols.1 hc
    obtain rfl := Option.some_inj.1 (hf.symm.trans hf')
    refine ⟨hne, hpos, ?_⟩
    rw [← hoid', ← hid', hoid, hid, ← hnotnull]
    exact (List.mem_filter.1 hrow).1
  · rintro ⟨hne, hpos, hmem⟩
    have hc : ⟨i, f.tableOid, f.columnId⟩ ∈ tableCols fields :=
      mem_tableCols.2 ⟨f, hf, rfl, rfl, hne, hpos⟩
    refine ⟨_, List.mem_filter.2 ⟨hmem, ?_⟩, _, hc, rfl, rfl, rfl, rfl⟩
    exact List.any_eq_true.2 ⟨_, hc, by simp⟩

/-- **What `describe_live` reports.**  All columns are nullable but those of tables that are
`NOT NULL`, and these are too if there is no answer for the attributes. -/
theorem describeLive_eq {db : Database} {sql : String} {paramOids : List Oid}
    {fields : List FieldDescription} (h : db.describe sql = some (paramOids, fields))
    (answered : Bool) :
    describeLive db answered sql = some (paramOids, fields.map fun f =>
      ⟨f.name, f.typeOid, !(answered && decide (db.NotNull f))⟩) := by
  unfold describeLive
  simp only [h, Option.bind_eq_bind, Option.bind_some]
  split_ifs with hasked
  · refine congrArg (fun columns => some (paramOids, columns)) (List.ext_getElem? fun i => ?_)
    rw [getElem?_foldl_markNotNull, List.getElem?_map, List.getElem?_map, Option.map_map]
    cases hf : fields[i]? with
    | none => rfl
    | some f =>
      have hmarks : (db.attributesOf (tableCols fields)).any (marks (tableCols fields) · i) =
          decide (db.NotNull f) :=
        Bool.eq_iff_iff.2 ((any_marks_iff hf).trans decide_eq_true_iff.symm)
      simp [CachedColumn.mark, hmarks, hasked.2]
  · refine congrArg (fun columns => some (paramOids, columns)) (List.map_congr_left fun f hf => ?_)
    have hnone : (answered && decide (db.NotNull f)) = false := by
      by_contra hnotnull
      obtain ⟨hanswered, hne, hpos, -⟩ : answered = true ∧ db.NotNull f := by simpa using hnotnull
      obtain ⟨i, hi⟩ := List.getElem?_of_mem hf
      have hmem : ⟨i, f.tableOid, f.columnId⟩ ∈ tableCols fields :=
        mem_tableCols.2 ⟨f, hi, rfl, rfl, hne, hpos⟩
      exact hasked ⟨List.ne_nil_of_mem hmem, hanswered⟩
    rw [hnone, Bool.not_false]

end QueryCache

/-! ### What can be null -/

namespace Nullability

open QueryCache Relational

/-- The rows of the tables: the values of their columns, by number. -/
abbrev Tables := Oid → List (Int16 → Option Bytes)

/-- What else an execution depends on. -/
structure Given where
  params : List (Option Bytes)
  /-- The clock, random values, and the order of rows. -/
  choices : ℕ
  deriving DecidableEq, Repr

/-- A statement, as the server parses it. -/
structure Statement where
  paramOids : List Oid
  shape : Shape Oid Int16
  query : Query Oid Int16 Bytes Given shape
  /-- The fields of the row description, but for the columns of tables. -/
  labels : ℕ → FieldDescription

/-- The row description: a plain reference has the table and the column that it refers to. -/
def Statement.fields (stmt : Statement) : List FieldDescription :=
  stmt.shape.columns.mapIdx fun i c =>
    { stmt.labels i with
      tableOid := (c.origin.map Prod.fst).getD 0
      columnId := (c.origin.map Prod.snd).getD 0 }

/-- The rows that an execution returns. -/
def execute {s : Shape Oid Int16} (query : Query Oid Int16 Bytes Given s) (tables : Tables)
    (given : Given) : List (List (Option Bytes)) :=
  (query.rows { tables, given }).map seen

structure Server where
  parse : String → Except PgError Statement
  attributes : List Attribute

/-- The answer to `Parse`, `Describe` and `Sync`. -/
def Server.answer (srv : Server) (sql : String) : List BackendMsg :=
  match srv.parse sql with
  | .ok stmt =>
    [.parseComplete, .parameterDescription stmt.paramOids,
      if stmt.fields = [] then .noData else .rowDescription stmt.fields, .readyForQuery 73]
  | .error fields => [.errorResponse fields, .readyForQuery 73]

/-- The server, as `describe_live` sees it. -/
def Server.database (srv : Server) : Database where
  describe sql :=
    match WireConn.describeStatement ((srv.answer sql).map .ok) with
    | some (.ok described, _) => some described
    | _ => none
  attributes := srv.attributes

/-- The column is a plain reference to one that `pg_attribute` has as `NOT NULL`. -/
def Server.NotNull (srv : Server) (c : Column Oid Int16) : Prop :=
  ∃ t a, c.origin = some (t, a) ∧ t ≠ 0 ∧ 0 < a ∧ ⟨t, a, true⟩ ∈ srv.attributes

/-- What the tables can hold. -/
def Server.Admits (srv : Server) (tables : Tables) : Prop :=
  ∀ a ∈ srv.attributes, a.attnotnull = true → ∀ row ∈ tables a.attrelid, row a.attnum ≠ none

/-- What is reported as not nullable is not NULL in any row that an execution returns. -/
def Sound (srv : Server) {s : Shape Oid Int16} (query : Query Oid Int16 Bytes Given s)
    (columns : List CachedColumn) : Prop :=
  ∀ tables given, srv.Admits tables → ∀ row ∈ execute query tables given,
    ∀ (i : ℕ) (c : CachedColumn), columns[i]? = some c → c.nullable = false →
      ∃ v, row[i]? = some (some v)

/-- No outer join and no grouping set has put NULL in the place of a `NOT NULL` column in a row that
is left when the query is done. -/
def Unpadded (srv : Server) {s : Shape Oid Int16} (query : Query Oid Int16 Bytes Given s) : Prop :=
  ∀ tables given, srv.Admits tables → ∀ x ∈ query.rows { tables, given },
    ∀ (i : ℕ) (c : Column Oid Int16), s.columns[i]? = some c → srv.NotNull c →
      x[i]? ≠ some .padding

section

variable {srv : Server} {sql : String} {stmt : Statement}

theorem Server.describe_eq (h : srv.parse sql = .ok stmt) :
    srv.database.describe sql = some (stmt.paramOids, stmt.fields) := by
  by_cases hfields : stmt.fields = []
  · simp [Server.database, Server.answer, h, hfields, WireConn.describeStatement,
      WireConn.describeFrom]
  · simp [Server.database, Server.answer, h, hfields, WireConn.describeStatement,
      WireConn.describeFrom]

/-- What a row description that says where a column comes from leads to. -/
theorem Server.notNull_field_iff {label : FieldDescription} {c : Column Oid Int16} :
    srv.database.NotNull { label with
      tableOid := (c.origin.map Prod.fst).getD 0
      columnId := (c.origin.map Prod.snd).getD 0 } ↔ srv.NotNull c := by
  unfold Database.NotNull Server.NotNull
  cases c.origin with
  | none => simp
  | some origin =>
    obtain ⟨t, a⟩ := origin
    simp [Server.database]

/-- The columns that are reported as not nullable. -/
theorem reported_iff {answered : Bool} {columns : List CachedColumn}
    (hcolumns : columns = stmt.fields.map fun f =>
      ⟨f.name, f.typeOid, !(answered && decide (srv.database.NotNull f))⟩) {i : ℕ} :
    (∃ c : CachedColumn, columns[i]? = some c ∧ c.nullable = false) ↔
      answered = true ∧ ∃ c, stmt.shape.columns[i]? = some c ∧ srv.NotNull c := by
  subst hcolumns
  rw [List.getElem?_map, Statement.fields, List.getElem?_mapIdx]
  cases stmt.shape.columns[i]? with
  | none => simp
  | some c =>
    simp only [Option.map_some, Option.some.injEq, exists_eq_left', Bool.not_eq_false',
      Bool.and_eq_true, decide_eq_true_eq]
    rw [Server.notNull_field_iff]

/-- A cell of a `NOT NULL` column is NULL only as padding. -/
theorem seen_of_notNull {tables : Tables} {c : Column Oid Int16} {cell : Cell Bytes}
    (hadmits : srv.Admits tables) (hallows : c.Allows tables cell) (hnotnull : srv.NotNull c)
    (hcell : cell ≠ .padding) : ∃ v, cell.seen = some v := by
  obtain ⟨t, a, horigin, -, -, hmem⟩ := hnotnull
  obtain ⟨row, hrow, rfl⟩ := (hallows.2 t a horigin).resolve_left hcell
  obtain ⟨v, hv⟩ := Option.ne_none_iff_exists'.1 (hadmits _ hmem rfl row hrow)
  exact ⟨v, (Cell.seen_ofOption _).trans hv⟩

theorem sound_iff {answered : Bool} {columns : List CachedColumn}
    (hcolumns : columns = stmt.fields.map fun f =>
      ⟨f.name, f.typeOid, !(answered && decide (srv.database.NotNull f))⟩)
    (query : Query Oid Int16 Bytes Given stmt.shape) :
    Sound srv query columns ↔ (answered = true → Unpadded srv query) := by
  constructor
  · intro hsound hanswered tables given hadmits x hx i c hc hnotnull hpad
    obtain ⟨c', hc', hnullable⟩ := (reported_iff hcolumns).2 ⟨hanswered, c, hc, hnotnull⟩
    obtain ⟨v, hv⟩ := hsound tables given hadmits _ (List.mem_map_of_mem hx) i c' hc' hnullable
    rw [seen, List.getElem?_map, hpad] at hv
    cases hv
  · intro hunpadded tables given hadmits row hrow i c hc hnullable
    obtain ⟨x, hx, rfl⟩ := List.mem_map.1 hrow
    obtain ⟨hanswered, c', hc', hnotnull⟩ := (reported_iff hcolumns).1 ⟨c, hc, hnullable⟩
    obtain ⟨cell, hcell, hallows⟩ := (query.rows_fit _ x hx).getElem? hc'
    have hpad : cell ≠ .padding := by
      rintro rfl
      exact hunpadded hanswered tables given hadmits x hx i c' hc' hnotnull hcell
    obtain ⟨v, hv⟩ := seen_of_notNull hadmits hallows hnotnull hpad
    exact ⟨v, by rw [seen, List.getElem?_map, hcell, Option.map_some, hv]⟩

/-- What the conditions and the expressions are does not matter. -/
theorem unpadded_iff {s : Shape Oid Int16} :
    (∀ query : Query Oid Int16 Bytes Given s, Unpadded srv query) ↔
      ∀ c ∈ s.columns, srv.NotNull c → c.padded = false := by
  constructor
  · intro h c hc hnotnull
    by_contra hpadded
    obtain ⟨i, hi⟩ := List.getElem?_of_mem hc
    obtain ⟨query, hquery⟩ := s.exists_padding hi (by simpa using hpadded)
    -- every table has one row, without NULL
    let tables : Tables := fun _ => [fun _ => some []]
    let given : Given := ⟨[], 0⟩
    obtain ⟨x, hx, hpad⟩ := hquery { tables, given } fun _ => List.cons_ne_nil _ _
    refine h query tables given (fun a _ _ row hrow => ?_) x hx i c hi hnotnull hpad
    rw [List.mem_singleton.1 hrow]
    exact Option.some_ne_none _
  · intro h query tables given _ x hx i c hc hnotnull hpad
    obtain ⟨cell, hcell, hallows⟩ := (query.rows_fit _ x hx).getElem? hc
    obtain rfl := Option.some_inj.1 (hcell.symm.trans hpad)
    have hpadded := h c (List.mem_of_getElem? hc) hnotnull
    rw [hallows.1 rfl] at hpadded
    cases hpadded

end

/-- **When `describe_live` is right about NULL.**  It is right about a statement exactly if no outer
join and no grouping set puts NULL in the place of a `NOT NULL` column in a row of the result; and
about all statements of a shape exactly if no such column is on a side of a join that can lack a
partner, or left out by a grouping set. -/
theorem describeLive_sound_iff (srv : Server) (answered : Bool) {sql : String} {stmt : Statement}
    (h : srv.parse sql = .ok stmt) : ∃ columns,
    describeLive srv.database answered sql = some (stmt.paramOids, columns) ∧
      (Sound srv stmt.query columns ↔ (answered = true → Unpadded srv stmt.query)) ∧
      ((∀ query : Query Oid Int16 Bytes Given stmt.shape, Sound srv query columns) ↔
        (answered = true → ∀ c ∈ stmt.shape.columns, srv.NotNull c → c.padded = false)) := by
  refine ⟨_, describeLive_eq (Server.describe_eq h) answered, sound_iff rfl _, ?_⟩
  constructor
  · intro hsound hanswered
    exact unpadded_iff.1 fun query => (sound_iff rfl query).1 (hsound query) hanswered
  · intro hpadded query
    exact (sound_iff rfl query).2 fun hanswered => unpadded_iff.2 (hpadded hanswered) query

/-- The text of `orders`: `users` has the oid 16384, and `orders` has 16385. -/
def leftJoin : String := "SELECT o.id FROM users u LEFT JOIN orders o ON o.user_id = u.id"

def orders : Statement where
  paramOids := []
  shape := .select (.join .left (.table 16384 [1]) (.table 16385 [1, 2])) [some 1]
  query := .select _ (fun _ _ _ _ => none)
    (.join .left (fun _ row => row[0]? == row[2]?) (.table 16384 [1]) (.table 16385 [1, 2]))
  labels _ := ⟨"id", 0, 0, 23, 4, -1, .text⟩

/-- The columns of both tables are `NOT NULL`. -/
def shop : Server where
  parse _ := .ok orders
  attributes := [⟨16384, 1, true⟩, ⟨16385, 1, true⟩, ⟨16385, 2, true⟩]

/-- A user without orders. -/
def noOrders : Tables := fun t => if t = 16384 then [fun _ => some [49]] else []

theorem admits_noOrders : shop.Admits noOrders := by
  intro a _ _ row hrow
  unfold noOrders at hrow
  split_ifs at hrow
  · rw [List.mem_singleton.1 hrow]
    exact Option.some_ne_none _
  · cases hrow

/-- The field is not optional, and the left join returns a row in which it is NULL. -/
theorem describeLive_leftJoin :
    describeLive shop.database true leftJoin = some ([], [⟨"id", 23, false⟩]) ∧
      execute orders.query noOrders ⟨[], 0⟩ = [[none]] ∧
      ¬ Sound shop orders.query [⟨"id", 23, false⟩] := by
  have hexecute : execute orders.query noOrders ⟨[], 0⟩ = [[none]] := by decide
  refine ⟨by rfl, hexecute, fun hsound => ?_⟩
  have hrow : [none] ∈ execute orders.query noOrders ⟨[], 0⟩ := hexecute ▸ List.mem_singleton_self _
  obtain ⟨v, hv⟩ := hsound noOrders ⟨[], 0⟩ admits_noOrders _ hrow 0 _ rfl rfl
  cases hv

theorem describeLive_sound_orders : ∃ columns,
    describeLive shop.database true leftJoin = some ([], columns) ∧
      (Sound shop orders.query columns ↔ (true = true → Unpadded shop orders.query)) ∧
      ((∀ query : Query Oid Int16 Bytes Given orders.shape, Sound shop query columns) ↔
        (true = true → ∀ c ∈ orders.shape.columns, shop.NotNull c → c.padded = false)) :=
  describeLive_sound_iff shop true rfl

end Nullability

end Resolute
