import Resolute.Client.PipelineResults
import Resolute.Codec.TextFormat
import Resolute.Wire.DataRow

/-!
# Reading the columns of a result

A result goes from the server to the program through three layers: the `DataRow` of a row is parsed
into a `RawRow`, the row gets the schema of its result set, and `Row::get` decodes one of its
columns.  Here the three are put together, for the types that have a decoder in both formats
(`ColumnType`).

The server's side is a `ResultSet`: the columns with the types of their values, and the rows, in
which NULL is `none`.  It is sent in the formats of the row description, and in binary, which is
what `Bind` asks for, if there is none.  The schema is built in two places: `build_row_schema`, for
rows that were collected, and `RowStream::poll_next`, which has to look at the first row when
nothing was described.

`ResultSet.columns_shown` says that the two agree and that every row `Shows` its values: the
accessors find NULL exactly where it is, return a value exactly if its format brings it back
(`Readable`), never panic at a text, and refuse an index or a name that the result does not have.
-/

namespace Resolute

open Prepared (Row RowSchema buildRowSchema typedRows rowLen formatCode)

namespace Columns

/-! ### Rows of a stream -/

/-- `RowStream`, without its receiver. -/
structure RowStream where
  schema : RowSchema
  hasDesc : Bool
  deriving DecidableEq, Repr

namespace RowStream

/-- The end of `query_stream`, where `fields` are those of the header. -/
def new (fields : List FieldDescription) : RowStream :=
  ⟨buildRowSchema fields none, !fields.isEmpty⟩

/-- `poll_next` with what the receiver is given. -/
def pollNext (s : RowStream) : Except PgWireError RawRow → Except TypedError Row × RowStream
  | .ok data =>
    let s := if s.hasDesc = false ∧ s.schema.formats.length ≠ rowLen data then
      ⟨⟨[], [], List.replicate (rowLen data) 1⟩, true⟩ else s
    (.ok ⟨s.schema, data⟩, s)
  | .error e => (.error (.wire e), s)

/-- The items of the stream. -/
def items (s : RowStream) : List (Except PgWireError RawRow) → List (Except TypedError Row)
  | [] => []
  | x :: xs =>
    let (item, s) := s.pollNext x
    item :: s.items xs

/-- Once the schema is settled, every row gets it. -/
theorem items_of_settled {s : RowStream} (raws : List RawRow)
    (h : s.hasDesc = true ∨ ∀ raw ∈ raws, s.schema.formats.length = rowLen raw) :
    s.items (raws.map .ok) = raws.map fun data => .ok ⟨s.schema, data⟩ := by
  induction raws with
  | nil => rfl
  | cons raw raws ih =>
    have hkeep : ¬(s.hasDesc = false ∧ s.schema.formats.length ≠ rowLen raw) := by
      rintro ⟨hdesc, hlen⟩
      rcases h with h | h
      · rw [hdesc] at h
        cases h
      · exact hlen (h raw List.mem_cons_self)
    rw [List.map_cons, List.map_cons, items, pollNext]
    simp only [if_neg hkeep]
    rw [ih (h.imp_right fun h raw hraw => h raw (List.mem_cons_of_mem _ hraw))]

/-- **A stream yields the rows that are collected**, if they all have one number of columns. -/
theorem items_new {fields : List FieldDescription} {raws : List RawRow} {n : ℕ}
    (h : ∀ raw ∈ raws, rowLen raw = n) :
    (new fields).items (raws.map .ok) = (typedRows fields raws).map .ok := by
  rw [typedRows, List.map_map]
  by_cases hfields : fields = []
  · subst hfields
    cases raws with
    | nil => rfl
    | cons raw raws =>
      have hall : ∀ raw' ∈ raw :: raws, rowLen raw' = rowLen raw := by
        intro raw' hraw'
        rw [h raw' hraw', h raw List.mem_cons_self]
      by_cases hlen : rowLen raw = 0
      · have hsettled := items_of_settled (s := new []) (raw :: raws)
          (.inr fun raw' hraw' => ((hall raw' hraw').trans hlen).symm)
        rw [hsettled]
        refine List.map_congr_left fun data _ => ?_
        rw [Function.comp_apply, List.head?_cons, buildRowSchema, if_neg (by simp), hlen]
        rfl
      · -- the first row replaces the empty schema
        have hreplaced : (new []).hasDesc = false ∧
            (new []).schema.formats.length ≠ rowLen raw := ⟨rfl, Ne.symm hlen⟩
        have hsettled := items_of_settled
          (s := ⟨⟨[], [], List.replicate (rowLen raw) 1⟩, true⟩) raws (.inl rfl)
        rw [List.map_cons, List.map_cons, items, pollNext]
        simp only [if_pos hreplaced]
        rw [hsettled]
        rfl
  · have hdesc : (new fields).hasDesc = true := by
      rw [new, Bool.not_eq_true', List.isEmpty_eq_false_iff]
      exact hfields
    rw [items_of_settled raws (.inl hdesc)]
    refine List.map_congr_left fun data _ => ?_
    simp only [Function.comp_apply, new, buildRowSchema, if_pos hfields]

end RowStream

/-! ### Results of the server -/

/-- A column: its description, and the type of its values. -/
structure Column where
  field : FieldDescription
  type : ColumnType

/-- A row; `none` is NULL. -/
abbrev Values (columns : List Column) : Type :=
  (i : Fin columns.length) → Option (columns.get i).type.Val

/-- The result of a query. -/
structure ResultSet where
  columns : List Column
  /-- The columns are described. -/
  described : Bool
  rows : List (Values columns)

namespace ResultSet

variable (debug : String → String) (S : OutputSettings) (a : ResultSet)

/-- The row description as the client keeps it. -/
def fields : List FieldDescription := if a.described then a.columns.map Column.field else []

/-- The format of a column. -/
def format (i : Fin a.columns.length) : FormatCode :=
  if a.described then (a.columns.get i).field.format else .binary

/-- The type of a column as `Row::get` uses it. -/
def decoder (i : Fin a.columns.length) : FromRow.Decoder (a.columns.get i).type.Val :=
  (a.columns.get i).type.decoder debug

/-- The cells of a row. -/
def cells (v : Values a.columns) : List (Option Bytes) :=
  List.ofFn fun i => (v i).map ((a.columns.get i).type.sent S (a.format i))

/-- The body of its `DataRow`. -/
def rowBody (v : Values a.columns) : Bytes :=
  countBytes (a.cells S v).length ++ (a.cells S v).flatMap encodeCell

/-- The body of the `RowDescription`. -/
def descriptionBody : Bytes :=
  countBytes a.fields.length ++ a.fields.flatMap FieldDescription.encode

/-- What a server can have and the client does not refuse: the values are those of the types, and no
message is too long. -/
structure WellFormed : Prop where
  count : a.columns.length ≤ 32767
  names : ∀ f ∈ a.fields, 0 ∉ asBytes f.name
  proper : ∀ v ∈ a.rows, ∀ i x, v i = some x → (a.columns.get i).type.Proper x
  description : a.descriptionBody.length ≤ maxMessageSize
  row : ∀ v ∈ a.rows, (a.rowBody S v).length ≤ maxMessageSize

/-- The format of the column brings the value back. -/
def Readable (i : Fin a.columns.length) (x : (a.columns.get i).type.Val) : Prop :=
  match a.format i with
  | .binary => (a.columns.get i).type.Hygienic x
  | .text => (a.columns.get i).type.Kept S x

/-- What `Row::get` works on: the names and formats of the schema, and the cells of the data. -/
structure Views (row : Row) (view : FromRow.Row) : Prop where
  columns : view.columns = row.schema.columns
  formats : view.formats = row.schema.formats
  len : Checked.len row.data = .ok view.cells.length
  tryCell (idx : ℕ) : Checked.tryCell row.data idx = .ok view.cells[idx]?

/-- What the accessors of a row say about its values. -/
structure Shows (v : Values a.columns) (row : FromRow.Row) : Prop where
  null (i : Fin a.columns.length) (h : v i = none) :
    row.getOpt (a.decoder debug i) i = .ok none ∧
      row.get (a.decoder debug i) i = .error (.err (.unexpectedNull i))
  value (i : Fin a.columns.length) (x : (a.columns.get i).type.Val) (h : v i = some x) :
    (row.getOpt (a.decoder debug i) i = .ok (some x) ↔ a.Readable S i x) ∧
      (row.get (a.decoder debug i) i = .ok x ↔ a.Readable S i x)
  /-- A text may be refused or misread, but never makes the client panic. -/
  returns (i : Fin a.columns.length) (h : a.format i = .text) :
    (row.getOpt (a.decoder debug i) i).Returns ∧ (row.get (a.decoder debug i) i).Returns
  /-- There are no other columns, whatever is to be read. -/
  outside {α : Type} (dec : FromRow.Decoder α) (idx : ℕ) (h : a.columns.length ≤ idx) :
    row.getOpt dec idx = .err idx s!"column index {idx} out of range" ∧
      row.get dec idx = .err idx
        s!"column index {idx} out of range (have {a.columns.length})"
  /-- A name stands for the first column that has it. -/
  name {α : Type} (dec : FromRow.Decoder α) (name : String) :
    row.getOptByName dec name = ((a.fields.findIdx? fun f => f.name == name).elim
        (.error (.err (.columnNotFound name))) (row.getOpt dec)) ∧
      row.getByName dec name = ((a.fields.findIdx? fun f => f.name == name).elim
        (.error (.err (.columnNotFound name))) (row.get dec))

/-- What the client has of a result: its messages are parsed, the rows of a stream are those that
are collected, and each of them shows the values of the row that the server had. -/
structure Shown : Prop where
  description : a.described = true → Checked.parseRowDescription a.descriptionBody =
    .ok (some (.rowDescription a.fields))
  rows : ∃ raws, List.Forall₂ (fun v raw => Checked.parseDataRow (a.rowBody S v) =
      .ok (some (.dataRow raw))) a.rows raws ∧
    (RowStream.new a.fields).items (raws.map .ok) = (typedRows a.fields raws).map .ok ∧
    List.Forall₂ (fun v row => ∃ view, Views row view ∧ a.Shows debug S v view) a.rows
      (typedRows a.fields raws)

section

variable {debug S a} {v : Values a.columns} {row : FromRow.Row}

theorem getElem?_cells (i : Fin a.columns.length) :
    (a.cells S v)[(i : ℕ)]? = some ((v i).map ((a.columns.get i).type.sent S (a.format i))) := by
  rw [cells, List.getElem?_ofFn, dif_pos i.isLt]

theorem length_cells : (a.cells S v).length = a.columns.length := List.length_ofFn

/-- The formats of the schema are those that the values were sent in. -/
theorem formats_eq (raw : Option RawRow) (hraw : raw.map rowLen = some a.columns.length)
    (i : Fin a.columns.length) :
    (buildRowSchema a.fields raw).formats.getD i 0 = formatCode (a.format i) := by
  obtain ⟨raw, rfl, hlen⟩ := Option.map_eq_some_iff.mp hraw
  have hne : a.columns ≠ [] := List.ne_nil_of_length_pos (Nat.lt_of_le_of_lt (Nat.zero_le _) i.isLt)
  by_cases hdescribed : a.described = true
  · have hfields : a.fields = a.columns.map Column.field := if_pos hdescribed
    have hnil : a.fields ≠ [] := hfields ▸ mt List.map_eq_nil_iff.mp hne
    rw [buildRowSchema, if_pos hnil, hfields, format, if_pos hdescribed]
    simp
  · have hfields : a.fields = [] := if_neg hdescribed
    rw [buildRowSchema, hfields, if_neg (by simp), format, if_neg hdescribed, hlen]
    simp [formatCode]

/-- The names of the schema are those of the description. -/
theorem columns_eq (raw : Option RawRow) :
    (buildRowSchema a.fields raw).columns = a.fields.map FieldDescription.name := by
  unfold buildRowSchema
  split_ifs with h
  · rfl
  · rw [not_ne_iff.mp h]
    cases raw <;> rfl

/-- A value that is sent in a short row is short. -/
theorem length_sent_le {i : Fin a.columns.length} {x : (a.columns.get i).type.Val}
    (hx : v i = some x) :
    ((a.columns.get i).type.sent S (a.format i) x).length ≤ (a.rowBody S v).length := by
  have hmem : some ((a.columns.get i).type.sent S (a.format i) x) ∈ a.cells S v :=
    List.mem_of_getElem? ((getElem?_cells i).trans (by rw [hx, Option.map_some]))
  obtain ⟨front, back, hsplit⟩ := List.append_of_mem hmem
  simp only [rowBody, hsplit, List.flatMap_append, List.flatMap_cons, encodeCell,
    List.length_append]
  omega

/-- What is read of a value that was sent. -/
theorem read_sent (i : Fin a.columns.length) (x : (a.columns.get i).type.Val)
    (hformat : row.formats.getD i 0 = formatCode (a.format i)) :
    row.read (a.decoder debug i) i ((a.columns.get i).type.sent S (a.format i) x) =
      match a.format i with
      | .binary => (a.columns.get i).type.codec.decode ((a.columns.get i).type.codec.encode x [])
      | .text => (a.columns.get i).type.decodeText debug ((a.columns.get i).type.out S x) := by
  rw [FromRow.Row.read, hformat]
  cases a.format i with
  | binary => rfl
  | text =>
    rw [if_neg (by decide), ColumnType.sent, fromUtf8_asBytes]
    rfl

variable (debug) in
/-- **A value comes back** exactly if its format brings it back. -/
theorem read_sent_iff (h : a.WellFormed S) (hv : v ∈ a.rows) {i : Fin a.columns.length}
    {x : (a.columns.get i).type.Val} (hx : v i = some x)
    (hformat : row.formats.getD i 0 = formatCode (a.format i)) :
    row.read (a.decoder debug i) i ((a.columns.get i).type.sent S (a.format i) x) = .ok x ↔
      a.Readable S i x := by
  have hshort := Nat.le_trans (length_sent_le hx) (h.row v hv)
  rw [read_sent i x hformat, Readable]
  cases hf : a.format i with
  | binary =>
    rw [hf] at hshort
    have hfits : FitsI32 ((a.columns.get i).type.codec.encode x []).length :=
      Nat.lt_of_le_of_lt hshort (by decide)
    exact (a.columns.get i).type.decode_encode_iff (h.proper v hv i x hx) hfits
  | text => exact (a.columns.get i).type.decodeText_out_iff debug S x

variable (debug) in
theorem read_sent_returns {i : Fin a.columns.length} (x : (a.columns.get i).type.Val)
    (hformat : row.formats.getD i 0 = formatCode (a.format i)) (htext : a.format i = .text) :
    (row.read (a.decoder debug i) i
      ((a.columns.get i).type.sent S (a.format i) x)).Returns := by
  rw [read_sent i x hformat, htext]
  exact (a.columns.get i).type.decodeText_returns debug S x

/-- **A row shows its values** when it has the cells, the formats and the names of the result. -/
theorem shows (h : a.WellFormed S) (hv : v ∈ a.rows) (hcells : row.cells = a.cells S v)
    (hcolumns : row.columns = a.fields.map FieldDescription.name)
    (hformats : ∀ i : Fin a.columns.length, row.formats.getD i 0 = formatCode (a.format i)) :
    a.Shows debug S v row := by
  have hget (i : Fin a.columns.length) : row.cells[(i : ℕ)]? =
      some ((v i).map ((a.columns.get i).type.sent S (a.format i))) :=
    hcells ▸ getElem?_cells i
  have hlen : row.cells.length = a.columns.length := hcells ▸ length_cells
  constructor
  case null =>
    intro i hnull
    rw [FromRow.Row.getOpt, FromRow.Row.get, hget, hnull, Option.map_none]
    exact ⟨rfl, rfl⟩
  case value =>
    intro i x hx
    have hcell := (hget i).trans (congrArg _ (by rw [hx, Option.map_some]))
    have hread := read_sent_iff debug h hv hx (hformats i)
    rw [FromRow.Row.getOpt_eq_some_iff _ hcell, FromRow.Row.get_of_value _ hcell]
    exact ⟨hread, hread⟩
  case returns =>
    intro i htext
    cases hx : v i with
    | none =>
      rw [FromRow.Row.getOpt, FromRow.Row.get, hget, hx, Option.map_none]
      refine ⟨fun p hp => ?_, fun p hp => ?_⟩ <;> cases hp
    | some x =>
      have hcell := (hget i).trans (congrArg _ (by rw [hx, Option.map_some]))
      have hreturns := read_sent_returns debug (S := S) x (hformats i) htext
      rw [FromRow.Row.getOpt_of_value _ hcell, FromRow.Row.get_of_value _ hcell]
      exact ⟨hreturns.map, hreturns⟩
  case outside =>
    intro α dec idx hidx
    rw [FromRow.Row.getOpt, FromRow.Row.get, List.getElem?_eq_none (hlen ▸ hidx), hlen]
    exact ⟨rfl, rfl⟩
  case name =>
    intro α dec name
    have hfind : row.columns.findIdx? (· == name) = a.fields.findIdx? fun f => f.name == name := by
      rw [hcolumns, List.findIdx?_map]
      rfl
    rw [FromRow.Row.getOptByName_eq, FromRow.Row.getByName_eq, hfind]
    exact ⟨rfl, rfl⟩

theorem rowLen_of_len {raw : RawRow} {n : ℕ} (h : Checked.len raw = .ok n) : rowLen raw = n := by
  obtain ⟨body, cells⟩ := raw
  cases cells with
  | inline data len =>
    rw [Checked.len, Checked.entries] at h
    dsimp only at h
    split_ifs at h with hlen
    · have hcap : data.toList.length = cellInlineCap := Vector.length_toList
      rw [← Except.ok.inj h, rowLen, List.length_take, hcap, Nat.min_eq_left hlen]
    · cases h
  | heap entries => exact Except.ok.inj h

/-- The `DataRow` of a row is parsed. -/
theorem exists_raw (h : a.WellFormed S) (hv : v ∈ a.rows) :
    ∃ raw, Checked.parseDataRow (a.rowBody S v) = .ok (some (.dataRow raw)) ∧
      RowAgrees (a.rowBody S v) raw (a.cells S v) := by
  have hbody := h.row v hv
  have hsize : (a.rowBody S v).length < 2 ^ 31 := Nat.lt_of_le_of_lt hbody (by decide)
  have hbegins : BeginsWith (a.rowBody S v) (a.cells S v) := by
    refine ⟨length_cells ▸ h.count, [], ?_⟩
    rw [List.append_nil]
    rfl
  obtain ⟨raw, hparse, hrawBody, hlayout, hentries, hraw⟩ := parseDataRow_of_begins hsize hbegins
  refine ⟨raw, ?_, rowAgrees_of_entries hsize hbegins hrawBody hlayout hentries hraw⟩
  rw [Checked.parseDataRow_eq hbody, hparse, Checked.lift_ok]

/-- A row that was parsed, with the schema of the result, shows its values. -/
theorem exists_view (h : a.WellFormed S) (hv : v ∈ a.rows) {raw : RawRow} {first : Option RawRow}
    (hraw : RowAgrees (a.rowBody S v) raw (a.cells S v))
    (hfirst : first.map rowLen = some a.columns.length) :
    ∃ view, Views ⟨buildRowSchema a.fields first, raw⟩ view ∧ a.Shows debug S v view := by
  let schema := buildRowSchema a.fields first
  refine ⟨⟨schema.columns, schema.formats, a.cells S v⟩, ⟨rfl, rfl, hraw.len, hraw.tryCell⟩, ?_⟩
  exact shows h hv rfl (columns_eq first) (formats_eq first hfirst)

end

/-- **Every column of every row shows its value**, as far as its format brings it back. -/
theorem columns_shown (h : a.WellFormed S) : a.Shown debug S := by
  constructor
  · intro hdescribed
    have hcount : a.fields.length ≤ 32767 := by
      rw [fields, if_pos hdescribed, List.length_map]
      exact h.count
    rw [Checked.parseRowDescription_eq h.description, descriptionBody,
      parseRowDescription_encode h.names hcount, Checked.lift_ok]
  · have hraws : ∀ v : {v // v ∈ a.rows}, ∃ raw,
        Checked.parseDataRow (a.rowBody S v.1) = .ok (some (.dataRow raw)) ∧
          RowAgrees (a.rowBody S v.1) raw (a.cells S v.1) := fun v => exists_raw h v.2
    choose raw hparse hagrees using hraws
    have hlen : ∀ x ∈ a.rows.attach.map raw, rowLen x = a.columns.length := by
      intro x hx
      obtain ⟨v, -, rfl⟩ := List.mem_map.mp hx
      rw [rowLen_of_len (hagrees v).len, length_cells]
    -- what holds of every row and its parsed form holds row by row
    have hzip {β : Type} {R : Values a.columns → β → Prop} {f : {v // v ∈ a.rows} → β}
        (hR : ∀ v, R v.1 (f v)) : List.Forall₂ R a.rows (a.rows.attach.map f) := by
      have hrows : List.Forall₂ R (a.rows.attach.map Subtype.val) (a.rows.attach.map f) := by
        rw [List.forall₂_map_left_iff, List.forall₂_map_right_iff, List.forall₂_same]
        exact fun v _ => hR v
      rwa [List.attach_map_subtype_val] at hrows
    refine ⟨a.rows.attach.map raw, hzip hparse, RowStream.items_new hlen, ?_⟩
    rw [typedRows, List.map_map]
    refine hzip fun v => exists_view h v.2 (hagrees v) ?_
    cases hattach : a.rows.attach.map raw with
    | nil => exact absurd (List.mem_map_of_mem (List.mem_attach _ v)) (hattach ▸ List.not_mem_nil)
    | cons first rest =>
      rw [List.head?_cons, Option.map_some, hlen first (hattach ▸ List.mem_cons_self)]

/-- Texts of the first day. -/
def firstDay : OutputSettings where
  byteaHex := true
  dateText _ := "2000-01-01"
  timestampText _ := "2000-01-01 00:00:00"
  recordText _ _ := "()"
  dateText_sep _ := ⟨'2', "000-01-01".toList, '-', rfl, by decide, by decide⟩
  timestampText_sep _ := ⟨'2', "000-01-01 00:00:00".toList, '-', rfl, by decide, by decide⟩

/-- Numbers in binary, dates and arrays of strings in text. -/
def threeColumns : ResultSet where
  columns :=
    [⟨⟨"id", 0, 0, 23, 4, -1, .binary⟩, .element .i32⟩,
      ⟨⟨"day", 0, 0, 1082, 4, -1, .text⟩, .date⟩,
      ⟨⟨"tags", 0, 0, 1009, -1, -1, .text⟩, .array .string⟩]
  described := true
  rows := [
    fun
      | ⟨0, _⟩ => some (7 : Int32)
      | ⟨1, _⟩ => some (Unbounded.value (0 : Int32))
      | ⟨2, _⟩ => some ["a b", ""],
    fun
      | ⟨0, _⟩ => none
      | ⟨1, _⟩ => some Unbounded.infinity
      | ⟨2, _⟩ => none]

theorem threeColumns_proper : ∀ v ∈ threeColumns.rows, ∀ i x, v i = some x →
    (threeColumns.columns.get i).type.Proper x := by
  intro v hv
  rcases List.mem_cons.mp hv with rfl | hv
  · intro i x hx
    match i with
    | ⟨0, _⟩ => trivial
    | ⟨1, _⟩ =>
      obtain rfl := Option.some.inj hx
      intro n hn
      obtain rfl := Unbounded.value.inj hn
      decide
    | ⟨2, _⟩ => trivial
  · obtain rfl := List.mem_singleton.mp hv
    intro i x hx
    match i with
    | ⟨0, _⟩ => cases hx
    | ⟨1, _⟩ =>
      obtain rfl := Option.some.inj hx
      intro n hn
      cases hn
    | ⟨2, _⟩ => cases hx

/-- Of two rows, only the finite date is not brought back. -/
theorem columns_shown_three :
    threeColumns.Shown (fun s => "\"" ++ s ++ "\"") firstDay ∧
      threeColumns.Readable firstDay ⟨0, by decide⟩ (7 : Int32) ∧
      ¬threeColumns.Readable firstDay ⟨1, by decide⟩ (.value 0 : PgDate) ∧
      threeColumns.Readable firstDay ⟨1, by decide⟩ (.infinity : PgDate) ∧
      threeColumns.Readable firstDay ⟨2, by decide⟩ ["a b", ""] := by
  have hshown := columns_shown (fun s => "\"" ++ s ++ "\"") firstDay threeColumns
    ⟨by decide, by decide, threeColumns_proper, by decide, by decide⟩
  have hinfinity : ∀ n : Int32, (.infinity : PgDate) ≠ .value n := by
    intro n hn
    cases hn
  have htrim : ∀ s ∈ ["a b", ""], needsQuote s = false → trim s = s := by decide
  exact ⟨hshown, trivial, fun h => h 0 rfl, hinfinity, fun _ => htrim⟩

end ResultSet

end Columns

end Resolute
