import Resolute.Codec.Basic

/-!
# Rows as structs

`#[derive(FromRow)]` turns each field of a struct into an expression that reads a column of a `Row`.
Which expression it is depends on the field's attributes, and on whether its type is an `Option`:
this is `extraction`, and `validate` refuses some combinations of attributes.  What the type of a
field and the types in its attributes can do is given (`FieldTypes`).

`default` promises `Default::default()` where the column is missing or NULL, and no change anywhere
else (`Defaults`).  `defaults_iff` says for which fields and rows the promise is kept.
-/

namespace Resolute.FromRow

/-! ### Rows -/

/-- `Decode` and `DecodeText` of a type. -/
structure Decoder (α : Type) where
  decode : Bytes → Decoded α
  decodeText : String → Decoded α

/-- A row: the columns' names and formats, and what `try_cell` finds, `none` for NULL. -/
structure Row where
  columns : List String
  formats : List Int16
  cells : List (Option Bytes)
  deriving DecidableEq, Repr

namespace Row

section

variable {α : Type} (row : Row) (dec : Decoder α)

/-- A column that is not NULL. -/
def read (idx : ℕ) (bytes : Bytes) : Decoded α :=
  if row.formats.getD idx 0 = 1 then dec.decode bytes
  else
    match fromUtf8 bytes with
    | some s => dec.decodeText s
    | none => .err idx s!"invalid UTF-8: {utf8Error bytes.length 0 bytes}"

/-- `Row::get`. -/
def get (idx : ℕ) : Decoded α :=
  match row.cells[idx]? with
  | none => .err idx s!"column index {idx} out of range (have {row.cells.length})"
  | some none => .error (.err (.unexpectedNull idx))
  | some (some bytes) => row.read dec idx bytes

/-- `Row::get_opt`. -/
def getOpt (idx : ℕ) : Decoded (Option α) :=
  match row.cells[idx]? with
  | none => .err idx s!"column index {idx} out of range"
  | some none => .ok none
  | some (some bytes) => some <$> row.read dec idx bytes

def hasColumn (name : String) : Bool := row.columns.any (· == name)

def columnIndex (name : String) : Decoded ℕ :=
  match row.columns.findIdx? (· == name) with
  | some idx => .ok idx
  | none => .error (.err (.columnNotFound name))

def getByName (name : String) : Decoded α := row.columnIndex name >>= row.get dec

def getOptByName (name : String) : Decoded (Option α) := row.columnIndex name >>= row.getOpt dec

end

end Row

/-! ### Attributes -/

/-- Of `try_from` it matters here whether it is there. -/
structure FromRowFieldAttrs where
  rename : Option String := none
  skip : Bool := false
  default : Bool := false
  json : Bool := false
  tryFrom : Bool := false
  flatten : Bool := false
  deriving DecidableEq, Repr

/-- The end of `FromRowFieldAttrs::parse`: combinations that are refused. -/
def FromRowFieldAttrs.validate (attrs : FromRowFieldAttrs) : Except String Unit :=
  if attrs.skip ∧ (attrs.rename.isSome ∨ attrs.default ∨ attrs.json ∨ attrs.tryFrom ∨
      attrs.flatten) then
    .error "from_row(skip) cannot be combined with other attributes"
  else if attrs.flatten ∧ (attrs.rename.isSome ∨ attrs.json ∨ attrs.tryFrom) then
    .error "from_row(flatten) cannot be combined with rename, json, or try_from"
  else if attrs.json ∧ attrs.tryFrom then
    .error "from_row(json) cannot be combined with try_from"
  else .ok ()

/-! ### The expressions -/

/-- The values of a field whose type is `Option<T>`, or `T`. -/
def Val (T : Type) : (isOption : Bool) → Type
  | true => Option T
  | false => T

/-- What the type `T` of a field, or in its `Option`, the source `S` of `try_from`, and the type `J`
of JSON values can do; an error of a conversion is its text. -/
structure FieldTypes (T S J : Type) where
  decoder : Decoder T
  default : T
  source : Decoder S
  tryFrom : S → Except String T
  json : Decoder J
  fromValue : J → Except String T
  fromRow : Row → (isOption : Bool) → Decoded (Val T isOption)

section

variable {T S J : Type}

/-- `Default::default()`. -/
def FieldTypes.defaultOf (F : FieldTypes T S J) : (isOption : Bool) → Val T isOption
  | true => (none : Option T)
  | false => F.default

/-- `.map_err(|e| TypedError::Decode { .. })?` -/
def mapErr {α : Type} (label colName : String) : Except String α → Decoded α
  | .ok v => .ok v
  | .error e => .err 0 s!"{label}({colName}): {e}"

/-- The expression of `try_from` and of `json`: decode as another type, then convert. -/
def converted {α : Type} (label : String) (dec : Decoder α) (convert : α → Except String T)
    (colName : String) (row : Row) : (isOption : Bool) → Decoded (Val T isOption)
  | true =>
    (row.getOptByName dec colName >>= fun
      | some src => some <$> mapErr label colName (convert src)
      | none => .ok none : Decoded (Option T))
  | false =>
    (row.getByName dec colName >>= fun src => mapErr label colName (convert src) : Decoded T)

/-- `Err(UnexpectedNull(_)) => Default::default(), Err(e) => return Err(e)` -/
def orDefault (default : T) : Decoded T → Decoded T
  | .error (.err (.unexpectedNull _)) => .ok default
  | r => r

/-- The expression of `default`. -/
def defaulted (F : FieldTypes T S J) (colName : String) (row : Row) :
    (isOption : Bool) → Decoded (Val T isOption)
  | true =>
    if row.hasColumn colName then row.getOptByName F.decoder colName else .ok (none : Option T)
  | false =>
    if row.hasColumn colName then orDefault F.default (row.getByName F.decoder colName)
    else .ok F.default

/-- The expression without attributes. -/
def plain (F : FieldTypes T S J) (colName : String) (row : Row) :
    (isOption : Bool) → Decoded (Val T isOption)
  | true => row.getOptByName F.decoder colName
  | false => row.getByName F.decoder colName

/-- What `derive_from_row_inner` makes of a field. -/
def extraction (F : FieldTypes T S J) (fieldName : String) (attrs : FromRowFieldAttrs)
    (isOption : Bool) (row : Row) : Decoded (Val T isOption) :=
  let colName := attrs.rename.getD fieldName
  if attrs.skip then .ok (F.defaultOf isOption)
  else if attrs.flatten then F.fromRow row isOption
  else if attrs.tryFrom then converted "try_from" F.source F.tryFrom colName row isOption
  else if attrs.json then converted "json" F.json F.fromValue colName row isOption
  else if attrs.default then defaulted F colName row isOption
  else plain F colName row isOption

/-! ### The promise of `default` -/

/-- The column is missing, or NULL. -/
def Row.lacks (row : Row) (name : String) : Bool :=
  match row.columns.findIdx? (· == name) with
  | some idx => row.cells[idx]? == some none
  | none => true

/-- The field is `Default::default()` if its column is missing or NULL, and what it is without
`default` otherwise. -/
def Defaults (F : FieldTypes T S J) (fieldName : String) (attrs : FromRowFieldAttrs)
    (isOption : Bool) (row : Row) : Prop :=
  extraction F fieldName attrs isOption row =
    if row.lacks (attrs.rename.getD fieldName) then .ok (F.defaultOf isOption)
    else extraction F fieldName { attrs with default := false } isOption row

/-- The decoder reports a NULL inside the value of the column. -/
def Row.NullInside (row : Row) (dec : Decoder T) (name : String) : Prop :=
  ∃ idx bytes k, row.columns.findIdx? (· == name) = some idx ∧ row.cells[idx]? = some (some bytes) ∧
    row.read dec idx bytes = .error (.err (.unexpectedNull k))

/-- Where the promise is kept: with `json` or `try_from`, the column is there and not NULL, or the
type is an `Option` and the column is there; with neither, the type is an `Option`, or the decoder
reports no NULL inside a value. -/
def Keeps (F : FieldTypes T S J) (fieldName : String) (attrs : FromRowFieldAttrs)
    (isOption : Bool) (row : Row) : Prop :=
  if attrs.json ∨ attrs.tryFrom then
    row.lacks (attrs.rename.getD fieldName) = false ∨
      isOption = true ∧ row.hasColumn (attrs.rename.getD fieldName) = true
  else isOption = true ∨ ¬ row.NullInside F.decoder (attrs.rename.getD fieldName)

/-! ### A column is missing, or NULL, or has a value -/

namespace Row

variable {α : Type} {row : Row} {name : String} {idx : ℕ} {bytes : Bytes}

theorem hasColumn_eq : row.hasColumn name = (row.columns.findIdx? (· == name)).isSome := by
  rw [hasColumn, List.findIdx?_isSome]

theorem columnIndex_of_none (h : row.columns.findIdx? (· == name) = none) :
    row.columnIndex name = .error (.err (.columnNotFound name)) := by
  rw [columnIndex, h]

theorem lacks_of_some (h : row.columns.findIdx? (· == name) = some idx) :
    row.lacks name = (row.cells[idx]? == some none) := by
  rw [lacks, h]

theorem lacks_of_none (h : row.columns.findIdx? (· == name) = none) : row.lacks name = true := by
  rw [lacks, h]

/-- An accessor by name is that for the first column of the name. -/
theorem getByName_eq (dec : Decoder α) : row.getByName dec name =
    (row.columns.findIdx? (· == name)).elim (.error (.err (.columnNotFound name)))
      (row.get dec) := by
  rw [getByName, columnIndex]
  cases row.columns.findIdx? (· == name) <;> rfl

theorem getOptByName_eq (dec : Decoder α) : row.getOptByName dec name =
    (row.columns.findIdx? (· == name)).elim (.error (.err (.columnNotFound name)))
      (row.getOpt dec) := by
  rw [getOptByName, columnIndex]
  cases row.columns.findIdx? (· == name) <;> rfl

/-- What the accessors return for a column that is there. -/
theorem getByName_of_some (dec : Decoder α) (h : row.columns.findIdx? (· == name) = some idx) :
    row.getByName dec name = row.get dec idx := by
  rw [getByName_eq, h]
  rfl

theorem getOptByName_of_some (dec : Decoder α) (h : row.columns.findIdx? (· == name) = some idx) :
    row.getOptByName dec name = row.getOpt dec idx := by
  rw [getOptByName_eq, h]
  rfl

/-- What the accessors return for a cell that is not NULL. -/
theorem get_of_value (dec : Decoder α) (h : row.cells[idx]? = some (some bytes)) :
    row.get dec idx = row.read dec idx bytes := by
  rw [get, h]

theorem getOpt_of_value (dec : Decoder α) (h : row.cells[idx]? = some (some bytes)) :
    row.getOpt dec idx = some <$> row.read dec idx bytes := by
  rw [getOpt, h]

theorem getOpt_eq_some_iff (dec : Decoder α) (h : row.cells[idx]? = some (some bytes)) {v : α} :
    row.getOpt dec idx = .ok (some v) ↔ row.read dec idx bytes = .ok v := by
  rw [getOpt_of_value dec h]
  cases row.read dec idx bytes with
  | error e => exact iff_of_false (fun h => by cases h) fun h => by cases h
  | ok w => exact ⟨fun h => congrArg _ (Option.some.inj (Except.ok.inj h)),
      fun h => congrArg (Except.ok ∘ some) (Except.ok.inj h)⟩

/-- A column that is lacking is missing or NULL. -/
theorem lacks_cases (h : row.lacks name = true) :
    row.columns.findIdx? (· == name) = none ∨
      ∃ idx, row.columns.findIdx? (· == name) = some idx ∧ row.cells[idx]? = some none := by
  cases hidx : row.columns.findIdx? (· == name) with
  | none => exact .inl rfl
  | some idx =>
    rw [lacks_of_some hidx, beq_iff_eq] at h
    exact .inr ⟨idx, rfl, h⟩

end Row

/-- With `json` or `try_from`, only NULL in a column for an `Option` leads to the default. -/
theorem converted_eq_default_iff {α : Type} (F : FieldTypes T S J) {label : String}
    {dec : Decoder α} {convert : α → Except String T} {colName : String} {row : Row}
    {isOption : Bool} (h : row.lacks colName = true) :
    converted label dec convert colName row isOption = .ok (F.defaultOf isOption) ↔
      isOption = true ∧ row.hasColumn colName = true := by
  rcases Row.lacks_cases h with hidx | ⟨idx, hidx, hcell⟩
  · have hindex := Row.columnIndex_of_none hidx
    have hcolumn : row.hasColumn colName = false := by rw [Row.hasColumn_eq, hidx]; rfl
    rw [hcolumn]
    refine iff_of_false (fun heq => ?_) (fun h => by cases h.2)
    cases isOption with
    | true =>
      rw [converted, Row.getOptByName, hindex] at heq
      cases heq
    | false =>
      rw [converted, Row.getByName, hindex] at heq
      cases heq
  · have hcolumn : row.hasColumn colName = true := by rw [Row.hasColumn_eq, hidx]; rfl
    rw [hcolumn]
    cases isOption with
    | true =>
      refine iff_of_true ?_ ⟨rfl, rfl⟩
      rw [converted, Row.getOptByName_of_some dec hidx, Row.getOpt, hcell]
      rfl
    | false =>
      refine iff_of_false (fun heq => ?_) (fun h => by cases h.1)
      rw [converted, Row.getByName_of_some dec hidx, Row.get, hcell] at heq
      cases heq

theorem converted_eq_iff {α : Type} (F : FieldTypes T S J) {label : String} {dec : Decoder α}
    {convert : α → Except String T} {colName : String} {row : Row} {isOption : Bool} :
    converted label dec convert colName row isOption =
        (if row.lacks colName then .ok (F.defaultOf isOption)
          else converted label dec convert colName row isOption) ↔
      row.lacks colName = false ∨ isOption = true ∧ row.hasColumn colName = true := by
  cases hlacks : row.lacks colName with
  | false => exact iff_of_true rfl (.inl rfl)
  | true =>
    rw [if_pos rfl, converted_eq_default_iff F hlacks]
    simp only [Bool.true_eq_false, false_or]

theorem orDefault_eq_iff (default : T) (r : Decoded T) :
    orDefault default r = r ↔ ∀ k, r ≠ .error (.err (.unexpectedNull k)) := by
  constructor
  · rintro h k rfl
    cases h
  · intro h
    unfold orDefault
    split
    · rename_i k
      exact absurd rfl (h k)
    · rfl

/-- Without them, only a NULL inside a value is taken for one of the column. -/
theorem defaulted_eq_iff (F : FieldTypes T S J) {colName : String} {row : Row} {isOption : Bool} :
    defaulted F colName row isOption =
        (if row.lacks colName then .ok (F.defaultOf isOption) else plain F colName row isOption) ↔
      isOption = true ∨ ¬ row.NullInside F.decoder colName := by
  cases hidx : row.columns.findIdx? (· == colName) with
  | none =>
    have hcolumn : row.hasColumn colName = false := by rw [Row.hasColumn_eq, hidx]; rfl
    refine iff_of_true ?_ (.inr ?_)
    · rw [Row.lacks_of_none hidx, if_pos rfl]
      cases isOption <;> simp only [defaulted, hcolumn, Bool.false_eq_true, if_false] <;> rfl
    · rintro ⟨idx, bytes, k, h, -, -⟩
      rw [hidx] at h
      cases h
  | some idx =>
    have hcolumn : row.hasColumn colName = true := by rw [Row.hasColumn_eq, hidx]; rfl
    rw [Row.lacks_of_some hidx]
    cases isOption with
    | true =>
      refine iff_of_true ?_ (.inl rfl)
      change (if row.hasColumn colName then row.getOptByName F.decoder colName else .ok none) =
        if _ then .ok none else row.getOptByName F.decoder colName
      rw [hcolumn, if_pos rfl, Row.getOptByName_of_some _ hidx, Row.getOpt]
      rcases hcell : row.cells[idx]? with _ | _ | bytes <;> rfl
    | false =>
      change (if row.hasColumn colName then orDefault F.default (row.getByName F.decoder colName)
          else .ok F.default) = (if _ then .ok F.default else row.getByName F.decoder colName) ↔ _
      rw [hcolumn, if_pos rfl, Row.getByName_of_some _ hidx, Row.get]
      have hinside : row.NullInside F.decoder colName ↔ ∃ bytes k,
          row.cells[idx]? = some (some bytes) ∧
            row.read F.decoder idx bytes = .error (.err (.unexpectedNull k)) := by
        simp only [Row.NullInside, hidx, Option.some.injEq]
        constructor
        · rintro ⟨_, bytes, k, rfl, hcell, hk⟩
          exact ⟨bytes, k, hcell, hk⟩
        · rintro ⟨bytes, k, hcell, hk⟩
          exact ⟨idx, bytes, k, rfl, hcell, hk⟩
      rw [hinside]
      rcases hcell : row.cells[idx]? with _ | _ | bytes
      · exact iff_of_true rfl (.inr fun ⟨_, _, h, _⟩ => by cases h)
      · exact iff_of_true rfl (.inr fun ⟨_, _, h, _⟩ => by cases h)
      · change orDefault F.default (row.read F.decoder idx bytes) = row.read F.decoder idx bytes ↔ _
        rw [orDefault_eq_iff]
        constructor
        · rintro h
          refine .inr ?_
          rintro ⟨bytes', k, hbytes, hk⟩
          cases hbytes
          exact h k hk
        · rintro h k hk
          rcases h with h | h
          · cases h
          · exact h ⟨bytes, k, rfl, hk⟩

/-- **When `default` keeps its promise.**  For a field that the derive accepts: with `json` or
`try_from` exactly if there is nothing to replace, and with neither unless the decoder of the
field's type reports a NULL inside a value. -/
theorem defaults_iff (F : FieldTypes T S J) (fieldName : String) (attrs : FromRowFieldAttrs)
    (isOption : Bool) (row : Row) (hvalid : attrs.validate = .ok ())
    (hdefault : attrs.default = true) (hflatten : attrs.flatten = false) :
    Defaults F fieldName attrs isOption row ↔ Keeps F fieldName attrs isOption row := by
  have hskip : attrs.skip = false := by
    cases hskip : attrs.skip with
    | false => rfl
    | true => simp [FromRowFieldAttrs.validate, hskip, hdefault] at hvalid
  unfold Defaults Keeps extraction
  simp only [hskip, hflatten, hdefault, Bool.false_eq_true, if_false, if_true]
  by_cases htry : attrs.tryFrom = true
  · simp only [htry, if_true, or_true]
    exact converted_eq_iff F
  · by_cases hjson : attrs.json = true
    · simp only [htry, hjson, if_true]
      exact converted_eq_iff F
    · simp only [htry, hjson, or_self]
      exact defaulted_eq_iff F

end

/-! ### Two fields -/

/-- A count, which `try_from = "i32"` makes of an `i32`. -/
def count : FieldTypes ℕ Int32 Unit where
  decoder := ⟨fun _ => .ok 1, fun _ => .ok 1⟩
  default := 0
  source := ⟨Scalar.decode .i32, fun _ => .err 0 "i32: failed to parse"⟩
  tryFrom n := if n < 0 then .error "negative" else .ok n.toNatClampNeg
  json := ⟨fun _ => .ok (), fun _ => .ok ()⟩
  fromValue _ := .error "invalid type"
  fromRow _
    | true => .ok (none : Option ℕ)
    | false => .ok (0 : ℕ)

theorem defaults_count :
    Defaults count "n" { default := true } false ⟨["n"], [1], [none]⟩ ↔
      Keeps count "n" { default := true } false ⟨["n"], [1], [none]⟩ :=
  defaults_iff count "n" { default := true } false ⟨["n"], [1], [none]⟩ rfl rfl rfl

/-- The fields of a composite of one integer. -/
def pointFields : List Field := [.required 23 (Scalar.codec .i32) .nothing]

/-- The composite. -/
def point : FieldTypes (Record pointFields) Unit Unit where
  decoder := ⟨decodeComposite "Point" pointFields, fun _ => .err 0 "composite: invalid text"⟩
  default := ((0 : Int32), ())
  source := ⟨fun _ => .ok (), fun _ => .ok ()⟩
  tryFrom _ := .ok ((0 : Int32), ())
  json := ⟨fun _ => .ok (), fun _ => .ok ()⟩
  fromValue _ := .error "invalid type"
  fromRow _
    | true => .ok (none : Option (Record pointFields))
    | false => .ok (((0 : Int32), ()) : Record pointFields)

/-- A row with the composite `ROW(NULL)`. -/
def nullPoint : Row := ⟨["p"], [1], [some [0, 0, 0, 1, 0, 0, 0, 23, 255, 255, 255, 255]]⟩

/-- With `try_from`, a missing column is an error; without, a NULL inside a value that is not NULL
leads to the default. -/
theorem default_missing_and_inside :
    extraction count "n" { default := true, tryFrom := true } false ⟨[], [], []⟩ =
        .error (.err (.columnNotFound "n")) ∧
      ¬ Defaults count "n" { default := true, tryFrom := true } false ⟨[], [], []⟩ ∧
      extraction point "p" {} false nullPoint = .error (.err (.unexpectedNull 0)) ∧
      extraction point "p" { default := true } false nullPoint = .ok point.default ∧
      ¬ Defaults point "p" { default := true } false nullPoint := by
  refine ⟨rfl, fun h => ?_, rfl, rfl, fun h => ?_⟩
  · cases h
  · cases h

end Resolute.FromRow
