import Mathlib.Data.Nat.Bitwise
import Resolute.Codec.Basic
import Resolute.Js.Text
import Resolute.Wire.Collect

/-!
# Columnar results

The addon of `pg-wired-js` gives a result to JavaScript as one string of all cells, their offsets in
it and a bitmap of NULLs.  Rust fills these with the cells of all rows in a row, and counts the
bytes of the texts (`rowsToColumnar`); `columnarCell` looks at the index that a row and a column
have in rows of `cols` cells, and slices the string by code units.  A row is the cells that
`RawRow::iter` yields.

What is in the buffers when all cells are written is known in closed form (`Filled.run`), and so is
what the accessor returns (`columnarCell_eq`).  `faithful_iff` compares the two.  The rows may have
other numbers of cells than the description says; they are `Aligned` if they do not, and `Plain` if
nothing before a cell has fewer code units than bytes.
-/

namespace Resolute.Columnar

open Js (utf16)
open Rust (byteLen isAscii)

/-! ### Rust -/

/-- `FieldInfo` -/
structure FieldInfo where
  name : String
  tableOid : Oid
  columnId : Int16
  typeOid : Oid
  typeSize : Int16
  typeModifier : Int32
  format : Int16
  deriving DecidableEq, Repr

def fieldsToInfo (fields : List FieldDescription) : List FieldInfo :=
  fields.map fun f => ⟨f.name, f.tableOid, f.columnId, f.typeOid, f.typeSize, f.typeModifier,
    f.format.toInt16⟩

structure ColumnarResult where
  fields : List FieldInfo
  rowCount : UInt32
  cols : UInt32
  data : String
  offsets : List UInt32
  nulls : List UInt8
  commandTag : String
  deriving DecidableEq, Repr

/-- `u32::saturating_add` -/
def saturatingAdd (a b : UInt32) : UInt32 :=
  if a.toNat + b.toNat < 2 ^ 32 then a + b else 0xFFFFFFFF

/-- The variables of `rows_to_columnar`. -/
structure Buffers where
  dataBytes : Bytes
  offsets : List UInt32
  nulls : List UInt8
  cursor : UInt32
  idx : ℕ
  deriving DecidableEq, Repr

/-- The body of the loop. -/
def push (b : Buffers) : Option Bytes → Except Panic Buffers
  | some bytes =>
    let cursor := saturatingAdd b.cursor (UInt32.ofNat bytes.length)
    .ok ⟨b.dataBytes ++ bytes, b.offsets ++ [cursor], b.nulls, cursor, b.idx + 1⟩
  | none =>
    match b.nulls[b.idx / 8]? with
    | none => .error .outOfBounds
    | some x =>
      let nulls := b.nulls.set (b.idx / 8) (x ||| 1 <<< UInt8.ofNat (b.idx % 8))
      .ok ⟨b.dataBytes, b.offsets ++ [b.cursor], nulls, b.cursor, b.idx + 1⟩

def rowsToColumnar (rows : List (List (Option Bytes))) (cols : ℕ) :
    Except Panic (String × List UInt32 × List UInt8) := do
  let cellCount := rows.length * cols
  let nulls := List.replicate ((cellCount + 7) / 8) 0
  let b ← rows.foldlM (fun b row => row.foldlM push b) ⟨[], [0], nulls, 0, 0⟩
  let data := (fromUtf8 b.dataBytes).getD (fromUtf8Lossy b.dataBytes.length b.dataBytes)
  return (data, b.offsets, b.nulls)

/-- `PipelineResponse` -/
inductive Response where
  | rows (fields : List FieldDescription) (rows : List (List (Option Bytes))) (commandTag : String)
  | done

def responseToColumnar : Response → Except Panic ColumnarResult
  | .rows fields rows commandTag => do
    let (data, offsets, nulls) ← rowsToColumnar rows fields.length
    return ⟨fieldsToInfo fields, UInt32.ofNat rows.length, UInt32.ofNat fields.length, data,
      offsets, nulls, commandTag⟩
  | .done => return ⟨[], 0, 0, "", [0], [], ""⟩

/-! ### JavaScript -/

/-- What the operators on bits make of a number. -/
def toInt32 (n : ℕ) : ℤ := if n % 2 ^ 32 < 2 ^ 31 then n % 2 ^ 32 else n % 2 ^ 32 - 2 ^ 32

/-- `nullByte !== undefined && (nullByte & (1 << (idx & 7))) !== 0` -/
def nullBit (nulls : List UInt8) (idx : ℕ) : Bool :=
  let i := toInt32 idx / 8
  0 ≤ i && nulls[i.toNat]?.any fun nullByte => nullByte.toNat &&& 1 <<< (idx % 8) != 0

def columnarCell (result : ColumnarResult) (row col : ℕ) : Option (List ℕ) :=
  let idx := row * result.cols.toNat + col
  if nullBit result.nulls idx then none
  else
    match result.offsets[idx]?, result.offsets[idx + 1]? with
    | some start, some stop => some (Js.slice (utf16 result.data.toList) start.toNat stop.toNat)
    | _, _ => none

/-! ### Texts -/

/-- A cell that is NULL or a text. -/
abbrev Cell := Option String

/-- The characters of a cell. -/
def chars (cell : Cell) : List Char := (cell.map String.toList).getD []

/-- The characters of cells one after another. -/
def joined (cells : List Cell) : List Char := cells.flatMap chars

/-- A response whose cells are texts or NULL.  The numbers of fields are `i16`s in its messages, and
the lengths of cells `i32`s. -/
structure TextRows where
  fields : List FieldDescription
  rows : List (List Cell)
  commandTag : String
  fields_lt : fields.length < 2 ^ 15
  size_lt : ∀ cell ∈ rows.flatten, byteLen (chars cell) < 2 ^ 31

/-- A query response. -/
inductive TextResponse where
  | rows (r : TextRows)
  | done

namespace TextResponse

variable (resp : TextResponse)

def response : TextResponse → Response
  | .rows r => .rows r.fields (r.rows.map (·.map (·.map asBytes))) r.commandTag
  | .done => .done

/-- The number of fields. -/
def cols : TextResponse → ℕ
  | .rows r => r.fields.length
  | .done => 0

def rowCells : TextResponse → List (List Cell)
  | .rows r => r.rows
  | .done => []

/-- The conversion does not panic, and the accessor finds every cell. -/
def Faithful : Prop :=
  ∃ result, responseToColumnar resp.response = .ok result ∧
    ∀ r row c cell, resp.rowCells[r]? = some row → row[c]? = some cell →
      columnarCell result r c = cell.map fun t => utf16 t.toList

end TextResponse

/-! ### The bitmap -/

/-- A bit of a bitmap. -/
def bitAt (nulls : List UInt8) (i : ℕ) : Bool :=
  nulls[i / 8]?.any fun b => b.toNat.testBit (i % 8)

theorem and_shiftLeft (n j : ℕ) : (n &&& 1 <<< j != 0) = n.testBit j := by
  rw [Nat.one_shiftLeft, Nat.and_two_pow]
  cases n.testBit j <;> simp

theorem nullBit_eq (nulls : List UInt8) (idx : ℕ) :
    nullBit nulls idx = (decide (0 ≤ toInt32 idx) && bitAt nulls (toInt32 idx).toNat) := by
  simp only [nullBit, bitAt, and_shiftLeft]
  by_cases hpos : 0 ≤ toInt32 idx
  · have hnat : (toInt32 idx).toNat = idx % 2 ^ 32 := by
      unfold toInt32 at hpos ⊢
      split_ifs at hpos ⊢ <;> omega
    have hdiv : (toInt32 idx / 8).toNat = (toInt32 idx).toNat / 8 := by omega
    have hmod : idx % 8 = (toInt32 idx).toNat % 8 := by omega
    rw [hdiv, hmod, decide_eq_true hpos, decide_eq_true (by omega : 0 ≤ toInt32 idx / 8)]
  · rw [decide_eq_false hpos, decide_eq_false (by omega : ¬0 ≤ toInt32 idx / 8), Bool.false_and,
      Bool.false_and]

theorem bitAt_replicate (n i : ℕ) : bitAt (List.replicate n 0) i = false := by
  rw [bitAt, List.getElem?_replicate]
  split_ifs <;> simp

theorem testBit_setBit (b : UInt8) {i j : ℕ} (hi : i < 8) (hj : j < 8) :
    (b ||| 1 <<< UInt8.ofNat i).toNat.testBit j = (b.toNat.testBit j || decide (j = i)) := by
  have hmod : (UInt8.ofNat i).toNat % 8 = i := by
    rw [UInt8.toNat_ofNat']
    omega
  rw [UInt8.toNat_or, UInt8.toNat_shiftLeft, hmod, Nat.testBit_or, Nat.testBit_mod_two_pow,
    show UInt8.toNat 1 = 1 from rfl, Nat.one_shiftLeft, Nat.testBit_two_pow, decide_eq_true hj,
    Bool.true_and]
  simp [eq_comm]

/-- Setting a bit leaves the others. -/
theorem bitAt_set {nulls : List UInt8} {i : ℕ} {b : UInt8} (h : nulls[i / 8]? = some b) (j : ℕ) :
    bitAt (nulls.set (i / 8) (b ||| 1 <<< UInt8.ofNat (i % 8))) j =
      (bitAt nulls j || decide (j = i)) := by
  obtain ⟨hlt, -⟩ := List.getElem?_eq_some_iff.mp h
  unfold bitAt
  by_cases hbyte : j / 8 = i / 8
  · rw [hbyte, List.getElem?_set_self hlt, h, Option.any_some, Option.any_some,
      testBit_setBit b (Nat.mod_lt _ (by decide)) (Nat.mod_lt _ (by decide))]
    congr 2
    exact propext ⟨fun heq => by omega, fun heq => by rw [heq]⟩
  · rw [List.getElem?_set_ne (Ne.symm hbyte), decide_eq_false (fun heq => hbyte (by rw [heq])),
      Bool.or_false]

/-! ### The buffers -/

/-- Where the text behind cells begins. -/
def offset (cells : List Cell) : ℕ := min (2 ^ 32 - 1) (byteLen (joined cells))

/-- The buffers when cells are written, with a bitmap of `cap` bytes. -/
structure Filled (cap : ℕ) (cells : List Cell) (b : Buffers) : Prop where
  dataBytes : b.dataBytes = asBytes (String.ofList (joined cells))
  offsets : b.offsets =
    (List.range (cells.length + 1)).map fun k => UInt32.ofNat (offset (cells.take k))
  cursor : b.cursor = UInt32.ofNat (offset cells)
  idx : b.idx = cells.length
  length_nulls : b.nulls.length = cap
  bits : ∀ i, bitAt b.nulls i = true ↔ cells[i]? = some none

@[simp] theorem joined_append (cells cells' : List Cell) :
    joined (cells ++ cells') = joined cells ++ joined cells' := List.flatMap_append

theorem asBytes_ofList_append (cs ds : List Char) : asBytes (String.ofList (cs ++ ds)) =
    asBytes (String.ofList cs) ++ asBytes (String.ofList ds) := by
  simp [asBytes, String.ofList_append]

theorem length_asBytes (t : String) : (asBytes t).length = byteLen t.toList := by
  rw [← Rust.length_utf8, asBytes, ← String.utf8Encode_toList, List.utf8Encode,
    List.data_toByteArray, List.toList_toArray]
  rfl

theorem saturatingAdd_eq {a b : ℕ} (hb : b < 2 ^ 32) :
    saturatingAdd (UInt32.ofNat (min (2 ^ 32 - 1) a)) (UInt32.ofNat b) =
      UInt32.ofNat (min (2 ^ 32 - 1) (a + b)) := by
  have hmin : min (2 ^ 32 - 1) a < 2 ^ 32 := by omega
  rw [saturatingAdd, UInt32.toNat_ofNat_of_lt' hmin, UInt32.toNat_ofNat_of_lt' hb,
    ← UInt32.ofNat_add]
  split_ifs with h
  · congr 1
    omega
  · rw [show min (2 ^ 32 - 1) (a + b) = 2 ^ 32 - 1 by omega]
    rfl

theorem Filled.new (cap : ℕ) : Filled cap [] ⟨[], [0], List.replicate cap 0, 0, 0⟩ where
  dataBytes := rfl
  offsets := rfl
  cursor := rfl
  idx := rfl
  length_nulls := List.length_replicate
  bits i := by simp [bitAt_replicate]

section

variable {cap : ℕ} {cells : List Cell} {b : Buffers}

theorem offsets_concat (cells : List Cell) (cell : Cell) :
    (List.range (cells.length + 1)).map (fun k => UInt32.ofNat (offset (cells.take k))) ++
        [UInt32.ofNat (offset (cells ++ [cell]))] =
      (List.range ((cells ++ [cell]).length + 1)).map fun k =>
        UInt32.ofNat (offset ((cells ++ [cell]).take k)) := by
  rw [List.length_append, List.length_singleton, List.range_succ (n := cells.length + 1),
    List.map_append]
  congr 1
  · refine List.map_congr_left fun k hk => ?_
    have hle : k ≤ cells.length := Nat.le_of_lt_succ (List.mem_range.mp hk)
    rw [List.take_append_of_le_length hle]
  · rw [List.map_singleton, List.take_of_length_le (by simp)]

theorem Filled.text (h : Filled cap cells b) {t : String} (hsize : byteLen t.toList < 2 ^ 31) :
    ∃ b', push b (some (asBytes t)) = .ok b' ∧ Filled cap (cells ++ [some t]) b' := by
  have hjoined : joined (cells ++ [some t]) = joined cells ++ t.toList := by simp [joined, chars]
  have hcursor : saturatingAdd b.cursor (UInt32.ofNat (asBytes t).length) =
      UInt32.ofNat (offset (cells ++ [some t])) := by
    rw [h.cursor, offset, saturatingAdd_eq (by rw [length_asBytes]; omega), length_asBytes, offset,
      hjoined, Rust.byteLen_append]
  refine ⟨_, rfl, ⟨?_, ?_, hcursor, ?_, h.length_nulls, ?_⟩⟩
  · rw [hjoined, asBytes_ofList_append, h.dataBytes, String.ofList_toList]
  · rw [← offsets_concat, ← hcursor, ← h.offsets]
  · rw [h.idx, List.length_append, List.length_singleton]
  · intro i
    rw [h.bits]
    rcases Nat.lt_trichotomy i cells.length with hlt | rfl | hgt
    · rw [List.getElem?_append_left hlt]
    · simp
    · rw [List.getElem?_eq_none (by omega), List.getElem?_eq_none (by simp; omega)]

theorem push_null {x : UInt8} (hx : b.nulls[b.idx / 8]? = some x) :
    push b none = .ok ⟨b.dataBytes, b.offsets ++ [b.cursor],
      b.nulls.set (b.idx / 8) (x ||| 1 <<< UInt8.ofNat (b.idx % 8)), b.cursor, b.idx + 1⟩ := by
  rw [push, hx]

theorem Filled.null (h : Filled cap cells b) (hfits : cells.length / 8 < cap) :
    ∃ b', push b none = .ok b' ∧ Filled cap (cells ++ [none]) b' := by
  have hjoined : joined (cells ++ [none]) = joined cells := by simp [joined, chars]
  have hcursor : b.cursor = UInt32.ofNat (offset (cells ++ [none])) := by
    rw [h.cursor, offset, offset, hjoined]
  obtain ⟨x, hx⟩ : ∃ x, b.nulls[b.idx / 8]? = some x := by
    rw [← h.length_nulls, ← h.idx] at hfits
    exact ⟨_, List.getElem?_eq_getElem hfits⟩
  refine ⟨_, push_null hx, ⟨?_, ?_, hcursor, ?_, ?_, ?_⟩⟩
  · rw [hjoined, h.dataBytes]
  · rw [← offsets_concat, ← hcursor, ← h.offsets]
  · rw [h.idx, List.length_append, List.length_singleton]
  · rw [List.length_set, h.length_nulls]
  · intro i
    rw [bitAt_set hx, Bool.or_eq_true, h.bits, h.idx, decide_eq_true_eq]
    rcases Nat.lt_trichotomy i cells.length with hlt | rfl | hgt
    · rw [List.getElem?_append_left hlt]
      exact or_iff_left (by omega)
    · simp
    · rw [List.getElem?_eq_none (by omega), List.getElem?_eq_none (by simp; omega)]
      simp only [reduceCtorEq, false_or, iff_false]
      omega

theorem Filled.panic (h : Filled cap cells b) (hfull : cap ≤ cells.length / 8) :
    push b none = .error .outOfBounds := by
  rw [push, h.idx, List.getElem?_eq_none (h.length_nulls.trans_le hfull)]

/-- There is a bit for every NULL. -/
def NullsIn (cap : ℕ) (cells : List Cell) : Prop := ∀ k : ℕ, cells[k]? = some none → k / 8 < cap

theorem Filled.nullsIn (h : Filled cap cells b) : NullsIn cap cells := by
  intro k hk
  have hbit := (h.bits k).mpr hk
  by_contra hge
  rw [bitAt, List.getElem?_eq_none (by rw [h.length_nulls]; omega)] at hbit
  cases hbit

theorem Filled.step (h : Filled cap cells b) {cell : Cell} (hsize : byteLen (chars cell) < 2 ^ 31)
    (hfits : cell = none → cells.length / 8 < cap) :
    ∃ b', push b (cell.map asBytes) = .ok b' ∧ Filled cap (cells ++ [cell]) b' := by
  cases cell with
  | none => exact h.null (hfits rfl)
  | some t => exact h.text hsize

/-- All cells are written if there is a bit for every NULL. -/
theorem Filled.run (h : Filled cap cells b) {more : List Cell}
    (hsize : ∀ cell ∈ more, byteLen (chars cell) < 2 ^ 31) (hfits : NullsIn cap (cells ++ more)) :
    ∃ b', (more.map (·.map asBytes)).foldlM push b = .ok b' ∧ Filled cap (cells ++ more) b' := by
  induction more generalizing cells b with
  | nil => exact ⟨b, rfl, by rwa [List.append_nil]⟩
  | cons cell more ih =>
    obtain ⟨hcell, hmore⟩ := List.forall_mem_cons.mp hsize
    obtain ⟨b', hpush, hb'⟩ := h.step hcell fun hnone => hfits _ (by simp [hnone])
    rw [List.append_cons] at hfits ⊢
    obtain ⟨b'', hrun, hb''⟩ := ih hb' hmore hfits
    refine ⟨b'', ?_, hb''⟩
    rw [List.map_cons, List.foldlM_cons, hpush]
    exact hrun

/-- The first NULL without a bit is a panic. -/
theorem Filled.run_panic (h : Filled cap cells b) {more : List Cell}
    (hsize : ∀ cell ∈ more, byteLen (chars cell) < 2 ^ 31) (hfits : ¬NullsIn cap (cells ++ more)) :
    (more.map (·.map asBytes)).foldlM push b = .error .outOfBounds := by
  induction more generalizing cells b with
  | nil =>
    rw [List.append_nil] at hfits
    exact absurd h.nullsIn hfits
  | cons cell more ih =>
    obtain ⟨hcell, hmore⟩ := List.forall_mem_cons.mp hsize
    rw [List.map_cons, List.foldlM_cons]
    by_cases hbit : cell = none → cells.length / 8 < cap
    · obtain ⟨b', hpush, hb'⟩ := h.step hcell hbit
      rw [List.append_cons] at hfits
      rw [hpush]
      exact ih hb' hmore hfits
    · obtain ⟨rfl, hfull⟩ := Classical.not_imp.mp hbit
      rw [Option.map_none, h.panic (Nat.le_of_not_lt hfull)]
      rfl

end

/-! ### The conversion -/

theorem foldlM_flatten {b : Buffers} (rows : List (List (Option Bytes))) :
    rows.foldlM (fun b row => row.foldlM push b) b = rows.flatten.foldlM push b := by
  induction rows generalizing b with
  | nil => rfl
  | cons row rows ih =>
    rw [List.foldlM_cons, List.flatten_cons, List.foldlM_append]
    simp only [ih]

namespace TextResponse

variable (resp : TextResponse)

/-- All cells in the order in which they are written. -/
def cells : List Cell := resp.rowCells.flatten

/-- The size of the bitmap. -/
def cap : ℕ := (resp.rowCells.length * resp.cols + 7) / 8

/-- There is a bit for every NULL. -/
def NullsFit : Prop := NullsIn resp.cap resp.cells

end TextResponse

/-- What the result says of cells. -/
structure Represents (cells : List Cell) (cols : ℕ) (result : ColumnarResult) : Prop where
  cols : result.cols.toNat = cols
  data : result.data = String.ofList (joined cells)
  offsets : result.offsets =
    (List.range (cells.length + 1)).map fun k => UInt32.ofNat (offset (cells.take k))
  bits : ∀ i, bitAt result.nulls i = true ↔ cells[i]? = some none

theorem responseToColumnar_rows (r : TextRows) :
    responseToColumnar (TextResponse.rows r).response =
      ((r.rows.flatten.map (·.map asBytes)).foldlM push
        ⟨[], [0], List.replicate (TextResponse.rows r).cap 0, 0, 0⟩).map fun b =>
      ⟨fieldsToInfo r.fields, UInt32.ofNat r.rows.length, UInt32.ofNat r.fields.length,
        (fromUtf8 b.dataBytes).getD (fromUtf8Lossy b.dataBytes.length b.dataBytes), b.offsets,
        b.nulls, r.commandTag⟩ := by
  have hcap : (TextResponse.rows r).cap = (r.rows.length * r.fields.length + 7) / 8 := rfl
  rw [TextResponse.response, responseToColumnar, rowsToColumnar, foldlM_flatten,
    List.length_map, ← List.map_flatten, hcap]
  cases (r.rows.flatten.map (·.map asBytes)).foldlM push _ <;> rfl

namespace TextResponse

variable {resp : TextResponse}

/-- The result of a conversion that does not panic. -/
theorem exists_result (h : resp.NullsFit) :
    ∃ result, responseToColumnar resp.response = .ok result ∧
      Represents resp.cells resp.cols result := by
  cases resp with
  | done => exact ⟨_, rfl, ⟨rfl, rfl, rfl, fun i => by simp [bitAt, cells, rowCells]⟩⟩
  | rows r =>
    obtain ⟨b, hrun, hb⟩ := (Filled.new (cap (.rows r))).run r.size_lt h
    rw [List.nil_append] at hb
    refine ⟨_, by rw [responseToColumnar_rows, hrun]; rfl, ⟨?_, ?_, hb.offsets, hb.bits⟩⟩
    · exact UInt32.toNat_ofNat_of_lt' (Nat.lt_trans r.fields_lt (by decide))
    · simp only [hb.dataBytes, fromUtf8_asBytes]
      rfl

theorem panics (h : ¬resp.NullsFit) : responseToColumnar resp.response = .error .outOfBounds := by
  cases resp with
  | done => exact absurd (fun k hk => by simp [cells, rowCells] at hk) h
  | rows r =>
    have hrun := (Filled.new (cap (.rows r))).run_panic r.size_lt h
    rw [responseToColumnar_rows, hrun]
    rfl

end TextResponse

/-! ### The accessor -/

/-- What the accessor sees as NULL; behind `2 ^ 31` cells, the index wraps around. -/
def isNullAt (cells : List Cell) (k : ℕ) : Bool :=
  0 ≤ toInt32 k && cells[(toInt32 k).toNat]? == some none

/-- What the accessor returns for an index. -/
def reading (cells : List Cell) (k : ℕ) : Option (List ℕ) :=
  if isNullAt cells k then none
  else if k < cells.length then
    some (Js.slice (utf16 (joined cells)) (offset (cells.take k)) (offset (cells.take (k + 1))))
  else none

theorem columnarCell_eq {cells : List Cell} {cols : ℕ} {result : ColumnarResult}
    (h : Represents cells cols result) (r c : ℕ) :
    columnarCell result r c = reading cells (r * cols + c) := by
  have hnull : nullBit result.nulls (r * cols + c) = isNullAt cells (r * cols + c) := by
    rw [nullBit_eq, isNullAt]
    congr 1
    rw [Bool.eq_iff_iff, h.bits, beq_iff_eq]
  have hlt (k : ℕ) : offset (cells.take k) < 2 ^ 32 := by
    rw [offset]
    omega
  unfold columnarCell reading
  simp only [h.cols, hnull, h.data, h.offsets, String.toList_ofList, List.getElem?_map]
  split_ifs with hisnull hinside
  · rfl
  · rw [List.getElem?_range (by omega), List.getElem?_range (by omega)]
    simp only [Option.map_some, UInt32.toNat_ofNat_of_lt' (hlt _)]
  · rw [List.getElem?_eq_none (l := List.range _) (i := _ + 1) (by simp; omega)]
    cases h : Option.map (fun k => UInt32.ofNat (offset (cells.take k)))
      (List.range (cells.length + 1))[r * cols + c]? <;> rfl

/-! ### Texts that are sliced right -/

/-- All characters are in ASCII. -/
def Ascii (cs : List Char) : Prop := ∀ c ∈ cs, isAscii c = true

/-- No text follows a character that is not in ASCII, and the positions fit in an `u32`. -/
structure Plain (cells : List Cell) : Prop where
  ascii : cells.Pairwise fun cell next => chars next ≠ [] → Ascii (chars cell)
  length_lt : (utf16 (joined cells)).length < 2 ^ 32

/-- The slice between two offsets is the text of the cell there. -/
def Sliced (cells : List Cell) (k : ℕ) (cell : Cell) : Prop :=
  Js.slice (utf16 (joined cells)) (offset (cells.take k)) (offset (cells.take (k + 1))) =
    utf16 (chars cell)

section

variable {cells : List Cell} {k : ℕ} {cell : Cell}

theorem split_eq (h : cells[k]? = some cell) :
    cells = cells.take k ++ cell :: cells.drop (k + 1) := by
  obtain ⟨hlt, rfl⟩ := List.getElem?_eq_some_iff.mp h
  rw [← List.drop_eq_getElem_cons hlt, List.take_append_drop]

/-- A cell, and the texts before and behind it. -/
theorem joined_eq (h : cells[k]? = some cell) : joined cells =
    joined (cells.take k) ++ (chars cell ++ joined (cells.drop (k + 1))) := by
  conv_lhs => rw [split_eq h]
  rw [joined_append, joined, joined, List.flatMap_cons]
  rfl

theorem joined_take_succ (h : cells[k]? = some cell) :
    joined (cells.take (k + 1)) = joined (cells.take k) ++ chars cell := by
  obtain ⟨hlt, rfl⟩ := List.getElem?_eq_some_iff.mp h
  rw [List.take_succ_eq_append_getElem hlt, joined_append]
  simp [joined]

theorem offset_take_succ (h : cells[k]? = some cell) : offset (cells.take (k + 1)) =
    min (2 ^ 32 - 1) (byteLen (joined (cells.take k)) + byteLen (chars cell)) := by
  rw [offset, joined_take_succ h, Rust.byteLen_append]

theorem sliced_nil (h : cells[k]? = some cell) (hnil : chars cell = []) : Sliced cells k cell := by
  rw [Sliced, offset, offset_take_succ h, hnil, Rust.byteLen_nil, Nat.add_zero, Js.slice_self,
    Js.utf16_nil]

theorem Plain.before (h : Plain cells) (hcell : cells[k]? = some cell) (hne : chars cell ≠ []) :
    Ascii (joined (cells.take k)) := by
  have hpairs := h.ascii
  rw [split_eq hcell, List.pairwise_append] at hpairs
  intro c hc
  obtain ⟨before, hmem, hc⟩ := List.mem_flatMap.mp hc
  exact hpairs.2.2 before hmem cell List.mem_cons_self hne c hc

theorem Plain.here (h : Plain cells) (hcell : cells[k]? = some cell)
    (hne : joined (cells.drop (k + 1)) ≠ []) : Ascii (chars cell) := by
  have hpairs := h.ascii
  rw [split_eq hcell, List.pairwise_append, List.pairwise_cons] at hpairs
  obtain ⟨c, hc⟩ := List.exists_mem_of_ne_nil _ hne
  obtain ⟨next, hmem, hc⟩ := List.mem_flatMap.mp hc
  exact hpairs.2.1.1 next hmem (List.ne_nil_of_mem hc)

/-- In plain texts every slice is right. -/
theorem Plain.sliced (h : Plain cells) (hcell : cells[k]? = some cell) : Sliced cells k cell := by
  by_cases hnil : chars cell = []
  · exact sliced_nil hcell hnil
  have hlen := h.length_lt
  have hbefore := (Js.length_utf16_eq_iff _).mpr (h.before hcell hnil)
  have hle := Js.length_utf16_le (chars cell)
  rw [Sliced, offset, offset_take_succ hcell, ← hbefore, joined_eq hcell, Js.utf16_append,
    Js.utf16_append]
  rw [joined_eq hcell] at hlen
  simp only [Js.utf16_append, List.length_append] at hlen
  rw [Nat.min_eq_right (by omega)]
  apply Js.slice_append
  by_cases hlast : joined (cells.drop (k + 1)) = []
  · exact .inr ⟨by omega, by rw [hlast, Js.utf16_nil]⟩
  · have hhere := (Js.length_utf16_eq_iff _).mpr (h.here hcell hlast)
    exact .inl (by omega)

/-- A slice that is not empty begins before the largest position. -/
theorem Sliced.offset_lt (h : Sliced cells k cell)
    (hne : chars cell ≠ []) : byteLen (joined (cells.take k)) < 2 ^ 32 - 1 := by
  have hlen := congrArg List.length h
  have hpos := Js.length_utf16_pos hne
  rw [Js.length_slice, offset, offset] at hlen
  omega

theorem byteLen_take_mono {i j : ℕ} (h : i ≤ j) :
    byteLen (joined (cells.take i)) ≤ byteLen (joined (cells.take j)) := by
  obtain ⟨l, hl⟩ := List.take_prefix_take_left h (l := cells)
  rw [← hl, joined_append, Rust.byteLen_append]
  exact Nat.le_add_right _ _

/-- Up to a text that is not empty, there are only characters of ASCII if every slice is right. -/
theorem ascii_of_sliced (h : ∀ k cell, cells[k]? = some cell → Sliced cells k cell) {j : ℕ}
    {next : Cell} (hnext : cells[j]? = some next) (hne : chars next ≠ []) {k : ℕ} (hk : k ≤ j) :
    Ascii (joined (cells.take k)) := by
  have hlt := (h j next hnext).offset_lt hne
  induction k with
  | zero => exact fun c hc => by simp [joined] at hc
  | succ k ih =>
    have hascii := ih (Nat.le_of_succ_le hk)
    obtain ⟨hj, rfl⟩ := List.getElem?_eq_some_iff.mp hnext
    obtain ⟨cell, hcell⟩ : ∃ cell, cells[k]? = some cell :=
      ⟨_, List.getElem?_eq_getElem (Nat.lt_trans hk hj)⟩
    have hrest : joined (cells.drop (k + 1)) ≠ [] := by
      intro hnil
      rw [joined, List.flatMap_eq_nil_iff] at hnil
      exact hne (hnil _ (List.mem_drop_iff_getElem.mpr ⟨j - (k + 1), by omega, by congr 1; omega⟩))
    have hhere : Ascii (chars cell) := by
      have hbefore := (Js.length_utf16_eq_iff _).mpr hascii
      have hpos := Js.length_utf16_pos hrest
      have hle := Js.length_utf16_le (chars cell)
      have hmono := @byteLen_take_mono cells _ _ hk
      have hlen := congrArg List.length (h k cell hcell)
      rw [joined_take_succ hcell, Rust.byteLen_append] at hmono
      rw [Js.length_slice, offset_take_succ hcell, offset, joined_eq hcell] at hlen
      simp only [Js.utf16_append, List.length_append] at hlen
      exact (Js.length_utf16_eq_iff _).mp (by omega)
    rw [joined_take_succ hcell]
    exact fun c hc => (List.mem_append.mp hc).elim (hascii c) (hhere c)

/-- **Texts that are sliced right** are plain. -/
theorem plain_of_sliced (h : ∀ k cell, cells[k]? = some cell → Sliced cells k cell) :
    Plain cells where
  ascii := by
    rw [List.pairwise_iff_getElem]
    intro i j hi hj hij hne c hc
    refine ascii_of_sliced h (List.getElem?_eq_getElem hj) hne hij c ?_
    rw [joined_take_succ (List.getElem?_eq_getElem hi)]
    exact List.mem_append_right _ hc
  length_lt := by
    have hle : ∀ k ≤ cells.length, (utf16 (joined (cells.take k))).length < 2 ^ 32 := by
      intro k hk
      induction k with
      | zero => simp [joined]
      | succ k ih =>
        have hcell := List.getElem?_eq_getElem hk
        have hbefore := ih (Nat.le_of_succ_le hk)
        rw [joined_take_succ hcell, Js.utf16_append, List.length_append]
        by_cases hnil : chars cells[k] = []
        · rwa [hnil, Js.utf16_nil, List.length_nil, Nat.add_zero]
        · have hascii := ascii_of_sliced h hcell hnil (Nat.le_refl k)
          have hbytes := (Js.length_utf16_eq_iff _).mpr hascii
          have hlen := congrArg List.length (h k _ hcell)
          have hpos := Js.length_utf16_pos hnil
          rw [Js.length_slice, offset_take_succ hcell, offset] at hlen
          omega
    simpa using hle cells.length (Nat.le_refl _)

end

/-! ### Responses that are represented faithfully -/

/-- What is in the place of an index. -/
def lookup (cells : List Cell) (k : ℕ) : Cell :=
  if isNullAt cells k then none else cells[k]?.map (·.getD "")

/-- The code units of a cell. -/
def units (cell : Cell) : Option (List ℕ) := cell.map fun t => utf16 t.toList

theorem units_injective : Function.Injective units := by
  intro x y h
  refine Option.map_injective (fun s t hst => ?_) h
  exact String.toList_inj.mp (Js.utf16_injective hst)

theorem utf16_chars (cell : Cell) : utf16 (chars cell) = utf16 (cell.getD "").toList := by
  cases cell <;> rfl

/-- In plain texts, the accessor returns what is in the place of an index. -/
theorem Plain.reading_eq {cells : List Cell} (h : Plain cells) (k : ℕ) :
    reading cells k = units (lookup cells k) := by
  unfold reading lookup
  split_ifs with hnull hlt
  · rfl
  · have hcell := List.getElem?_eq_getElem hlt
    rw [hcell, h.sliced hcell, utf16_chars]
    rfl
  · rw [List.getElem?_eq_none (Nat.le_of_not_lt hlt)]
    rfl

theorem sliced_of_reading {cells : List Cell} {k : ℕ} {cell : Cell} (hcell : cells[k]? = some cell)
    (h : reading cells k = units cell) : Sliced cells k cell := by
  cases cell with
  | none => exact sliced_nil hcell rfl
  | some t =>
    have hlt := (List.getElem?_eq_some_iff.mp hcell).1
    unfold reading at h
    rw [if_pos hlt] at h
    split_ifs at h
    · cases h
    · exact Option.some.inj h

namespace TextResponse

variable (resp : TextResponse)

/-- Every row has as many cells as there are fields. -/
def Aligned : Prop := ∀ row ∈ resp.rowCells, row.length = resp.cols

/-- Every cell is, or is equal to, the one in the place where the accessor looks for it. -/
def Indexed : Prop :=
  ∀ (r : ℕ) row (c : ℕ) cell, resp.rowCells[r]? = some row → row[c]? = some cell →
    lookup resp.cells (r * resp.cols + c) = cell

/-- In the text of all cells there is, where the accessor looks for a cell, what the cell has. -/
def Lands : Prop :=
  ∀ (r : ℕ) row (c : ℕ) cell, resp.rowCells[r]? = some row → row[c]? = some cell →
    reading resp.cells (r * resp.cols + c) = units cell

variable {resp}

theorem getElem?_flatten {rows : List (List Cell)} {cols : ℕ} (h : ∀ row ∈ rows, row.length = cols)
    {k : ℕ} {cell : Cell} (hcell : rows.flatten[k]? = some cell) :
    ∃ (r : ℕ) (row : List Cell) (c : ℕ), rows[r]? = some row ∧ row[c]? = some cell ∧
      r * cols + c = k := by
  induction rows generalizing k with
  | nil => cases hcell
  | cons row rows ih =>
    obtain ⟨hrow, hrows⟩ := List.forall_mem_cons.mp h
    rw [List.flatten_cons] at hcell
    by_cases hk : k < row.length
    · rw [List.getElem?_append_left hk] at hcell
      exact ⟨0, row, k, rfl, hcell, by omega⟩
    · rw [List.getElem?_append_right (by omega)] at hcell
      obtain ⟨r, row', c, hr, hc, heq⟩ := ih hrows hcell
      exact ⟨r + 1, row', c, hr, hc, by rw [Nat.succ_mul]; omega⟩

/-- Without a panic, a response is represented faithfully if the cells are where the accessor looks
for them. -/
theorem faithful_iff_lands : resp.Faithful ↔ resp.NullsFit ∧ resp.Lands := by
  constructor
  · rintro ⟨result, hok, hcells⟩
    have hfit : resp.NullsFit := by
      by_contra hfit
      rw [panics hfit] at hok
      cases hok
    obtain ⟨result', hok', hrepr⟩ := exists_result hfit
    obtain rfl : result = result' := Except.ok.inj (hok.symm.trans hok')
    refine ⟨hfit, fun r row c cell hrow hc => ?_⟩
    rw [← columnarCell_eq hrepr]
    exact hcells r row c cell hrow hc
  · rintro ⟨hfit, hlands⟩
    obtain ⟨result, hok, hrepr⟩ := exists_result hfit
    refine ⟨result, hok, fun r row c cell hrow hc => ?_⟩
    rw [columnarCell_eq hrepr]
    exact hlands r row c cell hrow hc

theorem Aligned.plain (h : resp.Aligned) (hlands : resp.Lands) : Plain resp.cells := by
  refine plain_of_sliced fun k cell hcell => sliced_of_reading hcell ?_
  obtain ⟨r, row, c, hrow, hc, rfl⟩ := getElem?_flatten h hcell
  exact hlands r row c cell hrow hc

theorem lands_iff_indexed (h : Plain resp.cells) : resp.Lands ↔ resp.Indexed := by
  unfold Lands Indexed
  simp only [h.reading_eq, units_injective.eq_iff]

theorem getElem?_flatten_of_aligned {rows : List (List Cell)} {cols r c : ℕ} {row : List Cell}
    {cell : Cell} (h : ∀ row ∈ rows, row.length = cols) (hrow : rows[r]? = some row)
    (hc : row[c]? = some cell) : rows.flatten[r * cols + c]? = some cell := by
  induction rows generalizing r with
  | nil => cases hrow
  | cons first rows ih =>
    obtain ⟨hfirst, hrows⟩ := List.forall_mem_cons.mp h
    rw [List.flatten_cons]
    cases r with
    | zero =>
      obtain rfl := Option.some.inj hrow
      obtain ⟨hlt, -⟩ := List.getElem?_eq_some_iff.mp hc
      rw [List.getElem?_append_left (by omega), Nat.zero_mul, Nat.zero_add, hc]
    | succ r =>
      rw [List.getElem?_append_right (by rw [Nat.succ_mul]; omega), ← ih hrows hrow]
      congr 1
      rw [Nat.succ_mul]
      omega

theorem lookup_of_getElem? {cells : List Cell} {k : ℕ} {cell : Cell} (h : cells[k]? = some cell)
    (hk : k < 2 ^ 31) : lookup cells k = cell := by
  have hint : toInt32 k = k := by
    unfold toInt32
    split_ifs <;> omega
  rw [lookup, isNullAt, hint, Int.toNat_natCast, h]
  cases cell with
  | none => rfl
  | some t => simp

/-- In rows as long as the fields every cell is where the accessor looks for it, if there are not
more than an `i32` can count. -/
theorem Aligned.faithful_iff_plain (h : resp.Aligned) (hcount : resp.cells.length ≤ 2 ^ 31) :
    resp.Faithful ↔ Plain resp.cells := by
  have hfit : resp.NullsFit := by
    intro k hk
    have hlen : resp.cells.length = resp.rowCells.length * resp.cols := by
      rw [cells, List.length_flatten, List.map_congr_left h, List.map_const',
        List.sum_replicate_nat]
    have hlt := (List.getElem?_eq_some_iff.mp hk).1
    rw [hlen] at hlt
    unfold cap
    omega
  rw [faithful_iff_lands, and_iff_right hfit]
  refine ⟨h.plain, fun hplain => (lands_iff_indexed hplain).mpr fun r row c cell hrow hc => ?_⟩
  have hcell := getElem?_flatten_of_aligned h hrow hc
  exact lookup_of_getElem? hcell (Nat.lt_of_lt_of_le (List.getElem?_eq_some_iff.mp hcell).1 hcount)

/-- **Columnar results are faithful** if there is a bit for every NULL, no text follows a character
that is not in ASCII, and every cell is where the accessor looks for it.  Where rows are as long as
the fields, or the texts are plain, this is necessary, too; elsewhere a wrong position may happen to
show the right text. -/
theorem faithful_iff :
    (resp.NullsFit ∧ Plain resp.cells ∧ resp.Indexed → resp.Faithful) ∧
    (resp.Aligned ∨ Plain resp.cells →
      (resp.Faithful ↔ resp.NullsFit ∧ Plain resp.cells ∧ resp.Indexed)) ∧
    (¬resp.Aligned → ¬Plain resp.cells → (resp.Faithful ↔ resp.NullsFit ∧ resp.Lands)) := by
  have hsuff : resp.NullsFit ∧ Plain resp.cells ∧ resp.Indexed → resp.Faithful := by
    rintro ⟨hfit, hplain, hindexed⟩
    exact faithful_iff_lands.mpr ⟨hfit, (lands_iff_indexed hplain).mpr hindexed⟩
  refine ⟨hsuff, fun hor => ⟨fun h => ?_, hsuff⟩, fun _ _ => faithful_iff_lands⟩
  obtain ⟨hfit, hlands⟩ := faithful_iff_lands.mp h
  have hplain : Plain resp.cells := hor.elim (fun haligned => haligned.plain hlands) id
  exact ⟨hfit, hplain, (lands_iff_indexed hplain).mp hlands⟩

/-- One column, and the rows `é` and `a`. -/
def accent : TextResponse := .rows
  { fields := [⟨"x", 0, 0, 25, -1, -1, .text⟩]
    rows := [[some "é"], [some "a"]]
    commandTag := "SELECT 2"
    fields_lt := by decide
    size_lt := by decide }

/-- The accessor returns `éa` for the first row. -/
theorem accent_unfaithful : ¬accent.Faithful := by
  intro h
  have hcell := (faithful_iff_lands.mp h).2 0 [some "é"] 0 (some "é") rfl rfl
  revert hcell
  decide

end TextResponse

end Resolute.Columnar
