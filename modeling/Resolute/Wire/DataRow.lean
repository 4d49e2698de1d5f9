import Resolute.Wire.Checked

/-!
# The representation of rows

A `DataRow` is kept as it came in, with the position and length of each of its cells, in a buffer of
fixed size for up to `CELL_INLINE_CAP` of them and on the heap for more.  The accessors of a row
(`Checked.cell`, `Checked.tryCell`, `Checked.iter`) cut the cells out of the body by these
positions, without looking at the body again.

A body that is parsed `BeginsWith` its number of columns and these columns; what the parser
remembers are their `cellPositions`, and the casts lose nothing of them.  So a row of either layout
agrees with the columns of its body (`RowAgrees`), by every accessor.
-/

namespace Resolute

/-- A body begins with the columns `cells`: their number, then each with its length in front. -/
def BeginsWith (body : Bytes) (cells : List (Option Bytes)) : Prop :=
  cells.length ≤ 32767 ∧
    ∃ rest, body = countBytes cells.length ++ (cells.flatMap encodeCell ++ rest)

/-- Position and length of columns that start at `off`; NULL has none. -/
def cellPositions : (off : ℕ) → List (Option Bytes) → List (Option (ℕ × ℕ))
  | _, [] => []
  | off, cell :: cells =>
    (cell.map fun data => (off + 4, data.length)) ::
      cellPositions (off + (encodeCell cell).length) cells

namespace RawRow

/-- The row has its entries in the buffer of fixed size. -/
def isInline (row : RawRow) : Bool :=
  match row.cells with
  | .inline _ _ => true
  | .heap _ => false

/-- What an entry says. -/
def position (entry : UInt32 × Int32) : Option (ℕ × ℕ) :=
  if entry.2 < 0 then none else some (entry.1.toNat, entry.2.toNatClampNeg)

end RawRow

/-! ### Accessors -/

namespace Checked

/-- `RawRow::entries`. -/
def entries (row : RawRow) : Checked (List (UInt32 × Int32)) :=
  match row.cells with
  | .inline data len =>
    if len.toNat ≤ cellInlineCap then .ok (data.toList.take len.toNat)
    else .error (.panic .outOfBounds)
  | .heap entries => .ok entries

/-- `&self.body[start..end]`; `none` is NULL. -/
def cellOf (body : Bytes) (entry : UInt32 × Int32) : Checked (Option Bytes) :=
  if entry.2 < 0 then .ok none
  else do
    let start := entry.1.toNat
    let fin ← add start entry.2.toNatClampNeg
    return some (← slice body start fin)

/-- `RawRow::len`. -/
def len (row : RawRow) : Checked ℕ := List.length <$> entries row

/-- `RawRow::cell`. -/
def cell (row : RawRow) (idx : ℕ) : Checked (Option Bytes) := do
  match (← entries row)[idx]? with
  | none => return none
  | some entry => cellOf row.body entry

/-- `RawRow::try_cell`. -/
def tryCell (row : RawRow) (idx : ℕ) : Checked (Option (Option Bytes)) := do
  match (← entries row)[idx]? with
  | none => return none
  | some entry => return some (← cellOf row.body entry)

/-- `RawRow::iter`. -/
def iter (row : RawRow) : Checked (List (Option Bytes)) := do
  (← entries row).mapM (cellOf row.body)

end Checked

/-- What a row says about the columns of its body. -/
structure RowAgrees (body : Bytes) (row : RawRow) (cells : List (Option Bytes)) : Prop where
  body_eq : row.body = body
  /-- Which layout is used. -/
  layout : row.isInline = decide (cells.length ≤ cellInlineCap)
  /-- The entries are the positions and lengths, of which the casts lose nothing. -/
  positions : row.entries.map RawRow.position = cellPositions 2 cells
  inside : ∀ entry ∈ row.entries, ¬entry.2 < 0 →
    entry.1.toNat + entry.2.toNatClampNeg ≤ body.length
  len : Checked.len row = .ok cells.length
  iter : Checked.iter row = .ok cells
  cell (i : ℕ) : Checked.cell row i = .ok cells[i]?.join
  tryCell (i : ℕ) : Checked.tryCell row i = .ok cells[i]?

/-! ### What is parsed is an encoding -/

theorem drop_eq_i32Bytes {body : Bytes} {off : ℕ} (h : off + 4 ≤ body.length) :
    body.drop off = i32Bytes (i32At body off) ++ body.drop (off + 4) := by
  rw [i32Bytes, i32At, UInt32.toUInt32_toInt32, u32At, u32Bytes_u32Be,
    Checked.drop_eq_byteAt_cons (by omega), Checked.drop_eq_byteAt_cons (by omega),
    Checked.drop_eq_byteAt_cons (by omega), Checked.drop_eq_byteAt_cons (by omega)]
  rfl

theorem drop_eq_i16Bytes {body : Bytes} (h : 2 ≤ body.length) :
    body = i16Bytes (i16At body 0) ++ body.drop 2 := by
  have ha := (byteAt body 0).toNat_lt
  have hb := (byteAt body (0 + 1)).toNat_lt
  have hnat : (i16At body 0).toUInt16.toNat =
      (byteAt body 0).toNat * 256 + (byteAt body (0 + 1)).toNat := by
    rw [i16At, i16Be, UInt16.toUInt16_toInt16, UInt16.toNat_ofNat', Nat.mod_eq_of_lt (by omega)]
  have hbyte (n : ℕ) (x : UInt8) (h : n % 256 = x.toNat) : UInt8.ofNat n = x := by
    rw [← UInt8.toNat_inj, UInt8.toNat_ofNat', ← h]
  rw [i16Bytes, hnat, hbyte _ (byteAt body 0) (by omega), hbyte _ (byteAt body (0 + 1)) (by omega)]
  conv_lhs => rw [← body.drop_zero, Checked.drop_eq_byteAt_cons (by omega),
    Checked.drop_eq_byteAt_cons (by omega)]
  rfl

/-- A cell that is read has its length in front. -/
theorem exists_cell {body : Bytes} {off off' : ℕ} {entry : UInt32 × Int32}
    (h : readCellEntry body off = .ok (entry, off')) :
    ∃ cell, body.drop off = encodeCell cell ++ body.drop off' := by
  rw [readCellEntry] at h
  dsimp only at h
  split_ifs at h with hshort hneg hnull hend
  · cases h
    exact ⟨none, by rw [drop_eq_i32Bytes (Nat.not_lt.mp hshort), hnull, encodeCell]⟩
  · cases h
    have hlen : ((body.drop (off + 4)).take (i32At body off).toNatClampNeg).length =
        (i32At body off).toNatClampNeg := by
      rw [List.length_take, List.length_drop, Nat.min_eq_left (by omega)]
    refine ⟨some ((body.drop (off + 4)).take (i32At body off).toNatClampNeg), ?_⟩
    rw [drop_eq_i32Bytes (Nat.not_lt.mp hshort), encodeCell, hlen,
      Int32.ofNat_toNatClampNeg _ (Int32.not_lt.mp hneg), List.append_assoc,
      ← List.drop_drop (i := (i32At body off).toNatClampNeg), List.take_append_drop]

theorem exists_cells {body : Bytes} {n off : ℕ} {entries : List (UInt32 × Int32)}
    (h : readCellEntries body n off = .ok entries) :
    ∃ (cells : List (Option Bytes)) (rest : Bytes), cells.length = n ∧
      body.drop off = cells.flatMap encodeCell ++ rest := by
  induction n generalizing off entries with
  | zero => exact ⟨[], body.drop off, rfl, rfl⟩
  | succ n ih =>
    rw [readCellEntries] at h
    obtain ⟨⟨entry, off'⟩, hentry, h⟩ := Checked.exists_of_bind_eq_ok h
    obtain ⟨entries', hentries, -⟩ := Checked.exists_of_bind_eq_ok h
    obtain ⟨cell, hcell⟩ := exists_cell hentry
    obtain ⟨cells, rest, hlen, hcells⟩ := ih hentries
    refine ⟨cell :: cells, rest, by rw [List.length_cons, hlen], ?_⟩
    rw [hcell, hcells, List.flatMap_cons, List.append_assoc]

/-- A body that is parsed begins with its columns. -/
theorem begins_of_parseDataRow {body : Bytes} {m : Option BackendMsg}
    (h : parseDataRow body = .ok m) : ∃ cells, BeginsWith body cells := by
  rw [parseDataRow] at h
  split_ifs at h with hshort
  obtain ⟨numCols, hcount, h⟩ := Checked.exists_of_bind_eq_ok h
  obtain ⟨entries, hentries, -⟩ := Checked.exists_of_bind_eq_ok h
  obtain ⟨cells, rest, rfl, hcells⟩ := exists_cells hentries
  refine ⟨cells, Nat.le_of_lt_succ (Checked.i16ToUsize_lt hcount), rest, ?_⟩
  have hnum : Int16.ofNat cells.length = i16At body 0 := by
    rw [i16ToUsize] at hcount
    split_ifs at hcount with hneg
    rw [← Except.ok.inj hcount, Int16.ofNat_toNatClampNeg _ (Int16.not_lt.mp hneg)]
  rw [countBytes, hnum, ← hcells]
  exact drop_eq_i16Bytes (Nat.not_lt.mp hshort)

/-! ### What a row says about its body -/

/-- An entry says where its cell is: neither cast loses anything in a body this small. -/
theorem position_cellEntry {off : ℕ} {cell : Option Bytes}
    (hsize : off + (encodeCell cell).length < 2 ^ 31) :
    RawRow.position (cellEntry off cell) = cell.map fun data => (off + 4, data.length) := by
  cases cell with
  | none => rfl
  | some data =>
    rw [encodeCell, List.length_append, length_i32Bytes] at hsize
    have hlow : ¬Int32.ofNat data.length < 0 :=
      not_ofNat_lt (by omega) (Int.natCast_nonneg _)
    rw [cellEntry, RawRow.position, if_neg hlow, Int32.toNatClampNeg_ofNat_of_lt (by omega),
      UInt32.toNat_ofNat_of_lt' (Nat.lt_trans (by omega : off + 4 < 2 ^ 31) (by decide))]
    rfl

theorem positions_cellEntries {off : ℕ} {cells : List (Option Bytes)}
    (hsize : off + (cells.flatMap encodeCell).length < 2 ^ 31) :
    (cellEntries off cells).map RawRow.position = cellPositions off cells := by
  induction cells generalizing off with
  | nil => rfl
  | cons cell cells ih =>
    rw [List.flatMap_cons, List.length_append] at hsize
    rw [cellEntries, List.map_cons, position_cellEntry (by omega), ih (by omega), cellPositions]

/-- The columns lie one behind the other. -/
theorem cellPositions_le {off : ℕ} {cells : List (Option Bytes)} {p : ℕ × ℕ}
    (h : some p ∈ cellPositions off cells) :
    p.1 + p.2 ≤ off + (cells.flatMap encodeCell).length := by
  induction cells generalizing off with
  | nil => cases h
  | cons cell cells ih =>
    rw [List.flatMap_cons, List.length_append]
    rw [cellPositions, List.mem_cons] at h
    rcases h with h | h
    · cases cell with
      | none => cases h
      | some data =>
        obtain rfl := Option.some.inj h
        rw [encodeCell, List.length_append, length_i32Bytes]
        dsimp only
        omega
    · have := ih h
      omega

/-- A body that begins with columns is parsed, into the layout that their number asks for. -/
theorem parseDataRow_of_begins {body : Bytes} {cells : List (Option Bytes)}
    (hsize : body.length < 2 ^ 31) (h : BeginsWith body cells) :
    ∃ row, parseDataRow body = .ok (some (.dataRow row)) ∧ row.body = body ∧
      row.isInline = decide (cells.length ≤ cellInlineCap) ∧
      Checked.entries row = .ok (cellEntries 2 cells) ∧ row.entries = cellEntries 2 cells := by
  obtain ⟨hmax, rest, rfl⟩ := h
  have hread := (readCellEntries_encodeCell (countBytes cells.length) cells rest hsize).1
  have hcount := i16ToUsize_count hmax [] (cells.flatMap encodeCell ++ rest) "DataRow"
  rw [List.nil_append, List.length_nil] at hcount
  rw [parseDataRow, if_neg (not_short_count _ _), hcount, ok_bind,
    show 2 = (countBytes cells.length).length from rfl, hread, ok_bind]
  by_cases hinline : cells.length ≤ cellInlineCap
  · rw [if_pos hinline]
    have hentries := entries_inline (countBytes cells.length ++ (cells.flatMap encodeCell ++ rest))
      (show (cellEntries 2 cells).length ≤ cellInlineCap by rwa [length_cellEntries])
    rw [length_cellEntries] at hentries
    refine ⟨_, rfl, rfl, by simp [RawRow.isInline, hinline], ?_, hentries⟩
    have hlen : (UInt8.ofNat cells.length).toNat ≤ cellInlineCap := by
      rw [UInt8.toNat_ofNat_of_lt' (Nat.lt_of_le_of_lt hinline (by decide))]
      exact hinline
    refine (if_pos hlen).trans (congrArg _ ?_)
    exact hentries
  · rw [if_neg hinline]
    exact ⟨_, rfl, rfl, by simp [RawRow.isInline, hinline], rfl, rfl⟩

/-- An entry that lies within the body is cut out of it. -/
theorem cellOf_eq {body : Bytes} {entry : UInt32 × Int32} (hsize : body.length < 2 ^ 31)
    (h : ¬entry.2 < 0 → entry.1.toNat + entry.2.toNatClampNeg ≤ body.length) :
    Checked.cellOf body entry = .ok (RawRow.cellOf body entry) := by
  rw [Checked.cellOf, RawRow.cellOf]
  by_cases hneg : entry.2 < 0
  · rw [if_pos hneg, if_pos hneg]
  · have hle := h hneg
    rw [if_neg hneg, if_neg hneg]
    dsimp only
    rw [Checked.add_eq (by omega), ok_bind, Checked.slice_eq (Nat.le_add_right _ _) hle, ok_bind,
      List.drop_take, Nat.add_sub_cancel_left]
    rfl

theorem mapM_ok {α β : Type} {f : α → Checked β} {g : α → β} {l : List α}
    (h : ∀ a ∈ l, f a = .ok (g a)) : l.mapM f = .ok (l.map g) := by
  induction l with
  | nil => rfl
  | cons a l ih =>
    rw [List.mapM_cons, h a List.mem_cons_self, ok_bind,
      ih fun a ha => h a (List.mem_cons_of_mem _ ha), ok_bind]
    rfl

/-- A row agrees with the columns of its body. -/
theorem rowAgrees_of_entries {body : Bytes} {row : RawRow} {cells : List (Option Bytes)}
    (hsize : body.length < 2 ^ 31) (hbegins : BeginsWith body cells) (hbody : row.body = body)
    (hlayout : row.isInline = decide (cells.length ≤ cellInlineCap))
    (hentries : Checked.entries row = .ok (cellEntries 2 cells))
    (hrow : row.entries = cellEntries 2 cells) : RowAgrees body row cells := by
  obtain ⟨-, rest, rfl⟩ := hbegins
  have hcells := (readCellEntries_encodeCell (countBytes cells.length) cells rest hsize).2
  rw [length_countBytes] at hcells
  simp only [List.length_append, length_countBytes] at hsize
  have hpos : (cellEntries 2 cells).map RawRow.position = cellPositions 2 cells :=
    positions_cellEntries (by omega)
  have hinside : ∀ entry ∈ cellEntries 2 cells, ¬entry.2 < 0 →
      entry.1.toNat + entry.2.toNatClampNeg ≤
        (countBytes cells.length ++ (cells.flatMap encodeCell ++ rest)).length := by
    intro entry hmem hneg
    have hposition : some (entry.1.toNat, entry.2.toNatClampNeg) ∈ cellPositions 2 cells := by
      rw [← hpos, List.mem_map]
      exact ⟨entry, hmem, if_neg hneg⟩
    have := cellPositions_le hposition
    simp only [List.length_append, length_countBytes]
    omega
  have hcell : ∀ entry ∈ cellEntries 2 cells,
      Checked.cellOf (countBytes cells.length ++ (cells.flatMap encodeCell ++ rest)) entry =
        .ok (RawRow.cellOf (countBytes cells.length ++ (cells.flatMap encodeCell ++ rest)) entry) :=
    fun entry hmem => cellOf_eq (by simp only [List.length_append, length_countBytes]; omega)
      (hinside entry hmem)
  generalize countBytes cells.length ++ (cells.flatMap encodeCell ++ rest) = body at *
  subst hbody
  have hget (i : ℕ) : cells[i]? = (cellEntries 2 cells)[i]?.map (RawRow.cellOf row.body) := by
    rw [← List.getElem?_map, hcells]
  refine ⟨rfl, hlayout, hrow ▸ hpos, hrow ▸ hinside, ?_, ?_, fun i => ?_, fun i => ?_⟩
  · rw [Checked.len, hentries, ← length_cellEntries 2 cells]
    rfl
  · rw [Checked.iter, hentries, ok_bind, mapM_ok hcell, hcells]
  · rw [Checked.cell, hentries, ok_bind, hget]
    cases hi : (cellEntries 2 cells)[i]? with
    | none => rfl
    | some entry => exact hcell entry (List.mem_of_getElem? hi)
  · rw [Checked.tryCell, hentries, ok_bind, hget]
    cases hi : (cellEntries 2 cells)[i]? with
    | none => rfl
    | some entry =>
      dsimp only
      rw [hcell entry (List.mem_of_getElem? hi)]
      rfl

/-- The parser returns for every body, and with a row exactly if the body begins with columns. -/
theorem parseDataRow_begins_iff {body : Bytes} (hbody : body.length ≤ maxMessageSize) :
    (∃ m, Checked.parseDataRow body = .ok m) ↔ ∃ cells, BeginsWith body cells := by
  rw [Checked.parseDataRow_eq hbody]
  constructor
  · rintro ⟨m, h⟩
    cases hparse : parseDataRow body with
    | error e =>
      rw [hparse] at h
      cases h
    | ok m' => exact begins_of_parseDataRow hparse
  · rintro ⟨cells, h⟩
    obtain ⟨row, hparse, -⟩ := parseDataRow_of_begins (Nat.lt_of_le_of_lt hbody (by decide)) h
    exact ⟨_, by rw [hparse, Checked.lift_ok]⟩

/-- **Rows agree with their body.**  The parser never panics; it succeeds exactly if the body begins
with its columns; and what it returns is a row that agrees with them, in either layout. -/
theorem dataRow_agrees (body : Bytes) (hbody : body.length ≤ maxMessageSize) :
    (∃ x, Checked.parseDataRow body = Checked.lift x) ∧
    ((∃ m, Checked.parseDataRow body = .ok m) ↔ ∃ cells, BeginsWith body cells) ∧
    ∀ m cells, Checked.parseDataRow body = .ok m → BeginsWith body cells →
      ∃ row, m = some (.dataRow row) ∧ RowAgrees body row cells := by
  refine ⟨⟨_, Checked.parseDataRow_eq hbody⟩, parseDataRow_begins_iff hbody,
    fun m cells hm hcells => ?_⟩
  have hsize : body.length < 2 ^ 31 := Nat.lt_of_le_of_lt hbody (by decide)
  obtain ⟨row, hparse, hrowBody, hlayout, hentries, hrow⟩ := parseDataRow_of_begins hsize hcells
  rw [Checked.parseDataRow_eq hbody, hparse] at hm
  cases hm
  exact ⟨row, rfl, rowAgrees_of_entries hsize hcells hrowBody hlayout hentries hrow⟩

/-- A row of NULL and two bytes, with one byte behind it. -/
theorem dataRow_agrees_two :
    let body := [0, 2, 255, 255, 255, 255, 0, 0, 0, 2, 104, 105, 7]
    (∃ x, Checked.parseDataRow body = Checked.lift x) ∧
    ((∃ m, Checked.parseDataRow body = .ok m) ↔ ∃ cells, BeginsWith body cells) ∧
    ∀ m cells, Checked.parseDataRow body = .ok m → BeginsWith body cells →
      ∃ row, m = some (.dataRow row) ∧ RowAgrees body row cells :=
  dataRow_agrees _ (by decide)

end Resolute
