import Mathlib.Algebra.Ring.Nat
import Resolute.Wire.Backend

/-!
# Backend messages as the server sends them

The format of each backend message in the protocol, and that the parser gives the message back: from
its bytes (`BackendMsg.encode`) in front of anything else, `parse_message` takes the message and
leaves the rest.  This needs that the format can hold the message, which is
`BackendMsg.WellFormed`: no zero byte in a string, counts within 16 bits, and a size that the
parser accepts.

A row is compared by its cells, since a `RawRow` keeps the body it was parsed from.
-/

namespace Resolute

/-! ### Rows -/

namespace RawRow

def entries (row : RawRow) : List (UInt32 × Int32) :=
  match row.cells with
  | .inline data len => data.toList.take len.toNat
  | .heap entries => entries

/-- The cell of an entry; `none` is NULL. -/
def cellOf (body : Bytes) (entry : UInt32 × Int32) : Option Bytes :=
  if entry.2 < 0 then none
  else some ((body.drop entry.1.toNat).take entry.2.toNatClampNeg)

/-- The cells. -/
def iter (row : RawRow) : List (Option Bytes) := row.entries.map (cellOf row.body)

end RawRow

/-! ### The format -/

/-- `i16::to_be_bytes`. -/
def i16Bytes (n : Int16) : Bytes :=
  [UInt8.ofNat (n.toUInt16.toNat / 256), UInt8.ofNat n.toUInt16.toNat]

/-- `i32::to_be_bytes`. -/
def i32Bytes (n : Int32) : Bytes := u32Bytes n.toUInt32

/-- A string with its terminator. -/
def cString (s : String) : Bytes := asBytes s ++ [0]

/-- A count of 16 bits. -/
def countBytes (n : ℕ) : Bytes := i16Bytes (Int16.ofNat n)

def encodeCell : Option Bytes → Bytes
  | none => i32Bytes (-1)
  | some data => i32Bytes (Int32.ofNat data.length) ++ data

def FormatCode.toInt16 : FormatCode → Int16
  | .text => 0
  | .binary => 1

/-- What follows the name of a field. -/
def FieldDescription.metadata (f : FieldDescription) : Bytes :=
  u32Bytes f.tableOid ++ (i16Bytes f.columnId ++ (u32Bytes f.typeOid ++ (i16Bytes f.typeSize ++
    (i32Bytes f.typeModifier ++ i16Bytes f.format.toInt16))))

def FieldDescription.encode (f : FieldDescription) : Bytes := cString f.name ++ f.metadata

/-- The fields that are sent for an error or a notice. -/
def PgError.fields (e : PgError) : List (Char × String) :=
  [('S', e.severity), ('C', e.code), ('M', e.message)] ++
    (e.detail.toList.map ('D', ·) ++ (e.hint.toList.map ('H', ·) ++ e.position.toList.map ('P', ·)))

def PgError.encode (e : PgError) : Bytes :=
  e.fields.flatMap (fun field => byte field.1 :: cString field.2) ++ [0]

namespace BackendMsg

def tag : BackendMsg → Char
  | authenticationOk | authenticationCleartextPassword | authenticationMd5Password _
  | authenticationSASL _ | authenticationSASLContinue _ | authenticationSASLFinal _ => 'R'
  | parameterStatus _ _ => 'S'
  | backendKeyData _ _ => 'K'
  | readyForQuery _ => 'Z'
  | parseComplete => '1'
  | bindComplete => '2'
  | closeComplete => '3'
  | noData => 'n'
  | commandComplete _ => 'C'
  | dataRow _ => 'D'
  | rowDescription _ => 'T'
  | errorResponse _ => 'E'
  | noticeResponse _ => 'N'
  | emptyQueryResponse => 'I'
  | parameterDescription _ => 't'
  | notificationResponse _ _ _ => 'A'
  | portalSuspended => 's'
  | copyInResponse _ _ => 'G'
  | copyOutResponse _ _ => 'H'
  | copyData _ => 'd'
  | copyDone => 'c'

def encodeBody : BackendMsg → Bytes
  | authenticationOk => i32Bytes 0
  | authenticationCleartextPassword => i32Bytes 3
  | authenticationMd5Password salt => i32Bytes 5 ++ salt.toList
  | authenticationSASL mechanisms => i32Bytes 10 ++ (mechanisms.flatMap cString ++ [0])
  | authenticationSASLContinue data => i32Bytes 11 ++ data
  | authenticationSASLFinal data => i32Bytes 12 ++ data
  | parameterStatus name value => cString name ++ cString value
  | backendKeyData pid secret => i32Bytes pid ++ i32Bytes secret
  | readyForQuery status => [status]
  | commandComplete tag => cString tag
  | dataRow row => countBytes row.iter.length ++ row.iter.flatMap encodeCell
  | rowDescription fields => countBytes fields.length ++ fields.flatMap FieldDescription.encode
  | errorResponse fields | noticeResponse fields => fields.encode
  | parameterDescription typeOids => countBytes typeOids.length ++ typeOids.flatMap u32Bytes
  | notificationResponse pid channel payload => i32Bytes pid ++ (cString channel ++ cString payload)
  | copyInResponse format columnFormats | copyOutResponse format columnFormats =>
    format :: (countBytes columnFormats.length ++ columnFormats.flatMap i16Bytes)
  | copyData data => data
  | parseComplete | bindComplete | closeComplete | noData | emptyQueryResponse | portalSuspended
  | copyDone => []

/-- The frame of a message. -/
def frame (m : BackendMsg) : Frame where
  tag := byte m.tag
  length := Int32.ofNat (m.encodeBody.length + 4)
  body := m.encodeBody

/-- The bytes of a message. -/
def encode (m : BackendMsg) : Bytes := m.frame.encode

/-- The strings of a message. -/
def strings : BackendMsg → List String
  | authenticationSASL mechanisms => mechanisms
  | parameterStatus name value => [name, value]
  | commandComplete tag => [tag]
  | rowDescription fields => fields.map FieldDescription.name
  | errorResponse fields | noticeResponse fields => fields.fields.map Prod.snd
  | notificationResponse _ channel payload => [channel, payload]
  | _ => []

/-- The count that a message has. -/
def count : BackendMsg → ℕ
  | dataRow row => row.iter.length
  | rowDescription fields => fields.length
  | parameterDescription typeOids => typeOids.length
  | copyInResponse _ columnFormats | copyOutResponse _ columnFormats => columnFormats.length
  | _ => 0

/-- What the format can hold, and the parser accepts. -/
structure WellFormed (m : BackendMsg) : Prop where
  strings : ∀ s ∈ m.strings, 0 ∉ asBytes s
  mechanisms : ∀ names, m = authenticationSASL names → "" ∉ names
  count : m.count ≤ 32767
  size : m.encodeBody.length + 4 ≤ maxMessageSize

/-- The messages are the same, but for where the cells of a row are stored. -/
def Same : BackendMsg → BackendMsg → Prop
  | dataRow row, dataRow row' => row.iter = row'.iter
  | m, m' => m = m'

end BackendMsg

/-! ### Reading at a position -/

theorem byteAt_append (pre rest : Bytes) (i : ℕ) :
    byteAt (pre ++ rest) (pre.length + i) = byteAt rest i := by
  simp [byteAt, List.getElem?_append_right (Nat.le_add_right pre.length i)]

theorem u32At_append (pre rest : Bytes) (i : ℕ) :
    u32At (pre ++ rest) (pre.length + i) = u32At rest i := by
  simp only [u32At, Nat.add_assoc, byteAt_append]

theorem i16At_append (pre rest : Bytes) (i : ℕ) :
    i16At (pre ++ rest) (pre.length + i) = i16At rest i := by
  simp only [i16At, Nat.add_assoc, byteAt_append]

theorem u32At_u32Bytes (pre : Bytes) (n : UInt32) (rest : Bytes) :
    u32At (pre ++ (u32Bytes n ++ rest)) pre.length = n := by
  have happend := u32At_append pre (u32Bytes n ++ rest) 0
  rw [Nat.add_zero] at happend
  exact happend.trans (u32Be_u32Bytes n)

theorem i32At_i32Bytes (pre : Bytes) (n : Int32) (rest : Bytes) :
    i32At (pre ++ (i32Bytes n ++ rest)) pre.length = n := by
  rw [i32At, i32Bytes, u32At_u32Bytes, Int32.toInt32_toUInt32]

theorem i16At_i16Bytes (pre : Bytes) (n : Int16) (rest : Bytes) :
    i16At (pre ++ (i16Bytes n ++ rest)) pre.length = n := by
  have happend := i16At_append pre (i16Bytes n ++ rest) 0
  rw [Nat.add_zero] at happend
  refine happend.trans ?_
  have hn : n.toUInt16.toNat < 65536 := n.toUInt16.toNat_lt
  have hdigits : n.toUInt16.toNat / 256 % 256 * 256 + n.toUInt16.toNat % 256 =
      n.toUInt16.toNat := by omega
  simp only [i16At, i16Bytes, byteAt, List.cons_append, List.getD_cons_zero, List.getD_cons_succ,
    i16Be, UInt8.toNat_ofNat']
  rw [hdigits, UInt16.ofNat_toNat, Int16.toInt16_toUInt16]

@[simp] theorem length_u32Bytes (n : UInt32) : (u32Bytes n).length = 4 := rfl

@[simp] theorem length_i32Bytes (n : Int32) : (i32Bytes n).length = 4 := rfl

@[simp] theorem length_i16Bytes (n : Int16) : (i16Bytes n).length = 2 := rfl

@[simp] theorem length_countBytes (n : ℕ) : (countBytes n).length = 2 := rfl

theorem not_short_count (n : ℕ) (bs : Bytes) : ¬(countBytes n ++ bs).length < 2 := by
  rw [List.length_append, length_countBytes]
  omega

/-- A length that fits is not less than a number that the length reaches. -/
theorem not_ofNat_lt {n : ℕ} {k : Int32} (h : n < 2 ^ 31) (hk : k.toInt ≤ n) :
    ¬Int32.ofNat n < k := by
  rw [Int32.lt_iff_toInt_lt, Int32.toInt_ofNat_of_lt h]
  exact Int.not_lt.2 hk

theorem i16ToUsize_count {n : ℕ} (hn : n ≤ 32767) (pre rest : Bytes) (context : String) :
    i16ToUsize (i16At (pre ++ (countBytes n ++ rest)) pre.length) context = .ok n := by
  have hint : (Int16.ofNat n).toInt = n := Int16.toInt_ofNat_of_lt (by omega)
  have hlow : ¬Int16.ofNat n < 0 := by
    rw [Int16.lt_iff_toInt_lt, hint]
    simp
  rw [countBytes, i16At_i16Bytes, i16ToUsize, if_neg hlow, Int16.toNatClampNeg, hint,
    Int.toNat_natCast]

theorem splitCString_cString {s : String} (hs : 0 ∉ asBytes s) (rest : Bytes) :
    splitCString (cString s ++ rest) = (asBytes s, rest) := by
  have hall : ∀ b ∈ asBytes s, (b != 0) = true := fun b hb => by
    rw [bne_iff_ne]
    rintro rfl
    exact hs hb
  have htake : (0 :: rest).takeWhile (· != 0) = [] := rfl
  have hdrop : (0 :: rest).dropWhile (· != 0) = 0 :: rest := rfl
  rw [cString, List.append_assoc, List.singleton_append, splitCString,
    List.takeWhile_append_of_pos hall, List.dropWhile_append_of_pos hall, htake, hdrop]
  simp

@[simp] theorem utf8String_asBytes (context s : String) :
    utf8String context (asBytes s) = .ok s := by
  rw [utf8String, fromUtf8_asBytes]

@[simp] theorem ok_bind {ε α β : Type} (a : α) (f : α → Except ε β) : (.ok a >>= f) = f a := rfl

/-! ### Rows -/

/-- The entry of a cell that starts at `off`. -/
def cellEntry (off : ℕ) : Option Bytes → UInt32 × Int32
  | none => (0, -1)
  | some data => (UInt32.ofNat (off + 4), Int32.ofNat data.length)

/-- The entries of cells one behind the other. -/
def cellEntries : (off : ℕ) → List (Option Bytes) → List (UInt32 × Int32)
  | _, [] => []
  | off, cell :: cells => cellEntry off cell :: cellEntries (off + (encodeCell cell).length) cells

theorem length_cellEntries (off : ℕ) (cells : List (Option Bytes)) :
    (cellEntries off cells).length = cells.length := by
  induction cells generalizing off with
  | nil => rfl
  | cons cell cells ih => rw [cellEntries, List.length_cons, ih, List.length_cons]

/-- An entry lies within the body. -/
theorem readCellEntry_encodeCell (pre : Bytes) (cell : Option Bytes) (rest : Bytes)
    (hsize : (pre ++ (encodeCell cell ++ rest)).length < 2 ^ 31) :
    readCellEntry (pre ++ (encodeCell cell ++ rest)) pre.length =
        .ok (cellEntry pre.length cell, pre.length + (encodeCell cell).length) ∧
      RawRow.cellOf (pre ++ (encodeCell cell ++ rest)) (cellEntry pre.length cell) = cell := by
  cases cell with
  | none =>
    have hlen := i32At_i32Bytes pre (-1) rest
    refine ⟨?_, rfl⟩
    rw [encodeCell, readCellEntry, hlen, if_neg (by simp), if_pos (by decide), if_pos rfl,
      length_i32Bytes]
    rfl
  | some data =>
    have hdata : data.length < 2 ^ 31 := by
      simp only [encodeCell, List.length_append] at hsize
      omega
    have hpos : pre.length + 4 < 2 ^ 31 := by
      simp only [encodeCell, List.length_append, length_i32Bytes] at hsize
      omega
    have hlow : ¬Int32.ofNat data.length < 0 := not_ofNat_lt hdata (Int.natCast_nonneg _)
    have hlen := i32At_i32Bytes pre (Int32.ofNat data.length) (data ++ rest)
    have hnat : (Int32.ofNat data.length).toNatClampNeg = data.length :=
      Int32.toNatClampNeg_ofNat_of_lt hdata
    refine ⟨?_, ?_⟩
    · rw [encodeCell, List.append_assoc, readCellEntry, hlen, if_neg (by simp), if_neg hlow,
        hnat, if_neg (by simp; omega)]
      simp [Nat.add_assoc, cellEntry]
    · have hoff : (UInt32.ofNat (pre.length + 4)).toNat =
          (pre ++ i32Bytes (.ofNat data.length)).length := by
        rw [UInt32.toNat_ofNat_of_lt' (Nat.lt_trans hpos (by decide)), List.length_append,
          length_i32Bytes]
      rw [cellEntry, RawRow.cellOf, if_neg hlow, hnat, hoff, encodeCell, List.append_assoc,
        ← List.append_assoc pre, List.drop_left, List.take_left]

theorem readCellEntries_encodeCell (pre : Bytes) (cells : List (Option Bytes)) (rest : Bytes)
    (hsize : (pre ++ (cells.flatMap encodeCell ++ rest)).length < 2 ^ 31) :
    readCellEntries (pre ++ (cells.flatMap encodeCell ++ rest)) cells.length pre.length =
        .ok (cellEntries pre.length cells) ∧
      (cellEntries pre.length cells).map
        (RawRow.cellOf (pre ++ (cells.flatMap encodeCell ++ rest))) = cells := by
  induction cells generalizing pre with
  | nil => exact ⟨rfl, rfl⟩
  | cons cell cells ih =>
    rw [List.flatMap_cons, List.append_assoc] at hsize ⊢
    obtain ⟨hread, hcell⟩ := readCellEntry_encodeCell pre cell _ hsize
    have hih := ih (pre ++ encodeCell cell) (by simpa using hsize)
    rw [List.append_assoc, List.length_append] at hih
    obtain ⟨hreads, hcells⟩ := hih
    refine ⟨?_, ?_⟩
    · rw [List.length_cons, readCellEntries, hread, ok_bind]
      dsimp only
      rw [hreads]
      rfl
    · rw [cellEntries, List.map_cons, hcell, hcells]

/-- The entries that are stored inline. -/
theorem entries_inline (body : Bytes) {entries : List (UInt32 × Int32)}
    (h : entries.length ≤ cellInlineCap) :
    RawRow.entries ⟨body, .inline (Vector.ofFn fun i => entries.getD i (0, 0))
      (.ofNat entries.length)⟩ = entries := by
  have hlen : (UInt8.ofNat entries.length).toNat = entries.length :=
    UInt8.toNat_ofNat_of_lt' (Nat.lt_of_le_of_lt h (by decide))
  simp only [RawRow.entries, hlen]
  refine List.ext_getElem (by simp [Nat.min_eq_left h]) fun i hi hi' => ?_
  simp [hi']

theorem parseDataRow_encode {cells : List (Option Bytes)} (hcount : cells.length ≤ 32767)
    (hsize : (countBytes cells.length ++ cells.flatMap encodeCell).length < 2 ^ 31) :
    ∃ row, parseDataRow (countBytes cells.length ++ cells.flatMap encodeCell) =
        .ok (some (.dataRow row)) ∧ row.iter = cells := by
  obtain ⟨hread, hcells⟩ :=
    readCellEntries_encodeCell (countBytes cells.length) cells [] (by simpa using hsize)
  rw [List.append_nil, length_countBytes] at hread hcells
  have hlength := length_cellEntries 2 cells
  have hcount' := i16ToUsize_count hcount [] (cells.flatMap encodeCell) "DataRow"
  rw [List.nil_append, List.length_nil] at hcount'
  rw [parseDataRow, if_neg (not_short_count _ _), hcount', ok_bind, hread, ok_bind]
  split_ifs with hinline
  · refine ⟨_, rfl, ?_⟩
    rw [← hlength] at hinline ⊢
    rw [RawRow.iter, entries_inline _ hinline]
    rwa [← hlength] at hcells
  · exact ⟨_, rfl, hcells⟩

/-! ### Row descriptions -/

theorem FormatCode.of_toInt16 (format : FormatCode) :
    (if format.toInt16 = 1 then FormatCode.binary else .text) = format := by
  cases format <;> rfl

/-- The fields of fixed size, one after the other. -/
theorem field_metadata (f : FieldDescription) (rest : Bytes) :
    u32At (f.metadata ++ rest) 0 = f.tableOid ∧ i16At (f.metadata ++ rest) 4 = f.columnId ∧
      u32At (f.metadata ++ rest) 6 = f.typeOid ∧ i16At (f.metadata ++ rest) 10 = f.typeSize ∧
      i32At (f.metadata ++ rest) 12 = f.typeModifier ∧
      i16At (f.metadata ++ rest) 16 = f.format.toInt16 := by
  simp only [FieldDescription.metadata, List.append_assoc]
  refine ⟨u32At_u32Bytes [] _ _, i16At_i16Bytes (u32Bytes f.tableOid) _ _, ?_, ?_, ?_, ?_⟩
  · simpa using u32At_u32Bytes (u32Bytes f.tableOid ++ i16Bytes f.columnId) f.typeOid _
  · simpa using i16At_i16Bytes (u32Bytes f.tableOid ++ (i16Bytes f.columnId ++
      u32Bytes f.typeOid)) f.typeSize _
  · simpa using i32At_i32Bytes (u32Bytes f.tableOid ++ (i16Bytes f.columnId ++
      (u32Bytes f.typeOid ++ i16Bytes f.typeSize))) f.typeModifier _
  · simpa using i16At_i16Bytes (u32Bytes f.tableOid ++ (i16Bytes f.columnId ++
      (u32Bytes f.typeOid ++ (i16Bytes f.typeSize ++ i32Bytes f.typeModifier)))) f.format.toInt16 _

theorem parseField_encode (pre : Bytes) (idx : ℕ) {f : FieldDescription}
    (hname : 0 ∉ asBytes f.name) (rest : Bytes) :
    parseField (pre ++ (f.encode ++ rest)) idx pre.length =
      .ok (f, pre.length + f.encode.length) := by
  obtain ⟨htable, hcolumn, htype, hsize, hmodifier, hformat⟩ := field_metadata f rest
  have hmetadata : f.metadata.length = 18 := rfl
  have hlen : f.encode.length = (asBytes f.name).length + 1 + 18 := by
    rw [FieldDescription.encode, List.length_append, hmetadata, cString, List.length_append]
    rfl
  have hoff : pre.length + (asBytes f.name).length + 1 = (pre ++ cString f.name).length := by
    simp [cString, Nat.add_assoc]
  have hbody : pre ++ (f.encode ++ rest) = pre ++ cString f.name ++ (f.metadata ++ rest) := by
    simp [FieldDescription.encode]
  have hbound : ¬(pre ++ (f.encode ++ rest)).length ≤ pre.length := by
    simp only [List.length_append, hlen]
    omega
  have hbound' : ¬(pre ++ cString f.name ++ (f.metadata ++ rest)).length <
      (pre ++ cString f.name).length + 18 := by
    simp only [List.length_append, hmetadata]
    omega
  rw [parseField, if_neg hbound, List.drop_left, FieldDescription.encode, List.append_assoc,
    splitCString_cString hname]
  dsimp only
  have hend : (pre ++ cString f.name).length + 18 =
      pre.length + (cString f.name ++ f.metadata).length := by
    simp only [List.length_append, hmetadata]
    omega
  have htable' := u32At_append (pre ++ cString f.name) (f.metadata ++ rest) 0
  rw [Nat.add_zero] at htable'
  rw [i32At] at hmodifier
  rw [← List.append_assoc, hoff, if_neg hbound', utf8String_asBytes, ok_bind, htable', i16At_append,
    u32At_append, i16At_append, i32At, u32At_append, i16At_append, htable, hcolumn, htype, hsize,
    hmodifier, hformat, FormatCode.of_toInt16, hend]
  rfl

theorem parseFields_encode (pre : Bytes) (idx : ℕ) {fields : List FieldDescription}
    (hnames : ∀ f ∈ fields, 0 ∉ asBytes f.name) :
    parseFields (pre ++ fields.flatMap FieldDescription.encode) fields.length idx pre.length =
      .ok fields := by
  induction fields generalizing pre idx with
  | nil => rfl
  | cons f fields ih =>
    have hih := ih (pre ++ f.encode) (idx + 1) fun f hf => hnames f (List.mem_cons_of_mem _ hf)
    rw [List.append_assoc, List.length_append] at hih
    rw [List.length_cons, List.flatMap_cons, parseFields,
      parseField_encode pre idx (hnames f List.mem_cons_self), ok_bind]
    dsimp only
    rw [hih]
    rfl

theorem parseRowDescription_encode {fields : List FieldDescription}
    (hnames : ∀ f ∈ fields, 0 ∉ asBytes f.name) (hcount : fields.length ≤ 32767) :
    parseRowDescription (countBytes fields.length ++ fields.flatMap FieldDescription.encode) =
      .ok (some (.rowDescription fields)) := by
  have hcount' := i16ToUsize_count hcount [] (fields.flatMap FieldDescription.encode)
    "RowDescription"
  rw [List.nil_append, List.length_nil] at hcount'
  have hfields := parseFields_encode (countBytes fields.length) 0 hnames
  rw [length_countBytes] at hfields
  rw [parseRowDescription, if_neg (not_short_count _ _), hcount', ok_bind, hfields]
  rfl

/-! ### Lists of integers -/

theorem length_flatMap_of_length {α : Type} {f : α → Bytes} {size : ℕ}
    (h : ∀ x, (f x).length = size) (xs : List α) :
    (xs.flatMap f).length = xs.length * size := by
  induction xs with
  | nil => simp
  | cons x xs ih =>
    rw [List.flatMap_cons, List.length_append, h, ih, List.length_cons, Nat.succ_mul, Nat.add_comm]

theorem length_le_flatMap {α : Type} {f : α → Bytes} (h : ∀ x, f x ≠ []) (xs : List α) :
    xs.length ≤ (xs.flatMap f).length := by
  induction xs with
  | nil => exact Nat.le_refl 0
  | cons x xs ih =>
    have hpos := List.length_pos_iff.2 (h x)
    rw [List.flatMap_cons, List.length_append, List.length_cons]
    omega

theorem map_range_u32At (pre : Bytes) (ns : List UInt32) (rest : Bytes) :
    (List.range ns.length).map (fun i => u32At (pre ++ (ns.flatMap u32Bytes ++ rest))
      (pre.length + i * 4)) = ns := by
  induction ns generalizing pre with
  | nil => rfl
  | cons n ns ih =>
    rw [List.length_cons, List.range_succ_eq_map, List.map_cons, List.map_map]
    have hih := ih (pre ++ u32Bytes n)
    simp only [List.append_assoc, List.length_append, length_u32Bytes] at hih
    refine congrArg₂ List.cons ?_ (Eq.trans (List.map_congr_left fun i _ => ?_) hih)
    · rw [List.flatMap_cons, List.append_assoc, Nat.zero_mul, Nat.add_zero, u32At_u32Bytes]
    · rw [List.flatMap_cons, List.append_assoc, Function.comp_apply, Nat.succ_mul,
        Nat.add_comm (i * 4), Nat.add_assoc]

theorem map_range_i16At (pre : Bytes) (ns : List Int16) (rest : Bytes) :
    (List.range ns.length).map (fun i => i16At (pre ++ (ns.flatMap i16Bytes ++ rest))
      (pre.length + i * 2)) = ns := by
  induction ns generalizing pre with
  | nil => rfl
  | cons n ns ih =>
    rw [List.length_cons, List.range_succ_eq_map, List.map_cons, List.map_map]
    have hih := ih (pre ++ i16Bytes n)
    simp only [List.append_assoc, List.length_append, length_i16Bytes] at hih
    refine congrArg₂ List.cons ?_ (Eq.trans (List.map_congr_left fun i _ => ?_) hih)
    · rw [List.flatMap_cons, List.append_assoc, Nat.zero_mul, Nat.add_zero, i16At_i16Bytes]
    · rw [List.flatMap_cons, List.append_assoc, Function.comp_apply, Nat.succ_mul,
        Nat.add_comm (i * 2), Nat.add_assoc]

theorem parseParameterDescription_encode {typeOids : List Oid} (hcount : typeOids.length ≤ 32767) :
    parseParameterDescription (countBytes typeOids.length ++ typeOids.flatMap u32Bytes) =
      .ok (some (.parameterDescription typeOids)) := by
  have hcount' := i16ToUsize_count hcount [] (typeOids.flatMap u32Bytes) "ParameterDescription"
  rw [List.nil_append, List.length_nil] at hcount'
  have hoids := map_range_u32At (countBytes typeOids.length) typeOids []
  rw [List.append_nil, length_countBytes] at hoids
  have hlen := length_flatMap_of_length (fun n => length_u32Bytes n) typeOids
  rw [parseParameterDescription, if_neg (not_short_count _ _), hcount', ok_bind, hoids]
  dsimp only
  rw [if_neg (by simp [hlen])]
  rfl

theorem parseCopyResponse_encode (format : UInt8) {columnFormats : List Int16}
    (hcount : columnFormats.length ≤ 32767) (isIn : Bool) :
    parseCopyResponse (format :: (countBytes columnFormats.length ++
      columnFormats.flatMap i16Bytes)) isIn = .ok (some (if isIn then
        .copyInResponse format columnFormats else .copyOutResponse format columnFormats)) := by
  have hcount' := i16ToUsize_count hcount [format] (columnFormats.flatMap i16Bytes) "CopyResponse"
  have hformats := map_range_i16At (format :: countBytes columnFormats.length) columnFormats []
  have hlen := length_flatMap_of_length (fun n => length_i16Bytes n) columnFormats
  rw [List.append_nil, List.cons_append] at hformats
  rw [parseCopyResponse, if_neg (by simp), ← List.singleton_append]
  rw [List.length_singleton] at hcount'
  rw [hcount', ok_bind]
  dsimp only
  rw [if_neg (by simp [hlen]; omega)]
  have hthree : (format :: countBytes columnFormats.length).length = 3 := rfl
  rw [hthree] at hformats
  rw [List.singleton_append, hformats]
  cases isIn <;> rfl

/-! ### Errors and notices -/

theorem errorFields_encode {fields : List (Char × String)}
    (hstrings : ∀ field ∈ fields, byte field.1 ≠ 0 ∧ 0 ∉ asBytes field.2) {fuel : ℕ}
    (hfuel : fields.length ≤ fuel) (err : PgError) :
    errorFields fuel (fields.flatMap (fun field => byte field.1 :: cString field.2) ++ [0]) err =
      fields.foldl (fun err field => err.setField (byte field.1) field.2) err := by
  induction fields generalizing fuel err with
  | nil => cases fuel <;> rfl
  | cons field fields ih =>
    obtain ⟨fuel, rfl⟩ := Nat.exists_eq_add_of_le' (Nat.le_trans (Nat.le_add_left 1 _) hfuel)
    obtain ⟨htype, hvalue⟩ := hstrings field List.mem_cons_self
    have hsplit := splitCString_cString hvalue
      (fields.flatMap (fun field => byte field.1 :: cString field.2) ++ [0])
    rw [List.flatMap_cons, List.cons_append, List.cons_append, List.append_assoc, List.foldl_cons]
    obtain ⟨b, rest, hrest⟩ := List.exists_cons_of_ne_nil (l := cString field.2 ++
      (fields.flatMap (fun field => byte field.1 :: cString field.2) ++ [0])) (by simp)
    rw [hrest] at hsplit ⊢
    rw [errorFields, if_neg htype, hsplit]
    dsimp only
    rw [fromUtf8_asBytes, Option.getD_some]
    exact ih (fun field hf => hstrings field (List.mem_cons_of_mem _ hf))
      (Nat.le_of_succ_le_succ hfuel) _

theorem foldl_setField (e : PgError) :
    e.fields.foldl (fun err field => err.setField (byte field.1) field.2) {} = e := by
  obtain ⟨severity, code, message, detail, hint, position⟩ := e
  cases detail <;> cases hint <;> cases position <;> rfl

theorem parseErrorOrNotice_encode {e : PgError} (h : ∀ s ∈ e.fields.map Prod.snd, 0 ∉ asBytes s) :
    parseErrorOrNotice e.encode = e := by
  have htypes : ∀ field ∈ e.fields, byte field.1 ≠ 0 := by
    have hall : (e.fields.map Prod.fst).all (byte · != 0) = true := by
      obtain ⟨severity, code, message, detail, hint, position⟩ := e
      cases detail <;> cases hint <;> cases position <;> rfl
    intro field hfield
    simpa using List.all_eq_true.1 hall field.1 (List.mem_map_of_mem hfield)
  have hlen : e.fields.length ≤ e.encode.length := by
    have hle := length_le_flatMap (fun field : Char × String =>
      List.cons_ne_nil (byte field.1) (cString field.2)) e.fields
    rw [PgError.encode, List.length_append]
    omega
  rw [parseErrorOrNotice]
  refine (errorFields_encode (fun field hf => ⟨htypes field hf, ?_⟩) hlen {}).trans
    (foldl_setField e)
  exact h _ (List.mem_map_of_mem hf)

/-! ### Authentication -/

theorem saslMechanisms_encode {names : List String} (hnames : ∀ s ∈ names, 0 ∉ asBytes s)
    (hne : "" ∉ names) {fuel : ℕ} (hfuel : names.length ≤ fuel) :
    saslMechanisms fuel (names.flatMap cString ++ [0]) = .ok names := by
  induction names generalizing fuel with
  | nil => cases fuel <;> rfl
  | cons name names ih =>
    obtain ⟨fuel, rfl⟩ := Nat.exists_eq_add_of_le' (Nat.le_trans (Nat.le_add_left 1 _) hfuel)
    have hname := hnames name List.mem_cons_self
    have hsplit := splitCString_cString hname (names.flatMap cString ++ [0])
    obtain ⟨b, bs, hbs⟩ := List.exists_cons_of_ne_nil (l := asBytes name) fun hnil =>
      hne ((asBytes_injective (hnil.trans rfl) : name = "") ▸ List.mem_cons_self)
    have hb : b ≠ 0 := by
      rintro rfl
      exact hname (hbs ▸ List.mem_cons_self)
    rw [List.flatMap_cons, List.append_assoc]
    have hcons : cString name ++ (names.flatMap cString ++ [0]) =
        b :: (bs ++ [0] ++ (names.flatMap cString ++ [0])) := by
      rw [cString, hbs]
      rfl
    rw [hcons] at hsplit ⊢
    rw [saslMechanisms, if_neg hb, hsplit]
    dsimp only
    rw [utf8String_asBytes, ok_bind, ih (fun s hs => hnames s (List.mem_cons_of_mem _ hs))
      (fun hmem => hne (List.mem_cons_of_mem _ hmem)) (Nat.le_of_succ_le_succ hfuel)]
    rfl

/-! ### Messages -/

namespace BackendMsg

theorem Same.refl (m : BackendMsg) : m.Same m := by
  cases m <;> rfl

theorem splitCString_last {s : String} (hs : 0 ∉ asBytes s) :
    splitCString (cString s) = (asBytes s, []) := by
  simpa using splitCString_cString hs []

/-- Where the kind of an authentication request is read. -/
theorem authType_at (n : Int32) (rest : Bytes) : ¬(i32Bytes n ++ rest).length < 4 ∧
    i32At (i32Bytes n ++ rest) 0 = n ∧ (i32Bytes n ++ rest).drop 4 = rest :=
  ⟨by simp, i32At_i32Bytes [] n rest, rfl⟩

theorem parseAuth_md5 (salt : Vector UInt8 4) : parseAuth (i32Bytes 5 ++ salt.toList) =
    .ok (some (.authenticationMd5Password salt)) := by
  obtain ⟨hlen, htype, -⟩ := authType_at 5 salt.toList
  have hsalt :
      (Vector.ofFn fun i : Fin 4 => byteAt (i32Bytes 5 ++ salt.toList) (4 + i)) = salt := by
    refine Vector.ext fun i hi => ?_
    have hbyte := byteAt_append (i32Bytes 5) salt.toList i
    rw [length_i32Bytes] at hbyte
    rw [Vector.getElem_ofFn, hbyte]
    simp [byteAt, hi]
  rw [parseAuth, if_neg hlen, htype, if_neg (by decide), if_neg (by decide), if_pos rfl,
    if_neg (by simp), hsalt]

theorem parseAuth_sasl {names : List String} (hnames : ∀ s ∈ names, 0 ∉ asBytes s)
    (hne : "" ∉ names) : parseAuth (i32Bytes 10 ++ (names.flatMap cString ++ [0])) =
      .ok (some (.authenticationSASL names)) := by
  obtain ⟨hlen, htype, hdrop⟩ := authType_at 10 (names.flatMap cString ++ [0])
  have hfuel : names.length ≤ (i32Bytes 10 ++ (names.flatMap cString ++ [0])).length := by
    have hle := length_le_flatMap (f := cString) (fun s => by simp [cString]) names
    simp only [List.length_append]
    omega
  rw [parseAuth, if_neg hlen, htype, if_neg (by decide), if_neg (by decide), if_neg (by decide),
    if_pos rfl, hdrop, saslMechanisms_encode hnames hne hfuel]
  rfl

theorem parseAuth_continue (data : Bytes) : parseAuth (i32Bytes 11 ++ data) =
    .ok (some (.authenticationSASLContinue data)) := by
  obtain ⟨hlen, htype, hdrop⟩ := authType_at 11 data
  rw [parseAuth, if_neg hlen, htype, if_neg (by decide), if_neg (by decide), if_neg (by decide),
    if_neg (by decide), if_pos rfl, hdrop]

theorem parseAuth_final (data : Bytes) : parseAuth (i32Bytes 12 ++ data) =
    .ok (some (.authenticationSASLFinal data)) := by
  obtain ⟨hlen, htype, hdrop⟩ := authType_at 12 data
  rw [parseAuth, if_neg hlen, htype, if_neg (by decide), if_neg (by decide), if_neg (by decide),
    if_neg (by decide), if_neg (by decide), if_pos rfl, hdrop]

theorem parseParameterStatus_encode {name value : String} (hname : 0 ∉ asBytes name)
    (hvalue : 0 ∉ asBytes value) : parseParameterStatus (cString name ++ cString value) =
      .ok (some (.parameterStatus name value)) := by
  rw [parseParameterStatus, splitCString_cString hname]
  dsimp only
  rw [splitCString_last hvalue]
  dsimp only
  rw [utf8String_asBytes, utf8String_asBytes]
  rfl

theorem parseBackendKeyData_encode (pid secret : Int32) :
    parseBackendKeyData (i32Bytes pid ++ i32Bytes secret) =
      .ok (some (.backendKeyData pid secret)) := by
  have hpid := i32At_i32Bytes [] pid (i32Bytes secret)
  have hsecret := i32At_i32Bytes (i32Bytes pid) secret []
  rw [List.nil_append, List.length_nil] at hpid
  rw [List.append_nil, length_i32Bytes] at hsecret
  rw [parseBackendKeyData, if_neg (by simp), hpid, hsecret]

theorem parseNotification_encode (pid : Int32) {channel payload : String}
    (hchannel : 0 ∉ asBytes channel) (hpayload : 0 ∉ asBytes payload) :
    parseNotification (i32Bytes pid ++ (cString channel ++ cString payload)) =
      .ok (some (.notificationResponse pid channel payload)) := by
  obtain ⟨hlen, hpid, hdrop⟩ := authType_at pid (cString channel ++ cString payload)
  rw [parseNotification, if_neg hlen, hdrop, splitCString_cString hchannel]
  dsimp only
  rw [splitCString_last hpayload]
  dsimp only
  rw [utf8String_asBytes, utf8String_asBytes, hpid]
  rfl

/-- The parser of the tag gives the message back. -/
theorem parseBody_encodeBody {m : BackendMsg} (h : m.WellFormed) :
    ∃ m', parseBody (byte m.tag) m.encodeBody = .ok (some m') ∧ m.Same m' := by
  obtain ⟨hstrings, hmechanisms, hcount, hsize⟩ := h
  cases m with
  | authenticationOk => exact ⟨_, rfl, .refl _⟩
  | authenticationCleartextPassword => exact ⟨_, rfl, .refl _⟩
  | authenticationMd5Password salt => exact ⟨_, parseAuth_md5 salt, .refl _⟩
  | authenticationSASL mechanisms =>
    exact ⟨_, parseAuth_sasl hstrings (hmechanisms mechanisms rfl), .refl _⟩
  | authenticationSASLContinue data => exact ⟨_, parseAuth_continue data, .refl _⟩
  | authenticationSASLFinal data => exact ⟨_, parseAuth_final data, .refl _⟩
  | parameterStatus name value =>
    refine ⟨_, parseParameterStatus_encode (hstrings name ?_) (hstrings value ?_), .refl _⟩
    · exact List.mem_cons_self
    · exact List.mem_cons_of_mem _ List.mem_cons_self
  | backendKeyData pid secret => exact ⟨_, parseBackendKeyData_encode pid secret, .refl _⟩
  | readyForQuery status => exact ⟨_, rfl, .refl _⟩
  | parseComplete => exact ⟨_, rfl, .refl _⟩
  | bindComplete => exact ⟨_, rfl, .refl _⟩
  | closeComplete => exact ⟨_, rfl, .refl _⟩
  | noData => exact ⟨_, rfl, .refl _⟩
  | commandComplete tag =>
    refine ⟨.commandComplete tag, ?_, .refl _⟩
    have htag : parseCommandComplete (cString tag) = .ok (some (.commandComplete tag)) := by
      rw [parseCommandComplete, splitCString_last (hstrings tag List.mem_cons_self),
        utf8String_asBytes]
      rfl
    exact htag
  | dataRow row =>
    obtain ⟨row', hparse, hcells⟩ := parseDataRow_encode hcount
      (Nat.lt_of_le_of_lt (Nat.le_trans (Nat.le_add_right _ 4) hsize) (by decide))
    exact ⟨_, hparse, hcells.symm⟩
  | rowDescription fields =>
    have hnames : ∀ f ∈ fields, 0 ∉ asBytes f.name := fun f hf =>
      hstrings f.name (List.mem_map_of_mem hf)
    exact ⟨_, parseRowDescription_encode hnames hcount, .refl _⟩
  | errorResponse fields =>
    refine ⟨.errorResponse fields, ?_, .refl _⟩
    exact congrArg (fun e => Except.ok (some (errorResponse e)))
      (parseErrorOrNotice_encode hstrings)
  | noticeResponse fields =>
    refine ⟨.noticeResponse fields, ?_, .refl _⟩
    exact congrArg (fun e => Except.ok (some (noticeResponse e)))
      (parseErrorOrNotice_encode hstrings)
  | emptyQueryResponse => exact ⟨_, rfl, .refl _⟩
  | parameterDescription typeOids => exact ⟨_, parseParameterDescription_encode hcount, .refl _⟩
  | notificationResponse pid channel payload =>
    refine ⟨_, parseNotification_encode pid (hstrings channel ?_) (hstrings payload ?_), .refl _⟩
    · exact List.mem_cons_self
    · exact List.mem_cons_of_mem _ List.mem_cons_self
  | portalSuspended => exact ⟨_, rfl, .refl _⟩
  | copyInResponse format columnFormats =>
    exact ⟨_, parseCopyResponse_encode format hcount true, .refl _⟩
  | copyOutResponse format columnFormats =>
    exact ⟨_, parseCopyResponse_encode format hcount false, .refl _⟩
  | copyData data => exact ⟨_, rfl, .refl _⟩
  | copyDone => exact ⟨_, rfl, .refl _⟩

theorem acceptsLength_ofNat {n : ℕ} (hlow : 4 ≤ n) (hhigh : n ≤ maxMessageSize) :
    acceptsLength (Int32.ofNat n) = true ∧ (Int32.ofNat n).toNatClampNeg = n := by
  have hlt : n < 2 ^ 31 := Nat.lt_of_le_of_lt hhigh (by decide)
  have hnat : (Int32.ofNat n).toNatClampNeg = n := Int32.toNatClampNeg_ofNat_of_lt hlt
  have hle : 4 ≤ Int32.ofNat n :=
    Int32.not_lt.1 (not_ofNat_lt hlt (Int.ofNat_le.2 hlow))
  exact ⟨by simp [acceptsLength, hle, hnat, hhigh], hnat⟩

/-- **The parser inverts the format.**  In front of anything, a message is parsed as itself and what
is behind it is left. -/
theorem parseMessage_backendMsg {m : BackendMsg} (h : m.WellFormed) (suffix : Bytes) :
    ∃ m', parseMessage (m.encode ++ suffix) = (.ok (some m'), suffix) ∧ m.Same m' := by
  obtain ⟨m', hparse, hsame⟩ := parseBody_encodeBody h
  obtain ⟨haccepts, hnat⟩ := acceptsLength_ofNat (Nat.le_add_left 4 m.encodeBody.length) h.size
  have hframed : m.frame.isFramed = true := by
    rw [Frame.isFramed, Bool.or_eq_true, beq_iff_eq]
    exact .inr hnat
  refine ⟨m', ?_, hsame⟩
  rw [encode, parseMessage_frame hframed haccepts suffix]
  exact Prod.ext hparse rfl

/-- An error, in front of an incomplete message. -/
theorem parseMessage_backendMsg_error :
    ∃ m', parseMessage
        ((errorResponse ⟨"ERROR", "42P01", "no such table", some "", none, some "15"⟩).encode ++
          [90, 0]) = (.ok (some m'), [90, 0]) ∧
      (errorResponse ⟨"ERROR", "42P01", "no such table", some "", none, some "15"⟩).Same m' :=
  parseMessage_backendMsg ⟨by decide, (fun _ h => by cases h), by decide, by decide⟩ [90, 0]

end BackendMsg

end Resolute
