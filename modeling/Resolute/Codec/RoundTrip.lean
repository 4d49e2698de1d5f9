import Resolute.Codec.Basic

/-!
# The codecs round-trip

What a codec writes, it reads back: for the base types by their bytes, for the containers because
each part is found again where the encoder put it, and for nested types by induction on the type.
The lengths and counts have 32 bits on the wire, and the values are those for which they are enough
(`Ty.Fits`).

The encoders leave the buffer as it is and write behind it (`Appends`), so a placeholder is patched
with the length of the data (`encodeParam_eq`), and a value can be looked at without the buffer.  A
composite is read back exactly if no field takes the bytes away from those behind it, at any depth
(`Ty.decode_encode_iff`).  With a buffer in front this is `Ty.codec_roundTrips`.
-/

namespace Resolute

/-! ### Values that fit -/

/-- A length or a count fits an `i32`. -/
abbrev FitsI32 (n : ℕ) : Prop := n < 2 ^ 31

/-- The bounds that a range has. -/
def PgRange.bounds {α : Type} : PgRange α → List α
  | .empty => []
  | .range lower upper _ _ => lower.toList ++ upper.toList

mutual

/-- Each length and each count that the encoding holds fits its field. -/
def Ty.Fits : (t : Ty) → t.Val → Prop
  | .scalar _, _ => True
  | .bytea, _ => True
  | .array s, (vs : List s.Val) => FitsI32 vs.length ∧ ∀ v ∈ vs, FitsI32 (s.bytes v).length
  | .range t, (r : PgRange t.Val) => ∀ v ∈ r.bounds, FitsI32 (t.encode v).length ∧ t.Fits v
  | .composite _ _ fields, vs => FitsI32 fields.codecs.length ∧ fields.Fits vs

def Fields.Fits : (fields : Fields) → Record fields.codecs → Prop
  | .nil, _ => True
  | .required _ t fields, ((v : t.Val), vs) =>
    (FitsI32 (t.encode v).length ∧ t.Fits v) ∧ fields.Fits vs
  | .optional _ t fields, ((v : Option t.Val), vs) =>
    (∀ v' ∈ v, FitsI32 (t.encode v').length ∧ t.Fits v') ∧ fields.Fits vs

end

/-! ### Encoders append -/

section Appends

variable {α : Type} {encode : α → Bytes → Bytes}

/-- An encoder leaves the buffer as it is and writes behind it. -/
def Appends (encode : α → Bytes → Bytes) : Prop := ∀ v buf, encode v buf = buf ++ encode v []

/-- A part: the length of the data, and the data. -/
def part (encode : α → Bytes → Bytes) (v : α) : Bytes :=
  i32Bytes (Int32.ofNat (encode v []).length) ++ encode v []

theorem length_part (encode : α → Bytes → Bytes) (v : α) :
    (part encode v).length = 4 + (encode v []).length := by
  rw [part, List.length_append, length_i32Bytes]

/-- The placeholder is patched with the length of the data. -/
theorem encodeParam_eq (h : Appends encode) (v : α) (buf : Bytes) :
    encodeParam encode v buf = buf ++ part encode v := by
  have hdata : encode v (buf ++ [0, 0, 0, 0]) = buf ++ ([0, 0, 0, 0] ++ encode v []) := by
    rw [h, List.append_assoc]
  have hlen : (buf ++ ([0, 0, 0, 0] ++ encode v [])).length - buf.length - 4 =
      (encode v []).length := by
    simp only [List.length_append, List.length_cons, List.length_nil]
    omega
  have hdrop : (buf ++ ([0, 0, 0, 0] ++ encode v [])).drop (buf.length + 4) = encode v [] := by
    rw [List.drop_append, List.drop_eq_nil_of_le (Nat.le_add_right _ _), Nat.add_sub_cancel_left]
    rfl
  simp only [encodeParam, hdata, hlen, hdrop, List.take_left, List.append_assoc, part]

theorem foldl_encodeParam (h : Appends encode) (vs : List α) (buf : Bytes) :
    vs.foldl (fun buf v => encodeParam encode v buf) buf = buf ++ vs.flatMap (part encode) := by
  induction vs generalizing buf with
  | nil => simp
  | cons v vs ih => rw [List.foldl_cons, ih, encodeParam_eq h, List.flatMap_cons, List.append_assoc]

/-- The bytes of a bound. -/
def boundPart (encode : α → Bytes → Bytes) (bound : Option α) : Bytes :=
  bound.elim [] (part encode)

theorem encodeBound_eq (h : Appends encode) (bound : Option α) (buf : Bytes) :
    encodeBound encode bound buf = buf ++ boundPart encode bound := by
  cases bound with
  | none => exact (List.append_nil buf).symm
  | some v => exact encodeParam_eq h v buf

theorem encodeRange_eq (h : Appends encode) (lower upper : Option α) (li ui : Bool) (buf : Bytes) :
    encodeRange encode (.range lower upper li ui) buf = buf ++
      (rangeFlags lower upper li ui :: (boundPart encode lower ++ boundPart encode upper)) := by
  rw [encodeRange, encodeBound_eq h, encodeBound_eq h]
  simp

theorem appends_range (h : Appends encode) : Appends (encodeRange encode) := by
  intro r buf
  cases r with
  | empty => rfl
  | range lower upper li ui => rw [encodeRange_eq h, encodeRange_eq h, List.nil_append]

end Appends

theorem appends_scalar (s : Scalar) : Appends s.encode := by
  intro v buf
  rw [Scalar.encode, Scalar.encode, List.nil_append]

theorem encodeArray_eq (s : Scalar) (vs : List s.Val) (buf : Bytes) :
    (arrayCodec s).encode vs buf =
      encodeArrayHeader buf false s.oid vs.length ++ vs.flatMap (part s.encode) :=
  foldl_encodeParam (appends_scalar s) vs _

theorem appends_array (s : Scalar) : Appends (arrayCodec s).encode := by
  intro vs buf
  refine (encodeArray_eq s vs buf).trans ?_
  refine .trans ?_ (congrArg (buf ++ ·) (encodeArray_eq s vs [])).symm
  simp [encodeArrayHeader]

namespace Field

/-- The bytes of a field. -/
def part : (f : Field) → f.Val → Bytes
  | required oid c _, (v : c.Val) => u32Bytes oid ++ Resolute.part c.encode v
  | optional oid c, (v : Option c.Val) =>
    u32Bytes oid ++ v.elim (i32Bytes (-1)) (Resolute.part c.encode)

theorem encode_eq {f : Field} (h : Appends f.codec.encode) (v : f.Val) (buf : Bytes) :
    f.encode v buf = buf ++ f.part v := by
  cases f with
  | required oid c hides => exact (encodeParam_eq h _ _).trans (List.append_assoc _ _ _)
  | optional oid c =>
    cases v with
    | none => exact List.append_assoc _ _ _
    | some v => exact (encodeParam_eq h _ _).trans (List.append_assoc _ _ _)

end Field

/-- The bytes of the fields of a struct. -/
def fieldParts : (fs : List Field) → Record fs → Bytes
  | [], _ => []
  | f :: fs, (v, vs) => f.part v ++ fieldParts fs vs

theorem encodeFields_eq {fs : List Field} (h : ∀ f ∈ fs, Appends f.codec.encode) (vs : Record fs)
    (buf : Bytes) : encodeFields fs vs buf = buf ++ fieldParts fs vs := by
  induction fs generalizing buf with
  | nil => exact (List.append_nil buf).symm
  | cons f fs ih =>
    obtain ⟨v, vs⟩ := vs
    rw [encodeFields, Field.encode_eq (h f List.mem_cons_self),
      ih (fun g hg => h g (List.mem_cons_of_mem _ hg)), fieldParts, List.append_assoc]

theorem appends_composite {fs : List Field} (h : ∀ f ∈ fs, Appends f.codec.encode)
    (name : String) : Appends (compositeCodec name fs).encode := by
  intro vs buf
  refine (encodeFields_eq h vs _).trans ?_
  refine .trans ?_ (congrArg (buf ++ ·) (encodeFields_eq h vs _)).symm
  rw [List.nil_append, List.append_assoc]

mutual

/-- **An encoder appends**, at every type. -/
theorem Ty.appends : (t : Ty) → Appends t.codec.encode
  | .scalar s => appends_scalar s
  | .bytea => fun _ _ => rfl
  | .array s => appends_array s
  | .range t => appends_range t.appends
  | .composite name _ fields => appends_composite fields.appends name

theorem Fields.appends : (fields : Fields) → ∀ f ∈ fields.codecs, Appends f.codec.encode
  | .nil => fun _ h => by cases h
  | .required _ t fields => List.forall_mem_cons.2 ⟨t.appends, fields.appends⟩
  | .optional _ t fields => List.forall_mem_cons.2 ⟨t.appends, fields.appends⟩

end

/-! ### Reading a part where it was written -/

section Reading

variable {α : Type} {pre rest : Bytes}

theorem toInt_ofNat_of_fits {n : ℕ} (h : FitsI32 n) : (Int32.ofNat n).toInt = n :=
  Int32.toInt_ofNat_of_lt h

theorem asUsize_ofNat {n : ℕ} (h : FitsI32 n) : asUsize (Int32.ofNat n) = n := by
  rw [asUsize, toInt_ofNat_of_fits h]
  omega

theorem ofNat_ne_null {n : ℕ} (h : FitsI32 n) : Int32.ofNat n ≠ -1 := by
  intro hnull
  have hint := toInt_ofNat_of_fits h
  rw [hnull] at hint
  have hneg : (-1 : Int32).toInt = -1 := rfl
  omega

theorem header_ok {buf : Bytes} {offset n : ℕ} (h : offset + n ≤ buf.length)
    (hbuf : buf.length < 2 ^ 64) (e : Decoded ℕ) : header buf offset n e = .ok (offset + n) := by
  rw [header, addUsize, if_pos (Nat.lt_of_le_of_lt h hbuf)]
  exact if_neg (Nat.not_lt.2 h)

theorem readU32_append (n : UInt32) (pre rest : Bytes) :
    readU32 (pre ++ (u32Bytes n ++ rest)) pre.length = .ok n := by
  rw [readU32, u32At_u32Bytes, if_pos]
  simp only [List.length_append, length_u32Bytes]
  omega

theorem readI32_append (n : Int32) (pre rest : Bytes) :
    readI32 (pre ++ (i32Bytes n ++ rest)) pre.length = .ok n := by
  rw [readI32, i32Bytes, readU32_append]
  exact congrArg Except.ok (Int32.toInt32_toUInt32 n)

theorem slice_append (pre data rest : Bytes) :
    slice (pre ++ (data ++ rest)) pre.length (pre.length + data.length) = .ok data := by
  have htake : (pre ++ (data ++ rest)).take (pre.length + data.length) = pre ++ data := by
    rw [← List.append_assoc, ← List.length_append, List.take_left]
  rw [slice, htake, List.drop_left, if_pos]
  simp only [List.length_append]
  omega

theorem readData_append {data : Bytes} (hdata : FitsI32 data.length)
    (hbuf : (pre ++ (data ++ rest)).length < 2 ^ 64) (e : Decoded (Bytes × ℕ)) :
    readData (pre ++ (data ++ rest)) pre.length (Int32.ofNat data.length) e =
      .ok (data, pre.length + data.length) := by
  have hstop : pre.length + data.length ≤ (pre ++ (data ++ rest)).length := by
    simp only [List.length_append]
    omega
  rw [readData, asUsize_ofNat hdata, addUsize, if_pos (Nat.lt_of_le_of_lt hstop hbuf), ok_bind,
    if_neg (Nat.not_lt.2 hstop), slice_append]
  rfl

/-- A part is found at the position where it was written. -/
theorem part_append {encode : α → Bytes → Bytes} {v : α} (hv : FitsI32 (encode v []).length)
    (hbuf : (pre ++ (part encode v ++ rest)).length < 2 ^ 64) :
    (∀ e, header (pre ++ (part encode v ++ rest)) pre.length 4 e = .ok (pre.length + 4)) ∧
    readI32 (pre ++ (part encode v ++ rest)) pre.length =
      .ok (Int32.ofNat (encode v []).length) ∧
    ∀ e, readData (pre ++ (part encode v ++ rest)) (pre.length + 4)
      (Int32.ofNat (encode v []).length) e = .ok (encode v [], (pre ++ part encode v).length) := by
  have hlen : pre.length + 4 ≤ (pre ++ (part encode v ++ rest)).length := by
    simp only [List.length_append, length_part]
    omega
  refine ⟨header_ok hlen hbuf, ?_, fun e => ?_⟩
  · rw [part, List.append_assoc]
    exact readI32_append _ _ _
  · have hsplit : pre ++ (part encode v ++ rest) =
        (pre ++ i32Bytes (Int32.ofNat (encode v []).length)) ++ (encode v [] ++ rest) := by
      simp only [part, List.append_assoc]
    have hpos : pre.length + 4 = (pre ++ i32Bytes (Int32.ofNat (encode v []).length)).length := by
      rw [List.length_append, length_i32Bytes]
    rw [hsplit] at hbuf ⊢
    rw [hpos, readData_append hv hbuf, ← List.length_append, part, List.append_assoc]

end Reading

/-! ### Arrays -/

section Arrays

variable {α : Type} {encode : α → Bytes → Bytes} {decode : Bytes → Decoded α}

theorem decodeElements_parts {vs : List α}
    (h : ∀ v ∈ vs, FitsI32 (encode v []).length ∧ decode (encode v []) = .ok v)
    {pre rest : Bytes} (hbuf : (pre ++ (vs.flatMap (part encode) ++ rest)).length < 2 ^ 64) :
    decodeElements decode (pre ++ (vs.flatMap (part encode) ++ rest)) vs.length pre.length =
      .ok vs := by
  induction vs generalizing pre with
  | nil => rfl
  | cons v vs ih =>
    obtain ⟨hfits, hdecode⟩ := h v List.mem_cons_self
    have hsplit : pre ++ ((v :: vs).flatMap (part encode) ++ rest) =
        pre ++ (part encode v ++ (vs.flatMap (part encode) ++ rest)) := by
      rw [List.flatMap_cons, List.append_assoc]
    rw [hsplit] at hbuf ⊢
    obtain ⟨hheader, hlen, hdata⟩ := part_append hfits hbuf
    have hnext : (pre ++ part encode v ++ (vs.flatMap (part encode) ++ rest)).length < 2 ^ 64 := by
      rwa [List.append_assoc]
    have hih := ih (fun w hw => h w (List.mem_cons_of_mem _ hw)) hnext
    rw [List.append_assoc] at hih
    rw [List.length_cons, decodeElements, hheader, ok_bind, hlen, ok_bind,
      if_neg (ofNat_ne_null hfits), hdata, ok_bind]
    dsimp only
    rw [hdecode, ok_bind, hih, ok_bind]

theorem length_parts_le {vs : List α} (h : ∀ v ∈ vs, FitsI32 (encode v []).length) :
    (vs.flatMap (part encode)).length ≤ vs.length * (4 + 2 ^ 31) := by
  induction vs with
  | nil => simp
  | cons v vs ih =>
    have hv := h v List.mem_cons_self
    have hvs := ih fun w hw => h w (List.mem_cons_of_mem _ hw)
    rw [List.flatMap_cons, List.length_append, length_part, List.length_cons, Nat.succ_mul]
    omega

end Arrays

/-- The header of an array is read back. -/
theorem parseArrayHeader_encode {oid : Oid} {len : ℕ} (hlen : FitsI32 len) (rest : Bytes) :
    parseArrayHeader (encodeArrayHeader [] false oid len ++ rest) = .ok (oid, len, 20) := by
  have hlong : 20 ≤ (encodeArrayHeader [] false oid len ++ rest).length := by
    rw [List.length_append]
    exact Nat.le_add_right _ _
  have hndim : readI32 (encodeArrayHeader [] false oid len ++ rest) 0 = .ok 1 :=
    readI32_append 1 [] _
  have hoid : readU32 (encodeArrayHeader [] false oid len ++ rest) 8 = .ok oid := by
    have h := readU32_append oid (i32Bytes 1 ++ i32Bytes 0)
      (i32Bytes (Int32.ofNat len) ++ (i32Bytes 1 ++ rest))
    simpa [encodeArrayHeader] using h
  have hdim : readI32 (encodeArrayHeader [] false oid len ++ rest) 12 = .ok (Int32.ofNat len) := by
    have h := readI32_append (Int32.ofNat len) (i32Bytes 1 ++ i32Bytes 0 ++ u32Bytes oid)
      (i32Bytes 1 ++ rest)
    simpa [encodeArrayHeader] using h
  rw [parseArrayHeader, if_neg (by omega), hndim, ok_bind, hoid, ok_bind, if_neg (by decide),
    if_neg (by decide), if_neg (by omega), hdim, ok_bind, asUsize_ofNat hlen]

/-! ### Base types -/

theorem u32At_zero (n : UInt32) (rest : Bytes) : u32At (u32Bytes n ++ rest) 0 = n :=
  u32At_u32Bytes [] n rest

theorem u64At_u64Bytes (n : UInt64) : u64At (u64Bytes n) 0 = n := by
  have hlow : u32At (u64Bytes n) 4 = UInt32.ofNat (n.toNat % 4294967296) := by
    have h := u32At_u32Bytes (u32Bytes (.ofNat (n.toNat / 4294967296)))
      (.ofNat (n.toNat % 4294967296)) []
    rwa [List.append_nil] at h
  have hn : n.toNat < 18446744073709551616 := n.toNat_lt
  have hdigits : n.toNat / 4294967296 % 4294967296 * 4294967296 +
      n.toNat % 4294967296 % 4294967296 = n.toNat := by omega
  rw [u64At, hlow, u64Bytes, u32At_zero, UInt32.toNat_ofNat', UInt32.toNat_ofNat']
  exact (congrArg UInt64.ofNat hdigits).trans UInt64.ofNat_toNat

namespace Scalar

/-- A base type round-trips. -/
theorem decode_bytes (s : Scalar) (v : s.Val) : s.decode (s.bytes v) = .ok v := by
  cases s with
  | bool =>
    have h : ∀ b : Bool, decode bool (bytes bool b) = .ok b := by
      intro b
      cases b <;> rfl
    exact h v
  | i16 => exact congrArg Except.ok (i16At_i16Bytes [] v [])
  | i32 => exact congrArg Except.ok (i32At_i32Bytes [] v [])
  | i64 =>
    exact congrArg Except.ok ((congrArg UInt64.toInt64 (u64At_u64Bytes _)).trans
      (Int64.toInt64_toUInt64 v))
  | f32 => exact congrArg Except.ok (u32At_zero v [])
  | f64 => exact congrArg Except.ok (u64At_u64Bytes v)
  | string =>
    have h : fromUtf8 (bytes string v) = some v := fromUtf8_asBytes v
    rw [decode, h]
  | uuid =>
    have h : (bytes uuid v).length = 16 := Vector.length_toList
    rw [decode, dif_pos h]
    exact congrArg Except.ok (Vector.toArray_inj.1 (Array.toArray_toList))

end Scalar

/-! ### Arrays, ranges and composites -/

theorem decodeArray_encode {s : Scalar} {vs : List s.Val} (hcount : FitsI32 vs.length)
    (h : ∀ v ∈ vs, FitsI32 (s.bytes v).length) :
    decodeArrayElements s.size s.decode ((arrayCodec s).encode vs []) = .ok vs := by
  have hcapacity : vs.length * s.size ≤ isizeMax := by
    have hsize : s.size ≤ 24 := by cases s <;> decide
    have hle := Nat.mul_le_mul (Nat.le_of_lt hcount) hsize
    exact Nat.le_trans hle (by decide)
  have hlength : (vs.flatMap (part s.encode)).length ≤ vs.length * (4 + 2 ^ 31) :=
    length_parts_le h
  have hheader : (encodeArrayHeader [] false s.oid vs.length).length = 20 := rfl
  have hbuf : (encodeArrayHeader [] false s.oid vs.length ++
      (vs.flatMap (part s.encode) ++ [])).length < 2 ^ 64 := by
    rw [List.append_nil, List.length_append, hheader]
    omega
  have hdecode : decodeElements s.decode _ vs.length _ = .ok vs :=
    decodeElements_parts (fun v hv => ⟨h v hv, s.decode_bytes v⟩) hbuf
  rw [List.append_nil, hheader] at hdecode
  rw [encodeArray_eq, decodeArrayElements, parseArrayHeader_encode hcount, ok_bind]
  dsimp only
  rw [withCapacity, if_pos hcapacity, ok_bind, hdecode]

section Ranges

variable {α : Type} {encode : α → Bytes → Bytes} {decode : Bytes → Decoded α}

/-- The flags say what they were made from. -/
theorem rangeFlags_spec (lower upper : Option α) (li ui : Bool) :
    let flags := rangeFlags lower upper li ui
    (flags &&& rangeEmpty != 0) = false ∧ (flags &&& rangeLbInf != 0) = lower.isNone ∧
      (flags &&& rangeUbInf != 0) = upper.isNone ∧ (flags &&& rangeLbInc != 0) = li ∧
      (flags &&& rangeUbInc != 0) = ui := by
  simp only [rangeFlags]
  generalize lower.isNone = lowerInfinite
  generalize upper.isNone = upperInfinite
  revert li ui lowerInfinite upperInfinite
  decide

/-- What is read back of something that may be missing. -/
def reread (encode : α → Bytes → Bytes) (decode : Bytes → Decoded α) :
    Option α → Decoded (Option α)
  | none => .ok none
  | some v => some <$> decode (encode v [])

theorem reread_eq_ok_iff {x : Option α} :
    reread encode decode x = .ok x ↔ ∀ v ∈ x, decode (encode v []) = .ok v := by
  cases x with
  | none => exact iff_of_true rfl nofun
  | some v =>
    simp only [reread, Option.mem_def, Option.some.injEq, forall_eq']
    cases decode (encode v []) <;> simp

theorem decodeBound_part {bound : Option α} (side : String)
    (h : ∀ v ∈ bound, FitsI32 (encode v []).length)
    {pre rest : Bytes} (hbuf : (pre ++ (boundPart encode bound ++ rest)).length < 2 ^ 64) :
    decodeBound decode side bound.isNone (pre ++ (boundPart encode bound ++ rest)) pre.length =
      (fun x => (x, (pre ++ boundPart encode bound).length)) <$> reread encode decode bound := by
  cases bound with
  | none =>
    rw [boundPart, Option.elim_none, List.append_nil]
    rfl
  | some v =>
    obtain ⟨hheader, hlen, hdata⟩ := part_append (h v rfl) hbuf
    rw [boundPart, Option.elim_some] at hbuf ⊢
    simp only [decodeBound, Option.isNone_some, Bool.false_eq_true, if_false]
    rw [hheader, ok_bind, hlen, ok_bind, hdata, ok_bind, reread]
    cases decode (encode v []) <;> rfl

/-- A range is read back exactly if its bounds are. -/
theorem decodeRange_encode_iff (happends : Appends encode) {r : PgRange α}
    (h : ∀ v ∈ r.bounds, FitsI32 (encode v []).length) :
    decodeRange decode (encodeRange encode r []) = .ok r ↔
      ∀ v ∈ r.bounds, decode (encode v []) = .ok v := by
  cases r with
  | empty => exact iff_of_true rfl nofun
  | range lower upper li ui =>
    have hlower : ∀ v ∈ lower, FitsI32 (encode v []).length :=
      fun v hv => h v (List.mem_append_left _ (Option.mem_toList.2 hv))
    have hupper : ∀ v ∈ upper, FitsI32 (encode v []).length :=
      fun v hv => h v (List.mem_append_right _ (Option.mem_toList.2 hv))
    have hlength : ∀ {bound : Option α}, (∀ v ∈ bound, FitsI32 (encode v []).length) →
        (boundPart encode bound).length ≤ 4 + 2 ^ 31 := by
      rintro (_ | v) hbound
      · exact Nat.zero_le _
      · rw [boundPart, Option.elim_some, length_part]
        exact Nat.add_le_add_left (Nat.le_of_lt (hbound v rfl)) 4
    have hbuf : ([rangeFlags lower upper li ui] ++
        (boundPart encode lower ++ boundPart encode upper)).length < 2 ^ 64 := by
      have hl := hlength hlower
      have hu := hlength hupper
      simp only [List.length_append, List.length_singleton]
      omega
    obtain ⟨hempty, hlowerInf, hupperInf, hli, hui⟩ := rangeFlags_spec lower upper li ui
    have hfirst : decodeBound decode "lower" lower.isNone ([rangeFlags lower upper li ui] ++
        (boundPart encode lower ++ boundPart encode upper))
        [rangeFlags lower upper li ui].length = _ <$> _ := decodeBound_part "lower" hlower hbuf
    have hsecond : decodeBound decode "upper" upper.isNone ([rangeFlags lower upper li ui] ++
        boundPart encode lower ++ (boundPart encode upper ++ []))
        ([rangeFlags lower upper li ui] ++ boundPart encode lower).length = _ <$> _ :=
      decodeBound_part "upper" hupper (by rwa [List.append_nil, List.append_assoc])
    rw [List.append_nil, List.append_assoc] at hsecond
    have hread : decodeRange decode (encodeRange encode (.range lower upper li ui) []) =
        reread encode decode lower >>= fun lower => reread encode decode upper >>= fun upper =>
          .ok (.range lower upper li ui) := by
      rw [encodeRange_eq happends, List.nil_append]
      simp only [decodeRange, hempty, Bool.false_eq_true, if_false, hlowerInf, hupperInf, hli, hui]
      simp only [List.singleton_append, List.length_singleton] at hfirst hsecond
      rw [hfirst]
      cases reread encode decode lower with
      | error e => rfl
      | ok lower' =>
        simp only [Except.map_ok, ok_bind]
        rw [hsecond]
        cases reread encode decode upper <;> rfl
    have hbounds : (∀ v ∈ (PgRange.range lower upper li ui).bounds,
        decode (encode v []) = .ok v) ↔
          reread encode decode lower = .ok lower ∧ reread encode decode upper = .ok upper := by
      simp only [PgRange.bounds, List.forall_mem_append, Option.mem_toList, reread_eq_ok_iff]
      rfl
    rw [hread, hbounds]
    cases reread encode decode lower with
    | error e => exact iff_of_false nofun nofun
    | ok lower' =>
      rw [ok_bind]
      cases reread encode decode upper with
      | error e => exact iff_of_false nofun nofun
      | ok upper' => simp [ok_bind]

end Ranges

namespace Field

/-- The values of a field that are written. -/
def data : (f : Field) → f.Val → List f.codec.Val
  | required _ _ _, v => [v]
  | optional _ _, v => Option.toList v

/-- What a field writes fits. -/
def Fits (f : Field) (v : f.Val) : Prop := ∀ w ∈ f.data v, FitsI32 (f.codec.encode w []).length

/-- The length in front of a field. -/
def len : (f : Field) → f.Val → Int32
  | required _ c _, (v : c.Val) => Int32.ofNat (c.encode v []).length
  | optional _ c, (v : Option c.Val) => v.elim (-1) fun v => Int32.ofNat (c.encode v []).length

/-- What the data of a field is read back as. -/
def reread : (f : Field) → f.Val → Decoded f.Val
  | required _ c _, v => c.decode (c.encode v [])
  | optional _ c, v => Resolute.reread c.encode c.decode v

theorem reread_eq_ok_iff {f : Field} {v : f.Val} :
    f.reread v = .ok v ↔ ∀ w ∈ f.data v, f.codec.decode (f.codec.encode w []) = .ok w := by
  cases f with
  | required oid c hides =>
    refine ⟨fun h w hw => ?_, fun h => h v List.mem_cons_self⟩
    obtain rfl := List.mem_singleton.1 hw
    exact h
  | optional oid c =>
    exact (Resolute.reread_eq_ok_iff (x := v)).trans
      ⟨fun h w hw => h w (Option.mem_toList.1 hw), fun h w hw => h w (Option.mem_toList.2 hw)⟩

theorem length_part_le {f : Field} {v : f.Val} (h : f.Fits v) :
    (f.part v).length ≤ 8 + 2 ^ 31 := by
  have hdata : ∀ {c : Codec} {w : c.Val} (oid : Oid), FitsI32 (c.encode w []).length →
      (u32Bytes oid ++ Resolute.part c.encode w).length ≤ 8 + 2 ^ 31 := by
    intro c w oid hw
    rw [List.length_append, length_u32Bytes, length_part]
    omega
  cases f with
  | required oid c hides => exact hdata oid (h v List.mem_cons_self)
  | optional oid c =>
    cases v with
    | none => exact Nat.le_add_right 8 _
    | some w => exact hdata oid (h w List.mem_cons_self)

theorem length_le_part (oid : Oid) (v : Bytes) :
    v.length ≤ (part (.required oid byteaCodec .buf) v).length := by
  have hpart : (part (.required oid byteaCodec .buf) v).length =
      (u32Bytes oid ++ (i32Bytes (Int32.ofNat v.length) ++ v)).length := rfl
  simp only [hpart, List.length_append]
  omega

/-- The header of a field is read, and then its length. -/
theorem decode_header (f : Field) (name : String) (idx : ℕ) (oid : Oid) (n : Int32)
    {pre rest : Bytes} (hbuf : (pre ++ (u32Bytes oid ++ (i32Bytes n ++ rest))).length < 2 ^ 64) :
    f.decode name idx (pre ++ (u32Bytes oid ++ (i32Bytes n ++ rest))) pre.length =
      (fun (v, next) => (v, next, n)) <$>
        f.content name idx (pre ++ (u32Bytes oid ++ (i32Bytes n ++ rest))) (pre.length + 8) n := by
  have hlen : pre.length + 8 ≤ (pre ++ (u32Bytes oid ++ (i32Bytes n ++ rest))).length := by
    simp only [List.length_append, length_u32Bytes, length_i32Bytes]
    omega
  have hread := readI32_append n (pre ++ u32Bytes oid) rest
  rw [List.length_append, length_u32Bytes, List.append_assoc] at hread
  rw [decode, header_ok hlen hbuf, ok_bind, readU32_append, ok_bind, addUsize,
    if_pos (by omega), ok_bind, hread, ok_bind]
  cases f.content name idx _ _ n <;> rfl

theorem decode_data (f : Field) {data : Bytes} (hdata : FitsI32 data.length) (name : String)
    (idx : ℕ) (oid : Oid) {pre rest : Bytes} (hbuf : (pre ++ (u32Bytes oid ++
      (i32Bytes (Int32.ofNat data.length) ++ (data ++ rest)))).length < 2 ^ 64) :
    f.decode name idx
      (pre ++ (u32Bytes oid ++ (i32Bytes (Int32.ofNat data.length) ++ (data ++ rest)))) pre.length =
      (fun v => (v, pre.length + 8 + data.length, Int32.ofNat data.length)) <$> f.value data := by
  have hsplit : pre ++ (u32Bytes oid ++ (i32Bytes (Int32.ofNat data.length) ++ (data ++ rest))) =
      pre ++ u32Bytes oid ++ i32Bytes (Int32.ofNat data.length) ++ (data ++ rest) := by
    simp only [List.append_assoc]
  have hpos : (pre ++ u32Bytes oid ++ i32Bytes (Int32.ofNat data.length)).length =
      pre.length + 8 := by
    simp only [List.length_append, length_u32Bytes, length_i32Bytes]
  rw [decode_header f name idx oid _ hbuf, content, if_neg (ofNat_ne_null hdata)]
  rw [hsplit] at hbuf ⊢
  rw [← hpos, readData_append hdata hbuf, ok_bind]
  dsimp only
  cases f.value data <;> rfl

/-- A field is read where it was written, whatever its data is read back as. -/
theorem decode_part {f : Field} {v : f.Val} (h : f.Fits v) (name : String) (idx : ℕ)
    {pre rest : Bytes} (hbuf : (pre ++ (f.part v ++ rest)).length < 2 ^ 64) :
    f.decode name idx (pre ++ (f.part v ++ rest)) pre.length =
      (fun w => (w, (pre ++ f.part v).length, f.len v)) <$> f.reread v := by
  have hlength : ∀ (oid : Oid) (n : Int32) (data : Bytes), pre.length + 8 + data.length =
      (pre ++ (u32Bytes oid ++ (i32Bytes n ++ data))).length := by
    intro oid n data
    simp only [List.length_append, length_u32Bytes, length_i32Bytes]
    omega
  cases f with
  | required oid c hides =>
    have hfits : FitsI32 (c.encode v []).length := h v List.mem_cons_self
    simp only [part, Resolute.part, List.append_assoc] at hbuf ⊢
    rw [decode_data _ hfits name idx oid hbuf, hlength oid (Int32.ofNat (c.encode v []).length)]
    rfl
  | optional oid c =>
    cases v with
    | none =>
      simp only [part, Option.elim_none, List.append_assoc] at hbuf ⊢
      have hnull := hlength oid (-1) []
      rw [List.append_nil] at hnull
      rw [decode_header _ name idx oid _ hbuf, content, if_pos rfl, ← hnull]
      rfl
    | some w =>
      have hfits : FitsI32 (c.encode w []).length := h w List.mem_cons_self
      simp only [part, Option.elim_some, Resolute.part, List.append_assoc] at hbuf ⊢
      rw [decode_data _ hfits name idx oid hbuf, hlength oid (Int32.ofNat (c.encode w []).length)]
      rfl

end Field

/-! ### Names of fields -/

/-- `__field_len` behind the last field. -/
def lastLen : (fs : List Field) → Record fs → Int32 → Int32
  | [], _, len => len
  | f :: fs, (v, vs), _ => lastLen fs vs (f.shownLen v (f.len v))

/-- What the field hides is not needed behind it: there is no other field behind a `Vec<u8>` that
is named `buf`, and `__field_len` has the value of the `i32` of that name in the end. -/
def Field.Hygienic : (f : Field) → f.Val → (fs : List Field) → Record fs → Prop
  | .required _ _ .buf, _, fs, _ => fs = []
  | .required _ _ .fieldLen, (v : Int32), fs, vs => lastLen fs vs v = v
  | .required _ _ .nothing, _, _, _ | .optional _ _, _, _, _ => True

mutual

/-- The names of the fields do no harm, in any struct that the value consists of. -/
def Ty.Hygienic : (t : Ty) → t.Val → Prop
  | .scalar _, _ => True
  | .bytea, _ => True
  | .array _, _ => True
  | .range t, (r : PgRange t.Val) => ∀ v ∈ r.bounds, t.Hygienic v
  | .composite _ _ fields, vs => fields.Hygienic vs

def Fields.Hygienic : (fields : Fields) → Record fields.codecs → Prop
  | .nil, _ => True
  | .required ident t fields, ((v : t.Val), vs) =>
    t.Hygienic v ∧
      (Field.required t.oid t.codec (t.impl.2 ident)).Hygienic v fields.codecs vs ∧
      fields.Hygienic vs
  | .optional _ t fields, ((v : Option t.Val), vs) =>
    (∀ w ∈ v, t.Hygienic w) ∧ fields.Hygienic vs

end

namespace Record

/-- What each field of a record writes fits. -/
def Fits : (fs : List Field) → Record fs → Prop
  | [], _ => True
  | f :: fs, (v, vs) => f.Fits v ∧ Fits fs vs

/-- The data of each field is read back, and the names of the fields do no harm. -/
def Survives : (fs : List Field) → Record fs → Prop
  | [], _ => True
  | f :: fs, (v, vs) => f.reread v = .ok v ∧ f.Hygienic v fs vs ∧ Survives fs vs

end Record

theorem length_fieldParts_le {fs : List Field} {vs : Record fs} (h : Record.Fits fs vs) :
    (fieldParts fs vs).length ≤ fs.length * (8 + 2 ^ 31) := by
  induction fs with
  | nil => exact Nat.zero_le _
  | cons f fs ih =>
    obtain ⟨v, vs⟩ := vs
    have hv := Field.length_part_le h.1
    have hvs := ih h.2
    rw [fieldParts, List.length_append, List.length_cons, Nat.succ_mul]
    omega

/-- No field is found in bytes that end before its header. -/
theorem decodeFields_past {f : Field} {fs : List Field} {buf : Bytes} {offset : ℕ}
    (h : buf.length < offset + 8) (name : String) (idx : ℕ) (len : Int32)
    (r : Record (f :: fs) × Int32) : decodeFields name (f :: fs) idx buf offset len ≠ .ok r := by
  have hheader : ∀ n,
      header buf offset 8 (.err idx s!"{name}: truncated field header") ≠ .ok n := by
    intro n hn
    rw [header, addUsize] at hn
    split_ifs at hn with hsum
    · rw [ok_bind, if_pos h] at hn
      cases hn
    · cases hn
  intro hr
  rw [decodeFields, Field.decode] at hr
  cases hn : header buf offset 8 (.err idx s!"{name}: truncated field header") with
  | ok n => exact hheader n hn
  | error e =>
    rw [hn] at hr
    cases hr

/-- What is decoded from the fields of a record, if anything is: in the end `__field_len` is as the
names of the fields have it, and if all values are those of the record, they survive. -/
theorem survives_of_decodeFields {fs : List Field} {vs vs' : Record fs} (h : Record.Fits fs vs)
    {name : String} {idx : ℕ} {pre : Bytes} (hbuf : (pre ++ fieldParts fs vs).length < 2 ^ 64)
    {len last : Int32}
    (hdecode : decodeFields name fs idx (pre ++ fieldParts fs vs) pre.length len =
      .ok (vs', last)) :
    last = lastLen fs vs len ∧ (vs' = vs → Record.Survives fs vs) := by
  induction fs generalizing idx pre len last with
  | nil =>
    cases hdecode
    exact ⟨rfl, fun _ => trivial⟩
  | cons f fs ih =>
    obtain ⟨v, vs⟩ := vs
    have hnext : (pre ++ f.part v ++ fieldParts fs vs).length < 2 ^ 64 := by
      rwa [List.append_assoc]
    rw [fieldParts, decodeFields, Field.decode_part h.1 name idx hbuf] at hdecode
    cases hreread : f.reread v with
    | error e =>
      rw [hreread] at hdecode
      cases hdecode
    | ok w =>
      simp only [hreread, Except.map_ok, ok_bind] at hdecode
      cases hrest : decodeFields name fs (idx + 1)
          (f.shownBuf w (pre ++ (f.part v ++ fieldParts fs vs))) (pre ++ f.part v).length
          (f.shownLen w (f.len v)) with
      | error e =>
        rw [hrest] at hdecode
        cases hdecode
      | ok r =>
        obtain ⟨ws, last'⟩ := r
        rw [hrest] at hdecode
        have hih : ∀ {n : Int32}, decodeFields name fs (idx + 1)
            (pre ++ (f.part v ++ fieldParts fs vs)) (pre ++ f.part v).length n = .ok (ws, last') →
            last' = lastLen fs vs n ∧ (ws = vs → Record.Survives fs vs) := fun hr =>
          ih h.2 hnext (by rwa [List.append_assoc])
        rcases f with ⟨oid, c, _ | _ | _⟩ | ⟨oid, c⟩ <;> cases hdecode
        · -- a field that hides nothing
          obtain ⟨hlast, hsurvives⟩ := hih hrest
          exact ⟨hlast, fun heq => by cases heq; exact ⟨hreread, trivial, hsurvives rfl⟩⟩
        · -- behind a `Vec<u8>` named `buf` there is nothing to read
          cases hreread
          cases fs with
          | nil =>
            cases hrest
            exact ⟨rfl, fun _ => ⟨rfl, rfl, trivial⟩⟩
          | cons g fs =>
            have hlen : List.length (v : Bytes) ≤ _ := Field.length_le_part oid v
            refine absurd hrest (decodeFields_past (Nat.lt_of_le_of_lt hlen ?_) name (idx + 1) _ _)
            rw [List.length_append]
            omega
        · -- an `i32` named `__field_len` is the length of the last field in the end
          have hw : w = v := Except.ok.inj (hreread.symm.trans (Scalar.i32.decode_bytes v))
          subst hw
          obtain ⟨hlast, hsurvives⟩ := hih hrest
          refine ⟨hlast, fun heq => ?_⟩
          obtain ⟨hlen, hws⟩ := Prod.mk.inj heq
          exact ⟨hreread, hlast.symm.trans hlen, hsurvives hws⟩
        · obtain ⟨hlast, hsurvives⟩ := hih hrest
          exact ⟨hlast, fun heq => by cases heq; exact ⟨hreread, trivial, hsurvives rfl⟩⟩

/-- In `Self { .. }` a hygienic field has its value. -/
theorem Field.shown_of_hygienic {f : Field} {v : f.Val} {fs : List Field} {vs : Record fs}
    (h : f.Hygienic v fs vs) : f.shown v (lastLen fs vs (f.shownLen v (f.len v))) = v := by
  rcases f with ⟨oid, c, _ | _ | _⟩ | ⟨oid, c⟩
  · rfl
  · rfl
  · exact h
  · rfl

theorem decodeFields_of_survives {fs : List Field} {vs : Record fs} (h : Record.Fits fs vs)
    (hs : Record.Survives fs vs) (name : String) (idx : ℕ) {pre : Bytes}
    (hbuf : (pre ++ fieldParts fs vs).length < 2 ^ 64) (len : Int32) :
    decodeFields name fs idx (pre ++ fieldParts fs vs) pre.length len =
      .ok (vs, lastLen fs vs len) := by
  induction fs generalizing idx pre len with
  | nil => rfl
  | cons f fs ih =>
    obtain ⟨v, vs⟩ := vs
    obtain ⟨hreread, hhygienic, hs⟩ := hs
    have hnext : (pre ++ f.part v ++ fieldParts fs vs).length < 2 ^ 64 := by
      rwa [List.append_assoc]
    have hrest : decodeFields name fs (idx + 1)
        (f.shownBuf v (pre ++ (f.part v ++ fieldParts fs vs))) (pre ++ f.part v).length
        (f.shownLen v (f.len v)) = .ok (vs, lastLen fs vs (f.shownLen v (f.len v))) := by
      have hih := ih h.2 hs (idx + 1) hnext (f.shownLen v (f.len v))
      rw [List.append_assoc] at hih
      rcases f with ⟨oid, c, _ | _ | _⟩ | ⟨oid, c⟩
      · exact hih
      · obtain rfl : fs = [] := hhygienic
        rfl
      · exact hih
      · exact hih
    rw [fieldParts, decodeFields, Field.decode_part h.1 name idx hbuf, hreread]
    simp only [Except.map_ok, ok_bind]
    rw [hrest, ok_bind]
    dsimp only
    rw [Field.shown_of_hygienic hhygienic]
    rfl

theorem decodeComposite_encode_iff {fs : List Field} (happends : ∀ f ∈ fs, Appends f.codec.encode)
    (hcount : FitsI32 fs.length) {vs : Record fs} (h : Record.Fits fs vs) (name : String) :
    decodeComposite name fs ((compositeCodec name fs).encode vs []) = .ok vs ↔
      Record.Survives fs vs := by
  have hlength := length_fieldParts_le h
  have hbuf : (i32Bytes (Int32.ofNat fs.length) ++ fieldParts fs vs).length < 2 ^ 64 := by
    rw [List.length_append, length_i32Bytes]
    omega
  have hencode : (compositeCodec name fs).encode vs [] =
      i32Bytes (Int32.ofNat fs.length) ++ fieldParts fs vs := encodeFields_eq happends vs _
  have hshort : ¬(i32Bytes (Int32.ofNat fs.length) ++ fieldParts fs vs).length < 4 := by
    rw [List.length_append, length_i32Bytes]
    omega
  have hcountRead : readI32 (i32Bytes (Int32.ofNat fs.length) ++ fieldParts fs vs) 0 =
      .ok (Int32.ofNat fs.length) := readI32_append _ [] _
  rw [hencode, decodeComposite, if_neg hshort, hcountRead, ok_bind]
  constructor
  · intro hdecode
    cases hfields : decodeFields name fs 0
        (i32Bytes (Int32.ofNat fs.length) ++ fieldParts fs vs) 4 0 with
    | error e =>
      rw [hfields] at hdecode
      cases hdecode
    | ok r =>
      obtain ⟨vs', last⟩ := r
      rw [hfields] at hdecode
      cases hdecode
      exact (survives_of_decodeFields h hbuf hfields).2 rfl
  · intro hs
    have hfields := decodeFields_of_survives h hs name 0 hbuf 0
    rw [length_i32Bytes] at hfields
    rw [hfields, ok_bind]

theorem Fields.recordFits : (fields : Fields) → {vs : Record fields.codecs} → fields.Fits vs →
    Record.Fits fields.codecs vs
  | .nil, _, _ => trivial
  | .required _ t fields, (v, vs), h => by
    refine ⟨fun w hw => ?_, fields.recordFits h.2⟩
    obtain rfl := List.mem_singleton.1 hw
    exact h.1.1
  | .optional _ t fields, (v, vs), h =>
    ⟨fun w hw => (h.1 w (Option.mem_toList.1 hw)).1, fields.recordFits h.2⟩

mutual

/-- The decoder of a type inverts its encoder exactly on the hygienic values. -/
theorem Ty.decode_encode_iff : (t : Ty) → {v : t.Val} → t.Fits v →
    (t.decode (t.encode v) = .ok v ↔ t.Hygienic v)
  | .scalar s, _, _ => iff_of_true (s.decode_bytes _) trivial
  | .bytea, _, _ => iff_of_true rfl trivial
  | .array _, _, h => iff_of_true (decodeArray_encode h.1 h.2) trivial
  | .range t, _, h =>
    (decodeRange_encode_iff t.appends fun v hv => (h v hv).1).trans
      (forall₂_congr fun v hv => t.decode_encode_iff (h v hv).2)
  | .composite name _ fields, _, h =>
    (decodeComposite_encode_iff fields.appends h.1 (fields.recordFits h.2) name).trans
      (fields.survives_iff h.2)

theorem Fields.survives_iff : (fields : Fields) → {vs : Record fields.codecs} → fields.Fits vs →
    (Record.Survives fields.codecs vs ↔ fields.Hygienic vs)
  | .nil, _, _ => Iff.rfl
  | .required _ t fields, (v, vs), h =>
    and_congr (t.decode_encode_iff h.1.2) (and_congr_right' (fields.survives_iff h.2))
  | .optional _ t fields, (v, vs), h => by
    have hreread : ∀ v : Option t.Val, (∀ w ∈ v, FitsI32 (t.encode w).length ∧ t.Fits w) →
        (reread t.codec.encode t.codec.decode v = .ok v ↔ ∀ w ∈ v, t.Hygienic w) := fun v h =>
      reread_eq_ok_iff.trans (forall₂_congr fun w hw => t.decode_encode_iff (h w hw).2)
    exact and_congr (hreread v h.1) ((and_iff_right trivial).trans (fields.survives_iff h.2))

end

/-- **When the codecs round-trip**, at every type: behind whatever is in the buffer, an encoder
writes what the decoder takes for the value, exactly if the names of the fields do no harm. -/
theorem Ty.codec_roundTrips (t : Ty) {v : t.Val} (h : t.Fits v) (buf : Bytes) :
    t.codec.encode v buf = buf ++ t.encode v ∧ (t.decode (t.encode v) = .ok v ↔ t.Hygienic v) :=
  ⟨t.appends v buf, t.decode_encode_iff h⟩

/-- An address without a second line, open from `1` on. -/
theorem Ty.codec_roundTrips_address :
    let t : Ty := .composite "Address" 0 (.required "street" (.scalar .string)
      (.optional "notes" (.scalar .string) (.required "open" (.range (.scalar .i32))
        (.required "days" (.array .bool) .nil))))
    let v : t.Val :=
      (("Hill", none, PgRange.range (some 1) none true false, [true, false], ()) :
        String × Option String × PgRange Int32 × List Bool × Unit)
    t.codec.encode v [0] = [0] ++ t.encode v ∧ t.decode (t.encode v) = .ok v := by
  intro t v
  have hbound : ∀ w ∈ PgRange.bounds (.range (some (1 : Int32)) none true false),
      FitsI32 ((Ty.scalar .i32).encode w).length ∧ (Ty.scalar .i32).Fits w := by
    intro w hw
    obtain rfl := List.mem_singleton.1 hw
    exact ⟨by decide, trivial⟩
  have hflag : ∀ b ∈ [true, false], FitsI32 (Scalar.bool.bytes b).length :=
    fun _ _ => Nat.one_lt_two_pow (by decide)
  have h := Ty.codec_roundTrips t (v := v) ⟨by decide, ⟨by decide, trivial⟩,
    (fun _ h => by cases h), ⟨by decide, hbound⟩, ⟨by decide, by decide, hflag⟩, trivial⟩ [0]
  exact ⟨h.1,
    h.2.2 ⟨trivial, trivial, nofun, fun _ _ => trivial, trivial, trivial, trivial, trivial⟩⟩

/-- `Blob { buf: Vec<u8>, n: i32 }` -/
def Ty.blob : Ty := .composite "Blob" 0 (.required "buf" .bytea (.required "n" (.scalar .i32) .nil))

/-- `Part { __field_len: i32, n: i32 }` -/
def Ty.part : Ty :=
  .composite "Part" 0 (.required "__field_len" (.scalar .i32) (.required "n" (.scalar .i32) .nil))

/-- The bytes of a `Blob` are hidden by its first field, and the first field of a `Part` is the
length of its second one. -/
theorem Ty.not_roundTrips :
    Ty.blob.Fits (([1, 2], 7, ()) : Bytes × Int32 × Unit) ∧
      Ty.blob.decode (Ty.blob.encode (([1, 2], 7, ()) : Bytes × Int32 × Unit)) =
        .err 1 "Blob: truncated field header" ∧
    Ty.part.Fits ((1, 7, ()) : Int32 × Int32 × Unit) ∧
      Ty.part.decode (Ty.part.encode ((1, 7, ()) : Int32 × Int32 × Unit)) =
        .ok ((4, 7, ()) : Int32 × Int32 × Unit) :=
  ⟨⟨by decide, ⟨by decide, trivial⟩, ⟨by decide, trivial⟩, trivial⟩, by rfl,
    ⟨by decide, ⟨by decide, trivial⟩, ⟨by decide, trivial⟩, trivial⟩, by rfl⟩

end Resolute
