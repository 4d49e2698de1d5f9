import Mathlib.Algebra.Group.Int.Defs
import Resolute.Client.Basic
import Resolute.Wire.Encode

/-!
# The binary codecs

`Encode` and `Decode`: PostgreSQL's binary format of Rust values, for the base types and for the
containers `Vec<T>`, `PgRange<T>` and derived `PgComposite` structs.  An encoder appends to a
buffer; the length in front of a part is a placeholder that is patched when the part is written
(`encodeParam`).  A decoder gets the bytes of one value, and reads lengths that it casts and adds to
its position.  Both together are a `Codec`, and `Ty.codec` is that of a type that is built from the
base types and the containers.

A decoder can fail with an error or with a panic: its outcome is a `Decoded` value.  An addition of
two `usize`s that overflows is a panic here; a build without overflow checks wraps around, and the
slice that comes next is refused.

The decoder of a composite binds a variable with the name of each field, in the scope of its
parameter `buf`.  So a field that is named `buf` takes the place of the bytes for the fields behind
it (`Field`).
-/

namespace Resolute

/-! ### Outcomes -/

/-- The size of the largest object, `isize::MAX`. -/
def isizeMax : ℕ := 2 ^ 63 - 1

/-- Why a decoder panics. -/
inductive Panic where
  /-- "attempt to add with overflow" -/
  | overflow
  /-- "index out of bounds", "range end index out of range" -/
  | outOfBounds
  /-- "capacity overflow" -/
  | capacityOverflow
  deriving DecidableEq, Repr

/-- A decoder returns `Err`, or does not return. -/
inductive Failure where
  | err (e : TypedError)
  | panic (p : Panic)
  deriving DecidableEq, Repr

/-- The outcome of a decoder. -/
abbrev Decoded (α : Type) := Except Failure α

namespace Decoded

variable {α : Type}

/-- `Err(TypedError::Decode { column, message })`. -/
def err (column : ℕ) (message : String) : Decoded α := .error (.err (.decode column message))

def panic (p : Panic) : Decoded α := .error (.panic p)

/-- The decoder returned. -/
def Returns (r : Decoded α) : Prop := ∀ p, r ≠ panic p

end Decoded

/-- `a + b` of two `usize`s. -/
def addUsize (a b : ℕ) : Decoded ℕ := if a + b < 2 ^ 64 then .ok (a + b) else .panic .overflow

/-- `n as usize`. -/
def asUsize (n : Int32) : ℕ := (n.toInt % 2 ^ 64).toNat

/-- `u32::from_be_bytes([buf[i], buf[i + 1], buf[i + 2], buf[i + 3]])`. -/
def readU32 (buf : Bytes) (i : ℕ) : Decoded UInt32 :=
  if i + 4 ≤ buf.length then .ok (u32At buf i) else .panic .outOfBounds

/-- `i32::from_be_bytes([buf[i], buf[i + 1], buf[i + 2], buf[i + 3]])`. -/
def readI32 (buf : Bytes) (i : ℕ) : Decoded Int32 := UInt32.toInt32 <$> readU32 buf i

/-- `&buf[i..j]`. -/
def slice (buf : Bytes) (i j : ℕ) : Decoded Bytes :=
  if i ≤ j ∧ j ≤ buf.length then .ok ((buf.take j).drop i) else .panic .outOfBounds

/-- `Vec::with_capacity(count)`, of elements of `size` bytes. -/
def withCapacity (size count : ℕ) : Decoded Unit :=
  if count * size ≤ isizeMax then .ok () else .panic .capacityOverflow

/-! ### Base types -/

/-- `u64::to_be_bytes`. -/
def u64Bytes (n : UInt64) : Bytes :=
  u32Bytes (.ofNat (n.toNat / 4294967296)) ++ u32Bytes (.ofNat (n.toNat % 4294967296))

/-- `u64::from_be_bytes` of eight bytes. -/
def u64At (buf : Bytes) (i : ℕ) : UInt64 :=
  .ofNat ((u32At buf i).toNat * 4294967296 + (u32At buf (i + 4)).toNat)

/-- `Encode` and `Decode` of a type. -/
structure Codec where
  Val : Type
  /-- Append the value to the buffer. -/
  encode : Val → Bytes → Bytes
  /-- Decode a value from its bytes. -/
  decode : Bytes → Decoded Val

/-- The types with a fixed codec that can be the elements of a `Vec`. -/
inductive Scalar where
  | bool
  | i16
  | i32
  | i64
  | f32
  | f64
  | string
  | uuid
  deriving DecidableEq, Repr

namespace Scalar

/-- The values of a type; a float is its bit pattern. -/
def Val : Scalar → Type
  | bool => Bool
  | i16 => Int16
  | i32 => Int32
  | i64 => Int64
  | f32 => UInt32
  | f64 => UInt64
  | string => String
  | uuid => Vector UInt8 16

/-- `std::mem::size_of`. -/
def size : Scalar → ℕ
  | bool => 1
  | i16 => 2
  | i32 | f32 => 4
  | i64 | f64 => 8
  | string => 24
  | uuid => 16

/-- `PgType::OID`. -/
def oid : Scalar → Oid
  | bool => 16
  | i16 => 21
  | i32 => 23
  | i64 => 20
  | f32 => 700
  | f64 => 701
  | string => 25
  | uuid => 2950

/-- `PgType::ARRAY_OID`. -/
def arrayOid : Scalar → Oid
  | bool => 1000
  | i16 => 1005
  | i32 => 1007
  | i64 => 1016
  | f32 => 1021
  | f64 => 1022
  | string => 1009
  | uuid => 2951

/-- The bytes of a value. -/
def bytes : (s : Scalar) → s.Val → Bytes
  | bool, (b : Bool) => [if b then 1 else 0]
  | i16, (n : Int16) => i16Bytes n
  | i32, (n : Int32) => i32Bytes n
  | i64, (n : Int64) => u64Bytes n.toUInt64
  | f32, (n : UInt32) => u32Bytes n
  | f64, (n : UInt64) => u64Bytes n
  | string, (s : String) => asBytes s
  | uuid, (u : Vector UInt8 16) => u.toList

/-- The check of the length that each decoder of a fixed size begins with. -/
def sized {α : Type} (size : ℕ) (message : ℕ → String) (value : Bytes → α) (buf : Bytes) :
    Decoded α :=
  if buf.length ≠ size then .err 0 (message buf.length) else .ok (value buf)

def decode : (s : Scalar) → Bytes → Decoded s.Val
  | bool, buf => sized 1 (fun n => s!"bool: expected 1 byte, got {n}") (byteAt · 0 != 0) buf
  | i16, buf => sized 2 (fun n => s!"i16: expected 2 bytes, got {n}") (i16At · 0) buf
  | i32, buf => sized 4 (fun n => s!"i32: expected 4 bytes, got {n}") (i32At · 0) buf
  | i64, buf => sized 8 (fun n => s!"i64: expected 8 bytes, got {n}") (u64At · 0 |>.toInt64) buf
  | f32, buf => sized 4 (fun n => s!"f32: expected 4 bytes, got {n}") (u32At · 0) buf
  | f64, buf => sized 8 (fun n => s!"f64: expected 8 bytes, got {n}") (u64At · 0) buf
  | string, buf =>
    match fromUtf8 buf with
    | some s => .ok s
    | none =>
      let e := utf8Error buf.length 0 buf
      .err 0 s!"String: invalid UTF-8: {e}"
  | uuid, buf =>
    if h : buf.length = 16 then .ok (⟨buf.toArray, h⟩ : Vector UInt8 16)
    else .err 0 s!"UUID: expected 16 bytes, got {buf.length}"

def encode (s : Scalar) (v : s.Val) (buf : Bytes) : Bytes := buf ++ s.bytes v

def codec (s : Scalar) : Codec := ⟨s.Val, s.encode, s.decode⟩

end Scalar

/-- `Vec<u8>`. -/
def byteaCodec : Codec := ⟨Bytes, fun v buf => buf ++ v, .ok⟩

/-! ### Parts -/

/-- `Encode::encode_param`: a placeholder for the length, the data, and then the length. -/
def encodeParam {α : Type} (encode : α → Bytes → Bytes) (v : α) (buf : Bytes) : Bytes :=
  let start := buf.length
  let buf := encode v (buf ++ [0, 0, 0, 0])
  let len := Int32.ofNat (buf.length - start - 4)
  buf.take start ++ i32Bytes len ++ buf.drop (start + 4)

/-- Check that the next `n` bytes are there, and move behind them. -/
def header (buf : Bytes) (offset n : ℕ) (truncated : Decoded ℕ) : Decoded ℕ := do
  let stop ← addUsize offset n
  if stop > buf.length then truncated else .ok stop

/-- The `len` bytes at `offset`, and the position behind them. -/
def readData (buf : Bytes) (offset : ℕ) (len : Int32) (truncated : Decoded (Bytes × ℕ)) :
    Decoded (Bytes × ℕ) := do
  let stop ← addUsize offset (asUsize len)
  if stop > buf.length then truncated
  else
    let data ← slice buf offset stop
    .ok (data, stop)

/-! ### Arrays -/

/-- The header of an array: ndim = 1, has_null, element_oid, dim_len, lower_bound = 1. -/
def encodeArrayHeader (buf : Bytes) (hasNull : Bool) (elementOid : Oid) (len : ℕ) : Bytes :=
  buf ++ i32Bytes 1 ++ i32Bytes (if hasNull then 1 else 0) ++ u32Bytes elementOid ++
    i32Bytes (Int32.ofNat len) ++ i32Bytes 1

/-- `parse_array_header`: the OID and the number of the elements, and where they begin. -/
def parseArrayHeader (buf : Bytes) : Decoded (Oid × ℕ × ℕ) := do
  if buf.length < 12 then .err 0 "array: header too short"
  else
    let ndim ← readI32 buf 0
    let elementOid ← readU32 buf 8
    if ndim = 0 then .ok (elementOid, 0, 12)
    else if ndim ≠ 1 then .err 0 s!"array: only 1D arrays supported, got {ndim}D"
    else if buf.length < 20 then .err 0 "array: 1D header too short"
    else
      let dimLen ← readI32 buf 12
      .ok (elementOid, asUsize dimLen, 20)

/-- The loop of `decode_array_elements`. -/
def decodeElements {α : Type} (decode : Bytes → Decoded α) (buf : Bytes) :
    (count offset : ℕ) → Decoded (List α)
  | 0, _ => .ok []
  | count + 1, offset => do
    let next ← header buf offset 4 (.err 0 "array: truncated element header")
    let len ← readI32 buf offset
    if len = -1 then .err 0 "array: unexpected NULL element"
    else
      let (data, next) ← readData buf next len (.err 0 "array: element data truncated")
      let v ← decode data
      let vs ← decodeElements decode buf count next
      .ok (v :: vs)

/-- `decode_array_elements`, for elements of `size` bytes in memory. -/
def decodeArrayElements {α : Type} (size : ℕ) (decode : Bytes → Decoded α) (buf : Bytes) :
    Decoded (List α) := do
  let (_, count, offset) ← parseArrayHeader buf
  withCapacity size count
  decodeElements decode buf count offset

/-- `Vec<T>` of a base type. -/
def arrayCodec (s : Scalar) : Codec where
  Val := List s.Val
  encode vs buf :=
    vs.foldl (fun buf v => encodeParam s.encode v buf)
      (encodeArrayHeader buf false s.oid vs.length)
  decode := decodeArrayElements s.size s.decode

/-! ### Ranges -/

/-- A range value. -/
inductive PgRange (α : Type) where
  | empty
  /-- A bound that is `none` is infinite. -/
  | range (lower upper : Option α) (lowerInclusive upperInclusive : Bool)
  deriving DecidableEq, Repr

def rangeEmpty : UInt8 := 0x01
def rangeLbInc : UInt8 := 0x02
def rangeUbInc : UInt8 := 0x04
def rangeLbInf : UInt8 := 0x08
def rangeUbInf : UInt8 := 0x10

/-- The flags of a range that is not empty. -/
def rangeFlags {α : Type} (lower upper : Option α) (lowerInclusive upperInclusive : Bool) : UInt8 :=
  (if lowerInclusive then rangeLbInc else 0) ||| (if upperInclusive then rangeUbInc else 0) |||
    (if lower.isNone then rangeLbInf else 0) ||| (if upper.isNone then rangeUbInf else 0)

def encodeBound {α : Type} (encode : α → Bytes → Bytes) (bound : Option α) (buf : Bytes) : Bytes :=
  match bound with
  | some v => encodeParam encode v buf
  | none => buf

def encodeRange {α : Type} (encode : α → Bytes → Bytes) : PgRange α → Bytes → Bytes
  | .empty, buf => buf ++ [rangeEmpty]
  | .range lower upper lowerInclusive upperInclusive, buf =>
    let buf := buf ++ [rangeFlags lower upper lowerInclusive upperInclusive]
    encodeBound encode upper (encodeBound encode lower buf)

/-- A bound, `infinite` or at `offset`, and the position behind it; `side` is part of the errors. -/
def decodeBound {α : Type} (decode : Bytes → Decoded α) (side : String) (infinite : Bool)
    (buf : Bytes) (offset : ℕ) : Decoded (Option α × ℕ) := do
  if infinite then .ok (none, offset)
  else
    let next ← header buf offset 4 (.err 0 s!"range: truncated {side} bound length")
    let len ← readI32 buf offset
    let (data, next) ← readData buf next len (.err 0 s!"range: truncated {side} bound data")
    let v ← decode data
    .ok (some v, next)

def decodeRange {α : Type} (decode : Bytes → Decoded α) (buf : Bytes) : Decoded (PgRange α) := do
  match buf with
  | [] => .err 0 "range: empty buffer"
  | flags :: _ =>
    if flags &&& rangeEmpty != 0 then .ok .empty
    else
      let (lower, offset) ← decodeBound decode "lower" (flags &&& rangeLbInf != 0) buf 1
      let (upper, _) ← decodeBound decode "upper" (flags &&& rangeUbInf != 0) buf offset
      .ok (.range lower upper (flags &&& rangeLbInc != 0) (flags &&& rangeUbInc != 0))

/-- `PgRange<T>`. -/
def rangeCodec (c : Codec) : Codec :=
  ⟨PgRange c.Val, encodeRange c.encode, decodeRange c.decode⟩

/-! ### Composites -/

/-- What the `let` of a field hides in the generated `decode`.  Its variables are written with the
hygiene of the struct's own code, so that a field can be named like one of them; most such structs
do not compile, since the types disagree. -/
inductive Hides : Codec → Type 1 where
  | nothing {c : Codec} : Hides c
  /-- A `Vec<u8>` that is named `buf` hides the bytes of the struct. -/
  | buf : Hides byteaCodec
  /-- An `i32` that is named `__field_len` hides the length of the field, and is hidden by that of
  the next one. -/
  | fieldLen : Hides Scalar.i32.codec

/-- A field of a struct: `T`, or `Option<T>` for a column that can be NULL, with the OID of `T`. -/
inductive Field where
  | required (oid : Oid) (codec : Codec) (hides : Hides codec)
  | optional (oid : Oid) (codec : Codec)

namespace Field

def Val : Field → Type
  | required _ c _ => c.Val
  | optional _ c => Option c.Val

/-- The codec of the values of a field. -/
def codec : Field → Codec
  | required _ c _ => c
  | optional _ c => c

def encode : (f : Field) → f.Val → Bytes → Bytes
  | required oid c _, (v : c.Val), buf => encodeParam c.encode v (buf ++ u32Bytes oid)
  | optional oid c, (v : Option c.Val), buf =>
    match v with
    | some v => encodeParam c.encode v (buf ++ u32Bytes oid)
    | none => buf ++ u32Bytes oid ++ i32Bytes (-1)

/-- What a field does with a length of `-1`. -/
def null : (f : Field) → (idx offset : ℕ) → Decoded (f.Val × ℕ)
  | required _ _ _, idx, _ => .error (.err (.unexpectedNull idx))
  | optional _ c, _, offset => .ok ((none : Option c.Val), offset)

/-- What a field does with its data. -/
def value : (f : Field) → Bytes → Decoded f.Val
  | required _ c _, data => c.decode data
  | optional _ c, data => (some <$> c.decode data : Decoded (Option c.Val))

/-- The `len` bytes of the field with number `idx`, and the position behind them. -/
def content (f : Field) (name : String) (idx : ℕ) (buf : Bytes) (offset : ℕ) (len : Int32) :
    Decoded (f.Val × ℕ) := do
  if len = -1 then f.null idx offset
  else
    let (data, next) ← readData buf offset len (.err idx s!"{name}: field data truncated")
    let v ← f.value data
    .ok (v, next)

/-- The field with number `idx`, the position behind it, and `__field_len`. -/
def decode (f : Field) (name : String) (idx : ℕ) (buf : Bytes) (offset : ℕ) :
    Decoded (f.Val × ℕ × Int32) := do
  let stop ← header buf offset 8 (.err idx s!"{name}: truncated field header")
  let _oid ← readU32 buf offset
  let next ← addUsize offset 4
  let len ← readI32 buf next
  let (v, next) ← f.content name idx buf stop len
  .ok (v, next, len)

/-- `buf` behind the `let` of the field. -/
def shownBuf : (f : Field) → f.Val → Bytes → Bytes
  | required _ _ .buf, (v : Bytes), _ => v
  | required _ _ .nothing, _, buf | required _ _ .fieldLen, _, buf | optional _ _, _, buf => buf

/-- `__field_len` behind the `let` of the field. -/
def shownLen : (f : Field) → f.Val → Int32 → Int32
  | required _ _ .fieldLen, (v : Int32), _ => v
  | required _ _ .nothing, _, len | required _ _ .buf, _, len | optional _ _, _, len => len

/-- The field in `Self { .. }`, if `__field_len` is `len` there. -/
def shown : (f : Field) → f.Val → Int32 → f.Val
  | required _ _ .fieldLen, _, len => (len : Int32)
  | required _ _ .nothing, v, _ | required _ _ .buf, v, _ | optional _ _, v, _ => v

end Field

/-- The values of a struct with the given fields. -/
def Record : List Field → Type
  | [] => Unit
  | f :: fs => f.Val × Record fs

def encodeFields : (fs : List Field) → Record fs → Bytes → Bytes
  | [], _, buf => buf
  | f :: fs, (v, vs), buf => encodeFields fs vs (f.encode v buf)

/-- The fields from number `idx` on as they are in `Self { .. }`, and `__field_len` there. -/
def decodeFields (name : String) :
    (fs : List Field) → (idx : ℕ) → (buf : Bytes) → (offset : ℕ) → (len : Int32) →
      Decoded (Record fs × Int32)
  | [], _, _, _, len => .ok ((), len)
  | f :: fs, idx, buf, offset, _ => do
    let (v, offset, len) ← f.decode name idx buf offset
    let (vs, last) ←
      decodeFields name fs (idx + 1) (f.shownBuf v buf) offset (f.shownLen v len)
    .ok ((f.shown v last, vs), last)

def decodeComposite (name : String) (fs : List Field) (buf : Bytes) : Decoded (Record fs) := do
  if buf.length < 4 then .err 0 s!"{name}: buffer too short for composite header"
  else
    let _nfields ← readI32 buf 0
    -- there is no `__field_len` yet
    let (vs, _) ← decodeFields name fs 0 buf 4 0
    .ok vs

/-- A struct that derives `PgComposite`. -/
def compositeCodec (name : String) (fs : List Field) : Codec where
  Val := Record fs
  encode vs buf := encodeFields fs vs (buf ++ i32Bytes (Int32.ofNat fs.length))
  decode := decodeComposite name fs

/-! ### Types -/

mutual

/-- A type that the codecs build; the trait bounds of the source allow fewer ranges. -/
inductive Ty where
  | scalar (s : Scalar)
  | bytea
  | array (s : Scalar)
  | range (t : Ty)
  | composite (name : String) (oid : Oid) (fields : Fields)

/-- The fields of a struct, with their names. -/
inductive Fields where
  | nil
  | required (ident : String) (t : Ty) (fields : Fields)
  | optional (ident : String) (t : Ty) (fields : Fields)

end

/-- `PgType::OID`, `0` where there is no `PgType`. -/
def Ty.oid : Ty → Oid
  | scalar s => s.oid
  | bytea => 17
  | array s => s.arrayOid
  | range (scalar .i32) => 3904
  | range (scalar .i64) => 3926
  | range _ => 0
  | composite _ oid _ => oid

/-- What a field of a base type hides by its name. -/
def Scalar.hides : (s : Scalar) → String → Hides s.codec
  | i32, ident => if ident = "__field_len" then .fieldLen else .nothing
  | bool, _ | i16, _ | i64, _ | f32, _ | f64, _ | string, _ | uuid, _ => .nothing

mutual

/-- `Encode` and `Decode` of a type, and what a field of the type hides by its name. -/
def Ty.impl : Ty → (c : Codec) × (String → Hides c)
  | .scalar s => ⟨s.codec, s.hides⟩
  | .bytea => ⟨byteaCodec, fun ident => if ident = "buf" then .buf else .nothing⟩
  | .array s => ⟨arrayCodec s, fun _ => .nothing⟩
  | .range t => ⟨rangeCodec t.impl.1, fun _ => .nothing⟩
  | .composite name _ fields => ⟨compositeCodec name fields.codecs, fun _ => .nothing⟩

def Fields.codecs : Fields → List Field
  | .nil => []
  | .required ident t fields => .required t.oid t.impl.1 (t.impl.2 ident) :: fields.codecs
  | .optional _ t fields => .optional t.oid t.impl.1 :: fields.codecs

end

/-- `Encode` and `Decode` of a type. -/
abbrev Ty.codec (t : Ty) : Codec := t.impl.1

/-- The values of a type. -/
abbrev Ty.Val (t : Ty) : Type := t.codec.Val

/-- The bytes of a value. -/
def Ty.encode (t : Ty) (v : t.Val) : Bytes := t.codec.encode v []

def Ty.decode (t : Ty) (buf : Bytes) : Decoded t.Val := t.codec.decode buf

end Resolute
