import Resolute.Client.FromRow
import Resolute.Codec.ByteaText
import Resolute.Codec.RangeText
import Resolute.Codec.Temporal
import Resolute.Rust.Signed

/-!
# Types in both formats

A type that a row can be read as has a decoder for each of the two formats that the server sends a
value in.  A `ColumnType` is such a type, with its `codec` and its `decodeText`; the text that the
server writes for a value also depends on settings of the session (`OutputSettings`).

* In binary, the decoder inverts the encoder, but for composites with a field that gets in the way
  of others (`ColumnType.decode_encode_iff`).  The size of a value bounds the size of its parts
  (`Ty.fits_of_length`), so nothing has to be known of these.
* In text, some values are written in a way that the decoder does not expect.  Those that come back
  are `Kept` (`ColumnType.decodeText_out_iff`), and none makes the decoder panic
  (`ColumnType.decodeText_returns`).
-/

namespace Resolute

open Rust (Fault)

/-! ### Dates and timestamps with infinities -/

/-- `PgTimestamp` or `PgDate`. -/
inductive Unbounded (α : Type) where
  | value (v : α)
  | infinity
  | negInfinity
  deriving DecidableEq, Repr

abbrev PgTimestamp := Unbounded Int64

abbrev PgDate := Unbounded Int32

namespace Unbounded

variable {α : Type}

/-- `encode`, where `top` and `bottom` stand for the infinities. -/
def encode (top bottom : α) (put : α → Bytes → Bytes) (v : Unbounded α) (buf : Bytes) : Bytes :=
  match v with
  | value v => put v buf
  | infinity => put top buf
  | negInfinity => put bottom buf

/-- `decode`. -/
def decode [DecidableEq α] (top bottom : α) (get : Bytes → Decoded α) (buf : Bytes) :
    Decoded (Unbounded α) := do
  let v ← get buf
  return if v = top then infinity else if v = bottom then negInfinity else value v

/-- `decode_text`; `name` is part of the error, in which `debug` is `{:?}`. -/
def decodeText (name : String) (debug : String → String) (parse : List Char → Option α)
    (s : String) : Decoded (Unbounded α) :=
  if s = "infinity" then .ok infinity
  else if s = "-infinity" then .ok negInfinity
  else
    match parse s.toList with
    | some v => .ok (value v)
    | none => .err 0 s!"{name}: {debug s}"

/-- The text that the server writes, when `text` is that of a finite value. -/
def out (text : α → String) : Unbounded α → String
  | value v => text v
  | infinity => "infinity"
  | negInfinity => "-infinity"

/-- A finite value is none of those that stand for the infinities. -/
def Proper (top bottom : α) (v : Unbounded α) : Prop := ∀ x, v = value x → x ≠ top ∧ x ≠ bottom

theorem decode_encode [DecidableEq α] {top bottom : α} {put : α → Bytes → Bytes}
    {get : Bytes → Decoded α} (hget : ∀ v, get (put v []) = .ok v) (hne : bottom ≠ top)
    {v : Unbounded α} (hv : v.Proper top bottom) :
    decode top bottom get (encode top bottom put v []) = .ok v := by
  cases v with
  | value x =>
    obtain ⟨htop, hbottom⟩ := hv x rfl
    rw [encode, decode, hget, ok_bind, if_neg htop, if_neg hbottom]
    rfl
  | infinity =>
    rw [encode, decode, hget, ok_bind, if_pos rfl]
    rfl
  | negInfinity =>
    rw [encode, decode, hget, ok_bind, if_neg hne, if_pos rfl]
    rfl

end Unbounded

/-- `parse::<i16>`, `parse::<i32>` and `parse::<i64>`. -/
def parseI16 (cs : List Char) : Option Int16 := (Rust.parseInt 32768 cs).map Int16.ofInt

def parseI32 (cs : List Char) : Option Int32 := (Rust.parseInt 2147483648 cs).map Int32.ofInt

def parseI64 (cs : List Char) : Option Int64 :=
  (Rust.parseInt 9223372036854775808 cs).map Int64.ofInt

/-! ### Elements -/

/-- The types that are also read as elements of arrays and as bounds of ranges. -/
inductive Element where
  | bool
  | i16
  | i32
  | i64
  | string
  deriving DecidableEq, Repr

namespace Element

def scalar : Element → Scalar
  | bool => .bool
  | i16 => .i16
  | i32 => .i32
  | i64 => .i64
  | string => .string

/-- The values. -/
abbrev Val (e : Element) : Type := e.scalar.Val

/-- The text that the server writes. -/
def out : (e : Element) → e.Val → String
  | bool, (b : Bool) => if b then "t" else "f"
  | i16, (n : Int16) => String.ofList (Rust.intText n.toInt)
  | i32, (n : Int32) => String.ofList (Rust.intText n.toInt)
  | i64, (n : Int64) => String.ofList (Rust.intText n.toInt)
  | string, (s : String) => s

/-- What a parser found, or the error that quotes the text. -/
def parsed {α : Type} (name : String) (debug : String → String) (s : String) :
    Option α → Except TypedError α
  | some v => .ok v
  | none => .error (.decode 0 s!"{name}: {debug s}")

/-- `decode_text`. -/
def decodeText (debug : String → String) : (e : Element) → String → Except TypedError e.Val
  | bool, s => parsed "bool" debug s
      (if s = "t" ∨ s = "true" ∨ s = "1" then some true
      else if s = "f" ∨ s = "false" ∨ s = "0" then some false
      else none)
  | i16, s => parsed "i16" debug s (parseI16 s.toList)
  | i32, s => parsed "i32" debug s (parseI32 s.toList)
  | i64, s => parsed "i64" debug s (parseI64 s.toList)
  | string, s => .ok s

section

variable (debug : String → String)

theorem parseI16_intText (n : Int16) : parseI16 (Rust.intText n.toInt) = some n := by
  have hlow := n.le_toInt
  have hhigh := n.toInt_lt
  rw [parseI16, Rust.parseInt_intText (by omega) (by omega), Option.map_some, Int16.ofInt_toInt]

theorem parseI32_intText (n : Int32) : parseI32 (Rust.intText n.toInt) = some n := by
  have hlow := n.le_toInt
  have hhigh := n.toInt_lt
  rw [parseI32, Rust.parseInt_intText (by omega) (by omega), Option.map_some, Int32.ofInt_toInt]

theorem parseI64_intText (n : Int64) : parseI64 (Rust.intText n.toInt) = some n := by
  have hlow := n.le_toInt
  have hhigh := n.toInt_lt
  rw [parseI64, Rust.parseInt_intText (by omega) (by omega), Option.map_some, Int64.ofInt_toInt]

theorem parsed_ofList {α : Type} {parse : List Char → Option α} {cs : List Char} {v : α}
    (h : parse cs = some v) (name : String) :
    parsed name debug (String.ofList cs) (parse (String.ofList cs).toList) = .ok v := by
  rw [String.toList_ofList, h]
  rfl

/-- The text of a value is read as the value. -/
theorem decodeText_out (e : Element) (v : e.Val) : e.decodeText debug (e.out v) = .ok v := by
  cases e with
  | bool =>
    have h : ∀ b : Bool, decodeText debug bool (out bool b) = .ok b := by
      intro b
      cases b <;> rfl
    exact h v
  | i16 => exact parsed_ofList debug (parseI16_intText v) "i16"
  | i32 => exact parsed_ofList debug (parseI32_intText v) "i32"
  | i64 => exact parsed_ofList debug (parseI64_intText v) "i64"
  | string => rfl

/-- The type with its text, for ranges. -/
def textElement (e : Element) : TextElement e.Val where
  out := e.out
  decode := e.decodeText debug
  decode_out := e.decodeText_out debug

end

end Element

/-! ### Types of columns -/

/-- The types that a column is read as here. -/
inductive ColumnType where
  | element (e : Element)
  | bytea
  | date
  | timestamp
  | array (e : Element)
  | range (e : Element)
  | composite (name : String) (oid : Oid) (fields : Fields)

/-- What decides how the server writes a text. -/
structure OutputSettings where
  /-- `bytea_output = hex` -/
  byteaHex : Bool
  /-- The text of a finite date, by `DateStyle`. -/
  dateText : Int32 → String
  timestampText : Int64 → String
  recordText : (fields : Fields) → Record fields.codecs → String
  /-- Year, month and day are set apart from each other. -/
  dateText_sep : ∀ n, ∃ c cs d, (dateText n).toList = c :: cs ∧ d ∈ cs ∧ Rust.toDigit 10 d = none
  timestampText_sep :
    ∀ n, ∃ c cs d, (timestampText n).toList = c :: cs ∧ d ∈ cs ∧ Rust.toDigit 10 d = none

/-- A text decoder that does not find out why it failed in one place. -/
def ofOutcome {ε α : Type} (error : ε → TypedError) : Rust.Outcome ε α → Decoded α
  | .ok v => .ok v
  | .error (.err e) => .error (.err (error e))
  | .error .panic => .panic .outOfBounds

/-- The error of an array. -/
def ArrayText.ParseError.error (debug : String → String) : ArrayText.ParseError → TypedError
  | expected s => .decode 0 ("array: expected \x7b...\x7d, got " ++ debug s)
  | unterminated => .decode 0 "array: unterminated quoted element"
  | unexpectedNull => .decode 0 "array: unexpected NULL element"

/-- The error of a range. -/
def RangeTextError.error (debug : String → String) : RangeTextError → TypedError
  | invalidFormat s => .decode 0 s!"range: invalid text format: {debug s}"
  | missingComma s => .decode 0 s!"range: missing comma in: {debug s}"
  | element e => e

namespace ColumnType

/-- `Encode` and `Decode`. -/
def codec : ColumnType → Codec
  | element e => e.scalar.codec
  | bytea => byteaCodec
  | date =>
    { Val := PgDate
      encode := Unbounded.encode pgDateInfinity pgDateNegInfinity Scalar.i32.encode
      decode := Unbounded.decode pgDateInfinity pgDateNegInfinity Scalar.i32.decode }
  | timestamp =>
    { Val := PgTimestamp
      encode := Unbounded.encode pgTimestampInfinity pgTimestampNegInfinity Scalar.i64.encode
      decode := Unbounded.decode pgTimestampInfinity pgTimestampNegInfinity Scalar.i64.decode }
  | array e => arrayCodec e.scalar
  | range e => rangeCodec e.scalar.codec
  | composite name oid fields => (Ty.composite name oid fields).codec

/-- The values. -/
abbrev Val (t : ColumnType) : Type := t.codec.Val

end ColumnType

/-- The result of an element type that is not the outermost one. -/
def ofExcept {α : Type} : Except TypedError α → Decoded α
  | .ok v => .ok v
  | .error e => .error (.err e)

/-- `Vec::<T>::decode_text`. -/
def Element.decodeTextArray (debug : String → String) (e : Element) (s : String) :
    Decoded (List e.Val) := do
  let parts ← ofOutcome (ArrayText.ParseError.error debug) (ArrayText.parse s)
  parts.mapM fun part => ofExcept (e.decodeText debug part)

namespace ColumnType

/-- `DecodeText`; `debug` is `{:?}` of a string. -/
def decodeText (debug : String → String) : (t : ColumnType) → String → Decoded t.Val
  | element e, s => ofExcept (e.decodeText debug s)
  | bytea, s => ofOutcome id (ByteaText.decodeText s)
  | date, s => Unbounded.decodeText "PgDate" debug parseI32 s
  | timestamp, s => Unbounded.decodeText "PgTimestamp" debug parseI64 s
  | array e, s => e.decodeTextArray debug s
  | range e, s => ofOutcome (RangeTextError.error debug) ((e.textElement debug).decodeText s)
  | composite name _ _, _ =>
    .err 0 s!"text-format decoding not supported for composite type {name}"

/-- The type as `Row::get` uses it. -/
def decoder (debug : String → String) (t : ColumnType) : FromRow.Decoder t.Val where
  decode := t.codec.decode
  decodeText := t.decodeText debug

/-- The text that the server writes for a value. -/
def out (S : OutputSettings) : (t : ColumnType) → t.Val → String
  | element e, v => e.out v
  | bytea, (b : Bytes) => if S.byteaHex then hexOut b else escapeOut b
  | date, (v : PgDate) => v.out S.dateText
  | timestamp, (v : PgTimestamp) => v.out S.timestampText
  | array e, (vs : List e.Val) => arrayOut (vs.map e.out)
  -- what the client would make of an element does not matter here
  | range e, (r : PgRange e.Val) => (e.textElement id).rangeOut r
  | composite _ _ fields, vs => S.recordText fields vs

/-- The bytes of a value in a format. -/
def sent (S : OutputSettings) (t : ColumnType) : FormatCode → t.Val → Bytes
  | .binary, v => t.codec.encode v []
  | .text, v => asBytes (t.out S v)

/-- The values that the server has: no finite date is one of the infinite ones. -/
def Proper : (t : ColumnType) → t.Val → Prop
  | date, (v : PgDate) => v.Proper pgDateInfinity pgDateNegInfinity
  | timestamp, (v : PgTimestamp) => v.Proper pgTimestampInfinity pgTimestampNegInfinity
  | _, _ => True

/-- The names of the fields do no harm. -/
def Hygienic : (t : ColumnType) → t.Val → Prop
  | composite _ _ fields, vs => fields.Hygienic vs
  | _, _ => True

/-- The values that the client gets back from their text. -/
def Kept (S : OutputSettings) : (t : ColumnType) → t.Val → Prop
  | element _, _ => True
  | bytea, (b : Bytes) => S.byteaHex = true ∨ ∀ x ∈ b, isPlain x = true
  | date, (v : PgDate) => ∀ n, v ≠ .value n
  | timestamp, (v : PgTimestamp) => ∀ n, v ≠ .value n
  | array e, (vs : List e.Val) =>
    e = .string → ∀ v ∈ vs, needsQuote (e.out v) = false → trim (e.out v) = e.out v
  | range e, (r : PgRange e.Val) =>
    e = .string → ∀ v ∈ r.bounds, needsBoundQuote (e.out v) = false
  | composite .., _ => False

end ColumnType

/-! ### Plain texts -/

/-- The characters of numbers and truth values. -/
def isPlainChar (c : Char) : Bool := "-tf0123456789".toList.contains c

theorem isPlainChar_of_isDigit {c : Char} (h : c.isDigit = true) : isPlainChar c = true := by
  have hdigits : ∀ d < 10, isPlainChar (Char.ofNat (48 + d)) = true := by decide
  have hrange := PgNumeric.isDigit_iff.mp h
  have := hdigits (c.toNat - 48) (by omega)
  rwa [show 48 + (c.toNat - 48) = c.toNat by omega, Char.ofNat_toNat] at this

theorem not_special_of_isPlainChar {c : Char} (h : isPlainChar c = true) :
    arraySpecial c = false ∧ rangeSpecial c = false ∧ isWhitespace c = false ∧ c.toUpper ≠ 'N' := by
  have hall : "-tf0123456789".toList.all (fun c => !arraySpecial c && !rangeSpecial c &&
      !isWhitespace c && c.toUpper != 'N') = true := by
    decide
  have hc := List.all_eq_true.mp hall c (List.contains_iff_mem.mp h)
  simpa [and_assoc] using hc

/-- A text without whitespace is not trimmed. -/
theorem trim_of_not_isWhitespace {x : String} (h : ∀ c ∈ x.toList, isWhitespace c = false) :
    trim x = x := by
  have hdrop : ∀ cs : List Char, (∀ c ∈ cs, isWhitespace c = false) →
      cs.dropWhile isWhitespace = cs := by
    intro cs hcs
    cases cs with
    | nil => rfl
    | cons c cs =>
      rw [List.dropWhile_cons_of_neg (by rw [hcs c List.mem_cons_self]; exact Bool.false_ne_true)]
  rw [trim, hdrop _ h, hdrop _ fun c hc => h c (List.mem_reverse.mp hc), List.reverse_reverse,
    String.ofList_toList]

theorem plain_text {x : String} (hne : x.toList ≠ []) (h : ∀ c ∈ x.toList, isPlainChar c = true) :
    needsQuote x = false ∧ needsBoundQuote x = false ∧ trim x = x := by
  have hspecial := fun c hc => not_special_of_isPlainChar (h c hc)
  have hempty : x.toList.isEmpty = false := List.isEmpty_eq_false_iff.mpr hne
  have hnull : (x.toList.map Char.toUpper == "NULL".toList) = false := by
    obtain ⟨c, cs, hcs⟩ := List.exists_cons_of_ne_nil hne
    rw [hcs, List.map_cons, beq_eq_false_iff_ne]
    intro heq
    exact (hspecial c (hcs ▸ List.mem_cons_self)).2.2.2 (List.cons.inj heq).1
  have hplain : x.toList.any arraySpecial = false := by
    simpa using fun c hc => (hspecial c hc).1
  have hbound : x.toList.any rangeSpecial = false := by
    simpa using fun c hc => (hspecial c hc).2.1
  exact ⟨by rw [needsQuote, hempty, hnull, hplain]; rfl,
    by rw [needsBoundQuote, hempty, hbound]; rfl,
    trim_of_not_isWhitespace fun c hc => (hspecial c hc).2.2.1⟩

theorem plain_intText (n : ℤ) :
    (String.ofList (Rust.intText n)).toList ≠ [] ∧
      ∀ c ∈ (String.ofList (Rust.intText n)).toList, isPlainChar c = true := by
  have hdigits : ∀ c ∈ Nat.toDigits 10 n.natAbs, isPlainChar c = true :=
    fun c hc => isPlainChar_of_isDigit (Rust.toDigits_isDigit _ c hc)
  rw [String.toList_ofList, Rust.intText]
  split_ifs
  · exact ⟨List.cons_ne_nil _ _, List.forall_mem_cons.mpr ⟨rfl, hdigits⟩⟩
  · exact ⟨Nat.toDigits_ne_nil, hdigits⟩

/-- The text of a number or a truth value is written and read as it stands. -/
theorem Element.out_plain {e : Element} (he : e ≠ .string) (v : e.Val) :
    needsQuote (e.out v) = false ∧ needsBoundQuote (e.out v) = false ∧
      trim (e.out v) = e.out v := by
  cases e with
  | bool =>
    have h : ∀ b : Bool, needsQuote (out bool b) = false ∧ needsBoundQuote (out bool b) = false ∧
        trim (out bool b) = out bool b := by
      intro b
      cases b <;> exact plain_text (by decide) (List.all_eq_true.mp (by decide))
    exact h v
  | i16 =>
    obtain ⟨hne, hplain⟩ := plain_intText (Int16.toInt v)
    exact plain_text hne hplain
  | i32 =>
    obtain ⟨hne, hplain⟩ := plain_intText (Int32.toInt v)
    exact plain_text hne hplain
  | i64 =>
    obtain ⟨hne, hplain⟩ := plain_intText (Int64.toInt v)
    exact plain_text hne hplain
  | string => exact absurd rfl he

/-! ### What fits as a whole fits in its parts -/

theorem length_le_parts {α : Type} (encode : α → Bytes → Bytes) (vs : List α) :
    vs.length ≤ (vs.flatMap (part encode)).length ∧
      ∀ v ∈ vs, (encode v []).length ≤ (vs.flatMap (part encode)).length := by
  induction vs with
  | nil => exact ⟨Nat.le_refl _, fun v hv => absurd hv List.not_mem_nil⟩
  | cons w vs ih =>
    obtain ⟨hcount, hparts⟩ := ih
    have hlen : ((w :: vs).flatMap (part encode)).length =
        4 + (encode w []).length + (vs.flatMap (part encode)).length := by
      rw [List.flatMap_cons, List.length_append, length_part]
    rw [hlen, List.length_cons, List.forall_mem_cons]
    refine ⟨by omega, by omega, fun v hv => ?_⟩
    have := hparts v hv
    omega

theorem length_le_range {α : Type} {encode : α → Bytes → Bytes} (h : Appends encode)
    {r : PgRange α} : ∀ v ∈ r.bounds, (encode v []).length ≤ (encodeRange encode r []).length := by
  intro v hv
  cases r with
  | empty => exact absurd hv List.not_mem_nil
  | range lower upper lowerInclusive upperInclusive =>
    have hbound : ∀ {bound : Option α}, v ∈ bound →
        (encode v []).length ≤ (boundPart encode bound).length := by
      intro bound hmem
      rw [Option.mem_def.mp hmem, boundPart, Option.elim_some, length_part]
      omega
    rw [encodeRange_eq h, List.nil_append, List.length_cons, List.length_append]
    rcases List.mem_append.mp hv with hv | hv
    · have := hbound (Option.mem_toList.mp hv)
      omega
    · have := hbound (Option.mem_toList.mp hv)
      omega

mutual

/-- **What is short enough as a whole** has no part that is too long for its length field. -/
theorem Ty.fits_of_length : (t : Ty) → {v : t.Val} → FitsI32 (t.encode v).length → t.Fits v
  | .scalar _, _, _ => trivial
  | .bytea, _, _ => trivial
  | .array s, (vs : List s.Val), h => by
    have hencode : (Ty.array s).encode vs = _ := encodeArray_eq s vs []
    obtain ⟨hcount, hparts⟩ := length_le_parts s.encode vs
    rw [hencode, List.length_append] at h
    refine ⟨by omega, fun v hv => ?_⟩
    have := hparts v hv
    rw [Scalar.encode, List.nil_append] at this
    omega
  | .range t, (r : PgRange t.Val), h => by
    intro v hv
    have hlen : (t.encode v).length ≤ _ := length_le_range t.appends v hv
    have hfits : FitsI32 (t.encode v).length := Nat.lt_of_le_of_lt hlen h
    exact ⟨hfits, t.fits_of_length hfits⟩
  | .composite name oid fields, vs, h => by
    have hencode : (Ty.composite name oid fields).encode vs = _ :=
      encodeFields_eq fields.appends vs _
    rw [hencode, List.length_append] at h
    obtain ⟨hcount, hfits⟩ := @Fields.fits_of_length fields vs (by omega)
    exact ⟨by omega, hfits⟩

theorem Fields.fits_of_length : (fields : Fields) → {vs : Record fields.codecs} →
    FitsI32 (fieldParts fields.codecs vs).length →
    fields.codecs.length ≤ (fieldParts fields.codecs vs).length ∧ fields.Fits vs
  | .nil, _, _ => ⟨Nat.le_refl _, trivial⟩
  | .required ident t fields, ((v : t.Val), vs), h => by
    have hlen : (fieldParts (Fields.required ident t fields).codecs (v, vs)).length =
        8 + (t.encode v).length + (fieldParts fields.codecs vs).length := by
      have hpart : (part t.codec.encode v).length = 4 + (t.encode v).length := length_part _ v
      have hfield : (u32Bytes t.oid ++ part t.codec.encode v).length = 8 + (t.encode v).length := by
        rw [List.length_append, hpart, length_u32Bytes]
        omega
      exact List.length_append.trans (congrArg (· + _) hfield)
    rw [hlen] at h ⊢
    obtain ⟨hcount, hfits⟩ := @Fields.fits_of_length fields vs (by omega)
    have hv : FitsI32 (t.encode v).length := by omega
    refine ⟨?_, ⟨hv, t.fits_of_length hv⟩, hfits⟩
    rw [Fields.codecs, List.length_cons]
    omega
  | .optional ident t fields, ((v : Option t.Val), vs), h => by
    have hlen : (fieldParts (Fields.optional ident t fields).codecs (v, vs)).length =
        8 + (v.elim 0 fun w => (t.encode w).length) + (fieldParts fields.codecs vs).length := by
      have hpart : (v.elim (i32Bytes (-1)) (part t.codec.encode)).length =
          4 + v.elim 0 fun w => (t.encode w).length := by
        cases v with
        | none => rfl
        | some w => exact length_part _ w
      have hfield : (u32Bytes t.oid ++ v.elim (i32Bytes (-1)) (part t.codec.encode)).length =
          8 + v.elim 0 fun w => (t.encode w).length := by
        rw [List.length_append, hpart, length_u32Bytes]
        omega
      exact List.length_append.trans (congrArg (· + _) hfield)
    rw [hlen] at h ⊢
    obtain ⟨hcount, hfits⟩ := @Fields.fits_of_length fields vs (by omega)
    refine ⟨?_, fun w hw => ?_, hfits⟩
    · rw [Fields.codecs, List.length_cons]
      omega
    · rw [Option.mem_def.mp hw, Option.elim_some] at h
      have hw : FitsI32 (t.encode w).length := by omega
      exact ⟨hw, t.fits_of_length hw⟩

end

/-- **The binary format brings every value back**, if the names of the fields do no harm. -/
theorem ColumnType.decode_encode_iff (t : ColumnType) {v : t.Val} (hproper : t.Proper v)
    (h : FitsI32 (t.codec.encode v []).length) :
    t.codec.decode (t.codec.encode v []) = .ok v ↔ t.Hygienic v := by
  cases t with
  | element e => exact (Ty.scalar e.scalar).decode_encode_iff trivial
  | bytea => exact iff_of_true rfl trivial
  | date =>
    have hget : ∀ n : Int32, Scalar.i32.decode (Scalar.i32.encode n []) = .ok n :=
      fun n => Scalar.i32.decode_bytes n
    exact iff_of_true (Unbounded.decode_encode hget (by decide) hproper) trivial
  | timestamp =>
    have hget : ∀ n : Int64, Scalar.i64.decode (Scalar.i64.encode n []) = .ok n :=
      fun n => Scalar.i64.decode_bytes n
    exact iff_of_true (Unbounded.decode_encode hget (by decide) hproper) trivial
  | array e => exact (Ty.array e.scalar).decode_encode_iff ((Ty.array e.scalar).fits_of_length h)
  | range e =>
    have hfits := (Ty.range (.scalar e.scalar)).fits_of_length h
    exact ((Ty.range (.scalar e.scalar)).decode_encode_iff hfits).trans
      (iff_of_true (fun _ _ => trivial) trivial)
  | composite name oid fields =>
    have hfits := (Ty.composite name oid fields).fits_of_length h
    exact (Ty.composite name oid fields).decode_encode_iff hfits

/-! ### What comes back from a text -/

section

variable {ε α : Type} {error : ε → TypedError}

theorem ofOutcome_eq_ok {r : Rust.Outcome ε α} {v : α} :
    ofOutcome error r = .ok v ↔ r = .ok v := by
  cases r with
  | ok w => simp [ofOutcome]
  | error e =>
    cases e with
    | err e => simp [ofOutcome]
    | panic => simp [ofOutcome, Decoded.panic]

theorem ofOutcome_returns {r : Rust.Outcome ε α} (h : r.Returns) :
    (ofOutcome error r).Returns := by
  intro p hp
  cases r with
  | ok w => cases hp
  | error e =>
    cases e with
    | err e => cases hp
    | panic => exact h rfl

theorem ofExcept_returns (r : Except TypedError α) : (ofExcept r).Returns := by
  intro p hp
  cases r <;> cases hp

theorem Decoded.Returns.bind {β : Type} {r : Decoded α} {f : α → Decoded β} (hr : r.Returns)
    (hf : ∀ v, (f v).Returns) : (r >>= f).Returns := by
  cases r with
  | error e => exact fun p hp => hr p (congrArg Except.error (Except.error.inj hp))
  | ok v => exact hf v

theorem Decoded.Returns.map {β : Type} {r : Decoded α} {f : α → β} (hr : r.Returns) :
    Decoded.Returns (f <$> r) := by
  cases r with
  | error e => exact fun p hp => hr p (congrArg Except.error (Except.error.inj hp))
  | ok v => exact fun p hp => by cases hp

theorem Decoded.Returns.mapM {β : Type} {f : α → Decoded β} (hf : ∀ v, (f v).Returns)
    (l : List α) : Decoded.Returns (l.mapM f) := by
  induction l with
  | nil => exact fun p hp => by cases hp
  | cons v l ih =>
    rw [List.mapM_cons]
    exact (hf v).bind fun w => Returns.bind ih fun ws p hp => by cases hp

end

section

variable {α : Type} (debug : String → String) (name : String) {parse : List Char → Option α}
  {text : α → String}

/-- A date comes back exactly if it is infinite, when the parser refuses the others. -/
theorem Unbounded.decodeText_out_iff (hparse : ∀ x, parse (text x).toList = none)
    (v : Unbounded α) :
    decodeText name debug parse (v.out text) = .ok v ↔ ∀ x, v ≠ .value x := by
  cases v with
  | value x =>
    refine iff_of_false (fun h => ?_) fun h => h x rfl
    rw [out, decodeText, hparse] at h
    split_ifs at h <;> cases h
  | infinity => exact iff_of_true rfl fun x hx => by cases hx
  | negInfinity => exact iff_of_true rfl fun x hx => by cases hx

theorem Unbounded.decodeText_returns (s : String) :
    (decodeText name debug parse s).Returns := by
  intro p hp
  rw [decodeText] at hp
  split_ifs at hp
  · cases hp
  · cases hp
  · generalize parse s.toList = found at hp
    cases found <;> cases hp

end

section

variable {cs : List Char}

/-- A text in which something separates digits is no number. -/
theorem parse_sep (h : ∃ c ds d, cs = c :: ds ∧ d ∈ ds ∧ Rust.toDigit 10 d = none) :
    parseI32 cs = none ∧ parseI64 cs = none := by
  obtain ⟨c, ds, d, rfl, hd, hdigit⟩ := h
  exact ⟨by rw [parseI32, Rust.parseInt_eq_none hdigit hd]; rfl,
    by rw [parseI64, Rust.parseInt_eq_none hdigit hd]; rfl⟩

/-- A text that begins with a quote is no number. -/
theorem parse_quote (half : ℕ) : Rust.parseInt half ('"' :: cs) = none := by
  have hminus : ¬('"' :: cs).head? = some '-' := by simp
  have hquote : Rust.fromStrRadix half 10 ('"' :: cs) = none :=
    Rust.fromStrRadix_eq_none List.mem_cons_self (by decide) (by decide)
  rw [Rust.parseInt, if_neg hminus, hquote]
  rfl

end

section

variable (debug : String → String) (S : OutputSettings)

/-- A text that begins with a quote is read as itself or not at all. -/
theorem Element.strict (e : Element) : (e.textElement debug).Strict := by
  intro cs v h
  have hparsed : ∀ {α : Type} {name s : String} {w : α},
      parsed name debug s none ≠ .ok w := by
    intro α name s w h
    cases h
  cases e with
  | bool =>
    have hne : ∀ s : String, s.toList.head? ≠ some '"' → String.ofList ('"' :: cs) ≠ s := by
      intro s hs heq
      refine hs ?_
      rw [← heq, String.toList_ofList, List.head?_cons]
    have h : decodeText debug bool (String.ofList ('"' :: cs)) = .ok v := h
    rw [decodeText, if_neg, if_neg] at h
    · exact absurd h hparsed
    · exact not_or.mpr ⟨hne _ (by decide), not_or.mpr ⟨hne _ (by decide), hne _ (by decide)⟩⟩
    · exact not_or.mpr ⟨hne _ (by decide), not_or.mpr ⟨hne _ (by decide), hne _ (by decide)⟩⟩
  | i16 =>
    have h : decodeText debug i16 (String.ofList ('"' :: cs)) = .ok v := h
    rw [decodeText, String.toList_ofList, parseI16, parse_quote] at h
    exact absurd h hparsed
  | i32 =>
    have h : decodeText debug i32 (String.ofList ('"' :: cs)) = .ok v := h
    rw [decodeText, String.toList_ofList, parseI32, parse_quote] at h
    exact absurd h hparsed
  | i64 =>
    have h : decodeText debug i64 (String.ofList ('"' :: cs)) = .ok v := h
    rw [decodeText, String.toList_ofList, parseI64, parse_quote] at h
    exact absurd h hparsed
  | string => exact (Except.ok.inj h).symm

theorem bytea_out_iff (b : Bytes) :
    ofOutcome id (ByteaText.decodeText (ColumnType.bytea.out S b)) = .ok b ↔
      S.byteaHex = true ∨ ∀ x ∈ b, isPlain x = true := by
  rw [ofOutcome_eq_ok, ColumnType.out]
  by_cases hhex : S.byteaHex = true
  · rw [if_pos hhex]
    exact iff_of_true (ByteaText.decodeText_hexOut b) (.inl hhex)
  · rw [if_neg hhex, ByteaText.decodeText_escapeOut_iff, or_iff_right hhex]

theorem range_out_iff (e : Element) (r : PgRange e.Val) :
    ofOutcome (RangeTextError.error debug)
        ((e.textElement debug).decodeText ((e.textElement debug).rangeOut r)) = .ok r ↔
      (e = .string → ∀ v ∈ r.bounds, needsBoundQuote (e.out v) = false) := by
  rw [ofOutcome_eq_ok, TextElement.decodeText_rangeOut_iff,
    TextElement.boundsRead_iff (e.strict debug)]
  have hbounds : (e.textElement debug).PlainBounds r ↔
      ∀ v ∈ r.bounds, needsBoundQuote (e.out v) = false := by
    cases r with
    | empty => exact iff_of_true trivial fun v hv => absurd hv List.not_mem_nil
    | range lower upper lowerInclusive upperInclusive =>
      have hbound : ∀ bound : Option e.Val, (e.textElement debug).PlainBound bound ↔
          ∀ v ∈ bound.toList, needsBoundQuote (e.out v) = false := by
        intro bound
        exact forall_congr' fun v => imp_congr_left (Option.mem_toList.trans Option.mem_def).symm
      rw [TextElement.PlainBounds, hbound, hbound, PgRange.bounds, List.forall_mem_append]
  rw [hbounds]
  by_cases he : e = .string
  · exact ⟨fun h _ => h, fun h => h he⟩
  · exact iff_of_true (fun v _ => (e.out_plain he v).2.1) fun h => absurd h he

/-- What the client finds in the text of an array. -/
theorem parse_arrayOut_cases (xs : List String) :
    ArrayText.parse (arrayOut xs) = xs.mapM ArrayText.received ∨
      ArrayText.parse (arrayOut xs) = .ok [] ∧ ∃ x ∈ xs, needsQuote x = false ∧ trim x ≠ x := by
  have hbraces : ¬(¬(arrayOut xs).toList.head? = some '{' ∨
      ¬(arrayOut xs).toList.getLast? = some '}') := by
    rw [arrayOut, String.toList_ofList]
    simp [List.getLast?_cons]
  rw [ArrayText.parse, ArrayText.trim_arrayOut, if_neg hbraces, ArrayText.slice_arrayOut, ok_bind]
  cases xs with
  | nil => exact .inl rfl
  | cons x xs =>
    by_cases hempty : (trim (String.ofList (elementsOut (x :: xs)))).isEmpty = true
    · rw [if_pos hempty]
      exact .inr ⟨rfl, x, List.mem_cons_self, ArrayText.trim_elementsOut x xs hempty⟩
    · refine .inl ?_
      rw [if_neg hempty, ArrayText.loop_elements x xs [] (Nat.le_refl _)]
      cases (x :: xs).mapM ArrayText.received <;> rfl

/-- An array comes back exactly if none of its strings is trimmed. -/
theorem array_out_iff (e : Element) (vs : List e.Val) :
    e.decodeTextArray debug (arrayOut (vs.map e.out)) = .ok vs ↔
      (e = .string → ∀ v ∈ vs, needsQuote (e.out v) = false → trim (e.out v) = e.out v) := by
  have hparts : ArrayText.parse (arrayOut (vs.map e.out)) = .ok (vs.map e.out) ↔
      ∀ v ∈ vs, needsQuote (e.out v) = false → trim (e.out v) = e.out v := by
    rcases parse_arrayOut_cases (vs.map e.out) with h | ⟨h, x, hx, hplain, htrim⟩
    · rw [h, ArrayText.mapM_eq_ok_iff, List.forall_mem_map]
      exact forall₂_congr fun v _ => ArrayText.received_eq_iff (e.out v)
    · obtain ⟨v, hv, rfl⟩ := List.mem_map.mp hx
      rw [h]
      refine iff_of_false (fun heq => ?_) fun hall => htrim (hall v hv hplain)
      rw [← Except.ok.inj heq] at hx
      exact absurd hx List.not_mem_nil
  rw [Element.decodeTextArray]
  constructor
  · intro h he
    subst he
    rw [← hparts]
    cases hparse : ArrayText.parse (arrayOut (vs.map (Element.out .string))) with
    | error err =>
      rw [hparse] at h
      cases err <;> cases h
    | ok parts =>
      have hstrings : parts.mapM (fun part => ofExcept (Element.decodeText debug .string part)) =
          (.ok parts : Decoded (List String)) :=
        ArrayText.mapM_eq_ok_iff.mpr fun _ _ => rfl
      have hout : vs.map (Element.out .string) = vs := List.map_id vs
      rw [hparse, ofOutcome, ok_bind, hstrings] at h
      rw [hout]
      exact congrArg Except.ok (Except.ok.inj h)
  · intro h
    have hall : ∀ v ∈ vs, needsQuote (e.out v) = false → trim (e.out v) = e.out v := by
      intro v hv hplain
      by_cases he : e = .string
      · exact h he v hv hplain
      · exact (e.out_plain he v).2.2
    rw [hparts.mpr hall, ofOutcome, ok_bind, Rust.mapM_eq_ok, List.map_map]
    refine List.map_congr_left fun v _ => ?_
    rw [Function.comp_apply, e.decodeText_out]
    rfl

/-- **The text format brings back the values that are kept**, and no others. -/
theorem ColumnType.decodeText_out_iff (t : ColumnType) (v : t.Val) :
    t.decodeText debug (t.out S v) = .ok v ↔ t.Kept S v := by
  cases t with
  | element e =>
    exact iff_of_true (congrArg ofExcept (e.decodeText_out debug v)) trivial
  | bytea => exact bytea_out_iff S v
  | date =>
    exact Unbounded.decodeText_out_iff debug "PgDate" (fun n => (parse_sep (S.dateText_sep n)).1) v
  | timestamp =>
    exact Unbounded.decodeText_out_iff debug "PgTimestamp"
      (fun n => (parse_sep (S.timestampText_sep n)).2) v
  | array e => exact array_out_iff debug e v
  | range e => exact range_out_iff debug e v
  | composite name oid fields =>
    refine iff_of_false (fun h => ?_) id
    cases h

theorem bytea_returns (b : Bytes) :
    (ByteaText.decodeText (ColumnType.bytea.out S b)).Returns := by
  rw [ColumnType.out]
  split_ifs
  · rw [ByteaText.decodeText_hexOut]
    exact Rust.Outcome.returns_ok _
  · rw [ByteaText.decodeText, escapeOut, String.toList_ofList, ByteaText.isPrefixOf?_escape]
    exact Rust.Outcome.returns_ok _

theorem received_returns (x : String) : (ArrayText.received x).Returns := by
  rw [ArrayText.received]
  split_ifs
  · exact Rust.Outcome.returns_ok _
  · exact Rust.Outcome.returns_err _
  · exact Rust.Outcome.returns_ok _

theorem arrayOut_returns (xs : List String) : (ArrayText.parse (arrayOut xs)).Returns := by
  rcases parse_arrayOut_cases xs with h | ⟨h, -⟩
  · exact h ▸ Rust.Outcome.Returns.mapM received_returns xs
  · exact h ▸ Rust.Outcome.returns_ok _

/-- The text of a range has ASCII characters at its ends. -/
theorem rangeOut_returns {α : Type} (T : TextElement α) (r : PgRange α) :
    (T.decodeText (T.rangeOut r)).Returns := by
  cases r with
  | empty =>
    have h : T.decodeText (T.rangeOut .empty) = .ok .empty :=
      (T.decodeText_rangeOut_iff .empty).mpr trivial
    rw [h]
    exact Rust.Outcome.returns_ok _
  | range lower upper lowerInclusive upperInclusive =>
    have hopen : ∀ b : Bool, isWhitespace (if b then '[' else '(') = false ∧
        (if b then '[' else '(').utf8Size = 1 := by
      decide
    have hclose : ∀ b : Bool, isWhitespace (if b then ']' else ')') = false ∧
        (if b then ']' else ')').utf8Size = 1 := by
      decide
    have htrim : trim (T.rangeOut (.range lower upper lowerInclusive upperInclusive)) =
        T.rangeOut (.range lower upper lowerInclusive upperInclusive) :=
      trim_ends (hopen lowerInclusive).1 (hclose upperInclusive).1 _
    rw [T.decodeText_returns_iff, htrim]
    rintro ⟨-, hends⟩
    exact hends ⟨_, _, T.boundOut lower ++ ',' :: T.boundOut upper, String.toList_ofList,
      (hopen lowerInclusive).2, (hclose upperInclusive).2⟩

/-- **No text of the server makes the client panic.** -/
theorem ColumnType.decodeText_returns (t : ColumnType) (v : t.Val) :
    (t.decodeText debug (t.out S v)).Returns := by
  cases t with
  | element e => exact ofExcept_returns _
  | bytea => exact ofOutcome_returns (bytea_returns S v)
  | date => exact Unbounded.decodeText_returns debug "PgDate" _
  | timestamp => exact Unbounded.decodeText_returns debug "PgTimestamp" _
  | array e =>
    exact (ofOutcome_returns (arrayOut_returns _)).bind fun parts =>
      .mapM (fun part => ofExcept_returns _) parts
  | range e => exact ofOutcome_returns (rangeOut_returns (e.textElement debug) v)
  | composite name oid fields => exact fun p hp => by cases hp

end

end Resolute
