import Resolute.Codec.Basic
import Resolute.Wire.Encode
import Resolute.Wire.Receive

/-!
# Indexing in the parser of backend messages

The parsers of `backend.rs` index their body, cut slices out of it and add to positions in it.
`Wire.Backend` says what they compute; here each of them is written with these operations as they
are in the source, where one out of bounds or an addition that overflows is a panic, and a loop
that is given too few passes does not end: a `Checked` value may be a `Halt`.  Counts are at most
`i16::MAX`, so that `Vec::with_capacity` is no concern.

No body makes its parser panic or loop (`Checked.parseBody_eq`), and no buffer does
(`Checked.parseMessage_eq`): the checked parsers compute just what the plain ones do.
`parseMessage_framing` puts together what becomes of a buffer and of the frame it begins with.
-/

namespace Resolute

/-- Why a parser does not return a value. -/
inductive Halt where
  /-- It returns `Err(e)`. -/
  | err (e : String)
  | panic (p : Panic)
  /-- A `debug_assert!` does not hold. -/
  | assertFailed
  /-- A loop goes on after the passes it was given. -/
  | running
  deriving DecidableEq, Repr

/-- The outcome of a parser. -/
abbrev Checked (α : Type) := Except Halt α

namespace Checked

variable {α β : Type}

/-- A computation that has no panic in it. -/
def lift : Except String α → Checked α
  | .ok a => .ok a
  | .error e => .error (.err e)

/-- A computation inside one that changes a buffer. -/
def liftExcept {m : Type → Type} [Monad m] (x : Checked α) : ExceptT Halt m α :=
  ExceptT.mk (pure x)

/-- `a + b` of two `usize`s. -/
def add (a b : ℕ) : Checked ℕ :=
  if a + b < 18446744073709551616 then .ok (a + b) else .error (.panic .overflow)

/-- `a.checked_add(b).ok_or_else(..)`. -/
def addOr (e : String) (a b : ℕ) : Checked ℕ :=
  if a + b < 18446744073709551616 then .ok (a + b) else .error (.err e)

/-- `a - b` of two `usize`s. -/
def sub (a b : ℕ) : Checked ℕ := if b ≤ a then .ok (a - b) else .error (.panic .overflow)

/-- `body[i]`. -/
def index (body : Bytes) (i : ℕ) : Checked UInt8 :=
  match body[i]? with
  | some b => .ok b
  | none => .error (.panic .outOfBounds)

/-- `&body[i..j]`. -/
def slice (body : Bytes) (i j : ℕ) : Checked Bytes :=
  if i ≤ j ∧ j ≤ body.length then .ok ((body.take j).drop i) else .error (.panic .outOfBounds)

/-- `&body[i..]`. -/
def sliceFrom (body : Bytes) (i : ℕ) : Checked Bytes := slice body i body.length

/-- `u32::from_be_bytes([body[i], body[i + 1], body[i + 2], body[i + 3]])`. -/
def readU32 (body : Bytes) (i : ℕ) : Checked UInt32 := do
  return u32Be (← index body i) (← index body (i + 1)) (← index body (i + 2)) (← index body (i + 3))

/-- `i32::from_be_bytes`. -/
def readI32 (body : Bytes) (i : ℕ) : Checked Int32 := UInt32.toInt32 <$> readU32 body i

/-- `i16::from_be_bytes`. -/
def readI16 (body : Bytes) (i : ℕ) : Checked Int16 := do
  return i16Be (← index body i) (← index body (i + 1))

/-! ### The parsers -/

/-- `split_cstring`. -/
def splitCString (data : Bytes) : Checked (Bytes × Bytes) :=
  match data.findIdx? (· == 0) with
  | some pos => do return (← slice data 0 pos, ← sliceFrom data (pos + 1))
  | none => .ok (data, [])

/-- The loop of `parse_auth` over the SASL mechanisms. -/
def saslMechanisms (body : Bytes) : (fuel offset : ℕ) → List String → Checked (List String)
  | 0, _, _ => .error .running
  | fuel + 1, offset, mechanisms =>
    if offset < body.length then do
      if (← index body offset) = 0 then return mechanisms
      let (name, _) ← splitCString (← sliceFrom body offset)
      let nameStr ← lift (utf8String "SASL mechanism name" name)
      saslMechanisms body fuel (← add offset (← add name.length 1)) (mechanisms ++ [nameStr])
    else return mechanisms

def parseAuth (body : Bytes) : Checked (Option BackendMsg) :=
  if body.length < 4 then .error (.err "AuthenticationRequest: body too short")
  else do
    let authType ← readI32 body 0
    if authType = 0 then return some .authenticationOk
    else if authType = 3 then return some .authenticationCleartextPassword
    else if authType = 5 then
      if body.length < 8 then .error (.err "AuthenticationMd5Password: body too short for salt")
      else
        let salt ← slice body 4 8
        return some (.authenticationMd5Password (Vector.ofFn fun i => salt.getD i 0))
    else if authType = 10 then
      return some (.authenticationSASL (← saslMechanisms body body.length 4 []))
    else if authType = 11 then return some (.authenticationSASLContinue (← sliceFrom body 4))
    else if authType = 12 then return some (.authenticationSASLFinal (← sliceFrom body 4))
    else .error (.err s!"Unsupported auth type: {authType}")

def parseParameterStatus (body : Bytes) : Checked (Option BackendMsg) := do
  let (name, rest) ← splitCString body
  let (value, _) ← splitCString rest
  let nameStr ← lift (utf8String "ParameterStatus name" name)
  let valueStr ← lift (utf8String "ParameterStatus value" value)
  return some (.parameterStatus nameStr valueStr)

def parseBackendKeyData (body : Bytes) : Checked (Option BackendMsg) :=
  if body.length < 8 then .error (.err "BackendKeyData: body too short (need 8 bytes)")
  else do return some (.backendKeyData (← readI32 body 0) (← readI32 body 4))

def parseCommandComplete (body : Bytes) : Checked (Option BackendMsg) := do
  let (tag, _) ← splitCString body
  return some (.commandComplete (← lift (utf8String "CommandComplete tag" tag)))

/-- `read_cell_entry`. -/
def readCellEntry (body : Bytes) (off : ℕ) : Checked ((UInt32 × Int32) × ℕ) := do
  let bodyLen := body.length
  let afterLen ← addOr "DataRow: offset overflow at column length" off 4
  if bodyLen < afterLen then
    .error (.err s!"DataRow: truncated at length (offset {off}, body len {bodyLen})")
  else
    let len ← readI32 (← slice body off afterLen) 0
    if len < 0 then
      if len = -1 then return ((0, -1), afterLen)
      else .error (.err s!"DataRow: invalid negative column length {len}")
    else
      let ulen := len.toNatClampNeg
      let fin ← addOr "DataRow: offset overflow at column data" afterLen ulen
      if bodyLen < fin then
        .error (.err s!"DataRow: truncated column data (need {ulen} bytes at offset {afterLen}, body len {bodyLen})")
      else return ((UInt32.ofNat afterLen, len), fin)

/-- `RawRow::from_inline_unchecked`. -/
def fromInlineUnchecked (body : Bytes) (data : Vector (UInt32 × Int32) cellInlineCap)
    (len : UInt8) : Checked RawRow :=
  if len.toNat ≤ cellInlineCap then .ok ⟨body, .inline data len⟩ else .error .assertFailed

/-- `RawRow::from_entries`. -/
def fromEntries (body : Bytes) (entries : List (UInt32 × Int32)) : RawRow :=
  if entries.length ≤ cellInlineCap then
    ⟨body, .inline (Vector.ofFn fun i => entries.getD i (0, 0)) (.ofNat entries.length)⟩
  else ⟨body, .heap entries⟩

/-- The loop over the slots of an inline row: the next `n` cells go to the slots from `slot` on. -/
def fillSlots (body : Bytes) : (n slot off : ℕ) → Vector (UInt32 × Int32) cellInlineCap →
    Checked (Vector (UInt32 × Int32) cellInlineCap)
  | 0, _, _, data => .ok data
  | n + 1, slot, off, data => do
    let (entry, off') ← readCellEntry body off
    fillSlots body n (slot + 1) off' (data.setIfInBounds slot entry)

/-- The loop over the cells of a wider row: the next `n` of them. -/
def readCellEntries (body : Bytes) : (n off : ℕ) → Checked (List (UInt32 × Int32))
  | 0, _ => .ok []
  | n + 1, off => do
    let (entry, off') ← readCellEntry body off
    return entry :: (← readCellEntries body n off')

def parseDataRow (body : Bytes) : Checked (Option BackendMsg) :=
  if body.length < 2 then .error (.err "DataRow: body too short for column count")
  else do
    let numCols ← lift (i16ToUsize (← readI16 body 0) "DataRow")
    if numCols ≤ cellInlineCap then
      let data ← fillSlots body numCols 0 2 (.replicate cellInlineCap (0, 0))
      return some (.dataRow (← fromInlineUnchecked body data (.ofNat numCols)))
    else
      let entries ← readCellEntries body numCols 2
      return some (.dataRow (fromEntries body entries))

/-- One pass of the loop over the fields of a `RowDescription`. -/
def parseField (body : Bytes) (fieldIdx off : ℕ) : Checked (FieldDescription × ℕ) :=
  if body.length ≤ off then .error (.err s!"RowDescription: truncated at field {fieldIdx} name")
  else do
    let (name, _) ← splitCString (← sliceFrom body off)
    let offset ← add off (← add name.length 1)
    let bodyLen := body.length
    if bodyLen < (← add offset 18) then
      .error (.err s!"RowDescription: truncated at field {fieldIdx} metadata (need 18 bytes at offset {offset}, body len {bodyLen})")
    else
      let tableOid ← readU32 body offset
      let columnId ← readI16 body (offset + 4)
      let typeOid ← readU32 body (offset + 6)
      let typeSize ← readI16 body (offset + 10)
      let typeModifier ← readI32 body (offset + 12)
      let format ← readI16 body (offset + 16)
      let nameStr ← lift (utf8String s!"RowDescription field {fieldIdx} name" name)
      let field : FieldDescription := {
        name := nameStr
        tableOid
        columnId
        typeOid
        typeSize
        typeModifier
        format := if format = 1 then .binary else .text }
      return (field, offset + 18)

/-- The next `n` fields. -/
def parseFields (body : Bytes) : (n fieldIdx off : ℕ) → Checked (List FieldDescription)
  | 0, _, _ => .ok []
  | n + 1, fieldIdx, off => do
    let (field, off') ← parseField body fieldIdx off
    return field :: (← parseFields body n (fieldIdx + 1) off')

def parseRowDescription (body : Bytes) : Checked (Option BackendMsg) :=
  if body.length < 2 then .error (.err "RowDescription: body too short for field count")
  else do
    let numFields ← lift (i16ToUsize (← readI16 body 0) "RowDescription")
    return some (.rowDescription (← parseFields body numFields 0 2))

/-- The loops over parameter types and column formats: read `n` numbers of `width` bytes. -/
def readMany (read : ℕ → Checked α) (width : ℕ) : (n off : ℕ) → Checked (List α)
  | 0, _ => .ok []
  | n + 1, off => do
    let a ← read off
    return a :: (← readMany read width n (← add off width))

def parseParameterDescription (body : Bytes) : Checked (Option BackendMsg) :=
  if body.length < 2 then .error (.err "ParameterDescription: body too short for param count")
  else do
    let numParams ← lift (i16ToUsize (← readI16 body 0) "ParameterDescription")
    let need ← add 2 (numParams * 4)
    let haveLen := body.length
    if haveLen < need then
      .error (.err s!"ParameterDescription: body too short for {numParams} params (need {need}, have {haveLen})")
    else return some (.parameterDescription (← readMany (readU32 body) 4 numParams 2))

def parseNotification (body : Bytes) : Checked (Option BackendMsg) :=
  if body.length < 4 then .error (.err "NotificationResponse: body too short for pid")
  else do
    let pid ← readI32 body 0
    let (channel, rest) ← splitCString (← sliceFrom body 4)
    let (payload, _) ← splitCString rest
    let channelStr ← lift (utf8String "NotificationResponse channel" channel)
    let payloadStr ← lift (utf8String "NotificationResponse payload" payload)
    return some (.notificationResponse pid channelStr payloadStr)

def parseCopyResponse (body : Bytes) (isIn : Bool) : Checked (Option BackendMsg) :=
  if body.length < 3 then .error (.err "CopyResponse: body too short")
  else do
    let format ← index body 0
    let numCols ← lift (i16ToUsize (← readI16 body 1) "CopyResponse")
    if body.length < (← add 3 (numCols * 2)) then
      .error (.err s!"CopyResponse: body too short for {numCols} column formats")
    else
      let columnFormats ← readMany (readI16 body) 2 numCols 3
      if isIn then return some (.copyInResponse format columnFormats)
      else return some (.copyOutResponse format columnFormats)

/-- The loop of `parse_error_or_notice`. -/
def errorFields (body : Bytes) : (fuel offset : ℕ) → PgError → Checked PgError
  | 0, _, _ => .error .running
  | fuel + 1, offset, err =>
    if offset < body.length then do
      let fieldType ← index body offset
      if fieldType = 0 then return err
      let offset ← add offset 1
      if body.length ≤ offset then return err
      let (value, _) ← splitCString (← sliceFrom body offset)
      let valueStr := (fromUtf8 value).getD (fromUtf8Lossy value.length value)
      errorFields body fuel (← add offset (← add value.length 1)) (err.setField fieldType valueStr)
    else return err

def parseErrorOrNotice (body : Bytes) : Checked PgError := errorFields body (body.length + 1) 0 {}

/-- The `match` on the tag of `parse_message`. -/
def parseBody (tag : UInt8) (body : Bytes) : Checked (Option BackendMsg) :=
  match Char.ofUInt8 tag with
  | 'R' => parseAuth body
  | 'S' => parseParameterStatus body
  | 'K' => parseBackendKeyData body
  | 'Z' =>
    if body.isEmpty then .error (.err "ReadyForQuery: empty body")
    else do return some (.readyForQuery (← index body 0))
  | '1' => .ok (some .parseComplete)
  | '2' => .ok (some .bindComplete)
  | '3' => .ok (some .closeComplete)
  | 'n' => .ok (some .noData)
  | 'C' => parseCommandComplete body
  | 'D' => parseDataRow body
  | 'T' => parseRowDescription body
  | 'E' => do return some (.errorResponse (← parseErrorOrNotice body))
  | 'N' => do return some (.noticeResponse (← parseErrorOrNotice body))
  | 'I' => .ok (some .emptyQueryResponse)
  | 'A' => parseNotification body
  | 't' => parseParameterDescription body
  | 's' => .ok (some .portalSuspended)
  | 'G' => parseCopyResponse body true
  | 'H' => parseCopyResponse body false
  | 'd' => .ok (some (.copyData body))
  | 'c' => .ok (some .copyDone)
  | _ => .ok none

/-- A parser that changes the buffer it reads; the buffer stays changed when it fails. -/
abbrev Reader := ExceptT Halt (StateM Bytes)

/-- `buf.advance(n)`; a panic if there is less. -/
def advance (n : ℕ) : Reader Unit := do
  let buf ← get
  if n ≤ buf.length then set (buf.drop n) else throw (.panic .outOfBounds)

/-- `buf.split_to(n)`; a panic if there is less. -/
def splitTo (n : ℕ) : Reader Bytes := do
  let buf ← get
  if n ≤ buf.length then
    set (buf.drop n)
    return buf.take n
  else throw (.panic .outOfBounds)

/-- `parse_message`. -/
def parseMessageReader : Reader (Option BackendMsg) := do
  let buf ← get
  if buf.length < 5 then return none
  else
    let tag ← liftExcept (index buf 0)
    let lenRaw ← liftExcept (readI32 buf 1)
    if lenRaw < 4 then throw (.err s!"invalid message length: {lenRaw} (must be >= 4)")
    else
      let len := lenRaw.toNatClampNeg
      if maxMessageSize < len then
        throw (.err s!"message too large: {len} bytes (max {maxMessageSize})")
      else
        let total ← liftExcept (add 1 len)
        if buf.length < total then return none
        else
          advance 1
          advance 4
          let bodyLen ← liftExcept (sub len 4)
          let body ← splitTo bodyLen
          liftExcept (parseBody tag body)

/-- The result of `parse_message`, and the buffer afterwards. -/
def parseMessage (buf : Bytes) : Checked (Option BackendMsg) × Bytes :=
  parseMessageReader.run.run buf

/-! ### What is within bounds does not panic -/

@[simp] theorem lift_ok (a : α) : lift (.ok a) = .ok a := rfl

@[simp] theorem lift_error (e : String) : (lift (.error e) : Checked α) = .error (.err e) := rfl

theorem lift_bind (x : Except String α) (f : α → Except String β) :
    lift (x >>= f) = lift x >>= fun a => lift (f a) := by
  cases x <;> rfl

theorem lift_ite {c : Prop} [Decidable c] (x y : Except String α) :
    lift (if c then x else y) = if c then lift x else lift y :=
  apply_ite lift c x y

theorem add_eq {a b : ℕ} (h : a + b < 18446744073709551616) : add a b = .ok (a + b) := if_pos h

theorem addOr_eq (e : String) {a b : ℕ} (h : a + b < 18446744073709551616) :
    addOr e a b = .ok (a + b) :=
  if_pos h

theorem index_eq {body : Bytes} {i : ℕ} (h : i < body.length) :
    index body i = .ok (byteAt body i) := by
  rw [index, byteAt, List.getD_eq_getElem?_getD, List.getElem?_eq_getElem h]
  rfl

theorem slice_eq {body : Bytes} {i j : ℕ} (hi : i ≤ j) (hj : j ≤ body.length) :
    slice body i j = .ok ((body.take j).drop i) :=
  if_pos ⟨hi, hj⟩

theorem sliceFrom_eq {body : Bytes} {i : ℕ} (h : i ≤ body.length) :
    sliceFrom body i = .ok (body.drop i) := by
  rw [sliceFrom, slice_eq h le_rfl, List.take_length]

theorem readU32_eq {body : Bytes} {i : ℕ} (h : i + 4 ≤ body.length) :
    readU32 body i = .ok (u32At body i) := by
  simp only [readU32, index_eq (show i < body.length by omega),
    index_eq (show i + 1 < body.length by omega), index_eq (show i + 2 < body.length by omega),
    index_eq (show i + 3 < body.length by omega)]
  rfl

theorem readI32_eq {body : Bytes} {i : ℕ} (h : i + 4 ≤ body.length) :
    readI32 body i = .ok (i32At body i) := by
  rw [readI32, readU32_eq h]
  rfl

theorem readI16_eq {body : Bytes} {i : ℕ} (h : i + 2 ≤ body.length) :
    readI16 body i = .ok (i16At body i) := by
  simp only [readI16, index_eq (show i < body.length by omega),
    index_eq (show i + 1 < body.length by omega)]
  rfl

/-- `split_cstring` cuts at the first zero byte. -/
theorem splitCString_findIdx (data : Bytes) :
    Resolute.splitCString data =
      (data.take (data.findIdx (· == 0)), data.drop (data.findIdx (· == 0) + 1)) := by
  have hpred : (fun b : UInt8 => !(b != 0)) = (· == 0) := by
    funext b
    exact Bool.not_not _
  rw [Resolute.splitCString, List.takeWhile_eq_take_findIdx_not,
    List.dropWhile_eq_drop_findIdx_not, List.drop_drop, hpred]

/-- The slices of `split_cstring` are within bounds. -/
theorem splitCString_eq (data : Bytes) :
    splitCString data = .ok (Resolute.splitCString data) := by
  rw [splitCString_findIdx, splitCString]
  cases hpos : data.findIdx? (· == 0) with
  | none =>
    rw [List.findIdx?_eq_none_iff_findIdx_eq] at hpos
    rw [hpos, List.take_length, List.drop_eq_nil_of_le (Nat.le_succ _)]
  | some pos =>
    obtain ⟨hlt, rfl⟩ := List.findIdx?_eq_some_iff_findIdx_eq.mp hpos
    dsimp only
    rw [slice_eq (Nat.zero_le _) (Nat.le_of_lt hlt), sliceFrom_eq hlt]
    rfl

/-- What is behind a string and its terminator. -/
theorem splitCString_snd (data : Bytes) :
    (Resolute.splitCString data).2 = data.drop ((Resolute.splitCString data).1.length + 1) := by
  rw [splitCString_findIdx, List.length_take, Nat.min_eq_left List.findIdx_le_length]

theorem length_splitCString_le (data : Bytes) :
    (Resolute.splitCString data).1.length ≤ data.length := by
  rw [splitCString_findIdx, List.length_take]
  exact Nat.min_le_right _ _

theorem exists_of_bind_eq_ok {ε : Type} {x : Except ε α} {f : α → Except ε β} {b : β}
    (h : (x >>= f) = .ok b) : ∃ a, x = .ok a ∧ f a = .ok b := by
  cases x with
  | error e => cases h
  | ok a => exact ⟨a, rfl, h⟩

/-- The rest of a body from a position within it. -/
theorem drop_eq_byteAt_cons {body : Bytes} {i : ℕ} (h : i < body.length) :
    body.drop i = byteAt body i :: body.drop (i + 1) := by
  rw [List.drop_eq_getElem_cons h, byteAt, List.getD_eq_getElem?_getD, List.getElem?_eq_getElem h]
  rfl

/-- A count is at most `i16::MAX`. -/
theorem i16ToUsize_lt {val : Int16} {context : String} {n : ℕ}
    (h : i16ToUsize val context = .ok n) : n < 32768 := by
  rw [i16ToUsize] at h
  split_ifs at h
  cases h
  exact val.toNatClampNeg_lt

section Bodies

variable {body : Bytes} (hbody : body.length ≤ 268435456)
include hbody

/-- `split_cstring(&body[offset..])`, and the position behind the string. -/
theorem splitCString_drop {offset : ℕ} (hoff : offset ≤ body.length) :
    ∃ name, Resolute.splitCString (body.drop offset) =
        (name, body.drop (offset + (name.length + 1))) ∧
      splitCString (body.drop offset) = .ok (name, body.drop (offset + (name.length + 1))) ∧
      add name.length 1 = .ok (name.length + 1) ∧
      add offset (name.length + 1) = .ok (offset + (name.length + 1)) ∧
      offset + (name.length + 1) ≤ body.length + 1 := by
  have hlen : (Resolute.splitCString (body.drop offset)).1.length ≤ body.length - offset := by
    simpa using length_splitCString_le (body.drop offset)
  have hsplit : Resolute.splitCString (body.drop offset) =
      ((Resolute.splitCString (body.drop offset)).1,
        body.drop (offset + ((Resolute.splitCString (body.drop offset)).1.length + 1))) := by
    rw [← List.drop_drop, ← splitCString_snd]
  exact ⟨_, hsplit, (splitCString_eq _).trans (congrArg _ hsplit), add_eq (by omega),
    add_eq (by omega), by omega⟩

/-- A pass of the loop over the mechanisms takes a byte or more, so as many passes as there are
bytes, and one to see the end, are enough. -/
theorem saslMechanisms_eq {fuel fuel' offset : ℕ} (mechanisms : List String)
    (hfuel : body.length - offset < fuel) (hfuel' : body.length - offset ≤ fuel') :
    saslMechanisms body fuel offset mechanisms =
      lift ((Resolute.saslMechanisms fuel' (body.drop offset)).map (mechanisms ++ ·)) := by
  induction fuel generalizing fuel' offset mechanisms with
  | zero => exact absurd hfuel (Nat.not_lt_zero _)
  | succ fuel ih =>
    rw [saslMechanisms]
    by_cases hoff : offset < body.length
    · obtain ⟨k, rfl⟩ : ∃ k, fuel' = k + 1 := ⟨fuel' - 1, by omega⟩
      obtain ⟨name, hsplit, hsplit', hadd, hadd', -⟩ :=
        splitCString_drop hbody (Nat.le_of_lt hoff)
      rw [if_pos hoff, index_eq hoff, sliceFrom_eq (Nat.le_of_lt hoff)]
      simp only [ok_bind, hsplit', hadd, hadd']
      rw [drop_eq_byteAt_cons hoff] at hsplit ⊢
      rw [Resolute.saslMechanisms, hsplit]
      by_cases hzero : byteAt body offset = 0
      · rw [if_pos hzero, if_pos hzero]
        simp [Except.map]
        rfl
      · rw [if_neg hzero, if_neg hzero]
        dsimp only
        cases utf8String "SASL mechanism name" name with
        | error e => rfl
        | ok nameStr =>
          simp only [lift_ok, ok_bind]
          rw [ih (mechanisms ++ [nameStr]) (by omega) (show _ ≤ k by omega)]
          cases Resolute.saslMechanisms k (body.drop (offset + (name.length + 1))) with
          | error e => rfl
          | ok names => simp [Except.map, bind, Except.bind, pure, Except.pure]
    · have hnil : body.drop offset = [] := List.drop_eq_nil_of_le (Nat.not_lt.mp hoff)
      rw [if_neg hoff, hnil]
      cases fuel' <;> simp [Resolute.saslMechanisms, Except.map] <;> rfl

theorem parseAuth_eq : parseAuth body = lift (Resolute.parseAuth body) := by
  rw [parseAuth, Resolute.parseAuth, lift_ite]
  refine ite_congr rfl (fun _ => rfl) fun hlen => ?_
  rw [readI32_eq (by omega), ok_bind]
  dsimp only
  rw [lift_ite, lift_ite, lift_ite, lift_ite, lift_ite, lift_ite, lift_ite]
  refine ite_congr rfl (fun _ => rfl) fun _ => ite_congr rfl (fun _ => rfl) fun _ =>
    ite_congr rfl (fun _ => ?_) fun _ => ite_congr rfl (fun _ => ?_) fun _ =>
    ite_congr rfl (fun _ => ?_) fun _ => ite_congr rfl (fun _ => ?_) fun _ => rfl
  · refine ite_congr rfl (fun _ => rfl) fun hsalt => ?_
    have hget (i : Fin 4) : ((body.take 8).drop 4).getD i 0 = byteAt body (4 + i) := by
      rw [byteAt, List.getD_eq_getElem?_getD, List.getD_eq_getElem?_getD, List.getElem?_drop,
        List.getElem?_take_of_lt (by omega)]
    rw [slice_eq (by decide) (Nat.not_lt.mp hsalt), ok_bind]
    simp only [hget]
    rfl
  · rw [saslMechanisms_eq hbody [] (by omega) (Nat.sub_le _ _)]
    cases Resolute.saslMechanisms body.length (body.drop 4) <;> rfl
  · rw [sliceFrom_eq (Nat.not_lt.mp hlen)]
    rfl
  · rw [sliceFrom_eq (Nat.not_lt.mp hlen)]
    rfl

theorem parseBackendKeyData_eq :
    parseBackendKeyData body = lift (Resolute.parseBackendKeyData body) := by
  rw [parseBackendKeyData, Resolute.parseBackendKeyData, lift_ite]
  refine ite_congr rfl (fun _ => rfl) fun hlen => ?_
  rw [readI32_eq (by omega), readI32_eq (by omega)]
  rfl

omit hbody in
theorem parseParameterStatus_eq (body : Bytes) :
    parseParameterStatus body = lift (Resolute.parseParameterStatus body) := by
  rw [parseParameterStatus, splitCString_eq, ok_bind]
  dsimp only
  rw [splitCString_eq, ok_bind, Resolute.parseParameterStatus]
  dsimp only
  rw [lift_bind]
  refine congrArg _ (funext fun name => ?_)
  rw [lift_bind]
  rfl

omit hbody in
theorem parseCommandComplete_eq (body : Bytes) :
    parseCommandComplete body = lift (Resolute.parseCommandComplete body) := by
  rw [parseCommandComplete, splitCString_eq, ok_bind, Resolute.parseCommandComplete, lift_bind]
  rfl

/-- A cell is read within the body. -/
theorem readCellEntry_eq {off : ℕ} (hoff : off ≤ body.length) :
    readCellEntry body off = lift (Resolute.readCellEntry body off) := by
  rw [readCellEntry, Resolute.readCellEntry]
  dsimp only
  rw [addOr_eq _ (by omega), ok_bind, lift_ite]
  refine ite_congr rfl (fun _ => rfl) fun hlen => ?_
  have hbyte (i : ℕ) (hi : i < 4) :
      byteAt ((body.take (off + 4)).drop off) i = byteAt body (off + i) := by
    rw [byteAt, byteAt, List.getD_eq_getElem?_getD, List.getD_eq_getElem?_getD, List.getElem?_drop,
      List.getElem?_take_of_lt (by omega)]
  have hread : i32At ((body.take (off + 4)).drop off) 0 = i32At body off := by
    rw [i32At, u32At, hbyte _ (by decide), hbyte _ (by decide), hbyte _ (by decide),
      hbyte _ (by decide)]
    rfl
  have hclamp := (i32At body off).toNatClampNeg_lt
  rw [slice_eq (by omega) (by omega), ok_bind, readI32_eq (by simp; omega), ok_bind, hread,
    lift_ite, lift_ite]
  refine ite_congr rfl (fun _ => rfl) fun _ => ?_
  rw [addOr_eq _ (by omega), ok_bind, lift_ite]
  rfl

omit hbody in
/-- What follows a cell starts within the body. -/
theorem readCellEntry_le {off off' : ℕ} {entry : UInt32 × Int32}
    (h : Resolute.readCellEntry body off = .ok (entry, off')) : off' ≤ body.length := by
  rw [Resolute.readCellEntry] at h
  dsimp only at h
  split_ifs at h <;> cases h <;> omega

omit hbody in
theorem length_readCellEntries {n off : ℕ} {entries : List (UInt32 × Int32)}
    (h : Resolute.readCellEntries body n off = .ok entries) : entries.length = n := by
  induction n generalizing off entries with
  | zero =>
    cases h
    rfl
  | succ n ih =>
    rw [Resolute.readCellEntries] at h
    obtain ⟨cell, -, h⟩ := exists_of_bind_eq_ok h
    obtain ⟨entries', hentries, h⟩ := exists_of_bind_eq_ok h
    cases h
    rw [List.length_cons, ih hentries]

theorem readCellEntries_eq (n : ℕ) {off : ℕ} (hoff : off ≤ body.length) :
    readCellEntries body n off = lift (Resolute.readCellEntries body n off) := by
  induction n generalizing off with
  | zero => rfl
  | succ n ih =>
    rw [readCellEntries, Resolute.readCellEntries, readCellEntry_eq hbody hoff, lift_bind]
    cases hentry : Resolute.readCellEntry body off with
    | error e => rfl
    | ok cell =>
      simp only [lift_ok, ok_bind]
      rw [ih (readCellEntry_le hentry), lift_bind]
      rfl

/-- The slots hold the entries that a wider row would hold, and are unused behind them. -/
theorem fillSlots_eq (n : ℕ) {slot off : ℕ} (hoff : off ≤ body.length)
    (data : Vector (UInt32 × Int32) cellInlineCap) :
    fillSlots body n slot off data =
      lift ((Resolute.readCellEntries body n off).map fun entries => Vector.ofFn fun i =>
        if slot ≤ i then entries.getD (i - slot) data[i] else data[i]) := by
  induction n generalizing slot off data with
  | zero =>
    rw [fillSlots, Resolute.readCellEntries]
    refine congrArg _ (Vector.ext fun i hi => ?_)
    rw [Vector.getElem_ofFn]
    simp
  | succ n ih =>
    rw [fillSlots, Resolute.readCellEntries, readCellEntry_eq hbody hoff]
    cases hentry : Resolute.readCellEntry body off with
    | error e => rfl
    | ok cell =>
      rw [lift_ok, ok_bind, ok_bind]
      dsimp only
      rw [ih (readCellEntry_le hentry)]
      cases Resolute.readCellEntries body n cell.2 with
      | error e => rfl
      | ok entries =>
        rw [ok_bind]
        refine congrArg Except.ok (Vector.ext fun i hi => ?_)
        simp only [Vector.getElem_ofFn, Fin.getElem_fin]
        rcases Nat.lt_trichotomy i slot with hlt | rfl | hlt
        · rw [if_neg (by omega), if_neg (by omega), Vector.getElem_setIfInBounds_ne hi (by omega)]
        · rw [if_neg (by omega), if_pos le_rfl, Vector.getElem_setIfInBounds_self]
          simp
        · rw [if_pos (by omega), if_pos (by omega), Vector.getElem_setIfInBounds_ne hi (by omega),
            show i - slot = i - (slot + 1) + 1 by omega, List.getD_cons_succ]

theorem parseDataRow_eq : parseDataRow body = lift (Resolute.parseDataRow body) := by
  rw [parseDataRow, Resolute.parseDataRow, lift_ite]
  refine ite_congr rfl (fun _ => rfl) fun hlen => ?_
  rw [readI16_eq (by omega), ok_bind, lift_bind]
  refine congrArg _ (funext fun numCols => ?_)
  by_cases hinline : numCols ≤ cellInlineCap
  · rw [if_pos hinline, fillSlots_eq hbody numCols (by omega)]
    cases Resolute.readCellEntries body numCols 2 with
    | error e => rfl
    | ok entries =>
      have hlen : (UInt8.ofNat numCols).toNat ≤ cellInlineCap := by
        rw [UInt8.toNat_ofNat_of_lt' (Nat.lt_of_le_of_lt hinline (by decide))]
        exact hinline
      have hdata : (Vector.ofFn fun i : Fin cellInlineCap =>
          if 0 ≤ i.val then entries.getD (i - 0) (Vector.replicate cellInlineCap (0, 0))[i]
          else (Vector.replicate cellInlineCap (0, 0))[i]) =
          Vector.ofFn fun i => entries.getD i (0, 0) :=
        Vector.ext fun i hi => by simp
      rw [Except.map, lift_ok, ok_bind, hdata, ok_bind, if_pos hinline, fromInlineUnchecked,
        if_pos hlen]
      rfl
  · rw [if_neg hinline, readCellEntries_eq hbody _ (by omega)]
    cases hentries : Resolute.readCellEntries body numCols 2 with
    | error e => rfl
    | ok entries =>
      rw [lift_ok, ok_bind, ok_bind, if_neg hinline, fromEntries,
        if_neg (by rwa [length_readCellEntries hentries])]
      rfl

/-- A field is read within the body. -/
theorem parseField_eq (fieldIdx off : ℕ) :
    parseField body fieldIdx off = lift (Resolute.parseField body fieldIdx off) := by
  rw [parseField, Resolute.parseField, lift_ite]
  refine ite_congr rfl (fun _ => rfl) fun hoff => ?_
  have hoff : off ≤ body.length := by omega
  obtain ⟨name, hsplit, hsplit', hadd, hadd', hle⟩ := splitCString_drop hbody hoff
  rw [sliceFrom_eq hoff, ok_bind, hsplit', hsplit]
  dsimp only
  rw [Nat.add_assoc off, ok_bind, hadd, ok_bind, hadd', ok_bind]
  generalize off + (name.length + 1) = offset at hle
  rw [add_eq (by omega), ok_bind, lift_ite]
  refine ite_congr rfl (fun _ => rfl) fun hlen => ?_
  rw [readU32_eq (by omega), ok_bind, readI16_eq (by omega), ok_bind, readU32_eq (by omega),
    ok_bind, readI16_eq (by omega), ok_bind, readI32_eq (by omega), ok_bind,
    readI16_eq (by omega), ok_bind, lift_bind]
  rfl

theorem parseFields_eq (n fieldIdx off : ℕ) :
    parseFields body n fieldIdx off = lift (Resolute.parseFields body n fieldIdx off) := by
  induction n generalizing fieldIdx off with
  | zero => rfl
  | succ n ih =>
    rw [parseFields, Resolute.parseFields, parseField_eq hbody, lift_bind]
    refine congrArg _ (funext fun field => ?_)
    obtain ⟨field, off'⟩ := field
    dsimp only
    rw [ih, lift_bind]
    rfl

theorem parseRowDescription_eq :
    parseRowDescription body = lift (Resolute.parseRowDescription body) := by
  rw [parseRowDescription, Resolute.parseRowDescription, lift_ite]
  refine ite_congr rfl (fun _ => rfl) fun hlen => ?_
  rw [readI16_eq (by omega), ok_bind, lift_bind]
  refine congrArg _ (funext fun numFields => ?_)
  rw [parseFields_eq hbody, lift_bind]
  rfl

/-- Numbers that are all within the body are all read. -/
theorem readMany_eq {read : ℕ → Checked α} {value : ℕ → α} {width : ℕ}
    (hread : ∀ i, i + width ≤ body.length → read i = .ok (value i)) (n : ℕ) {off : ℕ}
    (hoff : off + n * width ≤ body.length) :
    readMany read width n off = .ok ((List.range n).map fun i => value (off + i * width)) := by
  induction n generalizing off with
  | zero => rfl
  | succ n ih =>
    rw [Nat.succ_mul] at hoff
    rw [readMany, hread off (by omega), ok_bind, add_eq (by omega), ok_bind, ih (by omega),
      ok_bind, List.range_succ_eq_map, List.map_cons, List.map_map]
    refine congrArg _ (congrArg₂ _ (by simp) (List.map_congr_left fun i _ => congrArg value ?_))
    rw [Nat.succ_mul]
    omega

theorem parseParameterDescription_eq :
    parseParameterDescription body = lift (Resolute.parseParameterDescription body) := by
  rw [parseParameterDescription, Resolute.parseParameterDescription, lift_ite]
  refine ite_congr rfl (fun _ => rfl) fun hlen => ?_
  rw [readI16_eq (by omega), ok_bind, lift_bind]
  cases hcount : i16ToUsize (i16At body 0) "ParameterDescription" with
  | error e => rfl
  | ok numParams =>
    have hlt := i16ToUsize_lt hcount
    simp only [lift_ok, ok_bind]
    rw [add_eq (by omega), ok_bind, lift_ite]
    refine ite_congr rfl (fun _ => rfl) fun hneed => ?_
    rw [readMany_eq hbody (fun i hi => readU32_eq hi) numParams (by omega)]
    rfl

theorem parseCopyResponse_eq (isIn : Bool) :
    parseCopyResponse body isIn = lift (Resolute.parseCopyResponse body isIn) := by
  rw [parseCopyResponse, Resolute.parseCopyResponse, lift_ite]
  refine ite_congr rfl (fun _ => rfl) fun hlen => ?_
  rw [index_eq (by omega), ok_bind, readI16_eq (by omega), ok_bind, lift_bind]
  cases hcount : i16ToUsize (i16At body 1) "CopyResponse" with
  | error e => rfl
  | ok numCols =>
    have hlt := i16ToUsize_lt hcount
    simp only [lift_ok, ok_bind]
    rw [add_eq (by omega), ok_bind, lift_ite]
    refine ite_congr rfl (fun _ => rfl) fun hneed => ?_
    rw [readMany_eq hbody (fun i hi => readI16_eq hi) numCols (by omega), lift_ite]
    rfl

theorem parseNotification_eq : parseNotification body = lift (Resolute.parseNotification body) := by
  rw [parseNotification, Resolute.parseNotification, lift_ite]
  refine ite_congr rfl (fun _ => rfl) fun hlen => ?_
  rw [readI32_eq (by omega), ok_bind, sliceFrom_eq (by omega), ok_bind, splitCString_eq, ok_bind]
  dsimp only
  rw [splitCString_eq, ok_bind, lift_bind]
  refine congrArg _ (funext fun channel => ?_)
  rw [lift_bind]
  rfl

/-- A pass of the loop over the fields takes two bytes or more. -/
theorem errorFields_eq {fuel fuel' offset : ℕ} (err : PgError)
    (hfuel : body.length - offset < fuel) (hfuel' : body.length - offset ≤ fuel') :
    errorFields body fuel offset err =
      .ok (Resolute.errorFields fuel' (body.drop offset) err) := by
  induction fuel generalizing fuel' offset err with
  | zero => exact absurd hfuel (Nat.not_lt_zero _)
  | succ fuel ih =>
    rw [errorFields]
    by_cases hoff : offset < body.length
    · obtain ⟨k, rfl⟩ : ∃ k, fuel' = k + 1 := ⟨fuel' - 1, by omega⟩
      rw [if_pos hoff, index_eq hoff, ok_bind, drop_eq_byteAt_cons hoff]
      dsimp only
      by_cases hzero : byteAt body offset = 0
      · rw [if_pos hzero]
        cases body.drop (offset + 1) <;> simp [Resolute.errorFields, hzero] <;> rfl
      · rw [if_neg hzero, add_eq (by omega), ok_bind]
        by_cases hnext : offset + 1 < body.length
        · obtain ⟨value, hsplit, hsplit', hadd, hadd', -⟩ :=
            splitCString_drop hbody (Nat.le_of_lt hnext)
          rw [if_neg (Nat.not_le.mpr hnext), sliceFrom_eq (Nat.le_of_lt hnext), ok_bind, hsplit',
            ok_bind]
          dsimp only
          rw [hadd, ok_bind, hadd', ok_bind, ih _ (by omega) (show _ ≤ k by omega)]
          rw [drop_eq_byteAt_cons hnext] at hsplit ⊢
          rw [Resolute.errorFields, if_neg hzero, hsplit]
        · rw [if_pos (Nat.not_lt.mp hnext), List.drop_eq_nil_of_le (Nat.not_lt.mp hnext)]
          rfl
    · have hnil : body.drop offset = [] := List.drop_eq_nil_of_le (Nat.not_lt.mp hoff)
      rw [if_neg hoff, hnil]
      cases fuel' <;> simp [Resolute.errorFields] <;> rfl

theorem parseErrorOrNotice_eq :
    parseErrorOrNotice body = .ok (Resolute.parseErrorOrNotice body) :=
  errorFields_eq hbody {} (by omega) (Nat.sub_le _ _)

/-- **No body makes its parser panic or loop.** -/
theorem parseBody_eq (tag : UInt8) : parseBody tag body = lift (Resolute.parseBody tag body) := by
  rw [parseBody, Resolute.parseBody.eq_def]
  generalize Char.ofUInt8 tag = c
  split
  case h_1 => exact parseAuth_eq hbody
  case h_2 => exact parseParameterStatus_eq body
  case h_3 => exact parseBackendKeyData_eq hbody
  case h_4 => cases body <;> rfl
  case h_9 => exact parseCommandComplete_eq body
  case h_10 => exact parseDataRow_eq hbody
  case h_11 => exact parseRowDescription_eq hbody
  case h_12 | h_13 =>
    rw [parseErrorOrNotice_eq hbody]
    rfl
  case h_15 => exact parseNotification_eq hbody
  case h_16 => exact parseParameterDescription_eq hbody
  case h_18 | h_19 => exact parseCopyResponse_eq hbody _
  case h_22 => simp_all
  all_goals rfl

end Bodies

/-! ### The buffer -/

theorem run_liftExcept_ok (a : α) (f : α → Reader β) (buf : Bytes) :
    (liftExcept (.ok a) >>= f).run.run buf = (f a).run.run buf :=
  rfl

theorem run_get (f : Bytes → Reader β) (buf : Bytes) :
    (get >>= f).run.run buf = (f buf).run.run buf :=
  rfl

theorem run_advance {n : ℕ} (f : Unit → Reader β) {buf : Bytes} (h : n ≤ buf.length) :
    (advance n >>= f).run.run buf = (f ()).run.run (buf.drop n) := by
  simp only [advance, bind_assoc, run_get, if_pos h]
  rfl

theorem run_splitTo {n : ℕ} (f : Bytes → Reader β) {buf : Bytes} (h : n ≤ buf.length) :
    (splitTo n >>= f).run.run buf = (f (buf.take n)).run.run (buf.drop n) := by
  simp only [splitTo, bind_assoc, run_get, if_pos h]
  rfl

theorem parseMessage_short {buf : Bytes} (h : buf.length < 5) :
    Resolute.parseMessage buf = (.ok none, buf) := by
  unfold Resolute.parseMessage
  split
  · simp only [List.length_cons] at h
    omega
  · rfl

theorem exists_header {buf : Bytes} (h : ¬buf.length < 5) :
    ∃ tag b₁ b₂ b₃ b₄ rest, buf = tag :: b₁ :: b₂ :: b₃ :: b₄ :: rest := by
  rcases buf with _ | ⟨tag, _ | ⟨b₁, _ | ⟨b₂, _ | ⟨b₃, _ | ⟨b₄, rest⟩⟩⟩⟩⟩
  all_goals simp at h
  exact ⟨tag, b₁, b₂, b₃, b₄, rest, rfl⟩

/-- No buffer makes the parser panic or loop. -/
theorem parseMessage_eq (buf : Bytes) :
    parseMessage buf = (lift (Resolute.parseMessage buf).1, (Resolute.parseMessage buf).2) := by
  rw [parseMessage, parseMessageReader, run_get]
  by_cases hshort : buf.length < 5
  · rw [if_pos hshort, parseMessage_short hshort]
    rfl
  obtain ⟨tag, b₁, b₂, b₃, b₄, rest, rfl⟩ := exists_header hshort
  rw [if_neg hshort, show index (tag :: b₁ :: b₂ :: b₃ :: b₄ :: rest) 0 = .ok tag from rfl,
    run_liftExcept_ok, show readI32 (tag :: b₁ :: b₂ :: b₃ :: b₄ :: rest) 1 =
      .ok (i32Be b₁ b₂ b₃ b₄) from rfl, run_liftExcept_ok, Resolute.parseMessage]
  by_cases hlow : i32Be b₁ b₂ b₃ b₄ < 4
  · rw [if_pos hlow, if_pos hlow]
    rfl
  rw [if_neg hlow, if_neg hlow]
  by_cases hhigh : maxMessageSize < (i32Be b₁ b₂ b₃ b₄).toNatClampNeg
  · rw [if_pos hhigh, if_pos hhigh]
    rfl
  rw [if_neg hhigh, if_neg hhigh]
  have hmax : maxMessageSize = 268435456 := rfl
  have hlen : 4 ≤ (i32Be b₁ b₂ b₃ b₄).toNatClampNeg :=
    Int32.toNatClampNeg_le (Int32.not_lt.mp hlow)
  generalize (i32Be b₁ b₂ b₃ b₄).toNatClampNeg = len at hhigh hlen
  rw [add_eq (by omega), run_liftExcept_ok]
  by_cases hpartial : (tag :: b₁ :: b₂ :: b₃ :: b₄ :: rest).length < 1 + len
  · rw [if_pos hpartial, if_pos hpartial]
    rfl
  rw [if_neg hpartial, if_neg hpartial]
  simp only [List.length_cons] at hpartial
  rw [run_advance _ (by simp), run_advance _ (by simp), sub, if_pos hlen, run_liftExcept_ok,
    List.drop_succ_cons, List.drop_zero, List.drop_succ_cons, List.drop_succ_cons,
    List.drop_succ_cons, List.drop_succ_cons, List.drop_zero, run_splitTo _ (by omega),
    parseBody_eq (by rw [List.length_take]; omega)]
  rfl

end Checked

/-- **Framing and locality.**  A buffer without a complete frame stays as it is, with no result, and
so does one with a length that is not accepted, with an error.  A complete frame is taken off
whatever is in it and behind it, and decides what is returned.  There is no other kind of buffer. -/
theorem parseMessage_framing (buf : Bytes) :
    (badHeader buf = false → hasFrame buf = false → Checked.parseMessage buf = (.ok none, buf)) ∧
    (badHeader buf = true → ∃ e, Checked.parseMessage buf = (.error (.err e), buf)) ∧
    (hasFrame buf = true → ∃ (f : Frame) (t : Bytes), f.isComplete = true ∧ buf = f.encode ++ t) ∧
    ∀ f : Frame, f.isComplete = true → ∃ x : Except String (Option BackendMsg),
      ∀ t, Checked.parseMessage (f.encode ++ t) = (Checked.lift x, t) := by
  refine ⟨fun hbad hframe => ?_, fun hbad => ?_, exists_frame, fun f hf => ?_⟩
  · rw [Checked.parseMessage_eq, parseMessage_incomplete hbad hframe]
    rfl
  · obtain ⟨e, he⟩ := parseMessage_badHeader hbad
    refine ⟨e, ?_⟩
    rw [Checked.parseMessage_eq, he]
    rfl
  · refine ⟨parseBody f.tag f.body, fun t => ?_⟩
    rw [Checked.parseMessage_eq, f.parseMessage_encode hf]

end Resolute
