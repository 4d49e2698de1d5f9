import Resolute.Wire.Types

/-!
# The parser of backend messages

A message of the server is a *frame*: a tag byte, a length that counts itself and the body, and the
body.  `parse_message` takes the first frame off the receive buffer, if it is there in full, and
hands its body to the parser of its tag, which is `parseBody`.  A frame is gone from the buffer
before its body is looked at, so a malformed body costs one frame; a length the parser does not
accept costs nothing.

What a buffer begins with decides between three cases:

* a `Frame` in front of anything is taken off, whatever its body (`parseMessage_frame`);
* a header with a length that is out of range (`badHeader`) is an error, and stays;
* with anything less the parser waits (`parseMessage_incomplete`).

Exactly the frames with tag `Z` are parsed as `ReadyForQuery` (`isReady_of_parseBody`), which is
what keeps requests and responses in step.
-/

namespace Resolute

/-! ### Integers -/

/-- `u32::from_be_bytes`. -/
def u32Be (a b c d : UInt8) : UInt32 :=
  UInt32.ofNat (((a.toNat * 256 + b.toNat) * 256 + c.toNat) * 256 + d.toNat)

/-- `i32::from_be_bytes`. -/
def i32Be (a b c d : UInt8) : Int32 := (u32Be a b c d).toInt32

/-- `i16::from_be_bytes`. -/
def i16Be (a b : UInt8) : Int16 := (UInt16.ofNat (a.toNat * 256 + b.toNat)).toInt16

/-- `body[i]`; every use below is within the bounds of the body. -/
def byteAt (body : Bytes) (i : ℕ) : UInt8 := body.getD i 0

def u32At (body : Bytes) (i : ℕ) : UInt32 :=
  u32Be (byteAt body i) (byteAt body (i + 1)) (byteAt body (i + 2)) (byteAt body (i + 3))

def i32At (body : Bytes) (i : ℕ) : Int32 := (u32At body i).toInt32

def i16At (body : Bytes) (i : ℕ) : Int16 := i16Be (byteAt body i) (byteAt body (i + 1))

/-- `u32::to_be_bytes`. -/
def u32Bytes (n : UInt32) : Bytes :=
  [UInt8.ofNat (n.toNat / 16777216), UInt8.ofNat (n.toNat / 65536), UInt8.ofNat (n.toNat / 256),
    UInt8.ofNat n.toNat]

theorem u32Be_u32Bytes (n : UInt32) :
    u32Be (.ofNat (n.toNat / 16777216)) (.ofNat (n.toNat / 65536)) (.ofNat (n.toNat / 256))
      (.ofNat n.toNat) = n := by
  have hn : n.toNat < 4294967296 := n.toNat_lt
  have hdigits : ((n.toNat / 16777216 % 256 * 256 + n.toNat / 65536 % 256) * 256 +
      n.toNat / 256 % 256) * 256 + n.toNat % 256 = n.toNat := by omega
  simp only [u32Be, UInt8.toNat_ofNat']
  rw [hdigits, UInt32.ofNat_toNat]

theorem i32Be_u32Bytes (n : Int32) :
    i32Be (.ofNat (n.toUInt32.toNat / 16777216)) (.ofNat (n.toUInt32.toNat / 65536))
      (.ofNat (n.toUInt32.toNat / 256)) (.ofNat n.toUInt32.toNat) = n := by
  rw [i32Be, u32Be_u32Bytes, Int32.toInt32_toUInt32]

/-! ### Strings -/

/-- What a byte string begins with. -/
inductive Utf8Step where
  /-- A character of `width` bytes. -/
  | char (width : ℕ)
  /-- `len` bytes that are no part of a character. -/
  | invalid (len : ℕ)
  /-- The beginning of a character, or nothing. -/
  | incomplete
  deriving DecidableEq, Repr

/-- The number of bytes of the character that `first` begins, `0` if it begins none. -/
def utf8Width (first : UInt8) : ℕ :=
  if first < 0x80 then 1
  else if 0xC2 ≤ first ∧ first ≤ 0xDF then 2
  else if 0xE0 ≤ first ∧ first ≤ 0xEF then 3
  else if 0xF0 ≤ first ∧ first ≤ 0xF4 then 4
  else 0

/-- A continuation byte. -/
def utf8Continues (b : UInt8) : Bool := 0x80 ≤ b && b ≤ 0xBF

/-- The bytes that may follow `first`: no overlong forms, no surrogates, nothing above
`0x10FFFF`. -/
def utf8Second (first b : UInt8) : Bool :=
  if first = 0xE0 then 0xA0 ≤ b && b ≤ 0xBF
  else if first = 0xED then 0x80 ≤ b && b ≤ 0x9F
  else if first = 0xF0 then 0x90 ≤ b && b ≤ 0xBF
  else if first = 0xF4 then 0x80 ≤ b && b ≤ 0x8F
  else utf8Continues b

/-- `n` more bytes of a character of which `seen` were read. -/
def utf8Tail (accept : UInt8 → Bool) : (n seen : ℕ) → Bytes → Utf8Step
  | 0, seen, _ => .char seen
  | _ + 1, _, [] => .incomplete
  | n + 1, seen, b :: rest =>
    if accept b then utf8Tail utf8Continues n (seen + 1) rest else .invalid seen

def utf8Step : Bytes → Utf8Step
  | [] => .incomplete
  | first :: rest =>
    match utf8Width first with
    | 0 => .invalid 1
    | n + 1 => utf8Tail (utf8Second first) n 1 rest

/-- The text of a `Utf8Error`, from position `index` on; `fuel` bounds the characters before it. -/
def utf8Error : (fuel index : ℕ) → Bytes → String
  | 0, index, _ => s!"incomplete utf-8 byte sequence from index {index}"
  | fuel + 1, index, bs =>
    match utf8Step bs with
    | .char width => utf8Error fuel (index + width) (bs.drop width)
    | .invalid len => s!"invalid utf-8 sequence of {len} bytes from index {index}"
    | .incomplete => s!"incomplete utf-8 byte sequence from index {index}"

/-- `String::from_utf8`, with the caller's message in front of the error. -/
def utf8String (context : String) (bs : Bytes) : Except String String :=
  match fromUtf8 bs with
  | some s => .ok s
  | none =>
    let e := utf8Error bs.length 0 bs
    .error s!"{context} is not valid UTF-8: {e}"

/-- `String::from_utf8_lossy`; `fuel` bounds the pieces. -/
def fromUtf8Lossy : (fuel : ℕ) → Bytes → String
  | 0, _ | _, [] => ""
  | fuel + 1, b :: rest =>
    let bs := b :: rest
    match utf8Step bs with
    | .char width => (fromUtf8 (bs.take width)).getD "" ++ fromUtf8Lossy fuel (bs.drop width)
    | .invalid len => "\uFFFD" ++ fromUtf8Lossy fuel (bs.drop len)
    | .incomplete => "\uFFFD"

/-- Split a null-terminated string from a byte slice. -/
def splitCString (data : Bytes) : Bytes × Bytes :=
  (data.takeWhile (· != 0), (data.dropWhile (· != 0)).drop 1)

/-- Convert `i16` to `usize`, rejecting negative values. -/
def i16ToUsize (val : Int16) (context : String) : Except String ℕ :=
  if val < 0 then .error s!"{context}: negative count {val}" else .ok val.toNatClampNeg

/-! ### Bodies -/

/-- What the parser of a body returns. -/
abbrev Parsed := Except String (Option BackendMsg)

/-- The SASL mechanism names; a pass takes at least one byte, so `fuel` may be the length. -/
def saslMechanisms : (fuel : ℕ) → Bytes → Except String (List String)
  | 0, _ | _, [] => .ok []
  | fuel + 1, b :: rest =>
    if b = 0 then .ok []
    else do
      let (name, rest') := splitCString (b :: rest)
      let nameStr ← utf8String "SASL mechanism name" name
      let mechanisms ← saslMechanisms fuel rest'
      return nameStr :: mechanisms

def parseAuth (body : Bytes) : Parsed :=
  if body.length < 4 then .error "AuthenticationRequest: body too short"
  else
    let authType := i32At body 0
    if authType = 0 then .ok (some .authenticationOk)
    else if authType = 3 then .ok (some .authenticationCleartextPassword)
    else if authType = 5 then
      if body.length < 8 then .error "AuthenticationMd5Password: body too short for salt"
      else .ok (some (.authenticationMd5Password (Vector.ofFn fun i => byteAt body (4 + i))))
    else if authType = 10 then
      (saslMechanisms body.length (body.drop 4)).map fun ms => some (.authenticationSASL ms)
    else if authType = 11 then .ok (some (.authenticationSASLContinue (body.drop 4)))
    else if authType = 12 then .ok (some (.authenticationSASLFinal (body.drop 4)))
    else .error s!"Unsupported auth type: {authType}"

def parseParameterStatus (body : Bytes) : Parsed := do
  let (name, rest) := splitCString body
  let (value, _) := splitCString rest
  let nameStr ← utf8String "ParameterStatus name" name
  let valueStr ← utf8String "ParameterStatus value" value
  return some (.parameterStatus nameStr valueStr)

def parseBackendKeyData (body : Bytes) : Parsed :=
  if body.length < 8 then .error "BackendKeyData: body too short (need 8 bytes)"
  else .ok (some (.backendKeyData (i32At body 0) (i32At body 4)))

def parseCommandComplete (body : Bytes) : Parsed := do
  let tagStr ← utf8String "CommandComplete tag" (splitCString body).1
  return some (.commandComplete tagStr)

/-- One cell: its entry and the offset after it.  Offsets stay within the body, so the additions of
the source do not overflow. -/
def readCellEntry (body : Bytes) (off : ℕ) : Except String ((UInt32 × Int32) × ℕ) :=
  let bodyLen := body.length
  let afterLen := off + 4
  if bodyLen < afterLen then
    .error s!"DataRow: truncated at length (offset {off}, body len {bodyLen})"
  else
    let len := i32At body off
    if len < 0 then
      if len = -1 then .ok ((0, -1), afterLen)
      else .error s!"DataRow: invalid negative column length {len}"
    else
      let ulen := len.toNatClampNeg
      if bodyLen < afterLen + ulen then
        .error s!"DataRow: truncated column data (need {ulen} bytes at offset {afterLen}, body len {bodyLen})"
      else .ok ((UInt32.ofNat afterLen, len), afterLen + ulen)

/-- The next `n` cells. -/
def readCellEntries (body : Bytes) : (n off : ℕ) → Except String (List (UInt32 × Int32))
  | 0, _ => .ok []
  | n + 1, off => do
    let (entry, off') ← readCellEntry body off
    let entries ← readCellEntries body n off'
    return entry :: entries

def parseDataRow (body : Bytes) : Parsed :=
  if body.length < 2 then .error "DataRow: body too short for column count"
  else do
    let numCols ← i16ToUsize (i16At body 0) "DataRow"
    let entries ← readCellEntries body numCols 2
    if numCols ≤ cellInlineCap then
      return some (.dataRow ⟨body, .inline (Vector.ofFn fun i => entries.getD i (0, 0))
          (.ofNat numCols)⟩)
    else return some (.dataRow ⟨body, .heap entries⟩)

/-- One field of a `RowDescription`, and the offset after it. -/
def parseField (body : Bytes) (fieldIdx off : ℕ) : Except String (FieldDescription × ℕ) :=
  if body.length ≤ off then .error s!"RowDescription: truncated at field {fieldIdx} name"
  else
    let name := (splitCString (body.drop off)).1
    let offset := off + name.length + 1
    let bodyLen := body.length
    if bodyLen < offset + 18 then
      .error s!"RowDescription: truncated at field {fieldIdx} metadata (need 18 bytes at offset {offset}, body len {bodyLen})"
    else do
      let nameStr ← utf8String s!"RowDescription field {fieldIdx} name" name
      let field : FieldDescription := {
        name := nameStr
        tableOid := u32At body offset
        columnId := i16At body (offset + 4)
        typeOid := u32At body (offset + 6)
        typeSize := i16At body (offset + 10)
        typeModifier := i32At body (offset + 12)
        format := if i16At body (offset + 16) = 1 then .binary else .text }
      return (field, offset + 18)

/-- The next `n` fields. -/
def parseFields (body : Bytes) : (n fieldIdx off : ℕ) → Except String (List FieldDescription)
  | 0, _, _ => .ok []
  | n + 1, fieldIdx, off => do
    let (field, off') ← parseField body fieldIdx off
    let fields ← parseFields body n (fieldIdx + 1) off'
    return field :: fields

def parseRowDescription (body : Bytes) : Parsed :=
  if body.length < 2 then .error "RowDescription: body too short for field count"
  else do
    let numFields ← i16ToUsize (i16At body 0) "RowDescription"
    let fields ← parseFields body numFields 0 2
    return some (.rowDescription fields)

def parseParameterDescription (body : Bytes) : Parsed :=
  if body.length < 2 then .error "ParameterDescription: body too short for param count"
  else do
    let numParams ← i16ToUsize (i16At body 0) "ParameterDescription"
    let need := 2 + numParams * 4
    let haveLen := body.length
    if haveLen < need then
      .error s!"ParameterDescription: body too short for {numParams} params (need {need}, have {haveLen})"
    else
      return some
        (.parameterDescription ((List.range numParams).map fun i => u32At body (2 + i * 4)))

def parseNotification (body : Bytes) : Parsed :=
  if body.length < 4 then .error "NotificationResponse: body too short for pid"
  else do
    let (channel, rest) := splitCString (body.drop 4)
    let (payload, _) := splitCString rest
    let channelStr ← utf8String "NotificationResponse channel" channel
    let payloadStr ← utf8String "NotificationResponse payload" payload
    return some (.notificationResponse (i32At body 0) channelStr payloadStr)

def parseCopyResponse (body : Bytes) (isIn : Bool) : Parsed :=
  if body.length < 3 then .error "CopyResponse: body too short"
  else do
    let numCols ← i16ToUsize (i16At body 1) "CopyResponse"
    let columnFormats := (List.range numCols).map fun i => i16At body (3 + i * 2)
    if body.length < 3 + numCols * 2 then
      .error s!"CopyResponse: body too short for {numCols} column formats"
    else if isIn then return some (.copyInResponse (byteAt body 0) columnFormats)
    else return some (.copyOutResponse (byteAt body 0) columnFormats)

/-- Keep the value of a field of an error or a notice. -/
def PgError.setField (err : PgError) (fieldType : UInt8) (value : String) : PgError :=
  match Char.ofUInt8 fieldType with
  | 'S' => { err with severity := value }
  | 'C' => { err with code := value }
  | 'M' => { err with message := value }
  | 'D' => { err with detail := some value }
  | 'H' => { err with hint := some value }
  | 'P' => { err with position := some value }
  | _ => err

/-- The fields of an error or a notice; a pass takes at least two bytes. -/
def errorFields : (fuel : ℕ) → Bytes → PgError → PgError
  | fuel + 1, fieldType :: b :: rest, err =>
    if fieldType = 0 then err
    else
      let (value, rest') := splitCString (b :: rest)
      let valueStr := (fromUtf8 value).getD (fromUtf8Lossy value.length value)
      errorFields fuel rest' (err.setField fieldType valueStr)
  | _, _, err => err

def parseErrorOrNotice (body : Bytes) : PgError := errorFields body.length body {}

/-- The parser of a body with the given tag; frames of an unknown tag are skipped. -/
def parseBody (tag : UInt8) (body : Bytes) : Parsed :=
  match Char.ofUInt8 tag with
  | 'R' => parseAuth body
  | 'S' => parseParameterStatus body
  | 'K' => parseBackendKeyData body
  | 'Z' =>
    match body with
    | [] => .error "ReadyForQuery: empty body"
    | status :: _ => .ok (some (.readyForQuery status))
  | '1' => .ok (some .parseComplete)
  | '2' => .ok (some .bindComplete)
  | '3' => .ok (some .closeComplete)
  | 'n' => .ok (some .noData)
  | 'C' => parseCommandComplete body
  | 'D' => parseDataRow body
  | 'T' => parseRowDescription body
  | 'E' => .ok (some (.errorResponse (parseErrorOrNotice body)))
  | 'N' => .ok (some (.noticeResponse (parseErrorOrNotice body)))
  | 'I' => .ok (some .emptyQueryResponse)
  | 'A' => parseNotification body
  | 't' => parseParameterDescription body
  | 's' => .ok (some .portalSuspended)
  | 'G' => parseCopyResponse body true
  | 'H' => parseCopyResponse body false
  | 'd' => .ok (some (.copyData body))
  | 'c' => .ok (some .copyDone)
  | _ => .ok none

/-! ### Frames -/

/-- Maximum allowed message size (256 MB). -/
def maxMessageSize : ℕ := 256 * 1024 * 1024

/-- Try to parse one complete backend message from the buffer; also what is left of it. -/
def parseMessage : Bytes → Parsed × Bytes
  | tag :: b₁ :: b₂ :: b₃ :: b₄ :: rest =>
    let buf := tag :: b₁ :: b₂ :: b₃ :: b₄ :: rest
    let lenRaw := i32Be b₁ b₂ b₃ b₄
    if lenRaw < 4 then (.error s!"invalid message length: {lenRaw} (must be >= 4)", buf)
    else
      let len := lenRaw.toNatClampNeg
      if maxMessageSize < len then
        (.error s!"message too large: {len} bytes (max {maxMessageSize})", buf)
      else if buf.length < 1 + len then (.ok none, buf)
      else (parseBody tag (rest.take (len - 4)), rest.drop (len - 4))
  | buf => (.ok none, buf)

/-- A frame as the server sends it. -/
structure Frame where
  tag : UInt8
  /-- The length field: the bytes of itself and of the body. -/
  length : Int32
  body : Bytes
  deriving DecidableEq, Repr

/-- The parser accepts the length. -/
def acceptsLength (lenRaw : Int32) : Bool :=
  decide (4 ≤ lenRaw) && decide (lenRaw.toNatClampNeg ≤ maxMessageSize)

namespace Frame

/-- The bytes of the frame. -/
def encode (f : Frame) : Bytes := f.tag :: (u32Bytes f.length.toUInt32 ++ f.body)

/-- The length field is right, unless it is one that the parser does not accept. -/
def isFramed (f : Frame) : Bool :=
  !acceptsLength f.length || f.length.toNatClampNeg == f.body.length + 4

end Frame

/-- The buffer begins with a length that the parser does not accept. -/
def badHeader : Bytes → Bool
  | _ :: b₁ :: b₂ :: b₃ :: b₄ :: _ => !acceptsLength (i32Be b₁ b₂ b₃ b₄)
  | _ => false

/-- The buffer begins with a frame that is there in full. -/
def hasFrame : Bytes → Bool
  | _ :: b₁ :: b₂ :: b₃ :: b₄ :: rest =>
    let lenRaw := i32Be b₁ b₂ b₃ b₄
    acceptsLength lenRaw && decide (lenRaw.toNatClampNeg ≤ rest.length + 4)
  | _ => false

theorem hasFrame_of_badHeader {buf : Bytes} (h : badHeader buf = true) : hasFrame buf = false := by
  match buf, h with
  | tag :: b₁ :: b₂ :: b₃ :: b₄ :: rest, h =>
    have hlen : acceptsLength (i32Be b₁ b₂ b₃ b₄) = false := by simpa [badHeader] using h
    simp [hasFrame, hlen]

theorem badHeader_append {buf : Bytes} (h : badHeader buf = true) (more : Bytes) :
    badHeader (buf ++ more) = true := by
  match buf, h with
  | tag :: b₁ :: b₂ :: b₃ :: b₄ :: rest, h => exact h

theorem parseMessage_badHeader {buf : Bytes} (h : badHeader buf = true) :
    ∃ e, parseMessage buf = (.error e, buf) := by
  match buf, h with
  | tag :: b₁ :: b₂ :: b₃ :: b₄ :: rest, h =>
    simp only [badHeader, acceptsLength, Bool.not_eq_true', Bool.and_eq_false_iff,
      decide_eq_false_iff_not] at h
    by_cases hlow : i32Be b₁ b₂ b₃ b₄ < 4
    · exact ⟨_, by rw [parseMessage, if_pos hlow]⟩
    · have hhigh : maxMessageSize < (i32Be b₁ b₂ b₃ b₄).toNatClampNeg := by
        rcases h with h | h
        · exact absurd (Int32.not_le.1 h) hlow
        · exact Nat.not_le.1 h
      exact ⟨_, by rw [parseMessage, if_neg hlow, if_pos hhigh]⟩

/-- A buffer that begins neither with a bad length nor with a complete frame stays as it is. -/
theorem parseMessage_incomplete {buf : Bytes} (h : badHeader buf = false)
    (hf : hasFrame buf = false) : parseMessage buf = (.ok none, buf) := by
  unfold parseMessage
  split
  · rename_i tag b₁ b₂ b₃ b₄ rest
    simp only [badHeader, Bool.not_eq_false'] at h
    simp only [hasFrame, h, Bool.true_and, decide_eq_false_iff_not, Nat.not_le] at hf
    simp only [acceptsLength, Bool.and_eq_true, decide_eq_true_eq] at h
    have hlow : ¬ i32Be b₁ b₂ b₃ b₄ < 4 := Int32.not_lt.2 h.1
    have hlen : (tag :: b₁ :: b₂ :: b₃ :: b₄ :: rest).length <
        1 + (i32Be b₁ b₂ b₃ b₄).toNatClampNeg := by simp only [List.length_cons]; omega
    rw [if_neg hlow, if_neg (Nat.not_lt.2 h.2), if_pos hlen]
  · rfl

theorem Frame.length_encode (f : Frame) : f.encode.length = f.body.length + 5 := by
  simp [encode, u32Bytes]

/-- A complete frame at the beginning of a buffer is the one that was sent. -/
theorem accepts_of_hasFrame {f : Frame} {buf tail : Bytes} (h : hasFrame buf = true)
    (hp : buf <+: f.encode ++ tail) :
    acceptsLength f.length = true ∧ f.length.toNatClampNeg < buf.length ∧
      buf.head? = some f.tag := by
  match buf, h with
  | tag :: b₁ :: b₂ :: b₃ :: b₄ :: rest, h =>
    obtain ⟨t, ht⟩ := hp
    simp only [Frame.encode, u32Bytes, List.cons_append, List.nil_append, List.cons.injEq] at ht
    obtain ⟨rfl, rfl, rfl, rfl, rfl, -⟩ := ht
    rw [hasFrame, i32Be_u32Bytes, Bool.and_eq_true, decide_eq_true_eq] at h
    refine ⟨h.1, ?_, rfl⟩
    simp only [List.length_cons]
    omega

/-- **Framing.**  A frame in front of anything is taken off, and its body decides the result. -/
theorem parseMessage_frame {f : Frame} (hf : f.isFramed = true) (ha : acceptsLength f.length = true)
    (rest : Bytes) : parseMessage (f.encode ++ rest) = (parseBody f.tag f.body, rest) := by
  have hlen : f.length.toNatClampNeg = f.body.length + 4 := by
    simpa [Frame.isFramed, ha] using hf
  simp only [acceptsLength, Bool.and_eq_true, decide_eq_true_eq] at ha
  have hlow : ¬ f.length < 4 := Int32.not_lt.2 ha.1
  simp only [Frame.encode, u32Bytes, List.cons_append, List.nil_append, parseMessage,
    i32Be_u32Bytes]
  rw [if_neg hlow, if_neg (Nat.not_lt.2 ha.2), if_neg (by simp; omega)]
  simp [hlen]

/-- A message that is parsed is not `ReadyForQuery`. -/
def NeverReady (p : Parsed) : Prop := ∀ m, p = .ok (some m) → m.isReady = false

theorem neverReady_ok {m : BackendMsg} (hm : m.isReady = false) : NeverReady (.ok (some m)) :=
  fun _ h => by cases h; exact hm

theorem neverReady_error (e : String) : NeverReady (.error e) := nofun

theorem neverReady_bind {α : Type} (x : Except String α) {p : α → Parsed}
    (hp : ∀ a, NeverReady (p a)) : NeverReady (x >>= p) := by
  cases x with
  | error e => exact neverReady_error e
  | ok a => exact hp a

theorem neverReady_ite {c : Prop} [Decidable c] {p q : Parsed} (hp : NeverReady p)
    (hq : NeverReady q) : NeverReady (if c then p else q) := by
  split_ifs <;> assumption

theorem parseAuth_neverReady (body : Bytes) : NeverReady (parseAuth body) := by
  unfold parseAuth
  repeat' apply neverReady_ite
  all_goals first | exact neverReady_error _ | exact neverReady_ok rfl | skip
  cases h : saslMechanisms body.length (body.drop 4) with
  | error e => exact neverReady_error e
  | ok ms => exact neverReady_ok rfl

theorem parseDataRow_neverReady (body : Bytes) : NeverReady (parseDataRow body) := by
  refine neverReady_ite (neverReady_error _) (neverReady_bind _ fun n => neverReady_bind _
    fun es => ?_)
  exact neverReady_ite (neverReady_ok rfl) (neverReady_ok rfl)

theorem parseRowDescription_neverReady (body : Bytes) : NeverReady (parseRowDescription body) :=
  neverReady_ite (neverReady_error _) <| neverReady_bind _ fun _ => neverReady_bind _ fun _ =>
    neverReady_ok rfl

theorem parseParameterDescription_neverReady (body : Bytes) :
    NeverReady (parseParameterDescription body) :=
  neverReady_ite (neverReady_error _) <| neverReady_bind _ fun _ =>
    neverReady_ite (neverReady_error _) (neverReady_ok rfl)

theorem parseCopyResponse_neverReady (body : Bytes) (isIn : Bool) :
    NeverReady (parseCopyResponse body isIn) :=
  neverReady_ite (neverReady_error _) <| neverReady_bind _ fun _ =>
    neverReady_ite (neverReady_error _) (neverReady_ite (neverReady_ok rfl) (neverReady_ok rfl))

theorem parseBody_neverReady {tag : UInt8} (htag : tag ≠ byte 'Z') (body : Bytes) :
    NeverReady (parseBody tag body) := by
  unfold parseBody
  split
  case h_1 => exact parseAuth_neverReady body
  case h_2 => exact neverReady_bind _ fun _ => neverReady_bind _ fun _ => neverReady_ok rfl
  case h_3 => exact neverReady_ite (neverReady_error _) (neverReady_ok rfl)
  case h_4 hz =>
    have hnat : (Char.ofUInt8 tag).toNat = tag.toNat := tag.toNat_toUInt32
    rw [hz] at hnat
    exact absurd (UInt8.toNat_inj.1 hnat.symm) htag
  case h_9 => exact neverReady_bind _ fun _ => neverReady_ok rfl
  case h_10 => exact parseDataRow_neverReady body
  case h_11 => exact parseRowDescription_neverReady body
  case h_15 =>
    exact neverReady_ite (neverReady_error _) <| neverReady_bind _ fun _ =>
      neverReady_bind _ fun _ => neverReady_ok rfl
  case h_16 => exact parseParameterDescription_neverReady body
  case h_18 | h_19 => exact parseCopyResponse_neverReady body _
  case h_22 => exact nofun
  all_goals exact neverReady_ok rfl

/-- Exactly the frames with tag `Z` are parsed as `ReadyForQuery`. -/
theorem isReady_of_parseBody {tag : UInt8} {body : Bytes} {m : BackendMsg}
    (h : parseBody tag body = .ok (some m)) : m.isReady = true ↔ tag = byte 'Z' := by
  by_cases htag : tag = byte 'Z'
  · subst htag
    cases body with
    | nil => cases h
    | cons status rest =>
      cases h
      simp [BackendMsg.isReady]
  · simp [parseBody_neverReady htag body m h, htag]

/-- A frame with tag `Z` is not skipped. -/
theorem parseBody_ready (body : Bytes) : parseBody (byte 'Z') body ≠ .ok none := by
  cases body <;> exact nofun

end Resolute
