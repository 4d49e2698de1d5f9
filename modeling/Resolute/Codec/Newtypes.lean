import Mathlib.Data.List.GetD
import Mathlib.Data.List.TakeWhile
import Mathlib.Data.Rat.Floor
import Resolute.Client.Prepared
import Resolute.Codec.Basic

/-!
# Numerics and addresses

`PgNumeric` and `PgInet` hold the text of a value.  `try_from` checks a literal, `Encode` writes the
text, and the query path announces a binary parameter; `Decode` reads the binary format that the
server sends.  The server reads a parameter by its format code, with the binary input functions of
the two types (`PgNumeric.recv`, `PgInet.recv`).

A literal `Survives` if it reaches the server, and comes back, with its value.  The text of a
literal is no binary numeric and no binary address, so that none does (`not_survives`).
-/

namespace Resolute

open Prepared (SqlParam callMessages)

/-! ### Text -/

/-- `char::is_whitespace`. -/
def isWhitespace (c : Char) : Bool :=
  let n := c.toNat
  9 ≤ n && n ≤ 13 || [32, 0x85, 0xA0, 0x1680, 0x2028, 0x2029, 0x202F, 0x205F, 0x3000].contains n ||
    0x2000 ≤ n && n ≤ 0x200A

/-- `str::trim`. -/
def trim (s : String) : String :=
  .ofList ((s.toList.dropWhile isWhitespace).reverse.dropWhile isWhitespace).reverse

/-- A text with other characters than whitespace at its ends is not trimmed. -/
theorem trim_ends {c d : Char} (hc : isWhitespace c = false) (hd : isWhitespace d = false)
    (mid : List Char) :
    trim (String.ofList (c :: (mid ++ [d]))) = String.ofList (c :: (mid ++ [d])) := by
  rw [trim, String.toList_ofList, List.dropWhile_cons_of_neg (by simp [hc]),
    List.reverse_cons, List.reverse_append, List.reverse_singleton, List.append_assoc,
    List.singleton_append, List.dropWhile_cons_of_neg (by simp [hd]), List.reverse_cons,
    List.reverse_append, List.reverse_reverse]
  rfl

/-- `u8::is_ascii_digit`. -/
def isAsciiDigit (b : UInt8) : Bool := 48 ≤ b && b ≤ 57

/-- The value of a digit with the given radix. -/
def digitValue (radix : ℕ) (b : UInt8) : Option ℕ :=
  let n := b.toNat
  let d := if 48 ≤ n ∧ n ≤ 57 then n - 48 else if 97 ≤ n ∧ n ≤ 102 then n - 87
    else if 65 ≤ n ∧ n ≤ 70 then n - 55 else 16
  if d < radix then some d else none

/-- The number that digits stand for. -/
def digitsValue (radix : ℕ) (digits : Bytes) : ℕ :=
  digits.foldl (fun n b => n * radix + (digitValue radix b).getD 0) 0

/-- A big-endian word. -/
def wordAt (data : Bytes) (i : ℕ) : ℕ := (byteAt data i).toNat * 256 + (byteAt data (i + 1)).toNat

namespace PgNumeric

/-- Why a text is no numeric; the messages quote the text. -/
inductive ParseError where
  /-- "empty string is not a valid numeric" -/
  | empty
  /-- "invalid numeric: {s:?}" -/
  | invalid (s : String)
  /-- "invalid numeric exponent: {s:?}" -/
  | exponent (s : String)
  /-- "invalid numeric: unexpected character at position {i} in {s:?}" -/
  | unexpected (i : ℕ) (s : String)
  deriving DecidableEq, Repr

/-- An optional sign. -/
def skipSign : Bytes → Bytes
  | [] => []
  | b :: rest => if b = byte '+' ∨ b = byte '-' then rest else b :: rest

def skipDigits (bs : Bytes) : Bytes := bs.dropWhile isAsciiDigit

/-- A decimal point and the digits behind it. -/
def skipFraction : Bytes → Bytes
  | [] => []
  | b :: rest => if b = byte '.' then skipDigits rest else b :: rest

/-- What is left behind an optional exponent. -/
def skipExponent (s : String) : Bytes → Except ParseError Bytes
  | [] => .ok []
  | b :: digits =>
    if b = byte 'e' ∨ b = byte 'E' then
      let expStart := skipSign digits
      let rest := skipDigits expStart
      if rest.length = expStart.length then .error (.exponent s) else .ok rest
    else .ok (b :: digits)

/-- `try_from`; a position of the source is given by what is left to read. -/
def tryFrom (s : String) : Except ParseError String :=
  let s := trim s
  if s = "" then .error .empty
  else if s = "NaN" ∨ s = "Infinity" ∨ s = "-Infinity" then .ok s
  else
    let bytes := asBytes s
    let start := skipSign bytes
    let rest := skipFraction (skipDigits start)
    -- There is no digit, or only a decimal point.
    if rest.length = start.length ∨
        rest.length + 1 = start.length ∧ start.head? = some (byte '.') then .error (.invalid s)
    else do
      let rest ← skipExponent s rest
      if rest ≠ [] then .error (.unexpected (bytes.length - rest.length) s) else .ok s

/-- `Encode::encode`. -/
def encode (text : String) (buf : Bytes) : Bytes := buf ++ asBytes text

/-- An `i16` that is cast to `usize`. -/
def i16AsUsize (n : Int16) : ℕ := (n.toInt % 2 ^ 64).toNat

/-- An `i16` that was computed. -/
def checkI16 (n : ℤ) : Decoded ℤ :=
  if -32768 ≤ n ∧ n ≤ 32767 then .ok n else .panic .overflow

/-- `a * b` of two `usize`s. -/
def mulUsize (a b : ℕ) : Decoded ℕ := if a * b < 2 ^ 64 then .ok (a * b) else .panic .overflow

/-- `format!("{d:04}")`. -/
def pad4 (d : ℤ) : String :=
  if d < 0 then
    let digits := toString d.natAbs
    "-" ++ String.ofList (List.replicate (3 - digits.length) '0') ++ digits
  else
    let digits := toString d.natAbs
    String.ofList (List.replicate (4 - digits.length) '0') ++ digits

/-- The groups in front of the decimal point. -/
def integerPart (digits : List ℤ) (intGroups : ℕ) : String :=
  if intGroups = 0 then "0"
  else String.join ((List.range intGroups).map fun i =>
    if i = 0 then toString (digits.getD i 0) else pad4 (digits.getD i 0))

/-- The digits behind the decimal point from position `pos = n - 32768` on, when `fracChars` of them
are there; the position overflows after the last. -/
def fractionPart (digits : List ℤ) (weight : ℤ) (dscale : ℕ) : (n fracChars : ℕ) → Decoded String
  | 0, _ => .panic .overflow
  | n + 1, fracChars =>
    if dscale ≤ fracChars then .ok ""
    else do
      let idx ← checkI16 (weight - ((n : ℤ) - 32768))
      let d := if 0 ≤ idx then digits.getD idx.toNat 0 else 0
      let taken := (pad4 d).toList.take (dscale - fracChars)
      let rest ← fractionPart digits weight dscale n (fracChars + taken.length)
      .ok (String.ofList taken ++ rest)

/-- `Decode::decode`. -/
def decode (buf : Bytes) : Decoded String := do
  if buf.length < 8 then .err 0 s!"PgNumeric: expected >= 8 bytes, got {buf.length}"
  else
    let ndigits := i16AsUsize (i16At buf 0)
    let weight := (i16At buf 2).toInt
    let sign := i16At buf 4
    let dscale := i16AsUsize (i16At buf 6)
    let size ← mulUsize ndigits 2
    let need ← addUsize 8 size
    if buf.length < need then .err 0 "PgNumeric: truncated digit data"
    else if ndigits = 0 then
      if dscale > 0 then
        withCapacity 1 dscale
        .ok ("0." ++ String.ofList (List.replicate dscale '0'))
      else .ok "0"
    else
      let digits := (List.range ndigits).map fun i => (i16At buf (8 + i * 2)).toInt
      let groups ← checkI16 (weight + 1)
      let result := (if sign = 0x4000 then "-" else "") ++ integerPart digits groups.toNat
      if dscale > 0 then
        let fraction ← fractionPart digits weight dscale 32768 0
        .ok (result ++ "." ++ fraction)
      else .ok result

/-! The value of a numeric. -/

/-- What a numeric can be. -/
inductive Value where
  | nan
  | inf
  | negInf
  | finite (q : ℚ)
  deriving DecidableEq

/-- The value of a literal. -/
def denotes (s : String) : Option Value :=
  if s = "NaN" then some .nan
  else if s = "Infinity" then some .inf
  else if s = "-Infinity" then some .negInf
  else
    let sign : Bytes → ℤ := fun bs => if bs.head? = some (byte '-') then -1 else 1
    let start := skipSign (asBytes s)
    let fraction := skipDigits start
    let exponent := skipFraction fraction
    let digits := start.takeWhile isAsciiDigit
    let decimals := if fraction.head? = some (byte '.') then fraction.tail.takeWhile isAsciiDigit
      else []
    let exp : ℤ := sign exponent.tail * digitsValue 10 (skipSign exponent.tail)
    some (.finite (sign (asBytes s) * digitsValue 10 (digits ++ decimals) *
      10 ^ (exp - decimals.length)))

/-- PostgreSQL's binary input: the number of digits, the weight of the first, the sign, the scale,
and the digits, to the base of 10000. -/
def recv (data : Bytes) : Option Value :=
  let ndigits := wordAt data 0
  let weight := (i16At data 2).toInt
  let digits := (List.range ndigits).map fun i => wordAt data (8 + i * 2)
  if data.length < 8 ∨ data.length ≠ 8 + ndigits * 2 then none
  else if 0x3FFF < wordAt data 6 ∨ digits.any (9999 < ·) then none
  else
    let dscale := wordAt data 6
    let magnitude : ℚ := (digits.zipIdx.map fun (d, i) => d * 10000 ^ (weight - i)).sum
    -- the digits that the scale hides are cut off
    let shown : ℚ := ⌊magnitude * 10 ^ dscale⌋ / 10 ^ dscale
    let sign := wordAt data 4
    if sign = 0x0000 then some (.finite shown)
    else if sign = 0x4000 then some (.finite (-shown))
    else if sign = 0xC000 then some .nan
    else if sign = 0xD000 then some .inf
    else if sign = 0xF000 then some .negInf
    else none

end PgNumeric

/-! ### Addresses -/

/-- `std::net::IpAddr`: the bytes of an IPv4 address, the groups of an IPv6 address. -/
inductive IpAddr where
  | v4 (octets : List ℕ)
  | v6 (groups : List ℕ)
  deriving DecidableEq, Repr

namespace IpAddr

/-- A number of at most `maxDigits` digits that is less than `bound`. -/
def readNumber (radix maxDigits bound : ℕ) (allowZeroPrefix : Bool) (bs : Bytes) :
    Option (ℕ × Bytes) :=
  let digits := bs.takeWhile fun b => (digitValue radix b).isSome
  let n := digitsValue radix digits
  if digits = [] ∨ maxDigits < digits.length then none
  else if ¬allowZeroPrefix ∧ digits.head? = some (byte '0') ∧ 1 < digits.length then none
  else if n < bound then some (n, bs.drop digits.length)
  else none

/-- The separator, except in front of the first part, and a part. -/
def readSeparator {α : Type} (sep : UInt8) (i : ℕ) (read : Bytes → Option α) (bs : Bytes) :
    Option α :=
  if i = 0 then read bs
  else match bs with
    | [] => none
    | b :: rest => if b = sep then read rest else none

/-- `n` bytes of an IPv4 address from number `i` on. -/
def readOctets : (n i : ℕ) → Bytes → Option (List ℕ × Bytes)
  | 0, _, bs => some ([], bs)
  | n + 1, i, bs => do
    let (octet, bs) ← readSeparator (byte '.') i (readNumber 10 3 256 false) bs
    let (octets, bs) ← readOctets n (i + 1) bs
    some (octet :: octets, bs)

/-- Up to `n` groups from number `i` on, whether an IPv4 address ends them, and what is left. -/
def readGroups : (n i : ℕ) → Bytes → List ℕ × Bool × Bytes
  | 0, _, bs => ([], false, bs)
  | n + 1, i, bs =>
    match if n = 0 then none else readSeparator (byte ':') i (readOctets 4 0) bs with
    | some (octets, rest) =>
      ([octets.getD 0 0 * 256 + octets.getD 1 0, octets.getD 2 0 * 256 + octets.getD 3 0],
        true, rest)
    | none =>
      match readSeparator (byte ':') i (readNumber 16 4 65536 true) bs with
      | some (group, rest) =>
        let (groups, ipv4, rest) := readGroups n (i + 1) rest
        (group :: groups, ipv4, rest)
      | none => ([], false, bs)

/-- Eight groups, of which `::` can leave out some. -/
def readIpv6 (bs : Bytes) : Option (List ℕ × Bytes) :=
  let (head, ipv4, rest) := readGroups 8 0 bs
  if head.length = 8 then some (head, rest)
  else if ipv4 then none
  else match rest with
    | a :: b :: rest =>
      if a = byte ':' ∧ b = byte ':' then
        let (tail, _, rest) := readGroups (8 - (head.length + 1)) 0 rest
        some (head ++ List.replicate (8 - head.length - tail.length) 0 ++ tail, rest)
      else none
    | _ => none

/-- `str::parse`. -/
def parse (bs : Bytes) : Option IpAddr :=
  match readOctets 4 0 bs with
  | some (octets, rest) => if rest = [] then some (.v4 octets) else none
  | none =>
    match readIpv6 bs with
    | some (groups, rest) => if rest = [] then some (.v6 groups) else none
    | none => none

end IpAddr

namespace PgInet

/-- Why a text is no address; the messages quote the text. -/
inductive ParseError where
  /-- "empty string is not a valid inet address" -/
  | empty
  /-- "invalid CIDR prefix length: {prefix:?}" -/
  | invalidPrefix (text : Bytes)
  /-- "CIDR prefix length {prefix_len} exceeds maximum (128)" -/
  | longPrefix (prefixLen : ℕ)
  /-- "invalid IP address: {addr_part:?}" -/
  | invalidAddress (addrPart : Bytes)
  /-- "IPv4 CIDR prefix length {prefix_len} exceeds maximum (32)" -/
  | longIpv4Prefix (prefixLen : ℕ)
  deriving DecidableEq, Repr

/-- `str::rsplit_once`. -/
def rsplitOnce (sep : UInt8) (bs : Bytes) : Option (Bytes × Bytes) :=
  let suffix := (bs.reverse.takeWhile (· ≠ sep)).reverse
  if suffix.length = bs.length then none
  else some (bs.take (bs.length - suffix.length - 1), suffix)

/-- `str::parse::<u8>`. -/
def parseU8 (bs : Bytes) : Option ℕ :=
  let digits := if bs.head? = some (byte '+') then bs.tail else bs
  if digits = [] ∨ ¬digits.all isAsciiDigit then none
  else if digitsValue 10 digits < 256 then some (digitsValue 10 digits)
  else none

/-- The address and the length of its network part. -/
def splitPrefix (bs : Bytes) : Except ParseError (Bytes × Option ℕ) :=
  match rsplitOnce (byte '/') bs with
  | some (addr, text) =>
    match parseU8 text with
    | none => .error (.invalidPrefix text)
    | some prefixLen =>
      if 128 < prefixLen then .error (.longPrefix prefixLen) else .ok (addr, some prefixLen)
  | none => .ok (bs, none)

def tryFrom (s : String) : Except ParseError String :=
  let s := trim s
  if s = "" then .error .empty
  else do
    let (addrPart, prefixPart) ← splitPrefix (asBytes s)
    if IpAddr.parse addrPart = none then .error (.invalidAddress addrPart)
    else match prefixPart with
      | some prefixLen =>
        if byte '.' ∈ addrPart ∧ 32 < prefixLen then .error (.longIpv4Prefix prefixLen) else .ok s
      | none => .ok s

/-- `Encode::encode`. -/
def encode (text : String) (buf : Bytes) : Bytes := buf ++ asBytes text

/-- `format!("{:x}")`. -/
def hex (n : ℕ) : String := String.ofList (Nat.toDigits 16 n)

/-- `Decode::decode`. -/
def decode (buf : Bytes) : Decoded String :=
  if buf.length < 4 then .err 0 "PgInet: too short"
  else
    let family := byteAt buf 0
    let netmask := byteAt buf 1
    let addrLen := (byteAt buf 3).toNat
    if buf.length < 4 + addrLen then .err 0 "PgInet: truncated address"
    else
      let addr := (buf.drop 4).take addrLen
      if family = 2 ∧ addrLen = 4 then
        .ok s!"{byteAt addr 0}.{byteAt addr 1}.{byteAt addr 2}.{byteAt addr 3}/{netmask}"
      else if family = 3 ∧ addrLen = 16 then
        let parts := (List.range 8).map fun i =>
          hex ((byteAt addr (2 * i)).toNat * 256 + (byteAt addr (2 * i + 1)).toNat)
        .ok (":".intercalate parts ++ s!"/{netmask}")
      else .err 0 s!"PgInet: unknown family {family}"

/-- An address and the length of its network part. -/
structure Value where
  addr : IpAddr
  netmask : ℕ
  deriving DecidableEq, Repr

/-- The value of a literal; without a length all of the address is meant. -/
def denotes (s : String) : Option Value := do
  let (addrPart, text) := (rsplitOnce (byte '/') (asBytes s)).getD (asBytes s, [])
  let addr ← IpAddr.parse addrPart
  let size := match addr with
    | .v4 _ => 32
    | .v6 _ => 128
  some ⟨addr, (parseU8 text).getD size⟩

/-- PostgreSQL's binary input: the family, the length of the network part, a flag, the size of the
address, and the address. -/
def recv (data : Bytes) : Option Value :=
  let bits := (byteAt data 1).toNat
  let size := (byteAt data 3).toNat
  let addr := data.drop 4
  if byteAt data 0 = 2 ∧ size = 4 ∧ addr.length = 4 ∧ bits ≤ 32 then
    some ⟨.v4 (addr.map UInt8.toNat), bits⟩
  else if byteAt data 0 = 3 ∧ size = 16 ∧ addr.length = 16 ∧ bits ≤ 128 then
    some ⟨.v6 ((List.range 8).map fun i => wordAt addr (2 * i)), bits⟩
  else none

end PgInet

/-! ### Reaching the server -/

/-- A type whose values are kept as text. -/
structure TextType (V : Type) where
  /-- `type_oid`. -/
  typeOid : Oid
  encode : String → Bytes → Bytes
  decode : Bytes → Decoded String
  /-- The value of a literal. -/
  denotes : String → Option V
  /-- The binary input of the server. -/
  recv : Bytes → Option V

def numeric : TextType PgNumeric.Value :=
  ⟨1700, PgNumeric.encode, PgNumeric.decode, PgNumeric.denotes, PgNumeric.recv⟩

def inet : TextType PgInet.Value :=
  ⟨869, PgInet.encode, PgInet.decode, PgInet.denotes, PgInet.recv⟩

namespace TextType

variable {V : Type} (T : TextType V)

/-- The literal as a query parameter. -/
def param (text : String) : SqlParam := .value T.typeOid (T.encode text [])

/-- The server reads a parameter by its format code. -/
def reads : FormatCode → Bytes → Option V
  | .text, data => (fromUtf8 data).bind T.denotes
  | .binary, data => T.recv data

/-- A literal has a value; the server reads this value in the `Bind` of a call, and decoding what
was encoded gives a literal with this value. -/
def Survives (text : String) : Prop :=
  ∃ v, T.denotes text = some v ∧
    (∀ describe sql stmtName needsParse portal name formats values resultFormats,
      .bind portal name formats values resultFormats ∈
        callMessages describe sql [T.param text] stmtName needsParse →
      ∃ format data, formats = [format] ∧ values = [some data] ∧ T.reads format data = some v) ∧
    ∃ text', T.decode (T.encode text []) = .ok text' ∧ T.denotes text' = some v

variable {T}

/-- The parameter is announced as binary. -/
theorem Survives.recv {text : String} (h : T.Survives text) :
    ∃ v, T.denotes text = some v ∧ T.recv (T.encode text []) = some v := by
  obtain ⟨v, hv, hbind, -⟩ := h
  obtain ⟨format, data, hformat, hdata, hreads⟩ :=
    hbind false "" [] false [] [] [.binary] [some (T.encode text [])] [.binary] (by
      simp [callMessages, param, SqlParam.encodeParamValue])
  obtain rfl : format = .binary := by simpa using hformat.symm
  obtain rfl : data = T.encode text [] := by simpa using hdata.symm
  exact ⟨v, hv, hreads⟩

end TextType

namespace PgNumeric

/-- What is passed over is no control character, and no space. -/
theorem mem_skipSign {bs : Bytes} {b : UInt8} (h : b ∈ bs) : 43 ≤ b ∨ b ∈ skipSign bs := by
  cases bs with
  | nil => cases h
  | cons c rest =>
    rw [skipSign]
    split_ifs with hsign
    · rcases List.mem_cons.1 h with rfl | hrest
      · rcases hsign with rfl | rfl <;> exact .inl (by decide)
      · exact .inr hrest
    · exact .inr h

theorem mem_skipDigits {bs : Bytes} {b : UInt8} (h : b ∈ bs) : 43 ≤ b ∨ b ∈ skipDigits bs := by
  rw [← List.takeWhile_append_dropWhile (p := isAsciiDigit) (l := bs)] at h
  rcases List.mem_append.1 h with hdigit | hrest
  · have hrange := List.mem_takeWhile_imp hdigit
    simp only [isAsciiDigit, Bool.and_eq_true, decide_eq_true_eq] at hrange
    exact .inl (UInt8.le_trans (by decide) hrange.1)
  · exact .inr hrest

theorem mem_skipFraction {bs : Bytes} {b : UInt8} (h : b ∈ bs) :
    43 ≤ b ∨ b ∈ skipFraction bs := by
  cases bs with
  | nil => cases h
  | cons c rest =>
    rw [skipFraction]
    split_ifs with hpoint
    · rcases List.mem_cons.1 h with rfl | hrest
      · exact .inl (hpoint ▸ by decide)
      · exact mem_skipDigits hrest
    · exact .inr h

theorem mem_skipExponent {s : String} {bs rest : Bytes} (h : skipExponent s bs = .ok rest)
    {b : UInt8} (hb : b ∈ bs) : 43 ≤ b ∨ b ∈ rest := by
  cases bs with
  | nil => cases hb
  | cons c digits =>
    rw [skipExponent] at h
    split_ifs at h with hexp
    · dsimp only at h
      split_ifs at h
      obtain rfl := Except.ok.inj h
      rcases List.mem_cons.1 hb with rfl | hb
      · rcases hexp with rfl | rfl <;> exact .inl (by decide)
      rcases mem_skipSign hb with hlow | hb
      · exact .inl hlow
      exact mem_skipDigits hb
    · obtain rfl := Except.ok.inj h
      exact .inr hb

/-- A literal that is accepted is made of signs, digits, points and letters. -/
theorem le_of_tryFrom {s text : String} (h : tryFrom s = .ok text) :
    ∀ b ∈ asBytes text, 43 ≤ b := by
  rw [tryFrom] at h
  by_cases hempty : trim s = ""
  · rw [if_pos hempty] at h
    cases h
  rw [if_neg hempty] at h
  by_cases hspecial : trim s = "NaN" ∨ trim s = "Infinity" ∨ trim s = "-Infinity"
  · rw [if_pos hspecial] at h
    obtain rfl := Except.ok.inj h
    rcases hspecial with heq | heq | heq <;> rw [heq] <;> decide +kernel
  rw [if_neg hspecial] at h
  dsimp only at h
  split_ifs at h with hdigits
  cases hrest : skipExponent (trim s) (skipFraction (skipDigits (skipSign (asBytes (trim s))))) with
  | error e => rw [hrest] at h; cases h
  | ok rest =>
    rw [hrest, ok_bind] at h
    split_ifs at h with hend
    obtain rfl := Except.ok.inj h
    intro b hb
    rcases mem_skipSign hb with hlow | hb
    · exact hlow
    rcases mem_skipDigits hb with hlow | hb
    · exact hlow
    rcases mem_skipFraction hb with hlow | hb
    · exact hlow
    refine (mem_skipExponent hrest hb).resolve_right fun hmem => ?_
    rw [not_not.1 hend] at hmem
    cases hmem

theorem denotes_eq_some (s : String) : ∃ v, denotes s = some v := by
  rw [denotes]
  split_ifs <;> exact ⟨_, rfl⟩

theorem recv_eq_none {data : Bytes} (h : ∀ b ∈ data, 43 ≤ b) : recv data = none := by
  rw [recv]
  by_cases hlen : data.length < 8
  · rw [if_pos (.inl hlen)]
  · have hlow : 43 ≤ (byteAt data 5).toNat := by
      have hmem : byteAt data 5 ∈ data := by
        rw [byteAt, List.getD_eq_getElem _ _ (by omega)]
        exact List.getElem_mem _
      exact UInt8.le_iff_toNat_le.1 (h _ hmem)
    have hhigh : (byteAt data 5).toNat < 256 := (byteAt data 5).toNat_lt
    have hsign : ∀ n, n % 256 = 0 → wordAt data 4 ≠ n := by
      intro n hn heq
      have hword : (byteAt data 4).toNat * 256 + (byteAt data 5).toNat = n := heq
      omega
    dsimp only
    rw [if_neg (hsign 0x0000 rfl), if_neg (hsign 0x4000 rfl), if_neg (hsign 0xC000 rfl),
      if_neg (hsign 0xD000 rfl), if_neg (hsign 0xF000 rfl)]
    split_ifs <;> rfl

end PgNumeric

namespace IpAddr

/-- The bytes begin with a character that is no control character, and no space. -/
def StartsText (bs : Bytes) : Prop := ∃ b, bs.head? = some b ∧ 43 ≤ b

theorem startsText_of_readNumber {radix maxDigits bound : ℕ} {zero : Bool} (hradix : radix ≤ 16)
    {bs : Bytes} {r : ℕ × Bytes} (h : readNumber radix maxDigits bound zero bs = some r) :
    StartsText bs := by
  rw [readNumber] at h
  cases bs with
  | nil => simp at h
  | cons b rest =>
    refine ⟨b, rfl, ?_⟩
    by_contra hlow
    have hnat : b.toNat < 43 := UInt8.lt_iff_toNat_lt.1 (UInt8.not_le.1 hlow)
    have hdigit : digitValue radix b = none := by
      rw [digitValue, if_neg (show ¬(48 ≤ b.toNat ∧ b.toNat ≤ 57) by omega),
        if_neg (show ¬(97 ≤ b.toNat ∧ b.toNat ≤ 102) by omega),
        if_neg (show ¬(65 ≤ b.toNat ∧ b.toNat ≤ 70) by omega), if_neg (by omega)]
    simp [hdigit] at h

theorem startsText_of_readOctets {n : ℕ} {bs : Bytes} {r : List ℕ × Bytes}
    (h : readOctets (n + 1) 0 bs = some r) : StartsText bs := by
  obtain ⟨octet, hoctet, -⟩ := Option.bind_eq_some_iff.1 h
  exact startsText_of_readNumber (by decide) hoctet

/-- Without a group in front the rest is all. -/
theorem readGroups_cases (n : ℕ) (bs : Bytes) :
    StartsText bs ∨ readGroups (n + 1) 0 bs = ([], false, bs) := by
  rw [readGroups]
  cases hipv4 : if n = 0 then none else readSeparator (byte ':') 0 (readOctets 4 0) bs with
  | some r =>
    split_ifs at hipv4
    exact .inl (startsText_of_readOctets hipv4)
  | none =>
    cases hgroup : readSeparator (byte ':') 0 (readNumber 16 4 65536 true) bs with
    | some r => exact .inl (startsText_of_readNumber (by decide) hgroup)
    | none => exact .inr rfl

theorem startsText_of_readIpv6 {bs : Bytes} {r : List ℕ × Bytes} (h : readIpv6 bs = some r) :
    StartsText bs := by
  rcases readGroups_cases 7 bs with htext | heq
  · exact htext
  rw [readIpv6, heq] at h
  dsimp only at h
  rw [if_neg (show ¬[].length = 8 by decide), if_neg Bool.false_ne_true] at h
  rcases bs with _ | ⟨a, _ | ⟨b, rest⟩⟩
  · cases h
  · cases h
  · dsimp only at h
    split_ifs at h with hsep
    exact ⟨a, rfl, hsep.1 ▸ by decide⟩

theorem startsText_of_parse {bs : Bytes} (h : parse bs ≠ none) : StartsText bs := by
  rw [parse] at h
  cases hipv4 : readOctets 4 0 bs with
  | some r => exact startsText_of_readOctets hipv4
  | none =>
    rw [hipv4] at h
    cases hipv6 : readIpv6 bs with
    | some r => exact startsText_of_readIpv6 hipv6
    | none =>
      rw [hipv6] at h
      exact absurd rfl h

end IpAddr

namespace PgInet

open IpAddr (StartsText)

theorem rsplitOnce_eq {sep : UInt8} {bs addr text : Bytes}
    (h : rsplitOnce sep bs = some (addr, text)) : ∃ n, addr = bs.take n := by
  rw [rsplitOnce] at h
  split_ifs at h
  exact ⟨_, (Prod.mk.inj (Option.some.inj h)).1.symm⟩

theorem startsText_of_take {bs : Bytes} {n : ℕ} (h : StartsText (bs.take n)) : StartsText bs := by
  obtain ⟨b, hb, hlow⟩ := h
  rw [List.head?_take] at hb
  split_ifs at hb
  exact ⟨b, hb, hlow⟩

theorem splitPrefix_eq {bs addrPart : Bytes} {prefixPart : Option ℕ}
    (h : splitPrefix bs = .ok (addrPart, prefixPart)) :
    addrPart = ((rsplitOnce (byte '/') bs).getD (bs, [])).1 := by
  rw [splitPrefix] at h
  cases hsplit : rsplitOnce (byte '/') bs with
  | none =>
    rw [hsplit] at h
    exact (Prod.mk.inj (Except.ok.inj h)).1.symm
  | some parts =>
    rw [hsplit] at h
    dsimp only at h
    cases hlength : parseU8 parts.2 with
    | none => rw [hlength] at h; cases h
    | some prefixLen =>
      rw [hlength] at h
      dsimp only at h
      split_ifs at h
      exact (Prod.mk.inj (Except.ok.inj h)).1.symm

/-- The part in front of the length is an address. -/
theorem parse_of_tryFrom {s text : String} (h : tryFrom s = .ok text) :
    IpAddr.parse ((rsplitOnce (byte '/') (asBytes text)).getD (asBytes text, [])).1 ≠ none := by
  rw [tryFrom] at h
  by_cases hempty : trim s = ""
  · rw [if_pos hempty] at h
    cases h
  rw [if_neg hempty] at h
  cases hsplit : splitPrefix (asBytes (trim s)) with
  | error e => rw [hsplit] at h; cases h
  | ok parts =>
    obtain ⟨addrPart, prefixPart⟩ := parts
    rw [hsplit, ok_bind] at h
    dsimp only at h
    by_cases haddr : IpAddr.parse addrPart = none
    · rw [if_pos haddr] at h
      cases h
    rw [if_neg haddr] at h
    obtain rfl : trim s = text := by
      cases prefixPart with
      | none => exact Except.ok.inj h
      | some prefixLen =>
        dsimp only at h
        split_ifs at h
        exact Except.ok.inj h
    rwa [← splitPrefix_eq hsplit]

theorem denotes_of_tryFrom {s text : String} (h : tryFrom s = .ok text) :
    ∃ v, denotes text = some v := by
  obtain ⟨addr, haddr⟩ := Option.ne_none_iff_exists'.1 (parse_of_tryFrom h)
  exact ⟨_, Option.bind_eq_some_iff.2 ⟨addr, haddr, rfl⟩⟩

theorem startsText_of_tryFrom {s text : String} (h : tryFrom s = .ok text) :
    StartsText (asBytes text) := by
  have hstarts := IpAddr.startsText_of_parse (parse_of_tryFrom h)
  cases hsplit : rsplitOnce (byte '/') (asBytes text) with
  | none => rwa [hsplit] at hstarts
  | some parts =>
    obtain ⟨n, hn⟩ := rsplitOnce_eq hsplit
    rw [hsplit, Option.getD_some, hn] at hstarts
    exact startsText_of_take hstarts

theorem recv_eq_none {data : Bytes} (h : StartsText data) : recv data = none := by
  obtain ⟨b, hb, hlow⟩ := h
  obtain ⟨rest, rfl⟩ := List.head?_eq_some_iff.1 hb
  have hne : ∀ n : UInt8, n < 43 → byteAt (b :: rest) 0 ≠ n := by
    intro n hn heq
    obtain rfl : b = n := heq
    exact absurd hlow (UInt8.not_le.2 hn)
  rw [recv, if_neg fun h => hne 2 (by decide) h.1, if_neg fun h => hne 3 (by decide) h.1]

end PgInet

theorem numeric_not_survives {text : String} (h : ∀ b ∈ asBytes text, 43 ≤ b) :
    ¬numeric.Survives text := by
  intro hsurvives
  obtain ⟨v, -, hrecv⟩ := hsurvives.recv
  have hnone : numeric.recv (numeric.encode text []) = none := PgNumeric.recv_eq_none h
  rw [hnone] at hrecv
  cases hrecv

theorem inet_not_survives {text : String} (h : IpAddr.StartsText (asBytes text)) :
    ¬inet.Survives text := by
  intro hsurvives
  obtain ⟨v, -, hrecv⟩ := hsurvives.recv
  have hnone : inet.recv (inet.encode text []) = none := PgInet.recv_eq_none h
  rw [hnone] at hrecv
  cases hrecv

/-- **No literal survives**: each that is accepted has a value, and the server does not even take
its bytes for a value of the type. -/
theorem not_survives (s : String) :
    (∀ text, PgNumeric.tryFrom s = .ok text →
      (∃ v, numeric.denotes text = some v) ∧ ¬numeric.Survives text) ∧
    ∀ text, PgInet.tryFrom s = .ok text →
      (∃ v, inet.denotes text = some v) ∧ ¬inet.Survives text := by
  refine ⟨fun text h => ⟨PgNumeric.denotes_eq_some text, ?_⟩,
    fun text h => ⟨PgInet.denotes_of_tryFrom h, ?_⟩⟩
  · exact numeric_not_survives (PgNumeric.le_of_tryFrom h)
  · exact inet_not_survives (PgInet.startsText_of_tryFrom h)

theorem not_survives_one :
    PgNumeric.tryFrom "1" = .ok "1" ∧ ¬numeric.Survives "1" ∧
    PgInet.tryFrom "::1/128" = .ok "::1/128" ∧ ¬inet.Survives "::1/128" := by
  have hone : PgNumeric.tryFrom "1" = .ok "1" := by decide +kernel
  have haddr : PgInet.tryFrom "::1/128" = .ok "::1/128" := by decide +kernel
  exact ⟨hone, ((not_survives "1").1 "1" hone).2, haddr,
    ((not_survives "::1/128").2 "::1/128" haddr).2⟩

/-- The binary form of `1` has the value that is meant. -/
example : PgNumeric.decode [0, 1, 0, 0, 0, 0, 0, 0, 0, 1] = .ok "1" := by decide +kernel

/-- `1` as text is too short to be a binary numeric, and `::1` has no family. -/
theorem literals_lost :
    (¬∀ s text, PgNumeric.tryFrom s = .ok text → numeric.Survives text) ∧
    ¬∀ s text, PgInet.tryFrom s = .ok text → inet.Survives text := by
  refine ⟨fun h => ?_, fun h => ?_⟩
  · exact numeric_not_survives (by decide +kernel) (h "1" "1" (by decide +kernel))
  · exact inet_not_survives ⟨byte ':', by decide +kernel, by decide⟩
      (h "::1" "::1" (by decide +kernel))

end Resolute
