import Resolute.Auth.Rfc5802

/-!
# The functions of an exchange

The standard alphabet of base64 with padding, SHA-256 and HMAC, as functions on byte strings: they
are functions as a salted challenge response asks for (`lawful_sha256Functions`).  What that takes
is, above all, that decoding inverts encoding (`Base64.decode_encode`).  Nothing here is specific to
this repository.
-/

namespace Resolute.Rfc5802

namespace Base64

/-- The digits for `0` to `63`. -/
def alphabet : List Char :=
  "ABCDEFGHIJKLMNOPQRSTUVWXYZabcdefghijklmnopqrstuvwxyz0123456789+/".toList

def digit (n : ℕ) : Char := alphabet.getD (n % 64) 'A'

def value (c : Char) : Option ℕ := alphabet.findIdx? (· == c)

/-- Three bytes are four digits; what is missing of the last three is padding. -/
def encodeChars : Bytes → List Char
  | a :: b :: c :: rest =>
    let n := (a.toNat * 256 + b.toNat) * 256 + c.toNat
    digit (n / 262144) :: digit (n / 4096) :: digit (n / 64) :: digit n :: encodeChars rest
  | [a, b] =>
    let n := (a.toNat * 256 + b.toNat) * 4
    [digit (n / 4096), digit (n / 64), digit n, '=']
  | [a] =>
    let n := a.toNat * 16
    [digit (n / 64), digit n, '=', '=']
  | [] => []

/-- The bytes of four digits at a time; padding ends the text, and the bits it leaves over are
zero. -/
def decodeChars : List Char → Option Bytes
  | [] => some []
  | [w, x, '=', '='] => do
    let n := (← value w) * 64 + (← value x)
    if n % 16 = 0 then some [.ofNat (n / 16)] else none
  | [w, x, y, '='] => do
    let n := ((← value w) * 64 + (← value x)) * 64 + (← value y)
    if n % 4 = 0 then some [.ofNat (n / 1024), .ofNat (n / 4)] else none
  | w :: x :: y :: z :: rest => do
    let n := (((← value w) * 64 + (← value x)) * 64 + (← value y)) * 64 + (← value z)
    let bytes ← decodeChars rest
    some (.ofNat (n / 65536) :: .ofNat (n / 256) :: .ofNat n :: bytes)
  | _ => none

def encode (data : Bytes) : String := String.ofList (encodeChars data)

def decode (text : String) : Option Bytes := decodeChars text.toList

theorem digit_spec : ∀ n < 64, value (digit n) = some n ∧ digit n ≠ '=' ∧ digit n ≠ ',' := by
  decide

theorem digit_mod (n : ℕ) : digit n = digit (n % 64) := by simp [digit]

theorem value_digit (n : ℕ) : value (digit n) = some (n % 64) := by
  rw [digit_mod]
  exact (digit_spec _ (Nat.mod_lt _ (by decide))).1

theorem digit_ne_pad (n : ℕ) : digit n ≠ '=' := by
  rw [digit_mod]
  exact (digit_spec _ (Nat.mod_lt _ (by decide))).2.1

theorem digit_ne_comma (n : ℕ) : digit n ≠ ',' := by
  rw [digit_mod]
  exact (digit_spec _ (Nat.mod_lt _ (by decide))).2.2

theorem ofNat_eq {n : ℕ} {b : UInt8} (h : n % 256 = b.toNat) : UInt8.ofNat n = b := by
  apply UInt8.toNat_inj.1
  rw [UInt8.toNat_ofNat']
  exact h

theorem decodeChars_encodeChars (data : Bytes) : decodeChars (encodeChars data) = some data := by
  induction data using encodeChars.induct with
  | case1 a b c rest ih =>
    have ha := a.toNat_lt
    have hb := b.toNat_lt
    have hc := c.toNat_lt
    rw [encodeChars]
    generalize hn : (a.toNat * 256 + b.toNat) * 256 + c.toNat = n
    have hdigits : ((n / 262144 % 64 * 64 + n / 4096 % 64) * 64 + n / 64 % 64) * 64 + n % 64 =
        n := by
      omega
    rw [decodeChars]
    · simp only [value_digit, ih, bind, Option.bind_some]
      rw [hdigits, ofNat_eq (b := a) (by omega), ofNat_eq (b := b) (by omega),
        ofNat_eq (b := c) (by omega)]
    · exact fun _ hpad => absurd hpad (digit_ne_pad _)
    · exact fun hpad => absurd hpad (digit_ne_pad _)
  | case2 a b =>
    have ha := a.toNat_lt
    have hb := b.toNat_lt
    rw [encodeChars]
    generalize hn : (a.toNat * 256 + b.toNat) * 4 = n
    have hdigits : (n / 4096 % 64 * 64 + n / 64 % 64) * 64 + n % 64 = n := by omega
    rw [decodeChars]
    · simp only [value_digit, bind, Option.bind_some]
      rw [hdigits, if_pos (by omega), ofNat_eq (b := a) (by omega), ofNat_eq (b := b) (by omega)]
    · exact fun hpad => absurd hpad (digit_ne_pad _)
  | case3 a =>
    have ha := a.toNat_lt
    rw [encodeChars]
    generalize hn : a.toNat * 16 = n
    have hdigits : n / 64 % 64 * 64 + n % 64 = n := by omega
    rw [decodeChars]
    simp only [value_digit, bind, Option.bind_some]
    rw [hdigits, if_pos (by omega), ofNat_eq (b := a) (by omega)]
  | case4 => rfl

theorem decode_encode (data : Bytes) : decode (encode data) = some data := by
  rw [decode, encode, String.toList_ofList, decodeChars_encodeChars]

theorem commaFree_encode (data : Bytes) : CommaFree (encode data) := by
  rw [CommaFree, encode, String.toList_ofList]
  induction data using encodeChars.induct with
  | case1 a b c rest ih => simp [encodeChars, ih, (digit_ne_comma _).symm]
  | case2 a b => simp [encodeChars, (digit_ne_comma _).symm]
  | case3 a => simp [encodeChars, (digit_ne_comma _).symm]
  | case4 => simp [encodeChars]

end Base64

namespace Sha256

/-- The eight words of the state. -/
structure State where
  a : UInt32
  b : UInt32
  c : UInt32
  d : UInt32
  e : UInt32
  f : UInt32
  g : UInt32
  h : UInt32
  deriving DecidableEq, Repr

def State.init : State :=
  ⟨0x6a09e667, 0xbb67ae85, 0x3c6ef372, 0xa54ff53a, 0x510e527f, 0x9b05688c, 0x1f83d9ab, 0x5be0cd19⟩

def State.add (s t : State) : State :=
  ⟨s.a + t.a, s.b + t.b, s.c + t.c, s.d + t.d, s.e + t.e, s.f + t.f, s.g + t.g, s.h + t.h⟩

/-- The constants of the rounds. -/
def roundConstants : List UInt32 :=
  [0x428a2f98, 0x71374491, 0xb5c0fbcf, 0xe9b5dba5, 0x3956c25b, 0x59f111f1, 0x923f82a4, 0xab1c5ed5,
    0xd807aa98, 0x12835b01, 0x243185be, 0x550c7dc3, 0x72be5d74, 0x80deb1fe, 0x9bdc06a7, 0xc19bf174,
    0xe49b69c1, 0xefbe4786, 0x0fc19dc6, 0x240ca1cc, 0x2de92c6f, 0x4a7484aa, 0x5cb0a9dc, 0x76f988da,
    0x983e5152, 0xa831c66d, 0xb00327c8, 0xbf597fc7, 0xc6e00bf3, 0xd5a79147, 0x06ca6351, 0x14292967,
    0x27b70a85, 0x2e1b2138, 0x4d2c6dfc, 0x53380d13, 0x650a7354, 0x766a0abb, 0x81c2c92e, 0x92722c85,
    0xa2bfe8a1, 0xa81a664b, 0xc24b8b70, 0xc76c51a3, 0xd192e819, 0xd6990624, 0xf40e3585, 0x106aa070,
    0x19a4c116, 0x1e376c08, 0x2748774c, 0x34b0bcb5, 0x391c0cb3, 0x4ed8aa4a, 0x5b9cca4f, 0x682e6ff3,
    0x748f82ee, 0x78a5636f, 0x84c87814, 0x8cc70208, 0x90befffa, 0xa4506ceb, 0xbef9a3f7, 0xc67178f2]

def rotr (x n : UInt32) : UInt32 := (x >>> n) ||| (x <<< (32 - n))

/-- The next `n` words of the message schedule, from the last sixteen. -/
def schedule : (n : ℕ) → (window : List UInt32) → List UInt32
  | 0, _ => []
  | n + 1, window =>
    let w0 := window.getD 0 0
    let w1 := window.getD 1 0
    let w14 := window.getD 14 0
    let s0 := rotr w1 7 ^^^ rotr w1 18 ^^^ (w1 >>> 3)
    let s1 := rotr w14 17 ^^^ rotr w14 19 ^^^ (w14 >>> 10)
    w0 :: schedule n (window.drop 1 ++ [w0 + s0 + window.getD 9 0 + s1])

/-- One round, with its constant and its word of the schedule. -/
def round (s : State) (kw : UInt32 × UInt32) : State :=
  let s1 := rotr s.e 6 ^^^ rotr s.e 11 ^^^ rotr s.e 25
  let ch := (s.e &&& s.f) ^^^ (~~~s.e &&& s.g)
  let t1 := s.h + s1 + ch + kw.1 + kw.2
  let s0 := rotr s.a 2 ^^^ rotr s.a 13 ^^^ rotr s.a 22
  let maj := (s.a &&& s.b) ^^^ (s.a &&& s.c) ^^^ (s.b &&& s.c)
  ⟨t1 + (s0 + maj), s.a, s.b, s.c, s.d + t1, s.e, s.f, s.g⟩

/-- The big-endian words of a byte string. -/
def words : Bytes → List UInt32
  | a :: b :: c :: d :: rest =>
    .ofNat (((a.toNat * 256 + b.toNat) * 256 + c.toNat) * 256 + d.toNat) :: words rest
  | _ => []

/-- The state after a block of 64 bytes. -/
def compress (s : State) (block : Bytes) : State :=
  s.add ((roundConstants.zip (schedule 64 (words block))).foldl round s)

/-- The state after the next `n` blocks. -/
def absorb : (n : ℕ) → State → Bytes → State
  | 0, s, _ => s
  | n + 1, s, data => absorb n (compress s (data.take 64)) (data.drop 64)

/-- The `n` big-endian bytes of a number. -/
def bigEndian (n x : ℕ) : Bytes :=
  (List.range n).reverse.map fun i => .ofNat (x >>> (8 * i))

/-- The data with its padding: a bit, zeros, and the length in bits. -/
def pad (data : Bytes) : Bytes :=
  data ++ [0x80] ++ List.replicate ((119 - data.length % 64) % 64) 0 ++
    bigEndian 8 (data.length * 8)

def digest (data : Bytes) : Bytes :=
  let padded := pad data
  let s := absorb (padded.length / 64) .init padded
  [s.a, s.b, s.c, s.d, s.e, s.f, s.g, s.h].flatMap fun w => bigEndian 4 w.toNat

example : digest (asBytes "abc") =
    [0xba, 0x78, 0x16, 0xbf, 0x8f, 0x01, 0xcf, 0xea, 0x41, 0x41, 0x40, 0xde, 0x5d, 0xae, 0x22, 0x23,
      0xb0, 0x03, 0x61, 0xa3, 0x96, 0x17, 0x7a, 0x9c, 0xb4, 0x10, 0xff, 0x61, 0xf2, 0x00, 0x15,
      0xad] := by
  decide +kernel

/-- A key of the length of a block. -/
def blockKey (key : Bytes) : Bytes :=
  let key' := if 64 < key.length then digest key else key
  key' ++ List.replicate (64 - key'.length) 0

def hmac (key data : Bytes) : Bytes :=
  let k := blockKey key
  digest (k.map (· ^^^ 0x5c) ++ digest (k.map (· ^^^ 0x36) ++ data))

theorem length_digest (data : Bytes) : (digest data).length = 32 := by
  simp [digest, bigEndian]

end Sha256

/-- SHA-256 and base64, for passwords in normal form. -/
def sha256Functions : Functions where
  hmac := Sha256.hmac
  hash := Sha256.digest
  encode := Base64.encode
  decode := Base64.decode
  normalize := id

theorem lawful_sha256Functions : sha256Functions.Lawful where
  length_hmac _ _ := Sha256.length_digest _
  decode_encode := Base64.decode_encode
  commaFree_encode := Base64.commaFree_encode

end Resolute.Rfc5802
