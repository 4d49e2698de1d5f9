import Mathlib.Data.Nat.Bitwise
import Resolute.Codec.Basic
import Resolute.Der.Oid
import Resolute.Wire.Encode

/-!
# The hash of the server's certificate

For `tls-server-end-point`, the certificate is hashed with the algorithm of its signature, whose
object identifier is read out of its DER.  `decode_oid` takes the first octet for the first two arcs
and accumulates the others in a `u32` with `checked_shl`, which refuses shifts by 32 bits and more,
but not those that lose bits.

Nothing panics (`returns_parseSignatureOid`).  What the decoder returns is given in closed form by
`decodeOid_cons`, and compared with the arcs that X.690 assigns to the octets (`Assigns`):
`decodeOid_exact_iff` says for which octets the decoder returns just these.  `RealDigest` is the
algorithm that belongs to the arcs of X.690, and may be another one than that which is chosen.
-/

namespace Resolute.CertHash

open X690 (value unfinished subidentifier Group)

/-! ### Outcomes -/

/-- Why no value is returned. -/
inductive Stop where
  | none
  | panic (p : Panic)
  deriving DecidableEq, Repr

/-- The outcome of a function that returns an `Option`. -/
abbrev Parsed (α : Type) := Except Stop α

/-- The function returned. -/
def Returns {α : Type} (r : Parsed α) : Prop := ∀ p, r ≠ .error (.panic p)

/-- `buf.first()?` -/
def first : Bytes → Parsed UInt8
  | [] => .error .none
  | b :: _ => .ok b

/-- `buf.get(i..j)?` -/
def get (buf : Bytes) (i j : ℕ) : Parsed Bytes :=
  if i ≤ j ∧ j ≤ buf.length then .ok ((buf.take j).drop i) else .error .none

/-- `buf.get(i..)?` -/
def getFrom (buf : Bytes) (i : ℕ) : Parsed Bytes := get buf i buf.length

/-- `buf[i]` -/
def index (buf : Bytes) (i : ℕ) : Parsed UInt8 :=
  match buf[i]? with
  | some b => .ok b
  | none => .error (.panic .outOfBounds)

/-- `&buf[i..]` -/
def sliceFrom (buf : Bytes) (i : ℕ) : Parsed Bytes :=
  if i ≤ buf.length then .ok (buf.drop i) else .error (.panic .outOfBounds)

/-- `a + b` of two `usize`s. -/
def add (a b : ℕ) : Parsed ℕ :=
  if a + b < 18446744073709551616 then .ok (a + b) else .error (.panic .overflow)

/-- `a.checked_add(b)?` of two `usize`s. -/
def checkedAdd (a b : ℕ) : Parsed ℕ :=
  if a + b < 18446744073709551616 then .ok (a + b) else .error .none

/-- `a.checked_shl(n)?`, which is `None` only for shifts by all bits of a `u32` or more. -/
def checkedShlU32 (a : UInt32) (n : ℕ) : Parsed UInt32 :=
  if n < 32 then .ok (a <<< UInt32.ofNat n) else .error .none

/-- `a.checked_add(b)?` of two `u32`s. -/
def checkedAddU32 (a b : UInt32) : Parsed UInt32 :=
  if a.toNat + b.toNat < 4294967296 then .ok (a + b) else .error .none

/-! ### The parsers -/

/-- Decode a DER length: how many octets it has, and the length. -/
def readLength (buf : Bytes) : Parsed (ℕ × ℕ) := do
  let b ← first buf
  if b &&& 0x80 = 0 then return (1, b.toNat)
  let n := (b &&& 0x7f).toNat
  if n = 0 ∨ 8 < n then .error .none
  else
    let bytes ← get buf 1 (← add 1 n)
    let len := bytes.foldl (fun len b => (len * 256 % 18446744073709551616) ||| b.toNat) 0
    return (← add 1 n, len)

/-- Read a value with the expected tag: the length with the header, and the contents. -/
def readTlv (buf : Bytes) (expectedTag : UInt8) : Parsed (ℕ × Bytes) := do
  if (← first buf) ≠ expectedTag then .error .none
  else
    let (lenBytes, contentLen) ← readLength (← getFrom buf 1)
    let headerLen ← add 1 lenBytes
    let totalLen ← checkedAdd headerLen contentLen
    let content ← get buf headerLen totalLen
    return (totalLen, content)

/-- The body of the loop of `decode_oid`. -/
def oidStep (s : List UInt32 × UInt32) (b : UInt8) : Parsed (List UInt32 × UInt32) := do
  let acc ← checkedAddU32 (← checkedShlU32 s.2 7) (b &&& 0x7f).toUInt32
  if b &&& 0x80 = 0 then return (s.1 ++ [acc], 0)
  else return (s.1, acc)

def decodeOid (buf : Bytes) : Parsed (List UInt32) := do
  if buf.isEmpty then .error .none
  else
    let b ← index buf 0
    let b := b.toUInt32
    let (out, acc) ← (← sliceFrom buf 1).foldlM oidStep ([b / 40, b % 40], 0)
    if acc ≠ 0 then .error .none
    else return out

/-- The contents of the object identifier that `parse_signature_oid` decodes. -/
def signatureOid (der : Bytes) : Parsed Bytes := do
  let (_, outerBody) ← readTlv der 0x30
  let (tbsTotalLen, _) ← readTlv outerBody 0x30
  let afterTbs ← getFrom outerBody tbsTotalLen
  let (_, algBody) ← readTlv afterTbs 0x30
  let (_, oidBody) ← readTlv algBody 0x06
  return oidBody

def parseSignatureOid (der : Bytes) : Parsed (List UInt32) := do
  decodeOid (← signatureOid der)

/-! ### The algorithm -/

inductive SigDigest where
  | sha256
  | sha384
  | sha512
  deriving DecidableEq, Repr

def sigDigestForOid (oid : List UInt32) : Option SigDigest :=
  if oid = [1, 2, 840, 113549, 1, 1, 11] then some .sha256
  else if oid = [1, 2, 840, 113549, 1, 1, 12] then some .sha384
  else if oid = [1, 2, 840, 113549, 1, 1, 13] then some .sha512
  else if oid = [1, 2, 840, 10045, 4, 3, 2] then some .sha256
  else if oid = [1, 2, 840, 10045, 4, 3, 3] then some .sha384
  else if oid = [1, 2, 840, 10045, 4, 3, 4] then some .sha512
  else if oid = [1, 3, 101, 112] then some .sha512
  else none

/-- The algorithm for an object identifier, if there is one that can be read. -/
def digestOf (oid : Option (List UInt32)) : SigDigest :=
  match oid.bind sigDigestForOid with
  | some .sha384 => .sha384
  | some .sha512 => .sha512
  | _ => .sha256

/-- The algorithm with which `cert_signature_hash` hashes a certificate. -/
def certDigest (der : Bytes) : SigDigest := digestOf (parseSignatureOid der).toOption

/-! ### What X.690 says -/

/-- X.690 assigns the arcs to octets whose subidentifiers are all below `2 ^ 32`. -/
def Assigns (buf : Bytes) (arcs : List UInt32) : Prop :=
  ∃ oid : X690.Oid, oid.contents = buf ∧ (∀ n ∈ oid.subidentifiers, n < 4294967296) ∧
    oid.arcs = arcs.map UInt32.toNat

/-- The decoder returns the arcs that X.690 assigns, and else `None`. -/
def Exact (buf : Bytes) : Prop := ∀ arcs, decodeOid buf = .ok arcs ↔ Assigns buf arcs

/-- The algorithm for the arcs that X.690 assigns, if it assigns any. -/
def RealDigest (buf : Bytes) (digest : SigDigest) : Prop :=
  (∃ arcs, Assigns buf arcs ∧ digest = digestOf (some arcs)) ∨
    (∀ arcs, ¬Assigns buf arcs) ∧ digest = digestOf none

/-- The octets of which the decoder returns what X.690 assigns: none; octets behind the first one
that break off with a number that is not lost modulo `2 ^ 32`; or a first octet below 120, and
behind it subidentifiers without leading zeros, below `2 ^ 32`. -/
def Regular : Bytes → Prop
  | [] => True
  | b :: rest => value (unfinished rest) % 4294967296 ≠ 0 ∨
      b.toNat < 120 ∧ ∃ gs : List Group, rest = gs.flatMap Group.octets ∧
        ∀ g ∈ gs, g.Minimal ∧ value g.octets < 4294967296

/-! ### The decoder -/

theorem and_127 (b : UInt8) : (b &&& 0x7f).toNat = b.toNat % 128 := by
  rw [UInt8.toNat_and]
  exact Nat.and_two_pow_sub_one_eq_mod b.toNat 7

theorem and_128_iff (b : UInt8) : b &&& 0x80 = 0 ↔ b.toNat < 128 := by
  have hlt := b.toNat_lt
  have hand : b.toNat &&& 128 = (b.toNat.testBit 7).toNat * 128 := Nat.and_two_pow b.toNat 7
  have hbit : b.toNat.testBit 7 = decide (b.toNat / 128 % 2 = 1) := Nat.testBit_eq_decide_div_mod_eq
  rw [← UInt8.toNat_inj, UInt8.toNat_and]
  change b.toNat &&& 128 = 0 ↔ _
  rw [hand, hbit, Nat.mul_eq_zero, or_iff_left (by decide), Bool.toNat_eq_zero,
    decide_eq_false_iff_not]
  omega

/-- An octet is added to the number without its highest bits; nothing overflows. -/
theorem oidStep_eq (out : List UInt32) (n : ℕ) (b : UInt8) :
    oidStep (out, UInt32.ofNat n) b =
      .ok (if b.toNat < 128 then (out ++ [UInt32.ofNat (n * 128 + b.toNat % 128)], 0)
        else (out, UInt32.ofNat (n * 128 + b.toNat % 128))) := by
  have hshift : checkedShlU32 (UInt32.ofNat n) 7 = .ok (UInt32.ofNat (n * 128)) := by
    rw [checkedShlU32, if_pos (by decide)]
    congr 1
    rw [← UInt32.toNat_inj, UInt32.toNat_shiftLeft, UInt32.toNat_ofNat', UInt32.toNat_ofNat',
      Nat.shiftLeft_eq]
    change n % 4294967296 * 128 % 4294967296 = n * 128 % 4294967296
    omega
  have hbits : (b &&& 0x7f).toUInt32.toNat = b.toNat % 128 := by
    rw [UInt8.toNat_toUInt32, and_127]
  have hadd : checkedAddU32 (UInt32.ofNat (n * 128)) (b &&& 0x7f).toUInt32 =
      .ok (UInt32.ofNat (n * 128 + b.toNat % 128)) := by
    have hn : (UInt32.ofNat (n * 128)).toNat = n * 128 % 4294967296 := UInt32.toNat_ofNat'
    rw [checkedAddU32, hbits, hn, if_pos (by omega)]
    congr 1
    rw [← UInt32.toNat_inj, UInt32.toNat_add, hbits, hn, UInt32.toNat_ofNat']
    change (n * 128 % 4294967296 + b.toNat % 128) % 4294967296 =
      (n * 128 + b.toNat % 128) % 4294967296
    omega
  simp only [oidStep, hshift, bind, Except.bind, hadd, and_128_iff]
  split_ifs <;> rfl

/-- The number of octets with bit 8. -/
theorem foldlM_tail (out : List UInt32) {bs : Bytes} (h : ∀ b ∈ bs, 128 ≤ b.toNat) :
    bs.foldlM oidStep (out, 0) = .ok (out, UInt32.ofNat (value bs)) := by
  induction bs using List.reverseRecOn with
  | nil => rfl
  | append_singleton bs b ih =>
    rw [List.forall_mem_append, List.forall_mem_singleton] at h
    have hb : ¬b.toNat < 128 := Nat.not_lt.mpr h.2
    rw [List.foldlM_append, ih h.1, X690.value_concat]
    simp only [bind, Except.bind, List.foldlM_cons, List.foldlM_nil, oidStep_eq, if_neg hb]
    rfl

/-- A group is one more number. -/
theorem foldlM_octets (out : List UInt32) (g : Group) :
    g.octets.foldlM oidStep (out, 0) = .ok (out ++ [UInt32.ofNat (value g.octets)], 0) := by
  rw [Group.octets, List.foldlM_append, foldlM_tail out g.init_ge, X690.value_concat]
  simp only [bind, Except.bind, List.foldlM_cons, List.foldlM_nil, oidStep_eq, if_pos g.last_lt]
  rfl

theorem foldlM_groups (out : List UInt32) (gs : List Group) :
    (gs.flatMap Group.octets).foldlM oidStep (out, 0) =
      .ok (out ++ gs.map fun g => UInt32.ofNat (value g.octets), 0) := by
  induction gs generalizing out with
  | nil =>
    rw [List.map_nil, List.append_nil]
    rfl
  | cons g gs ih =>
    rw [List.flatMap_cons, List.foldlM_append, foldlM_octets]
    simp only [bind, Except.bind]
    rw [ih, List.append_assoc]
    rfl

theorem ofNat_eq_zero_iff (n : ℕ) : UInt32.ofNat n = 0 ↔ n % 4294967296 = 0 := by
  rw [← UInt32.toNat_inj, UInt32.toNat_ofNat']
  rfl

/-- **What the decoder returns.** -/
theorem decodeOid_cons (b : UInt8) {rest : Bytes} {gs : List Group}
    (h : rest = gs.flatMap Group.octets ++ unfinished rest) :
    decodeOid (b :: rest) =
      if value (unfinished rest) % 4294967296 ≠ 0 then .error .none
      else .ok (b.toUInt32 / 40 :: b.toUInt32 % 40 ::
        gs.map fun g => UInt32.ofNat (value g.octets)) := by
  have hloop (out : List UInt32) : rest.foldlM oidStep (out, 0) =
      .ok (out ++ gs.map fun g => UInt32.ofNat (value g.octets),
        UInt32.ofNat (value (unfinished rest))) := by
    conv_lhs => rw [h]
    rw [List.foldlM_append, foldlM_groups]
    exact foldlM_tail _ (X690.unfinished_ge rest)
  have hslice : sliceFrom (b :: rest) 1 = .ok rest := by
    rw [sliceFrom, if_pos (by simp)]
    rfl
  have hindex : index (b :: rest) 0 = .ok b := rfl
  rw [decodeOid]
  simp only [List.isEmpty_cons, Bool.false_eq_true, if_false, bind, Except.bind, hslice, hindex,
    hloop, ne_eq, ofNat_eq_zero_iff]
  split_ifs <;> rfl

/-! ### Nothing panics -/

section

variable {α β : Type}

theorem returns_ok (a : α) : Returns (.ok a : Parsed α) := fun p h => by cases h

theorem returns_none : Returns (.error .none : Parsed α) := fun p h => by cases h

theorem Returns.bind {x : Parsed α} {f : α → Parsed β} (hx : Returns x)
    (hf : ∀ a, x = .ok a → Returns (f a)) : Returns (x >>= f) := by
  cases x with
  | ok a => exact hf a rfl
  | error e =>
    intro p h
    exact hx p (congrArg Except.error (Except.error.inj h))

end

theorem returns_first (buf : Bytes) : Returns (first buf) := by
  cases buf
  · exact returns_none
  · exact returns_ok _

theorem returns_get (buf : Bytes) (i j : ℕ) : Returns (get buf i j) := by
  unfold get
  split_ifs
  · exact returns_ok _
  · exact returns_none

theorem returns_checkedAdd (a b : ℕ) : Returns (checkedAdd a b) := by
  unfold checkedAdd
  split_ifs
  · exact returns_ok _
  · exact returns_none

theorem add_eq {a b : ℕ} (h : a + b < 18446744073709551616) : add a b = .ok (a + b) := if_pos h

/-- A length has at most nine octets. -/
theorem readLength_spec (buf : Bytes) :
    Returns (readLength buf) ∧ ∀ k len, readLength buf = .ok (k, len) → k ≤ 9 := by
  cases buf with
  | nil => exact ⟨returns_none, fun k len h => by cases h⟩
  | cons b rest =>
    have hfirst : first (b :: rest) = .ok b := rfl
    simp only [readLength, hfirst, ok_bind]
    split_ifs with hshort hn
    · refine ⟨returns_ok _, fun k len h => ?_⟩
      cases h
      decide
    · exact ⟨returns_none, fun k len h => by cases h⟩
    · have hlong : 1 + (b &&& 0x7f).toNat ≤ 9 := by omega
      have hadd := add_eq (show 1 + (b &&& 0x7f).toNat < 18446744073709551616 by omega)
      simp only [hadd, ok_bind]
      have hget := returns_get (b :: rest) 1 (1 + (b &&& 0x7f).toNat)
      cases hbytes : get (b :: rest) 1 (1 + (b &&& 0x7f).toNat) with
      | ok bytes =>
        refine ⟨returns_ok _, fun k len h => ?_⟩
        cases h
        exact hlong
      | error e =>
        rw [hbytes] at hget
        exact ⟨hget.bind fun _ _ => returns_ok _, fun k len h => by cases h⟩

theorem returns_readTlv (buf : Bytes) (expectedTag : UInt8) :
    Returns (readTlv buf expectedTag) := by
  refine (returns_first buf).bind fun b _ => ?_
  split_ifs
  · exact returns_none
  · refine (returns_get buf 1 _).bind fun rest _ => ?_
    refine (readLength_spec rest).1.bind fun (lenBytes, contentLen) hlength => ?_
    have hle := (readLength_spec rest).2 _ _ hlength
    simp only [add_eq (show 1 + lenBytes < 18446744073709551616 by omega)]
    refine (returns_ok _).bind fun headerLen _ => ?_
    refine (returns_checkedAdd _ _).bind fun totalLen _ => ?_
    exact (returns_get buf _ _).bind fun content _ => returns_ok _

theorem returns_decodeOid (buf : Bytes) : Returns (decodeOid buf) := by
  cases buf with
  | nil => exact returns_none
  | cons b rest =>
    obtain ⟨gs, hgs⟩ := X690.exists_groups rest
    rw [decodeOid_cons b hgs]
    split_ifs
    · exact returns_none
    · exact returns_ok _

theorem returns_signatureOid (der : Bytes) : Returns (signatureOid der) := by
  refine (returns_readTlv der _).bind fun outer _ => ?_
  refine (returns_readTlv outer.2 _).bind fun tbs _ => ?_
  refine (returns_get outer.2 _ _).bind fun afterTbs _ => ?_
  refine (returns_readTlv afterTbs _).bind fun alg _ => ?_
  exact (returns_readTlv alg.2 _).bind fun oid _ => returns_ok _

/-- **Nothing panics.** -/
theorem returns_parseSignatureOid (der : Bytes) : Returns (parseSignatureOid der) :=
  (returns_signatureOid der).bind fun _ _ => returns_decodeOid _

/-! ### Arcs -/

theorem toNat_injective : Function.Injective UInt32.toNat := fun _ _ => UInt32.toNat_inj.mp

/-- The octets determine the arcs. -/
theorem Assigns.unique {buf : Bytes} {arcs arcs' : List UInt32} (h : Assigns buf arcs)
    (h' : Assigns buf arcs') : arcs = arcs' := by
  obtain ⟨oid, rfl, -, harcs⟩ := h
  obtain ⟨oid', hcontents, -, harcs'⟩ := h'
  obtain rfl := X690.Oid.contents_injective hcontents
  exact List.map_injective_iff.mpr toNat_injective (harcs.symm.trans harcs')

/-- The arcs determine the octets. -/
theorem Assigns.octets_unique {buf buf' : Bytes} {arcs : List UInt32} (h : Assigns buf arcs)
    (h' : Assigns buf' arcs) : buf = buf' := by
  obtain ⟨oid, rfl, -, harcs⟩ := h
  obtain ⟨oid', rfl, -, harcs'⟩ := h'
  have heq : oid = oid' := by
    have hlist := harcs.trans harcs'.symm
    simp only [X690.Oid.arcs, List.cons.injEq] at hlist
    exact X690.Oid.ext hlist.1 hlist.2.1 hlist.2.2
  rw [heq]

/-- Nothing is assigned to octets that break off. -/
theorem not_assigns {b : UInt8} {rest : Bytes} (h : unfinished rest ≠ []) (arcs : List UInt32) :
    ¬Assigns (b :: rest) arcs := by
  rintro ⟨oid, hcontents, -⟩
  exact h (X690.unfinished_eq_nil_of_cons (hcontents ▸ oid.unfinished_contents))

theorem toNat_first (b : UInt8) :
    (b.toUInt32 / 40).toNat = b.toNat / 40 ∧ (b.toUInt32 % 40).toNat = b.toNat % 40 := by
  rw [UInt32.toNat_div, UInt32.toNat_mod, UInt8.toNat_toUInt32]
  exact ⟨rfl, rfl⟩

theorem subidentifier_first {b : UInt8} (h : b.toNat < 128) : subidentifier b.toNat = [b] := by
  rw [X690.subidentifier_of_lt h, UInt8.ofNat_toNat]

/-- The arcs that the decoder returns are assigned to octets with a small first one. -/
theorem assigns_cons_iff {b : UInt8} {rest : Bytes} {gs : List Group}
    (h : rest = gs.flatMap Group.octets) :
    Assigns (b :: rest) (b.toUInt32 / 40 :: b.toUInt32 % 40 ::
        gs.map fun g => UInt32.ofNat (value g.octets)) ↔
      b.toNat < 120 ∧ ∀ g ∈ gs, g.Minimal ∧ value g.octets < 4294967296 := by
  obtain ⟨htop, hsecond⟩ := toNat_first b
  constructor
  · rintro ⟨oid, hcontents, hsmall, harcs⟩
    simp only [X690.Oid.arcs, List.map_cons, List.cons.injEq, htop, hsecond] at harcs
    have hfirst : oid.top * 40 + oid.second = b.toNat := by omega
    have hlt : b.toNat < 120 := by
      have := oid.top_le
      omega
    rw [X690.Oid.contents, X690.Oid.subidentifiers, hfirst, List.flatMap_cons,
      subidentifier_first (by omega), List.singleton_append, List.cons.injEq, h,
      X690.flatMap_subidentifier] at hcontents
    have hgs := X690.flatMap_octets_injective hcontents.2
    refine ⟨hlt, fun g hg => ?_⟩
    obtain ⟨n, hn, rfl⟩ := List.mem_map.mp (hgs ▸ hg)
    refine ⟨Group.minimal_ofNat n, ?_⟩
    rw [Group.octets_ofNat, Group.value_subidentifier]
    exact hsmall n (List.mem_cons_of_mem _ hn)
  · rintro ⟨hlt, hgs⟩
    have hfirst : b.toNat / 40 * 40 + b.toNat % 40 = b.toNat := by omega
    refine ⟨⟨b.toNat / 40, b.toNat % 40, gs.map fun g => value g.octets, by omega, by omega⟩,
      ?_, ?_, ?_⟩
    · rw [X690.Oid.contents, X690.Oid.subidentifiers, List.flatMap_cons, hfirst,
        subidentifier_first (by omega),
        X690.flatMap_subidentifier_value fun g hg => (hgs g hg).1, h]
      rfl
    · simp only [X690.Oid.subidentifiers, List.forall_mem_cons, List.forall_mem_map]
      exact ⟨by omega, fun g hg => (hgs g hg).2⟩
    · simp only [X690.Oid.arcs, List.map_cons, htop, hsecond, List.map_map]
      refine congrArg (_ :: _ :: ·) (List.map_congr_left fun g hg => ?_)
      exact (UInt32.toNat_ofNat_of_lt' (hgs g hg).2).symm

/-- The decoder refuses rightly, or returns what may be assigned. -/
theorem exact_iff_of_ok {buf : Bytes} {arcs : List UInt32} (h : decodeOid buf = .ok arcs) :
    Exact buf ↔ Assigns buf arcs := by
  refine ⟨fun hexact => (hexact arcs).mp h, fun hassigns arcs' => ?_⟩
  rw [h, Except.ok.injEq]
  exact ⟨fun heq => heq ▸ hassigns, fun hassigns' => hassigns.unique hassigns'⟩

/-- **When the decoder returns what X.690 assigns.** -/
theorem exact_iff (buf : Bytes) : Exact buf ↔ Regular buf := by
  cases buf with
  | nil =>
    refine iff_of_true (fun arcs => iff_of_false (fun h => by cases h) ?_) trivial
    rintro ⟨oid, hcontents, -⟩
    exact oid.contents_ne_nil hcontents
  | cons b rest =>
    obtain ⟨gs, hgs⟩ := X690.exists_groups rest
    have hdecode := decodeOid_cons b hgs
    by_cases hbroken : value (unfinished rest) % 4294967296 ≠ 0
    · rw [if_pos hbroken] at hdecode
      have hne : unfinished rest ≠ [] := fun hnil => hbroken (by rw [hnil]; rfl)
      refine iff_of_true (fun arcs => iff_of_false (fun h => ?_) (not_assigns hne arcs))
        (.inl hbroken)
      rw [hdecode] at h
      cases h
    · rw [if_neg hbroken] at hdecode
      rw [exact_iff_of_ok hdecode, Regular, or_iff_right hbroken]
      by_cases hnil : unfinished rest = []
      · rw [hnil, List.append_nil] at hgs
        rw [assigns_cons_iff hgs]
        refine and_congr_right fun _ => ⟨fun h => ⟨gs, hgs, h⟩, ?_⟩
        rintro ⟨gs', hgs', h⟩
        rwa [X690.flatMap_octets_injective (hgs.symm.trans hgs')]
      · refine iff_of_false (not_assigns hnil _) ?_
        rintro ⟨-, gs', rfl, -⟩
        exact hnil (X690.unfinished_flatMap gs')

/-! ### The algorithm that is chosen -/

theorem realDigest_of_exact {buf : Bytes} (h : Exact buf) :
    RealDigest buf (digestOf (decodeOid buf).toOption) := by
  cases hdecode : decodeOid buf with
  | ok arcs => exact .inl ⟨arcs, (h arcs).mp hdecode, rfl⟩
  | error e =>
    refine .inr ⟨fun arcs hassigns => ?_, rfl⟩
    have hok := (h arcs).mpr hassigns
    rw [hdecode] at hok
    cases hok

/-- **The algorithm is that of the arcs that X.690 assigns**, if the decoder is exact. -/
theorem realDigest_certDigest {der buf : Bytes} (hbuf : signatureOid der = .ok buf)
    (h : Exact buf) : RealDigest buf (certDigest der) := by
  have hparse : parseSignatureOid der = decodeOid buf := by
    rw [parseSignatureOid, hbuf]
    rfl
  rw [certDigest, hparse]
  exact realDigest_of_exact h

/-- **Object identifiers.**  Nothing panics.  The decoder returns what X.690 assigns, exactly for
regular octets; different ones of these are never given the same arcs, and choose the algorithm of
their arcs. -/
theorem decodeOid_exact_iff (buf : Bytes) :
    Returns (decodeOid buf) ∧ (∀ der, Returns (parseSignatureOid der)) ∧
      (Exact buf ↔ Regular buf) ∧
      (Regular buf →
        (∀ buf' arcs, Regular buf' → decodeOid buf = .ok arcs → decodeOid buf' = .ok arcs →
          buf = buf') ∧
        ∀ der, signatureOid der = .ok buf → RealDigest buf (certDigest der)) := by
  refine ⟨returns_decodeOid buf, returns_parseSignatureOid, exact_iff buf, fun hbuf => ⟨?_, ?_⟩⟩
  · intro buf' arcs hbuf' h h'
    have hassigns := ((exact_iff buf).mpr hbuf arcs).mp h
    exact hassigns.octets_unique (((exact_iff buf').mpr hbuf' arcs).mp h')
  · intro der hder
    exact realDigest_certDigest hder ((exact_iff buf).mpr hbuf)

/-- The object identifier 1.2.4294968136.10045.4.3.3. -/
def wideOid : Bytes := [0x2A, 0x90, 0x80, 0x80, 0x86, 0x48, 0xCE, 0x3D, 0x04, 0x03, 0x03]

/-- As much of a certificate as is read, with this algorithm. -/
def wideCert : Bytes := [0x30, 0x11, 0x30, 0x00, 0x30, 0x0D, 0x06, 0x0B] ++ wideOid

theorem not_assigns_wideOid (arcs : List UInt32) : ¬Assigns wideOid arcs := by
  rintro ⟨oid, hcontents, hsmall, -⟩
  have hwide : X690.Oid.contents ⟨1, 2, [4294968136, 10045, 4, 3, 3], by decide, by decide⟩ =
      wideOid := by decide
  obtain rfl := X690.Oid.contents_injective (hcontents.trans hwide.symm)
  exact absurd (hsmall 4294968136 (by decide)) (by decide)

/-- It is taken for 1.2.840.10045.4.3.3, which is ECDSA with SHA-384. -/
theorem wide_collides : signatureOid wideCert = .ok wideOid ∧
    decodeOid wideOid = .ok [1, 2, 840, 10045, 4, 3, 3] ∧ certDigest wideCert = .sha384 ∧
      ¬Exact wideOid ∧ ¬RealDigest wideOid (certDigest wideCert) := by
  have hdecode : decodeOid wideOid = .ok [1, 2, 840, 10045, 4, 3, 3] := by decide
  have hdigest : certDigest wideCert = .sha384 := by decide
  refine ⟨by decide, hdecode, hdigest, fun hexact => ?_, ?_⟩
  · exact not_assigns_wideOid _ ((hexact _).mp hdecode)
  · rw [hdigest]
    rintro (⟨arcs, hassigns, -⟩ | ⟨-, hnone⟩)
    · exact not_assigns_wideOid arcs hassigns
    · cases hnone

end Resolute.CertHash
