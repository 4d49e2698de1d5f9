import Resolute.Codec.Basic

/-!
# Decoders and hostile bytes

A length on the wire is signed.  The decoders cast it to `usize`, where a negative number is close
to `2 ^ 64`, and add it to their position: the sum overflows unless the position is small.  The
number of elements of an array is cast in the same way, and memory is asked for before the elements
are looked at.

The lengths that a decoder comes to are those of its *items*: the elements, the bounds, the fields.
An item begins where the one in front of it ends, and it is looked at only if what is in front of it
was decoded, so whether a length matters depends on the items in front of it (`Guarded`).  An `Item`
keeps what of its decoder this depends on.  A decoder returns exactly from guarded bytes
(`containers_return_iff`), which is the same statement for the elements of an array, the bounds of a
range and the fields of a composite.
-/

namespace Resolute

/-- A `&[u8]`: no object is larger than `isize::MAX`. -/
def Slice := { bs : Bytes // bs.length ≤ isizeMax }

theorem isizeMax_eq : isizeMax = 9223372036854775807 := rfl

/-! ### Guarded bytes -/

/-- What an item with length `-1` is. -/
inductive NullLength where
  /-- An error. -/
  | refused
  /-- An item without data. -/
  | value
  /-- A length like another. -/
  | length
  deriving DecidableEq, Repr

/-- A part of a value that has a length in front of it, and `lead` bytes in front of that. -/
structure Item where
  lead : ℕ
  null : NullLength
  /-- The data is decoded without an error. -/
  accepts : Bytes → Bool

/-- The length of the item at `offset`, if a decoder comes to it, is `-1` and that has a meaning; or
it is negative by so much that the position cannot make up for it; or it is not negative, and
`rest` holds where the item ends. -/
def Item.Guard (item : Item) (buf : Bytes) (offset : ℕ) (rest : ℕ → Prop) : Prop :=
  let next := offset + item.lead + 4
  let len := (i32At buf (offset + item.lead)).toInt
  next ≤ buf.length →
    if len = -1 ∧ item.null ≠ .length then item.null = .value → rest next
    else if len < 0 then next + len < 0
    else next + len.toNat ≤ buf.length →
      item.accepts ((buf.take (next + len.toNat)).drop next) → rest (next + len.toNat)

/-- The lengths of the items from `offset` on are harmless. -/
def Guarded (buf : Bytes) : List Item → (offset : ℕ) → Prop
  | [], _ => True
  | item :: items, offset => item.Guard buf offset (Guarded buf items)

section

variable {α : Type} (decode : Bytes → Decoded α)

/-- An element of an array, a bound of a range. -/
def elementItem : Item := ⟨0, .refused, fun data => (decode data).isOk⟩

def boundItem : Item := ⟨0, .length, fun data => (decode data).isOk⟩

/-- An array of one dimension has no more elements than it has bytes for, they fit into memory, and
their lengths are harmless. -/
def ArrayGuarded (size : ℕ) (buf : Bytes) : Prop :=
  20 ≤ buf.length → i32At buf 0 = 1 →
    let dim := (i32At buf 12).toInt
    0 ≤ dim ∧ 20 + 4 * dim ≤ buf.length ∧ dim * size ≤ isizeMax ∧
      Guarded buf (.replicate dim.toNat (elementItem decode)) 20

/-- The bounds that follow the flags. -/
def boundItems (flags : UInt8) : List Item :=
  (if flags &&& rangeLbInf != 0 then [] else [boundItem decode]) ++
    (if flags &&& rangeUbInf != 0 then [] else [boundItem decode])

/-- The lengths of the bounds are harmless. -/
def RangeGuarded (buf : Bytes) : Prop :=
  ∀ flags, buf.head? = some flags → flags &&& rangeEmpty = 0 →
    Guarded buf (boundItems decode flags) 1

end

def Field.item : Field → Item
  | required _ c _ => ⟨4, .refused, fun data => (c.decode data).isOk⟩
  | optional _ c => ⟨4, .value, fun data => (c.decode data).isOk⟩

/-- The fields that a decoder looks for in the bytes of the struct: those up to one that hides
them. -/
def fieldItems : List Field → List Item
  | [] => []
  | .required oid _ .buf :: _ => [Field.item (.required oid _ .buf)]
  | f :: fs => f.item :: fieldItems fs

/-- The lengths of the fields are harmless. -/
def CompositeGuarded (fs : List Field) (buf : Bytes) : Prop :=
  4 ≤ buf.length → Guarded buf (fieldItems fs) 4

/-- The memory that the decoder of an array asks for is for elements that the bytes have room for:
each has a length. -/
def Contained (buf : Bytes) : Prop :=
  ∀ oid count offset, parseArrayHeader buf = .ok (oid, count, offset) →
    offset + 4 * count ≤ buf.length

/-! ### Returning -/

open Decoded (Returns)

section Returning

variable {α β : Type}

theorem returns_ok (a : α) : Returns (.ok a) := fun _ h => by cases h

theorem returns_error (e : TypedError) : Returns (.error (.err e) : Decoded α) :=
  fun _ h => by cases h

theorem returns_err (column : ℕ) (message : String) : Returns (.err column message : Decoded α) :=
  returns_error _

theorem not_returns_panic (p : Panic) : ¬Returns (.panic p : Decoded α) := fun h => h p rfl

theorem returns_bind {x : Decoded α} {f : α → Decoded β} :
    Returns (x >>= f) ↔ Returns x ∧ ∀ a, x = .ok a → Returns (f a) := by
  cases x with
  | ok a =>
    refine ⟨fun h => ⟨returns_ok a, ?_⟩, fun h => h.2 a rfl⟩
    rintro b ⟨⟩
    exact h
  | error e =>
    refine ⟨fun h => ⟨?_, fun a ha => by cases ha⟩, ?_⟩
    · rintro p ⟨⟩
      exact h p rfl
    · rintro ⟨h, -⟩ p hp
      cases hp
      exact h p rfl

theorem returns_header_bind {buf : Bytes} {offset n column : ℕ} {message : String}
    {f : ℕ → Decoded β} (h : offset + n < 2 ^ 64) :
    Returns (header buf offset n (.err column message) >>= f) ↔
      (offset + n ≤ buf.length → Returns (f (offset + n))) := by
  rw [header, addUsize, if_pos h, ok_bind]
  by_cases hstop : offset + n ≤ buf.length
  · rw [if_neg (Nat.not_lt.2 hstop), ok_bind]
    exact (imp_iff_right hstop).symm
  · rw [if_pos (Nat.not_le.1 hstop)]
    exact ⟨fun _ hle => absurd hle hstop, fun _ => returns_err column message⟩

theorem readI32_eq {buf : Bytes} {i : ℕ} (h : i + 4 ≤ buf.length) :
    readI32 buf i = .ok (i32At buf i) := by
  rw [readI32, readU32, if_pos h]
  rfl

theorem readU32_eq {buf : Bytes} {i : ℕ} (h : i + 4 ≤ buf.length) :
    readU32 buf i = .ok (u32At buf i) := if_pos h

/-- A cast length is the length, or is out of reach. -/
theorem asUsize_eq (len : Int32) :
    (asUsize len : ℤ) = if len.toInt < 0 then len.toInt + 2 ^ 64 else len.toInt := by
  have hlow := len.le_toInt
  have hhigh := len.toInt_lt
  rw [asUsize]
  split_ifs <;> omega

theorem returns_readData_bind {buf : Bytes} {offset column : ℕ} {len : Int32} {message : String}
    {f : Bytes × ℕ → Decoded β} (h : offset ≤ buf.length) (hbuf : buf.length ≤ isizeMax) :
    Returns (readData buf offset len (.err column message) >>= f) ↔
      if len.toInt < 0 then offset + len.toInt < 0
      else offset + len.toInt.toNat ≤ buf.length →
        Returns (f ((buf.take (offset + len.toInt.toNat)).drop offset,
          offset + len.toInt.toNat)) := by
  have hcast := asUsize_eq len
  have hlow := len.le_toInt
  have hhigh := len.toInt_lt
  rw [isizeMax_eq] at hbuf
  by_cases hneg : len.toInt < 0
  · rw [if_pos hneg] at hcast ⊢
    by_cases hover : offset + len.toInt < 0
    · have hsum : offset + asUsize len < 2 ^ 64 := by omega
      have hpast : offset + asUsize len > buf.length := by omega
      rw [readData, addUsize, if_pos hsum, ok_bind, if_pos hpast]
      exact iff_of_true (returns_err column message) hover
    · have hsum : ¬offset + asUsize len < 2 ^ 64 := by omega
      rw [readData, addUsize, if_neg hsum]
      exact iff_of_false (not_returns_panic .overflow) hover
  · rw [if_neg hneg] at hcast ⊢
    have hnat : asUsize len = len.toInt.toNat := by omega
    have hsum : offset + len.toInt.toNat < 2 ^ 64 := by omega
    rw [readData, hnat, addUsize, if_pos hsum, ok_bind]
    by_cases hstop : offset + len.toInt.toNat ≤ buf.length
    · rw [if_neg (Nat.not_lt.2 hstop), slice, if_pos ⟨Nat.le_add_right _ _, hstop⟩, ok_bind,
        ok_bind]
      exact (imp_iff_right hstop).symm
    · rw [if_pos (Nat.not_le.1 hstop)]
      exact ⟨fun _ hle => absurd hle hstop, fun _ => returns_err column message⟩

/-- The data of an item is taken and decoded, and `k` goes on behind it. -/
theorem returns_data_bind {decode : Bytes → Decoded α} (hdecode : ∀ data, Returns (decode data))
    {buf : Bytes} {next column : ℕ} {len : Int32} {message : String} (hnext : next ≤ buf.length)
    (hbuf : buf.length ≤ isizeMax) (k : α → ℕ → Decoded β) (rest : ℕ → Prop)
    (hk : ∀ v stop, stop ≤ buf.length → (∃ data : Bytes, data.length ≤ stop ∧ decode data = .ok v) →
      (Returns (k v stop) ↔ rest stop)) :
    Returns (readData buf next len (.err column message) >>= fun (data, stop) =>
        decode data >>= fun v => k v stop) ↔
      if len.toInt < 0 then next + len.toInt < 0
      else next + len.toInt.toNat ≤ buf.length →
        (decode ((buf.take (next + len.toInt.toNat)).drop next)).isOk →
          rest (next + len.toInt.toNat) := by
  rw [returns_readData_bind hnext hbuf]
  split_ifs with hneg
  · exact Iff.rfl
  refine imp_congr_right fun hstop => ?_
  have hshort : ((buf.take (next + len.toInt.toNat)).drop next).length ≤
      next + len.toInt.toNat := by
    rw [List.length_drop, List.length_take]
    omega
  generalize (buf.take (next + len.toInt.toNat)).drop next = data at hshort ⊢
  rw [returns_bind, and_iff_right (hdecode data)]
  constructor
  · intro h hok
    cases hv : decode data with
    | ok v => exact (hk v _ hstop ⟨data, hshort, hv⟩).1 (h v hv)
    | error e => rw [hv] at hok; cases hok
  · intro h v hv
    exact (hk v _ hstop ⟨data, hshort, hv⟩).2 (h (by rw [hv]; rfl))

end Returning

/-! ### Containers -/

section Containers

variable {α : Type} {decode : Bytes → Decoded α} {buf : Bytes}

theorem toInt_eq_neg_one_iff {len : Int32} : len.toInt = -1 ↔ len = -1 :=
  ⟨fun h => Int32.toInt_inj.1 h, fun h => h ▸ rfl⟩

theorem decodeElements_returns_iff (hdecode : ∀ data, Returns (decode data))
    (hbuf : buf.length ≤ isizeMax) {count offset : ℕ} (hoffset : offset ≤ buf.length) :
    Returns (decodeElements decode buf count offset) ↔
      Guarded buf (.replicate count (elementItem decode)) offset := by
  induction count generalizing offset with
  | zero => exact iff_of_true (returns_ok _) trivial
  | succ count ih =>
    have hsmall : offset + 4 < 2 ^ 64 := by
      rw [isizeMax_eq] at hbuf
      omega
    rw [decodeElements, returns_header_bind hsmall, List.replicate_succ, Guarded, Item.Guard]
    refine imp_congr_right fun hle => ?_
    rw [readI32_eq hle, ok_bind]
    by_cases hnull : i32At buf offset = -1
    · rw [if_pos hnull, if_pos ⟨toInt_eq_neg_one_iff.2 hnull, fun h => by cases h⟩]
      exact iff_of_true (returns_err _ _) fun h => by cases h
    · rw [if_neg hnull, if_neg fun h => hnull (toInt_eq_neg_one_iff.1 h.1)]
      refine returns_data_bind hdecode hle hbuf
        (fun v stop => decodeElements decode buf count stop >>= fun vs => .ok (v :: vs))
        (Guarded buf (.replicate count (elementItem decode))) fun v stop hstop _ => ?_
      rw [returns_bind]
      exact (and_iff_left fun vs _ => returns_ok _).trans (ih hstop)

theorem parseArrayHeader_eq (buf : Bytes) :
    parseArrayHeader buf =
      if buf.length < 12 then .err 0 "array: header too short"
      else if i32At buf 0 = 0 then .ok (u32At buf 8, 0, 12)
      else if i32At buf 0 ≠ 1 then
        .err 0 s!"array: only 1D arrays supported, got {i32At buf 0}D"
      else if buf.length < 20 then .err 0 "array: 1D header too short"
      else .ok (u32At buf 8, asUsize (i32At buf 12), 20) := by
  rw [parseArrayHeader]
  by_cases h12 : buf.length < 12
  · rw [if_pos h12, if_pos h12]
  rw [if_neg h12, if_neg h12, readI32_eq (by omega), ok_bind, readU32_eq (by omega), ok_bind]
  by_cases h20 : buf.length < 20
  · rw [if_pos h20, if_pos h20]
  · rw [if_neg h20, if_neg h20, readI32_eq (by omega), ok_bind]

/-- Without a dimension there are no elements. -/
theorem parseArrayHeader_flat (h : 20 ≤ buf.length → i32At buf 0 ≠ 1) :
    (∃ e, parseArrayHeader buf = .error (.err e)) ∨
      12 ≤ buf.length ∧ parseArrayHeader buf = .ok (u32At buf 8, 0, 12) := by
  rw [parseArrayHeader_eq]
  split_ifs with h12 hzero hone h20
  · exact .inl ⟨_, rfl⟩
  · exact .inr ⟨by omega, rfl⟩
  · exact .inl ⟨_, rfl⟩
  · exact .inl ⟨_, rfl⟩
  · exact absurd (not_not.1 hone) (h (by omega))

/-- An array of one dimension. -/
theorem array_returns_of_dim (hdecode : ∀ data, Returns (decode data))
    (hbuf : buf.length ≤ isizeMax) (size : ℕ) {oid : Oid} {dim : Int32}
    (hlen : 20 ≤ buf.length) (hheader : parseArrayHeader buf = .ok (oid, asUsize dim, 20)) :
    Returns (decodeArrayElements size decode buf) ∧ Contained buf ↔
      0 ≤ dim.toInt ∧ 20 + 4 * dim.toInt ≤ buf.length ∧ dim.toInt * size ≤ isizeMax ∧
        Guarded buf (.replicate dim.toInt.toNat (elementItem decode)) 20 := by
  have hcast := asUsize_eq dim
  have hlow := dim.le_toInt
  rw [isizeMax_eq] at hbuf
  have hcontained : Contained buf ↔ 20 + 4 * asUsize dim ≤ buf.length := by
    constructor
    · intro h
      exact h _ _ _ hheader
    · intro h oid' count offset heq
      obtain ⟨-, rfl, rfl⟩ : oid = oid' ∧ asUsize dim = count ∧ 20 = offset := by
        simpa using hheader.symm.trans heq
      exact h
  rw [hcontained]
  by_cases hneg : dim.toInt < 0
  · rw [if_pos hneg] at hcast
    exact iff_of_false (fun h => by have := h.2; omega) fun h => by have := h.1; omega
  · rw [if_neg hneg] at hcast
    have hnat : asUsize dim = dim.toInt.toNat := by omega
    have hcapacity : (dim.toInt * size ≤ isizeMax) ↔ asUsize dim * size ≤ isizeMax := by
      rw [← hcast]
      exact_mod_cast Iff.rfl
    rw [hcapacity, decodeArrayElements, hheader, ok_bind]
    dsimp only
    rw [withCapacity, ← hnat, ← decodeElements_returns_iff hdecode hbuf hlen]
    by_cases hfits : asUsize dim * size ≤ isizeMax
    · rw [if_pos hfits, ok_bind]
      constructor
      · rintro ⟨hreturns, hroom⟩
        exact ⟨by omega, by omega, hfits, hreturns⟩
      · rintro ⟨-, hroom, -, hreturns⟩
        exact ⟨hreturns, by omega⟩
    · rw [if_neg hfits]
      exact iff_of_false (fun h => not_returns_panic .capacityOverflow h.1) fun h => hfits h.2.2.1

theorem array_returns_iff (hdecode : ∀ data, Returns (decode data))
    (hbuf : buf.length ≤ isizeMax) (size : ℕ) :
    Returns (decodeArrayElements size decode buf) ∧ Contained buf ↔
      ArrayGuarded decode size buf := by
  rw [ArrayGuarded]
  by_cases hdim : 20 ≤ buf.length ∧ i32At buf 0 = 1
  · obtain ⟨hlen, hone⟩ := hdim
    have hheader : parseArrayHeader buf = .ok (u32At buf 8, asUsize (i32At buf 12), 20) := by
      rw [parseArrayHeader_eq, if_neg (by omega), if_neg (by rw [hone]; decide),
        if_neg (not_not.2 hone), if_neg (by omega)]
    rw [imp_iff_right hlen, imp_iff_right hone]
    exact array_returns_of_dim hdecode hbuf size hlen hheader
  · refine iff_of_true ?_ fun hlen hone => absurd ⟨hlen, hone⟩ hdim
    rw [decodeArrayElements, Contained]
    rcases parseArrayHeader_flat (not_and.1 hdim) with ⟨e, heq⟩ | ⟨hlen, heq⟩
    · rw [heq]
      exact ⟨returns_error e, fun _ _ _ h => by cases h⟩
    · rw [heq, ok_bind]
      refine ⟨?_, fun oid count offset h => ?_⟩
      · dsimp only
        rw [withCapacity, Nat.zero_mul, if_pos (Nat.zero_le _), ok_bind]
        exact returns_ok _
      · obtain ⟨-, rfl, rfl⟩ : u32At buf 8 = oid ∧ 0 = count ∧ 12 = offset := by simpa using h
        exact hlen

/-- A bound that is not infinite. -/
theorem decodeBound_bind_returns_iff (hdecode : ∀ data, Returns (decode data))
    (hbuf : buf.length ≤ isizeMax) {β : Type} {offset : ℕ} (hoffset : offset ≤ buf.length)
    (side : String) (k : Option α × ℕ → Decoded β) (rest : ℕ → Prop)
    (hk : ∀ bound stop, stop ≤ buf.length → (Returns (k (bound, stop)) ↔ rest stop)) :
    Returns (decodeBound decode side false buf offset >>= k) ↔
      (boundItem decode).Guard buf offset rest := by
  have hsmall : offset + 4 < 2 ^ 64 := by
    rw [isizeMax_eq] at hbuf
    omega
  have hbound : decodeBound decode side false buf offset >>= k =
      header buf offset 4 (.err 0 s!"range: truncated {side} bound length") >>= fun next =>
        readI32 buf offset >>= fun len =>
        readData buf next len (.err 0 s!"range: truncated {side} bound data") >>=
        fun (data, stop) => decode data >>= fun v => k (some v, stop) := by
    simp only [decodeBound, Bool.false_eq_true, if_false, bind_assoc, ok_bind]
  rw [hbound, returns_header_bind hsmall, Item.Guard]
  refine imp_congr_right fun hle => ?_
  rw [readI32_eq hle, ok_bind, if_neg fun h => h.2 rfl]
  exact returns_data_bind hdecode hle hbuf (fun v stop => k (some v, stop)) rest
    fun v stop hstop _ => hk (some v) stop hstop

theorem range_returns_iff (hdecode : ∀ data, Returns (decode data))
    (hbuf : buf.length ≤ isizeMax) :
    Returns (decodeRange decode buf) ↔ RangeGuarded decode buf := by
  cases buf with
  | nil => exact iff_of_true (returns_err _ _) fun _ h => by cases h
  | cons flags data =>
    have hguarded : RangeGuarded decode (flags :: data) ↔
        (flags &&& rangeEmpty = 0 → Guarded (flags :: data) (boundItems decode flags) 1) := by
      simp [RangeGuarded]
    rw [decodeRange, hguarded]
    by_cases hempty : flags &&& rangeEmpty = 0
    · have hlower : 1 ≤ (flags :: data).length := Nat.le_add_left 1 _
      rw [if_neg (by simp [hempty]), imp_iff_right hempty, boundItems]
      -- Each bound is one item, or none when it is infinite.
      cases flags &&& rangeLbInf != 0 with
      | true =>
        cases flags &&& rangeUbInf != 0 with
        | true => exact iff_of_true (returns_ok _) trivial
        | false =>
          exact decodeBound_bind_returns_iff hdecode hbuf hlower "upper" _ _
            fun bound stop _ => iff_of_true (returns_ok _) trivial
      | false =>
        refine decodeBound_bind_returns_iff hdecode hbuf hlower "lower" _ _
          fun bound stop hstop => ?_
        cases flags &&& rangeUbInf != 0 with
        | true => exact iff_of_true (returns_ok _) trivial
        | false =>
          exact decodeBound_bind_returns_iff hdecode hbuf hstop "upper" _ _
            fun bound stop _ => iff_of_true (returns_ok _) trivial
    · rw [if_pos (by simp [hempty])]
      exact iff_of_true (returns_ok _) fun h => absurd h hempty

end Containers

/-! ### Fields -/

section Fields

variable {buf : Bytes}

theorem Field.value_returns {f : Field} (h : ∀ data, Returns (f.codec.decode data)) (data : Bytes) :
    Returns (f.value data) := by
  cases f with
  | required oid c hides => exact h data
  | optional oid c => exact returns_bind.2 ⟨h data, fun v _ => returns_ok _⟩

theorem Field.isOk_value (f : Field) (data : Bytes) :
    (f.value data).isOk = f.item.accepts data := by
  cases f with
  | required oid c hides => rfl
  | optional oid c =>
    change (some <$> c.decode data).isOk = (c.decode data).isOk
    cases c.decode data <;> rfl

/-- A field, behind which `k` goes on; what hides `buf` there is not longer than the bytes up to the
end of the field. -/
theorem Field.decode_bind_returns_iff {f : Field} (h : ∀ data, Returns (f.codec.decode data))
    (hbuf : buf.length ≤ isizeMax) {β : Type} {offset : ℕ} (hoffset : offset ≤ buf.length)
    (name : String) (idx : ℕ) (k : f.Val × ℕ × Int32 → Decoded β) (rest : ℕ → Prop)
    (hk : ∀ v stop len, stop ≤ buf.length → (f.shownBuf v []).length ≤ stop →
      (Returns (k (v, stop, len)) ↔ rest stop)) :
    Returns (f.decode name idx buf offset >>= k) ↔ f.item.Guard buf offset rest := by
  have hlead : f.item.lead = 4 := by cases f <;> rfl
  have hsmall : offset + 8 < 2 ^ 64 := by
    rw [isizeMax_eq] at hbuf
    omega
  rw [Field.decode, bind_assoc, returns_header_bind hsmall, Item.Guard, hlead]
  refine imp_congr_right fun hle => ?_
  have hadd : addUsize offset 4 = .ok (offset + 4) := if_pos (by omega)
  simp only [readU32_eq (show offset + 4 ≤ buf.length by omega), ok_bind, hadd,
    readI32_eq (show offset + 4 + 4 ≤ buf.length by omega), bind_assoc, Field.content]
  by_cases hnull : i32At buf (offset + 4) = -1
  · rw [if_pos hnull]
    cases f with
    | required oid c hides =>
      rw [if_pos ⟨toInt_eq_neg_one_iff.2 hnull, fun h => by cases h⟩]
      exact iff_of_true (returns_error _) fun h => by cases h
    | optional oid c =>
      rw [if_pos ⟨toInt_eq_neg_one_iff.2 hnull, fun h => by cases h⟩]
      exact (hk _ _ _ hle (Nat.zero_le _)).trans (imp_iff_right rfl).symm
  · rw [if_neg hnull, if_neg fun h => hnull (toInt_eq_neg_one_iff.1 h.1)]
    have hstop : Returns (readData buf (offset + 8) (i32At buf (offset + 4))
        (.err idx s!"{name}: field data truncated") >>= fun (data, stop) =>
          f.value data >>= fun v => k (v, stop, i32At buf (offset + 4))) ↔ _ :=
      returns_data_bind (f.value_returns h) hle hbuf
        (fun v stop => k (v, stop, i32At buf (offset + 4))) rest
        fun v stop hle hdata => hk v stop _ hle ?_
    · simp only [Field.isOk_value] at hstop
      simp only [bind_assoc, ok_bind]
      exact hstop
    · obtain ⟨data, hlen, hv⟩ := hdata
      rcases f with ⟨oid, c, _ | _ | _⟩ | ⟨oid, c⟩
      · exact Nat.zero_le _
      · cases hv
        exact hlen
      · exact Nat.zero_le _
      · exact Nat.zero_le _

/-- No field is found in bytes that end before its header. -/
theorem decodeFields_returns_of_short (name : String) (fs : List Field) (idx : ℕ) {offset : ℕ}
    (hbuf : buf.length ≤ offset) (hoffset : offset ≤ isizeMax) (len : Int32) :
    Returns (decodeFields name fs idx buf offset len) := by
  cases fs with
  | nil => exact returns_ok _
  | cons f fs =>
    have hsmall : offset + 8 < 2 ^ 64 := by
      rw [isizeMax_eq] at hoffset
      omega
    rw [decodeFields, Field.decode, bind_assoc, returns_header_bind hsmall]
    intro hle
    omega

theorem decodeFields_returns_iff {fs : List Field}
    (h : ∀ f ∈ fs, ∀ data, Returns (f.codec.decode data)) (hbuf : buf.length ≤ isizeMax)
    (name : String) (idx : ℕ) {offset : ℕ} (hoffset : offset ≤ buf.length) (len : Int32) :
    Returns (decodeFields name fs idx buf offset len) ↔ Guarded buf (fieldItems fs) offset := by
  induction fs generalizing idx offset len with
  | nil => exact iff_of_true (returns_ok _) trivial
  | cons f fs ih =>
    have hrest := fun {offset} => @ih (fun g hg => h g (List.mem_cons_of_mem _ hg)) (idx + 1) offset
    have hfield := fun rest hk =>
      Field.decode_bind_returns_iff (h f List.mem_cons_self) hbuf hoffset
      name idx (fun r => decodeFields name fs (idx + 1) (f.shownBuf r.1 buf) r.2.1
        (f.shownLen r.1 r.2.2) >>= fun vs => .ok ((f.shown r.1 vs.2, vs.1), vs.2)) rest hk
    rcases f with ⟨oid, c, _ | _ | _⟩ | ⟨oid, c⟩
    · refine hfield (Guarded buf (fieldItems fs)) fun v stop len hstop _ => ?_
      exact (returns_bind.trans (and_iff_left fun vs _ => returns_ok _)).trans (hrest hstop _)
    · -- the next field is not found in the bytes of this one
      refine hfield (fun _ => True) fun v stop len hstop hshort => ?_
      refine iff_of_true (returns_bind.2 ⟨?_, fun vs _ => returns_ok _⟩) trivial
      exact decodeFields_returns_of_short name fs (idx + 1) hshort (Nat.le_trans hstop hbuf) _
    · refine hfield (Guarded buf (fieldItems fs)) fun v stop len hstop _ => ?_
      exact (returns_bind.trans (and_iff_left fun vs _ => returns_ok _)).trans (hrest hstop _)
    · refine hfield (Guarded buf (fieldItems fs)) fun v stop len hstop _ => ?_
      exact (returns_bind.trans (and_iff_left fun vs _ => returns_ok _)).trans (hrest hstop _)

theorem composite_returns_iff {fs : List Field}
    (h : ∀ f ∈ fs, ∀ data, Returns (f.codec.decode data)) (hbuf : buf.length ≤ isizeMax)
    (name : String) : Returns (decodeComposite name fs buf) ↔ CompositeGuarded fs buf := by
  rw [decodeComposite, CompositeGuarded]
  by_cases hlen : buf.length < 4
  · rw [if_pos hlen]
    exact iff_of_true (returns_err _ _) fun hle => absurd hlen (Nat.not_lt.2 hle)
  · have hle := Nat.not_lt.1 hlen
    rw [if_neg hlen, readI32_eq hle, ok_bind, imp_iff_right hle]
    refine (returns_bind.trans (and_iff_left fun vs _ => returns_ok _)).trans ?_
    exact decodeFields_returns_iff h hbuf name 0 hle 0

end Fields

/-- The decoders of the base types always return. -/
theorem Scalar.decode_returns (s : Scalar) (data : Bytes) : Returns (s.decode data) := by
  have hsized : ∀ {α : Type} (size : ℕ) (message : ℕ → String) (value : Bytes → α),
      Returns (sized size message value data) := by
    intro α size message value
    rw [sized]
    split_ifs
    · exact returns_err _ _
    · exact returns_ok _
  cases s with
  | string =>
    rw [decode]
    cases fromUtf8 data with
    | some s => exact returns_ok _
    | none => exact returns_err _ _
  | uuid =>
    rw [decode]
    split_ifs
    · exact returns_ok _
    · exact returns_err _ _
  | _ =>
    rw [decode]
    exact hsized _ _ _

/-- **A decoder returns exactly from guarded bytes**, if those of the parts always return, and the
decoder of an array asks for memory that the bytes have elements for. -/
theorem containers_return_iff (buf : Slice) :
    (∀ {α : Type} {decode : Bytes → Decoded α}, (∀ data, Returns (decode data)) →
      (∀ size, Returns (decodeArrayElements size decode buf.1) ∧ Contained buf.1 ↔
        ArrayGuarded decode size buf.1) ∧
      (Returns (decodeRange decode buf.1) ↔ RangeGuarded decode buf.1)) ∧
    ∀ {fs : List Field}, (∀ f ∈ fs, ∀ data, Returns (f.codec.decode data)) → ∀ name,
      (Returns (decodeComposite name fs buf.1) ↔ CompositeGuarded fs buf.1) :=
  ⟨fun h => ⟨array_returns_iff h buf.2, range_returns_iff h buf.2⟩,
    fun h => composite_returns_iff h buf.2⟩

/-- An array of one element, which is cut off; its bytes begin like an endless range and a point. -/
theorem containers_return_iff_cut :
    let bytes : Bytes :=
      [0, 0, 0, 1, 0, 0, 0, 0, 0, 0, 0, 23, 0, 0, 0, 1, 0, 0, 0, 1, 0, 0, 0, 4, 7]
    (Returns (decodeArrayElements 4 Scalar.i32.decode bytes) ∧ Contained bytes ↔
      ArrayGuarded Scalar.i32.decode 4 bytes) ∧
    (Returns (decodeRange Scalar.i32.decode bytes) ↔ RangeGuarded Scalar.i32.decode bytes) ∧
    (Returns (decodeComposite "Point" [.required 23 Scalar.i32.codec .nothing] bytes) ↔
      CompositeGuarded [.required 23 Scalar.i32.codec .nothing] bytes) := by
  intro bytes
  have hfields : ∀ f ∈ [Field.required 23 Scalar.i32.codec .nothing], ∀ data,
      Returns (f.codec.decode data) := by
    rintro f hf data
    obtain rfl := List.mem_singleton.1 hf
    exact Scalar.i32.decode_returns data
  have h := containers_return_iff ⟨bytes, by simp [bytes, isizeMax_eq]⟩
  exact ⟨(h.1 Scalar.i32.decode_returns).1 4, (h.1 Scalar.i32.decode_returns).2,
    h.2 hfields "Point"⟩

/-- An element of length `-2`, a bound of length `-1` and a field of length `-2`; and an array that
claims to have `2 ^ 31 - 1` elements and has none. -/
theorem containers_panic :
    ¬(∀ buf : Slice, Returns (decodeArrayElements 4 Scalar.i32.decode buf.1)) ∧
    ¬(∀ buf : Slice, Returns (decodeRange Scalar.i32.decode buf.1)) ∧
    ¬(∀ buf : Slice,
      Returns (decodeComposite "Point" [.required 23 Scalar.i32.codec .nothing] buf.1)) ∧
    ¬(∀ buf : Slice, Contained buf.1) := by
  refine ⟨fun h => ?_, fun h => ?_, fun h => ?_, fun h => ?_⟩
  · exact h ⟨[0, 0, 0, 1, 0, 0, 0, 0, 0, 0, 0, 23, 0, 0, 0, 1, 0, 0, 0, 1, 255, 255, 255, 254],
      by simp [isizeMax_eq]⟩ .overflow (by rfl)
  · exact h ⟨[0, 255, 255, 255, 255], by simp [isizeMax_eq]⟩ .overflow (by rfl)
  · exact h ⟨[0, 0, 0, 1, 0, 0, 0, 23, 255, 255, 255, 254], by simp [isizeMax_eq]⟩ .overflow
      (by rfl)
  · have hroom := h ⟨[0, 0, 0, 1, 0, 0, 0, 0, 0, 0, 0, 23, 127, 255, 255, 255, 0, 0, 0, 1],
      by simp [isizeMax_eq]⟩ 23 2147483647 20 (by rfl)
    exact absurd hroom (by decide)

end Resolute
