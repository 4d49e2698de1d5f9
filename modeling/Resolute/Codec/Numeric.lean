import Resolute.Codec.Decimal
import Resolute.Codec.Positional

/-!
# Decoding numerics

The server sends a numeric as groups of four decimal digits, with the weight of the first group, a
sign and a scale.  `PgNumeric::decode` writes the groups one after another (`groupsText`) and cuts
the text off where the scale ends.  Not all that the server can send fits its arithmetic of 16 bits
(`fractionPart_eq`), and it takes the special values for finite ones.

A text `Shows` a value if it is a literal for it, with a number of decimals.  Exactly the
`Decodable` numerics are decoded to a text that shows their value (`decode_shows_iff`).
-/

namespace Resolute.PgNumeric

open Positional (leading leading_succ floor_value_mul)

/-! ### Groups of digits -/

/-- The group with number `i`, zero where there is none. -/
def groupAt (ds : List ℕ) (i : ℤ) : ℕ := if 0 ≤ i then ds.getD i.toNat 0 else 0

/-- The text of `c` groups from number `i` on. -/
def groupsText (ds : List ℕ) : ℤ → ℕ → List Char
  | _, 0 => []
  | i, c + 1 => (pad4 (groupAt ds i)).toList ++ groupsText ds (i + 1) c

section

variable {ds : List ℕ} (hds : ∀ d ∈ ds, d < 10000)

theorem pad4_toList (n : ℕ) :
    (pad4 n).toList = List.replicate (4 - (Nat.toDigits 10 n).length) '0' ++ Nat.toDigits 10 n := by
  have hn : ¬ (n : ℤ) < 0 := by omega
  simp [pad4, hn, ← String.length_toList, Nat.toList_repr]

theorem length_pad4 {n : ℕ} (h : n < 10000) : (pad4 n).toList.length = 4 := by
  have hlen := (Nat.length_toDigits_le_iff (b := 10) (k := 4) (by decide) (by decide)).2 h
  rw [pad4_toList, List.length_append, List.length_replicate]
  omega

theorem isDigit_pad4 (n : ℕ) : ∀ c ∈ (pad4 n).toList, c.isDigit = true := by
  intro c hc
  rw [pad4_toList, List.mem_append] at hc
  rcases hc with hc | hc
  · rw [List.eq_of_mem_replicate hc]
    rfl
  · exact Nat.isDigit_of_mem_toDigits (by decide) (by decide) hc

theorem ofDigitChars_pad4 {n : ℕ} (h : n < 10000) (m : ℕ) :
    Nat.ofDigitChars 10 (pad4 n).toList m = m * 10000 + n := by
  have hlen := length_pad4 h
  rw [Nat.ofDigitChars_eq_ofDigitChars_zero, hlen, pad4_toList, Nat.ofDigitChars_append,
    Nat.ofDigitChars_replicate_zero, Nat.mul_zero, Nat.ofDigitChars_ten_toDigits]
  omega

include hds

theorem groupAt_lt (i : ℤ) : groupAt ds i < 10000 := by
  rw [groupAt]
  split_ifs
  · by_cases hi : i.toNat < ds.length
    · rw [List.getD_eq_getElem _ _ hi]
      exact hds _ (List.getElem_mem hi)
    · rw [List.getD_eq_default _ _ (by omega)]
      decide
  · decide

theorem length_groupsText (i : ℤ) (c : ℕ) : (groupsText ds i c).length = 4 * c := by
  induction c generalizing i with
  | zero => rfl
  | succ c ih =>
    rw [groupsText, List.length_append, length_pad4 (groupAt_lt hds i), ih]
    omega

omit hds in
theorem isDigit_groupsText (i : ℤ) (c : ℕ) : ∀ x ∈ groupsText ds i c, x.isDigit = true := by
  induction c generalizing i with
  | zero => exact List.forall_mem_nil _
  | succ c ih =>
    intro x hx
    rw [groupsText, List.mem_append] at hx
    rcases hx with hx | hx
    · exact isDigit_pad4 _ x hx
    · exact ih _ x hx

omit hds in
theorem leading_toNat_succ (i : ℤ) :
    leading 10000 ds (i + 1).toNat = leading 10000 ds i.toNat * 10000 + groupAt ds i := by
  rw [groupAt]
  split_ifs with hi
  · rw [show (i + 1).toNat = i.toNat + 1 by omega, leading_succ]
  · rw [show (i + 1).toNat = 0 by omega, show i.toNat = 0 by omega]
    simp

/-- Groups after those in front of them. -/
theorem ofDigitChars_groupsText (i : ℤ) (c : ℕ) :
    Nat.ofDigitChars 10 (groupsText ds i c) (leading 10000 ds i.toNat) =
      leading 10000 ds (i + c).toNat := by
  induction c generalizing i with
  | zero => simp [groupsText]
  | succ c ih =>
    rw [groupsText, Nat.ofDigitChars_append, ofDigitChars_pad4 (groupAt_lt hds i),
      ← leading_toNat_succ, ih]
    congr 2
    push_cast
    ring

end

/-! ### The parts of the text -/

section

variable {ds : List ℕ} (hds : ∀ d ∈ ds, d < 10000)

theorem getD_cast (i : ℕ) : (ds.map (Nat.cast : ℕ → ℤ)).getD i 0 = (ds.getD i 0 : ℕ) := by
  have hmap := List.getD_map (f := (Nat.cast : ℕ → ℤ)) (l := ds) (d := 0) (n := i)
  exact hmap

theorem getD_groupAt (i : ℤ) :
    (if 0 ≤ i then (ds.map (Nat.cast : ℕ → ℤ)).getD i.toNat 0 else 0) = (groupAt ds i : ℕ) := by
  rw [groupAt, getD_cast]
  by_cases hi : 0 ≤ i
  · rw [if_pos hi, if_pos hi]
  · rw [if_neg hi, if_neg hi, Nat.cast_zero]

theorem toString_natCast (n : ℕ) : toString (n : ℤ) = n.repr := rfl

/-- The text in front of the point. -/
def integerText (ds : List ℕ) : ℕ → List Char
  | 0 => ['0']
  | g + 1 => Nat.toDigits 10 (ds.getD 0 0) ++ groupsText ds 1 g

theorem groupsText_succ (i : ℤ) (c : ℕ) :
    groupsText ds i (c + 1) = groupsText ds i c ++ (pad4 (groupAt ds (i + c))).toList := by
  induction c generalizing i with
  | zero => simp [groupsText]
  | succ c ih =>
    rw [groupsText, ih, groupsText, List.append_assoc,
      show i + 1 + (c : ℤ) = i + (c + 1 : ℕ) by push_cast; ring]

theorem integerPart_toList (g : ℕ) :
    (integerPart (ds.map (Nat.cast : ℕ → ℤ)) g).toList = integerText ds g := by
  cases g with
  | zero => simp [integerPart, integerText]
  | succ g =>
    rw [integerPart, if_neg (Nat.succ_ne_zero g), integerText, String.toList_join, List.flatMap_map]
    simp only [getD_cast]
    induction g with
    | zero =>
      rw [List.range_one, List.flatMap_singleton, if_pos rfl, toString_natCast, Nat.toList_repr,
        groupsText, List.append_nil]
    | succ g ih =>
      rw [List.range_succ, List.flatMap_append, ih, groupsText_succ, ← List.append_assoc,
        List.flatMap_singleton, if_neg (Nat.succ_ne_zero g)]
      congr 3
      rw [groupAt, if_pos (by omega), show (1 + (g : ℤ)).toNat = g + 1 by omega]

theorem isDigit_integerText (g : ℕ) : ∀ c ∈ integerText ds g, c.isDigit = true := by
  cases g with
  | zero => simp [integerText]
  | succ g =>
    intro c hc
    rw [integerText, List.mem_append] at hc
    rcases hc with hc | hc
    · exact Nat.isDigit_of_mem_toDigits (by decide) (by decide) hc
    · exact isDigit_groupsText _ _ c hc

theorem integerText_ne_nil (g : ℕ) : integerText ds g ≠ [] := by
  cases g with
  | zero => exact List.cons_ne_nil _ _
  | succ g => simp [integerText, Nat.toDigits_ne_nil]

include hds in
theorem ofDigitChars_integerText (g : ℕ) :
    Nat.ofDigitChars 10 (integerText ds g) 0 = leading 10000 ds g := by
  cases g with
  | zero => simp [integerText, Nat.ofDigitChars_cons]
  | succ g =>
    have hone := leading_succ 10000 ds 0
    have hgroups := ofDigitChars_groupsText hds 1 g
    rw [Positional.leading_zero, Nat.zero_mul, Nat.zero_add, Nat.zero_add] at hone
    rw [integerText, Nat.ofDigitChars_append, Nat.ofDigitChars_ten_toDigits, ← hone]
    rw [show (1 : ℤ).toNat = 0 + 1 from rfl, show (1 + (g : ℤ)).toNat = g + 1 by omega] at hgroups
    exact hgroups

include hds in
/-- **The digits behind the point**, when `r` of them are missing; the groups from number `i` on
give them, if their numbers fit. -/
theorem fractionPart_eq (w : ℤ) (dscale : ℕ) : ∀ (n fc r : ℕ) (i : ℤ), fc + r = dscale →
    i = w - ((n : ℤ) - 32768) → -32768 ≤ i → (r + 3) / 4 ≤ n →
    fractionPart (ds.map (Nat.cast : ℕ → ℤ)) w dscale (n + 1) fc =
      if r = 0 ∨ i + ((r + 3) / 4 : ℕ) ≤ 32768 then
        .ok (String.ofList ((groupsText ds i ((r + 3) / 4)).take r))
      else .panic .overflow := by
  intro n
  induction n with
  | zero =>
    intro fc r i hfc _ _ hn
    obtain rfl : r = 0 := by omega
    simp [fractionPart, ← hfc, groupsText]
  | succ n ih =>
    intro fc r i hfc hi hlow hn
    rw [fractionPart]
    by_cases hr : r = 0
    · subst hr
      simp [← hfc, groupsText]
    · rw [if_neg (by omega), ← hi]
      obtain ⟨c, hc⟩ : ∃ c, (r + 3) / 4 = c + 1 := ⟨(r + 3) / 4 - 1, by omega⟩
      have hlen := length_pad4 (groupAt_lt hds i)
      have hc' : (r - min 4 r + 3) / 4 = c := by omega
      by_cases hfits : i ≤ 32767
      · have hlow' : (-32768 : ℤ) ≤ i ∧ i ≤ 32767 := ⟨hlow, hfits⟩
        have htake : ((pad4 (groupAt ds i)).toList.take r).length = min 4 r := by
          rw [List.length_take, hlen, Nat.min_comm]
        have hih := ih (fc + min 4 r) (r - min 4 r) (i + 1) (by omega) (by push_cast at hi; omega)
          (by omega) (by omega)
        rw [checkI16, if_pos hlow', ok_bind, getD_groupAt, show dscale - fc = r by omega]
        dsimp only
        rw [htake, hih, hc', hc]
        by_cases hend : i + (c + 1 : ℕ) ≤ 32768
        · have hsub : r - min 4 r = r - 4 := by omega
          rw [if_pos (.inr (by push_cast at hend ⊢; omega)), if_pos (.inr hend), ok_bind,
            groupsText, List.take_append, hlen, hsub, String.ofList_append]
        · rw [if_neg (by push_cast at hend ⊢; omega), if_neg (by omega)]
          rfl
      · rw [checkI16, if_neg (by omega), if_neg (by omega)]
        rfl

end

/-! ### What the server sends -/

theorem wordAt_lt (data : Bytes) (i : ℕ) : wordAt data i < 65536 := by
  have h0 := (byteAt data i).toNat_lt
  have h1 := (byteAt data (i + 1)).toNat_lt
  rw [wordAt]
  omega

theorem i16At_toInt (data : Bytes) (i : ℕ) : (i16At data i).toInt =
    if wordAt data i < 32768 then (wordAt data i : ℤ) else wordAt data i - 65536 := by
  have hlt := wordAt_lt data i
  have hword : (i16At data i).toInt = (UInt16.ofNat (wordAt data i)).toBitVec.toInt := rfl
  rw [hword, BitVec.toInt_eq_toNat_cond, UInt16.toNat_toBitVec, UInt16.toNat_ofNat']
  split_ifs <;> omega

theorem i16AsUsize_i16At (data : Bytes) (i : ℕ) : i16AsUsize (i16At data i) =
    if wordAt data i < 32768 then wordAt data i else 2 ^ 64 - 65536 + wordAt data i := by
  have hlt := wordAt_lt data i
  rw [i16AsUsize, i16At_toInt]
  split_ifs <;> omega

/-- The digits, to the base of 10000. -/
def groups (data : Bytes) : List ℕ :=
  (List.range (wordAt data 0)).map fun i => wordAt data (8 + i * 2)

/-- The weight of the first digit. -/
def weight (data : Bytes) : ℤ := (i16At data 2).toInt

theorem weight_ge (data : Bytes) : -32768 ≤ weight data := by
  rw [weight, i16At_toInt]
  split_ifs <;> omega

/-- The number without its sign, with the decimals that are shown. -/
def shown (data : Bytes) : ℚ :=
  ⌊Positional.value 10000 (groups data) (weight data) * 10 ^ wordAt data 6⌋ / 10 ^ wordAt data 6

/-- The data have the form of a numeric. -/
structure WellFormed (data : Bytes) : Prop where
  length_eq : data.length = 8 + wordAt data 0 * 2
  scale_lt : wordAt data 6 < 16384
  groups_lt : ∀ d ∈ groups data, d < 10000

theorem sum_zipIdx (ds : List ℕ) (w : ℤ) (k : ℕ) :
    ((ds.zipIdx k).map fun (d, i) => (d : ℚ) * 10000 ^ (w - (i : ℤ))).sum =
      Positional.value 10000 ds (w - k) := by
  induction ds generalizing k with
  | nil => rfl
  | cons d ds ih =>
    rw [List.zipIdx_cons, List.map_cons, List.sum_cons, ih, Positional.value]
    push_cast
    rw [sub_add_eq_sub_sub]

theorem recv_cases {data : Bytes} {v : Value} (h : recv data = some v) : WellFormed data ∧
    (wordAt data 4 = 0x0000 ∧ v = .finite (shown data) ∨
      wordAt data 4 = 0x4000 ∧ v = .finite (-shown data) ∨
      wordAt data 4 ≠ 0x0000 ∧ wordAt data 4 ≠ 0x4000 ∧ ∀ q, v ≠ .finite q) := by
  have hsum := sum_zipIdx (groups data) (weight data) 0
  rw [Nat.cast_zero, sub_zero] at hsum
  rw [recv] at h
  dsimp only at h
  by_cases hlen : data.length < 8 ∨ data.length ≠ 8 + wordAt data 0 * 2
  · rw [if_pos hlen] at h
    cases h
  rw [if_neg hlen] at h
  by_cases hdigits : 0x3FFF < wordAt data 6 ∨ (groups data).any (9999 < ·)
  · rw [groups] at hdigits
    rw [if_pos hdigits] at h
    cases h
  have hdigits' := hdigits
  rw [groups] at hdigits'
  rw [if_neg hdigits'] at h
  push Not at hlen
  refine ⟨⟨hlen.2, by omega, fun d hd => ?_⟩, ?_⟩
  · by_contra hge
    exact hdigits (.inr (List.any_eq_true.2 ⟨d, hd, decide_eq_true (by omega)⟩))
  · have hshown : (⌊((groups data).zipIdx.map fun (d, i) =>
        (d : ℚ) * 10000 ^ (weight data - (i : ℤ))).sum * 10 ^ wordAt data 6⌋ : ℚ) /
        10 ^ wordAt data 6 = shown data := by rw [hsum, shown]
    rw [groups, weight] at hshown
    rw [hshown] at h
    by_cases hpos : wordAt data 4 = 0x0000
    · rw [if_pos hpos] at h
      exact .inl ⟨hpos, (Option.some_inj.1 h).symm⟩
    rw [if_neg hpos] at h
    by_cases hneg : wordAt data 4 = 0x4000
    · rw [if_pos hneg] at h
      exact .inr (.inl ⟨hneg, (Option.some_inj.1 h).symm⟩)
    rw [if_neg hneg] at h
    refine .inr (.inr ⟨hpos, hneg, fun q hq => ?_⟩)
    subst hq
    split_ifs at h <;> cases h

/-! ### What is decoded -/

/-- The digits in front of the point. -/
def integerDigits (data : Bytes) : List Char := integerText (groups data) (weight data + 1).toNat

/-- The digits behind the point. -/
def fractionDigits (data : Bytes) : List Char :=
  (groupsText (groups data) (weight data + 1) ((wordAt data 6 + 3) / 4)).take (wordAt data 6)

theorem integerDigits_ne_nil (data : Bytes) : integerDigits data ≠ [] := integerText_ne_nil _

theorem isDigit_integerDigits (data : Bytes) : ∀ c ∈ integerDigits data, c.isDigit = true :=
  isDigit_integerText _

theorem isDigit_fractionDigits (data : Bytes) : ∀ c ∈ fractionDigits data, c.isDigit = true :=
  fun c hc => isDigit_groupsText _ _ c (List.mem_of_mem_take hc)

theorem ofDigitChars_lt {cs : List Char} (h : ∀ c ∈ cs, c.isDigit = true) (n : ℕ) :
    Nat.ofDigitChars 10 cs n < 10 ^ cs.length * (n + 1) := by
  induction cs generalizing n with
  | nil => simp
  | cons c cs ih =>
    have hc := (isDigit_iff.1 (h c List.mem_cons_self)).2
    have hdigit : c.toNat - '0'.toNat ≤ 9 := Nat.sub_le_of_le_add hc
    calc Nat.ofDigitChars 10 (c :: cs) n
        = Nat.ofDigitChars 10 cs (10 * n + (c.toNat - '0'.toNat)) := Nat.ofDigitChars_cons
      _ < 10 ^ cs.length * (10 * n + (c.toNat - '0'.toNat) + 1) :=
        ih (fun x hx => h x (List.mem_cons_of_mem c hx)) _
      _ ≤ 10 ^ cs.length * (10 * (n + 1)) := Nat.mul_le_mul_left _ (by omega)
      _ = 10 ^ (c :: cs).length * (n + 1) := by rw [List.length_cons, pow_succ, mul_assoc]

/-- The number with the first digits. -/
theorem ofDigitChars_take {cs : List Char} (h : ∀ c ∈ cs, c.isDigit = true) (n k : ℕ) :
    Nat.ofDigitChars 10 (cs.take k) n = Nat.ofDigitChars 10 cs n / 10 ^ (cs.length - k) := by
  have hdrop := ofDigitChars_lt (fun c hc => h c (List.mem_of_mem_drop hc) : ∀ c ∈ cs.drop k, _) 0
  rw [Nat.mul_one, List.length_drop] at hdrop
  conv_rhs => rw [← List.take_append_drop k cs, Nat.ofDigitChars_append,
    Nat.ofDigitChars_eq_ofDigitChars_zero, List.take_append_drop, List.length_drop, Nat.add_comm]
  rw [Nat.add_mul_div_left _ _ (Nat.pow_pos (by decide)), Nat.div_eq_of_lt hdrop, Nat.zero_add]

section

variable {data : Bytes} (hdata : WellFormed data)
include hdata

theorem length_fractionDigits : (fractionDigits data).length = wordAt data 6 := by
  rw [fractionDigits, List.length_take, length_groupsText hdata.groups_lt]
  omega

/-- **The digits of the text** are those of the number, up to the last decimal that is shown. -/
theorem ofDigitChars_text :
    (Nat.ofDigitChars 10 (integerDigits data ++ fractionDigits data) 0 : ℚ) / 10 ^ wordAt data 6 =
      shown data := by
  rw [integerDigits, fractionDigits]
  set ds := groups data
  set w := weight data
  set s := wordAt data 6
  obtain ⟨m, hm⟩ : ∃ m, (s + 3) / 4 = m := ⟨_, rfl⟩
  have hlen : (groupsText ds (w + 1) m).length = 4 * m := length_groupsText hdata.groups_lt _ _
  have hall : Nat.ofDigitChars 10 (integerText ds (w + 1).toNat ++ groupsText ds (w + 1) m) 0 =
      leading 10000 ds (w + 1 + m).toNat := by
    rw [Nat.ofDigitChars_append, ofDigitChars_integerText hdata.groups_lt,
      ofDigitChars_groupsText hdata.groups_lt]
  have hcut : ⌊Positional.value 10000 ds w * 10 ^ s⌋ =
      ((leading 10000 ds (w + 1 + m).toNat / 10 ^ (4 * m - s) : ℕ) : ℤ) := by
    have hfloor := floor_value_mul (by decide : 1 < 10000) hdata.groups_lt w m
    have hpow : (10 : ℚ) ^ (4 * m) = 10 ^ s * 10 ^ (4 * m - s) := by
      rw [← pow_add]
      congr 1
      omega
    have hscaled : Positional.value 10000 ds w * 10 ^ s =
        Positional.value 10000 ds w * ((10000 : ℕ) : ℚ) ^ (m : ℤ) /
          ((10 ^ (4 * m - s) : ℕ) : ℚ) := by
      rw [zpow_natCast, show ((10000 : ℕ) : ℚ) = 10 ^ 4 by norm_num, ← pow_mul, hpow]
      push_cast
      field_simp
    rw [hscaled, Int.floor_div_natCast, hfloor]
    rfl
  have htake : Nat.ofDigitChars 10 (integerText ds (w + 1).toNat ++
      (groupsText ds (w + 1) m).take s) 0 =
      leading 10000 ds (w + 1 + m).toNat / 10 ^ (4 * m - s) := by
    rw [← hall, Nat.ofDigitChars_append, Nat.ofDigitChars_append,
      ofDigitChars_take (isDigit_groupsText _ _), hlen]
  rw [shown, hcut, hm, htake]
  rfl

/-- The digits are not negative as `i16`s. -/
theorem digits_eq : ((List.range (wordAt data 0)).map fun i => (i16At data (8 + i * 2)).toInt) =
    (groups data).map Nat.cast := by
  rw [groups, List.map_map]
  refine List.map_congr_left fun i hi => ?_
  have hlt : wordAt data (8 + i * 2) < 10000 :=
    hdata.groups_lt _ (List.mem_map.2 ⟨i, hi, rfl⟩)
  rw [i16At_toInt, if_pos (by omega)]
  rfl

omit hdata in
theorem sign_text : (if i16At data 4 = 0x4000 then "-" else "") =
    if decide (wordAt data 4 = 0x4000) then "-" else "" := by
  have hlt := wordAt_lt data 4
  have hint : (0x4000 : Int16).toInt = 0x4000 := rfl
  have hiff : i16At data 4 = 0x4000 ↔ wordAt data 4 = 0x4000 := by
    rw [← Int16.toInt_inj, hint, i16At_toInt]
    split_ifs <;> omega
  simp only [hiff, decide_eq_true_eq]

theorem zero_text : (if wordAt data 6 > 0 then do
      withCapacity 1 (wordAt data 6)
      .ok ("0." ++ String.ofList (List.replicate (wordAt data 6) '0'))
    else .ok "0" : Decoded String) =
      .ok (literalText false ['0'] (List.replicate (wordAt data 6) '0')) := by
  have hscale := hdata.scale_lt
  have hcap : withCapacity 1 (wordAt data 6) = .ok () := if_pos (by rw [isizeMax]; omega)
  split_ifs with hpos
  · have hne : List.replicate (wordAt data 6) '0' ≠ [] := by
      rw [ne_eq, List.replicate_eq_nil_iff]
      omega
    rw [hcap, ok_bind, literalText, if_neg hne]
    exact congrArg Except.ok (String.toList_inj.1 (by simp))
  · rw [show wordAt data 6 = 0 by omega]
    rfl

omit hdata in
/-- The text of a number that has digits. -/
theorem digits_text {ds : List ℕ} (hds : ∀ d ∈ ds, d < 10000) (negative : Bool) {w : ℤ}
    (hw : -32768 ≤ w) {dscale : ℕ} (hscale : dscale < 16384) :
    (do
      let groups ← checkI16 (w + 1)
      if dscale > 0 then do
        let fraction ← fractionPart (ds.map Nat.cast) w dscale 32768 0
        .ok ((if negative then "-" else "") ++ integerPart (ds.map Nat.cast) groups.toNat ++ "." ++
          fraction)
      else .ok ((if negative then "-" else "") ++ integerPart (ds.map Nat.cast) groups.toNat)) =
    (if w + max 1 ((dscale + 3) / 4 : ℕ) ≤ 32767 then
      .ok (literalText negative (integerText ds (w + 1).toNat)
        ((groupsText ds (w + 1) ((dscale + 3) / 4)).take dscale))
    else .panic .overflow : Decoded String) := by
  have hlen := length_groupsText hds (w + 1) ((dscale + 3) / 4)
  have hfits : w + max 1 ((dscale + 3) / 4 : ℕ) ≤ 32767 ↔
      w + 1 ≤ 32767 ∧ w + 1 + ((dscale + 3) / 4 : ℕ) ≤ 32768 := by
    rw [Nat.cast_max]
    omega
  by_cases hone : w + 1 ≤ 32767
  · rw [checkI16, if_pos (show -32768 ≤ w + 1 ∧ w + 1 ≤ 32767 from ⟨by omega, hone⟩), ok_bind]
    by_cases hpos : dscale > 0
    · have hfraction := fractionPart_eq hds w dscale 32767 0 dscale (w + 1) (Nat.zero_add _)
        (by omega) (by omega) (by omega)
      have hne : (groupsText ds (w + 1) ((dscale + 3) / 4)).take dscale ≠ [] := by
        rw [ne_eq, ← List.length_eq_zero_iff, List.length_take, hlen]
        omega
      rw [if_pos hpos, hfraction]
      by_cases hrest : w + 1 + ((dscale + 3) / 4 : ℕ) ≤ 32768
      · rw [if_pos (hfits.2 ⟨hone, hrest⟩), if_pos (.inr hrest), ok_bind, literalText, if_neg hne]
        refine congrArg Except.ok (String.toList_inj.1 ?_)
        cases negative <;> simp [integerPart_toList]
      · rw [if_neg fun h => hrest (hfits.1 h).2,
          if_neg (show ¬(dscale = 0 ∨ w + 1 + ((dscale + 3) / 4 : ℕ) ≤ 32768) by omega)]
        rfl
    · obtain rfl : dscale = 0 := by omega
      rw [if_neg hpos, if_pos (hfits.2 ⟨hone, by omega⟩), literalText, List.take_zero, if_pos rfl]
      refine congrArg Except.ok (String.toList_inj.1 ?_)
      cases negative <;> simp [integerPart_toList]
  · rw [checkI16, if_neg fun h => hone h.2, if_neg fun h => hone (hfits.1 h).1]
    rfl

theorem decode_eq : decode data =
    if wordAt data 0 < 32768 then
      if wordAt data 0 = 0 then
        .ok (literalText false ['0'] (List.replicate (wordAt data 6) '0'))
      else if weight data + max 1 ((wordAt data 6 + 3) / 4 : ℕ) ≤ 32767 then
        .ok (literalText (decide (wordAt data 4 = 0x4000)) (integerDigits data)
          (fractionDigits data))
      else .panic .overflow
    else .panic .overflow := by
  have hscale : i16AsUsize (i16At data 6) = wordAt data 6 := by
    rw [i16AsUsize_i16At, if_pos (by have := hdata.scale_lt; omega)]
  have hlen := hdata.length_eq
  have hlt := wordAt_lt data 0
  rw [decode, if_neg (by omega)]
  by_cases hsmall : wordAt data 0 < 32768
  · rw [if_pos hsmall]
    have hn : i16AsUsize (i16At data 0) = wordAt data 0 := by rw [i16AsUsize_i16At, if_pos hsmall]
    have hmul : mulUsize (wordAt data 0) 2 = .ok (wordAt data 0 * 2) := if_pos (by omega)
    have hadd : addUsize 8 (wordAt data 0 * 2) = .ok (8 + wordAt data 0 * 2) := if_pos (by omega)
    rw [hn, hscale]
    dsimp only
    rw [hmul, ok_bind, hadd, ok_bind, if_neg (by omega)]
    by_cases hzero : wordAt data 0 = 0
    · rw [if_pos hzero, if_pos hzero, zero_text hdata]
    rw [if_neg hzero, if_neg hzero, digits_eq hdata, sign_text]
    exact digits_text hdata.groups_lt _ (weight_ge data) hdata.scale_lt
  · rw [if_neg hsmall]
    have hn : i16AsUsize (i16At data 0) = 2 ^ 64 - 65536 + wordAt data 0 := by
      rw [i16AsUsize_i16At, if_neg hsmall]
    have hmul : mulUsize (2 ^ 64 - 65536 + wordAt data 0) 2 = .panic .overflow := if_neg (by omega)
    rw [hn]
    dsimp only
    rw [hmul]
    rfl

end

/-! ### Which numerics are decoded correctly -/

/-- The text is a literal for the value, and a finite value has so many decimals. -/
def Shows (text : String) (v : Value) (dscale : ℕ) : Prop :=
  tryFrom text = .ok text ∧ denotes text = some v ∧ ∀ q, v = .finite q → decimals text = dscale

/-- The number is finite, it has less than 32768 digits, and the numbers of those that are shown fit
into 16 bits. -/
def Decodable (data : Bytes) : Prop :=
  (wordAt data 4 = 0x0000 ∨ wordAt data 4 = 0x4000) ∧ wordAt data 0 < 32768 ∧
    (wordAt data 0 = 0 ∨ weight data + max 1 ((wordAt data 6 + 3) / 4 : ℕ) ≤ 32767)

theorem shows_literalText (negative : Bool) {ip fp : List Char} (hne : ip ≠ [])
    (hip : ∀ c ∈ ip, c.isDigit = true) (hfp : ∀ c ∈ fp, c.isDigit = true) {v : Value} :
    Shows (literalText negative ip fp) v fp.length ↔ v = .finite ((if negative then -1 else 1) *
      (Nat.ofDigitChars 10 (ip ++ fp) 0 : ℚ) / 10 ^ fp.length) := by
  rw [Shows, denotes_literalText hip hfp hne, decimals_literalText hip hfp, Option.some_inj]
  constructor
  · rintro ⟨-, hv, -⟩
    exact hv.symm
  · intro hv
    exact ⟨tryFrom_literalText hip hfp hne, hv.symm, fun _ _ => rfl⟩

theorem exists_ok_iff {α : Type} {x : α} {P : α → Prop} :
    (∃ y, (.ok x : Decoded α) = .ok y ∧ P y) ↔ P x := by
  constructor
  · rintro ⟨y, h, hy⟩
    rwa [Except.ok.inj h]
  · exact fun h => ⟨x, rfl, h⟩

/-- The decoded sign is that of the value, if this is finite. -/
theorem finite_iff {data : Bytes} {v : Value} (h : recv data = some v) :
    v = .finite ((if decide (wordAt data 4 = 0x4000) then -1 else 1) * shown data) ↔
      wordAt data 4 = 0x0000 ∨ wordAt data 4 = 0x4000 := by
  obtain ⟨-, ⟨hs, hv⟩ | ⟨hs, hv⟩ | ⟨hs, hs', hv⟩⟩ := recv_cases h
  · simp [hv, hs]
  · simp [hv, hs]
  · exact iff_of_false (hv _) fun hsign => hsign.elim hs hs'

/-- **Numerics are decoded exactly** if they are decodable, and only then. -/
theorem decode_shows_iff {data : Bytes} {v : Value} (h : recv data = some v) :
    (∃ text, decode data = .ok text ∧ Shows text v (wordAt data 6)) ↔ Decodable data := by
  have hdata := (recv_cases h).1
  have hfinite := finite_iff h
  rw [decode_eq hdata, Decodable]
  by_cases hsmall : wordAt data 0 < 32768
  · rw [if_pos hsmall]
    by_cases hzero : wordAt data 0 = 0
    · -- without digits the number is zero, and so is the text
      have hshown : shown data = 0 := by simp [shown, groups, hzero, Positional.value]
      have hdigit : ∀ c ∈ List.replicate (wordAt data 6) '0', c.isDigit = true := by
        intro c hc
        rw [List.eq_of_mem_replicate hc]
        decide
      have hshows := shows_literalText (v := v) false (List.cons_ne_nil '0' [])
        (List.forall_mem_singleton.2 rfl) hdigit
      rw [List.length_replicate, Nat.ofDigitChars_append, Nat.ofDigitChars_replicate_zero] at hshows
      rw [hshown, mul_zero] at hfinite
      rw [if_pos hzero, exists_ok_iff, hshows, and_iff_left ⟨hsmall, .inl hzero⟩, ← hfinite]
      simp [Nat.ofDigitChars_cons]
    · rw [if_neg hzero]
      by_cases hfits : weight data + max 1 ((wordAt data 6 + 3) / 4 : ℕ) ≤ 32767
      · have hshows := shows_literalText (v := v) (decide (wordAt data 4 = 0x4000))
          (integerDigits_ne_nil data) (isDigit_integerDigits data) (isDigit_fractionDigits data)
        rw [length_fractionDigits hdata, mul_div_assoc, ofDigitChars_text hdata] at hshows
        rw [if_pos hfits, exists_ok_iff, hshows, hfinite, and_iff_left ⟨hsmall, .inr hfits⟩]
      · rw [if_neg hfits]
        refine iff_of_false ?_ fun hdec => hdec.2.2.elim hzero hfits
        rintro ⟨text, htext, -⟩
        cases htext
  · rw [if_neg hsmall]
    refine iff_of_false ?_ fun hdec => hsmall hdec.2.1
    rintro ⟨text, htext, -⟩
    cases htext

/-- `-12345.67`, in three groups of which the scale cuts the last one. -/
def negativeData : Bytes := [0, 3, 0, 1, 0x40, 0, 0, 2, 0, 1, 9, 0x29, 26, 44]

theorem decode_shows_negativeData : ∃ v, recv negativeData = some v ∧
    ∃ text, decode negativeData = .ok text ∧ Shows text v 2 := by
  have hrecv : recv negativeData = some (.finite (-1234567 / 100)) := by decide +kernel
  exact ⟨_, hrecv, (decode_shows_iff hrecv).2
    ⟨.inr (by decide), by decide, .inr (by decide)⟩⟩

/-- `NaN` is decoded to a zero. -/
theorem nan_lost : ∃ data v, recv data = some v ∧
    ¬∃ text, decode data = .ok text ∧ Shows text v (wordAt data 6) := by
  have hnan : recv [0, 0, 0, 0, 0xC0, 0, 0, 0] = some .nan := by decide +kernel
  refine ⟨_, _, hnan, fun ⟨text, htext, hshows⟩ => ?_⟩
  have hzero : decode [0, 0, 0, 0, 0xC0, 0, 0, 0] = .ok "0" := by decide +kernel
  obtain rfl := Except.ok.inj (hzero.symm.trans htext)
  have hdenotes : denotes "0" = some (.finite 0) := by decide +kernel
  cases hdenotes.symm.trans hshows.2.1

end Resolute.PgNumeric
