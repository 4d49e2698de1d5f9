import Resolute.Codec.Newtypes

/-!
# Decimal literals

A decimal literal is an optional minus sign, digits, and more digits behind a point (`literalText`).
`try_from` accepts it as it is (`tryFrom_literalText`), and its value is the number of all its
digits, scaled by the `decimals` behind the point (`denotes_literalText`).
-/

namespace Resolute.PgNumeric

/-! ### Digits as bytes -/

theorem asBytes_ofList {cs : List Char} (h : ∀ c ∈ cs, c.toNat < 128) :
    asBytes (String.ofList cs) = cs.map byte := by
  rw [asBytes, String.toByteArray_ofList]
  induction cs with
  | nil => rfl
  | cons c cs ih =>
    have hc := h c List.mem_cons_self
    have hsize : c.utf8Size = 1 :=
      Char.utf8Size_eq_one_iff.2 (UInt32.le_iff_toNat_le.2 (Nat.le_of_lt_succ hc))
    rw [List.utf8Encode_cons, List.map_cons, ← ih fun x hx => h x (List.mem_cons_of_mem c hx)]
    simp [List.utf8Encode_singleton, String.utf8EncodeChar_eq_singleton hsize, byte]
    exact UInt8.toNat_inj.1 (by rw [UInt8.toNat_ofNat']; exact UInt32.toNat_toUInt8 c.val)

theorem isDigit_iff {c : Char} : c.isDigit = true ↔ 48 ≤ c.toNat ∧ c.toNat ≤ 57 := by
  simp only [Char.isDigit, Bool.and_eq_true, decide_eq_true_eq, ge_iff_le, UInt32.le_iff_toNat_le]
  exact Iff.rfl
theorem byte_toNat {c : Char} (h : c.toNat < 128) : (byte c).toNat = c.toNat := by
  rw [byte, UInt8.toNat_ofNat']
  omega
theorem isAsciiDigit_byte {c : Char} (h : c.isDigit = true) : isAsciiDigit (byte c) = true := by
  rw [isDigit_iff] at h
  have hb : (byte c).toNat = c.toNat := byte_toNat (by omega)
  simp only [isAsciiDigit, UInt8.le_iff_toNat_le, hb, Bool.and_eq_true, decide_eq_true_eq]
  exact h

theorem digitValue_byte {c : Char} (h : c.isDigit = true) :
    digitValue 10 (byte c) = some (c.toNat - 48) := by
  rw [isDigit_iff] at h
  have hb : (byte c).toNat = c.toNat := byte_toNat (by omega)
  rw [digitValue, hb, if_pos h, if_pos (by omega)]

theorem digitsValue_map_byte {cs : List Char} (h : ∀ c ∈ cs, c.isDigit = true) (n : ℕ) :
    (cs.map byte).foldl (fun n b => n * 10 + (digitValue 10 b).getD 0) n =
      Nat.ofDigitChars 10 cs n := by
  induction cs generalizing n with
  | nil => rfl
  | cons c cs ih =>
    rw [List.map_cons, List.foldl_cons, ih (fun x hx => h x (List.mem_cons_of_mem c hx)),
      Nat.ofDigitChars_cons, digitValue_byte (h c List.mem_cons_self), Option.getD_some,
      Nat.mul_comm n 10]
    rfl

/-! ### Literals -/

/-- A decimal literal. -/
def literalText (negative : Bool) (ip fp : List Char) : String :=
  .ofList ((if negative then ['-'] else []) ++ ip ++ if fp = [] then [] else '.' :: fp)

/-- The number of characters behind the point. -/
def decimals (text : String) : ℕ := ((asBytes text).dropWhile (· ≠ byte '.')).tail.length

/-- What follows the digits in front of the point. -/
def pointText (fp : List Char) : Bytes := if fp = [] then [] else byte '.' :: fp.map byte

theorem skipDigits_digits {cs : List Char} (h : ∀ c ∈ cs, c.isDigit = true) (rest : Bytes) :
    skipDigits (cs.map byte ++ rest) = skipDigits rest := by
  rw [skipDigits, List.dropWhile_append_of_pos]
  · rfl
  · intro b hb
    obtain ⟨c, hc, rfl⟩ := List.mem_map.1 hb
    exact isAsciiDigit_byte (h c hc)

theorem takeWhile_digits {cs : List Char} (h : ∀ c ∈ cs, c.isDigit = true) (rest : Bytes) :
    (cs.map byte ++ rest).takeWhile isAsciiDigit = cs.map byte ++ rest.takeWhile isAsciiDigit := by
  rw [List.takeWhile_append_of_pos]
  intro b hb
  obtain ⟨c, hc, rfl⟩ := List.mem_map.1 hb
  exact isAsciiDigit_byte (h c hc)

section
variable {negative : Bool} {ip fp : List Char} (hne : ip ≠ []) (hip : ∀ c ∈ ip, c.isDigit = true)
  (hfp : ∀ c ∈ fp, c.isDigit = true)
include hip hfp

theorem mem_literalText {c : Char} (h : c ∈ (literalText negative ip fp).toList) :
    c = '-' ∨ c = '.' ∨ c.isDigit = true := by
  rw [literalText, String.toList_ofList, List.mem_append, List.mem_append] at h
  rcases h with (h | h) | h
  · split_ifs at h
    · exact .inl (List.mem_singleton.1 h)
    · cases h
  · exact .inr (.inr (hip c h))
  · split_ifs at h
    · cases h
    · rcases List.mem_cons.1 h with rfl | h
      · exact .inr (.inl rfl)
      · exact .inr (.inr (hfp c h))

theorem asBytes_literalText : asBytes (literalText negative ip fp) =
    (if negative then [byte '-'] else []) ++ (ip.map byte ++ pointText fp) := by
  rw [literalText, pointText, asBytes_ofList fun c hc => ?_]
  · cases negative <;> by_cases hfp : fp = [] <;> simp [hfp]
  · rcases mem_literalText hip hfp (by simpa [literalText] using hc) with rfl | rfl | hd
    · decide
    · decide
    · exact Nat.lt_of_le_of_lt (isDigit_iff.1 hd).2 (by decide)

omit hip hfp in
theorem skipDigits_pointText : skipDigits (pointText fp) = pointText fp := by
  rw [pointText]
  split_ifs <;> rfl

omit hip in
theorem skipFraction_pointText : skipFraction (pointText fp) = [] := by
  rw [pointText]
  split_ifs with hnil
  · rfl
  · have hskip := skipDigits_digits hfp []
    rw [List.append_nil] at hskip
    rw [skipFraction, if_pos rfl, hskip]
    rfl

omit hip in
theorem takeWhile_pointText : (if (pointText fp).head? = some (byte '.') then
    (pointText fp).tail.takeWhile isAsciiDigit else []) = fp.map byte := by
  by_cases hnil : fp = []
  · subst hnil
    rfl
  · have htake := takeWhile_digits hfp []
    rw [List.append_nil, List.takeWhile_nil, List.append_nil] at htake
    rw [pointText, if_neg hnil, List.head?_cons, if_pos rfl, List.tail_cons, htake]

omit hfp in
theorem skipSign_digits (hne : ip ≠ []) (rest : Bytes) :
    skipSign (ip.map byte ++ rest) = ip.map byte ++ rest := by
  obtain ⟨c, cs, rfl⟩ := List.exists_cons_of_ne_nil hne
  have hc := isAsciiDigit_byte (hip c List.mem_cons_self)
  rw [List.map_cons, List.cons_append, skipSign, if_neg]
  rintro (h | h) <;> rw [h] at hc <;> cases hc

theorem skipSign_literalText (hne : ip ≠ []) :
    skipSign (asBytes (literalText negative ip fp)) = ip.map byte ++ pointText fp := by
  rw [asBytes_literalText hip hfp]
  cases negative with
  | false => exact skipSign_digits hip hne _
  | true => rfl

/-- A decimal literal is no special value. -/
theorem literalText_ne (s : String) (h : ∃ c ∈ s.toList, c ≠ '-' ∧ c ≠ '.' ∧ c.isDigit = false) :
    literalText negative ip fp ≠ s := by
  rintro rfl
  obtain ⟨c, hc, hminus, hpoint, hdigit⟩ := h
  rcases mem_literalText hip hfp hc with h | h | h
  · exact hminus h
  · exact hpoint h
  · rw [hdigit] at h
    cases h

/-- **The value of a decimal literal.** -/
theorem denotes_literalText (hne : ip ≠ []) :
    denotes (literalText negative ip fp) = some (.finite ((if negative then -1 else 1) *
      (Nat.ofDigitChars 10 (ip ++ fp) 0 : ℚ) / 10 ^ fp.length)) := by
  have hplain : ∀ s : String, (∃ c ∈ s.toList, c ≠ '-' ∧ c ≠ '.' ∧ c.isDigit = false) →
      literalText negative ip fp ≠ s := literalText_ne hip hfp
  have hsign : (if (asBytes (literalText negative ip fp)).head? = some (byte '-') then -1
      else 1 : ℤ) = if negative then -1 else 1 := by
    rw [asBytes_literalText hip hfp]
    cases negative with
    | false =>
      obtain ⟨c, cs, rfl⟩ := List.exists_cons_of_ne_nil hne
      have hc := isAsciiDigit_byte (hip c List.mem_cons_self)
      rw [if_neg]
      · rfl
      · intro h
        rw [Option.some_inj.1 h] at hc
        cases hc
    | true => rfl
  rw [denotes, if_neg (hplain _ ⟨'N', by decide, by decide⟩),
    if_neg (hplain _ ⟨'I', by decide, by decide⟩), if_neg (hplain _ ⟨'I', by decide, by decide⟩)]
  have hdigits : (ip.map byte ++ pointText fp).takeWhile isAsciiDigit = ip.map byte := by
    rw [takeWhile_digits hip, pointText]
    split_ifs <;> simp [isAsciiDigit, byte]
  have hvalue : digitsValue 10 (ip.map byte ++ fp.map byte) = Nat.ofDigitChars 10 (ip ++ fp) 0 := by
    rw [← List.map_append]
    refine digitsValue_map_byte (fun c hc => ?_) 0
    exact (List.mem_append.1 hc).elim (hip c) (hfp c)
  dsimp only
  rw [hsign, skipSign_literalText hip hfp hne, skipDigits_digits hip, skipDigits_pointText,
    takeWhile_pointText hfp, skipFraction_pointText hfp, hdigits, hvalue, List.length_map]
  have hexp : (if ([] : Bytes).tail.head? = some (byte '-') then -1 else 1) *
      (digitsValue 10 (skipSign ([] : Bytes).tail) : ℤ) - fp.length = -fp.length := by
    simp [skipSign, digitsValue]
  rw [hexp, zpow_neg, zpow_natCast, ← div_eq_mul_inv]
  cases negative <;> simp

theorem decimals_literalText : decimals (literalText negative ip fp) = fp.length := by
  have hdrop : ∀ cs : List Char, (∀ c ∈ cs, c.isDigit = true) → ∀ rest : Bytes,
      (cs.map byte ++ rest).dropWhile (· ≠ byte '.') = rest.dropWhile (· ≠ byte '.') := by
    intro cs hcs rest
    rw [List.dropWhile_append_of_pos]
    intro b hb
    obtain ⟨c, hc, rfl⟩ := List.mem_map.1 hb
    have hdigit := isAsciiDigit_byte (hcs c hc)
    rw [decide_eq_true_eq]
    intro heq
    rw [heq] at hdigit
    cases hdigit
  have hpoint : ((pointText fp).dropWhile (· ≠ byte '.')).tail = fp.map byte := by
    rw [pointText]
    split_ifs with hnil
    · rw [hnil]
      rfl
    · simp
  rw [decimals, asBytes_literalText hip hfp]
  cases negative with
  | false => rw [if_neg Bool.false_ne_true, List.nil_append, hdrop ip hip, hpoint, List.length_map]
  | true =>
    rw [if_pos rfl, List.singleton_append, List.dropWhile_cons_of_pos (by decide), hdrop ip hip,
      hpoint, List.length_map]

theorem trim_literalText : trim (literalText negative ip fp) = literalText negative ip fp := by
  have hspace : ∀ c ∈ (literalText negative ip fp).toList, ¬isWhitespace c = true := by
    intro c hc
    rcases mem_literalText hip hfp hc with rfl | rfl | h
    · decide
    · decide
    · rw [isDigit_iff] at h
      simp [isWhitespace]
      omega
  have hdrop : ∀ l : List Char, (∀ c ∈ l, ¬isWhitespace c = true) → l.dropWhile isWhitespace = l :=
    fun l hl => List.dropWhile_eq_self_iff.2 fun hpos => hl _ (List.getElem_mem hpos)
  rw [trim, hdrop _ hspace, hdrop _ fun c hc => hspace c (List.mem_reverse.1 hc),
    List.reverse_reverse, String.ofList_toList]

/-- A decimal literal is accepted as it is. -/
theorem tryFrom_literalText (hne : ip ≠ []) :
    tryFrom (literalText negative ip fp) = .ok (literalText negative ip fp) := by
  have hplain : ∀ s : String, (∃ c ∈ s.toList, c ≠ '-' ∧ c ≠ '.' ∧ c.isDigit = false) →
      literalText negative ip fp ≠ s := literalText_ne hip hfp
  have hempty : literalText negative ip fp ≠ "" := by
    intro h
    have hbytes : asBytes (literalText negative ip fp) = _ := asBytes_literalText hip hfp
    obtain ⟨c, cs, rfl⟩ := List.exists_cons_of_ne_nil hne
    rw [h] at hbytes
    cases negative <;> cases hbytes
  have hhead : (ip.map byte ++ pointText fp).head? ≠ some (byte '.') := by
    obtain ⟨c, cs, rfl⟩ := List.exists_cons_of_ne_nil hne
    have hc := isAsciiDigit_byte (hip c List.mem_cons_self)
    intro h
    rw [Option.some_inj.1 h] at hc
    cases hc
  have hlen : 0 < (ip.map byte ++ pointText fp).length := by
    rw [List.length_append, List.length_map]
    exact Nat.add_pos_left (List.length_pos_iff.2 hne) _
  rw [tryFrom, trim_literalText hip hfp, if_neg hempty, if_neg]
  · dsimp only
    rw [skipSign_literalText hip hfp hne, skipDigits_digits hip, skipDigits_pointText,
      skipFraction_pointText hfp, if_neg]
    · rfl
    · rintro (h | ⟨-, h⟩)
      · rw [← h] at hlen
        cases hlen
      · exact hhead h
  · rintro (h | h | h)
    · exact hplain _ ⟨'N', by decide, by decide⟩ h
    · exact hplain _ ⟨'I', by decide, by decide⟩ h
    · exact hplain _ ⟨'I', by decide, by decide⟩ h

end

end Resolute.PgNumeric
