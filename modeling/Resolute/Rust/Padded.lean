import Mathlib.Algebra.GroupWithZero.Nat
import Mathlib.Tactic.Common

/-!
# Numbers with leading zeros

`{n:0width}` writes a number in decimal digits, with zeros in front up to a width (`padded`, and
`paddedInt` with a sign).  A number that is not wider is written with just as many digits, so it is
the `fixed` form, the last digits of the number.  Of fixed forms it is known

* how they follow one another (`fixed_append`), and what some of their digits stand for
  (`ofDigitChars_part`);
* that their order as texts is the order of the numbers (`fixed_lt_fixed`).
-/

namespace Resolute.Rust

/-- `format!("{n:0width}")` for an unsigned number. -/
def padded (width n : ℕ) : List Char :=
  List.replicate (width - (Nat.toDigits 10 n).length) '0' ++ Nat.toDigits 10 n

/-- `format!("{n:0width}")` for a signed number; the sign counts. -/
def paddedInt (width : ℕ) (n : ℤ) : List Char :=
  if n < 0 then '-' :: padded (width - 1) n.natAbs else padded width n.natAbs

/-- The last digits of a number. -/
def fixed : (width n : ℕ) → List Char
  | 0, _ => []
  | width + 1, n => fixed width (n / 10) ++ [(n % 10).digitChar]

@[simp] theorem length_fixed (width n : ℕ) : (fixed width n).length = width := by
  induction width generalizing n with
  | zero => rfl
  | succ width ih => rw [fixed, List.length_append, ih, List.length_singleton]

theorem isDigit_fixed {width n : ℕ} {c : Char} (h : c ∈ fixed width n) : c.isDigit = true := by
  induction width generalizing n with
  | zero => cases h
  | succ width ih =>
    rcases List.mem_append.mp h with h | h
    · exact ih h
    · rw [List.mem_singleton.mp h, Nat.isDigit_digitChar]
      exact decide_eq_true (Nat.mod_lt n (by decide))

/-- A number that is not wider than the width. -/
theorem padded_eq_fixed {width n : ℕ} (hn : n < 10 ^ (width + 1)) :
    padded (width + 1) n = fixed (width + 1) n := by
  induction width generalizing n with
  | zero =>
    have hlt : n < 10 := by simpa using hn
    rw [padded, Nat.toDigits_of_lt_base hlt, fixed, Nat.mod_eq_of_lt hlt]
    rfl
  | succ width ih =>
    by_cases hlt : n < 10
    · have hzero := @ih 0 (Nat.pow_pos (by decide))
      rw [fixed, Nat.div_eq_of_lt hlt, Nat.mod_eq_of_lt hlt, ← hzero, padded, padded,
        Nat.toDigits_of_lt_base hlt, Nat.toDigits_of_lt_base (by decide : 0 < 10)]
      simp [List.replicate_succ']
    · have hdiv : n / 10 < 10 ^ (width + 1) := by
        rw [Nat.div_lt_iff_lt_mul (by decide)]
        exact hn
      have hdigits : Nat.toDigits 10 n = Nat.toDigits 10 (n / 10) ++ [(n % 10).digitChar] := by
        rw [← Nat.toDigits_of_lt_base (Nat.mod_lt n (by decide : 0 < 10)),
          Nat.toDigits_append_toDigits (by decide) (by omega) (Nat.mod_lt n (by decide)),
          Nat.div_add_mod]
      rw [fixed, ← ih hdiv, padded, padded, hdigits, List.length_append, List.length_singleton,
        Nat.add_sub_add_right, List.append_assoc]

/-- A number, and one that is written behind it. -/
theorem fixed_append (width width' n : ℕ) {n' : ℕ} (h : n' < 10 ^ width') :
    fixed width n ++ fixed width' n' = fixed (width + width') (n * 10 ^ width' + n') := by
  induction width' generalizing n' with
  | zero =>
    have hzero : n' = 0 := by simpa using h
    simp [fixed, hzero]
  | succ width' ih =>
    have hdiv : n' / 10 < 10 ^ width' := by
      rw [Nat.div_lt_iff_lt_mul (by decide)]
      exact h
    have hsplit : n * 10 ^ (width' + 1) + n' = 10 * (n * 10 ^ width') + n' := by
      rw [Nat.pow_succ]
      ac_rfl
    rw [fixed, ← List.append_assoc, ih hdiv, ← Nat.add_assoc width width' 1, fixed, hsplit,
      Nat.mul_add_mod, Nat.mul_add_div (by decide)]

/-- The digits in front, and those behind them. -/
theorem fixed_add (width width' n : ℕ) :
    fixed (width + width') n = fixed width (n / 10 ^ width') ++ fixed width' n := by
  induction width' generalizing n with
  | zero => simp [fixed]
  | succ width' ih =>
    rw [← Nat.add_assoc width width' 1, fixed, ih, Nat.div_div_eq_div_mul, ← Nat.pow_succ', fixed,
      List.append_assoc]

/-- The number that digits stand for, those in front of them being a number. -/
theorem ofDigitChars_fixed_add (width n init : ℕ) :
    Nat.ofDigitChars 10 (fixed width n) init = init * 10 ^ width + n % 10 ^ width := by
  induction width generalizing n with
  | zero => rw [fixed, Nat.ofDigitChars_nil, Nat.pow_zero, Nat.mod_one, Nat.mul_one, Nat.add_zero]
  | succ width ih =>
    have hzero : '0'.toNat = 48 := rfl
    have hmul : init * (10 * 10 ^ width) = 10 * (init * 10 ^ width) := by ac_rfl
    rw [fixed, Nat.ofDigitChars_append, ih, Nat.ofDigitChars_cons, Nat.ofDigitChars_nil,
      Nat.toNat_digitChar_of_lt_ten (Nat.mod_lt n (by decide)), Nat.pow_succ', Nat.mod_mul, hmul]
    omega

theorem ofDigitChars_fixed (width n : ℕ) :
    Nat.ofDigitChars 10 (fixed width n) 0 = n % 10 ^ width := by
  rw [ofDigitChars_fixed_add, Nat.zero_mul, Nat.zero_add]

/-- Zeros in front do not count. -/
theorem ofDigitChars_padded (width n : ℕ) : Nat.ofDigitChars 10 (padded width n) 0 = n := by
  have hzeros (k : ℕ) : Nat.ofDigitChars 10 (List.replicate k '0') 0 = 0 := by
    induction k with
    | zero => rfl
    | succ k ih =>
      rw [List.replicate_succ, Nat.ofDigitChars_cons]
      exact ih
  rw [padded, Nat.ofDigitChars_append, hzeros, Nat.ofDigitChars_ten_toDigits]

theorem isDigit_padded {width n : ℕ} {c : Char} (h : c ∈ padded width n) : c.isDigit = true := by
  rcases List.mem_append.mp h with h | h
  · rw [List.eq_of_mem_replicate h]
    decide
  · exact Nat.isDigit_of_mem_toDigits (by decide) (by decide) h

/-- The number that some of the digits stand for. -/
theorem ofDigitChars_part (skip width behind n : ℕ) :
    Nat.ofDigitChars 10 (((fixed (skip + width + behind) n).drop skip).take width) 0 =
      n / 10 ^ behind % 10 ^ width := by
  rw [fixed_add, fixed_add, List.append_assoc, List.drop_left' (length_fixed skip _),
    List.take_left' (length_fixed width _), ofDigitChars_fixed]

/-- The first digit. -/
theorem fixed_succ (width n : ℕ) :
    fixed (width + 1) n = (n / 10 ^ width % 10).digitChar :: fixed width n := by
  induction width generalizing n with
  | zero => simp [fixed]
  | succ width ih =>
    rw [fixed, ih, Nat.div_div_eq_div_mul, ← Nat.pow_succ', fixed]
    rfl

theorem digitChar_lt : ∀ b < 10, ∀ a < b, a.digitChar < b.digitChar := by decide

theorem fixed_lt_of_mod_lt {width m n : ℕ} (h : m % 10 ^ width < n % 10 ^ width) :
    fixed width m < fixed width n := by
  induction width with
  | zero => simp [Nat.mod_one] at h
  | succ width ih =>
    rw [Nat.mod_pow_succ, Nat.mod_pow_succ] at h
    rw [fixed_succ, fixed_succ, List.cons_lt_cons_iff]
    rcases Nat.lt_trichotomy (m / 10 ^ width % 10) (n / 10 ^ width % 10) with hlt | heq | hgt
    · exact .inl (digitChar_lt _ (Nat.mod_lt _ (by decide)) _ hlt)
    · rw [heq] at h ⊢
      exact .inr ⟨rfl, ih (Nat.lt_of_add_lt_add_right h)⟩
    · have hle := Nat.mul_le_mul_left (10 ^ width) (Nat.succ_le_of_lt hgt)
      have hmod := Nat.mod_lt n (Nat.pow_pos (by decide : 0 < 10) : 0 < 10 ^ width)
      rw [Nat.succ_eq_add_one, Nat.mul_add, Nat.mul_one] at hle
      omega

/-- **The order of texts** of one width is that of their numbers. -/
theorem fixed_lt_fixed {width m n : ℕ} (hn : n < 10 ^ width) (h : m < n) :
    fixed width m < fixed width n := by
  apply fixed_lt_of_mod_lt
  rwa [Nat.mod_eq_of_lt hn, Nat.mod_eq_of_lt (Nat.lt_trans h hn)]

end Resolute.Rust
