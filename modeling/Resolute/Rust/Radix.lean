import Mathlib.Data.Nat.Notation
import Mathlib.Tactic.Common

/-!
# Numbers in strings

`from_str_radix` of an unsigned type reads an optional plus sign and at least one digit; anything
else, and a number that the type does not have, is an error (`fromStrRadix`).  The digits themselves
are read by `readDigits`, one after another.  It inverts the two notations of this development, a
byte in two hexadecimal digits (`fromStrRadix_hexDigits`) and a number in decimal digits
(`fromStrRadix_toDigits`).
-/

namespace Resolute.Rust

/-- `char::to_digit`. -/
def toDigit (radix : ℕ) (c : Char) : Option ℕ :=
  let n := c.toNat
  let d := if 48 ≤ n ∧ n ≤ 57 then n - 48 else if 97 ≤ n ∧ n ≤ 122 then n - 87
    else if 65 ≤ n ∧ n ≤ 90 then n - 55 else 36
  if d < radix then some d else none

/-- The number that digits stand for, those in front of them being `n`. -/
def readDigits (radix : ℕ) : (n : ℕ) → List Char → Option ℕ
  | n, [] => some n
  | n, c :: cs => (toDigit radix c).bind fun d => readDigits radix (n * radix + d) cs

/-- `from_str_radix` of an unsigned type that has `size` values; `parse` is that with radix 10. -/
def fromStrRadix (size radix : ℕ) (cs : List Char) : Option ℕ :=
  let digits := if cs.head? = some '+' then cs.tail else cs
  if digits = [] then none else (readDigits radix 0 digits).filter (· < size)

theorem toDigit_digitChar : ∀ d < 16, toDigit 16 d.digitChar = some d := by decide

theorem toDigit_plus {radix : ℕ} (h : radix ≤ 36) : toDigit radix '+' = none := by
  rw [toDigit]
  exact if_neg (Nat.not_lt.mpr h)

theorem toDigit_lt {radix d : ℕ} {c : Char} (h : toDigit radix c = some d) : d < radix := by
  simp only [toDigit, Option.ite_none_right_eq_some, Option.some.injEq] at h
  obtain ⟨hlt, rfl⟩ := h
  exact hlt

theorem toDigit_ascii {radix d : ℕ} {c : Char} (hradix : radix ≤ 36)
    (h : toDigit radix c = some d) : c.toNat < 128 := by
  by_contra hc
  have hdigit : ¬(48 ≤ c.toNat ∧ c.toNat ≤ 57) := by omega
  have hlower : ¬(97 ≤ c.toNat ∧ c.toNat ≤ 122) := by omega
  have hupper : ¬(65 ≤ c.toNat ∧ c.toNat ≤ 90) := by omega
  simp only [toDigit, if_neg hdigit, if_neg hlower, if_neg hupper] at h
  rw [if_neg (by omega)] at h
  cases h

/-- Digits without a sign. -/
theorem fromStrRadix_of_ne_plus (size radix : ℕ) {c : Char} (h : c ≠ '+') (cs : List Char) :
    fromStrRadix size radix (c :: cs) = (readDigits radix 0 (c :: cs)).filter (· < size) := by
  have hhead : ¬(c :: cs).head? = some '+' := fun hc => h (Option.some.inj hc)
  rw [fromStrRadix, if_neg hhead]
  rfl

/-- Two hexadecimal digits are a byte. -/
theorem fromStrRadix_hex {c d : Char} (h : c ≠ '+') :
    fromStrRadix 256 16 [c, d] =
      (toDigit 16 c).bind fun x => (toDigit 16 d).map fun y => x * 16 + y := by
  rw [fromStrRadix_of_ne_plus 256 16 h]
  cases hc : toDigit 16 c with
  | none => simp [readDigits, hc]
  | some x =>
    cases hd : toDigit 16 d with
    | none => simp [readDigits, hc, hd]
    | some y =>
      have hx := toDigit_lt hc
      have hy := toDigit_lt hd
      simp [readDigits, hc, hd, Option.filter]
      omega

theorem digitChar_ne_plus {d : ℕ} (h : d < 16) : d.digitChar ≠ '+' := by
  intro hplus
  have := toDigit_digitChar d h
  rw [hplus, toDigit_plus (by decide)] at this
  cases this

/-- **A byte in hexadecimal digits.** -/
theorem fromStrRadix_hexDigits {n : ℕ} (h : n < 256) :
    fromStrRadix 256 16 [(n / 16).digitChar, (n % 16).digitChar] = some n := by
  have hhi : n / 16 < 16 := by omega
  have hlo : n % 16 < 16 := by omega
  rw [fromStrRadix_hex (digitChar_ne_plus hhi), toDigit_digitChar _ hhi, toDigit_digitChar _ hlo]
  exact congrArg some (Nat.div_add_mod' n 16)

/-- A character that is no digit is refused. -/
theorem fromStrRadix_eq_none {size radix : ℕ} {c : Char} {cs : List Char} (hmem : c ∈ cs)
    (hc : toDigit radix c = none) (hplus : c ≠ '+') : fromStrRadix size radix cs = none := by
  have hread : ∀ ds n, c ∈ ds → readDigits radix n ds = none := by
    intro ds n hds
    induction ds generalizing n with
    | nil => exact absurd hds List.not_mem_nil
    | cons d ds ih =>
      rw [readDigits]
      cases hd : toDigit radix d with
      | none => rfl
      | some m =>
        refine ih _ ((List.mem_cons.mp hds).resolve_left ?_)
        rintro rfl
        rw [hc] at hd
        cases hd
  have hdigits : c ∈ if cs.head? = some '+' then cs.tail else cs := by
    split_ifs with hhead
    · cases cs with
      | nil => cases hhead
      | cons d cs =>
        refine (List.mem_cons.mp hmem).resolve_left ?_
        rintro rfl
        exact hplus (Option.some.inj hhead)
    · exact hmem
  rw [fromStrRadix, hread _ 0 hdigits]
  exact ite_self none

theorem readDigits_ten {cs : List Char} (h : ∀ c ∈ cs, c.isDigit = true) (n : ℕ) :
    readDigits 10 n cs = some (Nat.ofDigitChars 10 cs n) := by
  induction cs generalizing n with
  | nil => rw [readDigits, Nat.ofDigitChars_nil]
  | cons c cs ih =>
    rw [List.forall_mem_cons] at h
    have hdigit : 48 ≤ c.toNat ∧ c.toNat ≤ 57 := by
      have := h.1
      simp only [Char.isDigit, Bool.and_eq_true, decide_eq_true_eq, ge_iff_le,
        UInt32.le_iff_toNat_le] at this
      exact this
    rw [readDigits, toDigit, if_pos hdigit, if_pos (by omega), Option.bind_some, ih h.2,
      Nat.ofDigitChars_cons, Nat.mul_comm n 10]
    rfl

theorem readDigits_toDigits (n : ℕ) : readDigits 10 0 (Nat.toDigits 10 n) = some n := by
  rw [readDigits_ten fun c hc => Nat.isDigit_of_mem_toDigits (by decide) (by decide) hc,
    Nat.ofDigitChars_ten_toDigits]

/-- The digits of a number begin with a digit. -/
theorem exists_toDigits (n : ℕ) : ∃ c cs, Nat.toDigits 10 n = c :: cs ∧ c ≠ '+' := by
  obtain ⟨c, cs, hcs⟩ := List.exists_cons_of_ne_nil (Nat.toDigits_ne_nil (b := 10) (n := n))
  refine ⟨c, cs, hcs, ?_⟩
  rintro rfl
  have hdigit := Nat.isDigit_of_mem_toDigits (by decide) (by decide)
    (hcs ▸ List.mem_cons_self : '+' ∈ Nat.toDigits 10 n)
  exact absurd hdigit (by decide)

/-- **A number in decimal digits** is parsed. -/
theorem fromStrRadix_toDigits {size n : ℕ} (h : n < size) :
    fromStrRadix size 10 (Nat.toDigits 10 n) = some n := by
  obtain ⟨c, cs, hcs, hplus⟩ := exists_toDigits n
  rw [hcs, fromStrRadix_of_ne_plus size 10 hplus, ← hcs, readDigits_toDigits, Option.filter_some,
    if_pos (decide_eq_true h)]

end Resolute.Rust
