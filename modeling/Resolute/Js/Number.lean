import Mathlib.Data.Int.Log
import Mathlib.Data.Rat.Floor
import Mathlib.Tactic.Linarith

/-!
# Numbers of JavaScript

A finite Number is a value of the format binary64, and an operation yields the value that is nearest
to the exact result (`toNumber`).  The values here are rational, and of a size for which the
exponent of the format is no limit.  Results that are integers below `2 ^ 53` are exact
(`toNumber_intCast`), which is all that most of the arithmetic on times needs.
-/

namespace Resolute.Js

/-- The nearest integer, the even one of two. -/
def roundHalfEven (x : ℚ) : ℤ :=
  if Int.fract x < 1 / 2 then ⌊x⌋
  else if 1 / 2 < Int.fract x then ⌊x⌋ + 1
  else if ⌊x⌋ % 2 = 0 then ⌊x⌋ else ⌊x⌋ + 1

/-- The Number for a value: the nearest one with 53 significant digits. -/
def toNumber (x : ℚ) : ℚ :=
  let scale : ℚ := 2 ^ (52 - Int.log 2 |x|)
  roundHalfEven (x * scale) / scale

/-- `Math.round` -/
def mathRound (x : ℚ) : ℤ := ⌊x + 1 / 2⌋

theorem roundHalfEven_intCast (n : ℤ) : roundHalfEven n = n := by
  rw [roundHalfEven, Int.fract_intCast, if_pos (by norm_num), Int.floor_intCast]

@[simp] theorem mathRound_intCast (n : ℤ) : mathRound n = n := by
  rw [mathRound, Int.floor_eq_iff]
  constructor <;> linarith

/-- **Integers below `2 ^ 53` are Numbers.** -/
theorem toNumber_intCast {n : ℤ} (h : n.natAbs < 9007199254740992) : toNumber n = n := by
  have hlog : Nat.log 2 n.natAbs ≤ 52 := by
    by_cases hzero : n.natAbs = 0
    · rw [hzero, Nat.log_zero_right]
      decide
    · exact Nat.le_of_lt_succ (Nat.log_lt_of_lt_pow hzero h)
  have hcast : Int.log 2 |(n : ℚ)| = Nat.log 2 n.natAbs := by
    rw [← Int.log_natCast (R := ℚ), Nat.cast_natAbs, Int.cast_abs]
  obtain ⟨k, hk⟩ : ∃ k : ℕ, (52 : ℤ) - Nat.log 2 n.natAbs = k :=
    ⟨52 - Nat.log 2 n.natAbs, by omega⟩
  -- The integer is scaled by a power of two to one, so that nothing is rounded.
  have hscale : (n : ℚ) * 2 ^ k = ((n * 2 ^ k : ℤ) : ℚ) := by
    push_cast
    rfl
  rw [toNumber, hcast, hk]
  simp only [zpow_natCast]
  rw [hscale, roundHalfEven_intCast, ← hscale, mul_div_cancel_right₀]
  exact pow_ne_zero k two_ne_zero

example : toNumber 9007199254740993 = 9007199254740992 := by decide +kernel

end Resolute.Js
