import Mathlib.Algebra.Order.Field.Power
import Mathlib.Algebra.Order.Floor.Ring
import Mathlib.Data.Rat.Floor
import Mathlib.Tactic.Positivity
import Mathlib.Tactic.Ring

/-!
# Positional numerals with a weight

A sequence of digits to a base, the first of which has a weight: an exponent that may be negative or
greater than the number of digits.  What such a numeral is worth up to a position is the number of
its `leading` digits, with zeros where there are none: cutting its `value` off at the position
leaves just these (`floor_value_mul`).  Nothing here is specific to this repository.
-/

namespace Resolute.Positional

variable (b : ℕ)

/-- The number with the given digits, the first of which stands for multiples of `b ^ w`. -/
def value : List ℕ → ℤ → ℚ
  | [], _ => 0
  | d :: ds, w => d * (b : ℚ) ^ w + value ds (w - 1)

/-- The number with the first `n` digits, the last of which stands for units. -/
def leading : List ℕ → ℕ → ℕ
  | _, 0 => 0
  | [], _ + 1 => 0
  | d :: ds, n + 1 => d * b ^ n + leading ds n

@[simp] theorem leading_zero (ds : List ℕ) : leading b ds 0 = 0 := by cases ds <;> rfl

@[simp] theorem leading_nil (n : ℕ) : leading b [] n = 0 := by cases n <;> rfl

theorem leading_succ (ds : List ℕ) (n : ℕ) :
    leading b ds (n + 1) = leading b ds n * b + ds.getD n 0 := by
  induction ds generalizing n with
  | nil => simp
  | cons d ds ih =>
    cases n with
    | zero => simp [leading]
    | succ n =>
      rw [leading, ih, leading, List.getD_cons_succ]
      ring

theorem value_nonneg (ds : List ℕ) (w : ℤ) : 0 ≤ value b ds w := by
  induction ds generalizing w with
  | nil => exact le_rfl
  | cons d ds ih =>
    have := ih (w - 1)
    rw [value]
    positivity

section

variable {b} (hb : 1 < b)
include hb

theorem value_lt {ds : List ℕ} (h : ∀ d ∈ ds, d < b) (w : ℤ) :
    value b ds w < (b : ℚ) ^ (w + 1) := by
  have hb₀ : (b : ℚ) ≠ 0 := by exact_mod_cast (by omega : b ≠ 0)
  induction ds generalizing w with
  | nil => rw [value]; positivity
  | cons d ds ih =>
    have hd : (d : ℚ) + 1 ≤ b := by exact_mod_cast h d List.mem_cons_self
    have hds := ih (fun x hx => h x (List.mem_cons_of_mem d hx)) (w - 1)
    rw [sub_add_cancel] at hds
    calc value b (d :: ds) w = d * (b : ℚ) ^ w + value b ds (w - 1) := rfl
      _ < d * (b : ℚ) ^ w + (b : ℚ) ^ w := by gcongr
      _ = (d + 1) * (b : ℚ) ^ w := by ring
      _ ≤ b * (b : ℚ) ^ w := by gcongr
      _ = (b : ℚ) ^ (w + 1) := by rw [zpow_add_one₀ hb₀, mul_comm]

/-- In front of the first digit there is nothing. -/
theorem floor_value_mul_of_nonpos {ds : List ℕ} (h : ∀ d ∈ ds, d < b) {w m : ℤ}
    (hwm : w + 1 + m ≤ 0) : ⌊value b ds w * (b : ℚ) ^ m⌋ = 0 := by
  have hb₀ : (b : ℚ) ≠ 0 := by exact_mod_cast (by omega : b ≠ 0)
  have hpos : (0 : ℚ) < (b : ℚ) ^ m := by positivity
  rw [Int.floor_eq_zero_iff, Set.mem_Ico]
  refine ⟨mul_nonneg (value_nonneg b ds w) hpos.le, ?_⟩
  calc value b ds w * (b : ℚ) ^ m < (b : ℚ) ^ (w + 1) * (b : ℚ) ^ m := by
        gcongr
        exact value_lt hb h w
    _ = (b : ℚ) ^ (w + 1 + m) := (zpow_add₀ hb₀ _ _).symm
    _ ≤ 1 := zpow_le_one_of_nonpos₀ (by exact_mod_cast hb.le) hwm

/-- **Cutting a numeral off** at the position `-m` leaves the digits in front of it. -/
theorem floor_value_mul {ds : List ℕ} (h : ∀ d ∈ ds, d < b) (w m : ℤ) :
    ⌊value b ds w * (b : ℚ) ^ m⌋ = leading b ds (w + 1 + m).toNat := by
  have hb₀ : (b : ℚ) ≠ 0 := by exact_mod_cast (by omega : b ≠ 0)
  induction ds generalizing w with
  | nil => simp [value]
  | cons d ds ih =>
    by_cases hwm : w + 1 + m ≤ 0
    · rw [floor_value_mul_of_nonpos hb h hwm, Int.toNat_of_nonpos hwm]
      simp
    · obtain ⟨n, hn⟩ : ∃ n : ℕ, w + m = n := ⟨(w + m).toNat, by omega⟩
      have hsplit : value b (d :: ds) w * (b : ℚ) ^ m =
          ((d * b ^ n : ℕ) : ℤ) + value b ds (w - 1) * (b : ℚ) ^ m := by
        rw [value, add_mul, mul_assoc, ← zpow_add₀ hb₀, hn]
        push_cast
        rw [zpow_natCast]
      rw [hsplit, Int.floor_intCast_add, ih (fun x hx => h x (List.mem_cons_of_mem d hx)),
        show (w + 1 + m).toNat = n + 1 by omega, show (w - 1 + 1 + m).toNat = n by omega, leading]
      push_cast
      rfl

end

end Resolute.Positional
