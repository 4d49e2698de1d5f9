import Mathlib.Algebra.Group.Int.Defs
import Resolute.Rust.Radix

/-!
# Signed numbers in strings

`from_str` of a signed type reads a minus sign and digits, or what an unsigned type reads
(`parseInt`).  The magnitude of a negative number can be one greater than that of a positive one, so
the two are compared with different bounds.  An integer that is written in decimal digits
(`intText`) is parsed, and a text that has anything but digits behind its first character is not.
-/

namespace Resolute.Rust

/-- `to_string` of a signed type. -/
def intText (n : ℤ) : List Char :=
  if n < 0 then '-' :: Nat.toDigits 10 n.natAbs else Nat.toDigits 10 n.natAbs

/-- `from_str` of a signed type that has the values from `-half` on and below `half`. -/
def parseInt (half : ℕ) (cs : List Char) : Option ℤ :=
  if cs.head? = some '-' then
    if cs.tail = [] then none
    else ((readDigits 10 0 cs.tail).filter (· ≤ half)).map fun n : ℕ => -(n : ℤ)
  else (fromStrRadix half 10 cs).map fun n : ℕ => (n : ℤ)

section

variable {half : ℕ}

theorem toDigits_isDigit (n : ℕ) : ∀ c ∈ Nat.toDigits 10 n, c.isDigit = true :=
  fun _ hc => Nat.isDigit_of_mem_toDigits (by decide) (by decide) hc

/-- **An integer in decimal digits** is parsed. -/
theorem parseInt_intText {n : ℤ} (hlow : -half ≤ n) (hhigh : n < half) :
    parseInt half (intText n) = some n := by
  rw [intText]
  by_cases hneg : n < 0
  · have hfits : n.natAbs ≤ half := by omega
    have habs : -(n.natAbs : ℤ) = n := by omega
    rw [if_pos hneg, parseInt, List.head?_cons, if_pos rfl, List.tail_cons,
      if_neg Nat.toDigits_ne_nil, readDigits_toDigits, Option.filter_some,
      if_pos (decide_eq_true hfits), Option.map_some, habs]
  · have hfits : n.natAbs < half := by omega
    have hhead : (Nat.toDigits 10 n.natAbs).head? ≠ some '-' := by
      intro hminus
      exact absurd (toDigits_isDigit _ _ (List.mem_of_mem_head? hminus)) (by decide)
    have hparse := fromStrRadix_toDigits hfits
    rw [if_neg hneg, parseInt, if_neg hhead, hparse, Option.map_some]
    exact congrArg some (by omega)

/-- A character that is no digit ends the reading. -/
theorem readDigits_eq_none {c : Char} (hc : toDigit 10 c = none) {cs : List Char} (h : c ∈ cs)
    (n : ℕ) : readDigits 10 n cs = none := by
  induction cs generalizing n with
  | nil => exact absurd h List.not_mem_nil
  | cons d ds ih =>
    rw [readDigits]
    rcases List.mem_cons.mp h with rfl | h
    · rw [hc, Option.bind_none]
    · cases toDigit 10 d with
      | none => rfl
      | some x => exact ih h _

/-- **A text is refused** that has something else than a digit behind its first character. -/
theorem parseInt_eq_none {c d : Char} (hc : toDigit 10 c = none) {cs : List Char} (h : c ∈ cs) :
    parseInt half (d :: cs) = none := by
  have hread : ∀ ds, c ∈ ds → readDigits 10 0 ds = none := fun _ h => readDigits_eq_none hc h 0
  rw [parseInt, List.head?_cons, List.tail_cons]
  by_cases hminus : some d = some '-'
  · rw [if_pos hminus, if_neg (List.ne_nil_of_mem h), hread _ h]
    rfl
  · rw [if_neg hminus, fromStrRadix, List.head?_cons, List.tail_cons]
    by_cases hplus : some d = some '+'
    · rw [if_pos hplus, if_neg (List.ne_nil_of_mem h), hread _ h]
      rfl
    · rw [if_neg hplus, if_neg (List.cons_ne_nil d cs), hread _ (List.mem_cons_of_mem d h)]
      rfl

end

end Resolute.Rust
