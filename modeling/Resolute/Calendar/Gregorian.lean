import Mathlib.Data.Int.Notation
import Mathlib.Tactic.Common
import Mathlib.Tactic.IntervalCases

/-!
# The Gregorian calendar

Dates of the proleptic Gregorian calendar, and the number of days from the first of January 1970 to
a date.  A year is a leap year if it is divisible by 4, but not by 100 unless also by 400.

The conversion of a number of days into a date (`ofDays`) counts years that begin in March, so that
the leap day is the last of a year: in an era of 400 such years, a century has 36524 days and four
years have 1461, and the months from March on begin on the days `(153 * m + 2) / 5`.

That the numbers are right is seen from the calendar alone: the day after a date has the next number
(`Date.days_next`), and later dates have greater numbers (`Date.days_lt_iff`).  So every number is
that of one date, and the conversion finds it (`days_ofDays`, `ofDays_days`).
-/

namespace Resolute.Gregorian

/-! ### The rules -/

def isLeap (y : ℤ) : Bool := y % 4 = 0 ∧ (y % 100 ≠ 0 ∨ y % 400 = 0)

/-- The length of a month of a year. -/
def daysInMonth (y : ℤ) : ℕ → ℕ
  | 2 => if isLeap y then 29 else 28
  | 4 | 6 | 9 | 11 => 30
  | _ => 31

@[ext]
structure Date where
  year : ℤ
  month : ℕ
  day : ℕ
  month_pos : 1 ≤ month
  month_le : month ≤ 12
  day_pos : 1 ≤ day
  day_le : day ≤ daysInMonth year month
  deriving DecidableEq

/-! ### Counting days -/

/-- The days from the first of January 1970 to that of a year. -/
def daysBeforeYear (y : ℤ) : ℤ :=
  365 * (y - 1970) + (y - 1) / 4 - (y - 1) / 100 + (y - 1) / 400 - 477

/-- The days from the first of January to the first of a month. -/
def daysBeforeMonth (y : ℤ) : ℕ → ℕ
  | 0 | 1 => 0
  | m + 2 => daysBeforeMonth y (m + 1) + daysInMonth y (m + 1)

/-- The days from the first of January 1970 to a date. -/
def Date.days (d : Date) : ℤ :=
  daysBeforeYear d.year + daysBeforeMonth d.year d.month + (d.day - 1)

theorem daysInMonth_pos (y : ℤ) (m : ℕ) : 1 ≤ daysInMonth y m := by
  unfold daysInMonth
  split
  · split_ifs <;> decide
  all_goals decide

theorem daysInMonth_le (y : ℤ) (m : ℕ) : daysInMonth y m ≤ 31 := by
  unfold daysInMonth
  split
  · split_ifs <;> decide
  all_goals decide

theorem daysBeforeYear_1970 : daysBeforeYear 1970 = 0 := by decide

/-- The length of a year. -/
theorem daysBeforeYear_succ (y : ℤ) :
    daysBeforeYear (y + 1) = daysBeforeYear y + if isLeap y then 366 else 365 := by
  simp only [daysBeforeYear, isLeap, decide_eq_true_eq]
  split_ifs <;> omega

theorem daysBeforeMonth_succ (y : ℤ) {m : ℕ} (h : 1 ≤ m) :
    daysBeforeMonth y (m + 1) = daysBeforeMonth y m + daysInMonth y m := by
  obtain ⟨m, rfl⟩ := Nat.exists_eq_add_of_le' h
  rfl

/-- The months of a year add up to its length. -/
theorem daysBeforeMonth_thirteen (y : ℤ) :
    daysBeforeMonth y 13 = if isLeap y then 366 else 365 := by
  simp only [daysBeforeMonth, daysInMonth]
  split_ifs <;> rfl

/-- The day after a date. -/
def Date.next (d : Date) : Date :=
  if h : d.day < daysInMonth d.year d.month then
    ⟨d.year, d.month, d.day + 1, d.month_pos, d.month_le, Nat.le_add_left 1 _, h⟩
  else if h' : d.month < 12 then
    ⟨d.year, d.month + 1, 1, Nat.le_add_left 1 _, h', Nat.le_refl 1, daysInMonth_pos _ _⟩
  else ⟨d.year + 1, 1, 1, Nat.le_refl 1, by decide, Nat.le_refl 1, daysInMonth_pos _ _⟩

/-- **The numbers count the days.** -/
theorem Date.days_next (d : Date) : d.next.days = d.days + 1 := by
  have hle := d.day_le
  have hsucc := daysBeforeMonth_succ d.year d.month_pos
  unfold Date.next
  split_ifs with hday hmonth
  · simp only [days]
    omega
  · simp only [days]
    omega
  · have hyear := daysBeforeYear_succ d.year
    have hdecember : daysBeforeMonth d.year (12 + 1) = _ := daysBeforeMonth_thirteen d.year
    have hjanuary : daysBeforeMonth (d.year + 1) 1 = 0 := rfl
    have hmonth : d.month = 12 := Nat.le_antisymm d.month_le (Nat.le_of_not_lt hmonth)
    rw [hmonth] at hle hday hsucc
    simp only [days, hmonth, hjanuary]
    split_ifs at hyear hdecember <;> omega

/-! ### The order of dates -/

/-- A date is before another. -/
def Date.Before (d e : Date) : Prop :=
  d.year < e.year ∨ d.year = e.year ∧ (d.month < e.month ∨ d.month = e.month ∧ d.day < e.day)

theorem daysBeforeYear_mono {y z : ℤ} (h : y ≤ z) : daysBeforeYear y ≤ daysBeforeYear z := by
  unfold daysBeforeYear
  omega

theorem daysBeforeMonth_mono (y : ℤ) {m n : ℕ} (hm : 1 ≤ m) (h : m ≤ n) :
    daysBeforeMonth y m ≤ daysBeforeMonth y n := by
  induction h with
  | refl => exact Nat.le_refl _
  | step h ih =>
    rw [daysBeforeMonth_succ y (Nat.le_trans hm h)]
    exact Nat.le_add_right_of_le ih

theorem Date.daysBeforeYear_le (d : Date) : daysBeforeYear d.year ≤ d.days := by
  have := d.day_pos
  unfold days
  omega

theorem Date.days_lt_month (d : Date) :
    d.days < daysBeforeYear d.year + daysBeforeMonth d.year (d.month + 1) := by
  have := d.day_le
  rw [daysBeforeMonth_succ _ d.month_pos, days]
  omega

theorem Date.days_lt_year (d : Date) : d.days < daysBeforeYear (d.year + 1) := by
  have hmonth := d.days_lt_month
  have hmono := daysBeforeMonth_mono d.year (Nat.le_add_left 1 d.month)
    (Nat.add_le_add_right d.month_le 1)
  have hyear : daysBeforeMonth d.year (12 + 1) = _ := daysBeforeMonth_thirteen d.year
  rw [daysBeforeYear_succ]
  split_ifs at hyear ⊢ <;> omega

theorem Date.Before.days_lt {d e : Date} (h : d.Before e) : d.days < e.days := by
  rcases h with hyear | ⟨hyear, hmonth | ⟨hmonth, hday⟩⟩
  · calc d.days < daysBeforeYear (d.year + 1) := d.days_lt_year
      _ ≤ daysBeforeYear e.year := daysBeforeYear_mono hyear
      _ ≤ e.days := e.daysBeforeYear_le
  · have hlt := d.days_lt_month
    have hmono := daysBeforeMonth_mono d.year (Nat.le_add_left 1 d.month) hmonth
    have hpos := e.day_pos
    rw [hyear] at hlt hmono
    unfold days at hlt ⊢
    omega
  · rw [days, days, hyear, hmonth]
    omega

theorem Date.before_trichotomy (d e : Date) : d.Before e ∨ d = e ∨ e.Before d := by
  rcases Int.lt_trichotomy d.year e.year with hyear | hyear | hyear
  · exact .inl (.inl hyear)
  · rcases Nat.lt_trichotomy d.month e.month with hmonth | hmonth | hmonth
    · exact .inl (.inr ⟨hyear, .inl hmonth⟩)
    · rcases Nat.lt_trichotomy d.day e.day with hday | hday | hday
      · exact .inl (.inr ⟨hyear, .inr ⟨hmonth, hday⟩⟩)
      · exact .inr (.inl (Date.ext hyear hmonth hday))
      · exact .inr (.inr (.inr ⟨hyear.symm, .inr ⟨hmonth.symm, hday⟩⟩))
    · exact .inr (.inr (.inr ⟨hyear.symm, .inl hmonth⟩))
  · exact .inr (.inr (.inl hyear))

/-- **Later dates have greater numbers.** -/
theorem Date.days_lt_iff {d e : Date} : d.days < e.days ↔ d.Before e := by
  constructor
  · intro h
    rcases d.before_trichotomy e with hbefore | rfl | hbefore
    · exact hbefore
    · exact absurd h (Int.lt_irrefl _)
    · exact absurd (Int.lt_trans h hbefore.days_lt) (Int.lt_irrefl _)
  · exact Before.days_lt

theorem Date.days_injective {d e : Date} (h : d.days = e.days) : d = e := by
  rcases d.before_trichotomy e with hbefore | heq | hbefore
  · exact absurd h (Int.ne_of_lt hbefore.days_lt)
  · exact heq
  · exact absurd h.symm (Int.ne_of_lt hbefore.days_lt)

/-! ### The date with a number -/

/-- The year of an era in which a day is. -/
def yearOfEra (doe : ℕ) : ℕ := (doe - doe / 1460 + doe / 36524 - doe / 146096) / 365

/-- The day of a year that begins in March. -/
def dayOfYear (doe : ℕ) : ℕ :=
  doe - (365 * yearOfEra doe + yearOfEra doe / 4 - yearOfEra doe / 100)

/-- The month of a day of a year that begins in March. -/
def monthOfYear (doy : ℕ) : ℕ := (5 * doy + 2) / 153

/-- A day of an era is in a century, four years of it, a year of these, and a day of the year. -/
structure Parts (doe century four year day : ℕ) : Prop where
  eq : doe = 36524 * century + 1461 * four + 365 * year + day
  century_le : century ≤ 3
  four_le : four ≤ 24
  year_le : year ≤ 3
  day_le : day ≤ 365
  /-- Only a leap year has a day number 365. -/
  leap : day = 365 → year = 3 ∧ (four = 24 → century = 3)

theorem exists_parts {doe : ℕ} (h : doe < 146097) : ∃ c f y d, Parts doe c f y d := by
  obtain ⟨c, r, hc, hr, hrc, rfl⟩ : ∃ c r, c ≤ 3 ∧ r ≤ 36524 ∧ (r = 36524 → c = 3) ∧
      doe = 36524 * c + r := by
    by_cases hlast : doe = 146096
    · exact ⟨3, 36524, by omega⟩
    · exact ⟨doe / 36524, doe % 36524, by omega⟩
  obtain ⟨f, s, hf, hs, rfl⟩ : ∃ f s, f ≤ 24 ∧ s ≤ 1460 ∧ r = 1461 * f + s :=
    ⟨r / 1461, r % 1461, by omega⟩
  obtain ⟨y, d, hy, hd, hyd, rfl⟩ : ∃ y d, y ≤ 3 ∧ d ≤ 365 ∧ (d = 365 → y = 3) ∧
      s = 365 * y + d := by
    by_cases hlast : s = 1460
    · exact ⟨3, 365, by omega⟩
    · exact ⟨s / 365, s % 365, by omega⟩
  exact ⟨c, f, y, d, by omega, hc, hf, hy, hd, by omega⟩

namespace Parts

variable {doe c f y d : ℕ}

theorem yearOfEra_eq (h : Parts doe c f y d) : yearOfEra doe = 100 * c + 4 * f + y := by
  obtain ⟨rfl, hc, hf, hy, hd, hleap⟩ := h
  have hday : (36524 * c + 1461 * f + 365 * y + d) / 1460 =
      25 * c + f + (24 * c + f + 365 * y + d) / 1460 := by omega
  have hcentury : (36524 * c + 1461 * f + 365 * y + d) / 36524 =
      c + (36524 * c + 1461 * f + 365 * y + d) / 146096 := by
    have hlast : 1461 * f + 365 * y + d < 36524 ∨ c = 3 ∧ 1461 * f + 365 * y + d = 36524 := by omega
    rcases hlast with hlast | hlast <;> omega
  unfold yearOfEra
  omega

theorem dayOfYear_eq (h : Parts doe c f y d) : dayOfYear doe = d := by
  rw [dayOfYear, h.yearOfEra_eq]
  obtain ⟨rfl, hc, hf, hy, hd, hleap⟩ := h
  omega

end Parts

/-- The number of the last of February before a day of an era. -/
theorem daysBeforeYear_era {doe : ℕ} (h : doe < 146097) (era : ℤ) :
    daysBeforeYear (yearOfEra doe + era * 400 + 1) =
      era * 146097 + doe - dayOfYear doe - 719162 := by
  obtain ⟨c, f, y, d, hparts⟩ := exists_parts h
  rw [hparts.yearOfEra_eq, hparts.dayOfYear_eq, daysBeforeYear]
  obtain ⟨rfl, hc, hf, hy, hd, hleap⟩ := hparts
  omega

theorem dayOfYear_lt {doe : ℕ} (h : doe < 146097) : dayOfYear doe < 366 := by
  obtain ⟨c, f, y, d, hparts⟩ := exists_parts h
  rw [hparts.dayOfYear_eq]
  exact Nat.lt_succ_of_le hparts.day_le

/-- A year of an era that has a day number 365 ends with a leap day. -/
theorem isLeap_of_dayOfYear {doe : ℕ} (h : doe < 146097) (era : ℤ) (hday : dayOfYear doe = 365) :
    isLeap (yearOfEra doe + era * 400 + 1) = true := by
  obtain ⟨c, f, y, d, hparts⟩ := exists_parts h
  rw [hparts.dayOfYear_eq] at hday
  obtain ⟨rfl, hcentury⟩ := hparts.leap hday
  have hf := hparts.four_le
  rw [hparts.yearOfEra_eq, isLeap, decide_eq_true_eq]
  omega

/-- The lengths of the months from March to December. -/
theorem daysInMonth_march (y : ℤ) {m : ℕ} (h : m < 10) :
    daysInMonth y (m + 3) = (153 * (m + 1) + 2) / 5 - (153 * m + 2) / 5 := by
  interval_cases m <;> rfl

/-- The months from March to December. -/
theorem daysBeforeMonth_march (y : ℤ) {m : ℕ} (h : m < 10) :
    (daysBeforeMonth y (m + 3) : ℤ) = daysBeforeMonth y 13 - 306 + ((153 * m + 2) / 5 : ℕ) := by
  induction m with
  | zero =>
    rw [daysBeforeMonth_thirteen]
    simp only [daysBeforeMonth, daysInMonth]
    split_ifs <;> rfl
  | succ m ih =>
    have hlen := daysInMonth_march y (Nat.lt_of_succ_lt h)
    have hsucc : daysBeforeMonth y (m + 1 + 3) =
        daysBeforeMonth y (m + 3) + daysInMonth y (m + 3) := rfl
    have := ih (Nat.lt_of_succ_lt h)
    rw [hsucc]
    omega

/-! ### Dates of numbers -/

/-- The parts of the date with a number. -/
structure Fields where
  year : ℤ
  month : ℕ
  day : ℕ

/-- The parts are those of a date. -/
structure Fields.Valid (f : Fields) : Prop where
  month_pos : 1 ≤ f.month
  month_le : f.month ≤ 12
  day_pos : 1 ≤ f.day
  day_le : f.day ≤ daysInMonth f.year f.month

/-- The algorithm, for days from the first of March of the year 0. -/
def civil (z : ℤ) : Fields :=
  let doe := (z % 146097).toNat
  let doy := dayOfYear doe
  let mp := monthOfYear doy
  let m := if mp < 10 then mp + 3 else mp - 9
  { year := yearOfEra doe + z / 146097 * 400 + if m ≤ 2 then 1 else 0
    month := m
    day := doy - (153 * mp + 2) / 5 + 1 }

theorem daysBeforeYear_succ_eq (y : ℤ) :
    daysBeforeYear (y + 1) = daysBeforeYear y + daysBeforeMonth y 13 := by
  rw [daysBeforeYear_succ, daysBeforeMonth_thirteen]
  split_ifs <;> rfl

/-- The algorithm yields a date with the number. -/
theorem exists_date (z : ℤ) : ∃ date : Date, date.days = z - 719468 ∧
    civil z = ⟨date.year, date.month, date.day⟩ := by
  obtain ⟨doe, hdoe⟩ : ∃ doe : ℕ, (z % 146097).toNat = doe := ⟨_, rfl⟩
  have hlt : doe < 146097 := by omega
  have hday := dayOfYear_lt hlt
  have hyear := daysBeforeYear_era hlt (z / 146097)
  have hleap := isLeap_of_dayOfYear hlt (z / 146097)
  simp only [civil, hdoe]
  generalize hy : yearOfEra doe + z / 146097 * 400 = y at hyear hleap ⊢
  generalize dayOfYear doe = doy at hday hyear hleap ⊢
  obtain ⟨mp, hmp⟩ : ∃ mp, monthOfYear doy = mp := ⟨_, rfl⟩
  rw [hmp]
  unfold monthOfYear at hmp
  by_cases hmonth : mp < 10
  · have hlen := daysInMonth_march y hmonth
    have hbefore := daysBeforeMonth_march y hmonth
    have hsucc := daysBeforeYear_succ_eq y
    rw [if_pos hmonth, if_neg (by omega), Int.add_zero]
    refine ⟨⟨y, mp + 3, doy - (153 * mp + 2) / 5 + 1, by omega, by omega, by omega, by omega⟩,
      ?_, rfl⟩
    simp only [Date.days]
    omega
  · rw [if_neg hmonth, if_pos (by omega)]
    have hjanuary : daysBeforeMonth (y + 1) 1 = 0 ∧ daysInMonth (y + 1) 1 = 31 := ⟨rfl, rfl⟩
    have hfebruary : daysBeforeMonth (y + 1) 2 = 31 ∧ daysInMonth (y + 1) 2 =
      if isLeap (y + 1) then 29 else 28 := ⟨rfl, rfl⟩
    have hcases : mp = 10 ∨ mp = 11 := by omega
    rcases hcases with rfl | rfl
    · refine ⟨⟨y + 1, 1, doy - 306 + 1, by omega, by omega, by omega, by omega⟩, ?_, rfl⟩
      simp only [Date.days]
      omega
    · have hlast : doy - 337 + 1 ≤ daysInMonth (y + 1) 2 := by
        rw [hfebruary.2]
        split_ifs with hleapYear
        · omega
        · have : doy ≠ 365 := fun h => hleapYear (hleap h)
          omega
      refine ⟨⟨y + 1, 2, doy - 337 + 1, by omega, by omega, by omega, hlast⟩, ?_, rfl⟩
      simp only [Date.days]
      omega

theorem civil_valid (z : ℤ) : (civil z).Valid := by
  obtain ⟨d, -, h⟩ := exists_date z
  rw [h]
  exact ⟨d.month_pos, d.month_le, d.day_pos, d.day_le⟩

/-- The date with a number. -/
def ofDays (n : ℤ) : Date :=
  have h := civil_valid (n + 719468)
  ⟨(civil (n + 719468)).year, (civil (n + 719468)).month, (civil (n + 719468)).day, h.month_pos,
    h.month_le, h.day_pos, h.day_le⟩

/-- **Every number is that of a date.** -/
@[simp] theorem days_ofDays (n : ℤ) : (ofDays n).days = n := by
  obtain ⟨d, hd, h⟩ := exists_date (n + 719468)
  have heq : ofDays n = d := by
    apply Date.ext <;> simp only [ofDays, h]
  rw [heq, hd]
  omega

@[simp] theorem ofDays_days (d : Date) : ofDays d.days = d := Date.days_injective (days_ofDays _)

end Resolute.Gregorian
