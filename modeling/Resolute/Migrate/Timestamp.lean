import Resolute.Calendar.Gregorian
import Resolute.Migrate.Basic
import Resolute.Rust.Padded

/-!
# Timestamps of migrations

The name of a new migration begins with the UTC date and time of its creation, which
`format_yyyymmddhhmmss` computes from the seconds since 1970.  The arithmetic of its `u64`s and
`i64`s does not overflow for any number of seconds, and the text is the digits of one number
(`format_eq`).  An `Instant` is a date and a time of day; the text `Spells` the one with these
seconds, and increases with them (`format_spells_and_increases`).
-/

namespace Resolute.Migrate

open Gregorian (Date)
open Rust (padded paddedInt fixed)

/-! ### The source -/

/-- `format_yyyymmddhhmmss` -/
def formatYyyymmddhhmmss (secs : UInt64) : String :=
  let days : ℤ := (secs.toNat / 86400 : ℕ)
  let tod := secs.toNat % 86400
  let hour := tod / 3600
  let minute := tod % 3600 / 60
  let second := tod % 60
  let z := days + 719468
  let era := z / 146097
  let doe := (z - era * 146097).toNat
  let yoe := (doe - doe / 1460 + doe / 36524 - doe / 146096) / 365
  let y := yoe + era * 400
  let doy := doe - (365 * yoe + yoe / 4 - yoe / 100)
  let mp := (5 * doy + 2) / 153
  let d := doy - (153 * mp + 2) / 5 + 1
  let m := if mp < 10 then mp + 3 else mp - 9
  let year := y + if m ≤ 2 then 1 else 0
  String.ofList (paddedInt 4 year ++ padded 2 m ++ padded 2 d ++ padded 2 hour ++ padded 2 minute ++
    padded 2 second)

/-! ### Instants -/

/-- A date and a time of day. -/
structure Instant where
  date : Date
  hour : ℕ
  minute : ℕ
  second : ℕ
  hour_lt : hour < 24
  minute_lt : minute < 60
  second_lt : second < 60

namespace Instant

/-- The seconds since 1970. -/
def secs (i : Instant) : ℤ := i.date.days * 86400 + (i.hour * 3600 + i.minute * 60 + i.second : ℕ)

/-- The instant after a number of seconds since 1970. -/
def ofSecs (secs : ℕ) : Instant where
  date := Gregorian.ofDays (secs / 86400 : ℕ)
  hour := secs % 86400 / 3600
  minute := secs % 86400 % 3600 / 60
  second := secs % 86400 % 60
  hour_lt := by omega
  minute_lt := by omega
  second_lt := by omega

theorem secs_ofSecs (n : ℕ) : (ofSecs n).secs = n := by
  simp only [secs, ofSecs, Gregorian.days_ofDays]
  omega

/-- The parts of an instant one after another. -/
def text (i : Instant) : List Char :=
  paddedInt 4 i.date.year ++ padded 2 i.date.month ++ padded 2 i.date.day ++ padded 2 i.hour ++
    padded 2 i.minute ++ padded 2 i.second

/-- The digits of an instant as one number. -/
def key (i : Instant) : ℕ :=
  ((((i.date.year.toNat * 100 + i.date.month) * 100 + i.date.day) * 100 + i.hour) * 100 +
    i.minute) * 100 + i.second

end Instant

/-- The text is 14 digits, for the year, the month, the day, the hour, the minute and the second. -/
structure Spells (text : List Char) (i : Instant) : Prop where
  length : text.length = 14
  digits : ∀ c ∈ text, c.isDigit = true
  year : (Nat.ofDigitChars 10 (text.take 4) 0 : ℤ) = i.date.year
  month : Nat.ofDigitChars 10 ((text.drop 4).take 2) 0 = i.date.month
  day : Nat.ofDigitChars 10 ((text.drop 6).take 2) 0 = i.date.day
  hour : Nat.ofDigitChars 10 ((text.drop 8).take 2) 0 = i.hour
  minute : Nat.ofDigitChars 10 ((text.drop 10).take 2) 0 = i.minute
  second : Nat.ofDigitChars 10 ((text.drop 12).take 2) 0 = i.second

/-! ### The digits -/

/-- The text is that of an instant. -/
theorem format_eq_ofSecs (secs : UInt64) :
    formatYyyymmddhhmmss secs =
      String.ofList (Instant.ofSecs secs.toNat).text := by
  have hdoe (z : ℤ) : z - z / 146097 * 146097 = z % 146097 := by omega
  simp only [formatYyyymmddhhmmss, hdoe]
  rfl

namespace Instant

variable {i j : Instant}

/-- The years that have begun. -/
theorem year_lt_iff (i : Instant) (y : ℤ) :
    i.date.year < y ↔ i.secs < Gregorian.daysBeforeYear y * 86400 := by
  have hhour := i.hour_lt
  have hminute := i.minute_lt
  have hsecond := i.second_lt
  unfold secs
  constructor
  · intro h
    have hlt := i.date.days_lt_year
    have hmono := Gregorian.daysBeforeYear_mono (by omega : i.date.year + 1 ≤ y)
    omega
  · intro h
    by_contra hyear
    have hle := i.date.daysBeforeYear_le
    have hmono := Gregorian.daysBeforeYear_mono (by omega : y ≤ i.date.year)
    omega

theorem year_ge (n : ℕ) : 1970 ≤ (ofSecs n).date.year := by
  have hiff := (ofSecs n).year_lt_iff 1970
  rw [Gregorian.daysBeforeYear_1970, secs_ofSecs] at hiff
  omega

theorem day_lt (i : Instant) : i.date.day < 100 :=
  Nat.lt_of_le_of_lt (Nat.le_trans i.date.day_le (Gregorian.daysInMonth_le _ _)) (by decide)

theorem month_lt (i : Instant) : i.date.month < 100 :=
  Nat.lt_of_le_of_lt i.date.month_le (by decide)

/-- Later instants have greater digits. -/
theorem key_lt_key (hyear : 0 ≤ i.date.year) (h : i.secs < j.secs) : i.key < j.key := by
  have hday := i.day_lt
  have hmonth := i.month_lt
  have hhour := i.hour_lt
  have hminute := i.minute_lt
  have hsecond := i.second_lt
  have hminute' := j.minute_lt
  have hsecond' := j.second_lt
  have hdays : i.date.days < j.date.days ∨ i.date = j.date ∧
      i.hour * 3600 + i.minute * 60 + i.second < j.hour * 3600 + j.minute * 60 + j.second := by
    have hhour' := j.hour_lt
    unfold secs at h
    by_cases hlt : i.date.days < j.date.days
    · exact .inl hlt
    · exact .inr ⟨Gregorian.Date.days_injective (by omega), by omega⟩
  unfold key
  rcases hdays with hlt | ⟨heq, hlt⟩
  · rcases Gregorian.Date.days_lt_iff.mp hlt with hy | ⟨hy, hm | ⟨hm, hd⟩⟩
    · omega
    · rw [hy]
      omega
    · rw [hy, hm]
      omega
  · rw [heq]
    omega

theorem key_lt (hyear : i.date.year < 10000) : i.key < 10 ^ 14 := by
  have hday := i.day_lt
  have hmonth := i.month_lt
  have hhour := i.hour_lt
  have hminute := i.minute_lt
  have hsecond := i.second_lt
  unfold key
  omega

end Instant

/-- The digits of an instant are those of its parts. -/
theorem Instant.fixed_key (i : Instant) : fixed 14 i.key =
    fixed 4 i.date.year.toNat ++ fixed 2 i.date.month ++ fixed 2 i.date.day ++ fixed 2 i.hour ++
      fixed 2 i.minute ++ fixed 2 i.second := by
  have hhour := Nat.lt_trans i.hour_lt (by decide : 24 < 100)
  have hminute := Nat.lt_trans i.minute_lt (by decide : 60 < 100)
  have hsecond := Nat.lt_trans i.second_lt (by decide : 60 < 100)
  rw [Rust.fixed_append _ _ _ i.month_lt, Rust.fixed_append _ _ _ i.day_lt,
    Rust.fixed_append _ _ _ hhour, Rust.fixed_append _ _ _ hminute,
    Rust.fixed_append _ _ _ hsecond]
  rfl

/-- Two digits. -/
theorem padded_two {n : ℕ} (h : n < 100) : padded 2 n = fixed 2 n := Rust.padded_eq_fixed h

theorem Instant.text_eq {i : Instant} (h : 0 ≤ i.date.year) :
    i.text = padded 4 i.date.year.toNat ++ fixed 2 i.date.month ++ fixed 2 i.date.day ++
      fixed 2 i.hour ++ fixed 2 i.minute ++ fixed 2 i.second := by
  rw [text, paddedInt, if_neg (by omega), show i.date.year.natAbs = i.date.year.toNat by omega,
    padded_two i.month_lt, padded_two i.day_lt, padded_two (Nat.lt_trans i.hour_lt (by decide)),
    padded_two (Nat.lt_trans i.minute_lt (by decide)),
    padded_two (Nat.lt_trans i.second_lt (by decide))]

/-- **The text** is the digits of one number. -/
theorem format_eq {secs : UInt64}
    (h : (secs.toNat : ℤ) < Gregorian.daysBeforeYear 10000 * 86400) :
    formatYyyymmddhhmmss secs = String.ofList (fixed 14 (Instant.ofSecs secs.toNat).key) := by
  have hsecs := Instant.secs_ofSecs secs.toNat
  have hlow := Instant.year_ge secs.toNat
  rw [format_eq_ofSecs]
  generalize Instant.ofSecs secs.toNat = i at hsecs hlow ⊢
  have hhigh := (i.year_lt_iff 10000).mpr (by omega)
  have hyear : padded 4 i.date.year.toNat = fixed 4 i.date.year.toNat :=
    Rust.padded_eq_fixed (by omega)
  rw [i.fixed_key, Instant.text_eq (by omega), hyear]

/-! ### What the text says -/

theorem Instant.spells_key {i : Instant} (h₀ : 0 ≤ i.date.year) (h₁ : i.date.year < 10000) :
    Spells (fixed 14 i.key) i := by
  have hday := i.day_lt
  have hmonth := i.month_lt
  have hhour := i.hour_lt
  have hminute := i.minute_lt
  have hsecond := i.second_lt
  refine ⟨Rust.length_fixed 14 _, fun _ => Rust.isDigit_fixed, ?_,
    (Rust.ofDigitChars_part 4 2 8 i.key).trans ?_, (Rust.ofDigitChars_part 6 2 6 i.key).trans ?_,
    (Rust.ofDigitChars_part 8 2 4 i.key).trans ?_, (Rust.ofDigitChars_part 10 2 2 i.key).trans ?_,
    (Rust.ofDigitChars_part 12 2 0 i.key).trans ?_⟩
  · have hyear := Rust.ofDigitChars_part 0 4 10 i.key
    rw [List.drop_zero] at hyear
    rw [hyear, key]
    omega
  all_goals
    rw [key]
    omega

theorem foldl_eq_ofDigitChars (cs : List Char) (n : ℕ) :
    cs.foldl (fun (n : ℤ) c => 10 * n + (c.toNat - '0'.toNat : ℕ)) n =
      (Nat.ofDigitChars 10 cs n : ℤ) := by
  induction cs generalizing n with
  | nil => rfl
  | cons c cs ih =>
    rw [List.foldl_cons, Nat.ofDigitChars_cons, ← ih]
    rfl

/-- Digits are parsed as the number that they stand for, if there is an `i64` for it. -/
theorem parseI64_digits {cs : List Char} (hne : cs ≠ [])
    (hdigits : ∀ c ∈ cs, c.isDigit = true) :
    parseI64 cs = if Nat.ofDigitChars 10 cs 0 < 9223372036854775808 then
        some (Nat.ofDigitChars 10 cs 0 : ℤ)
      else none := by
  have hfold := foldl_eq_ofDigitChars cs 0
  have hsign : ∀ c rest, cs = c :: rest → c.isDigit = true := by
    rintro c rest rfl
    exact hdigits c List.mem_cons_self
  unfold parseI64
  split
  rename_i negative digits hsplit
  split at hsplit
  · exact absurd (hsign _ _ rfl) (by decide)
  · exact absurd (hsign _ _ rfl) (by decide)
  · obtain ⟨rfl, rfl⟩ := Prod.mk.inj hsplit
    simp only [Bool.false_eq_true, if_false]
    rw [← Nat.cast_zero, hfold]
    split_ifs with hparsed hmax hmax
    · rfl
    · omega
    · exact absurd ⟨hne, List.all_eq_true.mpr hdigits, by omega, by omega⟩ hparsed
    · rfl

/-- A number of 14 digits is parsed as it. -/
theorem parseI64_fixed {n : ℕ} (hn : n < 10 ^ 14) : parseI64 (fixed 14 n) = some (n : ℤ) := by
  have hvalue : Nat.ofDigitChars 10 (fixed 14 n) 0 = n := by
    rw [Rust.ofDigitChars_fixed, Nat.mod_eq_of_lt hn]
  have hne : fixed 14 n ≠ [] := by
    rw [← List.length_pos_iff, Rust.length_fixed]
    decide
  rw [parseI64_digits hne fun _ => Rust.isDigit_fixed, hvalue, if_pos (by omega)]

/-- **Migration timestamps are calendar dates.**  Up to the end of the year 9999, the text spells
the date and the time of the instant, and it increases with the seconds, as a text and as the
version that is parsed. -/
theorem format_spells_and_increases {secs : UInt64}
    (h : (secs.toNat : ℤ) < Gregorian.daysBeforeYear 10000 * 86400) :
    (∃ i : Instant, i.secs = secs.toNat ∧ Spells (formatYyyymmddhhmmss secs).toList i) ∧
      ∀ later : UInt64, (later.toNat : ℤ) < Gregorian.daysBeforeYear 10000 * 86400 → secs < later →
        formatYyyymmddhhmmss secs < formatYyyymmddhhmmss later ∧
          ∃ v w, parseI64 (formatYyyymmddhhmmss secs).toList = some v ∧
            parseI64 (formatYyyymmddhhmmss later).toList = some w ∧ v < w := by
  have hsecs := Instant.secs_ofSecs secs.toNat
  have hlow := Instant.year_ge secs.toNat
  have hhigh := ((Instant.ofSecs secs.toNat).year_lt_iff 10000).mpr (by rw [hsecs]; exact h)
  rw [format_eq h, String.toList_ofList]
  refine ⟨⟨_, hsecs, Instant.spells_key (by omega) hhigh⟩, fun later hlater hlt => ?_⟩
  have hsecs' := Instant.secs_ofSecs later.toNat
  have hhigh' := ((Instant.ofSecs later.toNat).year_lt_iff 10000).mpr (by rw [hsecs']; exact hlater)
  have hkey : (Instant.ofSecs secs.toNat).key < (Instant.ofSecs later.toNat).key := by
    apply Instant.key_lt_key (by omega)
    rw [hsecs, hsecs']
    exact Int.ofNat_lt.mpr (UInt64.lt_iff_toNat_lt.mp hlt)
  rw [format_eq hlater, String.toList_ofList]
  refine ⟨?_, _, _, parseI64_fixed (Instant.key_lt hhigh),
    parseI64_fixed (Instant.key_lt hhigh'), Int.ofNat_lt.mpr hkey⟩
  rw [String.lt_iff, String.toList_ofList, String.toList_ofList]
  exact Rust.fixed_lt_fixed (Instant.key_lt hhigh') hkey

/-- The last second of 2023, and the first of 2024. -/
theorem format_newYear :
    (∃ i : Instant, i.secs = (1704067199 : UInt64).toNat ∧
      Spells (formatYyyymmddhhmmss 1704067199).toList i) ∧
      formatYyyymmddhhmmss 1704067199 < formatYyyymmddhhmmss 1704067200 :=
  have h := @format_spells_and_increases 1704067199 (by decide)
  ⟨h.1, (h.2 1704067200 (by decide) (by decide)).1⟩

example : formatYyyymmddhhmmss 1582934400 = "20200229000000" := by decide

end Resolute.Migrate
