import Resolute.Calendar.Gregorian
import Resolute.Codec.RoundTrip
import Resolute.Js.Number

/-!
# Dates of JavaScript

The codecs of `pg-wired-js` for timestamps and dates.  A timestamp goes from the milliseconds since
1970 of a `Date` to microseconds since 2000 as integers, and always comes back
(`decode_encodeTimestamptz`).  A date goes through `Date.UTC`, which takes the years 0 to 99 for
those from 1900 to 1999 (`dateUTC`), and comes back as what that makes of it (`decode_encodeDate`).
`temporal_roundTrips_iff` says for which times both come back.
-/

namespace Resolute.Js

/-! ### The platform -/

/-- What is thrown. -/
inductive Thrown where
  | typeError (message : String)
  | rangeError
  deriving DecidableEq, Repr

/-- The time of a valid `Date`: the milliseconds since 1970. -/
@[ext]
structure Time where
  ms : ℤ
  natAbs_le : ms.natAbs ≤ 8640000000000000
  deriving DecidableEq

/-- What is given for a parameter; a `Date` that is not valid has no time. -/
inductive Value where
  | date (time : Option Time)
  | other

/-- `ToIntegerOrInfinity`, of a number that is finite. -/
def truncate (v : ℚ) : ℤ := if 0 ≤ v then ⌊v⌋ else ⌈v⌉

theorem natAbs_truncate_le {v : ℚ} (h : |v| ≤ 8640000000000000) :
    (truncate v).natAbs ≤ 8640000000000000 := by
  obtain ⟨hlow, hhigh⟩ := abs_le.mp h
  have hbounds : (-8640000000000000 : ℤ) ≤ truncate v ∧ truncate v ≤ 8640000000000000 := by
    unfold truncate
    split_ifs
    · exact ⟨Int.le_floor.mpr (by exact_mod_cast hlow), Int.floor_le_iff.mpr (by
        push_cast
        linarith)⟩
    · exact ⟨Int.le_ceil_iff.mpr (by
        push_cast
        linarith), Int.ceil_le.mpr (by exact_mod_cast hhigh)⟩
  omega

/-- `TimeClip`: the time of `new Date(v)`. -/
def timeClip (v : ℚ) : Option Time :=
  if h : |v| ≤ 8640000000000000 then some ⟨truncate v, natAbs_truncate_le h⟩ else none

/-- The date in UTC. -/
def Time.date (t : Time) : Gregorian.Date := Gregorian.ofDays (t.ms / 86400000)

def Time.getUTCFullYear (t : Time) : ℤ := t.date.year

def Time.getUTCMonth (t : Time) : ℕ := t.date.month - 1

def Time.getUTCDate (t : Time) : ℕ := t.date.day

/-- `Date.UTC` of a year, a month from 0 on and a day. -/
def dateUTC (year : ℤ) (month day : ℕ) : Option Time :=
  let fullYear := if 0 ≤ year ∧ year ≤ 99 then 1900 + year else year
  let y := fullYear + (month / 12 : ℕ)
  let days := Gregorian.daysBeforeYear y + Gregorian.daysBeforeMonth y (month % 12 + 1) +
    ((day : ℤ) - 1)
  timeClip (toNumber (days * 86400000 : ℤ))

/-- `Buffer.writeBigInt64BE` -/
def writeBigInt64BE (n : ℤ) : Except Thrown Bytes :=
  if -9223372036854775808 ≤ n ∧ n ≤ 9223372036854775807 then
    .ok (u64Bytes (Int64.ofInt n).toUInt64)
  else .error .rangeError

/-- `Buffer.readBigInt64BE` -/
def readBigInt64BE (buf : Bytes) : Except Thrown ℤ :=
  if 8 ≤ buf.length then .ok (u64At buf 0).toInt64.toInt else .error .rangeError

/-- `Buffer.writeInt32BE`, which writes NaN as 0. -/
def writeInt32BE (n : Option ℤ) : Except Thrown Bytes :=
  if -2147483648 ≤ n.getD 0 ∧ n.getD 0 ≤ 2147483647 then .ok (i32Bytes (Int32.ofInt (n.getD 0)))
  else .error .rangeError

/-- `Buffer.readInt32BE` -/
def readInt32BE (buf : Bytes) : Except Thrown ℤ :=
  if 4 ≤ buf.length then .ok (i32At buf 0).toInt else .error .rangeError

/-! ### The codecs -/

/-- `PG_EPOCH_MS` -/
def pgEpochMs : ℤ := 946684800000

/-- `MS_PER_DAY` -/
def msPerDay : ℤ := 86400000

def encodeTimestamptz : Value → Except Thrown Bytes
  | .other => .error (.typeError "timestamptz param must be a Date")
  -- `BigInt(NaN)`
  | .date none => .error .rangeError
  | .date (some t) => writeBigInt64BE ((t.ms - pgEpochMs) * 1000)

def decodeTimestamptzBin (buf : Bytes) : Except Thrown (Option Time) := do
  let micros ← readBigInt64BE buf
  if micros = 9223372036854775807 then pure (timeClip 8640000000000000)
  else if micros = -9223372036854775808 then pure (timeClip (-8640000000000000))
  else pure (timeClip (toNumber (toNumber (micros.tdiv 1000 : ℤ) + pgEpochMs)))

def encodeDate : Value → Except Thrown Bytes
  | .other => .error (.typeError "date param must be a Date")
  | .date time => writeInt32BE do
    let t ← time
    let utc ← dateUTC t.getUTCFullYear t.getUTCMonth t.getUTCDate
    pure (mathRound (toNumber (toNumber (utc.ms - pgEpochMs : ℤ) / msPerDay)))

def decodeDateBin (buf : Bytes) : Except Thrown (Option Time) := do
  let days ← readInt32BE buf
  if days = 0x7fffffff then pure (timeClip 8640000000000000)
  else if days = -0x80000000 then pure (timeClip (-8640000000000000))
  else pure (timeClip (toNumber (pgEpochMs + toNumber (days * msPerDay : ℤ))))

/-- The beginning of the day in UTC. -/
def Time.midnight (t : Time) : Time where
  ms := t.ms / 86400000 * 86400000
  natAbs_le := by
    have := t.natAbs_le
    omega

/-- A `Date` comes back from a timestamp, and its day from a date. -/
structure RoundTrips (t : Time) : Prop where
  timestamptz : encodeTimestamptz (.date (some t)) >>= decodeTimestamptzBin = .ok (some t)
  date : encodeDate (.date (some t)) >>= decodeDateBin = .ok (some t.midnight)

/-! ### Bytes -/

theorem readBigInt64BE_u64Bytes {n : ℤ}
    (h : -9223372036854775808 ≤ n ∧ n ≤ 9223372036854775807) :
    readBigInt64BE (u64Bytes (Int64.ofInt n).toUInt64) = .ok n := by
  have hlen : (u64Bytes (Int64.ofInt n).toUInt64).length = 8 := rfl
  rw [readBigInt64BE, if_pos hlen.ge, u64At_u64Bytes, Int64.toInt64_toUInt64,
    Int64.toInt_ofInt_of_le h.1 (by omega)]

theorem readInt32BE_i32Bytes {n : ℤ} (h : -2147483648 ≤ n ∧ n ≤ 2147483647) :
    readInt32BE (i32Bytes (Int32.ofInt n)) = .ok n := by
  have hlen : (i32Bytes (Int32.ofInt n)).length = 4 := rfl
  have hread := u32At_zero (Int32.ofInt n).toUInt32 []
  rw [List.append_nil] at hread
  rw [readInt32BE, if_pos hlen.ge, i32At, i32Bytes, hread, Int32.toInt32_toUInt32,
    Int32.toInt_ofInt_of_le h.1 (by omega)]

/-! ### Timestamps -/

theorem truncate_intCast (n : ℤ) : truncate n = n := by
  unfold truncate
  split_ifs
  · exact Int.floor_intCast n
  · exact Int.ceil_intCast n

theorem timeClip_ms (t : Time) : timeClip t.ms = some t := by
  have hle : |(t.ms : ℚ)| ≤ 8640000000000000 := by
    have habs := t.natAbs_le
    rw [← Int.cast_abs, Int.abs_eq_natAbs]
    exact_mod_cast habs
  rw [timeClip, dif_pos hle]
  congr
  exact truncate_intCast t.ms

/-- **Timestamps come back.** -/
theorem decode_encodeTimestamptz (t : Time) :
    encodeTimestamptz (.date (some t)) >>= decodeTimestamptzBin = .ok (some t) := by
  have hms := t.natAbs_le
  have hrange : -9223372036854775808 ≤ (t.ms - pgEpochMs) * 1000 ∧
      (t.ms - pgEpochMs) * 1000 ≤ 9223372036854775807 := by
    unfold pgEpochMs
    omega
  have hdiv : ((t.ms - pgEpochMs) * 1000).tdiv 1000 = t.ms - pgEpochMs :=
    Int.mul_tdiv_cancel _ (by decide)
  have hexact : toNumber (toNumber (t.ms - pgEpochMs : ℤ) + pgEpochMs) = t.ms := by
    rw [toNumber_intCast (by unfold pgEpochMs; omega), ← Int.cast_add, Int.sub_add_cancel,
      toNumber_intCast (by omega)]
  rw [encodeTimestamptz, writeBigInt64BE, if_pos hrange, ok_bind, decodeTimestamptzBin,
    readBigInt64BE_u64Bytes hrange, ok_bind, if_neg (by unfold pgEpochMs; omega),
    if_neg (by unfold pgEpochMs; omega), hdiv, hexact, timeClip_ms]
  rfl

/-! ### Dates -/

/-- A day in UTC comes back as it is, if its number and its time are that of one `Date`. -/
theorem decode_encodeDate {t utc : Time}
    (hutc : dateUTC t.getUTCFullYear t.getUTCMonth t.getUTCDate = some utc)
    (hday : utc.ms % msPerDay = 0) :
    encodeDate (.date (some t)) >>= decodeDateBin = .ok (some utc) := by
  have hms := utc.natAbs_le
  obtain ⟨days, hdays⟩ : ∃ days : ℤ, utc.ms - pgEpochMs = days * msPerDay :=
    ⟨(utc.ms - pgEpochMs) / msPerDay, by unfold pgEpochMs msPerDay at *; omega⟩
  have hrange : -2147483648 < days ∧ days < 2147483647 := by
    unfold pgEpochMs msPerDay at hdays
    omega
  have hround : mathRound (toNumber (toNumber (utc.ms - pgEpochMs : ℤ) / msPerDay)) = days := by
    rw [toNumber_intCast (by unfold pgEpochMs; omega), hdays, Int.cast_mul,
      mul_div_cancel_right₀ _ (by norm_num [msPerDay]), toNumber_intCast (by omega),
      mathRound_intCast]
  have hexact : toNumber (pgEpochMs + toNumber (days * msPerDay : ℤ)) = utc.ms := by
    rw [← hdays, toNumber_intCast (by unfold pgEpochMs; omega), ← Int.cast_add,
      add_sub_cancel, toNumber_intCast (by omega)]
  have hi32 : -2147483648 ≤ days ∧ days ≤ 2147483647 := ⟨hrange.1.le, hrange.2.le⟩
  have hencode : encodeDate (.date (some t)) = .ok (i32Bytes (Int32.ofInt days)) := by
    simp only [encodeDate, hutc, bind, Option.bind, pure, hround, writeInt32BE, Option.getD_some]
    exact if_pos hi32
  rw [hencode, ok_bind, decodeDateBin, readInt32BE_i32Bytes hi32, ok_bind, if_neg (by omega),
    if_neg (by omega), hexact, timeClip_ms]
  rfl

theorem dateUTC_of_days {year : ℤ} {month day : ℕ} {t : Time} {y : ℤ}
    (hy : (if 0 ≤ year ∧ year ≤ 99 then 1900 + year else year) = y) (hpos : 1 ≤ month)
    (hle : month ≤ 12) (h : (Gregorian.daysBeforeYear y + Gregorian.daysBeforeMonth y month +
      ((day : ℤ) - 1)) * 86400000 = t.ms) : dateUTC year (month - 1) day = some t := by
  have hms := t.natAbs_le
  have hdiv : (month - 1) / 12 = 0 := by omega
  have hmod : (month - 1) % 12 + 1 = month := by omega
  rw [dateUTC]
  simp only [hdiv, hmod, hy, Nat.cast_zero, add_zero, h]
  rw [toNumber_intCast (by omega), timeClip_ms]

/-- The beginning of the day. -/
theorem dateUTC_of_not {t : Time} (h : ¬(0 ≤ t.getUTCFullYear ∧ t.getUTCFullYear ≤ 99)) :
    dateUTC t.getUTCFullYear t.getUTCMonth t.getUTCDate = some t.midnight := by
  have hdays : t.date.days = t.ms / 86400000 := Gregorian.days_ofDays _
  exact dateUTC_of_days (if_neg h) t.date.month_pos t.date.month_le
    (congrArg (· * 86400000) hdays)

/-- A day of the twentieth century. -/
theorem dateUTC_of_century {t : Time} (h : 0 ≤ t.getUTCFullYear ∧ t.getUTCFullYear ≤ 99) :
    ∃ utc : Time, dateUTC t.getUTCFullYear t.getUTCMonth t.getUTCDate = some utc ∧
      utc.ms % msPerDay = 0 ∧ t.midnight.ms < utc.ms := by
  obtain ⟨n, hn⟩ : ∃ n : ℤ, Gregorian.daysBeforeYear (1900 + t.getUTCFullYear) +
      Gregorian.daysBeforeMonth (1900 + t.getUTCFullYear) t.date.month +
        ((t.date.day : ℤ) - 1) = n := ⟨_, rfl⟩
  have hdays : t.date.days = t.ms / 86400000 := Gregorian.days_ofDays _
  have hlt := t.date.days_lt_year
  have hday := t.date.day_pos
  have hdayLe := Nat.le_trans t.date.day_le (Gregorian.daysInMonth_le _ _)
  have hmonth := Gregorian.daysBeforeMonth_mono (1900 + t.getUTCFullYear) t.date.month_pos
    (Nat.le_trans t.date.month_le (by decide : 12 ≤ 13))
  rw [Gregorian.daysBeforeMonth_thirteen] at hmonth
  have hyears : t.getUTCFullYear = t.date.year := rfl
  have hbounds : t.ms / 86400000 < n ∧ n < 1000000 := by
    simp only [Gregorian.daysBeforeYear] at hlt hn
    split_ifs at hmonth <;> omega
  have hlow := t.natAbs_le
  refine ⟨⟨n * 86400000, by omega⟩, ?_, ?_, ?_⟩
  · exact dateUTC_of_days (if_pos h) t.date.month_pos t.date.month_le
      (congrArg (· * 86400000) hn)
  · exact Int.mul_emod_left n msPerDay
  · simp only [Time.midnight]
    omega

theorem not_roundTrips_of_century {t : Time}
    (h : 0 ≤ t.getUTCFullYear ∧ t.getUTCFullYear ≤ 99) : ¬RoundTrips t := by
  intro hround
  obtain ⟨utc, hutc, hday, hlt⟩ := dateUTC_of_century h
  have hdate := hround.date
  rw [decode_encodeDate hutc hday] at hdate
  simp only [Except.ok.injEq, Option.some.injEq] at hdate
  exact absurd hlt (hdate ▸ lt_irrefl _)

/-- **When both come back**: timestamps always do, and dates outside of the years 0 to 99. -/
theorem temporal_roundTrips_iff (t : Time) :
    RoundTrips t ↔ ¬(0 ≤ t.getUTCFullYear ∧ t.getUTCFullYear ≤ 99) := by
  constructor
  · exact fun hround hcentury => not_roundTrips_of_century hcentury hround
  · intro hyear
    refine ⟨decode_encodeTimestamptz t, decode_encodeDate (dateUTC_of_not hyear) ?_⟩
    simp only [Time.midnight, msPerDay]
    omega

/-- The instants that PostgreSQL has: from its first Julian day, in November of 4714 BC, to the end
of the year 294276. -/
def Representable (t : Time) : Prop := -210866803200000 ≤ t.ms ∧ t.ms < 9224318016000000

/-- The fifteenth of March in the year 44. -/
def ides : Time := ⟨-60772291200000, by decide⟩

theorem ides_lost : Representable ides ∧ ¬RoundTrips ides :=
  ⟨⟨by decide, by decide⟩, not_roundTrips_of_century (by decide)⟩

/-- It comes back as that of 1944. -/
example : encodeDate (.date (some ides)) >>= decodeDateBin =
    .ok (some ⟨-814147200000, by decide⟩) := by
  decide +kernel

end Resolute.Js
