import Resolute.Codec.RoundTrip

/-!
# Dates and times of chrono

The binary codecs of `NaiveDateTime`, `DateTime<Utc>`, `NaiveDate` and `NaiveTime`.  The wire has
microseconds or days since 2000, or microseconds since midnight.  The decoders shift the epoch with
an addition that can overflow, and give the seconds of a time to chrono as a `u32`, to which they
are cast.

Of chrono, which is not part of this repository, the functions that are used are parameters, with
what it documents about them (`Chrono`).  A codec is `Exact` at a wire value that is refused, or
decoded to a value that is encoded as it.  Dates always are (`exact_naiveDate`); the timestamps and
the times for which they are exact are those of `exact_naiveDateTime_iff`, `exact_dateTime_iff` and
`exact_naiveTime_iff`.
-/

namespace Resolute

/-- What the codecs use of chrono. -/
structure Chrono where
  DateTime : Type
  NaiveDateTime : Type
  NaiveDate : Type
  NaiveTime : Type
  /-- `DateTime::from_timestamp_micros`. -/
  fromTimestampMicros : Int64 → Option DateTime
  /-- `DateTime::timestamp_micros`. -/
  timestampMicros : DateTime → Int64
  naiveUtc : DateTime → NaiveDateTime
  andUtc : NaiveDateTime → DateTime
  /-- `NaiveDate::from_ymd_opt(2000, 1, 1).unwrap()`. -/
  pgEpoch : NaiveDate
  /-- `date.checked_add_signed(Duration::days(n))`. -/
  addDays : NaiveDate → ℤ → Option NaiveDate
  /-- `(date - other).num_days()`. -/
  numDays : NaiveDate → NaiveDate → Int64
  /-- `NaiveTime::from_num_seconds_from_midnight_opt`. -/
  fromMidnight : (secs nano : UInt32) → Option NaiveTime
  /-- `time.signed_duration_since(midnight).num_microseconds()`. -/
  numMicroseconds : NaiveTime → Option Int64
  timestampMicros_eq {m dt} (h : fromTimestampMicros m = some dt) : timestampMicros dt = m
  andUtc_naiveUtc (dt : DateTime) : andUtc (naiveUtc dt) = dt
  numDays_eq {d n d'} (h : addDays d n = some d') : (numDays d' d).toInt = n
  /-- The nanoseconds are below those of a second, or of two in the second of a leap second. -/
  fromMidnight_isSome (secs nano) : (fromMidnight secs nano).isSome = true ↔
    secs.toNat < 86400 ∧ (nano.toNat < 1000000000 ∨
      nano.toNat < 2000000000 ∧ secs.toNat % 60 = 59)
  numMicroseconds_eq {secs nano t} (h : fromMidnight secs nano = some t) :
    numMicroseconds t =
      some (Int64.ofNat (secs.toNat * 1000000 + nano.toNat / 1000))

/-- The result of an operation on `i64`s. -/
def checkI64 (n : ℤ) : Decoded Int64 :=
  if -9223372036854775808 ≤ n ∧ n ≤ 9223372036854775807 then .ok (Int64.ofInt n)
  else .panic .overflow

/-- `n as u32`. -/
def asU32 (n : ℤ) : UInt32 := UInt32.ofNat (n % 4294967296).toNat

/-- The bytes of an `i64`. -/
def i64Bytes (n : Int64) : Bytes := Scalar.i64.bytes n

/-- Offset of the PostgreSQL epoch from the Unix epoch in microseconds. -/
def pgEpochOffsetUs : ℤ := 946684800000000

/-- `PG_TIMESTAMP_INFINITY`. -/
def pgTimestampInfinity : Int64 := Int64.maxValue

/-- `PG_TIMESTAMP_NEG_INFINITY`. -/
def pgTimestampNegInfinity : Int64 := Int64.minValue

/-- `PG_DATE_INFINITY`. -/
def pgDateInfinity : Int32 := Int32.maxValue

/-- `PG_DATE_NEG_INFINITY`. -/
def pgDateNegInfinity : Int32 := Int32.minValue

namespace Chrono

variable (C : Chrono)

/-- `NaiveDateTime::decode`. -/
def decodeNaiveDateTime (buf : Bytes) : Decoded C.NaiveDateTime := do
  let us : Int64 ← Scalar.i64.decode buf
  if us = pgTimestampInfinity then
    .err 0 "NaiveDateTime: 'infinity' cannot be represented by chrono (use PgTimestamp instead)"
  else if us = pgTimestampNegInfinity then
    .err 0 "NaiveDateTime: '-infinity' cannot be represented by chrono (use PgTimestamp instead)"
  else
    let unixUs ← checkI64 (us.toInt + pgEpochOffsetUs)
    match C.fromTimestampMicros unixUs with
    | some dt => .ok (C.naiveUtc dt)
    | none => .err 0 s!"NaiveDateTime: invalid microseconds {us}"

/-- `NaiveDateTime::encode`. -/
def encodeNaiveDateTime (v : C.NaiveDateTime) (buf : Bytes) : Decoded Bytes := do
  let us ← checkI64 ((C.timestampMicros (C.andUtc v)).toInt - pgEpochOffsetUs)
  return buf ++ i64Bytes us

/-- `DateTime::<Utc>::decode`. -/
def decodeDateTime (buf : Bytes) : Decoded C.DateTime := do
  let us : Int64 ← Scalar.i64.decode buf
  if us = pgTimestampInfinity ∨ us = pgTimestampNegInfinity then
    .err 0 "DateTime<Utc>: infinity cannot be represented by chrono (use PgTimestamp instead)"
  else
    let unixUs ← checkI64 (us.toInt + pgEpochOffsetUs)
    match C.fromTimestampMicros unixUs with
    | some dt => .ok dt
    | none => .err 0 s!"DateTime<Utc>: invalid microseconds {us}"

/-- `DateTime::<Utc>::encode`. -/
def encodeDateTime (v : C.DateTime) (buf : Bytes) : Decoded Bytes := do
  let us ← checkI64 ((C.timestampMicros v).toInt - pgEpochOffsetUs)
  return buf ++ i64Bytes us

/-- `NaiveDate::decode`. -/
def decodeNaiveDate (buf : Bytes) : Decoded C.NaiveDate := do
  let days : Int32 ← Scalar.i32.decode buf
  if days = pgDateInfinity ∨ days = pgDateNegInfinity then
    .err 0 "NaiveDate: infinity cannot be represented by chrono (use PgDate instead)"
  else
    match C.addDays C.pgEpoch days.toInt with
    | some date => .ok date
    | none => .err 0 s!"NaiveDate: invalid days offset {days}"

/-- `NaiveDate::encode`. -/
def encodeNaiveDate (v : C.NaiveDate) (buf : Bytes) : Decoded Bytes :=
  .ok (buf ++ Scalar.i32.bytes (C.numDays v C.pgEpoch).toInt32)

/-- `NaiveTime::decode`. -/
def decodeNaiveTime (buf : Bytes) : Decoded C.NaiveTime := do
  let us : Int64 ← Scalar.i64.decode buf
  let secs := asU32 (us.toInt.tdiv 1000000)
  let nano ← checkI64 (us.toInt.tmod 1000000 * 1000)
  match C.fromMidnight secs (asU32 nano.toInt) with
  | some t => .ok t
  | none => .err 0 s!"NaiveTime: invalid microseconds {us}"

/-- `NaiveTime::encode`. -/
def encodeNaiveTime (v : C.NaiveTime) (buf : Bytes) : Decoded Bytes :=
  .ok (buf ++ i64Bytes ((C.numMicroseconds v).getD 0))

end Chrono

/-- A decoder is exact for a wire value: it returns, and what it accepts is encoded as the value. -/
def Exact {α : Type} (decode : Bytes → Decoded α) (encode : α → Bytes → Decoded Bytes)
    (wire : Bytes) : Prop :=
  (decode wire).Returns ∧ ∀ v, decode wire = .ok v → encode v [] = .ok wire

/-! ### Integers -/

theorem decode_i64Bytes (us : Int64) : Scalar.i64.decode (i64Bytes us) = .ok us :=
  Scalar.decode_bytes .i64 us

theorem i64Bytes_inj {m n : Int64} (h : i64Bytes m = i64Bytes n) : m = n := by
  have hm := decode_i64Bytes m
  rw [h, decode_i64Bytes] at hm
  exact (Except.ok.inj hm).symm

theorem checkI64_toInt (n : Int64) : checkI64 n.toInt = .ok n := by
  have hlow := n.le_toInt
  have hhigh := n.toInt_lt
  rw [checkI64, if_pos ⟨by omega, by omega⟩, Int64.ofInt_toInt]

theorem checkI64_of_le {n : ℤ} (hlow : -9223372036854775808 ≤ n)
    (hhigh : n ≤ 9223372036854775807) : ∃ m : Int64, checkI64 n = .ok m ∧ m.toInt = n :=
  ⟨Int64.ofInt n, if_pos ⟨hlow, hhigh⟩,
    Int64.toInt_ofInt_of_le (by omega) (by omega)⟩

theorem checkI64_overflow {n : ℤ} (h : 9223372036854775807 < n) :
    checkI64 n = .panic .overflow := by
  rw [checkI64, if_neg (by omega)]

theorem exact_of_err {α : Type} {decode : Bytes → Decoded α}
    {encode : α → Bytes → Decoded Bytes} {wire : Bytes} {column : ℕ} {message : String}
    (h : decode wire = .err column message) : Exact decode encode wire := by
  refine ⟨fun p hp => ?_, fun v hv => ?_⟩
  · rw [h] at hp
    cases hp
  · rw [h] at hv
    cases hv

namespace Chrono

variable (C : Chrono)

/-! ### Decoders on a wire value -/

theorem decodeNaiveDateTime_eq (us : Int64) : C.decodeNaiveDateTime (i64Bytes us) =
    if us = pgTimestampInfinity then
      .err 0 "NaiveDateTime: 'infinity' cannot be represented by chrono (use PgTimestamp instead)"
    else if us = pgTimestampNegInfinity then
      .err 0 "NaiveDateTime: '-infinity' cannot be represented by chrono (use PgTimestamp instead)"
    else checkI64 (us.toInt + pgEpochOffsetUs) >>= fun unixUs =>
      match C.fromTimestampMicros unixUs with
      | some dt => .ok (C.naiveUtc dt)
      | none => .err 0 s!"NaiveDateTime: invalid microseconds {us}" := by
  rw [decodeNaiveDateTime, decode_i64Bytes]
  rfl

theorem decodeDateTime_eq (us : Int64) : C.decodeDateTime (i64Bytes us) =
    if us = pgTimestampInfinity ∨ us = pgTimestampNegInfinity then
      .err 0 "DateTime<Utc>: infinity cannot be represented by chrono (use PgTimestamp instead)"
    else checkI64 (us.toInt + pgEpochOffsetUs) >>= fun unixUs =>
      match C.fromTimestampMicros unixUs with
      | some dt => .ok dt
      | none => .err 0 s!"DateTime<Utc>: invalid microseconds {us}" := by
  rw [decodeDateTime, decode_i64Bytes]
  rfl

theorem decodeNaiveDate_eq (days : Int32) : C.decodeNaiveDate (Scalar.i32.bytes days) =
    if days = pgDateInfinity ∨ days = pgDateNegInfinity then
      .err 0 "NaiveDate: infinity cannot be represented by chrono (use PgDate instead)"
    else
      match C.addDays C.pgEpoch days.toInt with
      | some date => .ok date
      | none => .err 0 s!"NaiveDate: invalid days offset {days}" := by
  rw [decodeNaiveDate, Scalar.decode_bytes .i32 days]
  rfl

/-- The product of the source does not overflow. -/
theorem decodeNaiveTime_eq (us : Int64) : C.decodeNaiveTime (i64Bytes us) =
    match C.fromMidnight (asU32 (us.toInt.tdiv 1000000)) (asU32 (us.toInt.tmod 1000000 * 1000)) with
    | some t => .ok t
    | none => .err 0 s!"NaiveTime: invalid microseconds {us}" := by
  have hlow := Int.lt_tmod_of_pos us.toInt (show (0 : ℤ) < 1000000 by decide)
  have hhigh := Int.tmod_lt_of_pos us.toInt (show (0 : ℤ) < 1000000 by decide)
  obtain ⟨nano, hcheck, hnano⟩ :=
    checkI64_of_le (n := us.toInt.tmod 1000000 * 1000) (by omega) (by omega)
  rw [decodeNaiveTime, decode_i64Bytes, ← hnano]
  change (checkI64 (us.toInt.tmod 1000000 * 1000) >>= _) = _
  rw [hcheck]
  rfl

/-! ### Timestamps -/

/-- Away from the infinities, a timestamp goes through unless shifting its epoch overflows. -/
theorem exact_shifted_iff {α : Type} {decode : Bytes → Decoded α}
    {encode : α → Bytes → Decoded Bytes} {value : C.DateTime → α} {us : Int64}
    {message : String}
    (hdecode : decode (i64Bytes us) =
      checkI64 (us.toInt + pgEpochOffsetUs) >>= fun unixUs =>
        match C.fromTimestampMicros unixUs with
        | some dt => .ok (value dt)
        | none => .err 0 message)
    (hencode : ∀ dt buf, encode (value dt) buf = C.encodeDateTime dt buf) :
    Exact decode encode (i64Bytes us) ↔ us.toInt + pgEpochOffsetUs ≤ 9223372036854775807 := by
  constructor
  · intro h
    by_contra hover
    rw [checkI64_overflow (Int.not_le.mp hover)] at hdecode
    exact h.1 .overflow hdecode
  · intro hle
    have hlow := us.le_toInt
    have hoff : pgEpochOffsetUs = 946684800000000 := rfl
    obtain ⟨unixUs, hcheck, hunix⟩ := checkI64_of_le (by omega) hle
    rw [hcheck, ok_bind] at hdecode
    cases hdt : C.fromTimestampMicros unixUs with
    | none =>
      rw [hdt] at hdecode
      exact exact_of_err hdecode
    | some dt =>
      rw [hdt] at hdecode
      refine ⟨fun p hp => ?_, fun v hv => ?_⟩
      · rw [hdecode] at hp
        cases hp
      · rw [hdecode] at hv
        obtain rfl := Except.ok.inj hv
        rw [hencode, encodeDateTime, C.timestampMicros_eq hdt, hunix, Int.add_sub_cancel,
          checkI64_toInt]
        rfl

theorem negInfinity_shift_le {us : Int64} (h : us = pgTimestampNegInfinity) :
    us.toInt + pgEpochOffsetUs ≤ 9223372036854775807 := by
  rw [h]
  decide

/-- **Timestamps without a time zone** are decoded exactly unless they are finite and so late that
they cannot be counted from 1970. -/
theorem exact_naiveDateTime_iff (us : Int64) :
    Exact C.decodeNaiveDateTime C.encodeNaiveDateTime (i64Bytes us) ↔
      us = pgTimestampInfinity ∨ us.toInt + pgEpochOffsetUs ≤ 9223372036854775807 := by
  have hdecode := C.decodeNaiveDateTime_eq us
  by_cases hinf : us = pgTimestampInfinity
  · rw [if_pos hinf] at hdecode
    exact iff_of_true (exact_of_err hdecode) (.inl hinf)
  rw [if_neg hinf] at hdecode
  by_cases hneg : us = pgTimestampNegInfinity
  · rw [if_pos hneg] at hdecode
    exact iff_of_true (exact_of_err hdecode) (.inr (negInfinity_shift_le hneg))
  rw [if_neg hneg] at hdecode
  rw [or_iff_right hinf]
  refine C.exact_shifted_iff hdecode fun dt buf => ?_
  rw [encodeNaiveDateTime, C.andUtc_naiveUtc]
  rfl

/-- **Timestamps with a time zone**: likewise. -/
theorem exact_dateTime_iff (us : Int64) :
    Exact C.decodeDateTime C.encodeDateTime (i64Bytes us) ↔
      us = pgTimestampInfinity ∨ us.toInt + pgEpochOffsetUs ≤ 9223372036854775807 := by
  have hdecode := C.decodeDateTime_eq us
  by_cases hinf : us = pgTimestampInfinity ∨ us = pgTimestampNegInfinity
  · rw [if_pos hinf] at hdecode
    refine iff_of_true (exact_of_err hdecode) ?_
    exact hinf.imp_right negInfinity_shift_le
  · rw [if_neg hinf] at hdecode
    rw [or_iff_right fun h => hinf (.inl h)]
    exact C.exact_shifted_iff hdecode fun dt buf => rfl

/-! ### Dates -/

/-- **Dates** are decoded exactly. -/
theorem exact_naiveDate (days : Int32) :
    Exact C.decodeNaiveDate C.encodeNaiveDate (Scalar.i32.bytes days) := by
  have hdecode := C.decodeNaiveDate_eq days
  by_cases hinf : days = pgDateInfinity ∨ days = pgDateNegInfinity
  · rw [if_pos hinf] at hdecode
    exact exact_of_err hdecode
  rw [if_neg hinf] at hdecode
  cases hdate : C.addDays C.pgEpoch days.toInt with
  | none =>
    rw [hdate] at hdecode
    exact exact_of_err hdecode
  | some date =>
    rw [hdate] at hdecode
    refine ⟨fun p hp => ?_, fun v hv => ?_⟩
    · rw [hdecode] at hp
      cases hp
    · rw [hdecode] at hv
      obtain rfl := Except.ok.inj hv
      have hdays : (C.numDays date C.pgEpoch).toInt32 = days := by
        rw [← Int64.ofInt_toInt (C.numDays date C.pgEpoch), C.numDays_eq hdate,
          Int64.toInt32_ofInt, Int32.ofInt_toInt]
      rw [encodeNaiveDate, hdays]
      rfl

/-! ### Times -/

/-- The seconds of a wire time as they are given to chrono. -/
def castSecs (us : Int64) : ℤ := us.toInt.tdiv 1000000 % 4294967296

/-- The wire time is taken for a time of day. -/
def acceptsTime (us : Int64) : Bool := castSecs us < 86400 && 0 ≤ us.toInt.tmod 1000000

theorem toNat_asU32 (n : ℤ) : ((asU32 n).toNat : ℤ) = n % 4294967296 := by
  have hsize : UInt32.size = 4294967296 := rfl
  rw [asU32, UInt32.toNat_ofNat_of_lt' (by omega)]
  omega

/-- A negative fraction of a second is cast to more than chrono takes, also for a leap second. -/
theorem fromMidnight_isSome_eq (us : Int64) :
    (C.fromMidnight (asU32 (us.toInt.tdiv 1000000))
      (asU32 (us.toInt.tmod 1000000 * 1000))).isSome = acceptsTime us := by
  have hlow := Int.lt_tmod_of_pos us.toInt (show (0 : ℤ) < 1000000 by decide)
  have hhigh := Int.tmod_lt_of_pos us.toInt (show (0 : ℤ) < 1000000 by decide)
  have hsecs := toNat_asU32 (us.toInt.tdiv 1000000)
  have hnano := toNat_asU32 (us.toInt.tmod 1000000 * 1000)
  rw [Bool.eq_iff_iff, C.fromMidnight_isSome, acceptsTime, castSecs, Bool.and_eq_true,
    decide_eq_true_eq, decide_eq_true_eq]
  by_cases hneg : 0 ≤ us.toInt.tmod 1000000
  · rw [Int.emod_eq_of_lt (by omega) (by omega)] at hnano
    omega
  · have hwrap : us.toInt.tmod 1000000 * 1000 % 4294967296 =
        us.toInt.tmod 1000000 * 1000 + 4294967296 := by
      rw [← Int.add_emod_right, Int.emod_eq_of_lt (by omega) (by omega)]
    omega

/-- What is accepted is encoded as the time that the cast left over. -/
theorem encodeNaiveTime_of_accepted {us : Int64} {t : C.NaiveTime}
    (h : C.fromMidnight (asU32 (us.toInt.tdiv 1000000))
      (asU32 (us.toInt.tmod 1000000 * 1000)) = some t) :
    ∃ m : Int64, C.encodeNaiveTime t [] = .ok (i64Bytes m) ∧
      m.toInt = castSecs us * 1000000 + us.toInt.tmod 1000000 := by
  have haccepts : acceptsTime us = true := by
    rw [← C.fromMidnight_isSome_eq, h]
    rfl
  rw [acceptsTime, castSecs, Bool.and_eq_true, decide_eq_true_eq, decide_eq_true_eq] at haccepts
  have hhigh := Int.tmod_lt_of_pos us.toInt (show (0 : ℤ) < 1000000 by decide)
  have hsecs := toNat_asU32 (us.toInt.tdiv 1000000)
  have hnano := toNat_asU32 (us.toInt.tmod 1000000 * 1000)
  rw [Int.emod_eq_of_lt (by omega) (by omega)] at hnano
  refine ⟨Int64.ofNat ((asU32 (us.toInt.tdiv 1000000)).toNat * 1000000 +
    (asU32 (us.toInt.tmod 1000000 * 1000)).toNat / 1000), ?_, ?_⟩
  · rw [encodeNaiveTime, C.numMicroseconds_eq h, Option.getD_some, List.nil_append]
  · rw [Int64.toInt_ofNat_of_lt (by omega), castSecs]
    omega

/-- **Times** are decoded exactly unless they lie outside the day and the cast of their seconds to
`u32` brings them into it. -/
theorem exact_naiveTime_iff (us : Int64) :
    Exact C.decodeNaiveTime C.encodeNaiveTime (i64Bytes us) ↔
      0 ≤ us.toInt ∧ us.toInt < 86400000000 ∨ acceptsTime us = false := by
  have hdecode := C.decodeNaiveTime_eq us
  have hsome := C.fromMidnight_isSome_eq us
  cases htime : C.fromMidnight (asU32 (us.toInt.tdiv 1000000))
      (asU32 (us.toInt.tmod 1000000 * 1000)) with
  | none =>
    rw [htime] at hdecode hsome
    exact iff_of_true (exact_of_err hdecode) (.inr hsome.symm)
  | some t =>
    rw [htime] at hdecode hsome
    obtain ⟨m, hencode, hm⟩ := C.encodeNaiveTime_of_accepted htime
    have haccepts : acceptsTime us = true := hsome.symm
    have hday : Exact C.decodeNaiveTime C.encodeNaiveTime (i64Bytes us) ↔
        castSecs us * 1000000 + us.toInt.tmod 1000000 = us.toInt := by
      constructor
      · intro h
        have hwire := h.2 t hdecode
        rw [hencode] at hwire
        rw [← hm, i64Bytes_inj (Except.ok.inj hwire)]
      · intro h
        have hmus : m = us := Int64.toInt_inj.mp (hm.trans h)
        refine ⟨fun p hp => ?_, fun v hv => ?_⟩
        · rw [hdecode] at hp
          cases hp
        · rw [hdecode] at hv
          obtain rfl := Except.ok.inj hv
          rw [hencode, hmus]
    rw [hday, haccepts, or_iff_left Bool.noConfusion]
    rw [acceptsTime, Bool.and_eq_true, decide_eq_true_eq, decide_eq_true_eq] at haccepts
    have hdivision := Int.tmod_add_mul_tdiv us.toInt 1000000
    have hhigh := Int.tmod_lt_of_pos us.toInt (show (0 : ℤ) < 1000000 by decide)
    rw [castSecs] at haccepts ⊢
    omega

/-- **Exact or refused.**  For which wire values each of the four codecs neither overflows nor
panics, and decodes to nothing but a value that is encoded as the wire value. -/
theorem temporal_exact_iff (us : Int64) (days : Int32) :
    (Exact C.decodeNaiveDateTime C.encodeNaiveDateTime (i64Bytes us) ↔
      us = pgTimestampInfinity ∨ us.toInt + pgEpochOffsetUs ≤ 9223372036854775807) ∧
    (Exact C.decodeDateTime C.encodeDateTime (i64Bytes us) ↔
      us = pgTimestampInfinity ∨ us.toInt + pgEpochOffsetUs ≤ 9223372036854775807) ∧
    Exact C.decodeNaiveDate C.encodeNaiveDate (Scalar.i32.bytes days) ∧
    (Exact C.decodeNaiveTime C.encodeNaiveTime (i64Bytes us) ↔
      0 ≤ us.toInt ∧ us.toInt < 86400000000 ∨ acceptsTime us = false) :=
  ⟨C.exact_naiveDateTime_iff us, C.exact_dateTime_iff us, C.exact_naiveDate days,
    C.exact_naiveTime_iff us⟩

/-- The dates from the year -262143 to the year 262142, in days since 2000-01-01, and the times of
UTC in these years, in microseconds since 1970. -/
def proleptic : Chrono where
  DateTime := Int64
  NaiveDateTime := Int64
  NaiveDate := {d : ℤ // -96476249 ≤ d ∧ d ≤ 95015279}
  NaiveTime := UInt32 × UInt32
  fromTimestampMicros m :=
    if -8334601228800000000 ≤ m.toInt ∧ m.toInt ≤ 8210266876799999999 then some m else none
  timestampMicros dt := dt
  naiveUtc dt := dt
  andUtc dt := dt
  pgEpoch := ⟨0, by decide⟩
  addDays d n :=
    if h : -96476249 ≤ d.val + n ∧ d.val + n ≤ 95015279 then some ⟨d.val + n, h⟩ else none
  numDays d' d := Int64.ofInt (d'.val - d.val)
  fromMidnight secs nano :=
    if secs.toNat < 86400 ∧ (nano.toNat < 1000000000 ∨
      nano.toNat < 2000000000 ∧ secs.toNat % 60 = 59) then some (secs, nano) else none
  numMicroseconds t := some (Int64.ofNat (t.1.toNat * 1000000 + t.2.toNat / 1000))
  timestampMicros_eq := by
    intro m dt h
    split_ifs at h
    exact (Option.some.inj h).symm
  andUtc_naiveUtc := fun _ => rfl
  numDays_eq := by
    intro d n d' h
    split_ifs at h with hrange
    obtain rfl := Option.some.inj h
    have hd := d.property
    dsimp only
    rw [Int64.toInt_ofInt_of_le (by omega) (by omega)]
    omega
  fromMidnight_isSome := by
    intro secs nano
    rw [Option.isSome_ite]
  numMicroseconds_eq := by
    intro secs nano t h
    split_ifs at h
    obtain rfl := Option.some.inj h
    rfl

/-- A time of 2^32 seconds is taken for midnight, and adding to the last finite timestamp
overflows. -/
theorem proleptic_not_exact :
    proleptic.decodeNaiveTime (i64Bytes 4294967296000000) = .ok ((0, 0) : UInt32 × UInt32) ∧
    ¬Exact proleptic.decodeNaiveTime proleptic.encodeNaiveTime (i64Bytes 4294967296000000) ∧
    ¬Exact proleptic.decodeNaiveDateTime proleptic.encodeNaiveDateTime
      (i64Bytes 9223372036854775806) ∧
    ¬Exact proleptic.decodeDateTime proleptic.encodeDateTime (i64Bytes 9223372036854775806) := by
  rw [exact_naiveTime_iff, exact_naiveDateTime_iff, exact_dateTime_iff]
  exact ⟨rfl, by decide, by decide, by decide⟩

end Chrono

end Resolute
