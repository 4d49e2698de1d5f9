import Mathlib.Algebra.GroupWithZero.Nat
import Mathlib.Data.Nat.Find
import Resolute.Client.Basic

/-!
# Retries

`RetryPolicy::execute` calls an operation until it succeeds, fails with an error that is not
transient, or has been retried `max_retries` times, and waits before each retry, twice as long each
time up to a limit.

The arithmetic is that of `u32` and of `Duration`, and the count and the waits may overflow.
`RetryPolicy.Follows` is what a policy promises about the calls, the waits and the end;
`execute_follows_iff` says for which policies and outcomes the promise is kept.
-/

namespace Resolute

/-- `std::time::Duration`: seconds in a `u64` and less than 10⁹ nanoseconds. -/
structure Duration where
  nanos : ℕ
  le_max : nanos ≤ 18446744073709551615999999999
  deriving DecidableEq, Repr

namespace Duration

/-- `Duration::MAX`, in nanoseconds. -/
def maxNanos : ℕ := 18446744073709551615999999999

/-- `d * 2`; `none` : "overflow when multiplying duration by scalar". -/
def double (d : Duration) : Option Duration :=
  if h : d.nanos * 2 ≤ maxNanos then some ⟨d.nanos * 2, h⟩ else none

protected def min (d d' : Duration) : Duration := if d.nanos ≤ d'.nanos then d else d'

theorem ext {d d' : Duration} (h : d.nanos = d'.nanos) : d = d' := by
  cases d
  cases d'
  cases h
  rfl

theorem nanos_min (d d' : Duration) : (d.min d').nanos = min d.nanos d'.nanos := by
  unfold Duration.min
  split_ifs with h
  · exact (Nat.min_eq_left h).symm
  · exact (Nat.min_eq_right (by omega)).symm

end Duration

/-! ### Transient errors -/

/-- `is_transient_pg_code`. -/
def isTransientPgCode (code : String) : Bool :=
  ["08000", "08001", "08003", "08004", "08006", "40001", "40P01", "57P01", "57P02",
    "57P03"].contains code

/-- `is_transient`. -/
def isTransient : TypedError → Bool
  | .wire (.ioError _ _) => true
  | .wire .connectionClosed => true
  | .wire (.pg e) => isTransientPgCode e.code
  | _ => false

/-! ### The loop -/

structure RetryPolicy where
  /-- The first call not counted. -/
  maxRetries : UInt32
  initialBackoff : Duration
  maxBackoff : Duration
  deriving DecidableEq, Repr

namespace RetryPolicy

/-- What `execute` does. -/
inductive Event where
  | call
  | sleep (d : Duration)
  deriving DecidableEq, Repr

inductive Ending (ε α : Type) where
  | returned (r : Except ε α)
  | panicked

/-- What `execute` has done, and how it ended. -/
structure Trace (ε α : Type) where
  events : List Event
  ending : Ending ε α

/-- How the program is built and run. -/
structure Build where
  /-- Arithmetic overflow panics, as in a debug build. -/
  overflowChecks : Bool
  /-- Someone listens to the warnings. -/
  logged : Bool
  deriving DecidableEq, Repr

section

variable {ε α : Type}

def Trace.after (events : List Event) (t : Trace ε α) : Trace ε α :=
  { t with events := events ++ t.events }

/-- The warning of a retry panics: it has `max_retries + 1` in its text. -/
def warnPanics (policy : RetryPolicy) (build : Build) : Bool :=
  build.logged && build.overflowChecks && policy.maxRetries.toNat + 1 == UInt32.size

variable (policy : RetryPolicy) (build : Build) (transient : ε → Bool)
  (outcomes : ℕ → Except ε α)

/-- What is done with the outcome of a call; `retry` is the rest of the loop. -/
def judge (attempt : ℕ) (retry : ε → Trace ε α) : Trace ε α :=
  match outcomes attempt with
  | .ok val => ⟨[], .returned (.ok val)⟩
  | .error e =>
    if transient e ∧ attempt < policy.maxRetries.toNat then
      if policy.warnPanics build then ⟨[], .panicked⟩ else retry e
    else ⟨[], .returned (.error e)⟩

/-- The loop of `execute`, with the attempts that are left; `outcomes k` is what the call number `k`
returns. -/
def attempts : ℕ → ℕ → Duration → Option ε → Trace ε α
  | 0, _, _, some lastErr => ⟨[], .returned (.error lastErr)⟩
  | 0, _, _, none => ⟨[], .panicked⟩
  | left + 1, 0, backoff, _ => Trace.after [.call] <|
    judge policy build transient outcomes 0 fun e => attempts left 1 backoff (some e)
  | left + 1, attempt + 1, backoff, _ =>
    match backoff.double with
    | none => ⟨[.sleep backoff], .panicked⟩
    | some doubled => Trace.after [.sleep backoff, .call] <|
      judge policy build transient outcomes (attempt + 1) fun e =>
        attempts left (attempt + 2) (doubled.min policy.maxBackoff) (some e)

/-- `RetryPolicy::execute`. -/
def execute : Trace ε α :=
  attempts policy build transient outcomes (policy.maxRetries.toNat + 1) 0 policy.initialBackoff
    none

/-! ### The promise -/

/-- The outcome leads to a retry, if there is one left. -/
def retryable : Except ε α → Bool
  | .ok _ => false
  | .error e => transient e

/-- The wait before the retry number `k + 1`. -/
def wait (k : ℕ) : Duration :=
  ⟨min (policy.initialBackoff.nanos * 2 ^ k) policy.maxBackoff.nanos,
    le_trans (Nat.min_le_right _ _) policy.maxBackoff.le_max⟩

/-- The first call and `n` retries. -/
def events (n : ℕ) : List Event :=
  .call :: (List.range n).flatMap fun k => [.sleep (policy.wait k), .call]

/-- The operation is retried while its error is transient and `max_retries` allow, after waits that
double up to `max_backoff`, and the last outcome is returned. -/
def Follows (t : Trace ε α) : Prop :=
  ∃ n ≤ policy.maxRetries.toNat, (∀ k < n, retryable transient (outcomes k) = true) ∧
    (n = policy.maxRetries.toNat ∨ retryable transient (outcomes n) = false) ∧
    t = ⟨policy.events n, .returned (outcomes n)⟩

theorem exists_last :
    ∃ n, n = policy.maxRetries.toNat ∨ retryable transient (outcomes n) = false :=
  ⟨_, .inl rfl⟩

/-- The number of retries that the outcomes call for. -/
def retries : ℕ := Nat.find (policy.exists_last transient outcomes)

/-- The waits are right and can be doubled, and the warnings do not panic. -/
def Affords (n : ℕ) : Prop :=
  n = 0 ∨ policy.initialBackoff.nanos ≤ policy.maxBackoff.nanos ∧
    (policy.wait (n - 1)).nanos * 2 ≤ Duration.maxNanos ∧ policy.warnPanics build = false

end

section

variable {ε α : Type} {policy : RetryPolicy} {build : Build} {transient : ε → Bool}
  {outcomes : ℕ → Except ε α}

/-- A policy makes at most `max_retries + 1` calls. -/
theorem count_call_events (n : ℕ) : (policy.events n).count .call = n + 1 := by
  rw [events, List.count_cons_self]
  induction n with
  | zero => rfl
  | succ n ih =>
    rw [List.range_succ, List.flatMap_append, List.count_append, Nat.add_right_comm, ih]
    rfl

theorem events_succ (policy : RetryPolicy) (n : ℕ) :
    ∃ rest, policy.events (n + 1) = .call :: .sleep (policy.wait 0) :: rest :=
  ⟨_, by rw [events, List.range_succ_eq_map]; rfl⟩

theorem retries_le : policy.retries transient outcomes ≤ policy.maxRetries.toNat :=
  Nat.find_min' _ (.inl rfl)

theorem retryable_of_lt {k : ℕ} (h : k < policy.retries transient outcomes) :
    retryable transient (outcomes k) = true := by
  have hk := Nat.find_min (policy.exists_last transient outcomes) h
  simpa using fun hfalse => hk (.inr hfalse)

variable (policy transient outcomes) in
theorem last_or : policy.retries transient outcomes = policy.maxRetries.toNat ∨
    retryable transient (outcomes (policy.retries transient outcomes)) = false :=
  Nat.find_spec (policy.exists_last transient outcomes)

/-- A trace follows the policy in one way only. -/
theorem follows_iff {t : Trace ε α} : policy.Follows transient outcomes t ↔
    t = ⟨policy.events (policy.retries transient outcomes),
      .returned (outcomes (policy.retries transient outcomes))⟩ := by
  constructor
  · rintro ⟨n, hn, hbefore, hlast, rfl⟩
    have heq : policy.retries transient outcomes = n := by
      refine le_antisymm (Nat.find_min' _ hlast) (Nat.le_of_not_lt fun hlt => ?_)
      rcases last_or policy transient outcomes with h | h
      · omega
      · rw [hbefore _ hlt] at h
        cases h
    rw [heq]
  · rintro rfl
    exact ⟨_, retries_le, fun k => retryable_of_lt, last_or _ _ _, rfl⟩

/-! ### The loop, step by step -/

/-- Before the last call the outcomes are transient errors. -/
theorem transient_of_lt {k : ℕ} (h : k < policy.retries transient outcomes) :
    ∃ e, outcomes k = .error e ∧ transient e = true ∧ k < policy.maxRetries.toNat := by
  have hretryable := retryable_of_lt h
  cases hk : outcomes k with
  | ok val =>
    rw [hk] at hretryable
    cases hretryable
  | error e =>
    rw [hk] at hretryable
    exact ⟨e, rfl, hretryable, Nat.lt_of_lt_of_le h retries_le⟩

theorem judge_retry {k : ℕ} (h : k < policy.retries transient outcomes)
    (hwarn : policy.warnPanics build = false) (retry : ε → Trace ε α) :
    ∃ e, judge policy build transient outcomes k retry = retry e := by
  obtain ⟨e, hk, htransient, hlt⟩ := transient_of_lt h
  exact ⟨e, by simp [judge, hk, htransient, hlt, hwarn]⟩

theorem judge_warn {k : ℕ} (h : k < policy.retries transient outcomes)
    (hwarn : policy.warnPanics build = true) (retry : ε → Trace ε α) :
    judge policy build transient outcomes k retry = ⟨[], .panicked⟩ := by
  obtain ⟨e, hk, htransient, hlt⟩ := transient_of_lt h
  simp [judge, hk, htransient, hlt, hwarn]

theorem judge_last {k : ℕ} (h : k = policy.retries transient outcomes) (retry : ε → Trace ε α) :
    judge policy build transient outcomes k retry = ⟨[], .returned (outcomes k)⟩ := by
  have hlast := last_or policy transient outcomes
  rw [← h] at hlast
  unfold judge
  cases hk : outcomes k with
  | ok val => rfl
  | error e =>
    rw [hk] at hlast
    have hstop : ¬ (transient e = true ∧ k < policy.maxRetries.toNat) := by
      rintro ⟨htransient, hlt⟩
      rcases hlast with hlast | hlast
      · exact Nat.ne_of_lt hlt hlast
      · rw [show retryable transient (.error e : Except ε α) = transient e from rfl,
          htransient] at hlast
        cases hlast
    simp only [if_neg hstop]

theorem double_wait {k : ℕ} {d : Duration} (h : (policy.wait k).double = some d) :
    d.min policy.maxBackoff = policy.wait (k + 1) := by
  unfold Duration.double at h
  split_ifs at h
  obtain rfl := Option.some_inj.1 h
  refine Duration.ext ?_
  rw [Duration.nanos_min]
  simp only [wait, Nat.pow_succ, ← Nat.mul_assoc]
  omega

theorem wait_mono {k n : ℕ} (h : k ≤ n) : (policy.wait k).nanos ≤ (policy.wait n).nanos := by
  have hpow : policy.initialBackoff.nanos * 2 ^ k ≤ policy.initialBackoff.nanos * 2 ^ n :=
    Nat.mul_le_mul_left _ (Nat.pow_le_pow_right (by decide) h)
  simp only [wait]
  omega

/-- The rest of the loop, before the retry number `k + 1`. -/
theorem attempts_eq {n : ℕ} (hn : n = policy.retries transient outcomes)
    (hdouble : (policy.wait (n - 1)).nanos * 2 ≤ Duration.maxNanos)
    (hwarn : policy.warnPanics build = false) {left k : ℕ} (hk : k < n)
    (hleft : left + k = policy.maxRetries.toNat) (lastErr : Option ε) :
    attempts policy build transient outcomes left (k + 1) (policy.wait k) lastErr =
      ⟨(List.range' k (n - k)).flatMap fun k => [.sleep (policy.wait k), .call],
        .returned (outcomes n)⟩ := by
  have hle : n ≤ policy.maxRetries.toNat := hn ▸ retries_le
  induction left generalizing k lastErr with
  | zero => omega
  | succ left ih =>
    have hmono := policy.wait_mono (show k ≤ n - 1 by omega)
    obtain ⟨d, hd⟩ : ∃ d, (policy.wait k).double = some d :=
      ⟨_, dif_pos (show (policy.wait k).nanos * 2 ≤ _ by omega)⟩
    rw [attempts, hd, show n - k = (n - (k + 1)) + 1 by omega, List.range'_succ,
      List.flatMap_cons]
    simp only [double_wait hd]
    by_cases hlast : k + 1 = n
    · rw [judge_last (hlast.trans hn), hlast, Nat.sub_self]
      rfl
    · obtain ⟨e, he⟩ := judge_retry (hn ▸ (by omega : k + 1 < n)) hwarn
        fun e =>
          attempts policy build transient outcomes left (k + 2) (policy.wait (k + 1)) (some e)
      rw [he, ih (by omega) (by omega)]
      rfl

variable (build) in
/-- A wait that cannot be doubled lies ahead. -/
theorem attempts_panics {n : ℕ} (hn : n = policy.retries transient outcomes)
    (hdouble : Duration.maxNanos < (policy.wait (n - 1)).nanos * 2) {left k : ℕ} (hk : k < n)
    (hleft : left + k = policy.maxRetries.toNat) (lastErr : Option ε) :
    (attempts policy build transient outcomes left (k + 1) (policy.wait k) lastErr).ending =
      .panicked := by
  have hle : n ≤ policy.maxRetries.toNat := hn ▸ retries_le
  induction left generalizing k lastErr with
  | zero => omega
  | succ left ih =>
    rw [attempts]
    cases hd : (policy.wait k).double with
    | none => rfl
    | some d =>
      have hlast : k + 1 < n := by
        unfold Duration.double at hd
        split_ifs at hd with hfits
        rcases Nat.lt_or_ge (k + 1) n with h | h
        · exact h
        · rw [show k = n - 1 by omega] at hfits
          omega
      simp only [double_wait hd]
      cases hwarn : policy.warnPanics build with
      | true =>
        rw [judge_warn (hn ▸ hlast) hwarn]
        rfl
      | false =>
        obtain ⟨e, he⟩ := judge_retry (hn ▸ hlast) hwarn
          fun e =>
            attempts policy build transient outcomes left (k + 2) (policy.wait (k + 1)) (some e)
        rw [he]
        exact ih hlast (by omega) _

/-- The first wait is the initial backoff, whatever `max_backoff` is. -/
theorem sleeps_initialBackoff (policy : RetryPolicy) (build : Build) (transient : ε → Bool)
    (outcomes : ℕ → Except ε α) (left : ℕ) (backoff : Duration) (lastErr : Option ε) :
    ∃ rest, (attempts policy build transient outcomes (left + 1) 1 backoff lastErr).events =
      .sleep backoff :: rest := by
  rw [attempts]
  cases backoff.double with
  | none => exact ⟨_, rfl⟩
  | some doubled => exact ⟨_, rfl⟩

end

/-- **When a retry policy keeps its promise.**  If there is no retry, or the initial backoff is not
longer than `max_backoff`, the longest wait can be doubled, and the warning about a retry does not
overflow. -/
theorem execute_follows_iff {ε α : Type} (policy : RetryPolicy) (build : Build)
    (transient : ε → Bool) (outcomes : ℕ → Except ε α) :
    policy.Follows transient outcomes (policy.execute build transient outcomes) ↔
      policy.Affords build (policy.retries transient outcomes) := by
  rw [follows_iff, execute, attempts]
  generalize hn : policy.retries transient outcomes = n
  rcases Nat.eq_zero_or_pos n with rfl | hpos
  · rw [judge_last hn.symm]
    exact iff_of_true rfl (.inl rfl)
  -- there is at least one retry
  have hle : n ≤ policy.maxRetries.toNat := hn ▸ retries_le
  cases hwarn : policy.warnPanics build with
  | true =>
    rw [judge_warn (hn.symm ▸ hpos) hwarn]
    refine iff_of_false (fun h => by cases congrArg Trace.ending h) ?_
    rintro (rfl | ⟨-, -, h⟩)
    · exact absurd hpos (Nat.lt_irrefl 0)
    · rw [hwarn] at h
      cases h
  | false =>
    obtain ⟨e, he⟩ := judge_retry (hn.symm ▸ hpos) hwarn fun e =>
      attempts policy build transient outcomes policy.maxRetries.toNat 1 policy.initialBackoff
        (some e)
    rw [he]
    -- the first wait is the initial backoff without a cap
    by_cases hcap : policy.initialBackoff.nanos ≤ policy.maxBackoff.nanos
    · have hfirst : policy.initialBackoff = policy.wait 0 :=
        Duration.ext (by simp [wait, hcap])
      rw [hfirst]
      by_cases hdouble : (policy.wait (n - 1)).nanos * 2 ≤ Duration.maxNanos
      · have heq := attempts_eq hn.symm hdouble hwarn hpos (Nat.add_zero _) (some e)
        rw [Nat.zero_add] at heq
        rw [heq, Nat.sub_zero, ← List.range_eq_range']
        exact iff_of_true rfl (.inr ⟨hcap, hdouble, hwarn⟩)
      · -- the doubling overflows before the last retry
        refine iff_of_false (fun h => ?_) ?_
        · have hpanics := attempts_panics build hn.symm (Nat.lt_of_not_le hdouble) hpos
            (Nat.add_zero _) (some e)
          have hending := congrArg Trace.ending h
          change (attempts policy build transient outcomes _ 1 (policy.wait 0) (some e)).ending = _
            at hending
          rw [Nat.zero_add] at hpanics
          rw [hpanics] at hending
          cases hending
        · rintro (rfl | ⟨-, h, -⟩)
          · exact absurd hpos (Nat.lt_irrefl 0)
          · exact hdouble h
    · refine iff_of_false (fun h => ?_) ?_
      · -- the second event is the first wait
        obtain ⟨left, hleft⟩ : ∃ left, policy.maxRetries.toNat = left + 1 :=
          ⟨_, (Nat.succ_pred_eq_of_pos (Nat.lt_of_lt_of_le hpos hle)).symm⟩
        rw [hleft] at h
        obtain ⟨rest, hrest⟩ := sleeps_initialBackoff policy build transient outcomes left
          policy.initialBackoff (some e)
        have hevents := congrArg Trace.events h
        rw [Trace.after, hrest, show n = (n - 1) + 1 by omega] at hevents
        obtain ⟨rest', hrest'⟩ := events_succ policy (n - 1)
        rw [hrest'] at hevents
        simp only [List.cons_append, List.nil_append, List.cons.injEq, Event.sleep.injEq,
          true_and] at hevents
        refine hcap ?_
        rw [hevents.1]
        exact Nat.min_le_right _ _
      · rintro (rfl | ⟨h, -, -⟩)
        · exact absurd hpos (Nat.lt_irrefl 0)
        · exact hcap h

/-- `RetryPolicy::new(3, Duration::from_secs(60))`, whose `max_backoff` is 30 seconds. -/
def patient : RetryPolicy := ⟨3, ⟨60000000000, by decide⟩, ⟨30000000000, by decide⟩⟩

/-- A deadlock at first, then success. -/
def deadlockOnce : ℕ → Except TypedError Unit
  | 0 => .error (.wire (.pg { code := "40P01" }))
  | _ => .ok ()

/-- The wait before the first retry is longer than `max_backoff`. -/
theorem execute_deadlockOnce :
    (patient.execute ⟨false, false⟩ isTransient deadlockOnce).events =
        [.call, .sleep patient.initialBackoff, .call] ∧
      patient.wait 0 = patient.maxBackoff ∧ patient.initialBackoff ≠ patient.maxBackoff ∧
      ¬ patient.Follows isTransient deadlockOnce
        (patient.execute ⟨false, false⟩ isTransient deadlockOnce) := by
  refine ⟨by decide, by decide, by decide, ?_⟩
  rintro ⟨n, -, -, -, heq⟩
  have hevents := congrArg Trace.events heq
  cases n with
  | zero => cases hevents
  | succ n =>
    obtain ⟨rest, hrest⟩ := events_succ patient n
    rw [hrest] at hevents
    cases hevents

end RetryPolicy

end Resolute
