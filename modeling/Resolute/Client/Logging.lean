import Resolute.Client.PipelineResults
import Resolute.Rust.Utf8

/-!
# The log of a call

When a call has its result, it writes an event to the log (`truncateSql`), and an error is given the
SQL for the message (`withSql`).  Both cut a long text at a fixed byte, which is a panic if a
character reaches over this byte.  The statement has run by then.

So the end of a call, `report`, returns its result or is a panic (`report_cases`), and a call
returns its own result exactly if the text may be cut where it is (`givesOwn_iff`).
-/

namespace Resolute.Logging

open Prepared (Env Conn SqlParam Row innerOn retrying typedRows parseRowCount)

/-! ### The SQL in the log -/

/-- The first `n` bytes of a longer text. -/
def truncateTo {ε : Type} (n : ℕ) (sql : String) : Rust.Outcome ε String :=
  if Rust.byteLen sql.toList ≤ n then .ok sql
  else do
    let shown ← Rust.slice sql.toList 0 n
    .ok (String.ofList shown ++ "...")

/-- `truncate_sql`. -/
def truncateSql {ε : Type} (sql : String) : Rust.Outcome ε String := truncateTo 100 sql

/-- `TypedError::with_sql`. -/
def withSql {ε : Type} (e : TypedError) (sql : String) : Rust.Outcome ε TypedError := do
  let truncated ← truncateTo 200 sql
  .ok (.queryFailed e truncated)

/-! ### The calls -/

/-- The levels of the events. -/
inductive Level where
  | debug
  | warn
  deriving DecidableEq, Repr

section

variable {α : Type} (enabled : Level → Bool) (sql : String)

/-- `tracing::debug!` and `tracing::warn!`: the fields of an event are computed if somebody listens
to its level. -/
def event {ε : Type} (level : Level) : Rust.Outcome ε Unit :=
  if enabled level then do
    let _ ← truncateSql sql
    .ok ()
  else .ok ()

/-- The end of `Client::query` and of `Client::execute`. -/
def report : Except TypedError α → Rust.Outcome TypedError α
  | .ok a => do
    event enabled sql .debug
    .ok a
  | .error e => do
    event enabled sql .warn
    let e ← withSql e sql
    .error (.err e)

end

/-- What a call makes of the reply. -/
def own {α : Type} (f : PipelineResponse → α) : Outcome → Except TypedError α
  | .ok resp => .ok (f resp)
  | .error e => .error (.wire e)

/-- The end of `query_inner_on`. -/
def rowsOf : PipelineResponse → List Row
  | .rows fields rows _ => typedRows fields rows
  | .done => []

/-- The end of `execute_inner_on`. -/
def affected : PipelineResponse → ℕ
  | .rows _ _ commandTag => parseRowCount commandTag
  | .done => 0

/-- `Client::query`: what the caller gets, and the connection. -/
def query (enabled : Level → Bool) (env : Env) (sql : String) (params : List SqlParam) (c : Conn) :
    Rust.Outcome TypedError (List Row) × Conn :=
  let (result, c) := Prepared.query env sql params c
  (report enabled sql (own rowsOf result), c)

/-- `Client::execute`: what the caller gets, and the connection. -/
def execute (enabled : Level → Bool) (env : Env) (sql : String) (params : List SqlParam)
    (c : Conn) : Rust.Outcome TypedError ℕ × Conn :=
  let (result, c) := Prepared.execute env sql params c
  (report enabled sql (own affected result), c)

/-! ### What the caller should get -/

/-- The server's answer to a call; a statement that it no longer knows is sent again. -/
def answer (env : Env) (c : Conn) : Outcome :=
  match env.reply c.sent.length with
  | .ok resp => .ok resp
  | .error e => if e.isStale then env.reply (c.sent.length + 1) else .error e

/-- The caller gets the result of the call, an error together with some of the SQL. -/
def GivesOwn {α : Type} (result : Except TypedError α) (r : Rust.Outcome TypedError α) : Prop :=
  match result with
  | .ok a => r = .ok a
  | .error e => ∃ shown, r = .error (.err (.queryFailed e shown))

/-- The text is short, or a character ends at byte `n`. -/
def Cuttable (n : ℕ) (sql : String) : Prop :=
  Rust.byteLen sql.toList ≤ n ∨
    ∃ pre post, sql.toList = pre ++ post ∧ Rust.byteLen pre = n

/-- The SQL may be cut wherever the end of the call cuts it. -/
def Loggable (enabled : Level → Bool) (sql : String) : Outcome → Prop
  | .ok _ => enabled .debug = true → Cuttable 100 sql
  | .error _ => (enabled .warn = true → Cuttable 100 sql) ∧ Cuttable 200 sql

/-! ### Cutting -/

section

variable {ε α : Type} {n : ℕ} {enabled : Level → Bool} {sql : String}

theorem slice_zero (cs : List Char) (n : ℕ) : Rust.slice (ε := ε) cs 0 n =
    match Rust.cutAt cs n with
    | none => .error .panic
    | some (mid, _) => .ok mid := by
  have hslice := Rust.slice_append_left (ε := ε) [] cs n
  rwa [Rust.byteLen_nil, Nat.zero_add] at hslice

/-- A text is cut, or it is a panic. -/
theorem truncateTo_cases (n : ℕ) (sql : String) :
    (∃ shown, truncateTo (ε := ε) n sql = .ok shown) ∧ Cuttable n sql ∨
      truncateTo (ε := ε) n sql = .error .panic ∧ ¬Cuttable n sql := by
  rw [truncateTo]
  split_ifs with hshort
  · exact .inl ⟨⟨sql, rfl⟩, .inl hshort⟩
  · rw [slice_zero]
    cases hcut : Rust.cutAt sql.toList n with
    | none =>
      refine .inr ⟨rfl, ?_⟩
      rintro (hle | ⟨pre, post, heq, rfl⟩)
      · exact hshort hle
      · rw [heq, Rust.cutAt_append] at hcut
        cases hcut
    | some parts => exact .inl ⟨⟨_, rfl⟩, .inr ⟨parts.1, parts.2, Rust.cutAt_eq_some hcut⟩⟩

theorem event_cases (enabled : Level → Bool) (sql : String) (level : Level) :
    event (ε := ε) enabled sql level = .ok () ∧ (enabled level = true → Cuttable 100 sql) ∨
      event (ε := ε) enabled sql level = .error .panic ∧
        ¬(enabled level = true → Cuttable 100 sql) := by
  rw [event]
  split_ifs with henabled
  · rcases truncateTo_cases (ε := ε) 100 sql with ⟨⟨shown, heq⟩, hcut⟩ | ⟨heq, hcut⟩
    · exact .inl ⟨by rw [truncateSql, heq]; rfl, fun _ => hcut⟩
    · exact .inr ⟨by rw [truncateSql, heq]; rfl, fun h => hcut (h henabled)⟩
  · exact .inl ⟨rfl, fun h => absurd h henabled⟩

theorem not_givesOwn_panic (result : Except TypedError α) : ¬GivesOwn result (.error .panic) := by
  cases result with
  | ok a =>
    intro h
    cases h
  | error e =>
    rintro ⟨shown, h⟩
    cases h

/-- The end of a call returns the result of the call, or it is a panic. -/
theorem report_cases (enabled : Level → Bool) (sql : String) (f : PipelineResponse → α)
    (r : Outcome) :
    GivesOwn (own f r) (report enabled sql (own f r)) ∧ Loggable enabled sql r ∨
      report enabled sql (own f r) = .error .panic ∧ ¬Loggable enabled sql r := by
  cases r with
  | ok resp =>
    rw [own, report]
    rcases event_cases (ε := TypedError) enabled sql .debug with ⟨heq, hcut⟩ | ⟨heq, hcut⟩
    · exact .inl ⟨by rw [heq]; rfl, hcut⟩
    · exact .inr ⟨by rw [heq]; rfl, hcut⟩
  | error e =>
    rw [own, report, withSql]
    -- the event comes first, then the SQL is given to the error
    rcases event_cases (ε := TypedError) enabled sql .warn with ⟨heq, hcut⟩ | ⟨heq, hcut⟩
    · rcases truncateTo_cases (ε := TypedError) 200 sql with
        ⟨⟨shown, heq'⟩, hcut'⟩ | ⟨heq', hcut'⟩
      · exact .inl ⟨⟨shown, by rw [heq, heq']; rfl⟩, hcut, hcut'⟩
      · exact .inr ⟨by rw [heq, heq']; rfl, fun h => hcut' h.2⟩
    · exact .inr ⟨by rw [heq]; rfl, fun h => hcut h.1⟩

theorem report_iff (enabled : Level → Bool) (sql : String) (f : PipelineResponse → α)
    (r : Outcome) :
    GivesOwn (own f r) (report enabled sql (own f r)) ↔ Loggable enabled sql r := by
  rcases report_cases enabled sql f r with ⟨hgives, hlog⟩ | ⟨hpanic, hlog⟩
  · exact iff_of_true hgives hlog
  · rw [hpanic]
    exact iff_of_false (not_givesOwn_panic _) hlog

theorem byteLen_of_isAscii {cs : List Char} (h : ∀ c ∈ cs, Rust.isAscii c = true) :
    Rust.byteLen cs = cs.length := by
  rw [← Rust.length_utf8, Rust.utf8_of_isAscii h, List.length_map]

/-- Texts of ASCII can be cut everywhere. -/
theorem cuttable_of_isAscii (h : ∀ c ∈ sql.toList, Rust.isAscii c = true) (n : ℕ) :
    Cuttable n sql := by
  by_cases hle : sql.toList.length ≤ n
  · exact .inl (Nat.le_trans (Nat.le_of_eq (byteLen_of_isAscii h)) hle)
  · refine .inr ⟨sql.toList.take n, sql.toList.drop n, (List.take_append_drop _ _).symm, ?_⟩
    rw [byteLen_of_isAscii fun c hc => h c (List.mem_of_mem_take hc), List.length_take]
    omega

/-! ### The calls -/

theorem innerOn_fst (describe : Bool) (env : Env) (sql : String) (params : List SqlParam)
    (c : Conn) : (innerOn describe env sql params c).1 = env.reply c.sent.length := by
  cases h : env.reply c.sent.length with
  | ok resp => rw [Prepared.innerOn_ok describe env sql params c h]
  | error e => rw [Prepared.innerOn_error describe env sql params c h]

theorem retrying_fst (describe : Bool) (env : Env) (sql : String) (params : List SqlParam)
    (c : Conn) : (retrying (innerOn describe) env sql params c).1 = answer env c := by
  cases h : env.reply c.sent.length with
  | ok resp =>
    rw [retrying, Prepared.innerOn_ok describe env sql params c h, answer, h]
  | error e =>
    rw [retrying, Prepared.innerOn_error describe env sql params c h, answer, h]
    dsimp only
    split_ifs
    · rw [innerOn_fst]
      simp [Prepared.send]
    · rfl

/-- **When a call returns its own result.**  For every reply of the server and all levels that are
enabled, it does if and only if the SQL can be cut where its end cuts it. -/
theorem givesOwn_iff (enabled : Level → Bool) (env : Env) (sql : String) (params : List SqlParam)
    (c : Conn) :
    (GivesOwn (own rowsOf (answer env c)) (query enabled env sql params c).1 ↔
      Loggable enabled sql (answer env c)) ∧
    (GivesOwn (own affected (answer env c)) (execute enabled env sql params c).1 ↔
      Loggable enabled sql (answer env c)) := by
  have hquery : (Prepared.query env sql params c).1 = answer env c :=
    retrying_fst true env sql params c
  have hexecute : (Prepared.execute env sql params c).1 = answer env c :=
    retrying_fst false env sql params c
  constructor
  · rw [← hquery]
    exact report_iff enabled sql rowsOf _
  · rw [← hexecute]
    exact report_iff enabled sql affected _

/-- A text with a character of two bytes after the first `n`. -/
def accented (n : ℕ) : String := String.ofList (List.replicate n 'a' ++ ['é', 'a'])

theorem cutAt_accented (n : ℕ) :
    Rust.cutAt (List.replicate n 'a' ++ ['é', 'a']) (n + 1) = none := by
  induction n with
  | zero => rfl
  | succ n ih =>
    have hsize : 'a'.utf8Size ≤ n + 1 + 1 := Nat.le_add_left 1 (n + 1)
    rw [List.replicate_succ, List.cons_append, Rust.cutAt, if_pos hsize]
    exact congrArg (Option.map _) ih

theorem not_cuttable_accented (n : ℕ) : ¬Cuttable (n + 1) (accented n) := by
  have hascii : ∀ c ∈ List.replicate n 'a', Rust.isAscii c = true := by
    intro c hc
    rw [List.eq_of_mem_replicate hc]
    rfl
  rw [Cuttable, accented, String.toList_ofList]
  rintro (hle | ⟨pre, post, heq, hpre⟩)
  · rw [Rust.byteLen_append, byteLen_of_isAscii hascii, List.length_replicate] at hle
    exact absurd (Nat.le_of_add_le_add_left hle) (by decide)
  · have hnone := cutAt_accented n
    rw [heq, ← hpre, Rust.cutAt_append] at hnone
    cases hnone

/-- A statement that ran, with its event at the level `debug`, and one that failed, with no level
enabled. -/
theorem panics_behind_statement :
    let env (r : Outcome) : Env := ⟨fun _ => r, fun _ => true⟩
    ((query (fun _ => true) (env (.ok .done)) (accented 99) [] Conn.new).1 = .error .panic ∧
      (query (fun _ => true) (env (.ok .done)) (accented 99) [] Conn.new).2.sent.length = 1) ∧
    (execute (fun _ => false) (env (.error .connectionClosed)) (accented 199) [] Conn.new).1 =
      .error .panic := by
  refine ⟨⟨?_, rfl⟩, ?_⟩
  · exact ((report_cases (fun _ => true) (accented 99) rowsOf (.ok .done)).resolve_left
      fun h => not_cuttable_accented 99 (h.2 rfl)).1
  · exact ((report_cases (fun _ => false) (accented 199) affected
      (.error .connectionClosed)).resolve_left fun h => not_cuttable_accented 199 h.2.2).1

end

end Resolute.Logging
