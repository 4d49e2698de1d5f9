import Resolute.Client.Basic
import Resolute.Client.Stale
import Resolute.Rust.Radix
import Resolute.Rust.Str
import Resolute.Wire.Read

/-!
# The results of a pipeline

The steps of a `Pipeline` are queued by `query` and by `execute`, which do the same: which of them
it was is not kept.  `run` tells the two apart by what the server answers: a response without rows
and with a command tag is taken for that of an `execute`.

What the server does with a step is a `StepOutcome`, and an `Answer` has the messages that it sends
for it.  Each step should have the result of the method that queued it (`Job.expected`);
`run_eq_expected_iff` finds the runs where it has.  The count of an `execute` is read out of the
command tag (`parseRowCount_text`).
-/

namespace Resolute.Prepared

/-! ### The client -/

/-- The schema of a row. -/
structure RowSchema where
  columns : List String
  typeOids : List Oid
  formats : List Int16
  deriving DecidableEq, Repr

/-- A row. -/
structure Row where
  schema : RowSchema
  data : RawRow
  deriving DecidableEq, Repr

/-- The result of a step. -/
inductive PipelineResult where
  /-- Rows from a SELECT query. -/
  | rows (rows : List Row)
  /-- Affected row count from an INSERT/UPDATE/DELETE. -/
  | execute (count : ℕ)
  deriving DecidableEq, Repr

/-- `f.format as i16`. -/
def formatCode : FormatCode → Int16
  | .text => 0
  | .binary => 1

/-- `RawRow::len`. -/
def rowLen (row : RawRow) : ℕ :=
  match row.cells with
  | .inline _ len => len.toNat
  | .heap entries => entries.length

/-- `build_row_schema`. -/
def buildRowSchema (fields : List FieldDescription) (firstRow : Option RawRow) : RowSchema :=
  if fields ≠ [] then
    ⟨fields.map FieldDescription.name, fields.map FieldDescription.typeOid,
      fields.map fun f => formatCode f.format⟩
  else
    match firstRow with
    | some row => ⟨[], [], List.replicate (rowLen row) 1⟩
    | none => ⟨[], [], []⟩

/-- `parse_row_count`. -/
def parseRowCount (tag : String) : ℕ :=
  ((Rust.rsplitOnce ' ' tag.toList).bind fun p =>
    Rust.fromStrRadix 18446744073709551616 10 p.2).getD 0

/-- The rows of a response with their schema. -/
def typedRows (fields : List FieldDescription) (rows : List RawRow) : List Row :=
  rows.map fun data => ⟨buildRowSchema fields rows.head?, data⟩

/-- What `run` makes of a response. -/
def typedResult : PipelineResponse → PipelineResult
  | .rows fields rows commandTag =>
    if rows.isEmpty ∧ ¬commandTag.isEmpty then .execute (parseRowCount commandTag)
    else .rows (typedRows fields rows)
  | .done => .execute 0

namespace Pipeline

/-- `Pipeline::query`. -/
def query (p : Pipeline) (sql : String) (params : List SqlParam) (c : Conn) : Pipeline × Conn :=
  p.encodeQuery sql params c

/-- `Pipeline::execute`. -/
def execute (p : Pipeline) (sql : String) (params : List SqlParam) (c : Conn) : Pipeline × Conn :=
  p.encodeQuery sql params c

/-- The steps are queued one after another. -/
def queue : List Call → Pipeline → Conn → Pipeline × Conn
  | [], p, c => (p, c)
  | ⟨.query, sql, params⟩ :: steps, p, c =>
    let (p, c) := p.query sql params c
    queue steps p c
  | ⟨.execute, sql, params⟩ :: steps, p, c =>
    let (p, c) := p.execute sql params c
    queue steps p c

/-- `Pipeline::run`. -/
def results (env : Env) (takes : ℕ) (p : Pipeline) (c : Conn) :
    Except TypedError (List PipelineResult) × Conn :=
  match p.run env takes c with
  | (.error e, c) => (.error (TypedError.wire e), c)
  | (.ok responses, c) => (.ok (responses.map typedResult), c)

end Pipeline

/-! ### The server -/

/-- A command tag: the words of the command, and the number of rows of a command that has one. -/
structure CommandTag where
  command : List Char
  count : Option UInt64
  /-- A tag without a number has only letters and spaces. -/
  words : count = none → command ≠ [] ∧ ∀ c ∈ command, c.isAlpha = true ∨ c = ' '

namespace CommandTag

def text (tag : CommandTag) : String :=
  match tag.count with
  | none => .ofList tag.command
  | some n => .ofList (tag.command ++ ' ' :: Nat.toDigits 10 n.toNat)

/-- The number of affected rows. -/
def affected (tag : CommandTag) : ℕ := (tag.count.map UInt64.toNat).getD 0

end CommandTag

/-- What the server does with a step. -/
inductive StepOutcome where
  /-- The statement was carried out; `described` is its row description, if it has one. -/
  | complete (described : Option (List FieldDescription)) (rows : List RawRow) (tag : CommandTag)
  /-- The SQL was empty. -/
  | emptyQuery
  /-- An error, and what was sent before it. -/
  | refused (before : List BackendMsg) (e : PgError)
    (plain : ∀ m ∈ before, m.isError = false ∧ m.isReady = false)

/-- The description of a portal. -/
def describeMsg : Option (List FieldDescription) → BackendMsg
  | none => .noData
  | some fields => .rowDescription fields

/-- The message says what was done; the others acknowledge, or come at any time. -/
def isResult : BackendMsg → Bool
  | .parseComplete | .bindComplete | .noticeResponse _ | .notificationResponse _ _ _
  | .parameterStatus _ _ => false
  | _ => true

/-- The messages that say what was done. -/
def StepOutcome.messages : StepOutcome → List BackendMsg
  | complete described rows tag =>
    describeMsg described :: rows.map .dataRow ++ [.commandComplete tag.text]
  | emptyQuery => [.noData, .emptyQueryResponse]
  | refused before e _ => before.filter isResult ++ [.errorResponse e]

/-- The answer to a step: its messages up to `ReadyForQuery`. -/
structure Answer where
  outcome : StepOutcome
  msgs : List BackendMsg
  status : UInt8
  messages_eq : msgs.filter isResult = outcome.messages

/-- What `read_msg` reads of the answer. -/
def Answer.input (a : Answer) : List ReadResult :=
  a.msgs.map .ok ++ [.ok (.readyForQuery a.status)]

/-- From the request number `n` on, the server gives these answers. -/
def Env.answering (env : Env) (n : ℕ) (answers : List Answer) : Env where
  reply k :=
    match answers[k - n]? with
    | some a => if n ≤ k then Collect.await ((Collect.init .rows).run a.input) else env.reply k
    | none => env.reply k
  hasRoom := env.hasRoom

/-- A step and the answer to it. -/
structure Job where
  step : Call
  answer : Answer

namespace Job

/-- The result of the step by the method that queued it. -/
def expected (j : Job) : Except TypedError PipelineResult :=
  match j.step.method, j.answer.outcome with
  | .query, .complete described rows _ => .ok (.rows (typedRows (described.getD []) rows))
  | .query, .emptyQuery => .ok (.rows [])
  | .execute, .complete _ _ tag => .ok (.execute tag.affected)
  | .execute, .emptyQuery => .ok (.execute 0)
  | _, .refused _ e _ => .error (.wire (.pg e))

/-- The server refuses the step. -/
def isRefused (j : Job) : Bool :=
  match j.answer.outcome with
  | .refused _ _ _ => true
  | _ => false

/-- The response has the shape of one to the method: rows or an empty command for `query`, no rows
but a command for `execute`. -/
def HasShape (j : Job) : Prop :=
  match j.step.method, j.answer.outcome with
  | .query, .complete _ rows _ => rows ≠ []
  | .query, _ => True
  | .execute, .complete _ rows _ => rows = []
  | .execute, .emptyQuery => False
  | .execute, .refused _ _ _ => True

end Job

/-- The results of a pipeline with the given steps on a connection, to which the server gives the
given answers. -/
def pipelineResults (env : Env) (jobs : List Job) (c : Conn) :
    Except TypedError (List PipelineResult) :=
  let (p, c) := Pipeline.queue (jobs.map Job.step) Pipeline.empty c
  (p.results (env.answering c.sent.length (jobs.map Job.answer)) jobs.length c).1

/-! ### Command tags -/

theorem toDigit_of_isAlpha {c : Char} (h : c.isAlpha = true) :
    Rust.toDigit 10 c = none ∧ c ≠ '+' := by
  have hrange : 65 ≤ c.toNat ∧ c.toNat ≤ 90 ∨ 97 ≤ c.toNat ∧ c.toNat ≤ 122 :=
    (Bool.or_eq_true_iff.mp h).imp Rust.isUpper_iff.mp Rust.isLower_iff.mp
  refine ⟨?_, ?_⟩
  · rw [Rust.toDigit]
    split_ifs <;> first | rfl | omega
  · rintro rfl
    exact absurd h (by decide)

theorem space_notMem_toDigits (n : ℕ) : ' ' ∉ Nat.toDigits 10 n := by
  intro h
  exact absurd (Nat.isDigit_of_mem_toDigits (by decide) (by decide) h) (by decide)

/-- **The count of a command tag.** -/
theorem parseRowCount_text (tag : CommandTag) : parseRowCount tag.text = tag.affected := by
  obtain ⟨command, count, words⟩ := tag
  cases count with
  | some n =>
    rw [parseRowCount, CommandTag.text, String.toList_ofList,
      Rust.rsplitOnce_append command (space_notMem_toDigits n.toNat), Option.bind_some,
      Rust.fromStrRadix_toDigits n.toNat_lt]
    rfl
  | none =>
    rw [parseRowCount, CommandTag.text, String.toList_ofList]
    cases hsplit : Rust.rsplitOnce ' ' command with
    | none => rfl
    | some p =>
      -- what is behind the last space has only letters
      obtain ⟨pre, post⟩ := p
      rw [Option.bind_some]
      cases post with
      | nil => rfl
      | cons c post =>
        obtain ⟨rfl, hspace⟩ := Rust.rsplitOnce_spec hsplit
        have hc : c ≠ ' ' := fun heq => hspace (heq ▸ List.mem_cons_self)
        have hword := (words rfl).2 c
          (List.mem_append_right _ (List.mem_cons_of_mem _ List.mem_cons_self))
        obtain ⟨hdigit, hplus⟩ := toDigit_of_isAlpha (hword.resolve_right hc)
        rw [Rust.fromStrRadix_eq_none List.mem_cons_self hdigit hplus]
        rfl

theorem isEmpty_text (tag : CommandTag) : tag.text.isEmpty = false := by
  rw [← Bool.not_eq_true, String.isEmpty_iff]
  intro h
  obtain ⟨command, count, words⟩ := tag
  cases count with
  | none =>
    have := congrArg String.toList h
    rw [CommandTag.text, String.toList_ofList] at this
    exact (words rfl).1 this
  | some n =>
    have := congrArg String.toList h
    rw [CommandTag.text, String.toList_ofList] at this
    exact absurd this (List.append_ne_nil_of_right_ne_nil _ (List.cons_ne_nil _ _))

/-! ### Responses -/

/-- What only acknowledges does not change the response. -/
theorem rowsResult_filter (fields : List FieldDescription) (rows : List RawRow)
    (commandTag : String) (msgs : List BackendMsg) :
    rowsResult fields rows commandTag msgs =
      rowsResult fields rows commandTag (msgs.filter isResult) := by
  induction msgs generalizing fields rows commandTag with
  | nil => rfl
  | cons m msgs ih =>
    cases m <;> first | exact ih _ _ _ | rfl

theorem rowsResult_dataRows (fields : List FieldDescription) (rows more : List RawRow)
    (commandTag : String) (msgs : List BackendMsg) :
    rowsResult fields rows commandTag (more.map .dataRow ++ msgs) =
      rowsResult fields (rows ++ more) commandTag msgs := by
  induction more generalizing rows with
  | nil => rw [List.append_nil, List.map_nil, List.nil_append]
  | cons row more ih =>
    rw [List.map_cons, List.cons_append, rowsResult, ih, List.append_assoc, List.singleton_append]

theorem rowsResult_error (fields : List FieldDescription) (rows : List RawRow)
    (commandTag : String) {before : List BackendMsg} (h : ∀ m ∈ before, m.isError = false)
    (e : PgError) :
    rowsResult fields rows commandTag (before ++ [.errorResponse e]) = .error (.pg e) := by
  induction before generalizing fields rows commandTag with
  | nil => rfl
  | cons m before ih =>
    rw [List.forall_mem_cons] at h
    cases m with
    | errorResponse e' => cases h.1
    | _ => exact ih _ _ _ h.2

/-- The response to a step. -/
def StepOutcome.response : StepOutcome → Outcome
  | complete described rows tag => .ok (.rows (described.getD []) rows tag.text)
  | emptyQuery => .ok (.rows [] [] "")
  | refused _ e _ => .error (.pg e)

theorem rowsResult_messages (o : StepOutcome) : rowsResult [] [] "" o.messages = o.response := by
  cases o with
  | complete described rows tag =>
    cases described with
    | none => exact rowsResult_dataRows [] [] rows "" _
    | some fields => exact rowsResult_dataRows fields [] rows "" _
  | emptyQuery => rfl
  | refused before e plain =>
    exact rowsResult_error [] [] "" (fun m hm => (plain m (List.mem_of_mem_filter hm)).1) e

theorem not_isReady_of_mem_messages {o : StepOutcome} {m : BackendMsg} (hm : m ∈ o.messages) :
    m.isReady = false := by
  cases o with
  | complete described rows tag =>
    simp only [StepOutcome.messages, List.cons_append, List.mem_cons, List.mem_append,
      List.mem_map, List.not_mem_nil, or_false] at hm
    rcases hm with rfl | ⟨row, -, rfl⟩ | rfl
    · cases described <;> rfl
    · rfl
    · rfl
  | emptyQuery =>
    simp only [StepOutcome.messages, List.mem_cons, List.not_mem_nil, or_false] at hm
    rcases hm with rfl | rfl <;> rfl
  | refused before e plain =>
    rcases List.mem_append.mp hm with hm | hm
    · exact (plain m (List.mem_of_mem_filter hm)).2
    · rw [List.mem_singleton.mp hm]
      rfl

/-- What the collector makes of the answer. -/
theorem await_input (a : Answer) :
    Collect.await ((Collect.init .rows).run a.input) = a.outcome.response := by
  have hready : ∀ m ∈ a.msgs, m.isReady = false := by
    intro m hm
    by_cases hresult : isResult m = true
    · exact not_isReady_of_mem_messages (a.messages_eq ▸ List.mem_filter.mpr ⟨hm, hresult⟩)
    · cases m <;> first | rfl | exact absurd rfl hresult
  have hgroup := responseGroup_append (r := .readyForQuery a.status) rfl hready []
  rw [Collect.init, Collect.rows_run, Answer.input, hgroup]
  change rowsResult [] [] "" a.msgs = _
  rw [rowsResult_filter, a.messages_eq, rowsResult_messages]

/-! ### The run -/

theorem queue_spec (steps : List Call) (p : Pipeline) (c : Conn) :
    (Pipeline.queue steps p c).1.buffers.length = p.buffers.length + steps.length ∧
      (Pipeline.queue steps p c).2.sent = c.sent := by
  induction steps generalizing p c with
  | nil => exact ⟨rfl, rfl⟩
  | cons step steps ih =>
    obtain ⟨method, sql, params⟩ := step
    have hencode : (p.encodeQuery sql params c).1.buffers.length = p.buffers.length + 1 ∧
        (p.encodeQuery sql params c).2.sent = c.sent :=
      ⟨List.length_append, rfl⟩
    have hrest := ih (p.encodeQuery sql params c).1 (p.encodeQuery sql params c).2
    rw [hencode.1, hencode.2, Nat.add_assoc, Nat.add_comm 1] at hrest
    cases method <;> exact hrest

/-- What `run` makes of the answer to a step. -/
def Job.got (j : Job) : Except TypedError PipelineResult :=
  match j.answer.outcome.response with
  | .error e => .error (.wire e)
  | .ok resp => .ok (typedResult resp)

theorem answering_reply (env : Env) (n : ℕ) {answers : List Answer} {i : ℕ} {a : Answer}
    (h : answers[i]? = some a) : (env.answering n answers).reply (n + i) = a.outcome.response := by
  have hreply : (env.answering n answers).reply (n + i) =
      Collect.await ((Collect.init .rows).run a.input) := by
    simp only [Env.answering, Nat.add_sub_cancel_left, h, if_pos (Nat.le_add_right n i)]
  rw [hreply, await_input]

/-- The responses, the first error among them in front. -/
theorem mapM_responses (jobs : List Job) :
    (match (jobs.map fun j => j.answer.outcome.response).mapM id with
      | .error e => .error (TypedError.wire e)
      | .ok responses => .ok (responses.map typedResult)) = jobs.mapM Job.got := by
  induction jobs with
  | nil => rfl
  | cons j jobs ih =>
    rw [List.map_cons, List.mapM_cons, List.mapM_cons, ← ih, Job.got]
    cases j.answer.outcome.response with
    | error e => rfl
    | ok resp => cases (jobs.map fun j => j.answer.outcome.response).mapM id <;> rfl

/-- **The run** gives the first error, or what is made of the answers in their order. -/
theorem pipelineResults_eq (env : Env) (jobs : List Job) (c : Conn) :
    pipelineResults env jobs c = jobs.mapM Job.got := by
  obtain ⟨hlen, hsent⟩ := queue_spec (jobs.map Job.step) Pipeline.empty c
  rw [pipelineResults]
  generalize Pipeline.queue (jobs.map Job.step) Pipeline.empty c = queued at hlen hsent
  obtain ⟨p, c'⟩ := queued
  dsimp only at hlen hsent ⊢
  rw [Pipeline.empty, List.length_nil, Nat.zero_add, List.length_map] at hlen
  have hreplies : ((List.range p.buffers.length).map fun i =>
      (env.answering c'.sent.length (jobs.map Job.answer)).reply (c'.sent.length + i)) =
        jobs.map fun j => j.answer.outcome.response := by
    rw [hlen]
    refine List.ext_getElem (by simp) fun i hi hi' => ?_
    rw [List.length_map] at hi'
    rw [List.getElem_map, List.getElem_map, List.getElem_range]
    refine answering_reply env c'.sent.length ?_
    rw [List.getElem?_map, List.getElem?_eq_getElem hi']
    rfl
  rw [Pipeline.results]
  cases jobs with
  | nil =>
    have hempty : p.buffers.isEmpty = true := List.isEmpty_iff.mpr (List.length_eq_zero_iff.mp hlen)
    rw [Pipeline.run, if_pos hempty]
    rfl
  | cons j jobs =>
    have hne : p.buffers.isEmpty = false := by
      rw [List.isEmpty_eq_false_iff]
      intro hnil
      rw [hnil] at hlen
      cases hlen
    rw [run_queued hne hlen.le, hreplies, ← mapM_responses]
    cases ((j :: jobs).map fun j => j.answer.outcome.response).mapM id <;> rfl

theorem got_eq_expected_iff (j : Job) : j.got = j.expected ↔ j.HasShape := by
  obtain ⟨⟨method, sql, params⟩, ⟨outcome, msgs, status, hmsgs⟩⟩ := j
  cases outcome with
  | complete described rows tag =>
    have htag := isEmpty_text tag
    cases rows with
    | nil => cases method <;> simp [Job.got, Job.expected, Job.HasShape, StepOutcome.response,
        typedResult, htag, parseRowCount_text]
    | cons row rows => cases method <;> simp [Job.got, Job.expected, Job.HasShape,
        StepOutcome.response, typedResult]
  | emptyQuery => cases method <;> simp [Job.got, Job.expected, Job.HasShape,
      StepOutcome.response, typedResult, typedRows]
  | refused before e plain =>
    cases method <;> exact iff_of_true rfl trivial

section

variable {α β ε : Type} {f g : α → Except ε β} {failed : α → Bool}
  (hfail : ∀ a, failed a = true → ∃ e, f a = .error e ∧ g a = .error e)
  (hok : ∀ a, failed a = false → ∃ b b', f a = .ok b ∧ g a = .ok b')
include hfail hok

/-- Two loops whose passes fail for the same reasons: both fail with the error of the first pass
that does, or both collect what their passes return. -/
theorem mapM_cases (l : List α) :
    (∃ a ∈ l, failed a = true) ∧ (∃ e, l.mapM f = .error e ∧ l.mapM g = .error e) ∨
      (∀ a ∈ l, failed a = false) ∧ ∃ bs bs', l.mapM f = .ok bs ∧ l.mapM g = .ok bs' ∧
        (bs = bs' ↔ ∀ a ∈ l, f a = g a) := by
  induction l with
  | nil =>
    have hnil : ∀ {P : α → Prop}, ∀ a ∈ ([] : List α), P a := fun a ha => absurd ha List.not_mem_nil
    exact .inr ⟨hnil, [], [], rfl, rfl, iff_of_true rfl hnil⟩
  | cons a l ih =>
    rw [List.mapM_cons, List.mapM_cons]
    cases ha : failed a with
    | true =>
      obtain ⟨e, hf, hg⟩ := hfail a ha
      exact .inl ⟨⟨a, List.mem_cons_self, ha⟩, e, by rw [hf]; rfl, by rw [hg]; rfl⟩
    | false =>
      obtain ⟨b, b', hf, hg⟩ := hok a ha
      rw [hf, hg]
      obtain ⟨⟨x, hx, hxfailed⟩, e, he, he'⟩ | ⟨hall, bs, bs', hbs, hbs', hiff⟩ := ih
      · exact .inl ⟨⟨x, List.mem_cons_of_mem a hx, hxfailed⟩, e, by rw [he]; rfl, by rw [he']; rfl⟩
      · refine .inr ⟨List.forall_mem_cons.mpr ⟨ha, hall⟩, b :: bs, b' :: bs', by rw [hbs]; rfl,
          by rw [hbs']; rfl, ?_⟩
        rw [List.forall_mem_cons, hf, hg, List.cons.injEq, hiff, Except.ok.injEq]

theorem mapM_eq_iff (l : List α) :
    l.mapM f = l.mapM g ↔ (∃ a ∈ l, failed a = true) ∨ ∀ a ∈ l, f a = g a := by
  obtain ⟨hfailed, e, hf, hg⟩ | ⟨hall, bs, bs', hf, hg, hiff⟩ := mapM_cases hfail hok l
  · exact iff_of_true (hf.trans hg.symm) (.inl hfailed)
  · have hnone : ¬∃ a ∈ l, failed a = true := by
      rintro ⟨a, ha, hafailed⟩
      rw [hall a ha] at hafailed
      cases hafailed
    rw [hf, hg, Except.ok.injEq, or_iff_right hnone, hiff]

end

/-- **The runs whose results are those of their steps**: those in which a step is refused, so that
its error is returned, and those in which every response has the shape of one to the method that
queued the step. -/
theorem run_eq_expected_iff (env : Env) (jobs : List Job) (c : Conn) :
    pipelineResults env jobs c = jobs.mapM Job.expected ↔
      (∃ j ∈ jobs, j.isRefused = true) ∨ ∀ j ∈ jobs, j.HasShape := by
  have hfail : ∀ j : Job, j.isRefused = true →
      ∃ e, j.got = .error e ∧ j.expected = .error e := by
    rintro ⟨⟨method, sql, params⟩, ⟨outcome, msgs, status, hmsgs⟩⟩ h
    cases outcome with
    | complete described rows tag => cases h
    | emptyQuery => cases h
    | refused before e plain => exact ⟨.wire (.pg e), rfl, by cases method <;> rfl⟩
  have hok : ∀ j : Job, j.isRefused = false →
      ∃ r r', j.got = .ok r ∧ j.expected = .ok r' := by
    rintro ⟨⟨method, sql, params⟩, ⟨outcome, msgs, status, hmsgs⟩⟩ h
    cases outcome with
    | complete described rows tag => cases method <;> exact ⟨_, _, rfl, rfl⟩
    | emptyQuery => cases method <;> exact ⟨_, _, rfl, rfl⟩
    | refused before e plain => cases h
  rw [pipelineResults_eq, mapM_eq_iff hfail hok]
  exact or_congr_right (forall₂_congr fun j _ => got_eq_expected_iff j)

/-- The answer to a `SELECT` that finds nothing. -/
def emptySelect : Answer where
  outcome := .complete (some [⟨"id", 16384, 1, 23, 4, -1, .binary⟩]) []
    ⟨['S', 'E', 'L', 'E', 'C', 'T'], some 0, fun h => (by cases h)⟩
  msgs := [.parseComplete, .bindComplete,
    .rowDescription [⟨"id", 16384, 1, 23, 4, -1, .binary⟩], .commandComplete "SELECT 0"]
  status := byte 'I'
  messages_eq := by decide

/-- A query that finds nothing has a row count for its result, not rows. -/
theorem pipelineResults_emptySelect :
    let job : Job := ⟨⟨.query, "SELECT id FROM t WHERE false", []⟩, emptySelect⟩
    pipelineResults ⟨fun _ => .error .connectionClosed, fun _ => false⟩ [job] Conn.new =
        .ok [.execute 0] ∧
      [job].mapM Job.expected = .ok [.rows []] := by
  intro job
  rw [pipelineResults_eq]
  exact ⟨rfl, rfl⟩

end Resolute.Prepared
