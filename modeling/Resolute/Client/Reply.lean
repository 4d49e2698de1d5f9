import Resolute.Client.Basic

/-!
# What `Ok` says about the server's replies

The calls that send simple queries, run against an arbitrary stream of replies (`scriptLink`): any
messages, and errors of `read_msg`, in any order.  A simple query is collected by
`drain_until_ready`, which reports success for every group that is complete, so an `ErrorResponse`
and the verdict on a `COMMIT` do not reach the caller.

A call is sound if `Ok` means that no statement of the call was refused, and that the transaction
was committed (`SimpleQuerySound`, `CommitSound`, `BracketSound`).  `ok_sound_iff` says on which
replies they are.
-/

namespace Resolute

/-- A connection whose server sends the given input, whatever it is asked. -/
def scriptLink {α : Type} : Link α (List ReadResult) where
  submit _ collector script :=
    match (Collect.init collector).run script with
    | some (res, rest) => (res, rest)
    | none => (.error .connectionClosed, [])
  markStateMutated := id

section

variable {α T : Type}

/-- `Client::simple_query` succeeds whenever the group of its answer is complete. -/
theorem simpleQuery_script (sql : Sql α) (p : Proc (List ReadResult)) :
    Client.simpleQuery scriptLink sql p =
      match responseGroup p.conn with
      | some (.ok _, rest) => (.ok (), { p with conn := rest })
      | some (.error e, rest) => (.error (.wire e), { p with conn := rest })
      | none => (.error (.wire .connectionClosed), { p with conn := [] }) := by
  simp only [Client.simpleQuery, Call.bind_eq, submit, scriptLink, Collect.init, Collect.drain_run]
  rcases responseGroup p.conn with _ | ⟨_ | _, _⟩ <;> rfl

theorem simpleQuery_script_ok_iff {sql : Sql α} {p p' : Proc (List ReadResult)} :
    Client.simpleQuery scriptLink sql p = (.ok (), p') ↔
      ∃ msgs rest, responseGroup p.conn = some (.ok msgs, rest) ∧ { p with conn := rest } = p' := by
  rw [simpleQuery_script]
  rcases responseGroup p.conn with _ | ⟨_ | _, _⟩ <;> simp

/-- A call that brackets its closure returns `Ok` whenever the closure does and the groups of the
two commands are complete. -/
theorem bracket_script_ok_iff {opening closing undoing : Sql α}
    {f : Call (Proc (List ReadResult)) T} {p p' : Proc (List ReadResult)} {v : T} :
    bracket (Client.simpleQuery scriptLink opening) (Client.simpleQuery scriptLink closing)
        (Client.simpleQuery scriptLink undoing) f p = (.ok v, p') ↔
      ∃ msgs rest q msgs' rest', responseGroup p.conn = some (.ok msgs, rest) ∧
        f { p with conn := rest } = (.ok v, q) ∧
        responseGroup q.conn = some (.ok msgs', rest') ∧ { q with conn := rest' } = p' := by
  simp only [bracket, Call.bind_eq, Call.attempt]
  constructor
  · intro h
    rcases hopen : Client.simpleQuery scriptLink opening p with ⟨e | u, p₁⟩ <;>
      simp only [hopen, Prod.mk.injEq, reduceCtorEq, false_and] at h
    obtain ⟨msgs, rest, hgroup, rfl⟩ := simpleQuery_script_ok_iff.1 hopen
    rcases hf : f { p with conn := rest } with ⟨e | w, q⟩ <;> simp only [hf] at h
    · rcases hu : (Client.simpleQuery scriptLink undoing).logged q with ⟨_ | _, _⟩ <;>
        simp [hu] at h
    · rcases hclose : Client.simpleQuery scriptLink closing q with ⟨e | u, p₂⟩ <;>
        simp only [hclose, Prod.mk.injEq, reduceCtorEq, false_and, Call.pure_apply,
          Except.ok.injEq] at h
      obtain ⟨rfl, rfl⟩ := h
      obtain ⟨msgs', rest', hgroup', hp'⟩ := simpleQuery_script_ok_iff.1 hclose
      exact ⟨msgs, rest, q, msgs', rest', hgroup, hf, hgroup', hp'⟩
  · rintro ⟨msgs, rest, q, msgs', rest', hgroup, hf, hgroup', rfl⟩
    simp [simpleQuery_script, hgroup, hf, hgroup']

/-- A simple query is sound: `Ok` only if it was not refused. -/
def SimpleQuerySound (sql : Sql α) (p : Proc (List ReadResult)) : Prop :=
  ∀ p', Client.simpleQuery scriptLink sql p = (.ok (), p') →
    ∃ msgs, responseGroup p.conn = some (.ok msgs, p'.conn) ∧ errorFree msgs = true

/-- `Transaction::commit` is sound: `Ok` only if the transaction was committed. -/
def CommitSound (α : Type) (p : Proc (List ReadResult)) : Prop :=
  ∀ p', Transaction.commit (scriptLink (α := α)) p = (.ok (), p') →
    ∃ msgs, responseGroup p.conn = some (.ok msgs, p'.conn) ∧ committed msgs = true

/-- A call that brackets the closure `f` by `BEGIN` and `COMMIT` is sound: `Ok` only if `BEGIN` was
not refused, the closure returned `Ok`, and the transaction was committed. -/
def BracketSound (call : Call (Proc (List ReadResult)) T → Call (Proc (List ReadResult)) T)
    (f : Call (Proc (List ReadResult)) T) (p : Proc (List ReadResult)) : Prop :=
  ∀ v p', call f p = (.ok v, p') →
    ∃ msgs rest q msgs', responseGroup p.conn = some (.ok msgs, rest) ∧ errorFree msgs = true ∧
      f { p with conn := rest } = (.ok v, q) ∧
      responseGroup q.conn = some (.ok msgs', p'.conn) ∧ committed msgs' = true

/-- The next group of the input satisfies `P`, if it is complete. -/
def NextGroup (P : List BackendMsg → Prop) (rs : List ReadResult) : Prop :=
  ∀ msgs rest, responseGroup rs = some (.ok msgs, rest) → P msgs

/-- The groups of `BEGIN` and of the `COMMIT` after the closure satisfy `P` and `Q`, if the call
gets as far as that. -/
def BracketGroups (P Q : List BackendMsg → Prop) (f : Call (Proc (List ReadResult)) T)
    (p : Proc (List ReadResult)) : Prop :=
  ∀ msgs rest v q msgs' rest', responseGroup p.conn = some (.ok msgs, rest) →
    f { p with conn := rest } = (.ok v, q) → responseGroup q.conn = some (.ok msgs', rest') →
    P msgs ∧ Q msgs'

theorem bracketSound_iff {call : Call (Proc (List ReadResult)) T → Call (Proc (List ReadResult)) T}
    (hcall : ∀ f, call f = bracket (Client.simpleQuery scriptLink (.begin : Sql α))
      (Client.simpleQuery scriptLink (.commit : Sql α))
      (Client.simpleQuery scriptLink (.rollback : Sql α)) f)
    (f : Call (Proc (List ReadResult)) T) (p : Proc (List ReadResult)) :
    BracketSound call f p ↔
      BracketGroups (fun msgs => errorFree msgs = true) (fun msgs => committed msgs = true)
        f p := by
  simp only [BracketSound, BracketGroups, hcall, bracket_script_ok_iff]
  constructor
  · intro h msgs rest v q msgs' rest' hgroup hf hgroup'
    obtain ⟨ms, r, q', ms', hg, hok, hf', hg', hok'⟩ :=
      h v _ ⟨msgs, rest, q, msgs', rest', hgroup, hf, hgroup', rfl⟩
    simp_all
  · rintro h v p' ⟨msgs, rest, q, msgs', rest', hgroup, hf, hgroup', rfl⟩
    obtain ⟨hok, hok'⟩ := h msgs rest v q msgs' rest' hgroup hf hgroup'
    exact ⟨msgs, rest, q, msgs', hgroup, hok, hf, hgroup', hok'⟩

/-- **On which replies `Ok` means that it happened.**  A complete group counts as success, so the
calls are sound exactly when every group they wait for breaks off or reports what was asked. -/
theorem ok_sound_iff (sql : Sql α) (f : Call (Proc (List ReadResult)) T)
    (p : Proc (List ReadResult)) :
    (SimpleQuerySound sql p ↔ NextGroup (fun msgs => errorFree msgs = true) p.conn) ∧
    (CommitSound α p ↔ NextGroup (fun msgs => committed msgs = true) p.conn) ∧
    (BracketSound (Client.atomic (scriptLink (α := α))) f p ↔
      BracketGroups (fun msgs => errorFree msgs = true) (fun msgs => committed msgs = true) f p) ∧
    (BracketSound (Client.withTransaction (scriptLink (α := α))) f p ↔
      BracketGroups (fun msgs => errorFree msgs = true) (fun msgs => committed msgs = true)
        f p) := by
  refine ⟨?_, ?_, bracketSound_iff (fun _ => rfl) f p, bracketSound_iff (fun _ => rfl) f p⟩ <;>
    simp only [SimpleQuerySound, CommitSound, Transaction.commit, NextGroup,
      simpleQuery_script_ok_iff]
  all_goals
    constructor
    · intro h msgs rest hgroup
      obtain ⟨ms, hg, hok⟩ := h _ ⟨msgs, rest, hgroup, rfl⟩
      simp_all
    · rintro h p' ⟨msgs, rest, hgroup, rfl⟩
      exact ⟨msgs, hgroup, h msgs rest hgroup⟩

end

/-- A deferred constraint rejects a `COMMIT`: the server answers with an error, the transaction is
rolled back, and `commit` returns `Ok`. -/
theorem rejected_commit_ok :
    ¬ CommitSound Unit ⟨0, [.ok (.errorResponse { code := "23503" }),
      .ok (.readyForQuery (byte 'I'))]⟩ := fun h => by
  obtain ⟨msgs, hgroup, hok⟩ := h ⟨0, []⟩ rfl
  obtain rfl : msgs = [.errorResponse { code := "23503" }] := by
    simpa [responseGroup, BackendMsg.isReady, Except.map] using hgroup.symm
  simp [committed, errorFree, BackendMsg.isError] at hok

end Resolute
