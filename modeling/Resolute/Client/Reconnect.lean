import Resolute.Client.Faults

/-!
# The reconnecting client

`ReconnectingClient` holds a `Client` that it can replace.  When `query` or `execute` fails with a
connection error it means to reconnect and to run the statement once more on the new connection.
But the errors of `Client::query` and `Client::execute` arrive wrapped in `QueryFailed`, by
`with_sql`, and `is_connection_error` looks for `Wire` only.  So the statement is not run again and
the client is never replaced (`resilient_eq`).

What would be unsafe about the second attempt therefore does no harm.  A statement whose response
was lost is not repeated: a call of `execute` applies its statement at most once
(`execute_at_most_once`).  The statements of an `atomic` call stay on the connection of its `BEGIN`,
and their effects become durable all together or not at all (`atomic_allOrNothing`), whatever the
faults, if the closure does not call `atomic` in its turn.  A `Closure` can: then the inner `COMMIT`
ends the transaction of the outer call.
-/

namespace Resolute.Reconnect

open Faults

variable {ε T : Type}

/-- A statement of the caller. -/
structure Statement (ε : Type) where
  sql : String
  effect : ε

/-- What a `ReconnectingClient` acts on. -/
structure World (ε : Type) where
  /-- The connections by their numbers; those from `count` on are not made yet. -/
  conns : ℕ → Connection ε
  count : ℕ
  /-- The connection of the `Client` in the `ArcSwap`. -/
  current : ℕ
  clock : ℕ
  /-- The statements that a closure has run on the executor. -/
  issued : List ε

/-- All that is outside of the client: the fate of each request, and what `connect_with_init`
returns. -/
structure Schedule (ε : Type) where
  fate : ℕ → Fate
  connect : ℕ → Except TypedError (Connection ε)

namespace World

/-- A request on connection `i`. -/
def request (S : Schedule ε) (i : ℕ) (sql : Sql ε) (collector : ResponseCollector) (w : World ε) :
    Outcome × World ε :=
  let (res, conn) := (w.conns i).request (S.fate w.clock) sql collector
  (res, { w with conns := Function.update w.conns i conn, clock := w.clock + 1 })

/-- A new connection is made, and its client stored. -/
def store (conn : Connection ε) (w : World ε) : World ε := { w with
  conns := Function.update w.conns w.count conn,
  count := w.count + 1,
  current := w.count,
  clock := w.clock + 1 }

end World

/-- The `Client` of connection `i`. -/
def link (S : Schedule ε) (i : ℕ) : Link ε (World ε) where
  submit := World.request S i
  markStateMutated := id

/-- The longest prefix of at most `n` bytes. -/
def takeBytes : ℕ → List Char → List Char
  | _, [] => []
  | n, c :: cs => if c.utf8Size ≤ n then c :: takeBytes (n - c.utf8Size) cs else []

/-- `with_sql`.  (Where byte 200 is inside of a character the source panics.) -/
def withSql (sql : String) (e : TypedError) : TypedError :=
  let truncated :=
    if 200 < sql.utf8ByteSize then String.ofList (takeBytes 200 sql.toList) ++ "..." else sql
  .queryFailed e truncated

def isStaleStatementError : TypedError → Bool
  | .wire e => e.isStale
  | _ => false

def isConnectionError : TypedError → Bool
  | .wire (.ioError _ _) | .wire .connectionClosed => true
  | _ => false

/-- `map_err`. -/
def mapErr {σ α : Type} (c : Call σ α) (f : TypedError → TypedError) : Call σ α := fun s =>
  match c s with
  | (.ok a, s') => (.ok a, s')
  | (.error e, s') => (.error (f e), s')

namespace Client

/-- The common part of `Client::query` and `Client::execute`: a statement that the server no longer
knows is prepared again, once.  `inner` is the request of `query_inner` or `execute_inner`. -/
def retrying (sql : String) (inner : Call (Proc (World ε)) PipelineResponse) :
    Call (Proc (World ε)) PipelineResponse :=
  mapErr (inner.attempt pure fun e => if isStaleStatementError e then inner else Call.fail e)
    (withSql sql)

/-- `Client::query`, up to the decoding of the rows. -/
def query (L : Link ε (World ε)) (st : Statement ε) : Call (Proc (World ε)) PipelineResponse :=
  retrying st.sql (submit L (.stmt st.effect) .rows)

/-- `Client::execute`, up to the count in the command tag. -/
def execute (L : Link ε (World ε)) (st : Statement ε) : Call (Proc (World ε)) PipelineResponse :=
  retrying st.sql (submit L (.stmt st.effect) .rows)

/-- `Client::copy_in`. -/
def copyIn (L : Link ε (World ε)) (st : Statement ε) : Call (Proc (World ε)) PipelineResponse :=
  mapErr (submit L (.stmt st.effect) .copyIn) (withSql st.sql)

/-- `Client::copy_out`. -/
def copyOut (L : Link ε (World ε)) (st : Statement ε) : Call (Proc (World ε)) PipelineResponse :=
  mapErr (submit L (.stmt st.effect) .copyOut) (withSql st.sql)

end Client

/-- `ReconnectingClient::reconnect`. -/
def reconnect (S : Schedule ε) : Call (Proc (World ε)) Unit := fun p =>
  if (p.conn.conns p.conn.current).alive then (.ok (), p)
  else match S.connect p.conn.clock with
    | .error e => (.error e, { p with conn := { p.conn with clock := p.conn.clock + 1 } })
    | .ok conn => (.ok (), { p with conn := p.conn.store conn })

/-- The common part of `ReconnectingClient::query` and `execute`. -/
def resilient (S : Schedule ε)
    (call : Link ε (World ε) → Call (Proc (World ε)) PipelineResponse) :
    Call (Proc (World ε)) PipelineResponse := fun p =>
  (call (link S p.conn.current)).attempt pure
    (fun e =>
      if isConnectionError e then do
        reconnect S
        fun p => call (link S p.conn.current) p
      else Call.fail e) p

/-- `ReconnectingClient::query`. -/
def query (S : Schedule ε) (st : Statement ε) : Call (Proc (World ε)) PipelineResponse :=
  resilient S fun L => Client.query L st

/-- `ReconnectingClient::execute`. -/
def execute (S : Schedule ε) (st : Statement ε) : Call (Proc (World ε)) PipelineResponse :=
  resilient S fun L => Client.execute L st

/-- `Executor::copy_in` of a `ReconnectingClient`. -/
def copyIn (S : Schedule ε) (st : Statement ε) : Call (Proc (World ε)) PipelineResponse :=
  fun p => Client.copyIn (link S p.conn.current) st p

/-- `Executor::copy_out` of a `ReconnectingClient`. -/
def copyOut (S : Schedule ε) (st : Statement ε) : Call (Proc (World ε)) PipelineResponse :=
  fun p => Client.copyOut (link S p.conn.current) st p

/-- The methods of `Executor` that run a statement. -/
inductive Method where
  | query
  | execute
  | copyIn
  | copyOut
  deriving DecidableEq, Repr

def Method.call (S : Schedule ε) :
    Method → Statement ε → Call (Proc (World ε)) PipelineResponse
  | query => Reconnect.query S
  | execute => Reconnect.execute S
  | copyIn => Reconnect.copyIn S
  | copyOut => Reconnect.copyOut S

/-- `Executor::atomic` of a `ReconnectingClient`.  The closure is handed the `ReconnectingClient`
itself; `BEGIN`, `COMMIT` and `ROLLBACK` go through the client that was current at the start. -/
def atomic (S : Schedule ε) (f : Call (Proc (World ε)) T) : Call (Proc (World ε)) T := fun p =>
  let client := link S p.conn.current
  bracket (Client.simpleQuery client .begin) (Client.simpleQuery client .commit)
    (Client.simpleQuery client .rollback) f p

/-- What a closure does with the executor it is given: it returns; it runs a statement and goes on
as it likes after the result; or it calls `atomic` in its turn, with a closure that returns a value
of a type of its own. -/
inductive Closure (ε : Type) : Type → Type 1 where
  | ret {T : Type} (result : Except TypedError T) : Closure ε T
  | run {T : Type} (method : Method) (st : Statement ε)
      (next : Except TypedError PipelineResponse → Closure ε T) : Closure ε T
  | nested {T T' : Type} (inner : Closure ε T') (next : Except TypedError T' → Closure ε T) :
      Closure ε T

/-- The statement is noted. -/
def issue (a : ε) (p : Proc (World ε)) : Proc (World ε) :=
  { p with conn := { p.conn with issued := p.conn.issued ++ [a] } }

namespace Closure

def call {T : Type} (S : Schedule ε) : Closure ε T → Call (Proc (World ε)) T
  | ret result => fun p => (result, p)
  | run method st next => fun p =>
    let (result, p) := method.call S st (issue st.effect p)
    (next result).call S p
  | nested inner next => fun p =>
    let (result, p) := atomic S (inner.call S) p
    (next result).call S p

/-- The closure calls `atomic` when it is run in the state `p`. -/
def nests {T : Type} (S : Schedule ε) : Closure ε T → Proc (World ε) → Bool
  | ret _, _ => false
  | run method st next, p =>
    let (result, p) := method.call S st (issue st.effect p)
    (next result).nests S p
  | nested _ _, _ => true

end Closure

/-- The closure of an `atomic` call is run, and makes an `atomic` call of its own. -/
def nests (S : Schedule ε) (f : Closure ε T) (p : Proc (World ε)) : Bool :=
  match Client.simpleQuery (link S p.conn.current) .begin p with
  | (.ok _, p) => f.nests S p
  | (.error _, _) => false

section

variable {S : Schedule ε} {i j : ℕ} {sql : Sql ε} {collector : ResponseCollector} {a : ε}
  {w : World ε} {p p' : Proc (World ε)} {st : Statement ε}

/-! ### No method reconnects -/

theorem isConnectionError_withSql (text : String) (e : TypedError) :
    isConnectionError (withSql text e) = false := rfl

theorem mapErr_error {σ α : Type} {c : Call σ α} {f : TypedError → TypedError} {s : σ}
    {e : TypedError} (h : (mapErr c f s).1 = .error e) : ∃ e', e = f e' := by
  unfold mapErr at h
  split at h <;> cases h
  exact ⟨_, rfl⟩

theorem mapErr_snd {σ α : Type} (c : Call σ α) (f : TypedError → TypedError) (s : σ) :
    (mapErr c f s).2 = (c s).2 := by
  unfold mapErr
  split <;> simp_all

/-- **No method reconnects.**  The errors of the client are wrapped, so none of them counts as a
connection error. -/
theorem resilient_eq {call : Link ε (World ε) → Call (Proc (World ε)) PipelineResponse}
    (h : ∀ L p e, (call L p).1 = .error e → isConnectionError e = false) (p : Proc (World ε)) :
    resilient S call p = call (link S p.conn.current) p := by
  unfold resilient Call.attempt
  rcases hcall : call (link S p.conn.current) p with ⟨e | response, p'⟩
  · have he := h _ p e (by rw [hcall])
    simp [he]
  · rfl

theorem query_eq (S : Schedule ε) (st : Statement ε) (p : Proc (World ε)) :
    query S st p = Client.query (link S p.conn.current) st p :=
  resilient_eq (fun _ _ _ he => by
    obtain ⟨e, rfl⟩ := mapErr_error he
    exact isConnectionError_withSql _ e) p

theorem execute_eq (S : Schedule ε) (st : Statement ε) (p : Proc (World ε)) :
    execute S st p = Client.execute (link S p.conn.current) st p :=
  resilient_eq (fun _ _ _ he => by
    obtain ⟨e, rfl⟩ := mapErr_error he
    exact isConnectionError_withSql _ e) p

/-! ### Requests -/

theorem submit_conn : (submit (link S i) sql collector p).2.conn =
    (p.conn.request S i sql collector).2 := by
  unfold submit
  simp only [link]
  rcases p.conn.request S i sql collector with ⟨_ | _, _⟩ <;> rfl

theorem submit_error {e : TypedError} (h : (submit (link S i) sql collector p).1 = .error e) :
    ∃ e', e = .wire e' ∧ (p.conn.request S i sql collector).1 = .error e' := by
  unfold submit at h
  simp only [link] at h
  rcases hr : p.conn.request S i sql collector with ⟨e' | response, w'⟩
  · rw [hr] at h
    cases h
    exact ⟨e', rfl, rfl⟩
  · rw [hr] at h
    cases h

theorem simpleQuery_conn : (Client.simpleQuery (link S i) sql p).2.conn =
    (p.conn.request S i sql .drain).2 := by
  rw [← submit_conn, Client.simpleQuery, Call.bind_eq]
  rcases submit (link S i) sql .drain p with ⟨_ | _, _⟩ <;> rfl

/-- The requests of a call of `query` or `execute` : one, or a second one after the server has lost
the statement. -/
theorem retrying_conn (text : String) (p : Proc (World ε)) :
    let p' := (Client.retrying text (submit (link S i) (.stmt a) .rows) p).2
    p'.conn = (p.conn.request S i (.stmt a) .rows).2 ∨
      (∃ e, (p.conn.request S i (.stmt a) .rows).1 = .error e ∧ e.isStale = true) ∧
        p'.conn = ((p.conn.request S i (.stmt a) .rows).2.request S i (.stmt a) .rows).2 := by
  dsimp only
  rw [Client.retrying, mapErr_snd, Call.attempt]
  have hconn : (submit (link S i) (.stmt a) .rows p).2.conn =
    (p.conn.request S i (.stmt a) .rows).2 := submit_conn
  rcases hs : submit (link S i) (.stmt a) .rows p with ⟨e | response, p'⟩
  · rw [hs] at hconn
    dsimp only
    split_ifs with hstale
    · obtain ⟨e', rfl, he'⟩ := submit_error (e := e) (by rw [hs])
      exact .inr ⟨⟨e', he', hstale⟩, by rw [submit_conn, hconn]⟩
    · exact .inl hconn
  · rw [hs] at hconn
    exact .inl hconn

@[simp] theorem request_current : (w.request S i sql collector).2.current = w.current := rfl

@[simp] theorem request_issued : (w.request S i sql collector).2.issued = w.issued := rfl

@[simp] theorem request_conns_self : (w.request S i sql collector).2.conns i =
    ((w.conns i).request (S.fate w.clock) sql collector).2 :=
  Function.update_self ..

theorem request_conns_of_ne (h : j ≠ i) : (w.request S i sql collector).2.conns j = w.conns j :=
  Function.update_of_ne h ..

/-! ### At most once -/

/-- A statement that is executed is applied, or rejected. -/
theorem exec_statement_applied (b : Backend ε) (fails : Bool) :
    (b.exec (.statement a fails)).2.applied = b.applied ∨
      (b.exec (.statement a fails)).2.applied = b.applied ++ [a] ∧
        ∃ tag, (b.exec (.statement a fails)).1 = .complete tag := by
  unfold Backend.exec
  rcases b.session.exec (.statement a fails) with ⟨tag | code, session⟩
  · exact .inr ⟨rfl, tag, rfl⟩
  · exact .inl rfl

theorem request_applied (c : Connection ε) (fate : Fate) (n : ℕ) :
    ∃ m, ((c.request fate (.stmt a) .rows).2.after n).applied = (c.after m).applied ∨
      ((c.request fate (.stmt a) .rows).2.after n).applied = (c.after m).applied ++ [a] ∧
        ∃ tag, (c.settled.exec (decided fate.verdict (.stmt a))).1 = .complete tag := by
  obtain ⟨m, hm⟩ := after_settled c
  rcases request_after c fate (.stmt a) .rows n with h | ⟨-, h⟩
  · obtain ⟨k, hk⟩ := h
    exact ⟨k, .inl (by rw [hk])⟩
  · rw [h]
    refine ⟨m, ?_⟩
    rw [hm]
    exact exec_statement_applied c.settled fate.verdict.isSome

/-- The first attempt at a statement that is prepared again has not applied it. -/
theorem request_applied_of_isStale (c : Connection ε) (fate : Fate) {e : PgWireError}
    (h : (c.request fate (.stmt a) .rows).1 = .error e) (hstale : e.isStale = true) (n : ℕ) :
    ∃ m, ((c.request fate (.stmt a) .rows).2.after n).applied = (c.after m).applied := by
  obtain ⟨code, hcode⟩ := rejected_of_isStale h hstale
  obtain ⟨m, hm | ⟨-, tag, htag⟩⟩ := request_applied (a := a) c fate n
  · exact ⟨m, hm⟩
  · cases htag.symm.trans hcode

/-- **At most once.**  Whatever the faults, a call of `execute` makes no request but on the current
connection, and the server applies the statement there once more than without the call, or not; also
when it carries out requests after the call has returned. -/
theorem execute_at_most_once (S : Schedule ε) (st : Statement ε) (p : Proc (World ε)) :
    let w' := (execute S st p).2.conn
    (∀ j, j ≠ p.conn.current → w'.conns j = p.conn.conns j) ∧
      ∀ n, ∃ m, ((w'.conns p.conn.current).after n).applied =
          ((p.conn.conns p.conn.current).after m).applied ∨
        ((w'.conns p.conn.current).after n).applied =
          ((p.conn.conns p.conn.current).after m).applied ++ [st.effect] := by
  dsimp only
  rw [execute_eq]
  rcases retrying_conn (S := S) (i := p.conn.current) (a := st.effect) st.sql p with
    h | ⟨⟨e, he, hstale⟩, h⟩
  · refine ⟨fun j hj => ?_, fun n => ?_⟩
    · rw [Client.execute, h, request_conns_of_ne hj]
    · obtain ⟨m, hm⟩ := request_applied (a := st.effect) (p.conn.conns p.conn.current)
        (S.fate p.conn.clock) n
      rw [Client.execute, h, request_conns_self]
      exact ⟨m, hm.imp id And.left⟩
  · refine ⟨fun j hj => ?_, fun n => ?_⟩
    · rw [Client.execute, h, request_conns_of_ne hj, request_conns_of_ne hj]
    · -- the second attempt, after one that was rejected
      obtain ⟨k, hk⟩ := request_applied (a := st.effect)
        ((p.conn.request S p.conn.current (.stmt st.effect) .rows).2.conns p.conn.current)
        (S.fate (p.conn.request S p.conn.current (.stmt st.effect) .rows).2.clock) n
      obtain ⟨m, hm⟩ := request_applied_of_isStale (p.conn.conns p.conn.current)
        (S.fate p.conn.clock) he hstale k
      rw [Client.execute, h, request_conns_self]
      rw [request_conns_self] at hk ⊢
      rw [hm] at hk
      exact ⟨m, hk.imp id And.left⟩

/-! ### All or nothing -/

/-- The call has made nothing durable, and none of its statements was executed outside of a
transaction: the server's side shows what it can show without the call. -/
def Untouched (c₀ : Connection ε) (b : Backend ε) : Prop :=
  ∃ m, b.session.committed = (c₀.after m).session.committed ∧ b.alone = (c₀.after m).alone

/-- The effects that are pending when all requests under way are carried out; none, unless a
transaction was open before the call. -/
def pendingBefore (c₀ : Connection ε) : List ε :=
  (c₀.settled.session.tx.map Tx.pending).getD []

/-- The effects `es` are durable, and no statement of the call was executed outside of a
transaction. -/
def AllDurable (c₀ : Connection ε) (es : List ε) (b : Backend ε) : Prop :=
  b.session.committed = c₀.settled.session.committed ++ (pendingBefore c₀ ++ es) ∧
    b.alone = c₀.settled.alone

/-- The connection during the call: nothing is durable yet, and when all requests are carried out, a
transaction is open of which `P` holds. -/
structure Inside (c₀ c : Connection ε) (P : Tx ε → Prop) : Prop where
  untouched : ∀ n, Untouched c₀ (c.after n)
  opened : c.queue.isSome = true → ∃ t,
    c.settled.session = ⟨c₀.settled.session.committed, some t⟩ ∧
      c.settled.alone = c₀.settled.alone ∧ P t

/-- The transaction has failed, or holds the effects `es` of the call. -/
def Holds (c₀ : Connection ε) (es : List ε) (t : Tx ε) : Prop :=
  t.aborted = true ∨ t.pending = pendingBefore c₀ ++ es

/-- What a statement in an open transaction does. -/
theorem exec_statement_open {b : Backend ε} {committed : List ε} {t : Tx ε} (fails : Bool)
    (h : b.session = ⟨committed, some t⟩) :
    ∃ t', (b.exec (.statement a fails)).2.session = ⟨committed, some t'⟩ ∧
      (b.exec (.statement a fails)).2.alone = b.alone ∧
      (t'.aborted = true ∨ t.aborted = false ∧ t'.pending = t.pending ++ [a] ∧
        ∃ tag, (b.exec (.statement a fails)).1 = .complete tag) := by
  obtain ⟨aborted, pending, saves⟩ := t
  simp only [Backend.exec, h, Session.exec_open, Session.execTx]
  cases aborted <;> cases fails <;> simp [Tx.abort]

theorem untouched_settled (c : Connection ε) {b : Backend ε}
    (h : b.session.committed = c.settled.session.committed) (h' : b.alone = c.settled.alone) :
    Untouched c b := by
  obtain ⟨m, hm⟩ := after_settled c
  exact ⟨m, by rw [hm]; exact h, by rw [hm]; exact h'⟩

/-- `BEGIN` opens a transaction, unless one is open. -/
theorem inside_begin (c : Connection ε) (fate : Fate) :
    Inside c (c.request fate .begin .drain).2 (Holds c []) := by
  have hbegin : ∃ t, (c.settled.exec .begin).2.session = ⟨c.settled.session.committed, some t⟩ ∧
      (c.settled.exec .begin).2.alone = c.settled.alone ∧ Holds c [] t := by
    rcases hs : c.settled.session with ⟨committed, _ | t⟩
    · exact ⟨Tx.fresh, by simp [Backend.exec, hs, Session.execIdle], rfl,
        .inr (by simp [pendingBefore, hs, Tx.fresh])⟩
    · exact ⟨t, by simp [Backend.exec, hs, Session.execTx], rfl,
        .inr (by simp [pendingBefore, hs])⟩
  obtain ⟨t, hsession, halone, ht⟩ := hbegin
  refine ⟨fun n => ?_, fun hq => ?_⟩
  · rcases request_after c fate .begin .drain n with h | ⟨-, h⟩
    · obtain ⟨k, hk⟩ := h
      exact ⟨k, by rw [hk], by rw [hk]⟩
    · rw [h]
      exact untouched_settled c (by rw [decided, hsession]) halone
  · rw [(request_settled hq).2]
    exact ⟨t, hsession, halone, ht⟩

/-- A statement stays inside of the transaction. -/
theorem Inside.statement {c₀ c : Connection ε} {P Q : Tx ε → Prop} (hin : Inside c₀ c P)
    {fate : Fate} (hQ : ∀ t t' : Tx ε, P t → (t'.aborted = true ∨ t.aborted = false ∧
      t'.pending = t.pending ++ [a] ∧
        ∃ tag, (c.settled.exec (decided fate.verdict (.stmt a))).1 = .complete tag) → Q t') :
    Inside c₀ (c.request fate (.stmt a) collector).2 Q := by
  refine ⟨fun n => ?_, fun hq => ?_⟩
  · rcases request_after c fate (.stmt a) collector n with h | ⟨hq, h⟩
    · obtain ⟨k, hk⟩ := h
      rw [hk]
      exact hin.untouched k
    · obtain ⟨t, hsession, halone, -⟩ := hin.opened hq
      obtain ⟨t', hsession', halone', -⟩ :=
        exec_statement_open (a := a) fate.verdict.isSome hsession
      rw [h]
      exact untouched_settled c₀ (by rw [decided, hsession']) (halone'.trans halone)
  · obtain ⟨hq, hsettled⟩ := request_settled hq
    obtain ⟨t, hsession, halone, ht⟩ := hin.opened hq
    obtain ⟨t', hsession', halone', ht'⟩ :=
      exec_statement_open (a := a) fate.verdict.isSome hsession
    rw [hsettled]
    exact ⟨t', hsession', halone'.trans halone, hQ t t' ht ht'⟩

theorem Inside.mono {c₀ c : Connection ε} {P Q : Tx ε → Prop} (hin : Inside c₀ c P)
    (h : ∀ t, P t → Q t) : Inside c₀ c Q := by
  refine ⟨hin.untouched, fun hq => ?_⟩
  obtain ⟨t, hsession, halone, ht⟩ := hin.opened hq
  exact ⟨t, hsession, halone, h t ht⟩

theorem Inside.holds {c₀ c : Connection ε} {es : List ε} (hin : Inside c₀ c (Holds c₀ es))
    (fate : Fate) : Inside c₀ (c.request fate (.stmt a) collector).2 (Holds c₀ (es ++ [a])) := by
  refine hin.statement fun t t' ht ht' => ?_
  rcases ht' with ht' | ⟨hopen, hpending, -⟩
  · exact .inl ht'
  · rcases ht with ht | ht
    · rw [ht] at hopen
      cases hopen
    · exact .inr (by rw [hpending, ht, List.append_assoc])

/-- A statement that is prepared again inside of a transaction has made it fail. -/
theorem Inside.stale {c₀ c : Connection ε} {P : Tx ε → Prop} (hin : Inside c₀ c P) (fate : Fate)
    {e : PgWireError} (h : (c.request fate (.stmt a) .rows).1 = .error e)
    (hstale : e.isStale = true) :
    Inside c₀ (c.request fate (.stmt a) .rows).2 fun t => t.aborted = true := by
  obtain ⟨code, hcode⟩ := rejected_of_isStale h hstale
  refine hin.statement fun t t' _ ht' => ?_
  rcases ht' with ht' | ⟨-, -, tag, htag⟩
  · exact ht'
  · cases htag.symm.trans hcode

theorem Inside.aborted {c₀ c : Connection ε} (hin : Inside c₀ c fun t => t.aborted = true)
    (fate : Fate) :
    Inside c₀ (c.request fate (.stmt a) collector).2 fun t => t.aborted = true := by
  refine hin.statement fun t t' ht ht' => ?_
  rcases ht' with ht' | ⟨hopen, -⟩
  · exact ht'
  · rw [ht] at hopen
    cases hopen

/-- `COMMIT` makes all effects durable, or none. -/
theorem Inside.commit {c₀ c : Connection ε} {es : List ε} (hin : Inside c₀ c (Holds c₀ es))
    (fate : Fate) (n : ℕ) : Untouched c₀ ((c.request fate .commit .drain).2.after n) ∨
      AllDurable c₀ es ((c.request fate .commit .drain).2.after n) := by
  rcases request_after c fate .commit .drain n with h | ⟨hq, h⟩
  · obtain ⟨k, hk⟩ := h
    rw [hk]
    exact .inl (hin.untouched k)
  · obtain ⟨⟨aborted, pending, saves⟩, hsession, halone, ht⟩ := hin.opened hq
    rw [h, decided]
    cases aborted with
    | true => exact .inl (untouched_settled c₀
        (by simp [Backend.exec, hsession, Session.execTx]) halone)
    | false =>
      rcases ht with ht | ht
      · cases ht
      · exact .inr ⟨by simp [Backend.exec, hsession, Session.execTx, ← ht], halone⟩

theorem Inside.rollback {c₀ c : Connection ε} {P : Tx ε → Prop} (hin : Inside c₀ c P)
    (fate : Fate) (n : ℕ) : Untouched c₀ ((c.request fate .rollback .drain).2.after n) := by
  rcases request_after c fate .rollback .drain n with h | ⟨hq, h⟩
  · obtain ⟨k, hk⟩ := h
    rw [hk]
    exact hin.untouched k
  · obtain ⟨t, hsession, halone, -⟩ := hin.opened hq
    rw [h, decided]
    exact untouched_settled c₀ (by simp [Backend.exec, hsession, Session.execTx]) halone

/-- The state of the client between the `BEGIN` of a call that was made in `p₀`, and its end. -/
structure During (p₀ p : Proc (World ε)) (es : List ε) : Prop where
  current : p.conn.current = p₀.conn.current
  others : ∀ j, j ≠ p₀.conn.current → p.conn.conns j = p₀.conn.conns j
  issued : p.conn.issued = p₀.conn.issued ++ es
  inside : Inside (p₀.conn.conns p₀.conn.current) (p.conn.conns p₀.conn.current)
    (Holds (p₀.conn.conns p₀.conn.current) es)

theorem during_begin (S : Schedule ε) (p : Proc (World ε)) :
    During p (Client.simpleQuery (link S p.conn.current) .begin p).2 [] := by
  constructor <;> rw [simpleQuery_conn]
  · rfl
  · exact fun j hj => request_conns_of_ne hj
  · rw [request_issued, List.append_nil]
  · rw [request_conns_self]
    exact inside_begin _ _

/-- The request for a statement that was noted. -/
theorem During.request {p₀ p p' : Proc (World ε)} {es : List ε} (h : During p₀ p es)
    (hp' : p'.conn =
      ((issue a p).conn.request S p₀.conn.current (.stmt a) collector).2) :
    During p₀ p' (es ++ [a]) := by
  constructor <;> rw [hp']
  · exact h.current
  · exact fun j hj => (request_conns_of_ne hj).trans (h.others j hj)
  · rw [request_issued, issue, h.issued, List.append_assoc]
  · rw [request_conns_self]
    exact h.inside.holds _

/-- Two requests for it, the first of which has made the transaction fail. -/
theorem During.request_stale {p₀ p p' : Proc (World ε)} {es : List ε} (h : During p₀ p es)
    {e : PgWireError}
    (he : ((issue a p).conn.request S p₀.conn.current (.stmt a) .rows).1 = .error e)
    (hstale : e.isStale = true)
    (hp' : p'.conn = (((issue a p).conn.request S p₀.conn.current (.stmt a) .rows).2.request S
      p₀.conn.current (.stmt a) .rows).2) :
    During p₀ p' (es ++ [a]) := by
  constructor <;> rw [hp']
  · exact h.current
  · exact fun j hj => (request_conns_of_ne hj).trans
      ((request_conns_of_ne hj).trans (h.others j hj))
  · rw [request_issued, request_issued, issue, h.issued, List.append_assoc]
  · rw [request_conns_self, request_conns_self]
    exact ((h.inside.stale _ he hstale).aborted _).mono fun t ht => .inl ht

/-- A call of `query` or `execute`. -/
theorem During.retrying {p₀ p : Proc (World ε)} {es : List ε} (h : During p₀ p es)
    (text : String) : During p₀ (Client.retrying text
      (submit (link S p₀.conn.current) (.stmt a) .rows) (issue a p)).2 (es ++ [a]) := by
  rcases retrying_conn (S := S) (i := p₀.conn.current) (a := a) text (issue a p) with
    hone | ⟨⟨e, he, hstale⟩, htwo⟩
  · exact h.request hone
  · exact h.request_stale he hstale htwo

/-- A call of `copy_in` or `copy_out`. -/
theorem During.copy {p₀ p : Proc (World ε)} {es : List ε} (h : During p₀ p es) (text : String)
    (collector : ResponseCollector) : During p₀ (mapErr (submit (link S p₀.conn.current)
      (.stmt a) collector) (withSql text) (issue a p)).2 (es ++ [a]) :=
  h.request (by rw [mapErr_snd, submit_conn])

/-- A statement of the closure. -/
theorem During.statement {p₀ p : Proc (World ε)} {es : List ε} (h : During p₀ p es)
    (method : Method) (st : Statement ε) :
    During p₀ (method.call S st (issue st.effect p)).2 (es ++ [st.effect]) := by
  have hcurrent : (issue st.effect p).conn.current = p₀.conn.current := h.current
  cases method with
  | query =>
    rw [Method.call, query_eq, hcurrent]
    exact h.retrying st.sql
  | execute =>
    rw [Method.call, execute_eq, hcurrent]
    exact h.retrying st.sql
  | copyIn =>
    rw [Method.call, copyIn, hcurrent]
    exact h.copy st.sql .copyIn
  | copyOut =>
    rw [Method.call, copyOut, hcurrent]
    exact h.copy st.sql .copyOut

/-- A closure that makes no `atomic` call, by induction: each of its statements stays inside of the
transaction. -/
theorem During.closure {p₀ p : Proc (World ε)} {es : List ε} (h : During p₀ p es)
    (S : Schedule ε) (f : Closure ε T) (hn : f.nests S p = false) :
    ∃ es', During p₀ (f.call S p).2 es' := by
  induction f generalizing p es with
  | ret result => exact ⟨es, h⟩
  | run method st next ih => exact ih _ (h.statement method st) hn
  | nested inner next => cases hn

/-- `atomic` has returned `Ok`, or its closure has, and the outcome of `COMMIT` is unknown. -/
def MayCommit (S : Schedule ε) (f : Closure ε T) (p : Proc (World ε)) : Prop :=
  let client := link S p.conn.current
  let p₁ := (Client.simpleQuery client .begin p).2
  ∃ v, (f.call S p₁).1 = .ok v ∧ ((atomic S (f.call S) p).1 = .ok v ∨
    ∃ e, (Client.simpleQuery client .commit (f.call S p₁).2).1 = .error e ∧
      (atomic S (f.call S) p).1 = .error e)

/-- An `atomic` call is all or nothing: the client is not replaced, no other connection is touched,
and however many of the requests that are under way are carried out after the call has returned:
either the call has made nothing durable, or all statements that its closure has run are durable,
and then it has returned `Ok` or the outcome of its `COMMIT` is unknown.  In both cases none of the
statements was executed outside of a transaction. -/
def AllOrNothing (S : Schedule ε) (f : Closure ε T) (p : Proc (World ε)) : Prop :=
  let w := p.conn
  let w' := (atomic S (f.call S) p).2.conn
  ∃ es, (w'.current = w.current ∧ w'.issued = w.issued ++ es ∧
      ∀ j, j ≠ w.current → w'.conns j = w.conns j) ∧
    ∀ n, Untouched (w.conns w.current) ((w'.conns w.current).after n) ∨
      AllDurable (w.conns w.current) es ((w'.conns w.current).after n) ∧ MayCommit S f p

/-- The parts of an `atomic` call. -/
theorem atomic_eq (S : Schedule ε) (f : Call (Proc (World ε)) T) (p : Proc (World ε)) :
    atomic S f p = match Client.simpleQuery (link S p.conn.current) .begin p with
      | (.error e, p₁) => (.error e, p₁)
      | (.ok _, p₁) => match f p₁ with
        | (.error e, p₂) =>
          (.error e, (Client.simpleQuery (link S p.conn.current) .rollback p₂).2)
        | (.ok v, p₂) => match Client.simpleQuery (link S p.conn.current) .commit p₂ with
          | (.error e, p₃) => (.error e, p₃)
          | (.ok _, p₃) => (.ok v, p₃) := by
  simp only [atomic, bracket, Call.bind_eq]
  rcases Client.simpleQuery (link S p.conn.current) .begin p with ⟨e | u, p₁⟩
  · rfl
  · simp only [Call.attempt]
    rcases f p₁ with ⟨e | v, p₂⟩
    · simp only [Call.bind_eq, Call.logged, Call.attempt]
      rcases Client.simpleQuery (link S p.conn.current) .rollback p₂ with ⟨_ | _, _⟩ <;> rfl
    · simp only [Call.bind_eq]
      rcases Client.simpleQuery (link S p.conn.current) .commit p₂ with ⟨_ | _, _⟩ <;> rfl

/-- `COMMIT` and `ROLLBACK` touch no other connection, and run no statement of the closure. -/
theorem During.frame {p₀ p p' : Proc (World ε)} {es : List ε} (h : During p₀ p es)
    (hp' : p'.conn = (p.conn.request S p₀.conn.current sql collector).2) :
    p'.conn.current = p₀.conn.current ∧ p'.conn.issued = p₀.conn.issued ++ es ∧
      ∀ j, j ≠ p₀.conn.current → p'.conn.conns j = p₀.conn.conns j := by
  rw [hp']
  exact ⟨h.current, h.issued, fun j hj => (request_conns_of_ne hj).trans (h.others j hj)⟩

/-- **All or nothing.**  Whatever the closure does and whatever the faults, an `atomic` call whose
closure makes no `atomic` call of its own is all or nothing. -/
theorem atomic_allOrNothing (S : Schedule ε) (f : Closure ε T) (p : Proc (World ε))
    (h : nests S f p = false) : AllOrNothing S f p := by
  have hbegin := during_begin S p
  unfold nests at h
  unfold AllOrNothing MayCommit
  rw [atomic_eq]
  dsimp only
  rcases hb : Client.simpleQuery (link S p.conn.current) .begin p with ⟨e | u, p₁⟩ <;>
    rw [hb] at hbegin h
  · exact ⟨[], ⟨hbegin.current, hbegin.issued, hbegin.others⟩, fun n =>
      .inl (hbegin.inside.untouched n)⟩
  · obtain ⟨es, hduring⟩ := hbegin.closure S f h
    refine ⟨es, ?_⟩
    dsimp only at hduring ⊢
    rcases hf : f.call S p₁ with ⟨e | v, p₂⟩ <;> rw [hf] at hduring
    · -- `ROLLBACK`
      refine ⟨hduring.frame simpleQuery_conn, fun n => .inl ?_⟩
      dsimp only
      rw [simpleQuery_conn, request_conns_self]
      exact hduring.inside.rollback _ n
    · -- `COMMIT`, the outcome of which may be unknown
      have hconn : (Client.simpleQuery (link S p.conn.current) .commit p₂).2.conn =
        (p₂.conn.request S p.conn.current .commit .drain).2 := simpleQuery_conn
      dsimp only at hduring ⊢
      rcases hc : Client.simpleQuery (link S p.conn.current) .commit p₂ with ⟨e | u, p₃⟩ <;>
        rw [hc] at hconn <;> refine ⟨hduring.frame hconn, fun n => ?_⟩ <;>
        dsimp only at hconn ⊢ <;> rw [hconn, request_conns_self]
      · exact (hduring.inside.commit _ n).imp id fun h => ⟨h, v, rfl, .inr ⟨e, rfl, rfl⟩⟩
      · exact (hduring.inside.commit _ n).imp id fun h => ⟨h, v, rfl, .inl rfl⟩

end

/-- A new client, on a connection of its own. -/
def newClient : Proc (World ℕ) :=
  ⟨0, ⟨fun _ => ⟨⟨⟨[], none⟩, [], []⟩, some [], true⟩, 1, 0, 0, []⟩⟩

/-- Two statements, the second with the result of the first ignored. -/
def twoStatements : Closure ℕ Unit :=
  .run .execute ⟨"INSERT", 1⟩ fun _ => .run .query ⟨"UPDATE", 2⟩ fun _ => .ret (.ok ())

/-- The connection is lost with the response to the `k`-th request, which is carried out. -/
def losing (k : ℕ) : Schedule ℕ where
  fate n := if n = k then .unanswered none 1 .writerGone ⟨.connectionClosed, rfl⟩
    else .answered none [] .kept
  connect _ := .error (.config "")

theorem atomic_allOrNothing_lost_commit :
    (atomic (losing 3) (twoStatements.call (losing 3)) newClient).1 =
        .error (.wire .connectionClosed) ∧
      AllOrNothing (losing 3) twoStatements newClient :=
  ⟨by decide, atomic_allOrNothing _ _ _ (by decide)⟩

example :
    let (result, p) := atomic (losing 1) (twoStatements.call (losing 1)) newClient
    result = .error (.wire .connectionClosed) ∧
      ((p.conn.conns 0).after 0).session.committed = [] := by
  decide

/-- A statement, a nested call with another one, and a third; then the closure fails. -/
def nestedCall : Closure ℕ Unit :=
  .run .execute ⟨"INSERT", 1⟩ fun _ =>
    .nested (.run .execute ⟨"INSERT", 2⟩ fun _ => .ret (.ok ())) fun _ =>
      .run .execute ⟨"INSERT", 3⟩ fun _ => .ret (.error (.config "no items"))

/-- The `COMMIT` of a nested call makes the statements before it durable, the third statement is
executed outside of a transaction, and the outer call returns `Err`; without any fault. -/
theorem nestedCall_durable :
    let S : Schedule ℕ := ⟨fun _ => .answered none [] .kept, fun _ => .error (.config "")⟩
    (atomic S (nestedCall.call S) newClient).1 = .error (.config "no items") ∧
      ((atomic S (nestedCall.call S) newClient).2.conn.conns 0).backend.session.committed =
        [1, 2, 3] ∧
      ¬ AllOrNothing S nestedCall newClient := by
  refine ⟨by decide, by decide, ?_⟩
  rintro ⟨es, -, h⟩
  rcases h 0 with ⟨m, h, -⟩ | ⟨⟨-, h⟩, -⟩
  · -- nothing was durable before
    have hbefore : ((newClient.conn.conns newClient.conn.current).after m).session.committed = [] :=
      by simp [Connection.after, newClient, Backend.carryOut]
    rw [hbefore] at h
    exact absurd h (by decide)
  · -- the third statement was executed outside of a transaction
    exact absurd h (by decide)

end Resolute.Reconnect
