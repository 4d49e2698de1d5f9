import Resolute.Client.Atomic
import Resolute.Conn.Pipelined
import Resolute.Conn.Tasks
import Resolute.Wire.Read

/-!
# Connections that are lost

The connections of a client to a server that follows the transaction rules, when a connection may be
lost at any time.  The server carries out the requests of a connection in order.  It may carry out a
request whose response never arrives, also after the client has given up waiting for the response; a
request that is under way when the connection is lost is carried out then or never.

What becomes of a request is its *fate* (`Fate`).  `Connection.after` is the server's side of a
connection when some of the requests under way have been carried out, and `request_after` is what it
may have carried out behind a request.  That the fates have all the errors there can be goes back to
the tasks of a connection (`error_of_reachable`).
-/

namespace Resolute

namespace Conn

variable {τ : Type}

/-- The error is that of an `ErrorResponse`, or that of a connection that is lost. -/
def Completion.blames : Completion → Prop
  | .sent (.error e) => (∃ fields, e = .pg fields) ∨ lossError e = true
  | _ => True

theorem blames_of_feedMsg {c : Collect} {m : BackendMsg} {es : List Emit} {res : Outcome}
    (h : c.feedMsg m = .done es res) : (Completion.sent res).blames := by
  have hm := c.isReady_of_done h
  cases m <;> simp only [BackendMsg.isReady, Bool.false_eq_true] at hm
  cases c <;> cases h <;> first | trivial | exact .inl ⟨_, rfl⟩

theorem blames_of_feedError {c : Collect} {e : PgWireError} {es : List Emit} {res : Outcome}
    (h : c.feedError e = .done es res) (he : lossError e = true) :
    (Completion.sent res).blames := by
  cases c <;> cases h <;> first | trivial | exact .inr he

/-- **The errors of a request.**  In every run of a connection, a request ends with the error of an
`ErrorResponse`, or with one of those that stand for the loss of the connection, if it ends with an
error. -/
theorem error_of_reachable {s : State τ} (h : (asyncConn τ).Reachable .init s) :
    ∀ r ∈ s.responses, r.completion.blames := by
  refine h.invariant (I := fun s => ∀ r ∈ s.responses, r.completion.blames) (by simp [State.init])
    fun s l s' hs hl => ?_
  have happend : ∀ {rs : List Response}, (∀ r ∈ rs, r.completion.blames) →
      ∀ r ∈ s.responses ++ rs, r.completion.blames := fun h r hr =>
    (List.mem_append.1 hr).elim (hs r) (h r)
  have hall : ∀ {c : Completion} {items : List (Item τ)}, c.blames →
      ∀ r ∈ closeAll c items, r.completion.blames := by
    intro c items hc r hr
    obtain ⟨item, -, rfl⟩ := List.mem_map.1 hr
    exact hc
  cases trans_of_step hl with
  | writeFail | drainPending => exact happend (hall (.inr rfl))
  | exit => exact happend (hall trivial)
  | readDone _ _ hfeed => exact happend (by simpa using blames_of_feedMsg hfeed)
  | readError _ _ hfeed _ he => exact happend (by simpa using blames_of_feedError hfeed he)
  | _ => exact hs

end Conn

namespace Faults

variable {ε : Type}

/-- What the server has done for a connection. -/
structure Backend (ε : Type) where
  session : Session ε
  /-- The effects of the statements that were carried out, in a transaction or outside of one. -/
  applied : List ε
  /-- The statements that were executed while no transaction was open. -/
  alone : List ε
  deriving DecidableEq, Repr

/-- A command is executed. -/
def Backend.exec (b : Backend ε) (cmd : Command ε) : Reply × Backend ε :=
  let (reply, session) := b.session.exec cmd
  match cmd with
  | .statement a _ => (reply, {
      session
      applied := match reply with
        | .complete _ => b.applied ++ [a]
        | .error _ => b.applied
      alone := if b.session.tx.isNone then b.alone ++ [a] else b.alone })
  | _ => (reply, { b with session })

/-- Commands are executed, one after another. -/
def Backend.carryOut (b : Backend ε) (cmds : List (Command ε)) : Backend ε :=
  cmds.foldl (fun b cmd => (b.exec cmd).2) b

/-- A connection as the client sees it, and the server's side of it. -/
structure Connection (ε : Type) where
  backend : Backend ε
  /-- The requests that are under way, oldest first; `none` when the connection is lost. -/
  queue : Option (List (Command ε))
  /-- The flag that `is_alive` reads. -/
  alive : Bool

/-- What happens to the connection by the end of a request. -/
inductive Aftermath where
  | kept
  | lost
  /-- It is lost, and the writer task has returned. -/
  | writerGone
  deriving DecidableEq

/-- An error of the writer or the reader task, of the channel, or of the time-out; they all stand
for the loss of the connection. -/
abbrev LocalError := { e : PgWireError // Conn.lossError e = true }

/-- A message that says nothing about the success of a request. -/
abbrev Data := { m : BackendMsg // m.isReady = false ∧ m.isError = false }

/-- What becomes of a request on a connection that is not lost yet.  `verdict` : the SQLSTATE with
which the server rejects the statement, if it does so on its own account. -/
inductive Fate where
  /-- The request is carried out and the response arrives. -/
  | answered (verdict : Option String) (data : List Data) (aftermath : Aftermath)
  /-- The call returns with the error `e`.  By then, or before the connection is lost, the server
  has carried out `progress` of the requests that are under way, of which this one is the last. -/
  | unanswered (verdict : Option String) (progress : ℕ) (aftermath : Aftermath) (e : LocalError)

namespace Fate

def verdict : Fate → Option String
  | answered verdict _ _ | unanswered verdict _ _ _ => verdict

def aftermath : Fate → Aftermath
  | answered _ _ aftermath | unanswered _ _ aftermath _ => aftermath

/-- The error of a request on a connection that was lost before. -/
def error : Fate → PgWireError
  | answered _ _ _ => .connectionClosed
  | unanswered _ _ _ e => e.val

end Fate

/-- How the server reads the SQL of a request. -/
def decided (verdict : Option String) : Sql ε → Command ε
  | .begin => .begin
  | .commit => .commit
  | .rollback => .rollback
  | .savepoint id => .savepoint id
  | .releaseSavepoint id => .release id
  | .rollbackToSavepoint id => .rollbackTo id
  | .stmt a => .statement a verdict.isSome

/-- A statement that is rejected on its own account is rejected with the SQLSTATE of the verdict. -/
def blame (verdict : Option String) : Reply → Reply
  | .error code => .error (if code = Session.rejected then verdict.getD code else code)
  | reply => reply

namespace Connection

def settle (c : Connection ε) : Aftermath → Connection ε
  | .kept => c
  | .lost => { c with queue := none }
  | .writerGone => { c with queue := none, alive := false }

/-- A request, from `submit` to its result. -/
def request (fate : Fate) (sql : Sql ε) (collector : ResponseCollector) (c : Connection ε) :
    Outcome × Connection ε :=
  match c.queue with
  | none => (.error fate.error, c.settle fate.aftermath)
  | some queue => match fate with
    | .answered verdict data aftermath =>
      let (reply, backend) := (c.backend.carryOut queue).exec (decided verdict sql)
      let input := data.map (fun m => .ok m.val) ++
        (blame verdict reply).group backend.session.status
      (Collect.await ((Collect.init collector).run input),
        { c with backend, queue := some [] }.settle aftermath)
    | .unanswered verdict progress aftermath e =>
      let queue := queue ++ [decided verdict sql]
      (.error e.val, { c with
        backend := c.backend.carryOut (queue.take progress),
        queue := some (queue.drop progress) }.settle aftermath)

/-- The server's side when `n` of the requests under way are carried out. -/
def after (c : Connection ε) (n : ℕ) : Backend ε := c.backend.carryOut ((c.queue.getD []).take n)

/-- The server's side when all of them are carried out. -/
def settled (c : Connection ε) : Backend ε := c.backend.carryOut (c.queue.getD [])

end Connection

section

variable {b : Backend ε} {c : Connection ε} {fate : Fate} {sql : Sql ε} {a : ε}
  {collector : ResponseCollector}

theorem carryOut_append (b : Backend ε) (cmds cmds' : List (Command ε)) :
    b.carryOut (cmds ++ cmds') = (b.carryOut cmds).carryOut cmds' :=
  List.foldl_append

/-- Some of the requests are carried out: not the last one, or all of them. -/
theorem carryOut_take_concat (b : Backend ε) (queue : List (Command ε)) (cmd : Command ε) (n : ℕ) :
    (∃ k, b.carryOut ((queue ++ [cmd]).take n) = b.carryOut (queue.take k)) ∨
      b.carryOut ((queue ++ [cmd]).take n) = ((b.carryOut queue).exec cmd).2 := by
  by_cases hn : n ≤ queue.length
  · exact .inl ⟨n, by rw [List.take_append_of_le_length hn]⟩
  · have hlen : (queue ++ [cmd]).length ≤ n := by
      rw [List.length_append, List.length_singleton]
      omega
    exact .inr (by rw [List.take_of_length_le hlen, carryOut_append]; rfl)

theorem after_settled (c : Connection ε) : ∃ k, c.after k = c.settled :=
  ⟨(c.queue.getD []).length, by rw [Connection.after, List.take_length]; rfl⟩

/-- What is carried out after a part of the queue was. -/
theorem after_progress (c : Connection ε) (queue : List (Command ε)) (progress n : ℕ) :
    Connection.after { c with
      backend := c.backend.carryOut (queue.take progress),
      queue := some (queue.drop progress) } n = c.backend.carryOut (queue.take (progress + n)) := by
  rw [List.take_add, carryOut_append]
  rfl

theorem settle_after (c : Connection ε) (aftermath : Aftermath) (n : ℕ) :
    ∃ k, (c.settle aftermath).after n = c.after k := by
  cases aftermath with
  | kept => exact ⟨n, rfl⟩
  | lost | writerGone => exact ⟨0, by simp [Connection.settle, Connection.after, Backend.carryOut]⟩

theorem settle_queue {aftermath : Aftermath} (h : (c.settle aftermath).queue.isSome = true) :
    c.settle aftermath = c := by
  cases aftermath with
  | kept => rfl
  | lost | writerGone => cases h

/-- **What the server may have carried out after a request.**  It is what it may have carried out
without it, or all of that and then the request. -/
theorem request_after (c : Connection ε) (fate : Fate) (sql : Sql ε)
    (collector : ResponseCollector) (n : ℕ) :
    (∃ k, (c.request fate sql collector).2.after n = c.after k) ∨
      c.queue.isSome = true ∧ (c.request fate sql collector).2.after n =
        (c.settled.exec (decided fate.verdict sql)).2 := by
  unfold Connection.request
  cases hq : c.queue with
  | none => exact .inl (settle_after c fate.aftermath n)
  | some queue =>
    have hsettled : c.settled = c.backend.carryOut queue := by simp [Connection.settled, hq]
    have hafter : ∀ k, c.after k = c.backend.carryOut (queue.take k) := fun k => by
      simp [Connection.after, hq]
    cases fate with
    | answered verdict data aftermath =>
      obtain ⟨k, hk⟩ := settle_after { c with
        backend := ((c.backend.carryOut queue).exec (decided verdict sql)).2,
        queue := some [] } aftermath n
      refine .inr ⟨rfl, hk.trans ?_⟩
      rw [hsettled]
      simp [Connection.after, Backend.carryOut, Fate.verdict]
    | unanswered verdict progress aftermath e =>
      obtain ⟨k, hk⟩ := settle_after { c with
        backend := c.backend.carryOut ((queue ++ [decided verdict sql]).take progress),
        queue := some ((queue ++ [decided verdict sql]).drop progress) } aftermath n
      rw [after_progress] at hk
      rw [hsettled]
      dsimp only
      rw [hk]
      rcases carryOut_take_concat c.backend queue (decided verdict sql) (progress + k) with h | h
      · obtain ⟨j, hj⟩ := h
        exact .inl ⟨j, hj.trans (hafter j).symm⟩
      · exact .inr ⟨rfl, h⟩

/-- On a connection that is not lost, a request is carried out after all others. -/
theorem request_settled (h : (c.request fate sql collector).2.queue.isSome = true) :
    c.queue.isSome = true ∧ (c.request fate sql collector).2.settled =
      (c.settled.exec (decided fate.verdict sql)).2 := by
  unfold Connection.request at h ⊢
  cases hq : c.queue with
  | none =>
    rw [hq] at h
    have := settle_queue h
    dsimp only at h
    rw [this, hq] at h
    cases h
  | some queue =>
    rw [hq] at h
    refine ⟨rfl, ?_⟩
    have hsettled : c.settled = c.backend.carryOut queue := by simp [Connection.settled, hq]
    rw [hsettled]
    cases fate with
    | answered verdict data aftermath =>
      dsimp only at h ⊢
      rw [settle_queue h]
      rfl
    | unanswered verdict progress aftermath e =>
      dsimp only at h ⊢
      rw [settle_queue h]
      simp only [Connection.settled, Option.getD_some]
      rw [← carryOut_append, List.take_append_drop, carryOut_append]
      rfl

/-! ### Statements that are rejected -/

/-- `collect_rows` reports success when the server does. -/
theorem rows_of_complete (data : List Data) (tag : String) (status : UInt8) :
    ∃ response, Collect.await ((Collect.init .rows).run (data.map (fun d => .ok d.val) ++
      (Reply.complete tag).group status)) = .ok response := by
  have hfree : errorFree (data.map Subtype.val ++ [.commandComplete tag]) = true := by
    simp only [errorFree, List.all_append, List.all_map, Bool.and_eq_true, List.all_eq_true]
    exact ⟨fun d _ => by simp [d.property.2], by simp [BackendMsg.isError]⟩
  have hready : ∀ m ∈ data.map Subtype.val ++ [.commandComplete tag], m.isReady = false := by
    simp only [List.mem_append, List.mem_map, List.mem_singleton]
    rintro _ (⟨d, -, rfl⟩ | rfl)
    · exact d.property.1
    · rfl
  have hinput : data.map (fun d => .ok d.val) ++ (Reply.complete tag).group status =
      (data.map Subtype.val ++ [BackendMsg.commandComplete tag]).map .ok ++
        [.ok (.readyForQuery status)] := by
    simp [Reply.group]
  obtain ⟨response, h⟩ := (rowsResult_isOk [] [] "" _).2 hfree
  refine ⟨response, ?_⟩
  rw [Collect.init, Collect.rows_run, hinput, responseGroup_append rfl hready]
  exact h

theorem isStale_of_lossError {e : PgWireError} (h : Conn.lossError e = true) :
    e.isStale = false := by
  cases e <;> first | rfl | cases h

theorem isStale_error (fate : Fate) : fate.error.isStale = false := by
  cases fate with
  | answered => rfl
  | unanswered _ _ _ e => exact isStale_of_lossError e.property

/-- **A stale statement was not carried out.**  If the call prepares the statement again, the server
has rejected it. -/
theorem rejected_of_isStale {e : PgWireError}
    (h : (c.request fate (.stmt a) .rows).1 = .error e) (hstale : e.isStale = true) :
    ∃ code, (c.settled.exec (decided fate.verdict (.stmt a))).1 = .error code := by
  unfold Connection.request at h
  cases hq : c.queue with
  | none =>
    rw [hq] at h
    cases h
    rw [isStale_error] at hstale
    cases hstale
  | some queue =>
    rw [hq] at h
    have hsettled : c.settled = c.backend.carryOut queue := by simp [Connection.settled, hq]
    cases fate with
    | unanswered verdict progress aftermath e' =>
      cases h
      rw [isStale_of_lossError e'.property] at hstale
      cases hstale
    | answered verdict data aftermath =>
      rw [hsettled]
      dsimp only at h
      cases hreply : ((c.backend.carryOut queue).exec (decided verdict (.stmt a))).1 with
      | error code => exact ⟨code, by simpa [Fate.verdict] using hreply⟩
      | complete tag =>
        rw [hreply] at h
        obtain ⟨response, hok⟩ := rows_of_complete data tag
          ((c.backend.carryOut queue).exec (decided verdict (.stmt a))).2.session.status
        cases hok.symm.trans h

end

end Faults

end Resolute
