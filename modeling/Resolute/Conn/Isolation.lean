import Resolute.Conn.Fifo
import Resolute.Conn.Pipelined

/-!
# Transactions on a shared connection

Many tasks call the operations of one connection.  `exec_transaction` hands its setup, its query
and its `COMMIT` to the channel in three sends, each of which may have to wait for room, and its
future may be dropped in between.  The requests of other tasks can be accepted between the sends,
and after a transaction that is given up half way.

The wire is `isolated` if no request is inside the transaction of another task.  A run is
`undisturbed` if the channel accepts no request of a task while a transaction of another one has its
setup accepted and not its `COMMIT`; in every such run the wire is isolated
(`isolated_of_undisturbed`), for any number of tasks on the connection (`sharedConn`).
-/

namespace Resolute.Conn

/-- What a request is to the transaction of its task. -/
inductive Part where
  | setup
  | data
  | commit
  | other
  deriving DecidableEq, Repr

/-- Who sent a request. -/
structure Sender where
  task : ℕ
  part : Part
  deriving DecidableEq, Repr

/-- The calls of a task that send requests. -/
inductive Operation where
  /-- `exec_transaction`, and its second attempt. -/
  | execTransaction (setupSql querySql : String) (params : List (Option Bytes))
      (paramOids : List Oid) (stmtName : Bytes) (needsParse : Bool)
  /-- `submit`, which `exec_query` and the COPY calls end in, and `submit_stream`. -/
  | submit (messages : List FrontendMsg) (collector : ResponseCollector)
  /-- `submit_batch`. -/
  | submitBatch (items : List (List FrontendMsg × ResponseCollector))

/-- The requests of a call, in the order in which they are sent. -/
def Operation.requests (task : ℕ) : Operation → List (Request Sender)
  | execTransaction setupSql querySql params paramOids stmtName needsParse =>
    [{ messages := [.query (asBytes setupSql)], collector := .drain, tag := ⟨task, .setup⟩ },
      { messages := dataMessages querySql params paramOids stmtName needsParse
        collector := .rows
        tag := ⟨task, .data⟩ },
      { messages := [.query (asBytes "COMMIT")], collector := .drain, tag := ⟨task, .commit⟩ }]
  | submit messages collector =>
    [{ messages := messages, collector := collector, tag := ⟨task, .other⟩ }]
  | submitBatch items =>
    items.map fun (messages, collector) =>
      { messages := messages, collector := collector, tag := ⟨task, .other⟩ }

/-- A connection and the tasks that share it. -/
structure Shared where
  /-- The requests of the current call of a task that the channel has not accepted yet. -/
  todo : ℕ → List (Request Sender)
  conn : State Sender

/-- The steps of the tasks that share a connection, and of the connection. -/
inductive SharedLabel where
  /-- A task calls an operation. -/
  | call (task : ℕ) (op : Operation)
  /-- The channel accepts the next request of a task. -/
  | send (task : ℕ)
  /-- The future of a call is dropped, or returns. -/
  | cancel (task : ℕ)
  /-- `cache_statement` queues a `Close` with `try_send`. -/
  | tryClose (task : ℕ) (name : String)
  /-- A step of the connection. -/
  | conn (l : Label Sender)

namespace Shared

/-- Nobody has called anything. -/
def init : Shared := ⟨fun _ => [], State.init⟩

/-- The request that closes an evicted statement. -/
def closeRequest (task : ℕ) (name : String) : Request Sender :=
  { messages := Stmts.closeMessages name, collector := .drain, tag := ⟨task, .other⟩ }

/-- One step. -/
def step (s : Shared) : SharedLabel → Option Shared
  | .call task op =>
    if (s.todo task).isEmpty then
      some { s with todo := Function.update s.todo task (op.requests task) }
    else none
  | .send task => match s.todo task with
    | req :: rest => ((asyncConn Sender).step s.conn (.accept req)).map fun conn =>
      ⟨Function.update s.todo task rest, conn⟩
    | [] => none
  | .cancel task => some { s with todo := Function.update s.todo task [] }
  | .tryClose task name =>
      match (asyncConn Sender).step s.conn (.accept (closeRequest task name)) with
    | some conn => some { s with conn := conn }
    | none => some s
  | .conn l => match l with
    | .accept _ => none
    | l => ((asyncConn Sender).step s.conn l).map fun conn => { s with conn := conn }

end Shared

/-- The tasks and the connection they share. -/
def sharedConn : LTS Shared SharedLabel := ⟨Shared.step⟩

/-- The task whose transaction is open after a request, if `owner` has one open before it. -/
def ownerAfter (owner : Option ℕ) (x : Sender) : Option ℕ :=
  match x.part with
  | .setup => some x.task
  | .commit => none
  | _ => owner

/-- The request may be sent while `owner` has a transaction open. -/
def permits (owner : Option ℕ) (task : ℕ) : Bool :=
  match owner with
  | none => true
  | some t => t == task

/-- No request is sent inside the transaction of another task. -/
def isolated : Option ℕ → List Sender → Bool
  | _, [] => true
  | owner, x :: xs => permits owner x.task && isolated (ownerAfter owner x) xs

theorem isolated_append (owner : Option ℕ) (xs ys : List Sender) :
    isolated owner (xs ++ ys) = (isolated owner xs && isolated (xs.foldl ownerAfter owner) ys) := by
  induction xs generalizing owner with
  | nil => simp [isolated]
  | cons x xs ih => simp [isolated, ih, Bool.and_assoc]

/-- Who sent the given requests. -/
def senders (items : List (Item Sender)) : List Sender := items.map fun item => item.req.tag

/-- The task whose transaction the channel has accepted the setup of, but not the `COMMIT`. -/
def Shared.owner (s : Shared) : Option ℕ := (senders s.conn.accepted).foldl ownerAfter none

/-- The step does not hand a request to the channel inside the transaction of another task. -/
def undisturbed (s : Shared) : SharedLabel → Prop
  | .send task | .tryClose task _ => permits s.owner task = true
  | _ => True

instance (s : Shared) (l : SharedLabel) : Decidable (undisturbed s l) := by
  cases l <;> simp only [undisturbed] <;> infer_instance

/-- The requests of a task's call are tagged with the task. -/
theorem tag_of_mem_requests {task : ℕ} {op : Operation} {req : Request Sender}
    (h : req ∈ op.requests task) : req.tag.task = task := by
  cases op with
  | submitBatch items =>
    obtain ⟨_, -, rfl⟩ := List.mem_map.1 h
    rfl
  | _ => simp only [Operation.requests, List.mem_cons, List.not_mem_nil, or_false] at h
         rcases h with rfl | rfl | rfl <;> rfl

/-- What holds in every undisturbed run. -/
structure SharedInvariant (s : Shared) : Prop where
  conn : Invariant s.conn
  own : ∀ task, ∀ req ∈ s.todo task, req.tag.task = task
  isolated : isolated none (senders s.conn.accepted) = true

/-- A step of the connection that accepts nothing keeps the accepted requests. -/
theorem accepted_of_trans {s s' : State Sender} {l : Label Sender} (h : Trans s l s')
    (hl : ∀ req, l ≠ .accept req) : s'.accepted = s.accepted := by
  cases h with
  | accept => exact absurd rfl (hl _)
  | _ => rfl

/-- The channel accepts a request of a task that nobody else keeps out. -/
theorem SharedInvariant.accept {s : Shared} (h : SharedInvariant s) {req : Request Sender}
    {conn : State Sender} (hstep : (asyncConn Sender).step s.conn (.accept req) = some conn)
    (hpermits : permits s.owner req.tag.task = true) :
    Invariant conn ∧ Conn.isolated none (senders conn.accepted) = true := by
  have ht := trans_of_step hstep
  refine ⟨h.conn.step ht, ?_⟩
  cases ht
  simpa [senders, isolated_append, Conn.isolated, Shared.owner] using ⟨h.isolated, hpermits⟩

theorem SharedInvariant.step {s s' : Shared} {l : SharedLabel} (h : SharedInvariant s)
    (hl : undisturbed s l) (hstep : sharedConn.step s l = some s') : SharedInvariant s' := by
  have hown : ∀ (task : ℕ) (reqs : List (Request Sender)), (∀ req ∈ reqs, req.tag.task = task) →
      ∀ t, ∀ req ∈ Function.update s.todo task reqs t, req.tag.task = t := by
    intro task reqs hreqs t req hreq
    by_cases ht : t = task
    · subst ht
      exact hreqs req (by simpa using hreq)
    · exact h.own t req (by simpa [Function.update_of_ne ht] using hreq)
  cases l with
  | call task op =>
    simp only [sharedConn, Shared.step] at hstep
    split_ifs at hstep
    cases hstep
    exact { h with own := hown task _ fun _ => tag_of_mem_requests }
  | send task =>
    simp only [sharedConn, Shared.step] at hstep
    cases htodo : s.todo task with
    | nil => simp [htodo] at hstep
    | cons req rest =>
      rw [htodo] at hstep
      obtain ⟨conn, hconn, rfl⟩ := Option.map_eq_some_iff.1 hstep
      have hmem : ∀ r ∈ req :: rest, r.tag.task = task := htodo ▸ h.own task
      -- the guard of the run says that nobody else has a transaction on the way
      have hpermits : permits s.owner req.tag.task = true :=
        (hmem req List.mem_cons_self).symm ▸ hl
      obtain ⟨hinv, hiso⟩ := h.accept hconn hpermits
      exact ⟨hinv, hown task rest fun r hr => hmem r (List.mem_cons_of_mem _ hr), hiso⟩
  | cancel task =>
    cases hstep
    exact { h with own := hown task [] nofun }
  | tryClose task name =>
    simp only [sharedConn, Shared.step] at hstep
    cases hconn : (asyncConn Sender).step s.conn (.accept (Shared.closeRequest task name)) with
    | none => rw [hconn] at hstep; cases hstep; exact h
    | some conn =>
      rw [hconn] at hstep
      cases hstep
      obtain ⟨hinv, hiso⟩ := h.accept hconn hl
      exact ⟨hinv, h.own, hiso⟩
  | conn l =>
    have hnot : ∀ req, l ≠ .accept req := by rintro req rfl; cases hstep
    have hstep' : ((asyncConn Sender).step s.conn l).map (fun conn => { s with conn := conn }) =
        some s' := by
      cases l <;> first | exact hstep | exact absurd rfl (hnot _)
    obtain ⟨conn, hconn, rfl⟩ := Option.map_eq_some_iff.1 hstep'
    have ht := trans_of_step hconn
    exact ⟨h.conn.step ht, h.own, by rw [accepted_of_trans ht hnot]; exact h.isolated⟩

/-- **Isolation in undisturbed runs.**  If the channel accepts no request of a task between the
setup and the `COMMIT` of another one, no request is inside the transaction of another task on the
wire. -/
theorem isolated_of_undisturbed {s : Shared}
    (h : (sharedConn.guard undisturbed).Reachable Shared.init s) :
    isolated none (senders s.conn.written) = true := by
  have hinv : SharedInvariant s := h.guard_invariant
    ⟨Invariant.init, nofun, rfl⟩ fun _ _ _ hs hl hstep => hs.step hl hstep
  obtain ⟨rest, hrest⟩ := hinv.conn.ordered.wire
  have hiso := hinv.isolated
  rw [← hrest, senders, List.map_append, isolated_append, Bool.and_eq_true] at hiso
  exact hiso.1

/-- A transaction under the role of one user. -/
def asAlice : Operation :=
  .execTransaction "BEGIN; SET LOCAL ROLE alice" "SELECT * FROM items" [] [] (asBytes "s0") true

/-- A query without a transaction. -/
def deleteItems : Operation := .submit [.query (asBytes "DELETE FROM items")] .rows

/-- A transaction whose requests are written one after the other. -/
def undisturbedRun : List SharedLabel :=
  [.call 1 asAlice, .call 2 deleteItems, .send 1, .send 1, .send 1, .send 2,
    .conn .recv, .conn .tryRecv, .conn .tryRecv, .conn .tryRecv, .conn .startWrite,
    .conn .transmit, .conn .transmit, .conn .transmit, .conn .transmit]

/-- The request of another task is accepted between two sends of the transaction. -/
def disturbedRun : List SharedLabel :=
  [.call 1 asAlice, .call 2 deleteItems, .send 1, .send 2, .send 1, .send 1,
    .conn .recv, .conn .tryRecv, .conn .tryRecv, .conn .tryRecv, .conn .startWrite,
    .conn .transmit, .conn .transmit, .conn .transmit, .conn .transmit]

/-- The future of the transaction is dropped while it waits to send its query. -/
def cancelledRun : List SharedLabel :=
  [.call 1 asAlice, .send 1, .cancel 1, .call 2 deleteItems, .send 2,
    .conn .recv, .conn .tryRecv, .conn .startWrite, .conn .transmit, .conn .transmit]

theorem isolated_undisturbedRun :
    ∃ s, (sharedConn.guard undisturbed).exec Shared.init undisturbedRun = some s ∧
      s.conn.written.length = 4 ∧ isolated none (senders s.conn.written) = true :=
  have h : (sharedConn.guard undisturbed).exec Shared.init undisturbedRun = some _ := rfl
  ⟨_, h, rfl, isolated_of_undisturbed (LTS.reachable_of_exec h)⟩

/-- A query of one task runs inside the transaction, and under the role, of another one. -/
theorem disturbed_not_isolated :
    (∃ s, sharedConn.Reachable Shared.init s ∧ isolated none (senders s.conn.written) = false ∧
      (senders s.conn.written).map Sender.part = [.setup, .other, .data, .commit]) ∧
    ∃ s, sharedConn.Reachable Shared.init s ∧ isolated none (senders s.conn.written) = false ∧
      (senders s.conn.written).map Sender.part = [.setup, .other] :=
  have h₁ : sharedConn.exec Shared.init disturbedRun = some _ := rfl
  have h₂ : sharedConn.exec Shared.init cancelledRun = some _ := rfl
  ⟨⟨_, LTS.reachable_of_exec h₁, rfl, rfl⟩, _, LTS.reachable_of_exec h₂, rfl, rfl⟩

end Resolute.Conn
