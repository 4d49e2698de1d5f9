import Resolute.Conn.Fifo

/-!
# Releasing a connection

The socket of a connection is closed when both tasks have returned, since each holds a half of it.
The writer returns when the last handle is dropped and after a write error; the reader loop has no
exit, and nothing wakes it once the writer is gone.

So when the application, or a write error, has put an end to the connection (`Released`), the reader
stays parked on its half of the socket (`Leaked`): every released connection that comes to rest is
leaked (`released_leaked`).
-/

namespace Resolute.Conn

section

variable {τ : Type}

/-- `close` has returned: the request it submitted is completed. -/
def CloseReturned (s : State τ) : Prop :=
  ∃ item ∈ s.accepted, item.req.isTerminate = true ∧ item.id ∈ s.responses.map Response.id

/-- The last handle is dropped, `close` has returned, or the writer has returned. -/
def Released (s : State τ) : Prop :=
  s.handles = false ∨ CloseReturned s ∨ s.writer = .exited

/-- The connection is released while its reader is parked, waiting for a pending request. -/
def Leaked (s : State τ) : Prop := Released s ∧ s.reader = .waiting

/-- **No released connection is closed.**  Whenever a released connection comes to rest, its reader
is parked and keeps its half of the socket. -/
theorem released_leaked {s : State τ} (h : (asyncConn τ).Reachable State.init s)
    (hq : (asyncConn τ).Quiescent internal s) (hr : Released s) : Leaked s :=
  ⟨hr, (reader_of_quiescent (invariant_of_reachable h) hq).1⟩

/-- A connection rests when the writer has nothing to do, the reader is parked and the server has
answered every request on the wire, or closed the connection. -/
theorem quiescent_of_parked {s : State τ}
    (hw : s.writer = .idle ∧ s.handles = true ∨ s.writer = .exited) (hc : s.chan = [])
    (hr : s.reader = .waiting) (hp : s.permit = false) (ha : s.unanswered = none ∨ s.lost = true) :
    (asyncConn τ).Quiescent internal s := by
  intro l hl
  rcases hw with ⟨hw, hh⟩ | hw <;> rcases ha with ha | ha <;> cases l <;>
    first | exact False.elim hl | simp [asyncConn, step, *]
  all_goals cases s.unanswered <;> rfl

end

/-- The last handle is dropped before anything is sent. -/
def dropRun : List (Label Unit) := [.lock, .dropHandles, .recv, .drainPending, .exit]

/-- `close` sends `Terminate`, and returns when the server has closed the connection. -/
def closeRun : List (Label Unit) :=
  [.accept { messages := [.terminate], collector := .drain, tag := () },
    .recv, .startWrite, .transmit, .writeDone, .enqueue, .notify, .lock,
    .hangup, .readError .connectionClosed, .lock, .wake, .lock]

/-- The write of a request fails. -/
def failRun : List (Label Unit) :=
  [.accept { messages := [.query (asBytes "SELECT 1")], collector := .drain, tag := () },
    .recv, .startWrite, .lock, .writeFail "broken pipe", .drainPending, .exit]

/-- The state at the end of a run. -/
theorem parked_of_exec (ls : List (Label Unit)) {s : State Unit}
    (h : (asyncConn Unit).exec State.init ls = some s)
    (hw : s.writer = .idle ∧ s.handles = true ∨ s.writer = .exited) (hc : s.chan = [])
    (hr : s.reader = .waiting) (hp : s.permit = false) (ha : s.unanswered = none ∨ s.lost = true) :
    (asyncConn Unit).Reachable State.init s ∧ (asyncConn Unit).Quiescent internal s ∧
      s.reader = .waiting :=
  ⟨LTS.reachable_of_exec h, quiescent_of_parked hw hc hr hp ha, hr⟩

/-- The reader of a connection that is dropped, closed or broken is parked for ever. -/
theorem reader_parked_after_release :
    (∃ s, ((asyncConn Unit).Reachable State.init s ∧ (asyncConn Unit).Quiescent internal s ∧
      s.reader = .waiting) ∧ s.handles = false) ∧
    (∃ s, ((asyncConn Unit).Reachable State.init s ∧ (asyncConn Unit).Quiescent internal s ∧
      s.reader = .waiting) ∧ CloseReturned s) ∧
    ∃ s, ((asyncConn Unit).Reachable State.init s ∧ (asyncConn Unit).Quiescent internal s ∧
      s.reader = .waiting) ∧ s.writer = .exited ∧ s.handles = true := by
  refine ⟨⟨_, parked_of_exec dropRun rfl (.inr rfl) rfl rfl rfl (.inl rfl), rfl⟩,
    ⟨_, parked_of_exec closeRun rfl (.inl ⟨rfl, rfl⟩) rfl rfl rfl (.inr rfl), ?_⟩,
    _, parked_of_exec failRun rfl (.inr rfl) rfl rfl rfl (.inl rfl), rfl, rfl⟩
  exact ⟨_, List.mem_singleton_self _, rfl, List.mem_singleton_self _⟩

/-- A connection whose last handle is dropped. -/
theorem released_leaked_dropRun :
    ∃ s, (asyncConn Unit).exec State.init dropRun = some s ∧ Leaked s :=
  have h := parked_of_exec dropRun rfl (.inr rfl) rfl rfl rfl (.inl rfl)
  ⟨_, rfl, released_leaked h.1 h.2.1 (.inl rfl)⟩

end Resolute.Conn
