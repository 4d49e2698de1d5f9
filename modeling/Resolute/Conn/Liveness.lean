import Resolute.Conn.Release

/-!
# The liveness flag

`is_alive` reads a flag that is cleared when one of the two tasks of a connection has returned.  The
writer returns when its channel is closed and after a write error.  The reader loop has no exit: the
error of a failed read goes to the request that met it, and the reader goes on with the next one.
So a connection whose stream has ended counts as alive until a write to it fails.

Three mechanisms and the pool rest on the flag; a `Checker` is one of their decisions, and `live`
remembers whether somebody was misled.  A step is `Ended` unless it relies on the flag after a read
has failed and before the writer has gone.  Nobody is misled in a run exactly if all its steps are
of that kind (`truthful_iff`).
-/

namespace Resolute.Conn.Liveness

/-- The decisions that are taken from the flags of a connection. -/
inductive Checker where
  /-- The double check of `ReconnectingClient::reconnect`. -/
  | reconnect
  /-- The search of `AsyncPool::get_async`. -/
  | getAsync
  /-- The tick of `health_monitor`. -/
  | healthMonitor
  /-- `has_pending_data`, as the connection pool asks on return and on checkout. -/
  | hasPendingData
  deriving DecidableEq

/-- The connection is kept. -/
def Checker.keeps (alive broken : Bool) : Checker → Bool
  | reconnect | getAsync => alive
  | healthMonitor => let isDead := !alive; !isDead
  | hasPendingData => !(!alive || broken)

/-- A connection with its flags. -/
structure State (τ : Type) where
  conn : Conn.State τ
  alive : Bool
  broken : Bool
  /-- The block that runs the writer task has come to its end. -/
  writerEnded : Bool
  /-- The reader has answered a request with an error of a read. -/
  failed : Bool
  /-- After that, an operation was submitted with the flag set, or a check kept the connection. -/
  misled : Bool

/-- The steps of a connection and of those who use it. -/
inductive Label (τ : Type) where
  /-- An operation is submitted. -/
  | submit (req : Request τ)
  | check (checker : Checker)
  /-- `mark_broken`. -/
  | markBroken
  /-- A step of a task, the server or the application, other than the submission of a request. -/
  | task (l : Conn.Label τ)
  /-- `read_msg` fails on a frame that it cannot parse. -/
  | protocolError (message : String)
  /-- `alive.store(false)`, the last statement of the block that runs the writer task. -/
  | endWriter
  deriving DecidableEq

/-- The error is what the request is answered with, by its response or through its channels. -/
def answersWith (e : PgWireError) (effects : List Emit) (result : Outcome) : Bool :=
  decide (result = .error e) || effects.contains (.header (.error e)) ||
    effects.contains (.row (.error e))

section

variable {τ : Type}

/-- The reader fails to read and answers its request with the error. -/
def answersFailure (c : Conn.State τ) : Conn.Label τ → Bool
  | .readError e => match c.reader with
    | .collecting _ collect _ _ _ => match collect.feedError e with
      | .done es res => answersWith e es res
      | .more _ _ => false
    | _ => false
  | _ => false

def isAccept : Conn.Label τ → Bool
  | .accept _ => true
  | _ => false

namespace State

/-- `AsyncConn::new`. -/
def init : State τ where
  conn := .init
  alive := true
  broken := false
  writerEnded := false
  failed := false
  misled := false

/-- Somebody relies on the connection, if `keeps`. -/
def rely (s : State τ) (keeps : Bool) : State τ :=
  { s with misled := s.misled || s.failed && keeps }

/-- The reader fails on a frame; its request is answered, and the reader goes on. -/
def failProtocol (s : State τ) (message : String) : Option (State τ) :=
  match s.conn.reader with
  | .collecting item c _ effects buffered => match c.feedError (.protocol message) with
    | .done es res =>
      if hasRoom s.conn.rxDropped item buffered es then some { s with
        conn := { s.conn with
          reader := .locking
          responses := s.conn.responses ++ [⟨item.id, effects ++ es, .sent res⟩] }
        failed := s.failed || answersWith (.protocol message) es res }
      else none
    | .more _ _ => none
  | _ => none

end State

/-- One step. -/
def step (s : State τ) : Label τ → Option (State τ)
  | .submit req =>
    -- `submit` on a channel that is closed fails at once
    if s.conn.closed then some (s.rely s.alive)
    else (Conn.step s.conn (.accept req)).map fun c => { s.rely s.alive with conn := c }
  | .check checker => some (s.rely (checker.keeps s.alive s.broken))
  | .markBroken => some { s with broken := true }
  | .task l =>
    if isAccept l then none
    else (Conn.step s.conn l).map fun c =>
      { s with conn := c, failed := s.failed || answersFailure s.conn l }
  | .protocolError message => s.failProtocol message
  | .endWriter =>
    if s.conn.closed && !s.writerEnded then some { s with alive := false, writerEnded := true }
    else none

/-- The connection as a transition system. -/
def live (τ : Type) : LTS (State τ) (Label τ) := ⟨step⟩

/-- Where a read has failed before, the writer task has ended when an operation is submitted, and
when a check is made that does not find the connection marked as broken. -/
def Ended (s : State τ) : Label τ → Prop
  | .submit _ => s.failed = true → s.writerEnded = true
  | .check checker =>
    s.failed = true → s.writerEnded = true ∨ checker = .hasPendingData ∧ s.broken = true
  | _ => True

instance (s : State τ) (l : Label τ) : Decidable (Ended s l) := by
  cases l <;> unfold Ended <;> infer_instance

/-- What a step does to the flag: somebody relies on it, it is cleared, or nothing. -/
theorem step_cases {s s' : State τ} {l : Label τ} (h : (live τ).step s l = some s') :
    ((∃ req, l = .submit req) ∧ s'.alive = s.alive ∧ s'.writerEnded = s.writerEnded ∧
      s'.misled = (s.rely s.alive).misled) ∨
    (∃ checker, l = .check checker ∧ s' = s.rely (checker.keeps s.alive s.broken)) ∨
    (l = .endWriter ∧ s' = { s with alive := false, writerEnded := true }) ∨
    (Ended s l ∧ s'.alive = s.alive ∧ s'.writerEnded = s.writerEnded ∧ s'.misled = s.misled) := by
  cases l <;> simp only [live, step] at h
  case submit req =>
    refine .inl ⟨⟨req, rfl⟩, ?_⟩
    split_ifs at h
    · cases h
      exact ⟨rfl, rfl, rfl⟩
    · obtain ⟨c, -, rfl⟩ := Option.map_eq_some_iff.1 h
      exact ⟨rfl, rfl, rfl⟩
  case check checker => exact .inr (.inl ⟨checker, rfl, (Option.some_inj.1 h).symm⟩)
  case endWriter =>
    split_ifs at h
    exact .inr (.inr (.inl ⟨rfl, (Option.some_inj.1 h).symm⟩))
  all_goals refine .inr (.inr (.inr ⟨trivial, ?_⟩))
  case markBroken =>
    cases h
    exact ⟨rfl, rfl, rfl⟩
  case task l =>
    split_ifs at h
    obtain ⟨c, -, rfl⟩ := Option.map_eq_some_iff.1 h
    exact ⟨rfl, rfl, rfl⟩
  case protocolError message =>
    unfold State.failProtocol at h
    split at h
    · split at h
      · split_ifs at h
        cases h
        exact ⟨rfl, rfl, rfl⟩
      · cases h
    · cases h

/-- The flag is cleared with the end of the writer task, and only then. -/
theorem alive_step {s s' : State τ} {l : Label τ} (h : s.alive = !s.writerEnded)
    (hstep : (live τ).step s l = some s') : s'.alive = !s'.writerEnded := by
  rcases step_cases hstep with ⟨-, ha, hw, -⟩ | ⟨checker, -, rfl⟩ | ⟨-, rfl⟩ | ⟨-, ha, hw, -⟩
  · rw [ha, hw, h]
  · exact h
  · rfl
  · rw [ha, hw, h]

/-- Exactly the steps that find the writer gone mislead nobody. -/
theorem misled_step {s s' : State τ} {l : Label τ} (h : s.alive = !s.writerEnded)
    (hm : s.misled = false) (hstep : (live τ).step s l = some s') :
    s'.misled = false ↔ Ended s l := by
  rcases step_cases hstep with
    ⟨⟨req, rfl⟩, -, -, hrely⟩ | ⟨checker, rfl, rfl⟩ | ⟨rfl, rfl⟩ | ⟨hended, -, -, hkept⟩
  · rw [hrely]
    cases hf : s.failed <;> cases hw : s.writerEnded <;>
      simp [State.rely, Ended, hm, hf, h, hw]
  · cases hf : s.failed <;> cases hw : s.writerEnded <;> cases hb : s.broken <;> cases checker <;>
      simp [State.rely, Ended, Checker.keeps, hm, hf, h, hw, hb]
  · exact iff_of_true hm trivial
  · exact iff_of_true (hkept.trans hm) hended

/-- **When the flag tells the truth.**  In a run, no operation is submitted with the flag set after
a read has failed, and no check keeps the connection, exactly if the writer task has ended before
each of them. -/
theorem truthful_iff {ls : List (Label τ)} {s : State τ} (h : (live τ).exec .init ls = some s) :
    (live τ).Along (fun s => s.misled = false) .init ls ↔
      ((live τ).guard Ended).exec .init ls = some s :=
  LTS.along_iff_exec_guard (R := fun s => s.alive = !s.writerEnded)
    (fun _ _ _ hs hstep => alive_step hs hstep) (fun _ _ _ hs hm hstep => misled_step hs hm hstep)
    rfl rfl h

end

/-- A query whose response does not arrive: the server closes the connection. -/
def eofRun : List (Label Unit) :=
  .submit { messages := [.query (asBytes "SELECT 1")], collector := .rows, tag := () } ::
    ([.recv, .startWrite, .transmit, .writeDone, .enqueue, .notify, .lock, .lose 0,
      .readError .connectionClosed] : List (Conn.Label Unit)).map Label.task

theorem truthful_iff_eofRun :
    ∃ s, (live Unit).exec .init eofRun = some s ∧
      ((live Unit).Along (fun s => s.misled = false) .init eofRun ↔
        ((live Unit).guard Ended).exec .init eofRun = some s) :=
  have h : (live Unit).exec .init eofRun = some _ := rfl
  ⟨_, h, truthful_iff h⟩

/-- The reader has answered with the end of the stream, the flag is set, and every check keeps the
connection; the next operation is submitted to it. -/
theorem alive_after_eof :
    (∃ s, (live Unit).Reachable .init s ∧ (s.failed = true ∧ s.alive = true ∧
      ∀ checker : Checker, checker.keeps s.alive s.broken = true)) ∧
    ∃ s, (live Unit).Reachable .init s ∧ s.misled = true := by
  constructor
  · have h : (live Unit).exec .init eofRun = some _ := rfl
    refine ⟨_, LTS.reachable_of_exec h, rfl, rfl, fun checker => ?_⟩
    cases checker <;> rfl
  · have h : (live Unit).exec .init (eofRun ++ [.check .reconnect]) = some _ := rfl
    exact ⟨_, LTS.reachable_of_exec h, rfl⟩

end Resolute.Conn.Liveness
