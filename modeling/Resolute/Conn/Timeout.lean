import Resolute.Client.Prepared
import Resolute.Conn.Tasks

/-!
# Timeouts

`query_timeout` and `execute_timeout` wait for their query until a timer fires.  Then they drop its
future and send a `CancelRequest` on a connection of its own.  That request names the backend and
not the statement: it interrupts what the backend executes when it arrives, whoever submitted that.

A statement is `foreign` if it belongs to another task or to a later call.  A step is `aimed` if no
timer fires while the backend executes something foreign, and the backend starts on nothing that is
foreign to a `CancelRequest` under way.

* In a run of aimed steps nothing foreign is interrupted (`interrupts_own`).
* Exactly in these runs there is nothing foreign to be interrupted at any time (`onTarget_iff`);
  otherwise the next step can do it (`exists_cancel_of_not_onTarget`).
-/

namespace Resolute.Conn.Timeout

open Prepared (SqlParam callMessages)

/-- A call on a `Client`; the calls are numbered in the order in which they are made. -/
structure Call where
  task : ℕ
  id : ℕ
  deriving DecidableEq, Repr

/-- The calls, after they have looked up the name of their statement. -/
inductive Operation where
  | queryTimeout (sql : String) (params : List SqlParam) (stmtName : Bytes) (needsParse : Bool)
  | executeTimeout (sql : String) (params : List SqlParam) (stmtName : Bytes) (needsParse : Bool)
  /-- Another call; one with several requests counts as several. -/
  | other (messages : List FrontendMsg) (collector : ResponseCollector)

namespace Operation

/-- The call has a timer. -/
def timed : Operation → Bool
  | queryTimeout .. | executeTimeout .. => true
  | other .. => false

/-- What the call sends. -/
def request (call : Call) : Operation → Request Call
  | queryTimeout sql params stmtName needsParse =>
    { messages := callMessages true sql params stmtName needsParse
      collector := .rows
      tag := call }
  | executeTimeout sql params stmtName needsParse =>
    { messages := callMessages false sql params stmtName needsParse
      collector := .rows
      tag := call }
  | other messages collector => { messages := messages, collector := collector, tag := call }

end Operation

/-- A call that has not returned. -/
structure Pending where
  call : Call
  timed : Bool
  request : Request Call
  /-- The number of the request, once the channel has accepted it. -/
  item : Option ℕ

/-- A connection and the calls on it. -/
structure State where
  conn : Conn.State Call
  pending : List Pending
  /-- How many calls were made. -/
  made : ℕ
  /-- The call whose statement the backend executes. -/
  executing : Option Call
  /-- The calls whose `CancelRequest` is under way. -/
  cancels : List Call
  /-- The calls that sent a `CancelRequest`, each with the call that it has interrupted. -/
  interrupted : List (Call × Call)

/-- What happens. -/
inductive Label where
  | call (task : ℕ) (op : Operation)
  /-- The channel accepts the request of a call. -/
  | send (id : ℕ)
  /-- A call returns with what has become of its request. -/
  | finish (id : ℕ)
  /-- The future of a call is dropped, or returns an error that is none of the server's. -/
  | drop (id : ℕ)
  /-- The timer of a call fires, and its `CancelRequest` is sent. -/
  | fire (id : ℕ)
  /-- A `CancelRequest` is processed. -/
  | cancel (c : Call)
  /-- A `CancelRequest` does not reach the server. -/
  | loseCancel (c : Call)
  /-- The backend starts on the next request. -/
  | start
  /-- The backend gives up, as the connection is lost. -/
  | abandon
  /-- A step of the connection. -/
  | conn (l : Conn.Label Call)

namespace State

/-- A new connection. -/
def init : State := ⟨.init, [], 0, none, [], []⟩

/-- The call that has not returned yet. -/
def pending? (s : State) (id : ℕ) : Option Pending := s.pending.find? (·.call.id = id)

/-- The call is not waited for any longer. -/
def forget (s : State) (id : ℕ) : State :=
  { s with pending := s.pending.filter (·.call.id ≠ id) }

/-- The future of the call is ready. -/
def ready (s : State) (p : Pending) : Bool :=
  match p.item with
  | some k => s.conn.responses.any (·.id = k)
  | none => s.conn.closed

end State

/-- One step. -/
def step (s : State) : Label → Option State
  | .call task op =>
    let call := ⟨task, s.made⟩
    some { s with
      made := s.made + 1
      pending := s.pending ++ [⟨call, op.timed, op.request call, none⟩] }
  | .send id => match s.pending? id with
    | some p =>
      if p.item.isSome then none
      else (Conn.step s.conn (.accept p.request)).map fun conn => { s with
        conn := conn
        pending := s.pending.map fun q =>
          if q.call.id = id then { q with item := some s.conn.accepted.length } else q }
    | none => none
  | .finish id => match s.pending? id with
    | some p => if s.ready p then some (s.forget id) else none
    | none => none
  | .drop id => some (s.forget id)
  | .fire id => match s.pending? id with
    | some p =>
      -- a future that is ready wins over the timer
      if p.timed && !s.ready p then some { s.forget id with cancels := p.call :: s.cancels }
      else none
    | none => none
  | .cancel c =>
    if c ∈ s.cancels then some { s with
      cancels := s.cancels.erase c
      interrupted := (s.executing.map fun c' => (c, c')).toList ++ s.interrupted }
    else none
  | .loseCancel c => if c ∈ s.cancels then some { s with cancels := s.cancels.erase c } else none
  | .start => match s.executing, s.conn.unanswered with
    | none, some item =>
      if s.conn.lost || item.req.isTerminate then none
      else some { s with executing := some item.req.tag }
    | _, _ => none
  | .abandon => if s.conn.lost then some { s with executing := none } else none
  | .conn l => match l with
    | .accept _ => none
    | .answer group =>
      if s.executing.isSome then
        (Conn.step s.conn (.answer group)).map fun conn =>
          { s with conn := conn, executing := none }
      else none
    | l => (Conn.step s.conn l).map fun conn => { s with conn := conn }

/-- The calls on a connection. -/
def system : LTS State Label := ⟨step⟩

/-- The second call is by another task than the first, or is a later one. -/
def foreign (c c' : Call) : Bool := c'.task ≠ c.task || c.id < c'.id

/-- If the timer fires, the backend executes nothing foreign to the call; if the backend starts on a
statement, the statement is not foreign to any `CancelRequest` under way. -/
def aimed (s : State) : Label → Bool
  | .fire id => match s.pending? id, s.executing with
    | some p, some c => !foreign p.call c
    | _, _ => true
  | .start => match s.conn.unanswered with
    | some item => s.cancels.all fun c => !foreign c item.req.tag
    | none => true
  | _ => true

/-- No `CancelRequest` under way would interrupt a foreign statement if it arrived now. -/
def OnTarget (s : State) : Prop :=
  ∀ c ∈ s.cancels, ∀ c', s.executing = some c' → foreign c c' = false

/-- Nothing foreign was interrupted. -/
def Unharmed (s : State) : Prop := ∀ x ∈ s.interrupted, foreign x.1 x.2 = false

/-! ### What a step does to the `CancelRequest`s -/

/-- What a step can do to the statement that is executed, and to the `CancelRequest`s. -/
inductive Moves (s : State) : Label → State → Prop
  | fire {id p s'} (hp : s.pending? id = some p) (hexec : s'.executing = s.executing)
    (hcancels : s'.cancels = p.call :: s.cancels) (hint : s'.interrupted = s.interrupted) :
    Moves s (.fire id) s'
  | cancel {c s'} (hc : c ∈ s.cancels) (hexec : s'.executing = s.executing)
    (hcancels : s'.cancels = s.cancels.erase c)
    (hint : s'.interrupted = (s.executing.map fun c' => (c, c')).toList ++ s.interrupted) :
    Moves s (.cancel c) s'
  | start {item s'} (hitem : s.conn.unanswered = some item)
    (hexec : s'.executing = some item.req.tag) (hcancels : s'.cancels = s.cancels)
    (hint : s'.interrupted = s.interrupted) : Moves s .start s'
  | other {l s'} (haimed : aimed s l = true)
    (hexec : s'.executing = s.executing ∨ s'.executing = none)
    (hcancels : s'.cancels ⊆ s.cancels) (hint : s'.interrupted = s.interrupted) : Moves s l s'

theorem moves_of_step {s s' : State} {l : Label} (h : system.step s l = some s') :
    Moves s l s' := by
  cases l <;> simp only [system, step] at h
  case call task op =>
    cases h
    exact .other rfl (.inl rfl) (List.Subset.refl _) rfl
  case send id =>
    split at h
    · split_ifs at h
      obtain ⟨conn, -, rfl⟩ := Option.map_eq_some_iff.1 h
      exact .other rfl (.inl rfl) (List.Subset.refl _) rfl
    · cases h
  case finish id =>
    split at h
    · split_ifs at h
      cases h
      exact .other rfl (.inl rfl) (List.Subset.refl _) rfl
    · cases h
  case drop id =>
    cases h
    exact .other rfl (.inl rfl) (List.Subset.refl _) rfl
  case fire id =>
    split at h
    case h_1 p hp =>
      split_ifs at h
      cases h
      exact .fire hp rfl rfl rfl
    · cases h
  case cancel c =>
    split_ifs at h with hc
    cases h
    exact .cancel hc rfl rfl rfl
  case loseCancel c =>
    split_ifs at h
    cases h
    exact .other rfl (.inl rfl) (List.erase_subset) rfl
  case start =>
    split at h
    case h_1 item _ hitem =>
      split_ifs at h
      cases h
      exact .start hitem rfl rfl rfl
    · cases h
  case abandon =>
    split_ifs at h
    cases h
    exact .other rfl (.inr rfl) (List.Subset.refl _) rfl
  case conn l =>
    split at h
    · cases h
    · split_ifs at h
      obtain ⟨conn, -, rfl⟩ := Option.map_eq_some_iff.1 h
      exact .other rfl (.inr rfl) (List.Subset.refl _) rfl
    · obtain ⟨conn, -, rfl⟩ := Option.map_eq_some_iff.1 h
      exact .other rfl (.inl rfl) (List.Subset.refl _) rfl

/-- **The aimed steps are exactly those that keep the `CancelRequest`s on target.** -/
theorem onTarget_step {s s' : State} {l : Label} (hs : OnTarget s)
    (h : system.step s l = some s') : OnTarget s' ↔ aimed s l = true := by
  cases moves_of_step h with
  | @fire id p _ hp hexec hcancels hint =>
    simp only [OnTarget, hexec, hcancels, List.mem_cons, forall_eq_or_imp, aimed, hp]
    cases hexec' : s.executing with
    | none => simp
    | some c' =>
      rw [and_iff_left fun c hc => by simpa [hexec'] using hs c hc]
      simp
  | @cancel c _ hc hexec hcancels hint =>
    refine iff_of_true (fun x hx => ?_) rfl
    rw [hexec]
    exact hs x (List.mem_of_mem_erase (hcancels ▸ hx))
  | @start item _ hitem hexec hcancels hint =>
    simp [OnTarget, hexec, hcancels, aimed, hitem]
  | other haimed hexec hcancels hint =>
    refine iff_of_true (fun c hc c' hc' => ?_) haimed
    rcases hexec with hexec | hexec
    · exact hs c (hcancels hc) c' (hexec ▸ hc')
    · rw [hexec] at hc'
      cases hc'

/-- A `CancelRequest` that is on target interrupts nothing foreign. -/
theorem unharmed_step {s s' : State} {l : Label} (hs : OnTarget s) (hu : Unharmed s)
    (h : system.step s l = some s') : Unharmed s' := by
  cases moves_of_step h with
  | @cancel c _ hc hexec hcancels hint =>
    intro x hx
    rw [hint, List.mem_append, Option.mem_toList, Option.map_eq_some_iff] at hx
    rcases hx with ⟨c', hc', rfl⟩ | hx
    · exact hs c hc c' hc'
    · exact hu x hx
  | fire hp hexec hcancels hint => exact fun x hx => hu x (hint ▸ hx)
  | start hitem hexec hcancels hint => exact fun x hx => hu x (hint ▸ hx)
  | other haimed hexec hcancels hint => exact fun x hx => hu x (hint ▸ hx)

/-! ### Runs -/

/-- **In a run of aimed steps no `CancelRequest` interrupts a statement of another task or of a
later call.** -/
theorem interrupts_own {s : State}
    (h : (system.guard fun s l => aimed s l = true).Reachable .init s) : Unharmed s := by
  have hinit : OnTarget .init ∧ Unharmed .init :=
    ⟨fun c hc => (by cases hc), fun x hx => (by cases hx)⟩
  have hs := h.guard_invariant (I := fun s => OnTarget s ∧ Unharmed s) hinit
    fun s l s' hI hG hl => ⟨(onTarget_step hI.1 hl).2 hG, unharmed_step hI.1 hI.2 hl⟩
  exact hs.2

/-- **The condition is exact**: it is met by the runs in which no `CancelRequest` would interrupt a
foreign statement, at whatever time it arrives. -/
theorem onTarget_iff {s : State} {ls : List Label} (h : system.exec .init ls = some s) :
    system.Along OnTarget .init ls ↔
      (system.guard fun s l => aimed s l = true).exec .init ls = some s :=
  LTS.along_iff_exec_guard (R := fun _ => True) (fun _ _ _ _ _ => trivial)
    (fun _ _ _ _ hI hl => onTarget_step hI hl) trivial (fun c hc => by cases hc) h

/-- Off target, the next step can interrupt a foreign statement. -/
theorem exists_cancel_of_not_onTarget {s : State} (h : ¬ OnTarget s) :
    ∃ c s', system.step s (.cancel c) = some s' ∧ ¬ Unharmed s' := by
  simp only [OnTarget, not_forall] at h
  obtain ⟨c, hc, c', hc', hforeign⟩ := h
  refine ⟨c, _, if_pos hc, fun hu => hforeign (hu (c, c') ?_)⟩
  simp [hc']

/-- A request that takes long. -/
def sleep : Operation := .other [.query (asBytes "SELECT pg_sleep(60)")] .drain

/-- A call is alone on the connection; its timer fires, and its statement is interrupted. -/
def ownRun : List Label :=
  [.call 1 (.executeTimeout "SELECT pg_sleep(60)" [] (asBytes "s0") true), .send 0, .conn .recv,
    .conn .startWrite, .conn .transmit, .start, .fire 0, .cancel ⟨1, 0⟩]

/-- The timer fires while the backend is at the statement of another task. -/
def foreignRun : List Label :=
  [.call 0 sleep, .send 0, .call 1 (.executeTimeout "SELECT 1" [] (asBytes "s0") true), .send 1,
    .conn .recv, .conn .tryRecv, .conn .startWrite, .conn .transmit, .conn .transmit, .start,
    .fire 1, .cancel ⟨1, 1⟩]

theorem interrupts_own_ownRun : ∃ s : State,
    (system.guard fun s l => aimed s l = true).Reachable .init s ∧
      s.interrupted = [(⟨1, 0⟩, ⟨1, 0⟩)] ∧ Unharmed s := by
  have hrun : (system.guard fun s l => aimed s l = true).exec .init ownRun = some _ := rfl
  exact ⟨_, LTS.reachable_of_exec hrun, rfl, interrupts_own (LTS.reachable_of_exec hrun)⟩

theorem exists_foreign_interrupt : ∃ s : State, system.Reachable .init s ∧ ¬ Unharmed s := by
  have hrun : system.exec .init foreignRun = some _ := rfl
  exact ⟨_, LTS.reachable_of_exec hrun, fun h => absurd (h (⟨1, 1⟩, ⟨0, 0⟩) (.head _)) (by decide)⟩

end Resolute.Conn.Timeout
