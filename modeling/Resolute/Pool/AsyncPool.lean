import Resolute.LTS.Basic
import Resolute.LTS.Tally
import Resolute.Wire.Types

/-!
# Closing an `AsyncPool`

An `AsyncPool` has a fixed number of slots, each with a connection.  `close` goes through the slots
and closes the connection it finds in each; it leaves no mark on the pool.  The health monitor looks
for dead connections every five seconds and replaces them.  It does not learn that the pool was
closed, and a reconnection that it has begun before ends with a fresh connection in the slot.

What a `close` that has returned is for is `Final`.  A pool is closed for good in every run of
`Orderly` steps (`close_final`): the monitor fills no slot behind the back of a `close`, and no
`close` gives up.
-/

namespace Resolute.AsyncPool

/-- A connection, as the pool and the server see it. -/
structure AsyncConn where
  /-- The flag that `is_alive` reads. -/
  alive : Bool
  /-- The connection is open and the server serves it. -/
  up : Bool
  deriving DecidableEq

/-- The calls that go through the pool. -/
inductive Entry where
  | getAsync
  /-- `SharedPool::get`. -/
  | get
  | execTransaction
  | execQuery
  | execQueryWithFormats
  deriving DecidableEq

/-- The call returns the connection and does nothing with it. -/
def Entry.handsOut : Entry → Bool
  | getAsync | get => true
  | execTransaction | execQuery | execQueryWithFormats => false

/-- How far a call has come. -/
inductive Phase where
  /-- `get_async` has looked at `i` slots, from `start` on. -/
  | searching (start i : ℕ)
  /-- A request was submitted to connection `c`. -/
  | running (c : ℕ)
  /-- The call is over: its request was answered, or the connection that it returned was open. -/
  | completed (success : Bool)
  deriving DecidableEq

structure Call where
  entry : Entry
  /-- The call was submitted after a `close` had returned. -/
  late : Bool
  phase : Phase
  deriving DecidableEq

/-- A `close` of the pool. -/
inductive Closer where
  /-- It is about to take the read lock of slot `i`. -/
  | waiting (i : ℕ)
  /-- It holds the lock of slot `i` and awaits the `close` of its connection `c`. -/
  | closing (i c : ℕ)
  | returned
  /-- Its future was dropped. -/
  | dropped
  deriving DecidableEq

namespace Closer

/-- The `close` is done with slot `i`. -/
def hasPassed (i : ℕ) : Closer → Bool
  | waiting j | closing j _ => decide (i < j)
  | returned => true
  | dropped => false

/-- The `close` holds the read lock of slot `i` at an await point. -/
def holds (i : ℕ) : Closer → Bool
  | closing j _ => decide (j = i)
  | _ => false

end Closer

/-- `health_monitor`. -/
inductive Monitor where
  | sleeping
  | checking (i : ℕ)
  /-- In `connect_with_options`, for slot `i`. -/
  | connecting (i : ℕ)
  /-- About to take the write lock of slot `i`, with the new connection. -/
  | storing (i c : ℕ)
  deriving DecidableEq

/-- A pool and all that goes on in it.  A connection is named by its place in `conns`. -/
structure State where
  conns : List AsyncConn
  slots : List ℕ
  counter : ℕ
  monitor : Monitor
  closers : List Closer
  calls : List Call

inductive Label where
  | submit (entry : Entry)
  /-- Call `j` looks at its next slot. -/
  | search (j : ℕ)
  /-- The server answers the request of call `j`. -/
  | answer (j : ℕ)
  | fail (j : ℕ)
  | close
  /-- `close` number `k` takes the lock of its next slot, if there is one. -/
  | enter (k : ℕ)
  /-- The `close` of the connection returns to `close` number `k`: the server has closed it, or the
  request has timed out, or failed otherwise. -/
  | leave (k : ℕ)
  /-- `close` number `k` is cancelled. -/
  | cancel (k : ℕ)
  | tick
  | check
  | connected
  | connectFailed
  | store
  /-- The connection ends, by the server or on the way. -/
  | lose (c : ℕ)
  /-- A write of the writer task fails. -/
  | writerExit (c : ℕ)
  deriving DecidableEq

namespace State

/-- `is_alive` of a connection. -/
def isAlive (s : State) (c : ℕ) : Bool := (s.conns[c]?).any AsyncConn.alive

def up (s : State) (c : ℕ) : Bool := (s.conns[c]?).any AsyncConn.up

/-- A `close` has returned. -/
def closed (s : State) : Bool := s.closers.any (· == .returned)

/-- What becomes of a call that got connection `c` from `get_async`. -/
def gotten (s : State) (entry : Entry) (c : ℕ) : Phase :=
  if entry.handsOut then .completed (s.up c) else .running c

end State

/-- The wrapping counter of `get_async`. -/
def fetchAdd (n : ℕ) : ℕ := (n + 1) % 18446744073709551616

/-- A pool of `size` new connections. -/
def connect (size : ℕ) : Except PgWireError State :=
  if size = 0 then .error (.protocol "pool size must be >= 1")
  else .ok ⟨List.replicate size ⟨true, true⟩, List.range size, 0, .sleeping, [], []⟩

/-- One step of `get_async`: its loop reads each slot once and returns the first connection that is
alive; after the loop it returns that of the first slot. -/
def searchSlot (s : State) (entry : Entry) (start i : ℕ) : Option Phase :=
  let len := s.slots.length
  if i < len then
    (s.slots[(start + i) % len]?).map fun c =>
      if s.isAlive c then s.gotten entry c else .searching start (i + 1)
  else (s.slots[start % len]?).map fun c => s.gotten entry c

/-- One step. -/
def step (s : State) : Label → Option State
  | .submit entry => some { s with
      counter := fetchAdd s.counter,
      calls := s.calls ++ [⟨entry, s.closed, .searching (s.counter % s.slots.length) 0⟩] }
  | .search j => match s.calls[j]? with
    | some ⟨entry, late, .searching start i⟩ => (searchSlot s entry start i).map fun phase =>
      { s with calls := s.calls.set j ⟨entry, late, phase⟩ }
    | _ => none
  | .answer j => match s.calls[j]? with
    | some ⟨entry, late, .running c⟩ =>
      if s.up c then some { s with calls := s.calls.set j ⟨entry, late, .completed true⟩ } else none
    | _ => none
  | .fail j => match s.calls[j]? with
    | some ⟨entry, late, .running _⟩ =>
      some { s with calls := s.calls.set j ⟨entry, late, .completed false⟩ }
    | _ => none
  | .close => some { s with closers := s.closers ++ [.waiting 0] }
  | .enter k => match s.closers[k]? with
    | some (.waiting i) => match s.slots[i]? with
      | some c =>
        let next : Closer := if s.isAlive c then .closing i c else .waiting (i + 1)
        some { s with closers := s.closers.set k next }
      | none => some { s with closers := s.closers.set k .returned }
    | _ => none
  | .leave k => match s.closers[k]? with
    | some (.closing i _) => some { s with closers := s.closers.set k (.waiting (i + 1)) }
    | _ => none
  | .cancel k => match s.closers[k]? with
    | some (.waiting _) | some (.closing _ _) =>
      some { s with closers := s.closers.set k .dropped }
    | _ => none
  | .tick => match s.monitor with
    | .sleeping => some { s with monitor := .checking 0 }
    | _ => none
  | .check => match s.monitor with
    | .checking i => match s.slots[i]? with
      | some c =>
        let isDead := !s.isAlive c
        some { s with monitor := if isDead then .connecting i else .checking (i + 1) }
      | none => some { s with monitor := .sleeping }
    | _ => none
  | .connected => match s.monitor with
    | .connecting i => some { s with
        conns := s.conns ++ [⟨true, true⟩], monitor := .storing i s.conns.length }
    | _ => none
  | .connectFailed => match s.monitor with
    | .connecting i => some { s with monitor := .checking (i + 1) }
    | _ => none
  | .store => match s.monitor with
    | .storing i c =>
      -- the write lock waits for the readers that hold the slot
      if s.closers.any (Closer.holds i) then none
      else some { s with slots := s.slots.set i c, monitor := .checking (i + 1) }
    | _ => none
  | .lose c => match s.conns[c]? with
    | some conn => some { s with conns := s.conns.set c { conn with up := false } }
    | none => none
  | .writerExit c => match s.conns[c]? with
    | some ⟨true, false⟩ => some { s with conns := s.conns.set c ⟨false, false⟩ }
    | _ => none

/-- An `AsyncPool` as a transition system. -/
def system : LTS State Label := ⟨step⟩

/-- The pool stays closed: once a `close` has returned no slot holds an open connection, and no call
that was submitted after that is successful. -/
def Final (s : State) : Prop :=
  (s.closed = true → ∀ c ∈ s.slots, s.up c = false) ∧
    ∀ call ∈ s.calls, call.late = true → call.phase ≠ .completed true

/-- The health monitor stores no open connection in a slot that a `close` is done with, and the
`close` of a connection returns when the connection has ended. -/
def Orderly (s : State) : Label → Prop
  | .store => match s.monitor with
    | .storing i c => s.up c = true → ∀ closer ∈ s.closers, closer.hasPassed i = false
    | _ => True
  | .leave k => match s.closers[k]? with
    | some (.closing _ c) => s.up c = false
    | _ => True
  | _ => True

instance (s : State) (l : Label) : Decidable (Orderly s l) := by
  unfold Orderly
  split
  · split <;> infer_instance
  · split <;> infer_instance
  · infer_instance

/-- The connection was made and has ended. -/
def State.Down (s : State) (c : ℕ) : Prop := c < s.conns.length ∧ s.up c = false

/-- A late call has no open connection and has had none. -/
def CallOk (s : State) (call : Call) : Prop := call.late = true →
  s.closed = true ∧ (∀ c, call.phase = .running c → s.Down c) ∧ call.phase ≠ .completed true

/-- The invariant of orderly runs. -/
structure Inv (s : State) : Prop where
  dead : ∀ c, s.isAlive c = false → s.up c = false
  made : ∀ i c : ℕ, s.slots[i]? = some c → c < s.conns.length
  storing : ∀ i c, s.monitor = .storing i c → c < s.conns.length
  closing : ∀ i c : ℕ, Closer.closing i c ∈ s.closers → s.slots[i]? = some c
  passed : ∀ closer ∈ s.closers, ∀ i c, closer.hasPassed i = true → s.slots[i]? = some c → s.Down c
  calls : ∀ call ∈ s.calls, CallOk s call

section

variable {s s' : State} {l : Label}

theorem closed_iff : s.closed = true ↔ Closer.returned ∈ s.closers := by
  simp [State.closed]

theorem Inv.down_of_closed (hs : Inv s) (h : s.closed = true) {i c : ℕ}
    (hi : s.slots[i]? = some c) : s.Down c :=
  hs.passed .returned (closed_iff.1 h) i c rfl hi

theorem Inv.final (hs : Inv s) : Final s := by
  refine ⟨fun h c hc => ?_, fun call hcall hlate => (hs.calls call hcall hlate).2.2⟩
  obtain ⟨i, hi⟩ := List.mem_iff_getElem?.1 hc
  exact (hs.down_of_closed h hi).2

/-- A call that has no connection. -/
theorem callOk_of_phase {call : Call} (hlate : call.late = true → s.closed = true)
    (hrunning : ∀ c, call.phase ≠ .running c) (hne : call.phase ≠ .completed true) :
    CallOk s call :=
  fun h => ⟨hlate h, fun c hc => absurd hc (hrunning c), hne⟩

/-- `get_async` hands out no open connection when the pool is closed. -/
theorem callOk_gotten (hs : Inv s) {entry : Entry} {late : Bool} {i c : ℕ}
    (hi : s.slots[i]? = some c) (hlate : late = true → s.closed = true) :
    CallOk s ⟨entry, late, s.gotten entry c⟩ := by
  intro h
  have hdown := hs.down_of_closed (hlate h) hi
  refine ⟨hlate h, fun c' hc' => ?_, fun hc' => ?_⟩
  · unfold State.gotten at hc'
    split_ifs at hc'
    cases hc'
    exact hdown
  · unfold State.gotten at hc'
    split_ifs at hc'
    rw [hdown.2] at hc'
    cases hc'

theorem callOk_searchSlot (hs : Inv s) {entry : Entry} {late : Bool} {start i : ℕ} {phase : Phase}
    (h : searchSlot s entry start i = some phase) (hlate : late = true → s.closed = true) :
    CallOk s ⟨entry, late, phase⟩ := by
  unfold searchSlot at h
  dsimp only at h
  split_ifs at h
  · obtain ⟨c, hc, rfl⟩ := Option.map_eq_some_iff.1 h
    split_ifs
    · exact callOk_gotten hs hc hlate
    · exact callOk_of_phase hlate (fun _ h => by cases h) fun h => by cases h
  · obtain ⟨c, hc, rfl⟩ := Option.map_eq_some_iff.1 h
    exact callOk_gotten hs hc hlate

/-- A step of a call. -/
theorem Inv.setCalls (hs : Inv s) (counter : ℕ) {calls : List Call}
    (h : ∀ call ∈ calls, call ∈ s.calls ∨ CallOk s call) :
    Inv { s with counter, calls } where
  dead := hs.dead
  made := hs.made
  storing := hs.storing
  closing := hs.closing
  passed := hs.passed
  calls call hcall := (h call hcall).elim (hs.calls call) id

theorem Inv.setCall (hs : Inv s) {j : ℕ} {call : Call} (h : CallOk s call) :
    Inv { s with calls := s.calls.set j call } :=
  hs.setCalls s.counter fun other hc => by
    rcases List.mem_or_eq_of_mem_set hc with hold | rfl
    · exact .inl hold
    · exact .inr h

theorem Inv.setMonitor (hs : Inv s) {monitor : Monitor}
    (h : ∀ i c, monitor = .storing i c → c < s.conns.length) : Inv { s with monitor } where
  dead := hs.dead
  made := hs.made
  storing := h
  closing := hs.closing
  passed := hs.passed
  calls := hs.calls

/-- A step of a `close`, which has not returned yet. -/
theorem Inv.setCloser (hs : Inv s) {k : ℕ} {closer closer' : Closer}
    (hk : s.closers[k]? = some closer) (hne : closer ≠ .returned)
    (hclosing : ∀ i c, closer' = .closing i c → s.slots[i]? = some c)
    (hpassed : ∀ i c, closer'.hasPassed i = true → s.slots[i]? = some c → s.Down c) :
    Inv { s with closers := s.closers.set k closer' } where
  dead := hs.dead
  made := hs.made
  storing := hs.storing
  closing i c hmem := (List.mem_or_eq_of_mem_set hmem).elim (hs.closing i c)
    fun heq => hclosing i c heq.symm
  passed other hmem i c h hi := by
    rcases List.mem_or_eq_of_mem_set hmem with hold | rfl
    · exact hs.passed other hold i c h hi
    · exact hpassed i c h hi
  calls call hcall hlate := by
    obtain ⟨hclosed, hrest⟩ := hs.calls call hcall hlate
    refine ⟨closed_iff.2 ?_, hrest⟩
    obtain ⟨m, hm⟩ := List.mem_iff_getElem?.1 (closed_iff.1 hclosed)
    have hmk : k ≠ m := by
      rintro rfl
      exact hne (Option.some_inj.1 (hk.symm.trans hm))
    exact List.mem_iff_getElem?.2 ⟨m, (List.getElem?_set_ne hmk).trans hm⟩

/-- A `close` that has passed the slots below `i`, and finds no open connection in slot `i`, may go
on to the next. -/
theorem Inv.passed_succ (hs : Inv s) {k i c : ℕ} {closer : Closer}
    (hk : s.closers[k]? = some closer) (hlt : ∀ j, j < i → closer.hasPassed j = true)
    (hi : s.slots[i]? = some c) (hup : s.up c = false) :
    ∀ j c', (Closer.waiting (i + 1)).hasPassed j = true → s.slots[j]? = some c' → s.Down c' := by
  intro j c' hj hc'
  have hle : j < i + 1 := of_decide_eq_true hj
  rcases Nat.lt_succ_iff_lt_or_eq.1 hle with h | rfl
  · exact hs.passed closer (List.mem_of_getElem? hk) j c' (hlt j h) hc'
  · obtain rfl : c = c' := Option.some_inj.1 (hi.symm.trans hc')
    exact ⟨hs.made j c hi, hup⟩

/-- A change of connections that opens none of those that have ended. -/
theorem Inv.setConns (hs : Inv s) {conns : List AsyncConn} {monitor : Monitor}
    (hlen : s.conns.length ≤ conns.length)
    (hdead : ∀ c : ℕ, (conns[c]?).any AsyncConn.alive = false →
      (conns[c]?).any AsyncConn.up = false)
    (hdown : ∀ c : ℕ, c < s.conns.length → s.up c = false → (conns[c]?).any AsyncConn.up = false)
    (hmonitor : ∀ i c, monitor = .storing i c → c < conns.length) :
    Inv { s with conns, monitor } := by
  have hmono : ∀ c, s.Down c → State.Down { s with conns, monitor } c := fun c h =>
    ⟨Nat.lt_of_lt_of_le h.1 hlen, hdown c h.1 h.2⟩
  exact {
    dead := hdead
    made := fun i c hi => Nat.lt_of_lt_of_le (hs.made i c hi) hlen
    storing := hmonitor
    closing := hs.closing
    passed := fun closer hm i c h hi => hmono c (hs.passed closer hm i c h hi)
    calls := fun call hc hlate =>
      let ⟨hclosed, hrunning, hne⟩ := hs.calls call hc hlate
      ⟨hclosed, fun c h => hmono c (hrunning c h), hne⟩ }

/-- The end of a connection, with or without its writer task. -/
theorem Inv.setDown (hs : Inv s) {c : ℕ} {conn : AsyncConn} (h : conn.up = false) :
    Inv { s with conns := s.conns.set c conn } := by
  have hset : ∀ d : ℕ, (s.conns.set c conn)[d]? = s.conns[d]? ∨
      ((s.conns.set c conn)[d]?).any AsyncConn.up = false := by
    intro d
    rw [List.getElem?_set]
    split_ifs
    · exact .inr h
    · exact .inr rfl
    · exact .inl rfl
  refine hs.setConns (Nat.le_of_eq (List.length_set ..).symm) (fun d hd => ?_) (fun d _ hd => ?_)
    fun i d hd => (List.length_set ..).symm ▸ hs.storing i d hd
  · rcases hset d with heq | heq
    · rw [heq] at hd ⊢
      exact hs.dead d hd
    · exact heq
  · rcases hset d with heq | heq
    · rw [heq]
      exact hd
    · exact heq

/-- A connection is made. -/
theorem Inv.connected (hs : Inv s) {i : ℕ} : Inv { s with
    conns := s.conns ++ [⟨true, true⟩], monitor := .storing i s.conns.length } := by
  refine hs.setConns (by simp) (fun c hc => ?_) (fun c hlt hc => ?_) fun j c h => ?_
  · rw [List.getElem?_append] at hc ⊢
    split_ifs at hc ⊢
    · exact hs.dead c hc
    · cases hidx : c - s.conns.length with
      | zero => rw [hidx] at hc; cases hc
      | succ n => rfl
  · rw [List.getElem?_append_left hlt]
    exact hc
  · cases h
    simp

/-- The health monitor replaces a connection, but not that of a slot that a `close` is done with,
unless the new one has ended. -/
theorem Inv.store (hs : Inv s) {i c : ℕ} (hm : s.monitor = .storing i c)
    (hholds : s.closers.any (Closer.holds i) = false)
    (hg : s.up c = true → ∀ closer ∈ s.closers, closer.hasPassed i = false) :
    Inv { s with slots := s.slots.set i c, monitor := .checking (i + 1) } where
  dead := hs.dead
  made j d hd := by
    rcases getElem?_set_cases hd with ⟨rfl, rfl⟩ | ⟨-, hd⟩
    · exact hs.storing _ _ hm
    · exact hs.made j d hd
  storing j d h := by cases h
  closing j d hmem := by
    have hji : i ≠ j := by
      rintro rfl
      have := List.any_eq_false.1 hholds _ hmem
      simp [Closer.holds] at this
    exact (List.getElem?_set_ne hji).trans (hs.closing j d hmem)
  passed closer hmem j d h hd := by
    rcases getElem?_set_cases hd with ⟨rfl, rfl⟩ | ⟨-, hd⟩
    · refine ⟨hs.storing _ _ hm, Bool.eq_false_iff.2 fun hup => ?_⟩
      rw [hg hup closer hmem] at h
      cases h
    · exact hs.passed closer hmem j d h hd
  calls := hs.calls

theorem Inv.enter (hs : Inv s) {k : ℕ} (h : step s (.enter k) = some s') : Inv s' := by
  simp only [step] at h
  split at h
  case h_2 => cases h
  case h_1 i hk =>
    have hmem := List.mem_of_getElem? hk
    have hlt : ∀ j, j < i → (Closer.waiting i).hasPassed j = true := fun j hj => by
      simpa [Closer.hasPassed] using hj
    split at h <;> cases h
    case h_1 c hi =>
      split_ifs with halive
      · refine hs.setCloser hk (fun h => by cases h) (fun j d h => ?_) fun j d hj hd => ?_
        · cases h
          exact hi
        · exact hs.passed _ hmem j d hj hd
      · refine hs.setCloser hk (fun h => by cases h) (fun j d h => by cases h) ?_
        exact hs.passed_succ hk hlt hi (hs.dead c (Bool.eq_false_iff.2 halive))
    case h_2 hi =>
      refine hs.setCloser hk (fun h => by cases h) (fun j d h => by cases h) fun j d _ hd => ?_
      -- all slots are below `i`
      have hj : j < i := Nat.lt_of_lt_of_le (List.getElem?_eq_some_iff.1 hd).1
        (List.getElem?_eq_none_iff.1 hi)
      exact hs.passed _ hmem j d (hlt j hj) hd

theorem Inv.leave (hs : Inv s) {k : ℕ} (hg : Orderly s (.leave k))
    (h : step s (.leave k) = some s') : Inv s' := by
  simp only [step] at h
  split at h <;> cases h
  case h_1 i c hk =>
    simp only [Orderly, hk] at hg
    refine hs.setCloser hk (fun h => by cases h) (fun j d h => by cases h) ?_
    refine hs.passed_succ hk (fun j hj => ?_) (hs.closing i c (List.mem_of_getElem? hk)) hg
    simpa [Closer.hasPassed] using hj

/-- A `close` begins. -/
theorem Inv.close (hs : Inv s) : Inv { s with closers := s.closers ++ [.waiting 0] } where
  dead := hs.dead
  made := hs.made
  storing := hs.storing
  closing i c hmem := (List.mem_append.1 hmem).elim (hs.closing i c) (by simp)
  passed closer hmem i c h hi := by
    rcases List.mem_append.1 hmem with hold | hnew
    · exact hs.passed closer hold i c h hi
    · cases List.mem_singleton.1 hnew
      cases h
  calls call hcall hlate := by
    obtain ⟨hclosed, hrest⟩ := hs.calls call hcall hlate
    exact ⟨closed_iff.2 (List.mem_append_left _ (closed_iff.1 hclosed)), hrest⟩

/-- An orderly step preserves the invariant. -/
theorem Inv.step (hs : Inv s) (hg : Orderly s l) (h : system.step s l = some s') : Inv s' := by
  cases l with
  | enter k => exact hs.enter h
  | leave k => exact hs.leave hg h
  | submit entry =>
    cases h
    refine hs.setCalls _ fun call hc => ?_
    rcases List.mem_append.1 hc with hold | hnew
    · exact .inl hold
    · -- a call that has just come in has no connection yet
      cases List.mem_singleton.1 hnew
      exact .inr (callOk_of_phase id (fun _ h => by cases h) fun h => by cases h)
  | search j =>
    simp only [system, AsyncPool.step] at h
    split at h
    case h_2 => cases h
    case h_1 entry late start i hj =>
      obtain ⟨phase, hphase, rfl⟩ := Option.map_eq_some_iff.1 h
      exact hs.setCall (callOk_searchSlot hs hphase fun hl =>
        (hs.calls _ (List.mem_of_getElem? hj) hl).1)
  | answer j =>
    simp only [system, AsyncPool.step] at h
    split at h
    case h_2 => cases h
    case h_1 entry late c hj =>
      split_ifs at h with hup
      cases h
      -- the call is not a late one, as its connection is open
      refine hs.setCall fun hl => ?_
      obtain ⟨-, hdown⟩ := (hs.calls _ (List.mem_of_getElem? hj) hl).2.1 c rfl
      rw [hup] at hdown
      cases hdown
  | fail j =>
    simp only [system, AsyncPool.step] at h
    split at h <;> cases h
    case h_1 entry late c hj =>
      exact hs.setCall (callOk_of_phase (fun hl => (hs.calls _ (List.mem_of_getElem? hj) hl).1)
        (fun _ h => by cases h) fun h => by cases h)
  | close =>
    cases h
    exact hs.close
  | cancel k =>
    simp only [system, AsyncPool.step] at h
    split at h <;> cases h
    all_goals
      rename_i hk
      exact hs.setCloser hk (fun h => by cases h) (fun j d h => by cases h) fun j d h => by cases h
  | tick =>
    simp only [system, AsyncPool.step] at h
    split at h <;> cases h
    exact hs.setMonitor fun i c h => by cases h
  | check =>
    simp only [system, AsyncPool.step] at h
    split at h
    case h_2 => cases h
    case h_1 i hm =>
      split at h <;> cases h
      -- the monitor looks at the next slot
      case h_1 c hi => exact hs.setMonitor fun j d h => by split_ifs at h
      case h_2 hi => exact hs.setMonitor fun j d h => by cases h
  | connected =>
    simp only [system, AsyncPool.step] at h
    split at h <;> cases h
    exact hs.connected
  | connectFailed =>
    simp only [system, AsyncPool.step] at h
    split at h <;> cases h
    exact hs.setMonitor fun i c h => by cases h
  | store =>
    simp only [system, AsyncPool.step] at h
    split at h
    case h_2 => cases h
    case h_1 i c hm =>
      split_ifs at h with hholds
      cases h
      simp only [Orderly, hm] at hg
      exact hs.store hm (Bool.eq_false_iff.2 hholds) hg
  | lose c =>
    simp only [system, AsyncPool.step] at h
    split at h <;> cases h
    exact hs.setDown rfl
  | writerExit c =>
    simp only [system, AsyncPool.step] at h
    split at h <;> cases h
    exact hs.setDown rfl

theorem inv_connect {size : ℕ} (h : connect size = .ok s) : Inv s := by
  unfold connect at h
  split_ifs at h
  cases h
  exact {
    dead := fun c hc => by
      simp only [State.isAlive, State.up, List.getElem?_replicate] at hc ⊢
      split_ifs at hc ⊢
      · cases hc
      · rfl
    made := fun i c hi => by
      obtain ⟨hlt, rfl⟩ := List.getElem?_eq_some_iff.1 hi
      simpa using hlt
    storing := fun i c h => by cases h
    closing := fun i c h => by cases h
    passed := fun closer h => by cases h
    calls := fun call h => by cases h }

/-- **When a close is final.**  In a run in which the health monitor stores no open connection in a
slot that a `close` is done with, and every `close` of a connection lasts until the connection has
ended, no slot holds an open connection once a `close` of the pool has returned, and no call that is
submitted after that succeeds. -/
theorem close_final {size : ℕ} {s₀ : State} (h₀ : connect size = .ok s₀)
    (h : (system.guard Orderly).Reachable s₀ s) : Final s :=
  (h.guard_invariant (inv_connect h₀) fun _ _ _ hs hg hstep => hs.step hg hstep).final

end

/-- A pool with one slot is closed, and an operation is tried. -/
def closeRun : List Label :=
  [.close, .enter 0, .lose 0, .leave 0, .enter 0, .submit .execQuery, .search 0, .fail 0,
    .writerExit 0]

theorem close_final_closeRun : ∃ s₀ s, connect 1 = .ok s₀ ∧
    (system.guard Orderly).exec s₀ closeRun = some s ∧ s.closed = true ∧ Final s := by
  have h₀ : connect 1 = .ok ⟨[⟨true, true⟩], [0], 0, .sleeping, [], []⟩ := rfl
  have h : (system.guard Orderly).exec ⟨[⟨true, true⟩], [0], 0, .sleeping, [], []⟩ closeRun =
    some _ := rfl
  exact ⟨_, _, h₀, h, rfl, close_final h₀ (LTS.reachable_of_exec h)⟩

/-- The health monitor finds the connection dead, as it should be, and opens the pool again. -/
theorem pool_reopened : ∃ s₀ s, connect 1 = .ok s₀ ∧ system.exec s₀ (closeRun ++
    [.tick, .check, .connected, .store, .submit .execQuery, .search 1, .answer 1]) = some s ∧
    s.closed = true ∧ (∃ c ∈ s.slots, s.up c = true) ∧
      s.calls[1]? = some ⟨.execQuery, true, .completed true⟩ ∧ ¬Final s := by
  refine ⟨_, _, rfl, rfl, rfl, ⟨1, List.mem_cons_self .., rfl⟩, rfl, fun hf => ?_⟩
  exact hf.2 _ (List.mem_cons_of_mem _ (List.mem_cons_self ..)) rfl rfl

end Resolute.AsyncPool
