import Resolute.Pool.Moves

/-!
# What the counters of the pool count

Each counter of the pool is a sum of weights over the tasks, and what is on the idle list:

* `total_count` counts the connections of the idle list, those that tasks have, the reservations of
  `create_and_track`, and what was lost with a future that was dropped; a connection that `warm_up`
  has pushed is counted one step later (`totalCount_eq`);
* `in_use_count` counts guards (`inUseCount_eq`);
* `waiter_count` counts the calls of `get` that have queued a sender, as long as `drain` finds no
  waiters (`gauge_exact`).

As long as no connection and no reservation is dropped with a future (`keepsSlots`), the counters
agree with the idle list and the guards in every state `AtRest`, where no step of the pool is
half-way (`conserved`).
-/

namespace Resolute.Pool

variable {C A : Type}

/-- What a task contributes to `total_count`. -/
def Task.slots : Task C → ℤ
  | checkout _ | parked (some _) _ | served _ | counted _ | held _ | taking | returning _
  | checking _ | resetting _ _ | resetDone _ | destroying _ _ | handing _ _ | parking _ _ => 1
  | creating _ .undo | creating _ .connect | creating _ .failed => 1
  -- the connection is on the idle list already
  | warmCount _ => -1
  | _ => 0

/-- What a task contributes to `in_use_count`. -/
def Task.borrowed : Task C → ℤ
  | counted _ | held _ | returning _ => 1
  | _ => 0

/-- What a task contributes to `waiter_count`: it has queued a sender and has not returned. -/
def Task.waiting : Task C → ℤ
  | parked _ _ | served _ | counted _ | timedOut | leaving => 1
  | _ => 0

/-- The weight behind `total_count`. -/
def slots : Weight C where
  of := Task.slots
  gain := 1
  of_sent _ _ := rfl
  of_woken := rfl
  of_setConn t _ := by
    cases t with
    | parked slot _ => cases slot <;> rfl
    | _ => rfl

/-- The weight behind `in_use_count`. -/
def borrowed : Weight C where
  of := Task.borrowed
  gain := 0
  of_sent _ _ := rfl
  of_woken := rfl
  of_setConn t _ := by
    cases t with
    | parked slot _ => cases slot <;> rfl
    | _ => rfl

/-- The weight behind `waiter_count`. -/
def waiting : Weight C where
  of := Task.waiting
  gain := 0
  of_sent _ _ := rfl
  of_woken := rfl
  of_setConn t _ := by
    cases t with
    | parked slot _ => cases slot <;> rfl
    | _ => rfl

section

variable {cfg : Config} {P : Poolable C A} {live : ℕ → Bool} {i : ℕ} {s shared : Shared C}
  {e : Event C A} {t t' : Task C} {signal : Signal C}

theorem slots_plain (h : t.Plain) : t.slots = 0 := by cases h <;> rfl

theorem borrowed_plain (h : t.Plain) : t.borrowed = 0 := by cases h <;> rfl

theorem waiting_plain (h : t.Plain) : t.waiting = 0 := by cases h <;> rfl

theorem slots_parked (slot : Option C) (elapsed : Bool) :
    (Task.parked slot elapsed).slots = slot.toList.length := by
  cases slot <;> rfl

/-- A move changes `total_count` by what it does to the idle list, to its task and to the lost
slots. -/
theorem slots_move (hm : Move cfg P live i s t e shared t' signal) :
    shared.totalCount - shared.idle.length - shared.lost - t'.slots - slots.ofSignal signal =
      s.totalCount - s.idle.length - s.lost - t.slots := by
  cases hm with
  | @created who _ _ => cases who <;> simp [Creator.created, Task.slots, Weight.ofSignal]
  | undo h =>
    rw [slots_plain (refused_plain _)]
    rcases h with rfl | rfl <;> simp only [Task.slots, Weight.ofSignal] <;> omega
  | cancel h =>
    rcases h with rfl | rfl | rfl | ⟨_, rfl⟩ | ⟨_, rfl⟩ | ⟨_, _, rfl⟩ <;>
      simp [Task.slots, Weight.ofSignal]
  | drift =>
    rw [show (t.setConn _).slots = t.slots from slots.of_setConn t _]
    simp [Weight.ofSignal]
  | dropReceiver | cancelParked =>
    rw [slots_parked]
    simp only [Task.slots, Weight.ofSignal, Int.natCast_add]
    omega
  | destroy | hand | park | warmStart | warmCount | refillStart =>
    simp only [slots_plain (destroyed_plain _ _), slots_plain (over_plain _),
      slots_plain (warmLoop_plain _), slots_plain (refillLoop_plain _)]
    simp [Task.slots, Weight.ofSignal, slots]
    try omega
  | _ =>
    simp [Task.slots, Weight.ofSignal, *]
    try omega

/-- A move changes `in_use_count` by what it does to its task. -/
theorem borrowed_move (hm : Move cfg P live i s t e shared t' signal) :
    shared.inUseCount - t'.borrowed = s.inUseCount - t.borrowed := by
  cases hm with
  | @created who _ _ => cases who <;> simp [Creator.created, Task.borrowed]
  | undo h =>
    rw [borrowed_plain (refused_plain _)]
    rcases h with rfl | rfl <;> simp [Task.borrowed]
  | cancel h =>
    rcases h with rfl | rfl | rfl | ⟨_, rfl⟩ | ⟨_, rfl⟩ | ⟨_, _, rfl⟩ <;> simp [Task.borrowed]
  | drift => rw [show (t.setConn _).borrowed = t.borrowed from borrowed.of_setConn t _]
  | destroy | hand | park | warmStart | warmCount | refillStart =>
    simp only [borrowed_plain (destroyed_plain _ _), borrowed_plain (over_plain _),
      borrowed_plain (warmLoop_plain _), borrowed_plain (refillLoop_plain _)]
    simp [Task.borrowed]
  | _ => simp [Task.borrowed]

/-- The task is a `drain` that is about to clear the waiters. -/
def Task.clears : Task C → Bool
  | drainWaiters => true
  | _ => false

/-- A move changes `waiter_count` by what it does to its task, and by the waiters it clears. -/
theorem waiting_move (hm : Move cfg P live i s t e shared t' signal) :
    shared.waiterCount - t'.waiting = s.waiterCount - t.waiting -
      (if t.clears then s.waiters.length else 0 : ℕ) := by
  cases hm with
  | @created who _ _ => cases who <;> simp [Creator.created, Task.waiting, Task.clears]
  | undo h =>
    rw [waiting_plain (refused_plain _)]
    rcases h with rfl | rfl <;> simp [Task.waiting, Task.clears]
  | cancel h =>
    rcases h with rfl | rfl | rfl | ⟨_, rfl⟩ | ⟨_, rfl⟩ | ⟨_, _, rfl⟩ <;>
      simp [Task.waiting, Task.clears]
  | drift ht _ =>
    rw [show (t.setConn _).waiting = t.waiting from waiting.of_setConn t _]
    have hc : t.clears = false := by cases t <;> first | rfl | cases ht
    simp [hc]
  | destroy | hand | park | warmStart | warmCount | refillStart =>
    simp only [waiting_plain (destroyed_plain _ _), waiting_plain (over_plain _),
      waiting_plain (warmLoop_plain _), waiting_plain (refillLoop_plain _)]
    simp [Task.waiting, Task.clears]
  | _ => simp [Task.waiting, Task.clears]

/-- The future of a `get` is dropped together with a reservation or with a connection that was sent
to it: while `connect` is awaited, or after the connection has been sent. -/
def Task.loses (t : Task C) (e : Event C A) : Bool :=
  match t, e with
  | .creating .get .connect, .cancel => true
  | .parked (some _) false, .cancel => true
  | .parked (some _) true, .run => true
  | _, _ => false

theorem lost_move (hm : Move cfg P live i s t e shared t' signal) (hl : t.loses e = false) :
    shared.lost = s.lost := by
  cases hm with
  | @dropReceiver slot | @cancelParked slot => cases slot with
    | none => rfl
    | some c => cases hl
  | cancelCreating => cases hl
  | _ => rfl

end

section

variable {cfg : Config} {P : Poolable C A} {s s₀ s' : State C} {l : Label C A}

/-! ### The counters in every reachable state -/

/-- A step changes `total_count` by what it does to the idle list, to the tasks and to the lost
slots. -/
theorem slots_step (h : (system cfg P).step s l = some s') :
    s'.shared.totalCount - s'.shared.idle.length - s'.shared.lost - slots.total s' =
      s.shared.totalCount - s.shared.idle.length - s.shared.lost - slots.total s := by
  cases step_cases h with
  | get | warmUp | drain => rw [total_spawn]; exact congrArg _ (Int.add_zero _)
  | @move i e t t' shared signal ht hm =>
    have hmove := slots_move hm
    have htotal := tally_move slots ht hm
    simp only [show ∀ t : Task C, slots.of t = t.slots from fun _ => rfl] at htotal
    simp only [htotal]
    omega
  | expire | drift => simp [State.setIdle, Weight.total]

/-- **What `total_count` counts.** -/
theorem totalCount_eq (h₀ : s₀.Fresh cfg P) (h : (system cfg P).Reachable s₀ s) :
    s.shared.totalCount = s.shared.idle.length + slots.total s + s.shared.lost := by
  refine h.invariant
    (I := fun s => s.shared.totalCount = s.shared.idle.length + slots.total s + s.shared.lost) ?_
    fun s l s' hs hst => ?_
  · obtain ⟨conns, rfl, -, -⟩ := h₀
    simp [State.new, Weight.total, slots, Task.slots]
  · have := slots_step hst
    omega

theorem borrowed_step (h : (system cfg P).step s l = some s') :
    s'.shared.inUseCount - borrowed.total s' = s.shared.inUseCount - borrowed.total s := by
  cases step_cases h with
  | get | warmUp | drain => rw [total_spawn]; exact congrArg _ (Int.add_zero _)
  | @move i e t t' shared signal ht hm =>
    have hmove := borrowed_move hm
    have htotal := tally_move borrowed ht hm
    simp only [show ∀ t : Task C, borrowed.of t = t.borrowed from fun _ => rfl,
      show borrowed.ofSignal signal = 0 by cases signal <;> rfl] at htotal
    simp only [htotal]
    omega
  | expire | drift => rfl

/-- **What `in_use_count` counts.** -/
theorem inUseCount_eq (h₀ : s₀.Fresh cfg P) (h : (system cfg P).Reachable s₀ s) :
    s.shared.inUseCount = borrowed.total s := by
  refine h.invariant (I := fun s => s.shared.inUseCount = borrowed.total s) ?_
    fun s l s' hs hst => ?_
  · obtain ⟨conns, rfl, -, -⟩ := h₀
    rfl
  · have := borrowed_step hst
    omega

/-! ### Pool conservation -/

/-- A guard. -/
def Task.isHeld : Task C → Bool
  | held _ => true
  | _ => false

/-- The task is a guard, a parked `get` to which nothing was sent, a `drain` that waits, the
maintenance task between two intervals, or over. -/
def Task.rests : Task C → Bool
  | held _ | parked none false | sleeping | drainParked | drained | done => true
  | _ => false

/-- No step of the pool is half-way. -/
def State.AtRest (s : State C) : Prop := ∀ t ∈ s.tasks, t.rests = true

/-- The number of guards. -/
def State.guards (s : State C) : ℕ := s.tasks.countP Task.isHeld

theorem State.AtRest.slots_total (hr : s.AtRest) : slots.total s = s.guards := by
  refine tally_countP fun t ht => ?_
  have hrest := hr t ht
  unfold Task.rests at hrest
  split at hrest <;> first | rfl | cases hrest

theorem State.AtRest.borrowed_total (hr : s.AtRest) : borrowed.total s = s.guards := by
  refine tally_countP fun t ht => ?_
  have hrest := hr t ht
  unfold Task.rests at hrest
  split at hrest <;> first | rfl | cases hrest

/-- At rest, `total_count` exceeds what it is to count by what has been lost. -/
theorem totalCount_atRest (h₀ : s₀.Fresh cfg P) (h : (system cfg P).Reachable s₀ s)
    (hr : s.AtRest) : s.shared.totalCount = s.shared.idle.length + s.guards + s.shared.lost := by
  rw [totalCount_eq h₀ h, hr.slots_total]

/-- No connection and no reservation is dropped with the future of a `get`. -/
def keepsSlots (s : State C) (l : Label C A) : Prop := l.on s Task.loses = false

instance (s : State C) (l : Label C A) : Decidable (keepsSlots s l) :=
  inferInstanceAs (Decidable (_ = _))

theorem lost_step (h : (system cfg P).step s l = some s') (hk : keepsSlots s l) :
    s'.shared.lost = s.shared.lost := by
  cases step_cases h with
  | move ht hm => exact lost_move hm (by simpa [keepsSlots, Label.on, ht] using hk)
  | _ => rfl

/-- **Pool conservation**: in a run that drops no connection and no reservation with the future of a
`get`, `total_count` is the number of idle connections and of guards in every state at rest, and
`in_use_count` that of guards. -/
theorem conserved (h₀ : s₀.Fresh cfg P) (h : ((system cfg P).guard keepsSlots).Reachable s₀ s)
    (hr : s.AtRest) :
    s.shared.totalCount = s.shared.idle.length + s.guards ∧ s.shared.inUseCount = s.guards := by
  have hlost : s.shared.lost = 0 := by
    refine h.guard_invariant (I := fun s => s.shared.lost = 0) ?_
      fun s l s' hs hk hst => (lost_step hst hk).trans hs
    obtain ⟨conns, rfl, -, -⟩ := h₀
    rfl
  constructor
  · rw [totalCount_atRest h₀ h.of_guard hr, hlost]
    exact Int.add_zero _
  · rw [inUseCount_eq h₀ h.of_guard, hr.borrowed_total]

end

instance {C : Type} (s : State C) : Decidable s.AtRest := inferInstanceAs (Decidable (∀ t ∈ _, _))

theorem conserved_two_guards :
    ∃ s, ((system ⟨1, 2, true, true⟩ steady).guard keepsSlots).Reachable (.new [()]) s ∧
      s.guards = 2 ∧ s.shared.totalCount = s.shared.idle.length + s.guards ∧
      s.shared.inUseCount = s.guards := by
  obtain ⟨s, h, hs⟩ := LTS.reachable_of_test
    (A := (system ⟨1, 2, true, true⟩ steady).guard keepsSlots) (s := .new [()])
    (r := .get :: runs 1 4 ++ .get :: runs 2 5 ++ .task 2 (.connected ()) :: runs 2 1)
    (p := fun s => decide (s.AtRest ∧ s.guards = 2)) (by decide)
  obtain ⟨hr, hg⟩ := of_decide_eq_true hs
  exact ⟨s, h, hg, conserved ⟨[()], rfl, by decide, by decide⟩ h hr⟩

/-- A `get` that is dropped while it awaits `connect` keeps its reservation for ever: the pool has
no connection and counts one. -/
theorem dropped_get_keeps_reservation :
    ∃ s, (system ⟨0, 1, true, true⟩ steady).Reachable (.new []) s ∧ s.AtRest ∧
      s.shared.totalCount ≠ s.shared.idle.length + s.guards := by
  obtain ⟨s, h, hs⟩ := LTS.reachable_of_test (A := system ⟨0, 1, true, true⟩ steady) (s := .new [])
    (r := .get :: runs 1 5 ++ [.task 1 .cancel])
    (p := fun s => decide (s.AtRest ∧ s.shared.totalCount ≠ s.shared.idle.length + s.guards))
    (by decide)
  exact ⟨s, h, of_decide_eq_true hs⟩

/-! ### The waiter gauge -/

/-- A `get` that has queued a sender and has not returned. -/
def Task.queued : Task C → Bool
  | parked _ _ | served _ | counted _ | timedOut | leaving => true
  | _ => false

/-- The number of calls of `get` that have queued a sender and have not returned. -/
def State.queued (s : State C) : ℕ := s.tasks.countP Task.queued

theorem State.waiting_total (s : State C) : waiting.total s = s.queued :=
  tally_countP fun t _ => by cases t <;> rfl

/-- `drain` finds no waiters when it clears them. -/
def noWaiters (s : State C) (l : Label C A) : Prop :=
  l.on s (fun t _ => t.clears) = true → s.shared.waiters = []

instance (s : State C) (l : Label C A) : Decidable (noWaiters s l) :=
  inferInstanceAs (Decidable (_ → _))

section

variable {cfg : Config} {P : Poolable C A} {s s₀ s' : State C} {l : Label C A}

/-- The waiters that a step clears are subtracted from the gauge, although the calls of `get` that
have queued them subtract themselves. -/
theorem waiting_step (h : (system cfg P).step s l = some s') :
    s'.shared.waiterCount - waiting.total s' =
      s.shared.waiterCount - waiting.total s -
        (if l.on s (fun t _ => t.clears) then s.shared.waiters.length else 0 : ℕ) := by
  cases step_cases h with
  | get | warmUp | drain => rw [total_spawn]; simp [waiting, Task.waiting, Label.on, State.spawn]
  | @move i e t t' shared signal ht hm =>
    have hmove := waiting_move hm
    have htotal := tally_move waiting ht hm
    simp only [show ∀ t : Task C, waiting.of t = t.waiting from fun _ => rfl,
      show waiting.ofSignal signal = 0 by cases signal <;> rfl] at htotal
    simp only [htotal, Label.on, ht, Option.any_some]
    omega
  | expire | drift => simp [Label.on, State.setIdle, Weight.total]

/-- Where the gauge is exact, a step leaves it so if and only if it clears no waiters. -/
theorem gauge_step_iff (hg : s.shared.waiterCount = s.queued)
    (h : (system cfg P).step s l = some s') :
    s'.shared.waiterCount = s'.queued ↔ noWaiters s l := by
  have hstep := waiting_step h
  simp only [State.waiting_total, hg, Int.sub_self] at hstep
  unfold noWaiters
  split_ifs at hstep with hc
  · rw [← List.length_eq_zero_iff]
    simp only [hc, true_imp_iff]
    omega
  · exact ⟨fun _ h => absurd h hc, fun _ => by omega⟩

/-- **The waiter gauge**: in a run in which `drain` finds no waiters to clear, `waiter_count` is the
number of calls of `get` that have queued a sender and have not returned. -/
theorem gauge_exact (h₀ : s₀.Fresh cfg P)
    (h : ((system cfg P).guard noWaiters).Reachable s₀ s) :
    s.shared.waiterCount = s.queued ∧ 0 ≤ s.shared.waiterCount ∧
      ((∀ t ∈ s.tasks, t.queued = false) → s.shared.waiterCount = 0) := by
  have hg : s.shared.waiterCount = s.queued := by
    refine h.guard_invariant (I := fun s => s.shared.waiterCount = s.queued) ?_
      fun s l s' hs hw hst => (gauge_step_iff hs hst).2 hw
    obtain ⟨conns, rfl, -, -⟩ := h₀
    rfl
  refine ⟨hg, hg ▸ Int.natCast_nonneg _, fun hnone => ?_⟩
  rw [hg, State.queued, List.countP_eq_zero.2 fun t ht => by simp [hnone t ht]]
  rfl

end

theorem gauge_exact_parked :
    ∃ s, ((system ⟨1, 1, true, true⟩ steady).guard noWaiters).Reachable (.new [()]) s ∧
      s.queued = 1 ∧ s.shared.waiterCount = s.queued := by
  obtain ⟨s, h, hs⟩ := LTS.reachable_of_test
    (A := (system ⟨1, 1, true, true⟩ steady).guard noWaiters) (s := .new [()])
    (r := .get :: runs 1 4 ++ .get :: runs 2 5) (p := fun s => decide (s.queued = 1)) (by decide)
  exact ⟨s, h, of_decide_eq_true hs, (gauge_exact ⟨[()], rfl, by decide, by decide⟩ h).1⟩

/-- A `drain` subtracts the parked `get` from the gauge, and the `get` subtracts itself again: with
no `get` in progress, the counter has wrapped around. -/
theorem drained_waiter_counted_twice :
    ∃ s, (system ⟨1, 1, true, true⟩ steady).Reachable (.new [()]) s ∧
      (∀ t ∈ s.tasks, t.queued = false) ∧ load s.shared.waiterCount = 18446744073709551615 ∧
      s.shared.waiterCount ≠ s.queued := by
  obtain ⟨s, h, hs⟩ := LTS.reachable_of_test (A := system ⟨1, 1, true, true⟩ steady)
    (s := .new [()]) (r := .get :: runs 1 4 ++ .get :: runs 2 5 ++ .drain :: runs 3 3 ++ runs 2 2)
    (p := fun s => decide ((∀ t ∈ s.tasks, t.queued = false) ∧
      load s.shared.waiterCount = 18446744073709551615 ∧ s.shared.waiterCount ≠ s.queued))
    (by decide)
  exact ⟨s, h, of_decide_eq_true hs⟩

end Resolute.Pool
