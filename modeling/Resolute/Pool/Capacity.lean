import Resolute.Pool.Conservation

/-!
# The capacity of the pool

A *slot* is a connection of the pool or a reservation for one.  `create_and_track` takes a slot only
if `total_count` was below `max_size`, and `total_count` is at least the number of slots taken, as
long as `warm_up` has no connection that it has not counted yet (`totalCount_eq_taken`).  `warm_up`
itself takes slots without looking, and so does the pre-fill.  A destroyed connection gives up its
slot before it is dropped, so that its replacement may be there together with it: between the number
`State.taken` of slots and the number `State.connections` of connections lies the number
`State.doomed` of those that are no longer counted.

The bound `capacity_bound` holds of the runs of which every step is `withinCapacity`: `warm_up`
finds room for its connections, and leaves room for those of others, and a connection that is made
while another one is doomed finds room too.  In these runs no difference of capacities `underflows`.
-/

namespace Resolute.Pool

variable {C A : Type}

/-- The slots that a task has taken.  Unlike `total_count`, this does not count a reservation that
is about to be undone, and does count what `warm_up` is about to count. -/
def Task.occupied : Task C → ℤ
  | checkout _ | parked (some _) _ | served _ | counted _ | held _ | taking | returning _
  | checking _ | resetting _ _ | resetDone _ | destroying _ _ | handing _ _ | parking _ _ => 1
  | creating _ .connect | creating _ .failed => 1
  | warmPush _ _ => 1
  | _ => 0

/-- The weight behind the number of slots taken. -/
def occupied : Weight C where
  of := Task.occupied
  gain := 1
  of_sent _ _ := rfl
  of_woken := rfl
  of_setConn t _ := by
    cases t with
    | parked slot _ => cases slot <;> rfl
    | _ => rfl

/-- `create_and_track` has incremented `total_count` and is about to take that back. -/
def Task.overshoots : Task C → Bool
  | creating _ .undo => true
  | _ => false

/-- `warm_up` has a connection that it has not counted yet. -/
def Task.uncounted : Task C → Bool
  | warmPush _ _ | warmCount _ => true
  | _ => false

/-- The connections that are dropped after another one has been created. -/
def Creator.olds : Creator C → ℤ
  | provision _ => 1
  | get | refill _ => 0

/-- The connections that are dropped after another one has been given away. -/
def Giver.olds : Giver C → ℤ
  | provision _ => 1
  | returned | refill _ => 0

/-- The connections that a task has: the one that it is at work on, and the one that it has
destroyed and not yet dropped. -/
def Task.connections : Task C → ℤ
  | checkout _ | parked (some _) _ | served _ | counted _ | held _ | returning _ | checking _
  | resetting _ _ | resetDone _ | destroying _ _ | warmPush _ _ | getDiscard _ | provisionStart _
  | provisionLook _ | notifyStart _ | notifyLoad _ | notifyOne _ => 1
  | creating who _ => who.olds
  | handing who _ | parking who _ => who.olds + 1
  | _ => 0

/-- The weight behind the number of connections. -/
def connections : Weight C where
  of := Task.connections
  gain := 1
  of_sent _ _ := rfl
  of_woken := rfl
  of_setConn t _ := by
    cases t with
    | parked slot _ => cases slot <;> rfl
    | _ => rfl

/-- The task has destroyed a connection, which `total_count` no longer counts, and has not yet
dropped it. -/
def Task.doomed : Task C → Bool
  | getDiscard _ | provisionStart _ | provisionLook _ | creating (.provision _) _
  | handing (.provision _) _ | parking (.provision _) _ | notifyStart _ | notifyLoad _
  | notifyOne _ => true
  | _ => false

/-- `create_and_track` awaits `connect`. -/
def Task.connecting : Task C → Bool
  | creating _ .connect => true
  | _ => false

namespace State

variable (s : State C)

/-- The number of slots taken. -/
def taken : ℤ := s.shared.idle.length + occupied.total s + s.shared.lost

/-- The number of connections of the pool: those that are idle, checked out or on their way, and
those that are destroyed and not yet dropped. -/
def connections : ℕ :=
  s.shared.idle.length + (s.tasks.countP fun t => t.conn.isSome) +
    s.tasks.countP fun t => t.old.isSome

/-- The number of connections that `total_count` no longer counts. -/
def doomed : ℕ := s.tasks.countP Task.doomed

/-- The number of calls of `create_and_track` that have incremented `total_count` beyond
`max_size`. -/
def overshoots : ℕ := s.tasks.countP Task.overshoots

/-- The number of connections that `warm_up` has not counted yet. -/
def uncounted : ℕ := s.tasks.countP Task.uncounted

theorem occupied_nonneg (t : Task C) : 0 ≤ t.occupied := by
  unfold Task.occupied
  split <;> decide

theorem taken_nonneg : 0 ≤ s.taken := by
  have := tally_nonneg (w := Task.occupied) (l := s.tasks) fun t _ => occupied_nonneg t
  simp only [taken, Weight.total, occupied]
  omega

theorem connections_eq :
    (s.connections : ℤ) = s.shared.idle.length + Pool.connections.total s := by
  have hconn := tally_countP (w := fun t : Task C => if t.conn.isSome then 1 else 0)
    (l := s.tasks) fun _ _ => rfl
  have hold := tally_countP (w := fun t : Task C => if t.old.isSome then 1 else 0)
    (l := s.tasks) fun _ _ => rfl
  have htotal : Pool.connections.total s = tally (fun t : Task C =>
      (if t.conn.isSome then 1 else 0) + (if t.old.isSome then 1 else 0)) s.tasks := by
    refine tally_congr fun t _ => ?_
    cases t with
    | parked slot _ => cases slot <;> rfl
    | handing who _ | parking who _ | creating who _ => cases who <;> rfl
    | _ => rfl
  rw [htotal, tally_add, hconn, hold, connections]
  omega

/-- A connection has a slot or is doomed, and a reservation for which `connect` is awaited has a
slot and no connection. -/
theorem connections_le :
    s.connections + s.tasks.countP Task.connecting ≤ s.taken + s.doomed := by
  have hdoomed := tally_countP (w := fun t : Task C => if t.doomed then 1 else 0)
    (l := s.tasks) fun _ _ => rfl
  have hconnecting := tally_countP (w := fun t : Task C => if t.connecting then 1 else 0)
    (l := s.tasks) fun _ _ => rfl
  have hle : tally (fun t : Task C => t.connections + if t.connecting then 1 else 0) s.tasks ≤
      tally (fun t : Task C => t.occupied + if t.doomed then 1 else 0) s.tasks := by
    refine tally_mono fun t _ => ?_
    cases t with
    | parked slot _ =>
      cases slot <;> simp [Task.connections, Task.connecting, Task.occupied, Task.doomed]
    | handing who _ | parking who _ =>
      cases who <;>
        simp [Task.connections, Giver.olds, Task.connecting, Task.occupied, Task.doomed]
    | creating who stage =>
      cases who <;> cases stage <;>
        simp [Task.connections, Creator.olds, Task.connecting, Task.occupied, Task.doomed]
    | _ => simp [Task.connections, Task.connecting, Task.occupied, Task.doomed]
  rw [tally_add, tally_add, hdoomed, hconnecting] at hle
  rw [connections_eq]
  simp only [taken, Weight.total, occupied, Pool.connections, doomed]
  omega

theorem slots_total : slots.total s = occupied.total s + s.overshoots - s.uncounted := by
  have hover := tally_countP (w := fun t : Task C => if t.overshoots then 1 else 0)
    (l := s.tasks) fun _ _ => rfl
  have huncounted := tally_countP (w := fun t : Task C => if t.uncounted then 1 else 0)
    (l := s.tasks) fun _ _ => rfl
  simp only [overshoots, uncounted, Weight.total]
  rw [← hover, ← huncounted, ← tally_add, ← tally_sub]
  refine tally_congr fun t _ => ?_
  cases t with
  | parked slot _ => cases slot <;> rfl
  | creating who stage => cases stage <;> rfl
  | _ => rfl

end State

section

variable (cfg : Config)

/-- The event takes a slot: `create_and_track` finds room, or `warm_up` has connected. -/
def Task.grows (s : Shared C) (t : Task C) (e : Event C A) : Bool :=
  match t, e with
  | .creating _ .reserve, .run => decide (load s.totalCount < cfg.maxSize)
  | .warmConnect _, .connected _ => true
  | _, _ => false

variable {cfg} {P : Poolable C A} {live : ℕ → Bool} {i : ℕ} {s shared : Shared C}
  {e : Event C A} {t t' : Task C} {signal : Signal C}

theorem occupied_plain (h : t.Plain) : t.occupied = 0 := by cases h <;> rfl

theorem occupied_parked (slot : Option C) (elapsed : Bool) :
    (Task.parked slot elapsed).occupied = slot.toList.length := by
  cases slot <;> rfl

/-- A move takes no slot, or it is one of the two that take one. -/
theorem occupied_move (hm : Move cfg P live i s t e shared t' signal) :
    shared.idle.length + shared.lost + t'.occupied + occupied.ofSignal signal ≤
      s.idle.length + s.lost + t.occupied ∨
    t.grows cfg s e = true ∧
      shared.idle.length + shared.lost + t'.occupied + occupied.ofSignal signal =
        s.idle.length + s.lost + t.occupied + 1 := by
  -- only these two moves take a new slot; the others move one, or give it up
  cases hm with
  | reserve h =>
    right
    exact ⟨by simp [Task.grows, h], by simp [Task.occupied, Weight.ofSignal]⟩
  | warmConnected _ =>
    right
    exact ⟨rfl, by simp [Task.occupied, Weight.ofSignal]⟩
  | @created who _ _ =>
    left
    cases who <;> simp [Creator.created, Task.occupied, Weight.ofSignal]
  | undo h =>
    left
    rw [occupied_plain (refused_plain _)]
    rcases h with rfl | rfl <;> simp only [Task.occupied, Weight.ofSignal] <;> omega
  | cancel h =>
    left
    rcases h with rfl | rfl | rfl | ⟨_, rfl⟩ | ⟨_, rfl⟩ | ⟨_, _, rfl⟩ <;>
      simp only [Task.occupied, Weight.ofSignal] <;> omega
  | drift =>
    left
    rw [show (t.setConn _).occupied = t.occupied from occupied.of_setConn t _]
    simp [Weight.ofSignal]
  | dropReceiver | cancelParked =>
    left
    rw [occupied_parked]
    simp only [Task.occupied, Weight.ofSignal, Int.natCast_add]
    omega
  | evict =>
    left
    have hle := List.length_filter_le (fun e : IdleConn C => !e.expired) s.idle
    simp only [Task.occupied, Weight.ofSignal]
    omega
  | destroy | hand | park | warmStart | warmCount | refillStart =>
    left
    simp only [occupied_plain (destroyed_plain _ _), occupied_plain (over_plain _),
      occupied_plain (warmLoop_plain _), occupied_plain (refillLoop_plain _)]
    simp [Task.occupied, Weight.ofSignal, occupied]
    try omega
  | _ =>
    left
    simp [Task.occupied, Weight.ofSignal, *]
    try omega

/-- `connect` returns a connection to `create_and_track` or to `warm_up`. -/
def Task.connects (t : Task C) (e : Event C A) : Bool :=
  match t, e with
  | .creating _ .connect, .connected _ => true
  | .warmConnect _, .connected _ => true
  | _, _ => false

theorem connections_parked (slot : Option C) (elapsed : Bool) :
    (Task.parked slot elapsed).connections = slot.toList.length := by
  cases slot <;> rfl

theorem connections_warmLoop (n : ℕ) : (warmLoop n : Task C).connections = 0 := by
  cases n <;> rfl

theorem connections_refillLoop (n : ℕ) : (refillLoop n : Task C).connections = 0 := by
  cases n <;> rfl

theorem connections_destroyed (provision : Bool) (old : C) :
    (if provision then Task.provisionStart old else .notifyStart old).connections = 1 := by
  cases provision <;> rfl

theorem connections_refused (who : Creator C) : who.refused.connections = who.olds := by
  cases who <;> rfl

theorem connections_created (who : Creator C) (c : C) :
    (who.created c).connections = who.olds + 1 := by
  cases who <;> rfl

theorem connections_over (who : Giver C) : who.over.connections = who.olds := by
  cases who with
  | refill left => exact connections_refillLoop left
  | _ => rfl

/-- A move makes no connection, or `connect` returns one. -/
theorem connections_move (hm : Move cfg P live i s t e shared t' signal) :
    shared.idle.length + t'.connections + connections.ofSignal signal ≤
      s.idle.length + t.connections ∨
    t.connects e = true ∧
      shared.idle.length + t'.connections + connections.ofSignal signal =
        s.idle.length + t.connections + 1 := by
  cases hm with
  | @created who c _ =>
    right
    rw [connections_created]
    refine ⟨rfl, ?_⟩
    simp only [Task.connections, Weight.ofSignal]
    omega
  | warmConnected _ =>
    right
    exact ⟨rfl, by simp [Task.connections, Weight.ofSignal]⟩
  | cancel h =>
    left
    rcases h with rfl | rfl | rfl | ⟨_, rfl⟩ | ⟨_, rfl⟩ | ⟨_, _, rfl⟩ <;>
      simp only [Task.connections, Weight.ofSignal] <;> omega
  | @cancelCreating =>
    left
    simp [Task.connections, Creator.olds, Weight.ofSignal]
  | drift =>
    left
    rw [show (t.setConn _).connections = t.connections from connections.of_setConn t _]
    simp [Weight.ofSignal]
  | dropReceiver | cancelParked =>
    left
    rw [connections_parked]
    simp only [Task.connections, Weight.ofSignal]
    omega
  | evict =>
    left
    have hle := List.length_filter_le (fun e : IdleConn C => !e.expired) s.idle
    simp only [Task.connections, Weight.ofSignal]
    omega
  | undo | destroy | hand | park | warmStart | warmCount | refillStart =>
    left
    simp only [connections_refused, connections_destroyed, connections_over,
      connections_warmLoop, connections_refillLoop]
    simp [Task.connections, Weight.ofSignal, connections]
    try omega
  | _ =>
    left
    simp [Task.connections, Creator.olds, Giver.olds, Weight.ofSignal, *]
    try omega

end

section

variable {cfg : Config} {P : Poolable C A} {s s₀ s' : State C} {l : Label C A}

theorem taken_spawn (t : Task C) : (s.spawn t).taken = s.taken + t.occupied := by
  have htotal : occupied.total (s.spawn t) = occupied.total s + t.occupied := total_spawn _ t
  have hidle : (s.spawn t).shared = s.shared := rfl
  rw [State.taken, State.taken, hidle, htotal]
  omega

/-- A step takes no slot, or it is one of the two that take one. -/
theorem taken_step (h : (system cfg P).step s l = some s') :
    s'.taken ≤ s.taken ∨
      l.on s (Task.grows cfg s.shared) = true ∧ s'.taken = s.taken + 1 := by
  cases step_cases h with
  | get | warmUp | drain => exact .inl (Int.le_of_eq ((taken_spawn _).trans (Int.add_zero _)))
  | @move i e t t' shared signal ht hm =>
    have htotal := tally_move occupied ht hm
    simp only [show ∀ t : Task C, occupied.of t = t.occupied from fun _ => rfl] at htotal
    simp only [State.taken, htotal, Label.on, ht, Option.any_some]
    rcases occupied_move hm with hle | ⟨hg, heq⟩
    · left; omega
    · right; exact ⟨hg, by omega⟩
  | expire | drift => exact .inl (by simp [State.taken, State.setIdle, Weight.total])

theorem connections_spawn {t : Task C} (ht : t.connections = 0) :
    (s.spawn t).connections = s.connections := by
  have htotal : connections.total (s.spawn t) = connections.total s + t.connections :=
    total_spawn _ t
  have hs := s.connections_eq
  have hs' := (s.spawn t).connections_eq
  rw [htotal, ht, show (s.spawn t).shared = s.shared from rfl] at hs'
  omega

/-- A step makes no connection, or `connect` returns one. -/
theorem connections_step (h : (system cfg P).step s l = some s') :
    s'.connections ≤ s.connections ∨
      l.on s Task.connects = true ∧ s'.connections = s.connections + 1 := by
  cases step_cases h with
  | get | warmUp | drain => exact .inl (Nat.le_of_eq (connections_spawn rfl))
  | @move i e t t' shared signal ht hm =>
    have htotal := tally_move connections ht hm
    have hs := s.connections_eq
    have hs' := State.connections_eq ⟨shared, signal.deliver (s.tasks.set i t')⟩
    simp only [show ∀ t : Task C, connections.of t = t.connections from fun _ => rfl] at htotal
    simp only [htotal] at hs'
    simp only [Label.on, ht, Option.any_some]
    rcases connections_move hm with hle | ⟨hc, heq⟩
    · left; omega
    · right; exact ⟨hc, by omega⟩
  | expire | drift => exact .inl (by simp [State.connections, State.setIdle])

/-- **How `total_count` differs from the number of slots taken.** -/
theorem totalCount_eq_taken (h₀ : s₀.Fresh cfg P) (h : (system cfg P).Reachable s₀ s) :
    s.shared.totalCount = s.taken + s.overshoots - s.uncounted := by
  rw [totalCount_eq h₀ h, State.slots_total, State.taken]
  omega

theorem load_eq {n : ℤ} (h₀ : 0 ≤ n) (h : n < usizeRange) : (load n : ℤ) = n := by
  rw [load, Int.emod_eq_of_lt h₀ h, Int.toNat_of_nonneg h₀]

theorem load_le {n : ℤ} (h₀ : 0 ≤ n) : (load n : ℤ) ≤ n := by
  simp only [load, usizeRange]
  omega

variable (cfg)

/-- A connection is made for which there is room: `warm_up` finds a slot that is not taken for the
connection that it has made, and while a connection is doomed there are fewer than `max_size`.  And
as long as `warm_up` has not counted its connection, `create_and_track` finds `total_count` below
`max_size` only if there is a slot; and `warm_up` does not read `total_count` while it has been
incremented beyond `max_size`, or is below zero. -/
def withinCapacity (s : State C) : Label C A → Bool
  | .task i e => match s.tasks[i]?, e with
    | some (.creating _ .connect), .connected _ =>
      decide (s.doomed = 0 ∨ s.connections < cfg.maxSize)
    | some (.warmConnect _), .connected _ =>
      decide (s.taken < cfg.maxSize ∧ (s.doomed = 0 ∨ s.connections < cfg.maxSize))
    | some (.creating _ .reserve), .run =>
      decide (load s.shared.totalCount < cfg.maxSize →
        s.uncounted = 0 ∧ s.shared.totalCount < usizeRange ∨ s.taken < cfg.maxSize)
    | some (.warmStart _), .run => decide (s.overshoots = 0 ∧ 0 ≤ s.shared.totalCount)
    | _, _ => true
  | _ => true

/-- The step computes a difference that is below zero: `max_size - current` in `warm_up`, or
`min_idle - current_idle` or `max_size - total` in the maintenance task. -/
def underflows (s : State C) : Label C A → Bool
  | .task i .run => match s.tasks[i]? with
    | some (.warmStart _) => decide (cfg.maxSize < load s.shared.totalCount)
    | some (.refillStart total) =>
      let currentIdle := total - load s.shared.inUseCount
      decide ((currentIdle < cfg.minIdle ∧ total < cfg.maxSize) ∧
        (cfg.minIdle < currentIdle ∨ cfg.maxSize < total))
    | _ => false
  | _ => false

variable {cfg}

/-- Within the capacity, a slot is taken only if fewer than `max_size` are. -/
theorem taken_lt_of_grows (h₀ : s₀.Fresh cfg P) (h : (system cfg P).Reachable s₀ s)
    (hw : withinCapacity cfg s l = true) (hg : l.on s (Task.grows cfg s.shared) = true) :
    s.taken < cfg.maxSize := by
  cases l with
  | task i e =>
    obtain ⟨t, ht, hgrows⟩ := (Option.any_eq_true _ _).1 hg
    unfold Task.grows at hgrows
    split at hgrows
    · rename_i who
      -- `total_count` was below `max_size`, and is at least the number of slots taken
      simp only [withinCapacity, ht, decide_eq_true_eq] at hw
      rcases hw (of_decide_eq_true hgrows) with ⟨hu, hr⟩ | hlt
      · have htotal := totalCount_eq_taken h₀ h
        have hnonneg := s.taken_nonneg
        have hload := load_eq (n := s.shared.totalCount) (by omega) hr
        have := of_decide_eq_true hgrows
        omega
      · exact hlt
    · simp only [withinCapacity, ht, decide_eq_true_eq] at hw
      exact hw.1
    · cases hgrows
  | _ => cases hg

/-- Within the capacity, `connect` returns only if there are fewer than `max_size` connections. -/
theorem connections_lt_of_connects (hle : s.taken ≤ cfg.maxSize)
    (hw : withinCapacity cfg s l = true) (hc : l.on s Task.connects = true) :
    s.connections < cfg.maxSize := by
  have hbound := s.connections_le
  cases l with
  | task i e =>
    obtain ⟨t, ht, hconnects⟩ := (Option.any_eq_true _ _).1 hc
    unfold Task.connects at hconnects
    split at hconnects
    · simp only [withinCapacity, ht, decide_eq_true_eq] at hw
      rcases hw with hdoomed | hlt
      · -- the slot that is reserved for it has no connection yet
        have hpos : 0 < s.tasks.countP Task.connecting :=
          List.countP_pos_iff.2 ⟨_, List.mem_of_getElem? ht, rfl⟩
        omega
      · exact hlt
    · simp only [withinCapacity, ht, decide_eq_true_eq] at hw
      rcases hw.2 with hdoomed | hlt
      · have := hw.1
        omega
      · exact hlt
    · cases hconnects
  | _ => cases hc

/-- Within the capacity, no difference underflows. -/
theorem not_underflows (h₀ : s₀.Fresh cfg P) (h : (system cfg P).Reachable s₀ s)
    (hle : s.taken ≤ cfg.maxSize) (hw : withinCapacity cfg s l = true) :
    underflows cfg s l = false := by
  unfold underflows
  split
  · rename_i i
    split
    · rename_i target ht
      obtain ⟨hover, hnonneg⟩ := of_decide_eq_true (by simpa [withinCapacity, ht] using hw)
      have htotal := totalCount_eq_taken h₀ h
      have hload := load_le hnonneg
      simp only [decide_eq_false_iff_not]
      omega
    · simp only [decide_eq_false_iff_not]
      omega
    · rfl
  · rfl

/-- **The capacity of the pool**: if the pre-fill makes at most `max_size` connections, then in a
run in which connections are made within the capacity the pool has at most `max_size` connections in
every state, and no difference of capacities underflows. -/
theorem capacity_bound (h₀ : s₀.Fresh cfg P) (hprefill : s₀.shared.idle.length ≤ cfg.maxSize)
    (h : ((system cfg P).guard fun s l => withinCapacity cfg s l = true).Reachable s₀ s) :
    s.connections ≤ cfg.maxSize ∧
      ∀ l : Label C A, withinCapacity cfg s l = true → underflows cfg s l = false := by
  have hinv : (system cfg P).Reachable s₀ s ∧ s.taken ≤ cfg.maxSize ∧
      s.connections ≤ cfg.maxSize := by
    refine h.guard_invariant (I := fun s => (system cfg P).Reachable s₀ s ∧
      s.taken ≤ cfg.maxSize ∧ s.connections ≤ cfg.maxSize) ⟨.refl _, ?_⟩
      fun s l s' ⟨hreach, htaken, hconn⟩ hw hst => ⟨hreach.tail hst, ?_, ?_⟩
    · obtain ⟨conns, rfl, -, -⟩ := h₀
      constructor
      · simpa [State.taken, State.new, Weight.total, occupied, Task.occupied] using hprefill
      · simpa [State.connections, State.new, Task.conn, Task.old] using hprefill
    · rcases taken_step hst with hle | ⟨hg, heq⟩
      · exact Int.le_trans hle htaken
      · have := taken_lt_of_grows h₀ hreach hw hg
        omega
    · rcases connections_step hst with hle | ⟨hc, heq⟩
      · exact Nat.le_trans hle hconn
      · have := connections_lt_of_connects htaken hw hc
        omega
  exact ⟨hinv.2.2, fun l hw => not_underflows h₀ hinv.1 hinv.2.1 hw⟩

end

theorem capacity_bound_warmed :
    ∃ s, ((system ⟨1, 3, true, true⟩ steady).guard
        fun s l => withinCapacity ⟨1, 3, true, true⟩ s l = true).Reachable (.new [()]) s ∧
      s.connections = 3 ∧ s.connections ≤ 3 := by
  obtain ⟨s, h, hs⟩ := LTS.reachable_of_test (A := (system ⟨1, 3, true, true⟩ steady).guard
      fun s l => withinCapacity ⟨1, 3, true, true⟩ s l = true) (s := .new [()])
    (r := .warmUp 2 :: runs 1 1 ++ .task 1 (.connected ()) :: runs 1 2 ++ .get :: runs 2 4 ++
      .get :: runs 3 4 ++ .get :: runs 4 5 ++ [.task 4 (.connected ())])
    (p := fun s => decide (s.connections = 3)) (by decide)
  exact ⟨s, h, of_decide_eq_true hs,
    (capacity_bound ⟨[()], rfl, by decide, by decide⟩ (by decide) h).1⟩

/-- A connection that its holder breaks. -/
def fragile : Poolable Bool Unit where
  hasPendingData c := c
  connects c := !c
  startReset c := .done true c
  pollReset c := some (true, c)
  use _ _ := some true
  drift c _ := some c
  drift_pending h hc := by cases h; exact hc

/-- The pre-fill makes more than `max_size` connections; `warm_up` makes one where the only one
allowed is checked out meanwhile; `max_size - current` underflows once there are too many; and the
only connection allowed is returned broken while a `get` waits, and is dropped only after its
replacement has been made. -/
theorem capacity_exceeded :
    (∃ s : State Unit, s.Fresh ⟨2, 1, true, true⟩ steady ∧ s.connections = 2) ∧
    (∃ s, (system ⟨0, 1, true, true⟩ steady).Reachable (.new []) s ∧ s.connections = 2) ∧
    (∃ s, (system ⟨2, 1, true, true⟩ steady).Reachable (.new [(), ()]) s ∧
      underflows ⟨2, 1, true, true⟩ s (.task 1 .run : Label Unit Empty) = true) ∧
    ∃ s, (system ⟨0, 1, true, true⟩ fragile).Reachable (.new []) s ∧ s.connections = 2 := by
  refine ⟨⟨.new [(), ()], ⟨_, rfl, by decide, by decide⟩, rfl⟩, ?_, ?_, ?_⟩
  · obtain ⟨s, h, hs⟩ := LTS.reachable_of_test (A := system ⟨0, 1, true, true⟩ steady)
      (s := .new []) (r := .warmUp 1 :: runs 1 1 ++ .get :: runs 2 5 ++
        [.task 2 (.connected ()), .task 1 (.connected ())])
      (p := fun s => decide (s.connections = 2)) (by decide)
    exact ⟨s, h, of_decide_eq_true hs⟩
  · obtain ⟨s, h, hs⟩ := LTS.reachable_of_test (A := system ⟨2, 1, true, true⟩ steady)
      (s := .new [(), ()]) (r := [.warmUp 1])
      (p := fun s => underflows ⟨2, 1, true, true⟩ s (.task 1 .run : Label Unit Empty)) (by decide)
    exact ⟨s, h, hs⟩
  · obtain ⟨s, h, hs⟩ := LTS.reachable_of_test (A := system ⟨0, 1, true, true⟩ fragile)
      (s := .new [])
      (r := .get :: runs 1 5 ++ .task 1 (.connected false) :: runs 1 1 ++ .get :: runs 2 5 ++
        .task 1 (.use ()) :: .task 1 .drop :: runs 1 6 ++ [.task 1 (.connected false)])
      (p := fun s => decide (s.connections = 2)) (by decide)
    exact ⟨s, h, of_decide_eq_true hs⟩

end Resolute.Pool
