import Resolute.Pool.Drain

/-!
# After a drain

`drain` returns once `total_count` is zero.  A task that has tested `draining` before, and has not
yet incremented the counter, is not seen by that: it goes on, and creates a connection after the
drain has returned.  `warm_up` does not test `draining` at all.  Such a task *straggles*
(`Task.straggles`); one that is `inert` has no connection and can get none in a pool that drains,
and remains so (`inert_move`).

`drainsLast` asks that no task straggles when `drain` finds the counter at zero, and that no
`warm_up` with a target to reach comes later.  In the runs of such steps, a pool that has been
drained has no connection on the idle list, hands none out and creates none (`drain_final`).
-/

namespace Resolute.Pool

variable {C A : Type}

/-- The task can still create a connection although the pool drains, and `total_count` does not show
it: it has tested `draining` before, or is a `warm_up`. -/
def Task.straggles (cfg : Config) : Task C → Bool
  | getLock | getScan | getDiscard _ | getLoad | creating _ .reserve | provisionLook _
  | warmConnect _ | warmPush _ _ | warmCount _ => true
  | warmStart target => decide (target ≠ 0)
  | evicting | refillLoad | refillStart _ => decide (cfg.minIdle ≠ 0)
  | _ => false

/-- The task has no connection and no reservation, and can get none in a pool that drains. -/
def Task.inert (cfg : Config) : Task C → Bool
  | getStart | getEnqueue | parked none _ | timedOut | leaving | provisionStart _ | notifyStart _
  | notifyLoad _ | notifyOne _ | sleeping | maintain | drainStart | drainIdle | drainWaiters
  | drainCheck | drainPoll | drainParked | drainSend | drained | done => true
  | warmStart target => decide (target = 0)
  | evicting | refillLoad | refillStart _ => decide (cfg.minIdle = 0)
  | _ => false

/-- The task is a `drain` that has found `total_count` at zero. -/
def Task.hasChecked : Task C → Bool
  | drainSend | drained => true
  | _ => false

/-- A `drain` has found `total_count` at zero. -/
def State.checked (s : State C) : Bool := s.tasks.any Task.hasChecked

/-- When a `drain` finds `total_count` at zero, it is zero, and no task straggles; and nobody calls
`warm_up` afterwards with a target to reach. -/
def drainsLast (cfg : Config) (s : State C) : Label C A → Bool
  | .warmUp target => !s.checked || decide (target = 0)
  | .task i e => match s.tasks[i]?, e with
    | some .drainCheck, .run => decide (load s.shared.totalCount = 0 →
      s.shared.totalCount = 0 ∧ ∀ t ∈ s.tasks, t.straggles cfg = false)
    | _, _ => true
  | _ => true

/-- What holds once a `drain` has found `total_count` at zero. -/
structure Drained (cfg : Config) (s : State C) : Prop where
  flag : ∀ t ∈ s.tasks, t.hasFlagged = true → s.shared.draining = true
  idle : s.checked = true → s.shared.idle = []
  inert : s.checked = true → ∀ t ∈ s.tasks, t.inert cfg = true

section

variable {cfg : Config} {P : Poolable C A} {live : ℕ → Bool} {i : ℕ} {s shared : Shared C}
  {e : Event C A} {t t' : Task C} {signal : Signal C}

theorem conn_of_inert (h : t.inert cfg = true) : t.conn = none := by
  unfold Task.inert at h
  split at h <;> first | rfl | cases h

theorem slots_nonneg_of_not_straggles (h : t.straggles cfg = false) : 0 ≤ t.slots := by
  unfold Task.slots
  split <;> first | decide | cases h

/-- A task that has no slot and does not straggle is inert. -/
theorem inert_of_slots (h : t.slots = 0) (hs : t.straggles cfg = false) : t.inert cfg = true := by
  have hslots : t.slots ≠ 0 → t.inert cfg = true := fun hne => absurd h hne
  have hstraggles : t.straggles cfg = true → t.inert cfg = true := by
    intro hc
    rw [hc] at hs
    cases hs
  cases t with
  | parked slot _ => cases slot <;> first | rfl | exact hslots Int.one_ne_zero
  | creating who stage =>
    cases stage <;> first | exact hstraggles rfl | exact hslots (by simp [Task.slots])
  | warmStart | evicting | refillLoad | refillStart => simpa [Task.straggles, Task.inert] using hs
  | _ => first | rfl | exact hstraggles rfl | exact hslots Int.one_ne_zero

/-- In a pool that drains, an inert task remains inert and leaves the others alone. -/
theorem inert_move (hm : Move cfg P live i s t e shared t' signal) (h : t.inert cfg = true)
    (hd : s.draining = true) : t'.inert cfg = true ∧ (∀ j c, signal ≠ .send j c) ∧
      (s.idle = [] → shared.idle = []) := by
  cases hm with
  | getAdmitted h' | provisionStart h' | maintain h' => rw [hd] at h'; cases h'
  | @dropReceiver slot | @cancelParked slot => cases slot with
    | none => exact ⟨rfl, nofun, id⟩
    | some c => cases h
  | undo hs => rcases hs with rfl | rfl <;> cases h
  | cancel => exact ⟨rfl, nofun, id⟩
  | evict => exact ⟨h, nofun, fun hidle => by simp [hidle]⟩
  | refillLoad => exact ⟨h, nofun, id⟩
  -- there is nothing to create
  | @refillStart total n hn =>
    have hzero : cfg.minIdle = 0 := of_decide_eq_true h
    obtain rfl : n = 0 := by omega
    exact ⟨rfl, nofun, id⟩
  | @warmStart target n hn =>
    have hzero : target = 0 := of_decide_eq_true h
    obtain rfl : n = 0 := by omega
    exact ⟨rfl, nofun, id⟩
  | drainIdle => exact ⟨rfl, nofun, fun _ => rfl⟩
  | drift ht _ => rw [conn_of_inert h] at ht; cases ht
  | _ => first | exact ⟨rfl, nofun, id⟩ | cases h

end

section

variable {cfg : Config} {P : Poolable C A} {s s₀ s' : State C} {l : Label C A} {i : ℕ}
  {e : Event C A} {t t' : Task C} {shared : Shared C} {signal : Signal C}

theorem hasFlagged_of_hasChecked (h : t.hasChecked = true) : t.hasFlagged = true := by
  cases t <;> first | rfl | cases h

theorem hasChecked_move {live : ℕ → Bool} {s shared : Shared C}
    (hm : Move cfg P live i s t e shared t' signal) (h : t'.hasChecked = true) :
    t.hasChecked = true ∨ t = .drainCheck ∧ e = .run ∧ t' = .drainSend ∧ shared = s ∧
      signal = .none ∧ load s.totalCount = 0 := by
  have hd : t.drains = true := by
    rw [← hm.drains]
    cases t' <;> first | rfl | cases h
  cases hm with
  | drainEmpty hz => exact .inr ⟨rfl, rfl, rfl, rfl, rfl, hz⟩
  | cancel hc => rcases hc with rfl | rfl | rfl | ⟨_, rfl⟩ | ⟨_, rfl⟩ | ⟨_, _, rfl⟩ <;> cases hd
  | drift ht _ => rw [conn_of_drains hd] at ht; cases ht
  | drainSend => exact .inl rfl
  | use | resetOk | resetFailed | resetWaits => cases hd
  | _ => first | cases h | cases hd

/-- When `total_count` is zero and no task straggles, there is nothing left. -/
theorem inert_of_totalCount (hcount : s.shared.totalCount = s.shared.idle.length +
      slots.total s + s.shared.lost) (hz : s.shared.totalCount = 0)
    (hs : ∀ t ∈ s.tasks, t.straggles cfg = false) :
    s.shared.idle = [] ∧ ∀ t ∈ s.tasks, t.inert cfg = true := by
  have hnonneg : ∀ t ∈ s.tasks, 0 ≤ t.slots := fun t ht => slots_nonneg_of_not_straggles (hs t ht)
  have htotal : 0 ≤ slots.total s := tally_nonneg hnonneg
  refine ⟨List.length_eq_zero_iff.1 (by omega), fun t ht => inert_of_slots ?_ (hs t ht)⟩
  have hle : t.slots ≤ slots.total s := le_tally hnonneg ht
  have := hnonneg t ht
  omega

theorem Drained.move (hv : Drained cfg s) (hcount : s.shared.totalCount = s.shared.idle.length +
      slots.total s + s.shared.lost) (ht : s.tasks[i]? = some t)
    (hm : Move cfg P s.live i s.shared t e shared t' signal)
    (hg : drainsLast cfg s (.task i e) = true) :
    Drained cfg ⟨shared, signal.deliver (s.tasks.set i t')⟩ := by
  have hmem := List.mem_of_getElem? ht
  have hchecked : State.checked ⟨shared, signal.deliver (s.tasks.set i t')⟩ = true →
      s.shared.draining = true ∧ (s.shared.idle = [] ∧ ∀ t ∈ s.tasks, t.inert cfg = true) := by
    intro h
    rcases any_after (p := Task.hasChecked) ht hm (fun _ _ => rfl) nofun h with hany | hmoved
    · obtain ⟨v, hv', hc⟩ := List.any_eq_true.1 hany
      exact ⟨hv.flag v hv' (hasFlagged_of_hasChecked hc), hv.idle hany, hv.inert hany⟩
    · rcases hasChecked_move hm hmoved with hc | ⟨rfl, rfl, -, -, -, hz⟩
      · have hany : s.checked = true := List.any_eq_true.2 ⟨t, hmem, hc⟩
        exact ⟨hv.flag t hmem (hasFlagged_of_hasChecked hc), hv.idle hany, hv.inert hany⟩
      · simp only [drainsLast, ht, decide_eq_true_eq] at hg
        obtain ⟨hzero, hs⟩ := hg hz
        exact ⟨hv.flag _ hmem rfl, inert_of_totalCount hcount hzero hs⟩
  constructor
  case flag => exact flag_after hv.flag ht hm
  case idle =>
    intro h
    obtain ⟨hd, hidle, hinert⟩ := hchecked h
    exact (inert_move hm (hinert t hmem) hd).2.2 hidle
  case inert =>
    intro h u hu
    obtain ⟨hd, hidle, hinert⟩ := hchecked h
    obtain ⟨hmoved, hsend, -⟩ := inert_move hm (hinert t hmem) hd
    obtain ⟨k, hk⟩ := List.mem_iff_getElem?.1 hu
    rcases task_after ht hm hk with ⟨-, rfl⟩ | ⟨-, v, hv', rfl | ⟨_, _, hs, -, -⟩ | ⟨-, -, rfl⟩⟩
    · exact hmoved
    · exact hinert u (List.mem_of_getElem? hv')
    · exact absurd hs (hsend _ _)
    · rfl

theorem Drained.spawn (hv : Drained cfg s) (hflag : t.hasFlagged = false)
    (hinert : s.checked = true → t.inert cfg = true) : Drained cfg (s.spawn t) := by
  have hchecked : (s.spawn t).checked = true → s.checked = true := by
    intro h
    simp only [State.checked, State.spawn, List.any_append, List.any_cons, List.any_nil,
      Bool.or_false, Bool.or_eq_true] at h
    rcases h with h | h
    · exact h
    · rw [hasFlagged_of_hasChecked h] at hflag
      cases hflag
  refine ⟨flag_spawn hv.flag hflag, fun h => hv.idle (hchecked h), fun h u hu => ?_⟩
  rcases List.mem_append.1 hu with hu | hu
  · exact hv.inert (hchecked h) u hu
  · rw [List.mem_singleton.1 hu]
    exact hinert (hchecked h)

theorem Drained.setIdle (hv : Drained cfg s) {k : ℕ} {x y : IdleConn C}
    (hx : s.shared.idle[k]? = some x) : Drained cfg (s.setIdle (s.shared.idle.set k y)) where
  flag := hv.flag
  idle h := by
    rw [hv.idle h] at hx
    cases hx
  inert := hv.inert

theorem Drained.step (hv : Drained cfg s) (hcount : s.shared.totalCount = s.shared.idle.length +
      slots.total s + s.shared.lost) (hg : drainsLast cfg s l = true)
    (h : (system cfg P).step s l = some s') : Drained cfg s' := by
  cases step_cases h with
  | get => exact hv.spawn rfl fun _ => rfl
  | warmUp =>
    refine hv.spawn rfl fun hc => ?_
    simpa [drainsLast, hc, Task.inert] using hg
  | drain => exact hv.spawn rfl fun _ => rfl
  | move ht hm => exact hv.move hcount ht hm hg
  | expire hx => exact hv.setIdle hx
  | drift hx _ => exact hv.setIdle hx

/-- **Drain is final**: in a run in which `drain` comes last, once it has returned there is no idle
connection, and no task has a connection that it has not destroyed. -/
theorem drain_final (h₀ : s₀.Fresh cfg P)
    (h : ((system cfg P).guard fun s l => drainsLast cfg s l = true).Reachable s₀ s)
    (hd : .drained ∈ s.tasks) : s.shared.idle = [] ∧ ∀ t ∈ s.tasks, t.conn = none := by
  have hinv : (system cfg P).Reachable s₀ s ∧ Drained cfg s := by
    refine h.guard_invariant (I := fun s => (system cfg P).Reachable s₀ s ∧ Drained cfg s)
      ⟨.refl _, ?_⟩ fun s l s' hs hg hst =>
        ⟨hs.1.tail hst, hs.2.step (totalCount_eq h₀ hs.1) hg hst⟩
    obtain ⟨conns, rfl, -, -⟩ := h₀
    exact
      { flag := fun t ht hf => by rw [List.mem_singleton.1 ht] at hf; cases hf
        idle := nofun
        inert := nofun }
  have hchecked : s.checked = true := List.any_eq_true.2 ⟨_, hd, rfl⟩
  exact ⟨hinv.2.idle hchecked, fun t ht => conn_of_inert (hinv.2.inert hchecked t ht)⟩

end

theorem drain_final_refused :
    ∃ s, ((system ⟨1, 1, true, true⟩ steady).guard fun s l =>
        drainsLast ⟨1, 1, true, true⟩ s l = true).Reachable (.new [()]) s ∧
      .done ∈ s.tasks ∧ s.shared.idle = [] ∧ ∀ t ∈ s.tasks, t.conn = none := by
  obtain ⟨s, h, hs⟩ := LTS.reachable_of_test (A := (system ⟨1, 1, true, true⟩ steady).guard
      fun s l => drainsLast ⟨1, 1, true, true⟩ s l = true) (s := .new [()])
    (r := .drain :: runs 1 5 ++ .get :: runs 2 1 ++ .warmUp 0 :: runs 3 1)
    (p := fun s => decide (.done ∈ s.tasks ∧ .drained ∈ s.tasks)) (by decide)
  obtain ⟨hdone, hd⟩ := of_decide_eq_true hs
  exact ⟨s, h, hdone, drain_final ⟨[()], rfl, by decide, by decide⟩ h hd⟩

/-- A `get` that has tested the flag before the drain began is handed a new connection after the
drain has returned; and `warm_up` fills a pool that has been drained. -/
theorem drained_pool_hands_out :
    (∃ s, (system ⟨0, 1, true, true⟩ steady).Reachable (.new []) s ∧ .drained ∈ s.tasks ∧
      .held () ∈ s.tasks) ∧
    ∃ s, (system ⟨0, 1, true, true⟩ steady).Reachable (.new []) s ∧ .drained ∈ s.tasks ∧
      s.shared.idle.length = 1 := by
  constructor
  · obtain ⟨s, h, hs⟩ := LTS.reachable_of_test (A := system ⟨0, 1, true, true⟩ steady)
      (s := .new [])
      (r := .get :: runs 1 1 ++ .drain :: runs 2 5 ++ runs 1 4 ++ .task 1 (.connected ()) ::
        runs 1 1)
      (p := fun s => decide (.drained ∈ s.tasks ∧ .held () ∈ s.tasks)) (by decide)
    exact ⟨s, h, of_decide_eq_true hs⟩
  · obtain ⟨s, h, hs⟩ := LTS.reachable_of_test (A := system ⟨0, 1, true, true⟩ steady)
      (s := .new [])
      (r := .drain :: runs 1 5 ++ .warmUp 1 :: runs 2 1 ++ .task 2 (.connected ()) :: runs 2 2)
      (p := fun s => decide (.drained ∈ s.tasks ∧ s.shared.idle.length = 1)) (by decide)
    exact ⟨s, h, of_decide_eq_true hs⟩

end Resolute.Pool
