import Resolute.Pool.Conservation

/-!
# Waiters and free capacity

A slot that a connection gives up is offered to the waiters only where a broken connection is
returned.  So a parked `get` stays behind if a slot is given up in another way, if a connection is
pushed onto the idle list beside it, or if it queues its sender after the last connection has come
back.

`servesWaiters` excludes the steps that leave a waiter behind.  In the runs without them the slots
that are taken, or about to be given to a waiter (`State.covered`), are no fewer than `max_size`
while somebody waits; so a state at rest in which a `get` is parked has no usable connection on the
idle list, and `total_count` is at least `max_size` (`no_lost_wakeup`).
-/

namespace Resolute.Pool

variable {C A : Type}

/-- The slots that a task has taken or will give to a waiter. -/
def Task.cover : Task C → ℤ
  | checkout _ | parked (some _) _ | served _ | counted _ | held _ | taking | returning _
  | checking _ | resetting _ _ | resetDone _ | destroying true _ | handing _ _ | parking _ _ => 1
  | provisionStart _ | provisionLook _ | creating (.provision _) .reserve | creating _ .connect => 1
  | _ => 0

/-- The connection is made for a waiter. -/
def Creator.provisions : Creator C → Bool
  | provision _ => true
  | _ => false

/-- The weight behind the number of slots that are taken or will be given to a waiter. -/
def cover : Weight C where
  of := Task.cover
  gain := 1
  of_sent _ _ := rfl
  of_woken := rfl
  of_setConn t _ := by
    cases t with
    | parked slot _ => cases slot <;> rfl
    | _ => rfl

namespace State

variable (s : State C)

/-- The number of slots that are taken, or about to be given to a waiter. -/
def covered : ℤ := s.shared.idle.length + cover.total s + s.shared.lost

/-- A `get` waits with an empty channel. -/
def waits : Bool := s.tasks.any Task.isWaiting

/-- Nobody has called `drain`. -/
structure Calm : Prop where
  notDraining : s.shared.draining = false
  noDrain : ∀ t ∈ s.tasks, t.drains = false

variable {s}

theorem waits_iff : s.waits = true ↔ ∃ j, s.live j = true := by
  simp only [waits, List.any_eq_true, live_iff]
  constructor
  · rintro ⟨t, ht, hw⟩
    obtain ⟨j, hj⟩ := List.mem_iff_getElem?.1 ht
    refine ⟨j, ?_⟩
    unfold Task.isWaiting at hw
    split at hw
    · exact ⟨_, hj⟩
    · cases hw
  · rintro ⟨j, elapsed, hj⟩
    exact ⟨_, List.mem_of_getElem? hj, rfl⟩

end State

section

variable (cfg : Config) (P : Poolable C A)

/-- The slots that a task gives up without looking for waiters. -/
def Task.gives (s : Shared C) (t : Task C) (e : Event C A) : ℕ :=
  match t, e with
  | .taking, .run => 1
  | .getScan, .run => match s.idle with
    | e :: _ => if usable cfg P e then 0 else 1
    | [] => 0
  | .evicting, .run => s.idle.countP IdleConn.expired
  -- a provisioning that fails because others have overshot
  | .creating (.provision _) .reserve, .run => if load s.totalCount < cfg.maxSize then 0 else 1
  | _, _ => 0

variable {cfg P} {live : ℕ → Bool} {i : ℕ} {s shared : Shared C}
  {e : Event C A} {t t' : Task C} {signal : Signal C}

theorem cover_nonneg (t : Task C) : 0 ≤ t.cover := by
  unfold Task.cover
  split <;> decide

theorem cover_parked (slot : Option C) (elapsed : Bool) :
    (Task.parked slot elapsed).cover = slot.toList.length := by
  cases slot <;> rfl

theorem cover_creating (who : Creator C) (stage : Create) :
    (Task.creating who stage).cover =
      if stage = .connect ∨ who.provisions = true ∧ stage = .reserve then 1 else 0 := by
  cases who <;> cases stage <;> rfl

/-- A move without `drain` leaves the pool without. -/
theorem calm_move (hm : Move cfg P live i s t e shared t' signal) (ht : t.drains = false)
    (hd : s.draining = false) : t'.drains = false ∧ shared.draining = false := by
  refine ⟨hm.drains.trans ht, ?_⟩
  cases hm <;> first | exact hd | cases ht

/-- A move gives up no other slots than those of `gives`, if all connection attempts succeed and
nobody drains the pool. -/
theorem cover_move (hm : Move cfg P live i s t e shared t' signal) (ht : t.drains = false)
    (hd : s.draining = false) (he : e ≠ .connectFailed) :
    s.idle.length + s.lost + t.cover ≤
      shared.idle.length + shared.lost + t'.cover + cover.ofSignal signal + t.gives cfg P s e ∨
    (∃ old, t = .provisionLook old) ∧ s.waiters = [] := by
  have hnonneg := cover_nonneg t'
  have keep (h : s.idle.length + s.lost + t.cover ≤
      shared.idle.length + shared.lost + t'.cover + cover.ofSignal signal) :
      s.idle.length + s.lost + t.cover ≤ shared.idle.length + shared.lost + t'.cover +
        cover.ofSignal signal + t.gives cfg P s e ∨
      (∃ old, t = .provisionLook old) ∧ s.waiters = [] :=
    .inl (by omega)
  cases hm with
  | provisionNone h => exact .inr ⟨⟨_, rfl⟩, h⟩
  | createFailed => exact absurd rfl he
  | returnDraining h | provisionDraining h => rw [hd] at h; cases h
  | drainIdle | drainWaiters | drainEmpty | drainWait | drainNotified | drainPark | drainSend =>
    cases ht
  | scanDiscard h hu =>
    left
    simp [Task.cover, Weight.ofSignal, Task.gives, h, hu]
    omega
  | evict =>
    left
    -- the entries that stay, and those that are given up
    have hsplit : s.idle.length = s.idle.countP IdleConn.expired +
        (s.idle.filter fun e => !e.expired).length := by
      rw [List.length_eq_countP_add_countP IdleConn.expired, ← List.countP_eq_length_filter]
      simp
    simp only [Task.cover, Weight.ofSignal, Task.gives]
    omega
  | taken =>
    left
    simp [Task.cover, Weight.ofSignal, Task.gives]
  | @overshoot who h =>
    left
    cases who <;> simp [Task.cover, Weight.ofSignal, Task.gives, Nat.not_lt.2 h]
  | @created who =>
    have hcreated : ∀ c : C, (who.created c).cover = 1 := by intro c; cases who <;> rfl
    apply keep
    simp [hcreated, cover_creating, Weight.ofSignal]
  | undo h =>
    apply keep
    rcases h with rfl | rfl
    all_goals
      rw [cover_creating, if_neg (by simp)]
      simp only [Weight.ofSignal]
      omega
  | @reserve who =>
    apply keep
    have hconnect : (Task.creating who .connect).cover = 1 := by
      rw [cover_creating, if_pos (.inl rfl)]
    rw [cover_creating who .reserve, hconnect]
    simp only [Weight.ofSignal]
    split_ifs <;> omega
  | cancel h =>
    apply keep
    rcases h with rfl | rfl | rfl | ⟨_, rfl⟩ | ⟨_, rfl⟩ | ⟨_, _, rfl⟩ <;>
      simp only [Task.cover, Weight.ofSignal] <;> omega
  | drift =>
    apply keep
    rw [show (t.setConn _).cover = t.cover from cover.of_setConn t _]
    simp [Weight.ofSignal]
  | dropReceiver | cancelParked =>
    apply keep
    rw [cover_parked]
    simp only [Task.cover, Weight.ofSignal, Int.natCast_add]
    omega
  | @destroy provision =>
    apply keep
    cases provision <;> simp [Task.cover, Weight.ofSignal]
  | hand | park | warmStart | warmCount | refillStart =>
    apply keep
    simp [Task.cover, Weight.ofSignal, cover] at hnonneg ⊢
    try omega
  | _ =>
    apply keep
    simp [Task.cover, Weight.ofSignal, *]
    try omega

theorem Task.isWaiting_iff : t.isWaiting = true ↔ ∃ elapsed, t = .parked none elapsed := by
  constructor
  · intro h
    unfold Task.isWaiting at h
    split at h
    · exact ⟨_, rfl⟩
    · cases h
  · rintro ⟨elapsed, rfl⟩
    rfl

theorem not_isWaiting_plain (h : t.Plain) : t.isWaiting = false := by cases h <;> rfl

theorem isWaiting_setConn (t : Task C) (c : C) : (t.setConn c).isWaiting = t.isWaiting := by
  cases t with
  | parked slot _ => cases slot <;> rfl
  | _ => rfl

/-- A task that waits has waited before, or has just queued its sender. -/
theorem isWaiting_move (hm : Move cfg P live i s t e shared t' signal)
    (h : t'.isWaiting = true) : t.isWaiting = true ∨ t = .getEnqueue ∧ e = .run := by
  have plain (hp : t'.Plain) : t.isWaiting = true ∨ t = .getEnqueue ∧ e = .run := by
    rw [not_isWaiting_plain hp] at h
    cases h
  cases hm with
  | enqueue => exact .inr ⟨rfl, rfl⟩
  | timeout => exact .inl rfl
  | drift => exact .inl (by rwa [isWaiting_setConn] at h)
  | undo => exact plain (refused_plain _)
  | destroy => exact plain (destroyed_plain _ _)
  | hand | park => exact plain (over_plain _)
  | warmStart | warmCount => exact plain (warmLoop_plain _)
  | refillStart => exact plain (refillLoop_plain _)
  | @created who => cases who <;> cases h
  | _ => cases h

end

section

variable {cfg : Config} {P : Poolable C A} {s s₀ s' : State C} {l : Label C A} {i j : ℕ}
  {e : Event C A} {t t' : Task C} {shared : Shared C} {signal : Signal C}

/-- A task that waits after a move has waited before and was not sent a connection, or has just
queued its sender. -/
theorem live_move (ht : s.tasks[i]? = some t)
    (hm : Move cfg P s.live i s.shared t e shared t' signal)
    (hj : State.live ⟨shared, signal.deliver (s.tasks.set i t')⟩ j = true) :
    s.live j = true ∧ (∀ c, signal ≠ .send j c) ∨ j = i ∧ t = .getEnqueue ∧ e = .run := by
  obtain ⟨elapsed, hget⟩ := State.live_iff.1 hj
  rcases task_after ht hm hget with ⟨rfl, heq⟩ | ⟨hji, v, hv, rfl | ⟨_, _, _, _, heq⟩ | ⟨_, _, heq⟩⟩
  · rcases isWaiting_move hm (heq ▸ rfl) with hw | hq
    · obtain ⟨elapsed', rfl⟩ := Task.isWaiting_iff.1 hw
      exact .inl ⟨State.live_iff.2 ⟨_, ht⟩, fun c hc => (hm.send_target hc ht).1 rfl⟩
    · exact .inr ⟨rfl, hq⟩
  · refine .inl ⟨State.live_iff.2 ⟨_, hv⟩, ?_⟩
    rintro c rfl
    have hsent := hget
    simp only [Signal.deliver, List.getElem?_modify, List.getElem?_set_ne (Ne.symm hji),
      hv] at hsent
    cases hsent
  · cases heq
  · cases heq

/-- A move leaves the sender of a waiting task in the queue, unless it sends a connection there. -/
theorem waiters_move (hm : Move cfg P s.live i s.shared t e shared t' signal)
    (hd : t.drains = false) (hj : s.live j = true) (hq : j ∈ s.shared.waiters)
    (hs : ∀ c, signal ≠ .send j c) : j ∈ shared.waiters := by
  cases hm with
  | enqueue => exact List.mem_append_left _ hq
  | retain => exact List.mem_filter.2 ⟨hq, hj⟩
  | @hand who c k rest h =>
    obtain ⟨-, dead, hsplit, hdead⟩ := popLive_some h
    rw [hsplit] at hq
    rcases List.mem_append.1 hq with hmem | hmem
    · rw [hdead j hmem] at hj
      cases hj
    · rcases List.mem_cons.1 hmem with rfl | hmem
      · exact absurd rfl (hs c)
      · exact hmem
  | handNone h =>
    rw [popLive_none h j hq] at hj
    cases hj
  | drainWaiters => cases hd
  | _ => exact hq

/-- A move pushes at most the connection of its task onto the idle list. -/
theorem idle_move (hm : Move cfg P s.live i s.shared t e shared t' signal) {x : IdleConn C}
    (hx : x ∈ shared.idle) : x ∈ s.shared.idle ∨
      e = .run ∧ ((∃ who, t = .parking who x.conn) ∨ ∃ left, t = .warmPush left x.conn) ∧
        x.expired = false := by
  cases hm with
  | @scanUsable y rest h | @scanDiscard y rest h => exact .inl (h ▸ List.mem_cons_of_mem _ hx)
  | @park who c =>
    rcases List.mem_append.1 hx with hx | hx
    · exact .inl hx
    · rw [List.mem_singleton.1 hx]
      exact .inr ⟨rfl, .inl ⟨who, rfl⟩, rfl⟩
  | @warmPush left c =>
    rcases List.mem_append.1 hx with hx | hx
    · exact .inl hx
    · rw [List.mem_singleton.1 hx]
      exact .inr ⟨rfl, .inr ⟨left, rfl⟩, rfl⟩
  | evict => exact .inl (List.mem_filter.1 hx).1
  | drainIdle => cases hx
  | _ => exact .inl hx

/-! ### Runs that leave no waiter behind -/

variable (cfg P)

/-- The step leaves no waiter behind: `get` queues its sender only if it would still find neither a
usable idle connection nor a free slot; no usable connection is pushed beside a waiting `get`; and
no slot is given up beside a waiting `get`, unless `max_size` others are taken.  Nobody drains the
pool, and all connection attempts succeed. -/
def servesWaiters (s : State C) : Label C A → Bool
  | .drain => false
  | .task _ .connectFailed => false
  | .task i e => match s.tasks[i]?, e with
    | some .getEnqueue, .run =>
      s.shared.idle.all (fun x => !usable cfg P x) && decide (cfg.maxSize ≤ s.covered)
    | some (.parking _ c), .run | some (.warmPush _ c), .run =>
      !s.waits || !usable cfg P ⟨c, false⟩
    | some t, e =>
      !s.waits || decide (t.gives cfg P s.shared e = 0 ∨
        cfg.maxSize + t.gives cfg P s.shared e ≤ s.covered)
    | none, _ => true
  | _ => true

/-- No waiter has been left behind. -/
structure Attended (s : State C) : Prop where
  calm : s.Calm
  queued : ∀ j, s.live j = true → j ∈ s.shared.waiters
  unusable : s.waits = true → ∀ x ∈ s.shared.idle, usable cfg P x = false
  covered : s.waits = true → cfg.maxSize ≤ s.covered

variable {cfg P}

theorem State.Calm.move (hc : s.Calm) (ht : s.tasks[i]? = some t)
    (hm : Move cfg P s.live i s.shared t e shared t' signal) :
    State.Calm ⟨shared, signal.deliver (s.tasks.set i t')⟩ := by
  have hmove := calm_move hm (hc.noDrain t (List.mem_of_getElem? ht)) hc.notDraining
  refine ⟨hmove.2, fun u hu => ?_⟩
  obtain ⟨k, hk⟩ := List.mem_iff_getElem?.1 hu
  rcases task_after ht hm hk with ⟨-, rfl⟩ | ⟨-, v, hv, hcases⟩
  · exact hmove.1
  · have hdrains := hc.noDrain v (List.mem_of_getElem? hv)
    rcases hcases with rfl | ⟨_, _, -, -, rfl⟩ | ⟨-, rfl, -⟩
    · exact hdrains
    · rfl
    · cases hdrains

theorem not_connectFailed_of_serves (hg : servesWaiters cfg P s (.task i e) = true) :
    e ≠ .connectFailed := by
  rintro rfl
  cases hg

/-- Beside a waiting `get`, a slot is given up only if `max_size` others are taken. -/
theorem gives_of_serves (hg : servesWaiters cfg P s (.task i e) = true)
    (ht : s.tasks[i]? = some t) (hw : s.waits = true) :
    t.gives cfg P s.shared e = 0 ∨ cfg.maxSize + t.gives cfg P s.shared e ≤ s.covered := by
  have he := not_connectFailed_of_serves hg
  simp only [servesWaiters, ht] at hg
  split at hg
  case h_4 heq _ _ _ =>
    cases heq
    simpa [hw] using hg
  case h_5 heq => cases heq
  -- the other three give up nothing
  all_goals
    rename_i heq
    cases heq
    exact .inl rfl

theorem Attended.move (ha : Attended cfg P s) (ht : s.tasks[i]? = some t)
    (hm : Move cfg P s.live i s.shared t e shared t' signal)
    (hg : servesWaiters cfg P s (.task i e) = true) :
    Attended cfg P ⟨shared, signal.deliver (s.tasks.set i t')⟩ := by
  have hd := ha.calm.noDrain t (List.mem_of_getElem? ht)
  -- a waiting task has waited before, or has just queued its sender
  have hwaits : State.waits ⟨shared, signal.deliver (s.tasks.set i t')⟩ = true →
      s.waits = true ∨ t = .getEnqueue ∧ e = .run := by
    intro hw
    obtain ⟨j, hj⟩ := State.waits_iff.1 hw
    rcases live_move ht hm hj with ⟨hlive, -⟩ | ⟨-, henq⟩
    · exact .inl (State.waits_iff.2 ⟨j, hlive⟩)
    · exact .inr henq
  refine ⟨ha.calm.move ht hm, fun j hj => ?_, fun hw x hx => ?_, fun hw => ?_⟩
  · rcases live_move ht hm hj with ⟨hlive, hsignal⟩ | ⟨rfl, rfl, rfl⟩
    · exact waiters_move hm hd hlive (ha.queued j hlive) hsignal
    · cases hm
      exact List.mem_append_right _ List.mem_cons_self
  · rcases hwaits hw with hw | ⟨rfl, rfl⟩
    · rcases idle_move hm hx with hx | ⟨rfl, hpush, hexpired⟩
      · exact ha.unusable hw x hx
      · have hx : x = ⟨x.conn, false⟩ := by rw [← hexpired]
        rw [hx]
        rcases hpush with ⟨who, rfl⟩ | ⟨left, rfl⟩ <;>
          simpa [servesWaiters, ht, hw] using hg
    · simp only [servesWaiters, ht, Bool.and_eq_true, List.all_eq_true] at hg
      cases hm
      simpa using hg.1 x hx
  · have htotal := tally_move cover ht hm
    simp only [show ∀ t : Task C, cover.of t = t.cover from fun _ => rfl] at htotal
    simp only [State.covered, htotal]
    rcases hwaits hw with hw | ⟨rfl, rfl⟩
    · have hcov := ha.covered hw
      have hgives := gives_of_serves hg ht hw
      rcases cover_move hm hd ha.calm.notDraining (not_connectFailed_of_serves hg) with
        hmove | ⟨-, hnone⟩
      · simp only [State.covered] at hcov hgives
        omega
      · obtain ⟨j, hj⟩ := State.waits_iff.1 hw
        have := ha.queued j hj
        rw [hnone] at this
        cases this
    · simp only [servesWaiters, ht, Bool.and_eq_true, decide_eq_true_eq] at hg
      have hcov := hg.2
      simp only [State.covered] at hcov
      cases hm
      simp only [Task.cover, Weight.ofSignal]
      omega

/-- The idle connections grow no better by themselves. -/
theorem Attended.setIdle (ha : Attended cfg P s) {k : ℕ} {x y : IdleConn C}
    (hx : s.shared.idle[k]? = some x)
    (hy : usable cfg P x = false → usable cfg P y = false) :
    Attended cfg P (s.setIdle (s.shared.idle.set k y)) := by
  refine ⟨⟨ha.calm.notDraining, ha.calm.noDrain⟩, ha.queued, fun hw z hz => ?_, fun hw => ?_⟩
  · rcases List.mem_or_eq_of_mem_set hz with hz | rfl
    · exact ha.unusable hw z hz
    · exact hy (ha.unusable hw x (List.mem_of_getElem? hx))
  · have hcov := ha.covered hw
    simpa [State.covered, State.setIdle, Weight.total] using hcov

theorem Attended.spawn (ha : Attended cfg P s) (hd : t.drains = false)
    (hw : t.isWaiting = false) : Attended cfg P (s.spawn t) := by
  have hwaits : (s.spawn t).waits = s.waits := by
    simp [State.waits, State.spawn, hw]
  refine ⟨⟨ha.calm.notDraining, fun u hu => ?_⟩, fun j hj => ?_, fun h => ?_, fun h => ?_⟩
  · rcases List.mem_append.1 hu with hu | hu
    · exact ha.calm.noDrain u hu
    · rw [List.mem_singleton.1 hu]
      exact hd
  · obtain ⟨elapsed, hget⟩ := State.live_iff.1 hj
    rcases spawn_cases hget with hget | ⟨-, rfl⟩
    · exact ha.queued j (State.live_iff.2 ⟨_, hget⟩)
    · cases hw
  · exact ha.unusable (hwaits ▸ h)
  · have hcov := ha.covered (hwaits ▸ h)
    have hnonneg : 0 ≤ cover.of t := cover_nonneg t
    have hshared : (s.spawn t).shared = s.shared := rfl
    simp only [State.covered] at hcov ⊢
    rw [hshared, total_spawn]
    omega

theorem Attended.step (ha : Attended cfg P s) (hg : servesWaiters cfg P s l = true)
    (h : (system cfg P).step s l = some s') : Attended cfg P s' := by
  cases step_cases h with
  | get => exact ha.spawn rfl rfl
  | warmUp => exact ha.spawn rfl rfl
  | drain => cases hg
  | move ht hm => exact ha.move ht hm hg
  | expire hx => exact ha.setIdle hx fun _ => by simp [usable]
  | drift hx hc =>
    refine ha.setIdle hx fun hu => ?_
    simp only [usable, Bool.and_eq_false_iff, Bool.not_eq_false', Bool.and_eq_true] at hu ⊢
    exact hu.imp_right fun hp => ⟨hp.1, P.drift_pending hc hp.2⟩

theorem State.AtRest.cover_total (hr : s.AtRest) : cover.total s = s.guards := by
  refine tally_countP fun t ht => ?_
  have hrest := hr t ht
  unfold Task.rests at hrest
  split at hrest <;> first | rfl | cases hrest

/-- **No lost wake-up**: in a run whose steps leave no waiter behind, a state at rest in which a
`get` is parked has no usable connection on the idle list and no free capacity. -/
theorem no_lost_wakeup (h₀ : s₀.Fresh cfg P)
    (h : ((system cfg P).guard fun s l => servesWaiters cfg P s l = true).Reachable s₀ s)
    (hr : s.AtRest) (hw : s.waits = true) :
    (∀ x ∈ s.shared.idle, usable cfg P x = false) ∧ cfg.maxSize ≤ s.shared.totalCount := by
  have ha : Attended cfg P s := by
    refine h.guard_invariant (I := Attended cfg P) ?_ fun s l s' hs hg hst => hs.step hg hst
    obtain ⟨conns, rfl, -, -⟩ := h₀
    have hnone : State.waits (.new conns) = false := rfl
    refine ⟨⟨rfl, by simp [State.new, Task.drains]⟩, fun j hj => ?_, ?_, ?_⟩
    · rw [State.waits_iff.2 ⟨j, hj⟩] at hnone
      cases hnone
    · simp [hnone]
    · simp [hnone]
  have hcov := ha.covered hw
  rw [State.covered, hr.cover_total] at hcov
  exact ⟨ha.unusable hw, totalCount_atRest h₀ h.of_guard hr ▸ hcov⟩

end

theorem no_lost_wakeup_parked :
    ∃ s, ((system ⟨1, 1, true, true⟩ steady).guard
        fun s l => servesWaiters ⟨1, 1, true, true⟩ steady s l = true).Reachable (.new [()]) s ∧
      s.waits = true ∧ (∀ x ∈ s.shared.idle, usable ⟨1, 1, true, true⟩ steady x = false) ∧
      1 ≤ s.shared.totalCount := by
  obtain ⟨s, h, hs⟩ := LTS.reachable_of_test (A := (system ⟨1, 1, true, true⟩ steady).guard
      fun s l => servesWaiters ⟨1, 1, true, true⟩ steady s l = true) (s := .new [()])
    (r := .get :: runs 1 4 ++ .get :: runs 2 5) (p := fun s => decide (s.AtRest ∧ s.waits = true))
    (by decide)
  obtain ⟨hr, hw⟩ := of_decide_eq_true hs
  exact ⟨s, h, hw, no_lost_wakeup ⟨[()], rfl, by decide, by decide⟩ h hr hw⟩

/-- `take` frees the only slot and leaves the parked `get` behind; and a connection that comes back
between the check of a `get` and its queueing is pushed onto the idle list beside it. -/
theorem waiter_left_behind :
    (∃ s, (system ⟨1, 1, true, true⟩ steady).Reachable (.new [()]) s ∧ s.AtRest ∧
      s.waits = true ∧ s.shared.totalCount = 0) ∧
    ∃ s, (system ⟨1, 1, true, true⟩ steady).Reachable (.new [()]) s ∧ s.AtRest ∧
      s.waits = true ∧ ∃ x ∈ s.shared.idle, usable ⟨1, 1, true, true⟩ steady x = true := by
  constructor
  · obtain ⟨s, h, hs⟩ := LTS.reachable_of_test (A := system ⟨1, 1, true, true⟩ steady)
      (s := .new [()])
      (r := .get :: runs 1 4 ++ .get :: runs 2 5 ++ .task 1 .take :: runs 1 1)
      (p := fun s => decide (s.AtRest ∧ s.waits = true ∧ s.shared.totalCount = 0)) (by decide)
    exact ⟨s, h, of_decide_eq_true hs⟩
  · obtain ⟨s, h, hs⟩ := LTS.reachable_of_test (A := system ⟨1, 1, true, true⟩ steady)
      (s := .new [()])
      (r := .get :: runs 1 4 ++ .get :: runs 2 4 ++ .task 1 .drop :: runs 1 6 ++ runs 2 1)
      (p := fun s => decide (s.AtRest ∧ s.waits = true ∧
        ∃ x ∈ s.shared.idle, usable ⟨1, 1, true, true⟩ steady x = true)) (by decide)
    exact ⟨s, h, of_decide_eq_true hs⟩

end Resolute.Pool
