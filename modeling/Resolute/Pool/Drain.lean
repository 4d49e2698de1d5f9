import Resolute.Pool.Conservation

/-!
# A drain is woken

A `drain` that waits for `drain_complete` is woken by a task that destroys a connection, or fails to
replace one, and then finds that `total_count` is zero.  Other ways of bringing the counter to zero
wake nobody, and a connection that comes onto the idle list after `drain` has cleared it is never
removed.  A state is `Wedged` if a `drain` waits for a notification that nobody is to send.

`wakesDrain` excludes the steps that leave a `drain` behind.  In the runs without them there may be
several drains, one after the other, and each is `Vigilant`: while it waits and `total_count` is
zero, a notification is stored or about to be sent.  So no state of such a run is wedged
(`drain_never_wedged`).
-/

namespace Resolute.Pool

variable {C A : Type}

namespace Task

/-- The task is a `drain` that has set the flag. -/
def hasFlagged : Task C → Bool
  | drainStart => false
  | t => t.drains

/-- The task is a `drain` that has not yet found `total_count` at zero. -/
def isDraining : Task C → Bool
  | drainStart | drainIdle | drainWaiters | drainCheck | drainPoll | drainParked => true
  | _ => false

/-- The task is a `drain` that has cleared the idle list, and has not yet found `total_count` at
zero. -/
def hasCleared : Task C → Bool
  | drainWaiters | drainCheck | drainPoll | drainParked => true
  | _ => false

/-- The task is a `drain` that has seen connections and waits for a notification, or is about to. -/
def awaits : Task C → Bool
  | drainPoll | drainParked => true
  | _ => false

/-- The task is going to call `maybe_notify_drain`, if nothing stops it. -/
def notifies : Task C → Bool
  | provisionStart _ | provisionLook _ | creating (.provision _) .reserve | notifyStart _
  | notifyLoad _ | notifyOne _ => true
  | _ => false

/-- The task is to decrement `total_count` without calling `maybe_notify_drain` afterwards. -/
def forgets : Task C → Bool
  | taking | creating .get .undo | creating .get .failed | creating (.refill _) .undo
  | creating (.refill _) .failed => true
  | _ => false

/-- `warm_up` has pushed a connection that it has not counted yet. -/
def isWarmCount : Task C → Bool
  | warmCount _ => true
  | _ => false

/-- A guard; or a `get`, a return, a `take` or a creation that is half-way and has a connection, or
is to get one, or had one. -/
def busy : Task C → Bool
  | checkout _ | creating _ _ | parked (some _) _ | served _ | counted _ | held _ | taking
  | returning _ | checking _ | resetting _ _ | resetDone _ | destroying _ _
  | handing _ _ | parking _ _ | provisionStart _ | provisionLook _ | notifyStart _ | notifyLoad _
  | notifyOne _ | warmConnect _ | warmPush _ _ | warmCount _ => true
  | _ => false

end Task

/-- A `drain` waits for a notification that nobody is to send: none is stored, there is no guard,
and no return and no creation is in progress. -/
structure State.Wedged (s : State C) : Prop where
  waiting : .drainParked ∈ s.tasks
  nothingStored : s.shared.permit = false
  quiet : ∀ t ∈ s.tasks, t.busy = false

/-- A `drain` waits for a notification, or is about to. -/
def State.awaits (s : State C) : Bool := s.tasks.any Task.awaits

/-- A `drain` has cleared the idle list and not yet found `total_count` at zero. -/
def State.cleared (s : State C) : Bool := s.tasks.any Task.hasCleared

/-- The step does not leave a `drain` behind: it is the only one under way; no slot is lost; nothing
is pushed onto the idle list once `drain` has cleared it, and all that was pushed before is counted;
and `take`, or the failure of a `get` or of the maintenance task to create a connection, does not
bring `total_count` to zero while `drain` waits. -/
def wakesDrain (s : State C) : Label C A → Bool
  | .drain => !s.tasks.any Task.isDraining
  | .task i e => match s.tasks[i]?, e with
    | some (.parking _ _), .run | some (.warmPush _ _), .run => !s.cleared
    | some .drainIdle, .run => !s.tasks.any Task.isWarmCount
    | some t, e =>
      !t.loses e && !(t.forgets && s.awaits && decide (s.shared.totalCount = 1))
    | none, _ => true
  | _ => true

/-- What a `drain` relies on. -/
structure Vigilant (s : State C) : Prop where
  /-- There is at most one `drain` under way. -/
  one : ∀ (j k : ℕ) (t u : Task C), s.tasks[j]? = some t → s.tasks[k]? = some u →
    t.isDraining = true → u.isDraining = true → j = k
  flag : ∀ t ∈ s.tasks, t.hasFlagged = true → s.shared.draining = true
  lost : s.shared.lost = 0
  idle : s.cleared = true → s.shared.idle = []
  counted : s.cleared = true → ∀ t ∈ s.tasks, t.isWarmCount = false
  /-- The `drain` that waits is the one that will be woken. -/
  sleeper : ∀ j, s.tasks[j]? = some .drainParked → s.shared.sleepers = [j]
  sleepers : ∀ j ∈ s.shared.sleepers, s.tasks[j]? = some .drainParked
  notified : s.awaits = true → s.shared.totalCount = 0 →
    s.shared.permit = true ∨ ∃ t ∈ s.tasks, t.notifies = true

section

variable {cfg : Config} {P : Poolable C A} {live : ℕ → Bool} {i : ℕ} {s shared : Shared C}
  {e : Event C A} {t t' : Task C} {signal : Signal C}

/-! ### Moves of a drain -/

theorem conn_of_drains (h : t.drains = true) : t.conn = none := by
  cases t <;> first | rfl | cases h

theorem hasFlagged_move (hm : Move cfg P live i s t e shared t' signal)
    (h : t'.hasFlagged = true) : t.hasFlagged = true ∨ shared.draining = true := by
  have hd : t.drains = true := by
    rw [← hm.drains]
    cases t' <;> first | rfl | cases h
  cases hm with
  | drainStart => exact .inr rfl
  | cancel hc => rcases hc with rfl | rfl | rfl | ⟨_, rfl⟩ | ⟨_, rfl⟩ | ⟨_, _, rfl⟩ <;> cases hd
  | drift ht _ => rw [conn_of_drains hd] at ht; cases ht
  | _ => first | exact .inl rfl | cases hd

theorem hasCleared_move (hm : Move cfg P live i s t e shared t' signal)
    (h : t'.hasCleared = true) : t.hasCleared = true ∨
      t = .drainIdle ∧ e = .run ∧ t' = .drainWaiters ∧ shared.idle = [] := by
  have hd : t.drains = true := by
    rw [← hm.drains]
    cases t' <;> first | rfl | cases h
  cases hm with
  | drainIdle => exact .inr ⟨rfl, rfl, rfl, rfl⟩
  | cancel hc => rcases hc with rfl | rfl | rfl | ⟨_, rfl⟩ | ⟨_, rfl⟩ | ⟨_, _, rfl⟩ <;> cases hd
  | drift ht _ => rw [conn_of_drains hd] at ht; cases ht
  | drainStart | drainSend => cases h
  | _ => first | exact .inl rfl | cases hd

theorem isDraining_move (hm : Move cfg P live i s t e shared t' signal)
    (h : t'.isDraining = true) : t.isDraining = true := by
  have hd : t.drains = true := by
    rw [← hm.drains]
    cases t' <;> first | rfl | cases h
  cases hm with
  | cancel hc => rcases hc with rfl | rfl | rfl | ⟨_, rfl⟩ | ⟨_, rfl⟩ | ⟨_, _, rfl⟩ <;> cases hd
  | drift ht _ => rw [conn_of_drains hd] at ht; cases ht
  | drainSend => cases h
  | _ => first | rfl | cases hd

theorem awaits_move (hm : Move cfg P live i s t e shared t' signal) (h : t'.awaits = true) :
    t = .drainPoll ∧ shared.permit = false ∧ shared.totalCount = s.totalCount ∨
      shared.totalCount ≠ 0 := by
  have hd : t.drains = true := by
    rw [← hm.drains]
    cases t' <;> first | rfl | cases h
  cases hm with
  | drainWait hz =>
    right
    intro hzero
    rw [hzero] at hz
    exact hz rfl
  | drainPark hp => exact .inl ⟨rfl, hp, rfl⟩
  | cancel hc => rcases hc with rfl | rfl | rfl | ⟨_, rfl⟩ | ⟨_, rfl⟩ | ⟨_, _, rfl⟩ <;> cases hd
  | drift ht _ => rw [conn_of_drains hd] at ht; cases ht
  | use | resetOk | resetFailed | resetWaits => cases hd
  | _ => first | cases h | cases hd

theorem draining_move (hm : Move cfg P live i s t e shared t' signal)
    (h : s.draining = true) : shared.draining = true := by
  cases hm <;> first | exact h | rfl

/-- A move pushes onto the idle list only from where a connection is about to be pushed. -/
theorem idle_nil_move (hm : Move cfg P live i s t e shared t' signal) (h : s.idle = []) :
    shared.idle = [] ∨ e = .run ∧ ((∃ who c, t = .parking who c) ∨
      ∃ left c, t = .warmPush left c) := by
  cases hm with
  | scanUsable hi | scanDiscard hi => rw [h] at hi; cases hi
  | park => exact .inr ⟨rfl, .inl ⟨_, _, rfl⟩⟩
  | warmPush => exact .inr ⟨rfl, .inr ⟨_, _, rfl⟩⟩
  | evict => simp [h]
  | drainIdle => exact .inl rfl
  | _ => exact .inl h

theorem isWarmCount_plain (h : t.Plain) : t.isWarmCount = false := by cases h <;> rfl

theorem isWarmCount_move (hm : Move cfg P live i s t e shared t' signal)
    (h : t'.isWarmCount = true) : e = .run ∧ ∃ left c, t = .warmPush left c := by
  have plain (hp : t'.Plain) : e = .run ∧ ∃ left c, t = .warmPush left c := by
    rw [isWarmCount_plain hp] at h
    cases h
  cases hm with
  | warmPush => exact ⟨rfl, _, _, rfl⟩
  | undo => exact plain (refused_plain _)
  | destroy => exact plain (destroyed_plain _ _)
  | hand | park => exact plain (over_plain _)
  | warmStart | warmCount => exact plain (warmLoop_plain _)
  | refillStart => exact plain (refillLoop_plain _)
  | @created who => cases who <;> cases h
  | drift ht _ =>
    cases t with
    | parked slot _ => cases slot <;> cases h
    | warmCount left => cases ht
    | _ => cases h
  | _ => cases h

/-- How a move changes the queue of the tasks that wait for `drain_complete`. -/
theorem sleepers_move (hm : Move cfg P live i s t e shared t' signal) :
    shared.sleepers = s.sleepers ∧ (∀ k, signal ≠ .wake k) ∨
    t = .drainPoll ∧ t' = .drainParked ∧ shared.sleepers = s.sleepers ++ [i] ∨
    ∃ k rest, s.sleepers = k :: rest ∧ shared.sleepers = rest ∧ signal = .wake k ∧
      ∃ old, t = .notifyOne old := by
  cases hm with
  | drainPark => exact .inr (.inl ⟨rfl, rfl, rfl⟩)
  | notifyWake h => exact .inr (.inr ⟨_, _, h, rfl, rfl, _, rfl⟩)
  | _ => exact .inl ⟨rfl, nofun⟩

theorem drainParked_move (hm : Move cfg P live i s t e shared t' signal) (h : t' = .drainParked) :
    t = .drainPoll ∧ shared.sleepers = s.sleepers ++ [i] := by
  have hd : t.drains = true := by rw [← hm.drains, h]; rfl
  cases hm with
  | drainPark => exact ⟨rfl, rfl⟩
  | cancel hc => rcases hc with rfl | rfl | rfl | ⟨_, rfl⟩ | ⟨_, rfl⟩ | ⟨_, _, rfl⟩ <;> cases hd
  | drift ht _ => rw [conn_of_drains hd] at ht; cases ht
  | _ => first | cases h | cases hd

theorem permit_move (hm : Move cfg P live i s t e shared t' signal) (h : s.permit = true) :
    shared.permit = true ∨ t = .drainPoll ∧ t' = .drainCheck := by
  cases hm with
  | drainNotified => exact .inr ⟨rfl, rfl⟩
  | notifyStore => exact .inl rfl
  | _ => exact .inl h

/-- A `drain` that waits does not move. -/
theorem drainParked_stays (hm : Move cfg P live i s t e shared t' signal) : t ≠ .drainParked := by
  rintro rfl
  cases hm with
  | cancel hc => rcases hc with h | h | h | ⟨_, h⟩ | ⟨_, h⟩ | ⟨_, _, h⟩ <;> cases h
  | drift ht _ => cases ht

theorem conn_of_notifies (h : t.notifies = true) : t.conn = none := by
  cases t <;> first | rfl | cases h

/-- A task that is going to call `maybe_notify_drain` goes on to do so, if the pool drains and the
counter is zero. -/
theorem notifies_move (hm : Move cfg P live i s t e shared t' signal) (h : t.notifies = true)
    (hd : s.draining = true) (hz : s.totalCount = 0) :
    t'.notifies = true ∨ shared.permit = true ∨ (∃ k, signal = .wake k) ∨
      shared.totalCount ≠ 0 := by
  cases hm with
  | notifyIdle h' => rw [hd] at h'; cases h'
  | notifyNot h' => rw [hz] at h'; exact absurd rfl h'
  | notifyWake => exact .inr (.inr (.inl ⟨_, rfl⟩))
  | notifyStore => exact .inr (.inl rfl)
  | reserve | overshoot => exact .inr (.inr (.inr (by simp [hz])))
  | @undo who _ hs => rcases hs with rfl | rfl <;> cases who <;> cases h
  | @created who | @createFailed who => cases who <;> cases h
  | cancel hc => rcases hc with rfl | rfl | rfl | ⟨_, rfl⟩ | ⟨_, rfl⟩ | ⟨_, _, rfl⟩ <;> cases h
  | drift ht _ => rw [conn_of_notifies h] at ht; cases ht
  | _ => first | exact .inl rfl | cases h

/-- The moves that bring `total_count` to zero: those that destroy a connection or fail to replace
one notify, others forget to. -/
theorem totalCount_move (hm : Move cfg P live i s t e shared t' signal)
    (hz : shared.totalCount = 0) (hs : s.totalCount ≠ 0) :
    t'.notifies = true ∨ s.idle ≠ [] ∨ t = .drainIdle ∨ t.isWarmCount = true ∨
      s.totalCount < 0 ∨ e = .run ∧ s.totalCount = 1 ∧ t.forgets = true := by
  cases hm with
  | scanDiscard h => exact .inr (.inl (by simp [h]))
  | evict =>
    refine .inr (.inl fun h => hs ?_)
    simpa [h] using hz
  | drainIdle => exact .inr (.inr (.inl rfl))
  | warmCount => exact .inr (.inr (.inr (.inl rfl)))
  | reserve | overshoot =>
    refine .inr (.inr (.inr (.inr (.inl ?_))))
    dsimp only at hz
    omega
  | @destroy provision => exact .inl (by cases provision <;> rfl)
  | @undo who _ hst =>
    have hone : s.totalCount = 1 := by
      dsimp only at hz
      omega
    cases who with
    | provision => exact .inl rfl
    | get | refill =>
      refine .inr (.inr (.inr (.inr (.inr ⟨rfl, hone, ?_⟩))))
      rcases hst with rfl | rfl <;> rfl
  | taken =>
    refine .inr (.inr (.inr (.inr (.inr ⟨rfl, ?_, rfl⟩))))
    dsimp only at hz
    omega
  | _ => exact absurd hz hs

end

section

variable {cfg : Config} {P : Poolable C A} {s s₀ s' : State C} {l : Label C A} {i : ℕ}
  {e : Event C A} {t t' : Task C} {shared : Shared C} {signal : Signal C}

theorem isDraining_of_awaits (h : t.awaits = true) : t.isDraining = true := by
  cases t <;> first | rfl | cases h

theorem hasFlagged_of_awaits (h : t.awaits = true) : t.hasFlagged = true := by
  cases t <;> first | rfl | cases h

theorem hasFlagged_of_hasCleared (h : t.hasCleared = true) : t.hasFlagged = true := by
  cases t <;> first | rfl | cases h

theorem hasCleared_of_awaits (h : t.awaits = true) : t.hasCleared = true := by
  cases t <;> first | rfl | cases h

/-- A `drain` that is under way after a move was under way before. -/
theorem isDraining_after (ht : s.tasks[i]? = some t)
    (hm : Move cfg P s.live i s.shared t e shared t' signal) {k : ℕ} {u : Task C}
    (hu : (signal.deliver (s.tasks.set i t'))[k]? = some u) (hd : u.isDraining = true) :
    ∃ v, s.tasks[k]? = some v ∧ v.isDraining = true := by
  rcases task_after ht hm hu with ⟨rfl, rfl⟩ | ⟨-, v, hv, rfl | ⟨_, _, -, -, rfl⟩ | ⟨-, rfl, -⟩⟩
  · exact ⟨t, ht, isDraining_move hm hd⟩
  · exact ⟨u, hv, hd⟩
  · cases hd
  · exact ⟨_, hv, rfl⟩

/-- What a predicate on tasks that a move does not establish, and that parked tasks do not have,
says about the tasks after the move. -/
theorem any_after {p : Task C → Bool} (ht : s.tasks[i]? = some t)
    (hm : Move cfg P s.live i s.shared t e shared t' signal)
    (hparked : ∀ slot elapsed, p (.parked slot elapsed) = false)
    (hwoken : p .drainCheck = true → p .drainParked = true)
    (h : (signal.deliver (s.tasks.set i t')).any p = true) :
    s.tasks.any p = true ∨ p t' = true := by
  obtain ⟨u, hmem, hu⟩ := List.any_eq_true.1 h
  obtain ⟨k, hk⟩ := List.mem_iff_getElem?.1 hmem
  rcases task_after ht hm hk with ⟨-, rfl⟩ | ⟨-, v, hv, rfl | ⟨_, _, -, -, rfl⟩ | ⟨-, rfl, rfl⟩⟩
  · exact .inr hu
  · exact .inl (List.any_eq_true.2 ⟨u, List.mem_of_getElem? hv, hu⟩)
  · rw [hparked] at hu
    cases hu
  · exact .inl (List.any_eq_true.2 ⟨_, List.mem_of_getElem? hv, hwoken hu⟩)

/-- The flag is set before the `drain` goes on, and is never reset. -/
theorem flag_after (hf : ∀ u ∈ s.tasks, u.hasFlagged = true → s.shared.draining = true)
    (ht : s.tasks[i]? = some t) (hm : Move cfg P s.live i s.shared t e shared t' signal) :
    ∀ u ∈ signal.deliver (s.tasks.set i t'), u.hasFlagged = true → shared.draining = true := by
  intro u hu hflag
  have hany : (signal.deliver (s.tasks.set i t')).any Task.hasFlagged = true :=
    List.any_eq_true.2 ⟨u, hu, hflag⟩
  rcases any_after ht hm (fun _ _ => rfl) (fun _ => rfl) hany with hany | hmoved
  · obtain ⟨v, hv, hvf⟩ := List.any_eq_true.1 hany
    exact draining_move hm (hf v hv hvf)
  · rcases hasFlagged_move hm hmoved with htf | hd
    · exact draining_move hm (hf t (List.mem_of_getElem? ht) htf)
    · exact hd

theorem flag_spawn (hf : ∀ u ∈ s.tasks, u.hasFlagged = true → s.shared.draining = true)
    (ht : t.hasFlagged = false) :
    ∀ u ∈ (s.spawn t).tasks, u.hasFlagged = true → s.shared.draining = true := by
  intro u hu hflag
  rcases List.mem_append.1 hu with hu | hu
  · exact hf u hu hflag
  · rw [List.mem_singleton.1 hu, ht] at hflag
    cases hflag

theorem slots_of_not_busy (h : t.busy = false) : t.slots = 0 := by
  unfold Task.slots
  split <;> first | rfl | cases h

theorem busy_of_notifies (h : t.notifies = true) : t.busy = true := by
  unfold Task.notifies at h
  split at h <;> first | rfl | cases h

theorem slots_nonneg (h : t.isWarmCount = false) : 0 ≤ t.slots := by
  unfold Task.slots
  split <;> first | decide | cases h

/-- What the guard asks of the step of a task. -/
theorem wakesDrain_task (hg : wakesDrain s (.task i e) = true) (ht : s.tasks[i]? = some t) :
    t.loses e = false ∧
    (e = .run → ((∃ who c, t = .parking who c) ∨ ∃ left c, t = .warmPush left c) →
      s.cleared = false) ∧
    (e = .run → t = .drainIdle → ∀ u ∈ s.tasks, u.isWarmCount = false) ∧
    (t.forgets = true → s.awaits = true → s.shared.totalCount ≠ 1) := by
  simp only [wakesDrain, ht] at hg
  split at hg
  case h_1 heq =>
    cases heq
    exact ⟨rfl, fun _ _ => by simpa using hg, nofun, nofun⟩
  case h_2 heq =>
    cases heq
    exact ⟨rfl, fun _ _ => by simpa using hg, nofun, nofun⟩
  case h_3 heq =>
    cases heq
    exact ⟨rfl, nofun, fun _ _ => by simpa using hg, nofun⟩
  case h_4 heq hparking hwarm hdrain =>
    cases heq
    obtain ⟨hloses, hforget⟩ := Bool.and_eq_true_iff.1 hg
    refine ⟨by simpa using hloses, fun he hp => ?_, fun he hd => (hdrain he hd).elim,
      fun hf ha => by simpa [hf, ha] using hforget⟩
    rcases hp with ⟨who, c, hp⟩ | ⟨left, c, hp⟩
    · exact (hparking who c he hp).elim
    · exact (hwarm left c he hp).elim
  case h_5 heq => cases heq

theorem Vigilant.move (hv : Vigilant s) (hcount : s.shared.totalCount = s.shared.idle.length +
      slots.total s + s.shared.lost) (ht : s.tasks[i]? = some t)
    (hm : Move cfg P s.live i s.shared t e shared t' signal)
    (hg : wakesDrain s (.task i e) = true) :
    Vigilant ⟨shared, signal.deliver (s.tasks.set i t')⟩ := by
  obtain ⟨hloses, hpush, hcount', hforget⟩ := wakesDrain_task hg ht
  have hmem := List.mem_of_getElem? ht
  -- the idle list is clear after the move if it was before, or the move clears it
  have hcleared : State.cleared ⟨shared, signal.deliver (s.tasks.set i t')⟩ = true →
      s.cleared = true ∨ t = .drainIdle ∧ e = .run ∧ t' = .drainWaiters ∧ shared.idle = [] := by
    intro h
    rcases any_after ht hm (fun _ _ => rfl) (fun _ => rfl) h with hany | hmoved
    · exact .inl hany
    · rcases hasCleared_move hm hmoved with hc | hc
      · exact .inl (List.any_eq_true.2 ⟨t, hmem, hc⟩)
      · exact .inr hc
  -- no `drain` is in the queue when this one enters it
  have hnone : t = .drainPoll → s.shared.sleepers = [] := by
    rintro rfl
    refine List.eq_nil_iff_forall_not_mem.2 fun k hk => ?_
    have hk' := hv.sleepers k hk
    rw [hv.one k i _ _ hk' ht rfl rfl, ht] at hk'
    cases hk'
  constructor
  case one =>
    intro j k u v hu hv' hud hvd
    obtain ⟨u', hu', hud'⟩ := isDraining_after ht hm hu hud
    obtain ⟨v', hv'', hvd'⟩ := isDraining_after ht hm hv' hvd
    exact hv.one j k u' v' hu' hv'' hud' hvd'
  case flag => exact flag_after hv.flag ht hm
  case lost => exact (lost_move hm hloses).trans hv.lost
  case idle =>
    intro h
    rcases hcleared h with hc | ⟨-, -, -, hidle⟩
    · rcases idle_nil_move hm (hv.idle hc) with hidle | ⟨he, hp⟩
      · exact hidle
      · rw [hpush he hp] at hc
        cases hc
    · exact hidle
  -- a `warm_up` with a push that it has not counted: it had one before, or pushes now
  case counted =>
    intro h u hu
    by_contra hw
    have hany : (signal.deliver (s.tasks.set i t')).any Task.isWarmCount = true :=
      List.any_eq_true.2 ⟨u, hu, by simpa using hw⟩
    rcases any_after (p := Task.isWarmCount) ht hm (fun _ _ => rfl) (fun h => by cases h) hany with
      hany | hmoved
    · obtain ⟨v, hv', hvw⟩ := List.any_eq_true.1 hany
      rcases hcleared h with hc | ⟨hdrain, he, -, -⟩
      · rw [hv.counted hc v hv'] at hvw
        cases hvw
      · rw [hcount' he hdrain v hv'] at hvw
        cases hvw
    · obtain ⟨he, left, c, rfl⟩ := isWarmCount_move hm hmoved
      rcases hcleared h with hc | ⟨hdrain, -, -, -⟩
      · rw [hpush he (.inr ⟨left, c, rfl⟩)] at hc
        cases hc
      · cases hdrain
  case sleeper =>
    intro j hj
    rcases task_after ht hm hj with
      ⟨rfl, heq⟩ | ⟨hji, v, hv', heq | ⟨_, _, -, -, heq⟩ | ⟨-, -, heq⟩⟩
    · -- the task that moves goes to sleep
      obtain ⟨rfl, hs⟩ := drainParked_move hm heq.symm
      rw [show shared.sleepers = _ from hs, hnone rfl]
      rfl
    · -- another one sleeps, and the move does not wake it
      subst heq
      have hsleep := hv.sleeper j hv'
      rcases sleepers_move hm with ⟨hs, -⟩ | ⟨rfl, -, -⟩ | ⟨k, rest, hs, -, rfl, -⟩
      · exact hs.trans hsleep
      · exact absurd (hv.one j i _ _ hv' ht rfl rfl) hji
      · rw [hsleep] at hs
        cases hs
        simp only [Signal.deliver, List.getElem?_modify, List.getElem?_set_ne (Ne.symm hji),
          hv'] at hj
        cases hj
    · cases heq
    · cases heq
  case sleepers =>
    intro j hj
    rcases sleepers_move hm with ⟨hs, hwake⟩ | ⟨rfl, rfl, hs⟩ | ⟨k, rest, hs, hs', -, -⟩
    · -- nobody enters the queue or leaves it
      have hj' := hv.sleepers j (hs ▸ hj)
      refine task_stays (fun hji => ?_) hj' (fun _ _ h => by cases h) (.inr hwake)
      rw [hji, ht] at hj'
      exact drainParked_stays hm (Option.some_inj.1 hj')
    · -- the task that moves enters the empty queue
      rw [show shared.sleepers = _ from hs, hnone rfl] at hj
      rw [List.mem_singleton.1 hj]
      exact task_moved ht hm
    · -- the only one in the queue is woken
      have hk := hv.sleeper k (hv.sleepers k (hs ▸ List.mem_cons_self))
      rw [hs] at hk
      rw [show shared.sleepers = _ from hs', (List.cons.inj hk).2] at hj
      cases hj
  case notified =>
    intro h hz
    obtain ⟨w, hwmem, hw⟩ := List.any_eq_true.1 h
    obtain ⟨m, hwm⟩ := List.mem_iff_getElem?.1 hwmem
    obtain ⟨w', hwm', hwd⟩ := isDraining_after ht hm hwm (isDraining_of_awaits hw)
    have hs : s.awaits = true := by
      rcases any_after (p := Task.awaits) ht hm (fun _ _ => rfl) (fun h => by cases h) h with
        hany | hmoved
      · exact hany
      · rcases awaits_move hm hmoved with ⟨rfl, -, -⟩ | hne
        · exact List.any_eq_true.2 ⟨_, hmem, rfl⟩
        · exact absurd hz hne
    obtain ⟨v, hvmem, hva⟩ := List.any_eq_true.1 hs
    have hdraining := hv.flag v hvmem (hasFlagged_of_awaits hva)
    have hclear : s.cleared = true := List.any_eq_true.2 ⟨v, hvmem, hasCleared_of_awaits hva⟩
    -- the `drain` that waits after the move is not woken by it
    have hwoken : ∀ k, signal ≠ .wake k := by
      rintro k rfl
      rcases sleepers_move hm with ⟨-, hwake⟩ | ⟨rfl, rfl, -⟩ | ⟨k', rest, hs', -, hk, old, rfl⟩
      · exact hwake k rfl
      · cases hm
      · cases hk
        have hk := hv.sleepers k (hs' ▸ List.mem_cons_self)
        have hki : k ≠ i := by
          rintro rfl
          rw [ht] at hk
          cases hk
        rw [hv.one m k _ _ hwm' hk hwd rfl] at hwm
        simp only [Signal.deliver, List.getElem?_modify, List.getElem?_set_ne (Ne.symm hki),
          hk] at hwm
        cases hwm
        cases hw
    -- the counter was zero already, or this move brings it there
    by_cases hzero : s.shared.totalCount = 0
    · rcases hv.notified hs hzero with hp | ⟨u, humem, hu⟩
      · rcases permit_move hm hp with hp | ⟨rfl, rfl⟩
        · exact .inl hp
        · rw [hv.one m i _ _ hwm' ht hwd rfl, task_moved ht hm] at hwm
          cases hwm
          cases hw
      · obtain ⟨k, hk⟩ := List.mem_iff_getElem?.1 humem
        -- whoever was to notify has moved, or is still about to
        by_cases hki : k = i
        · subst hki
          rw [ht] at hk
          cases hk
          rcases notifies_move hm hu hdraining hzero with hn | hp | ⟨k, hk⟩ | hne
          · exact .inr ⟨t', List.mem_of_getElem? (task_moved ht hm), hn⟩
          · exact .inl hp
          · exact absurd hk (hwoken k)
          · exact absurd hz hne
        · refine .inr ⟨u, List.mem_of_getElem? (task_stays hki hk ?_ (.inr hwoken)), hu⟩
          rintro slot elapsed rfl
          cases hu
    · rcases totalCount_move hm hz hzero with hn | hidle | rfl | hwarm | hneg | ⟨-, hone, hf⟩
      · exact .inr ⟨t', List.mem_of_getElem? (task_moved ht hm), hn⟩
      · exact absurd (hv.idle hclear) hidle
      · obtain ⟨n, hn⟩ := List.mem_iff_getElem?.1 hvmem
        rw [hv.one n i _ _ hn ht (isDraining_of_awaits hva) rfl, ht] at hn
        cases hn
        cases hva
      · rw [hv.counted hclear t hmem] at hwarm
        cases hwarm
      · have hslots : 0 ≤ slots.total s :=
          tally_nonneg fun u hu => slots_nonneg (hv.counted hclear u hu)
        rw [hv.idle hclear, hv.lost] at hcount
        simp only [List.length_nil] at hcount
        omega
      · exact absurd hone (hforget hf hs)

/-- A new task is no `drain`, or the only one under way, and has not begun. -/
theorem Vigilant.spawn (hv : Vigilant s) (hflag : t.hasFlagged = false)
    (hwarm : t.isWarmCount = false)
    (hd : t.isDraining = true → ∀ u ∈ s.tasks, u.isDraining = false) : Vigilant (s.spawn t) := by
  have hcleared : (s.spawn t).cleared = true → s.cleared = true := by
    intro h
    simp only [State.cleared, State.spawn, List.any_append, List.any_cons, List.any_nil,
      Bool.or_false, Bool.or_eq_true] at h
    rcases h with h | h
    · exact h
    · rw [hasFlagged_of_hasCleared h] at hflag
      cases hflag
  constructor
  case one =>
    intro j k u v hu hv' hud hvd
    rcases spawn_cases hu with hold | ⟨hj, rfl⟩ <;> rcases spawn_cases hv' with hold' | ⟨hk, rfl⟩
    · exact hv.one j k u v hold hold' hud hvd
    · rw [hd hvd u (List.mem_of_getElem? hold)] at hud
      cases hud
    · rw [hd hud v (List.mem_of_getElem? hold')] at hvd
      cases hvd
    · rw [hj, hk]
  case flag => exact flag_spawn hv.flag hflag
  case lost => exact hv.lost
  case idle => exact fun h => hv.idle (hcleared h)
  case counted =>
    intro h u hu
    rcases List.mem_append.1 hu with hu | hu
    · exact hv.counted (hcleared h) u hu
    · rw [List.mem_singleton.1 hu, hwarm]
  case sleeper =>
    intro j hj
    rcases spawn_cases hj with hj | ⟨-, rfl⟩
    · exact hv.sleeper j hj
    · cases hflag
  case sleepers =>
    intro j hj
    have hj' := hv.sleepers j hj
    rw [State.spawn, List.getElem?_append_left (List.getElem?_eq_some_iff.1 hj').1, hj']
  case notified =>
    intro h hz
    have hs : s.awaits = true := by
      simp only [State.awaits, State.spawn, List.any_append, List.any_cons, List.any_nil,
        Bool.or_false, Bool.or_eq_true] at h
      rcases h with h | h
      · exact h
      · rw [hasFlagged_of_awaits h] at hflag
        cases hflag
    rcases hv.notified hs hz with hp | ⟨u, hu, hn⟩
    · exact .inl hp
    · exact .inr ⟨u, List.mem_append_left _ hu, hn⟩

/-- The idle connections change by themselves only while no `drain` has cleared the idle list. -/
theorem Vigilant.setIdle (hv : Vigilant s) {k : ℕ} {x y : IdleConn C}
    (hx : s.shared.idle[k]? = some x) : Vigilant (s.setIdle (s.shared.idle.set k y)) where
  one := hv.one
  flag := hv.flag
  lost := hv.lost
  idle h := by
    rw [hv.idle h] at hx
    cases hx
  counted := hv.counted
  sleeper := hv.sleeper
  sleepers := hv.sleepers
  notified := hv.notified

theorem Vigilant.step (hv : Vigilant s) (hcount : s.shared.totalCount = s.shared.idle.length +
      slots.total s + s.shared.lost) (hg : wakesDrain s l = true)
    (h : (system cfg P).step s l = some s') : Vigilant s' := by
  cases step_cases h with
  | get => exact hv.spawn rfl rfl nofun
  | warmUp => exact hv.spawn rfl rfl nofun
  | drain => exact hv.spawn rfl rfl fun _ => by simpa [wakesDrain] using hg
  | move ht hm => exact hv.move hcount ht hm hg
  | expire hx => exact hv.setIdle hx
  | drift hx _ => exact hv.setIdle hx

/-- **A drain is never wedged**: in a run whose steps do not leave the `drain` behind, no state has
a `drain` that waits for a notification nobody is to send. -/
theorem drain_never_wedged (h₀ : s₀.Fresh cfg P)
    (h : ((system cfg P).guard fun s l => wakesDrain s l = true).Reachable s₀ s) : ¬ s.Wedged := by
  have hinv : (system cfg P).Reachable s₀ s ∧ Vigilant s := by
    refine h.guard_invariant (I := fun s => (system cfg P).Reachable s₀ s ∧ Vigilant s)
      ⟨.refl _, ?_⟩ fun s l s' hs hg hst =>
        ⟨hs.1.tail hst, hs.2.step (totalCount_eq h₀ hs.1) hg hst⟩
    obtain ⟨conns, rfl, -, -⟩ := h₀
    have hnew : ∀ (j : ℕ) (t : Task C), (State.new conns).tasks[j]? = some t → t = .sleeping :=
      fun j t ht => List.mem_singleton.1 (show t ∈ [Task.sleeping] from List.mem_of_getElem? ht)
    exact
      { one := fun j k t u ht _ hd _ => by rw [hnew j t ht] at hd; cases hd
        flag := fun t ht hf => by rw [List.mem_singleton.1 ht] at hf; cases hf
        lost := rfl
        idle := nofun
        counted := nofun
        sleeper := fun j hj => by cases hnew j _ hj
        sleepers := nofun
        notified := nofun }
  obtain ⟨hreach, hv⟩ := hinv
  intro hw
  have hawaits : s.awaits = true := List.any_eq_true.2 ⟨_, hw.waiting, rfl⟩
  have hclear : s.cleared = true := List.any_eq_true.2 ⟨_, hw.waiting, rfl⟩
  -- nobody has a slot, so that the counter is zero
  have hzero : s.shared.totalCount = 0 := by
    have hslots : slots.total s = 0 := tally_eq_zero fun t ht => slots_of_not_busy (hw.quiet t ht)
    rw [totalCount_eq h₀ hreach, hslots, hv.idle hclear, hv.lost]
    rfl
  rcases hv.notified hawaits hzero with hp | ⟨t, ht, hn⟩
  · rw [hw.nothingStored] at hp
    cases hp
  · have hbusy := hw.quiet t ht
    rw [busy_of_notifies hn] at hbusy
    cases hbusy

end

theorem drain_never_wedged_notifying :
    ∃ s, ((system ⟨1, 1, true, true⟩ steady).guard fun s l => wakesDrain s l = true).Reachable
        (.new [()]) s ∧
      s.awaits = true ∧ s.shared.totalCount = 0 ∧ ¬ s.Wedged := by
  obtain ⟨s, h, hs⟩ := LTS.reachable_of_test
    (A := (system ⟨1, 1, true, true⟩ steady).guard fun s l => wakesDrain s l = true)
    (s := .new [()])
    (r := .get :: runs 1 4 ++ .drain :: runs 2 5 ++ .task 1 .drop :: runs 1 5)
    (p := fun s => decide (s.awaits = true ∧ s.shared.totalCount = 0)) (by decide)
  obtain ⟨ha, hz⟩ := of_decide_eq_true hs
  exact ⟨s, h, ha, hz, drain_never_wedged ⟨[()], rfl, by decide, by decide⟩ h⟩

/-- `take` brings the counter to zero and notifies nobody; and a connection that is returned just as
the drain begins is pushed onto the idle list after it has been cleared. -/
theorem drain_wedged :
    (∃ s, (system ⟨1, 1, true, true⟩ steady).Reachable (.new [()]) s ∧ s.Wedged ∧
      s.shared.totalCount = 0) ∧
    ∃ s, (system ⟨1, 1, true, true⟩ steady).Reachable (.new [()]) s ∧ s.Wedged ∧
      s.shared.idle.length = 1 := by
  constructor
  · obtain ⟨s, h, hs⟩ := LTS.reachable_of_test (A := system ⟨1, 1, true, true⟩ steady)
      (s := .new [()])
      (r := .get :: runs 1 4 ++ .drain :: runs 2 5 ++ .task 1 .take :: runs 1 1)
      (p := fun s => decide ((.drainParked ∈ s.tasks ∧ s.shared.permit = false ∧
        ∀ t ∈ s.tasks, t.busy = false) ∧ s.shared.totalCount = 0)) (by decide)
    obtain ⟨⟨hw, hp, hq⟩, hz⟩ := of_decide_eq_true hs
    exact ⟨s, h, ⟨hw, hp, hq⟩, hz⟩
  · obtain ⟨s, h, hs⟩ := LTS.reachable_of_test (A := system ⟨1, 1, true, true⟩ steady)
      (s := .new [()])
      (r := .get :: runs 1 4 ++ .task 1 .drop :: runs 1 4 ++ .drain :: runs 2 5 ++ runs 1 2)
      (p := fun s => decide ((.drainParked ∈ s.tasks ∧ s.shared.permit = false ∧
        ∀ t ∈ s.tasks, t.busy = false) ∧ s.shared.idle.length = 1)) (by decide)
    obtain ⟨⟨hw, hp, hq⟩, hl⟩ := of_decide_eq_true hs
    exact ⟨s, h, ⟨hw, hp, hq⟩, hl⟩

end Resolute.Pool
