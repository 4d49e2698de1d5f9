import Resolute.Pool.Moves

/-!
# The hooks of the pool

Beside `total_count` the pool counts the connections that it has destroyed, and it calls the hook
`on_destroy` for each; it calls `after_release` when a dropped guard has been dealt with.  The pool
runs here with a `Ledger` of these calls.  A hook that follows an access to the shared memory
belongs to its step.

A dropped guard has its call of `after_release`, or its task owes the call (`balanced_step`), and a
task on the way to the call waits for nothing but `reset`, `connect` and the lock of the idle list
(`owes_progress`).  `on_destroy` is
missed where the maintenance task evicts a connection.  `hooks_match_iff` says in which runs the
hooks match the accounting.
-/

namespace Resolute.Pool

variable {C A : Type}

structure Ledger where
  totalDestroyed : ℕ
  onDestroy : ℕ
  /-- The tasks whose guards were dropped. -/
  dropped : List ℕ
  /-- The tasks that have called `after_release`. -/
  released : List ℕ
  deriving DecidableEq, Repr

/-- `ConnPool::new`. -/
def Ledger.new : Ledger := ⟨0, 0, [], []⟩

section

variable (cfg : Config) (P : Poolable C A)

/-- What the next step of a task adds to `total_destroyed`. -/
def destroys (s : Shared C) : Task C → ℕ
  | .getScan => match s.idle with
    | [] => 0
    | e :: _ => if usable cfg P e then 0 else 1
  | .destroying _ _ => 1
  | .evicting => s.idle.length - (s.idle.filter fun e => !e.expired).length
  | .drainIdle => s.idle.length
  | _ => 0

/-- How often the next step of a task calls `on_destroy`. -/
def callsOnDestroy (s : Shared C) : Task C → ℕ
  | .getScan => match s.idle with
    | [] => 0
    | e :: _ => if usable cfg P e then 0 else 1
  | .destroying _ _ => 1
  | .drainIdle => s.idle.length
  | _ => 0

/-- A step from one stage to another calls `after_release`. -/
def callsAfterRelease : Task C → Task C → Bool
  -- destroyed: after try_provision_for_waiter, before maybe_notify_drain
  | _, .notifyStart _ => true
  -- sent to a waiter, or pushed
  | .handing .returned _, .done => true
  | .parking .returned _, .done => true
  | _, _ => false

/-- The ledger after a step of the task `i` from `t` to `t'`. -/
def Ledger.after (led : Ledger) (s : Shared C) (i : ℕ) (t t' : Task C) : Event C A → Ledger
  | .run =>
    { led with
      totalDestroyed := led.totalDestroyed + destroys cfg P s t
      onDestroy := led.onDestroy + callsOnDestroy cfg P s t
      released := if callsAfterRelease t t' then i :: led.released else led.released }
  | .drop => { led with dropped := i :: led.dropped }
  | _ => led

/-- The ledger after a step. -/
def Ledger.record (led : Ledger) (s s' : State C) : Label C A → Ledger
  | .task i e => match s.tasks[i]?, s'.tasks[i]? with
    | some t, some t' => led.after cfg P s.shared i t t' e
    | _, _ => led
  | _ => led

/-- The pool with its ledger. -/
def hooked : LTS (State C × Ledger) (Label C A) where
  step x l := (step cfg P x.1 l).map fun s' => (s', x.2.record cfg P x.1 s' l)

end

/-! ### What is promised -/

/-- The task has dropped its guard, and `after_release` is still to be called. -/
def Task.owes : Task C → Bool
  | .returning _ | .checking _ | .resetting _ _ | .resetDone _ | .destroying _ _
  | .handing .returned _ | .handing (.provision _) _ | .parking .returned _
  | .parking (.provision _) _ | .provisionStart _ | .provisionLook _
  | .creating (.provision _) _ => true
  | _ => false

/-- The hooks match the accounting: `on_destroy` has been called as often as `total_destroyed` says;
and a task has called `after_release` as often as it has dropped its guard, once at most, unless it
is on the way to the call. -/
structure Matches (x : State C × Ledger) : Prop where
  destroyed : x.2.onDestroy = x.2.totalDestroyed
  released : ∀ i t, x.1.tasks[i]? = some t →
    x.2.dropped.count i ≤ 1 ∧ x.2.dropped.count i = x.2.released.count i + t.owes.toNat

/-- The maintenance task evicts a connection. -/
def Task.evicts (s : Shared C) (t : Task C) : Event C A → Bool
  | .run => match t with
    | .evicting => s.idle.any (·.expired)
    | _ => false
  | _ => false

/-- The step is not one in which the maintenance task evicts a connection. -/
def evictsNone (x : State C × Ledger) (l : Label C A) : Prop :=
  l.on x.1 (Task.evicts x.1.shared) = false

instance (x : State C × Ledger) (l : Label C A) : Decidable (evictsNone x l) :=
  inferInstanceAs (Decidable (_ = _))

/-! ### The way to `after_release` -/

def Event.isRun : Event C A → Bool
  | .run => true
  | _ => false

def Event.isDrop : Event C A → Bool
  | .drop => true
  | _ => false

/-- The task can still have a guard to drop. -/
def Task.before : Task C → Bool
  | .notifyStart _ | .notifyLoad _ | .notifyOne _ | .done => false
  | t => !t.owes

section

variable {cfg : Config} {P : Poolable C A} {live : ℕ → Bool} {i : ℕ} {s shared : Shared C}
  {e : Event C A} {t t' : Task C} {signal : Signal C}

/-- **What one step does to the debt**: a guard that is dropped owes a call of `after_release`, and
the call pays for it. -/
theorem owes_move (hm : Move cfg P live i s t e shared t' signal) :
    t'.owes.toNat + (e.isRun && callsAfterRelease t t').toNat = t.owes.toNat + e.isDrop.toNat := by
  cases hm with
  | @undo who | @created who | @createFailed who | @reserve who | @overshoot who
  | @handNone who => cases who <;> rfl
  | @hand who | @park who =>
    cases who with
    | refill left => cases left <;> rfl
    | _ => rfl
  | @destroy provision => cases provision <;> rfl
  | @warmStart _ n => cases n <;> rfl
  | @warmCount left => cases left <;> rfl
  | @refillStart _ n => cases n <;> rfl
  | cancel h => rcases h with rfl | rfl | rfl | ⟨_, rfl⟩ | ⟨_, rfl⟩ | ⟨_, _, rfl⟩ <;> rfl
  | drift =>
    cases t with
    | parked slot _ => cases slot <;> rfl
    | handing who _ => cases who <;> rfl
    | parking who _ => cases who <;> rfl
    | _ => rfl
  | _ => rfl

/-- A task that has dropped its guard never has another one. -/
theorem before_move (hm : Move cfg P live i s t e shared t' signal) (h : t'.before = true) :
    t.before = true ∧ e.isDrop = false := by
  cases hm with
  | @undo who | @created who | @createFailed who | @reserve who | @overshoot who | @hand who
  | @handNone who | @park who => cases who <;> first | exact ⟨rfl, rfl⟩ | cases h
  | @destroy provision => cases provision <;> cases h
  | cancel h' => rcases h' with rfl | rfl | rfl | ⟨_, rfl⟩ | ⟨_, rfl⟩ | ⟨_, _, rfl⟩ <;> cases h
  | drift ht =>
    refine ⟨?_, rfl⟩
    cases t with
    | parked slot _ => cases slot <;> rfl
    | handing who _ => cases who <;> first | rfl | cases h
    | parking who _ => cases who <;> first | rfl | cases h
    | _ => first | rfl | cases h | cases ht
  | _ => first | exact ⟨rfl, rfl⟩ | cases h

theorem before_of_drop (hm : Move cfg P live i s t e shared t' signal) (h : e.isDrop = true) :
    t.before = true := by
  cases hm <;> first | rfl | cases h

/-- A task on the way to `after_release` waits for nothing but the end of `reset`, of `connect`, and
the lock of the idle list. -/
theorem owes_progress (h : t.owes = true) :
    (advance cfg P live i s t).isSome = true ∨
      (∃ c, t = .resetting true c ∧ P.pollReset c = none) ∨
      (∃ old, t = .creating (.provision old) .connect) ∨
      s.idleLocked = true := by
  cases t with
  | resetting started c =>
    cases started with
    | false => cases hreset : P.startReset c <;> simp [advance, go, hreset]
    | true => cases hreset : P.pollReset c <;> simp [advance, go, hreset]
  | handing who c => cases hpop : popLive live s.waiters <;> simp [advance, go, hpop]
  | parking who c => cases hlocked : s.idleLocked <;> simp [advance, go, hlocked]
  | creating who stage => cases who with
    | provision => cases stage <;> simp [advance, go]
    | _ => cases h
  | returning | checking | resetDone | destroying | provisionStart | provisionLook =>
    exact .inl rfl
  | _ => cases h

/-- The steps in which `total_destroyed` grows as `on_destroy` is called. -/
theorem destroys_eq_iff (s : Shared C) (t : Task C) (e : Event C A) :
    (e.isRun = true → destroys cfg P s t = callsOnDestroy cfg P s t) ↔ t.evicts s e = false := by
  cases e with
  | run =>
    cases t with
    | evicting =>
      have hfilter : (s.idle.filter fun e => !e.expired).length ≤ s.idle.length :=
        List.length_filter_le _ _
      have hall := List.length_filter_eq_length_iff (l := s.idle) (p := fun e => !e.expired)
      simp only [Event.isRun, destroys, callsOnDestroy, Task.evicts, true_imp_iff,
        List.any_eq_false]
      rw [show s.idle.length - (s.idle.filter fun e => !e.expired).length = 0 ↔
        (s.idle.filter fun e => !e.expired).length = s.idle.length by omega, hall]
      simp
    | _ => exact iff_of_true (fun _ => rfl) rfl
  | _ => exact iff_of_true (fun h => by cases h) rfl

end

section

variable {cfg : Config} {P : Poolable C A} {s s' s₀ : State C} {l : Label C A} {led : Ledger}

/-- Every task has called `after_release` for the guard that it has dropped, or owes the call. -/
structure Balanced (s : State C) (led : Ledger) : Prop where
  absent : ∀ i, s.tasks[i]? = none → led.dropped.count i = 0 ∧ led.released.count i = 0
  present : ∀ i t, s.tasks[i]? = some t →
    led.dropped.count i ≤ 1 ∧ led.dropped.count i = led.released.count i + t.owes.toNat ∧
      (t.before = true → led.dropped.count i = 0)

theorem balanced_new (conns : List C) : Balanced (State.new conns) Ledger.new := by
  constructor
  · intro i _
    exact ⟨rfl, rfl⟩
  · intro i t ht
    obtain rfl : t = .sleeping := by
      cases i with
      | zero => exact (Option.some_inj.1 ht).symm
      | succ i => cases ht
    exact ⟨Nat.zero_le _, rfl, fun _ => rfl⟩

theorem count_dropped_after (led : Ledger) (s : Shared C) (i k : ℕ) (t t' : Task C)
    (e : Event C A) : (led.after cfg P s i t t' e).dropped.count k =
      led.dropped.count k + if i = k then e.isDrop.toNat else 0 := by
  cases e with
  | drop => simp [Ledger.after, Event.isDrop, List.count_cons]
  | _ => simp [Ledger.after, Event.isDrop]

theorem count_released_after (led : Ledger) (s : Shared C) (i k : ℕ) (t t' : Task C)
    (e : Event C A) : (led.after cfg P s i t t' e).released.count k =
      led.released.count k +
        if i = k then (e.isRun && callsAfterRelease t t').toNat else 0 := by
  cases e with
  | run =>
    cases h : callsAfterRelease t t' with
    | true => simp [Ledger.after, Event.isRun, h, List.count_cons]
    | false => simp [Ledger.after, Event.isRun, h]
  | _ => simp [Ledger.after, Event.isRun]

theorem balanced_spawn {t : Task C} (h : Balanced s led) (howes : t.owes = false) :
    Balanced (s.spawn t) led := by
  constructor
  · intro i hi
    refine h.absent i (List.getElem?_eq_none_iff.2 ?_)
    have hlength := List.getElem?_eq_none_iff.1 hi
    rw [State.spawn, List.length_append] at hlength
    exact Nat.le_of_add_right_le hlength
  · intro i u hu
    rcases spawn_cases hu with hu | ⟨rfl, rfl⟩
    · exact h.present i u hu
    · obtain ⟨hdropped, hreleased⟩ := h.absent _ (List.getElem?_eq_none_iff.2 (Nat.le_refl _))
      rw [hdropped, hreleased, howes]
      exact ⟨Nat.zero_le _, rfl, fun _ => rfl⟩

/-- A step keeps the balance. -/
theorem balanced_step (h : Balanced s led) (hstep : step cfg P s l = some s') :
    Balanced s' (led.record cfg P s s' l) := by
  cases step_cases hstep with
  | get | warmUp | drain => exact balanced_spawn h rfl
  | expire | drift => exact ⟨h.absent, h.present⟩
  | @move i e t t' shared signal ht hm =>
    have hrecord : led.record cfg P s ⟨shared, signal.deliver (s.tasks.set i t')⟩ (.task i e) =
        led.after cfg P s.shared i t t' e := by
      simp only [Ledger.record, ht, task_moved ht hm]
    rw [hrecord]
    constructor
    · intro k hk
      have hlength : (signal.deliver (s.tasks.set i t')).length = s.tasks.length := by
        cases signal <;> simp [Signal.deliver]
      have hk' : s.tasks[k]? = none := by
        rw [List.getElem?_eq_none_iff] at hk ⊢
        rwa [hlength] at hk
      have hne : i ≠ k := by
        rintro rfl
        rw [ht] at hk'
        cases hk'
      obtain ⟨hdropped, hreleased⟩ := h.absent k hk'
      rw [count_dropped_after, count_released_after, if_neg hne, if_neg hne]
      exact ⟨hdropped, hreleased⟩
    · intro k u hu
      rw [count_dropped_after, count_released_after]
      rcases task_after ht hm hu with ⟨rfl, rfl⟩ | ⟨hne, v, hv, hcases⟩
      · obtain ⟨hone, hbalance, hbefore⟩ := h.present k t ht
        have howes := owes_move hm
        rw [if_pos rfl, if_pos rfl]
        refine ⟨?_, by omega, fun hu => ?_⟩
        · cases hdrop : e.isDrop with
          | true =>
            rw [hbefore (before_of_drop hm hdrop)]
            exact Nat.le_refl 1
          | false => exact hone
        · obtain ⟨ht, hdrop⟩ := before_move hm hu
          rw [hbefore ht, hdrop]
          rfl
      · obtain ⟨hone, hbalance, hbefore⟩ := h.present k v hv
        rw [if_neg (Ne.symm hne), if_neg (Ne.symm hne)]
        rcases hcases with rfl | ⟨c, elapsed, -, rfl, rfl⟩ | ⟨-, rfl, rfl⟩
        · exact ⟨hone, hbalance, hbefore⟩
        · exact ⟨hone, hbalance, fun _ => hbefore rfl⟩
        · exact ⟨hone, hbalance, fun _ => hbefore rfl⟩

/-- **The hooks and one step.**  A step keeps `on_destroy` level with `total_destroyed` exactly if
it evicts no connection. -/
theorem level_step_iff (h : led.onDestroy = led.totalDestroyed) (hstep : step cfg P s l = some s') :
    (led.record cfg P s s' l).onDestroy = (led.record cfg P s s' l).totalDestroyed ↔
      evictsNone (s, led) l := by
  cases step_cases hstep with
  | get | warmUp | drain | expire | drift => exact iff_of_true h rfl
  | @move i e t t' shared signal ht hm =>
    have hrecord : led.record cfg P s ⟨shared, signal.deliver (s.tasks.set i t')⟩ (.task i e) =
        led.after cfg P s.shared i t t' e := by
      simp only [Ledger.record, ht, task_moved ht hm]
    rw [hrecord, evictsNone, Label.on, ht, Option.any_some,
      ← @destroys_eq_iff _ _ cfg P s.shared t e]
    cases e with
    | run => simp only [Ledger.after, Event.isRun, true_imp_iff]; omega
    | _ => exact iff_of_true h fun h => by cases h

/-- **When the hooks match the accounting.**  They do in every state of a run exactly if the
maintenance task evicts no connection in it; what `after_release` promises holds in every run. -/
theorem hooks_match_iff (h₀ : s₀.Fresh cfg P) {ls : List (Label C A)} {x : State C × Ledger}
    (h : (hooked cfg P).exec (s₀, Ledger.new) ls = some x) :
    (hooked cfg P).Along Matches (s₀, Ledger.new) ls ↔
      ((hooked cfg P).guard evictsNone).exec (s₀, Ledger.new) ls = some x := by
  have hmatches : ∀ {s : State C} {led : Ledger}, Balanced s led →
      (Matches (s, led) ↔ led.onDestroy = led.totalDestroyed) := fun hb =>
    ⟨fun hm => hm.destroyed, fun hd => ⟨hd, fun i t ht => ⟨(hb.present i t ht).1,
      (hb.present i t ht).2.1⟩⟩⟩
  obtain ⟨conns, rfl, -, -⟩ := h₀
  refine LTS.along_iff_exec_guard (R := fun x => Balanced x.1 x.2) ?_ ?_ (balanced_new conns)
    ((hmatches (balanced_new conns)).2 rfl) h
  · rintro ⟨s, led⟩ l x' hb hstep
    obtain ⟨s', hs', rfl⟩ := Option.map_eq_some_iff.1 hstep
    exact balanced_step hb hs'
  · rintro ⟨s, led⟩ l x' hb hm hstep
    obtain ⟨s', hs', rfl⟩ := Option.map_eq_some_iff.1 hstep
    rw [hmatches (balanced_step hb hs')]
    exact level_step_iff hm.destroyed hs'

end

/-- The run of a guard that is dropped, with a connection that is always clean. -/
theorem hooks_match_drop :
    ∃ x, (hooked ⟨1, 2, true, true⟩ steady).exec (.new [()], Ledger.new)
        (.get :: runs 1 4 ++ .task 1 .drop :: runs 1 6) = some x ∧
      x.2.dropped = [1] ∧ x.2.released = [1] ∧
      ((hooked ⟨1, 2, true, true⟩ steady).Along Matches (.new [()], Ledger.new)
          (.get :: runs 1 4 ++ .task 1 .drop :: runs 1 6) ↔
        ((hooked ⟨1, 2, true, true⟩ steady).guard evictsNone).exec (.new [()], Ledger.new)
          (.get :: runs 1 4 ++ .task 1 .drop :: runs 1 6) = some x) :=
  ⟨_, rfl, rfl, rfl, hooks_match_iff ⟨[()], rfl, by decide, by decide⟩ rfl⟩

/-- The deadline of an idle connection passes, and the maintenance task evicts it. -/
def evictOne : List (Label Unit Empty) := [.expire 0, .task 0 .tick, .task 0 .run, .task 0 .run]

/-- The eviction counts in `total_destroyed`, and `on_destroy` is not called. -/
theorem hooks_miss_eviction :
    ∃ x, (hooked ⟨1, 2, true, true⟩ steady).exec (.new [()], Ledger.new) evictOne = some x ∧
      x.2.totalDestroyed = 1 ∧ x.2.onDestroy = 0 ∧
      ¬ (hooked ⟨1, 2, true, true⟩ steady).Along Matches (.new [()], Ledger.new) evictOne := by
  refine ⟨_, rfl, rfl, rfl, fun halong => ?_⟩
  have hlast := (((halong.2 _ rfl).2 _ rfl).2 _ rfl).2 _ rfl
  cases hlast.destroyed

end Resolute.Pool
