import Resolute.Pool.Basic

/-!
# What a task of the pool can do

The moves of `react`, one by one, with the conditions under which they are made (`Move`); `react`
makes no others (`move_of_react`).  Every invariant of the pool is proved by a case analysis of
them: what a step of the pool can be is `step_cases`, and how the sum of the weights of all tasks
changes with a move is `tally_move`.
-/

namespace Resolute.Pool

variable {C A : Type}

section

variable (cfg : Config) (P : Poolable C A) (live : ℕ → Bool) (i : ℕ)

/-- `Move cfg P live i s t e s' t' signal` : on the event `e`, the task `i` goes from `t` to `t'`,
the shared memory from `s` to `s'`. -/
inductive Move : Shared C → Task C → Event C A → Shared C → Task C → Signal C → Prop
  -- get
  | getRefused {s} (h : s.draining = true) : Move s .getStart .run s .done .none
  | getAdmitted {s} (h : s.draining = false) : Move s .getStart .run s .getLock .none
  | getLock {s} (h : s.idleLocked = false) :
    Move s .getLock .run { s with idleLocked := true } .getScan .none
  | scanEmpty {s} (h : s.idle = []) :
    Move s .getScan .run { s with idleLocked := false } .getLoad .none
  | scanUsable {s e rest} (h : s.idle = e :: rest) (hu : usable cfg P e = true) :
    Move s .getScan .run { s with idle := rest, idleLocked := false } (.checkout e.conn) .none
  | scanDiscard {s e rest} (h : s.idle = e :: rest) (hu : usable cfg P e = false) :
    Move s .getScan .run { s with idle := rest, totalCount := s.totalCount - 1 }
      (.getDiscard e.conn) .none
  | scanNext {s old} : Move s (.getDiscard old) .run s .getScan .none
  | checkout {s c} :
    Move s (.checkout c) .run { s with inUseCount := s.inUseCount + 1 } (.held c) .none
  | loadRoom {s} (h : load s.totalCount < cfg.maxSize) :
    Move s .getLoad .run s (.creating .get .reserve) .none
  | loadFull {s} (h : cfg.maxSize ≤ load s.totalCount) : Move s .getLoad .run s .getEnqueue .none
  | enqueue {s} :
    Move s .getEnqueue .run
      { s with waiters := s.waiters ++ [i], waiterCount := s.waiterCount + 1 }
      (.parked none false) .none
  | receive {s c} : Move s (.parked (some c) false) .run s (.served c) .none
  | closed {s} (h : i ∉ s.waiters) : Move s (.parked none false) .run s .leaving .none
  | dropReceiver {s slot} :
    Move s (.parked slot true) .run { s with lost := s.lost + slot.toList.length } .timedOut .none
  | served {s c} :
    Move s (.served c) .run { s with inUseCount := s.inUseCount + 1 } (.counted c) .none
  | counted {s c} :
    Move s (.counted c) .run { s with waiterCount := s.waiterCount - 1 } (.held c) .none
  | retain {s} :
    Move s .timedOut .run { s with waiters := s.waiters.filter live } .leaving .none
  | leave {s} : Move s .leaving .run { s with waiterCount := s.waiterCount - 1 } .done .none
  -- create_and_track
  | reserve {s who} (h : load s.totalCount < cfg.maxSize) :
    Move s (.creating who .reserve) .run { s with totalCount := s.totalCount + 1 }
      (.creating who .connect) .none
  | overshoot {s who} (h : cfg.maxSize ≤ load s.totalCount) :
    Move s (.creating who .reserve) .run { s with totalCount := s.totalCount + 1 }
      (.creating who .undo) .none
  | undo {s who stage} (h : stage = .undo ∨ stage = .failed) :
    Move s (.creating who stage) .run { s with totalCount := s.totalCount - 1 } who.refused .none
  | created {s who c} (h : P.connects c = true) :
    Move s (.creating who .connect) (.connected c) s (who.created c) .none
  | createFailed {s who} :
    Move s (.creating who .connect) .connectFailed s (.creating who .failed) .none
  -- the guard and its return
  | take {s c} :
    Move s (.held c) .take { s with inUseCount := s.inUseCount - 1 } .taking .none
  | taken {s} : Move s .taking .run { s with totalCount := s.totalCount - 1 } .done .none
  | drop {s c} : Move s (.held c) .drop s (.returning c) .none
  | returning {s c} :
    Move s (.returning c) .run { s with inUseCount := s.inUseCount - 1 } (.checking c) .none
  | checkBad {s c} (h : P.hasPendingData c = true) :
    Move s (.checking c) .run s (.destroying true c) .none
  | checkGood {s c} (h : P.hasPendingData c = false) :
    Move s (.checking c) .run s (.resetting false c) .none
  | resetOk {s b c c'} (h : b = false ∧ P.startReset c = .done true c' ∨
      b = true ∧ P.pollReset c = some (true, c')) :
    Move s (.resetting b c) .run s (.resetDone c') .none
  | resetFailed {s b c c'} (h : b = false ∧ P.startReset c = .done false c' ∨
      b = true ∧ P.pollReset c = some (false, c')) :
    Move s (.resetting b c) .run s (.destroying true c') .none
  | resetWaits {s c c'} (h : P.startReset c = .waiting c') :
    Move s (.resetting false c) .run s (.resetting true c') .none
  | returnDraining {s c} (h : s.draining = true) :
    Move s (.resetDone c) .run s (.destroying false c) .none
  | returnClean {s c} (h : s.draining = false) :
    Move s (.resetDone c) .run s (.handing .returned c) .none
  | destroy {s provision old} :
    Move s (.destroying provision old) .run { s with totalCount := s.totalCount - 1 }
      (if provision then .provisionStart old else .notifyStart old) .none
  | hand {s who c j rest} (h : popLive live s.waiters = some (j, rest)) :
    Move s (.handing who c) .run { s with waiters := rest } who.over (.send j c)
  | handNone {s who c} (h : popLive live s.waiters = none) :
    Move s (.handing who c) .run { s with waiters := [] } (.parking who c) .none
  | park {s who c} (h : s.idleLocked = false) :
    Move s (.parking who c) .run { s with idle := s.idle ++ [⟨c, false⟩] } who.over .none
  -- try_provision_for_waiter and maybe_notify_drain
  | provisionDraining {s old} (h : s.draining = true) :
    Move s (.provisionStart old) .run s (.notifyStart old) .none
  | provisionStart {s old} (h : s.draining = false) :
    Move s (.provisionStart old) .run s (.provisionLook old) .none
  | provisionNone {s old} (h : s.waiters = []) :
    Move s (.provisionLook old) .run s (.notifyStart old) .none
  | provisionSome {s old} (h : s.waiters ≠ []) :
    Move s (.provisionLook old) .run s (.creating (.provision old) .reserve) .none
  | notifyIdle {s old} (h : s.draining = false) : Move s (.notifyStart old) .run s .done .none
  | notifyStart {s old} (h : s.draining = true) :
    Move s (.notifyStart old) .run s (.notifyLoad old) .none
  | notifyLoad {s old} (h : load s.totalCount = 0) :
    Move s (.notifyLoad old) .run s (.notifyOne old) .none
  | notifyNot {s old} (h : load s.totalCount ≠ 0) : Move s (.notifyLoad old) .run s .done .none
  | notifyWake {s old j rest} (h : s.sleepers = j :: rest) :
    Move s (.notifyOne old) .run { s with sleepers := rest } .done (.wake j)
  | notifyStore {s old} (h : s.sleepers = []) :
    Move s (.notifyOne old) .run { s with permit := true } .done .none
  -- warm_up
  | warmStart {s target n} (h : n ≤ target) :
    Move s (.warmStart target) .run s (warmLoop n) .none
  | warmConnected {s left c} (h : P.connects c = true) :
    Move s (.warmConnect left) (.connected c) s (.warmPush left c) .none
  | warmFailed {s left} : Move s (.warmConnect left) .connectFailed s .done .none
  | warmPush {s left c} (h : s.idleLocked = false) :
    Move s (.warmPush left c) .run { s with idle := s.idle ++ [⟨c, false⟩] } (.warmCount left) .none
  | warmCount {s left} :
    Move s (.warmCount left) .run { s with totalCount := s.totalCount + 1 } (warmLoop left) .none
  -- maintenance_task
  | tick {s} : Move s .sleeping .tick s .maintain .none
  | shutdown {s} (h : s.shutdown = true) :
    Move s .sleeping .shutdown { s with shutdown := false, receiver := false } .done .none
  | maintainDraining {s} (h : s.draining = true) :
    Move s .maintain .run { s with receiver := false } .done .none
  | maintain {s} (h : s.draining = false) : Move s .maintain .run s .evicting .none
  | evict {s} (h : s.idleLocked = false) :
    Move s .evicting .run
      { s with
        idle := s.idle.filter fun e => !e.expired
        totalCount := s.totalCount - (s.idle.length - (s.idle.filter fun e => !e.expired).length) }
      .refillLoad .none
  | refillLoad {s} : Move s .refillLoad .run s (.refillStart (load s.totalCount)) .none
  | refillStart {s total n} (h : n ≤ cfg.minIdle) :
    Move s (.refillStart total) .run s (refillLoop n) .none
  -- drain
  | drainStart {s} : Move s .drainStart .run { s with draining := true } .drainIdle .none
  | drainIdle {s} (h : s.idleLocked = false) :
    Move s .drainIdle .run { s with idle := [], totalCount := s.totalCount - s.idle.length }
      .drainWaiters .none
  | drainWaiters {s} :
    Move s .drainWaiters .run
      { s with waiters := [], waiterCount := s.waiterCount - s.waiters.length } .drainCheck .none
  | drainEmpty {s} (h : load s.totalCount = 0) : Move s .drainCheck .run s .drainSend .none
  | drainWait {s} (h : load s.totalCount ≠ 0) : Move s .drainCheck .run s .drainPoll .none
  | drainNotified {s} (h : s.permit = true) :
    Move s .drainPoll .run { s with permit := false } .drainCheck .none
  | drainPark {s} (h : s.permit = false) :
    Move s .drainPoll .run { s with sleepers := s.sleepers ++ [i] } .drainParked .none
  | drainSend {s} : Move s .drainSend .run { s with shutdown := s.receiver } .drained .none
  -- a future that is dropped, and what becomes of the connections
  | timeout {s} : Move s (.parked none false) .timeout s (.parked none true) .none
  | cancel {s t} (h : t = .getStart ∨ t = .getLock ∨ t = .getEnqueue ∨ (∃ n, t = .warmStart n) ∨
      (∃ n, t = .warmConnect n) ∨ ∃ n c, t = .warmPush n c) : Move s t .cancel s .done .none
  | cancelCreating {s} :
    Move s (.creating .get .connect) .cancel { s with lost := s.lost + 1 } .done .none
  | cancelParked {s slot} :
    Move s (.parked slot false) .cancel { s with lost := s.lost + slot.toList.length }
      .leaving .none
  | cancelTimedOut {s} : Move s .timedOut .cancel s .leaving .none
  | use {s c a c'} (h : P.use c a = some c') : Move s (.held c) (.use a) s (.held c') .none
  | drift {s t c a c'} (ht : t.conn = some c) (h : P.drift c a = some c') :
    Move s t (.drift a) s (t.setConn c') .none

variable {cfg P live i}

/-- `advance` makes the moves of the event `run`. -/
theorem move_of_advance {s s' : Shared C} {t t' : Task C} {signal : Signal C}
    (h : advance cfg P live i s t = some (s', t', signal)) :
    Move cfg P live i s t .run s' t' signal := by
  cases t with
  | getStart =>
    cases hd : s.draining <;> simp only [advance, go, hd] at h <;> cases h
    · exact .getAdmitted hd
    · exact .getRefused hd
  | getLock =>
    simp only [advance, go] at h
    split_ifs at h with hl
    cases h
    exact .getLock (by simpa using hl)
  | getScan =>
    simp only [advance, go] at h
    split at h
    · rename_i hi
      cases h
      exact .scanEmpty hi
    · rename_i e rest hi
      split_ifs at h with hu <;> cases h
      · exact .scanUsable hi hu
      · exact .scanDiscard hi (by simpa using hu)
  | getDiscard old => cases h; exact .scanNext
  | checkout c => cases h; exact .checkout
  | getLoad =>
    simp only [advance, go] at h
    split_ifs at h with hr <;> cases h
    · exact .loadRoom hr
    · exact .loadFull (by omega)
  | getEnqueue => cases h; exact .enqueue
  | parked slot elapsed =>
    cases slot with
    | some c =>
      cases elapsed with
      -- the timeout wins, with a connection in the channel or not
      | true => cases h; exact .dropReceiver
      | false => cases h; exact .receive
    | none =>
      cases elapsed with
      | true => cases h; exact .dropReceiver
      | false =>
        simp only [advance, go] at h
        split_ifs at h with hw
        cases h
        exact .closed hw
  | served c => cases h; exact .served
  | counted c => cases h; exact .counted
  | timedOut => cases h; exact .retain
  | leaving => cases h; exact .leave
  | creating who stage =>
    cases stage with
    | reserve =>
      simp only [advance, go] at h
      split_ifs at h with hr <;> cases h
      · exact .reserve hr
      · exact .overshoot (by omega)
    | undo => cases h; exact .undo (.inl rfl)
    | failed => cases h; exact .undo (.inr rfl)
    | connect => cases h
  | taking => cases h; exact .taken
  | returning c => cases h; exact .returning
  | checking c =>
    cases hp : P.hasPendingData c <;> simp only [advance, go, hp] at h <;> cases h
    · exact .checkGood hp
    · exact .checkBad hp
  | resetting started c =>
    cases started with
    | false =>
      cases hr : P.startReset c with
      -- the first poll of `reset` may already be the last one
      | waiting c' => simp only [advance, go, hr] at h; cases h; exact .resetWaits hr
      | done ok c' =>
        cases ok <;> simp only [advance, go, hr] at h <;> cases h
        · exact .resetFailed (.inl ⟨rfl, hr⟩)
        · exact .resetOk (.inl ⟨rfl, hr⟩)
    | true =>
      rcases hr : P.pollReset c with _ | ⟨ok, c'⟩
      · simp only [advance, hr] at h; cases h
      · cases ok <;> simp only [advance, go, hr] at h <;> cases h
        · exact .resetFailed (.inr ⟨rfl, hr⟩)
        · exact .resetOk (.inr ⟨rfl, hr⟩)
  | resetDone c =>
    cases hd : s.draining <;> simp only [advance, go, hd] at h <;> cases h
    · exact .returnClean hd
    · exact .returnDraining hd
  | destroying provision old => cases h; exact .destroy
  | handing who c =>
    rcases hp : popLive live s.waiters with _ | ⟨j, rest⟩ <;> simp only [advance, go, hp] at h <;>
      cases h
    · exact .handNone hp
    · exact .hand hp
  | parking who c =>
    simp only [advance, go] at h
    split_ifs at h with hl
    cases h
    exact .park (by simpa using hl)
  | provisionStart old =>
    cases hd : s.draining <;> simp only [advance, go, hd] at h <;> cases h
    · exact .provisionStart hd
    · exact .provisionDraining hd
  | provisionLook old =>
    simp only [advance, go] at h
    split_ifs at h with hw <;> cases h
    · exact .provisionNone hw
    · exact .provisionSome hw
  | notifyStart old =>
    cases hd : s.draining <;> simp only [advance, go, hd] at h <;> cases h
    · exact .notifyIdle hd
    · exact .notifyStart hd
  | notifyLoad old =>
    simp only [advance, go] at h
    split_ifs at h with hz <;> cases h
    · exact .notifyLoad hz
    · exact .notifyNot hz
  | notifyOne old =>
    simp only [advance, go] at h
    split at h <;> rename_i hs <;> cases h
    · exact .notifyWake hs
    · exact .notifyStore hs
  | warmStart target =>
    simp only [advance, go] at h
    split_ifs at h <;> cases h
    · exact .warmStart (by omega)
    · exact .warmStart (n := 0) (Nat.zero_le _)
    · exact .warmStart (by omega)
  | warmConnect left => cases h
  | warmPush left c =>
    simp only [advance, go] at h
    split_ifs at h with hl
    cases h
    exact .warmPush (by simpa using hl)
  | warmCount left => cases h; exact .warmCount
  | sleeping => cases h
  | maintain =>
    simp only [advance, go] at h
    split_ifs at h with hd <;> cases h
    · exact .maintainDraining hd
    · exact .maintain (by simpa using hd)
  | evicting =>
    simp only [advance, go] at h
    split_ifs at h with hl
    cases h
    exact .evict (by simpa using hl)
  | refillLoad => cases h; exact .refillLoad
  | refillStart total =>
    simp only [advance, go] at h
    split_ifs at h <;> cases h
    · exact .refillStart (by omega)
    · exact .refillStart (n := 0) (Nat.zero_le _)
  | drainStart => cases h; exact .drainStart
  | drainIdle =>
    simp only [advance, go] at h
    split_ifs at h with hl
    cases h
    exact .drainIdle (by simpa using hl)
  | drainWaiters => cases h; exact .drainWaiters
  | drainCheck =>
    simp only [advance, go] at h
    split_ifs at h with hz <;> cases h
    · exact .drainEmpty hz
    · exact .drainWait hz
  | drainPoll =>
    simp only [advance, go] at h
    split_ifs at h with hp <;> cases h
    · exact .drainNotified hp
    · exact .drainPark (by simpa using hp)
  | drainSend =>
    simp only [advance, go] at h
    split_ifs at h
    cases h
    exact .drainSend
  | held c => cases h
  | drainParked => cases h
  | drained => cases h
  | done => cases h

/-- `react` makes no other moves. -/
theorem move_of_react {s s' : Shared C} {t t' : Task C} {e : Event C A} {signal : Signal C}
    (h : react cfg P live i s t e = some (s', t', signal)) :
    Move cfg P live i s t e s' t' signal := by
  cases e with
  | run => exact move_of_advance h
  | connected c =>
    simp only [react] at h
    split_ifs at h with hc
    split at h <;> cases h
    · exact .created hc
    · exact .warmConnected hc
  | connectFailed =>
    simp only [react] at h
    split at h <;> cases h
    · exact .createFailed
    · exact .warmFailed
  | take =>
    simp only [react] at h
    split at h <;> cases h
    exact .take
  | drop =>
    simp only [react] at h
    split at h <;> cases h
    exact .drop
  | timeout =>
    simp only [react] at h
    split at h <;> cases h
    exact .timeout
  | cancel =>
    simp only [react] at h
    split at h <;> cases h
    all_goals first | exact .cancel (by simp) | exact .cancelCreating | exact .cancelParked |
      exact .cancelTimedOut
  | tick =>
    simp only [react] at h
    split at h <;> cases h
    exact .tick
  | shutdown =>
    simp only [react] at h
    split at h
    · split_ifs at h with hs
      cases h
      exact .shutdown hs
    · cases h
  | use a =>
    simp only [react] at h
    split at h
    · obtain ⟨c', hc, heq⟩ := Option.map_eq_some_iff.1 h
      cases heq
      exact .use hc
    · cases h
  | drift a =>
    simp only [react] at h
    cases ht : t.conn with
    | none => rw [ht] at h; cases h
    | some c =>
      rw [ht] at h
      obtain ⟨c', hc, heq⟩ := Option.map_eq_some_iff.1 h
      cases heq
      exact .drift ht hc

end

/-! ### Steps of the pool -/

section

variable (cfg : Config) (P : Poolable C A)

/-- `Change cfg P s l s'` : what happens as `l` leads from `s` to `s'`. -/
inductive Change (s : State C) : Label C A → State C → Prop
  | get : Change s .get (s.spawn .getStart)
  | warmUp {target} : Change s (.warmUp target) (s.spawn (.warmStart target))
  | drain : Change s .drain (s.spawn .drainStart)
  | move {i e t t' shared signal} (ht : s.tasks[i]? = some t)
    (hm : Move cfg P s.live i s.shared t e shared t' signal) :
    Change s (.task i e) ⟨shared, signal.deliver (s.tasks.set i t')⟩
  | expire {k e} (he : s.shared.idle[k]? = some e) :
    Change s (.expire k) (s.setIdle (s.shared.idle.set k { e with expired := true }))
  | drift {k a e c} (he : s.shared.idle[k]? = some e) (hc : P.drift e.conn a = some c) :
    Change s (.drift k a) (s.setIdle (s.shared.idle.set k { e with conn := c }))

variable {cfg P}

/-- **What a step of the pool can be.** -/
theorem step_cases {s s' : State C} {l : Label C A} (h : (system cfg P).step s l = some s') :
    Change cfg P s l s' := by
  change step cfg P s l = some s' at h
  cases l with
  | get => cases h; exact .get
  | warmUp target => cases h; exact .warmUp
  | drain => cases h; exact .drain
  | task i e =>
    simp only [step] at h
    split at h
    · rename_i t ht
      obtain ⟨⟨shared, t', signal⟩, hr, rfl⟩ := Option.map_eq_some_iff.1 h
      exact .move ht (move_of_react hr)
    · cases h
  | expire k =>
    simp only [step] at h
    split at h
    · rename_i e he
      cases h
      exact .expire he
    · cases h
  | drift k a =>
    simp only [step] at h
    split at h
    · rename_i e he
      obtain ⟨c, hc, rfl⟩ := Option.map_eq_some_iff.1 h
      exact .drift he hc
    · cases h

end

/-- The step is one of a task that `f` singles out by its stage and the event. -/
def Label.on (s : State C) (f : Task C → Event C A → Bool) : Label C A → Bool
  | .task i e => s.tasks[i]?.any (f · e)
  | _ => false

/-! ### Signals and weights -/

/-- A task that has no connection and no reservation, and has queued no sender: where the loops and
the failures lead to. -/
inductive Task.Plain : Task C → Prop
  | getEnqueue : Plain .getEnqueue
  | refill {left} : Plain (.creating (.refill left) .reserve)
  | provisionStart {old} : Plain (.provisionStart old)
  | notifyStart {old} : Plain (.notifyStart old)
  | warmConnect {left} : Plain (.warmConnect left)
  | sleeping : Plain .sleeping
  | done : Plain .done

theorem refused_plain (who : Creator C) : (who.refused : Task C).Plain := by
  cases who <;> constructor

theorem refillLoop_plain (left : ℕ) : (refillLoop left : Task C).Plain := by
  cases left <;> constructor

theorem warmLoop_plain (left : ℕ) : (warmLoop left : Task C).Plain := by
  cases left <;> constructor

theorem over_plain (who : Giver C) : (who.over : Task C).Plain := by
  cases who with
  | refill left => exact refillLoop_plain left
  | returned => exact .done
  | provision old => exact .notifyStart

theorem destroyed_plain (provision : Bool) (old : C) :
    (if provision then .provisionStart old else .notifyStart old : Task C).Plain := by
  cases provision <;> constructor

theorem State.live_iff {s : State C} {j : ℕ} :
    s.live j = true ↔ ∃ elapsed, s.tasks[j]? = some (.parked none elapsed) := by
  simp only [live]
  cases h : s.tasks[j]? with
  | none => simp
  | some t =>
    simp only [Option.any_some, Option.some_inj]
    constructor
    · intro ht
      unfold Task.isWaiting at ht
      split at ht
      · exact ⟨_, rfl⟩
      · cases ht
    · rintro ⟨elapsed, rfl⟩
      rfl

/-- The waiter that is found waits, and those before it in the queue do not. -/
theorem popLive_some {live : ℕ → Bool} {q rest : List ℕ} {j : ℕ}
    (h : popLive live q = some (j, rest)) :
    live j = true ∧ ∃ dead, q = dead ++ j :: rest ∧ ∀ d ∈ dead, live d = false := by
  induction q with
  | nil => cases h
  | cons d q ih =>
    simp only [popLive] at h
    split_ifs at h with hd
    · cases h
      exact ⟨hd, [], rfl, by simp⟩
    · obtain ⟨hj, dead, rfl, hdead⟩ := ih h
      exact ⟨hj, d :: dead, rfl, by simpa [hd] using hdead⟩

theorem popLive_none {live : ℕ → Bool} {q : List ℕ} (h : popLive live q = none) :
    ∀ j ∈ q, live j = false := by
  induction q with
  | nil => simp
  | cons d q ih =>
    simp only [popLive] at h
    split_ifs at h with hd
    simpa [hd] using ih h

theorem drains_plain {t : Task C} (h : t.Plain) : t.drains = false := by cases h <;> rfl

/-- A `drain` remains one, and nothing else becomes one. -/
theorem Move.drains {cfg : Config} {P : Poolable C A} {live : ℕ → Bool} {i : ℕ}
    {s shared : Shared C} {e : Event C A} {t t' : Task C} {signal : Signal C}
    (hm : Move cfg P live i s t e shared t' signal) : t'.drains = t.drains := by
  cases hm with
  | undo => exact drains_plain (refused_plain _)
  | destroy => exact drains_plain (destroyed_plain _ _)
  | hand | park => exact drains_plain (over_plain _)
  | warmStart | warmCount => exact drains_plain (warmLoop_plain _)
  | refillStart => exact drains_plain (refillLoop_plain _)
  | @created who => cases who <;> rfl
  | cancel h => rcases h with rfl | rfl | rfl | ⟨_, rfl⟩ | ⟨_, rfl⟩ | ⟨_, _, rfl⟩ <;> rfl
  | drift =>
    cases t with
    | parked slot _ => cases slot <;> rfl
    | _ => rfl
  | _ => rfl

/-- A weight of the local states of a task: it does not depend on the connection that the task has,
and grows by `gain` when a connection is sent to it. -/
structure Weight (C : Type) where
  of : Task C → ℤ
  gain : ℤ
  of_sent : ∀ c elapsed, of (.parked (some c) elapsed) = of (.parked none elapsed) + gain
  of_woken : of .drainCheck = of .drainParked
  of_setConn : ∀ t c, of (t.setConn c) = of t

namespace Weight

variable (W : Weight C)

/-- What a signal adds to the sum of all weights. -/
def ofSignal : Signal C → ℤ
  | .send _ _ => W.gain
  | _ => 0

/-- The sum of the weights of all tasks. -/
def total (s : State C) : ℤ := tally W.of s.tasks

end Weight

section

variable {cfg : Config} {P : Poolable C A} {s : State C} {i : ℕ} {e : Event C A} {t t' : Task C}
  {shared : Shared C} {signal : Signal C}

/-- A connection is sent to a task that waits, and not to the sender. -/
theorem Move.send_target (hm : Move cfg P s.live i s.shared t e shared t' signal) {j : ℕ} {c : C}
    (hs : signal = .send j c) (ht : s.tasks[i]? = some t) :
    j ≠ i ∧ ∃ elapsed, s.tasks[j]? = some (.parked none elapsed) := by
  cases hm <;> cases hs
  rename_i rest hp
  obtain ⟨elapsed, hj⟩ := State.live_iff.1 (popLive_some hp).1
  refine ⟨fun hji => ?_, elapsed, hj⟩
  rw [hji, ht] at hj
  cases hj

/-- What a signal does to one task. -/
theorem deliver_cases {ts : List (Task C)} {k : ℕ} {u : Task C}
    (h : (signal.deliver ts)[k]? = some u) :
    ∃ v, ts[k]? = some v ∧ (u = v ∨
      (∃ c slot elapsed, signal = .send k c ∧ v = .parked slot elapsed ∧
        u = .parked (some c) elapsed) ∨
      signal = .wake k ∧ v = .drainParked ∧ u = .drainCheck) := by
  cases signal with
  | none => exact ⟨u, h, .inl rfl⟩
  | send j c =>
    simp only [Signal.deliver, List.getElem?_modify] at h
    obtain ⟨v, hv, rfl⟩ := Option.map_eq_some_iff.1 h
    refine ⟨v, hv, ?_⟩
    split_ifs with hjk
    · subst hjk
      split
      · exact .inr (.inl ⟨c, _, _, rfl, rfl, rfl⟩)
      · exact .inl rfl
    · exact .inl rfl
  | wake j =>
    simp only [Signal.deliver, List.getElem?_modify] at h
    obtain ⟨v, hv, rfl⟩ := Option.map_eq_some_iff.1 h
    refine ⟨v, hv, ?_⟩
    split_ifs with hjk
    · subst hjk
      split
      · exact .inr (.inr ⟨rfl, rfl, rfl⟩)
      · exact .inl rfl
    · exact .inl rfl

/-- **A task after a move**: it is the one that has moved, or it has stayed where it was, or it was
sent a connection or woken. -/
theorem task_after (ht : s.tasks[i]? = some t)
    (hm : Move cfg P s.live i s.shared t e shared t' signal) {k : ℕ} {u : Task C}
    (hu : (signal.deliver (s.tasks.set i t'))[k]? = some u) :
    k = i ∧ u = t' ∨ k ≠ i ∧ ∃ v, s.tasks[k]? = some v ∧ (u = v ∨
      (∃ c elapsed, signal = .send k c ∧ v = .parked none elapsed ∧
        u = .parked (some c) elapsed) ∨
      signal = .wake k ∧ v = .drainParked ∧ u = .drainCheck) := by
  obtain ⟨v, hv, hcases⟩ := deliver_cases hu
  rcases getElem?_set_cases hv with ⟨rfl, rfl⟩ | ⟨hki, hv⟩
  · left
    rcases hcases with rfl | ⟨c, slot, elapsed, hs, -, -⟩ | ⟨hs, hv, -⟩
    · exact ⟨rfl, rfl⟩
    · exact absurd rfl (hm.send_target hs ht).1
    · cases hm <;> cases hs
      cases hv
  · refine .inr ⟨hki, v, hv, ?_⟩
    rcases hcases with rfl | ⟨c, slot, elapsed, hs, rfl, rfl⟩ | hwoken
    · exact .inl rfl
    · obtain ⟨-, elapsed', hj⟩ := hm.send_target hs ht
      rw [hv] at hj
      cases hj
      exact .inr (.inl ⟨c, _, hs, rfl, rfl⟩)
    · exact .inr (.inr hwoken)

/-- A task that neither moves nor is reached by a signal stays where it is. -/
theorem task_stays {k : ℕ} {u : Task C} (hk : k ≠ i) (hu : s.tasks[k]? = some u)
    (hparked : ∀ slot elapsed, u ≠ .parked slot elapsed)
    (hdrain : u ≠ .drainParked ∨ ∀ j, signal ≠ .wake j) :
    (signal.deliver (s.tasks.set i t'))[k]? = some u := by
  have hset : (s.tasks.set i t')[k]? = some u := by rw [List.getElem?_set_ne (Ne.symm hk), hu]
  cases signal with
  | none => exact hset
  | send j c =>
    simp only [Signal.deliver, List.getElem?_modify, hset, Option.map_eq_map, Option.map_some,
      Option.some_inj]
    split_ifs <;> rfl
  | wake j =>
    have hne : u ≠ .drainParked := hdrain.resolve_right fun h => h j rfl
    simp only [Signal.deliver, List.getElem?_modify, hset, Option.map_eq_map, Option.map_some,
      Option.some_inj]
    split_ifs <;> rfl

theorem spawn_cases {k : ℕ} {u : Task C} (h : (s.spawn t).tasks[k]? = some u) :
    s.tasks[k]? = some u ∨ k = s.tasks.length ∧ u = t := getElem?_concat_cases h

/-- The task that has moved. -/
theorem task_moved (ht : s.tasks[i]? = some t)
    (hm : Move cfg P s.live i s.shared t e shared t' signal) :
    (signal.deliver (s.tasks.set i t'))[i]? = some t' := by
  have hlt : i < (signal.deliver (s.tasks.set i t')).length := by
    have := (List.getElem?_eq_some_iff.1 ht).1
    cases signal <;> simpa [Signal.deliver] using this
  obtain ⟨u, hu⟩ : ∃ u, (signal.deliver (s.tasks.set i t'))[i]? = some u :=
    ⟨_, List.getElem?_eq_getElem hlt⟩
  rcases task_after ht hm hu with ⟨-, rfl⟩ | ⟨hne, -⟩
  · exact hu
  · exact absurd rfl hne

/-- **The weights after a move**: those of the task that moves and of the task it sends to. -/
theorem tally_move (W : Weight C) (ht : s.tasks[i]? = some t)
    (hm : Move cfg P s.live i s.shared t e shared t' signal) :
    W.total ⟨shared, signal.deliver (s.tasks.set i t')⟩ =
      W.total s - W.of t + W.of t' + W.ofSignal signal := by
  have hset : tally W.of (s.tasks.set i t') = tally W.of s.tasks - W.of t + W.of t' :=
    tally_set ht t'
  cases hsig : signal with
  | none => simpa [Weight.total, Signal.deliver, Weight.ofSignal] using hset
  | send j c =>
    obtain ⟨hji, elapsed, hj⟩ := hm.send_target hsig ht
    have hj' : (s.tasks.set i t')[j]? = some (.parked none elapsed) := by
      rw [List.getElem?_set_ne (Ne.symm hji), hj]
    simp only [Weight.total, Signal.deliver, Weight.ofSignal, tally_modify hj', hset, W.of_sent]
    omega
  | wake j =>
    simp only [Weight.total, Signal.deliver, Weight.ofSignal]
    cases hj : (s.tasks.set i t')[j]? with
    | none =>
      rw [List.modify_eq_self (by simpa using hj), hset, Int.add_zero]
    | some u =>
      rw [tally_modify hj, hset]
      have hwoken := W.of_woken
      split <;> omega

theorem total_spawn (W : Weight C) (t : Task C) : W.total (s.spawn t) = W.total s + W.of t := by
  simp [Weight.total, State.spawn]

end

end Resolute.Pool
