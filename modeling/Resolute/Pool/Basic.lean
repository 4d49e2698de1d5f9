import Resolute.LTS.Basic
import Resolute.LTS.Tally

/-!
# The connection pool

`ConnPool` as a transition system.  Every `get`, every guard with the task that returns its
connection, every `warm_up`, every `drain` and the maintenance task is a `Task`; what it does
between two accesses to the memory they share is one step, which is `react`.  A future can be
dropped wherever it awaits.  The memory is sequentially consistent here, whatever the orderings the
source asks for.

The sections under the lock of the waiters change one counter and are one step.  The lock of the
idle list is explicit, since `try_get_idle` changes a counter several times while it holds it.  A
counter is kept as the integer that its additions and subtractions add up to; a task that loads it
sees its value as a `usize`.

What the pool can do with a connection, and how a connection changes, is a parameter (`Poolable`);
`steady` is a connection that is always clean, for concrete runs.
-/

namespace Resolute.Pool

/-- The number of values of a `usize`. -/
def usizeRange : ℤ := 18446744073709551616

/-- A counter as an atomic load returns it. -/
def load (n : ℤ) : ℕ := (n % usizeRange).toNat

/-- The part of `ConnPoolConfig` that the pool's decisions depend on; the durations only say when
something happens. -/
structure Config where
  minIdle : ℕ
  maxSize : ℕ
  testOnCheckout : Bool
  /-- Arithmetic overflow panics, as in a debug build. -/
  overflowChecks : Bool
  deriving DecidableEq, Repr

/-- Where a call of `reset` stands after its first poll. -/
inductive Reset (C : Type) where
  | done (ok : Bool) (conn : C)
  | waiting (conn : C)

/-- `trait Poolable`, and how a connection changes: `A` are the things that happen to it. -/
structure Poolable (C A : Type) where
  hasPendingData : C → Bool
  /-- The connection is one that `connect` can return. -/
  connects : C → Bool
  startReset : C → Reset C
  /-- The outcome of a `reset` that waits, once it is there. -/
  pollReset : C → Option (Bool × C)
  /-- What the holder of the guard does with the connection. -/
  use : C → A → Option C
  /-- What happens to the connection whoever has it. -/
  drift : C → A → Option C
  /-- A connection that cannot be handed out does not recover by itself. -/
  drift_pending : ∀ {c a c'}, drift c a = some c' → hasPendingData c = true →
    hasPendingData c' = true

/-- `IdleConn`; of its deadline it matters whether it has passed. -/
structure IdleConn (C : Type) where
  conn : C
  expired : Bool

/-- Who has called `create_and_track`.  A task that provisions still has the connection `old` that
it has destroyed, which is a parameter of `return_conn_async`; `left` connections are to follow. -/
inductive Creator (C : Type) where
  | get
  | provision (old : C)
  | refill (left : ℕ)
  deriving DecidableEq, Repr

/-- Where `create_and_track` stands. -/
inductive Create where
  /-- About to increment `total_count`. -/
  | reserve
  /-- About to decrement it again, since it had reached `max_size`. -/
  | undo
  /-- Awaiting `connect`. -/
  | connect
  /-- `connect` failed: about to decrement. -/
  | failed
  deriving DecidableEq, Repr

/-- Who hands a connection to a waiter or parks it on the idle list. -/
inductive Giver (C : Type) where
  | returned
  | provision (old : C)
  | refill (left : ℕ)
  deriving DecidableEq, Repr

/-- Where a task stands. -/
inductive Task (C : Type) where
  /-- `get`: about to load `draining`. -/
  | getStart
  /-- `try_get_idle`: waits for the lock of the idle list. -/
  | getLock
  /-- `try_get_idle`: has the lock. -/
  | getScan
  /-- `try_get_idle`: has counted an entry as destroyed, and is about to drop it. -/
  | getDiscard (old : C)
  /-- `get` has a connection from the idle list or a new one. -/
  | checkout (conn : C)
  /-- `get`: about to compare `total_count` with `max_size`. -/
  | getLoad
  | creating (who : Creator C) (stage : Create)
  /-- `get`: waits for the lock of the waiters. -/
  | getEnqueue
  /-- `get` awaits its channel; `elapsed` : the timeout has fired, the receiver is not yet
  dropped. -/
  | parked (slot : Option C) (elapsed : Bool)
  /-- `get` has received a connection. -/
  | served (conn : C)
  /-- … and counted it in `in_use_count`; its `WaiterCountGuard` is still there. -/
  | counted (conn : C)
  /-- `get` has timed out: waits for the lock to remove its entry. -/
  | timedOut
  /-- `get` is about to drop its `WaiterCountGuard`, without a connection. -/
  | leaving
  /-- A `PoolGuard`. -/
  | held (conn : C)
  /-- `take`: `total_count` is not yet decremented. -/
  | taking
  /-- `return_conn_async`: about to decrement `in_use_count`. -/
  | returning (conn : C)
  /-- `return_conn_async`: about to call `has_pending_data`. -/
  | checking (conn : C)
  /-- `return_conn_async`: in `reset`. -/
  | resetting (started : Bool) (conn : C)
  /-- `return_conn_async`: about to load `draining`. -/
  | resetDone (conn : C)
  /-- About to call `destroy_conn_stats`; `provision` : a waiter is to be served afterwards.  The
  connection is dropped when `return_conn_async` returns. -/
  | destroying (provision : Bool) (old : C)
  /-- Waits for the lock of the waiters, to serve one. -/
  | handing (who : Giver C) (conn : C)
  /-- Waits for the lock of the idle list, to push the connection. -/
  | parking (who : Giver C) (conn : C)
  /-- `try_provision_for_waiter`: about to load `draining`. -/
  | provisionStart (old : C)
  /-- `try_provision_for_waiter`: about to look whether there are waiters. -/
  | provisionLook (old : C)
  /-- `maybe_notify_drain`: about to load `draining`. -/
  | notifyStart (old : C)
  /-- `maybe_notify_drain`: about to load `total_count`. -/
  | notifyLoad (old : C)
  /-- `maybe_notify_drain`: about to notify. -/
  | notifyOne (old : C)
  /-- `warm_up`: about to load the metrics. -/
  | warmStart (target : ℕ)
  /-- `warm_up` awaits `connect`. -/
  | warmConnect (left : ℕ)
  /-- `warm_up`: waits for the lock of the idle list, to push the connection. -/
  | warmPush (left : ℕ) (conn : C)
  /-- `warm_up`: about to increment `total_count`. -/
  | warmCount (left : ℕ)
  /-- The maintenance task waits for its interval or for the shutdown message. -/
  | sleeping
  /-- The maintenance task: about to load `draining`. -/
  | maintain
  /-- The maintenance task: waits for the lock of the idle list, to evict. -/
  | evicting
  /-- The maintenance task: about to load `total_count`. -/
  | refillLoad
  /-- The maintenance task: about to load `in_use_count`. -/
  | refillStart (total : ℕ)
  /-- `drain`: about to set `draining`. -/
  | drainStart
  /-- `drain`: waits for the lock of the idle list, to clear it. -/
  | drainIdle
  /-- `drain`: waits for the lock of the waiters, to clear them. -/
  | drainWaiters
  /-- `drain`: has made its `Notified` future, about to load `total_count`. -/
  | drainCheck
  /-- `drain`: about to poll the `Notified` future for the first time. -/
  | drainPoll
  /-- `drain` waits for a notification. -/
  | drainParked
  /-- `drain` sends the shutdown message. -/
  | drainSend
  /-- `drain` has returned. -/
  | drained
  /-- The task is over. -/
  | done
  deriving DecidableEq, Repr

/-- The memory that the tasks share. -/
structure Shared (C : Type) where
  idle : List (IdleConn C)
  /-- The lock of the idle list is held. -/
  idleLocked : Bool
  /-- The tasks whose senders are queued, oldest first. -/
  waiters : List ℕ
  totalCount : ℤ
  inUseCount : ℤ
  waiterCount : ℤ
  draining : Bool
  /-- `drain_complete` stores a notification. -/
  permit : Bool
  /-- The tasks that wait for `drain_complete`, oldest first. -/
  sleepers : List ℕ
  /-- The channel of `shutdown_tx` holds a message. -/
  shutdown : Bool
  /-- The maintenance task has its receiver. -/
  receiver : Bool
  /-- Connections and reservations that were dropped with the future that had them, while
  `total_count` still counts them.  No code reads this. -/
  lost : ℕ

/-- What happens in a task. -/
inductive Event (C A : Type) where
  /-- The task goes on. -/
  | run
  /-- `connect` returns. -/
  | connected (conn : C)
  | connectFailed
  /-- `PoolGuard::take`. -/
  | take
  /-- The guard is dropped. -/
  | drop
  /-- `checkout_timeout` has passed. -/
  | timeout
  /-- The future is dropped where it awaits. -/
  | cancel
  /-- The interval of the maintenance task. -/
  | tick
  /-- The maintenance task receives the shutdown message. -/
  | shutdown
  /-- The holder uses the connection. -/
  | use (a : A)
  /-- Something happens to the connection that the task has. -/
  | drift (a : A)

/-- What a task does to another one. -/
inductive Signal (C : Type) where
  | none
  /-- Send a connection to a waiting `get`. -/
  | send (j : ℕ) (conn : C)
  /-- Wake a waiting `drain`. -/
  | wake (j : ℕ)

section

variable {C A : Type}

/-- The task after `create_and_track` returned `Ok`. -/
def Creator.created (conn : C) : Creator C → Task C
  | get => .checkout conn
  | provision old => .handing (.provision old) conn
  | refill left => .parking (.refill left) conn

/-- The task after `create_and_track` returned `Err`. -/
def Creator.refused : Creator C → Task C
  | get => .getEnqueue
  | provision old => .notifyStart old
  | refill _ => .sleeping

/-- The loop of the maintenance task that refills the idle list. -/
def refillLoop : ℕ → Task C
  | 0 => .sleeping
  | left + 1 => .creating (.refill left) .reserve

/-- The loop of `warm_up`. -/
def warmLoop : ℕ → Task C
  | 0 => .done
  | left + 1 => .warmConnect left

/-- The task after the connection was sent or pushed. -/
def Giver.over : Giver C → Task C
  | returned => .done
  | provision old => .notifyStart old
  | refill left => refillLoop left

namespace Task

/-- The connection that the task has, and has not destroyed. -/
def conn : Task C → Option C
  | checkout c | parked (some c) _ | served c | counted c | held c | returning c | checking c
  | resetting _ c | resetDone c | handing _ c | parking _ c | warmPush _ c => some c
  | _ => none

/-- The connection that the task has destroyed and not yet dropped, or is about to destroy. -/
def old : Task C → Option C
  | getDiscard c | destroying _ c | provisionStart c | provisionLook c | creating (.provision c) _
  | handing (.provision c) _ | parking (.provision c) _ | notifyStart c | notifyLoad c
  | notifyOne c => some c
  | _ => none

/-- The task with its connection replaced. -/
def setConn (c : C) : Task C → Task C
  | checkout _ => checkout c
  | parked (some _) e => parked (some c) e
  | served _ => served c
  | counted _ => counted c
  | held _ => held c
  | returning _ => returning c
  | checking _ => checking c
  | resetting b _ => resetting b c
  | resetDone _ => resetDone c
  | handing who _ => handing who c
  | parking who _ => parking who c
  | warmPush left _ => warmPush left c
  | t => t

/-- The receiver of the task's channel is there and has nothing. -/
def isWaiting : Task C → Bool
  | parked none _ => true
  | _ => false

/-- The task is a `drain`. -/
def drains : Task C → Bool
  | drainStart | drainIdle | drainWaiters | drainCheck | drainPoll | drainParked | drainSend
  | drained => true
  | _ => false

end Task

/-- `waiters.pop_front()` until a sender finds its receiver. -/
def popLive (live : ℕ → Bool) : List ℕ → Option (ℕ × List ℕ)
  | [] => none
  | j :: rest => if live j then some (j, rest) else popLive live rest

variable (cfg : Config) (P : Poolable C A)

/-- `try_get_idle` hands the entry out. -/
def usable (e : IdleConn C) : Bool :=
  !e.expired && !(cfg.testOnCheckout && P.hasPendingData e.conn)

/-- A step that does nothing to another task. -/
def go (s : Shared C) (t : Task C) : Option (Shared C × Task C × Signal C) := some (s, t, .none)

/-- The next step of a task.  `i` is the task, `live` says which tasks wait with an empty
channel. -/
def advance (live : ℕ → Bool) (i : ℕ) (s : Shared C) :
    Task C → Option (Shared C × Task C × Signal C)
  -- ConnPool::get
  | .getStart => go s (if s.draining then .done else .getLock)
  | .getLock => if s.idleLocked then none else go { s with idleLocked := true } .getScan
  | .getScan => match s.idle with
    | [] => go { s with idleLocked := false } .getLoad
    | e :: rest =>
      if usable cfg P e then go { s with idle := rest, idleLocked := false } (.checkout e.conn)
      else go { s with idle := rest, totalCount := s.totalCount - 1 } (.getDiscard e.conn)
  | .getDiscard _ => go s .getScan
  | .checkout c => go { s with inUseCount := s.inUseCount + 1 } (.held c)
  | .getLoad =>
      go s (if load s.totalCount < cfg.maxSize then .creating .get .reserve else .getEnqueue)
  | .getEnqueue =>
    go { s with waiters := s.waiters ++ [i], waiterCount := s.waiterCount + 1 } (.parked none false)
  | .parked (some c) false => go s (.served c)
  -- the sender is gone without a connection: drain has cleared the waiters
  | .parked none false => if i ∈ s.waiters then none else go s .leaving
  | .parked slot true => go { s with lost := s.lost + slot.toList.length } .timedOut
  | .served c => go { s with inUseCount := s.inUseCount + 1 } (.counted c)
  | .counted c => go { s with waiterCount := s.waiterCount - 1 } (.held c)
  | .timedOut => go { s with waiters := s.waiters.filter live } .leaving
  | .leaving => go { s with waiterCount := s.waiterCount - 1 } .done
  -- create_and_track
  | .creating who .reserve =>
    go { s with totalCount := s.totalCount + 1 }
      (.creating who (if load s.totalCount < cfg.maxSize then .connect else .undo))
  | .creating who .undo | .creating who .failed =>
    go { s with totalCount := s.totalCount - 1 } who.refused
  -- PoolGuard::take and return_conn_async
  | .taking => go { s with totalCount := s.totalCount - 1 } .done
  | .returning c => go { s with inUseCount := s.inUseCount - 1 } (.checking c)
  | .checking c => go s (if P.hasPendingData c then .destroying true c else .resetting false c)
  | .resetting false c => match P.startReset c with
    | .done ok c' => go s (if ok then .resetDone c' else .destroying true c')
    | .waiting c' => go s (.resetting true c')
  | .resetting true c => match P.pollReset c with
    | some (ok, c') => go s (if ok then .resetDone c' else .destroying true c')
    | none => none
  | .resetDone c => go s (if s.draining then .destroying false c else .handing .returned c)
  | .destroying provision old =>
    go { s with totalCount := s.totalCount - 1 }
      (if provision then .provisionStart old else .notifyStart old)
  | .handing who c => match popLive live s.waiters with
    | some (j, rest) => some ({ s with waiters := rest }, who.over, .send j c)
    | none => go { s with waiters := [] } (.parking who c)
  | .parking who c =>
    if s.idleLocked then none else go { s with idle := s.idle ++ [⟨c, false⟩] } who.over
  -- try_provision_for_waiter
  | .provisionStart old => go s (if s.draining then .notifyStart old else .provisionLook old)
  | .provisionLook old =>
    go s (if s.waiters = [] then .notifyStart old else .creating (.provision old) .reserve)
  -- maybe_notify_drain, and the end of return_conn_async
  | .notifyStart old => go s (if s.draining then .notifyLoad old else .done)
  | .notifyLoad old => go s (if load s.totalCount = 0 then .notifyOne old else .done)
  | .notifyOne _ => match s.sleepers with
    | j :: rest => some ({ s with sleepers := rest }, .done, .wake j)
    | [] => go { s with permit := true } .done
  -- warm_up
  | .warmStart target =>
    let current := load s.totalCount
    if current ≤ cfg.maxSize then go s (warmLoop (min (target - current) (cfg.maxSize - current)))
    else if cfg.overflowChecks then go s .done
    else go s (warmLoop (min (target - current) (load (cfg.maxSize - current))))
  | .warmPush left c =>
    if s.idleLocked then none else go { s with idle := s.idle ++ [⟨c, false⟩] } (.warmCount left)
  | .warmCount left => go { s with totalCount := s.totalCount + 1 } (warmLoop left)
  -- maintenance_task
  | .maintain => if s.draining then go { s with receiver := false } .done else go s .evicting
  | .evicting =>
    if s.idleLocked then none
    else
      let kept := s.idle.filter fun e => !e.expired
      go { s with idle := kept, totalCount := s.totalCount - (s.idle.length - kept.length) }
        .refillLoad
  | .refillLoad => go s (.refillStart (load s.totalCount))
  | .refillStart total =>
    let currentIdle := total - load s.inUseCount
    if currentIdle < cfg.minIdle ∧ total < cfg.maxSize then
      go s (refillLoop (min (cfg.minIdle - currentIdle) (cfg.maxSize - total)))
    else go s .sleeping
  -- drain
  | .drainStart => go { s with draining := true } .drainIdle
  | .drainIdle =>
    if s.idleLocked then none
    else go { s with idle := [], totalCount := s.totalCount - s.idle.length } .drainWaiters
  | .drainWaiters =>
    go { s with waiters := [], waiterCount := s.waiterCount - s.waiters.length } .drainCheck
  | .drainCheck => go s (if load s.totalCount = 0 then .drainSend else .drainPoll)
  | .drainPoll =>
    if s.permit then go { s with permit := false } .drainCheck
    else go { s with sleepers := s.sleepers ++ [i] } .drainParked
  | .drainSend =>
    if s.shutdown && s.receiver then none else go { s with shutdown := s.receiver } .drained
  -- these wait for an event, for another task or for ever
  | .creating _ .connect | .held _ | .warmConnect _ | .sleeping | .drainParked | .drained | .done =>
    none

/-- What a task does on an event. -/
def react (live : ℕ → Bool) (i : ℕ) (s : Shared C) (t : Task C) :
    Event C A → Option (Shared C × Task C × Signal C)
  | .run => advance cfg P live i s t
  | .connected c =>
    if P.connects c then match t with
      | .creating who .connect => go s (who.created c)
      | .warmConnect left => go s (.warmPush left c)
      | _ => none
    else none
  | .connectFailed => match t with
    | .creating who .connect => go s (.creating who .failed)
    | .warmConnect _ => go s .done
    | _ => none
  | .take => match t with
    | .held _ => go { s with inUseCount := s.inUseCount - 1 } .taking
    | _ => none
  | .drop => match t with
    | .held c => go s (.returning c)
    | _ => none
  | .timeout => match t with
    | .parked none false => go s (.parked none true)
    | _ => none
  | .cancel => match t with
    | .getStart | .getLock | .getEnqueue | .warmStart _ | .warmConnect _ | .warmPush _ _ =>
          go s .done
    | .creating .get .connect => go { s with lost := s.lost + 1 } .done
    | .parked slot false => go { s with lost := s.lost + slot.toList.length } .leaving
    | .timedOut => go s .leaving
    | _ => none
  | .tick => match t with
    | .sleeping => go s .maintain
    | _ => none
  | .shutdown => match t with
    | .sleeping =>
          if s.shutdown then go { s with shutdown := false, receiver := false } .done else none
    | _ => none
  | .use a => match t with
    | .held c => (P.use c a).map fun c' => (s, .held c', .none)
    | _ => none
  | .drift a => match t.conn with
    | some c => (P.drift c a).map fun c' => (s, t.setConn c', .none)
    | none => none

/-- The memory of the pool, and its tasks. -/
structure State (C : Type) where
  shared : Shared C
  tasks : List (Task C)

/-- What happens in the pool. -/
inductive Label (C A : Type) where
  | get
  | warmUp (target : ℕ)
  | drain
  | task (i : ℕ) (e : Event C A)
  /-- The deadline of an idle connection passes. -/
  | expire (k : ℕ)
  /-- Something happens to an idle connection. -/
  | drift (k : ℕ) (a : A)

/-- The tasks after a signal. -/
def Signal.deliver : Signal C → List (Task C) → List (Task C)
  | none, ts => ts
  | send j c, ts => ts.modify j fun t => match t with
    | .parked _ elapsed => .parked (some c) elapsed
    | t => t
  | wake j, ts => ts.modify j fun t => match t with
    | .drainParked => .drainCheck
    | t => t

namespace State

/-- `ConnPool::new`: the connections that the pre-fill has made, and the maintenance task. -/
def new (conns : List C) : State C where
  shared :=
    { idle := conns.map (⟨·, false⟩), idleLocked := false, waiters := [],
      totalCount := conns.length, inUseCount := 0, waiterCount := 0, draining := false,
      permit := false, sleepers := [], shutdown := false, receiver := true, lost := 0 }
  tasks := [.sleeping]

/-- What `ConnPool::new` can return: each of the `min_idle` connections may have failed. -/
def Fresh (cfg : Config) (P : Poolable C A) (s : State C) : Prop :=
  ∃ conns : List C, s = new conns ∧ conns.length ≤ cfg.minIdle ∧ ∀ c ∈ conns, P.connects c = true

/-- The task waits with an empty channel. -/
def live (s : State C) (j : ℕ) : Bool := s.tasks[j]?.any Task.isWaiting

/-- The state with a new task. -/
def spawn (s : State C) (t : Task C) : State C := { s with tasks := s.tasks ++ [t] }

/-- The state with another idle list. -/
def setIdle (s : State C) (idle : List (IdleConn C)) : State C :=
  { s with shared := { s.shared with idle := idle } }

end State

/-- One step. -/
def step (s : State C) : Label C A → Option (State C)
  | .get => some (s.spawn .getStart)
  | .warmUp target => some (s.spawn (.warmStart target))
  | .drain => some (s.spawn .drainStart)
  | .task i e => match s.tasks[i]? with
    | some t => (react cfg P s.live i s.shared t e).map fun (shared, t', signal) =>
      ⟨shared, signal.deliver (s.tasks.set i t')⟩
    | none => none
  | .expire k => match s.shared.idle[k]? with
    | some e => some (s.setIdle (s.shared.idle.set k { e with expired := true }))
    | none => none
  | .drift k a => match s.shared.idle[k]? with
    | some e => (P.drift e.conn a).map fun c =>
      s.setIdle (s.shared.idle.set k { e with conn := c })
    | none => none

/-- The pool as a transition system. -/
def system : LTS (State C) (Label C A) := ⟨step cfg P⟩

end

/-- A connection that is always clean. -/
def steady : Poolable Unit Empty where
  hasPendingData _ := false
  connects _ := true
  startReset c := .done true c
  pollReset c := some (true, c)
  use _ a := nomatch a
  drift _ a := nomatch a
  drift_pending {_ a} _ _ := nomatch a

/-- The task `i` goes on `n` times. -/
def runs {C A : Type} (i n : ℕ) : List (Label C A) := List.replicate n (.task i .run)

end Resolute.Pool
