import Resolute.LTS.Basic
import Resolute.LTS.Tally

/-!
# How transactions end

The guards `Transaction` and `PooledTransaction`, and the calls `atomic` and `with_transaction`,
which have no guard, on one connection.  A future or a guard can be dropped wherever it is; what
matters then is whether the `COMMIT` or `ROLLBACK` is in the channel of the writer task, or the
connection cannot be used any more: the end of the transaction is *covered* (`Conn.Covers`).

A transaction is a `Tx` in some `Stage`, `react` is what it does next, and `act_of_react` what its
step can be for the connection.  In the transition system of all transactions on one connection,
those that are gone are covered in exactly the runs whose steps leave none open
(`ends_covered_iff`).
-/

namespace Resolute.Guard

/-- How a transaction is finished. -/
inductive Finish where
  | commit
  | rollback
  deriving DecidableEq, Repr

/-- The commands of a transaction. -/
inductive TxCommand where
  | begin
  | finish (f : Finish)
  deriving DecidableEq, Repr

/-- A connection, as far as the end of a transaction depends on it. -/
structure Conn where
  /-- The commands that were queued, each with its transaction, oldest first. -/
  log : List (ℕ × TxCommand)
  /-- The number of requests in the channel of the writer task. -/
  waiting : ℕ
  /-- The writer task takes no more requests. -/
  stopped : Bool
  /-- It has dropped its end of the channel. -/
  closed : Bool
  alive : Bool
  stateMutated : Bool
  broken : Bool
  deriving DecidableEq, Repr

/-- The capacity of the channel of the writer task. -/
def capacity : ℕ := 256

/-- Where a transaction stands. -/
inductive Stage where
  /-- The future of `begin`, `atomic` or `with_transaction` has not been polled. -/
  | created
  /-- `submit` waits for room in the channel. -/
  | sending (cmd : TxCommand)
  /-- `submit` waits for the response. -/
  | awaiting (cmd : TxCommand)
  /-- The guard is there; or the closure runs. -/
  | opened
  /-- `commit` or `rollback` was called, and its future has not been polled. -/
  | ending (f : Finish)
  /-- The guard and the futures are gone. -/
  | gone
  deriving DecidableEq, Repr

/-- A transaction. -/
structure Tx where
  /-- It is one of a `PooledClient`. -/
  pooled : Bool
  /-- It was started by `atomic` or `with_transaction`. -/
  closure : Bool
  stage : Stage
  deriving DecidableEq, Repr

/-- What happens in a transaction. -/
inductive Event where
  /-- The first poll of a future. -/
  | poll
  /-- There is room in the channel. -/
  | queue
  /-- The channel is closed. -/
  | refused
  /-- `submit` returns; `ok` : it has got a response. -/
  | answered (ok : Bool)
  /-- `commit` or `rollback` is called, or the closure returns `Ok` or `Err`. -/
  | finish (f : Finish)
  /-- The guard or the future is dropped. -/
  | drop
  deriving DecidableEq, Repr

/-- What else happens to a connection. -/
inductive ConnEvent where
  /-- Another request is queued. -/
  | request
  /-- The writer task takes a request. -/
  | take
  /-- The writer task ends its loop. -/
  | stop
  | close
  /-- A task of the connection has returned. -/
  | die
  | markBroken
  deriving DecidableEq, Repr

namespace Conn

/-- `request_tx.try_send`. -/
def trySend (c : Conn) (i : ℕ) (cmd : TxCommand) : Option Conn :=
  if c.closed = true ∨ capacity ≤ c.waiting then none
  else some { c with log := c.log ++ [(i, cmd)], waiting := c.waiting + 1 }

/-- `AsyncConn::enqueue_rollback`. -/
def enqueueRollback (c : Conn) (i : ℕ) : Option Conn :=
  if c.alive then c.trySend i (.finish .rollback) else none

/-- `Drop` of `Transaction` and of `PooledTransaction`. -/
def dropGuard (c : Conn) (i : ℕ) (done : Bool) : Conn :=
  if !done && c.alive then
    match c.enqueueRollback i with
    | some c' => c'
    | none => { c with broken := true }
  else c

/-- What happens to the connection by others. -/
def act (c : Conn) : ConnEvent → Option Conn
  | .request =>
    if c.closed = true ∨ capacity ≤ c.waiting then none
      else some { c with waiting := c.waiting + 1 }
  | .take =>
      if c.stopped = true ∨ c.waiting = 0 then none else some { c with waiting := c.waiting - 1 }
  | .stop => some { c with stopped := true }
  | .close => some { c with stopped := true, closed := true }
  | .die => some { c with alive := false }
  | .markBroken => some { c with broken := true }

/-- Nobody uses the connection again: it is marked broken, or its tasks are gone. -/
def unusable (c : Conn) : Bool := c.broken || c.stopped || c.closed || !c.alive

/-- **The end of the transaction `i` is covered**: its `BEGIN` was never queued, or its `COMMIT` or
`ROLLBACK` was, or nobody uses the connection again. -/
def Covers (c : Conn) (i : ℕ) : Prop :=
  (i, .begin) ∉ c.log ∨ (∃ f, (i, .finish f) ∈ c.log) ∨ c.unusable = true

end Conn

/-- `simple_query` up to the first `await` that does not return at once; `PooledClient` flags the
connection before. -/
def simpleQuery (pooled : Bool) (i : ℕ) (cmd : TxCommand) (c : Conn) : Conn × Stage :=
  let c := { c with stateMutated := c.stateMutated || pooled }
  match c.trySend i cmd with
  | some c' => (c', .awaiting cmd)
  | none => (c, if c.closed then .gone else .sending cmd)

namespace Tx

/-- The flag `done` of the guard, while there is one. -/
def done (t : Tx) : Option Bool :=
  if t.closure then none
  else match t.stage with
    | .opened | .ending _ => some false
    -- `commit` and `rollback` set the flag before they queue their command
    | .sending (.finish _) | .awaiting (.finish _) => some true
    | _ => none

/-- The connection after the guard and the future are dropped. -/
def release (t : Tx) (i : ℕ) (c : Conn) : Conn :=
  match t.done with
  | some done => c.dropGuard i done
  | none => c

/-- If the transaction is dropped, nothing undoes its `BEGIN`. -/
def isExposed (t : Tx) : Bool :=
  match t.stage with
  | .awaiting .begin | .sending (.finish _) => true
  | .opened | .ending _ => t.closure
  | _ => false

end Tx

/-- What the transaction `i` does on an event: the connection and the stage after it. -/
def react (i : ℕ) (c : Conn) (t : Tx) : Event → Option (Conn × Stage)
  | .poll => match t.stage with
    | .created => some (simpleQuery t.pooled i .begin c)
    | .ending f => some (simpleQuery t.pooled i (.finish f) c)
    | _ => none
  | .queue => match t.stage with
    | .sending cmd => (c.trySend i cmd).map (·, .awaiting cmd)
    | _ => none
  | .refused => match t.stage with
    | .sending _ => if c.closed then some (c, .gone) else none
    | _ => none
  | .answered ok => match t.stage with
    | .awaiting .begin => some (c, if ok then .opened else .gone)
    | .awaiting (.finish _) => some (c, .gone)
    | _ => none
  | .finish f => match t.stage with
    | .opened => some (if t.closure then simpleQuery t.pooled i (.finish f) c else (c, .ending f))
    | _ => none
  | .drop => match t.stage with
    | .gone => none
    | _ => some (t.release i c, .gone)

/-- A connection and its transactions. -/
structure State where
  conn : Conn
  txs : List Tx
  deriving DecidableEq, Repr

/-- What happens on a connection. -/
inductive Label where
  | start (pooled closure : Bool)
  | tx (i : ℕ) (e : Event)
  | conn (e : ConnEvent)
  deriving DecidableEq, Repr

/-- One step. -/
def step (s : State) : Label → Option State
  | .start pooled closure => some { s with txs := s.txs ++ [⟨pooled, closure, .created⟩] }
  | .tx i e => match s.txs[i]? with
    | some t => (react i s.conn t e).map fun r => ⟨r.1, s.txs.set i { t with stage := r.2 }⟩
    | none => none
  | .conn e => (s.conn.act e).map fun c => { s with conn := c }

/-- The transactions on one connection as a transition system. -/
def system : LTS State Label := ⟨step⟩

/-- No transaction has been started. -/
def State.Fresh (s : State) : Prop := s.conn.log = [] ∧ s.txs = []

/-- The end of every transaction that is gone is covered. -/
def State.Covered (s : State) : Prop :=
  ∀ (i : ℕ) (t : Tx), s.txs[i]? = some t → t.stage = .gone → s.conn.Covers i

/-- The step of a transaction does not leave it open: nothing is dropped between the `BEGIN` and the
guard, between the flag of the guard and the command, or in a call that has no guard; and no `BEGIN`
that was queued remains without a response. -/
def Tx.keepsCovered (t : Tx) : Event → Bool
  | .drop => !t.isExposed
  | .answered false => t.stage ≠ .awaiting .begin
  | _ => true

/-- The step leaves no transaction open, or nobody uses the connection again. -/
def endsCovered (s : State) : Label → Bool
  | .tx i e => s.conn.unusable || s.txs[i]?.all (·.keepsCovered e)
  | _ => true

/-! ### Steps of a transaction -/

/-- `Sends t e cmd` : on the event `e`, the transaction tries to queue `cmd`. -/
inductive Sends (t : Tx) : Event → TxCommand → Prop
  | begin (h : t.stage = .created) : Sends t .poll .begin
  | finish {f} (h : t.stage = .ending f) : Sends t .poll (.finish f)
  | queue {cmd} (h : t.stage = .sending cmd) : Sends t .queue cmd
  | refused {cmd} (h : t.stage = .sending cmd) : Sends t .refused cmd
  | closure {f} (h : t.stage = .opened) : Sends t (.finish f) (.finish f)

/-- `Act i c t e c' stage` : on the event `e`, the transaction `i` goes from `t` to `stage`, and its
connection from `c` to `c'`. -/
inductive Act (i : ℕ) (c : Conn) (t : Tx) : Event → Conn → Stage → Prop
  | send {e cmd c'} (hs : Sends t e cmd) (hlog : c'.log = c.log ++ [(i, cmd)])
    (hu : c'.unusable = c.unusable) : Act i c t e c' (.awaiting cmd)
  | wait {e cmd c'} (hs : Sends t e cmd) (hlog : c'.log = c.log)
    (hu : c'.unusable = c.unusable) : Act i c t e c' (.sending cmd)
  | refuse {e cmd c'} (hs : Sends t e cmd) (hlog : c'.log = c.log) (hu : c'.unusable = true) :
    Act i c t e c' .gone
  | opened (h : t.stage = .awaiting .begin) : Act i c t (.answered true) c .opened
  | unanswered (h : t.stage = .awaiting .begin) : Act i c t (.answered false) c .gone
  | finished {ok f} (h : t.stage = .awaiting (.finish f)) : Act i c t (.answered ok) c .gone
  | call {f} (h : t.stage = .opened) : Act i c t (.finish f) c (.ending f)
  | drop (h : t.stage ≠ .gone) : Act i c t .drop (t.release i c) .gone

section

variable {i j : ℕ} {c c' : Conn} {t : Tx} {e : Event} {cmd : TxCommand} {stage : Stage}

theorem trySend_eq_some (h : c.trySend i cmd = some c') :
    c'.log = c.log ++ [(i, cmd)] ∧ c'.unusable = c.unusable := by
  simp only [Conn.trySend] at h
  split_ifs at h
  cases h
  exact ⟨rfl, rfl⟩

theorem act_simpleQuery (hs : Sends t e cmd) (h : simpleQuery t.pooled i cmd c = (c', stage)) :
    Act i c t e c' stage := by
  unfold simpleQuery at h
  dsimp only at h
  split at h
  · rename_i c₁ hsend
    cases h
    obtain ⟨hlog, hu⟩ := trySend_eq_some hsend
    exact .send hs hlog hu
  · split_ifs at h with hc <;> cases h
    · exact .refuse hs rfl (by simp [Conn.unusable, hc])
    · exact .wait hs rfl rfl

/-- **What a step of a transaction can be.** -/
theorem act_of_react (h : react i c t e = some (c', stage)) : Act i c t e c' stage := by
  cases e with
  | poll =>
    simp only [react] at h
    split at h
    · exact act_simpleQuery (.begin ‹_›) (Option.some.inj h)
    · exact act_simpleQuery (.finish ‹_›) (Option.some.inj h)
    · cases h
  | queue =>
    simp only [react] at h
    split at h
    · obtain ⟨c₁, hsend, heq⟩ := Option.map_eq_some_iff.1 h
      cases heq
      obtain ⟨hlog, hu⟩ := trySend_eq_some hsend
      exact .send (.queue ‹_›) hlog hu
    · cases h
  | refused =>
    simp only [react] at h
    split at h
    · split_ifs at h with hc
      cases h
      exact .refuse (.refused ‹_›) rfl (by simp [Conn.unusable, hc])
    · cases h
  | answered ok =>
    simp only [react] at h
    split at h
    · cases ok <;> cases h
      · exact .unanswered ‹_›
      · exact .opened ‹_›
    · cases h
      exact .finished ‹_›
    · cases h
  | finish f =>
    simp only [react] at h
    split at h
    · split_ifs at h with hc
      · exact act_simpleQuery (.closure ‹_›) (Option.some.inj h)
      · cases h
        exact .call ‹_›
    · cases h
  | drop =>
    simp only [react] at h
    split at h <;> cases h
    exact .drop ‹_›

/-! ### What the queue holds -/

/-- No command of the transaction was queued. -/
def Unbegun (log : List (ℕ × TxCommand)) (i : ℕ) : Prop := ∀ cmd, (i, cmd) ∉ log

/-- The `BEGIN` of the transaction was queued, and nothing that finishes it. -/
def Open (log : List (ℕ × TxCommand)) (i : ℕ) : Prop :=
  (i, .begin) ∈ log ∧ ∀ f, (i, .finish f) ∉ log

/-- What the queue holds when the transaction is to queue the command. -/
def Ready (log : List (ℕ × TxCommand)) (i : ℕ) : TxCommand → Prop
  | .begin => Unbegun log i
  | .finish _ => Open log i

/-- What the queue holds when the transaction has queued the command. -/
def Sent (log : List (ℕ × TxCommand)) (i : ℕ) : TxCommand → Prop
  | .begin => Open log i
  | .finish f => (i, .finish f) ∈ log

/-- What the queue holds at each stage of a transaction. -/
def Tx.Recorded (t : Tx) (log : List (ℕ × TxCommand)) (i : ℕ) : Prop :=
  match t.stage with
  | .created => Unbegun log i
  | .sending cmd => Ready log i cmd
  | .awaiting cmd => Sent log i cmd
  | .opened | .ending _ => Open log i
  | .gone => True

variable {log : List (ℕ × TxCommand)}

theorem Ready.sent (h : Ready log i cmd) : Sent (log ++ [(i, cmd)]) i cmd := by
  cases cmd with
  | begin => exact ⟨by simp, fun f hf => by simp [h (.finish f)] at hf⟩
  | finish f => exact List.mem_append_right _ (List.mem_singleton.2 rfl)

theorem Sends.ready (hs : Sends t e cmd) (h : t.Recorded log i) : Ready log i cmd := by
  unfold Tx.Recorded at h
  cases hs with
  | begin hst | finish hst | queue hst | refused hst | closure hst =>
    rw [hst] at h
    exact h

theorem Act.recorded (hr : t.Recorded c.log i) (h : Act i c t e c' stage) :
    ({ t with stage := stage } : Tx).Recorded c'.log i := by
  cases h with
  | send hs hlog =>
    change Sent c'.log i _
    rw [hlog]
    exact (hs.ready hr).sent
  | wait hs hlog =>
    change Ready c'.log i _
    rw [hlog]
    exact hs.ready hr
  | opened h | call h =>
    unfold Tx.Recorded at hr
    rw [h] at hr
    exact hr
  | _ => trivial

/-! ### Dropping a guard -/

/-- What dropping a guard can do. -/
theorem dropGuard_cases (c : Conn) (i : ℕ) (done : Bool) :
    (c.dropGuard i done = c ∧ (done = true ∨ c.alive = false)) ∨
      c.trySend i (.finish .rollback) = some (c.dropGuard i done) ∨
      c.dropGuard i done = { c with broken := true } := by
  cases done with
  | true => exact .inl ⟨rfl, .inl rfl⟩
  | false =>
    cases ha : c.alive with
    | false => exact .inl ⟨by simp [Conn.dropGuard, ha], .inr rfl⟩
    | true =>
      cases hs : c.trySend i (.finish .rollback) with
      | none => exact .inr (.inr (by simp [Conn.dropGuard, Conn.enqueueRollback, ha, hs]))
      | some c' => exact .inr (.inl (by simp [Conn.dropGuard, Conn.enqueueRollback, ha, hs]))

theorem dropGuard_log (c : Conn) (i : ℕ) (done : Bool) :
    (c.dropGuard i done).log = c.log ∨
      (c.dropGuard i done).log = c.log ++ [(i, .finish .rollback)] := by
  rcases dropGuard_cases c i done with ⟨h, -⟩ | h | h
  · exact .inl (by rw [h])
  · exact .inr (trySend_eq_some h).1
  · exact .inl (by rw [h])

theorem dropGuard_unusable {done : Bool} (h : c.unusable = true) :
    (c.dropGuard i done).unusable = true := by
  rcases dropGuard_cases c i done with ⟨hd, -⟩ | hd | hd
  · rw [hd, h]
  · rw [(trySend_eq_some hd).2, h]
  · simp [hd, Conn.unusable]

/-- The guard of an open transaction queues a `ROLLBACK`, or declares the connection broken. -/
theorem dropGuard_covers (c : Conn) (i : ℕ) : (c.dropGuard i false).Covers i := by
  rcases dropGuard_cases c i false with ⟨hd, hdone | ha⟩ | hd | hd
  · cases hdone
  · exact .inr (.inr (by simp [hd, Conn.unusable, ha]))
  · refine .inr (.inl ⟨.rollback, ?_⟩)
    rw [(trySend_eq_some hd).1]
    exact List.mem_append_right _ (List.mem_singleton.2 rfl)
  · exact .inr (.inr (by simp [hd, Conn.unusable]))

/-! ### What a step does to the connection -/

theorem release_eq (t : Tx) (i : ℕ) (c : Conn) :
    t.release i c = c ∨ t.release i c = c.dropGuard i false := by
  unfold Tx.release
  split
  · rename_i done _
    cases done with
    | true => exact .inl rfl
    | false => exact .inr rfl
  · exact .inl rfl

/-- A step queues at most one command, and that is one of its transaction. -/
theorem Act.log_cases (h : Act i c t e c' stage) :
    c'.log = c.log ∨ ∃ cmd, c'.log = c.log ++ [(i, cmd)] := by
  cases h with
  | send _ hlog => exact .inr ⟨_, hlog⟩
  | wait _ hlog | refuse _ hlog => exact .inl hlog
  | drop =>
    rcases release_eq t i c with h | h <;> rw [h]
    · exact .inl rfl
    · exact (dropGuard_log c i false).imp_right fun h => ⟨_, h⟩
  | _ => exact .inl rfl

theorem Act.unusable (h : Act i c t e c' stage) (hc : c.unusable = true) : c'.unusable = true := by
  cases h with
  | send _ _ hu | wait _ _ hu => rw [hu, hc]
  | refuse _ _ hu => exact hu
  | drop =>
    rcases release_eq t i c with h | h <;> rw [h]
    · exact hc
    · exact dropGuard_unusable hc
  | _ => exact hc

theorem Act.log_other (h : Act i c t e c' stage) (hj : j ≠ i) (cmd : TxCommand) :
    (j, cmd) ∈ c'.log ↔ (j, cmd) ∈ c.log := by
  rcases h.log_cases with hlog | ⟨cmd', hlog⟩
  · rw [hlog]
  · simp [hlog, hj]

theorem Act.covers_other (h : Act i c t e c' stage) (hj : j ≠ i) (hc : c.Covers j) :
    c'.Covers j := by
  simp only [Conn.Covers, h.log_other hj] at hc ⊢
  exact hc.imp_right (.imp_right h.unusable)

theorem Act.recorded_other (h : Act i c t e c' stage) (hj : j ≠ i) {u : Tx}
    (hu : u.Recorded c.log j) : u.Recorded c'.log j := by
  obtain ⟨_, _, stage'⟩ := u
  cases stage' with
  | sending cmd | awaiting cmd =>
    cases cmd <;> simpa only [Tx.Recorded, Ready, Sent, Unbegun, Open, h.log_other hj] using hu
  | gone => trivial
  | _ => simpa only [Tx.Recorded, Unbegun, Open, h.log_other hj] using hu

theorem Unbegun.covers (h : Unbegun c.log i) : c.Covers i := .inl (h .begin)

theorem Open.covers_iff (h : Open c.log i) : c.Covers i ↔ c.unusable = true := by
  simp [Conn.Covers, h.1, h.2]

/-- A transaction that is dropped is covered unless it is exposed. -/
theorem release_covers_iff (hr : t.Recorded c.log i) (hs : t.stage ≠ .gone) :
    (t.release i c).Covers i ↔ c.unusable = true ∨ t.isExposed = false := by
  obtain ⟨pooled, closure, stage⟩ := t
  have exposed (ho : Open c.log i) : c.Covers i ↔ c.unusable = true ∨ true = false := by
    simpa using ho.covers_iff
  cases closure <;> cases stage with
  | created => exact iff_of_true (Unbegun.covers hr) (.inr rfl)
  | sending cmd =>
    cases cmd with
    | begin => exact iff_of_true (Unbegun.covers hr) (.inr rfl)
    | finish f => exact exposed hr
  | awaiting cmd =>
    cases cmd with
    | begin => exact exposed hr
    | finish f => exact iff_of_true (.inr (.inl ⟨f, hr⟩)) (.inr rfl)
  -- with a guard, and without
  | opened | ending f =>
    first | exact iff_of_true (dropGuard_covers c i) (.inr rfl) | exact exposed hr
  | gone => exact absurd rfl hs

theorem Sends.keepsCovered (hs : Sends t e cmd) : t.keepsCovered e = true := by cases hs <;> rfl

/-- **When a transaction is gone, it is covered exactly if the step was to keep it so.** -/
theorem Act.covers_iff (hr : t.Recorded c.log i) (h : Act i c t e c' .gone) :
    c'.Covers i ↔ c.unusable = true ∨ t.keepsCovered e = true := by
  generalize hst : Stage.gone = stage at h
  cases h with
  | refuse hs _ hu => exact iff_of_true (.inr (.inr hu)) (.inr hs.keepsCovered)
  | unanswered h =>
    unfold Tx.Recorded at hr
    rw [h] at hr
    simpa [Tx.keepsCovered, h] using Open.covers_iff hr
  | @finished ok f h =>
    unfold Tx.Recorded at hr
    rw [h] at hr
    refine iff_of_true (.inr (.inl ⟨f, hr⟩)) (.inr ?_)
    cases ok <;> simp [Tx.keepsCovered, h]
  | drop h => simpa [Tx.keepsCovered] using release_covers_iff hr h
  | _ => cases hst

theorem Act.keepsCovered (h : Act i c t e c' stage) (hne : stage ≠ .gone) :
    t.keepsCovered e = true := by
  cases h with
  | send hs | wait hs => exact hs.keepsCovered
  | opened | call => rfl
  | _ => exact absurd rfl hne

end

/-! ### Runs -/

section

variable {s s' s₀ : State} {l : Label} {ls : List Label}

/-- What the queue holds for each transaction. -/
structure State.Recorded (s : State) : Prop where
  txs : ∀ (i : ℕ) (t : Tx), s.txs[i]? = some t → t.Recorded s.conn.log i
  bound : ∀ p ∈ s.conn.log, p.1 < s.txs.length

/-- What others do to the connection. -/
theorem act_conn {c c' : Conn} {e : ConnEvent} (h : c.act e = some c') :
    c'.log = c.log ∧ (c.unusable = true → c'.unusable = true) := by
  cases e <;> simp only [Conn.act] at h <;> try split_ifs at h
  all_goals
    cases h
    refine ⟨rfl, fun hu => ?_⟩
    simp_all [Conn.unusable]

/-- `Change s l s'` : what happens as `l` leads from `s` to `s'`. -/
inductive Change (s : State) : Label → State → Prop
  | start {pooled closure} :
    Change s (.start pooled closure) { s with txs := s.txs ++ [⟨pooled, closure, .created⟩] }
  | tx {i e t c stage} (ht : s.txs[i]? = some t) (ha : Act i s.conn t e c stage) :
    Change s (.tx i e) ⟨c, s.txs.set i { t with stage := stage }⟩
  | conn {e c} (hlog : c.log = s.conn.log)
    (hu : s.conn.unusable = true → c.unusable = true) : Change s (.conn e) { s with conn := c }

theorem step_cases (h : system.step s l = some s') : Change s l s' := by
  change step s l = some s' at h
  cases l with
  | start => cases h; exact .start
  | tx i e =>
    simp only [step] at h
    split at h
    · rename_i t ht
      obtain ⟨r, hr, rfl⟩ := Option.map_eq_some_iff.1 h
      exact .tx ht (act_of_react hr)
    · cases h
  | conn e =>
    obtain ⟨c, hc, rfl⟩ := Option.map_eq_some_iff.1 h
    exact .conn (act_conn hc).1 (act_conn hc).2

theorem State.Recorded.step (hr : s.Recorded) (h : system.step s l = some s') : s'.Recorded := by
  cases step_cases h with
  | start =>
    refine ⟨fun j u hu => ?_, fun p hp => ?_⟩
    · rcases getElem?_concat_cases hu with hu | ⟨rfl, rfl⟩
      · exact hr.txs j u hu
      · exact fun cmd hmem => absurd (hr.bound _ hmem) (Nat.lt_irrefl _)
    · have := hr.bound p hp
      simp only [List.length_append, List.length_singleton]
      omega
  | @tx i e t c stage ht ha =>
    refine ⟨fun j u hu => ?_, fun p hp => ?_⟩
    · rcases getElem?_set_cases hu with ⟨rfl, rfl⟩ | ⟨hj, hu⟩
      · exact ha.recorded (hr.txs j t ht)
      · exact ha.recorded_other hj (hr.txs j u hu)
    · rw [List.length_set]
      rcases ha.log_cases with hlog | ⟨cmd, hlog⟩
      · exact hr.bound p (hlog ▸ hp)
      · rcases List.mem_append.1 (hlog ▸ hp) with hp | hp
        · exact hr.bound p hp
        · rw [List.mem_singleton.1 hp]
          exact (List.getElem?_eq_some_iff.1 ht).1
  | conn hlog =>
    refine ⟨fun j u hu => ?_, fun p hp => hr.bound p (hlog ▸ hp)⟩
    have := hr.txs j u hu
    rwa [← hlog] at this

theorem covers_of_log {c c' : Conn} {i : ℕ} (hlog : c'.log = c.log)
    (hu : c.unusable = true → c'.unusable = true) (h : c.Covers i) : c'.Covers i := by
  simp only [Conn.Covers, hlog] at h ⊢
  exact h.imp_right (.imp_right hu)

/-- **A step keeps all ends covered exactly if it leaves no transaction open.** -/
theorem covered_step_iff (hr : s.Recorded) (hc : s.Covered) (h : system.step s l = some s') :
    s'.Covered ↔ endsCovered s l = true := by
  cases step_cases h with
  | start =>
    refine iff_of_true (fun j u hu hgone => ?_) rfl
    rcases getElem?_concat_cases hu with hu | ⟨-, rfl⟩
    · exact hc j u hu hgone
    · cases hgone
  | conn hlog hu =>
    exact iff_of_true (fun j u hu' hgone => covers_of_log hlog hu (hc j u hu' hgone)) rfl
  | @tx i e t c stage ht ha =>
    have hother (j : ℕ) (u : Tx) (hj : j ≠ i) (hu : s.txs[j]? = some u) (hgone : u.stage = .gone) :
        c.Covers j := ha.covers_other hj (hc j u hu hgone)
    simp only [endsCovered, ht, Option.all_some, Bool.or_eq_true]
    by_cases hg : stage = .gone
    · subst hg
      rw [← ha.covers_iff (hr.txs i t ht)]
      constructor
      · intro hc'
        refine hc' i { t with stage := .gone } ?_ rfl
        exact List.getElem?_set_self (List.getElem?_eq_some_iff.1 ht).1
      · intro hi j u hu hgone
        rcases getElem?_set_cases hu with ⟨rfl, -⟩ | ⟨hj, hu⟩
        · exact hi
        · exact hother j u hj hu hgone
    · refine iff_of_true (fun j u hu hgone => ?_) (.inr (ha.keepsCovered hg))
      rcases getElem?_set_cases hu with ⟨-, rfl⟩ | ⟨hj, hu⟩
      · exact absurd hgone hg
      · exact hother j u hj hu hgone

/-- **Every transaction that is gone is covered**, all along a run, exactly if no step of the run
leaves a transaction open. -/
theorem ends_covered_iff (h₀ : s₀.Fresh) (h : system.exec s₀ ls = some s) :
    system.Along State.Covered s₀ ls ↔
      (system.guard fun s l => endsCovered s l = true).exec s₀ ls = some s := by
  refine LTS.along_iff_exec_guard (R := State.Recorded) (fun _ _ _ hr hst => hr.step hst)
    (fun _ _ _ hr hc hst => covered_step_iff hr hc hst) ⟨?_, ?_⟩ ?_ h
  · intro i t ht
    rw [h₀.2] at ht
    cases ht
  · intro p hp
    rw [h₀.1] at hp
    cases hp
  · intro i t ht
    rw [h₀.2] at ht
    cases ht

/-- A connection on which nothing has happened. -/
def State.new : State := ⟨⟨[], 0, false, false, true, false, false⟩, []⟩

/-- A guard is dropped without `commit`. -/
theorem ends_covered_iff_dropped :
    system.Along State.Covered .new
      [.start false false, .tx 0 .poll, .tx 0 (.answered true), .tx 0 .drop] :=
  (ends_covered_iff ⟨rfl, rfl⟩ rfl).2 rfl

theorem not_covered (hs : s.txs.map Tx.stage = [.gone] ∧ s.conn.log = [(0, .begin)] ∧
    s.conn.unusable = false) : ¬ s.Covered := by
  obtain ⟨htxs, hlog, hu⟩ := hs
  intro hc
  obtain ⟨t, ht, hgone⟩ : ∃ t, s.txs[0]? = some t ∧ t.stage = .gone := by
    have h0 : (s.txs.map Tx.stage)[0]? = some .gone := by rw [htxs]; rfl
    rw [List.getElem?_map] at h0
    exact Option.map_eq_some_iff.1 h0
  have hopen : Open s.conn.log 0 := by simp [Open, hlog]
  rw [hopen.covers_iff.1 (hc 0 t ht hgone)] at hu
  cases hu

/-- Three futures that are dropped leave their transactions open: that of `begin` when it awaits the
response; that of `commit` when it waits for room in the channel; that of `atomic` in the
closure. -/
theorem left_open :
    (∃ s, system.Reachable .new s ∧ s.txs = [⟨false, false, .gone⟩] ∧ ¬ s.Covered) ∧
    (∃ s, system.Reachable .new s ∧ s.txs = [⟨true, false, .gone⟩] ∧ ¬ s.Covered) ∧
    ∃ s, system.Reachable .new s ∧ s.txs = [⟨false, true, .gone⟩] ∧ ¬ s.Covered := by
  refine ⟨?_, ?_, ?_⟩
  · obtain ⟨s, h, hs⟩ := LTS.reachable_of_test (A := system) (s := .new)
      (r := [.start false false, .tx 0 .poll, .tx 0 .drop])
      (p := fun s => decide (s.txs = [⟨false, false, .gone⟩] ∧ s.txs.map Tx.stage = [.gone] ∧
        s.conn.log = [(0, .begin)] ∧ s.conn.unusable = false)) (by decide)
    obtain ⟨htxs, hs⟩ := of_decide_eq_true hs
    exact ⟨s, h, htxs, not_covered hs⟩
  · obtain ⟨s, h, hs⟩ := LTS.reachable_of_test (A := system) (s := .new)
      (r := [.start true false, .tx 0 .poll, .conn .take, .tx 0 (.answered true)] ++
        List.replicate 256 (.conn .request) ++ [.tx 0 (.finish .commit), .tx 0 .poll, .tx 0 .drop])
      (p := fun s => decide (s.txs = [⟨true, false, .gone⟩] ∧ s.txs.map Tx.stage = [.gone] ∧
        s.conn.log = [(0, .begin)] ∧ s.conn.unusable = false)) (by decide +kernel)
    obtain ⟨htxs, hs⟩ := of_decide_eq_true hs
    exact ⟨s, h, htxs, not_covered hs⟩
  · obtain ⟨s, h, hs⟩ := LTS.reachable_of_test (A := system) (s := .new)
      (r := [.start false true, .tx 0 .poll, .tx 0 (.answered true), .tx 0 .drop])
      (p := fun s => decide (s.txs = [⟨false, true, .gone⟩] ∧ s.txs.map Tx.stage = [.gone] ∧
        s.conn.log = [(0, .begin)] ∧ s.conn.unusable = false)) (by decide)
    obtain ⟨htxs, hs⟩ := of_decide_eq_true hs
    exact ⟨s, h, htxs, not_covered hs⟩

end

end Resolute.Guard
