import Resolute.Pool.Moves

/-!
# How old the connections are that `get` hands out

The pool with a clock.  `create_connection` draws a lifetime around `max_lifetime` and computes a
deadline from it (`jitteredDuration`), and `try_get_idle` and the maintenance task drop the
connections whose deadline has passed.  But the deadline belongs to the entry of the idle list and
not to the connection: it is dropped when the connection leaves the list, and drawn again when the
connection is put back.  A connection that goes to a waiter has none at all.

Here a connection is `Stamped` with the time of its creation, and the pool remembers what it has
handed out (`Timed`).  A step is `punctual` if it parks no connection for too long, and sends none
that is too old.  In the runs of punctual steps the age of what is handed out is bounded
(`handed_in_time`); the steps that are not punctual are those that break a bound (`punctual_iff`).
-/

namespace Resolute.Pool

variable {C A : Type}

/-! ### Lifetimes -/

/-- The durations of `ConnPoolConfig` that bound the age of a connection, in nanoseconds. -/
structure Lifetime where
  maxLifetime : ℕ
  maxLifetimeJitter : ℕ

/-- The age that no connection should exceed. -/
def Lifetime.bound (life : Lifetime) : ℕ := life.maxLifetime + life.maxLifetimeJitter

/-- The number of values of a `u64`. -/
def u64Range : ℕ := 18446744073709551616

/-- The nanoseconds in a millisecond. -/
def milli : ℕ := 1000000

/-- `jittered_duration`, where `fastrand_u64` returns `rand`. -/
def jitteredDuration (base jitter rand : ℕ) : ℕ :=
  if jitter = 0 then base
  else
    let jitterMs := jitter / milli % u64Range
    let offset := rand % ((jitterMs * 2 + 1) % u64Range)
    let jittered : ℤ := (base / milli : ℕ) + offset - jitterMs
    (max jittered 1).toNat % u64Range * milli

/-- The lifetime of a connection. -/
def Lifetime.draw (life : Lifetime) (rand : ℕ) : ℕ :=
  jitteredDuration life.maxLifetime life.maxLifetimeJitter rand

/-- A lifetime is never less than a millisecond, if there is jitter. -/
theorem jitteredDuration_le (base jitter rand : ℕ) :
    jitteredDuration base jitter rand ≤ max (base + jitter) (if jitter = 0 then 0 else milli) := by
  unfold jitteredDuration
  split_ifs with hj
  · omega
  · simp only
    set jitterMs := jitter / milli % u64Range with hms
    have hle : jitterMs ≤ jitter / milli := Nat.mod_le _ _
    have hwrap : (jitterMs * 2 + 1) % u64Range ≤ jitterMs * 2 + 1 := Nat.mod_le _ _
    have hpos : 0 < (jitterMs * 2 + 1) % u64Range := by
      have : (jitterMs * 2 + 1) % 2 = 1 := by omega
      unfold u64Range
      omega
    have hoffset := Nat.mod_lt rand hpos
    set offset := rand % ((jitterMs * 2 + 1) % u64Range)
    have hnat : (max ((base / milli : ℕ) + offset - jitterMs : ℤ) 1).toNat ≤
        max (base / milli + jitter / milli) 1 := by omega
    have hbase := Nat.div_mul_le_self base milli
    have hjitter := Nat.div_mul_le_self jitter milli
    calc (max ((base / milli : ℕ) + offset - jitterMs : ℤ) 1).toNat % u64Range * milli
        ≤ (max ((base / milli : ℕ) + offset - jitterMs : ℤ) 1).toNat * milli :=
          Nat.mul_le_mul_right _ (Nat.mod_le _ _)
      _ ≤ max (base / milli + jitter / milli) 1 * milli := Nat.mul_le_mul_right _ hnat
      _ ≤ max (base + jitter) milli := by
        rcases Nat.le_total (base / milli + jitter / milli) 1 with h | h
        · rw [Nat.max_eq_right h, Nat.one_mul]
          exact Nat.le_max_right _ _
        · rw [Nat.max_eq_left h, Nat.add_mul]
          omega

/-- The bound can be kept: the least lifetime of a millisecond does not exceed it. -/
def Lifetime.Proper (life : Lifetime) : Prop := life.maxLifetimeJitter = 0 ∨ milli ≤ life.bound

theorem Lifetime.draw_le {life : Lifetime} (h : life.Proper) (rand : ℕ) :
    life.draw rand ≤ life.bound := by
  have hle := jitteredDuration_le life.maxLifetime life.maxLifetimeJitter rand
  refine Nat.le_trans hle ?_
  unfold Lifetime.Proper Lifetime.bound at h
  unfold Lifetime.bound
  split_ifs <;> omega

/-! ### The pool with a clock -/

/-- A connection with the time of its creation, and the deadline of the entry that it is in or
about to be put into. -/
structure Stamped (C : Type) where
  conn : C
  created : ℕ
  expiresAt : ℕ
  deriving DecidableEq

/-- A call of `reset` on a connection with its stamps. -/
def Reset.stamped (s : Stamped C) : Reset C → Reset (Stamped C)
  | .done ok conn => .done ok { s with conn }
  | .waiting conn => .waiting { s with conn }

/-- Connections with their stamps, which nothing changes that happens to the connection. -/
def Poolable.stamped (P : Poolable C A) : Poolable (Stamped C) A where
  hasPendingData s := P.hasPendingData s.conn
  connects s := P.connects s.conn
  startReset s := (P.startReset s.conn).stamped s
  pollReset s := (P.pollReset s.conn).map fun p => (p.1, { s with conn := p.2 })
  use s a := (P.use s.conn a).map fun conn => { s with conn }
  drift s a := (P.drift s.conn a).map fun conn => { s with conn }
  drift_pending {s a s'} h hp := by
    obtain ⟨conn, hconn, rfl⟩ := Option.map_eq_some_iff.1 h
    exact P.drift_pending hconn hp

/-- An event at time `now`; `create_connection` computes the deadline. -/
def Event.stamp (now expiresAt : ℕ) : Event C A → Event (Stamped C) A
  | .run => .run
  | .connected conn => .connected ⟨conn, now, expiresAt⟩
  | .connectFailed => .connectFailed
  | .take => .take
  | .drop => .drop
  | .timeout => .timeout
  | .cancel => .cancel
  | .tick => .tick
  | .shutdown => .shutdown
  | .use a => .use a
  | .drift a => .drift a

/-- A label at time `now`.  The clock says when a deadline passes. -/
def Label.stamp (now expiresAt : ℕ) : Label C A → Option (Label (Stamped C) A)
  | .get => some .get
  | .warmUp target => some (.warmUp target)
  | .drain => some .drain
  | .task i e => some (.task i (e.stamp now expiresAt))
  | .expire _ => none
  | .drift k a => some (.drift k a)

/-- The idle list as it is seen at time `now`. -/
def State.refresh (now : ℕ) (s : State (Stamped C)) : State (Stamped C) :=
  s.setIdle (s.shared.idle.map fun e => { e with expired := e.conn.expiresAt ≤ now })

/-- A task that is about to push a connection back computes a new deadline. -/
def State.restamp (expiresAt : ℕ) (s : State (Stamped C)) :
    Label (Stamped C) A → State (Stamped C)
  | .task i .run => match s.tasks[i]? with
    | some (.parking who c) =>
      { s with tasks := s.tasks.set i (.parking who { c with expiresAt }) }
    | _ => s
  | _ => s

/-- The connection that `get` has found or created. -/
def Task.fetched : Task C → Option C
  | .checkout c => some c
  | _ => none

/-- The connection that is handed out as a task goes from `t` to `t'`. -/
def handout (t t' : Task C) : Signal C → Option C
  | .send _ c => some c
  | _ => if t.conn.isNone then t'.fetched else none

/-- The connection that is handed out in a step. -/
def State.handout (cfg : Config) (P : Poolable C A) (s : State C) : Label C A → Option C
  | .task i e => do
    let t ← s.tasks[i]?
    let (_, t', signal) ← react cfg P s.live i s.shared t e
    Pool.handout t t' signal
  | _ => none

/-- The pool at a time, and what it has handed out so far and when. -/
structure Timed (C : Type) where
  pool : State (Stamped C)
  now : ℕ
  handed : List (Stamped C × ℕ)

/-- Time passes, or something happens; `rand` is the next value of `fastrand_u64`. -/
inductive TimedLabel (C A : Type) where
  | wait (duration : ℕ)
  | act (l : Label C A) (rand : ℕ)

/-- The pool as the step finds it. -/
def Timed.found (s : Timed C) (expiresAt : ℕ) (l : Label (Stamped C) A) : State (Stamped C) :=
  (s.pool.refresh s.now).restamp expiresAt l

/-- The pool with its clock. -/
def timed (cfg : Config) (P : Poolable C A) (life : Lifetime) : LTS (Timed C) (TimedLabel C A) where
  step s
  | .wait duration => some { s with now := s.now + duration }
  | .act l rand => (l.stamp s.now (s.now + life.draw rand)).bind fun l' =>
    let pool := s.found (s.now + life.draw rand) l'
    (step cfg P.stamped pool l').map fun pool' =>
      ⟨pool', s.now, s.handed ++ ((pool.handout cfg P.stamped l').map (·, s.now)).toList⟩

/-- What `ConnPool::new` can return: the connections of the pre-fill have their deadlines from
`create_connection`. -/
def Timed.Fresh (cfg : Config) (P : Poolable C A) (life : Lifetime) (s : Timed C) : Prop :=
  s.pool.Fresh cfg P.stamped ∧ s.handed = [] ∧
    ∀ e ∈ s.pool.shared.idle, ∃ rand, e.conn.expiresAt = e.conn.created + life.draw rand

/-- The step parks no connection with a deadline behind the bound, and sends no connection to a
waiter that is older. -/
def punctual (life : Lifetime) (s : Timed C) : TimedLabel C A → Bool
  | .act (.task i .run) rand => match s.pool.tasks[i]? with
    | some (.parking _ c) => s.now + life.draw rand ≤ c.created + life.bound
    | some (.handing _ c) => s.now ≤ c.created + life.bound ||
      (popLive s.pool.live s.pool.shared.waiters).isNone
    | _ => true
  | _ => true

/-! ### The bound -/

/-- The connection is not handed out by `try_get_idle` when it is older than `bound`. -/
def Stamped.Within (bound : ℕ) (c : Stamped C) : Prop := c.expiresAt ≤ c.created + bound

/-- The connection that `warm_up` is about to push has its deadline already. -/
def Task.Within (bound : ℕ) : Task (Stamped C) → Prop
  | .warmPush _ c => c.Within bound
  | _ => True

/-- No connection is kept on the idle list for too long. -/
structure State.Within (bound : ℕ) (s : State (Stamped C)) : Prop where
  idle : ∀ e ∈ s.shared.idle, e.conn.Within bound
  tasks : ∀ t ∈ s.tasks, t.Within bound

section Moves

variable {cfg : Config} {P : Poolable C A} {bound now expiresAt : ℕ} {live : ℕ → Bool} {i : ℕ}
  {s shared : Shared (Stamped C)} {e : Event (Stamped C) A} {t t' : Task (Stamped C)}
  {signal : Signal (Stamped C)}

theorem within_plain (h : t.Plain) : t.Within bound := by cases h <;> trivial

theorem within_drift {c c' : Stamped C} {a : A} (h : P.stamped.drift c a = some c') :
    c'.created = c.created ∧ c'.expiresAt = c.expiresAt := by
  obtain ⟨conn, -, rfl⟩ := Option.map_eq_some_iff.1 h
  exact ⟨rfl, rfl⟩

theorem Stamped.Within.drift {c c' : Stamped C} {a : A} (h : P.stamped.drift c a = some c')
    (hc : c.Within bound) : c'.Within bound := by
  obtain ⟨hcreated, hexpires⟩ := within_drift h
  unfold Stamped.Within
  rw [hcreated, hexpires]
  exact hc

theorem Move.within (hm : Move cfg P.stamped live i s t e shared t' signal) (ht : t.Within bound)
    (hnew : ∀ c, e = .connected c → c.Within bound) : t'.Within bound := by
  cases hm with
  | undo => exact within_plain (refused_plain _)
  | destroy => exact within_plain (destroyed_plain _ _)
  | hand | park => exact within_plain (over_plain _)
  | warmStart | warmCount => exact within_plain (warmLoop_plain _)
  | refillStart => exact within_plain (refillLoop_plain _)
  | @created who => cases who <;> trivial
  | warmConnected => exact hnew _ rfl
  | drift hc hd =>
    cases t with
    | warmPush => cases hc; exact ht.drift hd
    | parked slot _ => cases slot <;> trivial
    | _ => trivial
  | _ => trivial

theorem Move.within_idle (hm : Move cfg P.stamped live i s t e shared t' signal)
    (ht : t.Within bound) (hidle : ∀ x ∈ s.idle, x.conn.Within bound)
    (hpark : ∀ who c, t = .parking who c → e = .run → c.Within bound) :
    ∀ x ∈ shared.idle, x.conn.Within bound := by
  have push {c : Stamped C} (hc : c.Within bound) :
      ∀ x ∈ s.idle ++ [⟨c, false⟩], x.conn.Within bound := by
    intro x hx
    rcases List.mem_append.1 hx with hx | hx
    · exact hidle x hx
    · rw [List.mem_singleton.1 hx]
      exact hc
  cases hm with
  | scanUsable h | scanDiscard h => exact fun x hx => hidle x (by simp [h, hx])
  | park => exact push (hpark _ _ rfl rfl)
  | warmPush => exact push ht
  | evict => exact fun x hx => hidle x (List.mem_filter.1 hx).1
  | drainIdle => exact fun x hx => absurd hx List.not_mem_nil
  | _ => exact hidle

theorem fetched_plain (h : t.Plain) : t.fetched = none := by cases h <;> rfl

/-- What is handed out comes from the idle list, is new, or goes to a waiter. -/
theorem Move.handout_cases (hm : Move cfg P.stamped live i s t e shared t' signal) {c : Stamped C}
    (h : handout t t' signal = some c) :
    (∃ x ∈ s.idle, x.conn = c ∧ x.expired = false) ∨ e = .connected c ∨
      ∃ who, t = .handing who c ∧ e = .run ∧ popLive live s.waiters ≠ none := by
  cases hm with
  | @scanUsable x rest hidle hu =>
    cases h
    refine .inl ⟨x, by simp [hidle], rfl, ?_⟩
    simp only [usable, Bool.and_eq_true, Bool.not_eq_true'] at hu
    exact hu.1
  | @created who =>
    cases who <;> cases h
    exact .inr (.inl rfl)
  | hand hp =>
    cases h
    exact .inr (.inr ⟨_, rfl, rfl, by simp [hp]⟩)
  | undo => simp [handout, fetched_plain (refused_plain _)] at h
  | destroy => simp [handout, fetched_plain (destroyed_plain _ _)] at h
  | park => simp [handout, fetched_plain (over_plain _)] at h
  | warmStart | warmCount => simp [handout, fetched_plain (warmLoop_plain _)] at h
  | refillStart => simp [handout, fetched_plain (refillLoop_plain _)] at h
  | drift hc => simp [handout, hc] at h
  | _ => simp [handout, Task.fetched, Task.conn] at h

end Moves

section Steps

variable {cfg : Config} {P : Poolable C A} {life : Lifetime} {bound : ℕ}

theorem restamp_shared (expiresAt : ℕ) (s : State (Stamped C)) (l : Label (Stamped C) A) :
    (s.restamp expiresAt l).shared = s.shared := by
  unfold State.restamp
  split
  · split <;> rfl
  · rfl

/-- Only a connection that is about to be pushed gets a new stamp. -/
theorem restamp_task {expiresAt : ℕ} {s : State (Stamped C)} {l : Label (Stamped C) A} {k : ℕ}
    {u : Task (Stamped C)} (h : (s.restamp expiresAt l).tasks[k]? = some u) :
    s.tasks[k]? = some u ∧ (∀ who c, l = .task k .run → u ≠ .parking who c) ∨
      ∃ who c, l = .task k .run ∧ s.tasks[k]? = some (.parking who c) ∧
        u = .parking who { c with expiresAt } := by
  unfold State.restamp at h
  split at h
  · rename_i i
    split at h
    · rename_i who c hc
      rcases getElem?_set_cases h with ⟨rfl, rfl⟩ | ⟨hne, h⟩
      · exact .inr ⟨who, c, rfl, hc, rfl⟩
      · refine .inl ⟨h, fun who' c' hl => ?_⟩
        cases hl
        exact absurd rfl hne
    · rename_i hnot
      refine .inl ⟨h, fun who c hl hu => ?_⟩
      cases hl
      exact hnot who c (hu ▸ h)
  · rename_i hnot
    exact .inl ⟨h, fun who c hl => absurd hl (hnot k)⟩

theorem mem_refresh {now : ℕ} {s : State (Stamped C)} {x : IdleConn (Stamped C)} :
    x ∈ (s.refresh now).shared.idle ↔
      ∃ e ∈ s.shared.idle, x = { e with expired := e.conn.expiresAt ≤ now } := by
  simp only [State.refresh, State.setIdle, List.mem_map, eq_comm]

theorem found_shared (s : Timed C) (expiresAt : ℕ) (l : Label (Stamped C) A) :
    (s.found expiresAt l).shared = (s.pool.refresh s.now).shared := restamp_shared _ _ l

theorem found_idle {s : Timed C} {expiresAt : ℕ} {l : Label (Stamped C) A}
    (h : ∀ e ∈ s.pool.shared.idle, e.conn.Within bound) :
    ∀ e ∈ (s.found expiresAt l).shared.idle, e.conn.Within bound := by
  intro x hx
  rw [found_shared] at hx
  obtain ⟨e, he, rfl⟩ := mem_refresh.1 hx
  exact h e he

theorem found_tasks {s : Timed C} {expiresAt : ℕ} {l : Label (Stamped C) A}
    (h : ∀ t ∈ s.pool.tasks, t.Within bound) :
    ∀ t ∈ (s.found expiresAt l).tasks, t.Within bound := by
  intro t ht
  obtain ⟨k, hk⟩ := List.mem_iff_getElem?.1 ht
  rcases restamp_task hk with ⟨hk, -⟩ | ⟨who, c, -, -, rfl⟩
  · exact h t (List.mem_of_getElem? hk)
  · trivial

/-- The tasks after a step. -/
theorem within_tasks {s s' : State (Stamped C)} {l : Label (Stamped C) A}
    (hst : step cfg P.stamped s l = some s') (h : ∀ t ∈ s.tasks, t.Within bound)
    (hnew : ∀ i c, l = .task i (.connected c) → c.Within bound) :
    ∀ t ∈ s'.tasks, t.Within bound := by
  have spawn {t : Task (Stamped C)} (ht : t.Within bound) :
      ∀ u ∈ (s.spawn t).tasks, u.Within bound := by
    intro u hu
    rcases List.mem_append.1 hu with hu | hu
    · exact h u hu
    · rw [List.mem_singleton.1 hu]
      exact ht
  cases step_cases hst with
  | get | warmUp | drain => exact spawn trivial
  | expire | drift => exact h
  | @move i e t t' shared signal ht hm =>
    intro u hu
    obtain ⟨k, hk⟩ := List.mem_iff_getElem?.1 hu
    rcases task_after ht hm hk with
      ⟨-, rfl⟩ | ⟨-, v, hv, rfl | ⟨c, _, -, -, rfl⟩ | ⟨-, -, rfl⟩⟩
    · exact hm.within (h t (List.mem_of_getElem? ht)) fun c he => hnew i c (he ▸ rfl)
    · exact h u (List.mem_of_getElem? hv)
    · trivial
    · trivial

/-- The idle list after a step. -/
theorem within_idle {s s' : State (Stamped C)} {l : Label (Stamped C) A}
    (hst : step cfg P.stamped s l = some s') (htasks : ∀ t ∈ s.tasks, t.Within bound)
    (hidle : ∀ e ∈ s.shared.idle, e.conn.Within bound)
    (hpark : ∀ i who c, l = .task i .run → s.tasks[i]? = some (.parking who c) →
      c.Within bound) :
    ∀ e ∈ s'.shared.idle, e.conn.Within bound := by
  have set {k : ℕ} {x : IdleConn (Stamped C)} (hx : x.conn.Within bound) :
      ∀ e ∈ s.shared.idle.set k x, e.conn.Within bound := by
    intro e he
    rcases List.mem_or_eq_of_mem_set he with he | rfl
    · exact hidle e he
    · exact hx
  cases step_cases hst with
  | get | warmUp | drain => exact hidle
  | @expire k x he => exact set (show x.conn.Within bound from hidle x (List.mem_of_getElem? he))
  | drift he hc => exact set ((hidle _ (List.mem_of_getElem? he)).drift hc)
  | @move i e t t' shared signal ht hm =>
    refine hm.within_idle (htasks t (List.mem_of_getElem? ht)) hidle fun who c htc he => ?_
    subst htc he
    exact hpark i who c rfl ht

/-- What a step hands out. -/
theorem handout_cases {s : State (Stamped C)} {l : Label (Stamped C) A} {c : Stamped C}
    (h : s.handout cfg P.stamped l = some c) :
    (∃ x ∈ s.shared.idle, x.conn = c ∧ x.expired = false) ∨
      (∃ i, l = .task i (.connected c)) ∨
      ∃ i who, l = .task i .run ∧ s.tasks[i]? = some (.handing who c) ∧
        popLive s.live s.shared.waiters ≠ none := by
  cases l with
  | task i e =>
    simp only [State.handout, Option.bind_eq_bind] at h
    obtain ⟨t, ht, h⟩ := Option.bind_eq_some_iff.1 h
    obtain ⟨⟨shared, t', signal⟩, hr, h⟩ := Option.bind_eq_some_iff.1 h
    rcases (move_of_react hr).handout_cases h with hx | rfl | ⟨who, rfl, rfl, hp⟩
    · exact .inl hx
    · exact .inr (.inl ⟨i, rfl⟩)
    · exact .inr (.inr ⟨i, who, rfl, ht, hp⟩)
  | _ => cases h

theorem stamp_connected {l : Label C A} {now expiresAt i : ℕ} {c : Stamped C}
    (h : l.stamp now expiresAt = some (.task i (.connected c))) :
    c.created = now ∧ c.expiresAt = expiresAt := by
  cases l with
  | task j e =>
    cases e with
    | connected conn => cases h; exact ⟨rfl, rfl⟩
    | _ => cases h
  | _ => cases h

theorem stamp_run {l : Label C A} {now expiresAt i : ℕ}
    (h : l.stamp now expiresAt = some (.task i .run)) : l = .task i .run := by
  cases l with
  | task j e =>
    cases e with
    | run => cases h; rfl
    | _ => cases h
  | _ => cases h

theorem restamp_of_ne {expiresAt i : ℕ} {s : State (Stamped C)}
    (h : ∀ who c, s.tasks[i]? ≠ some (.parking who c)) :
    s.restamp expiresAt (.task i .run : Label (Stamped C) A) = s := by
  simp only [State.restamp]

end Steps

/-! ### Runs -/

/-- What the pool keeps will not be handed out too late, and nothing was. -/
structure Timed.InTime (life : Lifetime) (s : Timed C) : Prop where
  idle : ∀ e ∈ s.pool.shared.idle, e.conn.Within life.bound
  handed : ∀ p ∈ s.handed, p.2 ≤ p.1.created + life.bound

section Runs

variable {cfg : Config} {P : Poolable C A} {life : Lifetime} {s s' s₀ : Timed C}
  {l : TimedLabel C A}

theorem act_cases {l : Label C A} {rand : ℕ}
    (h : (timed cfg P life).step s (.act l rand) = some s') :
    ∃ l' pool', l.stamp s.now (s.now + life.draw rand) = some l' ∧
      step cfg P.stamped (s.found (s.now + life.draw rand) l') l' = some pool' ∧
      s' = ⟨pool', s.now, s.handed ++ (((s.found (s.now + life.draw rand) l').handout cfg
        P.stamped l').map (·, s.now)).toList⟩ := by
  obtain ⟨l', hl, hst⟩ := Option.bind_eq_some_iff.1 h
  obtain ⟨pool', hpool, rfl⟩ := Option.map_eq_some_iff.1 hst
  exact ⟨l', pool', hl, hpool, rfl⟩

theorem Timed.within_tasks (hlife : life.Proper)
    (hst : (timed cfg P life).step s l = some s')
    (h : ∀ t ∈ s.pool.tasks, t.Within life.bound) : ∀ t ∈ s'.pool.tasks, t.Within life.bound := by
  cases l with
  | wait duration => cases hst; exact h
  | act l rand =>
    obtain ⟨l', pool', hl, hpool, rfl⟩ := act_cases hst
    refine Pool.within_tasks hpool (found_tasks h) fun i c hc => ?_
    obtain ⟨hcreated, hexpires⟩ := stamp_connected (hc ▸ hl)
    unfold Stamped.Within
    rw [hcreated, hexpires]
    exact Nat.add_le_add_left (Lifetime.draw_le hlife rand) _

/-- What the guard says about a connection that is parked. -/
theorem within_of_punctual {i rand : ℕ} {who : Giver (Stamped C)} {c : Stamped C}
    (hp : punctual life s (.act (.task i .run : Label C A) rand) = true)
    (hc : (s.found (s.now + life.draw rand) (.task i .run : Label (Stamped C) A)).tasks[i]? =
      some (.parking who c)) : c.Within life.bound := by
  rcases restamp_task hc with ⟨-, hnot⟩ | ⟨who', c', -, hc', heq⟩
  · exact absurd rfl (hnot who c rfl)
  · cases heq
    have htask : s.pool.tasks[i]? = some (.parking who c') := hc'
    simpa [punctual, htask, Stamped.Within] using hp

/-- What the guard says about a connection that is sent. -/
theorem age_of_punctual {i rand : ℕ} {who : Giver (Stamped C)} {c : Stamped C}
    (hp : punctual life s (.act (.task i .run : Label C A) rand) = true)
    (hc : (s.found (s.now + life.draw rand) (.task i .run : Label (Stamped C) A)).tasks[i]? =
      some (.handing who c))
    (hsome : popLive (s.found (s.now + life.draw rand) (.task i .run : Label (Stamped C) A)).live
      s.pool.shared.waiters ≠ none) : s.now ≤ c.created + life.bound := by
  rcases restamp_task hc with ⟨hc', -⟩ | ⟨who', c', -, -, heq⟩
  · have htask : s.pool.tasks[i]? = some (.handing who c) := hc'
    have hfound : s.found (s.now + life.draw rand) (.task i .run : Label (Stamped C) A) =
        s.pool.refresh s.now := restamp_of_ne fun who c h => by cases hc'.symm.trans h
    rw [hfound] at hsome
    have hlive : (s.pool.refresh s.now).live = s.pool.live := rfl
    rw [hlive] at hsome
    simpa [punctual, htask, hsome] using hp
  · cases heq

/-- A punctual step keeps the bounds. -/
theorem Timed.InTime.step (htasks : ∀ t ∈ s.pool.tasks, t.Within life.bound)
    (h : s.InTime life) (hp : punctual life s l = true)
    (hst : (timed cfg P life).step s l = some s') : s'.InTime life := by
  cases l with
  | wait duration => cases hst; exact ⟨h.idle, h.handed⟩
  | act l rand =>
    obtain ⟨l', pool', hl, hpool, rfl⟩ := act_cases hst
    refine ⟨Pool.within_idle hpool (found_tasks htasks) (found_idle h.idle)
      fun i who c hrun hc => ?_,
      fun p hmem => ?_⟩
    · subst hrun
      obtain rfl := stamp_run hl
      exact within_of_punctual hp hc
    · rcases List.mem_append.1 hmem with hmem | hmem
      · exact h.handed p hmem
      · rw [Option.mem_toList] at hmem
        obtain ⟨c, hc, rfl⟩ := Option.map_eq_some_iff.1 hmem
        rcases handout_cases hc with ⟨x, hx, rfl, hexpired⟩ | ⟨i, hi⟩ | ⟨i, who, hrun, hc, hsome⟩
        · rw [found_shared] at hx
          obtain ⟨e, he, rfl⟩ := mem_refresh.1 hx
          have hwithin : e.conn.expiresAt ≤ e.conn.created + life.bound := h.idle e he
          have hlt : ¬ e.conn.expiresAt ≤ s.now := by simpa using hexpired
          change s.now ≤ e.conn.created + life.bound
          omega
        · obtain ⟨hcreated, -⟩ := stamp_connected (hi ▸ hl)
          change s.now ≤ c.created + life.bound
          omega
        · subst hrun
          obtain rfl := stamp_run hl
          rw [found_shared] at hsome
          exact age_of_punctual hp hc hsome

/-- A connection that is parked is on the idle list, with its new deadline. -/
theorem parked_mem {i rand : ℕ} {who : Giver (Stamped C)} {c : Stamped C}
    (hc : s.pool.tasks[i]? = some (.parking who c))
    (hst : (timed cfg P life).step s (.act (.task i .run) rand) = some s') :
    ∃ e ∈ s'.pool.shared.idle, e.conn = { c with expiresAt := s.now + life.draw rand } := by
  obtain ⟨l', pool', hl, hpool, rfl⟩ := act_cases hst
  obtain rfl : l' = (.task i .run : Label (Stamped C) A) := (Option.some.inj hl).symm
  have hlt := (List.getElem?_eq_some_iff.1 hc).1
  have htask : (s.found (s.now + life.draw rand) (.task i .run : Label (Stamped C) A)).tasks[i]? =
      some (.parking who { c with expiresAt := s.now + life.draw rand }) := by
    have hrefresh : (s.pool.refresh s.now).tasks[i]? = some (.parking who c) := hc
    simp only [Timed.found, State.restamp, hrefresh]
    exact List.getElem?_set_self hlt
  simp only [step, htask, react, advance, go] at hpool
  obtain ⟨p, hp, rfl⟩ := Option.map_eq_some_iff.1 hpool
  split_ifs at hp
  cases hp
  exact ⟨_, List.mem_append_right _ (List.mem_singleton_self _), rfl⟩

/-- A connection that is sent has been handed out. -/
theorem sent_mem {i rand : ℕ} {who : Giver (Stamped C)} {c : Stamped C}
    (hc : s.pool.tasks[i]? = some (.handing who c))
    (hsome : popLive s.pool.live s.pool.shared.waiters ≠ none)
    (hst : (timed cfg P life).step s (.act (.task i .run) rand) = some s') :
    (c, s.now) ∈ s'.handed := by
  obtain ⟨l', pool', hl, hpool, rfl⟩ := act_cases hst
  obtain rfl : l' = (.task i .run : Label (Stamped C) A) := (Option.some.inj hl).symm
  have hfound : s.found (s.now + life.draw rand) (.task i .run : Label (Stamped C) A) =
      s.pool.refresh s.now := restamp_of_ne fun who c h => by cases hc.symm.trans h
  obtain ⟨⟨j, rest⟩, hpop⟩ := Option.ne_none_iff_exists'.1 hsome
  have hrefresh : (s.pool.refresh s.now).tasks[i]? = some (.handing who c) := hc
  have hpop' : popLive (s.pool.refresh s.now).live (s.pool.refresh s.now).shared.waiters =
      some (j, rest) := hpop
  have hout : (s.pool.refresh s.now).handout cfg P.stamped (.task i .run) = some c := by
    simp only [State.handout, hrefresh, react, advance, hpop', Option.bind_eq_bind,
      Option.bind_some,
      handout]
  refine List.mem_append_right _ ?_
  rw [hfound, hout]
  exact List.mem_singleton_self _

/-- **The condition is exact**: a step that is not punctual breaks a bound. -/
theorem punctual_iff (htasks : ∀ t ∈ s.pool.tasks, t.Within life.bound) (h : s.InTime life)
    (hst : (timed cfg P life).step s l = some s') : s'.InTime life ↔ punctual life s l = true := by
  refine ⟨fun h' => ?_, fun hp => h.step htasks hp hst⟩
  unfold punctual
  split
  · split
    · rename_i hc
      obtain ⟨e, he, heq⟩ := parked_mem hc hst
      have hwithin := h'.idle e he
      rw [heq] at hwithin
      simpa [Stamped.Within] using hwithin
    · rename_i hc
      by_cases hnone : popLive s.pool.live s.pool.shared.waiters = none
      · simp [hnone]
      · simpa using .inl (h'.handed _ (sent_mem hc hnone hst))
    · rfl
  · rfl

theorem Timed.Fresh.within_tasks (h : s₀.Fresh cfg P life) :
    ∀ t ∈ s₀.pool.tasks, t.Within life.bound := by
  obtain ⟨⟨conns, hnew, -⟩, -⟩ := h
  intro t ht
  rw [hnew] at ht
  rw [List.mem_singleton.1 ht]
  trivial

theorem Timed.Fresh.inTime (hlife : life.Proper) (h : s₀.Fresh cfg P life) : s₀.InTime life where
  idle e he := by
    obtain ⟨rand, hrand⟩ := h.2.2 e he
    unfold Stamped.Within
    rw [hrand]
    exact Nat.add_le_add_left (Lifetime.draw_le hlife rand) _
  handed p hp := by
    rw [h.2.1] at hp
    cases hp

/-- **The age of a connection.**  In every run of punctual steps, nothing is handed out later than
`max_lifetime` and the jitter after its creation. -/
theorem handed_in_time (hlife : life.Proper) (h₀ : s₀.Fresh cfg P life)
    (h : ((timed cfg P life).guard fun s l => punctual life s l = true).Reachable s₀ s) :
    ∀ p ∈ s.handed, p.2 ≤ p.1.created + life.bound := by
  have hinv : (∀ t ∈ s.pool.tasks, t.Within life.bound) ∧ s.InTime life := by
    refine h.guard_invariant (I := fun s => (∀ t ∈ s.pool.tasks, t.Within life.bound) ∧
      s.InTime life) ⟨h₀.within_tasks, h₀.inTime hlife⟩ fun s l s' hs hp hst => ?_
    exact ⟨Timed.within_tasks hlife hst hs.1, hs.2.step hs.1 hp hst⟩
  exact hinv.2.handed

/-- A run keeps the bounds if and only if its steps are punctual. -/
theorem along_inTime_iff (hlife : life.Proper) (h₀ : s₀.Fresh cfg P life)
    {ls : List (TimedLabel C A)} (h : (timed cfg P life).exec s₀ ls = some s) :
    (timed cfg P life).Along (Timed.InTime life) s₀ ls ↔
      ((timed cfg P life).guard fun s l => punctual life s l = true).exec s₀ ls = some s :=
  LTS.along_iff_exec_guard (R := fun s => ∀ t ∈ s.pool.tasks, t.Within life.bound)
    (fun _ _ _ hs hst => Timed.within_tasks hlife hst hs)
    (fun _ _ _ hs hI hst => punctual_iff hs hI hst) h₀.within_tasks (h₀.inTime hlife) h

end Runs

/-! ### A connection that is used twice -/

/-- The defaults of `ConnPoolConfig`: half an hour and a minute. -/
def Lifetime.default : Lifetime := ⟨1800000000000, 60000000000⟩

/-- A pool of one connection. -/
def single : Config := ⟨0, 1, true, false⟩

/-- The task `i` goes on `n` times. -/
def timedRuns (i n : ℕ) : List (TimedLabel C A) := (runs i n).map (.act · 0)

/-- A connection is made, returned after `d` minutes, and handed out again after another `d`. -/
def usedTwice (d : ℕ) : List (TimedLabel Unit Empty) :=
  [.act .get 0] ++ timedRuns 1 5 ++ [.act (.task 1 (.connected ())) 0] ++ timedRuns 1 1 ++
    [.wait (d * 60000000000), .act (.task 1 .drop) 0] ++ timedRuns 1 6 ++
    [.wait (d * 60000000000), .act .get 0] ++ timedRuns 2 3

theorem fresh_empty : Timed.Fresh single steady .default ⟨State.new [], 0, []⟩ :=
  ⟨⟨[], rfl, Nat.zero_le _, List.forall_mem_nil _⟩, rfl, List.forall_mem_nil _⟩

theorem handed_in_time_usedTwice : ∃ s : Timed Unit, s.handed.map (·.2) = [0, 120000000000] ∧
    ∀ p ∈ s.handed, p.2 ≤ p.1.created + Lifetime.default.bound := by
  have htest : (((timed single steady .default).guard
      fun s l => punctual .default s l = true).exec ⟨State.new [], 0, []⟩ (usedTwice 1)).any
        (fun s => s.handed.map (·.2) = [0, 120000000000]) = true := by decide
  obtain ⟨s, hreach, hs⟩ := LTS.reachable_of_test htest
  exact ⟨s, of_decide_eq_true hs, handed_in_time (.inr (by decide)) fresh_empty hreach⟩

/-- The connection is forty minutes old when it is handed out again. -/
theorem exists_overdue : ∃ s₀ s : Timed Unit, s₀.Fresh single steady .default ∧
    (timed single steady .default).Reachable s₀ s ∧
    ∃ p ∈ s.handed, p.1.created + Lifetime.default.bound < p.2 := by
  have htest : ((timed single steady .default).exec ⟨State.new [], 0, []⟩ (usedTwice 20)).any
      (fun s => s.handed.any fun p => p.1.created + Lifetime.default.bound < p.2) = true := by
    decide
  obtain ⟨s, hreach, hs⟩ := LTS.reachable_of_test htest
  obtain ⟨p, hp, hlt⟩ := List.any_eq_true.1 hs
  exact ⟨_, s, fresh_empty, hreach, p, hp, of_decide_eq_true hlt⟩

end Resolute.Pool
