import Resolute.LTS.Tally
import Resolute.Migrate.Server

/-!
# Migrations are applied once

The session that holds the lock is the only one that changes the database, and what it does from
there on is safe as a `Conversation` whatever becomes of its statements (`Runs`).  So the table
records exactly the migrations that are in effect, whenever a runner stops: every reachable database
is `Consistent`, and every call has done what it may do given what was recorded when it acquired the
lock (`applied_once`).
-/

namespace Resolute.Migrate

/-- The table records the migrations that are in effect; an up-script ran only when its migration
was not in effect, a down-script only for the greatest one that was. -/
structure Database.Consistent (db : Database) : Prop where
  nodup : db.versions.Nodup
  recorded : ∀ v, v ∈ db.versions ↔ InEffect v db.log
  once : ∀ l₁ i v l₂, db.log = l₁ ++ (i, .up v) :: l₂ → ¬ InEffect v l₁
  greatest : ∀ l₁ i v l₂, db.log = l₁ ++ (i, .down v) :: l₂ →
    InEffect v l₁ ∧ ∀ w, InEffect w l₁ → w ≤ v

/-- A run has applied an initial segment of what was pending, a revert at most the greatest recorded
version. -/
def Ordered (dir : Dir) (found : List ℤ) (es : List Effect) : Task → Prop
  | .run => es <+: (pending dir found).map .up
  | .revert => es = [] ∨ ∃ v ∈ found, (∀ w ∈ found, w ≤ v) ∧ es = [.down v]

/-! ### Logs -/

theorem concat_eq_append_cons {α : Type} {l l₁ l₂ : List α} {a b : α} :
    l ++ [a] = l₁ ++ b :: l₂ ↔
      (l₂ = [] ∧ l = l₁ ∧ a = b) ∨ ∃ l₃, l₂ = l₃ ++ [a] ∧ l = l₁ ++ b :: l₃ := by
  rcases List.eq_nil_or_concat l₂ with rfl | ⟨l₃, c, rfl⟩
  · simp
  · rw [List.concat_eq_append, ← List.cons_append, ← List.append_assoc, List.append_singleton_inj]
    constructor
    · rintro ⟨rfl, rfl⟩
      exact .inr ⟨l₃, rfl, rfl⟩
    · rintro (⟨hnil, -, -⟩ | ⟨l₄, heq, rfl⟩)
      · simp at hnil
      · obtain ⟨rfl, rfl⟩ := List.append_singleton_inj.1 heq
        exact ⟨rfl, rfl⟩

theorem inEffect_up {v w : ℤ} {i : ℕ} {log : List (ℕ × Effect)} :
    InEffect w (log ++ [(i, .up v)]) ↔ w = v ∨ InEffect w log := by
  constructor
  · rintro ⟨l₁, j, l₂, heq, hdown⟩
    rcases concat_eq_append_cons.1 heq with ⟨-, -, h⟩ | ⟨l₃, rfl, rfl⟩
    · cases h
      exact .inl rfl
    · exact .inr ⟨l₁, j, l₃, rfl, fun k hk => hdown k (List.mem_append_left _ hk)⟩
  · rintro (rfl | ⟨l₁, j, l₂, rfl, hdown⟩)
    · exact ⟨log, i, [], rfl, fun _ => List.not_mem_nil⟩
    · refine ⟨l₁, j, l₂ ++ [(i, .up v)], by simp, fun k hk => ?_⟩
      rcases List.mem_append.1 hk with hk | hk
      · exact hdown k hk
      · cases List.mem_singleton.1 hk

theorem inEffect_down {v w : ℤ} {i : ℕ} {log : List (ℕ × Effect)} :
    InEffect w (log ++ [(i, .down v)]) ↔ w ≠ v ∧ InEffect w log := by
  constructor
  · rintro ⟨l₁, j, l₂, heq, hdown⟩
    rcases concat_eq_append_cons.1 heq with ⟨-, -, h⟩ | ⟨l₃, rfl, rfl⟩
    · cases h
    · refine ⟨?_, l₁, j, l₃, rfl, fun k hk => hdown k (List.mem_append_left _ hk)⟩
      rintro rfl
      exact hdown i (List.mem_append_right _ (List.mem_singleton_self _))
  · rintro ⟨hne, l₁, j, l₂, rfl, hdown⟩
    refine ⟨l₁, j, l₂ ++ [(i, .down v)], by simp, fun k hk => ?_⟩
    rcases List.mem_append.1 hk with hk | hk
    · exact hdown k hk
    · cases List.mem_singleton.1 hk
      exact hne rfl

theorem own_concat (i j : ℕ) (e : Effect) (log : List (ℕ × Effect)) :
    own j (log ++ [(i, e)]) = own j log ++ if i = j then [e] else [] := by
  rw [own, List.filterMap_append, ← own]
  split_ifs with h <;> simp [h]

/-! ### The database -/

namespace Database

variable {db : Database}

/-- The table and the log after a migration. -/
theorem Consistent.up (h : db.Consistent) {i : ℕ} {row : Row} {rows : List Row}
    (htable : db.table = some rows) (hnew : row.version ∉ rows.map (·.version)) :
    Consistent ⟨some (rows ++ [row]), db.log ++ [(i, .up row.version)]⟩ := by
  have hversions : db.versions = rows.map (·.version) := by rw [versions, htable, Option.getD_some]
  have hout : ¬ InEffect row.version db.log := fun hin =>
    hnew (hversions ▸ (h.recorded row.version).2 hin)
  refine ⟨?_, fun v => ?_, fun l₁ j v l₂ heq => ?_, fun l₁ j v l₂ heq => ?_⟩
  · simp only [versions, Option.getD_some, List.map_append, List.map_singleton]
    exact List.Nodup.append (hversions ▸ h.nodup) (List.nodup_singleton _) (by simpa using hnew)
  · rw [inEffect_up, ← h.recorded, hversions]
    simp [versions, or_comm]
  · rcases concat_eq_append_cons.1 heq with ⟨-, rfl, hlast⟩ | ⟨l₃, -, hlog⟩
    · cases hlast
      exact hout
    · exact h.once l₁ j v l₃ hlog
  · rcases concat_eq_append_cons.1 heq with ⟨-, -, hlast⟩ | ⟨l₃, -, hlog⟩
    · cases hlast
    · exact h.greatest l₁ j v l₃ hlog

/-- The table and the log after a revert. -/
theorem Consistent.down (h : db.Consistent) {i : ℕ} {v : ℤ} {rows : List Row}
    (htable : db.table = some rows) (hmem : v ∈ rows.map (·.version))
    (hmax : ∀ w ∈ rows.map (·.version), w ≤ v) :
    Consistent ⟨some (rows.filter (·.version ≠ v)), db.log ++ [(i, .down v)]⟩ := by
  have hversions : db.versions = rows.map (·.version) := by rw [versions, htable, Option.getD_some]
  refine ⟨?_, fun w => ?_, fun l₁ j w l₂ heq => ?_, fun l₁ j w l₂ heq => ?_⟩
  · exact List.Nodup.sublist (List.filter_sublist.map _) (hversions ▸ h.nodup)
  · rw [inEffect_down, ← h.recorded, hversions]
    simp only [versions, Option.getD_some, List.mem_map, List.mem_filter, decide_eq_true_eq]
    constructor
    · rintro ⟨row, ⟨hrow, hne⟩, rfl⟩
      exact ⟨hne, row, hrow, rfl⟩
    · rintro ⟨hne, row, hrow, rfl⟩
      exact ⟨row, ⟨hrow, hne⟩, rfl⟩
  · rcases concat_eq_append_cons.1 heq with ⟨-, -, hlast⟩ | ⟨l₃, -, hlog⟩
    · cases hlast
    · exact h.once l₁ j w l₃ hlog
  · rcases concat_eq_append_cons.1 heq with ⟨-, rfl, hlast⟩ | ⟨l₃, -, hlog⟩
    · cases hlast
      rw [← h.recorded, hversions]
      exact ⟨hmem, fun w hw => hmax w (hversions ▸ (h.recorded w).2 hw)⟩
    · exact h.greatest l₁ j w l₃ hlog

@[simp] theorem versions_createTable (i : ℕ) :
    (db.apply i .createTable).versions = db.versions := rfl

theorem Consistent.createTable (h : db.Consistent) (i : ℕ) :
    (db.apply i .createTable).Consistent := ⟨h.nodup, h.recorded, h.once, h.greatest⟩

end Database

/-! ### One statement behind the lock -/

/-- What holds of the database as long as session `i` has the lock. -/
def Kept (i : ℕ) (task : Task) (dir : Dir) (found : List ℤ) (x : Server) : Prop :=
  x.db.Consistent ∧ Ordered dir found (own i x.db.log) task

/-- The server's responses to session `i`. -/
def Answers (i : ℕ) (x : Server) (st : Stmt) (r : Reply) (x' : Server) : Prop :=
  ∃ fate, x.answer i st fate = some (x', r)

/-- `d` is safe behind the lock, and still has it at the end; `Q` holds if it succeeds. -/
def Runs (i : ℕ) (task : Task) (dir : Dir) (found : List ℤ) {α : Type} (Q : α → Server → Prop)
    (d : Client α) (x : Server) : Prop :=
  d.Safe (Kept i task dir found) (·.lock = some i) (Answers i)
    (fun r x => x.lock = some i ∧ ∀ a, r = .ok a → Q a x) x

namespace Server

variable {i : ℕ} {st : Stmt} {x x' : Server} {r : Reply}

@[simp] theorem abort_db (x : Server) : x.abort.db = x.db := by unfold abort; split <;> rfl

@[simp] theorem abort_lock (x : Server) : x.abort.lock = x.lock := by unfold abort; split <;> rfl

@[simp] theorem write_lock (i : ℕ) (w : Write) (x : Server) : (x.write i w).lock = x.lock := by
  unfold write; split <;> rfl

/-- Only two statements touch the lock. -/
theorem perform_lock (h : x.perform i st = some (x', r)) (hlock : st ≠ .lock)
    (hunlock : st ≠ .unlock) : x'.lock = x.lock := by
  cases st <;> simp only [perform, fail, Option.some.injEq, Prod.mk.injEq] at h
  case lock => exact absurd rfl hlock
  case unlock => exact absurd rfl hunlock
  case selectVersions | selectLast | delete => split at h <;> cases h <;> simp
  case insert =>
    split at h
    · split_ifs at h <;> cases h <;> simp
    · cases h; simp
    · cases h; simp
  all_goals (obtain ⟨rfl, rfl⟩ := h; simp)

/-- A statement that fails changes nothing. -/
theorem perform_error {e : PgWireError} (h : x.perform i st = some (x', .error e)) :
    x'.db = x.db := by
  cases st <;> simp only [perform, fail, Option.some.injEq, Prod.mk.injEq, reduceCtorEq,
    and_false] at h
  case lock => split_ifs at h; cases h
  case selectVersions | selectLast | delete => split at h <;> cases h; simp
  case insert =>
    split at h
    · split_ifs at h <;> cases h; simp
    · cases h; simp
    · cases h; simp

/-- A response reports what was done, or an error. -/
theorem answer_cases (h : Answers i x st r x') :
    x.perform i st = some (x', r) ∨
      (∃ r', x.perform i st = some (x', r')) ∧ (∃ e, r = .error e) ∨
      (x'.db = x.db ∧ x'.lock = x.lock) ∧ ∃ e, r = .error e := by
  obtain ⟨fate, h⟩ := h
  unfold answer at h
  by_cases haborted : x.tx = .failed ∧ st ≠ .commit ∧ st ≠ .rollback
  · rw [if_pos haborted] at h
    cases h
    exact .inr (.inr ⟨⟨abort_db x, abort_lock x⟩, _, rfl⟩)
  · rw [if_neg haborted] at h
    cases fate with
    | carriedOut => exact .inl h
    | failed e =>
      obtain ⟨rfl, rfl⟩ := Prod.mk.inj (Option.some.inj h)
      refine .inr (.inr ⟨?_, _, rfl⟩)
      split_ifs
      · exact ⟨rfl, rfl⟩
      · exact ⟨abort_db x, abort_lock x⟩
    | lost e =>
      obtain ⟨p, hp, heq⟩ := Option.map_eq_some_iff.1 h
      cases heq
      exact .inr (.inl ⟨⟨p.2, hp⟩, _, rfl⟩)

end Server

section Runs

variable {i : ℕ} {task : Task} {dir : Dir} {found : List ℤ} {α β : Type} {x : Server}

theorem Kept.of_db {x' : Server} (h : Kept i task dir found x) (hdb : x'.db = x.db) :
    Kept i task dir found x' := by
  unfold Kept
  rw [hdb]
  exact h

theorem Runs.pure {Q : α → Server → Prop} {a : α} (hkept : Kept i task dir found x)
    (hlock : x.lock = some i) (hQ : Q a x) : Runs i task dir found Q (pure a) x :=
  ⟨hkept, hlock, fun _ h => by cases h; exact hQ⟩

theorem Runs.lift {Q : α → Server → Prop} {r : Except TypedError α}
    (hkept : Kept i task dir found x) (hlock : x.lock = some i) (hQ : ∀ a, r = .ok a → Q a x) :
    Runs i task dir found Q (.lift r) x :=
  ⟨hkept, hlock, hQ⟩

theorem Runs.bind {Q : β → Server → Prop} {d : Client α} {f : α → Client β}
    (h : Runs i task dir found (fun a => Runs i task dir found Q (f a)) d x) :
    Runs i task dir found Q (d >>= f) x := by
  refine Conversation.Safe.bind (h.mono fun r x _ hr => ?_)
  cases r with
  | ok a => exact hr.2 a rfl
  | error e => exact ⟨hr.1, fun _ h => by cases h⟩

/-- A statement other than those on the lock. -/
theorem Runs.query {Q : List Row → Server → Prop} {st : Stmt} (hst : st ≠ .lock)
    (hst' : st ≠ .unlock) (hkept : Kept i task dir found x) (hlock : x.lock = some i)
    (h : ∀ x' rows, x.perform i st = some (x', .ok rows) → Kept i task dir found x' ∧ Q rows x') :
    Runs i task dir found Q (simpleQueryRows st) x := by
  refine ⟨hkept, hlock, fun r x' hr => ?_⟩
  have hperform : ∀ r', x.perform i st = some (x', r') →
      Kept i task dir found x' ∧ x'.lock = some i := fun r' hp => by
    refine ⟨?_, (Server.perform_lock hp hst hst').trans hlock⟩
    cases r' with
    | ok rows => exact (h x' rows hp).1
    | error e => exact hkept.of_db (Server.perform_error hp)
  rcases Server.answer_cases hr with hp | ⟨⟨r', hp⟩, e, rfl⟩ | ⟨⟨hdb, hlock'⟩, e, rfl⟩
  · obtain ⟨hkept', hlock'⟩ := hperform r hp
    cases r with
    | ok rows => exact ⟨hkept', hlock', fun _ heq => by cases heq; exact (h x' rows hp).2⟩
    | error e => exact ⟨hkept', hlock', fun _ heq => by cases heq⟩
  · obtain ⟨hkept', hlock'⟩ := hperform r' hp
    exact ⟨hkept', hlock', fun _ heq => by cases heq⟩
  · exact ⟨hkept.of_db hdb, hlock'.trans hlock, fun _ heq => by cases heq⟩

/-- `simple_query`, whose rows are not looked at. -/
theorem Runs.simpleQuery {Q : Unit → Server → Prop} {st : Stmt} (hst : st ≠ .lock)
    (hst' : st ≠ .unlock) (hkept : Kept i task dir found x) (hlock : x.lock = some i)
    (h : ∀ x' rows, x.perform i st = some (x', .ok rows) → Kept i task dir found x' ∧ Q () x') :
    Runs i task dir found Q (simpleQuery st) x := by
  refine Runs.bind (Conversation.Safe.mono (Runs.query (Q := fun _ => Q ()) hst hst' hkept hlock h)
    fun r x' hkept' hr => ⟨hr.1, fun rows heq => ?_⟩)
  exact Runs.pure hkept' hr.1 (hr.2 rows heq)

/-- A script in a transaction. -/
theorem Runs.runScript {Q : Unit → Server → Prop} {effect : Effect} {sql : String}
    {writes : List Write} (htx : x.tx = .active writes) (hkept : Kept i task dir found x)
    (hlock : x.lock = some i) (hQ : Q () { x with tx := .active (writes ++ [.effect effect]) }) :
    Runs i task dir found Q (runScript effect sql) x := by
  have hscript : Runs i task dir found Q (Migrate.simpleQuery (.script effect sql)) x :=
    Runs.simpleQuery (by simp) (by simp) hkept hlock fun x' rows hp => by
      simp only [Server.perform, Server.write, htx, Option.some.injEq, Prod.mk.injEq] at hp
      obtain ⟨rfl, -⟩ := hp
      exact ⟨hkept.of_db rfl, hQ⟩
  refine Conversation.Safe.attempt (hscript.mono fun r x' hkept' hr => ?_)
  cases r with
  | ok a => exact Runs.pure hkept' hr.1 (hr.2 a rfl)
  | error e =>
    have hrollback : Runs i task dir found (fun _ _ => True) (Migrate.simpleQuery .rollback) x' :=
      Runs.simpleQuery (by simp) (by simp) hkept' hr.1 fun x'' rows hp => by
        simp only [Server.perform, Option.some.injEq, Prod.mk.injEq] at hp
        obtain ⟨rfl, -⟩ := hp
        exact ⟨hkept'.of_db rfl, trivial⟩
    refine Conversation.Safe.attempt (hrollback.mono fun r x'' hkept'' hr' => ?_)
    cases r <;> exact ⟨hkept'', hr'.1, fun _ h => by cases h⟩

/-- A transaction that consists of a script and one change of the table. -/
theorem Runs.transaction {Q : α → Server → Prop} {effect : Effect} {sql : String} {st : Stmt}
    {d : Client α} (hst : st ≠ .lock) (hst' : st ≠ .unlock) (hidle : x.tx = .idle)
    (hkept : Kept i task dir found x) (hlock : x.lock = some i)
    (h : ∀ x' rows, Server.perform i st { x with tx := .active [.effect effect] } =
      some (x', .ok rows) → ∃ w, x'.db = x.db ∧ x'.tx = .active [.effect effect, w] ∧
        ∀ x'', x''.db = (x.db.apply i (.effect effect)).apply i w → x''.lock = some i →
          x''.tx = .idle → Kept i task dir found x'' ∧ Runs i task dir found Q d x'') :
    Runs i task dir found Q (do
      Migrate.simpleQuery .begin
      Migrate.runScript effect sql
      Migrate.simpleQuery st
      Migrate.simpleQuery .commit
      d) x := by
  refine Runs.bind (Runs.simpleQuery (by simp) (by simp) hkept hlock fun x₁ rows hp => ?_)
  simp only [Server.perform, hidle, if_true, Option.some.injEq, Prod.mk.injEq] at hp
  obtain ⟨rfl, -⟩ := hp
  refine ⟨hkept.of_db rfl, Runs.bind (Runs.runScript rfl (hkept.of_db rfl) hlock ?_)⟩
  refine Runs.bind (Runs.simpleQuery hst hst' (hkept.of_db rfl) hlock fun x₂ rows hp => ?_)
  obtain ⟨w, hdb, htx, hcommitted⟩ := h x₂ rows hp
  have hlock₂ : x₂.lock = some i := (Server.perform_lock hp hst hst').trans hlock
  refine ⟨hkept.of_db hdb, Runs.bind ?_⟩
  refine Runs.simpleQuery (by simp) (by simp) (hkept.of_db hdb) hlock₂ fun x₃ rows hp => ?_
  simp only [Server.perform, Server.visible, htx, hdb, List.foldl_cons, List.foldl_nil,
    Option.some.injEq, Prod.mk.injEq] at hp
  obtain ⟨rfl, -⟩ := hp
  exact hcommitted _ rfl hlock₂ rfl

/-! ### The calls behind the lock -/

/-- What a session that has applied the pending ones of `ms` has done. -/
def ups (found : List ℤ) (ms : List Migration) : List Effect :=
  ((ms.map (·.version)).filter (· ∉ found)).map .up

theorem ups_append (found : List ℤ) (ms ms' : List Migration) :
    ups found (ms ++ ms') = ups found ms ++ ups found ms' := by
  simp [ups]

theorem ordered_ups {ms ms' : List Migration} (hscan : scanMigrations dir = .ok (ms ++ ms')) :
    Ordered dir found (ups found ms) .run := by
  have hpending : (pending dir found).map .up = ups found (ms ++ ms') := by
    simp only [pending, hscan, Except.toOption, Option.getD_some, ups]
  rw [Ordered, hpending, ups_append]
  exact List.prefix_append _ _

/-- The loop of `run_inner`, by induction on the migrations that are left. -/
theorem runs_applyPending {applied : List ℤ} {ms ms' newly : List Migration}
    (hscan : scanMigrations dir = .ok (ms ++ ms')) (happlied : ∀ v, v ∈ applied ↔ v ∈ found)
    (hidle : x.tx = .idle) (hlock : x.lock = some i) (hdb : x.db.Consistent)
    (hown : own i x.db.log = ups found ms) :
    Runs i .run dir found (fun _ _ => True) (applyPending dir applied newly ms') x := by
  induction ms' generalizing ms newly x with
  | nil => exact Runs.pure ⟨hdb, hown ▸ ordered_ups hscan⟩ hlock trivial
  | cons m ms' ih =>
    have hkept : Kept i .run dir found x := ⟨hdb, hown ▸ ordered_ups hscan⟩
    have hscan' : scanMigrations dir = .ok ((ms ++ [m]) ++ ms') := by
      rw [hscan, List.append_assoc, List.singleton_append]
    have hups := ups_append found ms [m]
    rw [applyPending]
    by_cases hm : m.version ∈ applied
    · rw [if_pos hm]
      have hskip : ups found [m] = [] := by simp [ups, (happlied m.version).1 hm]
      exact ih hscan' hidle hlock hdb (by rw [hown, hups, hskip, List.append_nil])
    · rw [if_neg hm]
      have hnew : ups found [m] = [.up m.version] := by simp [ups, mt (happlied m.version).2 hm]
      refine Runs.bind (Runs.lift hkept hlock fun sql _ => ?_)
      refine Runs.transaction (by simp) (by simp) hidle hkept hlock fun x₁ rows hp => ?_
      have hname : unescape (String.ofList (escape m.name.toList)).toList = some m.name.toList := by
        rw [String.toList_ofList, unescape_escape]
      simp only [Server.perform, Server.visible, List.foldl_cons, List.foldl_nil, Database.apply,
        hname, Option.some.injEq] at hp
      cases htable : x.db.table with
      | none =>
        rw [htable] at hp
        cases hp
      | some table =>
        simp only [htable] at hp
        split_ifs at hp with hv
        · cases hp
        · obtain ⟨rfl, -⟩ := Prod.mk.inj hp
          refine ⟨.insert ⟨m.version, String.ofList m.name.toList⟩, rfl, rfl,
            fun x₂ hdb₂ hlock₂ hidle₂ => ?_⟩
          simp only [Database.apply, htable, Option.map_some] at hdb₂
          have hdb' : x₂.db.Consistent := by
            rw [hdb₂]
            exact hdb.up htable hv
          have hown' : own i x₂.db.log = ups found (ms ++ [m]) := by
            rw [hdb₂, own_concat, hown, hups, hnew, if_pos rfl]
          exact ⟨⟨hdb', hown' ▸ ordered_ups hscan'⟩, ih hscan' hidle₂ hlock₂ hdb' hown'⟩

/-- `ensure_tracking_table` changes nothing that is recorded. -/
theorem Runs.ensureTrackingTable {Q : Unit → Server → Prop} (hidle : x.tx = .idle)
    (hkept : Kept i task dir found x) (hlock : x.lock = some i)
    (hQ : Q () { x with db := x.db.apply i .createTable }) :
    Runs i task dir found Q ensureTrackingTable x := by
  refine Runs.simpleQuery (by simp) (by simp) hkept hlock fun x' rows hp => ?_
  simp only [Server.perform, Server.write, hidle, Option.some.injEq, Prod.mk.injEq] at hp
  obtain ⟨rfl, -⟩ := hp
  rw [hidle] at hQ
  exact ⟨⟨hkept.1.createTable i, hkept.2⟩, hQ⟩

theorem mem_versions_sort (r : Row → Row → Prop) [DecidableRel r] {rows : List Row} {v : ℤ} :
    v ∈ (rows.insertionSort r).map (·.version) ↔ v ∈ rows.map (·.version) :=
  ((List.perm_insertionSort r rows).map _).mem_iff

theorem runs_runInner (hidle : x.tx = .idle) (hlock : x.lock = some i) (hdb : x.db.Consistent)
    (hown : own i x.db.log = []) (hfound : found = x.db.versions) :
    Runs i .run dir found (fun _ _ => True) (runInner dir) x := by
  have hkept : Kept i .run dir found x := ⟨hdb, hown ▸ List.nil_prefix⟩
  refine Runs.bind (Runs.bind (Runs.query (by simp) (by simp) hkept hlock fun x' rows hp => ?_))
  simp only [Server.perform, Server.visible, hidle, Option.some.injEq] at hp
  cases htable : x.db.table with
  | none =>
    rw [htable] at hp
    cases hp
  | some table =>
    rw [htable] at hp
    obtain ⟨rfl, hrows⟩ := Prod.mk.inj hp
    obtain rfl := Except.ok.inj hrows
    refine ⟨hkept, Runs.pure hkept hlock (Runs.bind (Runs.lift hkept hlock fun ms hms => ?_))⟩
    have hscan : scanMigrations dir = .ok ([] ++ ms) := hms
    refine runs_applyPending hscan (fun v => ?_) hidle hlock hdb hown
    rw [mem_versions_sort, hfound, Database.versions, htable, Option.getD_some]

/-- The first row in descending order is the greatest. -/
theorem head_sort {rows : List Row} {row : Row}
    (h : ((rows.insertionSort fun a b => b.version ≤ a.version).take 1).head? = some row) :
    row ∈ rows ∧ ∀ v ∈ rows.map (·.version), v ≤ row.version := by
  have hperm := List.perm_insertionSort (fun a b : Row => b.version ≤ a.version) rows
  have hsorted := List.pairwise_insertionSort (fun a b : Row => b.version ≤ a.version) rows
  cases hsort : rows.insertionSort fun a b => b.version ≤ a.version with
  | nil =>
    rw [hsort] at h
    cases h
  | cons a rest =>
    rw [hsort] at h hperm hsorted
    cases h
    refine ⟨hperm.mem_iff.1 List.mem_cons_self, fun v hv => ?_⟩
    obtain ⟨b, hb, rfl⟩ := List.mem_map.1 hv
    rcases List.mem_cons.1 (hperm.mem_iff.2 hb) with rfl | hb
    · exact le_refl _
    · exact List.rel_of_pairwise_cons hsorted hb

theorem runs_revertInner (hidle : x.tx = .idle) (hlock : x.lock = some i) (hdb : x.db.Consistent)
    (hown : own i x.db.log = []) (hfound : found = x.db.versions) :
    Runs i .revert dir found (fun _ _ => True) (revertInner dir) x := by
  have hkept : Kept i .revert dir found x := ⟨hdb, .inl hown⟩
  refine Runs.bind (Runs.query (by simp) (by simp) hkept hlock fun x' rows hp => ?_)
  simp only [Server.perform, Server.visible, hidle, Option.some.injEq] at hp
  cases htable : x.db.table with
  | none =>
    rw [htable] at hp
    cases hp
  | some table =>
    rw [htable] at hp
    obtain ⟨rfl, hrows⟩ := Prod.mk.inj hp
    obtain rfl := Except.ok.inj hrows
    refine ⟨hkept, ?_⟩
    cases hhead : ((table.insertionSort fun a b => b.version ≤ a.version).take 1).head? with
    | none => exact Runs.pure hkept hlock trivial
    | some row =>
      obtain ⟨hrow, hmax⟩ := head_sort hhead
      have hmem := List.mem_map_of_mem (f := (·.version)) hrow
      have hversions : found = table.map (·.version) := by
        rw [hfound, Database.versions, htable, Option.getD_some]
      refine Runs.bind (Runs.lift hkept hlock fun p _ => ?_)
      refine Runs.transaction (by simp) (by simp) hidle hkept hlock fun x₁ rows hp => ?_
      simp only [Server.perform, Server.visible, List.foldl_cons, List.foldl_nil, Database.apply,
        htable, Option.some.injEq, Prod.mk.injEq] at hp
      obtain ⟨rfl, -⟩ := hp
      refine ⟨.delete row.version, rfl, rfl, fun x₂ hdb₂ hlock₂ _ => ?_⟩
      simp only [Database.apply, htable, Option.map_some] at hdb₂
      have hkept₂ : Kept i .revert dir found x₂ := by
        refine ⟨hdb₂ ▸ hdb.down htable hmem hmax, .inr ⟨row.version, hversions ▸ hmem,
          hversions ▸ hmax, ?_⟩⟩
        rw [hdb₂, own_concat, hown, if_pos rfl, List.nil_append]
      exact ⟨hkept₂, Runs.pure hkept₂ hlock₂ trivial⟩

/-- `release_advisory_lock` changes nothing but the lock. -/
theorem safe_releaseAdvisoryLock (hkept : Kept i task dir found x) (hlock : x.lock = some i) :
    releaseAdvisoryLock.Safe (Kept i task dir found) (·.lock = some i) (Answers i)
      (fun _ _ => True) x := by
  have hunlock : (simpleQuery .unlock).Safe (Kept i task dir found) (·.lock = some i) (Answers i)
      (fun _ _ => True) x := by
    refine Conversation.Safe.bind ⟨hkept, hlock, fun r x' hr => ?_⟩
    have hdb : x'.db = x.db := by
      rcases Server.answer_cases hr with hp | ⟨⟨r', hp⟩, -⟩ | ⟨⟨hdb, -⟩, -⟩
      · simp only [Server.perform, Option.some.injEq, Prod.mk.injEq] at hp
        rw [← hp.1]
      · simp only [Server.perform, Option.some.injEq, Prod.mk.injEq] at hp
        rw [← hp.1]
      · exact hdb
    cases r with
    | ok rows => exact ⟨hkept.of_db hdb, hkept.of_db hdb, trivial⟩
    | error e => exact ⟨hkept.of_db hdb, trivial⟩
  refine Conversation.Safe.attempt (hunlock.mono fun r x' hkept' _ => ?_)
  cases r <;> exact ⟨hkept', trivial⟩

/-- A call from the point where it has the lock. -/
theorem safe_ensuring {d : Client α} {f : α → Result} (hidle : x.tx = .idle)
    (hkept : Kept i task dir found x) (hlock : x.lock = some i)
    (h : Runs i task dir found (fun _ _ => True) d { x with db := x.db.apply i .createTable }) :
    (do
      let a ← Conversation.ensuring (do
        Migrate.ensureTrackingTable
        d) releaseAdvisoryLock
      pure (f a) : Client Result).Safe (Kept i task dir found) (·.lock = some i) (Answers i)
        (fun _ _ => True) x := by
  have hbody : Runs i task dir found (fun _ _ => True) (do
      Migrate.ensureTrackingTable
      d) x := Runs.bind (Runs.ensureTrackingTable hidle hkept hlock h)
  refine Conversation.Safe.bind (Conversation.Safe.ensuring (hbody.mono fun r x' hkept' hr => ?_))
  refine (safe_releaseAdvisoryLock hkept' hr.1).mono fun _ x'' hkept'' _ => ?_
  cases r with
  | ok a => exact ⟨hkept'', trivial⟩
  | error e => trivial

end Runs

/-- The first query of a call is for the lock; without it, the call ends. -/
theorem start_eq (task : Task) (dir : Dir) : ∃ k, task.start dir = .ask .lock k ∧
    (∀ e, (k (.error e)).isDone = true) ∧
    ∀ rows i x, x.tx = .idle → x.lock = some i → x.db.Consistent → own i x.db.log = [] →
      (k (.ok rows)).Safe (Kept i task dir x.db.versions) (·.lock = some i) (Answers i)
        (fun _ _ => True) x := by
  cases task with
  | run =>
    refine ⟨_, rfl, fun e => rfl, fun rows i x hidle hlock hdb hown => ?_⟩
    exact safe_ensuring hidle ⟨hdb, hown ▸ List.nil_prefix⟩ hlock
      (runs_runInner hidle hlock (hdb.createTable i) hown rfl)
  | revert =>
    refine ⟨_, rfl, fun e => rfl, fun rows i x hidle hlock hdb hown => ?_⟩
    exact safe_ensuring hidle ⟨hdb, .inl hown⟩ hlock
      (runs_revertInner hidle hlock (hdb.createTable i) hown rfl)

/-! ### What session `i` writes -/

/-- The log has grown by effects of session `i`. -/
def Grows (i : ℕ) (db db' : Database) : Prop :=
  ∃ es : List Effect, db'.log = db.log ++ es.map (i, ·)

theorem Grows.refl (i : ℕ) (db : Database) : Grows i db db := ⟨[], by simp⟩

theorem Grows.trans {i : ℕ} {db db' db'' : Database} (h : Grows i db db') (h' : Grows i db' db'') :
    Grows i db db'' := by
  obtain ⟨es, h⟩ := h
  obtain ⟨es', h'⟩ := h'
  exact ⟨es ++ es', by rw [h', h, List.map_append, List.append_assoc]⟩

theorem Grows.own {i j : ℕ} {db db' : Database} (h : Grows i db db') (hne : i ≠ j) :
    own j db'.log = own j db.log := by
  obtain ⟨es, h⟩ := h
  simp [Migrate.own, h, hne]

theorem grows_apply (i : ℕ) (db : Database) (w : Write) : Grows i db (db.apply i w) := by
  cases w with
  | effect e => exact ⟨[e], rfl⟩
  | _ => exact ⟨[], by simp [Database.apply]⟩

theorem grows_foldl (i : ℕ) (ws : List Write) (db : Database) :
    Grows i db (ws.foldl (Database.apply i) db) := by
  induction ws generalizing db with
  | nil => exact .refl i db
  | cons w ws ih => exact (grows_apply i db w).trans (ih _)

theorem grows_visible (i : ℕ) (x : Server) : Grows i x.db (x.visible i) := by
  unfold Server.visible
  split
  · exact grows_foldl i _ _
  · exact .refl i _

theorem grows_write (i : ℕ) (w : Write) (x : Server) : Grows i x.db (x.write i w).db := by
  unfold Server.write
  split
  · exact .refl i _
  · exact grows_apply i _ w

theorem grows_perform {i : ℕ} {st : Stmt} {x x' : Server} {r : Reply}
    (h : x.perform i st = some (x', r)) : Grows i x.db x'.db := by
  cases st <;> simp only [Server.perform, Server.fail, Option.some.injEq, Prod.mk.injEq] at h
  case lock => split_ifs at h; cases h; exact .refl i _
  case createTable => exact h.1 ▸ grows_write i _ x
  case script => exact h.1 ▸ grows_write i _ x
  case commit => exact h.1 ▸ grows_visible i x
  case selectVersions | selectLast =>
    split at h <;> cases h
    · exact .refl i _
    · exact (x.abort_db).symm ▸ .refl i _
  case delete =>
    split at h <;> cases h
    · exact grows_write i _ x
    · exact (x.abort_db).symm ▸ .refl i _
  case insert =>
    split at h
    · split_ifs at h <;> cases h
      · exact (x.abort_db).symm ▸ .refl i _
      · exact grows_write i _ x
    · cases h; exact (x.abort_db).symm ▸ .refl i _
    · cases h; exact (x.abort_db).symm ▸ .refl i _
  all_goals exact h.1 ▸ .refl i _

theorem grows_answer {i : ℕ} {st : Stmt} {x x' : Server} {r : Reply} (h : Answers i x st r x') :
    Grows i x.db x'.db := by
  rcases Server.answer_cases h with hp | ⟨⟨r', hp⟩, -⟩ | ⟨⟨hdb, -⟩, -⟩
  · exact grows_perform hp
  · exact grows_perform hp
  · exact hdb ▸ .refl i _

/-- A session only takes the lock that is free, and gives its own back. -/
theorem answer_lock {i : ℕ} {st : Stmt} {x x' : Server} {r : Reply} (h : Answers i x st r x') :
    x'.lock = x.lock ∨ x.lock = none ∧ x'.lock = some i ∨ x.lock = some i ∧ x'.lock = none := by
  have hperform : ∀ r', x.perform i st = some (x', r') →
      x'.lock = x.lock ∨ x.lock = none ∧ x'.lock = some i ∨ x.lock = some i ∧ x'.lock = none :=
    fun r' hp => by
      by_cases hst : st = .lock
      · subst hst
        simp only [Server.perform] at hp
        split_ifs at hp with hfree
        cases hp
        exact .inr (.inl ⟨hfree, rfl⟩)
      · by_cases hst' : st = .unlock
        · subst hst'
          simp only [Server.perform, Option.some.injEq, Prod.mk.injEq] at hp
          obtain ⟨rfl, -⟩ := hp
          by_cases hl : x.lock = some i
          · exact .inr (.inr ⟨hl, if_pos hl⟩)
          · exact .inl (if_neg hl)
        · exact .inl (Server.perform_lock hp hst hst')
  rcases Server.answer_cases h with hp | ⟨⟨r', hp⟩, -⟩ | ⟨⟨-, hl⟩, -⟩
  · exact hperform r hp
  · exact hperform r' hp
  · exact .inl hl

/-- The query for the lock is answered once the lock is free, or fails. -/
theorem answer_acquire {i : ℕ} {x x' : Server} {r : Reply} (hidle : x.tx = .idle)
    (h : Answers i x .lock r x') :
    x'.db = x.db ∧ ((∃ e, r = .error e) ∨
      r = .ok [] ∧ x.lock = none ∧ x'.lock = some i ∧ x'.tx = .idle) := by
  have hperform : ∀ r', x.perform i .lock = some (x', r') →
      x.lock = none ∧ x' = { x with lock := some i } ∧ r' = .ok [] := fun r' hp => by
    simp only [Server.perform] at hp
    split_ifs at hp with hfree
    cases hp
    exact ⟨hfree, rfl, rfl⟩
  rcases Server.answer_cases h with hp | ⟨⟨r', hp⟩, e, rfl⟩ | ⟨⟨hdb, -⟩, e, rfl⟩
  · obtain ⟨hfree, rfl, rfl⟩ := hperform r hp
    exact ⟨rfl, .inr ⟨rfl, hfree, rfl, hidle⟩⟩
  · obtain ⟨-, rfl, -⟩ := hperform r' hp
    exact ⟨rfl, .inl ⟨e, rfl⟩⟩
  · exact ⟨hdb, .inl ⟨e, rfl⟩⟩

/-! ### All sessions -/

/-- Session `i` waits for the lock, has it, or is over. -/
structure Session.Ok (s : State) (i : ℕ) (c : Session) : Prop where
  before : c.found = none → own i s.db.log = []
  ordered : ∀ found, c.found = some found → Ordered c.dir.toDir found (own i s.db.log) c.task
  holder : s.lock = some i → c.live = true
  phase : c.live = true →
    (c.client = c.task.start c.dir.toDir ∧ c.found = none ∧ c.tx = .idle ∧ s.lock ≠ some i) ∨
    (s.lock = some i ∧ ∃ found, c.found = some found ∧
      c.client.Safe (Kept i c.task c.dir.toDir found) (·.lock = some i) (Answers i)
        (fun _ _ => True) (s.server c)) ∨
    (s.lock ≠ some i ∧ c.client.isDone = true)

/-- What holds in every reachable state. -/
structure State.Ok (s : State) : Prop where
  db : s.db.Consistent
  sessions : ∀ (i : ℕ) (c : Session), s.sessions[i]? = some c → c.Ok s i
  locked : ∀ i, s.lock = some i → i < s.sessions.length
  logged : ∀ p ∈ s.db.log, p.1 < s.sessions.length

/-- The other sessions see the effects of this one only while they do not have the lock. -/
theorem Session.Ok.frame {s s' : State} {i : ℕ} {c : Session} (h : c.Ok s i)
    (hown : own i s'.db.log = own i s.db.log) (hlock : s'.lock = some i ↔ s.lock = some i)
    (hdb : s.lock = some i → s'.db = s.db) : c.Ok s' i where
  before := fun hf => hown ▸ h.before hf
  ordered := fun found hf => hown ▸ h.ordered found hf
  holder := fun hl => h.holder (hlock.1 hl)
  phase := fun hlive => by
    rcases h.phase hlive with ⟨hc, hf, ht, hl⟩ | ⟨hl, found, hf, hsafe⟩ | ⟨hl, hdone⟩
    · exact .inl ⟨hc, hf, ht, mt hlock.1 hl⟩
    · have hserver : s'.server c = s.server c := by
        rw [State.server, State.server, hdb hl, hl, hlock.2 hl]
      exact .inr (.inl ⟨hlock.2 hl, found, hf, hserver.symm ▸ hsafe⟩)
    · exact .inr (.inr ⟨mt hlock.1 hl, hdone⟩)

namespace State.Ok

variable {s s' : State}

theorem start (h : s.Ok) (task : Task) (dir : MigrationsDir) :
    State.Ok { s with
      sessions := s.sessions ++ [⟨task, dir, task.start dir.toDir, .idle, true, none⟩] } where
  db := h.db
  sessions := fun i c hc => by
    rcases getElem?_concat_cases hc with hc | ⟨rfl, rfl⟩
    · exact (h.sessions i c hc).frame rfl Iff.rfl fun _ => rfl
    · have hlock : s.lock ≠ some s.sessions.length := fun hl =>
        Nat.lt_irrefl _ (h.locked _ hl)
      have hown : own s.sessions.length s.db.log = [] :=
        List.filterMap_eq_nil_iff.2 fun p hp => if_neg (Nat.ne_of_lt (h.logged p hp))
      refine ⟨fun _ => hown, fun _ hf => ?_, fun hl => absurd hl hlock,
        fun _ => .inl ⟨rfl, rfl, rfl, hlock⟩⟩
      cases hf
  locked := fun i hl => (h.locked i hl).trans (by simp)
  logged := fun p hp => (h.logged p hp).trans (by simp)

theorem close (h : s.Ok) {i : ℕ} {c : Session} (hc : s.sessions[i]? = some c) :
    State.Ok { s with
      lock := if s.lock = some i then none else s.lock
      sessions := s.sessions.set i { c with tx := .idle, live := false } } := by
  have hlock : ∀ j, (if s.lock = some i then none else s.lock) = some j ↔
      j ≠ i ∧ s.lock = some j := fun j => by
    split_ifs with hl
    · simp [hl, eq_comm]
    · refine ⟨fun hj => ⟨?_, hj⟩, fun hj => hj.2⟩
      rintro rfl
      exact hl hj
  refine ⟨h.db, fun j c' hc' => ?_, fun j hj => ?_, fun p hp => ?_⟩
  · rcases getElem?_set_cases hc' with ⟨rfl, rfl⟩ | ⟨hne, hc'⟩
    · have hok := h.sessions j c hc
      exact ⟨hok.before, hok.ordered, fun hj => absurd rfl ((hlock j).1 hj).1,
        fun hlive => by cases hlive⟩
    · exact (h.sessions j c' hc').frame rfl ((hlock j).trans (and_iff_right hne)) fun _ => rfl
  · rw [List.length_set]
    exact h.locked j ((hlock j).1 hj).2
  · rw [List.length_set]
    exact h.logged p hp

/-- A client whose session has ended only sees errors. -/
theorem dead (h : s.Ok) {i : ℕ} {c : Session} (hc : s.sessions[i]? = some c)
    (hlive : c.live = false) (client : Client Result) :
    State.Ok { s with sessions := s.sessions.set i { c with client := client } } := by
  refine ⟨h.db, fun j c' hc' => ?_, fun j hj => ?_, fun p hp => ?_⟩
  · rcases getElem?_set_cases hc' with ⟨rfl, rfl⟩ | ⟨hne, hc'⟩
    · have hok := h.sessions j c hc
      exact ⟨hok.before, hok.ordered, hok.holder, fun hl => by simp [hlive] at hl⟩
    · exact (h.sessions j c' hc').frame rfl Iff.rfl fun _ => rfl
  · rw [List.length_set]
    exact h.locked j hj
  · rw [List.length_set]
    exact h.logged p hp

/-- The session that was served is in order again. -/
theorem served (h : s.Ok) {i : ℕ} {c : Session} (hc : s.sessions[i]? = some c) {st : Stmt}
    {k : Reply → Client Result} (hclient : c.client = .ask st k) (hlive : c.live = true)
    {x : Server} {r : Reply} (hx : Answers i (s.server c) st r x) (sessions : List Session) :
    x.db.Consistent ∧ Session.Ok ⟨x.db, x.lock, sessions⟩ i { c with
      client := k r
      tx := x.tx
      found := if s.lock ≠ some i ∧ x.lock = some i then some s.db.versions else c.found } := by
  have hok := h.sessions i c hc
  rcases hok.phase hlive with ⟨hstart, hfound, hidle, hlock⟩ | ⟨hlock, found, hfound, hsafe⟩ |
    ⟨-, hdone⟩
  · -- the answer to the query for the lock
    obtain ⟨k', hk', herror, hlocked⟩ := start_eq c.task c.dir.toDir
    obtain ⟨rfl, rfl⟩ : st = .lock ∧ k = k' := by
      rw [hstart, hk'] at hclient
      cases hclient
      exact ⟨rfl, rfl⟩
    obtain ⟨hdb, hcases⟩ := answer_acquire hidle hx
    have hown : own i x.db.log = [] := by
      rw [hdb]
      exact hok.before hfound
    have hconsistent : x.db.Consistent := by
      rw [hdb]
      exact h.db
    have hversions : s.db.versions = x.db.versions := by rw [hdb]; rfl
    refine ⟨hconsistent, ?_⟩
    have hempty : ∀ found, Ordered c.dir.toDir found (own i x.db.log) c.task := fun found => by
      rw [hown]
      cases c.task with
      | run => exact List.nil_prefix
      | revert => exact .inl rfl
    refine ⟨fun _ => hown, fun found _ => hempty found, fun _ => hlive, fun _ => ?_⟩
    by_cases hl : x.lock = some i
    · refine .inr (.inl ⟨hl, s.db.versions, if_pos ⟨hlock, hl⟩, ?_⟩)
      rcases hcases with ⟨e, rfl⟩ | ⟨rfl, -, -, htx⟩
      · have hend := herror e
        cases hk : k (.error e) with
        | done r => exact ⟨⟨hconsistent, hempty _⟩, trivial⟩
        | ask q k' =>
          rw [hk] at hend
          cases hend
      · rw [hversions]
        exact hlocked [] i x htx hl hconsistent hown
    · refine .inr (.inr ⟨hl, ?_⟩)
      rcases hcases with ⟨e, rfl⟩ | ⟨-, -, hl', -⟩
      · exact herror e
      · exact absurd hl' hl
  · -- a statement behind the lock
    rw [hclient] at hsafe
    have hnext := hsafe.2.2 r x hx
    obtain ⟨hconsistent, hordered⟩ := hnext.invariant
    refine ⟨hconsistent, ?_⟩
    have hfound' : (if s.lock ≠ some i ∧ x.lock = some i then some s.db.versions else c.found) =
        some found := by rw [if_neg fun hn => hn.1 hlock, hfound]
    rw [hfound']
    refine ⟨fun hf => ?_, fun found' hf => ?_, fun _ => hlive, fun _ => ?_⟩
    · cases hf
    · cases hf
      exact hordered
    · by_cases hl : x.lock = some i
      · exact .inr (.inl ⟨hl, found, rfl, hnext⟩)
      · refine .inr (.inr ⟨hl, ?_⟩)
        cases hk : k r with
        | done r' => rfl
        | ask q k' =>
          rw [hk] at hnext
          exact absurd hnext.2.1 hl
  · rw [hclient] at hdone
    cases hdone

/-- The other sessions do not see the statement, or wait for the lock. -/
theorem others (h : s.Ok) {i j : ℕ} {c : Session} (hc : s.sessions[i]? = some c) {st : Stmt}
    {k : Reply → Client Result} (hclient : c.client = .ask st k) (hlive : c.live = true)
    {x : Server} {r : Reply} (hx : Answers i (s.server c) st r x) (hne : j ≠ i) :
    (x.lock = some j ↔ s.lock = some j) ∧ (s.lock = some j → x.db = s.db) := by
  constructor
  · rcases answer_lock hx with hl | ⟨hl, hl'⟩ | ⟨hl, hl'⟩
    · rw [hl]
      rfl
    · rw [hl', show s.lock = none from hl]
      simp [Ne.symm hne]
    · rw [hl', show s.lock = some i from hl]
      simp [Ne.symm hne]
  · intro hj
    rcases (h.sessions i c hc).phase hlive with ⟨hstart, -, hidle, -⟩ | ⟨hlock, -⟩ | ⟨-, hdone⟩
    · obtain ⟨k', hk', -⟩ := start_eq c.task c.dir.toDir
      rw [hstart, hk'] at hclient
      cases hclient
      exact (answer_acquire hidle hx).1
    · rw [hj] at hlock
      exact absurd (Option.some_inj.1 hlock) hne
    · rw [hclient] at hdone
      cases hdone

theorem step {l : Label} (h : s.Ok) (hstep : system.step s l = some s') : s'.Ok := by
  cases l with
  | start task dir =>
    cases hstep
    exact h.start task dir
  | serve i fate =>
    obtain ⟨c, hc, hstep⟩ := Option.bind_eq_some_iff.1 hstep
    cases hclient : c.client with
    | done r =>
      rw [hclient] at hstep
      cases hstep
    | ask st k =>
      simp only [hclient] at hstep
      split_ifs at hstep with hlive
      · obtain ⟨⟨x, r⟩, hx, rfl⟩ := Option.map_eq_some_iff.1 hstep
        have hanswer : Answers i (s.server c) st r x := ⟨fate, hx⟩
        have hlt := (List.getElem?_eq_some_iff.1 hc).1
        refine ⟨(h.served hc hclient hlive hanswer []).1, fun j c' hc' => ?_, fun j hj => ?_,
          fun p hp => ?_⟩
        · rcases getElem?_set_cases hc' with ⟨rfl, rfl⟩ | ⟨hne, hc'⟩
          · exact (h.served hc hclient hlive hanswer _).2
          · obtain ⟨hlock, hdb⟩ := h.others hc hclient hlive hanswer hne
            exact (h.sessions j c' hc').frame ((grows_answer hanswer).own (Ne.symm hne)) hlock hdb
        · rw [List.length_set]
          by_cases hji : j = i
          · exact hji ▸ hlt
          · exact h.locked j ((h.others hc hclient hlive hanswer hji).1.1 hj)
        · rw [List.length_set]
          obtain ⟨es, hlog⟩ := grows_answer hanswer
          simp only [hlog, List.mem_append, List.mem_map] at hp
          rcases hp with hp | ⟨e, -, rfl⟩
          · exact h.logged p hp
          · exact hlt
      · cases hstep
        exact h.dead hc (by simpa using hlive) _
  | close i =>
    obtain ⟨c, hc, rfl⟩ := Option.map_eq_some_iff.1 hstep
    exact h.close hc

theorem init : State.init.Ok where
  db := ⟨List.nodup_nil, fun v => by simp [State.init, Database.versions, InEffect],
    fun l₁ i v l₂ h => by simp [State.init] at h, fun l₁ i v l₂ h => by simp [State.init] at h⟩
  sessions := fun i c h => by simp [State.init] at h
  locked := fun i h => by cases h
  logged := fun p h => by cases h

end State.Ok

/-- What is pending comes in ascending order. -/
theorem pairwise_pending (dir : MigrationsDir) (found : List ℤ) :
    (pending dir.toDir found).Pairwise (· < ·) := by
  cases hscan : scanMigrations dir.toDir with
  | error e =>
    rw [pending, hscan]
    exact List.Pairwise.nil
  | ok ms =>
    have hsorted := List.pairwise_map.2 (pairwise_scanMigrations hscan)
    rw [pending, hscan]
    exact ((hsorted.and (dir.distinct ms hscan)).imp fun h => lt_of_le_of_ne h.1 h.2).filter _

/-- **Migrations are applied once.**  In every committed state of the database the versions that are
recorded are those in effect; no up-script takes effect again without a revert between, and what is
reverted is the greatest version in effect.  Every run has applied an initial segment, in ascending
order, of what was pending when it acquired the lock, and every revert has undone at most the
greatest version that was recorded then. -/
theorem applied_once {s : State} (h : system.Reachable State.init s) :
    (s.db.versions.Nodup ∧ ∀ v, v ∈ s.db.versions ↔ InEffect v s.db.log) ∧
    (∀ l₁ i v l₂ j l₃, s.db.log = l₁ ++ (i, .up v) :: (l₂ ++ (j, .up v) :: l₃) →
      ∃ k, (k, .down v) ∈ l₂) ∧
    (∀ l₁ i v l₂, s.db.log = l₁ ++ (i, .down v) :: l₂ →
      InEffect v l₁ ∧ ∀ w, InEffect w l₁ → w ≤ v) ∧
    ∀ (i : ℕ) (c : Session), s.sessions[i]? = some c →
      (c.found = none → own i s.db.log = []) ∧
      ∀ found, c.found = some found →
        (pending c.dir.toDir found).Pairwise (· < ·) ∧
        Ordered c.dir.toDir found (own i s.db.log) c.task := by
  have hok : s.Ok := h.invariant State.Ok.init fun _ _ _ hs hstep => hs.step hstep
  refine ⟨⟨hok.db.nodup, hok.db.recorded⟩, fun l₁ i v l₂ j l₃ heq => ?_, hok.db.greatest,
    fun i c hc => ⟨(hok.sessions i c hc).before, fun found hf =>
      ⟨pairwise_pending c.dir found, (hok.sessions i c hc).ordered found hf⟩⟩⟩
  by_contra hdown
  refine hok.db.once (l₁ ++ (i, .up v) :: l₂) j v l₃ (by rw [heq]; simp) ⟨l₁, i, l₂, rfl, ?_⟩
  exact fun k hk => hdown ⟨k, hk⟩

/-- A directory with one migration. -/
def exampleDir : MigrationsDir where
  path := "migrations"
  isDir := true
  entries := .ok [⟨some "1_a.up.sql", .ok "CREATE TABLE a ()"⟩, ⟨some "1_a.down.sql", .ok ""⟩]
  distinct := fun ms h => by
    have hscan : ((scanMigrations ⟨"migrations", true, .ok [⟨some "1_a.up.sql",
      .ok "CREATE TABLE a ()"⟩, ⟨some "1_a.down.sql", .ok ""⟩]⟩).toOption.getD []).map (·.version) =
        [1] := by decide +kernel
    rw [h] at hscan
    change ms.map (·.version) = [1] at hscan
    rw [hscan]
    exact List.nodup_singleton 1

/-- The first runner ends between the record and the commit, the second one takes over. -/
def crashRun : List Label :=
  [.start .run exampleDir, .start .run exampleDir] ++
    List.replicate 6 (.serve 0 .carriedOut) ++ [.close 0] ++
    List.replicate 8 (.serve 1 .carriedOut)

theorem applied_once_crashRun : ∃ s, system.Reachable State.init s ∧
    s.db.log = [(1, .up 1)] ∧ s.db.versions = [1] ∧
    (s.db.versions.Nodup ∧ ∀ v, v ∈ s.db.versions ↔ InEffect v s.db.log) := by
  have htest : (system.exec State.init crashRun).any
      (fun s => s.db.log = [(1, .up 1)] && s.db.versions = [1]) = true := by decide +kernel
  obtain ⟨s, hreach, hs⟩ := LTS.reachable_of_test htest
  simp only [Bool.and_eq_true, decide_eq_true_eq] at hs
  exact ⟨s, hreach, hs.1, hs.2, (applied_once hreach).1⟩

end Resolute.Migrate
