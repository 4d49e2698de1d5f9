import Mathlib.Data.List.Nodup
import Mathlib.Order.Nat
import Resolute.Rust.Radix
import Resolute.Wire.Types

/-!
# The statement cache of a connection

`AsyncConn` remembers which SQL it has prepared on the server, and under which name.  Names are
drawn from a counter (`stmtName`), an entry is published once its `Parse` has succeeded, and the
oldest of 256 entries makes room for the next one.  `StmtCache` is a map without repeated keys by
its type, and `Stmts` is the cache with the counter; `cacheStatement_cases` lists what publishing a
statement can do to it.
-/

namespace Resolute

/-- An entry of `stmt_cache`. -/
structure Entry where
  sql : String
  name : String
  /-- The number of the name; the oldest entry is the one with the least number. -/
  counter : ℕ
  deriving DecidableEq, Repr

/-- `HashMap<String, (String, u64)>`: no two entries have the same SQL. -/
structure StmtCache where
  entries : List Entry
  nodup : (entries.map Entry.sql).Nodup

namespace StmtCache

/-- `HashMap::new()`. -/
def empty : StmtCache := ⟨[], List.nodup_nil⟩

/-- `get`. -/
def get? (c : StmtCache) (sql : String) : Option Entry := c.entries.find? (·.sql = sql)

/-- `remove`. -/
def erase (c : StmtCache) (sql : String) : StmtCache where
  entries := c.entries.filter (·.sql ≠ sql)
  nodup := c.nodup.sublist (List.filter_sublist.map _)

theorem mem_erase {c : StmtCache} {sql : String} {e : Entry} :
    e ∈ (c.erase sql).entries ↔ e ∈ c.entries ∧ e.sql ≠ sql := by
  simp [erase]

/-- `insert`. -/
def insert (c : StmtCache) (e : Entry) : StmtCache where
  entries := e :: (c.erase e.sql).entries
  nodup := List.nodup_cons.2 ⟨by simp [erase], (c.erase e.sql).nodup⟩

theorem mem_insert {c : StmtCache} {e e' : Entry} :
    e' ∈ (c.insert e).entries ↔ e' = e ∨ e' ∈ c.entries ∧ e'.sql ≠ e.sql := by
  simp [insert, mem_erase]

theorem eq_of_sql_eq {c : StmtCache} {e e' : Entry} (he : e ∈ c.entries) (he' : e' ∈ c.entries)
    (h : e.sql = e'.sql) : e = e' :=
  List.inj_on_of_nodup_map c.nodup he he' h

theorem of_get?_eq_some {c : StmtCache} {sql : String} {e : Entry} (h : c.get? sql = some e) :
    e ∈ c.entries ∧ e.sql = sql :=
  ⟨List.mem_of_find?_eq_some h, by simpa using List.find?_some h⟩

theorem get?_eq_none {c : StmtCache} {sql : String} :
    c.get? sql = none ↔ ∀ e ∈ c.entries, e.sql ≠ sql := by
  simp [get?, List.find?_eq_none]

theorem get?_of_mem {c : StmtCache} {e : Entry} (he : e ∈ c.entries) : c.get? e.sql = some e := by
  cases h : c.get? e.sql with
  | none => exact absurd rfl (get?_eq_none.1 h e he)
  | some e' =>
    obtain ⟨he', hsql⟩ := of_get?_eq_some h
    rw [eq_of_sql_eq he' he hsql]

/-- `min_by_key` on the counter. -/
def oldest : List Entry → Option Entry
  | [] => none
  | e :: es => match oldest es with
    | none => some e
    | some e' => if e.counter ≤ e'.counter then some e else some e'

theorem mem_of_oldest {es : List Entry} {e : Entry} (h : oldest es = some e) : e ∈ es := by
  induction es generalizing e with
  | nil => cases h
  | cons a es ih =>
    simp only [oldest] at h
    split at h
    · cases h; exact List.mem_cons_self
    · rename_i e' he'
      split_ifs at h <;> cases h
      · exact List.mem_cons_self
      · exact List.mem_cons_of_mem _ (ih he')

end StmtCache

/-- The statement cache of an `AsyncConn`, and the counter of its names. -/
structure Stmts where
  cache : StmtCache
  counter : ℕ

/-- The name with a number. -/
def stmtName (n : ℕ) : String := s!"s{n}"

theorem toList_stmtName (n : ℕ) : (stmtName n).toList = 's' :: Nat.toDigits 10 n := by
  have happend : (stmtName n).toList = 's' :: n.repr.toList := String.toList_append
  rw [happend, Nat.toList_repr]

/-- The number of a name, if it has the form of one; a `u64` in the code. -/
def nameCounter (name : String) : Option ℕ :=
  match name.toList with
  | 's' :: '+' :: d :: digits => Rust.readDigits 10 0 (d :: digits)
  | 's' :: d :: digits => Rust.readDigits 10 0 (d :: digits)
  | _ => none

@[simp] theorem nameCounter_stmtName (n : ℕ) : nameCounter (stmtName n) = some n := by
  obtain ⟨c, cs, hcs, hplus⟩ := Rust.exists_toDigits n
  rw [nameCounter, toList_stmtName, hcs]
  split
  · rename_i heq
    cases heq
    exact absurd rfl hplus
  · rename_i heq
    cases heq
    rw [← hcs, Rust.readDigits_toDigits]
  · rename_i hne
    exact absurd rfl (hne c cs)

theorem stmtName_injective : Function.Injective stmtName := fun m n h => by
  have hcounter := congrArg nameCounter h
  rwa [nameCounter_stmtName, nameCounter_stmtName, Option.some_inj] at hcounter

/-- The error says that a prepared statement is gone or no longer fits. -/
def isStaleStatementError (e : PgError) : Bool := e.code == "26000" || e.code == "0A000"

namespace Stmts

/-- A connection that has prepared nothing. -/
def new : Stmts := ⟨StmtCache.empty, 0⟩

/-- The most entries the cache holds. -/
def cap : ℕ := 256

/-- `lookup_or_alloc`: the name to use, and whether it needs a `Parse`.  The parameter types play
no part. -/
def lookupOrAlloc (sql : String) (_paramOids : List Oid) (s : Stmts) : (Bytes × Bool) × Stmts :=
  match s.cache.get? sql with
  | some e => ((asBytes e.name, false), s)
  | none => ((asBytes (stmtName s.counter), true), { s with counter := s.counter + 1 })

/-- The entry that is removed when the cache is full. -/
def victim (s : Stmts) : Option Entry :=
  if cap ≤ s.cache.entries.length then StmtCache.oldest s.cache.entries else none

/-- `cache_statement`.  The second component is the statement that is to be closed. -/
def cacheStatement (sql : String) (name : Bytes) (s : Stmts) : Stmts × Option String :=
  match fromUtf8 name with
  | none => (s, none)
  | some nameStr =>
    let counter := (nameCounter nameStr).getD s.counter
    if (s.cache.get? sql).isSome then (s, none)
    else match s.victim with
      | some old =>
        ({ s with cache := (s.cache.erase old.sql).insert ⟨sql, nameStr, counter⟩ }, some old.name)
      | none => ({ s with cache := s.cache.insert ⟨sql, nameStr, counter⟩ }, none)

/-- What is queued to free the statement of an entry that was removed. -/
def closeMessages (name : String) : List FrontendMsg := [.close (byte 'S') (asBytes name), .sync]

/-- `invalidate_statement`. -/
def invalidateStatement (sql : String) (s : Stmts) : Stmts := { s with cache := s.cache.erase sql }

/-- `clear_statement_cache`. -/
def clearStatementCache (s : Stmts) : Stmts := { s with cache := StmtCache.empty }

theorem lookupOrAlloc_hit {s : Stmts} {sql : String} {e : Entry} (h : s.cache.get? sql = some e)
    (paramOids : List Oid) : s.lookupOrAlloc sql paramOids = ((asBytes e.name, false), s) := by
  simp [lookupOrAlloc, h]

theorem lookupOrAlloc_miss {s : Stmts} {sql : String} (h : s.cache.get? sql = none)
    (paramOids : List Oid) : s.lookupOrAlloc sql paramOids =
      ((asBytes (stmtName s.counter), true), { s with counter := s.counter + 1 }) := by
  simp [lookupOrAlloc, h]

@[simp] theorem get?_invalidateStatement (s : Stmts) (sql : String) :
    (s.invalidateStatement sql).cache.get? sql = none :=
  StmtCache.get?_eq_none.2 fun _ he => (StmtCache.mem_erase.1 he).2

theorem mem_of_victim {s : Stmts} {e : Entry} (h : s.victim = some e) : e ∈ s.cache.entries := by
  simp only [victim] at h
  split_ifs at h
  exact StmtCache.mem_of_oldest h

/-- What `cache_statement` can do: nothing, or publish an entry for SQL that had none, possibly in
the place of another one. -/
theorem cacheStatement_cases (sql : String) (name : Bytes) (s : Stmts) :
    s.cacheStatement sql name = (s, none) ∨
    ∃ e : Entry, e.sql = sql ∧ asBytes e.name = name ∧ s.cache.get? sql = none ∧
      ((s.cacheStatement sql name = ({ s with cache := s.cache.insert e }, none)) ∨
        ∃ old ∈ s.cache.entries, s.cacheStatement sql name =
          ({ s with cache := (s.cache.erase old.sql).insert e }, some old.name)) := by
  unfold cacheStatement
  cases hname : fromUtf8 name with
  | none => exact .inl rfl
  | some nameStr =>
    cases hget : s.cache.get? sql with
    | some e => exact .inl rfl
    | none =>
      refine .inr ⟨⟨sql, nameStr, (nameCounter nameStr).getD s.counter⟩, rfl,
        asBytes_of_fromUtf8 hname, rfl, ?_⟩
      cases hv : s.victim with
      | none => exact .inl rfl
      | some old => exact .inr ⟨old, mem_of_victim hv, rfl⟩

end Stmts

end Resolute
