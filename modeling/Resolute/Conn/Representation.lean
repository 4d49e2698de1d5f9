import Resolute.Conn.Cache
import Resolute.LTS.Basic

/-!
# The representation of the statement cache

Any number of tasks look up, publish, invalidate and clear the statements of a connection, in any
order.  A task publishes only what a lookup has returned to it, possibly much later.  Each operation
holds the lock of the cache, so it is one step.

The invariant `Names` ties the cache, the counter and the names that callers may still hold
together: no two SQL texts ever share a name, and a lookup draws a name that nobody has.  Publishing
into a full cache `Replaces` the oldest entry and tries to queue its `Close`.  `representation` has
the size, the names, the freshness and the eviction, in every reachable state.
-/

namespace Resolute.Conn.Representation

/-- The statement cache and its surroundings. -/
structure State where
  stmts : Stmts
  /-- What lookups have returned, with the SQL they were made for. -/
  returned : List (String × Bytes)
  /-- The requests that `cache_statement` has put into the channel. -/
  channel : List (List FrontendMsg)

/-- The operations. -/
inductive Label where
  | lookupOrAlloc (sql : String) (paramOids : List Oid)
  /-- `room` says whether the channel takes one more request. -/
  | cacheStatement (sql : String) (name : Bytes) (room : Bool)
  | invalidateStatement (sql : String)
  | clearStatementCache
  deriving DecidableEq

namespace State

/-- A new connection. -/
def init : State := ⟨Stmts.new, [], []⟩

/-- The entries of the cache. -/
def entries (s : State) : List Entry := s.stmts.cache.entries

/-- `cache_statement`; the `Close` is offered with `try_send`. -/
def cacheStatement (sql : String) (name : Bytes) (room : Bool) (s : State) : State :=
  match s.stmts.cacheStatement sql name with
  | (stmts, none) => { s with stmts := stmts }
  | (stmts, some old) => { s with
      stmts := stmts
      channel := s.channel ++ if room then [Stmts.closeMessages old] else [] }

end State

/-- One step. -/
def step (s : State) : Label → Option State
  | .lookupOrAlloc sql paramOids =>
    let r := s.stmts.lookupOrAlloc sql paramOids
    some { s with stmts := r.2, returned := s.returned ++ [(sql, r.1.1)] }
  | .cacheStatement sql name room =>
    if (sql, name) ∈ s.returned then some (s.cacheStatement sql name room) else none
  | .invalidateStatement sql => some { s with stmts := s.stmts.invalidateStatement sql }
  | .clearStatementCache => some { s with stmts := s.stmts.clearStatementCache }

/-- The operations on the cache as a transition system. -/
def cache : LTS State Label := ⟨step⟩

/-- The joint invariant of the cache, the counter and the names that callers hold. -/
structure Names (s : State) : Prop where
  size : s.entries.length ≤ Stmts.cap
  entry : ∀ e ∈ s.entries, e.name = stmtName e.counter ∧ e.counter < s.stmts.counter
  drawn : ∀ p ∈ s.returned, ∃ n < s.stmts.counter, p.2 = asBytes (stmtName n)
  /-- A name is returned for one SQL only. -/
  owner : ∀ p ∈ s.returned, ∀ q ∈ s.returned, p.2 = q.2 → p.1 = q.1
  source : ∀ e ∈ s.entries, (e.sql, asBytes e.name) ∈ s.returned

/-- Publishing into a full cache replaces the oldest entry and no other one; `queued` is what enters
the channel. -/
def Replaces (s s' : State) (sql : String) (name : Bytes)
    (queued : Entry → List (List FrontendMsg)) : Prop :=
  ∃ old ∈ s.entries, (∀ e ∈ s.entries, e ≠ old → old.counter < e.counter) ∧
    (∃ new : Entry, new.sql = sql ∧ asBytes new.name = name ∧
      ∀ e, e ∈ s'.entries ↔ e = new ∨ e ∈ s.entries ∧ e ≠ old) ∧
    s'.channel = s.channel ++ queued old

/-! ### The oldest entry -/

theorem oldest_eq_none {es : List Entry} (h : StmtCache.oldest es = none) : es = [] := by
  cases es with
  | nil => rfl
  | cons e es =>
    simp only [StmtCache.oldest] at h
    split at h
    · cases h
    · split_ifs at h

theorem oldest_le {es : List Entry} {old : Entry} (h : StmtCache.oldest es = some old) :
    ∀ e ∈ es, old.counter ≤ e.counter := by
  induction es generalizing old with
  | nil => cases h
  | cons a es ih =>
    simp only [StmtCache.oldest] at h
    split at h
    · rename_i hnone
      cases h
      rw [oldest_eq_none hnone]
      exact List.forall_mem_singleton.2 (Nat.le_refl _)
    · rename_i e' he'
      have hle := ih he'
      split_ifs at h with hc <;> cases h
      · exact List.forall_mem_cons.2 ⟨Nat.le_refl _, fun e he => hc.trans (hle e he)⟩
      · exact List.forall_mem_cons.2 ⟨by omega, hle⟩

theorem exists_victim {s : Stmts} (h : Stmts.cap ≤ s.cache.entries.length) :
    ∃ old, s.victim = some old ∧ ∀ e ∈ s.cache.entries, old.counter ≤ e.counter := by
  cases hold : StmtCache.oldest s.cache.entries with
  | none =>
    rw [oldest_eq_none hold] at h
    exact absurd h (by decide)
  | some old => exact ⟨old, by rw [Stmts.victim, if_pos h, hold], oldest_le hold⟩

theorem victim_eq_none {s : Stmts} (h : s.cache.entries.length < Stmts.cap) : s.victim = none :=
  if_neg (Nat.not_le.2 h)

theorem entries_insert {c : StmtCache} {e : Entry} (h : c.get? e.sql = none) :
    (c.insert e).entries = e :: c.entries :=
  congrArg (e :: ·) (List.filter_eq_self.2 fun e' he' => by
    simpa using StmtCache.get?_eq_none.1 h e' he')

/-- `remove` takes one entry away. -/
theorem perm_erase {c : StmtCache} {old : Entry} (h : old ∈ c.entries) :
    c.entries.Perm (old :: (c.erase old.sql).entries) := by
  have hfilter : (c.erase old.sql).entries = c.entries.erase old := by
    rw [c.nodup.of_map.erase_eq_filter]
    refine List.filter_congr fun e he => ?_
    by_cases heq : e = old
    · simp [heq]
    · have hsql : e.sql ≠ old.sql := fun hsql => heq (StmtCache.eq_of_sql_eq he h hsql)
      simp [heq, hsql]
  rw [hfilter]
  exact List.perm_cons_erase h

theorem length_erase_lt {c : StmtCache} {e : Entry} (h : e ∈ c.entries) :
    (c.erase e.sql).entries.length < c.entries.length := by
  rw [(perm_erase h).length_eq, List.length_cons]
  exact Nat.lt_succ_self _

/-- What `cache_statement` does: nothing, since the SQL has an entry, or a new entry, for which the
oldest one makes room in a full cache. -/
theorem cacheStatement_asBytes (s : Stmts) (sql name : String) :
    let n := (nameCounter name).getD s.counter
    (s.cache.get? sql).isSome = true ∧ s.cacheStatement sql (asBytes name) = (s, none) ∨
    s.cache.get? sql = none ∧
      (s.cache.entries.length < Stmts.cap ∧ s.cacheStatement sql (asBytes name) =
          ({ s with cache := s.cache.insert ⟨sql, name, n⟩ }, none) ∨
        Stmts.cap ≤ s.cache.entries.length ∧ ∃ old ∈ s.cache.entries,
          (∀ e ∈ s.cache.entries, old.counter ≤ e.counter) ∧
          s.cacheStatement sql (asBytes name) =
            ({ s with cache := (s.cache.erase old.sql).insert ⟨sql, name, n⟩ },
              some old.name)) := by
  intro n
  unfold Stmts.cacheStatement
  simp only [fromUtf8_asBytes]
  cases hget : s.cache.get? sql with
  | some e => exact .inl ⟨rfl, rfl⟩
  | none =>
    refine .inr ⟨rfl, ?_⟩
    rcases Nat.lt_or_ge s.cache.entries.length Stmts.cap with hlt | hge
    · exact .inl ⟨hlt, by rw [victim_eq_none hlt]; rfl⟩
    · obtain ⟨old, hvictim, hle⟩ := exists_victim hge
      exact .inr ⟨hge, old, Stmts.mem_of_victim hvictim, hle, by rw [hvictim]; rfl⟩

/-- The same for a name that was drawn. -/
theorem cacheStatement_stmtName (s : Stmts) (sql : String) (n : ℕ) :
    (s.cache.get? sql).isSome = true ∧ s.cacheStatement sql (asBytes (stmtName n)) = (s, none) ∨
    s.cache.get? sql = none ∧
      (s.cache.entries.length < Stmts.cap ∧ s.cacheStatement sql (asBytes (stmtName n)) =
          ({ s with cache := s.cache.insert ⟨sql, stmtName n, n⟩ }, none) ∨
        Stmts.cap ≤ s.cache.entries.length ∧ ∃ old ∈ s.cache.entries,
          (∀ e ∈ s.cache.entries, old.counter ≤ e.counter) ∧
          s.cacheStatement sql (asBytes (stmtName n)) =
            ({ s with cache := (s.cache.erase old.sql).insert ⟨sql, stmtName n, n⟩ },
              some old.name)) := by
  have h := cacheStatement_asBytes s sql (stmtName n)
  simpa only [nameCounter_stmtName, Option.getD_some] using h

/-! ### The invariant -/

namespace Names

variable {s s' : State}

/-- Distinct SQL has distinct names. -/
theorem eq_of_name_eq (h : Names s) {e e' : Entry} (he : e ∈ s.entries) (he' : e' ∈ s.entries)
    (hname : e.name = e'.name) : e = e' :=
  StmtCache.eq_of_sql_eq he he' (h.owner _ (h.source e he) _ (h.source e' he') (by rw [hname]))

theorem eq_of_counter_eq (h : Names s) {e e' : Entry} (he : e ∈ s.entries) (he' : e' ∈ s.entries)
    (hcounter : e.counter = e'.counter) : e = e' :=
  h.eq_of_name_eq he he' (by rw [(h.entry e he).1, (h.entry e' he').1, hcounter])

/-- A name that is drawn is none of those that were returned. -/
theorem ne_fresh (h : Names s) {p : String × Bytes} (hp : p ∈ s.returned) :
    p.2 ≠ asBytes (stmtName s.stmts.counter) := by
  obtain ⟨n, hn, heq⟩ := h.drawn p hp
  rw [heq]
  exact fun hname => Nat.ne_of_lt hn (stmtName_injective (asBytes_injective hname))

/-- Entries leave the cache. -/
theorem shrink (h : Names s) {c : StmtCache} (hsub : ∀ e ∈ c.entries, e ∈ s.entries)
    (hle : c.entries.length ≤ s.entries.length) :
    Names { s with stmts := { s.stmts with cache := c } } where
  size := hle.trans h.size
  entry := fun e he => h.entry e (hsub e he)
  drawn := h.drawn
  owner := h.owner
  source := fun e he => h.source e (hsub e he)

/-- A lookup returns the name of an entry, or draws a new one. -/
theorem lookupOrAlloc (h : Names s) (sql : String) (paramOids : List Oid) :
    let r := s.stmts.lookupOrAlloc sql paramOids
    Names { s with stmts := r.2, returned := s.returned ++ [(sql, r.1.1)] } := by
  cases hget : s.stmts.cache.get? sql with
  | some e =>
    obtain ⟨he, rfl⟩ := StmtCache.of_get?_eq_some hget
    -- the name was returned before, for the same SQL
    have hsub : ∀ p ∈ s.returned ++ [(e.sql, asBytes e.name)], p ∈ s.returned := fun p hp =>
      (List.mem_append.1 hp).elim id fun hp => List.mem_singleton.1 hp ▸ h.source e he
    rw [Stmts.lookupOrAlloc_hit hget]
    exact
      { size := h.size
        entry := h.entry
        drawn := fun p hp => h.drawn p (hsub p hp)
        owner := fun p hp q hq => h.owner p (hsub p hp) q (hsub q hq)
        source := fun e he => List.mem_append_left _ (h.source e he) }
  | none =>
    rw [Stmts.lookupOrAlloc_miss hget]
    refine
      { size := h.size
        entry := fun e he => ⟨(h.entry e he).1, Nat.lt_succ_of_lt (h.entry e he).2⟩
        drawn := fun p hp => ?_
        owner := fun p hp q hq heq => ?_
        source := fun e he => List.mem_append_left _ (h.source e he) }
    · rcases List.mem_append.1 hp with hp | hp
      · obtain ⟨n, hn, heq⟩ := h.drawn p hp
        exact ⟨n, Nat.lt_succ_of_lt hn, heq⟩
      · exact ⟨_, Nat.lt_succ_self _, by rw [List.mem_singleton.1 hp]⟩
    · rcases List.mem_append.1 hp with hp | hp <;> rcases List.mem_append.1 hq with hq | hq
      · exact h.owner p hp q hq heq
      · rw [List.mem_singleton.1 hq] at heq
        exact absurd heq (h.ne_fresh hp)
      · rw [List.mem_singleton.1 hp] at heq
        exact absurd heq.symm (h.ne_fresh hq)
      · rw [List.mem_singleton.1 hp, List.mem_singleton.1 hq]

end Names

/-- What `cache_statement` does with a name that was returned. -/
theorem Names.cacheStatement_cases {s : State} (h : Names s) {sql : String} {name : Bytes}
    (hret : (sql, name) ∈ s.returned) (room : Bool) :
    (s.stmts.cache.get? sql).isSome = true ∧ s.cacheStatement sql name room = s ∨
    ∃ n < s.stmts.counter, name = asBytes (stmtName n) ∧ s.stmts.cache.get? sql = none ∧
      (s.entries.length < Stmts.cap ∧ s.cacheStatement sql name room =
          { s with stmts := { s.stmts with cache := s.stmts.cache.insert ⟨sql, stmtName n, n⟩ } } ∨
        Stmts.cap ≤ s.entries.length ∧ ∃ old ∈ s.entries,
          (∀ e ∈ s.entries, old.counter ≤ e.counter) ∧
          s.cacheStatement sql name room =
            { s with
              stmts := { s.stmts with
                cache := (s.stmts.cache.erase old.sql).insert ⟨sql, stmtName n, n⟩ }
              channel := s.channel ++ if room then [Stmts.closeMessages old.name] else [] }) := by
  obtain ⟨n, hn, rfl⟩ := h.drawn _ hret
  unfold State.cacheStatement
  rcases cacheStatement_stmtName s.stmts sql n with
    ⟨hsome, heq⟩ | ⟨hnone, ⟨hlt, heq⟩ | ⟨hge, old, hold, hle, heq⟩⟩
  · rw [heq]
    exact .inl ⟨hsome, rfl⟩
  · rw [heq]
    exact .inr ⟨n, hn, rfl, hnone, .inl ⟨hlt, rfl⟩⟩
  · rw [heq]
    exact .inr ⟨n, hn, rfl, hnone, .inr ⟨hge, old, hold, hle, rfl⟩⟩

namespace Names

variable {s s' : State}

/-- A statement is published for SQL without an entry, with a name that was returned for it. -/
theorem insert (h : Names s) {sql : String} {n : ℕ} (hn : n < s.stmts.counter)
    (hret : (sql, asBytes (stmtName n)) ∈ s.returned) (hnone : s.stmts.cache.get? sql = none)
    (hlt : s.entries.length < Stmts.cap) :
    Names { s with
      stmts := { s.stmts with cache := s.stmts.cache.insert ⟨sql, stmtName n, n⟩ } } := by
  have hentries : (s.stmts.cache.insert ⟨sql, stmtName n, n⟩).entries =
      ⟨sql, stmtName n, n⟩ :: s.entries := entries_insert hnone
  refine
    { size := ?_
      entry := fun e he => ?_
      drawn := h.drawn
      owner := h.owner
      source := fun e he => ?_ }
  · change (s.stmts.cache.insert _).entries.length ≤ _
    rw [hentries]
    exact hlt
  · change e ∈ (s.stmts.cache.insert _).entries at he
    rw [hentries] at he
    rcases List.mem_cons.1 he with rfl | he
    · exact ⟨rfl, hn⟩
    · exact h.entry e he
  · change e ∈ (s.stmts.cache.insert _).entries at he
    rw [hentries] at he
    rcases List.mem_cons.1 he with rfl | he
    · exact hret
    · exact h.source e he

theorem cacheStatement (h : Names s) {sql : String} {name : Bytes}
    (hret : (sql, name) ∈ s.returned) (room : Bool) : Names (s.cacheStatement sql name room) := by
  rcases h.cacheStatement_cases hret room with
    ⟨-, heq⟩ | ⟨n, hn, rfl, hnone, ⟨hlt, heq⟩ | ⟨-, old, hold, -, heq⟩⟩
  · rwa [heq]
  · rw [heq]
    exact h.insert hn hret hnone hlt
  · have hlt := length_erase_lt (c := s.stmts.cache) hold
    have herase : Names { s with stmts := { s.stmts with cache := s.stmts.cache.erase old.sql } } :=
      h.shrink (fun e he => (StmtCache.mem_erase.1 he).1) hlt.le
    have hnone' : (s.stmts.cache.erase old.sql).get? sql = none :=
      StmtCache.get?_eq_none.2 fun e he =>
        StmtCache.get?_eq_none.1 hnone e (StmtCache.mem_erase.1 he).1
    have hinsert := herase.insert hn hret hnone' (hlt.trans_le h.size)
    rw [heq]
    exact { hinsert with }

theorem step {l : Label} (h : Names s) (hstep : cache.step s l = some s') : Names s' := by
  cases l <;> simp only [cache, Representation.step] at hstep
  case lookupOrAlloc sql paramOids =>
    cases hstep
    exact h.lookupOrAlloc sql paramOids
  case cacheStatement sql name room =>
    split_ifs at hstep with hret
    cases hstep
    exact h.cacheStatement hret room
  case invalidateStatement sql =>
    cases hstep
    exact h.shrink (fun e he => (StmtCache.mem_erase.1 he).1) (List.length_filter_le _ _)
  case clearStatementCache =>
    cases hstep
    exact h.shrink (fun e he => by cases he) (Nat.zero_le _)

theorem of_reachable (h : cache.Reachable State.init s) : Names s := by
  have hinit : Names State.init := ⟨Nat.zero_le _, nofun, nofun, nofun, nofun⟩
  exact h.invariant hinit fun _ _ _ hs hstep => hs.step hstep

/-- Publishing into a full cache. -/
theorem replaces (h : Names s) {sql : String} {name : Bytes} (hret : (sql, name) ∈ s.returned)
    (room : Bool) (hnone : s.stmts.cache.get? sql = none) (hfull : Stmts.cap ≤ s.entries.length) :
    Replaces s (s.cacheStatement sql name room) sql name fun old =>
      if room then [Stmts.closeMessages old.name] else [] := by
  rcases h.cacheStatement_cases hret room with
    ⟨hsome, -⟩ | ⟨n, hn, rfl, -, ⟨hlt, -⟩ | ⟨-, old, hold, hle, heq⟩⟩
  · rw [hnone] at hsome
    cases hsome
  · omega
  · rw [heq]
    refine ⟨old, hold, fun e he hne => ?_, ⟨⟨sql, stmtName n, n⟩, rfl, rfl, fun e => ?_⟩, rfl⟩
    · exact lt_of_le_of_ne (hle e he) fun hc => hne (h.eq_of_counter_eq he hold hc.symm)
    · change e ∈ ((s.stmts.cache.erase old.sql).insert _).entries ↔ _
      rw [StmtCache.mem_insert, StmtCache.mem_erase]
      constructor
      · rintro (rfl | ⟨⟨he, hne⟩, -⟩)
        · exact .inl rfl
        · exact .inr ⟨he, fun heq => hne (congrArg Entry.sql heq)⟩
      · rintro (rfl | ⟨he, hne⟩)
        · exact .inl rfl
        · exact .inr ⟨⟨he, fun hsql => hne (StmtCache.eq_of_sql_eq he hold hsql)⟩,
            StmtCache.get?_eq_none.1 hnone e he⟩

end Names

/-! ### A full cache -/

/-- SQL without an entry is looked up. -/
theorem exists_lookup {s : State} {sql : String} (hnone : s.stmts.cache.get? sql = none) :
    ∃ s₁, cache.step s (.lookupOrAlloc sql []) = some s₁ ∧ s₁.entries = s.entries ∧
      s₁.stmts.cache.get? sql = none ∧ s₁.stmts.counter = s.stmts.counter + 1 ∧
      (sql, asBytes (stmtName s.stmts.counter)) ∈ s₁.returned := by
  refine ⟨_, rfl, ?_⟩
  simp only [Stmts.lookupOrAlloc_miss hnone, State.entries]
  exact ⟨trivial, hnone, trivial, List.mem_append_right _ (List.mem_singleton_self _)⟩

theorem get?_stmtName_eq_none {s : State} {n : ℕ}
    (h : ∀ e ∈ s.entries, ∃ k < n, e.sql = stmtName k) :
    s.stmts.cache.get? (stmtName n) = none := by
  refine StmtCache.get?_eq_none.2 fun e he heq => ?_
  obtain ⟨k, hk, hk'⟩ := h e he
  exact Nat.ne_of_lt hk (stmtName_injective (hk'.symm.trans heq))

/-- `n` statements are looked up and published, one after another. -/
theorem exists_filled (n : ℕ) (hn : n ≤ 256) : ∃ s, cache.Reachable State.init s ∧
    s.entries.length = n ∧ s.stmts.counter = n ∧ ∀ e ∈ s.entries, ∃ k < n, e.sql = stmtName k := by
  induction n with
  | zero => exact ⟨State.init, LTS.Reachable.refl _, rfl, rfl, nofun⟩
  | succ n ih =>
    obtain ⟨s, hreach, hlength, rfl, hsql⟩ := ih (by omega)
    obtain ⟨s₁, hs₁, hentries, hnone, hcounter, hret⟩ := exists_lookup (get?_stmtName_eq_none hsql)
    have hreach₁ := hreach.tail hs₁
    set name := stmtName s.stmts.counter
    have hs₂ : cache.step s₁ (.cacheStatement name (asBytes name) true) =
        some (s₁.cacheStatement name (asBytes name) true) := if_pos hret
    rcases (Names.of_reachable hreach₁).cacheStatement_cases hret true with
      ⟨hsome, -⟩ | ⟨m, -, -, -, ⟨-, heq⟩ | ⟨hge, -⟩⟩
    · rw [hnone] at hsome
      cases hsome
    · have hins : (s₁.cacheStatement name (asBytes name) true).entries =
          ⟨name, stmtName m, m⟩ :: s.entries := by
        rw [heq, ← hentries]
        exact entries_insert hnone
      refine ⟨_, hreach₁.tail hs₂, ?_, ?_, fun e he => ?_⟩
      · rw [hins, List.length_cons, hlength]
      · rw [heq]
        exact hcounter
      · rw [hins] at he
        rcases List.mem_cons.1 he with rfl | he
        · exact ⟨_, Nat.lt_succ_self _, rfl⟩
        · obtain ⟨k, hk, hk'⟩ := hsql e he
          exact ⟨k, Nat.lt_succ_of_lt hk, hk'⟩
    · rw [hentries, hlength] at hge
      exact absurd hge (Nat.not_le.2 (Nat.lt_of_succ_le hn))

/-- A new statement is looked up in a full cache. -/
theorem exists_full : ∃ s sql name, cache.Reachable State.init s ∧ (sql, name) ∈ s.returned ∧
    s.stmts.cache.get? sql = none ∧ Stmts.cap ≤ s.entries.length := by
  obtain ⟨s, hreach, hlength, -, hsql⟩ := exists_filled 256 (Nat.le_refl _)
  obtain ⟨s₁, hs₁, hentries, hnone, -, hret⟩ := exists_lookup (get?_stmtName_eq_none hsql)
  refine ⟨s₁, _, _, hreach.tail hs₁, hret, hnone, ?_⟩
  rw [hentries, hlength]
  exact Nat.le_refl _

/-! ### The result -/

/-- **The representation of the cache.**  In every reachable state the cache has at most 256
entries, distinct SQL has distinct names, an entry is named after its counter, a name that is drawn
is new, and publishing into a full cache replaces the oldest entry, whose `Close` is the only
request that is queued, if the channel has room for it. -/
theorem representation {s : State} (h : cache.Reachable State.init s) :
    s.entries.length ≤ 256 ∧
    (∀ e ∈ s.entries, ∀ e' ∈ s.entries, e.sql ≠ e'.sql → e.name ≠ e'.name) ∧
    (∀ e ∈ s.entries, e.name = stmtName e.counter ∧ e.counter < s.stmts.counter) ∧
    (∀ sql paramOids name stmts,
      s.stmts.lookupOrAlloc sql paramOids = ((name, true), stmts) →
      (∀ p ∈ s.returned, p.2 ≠ name) ∧ ∀ e ∈ s.entries, asBytes e.name ≠ name) ∧
    (∀ sql name room s', cache.step s (.cacheStatement sql name room) = some s' →
      s.stmts.cache.get? sql = none → 256 ≤ s.entries.length →
      Replaces s s' sql name fun old => if room then [Stmts.closeMessages old.name] else []) ∧
    ∀ sql name room s', cache.step s (.cacheStatement sql name room) = some s' →
      (s.stmts.cache.get? sql).isSome = true ∨ s.entries.length < 256 → s'.channel = s.channel := by
  have hn := Names.of_reachable h
  refine ⟨hn.size, fun e he e' he' hne hname => ?_, hn.entry, fun sql oids name stmts hl => ?_,
    fun sql name room s' hstep hnone hfull => ?_, fun sql name room s' hstep hkeep => ?_⟩
  · exact hne (congrArg Entry.sql (hn.eq_of_name_eq he he' hname))
  · cases hget : s.stmts.cache.get? sql with
    | some e =>
      rw [Stmts.lookupOrAlloc_hit hget] at hl
      cases hl
    | none =>
      rw [Stmts.lookupOrAlloc_miss hget] at hl
      cases hl
      exact ⟨fun p hp => hn.ne_fresh hp, fun e he => hn.ne_fresh (hn.source e he)⟩
  · simp only [cache, step] at hstep
    split_ifs at hstep with hret
    cases hstep
    exact hn.replaces hret room hnone hfull
  · simp only [cache, step] at hstep
    split_ifs at hstep with hret
    cases hstep
    rcases hn.cacheStatement_cases hret room with
      ⟨-, heq⟩ | ⟨n, -, -, hnone, ⟨-, heq⟩ | ⟨hge, -⟩⟩
    · rw [heq]
    · rw [heq]
    · rcases hkeep with hsome | hlt
      · rw [hnone] at hsome
        cases hsome
      · exact absurd hge (Nat.not_le.2 hlt)

/-- A new statement is published into a full cache. -/
theorem representation_full : ∃ s sql name s', cache.Reachable State.init s ∧
    cache.step s (.cacheStatement sql name true) = some s' ∧ s.entries.length = 256 ∧
      Replaces s s' sql name fun old => [Stmts.closeMessages old.name] := by
  obtain ⟨s, sql, name, hreach, hret, hnone, hfull⟩ := exists_full
  obtain ⟨hsize, -, -, -, hreplaces, -⟩ := representation hreach
  have hstep : cache.step s (.cacheStatement sql name true) = some _ := if_pos hret
  exact ⟨s, sql, name, _, hreach, hstep, Nat.le_antisymm hsize hfull,
    by simpa using hreplaces sql name true _ hstep hnone hfull⟩

/-- When the channel is full, the `Close` of the statement that was evicted is not queued. -/
theorem close_dropped : ¬ ∀ s, cache.Reachable State.init s → ∀ sql name room s',
    cache.step s (.cacheStatement sql name room) = some s' →
    s.stmts.cache.get? sql = none → 256 ≤ s.entries.length →
    Replaces s s' sql name fun old => [Stmts.closeMessages old.name] := by
  intro hall
  obtain ⟨s, sql, name, hreach, hret, hnone, hfull⟩ := exists_full
  have hstep : cache.step s (.cacheStatement sql name false) = some _ := if_pos hret
  -- the channel did not change
  obtain ⟨old, -, -, -, hqueued⟩ := hall s hreach _ _ _ _ hstep hnone hfull
  obtain ⟨old', -, -, -, hkept⟩ := (Names.of_reachable hreach).replaces hret false hnone hfull
  rw [hqueued] at hkept
  simp at hkept

end Resolute.Conn.Representation
