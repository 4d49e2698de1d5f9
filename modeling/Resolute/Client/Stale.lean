import Mathlib.Data.Finset.Card
import Resolute.Client.Prepared
import Resolute.Conn.Representation

/-!
# Recovery from a stale statement

A statement of the cache may be gone from the server, or may no longer fit the schema: then the
server answers every request that binds it with the error 26000 or 0A000 (`AnswersStale`).  The
typed calls share the cache, but each one has its own code for that error; a `Path` is one of them.

A call `Recovers` if it succeeds by preparing the statement again, or the next one will.  For a
pipeline this depends on its own statements: those that are `missing` in the cache are published
before the error is looked at, and evict the stale entry if there are more of them than the cache
has room for, counting the entries that are `older` (`evicted_iff`).  `recovers_iff` is for every
path.
-/

namespace Resolute.Prepared

/-! ### The calls -/

/-- `query_stream`, up to what it makes of the header and the rows. -/
def queryStream : Env → String → List SqlParam → Conn → Outcome × Conn := innerOn true

/-- `PooledClient::query` and `SharedClient::query`. -/
def queryOnConn : Env → String → List SqlParam → Conn → Outcome × Conn := queryInnerOn

/-- `PooledClient::execute` and `SharedClient::execute`. -/
def executeOnConn : Env → String → List SqlParam → Conn → Outcome × Conn := executeInnerOn

/-- `Pipeline`. -/
structure Pipeline where
  buffers : List Submission
  /-- What is to be published after the run. -/
  pendingCache : List (String × Bytes)

/-- `submit_batch`; the channel takes `takes` requests before it is closed. -/
def Conn.submitBatch (env : Env) (takes : ℕ) (items : List Submission) (c : Conn) :
    Except PgWireError (List Outcome) × Conn :=
  let c' := { c with sent := c.sent ++ items.take takes }
  if items.length ≤ takes then
    (.ok ((List.range items.length).map fun i => env.reply (c.sent.length + i)), c')
  else (.error .connectionClosed, c')

namespace Pipeline

/-- `Client::pipeline`. -/
def empty : Pipeline := ⟨[], []⟩

/-- `Pipeline::encode_query`. -/
def encodeQuery (p : Pipeline) (sql : String) (params : List SqlParam) (c : Conn) :
    Pipeline × Conn :=
  let ((stmtName, needsParse), stmts) := c.stmts.lookupOrAlloc sql (params.map SqlParam.paramOid)
  ({ buffers := p.buffers ++ [⟨callMessages true sql params stmtName needsParse, params⟩]
     pendingCache := p.pendingCache ++ if needsParse then [(sql, stmtName)] else [] },
   { c with stmts := stmts })

/-- The statements are added one after another. -/
def encodeAll : List (String × List SqlParam) → Pipeline → Conn → Pipeline × Conn
  | [], p, c => (p, c)
  | (sql, params) :: rest, p, c =>
    let (p, c) := p.encodeQuery sql params c
    encodeAll rest p c

/-- `Pipeline::run`, up to what it makes of the responses. -/
def run (env : Env) (takes : ℕ) (p : Pipeline) (c : Conn) :
    Except PgWireError (List PipelineResponse) × Conn :=
  if p.buffers.isEmpty then (.ok [], c)
  else match c.submitBatch env takes p.buffers with
    | (.error e, c) => (.error e, c)
    | (.ok responses, c) =>
      (responses.mapM id, p.pendingCache.foldl (fun c q => c.cacheStatement env q.1 q.2) c)

end Pipeline

/-- The typed calls. -/
inductive Path where
  /-- `Client::query` and `Client::execute`. -/
  | client (method : Method)
  /-- `PooledClient::query` and `PooledClient::execute`. -/
  | pooled (method : Method)
  /-- `SharedClient::query` and `SharedClient::execute`. -/
  | shared (method : Method)
  /-- `Client::query_stream`. -/
  | stream
  /-- `Pipeline::run`, with the statements in front of it and behind it. -/
  | pipeline (before after : List (String × List SqlParam)) (takes : ℕ)

/-- The call for the given SQL: whether it succeeds, and the connection after it. -/
def Path.run (env : Env) (sql : String) (params : List SqlParam) (c : Conn) :
    Path → Except PgWireError Unit × Conn
  | client .query => (query env sql params c).map (Except.map fun _ => ()) id
  | client .execute => (execute env sql params c).map (Except.map fun _ => ()) id
  | pooled .query | shared .query => (queryOnConn env sql params c).map (Except.map fun _ => ()) id
  | pooled .execute | shared .execute =>
    (executeOnConn env sql params c).map (Except.map fun _ => ()) id
  | stream => (queryStream env sql params c).map (Except.map fun _ => ()) id
  | pipeline before after takes =>
    let (p, c) := Pipeline.encodeAll (before ++ (sql, params) :: after) Pipeline.empty c
    (p.run env takes c).map (Except.map fun _ => ()) id

/-! ### Staleness and recovery -/

/-- The request binds the statement and prepares none. -/
def Submission.Reuses (sub : Submission) (name : Bytes) : Prop :=
  (∃ portal formats values resultFormats,
    .bind portal name formats values resultFormats ∈ sub.messages) ∧
  ∀ n sql oids, .parse n sql oids ∉ sub.messages

/-- From the request number `n` on, the server answers each request that reuses the statement with
26000 or 0A000. -/
def AnswersStale (env : Env) (name : Bytes) (n : ℕ) (c : Conn) : Prop :=
  ∀ before sub after, c.sent = before ++ sub :: after → n ≤ before.length → sub.Reuses name →
    ∃ e, env.reply before.length = .error e ∧ e.isStale = true

/-- The SQL is prepared between the two states. -/
def Reparses (sql : String) (c c' : Conn) : Prop :=
  ∃ sub ∈ c'.sent.drop c.sent.length, ∃ name oids, .parse name (asBytes sql) oids ∈ sub.messages

/-- The call succeeds by preparing the statement again, or the next call for the SQL prepares it. -/
def Recovers (sql : String) (c : Conn) (r : Except PgWireError Unit × Conn) : Prop :=
  r.1 = .ok () ∧ Reparses sql c r.2 ∨ ∀ oids, (r.2.stmts.lookupOrAlloc sql oids).1.2 = true

/-- What holds of a cache and its counter in every reachable state. -/
structure Regular (s : Stmts) : Prop where
  size : s.cache.entries.length ≤ Stmts.cap
  entry : ∀ e ∈ s.cache.entries, e.name = stmtName e.counter ∧ e.counter < s.counter
  unique : ∀ e ∈ s.cache.entries, ∀ e' ∈ s.cache.entries, e.counter = e'.counter → e = e'

/-- The cache is regular in every reachable state. -/
theorem regular_of_reachable {s : Conn.Representation.State}
    (h : Conn.Representation.cache.Reachable Conn.Representation.State.init s) :
    Regular s.stmts :=
  have hn := Conn.Representation.Names.of_reachable h
  ⟨hn.size, hn.entry, fun _ he _ he' => hn.eq_of_counter_eq he he'⟩

/-- How many entries are older than the given one. -/
def older (s : Stmts) (e : Entry) : ℕ := s.cache.entries.countP (·.counter < e.counter)

/-- How many of the texts have no entry. -/
def missing (s : Stmts) (sqls : List String) : ℕ :=
  (sqls.toFinset.filter fun sql => s.cache.get? sql = none).card

/-- The call prepares a stale statement again. -/
def Path.Retries : Path → Prop
  | .client _ => True
  | _ => False

/-- A pipeline evicts the entry: it has more statements to publish than the cache has room for,
counting the entries that are older. -/
def Path.Evicts (c : Conn) (e : Entry) : Path → Prop
  | .pipeline before after takes =>
    (before ++ after).length < takes ∧
      Stmts.cap + older c.stmts e < c.stmts.cache.entries.length +
        missing c.stmts ((before ++ after).map Prod.fst)
  | _ => False

/-! ### Eviction by a sequence of publications -/

/-- The statements are published one after another. -/
def publishAll : List (String × Bytes) → Stmts → Stmts
  | [], s => s
  | (sql, name) :: rest, s => publishAll rest (s.cacheStatement sql name).1

/-- Publishing other SQL does not bring an entry back. -/
theorem publishAll_get?_none {sql : String} {pending : List (String × Bytes)} {s : Stmts}
    (hnone : s.cache.get? sql = none) (hne : ∀ q ∈ pending, q.1 ≠ sql) :
    (publishAll pending s).cache.get? sql = none := by
  induction pending generalizing s with
  | nil => exact hnone
  | cons q rest ih =>
    obtain ⟨hq, hrest⟩ := List.forall_mem_cons.1 hne
    refine ih (StmtCache.get?_eq_none.2 fun e he => ?_) hrest
    have hold : ∀ e ∈ s.cache.entries, e.sql ≠ sql := StmtCache.get?_eq_none.1 hnone
    rcases Stmts.cacheStatement_cases q.1 q.2 s with
      heq | ⟨new, hsql, -, -, heq | ⟨old, -, heq⟩⟩
    · rw [heq] at he
      exact hold e he
    · rw [heq] at he
      rcases StmtCache.mem_insert.1 he with rfl | ⟨he, -⟩
      · rwa [hsql]
      · exact hold e he
    · rw [heq] at he
      rcases StmtCache.mem_insert.1 he with rfl | ⟨he, -⟩
      · rwa [hsql]
      · exact hold e (StmtCache.mem_erase.1 he).1

theorem missing_cons_of_some {s : Stmts} {sql : String} (h : (s.cache.get? sql).isSome = true)
    (sqls : List String) : missing s (sql :: sqls) = missing s sqls := by
  have hne : s.cache.get? sql ≠ none := Option.isSome_iff_ne_none.1 h
  rw [missing, List.toFinset_cons, Finset.filter_insert, if_neg hne, missing]

/-- A text without an entry gets one. -/
theorem missing_cons_of_none {s s' : Stmts} {sql : String} {sqls : List String}
    (h : s.cache.get? sql = none)
    (h' : ∀ x ∈ sqls, s'.cache.get? x = none ↔ s.cache.get? x = none ∧ x ≠ sql) :
    missing s (sql :: sqls) = missing s' sqls + 1 := by
  have heq : (sql :: sqls).toFinset.filter (fun x => s.cache.get? x = none) =
      insert sql (sqls.toFinset.filter fun x => s'.cache.get? x = none) := by
    ext x
    simp only [List.toFinset_cons, Finset.mem_filter, Finset.mem_insert, List.mem_toFinset]
    constructor
    · rintro ⟨rfl | hx, hnone⟩
      · exact .inl rfl
      · exact or_iff_not_imp_left.2 fun hne => ⟨hx, (h' x hx).2 ⟨hnone, hne⟩⟩
    · rintro (rfl | ⟨hx, hnone⟩)
      · exact ⟨.inl rfl, h⟩
      · exact ⟨.inr hx, ((h' x hx).1 hnone).1⟩
  have hnot : sql ∉ sqls.toFinset.filter fun x => s'.cache.get? x = none := fun hmem => by
    obtain ⟨hx, hnone⟩ := Finset.mem_filter.1 hmem
    exact ((h' sql (List.mem_toFinset.1 hx)).1 hnone).2 rfl
  rw [missing, heq, Finset.card_insert_of_notMem hnot, missing]

/-- The entries after a statement is published, in the place of `old` if there is one. -/
theorem get?_insert_none {c : StmtCache} {e : Entry} {x : String} :
    (c.insert e).get? x = none ↔ c.get? x = none ∧ x ≠ e.sql := by
  simp only [StmtCache.get?_eq_none, StmtCache.mem_insert]
  constructor
  · refine fun h => ⟨fun e' he' hx => ?_, fun hx => h e (.inl rfl) hx.symm⟩
    by_cases hsql : e'.sql = e.sql
    · exact h e (.inl rfl) (hsql.symm.trans hx)
    · exact h e' (.inr ⟨he', hsql⟩) hx
  · rintro ⟨h, hne⟩ e' (rfl | ⟨he', -⟩)
    · exact hne.symm
    · exact h e' he'

theorem get?_erase_none {c : StmtCache} {sql x : String} (hne : x ≠ sql) :
    (c.erase sql).get? x = none ↔ c.get? x = none := by
  simp only [StmtCache.get?_eq_none, StmtCache.mem_erase]
  refine ⟨fun h e he hx => ?_, fun h e he => h e he.1⟩
  exact h e ⟨he, fun hsql => hne (hx.symm.trans hsql)⟩ hx

open Conn.Representation in
/-- **Eviction.**  Publishing a sequence of new statements evicts an entry if and only if there are
more texts without an entry than the cache has room for, counting the entries that are older. -/
theorem evicted_iff {s : Stmts} {e : Entry} (he : e ∈ s.cache.entries)
    (hsize : s.cache.entries.length ≤ Stmts.cap)
    (hunique : ∀ e' ∈ s.cache.entries, e'.counter = e.counter → e' = e)
    {pending : List (String × Bytes)}
    (hdrawn : ∀ q ∈ pending, ∃ n, e.counter < n ∧ q.2 = asBytes (stmtName n))
    (hfresh : ∀ q ∈ pending, ∀ e' ∈ s.cache.entries, e'.counter ≤ e.counter → e'.sql ≠ q.1) :
    (publishAll pending s).cache.get? e.sql = none ↔
      Stmts.cap + older s e < s.cache.entries.length + missing s (pending.map Prod.fst) := by
  induction pending generalizing s with
  | nil =>
    refine iff_of_false ?_ (by simpa [missing] using hsize.trans (Nat.le_add_right _ _))
    simp [publishAll, StmtCache.get?_of_mem he]
  | cons q rest ih =>
    obtain ⟨⟨n, hn, hname⟩, hdrawn'⟩ := List.forall_mem_cons.1 hdrawn
    obtain ⟨hq, hfresh'⟩ := List.forall_mem_cons.1 hfresh
    have hstep : publishAll (q :: rest) s =
        publishAll rest (s.cacheStatement q.1 (asBytes (stmtName n))).1 := by
      rw [publishAll, hname]
    rw [hstep, List.map_cons]
    rcases cacheStatement_stmtName s q.1 n with
      ⟨hsome, heq⟩ | ⟨hnone, ⟨hlt, heq⟩ | ⟨hge, old, hold, hle, heq⟩⟩
    · -- the text is in the cache: nothing changes
      rw [heq, missing_cons_of_some hsome]
      exact ih he hsize hunique hdrawn' hfresh'
    · -- there is room for the new entry
      set s' : Stmts := { s with cache := s.cache.insert ⟨q.1, stmtName n, n⟩ }
      have hentries : s'.cache.entries = ⟨q.1, stmtName n, n⟩ :: s.cache.entries :=
        entries_insert hnone
      have hmissing : missing s (q.1 :: rest.map Prod.fst) = missing s' (rest.map Prod.fst) + 1 :=
        missing_cons_of_none hnone fun x _ => get?_insert_none
      have holder : older s' e = older s e := by
        rw [older, hentries, List.countP_cons_of_neg (by simpa using hn.le), older]
      have hlength : s'.cache.entries.length = s.cache.entries.length + 1 := by
        rw [hentries, List.length_cons]
      rw [heq, ih (s := s')]
      · omega
      · rw [hentries]
        exact List.mem_cons_of_mem _ he
      · omega
      · rw [hentries]
        exact List.forall_mem_cons.2 ⟨fun hc => absurd hc hn.ne', hunique⟩
      · exact hdrawn'
      · intro r hr e' he' hle'
        rw [hentries] at he'
        rcases List.mem_cons.1 he' with rfl | he'
        · exact absurd hn (Nat.not_lt.2 hle')
        · exact hfresh' r hr e' he' hle'
    · by_cases hoe : old = e
      · -- the entry is the oldest one
        subst hoe
        have hgone : ((s.cache.erase old.sql).insert ⟨q.1, stmtName n, n⟩).get? old.sql = none :=
          get?_insert_none.2 ⟨Stmts.get?_invalidateStatement s old.sql, hq old he (Nat.le_refl _)⟩
        have holder : older s old = 0 :=
          List.countP_eq_zero.2 fun e' he' => by simpa using hle e' he'
        have hmissing : missing s (q.1 :: rest.map Prod.fst) ≠ 0 := by
          refine (Finset.card_pos.2 ⟨q.1, ?_⟩).ne'
          simp [hnone]
        rw [heq]
        refine iff_of_true (publishAll_get?_none hgone fun r hr => ?_) ?_
        · exact (hfresh' r hr old he (Nat.le_refl _)).symm
        · omega
      · -- another entry is the oldest one, and makes room
        have hlt : old.counter < e.counter :=
          lt_of_le_of_ne (hle e he) fun hc => hoe (hunique old hold hc)
        have hnone' : (s.cache.erase old.sql).get? q.1 = none :=
          (get?_erase_none (hq old hold hlt.le).symm).2 hnone
        set s' : Stmts := { s with cache := (s.cache.erase old.sql).insert ⟨q.1, stmtName n, n⟩ }
        have hentries : s'.cache.entries =
            ⟨q.1, stmtName n, n⟩ :: (s.cache.erase old.sql).entries := entries_insert hnone'
        have hperm := perm_erase hold
        have hmissing : missing s (q.1 :: rest.map Prod.fst) =
            missing s' (rest.map Prod.fst) + 1 := by
          refine missing_cons_of_none hnone fun x hx => ?_
          obtain ⟨r, hr, rfl⟩ := List.mem_map.1 hx
          rw [get?_insert_none, get?_erase_none (hfresh' r hr old hold hlt.le).symm]
        have holder : older s e = older s' e + 1 := by
          rw [older, older, hentries, List.countP_cons_of_neg (by simpa using hn.le),
            hperm.countP_eq, List.countP_cons_of_pos (by simpa using hlt)]
        have hlength : s'.cache.entries.length = s.cache.entries.length := by
          rw [hentries, hperm.length_eq, List.length_cons, List.length_cons]
        have hsub : ∀ e' ∈ s'.cache.entries,
            e' = ⟨q.1, stmtName n, n⟩ ∨ e' ∈ s.cache.entries := fun e' he' => by
          rw [hentries] at he'
          exact (List.mem_cons.1 he').imp_right fun h => (StmtCache.mem_erase.1 h).1
        rw [heq, ih (s := s')]
        · omega
        · rw [hentries]
          refine List.mem_cons_of_mem _ (StmtCache.mem_erase.2 ⟨he, fun hsql => hoe ?_⟩)
          exact StmtCache.eq_of_sql_eq hold he hsql.symm
        · omega
        · intro e' he' hc
          rcases hsub e' he' with rfl | he'
          · exact absurd hc hn.ne'
          · exact hunique e' he' hc
        · exact hdrawn'
        · intro r hr e' he' hle'
          rcases hsub e' he' with rfl | he'
          · exact absurd hn (Nat.not_lt.2 hle')
          · exact hfresh' r hr e' he' hle'

/-! ### Calls with one statement -/

theorem next_parses_iff (s : Stmts) (sql : String) :
    (∀ oids, (s.lookupOrAlloc sql oids).1.2 = true) ↔ s.cache.get? sql = none := by
  cases h : s.cache.get? sql with
  | none => exact iff_of_true (fun oids => by rw [Stmts.lookupOrAlloc_miss h]) rfl
  | some e =>
    refine iff_of_false (fun hall => ?_) nofun
    have := hall []
    rw [Stmts.lookupOrAlloc_hit h] at this
    cases this

/-- A call that fails recovers if it leaves the SQL without an entry. -/
theorem recovers_of_fails {α : Type} {sql : String} {c c' : Conn} {r : Except PgWireError α}
    (hfail : ∀ a, r ≠ .ok a) :
    Recovers sql c ((r, c').map (Except.map fun _ => ()) id) ↔ c'.stmts.cache.get? sql = none := by
  rw [← next_parses_iff]
  refine or_iff_right fun h => ?_
  cases r with
  | ok a => exact hfail a rfl
  | error e => cases h.1

/-- The request of a call whose SQL is in the cache. -/
def reuse (describe : Bool) (sql : String) (params : List SqlParam) (e : Entry) : Submission :=
  ⟨callMessages describe sql params (asBytes e.name) false, params⟩

theorem reuses_reuse (describe : Bool) (sql : String) (params : List SqlParam) (e : Entry) :
    (reuse describe sql params e).Reuses (asBytes e.name) := by
  refine ⟨⟨[], List.replicate params.length .binary, params.map SqlParam.encodeParamValue,
    [.binary], ?_⟩, fun n sql' oids hmem => ?_⟩
  · exact List.mem_append_left _ (List.mem_append_left _ (List.mem_singleton_self _))
  · cases (eq_of_parse_mem_callMessages _ _ _ _ _ hmem).1

/-- A request that reuses the statement is answered that it is stale. -/
theorem AnswersStale.reply {env : Env} {name : Bytes} {c c' : Conn} {sub : Submission}
    (front : List Submission) (h : AnswersStale env name c.sent.length c')
    (hp : c.sent ++ front ++ [sub] <+: c'.sent) (hsub : sub.Reuses name) :
    ∃ e, env.reply (c.sent.length + front.length) = .error e ∧ e.isStale = true := by
  obtain ⟨back, hback⟩ := hp
  have := h (c.sent ++ front) sub back (by rw [← hback]; simp) (by simp) hsub
  rwa [List.length_append] at this

variable {describe : Bool} {env : Env} {sql : String} {params : List SqlParam} {c : Conn}
  {e : Entry}

theorem innerOn_hit (h : c.stmts.cache.get? sql = some e) : innerOn describe env sql params c =
    (env.reply c.sent.length, ⟨c.stmts, c.sent ++ [reuse describe sql params e]⟩) := by
  cases hr : env.reply c.sent.length with
  | error err =>
    rw [innerOn_error _ _ _ _ _ hr, send]
    simp only [Stmts.lookupOrAlloc_hit h]
    rfl
  | ok resp =>
    rw [innerOn_ok _ _ _ _ _ hr, send]
    simp only [Stmts.lookupOrAlloc_hit h]
    rfl

/-- A call that has to prepare its statement either succeeds, or leaves the SQL without an entry. -/
theorem innerOn_miss (h : c.stmts.cache.get? sql = none) :
    Reparses sql c (innerOn describe env sql params c).2 ∧
      (c.sent <+: (innerOn describe env sql params c).2.sent) ∧
      ((∃ resp, (innerOn describe env sql params c).1 = .ok resp) ∨
        (innerOn describe env sql params c).2.stmts.cache.get? sql = none) := by
  set sub : Submission :=
    ⟨callMessages describe sql params (asBytes (stmtName c.stmts.counter)) true, params⟩
  have hparse : ∃ name oids, .parse name (asBytes sql) oids ∈ sub.messages :=
    ⟨_, _, List.mem_append_left _ (List.mem_append_left _ (List.mem_append_left _
      (List.mem_singleton_self _)))⟩
  have hsend : send describe sql params c =
      ⟨{ c.stmts with counter := c.stmts.counter + 1 }, c.sent ++ [sub]⟩ := by
    simp only [send, Stmts.lookupOrAlloc_miss h]
    rfl
  -- the request is in the log, whatever follows it
  have hlog : ∀ c' : Conn, (send describe sql params c).sent <+: c'.sent →
      Reparses sql c c' ∧ c.sent <+: c'.sent := by
    rintro c' ⟨back, hback⟩
    rw [hsend] at hback
    refine ⟨⟨sub, ?_, hparse⟩, ⟨[sub] ++ back, by rw [← hback, List.append_assoc]⟩⟩
    rw [← hback, List.append_assoc, List.drop_left]
    exact List.mem_cons_self
  cases hr : env.reply c.sent.length with
  | error err =>
    rw [innerOn_error _ _ _ _ _ hr]
    obtain ⟨h₁, h₂⟩ := hlog _ List.prefix_rfl
    refine ⟨h₁, h₂, .inr ?_⟩
    rw [hsend]
    exact h
  | ok resp =>
    rw [innerOn_ok _ _ _ _ _ hr]
    simp only [Stmts.lookupOrAlloc_miss h, if_true]
    obtain ⟨cache, sent, heq, -, hsent⟩ := cacheStatement_spec env sql
      (asBytes (stmtName c.stmts.counter)) (send describe sql params c)
    have hprefix : (send describe sql params c).sent <+: sent := by
      rcases hsent with rfl | ⟨old, rfl⟩
      · exact List.prefix_rfl
      · exact List.prefix_append _ _
    rw [heq]
    obtain ⟨h₁, h₂⟩ := hlog ⟨⟨cache, (send describe sql params c).stmts.counter⟩, sent⟩ hprefix
    exact ⟨h₁, h₂, .inl ⟨resp, rfl⟩⟩

/-- A call that does not react to the error leaves the entry where it is. -/
theorem not_recovers_innerOn (h : c.stmts.cache.get? sql = some e)
    (hstale : AnswersStale env (asBytes e.name) c.sent.length
      (innerOn describe env sql params c).2) :
    ¬ Recovers sql c ((innerOn describe env sql params c).map (Except.map fun _ => ()) id) := by
  rw [innerOn_hit h] at hstale ⊢
  obtain ⟨err, hr, -⟩ := hstale.reply [] (by simp) (reuses_reuse describe sql params e)
  rw [List.length_nil, Nat.add_zero] at hr
  rw [hr, recovers_of_fails nofun, h]
  nofun

/-- A call that prepares the statement again. -/
theorem recovers_retrying (h : c.stmts.cache.get? sql = some e)
    (hstale : AnswersStale env (asBytes e.name) c.sent.length
      (retrying (innerOn describe) env sql params c).2) :
    Recovers sql c
      ((retrying (innerOn describe) env sql params c).map (Except.map fun _ => ()) id) := by
  set c₁ : Conn := ⟨c.stmts.invalidateStatement sql, c.sent ++ [reuse describe sql params e]⟩
  obtain ⟨⟨sub, hsub, hparse⟩, hlog, hend⟩ :
      Reparses sql c₁ (innerOn describe env sql params c₁).2 ∧ _ :=
    innerOn_miss (Stmts.get?_invalidateStatement c.stmts sql)
  obtain ⟨err, hr, herr⟩ : ∃ err, env.reply c.sent.length = .error err ∧ err.isStale = true := by
    refine hstale.reply [] ?_ (reuses_reuse describe sql params e)
    rw [List.append_nil, retrying, innerOn_hit h]
    cases hr : env.reply c.sent.length with
    | ok resp => exact List.prefix_rfl
    | error err =>
      simp only
      split_ifs
      · exact hlog
      · exact List.prefix_rfl
  have heq : retrying (innerOn describe) env sql params c = innerOn describe env sql params c₁ := by
    rw [retrying, innerOn_hit h, hr]
    simp only [herr, if_true]
    rfl
  rw [heq]
  rcases hend with ⟨resp, hok⟩ | hnone
  · refine .inl ⟨by simp [Prod.map, hok, Except.map], sub, ?_, hparse⟩
    -- what is sent after the first attempt is sent after the call began
    rw [List.length_append, List.length_singleton, ← List.drop_drop] at hsub
    exact List.mem_of_mem_drop hsub
  · exact .inr fun oids => by simp only [Prod.map, id, Stmts.lookupOrAlloc_miss hnone]

/-! ### Pipelines -/

/-- What the statements of a pipeline send and publish. -/
structure Encoded (stmts : List (String × List SqlParam)) (c : Conn) (subs : List Submission)
    (pending : List (String × Bytes)) : Prop where
  length : subs.length = stmts.length
  reused : ∀ (i : ℕ) (sql : String) (params : List SqlParam) (e : Entry),
    stmts[i]? = some (sql, params) → c.stmts.cache.get? sql = some e →
    subs[i]? = some (reuse true sql params e)
  texts : pending.map Prod.fst =
    (stmts.map Prod.fst).filter fun sql => c.stmts.cache.get? sql = none
  drawn : ∀ q ∈ pending, ∃ n, c.stmts.counter ≤ n ∧ q.2 = asBytes (stmtName n)

theorem encodeAll_spec (stmts : List (String × List SqlParam)) (p : Pipeline) (c : Conn) :
    ∃ subs pending n, Encoded stmts c subs pending ∧ Pipeline.encodeAll stmts p c =
      (⟨p.buffers ++ subs, p.pendingCache ++ pending⟩,
        { c with stmts := { c.stmts with counter := n } }) := by
  induction stmts generalizing p c with
  | nil =>
    exact ⟨[], [], c.stmts.counter, ⟨rfl, nofun, rfl, nofun⟩, by simp [Pipeline.encodeAll]⟩
  | cons x rest ih =>
    obtain ⟨sql, params⟩ := x
    cases hget : c.stmts.cache.get? sql with
    | some e =>
      obtain ⟨subs, pending, n, henc, heq⟩ :=
        ih ⟨p.buffers ++ [reuse true sql params e], p.pendingCache⟩ c
      refine ⟨reuse true sql params e :: subs, pending, n, ⟨?_, ?_, ?_, henc.drawn⟩, ?_⟩
      · rw [List.length_cons, henc.length, List.length_cons]
      · intro i sql' params' e' hi he'
        cases i with
        | zero =>
          cases hi
          rw [hget] at he'
          cases he'
          rfl
        | succ i => exact henc.reused i sql' params' e' hi he'
      · rw [henc.texts, List.map_cons, List.filter_cons_of_neg (by simp [hget])]
      · simp only [Pipeline.encodeAll, Pipeline.encodeQuery, Stmts.lookupOrAlloc_hit hget,
          Bool.false_eq_true, if_false, List.append_nil]
        rw [show (⟨callMessages true sql params (asBytes e.name) false, params⟩ : Submission) =
          reuse true sql params e from rfl, heq]
        simp
    | none =>
      set name := asBytes (stmtName c.stmts.counter)
      set sub : Submission := ⟨callMessages true sql params name true, params⟩
      obtain ⟨subs, pending, n, henc, heq⟩ :=
        ih ⟨p.buffers ++ [sub], p.pendingCache ++ [(sql, name)]⟩
          { c with stmts := { c.stmts with counter := c.stmts.counter + 1 } }
      refine ⟨sub :: subs, (sql, name) :: pending, n, ⟨?_, ?_, ?_, ?_⟩, ?_⟩
      · rw [List.length_cons, henc.length, List.length_cons]
      · intro i sql' params' e' hi he'
        cases i with
        | zero =>
          cases hi
          rw [hget] at he'
          cases he'
        | succ i => exact henc.reused i sql' params' e' hi he'
      · rw [List.map_cons, henc.texts, List.map_cons, List.filter_cons_of_pos (by simp [hget])]
      · refine List.forall_mem_cons.2 ⟨⟨_, Nat.le_refl _, rfl⟩, fun q hq => ?_⟩
        obtain ⟨k, hk, hname⟩ := henc.drawn q hq
        exact ⟨k, (Nat.le_succ _).trans hk, hname⟩
      · simp only [Pipeline.encodeAll, Pipeline.encodeQuery, Stmts.lookupOrAlloc_miss hget, if_true]
        rw [heq]
        simp

/-- Publishing the statements of a pipeline. -/
theorem foldl_cacheStatement (env : Env) (pending : List (String × Bytes)) (c : Conn) :
    (pending.foldl (fun c q => c.cacheStatement env q.1 q.2) c).stmts = publishAll pending c.stmts ∧
      c.sent <+: (pending.foldl (fun c q => c.cacheStatement env q.1 q.2) c).sent := by
  induction pending generalizing c with
  | nil => exact ⟨rfl, List.prefix_rfl⟩
  | cons q rest ih =>
    have hstmts : (c.cacheStatement env q.1 q.2).stmts = (c.stmts.cacheStatement q.1 q.2).1 := by
      unfold Conn.cacheStatement
      split
      · rename_i heq
        rw [heq]
      · rename_i heq
        rw [heq]
        split_ifs <;> rfl
    obtain ⟨cache, sent, heq, -, hsent⟩ := cacheStatement_spec env q.1 q.2 c
    obtain ⟨h₁, h₂⟩ := ih (c.cacheStatement env q.1 q.2)
    rw [List.foldl_cons]
    refine ⟨by rw [h₁, hstmts, publishAll], List.IsPrefix.trans ?_ h₂⟩
    rw [heq]
    rcases hsent with rfl | ⟨old, rfl⟩
    · exact List.prefix_rfl
    · exact List.prefix_append _ _

theorem mapM_id_ok {ε α : Type} {l : List (Except ε α)} {as : List α} (h : l.mapM id = .ok as) :
    ∀ x ∈ l, ∃ a, x = .ok a := by
  induction l generalizing as with
  | nil => exact nofun
  | cons x l ih =>
    rw [List.mapM_cons] at h
    cases x with
    | error e => cases h
    | ok a =>
      cases hl : l.mapM id with
      | error e =>
        rw [hl] at h
        cases h
      | ok as' => exact List.forall_mem_cons.2 ⟨⟨a, rfl⟩, ih hl⟩

theorem missing_filter (s : Stmts) (sqls : List String) :
    missing s (sqls.filter fun sql => s.cache.get? sql = none) = missing s sqls := by
  unfold missing
  congr 1
  ext x
  simp

theorem missing_of_some {s : Stmts} {sql : String} (h : (s.cache.get? sql).isSome = true)
    (front back : List String) : missing s (front ++ sql :: back) = missing s (front ++ back) := by
  have hne : s.cache.get? sql ≠ none := Option.isSome_iff_ne_none.1 h
  unfold missing
  congr 1
  ext x
  simp only [Finset.mem_filter, List.mem_toFinset, List.mem_append, List.mem_cons]
  constructor
  · rintro ⟨hx | rfl | hx, hnone⟩
    · exact ⟨.inl hx, hnone⟩
    · exact absurd hnone hne
    · exact ⟨.inr hx, hnone⟩
  · rintro ⟨hx | hx, hnone⟩
    · exact ⟨.inl hx, hnone⟩
    · exact ⟨.inr (.inr hx), hnone⟩

section Run

variable {p : Pipeline} {takes : ℕ}

theorem run_queued (hne : p.buffers.isEmpty = false) (h : p.buffers.length ≤ takes) :
    p.run env takes c =
      (((List.range p.buffers.length).map fun i => env.reply (c.sent.length + i)).mapM id,
        p.pendingCache.foldl (fun c q => c.cacheStatement env q.1 q.2)
          { c with sent := c.sent ++ p.buffers }) := by
  simp only [Pipeline.run, hne, Bool.false_eq_true, if_false, Conn.submitBatch, h, if_true,
    List.take_of_length_le h]

theorem run_closed (hne : p.buffers.isEmpty = false) (h : ¬ p.buffers.length ≤ takes) :
    p.run env takes c =
      (.error .connectionClosed, { c with sent := c.sent ++ p.buffers.take takes }) := by
  simp only [Pipeline.run, hne, Bool.false_eq_true, if_false, Conn.submitBatch, h]

end Run

namespace Encoded

variable {before after : List (String × List SqlParam)} {subs : List Submission}
  {pending : List (String × Bytes)} {n : ℕ}

/-- What a pipeline publishes evicts the entry of one of its statements if the others have more
texts without an entry than the cache has room for. -/
theorem evicted_iff (henc : Encoded (before ++ (e.sql, params) :: after) c subs pending)
    (hc : Regular c.stmts) (he : e ∈ c.stmts.cache.entries) :
    (publishAll pending { c.stmts with counter := n }).cache.get? e.sql = none ↔
      Stmts.cap + older c.stmts e < c.stmts.cache.entries.length +
        missing c.stmts ((before ++ after).map Prod.fst) := by
  have htexts : ∀ q ∈ pending, c.stmts.cache.get? q.1 = none := fun q hq => by
    have hmem : q.1 ∈ pending.map Prod.fst := List.mem_map_of_mem hq
    rw [henc.texts] at hmem
    simpa using (List.mem_filter.1 hmem).2
  have hdrawn : ∀ q ∈ pending, ∃ n, e.counter < n ∧ q.2 = asBytes (stmtName n) := fun q hq => by
    obtain ⟨k, hk, hname⟩ := henc.drawn q hq
    exact ⟨k, (hc.entry e he).2.trans_le hk, hname⟩
  have hmissing : missing c.stmts (pending.map Prod.fst) =
      missing c.stmts ((before ++ after).map Prod.fst) := by
    rw [henc.texts, missing_filter, List.map_append, List.map_cons,
      missing_of_some (by rw [StmtCache.get?_of_mem he]; rfl), List.map_append]
  rw [← hmissing]
  exact Prepared.evicted_iff (s := { c.stmts with counter := n }) he hc.size
    (fun e' he' hcounter => hc.unique e' he' e he hcounter) hdrawn
    fun q hq e' he' _ => StmtCache.get?_eq_none.1 (htexts q hq) e' he'

/-- The request for the stale statement is one of the batch, which fails because of it. -/
theorem not_ok (henc : Encoded (before ++ (e.sql, params) :: after) c subs pending)
    (h : c.stmts.cache.get? e.sql = some e) {c' : Conn} (hlog : c.sent ++ subs <+: c'.sent)
    (hstale : AnswersStale env (asBytes e.name) c.sent.length c') (as : List PipelineResponse) :
    ((List.range subs.length).map fun i => env.reply (c.sent.length + i)).mapM id ≠ .ok as := by
  have hsub : subs[before.length]? = some (reuse true e.sql params e) :=
    henc.reused _ _ _ _ (by simp) h
  obtain ⟨hlt, hget⟩ := List.getElem?_eq_some_iff.1 hsub
  have htake : subs.take before.length ++ [reuse true e.sql params e] =
      subs.take (before.length + 1) := by
    rw [← hget, List.take_append_getElem]
  have hprefix : c.sent ++ subs.take before.length ++ [reuse true e.sql params e] <+: c'.sent := by
    rw [List.append_assoc, htake]
    exact ((List.prefix_append_right_inj _).2 (List.take_prefix _ _)).trans hlog
  obtain ⟨err, hr, -⟩ := hstale.reply _ hprefix (reuses_reuse true e.sql params e)
  rw [List.length_take, min_eq_left hlt.le] at hr
  intro hok
  have hmem : Except.error err ∈
      (List.range subs.length).map fun i => env.reply (c.sent.length + i) :=
    List.mem_map.2 ⟨before.length, List.mem_range.2 hlt, hr⟩
  obtain ⟨a, ha⟩ := mapM_id_ok hok _ hmem
  cases ha

end Encoded

/-- A pipeline recovers if and only if its other statements evict the entry. -/
theorem recovers_pipeline (hc : Regular c.stmts) (h : c.stmts.cache.get? sql = some e)
    {before after : List (String × List SqlParam)} {takes : ℕ}
    (hstale : AnswersStale env (asBytes e.name) c.sent.length
      (Path.run env sql params c (.pipeline before after takes)).2) :
    Recovers sql c (Path.run env sql params c (.pipeline before after takes)) ↔
      (Path.pipeline before after takes).Evicts c e := by
  obtain ⟨he, rfl⟩ := StmtCache.of_get?_eq_some h
  obtain ⟨subs, pending, n, henc, heq⟩ :=
    encodeAll_spec (before ++ (e.sql, params) :: after) Pipeline.empty c
  have hlen : subs.length = (before ++ after).length + 1 := by
    rw [henc.length]
    simp
    omega
  have hne : subs.isEmpty = false := by
    cases subs with
    | nil => cases hlen
    | cons => rfl
  set c' : Conn := { c with stmts := { c.stmts with counter := n } }
  have hrun : Path.run env e.sql params c (.pipeline before after takes) =
      (Pipeline.run env takes ⟨subs, pending⟩ c').map (Except.map fun _ => ()) id := by
    rw [Path.run, heq]
    rfl
  rw [hrun] at hstale ⊢
  by_cases htakes : subs.length ≤ takes
  · -- the batch is queued
    obtain ⟨hstmts, hlog⟩ := foldl_cacheStatement env pending { c' with sent := c'.sent ++ subs }
    rw [run_queued hne htakes] at hstale ⊢
    rw [recovers_of_fails (henc.not_ok h hlog hstale), hstmts]
    refine (henc.evicted_iff hc he).trans (and_iff_right ?_).symm
    omega
  · -- the channel is closed
    rw [run_closed hne htakes, recovers_of_fails nofun]
    refine iff_of_false (fun hnone => ?_) fun hev => htakes (by have := hev.1; omega)
    cases h.symm.trans hnone

/-- **Recovery.**  When the statement of the SQL is stale, `Client::query` and `Client::execute`
recover, and a pipeline does if it happens to evict the entry; no other call does. -/
theorem recovers_iff (hc : Regular c.stmts) (h : c.stmts.cache.get? sql = some e) (path : Path)
    (hstale : AnswersStale env (asBytes e.name) c.sent.length (path.run env sql params c).2) :
    Recovers sql c (path.run env sql params c) ↔ path.Retries ∨ path.Evicts c e := by
  cases path with
  | client method =>
    refine iff_of_true ?_ (.inl trivial)
    cases method <;> exact recovers_retrying h hstale
  | pooled method | shared method =>
    refine iff_of_false ?_ (by rintro (h | h) <;> exact h)
    cases method <;> exact not_recovers_innerOn h hstale
  | stream =>
    exact iff_of_false (not_recovers_innerOn h hstale) (by rintro (h | h) <;> exact h)
  | pipeline before after takes =>
    exact (recovers_pipeline hc h hstale).trans (or_iff_right id).symm

/-! ### A statement that is gone -/

/-- The server knows none of the statements. -/
def forgetful : Env := ⟨fun _ => .error (.pg { code := "26000" }), fun _ => true⟩

/-- One statement is in the cache. -/
def oneCached : Conn := ⟨⟨StmtCache.empty.insert ⟨"SELECT 1", "s0", 0⟩, 1⟩, []⟩

theorem regular_oneCached : Regular oneCached.stmts := by
  refine ⟨by decide, fun e he => ?_, fun e he e' he' _ => ?_⟩
  · obtain rfl : e = ⟨"SELECT 1", "s0", 0⟩ := List.mem_singleton.1 he
    exact ⟨rfl, Nat.zero_lt_one⟩
  · rw [List.mem_singleton.1 he, List.mem_singleton.1 he']

theorem answersStale_forgetful (name : Bytes) (n : ℕ) (c : Conn) :
    AnswersStale forgetful name n c := fun _ _ _ _ _ _ => ⟨_, rfl, by decide⟩

theorem recovers_iff_client :
    Recovers "SELECT 1" oneCached (Path.run forgetful "SELECT 1" [] oneCached (.client .query)) :=
  (recovers_iff regular_oneCached rfl _ (answersStale_forgetful _ _ _)).2 (.inl trivial)

/-- A pooled client fails with the same statement again and again. -/
theorem pooled_stuck :
    let call := fun c => Path.run forgetful "SELECT 1" [] c (.pooled .query)
    ∃ e, Regular oneCached.stmts ∧ oneCached.stmts.cache.get? "SELECT 1" = some e ∧
      AnswersStale forgetful (asBytes e.name) 0 (call (call oneCached).2).2 ∧
      ¬ Recovers "SELECT 1" oneCached (call oneCached) ∧
      ¬ Recovers "SELECT 1" (call oneCached).2 (call (call oneCached).2) := by
  refine ⟨⟨"SELECT 1", "s0", 0⟩, regular_oneCached, rfl, answersStale_forgetful _ _ _, ?_, ?_⟩
  all_goals exact not_recovers_innerOn rfl (answersStale_forgetful _ _ _)

end Resolute.Prepared
