import Resolute.Conn.Pipelined

/-!
# Prepared statements and parameter types

`Client::query` and `Client::execute` send their parameters in binary format, encoded for the types
of the Rust values.  The types are stated in the `Parse` of the statement; a call whose SQL is in
the cache sends no `Parse`, and the cache does not look at the types.

A client makes its calls one after another here; what the server answers is arbitrary (`Env`), and
a `Conn` has the log of what was sent.  The log `RespectsTypes` if every `Bind` carries values for
the types its statement was parsed with.  `respectsTypes_iff` says for which sequences of calls it
does: where a later call can use the statement of an earlier one, the two have the `SameTypes`.
-/

namespace Resolute.Prepared

/-- A parameter: a value of a type that implements `Encode`, or the `None` of an `Option`. -/
inductive SqlParam where
  | value (typeOid : Oid) (encoded : Bytes)
  | null
  deriving DecidableEq, Repr

namespace SqlParam

/-- `param_oid`; with `0` the server infers the type. -/
def paramOid : SqlParam → Oid
  | value typeOid _ => typeOid
  | null => 0

/-- `encode_param_value`. -/
def encodeParamValue : SqlParam → Option Bytes
  | value _ encoded => some encoded
  | null => none

/-- What is sent for the parameter fits the given type: NULL fits every type. -/
def EncodedFor (p : SqlParam) (oid : Oid) : Prop := p = null ∨ p.paramOid = oid

theorem encodedFor_paramOid (p : SqlParam) : p.EncodedFor p.paramOid := .inr rfl

end SqlParam

/-- A request that was sent, and the parameters that its `Bind` encodes. -/
structure Submission where
  messages : List FrontendMsg
  params : List SqlParam
  deriving DecidableEq

/-- What is outside of the client: the reply to the `k`-th request, and whether the channel has room
for a `Close` that would be the `k`-th. -/
structure Env where
  reply : ℕ → Outcome
  hasRoom : ℕ → Bool

/-- A connection: its statement cache, and what was sent, oldest first. -/
structure Conn where
  stmts : Stmts
  sent : List Submission

namespace Conn

/-- A new connection. -/
def new : Conn := ⟨Stmts.new, []⟩

/-- All messages that were sent. -/
def messages (c : Conn) : List FrontendMsg := c.sent.flatMap Submission.messages

/-- `submit`. -/
def submit (env : Env) (sub : Submission) (c : Conn) : Outcome × Conn :=
  (env.reply c.sent.length, { c with sent := c.sent ++ [sub] })

/-- `cache_statement`; the `Close` of an evicted statement is queued if there is room. -/
def cacheStatement (env : Env) (sql : String) (name : Bytes) (c : Conn) : Conn :=
  match c.stmts.cacheStatement sql name with
  | (stmts, none) => { c with stmts := stmts }
  | (stmts, some old) =>
    if env.hasRoom c.sent.length then ⟨stmts, c.sent ++ [⟨Stmts.closeMessages old, []⟩]⟩
    else { c with stmts := stmts }

end Conn

/-- The messages of a call; `describe` says whether the portal is described. -/
def callMessages (describe : Bool) (sql : String) (params : List SqlParam)
    (stmtName : Bytes) (needsParse : Bool) : List FrontendMsg :=
  (if needsParse then [.parse stmtName (asBytes sql) (params.map SqlParam.paramOid)] else []) ++
    [.bind [] stmtName (List.replicate params.length .binary)
      (params.map SqlParam.encodeParamValue) [.binary]] ++
    (if describe then [.describe (byte 'P') []] else []) ++ [.execute [] 0, .sync]

/-- The common part of `query_inner_on` and `execute_inner_on`, up to what they make of the rows
and the command tag of an `Ok` response. -/
def innerOn (describe : Bool) (env : Env) (sql : String) (params : List SqlParam)
    (c : Conn) : Outcome × Conn :=
  let ((stmtName, needsParse), stmts) := c.stmts.lookupOrAlloc sql (params.map SqlParam.paramOid)
  let sub := ⟨callMessages describe sql params stmtName needsParse, params⟩
  match Conn.submit env sub { c with stmts := stmts } with
  | (.error e, c) => (.error e, c)
  | (.ok resp, c) => (.ok resp, if needsParse then c.cacheStatement env sql stmtName else c)

/-- `query_inner_on`. -/
def queryInnerOn : Env → String → List SqlParam → Conn → Outcome × Conn := innerOn true

/-- `execute_inner_on`. -/
def executeInnerOn : Env → String → List SqlParam → Conn → Outcome × Conn := innerOn false

/-- A statement that the server no longer knows is prepared again, once. -/
def retrying (inner : Env → String → List SqlParam → Conn → Outcome × Conn) (env : Env)
    (sql : String) (params : List SqlParam) (c : Conn) : Outcome × Conn :=
  match inner env sql params c with
  | (.error e, c) =>
    if e.isStale then inner env sql params { c with stmts := c.stmts.invalidateStatement sql }
    else (.error e, c)
  | (.ok resp, c) => (.ok resp, c)

/-- `Client::query`. -/
def query : Env → String → List SqlParam → Conn → Outcome × Conn := retrying queryInnerOn

/-- `Client::execute`. -/
def execute : Env → String → List SqlParam → Conn → Outcome × Conn := retrying executeInnerOn

/-- Which method is called. -/
inductive Method where
  | query
  | execute
  deriving DecidableEq, Repr

/-- A call. -/
structure Call where
  method : Method
  sql : String
  params : List SqlParam
  deriving DecidableEq, Repr

namespace Call

/-- The types of the parameters. -/
def oids (d : Call) : List Oid := d.params.map SqlParam.paramOid

/-- The connection after the call. -/
def run (env : Env) (c : Conn) (d : Call) : Conn :=
  match d.method with
  | .query => (query env d.sql d.params c).2
  | .execute => (execute env d.sql d.params c).2

/-- The parameters of the later call fit the types of the earlier one. -/
def SameTypes (earlier later : Call) : Prop :=
  List.Forall₂ SqlParam.EncodedFor later.params earlier.oids

theorem sameTypes_self (d : Call) : d.SameTypes d := by
  simp [SameTypes, oids, List.forall₂_map_right_iff, List.forall₂_same,
    SqlParam.encodedFor_paramOid]

end Call

/-- The connection after a sequence of calls. -/
def runAll (env : Env) (calls : List Call) (c : Conn) : Conn := calls.foldl (Call.run env) c

/-- The parameter types with which the statement of the given name was last parsed. -/
def parsedOids (msgs : List FrontendMsg) (name : Bytes) : Option (List Oid) :=
  msgs.reverse.findSome? fun
    | .parse n _ oids => if n = name then some oids else none
    | _ => none

/-- A `Bind` of the request carries its parameters in binary format, encoded for the types with
which the statement was parsed. -/
def BindsRespect (before : List FrontendMsg) (sub : Submission) : Prop :=
  ∀ portal name formats values resultFormats,
    .bind portal name formats values resultFormats ∈ sub.messages →
    formats = List.replicate sub.params.length .binary ∧
    values = sub.params.map SqlParam.encodeParamValue ∧
    ∃ oids, parsedOids (before ++ sub.messages) name = some oids ∧
      List.Forall₂ SqlParam.EncodedFor sub.params oids

/-- Every `Bind` that was sent respects the types. -/
def RespectsTypes (c : Conn) : Prop :=
  ∀ before sub, before ++ [sub] <+: c.sent → BindsRespect (before.flatMap Submission.messages) sub

/-! ### What a call sends -/

theorem parsedOids_append (msgs more : List FrontendMsg) (name : Bytes) :
    parsedOids (msgs ++ more) name = (parsedOids more name).or (parsedOids msgs name) := by
  simp [parsedOids, List.findSome?_append]

theorem exists_parse_of_parsedOids {msgs : List FrontendMsg} {name : Bytes} {oids : List Oid}
    (h : parsedOids msgs name = some oids) : ∃ sql, .parse name sql oids ∈ msgs := by
  obtain ⟨m, hm, hsome⟩ := List.exists_of_findSome?_eq_some h
  cases m with
  | parse n sql os =>
    simp only at hsome
    split_ifs at hsome with hn
    cases hsome
    exact ⟨sql, hn ▸ List.mem_reverse.1 hm⟩
  | _ => cases hsome

variable (describe needsParse : Bool) (env : Env) (sql : String) (params : List SqlParam)
  (name : Bytes) (c : Conn)

@[simp] theorem parsedOids_callMessages (name' : Bytes) :
    parsedOids (callMessages describe sql params name needsParse) name' =
      if needsParse = true ∧ name = name' then some (params.map SqlParam.paramOid) else none := by
  cases describe <;> cases needsParse <;>
    simp [callMessages, parsedOids, List.findSome?_cons] <;> split_ifs <;> rfl

theorem eq_of_parse_mem_callMessages {name' sql' : Bytes} {oids : List Oid}
    (h : .parse name' sql' oids ∈ callMessages describe sql params name needsParse) :
    needsParse = true ∧ name' = name := by
  cases describe <;> cases needsParse <;> simp_all [callMessages]

theorem eq_of_bind_mem_callMessages {portal name' : Bytes} {formats resultFormats : List FormatCode}
    {values : List (Option Bytes)}
    (h : .bind portal name' formats values resultFormats ∈
      callMessages describe sql params name needsParse) :
    name' = name ∧ formats = List.replicate params.length .binary ∧
      values = params.map SqlParam.encodeParamValue := by
  cases describe <;> cases needsParse <;> simp_all [callMessages]

/-- The connection after the request of a call is sent. -/
def send : Conn :=
  let r := c.stmts.lookupOrAlloc sql (params.map SqlParam.paramOid)
  ⟨r.2, c.sent ++ [⟨callMessages describe sql params r.1.1 r.1.2, params⟩]⟩

theorem innerOn_error {e : PgWireError} (h : env.reply c.sent.length = .error e) :
    innerOn describe env sql params c = (.error e, send describe sql params c) := by
  simp [innerOn, Conn.submit, h, send]

theorem innerOn_ok {resp : PipelineResponse} (h : env.reply c.sent.length = .ok resp) :
    innerOn describe env sql params c = (.ok resp,
      let r := (c.stmts.lookupOrAlloc sql (params.map SqlParam.paramOid)).1
      if r.2 then (send describe sql params c).cacheStatement env sql r.1
      else send describe sql params c) := by
  simp [innerOn, Conn.submit, h, send]

@[simp] theorem messages_concat (stmts : Stmts) (sub : Submission) :
    (Conn.mk stmts (c.sent ++ [sub])).messages = c.messages ++ sub.messages := by
  simp [Conn.messages]

theorem respectsTypes_concat (stmts : Stmts) (sub : Submission) :
    RespectsTypes ⟨stmts, c.sent ++ [sub]⟩ ↔ RespectsTypes c ∧ BindsRespect c.messages sub := by
  constructor
  · refine fun h => ⟨fun before sub' hp => h before sub' (hp.trans (List.prefix_append _ _)), ?_⟩
    exact h c.sent sub List.prefix_rfl
  · rintro ⟨h, hsub⟩ before sub' hp
    rcases List.prefix_concat_iff.1 hp with heq | hp
    · obtain ⟨rfl, hs⟩ := List.append_inj' heq rfl
      cases hs
      exact hsub
    · exact h before sub' hp

/-- The names of the statements were drawn from the counter. -/
def Named : Prop := ∀ name sql oids, .parse name sql oids ∈ c.messages →
  ∃ n < c.stmts.counter, name = asBytes (stmtName n)

variable {describe sql params c}

theorem Named.send (h : Named c) : Named (send describe sql params c) := by
  intro name sql' oids hm
  simp only [Prepared.send, messages_concat, List.mem_append] at hm ⊢
  cases hget : c.stmts.cache.get? sql with
  | some e =>
    simp only [Stmts.lookupOrAlloc_hit hget] at hm ⊢
    rcases hm with hm | hm
    · exact h _ _ _ hm
    · cases (eq_of_parse_mem_callMessages _ _ _ _ _ hm).1
  | none =>
    simp only [Stmts.lookupOrAlloc_miss hget] at hm ⊢
    rcases hm with hm | hm
    · obtain ⟨n, hn, rfl⟩ := h _ _ _ hm
      exact ⟨n, Nat.lt_succ_of_lt hn, rfl⟩
    · exact ⟨_, Nat.lt_succ_self _, (eq_of_parse_mem_callMessages _ _ _ _ _ hm).2⟩

/-- The statements that were parsed before are not parsed again. -/
theorem Named.parsedOids_send (h : Named c) {name : Bytes} {oids : List Oid}
    (hp : parsedOids c.messages name = some oids) :
    parsedOids (Prepared.send describe sql params c).messages name = some oids := by
  simp only [Prepared.send, messages_concat, parsedOids_append, parsedOids_callMessages, hp]
  cases hget : c.stmts.cache.get? sql with
  | some e => simp [Stmts.lookupOrAlloc_hit hget]
  | none =>
    obtain ⟨sql', hm⟩ := exists_parse_of_parsedOids hp
    obtain ⟨n, hn, rfl⟩ := h _ _ _ hm
    have hne : asBytes (stmtName c.stmts.counter) ≠ asBytes (stmtName n) := fun heq =>
      Nat.ne_of_gt hn (stmtName_injective (asBytes_injective heq))
    simp [Stmts.lookupOrAlloc_miss hget, hne]

/-- The statement of a call without one in the cache is parsed with the types of the call. -/
theorem parsedOids_send_self (hget : c.stmts.cache.get? sql = none) :
    parsedOids (send describe sql params c).messages (asBytes (stmtName c.stmts.counter)) =
      some (params.map SqlParam.paramOid) := by
  simp [send, parsedOids_append, Stmts.lookupOrAlloc_miss hget]

/-! ### Calls whose types agree -/

/-- Publishing a statement adds at most its entry, and sends at most a `Close`. -/
theorem cacheStatement_spec (env : Env) (sql : String) (name : Bytes) (c : Conn) :
    ∃ cache sent, c.cacheStatement env sql name = ⟨{ c.stmts with cache := cache }, sent⟩ ∧
      (∀ e ∈ cache.entries, e ∈ c.stmts.cache.entries ∨ e.sql = sql ∧ asBytes e.name = name) ∧
      (sent = c.sent ∨ ∃ old, sent = c.sent ++ [⟨Stmts.closeMessages old, []⟩]) := by
  unfold Conn.cacheStatement
  rcases Stmts.cacheStatement_cases sql name c.stmts with h | ⟨e, hsql, hname, -, h | ⟨old, -, h⟩⟩
  · rw [h]
    exact ⟨_, _, rfl, fun _ => .inl, .inl rfl⟩
  · rw [h]
    refine ⟨_, _, rfl, fun e' he' => ?_, .inl rfl⟩
    rcases StmtCache.mem_insert.1 he' with rfl | ⟨he', -⟩
    · exact .inr ⟨hsql, hname⟩
    · exact .inl he'
  · have hentries : ∀ e' ∈ ((c.stmts.cache.erase old.sql).insert e).entries,
        e' ∈ c.stmts.cache.entries ∨ e'.sql = sql ∧ asBytes e'.name = name := by
      intro e' he'
      rcases StmtCache.mem_insert.1 he' with rfl | ⟨he', -⟩
      · exact .inr ⟨hsql, hname⟩
      · exact .inl (StmtCache.mem_erase.1 he').1
    rw [h]
    by_cases hroom : env.hasRoom c.sent.length
    · exact ⟨_, _, if_pos hroom, hentries, .inr ⟨_, rfl⟩⟩
    · exact ⟨_, _, if_neg hroom, hentries, .inl rfl⟩

/-- Every entry of the cache was parsed with the types of one of the calls `done` with its SQL. -/
structure Tracked (done : List Call) (c : Conn) : Prop where
  named : Named c
  cached : ∀ e ∈ c.stmts.cache.entries, ∃ d ∈ done, d.sql = e.sql ∧
    parsedOids c.messages (asBytes e.name) = some d.oids
  respects : RespectsTypes c

theorem Tracked.mono {done calls : List Call} {c : Conn} (h : Tracked done c)
    (hsub : done ⊆ calls) : Tracked calls c where
  named := h.named
  cached := fun e he => by
    obtain ⟨d, hd, hcached⟩ := h.cached e he
    exact ⟨d, hsub hd, hcached⟩
  respects := h.respects

theorem Tracked.invalidate {done : List Call} {c : Conn} (h : Tracked done c) (sql : String) :
    Tracked done { c with stmts := c.stmts.invalidateStatement sql } where
  named := h.named
  cached := fun e he => h.cached e (StmtCache.mem_erase.1 he).1
  respects := h.respects

section

variable {done : List Call} {c : Conn} {d : Call} (describe : Bool) (env : Env)

/-- The request of a call whose types agree with those of the earlier ones. -/
theorem Tracked.send (h : Tracked done c)
    (hsame : ∀ d' ∈ done, d'.sql = d.sql → d'.SameTypes d) :
    Tracked done (send describe d.sql d.params c) := by
  have hcached : ∀ e ∈ c.stmts.cache.entries, ∃ d' ∈ done, d'.sql = e.sql ∧
      parsedOids (Prepared.send describe d.sql d.params c).messages (asBytes e.name) =
        some d'.oids := fun e he => by
    obtain ⟨d', hd', hsql, hp⟩ := h.cached e he
    exact ⟨d', hd', hsql, h.named.parsedOids_send hp⟩
  refine ⟨h.named.send, ?_, (respectsTypes_concat c _ _).2 ⟨h.respects, ?_⟩⟩
  · cases hget : c.stmts.cache.get? d.sql <;>
      simpa [Prepared.send, Stmts.lookupOrAlloc, hget] using hcached
  · intro portal name formats values resultFormats hbind
    obtain ⟨rfl, hformats, hvalues⟩ := eq_of_bind_mem_callMessages _ _ _ _ _ hbind
    refine ⟨hformats, hvalues, ?_⟩
    cases hget : c.stmts.cache.get? d.sql with
    | some e =>
      -- the statement of an earlier call
      obtain ⟨he, hsql⟩ := StmtCache.of_get?_eq_some hget
      obtain ⟨d', hd', hsql', hp⟩ := h.cached e he
      refine ⟨d'.oids, ?_, hsame d' hd' (hsql'.trans hsql)⟩
      simp [Stmts.lookupOrAlloc_hit hget, parsedOids_append, hp]
    | none =>
      refine ⟨d.oids, ?_, ?_⟩
      · simp [Stmts.lookupOrAlloc_miss hget, parsedOids_append, Call.oids]
      · exact d.sameTypes_self

theorem Tracked.cacheStatement (h : Tracked done c) (hd : d ∈ done) {name : Bytes}
    (hp : parsedOids c.messages name = some d.oids) :
    Tracked done (c.cacheStatement env d.sql name) := by
  obtain ⟨cache, sent, heq, hentries, hsent⟩ := cacheStatement_spec env d.sql name c
  have hcached : ∀ e ∈ cache.entries, ∃ d' ∈ done, d'.sql = e.sql ∧
      parsedOids c.messages (asBytes e.name) = some d'.oids := by
    intro e he
    rcases hentries e he with he | ⟨hsql, rfl⟩
    · exact h.cached e he
    · exact ⟨d, hd, hsql.symm, hp⟩
  rw [heq]
  rcases hsent with rfl | ⟨old, rfl⟩
  · exact ⟨h.named, hcached, h.respects⟩
  · -- a `Close` parses nothing and binds nothing
    refine ⟨?_, ?_, (respectsTypes_concat c _ _).2 ⟨h.respects, ?_⟩⟩
    · intro name' sql' oids hm
      rw [messages_concat, List.mem_append] at hm
      rcases hm with hm | hm
      · exact h.named _ _ _ hm
      · simp [Stmts.closeMessages] at hm
    · simpa [parsedOids_append, parsedOids, Stmts.closeMessages] using hcached
    · intro portal name' formats values resultFormats hbind
      simp [Stmts.closeMessages] at hbind

theorem Tracked.innerOn (h : Tracked done c) (hd : d ∈ done)
    (hsame : ∀ d' ∈ done, d'.sql = d.sql → d'.SameTypes d) :
    Tracked done (innerOn describe env d.sql d.params c).2 := by
  have hsend := h.send describe hsame
  cases hreply : env.reply c.sent.length with
  | error e => rwa [innerOn_error _ _ _ _ _ hreply]
  | ok resp =>
    rw [innerOn_ok _ _ _ _ _ hreply]
    cases hget : c.stmts.cache.get? d.sql with
    | some e => simpa [Stmts.lookupOrAlloc_hit hget] using hsend
    | none =>
      simp only [Stmts.lookupOrAlloc_miss hget, if_true]
      exact hsend.cacheStatement env hd (parsedOids_send_self hget)

end

theorem Call.run_eq (env : Env) (c : Conn) (d : Call) : ∃ describe,
    d.run env c = (retrying (innerOn describe) env d.sql d.params c).2 := by
  unfold Call.run
  cases d.method
  · exact ⟨true, rfl⟩
  · exact ⟨false, rfl⟩

theorem Tracked.run {done : List Call} {c : Conn} {d : Call} (env : Env) (h : Tracked done c)
    (hd : d ∈ done) (hsame : ∀ d' ∈ done, d'.sql = d.sql → d'.SameTypes d) :
    Tracked done (d.run env c) := by
  obtain ⟨describe, heq⟩ := d.run_eq env c
  have hinner := h.innerOn describe env hd hsame
  rw [heq, retrying]
  split
  · rename_i e c' hfst
    rw [hfst] at hinner
    split_ifs
    · exact (hinner.invalidate d.sql).innerOn describe env hd hsame
    · exact hinner
  · rename_i resp c' hfst
    rwa [hfst] at hinner

theorem Tracked.runAll {done calls : List Call} {c : Conn} (env : Env) (h : Tracked done c)
    (hpair : calls.Pairwise fun d d' => d.sql = d'.sql → d.SameTypes d')
    (hdone : ∀ d ∈ done, ∀ d' ∈ calls, d.sql = d'.sql → d.SameTypes d') :
    ∃ done', Tracked done' (runAll env calls c) := by
  induction calls generalizing done c with
  | nil => exact ⟨done, h⟩
  | cons d calls ih =>
    rw [List.pairwise_cons] at hpair
    have hsame : ∀ d' ∈ d :: done, d'.sql = d.sql → d'.SameTypes d := by
      intro d' hd' hsql
      rcases List.mem_cons.1 hd' with rfl | hd'
      · exact d'.sameTypes_self
      · exact hdone d' hd' d List.mem_cons_self hsql
    have hrun := (h.mono (List.subset_cons_self d done)).run env List.mem_cons_self hsame
    refine ih hrun hpair.2 fun d₁ hd₁ d₂ hd₂ hsql => ?_
    rcases List.mem_cons.1 hd₁ with rfl | hd₁
    · exact hpair.1 d₂ hd₂ hsql
    · exact hdone d₁ hd₁ d₂ (List.mem_cons_of_mem _ hd₂) hsql

/-! ### Calls whose types differ -/

/-- The replies when only the `i`-th request is answered. -/
def onlyAnswered (i : ℕ) : Env where
  reply k := if k = i then .ok .done else .error .connectionClosed
  hasRoom _ := false

theorem send_cache (describe : Bool) (sql : String) (params : List SqlParam) (c : Conn) :
    (send describe sql params c).stmts.cache = c.stmts.cache := by
  unfold send Stmts.lookupOrAlloc
  split <;> rfl

/-- Requests that are not answered leave the cache and the statements as they are. -/
theorem runAll_closed (env : Env) (calls : List Call) {c : Conn} (hnamed : Named c)
    (hreply : ∀ k, c.sent.length ≤ k → k < c.sent.length + calls.length →
      env.reply k = .error .connectionClosed) :
    Named (runAll env calls c) ∧ (runAll env calls c).stmts.cache = c.stmts.cache ∧
      (runAll env calls c).sent.length = c.sent.length + calls.length ∧
      c.sent <+: (runAll env calls c).sent ∧
      ∀ name oids, parsedOids c.messages name = some oids →
        parsedOids (runAll env calls c).messages name = some oids := by
  induction calls generalizing c with
  | nil => exact ⟨hnamed, rfl, rfl, List.prefix_rfl, fun _ _ => id⟩
  | cons d calls ih =>
    obtain ⟨describe, hrun⟩ := d.run_eq env c
    have hclosed : env.reply c.sent.length = .error .connectionClosed :=
      hreply _ (Nat.le_refl _) (by simp)
    rw [retrying, innerOn_error _ _ _ _ _ hclosed] at hrun
    replace hrun : d.run env c = send describe d.sql d.params c := hrun
    have hlen : (send describe d.sql d.params c).sent.length = c.sent.length + 1 := by simp [send]
    have hsend : Named (send describe d.sql d.params c) := hnamed.send
    obtain ⟨hnamed', hcache, hlength, hprefix, hparsed⟩ := ih hsend fun k hk hlt =>
      hreply k (by omega) (by simp only [List.length_cons]; omega)
    have hall : runAll env (d :: calls) c = runAll env calls (send describe d.sql d.params c) := by
      rw [← hrun]; rfl
    rw [hall]
    refine ⟨hnamed', hcache.trans (send_cache ..), ?_, ?_, ?_⟩
    · rw [hlength, hlen, List.length_cons]
      omega
    · exact (List.prefix_append _ _).trans hprefix
    · exact fun name oids h => hparsed _ _ (hnamed.parsedOids_send h)

/-- The first request that is answered publishes its statement. -/
theorem run_answered {env : Env} {c : Conn} {d : Call} (hnamed : Named c)
    (hempty : c.stmts.cache = StmtCache.empty) (hreply : env.reply c.sent.length = .ok .done) :
    ∃ e, Named (d.run env c) ∧ (d.run env c).stmts.cache.get? d.sql = some e ∧
      parsedOids (d.run env c).messages (asBytes e.name) = some d.oids ∧
      (d.run env c).sent.length = c.sent.length + 1 := by
  obtain ⟨describe, hrun⟩ := d.run_eq env c
  have hget : c.stmts.cache.get? d.sql = none := by rw [hempty]; rfl
  set name := stmtName c.stmts.counter with hname
  set c' := send describe d.sql d.params c with hc'
  have hempty' : c'.stmts.cache = StmtCache.empty := (send_cache ..).trans hempty
  have hpublished : ∃ n, c'.cacheStatement env d.sql (asBytes name) =
      { c' with stmts := { c'.stmts with cache := c'.stmts.cache.insert ⟨d.sql, name, n⟩ } } := by
    have hnone : StmtCache.empty.get? d.sql = none := rfl
    have hvictim : c'.stmts.victim = none := by
      rw [Stmts.victim, hempty']
      rfl
    refine ⟨(nameCounter name).getD c'.stmts.counter, ?_⟩
    simp only [Conn.cacheStatement, Stmts.cacheStatement, fromUtf8_asBytes, hvictim, hempty', hnone,
      Option.isSome_none, Bool.false_eq_true, if_false]
  obtain ⟨n, hpublished⟩ := hpublished
  rw [retrying, innerOn_ok _ _ _ _ _ hreply] at hrun
  simp only [Stmts.lookupOrAlloc_miss hget, if_true, ← hname, ← hc', hpublished] at hrun
  rw [hrun]
  refine ⟨⟨d.sql, name, n⟩, hnamed.send, ?_, parsedOids_send_self hget, by simp [hc', send]⟩
  exact StmtCache.get?_of_mem (StmtCache.mem_insert.2 (.inl rfl))

/-- If a call cannot use the statement of an earlier one with the same SQL, some replies make it do
so. -/
theorem exists_not_respectsTypes (before between after : List Call) {d d' : Call}
    (hsql : d.sql = d'.sql) (hne : ¬ d.SameTypes d') :
    ∃ env, ¬ RespectsTypes (runAll env (before ++ d :: (between ++ d' :: after)) Conn.new) := by
  refine ⟨onlyAnswered before.length, fun hall => hne ?_⟩
  set env := onlyAnswered before.length with henv
  have hclosed : ∀ k ≠ before.length, env.reply k = .error .connectionClosed := fun k hk => by
    simp [henv, onlyAnswered, hk]
  -- up to `d` nothing is answered, so the cache stays empty
  obtain ⟨hnamed₀, hcache₀, hlength₀, -, -⟩ :=
    runAll_closed env before (c := Conn.new) nofun fun k _ hk =>
      hclosed k (by simp [Conn.new] at hk; omega)
  set c₀ := runAll env before Conn.new with hc₀
  have hlen₀ : c₀.sent.length = before.length := by simpa [Conn.new] using hlength₀
  have hreply : env.reply c₀.sent.length = .ok .done := by
    rw [hlen₀, henv, onlyAnswered]
    exact if_pos rfl
  obtain ⟨e, hnamed₁, hget₁, hparsed₁, hlength₁⟩ := run_answered (d := d) hnamed₀ hcache₀ hreply
  set c₁ := d.run env c₀ with hc₁
  -- from then on nothing is answered, so the entry stays
  obtain ⟨hnamed₂, hcache₂, hlength₂, -, hparsed₂⟩ := runAll_closed env between hnamed₁
    fun k hk _ => hclosed k (by omega)
  set c₂ := runAll env between c₁ with hc₂
  have hget₂ : c₂.stmts.cache.get? d'.sql = some e := by rw [hcache₂, ← hsql, hget₁]
  obtain ⟨describe, hrun⟩ := d'.run_eq env c₂
  rw [retrying, innerOn_error _ _ _ _ _ (hclosed _ (by omega))] at hrun
  replace hrun : d'.run env c₂ = send describe d'.sql d'.params c₂ := hrun
  have hnamed₃ : Named (d'.run env c₂) := hrun ▸ hnamed₂.send
  have hlength₃ : before.length < (d'.run env c₂).sent.length := by
    rw [hrun]
    simp only [send, List.length_append, List.length_singleton]
    omega
  obtain ⟨-, -, -, hprefix, -⟩ := runAll_closed env after hnamed₃
    fun k hk _ => hclosed k (by omega)
  have hsplit : runAll env (before ++ d :: (between ++ d' :: after)) Conn.new =
      runAll env after (d'.run env c₂) := by
    simp [runAll, hc₂, hc₁, hc₀]
  rw [hsplit] at hall
  have hsend : RespectsTypes (send describe d'.sql d'.params c₂) := hrun ▸ fun before' sub hp =>
    hall before' sub (hp.trans hprefix)
  have hbind := ((respectsTypes_concat c₂ _ _).1 hsend).2
  simp only [Stmts.lookupOrAlloc_hit hget₂] at hbind
  have hmem : .bind [] (asBytes e.name) (List.replicate d'.params.length .binary)
      (d'.params.map SqlParam.encodeParamValue) [.binary] ∈
        callMessages describe d'.sql d'.params (asBytes e.name) false := by simp [callMessages]
  obtain ⟨-, -, oids, hoids, hsame⟩ := hbind _ _ _ _ _ hmem
  have hd : parsedOids c₂.messages (asBytes e.name) = some d.oids := hparsed₂ _ _ hparsed₁
  simp only [parsedOids_append, parsedOids_callMessages, Bool.false_eq_true, false_and, if_false,
    Option.none_or, hd, Option.some.injEq] at hoids
  rwa [Call.SameTypes, hoids]

/-- **Parameter types.**  A sequence of calls respects the parameter types, whatever the server
answers, if and only if any two calls with the same SQL agree in the types of their parameters. -/
theorem respectsTypes_iff (calls : List Call) :
    (∀ env, RespectsTypes (runAll env calls Conn.new)) ↔
      calls.Pairwise fun d d' => d.sql = d'.sql → d.SameTypes d' := by
  constructor
  · intro h
    by_contra hpair
    obtain ⟨d, d', hsub, hsql, hne⟩ : ∃ d d', [d, d'].Sublist calls ∧
        d.sql = d'.sql ∧ ¬ d.SameTypes d' := by
      simpa [List.pairwise_iff_forall_sublist] using hpair
    obtain ⟨front, back, rfl, hd, hd'⟩ := List.cons_sublist_iff.1 hsub
    obtain ⟨before, between, rfl⟩ := List.append_of_mem hd
    obtain ⟨between', after, rfl⟩ := List.append_of_mem (List.singleton_sublist.1 hd')
    obtain ⟨env, henv⟩ := exists_not_respectsTypes before (between ++ between') after hsql hne
    exact henv (by simpa using h env)
  · intro hpair env
    have hinit : Tracked [] Conn.new :=
      ⟨nofun, nofun, fun before sub hp => by simp [Conn.new] at hp⟩
    obtain ⟨done, hdone⟩ := hinit.runAll env hpair nofun
    exact hdone.respects

/-- The same SQL with an `int4` and then with a `text`. -/
def mixedCalls : List Call :=
  [⟨.query, "SELECT $1", [.value 23 [0, 0, 0, 1]]⟩,
   ⟨.query, "SELECT $1", [.value 25 [65, 66, 67, 68]]⟩]

/-- The four bytes of the text are bound to the `int4` parameter of the first statement. -/
theorem mixedCalls_mismatch : ∃ env, ¬ RespectsTypes (runAll env mixedCalls Conn.new) := by
  refine ⟨⟨fun _ => .ok .done, fun _ => true⟩, fun h => ?_⟩
  set name := asBytes (stmtName 0) with hname
  have hsent : (runAll ⟨fun _ => .ok .done, fun _ => true⟩ mixedCalls Conn.new).sent =
      [⟨callMessages true "SELECT $1" [.value 23 [0, 0, 0, 1]] name true, [.value 23 [0, 0, 0, 1]]⟩,
        ⟨callMessages true "SELECT $1" [.value 25 [65, 66, 67, 68]] name false,
          [.value 25 [65, 66, 67, 68]]⟩] := rfl
  rw [RespectsTypes, hsent] at h
  have hbind := h [_] _ List.prefix_rfl
  have hmem : .bind [] name [.binary] [some [65, 66, 67, 68]] [.binary] ∈
      callMessages true "SELECT $1" [.value 25 [65, 66, 67, 68]] name false := by
    simp [callMessages, SqlParam.encodeParamValue]
  obtain ⟨-, -, oids, hoids, hsame⟩ := hbind _ _ _ _ _ hmem
  simp only [List.flatMap_singleton, parsedOids_append, parsedOids_callMessages] at hoids
  cases hoids
  simp [SqlParam.EncodedFor, SqlParam.paramOid] at hsame

end Resolute.Prepared
