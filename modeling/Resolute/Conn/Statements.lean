import Resolute.Client.Prepared
import Resolute.LTS.Basic
import Resolute.LTS.Tally

/-!
# Soundness of the statement cache

Any number of calls share a connection and its statement cache.  A call looks its SQL up, sends its
requests one at a time, and publishes its statement when it has its result; a `Pipeline` looks its
SQL up while it is built and publishes all its statements when its responses are there, whatever
they say.  The server handles the requests in order and may refuse any message (`serve`).

A statement name is *owned* by the entry of the cache that has it, by the `Close` that is queued for
it, or by the call whose `Parse` of it was accepted and that has not published it (`State.owned`).
No name has two owners, and every name that is owned is alive on the server.  So if pipelines
publish only what the server has accepted (`parseAccepted`), every entry of the cache names a
statement that is alive, for its SQL (`cached_alive`).
-/

namespace Resolute.Conn.Statements

open Prepared (SqlParam callMessages)

/-! ### Calls -/

/-- What is called, with its parameters; the statements of a pipeline are `query`s. -/
inductive Stmt where
  /-- `Client::query`. -/
  | query (params : List SqlParam)
  /-- `Client::execute`. -/
  | execute (params : List SqlParam)
  /-- `exec_query`. -/
  | execQuery (params : List (Option Bytes)) (paramOids : List Oid)
  /-- `exec_transaction`. -/
  | execTransaction (setupSql : String) (params : List (Option Bytes)) (paramOids : List Oid)
  deriving DecidableEq

namespace Stmt

/-- The types that `lookup_or_alloc` is given. -/
def oids : Stmt → List Oid
  | query params | execute params => params.map SqlParam.paramOid
  | execQuery _ paramOids | execTransaction _ _ paramOids => paramOids

/-- The request with the `Bind`. -/
def messages (sql : String) (name : Bytes) (needsParse : Bool) : Stmt → List FrontendMsg
  | query params => callMessages true sql params name needsParse
  | execute params => callMessages false sql params name needsParse
  | execQuery params paramOids | execTransaction _ params paramOids =>
    dataMessages sql params paramOids name needsParse

/-- The requests before it. -/
def setup : Stmt → List (List FrontendMsg)
  | execTransaction setupSql _ _ => [[.query (asBytes setupSql)]]
  | _ => []

/-- The requests after it. -/
def commit : Stmt → List (List FrontendMsg)
  | execTransaction _ _ _ => [[.query (asBytes "COMMIT")]]
  | _ => []

/-- The `exec_*` calls retry only after a cache hit, and then send a `Parse` in any case. -/
def forcesParse : Stmt → Bool
  | execQuery _ _ | execTransaction _ _ _ => true
  | _ => false

end Stmt

/-- A statement of a call. -/
structure Item where
  sql : String
  stmt : Stmt
  name : Bytes
  needsParse : Bool
  /-- Its `Parse` was accepted, and it is not published. -/
  accepted : Bool := false
  /-- The response to its request, once the server has sent it. -/
  reply : Option (Except PgError Unit) := none
  deriving DecidableEq

def Item.messages (it : Item) : List FrontendMsg := it.stmt.messages it.sql it.name it.needsParse

/-- Where a call stands. -/
inductive Stage where
  /-- A pipeline that is not run yet. -/
  | building
  /-- The requests before `next` are sent; after the last one the call waits. -/
  | sending (next : ℕ)
  /-- `cache_statement` for the statement `next`. -/
  | publishing (next : ℕ)
  /-- The prepared statement is gone: about to call `invalidate_statement`. -/
  | stale
  /-- About to look the statement up again. -/
  | invalidated
  | done
  deriving DecidableEq, Repr

/-- A call: one statement, or those of a pipeline. -/
structure Call where
  pipeline : Bool
  /-- This is the second attempt. -/
  retried : Bool
  items : List Item
  stage : Stage
  deriving DecidableEq

/-- The requests of a statement; the one with the `Bind` is marked with its position. -/
def Item.requests (it : Item) (k : ℕ) : List (Option ℕ × List FrontendMsg) :=
  it.stmt.setup.map (none, ·) ++ [(some k, it.messages)] ++ it.stmt.commit.map (none, ·)

/-- The requests of a call. -/
def Call.requests (c : Call) : List (Option ℕ × List FrontendMsg) :=
  c.items.zipIdx.flatMap fun (it, k) => it.requests k

/-- The call is over: it has returned, or its future was dropped. -/
def Call.over (c : Call) : Call := { c with items := [], stage := .done }

/-! ### The server -/

/-- What the server has made of a request. -/
structure Served where
  /-- The prepared statements: names and SQL. -/
  alive : List (Bytes × Bytes)
  /-- Those that the request has prepared. -/
  parsed : List (Bytes × Bytes)
  ok : Bool
  deriving DecidableEq

/-- A statement of the given name is prepared. -/
def isAlive (alive : List (Bytes × Bytes)) (name : Bytes) : Bool := alive.any (·.1 = name)

/-- The server carries out at most `n` messages; an error skips those up to the `Sync`. -/
def serve : ℕ → List FrontendMsg → List (Bytes × Bytes) → Served
  | _, [], alive => ⟨alive, [], true⟩
  | 0, _ :: _, alive => ⟨alive, [], false⟩
  | n + 1, .parse name sql _ :: ms, alive =>
    if isAlive alive name then ⟨alive, [], false⟩
    else
      let r := serve n ms ((name, sql) :: alive)
      { r with parsed := (name, sql) :: r.parsed }
  | n + 1, .bind _ name _ _ _ :: ms, alive =>
    if isAlive alive name then serve n ms alive else ⟨alive, [], false⟩
  | n + 1, .close _ name :: ms, alive => serve n ms (alive.filter (·.1 ≠ name))
  | n + 1, _ :: ms, alive => serve n ms alive

/-! ### The connection -/

/-- A request in the channel or on the wire; `origin` is the call and the position of the statement
whose response is awaited. -/
structure Work where
  messages : List FrontendMsg
  origin : Option (ℕ × ℕ)
  deriving DecidableEq

/-- The connection, the calls and the server. -/
structure State where
  stmts : Stmts
  calls : List Call
  queue : List Work
  alive : List (Bytes × Bytes)

/-- The steps. -/
inductive Label where
  /-- A call looks its SQL up. -/
  | call (sql : String) (stmt : Stmt)
  /-- `Client::pipeline`. -/
  | pipeline
  /-- `Pipeline::query` or `Pipeline::execute`. -/
  | add (i : ℕ) (sql : String) (params : List SqlParam)
  /-- `Pipeline::run`. -/
  | run (i : ℕ)
  /-- The next request of the call enters the channel. -/
  | send (i : ℕ)
  /-- The server carries out at most `n` messages of the next request. -/
  | serve (n : ℕ) (e : PgError)
  /-- The call has its responses; those of a pipeline may have timed out. -/
  | resume (i : ℕ)
  /-- `cache_statement`; `room` says whether the channel takes a `Close`. -/
  | publish (i : ℕ) (room : Bool)
  | invalidate (i : ℕ)
  | lookupAgain (i : ℕ)
  /-- The call is cancelled, times out or fails otherwise. -/
  | cancel (i : ℕ)
  deriving DecidableEq

namespace State

/-- A new connection. -/
def init : State := ⟨Stmts.new, [], [], []⟩

/-- `lookup_or_alloc`. -/
def lookup (sql : String) (stmt : Stmt) (s : State) : Item × Stmts :=
  let ((name, needsParse), stmts) := s.stmts.lookupOrAlloc sql stmt.oids
  (⟨sql, stmt, name, needsParse, false, none⟩, stmts)

/-- `cache_statement`. -/
def cacheStatement (sql : String) (name : Bytes) (room : Bool) (s : State) : State :=
  match s.stmts.cacheStatement sql name with
  | (stmts, none) => { s with stmts := stmts }
  | (stmts, some old) => { s with
      stmts := stmts
      queue := if room then s.queue ++ [⟨Stmts.closeMessages old, none⟩] else s.queue }

end State

/-- The response of the server reaches the statement. -/
def Item.answer (r : Served) (e : PgError) (it : Item) : Item :=
  { it with
    accepted := it.accepted || decide ((it.name, asBytes it.sql) ∈ r.parsed)
    reply := some (if r.ok then .ok () else .error e) }

/-- What a call with one statement does with its response. -/
def Call.resumed (c : Call) : Option Call :=
  match c.items with
  | [it] => match it.reply with
    | some (.ok ()) => some { c with stage := .publishing 0 }
    | some (.error e) =>
      if isStaleStatementError e && !c.retried && !(it.stmt.forcesParse && it.needsParse) then
        some { c with stage := .stale }
      else some c.over
    | none => none
  | _ => none

/-- One step. -/
def step (s : State) : Label → Option State
  | .call sql stmt =>
    let (it, stmts) := s.lookup sql stmt
    some { s with stmts := stmts, calls := s.calls ++ [⟨false, false, [it], .sending 0⟩] }
  | .pipeline => some { s with calls := s.calls ++ [⟨true, false, [], .building⟩] }
  | .add i sql params => match s.calls[i]? with
    | some c =>
      if c.stage = .building then
        let (it, stmts) := s.lookup sql (.query params)
        some { s with stmts := stmts, calls := s.calls.set i { c with items := c.items ++ [it] } }
      else none
    | none => none
  | .run i => match s.calls[i]? with
    | some c =>
      if c.stage = .building then
        some { s with calls := s.calls.set i { c with stage := .sending 0 } }
      else none
    | none => none
  | .send i => match s.calls[i]? with
    | some c => match c.stage with
      | .sending next => match c.requests[next]? with
        | some (origin, messages) => some { s with
            queue := s.queue ++ [⟨messages, origin.map (i, ·)⟩]
            calls := s.calls.set i { c with stage := .sending (next + 1) } }
        | none => none
      | _ => none
    | none => none
  | .serve n e => match s.queue with
    | w :: rest =>
      let r := Statements.serve n w.messages s.alive
      some { s with
        queue := rest
        alive := r.alive
        calls := match w.origin with
          | some (i, k) => s.calls.modify i fun c =>
              { c with items := c.items.modify k (.answer r e) }
          | none => s.calls }
    | [] => none
  | .resume i => match s.calls[i]? with
    | some c =>
      if c.stage = .sending c.requests.length then
        if c.pipeline then some { s with calls := s.calls.set i { c with stage := .publishing 0 } }
        else c.resumed.map fun c' => { s with calls := s.calls.set i c' }
      else none
    | none => none
  | .publish i room => match s.calls[i]? with
    | some c => match c.stage with
      | .publishing next => match c.items[next]? with
        | some it =>
          let s' := if it.needsParse then s.cacheStatement it.sql it.name room else s
          let c' := { c with
            items := c.items.set next { it with accepted := false },
            stage := .publishing (next + 1) }
          some { s' with calls := s.calls.set i c' }
        | none => some { s with calls := s.calls.set i c.over }
      | _ => none
    | none => none
  | .invalidate i => match s.calls[i]? with
    | some c => match c.stage, c.items with
      | .stale, [it] => some { s with
          stmts := s.stmts.invalidateStatement it.sql
          calls := s.calls.set i { c with stage := .invalidated } }
      | _, _ => none
    | none => none
  | .lookupAgain i => match s.calls[i]? with
    | some c => match c.stage, c.items with
      | .invalidated, [it] =>
        let (it', stmts) := s.lookup it.sql it.stmt
        let again := { it' with needsParse := it'.needsParse || it.stmt.forcesParse }
        some { s with
          stmts := stmts, calls := s.calls.set i c.over ++ [⟨false, true, [again], .sending 0⟩] }
      | _, _ => none
    | none => none
  | .cancel i => (s.calls[i]?).map fun c => { s with calls := s.calls.set i c.over }

/-- The calls on a connection and its server as a transition system. -/
def connection : LTS State Label := ⟨step⟩

/-- What a step does, branch by branch. -/
inductive Trans (s : State) : Label → State → Prop
  | call (sql : String) (stmt : Stmt) : Trans s (.call sql stmt) { s with
      stmts := (s.lookup sql stmt).2
      calls := s.calls ++ [⟨false, false, [(s.lookup sql stmt).1], .sending 0⟩] }
  | pipeline : Trans s .pipeline { s with calls := s.calls ++ [⟨true, false, [], .building⟩] }
  | add {i : ℕ} {c : Call} (sql : String) (params : List SqlParam) (hc : s.calls[i]? = some c)
      (hstage : c.stage = .building) : Trans s (.add i sql params) { s with
        stmts := (s.lookup sql (.query params)).2
        calls := s.calls.set i
          { c with items := c.items ++ [(s.lookup sql (.query params)).1] } }
  | run {i : ℕ} {c : Call} (hc : s.calls[i]? = some c) (hstage : c.stage = .building) :
      Trans s (.run i) { s with calls := s.calls.set i { c with stage := .sending 0 } }
  | send {i next : ℕ} {c : Call} {origin : Option ℕ} {messages : List FrontendMsg}
      (hc : s.calls[i]? = some c) (hstage : c.stage = .sending next)
      (hrequest : c.requests[next]? = some (origin, messages)) : Trans s (.send i) { s with
        queue := s.queue ++ [⟨messages, origin.map (i, ·)⟩]
        calls := s.calls.set i { c with stage := .sending (next + 1) } }
  | serve {w : Work} {rest : List Work} (n : ℕ) (e : PgError) (hq : s.queue = w :: rest) :
      Trans s (.serve n e) { s with
        queue := rest
        alive := (Statements.serve n w.messages s.alive).alive
        calls := match w.origin with
          | some (i, k) => s.calls.modify i fun c => { c with
              items := c.items.modify k (.answer (Statements.serve n w.messages s.alive) e) }
          | none => s.calls }
  | resumePipeline {i : ℕ} {c : Call} (hc : s.calls[i]? = some c)
      (hstage : c.stage = .sending c.requests.length) (hp : c.pipeline = true) :
      Trans s (.resume i) { s with calls := s.calls.set i { c with stage := .publishing 0 } }
  | resume {i : ℕ} {c c' : Call} (hc : s.calls[i]? = some c)
      (hstage : c.stage = .sending c.requests.length) (hp : ¬c.pipeline = true)
      (hc' : c.resumed = some c') : Trans s (.resume i) { s with calls := s.calls.set i c' }
  | publish {i next : ℕ} {c : Call} {it : Item} (room : Bool) (hc : s.calls[i]? = some c)
      (hstage : c.stage = .publishing next) (hit : c.items[next]? = some it) :
      Trans s (.publish i room)
        { (if it.needsParse then s.cacheStatement it.sql it.name room else s) with
          calls := s.calls.set i { c with
            items := c.items.set next { it with accepted := false }
            stage := .publishing (next + 1) } }
  | published {i next : ℕ} {c : Call} (room : Bool) (hc : s.calls[i]? = some c)
      (hstage : c.stage = .publishing next) (hnone : c.items[next]? = none) :
      Trans s (.publish i room) { s with calls := s.calls.set i c.over }
  | invalidate {i : ℕ} {c : Call} {it : Item} (hc : s.calls[i]? = some c)
      (hstage : c.stage = .stale) (hitems : c.items = [it]) : Trans s (.invalidate i) { s with
        stmts := s.stmts.invalidateStatement it.sql
        calls := s.calls.set i { c with stage := .invalidated } }
  | lookupAgain {i : ℕ} {c : Call} {it : Item} (hc : s.calls[i]? = some c)
      (hstage : c.stage = .invalidated) (hitems : c.items = [it]) :
      Trans s (.lookupAgain i) { s with
        stmts := (s.lookup it.sql it.stmt).2
        calls := s.calls.set i c.over ++ [⟨false, true, [{ (s.lookup it.sql it.stmt).1 with
          needsParse := (s.lookup it.sql it.stmt).1.needsParse || it.stmt.forcesParse }],
          .sending 0⟩] }
  | cancel {i : ℕ} {c : Call} (hc : s.calls[i]? = some c) :
      Trans s (.cancel i) { s with calls := s.calls.set i c.over }

theorem trans_of_step {s s' : State} {l : Label} (h : connection.step s l = some s') :
    Trans s l s' := by
  cases l <;> simp only [connection, step] at h
  case call sql stmt =>
    cases h
    exact .call sql stmt
  case pipeline =>
    cases h
    exact .pipeline
  case add i sql params =>
    split at h
    · rename_i c hc
      split_ifs at h with hstage
      cases h
      exact .add sql params hc hstage
    · cases h
  case run i =>
    split at h
    · rename_i c hc
      split_ifs at h with hstage
      cases h
      exact .run hc hstage
    · cases h
  case send i =>
    split at h
    · rename_i c hc
      split at h
      · rename_i next hstage
        split at h
        · rename_i origin messages hrequest
          cases h
          exact .send hc hstage hrequest
        · cases h
      · cases h
    · cases h
  case serve n e =>
    split at h
    · rename_i w rest hq
      cases h
      exact .serve n e hq
    · cases h
  case resume i =>
    split at h
    · rename_i c hc
      split_ifs at h with hstage hp
      · cases h
        exact .resumePipeline hc hstage hp
      · obtain ⟨c', hc', rfl⟩ := Option.map_eq_some_iff.1 h
        exact .resume hc hstage hp hc'
    · cases h
  case publish i room =>
    split at h
    · rename_i c hc
      split at h
      · rename_i next hstage
        split at h
        · rename_i it hit
          cases h
          exact .publish room hc hstage hit
        · rename_i hnone
          cases h
          exact .published room hc hstage hnone
      · cases h
    · cases h
  case invalidate i =>
    split at h
    · rename_i c hc
      split at h
      · rename_i it hstage hitems
        cases h
        exact .invalidate hc hstage hitems
      · cases h
    · cases h
  case lookupAgain i =>
    split at h
    · rename_i c hc
      split at h
      · rename_i it hstage hitems
        cases h
        exact .lookupAgain hc hstage hitems
      · cases h
    · cases h
  case cancel i =>
    obtain ⟨c, hc, rfl⟩ := Option.map_eq_some_iff.1 h
    exact .cancel hc

/-- A pipeline publishes a statement only if the server has accepted its `Parse`, or if its SQL is
in the cache. -/
def parseAccepted (s : State) : Label → Prop
  | .publish i _ => match s.calls[i]? with
    | some c => match c.stage with
      | .publishing next => match c.items[next]? with
        | some it => c.pipeline = true → it.needsParse = true →
          it.accepted = true ∨ (s.stmts.cache.get? it.sql).isSome = true
        | none => True
      | _ => True
    | none => True
  | _ => True

instance (s : State) (l : Label) : Decidable (parseAccepted s l) := by
  unfold parseAccepted; split <;> (try split) <;> (try split) <;> (try split) <;> infer_instance

/-! ### What the server does with the requests -/

/-- A message that neither prepares nor closes a statement. -/
def isPlain : FrontendMsg → Bool
  | .parse .. | .close .. => false
  | _ => true

theorem serve_plain {ms : List FrontendMsg} (h : ∀ m ∈ ms, isPlain m = true) (n : ℕ)
    (alive : List (Bytes × Bytes)) :
    (serve n ms alive).alive = alive ∧ (serve n ms alive).parsed = [] := by
  induction ms generalizing n with
  | nil => cases n <;> exact ⟨rfl, rfl⟩
  | cons m ms ih =>
    obtain ⟨hm, hms⟩ := List.forall_mem_cons.1 h
    cases n with
    | zero => exact ⟨rfl, rfl⟩
    | succ n =>
      cases m with
      | parse | close => cases hm
      | bind portal name =>
        unfold serve
        split_ifs
        · exact ih hms n
        · exact ⟨rfl, rfl⟩
      | _ => exact ih hms n

/-- The `Parse` of a statement, if it needs one, stands in front of plain messages. -/
theorem Item.messages_eq (it : Item) : ∃ tail oids, (∀ m ∈ tail, isPlain m = true) ∧
    it.messages = (if it.needsParse then [.parse it.name (asBytes it.sql) oids] else []) ++
      tail := by
  obtain ⟨sql, stmt, name, needsParse, accepted, reply⟩ := it
  cases stmt <;>
    simp only [Item.messages, Stmt.messages, callMessages, dataMessages, List.append_assoc]
  all_goals exact ⟨_, _, by simp [isPlain], rfl⟩

/-- The request of a statement prepares it, or changes nothing. -/
theorem serve_item (it : Item) (n : ℕ) (alive : List (Bytes × Bytes)) :
    ((serve n it.messages alive).alive = alive ∧ (serve n it.messages alive).parsed = [] ∧
      ((serve n it.messages alive).ok = true → it.needsParse = false)) ∨
    (isAlive alive it.name = false ∧
      (serve n it.messages alive).alive = (it.name, asBytes it.sql) :: alive ∧
      (serve n it.messages alive).parsed = [(it.name, asBytes it.sql)]) := by
  obtain ⟨tail, oids, hplain, heq⟩ := it.messages_eq
  rw [heq]
  by_cases hparse : it.needsParse = true
  · rw [if_pos hparse]
    cases n with
    | zero => exact .inl ⟨rfl, rfl, nofun⟩
    | succ n =>
      by_cases halive : isAlive alive it.name = true
      · simp [serve, halive]
      · obtain ⟨h₁, h₂⟩ := serve_plain hplain n ((it.name, asBytes it.sql) :: alive)
        exact .inr ⟨by simpa using halive, by simp [serve, halive, h₁], by simp [serve, halive, h₂]⟩
  · rw [if_neg hparse]
    obtain ⟨h₁, h₂⟩ := serve_plain hplain n alive
    exact .inl ⟨h₁, h₂, fun _ => by simpa using hparse⟩

theorem serve_item_grows (it : Item) (n : ℕ) (alive : List (Bytes × Bytes)) :
    alive ⊆ (serve n it.messages alive).alive ∧
      (serve n it.messages alive).parsed ⊆ (serve n it.messages alive).alive ∧
      ((serve n it.messages alive).ok = true → it.needsParse = true →
        (it.name, asBytes it.sql) ∈ (serve n it.messages alive).parsed) := by
  rcases serve_item it n alive with ⟨halive, hparsed, hok⟩ | ⟨-, halive, hparsed⟩
  · rw [halive, hparsed]
    refine ⟨List.Subset.refl _, List.nil_subset _, fun h₁ h₂ => ?_⟩
    rw [hok h₁] at h₂
    cases h₂
  · rw [halive, hparsed]
    refine ⟨List.subset_cons_self _ _, ?_, fun _ _ => List.mem_singleton_self _⟩
    exact List.cons_subset.2 ⟨List.mem_cons_self, List.nil_subset _⟩

theorem serve_close (name : String) (n : ℕ) (alive : List (Bytes × Bytes)) :
    (serve n (Stmts.closeMessages name) alive).alive = alive ∨
      (serve n (Stmts.closeMessages name) alive).alive = alive.filter (·.1 ≠ asBytes name) := by
  match n with
  | 0 => exact .inl rfl
  | 1 => exact .inr rfl
  | n + 2 => exact .inr (by simp [Stmts.closeMessages, serve])

theorem isAlive_of_mem {alive : List (Bytes × Bytes)} {name sql : Bytes}
    (h : (name, sql) ∈ alive) : isAlive alive name = true :=
  List.any_eq_true.2 ⟨_, h, by simp⟩

/-! ### Owners of names -/

/-- The names a request closes. -/
def closes (ms : List FrontendMsg) : List Bytes := ms.filterMap fun
  | .close _ name => some name
  | _ => none

/-- The name of a statement that is accepted and not published. -/
def Item.token (it : Item) : List Bytes := if it.accepted then [it.name] else []

/-- The names that the call owns. -/
def Call.tokens (c : Call) : List Bytes := c.items.flatMap Item.token

/-- The names that the cache owns. -/
def cacheNames (cache : StmtCache) : List Bytes := cache.entries.map fun e => asBytes e.name

/-- The names that are owned. -/
def State.owned (s : State) : List Bytes :=
  cacheNames s.stmts.cache ++ s.queue.flatMap (fun w => closes w.messages) ++
    s.calls.flatMap Call.tokens

theorem closes_item (it : Item) : closes it.messages = [] := by
  obtain ⟨tail, oids, hplain, heq⟩ := it.messages_eq
  have htail : closes tail = [] := by
    refine List.filterMap_eq_nil_iff.2 fun m hm => ?_
    cases m with
    | close kind name => cases hplain _ hm
    | _ => rfl
  rw [heq, closes, List.filterMap_append, ← closes, ← closes, htail]
  split_ifs <;> rfl

theorem closes_closeMessages (name : String) : closes (Stmts.closeMessages name) = [asBytes name] :=
  rfl

section Count

variable {α β : Type} [BEq β]

/-- Changing one element of a list changes the count of what the elements contribute by as much. -/
theorem count_flatMap_set {l : List α} {i : ℕ} {a : α} (h : l[i]? = some a)
    (a' : α) (f : α → List β)
    (x : β) : ((l.set i a').flatMap f).count x + (f a).count x =
      (l.flatMap f).count x + (f a').count x := by
  induction l generalizing i with
  | nil => cases h
  | cons b l ih =>
    cases i with
    | zero =>
      cases h
      simp only [List.set_cons_zero, List.flatMap_cons, List.count_append]
      omega
    | succ i =>
      have := ih (by simpa using h)
      simp only [List.set_cons_succ, List.flatMap_cons, List.count_append]
      omega

theorem modify_eq_set {l : List α} {i : ℕ} {a : α} (h : l[i]? = some a) (g : α → α) :
    l.modify i g = l.set i (g a) := by
  refine List.ext_getElem? fun j => ?_
  have hlt := (List.getElem?_eq_some_iff.1 h).1
  by_cases hij : i = j
  · subst hij
    rw [List.getElem?_modify_eq, List.getElem?_set_self hlt, h]
    rfl
  · rw [List.getElem?_modify_ne _ _ hij, List.getElem?_set_ne hij]

end Count

theorem count_cacheNames_erase {cache : StmtCache} {old : Entry} (h : old ∈ cache.entries)
    (n : Bytes) : (cacheNames (cache.erase old.sql)).count n + [asBytes old.name].count n =
      (cacheNames cache).count n := by
  have hfilter : (cache.erase old.sql).entries = cache.entries.erase old := by
    rw [cache.nodup.of_map.erase_eq_filter]
    refine List.filter_congr fun e he => ?_
    by_cases heq : e = old
    · simp [heq]
    · have hsql : e.sql ≠ old.sql := fun hsql => heq (StmtCache.eq_of_sql_eq he h hsql)
      simp [heq, hsql]
  have hperm := ((List.perm_cons_erase h).map fun e : Entry => asBytes e.name).count_eq n
  rw [List.map_cons, List.count_cons] at hperm
  rw [cacheNames, cacheNames, hfilter, hperm, List.count_singleton]

theorem count_cacheNames_insert {cache : StmtCache} {e : Entry} (h : cache.get? e.sql = none)
    (n : Bytes) : (cacheNames (cache.insert e)).count n =
      (cacheNames cache).count n + [asBytes e.name].count n := by
  have hfilter : (cache.erase e.sql).entries = cache.entries :=
    List.filter_eq_self.2 fun e' he' => by simpa using StmtCache.get?_eq_none.1 h e' he'
  have hentries : (cache.insert e).entries = e :: cache.entries := congrArg (e :: ·) hfilter
  rw [cacheNames, cacheNames, hentries, List.map_cons, List.count_cons, List.count_singleton]

/-- An entry makes room for a new one. -/
theorem count_cacheNames_replace {cache : StmtCache} {old e : Entry} (hold : old ∈ cache.entries)
    (h : cache.get? e.sql = none) (n : Bytes) :
    (cacheNames ((cache.erase old.sql).insert e)).count n + [asBytes old.name].count n =
      (cacheNames cache).count n + [asBytes e.name].count n := by
  have hnone : (cache.erase old.sql).get? e.sql = none := StmtCache.get?_eq_none.2 fun e' he' =>
    StmtCache.get?_eq_none.1 h e' (StmtCache.mem_erase.1 he').1
  have herase := count_cacheNames_erase hold n
  rw [count_cacheNames_insert hnone]
  omega

theorem count_cacheNames_erase_le (cache : StmtCache) (sql : String) (n : Bytes) :
    (cacheNames (cache.erase sql)).count n ≤ (cacheNames cache).count n :=
  (List.filter_sublist.map _).count_le n

/-! ### The invariant -/

/-- What holds of a call. -/
structure Call.Valid (alive : List (Bytes × Bytes)) (c : Call) : Prop where
  accepted : ∀ it ∈ c.items, it.accepted = true → (it.name, asBytes it.sql) ∈ alive
  /-- The server reports success only if it has accepted the `Parse`. -/
  answered : (∀ k, c.stage ≠ .publishing k) → ∀ it ∈ c.items, it.reply = some (.ok ()) →
    it.needsParse = true → it.accepted = true
  /-- A call that is no pipeline publishes only after success. -/
  ready : c.pipeline = false → c.stage = .publishing 0 → ∀ it ∈ c.items, it.needsParse = true →
    it.accepted = true
  single : c.pipeline = false → c.items.length ≤ 1
  building : c.stage = .building → c.pipeline = true

/-- A request in the queue is that of the statement it comes from. -/
def Queued (calls : List Call) (w : Work) : Prop :=
  match w.origin with
  | none => (∃ sql, w.messages = [.query sql]) ∨ ∃ name, w.messages = Stmts.closeMessages name
  | some (i, k) => (∃ it : Item, w.messages = it.messages) ∧ ∃ c, calls[i]? = some c ∧
      c.stage ≠ .building ∧ ∀ it, c.items[k]? = some it → w.messages = it.messages

/-- The invariant of the runs in which pipelines publish only what was accepted. -/
structure Sound (s : State) : Prop where
  /-- No name has two owners. -/
  unique : ∀ n, s.owned.count n ≤ 1
  closing : ∀ w ∈ s.queue, ∀ n ∈ closes w.messages, isAlive s.alive n = true
  cached : ∀ e ∈ s.stmts.cache.entries, (asBytes e.name, asBytes e.sql) ∈ s.alive
  calls : ∀ c ∈ s.calls, c.Valid s.alive
  queued : ∀ w ∈ s.queue, Queued s.calls w

theorem Call.Valid.mono {alive alive' : List (Bytes × Bytes)} {c : Call} (h : c.Valid alive)
    (hsub : alive ⊆ alive') : c.Valid alive' :=
  { h with accepted := fun it hit ha => hsub (h.accepted it hit ha) }

theorem Call.over_valid (alive : List (Bytes × Bytes)) (c : Call) : c.over.Valid alive where
  accepted := fun _ h => by cases h
  answered := fun _ _ h => by cases h
  ready := fun _ h => by cases h
  single := fun _ => Nat.zero_le _
  building := fun h => by cases h

/-- A call moves on. -/
theorem Call.Valid.toStage {alive : List (Bytes × Bytes)} {c : Call} (h : c.Valid alive)
    {stage : Stage} (hstage : ∀ k, c.stage ≠ .publishing k) (hne : stage ≠ .building)
    (hready : stage = .publishing 0 → c.pipeline = false → ∀ it ∈ c.items,
      it.needsParse = true → it.accepted = true) :
    Call.Valid alive { c with stage := stage } where
  accepted := h.accepted
  answered := fun _ => h.answered hstage
  ready := fun hp hs => hready hs hp
  single := h.single
  building := fun hs => absurd hs hne

/-- The response to a statement says that its `Parse` was accepted only if it was. -/
theorem Call.Valid.answer {alive : List (Bytes × Bytes)} {c : Call} (h : c.Valid alive) {k : ℕ}
    {it : Item} (hit : c.items[k]? = some it) {r : Served} (e : PgError) (hgrow : alive ⊆ r.alive)
    (hparsed : r.parsed ⊆ r.alive)
    (hok : r.ok = true → it.needsParse = true → (it.name, asBytes it.sql) ∈ r.parsed) :
    Call.Valid r.alive { c with items := c.items.set k (it.answer r e) } := by
  have hitem := List.mem_of_getElem? hit
  refine ⟨fun it' hit' ha => ?_, fun hs it' hit' hreply hparse => ?_,
    fun hp hpub it' hit' hparse => ?_, fun hp => ?_, h.building⟩
  · rcases List.mem_or_eq_of_mem_set hit' with hit' | rfl
    · exact hgrow (h.accepted it' hit' ha)
    · simp only [Item.answer, Bool.or_eq_true, decide_eq_true_eq] at ha
      rcases ha with ha | ha
      · exact hgrow (h.accepted it hitem ha)
      · exact hparsed ha
  · rcases List.mem_or_eq_of_mem_set hit' with hit' | rfl
    · exact h.answered hs it' hit' hreply hparse
    · have hrok : r.ok = true := by
        by_contra hrok
        simp [Item.answer, hrok] at hreply
      simp [Item.answer, hok hrok hparse]
  · rcases List.mem_or_eq_of_mem_set hit' with hit' | rfl
    · exact h.ready hp hpub it' hit' hparse
    · simp [Item.answer, h.ready hp hpub it hitem hparse]
  · simpa using h.single hp

/-- The statements of `c'` send what those of `c` send, and `c'` is past its building. -/
def Call.Follows (c c' : Call) : Prop := c.stage ≠ .building →
  c'.stage ≠ .building ∧ ∀ (k : ℕ) (it' : Item), c'.items[k]? = some it' →
    ∃ it : Item, c.items[k]? = some it ∧ it.messages = it'.messages

theorem Call.follows_toStage (c : Call) {stage : Stage} (hne : stage ≠ .building) :
    c.Follows { c with stage := stage } := fun _ => ⟨hne, fun _ it hit => ⟨it, hit, rfl⟩⟩

/-- A statement changes, but not what it sends. -/
theorem Call.follows_set {c : Call} {k : ℕ} {it it' : Item} {stage : Stage}
    (hit : c.items[k]? = some it) (hmessages : it.messages = it'.messages)
    (hne : c.stage ≠ .building → stage ≠ .building) :
    c.Follows { c with items := c.items.set k it', stage := stage } := by
  refine fun hstage => ⟨hne hstage, fun j it₂ hit₂ => ?_⟩
  rcases getElem?_set_cases hit₂ with ⟨rfl, rfl⟩ | ⟨-, hit₂⟩
  · exact ⟨it, hit, hmessages⟩
  · exact ⟨it₂, hit₂, rfl⟩

theorem Call.follows_over (c : Call) : c.Follows c.over := fun _ =>
  ⟨fun h => Stage.noConfusion h, fun _ _ h => by cases h⟩

/-- The requests of a call are queries without parameters and those of its statements. -/
theorem Call.mem_requests {c : Call} {origin : Option ℕ} {messages : List FrontendMsg}
    (h : (origin, messages) ∈ c.requests) :
    origin = none ∧ (∃ sql, messages = [.query sql]) ∨
      ∃ k it, origin = some k ∧ c.items[k]? = some it ∧ messages = it.messages := by
  obtain ⟨⟨it, k⟩, hit, h⟩ := List.mem_flatMap.1 h
  obtain ⟨sql, stmt, name, needsParse, accepted, reply⟩ := it
  simp only [Item.requests, List.mem_append, List.mem_map, List.mem_singleton, Prod.mk.injEq] at h
  rcases h with (⟨ms, hms, rfl, rfl⟩ | ⟨rfl, rfl⟩) | ⟨ms, hms, rfl, rfl⟩
  · cases stmt with
    | execTransaction => exact .inl ⟨rfl, _, List.mem_singleton.1 hms⟩
    | _ => cases hms
  · exact .inr ⟨k, _, rfl, List.mem_zipIdx_iff_getElem?.1 hit, rfl⟩
  · cases stmt with
    | execTransaction => exact .inl ⟨rfl, _, List.mem_singleton.1 hms⟩
    | _ => cases hms

theorem Queued.set {calls : List Call} {w : Work} {i : ℕ} {c c' : Call} (h : Queued calls w)
    (hc : calls[i]? = some c) (hf : c.Follows c') : Queued (calls.set i c') w := by
  unfold Queued at h ⊢
  split
  · rename_i horigin
    simpa only [horigin] using h
  · rename_i j k horigin
    simp only [horigin] at h
    obtain ⟨hitem, d, hd, hstage, hmessages⟩ := h
    refine ⟨hitem, ?_⟩
    by_cases hij : i = j
    · subst hij
      rw [hc] at hd
      cases hd
      obtain ⟨hstage', hitems⟩ := hf hstage
      refine ⟨c', ?_, hstage', fun it' hit' => ?_⟩
      · rw [List.getElem?_set_self (List.getElem?_eq_some_iff.1 hc).1]
      · obtain ⟨it, hit, heq⟩ := hitems k it' hit'
        rw [hmessages it hit, heq]
    · exact ⟨d, by rw [List.getElem?_set_ne hij, hd], hstage, hmessages⟩

theorem Queued.append {calls : List Call} {w : Work} (h : Queued calls w) (c : Call) :
    Queued (calls ++ [c]) w := by
  unfold Queued at h ⊢
  split
  · rename_i horigin
    simpa only [horigin] using h
  · rename_i i k horigin
    simp only [horigin] at h
    obtain ⟨hitem, d, hd, hrest⟩ := h
    exact ⟨hitem, d, List.getElem?_append_left (List.getElem?_eq_some_iff.1 hd).1 ▸ hd, hrest⟩

/-- The request that a call sends is that of a statement of the call, and closes nothing. -/
theorem queued_of_mem_requests {calls : List Call} {i : ℕ} {c : Call} (hc : calls[i]? = some c)
    {stage : Stage} (hne : stage ≠ .building) {origin : Option ℕ} {messages : List FrontendMsg}
    (hmem : (origin, messages) ∈ c.requests) :
    Queued (calls.set i { c with stage := stage }) ⟨messages, origin.map (i, ·)⟩ ∧
      closes messages = [] := by
  rcases Call.mem_requests hmem with ⟨rfl, sql, rfl⟩ | ⟨k, it, rfl, hit, rfl⟩
  · exact ⟨Or.inl ⟨sql, rfl⟩, rfl⟩
  · refine ⟨And.intro ⟨it, rfl⟩ ⟨_, List.getElem?_set_self (List.getElem?_eq_some_iff.1 hc).1,
      hne, ?_⟩, closes_item it⟩
    intro it' hit'
    rw [show c.items[k]? = some it' from hit'] at hit
    cases hit
    rfl

namespace Sound

variable {s : State} {i : ℕ} {c c' : Call}

/-- A call changes, and takes over only names without an owner. -/
theorem replace (h : Sound s) (hc : s.calls[i]? = some c) (hvalid : c'.Valid s.alive)
    (htokens : ∀ n, s.owned.count n + c'.tokens.count n ≤ 1 + c.tokens.count n)
    (hf : c.Follows c') : Sound { s with calls := s.calls.set i c' } where
  unique := fun n => by
    have hset := count_flatMap_set hc c' Call.tokens n
    have hle := htokens n
    simp only [State.owned, List.count_append] at hle ⊢
    omega
  closing := h.closing
  cached := h.cached
  calls := fun d hd => by
    rcases List.mem_or_eq_of_mem_set hd with hd | rfl
    · exact h.calls d hd
    · exact hvalid
  queued := fun w hw => (h.queued w hw).set hc hf

/-- A call changes without taking over names. -/
theorem set (h : Sound s) (hc : s.calls[i]? = some c) (hvalid : c'.Valid s.alive)
    (htokens : ∀ n, c'.tokens.count n ≤ c.tokens.count n) (hf : c.Follows c') :
    Sound { s with calls := s.calls.set i c' } :=
  h.replace hc hvalid (fun n => Nat.add_le_add (h.unique n) (htokens n)) hf

/-- A call begins. -/
theorem append (h : Sound s) (hvalid : c.Valid s.alive) (htokens : c.tokens = []) :
    Sound { s with calls := s.calls ++ [c] } where
  unique := fun n => by simpa [State.owned, htokens] using h.unique n
  closing := h.closing
  cached := h.cached
  calls := fun d hd => by
    rcases List.mem_append.1 hd with hd | hd
    · exact h.calls d hd
    · obtain rfl := List.mem_singleton.1 hd
      exact hvalid
  queued := fun w hw => (h.queued w hw).append c

/-- Entries leave the cache. -/
theorem shrink (h : Sound s) {stmts : Stmts}
    (hsub : ∀ e ∈ stmts.cache.entries, e ∈ s.stmts.cache.entries)
    (hcount : ∀ n, (cacheNames stmts.cache).count n ≤ (cacheNames s.stmts.cache).count n) :
    Sound { s with stmts := stmts } where
  unique := fun n => by
    have hunique := h.unique n
    have hle := hcount n
    simp only [State.owned, List.count_append] at hunique ⊢
    omega
  closing := h.closing
  cached := fun e he => h.cached e (hsub e he)
  calls := h.calls
  queued := h.queued

/-- A request that closes nothing enters the queue. -/
theorem enqueue (h : Sound s) {w : Work} (hw : Queued s.calls w)
    (hcloses : closes w.messages = []) :
    Sound { s with queue := s.queue ++ [w] } where
  unique := fun n => by simpa [State.owned, hcloses] using h.unique n
  closing := fun w' hw' n hn => by
    rcases List.mem_append.1 hw' with hw' | hw'
    · exact h.closing w' hw' n hn
    · obtain rfl := List.mem_singleton.1 hw'
      rw [hcloses] at hn
      cases hn
  cached := h.cached
  calls := h.calls
  queued := fun w' hw' => by
    rcases List.mem_append.1 hw' with hw' | hw'
    · exact h.queued w' hw'
    · obtain rfl := List.mem_singleton.1 hw'
      exact hw

/-- Every name that is owned is alive. -/
theorem isAlive_of_owned (h : Sound s) {n : Bytes} (hn : n ∈ s.owned) :
    isAlive s.alive n = true := by
  simp only [State.owned, cacheNames, Call.tokens, List.mem_append, List.mem_map,
    List.mem_flatMap] at hn
  rcases hn with (⟨e, he, rfl⟩ | ⟨w, hw, hn⟩) | ⟨c, hc, it, hit, hn⟩
  · exact isAlive_of_mem (h.cached e he)
  · exact h.closing w hw n hn
  · unfold Item.token at hn
    split_ifs at hn with ha
    · obtain rfl := List.mem_singleton.1 hn
      exact isAlive_of_mem ((h.calls c hc).accepted it hit ha)
    · cases hn

/-- Publishing an accepted statement moves its name to the cache, and the name of the entry that
makes room for it to a `Close`. -/
theorem cacheStatement (h : Sound s) {it : Item} {room : Bool} (hc : s.calls[i]? = some c)
    (hvalid : c'.Valid s.alive) (hf : c.Follows c')
    (htokens : ∀ n, c'.tokens.count n + it.token.count n = c.tokens.count n)
    (halive : it.accepted = true → (it.name, asBytes it.sql) ∈ s.alive)
    (haccepted : it.accepted = true ∨ (s.stmts.cache.get? it.sql).isSome = true) :
    Sound { s.cacheStatement it.sql it.name room with calls := s.calls.set i c' } := by
  have hset := h.set hc hvalid (fun n => by have := htokens n; omega) hf
  unfold State.cacheStatement
  rcases Stmts.cacheStatement_cases it.sql it.name s.stmts with
    heq | ⟨e, hsql, hname, hnone, heq⟩
  · rw [heq]
    exact hset
  -- a name that comes into the cache was accepted, and the call gives its token up for it
  · have ha : it.accepted = true := haccepted.resolve_right (by simp [hnone])
    have hmem : (asBytes e.name, asBytes e.sql) ∈ s.alive := by
      rw [hsql, hname]
      exact halive ha
    have htoken : it.token = [asBytes e.name] := by simp [Item.token, ha, hname]
    have hcalls : ∀ n, ((s.calls.set i c').flatMap Call.tokens).count n +
        [asBytes e.name].count n = (s.calls.flatMap Call.tokens).count n := fun n => by
      have h₁ := count_flatMap_set hc c' Call.tokens n
      have h₂ := htokens n
      rw [htoken] at h₂
      omega
    rcases heq with heq | ⟨old, hold, heq⟩
    · rw [heq]
      refine { hset with unique := fun n => ?_, cached := fun e' he' => ?_ }
      · have hunique := h.unique n
        have hcount := hcalls n
        simp only [State.owned, count_cacheNames_insert (hsql ▸ hnone), List.count_append]
          at hunique ⊢
        omega
      · rcases StmtCache.mem_insert.1 he' with rfl | ⟨he', -⟩
        · exact hmem
        · exact h.cached e' he'
    · have hcached : ∀ e' ∈ ((s.stmts.cache.erase old.sql).insert e).entries,
          (asBytes e'.name, asBytes e'.sql) ∈ s.alive := by
        intro e' he'
        rcases StmtCache.mem_insert.1 he' with rfl | ⟨he', -⟩
        · exact hmem
        · exact h.cached e' (StmtCache.mem_erase.1 he').1
      have hcache := count_cacheNames_replace hold (hsql ▸ hnone)
      rw [heq]
      cases room with
      | false =>
        refine { hset with unique := fun n => ?_, cached := hcached }
        have hunique := h.unique n
        have h₁ := hcalls n
        have h₂ := hcache n
        simp only [State.owned, Bool.false_eq_true, if_false, List.count_append] at hunique ⊢
        omega
      | true =>
        -- the name that was evicted moves from the cache to the `Close` that is queued
        refine { hset with
          unique := fun n => ?_
          closing := fun w hw n hn => ?_
          cached := hcached
          queued := fun w hw => ?_ }
        · have hunique := h.unique n
          have h₁ := hcalls n
          have h₂ := hcache n
          simp only [State.owned, if_true, List.count_append, List.flatMap_append,
            List.flatMap_singleton, closes_closeMessages] at hunique ⊢
          omega
        · rcases List.mem_append.1 hw with hw | hw
          · exact h.closing w hw n hn
          · obtain rfl := List.mem_singleton.1 hw
            obtain rfl := List.mem_singleton.1 hn
            exact isAlive_of_mem (h.cached old hold)
        · rcases List.mem_append.1 hw with hw | hw
          · exact hset.queued w hw
          · obtain rfl := List.mem_singleton.1 hw
            exact .inr ⟨_, rfl⟩

/-- The server takes a request off the queue. -/
theorem dequeue (h : Sound s) {w : Work} {rest : List Work} (hq : s.queue = w :: rest) :
    Sound { s with queue := rest } where
  unique := fun n => by
    have hunique := h.unique n
    simp only [State.owned, hq, List.count_append, List.flatMap_cons] at hunique ⊢
    omega
  closing := fun w' hw' => h.closing w' (hq ▸ List.mem_cons_of_mem _ hw')
  cached := h.cached
  calls := h.calls
  queued := fun w' hw' => h.queued w' (hq ▸ List.mem_cons_of_mem _ hw')

/-- Statements are prepared. -/
theorem grow (h : Sound s) {alive : List (Bytes × Bytes)} (hsub : s.alive ⊆ alive) :
    Sound { s with alive := alive } where
  unique := h.unique
  closing := fun w hw n hn => by
    obtain ⟨p, hp, hname⟩ := List.any_eq_true.1 (h.closing w hw n hn)
    exact List.any_eq_true.2 ⟨p, hsub hp, hname⟩
  cached := fun e he => hsub (h.cached e he)
  calls := fun c hc => (h.calls c hc).mono hsub
  queued := h.queued

/-- A statement is closed whose name has no owner. -/
theorem close (h : Sound s) {name : Bytes} (hname : name ∉ s.owned) :
    Sound { s with alive := s.alive.filter (·.1 ≠ name) } := by
  have hkeep : ∀ {n sql : Bytes}, n ∈ s.owned → (n, sql) ∈ s.alive →
      (n, sql) ∈ s.alive.filter (·.1 ≠ name) := fun hn hmem =>
    List.mem_filter.2 ⟨hmem, by simpa using ne_of_mem_of_not_mem hn hname⟩
  refine { h with
    closing := fun w hw n hn => ?_, cached := fun e he => ?_, calls := fun c hc => ?_ }
  · obtain ⟨⟨n', sql⟩, hp, heq⟩ := List.any_eq_true.1 (h.closing w hw n hn)
    obtain rfl : n' = n := by simpa using heq
    refine isAlive_of_mem (hkeep ?_ hp)
    simp only [State.owned, List.mem_append, List.mem_flatMap]
    exact .inl (.inr ⟨w, hw, hn⟩)
  · refine hkeep ?_ (h.cached e he)
    simp only [State.owned, cacheNames, List.mem_append, List.mem_map]
    exact .inl (.inl ⟨e, he, rfl⟩)
  · have hvalid := h.calls c hc
    refine { hvalid with accepted := fun it hit ha => hkeep ?_ (hvalid.accepted it hit ha) }
    simp only [State.owned, Call.tokens, List.mem_append, List.mem_flatMap]
    exact .inr ⟨c, hc, it, hit, by simp [Item.token, ha]⟩

/-- The response to a statement reaches its call. -/
theorem answer (h : Sound s) {k n : ℕ} {e : PgError} {it : Item} (hc : s.calls[i]? = some c)
    (hit : c.items[k]? = some it) :
    Sound { s with
      alive := (Statements.serve n it.messages s.alive).alive
      calls := s.calls.set i { c with
        items := c.items.set k (it.answer (Statements.serve n it.messages s.alive) e) } } := by
  have hvalid := h.calls c (List.mem_of_getElem? hc)
  set r := Statements.serve n it.messages s.alive with hr
  obtain ⟨hgrow, hparsed, hok⟩ := serve_item_grows it n s.alive
  have hvalid' := hvalid.answer hit e hgrow hparsed hok
  refine (h.grow hgrow).replace hc hvalid' (fun n' => ?_) (Call.follows_set hit rfl id)
  have htokens := count_flatMap_set hit (it.answer r e) Item.token n'
  have hunique := h.unique n'
  change s.owned.count n' + ((c.items.set k (it.answer r e)).flatMap Item.token).count n' ≤
    1 + (c.items.flatMap Item.token).count n'
  rcases serve_item it n s.alive with ⟨-, hnone, -⟩ | ⟨hnew, -, -⟩
  · -- nothing was prepared
    have htoken : (it.answer r e).token = it.token := by simp [Item.token, Item.answer, hr, hnone]
    rw [htoken] at htokens
    omega
  · -- the name had no owner
    by_cases hname : n' = it.name
    · have hfree : s.owned.count n' = 0 := List.count_eq_zero.2 fun hmem => by
        rw [hname] at hmem
        rw [h.isAlive_of_owned hmem] at hnew
        cases hnew
      have hle : (it.answer r e).token.count n' ≤ 1 := by
        unfold Item.token
        split_ifs
        · exact List.count_le_length
        · exact Nat.zero_le _
      omega
    · have hzero : (it.answer r e).token.count n' = 0 := List.count_eq_zero.2 fun hmem => by
        unfold Item.token at hmem
        split_ifs at hmem
        · exact hname (List.mem_singleton.1 hmem)
        · cases hmem
      omega

/-- The server handles a request. -/
theorem serve (h : Sound s) {w : Work} {rest : List Work} (hq : s.queue = w :: rest) (n : ℕ)
    (e : PgError) :
    let r := Statements.serve n w.messages s.alive
    Sound { s with
      queue := rest
      alive := r.alive
      calls := match w.origin with
        | some (i, k) => s.calls.modify i fun c =>
            { c with items := c.items.modify k (.answer r e) }
        | none => s.calls } := by
  intro r
  have hrest := h.dequeue hq
  have hqueued := h.queued w (hq ▸ List.mem_cons_self)
  unfold Queued at hqueued
  split at hqueued
  · rename_i horigin
    rw [horigin]
    rcases hqueued with ⟨sql, hw⟩ | ⟨name, hw⟩
    · have halive : r.alive = s.alive := by
        refine (serve_plain ?_ n s.alive).1
        rw [hw]
        exact List.forall_mem_singleton.2 rfl
      rw [halive]
      exact hrest
    · have hname : asBytes name ∉ State.owned { s with queue := rest } := by
        have hunique := h.unique (asBytes name)
        simp only [State.owned, hq, hw, List.count_append, List.flatMap_cons,
          closes_closeMessages, List.count_singleton_self] at hunique
        rw [← List.count_eq_zero]
        simp only [State.owned, List.count_append]
        omega
      have hserve := serve_close name n s.alive
      rw [← hw] at hserve
      rcases hserve with halive | halive
      · rw [show r.alive = s.alive from halive]
        exact hrest
      · rw [show r.alive = _ from halive]
        exact hrest.close hname
  · rename_i i k horigin
    obtain ⟨⟨it₀, hw⟩, c, hc, -, hitem⟩ := hqueued
    rw [horigin]
    simp only [modify_eq_set hc]
    cases hit : c.items[k]? with
    | none =>
      -- the call is over
      have hgrow : s.alive ⊆ r.alive := by
        rw [show r = Statements.serve n it₀.messages s.alive from hw ▸ rfl]
        exact (serve_item_grows it₀ n s.alive).1
      have hset : s.calls.set i c = s.calls := by
        obtain ⟨hlt, rfl⟩ := List.getElem?_eq_some_iff.1 hc
        exact List.set_getElem_self hlt
      rw [List.modify_eq_self (List.getElem?_eq_none_iff.1 hit), hset]
      exact hrest.grow hgrow
    | some it =>
      have hmessages := hitem it hit
      rw [modify_eq_set hit, show r = Statements.serve n it.messages s.alive from hmessages ▸ rfl]
      exact hrest.answer hc hit

/-- A call that has not sent its request. -/
theorem valid_fresh (alive : List (Bytes × Bytes)) (retried : Bool) {it : Item}
    (ha : it.accepted = false) (hreply : it.reply = none) :
    Call.Valid alive ⟨false, retried, [it], .sending 0⟩ := by
  refine ⟨fun it' hit' ha' => ?_, fun _ it' hit' hr => ?_, nofun, fun _ => Nat.le_refl 1, nofun⟩
  · obtain rfl := List.mem_singleton.1 hit'
    rw [ha] at ha'
    cases ha'
  · obtain rfl := List.mem_singleton.1 hit'
    rw [hreply] at hr
    cases hr

theorem lookup_spec (sql : String) (stmt : Stmt) : ∃ name needsParse counter,
    s.lookup sql stmt = (⟨sql, stmt, name, needsParse, false, none⟩,
      { s.stmts with counter := counter }) := by
  cases hget : s.stmts.cache.get? sql with
  | some e => exact ⟨_, _, s.stmts.counter, by rw [State.lookup, Stmts.lookupOrAlloc_hit hget]⟩
  | none => exact ⟨_, _, _, by rw [State.lookup, Stmts.lookupOrAlloc_miss hget]⟩

/-- The counter moves on. -/
theorem counter (h : Sound s) (n : ℕ) : Sound { s with stmts := { s.stmts with counter := n } } :=
  h.shrink (fun _ => id) fun _ => Nat.le_refl _

/-- A request of a call enters the queue. -/
theorem send (h : Sound s) (hc : s.calls[i]? = some c) (hstage : ∀ k, c.stage ≠ .publishing k)
    (stage : Stage) (hpublishing : ∀ k, stage ≠ .publishing k) (hne : stage ≠ .building)
    {origin : Option ℕ} {messages : List FrontendMsg} (hmem : (origin, messages) ∈ c.requests) :
    Sound { s with
      queue := s.queue ++ [⟨messages, origin.map (i, ·)⟩]
      calls := s.calls.set i { c with stage := stage } } := by
  have hvalid := h.calls c (List.mem_of_getElem? hc)
  have hset : Sound { s with calls := s.calls.set i { c with stage := stage } } :=
    h.set hc (hvalid.toStage hstage hne fun heq => absurd heq (hpublishing 0))
      (fun _ => Nat.le_refl _) (c.follows_toStage hne)
  obtain ⟨hqueued, hcloses⟩ := queued_of_mem_requests hc hne hmem
  exact hset.enqueue hqueued hcloses

/-- A call with one statement has its response. -/
theorem resumed (h : Sound s) (hc : s.calls[i]? = some c) (hstage : ∀ k, c.stage ≠ .publishing k)
    (hc' : c.resumed = some c') : Sound { s with calls := s.calls.set i c' } := by
  have hvalid := h.calls c (List.mem_of_getElem? hc)
  unfold Call.resumed at hc'
  split at hc'
  · rename_i it hitems
    split at hc'
    · rename_i hreply
      cases hc'
      refine h.set hc (hvalid.toStage hstage nofun fun _ _ it' hit' => ?_) (fun _ => Nat.le_refl _)
        (c.follows_toStage nofun)
      rw [hitems] at hit'
      obtain rfl := List.mem_singleton.1 hit'
      exact hvalid.answered hstage it' (hitems ▸ List.mem_singleton_self _) hreply
    · split_ifs at hc' <;> cases hc'
      · exact h.set hc (hvalid.toStage hstage nofun nofun) (fun _ => Nat.le_refl _)
          (c.follows_toStage nofun)
      · exact h.set hc (c.over_valid _) (fun _ => Nat.zero_le _) c.follows_over
    · cases hc'
  · cases hc'

/-- A call publishes its next statement. -/
theorem publish (h : Sound s) {next : ℕ} {it : Item} (room : Bool) (hc : s.calls[i]? = some c)
    (hstage : c.stage = .publishing next) (hit : c.items[next]? = some it)
    (haccepted : c.pipeline = true → it.needsParse = true →
      it.accepted = true ∨ (s.stmts.cache.get? it.sql).isSome = true) :
    Sound { (if it.needsParse then s.cacheStatement it.sql it.name room else s) with
      calls := s.calls.set i { c with
        items := c.items.set next { it with accepted := false },
        stage := .publishing (next + 1) } } := by
  have hvalid := h.calls c (List.mem_of_getElem? hc)
  have hitem := List.mem_of_getElem? hit
  have hvalid' : Call.Valid s.alive { c with
      items := c.items.set next { it with accepted := false },
      stage := .publishing (next + 1) } := by
    refine ⟨fun it' hit' ha => ?_, fun hs => absurd rfl (hs _), nofun, fun hp => ?_, nofun⟩
    · rcases List.mem_or_eq_of_mem_set hit' with hit' | rfl
      · exact hvalid.accepted it' hit' ha
      · cases ha
    · simpa using hvalid.single hp
  have hfollows : c.Follows { c with
      items := c.items.set next { it with accepted := false }, stage := .publishing (next + 1) } :=
    Call.follows_set hit rfl fun _ => nofun
  have htokens : ∀ n,
      ((c.items.set next { it with accepted := false }).flatMap Item.token).count n +
      it.token.count n = (c.items.flatMap Item.token).count n := fun n =>
    count_flatMap_set hit { it with accepted := false } Item.token n
  by_cases hparse : it.needsParse = true
  · rw [if_pos hparse]
    refine h.cacheStatement hc hvalid' hfollows htokens (hvalid.accepted it hitem) ?_
    cases hp : c.pipeline with
    | true => exact haccepted hp hparse
    | false =>
      -- the only statement of the call, published after success
      have hlt : next < c.items.length := (List.getElem?_eq_some_iff.1 hit).1
      have hzero : next = 0 := by have := hvalid.single hp; omega
      subst hzero
      exact .inl (hvalid.ready hp hstage it hitem hparse)
  · rw [if_neg hparse]
    exact h.set hc hvalid' (fun n => Nat.le.intro (htokens n)) hfollows

/-- A statement is added to a pipeline that is being built. -/
theorem add (h : Sound s) (hc : s.calls[i]? = some c) (hstage : c.stage = .building) {it : Item}
    (haccepted : it.accepted = false) (hreply : it.reply = none) (htoken : it.token = []) :
    Sound { s with calls := s.calls.set i { c with items := c.items ++ [it] } } := by
  have hvalid := h.calls c (List.mem_of_getElem? hc)
  have hpipeline : c.pipeline = true := hvalid.building hstage
  refine h.set hc ⟨fun it' hit ha => ?_, fun hs it' hit hr => ?_, fun hp => ?_, fun hp => ?_,
    hvalid.building⟩ (fun n => by simp [Call.tokens, htoken]) fun hne => absurd hstage hne
  · rcases List.mem_append.1 hit with hit | hit
    · exact hvalid.accepted it' hit ha
    · rw [List.mem_singleton.1 hit, haccepted] at ha
      cases ha
  · rcases List.mem_append.1 hit with hit | hit
    · exact hvalid.answered hs it' hit hr
    · rw [List.mem_singleton.1 hit, hreply] at hr
      cases hr
  · cases hpipeline.symm.trans hp
  · cases hpipeline.symm.trans hp

theorem step {s' : State} {l : Label} (h : Sound s) (hl : parseAccepted s l)
    (hstep : connection.step s l = some s') : Sound s' := by
  cases trans_of_step hstep with
  | call sql stmt =>
    obtain ⟨name, needsParse, n, heq⟩ := lookup_spec (s := s) sql stmt
    rw [heq]
    exact (h.counter n).append (valid_fresh _ _ rfl rfl) rfl
  | pipeline =>
    refine h.append ?_ rfl
    exact
      { accepted := fun _ hit => by cases hit
        answered := fun _ _ hit => by cases hit
        ready := fun hp => by cases hp
        single := fun hp => by cases hp
        building := fun _ => rfl }
  | add sql params hc hstage =>
    obtain ⟨name, needsParse, n, heq⟩ := lookup_spec (s := s) sql (.query params)
    rw [heq]
    exact (h.counter n).add hc hstage rfl rfl (by simp [Item.token])
  | @run i c hc hstage =>
    have hvalid := h.calls c (List.mem_of_getElem? hc)
    exact h.set hc (hvalid.toStage (by simp [hstage]) nofun nofun) (fun _ => Nat.le_refl _)
      (c.follows_toStage nofun)
  | @send i next _ _ _ hc hstage hrequest =>
    exact h.send hc (by simp [hstage]) (.sending (next + 1)) nofun nofun
      (List.mem_of_getElem? hrequest)
  | serve n e hq => exact h.serve hq n e
  | @resumePipeline i c hc hstage hp =>
    have hvalid := h.calls c (List.mem_of_getElem? hc)
    refine h.set hc (hvalid.toStage (by simp [hstage]) nofun fun _ hfalse => ?_)
      (fun _ => Nat.le_refl _) (c.follows_toStage nofun)
    rw [hp] at hfalse
    cases hfalse
  | resume hc hstage hp hc' => exact h.resumed hc (by simp [hstage]) hc'
  | @publish i next c it room hc hstage hit =>
    have haccepted : c.pipeline = true → it.needsParse = true →
        it.accepted = true ∨ (s.stmts.cache.get? it.sql).isSome = true := by
      simpa only [parseAccepted, hc, hstage, hit] using hl
    exact h.publish room hc hstage hit haccepted
  | @published i next c room hc hstage hnone =>
    exact h.set hc (c.over_valid _) (fun _ => Nat.zero_le _) c.follows_over
  | @invalidate i c it hc hstage hitems =>
    have hvalid := h.calls c (List.mem_of_getElem? hc)
    have hshrink : Sound { s with stmts := s.stmts.invalidateStatement it.sql } :=
      h.shrink (fun e he => (StmtCache.mem_erase.1 he).1) (count_cacheNames_erase_le _ _)
    exact hshrink.set hc (hvalid.toStage (by simp [hstage]) nofun nofun)
      (fun _ => Nat.le_refl _) (c.follows_toStage nofun)
  | @lookupAgain i c it hc hstage hitems =>
    obtain ⟨name, needsParse, n, heq⟩ := lookup_spec (s := s) it.sql it.stmt
    rw [heq]
    have hover := (h.counter n).set hc (c.over_valid _) (fun _ => Nat.zero_le _) c.follows_over
    exact hover.append (valid_fresh _ _ rfl rfl) rfl
  | @cancel i c hc => exact h.set hc (c.over_valid _) (fun _ => Nat.zero_le _) c.follows_over

end Sound

/-- **Soundness of the statement cache.**  If pipelines publish only what the server has accepted,
every entry of the cache names a statement that was prepared for its SQL and is not closed. -/
theorem cached_alive {s : State} (h : (connection.guard parseAccepted).Reachable State.init s) :
    ∀ e ∈ s.stmts.cache.entries, (asBytes e.name, asBytes e.sql) ∈ s.alive :=
  have hinit : Sound State.init := ⟨fun _ => Nat.zero_le _, nofun, nofun, nofun, nofun⟩
  (h.guard_invariant hinit fun _ _ _ hs hl hstep => hs.step hl hstep).cached

/-- A pipeline with one statement, of which the server carries out `n` messages. -/
def pipelineRun (sql : String) (n : ℕ) : List Label :=
  [.pipeline, .add 0 sql [], .run 0, .send 0, .serve n {}, .resume 0, .publish 0 true]

theorem cached_alive_pipelineRun :
    ∃ s, (connection.guard parseAccepted).exec State.init (pipelineRun "SELECT 1" 5) = some s ∧
      s.stmts.cache.entries ≠ [] ∧
      ∀ e ∈ s.stmts.cache.entries, (asBytes e.name, asBytes e.sql) ∈ s.alive := by
  have h : (connection.guard parseAccepted).exec State.init (pipelineRun "SELECT 1" 5) =
      some _ := rfl
  exact ⟨_, h, nofun, cached_alive (LTS.reachable_of_exec h)⟩

/-- The statement of a pipeline is refused, and in the cache from then on. -/
theorem refused_parse_cached :
    ∃ s, connection.Reachable State.init s ∧ ∃ e ∈ s.stmts.cache.entries,
      e.sql = "SELEC 1" ∧ (asBytes e.name, asBytes e.sql) ∉ s.alive := by
  have h : connection.exec State.init (pipelineRun "SELEC 1" 0) = some _ := rfl
  exact ⟨_, LTS.reachable_of_exec h, _, List.mem_cons_self, rfl, List.not_mem_nil⟩

end Resolute.Conn.Statements
