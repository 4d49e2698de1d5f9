import Resolute.Session.Basic
import Resolute.Client.Basic

/-!
# Nested `atomic` calls

A finite tree of nested `atomic` calls, run against a server that follows PostgreSQL's transaction
rules.  `Client` and `PooledClient` bracket every level with `BEGIN` and `COMMIT`, `Transaction`
and `PooledTransaction` with savepoints, and each hands its closure the executor it was called on.
The tree is a `Body`, and `Body.closure` runs it on an executor.

A tree is `AllOrNothing` if the effects in force afterwards are those of the statements all of whose
enclosing calls returned `Ok`.  With savepoints every tree is.  With `BEGIN` and `COMMIT` the first
level to end ends the whole transaction, so what becomes of a statement is decided by that level
alone, and the tree has to be `settled`: every statement is decided by levels that agree with all
its enclosing ones.  `atomic_allOrNothing_iff` is for trees on any of the four executors.
-/

namespace Resolute

/-- A statement of a caller: its effect, and whether the server rejects it on its own account. -/
structure Stmt (ε : Type) where
  effect : ε
  fails : Bool
  deriving DecidableEq, Repr

/-- How the server reads the SQL the client sends. -/
def Sql.command {ε : Type} : Sql (Stmt ε) → Command ε
  | .begin => .begin
  | .commit => .commit
  | .rollback => .rollback
  | .savepoint id => .savepoint id
  | .releaseSavepoint id => .release id
  | .rollbackToSavepoint id => .rollbackTo id
  | .stmt a => .statement a.effect a.fails

/-- The transaction status that `ReadyForQuery` reports. -/
def Session.status {ε : Type} (s : Session ε) : UInt8 :=
  match s.tx with
  | none => byte 'I'
  | some t => byte (if t.aborted then 'E' else 'T')

/-- The response group that carries a verdict. -/
def Reply.group (status : UInt8) : Reply → List ReadResult
  | .complete tag => [.ok (.commandComplete tag), .ok (.readyForQuery status)]
  | .error code => [.ok (.errorResponse { code := code }), .ok (.readyForQuery status)]

/-- A connection to a server that follows the transaction rules.  No statement's effect depends on
the state-mutated flag. -/
def serverLink {ε : Type} : Link (Stmt ε) (Session ε) where
  submit sql collector s :=
    let (reply, s') := s.exec sql.command
    (Collect.await ((Collect.init collector).run (reply.group s'.status)), s')
  markStateMutated := id

section Server

variable {ε : Type}

/-- `Drain` reports success whatever the server says. -/
@[simp] theorem simpleQuery_server (sql : Sql (Stmt ε)) (p : Proc (Session ε)) :
    Client.simpleQuery serverLink sql p =
      (.ok (), { p with conn := (p.conn.exec sql.command).2 }) := by
  simp only [Client.simpleQuery, Call.bind_eq, submit, serverLink]
  cases (p.conn.exec sql.command).1 <;> rfl

@[simp] theorem pooled_simpleQuery_server (sql : Sql (Stmt ε)) (p : Proc (Session ε)) :
    PooledClient.simpleQuery serverLink sql p =
      (.ok (), { p with conn := (p.conn.exec sql.command).2 }) :=
  simpleQuery_server sql p

/-- `Rows` reports the server's verdict. -/
theorem execute_server (a : Stmt ε) (p : Proc (Session ε)) :
    Client.execute serverLink a p =
      match p.conn.exec (.statement a.effect a.fails) with
      | (.complete _, s) => (.ok (), { p with conn := s })
      | (.error code, s) => (.error (.wire (.pg { code := code })), { p with conn := s }) := by
  simp only [Client.execute, Call.bind_eq, submit, serverLink, Sql.command]
  rcases p.conn.exec (.statement a.effect a.fails) with ⟨_ | _, s⟩ <;> rfl

end Server

/-- The executors that own a session. -/
inductive Executor where
  | client
  | pooledClient
  | transaction
  | pooledTransaction
  deriving DecidableEq, Repr

namespace Executor

variable {ε T : Type}

/-- `Executor::execute`. -/
def execute : Executor → Stmt ε → Call (Proc (Session ε)) Unit
  | client | transaction => Client.execute serverLink
  | pooledClient | pooledTransaction => PooledClient.execute serverLink

/-- `Executor::atomic`. -/
def atomic : Executor → Call (Proc (Session ε)) T → Call (Proc (Session ε)) T
  | client => Client.atomic serverLink
  | pooledClient => PooledClient.atomic serverLink
  | transaction => Transaction.atomic serverLink
  | pooledTransaction => PooledTransaction.atomic serverLink

/-- The executor brackets with savepoints, inside a transaction of its caller. -/
def usesSavepoints : Executor → Bool
  | client | pooledClient => false
  | transaction | pooledTransaction => true

/-- The states an executor starts a call in: a client between transactions, a transaction while
it is open, with no savepoint of a number that is yet to be drawn. -/
def Ready (k : Executor) (p : Proc (Session ε)) : Prop :=
  match k.usesSavepoints, p.conn.tx with
  | false, none => True
  | true, some t => ∀ sp ∈ t.saves, sp.1 < p.savepointCounter
  | _, _ => False

/-- From `s` to `s'` exactly the effects `es` came into force: committed for a client, pending in
the still open transaction for a transaction. -/
def InForce (k : Executor) (s s' : Session ε) (es : List ε) : Prop :=
  match k.usesSavepoints, s.tx, s'.tx with
  | false, _, none => s'.committed = s.committed ++ es
  | true, some t, some t' => s'.committed = s.committed ∧ t'.pending = t.pending ++ es
  | _, _, _ => False

end Executor

/-- What a closure does with the executor it is handed: it runs statements and propagates their
errors, makes nested `atomic` calls and goes on as it likes after each result, and returns. -/
inductive Body where
  /-- Return `Ok`. -/
  | ok
  /-- Return `Err`. -/
  | err (e : TypedError)
  /-- `db.execute(..).await?`; `fails` if the server rejects the statement. -/
  | stmt (fails : Bool) (rest : Body)
  /-- `match db.atomic(inner).await`. -/
  | nested (inner onOk onErr : Body)
  deriving DecidableEq, Repr

/-- The position of a statement in a tree of calls; it names the statement's effect. -/
abbrev Path := List Bool

namespace Body

/-- Run a closure.  It returns the statements it knows to have taken effect: its own, and those of
the nested calls that returned `Ok`. -/
def closure (k : Executor) : Body → Path → Call (Proc (Session Path)) (List Path)
  | ok, _ => pure []
  | err e, _ => Call.fail e
  | stmt fails rest, at_ => do
    k.execute ⟨at_, fails⟩
    let es ← rest.closure k (true :: at_)
    pure (at_ :: es)
  | nested inner onOk onErr, at_ =>
    (k.atomic (inner.closure k (false :: at_))).attempt
      (fun es => do
        let es' ← onOk.closure k (true :: at_)
        pure (es ++ es'))
      (fun _ => onErr.closure k (true :: at_))

/-- The closure returns `Ok` when no statement is run in an aborted transaction. -/
def succeeds : Body → Bool
  | ok => true
  | err _ => false
  | stmt fails rest => !fails && rest.succeeds
  | nested inner onOk onErr => if inner.succeeds then onOk.succeeds else onErr.succeeds

/-- The result of the first `atomic` call to end, the enclosing one included. -/
def firstEnd : Body → Bool
  | ok => true
  | err _ => false
  | stmt fails rest => !fails && rest.firstEnd
  | nested inner _ _ => inner.firstEnd

/-- Every statement of the closure that succeeds is decided in agreement with its enclosing calls.
`all` : all the calls around the closure return `Ok`; `inTx` : the transaction of the closure's
own call is still open.  A statement run while it is open is decided by the first call to end after
it; one that runs after a nested call has ended commits by itself. -/
def settled (all : Bool) : Bool → Body → Bool
  | _, ok | _, err _ => true
  | inTx, stmt fails rest =>
    fails || ((if inTx then rest.firstEnd else true) == all && settled all inTx rest)
  | _, nested inner onOk onErr =>
    settled (all && inner.succeeds) true inner &&
      if inner.succeeds then settled all false onOk else settled all false onErr

end Body

/-- The effects in force when the outermost call returns are exactly those of the statements all of
whose enclosing calls returned `Ok`; there are none when it returns `Err`. -/
def AllOrNothing (k : Executor) (b : Body) (p : Proc (Session Path)) : Prop :=
  match k.atomic (b.closure k []) p with
  | (.ok es, p') => k.InForce p.conn p'.conn es
  | (.error _, p') => k.InForce p.conn p'.conn []

/-! ### Savepoints -/

namespace Tx

theorem find_append {name : ℕ} {extra saves : List (ℕ × ℕ)}
    (h : ∀ sp ∈ extra, sp.1 ≠ name) : find name (extra ++ saves) = find name saves := by
  induction extra with
  | nil => rfl
  | cons sp extra ih =>
    obtain ⟨n, k⟩ := sp
    have hn : n ≠ name := h (n, k) List.mem_cons_self
    simp only [List.cons_append, find, hn, ↓reduceIte]
    exact ih fun sp hsp => h sp (List.mem_cons_of_mem _ hsp)

theorem find_eq_none {name : ℕ} {saves : List (ℕ × ℕ)} (h : ∀ sp ∈ saves, sp.1 ≠ name) :
    find name saves = none := by
  have : find name (saves ++ []) = find name [] := find_append h
  simpa only [List.append_nil, find] using this

end Tx

section Brackets

variable {ε T : Type}

/-- What `Client::atomic` does: the closure runs after `BEGIN`, and the transaction is ended
according to its result, which is also the result of the call. -/
theorem client_atomic_server (f : Call (Proc (Session ε)) T) (p : Proc (Session ε)) :
    Client.atomic serverLink f p =
      match f { p with conn := (p.conn.exec .begin).2 } with
      | (.ok v, p') => (.ok v, { p' with conn := (p'.conn.exec .commit).2 })
      | (.error e, p') => (.error e, { p' with conn := (p'.conn.exec .rollback).2 }) := by
  simp only [Client.atomic, bracket, Call.bind_eq, simpleQuery_server, Call.attempt, Sql.command]
  rcases f _ with ⟨_ | v, p'⟩ <;> simp [Call.logged, Call.attempt, Sql.command]

/-- What `Transaction::atomic` does: the closure runs after a savepoint with a fresh number, which
is released or rolled back to according to its result. -/
theorem transaction_atomic_server (f : Call (Proc (Session ε)) T) (p : Proc (Session ε)) :
    Transaction.atomic serverLink f p =
      match f ⟨p.savepointCounter + 1, (p.conn.exec (.savepoint p.savepointCounter)).2⟩ with
      | (.ok v, p') => (.ok v, { p' with conn := (p'.conn.exec (.release p.savepointCounter)).2 })
      | (.error e, p') =>
        (.error e, { p' with conn := (p'.conn.exec (.rollbackTo p.savepointCounter)).2 }) := by
  simp only [Transaction.atomic, bracket, fetchAddSavepoint, Call.bind_eq, simpleQuery_server,
    Call.attempt, Sql.command]
  rcases f _ with ⟨_ | v, p'⟩ <;> simp [Call.logged, Call.attempt, Sql.command]

end Brackets

namespace Executor

/-- The two executors of each kind act alike on a session. -/
theorem atomic_eq {ε T : Type} (k : Executor) (f : Call (Proc (Session ε)) T) :
    k.atomic f = if k.usesSavepoints then Transaction.atomic serverLink f
      else Client.atomic serverLink f := by
  cases k <;> rfl

theorem execute_eq {ε : Type} (k : Executor) (a : Stmt ε) :
    k.execute a = Client.execute serverLink a := by
  cases k <;> rfl

end Executor

/-- Inside an aborted transaction nothing changes until it is ended: every statement fails, and
the savepoints of nested calls are neither set nor found. -/
theorem closure_aborted {k : Executor} (hk : k.usesSavepoints = true) {c : List Path} (b : Body) :
    ∀ (at_ : Path) (n : ℕ) (t : Tx Path), t.aborted = true → (∀ sp ∈ t.saves, sp.1 < n) →
      ∃ m, n ≤ m ∧ ((∃ e, b.closure k at_ ⟨n, ⟨c, some t⟩⟩ = (.error e, ⟨m, ⟨c, some t⟩⟩)) ∨
        b.closure k at_ ⟨n, ⟨c, some t⟩⟩ = (.ok [], ⟨m, ⟨c, some t⟩⟩)) := by
  induction b with
  | ok => intro at_ n t _ _; exact ⟨n, Nat.le_refl n, .inr rfl⟩
  | err e => intro at_ n t _ _; exact ⟨n, Nat.le_refl n, .inl ⟨e, rfl⟩⟩
  | stmt fails rest _ =>
    intro at_ n t ht _
    refine ⟨n, Nat.le_refl n, .inl ⟨.wire (.pg { code := Session.inFailedTransaction }), ?_⟩⟩
    simp [Body.closure, Call.bind_eq, Executor.execute_eq, execute_server, Session.execTx, ht]
  | nested inner onOk onErr ihi iho ihe =>
    intro at_ n t ht hn
    have hn' : ∀ sp ∈ t.saves, sp.1 < n + 1 := fun sp hsp => Nat.lt_succ_of_lt (hn sp hsp)
    have hfind : Tx.find n t.saves = none :=
      Tx.find_eq_none fun sp hsp => Nat.ne_of_lt (hn sp hsp)
    have habort : t.abort = t := by cases t; simp_all [Tx.abort]
    obtain ⟨m, hm, h⟩ := ihi (false :: at_) (n + 1) t ht hn'
    have hsaves : ∀ sp ∈ t.saves, sp.1 < m := fun sp hsp => Nat.lt_of_lt_of_le (hn' sp hsp) hm
    simp only [Body.closure, Call.attempt, Executor.atomic_eq, hk, ↓reduceIte,
      transaction_atomic_server, Session.exec_open, Session.execTx, ht]
    rcases h with ⟨e, h⟩ | h
    · obtain ⟨m', hm', h'⟩ := ihe (true :: at_) m t ht hsaves
      refine ⟨m', by omega, ?_⟩
      simpa [h, hfind, habort, Session.execTx] using h'
    · obtain ⟨m', hm', h'⟩ := iho (true :: at_) m t ht hsaves
      refine ⟨m', by omega, ?_⟩
      simp only [h, Session.exec_open, Session.execTx, ht, ↓reduceIte, Call.bind_eq]
      rcases h' with ⟨e, h'⟩ | h'
      · exact .inl ⟨e, by rw [h']⟩
      · exact .inr (by rw [h']; rfl)

/-- What a closure that starts in the open transaction `⟨false, pending, saves⟩` may have made of
it: it has added effects and savepoints with fresh numbers, and if it returns `Ok es` the
transaction is in order and the added effects are `es`. -/
def Grown (c pending : List Path) (saves : List (ℕ × ℕ)) (n : ℕ)
    (r : Except TypedError (List Path) × Proc (Session Path)) : Prop :=
  ∃ m t extra delta, n ≤ m ∧ r.2 = ⟨m, ⟨c, some t⟩⟩ ∧ t.saves = extra ++ saves ∧
    (∀ sp ∈ extra, n ≤ sp.1 ∧ sp.1 < m) ∧ t.pending = pending ++ delta ∧
    ∀ es, r.1 = .ok es → t.aborted = false ∧ delta = es

/-- A savepoint that is undone leaves the transaction as it found it, with the savepoint still set;
one that is released keeps the effects of the closure. -/
theorem savepoint_atomic {c pending : List Path} {saves : List (ℕ × ℕ)} {n : ℕ}
    {f : Call (Proc (Session Path)) (List Path)}
    (hf : Grown c pending ((n, pending.length) :: saves) (n + 1)
      (f ⟨n + 1, ⟨c, some ⟨false, pending, (n, pending.length) :: saves⟩⟩⟩)) :
    ∃ m, n < m ∧
      ((∃ es, Transaction.atomic serverLink f ⟨n, ⟨c, some ⟨false, pending, saves⟩⟩⟩ =
          (.ok es, ⟨m, ⟨c, some ⟨false, pending ++ es, saves⟩⟩⟩)) ∨
        ∃ e, Transaction.atomic serverLink f ⟨n, ⟨c, some ⟨false, pending, saves⟩⟩⟩ =
          (.error e, ⟨m, ⟨c, some ⟨false, pending, (n, pending.length) :: saves⟩⟩⟩)) := by
  obtain ⟨m, t, extra, delta, hm, hr, hsaves, hextra, hpend, hok⟩ := hf
  have hfind : Tx.find n t.saves = some (pending.length, saves) := by
    rw [hsaves, Tx.find_append fun sp hsp => by have := (hextra sp hsp).1; omega]
    simp [Tx.find]
  simp only [transaction_atomic_server, Session.exec_open, Session.execTx, Bool.false_eq_true,
    ↓reduceIte]
  refine ⟨m, hm, ?_⟩
  rcases hres : f _ with ⟨e | es, p'⟩ <;> rw [hres] at hr hok <;> subst hr
  · simp [Session.execTx, hfind, hpend]
  · obtain ⟨hab, rfl⟩ := hok es rfl
    cases t
    simp_all [Session.execTx]

/-- In a transaction in order, a closure with savepoints adds the effects it reports. -/
theorem closure_grown {k : Executor} (hk : k.usesSavepoints = true) {c : List Path} (b : Body) :
    ∀ (at_ : Path) (n : ℕ) (pending : List Path) (saves : List (ℕ × ℕ)),
      (∀ sp ∈ saves, sp.1 < n) →
      Grown c pending saves n (b.closure k at_ ⟨n, ⟨c, some ⟨false, pending, saves⟩⟩⟩) := by
  induction b with
  -- the closure ends, and has changed nothing
  | ok =>
    intro at_ n pending saves _
    exact ⟨n, _, [], [], Nat.le_refl n, rfl, rfl, by simp, by simp, by simp [Body.closure]⟩
  | err e =>
    intro at_ n pending saves _
    exact ⟨n, _, [], [], Nat.le_refl n, rfl, rfl, by simp, by simp, by simp [Body.closure]⟩
  | stmt fails rest ih =>
    intro at_ n pending saves hn
    cases fails with
    -- the transaction is aborted, with the savepoints as they were
    | true =>
      refine ⟨n, Tx.abort ⟨false, pending, saves⟩, [], [], Nat.le_refl n, ?_⟩
      simp [Body.closure, Call.bind_eq, Executor.execute_eq, execute_server, Session.execTx,
        Tx.abort]
    -- the statement comes in front of what the rest adds
    | false =>
      obtain ⟨m, t, extra, delta, hm, hr, hsaves, hextra, hpend, hok⟩ :=
        ih (true :: at_) n (pending ++ [at_]) saves hn
      refine ⟨m, t, extra, at_ :: delta, hm, ?_, hsaves, hextra, by simp [hpend], ?_⟩ <;>
        simp only [Body.closure, Call.bind_eq, Executor.execute_eq, execute_server,
          Session.exec_open, Session.execTx, Bool.false_eq_true, ↓reduceIte] <;>
        rcases hres : Body.closure k rest _ _ with ⟨e | es, p'⟩ <;> rw [hres] at hr hok <;>
        simp_all
  | nested inner onOk onErr ihi iho ihe =>
    intro at_ n pending saves hn
    have hinner := ihi (false :: at_) (n + 1) pending ((n, pending.length) :: saves)
      (by simpa using fun a b h => Nat.lt_succ_of_lt (hn (a, b) h))
    obtain ⟨m, hm, hcall⟩ := savepoint_atomic hinner
    simp only [Body.closure, Call.attempt, Executor.atomic_eq, hk, ↓reduceIte]
    -- a nested call that succeeds releases its savepoint; one that fails leaves it behind, and the
    -- rest of the closure runs below it
    rcases hcall with ⟨es, hcall⟩ | ⟨e, hcall⟩
    · obtain ⟨m', t, extra, delta, hm', hr, hsaves, hextra, hpend, hok⟩ :=
        iho (true :: at_) m (pending ++ es) saves
          fun sp hsp => Nat.lt_trans (hn sp hsp) hm
      refine ⟨m', t, extra, es ++ delta, by omega, ?_, hsaves, ?_, by simp [hpend], ?_⟩
      · simp only [hcall, Call.bind_eq]
        rcases hres : Body.closure k onOk _ _ with ⟨e | es', p'⟩ <;> rw [hres] at hr <;>
          simp_all
      · intro sp hsp; have := hextra sp hsp; omega
      · simp only [hcall, Call.bind_eq]
        rcases hres : Body.closure k onOk _ _ with ⟨e | es', p'⟩ <;> rw [hres] at hok <;>
          simp_all
    · obtain ⟨m', t, extra, delta, hm', hr, hsaves, hextra, hpend, hok⟩ :=
        ihe (true :: at_) m pending ((n, pending.length) :: saves)
          (by simpa [hm] using fun a b h => Nat.lt_trans (hn (a, b) h) hm)
      refine ⟨m', t, extra ++ [(n, pending.length)], delta, by omega, ?_, by simp [hsaves], ?_,
        hpend, ?_⟩
      · simpa only [hcall] using hr
      · intro sp hsp
        rcases List.mem_append.1 hsp with h | h
        · have := hextra sp h; omega
        · obtain rfl := List.mem_singleton.1 h
          exact ⟨Nat.le_refl _, by omega⟩
      · simpa only [hcall] using hok

/-! ### `BEGIN` and `COMMIT` -/

namespace Body

/-- The statements of the closure that succeed and all of whose calls inside it return `Ok`. -/
def kept : Body → Path → List Path
  | ok, _ | err _, _ => []
  | stmt fails rest, at_ => if fails then [] else at_ :: kept rest (true :: at_)
  | nested inner onOk onErr, at_ =>
    (if inner.succeeds then kept inner (false :: at_) else []) ++
      if inner.succeeds then kept onOk (true :: at_) else kept onErr (true :: at_)

/-- The statements of the closure that a client commits; `inTx` : the transaction of the closure's
own call is still open. -/
def survivors : Bool → Body → Path → List Path
  | _, ok, _ | _, err _, _ => []
  | inTx, stmt fails rest, at_ =>
    if fails then [] else
      (if (if inTx then rest.firstEnd else true) then [at_] else []) ++
        survivors inTx rest (true :: at_)
  | _, nested inner onOk onErr, at_ =>
    survivors true inner (false :: at_) ++
      if inner.succeeds then survivors false onOk (true :: at_)
      else survivors false onErr (true :: at_)

end Body

/-- Whether a closure that starts in the session `s` finds its transaction still open, and the
effects that are pending there. -/
def OpenWith (inTx : Bool) (c pending : List Path) (s : Session Path) : Prop :=
  s = if inTx then ⟨c, some ⟨false, pending, []⟩⟩ else ⟨c, none⟩

/-- The command a client ends a call with. -/
def endCommand {T ε : Type} : Except TypedError T → Command ε
  | .ok _ => .commit
  | .error _ => .rollback

theorem endCommand_map {T T' ε : Type} (g : T → T') (r : Except TypedError T) :
    (endCommand (r.map g) : Command ε) = endCommand r := by
  cases r <;> rfl

/-- A client's statement is pending while the transaction is open, and commits by itself after
that; `first` : the first call to end returns `Ok`. -/
theorem execute_client {inTx : Bool} {c pending : List Path} {s : Session Path}
    (hs : OpenWith inTx c pending s) (first : Bool) (k : Executor) (at_ : Path) (n : ℕ) :
    ∃ c' pending' s', OpenWith inTx c' pending' s' ∧
      k.execute ⟨at_, false⟩ ⟨n, s⟩ = (.ok (), ⟨n, s'⟩) ∧
      c' ++ (if inTx && first then pending' else []) =
        c ++ (if inTx && first then pending else []) ++
          if (if inTx then first else true) then [at_] else [] := by
  subst hs
  cases inTx with
  | true =>
    refine ⟨c, pending ++ [at_], _, rfl, ?_, by cases first <;> simp⟩
    simp [Executor.execute_eq, execute_server, Session.execTx]
  | false =>
    refine ⟨c ++ [at_], pending, _, rfl, ?_, by simp⟩
    simp [Executor.execute_eq, execute_server, Session.execIdle]

/-- A client's nested call: whatever the closure found open is ended with it. -/
theorem atomic_client {k : Executor} (hk : k.usesSavepoints = false)
    {inTx : Bool} {c pending : List Path} {s : Session Path} (hs : OpenWith inTx c pending s)
    {f : Call (Proc (Session Path)) (List Path)} {n : ℕ} {r : Except TypedError (List Path)}
    {s' : Session Path}
    (hf : f ⟨n, ⟨c, some ⟨false, if inTx then pending else [], []⟩⟩⟩ = (r, ⟨n, s'⟩)) :
    k.atomic f ⟨n, s⟩ = (r, ⟨n, (s'.exec (endCommand r)).2⟩) := by
  subst hs
  have hbegin : ((if inTx then ⟨c, some ⟨false, pending, []⟩⟩ else ⟨c, none⟩ :
      Session Path).exec .begin).2 = ⟨c, some ⟨false, if inTx then pending else [], []⟩⟩ := by
    cases inTx <;> simp [Session.execTx, Session.execIdle, Tx.fresh]
  simp only [Executor.atomic_eq, hk, Bool.false_eq_true, ↓reduceIte, client_atomic_server, hbegin,
    hf]
  cases r <;> rfl

/-- A client's closure, ended by the command that its result calls for: what was pending before it
is committed if the first call to end returns `Ok`, and the survivors of the closure are. -/
theorem closure_client {k : Executor} (hk : k.usesSavepoints = false) (b : Body) :
    ∀ (inTx : Bool) (at_ : Path) (n : ℕ) (c pending : List Path) (s : Session Path),
      OpenWith inTx c pending s →
      ∃ r s', b.closure k at_ ⟨n, s⟩ = (r, ⟨n, s'⟩) ∧
        (s'.exec (endCommand r)).2 =
          ⟨c ++ (if inTx && b.firstEnd then pending else []) ++ b.survivors inTx at_, none⟩ ∧
        (inTx = false → s'.tx = none) ∧
        if b.succeeds then r = .ok (b.kept at_) else ∃ e, r = .error e := by
  induction b with
  -- the closure has run to its end, `COMMIT` or `ROLLBACK` follows
  | ok =>
    rintro (_ | _) at_ n c pending s rfl <;> refine ⟨.ok [], _, rfl, ?_⟩ <;>
      simp [endCommand, Session.execTx, Session.execIdle, Body.firstEnd, Body.survivors,
        Body.succeeds, Body.kept]
  | err e =>
    rintro (_ | _) at_ n c pending s rfl <;> refine ⟨.error e, _, rfl, ?_⟩ <;>
      simp [endCommand, Session.execTx, Session.execIdle, Body.firstEnd, Body.survivors,
        Body.succeeds]
  | stmt fails rest ih =>
    intro inTx at_ n c pending s hs
    cases fails with
    | true =>
      refine ⟨.error (.wire (.pg { code := Session.rejected })), (s.exec (.statement at_ true)).2,
        ?_⟩
      subst hs
      cases inTx <;>
        simp [Body.closure, Call.bind_eq, Executor.execute_eq, execute_server, Session.execTx,
          Session.execIdle, endCommand, Body.firstEnd, Body.survivors, Body.succeeds]
    -- the statement goes through, and the rest runs with it in the log
    | false =>
      obtain ⟨c', pending', s', hs', hex, hpend⟩ := execute_client hs rest.firstEnd k at_ n
      obtain ⟨r, s'', hr, hend, htx, hres⟩ := ih inTx (true :: at_) n c' pending' s' hs'
      refine ⟨r.map (at_ :: ·), s'', ?_, ?_, htx, ?_⟩
      · simp only [Body.closure, Call.bind_eq, hex, hr]
        cases r <;> rfl
      · simp only [endCommand_map, hend, hpend, Body.firstEnd, Body.survivors, Bool.not_false,
          Bool.true_and, Bool.false_eq_true, ↓reduceIte, List.append_assoc]
      · simp only [Body.succeeds, Bool.not_false, Bool.true_and]
        split_ifs at hres ⊢
        · simp [hres, Body.kept, Except.map]
        · obtain ⟨e, rfl⟩ := hres
          exact ⟨e, rfl⟩
  | nested inner onOk onErr ihi iho ihe =>
    intro inTx at_ n c pending s hs
    obtain ⟨r, s', hr, hend, -, hres⟩ := ihi true (false :: at_) n c
      (if inTx then pending else []) _ rfl
    have hcall := atomic_client hk hs hr
    rw [hend] at hcall
    -- the `COMMIT` or `ROLLBACK` of the nested call ends the whole transaction, and the rest of the
    -- closure runs outside of one
    have hpend : (if inner.firstEnd then if inTx then pending else [] else []) =
        if inTx && inner.firstEnd then pending else [] := by
      cases inTx <;> cases inner.firstEnd <;> rfl
    simp only [Bool.true_and, hpend] at hcall
    generalize hc₁ : c ++ (if inTx && inner.firstEnd then pending else []) ++
      inner.survivors true (false :: at_) = c₁ at hcall
    split_ifs at hres with hin
    · subst hres
      obtain ⟨r', s'', hr', hend', htx', hres'⟩ := iho false (true :: at_) n c₁ [] _ rfl
      simp only [Bool.false_eq_true, ↓reduceIte] at hr'
      refine ⟨r'.map (inner.kept (false :: at_) ++ ·), s'', ?_, ?_, fun _ => htx' rfl, ?_⟩
      · simp only [Body.closure, Call.attempt, hcall, Call.bind_eq, hr']
        cases r' <;> rfl
      · simp [endCommand_map, hend', Body.firstEnd, Body.survivors, hin, ← hc₁]
      · simp only [Body.succeeds, hin, ↓reduceIte]
        split_ifs at hres' ⊢
        · simp [hres', Body.kept, Except.map, hin]
        · obtain ⟨e, rfl⟩ := hres'
          exact ⟨e, rfl⟩
    · obtain ⟨e, rfl⟩ := hres
      obtain ⟨r', s'', hr', hend', htx', hres'⟩ := ihe false (true :: at_) n c₁ [] _ rfl
      simp only [Bool.false_eq_true, ↓reduceIte] at hr'
      refine ⟨r', s'', ?_, ?_, fun _ => htx' rfl, ?_⟩
      · simp only [Body.closure, Call.attempt, hcall, hr']
      · simp [hend', Body.firstEnd, Body.survivors, hin, ← hc₁]
      · simpa [Body.succeeds, Body.kept, hin] using hres'

namespace Body

/-- The statements of a closure are named by their positions, which end in the closure's own. -/
theorem suffix_of_mem_kept {b : Body} : ∀ {at_ x : Path}, x ∈ b.kept at_ → at_ <:+ x := by
  induction b with
  | ok | err => intro at_ x h; simp [kept] at h
  | stmt fails rest ih =>
    intro at_ x h
    cases fails <;> simp only [kept, Bool.false_eq_true, ↓reduceIte, List.not_mem_nil] at h
    rcases List.mem_cons.1 h with rfl | h
    · exact List.suffix_refl _
    · exact (List.suffix_cons _ _).trans (ih h)
  | nested inner onOk onErr ihi iho ihe =>
    intro at_ x h
    simp only [kept] at h
    split_ifs at h <;> rcases List.mem_append.1 h with h | h
    · exact (List.suffix_cons _ _).trans (ihi h)
    · exact (List.suffix_cons _ _).trans (iho h)
    · simp at h
    · exact (List.suffix_cons _ _).trans (ihe h)

theorem suffix_of_mem_survivors {b : Body} :
    ∀ {inTx : Bool} {at_ x : Path}, x ∈ b.survivors inTx at_ → at_ <:+ x := by
  induction b with
  | ok | err => intro inTx at_ x h; simp [survivors] at h
  | stmt fails rest ih =>
    intro inTx at_ x h
    cases fails <;> simp only [survivors, Bool.false_eq_true, ↓reduceIte, List.not_mem_nil] at h
    rcases List.mem_append.1 h with h | h
    · split_ifs at h <;> simp_all
    · exact (List.suffix_cons _ _).trans (ih h)
  | nested inner onOk onErr ihi iho ihe =>
    intro inTx at_ x h
    simp only [survivors] at h
    split_ifs at h <;> rcases List.mem_append.1 h with h | h
    · exact (List.suffix_cons _ _).trans (ihi h)
    · exact (List.suffix_cons _ _).trans (iho h)
    · exact (List.suffix_cons _ _).trans (ihi h)
    · exact (List.suffix_cons _ _).trans (ihe h)

/-- Two lists whose first parts avoid `at_` and whose second parts consist of positions below it
agree when their parts do. -/
theorem append_eq_append_iff_below {l₁ l₁' l₂ l₂' : List Path} {at_ : Path}
    (h₁ : ∀ x ∈ l₁, ¬ at_ <:+ x) (h₁' : ∀ x ∈ l₁', ¬ at_ <:+ x)
    (h₂ : ∀ x ∈ l₂, at_ <:+ x) (h₂' : ∀ x ∈ l₂', at_ <:+ x) :
    l₁ ++ l₂ = l₁' ++ l₂' ↔ l₁ = l₁' ∧ l₂ = l₂' := by
  refine ⟨fun h => ?_, fun ⟨h, h'⟩ => by rw [h, h']⟩
  have hfilter : ∀ {l l' : List Path}, (∀ x ∈ l, ¬ at_ <:+ x) → (∀ x ∈ l', at_ <:+ x) →
      (l ++ l').filter (fun x => decide (at_ <:+ x)) = l' := by
    intro l l' hl hl'
    rw [List.filter_append, List.filter_eq_nil_iff.2 (by simpa using hl),
      List.filter_eq_self.2 (by simpa using hl'), List.nil_append]
  obtain rfl : l₂ = l₂' := by rw [← hfilter h₁ h₂, h, hfilter h₁' h₂']
  exact ⟨List.append_cancel_right h, rfl⟩

/-- The two branches below a nested call have no positions in common. -/
theorem not_suffix_of_suffix {at_ x : Path} (h : false :: at_ <:+ x) : ¬ true :: at_ <:+ x :=
  fun h' => by
    have := List.suffix_of_suffix_length_le h h' (by simp)
    simpa using this.eq_of_length (by simp)

/-- Every statement is committed exactly when all its enclosing calls return `Ok`, if and only if
each is settled. -/
theorem survivors_eq_iff (b : Body) : ∀ (all inTx : Bool) (at_ : Path),
    b.survivors inTx at_ = (if all then b.kept at_ else []) ↔ b.settled all inTx = true := by
  have below : ∀ (b : Body) (all : Bool) (at_ x : Path),
      x ∈ (if all then b.kept at_ else []) → at_ <:+ x := by
    rintro b (_ | _) at_ x h
    · simp at h
    · exact suffix_of_mem_kept h
  induction b with
  | ok | err => intro all inTx at_; simp [survivors, kept, settled]
  | stmt fails rest ih =>
    intro all inTx at_
    cases fails with
    | true => simp [survivors, kept, settled]
    | false =>
      -- the statement itself and those after it are told apart by their positions
      have hself : ∀ (g : Bool), ∀ x ∈ (if g then [at_] else []), ¬ true :: at_ <:+ x := by
        rintro (_ | _) x hx <;> simp only [Bool.false_eq_true, ↓reduceIte, List.not_mem_nil,
          List.mem_singleton] at hx
        exact hx ▸ fun h => absurd h.length_le (by simp)
      have hkept : (if all then (stmt false rest).kept at_ else []) =
          (if all then [at_] else []) ++ (if all then rest.kept (true :: at_) else []) := by
        cases all <;> simp [kept]
      rw [hkept, survivors, if_neg (by simp), append_eq_append_iff_below (hself _) (hself _)
        (fun _ => suffix_of_mem_survivors) (below rest all _), ih]
      cases inTx <;> cases all <;> cases hrest : rest.firstEnd <;> simp [settled, hrest]
  | nested inner onOk onErr ihi iho ihe =>
    intro all inTx at_
    have hkept : (if all then (nested inner onOk onErr).kept at_ else []) =
        (if all && inner.succeeds then inner.kept (false :: at_) else []) ++
          if all then (if inner.succeeds then onOk else onErr).kept (true :: at_) else [] := by
      cases all <;> cases h : inner.succeeds <;> simp [kept, h]
    have hsurv : (nested inner onOk onErr).survivors inTx at_ =
        inner.survivors true (false :: at_) ++
        (if inner.succeeds then onOk else onErr).survivors false (true :: at_) := by
      cases h : inner.succeeds <;> simp [survivors, h]
    rw [hkept, hsurv, append_eq_append_iff_below
      (fun _ h => not_suffix_of_suffix (suffix_of_mem_survivors h))
      (fun _ h => not_suffix_of_suffix (below inner _ _ _ h))
      (fun _ => suffix_of_mem_survivors) (below _ all _), ihi]
    cases h : inner.succeeds <;> simp [settled, h, iho, ihe]

end Body

/-! ### The tree as a whole -/

/-- Savepoints make every tree of calls all-or-nothing. -/
theorem atomic_allOrNothing_of_savepoints {k : Executor} (hk : k.usesSavepoints = true) (b : Body)
    {p : Proc (Session Path)} (hp : k.Ready p) : AllOrNothing k b p := by
  obtain ⟨n, c, _ | ⟨aborted, pending, saves⟩⟩ := p <;> simp only [Executor.Ready, hk] at hp
  simp only [AllOrNothing, Executor.InForce, hk, Executor.atomic_eq, ↓reduceIte]
  cases aborted with
  | true =>
    have hn : ∀ sp ∈ saves, sp.1 < n + 1 := fun sp hsp => Nat.lt_succ_of_lt (hp sp hsp)
    have hfind : Tx.find n saves = none := Tx.find_eq_none fun sp hsp => Nat.ne_of_lt (hp sp hsp)
    obtain ⟨m, -, ⟨e, h⟩ | h⟩ := closure_aborted hk (c := c) b [] (n + 1) ⟨true, pending, saves⟩
      rfl hn <;> simp [transaction_atomic_server, Session.execTx, h, hfind, Tx.abort]
  | false =>
    have hgrown := closure_grown hk (c := c) b [] (n + 1) pending ((n, pending.length) :: saves)
      (by simpa using fun a k h => Nat.lt_succ_of_lt (hp (a, k) h))
    obtain ⟨m, -, ⟨es, h⟩ | ⟨e, h⟩⟩ := savepoint_atomic hgrown <;> simp [h]

/-- What a client has committed when a tree of calls has run on it, and what it reports. -/
theorem atomic_of_client {k : Executor} (hk : k.usesSavepoints = false) (b : Body) (n : ℕ)
    (c : List Path) :
    ∃ r, k.atomic (b.closure k []) ⟨n, ⟨c, none⟩⟩ = (r, ⟨n, ⟨c ++ b.survivors true [], none⟩⟩) ∧
      if b.succeeds then r = .ok (b.kept []) else ∃ e, r = .error e := by
  obtain ⟨r, s, hrun, hend, -, hres⟩ := closure_client hk b true [] n c [] _ rfl
  have hidle : OpenWith false c [] ⟨c, none⟩ := rfl
  have hcall := atomic_client hk hidle hrun
  simp only [hend, ite_self, List.append_nil] at hcall
  exact ⟨r, hcall, hres⟩

/-- **When a tree of nested `atomic` calls is all-or-nothing.**  Always when the levels are
savepoints; when every level sends `BEGIN` and `COMMIT`, only if the first level to end after each
statement, the one that decides it, agrees with all the levels around it. -/
theorem atomic_allOrNothing_iff (k : Executor) (b : Body) (p : Proc (Session Path))
    (hp : k.Ready p) :
    AllOrNothing k b p ↔ k.usesSavepoints = true ∨ b.settled b.succeeds true = true := by
  cases hk : k.usesSavepoints with
  | true => exact iff_of_true (atomic_allOrNothing_of_savepoints hk b hp) (.inl rfl)
  | false =>
    obtain ⟨n, c, _ | t⟩ := p <;> simp only [Executor.Ready, hk] at hp
    obtain ⟨r, hrun, hres⟩ := atomic_of_client hk b n c
    simp only [AllOrNothing, hrun, Executor.InForce, hk, Bool.false_eq_true, false_or,
      ← Body.survivors_eq_iff b b.succeeds true []]
    split_ifs at hres ⊢
    · subst hres; simp
    · obtain ⟨e, rfl⟩ := hres; simp

/-- A nested call of a client that returns `Ok` inside one that does. -/
theorem client_nested_ok :
    AllOrNothing .client (.nested (.stmt false .ok) .ok .ok) ⟨0, ⟨[], none⟩⟩ :=
  (atomic_allOrNothing_iff .client _ ⟨0, ⟨[], none⟩⟩ trivial).2 (.inr rfl)

/-- A nested call of a client returns `Ok`, and with it commits; the outer call returns `Err`, and
its `ROLLBACK` finds no transaction. -/
theorem client_nested_commit_stays :
    Executor.client.Ready (⟨0, ⟨[], none⟩⟩ : Proc (Session Path)) ∧
      ¬ AllOrNothing .client
        (.nested (.stmt false .ok) (.err (.config "no items")) .ok) ⟨0, ⟨[], none⟩⟩ :=
  ⟨trivial, fun h => absurd (show [[false]] = ([] : List Path) from h) (by simp)⟩

end Resolute
