import Mathlib.Data.Nat.Digits.Defs
import Resolute.Client.Atomic

/-!
# JavaScript transactions

`transaction` and the `savepoint` of the handle it gives its callback, run against a server that
follows PostgreSQL's transaction rules.  A savepoint is named by the caller or by a counter of the
transaction; the server folds the names to lower case and cuts them (`foldedName`, `nameKey`), so
that two names of the callers may be one savepoint.

A callback is a tree of calls (`TxBody`), which `TxBody.callback` runs on a handle.  What becomes of
it is read off the tree alone, by `TxBody.resolves`, `TxBody.aborts` and `TxBody.kept`: by induction
for a callback in an open transaction (`callback_added`), and for a whole transaction in
`transaction_commits`.
-/

namespace Resolute.Js

/-! ### Promises -/

/-- What an `async` function rejects with. -/
inductive Rejection where
  | native (e : PgWireError)
  | error (message : String)
  deriving DecidableEq, Repr

/-- An `async` function that acts on a state `σ`. -/
def Promise (σ α : Type) : Type := σ → Except Rejection α × σ

namespace Promise

variable {σ α β : Type}

/-- `p.then(ok, err)`. -/
def andThen (p : Promise σ α) (ok : α → Promise σ β) (err : Rejection → Promise σ β) :
    Promise σ β := fun s =>
  match p s with
  | (.ok a, s') => ok a s'
  | (.error e, s') => err e s'

/-- `throw e`. -/
def reject (e : Rejection) : Promise σ α := fun s => (.error e, s)

/-- `await p` and go on with its value. -/
def bind (p : Promise σ α) (f : α → Promise σ β) : Promise σ β := p.andThen f reject

instance : Monad (Promise σ) where
  pure a := fun s => (.ok a, s)
  bind := bind

/-- `try { p } catch (err) { handler(err) }`. -/
def attempt (p : Promise σ α) (handler : Rejection → Promise σ α) : Promise σ α :=
  p.andThen pure handler

theorem bind_eq (p : Promise σ α) (f : α → Promise σ β) (s : σ) :
    (p >>= f) s = match p s with
      | (.ok a, s') => f a s'
      | (.error e, s') => (.error e, s') := rfl

theorem andThen_eq (p : Promise σ α) (ok : α → Promise σ β) (err : Rejection → Promise σ β)
    (s : σ) : p.andThen ok err s = match p s with
      | (.ok a, s') => ok a s'
      | (.error e, s') => err e s' := rfl

theorem attempt_eq (p : Promise σ α) (handler : Rejection → Promise σ α) (s : σ) :
    p.attempt handler s = match p s with
      | (.ok a, s') => (.ok a, s')
      | (.error e, s') => handler e s' := rfl

@[simp] theorem pure_apply (a : α) (s : σ) : (pure a : Promise σ α) s = (.ok a, s) := rfl

@[simp] theorem reject_apply (e : Rejection) (s : σ) :
    (reject e : Promise σ α) s = (.error e, s) := rfl

end Promise

/-! ### Names of savepoints -/

/-- `/^[A-Za-z_][A-Za-z0-9_]*$/`. -/
def validName (name : String) : Bool :=
  match name.toList with
  | [] => false
  | c :: cs => (c.isAlpha || c == '_') && cs.all fun d => d.isAlphanum || d == '_'

/-- The name the server knows a savepoint by: unquoted, it is folded to lower case and cut after 63
bytes. -/
def foldedName (name : String) : List Char := (name.toList.map Char.toLower).take 63

/-- A number for each name. -/
def nameKey : List Char → ℕ
  | [] => 0
  | c :: cs => c.toNat + 1 + 1114113 * nameKey cs

theorem nameKey_injective : Function.Injective nameKey := by
  intro xs
  induction xs with
  | nil =>
    rintro (_ | ⟨y, ys⟩) h
    · rfl
    · simp only [nameKey] at h; omega
  | cons x xs ih =>
    rintro (_ | ⟨y, ys⟩) h
    · simp only [nameKey] at h; omega
    · have hx := toNat_lt x
      have hy := toNat_lt y
      simp only [nameKey] at h
      have htail : xs = ys := ih (by omega)
      rw [htail, Char.toNat_inj.1 (by omega : x.toNat = y.toNat)]
where
  toNat_lt (c : Char) : c.toNat < 1114112 := by
    have := c.valid
    simp only [Char.toNat, UInt32.isValidChar, Nat.isValidChar] at *
    omega

/-- The name of the `n`-th savepoint that is not named by the caller. -/
def generatedName (n : ℕ) : String := s!"sp_{n}"

/-! ### The calls -/

/-- The interface `TxState`. -/
structure TxState where
  spCounter : ℕ
  deriving DecidableEq, Repr

/-- What the calls of one transaction act on: its own state, and the session of its connection. -/
structure TxTask (ε : Type) where
  state : TxState
  session : Session ε
  deriving DecidableEq, Repr

/-- What is sent: the SQL of `transaction` and `savepoint`, and a statement of the callback. -/
inductive TxSql (ε : Type) where
  | begin (beginSql : String)
  | commit
  | rollback
  | savepoint (rawName : String)
  | releaseSavepoint (rawName : String)
  | rollbackToSavepoint (rawName : String)
  | stmt (a : Stmt ε)
  deriving DecidableEq, Repr

/-- The interface `TxOpts`, without its signal. -/
structure TxOpts where
  isolationLevel : Option String
  readOnly : Bool
  deferrable : Bool
  deriving DecidableEq, Repr

section Calls

-- `reserved` : the key words that the server's grammar does not take for a name;
-- `toUpperCase` : the method of JavaScript's strings.
variable {ε T : Type} (reserved : List Char → Bool) (toUpperCase : String → String)

/-- A command about the savepoint `rawName`.  A reserved word there is a syntax error. -/
def Session.named (s : Session ε) (rawName : String) (command : ℕ → Command ε) :
    Reply × Session ε :=
  if reserved (foldedName rawName) then (.error "42601", { s with tx := s.tx.map Tx.abort })
  else s.exec (command (nameKey (foldedName rawName)))

/-- The server's verdict on what it is sent. -/
def Session.reply (s : Session ε) : TxSql ε → Reply × Session ε
  | .begin _ => s.exec .begin
  | .commit => s.exec .commit
  | .rollback => s.exec .rollback
  | .savepoint rawName => Session.named reserved s rawName .savepoint
  | .releaseSavepoint rawName => Session.named reserved s rawName .release
  | .rollbackToSavepoint rawName => Session.named reserved s rawName .rollbackTo
  | .stmt a => s.exec (.statement a.effect a.fails)

/-- `Connection.simpleQuery` and `Connection.query`: the response is collected as rows, and an error
of the server rejects. -/
def simpleQuery (sql : TxSql ε) : Promise (TxTask ε) PipelineResponse := fun p =>
  let (reply, s) := Session.reply reserved p.session sql
  match Collect.await ((Collect.init .rows).run (reply.group s.status)) with
  | .ok r => (.ok r, { p with session := s })
  | .error e => (.error (.native e), { p with session := s })

/-- `const state: TxState = { spCounter: 0 }`. -/
def newTxState : Promise (TxTask ε) Unit := fun p => (.ok (), { p with state := ⟨0⟩ })

/-- `++state.spCounter`. -/
def nextSavepoint : Promise (TxTask ε) String := fun p =>
  (.ok (generatedName (p.state.spCounter + 1)), { p with state := ⟨p.state.spCounter + 1⟩ })

/-- `handle["savepoint"]`; the name is `none` if only a callback is given. -/
def savepoint (name : Option String) (fn : Promise (TxTask ε) T) : Promise (TxTask ε) T := do
  let rawName ← name.elim nextSavepoint pure
  if !validName rawName then
    Promise.reject (.error s!"invalid savepoint name: {rawName}")
  else
    let _ ← simpleQuery reserved (.savepoint rawName)
    Promise.attempt
      (do
        let result ← fn
        let _ ← simpleQuery reserved (.releaseSavepoint rawName)
        pure result)
      (fun err => do
        let undo := do
          let _ ← simpleQuery reserved (.rollbackToSavepoint rawName)
          pure ()
        undo.attempt fun _ => pure ()
        Promise.reject err)

/-- The levels that `transaction` lets through. -/
def allowedLevels : List String := ["READ COMMITTED", "REPEATABLE READ", "SERIALIZABLE"]

/-- `beginSql`, or the level that is refused.  An empty level is none. -/
def beginSql (opts : TxOpts) : Except String String :=
  let modes := (if opts.readOnly then ["READ ONLY"] else []) ++
    if opts.deferrable then ["DEFERRABLE"] else []
  match opts.isolationLevel.filter (· ≠ "") with
  | none => .ok (" ".intercalate ("BEGIN" :: modes))
  | some isolationLevel =>
    let level := toUpperCase isolationLevel
    if level ∈ allowedLevels then
      .ok (" ".intercalate ("BEGIN" :: s!"ISOLATION LEVEL {level}" :: modes))
    else .error isolationLevel

/-- `transaction`. -/
def transaction (fn : Promise (TxTask ε) T) (opts : TxOpts) : Promise (TxTask ε) T :=
  match beginSql toUpperCase opts with
  | .error isolationLevel =>
    Promise.reject (.error s!"invalid isolationLevel: {isolationLevel}")
  | .ok sql => do
    let _ ← simpleQuery reserved (.begin sql)
    newTxState
    Promise.attempt
      (do
        let result ← fn
        let _ ← simpleQuery reserved .commit
        pure result)
      (fun err => do
        let undo := do
          let _ ← simpleQuery reserved .rollback
          pure ()
        undo.attempt fun _ => pure ()
        Promise.reject err)

end Calls

/-! ### Callbacks -/

/-- What a callback does with its handle: it runs statements and opens savepoints, goes on as it
likes after each of them resolves or rejects, and returns or throws. -/
inductive TxBody where
  | ret
  | throw (e : Rejection)
  /-- `handle.query(..).then(onOk, onErr)`; `fails` if the server rejects the statement. -/
  | query (fails : Bool) (onOk onErr : TxBody)
  /-- `handle.savepoint(name, inner).then(onOk, onErr)`. -/
  | savepoint (name : Option String) (inner onOk onErr : TxBody)
  deriving DecidableEq, Repr

namespace TxBody

variable (reserved : List Char → Bool)

/-- Run a callback.  It returns the statements it knows to have taken effect: its own, and those of
the savepoints that resolved. -/
def callback : TxBody → Path → Promise (TxTask Path) (List Path)
  | ret, _ => pure []
  | throw e, _ => Promise.reject e
  | query fails onOk onErr, at_ =>
    (simpleQuery reserved (.stmt ⟨at_, fails⟩)).andThen
      (fun _ => do
        let es ← onOk.callback (true :: at_)
        pure (at_ :: es))
      (fun _ => onErr.callback (true :: at_))
  | savepoint name inner onOk onErr, at_ =>
    (Js.savepoint reserved name (inner.callback (false :: at_))).andThen
      (fun es => do
        let es' ← onOk.callback (true :: at_)
        pure (es ++ es'))
      (fun _ => onErr.callback (true :: at_))

/-- The savepoints a callback can name by the counter. -/
def unnamed : TxBody → ℕ
  | ret | throw _ => 0
  | query _ onOk onErr => onOk.unnamed + onErr.unnamed
  | savepoint name inner onOk onErr =>
    (if name.isNone then 1 else 0) + inner.unnamed + onOk.unnamed + onErr.unnamed

/-- In an aborted transaction every call rejects; the callback still resolves if it throws nothing
itself. -/
def resolvesAborted : TxBody → Bool
  | ret => true
  | throw _ => false
  | query _ _ onErr | savepoint _ _ _ onErr => onErr.resolvesAborted

/-- What becomes of a call to `savepoint` in a transaction in order, before its callback is run. -/
inductive Entry where
  /-- The name is refused here, and nothing is sent. -/
  | refused
  /-- The name is a syntax error, which aborts the transaction. -/
  | reserved
  | entered
  deriving DecidableEq, Repr

/-- A name from the counter is always accepted. -/
def entry (name : Option String) : Entry :=
  match name with
  | none => .entered
  | some s => if !validName s then .refused else if reserved (foldedName s) then .reserved
    else .entered

/-- How a callback that starts in a transaction in order ends: whether it resolves, and whether the
transaction is aborted then. -/
def ends : TxBody → Bool × Bool
  | ret => (true, false)
  | throw _ => (false, false)
  | query true _ onErr => (onErr.resolvesAborted, true)
  | query false onOk _ => onOk.ends
  | savepoint name inner onOk onErr =>
    match entry reserved name with
    | .refused => onErr.ends
    | .reserved => (onErr.resolvesAborted, true)
    | .entered => if inner.ends = (true, false) then onOk.ends else onErr.ends

/-- The callback resolves. -/
def resolves (b : TxBody) : Bool := (b.ends reserved).1

/-- The callback leaves the transaction aborted, having swallowed an error. -/
def aborts (b : TxBody) : Bool := (b.ends reserved).2

/-- The statements of a callback that succeed and all of whose savepoints inside it resolve. -/
def kept : TxBody → Path → List Path
  | ret, _ | throw _, _ | query true _ _, _ => []
  | query false onOk _, at_ => at_ :: onOk.kept (true :: at_)
  | savepoint name inner onOk onErr, at_ =>
    match entry reserved name with
    | .refused => onErr.kept (true :: at_)
    | .reserved => []
    | .entered =>
      if inner.ends reserved = (true, false) then
        inner.kept (false :: at_) ++ onOk.kept (true :: at_)
      else onErr.kept (true :: at_)

/-- No savepoint has the name of one around it, or one that the counter may give. -/
def Apart : List (List Char) → TxBody → Prop
  | _, ret | _, throw _ => True
  | around, query _ onOk onErr => onOk.Apart around ∧ onErr.Apart around
  | around, savepoint name inner onOk onErr =>
    (∀ s ∈ name, foldedName s ∉ around ∧ ∀ n, foldedName s ≠ foldedName (generatedName n)) ∧
      inner.Apart ((name.map foldedName).toList ++ around) ∧ onOk.Apart around ∧
      onErr.Apart around

end TxBody

/-! ### Names from the counter -/

/-- The counter is a number of JavaScript, which counts up to here. -/
def maxCounter : ℕ := 2 ^ 53

theorem toList_generatedName (n : ℕ) :
    (generatedName n).toList = 's' :: 'p' :: '_' :: Nat.toDigits 10 n := by
  simp only [generatedName, String.toList_append, Nat.toString_eq_ofList_toDigits,
    String.toList_ofList]
  rfl

theorem validName_generatedName (n : ℕ) : validName (generatedName n) = true := by
  simp only [validName, toList_generatedName, List.all_cons, Bool.and_eq_true, List.all_eq_true]
  refine ⟨by decide, by decide, by decide, ?_⟩
  intro d hd
  simp [Char.isAlphanum, Nat.isDigit_of_mem_toDigits (by decide) (by decide) hd]

theorem toLower_of_isDigit {d : Char} (h : d.isDigit = true) : d.toLower = d := by
  simp only [Char.isDigit, Bool.and_eq_true, decide_eq_true_eq, UInt32.le_iff_toNat_le,
    ge_iff_le] at h
  have hA : 'A'.val.toNat = 65 := rfl
  have h9 : '9'.val.toNat = 57 := rfl
  refine dif_neg ?_
  simp only [UInt32.le_iff_toNat_le, ge_iff_le]
  omega

theorem foldedName_generatedName {n : ℕ} (h : n ≤ maxCounter) :
    foldedName (generatedName n) = (generatedName n).toList := by
  have hlen : (Nat.toDigits 10 n).length ≤ 16 :=
    (Nat.length_toDigits_le_iff (by decide) (by decide)).2
      (Nat.lt_of_le_of_lt h (by norm_num [maxCounter]))
  have hlower : (Nat.toDigits 10 n).map Char.toLower = Nat.toDigits 10 n :=
    (List.map_congr_left fun _ hd =>
      toLower_of_isDigit (Nat.isDigit_of_mem_toDigits (by decide) (by decide) hd)).trans
      (List.map_id' _)
  rw [foldedName, toList_generatedName, List.map_cons, List.map_cons, List.map_cons, hlower]
  exact List.take_of_length_le (by simp only [List.length_cons]; omega)

/-- Two names from the counter are two savepoints. -/
theorem foldedName_generatedName_inj {n m : ℕ} (hn : n ≤ maxCounter) (hm : m ≤ maxCounter)
    (h : foldedName (generatedName n) = foldedName (generatedName m)) : n = m := by
  rw [foldedName_generatedName hn, foldedName_generatedName hm, toList_generatedName,
    toList_generatedName] at h
  simp only [List.cons.injEq, true_and] at h
  rw [← Nat.ofDigitChars_ten_toDigits (n := n), h, Nat.ofDigitChars_ten_toDigits]

/-! ### The calls on a server -/

section Server

variable {ε T : Type} {reserved : List Char → Bool}

theorem simpleQuery_complete {sql : TxSql ε} {p : TxTask ε} {tag : String} {s : Session ε}
    (h : Session.reply reserved p.session sql = (.complete tag, s)) :
    simpleQuery reserved sql p = (.ok (.rows [] [] tag), { p with session := s }) := by
  simp only [simpleQuery, h]
  rfl

theorem simpleQuery_error {sql : TxSql ε} {p : TxTask ε} {code : String} {s : Session ε}
    (h : Session.reply reserved p.session sql = (.error code, s)) :
    simpleQuery reserved sql p =
      (.error (.native (.pg { code := code })), { p with session := s }) := by
  simp only [simpleQuery, h]
  rfl

/-- How the savepoint `key` is left when its callback has returned `r` and made `t` of the
transaction: it is released, or undone and left behind if the callback or the release rejects. -/
def leave (key k : ℕ) (rest : List (ℕ × ℕ)) (t : Tx ε) :
    Except Rejection T → Except Rejection T × Tx ε
  | .ok v =>
    if t.aborted then (.error (.native (.pg { code := Session.inFailedTransaction })),
      ⟨false, t.pending.take k, (key, k) :: rest⟩)
    else (.ok v, { t with saves := rest })
  | .error e => (.error e, ⟨false, t.pending.take k, (key, k) :: rest⟩)

/-- What `savepoint` does once it has a name that both sides accept. -/
theorem savepoint_accepted {name : Option String} {p : TxTask ε} {n : ℕ} {rawName : String}
    (hname : name.elim nextSavepoint pure p = (.ok rawName, { p with state := ⟨n⟩ }))
    (hvalid : validName rawName = true) (hres : reserved (foldedName rawName) = false)
    {c pending : List ε} {saves : List (ℕ × ℕ)}
    (hp : p.session = ⟨c, some ⟨false, pending, saves⟩⟩) {fn : Promise (TxTask ε) T}
    {r : Except Rejection T} {m : ℕ} {t : Tx ε}
    (hfn : fn ⟨⟨n⟩, ⟨c, some ⟨false, pending,
      (nameKey (foldedName rawName), pending.length) :: saves⟩⟩⟩ = (r, ⟨⟨m⟩, ⟨c, some t⟩⟩))
    {k : ℕ} {rest : List (ℕ × ℕ)}
    (hfind : Tx.find (nameKey (foldedName rawName)) t.saves = some (k, rest)) :
    savepoint reserved name fn p =
      ((leave (nameKey (foldedName rawName)) k rest t r).1,
        ⟨⟨m⟩, ⟨c, some (leave (nameKey (foldedName rawName)) k rest t r).2⟩⟩) := by
  have hset : Session.reply reserved p.session (.savepoint rawName) = (.complete "SAVEPOINT",
      ⟨c, some ⟨false, pending, (nameKey (foldedName rawName), pending.length) :: saves⟩⟩) := by
    simp [Session.reply, Session.named, hres, hp, Session.execTx]
  have hback : Session.reply reserved ⟨c, some t⟩ (.rollbackToSavepoint rawName) =
      (.complete "ROLLBACK", ⟨c, some ⟨false, t.pending.take k,
        (nameKey (foldedName rawName), k) :: rest⟩⟩) := by
    simp [Session.reply, Session.named, hres, Session.execTx, hfind]
  have hrelease : Session.reply reserved ⟨c, some t⟩ (.releaseSavepoint rawName) =
      if t.aborted then (.error Session.inFailedTransaction, ⟨c, some t⟩)
      else (.complete "RELEASE", ⟨c, some { t with saves := rest }⟩) := by
    simp [Session.reply, Session.named, hres, Session.execTx, hfind]
  simp only [savepoint, Promise.bind_eq, hname, hvalid, Bool.not_true, Bool.false_eq_true,
    ↓reduceIte, simpleQuery_complete (p := { p with state := ⟨n⟩ }) hset, Promise.attempt_eq, hfn]
  cases r with
  | error e =>
    simp only [simpleQuery_complete (p := ⟨⟨m⟩, ⟨c, some t⟩⟩) hback, Promise.pure_apply,
      Promise.reject_apply, leave]
  | ok v =>
    simp only [leave]
    split_ifs at hrelease ⊢
    · simp only [simpleQuery_error (p := ⟨⟨m⟩, ⟨c, some t⟩⟩) hrelease,
        simpleQuery_complete (p := ⟨⟨m⟩, ⟨c, some t⟩⟩) hback, Promise.pure_apply,
        Promise.reject_apply]
    · simp only [simpleQuery_complete (p := ⟨⟨m⟩, ⟨c, some t⟩⟩) hrelease, Promise.pure_apply]

/-- A savepoint that the server does not set is not entered. -/
theorem savepoint_unset {name : Option String} {p : TxTask ε} {n : ℕ} {rawName code : String}
    (hname : name.elim nextSavepoint pure p = (.ok rawName, { p with state := ⟨n⟩ }))
    (hvalid : validName rawName = true) {s : Session ε}
    (hset : Session.reply reserved p.session (.savepoint rawName) = (.error code, s))
    (fn : Promise (TxTask ε) T) :
    savepoint reserved name fn p = (.error (.native (.pg { code := code })), ⟨⟨n⟩, s⟩) := by
  simp only [savepoint, Promise.bind_eq, hname, hvalid, Bool.not_true, Bool.false_eq_true,
    ↓reduceIte, simpleQuery_error (p := { p with state := ⟨n⟩ }) hset]

/-- Nothing is sent for a name that is refused. -/
theorem savepoint_refused {rawName : String} (hvalid : validName rawName = false)
    (fn : Promise (TxTask ε) T) (p : TxTask ε) :
    savepoint reserved (some rawName) fn p =
      (.error (.error s!"invalid savepoint name: {rawName}"), p) := by
  simp [savepoint, Promise.bind_eq, hvalid]

/-- In an aborted transaction `savepoint` rejects, and nothing changes but the counter. -/
theorem savepoint_aborted (reserved : List Char → Bool) (name : Option String)
    (fn : Promise (TxTask ε) T) {c : List ε} {t : Tx ε} (ht : t.aborted = true) (n : ℕ) :
    ∃ e, savepoint reserved name fn ⟨⟨n⟩, ⟨c, some t⟩⟩ =
      (.error e, ⟨⟨n + if name.isNone then 1 else 0⟩, ⟨c, some t⟩⟩) := by
  have habort : t.abort = t := by cases t; simp_all [Tx.abort]
  have hset (rawName : String) : ∃ code, Session.reply reserved ⟨c, some t⟩ (.savepoint rawName) =
      (.error code, ⟨c, some t⟩) := by
    simp only [Session.reply, Session.named]
    split_ifs <;> simp [habort, Session.execTx, ht]
  rcases name with _ | rawName
  · obtain ⟨code, h⟩ := hset (generatedName (n + 1))
    exact ⟨_, savepoint_unset rfl (validName_generatedName _) h fn⟩
  · rcases hvalid : validName rawName with _ | _
    · exact ⟨_, savepoint_refused hvalid fn _⟩
    · obtain ⟨code, h⟩ := hset rawName
      exact ⟨_, savepoint_unset rfl hvalid h fn⟩

end Server

/-! ### Callbacks on a server -/

section Callbacks

variable {reserved : List Char → Bool}

/-- A callback in an aborted transaction. -/
theorem callback_aborted (reserved : List Char → Bool) {c : List Path} {t : Tx Path}
    (ht : t.aborted = true) (b : TxBody) :
    ∀ (at_ : Path) (n : ℕ), ∃ m, n ≤ m ∧ m ≤ n + b.unnamed ∧
      if b.resolvesAborted then
        b.callback reserved at_ ⟨⟨n⟩, ⟨c, some t⟩⟩ = (.ok [], ⟨⟨m⟩, ⟨c, some t⟩⟩)
      else ∃ e, b.callback reserved at_ ⟨⟨n⟩, ⟨c, some t⟩⟩ = (.error e, ⟨⟨m⟩, ⟨c, some t⟩⟩) := by
  induction b with
  | ret => intro at_ n; exact ⟨n, Nat.le_refl n, Nat.le_refl n, rfl⟩
  | throw e => intro at_ n; exact ⟨n, Nat.le_refl n, Nat.le_refl n, e, rfl⟩
  | query fails onOk onErr _ ihe =>
    intro at_ n
    obtain ⟨m, hnm, hm, h⟩ := ihe (true :: at_) n
    refine ⟨m, hnm, by simp only [TxBody.unnamed]; omega, ?_⟩
    have hreply : Session.reply reserved ⟨c, some t⟩ (.stmt ⟨at_, fails⟩) =
        (.error Session.inFailedTransaction, ⟨c, some t⟩) := by
      simp [Session.reply, Session.execTx, ht]
    simpa only [TxBody.callback, TxBody.resolvesAborted, Promise.andThen_eq,
      simpleQuery_error (p := ⟨⟨n⟩, ⟨c, some t⟩⟩) hreply] using h
  | savepoint name inner onOk onErr _ _ ihe =>
    intro at_ n
    obtain ⟨e, he⟩ := savepoint_aborted reserved name
      (inner.callback reserved (false :: at_)) (c := c) ht n
    obtain ⟨m, hnm, hm, h⟩ := ihe (true :: at_) (n + if name.isNone then 1 else 0)
    refine ⟨m, by omega, by simp only [TxBody.unnamed]; omega, ?_⟩
    simpa only [TxBody.callback, TxBody.resolvesAborted, Promise.andThen_eq, he] using h

/-- The names that the savepoints around a callback may have: those of `around`, given by the
callers, and those the counter has given so far. -/
def Taken (around : List (List Char)) (n : ℕ) (x : List Char) : Prop :=
  x ∈ around ∨ ∃ j ≤ n, x = foldedName (generatedName j)

theorem Taken.mono {around around' : List (List Char)} {n m : ℕ} {x : List Char}
    (h : Taken around n x) (ha : around ⊆ around') (hnm : n ≤ m) : Taken around' m x := by
  rcases h with h | ⟨j, hj, h⟩
  · exact .inl (ha h)
  · exact .inr ⟨j, Nat.le_trans hj hnm, h⟩

/-- What a callback that starts in the transaction in order `⟨false, pending, saves⟩` may have made
of it: it has added effects, and left savepoints behind none of which has a taken name. -/
def Added (reserved : List Char → Bool) (c pending : List Path) (saves : List (ℕ × ℕ))
    (around : List (List Char)) (n : ℕ) (b : TxBody) (at_ : Path)
    (r : Except Rejection (List Path) × TxTask Path) : Prop :=
  ∃ m t extra delta, n ≤ m ∧ m ≤ n + b.unnamed ∧ r.2 = ⟨⟨m⟩, ⟨c, some t⟩⟩ ∧
    t.saves = extra ++ saves ∧ (∀ sp ∈ extra, ∀ x, Taken around n x → sp.1 ≠ nameKey x) ∧
    t.pending = pending ++ delta ∧ t.aborted = b.aborts reserved ∧
    if b.resolves reserved then r.1 = .ok delta ∧ delta = b.kept reserved at_
    else ∃ e, r.1 = .error e

/-- A savepoint whose name is taken inside it is found again when its callback is over: it is
released with the effects of the callback, or undone and left behind. -/
theorem savepoint_added {name : Option String} {p : TxTask Path} {n : ℕ} {rawName : String}
    (hname : name.elim nextSavepoint pure p = (.ok rawName, { p with state := ⟨n⟩ }))
    (hvalid : validName rawName = true) (hres : reserved (foldedName rawName) = false)
    {c pending : List Path} {saves : List (ℕ × ℕ)}
    (hp : p.session = ⟨c, some ⟨false, pending, saves⟩⟩) {around : List (List Char)}
    (htaken : Taken around n (foldedName rawName)) {inner : TxBody} {at_ : Path}
    (hinner : Added reserved c pending ((nameKey (foldedName rawName), pending.length) :: saves)
      around n inner at_ (inner.callback reserved at_ ⟨⟨n⟩, ⟨c, some ⟨false, pending,
        (nameKey (foldedName rawName), pending.length) :: saves⟩⟩⟩)) :
    ∃ m, n ≤ m ∧ m ≤ n + inner.unnamed ∧
      if inner.ends reserved = (true, false) then
        savepoint reserved name (inner.callback reserved at_) p = (.ok (inner.kept reserved at_),
          ⟨⟨m⟩, ⟨c, some ⟨false, pending ++ inner.kept reserved at_, saves⟩⟩⟩)
      else ∃ e, savepoint reserved name (inner.callback reserved at_) p = (.error e, ⟨⟨m⟩, ⟨c, some
        ⟨false, pending, (nameKey (foldedName rawName), pending.length) :: saves⟩⟩⟩) := by
  obtain ⟨m, t, extra, delta, hnm, hm, hr, hsaves, hextra, hpend, habort, hends⟩ := hinner
  have hfind : Tx.find (nameKey (foldedName rawName)) t.saves = some (pending.length, saves) := by
    rw [hsaves, Tx.find_append fun sp hsp => hextra sp hsp _ htaken]
    simp [Tx.find]
  generalize hrun : inner.callback reserved at_ _ = run at hr hends
  obtain ⟨r, p'⟩ := run
  obtain rfl : p' = ⟨⟨m⟩, ⟨c, some t⟩⟩ := hr
  have hcall := savepoint_accepted hname hvalid hres hp hrun hfind
  have hpair : inner.ends reserved = (inner.resolves reserved, inner.aborts reserved) := rfl
  refine ⟨m, hnm, hm, ?_⟩
  rw [hcall, hpair]
  split_ifs at hends with hok
  · obtain ⟨hr, rfl⟩ := hends
    simp only at hr
    subst hr
    cases hab : inner.aborts reserved <;> simp [leave, hok, hab, habort, hpend]
  · obtain ⟨e, he⟩ := hends
    simp only at he
    subst he
    simp [leave, hok, hpend]

/-- What a callback does to every transaction in order in which its savepoints are told apart by
their names. -/
def Adds (reserved : List Char → Bool) (c : List Path) (b : TxBody) : Prop :=
  ∀ (at_ : Path) (n : ℕ) (around : List (List Char)) (pending : List Path) (saves : List (ℕ × ℕ)),
    n + b.unnamed ≤ maxCounter → b.Apart around →
    (∀ x ∈ around, ∀ k, x ≠ foldedName (generatedName k)) →
    Added reserved c pending saves around n b at_
      (b.callback reserved at_ ⟨⟨n⟩, ⟨c, some ⟨false, pending, saves⟩⟩⟩)

/-- A savepoint that is entered under a name not yet taken, and the rest of the callback. -/
theorem added_entered {name : Option String} {c pending : List Path} {saves : List (ℕ × ℕ)}
    {n n' : ℕ} {rawName : String} {around around' : List (List Char)}
    (hname : name.elim nextSavepoint pure (⟨⟨n⟩, ⟨c, some ⟨false, pending, saves⟩⟩⟩ : TxTask Path) =
      (.ok rawName, ⟨⟨n'⟩, ⟨c, some ⟨false, pending, saves⟩⟩⟩))
    (hnn : n ≤ n') (hn' : n' ≤ n + if name.isNone then 1 else 0)
    (hvalid : validName rawName = true) (hres : reserved (foldedName rawName) = false)
    (hentry : TxBody.entry reserved name = .entered)
    (hfree : ¬ Taken around n (foldedName rawName))
    (htaken : Taken around' n' (foldedName rawName)) {inner onOk onErr : TxBody}
    (hi : Adds reserved c inner) (ho : Adds reserved c onOk) (he : Adds reserved c onErr)
    (hn : n + (TxBody.savepoint name inner onOk onErr).unnamed ≤ maxCounter)
    (hapi : inner.Apart around') (hapo : onOk.Apart around) (hape : onErr.Apart around)
    (hgen : ∀ x ∈ around, ∀ k, x ≠ foldedName (generatedName k))
    (hgen' : ∀ x ∈ around', ∀ k, x ≠ foldedName (generatedName k)) (at_ : Path) :
    Added reserved c pending saves around n (.savepoint name inner onOk onErr) at_
      ((TxBody.savepoint name inner onOk onErr).callback reserved at_
        ⟨⟨n⟩, ⟨c, some ⟨false, pending, saves⟩⟩⟩) := by
  simp only [TxBody.unnamed] at hn
  obtain ⟨m, hnm, hm, hcall⟩ := savepoint_added hname hvalid hres rfl htaken
    (hi (false :: at_) n' around' pending _ (by omega) hapi hgen')
  have hkey {x : List Char} (hx : Taken around n x) :
      nameKey (foldedName rawName) ≠ nameKey x :=
    fun h => hfree (nameKey_injective h ▸ hx)
  split_ifs at hcall with hends
  -- the savepoint is released, and the rest of the callback goes on with its effects
  · obtain ⟨m', t, extra, delta, hmm, hm', hr, hsaves, hextra, hpend, habort, hrest⟩ :=
      ho (true :: at_) m around (pending ++ inner.kept reserved (false :: at_)) saves (by omega)
        hapo hgen
    refine ⟨m', t, extra, inner.kept reserved (false :: at_) ++ delta, by omega,
      by simp only [TxBody.unnamed]; omega, ?_, hsaves,
      fun sp hsp x hx => hextra sp hsp x (hx.mono (fun _ h => h) (by omega)), by simp [hpend],
      by simpa [TxBody.aborts, TxBody.ends, hentry, hends] using habort, ?_⟩ <;>
      simp only [TxBody.callback, Promise.andThen_eq, Promise.bind_eq, hcall]
    · rcases hrun : onOk.callback reserved _ _ with ⟨_ | _, p'⟩ <;> rw [hrun] at hr <;>
        simpa using hr
    · simp only [TxBody.resolves, TxBody.ends, TxBody.kept, hentry, hends, ↓reduceIte] at hrest ⊢
      rcases hrun : onOk.callback reserved _ _ with ⟨_ | _, p'⟩ <;> rw [hrun] at hrest <;>
        split_ifs at hrest ⊢ <;> simp_all
  -- it is undone and left behind, and the rest of the callback runs below it
  · obtain ⟨e, hcall⟩ := hcall
    obtain ⟨m', t, extra, delta, hmm, hm', hr, hsaves, hextra, hpend, habort, hrest⟩ :=
      he (true :: at_) m around pending ((nameKey (foldedName rawName), pending.length) :: saves)
        (by omega) hape hgen
    refine ⟨m', t, extra ++ [(nameKey (foldedName rawName), pending.length)], delta, by omega,
      by simp only [TxBody.unnamed]; omega, ?_, by simp [hsaves], ?_, hpend,
      by simpa [TxBody.aborts, TxBody.ends, hentry, hends] using habort, ?_⟩
    · simpa only [TxBody.callback, Promise.andThen_eq, hcall] using hr
    · intro sp hsp x hx
      rcases List.mem_append.1 hsp with h | h
      · exact hextra sp h x (hx.mono (fun _ h => h) (by omega))
      · obtain rfl := List.mem_singleton.1 h
        exact hkey hx
    · simp only [TxBody.callback, Promise.andThen_eq, hcall, TxBody.resolves, TxBody.ends,
        TxBody.kept, hentry, hends, ↓reduceIte]
      exact hrest

/-- **A callback in an open transaction** whose savepoints are told apart by their names. -/
theorem callback_added (hres : ∀ n, reserved (foldedName (generatedName n)) = false)
    {c : List Path} (b : TxBody) : Adds reserved c b := by
  induction b with
  | ret =>
    intro at_ n around pending saves _ _ _
    exact ⟨n, _, [], [], Nat.le_refl n, Nat.le_refl n, rfl, rfl, by simp, by simp, rfl, rfl, rfl⟩
  | throw e =>
    intro at_ n around pending saves _ _ _
    exact ⟨n, _, [], [], Nat.le_refl n, Nat.le_refl n, rfl, rfl, by simp, by simp, rfl, e, rfl⟩
  | query fails onOk onErr iho ihe =>
    intro at_ n around pending saves hn hap hgen
    simp only [TxBody.unnamed] at hn
    cases fails with
    -- the statement aborts the transaction, and the rest of the callback runs in it
    | true =>
      have hreply : Session.reply reserved ⟨c, some ⟨false, pending, saves⟩⟩ (.stmt ⟨at_, true⟩) =
          (.error Session.rejected, ⟨c, some ⟨true, pending, saves⟩⟩) := by
        simp [Session.reply, Session.execTx, Tx.abort]
      obtain ⟨m, hnm, hm, h⟩ := callback_aborted reserved (c := c)
        (t := ⟨true, pending, saves⟩) rfl onErr (true :: at_) n
      refine ⟨m, ⟨true, pending, saves⟩, [], [], hnm, by simp only [TxBody.unnamed]; omega, ?_⟩
      simp only [TxBody.callback, Promise.andThen_eq,
        simpleQuery_error (p := ⟨⟨n⟩, ⟨c, some ⟨false, pending, saves⟩⟩⟩) hreply, TxBody.aborts,
        TxBody.resolves, TxBody.ends, TxBody.kept]
      split_ifs at h ⊢
      · simp [h]
      · obtain ⟨e, h⟩ := h
        simp [h]
    -- the statement comes in front of what the rest adds
    | false =>
      have hreply : Session.reply reserved ⟨c, some ⟨false, pending, saves⟩⟩ (.stmt ⟨at_, false⟩) =
          (.complete "", ⟨c, some ⟨false, pending ++ [at_], saves⟩⟩) := by
        simp [Session.reply, Session.execTx]
      obtain ⟨m, t, extra, delta, hnm, hm, hr, hsaves, hextra, hpend, habort, hends⟩ :=
        iho (true :: at_) n around (pending ++ [at_]) saves (by omega) hap.1 hgen
      refine ⟨m, t, extra, at_ :: delta, hnm, by simp only [TxBody.unnamed]; omega, ?_, hsaves,
        hextra, by simp [hpend], habort, ?_⟩ <;>
        simp only [TxBody.callback, Promise.andThen_eq, Promise.bind_eq,
          simpleQuery_complete (p := ⟨⟨n⟩, ⟨c, some ⟨false, pending, saves⟩⟩⟩) hreply]
      · rcases hres : onOk.callback reserved _ _ with ⟨_ | _, p'⟩ <;> rw [hres] at hr <;>
          simpa using hr
      · simp only [TxBody.resolves, TxBody.ends, TxBody.kept] at hends ⊢
        rcases hres : onOk.callback reserved _ _ with ⟨_ | _, p'⟩ <;> rw [hres] at hends <;>
          split_ifs at hends ⊢ <;> simp_all
  | savepoint name inner onOk onErr ihi iho ihe =>
    intro at_ n around pending saves hn hap hgen
    have hn' := hn
    simp only [TxBody.unnamed] at hn'
    obtain ⟨hown, hapi, hapo, hape⟩ := hap
    rcases name with _ | rawName
    -- the name is fresh from the counter
    · simp only [Option.isNone_none, ↓reduceIte] at hn'
      have hname : none.elim nextSavepoint pure
          (⟨⟨n⟩, ⟨c, some ⟨false, pending, saves⟩⟩⟩ : TxTask Path) =
          (.ok (generatedName (n + 1)), ⟨⟨n + 1⟩, ⟨c, some ⟨false, pending, saves⟩⟩⟩) := rfl
      refine added_entered hname (by omega) le_rfl (validName_generatedName _) (hres _) rfl ?_
        (.inr ⟨n + 1, le_rfl, rfl⟩) ihi iho ihe hn hapi hapo hape hgen hgen at_
      rintro (h | ⟨j, hj, h⟩)
      · exact hgen _ h _ rfl
      · have := foldedName_generatedName_inj (by omega) (by omega) h
        omega
    · obtain ⟨hnot, hnum⟩ := hown rawName rfl
      have hname : (some rawName).elim nextSavepoint pure
          (⟨⟨n⟩, ⟨c, some ⟨false, pending, saves⟩⟩⟩ : TxTask Path) =
          (.ok rawName, ⟨⟨n⟩, ⟨c, some ⟨false, pending, saves⟩⟩⟩) := rfl
      rcases hvalid : validName rawName with _ | _
      -- nothing is sent, and the rest of the callback runs as if the call had not been made
      · have hentry : TxBody.entry reserved (some rawName) = .refused := by
          simp [TxBody.entry, hvalid]
        obtain ⟨m, t, extra, delta, hnm, hm, h⟩ :=
          ihe (true :: at_) n around pending saves (by omega) hape hgen
        refine ⟨m, t, extra, delta, hnm, by simp only [TxBody.unnamed]; omega, ?_⟩
        simp only [TxBody.callback, Promise.andThen_eq, savepoint_refused hvalid, TxBody.aborts,
          TxBody.resolves, TxBody.ends, TxBody.kept, hentry]
        exact h
      · rcases hword : reserved (foldedName rawName) with _ | _
        · refine added_entered hname le_rfl (by omega) hvalid hword
            (by simp [TxBody.entry, hvalid, hword]) ?_ (.inl List.mem_cons_self) ihi iho ihe hn
            hapi hapo hape hgen ?_ at_
          · rintro (h | ⟨j, -, h⟩)
            · exact hnot h
            · exact hnum j h
          · intro x hx
            rcases List.mem_cons.1 hx with rfl | hx
            · exact hnum
            · exact hgen x hx
        -- the syntax error aborts the transaction
        · have hentry : TxBody.entry reserved (some rawName) = .reserved := by
            simp [TxBody.entry, hvalid, hword]
          have hset : Session.reply reserved ⟨c, some ⟨false, pending, saves⟩⟩
              (.savepoint rawName) = (.error "42601", ⟨c, some ⟨true, pending, saves⟩⟩) := by
            simp [Session.reply, Session.named, hword, Tx.abort]
          obtain ⟨m, hnm, hm, h⟩ := callback_aborted reserved (c := c)
            (t := ⟨true, pending, saves⟩) rfl onErr (true :: at_) n
          refine ⟨m, ⟨true, pending, saves⟩, [], [], hnm, by simp only [TxBody.unnamed]; omega, ?_⟩
          simp only [TxBody.callback, Promise.andThen_eq,
            savepoint_unset hname hvalid hset,
            TxBody.aborts, TxBody.resolves, TxBody.ends, TxBody.kept, hentry]
          split_ifs at h ⊢
          · simp [h]
          · obtain ⟨e, h⟩ := h
            simp [h]

/-- **What a transaction commits.**  If its savepoints are told apart by their names, a transaction
that resolves has committed the statements that its callback reports, those all of whose savepoints
resolved, unless the callback has swallowed an error and the server turned `COMMIT` into `ROLLBACK`;
one that rejects has committed nothing.  Either way it is over. -/
theorem transaction_commits {toUpperCase : String → String}
    (hres : ∀ n, reserved (foldedName (generatedName n)) = false) (b : TxBody)
    (hcount : b.unnamed ≤ maxCounter) (hap : b.Apart []) (opts : TxOpts) (c : List Path)
    (st : TxState) :
    let run := transaction reserved toUpperCase (b.callback reserved []) opts ⟨st, ⟨c, none⟩⟩
    (if (beginSql toUpperCase opts).isOk && b.resolves reserved then
        run.1 = .ok (b.kept reserved [])
      else ∃ e, run.1 = .error e) ∧
    run.2.session = ⟨c ++ if (beginSql toUpperCase opts).isOk && b.resolves reserved &&
      !b.aborts reserved then b.kept reserved [] else [], none⟩ := by
  rcases hbegin : beginSql toUpperCase opts with level | sql
  · simp [transaction, hbegin, Except.isOk, Except.toBool]
  obtain ⟨m, t, extra, delta, -, -, hr, -, -, hpend, habort, hends⟩ :=
    callback_added hres (c := c) b [] 0 [] [] [] (by simpa using hcount) hap (by simp)
  have hopen : Session.reply reserved ⟨c, none⟩ (.begin sql) =
      (.complete "BEGIN", ⟨c, some ⟨false, [], []⟩⟩) := by
    simp [Session.reply, Session.execIdle, Tx.fresh]
  have hundo : Session.reply reserved ⟨c, some t⟩ .rollback =
      (.complete "ROLLBACK", ⟨c, none⟩) := by
    simp [Session.reply, Session.execTx]
  have hcommit : Session.reply reserved ⟨c, some t⟩ .commit = if t.aborted then
      (.complete "ROLLBACK", ⟨c, none⟩) else (.complete "COMMIT", ⟨c ++ t.pending, none⟩) := by
    simp [Session.reply, Session.execTx]
  generalize hrun : b.callback reserved [] _ = run at hr hends
  obtain ⟨r, p⟩ := run
  obtain rfl : p = ⟨⟨m⟩, ⟨c, some t⟩⟩ := hr
  simp only [transaction, hbegin, Promise.bind_eq, Promise.attempt_eq, newTxState,
    simpleQuery_complete (p := ⟨st, ⟨c, none⟩⟩) hopen, hrun]
  split_ifs at hends with hok
  · obtain ⟨rfl, rfl⟩ := hends
    rw [habort] at hcommit
    cases hab : b.aborts reserved <;>
      simp only [hab, Bool.false_eq_true, ↓reduceIte] at hcommit <;>
      simp [simpleQuery_complete (p := ⟨⟨m⟩, ⟨c, some t⟩⟩) hcommit, hok, hpend, Except.isOk,
        Except.toBool]
  · obtain ⟨e, rfl⟩ := hends
    simp [simpleQuery_complete (p := ⟨⟨m⟩, ⟨c, some t⟩⟩) hundo, hok]

end Callbacks

/-- A key word of the server's grammar. -/
def isSelect (name : List Char) : Bool := name == "select".toList

theorem isSelect_generatedName (n : ℕ) : isSelect (foldedName (generatedName n)) = false := by
  rw [foldedName, toList_generatedName]
  rfl

/-- A callback that undoes a savepoint inside another one, swallows the error and goes on. -/
def undoesInner : TxBody :=
  .savepoint (some "outer")
    (.query false (.savepoint none (.query false (.throw (.error "no items")) .ret) .ret .ret) .ret)
    (.query false .ret .ret) .ret

theorem transaction_commits_undoesInner :
    let run := transaction isSelect id (undoesInner.callback isSelect [])
      ⟨some "SERIALIZABLE", false, false⟩ ⟨⟨7⟩, ⟨[], none⟩⟩
    (if (beginSql id ⟨some "SERIALIZABLE", false, false⟩).isOk && undoesInner.resolves isSelect then
        run.1 = .ok (undoesInner.kept isSelect [])
      else ∃ e, run.1 = .error e) ∧
    run.2.session = ⟨[] ++ if (beginSql id ⟨some "SERIALIZABLE", false, false⟩).isOk &&
      undoesInner.resolves isSelect && !undoesInner.aborts isSelect then
      undoesInner.kept isSelect [] else [], none⟩ :=
  transaction_commits isSelect_generatedName undoesInner (by decide)
    (by
      refine ⟨fun s hs => ⟨by simp, fun n => ?_⟩, by simp [TxBody.Apart], by simp [TxBody.Apart],
        trivial⟩
      obtain rfl : "outer" = s := by simpa using hs
      rw [foldedName, foldedName, toList_generatedName]
      simp)
    _ _ _

/-- Here `A` is the inner of two savepoints of one name.  It is left behind when it is undone, and
the outer one is then rolled back only to it: a statement of a savepoint that rejected is
committed. -/
example :
    let b : TxBody := .savepoint (some "a")
      (.query false (.savepoint (some "A") (.throw (.error "")) .ret (.throw (.error ""))) .ret)
      .ret .ret
    b.kept isSelect [] = [] ∧ (transaction isSelect id (b.callback isSelect [])
      ⟨none, false, false⟩ ⟨⟨0⟩, ⟨[], none⟩⟩).2.session = ⟨[[false]], none⟩ :=
  ⟨rfl, rfl⟩

end Resolute.Js
