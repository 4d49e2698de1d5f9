import Mathlib.Data.Nat.Notation
import Mathlib.Tactic.Common

/-!
# PostgreSQL's transaction rules

What the server makes of `BEGIN`, `COMMIT`, `ROLLBACK`, the savepoint commands and ordinary
statements of one session.  The rules are those of PostgreSQL: `BEGIN` inside an open transaction
is only a warning, `COMMIT` and `ROLLBACK` end the whole transaction, savepoints nest, and after an
error the transaction is aborted until it is ended or rolled back to a savepoint.

The effect of a statement is an element of an arbitrary type `α`; a `Session` remembers the effects
that are committed and those that are pending in the open transaction, oldest first.
`Session.exec` gives the reply to a `Command` and the session after it.
-/

namespace Resolute

variable {α : Type}

/-- An open transaction. -/
structure Tx (α : Type) where
  /-- A statement has failed and the transaction is not yet ended or rolled back. -/
  aborted : Bool
  /-- The effects since `BEGIN`, oldest first. -/
  pending : List α
  /-- The savepoints, innermost first: their names, and how many effects were pending when each
  was set. -/
  saves : List (ℕ × ℕ)
  deriving DecidableEq, Repr

/-- A session of the server. -/
structure Session (α : Type) where
  committed : List α
  tx : Option (Tx α)
  deriving DecidableEq, Repr

/-- A command as far as the transaction rules see it. -/
inductive Command (α : Type) where
  | begin
  | commit
  | rollback
  | savepoint (name : ℕ)
  | release (name : ℕ)
  | rollbackTo (name : ℕ)
  /-- An ordinary statement with effect `a`; `fails` if the server rejects it on its own account. -/
  | statement (a : α) (fails : Bool)
  deriving DecidableEq, Repr

/-- The verdict on a command: the tag of its `CommandComplete`, or an SQLSTATE. -/
inductive Reply where
  | complete (tag : String)
  | error (code : String)
  deriving DecidableEq, Repr

namespace Tx

/-- `BEGIN` outside a transaction. -/
def fresh : Tx α := ⟨false, [], []⟩

/-- Find a savepoint: how many effects it keeps, and the savepoints below it. -/
def find (name : ℕ) : List (ℕ × ℕ) → Option (ℕ × List (ℕ × ℕ))
  | [] => none
  | (n, k) :: rest => if n = name then some (k, rest) else find name rest

/-- A command that failed aborts the transaction. -/
def abort (t : Tx α) : Tx α := { t with aborted := true }

end Tx

namespace Session

/-- The current transaction is aborted, commands are ignored until its end. -/
def inFailedTransaction : String := "25P02"

/-- A command that needs an open transaction finds none. -/
def noActiveTransaction : String := "25P01"

/-- There is no savepoint of that name. -/
def noSuchSavepoint : String := "3B001"

/-- A statement that the server rejects on its own account. -/
def rejected : String := "22000"

/-- A command inside the transaction `t`. -/
def execTx (s : Session α) (t : Tx α) : Command α → Reply × Session α
  | .begin =>
    -- only a warning, unless the transaction is aborted
    (if t.aborted then .error inFailedTransaction else .complete "BEGIN", s)
  | .commit =>
    if t.aborted then (.complete "ROLLBACK", { s with tx := none })
    else (.complete "COMMIT", ⟨s.committed ++ t.pending, none⟩)
  | .rollback => (.complete "ROLLBACK", { s with tx := none })
  | .savepoint name =>
    if t.aborted then (.error inFailedTransaction, s)
    else (.complete "SAVEPOINT",
      { s with tx := some { t with saves := (name, t.pending.length) :: t.saves } })
  | .release name =>
    if t.aborted then (.error inFailedTransaction, s)
    else match Tx.find name t.saves with
      | some (_, rest) => (.complete "RELEASE", { s with tx := some { t with saves := rest } })
      | none => (.error noSuchSavepoint, { s with tx := some t.abort })
  | .rollbackTo name =>
    match Tx.find name t.saves with
    | some (k, rest) =>
      (.complete "ROLLBACK", { s with tx := some ⟨false, t.pending.take k, (name, k) :: rest⟩ })
    | none => (.error noSuchSavepoint, { s with tx := some t.abort })
  | .statement a fails =>
    if t.aborted then (.error inFailedTransaction, s)
    else if fails then (.error rejected, { s with tx := some t.abort })
    else (.complete "", { s with tx := some { t with pending := t.pending ++ [a] } })

/-- A command outside a transaction; a statement commits by itself. -/
def execIdle (s : Session α) : Command α → Reply × Session α
  | .begin => (.complete "BEGIN", { s with tx := some Tx.fresh })
  | .commit => (.complete "COMMIT", s)
  | .rollback => (.complete "ROLLBACK", s)
  | .savepoint _ | .release _ | .rollbackTo _ => (.error noActiveTransaction, s)
  | .statement a fails =>
    if fails then (.error rejected, s)
    else (.complete "", { s with committed := s.committed ++ [a] })

/-- The reply to a command, and the session after it. -/
def exec (s : Session α) (c : Command α) : Reply × Session α :=
  match s.tx with
  | some t => s.execTx t c
  | none => s.execIdle c

@[simp] theorem exec_open (c : List α) (t : Tx α) (cmd : Command α) :
    exec ⟨c, some t⟩ cmd = execTx ⟨c, some t⟩ t cmd := rfl

@[simp] theorem exec_idle (c : List α) (cmd : Command α) :
    exec ⟨c, none⟩ cmd = execIdle ⟨c, none⟩ cmd := rfl

end Session

end Resolute
