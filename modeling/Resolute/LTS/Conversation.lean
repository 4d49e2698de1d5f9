import Mathlib.Tactic.Common

/-!
# Programs that talk to a server

A client that waits for the answer to each of its queries before it goes on is a *conversation*: a
tree of queries, with one branch for each answer.  The server answers as a relation on its states
says, and may be cut off after any answer, so what a conversation guarantees is said of all its
states and not only of the last one.  Nothing here is specific to this repository.

A conversation may fail.  `bind` goes on with its value, `attempt` with its value or its error, and
`ensuring` asks something more at its end, whatever that was.  Two properties go through them by
rules of the same names: `Safe`, that every query is permitted where it is asked and an invariant
holds throughout, and `Asks`, that every query is of a kind, whatever the answers are.
-/

namespace Resolute

/-- A client that asks queries in `Q`, waits for each answer, and ends with an `α` or an error. -/
inductive Conversation (Q R ε α : Type) where
  | done (r : Except ε α)
  | ask (q : Q) (k : R → Conversation Q R ε α)

namespace Conversation

variable {Q R ε α β V : Type}

/-- `match d.await { Ok(a) => f(a), Err(e) => g(e) }`. -/
def attempt (d : Conversation Q R ε α) (f : α → Conversation Q R ε β)
    (g : ε → Conversation Q R ε β) : Conversation Q R ε β :=
  match d with
  | done (.ok a) => f a
  | done (.error e) => g e
  | ask q k => ask q fun r => (k r).attempt f g

/-- `Err(e)`. -/
def fail (e : ε) : Conversation Q R ε α := done (.error e)

/-- `let a = d.await?; f(a)`. -/
def bind (d : Conversation Q R ε α) (f : α → Conversation Q R ε β) : Conversation Q R ε β :=
  d.attempt f fail

instance : Monad (Conversation Q R ε) where
  pure a := done (.ok a)
  bind := bind

/-- A computation that asks nothing. -/
def lift (r : Except ε α) : Conversation Q R ε α := done r

/-- `let a = d.await; e.await; a`: the result of `e` is ignored. -/
def ensuring (d : Conversation Q R ε α) (e : Conversation Q R ε Unit) : Conversation Q R ε α :=
  d.attempt (fun a => e.attempt (fun _ => pure a) fun _ => pure a)
    (fun err => e.attempt (fun _ => fail err) fun _ => fail err)

/-- The client has ended. -/
def isDone : Conversation Q R ε α → Bool
  | done _ => true
  | ask _ _ => false

/-- Every query is asked where it is permitted; the invariant holds in all states on the way, and
the postcondition at the end. -/
def Safe (I may : V → Prop) (answers : V → Q → R → V → Prop) (post : Except ε α → V → Prop) :
    Conversation Q R ε α → V → Prop
  | done r, v => I v ∧ post r v
  | ask q k, v => I v ∧ may v ∧ ∀ r v', answers v q r v' → Safe I may answers post (k r) v'

section Safe

variable {I may : V → Prop} {answers : V → Q → R → V → Prop}

theorem Safe.invariant {post : Except ε α → V → Prop} {d : Conversation Q R ε α} {v : V}
    (h : d.Safe I may answers post v) : I v := by
  cases d with
  | done r => exact h.1
  | ask q k => exact h.1

theorem Safe.mono {post post' : Except ε α → V → Prop} {d : Conversation Q R ε α} {v : V}
    (h : d.Safe I may answers post v) (hpost : ∀ r v, I v → post r v → post' r v) :
    d.Safe I may answers post' v := by
  induction d generalizing v with
  | done r => exact ⟨h.1, hpost r v h.1 h.2⟩
  | ask q k ih => exact ⟨h.1, h.2.1, fun r v' hr => ih r (h.2.2 r v' hr)⟩

/-- Both branches are safe after each result. -/
theorem Safe.attempt {post : Except ε β → V → Prop} {d : Conversation Q R ε α}
    {f : α → Conversation Q R ε β} {g : ε → Conversation Q R ε β} {v : V}
    (h : d.Safe I may answers (fun r v => match r with
      | .ok a => (f a).Safe I may answers post v
      | .error e => (g e).Safe I may answers post v) v) :
    (d.attempt f g).Safe I may answers post v := by
  induction d generalizing v with
  | done r =>
    cases r with
    | ok a => exact h.2
    | error e => exact h.2
  | ask q k ih => exact ⟨h.1, h.2.1, fun r v' hr => ih r (h.2.2 r v' hr)⟩

/-- The rest is safe after each value; an error ends the client. -/
theorem Safe.bind {post : Except ε β → V → Prop} {d : Conversation Q R ε α}
    {f : α → Conversation Q R ε β} {v : V}
    (h : d.Safe I may answers (fun r v => match r with
      | .ok a => (f a).Safe I may answers post v
      | .error e => post (.error e) v) v) :
    (d >>= f).Safe I may answers post v := by
  change (d.attempt f fail).Safe I may answers post v
  induction d generalizing v with
  | done r =>
    cases r with
    | ok a => exact h.2
    | error e => exact h
  | ask q k ih => exact ⟨h.1, h.2.1, fun r v' hr => ih r (h.2.2 r v' hr)⟩

/-- Whatever the result is, the cleanup is safe after it. -/
theorem Safe.ensuring {post : Except ε α → V → Prop} {d : Conversation Q R ε α}
    {e : Conversation Q R ε Unit} {v : V}
    (h : d.Safe I may answers (fun r v => e.Safe I may answers (fun _ => post r) v) v) :
    (d.ensuring e).Safe I may answers post v := by
  refine Safe.attempt (h.mono fun r v _ hr => ?_)
  cases r with
  | ok a =>
    refine Safe.attempt (hr.mono fun r v hI hp => ?_)
    cases r <;> exact ⟨hI, hp⟩
  | error err =>
    refine Safe.attempt (hr.mono fun r v hI hp => ?_)
    cases r <;> exact ⟨hI, hp⟩

end Safe

/-- Every query that may be asked satisfies `P`. -/
def Asks (P : Q → Prop) : Conversation Q R ε α → Prop
  | done _ => True
  | ask q k => P q ∧ ∀ r, Asks P (k r)

section Asks

variable {P : Q → Prop}

theorem Asks.attempt {d : Conversation Q R ε α} {f : α → Conversation Q R ε β}
    {g : ε → Conversation Q R ε β} (h : d.Asks P) (hf : ∀ a, (f a).Asks P)
    (hg : ∀ e, (g e).Asks P) : (d.attempt f g).Asks P := by
  induction d with
  | done r =>
    cases r with
    | ok a => exact hf a
    | error e => exact hg e
  | ask q k ih => exact ⟨h.1, fun r => ih r (h.2 r)⟩

theorem Asks.bind {d : Conversation Q R ε α} {f : α → Conversation Q R ε β} (h : d.Asks P)
    (hf : ∀ a, (f a).Asks P) : (d >>= f).Asks P :=
  h.attempt hf fun _ => trivial

theorem Asks.ensuring {d : Conversation Q R ε α} {e : Conversation Q R ε Unit} (h : d.Asks P)
    (he : e.Asks P) : (d.ensuring e).Asks P :=
  h.attempt (fun _ => he.attempt (fun _ => trivial) fun _ => trivial)
    fun _ => he.attempt (fun _ => trivial) fun _ => trivial

end Asks

end Conversation

end Resolute
