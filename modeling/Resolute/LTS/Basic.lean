import Mathlib.Logic.Relation
import Mathlib.Tactic.Common

/-!
# Labelled transition systems

The tasks of a connection, the socket under them and the calls above them run concurrently, so
their behaviour is given as a *labelled transition system* (`LTS`): a partial function that performs
the action a label names, and the runs it generates.  A state is `Reachable` if some run leads to
it; `LTS.exec` performs a list of actions, to exhibit concrete runs.  Nothing here is specific to
this repository.

Not every run is of interest, and not every property holds in all of them:

* `LTS.Along I s r` says that `I` holds in all states of the run `r` from `s`;
* `LTS.guard G` keeps the runs whose every step satisfies `G` in the state before it;
* `LTS.Quiescent internal s` says that the system has come to rest in `s`: no internal action is
  possible.
-/

namespace Resolute

/-- A labelled transition system: `step s l` is the state after the action `l`, if `l` is
possible in `s`. -/
structure LTS (S : Type*) (L : Type*) where
  /-- The state after an action, `none` when the action is not possible. -/
  step : S → L → Option S

namespace LTS

variable {S L : Type*} (A : LTS S L)

/-- One step, whatever its action. -/
def Step (s s' : S) : Prop := ∃ l, A.step s l = some s'

/-- `s` is reachable from `s₀` in zero or more steps. -/
def Reachable (s₀ s : S) : Prop := Relation.ReflTransGen A.Step s₀ s

/-- No action satisfying `internal` is possible. -/
def Quiescent (internal : L → Prop) (s : S) : Prop := ∀ l, internal l → A.step s l = none

/-- Perform a list of actions, failing if one of them is not possible. -/
def exec : S → List L → Option S
  | s, [] => some s
  | s, l :: ls => (A.step s l).bind fun s' => exec s' ls

/-- Every state that the run passes satisfies `I`. -/
def Along (I : S → Prop) : S → List L → Prop
  | s, [] => I s
  | s, l :: ls => I s ∧ ∀ s', A.step s l = some s' → Along I s' ls

/-- The system restricted to the steps that satisfy `G`. -/
def guard (G : S → L → Prop) [∀ s l, Decidable (G s l)] : LTS S L where
  step s l := if G s l then A.step s l else none

variable {A}

namespace Reachable

@[refl] theorem refl (s : S) : A.Reachable s s := Relation.ReflTransGen.refl

theorem tail {s₀ s s' : S} {l : L} (h : A.Reachable s₀ s) (h' : A.step s l = some s') :
    A.Reachable s₀ s' :=
  Relation.ReflTransGen.tail h ⟨l, h'⟩

theorem trans {s₁ s₂ s₃ : S} (h₁ : A.Reachable s₁ s₂) (h₂ : A.Reachable s₂ s₃) :
    A.Reachable s₁ s₃ :=
  Relation.ReflTransGen.trans h₁ h₂

/-- A predicate that holds initially and is preserved by every step holds in every reachable
state. -/
theorem invariant {I : S → Prop} {s₀ s : S} (h : A.Reachable s₀ s) (h₀ : I s₀)
    (hstep : ∀ s l s', I s → A.step s l = some s' → I s') : I s := by
  induction h with
  | refl => exact h₀
  | tail _ hst ih => obtain ⟨l, hl⟩ := hst; exact hstep _ _ _ ih hl

end Reachable

theorem reachable_of_exec {s s' : S} {ls : List L} (h : A.exec s ls = some s') :
    A.Reachable s s' := by
  induction ls generalizing s with
  | nil => cases h; exact Reachable.refl _
  | cons l ls ih =>
    obtain ⟨t, ht, hrest⟩ := Option.bind_eq_some_iff.1 h
    exact (Reachable.refl s).tail ht |>.trans (ih hrest)

/-- A concrete run leads to a state of which a test succeeds. -/
theorem reachable_of_test {s : S} {r : List L} {p : S → Bool}
    (h : (A.exec s r).any p = true) : ∃ s', A.Reachable s s' ∧ p s' = true := by
  obtain ⟨s', hs', hp⟩ := (Option.any_eq_true _ _).1 h
  exact ⟨s', reachable_of_exec hs', hp⟩

/-- A run of steps that keep `I` and lower the variant `v` is no longer than `v` was. -/
theorem length_le_of_exec {I : S → Prop} {v : S → ℕ}
    (hstep : ∀ s l s', I s → A.step s l = some s' → I s' ∧ v s' < v s) {s s' : S} {ls : List L}
    (hs : I s) (h : A.exec s ls = some s') : ls.length ≤ v s := by
  induction ls generalizing s with
  | nil => exact Nat.zero_le _
  | cons l ls ih =>
    obtain ⟨t, ht, hrest⟩ := Option.bind_eq_some_iff.1 h
    obtain ⟨hI, hlt⟩ := hstep s l t hs ht
    exact Nat.le_trans (Nat.succ_le_succ (ih hI hrest)) hlt

section Guard

variable {G : S → L → Prop} [∀ s l, Decidable (G s l)]

theorem guard_step_iff {s s' : S} {l : L} :
    (A.guard G).step s l = some s' ↔ G s l ∧ A.step s l = some s' := by
  simp only [guard]
  split_ifs with h <;> simp [h]

/-- A guarded run is a run. -/
theorem Reachable.of_guard {s s' : S} (h : (A.guard G).Reachable s s') : A.Reachable s s' :=
  Relation.ReflTransGen.mono (fun _ _ ⟨l, hl⟩ => ⟨l, (guard_step_iff.1 hl).2⟩) _ _ h

/-- Invariants of guarded runs may use the guard of the step at hand. -/
theorem Reachable.guard_invariant {I : S → Prop} {s₀ s : S} (h : (A.guard G).Reachable s₀ s)
    (h₀ : I s₀) (hstep : ∀ s l s', I s → G s l → A.step s l = some s' → I s') : I s :=
  h.invariant h₀ fun s l s' hs hl => hstep s l s' hs (guard_step_iff.1 hl).1 (guard_step_iff.1 hl).2

/-- **An exact guard.**  If the guard says exactly which steps keep `I`, as long as the invariant
`R` holds, then the guarded runs are the runs along which `I` holds. -/
theorem along_iff_exec_guard {R I : S → Prop}
    (hR : ∀ s l s', R s → A.step s l = some s' → R s')
    (hI : ∀ s l s', R s → I s → A.step s l = some s' → (I s' ↔ G s l))
    {s s' : S} {ls : List L} (hs : R s) (h₀ : I s) (h : A.exec s ls = some s') :
    A.Along I s ls ↔ (A.guard G).exec s ls = some s' := by
  induction ls generalizing s with
  | nil => exact iff_of_true h₀ h
  | cons l ls ih =>
    obtain ⟨t, ht, hrest⟩ := Option.bind_eq_some_iff.1 h
    have hex : (A.guard G).exec s (l :: ls) = some s' ↔
        G s l ∧ (A.guard G).exec t ls = some s' := by
      simp only [exec, guard]
      split_ifs with hg <;> simp [hg, ht]
    rw [hex]
    constructor
    · rintro ⟨-, hal⟩
      have hal' := hal t ht
      have ht' : I t := by
        cases ls with
        | nil => exact hal'
        | cons _ _ => exact hal'.1
      exact ⟨(hI s l t hs h₀ ht).1 ht', (ih (hR s l t hs ht) ht' hrest).1 hal'⟩
    · rintro ⟨hg, hexec⟩
      have ht' := (hI s l t hs h₀ ht).2 hg
      refine ⟨h₀, fun u hu => ?_⟩
      rw [ht, Option.some_inj] at hu
      subst hu
      exact (ih (hR s l t hs ht) ht' hrest).2 hexec

end Guard

end LTS

end Resolute
