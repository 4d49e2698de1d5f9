import Resolute.Pool.Moves

/-!
# Which connections are handed out

Between the drop of its guard and the next `get` that hands it out, a connection is changed by its
`reset` and by what happens to it by itself.  So a property of the connections that are handed out
follows from what `reset` achieves, for the connections on which guards are dropped.

`Hygiene P` says what is known about a connection at each stage of its return.  If guards are
dropped only on connections that `reset` can clean (`returnsClean`), all connections of the pool are
as the hygiene says (`hygienic`), and those that are handed out are clean (`clean_of_held`).
-/

namespace Resolute.Pool

variable {C A : Type}

/-- What is known about a connection at each stage of its return. -/
structure Hygiene (P : Poolable C A) where
  /-- The connection may be handed out. -/
  clean : C → Prop
  /-- A guard may be dropped on the connection. -/
  returnable : C → Bool
  /-- The connection had no pending data when it was returned. -/
  checked : C → Prop
  /-- The connection waits for its `reset`. -/
  resetting : C → Prop
  clean_connects : ∀ {c}, P.connects c = true → clean c
  clean_drift : ∀ {c a c'}, P.drift c a = some c' → clean c → clean c'
  returnable_drift : ∀ {c a c'}, P.drift c a = some c' → returnable c = true →
    returnable c' = true
  checked_drift : ∀ {c a c'}, P.drift c a = some c' → checked c → checked c'
  resetting_drift : ∀ {c a c'}, P.drift c a = some c' → resetting c → resetting c'
  checked_of_returnable : ∀ {c}, returnable c = true → P.hasPendingData c = false → checked c
  clean_of_start : ∀ {c c'}, P.startReset c = .done true c' → checked c → clean c'
  resetting_of_start : ∀ {c c'}, P.startReset c = .waiting c' → checked c → resetting c'
  clean_of_poll : ∀ {c c'}, P.pollReset c = some (true, c') → resetting c → clean c'

/-- The connection that `get` is about to return. -/
def Task.handsOut : Task C → Option C
  | checkout c | counted c => some c
  | _ => none

variable {cfg : Config} {P : Poolable C A} (H : Hygiene P)

/-- What is known about the connection that the task has. -/
def Task.Hygienic : Task C → Prop
  | checkout c | parked (some c) _ | served c | counted c | resetDone c | handing _ c | parking _ c
  | warmPush _ c => H.clean c
  | returning c | checking c => H.returnable c = true
  | resetting false c => H.checked c
  | resetting true c => H.resetting c
  | _ => True

/-- What is known about the connections of the pool. -/
structure State.Hygienic (s : State C) : Prop where
  idle : ∀ e ∈ s.shared.idle, H.clean e.conn
  tasks : ∀ t ∈ s.tasks, t.Hygienic H

/-- The step drops a guard only on a connection that `reset` can clean. -/
def returnsClean (s : State C) : Label C A → Bool
  | .task i e => match s.tasks[i]?, e with
    | some (.held c), .drop => H.returnable c
    | _, _ => true
  | _ => true

variable {H}

/-! ### Moves -/

section

variable {live : ℕ → Bool} {i : ℕ} {s shared : Shared C} {e : Event C A} {t t' : Task C}
  {signal : Signal C}

theorem hygienic_plain (h : t.Plain) : t.Hygienic H := by cases h <;> trivial

theorem hygienic_setConn {c c' : C} {a : A} (ht : t.conn = some c) (hd : P.drift c a = some c')
    (h : t.Hygienic H) : (t.setConn c').Hygienic H := by
  cases t with
  | parked slot _ =>
    cases slot with
    | none => cases ht
    | some _ => cases ht; exact H.clean_drift hd h
  | resetting started _ =>
    cases started with
    | false => cases ht; exact H.checked_drift hd h
    | true => cases ht; exact H.resetting_drift hd h
  | returning | checking => cases ht; exact H.returnable_drift hd h
  | held => trivial
  | checkout | served | counted | resetDone | handing | parking | warmPush =>
    cases ht
    exact H.clean_drift hd h
  | _ => cases ht

/-- A task whose connection is as it should be leaves it so. -/
theorem Move.hygienic (hm : Move cfg P live i s t e shared t' signal) (ht : t.Hygienic H)
    (hidle : ∀ x ∈ s.idle, H.clean x.conn)
    (hdrop : ∀ c, t = .held c → e = .drop → H.returnable c = true) : t'.Hygienic H := by
  cases hm with
  | scanUsable h => exact hidle _ (by simp [h])
  | receive | served | handNone | returnClean => exact ht
  | undo => exact hygienic_plain (refused_plain _)
  | destroy => exact hygienic_plain (destroyed_plain _ _)
  | hand | park => exact hygienic_plain (over_plain _)
  | warmStart | warmCount => exact hygienic_plain (warmLoop_plain _)
  | refillStart => exact hygienic_plain (refillLoop_plain _)
  | @created who _ h => cases who <;> exact H.clean_connects h
  | warmConnected h => exact H.clean_connects h
  | drop => exact hdrop _ rfl rfl
  | returning => exact ht
  | checkGood h => exact H.checked_of_returnable ht h
  | resetOk h =>
    rcases h with ⟨rfl, h⟩ | ⟨rfl, h⟩
    · exact H.clean_of_start h ht
    · exact H.clean_of_poll h ht
  | resetWaits h => exact H.resetting_of_start h ht
  | drift hc h => exact hygienic_setConn hc h ht
  | _ => trivial

/-- What a task pushes onto the idle list is clean. -/
theorem Move.clean_idle (hm : Move cfg P live i s t e shared t' signal) (ht : t.Hygienic H)
    (hidle : ∀ x ∈ s.idle, H.clean x.conn) : ∀ x ∈ shared.idle, H.clean x.conn := by
  have push {c : C} (hc : H.clean c) : ∀ x ∈ s.idle ++ [⟨c, false⟩], H.clean x.conn := by
    intro x hx
    rcases List.mem_append.1 hx with hx | hx
    · exact hidle x hx
    · rw [List.mem_singleton.1 hx]
      exact hc
  cases hm with
  | scanUsable h | scanDiscard h => exact fun x hx => hidle x (by simp [h, hx])
  | park | warmPush => exact push ht
  | evict => exact fun x hx => hidle x (List.mem_filter.1 hx).1
  | drainIdle => exact fun x hx => absurd hx List.not_mem_nil
  | _ => exact hidle

/-- What a task sends to a waiter is clean. -/
theorem Move.clean_send (hm : Move cfg P live i s t e shared t' signal) (ht : t.Hygienic H)
    {j : ℕ} {c : C} (hs : signal = .send j c) : H.clean c := by
  cases hm <;> cases hs
  exact ht

/-- A guard has the connection that `get` was about to return. -/
theorem Move.handsOut_of_held (hm : Move cfg P live i s t e shared t' signal) {c : C}
    (h : t' = .held c) : t.handsOut = some c ∨ ∃ c', t = .held c' := by
  have plain (hp : t'.Plain) : t.handsOut = some c ∨ ∃ c', t = .held c' := by
    rw [h] at hp
    cases hp
  cases hm with
  | checkout | counted => cases h; exact .inl rfl
  | use => exact .inr ⟨_, rfl⟩
  | undo => exact plain (refused_plain _)
  | destroy => exact plain (destroyed_plain _ _)
  | hand | park => exact plain (over_plain _)
  | warmStart | warmCount => exact plain (warmLoop_plain _)
  | refillStart => exact plain (refillLoop_plain _)
  | @created who => cases who <;> cases h
  | drift =>
    cases t with
    | held c' => exact .inr ⟨c', rfl⟩
    | parked slot _ => cases slot <;> cases h
    | _ => cases h
  | _ => cases h

end

/-! ### Runs -/

section

variable {s s₀ s' : State C} {l : Label C A} {i : ℕ} {c : C}

theorem State.Hygienic.spawn (h : s.Hygienic H) {t : Task C} (ht : t.Hygienic H) :
    (s.spawn t).Hygienic H where
  idle := h.idle
  tasks u hu := by
    rcases List.mem_append.1 hu with hu | hu
    · exact h.tasks u hu
    · rw [List.mem_singleton.1 hu]
      exact ht

theorem State.Hygienic.setIdle (h : s.Hygienic H) {k : ℕ} {x : IdleConn C} (hx : H.clean x.conn) :
    (s.setIdle (s.shared.idle.set k x)).Hygienic H where
  idle y hy := by
    rcases List.mem_or_eq_of_mem_set hy with hy | rfl
    · exact h.idle y hy
    · exact hx
  tasks := h.tasks

theorem State.Hygienic.step (h : s.Hygienic H) (hg : returnsClean H s l = true)
    (hst : (system cfg P).step s l = some s') : s'.Hygienic H := by
  cases step_cases hst with
  | get | warmUp | drain => exact h.spawn trivial
  | @expire k x he => exact h.setIdle (show H.clean x.conn from h.idle x (List.mem_of_getElem? he))
  | drift he hc => exact h.setIdle (H.clean_drift hc (h.idle _ (List.mem_of_getElem? he)))
  | @move i e t t' shared signal ht hm =>
    have htask := h.tasks t (List.mem_of_getElem? ht)
    refine ⟨hm.clean_idle htask h.idle, fun u hu => ?_⟩
    obtain ⟨k, hk⟩ := List.mem_iff_getElem?.1 hu
    rcases task_after ht hm hk with
      ⟨-, rfl⟩ | ⟨-, v, hv, rfl | ⟨c, _, hs, -, rfl⟩ | ⟨-, -, rfl⟩⟩
    · refine hm.hygienic htask h.idle fun c htc he => ?_
      subst htc he
      simpa [returnsClean, ht] using hg
    · exact h.tasks u (List.mem_of_getElem? hv)
    · exact hm.clean_send htask hs
    · trivial

/-- **The connections of the pool are as the hygiene says**, in a run whose steps all return
clean. -/
theorem hygienic (h₀ : s₀.Fresh cfg P)
    (h : ((system cfg P).guard fun s l => returnsClean H s l = true).Reachable s₀ s) :
    s.Hygienic H := by
  refine h.guard_invariant (I := State.Hygienic H) ?_ fun s l s' hs hg hst => hs.step hg hst
  obtain ⟨conns, rfl, -, hconns⟩ := h₀
  constructor
  · intro e he
    obtain ⟨c, hc, rfl⟩ := List.mem_map.1 he
    exact H.clean_connects (hconns c hc)
  · intro t ht
    rw [List.mem_singleton.1 ht]
    trivial

theorem handsOut_of_held (hst : (system cfg P).step s l = some s')
    (hnew : s'.tasks[i]? = some (.held c)) (hold : ∀ c', s.tasks[i]? ≠ some (.held c')) :
    ∃ t, s.tasks[i]? = some t ∧ t.handsOut = some c := by
  cases step_cases hst with
  | get | warmUp | drain =>
    rcases spawn_cases hnew with h | ⟨-, h⟩
    · exact absurd h (hold c)
    · cases h
  | expire | drift => exact absurd hnew (hold c)
  | move ht hm =>
    rcases task_after ht hm hnew with
      ⟨rfl, rfl⟩ | ⟨-, v, hv, rfl | ⟨_, _, -, -, h⟩ | ⟨-, -, h⟩⟩
    · rcases hm.handsOut_of_held rfl with h | ⟨c', rfl⟩
      · exact ⟨_, ht, h⟩
      · exact absurd ht (hold c')
    · exact absurd hv (hold c)
    · cases h
    · cases h

/-- The connections that such a run hands out are clean. -/
theorem clean_of_held (h₀ : s₀.Fresh cfg P)
    (h : ((system cfg P).guard fun s l => returnsClean H s l = true).Reachable s₀ s)
    (hst : (system cfg P).step s l = some s') (hnew : s'.tasks[i]? = some (.held c))
    (hold : ∀ c', s.tasks[i]? ≠ some (.held c')) : H.clean c := by
  obtain ⟨t, ht, hout⟩ := handsOut_of_held hst hnew hold
  have hclean := (hygienic h₀ h).tasks t (List.mem_of_getElem? ht)
  cases t <;> cases hout <;> exact hclean

/-- A task that is about to return a connection makes a guard of it. -/
theorem held_of_handsOut {t : Task C} (ht : s.tasks[i]? = some t) (h : t.handsOut = some c) :
    ∃ s', (system cfg P).step s (.task i .run) = some s' ∧ s'.tasks[i]? = some (.held c) := by
  have hlt := (List.getElem?_eq_some_iff.1 ht).1
  cases t <;> cases h <;> refine ⟨_, by simp only [system, step, ht]; rfl, ?_⟩ <;>
    simp [Signal.deliver, hlt]

/-- The hand-out of a connection for which a test succeeds. -/
theorem held_of_test {p : C → Bool} (h : s.tasks[i]?.any (fun t => t.handsOut.any p) = true) :
    ∃ s' c, (system cfg P).step s (.task i .run) = some s' ∧ s'.tasks[i]? = some (.held c) ∧
      (∀ c', s.tasks[i]? ≠ some (.held c')) ∧ p c = true := by
  obtain ⟨t, ht, h⟩ := (Option.any_eq_true _ _).1 h
  obtain ⟨c, hc, hp⟩ := (Option.any_eq_true _ _).1 h
  obtain ⟨s', hst, hnew⟩ : ∃ s', (system cfg P).step s (.task i .run) = some s' ∧
      s'.tasks[i]? = some (.held c) := held_of_handsOut ht hc
  refine ⟨s', c, hst, hnew, fun c' hheld => ?_, hp⟩
  rw [ht, Option.some_inj] at hheld
  subst hheld
  cases hc

end

end Resolute.Pool
