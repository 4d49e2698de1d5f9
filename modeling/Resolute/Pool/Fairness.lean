import Resolute.Pool.Waiters

/-!
# The order of the waiters

A `get` that finds neither an idle connection nor a free slot queues its sender.  Every way a
connection reaches a waiter takes the oldest sender whose receiver is still there; the clean-up
after a timeout and `drain` take senders out, and nothing is ever put in front.  So a waiter is
passed over only when it has given up, and the waiters are served in the order in which they have
come (`served_in_order`).

What a step preserves is those `ahead` of a waiter: nobody gets in front of it, and nobody who waits
there leaves (`ahead_move`).  This needs that every sender in the queue belongs to a task that has
queued it, and only once (`QueuedOnce`).  A `get` that has not queued its sender may still take a
connection from the idle list before those that have.
-/

namespace Resolute.Pool

/-! ### Queues -/

/-- Those in front of `k`. -/
def ahead (q : List ℕ) (k : ℕ) : List ℕ := q.takeWhile (· ≠ k)

section

variable {q : List ℕ} {k : ℕ}

theorem ahead_append (hk : k ∈ q) (l : List ℕ) : ahead (q ++ l) k = ahead q k := by
  induction q with
  | nil => cases hk
  | cons m q ih =>
    by_cases hm : m = k
    · simp [ahead, hm]
    · have hq : k ∈ q := (List.mem_cons.1 hk).resolve_left (Ne.symm hm)
      simpa [ahead, hm] using ih hq

theorem ahead_filter {p : ℕ → Bool} (hk : p k = true) :
    ahead (q.filter p) k = (ahead q k).filter p := by
  induction q with
  | nil => rfl
  | cons m q ih =>
    by_cases hm : m = k
    · simp [ahead, hm, hk]
    · by_cases hp : p m = true
      · simpa [ahead, hm, hp] using ih
      · simpa [ahead, hm, hp] using ih

theorem ahead_dead {dead rest : List ℕ} {j : ℕ} (hk : k ∉ dead) (hkj : k ≠ j) :
    ahead (dead ++ j :: rest) k = dead ++ j :: ahead rest k := by
  induction dead with
  | nil => simp [ahead, Ne.symm hkj]
  | cons d dead ih =>
    have hd : d ≠ k := fun h => hk (h ▸ List.mem_cons_self)
    simpa [ahead, hd] using ih fun h => hk (List.mem_cons_of_mem d h)

theorem mem_of_mem_ahead {m : ℕ} (h : m ∈ ahead q k) : m ∈ q :=
  (List.takeWhile_sublist _).subset h

end

variable {C A : Type}

/-- A `get` that may still queue its sender. -/
def Task.early : Task C → Bool
  | getStart | getLock | getScan | getDiscard _ | getLoad | creating .get _ | getEnqueue => true
  | _ => false

section

variable {cfg : Config} {P : Poolable C A} {s s₀ s' s'' : State C} {i k : ℕ} {e : Event C A}
  {t t' : Task C} {shared : Shared C} {signal : Signal C}

theorem early_setConn (t : Task C) (c : C) : (t.setConn c).early = t.early := by
  cases t with
  | parked slot _ => cases slot <;> rfl
  | _ => rfl

/-- Nothing becomes a `get` that may still queue its sender. -/
theorem early_move {live : ℕ → Bool} {s : Shared C}
    (hm : Move cfg P live i s t e shared t' signal) (h : t.early = false) : t'.early = false := by
  have hloop : ∀ left, (refillLoop left : Task C).early = false := by
    intro left
    cases left <;> rfl
  have hwarm : ∀ left, (warmLoop left : Task C).early = false := by
    intro left
    cases left <;> rfl
  cases hm with
  | @undo who => cases who <;> first | rfl | exact h
  | @created who => cases who <;> rfl
  | @reserve who | @overshoot who | @createFailed who => cases who <;> first | rfl | cases h
  | @destroy provision => cases provision <;> rfl
  | @hand who | @park who => cases who <;> first | rfl | exact hloop _
  | warmStart | warmCount => exact hwarm _
  | refillStart => exact hloop _
  | drift => rwa [early_setConn]
  | _ => first | rfl | cases h

/-! ### One move -/

/-- A move puts nobody in front of a waiter; and those in front of it that wait stay there, unless
they are served. -/
theorem ahead_move (hm : Move cfg P s.live i s.shared t e shared t' signal)
    (hnodup : s.shared.waiters.Nodup) (hk : k ∈ shared.waiters)
    (hlate : ¬(k = i ∧ t = .getEnqueue)) :
    k ∈ s.shared.waiters ∧ (ahead shared.waiters k).Sublist (ahead s.shared.waiters k) ∧
      ∀ m ∈ ahead s.shared.waiters k, s.live m = true → (∀ c, signal ≠ .send m c) →
        m ∈ ahead shared.waiters k := by
  cases hm with
  | enqueue =>
    have hmem : k ∈ s.shared.waiters := by
      rcases List.mem_append.1 hk with hk | hk
      · exact hk
      · exact absurd ⟨List.mem_singleton.1 hk, rfl⟩ hlate
    refine ⟨hmem, ?_, ?_⟩
    · simp only [ahead_append hmem]
      exact List.Sublist.refl _
    · intro m hm _ _
      simpa only [ahead_append hmem] using hm
  | retain =>
    obtain ⟨hmem, hlive⟩ := List.mem_filter.1 hk
    refine ⟨hmem, ?_, ?_⟩
    · simp only [ahead_filter hlive]
      exact List.filter_sublist
    · intro m hm hml _
      simp only [ahead_filter hlive]
      exact List.mem_filter.2 ⟨hm, hml⟩
  | @hand who c j rest h =>
    obtain ⟨-, dead, hsplit, hdead⟩ := popLive_some h
    rw [hsplit] at hnodup ⊢
    obtain ⟨-, hrest, hdisjoint⟩ := List.nodup_append.1 hnodup
    have hkdead : k ∉ dead := fun hd => hdisjoint k hd k (List.mem_cons_of_mem j hk) rfl
    have hkj : k ≠ j := fun hkj => (List.nodup_cons.1 hrest).1 (hkj ▸ hk)
    rw [ahead_dead hkdead hkj]
    refine ⟨List.mem_append_right _ (List.mem_cons_of_mem j hk), ?_, ?_⟩
    · exact ((List.sublist_cons_self j _).trans (List.sublist_append_right _ _))
    · intro m hm hml hns
      rcases List.mem_append.1 hm with hm | hm
      · rw [hdead m hm] at hml
        cases hml
      · rcases List.mem_cons.1 hm with rfl | hm
        · exact absurd rfl (hns c)
        · exact hm
  | handNone h => cases hk
  | drainWaiters => cases hk
  | _ => exact ⟨hk, List.Sublist.refl _, fun m hm _ _ => hm⟩

/-- Every sender in the queue belongs to a task that has queued it, and it is there once. -/
structure QueuedOnce (s : State C) : Prop where
  nodup : s.shared.waiters.Nodup
  late : ∀ k ∈ s.shared.waiters, ∃ t, s.tasks[k]? = some t ∧ t.early = false

/-- A task that can no longer queue a sender stays so. -/
theorem late_move (ht : s.tasks[i]? = some t)
    (hm : Move cfg P s.live i s.shared t e shared t' signal)
    (h : ∃ u, s.tasks[k]? = some u ∧ u.early = false) :
    ∃ u, (signal.deliver (s.tasks.set i t'))[k]? = some u ∧ u.early = false := by
  obtain ⟨u, hu, hearly⟩ := h
  have hlen : (signal.deliver (s.tasks.set i t')).length = s.tasks.length := by
    cases signal <;> simp [Signal.deliver]
  have hlt : k < (signal.deliver (s.tasks.set i t')).length :=
    hlen ▸ (List.getElem?_eq_some_iff.1 hu).1
  refine ⟨_, List.getElem?_eq_getElem hlt, ?_⟩
  rcases task_after ht hm (List.getElem?_eq_getElem hlt) with ⟨hki, heq⟩ |
    ⟨-, v, hv, heq | ⟨c, elapsed, -, -, heq⟩ | ⟨-, -, heq⟩⟩
  · rw [heq]
    subst hki
    rw [ht] at hu
    cases hu
    exact early_move hm hearly
  · rw [heq]
    rw [hv] at hu
    cases hu
    exact hearly
  · rw [heq]
    rfl
  · rw [heq]
    rfl

theorem QueuedOnce.step {l : Label C A} (h : QueuedOnce s)
    (hstep : (system cfg P).step s l = some s') : QueuedOnce s' := by
  have hspawn : ∀ t, QueuedOnce (s.spawn t) := fun t => ⟨h.nodup, fun k hk => by
    obtain ⟨u, hu, hearly⟩ := h.late k hk
    refine ⟨u, ?_, hearly⟩
    rw [State.spawn, List.getElem?_append_left (List.getElem?_eq_some_iff.1 hu).1, hu]⟩
  cases step_cases hstep with
  | get | warmUp | drain => exact hspawn _
  | expire | drift => exact ⟨h.nodup, h.late⟩
  | @move i e t t' shared signal ht hm =>
    have hqueue : shared.waiters.Sublist s.shared.waiters ∨
        t = .getEnqueue ∧ t' = .parked none false ∧ shared.waiters = s.shared.waiters ++ [i] := by
      cases hm with
      | enqueue => exact .inr ⟨rfl, rfl, rfl⟩
      | retain => exact .inl List.filter_sublist
      | hand h =>
        obtain ⟨-, dead, hsplit, -⟩ := popLive_some h
        rw [hsplit]
        exact .inl ((List.sublist_cons_self _ _).trans (List.sublist_append_right _ _))
      | handNone | drainWaiters => exact .inl (List.nil_sublist _)
      | _ => exact .inl (List.Sublist.refl _)
    rcases hqueue with hsub | ⟨rfl, rfl, heq⟩
    · exact ⟨h.nodup.sublist hsub, fun k hk => late_move ht hm (h.late k (hsub.subset hk))⟩
    · have hi : i ∉ s.shared.waiters := by
        intro hi
        obtain ⟨u, hu, hearly⟩ := h.late i hi
        rw [ht] at hu
        cases hu
        cases hearly
      refine ⟨?_, fun k hk => ?_⟩
      · rw [heq]
        refine List.nodup_append.2 ⟨h.nodup, by simp, fun a ha b hb => ?_⟩
        rw [List.mem_singleton.1 hb]
        exact fun hai => hi (hai ▸ ha)
      · rw [heq] at hk
        rcases List.mem_append.1 hk with hk | hk
        · exact late_move ht hm (h.late k hk)
        · obtain rfl := List.mem_singleton.1 hk
          cases hm
          refine ⟨.parked none false, ?_, rfl⟩
          exact List.getElem?_set_self (List.getElem?_eq_some_iff.1 ht).1

theorem queuedOnce (h₀ : s₀.Fresh cfg P) (h : (system cfg P).Reachable s₀ s) : QueuedOnce s := by
  refine h.invariant ?_ fun s l s' hs hstep => hs.step hstep
  obtain ⟨conns, rfl, -, -⟩ := h₀
  refine ⟨List.nodup_nil, fun k hk => ?_⟩
  cases hk

/-! ### Runs -/

/-- What holds of the waiter `k` at `s'`, some time after `s`. -/
structure InOrder (s s' : State C) (k : ℕ) : Prop where
  queued : QueuedOnce s'
  /-- Its task, and those that were in front of it, do not queue their senders again. -/
  late : ∀ m, m = k ∨ m ∈ ahead s.shared.waiters k →
    ∃ t, s'.tasks[m]? = some t ∧ t.early = false
  /-- Nobody has got in front of it. -/
  sublist : k ∈ s'.shared.waiters →
    (ahead s'.shared.waiters k).Sublist (ahead s.shared.waiters k)
  /-- Those that were in front of it and wait are still there. -/
  kept : k ∈ s'.shared.waiters → ∀ m ∈ ahead s.shared.waiters k, s'.live m = true →
    m ∈ ahead s'.shared.waiters k

theorem InOrder.refl (h : QueuedOnce s) (hk : k ∈ s.shared.waiters) : InOrder s s k where
  queued := h
  late := fun m hm => by
    rcases hm with rfl | hm
    · exact h.late m hk
    · exact h.late m (mem_of_mem_ahead hm)
  sublist := fun _ => List.Sublist.refl _
  kept := fun _ _ hm _ => hm

/-- A step keeps the order. -/
theorem InOrder.step {l : Label C A} (h : InOrder s s' k)
    (hstep : (system cfg P).step s' l = some s'') : InOrder s s'' k := by
  have hqueued := h.queued.step hstep
  have hsame : ∀ x : State C, (∀ (m : ℕ) (u : Task C), s'.tasks[m]? = some u →
      x.tasks[m]? = some u) → x.shared.waiters = s'.shared.waiters → QueuedOnce x →
        InOrder s x k := by
    intro x htasks hwaiters hq
    refine ⟨hq, fun m hm => ?_, fun hk => ?_, fun hk m hm hl => ?_⟩
    · obtain ⟨t, ht, hearly⟩ := h.late m hm
      exact ⟨t, htasks m t ht, hearly⟩
    · rw [hwaiters] at hk ⊢
      exact h.sublist hk
    · rw [hwaiters] at hk ⊢
      refine h.kept hk m hm ?_
      obtain ⟨t, ht, -⟩ := h.late m (.inr hm)
      obtain ⟨elapsed, hlive⟩ := State.live_iff.1 hl
      rw [htasks m t ht] at hlive
      exact State.live_iff.2 ⟨elapsed, by rw [ht, hlive]⟩
  cases step_cases hstep with
  | get | warmUp | drain =>
    refine hsame _ (fun m u hu => ?_) rfl hqueued
    rw [State.spawn, List.getElem?_append_left (List.getElem?_eq_some_iff.1 hu).1, hu]
  | expire | drift => exact hsame _ (fun m u hu => hu) rfl hqueued
  | @move i e t t' shared signal ht hm =>
    have hlate : ¬(k = i ∧ t = .getEnqueue) := by
      rintro ⟨rfl, rfl⟩
      obtain ⟨u, hu, hearly⟩ := h.late k (.inl rfl)
      rw [ht] at hu
      cases hu
      cases hearly
    refine ⟨hqueued, fun m hm' => late_move ht hm (h.late m hm'), fun hk => ?_,
      fun hk m hm' hl => ?_⟩
    · obtain ⟨hmem, hsub, -⟩ := ahead_move hm h.queued.nodup hk hlate
      exact hsub.trans (h.sublist hmem)
    · obtain ⟨hmem, -, hstay⟩ := ahead_move hm h.queued.nodup hk hlate
      rcases live_move ht hm hl with ⟨hlive, hns⟩ | ⟨rfl, rfl, -⟩
      · exact hstay m (h.kept hmem m hm' hlive) hlive hns
      · obtain ⟨u, hu, hearly⟩ := h.late m (.inr hm')
        rw [ht] at hu
        cases hu
        cases hearly

/-- A step that gives a waiting task a connection takes it from the queue, where nobody in front of
it waits. -/
theorem not_live_of_served {l : Label C A} (hstep : (system cfg P).step s' l = some s'')
    (hlive : s'.live k = true) {c : C} {elapsed : Bool}
    (hserved : s''.tasks[k]? = some (.parked (some c) elapsed)) :
    k ∈ s'.shared.waiters ∧ ∀ m ∈ ahead s'.shared.waiters k, s'.live m = false := by
  obtain ⟨elapsed', hk⟩ := State.live_iff.1 hlive
  cases step_cases hstep with
  | get | warmUp | drain =>
    rw [State.spawn, List.getElem?_append_left (List.getElem?_eq_some_iff.1 hk).1, hk] at hserved
    cases hserved
  | expire | drift =>
    change s'.tasks[k]? = _ at hserved
    rw [hk] at hserved
    cases hserved
  | @move i e t t' shared signal ht hm =>
    rcases task_after ht hm hserved with ⟨rfl, heq⟩ | ⟨-, v, hv, rfl | ⟨c', _, hs, -, -⟩ |
      ⟨-, rfl, -⟩⟩
    · -- no move of a waiting task fills its own channel
      rw [ht] at hk
      cases hk
      cases hm <;> cases heq
    · rw [hk] at hv
      cases hv
    · cases hm <;> cases hs
      rename_i who rest hpop
      obtain ⟨-, dead, hsplit, hdead⟩ := popLive_some hpop
      rw [hsplit]
      refine ⟨by simp, fun m hm' => ?_⟩
      have hmem : m ∈ dead := by
        by_contra hnot
        have hkdead : k ∉ dead := fun hd => by
          rw [hdead k hd] at hlive
          cases hlive
        have hcut : ahead (dead ++ k :: rest) k = dead := by
          rw [ahead, List.takeWhile_append_of_pos
            (by simpa using fun d hd => ne_of_mem_of_not_mem hd hkdead)]
          simp
        exact hnot (hcut ▸ hm')
      exact hdead m hmem
    · rw [hk] at hv
      cases hv

/-- **First come, first served.**  From the moment a `get` has queued its sender, nobody gets in
front of it; and whenever a later one is given a connection, those that were in front of it in the
queue have been served already, or have given up. -/
theorem served_in_order (h₀ : s₀.Fresh cfg P) (h : (system cfg P).Reachable s₀ s)
    (hk : k ∈ s.shared.waiters) (h' : (system cfg P).Reachable s s') :
    (k ∈ s'.shared.waiters → (ahead s'.shared.waiters k).Sublist (ahead s.shared.waiters k)) ∧
    ∀ (l : Label C A) (s'' : State C) (c : C) (elapsed : Bool),
      (system cfg P).step s' l = some s'' → s'.live k = true →
        s''.tasks[k]? = some (.parked (some c) elapsed) →
          ∀ m ∈ ahead s.shared.waiters k, s'.live m = false := by
  have horder : InOrder s s' k :=
    h'.invariant (I := fun x => InOrder s x k) (InOrder.refl (queuedOnce h₀ h) hk)
      fun _ _ _ hs hstep => hs.step hstep
  refine ⟨horder.sublist, fun l s'' c elapsed hstep hlive hserved m hm => ?_⟩
  obtain ⟨hmem, hdead⟩ := not_live_of_served hstep hlive hserved
  by_contra hml
  rw [Bool.not_eq_false] at hml
  rw [hdead m (horder.kept hmem m hm hml)] at hml
  cases hml

end

/-- Two calls wait for the only connection; the first of them has had it when the second one gets
it. -/
theorem served_in_order_two :
    ∃ s s' s'', (system ⟨1, 1, true, true⟩ steady).Reachable (.new [()]) s ∧
      ahead s.shared.waiters 3 = [2] ∧ (system ⟨1, 1, true, true⟩ steady).Reachable s s' ∧
      (system ⟨1, 1, true, true⟩ steady).step s' (.task 2 .run) = some s'' ∧
      s''.tasks[3]? = some (.parked (some ()) false) ∧
      ∀ m ∈ ahead s.shared.waiters 3, s'.live m = false := by
  have htest : ((system ⟨1, 1, true, true⟩ steady).exec (.new [()])
      (.get :: runs 1 4 ++ .get :: runs 2 5 ++ .get :: runs 3 5)).any (fun s =>
      decide (s.shared.waiters = [2, 3]) && ((system ⟨1, 1, true, true⟩ steady).exec s
        (.task 1 .drop :: runs 1 5 ++ runs 2 3 ++ .task 2 .drop :: runs 2 4)).any (fun s' =>
        s'.live 3 && ((system ⟨1, 1, true, true⟩ steady).step s' (.task 2 .run)).any fun s'' =>
          decide (s''.tasks[3]? = some (.parked (some ()) false)))) = true := by decide
  obtain ⟨s, hs, htest⟩ := (Option.any_eq_true _ _).1 htest
  rw [Bool.and_eq_true, decide_eq_true_eq] at htest
  obtain ⟨hwaiters, htest⟩ := htest
  obtain ⟨s', hs', htest⟩ := (Option.any_eq_true _ _).1 htest
  rw [Bool.and_eq_true] at htest
  obtain ⟨hlive, htest⟩ := htest
  obtain ⟨s'', hs'', htest⟩ := (Option.any_eq_true _ _).1 htest
  have hserved := of_decide_eq_true htest
  have hfresh : (State.new [()]).Fresh ⟨1, 1, true, true⟩ steady :=
    ⟨[()], rfl, by decide, by decide⟩
  refine ⟨s, s', s'', LTS.reachable_of_exec hs, by rw [hwaiters]; rfl, LTS.reachable_of_exec hs',
    hs'', hserved, ?_⟩
  exact (served_in_order hfresh (LTS.reachable_of_exec hs) (k := 3) (by rw [hwaiters]; decide)
    (LTS.reachable_of_exec hs')).2 _ _ _ _ hs'' hlive hserved

end Resolute.Pool
