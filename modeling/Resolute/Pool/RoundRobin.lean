import Resolute.Pool.AsyncPool

/-!
# The search of `get_async`

A call of `get_async` begins at the slot that the counter says and looks at each slot once, while
connections die and are replaced; only when it has found none alive it returns the one that is in
the first slot by then.  So the calls begin at the slots in turn (`Counted`), and as long as one
slot has a connection that is alive, no call returns a dead one (`get_async_alive`): while the call
`Misses` the slot, it has not yet looked at it.
-/

namespace Resolute.AsyncPool

/-- The connection in slot `k` is alive. -/
def slotAlive (k : ℕ) (s : State) : Prop := ∃ c, s.slots[k]? = some c ∧ s.isAlive c = true

instance (k : ℕ) (s : State) : Decidable (slotAlive k s) :=
  decidable_of_iff (s.slots[k]?.any s.isAlive = true) (by simp [slotAlive, Option.any_eq_true])

/-- Some look of a search finds slot `k`. -/
theorem exists_look {size k : ℕ} (hk : k < size) (start : ℕ) :
    ∃ i < size, (start + i) % size = k := by
  have hr : start % size < size := Nat.mod_lt _ (by omega)
  have hstart : size * (start / size) + start % size = start := Nat.div_add_mod start size
  by_cases hle : start % size ≤ k
  · refine ⟨k - start % size, by omega, ?_⟩
    have heq : start + (k - start % size) = k + size * (start / size) := by omega
    rw [heq, Nat.add_mul_mod_self_left, Nat.mod_eq_of_lt hk]
  · refine ⟨k + size - start % size, by omega, ?_⟩
    have heq : start + (k + size - start % size) = k + size * (start / size) + size := by omega
    rw [heq, Nat.add_mod_right, Nat.add_mul_mod_self_left, Nat.mod_eq_of_lt hk]

/-- Call `j` is about to look at the slot that is `i` after `start`. -/
def Looks (s : State) (j start i : ℕ) : Prop :=
  ∃ entry late, s.calls[j]? = some ⟨entry, late, .searching start i⟩

section

variable {s s' s₀ : State} {l : Label}

/-- A step submits one call, which begins at the slot that the counter says; or it goes on with a
search that has found a dead connection; or no search goes on. -/
theorem calls_step (h : system.step s l = some s') :
    s'.slots.length = s.slots.length ∧
    ((s'.counter = fetchAdd s.counter ∧ s'.calls.length = s.calls.length + 1 ∧
        ∀ j start i, Looks s' j start i → Looks s j start i ∨
          j = s.calls.length ∧ start = s.counter % s.slots.length ∧ i = 0) ∨
      s'.counter = s.counter ∧ s'.calls.length = s.calls.length ∧
        ∀ j start i, Looks s' j start i → Looks s j start i ∨
          ∃ i', i = i' + 1 ∧ Looks s j start i' ∧ i' < s.slots.length ∧
            ∃ c, s.slots[(start + i') % s.slots.length]? = some c ∧ s.isAlive c = false) := by
  have hset : ∀ (j : ℕ) (call : Call), (∀ start i, call.phase ≠ .searching start i) →
      ∀ m start i, Looks { s with calls := s.calls.set j call } m start i → Looks s m start i := by
    rintro j call hphase m start i ⟨entry, late, hm⟩
    rcases getElem?_set_cases hm with ⟨-, rfl⟩ | ⟨-, hm⟩
    · exact absurd rfl (hphase start i)
    · exact ⟨entry, late, hm⟩
  have hgotten : ∀ entry c start i, s.gotten entry c ≠ .searching start i := by
    intro entry c start i hg
    unfold State.gotten at hg
    split_ifs at hg
  cases l with
  | submit entry =>
    cases h
    refine ⟨rfl, .inl ⟨rfl, by simp, ?_⟩⟩
    rintro j start i ⟨entry', late, hj⟩
    rcases getElem?_concat_cases hj with hj | ⟨rfl, heq⟩
    · exact .inl ⟨entry', late, hj⟩
    · cases heq
      exact .inr ⟨rfl, rfl, rfl⟩
  | search j =>
    simp only [system, step] at h
    split at h
    · rename_i entry late start i hj
      obtain ⟨phase, hphase, rfl⟩ := Option.map_eq_some_iff.1 h
      refine ⟨rfl, .inr ⟨rfl, by simp, ?_⟩⟩
      rintro m start' i' ⟨entry', late', hm⟩
      rcases getElem?_set_cases hm with ⟨rfl, heq⟩ | ⟨-, hm⟩
      · cases heq
        simp only [searchSlot] at hphase
        split_ifs at hphase with hlt
        · obtain ⟨c, hc, heq⟩ := Option.map_eq_some_iff.1 hphase
          split_ifs at heq with halive
          · exact absurd heq (hgotten _ _ _ _)
          · cases heq
            exact .inr ⟨i, rfl, ⟨entry, late, hj⟩, hlt, c, hc, by simpa using halive⟩
        · obtain ⟨c, hc, heq⟩ := Option.map_eq_some_iff.1 hphase
          exact absurd heq (hgotten _ _ _ _)
      · exact .inl ⟨entry', late', hm⟩
    · cases h
  | answer j =>
    simp only [system, step] at h
    split at h
    · split_ifs at h
      cases h
      exact ⟨rfl, .inr ⟨rfl, by simp, fun m start i hm =>
        .inl (hset j _ (fun _ _ h => by cases h) m start i hm)⟩⟩
    · cases h
  | fail j =>
    simp only [system, step] at h
    split at h
    · cases h
      exact ⟨rfl, .inr ⟨rfl, by simp, fun m start i hm =>
        .inl (hset j _ (fun _ _ h => by cases h) m start i hm)⟩⟩
    · cases h
  | close =>
    cases h
    exact ⟨rfl, .inr ⟨rfl, rfl, fun m start i hm => .inl hm⟩⟩
  | enter | leave | cancel | tick | check | connected | connectFailed | store | lose
  | writerExit =>
    simp only [system, step] at h
    repeat' split at h
    all_goals cases h
    all_goals exact ⟨by simp, .inr ⟨rfl, rfl, fun m start i hm => .inl hm⟩⟩

/-- The calls begin at the slots in turn, and look at each slot at most once. -/
structure Counted (size : ℕ) (s : State) : Prop where
  slots : s.slots.length = size
  counter : s.counter = s.calls.length % 18446744073709551616
  calls : ∀ j start i, Looks s j start i → start = j % 18446744073709551616 % size ∧ i ≤ size

theorem Counted.step {size : ℕ} (h : Counted size s) (hstep : system.step s l = some s') :
    Counted size s' := by
  obtain ⟨hslots, ⟨hcounter, hlen, hcalls⟩ | ⟨hcounter, hlen, hcalls⟩⟩ := calls_step hstep
  · refine ⟨hslots.trans h.slots, ?_, fun j start i hj => ?_⟩
    · rw [hcounter, hlen, fetchAdd, h.counter, Nat.mod_add_mod]
    · rcases hcalls j start i hj with hj | ⟨rfl, rfl, rfl⟩
      · exact h.calls j start i hj
      · rw [h.counter, h.slots]
        exact ⟨rfl, Nat.zero_le _⟩
  · refine ⟨hslots.trans h.slots, by rw [hcounter, hlen, h.counter], fun j start i hj => ?_⟩
    rcases hcalls j start i hj with hj | ⟨i', rfl, hj, hlt, -⟩
    · exact h.calls j start i hj
    · exact ⟨(h.calls j start i' hj).1, h.slots ▸ hlt⟩

theorem counted {size : ℕ} (h₀ : connect size = .ok s₀) (h : system.Reachable s₀ s) :
    Counted size s := by
  refine h.invariant ?_ fun _ _ _ hs hstep => hs.step hstep
  unfold connect at h₀
  split_ifs at h₀
  cases h₀
  refine ⟨by simp, rfl, ?_⟩
  rintro j start i ⟨entry, late, hj⟩
  cases hj

/-- The calls from number `n` on have not yet looked at slot `k`. -/
def Misses (size k n : ℕ) (s : State) : Prop :=
  ∀ j start i, n ≤ j → Looks s j start i → ∀ i' < i, (start + i') % size ≠ k

theorem Misses.step {size k n : ℕ} (h : Misses size k n s) (hslots : s.slots.length = size)
    (halive : slotAlive k s) (hstep : system.step s l = some s') : Misses size k n s' := by
  obtain ⟨-, ⟨-, -, hcalls⟩ | ⟨-, -, hcalls⟩⟩ := calls_step hstep
  · intro j start i hn hj i' hi'
    rcases hcalls j start i hj with hj | ⟨-, -, rfl⟩
    · exact h j start i hn hj i' hi'
    · exact absurd hi' (Nat.not_lt_zero _)
  · intro j start i hn hj i' hi'
    rcases hcalls j start i hj with hj | ⟨i₀, rfl, hj, -, c, hc, hdead⟩
    · exact h j start i hn hj i' hi'
    · rcases Nat.lt_succ_iff_lt_or_eq.1 hi' with hi' | rfl
      · exact h j start i₀ hn hj i' hi'
      · -- the slot that was looked at is not the one that is alive
        rintro rfl
        obtain ⟨c', hc', halive'⟩ := halive
        rw [hslots] at hc
        rw [hc] at hc'
        cases hc'
        rw [hdead] at halive'
        cases halive'

/-- **Round robin.**  Every call of `get_async` begins at the slot of its number and looks at each
slot at most once.  While slot `k` has a connection that is alive, whichever that is, the calls that
are submitted look on until they find a connection that is alive, and get it; the search never falls
back on a dead one. -/
theorem get_async_alive {size k : ℕ} (h₀ : connect size = .ok s₀) (h : system.Reachable s₀ s)
    (h' : (system.guard fun s _ => slotAlive k s).Reachable s s') (halive : slotAlive k s') :
    (∀ j start i, Looks s' j start i → start = j % 18446744073709551616 % size ∧ i ≤ size) ∧
    ∀ j start i entry late, s.calls.length ≤ j →
      s'.calls[j]? = some ⟨entry, late, .searching start i⟩ → i < size ∧
        ∃ s'', system.step s' (.search j) = some s'' ∧
          (i + 1 < size ∧ s''.calls[j]? = some ⟨entry, late, .searching start (i + 1)⟩ ∨
            ∃ c ∈ s'.slots, s'.isAlive c = true ∧
              s''.calls[j]? = some ⟨entry, late, s'.gotten entry c⟩) := by
  have hcounted : Counted size s' := counted h₀ (h.trans h'.of_guard)
  have hsize := (counted h₀ h).slots
  have hmisses : s'.slots.length = size ∧ Misses size k s.calls.length s' := by
    refine h'.guard_invariant (I := fun x => x.slots.length = size ∧
      Misses size k s.calls.length x) ⟨hsize, ?_⟩ fun x l x' hx hg hstep => ?_
    · rintro j start i hn ⟨entry, late, hj⟩
      exact absurd (List.getElem?_eq_some_iff.1 hj).1 (Nat.not_lt.2 hn)
    · exact ⟨(calls_step hstep).1.trans hx.1, hx.2.step hx.1 hg hstep⟩
  refine ⟨hcounted.calls, fun j start i entry late hn hj => ?_⟩
  obtain ⟨c₀, hc₀, halive₀⟩ := halive
  have hk : k < size := hcounted.slots ▸ (List.getElem?_eq_some_iff.1 hc₀).1
  have hmiss := hmisses.2 j start i hn ⟨entry, late, hj⟩
  obtain ⟨i₀, hi₀, hlook⟩ := exists_look hk start
  have hi : i ≤ i₀ := by
    by_contra hlt
    exact hmiss i₀ (Nat.not_le.1 hlt) hlook
  have hlt : i < s'.slots.length := by rw [hcounted.slots]; omega
  have hslot : (start + i) % s'.slots.length < s'.slots.length := Nat.mod_lt _ (by omega)
  have hget := List.getElem?_eq_getElem hslot
  have hjlt := (List.getElem?_eq_some_iff.1 hj).1
  refine ⟨by omega, ?_⟩
  simp only [system, step, hj, searchSlot, if_pos hlt, hget, Option.map_some]
  refine ⟨_, rfl, ?_⟩
  rw [List.getElem?_set_self hjlt]
  by_cases hfound : s'.isAlive (s'.slots[(start + i) % s'.slots.length]) = true
  · exact .inr ⟨_, List.getElem_mem hslot, hfound, by rw [if_pos hfound]⟩
  · refine .inl ⟨?_, by rw [if_neg hfound]⟩
    -- the look at slot `k` is still to come
    rcases Nat.lt_or_ge i i₀ with hi' | hi'
    · omega
    · obtain rfl : i = i₀ := by omega
      rw [← hcounted.slots] at hlook
      rw [← hlook, hget] at hc₀
      cases hc₀
      exact absurd halive₀ hfound

end

/-- Three slots of which the first has died: the first call passes over it, the second one begins
behind it. -/
theorem get_async_alive_three : ∃ s₀ s s', connect 3 = .ok s₀ ∧
    system.exec s₀ [.lose 0, .writerExit 0] = some s ∧
    (system.guard fun s _ => slotAlive 1 s).exec s
      [.submit .execQuery, .submit .getAsync, .search 0] = some s' ∧
    s'.calls[0]? = some ⟨.execQuery, false, .searching 0 1⟩ ∧
    ∃ s'', system.step s' (.search 0) = some s'' ∧
      (1 + 1 < 3 ∧ s''.calls[0]? = some ⟨.execQuery, false, .searching 0 (1 + 1)⟩ ∨
        ∃ c ∈ s'.slots, s'.isAlive c = true ∧
          s''.calls[0]? = some ⟨.execQuery, false, s'.gotten .execQuery c⟩) := by
  have h₀ : connect 3 = .ok ⟨List.replicate 3 ⟨true, true⟩, [0, 1, 2], 0, .sleeping, [], []⟩ := rfl
  have h : system.exec ⟨List.replicate 3 ⟨true, true⟩, [0, 1, 2], 0, .sleeping, [], []⟩
      [.lose 0, .writerExit 0] = some _ := rfl
  obtain ⟨s', h', hcall, halive⟩ : ∃ s', (system.guard fun s _ => slotAlive 1 s).exec
      ⟨[⟨false, false⟩, ⟨true, true⟩, ⟨true, true⟩], [0, 1, 2], 0, .sleeping, [], []⟩
      [.submit .execQuery, .submit .getAsync, .search 0] = some s' ∧
      s'.calls[0]? = some ⟨.execQuery, false, .searching 0 1⟩ ∧ slotAlive 1 s' := by
    refine ⟨_, rfl, rfl, ?_⟩
    decide
  exact ⟨_, _, s', h₀, h, h', hcall, ((get_async_alive h₀ (LTS.reachable_of_exec h)
    (LTS.reachable_of_exec h') halive).2 0 0 1 .execQuery false (Nat.zero_le _) hcall).2⟩

end Resolute.AsyncPool
