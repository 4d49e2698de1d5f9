import Resolute.Conn.Orphans

/-!
# How many statements a connection keeps on the server

Without orphans every statement that is not closed has an entry of the cache, or is held by a call.
The cache has room for 256 entries, so what is left to bound is what the calls hold.
* A call with one statement holds one at most, and pays for it as long as it is in flight.
* A pipeline publishes its statements only when it has all its responses.  While it holds several
  new ones, the entries and what all calls hold must leave room for each step that adds to them or
  ends a call.  On a new connection a pipeline may hold 257, and one more is one too many
  (`exists_overfull`); on a full cache the second one is.

`fits` says that there is room for a step; as long as each call holds one statement at most it asks
for nothing.  `unclosed_le` is the bound: at most 256 statements more than calls in flight.
-/

namespace Resolute.Conn.Statements

/-! ### The condition -/

/-- No call holds two statements. -/
def State.Single (s : State) : Prop := ∀ c ∈ s.calls, c.held.length ≤ 1

/-- The call may hold one statement more, or end: no call holds two and this one holds none, or the
entries and the statements that are held leave room. -/
def State.Roomy (s : State) (c : Call) : Prop :=
  s.Single ∧ c.held = [] ∨ s.load < Stmts.cap + s.inFlight

instance (s : State) : Decidable s.Single :=
  inferInstanceAs (Decidable (∀ c ∈ s.calls, c.held.length ≤ 1))

instance (s : State) (c : Call) : Decidable (s.Roomy c) :=
  inferInstanceAs (Decidable (_ ∨ _))

/-- There is room for the step, if it makes a call hold one statement more, if it gives a statement
that nobody holds a free place in the cache, or if it ends a call that holds nothing. -/
def fits (s : State) : Label → Prop
  | .serve n _ => ∀ w ∈ s.queue.head?, (Statements.serve n w.messages s.alive).parsed ≠ [] →
    ∀ c ∈ s.awaiting w, s.Roomy c
  | .resume i => ∀ c ∈ s.calls[i]?, c.pipeline = true ∨ c.resumed ≠ some c.over ∨ c.held ≠ [] ∨
    s.Roomy c
  | .publish i _ => ∀ c ∈ s.calls[i]?, ∀ next ∈ c.stage.publishing?,
    (c.items[next]? = none → s.Roomy c) ∧
      ∀ it ∈ c.items[next]?, it.needsParse = true → it.accepted = true ∨
        (s.stmts.cache.get? it.sql).isSome = true ∨ Stmts.cap ≤ s.stmts.cache.entries.length ∨
        s.Single ∨ s.load < Stmts.cap + s.inFlight
  | .cancel i => ∀ c ∈ s.calls[i]?, c.stage = .done ∨ c.held ≠ [] ∨ s.Roomy c
  | _ => True

/-- The step makes no orphan, and there is room for it. -/
def kept (s : State) (l : Label) : Prop := orphanless s l ∧ fits s l

instance (s : State) : (l : Label) → Decidable (fits s l)
  | .serve _ _ | .resume _ | .publish _ _ | .cancel _ => by
    unfold fits
    infer_instance
  | .call _ _ | .pipeline | .add _ _ _ | .run _ | .send _ | .invalidate _ | .lookupAgain _ =>
    .isTrue trivial

instance (s : State) (l : Label) : Decidable (kept s l) := inferInstanceAs (Decidable (_ ∧ _))

/-! ### The room -/

/-- What a call pays in: the place of one statement while it is in flight, less what it holds. -/
def Call.credit (c : Call) : ℤ := (if c.stage = .done then 0 else 1) - c.held.length

/-- The entries take no more than the places of the cache and what the calls pay in. -/
def Paid (entries : ℕ) (calls : List Call) : Prop :=
  (entries : ℤ) ≤ Stmts.cap + tally Call.credit calls

theorem tally_credit (s : State) :
    tally Call.credit s.calls = s.inFlight - (s.calls.flatMap Call.held).length := by
  have hflight : tally (fun c : Call => if c.stage = .done then 0 else 1) s.calls = s.inFlight :=
    tally_countP fun c _ => by by_cases hdone : c.stage = .done <;> simp [hdone]
  rw [← hflight, ← tally_length, ← tally_sub]
  rfl

theorem paid_iff {s : State} :
    Paid s.stmts.cache.entries.length s.calls ↔ s.load ≤ Stmts.cap + s.inFlight := by
  rw [Paid, tally_credit, State.load]
  omega

@[simp] theorem Call.credit_over (c : Call) : c.over.credit = 0 := rfl

theorem Call.credit_of_inFlight {c : Call} (h : c.stage ≠ .done) :
    c.credit = 1 - c.held.length := by
  rw [Call.credit, if_neg h]

/-- A call that holds at most one statement pays for it. -/
theorem Call.credit_nonneg {c : Call} (h : c.held.length ≤ 1) : 0 ≤ c.credit := by
  by_cases hdone : c.stage = .done
  · rw [Call.credit, Call.held_eq_nil (by rw [hdone]; rfl), if_pos hdone]
    exact Int.le_refl 0
  · rw [Call.credit_of_inFlight hdone]
    omega

theorem single_paid {s : State} (h : s.Single) : 0 ≤ tally Call.credit s.calls :=
  tally_nonneg fun c hc => Call.credit_nonneg (h c hc)

/-- Where there is room, the places are not all taken. -/
theorem lt_of_roomy {s : State} {c : Call} (hsize : s.stmts.cache.entries.length ≤ Stmts.cap)
    (hc : c ∈ s.calls) (hflight : c.stage ≠ .done) (h : s.Roomy c) :
    (s.stmts.cache.entries.length : ℤ) < Stmts.cap + tally Call.credit s.calls := by
  rcases h with ⟨hsingle, hheld⟩ | hload
  · have hle : c.credit ≤ tally Call.credit s.calls :=
      le_tally (fun c hc => Call.credit_nonneg (hsingle c hc)) hc
    rw [Call.credit_of_inFlight hflight, hheld, List.length_nil] at hle
    omega
  · rw [tally_credit]
    rw [State.load] at hload
    omega

/-- An entry is added only in a free place of the cache. -/
theorem length_cacheStatement (s : State) (sql str : String) (room : Bool) :
    let s' := s.cacheStatement sql (asBytes str) room
    s'.stmts.cache.entries.length ≤ s.stmts.cache.entries.length ∨
      s.stmts.cache.get? sql = none ∧ s.stmts.cache.entries.length < Stmts.cap ∧
        s'.stmts.cache.entries.length = s.stmts.cache.entries.length + 1 := by
  intro s'
  simp only [s', State.cacheStatement]
  rcases Representation.cacheStatement_asBytes s.stmts sql str with
    ⟨-, heq⟩ | ⟨hnone, ⟨hlt, heq⟩ | ⟨-, old, hold, -, heq⟩⟩
  · rw [heq]
    exact .inl (Nat.le_refl _)
  · rw [heq]
    exact .inr ⟨hnone, hlt, congrArg List.length (Representation.entries_insert
      (e := ⟨sql, str, (nameCounter str).getD s.stmts.counter⟩) hnone)⟩
  · have hnone' : (s.stmts.cache.erase old.sql).get? sql = none :=
      StmtCache.get?_eq_none.2 fun e he =>
        StmtCache.get?_eq_none.1 hnone e (StmtCache.mem_erase.1 he).1
    have hlength := Representation.length_erase_lt hold
    rw [heq]
    simp only [Representation.entries_insert
      (e := ⟨sql, str, (nameCounter str).getD s.stmts.counter⟩) hnone', List.length_cons]
    exact .inl hlength

namespace Paid

section Calls

variable {entries : ℕ} {calls : List Call} {i : ℕ} {c c' : Call}

/-- Entries leave the cache, or none is added. -/
theorem shrink {entries' : ℕ} (h : Paid entries calls) (hle : entries' ≤ entries) :
    Paid entries' calls :=
  Int.le_trans (Int.ofNat_le.2 hle) h

/-- A call changes and pays as before. -/
theorem set (h : Paid entries calls) (hc : calls[i]? = some c) (hle : c.credit ≤ c'.credit) :
    Paid entries (calls.set i c') := by
  rw [Paid] at h ⊢
  rw [tally_set hc]
  omega

/-- A call begins. -/
theorem append (h : Paid entries calls) (hcredit : 0 ≤ c.credit) :
    Paid entries (calls ++ [c]) := by
  rw [Paid] at h ⊢
  rw [tally_append, tally_cons, tally_nil]
  omega

/-- A call ends that is over, that holds something, or whose place is not needed. -/
theorem ends (h : Paid entries calls) (hc : calls[i]? = some c)
    (hend : c.stage = .done ∨ c.held ≠ [] ∨
      (entries : ℤ) < Stmts.cap + tally Call.credit calls) :
    Paid entries (calls.set i c.over) := by
  by_cases hdone : c.stage = .done
  · refine h.set hc (Int.le_of_eq ?_)
    rw [Call.credit_over, Call.credit, Call.held_eq_nil (by rw [hdone]; rfl), if_pos hdone]
    rfl
  · rw [Paid] at h ⊢
    rw [tally_set hc, Call.credit_over, Call.credit_of_inFlight hdone]
    rcases hend with hend | hend | hend
    · exact absurd hend hdone
    · have hpos := List.length_pos_iff.2 hend
      omega
    · omega

/-- One call ends and another one begins, and neither holds anything. -/
theorem replace (h : Paid entries calls) (hc : calls[i]? = some c) (hheld : c.held = [])
    (hflight : c'.stage ≠ .done) (hheld' : c'.held = []) :
    Paid entries (calls.set i c.over ++ [c']) := by
  have hcredit : c.credit ≤ 1 := by
    rw [Call.credit, hheld]
    split_ifs <;> simp
  rw [Paid] at h ⊢
  rw [tally_append, tally_set hc, tally_cons, tally_nil, Call.credit_over,
    Call.credit_of_inFlight hflight, hheld', List.length_nil]
  omega

end Calls

variable {s : State} {i : ℕ} {c c' : Call}

/-- A call publishes its next statement. -/
theorem publish (h : Paid s.stmts.cache.entries.length s.calls) (hs : NoOrphans s) {next : ℕ}
    {it : Item} (room : Bool) (hc : s.calls[i]? = some c) (hstage : c.stage = .publishing next)
    (hit : c.items[next]? = some it)
    (hfits : it.needsParse = true → it.accepted = true ∨
      (s.stmts.cache.get? it.sql).isSome = true ∨ Stmts.cap ≤ s.stmts.cache.entries.length ∨
      s.Single ∨ s.load < Stmts.cap + s.inFlight) :
    Paid (if it.needsParse then s.cacheStatement it.sql it.name room
        else s).stmts.cache.entries.length
      (s.calls.set i { c with
        items := c.items.set next { it with accepted := false }
        stage := .publishing (next + 1) }) := by
  have htidy := hs.calls c (List.mem_of_getElem? hc)
  obtain ⟨-, hheld⟩ := htidy.publish hstage hit _ rfl
  have hflight : c.stage ≠ .done := by simp [hstage]
  -- the call pays for the statement that it does not hold any more
  have hcredit : Call.credit { c with
      items := c.items.set next { it with accepted := false }
      stage := .publishing (next + 1) } = c.credit + it.token.length := by
    rw [Call.credit_of_inFlight Stage.noConfusion, Call.credit_of_inFlight hflight, hheld,
      List.length_append]
    omega
  have hset := h.set hc (show c.credit ≤ _ from by rw [hcredit]; omega)
  by_cases hparse : it.needsParse = true
  · obtain ⟨str, hname⟩ := htidy.named it (List.mem_of_getElem? hit)
    have hlength := length_cacheStatement s it.sql str room
    rw [← hname] at hlength
    rw [if_pos hparse]
    rcases hlength with hle | ⟨hnone, hlt, heq⟩
    · exact hset.shrink hle
    · rw [Paid] at h ⊢
      rw [heq, tally_set hc, hcredit]
      have hsum := tally_credit s
      have hfits' := hfits hparse
      rw [hnone] at hfits'
      rcases hfits' with ha | hsome | hfull | hsingle | hload
      · have htoken : it.token.length = 1 := by rw [Item.token, if_pos ha]; rfl
        omega
      · cases hsome
      · omega
      · have hnonneg := single_paid hsingle
        omega
      · rw [State.load] at hload
        omega
  · rw [if_neg hparse]
    exact hset

/-- The server handles a request. -/
theorem serve (h : Paid s.stmts.cache.entries.length s.calls) (hs : NoOrphans s) {w : Work} (n : ℕ)
    (e : PgError)
    (hfits : (Statements.serve n w.messages s.alive).parsed ≠ [] →
      ∀ c ∈ s.awaiting w, s.Roomy c) :
    let r := Statements.serve n w.messages s.alive
    Paid s.stmts.cache.entries.length (match w.origin with
      | some (i, k) => s.calls.modify i fun c => { c with items := c.items.modify k (.answer r e) }
      | none => s.calls) := by
  intro r
  cases ho : w.origin with
  | none => exact h
  | some o =>
    obtain ⟨i, k⟩ := o
    cases hc : s.calls[i]? with
    | none =>
      simp only [List.modify_eq_self (List.getElem?_eq_none_iff.1 hc)]
      exact h
    | some c =>
      simp only [modify_eq_set hc]
      cases hit : c.items[k]? with
      | none =>
        simp only [List.modify_eq_self (List.getElem?_eq_none_iff.1 hit)]
        exact h.set hc (Int.le_refl _)
      | some it =>
        simp only [modify_eq_set hit]
        obtain ⟨-, hle, hsame, -⟩ := Call.held_answer hit r e _ rfl
        by_cases hnew : (it.name, asBytes it.sql) ∉ r.parsed ∨ c.awaits k = false
        · refine h.set hc (Int.le_of_eq ?_)
          simp only [Call.credit, hsame hnew]
        · -- the call holds one statement more
          have hawaits : c.awaits k = true := by
            simpa using fun hfalse => hnew (.inr hfalse)
          have hmem : (it.name, asBytes it.sql) ∈ r.parsed := by
            by_contra hno
            exact hnew (.inl hno)
          have hroomy : s.Roomy c := hfits (List.ne_nil_of_mem hmem) c <| by
            simp [State.awaiting, ho, hc, hawaits]
          have hflight : c.stage ≠ .done := fun hdone => by
            rw [Call.awaits, hdone] at hawaits
            simp [Stage.unpublished?] at hawaits
          have hlt := lt_of_roomy hs.size (List.mem_of_getElem? hc) hflight hroomy
          rw [Paid, tally_set hc]
          simp only [Call.credit] at hlt ⊢
          omega

/-- A call with one statement has its response. -/
theorem resumed (h : Paid s.stmts.cache.entries.length s.calls) (hs : NoOrphans s)
    (hc : s.calls[i]? = some c) (hstage : c.stage = .sending c.requests.length)
    (hc' : c.resumed = some c') (hfits : c.resumed ≠ some c.over ∨ c.held ≠ [] ∨ s.Roomy c) :
    Paid s.stmts.cache.entries.length (s.calls.set i c') := by
  have hflight : c.stage ≠ .done := by simp [hstage]
  have hcases : c' = { c with stage := .publishing 0 } ∨ c' = { c with stage := .stale } ∨
      c' = c.over := by
    have hres := hc'
    unfold Call.resumed at hres
    split at hres
    · split at hres
      · exact .inl (Option.some_inj.1 hres).symm
      · split_ifs at hres
        · exact .inr (.inl (Option.some_inj.1 hres).symm)
        · exact .inr (.inr (Option.some_inj.1 hres).symm)
      · cases hres
    · cases hres
  rcases hcases with rfl | rfl | rfl
  · refine h.set hc (Int.le_of_eq ?_)
    rw [Call.credit_of_inFlight hflight, Call.held_sending hstage]
    rfl
  · refine h.set hc ?_
    rw [Call.credit_of_inFlight hflight]
    change _ ≤ (1 - 0 : ℤ)
    omega
  · refine h.ends hc (.inr ((hfits.resolve_left fun hne => hne hc').imp_right fun hroomy => ?_))
    exact lt_of_roomy hs.size (List.mem_of_getElem? hc) hflight hroomy

/-- A call moves on and holds what it held. -/
theorem toStage {entries : ℕ} {calls : List Call} (h : Paid entries calls)
    (hc : calls[i]? = some c) {stage : Stage} (hne : stage ≠ .done)
    (hheld : Call.held { c with stage := stage } = c.held) :
    Paid entries (calls.set i { c with stage := stage }) := by
  refine h.set hc ?_
  rw [Call.credit, Call.credit, hheld, if_neg hne]
  split_ifs <;> omega

theorem step {s' : State} {l : Label} (h : Paid s.stmts.cache.entries.length s.calls)
    (hs : NoOrphans s) (hl : fits s l) (hstep : connection.step s l = some s') :
    Paid s'.stmts.cache.entries.length s'.calls := by
  have hroom : ∀ {i : ℕ} {c : Call}, s.calls[i]? = some c → c.stage ≠ .done → s.Roomy c →
      (s.stmts.cache.entries.length : ℤ) < Stmts.cap + tally Call.credit s.calls :=
    fun hc => lt_of_roomy hs.size (List.mem_of_getElem? hc)
  cases trans_of_step hstep with
  | call sql stmt =>
    obtain ⟨haccepted, -, hcache⟩ := lookup_item s sql stmt
    rw [hcache]
    refine h.append (Call.credit_nonneg ?_)
    simp [Call.held_sending, Call.tokens, Item.token, haccepted]
  | pipeline => exact h.append (by decide)
  | @add i c sql params hc hstage =>
    obtain ⟨-, -, hcache⟩ := lookup_item s sql (.query params)
    have hidle : c.stage.unpublished? = none := by rw [hstage]; rfl
    rw [hcache]
    refine h.set hc (Int.le_of_eq ?_)
    simp [Call.credit, Call.held, hidle]
  | @run i c hc hstage =>
    have htokens := (hs.calls c (List.mem_of_getElem? hc)).building hstage
    have hheld : c.held = [] := Call.held_eq_nil (by rw [hstage]; rfl)
    exact h.toStage hc Stage.noConfusion (htokens.trans hheld.symm)
  | @send i next c _ _ hc hstage hrequest =>
    refine h.toStage hc Stage.noConfusion ?_
    rw [Call.held_sending hstage]
    rfl
  | @serve w rest n e hq => exact h.serve hs n e (hl w (by rw [hq]; rfl))
  | @resumePipeline i c hc hstage hp =>
    refine h.toStage hc Stage.noConfusion ?_
    rw [Call.held_sending hstage]
    rfl
  | @resume i c c' hc hstage hp hc' =>
    exact h.resumed hs hc hstage hc' ((hl c hc).resolve_left hp)
  | @publish i next c it room hc hstage hit =>
    exact h.publish hs room hc hstage hit ((hl c hc next (by rw [hstage]; rfl)).2 it hit)
  | @published i next c room hc hstage hnone =>
    have hroomy := (hl c hc next (by rw [hstage]; rfl)).1 hnone
    exact h.ends hc (.inr (.inr (hroom hc (by simp [hstage]) hroomy)))
  | @invalidate i c it hc hstage hitems =>
    have hheld : c.held = [] := Call.held_eq_nil (by rw [hstage]; rfl)
    exact (h.shrink (List.length_filter_le _ _)).toStage hc Stage.noConfusion hheld.symm
  | @lookupAgain i c it hc hstage hitems =>
    obtain ⟨haccepted, -, hcache⟩ := lookup_item s it.sql it.stmt
    rw [hcache]
    refine h.replace hc (Call.held_eq_nil (by rw [hstage]; rfl)) Stage.noConfusion ?_
    simp [Call.held_sending, Call.tokens, Item.token, haccepted]
  | @cancel i c hc =>
    refine h.ends hc ?_
    by_cases hdone : c.stage = .done
    · exact .inl hdone
    · exact .inr (((hl c hc).resolve_left hdone).imp_right (hroom hc hdone))

end Paid

/-- **The bound.**  In every run that makes no orphan and has room for what the calls hold, the
statements on the server that are not closed are at most 256 more than the calls in flight. -/
theorem unclosed_le {s : State} (h : (connection.guard kept).Reachable State.init s) :
    s.unclosed.length ≤ 256 + s.inFlight := by
  let Inv (s : State) : Prop := NoOrphans s ∧ Paid s.stmts.cache.entries.length s.calls
  have hinit : Inv State.init :=
    ⟨⟨List.nodup_nil, Nat.zero_le _, List.forall_mem_nil _, List.forall_mem_nil _,
      List.forall_mem_nil _⟩, Int.natCast_nonneg _⟩
  have hinv : Inv s := h.guard_invariant hinit fun _ _ _ hs hl hstep =>
    ⟨hs.1.step hl.1 hstep, hs.2.step hs.1 hl.2 hstep⟩
  exact hinv.1.unclosed_le_load.trans (paid_iff.1 hinv.2)

/-! ### A pipeline with many new statements -/

/-- The SQL of the statement with a number. -/
def table (k : ℕ) : String := "TABLE " ++ stmtName k

theorem table_injective : Function.Injective table := fun _ _ h =>
  stmtName_injective (String.append_right_inj _ |>.1 h)

/-- The statement with a number, before and after its response and its publication. -/
def tableItem (k : ℕ) (answered published : Bool) : Item :=
  ⟨table k, .query [], asBytes (stmtName k), true, answered && !published,
    if answered then some (.ok ()) else none⟩

/-- A pipeline with `n` statements, of which the first ones are answered and published. -/
def batch (n answered published : ℕ) (stage : Stage) : Call where
  pipeline := true
  retried := false
  items := (List.range n).map fun k => tableItem k (decide (k < answered)) (decide (k < published))
  stage := stage

/-- The request with a number. -/
def tableWork (k : ℕ) : Work := ⟨(tableItem k false false).messages, some (0, k)⟩

/-- The first statements on the server. -/
def tables : ℕ → List (Bytes × Bytes)
  | 0 => []
  | n + 1 => (asBytes (stmtName n), asBytes (table n)) :: tables n

/-- The server has answered the first statements of the only call, a pipeline. -/
def batchServed (n answered : ℕ) : State where
  stmts := ⟨StmtCache.empty, n⟩
  calls := [batch n answered 0 (.sending n)]
  queue := ((List.range n).drop answered).map tableWork
  alive := tables answered

theorem getElem?_batch {n answered published k : ℕ} {stage : Stage} (h : k < n) :
    (batch n answered published stage).items[k]? =
      some (tableItem k (decide (k < answered)) (decide (k < published))) := by
  simp [batch, h]

theorem requests_batch (n answered published : ℕ) (stage : Stage) :
    (batch n answered published stage).requests =
      (List.range n).map fun k => (some k, (tableItem k false false).messages) := by
  have hzip : (batch n answered published stage).items.zipIdx = (List.range n).map fun k =>
      (tableItem k (decide (k < answered)) (decide (k < published)), k) := by
    refine List.ext_getElem? fun k => ?_
    simp only [batch, List.getElem?_zipIdx, List.getElem?_map]
    cases h : (List.range n)[k]? with
    | none => rfl
    | some j =>
      obtain ⟨hlt, rfl⟩ := List.getElem?_eq_some_iff.1 h
      simp
  rw [Call.requests, hzip, List.flatMap_map, List.map_eq_flatMap]
  rfl

theorem length_tables (n : ℕ) : (tables n).length = n := by
  induction n with
  | zero => rfl
  | succ n ih => rw [tables, List.length_cons, ih]

/-- Later statements are not on the server. -/
theorem isAlive_tables {n k : ℕ} (h : n ≤ k) :
    isAlive (tables n) (asBytes (stmtName k)) = false := by
  induction n with
  | zero => rfl
  | succ n ih =>
    have hne : asBytes (stmtName n) ≠ asBytes (stmtName k) := fun heq =>
      Nat.ne_of_lt h (stmtName_injective (asBytes_injective heq))
    simp only [isAlive, tables, List.any_cons] at ih ⊢
    rw [ih (Nat.le_of_succ_le h)]
    simp [hne]

/-- The server prepares the statement and executes it. -/
theorem serve_tableItem {k : ℕ} {alive : List (Bytes × Bytes)}
    (hnew : isAlive alive (asBytes (stmtName k)) = false) :
    Statements.serve 5 (tableItem k false false).messages alive =
      ⟨(asBytes (stmtName k), asBytes (table k)) :: alive,
        [(asBytes (stmtName k), asBytes (table k))], true⟩ := by
  have hself : isAlive ((asBytes (stmtName k), asBytes (table k)) :: alive)
      (asBytes (stmtName k)) = true := isAlive_of_mem List.mem_cons_self
  have hmessages : (tableItem k false false).messages = [
      .parse (asBytes (stmtName k)) (asBytes (table k)) [],
      .bind [] (asBytes (stmtName k)) [] [] [.binary], .describe 80 [], .execute [] 0, .sync] := rfl
  simp only [hmessages, Statements.serve, hnew, hself, Bool.false_eq_true, if_true, if_false]

/-- Answering a statement, or publishing it, changes one element. -/
theorem batch_set {n answered published k : ℕ} {stage stage' : Stage} {answered' published' : ℕ}
    (h : ∀ j < n, j ≠ k →
      tableItem j (decide (j < answered)) (decide (j < published)) =
        tableItem j (decide (j < answered')) (decide (j < published'))) :
    { batch n answered published stage with
      items := (batch n answered published stage).items.set k
        (tableItem k (decide (k < answered')) (decide (k < published')))
      stage := stage' } = batch n answered' published' stage' := by
  simp only [batch, Call.mk.injEq, true_and, and_true]
  refine List.ext_getElem? fun j => ?_
  by_cases hjk : k = j
  · subst hjk
    by_cases hlt : k < n
    · simp [hlt]
    · simp [hlt]
  · rw [List.getElem?_set_ne hjk]
    by_cases hlt : j < n
    · simp [hlt, h j hlt (Ne.symm hjk)]
    · simp [hlt]

/-- A run goes on with a step that is kept. -/
theorem Reaches.tail {s₀ s s' : State} {l : Label} (h : (connection.guard kept).Reachable s₀ s)
    (hl : kept s l) (hstep : connection.step s l = some s') :
    (connection.guard kept).Reachable s₀ s' :=
  LTS.Reachable.tail h (LTS.guard_step_iff.2 ⟨hl, hstep⟩)

/-- The pipeline is built. -/
theorem reachable_built (n : ℕ) : (connection.guard kept).Reachable State.init
    ⟨⟨StmtCache.empty, n⟩, [batch n 0 0 .building], [], []⟩ := by
  induction n with
  | zero => exact Reaches.tail (LTS.Reachable.refl _) (l := .pipeline) ⟨trivial, trivial⟩ rfl
  | succ n ih =>
    refine Reaches.tail ih (l := .add 0 (table n) []) ⟨trivial, trivial⟩ ?_
    have hbatch : batch (n + 1) 0 0 .building = { batch n 0 0 .building with
        items := (batch n 0 0 .building).items ++ [tableItem n false false] } := by
      simp [batch, List.range_succ]
    rw [hbatch]
    rfl

/-- The requests of the pipeline are sent. -/
theorem reachable_sent {n k : ℕ} (h : k ≤ n) : (connection.guard kept).Reachable State.init
    ⟨⟨StmtCache.empty, n⟩, [batch n 0 0 (.sending k)], (List.range k).map tableWork, []⟩ := by
  induction k with
  | zero => exact Reaches.tail (reachable_built n) (l := .run 0) ⟨trivial, trivial⟩ rfl
  | succ k ih =>
    refine Reaches.tail (ih (Nat.le_of_succ_le h)) (l := .send 0) ⟨trivial, trivial⟩ ?_
    have hrequest : (batch n 0 0 (.sending k)).requests[k]? =
        some (some k, (tableItem k false false).messages) := by
      simp [requests_batch, Nat.lt_of_succ_le h]
    simp only [connection, step, List.getElem?_cons_zero, List.range_succ, List.map_append]
    rw [show (batch n 0 0 (.sending k)).stage = .sending k from rfl]
    simp only [hrequest]
    rfl

theorem awaiting_batchServed {n a : ℕ} (h : a < n) :
    (batchServed n a).awaiting (tableWork a) = some (batch n a 0 (.sending n)) := by
  have hlength : (batch n a 0 (.sending n)).items.length = n := by simp [batch]
  have hawaits : (batch n a 0 (.sending n)).awaits a = true := by
    rw [Call.awaits, hlength]
    simp [h, batch, Stage.unpublished?]
  simp [State.awaiting, tableWork, batchServed, hawaits]

theorem queue_batchServed {n a : ℕ} (h : a < n) :
    (batchServed n a).queue = tableWork a :: (batchServed n (a + 1)).queue := by
  have hlt : a < (List.range n).length := by simpa using h
  simp only [batchServed, List.drop_eq_getElem_cons hlt, List.getElem_range, List.map_cons]

/-- The server answers the next statement. -/
theorem step_batchServed {n a : ℕ} (h : a < n) :
    connection.step (batchServed n a) (.serve 5 {}) = some (batchServed n (a + 1)) := by
  have hanswer : (tableItem a false false).answer ⟨tables (a + 1),
      [(asBytes (stmtName a), asBytes (table a))], true⟩ {} = tableItem a true false := by
    simp [Item.answer, tableItem]
  have hset := @batch_set n a 0 a (.sending n) (.sending n) (a + 1) 0 fun j _ hne => by
    have hlt : j < a ↔ j < a + 1 := by omega
    simp [hlt]
  have hitem := @getElem?_batch n a 0 a (.sending n) h
  simp only [Nat.lt_irrefl, Nat.not_lt_zero, decide_false, Nat.lt_succ_self, decide_true]
    at hset hitem
  have hserve : Statements.serve 5 (tableWork a).messages (batchServed n a).alive =
      ⟨tables (a + 1), [(asBytes (stmtName a), asBytes (table a))], true⟩ :=
    serve_tableItem (isAlive_tables (Nat.le_refl a))
  simp only [connection, step, queue_batchServed h, hserve]
  simp only [tableWork, batchServed, List.modify_zero_cons, modify_eq_set hitem, hanswer, ← hset]
  rfl

/-- The pipeline holds what was answered. -/
theorem length_held_batch (n a next : ℕ) :
    (batch n a 0 (.sending next)).held.length = min n a := by
  rw [Call.held_sending rfl, Call.tokens, batch, List.flatMap_map]
  induction n with
  | zero => simp
  | succ n ih =>
    rw [List.range_succ, List.flatMap_append, List.length_append, ih]
    by_cases hlt : n < a <;> simp [Item.token, tableItem, hlt] <;> omega

theorem orphanless_batchServed {n a : ℕ} (h : a < n) :
    orphanless (batchServed n a) (.serve 5 {}) := by
  intro w hw
  rw [queue_batchServed h, List.head?_cons] at hw
  obtain rfl := Option.mem_some_iff.1 hw
  refine ⟨.inl (by rw [awaiting_batchServed h]; rfl), fun name hname => ?_⟩
  rw [show closes (tableWork a).messages = [] from
    closes_item (tableItem a false false)] at hname
  cases hname

/-- The server answers the first statements, as long as there is room. -/
theorem reachable_served {n a : ℕ} (h : a ≤ n) (hroom : a ≤ 257) :
    (connection.guard kept).Reachable State.init (batchServed n a) := by
  induction a with
  | zero => exact reachable_sent (Nat.le_refl n)
  | succ a ih =>
    refine Reaches.tail (ih (Nat.le_of_succ_le h) (Nat.le_of_succ_le hroom))
      ⟨orphanless_batchServed h, fun w hw _ c hc => .inr ?_⟩ (step_batchServed h)
    have hlength := length_held_batch n a n
    change 0 + ([batch n a 0 (.sending n)].flatMap Call.held).length < 256 + 1
    simp only [List.flatMap_singleton]
    omega

/-- The pipeline has published its first statements. -/
structure BatchPublished (n published : ℕ) (s : State) : Prop where
  calls : s.calls = [batch n n published (.publishing published)]
  alive : s.alive = tables n
  entries : ∀ e ∈ s.stmts.cache.entries, ∃ k < published, e.sql = table k

/-- The cache takes in one more statement, and lets another one go when it is full. -/
theorem mem_entries_cacheStatement {s : State} {sql str : String} {room : Bool} {e : Entry}
    (he : e ∈ (s.cacheStatement sql (asBytes str) room).stmts.cache.entries) :
    e ∈ s.stmts.cache.entries ∨ e.sql = sql := by
  unfold State.cacheStatement at he
  rcases Representation.cacheStatement_asBytes s.stmts sql str with
    ⟨-, heq⟩ | ⟨-, ⟨-, heq⟩ | ⟨-, old, -, -, heq⟩⟩
  · rw [heq] at he
    exact .inl he
  · rw [heq] at he
    rcases StmtCache.mem_insert.1 he with rfl | ⟨he, -⟩
    · exact .inr rfl
    · exact .inl he
  · rw [heq] at he
    rcases StmtCache.mem_insert.1 he with rfl | ⟨he, -⟩
    · exact .inr rfl
    · exact .inl (StmtCache.mem_erase.1 he).1

theorem alive_cacheStatement (s : State) (sql : String) (name : Bytes) (room : Bool) :
    (s.cacheStatement sql name room).alive = s.alive := by
  unfold State.cacheStatement
  split <;> rfl

/-- The pipeline publishes its next statement. -/
theorem BatchPublished.succ {n published : ℕ} {s : State} (h : BatchPublished n published s)
    (hlt : published < n) :
    ∃ s', (connection.guard kept).Reachable s s' ∧ BatchPublished n (published + 1) s' := by
  have hitem : (batch n n published (.publishing published)).items[published]? =
      some (tableItem published true false) := by
    simpa [hlt] using @getElem?_batch n n published published (.publishing published) hlt
  have hmiss : s.stmts.cache.get? (table published) = none := by
    refine StmtCache.get?_eq_none.2 fun e he => ?_
    obtain ⟨k, hk, heq⟩ := h.entries e he
    rw [heq]
    exact fun htable => Nat.ne_of_lt hk (table_injective htable)
  have hset := @batch_set n n published published (.publishing published)
    (.publishing (published + 1)) n (published + 1) fun j _ hne => by
      have hiff : j < published ↔ j < published + 1 := by omega
      simp [hiff]
  simp only [hlt, decide_true, Nat.lt_succ_self] at hset
  set s₁ := s.cacheStatement (table published) (asBytes (stmtName published)) true with hs₁
  have hstep : connection.step s (.publish 0 true) = some { s₁ with
      calls := [batch n n (published + 1) (.publishing (published + 1))] } := by
    simp only [connection, step, h.calls, List.getElem?_cons_zero]
    rw [show (batch n n published (.publishing published)).stage = .publishing published from rfl]
    simp only [hitem, ← hset]
    rfl
  have hkept : kept s (.publish 0 true) := by
    refine ⟨fun c hc next hnext it hit => ?_, fun c hc next hnext => ?_⟩ <;>
      (rw [h.calls, List.getElem?_cons_zero] at hc
       obtain rfl := Option.mem_some_iff.1 hc
       obtain rfl := Option.mem_some_iff.1 hnext)
    · rw [hitem] at hit
      obtain rfl := Option.mem_some_iff.1 hit
      refine ⟨fun _ e he => ?_, fun _ _ _ _ => rfl⟩
      rw [show s.stmts.cache.get? (tableItem published true false).sql = none from hmiss] at he
      cases he
    · rw [hitem]
      refine ⟨fun hnone => absurd hnone (Option.some_ne_none _), fun it hit _ => .inl ?_⟩
      obtain rfl := Option.mem_some_iff.1 hit
      rfl
  refine ⟨_, Reaches.tail (LTS.Reachable.refl s) hkept hstep, rfl, ?_, fun e he => ?_⟩
  · exact (alive_cacheStatement s _ _ true).trans h.alive
  · rcases mem_entries_cacheStatement he with he | he
    · obtain ⟨k, hk, heq⟩ := h.entries e he
      exact ⟨k, Nat.lt_succ_of_lt hk, heq⟩
    · exact ⟨published, Nat.lt_succ_self _, he⟩

/-- The pipeline has published all its statements and ends. -/
theorem BatchPublished.ends {n : ℕ} {s : State} (h : BatchPublished n n s) :
    ∃ s', (connection.guard kept).Reachable s s' ∧ s'.alive = tables n ∧ s'.inFlight = 0 := by
  set c := batch n n n (.publishing n) with hc
  have hnone : c.items[n]? = none := by simp [hc, batch]
  have hheld : c.held = [] := by
    rw [Call.held_publishing rfl, List.drop_eq_nil_of_le (List.getElem?_eq_none_iff.1 hnone)]
    rfl
  have hsingle : s.Single := fun d hd => by
    rw [h.calls] at hd
    rw [List.mem_singleton.1 hd, hheld]
    exact Nat.zero_le 1
  have hkept : kept s (.publish 0 true) := by
    refine ⟨fun d hd next hnext => ?_, fun d hd next hnext => ?_⟩ <;>
      (rw [h.calls, List.getElem?_cons_zero] at hd
       obtain rfl := Option.mem_some_iff.1 hd
       obtain rfl := Option.mem_some_iff.1 hnext
       rw [hnone])
    · nofun
    · exact ⟨fun _ => .inl ⟨hsingle, hheld⟩, nofun⟩
  have hstep : connection.step s (.publish 0 true) = some { s with calls := [c.over] } := by
    have hcalls : s.calls = [c] := h.calls
    simp only [connection, step, hcalls, List.getElem?_cons_zero]
    rw [show c.stage = .publishing n from rfl]
    simp only [hnone]
    rfl
  exact ⟨_, Reaches.tail (LTS.Reachable.refl s) hkept hstep, h.alive, rfl⟩

/-- A pipeline publishes its statements, if there is room for them. -/
theorem exists_batchPublished {n : ℕ} (hn : n ≤ 257) {published : ℕ} (h : published ≤ n) :
    ∃ s, (connection.guard kept).Reachable State.init s ∧ BatchPublished n published s := by
  induction published with
  | zero =>
    have hkept : kept (batchServed n n) (.resume 0) := by
      refine ⟨fun c hc => .inl ?_, fun c hc => .inl ?_⟩ <;>
        (obtain rfl := Option.mem_some_iff.1 hc
         rfl)
    have hstep : connection.step (batchServed n n) (.resume 0) =
        some ⟨⟨StmtCache.empty, n⟩, [batch n n 0 (.publishing 0)], [], tables n⟩ := by
      simp only [connection, step, batchServed, List.getElem?_cons_zero, requests_batch,
        List.length_map, List.length_range]
      simp [batch]
    exact ⟨_, Reaches.tail (reachable_served (Nat.le_refl n) hn) hkept hstep, rfl, rfl,
      fun e he => absurd he List.not_mem_nil⟩
  | succ published ih =>
    obtain ⟨s, hreach, hs⟩ := ih (Nat.le_of_succ_le h)
    obtain ⟨s', hreach', hs'⟩ := hs.succ h
    exact ⟨s', hreach.trans hreach', hs'⟩

/-- A pipeline with just as many statements as there is room for: the last one evicts the first. -/
theorem unclosed_le_batch : ∃ s, (connection.guard kept).Reachable State.init s ∧
    s.alive.length = 257 ∧ s.inFlight = 0 ∧ s.unclosed.length ≤ 256 + s.inFlight := by
  obtain ⟨s, hreach, hs⟩ := exists_batchPublished (Nat.le_refl 257) (Nat.le_refl 257)
  obtain ⟨s', hreach', halive, hflight⟩ := hs.ends
  refine ⟨s', hreach.trans hreach', ?_, hflight, unclosed_le (hreach.trans hreach')⟩
  rw [halive, length_tables]

/-- **A pipeline can be too long.**  Once it holds 257 statements, one more makes no orphan and is
one too many. -/
theorem exists_overfull : ∃ s l s', (connection.guard kept).Reachable State.init s ∧
    orphanless s l ∧ connection.step s l = some s' ∧
      256 + s'.inFlight < s'.unclosed.length := by
  have hlt : 257 < 258 := Nat.lt_succ_self 257
  refine ⟨batchServed 258 257, .serve 5 {}, batchServed 258 258,
    reachable_served (Nat.le_of_lt hlt) (Nat.le_refl 257), orphanless_batchServed hlt,
    step_batchServed hlt, ?_⟩
  have hqueue : (batchServed 258 258).queue = [] := by
    rw [batchServed, List.drop_eq_nil_of_le (Nat.le_of_eq List.length_range)]
    rfl
  have hopen : (batchServed 258 258).unclosed = tables 258 := List.filter_eq_self.2 fun p _ => by
    simp [State.closing, hqueue]
  rw [hopen, length_tables]
  exact Nat.lt_succ_self 257

end Resolute.Conn.Statements
