import Mathlib.Data.List.Perm.Subperm
import Resolute.Conn.Representation
import Resolute.Conn.Statements

/-!
# Statements that nobody closes any more

A successful `Parse` creates a statement, and only the `Close` for an entry that the cache evicts
frees one.  A statement is *managed* by the cache if an entry has its name or its `Close` is queued;
it is *held* by a call if it was accepted and the call has still to publish it.  All others are
orphans: they stay on the server for the whole session.  An orphan is made
* by a call that fails, or is dropped, after its `Parse`;
* by a call that publishes its SQL after another one;
* by an entry that is invalidated while its statement is there;
* by an eviction whose `Close` finds no room in the channel.

`orphanless` excludes these steps, and `NoOrphans` is the invariant of the runs without them.  With
them nothing bounds the number of orphans: `exists_orphans` lets one call after another fail.
-/

namespace Resolute.Conn.Statements

/-- The names for which a `Close` is queued. -/
def State.closing (s : State) : List Bytes := s.queue.flatMap fun w => closes w.messages

/-- The statements on the server for which no `Close` is queued. -/
def State.unclosed (s : State) : List (Bytes × Bytes) := s.alive.filter (·.1 ∉ s.closing)

/-- The number of calls that are not over. -/
def State.inFlight (s : State) : ℕ := s.calls.countP (·.stage ≠ .done)

/-- The cache closes the statement some day, or its `Close` is queued. -/
def State.Managed (s : State) (name : Bytes) : Prop :=
  name ∈ cacheNames s.stmts.cache ∨ name ∈ s.closing

/-! ### What the calls hold -/

/-- The first statement that a call has not published, while it can still publish it. -/
def Stage.unpublished? : Stage → Option ℕ
  | .sending _ => some 0
  | .publishing next => some next
  | _ => none

/-- The statement that the call publishes next. -/
def Stage.publishing? : Stage → Option ℕ
  | .publishing next => some next
  | _ => none

/-- The names that the call holds: accepted, and still to be published. -/
def Call.held (c : Call) : List Bytes := match c.stage.unpublished? with
  | some j => (c.items.drop j).flatMap Item.token
  | none => []

/-- The call hears of the statement `k` before it publishes it. -/
def Call.awaits (c : Call) (k : ℕ) : Bool :=
  decide (k < c.items.length) && c.stage.unpublished?.any (· ≤ k)

/-- The call that hears of the request. -/
def State.awaiting (s : State) (w : Work) : Option Call :=
  w.origin.bind fun (i, k) => (s.calls[i]?).filter (·.awaits k)

/-- The number of the entries and of the statements that calls hold. -/
def State.load (s : State) : ℕ :=
  s.stmts.cache.entries.length + (s.calls.flatMap Call.held).length

instance (s : State) (name : Bytes) : Decidable (s.Managed name) :=
  inferInstanceAs (Decidable (_ ∨ _))

/-! ### The condition -/

/-- The step makes no orphan:
* the server accepts a `Parse` only for a call that hears of it before it publishes the statement,
  or whose name is managed by the cache, and it carries out each `Close`;
* a call fails or is dropped only if all that it holds is managed by the cache;
* a statement that was accepted is published only if no other name has an entry for its SQL, and
  there is room for the `Close` of a statement that is evicted and on the server;
* only entries are invalidated whose statement is gone. -/
def orphanless (s : State) : Label → Prop
  | .serve n _ => ∀ w ∈ s.queue.head?,
    ((s.awaiting w).isSome = true ∨
      ∀ p ∈ (Statements.serve n w.messages s.alive).parsed, s.Managed p.1) ∧
    ∀ name ∈ closes w.messages, isAlive (Statements.serve n w.messages s.alive).alive name = false
  | .resume i => ∀ c ∈ s.calls[i]?,
    c.pipeline = true ∨ (∀ it ∈ c.items, it.reply = some (.ok ())) ∨ ∀ n ∈ c.held, s.Managed n
  | .publish i room => ∀ c ∈ s.calls[i]?, ∀ next ∈ c.stage.publishing?, ∀ it ∈ c.items[next]?,
    (it.accepted = true → ∀ e ∈ s.stmts.cache.get? it.sql, asBytes e.name = it.name) ∧
      (it.needsParse = true → ∀ old ∈ (s.stmts.cacheStatement it.sql it.name).2,
        isAlive s.alive (asBytes old) = true → room = true)
  | .invalidate i => ∀ c ∈ s.calls[i]?, ∀ it ∈ c.items, ∀ e ∈ s.stmts.cache.get? it.sql,
    isAlive s.alive (asBytes e.name) = false
  | .cancel i => ∀ c ∈ s.calls[i]?, ∀ n ∈ c.held, s.Managed n
  | _ => True

instance (s : State) : (l : Label) → Decidable (orphanless s l)
  | .serve _ _ | .resume _ | .publish _ _ | .invalidate _ | .cancel _ => by
    unfold orphanless
    infer_instance
  | .call _ _ | .pipeline | .add _ _ _ | .run _ | .send _ | .lookupAgain _ => .isTrue trivial

/-! ### The server -/

theorem mem_serve {p : Bytes × Bytes} {n : ℕ} {ms : List FrontendMsg}
    {alive : List (Bytes × Bytes)} (h : p ∈ (serve n ms alive).alive) :
    p ∈ alive ∨ p ∈ (serve n ms alive).parsed := by
  induction ms generalizing n alive with
  | nil => cases n <;> exact .inl h
  | cons m ms ih =>
    cases n with
    | zero => exact .inl h
    | succ n =>
      cases m with
      | parse name sql oids =>
        rw [serve] at h ⊢
        by_cases halive : isAlive alive name = true
        · rw [if_pos halive] at h
          exact .inl h
        · rw [if_neg halive] at h ⊢
          rcases ih h with h | h
          · rcases List.mem_cons.1 h with rfl | h
            · exact .inr List.mem_cons_self
            · exact .inl h
          · exact .inr (List.mem_cons_of_mem _ h)
      | bind portal name =>
        rw [serve] at h ⊢
        by_cases halive : isAlive alive name = true
        · rw [if_pos halive] at h ⊢
          exact ih h
        · rw [if_neg halive] at h
          exact .inl h
      | close kind name => exact (ih h).imp_left fun h => (List.mem_filter.1 h).1
      | _ => exact ih h

/-- The server keeps its names apart. -/
theorem nodup_serve {n : ℕ} {ms : List FrontendMsg} {alive : List (Bytes × Bytes)}
    (h : (alive.map Prod.fst).Nodup) : ((serve n ms alive).alive.map Prod.fst).Nodup := by
  induction ms generalizing n alive with
  | nil => cases n <;> exact h
  | cons m ms ih =>
    cases n with
    | zero => exact h
    | succ n =>
      cases m with
      | parse name sql oids =>
        rw [serve]
        by_cases halive : isAlive alive name = true
        · rw [if_pos halive]
          exact h
        · rw [if_neg halive]
          refine ih (List.nodup_cons.2 ⟨fun hmem => halive ?_, h⟩)
          obtain ⟨p, hp, rfl⟩ := List.mem_map.1 hmem
          exact isAlive_of_mem hp
      | bind portal name =>
        rw [serve]
        split_ifs
        · exact ih h
        · exact h
      | close kind name => exact ih (h.sublist (List.filter_sublist.map _))
      | _ => exact ih h

theorem needsParse_of_parsed {it : Item} {n : ℕ} {alive : List (Bytes × Bytes)}
    (h : (serve n it.messages alive).parsed ≠ []) : it.needsParse = true := by
  obtain ⟨tail, oids, hplain, heq⟩ := it.messages_eq
  by_contra hparse
  rw [heq, if_neg hparse] at h
  exact h (serve_plain hplain n alive).2

/-! ### The invariant -/

/-- What holds of the statements of a call. -/
structure Call.Tidy (c : Call) : Prop where
  named : ∀ it ∈ c.items, ∃ str, it.name = asBytes str
  parsed : ∀ it ∈ c.items, it.accepted = true → it.needsParse = true
  building : c.stage = .building → c.tokens = []

/-- There are no orphans: every statement on the server is managed by the cache or held by a
call. -/
structure NoOrphans (s : State) : Prop where
  nodup : (s.alive.map Prod.fst).Nodup
  size : s.stmts.cache.entries.length ≤ Stmts.cap
  calls : ∀ c ∈ s.calls, c.Tidy
  queued : ∀ w ∈ s.queue, Queued s.calls w
  owned : ∀ p ∈ s.alive, s.Managed p.1 ∨ ∃ c ∈ s.calls, p.1 ∈ c.held

theorem Call.held_sending {c : Call} {n : ℕ} (h : c.stage = .sending n) : c.held = c.tokens := by
  rw [Call.held, h]
  rfl

theorem Call.held_publishing {c : Call} {n : ℕ} (h : c.stage = .publishing n) :
    c.held = (c.items.drop n).flatMap Item.token := by
  rw [Call.held, h]
  rfl

theorem Call.held_eq_nil {c : Call} (h : c.stage.unpublished? = none) : c.held = [] := by
  rw [Call.held, h]

@[simp] theorem Call.held_over (c : Call) : c.over.held = [] := rfl

/-- A call that was just made. -/
theorem tidy_single (retried : Bool) {it : Item} (haccepted : it.accepted = false)
    (hname : ∃ str, it.name = asBytes str) : Call.Tidy ⟨false, retried, [it], .sending 0⟩ := by
  refine ⟨List.forall_mem_singleton.2 hname, List.forall_mem_singleton.2 fun ha => ?_, nofun⟩
  rw [haccepted] at ha
  cases ha

theorem Call.over_tidy (c : Call) : c.over.Tidy :=
  ⟨List.forall_mem_nil _, List.forall_mem_nil _, fun _ => rfl⟩

/-- A call moves on, with the same statements. -/
theorem Call.Tidy.toStage {c : Call} (h : c.Tidy) {stage : Stage} (hne : stage ≠ .building) :
    Call.Tidy { c with stage := stage } :=
  { h with building := fun hs => absurd hs hne }

theorem lookup_item (s : State) (sql : String) (stmt : Stmt) :
    (s.lookup sql stmt).1.accepted = false ∧ (∃ str, (s.lookup sql stmt).1.name = asBytes str) ∧
      (s.lookup sql stmt).2.cache = s.stmts.cache := by
  cases hget : s.stmts.cache.get? sql with
  | some e =>
    rw [State.lookup, Stmts.lookupOrAlloc_hit hget]
    exact ⟨rfl, ⟨_, rfl⟩, rfl⟩
  | none =>
    rw [State.lookup, Stmts.lookupOrAlloc_miss hget]
    exact ⟨rfl, ⟨_, rfl⟩, rfl⟩

/-- A statement is added to a pipeline. -/
theorem Call.Tidy.add {c : Call} (h : c.Tidy) (hstage : c.stage = .building) {it : Item}
    (haccepted : it.accepted = false) (hname : ∃ str, it.name = asBytes str) :
    Call.Tidy { c with items := c.items ++ [it] } where
  named := fun it' hit => by
    rcases List.mem_append.1 hit with hit | hit
    · exact h.named it' hit
    · exact List.mem_singleton.1 hit ▸ hname
  parsed := fun it' hit ha => by
    rcases List.mem_append.1 hit with hit | hit
    · exact h.parsed it' hit ha
    · rw [List.mem_singleton.1 hit, haccepted] at ha
      cases ha
  building := fun _ => by
    simpa [Call.tokens, Item.token, haccepted] using h.building hstage

/-- A statement of the call is published: the call holds the others as before. -/
theorem Call.Tidy.publish {c : Call} (h : c.Tidy) {next : ℕ} (hstage : c.stage = .publishing next)
    {it : Item} (hit : c.items[next]? = some it) (c' : Call) (hc' : c' = { c with
      items := c.items.set next { it with accepted := false }
      stage := .publishing (next + 1) }) : c'.Tidy ∧ c.held = it.token ++ c'.held := by
  subst hc'
  obtain ⟨hlt, rfl⟩ := List.getElem?_eq_some_iff.1 hit
  refine ⟨⟨fun it' hit' => ?_, fun it' hit' ha => ?_, nofun⟩, ?_⟩
  · rcases List.mem_or_eq_of_mem_set hit' with hit' | rfl
    · exact h.named it' hit'
    · exact h.named c.items[next] (List.getElem_mem hlt)
  · rcases List.mem_or_eq_of_mem_set hit' with hit' | rfl
    · exact h.parsed it' hit' ha
    · cases ha
  · rw [Call.held_publishing hstage, Call.held_publishing rfl, List.drop_eq_getElem_cons hlt,
      List.flatMap_cons, List.drop_set_of_lt (Nat.lt_succ_self next)]

/-- A call hears of its statement `k`, or of one that it does not care for any more. -/
theorem Call.held_set {c : Call} {k : ℕ} {it : Item} (hit : c.items[k]? = some it) (it' : Item) :
    (c.awaits k = true ∧ ∃ l : List Item, c.held = l.flatMap Item.token ∧ ∃ j, l[j]? = some it ∧
      Call.held { c with items := c.items.set k it' } = (l.set j it').flatMap Item.token) ∨
    c.awaits k = false ∧ Call.held { c with items := c.items.set k it' } = c.held := by
  have hlt := (List.getElem?_eq_some_iff.1 hit).1
  cases hstage : c.stage.unpublished? with
  | none => exact .inr ⟨by simp [Call.awaits, hstage], by simp [Call.held, hstage]⟩
  | some j =>
    simp only [Call.held, Call.awaits, hstage, hlt, List.drop_set, Option.any_some, decide_true,
      Bool.true_and, decide_eq_true_eq, decide_eq_false_iff_not, Nat.not_le]
    by_cases hkj : k < j
    · exact .inr ⟨hkj, by rw [if_pos hkj]⟩
    · refine .inl ⟨Nat.le_of_not_lt hkj, _, rfl, k - j, ?_, by rw [if_neg hkj]⟩
      rw [List.getElem?_drop, Nat.add_sub_cancel' (Nat.le_of_not_lt hkj), hit]

theorem Item.length_token_le (it : Item) : it.token.length ≤ 1 := by
  unfold Item.token
  split_ifs
  · exact Nat.le_refl 1
  · exact Nat.zero_le 1

/-- The lengths of what the elements of a list contribute. -/
theorem tally_length {α β : Type} (f : α → List β) (l : List α) :
    tally (fun a => ((f a).length : ℤ)) l = (l.flatMap f).length := by
  induction l with
  | nil => rfl
  | cons a l ih => rw [tally_cons, ih, List.flatMap_cons, List.length_append, Int.natCast_add]

theorem length_flatMap_set {α β : Type} {l : List α} {i : ℕ} {a : α} (h : l[i]? = some a) (b : α)
    (f : α → List β) : (((l.set i b).flatMap f).length : ℤ) =
      (l.flatMap f).length - (f a).length + (f b).length := by
  rw [← tally_length, tally_set h, tally_length]

/-- A statement of the call is answered. -/
theorem Call.Tidy.answer {c : Call} (h : c.Tidy) {k : ℕ} {it : Item} (hit : c.items[k]? = some it)
    (hbuilding : c.stage ≠ .building) (r : Served) (e : PgError)
    (hparsed : (it.name, asBytes it.sql) ∈ r.parsed → it.needsParse = true) :
    Call.Tidy { c with items := c.items.set k (it.answer r e) } where
  named := fun it' hit' => by
    rcases List.mem_or_eq_of_mem_set hit' with hit' | rfl
    · exact h.named it' hit'
    · exact h.named it (List.mem_of_getElem? hit)
  parsed := fun it' hit' ha => by
    rcases List.mem_or_eq_of_mem_set hit' with hit' | rfl
    · exact h.parsed it' hit' ha
    · simp only [Item.answer, Bool.or_eq_true, decide_eq_true_eq] at ha
      exact ha.elim (h.parsed it (List.mem_of_getElem? hit)) hparsed
  building := fun hs => absurd hs hbuilding

/-- The call holds what it held, and the statement that was accepted if it hears of it. -/
theorem Call.held_answer {c : Call} {k : ℕ} {it : Item} (hit : c.items[k]? = some it)
    (r : Served) (e : PgError) (c' : Call)
    (hc' : c' = { c with items := c.items.set k (it.answer r e) }) :
    (∀ n ∈ c.held, n ∈ c'.held) ∧ c'.held.length ≤ c.held.length + 1 ∧
      ((it.name, asBytes it.sql) ∉ r.parsed ∨ c.awaits k = false →
        c'.held.length = c.held.length) ∧
      ((it.name, asBytes it.sql) ∈ r.parsed → c.awaits k = true → it.name ∈ c'.held) := by
  subst hc'
  rcases Call.held_set hit (it.answer r e) with ⟨hawaits, l, hheld, j, hj, hset⟩ | ⟨hawaits, hset⟩
  · have hlength := length_flatMap_set hj (it.answer r e) Item.token
    have hone := (it.answer r e).length_token_le
    have hgrows : ∀ n ∈ it.token, n ∈ (it.answer r e).token := fun n hn => by
      unfold Item.token at hn ⊢
      split_ifs at hn with ha
      · rw [if_pos (by simp [Item.answer, ha])]
        exact hn
      · cases hn
    rw [hset, hheld]
    refine ⟨fun n hn => ?_, by omega, fun hno => ?_, fun hmem _ => ?_⟩
    · obtain ⟨it₀, h₀, hn⟩ := List.mem_flatMap.1 hn
      obtain ⟨i, hi⟩ := List.mem_iff_getElem?.1 h₀
      by_cases hij : j = i
      · subst hij
        rw [hj] at hi
        cases hi
        exact List.mem_flatMap.2 ⟨_, List.mem_set (List.getElem?_eq_some_iff.1 hj).1 _, hgrows n hn⟩
      · have hi' : (l.set j (it.answer r e))[i]? = some it₀ := by
          rw [List.getElem?_set_ne hij, hi]
        exact List.mem_flatMap.2 ⟨it₀, List.mem_of_getElem? hi', hn⟩
    · have hno' := hno.resolve_right (by simp [hawaits])
      have htoken : (it.answer r e).token = it.token := by simp [Item.token, Item.answer, hno']
      rw [htoken] at hlength
      omega
    · refine List.mem_flatMap.2 ⟨_, List.mem_set (List.getElem?_eq_some_iff.1 hj).1 _, ?_⟩
      simp [Item.token, Item.answer, hmem]
  · rw [hset]
    exact ⟨fun _ => id, Nat.le_succ _, fun _ => rfl, fun _ h => by rw [hawaits] at h; cases h⟩

namespace NoOrphans

variable {s : State} {i : ℕ} {c c' : Call}

/-- A call changes; what it held stays with it, or is managed by the cache. -/
theorem set (h : NoOrphans s) (hc : s.calls[i]? = some c) (htidy : c'.Tidy) (hf : c.Follows c')
    (hheld : ∀ n ∈ c.held, n ∈ c'.held ∨ s.Managed n) :
    NoOrphans { s with calls := s.calls.set i c' } where
  nodup := h.nodup
  size := h.size
  calls := fun d hd => (List.mem_or_eq_of_mem_set hd).elim (h.calls d) fun heq => heq ▸ htidy
  queued := fun w hw => (h.queued w hw).set hc hf
  owned := fun p hp => by
    have hc' : c' ∈ s.calls.set i c' := List.mem_set (List.getElem?_eq_some_iff.1 hc).1 _
    rcases h.owned p hp with hn | ⟨d, hd, hn⟩
    · exact .inl hn
    · obtain ⟨j, hj⟩ := List.mem_iff_getElem?.1 hd
      by_cases hij : i = j
      · subst hij
        rw [hc] at hj
        cases hj
        exact (hheld _ hn).elim (fun hn => .inr ⟨c', hc', hn⟩) .inl
      · have hd' : (s.calls.set i c')[j]? = some d := by rw [List.getElem?_set_ne hij, hj]
        exact .inr ⟨d, List.mem_of_getElem? hd', hn⟩

/-- A call moves on. -/
theorem toStage (h : NoOrphans s) (hc : s.calls[i]? = some c) {stage : Stage}
    (hne : stage ≠ .building)
    (hheld : ∀ n ∈ c.held, n ∈ Call.held { c with stage := stage } ∨ s.Managed n) :
    NoOrphans { s with calls := s.calls.set i { c with stage := stage } } :=
  h.set hc ((h.calls c (List.mem_of_getElem? hc)).toStage hne) (c.follows_toStage hne) hheld

/-- A call ends; what it held is managed by the cache. -/
theorem ends (h : NoOrphans s) (hc : s.calls[i]? = some c) (hheld : ∀ n ∈ c.held, s.Managed n) :
    NoOrphans { s with calls := s.calls.set i c.over } :=
  h.set hc c.over_tidy c.follows_over fun n hn => .inr (hheld n hn)

/-- A lookup moves the counter only. -/
theorem counter (h : NoOrphans s) {stmts : Stmts} (hcache : stmts.cache = s.stmts.cache) :
    NoOrphans { s with stmts := stmts } where
  nodup := h.nodup
  size := by rw [hcache]; exact h.size
  calls := h.calls
  queued := h.queued
  owned := fun p hp => by
    have hown := h.owned p hp
    rw [State.Managed, ← hcache] at hown
    exact hown

/-- A call begins. -/
theorem append (h : NoOrphans s) (htidy : c.Tidy) :
    NoOrphans { s with calls := s.calls ++ [c] } where
  nodup := h.nodup
  size := h.size
  calls := fun d hd => (List.mem_append.1 hd).elim (h.calls d) fun hd =>
    List.mem_singleton.1 hd ▸ htidy
  queued := fun w hw => (h.queued w hw).append c
  owned := fun p hp => (h.owned p hp).imp_right fun ⟨d, hd, hn⟩ =>
    ⟨d, List.mem_append_left _ hd, hn⟩

/-- A request enters the queue. -/
theorem enqueue (h : NoOrphans s) {w : Work} (hw : Queued s.calls w) :
    NoOrphans { s with queue := s.queue ++ [w] } where
  nodup := h.nodup
  size := h.size
  calls := h.calls
  queued := fun w' hw' => (List.mem_append.1 hw').elim (h.queued w') fun hw' =>
    List.mem_singleton.1 hw' ▸ hw
  owned := fun p hp => (h.owned p hp).imp_left <| Or.imp_right fun hc => by
    simp only [State.closing, List.flatMap_append]
    exact List.mem_append_left _ hc

/-- An entry is removed whose statement is gone. -/
theorem invalidate (h : NoOrphans s) {sql : String}
    (hgone : ∀ e ∈ s.stmts.cache.get? sql, isAlive s.alive (asBytes e.name) = false) :
    NoOrphans { s with stmts := s.stmts.invalidateStatement sql } where
  nodup := h.nodup
  size := (List.length_filter_le _ _).trans h.size
  calls := h.calls
  queued := h.queued
  owned := fun p hp => (h.owned p hp).imp_left <| Or.imp_left fun hc => by
    obtain ⟨e, he, hname⟩ := List.mem_map.1 hc
    refine List.mem_map.2 ⟨e, StmtCache.mem_erase.2 ⟨he, fun hsql => ?_⟩, hname⟩
    have halive := hgone e (hsql ▸ StmtCache.get?_of_mem he)
    rw [hname, isAlive_of_mem hp] at halive
    cases halive

/-- An entry gets a free place. -/
theorem insert (h : NoOrphans s) {e : Entry} (hnone : s.stmts.cache.get? e.sql = none)
    (hlt : s.stmts.cache.entries.length < Stmts.cap) :
    NoOrphans { s with stmts := { s.stmts with cache := s.stmts.cache.insert e } } := by
  have hentries := Representation.entries_insert hnone
  refine ⟨h.nodup, ?_, h.calls, h.queued, fun p hp => ?_⟩
  · simp only [hentries, List.length_cons]
    exact hlt
  · refine (h.owned p hp).imp_left <| Or.imp_left fun hc => ?_
    simp only [cacheNames, hentries]
    exact List.mem_cons_of_mem _ hc

/-- An entry is removed, and its `Close` is queued if there is room; if there is none, the statement
was gone already. -/
theorem evict (h : NoOrphans s) {old : Entry} (hold : old ∈ s.stmts.cache.entries) {room : Bool}
    (hroom : isAlive s.alive (asBytes old.name) = true → room = true) :
    NoOrphans { s with
      stmts := { s.stmts with cache := s.stmts.cache.erase old.sql }
      queue := if room then s.queue ++ [⟨Stmts.closeMessages old.name, none⟩] else s.queue } := by
  refine ⟨h.nodup, (Representation.length_erase_lt hold).le.trans h.size, h.calls, fun w hw => ?_,
    fun p hp => (h.owned p hp).imp_left fun hm => ?_⟩
  · simp only at hw
    split_ifs at hw
    · rcases List.mem_append.1 hw with hw | hw
      · exact h.queued w hw
      · rw [List.mem_singleton.1 hw]
        exact Or.inr ⟨old.name, rfl⟩
    · exact h.queued w hw
  · rcases hm with hc | hc
    · obtain ⟨e, he, hname⟩ := List.mem_map.1 hc
      by_cases hsql : e.sql = old.sql
      · -- the entry that was evicted: its name is in the `Close`
        obtain rfl := StmtCache.eq_of_sql_eq he hold hsql
        have hopen := hroom (hname ▸ isAlive_of_mem hp)
        refine .inr ?_
        simp only [State.closing, hopen, if_true, List.flatMap_append, List.flatMap_singleton,
          closes_closeMessages, List.mem_append, List.mem_singleton]
        exact .inr hname.symm
      · exact .inl (List.mem_map.2 ⟨e, StmtCache.mem_erase.2 ⟨he, hsql⟩, hname⟩)
    · refine .inr ?_
      cases room with
      | true =>
        simp only [State.closing, if_true, List.flatMap_append]
        exact List.mem_append_left _ hc
      | false => exact hc

/-- An entry is published; the one that makes room for it is closed, or was gone already. -/
theorem cacheStatement (h : NoOrphans s) {sql str : String} {room : Bool}
    (hroom : ∀ old ∈ (s.stmts.cacheStatement sql (asBytes str)).2,
      isAlive s.alive (asBytes old) = true → room = true) :
    NoOrphans (s.cacheStatement sql (asBytes str) room) ∧
      ((∀ e ∈ s.stmts.cache.get? sql, asBytes e.name = asBytes str) →
        asBytes str ∈ cacheNames (s.cacheStatement sql (asBytes str) room).stmts.cache) := by
  unfold State.cacheStatement
  rcases Representation.cacheStatement_asBytes s.stmts sql str with
    ⟨hsome, heq⟩ | ⟨hnone, ⟨hlt, heq⟩ | ⟨hge, old, hold, -, heq⟩⟩
  · rw [heq]
    refine ⟨h, fun hname => ?_⟩
    obtain ⟨e, he⟩ := Option.isSome_iff_exists.1 hsome
    exact List.mem_map.2 ⟨e, (StmtCache.of_get?_eq_some he).1, hname e he⟩
  · rw [heq]
    exact ⟨h.insert hnone hlt, fun _ => List.mem_cons_self⟩
  · have hnone' : (s.stmts.cache.erase old.sql).get? sql = none :=
      StmtCache.get?_eq_none.2 fun e he =>
        StmtCache.get?_eq_none.1 hnone e (StmtCache.mem_erase.1 he).1
    rw [heq] at hroom ⊢
    exact ⟨(h.evict hold (hroom old.name rfl)).insert hnone'
      ((Representation.length_erase_lt hold).trans_le h.size), fun _ => List.mem_cons_self⟩

theorem calls_cacheStatement (s : State) (sql : String) (name : Bytes) (room : Bool) :
    (s.cacheStatement sql name room).calls = s.calls := by
  unfold State.cacheStatement
  split <;> rfl

/-- A call publishes its next statement. -/
theorem publish (h : NoOrphans s) {next : ℕ} {it : Item} {room : Bool} (hc : s.calls[i]? = some c)
    (hstage : c.stage = .publishing next) (hit : c.items[next]? = some it)
    (haccepted : it.accepted = true →
      ∀ e ∈ s.stmts.cache.get? it.sql, asBytes e.name = it.name)
    (hroom : it.needsParse = true → ∀ old ∈ (s.stmts.cacheStatement it.sql it.name).2,
      isAlive s.alive (asBytes old) = true → room = true) :
    NoOrphans { (if it.needsParse then s.cacheStatement it.sql it.name room else s) with
      calls := s.calls.set i { c with
        items := c.items.set next { it with accepted := false }
        stage := .publishing (next + 1) } } := by
  have htidy := h.calls c (List.mem_of_getElem? hc)
  have hitem := List.mem_of_getElem? hit
  have hfollows : c.Follows { c with
      items := c.items.set next { it with accepted := false }, stage := .publishing (next + 1) } :=
    Call.follows_set hit rfl fun _ => nofun
  obtain ⟨htidy', hheld⟩ := htidy.publish hstage hit _ rfl
  obtain ⟨str, hname⟩ := htidy.named it hitem
  by_cases hparse : it.needsParse = true
  · obtain ⟨hs, hcached⟩ : NoOrphans (s.cacheStatement it.sql it.name room) ∧
        ((∀ e ∈ s.stmts.cache.get? it.sql, asBytes e.name = it.name) →
          it.name ∈ cacheNames (s.cacheStatement it.sql it.name room).stmts.cache) := by
      rw [hname]
      exact h.cacheStatement (hname ▸ hroom hparse)
    have hcalls := calls_cacheStatement s it.sql it.name room
    have hset := hs.set (hcalls ▸ hc) htidy' hfollows fun n hn => by
      rw [hheld, List.mem_append] at hn
      refine hn.symm.imp_right fun hn => ?_
      unfold Item.token at hn
      split_ifs at hn with ha
      · rw [List.mem_singleton.1 hn]
        exact .inl (hcached (haccepted ha))
      · cases hn
    rw [if_pos hparse]
    rwa [hcalls] at hset
  · have hnone : it.token = [] := by
      rw [Item.token, if_neg fun ha => hparse (htidy.parsed it hitem ha)]
    rw [if_neg hparse]
    exact h.set hc htidy' hfollows fun n hn => .inl (by rwa [hheld, hnone] at hn)

/-- The server takes a request off the queue and keeps no statement that it closes. -/
theorem handle (h : NoOrphans s) {w : Work} {rest : List Work} (hq : s.queue = w :: rest)
    {alive : List (Bytes × Bytes)} (hnodup : (alive.map Prod.fst).Nodup)
    (hnew : ∀ p ∈ alive, p ∈ s.alive ∨ s.Managed p.1 ∨ ∃ c ∈ s.calls, p.1 ∈ c.held)
    (hclosed : ∀ p ∈ alive, p.1 ∉ closes w.messages) :
    NoOrphans { s with queue := rest, alive := alive } where
  nodup := hnodup
  size := h.size
  calls := h.calls
  queued := fun w' hw' => h.queued w' (hq ▸ List.mem_cons_of_mem _ hw')
  owned := fun p hp => by
    refine ((hnew p hp).elim (h.owned p) id).imp_left <| Or.imp_right fun hc => ?_
    simp only [State.closing, hq, List.flatMap_cons, List.mem_append] at hc
    exact hc.resolve_left (hclosed p hp)

/-- The response to a request reaches the statement that it comes from. -/
theorem respond (h : NoOrphans s) {w : Work} (hw : w ∈ s.queue) (n : ℕ) (e : PgError) :
    let r := Statements.serve n w.messages s.alive
    NoOrphans { s with calls := match w.origin with
        | some (i, k) =>
          s.calls.modify i fun c => { c with items := c.items.modify k (.answer r e) }
        | none => s.calls } ∧
      ((s.awaiting w).isSome = true → ∀ p ∈ r.parsed, ∃ c ∈ (match w.origin with
        | some (i, k) =>
          s.calls.modify i fun c => { c with items := c.items.modify k (.answer r e) }
        | none => s.calls), p.1 ∈ c.held) := by
  intro r
  have hqueued := h.queued w hw
  unfold Queued at hqueued
  unfold State.awaiting
  split at hqueued
  · rename_i horigin
    simp only [horigin]
    exact ⟨h, nofun⟩
  · rename_i i k horigin
    obtain ⟨-, c, hc, hbuilding, hitem⟩ := hqueued
    simp only [horigin, modify_eq_set hc]
    cases hit : c.items[k]? with
    | none =>
      have hset : s.calls.set i c = s.calls := by
        obtain ⟨hlt, rfl⟩ := List.getElem?_eq_some_iff.1 hc
        exact List.set_getElem_self hlt
      simp only [List.modify_eq_self (List.getElem?_eq_none_iff.1 hit), hset]
      refine ⟨h, fun hsome => ?_⟩
      have hlen : ¬k < c.items.length := Nat.not_lt.2 (List.getElem?_eq_none_iff.1 hit)
      simp [hc, Call.awaits, hlen] at hsome
    | some it =>
      simp only [modify_eq_set hit]
      have hr : r = Statements.serve n it.messages s.alive := hitem it hit ▸ rfl
      have hparsed : (it.name, asBytes it.sql) ∈ r.parsed → it.needsParse = true := fun hmem =>
        @needsParse_of_parsed it n s.alive (hr ▸ List.ne_nil_of_mem hmem)
      obtain ⟨hkeeps, -, -, hnew⟩ := Call.held_answer hit r e _ rfl
      have htidy := (h.calls c (List.mem_of_getElem? hc)).answer hit hbuilding r e hparsed
      refine ⟨h.set hc htidy (Call.follows_set hit rfl id) fun n hn => .inl (hkeeps n hn),
        fun hsome p hp => ?_⟩
      have hawaits : c.awaits k = true := by simpa [hc] using hsome
      refine ⟨_, List.mem_set (List.getElem?_eq_some_iff.1 hc).1 _, ?_⟩
      rcases serve_item it n s.alive with ⟨-, hnil, -⟩ | ⟨-, -, hsingle⟩
      · rw [hr, hnil] at hp
        cases hp
      · have hp' := hp
        rw [hr, hsingle] at hp'
        obtain rfl := List.mem_singleton.1 hp'
        exact hnew hp hawaits

/-- The server handles a request. -/
theorem serve (h : NoOrphans s) {w : Work} {rest : List Work} (hq : s.queue = w :: rest) (n : ℕ)
    (e : PgError)
    (hparsed : (s.awaiting w).isSome = true ∨
      ∀ p ∈ (Statements.serve n w.messages s.alive).parsed, s.Managed p.1)
    (hclosed : ∀ name ∈ closes w.messages,
      isAlive (Statements.serve n w.messages s.alive).alive name = false) :
    let r := Statements.serve n w.messages s.alive
    NoOrphans { s with
      queue := rest
      alive := r.alive
      calls := match w.origin with
        | some (i, k) =>
          s.calls.modify i fun c => { c with items := c.items.modify k (.answer r e) }
        | none => s.calls } := by
  intro r
  obtain ⟨hs, hheld⟩ := h.respond (hq ▸ List.mem_cons_self : w ∈ s.queue) n e
  refine hs.handle hq (nodup_serve h.nodup) (fun p hp => (mem_serve hp).imp_right fun hp => ?_)
    fun p hp hmem => ?_
  · exact hparsed.elim (fun hsome => .inr (hheld hsome p hp)) fun hmanaged => .inl (hmanaged p hp)
  · have halive := hclosed p.1 hmem
    rw [isAlive_of_mem hp] at halive
    cases halive

/-- A call with one statement has its response. -/
theorem resumed (h : NoOrphans s) (hc : s.calls[i]? = some c)
    (hstage : c.stage = .sending c.requests.length) (hc' : c.resumed = some c')
    (hok : (∀ it ∈ c.items, it.reply = some (.ok ())) ∨ ∀ n ∈ c.held, s.Managed n) :
    NoOrphans { s with calls := s.calls.set i c' } := by
  unfold Call.resumed at hc'
  split at hc'
  · rename_i it hitems
    split at hc'
    · cases hc'
      refine h.toStage hc nofun fun n hn => .inl ?_
      rwa [Call.held_sending hstage] at hn
    · rename_i e hreply
      have hmanaged := hok.resolve_left fun hall => by
        have := hall it (hitems ▸ List.mem_singleton_self _)
        rw [hreply] at this
        cases this
      split_ifs at hc' <;> cases hc'
      · exact h.toStage hc nofun fun n hn => .inr (hmanaged n hn)
      · exact h.ends hc hmanaged
    · cases hc'
  · cases hc'

theorem step {s' : State} {l : Label} (h : NoOrphans s) (hl : orphanless s l)
    (hstep : connection.step s l = some s') : NoOrphans s' := by
  cases trans_of_step hstep with
  | call sql stmt =>
    obtain ⟨haccepted, hname, hcache⟩ := lookup_item s sql stmt
    exact (h.counter hcache).append (tidy_single _ haccepted hname)
  | pipeline => exact h.append ⟨List.forall_mem_nil _, List.forall_mem_nil _, fun _ => rfl⟩
  | @add i c sql params hc hstage =>
    obtain ⟨haccepted, hname, hcache⟩ := lookup_item s sql (.query params)
    have htidy := h.calls c (List.mem_of_getElem? hc)
    refine (h.counter hcache).set hc (htidy.add hstage haccepted hname)
      (fun hne => absurd hstage hne) fun n hn => ?_
    rw [Call.held_eq_nil (by rw [hstage]; rfl)] at hn
    cases hn
  | @run i c hc hstage =>
    refine h.toStage hc nofun fun n hn => ?_
    rw [Call.held_eq_nil (by rw [hstage]; rfl)] at hn
    cases hn
  | @send i next c _ _ hc hstage hrequest =>
    have hsending := @toStage s i c h hc (.sending (next + 1)) nofun fun n hn => .inl <| by
      rwa [Call.held_sending hstage] at hn
    have hne : Stage.sending (next + 1) ≠ .building := nofun
    obtain ⟨hqueued, -⟩ := queued_of_mem_requests hc hne (List.mem_of_getElem? hrequest)
    exact hsending.enqueue hqueued
  | @serve w rest n e hq =>
    obtain ⟨hparsed, hclosed⟩ := hl w (by rw [hq]; rfl)
    exact h.serve hq n e hparsed hclosed
  | @resumePipeline i c hc hstage hp =>
    refine h.toStage hc nofun fun n hn => .inl ?_
    rwa [Call.held_sending hstage] at hn
  | @resume i c c' hc hstage hp hc' => exact h.resumed hc hstage hc' ((hl c hc).resolve_left hp)
  | @publish i next c it room hc hstage hit =>
    obtain ⟨haccepted, hroom⟩ := hl c hc next (by rw [hstage]; rfl) it hit
    exact h.publish hc hstage hit haccepted hroom
  | @published i next c room hc hstage hnone =>
    refine h.ends hc fun n hn => ?_
    rw [Call.held_publishing hstage,
      List.drop_eq_nil_of_le (List.getElem?_eq_none_iff.1 hnone)] at hn
    cases hn
  | @invalidate i c it hc hstage hitems =>
    have hgone := hl c hc it (hitems ▸ List.mem_singleton_self _)
    refine (h.invalidate hgone).toStage hc nofun fun n hn => ?_
    rw [Call.held_eq_nil (by rw [hstage]; rfl)] at hn
    cases hn
  | @lookupAgain i c it hc hstage hitems =>
    obtain ⟨haccepted, hname, hcache⟩ := lookup_item s it.sql it.stmt
    have hends := h.ends hc fun n hn => by
      rw [Call.held_eq_nil (by rw [hstage]; rfl)] at hn
      cases hn
    exact (hends.counter hcache).append (tidy_single _ haccepted hname)
  | @cancel i c hc => exact h.ends hc (hl c hc)

/-- Every statement that is not closed has an entry or is held. -/
theorem unclosed_le_load (h : NoOrphans s) : s.unclosed.length ≤ s.load := by
  have hsub : s.unclosed.map Prod.fst ⊆
      cacheNames s.stmts.cache ++ s.calls.flatMap Call.held := by
    intro n hn
    obtain ⟨p, hp, rfl⟩ := List.mem_map.1 hn
    obtain ⟨halive, hclosing⟩ := List.mem_filter.1 hp
    rcases h.owned p halive with (hc | hc) | ⟨c, hc, hn⟩
    · exact List.mem_append_left _ hc
    · exact absurd hc (by simpa using hclosing)
    · exact List.mem_append_right _ (List.mem_flatMap.2 ⟨c, hc, hn⟩)
  have hnodup : (s.unclosed.map Prod.fst).Nodup := h.nodup.sublist (List.filter_sublist.map _)
  have hle := (List.subperm_of_subset hnodup hsub).length_le
  simpa only [List.length_map, List.length_append, cacheNames, State.load] using hle

end NoOrphans

/-! ### Calls that fail after their `Parse` -/

/-- The statement can be prepared and not executed. -/
def divisionByZero : PgError := { code := "22012" }

/-- The state after calls that have failed. -/
structure Failed (n : ℕ) (s : State) : Prop where
  alive : s.alive.length = n
  queue : s.queue = []
  finished : ∀ c ∈ s.calls, c.stage = .done
  missing : s.stmts.cache.get? "SELECT 1/0" = none
  drawn : ∀ p ∈ s.alive, ∃ k < s.stmts.counter, p.1 = asBytes (stmtName k)

/-- The statement of a call that is about to fail. -/
def failing (name : Bytes) : Item := ⟨"SELECT 1/0", .execQuery [] [], name, true, false, none⟩

/-- The server prepares the statement, binds it and fails to execute it. -/
theorem serve_failing {name : Bytes} {alive : List (Bytes × Bytes)}
    (hnew : isAlive alive name = false) : Statements.serve 2 (failing name).messages alive =
      ⟨(name, asBytes "SELECT 1/0") :: alive, [(name, asBytes "SELECT 1/0")], false⟩ := by
  have hmessages : (failing name).messages = [.parse name (asBytes "SELECT 1/0") [],
      .bind [] name [] [] [.text], .execute [] 0, .sync] := rfl
  have hself : isAlive ((name, asBytes "SELECT 1/0") :: alive) name = true :=
    isAlive_of_mem List.mem_cons_self
  simp only [hmessages, Statements.serve, hnew, hself, Bool.false_eq_true, if_true, if_false]

theorem set_concat {α : Type} (l : List α) (a b : α) : (l ++ [a]).set l.length b = l ++ [b] := by
  simp

/-- A call prepares its statement and fails. -/
theorem reachable_failed {s : State} {name : Bytes}
    (hname : asBytes (stmtName s.stmts.counter) = name)
    (hmissing : s.stmts.cache.get? "SELECT 1/0" = none) (hqueue : s.queue = [])
    (hnew : isAlive s.alive name = false) : connection.Reachable s { s with
      stmts := { s.stmts with counter := s.stmts.counter + 1 }
      queue := []
      alive := (name, asBytes "SELECT 1/0") :: s.alive
      calls := s.calls ++ [⟨false, false, [], .done⟩] } := by
  set stmts : Stmts := { s.stmts with counter := s.stmts.counter + 1 }
  have h₁ : connection.step s (.call "SELECT 1/0" (.execQuery [] [])) = some { s with
      stmts := stmts
      calls := s.calls ++ [⟨false, false, [failing name], .sending 0⟩] } := by
    simp only [connection, step]
    rw [State.lookup, Stmts.lookupOrAlloc_miss hmissing, ← hname]
    rfl
  have h₂ : connection.step { s with
      stmts := stmts
      calls := s.calls ++ [⟨false, false, [failing name], .sending 0⟩] } (.send s.calls.length) =
      some { s with
        stmts := stmts
        queue := [⟨(failing name).messages, some (s.calls.length, 0)⟩]
        calls := s.calls ++ [⟨false, false, [failing name], .sending 1⟩] } := by
    simp only [connection, step, List.getElem?_concat_length, set_concat, hqueue]
    rfl
  set err : Served := Statements.serve 2 (failing name).messages s.alive with herr
  have h₃ : connection.step { s with
      stmts := stmts
      queue := [⟨(failing name).messages, some (s.calls.length, 0)⟩]
      calls := s.calls ++ [⟨false, false, [failing name], .sending 1⟩] } (.serve 2 divisionByZero) =
      some { s with
        stmts := stmts
        queue := []
        alive := err.alive
        calls := s.calls ++
          [⟨false, false, [(failing name).answer err divisionByZero], .sending 1⟩] } := by
    simp only [connection, step, ← herr, modify_eq_set List.getElem?_concat_length, set_concat]
    rfl
  have hreply : ((failing name).answer err divisionByZero).reply =
      some (.error divisionByZero) := by
    simp only [Item.answer, herr, serve_failing hnew]
    rfl
  have h₄ : connection.step { s with
      stmts := stmts
      queue := []
      alive := err.alive
      calls := s.calls ++
        [⟨false, false, [(failing name).answer err divisionByZero], .sending 1⟩] }
      (.resume s.calls.length) =
      some { s with
        stmts := stmts
        queue := []
        alive := err.alive
        calls := s.calls ++ [⟨false, false, [], .done⟩] } := by
    simp only [connection, step, List.getElem?_concat_length, Call.resumed, hreply, set_concat]
    rfl
  have halive : err.alive = (name, asBytes "SELECT 1/0") :: s.alive := by
    rw [herr, serve_failing hnew]
  rw [← halive]
  exact (((LTS.Reachable.refl s).tail h₁).tail h₂).tail h₃ |>.tail h₄

/-- One more call fails. -/
theorem Failed.succ {n : ℕ} {s : State} (h : Failed n s) :
    ∃ s', connection.Reachable s s' ∧ Failed (n + 1) s' := by
  have hnew : isAlive s.alive (asBytes (stmtName s.stmts.counter)) = false :=
    Bool.eq_false_iff.2 fun halive => by
      obtain ⟨p, hp, heq⟩ := List.any_eq_true.1 halive
      obtain ⟨k, hk, hk'⟩ := h.drawn p hp
      have hp' : p.1 = asBytes (stmtName s.stmts.counter) := by simpa using heq
      exact Nat.ne_of_lt hk (stmtName_injective (asBytes_injective (hk'.symm.trans hp')))
  refine ⟨_, reachable_failed rfl h.missing h.queue hnew, by rw [List.length_cons, h.alive], rfl,
    fun c hc => ?_, h.missing, fun p hp => ?_⟩
  · rcases List.mem_append.1 hc with hc | hc
    · exact h.finished c hc
    · rw [List.mem_singleton.1 hc]
  · rcases List.mem_cons.1 hp with rfl | hp
    · exact ⟨_, Nat.lt_succ_self _, rfl⟩
    · obtain ⟨k, hk, heq⟩ := h.drawn p hp
      exact ⟨k, Nat.lt_succ_of_lt hk, heq⟩

theorem exists_failed (n : ℕ) : ∃ s, connection.Reachable State.init s ∧ Failed n s := by
  induction n with
  | zero => exact ⟨State.init, LTS.Reachable.refl _, rfl, rfl, List.forall_mem_nil _, rfl,
      List.forall_mem_nil _⟩
  | succ n ih =>
    obtain ⟨s, hreach, hs⟩ := ih
    obtain ⟨s', hreach', hs'⟩ := hs.succ
    exact ⟨s', hreach.trans hreach', hs'⟩

/-- Calls that fail after their `Parse` leave any number of statements on the server. -/
theorem exists_orphans : ∃ s, connection.Reachable State.init s ∧
    256 + s.inFlight < s.unclosed.length := by
  obtain ⟨s, hreach, hs⟩ := exists_failed 257
  have hflight : s.inFlight = 0 := List.countP_eq_zero.2 fun c hc => by simp [hs.finished c hc]
  have hopen : s.unclosed = s.alive := List.filter_eq_self.2 fun p _ => by
    simp [State.closing, hs.queue]
  refine ⟨s, hreach, ?_⟩
  rw [hflight, hopen, hs.alive]
  exact Nat.lt_succ_self _

end Resolute.Conn.Statements
