import Resolute.Conn.Statements

/-!
# Names that are parsed

A `Parse` for a name that the server already knows is refused with 42P05.  Every `Parse` of a first
attempt carries a name that was just drawn; the second attempt of an `exec_*` call parses whatever
name its lookup returns, which is that of an entry if another task has published the SQL meanwhile.

The names to be told apart are those alive on the server, those in queued requests and those in
requests still to be sent: all of them are `State.parseNames`.  Along the runs with `freshRetry`,
where the second lookup finds no entry, no name is parsed that the server knows (`parse_unknown`).
-/

namespace Resolute.Conn.Statements

/-- The names that a request parses. -/
def parses (ms : List FrontendMsg) : List Bytes := ms.filterMap fun
  | .parse name _ _ => some name
  | _ => none

/-- The names that the requests of a call will parse that are not sent yet. -/
def Call.unsent (c : Call) : List Bytes :=
  match c.stage with
  | .building => c.requests.flatMap fun r => parses r.2
  | .sending next => (c.requests.drop next).flatMap fun r => parses r.2
  | _ => []

/-- The names on the server, in the queue and still to be sent. -/
def State.parseNames (s : State) : List Bytes :=
  s.alive.map Prod.fst ++ s.queue.flatMap (fun w => parses w.messages) ++
    s.calls.flatMap Call.unsent

/-- The second lookup of an `exec_*` call finds no entry for its SQL. -/
def freshRetry (s : State) : Label → Prop
  | .lookupAgain i => ∀ c ∈ s.calls[i]?, ∀ it ∈ c.items,
    it.stmt.forcesParse = true → s.stmts.cache.get? it.sql = none
  | _ => True

instance (s : State) : (l : Label) → Decidable (freshRetry s l)
  | .lookupAgain i => inferInstanceAs (Decidable (∀ c ∈ s.calls[i]?, ∀ it ∈ c.items,
    it.stmt.forcesParse = true → s.stmts.cache.get? it.sql = none))
  | .call _ _ | .pipeline | .add _ _ _ | .run _ | .send _ | .serve _ _ | .resume _ | .publish _ _
  | .invalidate _ | .cancel _ => .isTrue trivial

/-- No name has two places, and all were drawn. -/
structure Once (s : State) : Prop where
  unique : ∀ n, s.parseNames.count n ≤ 1
  drawn : ∀ n ∈ s.parseNames, ∃ k < s.stmts.counter, n = asBytes (stmtName k)

/-! ### What is parsed -/

theorem parses_of_plain {ms : List FrontendMsg} (h : ∀ m ∈ ms, isPlain m = true) :
    parses ms = [] := by
  refine List.filterMap_eq_nil_iff.2 fun m hm => ?_
  cases m with
  | parse name sql oids => cases h _ hm
  | _ => rfl

theorem parses_item (it : Item) : parses it.messages = if it.needsParse then [it.name] else [] := by
  obtain ⟨tail, oids, hplain, heq⟩ := it.messages_eq
  rw [heq, parses, List.filterMap_append, ← parses, ← parses, parses_of_plain hplain]
  split_ifs <;> rfl

theorem parses_requests (it : Item) (k : ℕ) :
    ((it.requests k).flatMap fun r => parses r.2) = if it.needsParse then [it.name] else [] := by
  rw [← parses_item, Item.requests]
  cases it.stmt <;> simp [Stmt.setup, Stmt.commit, parses]

/-- The server knows no name more than before, except for those of the request. -/
theorem count_serve (n : Bytes) (k : ℕ) (ms : List FrontendMsg) (alive : List (Bytes × Bytes)) :
    ((serve k ms alive).alive.map Prod.fst).count n ≤
      (alive.map Prod.fst).count n + (parses ms).count n := by
  induction ms generalizing k alive with
  | nil => cases k <;> exact Nat.le_add_right _ _
  | cons m ms ih =>
    cases k with
    | zero => exact Nat.le_add_right _ _
    | succ k =>
      cases m with
      | parse name sql oids =>
        have hparses : parses (.parse name sql oids :: ms) = name :: parses ms := rfl
        have hrest := ih k ((name, sql) :: alive)
        simp only [List.map_cons, List.count_cons] at hrest
        rw [serve, hparses, List.count_cons]
        by_cases halive : isAlive alive name = true
        · rw [if_pos halive]
          exact Nat.le_add_right _ _
        · rw [if_neg halive]
          change ((serve k ms ((name, sql) :: alive)).alive.map Prod.fst).count n ≤ _
          omega
      | bind portal name =>
        rw [serve]
        split_ifs
        · exact ih k alive
        · exact Nat.le_add_right _ _
      | close kind name =>
        refine (ih k _).trans (Nat.add_le_add_right ?_ _)
        exact (List.filter_sublist.map _).count_le n
      | _ => exact ih k alive


/-! ### The invariant -/

namespace Once

variable {s s' : State}

/-- No name is added. -/
theorem mono (h : Once s) (hle : ∀ n, s'.parseNames.count n ≤ s.parseNames.count n)
    (hc : s.stmts.counter = s'.stmts.counter) : Once s' where
  unique := fun n => (hle n).trans (h.unique n)
  drawn := fun n hn => by
    have hpos := (List.count_pos_iff.2 hn).trans_le (hle n)
    rw [← hc]
    exact h.drawn n (List.count_pos_iff.1 hpos)

/-- A name is drawn. -/
theorem draw (h : Once s)
    (hle : ∀ n, s'.parseNames.count n ≤
      s.parseNames.count n + [asBytes (stmtName s.stmts.counter)].count n)
    (hc : s'.stmts.counter = s.stmts.counter + 1) : Once s' where
  unique := fun n => by
    by_cases hn : n = asBytes (stmtName s.stmts.counter)
    · have hzero : s.parseNames.count n = 0 := List.count_eq_zero.2 fun hmem => by
        obtain ⟨k, hk, heq⟩ := h.drawn n hmem
        exact Nat.ne_of_lt hk (stmtName_injective (asBytes_injective (heq.symm.trans hn)))
      have := hle n
      rw [hzero, hn, List.count_singleton_self] at this
      rwa [hn]
    · have := hle n
      rw [List.count_singleton, if_neg (by simpa using Ne.symm hn)] at this
      exact this.trans (h.unique n)
  drawn := fun n hn => by
    have hpos := (List.count_pos_iff.2 hn).trans_le (hle n)
    rw [← List.count_append] at hpos
    rw [hc]
    rcases List.mem_append.1 (List.count_pos_iff.1 hpos) with hn | hn
    · obtain ⟨k, hk, heq⟩ := h.drawn n hn
      exact ⟨k, Nat.lt_succ_of_lt hk, heq⟩
    · exact ⟨_, Nat.lt_succ_self _, List.mem_singleton.1 hn⟩

/-- What a lookup adds: nothing when it finds an entry, else the name it draws. -/
theorem lookup (h : Once s) {sql : String} {stmt : Stmt}
    (hcounter : s'.stmts.counter = (s.lookup sql stmt).2.counter)
    (hle : ∀ n, s'.parseNames.count n ≤ s.parseNames.count n +
      (if (s.lookup sql stmt).1.needsParse then [(s.lookup sql stmt).1.name] else []).count n) :
    Once s' := by
  cases hget : s.stmts.cache.get? sql with
  | some e =>
    simp only [State.lookup, Stmts.lookupOrAlloc_hit hget, Bool.false_eq_true, if_false,
      List.count_nil, Nat.add_zero] at hle hcounter
    exact h.mono hle hcounter.symm
  | none =>
    simp only [State.lookup, Stmts.lookupOrAlloc_miss hget, if_true] at hle hcounter
    exact h.draw hle hcounter

/-- A call changes to one that has not more to send. -/
theorem set (h : Once s) {i : ℕ} {c c' : Call} (hc : s.calls[i]? = some c)
    (hle : ∀ n, c'.unsent.count n ≤ c.unsent.count n) :
    Once { s with calls := s.calls.set i c' } := by
  refine h.mono (fun n => ?_) rfl
  have hset := count_flatMap_set hc c' Call.unsent n
  have hn := hle n
  simp only [State.parseNames, List.count_append]
  omega

end Once

/-- The response to a statement does not change what its call sends. -/
theorem flatMap_requests_modify (items : List Item) (k j : ℕ) (r : Served) (e : PgError) :
    (((items.modify k (.answer r e)).zipIdx j).flatMap fun (it, m) => it.requests m) =
      (items.zipIdx j).flatMap fun (it, m) => it.requests m := by
  induction items generalizing k j with
  | nil => cases k <;> rfl
  | cons it items ih =>
    cases k with
    | zero => rfl
    | succ k =>
      rw [List.modify_succ_cons, List.zipIdx_cons, List.flatMap_cons, ih, List.zipIdx_cons,
        List.flatMap_cons]

theorem unsent_answer (c : Call) (k : ℕ) (r : Served) (e : PgError) :
    Call.unsent { c with items := c.items.modify k (.answer r e) } = c.unsent := by
  have hrequests : Call.requests { c with items := c.items.modify k (.answer r e) } = c.requests :=
    flatMap_requests_modify c.items k 0 r e
  simp only [Call.unsent, hrequests]

theorem flatMap_modify {α β : Type} {f : α → List β} {g : α → α} (h : ∀ a, f (g a) = f a)
    (l : List α) (i : ℕ) : (l.modify i g).flatMap f = l.flatMap f := by
  induction l generalizing i with
  | nil => cases i <;> rfl
  | cons a l ih =>
    cases i with
    | zero => rw [List.modify_zero_cons, List.flatMap_cons, h, List.flatMap_cons]
    | succ i => rw [List.modify_succ_cons, List.flatMap_cons, ih, List.flatMap_cons]

/-- A statement is added to a pipeline. -/
theorem unsent_add {c : Call} (hstage : c.stage = .building) (it : Item) :
    Call.unsent { c with items := c.items ++ [it] } =
      c.unsent ++ if it.needsParse then [it.name] else [] := by
  simp only [Call.unsent, hstage, Call.requests, List.zipIdx_append, List.flatMap_append]
  congr 1
  simp [parses_requests]

/-- A call that was just made. -/
theorem unsent_single (retried : Bool) (it : Item) :
    Call.unsent ⟨false, retried, [it], .sending 0⟩ = if it.needsParse then [it.name] else [] := by
  rw [← parses_requests it 0]
  simp [Call.unsent, Call.requests]

/-- A call that has its response has nothing more to send. -/
theorem unsent_resumed {c c' : Call} (h : c.resumed = some c') : c'.unsent = [] := by
  unfold Call.resumed at h
  split at h
  · split at h
    · cases h
      rfl
    · split_ifs at h <;> cases h <;> rfl
    · cases h
  · cases h

theorem calls_cacheStatement (s : State) (sql : String) (name : Bytes) (room : Bool) :
    (s.cacheStatement sql name room).calls = s.calls := by
  unfold State.cacheStatement
  split <;> rfl

namespace Once

variable {s s' : State} {i : ℕ} {c : Call}

/-- A call stops, or goes on to what follows its requests. -/
theorem toStage (h : Once s) (hc : s.calls[i]? = some c) {c' : Call} (hc' : c'.unsent = []) :
    Once { s with calls := s.calls.set i c' } :=
  h.set hc fun n => by rw [hc', List.count_nil]; exact Nat.zero_le _

/-- A request moves from its call into the queue. -/
theorem send (h : Once s) (hc : s.calls[i]? = some c) {next : ℕ} (hstage : c.stage = .sending next)
    {origin : Option ℕ} {messages : List FrontendMsg}
    (hrequest : c.requests[next]? = some (origin, messages)) :
    Once { s with
      queue := s.queue ++ [⟨messages, origin.map (i, ·)⟩]
      calls := s.calls.set i { c with stage := .sending (next + 1) } } := by
  refine h.mono (fun n => ?_) rfl
  have hunsent : c.unsent =
      parses messages ++ Call.unsent { c with stage := .sending (next + 1) } := by
    obtain ⟨hlt, hget⟩ := List.getElem?_eq_some_iff.1 hrequest
    have hdrop : c.requests.drop next = (origin, messages) :: c.requests.drop (next + 1) := by
      rw [List.drop_eq_getElem_cons hlt, hget]
    simp only [Call.unsent, hstage, hdrop, List.flatMap_cons]
    rfl
  have hset := count_flatMap_set hc { c with stage := .sending (next + 1) } Call.unsent n
  rw [hunsent, List.count_append] at hset
  simp only [State.parseNames, List.count_append, List.flatMap_append, List.flatMap_singleton]
  omega

/-- The server handles a request. -/
theorem serve (h : Once s) {w : Work} {rest : List Work} (hq : s.queue = w :: rest) (k : ℕ)
    (e : PgError) :
    let r := Statements.serve k w.messages s.alive
    Once { s with
      queue := rest
      alive := r.alive
      calls := match w.origin with
        | some (i, m) =>
          s.calls.modify i fun c => { c with items := c.items.modify m (.answer r e) }
        | none => s.calls } := by
  intro r
  have hcalls : (match w.origin with
      | some (i, m) => s.calls.modify i fun c => { c with items := c.items.modify m (.answer r e) }
      | none => s.calls).flatMap Call.unsent = s.calls.flatMap Call.unsent := by
    split
    · exact flatMap_modify (fun c => unsent_answer c _ r e) _ _
    · rfl
  refine h.mono (fun n => ?_) rfl
  have hserve : (r.alive.map Prod.fst).count n ≤ _ := count_serve n k w.messages s.alive
  simp only [State.parseNames, hcalls, hq, List.count_append, List.flatMap_cons]
  omega

/-- A statement is published. -/
theorem cacheStatement (h : Once s) (sql : String) (name : Bytes) (room : Bool) :
    Once (s.cacheStatement sql name room) := by
  unfold State.cacheStatement
  rcases Stmts.cacheStatement_cases sql name s.stmts with
    heq | ⟨new, -, -, -, heq | ⟨old, -, heq⟩⟩
  · rw [heq]
    exact h.mono (fun n => Nat.le_refl _) rfl
  · rw [heq]
    exact h.mono (fun n => Nat.le_refl _) rfl
  · rw [heq]
    refine h.mono (fun n => ?_) rfl
    cases room
    · exact Nat.le_refl _
    · simp [State.parseNames, parses, Stmts.closeMessages]

theorem step {l : Label} (h : Once s) (hl : freshRetry s l)
    (hstep : connection.step s l = some s') : Once s' := by
  cases trans_of_step hstep with
  | call sql stmt =>
    refine @lookup s _ h sql stmt rfl fun n => ?_
    simp only [State.parseNames, List.flatMap_append, List.flatMap_singleton, List.count_append,
      unsent_single]
    omega
  | pipeline => exact h.mono (fun n => by simp [State.parseNames, Call.unsent, Call.requests]) rfl
  | @add i c sql params hc hstage =>
    refine @lookup s _ h sql (.query params) rfl fun n => ?_
    have hset := count_flatMap_set hc
      { c with items := c.items ++ [(s.lookup sql (.query params)).1] } Call.unsent n
    rw [unsent_add hstage, List.count_append] at hset
    simp only [State.parseNames, List.count_append]
    omega
  | run hc hstage => exact h.set hc fun n => by simp [Call.unsent, hstage, Call.requests]
  | send hc hstage hrequest => exact h.send hc hstage hrequest
  | serve n e hq => exact h.serve hq n e
  | resumePipeline hc => exact h.toStage hc rfl
  | resume hc hstage hp hc' => exact h.toStage hc (unsent_resumed hc')
  | @publish i next c it room hc hstage hit =>
    have hs₁ : Once (if it.needsParse then s.cacheStatement it.sql it.name room else s) := by
      split_ifs
      · exact h.cacheStatement it.sql it.name room
      · exact h
    have hcalls : (if it.needsParse then s.cacheStatement it.sql it.name room else s).calls =
        s.calls := by
      split_ifs
      · exact calls_cacheStatement s _ _ _
      · rfl
    have hset := @toStage _ i c hs₁ (hcalls ▸ hc) { c with
      items := c.items.set next { it with accepted := false }
      stage := .publishing (next + 1) } rfl
    rwa [hcalls] at hset
  | published room hc => exact h.toStage hc rfl
  | @invalidate i c it hc hstage hitems =>
    have hinv : Once { s with stmts := s.stmts.invalidateStatement it.sql } :=
      h.mono (fun _ => Nat.le_refl _) rfl
    exact hinv.toStage hc rfl
  | @lookupAgain i c it hc hstage hitems =>
    -- a retry that must send a `Parse` finds no entry, and draws a new name
    have hmiss : it.stmt.forcesParse = true → s.stmts.cache.get? it.sql = none :=
      hl c hc it (hitems ▸ List.mem_singleton_self _)
    have hagain : ((s.lookup it.sql it.stmt).1.needsParse || it.stmt.forcesParse) =
        (s.lookup it.sql it.stmt).1.needsParse := by
      cases hforce : it.stmt.forcesParse with
      | false => exact Bool.or_false _
      | true => simp only [State.lookup, Stmts.lookupOrAlloc_miss (hmiss hforce), Bool.or_true]
    refine @lookup s _ h it.sql it.stmt rfl fun n => ?_
    have hset := count_flatMap_set hc c.over Call.unsent n
    rw [show c.over.unsent = [] from rfl, List.count_nil] at hset
    simp only [State.parseNames, List.flatMap_append, List.flatMap_singleton, List.count_append,
      unsent_single, hagain]
    omega
  | cancel hc => exact h.toStage hc rfl

end Once

/-- **No name is parsed twice.**  As long as the second lookup of an `exec_*` call finds no entry
for its SQL, the server knows no name that a request in the queue parses, and no two of these
requests parse the same name. -/
theorem parse_unknown {s : State} (h : (connection.guard freshRetry).Reachable State.init s) :
    (s.queue.flatMap fun w => parses w.messages).Nodup ∧
      ∀ w ∈ s.queue, ∀ name ∈ parses w.messages, isAlive s.alive name = false := by
  have hinit : Once State.init := ⟨fun _ => Nat.zero_le _, nofun⟩
  have honce := h.guard_invariant hinit fun _ _ _ hs hl hstep => hs.step hl hstep
  have hunique : ∀ n, (s.alive.map Prod.fst).count n +
      (s.queue.flatMap fun w => parses w.messages).count n ≤ 1 := fun n => by
    have := honce.unique n
    simp only [State.parseNames, List.count_append] at this
    omega
  refine ⟨List.nodup_iff_count_le_one.2 fun n => ?_, fun w hw name hname => ?_⟩
  · have := hunique n
    omega
  · have hqueue : 0 < (s.queue.flatMap fun w => parses w.messages).count name :=
      List.count_pos_iff.2 (List.mem_flatMap.2 ⟨w, hw, hname⟩)
    refine Bool.eq_false_iff.2 fun halive => ?_
    obtain ⟨p, hp, heq⟩ := List.any_eq_true.1 halive
    have hpos : 0 < (s.alive.map Prod.fst).count name :=
      List.count_pos_iff.2 (List.mem_map.2 ⟨p, hp, by simpa using heq⟩)
    have := hunique name
    omega

/-- A task prepares a statement and publishes it. -/
def prepared : List Label :=
  [.call "SELECT * FROM t" (.execQuery [] []), .send 0, .serve 4 {}, .resume 0, .publish 0 true]

/-- The plan of the statement no longer fits. -/
def planChanged : PgError := { code := "0A000" }

/-- Another task finds the statement stale, and prepares it again. -/
def retried : List Label := prepared ++
  [.call "SELECT * FROM t" (.execQuery [] []), .send 1, .serve 1 planChanged, .resume 1,
    .invalidate 1, .lookupAgain 1, .send 2]

theorem parse_unknown_retried : ∃ s,
    (connection.guard freshRetry).exec State.init retried = some s ∧ s.queue ≠ [] ∧
      ∀ w ∈ s.queue, ∀ name ∈ parses w.messages, isAlive s.alive name = false := by
  have h : (connection.guard freshRetry).exec State.init retried = some _ := rfl
  exact ⟨_, h, nofun, (parse_unknown (LTS.reachable_of_exec h)).2⟩

/-- Two tasks find the statement stale; one of them prepares it again and publishes it between the
two lookups of the other. -/
def raced : List Label := prepared ++
  [.call "SELECT * FROM t" (.execQuery [] []), .call "SELECT * FROM t" (.execQuery [] []),
    .send 1, .send 2, .serve 1 planChanged, .serve 1 planChanged, .resume 1, .resume 2,
    .invalidate 1, .invalidate 2, .lookupAgain 1, .send 3, .serve 4 {}, .resume 3, .publish 3 true,
    .lookupAgain 2, .send 4]

/-- The second task parses the name that the first one has published. -/
theorem name_parsed_twice : ∃ s, connection.Reachable State.init s ∧
    ∃ w ∈ s.queue, ∃ name ∈ parses w.messages, isAlive s.alive name = true := by
  have h : connection.exec State.init raced = some _ := rfl
  exact ⟨_, LTS.reachable_of_exec h, _, List.mem_cons_self, asBytes "s1", List.mem_cons_self, rfl⟩

end Resolute.Conn.Statements
