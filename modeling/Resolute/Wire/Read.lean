import Resolute.Wire.Collect

/-!
# Reading a response in the calling task

A `WireConn` has no reader task: whoever sends a request on it reads the messages that follow, one
`recv_msg` at a time.  What the socket yields is a list of read results, and a `Read` takes some of
them; a call that waits for a message that is not there does not return.

There are two ways to read a response group, `drain_until_ready` and `collect_rows`.  Both read
exactly one (`Read.ofGroup`) and judge its messages, so that the number of `ReadyForQuery` messages
in the input (`readies`) goes down by one.
-/

namespace Resolute

/-- An `async fn` that reads messages: its result and the input left over, `none` while it still
waits. -/
def Read (α : Type) : Type := List ReadResult → Option (Except PgWireError α × List ReadResult)

namespace Read

variable {α β : Type}

/-- `let a = r.await?; f(a)`. -/
def bind (r : Read α) (f : α → Read β) : Read β := fun rs =>
  match r rs with
  | none => none
  | some (.ok a, rest) => f a rest
  | some (.error e, rest) => some (.error e, rest)

instance : Monad Read where
  pure a := fun rs => some (.ok a, rs)
  bind := bind

@[simp] theorem pure_apply (a : α) (rs : List ReadResult) :
    (pure a : Read α) rs = some (.ok a, rs) := rfl

theorem bind_pure_eq (r : Read α) : (r >>= pure) = r := by
  funext rs
  change Read.bind r _ rs = _
  unfold Read.bind
  rcases r rs with _ | ⟨_ | _, _⟩ <;> rfl

/-- `return Err(e)`. -/
def fail (e : PgWireError) : Read α := fun rs => some (.error e, rs)

/-- Read one response group, and make of its messages what `f` says. -/
def ofGroup (f : List BackendMsg → Except PgWireError α) : Read α := fun rs =>
  (responseGroup rs).map fun (group, rest) => (group.bind f, rest)

theorem ofGroup_of_group {rs rest : List ReadResult} {msgs : List BackendMsg}
    (h : responseGroup rs = some (.ok msgs, rest)) (f : List BackendMsg → Except PgWireError α) :
    ofGroup f rs = some (f msgs, rest) := by
  rw [ofGroup, h]
  rfl

/-- Go on after a group that is judged well. -/
theorem bind_ofGroup {rs rest : List ReadResult} {msgs : List BackendMsg}
    (h : responseGroup rs = some (.ok msgs, rest)) (f : List BackendMsg → Except PgWireError α)
    (k : α → Read β) :
    (ofGroup f >>= k) rs = match f msgs with
      | .ok a => k a rest
      | .error e => some (.error e, rest) := by
  change bind (ofGroup f) k rs = _
  rw [bind, ofGroup_of_group h]
  cases f msgs <;> rfl

end Read

namespace WireConn

/-- `WireConn::drain_until_ready`. -/
def drainUntilReady : Read Unit
  | [] => none
  | .error e :: rs => some (.error e, rs)
  | .ok m :: rs => if m.isReady then some (.ok (), rs) else drainUntilReady rs

/-- The loop of `WireConn::collect_rows`. -/
def collectRowsFrom (rows : List RawRow) (tag : String) : Read (List RawRow × String)
  | [] => none
  | .error e :: rs => some (.error e, rs)
  | .ok (.dataRow row) :: rs => collectRowsFrom (rows ++ [row]) tag rs
  | .ok (.commandComplete t) :: rs => collectRowsFrom rows t rs
  | .ok (.readyForQuery _) :: rs => some (.ok (rows, tag), rs)
  | .ok (.errorResponse fields) :: rs =>
    (drainUntilReady >>= fun _ => Read.fail (.pg fields)) rs
  | .ok _ :: rs => collectRowsFrom rows tag rs

/-- `WireConn::collect_rows`. -/
def collectRows : Read (List RawRow × String) := collectRowsFrom [] ""

/-- What `collect_rows` makes of the messages of a group. -/
def rowsOf (rows : List RawRow) (tag : String) :
    List BackendMsg → Except PgWireError (List RawRow × String)
  | [] => .ok (rows, tag)
  | .dataRow row :: ms => rowsOf (rows ++ [row]) tag ms
  | .commandComplete t :: ms => rowsOf rows t ms
  | .errorResponse fields :: _ => .error (.pg fields)
  | _ :: ms => rowsOf rows tag ms

theorem drainUntilReady_eq : drainUntilReady = Read.ofGroup fun _ => .ok () := by
  funext rs
  induction rs with
  | nil => rfl
  | cons r rs ih =>
    rcases r with e | m
    · rfl
    · cases hm : m.isReady
      · simp only [drainUntilReady, hm, Bool.false_eq_true, if_false, ih, Read.ofGroup,
          Collect.responseGroup_cons hm, Option.map_map]
        congr 1
        funext ⟨g, rest⟩
        cases g <;> rfl
      · simp [drainUntilReady, hm, Read.ofGroup, responseGroup, Except.bind]

theorem collectRowsFrom_eq (rows : List RawRow) (tag : String) :
    collectRowsFrom rows tag = Read.ofGroup (rowsOf rows tag) := by
  funext rs
  induction rs generalizing rows tag with
  | nil => rfl
  | cons r rs ih =>
    rcases r with e | m
    · rfl
    · cases hm : m.isReady
      · -- the group goes on: push the message through `responseGroup`
        simp only [Read.ofGroup, Collect.responseGroup_cons hm, Option.map_map]
        cases m with
        | errorResponse fields =>
          change Read.bind drainUntilReady (fun _ => Read.fail (.pg fields)) rs = _
          simp only [Read.bind, drainUntilReady_eq, Read.ofGroup]
          cases responseGroup rs with
          | none => rfl
          | some g => obtain ⟨g | g, rest⟩ := g <;> rfl
        | readyForQuery status => cases hm
        | _ =>
          simp only [collectRowsFrom, ih, Read.ofGroup]
          congr 1
          funext ⟨g, rest⟩
          cases g <;> rfl
      · cases m <;> simp [BackendMsg.isReady] at hm
        rfl

/-- `collect_rows` reads one group. -/
theorem collectRows_eq : collectRows = Read.ofGroup (rowsOf [] "") := collectRowsFrom_eq [] ""

/-- `collect_rows` reports an error of the server exactly for the groups that contain one. -/
theorem rowsOf_isOk (rows : List RawRow) (tag : String) (msgs : List BackendMsg) :
    (∃ r, rowsOf rows tag msgs = .ok r) ↔ errorFree msgs = true := by
  induction msgs generalizing rows tag with
  | nil => simp [rowsOf, errorFree]
  | cons m ms ih => cases m <;> simp_all [rowsOf, errorFree, BackendMsg.isError]

end WireConn

/-- The read result is a `ReadyForQuery`. -/
def ReadResult.isReady : ReadResult → Bool
  | .ok m => m.isReady
  | .error _ => false

/-- The number of `ReadyForQuery` messages. -/
def readies (rs : List ReadResult) : ℕ := rs.countP ReadResult.isReady

theorem readies_append (rs rs' : List ReadResult) :
    readies (rs ++ rs') = readies rs + readies rs' := List.countP_append

theorem readies_map_ok {msgs : List BackendMsg} (h : ∀ m ∈ msgs, m.isReady = false) :
    readies (msgs.map .ok) = 0 := by
  simp only [readies, List.countP_eq_zero, List.mem_map]
  rintro _ ⟨m, hm, rfl⟩
  simp [ReadResult.isReady, h m hm]

/-- A complete group is followed by its `ReadyForQuery`. -/
theorem responseGroup_ok {rs rest : List ReadResult} {msgs : List BackendMsg}
    (h : responseGroup rs = some (.ok msgs, rest)) :
    ∃ r : BackendMsg, r.isReady = true ∧ (∀ m ∈ msgs, m.isReady = false) ∧
      rs = msgs.map .ok ++ .ok r :: rest := by
  induction rs generalizing msgs with
  | nil => cases h
  | cons r rs ih =>
    rcases r with e | m
    · cases h
    · cases hm : m.isReady
      · rw [Collect.responseGroup_cons hm, Option.map_eq_some_iff] at h
        obtain ⟨⟨g, rest'⟩, hg, heq⟩ := h
        rcases g with e | g <;> cases heq
        obtain ⟨r, hr, hall, rfl⟩ := ih hg
        exact ⟨r, hr, by simpa [hm] using hall, rfl⟩
      · simp only [responseGroup, hm, if_true, Option.some.injEq, Prod.mk.injEq] at h
        obtain ⟨h, rfl⟩ := h
        cases h
        exact ⟨m, hm, by simp, rfl⟩

/-- A group that breaks off consumes the error that broke it. -/
theorem responseGroup_error {rs rest : List ReadResult} {e : PgWireError}
    (h : responseGroup rs = some (.error e, rest)) : .error e ∈ rs := by
  induction rs with
  | nil => cases h
  | cons r rs ih =>
    rcases r with e' | m
    · cases h; exact List.mem_cons_self
    · cases hm : m.isReady
      · rw [Collect.responseGroup_cons hm, Option.map_eq_some_iff] at h
        obtain ⟨⟨g, rest'⟩, hg, heq⟩ := h
        rcases g with e | g <;> cases heq
        exact List.mem_cons_of_mem _ (ih hg)
      · simp [responseGroup, hm] at h

/-- A complete group has one `ReadyForQuery`. -/
theorem readies_group {rs rest : List ReadResult} {msgs : List BackendMsg}
    (h : responseGroup rs = some (.ok msgs, rest)) :
    ∃ pre, rs = pre ++ rest ∧ readies pre = 1 := by
  obtain ⟨r, hr, hmsgs, rfl⟩ := responseGroup_ok h
  refine ⟨msgs.map .ok ++ [.ok r], by simp, ?_⟩
  rw [readies_append, readies_map_ok hmsgs]
  simp [readies, ReadResult.isReady, hr]

/-- The group in front of the input. -/
theorem responseGroup_append {msgs : List BackendMsg} {r : BackendMsg} (hr : r.isReady = true)
    (h : ∀ m ∈ msgs, m.isReady = false) (rest : List ReadResult) :
    responseGroup (msgs.map .ok ++ .ok r :: rest) = some (.ok msgs, rest) := by
  induction msgs with
  | nil => simp [responseGroup, hr]
  | cons m ms ih =>
    rw [List.map_cons, List.cons_append, Collect.responseGroup_cons (h m List.mem_cons_self),
      ih fun m hm => h m (List.mem_cons_of_mem _ hm)]
    rfl

end Resolute
