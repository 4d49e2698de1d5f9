import Resolute.LTS.Basic
import Resolute.Wire.Stream

/-!
# Row streams of JavaScript

`queryStream` of `pg-wired-js` hands a `RowStream` to JavaScript.  `stream_rows` reads the response
and sends the rows through a bounded channel; a `for await` loop over the stream takes them out in
batches (`next_batch`) and gives them to its body one by one.  An error of the server travels the
same way; it fails the call of `next_batch`, and the rows that the call has taken out before are
lost.  The loop may be left at any time, which drops the receiver; then `stream_rows` drains the
response.

The reader, the channel and the loop take their steps in any order.  Every step keeps `Inv`: while
the receiver is alive, no row is lost between the response and the loop.  `stream_faithful` says
what the loop is given, in every run.
-/

namespace Resolute.Js.RowStream

/-- What goes through the row channel. -/
abbrev Item := Except PgWireError RawRow

/-! ### The stream and the loop -/

/-- Where a call of `next_batch` stands. -/
inductive Fetch where
  /-- `recv`. -/
  | first
  /-- The loop of `try_recv`, with the rows taken out so far. -/
  | drain (out : List RawRow)
  deriving DecidableEq, Repr

/-- The variables of the async iterator. -/
structure Iter where
  batch : Option (List RawRow)
  idx : ℕ
  done : Bool
  deriving DecidableEq, Repr

/-- Where the `for await` loop stands. -/
inductive Loop where
  /-- `query_stream` waits for the header. -/
  | opening
  /-- `query_stream` has thrown. -/
  | refused (e : PgWireError)
  /-- The body may run. -/
  | body
  /-- `next` waits for a batch. -/
  | awaiting (fetch : Fetch)
  | finished
  | threw (e : PgWireError)
  /-- The body has left the loop. -/
  | broken
  deriving DecidableEq, Repr

structure State where
  /-- The loop of `stream_rows`. -/
  reader : Option Collect
  /-- What the server sends. -/
  results : List ReadResult
  /-- What is being sent through the channel. -/
  pending : List Item
  header : Option (Except PgWireError (List FieldDescription))
  channel : List Item
  /-- The receiver is alive. -/
  rx : Bool
  iter : Iter
  loop : Loop
  /-- The rows that the body was given. -/
  seen : List RawRow
  deriving DecidableEq

/-- The response is still to come. -/
def start (results : List ReadResult) : State where
  reader := some (.init .stream)
  results
  pending := []
  header := none
  channel := []
  rx := true
  iter := ⟨none, 0, false⟩
  loop := .opening
  seen := []

inductive Label where
  /-- `stream_rows` reads a message. -/
  | read
  /-- `row_tx.send`. -/
  | push
  | opened
  /-- `next` of the iterator. -/
  | next
  /-- `next_batch` goes on. -/
  | poll
  /-- The body leaves the loop: `return` of the iterator. -/
  | leave
  deriving DecidableEq, Repr

/-- The item that an effect sends. -/
def item? : Emit → Option Item
  | .row r => some r
  | _ => none

def header? : Emit → Option (Except PgWireError (List FieldDescription))
  | .header h => some h
  | _ => none

/-- A row could not be sent. -/
def abandon : Collect → Collect
  | .stream .. => .streamDrain
  | c => c

namespace State

/-- The sender was dropped. -/
def isClosed (s : State) : Bool := s.reader.isNone && s.pending.isEmpty

/-- The effects of a collector. -/
def emit (s : State) (es : List Emit) : State :=
  { s with pending := es.filterMap item?, header := s.header.or (es.findSome? header?) }

/-- `*guard = None`. -/
def close (s : State) : State := { s with rx := false, channel := [] }

/-- `next_batch` returns, and `next` of the iterator with it. -/
def resolve (s : State) : List RawRow → State
  | [] => { s with iter := ⟨some [], 0, true⟩, loop := .finished }
  | row :: rows => { s with
      iter := ⟨some (row :: rows), 1, s.iter.done⟩
      loop := .body
      seen := s.seen ++ [row] }

/-- `next_batch` goes on. -/
def poll (max : ℕ) (s : State) : Fetch → Option State
  | .first => if s.rx then match s.channel with
      | .ok row :: channel =>
        some { s with channel := channel, loop := .awaiting (.drain [row]) }
      | .error e :: _ => some { s.close with loop := .threw e }
      | [] => if s.isClosed then some (s.close.resolve []) else none
    else some (s.resolve [])
  | .drain out => if out.length < max then match s.channel with
      | .ok row :: channel =>
        some { s with channel := channel, loop := .awaiting (.drain (out ++ [row])) }
      | .error e :: _ => some { s.close with loop := .threw e }
      | [] => if s.isClosed then some (s.close.resolve out) else some (s.resolve out)
    else some (s.resolve out)

end State

/-- One step; the channel holds `cap` items, and a batch at most `max` rows. -/
def step (cap max : ℕ) (s : State) : Label → Option State
  | .read => match s.reader, s.results, s.pending with
    | some c, r :: results, [] => match c.feed r with
      | .more es c' => some ({ s with reader := some c', results := results }.emit es)
      | .done es _ => some ({ s with reader := none, results := results }.emit es)
    | _, _, _ => none
  | .push => match s.pending with
    | item :: pending =>
      if s.rx then
        if s.channel.length < cap then
          some { s with pending := pending, channel := s.channel ++ [item] }
        else none
      else some { s with pending := pending, reader := s.reader.map abandon }
    | [] => none
  | .opened => match s.loop, s.header with
    | .opening, some (.ok _) => some { s with loop := .body }
    | .opening, some (.error e) => some { s.close with loop := .refused e }
    | _, _ => none
  | .next => match s.loop with
    | .body =>
      if s.iter.done then some { s with loop := .finished }
      else match s.iter.batch.bind fun batch => batch[s.iter.idx]? with
        | some row => some { s with
            iter := { s.iter with idx := s.iter.idx + 1 }
            seen := s.seen ++ [row] }
        | none => some { s with loop := .awaiting .first }
    | _ => none
  | .poll => match s.loop with
    | .awaiting fetch => s.poll max fetch
    | _ => none
  | .leave => match s.loop with
    | .body => some { s.close with iter := { s.iter with done := true }, loop := .broken }
    | _ => none

/-- `submit_stream(buf, 1024)`. -/
def rowBuffer : ℕ := 1024

/-- `ROW_STREAM_BATCH`. -/
def rowStreamBatch : ℕ := 256

def streaming (cap max : ℕ) : LTS State Label := ⟨step cap max⟩

/-- The rows that `next_batch` has taken out. -/
def Loop.fetched : Loop → List RawRow
  | awaiting (.drain out) => out
  | _ => []

/-- What a step does, branch by branch. -/
inductive Trans (cap max : ℕ) (s : State) : Label → State → Prop
  | more {c c' : Collect} {r : ReadResult} {results : List ReadResult} {es : List Emit}
      (hreader : s.reader = some c) (hresults : s.results = r :: results)
      (hpending : s.pending = []) (hfeed : c.feed r = .more es c') : Trans cap max s .read
        ({ s with reader := some c', results := results }.emit es)
  | done {c : Collect} {r : ReadResult} {results : List ReadResult} {es : List Emit} {res : Outcome}
      (hreader : s.reader = some c) (hresults : s.results = r :: results)
      (hpending : s.pending = []) (hfeed : c.feed r = .done es res) : Trans cap max s .read
        ({ s with reader := none, results := results }.emit es)
  | push {item : Item} {pending : List Item} (hpending : s.pending = item :: pending)
      (hrx : s.rx = true) (hroom : s.channel.length < cap) :
      Trans cap max s .push { s with pending := pending, channel := s.channel ++ [item] }
  | dropped {item : Item} {pending : List Item} (hpending : s.pending = item :: pending)
      (hrx : s.rx = false) :
      Trans cap max s .push { s with pending := pending, reader := s.reader.map abandon }
  | opened {fields : List FieldDescription} (hloop : s.loop = .opening)
      (hheader : s.header = some (.ok fields)) : Trans cap max s .opened { s with loop := .body }
  | refused {e : PgWireError} (hloop : s.loop = .opening) (hheader : s.header = some (.error e)) :
      Trans cap max s .opened { s.close with loop := .refused e }
  | finish (hloop : s.loop = .body) (hdone : s.iter.done = true) :
      Trans cap max s .next { s with loop := .finished }
  | next {row : RawRow} {batch : List RawRow} (hloop : s.loop = .body)
      (hbatch : s.iter.batch = some batch) (hrow : batch[s.iter.idx]? = some row) :
      Trans cap max s .next { s with
        iter := { s.iter with idx := s.iter.idx + 1 }
        seen := s.seen ++ [row] }
  | fetch (hloop : s.loop = .body) (hrow : s.iter.batch.bind (·[s.iter.idx]?) = none) :
      Trans cap max s .next { s with loop := .awaiting .first }
  | took {f : Fetch} {row : RawRow} {channel : List Item} (hloop : s.loop = .awaiting f)
      (hchannel : s.channel = .ok row :: channel) : Trans cap max s .poll { s with
        channel := channel
        loop := .awaiting (.drain (s.loop.fetched ++ [row])) }
  | threw {f : Fetch} {e : PgWireError} {channel : List Item} (hloop : s.loop = .awaiting f)
      (hshort : s.loop.fetched.length ≤ max - 1) (hchannel : s.channel = .error e :: channel) :
      Trans cap max s .poll { s.close with loop := .threw e }
  | eof {f : Fetch} (hloop : s.loop = .awaiting f) (hchannel : s.channel = [])
      (hclosed : s.isClosed = true) (hrx : f = .first → s.rx = true) :
      Trans cap max s .poll (s.close.resolve s.loop.fetched)
  | full {out : List RawRow} (hloop : s.loop = .awaiting (.drain out)) :
      Trans cap max s .poll (s.resolve out)
  | spent (hloop : s.loop = .awaiting .first) (hrx : s.rx = false) :
      Trans cap max s .poll (s.resolve [])
  | leave (hloop : s.loop = .body) : Trans cap max s .leave
      { s.close with iter := { s.iter with done := true }, loop := .broken }

theorem trans_of_step {cap max : ℕ} {s s' : State} {l : Label}
    (h : (streaming cap max).step s l = some s') : Trans cap max s l s' := by
  cases l <;> simp only [streaming, step] at h
  case read =>
    split at h
    · rename_i hreader hresults hpending
      split at h
      · rename_i hfeed
        cases h
        exact .more hreader hresults hpending hfeed
      · rename_i hfeed
        cases h
        exact .done hreader hresults hpending hfeed
    · cases h
  case push =>
    split at h
    · rename_i hpending
      split_ifs at h with hrx hroom
      · cases h
        exact .push hpending hrx hroom
      · cases h
        exact .dropped hpending (by simpa using hrx)
    · cases h
  case opened =>
    split at h
    · rename_i hloop hheader
      cases h
      exact .opened hloop hheader
    · rename_i hloop hheader
      cases h
      exact .refused hloop hheader
    · cases h
  case next =>
    split at h
    · rename_i hloop
      split_ifs at h with hdone
      · cases h
        exact .finish hloop hdone
      · split at h
        · rename_i hrow
          cases h
          obtain ⟨batch, hbatch, hrow⟩ := Option.bind_eq_some_iff.1 hrow
          exact .next hloop hbatch hrow
        · rename_i hrow
          cases h
          exact .fetch hloop hrow
    · cases h
  case poll =>
    split at h
    · rename_i f hloop
      have hfetched : s.loop.fetched = (Loop.awaiting f).fetched := by rw [hloop]
      have htook : ∀ {row channel}, s.channel = .ok row :: channel → Trans cap max s .poll
          { s with
            channel := channel
            loop := .awaiting (.drain ((Loop.awaiting f).fetched ++ [row])) } := by
        intro row channel hchannel
        rw [← hfetched]
        exact .took hloop hchannel
      have heof : s.channel = [] → s.isClosed = true → (f = .first → s.rx = true) →
          Trans cap max s .poll (s.close.resolve (Loop.awaiting f).fetched) := by
        intro hchannel hclosed hrx
        rw [← hfetched]
        exact .eof hloop hchannel hclosed hrx
      cases f with
      | first =>
        simp only [State.poll] at h
        by_cases hrx : s.rx = true
        · rw [if_pos hrx] at h
          split at h
          · rename_i hchannel
            cases h
            exact htook hchannel
          · rename_i hchannel
            cases h
            exact .threw hloop (by rw [hfetched]; exact Nat.zero_le _) hchannel
          · rename_i hchannel
            obtain ⟨hclosed, h⟩ := Option.ite_none_right_eq_some.1 h
            cases h
            exact heof hchannel hclosed fun _ => hrx
        · rw [if_neg hrx] at h
          cases h
          exact .spent hloop (by simpa using hrx)
      | drain out =>
        simp only [State.poll] at h
        by_cases hshort : out.length < max
        · rw [if_pos hshort] at h
          split at h
          · rename_i hchannel
            cases h
            exact htook hchannel
          · rename_i hchannel
            cases h
            exact .threw hloop (by rw [hfetched]; exact Nat.le_sub_one_of_lt hshort) hchannel
          · rename_i hchannel
            by_cases hclosed : s.isClosed = true
            · rw [if_pos hclosed] at h
              cases h
              exact heof hchannel hclosed fun h => by cases h
            · rw [if_neg hclosed] at h
              cases h
              exact .full hloop
        · rw [if_neg hshort] at h
          cases h
          exact .full hloop
    · cases h
  case leave =>
    split at h
    · rename_i hloop
      cases h
      exact .leave hloop
    · cases h

/-! ### What the server answers -/

/-- The rows of a response up to its end or its error, and which of them has come. -/
def answer : List ReadResult → List RawRow × Option (Except PgWireError Unit)
  | [] => ([], none)
  | .error e :: _ => ([], some (.error e))
  | .ok m :: results => match m with
    | .dataRow row => (row :: (answer results).1, (answer results).2)
    | .errorResponse fields => ([], some (.error (.pg fields)))
    | .readyForQuery _ => ([], some (.ok ()))
    | _ => answer results

/-- The rows and the error as they go through a channel. -/
def items (a : List RawRow × Option (Except PgWireError Unit)) : List Item :=
  a.1.map .ok ++ match a.2 with
    | some (.error e) => [.error e]
    | _ => []

section

variable {a : List RawRow × Option (Except PgWireError Unit)} {rows : List RawRow}
  {e : PgWireError} {rest : List Item}

/-- Rows that came out of a channel are the first of those that went in. -/
theorem prefix_of_items (h : items a = rows.map .ok ++ rest) : rows <+: a.1 := by
  obtain ⟨rs, ending⟩ := a
  induction rows generalizing rs with
  | nil => exact List.nil_prefix
  | cons row rows ih =>
    cases rs with
    | nil =>
      cases ending with
      | none => cases h
      | some r => cases r <;> cases h
    | cons r rs =>
      obtain ⟨hr, hrs⟩ := List.cons.inj h
      cases hr
      exact (List.prefix_cons_inj _).2 (ih rs hrs)

theorem eq_of_items_error (h : items a = rows.map .ok ++ .error e :: rest) :
    a = (rows, some (.error e)) := by
  obtain ⟨rs, ending⟩ := a
  induction rows generalizing rs with
  | nil =>
    cases rs with
    | nil =>
      cases ending with
      | none => cases h
      | some r =>
        cases r with
        | error e' =>
          cases h
          rfl
        | ok u => cases h
    | cons r rs => cases h
  | cons row rows ih =>
    cases rs with
    | nil =>
      cases ending with
      | none => cases h
      | some r => cases r <;> cases h
    | cons r rs =>
      obtain ⟨hr, hrs⟩ := List.cons.inj h
      cases hr
      cases ih rs hrs
      rfl

theorem eq_of_items_ok (h : items a = rows.map .ok) (hended : a.2.isSome = true) :
    a = (rows, some (.ok ())) := by
  obtain ⟨rs, ending⟩ := a
  cases ending with
  | none => cases hended
  | some r =>
    cases r with
    | error e =>
      have hmem : (.error e : Item) ∈ rows.map .ok :=
        h ▸ List.mem_append_right _ (List.mem_singleton_self _)
      obtain ⟨row, -, hrow⟩ := List.mem_map.1 hmem
      cases hrow
    | ok u =>
      have hmap : rs.map (Except.ok : RawRow → Item) = rows.map .ok :=
        (List.append_nil _).symm.trans h
      rw [(List.map_inj_right fun _ _ => Except.ok.inj).1 hmap]

end

/-- A response that ends well is one that `collect_rows` returns. -/
theorem collected (fields : List FieldDescription) (rows : List RawRow) (commandTag : String)
    {results : List ReadResult} {rs : List RawRow} (h : answer results = (rs, some (.ok ()))) :
    ∃ fields' commandTag' rest, (Collect.rows fields rows commandTag).run results =
      some (.ok (.rows fields' (rows ++ rs) commandTag'), rest) := by
  induction results generalizing fields rows commandTag rs with
  | nil => cases h
  | cons r results ih =>
    cases r with
    | error e => cases h
    | ok m =>
      cases m with
      | dataRow row =>
        obtain ⟨rs', hrs, rfl⟩ :
            ∃ rs', answer results = (rs', some (.ok ())) ∧ rs = row :: rs' := by
          obtain ⟨hrs, hend⟩ := Prod.mk.inj h
          exact ⟨_, Prod.ext rfl hend, hrs.symm⟩
        obtain ⟨fields', tag', rest, hrun⟩ := ih fields (rows ++ [row]) commandTag hrs
        refine ⟨fields', tag', rest, ?_⟩
        rw [List.append_cons]
        exact hrun
      | errorResponse fields => cases h
      | readyForQuery status =>
        cases h
        exact ⟨fields, commandTag, results, by simp [Collect.run, Collect.feed, Collect.feedMsg,
          Collect.collectRows]⟩
      | _ => exact ih _ _ _ h

/-! ### What holds in every state -/

/-- The rows of the batch that the body was not given yet. -/
def Iter.shown (it : Iter) : List RawRow := (it.batch.getD []).drop it.idx

theorem shown_eq {it : Iter} {batch : List RawRow} {row : RawRow} (hbatch : it.batch = some batch)
    (hrow : batch[it.idx]? = some row) :
    it.shown = row :: Iter.shown { it with idx := it.idx + 1 } := by
  obtain ⟨hlt, hrow⟩ := List.getElem?_eq_some_iff.1 hrow
  rw [Iter.shown, Iter.shown, hbatch, Option.getD_some, List.drop_eq_getElem_cons hlt, hrow]

/-- What `stream_rows` has not read. -/
def State.unread (s : State) : List Item :=
  match s.reader with
  | some (.stream ..) => items (answer s.results)
  | _ => []

/-- What is behind the state of the loop; `rx` says whether the receiver is alive. -/
inductive LoopOk (max : ℕ) (a : List RawRow × Option (Except PgWireError Unit)) (rx : Bool)
    (it : Iter) (seen : List RawRow) : Loop → Prop
  | opening (hrx : rx = true) (hseen : seen = []) (hshown : it.shown = [])
      (hdone : it.done = false) : LoopOk max a rx it seen .opening
  | refused {e} (hrx : rx = false) (hseen : seen = []) (ha : a = ([], some (.error e))) :
    LoopOk max a rx it seen (.refused e)
  | body (hdone : it.done = false) (hend : rx = false → a = (seen ++ it.shown, some (.ok ()))) :
    LoopOk max a rx it seen .body
  | first (hdone : it.done = false) (hshown : it.shown = [])
      (hend : rx = false → a = (seen, some (.ok ()))) : LoopOk max a rx it seen (.awaiting .first)
  | drain {out} (hdone : it.done = false) (hshown : it.shown = []) (hrx : rx = true)
      (hne : out ≠ []) : LoopOk max a rx it seen (.awaiting (.drain out))
  | finished (hrx : rx = false) (ha : a = (seen, some (.ok ()))) : LoopOk max a rx it seen .finished
  | threw {e lost} (hrx : rx = false) (hlost : lost.length ≤ max - 1)
      (ha : a = (seen ++ lost, some (.error e))) : LoopOk max a rx it seen (.threw e)
  | broken (hrx : rx = false) (hseen : seen <+: a.1) : LoopOk max a rx it seen .broken

/-- What holds in every state of a stream over `results`. -/
structure Inv (cap max : ℕ) (results : List ReadResult) (s : State) : Prop where
  /-- While the receiver is alive, no row is lost. -/
  conserved : s.rx = true → (∀ e, s.header ≠ some (.error e)) → items (answer results) =
    (s.seen ++ s.iter.shown ++ s.loop.fetched).map .ok ++ s.channel ++ s.pending ++ s.unread
  unopened : s.header = none → (∃ fields, s.reader = some (.stream true true fields)) ∧
    s.loop = .opening ∧ s.pending = [] ∧ s.channel = []
  opened : s.header ≠ none → ∀ c, s.reader = some c →
    (∃ fields, c = .stream false true fields) ∨ c = .streamDrain
  refused : ∀ e, s.header = some (.error e) → answer results = ([], some (.error e)) ∧
    (s.loop = .opening ∨ s.loop = .refused e) ∧ s.channel = [] ∧ s.pending = [] ∧
    ∀ c, s.reader = some c → c = .streamDrain
  loop : LoopOk max (answer results) s.rx s.iter s.seen s.loop
  bounded : s.channel.length ≤ cap
  emptied : s.rx = false → s.channel = []
  /-- The end of the response is behind the reader, or in front of it. -/
  ending : (answer results).2.isSome = true ∨
    s.reader.isSome = true ∧ (answer results).2 = (answer s.results).2
  /-- The reader has read the response, and nothing after it. -/
  consumed : ∃ msgs : List BackendMsg, (∀ m ∈ msgs, m.isReady = false) ∧
    (s.reader.isSome = true → results = msgs.map .ok ++ s.results) ∧
    (s.reader = none → ∃ r, (∀ m, r = .ok m → m.isReady = true) ∧
      results = msgs.map .ok ++ r :: s.results)

/-! ### The reader -/

/-- What a message does to the stream: the reader goes on, stops at the end of the response, or
refuses the header. -/
inductive Reads (header : Bool) (a a' : List RawRow × Option (Except PgWireError Unit))
    (es : List Emit) : Option Collect → Prop
  | on {header' : Bool} {fields : List FieldDescription}
      (hitems : items a = es.filterMap item? ++ items a') (hend : a.2 = a'.2)
      (hheader : header' = header ∧ es.findSome? header? = none ∧
          (header = true → es.filterMap item? = []) ∨
        header = true ∧ header' = false ∧ ∃ fields, es.findSome? header? = some (.ok fields)) :
      Reads header a a' es (some (.stream header' true fields))
  | stop {next : Option Collect} (hnext : next = none ∨ next = some .streamDrain)
      (hitems : items a = es.filterMap item?) (hend : a.2.isSome = true)
      (hheader : header = false ∧ es.findSome? header? = none ∨
        header = true ∧ ∃ fields, es.findSome? header? = some (.ok fields)) :
      Reads header a a' es next
  | refuse {next : Option Collect} {e : PgWireError}
      (hnext : next = none ∨ next = some .streamDrain) (htrue : header = true)
      (ha : a = ([], some (.error e)))
      (hheader : es.findSome? header? = some (.error e)) (hitems : es.filterMap item? = []) :
      Reads header a a' es next

theorem filterMap_noteRfqStatus (status : UInt8) :
    (Collect.noteRfqStatus status).filterMap item? = [] ∧
      (Collect.noteRfqStatus status).findSome? header? = none := by
  unfold Collect.noteRfqStatus
  split_ifs <;> exact ⟨rfl, rfl⟩

theorem reads_stream (header : Bool) (fields : List FieldDescription) (r : ReadResult)
    (results : List ReadResult) :
    (∃ es c, (Collect.stream header true fields).feed r = .more es c ∧
      Reads header (answer (r :: results)) (answer results) es (some c)) ∨
    ∃ es res, (Collect.stream header true fields).feed r = .done es res ∧
      Reads header (answer (r :: results)) (answer results) es none := by
  cases r with
  | error e =>
    refine .inr ⟨_, _, rfl, ?_⟩
    cases header with
    | true => exact .refuse (.inl rfl) rfl rfl rfl rfl
    | false => exact .stop (.inl rfl) rfl rfl (.inl ⟨rfl, rfl⟩)
  | ok m =>
    cases m with
    | dataRow row =>
      refine .inl ⟨_, _, rfl, ?_⟩
      cases header with
      | true => exact .on rfl rfl (.inr ⟨rfl, rfl, _, rfl⟩)
      | false => exact .on rfl rfl (.inl ⟨rfl, rfl, fun h => by cases h⟩)
    | commandComplete tag =>
      refine .inl ⟨_, _, rfl, ?_⟩
      cases header with
      | true => exact .on rfl rfl (.inr ⟨rfl, rfl, _, rfl⟩)
      | false => exact .on rfl rfl (.inl ⟨rfl, rfl, fun _ => rfl⟩)
    | readyForQuery status =>
      refine .inr ⟨_, _, rfl, ?_⟩
      obtain ⟨hitems, hheader⟩ := filterMap_noteRfqStatus status
      cases header with
      | true =>
        refine .stop (.inl rfl) ?_ rfl (.inr ⟨rfl, fields, ?_⟩)
        · simp [hitems, Collect.sendHeader, answer, items, item?]
        · simp [hheader, Collect.sendHeader, header?]
      | false =>
        refine .stop (.inl rfl) ?_ rfl (.inl ⟨rfl, ?_⟩)
        · simp [hitems, Collect.sendHeader, answer, items]
        · simp [hheader, Collect.sendHeader]
    | errorResponse err =>
      refine .inl ⟨_, _, rfl, ?_⟩
      cases header with
      | true => exact .refuse (.inr rfl) rfl rfl rfl rfl
      | false => exact .stop (.inr rfl) rfl rfl (.inl ⟨rfl, rfl⟩)
    | _ => exact .inl ⟨_, _, rfl, .on rfl rfl (.inl ⟨rfl, rfl, fun _ => rfl⟩)⟩

/-- A reader that drains sends nothing. -/
theorem reads_streamDrain (r : ReadResult) :
    (∃ es, Collect.streamDrain.feed r = .more es .streamDrain ∧ es.filterMap item? = [] ∧
      es.findSome? header? = none) ∨
    ∃ es res, Collect.streamDrain.feed r = .done es res ∧ es.filterMap item? = [] ∧
      es.findSome? header? = none := by
  cases r with
  | error e => exact .inr ⟨_, _, rfl, rfl, rfl⟩
  | ok m =>
    cases m with
    | readyForQuery status => exact .inr ⟨_, _, rfl, filterMap_noteRfqStatus status⟩
    | _ => exact .inl ⟨_, rfl, rfl, rfl⟩

/-- A message ends a response, or leaves it as it is. -/
theorem answer_cons (r : ReadResult) (results : List ReadResult) :
    (answer (r :: results)).2.isSome = true ∨ ∃ m, r = .ok m ∧ m.isReady = false ∧
      (answer (r :: results)).2 = (answer results).2 := by
  cases r with
  | error e => exact .inl rfl
  | ok m =>
    cases m with
    | errorResponse | readyForQuery => exact .inl rfl
    | _ => exact .inr ⟨_, rfl, rfl, rfl⟩

/-- A turn of the reader, with what is left of its loop. -/
def Turn (c : Collect) (r : ReadResult) (es : List Emit) : Option Collect → Prop
  | some c' => c.feed r = .more es c'
  | none => ∃ res, c.feed r = .done es res

theorem Turn.consumed {c : Collect} {r : ReadResult} {es : List Emit} {next : Option Collect}
    (h : Turn c r es next) {results rest : List ReadResult} {msgs : List BackendMsg}
    (hmsgs : ∀ m ∈ msgs, m.isReady = false) (heq : results = msgs.map .ok ++ r :: rest) :
    ∃ msgs : List BackendMsg, (∀ m ∈ msgs, m.isReady = false) ∧
      (next.isSome = true → results = msgs.map .ok ++ rest) ∧
      (next = none → ∃ r, (∀ m, r = .ok m → m.isReady = true) ∧
        results = msgs.map .ok ++ r :: rest) := by
  cases next with
  | none =>
    obtain ⟨res, hdone⟩ := h
    refine ⟨msgs, hmsgs, (fun h => by cases h), fun _ => ⟨r, ?_, heq⟩⟩
    rintro m rfl
    exact c.isReady_of_done hdone
  | some c' =>
    cases r with
    | error e =>
      obtain ⟨es', res, hdone, -⟩ := c.feedError_done e
      cases hdone.symm.trans h
    | ok m =>
      refine ⟨msgs ++ [m], ?_, (fun _ => ?_), (fun h => by cases h)⟩
      · intro m' hm'
        rcases List.mem_append.1 hm' with hm' | hm'
        · exact hmsgs m' hm'
        · rw [List.mem_singleton.1 hm']
          exact c.not_isReady_of_more h
      · rw [heq, List.map_append, List.append_assoc]
        rfl

theorem Turn.reads {header : Bool} {fields : List FieldDescription} {r : ReadResult}
    {es : List Emit} {next : Option Collect} (h : Turn (.stream header true fields) r es next)
    (results : List ReadResult) :
    Reads header (answer (r :: results)) (answer results) es next := by
  rcases reads_stream header fields r results with
    ⟨es', c, hfeed, hreads⟩ | ⟨es', res, hfeed, hreads⟩
  · cases next with
    | none =>
      obtain ⟨res, hdone⟩ := h
      cases hfeed.symm.trans hdone
    | some c' =>
      cases hfeed.symm.trans h
      exact hreads
  · cases next with
    | none =>
      obtain ⟨res, hdone⟩ := h
      cases hfeed.symm.trans hdone
      exact hreads
    | some c' => cases hfeed.symm.trans h

theorem Turn.drains {r : ReadResult} {es : List Emit} {next : Option Collect}
    (h : Turn .streamDrain r es next) : (next = none ∨ next = some .streamDrain) ∧
      es.filterMap item? = [] ∧ es.findSome? header? = none := by
  rcases reads_streamDrain r with ⟨es', hfeed, hitems, hheader⟩ | ⟨es', res, hfeed, hitems, hheader⟩
  · cases next with
    | none =>
      obtain ⟨res, hdone⟩ := h
      cases hfeed.symm.trans hdone
    | some c' =>
      cases hfeed.symm.trans h
      exact ⟨.inr rfl, hitems, hheader⟩
  · cases next with
    | none =>
      obtain ⟨res, hdone⟩ := h
      cases hfeed.symm.trans hdone
      exact ⟨.inl rfl, hitems, hheader⟩
    | some c' => cases hfeed.symm.trans h

namespace Inv

variable {cap max : ℕ} {results rest : List ReadResult} {s : State} {r : ReadResult}
  {es : List Emit} {next : Option Collect}

/-- A turn of a reader that drains. -/
theorem drained (h : Inv cap max results s) (hreader : s.reader = some .streamDrain)
    (hresults : s.results = r :: rest) (hpending : s.pending = [])
    (hturn : Turn .streamDrain r es next) :
    Inv cap max results ({ s with reader := next, results := rest }.emit es) := by
  obtain ⟨hnext, hitems, hheader⟩ := hturn.drains
  have hsame : (({ s with reader := next, results := rest } : State).emit es) =
      { s with reader := next, results := rest } := by
    rw [State.emit, hitems, hheader, Option.or_none, ← hpending]
  have hopen : s.header ≠ none := by
    intro hnone
    obtain ⟨⟨fields, hfields⟩, -⟩ := h.unopened hnone
    rw [hreader] at hfields
    cases hfields
  rw [hsame]
  refine ⟨?_, fun hnone => absurd hnone hopen, ?_, ?_, h.loop, h.bounded, h.emptied, ?_, ?_⟩
  · intro hrx hno
    have hunread : State.unread { s with reader := next, results := rest } = s.unread := by
      rw [State.unread, State.unread, hreader]
      rcases hnext with rfl | rfl <;> rfl
    rw [hunread]
    exact h.conserved hrx hno
  · intro _ c hc
    rcases hnext with rfl | rfl <;> cases hc
    exact .inr rfl
  · intro e he
    obtain ⟨ha, hloop, hchannel, hpending, -⟩ := h.refused e he
    refine ⟨ha, hloop, hchannel, hpending, fun c hc => ?_⟩
    rcases hnext with rfl | rfl <;> cases hc
    rfl
  · rcases h.ending with hended | ⟨-, heq⟩
    · exact .inl hended
    · rw [hresults] at heq
      rw [heq]
      rcases answer_cons r rest with hended | ⟨m, rfl, hm, hsame⟩
      · exact .inl hended
      · refine .inr ⟨?_, hsame⟩
        cases next with
        | some c => rfl
        | none =>
          obtain ⟨res, hdone⟩ := hturn
          have hready : m.isReady = true := Collect.isReady_of_done .streamDrain hdone
          rw [hready] at hm
          cases hm
  · obtain ⟨msgs, hmsgs, hsome, -⟩ := h.consumed
    exact hturn.consumed hmsgs (hresults ▸ hsome (by rw [hreader]; rfl))

/-- A turn of a reader that streams. -/
theorem streamed (h : Inv cap max results s) {header : Bool} {fields : List FieldDescription}
    (hheader : header = true ↔ s.header = none)
    (hreader : s.reader = some (.stream header true fields)) (hresults : s.results = r :: rest)
    (hpending : s.pending = []) (hturn : Turn (.stream header true fields) r es next) :
    Inv cap max results ({ s with reader := next, results := rest }.emit es) := by
  have hconsumed : ∃ msgs : List BackendMsg, (∀ m ∈ msgs, m.isReady = false) ∧
      (next.isSome = true → results = msgs.map .ok ++ rest) ∧
      (next = none → ∃ r, (∀ m, r = .ok m → m.isReady = true) ∧
        results = msgs.map .ok ++ r :: rest) := by
    obtain ⟨msgs, hmsgs, hsome, -⟩ := h.consumed
    exact hturn.consumed hmsgs (hresults ▸ hsome (by rw [hreader]; rfl))
  have hno : ∀ e, s.header ≠ some (.error e) := by
    intro e he
    obtain ⟨-, -, -, -, hdrain⟩ := h.refused e he
    cases hdrain _ hreader
  have hunread : s.unread = items (answer (r :: rest)) := by
    rw [State.unread, hreader, hresults]
  have hconserved := fun hrx => h.conserved hrx hno
  rw [hunread, hpending, List.append_nil] at hconserved
  have hend : (answer results).2.isSome = true ∨
      (answer results).2 = (answer (r :: rest)).2 := by
    rw [← hresults]
    exact h.ending.imp_right And.right
  cases hturn.reads rest with
  | @on header' fields' hitems hsame hcases =>
    have hitems' : s.rx = true → items (answer results) =
        (s.seen ++ s.iter.shown ++ s.loop.fetched).map .ok ++ s.channel ++ es.filterMap item? ++
          items (answer rest) := by
      intro hrx
      rw [hconserved hrx, hitems, ← List.append_assoc]
    have hending : (answer results).2.isSome = true ∨ (answer results).2 = (answer rest).2 :=
      hend.imp_right fun h => h.trans hsame
    rcases hcases with ⟨rfl, hnone, hempty⟩ | ⟨rfl, rfl, fields'', hsome⟩
    · have hsame' : s.header.or (es.findSome? header?) = s.header := by rw [hnone, Option.or_none]
      refine ⟨fun hrx _ => hitems' hrx, ?_, ?_, ?_, h.loop, h.bounded,
        h.emptied, hending.imp_right fun h => ⟨rfl, h⟩, hconsumed⟩ <;>
        simp only [State.emit, hsame']
      · intro hnone
        obtain ⟨-, hloop, -, hchannel⟩ := h.unopened hnone
        have htrue := hheader.2 hnone
        exact ⟨⟨fields', by rw [htrue]⟩, hloop, hempty htrue, hchannel⟩
      · intro hsome c hc
        cases hc
        have hfalse : header' = false := by
          rw [← Bool.not_eq_true]
          exact fun htrue => hsome (hheader.1 htrue)
        exact .inl ⟨fields', by rw [hfalse]⟩
      · exact fun e he => absurd he (hno e)
    · have hnew : s.header.or (es.findSome? header?) = some (.ok fields'') := by
        rw [hheader.1 rfl, Option.none_or, hsome]
      refine ⟨fun hrx _ => hitems' hrx, ?_, ?_, ?_, h.loop, h.bounded,
        h.emptied, hending.imp_right fun h => ⟨rfl, h⟩, hconsumed⟩ <;> simp only [State.emit, hnew]
      · intro hnone
        cases hnone
      · intro _ c hc
        cases hc
        exact .inl ⟨fields', rfl⟩
      · intro e he
        cases he
  | stop hnext hitems hended hcases =>
    have hending : (answer results).2.isSome = true := by
      rcases hend with h | h
      · exact h
      · rw [h]
        exact hended
    have hunread' : ∀ s' : State, s'.reader = next → s'.unread = [] := by
      intro s' hs'
      rw [State.unread, hs']
      rcases hnext with rfl | rfl <;> rfl
    have hdrain : ∀ c, next = some c → c = .streamDrain := by
      intro c hc
      rcases hnext with rfl | rfl <;> cases hc
      rfl
    have hopen : s.header.or (es.findSome? header?) ≠ none := by
      rcases hcases with ⟨rfl, hnone⟩ | ⟨rfl, fields', hsome⟩
      · rw [hnone, Option.or_none]
        exact fun hnone => Bool.false_ne_true (hheader.2 hnone)
      · rw [hheader.1 rfl, hsome]
        exact fun h => by cases h
    have hok : ∀ e, s.header.or (es.findSome? header?) ≠ some (.error e) := by
      intro e
      rcases hcases with ⟨rfl, hnone⟩ | ⟨rfl, fields', hsome⟩
      · rw [hnone, Option.or_none]
        exact hno e
      · rw [hheader.1 rfl, hsome]
        exact fun h => by cases h
    refine ⟨?_, fun hnone => absurd hnone hopen, fun _ c hc => .inr (hdrain c hc),
      fun e he => absurd he (hok e), h.loop, h.bounded, h.emptied, .inl hending, hconsumed⟩
    intro hrx _
    rw [hunread' _ rfl, List.append_nil]
    exact (hconserved hrx).trans (by rw [hitems]; rfl)
  | @refuse _ e hnext htrue ha hrefused hitems =>
    have hnone := hheader.1 htrue
    obtain ⟨-, hloop, -, hchannel⟩ := h.unopened hnone
    have hnew : s.header.or (es.findSome? header?) = some (.error e) := by
      rw [hnone, Option.none_or, hrefused]
    have hloopOk := h.loop
    rw [hloop] at hloopOk
    obtain ⟨hrx, hseen, hshown⟩ : s.rx = true ∧ s.seen = [] ∧ s.iter.shown = [] := by
      cases hloopOk
      exact ⟨‹_›, ‹_›, ‹_›⟩
    have hresults' : answer results = ([], some (.error e)) := by
      have hitems' : items (answer results) = ([] : List RawRow).map .ok ++ [.error e] := by
        rw [hconserved hrx, hseen, hshown, hloop, hchannel, ha]
        rfl
      exact eq_of_items_error hitems'
    refine ⟨fun _ hok => absurd hnew (hok e), fun hnone => ?_, fun _ c hc => ?_, ?_, h.loop,
      h.bounded, h.emptied, .inl (by rw [hresults']; rfl), hconsumed⟩
    · cases hnew.symm.trans hnone
    · rcases hnext with rfl | rfl <;> cases hc
      exact .inr rfl
    · intro e' he'
      cases hnew.symm.trans he'
      refine ⟨hresults', .inl hloop, hchannel, hitems, fun c hc => ?_⟩
      rcases hnext with rfl | rfl <;> cases hc
      rfl

/-- A turn of the reader. -/
theorem read (h : Inv cap max results s) {c : Collect} (hreader : s.reader = some c)
    (hresults : s.results = r :: rest) (hpending : s.pending = []) (hturn : Turn c r es next) :
    Inv cap max results ({ s with reader := next, results := rest }.emit es) := by
  by_cases hnone : s.header = none
  · obtain ⟨⟨fields, hfields⟩, -⟩ := h.unopened hnone
    cases hreader.symm.trans hfields
    exact h.streamed (iff_of_true rfl hnone) hreader hresults hpending hturn
  · rcases h.opened hnone c hreader with ⟨fields, rfl⟩ | rfl
    · exact h.streamed (iff_of_false Bool.false_ne_true hnone) hreader hresults hpending hturn
    · exact h.drained hreader hresults hpending hturn

/-- While the loop runs, the header has come. -/
theorem running (h : Inv cap max results s) (hloop : s.loop = .body ∨ ∃ f, s.loop = .awaiting f) :
    s.header ≠ none ∧ ∀ e, s.header ≠ some (.error e) := by
  refine ⟨?_, ?_⟩
  · intro hnone
    obtain ⟨-, hopening, -⟩ := h.unopened hnone
    rw [hopening] at hloop
    rcases hloop with hloop | ⟨f, hloop⟩ <;> cases hloop
  · intro e he
    obtain ⟨-, hrefused, -⟩ := h.refused e he
    rcases hloop with hloop | ⟨f, hloop⟩ <;> rw [hloop] at hrefused <;>
      rcases hrefused with hrefused | hrefused <;> cases hrefused

/-- A step of the loop alone. -/
theorem looped (h : Inv cap max results s) (hloop : s.loop = .body ∨ ∃ f, s.loop = .awaiting f)
    {s' : State} (hreader : s'.reader = s.reader) (hresults : s'.results = s.results)
    (hheader : s'.header = s.header) (hbounded : s'.channel.length ≤ cap)
    (hemptied : s'.rx = false → s'.channel = [])
    (hok : LoopOk max (answer results) s'.rx s'.iter s'.seen s'.loop)
    (hconserved : s'.rx = true → items (answer results) =
      (s'.seen ++ s'.iter.shown ++ s'.loop.fetched).map .ok ++ s'.channel ++ s'.pending ++
        s'.unread) : Inv cap max results s' := by
  obtain ⟨hopen, hno⟩ := h.running hloop
  refine ⟨fun hrx _ => hconserved hrx, ?_, ?_, ?_, hok, hbounded, hemptied, ?_, ?_⟩
  · rw [hheader]
    exact fun hnone => absurd hnone hopen
  · rw [hheader, hreader]
    exact h.opened
  · rw [hheader]
    exact fun e he => absurd he (hno e)
  · rw [hreader, hresults]
    exact h.ending
  · rw [hreader, hresults]
    exact h.consumed

/-- What was sent, while the loop runs and the receiver is alive. -/
theorem sent (h : Inv cap max results s) (hloop : s.loop = .body ∨ ∃ f, s.loop = .awaiting f)
    (hrx : s.rx = true) : items (answer results) =
      (s.seen ++ s.iter.shown ++ s.loop.fetched).map .ok ++ s.channel ++ s.pending ++ s.unread :=
  h.conserved hrx (h.running hloop).2

theorem alive (h : Inv cap max results s) (hchannel : s.channel ≠ []) : s.rx = true := by
  by_contra hrx
  exact hchannel (h.emptied (by simpa using hrx))

/-- A batch is fetched when the last one is used up. -/
theorem awaiting (h : Inv cap max results s) {f : Fetch} (hloop : s.loop = .awaiting f) :
    s.iter.done = false ∧ s.iter.shown = [] ∧
      (s.rx = false → f = .first ∧ answer results = (s.seen, some (.ok ()))) := by
  have hok := h.loop
  rw [hloop] at hok
  cases hok with
  | first hdone hshown hend => exact ⟨hdone, hshown, fun hrx => ⟨rfl, hend hrx⟩⟩
  | drain hdone hshown hrx hne =>
    refine ⟨hdone, hshown, fun hno => ?_⟩
    rw [hrx] at hno
    cases hno

/-- `next_batch` returns rows, which it has taken out. -/
theorem resolved (h : Inv cap max results s) {f : Fetch} (hloop : s.loop = .awaiting f)
    {s₁ : State} (hs₁ : s₁ = s ∨ s₁ = s.close)
    (hend : s₁.rx = false → answer results = (s.seen ++ s.loop.fetched, some (.ok ())))
    (hempty : s.loop.fetched = [] → s₁.rx = false) :
    Inv cap max results (s₁.resolve s.loop.fetched) := by
  obtain ⟨hdone, hshown, -⟩ := h.awaiting hloop
  have hsame : s₁.reader = s.reader ∧ s₁.results = s.results ∧ s₁.header = s.header ∧
      s₁.pending = s.pending ∧ s₁.iter = s.iter ∧ s₁.seen = s.seen ∧ s₁.channel.length ≤ cap ∧
      (s₁.rx = false → s₁.channel = []) ∧ (s₁.rx = true → s₁ = s) := by
    rcases hs₁ with rfl | rfl
    · exact ⟨rfl, rfl, rfl, rfl, rfl, rfl, h.bounded, h.emptied, fun _ => rfl⟩
    · exact ⟨rfl, rfl, rfl, rfl, rfl, rfl, Nat.zero_le _, fun _ => rfl, fun hrx => by cases hrx⟩
  obtain ⟨hreader, hresults, hheader, hpending, hiter, hseen, hbounded, hemptied, hback⟩ := hsame
  cases hfetched : s.loop.fetched with
  | nil =>
    have hrx := hempty hfetched
    refine h.looped (.inr ⟨f, hloop⟩) hreader hresults hheader hbounded hemptied
      (.finished hrx ?_) ?_
    · rw [hend hrx, hfetched, List.append_nil]
      exact congrArg (·, _) hseen.symm
    · intro hrx'
      exact absurd (hrx.symm.trans hrx') Bool.false_ne_true
  | cons row rows =>
    refine h.looped (.inr ⟨f, hloop⟩) hreader hresults hheader hbounded hemptied
      (.body (hiter.symm ▸ hdone : s₁.iter.done = false) fun hrx => ?_) fun hrx => ?_
    · rw [hend hrx, hfetched, ← hseen]
      simp [State.resolve, Iter.shown]
    · cases hback hrx
      rw [h.sent (.inr ⟨f, hloop⟩) hrx, hshown, hfetched]
      simp [State.resolve, Iter.shown, Loop.fetched, State.unread]

theorem step (h : Inv cap max results s) {l : Label} {s' : State}
    (hl : (streaming cap max).step s l = some s') : Inv cap max results s' := by
  cases trans_of_step hl with
  | more hreader hresults hpending hfeed => exact h.read hreader hresults hpending hfeed
  | done hreader hresults hpending hfeed => exact h.read hreader hresults hpending ⟨_, hfeed⟩
  | @push item pending hpending hrx hroom =>
    have hne : s.pending ≠ [] := by simp [hpending]
    refine ⟨fun _ hno => ?_, ?_, h.opened, ?_, h.loop, ?_, ?_, h.ending, h.consumed⟩
    · rw [h.conserved hrx hno, hpending]
      simp [State.unread]
    · exact fun hnone => absurd (h.unopened hnone).2.2.1 hne
    · exact fun e he => absurd (h.refused e he).2.2.2.1 hne
    · rw [List.length_append]
      exact hroom
    · intro hdead
      cases hrx.symm.trans hdead
  | @dropped item pending hpending hrx =>
    have hne : s.pending ≠ [] := by simp [hpending]
    have hsome : (s.reader.map abandon).isSome = s.reader.isSome := by simp
    refine ⟨fun hlive => ?_, ?_, ?_, ?_, h.loop, h.bounded, h.emptied, ?_, ?_⟩
    · cases hrx.symm.trans hlive
    · exact fun hnone => absurd (h.unopened hnone).2.2.1 hne
    · intro hopen c hc
      obtain ⟨c', hc', rfl⟩ := Option.map_eq_some_iff.1 hc
      rcases h.opened hopen c' hc' with ⟨fields, rfl⟩ | rfl <;> exact .inr rfl
    · exact fun e he => absurd (h.refused e he).2.2.2.1 hne
    · rw [hsome]
      exact h.ending
    · obtain ⟨msgs, hmsgs, hopen, hdone⟩ := h.consumed
      exact ⟨msgs, hmsgs, fun hs => hopen (hsome ▸ hs),
        fun hn => hdone (Option.map_eq_none_iff.1 hn)⟩
  | @opened fields hloop hheader =>
    have hok := h.loop
    rw [hloop] at hok
    cases hok with
    | opening hrx hseen hshown hdone =>
      refine ⟨fun hlive hno => ?_, ?_, h.opened, ?_, .body hdone ?_, h.bounded, h.emptied,
        h.ending, h.consumed⟩
      · rw [h.conserved hlive hno, hloop]
        rfl
      · exact fun hnone => by cases hheader.symm.trans hnone
      · exact fun e he => by cases hheader.symm.trans he
      · exact fun hdead => by cases hrx.symm.trans hdead
  | @refused e hloop hheader =>
    obtain ⟨ha, -, hchannel, hpending, hdrain⟩ := h.refused e hheader
    have hok := h.loop
    rw [hloop] at hok
    cases hok with
    | opening hrx hseen hshown hdone =>
      refine ⟨?_, ?_, h.opened, ?_, .refused rfl hseen ha, Nat.zero_le _, fun _ => rfl, h.ending,
        h.consumed⟩
      · exact fun hlive => by cases hlive
      · exact fun hnone => by cases hheader.symm.trans hnone
      · intro e' he'
        cases hheader.symm.trans he'
        exact ⟨ha, .inr rfl, rfl, hpending, hdrain⟩
  | finish hloop hdone =>
    have hok := h.loop
    rw [hloop] at hok
    cases hok with
    | body hopen => cases hopen.symm.trans hdone
  | @next row batch hloop hbatch hrow =>
    have hshown := shown_eq hbatch hrow
    have hok := h.loop
    rw [hloop] at hok
    cases hok with
    | body hdone hend =>
      refine h.looped (.inl hloop) rfl rfl rfl h.bounded h.emptied ?_ fun hrx => ?_
      · rw [hloop]
        refine .body hdone fun hrx => ?_
        rw [hend hrx, hshown, List.append_assoc]
        rfl
      · rw [h.sent (.inl hloop) hrx, hshown, hloop]
        simp [State.unread]
  | fetch hloop hrow =>
    have hshown : s.iter.shown = [] := by
      rw [Iter.shown]
      cases hbatch : s.iter.batch with
      | none => exact List.drop_nil
      | some batch =>
        rw [hbatch, Option.bind_some] at hrow
        exact List.drop_eq_nil_of_le (List.getElem?_eq_none_iff.1 hrow)
    have hok := h.loop
    rw [hloop] at hok
    cases hok with
    | body hdone hend =>
      refine h.looped (.inl hloop) rfl rfl rfl h.bounded h.emptied
        (.first hdone hshown fun hrx => ?_) fun hrx => ?_
      · rw [hend hrx, hshown, List.append_nil]
      · rw [h.sent (.inl hloop) hrx, hloop]
        rfl
  | @took f row channel hloop hchannel =>
    obtain ⟨hdone, hshown, -⟩ := h.awaiting hloop
    have hrx := h.alive (by simp [hchannel])
    refine h.looped (.inr ⟨f, hloop⟩) rfl rfl rfl ?_ ?_ (.drain hdone hshown hrx (by simp)) ?_
    · have hbounded := h.bounded
      rw [hchannel] at hbounded
      exact Nat.le_of_succ_le hbounded
    · intro hdead
      cases hrx.symm.trans hdead
    · intro _
      rw [h.sent (.inr ⟨f, hloop⟩) hrx, hchannel]
      simp [Loop.fetched, State.unread]
  | @threw f e channel hloop hshort hchannel =>
    obtain ⟨hdone, hshown, -⟩ := h.awaiting hloop
    have hrx := h.alive (by simp [hchannel])
    have hsent := h.sent (.inr ⟨f, hloop⟩) hrx
    rw [hshown, List.append_nil, hchannel, List.append_assoc, List.append_assoc,
      List.cons_append] at hsent
    refine h.looped (.inr ⟨f, hloop⟩) rfl rfl rfl (Nat.zero_le _) (fun _ => rfl)
      (.threw rfl hshort (eq_of_items_error hsent)) fun hlive => ?_
    cases hlive
  | @eof f hloop hchannel hclosed hrx =>
    obtain ⟨hdone, hshown, hdead⟩ := h.awaiting hloop
    have hlive : s.rx = true := by
      by_contra hno
      exact hno (hrx (hdead (by simpa using hno)).1)
    obtain ⟨hreader, hpending⟩ : s.reader = none ∧ s.pending = [] := by
      simpa [State.isClosed] using hclosed
    have hended : (answer results).2.isSome = true := by
      rcases h.ending with hended | ⟨hopen, -⟩
      · exact hended
      · rw [hreader] at hopen
        cases hopen
    have hall : items (answer results) = (s.seen ++ s.loop.fetched).map .ok := by
      rw [h.sent (.inr ⟨f, hloop⟩) hlive, hshown, hchannel, hpending, State.unread, hreader]
      simp
    exact h.resolved hloop (.inr rfl) (fun _ => eq_of_items_ok hall hended) fun _ => rfl
  | @full out hloop =>
    have hfetched : s.loop.fetched = out := by rw [hloop]; rfl
    have hok := h.loop
    rw [hloop] at hok
    cases hok with
    | drain hdone hshown hrx hne =>
      have hresolved := h.resolved hloop (.inl rfl)
        (fun hdead => by cases hrx.symm.trans hdead) fun hempty => absurd (hfetched ▸ hempty) hne
      rwa [hfetched] at hresolved
  | spent hloop hrx =>
    have hfetched : s.loop.fetched = [] := by rw [hloop]; rfl
    have hresolved := h.resolved hloop (.inl rfl)
      (fun hdead => by rw [hfetched, List.append_nil]; exact ((h.awaiting hloop).2.2 hdead).2)
      fun _ => hrx
    rwa [hfetched] at hresolved
  | leave hloop =>
    refine h.looped (.inl hloop) rfl rfl rfl (Nat.zero_le _) (fun _ => rfl)
      (.broken rfl ?_) fun hlive => by cases hlive
    by_cases hrx : s.rx = true
    · have hsent := h.sent (.inl hloop) hrx
      simp only [List.map_append, List.append_assoc] at hsent
      exact prefix_of_items hsent
    · have hok := h.loop
      rw [hloop] at hok
      cases hok with
      | body hdone hend =>
        rw [hend (by simpa using hrx)]
        exact List.prefix_append _ _

end Inv

/-! ### Every run comes to an end -/

/-- The steps that the loop has before it. -/
def Loop.rank : Loop → ℕ
  | opening => 3
  | body => 2
  | awaiting _ => 1
  | _ => 0

/-- The steps that are left. -/
def State.left (s : State) : ℕ :=
  10 * s.results.length + 8 * s.pending.length + 6 * s.channel.length +
    4 * s.loop.fetched.length + 3 * s.iter.shown.length + s.loop.rank

section

variable {cap max : ℕ} {results : List ReadResult} {s s' : State} {l : Label}

theorem length_filterMap_item (es : List Emit) :
    (es.filterMap item?).length = es.countP Emit.isRow := by
  induction es with
  | nil => rfl
  | cons e es ih =>
    cases e with
    | row r =>
      have hitem : item? (.row r) = some r := rfl
      rw [List.filterMap_cons_some hitem, List.length_cons, ih, List.countP_cons_of_pos rfl]
    | _ => rw [List.filterMap_cons_none rfl, ih, List.countP_cons_of_neg Bool.false_ne_true]

/-- The end of a response sends no row. -/
theorem countP_isRow_of_done {c : Collect} {m : BackendMsg} {es : List Emit} {res : Outcome}
    (h : c.feedMsg m = .done es res) : es.countP Emit.isRow = 0 := by
  have hstatus : ∀ status, (Collect.noteRfqStatus status).countP Emit.isRow = 0 := by
    intro status
    unfold Collect.noteRfqStatus
    split_ifs <;> rfl
  have hready := c.isReady_of_done h
  cases m with
  | readyForQuery status =>
    cases c with
    | stream header rowRx fields =>
      cases h
      rw [List.countP_append, hstatus]
      cases header <;> rfl
    | _ =>
      cases h
      exact hstatus status
  | _ => cases hready

/-- A message sends at most one row. -/
theorem Turn.length_le {c : Collect} {r : ReadResult} {es : List Emit} {next : Option Collect}
    (h : Turn c r es next) : (es.filterMap item?).length ≤ 1 := by
  rw [length_filterMap_item]
  cases r with
  | error e =>
    obtain ⟨es', res, hfeed, hone⟩ := c.feedError_done e
    cases next with
    | none =>
      obtain ⟨res', hdone⟩ := h
      cases hfeed.symm.trans hdone
      exact hone
    | some c' => cases hfeed.symm.trans h
  | ok m =>
    cases next with
    | none =>
      obtain ⟨res, hdone⟩ := h
      rw [countP_isRow_of_done hdone]
      exact Nat.zero_le _
    | some c' =>
      obtain ⟨es', c'', hfeed, hone⟩ := c.feedMsg_of_not_isReady (c.not_isReady_of_more h)
      cases hfeed.symm.trans h
      exact hone

/-- A batch that is returned is shown to the body. -/
theorem left_resolve {f : Fetch} (hloop : s.loop = .awaiting f) {s₁ : State}
    (hs₁ : s₁ = s ∨ s₁ = s.close) : (s₁.resolve s.loop.fetched).left < s.left := by
  have hsame : s₁.results = s.results ∧ s₁.pending = s.pending ∧
      s₁.channel.length ≤ s.channel.length := by
    rcases hs₁ with rfl | rfl
    · exact ⟨rfl, rfl, Nat.le_refl _⟩
    · exact ⟨rfl, rfl, Nat.zero_le _⟩
  obtain ⟨hresults, hpending, hchannel⟩ := hsame
  have hrank : s.loop.rank = 1 := by rw [hloop]; rfl
  cases hfetched : s.loop.fetched with
  | nil =>
    have hleft : (s₁.resolve []).left =
        10 * s.results.length + 8 * s.pending.length + 6 * s₁.channel.length := by
      rw [← hresults, ← hpending]
      rfl
    rw [hleft, State.left, hrank]
    omega
  | cons row rows =>
    have hleft : (s₁.resolve (row :: rows)).left = 10 * s.results.length + 8 * s.pending.length +
        6 * s₁.channel.length + 3 * rows.length + 2 := by
      rw [← hresults, ← hpending]
      rfl
    rw [hleft, State.left, hrank, hfetched, List.length_cons]
    omega

/-- Every step is one that was left. -/
theorem left_lt (hl : (streaming cap max).step s l = some s') : s'.left < s.left := by
  cases trans_of_step hl with
  | @more c c' r rest es hreader hresults hpending hfeed =>
    have hturn : Turn c r es (some c') := hfeed
    have hone := hturn.length_le
    simp only [State.left, State.emit, hresults, hpending, List.length_cons, List.length_nil]
    omega
  | @done c r rest es res hreader hresults hpending hfeed =>
    have hturn : Turn c r es none := ⟨res, hfeed⟩
    have hone := hturn.length_le
    simp only [State.left, State.emit, hresults, hpending, List.length_cons, List.length_nil]
    omega
  | push hpending hrx hroom =>
    simp only [State.left, hpending, List.length_cons, List.length_append, List.length_nil]
    omega
  | dropped hpending hrx =>
    simp only [State.left, hpending, List.length_cons]
    omega
  | opened hloop hheader =>
    simp only [State.left, hloop, Loop.rank, Loop.fetched]
    omega
  | refused hloop hheader =>
    simp only [State.left, State.close, hloop, Loop.rank, Loop.fetched, List.length_nil]
    omega
  | finish hloop hdone =>
    simp only [State.left, hloop, Loop.rank, Loop.fetched]
    omega
  | @next row batch hloop hbatch hrow =>
    rw [State.left, State.left, shown_eq hbatch hrow, List.length_cons]
    simp only
    omega
  | fetch hloop hrow =>
    simp only [State.left, hloop, Loop.rank, Loop.fetched]
    omega
  | took hloop hchannel =>
    simp only [State.left, hchannel, hloop, Loop.rank, List.length_cons]
    simp [Loop.fetched]
    omega
  | threw hloop hshort hchannel =>
    simp only [State.left, State.close, hloop, hchannel, Loop.rank, List.length_cons]
    simp [Loop.fetched]
    omega
  | eof hloop hchannel hclosed hrx => exact left_resolve hloop (.inr rfl)
  | @full out hloop =>
    have hlt := left_resolve hloop (.inl rfl)
    rwa [hloop] at hlt
  | spent hloop hrx =>
    have hlt := left_resolve hloop (.inl rfl)
    rwa [hloop] at hlt
  | leave hloop =>
    simp only [State.left, State.close, hloop, Loop.rank, Loop.fetched, Iter.shown,
      List.length_nil]
    omega

/-- Something can happen. -/
def State.GoesOn (cap max : ℕ) (s : State) : Prop :=
  ∃ l, ((streaming cap max).step s l).isSome = true

theorem goes_on_read {c : Collect} (hreader : s.reader = some c) (hresults : s.results ≠ [])
    (hpending : s.pending = []) : s.GoesOn cap max := by
  obtain ⟨r, rest, hrest⟩ := List.exists_cons_of_ne_nil hresults
  refine ⟨.read, ?_⟩
  simp only [streaming, step, hreader, hrest, hpending]
  split <;> rfl

theorem goes_on_push {item : Item} {pending : List Item} (hpending : s.pending = item :: pending)
    (hroom : s.rx = true → s.channel.length < cap) : s.GoesOn cap max := by
  refine ⟨.push, ?_⟩
  cases hrx : s.rx with
  | true => simp [streaming, step, hpending, hrx, hroom hrx]
  | false => simp [streaming, step, hpending, hrx]

theorem goes_on_poll {f : Fetch} (hloop : s.loop = .awaiting f)
    (hchannel : s.channel = [] ∧ s.isClosed = true ∨ s.channel ≠ []) : s.GoesOn cap max := by
  refine ⟨.poll, ?_⟩
  simp only [streaming, step, hloop]
  rcases hchannel with ⟨hempty, hclosed⟩ | hchannel
  · cases f <;> simp only [State.poll, hempty, hclosed] <;> split_ifs <;> rfl
  · obtain ⟨item, channel, hchannel⟩ := List.exists_cons_of_ne_nil hchannel
    cases f <;> cases item <;> simp only [State.poll, hchannel] <;> split_ifs <;> rfl

/-- Nothing waits for anything but the server and the body of the loop. -/
theorem Inv.goes_on (hcap : 0 < cap) (h : Inv cap max results s)
    (hserver : s.reader.isSome = true → s.results ≠ []) (hbody : s.loop ≠ .body)
    (hopen : s.reader.isSome = true ∨ s.loop = .opening ∨ ∃ f, s.loop = .awaiting f) :
    s.GoesOn cap max := by
  have hreads : s.reader.isSome = true → s.pending = [] → s.GoesOn cap max := by
    intro hsome hpending
    obtain ⟨c, hreader⟩ := Option.isSome_iff_exists.1 hsome
    exact goes_on_read hreader (hserver hsome) hpending
  -- a loop that has ended has dropped the receiver
  have hended : s.rx = false → s.reader.isSome = true → s.GoesOn cap max := by
    intro hrx hsome
    cases hpending : s.pending with
    | nil => exact hreads hsome hpending
    | cons item pending =>
      exact goes_on_push hpending fun hlive => by cases hrx.symm.trans hlive
  have hok := h.loop
  cases hloop : s.loop with
  | body => exact absurd hloop hbody
  | opening =>
    cases hheader : s.header with
    | none =>
      obtain ⟨⟨fields, hreader⟩, -, hpending, -⟩ := h.unopened hheader
      exact hreads (by rw [hreader]; rfl) hpending
    | some header =>
      refine ⟨.opened, ?_⟩
      cases header <;> simp [streaming, RowStream.step, hloop, hheader]
  | awaiting f =>
    by_cases hchannel : s.channel = []
    · cases hpending : s.pending with
      | cons item pending =>
        refine goes_on_push hpending fun _ => ?_
        rw [hchannel]
        exact hcap
      | nil =>
        cases hreader : s.reader with
        | some c => exact hreads (by rw [hreader]; rfl) hpending
        | none =>
          have hclosed : s.isClosed = true := by
            rw [State.isClosed, hreader, hpending]
            rfl
          exact goes_on_poll hloop (.inl ⟨hchannel, hclosed⟩)
    · exact goes_on_poll hloop (.inr hchannel)
  | refused | finished | threw | broken =>
    have hrx : s.rx = false := by
      rw [hloop] at hok
      cases hok
      assumption
    rcases hopen with hsome | hopening | ⟨f, hawaiting⟩
    · exact hended hrx hsome
    · cases hloop.symm.trans hopening
    · cases hloop.symm.trans hawaiting

/-! ### What a run guarantees -/

theorem Inv.start (cap max : ℕ) (results : List ReadResult) :
    Inv cap max results (start results) where
  conserved := fun _ _ => rfl
  unopened := fun _ => ⟨⟨[], rfl⟩, rfl, rfl, rfl⟩
  opened := fun hopen => absurd rfl hopen
  refused := fun e he => by cases he
  loop := .opening rfl rfl rfl rfl
  bounded := Nat.zero_le _
  emptied := fun hrx => by cases hrx
  ending := .inr ⟨rfl, rfl⟩
  consumed := ⟨[], (fun m hm => by cases hm), (fun _ => rfl), (fun h => by cases h)⟩

/-- The body was given the first rows of the response. -/
theorem Inv.seen_prefix (h : Inv cap max results s) : s.seen <+: (answer results).1 := by
  have halive : s.loop = .body ∨ (∃ f, s.loop = .awaiting f) → s.rx = true →
      s.seen <+: (answer results).1 := by
    intro hloop hrx
    have hsent := h.sent hloop hrx
    simp only [List.map_append, List.append_assoc] at hsent
    exact prefix_of_items hsent
  have hok := h.loop
  cases hloop : s.loop with
  | body =>
    cases hrx : s.rx with
    | true => exact halive (.inl hloop) hrx
    | false =>
      rw [hloop] at hok
      cases hok with
      | body hdone hend =>
        rw [hend hrx]
        exact List.prefix_append _ _
  | awaiting f =>
    cases hrx : s.rx with
    | true => exact halive (.inr ⟨f, hloop⟩) hrx
    | false =>
      have hall := ((h.awaiting hloop).2.2 hrx).2
      exact hall ▸ List.prefix_refl _
  | opening | refused =>
    have hseen : s.seen = [] := by
      rw [hloop] at hok
      cases hok
      assumption
    rw [hseen]
    exact List.nil_prefix
  | finished =>
    rw [hloop] at hok
    cases hok with
    | finished hrx ha =>
      exact ha ▸ List.prefix_refl _
  | threw =>
    rw [hloop] at hok
    cases hok with
    | threw hrx hlost ha =>
      rw [ha]
      exact List.prefix_append _ _
  | broken =>
    rw [hloop] at hok
    cases hok with
    | broken hrx hseen => exact hseen

/-- What holds at every moment of a loop over the rows of a response. -/
structure Faithful (cap max : ℕ) (results : List ReadResult) (s : State) : Prop where
  /-- The body is given the rows in order, each once. -/
  rows : s.seen <+: (answer results).1
  /-- A loop that ends has given it all rows, those that `collect_rows` returns. -/
  finished : s.loop = .finished → answer results = (s.seen, some (.ok ())) ∧
    ∃ fields commandTag rest, (Collect.init .rows).run results =
      some (.ok (.rows fields s.seen commandTag), rest)
  /-- A loop throws the error of the response; the rows that it has missed fit in a batch. -/
  threw : ∀ e, s.loop = .threw e → ∃ lost, lost.length ≤ max - 1 ∧
    answer results = (s.seen ++ lost, some (.error e))
  refused : ∀ e, s.loop = .refused e → answer results = ([], some (.error e))
  /-- Not more rows wait than the channel holds. -/
  bounded : s.channel.length ≤ cap
  /-- Nothing waits for anything but the server and the body of the loop. -/
  goesOn : (s.reader.isSome = true → s.results ≠ []) → s.loop ≠ .body →
    (s.reader.isSome = true ∨ s.loop = .opening ∨ ∃ f, s.loop = .awaiting f) → s.GoesOn cap max
  /-- However the loop is left, the response is read to its end, and nothing after it. -/
  consumed : s.reader = none → ∃ (msgs : List BackendMsg) (r : ReadResult),
    (∀ m ∈ msgs, m.isReady = false) ∧ (∀ m, r = .ok m → m.isReady = true) ∧
      results = msgs.map .ok ++ r :: s.results

theorem Inv.faithful (hcap : 0 < cap) (h : Inv cap max results s) :
    Faithful cap max results s := by
  have hok := h.loop
  refine ⟨h.seen_prefix, ?_, ?_, ?_, h.bounded, h.goes_on hcap, ?_⟩
  · intro hloop
    rw [hloop] at hok
    cases hok with
    | finished hrx ha => exact ⟨ha, collected [] [] "" ha⟩
  · intro e hloop
    rw [hloop] at hok
    cases hok with
    | threw hrx hlost ha => exact ⟨_, hlost, ha⟩
  · intro e hloop
    rw [hloop] at hok
    cases hok with
    | refused hrx hseen ha => exact ha
  · intro hnone
    obtain ⟨msgs, hmsgs, -, hdone⟩ := h.consumed
    obtain ⟨r, hr, heq⟩ := hdone hnone
    exact ⟨msgs, r, hmsgs, hr, heq⟩

/-- **A loop over a stream sees what the server sends.**  In every run of the reader, the channel
and the loop, the body is given the rows of the response in order; a loop that ends has seen all
rows that collecting them would have returned; one that throws has missed less than a batch. -/
theorem stream_faithful (cap max : ℕ) (hcap : 0 < cap) (results : List ReadResult) :
    (∀ ls s, (streaming cap max).exec (start results) ls = some s →
      ls.length ≤ 10 * results.length + 3) ∧
    ∀ s, (streaming cap max).Reachable (start results) s → Faithful cap max results s := by
  refine ⟨?_, ?_⟩
  · intro ls s h
    refine (LTS.length_le_of_exec (I := fun _ => True) (v := State.left) ?_ trivial h)
    exact fun s l s' _ hl => ⟨trivial, left_lt hl⟩
  · intro s h
    exact (h.invariant (Inv.start cap max results) fun _ _ _ hs hl => hs.step hl).faithful hcap

/-- An error that follows a row on its heels takes the row with it. -/
theorem stream_faithful_lost :
    ∃ s, s.loop = .threw (.pg { code := "57014" }) ∧ s.seen = [] ∧
      Faithful rowBuffer rowStreamBatch [.ok (.dataRow ⟨[0, 0], .heap []⟩),
        .ok (.errorResponse { code := "57014" })] s := by
  obtain ⟨s, hs, hend⟩ := LTS.reachable_of_test (A := streaming rowBuffer rowStreamBatch)
    (s := start [.ok (.dataRow ⟨[0, 0], .heap []⟩), .ok (.errorResponse { code := "57014" })])
    (r := [.read, .push, .opened, .read, .push, .next, .poll, .poll])
    (p := fun s => decide (s.loop = .threw (.pg { code := "57014" }) ∧ s.seen = [])) (by decide)
  obtain ⟨hloop, hseen⟩ := of_decide_eq_true hend
  exact ⟨s, hloop, hseen, (stream_faithful rowBuffer rowStreamBatch (by decide) _).2 s hs⟩

end

end Resolute.Js.RowStream
