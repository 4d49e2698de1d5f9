import Mathlib.Data.List.Perm.Subperm
import Resolute.Conn.Tasks

/-!
# Correlation of requests and responses

Every request that the channel accepts is at any time in exactly one place: in the channel, in the
hands of the writer, in the pending queue, in the hands of the reader, or completed
(`State.custody`).  The requests the reader takes are those that were written, in order, so the
messages it reads for a request are those of the response group to it.

The invariant has five parts:

* `Accounting`: every accepted request is in one place, once;
* `Ordered`: the places are in the order of the channel;
* `Aligned`: the input in front of the reader begins at the response group of its request;
* `Provenance`: a result that is no local error comes from that group;
* `Wakeup`: nobody sleeps while there is something for it to do.

In a state that has come to rest no request is in custody (`quiescent_idle`), and
`fifo_exactly_once` puts it all together.
-/

namespace Resolute.Conn

section

variable {τ : Type}

/-- The requests in the hands of the writer. -/
def Writer.batch : Writer τ → List (Item τ)
  | gathering batch | writing batch _ | enqueueing batch => batch
  | _ => []

/-- Those of them that are not written yet. -/
def Writer.unsent : Writer τ → List (Item τ)
  | gathering batch => batch
  | writing batch sent => batch.drop sent
  | _ => []

/-- Those of them that are written. -/
def Writer.inflight : Writer τ → List (Item τ)
  | writing batch sent => batch.take sent
  | enqueueing batch => batch
  | _ => []

/-- The writer still serves the channel. -/
def Writer.active : Writer τ → Bool
  | draining | leaving | exited => false
  | _ => true

/-- The request in the hands of the reader. -/
def Reader.current : Reader τ → List (Item τ)
  | collecting item .. => [item]
  | _ => []

/-- The messages of its response that were read. -/
def Reader.seen : Reader τ → List BackendMsg
  | collecting _ _ seen _ _ => seen
  | _ => []

/-- The requests that are completed, in the hands of a task or in a queue. -/
def State.custody (s : State τ) : List ℕ :=
  s.responses.map Response.id ++
    (s.reader.current ++ s.pending ++ s.writer.batch ++ s.chan).map Item.id

/-- Every accepted request is in one place, and only those are. -/
structure Accounting (s : State τ) : Prop where
  ids : s.accepted.map Item.id = List.range s.accepted.length
  custody : s.custody.Perm (s.accepted.map Item.id)

theorem closeAll_ids (completion : Completion) (items : List (Item τ)) :
    (closeAll completion items).map Response.id = items.map Item.id := by
  simp [closeAll]

theorem Accounting.step {s s' : State τ} {l : Label τ} (h : Accounting s) (ht : Trans s l s') :
    Accounting s' := by
  obtain ⟨hids, hcustody⟩ := h
  rw [List.perm_iff_count] at hcustody
  constructor
  · cases ht <;> simp [hids, List.range_succ]
  · rw [List.perm_iff_count]
    intro id
    replace hcustody := hcustody id
    cases ht <;> simp_all [State.custody, Writer.batch, Reader.current, closeAll_ids,
      List.count_cons] <;> omega

/-- The wire carries the requests in the order of the channel, and the reader takes them in that
order. -/
structure Ordered (s : State τ) : Prop where
  order : s.writer.active = true → s.accepted = s.written ++ s.writer.unsent ++ s.chan
  wire : s.written <+: s.accepted
  taken_le : s.taken ≤ s.written.length
  queue : s.pending <+: s.written.drop s.taken
  inflight : s.writer.active = true → s.written.drop s.taken = s.pending ++ s.writer.inflight
  current : ∀ item ∈ s.reader.current, 0 < s.taken ∧ s.written[s.taken - 1]? = some item
  sent_le : ∀ batch sent, s.writer = .writing batch sent → sent ≤ batch.length
  left : s.writer = .leaving ∨ s.writer = .exited → s.pending = []
  exited : s.writer = .exited → s.chan = []

/-- The writer moves on within its loop, and nothing is written. -/
theorem Ordered.toWriter {s : State τ} (h : Ordered s) {writer : Writer τ} {chan : List (Item τ)}
    (ha : s.writer.active = true) (ha' : writer.active = true)
    (hunsent : s.writer.unsent ++ s.chan = writer.unsent ++ chan)
    (hinflight : s.writer.inflight = writer.inflight)
    (hsent : ∀ batch sent, writer = .writing batch sent → sent ≤ batch.length) :
    Ordered { s with writer := writer, chan := chan } :=
  { h with
    order := fun _ => by rw [h.order ha, List.append_assoc, hunsent, List.append_assoc]
    inflight := fun _ => hinflight ▸ h.inflight ha
    sent_le := hsent
    left := fun hl => by rcases hl with rfl | rfl <;> cases ha'
    exited := fun he => by
      obtain rfl : writer = .exited := he
      cases ha' }

theorem Ordered.step {s s' : State τ} {l : Label τ} (h : Ordered s) (ht : Trans s l s') :
    Ordered s' := by
  cases ht with
  | accept hh hc hroom =>
    exact { h with
      order := fun ha => by simp [h.order ha]
      wire := h.wire.trans (List.prefix_append _ _)
      exited := fun he => by
        change s.writer = .exited at he
        simp [State.closed, he] at hc }
  | recv hw hc =>
    exact h.toWriter (by rw [hw]; rfl) rfl (by simp [hw, hc, Writer.unsent]) (by rw [hw]; rfl) nofun
  | recvClosed hw hc hh =>
    exact { h with
      order := nofun, inflight := nofun, sent_le := nofun, left := nofun, exited := nofun }
  | tryRecv hw hc =>
    exact h.toWriter (by rw [hw]; rfl) rfl (by simp [hw, hc, Writer.unsent]) (by rw [hw]; rfl) nofun
  | startWrite hw hc =>
    refine h.toWriter (by rw [hw]; rfl) rfl (by simp [hw, Writer.unsent]) (by rw [hw]; rfl) ?_
    intro batch sent hs
    cases hs
    exact Nat.zero_le _
  | @transmit batch sent item hw hb =>
    have order := h.order (by rw [hw]; rfl)
    have inflight := h.inflight (by rw [hw]; rfl)
    obtain ⟨hlt, rfl⟩ := List.getElem?_eq_some_iff.1 hb
    rw [hw] at order inflight
    have hdrop : (s.written ++ [batch[sent]]).drop s.taken =
        s.written.drop s.taken ++ [batch[sent]] :=
      List.drop_append_of_le_length h.taken_le
    -- the request leaves the batch for the wire, and is not pending yet
    have horder : s.accepted = s.written ++ [batch[sent]] ++ batch.drop (sent + 1) ++ s.chan := by
      rw [order, Writer.unsent, List.drop_eq_getElem_cons hlt]
      simp
    exact { h with
      order := fun _ => horder
      wire := ⟨batch.drop (sent + 1) ++ s.chan, by rw [← List.append_assoc, ← horder]⟩
      taken_le := Nat.le_trans h.taken_le (by simp)
      queue := hdrop ▸ h.queue.trans (List.prefix_append _ _)
      inflight := fun _ => by
        rw [hdrop, inflight, Writer.inflight, Writer.inflight,
          List.take_succ_eq_append_getElem hlt, List.append_assoc]
      current := fun item hi => by
        obtain ⟨hpos, hcur⟩ := h.current item hi
        exact ⟨hpos, List.getElem?_append_left (List.getElem?_eq_some_iff.1 hcur).1 ▸ hcur⟩
      sent_le := fun _ _ hs => by cases hs; exact hlt
      left := nofun
      exited := nofun }
  | writeDone hw =>
    refine h.toWriter (by rw [hw]; rfl) rfl (by simp [hw, Writer.unsent]) ?_ nofun
    rw [hw]
    exact List.take_length
  | writeFail hw =>
    exact { h with
      order := nofun, inflight := nofun, sent_le := nofun, left := nofun, exited := nofun }
  | enqueue hw =>
    have order := h.order (by rw [hw]; rfl)
    have inflight := h.inflight (by rw [hw]; rfl)
    exact { h with
      order := fun _ => by simpa [hw, Writer.unsent] using order
      queue := by simp [inflight, hw, Writer.inflight]
      inflight := fun _ => by simpa [hw, Writer.inflight] using inflight
      sent_le := nofun
      left := nofun
      exited := nofun }
  | notify hw =>
    have hidle : Ordered { s with writer := .idle } :=
      h.toWriter (by rw [hw]; rfl) rfl (by rw [hw]; rfl) (by rw [hw]; rfl) nofun
    exact { hidle with }
  | drainPending hw =>
    exact { h with
      order := nofun
      queue := List.nil_prefix
      inflight := nofun
      sent_le := nofun
      left := fun _ => rfl
      exited := nofun }
  | exit hw =>
    exact { h with
      order := nofun
      inflight := nofun
      sent_le := nofun
      left := fun _ => h.left (.inl hw)
      exited := fun _ => rfl }
  | @lock item rest hr hp =>
    obtain ⟨tail, htail⟩ := hp ▸ h.queue
    -- the first pending entry is the request whose response comes next
    have hget : s.written[s.taken]? = some item := by
      have := congrArg List.head? htail
      simpa using this.symm
    have hdrop : s.written.drop (s.taken + 1) = rest ++ tail := by
      rw [← List.drop_drop, ← htail]
      rfl
    exact { h with
      taken_le := (List.getElem?_eq_some_iff.1 hget).1
      queue := hdrop ▸ List.prefix_append _ _
      inflight := fun ha => by
        have := h.inflight ha
        rw [← htail, hp] at this
        rw [hdrop]
        exact List.cons.inj this |>.2
      current := fun i hi => by
        obtain rfl := List.mem_singleton.1 hi
        exact ⟨Nat.succ_pos _, hget⟩
      left := fun hl => by simp [h.left hl] at hp }
  | lockEmpty | wake | readDone | readError =>
    exact { h with current := fun _ hi => absurd hi List.not_mem_nil }
  | read hr | takeRow hr | dropRxCurrent hr =>
    exact { h with current := fun i hi => h.current i (by rw [hr]; exact hi) }
  | dropHandles | dropRx | answer | hangup | lose => exact { h with }

/-- The position of the first group that is not used up. -/
def State.position (s : State τ) : ℕ := s.taken - s.reader.current.length

/-- The messages that were read for the current request and those under way are the groups from its
position on. -/
structure Aligned (s : State τ) : Prop where
  wellFormed : ∀ g ∈ s.groups, isWellFormed g = true
  taken_pos : s.reader.current.length ≤ s.taken
  stream : s.reader.seen ++ s.inbound <+: (s.groups.drop s.position).flatten
  complete : s.lost = false → s.reader.seen ++ s.inbound = (s.groups.drop s.position).flatten
  answered : s.lost = false → s.position ≤ s.groups.length
  seen : ∀ m ∈ s.reader.seen, m.isReady = false

/-- The messages read for the current request belong to its group. -/
theorem Aligned.seen_prefix {s : State τ} (h : Aligned s) :
    s.reader.seen <+: s.groups.getD s.position [] := by
  have := prefix_of_not_ready (fun g hg => h.wellFormed g (List.mem_of_mem_drop hg)) h.seen
    ((List.prefix_append _ _).trans h.stream)
  simpa [List.getD_eq_getElem?_getD] using this

/-- A `ReadyForQuery` that is read ends the group of the current request. -/
theorem Aligned.drop_position {s : State τ} (h : Aligned s) {m : BackendMsg}
    {rest : List BackendMsg} (hi : s.inbound = m :: rest) (hm : m.isReady = true) :
    ∃ gs, s.groups.drop s.position = (s.reader.seen ++ [m]) :: gs ∧ rest <+: gs.flatten :=
  flatten_of_ready (fun g hg => h.wellFormed g (List.mem_of_mem_drop hg)) h.seen hm
    (hi ▸ h.stream)

/-- When everything that was sent is read, the current request is the next one to be answered. -/
theorem Aligned.position_eq {s : State τ} (h : Aligned s) (hl : s.lost = false)
    (hi : s.inbound = []) : s.position = s.groups.length := by
  refine Nat.le_antisymm (h.answered hl) (Nat.le_of_not_lt fun hlt => ?_)
  obtain ⟨ms, m, hg, hm, -⟩ := isWellFormed_split (h.wellFormed _ (List.getElem_mem hlt))
  have hseen : s.reader.seen = (s.groups.drop s.position).flatten := by
    simpa [hi] using h.complete hl
  have hmem : m ∈ s.reader.seen := by
    rw [hseen, List.drop_eq_getElem_cons hlt, hg]
    simp
  exact absurd (h.seen m hmem) (by simp [hm])

/-- Only what the reader and the server have done matters. -/
theorem Aligned.congr {s s' : State τ} (h : Aligned s) (hgroups : s'.groups = s.groups)
    (htaken : s'.taken = s.taken) (hinbound : s'.inbound = s.inbound) (hlost : s'.lost = s.lost)
    (hcurrent : s'.reader.current = s.reader.current) (hseen : s'.reader.seen = s.reader.seen) :
    Aligned s' := by
  obtain ⟨wellFormed, taken_pos, stream, complete, answered, seen⟩ := h
  have hpos : s'.position = s.position := by simp [State.position, htaken, hcurrent]
  constructor <;> simpa [hgroups, htaken, hinbound, hlost, hcurrent, hseen, hpos]

theorem Aligned.step {s s' : State τ} {l : Label τ} (h : Aligned s) (ht : Trans s l s') :
    Aligned s' := by
  cases ht with
  | accept | dropHandles | recv | recvClosed | tryRecv | startWrite | transmit | writeDone |
    writeFail | enqueue | notify | drainPending | exit | dropRx =>
    exact h.congr rfl rfl rfl rfl rfl rfl
  | lockEmpty hr | wake hr | takeRow hr | dropRxCurrent hr =>
    exact h.congr rfl rfl rfl rfl (by rw [hr]; rfl) (by rw [hr]; rfl)
  | lock hr hp =>
    exact { h with
      taken_pos := Nat.succ_le_succ (Nat.zero_le _)
      stream := by simpa [State.position, Reader.current, Reader.seen, hr] using h.stream
      complete := by simpa [State.position, Reader.current, Reader.seen, hr] using h.complete
      answered := by simpa [State.position, Reader.current, hr] using h.answered
      seen := nofun }
  | @read item c seen effects buffered m rest es c' hr hi hfeed hroom =>
    have hm : m.isReady = false := c.not_isReady_of_more hfeed
    exact { h with
      taken_pos := by simpa [Reader.current, hr] using h.taken_pos
      stream := by simpa [State.position, Reader.current, Reader.seen, hr, hi] using h.stream
      complete := by simpa [State.position, Reader.current, Reader.seen, hr, hi] using h.complete
      answered := by simpa [State.position, Reader.current, hr] using h.answered
      seen := fun x hx => by
        rcases List.mem_append.1 hx with hx | hx
        · exact h.seen x (by rw [hr]; exact hx)
        · exact List.mem_singleton.1 hx ▸ hm }
  | @readDone item c seen effects buffered m rest es res hr hi hfeed =>
    have htaken : 1 ≤ s.taken := by simpa [hr, Reader.current] using h.taken_pos
    have hpos : s.position = s.taken - 1 := by simp [State.position, hr, Reader.current]
    have hseen : s.reader.seen = seen := by rw [hr]; rfl
    have hm : m.isReady = true := c.isReady_of_done hfeed
    obtain ⟨gs, hgs, hrest⟩ := h.drop_position hi hm
    have hcomplete := h.complete
    rw [hpos] at hgs
    rw [hpos, hseen, hi, hgs, hseen] at hcomplete
    have hdrop : s.groups.drop s.taken = gs := by
      have : s.groups.drop (s.taken - 1 + 1) = gs := by rw [← List.drop_drop, hgs]; rfl
      rwa [Nat.sub_add_cancel htaken] at this
    have hlen : s.taken - 1 < s.groups.length := by
      by_contra hlen
      rw [List.drop_eq_nil_of_le (by omega)] at hgs
      cases hgs
    exact { h with
      taken_pos := Nat.zero_le _
      stream := hdrop ▸ hrest
      complete := fun hl => by
        change rest = (s.groups.drop s.taken).flatten
        simpa [hdrop] using hcomplete hl
      answered := fun _ => show s.taken ≤ s.groups.length by omega
      seen := nofun }
  | readError hr hi hfeed hl =>
    exact { h with
      taken_pos := Nat.zero_le _
      stream := hi ▸ List.nil_prefix
      complete := fun hl' => by simp [hl] at hl'
      answered := fun hl' => by simp [hl] at hl'
      seen := nofun }
  | @answer item group hn hl hterm hg =>
    have hdrop : (s.groups ++ [group]).drop s.position = s.groups.drop s.position ++ [group] :=
      List.drop_append_of_le_length (h.answered hl)
    have hcomplete : s.reader.seen ++ (s.inbound ++ group) =
        ((s.groups ++ [group]).drop s.position).flatten := by
      rw [hdrop, ← List.append_assoc, h.complete hl]
      simp
    exact { h with
      wellFormed := fun g hg' => by
        rcases List.mem_append.1 hg' with hg' | hg'
        · exact h.wellFormed g hg'
        · exact List.mem_singleton.1 hg' ▸ hg
      stream := hcomplete ▸ List.prefix_refl _
      complete := fun _ => hcomplete
      answered := fun _ => Nat.le_trans (h.answered hl) (by simp) }
  | hangup => exact { h with complete := nofun, answered := nofun }
  | @lose n hl =>
    exact { h with
      stream := ((List.prefix_append_right_inj _).2 (List.take_prefix n _)).trans h.stream
      complete := nofun
      answered := nofun }

/-- A response that the writer, not the reader, has given: nothing was read for it. -/
def Response.isLocal (r : Response) : Prop :=
  r.completion = .dropped ∨ r.completion = .sent (.error .connectionClosed) ∨
    ∃ msg, r.completion = .sent (.error (.ioError .brokenPipe msg))

/-- The response to `item` is what its collector makes of messages of the `k`-th group alone. -/
def State.FromGroup (s : State τ) (k : ℕ) (item : Item τ) (r : Response) : Prop :=
  ∃ msgs res, msgs <+: s.groups.getD k [] ∧ r.completion = .sent res ∧
    (Collect.init item.req.collector).Yields msgs r.effects res

/-- Every response is local, or comes from the group with the position of its request. -/
structure Provenance (s : State τ) : Prop where
  collected : ∀ item c seen effects buffered, s.reader = .collecting item c seen effects buffered →
    (Collect.init item.req.collector).Consumes seen effects c
  responses : ∀ r ∈ s.responses, r.isLocal ∨
    ∃ k item, s.written[k]? = some item ∧ item.id = r.id ∧ s.FromGroup k item r

theorem startCollect_consumes (rxDropped : List ℕ) (item : Item τ) :
    (Collect.init item.req.collector).Consumes [] [] (startCollect rxDropped item) := by
  unfold startCollect
  split_ifs
  · exact .dropRx .refl
  · exact .refl

theorem getElem?_mono {α : Type} {l l' : List α} (h : l <+: l') {k : ℕ} {a : α}
    (hk : l[k]? = some a) : l'[k]? = some a := by
  obtain ⟨t, rfl⟩ := h
  rw [List.getElem?_append_left (List.getElem?_eq_some_iff.1 hk).1, hk]

theorem prefix_getD_mono {gs gs' : List (List BackendMsg)} (h : gs <+: gs') {k : ℕ}
    {ms : List BackendMsg} (hms : ms <+: gs.getD k []) : ms <+: gs'.getD k [] := by
  rw [List.getD_eq_getElem?_getD] at hms ⊢
  cases hk : gs[k]? with
  | none => simp [hk] at hms; simp [hms]
  | some g => rw [hk] at hms; rw [getElem?_mono h hk]; exact hms

/-- Writing more requests and receiving more groups does not change where a response is from. -/
theorem Provenance.grow {s s' : State τ} (h : Provenance s) (hreader : s'.reader = s.reader)
    (hwritten : s.written <+: s'.written) (hgroups : s.groups <+: s'.groups)
    (hresponses : ∀ r ∈ s'.responses, r ∈ s.responses ∨ r.isLocal) : Provenance s' := by
  refine ⟨hreader ▸ h.collected, fun r hr => ?_⟩
  rcases hresponses r hr with hr | hr
  · rcases h.responses r hr with hlocal | ⟨k, item, hk, hid, msgs, res, hpre, hcompl, hyields⟩
    · exact .inl hlocal
    · exact .inr ⟨k, item, getElem?_mono hwritten hk, hid, msgs, res,
        prefix_getD_mono hgroups hpre, hcompl, hyields⟩
  · exact .inl hr

/-- The current request goes on with the messages `seen`. -/
theorem Provenance.continue {s s' : State τ} (h : Provenance s)
    (hcollected : ∀ item c seen effects buffered,
      s'.reader = .collecting item c seen effects buffered →
      (Collect.init item.req.collector).Consumes seen effects c)
    (hwritten : s'.written = s.written) (hgroups : s'.groups = s.groups)
    (hresponses : s'.responses = s.responses) : Provenance s' := by
  refine ⟨hcollected, ?_⟩
  simpa [hwritten, hgroups, hresponses, State.FromGroup] using h.responses

/-- The current request is completed by its collector. -/
theorem Provenance.complete {s s' : State τ} (h : Provenance s) {item : Item τ}
    {effects : List Emit} {res : Outcome} {msgs : List BackendMsg}
    (hreader : s'.reader = .locking) (hwritten : s'.written = s.written)
    (hgroups : s'.groups = s.groups)
    (hresponses : s'.responses = s.responses ++ [⟨item.id, effects, .sent res⟩])
    (hitem : s.written[s.taken - 1]? = some item) (hmsgs : msgs <+: s.groups.getD (s.taken - 1) [])
    (hyields : (Collect.init item.req.collector).Yields msgs effects res) : Provenance s' := by
  refine ⟨by simp [hreader], fun r hr => ?_⟩
  rw [hresponses] at hr
  rw [hwritten]
  rcases List.mem_append.1 hr with hr | hr
  · simpa [State.FromGroup, hgroups] using h.responses r hr
  · obtain rfl := List.mem_singleton.1 hr
    exact .inr ⟨s.taken - 1, item, hitem, rfl, msgs, res, hgroups ▸ hmsgs, rfl, hyields⟩

theorem mem_closeAll {completion : Completion} {items : List (Item τ)} {r : Response}
    (h : r ∈ closeAll completion items) : r.completion = completion := by
  obtain ⟨_, -, rfl⟩ := List.mem_map.1 h
  rfl

theorem Provenance.step {s s' : State τ} {l : Label τ} (h : Provenance s) (ho : Ordered s)
    (ha : Aligned s) (ht : Trans s l s') : Provenance s' := by
  cases ht with
  | accept | dropHandles | recv | recvClosed | tryRecv | startWrite | writeDone | enqueue | notify |
    dropRx | hangup | lose =>
    exact h.grow rfl (List.prefix_refl _) (List.prefix_refl _) fun r hr => .inl hr
  | transmit => exact h.grow rfl (List.prefix_append _ _) (List.prefix_refl _) fun r hr => .inl hr
  | answer => exact h.grow rfl (List.prefix_refl _) (List.prefix_append _ _) fun r hr => .inl hr
  | writeFail =>
    exact h.grow rfl (List.prefix_refl _) (List.prefix_refl _) fun r hr =>
      (List.mem_append.1 hr).imp_right fun hr => .inr (.inr ⟨_, mem_closeAll hr⟩)
  | drainPending =>
    exact h.grow rfl (List.prefix_refl _) (List.prefix_refl _) fun r hr =>
      (List.mem_append.1 hr).imp_right fun hr => .inr (.inl (mem_closeAll hr))
  | exit =>
    exact h.grow rfl (List.prefix_refl _) (List.prefix_refl _) fun r hr =>
      (List.mem_append.1 hr).imp_right fun hr => .inl (mem_closeAll hr)
  | lock =>
    exact h.continue (by rintro _ _ _ _ _ ⟨⟩; exact startCollect_consumes _ _) rfl rfl rfl
  | lockEmpty | wake => exact h.continue nofun rfl rfl rfl
  | read hr hi hfeed =>
    have hc := h.collected _ _ _ _ _ hr
    exact h.continue (by rintro _ _ _ _ _ ⟨⟩; exact hc.msg hfeed) rfl rfl rfl
  | takeRow hr =>
    have hc := h.collected _ _ _ _ _ hr
    exact h.continue (by rintro _ _ _ _ _ ⟨⟩; exact hc) rfl rfl rfl
  | dropRxCurrent hr =>
    have hc := h.collected _ _ _ _ _ hr
    exact h.continue (by rintro _ _ _ _ _ ⟨⟩; exact hc.dropRx) rfl rfl rfl
  | @readDone item c seen effects buffered m rest es res hr hi hfeed =>
    have hpos : s.position = s.taken - 1 := by simp [State.position, hr, Reader.current]
    have hm : m.isReady = true := c.isReady_of_done hfeed
    obtain ⟨gs, hgs, -⟩ := ha.drop_position hi hm
    have hget : s.groups[s.taken - 1]? = some (seen ++ [m]) := by
      rw [← hpos, ← List.head?_drop, hgs, hr]
      rfl
    exact h.complete rfl rfl rfl rfl
      (ho.current item (by rw [hr]; exact List.mem_singleton_self _)).2
      (by simp [List.getD_eq_getElem?_getD, hget])
      (.ready (h.collected _ _ _ _ _ hr) hfeed)
  | @readError item c seen effects buffered e es res hr hi hfeed hl =>
    have hpos : s.position = s.taken - 1 := by simp [State.position, hr, Reader.current]
    have hseen := ha.seen_prefix
    rw [hpos, hr] at hseen
    exact h.complete rfl rfl rfl rfl
      (ho.current item (by rw [hr]; exact List.mem_singleton_self _)).2 hseen
      (.broken (h.collected _ _ _ _ _ hr) hfeed)

/-- A registered request is not forgotten: the reader looks for it, or is about to be woken. -/
def Wakeup (s : State τ) : Prop :=
  s.reader = .waiting → s.pending = [] ∨ s.permit = true ∨ s.writer = .notifying

theorem Wakeup.step {s s' : State τ} {l : Label τ} (h : Wakeup s) (ht : Trans s l s') :
    Wakeup s' := by
  intro hr
  cases ht with
  | accept | dropHandles | dropRx | answer | hangup | lose => exact h hr
  | recv hw | recvClosed hw | tryRecv hw | startWrite hw | transmit hw | writeDone hw
  | writeFail hw | exit hw =>
    exact (h hr).imp_right fun h' => .inl (h'.resolve_right (by simp [hw]))
  | enqueue => exact .inr (.inr rfl)
  | notify => exact .inr (.inl rfl)
  | drainPending => exact .inl rfl
  | lockEmpty _ hp => exact .inl hp
  | lock | wake | read | readDone | readError | takeRow | dropRxCurrent => cases hr

/-- What holds in every state a connection can reach. -/
structure Invariant (s : State τ) : Prop where
  accounting : Accounting s
  ordered : Ordered s
  aligned : Aligned s
  provenance : Provenance s
  wakeup : Wakeup s

theorem Invariant.init : Invariant (State.init : State τ) where
  accounting := ⟨rfl, List.Perm.refl _⟩
  ordered :=
    { order := fun _ => rfl
      wire := List.prefix_refl _
      taken_le := Nat.le_refl _
      queue := List.prefix_refl _
      inflight := fun _ => rfl
      current := nofun
      sent_le := nofun
      left := fun _ => rfl
      exited := fun _ => rfl }
  aligned :=
    { wellFormed := nofun
      taken_pos := Nat.le_refl _
      stream := List.prefix_refl _
      complete := fun _ => rfl
      answered := fun _ => Nat.le_refl _
      seen := nofun }
  provenance := ⟨nofun, nofun⟩
  wakeup := nofun

theorem Invariant.step {s s' : State τ} {l : Label τ} (h : Invariant s) (ht : Trans s l s') :
    Invariant s' where
  accounting := h.accounting.step ht
  ordered := h.ordered.step ht
  aligned := h.aligned.step ht
  provenance := h.provenance.step h.ordered h.aligned ht
  wakeup := h.wakeup.step ht

theorem invariant_of_reachable {s : State τ} (h : (asyncConn τ).Reachable State.init s) :
    Invariant s :=
  h.invariant Invariant.init fun _ _ _ hs hl => hs.step (trans_of_step hl)

/-! ### Quiescent states -/

/-- The steps of the tasks, of a server that answers what was written, and of an application that
reads the rows of its streams.  Handing in and giving up requests is up to the application, and
faults are no one's duty. -/
def internal : Label τ → Prop
  | .accept _ | .dropHandles | .writeFail _ | .dropRx _ | .lose _ => False
  | _ => True

/-- The writer waits for requests, or has returned. -/
theorem writer_of_quiescent {s : State τ} (h : Invariant s)
    (hq : (asyncConn τ).Quiescent internal s) :
    s.chan = [] ∧ (s.writer = .idle ∧ s.handles = true ∨ s.writer = .exited) := by
  have hq' := fun l hl => hq l hl
  simp only [asyncConn] at hq'
  cases hw : s.writer with
  | idle =>
    have := hq' .recv trivial
    cases hc : s.chan with
    | nil => simpa [step, hw, hc] using this
    | cons item rest => simp [step, hw, hc] at this
  | gathering batch =>
    cases hc : s.chan with
    | nil => simpa [step, hw, hc] using hq' .startWrite trivial
    | cons item rest => simpa [step, hw, hc] using hq' .tryRecv trivial
  | writing batch sent =>
    rcases Nat.lt_or_eq_of_le (h.ordered.sent_le batch sent hw) with hlt | rfl
    · simpa [step, hw, hlt] using hq' .transmit trivial
    · simpa [step, hw] using hq' .writeDone trivial
  | enqueueing batch => simpa [step, hw] using hq' .enqueue trivial
  | notifying => simpa [step, hw] using hq' .notify trivial
  | draining => simpa [step, hw] using hq' .drainPending trivial
  | leaving => simpa [step, hw] using hq' .exit trivial
  | exited => exact ⟨h.ordered.exited hw, .inr rfl⟩

/-- The row channel of the current stream has room, or the application can take a row. -/
theorem hasRoom_of_quiescent {s : State τ} (hq : (asyncConn τ).Quiescent internal s)
    {item : Item τ} {c : Collect} {seen : List BackendMsg} {effects es : List Emit} {buffered : ℕ}
    (hr : s.reader = .collecting item c seen effects buffered) (hes : es.countP Emit.isRow ≤ 1) :
    hasRoom s.rxDropped item buffered es = true := by
  cases buffered with
  | zero =>
    have := item.req.rowBuffer.2
    simp only [hasRoom, Bool.or_eq_true, decide_eq_true_eq]
    omega
  | succ b => 
    have := hq .takeRow trivial
    simp [asyncConn, step, hr] at this

/-- The reader waits to be woken. -/
theorem reader_of_quiescent {s : State τ} (h : Invariant s)
    (hq : (asyncConn τ).Quiescent internal s) : s.reader = .waiting ∧ s.permit = false := by
  cases hr : s.reader with
  | locking =>
    have := hq .lock trivial
    cases hp : s.pending <;> simp [asyncConn, step, hr, hp] at this
  | waiting => simpa [asyncConn, step, hr] using hq .wake trivial
  | collecting item c seen effects buffered =>
    exfalso
    cases hi : s.inbound with
    | cons m rest =>
      have hread := hq .read trivial
      cases hm : m.isReady with
      | true =>
        obtain ⟨es, res, hfeed⟩ := c.feedMsg_of_isReady hm
        simp [asyncConn, step, hr, hi, hfeed] at hread
      | false =>
        obtain ⟨es, c', hfeed, hes⟩ := c.feedMsg_of_not_isReady hm
        simp [asyncConn, step, hr, hi, hfeed, hasRoom_of_quiescent hq hr hes] at hread
    | nil =>
      cases hl : s.lost with
      | true =>
        obtain ⟨es, res, hfeed, hes⟩ := c.feedError_done .connectionClosed
        have := hq (.readError .connectionClosed) trivial
        simp [asyncConn, step, hr, hi, hfeed, hl, lossError, hasRoom_of_quiescent hq hr hes] at this
      | false =>
        -- all that was sent is read, so that the server owes the answer the reader waits for
        have hpos := h.aligned.position_eq hl hi
        have hitem := (h.ordered.current item (by rw [hr]; exact List.mem_singleton_self _)).2
        have hnext : s.unanswered = some item := by
          rw [State.unanswered, ← hpos, ← hitem]
          simp [State.position, hr, Reader.current]
        cases ht : item.req.isTerminate with
        | true =>
          have := hq .hangup trivial
          simp [asyncConn, step, hnext, hl, ht] at this
        | false =>
          have := hq (.answer [.readyForQuery (byte 'I')]) trivial
          simp [asyncConn, step, hnext, hl, ht, isWellFormed, BackendMsg.isReady] at this

/-- In a quiescent state every request that was accepted is completed. -/
theorem quiescent_idle {s : State τ} (h : Invariant s) (hq : (asyncConn τ).Quiescent internal s) :
    (s.responses.map Response.id).Perm (s.accepted.map Item.id) := by
  obtain ⟨hchan, hwriter⟩ := writer_of_quiescent h hq
  obtain ⟨hreader, hpermit⟩ := reader_of_quiescent h hq
  have hbatch : s.writer.batch = [] := by rcases hwriter with ⟨hw, -⟩ | hw <;> rw [hw] <;> rfl
  have hpending : s.pending = [] := by
    rcases h.wakeup hreader with hp | hp | hp
    · exact hp
    · simp [hpermit] at hp
    · rcases hwriter with ⟨hw, -⟩ | hw <;> simp [hw] at hp
  have := h.accounting.custody
  simpa [State.custody, hreader, Reader.current, hpending, hbatch, hchan] using this

/-- Requests are numbered in the order in which they were accepted. -/
theorem Accounting.nodup {s : State τ} (h : Accounting s) : (s.accepted.map Item.id).Nodup :=
  h.ids ▸ List.nodup_range

/-- The numbers of the requests tell their positions on the wire. -/
theorem Ordered.position_unique {s : State τ} (h : Ordered s) (ha : Accounting s) {j k : ℕ}
    {item item' : Item τ} (hj : s.written[j]? = some item) (hk : s.written[k]? = some item')
    (hid : item.id = item'.id) : j = k ∧ item = item' := by
  have hnodup : (s.written.map Item.id).Nodup := ha.nodup.sublist (h.wire.sublist.map _)
  have hlt : j < (s.written.map Item.id).length := by
    simpa using (List.getElem?_eq_some_iff.1 hj).1
  obtain rfl : j = k := (List.getElem?_inj hlt hnodup).1 (by simp [hj, hk, hid])
  exact ⟨rfl, Option.some.inj (hj.symm.trans hk)⟩

/-- **Every request is completed exactly once, and by its own response group.**  No request is
completed twice; in a quiescent state none is left over; and the response to the `k`-th request on
the wire is an error given without reading anything for it, or what its collector makes of messages
of the `k`-th group. -/
theorem fifo_exactly_once {s : State τ} (h : (asyncConn τ).Reachable State.init s) :
    (s.accepted.map Item.id).Nodup ∧ s.written <+: s.accepted ∧
    (s.responses.map Response.id).Subperm (s.accepted.map Item.id) ∧
    ((asyncConn τ).Quiescent internal s →
      (s.responses.map Response.id).Perm (s.accepted.map Item.id)) ∧
    ∀ k item r, s.written[k]? = some item → r ∈ s.responses → r.id = item.id →
      r.isLocal ∨ s.FromGroup k item r := by
  have hinv := invariant_of_reachable h
  refine ⟨hinv.accounting.nodup, hinv.ordered.wire, ?_, quiescent_idle hinv, ?_⟩
  · exact (List.sublist_append_left _ _).subperm.trans hinv.accounting.custody.subperm
  · intro k item r hk hr hid
    rcases hinv.provenance.responses r hr with hlocal | ⟨j, item', hj, hid', hgroup⟩
    · exact .inl hlocal
    · obtain ⟨rfl, rfl⟩ := hinv.ordered.position_unique hinv.accounting hj hk (hid'.trans hid)
      exact .inr hgroup

end

/-- Two requests that are written together, with different collectors. -/
def twoRequests : List (Label Unit) :=
  [.accept { messages := [.query (asBytes "SELECT 1")], collector := .drain, tag := () },
    .accept { messages := [.query (asBytes "UPDATE t SET v = 0")], collector := .rows, tag := () },
    .recv, .tryRecv, .startWrite, .transmit, .transmit, .lock, .writeDone, .enqueue, .notify, .wake,
    .lock, .answer [.commandComplete "SELECT 1", .readyForQuery (byte 'I')],
    .answer [.commandComplete "UPDATE 3", .readyForQuery (byte 'I')],
    .read, .read, .lock, .read, .read]

/-- Both requests of the run are completed, and the second one by the second group. -/
theorem fifo_exactly_once_twoRequests :
    ∃ s, (asyncConn Unit).exec State.init twoRequests = some s ∧
      s.responses = [⟨0, [], .sent (.ok .done)⟩, ⟨1, [], .sent (.ok (.rows [] [] "UPDATE 3"))⟩] ∧
      (s.responses.map Response.id).Subperm (s.accepted.map Item.id) ∧
      ∀ item r, s.written[1]? = some item → r ∈ s.responses → r.id = item.id →
        r.isLocal ∨ s.FromGroup 1 item r := by
  have h : (asyncConn Unit).exec State.init twoRequests = some _ := rfl
  obtain ⟨-, -, hsub, -, hgroup⟩ := fifo_exactly_once (LTS.reachable_of_exec h)
  exact ⟨_, h, rfl, hsub, hgroup 1⟩

end Resolute.Conn
