import Resolute.Wire.Collect
import Resolute.Wire.Encode
import Resolute.Wire.Receive

/-!
# Streams that break off

The server's messages are bytes on a stream, the stream arrives in chunks, and it may break off at
any byte.  The reader task collects the responses to the pending requests from it, one after the
other.  A message that was cut is neither delivered nor taken for a violation of the protocol, and
a chunk that ends inside a message changes nothing: a request has its response if the last byte of
it has arrived, and is told otherwise that the connection is closed (`readerTask_torn`).

The proof goes message by message: one in front of the stream is received from any chunks
(`receive_front`), and those `arrived` are the ones that are complete within so many bytes.
-/

namespace Resolute

/-- The bytes of some messages. -/
def BackendMsg.encodeAll (ms : List BackendMsg) : Bytes := ms.flatMap BackendMsg.encode

/-- The messages whose last byte is among the first `k` bytes. -/
def arrived : List BackendMsg → ℕ → List BackendMsg
  | [], _ => []
  | m :: ms, k => if m.encode.length ≤ k then m :: arrived ms (k - m.encode.length) else []

/-! ### One frame -/

theorem BackendMsg.WellFormed.isComplete {m : BackendMsg} (h : m.WellFormed) :
    m.frame.isComplete = true := by
  obtain ⟨haccepts, hnat⟩ := acceptsLength_ofNat (Nat.le_add_left 4 m.encodeBody.length) h.size
  have hframed : m.frame.isFramed = true := by
    rw [Frame.isFramed, Bool.or_eq_true, beq_iff_eq]
    exact .inr hnat
  rw [Frame.isComplete, hframed, Bool.and_true]
  exact haccepts

/-- A frame that is not there in full stays in the buffer. -/
theorem parseMessage_short {f : Frame} (hf : f.isComplete = true) {buf : Bytes}
    (hp : buf <+: f.encode) (hlt : buf.length < f.encode.length) :
    parseMessage buf = (.ok none, buf) := by
  have hhas := Frame.hasFrame_encode hf []
  rw [List.append_nil] at hhas
  have hbad : badHeader buf = false := by
    obtain ⟨tail, htail⟩ := hp
    by_contra hb
    have hbad := hasFrame_of_badHeader (badHeader_append (by simpa using hb) tail)
    rw [htail, hhas] at hbad
    cases hbad
  refine parseMessage_incomplete hbad ?_
  by_contra hframe
  have hp' : buf <+: f.encode ++ [] := by rwa [List.append_nil]
  obtain ⟨haccepts, hlen, -⟩ := accepts_of_hasFrame (by simpa using hframe) hp'
  have hbody : f.length.toNatClampNeg = f.body.length + 4 := by
    simpa [Frame.isComplete, Frame.isFramed, haccepts] using hf
  rw [Frame.length_encode] at hlt
  omega

/-- A message in front of the stream is received, however it is cut into chunks. -/
theorem receive_front {f : Frame} {m : BackendMsg} (hf : f.isComplete = true)
    (hm : parseBody f.tag f.body = .ok (some m)) {rest : Bytes} {chunks : List Bytes} :
    ∀ {buf : Bytes}, buf ++ chunks.flatten = f.encode ++ rest →
      (receive buf chunks).result = .ok m ∧ (receive buf chunks).source.bytes = rest := by
  induction chunks with
  | nil =>
    intro buf h
    rw [List.flatten_nil, List.append_nil] at h
    rw [h, receive_message hf hm]
    exact ⟨rfl, List.append_nil rest⟩
  | cons chunk chunks ih =>
    intro buf h
    rcases List.append_eq_append_iff.1 h with ⟨tail, hencode, hflat⟩ | ⟨more, rfl, rfl⟩
    · by_cases htail : tail = []
      -- the chunk begins behind the frame
      · subst htail
        rw [List.append_nil] at hencode
        have hbuf := receive_message hf hm [] (chunk :: chunks)
        rw [List.append_nil, hencode] at hbuf
        rw [hbuf]
        exact ⟨rfl, hflat⟩
      · have hlt : buf.length < f.encode.length := by
          rw [hencode, List.length_append]
          exact Nat.lt_add_of_pos_right (List.length_pos_iff.2 htail)
        rw [receive_cons (parseMessage_short hf ⟨tail, hencode.symm⟩ hlt)]
        exact ih (by rw [← h, List.flatten_cons, List.append_assoc])
    · rw [receive_message hf hm]
      exact ⟨rfl, rfl⟩

/-- The bytes to come are the beginning of a frame, and end inside it. -/
def Source.Ended (s : Source) : Prop :=
  ∃ f : Frame, f.isComplete = true ∧ s.bytes <+: f.encode ∧ s.bytes.length < f.encode.length

/-- A stream that ends before the frame does is at its end, and stays there. -/
theorem receive_ended {chunks : List Bytes} :
    ∀ {buf : Bytes}, (Source.mk buf chunks).Ended →
      (receive buf chunks).result = .error .connectionClosed ∧
        (receive buf chunks).source.Ended := by
  induction chunks with
  | nil =>
    intro buf h
    obtain ⟨f, hf, hp, hlt⟩ := h
    rw [Source.bytes, List.flatten_nil, List.append_nil] at hp hlt
    have hparse := parseMessage_short hf hp hlt
    rw [receive_nil hparse, hparse]
    exact ⟨rfl, f, hf, by simpa [Source.bytes] using hp, by simpa [Source.bytes] using hlt⟩
  | cons chunk chunks ih =>
    intro buf h
    obtain ⟨f, hf, hp, hlt⟩ := h
    have hbuf : buf.length < f.encode.length :=
      Nat.lt_of_le_of_lt (by rw [Source.bytes, List.length_append]; exact Nat.le_add_right _ _) hlt
    rw [receive_cons (parseMessage_short hf ((List.prefix_append _ _).trans hp) hbuf)]
    rw [Source.bytes, List.flatten_cons, ← List.append_assoc] at hp hlt
    exact ih ⟨f, hf, hp, hlt⟩

/-- The end of the stream, where a message would begin. -/
theorem Source.ended_of_nil {s : Source} (hs : s.bytes = []) : s.Ended :=
  ⟨BackendMsg.frame .copyDone, by decide, by rw [hs]; exact List.nil_prefix, by rw [hs]; decide⟩

/-! ### The reader task -/

/-- A collector on the bytes of the stream, which calls `read_msg` until it returns. -/
def Collect.collect (c : Collect) (s : Source) : Outcome × Source :=
  match _h : (readMsg s).result with
  | .ok m =>
    match c.feedMsg m with
    | .more _ c' => c'.collect (readMsg s).source
    | .done _ res => (res, (readMsg s).source)
  | .error e =>
    match c.feedError e with
    | .done _ res => (res, (readMsg s).source)
    -- no collector goes on after an error
    | .more _ _ => (.error e, (readMsg s).source)
termination_by s.bytes.length
decreasing_by exact length_bytes_lt _h

/-- `reader_task` : the responses to the pending requests, in their order. -/
def readerTask : List Collect → Source → List Outcome
  | [], _ => []
  | c :: cs, s => (c.collect s).1 :: readerTask cs (c.collect s).2

/-- The collector hands what it reads to the channels of a stream. -/
def Collect.streams : Collect → Bool
  | .stream _ _ _ | .streamDrain => true
  | _ => false

theorem Collect.collect_ok {c : Collect} {s : Source} {m : BackendMsg}
    (h : (readMsg s).result = .ok m) :
    c.collect s = match c.feedMsg m with
      | .more _ c' => c'.collect (readMsg s).source
      | .done _ res => (res, (readMsg s).source) := by
  rw [collect]
  split
  · rename_i m' hm
    rw [h] at hm
    cases hm
    rfl
  · rename_i e he
    rw [h] at he
    cases he

theorem Collect.collect_ended {c : Collect} (hc : c.streams = false) {s : Source} (hs : s.Ended) :
    ∃ s', c.collect s = (.error .connectionClosed, s') ∧ s'.Ended := by
  obtain ⟨hresult, hend⟩ := receive_ended hs
  refine ⟨(readMsg s).source, ?_, hend⟩
  rw [collect]
  split
  · rename_i m hm
    have hm' := hresult.symm.trans hm
    cases hm'
  · rename_i e he
    have he' := hresult.symm.trans he
    cases he'
    cases c <;> first | rfl | cases hc

theorem Collect.streams_of_more {c c' : Collect} {m : BackendMsg} {es : List Emit}
    (hc : c.streams = false) (h : c.feedMsg m = .more es c') : c'.streams = false := by
  cases c <;> cases hc <;> cases m <;> cases h <;> rfl

/-- On the bytes of some messages, a collector returns what it returns on the messages. -/
theorem collect_encodeAll {ms : List BackendMsg} (h : ∀ m ∈ ms, m.WellFormed) :
    ∃ ms', List.Forall₂ BackendMsg.Same ms ms' ∧ ∀ {c : Collect} {s : Source} {res rest},
      s.bytes = BackendMsg.encodeAll ms → c.run (ms'.map .ok) = some (res, rest) →
        (c.collect s).1 = res := by
  induction ms with
  | nil =>
    refine ⟨[], .nil, ?_⟩
    intro c s res rest _ hrun
    cases hrun
  | cons m ms ih =>
    obtain ⟨m', hparse, hsame⟩ := BackendMsg.parseBody_encodeBody (h m List.mem_cons_self)
    obtain ⟨ms', hall, hms⟩ := ih fun m hm => h m (List.mem_cons_of_mem _ hm)
    refine ⟨m' :: ms', .cons hsame hall, ?_⟩
    intro c s res rest hs hrun
    obtain ⟨hr, hb⟩ := receive_front (h m List.mem_cons_self).isComplete hparse hs
    rw [Collect.collect_ok hr]
    rw [List.map_cons, Collect.run, Collect.feed] at hrun
    rcases hfeed : c.feedMsg m' with ⟨es, c'⟩ | ⟨es, res'⟩ <;> rw [hfeed] at hrun
    · exact hms hb hrun
    · cases hrun
      rfl

/-! ### Streams that break off -/

/-- The number of `ReadyForQuery` messages that have arrived. -/
def readied (ms : List BackendMsg) (k : ℕ) : ℕ := (arrived ms k).countP BackendMsg.isReady

/-- One collector, on the stream that breaks off and on the one that does not: its response has
arrived and is the same, or the connection is closed. -/
theorem collect_torn {ms : List BackendMsg} (h : ∀ m ∈ ms, m.WellFormed) :
    ∀ {c : Collect} {k : ℕ} {torn whole : Source}, c.streams = false →
      torn.bytes = (BackendMsg.encodeAll ms).take k → whole.bytes = BackendMsg.encodeAll ms →
      (∃ res torn' whole' ms' k', c.collect torn = (res, torn') ∧ c.collect whole = (res, whole') ∧
        (∀ m ∈ ms', m.WellFormed) ∧ torn'.bytes = (BackendMsg.encodeAll ms').take k' ∧
        whole'.bytes = BackendMsg.encodeAll ms' ∧ readied ms k = readied ms' k' + 1) ∨
      ∃ torn', c.collect torn = (.error .connectionClosed, torn') ∧ torn'.Ended ∧
        readied ms k = 0 := by
  induction ms with
  | nil =>
    intro c k torn whole hc htorn _
    have hnil : torn.bytes = [] := by rw [htorn]; exact List.take_nil
    obtain ⟨torn', hcollect, hend⟩ := Collect.collect_ended hc (Source.ended_of_nil hnil)
    exact .inr ⟨torn', hcollect, hend, rfl⟩
  | cons m ms ih =>
    intro c k torn whole hc htorn hwhole
    obtain ⟨m', hparse, hsame⟩ := BackendMsg.parseBody_encodeBody (h m List.mem_cons_self)
    have hms : ∀ m ∈ ms, m.WellFormed := fun m hm => h m (List.mem_cons_of_mem _ hm)
    have hf := (h m List.mem_cons_self).isComplete
    have hready : m'.isReady = m.isReady := by
      cases m <;> cases m' <;> first | rfl | cases hsame
    rw [BackendMsg.encodeAll, List.flatMap_cons, List.take_append] at htorn
    by_cases hk : m.encode.length ≤ k
    -- the message is there in full
    · rw [List.take_of_length_le hk] at htorn
      obtain ⟨hr, hb⟩ := receive_front hf hparse htorn
      obtain ⟨hr', hb'⟩ := receive_front hf hparse hwhole
      have hcount : readied (m :: ms) k =
          readied ms (k - m.encode.length) + if m.isReady then 1 else 0 := by
        rw [readied, arrived, if_pos hk, List.countP_cons, readied]
      rw [Collect.collect_ok hr, Collect.collect_ok hr', hcount]
      cases hm : m.isReady with
      | true =>
        obtain ⟨es, res, hfeed⟩ := c.feedMsg_of_isReady (hready.trans hm)
        rw [hfeed]
        exact .inl ⟨res, _, _, ms, _, rfl, rfl, hms, hb, hb', rfl⟩
      | false =>
        obtain ⟨es, c', hfeed, -⟩ := c.feedMsg_of_not_isReady (hready.trans hm)
        rw [hfeed]
        exact ih hms (Collect.streams_of_more hc hfeed) hb hb'
    -- it is cut, or has not begun
    · rw [Nat.sub_eq_zero_of_le (by omega), List.take_zero, List.append_nil] at htorn
      have hend : torn.Ended := by
        refine ⟨m.frame, hf, htorn ▸ List.take_prefix _ _, ?_⟩
        rw [htorn, List.length_take]
        exact Nat.lt_of_le_of_lt (Nat.min_le_left _ _) (Nat.not_le.1 hk)
      obtain ⟨torn', hcollect, hend'⟩ := Collect.collect_ended hc hend
      refine .inr ⟨torn', hcollect, hend', ?_⟩
      rw [readied, arrived, if_neg hk]
      rfl

/-- At the end of the stream every request is told that the connection is closed. -/
theorem readerTask_ended {cs : List Collect} :
    ∀ {s : Source}, (∀ c ∈ cs, c.streams = false) → s.Ended →
      readerTask cs s = List.replicate cs.length (.error .connectionClosed) := by
  induction cs with
  | nil => intro s _ _; rfl
  | cons c cs ih =>
    intro s hcs hs
    obtain ⟨s', hcollect, hend⟩ := Collect.collect_ended (hcs c List.mem_cons_self) hs
    rw [readerTask, hcollect, List.length_cons, List.replicate_succ,
      ih (fun c hc => hcs c (List.mem_cons_of_mem _ hc)) hend]

theorem readerTask_torn_aux {cs : List Collect} (hcs : ∀ c ∈ cs, c.streams = false) :
    ∀ {ms : List BackendMsg} {k : ℕ} {torn whole : Source}, (∀ m ∈ ms, m.WellFormed) →
      torn.bytes = (BackendMsg.encodeAll ms).take k → whole.bytes = BackendMsg.encodeAll ms →
      readerTask cs torn = (readerTask cs whole).take (readied ms k) ++
        List.replicate (cs.length - readied ms k) (.error .connectionClosed) := by
  induction cs with
  | nil => intro ms k torn whole _ _ _; simp [readerTask]
  | cons c cs ih =>
    intro ms k torn whole h htorn hwhole
    have hcs' : ∀ c ∈ cs, c.streams = false := fun c hc => hcs c (List.mem_cons_of_mem _ hc)
    rcases collect_torn h (hcs c List.mem_cons_self) htorn hwhole with
      ⟨res, torn', whole', ms', k', ht, hw, hms', htorn', hwhole', hcount⟩ |
      ⟨torn', ht, hend, hcount⟩
    · rw [readerTask, readerTask, ht, hw, hcount, List.take_succ_cons, List.length_cons,
        Nat.add_sub_add_right, ih hcs' hms' htorn' hwhole', List.cons_append]
    · rw [readerTask, ht, hcount, List.take_zero, List.nil_append, Nat.sub_zero, List.length_cons,
        List.replicate_succ, readerTask_ended hcs' hend]

/-- **A connection that breaks off.**  Cut the stream of the server's messages at any byte, and let
it arrive in any chunks.  The requests whose `ReadyForQuery` has arrived get the response that they
get from the whole stream in any other chunks; all others are told that the connection is closed. -/
theorem readerTask_torn {ms : List BackendMsg} (h : ∀ m ∈ ms, m.WellFormed)
    {requests : List ResponseCollector} (hr : .stream ∉ requests) (k : ℕ)
    {torn whole : List Bytes} (ht : Splits torn ((BackendMsg.encodeAll ms).take k))
    (hw : Splits whole (BackendMsg.encodeAll ms)) :
    readerTask (requests.map Collect.init) ⟨[], torn⟩ =
      (readerTask (requests.map Collect.init) ⟨[], whole⟩).take (readied ms k) ++
        List.replicate (requests.length - readied ms k) (.error .connectionClosed) := by
  have hcs : ∀ c ∈ requests.map Collect.init, c.streams = false := by
    intro c hc
    obtain ⟨r, hmem, rfl⟩ := List.mem_map.1 hc
    cases r <;> first | rfl | exact absurd hmem hr
  have htask := readerTask_torn_aux hcs h ht.bytes hw.bytes
  rwa [List.length_map] at htask

/-- Two responses without rows. -/
def twoResponses : List BackendMsg :=
  [.commandComplete "LISTEN", .readyForQuery (byte 'I'), .commandComplete "SET",
    .readyForQuery (byte 'I')]

/-- The second of them is cut in its `CommandComplete`. -/
theorem readerTask_torn_twoResponses :
    readerTask ([.rows, .drain].map Collect.init)
        ⟨[], [((BackendMsg.encodeAll twoResponses).take 20)]⟩ =
      (readerTask ([.rows, .drain].map Collect.init)
          ⟨[], twoResponses.map BackendMsg.encode⟩).take (readied twoResponses 20) ++
        List.replicate ([ResponseCollector.rows, .drain].length - readied twoResponses 20)
          (.error .connectionClosed) := by
  refine readerTask_torn ?_ (by decide) 20 ⟨by decide, by decide⟩ ⟨by decide, rfl⟩
  have hmsg (m : BackendMsg) (hm : (∀ s ∈ m.strings, 0 ∉ asBytes s) ∧ m.count ≤ 32767 ∧
      m.encodeBody.length + 4 ≤ maxMessageSize) (hauth : m.tag ≠ 'R') : m.WellFormed :=
    ⟨hm.1, fun _ h => absurd (h ▸ rfl) hauth, hm.2.1, hm.2.2⟩
  intro m hm
  simp only [twoResponses, List.mem_cons, List.not_mem_nil, or_false] at hm
  rcases hm with rfl | rfl | rfl | rfl <;> exact hmsg _ (by decide) (by decide)

end Resolute
