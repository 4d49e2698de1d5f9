import Resolute.Wire.Backend

/-!
# Reading messages from the socket

`read_msg` of the reader task and `WireConn::recv_msg` are one loop: parse, and if that gives no
message, read from the socket and parse again.  At end of stream the buffer is parsed once more.
The parser has one answer for two situations: the buffer holds no complete frame, or it held one
with an unknown tag, which is now gone.  The loop takes both to mean that it has to read.

The socket hands over the stream in *chunks*, one for each read, and then reports end of stream; a
`Source` is the receive buffer and the chunks to come, and `calls` are repeated calls, up to the
first error.  Two things are expected of them: `ChunkIndependent`, that the results do not depend on
the chunks, and `Prompt`, that no call waits for the socket while a message is in its buffer.  Both
hold of a stream exactly if it has nothing behind a frame with an unknown tag (`chunking_iff`).
-/

namespace Resolute

/-! ### Known tags -/

/-- The tags that `parse_message` has an arm for. -/
def knownTag (tag : UInt8) : Bool :=
  "RSKZ123nCDTENIAtsGHdc".toList.contains (Char.ofUInt8 tag)

/-- The parser of a body does not skip its frame. -/
def NeverSkips (p : Parsed) : Prop := p ≠ .ok none

theorem neverSkips_ok (m : BackendMsg) : NeverSkips (.ok (some m)) := fun h => by cases h

theorem neverSkips_error (e : String) : NeverSkips (.error e) := fun h => by cases h

theorem neverSkips_bind {α : Type} (x : Except String α) {p : α → Parsed}
    (hp : ∀ a, NeverSkips (p a)) : NeverSkips (x >>= p) := by
  cases x with
  | error e => exact neverSkips_error e
  | ok a => exact hp a

theorem neverSkips_ite {c : Prop} [Decidable c] {p q : Parsed} (hp : NeverSkips p)
    (hq : NeverSkips q) : NeverSkips (if c then p else q) := by
  split_ifs <;> assumption

theorem parseAuth_neverSkips (body : Bytes) : NeverSkips (parseAuth body) := by
  unfold parseAuth
  repeat' apply neverSkips_ite
  all_goals first | exact neverSkips_error _ | exact neverSkips_ok _ | skip
  cases h : saslMechanisms body.length (body.drop 4) with
  | error e => exact neverSkips_error e
  | ok ms => exact neverSkips_ok _

theorem parseDataRow_neverSkips (body : Bytes) : NeverSkips (parseDataRow body) := by
  refine neverSkips_ite (neverSkips_error _) (neverSkips_bind _ fun n => neverSkips_bind _
    fun es => ?_)
  exact neverSkips_ite (neverSkips_ok _) (neverSkips_ok _)

theorem parseCopyResponse_neverSkips (body : Bytes) (isIn : Bool) :
    NeverSkips (parseCopyResponse body isIn) :=
  neverSkips_ite (neverSkips_error _) <| neverSkips_bind _ fun _ =>
    neverSkips_ite (neverSkips_error _) (neverSkips_ite (neverSkips_ok _) (neverSkips_ok _))

/-- Exactly the frames with an unknown tag are skipped. -/
theorem parseBody_eq_none_iff (tag : UInt8) (body : Bytes) :
    parseBody tag body = .ok none ↔ knownTag tag = false := by
  constructor
  · intro h
    by_contra hknown
    simp only [knownTag, Bool.not_eq_false] at hknown
    revert h
    unfold parseBody
    split
    case h_1 => exact parseAuth_neverSkips body
    case h_2 => exact neverSkips_bind _ fun _ => neverSkips_bind _ fun _ => neverSkips_ok _
    case h_3 => exact neverSkips_ite (neverSkips_error _) (neverSkips_ok _)
    case h_4 => cases body <;> exact fun h => by cases h
    case h_9 => exact neverSkips_bind _ fun _ => neverSkips_ok _
    case h_10 => exact parseDataRow_neverSkips body
    case h_11 =>
      exact neverSkips_ite (neverSkips_error _) <| neverSkips_bind _ fun _ =>
        neverSkips_bind _ fun _ => neverSkips_ok _
    case h_15 =>
      exact neverSkips_ite (neverSkips_error _) <| neverSkips_bind _ fun _ =>
        neverSkips_bind _ fun _ => neverSkips_ok _
    case h_16 =>
      exact neverSkips_ite (neverSkips_error _) <| neverSkips_bind _ fun _ =>
        neverSkips_ite (neverSkips_error _) (neverSkips_ok _)
    case h_18 | h_19 => exact parseCopyResponse_neverSkips body _
    case h_22 => simp_all
    all_goals exact neverSkips_ok _
  · intro h
    unfold parseBody
    split <;> first | rfl | simp_all [knownTag]

/-! ### The front of a buffer -/

theorem u32Bytes_u32Be (a b c d : UInt8) : u32Bytes (u32Be a b c d) = [a, b, c, d] := by
  have ha := a.toNat_lt
  have hb := b.toNat_lt
  have hc := c.toNat_lt
  have hd := d.toNat_lt
  simp only [u32Bytes, u32Be, UInt32.toNat_ofNat', List.cons.injEq, and_true]
  refine ⟨?_, ?_, ?_, ?_⟩
  all_goals
    apply UInt8.toNat_inj.1
    rw [UInt8.toNat_ofNat']
    omega

namespace Frame

/-- The frame is one that `parse_message` takes off the buffer. -/
def isComplete (f : Frame) : Bool := acceptsLength f.length && f.isFramed

theorem parseMessage_encode {f : Frame} (h : f.isComplete = true) (rest : Bytes) :
    parseMessage (f.encode ++ rest) = (parseBody f.tag f.body, rest) := by
  simp only [isComplete, Bool.and_eq_true] at h
  exact parseMessage_frame h.2 h.1 rest

theorem hasFrame_encode {f : Frame} (h : f.isComplete = true) (rest : Bytes) :
    hasFrame (f.encode ++ rest) = true := by
  simp only [isComplete, Bool.and_eq_true] at h
  have hlen : f.length.toNatClampNeg = f.body.length + 4 := by
    simpa [isFramed, h.1] using h.2
  simp only [encode, u32Bytes, List.cons_append, List.nil_append, hasFrame, i32Be_u32Bytes,
    List.length_append, Bool.and_eq_true, decide_eq_true_eq]
  exact ⟨h.1, by omega⟩

theorem encode_ne_nil (f : Frame) : f.encode ≠ [] := by simp [encode]

end Frame

/-- A buffer with a complete frame in front is that frame and the rest. -/
theorem exists_frame {buf : Bytes} (h : hasFrame buf = true) :
    ∃ (f : Frame) (rest : Bytes), f.isComplete = true ∧ buf = f.encode ++ rest := by
  match buf, h with
  | tag :: b₁ :: b₂ :: b₃ :: b₄ :: rest, h =>
    simp only [hasFrame, Bool.and_eq_true, decide_eq_true_eq] at h
    obtain ⟨ha, hlen⟩ := h
    refine ⟨⟨tag, i32Be b₁ b₂ b₃ b₄, rest.take ((i32Be b₁ b₂ b₃ b₄).toNatClampNeg - 4)⟩,
      rest.drop ((i32Be b₁ b₂ b₃ b₄).toNatClampNeg - 4), ?_, ?_⟩
    · have hlow : 4 ≤ (i32Be b₁ b₂ b₃ b₄).toNatClampNeg := by
        simp only [acceptsLength, Bool.and_eq_true, decide_eq_true_eq] at ha
        have h4 : (4 : Int32).toInt ≤ (i32Be b₁ b₂ b₃ b₄).toInt := Int32.le_iff_toInt_le.1 ha.1
        have : (4 : Int32).toInt = 4 := rfl
        simp only [Int32.toNatClampNeg]
        omega
      simp only [Frame.isComplete, Frame.isFramed, ha, Bool.true_and, Bool.not_true, Bool.false_or,
        List.length_take, beq_iff_eq]
      omega
    · simp [Frame.encode, i32Be, u32Bytes_u32Be]

/-- A length that the parser does not accept is rejected whatever comes after it. -/
theorem parseMessage_rejected {buf : Bytes} (h : badHeader buf = true) :
    ∃ e, ∀ more, parseMessage (buf ++ more) = (.error e, buf ++ more) := by
  match buf, h with
  | tag :: b₁ :: b₂ :: b₃ :: b₄ :: rest, h =>
    simp only [badHeader, acceptsLength, Bool.not_eq_true', Bool.and_eq_false_iff,
      decide_eq_false_iff_not] at h
    by_cases hlow : i32Be b₁ b₂ b₃ b₄ < 4
    · exact ⟨_, fun more => by rw [List.cons_append]; exact if_pos hlow⟩
    · have hhigh : maxMessageSize < (i32Be b₁ b₂ b₃ b₄).toNatClampNeg := by
        rcases h with h | h
        · exact absurd (Int32.not_le.1 h) hlow
        · exact Nat.not_le.1 h
      exact ⟨_, fun more => by
        rw [List.cons_append]
        exact (if_neg hlow).trans (if_pos hhigh)⟩

/-! ### The read loop -/

/-- What a read loop reads from. -/
structure Source where
  /-- The receive buffer. -/
  buf : Bytes
  /-- What the reads of the socket will return, before they return `0`. -/
  chunks : List Bytes
  deriving DecidableEq, Repr

/-- The bytes that are still to be parsed. -/
def Source.bytes (s : Source) : Bytes := s.buf ++ s.chunks.flatten

/-- What a call of the loop leads to. -/
structure Receipt where
  result : ReadResult
  source : Source
  /-- The buffer at each read of the socket. -/
  waits : List Bytes
  deriving DecidableEq, Repr

/-- The loop that `read_msg` and `recv_msg` share. -/
def receive (buf : Bytes) (chunks : List Bytes) : Receipt :=
  match parseMessage buf with
  | (.ok (some msg), rest) => ⟨.ok msg, ⟨rest, chunks⟩, []⟩
  | (.error e, rest) => ⟨.error (.protocol e), ⟨rest, chunks⟩, []⟩
  | (.ok none, rest) =>
    match chunks with
    | chunk :: chunks =>
      let r := receive (rest ++ chunk) chunks
      { r with waits := rest :: r.waits }
    | [] =>
      -- end of stream: the buffer is parsed once more
      match parseMessage rest with
      | (.ok (some msg), rest') => ⟨.ok msg, ⟨rest', []⟩, [rest]⟩
      | (.error e, rest') => ⟨.error (.protocol e), ⟨rest', []⟩, [rest]⟩
      | (.ok none, rest') => ⟨.error .connectionClosed, ⟨rest', []⟩, [rest]⟩
termination_by structural chunks

/-- `read_msg` of the reader task. -/
def readMsg (s : Source) : Receipt := receive s.buf s.chunks

/-- `WireConn::recv_msg`. -/
def WireConn.recvMsg (s : Source) : Receipt := receive s.buf s.chunks

/-- Up to `n` calls; the first error is the last of them. -/
def calls (recv : Source → Receipt) : ℕ → Source → List Receipt
  | 0, _ => []
  | n + 1, s =>
    let r := recv s
    r :: match r.result with
      | .ok _ => calls recv n r.source
      | .error _ => []

/-- What up to `n` calls return. -/
def results (recv : Source → Receipt) (n : ℕ) (s : Source) : List ReadResult :=
  (calls recv n s).map Receipt.result

/-- The buffers with which up to `n` calls wait for the socket. -/
def waits (recv : Source → Receipt) (n : ℕ) (s : Source) : List Bytes :=
  (calls recv n s).flatMap Receipt.waits

/-- The stream arrives in these chunks; a read of length `0` is the end of it. -/
def Splits (chunks : List Bytes) (stream : Bytes) : Prop :=
  (∀ chunk ∈ chunks, chunk ≠ []) ∧ chunks.flatten = stream

/-- However the stream is split, the calls return the same. -/
def ChunkIndependent (recv : Source → Receipt) (stream : Bytes) : Prop :=
  ∀ chunks chunks', Splits chunks stream → Splits chunks' stream →
    ∀ n, results recv n ⟨[], chunks⟩ = results recv n ⟨[], chunks'⟩

/-- A complete frame with a known tag is in front of the buffer. -/
def startsKnown (buf : Bytes) : Bool := hasFrame buf && buf.head?.any knownTag

/-- The frames that `parse_message` skips. -/
def Frame.isSkipped (f : Frame) : Bool := f.isComplete && !knownTag f.tag

/-- The frames that `parse_message` makes a message of. -/
def Frame.isMessage (f : Frame) : Bool :=
  f.isComplete && match parseBody f.tag f.body with
    | .ok (some _) => true
    | _ => false

/-- The bytes of some frames. -/
def encodeAll (fs : List Frame) : Bytes := fs.flatMap Frame.encode

theorem encodeAll_cons (f : Frame) (fs : List Frame) (rest : Bytes) :
    encodeAll (f :: fs) ++ rest = f.encode ++ (encodeAll fs ++ rest) := by
  rw [encodeAll, List.flatMap_cons, List.append_assoc, encodeAll]

/-- A complete frame with a known tag is in the buffer. -/
def HoldsKnown (buf : Bytes) : Prop :=
  ∃ fs rest, (∀ f ∈ fs, f.isComplete = true) ∧ buf = encodeAll fs ++ rest ∧ startsKnown rest = true

/-- No call waits for the socket while a complete frame with a known tag is in its buffer. -/
def Prompt (recv : Source → Receipt) (stream : Bytes) : Prop :=
  ∀ chunks, Splits chunks stream → ∀ n, ∀ buf ∈ waits recv n ⟨[], chunks⟩, ¬ HoldsKnown buf

/-- Behind the first frames with unknown tags comes no complete frame with a known tag; and if they
are two or more, no length that the parser rejects. -/
def NothingBehindUnknown (stream : Bytes) : Prop :=
  ∀ (fs us : List Frame) (rest : Bytes), (∀ f ∈ fs, f.isMessage = true) →
    (∀ f ∈ us, f.isSkipped = true) → us ≠ [] → stream = encodeAll fs ++ encodeAll us ++ rest →
    startsKnown rest = false ∧ (2 ≤ us.length → badHeader rest = false)

/-! ### One call -/

/-- What a buffer begins with. -/
inductive Front : Bytes → Prop
  | message {f : Frame} {m} (rest : Bytes) (hf : f.isComplete = true)
    (hm : parseBody f.tag f.body = .ok (some m)) : Front (f.encode ++ rest)
  | malformed {f : Frame} {e} (rest : Bytes) (hf : f.isComplete = true)
    (he : parseBody f.tag f.body = .error e) : Front (f.encode ++ rest)
  | skipped {f : Frame} (rest : Bytes) (hf : f.isSkipped = true) : Front (f.encode ++ rest)
  | rejected {buf} (hb : badHeader buf = true) : Front buf
  | incomplete {buf} (hb : badHeader buf = false) (hf : hasFrame buf = false) : Front buf

theorem front (buf : Bytes) : Front buf := by
  by_cases hf : hasFrame buf = true
  · obtain ⟨f, rest, hc, rfl⟩ := exists_frame hf
    cases hp : parseBody f.tag f.body with
    | error e => exact .malformed rest hc hp
    | ok res =>
      cases res with
      | none =>
        have htag := (parseBody_eq_none_iff f.tag f.body).1 hp
        exact .skipped rest (by simp [Frame.isSkipped, hc, htag])
      | some m => exact .message rest hc hp
  · by_cases hb : badHeader buf = true
    · exact .rejected hb
    · exact .incomplete (by simpa using hb) (by simpa using hf)

theorem Frame.isSkipped_iff {f : Frame} :
    f.isSkipped = true ↔ f.isComplete = true ∧ parseBody f.tag f.body = .ok none := by
  simp [isSkipped, parseBody_eq_none_iff]

theorem Frame.isMessage_iff {f : Frame} :
    f.isMessage = true ↔ f.isComplete = true ∧ ∃ m, parseBody f.tag f.body = .ok (some m) := by
  simp only [isMessage, Bool.and_eq_true]
  refine and_congr_right fun _ => ?_
  split
  · rename_i m hm
    simp [hm]
  · rename_i hm
    simpa using hm

theorem parseMessage_skipped {f : Frame} (hf : f.isSkipped = true) (rest : Bytes) :
    parseMessage (f.encode ++ rest) = (.ok none, rest) := by
  obtain ⟨hc, hp⟩ := Frame.isSkipped_iff.1 hf
  rw [Frame.parseMessage_encode hc, hp]

theorem startsKnown_encode {f : Frame} (hf : f.isComplete = true) (rest : Bytes) :
    startsKnown (f.encode ++ rest) = knownTag f.tag := by
  rw [startsKnown, Frame.hasFrame_encode hf, Bool.true_and]
  simp [Frame.encode]

/-- A buffer that begins with no message and no bad length gives none. -/
theorem parseMessage_of_not_startsKnown {buf : Bytes} (h : startsKnown buf = false)
    (hb : badHeader buf = false) : ∃ rest, parseMessage buf = (.ok none, rest) := by
  by_cases hf : hasFrame buf = true
  · obtain ⟨f, rest, hc, rfl⟩ := exists_frame hf
    rw [startsKnown_encode hc] at h
    exact ⟨rest, by rw [Frame.parseMessage_encode hc, (parseBody_eq_none_iff _ _).2 h]⟩
  · exact ⟨buf, parseMessage_incomplete hb (by simpa using hf)⟩

theorem startsKnown_append {buf : Bytes} (h : startsKnown buf = true) (more : Bytes) :
    startsKnown (buf ++ more) = true := by
  simp only [startsKnown, Bool.and_eq_true] at h
  obtain ⟨f, rest, hc, rfl⟩ := exists_frame h.1
  have htag := startsKnown_encode hc rest
  rw [startsKnown, h.1, h.2] at htag
  rw [List.append_assoc, startsKnown_encode hc, ← htag, Bool.and_self]

/-- What the parser leaves, and that a message is not empty. -/
theorem length_parseMessage {buf rest : Bytes} {p : Parsed} (h : parseMessage buf = (p, rest)) :
    rest.length ≤ buf.length ∧ ∀ m, p = .ok (some m) → rest.length < buf.length := by
  by_cases hf : hasFrame buf = true
  · obtain ⟨f, rest', hc, rfl⟩ := exists_frame hf
    rw [Frame.parseMessage_encode hc, Prod.mk.injEq] at h
    obtain ⟨-, rfl⟩ := h
    have := f.length_encode
    simp only [List.length_append]
    exact ⟨by omega, fun _ _ => by omega⟩
  · by_cases hb : badHeader buf = true
    · obtain ⟨e, he⟩ := parseMessage_badHeader hb
      rw [he] at h
      cases h
      exact ⟨Nat.le_refl _, fun m hm => by cases hm⟩
    · rw [parseMessage_incomplete (by simpa using hb) (by simpa using hf)] at h
      cases h
      exact ⟨Nat.le_refl _, fun m hm => by cases hm⟩

theorem receive_message {f : Frame} {m : BackendMsg} (hf : f.isComplete = true)
    (hm : parseBody f.tag f.body = .ok (some m)) (rest : Bytes) (chunks : List Bytes) :
    receive (f.encode ++ rest) chunks = ⟨.ok m, ⟨rest, chunks⟩, []⟩ := by
  unfold receive
  rw [Frame.parseMessage_encode hf, hm]

theorem receive_error {buf rest : Bytes} {e : String} (h : parseMessage buf = (.error e, rest))
    (chunks : List Bytes) :
    receive buf chunks = ⟨.error (.protocol e), ⟨rest, chunks⟩, []⟩ := by
  unfold receive
  rw [h]

theorem receive_cons {buf rest : Bytes} (h : parseMessage buf = (.ok none, rest)) (chunk : Bytes)
    (chunks : List Bytes) :
    receive buf (chunk :: chunks) =
      { receive (rest ++ chunk) chunks with
        waits := rest :: (receive (rest ++ chunk) chunks).waits } := by
  rw [receive, h]

/-- At end of stream, the call returns what the next parse gives. -/
theorem receive_nil {buf rest : Bytes} (h : parseMessage buf = (.ok none, rest)) :
    receive buf [] = match parseMessage rest with
      | (.ok (some msg), rest') => ⟨.ok msg, ⟨rest', []⟩, [rest]⟩
      | (.error e, rest') => ⟨.error (.protocol e), ⟨rest', []⟩, [rest]⟩
      | (.ok none, rest') => ⟨.error .connectionClosed, ⟨rest', []⟩, [rest]⟩ := by
  rw [receive, h]

/-! ### Streams with nothing behind unknown tags -/

namespace NothingBehindUnknown

variable {stream rest : Bytes} {f : Frame}

theorem of_message (h : NothingBehindUnknown (f.encode ++ rest)) (hf : f.isMessage = true) :
    NothingBehindUnknown rest := by
  intro fs us rest' hfs hus hne heq
  refine h (f :: fs) us rest' (by simpa [hf] using hfs) hus hne ?_
  simp [encodeAll, heq]

theorem behind (h : NothingBehindUnknown (f.encode ++ rest)) (hf : f.isSkipped = true) :
    startsKnown rest = false :=
  (h [] [f] rest (by simp) (by simpa using hf) (by simp) (by simp [encodeAll])).1

theorem behind_two {g : Frame} (h : NothingBehindUnknown (f.encode ++ (g.encode ++ rest)))
    (hf : f.isSkipped = true) (hg : g.isSkipped = true) :
    startsKnown rest = false ∧ badHeader rest = false := by
  have h' := h [] [f, g] rest (by simp) (by simp [hf, hg]) (by simp) (by simp [encodeAll])
  exact ⟨h'.1, h'.2 (by simp)⟩

theorem of_skipped (h : NothingBehindUnknown (f.encode ++ rest)) (hf : f.isSkipped = true) :
    NothingBehindUnknown rest := by
  intro fs us rest' hfs hus hne heq
  cases fs with
  | nil =>
    have h' := h [] (f :: us) rest' (by simp) (by simpa [hf] using hus) (by simp)
      (by simp [encodeAll, heq])
    exact ⟨h'.1, fun hlen => h'.2 (by simp only [List.length_cons]; omega)⟩
  | cons g fs =>
    -- a message would be behind the frame that is skipped
    obtain ⟨hg, m, hm⟩ := Frame.isMessage_iff.1 (hfs g List.mem_cons_self)
    have hknown : knownTag g.tag = true := by
      by_contra htag
      rw [(parseBody_eq_none_iff g.tag g.body).2 (by simpa using htag)] at hm
      cases hm
    have hbehind := h.behind hf
    rw [heq, List.append_assoc, encodeAll_cons, startsKnown_encode hg, hknown] at hbehind
    cases hbehind

end NothingBehindUnknown

/-- The first complete frame with a known tag is behind frames that are skipped. -/
theorem HoldsKnown.exists_skipped {buf : Bytes} (h : HoldsKnown buf) :
    ∃ us rest, (∀ f ∈ us, f.isSkipped = true) ∧ buf = encodeAll us ++ rest ∧
      startsKnown rest = true := by
  obtain ⟨fs, rest, hfs, rfl, hrest⟩ := h
  induction fs with
  | nil => exact ⟨[], rest, by simp, rfl, hrest⟩
  | cons f fs ih =>
    have hf := hfs f List.mem_cons_self
    cases htag : knownTag f.tag with
    | true =>
      refine ⟨[], encodeAll (f :: fs) ++ rest, by simp, rfl, ?_⟩
      rw [encodeAll_cons, startsKnown_encode hf, htag]
    | false =>
      obtain ⟨us, rest', hus, heq, hrest'⟩ := ih fun g hg => hfs g (List.mem_cons_of_mem _ hg)
      refine ⟨f :: us, rest', ?_, ?_, hrest'⟩
      · simpa [Frame.isSkipped, hf, htag] using hus
      · rw [encodeAll_cons, encodeAll_cons, heq]

/-- What is left of the buffer behind a skipped frame holds no message. -/
theorem NothingBehindUnknown.not_holdsKnown {f : Frame} {rest more : Bytes}
    (h : NothingBehindUnknown (f.encode ++ (rest ++ more))) (hf : f.isSkipped = true) :
    ¬ HoldsKnown rest := by
  intro hknown
  obtain ⟨us, rest', hus, rfl, hrest'⟩ := hknown.exists_skipped
  have h' := (h [] (f :: us) (rest' ++ more) (by simp) (by simpa [hf] using hus) (by simp)
    (by simp [encodeAll])).1
  rw [startsKnown_append hrest'] at h'
  cases h'

theorem not_holdsKnown_of_not_hasFrame {buf : Bytes} (h : hasFrame buf = false) :
    ¬ HoldsKnown buf := by
  rintro ⟨fs, rest, hfs, rfl, hrest⟩
  cases fs with
  | nil =>
    change hasFrame rest = false at h
    rw [startsKnown, h] at hrest
    cases hrest
  | cons f fs =>
    rw [encodeAll_cons, Frame.hasFrame_encode (hfs f List.mem_cons_self)] at h
    cases h

/-- Where no message is behind a skipped frame, skipping it makes no difference: the call ends with
the same error. -/
theorem receive_skipped_nil {f : Frame} {rest : Bytes}
    (h : NothingBehindUnknown (f.encode ++ rest)) (hf : f.isSkipped = true) :
    ∃ e, (receive (f.encode ++ rest) []).result = .error e ∧
      (receive rest []).result = .error e := by
  rw [receive_nil (parseMessage_skipped hf rest)]
  by_cases hb : badHeader rest = true
  · obtain ⟨e, he⟩ := parseMessage_rejected hb
    have he' := he []
    rw [List.append_nil] at he'
    exact ⟨.protocol e, by rw [he'], by rw [receive_error he']⟩
  · obtain ⟨rest', hnone⟩ := parseMessage_of_not_startsKnown (h.behind hf) (by simpa using hb)
    refine ⟨.connectionClosed, by rw [hnone], ?_⟩
    have hnone' : ∃ rest'', parseMessage rest' = (.ok none, rest'') := by
      cases front rest with
      | rejected hb' => exact absurd hb' hb
      | incomplete hb' hframe =>
        rw [parseMessage_incomplete hb' hframe] at hnone
        cases hnone
        exact ⟨_, parseMessage_incomplete hb' hframe⟩
      | @skipped g rest₂ hg =>
        rw [parseMessage_skipped hg] at hnone
        cases hnone
        obtain ⟨hknown, hbad⟩ := h.behind_two hf hg
        exact parseMessage_of_not_startsKnown hknown hbad
      | message _ hg hm =>
        rw [Frame.parseMessage_encode hg, hm] at hnone
        cases hnone
      | malformed _ hg he =>
        rw [Frame.parseMessage_encode hg, he] at hnone
        cases hnone
    obtain ⟨rest'', hnone'⟩ := hnone'
    rw [receive_nil hnone, hnone']

/-- **One call.**  Where nothing is behind unknown tags, the chunks make no difference to a call. -/
theorem receive_eq {buf : Bytes} {chunks : List Bytes}
    (h : NothingBehindUnknown (buf ++ chunks.flatten)) :
    (receive buf chunks).result = (receive (buf ++ chunks.flatten) []).result ∧
      (∀ m, (receive buf chunks).result = .ok m →
        (receive buf chunks).source.bytes = (receive (buf ++ chunks.flatten) []).source.bytes) ∧
      ∀ w ∈ (receive buf chunks).waits, ¬ HoldsKnown w := by
  induction chunks generalizing buf with
  -- everything has arrived
  | nil =>
    simp only [List.flatten_nil, List.append_nil] at h ⊢
    refine ⟨trivial, fun _ _ => trivial, ?_⟩
    cases front buf with
    | message rest hf hm => simp [receive_message hf hm]
    | @malformed f e rest hf he =>
      have hp := Frame.parseMessage_encode hf rest
      rw [he] at hp
      simp [receive_error hp]
    | rejected hb =>
      obtain ⟨e, he⟩ := parseMessage_rejected hb
      have he' := he []
      rw [List.append_nil] at he'
      simp [receive_error he']
    -- an unknown message is dropped, and the call waits for the next chunk
    | @skipped f rest hf =>
      have hrest : ¬ HoldsKnown rest := by
        rw [← List.append_nil rest] at h
        exact h.not_holdsKnown hf
      rw [receive_nil (parseMessage_skipped hf rest)]
      split <;> simpa using hrest
    | incomplete hb hf =>
      have hnone := parseMessage_incomplete hb hf
      rw [receive_nil hnone, hnone]
      simpa using not_holdsKnown_of_not_hasFrame hf
  | cons chunk chunks ih =>
    rw [List.flatten_cons] at h ⊢
    cases front buf with
    | @message f m rest hf hm =>
      rw [List.append_assoc, receive_message hf hm, receive_message hf hm]
      simp [Source.bytes]
    | @malformed f e rest hf he =>
      have hp := fun more => Frame.parseMessage_encode hf more
      simp only [he] at hp
      rw [List.append_assoc, receive_error (hp _), receive_error (hp _)]
      simp
    | rejected hb =>
      obtain ⟨e, he⟩ := parseMessage_rejected hb
      have he' := he []
      rw [List.append_nil] at he'
      rw [receive_error he', receive_error (he _)]
      simp
    -- nothing comes behind an unknown message, so both calls end with an error
    | @skipped f rest hf =>
      rw [List.append_assoc] at h ⊢
      obtain ⟨e, he, he'⟩ := receive_skipped_nil h hf
      have hrest := h.of_skipped hf
      rw [← List.append_assoc] at hrest he'
      obtain ⟨hresult, -, hwaits⟩ := ih hrest
      rw [receive_cons (parseMessage_skipped hf rest)]
      refine ⟨by rw [he, ← he', ← hresult], fun m hm => ?_, fun w hw => ?_⟩
      · rw [show (receive (rest ++ chunk) chunks).result = .error e from hresult.trans he'] at hm
        cases hm
      · rcases List.mem_cons.1 hw with rfl | hw
        · exact h.not_holdsKnown hf
        · exact hwaits w hw
    | incomplete hb hf =>
      rw [← List.append_assoc] at h ⊢
      obtain ⟨hresult, hsource, hwaits⟩ := ih h
      rw [receive_cons (parseMessage_incomplete hb hf)]
      refine ⟨hresult, hsource, fun w hw => ?_⟩
      rcases List.mem_cons.1 hw with rfl | hw
      · exact not_holdsKnown_of_not_hasFrame hf
      · exact hwaits w hw

/-- A call that returns a message leaves nothing behind unknown tags. -/
theorem NothingBehindUnknown.receive_nil {buf : Bytes} {m : BackendMsg}
    (h : NothingBehindUnknown buf) (hm : (receive buf []).result = .ok m) :
    NothingBehindUnknown (receive buf []).source.bytes := by
  cases front buf with
  | @message f m' rest hf hp =>
    rw [receive_message hf hp, Source.bytes, List.flatten_nil, List.append_nil]
    exact h.of_message (Frame.isMessage_iff.2 ⟨hf, m', hp⟩)
  | @malformed f e rest hf he =>
    have hp := Frame.parseMessage_encode hf rest
    rw [he] at hp
    rw [receive_error hp] at hm
    cases hm
  | rejected hb =>
    obtain ⟨e, he⟩ := parseMessage_rejected hb
    have he' := he []
    rw [List.append_nil] at he'
    rw [receive_error he'] at hm
    cases hm
  | skipped rest hf =>
    obtain ⟨e, he, -⟩ := receive_skipped_nil h hf
    rw [he] at hm
    cases hm
  | incomplete hb hf =>
    have hnone := parseMessage_incomplete hb hf
    rw [Resolute.receive_nil hnone, hnone] at hm
    cases hm

/-! ### Repeated calls -/

theorem results_succ_ok {r : Source → Receipt} {s : Source} {m : BackendMsg} (n : ℕ)
    (h : (r s).result = .ok m) :
    results r (n + 1) s = .ok m :: results r n (r s).source := by
  simp [results, calls, h]

theorem results_succ_error {r : Source → Receipt} {s : Source} {e : PgWireError} (n : ℕ)
    (h : (r s).result = .error e) : results r (n + 1) s = [.error e] := by
  simp [results, calls, h]

theorem waits_succ_ok {r : Source → Receipt} {s : Source} {m : BackendMsg} (n : ℕ)
    (h : (r s).result = .ok m) :
    waits r (n + 1) s = (r s).waits ++ waits r n (r s).source := by
  simp [waits, calls, h]

theorem waits_succ_error {r : Source → Receipt} {s : Source} {e : PgWireError} (n : ℕ)
    (h : (r s).result = .error e) : waits r (n + 1) s = (r s).waits := by
  simp [waits, calls, h]

/-- A message takes its frame off the bytes to come. -/
theorem length_bytes_lt {buf : Bytes} {chunks : List Bytes} {m : BackendMsg}
    (h : (receive buf chunks).result = .ok m) :
    (receive buf chunks).source.bytes.length < (buf ++ chunks.flatten).length := by
  induction chunks generalizing buf with
  | nil =>
    rcases hp : parseMessage buf with ⟨e | (_ | m'), rest⟩
    · rw [receive_error hp] at h
      cases h
    · rw [receive_nil hp] at h ⊢
      have hrest := (length_parseMessage hp).1
      rcases hp' : parseMessage rest with ⟨e | (_ | m'), rest'⟩ <;> rw [hp'] at h
      · cases h
      · cases h
      · have hrest' := (length_parseMessage hp').2 _ rfl
        simp only [Source.bytes, List.flatten_nil, List.append_nil]
        omega
    · unfold receive
      rw [hp]
      simpa [Source.bytes] using (length_parseMessage hp).2 m' rfl
  | cons chunk chunks ih =>
    rcases hp : parseMessage buf with ⟨e | (_ | m'), rest⟩
    · rw [receive_error hp] at h
      cases h
    · rw [receive_cons hp] at h ⊢
      have hrest := (length_parseMessage hp).1
      have hih := ih h
      simp only [List.length_append, List.flatten_cons] at hih ⊢
      omega
    · have hlt := (length_parseMessage hp).2 _ rfl
      unfold receive
      rw [hp]
      simp only [Source.bytes, List.length_append]
      omega

/-- Repeated calls end with an error: end of stream if nothing else. -/
theorem exists_results_end (s : Source) :
    ∃ n ms e, results readMsg n s = ms ++ [.error e] := by
  induction hlen : s.bytes.length using Nat.strongRecOn generalizing s with
  | _ k ih =>
    cases hr : (readMsg s).result with
    | error e => exact ⟨1, [], e, results_succ_error 0 hr⟩
    | ok m =>
      have hlt := length_bytes_lt hr
      obtain ⟨n, ms, e, hn⟩ := ih _ (hlen ▸ hlt) (readMsg s).source rfl
      exact ⟨n + 1, .ok m :: ms, e, by rw [results_succ_ok n hr, hn, List.cons_append]⟩

/-- The results depend on the bytes only. -/
theorem results_eq {n : ℕ} {s : Source} (h : NothingBehindUnknown s.bytes) :
    results readMsg n s = results readMsg n ⟨s.bytes, []⟩ := by
  induction n generalizing s with
  | zero => rfl
  | succ n ih =>
    obtain ⟨hresult, hsource, -⟩ := receive_eq h
    cases hr : (receive s.bytes []).result with
    | error e =>
      rw [results_succ_error n (r := readMsg) (hresult.trans hr),
        results_succ_error n (r := readMsg) (s := ⟨s.bytes, []⟩) hr]
    | ok m =>
      have hnext := h.receive_nil hr
      have hbytes := hsource m (hresult.trans hr)
      rw [results_succ_ok n (r := readMsg) (hresult.trans hr),
        results_succ_ok n (r := readMsg) (s := ⟨s.bytes, []⟩) hr, ih (s := (readMsg s).source),
        ih (s := (readMsg ⟨s.bytes, []⟩).source)]
      · exact congrArg (fun bytes => _ :: results readMsg n ⟨bytes, []⟩) hbytes
      · exact hnext
      · exact hbytes.symm ▸ hnext

theorem Splits.bytes {chunks : List Bytes} {stream : Bytes} (h : Splits chunks stream) :
    (Source.mk [] chunks).bytes = stream := by
  simp [Source.bytes, h.2]

theorem results_of_splits {n : ℕ} {chunks : List Bytes} {stream : Bytes}
    (h : NothingBehindUnknown stream) (hs : Splits chunks stream) :
    results readMsg n ⟨[], chunks⟩ = results readMsg n ⟨stream, []⟩ := by
  rw [results_eq (s := ⟨[], chunks⟩) (hs.bytes.symm ▸ h), hs.bytes]

theorem waits_prompt {n : ℕ} {s : Source} (h : NothingBehindUnknown s.bytes) :
    ∀ w ∈ waits readMsg n s, ¬ HoldsKnown w := by
  induction n generalizing s with
  | zero => simp [waits, calls]
  | succ n ih =>
    obtain ⟨hresult, hsource, hwaits⟩ := receive_eq h
    cases hr : (receive s.bytes []).result with
    | error e =>
      rw [waits_succ_error n (r := readMsg) (hresult.trans hr)]
      exact hwaits
    | ok m =>
      rw [waits_succ_ok n (r := readMsg) (hresult.trans hr)]
      intro w hw
      rcases List.mem_append.1 hw with hw | hw
      · exact hwaits w hw
      · refine ih (s := (readMsg s).source) ?_ w hw
        exact (hsource m (hresult.trans hr)).symm ▸ h.receive_nil hr

/-- Messages in front of the buffer are returned one by one. -/
theorem exists_results_messages {fs : List Frame} (hfs : ∀ f ∈ fs, f.isMessage = true) :
    ∃ ms : List ReadResult, ∀ n rest chunks,
      results readMsg (fs.length + n) ⟨encodeAll fs ++ rest, chunks⟩ =
        ms ++ results readMsg n ⟨rest, chunks⟩ ∧
      waits readMsg (fs.length + n) ⟨encodeAll fs ++ rest, chunks⟩ =
        waits readMsg n ⟨rest, chunks⟩ := by
  induction fs with
  | nil => exact ⟨[], fun n rest chunks => by simp [encodeAll]⟩
  | cons f fs ih =>
    obtain ⟨hf, m, hm⟩ := Frame.isMessage_iff.1 (hfs f List.mem_cons_self)
    obtain ⟨ms, ih⟩ := ih fun g hg => hfs g (List.mem_cons_of_mem _ hg)
    refine ⟨.ok m :: ms, fun n rest chunks => ?_⟩
    have hcall : readMsg ⟨encodeAll (f :: fs) ++ rest, chunks⟩ =
        ⟨.ok m, ⟨encodeAll fs ++ rest, chunks⟩, []⟩ := by
      rw [encodeAll_cons]
      exact receive_message hf hm _ _
    have hlen : (f :: fs).length + n = fs.length + n + 1 := by
      simp only [List.length_cons]
      omega
    obtain ⟨hresults, hwaits⟩ := ih n rest chunks
    rw [hlen, results_succ_ok _ (by rw [hcall]), waits_succ_ok _ (by rw [hcall]), hcall]
    exact ⟨by rw [hresults, List.cons_append], by rw [hwaits, List.nil_append]⟩

/-- The first read of the socket fills an empty buffer. -/
theorem readMsg_first (chunk : Bytes) (chunks : List Bytes) :
    readMsg ⟨[], chunk :: chunks⟩ =
      { readMsg ⟨chunk, chunks⟩ with waits := [] :: (readMsg ⟨chunk, chunks⟩).waits } :=
  have hnone : parseMessage [] = (.ok none, []) := rfl
  receive_cons hnone chunk chunks

theorem results_first (n : ℕ) (chunk : Bytes) (chunks : List Bytes) :
    results readMsg n ⟨[], chunk :: chunks⟩ = results readMsg n ⟨chunk, chunks⟩ := by
  cases n with
  | zero => rfl
  | succ n => simp only [results, calls, readMsg_first, List.map_cons]

theorem mem_waits_first {n : ℕ} {chunk w : Bytes} {chunks : List Bytes}
    (h : w ∈ waits readMsg n ⟨chunk, chunks⟩) : w ∈ waits readMsg n ⟨[], chunk :: chunks⟩ := by
  cases n with
  | zero => exact h
  | succ n =>
    simp only [waits, calls, readMsg_first, List.flatMap_cons, List.cons_append] at h ⊢
    exact List.mem_cons_of_mem _ h

/-- If each skipped frame arrives in a chunk of its own, the call goes on to what is behind them. -/
theorem receive_separate {us : List Frame} {u : Frame} {rest : Bytes} {e : String}
    (hu : u.isSkipped = true) (hus : ∀ f ∈ us, f.isSkipped = true)
    (he : parseMessage rest = (.error e, rest)) :
    (receive u.encode (us.map Frame.encode ++ [rest])).result = .error (.protocol e) := by
  induction us generalizing u with
  | nil =>
    have hskip := parseMessage_skipped hu []
    rw [List.append_nil] at hskip
    rw [List.map_nil, List.nil_append, receive_cons hskip, List.nil_append, receive_error he]
  | cons f us ih =>
    have hskip := parseMessage_skipped hu []
    rw [List.append_nil] at hskip
    rw [List.map_cons, List.cons_append, receive_cons hskip, List.nil_append]
    exact ih (hus f List.mem_cons_self) fun g hg => hus g (List.mem_cons_of_mem _ hg)

/-- A message behind a skipped frame has to wait, if all of it arrives at once. -/
theorem not_prompt {stream rest : Bytes} {fs us : List Frame} (hfs : ∀ f ∈ fs, f.isMessage = true)
    (hus : ∀ f ∈ us, f.isSkipped = true) (hne : us ≠ [])
    (heq : stream = encodeAll fs ++ encodeAll us ++ rest) (hrest : startsKnown rest = true) :
    ¬ Prompt readMsg stream := by
  intro hprompt
  obtain ⟨u, us, rfl⟩ := List.exists_cons_of_ne_nil hne
  rw [List.append_assoc, encodeAll_cons] at heq
  have hu := hus u List.mem_cons_self
  have hstream : stream ≠ [] := by
    rw [heq]
    simp [u.encode_ne_nil]
  obtain ⟨ms, hms⟩ := exists_results_messages hfs
  -- the call that skips `u` waits with the rest of the stream in its buffer
  have hwait : encodeAll us ++ rest ∈ waits readMsg (fs.length + 1) ⟨stream, []⟩ := by
    rw [heq, (hms 1 _ []).2]
    simp only [waits, calls, List.flatMap_cons]
    refine List.mem_append_left _ ?_
    rw [readMsg, receive_nil (parseMessage_skipped hu _)]
    split <;> simp
  refine hprompt [stream] ⟨by simpa using hstream, by simp⟩ _ _ (mem_waits_first hwait) ?_
  refine ⟨us, rest, fun f hf => ?_, rfl, hrest⟩
  exact (Frame.isSkipped_iff.1 (hus f (List.mem_cons_of_mem _ hf))).1

/-- A length that is rejected is not reached behind two skipped frames, if all of it arrives at
once. -/
theorem not_chunkIndependent {stream rest : Bytes} {fs us : List Frame}
    (hfs : ∀ f ∈ fs, f.isMessage = true) (hus : ∀ f ∈ us, f.isSkipped = true) (hlen : 2 ≤ us.length)
    (heq : stream = encodeAll fs ++ encodeAll us ++ rest) (hrest : badHeader rest = true) :
    ¬ ChunkIndependent readMsg stream := by
  intro hind
  obtain ⟨u, us, rfl⟩ := List.exists_cons_of_length_pos (by omega : 0 < us.length)
  have hpos : 0 < us.length := by
    simp only [List.length_cons] at hlen
    omega
  obtain ⟨g, us, rfl⟩ := List.exists_cons_of_length_pos hpos
  have hu := hus u (by simp)
  have hg := hus g (by simp)
  obtain ⟨ms, hms⟩ := exists_results_messages hfs
  obtain ⟨e, he⟩ := parseMessage_rejected hrest
  have he' := he []
  rw [List.append_nil] at he'
  have hstream : stream = encodeAll fs ++ (u.encode ++ (g.encode ++ (encodeAll us ++ rest))) := by
    rw [heq, List.append_assoc, encodeAll_cons, encodeAll_cons]
  have hwhole : Splits [stream] stream := by
    refine ⟨?_, by simp⟩
    simp [hstream, u.encode_ne_nil]
  have hseparate : Splits ((encodeAll fs ++ u.encode) :: ((g :: us).map Frame.encode ++ [rest]))
      stream := by
    refine ⟨fun chunk hchunk => ?_, ?_⟩
    · have hrest : rest ≠ [] := by
        rintro rfl
        cases hrest
      simp only [List.mem_cons, List.mem_append, List.mem_map, List.not_mem_nil, or_false] at hchunk
      rcases hchunk with rfl | ⟨f, -, rfl⟩ | rfl
      · simp [u.encode_ne_nil]
      · exact f.encode_ne_nil
      · exact hrest
    · simp [hstream, encodeAll, List.flatMap_def]
  have hboth := hind _ _ hwhole hseparate (fs.length + 1)
  rw [results_first, results_first, hstream, (hms 1 _ []).1, (hms 1 _ _).1,
    List.append_cancel_left_eq] at hboth
  -- at once: end of stream after `u`, and `g` is the last that is parsed
  have hlast : (readMsg ⟨u.encode ++ (g.encode ++ (encodeAll us ++ rest)), []⟩).result =
      .error .connectionClosed := by
    rw [readMsg, receive_nil (parseMessage_skipped hu _), parseMessage_skipped hg]
  have hlast' : (readMsg ⟨u.encode, (g :: us).map Frame.encode ++ [rest]⟩).result =
      .error (.protocol e) :=
    receive_separate hu (fun f hf => hus f (List.mem_cons_of_mem _ hf)) he'
  rw [results_succ_error 0 hlast, results_succ_error 0 hlast'] at hboth
  cases hboth

/-- **Chunking.**  The chunks make no difference to what repeated calls return, and no call waits
for the socket with a message in its buffer, exactly for the streams with nothing behind frames with
unknown tags. -/
theorem chunking_iff (stream : Bytes) :
    (∀ recv ∈ [readMsg, WireConn.recvMsg], ChunkIndependent recv stream ∧ Prompt recv stream) ↔
      NothingBehindUnknown stream := by
  have hboth : (∀ recv ∈ [readMsg, WireConn.recvMsg], ChunkIndependent recv stream ∧
      Prompt recv stream) ↔ ChunkIndependent readMsg stream ∧ Prompt readMsg stream :=
    ⟨fun h => h readMsg (by simp), fun h recv hrecv => by
      simp only [List.mem_cons, List.not_mem_nil, or_false] at hrecv
      rcases hrecv with rfl | rfl <;> exact h⟩
  rw [hboth]
  constructor
  · rintro ⟨hind, hprompt⟩ fs us rest hfs hus hne heq
    refine ⟨?_, fun hlen => ?_⟩
    · by_contra hrest
      exact not_prompt hfs hus hne heq (by simpa using hrest) hprompt
    · by_contra hrest
      exact not_chunkIndependent hfs hus hlen heq (by simpa using hrest) hind
  · intro h
    refine ⟨fun chunks chunks' hsplit hsplit' n => ?_, fun chunks hsplit n => ?_⟩
    · rw [results_of_splits h hsplit, results_of_splits h hsplit']
    · exact waits_prompt (s := ⟨[], chunks⟩) (hsplit.bytes.symm ▸ h)

/-- Two messages of a kind that the parser does not know, and `ReadyForQuery`. -/
def negotiation : List Frame :=
  [⟨byte 'v', 8, [0, 3, 0, 0]⟩, ⟨byte 'v', 8, [0, 3, 0, 2]⟩, ⟨byte 'Z', 5, [byte 'I']⟩]

/-- `ReadyForQuery` is lost if it comes with the two, and waits for the end of the stream if it
comes with one of them. -/
theorem negotiation_chunks :
    ¬ ∀ recv ∈ [readMsg, WireConn.recvMsg],
      ChunkIndependent recv (encodeAll negotiation) ∧ Prompt recv (encodeAll negotiation) := by
  intro h
  have hind := (h readMsg (by simp)).1 [encodeAll negotiation] (negotiation.map Frame.encode)
    ⟨by decide, by decide⟩ ⟨by decide, by decide⟩ 1
  revert hind
  decide

end Resolute
