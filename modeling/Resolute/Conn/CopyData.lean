import Resolute.Codec.Decimal
import Resolute.Conn.Copy
import Resolute.Rust.Radix
import Resolute.Wire.Frontend
import Resolute.Wire.Torn

/-!
# The data of a COPY

`copy_in`, `copy_in_stream` and `copy_out`, down to the bytes on the socket and with a server that
reads them by the frontend grammar.  The data goes to the server in pieces, of a fixed size or as a
reader hands them out, and comes back in the pieces that the server likes; other messages may stand
between the messages of its answer, a dump may break off with an error behind some of its pieces,
and the answer arrives in any chunks.

A `CopyServer` has a table, in any representation, and the network in front of it.  It is given the
data as it is (`copyIn_loads`), and what it has dumped is returned as it is (`copyOut_dumps`);
`copy_faithful` has all three calls.
-/

namespace Resolute.Conn.Copy

open Rust (fromStrRadix)

/-! ### The calls -/

/-- `parse_copy_count`. -/
def parseCopyCount (tag : String) : ℕ :=
  let digits := if "COPY ".toList.isPrefixOf tag.toList then some (tag.toList.drop 5) else none
  (digits.bind (fromStrRadix (2 ^ 64) 10)).getD 0

section Calls

-- `submit` : write a request and await its response.
variable {σ : Type} (submit : Bytes → ResponseCollector → σ → Outcome × σ)

/-- What `copy_in` makes of the response. -/
def copyCount : Outcome → Except PgWireError ℕ
  | .ok (.rows _ _ commandTag) => .ok (parseCopyCount commandTag)
  | .ok .done => .ok 0
  | .error e => .error e

/-- `copy_in`. -/
def copyIn (copySql : String) (data : Bytes) (s : σ) : Except PgWireError ℕ × σ :=
  let buf := encodeMessage (.query (asBytes copySql)) []
  let buf := (data.toChunks chunkSize).foldl (fun buf chunk => encodeMessage (.copyData chunk) buf)
    buf
  let buf := encodeMessage .copyDone buf
  let (resp, s) := submit buf .copyIn s
  (copyCount resp, s)

/-- What the calls of `reader.read(&mut chunk)` return, none more than the length of `chunk`;
nothing more comes after the last of them. -/
structure Reader where
  reads : List (Except PgWireError Bytes)
  fits : ∀ n ∈ reads, ∀ bs, n = .ok bs → bs.length ≤ chunkSize

/-- The loop of `copy_in_stream`, which ends with an error or with a read of length `0`. -/
def encodeReads : List (Except PgWireError Bytes) → Bytes → Except PgWireError Bytes
  | [], buf | .ok [] :: _, buf => .ok buf
  | .ok chunk :: reads, buf => encodeReads reads (encodeMessage (.copyData chunk) buf)
  | .error e :: _, _ => .error e

/-- `copy_in_stream`. -/
def copyInStream (copySql : String) (reader : Reader) (s : σ) : Except PgWireError ℕ × σ :=
  let buf := encodeMessage (.query (asBytes copySql)) []
  match encodeReads reader.reads buf with
  | .error e => (.error e, s)
  | .ok buf =>
    let buf := encodeMessage .copyDone buf
    let (resp, s) := submit buf .copyIn s
    (copyCount resp, s)

/-- `copy_out`. -/
def copyOut (copySql : String) (s : σ) : Except PgWireError Bytes × σ :=
  let buf := encodeMessage (.query (asBytes copySql)) []
  let (resp, s) := submit buf .copyOut s
  (match resp with
    | .ok (.rows _ rows _) => .ok (rows.flatMap fun row => (row.iter.filterMap id).flatten)
    | .ok .done => .ok []
    | .error e => .error e, s)

end Calls

/-! ### The server -/

/-- The message may come at any time. -/
def isAsync : BackendMsg → Bool
  | .noticeResponse _ | .notificationResponse _ _ _ | .parameterStatus _ _ => true
  | _ => false

/-- The data in the longest `CopyData` that the client takes; `read_msg` refuses messages above
`MAX_MESSAGE_SIZE`. -/
def maxPiece : ℕ := maxMessageSize - 4

/-- A server with a table of type `σ`, and the network in front of it. -/
structure CopyServer (σ : Type) where
  /-- The status in `ReadyForQuery`. -/
  status : UInt8
  /-- The formats of a copy and of its columns. -/
  format : UInt8
  columnFormats : List Int16
  /-- The server asks for the data before it finds an error. -/
  begins : (sql : Bytes) → σ → Bool
  /-- `COPY … FROM STDIN` : the number of rows, or an error. -/
  load : (sql data : Bytes) → σ → Except PgError ℕ × σ
  /-- `COPY … TO STDOUT` : the data, in pieces, or an error. -/
  dump : (sql : Bytes) → σ → Except PgError (List Bytes)
  /-- What the server has sent of the data when it finds the error, if the copy has begun. -/
  dumped : (sql : Bytes) → σ → Option (List Bytes)
  /-- The number of rows that are copied to the client. -/
  rows : (sql : Bytes) → σ → ℕ
  /-- The messages of an answer with others between them. -/
  weave : List BackendMsg → List BackendMsg
  /-- The chunks in which the answer arrives. -/
  chunks : Bytes → List Bytes
  columns_fit : columnFormats.length ≤ 32767
  load_ok : ∀ {sql data s n}, (load sql data s).1 = .ok n → n < 2 ^ 64
  load_error : ∀ {sql data s e}, (load sql data s).1 = .error e →
    (BackendMsg.errorResponse e).WellFormed
  dump_ok : ∀ {sql s pieces}, dump sql s = .ok pieces → ∀ piece ∈ pieces, piece.length ≤ maxPiece
  dump_error : ∀ {sql s e}, dump sql s = .error e → (BackendMsg.errorResponse e).WellFormed
  dumped_fits : ∀ {sql s}, ∀ pieces ∈ dumped sql s, ∀ piece ∈ pieces, piece.length ≤ maxPiece
  rows_lt : ∀ sql s, rows sql s < 2 ^ 64
  weave_filter : ∀ ms, (weave ms).filter (fun m => !isAsync m) = ms.filter (fun m => !isAsync m)
  weave_wellFormed : ∀ ms, (∀ m ∈ ms, m.WellFormed) → ∀ m ∈ weave ms, m.WellFormed
  splits : ∀ bs, Splits (chunks bs) bs

/-- The data of a copy: the `CopyData` messages up to a `CopyDone` that ends the request. -/
def copied : List FrontendMsg → Option Bytes
  | .copyData data :: ms => (copied ms).map (data ++ ·)
  | [.copyDone] => some []
  | _ => none

namespace CopyServer

variable {σ : Type} (S : CopyServer σ)

/-- The answer to `COPY … FROM STDIN`. -/
def loadAnswer (begins : Bool) (result : Except PgError ℕ) : List BackendMsg :=
  (match result with
    | .ok n => [.copyInResponse S.format S.columnFormats, .commandComplete s!"COPY {n}"]
    | .error e => (if begins then [.copyInResponse S.format S.columnFormats] else []) ++
        [.errorResponse e]) ++ [.readyForQuery S.status]

/-- The answer to `COPY … TO STDOUT`; an error may come at any point of the data. -/
def dumpAnswer (dumped : Option (List Bytes)) (rows : ℕ) (result : Except PgError (List Bytes)) :
    List BackendMsg :=
  (match result with
    | .ok pieces => .copyOutResponse S.format S.columnFormats :: pieces.map .copyData ++
        [.copyDone, .commandComplete s!"COPY {rows}"]
    | .error e => (match dumped with
      | some pieces => .copyOutResponse S.format S.columnFormats :: pieces.map .copyData
      | none => []) ++ [.errorResponse e]) ++ [.readyForQuery S.status]

/-- What the server does with the messages of a request; it closes the connection on anything but a
copy. -/
def serve (s : σ) : List FrontendMsg → List BackendMsg × σ
  | [.query sql] => (S.dumpAnswer (S.dumped sql s) (S.rows sql s) (S.dump sql s), s)
  | .query sql :: ms =>
    match copied ms with
    | some data => (S.loadAnswer (S.begins sql s) (S.load sql data s).1, (S.load sql data s).2)
    | none => ([], s)
  | _ => ([], s)

/-- A request and its response, both as bytes. -/
def submit (request : Bytes) (collector : ResponseCollector) (s : σ) : Outcome × σ :=
  match Grammar.readMessages (fun _ => .response) request.length 0 request with
  | none => (.error .connectionClosed, s)
  | some ms =>
    let (answer, s) := S.serve s ms
    let stream := BackendMsg.encodeAll (S.weave answer)
    (((Collect.init collector).collect ⟨[], S.chunks stream⟩).1, s)

end CopyServer

/-! ### Requests -/

theorem foldl_copyData (chunks : List Bytes) (buf : Bytes) :
    chunks.foldl (fun buf chunk => encodeMessage (.copyData chunk) buf) buf =
      encodeMessages (chunks.map .copyData) buf := by
  rw [encodeMessages, List.foldl_map]

/-- The bytes of a copy are those of its messages. -/
theorem copyIn_messages (copySql : String) (chunks : List Bytes) :
    encodeMessage .copyDone (encodeMessages (chunks.map .copyData)
      (encodeMessage (.query (asBytes copySql)) [])) =
      encodeMessages (copyInMessages copySql chunks) [] := by
  simp [copyInMessages, encodeMessages]

/-- The pieces that a reader hands out before its end. -/
def Reader.pieces (reader : Reader) : Except PgWireError (List Bytes) := go reader.reads
where
  go : List (Except PgWireError Bytes) → Except PgWireError (List Bytes)
    | [] | .ok [] :: _ => .ok []
    | .ok chunk :: reads => (go reads).map (chunk :: ·)
    | .error e :: _ => .error e

theorem encodeReads_eq (reads : List (Except PgWireError Bytes)) (buf : Bytes) :
    encodeReads reads buf =
      (Reader.pieces.go reads).map fun pieces => encodeMessages (pieces.map .copyData) buf := by
  induction reads generalizing buf with
  | nil => rfl
  | cons read reads ih =>
    rcases read with e | (_ | ⟨b, chunk⟩)
    · rfl
    · rfl
    · rw [encodeReads, Reader.pieces.go, ih] <;> first | exact List.cons_ne_nil _ _ | skip
      cases Reader.pieces.go reads <;> rfl

theorem length_le_of_go {reads : List (Except PgWireError Bytes)}
    (h : ∀ n ∈ reads, ∀ bs, n = .ok bs → bs.length ≤ chunkSize) {pieces : List Bytes}
    (hp : Reader.pieces.go reads = .ok pieces) : ∀ piece ∈ pieces, piece.length ≤ chunkSize := by
  induction reads generalizing pieces with
  | nil => cases hp; simp
  | cons read reads ih =>
    rcases read with e | (_ | ⟨b, chunk⟩)
    · cases hp
    · cases hp; simp
    · rw [Reader.pieces.go] at hp <;> first | exact List.cons_ne_nil _ _ | skip
      rcases hgo : Reader.pieces.go reads with e | rest <;> rw [hgo] at hp <;> cases hp
      intro piece hpiece
      rcases List.mem_cons.1 hpiece with rfl | hpiece
      · exact h _ List.mem_cons_self _ rfl
      · exact ih (fun n hn => h n (List.mem_cons_of_mem _ hn)) hgo piece hpiece

/-! ### Chunks of a list -/

section Chunks

variable {α : Type}

theorem flatten_toChunks_go (n : ℕ) (xs : List α) (acc₁ : Array α) (acc₂ : Array (List α)) :
    (List.toChunks.go n xs acc₁ acc₂).flatten = acc₂.toList.flatten ++ (acc₁.toList ++ xs) := by
  induction xs generalizing acc₁ acc₂ with
  | nil => simp [List.toChunks.go]
  | cons x xs ih =>
    rw [List.toChunks.go]
    split_ifs <;> simp [ih]

/-- The chunks are the list. -/
theorem flatten_toChunks (n : ℕ) (xs : List α) : (xs.toChunks n).flatten = xs := by
  rcases xs with _ | ⟨x, xs⟩
  · rw [List.toChunks]; rfl
  · rcases n with _ | n
    · simp [List.toChunks]
    · rw [List.toChunks, flatten_toChunks_go]
      · rfl
      · simp

theorem length_le_of_mem_go {n : ℕ} (hn : 0 < n) {xs : List α} {acc₁ : Array α}
    {acc₂ : Array (List α)} (h₁ : acc₁.size ≤ n) (h₂ : ∀ l ∈ acc₂.toList, l.length ≤ n) :
    ∀ l ∈ List.toChunks.go n xs acc₁ acc₂, l.length ≤ n := by
  induction xs generalizing acc₁ acc₂ with
  | nil =>
    intro l hl
    simp only [List.toChunks.go, Array.toList_push, List.mem_append, List.mem_singleton] at hl
    rcases hl with hl | rfl
    · exact h₂ l hl
    · exact h₁
  | cons x xs ih =>
    rw [List.toChunks.go]
    split_ifs with hsize
    · refine ih (by simp; omega) ?_
      intro l hl
      simp only [Array.toList_push, List.mem_append, List.mem_singleton] at hl
      rcases hl with hl | rfl
      · exact h₂ l hl
      · exact h₁
    · refine ih ?_ h₂
      have : acc₁.size ≠ n := by simpa using hsize
      rw [Array.size_push]
      omega

theorem length_le_of_mem_toChunks {n : ℕ} (hn : 0 < n) {xs : List α} :
    ∀ l ∈ xs.toChunks n, l.length ≤ n := by
  rcases xs with _ | ⟨x, xs⟩
  · simp [List.toChunks]
  · rcases n with _ | n
    · cases hn
    · rw [List.toChunks]
      · exact length_le_of_mem_go hn (by simp) (by simp)
      · simp

end Chunks

/-! ### What the server reads -/

theorem readMessages_request {msgs : List FrontendMsg} (h : ∀ msg ∈ msgs, msg.WellFormed)
    (hp : ∀ msg ∈ msgs, msg.phase? = none) :
    Grammar.readMessages (fun _ => .response) (encodeMessages msgs []).length 0
      (encodeMessages msgs []) = some msgs := by
  rw [encodeMessages_eq, List.nil_append]
  refine Grammar.readMessages_frames h ?_
    (length_le_flatMap (fun msg => List.cons_ne_nil _ _) msgs)
  intro j msg p hj hphase
  rw [hp msg (List.mem_of_getElem? hj)] at hphase
  cases hphase

/-- The text of a statement that the format can hold. -/
structure SqlFits (copySql : String) : Prop where
  no_nul : 0 ∉ asBytes copySql
  size : (asBytes copySql).length + 5 < 2 ^ 31

theorem SqlFits.wellFormed {copySql : String} (h : SqlFits copySql) :
    (FrontendMsg.query (asBytes copySql)).WellFormed := by
  refine ⟨by simpa [FrontendMsg.names] using h.no_nul, by simp [FrontendMsg.counts], ?_,
    fun _ h => by cases h⟩
  have := h.size
  simp only [FrontendMsg.body, List.length_append, List.length_singleton]
  omega

theorem wellFormed_copyInMessages {copySql : String} (h : SqlFits copySql) {chunks : List Bytes}
    (hc : ∀ chunk ∈ chunks, chunk.length ≤ chunkSize) :
    ∀ msg ∈ copyInMessages copySql chunks, msg.WellFormed ∧ msg.phase? = none := by
  intro msg hmsg
  simp only [copyInMessages, List.mem_append, List.mem_singleton, List.mem_map] at hmsg
  rcases hmsg with (rfl | ⟨chunk, hchunk, rfl⟩) | rfl
  · exact ⟨h.wellFormed, rfl⟩
  · refine ⟨⟨by simp [FrontendMsg.names], by simp [FrontendMsg.counts], ?_,
      fun _ h => by cases h⟩, rfl⟩
    have := hc chunk hchunk
    simp only [FrontendMsg.body, chunkSize] at this ⊢
    omega
  · exact ⟨⟨by simp [FrontendMsg.names], by simp [FrontendMsg.counts], by decide,
      fun _ h => by cases h⟩, rfl⟩

theorem copied_copyData (chunks : List Bytes) :
    copied (chunks.map .copyData ++ [.copyDone]) = some chunks.flatten := by
  induction chunks with
  | nil => rfl
  | cons chunk chunks ih => rw [List.map_cons, List.cons_append, copied, ih]; rfl

/-! ### What the client reads -/

/-- The collector of a copy, or what it becomes after an error. -/
def collectsCopy : Collect → Bool
  | .copyIn _ | .copyOut _ _ | .drainErr _ => true
  | _ => false

/-- A message that may come at any time changes nothing. -/
theorem feedMsg_async {c : Collect} (hc : collectsCopy c = true) {m : BackendMsg}
    (hm : isAsync m = true) : c.feedMsg m = .more [] c := by
  cases c <;> cases hc <;> cases m <;> first | rfl | cases hm

theorem collectsCopy_of_more {c c' : Collect} (hc : collectsCopy c = true) {m : BackendMsg}
    {es : List Emit} (h : c.feedMsg m = .more es c') : collectsCopy c' = true := by
  cases c <;> cases hc <;> cases m <;> cases h <;> rfl

theorem run_filter {c : Collect} (hc : collectsCopy c = true) (ms : List BackendMsg) :
    (c.run (ms.map .ok)).map Prod.fst =
      (c.run ((ms.filter fun m => !isAsync m).map .ok)).map Prod.fst := by
  induction ms generalizing c with
  | nil => rfl
  | cons m ms ih =>
    cases hm : isAsync m with
    | true =>
      rw [List.map_cons, Collect.run, Collect.feed, feedMsg_async hc hm,
        List.filter_cons_of_neg (by simp [hm])]
      exact ih hc
    | false =>
      rw [List.filter_cons_of_pos (by simp [hm]), List.map_cons, List.map_cons, Collect.run,
        Collect.run, Collect.feed]
      rcases hfeed : c.feedMsg m with ⟨es, c'⟩ | ⟨es, res⟩
      · exact ih (collectsCopy_of_more hc hfeed)
      · rfl

/-- The message is not a row. -/
def noRow (m : BackendMsg) : Prop := ∀ row, m ≠ .dataRow row

theorem eq_of_same {ms ms' : List BackendMsg} (h : List.Forall₂ BackendMsg.Same ms ms')
    (hrow : ∀ m ∈ ms, noRow m) : ms' = ms := by
  induction h with
  | nil => rfl
  | @cons m m' ms ms' hsame _ ih =>
    have hm := hrow m List.mem_cons_self
    rw [ih fun m hm => hrow m (List.mem_cons_of_mem _ hm)]
    cases m with
    | dataRow row => exact absurd rfl (hm row)
    | _ =>
      cases m' <;> cases hsame
      rfl

namespace CopyServer

variable {σ : Type} {S : CopyServer σ}

theorem noRow_weave {ms : List BackendMsg} (h : ∀ m ∈ ms, noRow m) : ∀ m ∈ S.weave ms, noRow m := by
  rintro m hm row rfl
  have hmem : BackendMsg.dataRow row ∈ (S.weave ms).filter fun m => !isAsync m :=
    List.mem_filter.2 ⟨hm, rfl⟩
  rw [S.weave_filter] at hmem
  exact h _ (List.mem_filter.1 hmem).1 row rfl

/-- A request that the server reads, and the response to it. -/
theorem submit_eq {request : Bytes} {collector : ResponseCollector} {s s' : σ}
    {ms : List FrontendMsg} {answer : List BackendMsg} {res : Outcome} {rest : List ReadResult}
    (hread : Grammar.readMessages (fun _ => .response) request.length 0 request = some ms)
    (hserve : S.serve s ms = (answer, s')) (hwf : ∀ m ∈ answer, m.WellFormed)
    (hrow : ∀ m ∈ answer, noRow m) (hasync : ∀ m ∈ answer, isAsync m = false)
    (hc : collectsCopy (Collect.init collector) = true)
    (hrun : (Collect.init collector).run (answer.map .ok) = some (res, rest)) :
    S.submit request collector s = (res, s') := by
  obtain ⟨ms', hsame, hcollect⟩ := collect_encodeAll (S.weave_wellFormed answer hwf)
  rw [eq_of_same hsame (noRow_weave hrow)] at hcollect
  have hfilter := run_filter hc (S.weave answer)
  rw [S.weave_filter, List.filter_eq_self.2 (by simpa using hasync), hrun] at hfilter
  obtain ⟨⟨res', rest'⟩, hwoven, rfl⟩ := Option.map_eq_some_iff.1 hfilter
  rw [submit, hread]
  simp only [hserve]
  rw [hcollect (S.splits _).bytes hwoven]

end CopyServer

/-! ### The tag of a copy -/

theorem copyTag_eq (n : ℕ) :
    s!"COPY {n}" = String.ofList ("COPY ".toList ++ Nat.toDigits 10 n) := by
  rw [← String.toList_inj]
  simp only [String.toList_append, Nat.toString_eq_ofList_toDigits, String.toList_ofList]
  rfl

theorem parseCopyCount_tag {n : ℕ} (h : n < 2 ^ 64) : parseCopyCount s!"COPY {n}" = n := by
  have hprefix : ("COPY ".toList.isPrefixOf ("COPY ".toList ++ Nat.toDigits 10 n)) = true := rfl
  have hdrop : ("COPY ".toList ++ Nat.toDigits 10 n).drop 5 = Nat.toDigits 10 n := rfl
  rw [copyTag_eq, parseCopyCount]
  simp only [String.toList_ofList]
  rw [if_pos hprefix, hdrop, Option.bind_some, Rust.fromStrRadix_toDigits h, Option.getD_some]

theorem asBytes_copyTag {n : ℕ} (h : n < 2 ^ 64) :
    0 ∉ asBytes s!"COPY {n}" ∧ (asBytes s!"COPY {n}").length ≤ 25 := by
  have hlen : (Nat.toDigits 10 n).length ≤ 20 :=
    (Nat.length_toDigits_le_iff (by decide) (by decide)).2 (Nat.lt_of_lt_of_le h (by norm_num))
  have hall : ∀ c ∈ "COPY ".toList ++ Nat.toDigits 10 n, 32 ≤ c.toNat ∧ c.toNat < 128 := by
    intro c hc
    rcases List.mem_append.1 hc with hc | hc
    · have hword : ['C', 'O', 'P', 'Y', ' '].all fun c => 32 ≤ c.toNat && c.toNat < 128 := by decide
      simpa using List.all_eq_true.1 hword c hc
    · have := PgNumeric.isDigit_iff.1 (Nat.isDigit_of_mem_toDigits (by decide) (by decide) hc)
      omega
  rw [copyTag_eq, PgNumeric.asBytes_ofList fun c hc => (hall c hc).2]
  constructor
  · intro h0
    obtain ⟨c, hc, hbyte⟩ := List.mem_map.1 h0
    have hc := hall c hc
    have := PgNumeric.byte_toNat hc.2
    rw [hbyte] at this
    have : (0 : UInt8).toNat = 0 := rfl
    omega
  · rw [List.length_map, List.length_append]
    have : "COPY ".toList.length = 5 := rfl
    omega

/-! ### The answers -/

namespace CopyServer

variable {σ : Type} {S : CopyServer σ}

/-- A message that is no authentication request. -/
theorem wellFormed_of_tag {m : BackendMsg} (htag : m.tag ≠ 'R')
    (hs : ∀ s ∈ m.strings, 0 ∉ asBytes s) (hcount : m.count ≤ 32767)
    (hsize : m.encodeBody.length + 4 ≤ maxMessageSize) : m.WellFormed :=
  ⟨hs, (fun _ h => absurd (h ▸ rfl) htag), hcount, hsize⟩

theorem wellFormed_ready (status : UInt8) : (BackendMsg.readyForQuery status).WellFormed :=
  wellFormed_of_tag (by simp [BackendMsg.tag]) (by simp [BackendMsg.strings])
    (by simp [BackendMsg.count]) (by simp [BackendMsg.encodeBody, maxMessageSize])

theorem wellFormed_copyDone : BackendMsg.copyDone.WellFormed :=
  wellFormed_of_tag (by decide) (by decide) (by decide) (by decide)

theorem wellFormed_tag {tag : String} (h : 0 ∉ asBytes tag) (hlen : (asBytes tag).length ≤ 25) :
    (BackendMsg.commandComplete tag).WellFormed := by
  refine wellFormed_of_tag (by simp [BackendMsg.tag]) (by simpa [BackendMsg.strings] using h)
    (by simp [BackendMsg.count]) ?_
  simp only [BackendMsg.encodeBody, cString, List.length_append, List.length_singleton,
    maxMessageSize]
  omega

/-- The formats of a copy in either direction. -/
theorem wellFormed_formats :
    (BackendMsg.copyInResponse S.format S.columnFormats).WellFormed ∧
      (BackendMsg.copyOutResponse S.format S.columnFormats).WellFormed := by
  have hlen : (S.columnFormats.flatMap i16Bytes).length = S.columnFormats.length * 2 :=
    length_flatMap_of_length length_i16Bytes _
  have hcols := S.columns_fit
  constructor <;> refine wellFormed_of_tag (by simp [BackendMsg.tag])
    (by simp [BackendMsg.strings]) hcols ?_ <;>
    simp only [BackendMsg.encodeBody, maxMessageSize, List.length_cons, List.length_append, hlen,
      length_countBytes] <;> omega

theorem wellFormed_piece {piece : Bytes} (h : piece.length ≤ maxPiece) :
    (BackendMsg.copyData piece).WellFormed := by
  refine wellFormed_of_tag (by simp [BackendMsg.tag]) (by simp [BackendMsg.strings])
    (by simp [BackendMsg.count]) ?_
  simp only [BackendMsg.encodeBody, maxPiece, maxMessageSize] at h ⊢
  omega

theorem wellFormed_loadAnswer {sql data : Bytes} {s : σ} (begins : Bool) :
    ∀ m ∈ S.loadAnswer begins (S.load sql data s).1, m.WellFormed := by
  intro m hm
  rcases hload : (S.load sql data s).1 with e | n <;> rw [hload, loadAnswer] at hm
  · simp only [List.mem_append, List.mem_singleton] at hm
    rcases hm with (hm | rfl) | rfl
    · split_ifs at hm
      · obtain rfl := List.mem_singleton.1 hm
        exact wellFormed_formats.1
      · cases hm
    · exact S.load_error hload
    · exact wellFormed_ready _
  · simp only [List.mem_append, List.mem_cons, List.not_mem_nil, or_false] at hm
    obtain ⟨h0, hlen⟩ := asBytes_copyTag (S.load_ok hload)
    rcases hm with (rfl | rfl) | rfl
    · exact wellFormed_formats.1
    · exact wellFormed_tag h0 hlen
    · exact wellFormed_ready _

/-- The part of a dump that the client takes. -/
theorem wellFormed_pieces {pieces : List Bytes} (h : ∀ piece ∈ pieces, piece.length ≤ maxPiece) :
    ∀ m ∈ BackendMsg.copyOutResponse S.format S.columnFormats :: pieces.map .copyData,
      m.WellFormed := by
  refine List.forall_mem_cons.2 ⟨wellFormed_formats.2, fun m hm => ?_⟩
  obtain ⟨piece, hpiece, rfl⟩ := List.mem_map.1 hm
  exact wellFormed_piece (h piece hpiece)

theorem wellFormed_dumpAnswer {sql : Bytes} {s : σ} :
    ∀ m ∈ S.dumpAnswer (S.dumped sql s) (S.rows sql s) (S.dump sql s), m.WellFormed := by
  intro m hm
  cases hdump : S.dump sql s with
  | error e =>
    cases hdumped : S.dumped sql s with
    | none =>
      simp only [hdump, hdumped, dumpAnswer, List.nil_append, List.mem_append,
        List.mem_singleton] at hm
      rcases hm with rfl | rfl
      · exact S.dump_error hdump
      · exact wellFormed_ready _
    | some pieces =>
      simp only [hdump, hdumped, dumpAnswer, List.mem_append, List.mem_singleton] at hm
      rcases hm with (hm | rfl) | rfl
      · exact wellFormed_pieces (S.dumped_fits pieces hdumped) m hm
      · exact S.dump_error hdump
      · exact wellFormed_ready _
  | ok pieces =>
    obtain ⟨h0, hlen⟩ := asBytes_copyTag (S.rows_lt sql s)
    simp only [hdump, dumpAnswer, List.mem_append, List.mem_singleton] at hm
    rcases hm with (hm | hm) | rfl
    · exact wellFormed_pieces (S.dump_ok hdump) m hm
    · rcases List.mem_cons.1 hm with rfl | hm
      · exact wellFormed_copyDone
      · rw [List.mem_singleton.1 hm]
        exact wellFormed_tag h0 hlen
    · exact wellFormed_ready _

/-- The answers hold no rows, and nothing that may come at any time. -/
theorem kinds_loadAnswer (begins : Bool) (result : Except PgError ℕ) :
    ∀ m ∈ S.loadAnswer begins result, noRow m ∧ isAsync m = false := by
  cases result <;> cases begins <;> simp [loadAnswer, noRow, isAsync]

theorem kinds_dumpAnswer (dumped : Option (List Bytes)) (rows : ℕ)
    (result : Except PgError (List Bytes)) :
    ∀ m ∈ S.dumpAnswer dumped rows result, noRow m ∧ isAsync m = false := by
  have hpieces : ∀ pieces : List Bytes, ∀ m ∈ BackendMsg.copyOutResponse S.format S.columnFormats ::
      pieces.map .copyData, noRow m ∧ isAsync m = false := fun pieces m hm => by
    rcases List.mem_cons.1 hm with rfl | hm
    · simp [noRow, isAsync]
    · obtain ⟨piece, -, rfl⟩ := List.mem_map.1 hm
      simp [noRow, isAsync]
  intro m hm
  cases result with
  | error e =>
    cases dumped with
    | none =>
      revert m
      simp [dumpAnswer, noRow, isAsync]
    | some pieces =>
      simp only [dumpAnswer, List.mem_append, List.mem_singleton] at hm
      rcases hm with (hm | rfl) | rfl
      · exact hpieces pieces m hm
      all_goals simp [noRow, isAsync]
  | ok pieces =>
    simp only [dumpAnswer, List.mem_append, List.mem_cons, List.not_mem_nil, or_false] at hm
    rcases hm with (hm | rfl | rfl) | rfl
    · exact hpieces pieces m (List.mem_cons.2 hm)
    all_goals simp [noRow, isAsync]

theorem run_loadAnswer (begins : Bool) (result : Except PgError ℕ) :
    (Collect.init .copyIn).run ((S.loadAnswer begins result).map .ok) = some (match result with
      | .ok n => .ok (.rows [] [] s!"COPY {n}")
      | .error e => .error (.pg e), []) := by
  cases result <;> cases begins <;> rfl

theorem run_pieces (chunks : List RawRow) (pieces : List Bytes) (tag : String)
    (rest : List ReadResult) :
    (Collect.copyOut chunks tag).run (pieces.map (fun piece => .ok (.copyData piece)) ++ rest) =
      (Collect.copyOut (chunks ++ pieces.map RawRow.fromFullBody) tag).run rest := by
  induction pieces generalizing chunks with
  | nil => simp
  | cons piece pieces ih =>
    rw [List.map_cons, List.cons_append, Collect.run, Collect.feed, Collect.feedMsg,
      Collect.collectCopyOut]
    simp only [ih, List.map_cons, List.append_assoc, List.singleton_append]

/-- The copy begins. -/
theorem run_dumped (pieces : List Bytes) (rest : List BackendMsg) :
    (Collect.init .copyOut).run (((.copyOutResponse S.format S.columnFormats ::
        pieces.map .copyData ++ rest : List BackendMsg)).map .ok) =
      (Collect.copyOut (pieces.map RawRow.fromFullBody) "").run (rest.map .ok) := by
  rw [List.cons_append, List.map_cons, List.map_append, List.map_map, Collect.run, Collect.feed]
  exact run_pieces [] pieces "" _

theorem run_dumpAnswer (dumped : Option (List Bytes)) (rows : ℕ)
    (result : Except PgError (List Bytes)) :
    (Collect.init .copyOut).run ((S.dumpAnswer dumped rows result).map .ok) =
      some (match result with
        | .ok pieces => .ok (.rows [] (pieces.map RawRow.fromFullBody) s!"COPY {rows}")
        | .error e => .error (.pg e), []) := by
  cases result with
  | error e =>
    cases dumped with
    | none => rfl
    | some pieces =>
      rw [dumpAnswer, List.append_assoc]
      exact (run_dumped pieces _).trans rfl
  | ok pieces =>
    rw [dumpAnswer, List.append_assoc]
    exact (run_dumped pieces _).trans rfl

end CopyServer

/-! ### Copies -/

section Copies

variable {σ : Type} {S : CopyServer σ}

/-- What a call returns for the server's verdict. -/
def verdict {α : Type} : Except PgError α → Except PgWireError α
  | .ok a => .ok a
  | .error e => .error (.pg e)

/-- A copy in pieces that fit: the server reads all of the data and nothing else. -/
theorem submit_copyIn {copySql : String} (hsql : SqlFits copySql) {pieces : List Bytes}
    (hp : ∀ piece ∈ pieces, piece.length ≤ chunkSize) (s : σ) :
    (copyCount (S.submit (encodeMessages (copyInMessages copySql pieces) []) .copyIn s).1,
        (S.submit (encodeMessages (copyInMessages copySql pieces) []) .copyIn s).2) =
      (verdict (S.load (asBytes copySql) pieces.flatten s).1,
        (S.load (asBytes copySql) pieces.flatten s).2) := by
  have hwf := wellFormed_copyInMessages hsql hp
  have hread := readMessages_request (fun msg h => (hwf msg h).1) fun msg h => (hwf msg h).2
  have hserve : S.serve s (copyInMessages copySql pieces) =
      (S.loadAnswer (S.begins (asBytes copySql) s) (S.load (asBytes copySql) pieces.flatten s).1,
        (S.load (asBytes copySql) pieces.flatten s).2) := by
    have hcopied := copied_copyData pieces
    rw [copyInMessages, List.append_assoc, List.singleton_append, CopyServer.serve, hcopied]
    intro h
    simp at h
  have hkinds := CopyServer.kinds_loadAnswer (S := S) (S.begins (asBytes copySql) s)
    (S.load (asBytes copySql) pieces.flatten s).1
  rw [CopyServer.submit_eq hread hserve (CopyServer.wellFormed_loadAnswer _)
    (fun m hm => (hkinds m hm).1) (fun m hm => (hkinds m hm).2) rfl
    (CopyServer.run_loadAnswer _ _)]
  rcases hload : (S.load (asBytes copySql) pieces.flatten s).1 with e | n
  · rfl
  · simp only [copyCount, parseCopyCount_tag (S.load_ok hload), verdict]

/-- `copy_in` gives the server the data. -/
theorem copyIn_loads {copySql : String} (hsql : SqlFits copySql) (data : Bytes) (s : σ) :
    copyIn S.submit copySql data s =
      (verdict (S.load (asBytes copySql) data s).1, (S.load (asBytes copySql) data s).2) := by
  have hpieces : ∀ piece ∈ data.toChunks chunkSize, piece.length ≤ chunkSize :=
    length_le_of_mem_toChunks (by decide)
  have hsubmit := submit_copyIn (S := S) hsql hpieces s
  rw [flatten_toChunks] at hsubmit
  rw [copyIn]
  simp only [foldl_copyData, copyIn_messages]
  exact hsubmit

/-- `copy_in_stream` gives the server what its reader hands out, and nothing if the reader fails. -/
theorem copyInStream_loads {copySql : String} (hsql : SqlFits copySql) (reader : Reader) (s : σ) :
    copyInStream S.submit copySql reader s = match reader.pieces with
      | .error e => (.error e, s)
      | .ok pieces => (verdict (S.load (asBytes copySql) pieces.flatten s).1,
          (S.load (asBytes copySql) pieces.flatten s).2) := by
  rw [copyInStream]
  simp only [encodeReads_eq, Reader.pieces]
  rcases hgo : Reader.pieces.go reader.reads with e | pieces
  · rfl
  · simp only [Except.map, copyIn_messages]
    exact submit_copyIn hsql (length_le_of_go reader.fits hgo) s

theorem iter_fromFullBody {data : Bytes} (h : data.length ≤ maxPiece) :
    (RawRow.fromFullBody data).iter = [some data] := by
  have hlt : data.length < 2 ^ 31 := Nat.lt_of_le_of_lt h (by decide)
  have hneg : ¬Int32.ofNat data.length < 0 := not_ofNat_lt hlt (Int.natCast_nonneg _)
  have hentries : (RawRow.fromFullBody data).entries = [(0, Int32.ofNat data.length)] := rfl
  rw [RawRow.iter, hentries, List.map_singleton, RawRow.cellOf, if_neg hneg]
  simp [RawRow.fromFullBody, Int32.toNatClampNeg_ofNat_of_lt hlt]

/-- `copy_out` returns what the server has dumped. -/
theorem copyOut_dumps {copySql : String} (hsql : SqlFits copySql) (s : σ) :
    copyOut S.submit copySql s =
      ((verdict (S.dump (asBytes copySql) s)).map List.flatten, s) := by
  have hread : Grammar.readMessages (fun _ => .response)
      (encodeMessage (.query (asBytes copySql)) []).length 0
      (encodeMessage (.query (asBytes copySql)) []) = some [.query (asBytes copySql)] := by
    have hwf : ∀ msg ∈ [FrontendMsg.query (asBytes copySql)], msg.WellFormed := by
      simpa using hsql.wellFormed
    exact readMessages_request hwf (by simp [FrontendMsg.phase?])
  have hserve : S.serve s [.query (asBytes copySql)] =
      (S.dumpAnswer (S.dumped (asBytes copySql) s) (S.rows (asBytes copySql) s)
        (S.dump (asBytes copySql) s), s) := rfl
  have hkinds := CopyServer.kinds_dumpAnswer (S := S) (S.dumped (asBytes copySql) s)
    (S.rows (asBytes copySql) s) (S.dump (asBytes copySql) s)
  rw [copyOut]
  simp only [CopyServer.submit_eq hread hserve CopyServer.wellFormed_dumpAnswer
    (fun m hm => (hkinds m hm).1) (fun m hm => (hkinds m hm).2) rfl 
    (CopyServer.run_dumpAnswer _ _ _)]
  rcases hdump : S.dump (asBytes copySql) s with e | pieces
  · rfl
  · have hall : pieces.flatMap (fun piece =>
        ((RawRow.fromFullBody piece).iter.filterMap id).flatten) = pieces.flatten := by
      rw [← List.flatMap_id]
      exact List.flatMap_congr fun piece hpiece => by
        simp [iter_fromFullBody (S.dump_ok hdump piece hpiece)]
    simp only [verdict, Except.map, List.flatMap_map, hall]

/-- **Copies are faithful.**  The server is given exactly the data, whether it is sent at once or
comes from a reader in any pieces; a reader that fails sends nothing; what the server dumps, in any
pieces, is returned; and the server's errors are. -/
theorem copy_faithful {copySql : String} (hsql : SqlFits copySql) :
    (∀ data s, copyIn S.submit copySql data s =
      (verdict (S.load (asBytes copySql) data s).1, (S.load (asBytes copySql) data s).2)) ∧
    (∀ reader s, copyInStream S.submit copySql reader s = match reader.pieces with
      | .error e => (.error e, s)
      | .ok pieces => copyIn S.submit copySql pieces.flatten s) ∧
    ∀ s, copyOut S.submit copySql s =
      ((verdict (S.dump (asBytes copySql) s)).map List.flatten, s) := by
  refine ⟨copyIn_loads hsql, ?_, copyOut_dumps hsql⟩
  intro reader s
  rw [copyInStream_loads hsql]
  simp only [copyIn_loads hsql]

end Copies

/-- A table of bytes, behind a network without delay; a dump is canceled after 4000 bytes. -/
def memory : CopyServer Bytes where
  status := byte 'I'
  format := 0
  columnFormats := [0]
  begins _ _ := true
  load _ data _ := (.ok (data.length % 2 ^ 64), data)
  dump _ table := if table.length ≤ 4000 then .ok (table.toChunks 1000) else .error copyFailed
  dumped _ table := some ((table.take 4000).toChunks 1000)
  rows _ table := table.length % 2 ^ 64
  weave ms := ms
  chunks bs := if bs = [] then [] else [bs]
  columns_fit := by decide
  load_ok := by
    rintro _ data _ n ⟨⟩
    exact Nat.mod_lt _ (by decide)
  load_error := by rintro _ _ _ _ ⟨⟩
  dump_ok := by
    intro _ table pieces h piece hpiece
    split_ifs at h
    cases h
    exact Nat.le_trans (length_le_of_mem_toChunks (by decide) piece hpiece) (by decide)
  dump_error := by
    intro _ table e h
    split_ifs at h
    cases h
    exact CopyServer.wellFormed_of_tag (by decide) (by decide) (by decide) (by decide)
  dumped_fits := by
    rintro _ table _ ⟨⟩ piece hpiece
    exact Nat.le_trans (length_le_of_mem_toChunks (by decide) piece hpiece) (by decide)
  rows_lt _ table := Nat.mod_lt _ (by decide)
  weave_filter _ := rfl
  weave_wellFormed _ h := h
  splits bs := by
    split_ifs with h
    · exact ⟨by simp, h.symm⟩
    · exact ⟨by simpa using h, by simp⟩

theorem copy_faithful_memory :
    (∀ data s, copyIn memory.submit "COPY t FROM STDIN" data s =
      (verdict (memory.load (asBytes "COPY t FROM STDIN") data s).1,
        (memory.load (asBytes "COPY t FROM STDIN") data s).2)) ∧
    (∀ reader s, copyInStream memory.submit "COPY t FROM STDIN" reader s =
      match reader.pieces with
      | .error e => (.error e, s)
      | .ok pieces => copyIn memory.submit "COPY t FROM STDIN" pieces.flatten s) ∧
    ∀ s, copyOut memory.submit "COPY t FROM STDIN" s =
      ((verdict (memory.dump (asBytes "COPY t FROM STDIN") s)).map List.flatten, s) :=
  copy_faithful ⟨by decide, by decide⟩

end Resolute.Conn.Copy
