import Resolute.Wire.Encode

/-!
# Frontend messages

The encoder of the messages to the server, which computes each length apart from what it writes, and
the frontend grammar of the protocol, by which the server reads them (`Grammar.readMessages`).  The
tag `p` is shared by the messages of the authentication, and read according to its phase.

The lengths are right (`encodeMessage_eq`), so the grammar reads the messages that were encoded
(`readMessages_encodeMessages`), as far as the format can hold them.
-/

namespace Resolute

/-! ### The encoder -/

/-- `put_i32`, of a `usize` that is cast. -/
def putI32 (n : ℕ) : Bytes := i32Bytes (Int32.ofNat n)

/-- `put_i16`, of a `usize` that is cast. -/
def putI16 (n : ℕ) : Bytes := i16Bytes (Int16.ofNat n)

/-- A parameter value. -/
def putParam : Option Bytes → Bytes
  | none => i32Bytes (-1)
  | some data => putI32 data.length ++ data

/-- Encode a single frontend message into the buffer. -/
def encodeMessage (msg : FrontendMsg) (buf : Bytes) : Bytes :=
  match msg with
  | .parse name sql paramOids =>
    let len := 4 + name.length + 1 + sql.length + 1 + 2 + paramOids.length * 4
    buf ++ [byte 'P'] ++ putI32 len ++ name ++ [0] ++ sql ++ [0] ++ putI16 paramOids.length ++
      paramOids.flatMap u32Bytes
  | .bind portal statement paramFormats params resultFormats =>
    let paramsSize := (params.map fun
      | none => 4
      | some data => 4 + data.length).sum
    let len := 4 + portal.length + 1 + statement.length + 1 + 2 + paramFormats.length * 2 + 2 +
      paramsSize + 2 + resultFormats.length * 2
    buf ++ [byte 'B'] ++ putI32 len ++ portal ++ [0] ++ statement ++ [0] ++
      putI16 paramFormats.length ++ paramFormats.flatMap (fun fmt => i16Bytes fmt.toInt16) ++
      putI16 params.length ++ params.flatMap putParam ++
      putI16 resultFormats.length ++ resultFormats.flatMap (fun fmt => i16Bytes fmt.toInt16)
  | .execute portal maxRows =>
    let len := 4 + portal.length + 1 + 4
    buf ++ [byte 'E'] ++ putI32 len ++ portal ++ [0] ++ i32Bytes maxRows
  | .sync => buf ++ [byte 'S'] ++ putI32 4
  | .query sql =>
    let len := 4 + sql.length + 1
    buf ++ [byte 'Q'] ++ putI32 len ++ sql ++ [0]
  | .describe kind name =>
    let len := 4 + 1 + name.length + 1
    buf ++ [byte 'D'] ++ putI32 len ++ [kind] ++ name ++ [0]
  | .close kind name =>
    let len := 4 + 1 + name.length + 1
    buf ++ [byte 'C'] ++ putI32 len ++ [kind] ++ name ++ [0]
  | .flush => buf ++ [byte 'H'] ++ putI32 4
  | .saslInitialResponse mechanism data =>
    let len := 4 + mechanism.length + 1 + 4 + data.length
    buf ++ [byte 'p'] ++ putI32 len ++ mechanism ++ [0] ++ putI32 data.length ++ data
  | .saslResponse data =>
    let len := 4 + data.length
    buf ++ [byte 'p'] ++ putI32 len ++ data
  | .copyData data =>
    let len := 4 + data.length
    buf ++ [byte 'd'] ++ putI32 len ++ data
  | .copyDone => buf ++ [byte 'c'] ++ putI32 4
  | .copyFail msg =>
    let len := 4 + msg.length + 1
    buf ++ [byte 'f'] ++ putI32 len ++ msg ++ [0]
  | .terminate => buf ++ [byte 'X'] ++ putI32 4

/-- Encode multiple frontend messages into a single buffer. -/
def encodeMessages (msgs : List FrontendMsg) (buf : Bytes) : Bytes :=
  msgs.foldl (fun buf msg => encodeMessage msg buf) buf

/-! ### The grammar -/

namespace Grammar

/-- What the server expects of a message with tag `p`. -/
inductive Phase where
  | initialResponse
  | response
  deriving DecidableEq, Repr

/-- A reader takes what it reads off the front. -/
abbrev Reader (α : Type) := Bytes → Option (α × Bytes)

/-- `Int16`, read as unsigned. -/
def u16 : Reader ℕ
  | a :: b :: rest => some (a.toNat * 256 + b.toNat, rest)
  | _ => none

def u32 : Reader UInt32
  | a :: b :: c :: d :: rest => some (u32Be a b c d, rest)
  | _ => none

def i32 : Reader Int32
  | a :: b :: c :: d :: rest => some (i32Be a b c d, rest)
  | _ => none

/-- `Byte1`. -/
def u8 : Reader UInt8
  | b :: rest => some (b, rest)
  | [] => none

/-- `String`. -/
def cstring : Reader Bytes := fun bs =>
  if 0 ∈ bs then some (splitCString bs) else none

/-- `Byten`. -/
def bytes (n : ℕ) : Reader Bytes := fun bs =>
  if n ≤ bs.length then some (bs.take n, bs.drop n) else none

/-- A format code: `0` or `1`. -/
def format : Reader FormatCode := fun bs => do
  let (code, rest) ← u16 bs
  if code = 0 then some (.text, rest) else if code = 1 then some (.binary, rest) else none

/-- A length of 32 bits with as many bytes; `-1` for NULL. -/
def value : Reader (Option Bytes) := fun bs => do
  let (len, rest) ← i32 bs
  if len = -1 then some (none, rest)
  else if len < 0 then none
  else
    let (data, rest) ← bytes len.toNatClampNeg rest
    some (some data, rest)

def many {α : Type} (read : Reader α) : ℕ → Reader (List α)
  | 0 => fun bs => some ([], bs)
  | n + 1 => fun bs => do
    let (x, rest) ← read bs
    let (xs, rest) ← many read n rest
    some (x :: xs, rest)

/-- A count of 16 bits with as many elements. -/
def list {α : Type} (read : Reader α) : Reader (List α) := fun bs => do
  let (n, rest) ← u16 bs
  many read n rest

/-- The body of a message with the given tag. -/
def body (phase : Phase) (tag : UInt8) : Reader FrontendMsg := fun bs =>
  match Char.ofUInt8 tag with
  | 'P' => do
    let (name, bs) ← cstring bs
    let (sql, bs) ← cstring bs
    let (paramOids, bs) ← list u32 bs
    some (.parse name sql paramOids, bs)
  | 'B' => do
    let (portal, bs) ← cstring bs
    let (statement, bs) ← cstring bs
    let (paramFormats, bs) ← list format bs
    let (params, bs) ← list value bs
    let (resultFormats, bs) ← list format bs
    some (.bind portal statement paramFormats params resultFormats, bs)
  | 'E' => do
    let (portal, bs) ← cstring bs
    let (maxRows, bs) ← i32 bs
    some (.execute portal maxRows, bs)
  | 'S' => some (.sync, bs)
  | 'Q' => do
    let (sql, bs) ← cstring bs
    some (.query sql, bs)
  | 'D' => do
    let (kind, bs) ← u8 bs
    let (name, bs) ← cstring bs
    some (.describe kind name, bs)
  | 'C' => do
    let (kind, bs) ← u8 bs
    let (name, bs) ← cstring bs
    some (.close kind name, bs)
  | 'H' => some (.flush, bs)
  | 'p' =>
    match phase with
    | .initialResponse => do
      let (mechanism, bs) ← cstring bs
      let (data, bs) ← value bs
      some (.saslInitialResponse mechanism (data.getD []), bs)
    | .response => some (.saslResponse bs, [])
  | 'd' => some (.copyData bs, [])
  | 'c' => some (.copyDone, bs)
  | 'f' => do
    let (msg, bs) ← cstring bs
    some (.copyFail msg, bs)
  | 'X' => some (.terminate, bs)
  | _ => none

/-- One message: the tag, the length, which counts itself, and a body of just that length. -/
def message (phase : Phase) : Reader FrontendMsg := fun bs => do
  let (tag, bs) ← u8 bs
  let (len, bs) ← i32 bs
  if len < 4 then none
  else
    let (bs, rest) ← bytes (len.toNatClampNeg - 4) bs
    let (msg, left) ← body phase tag bs
    if left = [] then some (msg, rest) else none

/-- All messages of a byte string; `phase i` is the phase at message `i`.  A message has at least
five bytes, so `fuel` may be the length. -/
def readMessages (phase : ℕ → Phase) : (fuel i : ℕ) → Bytes → Option (List FrontendMsg)
  | _, _, [] => some []
  | 0, _, _ => none
  | fuel + 1, i, bs => do
    let (msg, rest) ← message (phase i) bs
    let msgs ← readMessages phase fuel (i + 1) rest
    some (msg :: msgs)

end Grammar

/-! ### What the format can hold -/

namespace FrontendMsg

/-- The names and the SQL texts of a message. -/
def names : FrontendMsg → List Bytes
  | parse name sql _ => [name, sql]
  | bind portal statement _ _ _ => [portal, statement]
  | execute portal _ => [portal]
  | query sql => [sql]
  | describe _ name => [name]
  | close _ name => [name]
  | saslInitialResponse mechanism _ => [mechanism]
  | _ => []

/-- The counts of a message. -/
def counts : FrontendMsg → List ℕ
  | parse _ _ paramOids => [paramOids.length]
  | bind _ _ paramFormats params resultFormats =>
    [paramFormats.length, params.length, resultFormats.length]
  | _ => []

/-- The phase in which a message with tag `p` is read as itself. -/
def phase? : FrontendMsg → Option Grammar.Phase
  | saslInitialResponse _ _ => some .initialResponse
  | saslResponse _ => some .response
  | _ => none

def tag : FrontendMsg → Char
  | parse _ _ _ => 'P'
  | bind _ _ _ _ _ => 'B'
  | execute _ _ => 'E'
  | sync => 'S'
  | query _ => 'Q'
  | describe _ _ => 'D'
  | close _ _ => 'C'
  | flush => 'H'
  | saslInitialResponse _ _ | saslResponse _ => 'p'
  | copyData _ => 'd'
  | copyDone => 'c'
  | copyFail _ => 'f'
  | terminate => 'X'

/-- What is written behind the length. -/
def body : FrontendMsg → Bytes
  | parse name sql paramOids => name ++ 0 :: (sql ++ 0 :: (putI16 paramOids.length ++
      paramOids.flatMap u32Bytes))
  | bind portal statement paramFormats params resultFormats =>
    portal ++ 0 :: (statement ++ 0 :: (putI16 paramFormats.length ++
      (paramFormats.flatMap (fun fmt => i16Bytes fmt.toInt16) ++ (putI16 params.length ++
        (params.flatMap putParam ++ (putI16 resultFormats.length ++
          resultFormats.flatMap (fun fmt => i16Bytes fmt.toInt16)))))))
  | execute portal maxRows => portal ++ 0 :: i32Bytes maxRows
  | query sql => sql ++ [0]
  | describe kind name | close kind name => kind :: (name ++ [0])
  | saslInitialResponse mechanism data => mechanism ++ 0 :: (putI32 data.length ++ data)
  | saslResponse data | copyData data => data
  | copyFail msg => msg ++ [0]
  | sync | flush | copyDone | terminate => []

/-- The bytes of a message. -/
def frame (msg : FrontendMsg) : Bytes :=
  byte msg.tag :: (putI32 (4 + msg.body.length) ++ msg.body)

structure WellFormed (msg : FrontendMsg) : Prop where
  names : ∀ s ∈ msg.names, 0 ∉ s
  counts : ∀ n ∈ msg.counts, n < 65536
  size : 4 + msg.body.length < 2 ^ 31
  /-- The text of a `CopyFail` is not a name, but it is terminated as one. -/
  copyFail : ∀ text, msg = .copyFail text → 0 ∉ text

end FrontendMsg

/-! ### The lengths -/

theorem length_putParam (param : Option Bytes) : (putParam param).length =
    match param with
    | none => 4
    | some data => 4 + data.length := by
  cases param with
  | none => rfl
  | some data => rw [putParam, List.length_append]; rfl

/-- **The lengths are right.**  What is appended is the tag, the length of what follows, and
that. -/
theorem encodeMessage_eq (msg : FrontendMsg) (buf : Bytes) :
    encodeMessage msg buf = buf ++ msg.frame := by
  rw [FrontendMsg.frame]
  have hparams : ∀ params : List (Option Bytes), (params.flatMap putParam).length =
      (params.map fun
        | none => 4
        | some data => 4 + data.length).sum := fun params => by
    rw [List.length_flatMap]
    exact congrArg List.sum (List.map_congr_left fun param _ => length_putParam param)
  have hoids := length_flatMap_of_length length_u32Bytes
  have hformats := length_flatMap_of_length (f := fun fmt : FormatCode => i16Bytes fmt.toInt16)
    fun fmt => length_i16Bytes _
  have hI32 : ∀ n, (putI32 n).length = 4 := fun n => rfl
  have hI16 : ∀ n, (putI16 n).length = 2 := fun n => rfl
  have hframe : ∀ {tag : UInt8} {body : Bytes} {m n : ℕ}, m = n →
      buf ++ tag :: (putI32 m ++ body) = buf ++ tag :: (putI32 n ++ body) := fun h => by rw [h]
  cases msg
  all_goals
    simp only [encodeMessage, FrontendMsg.body, FrontendMsg.tag, List.append_assoc,
      List.singleton_append, List.append_nil]
    refine hframe ?_
    simp only [List.length_append, List.length_cons, List.length_nil, hI32, hI16, hparams, hoids,
      hformats, length_i32Bytes] <;> omega

theorem encodeMessages_eq (msgs : List FrontendMsg) (buf : Bytes) :
    encodeMessages msgs buf = buf ++ msgs.flatMap FrontendMsg.frame := by
  unfold encodeMessages
  induction msgs generalizing buf with
  | nil => simp
  | cons msg msgs ih =>
    rw [List.foldl_cons, ih, encodeMessage_eq, List.flatMap_cons, List.append_assoc]

/-! ### The readers -/

namespace Grammar

section

variable {α : Type} {rest : Bytes}

theorem u16_putI16 {n : ℕ} (hn : n < 65536) (rest : Bytes) :
    u16 (putI16 n ++ rest) = some (n, rest) := by
  have hu : (Int16.ofNat n).toUInt16.toNat = n := by
    rw [Int16.toUInt16_ofNat']
    exact UInt16.toNat_ofNat_of_lt' hn
  simp only [putI16, i16Bytes, hu, List.cons_append, List.nil_append, u16, UInt8.toNat_ofNat']
  congr 2
  omega

theorem u32_u32Bytes (n : UInt32) (rest : Bytes) : u32 (u32Bytes n ++ rest) = some (n, rest) := by
  simp only [u32Bytes, List.cons_append, List.nil_append, u32, u32Be_u32Bytes]

theorem i32_i32Bytes (n : Int32) (rest : Bytes) : i32 (i32Bytes n ++ rest) = some (n, rest) := by
  simp only [i32Bytes, u32Bytes, List.cons_append, List.nil_append, i32, i32Be_u32Bytes]

theorem cstring_append {s : Bytes} (hs : 0 ∉ s) (rest : Bytes) :
    cstring (s ++ 0 :: rest) = some (s, rest) := by
  have hall : ∀ b ∈ s, (b != 0) = true := fun b hb => by
    rw [bne_iff_ne]
    rintro rfl
    exact hs hb
  have htake : (0 :: rest).takeWhile (· != 0) = [] := rfl
  have hdrop : (0 :: rest).dropWhile (· != 0) = 0 :: rest := rfl
  rw [cstring, if_pos (by simp), splitCString, List.takeWhile_append_of_pos hall,
    List.dropWhile_append_of_pos hall, htake, hdrop, List.append_nil]
  rfl

theorem bytes_append {bs : Bytes} {n : ℕ} (hn : n = bs.length) (rest : Bytes) :
    bytes n (bs ++ rest) = some (bs, rest) := by
  subst hn
  simp [bytes]

theorem format_i16Bytes (fmt : FormatCode) (rest : Bytes) :
    format (i16Bytes fmt.toInt16 ++ rest) = some (fmt, rest) := by
  have htext : i16Bytes 0 = [0, 0] := by decide
  have hbinary : i16Bytes 1 = [0, 1] := by decide
  cases fmt <;> simp [format, FormatCode.toInt16, htext, hbinary, u16]

theorem value_putI32 {data : Bytes} (hdata : data.length < 2 ^ 31) (rest : Bytes) :
    value (putI32 data.length ++ (data ++ rest)) = some (some data, rest) := by
  have hnat : (Int32.ofNat data.length).toNatClampNeg = data.length :=
    Int32.toNatClampNeg_ofNat_of_lt hdata
  have hlow : ¬Int32.ofNat data.length < 0 := not_ofNat_lt hdata (Int.natCast_nonneg _)
  have hnull : Int32.ofNat data.length ≠ -1 := fun h => hlow (h ▸ by decide)
  simp [value, putI32, i32_i32Bytes, hnull, hlow, hnat, bytes_append rfl]

theorem value_putParam {param : Option Bytes} (hparam : (putParam param).length < 2 ^ 31)
    (rest : Bytes) : value (putParam param ++ rest) = some (param, rest) := by
  cases param with
  | none => rfl
  | some data =>
    rw [putParam, List.append_assoc]
    rw [length_putParam] at hparam
    exact value_putI32 (by dsimp only at hparam; omega) rest

theorem many_flatMap {read : Reader α} {encode : α → Bytes} {xs : List α}
    (h : ∀ x ∈ xs, ∀ rest, read (encode x ++ rest) = some (x, rest)) (rest : Bytes) :
    many read xs.length (xs.flatMap encode ++ rest) = some (xs, rest) := by
  induction xs with
  | nil => rfl
  | cons x xs ih =>
    have hread := h x List.mem_cons_self (xs.flatMap encode ++ rest)
    have hih := ih fun x hx => h x (List.mem_cons_of_mem _ hx)
    simp [many, hread, hih]

theorem list_flatMap {read : Reader α} {encode : α → Bytes} {xs : List α}
    (h : ∀ x ∈ xs, ∀ rest, read (encode x ++ rest) = some (x, rest)) (hcount : xs.length < 65536)
    (rest : Bytes) :
    list read (putI16 xs.length ++ (xs.flatMap encode ++ rest)) = some (xs, rest) := by
  simp [list, u16_putI16 hcount, many_flatMap h]

end

/-- The grammar reads a body in the phase of its message. -/
theorem body_body {msg : FrontendMsg} (h : msg.WellFormed) {phase : Phase}
    (hphase : ∀ p, msg.phase? = some p → phase = p) :
    body phase (byte msg.tag) msg.body = some (msg, []) := by
  obtain ⟨hnames, hcounts, hsize, hfail⟩ := h
  have hchar : ∀ c : Char, c.toNat < 256 → Char.ofUInt8 (byte c) = c := by
    intro c hc
    refine Char.toNat_inj.1 ?_
    have hnat : (Char.ofUInt8 (byte c)).toNat = (byte c).toNat := (byte c).toNat_toUInt32
    rw [hnat, byte, UInt8.toNat_ofNat_of_lt' hc]
  cases msg with
  | parse name sql paramOids =>
    have hname := hnames name List.mem_cons_self
    have hsql := hnames sql (List.mem_cons_of_mem _ List.mem_cons_self)
    have hoids := list_flatMap (fun oid _ rest => u32_u32Bytes oid rest)
      (hcounts paramOids.length List.mem_cons_self) []
    rw [List.append_nil] at hoids
    simp [body, FrontendMsg.tag, FrontendMsg.body, hchar, cstring_append hname,
      cstring_append hsql, hoids]
  | bind portal statement paramFormats params resultFormats =>
    have hportal := hnames portal List.mem_cons_self
    have hstatement := hnames statement (List.mem_cons_of_mem _ List.mem_cons_self)
    -- a parameter is shorter than the message
    have hparam : ∀ param ∈ params, ∀ rest,
        value (putParam param ++ rest) = some (param, rest) := by
      intro param hmem rest
      refine value_putParam (Nat.lt_of_le_of_lt ?_ hsize) rest
      obtain ⟨before, after, rfl⟩ := List.append_of_mem hmem
      simp only [FrontendMsg.body, List.flatMap_append, List.flatMap_cons, List.length_append,
        List.length_cons]
      omega
    -- the formats of the parameters and those of the results
    have hformats := fun (n : ℕ) (fmts : List FormatCode) (hn : fmts.length < 65536) =>
      list_flatMap (fun fmt (_ : fmt ∈ fmts) rest => format_i16Bytes fmt rest) hn
    have hresult := hformats 0 resultFormats (hcounts _ (by simp [FrontendMsg.counts])) []
    rw [List.append_nil] at hresult
    simp [body, FrontendMsg.tag, FrontendMsg.body, hchar, cstring_append hportal,
      cstring_append hstatement, hformats 0 paramFormats (hcounts _ (by simp [FrontendMsg.counts])),
      list_flatMap hparam (hcounts _ (by simp [FrontendMsg.counts])), hresult]
  | execute portal maxRows =>
    have hrows := i32_i32Bytes maxRows []
    rw [List.append_nil] at hrows
    simp [body, FrontendMsg.tag, FrontendMsg.body, hchar,
      cstring_append (hnames portal List.mem_cons_self), hrows]
  | sync => rfl
  | query sql =>
    simp [body, FrontendMsg.tag, FrontendMsg.body, hchar,
      cstring_append (hnames sql List.mem_cons_self)]
  | describe kind name =>
    simp [body, FrontendMsg.tag, FrontendMsg.body, hchar, u8,
      cstring_append (hnames name List.mem_cons_self)]
  | close kind name =>
    simp [body, FrontendMsg.tag, FrontendMsg.body, hchar, u8,
      cstring_append (hnames name List.mem_cons_self)]
  | flush => rfl
  | saslInitialResponse mechanism data =>
    have hdata : data.length < 2 ^ 31 := by
      simp only [FrontendMsg.body, List.length_append, List.length_cons] at hsize
      omega
    have hvalue := value_putI32 hdata []
    rw [List.append_nil] at hvalue
    rw [hphase _ rfl]
    simp [body, FrontendMsg.tag, FrontendMsg.body, hchar,
      cstring_append (hnames mechanism List.mem_cons_self), hvalue]
  | saslResponse data =>
    rw [hphase _ rfl]
    rfl
  | copyData data => rfl
  | copyDone => rfl
  | copyFail text =>
    simp [body, FrontendMsg.tag, FrontendMsg.body, hchar, cstring_append (hfail text rfl)]
  | terminate => rfl

theorem message_frame {msg : FrontendMsg} (h : msg.WellFormed) {phase : Phase}
    (hphase : ∀ p, msg.phase? = some p → phase = p) (rest : Bytes) :
    message phase (msg.frame ++ rest) = some (msg, rest) := by
  have hnat : (Int32.ofNat (4 + msg.body.length)).toNatClampNeg = 4 + msg.body.length :=
    Int32.toNatClampNeg_ofNat_of_lt h.size
  have hlow : ¬Int32.ofNat (4 + msg.body.length) < 4 :=
    not_ofNat_lt h.size (Int.ofNat_le.2 (Nat.le_add_right 4 _))
  have hlen : i32 (putI32 (4 + msg.body.length) ++ (msg.body ++ rest)) =
      some (Int32.ofNat (4 + msg.body.length), msg.body ++ rest) := i32_i32Bytes _ _
  have hsize : (Int32.ofNat (4 + msg.body.length)).toNatClampNeg - 4 = msg.body.length := by
    omega
  have hbytes := bytes_append hsize rest
  simp only [message, FrontendMsg.frame, u8, List.cons_append, List.append_assoc, hlen,
    Option.bind_eq_bind, Option.bind_some, if_neg hlow, hbytes, body_body h hphase, if_true]

theorem readMessages_frames {phase : ℕ → Phase} {msgs : List FrontendMsg} {i fuel : ℕ}
    (h : ∀ msg ∈ msgs, msg.WellFormed)
    (hphase : ∀ j msg p, msgs[j]? = some msg → msg.phase? = some p → phase (i + j) = p)
    (hfuel : msgs.length ≤ fuel) :
    readMessages phase fuel i (msgs.flatMap FrontendMsg.frame) = some msgs := by
  induction msgs generalizing i fuel with
  | nil => cases fuel <;> rfl
  | cons msg msgs ih =>
    obtain ⟨fuel, rfl⟩ := Nat.exists_eq_add_of_le' (Nat.le_trans (Nat.le_add_left 1 _) hfuel)
    have hmsg : message (phase i) (msg.frame ++ msgs.flatMap FrontendMsg.frame) =
        some (msg, msgs.flatMap FrontendMsg.frame) :=
      message_frame (h msg List.mem_cons_self) (fun p hp => hphase 0 msg p rfl hp) _
    have hih := ih (i := i + 1) (fun msg hmem => h msg (List.mem_cons_of_mem _ hmem))
      (fun j msg p hj hp => by
        rw [Nat.add_right_comm]
        exact hphase (j + 1) msg p hj hp) (Nat.le_of_succ_le_succ hfuel)
    obtain ⟨b, bs, hbs⟩ := List.exists_cons_of_ne_nil
      (l := msg.frame ++ msgs.flatMap FrontendMsg.frame) (by simp [FrontendMsg.frame])
    rw [List.flatMap_cons]
    rw [hbs] at hmsg ⊢
    simp only [readMessages, hmsg, hih, Option.bind_eq_bind, Option.bind_some]

/-- **Encoding is faithful.**  The grammar reads the messages that were encoded, whatever the phase
is at the messages that are no part of the authentication. -/
theorem readMessages_encodeMessages {msgs : List FrontendMsg} (h : ∀ msg ∈ msgs, msg.WellFormed)
    {phase : ℕ → Phase}
    (hphase : ∀ i msg p, msgs[i]? = some msg → msg.phase? = some p → phase i = p) :
    readMessages phase (encodeMessages msgs []).length 0 (encodeMessages msgs []) = some msgs := by
  rw [encodeMessages_eq, List.nil_append]
  refine readMessages_frames h ?_ (length_le_flatMap (fun msg => List.cons_ne_nil _ _) msgs)
  intro j msg p hj hp
  rw [Nat.zero_add]
  exact hphase j msg p hj hp

theorem readMessages_encodeMessages_bind :
    readMessages (fun _ => .response) (encodeMessages
      [.parse [115] [83] [23], .bind [] [115] [.binary] [none, some []] [.text], .sync] []).length 0
      (encodeMessages
        [.parse [115] [83] [23], .bind [] [115] [.binary] [none, some []] [.text], .sync] []) =
      some [.parse [115] [83] [23], .bind [] [115] [.binary] [none, some []] [.text], .sync] := by
  refine readMessages_encodeMessages ?_ ?_
  · intro msg hmsg
    rcases List.mem_cons.1 hmsg with rfl | hmsg
    · exact ⟨by decide, by decide, by decide, (fun _ h => by cases h)⟩
    rcases List.mem_cons.1 hmsg with rfl | hmsg
    · exact ⟨by decide, by decide, by decide, (fun _ h => by cases h)⟩
    obtain rfl := List.mem_singleton.1 hmsg
    exact ⟨by decide, by decide, by decide, (fun _ h => by cases h)⟩
  · intro i msg p hmsg hp
    have hmem := List.mem_of_getElem? hmsg
    have hall : ∀ msg ∈ [FrontendMsg.parse [115] [83] [23],
        .bind [] [115] [.binary] [none, some []] [.text], .sync], msg.phase? = none := by decide
    cases (hall msg hmem).symm.trans hp

/-- The text of a `CopyFail` ends at its first zero byte. -/
theorem copyFail_zero : (FrontendMsg.copyFail [97, 0, 98]).names = [] ∧
    readMessages (fun _ => .response) (encodeMessages [.copyFail [97, 0, 98]] []).length 0
      (encodeMessages [.copyFail [97, 0, 98]] []) ≠ some [.copyFail [97, 0, 98]] := by
  decide

end Grammar

end Resolute
