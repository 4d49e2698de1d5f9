import Resolute.Conn.Tasks
import Resolute.LTS.Basic
import Resolute.Wire.Read

/-!
# The notification listener

`PgListener` has a connection of its own.  `recv_event` reads messages until it finds a
notification; when the connection is lost it connects again, with a `LISTEN` for each of its
channels, and reports `Reconnected`.  `listen` and `unlisten` send a command and read up to its
`ReadyForQuery`, and have no use for a notification that they meet on the way.

The server carries out the commands of a session in order and may send notifications, notices and
the like at any time, also in the middle of a response.  It reads the name of a channel as it was
given (`parseSql_sql`).  The state keeps the account of notifications, and two kinds of steps are
told apart: those that lose no notification (`Heard`), and those that leave no response behind
(`InStep`), on which it depends that after an operation the listener knows the channels of its
connection (`InSync`).  `listener_faithful` is about both.
-/

namespace Resolute.Listener

structure Notification where
  pid : Int32
  channel : String
  payload : String
  deriving DecidableEq, Repr

def notification? : BackendMsg → Option Notification
  | .notificationResponse pid channel payload => some ⟨pid, channel, payload⟩
  | _ => none

/-! ### Commands -/

/-- The double quote. -/
def quote : Char := Char.ofNat 34

/-- `quote_ident`. -/
def quoteIdent (ident : String) : String :=
  String.ofList (quote ::
    (ident.toList.flatMap fun c => if c = quote then [quote, quote] else [c]) ++ [quote])

/-- The operations that send a command. -/
inductive Command where
  | listen (channel : String)
  | unlisten (channel : String)
  | unlistenAll
  deriving DecidableEq, Repr

namespace Command

def sql : Command → String
  | listen channel => let quoted := quoteIdent channel; s!"LISTEN {quoted}"
  | unlisten channel => let quoted := quoteIdent channel; s!"UNLISTEN {quoted}"
  | unlistenAll => "UNLISTEN *"

/-- The tag of its `CommandComplete`. -/
def tag : Command → String
  | listen _ => "LISTEN"
  | unlisten _ | unlistenAll => "UNLISTEN"

/-- What the listener does to its `channels` after the command has succeeded. -/
def record : Command → List String → List String
  | listen channel, channels =>
    if !channels.any (· == channel) then channels ++ [channel] else channels
  | unlisten channel, channels => channels.filter (· ≠ channel)
  | unlistenAll, _ => []

/-- What the server does to the channels of the session.  `name` : how it reads an identifier, which
PostgreSQL cuts off after 63 bytes. -/
def apply (name : String → String) : Command → List String → List String
  | listen channel, listening =>
    if name channel ∈ listening then listening else listening ++ [name channel]
  | unlisten channel, listening => listening.filter (· ≠ name channel)
  | unlistenAll, _ => []

/-- The server takes the name of the channel as it is. -/
def Proper (name : String → String) : Command → Prop
  | listen channel | unlisten channel => name channel = channel
  | unlistenAll => True

instance (name : String → String) (cmd : Command) : Decidable (cmd.Proper name) := by
  cases cmd <;> unfold Proper <;> infer_instance

end Command

/-! ### The scanner of the server -/

/-- What follows the given prefix. -/
def stripPrefix : List Char → List Char → Option (List Char)
  | [], cs => some cs
  | p :: ps, c :: cs => if p = c then stripPrefix ps cs else none
  | _ :: _, [] => none

/-- A quoted identifier after its opening quote. -/
def unquoteBody : List Char → Option (List Char)
  | [] => none
  | [c] => if c = quote then some [] else none
  | c :: d :: cs =>
    if c = quote then if d = quote then (unquoteBody cs).map (quote :: ·) else none
    else (unquoteBody (d :: cs)).map (c :: ·)

def unquote : List Char → Option String
  | c :: cs => if c = quote then (unquoteBody cs).map String.ofList else none
  | [] => none

/-- How the server reads a command. -/
def parseSql (sql : String) : Option Command :=
  match stripPrefix "LISTEN ".toList sql.toList with
  | some rest => (unquote rest).map .listen
  | none => match stripPrefix "UNLISTEN ".toList sql.toList with
    | some rest =>
      if rest = "*".toList then some .unlistenAll else (unquote rest).map .unlisten
    | none => none

theorem stripPrefix_append (ps cs : List Char) : stripPrefix ps (ps ++ cs) = some cs := by
  induction ps with
  | nil => rfl
  | cons p ps ih => simp [stripPrefix, ih]

theorem unquoteBody_escaped (cs : List Char) :
    unquoteBody ((cs.flatMap fun c => if c = quote then [quote, quote] else [c]) ++ [quote]) =
      some cs := by
  induction cs with
  | nil => rfl
  | cons c cs ih =>
    rw [List.flatMap_cons]
    by_cases hc : c = quote
    · subst hc
      simp [unquoteBody, ih]
    · -- the rest is not empty, as it ends with the closing quote
      obtain ⟨d, ds, hd⟩ := List.exists_cons_of_ne_nil (List.append_ne_nil_of_right_ne_nil
        (cs.flatMap fun c => if c = quote then [quote, quote] else [c]) (List.cons_ne_nil quote []))
      rw [if_neg hc, List.append_assoc, hd, List.singleton_append, unquoteBody, if_neg hc, ← hd, ih]
      rfl

theorem unquote_quoteIdent (ident : String) : unquote (quoteIdent ident).toList = some ident := by
  simp [quoteIdent, unquote, unquoteBody_escaped]

/-- The server reads the name of a channel as it was given. -/
theorem parseSql_sql (cmd : Command) : parseSql cmd.sql = some cmd := by
  cases cmd with
  | listen channel =>
    have hsql : (Command.listen channel).sql.toList =
      "LISTEN ".toList ++ (quoteIdent channel).toList := String.toList_append
    rw [parseSql, hsql, stripPrefix_append]
    simp [unquote_quoteIdent]
  | unlisten channel =>
    have hsql : (Command.unlisten channel).sql.toList =
      "UNLISTEN ".toList ++ (quoteIdent channel).toList := String.toList_append
    have hlisten : stripPrefix "LISTEN ".toList
      ("UNLISTEN ".toList ++ (quoteIdent channel).toList) = none := rfl
    have hstar : (quoteIdent channel).toList ≠ "*".toList := fun h => by
      simp [quoteIdent, quote] at h
    rw [parseSql, hsql, hlisten, stripPrefix_append]
    dsimp only
    rw [if_neg hstar, unquote_quoteIdent]
    rfl
  | unlistenAll => rfl

/-! ### The connection -/

/-- A connection, and the session of the server behind it. -/
structure Connection where
  /-- The channels that the session listens to. -/
  listening : List String
  /-- The commands that are written and not executed yet. -/
  commands : List String
  /-- A command is executed, and its `ReadyForQuery` is not sent yet. -/
  answering : Bool
  /-- What has arrived or is under way: messages, and errors for frames that cannot be parsed. -/
  inbound : List ReadResult
  /-- Nothing more arrives. -/
  lost : Bool
  deriving DecidableEq

/-- What the server and the network do. -/
inductive Act where
  /-- The next command is executed, or rejected with an error. -/
  | execute (verdict : Option PgError)
  /-- The response to the command ends. -/
  | ready (status : UInt8)
  /-- A message that no command asks for. -/
  | send (m : BackendMsg)
  /-- A frame that cannot be parsed. -/
  | garble (message : String)
  /-- The server ends the session with an error. -/
  | shutdown (fields : PgError)
  /-- The connection breaks, and only the first `n` messages under way arrive. -/
  | lose (n : ℕ)
  deriving DecidableEq

/-- The server sends `ReadyForQuery` and `ErrorResponse` in answer to a command only, or when it
ends the session. -/
def Act.Proper : Act → Prop
  | .send m => m.isReady = false ∧ m.isError = false
  | _ => True

instance (a : Act) : Decidable a.Proper := by
  cases a <;> unfold Act.Proper <;> infer_instance

namespace Connection

/-- `WireConn::connect`. -/
def connect : Connection := ⟨[], [], false, [], false⟩

/-- A command is written. -/
def write (sql : String) (c : Connection) : Connection := { c with commands := c.commands ++ [sql] }

/-- The command is answered, up to its `ReadyForQuery`. -/
def answer (c : Connection) (rest : List String) (listening : List String) (m : BackendMsg) :
    Connection :=
  { c with listening, commands := rest, answering := true, inbound := c.inbound ++ [.ok m] }

def act (name : String → String) (c : Connection) (a : Act) : Option Connection :=
  if c.lost then none else match a with
  | .execute verdict => match c.answering, c.commands with
    | false, sql :: rest => match verdict, parseSql sql with
      | none, some cmd =>
        some (c.answer rest (cmd.apply name c.listening) (.commandComplete cmd.tag))
      | none, none => none
      | some e, _ => some (c.answer rest c.listening (.errorResponse e))
    | _, _ => none
  | .ready status =>
    if c.answering then some { c with
      answering := false, inbound := c.inbound ++ [.ok (.readyForQuery status)] }
    else none
  | .send m => some { c with inbound := c.inbound ++ [.ok m] }
  | .garble message => some { c with inbound := c.inbound ++ [.error (.protocol message)] }
  | .shutdown fields => some { c with
      lost := true, inbound := c.inbound ++ [.ok (.errorResponse fields)] }
  | .lose n => some { c with lost := true, inbound := c.inbound.take n }

end Connection

/-! ### The listener -/

/-- The kinds of I/O error that `is_disconnect` names, by their numbers; `UnexpectedEof` has none of
its own. -/
def disconnectKinds : List ErrorKind :=
  let unexpectedEof := ErrorKind.other (-1)
  let connectionReset := ErrorKind.other 104
  let connectionAborted := ErrorKind.other 103
  let notConnected := ErrorKind.other 107
  let timedOut := ErrorKind.other 110
  [unexpectedEof, .brokenPipe, connectionReset, connectionAborted, notConnected, timedOut]

def isDisconnect : PgWireError → Bool
  | .connectionClosed => true
  | .ioError kind _ => disconnectKinds.contains kind
  | _ => false

/-- The operation under way.  `recv` says that `recv_event` is called by `recv`. -/
inductive Task where
  | idle
  /-- The loop of `simple_query`, for the command. -/
  | commanding (cmd : Command) (firstError : Option PgError)
  /-- The loop of `recv_event`. -/
  | receiving (recv : Bool)
  /-- `reconnect_with_backoff`, before `WireConn::connect`. -/
  | backingOff (recv : Bool)
  /-- The loop of `simple_query`, for the `LISTEN` of channel `k` on the new connection. -/
  | relistening (recv : Bool) (k : ℕ) (firstError : Option PgError) (conn : Connection)
  deriving DecidableEq

/-- A listener. -/
structure State where
  channels : List String
  conn : Connection
  task : Task
  /-- The notifications for subscribed channels that were taken off the connection since the last
  `Reconnected`. -/
  taken : List Notification
  /-- Those that `recv_event` has returned since then. -/
  returned : List Notification

inductive Label where
  /-- `listen`, `unlisten` or `unlisten_all`. -/
  | command (cmd : Command)
  | recvEvent
  | recv
  /-- The operation reads the next message, or meets a frame that cannot be parsed. -/
  | read
  /-- Reading fails on a connection that is lost. -/
  | readError (e : PgWireError)
  /-- Writing a command to a connection that is lost fails. -/
  | writeError
  | connect
  | connectError
  /-- Something happens to the connection. -/
  | server (a : Act)
  /-- Something happens to the new connection of `reconnect_with_backoff`. -/
  | newServer (a : Act)
  deriving DecidableEq

namespace State

/-- `PgListener::connect`. -/
def init : State := ⟨[], .connect, .idle, [], []⟩

/-- The rest of the input, after one read. -/
def rest (s : State) (inbound : List ReadResult) (task : Task) : State :=
  { s with conn := { s.conn with inbound }, task }

/-- The channel is one that the caller has subscribed to. -/
def subscribed (s : State) (n : Notification) : Bool := s.channels.contains n.channel

/-- A notification is taken off the connection. -/
def take (s : State) (n : Notification) : State :=
  if s.subscribed n then { s with taken := s.taken ++ [n] } else s

/-- `recv_event` returns a notification. -/
def deliver (s : State) (n : Notification) : State :=
  if s.subscribed n then { s with returned := s.returned ++ [n] } else s

/-- `recv_event` returns `Reconnected`, which `recv` ignores. -/
def reconnected (s : State) (recv : Bool) (conn : Connection) : State :=
  ⟨s.channels, conn, if recv then .receiving true else .idle, [], []⟩

/-- Go on with the channels from number `k` on. -/
def relisten (s : State) (recv : Bool) (k : ℕ) (conn : Connection) : State :=
  match s.channels[k]? with
  | some channel =>
    { s with task := .relistening recv k none (conn.write (Command.listen channel).sql) }
  | none => s.reconnected recv conn

end State

/-- The operation takes the next message, or error, from the connection that it reads. -/
def read (s : State) : Option State :=
  match s.task with
  | .commanding cmd firstError => match s.conn.inbound with
    | .ok (.readyForQuery _) :: rest =>
      let s := s.rest rest .idle
      some (match firstError with
        | some _ => s
        | none => { s with channels := cmd.record s.channels })
    | .ok (.errorResponse fields) :: rest =>
      some (s.rest rest (.commanding cmd (firstError <|> some fields)))
    | .ok m :: rest =>
      -- `_ => {}`
      let s := s.rest rest (.commanding cmd firstError)
      some (match notification? m with
        | some n => s.take n
        | none => s)
    | .error _ :: rest => some (s.rest rest .idle)
    | [] => none
  | .receiving recv => match s.conn.inbound with
    | .ok m :: rest => some (match notification? m with
      | some n => ((s.rest rest .idle).take n).deliver n
      | none => s.rest rest (.receiving recv))
    | .error e :: rest => some (s.rest rest (if isDisconnect e then .backingOff recv else .idle))
    | [] => none
  | .relistening recv k firstError conn => match conn.inbound with
    | .ok (.readyForQuery _) :: rest => some (match firstError with
      | some _ => { s with task := .backingOff recv }
      | none => s.relisten recv (k + 1) { conn with inbound := rest })
    | .ok (.errorResponse fields) :: rest => some { s with
        task := .relistening recv k (firstError <|> some fields) { conn with inbound := rest } }
    | .ok _ :: rest => some { s with
        task := .relistening recv k firstError { conn with inbound := rest } }
    | .error _ :: _ => some { s with task := .backingOff recv }
    | [] => none
  | _ => none

/-- One step. -/
def step (name : String → String) (s : State) : Label → Option State
  | .command cmd => match s.task with
    | .idle => some { s with conn := s.conn.write cmd.sql, task := .commanding cmd none }
    | _ => none
  | .recvEvent => match s.task with
    | .idle => some { s with task := .receiving false }
    | _ => none
  | .recv => match s.task with
    | .idle => some { s with task := .receiving true }
    | _ => none
  | .read => read s
  | .readError e =>
    if Conn.lossError e then match s.task with
      | .commanding _ _ =>
        if s.conn.lost && s.conn.inbound.isEmpty then some { s with task := .idle } else none
      | .receiving recv =>
        if s.conn.lost && s.conn.inbound.isEmpty then some { s with
          task := if isDisconnect e then .backingOff recv else .idle }
        else none
      | .relistening recv _ _ conn =>
        if conn.lost && conn.inbound.isEmpty then some { s with task := .backingOff recv } else none
      | _ => none
    else none
  | .writeError => match s.task with
    | .commanding _ _ => if s.conn.lost then some { s with task := .idle } else none
    | .relistening recv _ _ conn =>
      if conn.lost then some { s with task := .backingOff recv } else none
    | _ => none
  | .connect => match s.task with
    | .backingOff recv => some (s.relisten recv 0 .connect)
    | _ => none
  | .connectError => match s.task with
    | .backingOff _ => some s
    | _ => none
  | .server a => (s.conn.act name a).map fun conn => { s with conn }
  | .newServer a => match s.task with
    | .relistening recv k firstError conn => (conn.act name a).map fun conn =>
      { s with task := .relistening recv k firstError conn }
    | _ => none

/-- A listener as a transition system. -/
def system (name : String → String) : LTS State Label := ⟨step name⟩

/-- No command meets a notification for a subscribed channel. -/
def Heard (s : State) : Label → Prop
  | .read => match s.task, s.conn.inbound with
    | .commanding _ _, .ok m :: _ => (notification? m).all (fun n => !s.subscribed n) = true
    | _, _ => True
  | _ => True

instance (s : State) (l : Label) : Decidable (Heard s l) := by
  unfold Heard
  split
  · split <;> infer_instance
  · infer_instance

/-- The steps that leave no response behind, with a server that keeps to the protocol: the names of
channels are not cut off, and no command meets a frame that cannot be parsed. -/
def InStep (name : String → String) (s : State) : Label → Prop
  | .command cmd => cmd.Proper name
  | .read => match s.task, s.conn.inbound with
    | .commanding _ _, .error _ :: _ => False
    | _, _ => True
  | .server a | .newServer a => a.Proper
  | _ => True

instance (name : String → String) (s : State) (l : Label) : Decidable (InStep name s l) := by
  unfold InStep
  split
  · infer_instance
  · split <;> infer_instance
  all_goals infer_instance

/-- After an operation, unless the connection is lost, `channels` are the channels that the session
of the server listens to. -/
def InSync (s : State) : Prop := s.task = .idle → s.conn.lost = false →
  ∀ channel, channel ∈ s.channels ↔ channel ∈ s.conn.listening

section

variable {name : String → String} {s s' : State} {l : Label}

/-! ### What a step does -/

/-- What a step does, other than by reading. -/
inductive Trans (name : String → String) (s : State) : Label → State → Prop
  | command {cmd : Command} (task : s.task = .idle) : Trans name s (.command cmd)
      { s with conn := s.conn.write cmd.sql, task := .commanding cmd none }
  | receive {l : Label} {recv : Bool} (hl : l = .recvEvent ∨ l = .recv) (task : s.task = .idle) :
    Trans name s l { s with task := .receiving recv }
  /-- The connection is lost, and with it the operation. -/
  | fail {l : Label} {task : Task} (hl : l = .writeError ∨ ∃ e, l = .readError e)
      (lost : s.conn.lost = true) (htask : task = .idle ∨ ∃ recv, task = .backingOff recv) :
    Trans name s l { s with task }
  /-- There is no new connection, or it is lost. -/
  | retry {l : Label} {recv : Bool}
      (hl : l = .connectError ∨ l = .writeError ∨ ∃ e, l = .readError e) :
    Trans name s l { s with task := .backingOff recv }
  | connect {recv : Bool} (task : s.task = .backingOff recv) :
    Trans name s .connect (s.relisten recv 0 .connect)
  | server {a : Act} {conn : Connection} (act : s.conn.act name a = some conn) :
    Trans name s (.server a) { s with conn }
  | newServer {a : Act} {recv : Bool} {k : ℕ} {firstError : Option PgError}
      {conn conn' : Connection} (task : s.task = .relistening recv k firstError conn)
      (act : conn.act name a = some conn') :
    Trans name s (.newServer a) { s with task := .relistening recv k firstError conn' }

theorem trans_of_step (h : (system name).step s l = some s') (hl : l ≠ .read) :
    Trans name s l s' := by
  cases l with
  | read => exact absurd rfl hl
  | command cmd =>
    simp only [system, step] at h
    split at h <;> cases h
    exact .command (by assumption)
  | recvEvent =>
    simp only [system, step] at h
    split at h <;> cases h
    exact .receive (.inl rfl) (by assumption)
  | recv =>
    simp only [system, step] at h
    split at h <;> cases h
    exact .receive (.inr rfl) (by assumption)
  | readError e =>
    simp only [system, step] at h
    split at h
    case isFalse => cases h
    case isTrue =>
      split at h
      -- idle, or waiting after a failure: the operation is lost
      case h_1 =>
        split at h <;> cases h
        rename_i hlost
        exact .fail (.inr ⟨e, rfl⟩) (Bool.and_eq_true_iff.1 hlost).1 (.inl rfl)
      case h_2 recv _ =>
        split at h <;> cases h
        rename_i hlost
        refine .fail (.inr ⟨e, rfl⟩) (Bool.and_eq_true_iff.1 hlost).1 ?_
        split
        · exact .inr ⟨recv, rfl⟩
        · exact .inl rfl
      case h_3 =>
        split at h <;> cases h
        exact .retry (.inr (.inr ⟨e, rfl⟩))
      case h_4 => cases h
  | writeError =>
    simp only [system, step] at h
    split at h
    case h_1 =>
      split_ifs at h with hlost
      cases h
      exact .fail (.inl rfl) hlost (.inl rfl)
    case h_2 =>
      split_ifs at h
      cases h
      exact .retry (.inr (.inl rfl))
    case h_3 => cases h
  | connect =>
    simp only [system, step] at h
    split at h <;> cases h
    exact .connect (by assumption)
  | connectError =>
    simp only [system, step] at h
    split at h <;> cases h
    rename_i recv htask
    -- the pause after a failure begins again
    have hretry : Trans name s .connectError { s with task := .backingOff recv } :=
      .retry (.inl rfl)
    rwa [← htask] at hretry
  | server a =>
    obtain ⟨conn, hact, rfl⟩ := Option.map_eq_some_iff.1 h
    exact .server hact
  | newServer a =>
    simp only [system, step] at h
    split at h
    · rename_i htask
      obtain ⟨conn, hact, rfl⟩ := Option.map_eq_some_iff.1 h
      exact .newServer htask hact
    · cases h

/-! ### The account of notifications -/

@[simp] theorem rest_returned (inbound : List ReadResult) (task : Task) :
    (s.rest inbound task).returned = s.returned := rfl

@[simp] theorem rest_taken (inbound : List ReadResult) (task : Task) :
    (s.rest inbound task).taken = s.taken := rfl

/-- A notification that is taken off the connection and returned. -/
theorem deliver_take (n : Notification) (h : s.returned = s.taken) :
    ((s.take n).deliver n).returned = ((s.take n).deliver n).taken := by
  cases hn : s.subscribed n <;> simp_all [State.take, State.deliver, State.subscribed]

/-- One that is only taken off the connection. -/
theorem take_accounted_iff (n : Notification) (h : s.returned = s.taken) :
    (s.take n).returned = (s.take n).taken ↔ s.subscribed n = false := by
  cases hn : s.subscribed n <;> simp [State.take, hn, h]

theorem relisten_accounted (recv : Bool) (k : ℕ) (conn : Connection) (h : s.returned = s.taken) :
    (s.relisten recv k conn).returned = (s.relisten recv k conn).taken := by
  unfold State.relisten
  split
  · exact h
  · rfl

theorem read_accounted_iff (h : s.returned = s.taken) (hread : read s = some s') :
    s'.returned = s'.taken ↔ Heard s .read := by
  unfold read at hread
  unfold Heard
  cases htask : s.task <;> rw [htask] at hread <;> dsimp only at hread ⊢
  case commanding cmd firstError =>
    split at hread <;> rename_i hin
    · cases hread
      cases firstError <;> simp [hin, notification?, h]
    · cases hread
      simp [hin, notification?, h]
    · cases hread
      rename_i m rest _ _
      cases hn : notification? m with
      | none => simp [hin, hn, h]
      | some n => simp [hin, hn, take_accounted_iff, h, State.subscribed, State.rest]
    · cases hread
      simp [hin, h]
    · cases hread
  case receiving recv =>
    refine iff_of_true ?_ trivial
    split at hread <;> cases hread
    · split
      · exact deliver_take _ h
      · exact h
    · exact h
  case relistening recv k firstError conn =>
    refine iff_of_true ?_ trivial
    split at hread <;> cases hread
    · split
      · exact h
      · exact relisten_accounted _ _ _ h
    all_goals exact h
  all_goals cases hread

theorem heard_of_ne_read (hl : l ≠ .read) : Heard s l := by
  cases l with
  | read => exact absurd rfl hl
  | _ => trivial

/-- Exactly the reads of a command lose a notification. -/
theorem accounted_step (h : s.returned = s.taken) (hstep : (system name).step s l = some s') :
    s'.returned = s'.taken ↔ Heard s l := by
  by_cases hl : l = .read
  · subst hl
    exact read_accounted_iff h hstep
  · refine iff_of_true ?_ (heard_of_ne_read hl)
    cases trans_of_step hstep hl with
    | connect => exact relisten_accounted _ _ _ h
    | _ => exact h

/-! ### The responses -/

/-- The element is neither a `ReadyForQuery` nor an `ErrorResponse`. -/
def calm : ReadResult → Bool
  | .ok m => !m.isReady && !m.isError
  | .error _ => true

def isErrorResponse : ReadResult → Bool
  | .ok m => m.isError
  | .error _ => false

def Quiet (rs : List ReadResult) : Prop := ∀ r ∈ rs, calm r = true

/-- No command is under way, and the session listens to `channels`. -/
structure Synced (c : Connection) (channels : List String) : Prop where
  commands : c.commands = []
  answering : c.answering = false
  quiet : Quiet c.inbound
  listening : ∀ channel, channel ∈ c.listening ↔ channel ∈ channels

/-- The response to a command as far as it is sent: `pre` is what comes before its `ReadyForQuery`,
and has an `ErrorResponse`, unless that was read before or the command was accepted. -/
structure Answered (c : Connection) (accepted : Bool) (firstError : Option PgError)
    (pre post : List ReadResult) : Prop where
  notReady : ∀ r ∈ pre, r.isReady = false
  verdict : (firstError.isSome || pre.any isErrorResponse) = !accepted
  quiet : Quiet post
  inbound : c.answering = true ∧ c.inbound = pre ∧ post = [] ∨
    c.answering = false ∧ ∃ status, c.inbound = pre ++ .ok (.readyForQuery status) :: post

/-- A command is under way on a session that listened to `channels`: it is not executed yet, or its
response has not been read to the end. -/
inductive Awaits (c : Connection) (channels : List String) (cmd : Command)
    (firstError : Option PgError) : Prop
  | sent (commands : c.commands = [cmd.sql]) (answering : c.answering = false)
    (quiet : Quiet c.inbound) (none : firstError = none)
    (listening : ∀ channel, channel ∈ c.listening ↔ channel ∈ channels)
  | answered (accepted : Bool) (pre post : List ReadResult) (commands : c.commands = [])
    (listening : ∀ channel, channel ∈ c.listening ↔
      channel ∈ if accepted then cmd.record channels else channels)
    (answered : Answered c accepted firstError pre post)

theorem isReady_of_calm {r : ReadResult} (h : calm r = true) : r.isReady = false := by
  cases r with
  | ok m =>
    rw [calm, Bool.and_eq_true] at h
    simpa [ReadResult.isReady] using h.1
  | error e => rfl

theorem isErrorResponse_of_calm {r : ReadResult} (h : calm r = true) :
    isErrorResponse r = false := by
  cases r with
  | ok m =>
    rw [calm, Bool.and_eq_true] at h
    simpa [isErrorResponse] using h.2
  | error e => rfl

theorem mem_record {cmd : Command} {channels : List String} {channel : String} :
    channel ∈ cmd.record channels ↔ match cmd with
      | .listen ch => channel ∈ channels ∨ channel = ch
      | .unlisten ch => channel ∈ channels ∧ channel ≠ ch
      | .unlistenAll => False := by
  cases cmd with
  | listen ch =>
    simp only [Command.record]
    split_ifs with h
    · simp
    · have hmem : ch ∈ channels := by simpa using h
      exact ⟨.inl, fun h => h.elim id fun heq => heq ▸ hmem⟩
  | unlisten ch => simp [Command.record]
  | unlistenAll => simp [Command.record]

/-- The server does to the session what the listener does to its `channels`. -/
theorem mem_apply {cmd : Command} {listening channels : List String} (hcmd : cmd.Proper name)
    (h : ∀ channel, channel ∈ listening ↔ channel ∈ channels) (channel : String) :
    channel ∈ cmd.apply name listening ↔ channel ∈ cmd.record channels := by
  rw [mem_record]
  cases cmd with
  | listen ch =>
    have hname : name ch = ch := hcmd
    simp only [Command.apply, hname]
    split_ifs with hmem
    · rw [← h channel]
      exact ⟨.inl, fun h => h.elim id fun heq => heq ▸ hmem⟩
    · simp [h channel]
  | unlisten ch =>
    have hname : name ch = ch := hcmd
    simp [Command.apply, hname, h channel]
  | unlistenAll => simp [Command.apply]

/-- What can happen to a connection. -/
theorem act_cases {c c' : Connection} {a : Act} (h : c.act name a = some c') : match a with
    | .execute verdict => ∃ sql rest, c.answering = false ∧ c.commands = sql :: rest ∧
      ((∃ cmd, verdict = none ∧ parseSql sql = some cmd ∧
          c' = c.answer rest (cmd.apply name c.listening) (.commandComplete cmd.tag)) ∨
        ∃ e, verdict = some e ∧ c' = c.answer rest c.listening (.errorResponse e))
    | .ready status => c.answering = true ∧ c' = { c with
        answering := false, inbound := c.inbound ++ [.ok (.readyForQuery status)] }
    | .send m => c' = { c with inbound := c.inbound ++ [.ok m] }
    | .garble message => c' = { c with inbound := c.inbound ++ [.error (.protocol message)] }
    | .shutdown _ | .lose _ => c'.lost = true := by
  unfold Connection.act at h
  split at h
  · cases h
  cases a with
  | execute verdict =>
    dsimp only at h ⊢
    split at h
    case h_2 => cases h
    case h_1 sql rest hans hcommands =>
      refine ⟨sql, rest, hans, hcommands, ?_⟩
      split at h <;> cases h
      case h_1 cmd hparse => exact .inl ⟨cmd, rfl, hparse, rfl⟩
      case h_3 e => exact .inr ⟨e, rfl, rfl⟩
  | ready status =>
    dsimp only at h ⊢
    split at h <;> cases h
    exact ⟨by assumption, rfl⟩
  | send m => cases h; rfl
  | garble message => cases h; rfl
  | shutdown fields => cases h; rfl
  | lose n => cases h; rfl

/-- Nothing happens to a connection after it is lost. -/
theorem not_lost_of_act {c c' : Connection} {a : Act} (h : c.act name a = some c') :
    c.lost = false := by
  by_contra hlost
  simp [Connection.act, hlost] at h

theorem Quiet.nil : Quiet [] := fun _ h => by cases h

theorem Quiet.append {rs : List ReadResult} {r : ReadResult} (h : Quiet rs) (hr : calm r = true) :
    Quiet (rs ++ [r]) := fun r' hr' => by
  rcases List.mem_append.1 hr' with hr' | hr'
  · exact h r' hr'
  · rwa [List.mem_singleton.1 hr']

theorem Answered.append {c : Connection} {accepted : Bool} {firstError : Option PgError}
    {pre post : List ReadResult} {r : ReadResult} (h : Answered c accepted firstError pre post)
    (hr : calm r = true) : ∃ pre' post',
      Answered { c with inbound := c.inbound ++ [r] } accepted firstError pre' post' := by
  have hready := isReady_of_calm hr
  have herror := isErrorResponse_of_calm hr
  rcases h.inbound with ⟨hans, hin, hpost⟩ | ⟨hans, status, hin⟩
  · refine ⟨pre ++ [r], [], fun r' hr' => ?_, ?_, hpost ▸ h.quiet, .inl ⟨hans, by rw [hin], rfl⟩⟩
    · rcases List.mem_append.1 hr' with hr' | hr'
      · exact h.notReady r' hr'
      · rwa [List.mem_singleton.1 hr']
    · rw [← h.verdict]
      simp [herror]
  · exact ⟨pre, post ++ [r], h.notReady, h.verdict, h.quiet.append hr,
      .inr ⟨hans, status, by simp [hin]⟩⟩

/-- A message that no command asks for. -/
theorem Awaits.append {c : Connection} {channels : List String} {cmd : Command}
    {firstError : Option PgError} {r : ReadResult} (h : Awaits c channels cmd firstError)
    (hr : calm r = true) :
    Awaits { c with inbound := c.inbound ++ [r] } channels cmd firstError := by
  cases h with
  | sent hcommands hans hquiet hnone hlistening =>
    exact .sent hcommands hans (hquiet.append hr) hnone hlistening
  | answered accepted pre post hcommands hlistening hanswered =>
    obtain ⟨pre', post', h'⟩ := hanswered.append hr
    exact .answered accepted pre' post' hcommands hlistening h'

theorem calm_of_send {m : BackendMsg} (h : m.isReady = false ∧ m.isError = false) :
    calm (.ok m) = true := by
  simp [calm, h]

theorem Synced.act {c c' : Connection} {channels : List String} {a : Act} (h : Synced c channels)
    (ha : a.Proper) (hact : c.act name a = some c') (hlost : c'.lost = false) :
    Synced c' channels := by
  have hcases := act_cases hact
  cases a with
  | execute verdict =>
    obtain ⟨sql, rest, -, hcommands, -⟩ := hcases
    cases h.commands.symm.trans hcommands
  | ready status => cases h.answering.symm.trans hcases.1
  | send m =>
    cases hcases
    exact ⟨h.commands, h.answering, h.quiet.append (calm_of_send ha), h.listening⟩
  | garble message =>
    cases hcases
    exact ⟨h.commands, h.answering, h.quiet.append rfl, h.listening⟩
  | shutdown fields => cases hlost.symm.trans hcases
  | lose n => cases hlost.symm.trans hcases

/-- The command is executed, and its verdict sent. -/
theorem answered_answer {c : Connection} {accepted : Bool} {m : BackendMsg}
    (rest listening : List String) (h : Quiet c.inbound) (hready : m.isReady = false)
    (herror : m.isError = !accepted) :
    Answered (c.answer rest listening m) accepted none (c.inbound ++ [.ok m]) [] := by
  refine ⟨fun r hr => ?_, ?_, Quiet.nil, .inl ⟨rfl, rfl, rfl⟩⟩
  · rcases List.mem_append.1 hr with hr | hr
    · exact isReady_of_calm (h r hr)
    · rw [List.mem_singleton.1 hr]
      exact hready
  · have hnone : c.inbound.any isErrorResponse = false := List.any_eq_false.2 fun r hr => by
      simp [isErrorResponse_of_calm (h r hr)]
    simp [hnone, isErrorResponse, herror]

theorem Awaits.act {c c' : Connection} {channels : List String} {cmd : Command}
    {firstError : Option PgError} {a : Act} (hcmd : cmd.Proper name)
    (h : Awaits c channels cmd firstError) (ha : a.Proper) (hact : c.act name a = some c')
    (hlost : c'.lost = false) : Awaits c' channels cmd firstError := by
  have hcases := act_cases hact
  cases a with
  | execute verdict =>
    obtain ⟨sql, rest, hans, hcommands, hverdict⟩ := hcases
    cases h with
    | answered accepted pre post hnil => cases hnil.symm.trans hcommands
    | sent hsent _ hquiet hnone hlistening =>
      cases hsent.symm.trans hcommands
      subst hnone
      rcases hverdict with ⟨cmd', -, hparse, rfl⟩ | ⟨e, -, rfl⟩
      · cases (parseSql_sql cmd).symm.trans hparse
        exact .answered true _ [] rfl (mem_apply hcmd hlistening)
          (answered_answer _ _ hquiet rfl rfl)
      · exact .answered false _ [] rfl hlistening (answered_answer _ _ hquiet rfl rfl)
  | ready status =>
    obtain ⟨hans, rfl⟩ := hcases
    cases h with
    | sent _ hans' => cases hans'.symm.trans hans
    | answered accepted pre post hcommands hlistening hanswered =>
      rcases hanswered.inbound with ⟨-, hin, rfl⟩ | ⟨hans', -⟩
      · exact .answered accepted pre [] hcommands hlistening ⟨hanswered.notReady, hanswered.verdict,
          hanswered.quiet, .inr ⟨rfl, status, by rw [hin]⟩⟩
      · cases hans'.symm.trans hans
  | send m =>
    cases hcases
    exact h.append (calm_of_send ha)
  | garble message =>
    cases hcases
    exact h.append rfl
  | shutdown fields => cases hlost.symm.trans hcases
  | lose n => cases hlost.symm.trans hcases

/-- A command is written when none is under way. -/
theorem Synced.write {c : Connection} {channels : List String} (h : Synced c channels)
    (cmd : Command) : Awaits (c.write cmd.sql) channels cmd none :=
  .sent (by rw [Connection.write, h.commands]; rfl) h.answering h.quiet rfl h.listening

/-- The loop reads a message of the response, or one that comes before it. -/
theorem Answered.read {c : Connection} {accepted : Bool} {firstError : Option PgError}
    {pre post rest : List ReadResult} {r : ReadResult}
    (h : Answered c accepted firstError pre post) (firstError' : Option PgError)
    (hin : c.inbound = r :: rest) (hr : r.isReady = false) (hverdict : ∀ tail : List ReadResult,
      (firstError.isSome || (isErrorResponse r || tail.any isErrorResponse)) = !accepted →
        (firstError'.isSome || tail.any isErrorResponse) = !accepted) :
    ∃ pre', Answered { c with inbound := rest } accepted firstError' pre' post := by
  cases pre with
  | nil =>
    -- the next message is the `ReadyForQuery` of the response
    rcases h.inbound with ⟨-, hnil, -⟩ | ⟨-, status, hready⟩
    · cases hin.symm.trans hnil
    · cases hin.symm.trans hready
      cases hr
  | cons r' pre =>
    have htail : ∀ r'' ∈ pre, r''.isReady = false := fun r'' hr'' =>
      h.notReady r'' (List.mem_cons_of_mem _ hr'')
    have hpre := h.verdict
    rcases h.inbound with ⟨hans, heq, hpost⟩ | ⟨hans, status, heq⟩ <;>
      obtain ⟨rfl, rfl⟩ := List.cons.inj (hin.symm.trans heq) <;>
      rw [List.any_cons] at hpre
    · exact ⟨rest, htail, hverdict _ hpre, h.quiet, .inl ⟨hans, rfl, hpost⟩⟩
    · exact ⟨pre, htail, hverdict _ hpre, h.quiet, .inr ⟨hans, status, rfl⟩⟩

theorem Quiet.head {rs rest : List ReadResult} {r : ReadResult} (h : Quiet rs)
    (hin : rs = r :: rest) : calm r = true ∧ Quiet rest := by
  subst hin
  exact ⟨h r List.mem_cons_self, fun r' hr' => h r' (List.mem_cons_of_mem _ hr')⟩

section

variable {c : Connection} {channels : List String} {cmd : Command} {firstError : Option PgError}
  {rest : List ReadResult}

/-- The loop reads a message that it has no use for. -/
theorem Awaits.skip {r : ReadResult} (h : Awaits c channels cmd firstError)
    (hin : c.inbound = r :: rest) (hr : calm r = true) :
    Awaits { c with inbound := rest } channels cmd firstError := by
  cases h with
  | sent hcommands hans hquiet hnone hlistening =>
    exact .sent hcommands hans (hquiet.head hin).2 hnone hlistening
  | answered accepted pre post hcommands hlistening h =>
    have herror := isErrorResponse_of_calm hr
    obtain ⟨pre', h'⟩ := h.read firstError hin (isReady_of_calm hr) fun tail => by simp [herror]
    exact .answered accepted pre' post hcommands hlistening h'

/-- The loop reads an error. -/
theorem Awaits.error {fields : PgError} (h : Awaits c channels cmd firstError)
    (hin : c.inbound = .ok (.errorResponse fields) :: rest) :
    Awaits { c with inbound := rest } channels cmd (firstError <|> some fields) := by
  cases h with
  | sent hcommands hans hquiet hnone hlistening => cases (hquiet.head hin).1
  | answered accepted pre post hcommands hlistening h =>
    obtain ⟨pre', h'⟩ := h.read (firstError <|> some fields) hin rfl fun tail => by
      simp [isErrorResponse, BackendMsg.isError]
    exact .answered accepted pre' post hcommands hlistening h'

/-- The loop reads the end of the response. -/
theorem Awaits.ready {status : UInt8} (h : Awaits c channels cmd firstError)
    (hin : c.inbound = .ok (.readyForQuery status) :: rest) :
    Synced { c with inbound := rest } (match firstError with
      | some _ => channels
      | none => cmd.record channels) := by
  cases h with
  | sent hcommands hans hquiet hnone hlistening => cases (hquiet.head hin).1
  | answered accepted pre post hcommands hlistening h =>
    cases pre with
    | cons r pre =>
      have hready := h.notReady r List.mem_cons_self
      rcases h.inbound with ⟨-, heq, -⟩ | ⟨-, status', heq⟩ <;>
        cases hin.symm.trans heq <;> cases hready
    | nil =>
      have hverdict := h.verdict
      rcases h.inbound with ⟨-, heq, -⟩ | ⟨hans, status', heq⟩ <;> cases hin.symm.trans heq
      refine ⟨hcommands, hans, h.quiet, ?_⟩
      cases firstError with
      | some e =>
        obtain rfl : accepted = false := by simpa using hverdict.symm
        exact hlistening
      | none =>
        obtain rfl : accepted = true := by simpa using hverdict.symm
        exact hlistening

end

/-! ### The channels -/

/-- The connection that is read agrees with the listener, up to the command that is under way. -/
def Standing (name : String → String) (s : State) : Prop :=
  match s.task with
  | .idle | .receiving _ => s.conn.lost = false → Synced s.conn s.channels
  | .commanding cmd firstError =>
    cmd.Proper name ∧ (s.conn.lost = false → Awaits s.conn s.channels cmd firstError)
  | .backingOff _ => True
  | .relistening _ k firstError conn => ∃ channel, s.channels[k]? = some channel ∧
    (conn.lost = false → Awaits conn (s.channels.take k) (.listen channel) firstError)

/-- The invariant of the steps that leave no response behind. -/
structure Inv (name : String → String) (s : State) : Prop where
  proper : ∀ channel ∈ s.channels, name channel = channel
  standing : Standing name s

theorem Synced.congr {c : Connection} {channels channels' : List String} (h : Synced c channels)
    (hmem : ∀ channel, channel ∈ channels ↔ channel ∈ channels') : Synced c channels' :=
  ⟨h.commands, h.answering, h.quiet, fun channel => (h.listening channel).trans (hmem channel)⟩

theorem Inv.inSync (h : Inv name s) : InSync s := by
  intro htask hlost channel
  have hstanding := h.standing
  rw [Standing, htask] at hstanding
  exact ((hstanding hlost).listening channel).symm

theorem proper_record {cmd : Command} {channels : List String} (hcmd : cmd.Proper name)
    (h : ∀ channel ∈ channels, name channel = channel) :
    ∀ channel ∈ cmd.record channels, name channel = channel := by
  intro channel hmem
  rw [mem_record] at hmem
  cases cmd with
  | listen ch =>
    rcases hmem with hmem | rfl
    · exact h channel hmem
    · exact hcmd
  | unlisten ch => exact h channel hmem.1
  | unlistenAll => cases hmem

/-- The next `LISTEN` of a reconnection, or its end. -/
theorem Inv.relisten (h : Inv name s) (recv : Bool) (k : ℕ) {conn : Connection}
    (hconn : conn.lost = false → Synced conn (s.channels.take k)) :
    Inv name (s.relisten recv k conn) := by
  unfold State.relisten
  split
  case h_1 channel hk =>
    exact ⟨h.proper, channel, hk, fun hlost => (hconn hlost).write (.listen channel)⟩
  case h_2 hk =>
    have hall : s.channels.take k = s.channels :=
      List.take_of_length_le (List.getElem?_eq_none_iff.1 hk)
    rw [hall] at hconn
    refine ⟨h.proper, ?_⟩
    cases recv <;> exact hconn

theorem Inv.take (h : Inv name s) (n : Notification) : Inv name (s.take n) := by
  unfold State.take
  split
  · exact ⟨h.proper, h.standing⟩
  · exact h

theorem Inv.deliver (h : Inv name s) (n : Notification) : Inv name (s.deliver n) := by
  unfold State.deliver
  split
  · exact ⟨h.proper, h.standing⟩
  · exact h

/-- The channels after the next `LISTEN` of a reconnection. -/
theorem mem_record_take {channels : List String} {k : ℕ} {ch : String}
    (hk : channels[k]? = some ch) (channel : String) :
    channel ∈ (Command.listen ch).record (channels.take k) ↔ channel ∈ channels.take (k + 1) := by
  rw [mem_record, List.take_add_one, hk]
  simp

theorem calm_of_ne {m : BackendMsg} (hready : ∀ status, m ≠ .readyForQuery status)
    (herror : ∀ fields, m ≠ .errorResponse fields) : calm (.ok m) = true := by
  cases m with
  | readyForQuery status => exact (hready status rfl).elim
  | errorResponse fields => exact (herror fields rfl).elim
  | _ => rfl

/-- The loop of a command reads on. -/
theorem Inv.readCommanding {cmd : Command} {firstError : Option PgError} (h : Inv name s)
    (htask : s.task = .commanding cmd firstError) (hin : InStep name s .read)
    (hread : read s = some s') : Inv name s' := by
  have hstanding := h.standing
  simp only [Standing, htask] at hstanding
  obtain ⟨hcmd, hawaits⟩ := hstanding
  simp only [Listener.read, htask] at hread
  split at hread <;> rename_i hinbound
  · -- the end of the response
    cases hread
    cases firstError with
    | some e => exact ⟨h.proper, fun hlost => (hawaits hlost).ready hinbound⟩
    | none => exact ⟨proper_record hcmd h.proper, fun hlost => (hawaits hlost).ready hinbound⟩
  · cases hread
    exact ⟨h.proper, hcmd, fun hlost => (hawaits hlost).error hinbound⟩
  · cases hread
    rename_i m rest hready herror
    have hcalm := calm_of_ne hready herror
    have hskip : Inv name (s.rest rest (.commanding cmd firstError)) :=
      ⟨h.proper, hcmd, fun hlost => (hawaits hlost).skip hinbound hcalm⟩
    cases notification? m with
    | none => exact hskip
    | some n => exact hskip.take n
  · simp only [InStep, htask, hinbound] at hin
  · cases hread

/-- The loop of `recv_event` reads on. -/
theorem Inv.readReceiving {recv : Bool} (h : Inv name s) (htask : s.task = .receiving recv)
    (hread : read s = some s') : Inv name s' := by
  have hstanding := h.standing
  simp only [Standing, htask] at hstanding
  -- between two commands there are only messages that no command asks for
  have hrest : ∀ {r rest}, s.conn.inbound = r :: rest → s.conn.lost = false →
      Synced { s.conn with inbound := rest } s.channels := fun hinbound hlost =>
    let hsynced := hstanding hlost
    ⟨hsynced.commands, hsynced.answering, (hsynced.quiet.head hinbound).2, hsynced.listening⟩
  simp only [Listener.read, htask] at hread
  split at hread <;> rename_i hinbound <;> cases hread
  · rename_i m rest
    cases notification? m with
    | none => exact ⟨h.proper, hrest hinbound⟩
    | some n =>
      have hidle : Inv name (s.rest rest .idle) := ⟨h.proper, hrest hinbound⟩
      exact (hidle.take n).deliver n
  · refine ⟨h.proper, ?_⟩
    split
    · trivial
    · exact hrest hinbound

/-- The loop of a `LISTEN` on the new connection reads on. -/
theorem Inv.readRelistening {recv : Bool} {k : ℕ} {firstError : Option PgError}
    {conn : Connection} (h : Inv name s) (htask : s.task = .relistening recv k firstError conn)
    (hread : read s = some s') : Inv name s' := by
  have hstanding := h.standing
  simp only [Standing, htask] at hstanding
  obtain ⟨channel, hk, hawaits⟩ := hstanding
  simp only [Listener.read, htask] at hread
  split at hread <;> rename_i hinbound <;> cases hread
  · cases firstError with
    | some e => exact ⟨h.proper, trivial⟩
    | none =>
      exact h.relisten recv (k + 1) fun hlost =>
        ((hawaits hlost).ready hinbound).congr (mem_record_take hk)
  · exact ⟨h.proper, channel, hk, fun hlost => (hawaits hlost).error hinbound⟩
  · rename_i m rest hready herror
    have hcalm := calm_of_ne hready herror
    exact ⟨h.proper, channel, hk, fun hlost => (hawaits hlost).skip hinbound hcalm⟩
  · exact ⟨h.proper, trivial⟩

theorem Inv.read (h : Inv name s) (hin : InStep name s .read) (hread : read s = some s') :
    Inv name s' := by
  cases htask : s.task with
  | commanding cmd firstError => exact h.readCommanding htask hin hread
  | receiving recv => exact h.readReceiving htask hread
  | relistening recv k firstError conn => exact h.readRelistening htask hread
  | idle | backingOff =>
    rw [Listener.read, htask] at hread
    cases hread

/-- A connection that is lost has nothing to agree with. -/
theorem Inv.lost (h : Inv name s) (hlost : s.conn.lost = true) {task : Task}
    (htask : task = .idle ∨ ∃ recv, task = .backingOff recv) : Inv name { s with task } := by
  refine ⟨h.proper, ?_⟩
  rcases htask with rfl | ⟨recv, rfl⟩
  · exact fun hlive => by cases hlost.symm.trans hlive
  · trivial

/-- What happens to the connection. -/
theorem Inv.server {a : Act} {conn : Connection} (h : Inv name s) (ha : a.Proper)
    (hact : s.conn.act name a = some conn) : Inv name { s with conn } := by
  have hlive := not_lost_of_act hact
  have hstanding := h.standing
  refine ⟨h.proper, ?_⟩
  cases htask : s.task with
  | idle | receiving recv =>
    simp only [Standing, htask] at hstanding ⊢
    exact (hstanding hlive).act ha hact
  | commanding cmd firstError =>
    simp only [Standing, htask] at hstanding ⊢
    exact ⟨hstanding.1, (hstanding.2 hlive).act hstanding.1 ha hact⟩
  | backingOff recv => simp only [Standing]
  | relistening recv k firstError conn' =>
    simp only [Standing, htask] at hstanding ⊢
    exact hstanding

/-- What happens to the new connection. -/
theorem Inv.newServer {a : Act} {recv : Bool} {k : ℕ} {firstError : Option PgError}
    {conn conn' : Connection} (h : Inv name s) (ha : a.Proper)
    (htask : s.task = .relistening recv k firstError conn) (hact : conn.act name a = some conn') :
    Inv name { s with task := .relistening recv k firstError conn' } := by
  have hstanding := h.standing
  simp only [Standing, htask] at hstanding
  obtain ⟨channel, hk, hawaits⟩ := hstanding
  have hproper : (Command.listen channel).Proper name := h.proper channel (List.mem_of_getElem? hk)
  exact ⟨h.proper, channel, hk, (hawaits (not_lost_of_act hact)).act hproper ha hact⟩

theorem Inv.step (h : Inv name s) (hin : InStep name s l)
    (hstep : (system name).step s l = some s') : Inv name s' := by
  by_cases hl : l = .read
  · subst hl
    exact h.read hin hstep
  have hstanding := h.standing
  cases trans_of_step hstep hl with
  | @command cmd htask =>
    simp only [Standing, htask] at hstanding
    exact ⟨h.proper, hin, fun hlost => (hstanding hlost).write cmd⟩
  | receive _ htask =>
    simp only [Standing, htask] at hstanding
    exact ⟨h.proper, hstanding⟩
  | fail _ hlost htask => exact h.lost hlost htask
  | retry => exact ⟨h.proper, trivial⟩
  | connect =>
    exact h.relisten _ 0 fun _ => ⟨rfl, rfl, Quiet.nil, by simp [Connection.connect]⟩
  | server hact => exact h.server hin hact
  | newServer htask hact => exact h.newServer hin htask hact

theorem inv_init : Inv name .init :=
  ⟨fun _ h => (List.not_mem_nil h).elim, fun _ => ⟨rfl, rfl, Quiet.nil, fun _ => Iff.rfl⟩⟩

end

/-- **When the listener is faithful.**  All along a run, the notifications for subscribed channels
that were taken off the connection since the last `Reconnected` are those that `recv_event` has
returned, in their order, exactly if no command of the run meets one.  In a run whose steps leave no
response behind, the listener knows the channels of its connection after every operation. -/
theorem listener_faithful (name : String → String) :
    (∀ ls s, (system name).exec .init ls = some s →
      ((system name).Along (fun s => s.returned = s.taken) .init ls ↔
        ((system name).guard Heard).exec .init ls = some s)) ∧
      ∀ s, ((system name).guard (InStep name)).Reachable .init s → InSync s := by
  refine ⟨fun ls s h => ?_, fun s h => ?_⟩
  · exact LTS.along_iff_exec_guard (R := fun _ => True) (fun _ _ _ h _ => h)
      (fun _ _ _ _ haccount hstep => accounted_step haccount hstep) trivial rfl h
  · have hinv : Inv name s :=
      h.guard_invariant inv_init fun _ _ _ hs hin hstep => hs.step hin hstep
    exact hinv.inSync

/-- `listen`, up to its `ReadyForQuery`. -/
def listenRun (channel : String) : List Label :=
  [.command (.listen channel), .server (.execute none), .server (.ready (byte 'I')), .read, .read]

/-- A notification for a channel. -/
def notify (channel : String) : Label :=
  .server (.send (.notificationResponse 7 channel "42"))

/-- A notification between two commands is returned by `recv_event`. -/
def heardRun : List Label :=
  listenRun "jobs" ++ [notify "jobs", .recvEvent, .read] ++ listenRun "news"

theorem listener_faithful_heardRun : ∃ s, (system id).exec .init heardRun = some s ∧
    (system id).Along (fun s => s.returned = s.taken) .init heardRun ∧
      s.returned = [⟨7, "jobs", "42"⟩] ∧ s.channels = ["jobs", "news"] ∧ InSync s := by
  have h : (system id).exec .init heardRun = some _ := rfl
  have hheard : ((system id).guard Heard).exec .init heardRun = some _ := rfl
  have hin : ((system id).guard (InStep id)).exec .init heardRun = some _ := rfl
  obtain ⟨hrun, hsync⟩ := listener_faithful id
  exact ⟨_, h, (hrun _ _ h).2 hheard, rfl, rfl, hsync _ (LTS.reachable_of_exec hin)⟩

/-- The notification arrives in the response to the second command. -/
def unheardRun : List Label :=
  listenRun "jobs" ++ [.command (.listen "news"), .server (.execute none), notify "jobs",
    .server (.ready (byte 'I')), .read, .read, .read]

/-- The response to a `LISTEN` that was executed has a frame that cannot be parsed. -/
def garbledRun : List Label :=
  [.command (.listen "jobs"), .server (.execute none), .server (.garble "bad frame"), .read, .read]

/-- Both commands of the first run succeed, and the notification is gone.  After the second run the
session listens to a channel that the listener does not know. -/
theorem notification_lost :
    (∃ s, (system id).Reachable .init s ∧ s.task = .idle ∧ s.conn.lost = false ∧
      s.conn.inbound = [] ∧ s.channels = ["jobs", "news"] ∧ s.taken = [⟨7, "jobs", "42"⟩] ∧
        s.returned = []) ∧
      ∃ s, (system id).Reachable .init s ∧ s.channels = [] ∧ s.conn.listening = ["jobs"] ∧
        ¬InSync s := by
  have hlost : (system id).exec .init unheardRun = some _ := rfl
  have hgarbled : (system id).exec .init garbledRun = some _ := rfl
  refine ⟨⟨_, LTS.reachable_of_exec hlost, rfl, rfl, rfl, rfl, rfl, rfl⟩,
    _, LTS.reachable_of_exec hgarbled, rfl, rfl, fun hsync => ?_⟩
  cases (hsync rfl rfl "jobs").2 List.mem_cons_self

end Resolute.Listener
