import Resolute.Client.ConnString
import Resolute.LTS.Conversation
import Resolute.Sql.Quoting

/-!
# Databases that are created and dropped

`create_database` and `drop_database` put the name that a connection string ends in between quotes,
and send the text to the maintenance database; `TestDb` does the same with a name of its own.  The
name may be any text.  The server reads what it is sent by the lexical rules of SQL, and a text
that is none of the commands below may do anything (`Request.Reads`, `Answers`); other clients
create and drop databases at the same time, and a response may get lost.

Each call has a plan: its commands, each on the database it was given (`Call.plan`).  Whatever the
name, the server carries out nothing but the plan (`admin_faithful`).
-/

namespace Resolute.Admin

/-! ### The client -/

/-- A request that is waited for. -/
inductive Request where
  /-- `WireConn::connect`. -/
  | connect (addr user password database : String)
  /-- A `Query` message. -/
  | simple (sql : String)
  deriving DecidableEq, Repr

abbrev Reply : Type := Except PgWireError (List RawRow)

abbrev Client (α : Type) : Type := Conversation Request Reply TypedError α

/-- A request whose error is returned. -/
def request (r : Request) : Client (List RawRow) := .ask r fun reply => .done (reply.mapError .wire)

/-- `str::replace` of a quote by two. -/
def replaceQuote (q : Char) (s : String) : String := String.ofList (Sql.double q s.toList)

/-- The text of the lookup in `create_database`. -/
def lookupSql (database : String) : String :=
  let database := replaceQuote Sql.quote database
  s!"SELECT 1 FROM pg_database WHERE datname = '{database}'"

def createSql (database : String) : String :=
  let database := replaceQuote Sql.dquote database
  s!"CREATE DATABASE \"{database}\""

def terminateSql (database : String) : String :=
  let database := replaceQuote Sql.quote database
  "SELECT pg_terminate_backend(pid) FROM pg_stat_activity " ++
    s!"WHERE datname = '{database}' AND pid != pg_backend_pid()"

def dropSql (database : String) : String :=
  let database := replaceQuote Sql.dquote database
  s!"DROP DATABASE IF EXISTS \"{database}\""

/-- The target of a connection string, or the error of the calls. -/
def target (databaseUrl : String) : Client ConnTarget :=
  match parseConnectionString databaseUrl with
  | some t => pure t
  | none => .fail (.config "invalid database URL")

/-- `create_database`. -/
def createDatabase (databaseUrl : String) : Client Bool := do
  let t ← target databaseUrl
  let _ ← request (.connect s!"{t.host}:{t.port}" t.user t.password "postgres")
  let rows ← request (.simple (lookupSql t.database))
  if !rows.isEmpty then pure false
  else do
    let _ ← request (.simple (createSql t.database))
    pure true

/-- `drop_database`. -/
def dropDatabase (databaseUrl : String) (force : Bool) : Client Unit := do
  let t ← target databaseUrl
  let _ ← request (.connect s!"{t.host}:{t.port}" t.user t.password "postgres")
  if force then
    let _ ← request (.simple (terminateSql t.database))
  let _ ← request (.simple (dropSql t.database))
  pure ()

/-- `Client::simple_query`, which does not see an `ErrorResponse`. -/
def simpleQuery (sql : String) : Client Unit :=
  .ask (.simple sql) fun
    | .ok _ | .error (.pg _) => pure ()
    | .error e => .fail (.wire e)

/-- `TestDb`. -/
structure TestDb where
  addr : String
  user : String
  password : String
  database : String
  deriving DecidableEq, Repr

namespace TestDb

/-- `TestDb::create`, at a time in nanoseconds. -/
def create (addr user password : String) (nanos : ℕ) : Client TestDb := do
  let database := s!"resolute_test_{nanos}"
  let _ ← request (.connect addr user password "postgres")
  simpleQuery (createSql database)
  pure { addr, user, password, database }

/-- `TestDb::drop_db`. -/
def dropDb (db : TestDb) : Client Unit := do
  let _ ← request (.connect db.addr db.user db.password "postgres")
  (simpleQuery (terminateSql db.database)).attempt (fun _ => pure ()) fun _ => pure ()
  simpleQuery (dropSql db.database)
  pure ()

end TestDb

/-! ### The server -/

/-- What the server can be asked to do; the names are as they were written. -/
inductive Command where
  | connect (addr user password database : String)
  /-- Is there a database? -/
  | lookup (name : List Char)
  | create (name : List Char)
  /-- End the other sessions of a database. -/
  | terminate (name : List Char)
  | drop (name : List Char)
  deriving DecidableEq, Repr

/-- A character that is a lexeme of its own. -/
def symbol (c : Char) : Sql.Lexeme := ⟨.other, [c]⟩

open Sql in
/-- The lexemes of a command, without white space. -/
def Command.lexemes : Command → Option (List Lexeme)
  | connect .. => none
  | lookup name => some
      [word "SELECT", ⟨.number, ['1']⟩, word "FROM", word "pg_database", word "WHERE",
        word "datname", symbol '=', literal name]
  | create name => some [word "CREATE", word "DATABASE", delimited name]
  | terminate name => some
      [word "SELECT", word "pg_terminate_backend", symbol '(', word "pid", symbol ')',
        word "FROM", word "pg_stat_activity", word "WHERE", word "datname", symbol '=',
        literal name, word "AND", word "pid", symbol '!', symbol '=', word "pg_backend_pid",
        symbol '(', symbol ')']
  | drop name => some
      [word "DROP", word "DATABASE", word "IF", word "EXISTS", delimited name]

/-- The server reads a request as a command. -/
def Request.Reads : Request → Command → Prop
  | .connect addr user password database, c => c = .connect addr user password database
  | .simple sql, c => some ((Sql.lex sql.toList).filter (·.kind ≠ .space)) = c.lexemes

/-- The first characters of a name, up to a number of bytes. -/
def clip : (budget : ℕ) → List Char → List Char
  | budget, c :: cs => if c.utf8Size ≤ budget then c :: clip (budget - c.utf8Size) cs else []
  | _, [] => []

/-- The database that a name stands for; PostgreSQL cuts names off after 63 bytes. -/
def named (name : List Char) : List Char := clip 63 name

/-- A command that was carried out, with whether the database was there. -/
structure Event where
  command : Command
  found : Bool
  deriving DecidableEq, Repr

/-- The databases, and what was carried out for the client. -/
structure Cluster where
  databases : List (List Char)
  log : List Event
  deriving DecidableEq, Repr

namespace Cluster

def record (x : Cluster) (command : Command) (found : Bool) : Cluster :=
  { x with log := x.log ++ [⟨command, found⟩] }

/-- Other clients create and drop databases. -/
def Others (x y : Cluster) : Prop := y.log = x.log

end Cluster

/-- The server carries a command out. -/
inductive CarriedOut (x : Cluster) : Command → List RawRow → Cluster → Prop
  | connect {addr user password database} :
    CarriedOut x (.connect addr user password database) []
      (x.record (.connect addr user password database) true)
  | found {name row} (h : named name ∈ x.databases) :
    CarriedOut x (.lookup name) [row] (x.record (.lookup name) true)
  | missing {name} (h : named name ∉ x.databases) :
    CarriedOut x (.lookup name) [] (x.record (.lookup name) false)
  | create {name} (h : named name ∉ x.databases) (hne : name ≠ []) :
    CarriedOut x (.create name) []
      { x.record (.create name) false with databases := named name :: x.databases }
  | terminate {name rows} :
    CarriedOut x (.terminate name) rows
      (x.record (.terminate name) (decide (named name ∈ x.databases)))
  | drop {name} (hne : name ≠ []) :
    CarriedOut x (.drop name) []
      { x.record (.drop name) (decide (named name ∈ x.databases)) with
        databases := x.databases.filter (· ≠ named name) }

/-- The text is cut off at a NUL, and refused. -/
def Request.hasNul : Request → Bool
  | .connect .. => false
  | .simple sql => sql.toList.contains (Char.ofNat 0)

/-- What becomes of a request, with what other clients do before and after. -/
inductive Answers (x : Cluster) (q : Request) : Reply → Cluster → Prop
  | carriedOut {c rows y y' z} (hnul : q.hasNul = false) (hreads : q.Reads c) (hx : x.Others y)
      (h : CarriedOut y c rows y') (hy' : y'.Others z) : Answers x q (.ok rows) z
  | lost {c rows y y' z e} (hnul : q.hasNul = false) (hreads : q.Reads c) (hx : x.Others y)
      (h : CarriedOut y c rows y') (hy' : y'.Others z) : Answers x q (.error e) z
  | failed {e z} (hx : x.Others z) : Answers x q (.error e) z
  /-- It is no command that is known here, so that nothing is known of it. -/
  | unread {r z} (hnul : q.hasNul = false) (hreads : ∀ c, ¬q.Reads c) : Answers x q r z

/-! ### What a call is to do -/

/-- The calls. -/
inductive Call where
  | createDatabase (databaseUrl : String)
  | dropDatabase (databaseUrl : String) (force : Bool)
  | createTestDb (addr user password : String) (nanos : ℕ)
  | dropTestDb (db : TestDb)
  deriving DecidableEq, Repr

/-- What they return. -/
inductive Result where
  | created (new : Bool)
  | dropped
  | testDb (db : TestDb)
  deriving DecidableEq, Repr

/-- A call. -/
def Call.start : Call → Client Result
  | createDatabase databaseUrl => do
    let new ← Admin.createDatabase databaseUrl
    pure (.created new)
  | dropDatabase databaseUrl force => do
    let _ ← Admin.dropDatabase databaseUrl force
    pure .dropped
  | createTestDb addr user password nanos => do
    let db ← TestDb.create addr user password nanos
    pure (.testDb db)
  | dropTestDb db => do
    let _ ← db.dropDb
    pure .dropped

/-- The commands of a call, in order. -/
def Call.plan : Call → List Command
  | createDatabase databaseUrl =>
    match parseConnectionString databaseUrl with
    | none => []
    | some t =>
      [.connect s!"{t.host}:{t.port}" t.user t.password "postgres", .lookup t.database.toList,
        .create t.database.toList]
  | dropDatabase databaseUrl force =>
    match parseConnectionString databaseUrl with
    | none => []
    | some t =>
      .connect s!"{t.host}:{t.port}" t.user t.password "postgres" ::
        ((if force then [.terminate t.database.toList] else []) ++ [.drop t.database.toList])
  | createTestDb addr user password nanos =>
    [.connect addr user password "postgres", .create s!"resolute_test_{nanos}".toList]
  | dropTestDb db =>
    [.connect db.addr db.user db.password "postgres", .terminate db.database.toList,
      .drop db.database.toList]

/-- What a result says about the events of a call.  `TestDb` does not see the errors of the server,
so its results say nothing. -/
def Call.Meets (call : Call) (r : Except TypedError Result) (events : List Event) : Prop :=
  match call, r with
  | createDatabase _, .ok (.created true) =>
    events.map Event.command = call.plan ∧ events.getLast?.map Event.found = some false
  | createDatabase _, .ok (.created false) =>
    events.map Event.command = call.plan.dropLast ∧ events.getLast?.map Event.found = some true
  | dropDatabase .., .ok _ => events.map Event.command = call.plan
  | _, _ => True

/-! ### The texts are read as the commands -/

theorem reads_connect (addr user password database : String) :
    (Request.connect addr user password database).Reads (.connect addr user password database) :=
  rfl

section

variable (d : String)

theorem toList_replaceQuote (q : Char) : (replaceQuote q d).toList = Sql.double q d.toList :=
  String.toList_ofList

/-- A text with a quoted name in it: the lexemes before it, the name, and those behind it. -/
theorem lex_between {q : Char} {l : Sql.Lexeme} {ls : List Sql.Lexeme} {a b : String}
    {t post : List Char} (htext : l.text = q :: Sql.double q d.toList ++ [q])
    (hlex : ∀ rest : List Char, rest.head? ≠ some q →
      Sql.lex (l.text ++ rest) = l :: Sql.lex rest)
    (ha : a.toList = t ++ [q]) (hb : b.toList = q :: post)
    (ht : Sql.lex t = ls ++ [Sql.space])
    (hafter : Sql.State.other.after (ls ++ [Sql.space]) = .other) (hpost : post.head? ≠ some q) :
    Sql.lex (a ++ replaceQuote q d ++ b).toList = ls ++ Sql.space :: l :: Sql.lex post := by
  have hsplit : (a ++ replaceQuote q d ++ b).toList = t ++ (l.text ++ post) := by
    rw [String.toList_append, String.toList_append, toList_replaceQuote, ha, hb, htext]
    simp
  rw [hsplit, Sql.lex_append ht hafter, hlex post hpost]

theorem reads_lookup : (Request.simple (lookupSql d)).Reads (.lookup d.toList) := by
  have hlex : Sql.lex (lookupSql d).toList =
      [Sql.word "SELECT", Sql.space, ⟨.number, ['1']⟩, Sql.space, Sql.word "FROM", Sql.space,
        Sql.word "pg_database", Sql.space, Sql.word "WHERE", Sql.space, Sql.word "datname",
        Sql.space, symbol '='] ++ Sql.space :: Sql.literal d.toList :: Sql.lex [] :=
    lex_between d rfl (fun _ h => Sql.lex_literal h d.toList)
      (a := "SELECT 1 FROM pg_database WHERE datname = '") (b := "'")
      (t := "SELECT 1 FROM pg_database WHERE datname = ".toList)
      rfl rfl (by decide +kernel) rfl (by decide)
  rw [Request.Reads, hlex]
  rfl

theorem reads_create : (Request.simple (createSql d)).Reads (.create d.toList) := by
  have hlex : Sql.lex (createSql d).toList =
      [Sql.word "CREATE", Sql.space, Sql.word "DATABASE"] ++
        Sql.space :: Sql.delimited d.toList :: Sql.lex [] :=
    lex_between d rfl (fun _ h => Sql.lex_delimited h d.toList)
      (a := "CREATE DATABASE \"") (b := "\"") (t := "CREATE DATABASE ".toList)
      rfl rfl rfl rfl (by decide)
  rw [Request.Reads, hlex]
  rfl

theorem reads_terminate : (Request.simple (terminateSql d)).Reads (.terminate d.toList) := by
  have hselect : Sql.lex "SELECT pg_terminate_backend(pid) FROM pg_stat_activity ".toList =
      [Sql.word "SELECT", Sql.space, Sql.word "pg_terminate_backend", symbol '(', Sql.word "pid",
        symbol ')', Sql.space, Sql.word "FROM", Sql.space, Sql.word "pg_stat_activity"] ++
        [Sql.space] := by
    decide +kernel
  have hwhere : Sql.lex ("WHERE datname = '" ++ replaceQuote Sql.quote d ++
        "' AND pid != pg_backend_pid()").toList =
      [Sql.word "WHERE", Sql.space, Sql.word "datname", Sql.space, symbol '='] ++
        Sql.space :: Sql.literal d.toList :: Sql.lex " AND pid != pg_backend_pid()".toList :=
    lex_between d rfl (fun _ h => Sql.lex_literal h d.toList) (t := "WHERE datname = ".toList)
      rfl rfl rfl rfl (by decide)
  have htext : (terminateSql d).toList =
      "SELECT pg_terminate_backend(pid) FROM pg_stat_activity ".toList ++
        ("WHERE datname = '" ++ replaceQuote Sql.quote d ++
          "' AND pid != pg_backend_pid()").toList :=
    String.toList_append
  rw [Request.Reads, htext, Sql.lex_append hselect rfl, hwhere]
  rfl

theorem reads_drop : (Request.simple (dropSql d)).Reads (.drop d.toList) := by
  have hlex : Sql.lex (dropSql d).toList =
      [Sql.word "DROP", Sql.space, Sql.word "DATABASE", Sql.space, Sql.word "IF", Sql.space,
        Sql.word "EXISTS"] ++ Sql.space :: Sql.delimited d.toList :: Sql.lex [] :=
    lex_between d rfl (fun _ h => Sql.lex_delimited h d.toList)
      (a := "DROP DATABASE IF EXISTS \"") (b := "\"")
      (t := "DROP DATABASE IF EXISTS ".toList) rfl rfl rfl rfl (by decide)
  rw [Request.Reads, hlex]
  rfl

end

/-! ### A request is answered -/

section

variable {x y z : Cluster} {q : Request} {c c' : Command} {r : Reply} {rows : List RawRow}

theorem literal_injective {t t' : List Char} (h : Sql.literal t = Sql.literal t') : t = t' := by
  rw [← Sql.content_literal t, h, Sql.content_literal]

theorem delimited_injective {t t' : List Char} (h : Sql.delimited t = Sql.delimited t') :
    t = t' := by
  rw [← Sql.content_delimited t, h, Sql.content_delimited]

theorem Command.lexemes_injective (h : c.lexemes = c'.lexemes) (hsome : c.lexemes ≠ none) :
    c = c' := by
  -- the words tell the kinds apart, and within a kind the name is at one position
  have hat (i : ℕ) : c.lexemes.bind (·[i]?) = c'.lexemes.bind (·[i]?) := by rw [h]
  cases c with
  | connect addr user password database => exact absurd rfl hsome
  | lookup name =>
    cases c' with
    | lookup name' => rw [literal_injective (Option.some.inj (hat 7))]
    | connect | create | terminate | drop => simp [lexemes, Sql.word] at h
  | create name =>
    cases c' with
    | create name' => rw [delimited_injective (Option.some.inj (hat 2))]
    | connect | lookup | terminate | drop => simp [lexemes, Sql.word] at h
  | terminate name =>
    cases c' with
    | terminate name' => rw [literal_injective (Option.some.inj (hat 10))]
    | connect | lookup | create | drop => simp [lexemes, Sql.word] at h
  | drop name =>
    cases c' with
    | drop name' => rw [delimited_injective (Option.some.inj (hat 4))]
    | connect | lookup | create | terminate => simp [lexemes, Sql.word] at h

/-- A text is one command at most. -/
theorem Request.Reads.unique (h : q.Reads c) (h' : q.Reads c') : c = c' := by
  cases q with
  | connect addr user password database => exact Eq.trans h (Eq.symm h')
  | simple sql =>
    have heq : c.lexemes = c'.lexemes := Eq.trans (Eq.symm h) h'
    have hsome : c.lexemes ≠ none := fun hnone => by cases Eq.trans h hnone
    exact Command.lexemes_injective heq hsome

/-- What the rows say about the event. -/
def Command.Says : Command → List RawRow → Bool → Prop
  | lookup _, rows, found => found = !rows.isEmpty
  | create _, _, found => found = false
  | _, _, _ => True

theorem CarriedOut.record (h : CarriedOut x c rows y) :
    ∃ found, y.log = x.log ++ [⟨c, found⟩] ∧ c.Says rows found := by
  cases h with
  | connect => exact ⟨_, rfl, trivial⟩
  | found h => exact ⟨_, rfl, rfl⟩
  | missing h => exact ⟨_, rfl, rfl⟩
  | create h hne => exact ⟨_, rfl, rfl⟩
  | terminate => exact ⟨_, rfl, trivial⟩
  | drop hne => exact ⟨_, rfl, trivial⟩

/-- A request that is read as a command is carried out at most once, and only then successful. -/
theorem Answers.record (hreads : q.Reads c) (h : Answers x q r z) :
    (z.log = x.log ∧ ∃ e, r = .error e) ∨
      ∃ found, z.log = x.log ++ [⟨c, found⟩] ∧ ∀ rows, r = .ok rows → c.Says rows found := by
  cases h with
  | carriedOut hnul hreads' hx h hz =>
    obtain rfl := hreads.unique hreads'
    obtain ⟨found, hlog, hsays⟩ := h.record
    refine .inr ⟨found, ?_, ?_⟩
    · rw [hz, hlog, hx]
    · intro rows hrows
      obtain rfl := Except.ok.inj hrows
      exact hsays
  | lost hnul hreads' hx h hz =>
    obtain rfl := hreads.unique hreads'
    obtain ⟨found, hlog, -⟩ := h.record
    refine .inr ⟨found, ?_, ?_⟩
    · rw [hz, hlog, hx]
    · intro rows hrows
      cases hrows
  | failed hx => exact .inl ⟨hx, _, rfl⟩
  | unread hnul hnone => exact absurd hreads (hnone c)

end

/-! ### A call keeps to its plan -/

/-- What was carried out since `x` is a part of the plan, in its order. -/
def Within (plan : List Command) (x y : Cluster) : Prop :=
  ∃ events, y.log = x.log ++ events ∧ (events.map Event.command).Sublist plan

/-- A client that never leaves the plan. -/
abbrev Keeps (plan : List Command) (x : Cluster) {α : Type} (d : Client α)
    (post : Except TypedError α → Cluster → Prop) (y : Cluster) : Prop :=
  d.Safe (Within plan x) (fun _ => True) Answers post y

section

variable {α : Type} {x y z : Cluster} {plan pre rest : List Command} {c : Command} {q : Request}
  {events : List Event}

theorem Within.mono (h : Within pre x y) (hplan : pre.Sublist plan) : Within plan x y := by
  obtain ⟨events, hlog, hevents⟩ := h
  exact ⟨events, hlog, hevents.trans hplan⟩

/-- The next command of the plan. -/
theorem within_next (hplan : pre ++ c :: rest = plan) : (pre ++ [c]).Sublist plan := by
  rw [← hplan]
  exact (List.Sublist.refl pre).append (List.Sublist.cons_cons c (List.nil_sublist rest))

/-- A request for the next command of the plan: it is carried out if it succeeds. -/
theorem request_keeps (hreads : q.Reads c) (hplan : pre ++ c :: rest = plan)
    (hlog : y.log = x.log ++ events) (hevents : events.map Event.command = pre) :
    Keeps plan x (request q) (fun r z => ∀ rows, r = .ok rows →
      ∃ found, z.log = x.log ++ (events ++ [⟨c, found⟩]) ∧ c.Says rows found) y := by
  have hpre : Within pre x y := ⟨events, hlog, hevents ▸ .refl _⟩
  have hnext := within_next hplan
  have hmono := (List.sublist_append_left pre [c]).trans hnext
  refine ⟨hpre.mono hmono, trivial, ?_⟩
  intro r z hanswer
  rcases hanswer.record hreads with ⟨hsame, e, rfl⟩ | ⟨found, hz, hsays⟩
  · refine ⟨⟨events, hsame.trans hlog, hevents ▸ hmono⟩, ?_⟩
    intro rows hrows
    cases hrows
  · rw [hlog, List.append_assoc] at hz
    refine ⟨⟨events ++ [⟨c, found⟩], hz, ?_⟩, ?_⟩
    · rw [List.map_append, hevents]
      exact hnext
    · intro rows hrows
      cases r with
      | error e => cases hrows
      | ok rows' => exact ⟨found, hz, hsays _ (congrArg Except.ok (Except.ok.inj hrows))⟩

/-- A request of `TestDb` for the next command: if it succeeds, it may have been carried out. -/
theorem simpleQuery_keeps {sql : String} (hreads : (Request.simple sql).Reads c)
    (hplan : pre ++ c :: rest = plan) (h : Within pre x y) :
    Keeps plan x (simpleQuery sql) (fun _ z => Within (pre ++ [c]) x z) y := by
  have hnext := within_next hplan
  have hmono := List.sublist_append_left pre [c]
  refine ⟨h.mono (hmono.trans hnext), trivial, ?_⟩
  intro r z hanswer
  have hz : Within (pre ++ [c]) x z := by
    obtain ⟨events, hlog, hevents⟩ := h
    rcases hanswer.record hreads with ⟨hsame, -⟩ | ⟨found, hz, -⟩
    · exact ⟨events, hsame.trans hlog, hevents.trans hmono⟩
    · rw [hlog, List.append_assoc] at hz
      refine ⟨_, hz, ?_⟩
      rw [List.map_append]
      exact hevents.append (.refl _)
  have hdone : Within plan x z := hz.mono hnext
  rcases r with (e | e | e | e) | rows <;> exact ⟨hdone, hz⟩

theorem pure_bind {β : Type} (b : β) (f : β → Client α) : (pure b >>= f) = f b := rfl

theorem createDatabase_keeps {databaseUrl : String} {t : ConnTarget}
    (h : parseConnectionString databaseUrl = some t) (x : Cluster) :
    Keeps (Call.createDatabase databaseUrl).plan x (createDatabase databaseUrl) (fun r y =>
      ∀ new, r = .ok new → ∃ events, y.log = x.log ++ events ∧
        (Call.createDatabase databaseUrl).Meets (.ok (.created new)) events) x := by
  have hplan : (Call.createDatabase databaseUrl).plan =
      [.connect s!"{t.host}:{t.port}" t.user t.password "postgres", .lookup t.database.toList,
        .create t.database.toList] := by
    rw [Call.plan, h]
  have htarget : target databaseUrl = pure t := by rw [target, h]
  rw [createDatabase, htarget, pure_bind]
  refine Conversation.Safe.bind
    ((request_keeps (reads_connect ..) hplan.symm (List.append_nil _).symm rfl).mono ?_)
  intro r y _ hconnect
  cases r with
  | error e => exact fun new hnew => by cases hnew
  | ok rows =>
    obtain ⟨found, hlog, -⟩ := hconnect rows rfl
    refine Conversation.Safe.bind
      ((request_keeps (reads_lookup t.database) hplan.symm hlog rfl).mono ?_)
    intro r y hwithin hlookup
    cases r with
    | error e => exact fun new hnew => by cases hnew
    | ok rows =>
      obtain ⟨found', hlog', hsays⟩ := hlookup rows rfl
      cases rows with
      | nil =>
        refine Conversation.Safe.bind
          ((request_keeps (reads_create t.database) hplan.symm hlog' rfl).mono ?_)
        intro r y hwithin hcreate
        cases r with
        | error e => exact fun new hnew => by cases hnew
        | ok rows =>
          obtain ⟨found'', hlog'', hnew⟩ := hcreate rows rfl
          refine ⟨hwithin, ?_⟩
          rintro new hok
          obtain rfl := Except.ok.inj hok
          refine ⟨_, hlog'', ?_, ?_⟩
          · rw [hplan]
            rfl
          · exact congrArg some hnew
      | cons row rows =>
        refine ⟨hwithin, ?_⟩
        rintro new hok
        obtain rfl := Except.ok.inj hok
        refine ⟨_, hlog', ?_, ?_⟩
        · rw [hplan]
          rfl
        · exact congrArg some hsays

theorem dropDatabase_keeps {databaseUrl : String} {force : Bool} {t : ConnTarget}
    (h : parseConnectionString databaseUrl = some t) (x : Cluster) :
    Keeps (Call.dropDatabase databaseUrl force).plan x (dropDatabase databaseUrl force) (fun r y =>
      r = .ok () → ∃ events, y.log = x.log ++ events ∧
        events.map Event.command = (Call.dropDatabase databaseUrl force).plan) x := by
  have hplan : (Call.dropDatabase databaseUrl force).plan =
      .connect s!"{t.host}:{t.port}" t.user t.password "postgres" ::
        ((if force then [.terminate t.database.toList] else []) ++
          [.drop t.database.toList]) := by
    rw [Call.plan, h]
  have htarget : target databaseUrl = pure t := by rw [target, h]
  -- the last request
  have hdrop : ∀ {y : Cluster} {events : List Event}, y.log = x.log ++ events →
      events.map Event.command ++ [.drop t.database.toList] =
        (Call.dropDatabase databaseUrl force).plan →
      Keeps (Call.dropDatabase databaseUrl force).plan x
        (do let _ ← request (.simple (dropSql t.database)); pure ()) (fun r y =>
          r = .ok () → ∃ events, y.log = x.log ++ events ∧
            events.map Event.command = (Call.dropDatabase databaseUrl force).plan) y := by
    intro y events hlog hevents
    refine Conversation.Safe.bind
      ((request_keeps (reads_drop t.database) hevents hlog rfl).mono ?_)
    intro r y hwithin hdone
    cases r with
    | error e => exact fun hok => by cases hok
    | ok rows =>
      obtain ⟨found, hlog', -⟩ := hdone rows rfl
      refine ⟨hwithin, fun _ => ⟨_, hlog', ?_⟩⟩
      rw [List.map_append]
      exact hevents
  rw [dropDatabase, htarget, pure_bind]
  refine Conversation.Safe.bind
    ((request_keeps (reads_connect ..) hplan.symm (List.append_nil _).symm rfl).mono ?_)
  intro r y hwithin hconnect
  cases r with
  | error e => exact fun hok => by cases hok
  | ok rows =>
    obtain ⟨found, hlog, -⟩ := hconnect rows rfl
    cases force with
    | false => exact hdrop hlog hplan.symm
    | true =>
      refine Conversation.Safe.bind
        ((request_keeps (reads_terminate t.database) hplan.symm hlog rfl).mono ?_)
      intro r y hwithin hterminate
      cases r with
      | error e => exact fun hok => by cases hok
      | ok rows =>
        obtain ⟨found', hlog', -⟩ := hterminate rows rfl
        exact hdrop hlog' hplan.symm

theorem create_keeps (addr user password : String) (nanos : ℕ) (x : Cluster) :
    Keeps (Call.createTestDb addr user password nanos).plan x
      (TestDb.create addr user password nanos) (fun _ _ => True) x := by
  refine Conversation.Safe.bind
    ((request_keeps (reads_connect ..) rfl (List.append_nil _).symm rfl).mono ?_)
  intro r y _ hconnect
  cases r with
  | error e => trivial
  | ok rows =>
    obtain ⟨found, hlog, -⟩ := hconnect rows rfl
    refine Conversation.Safe.bind
      ((simpleQuery_keeps (reads_create _) rfl ⟨_, hlog, .refl _⟩).mono ?_)
    intro r y hwithin _
    cases r with
    | error e => trivial
    | ok _ => exact ⟨hwithin, trivial⟩

theorem dropDb_keeps (db : TestDb) (x : Cluster) :
    Keeps (Call.dropTestDb db).plan x db.dropDb (fun _ _ => True) x := by
  refine Conversation.Safe.bind
    ((request_keeps (reads_connect ..) rfl (List.append_nil _).symm rfl).mono ?_)
  intro r y _ hconnect
  cases r with
  | error e => trivial
  | ok rows =>
    obtain ⟨found, hlog, -⟩ := hconnect rows rfl
    -- the error of the first statement is ignored
    have hdrop : ∀ {y}, Within [.connect db.addr db.user db.password "postgres",
        .terminate db.database.toList] x y →
        Keeps (Call.dropTestDb db).plan x (simpleQuery (dropSql db.database) >>= fun _ => pure ())
          (fun (_ : Except TypedError Unit) _ => True) y := by
      intro y hpre
      refine Conversation.Safe.bind
        ((simpleQuery_keeps (reads_drop db.database) rfl hpre).mono ?_)
      intro r y hwithin _
      cases r with
      | error e => trivial
      | ok _ => exact ⟨hwithin, trivial⟩
    refine Conversation.Safe.bind (Conversation.Safe.attempt
      ((simpleQuery_keeps (reads_terminate db.database) rfl ⟨_, hlog, .refl _⟩).mono ?_))
    intro r y hwithin hpre
    cases r with
    | error e => exact ⟨hwithin, hdrop hpre⟩
    | ok _ => exact ⟨hwithin, hdrop hpre⟩

end

/-- A connection string that cannot be read. -/
theorem target_none {databaseUrl : String} (h : parseConnectionString databaseUrl = none) :
    target databaseUrl = .fail (.config "invalid database URL") := by
  rw [target, h]

/-- **Whatever the name of the database is**, and whatever other clients do, what the server carries
out for a call are commands of its plan, in order, at most once each, and on that database; a
database is reported as new if and only if the call has created it. -/
theorem admin_faithful (call : Call) (x : Cluster) :
    call.start.Safe (Within call.plan x) (fun _ => True) Answers
      (fun r y => ∃ events, y.log = x.log ++ events ∧ call.Meets r events) x := by
  have hstart : x.log = x.log ++ [] := (List.append_nil _).symm
  cases call with
  | createDatabase databaseUrl =>
    cases hparse : parseConnectionString databaseUrl with
    | none =>
      rw [Call.start, createDatabase, target_none hparse]
      exact ⟨⟨[], hstart, List.nil_sublist _⟩, [], hstart, trivial⟩
    | some t =>
      refine Conversation.Safe.bind ((createDatabase_keeps hparse x).mono ?_)
      intro r y hwithin hmeets
      cases r with
      | error e =>
        obtain ⟨events, hlog, -⟩ := hwithin
        exact ⟨events, hlog, trivial⟩
      | ok new => exact ⟨hwithin, hmeets new rfl⟩
  | dropDatabase databaseUrl force =>
    cases hparse : parseConnectionString databaseUrl with
    | none =>
      rw [Call.start, dropDatabase, target_none hparse]
      exact ⟨⟨[], hstart, List.nil_sublist _⟩, [], hstart, trivial⟩
    | some t =>
      refine Conversation.Safe.bind ((dropDatabase_keeps hparse x).mono ?_)
      intro r y hwithin hmeets
      cases r with
      | error e =>
        obtain ⟨events, hlog, -⟩ := hwithin
        exact ⟨events, hlog, trivial⟩
      | ok _ => exact ⟨hwithin, hmeets rfl⟩
  | createTestDb addr user password nanos =>
    refine Conversation.Safe.bind ((create_keeps addr user password nanos x).mono ?_)
    rintro r y hwithin -
    obtain ⟨events, hlog, -⟩ := id hwithin
    cases r with
    | error e => exact ⟨events, hlog, trivial⟩
    | ok db => exact ⟨hwithin, events, hlog, trivial⟩
  | dropTestDb db =>
    refine Conversation.Safe.bind ((dropDb_keeps db x).mono ?_)
    rintro r y hwithin -
    obtain ⟨events, hlog, -⟩ := id hwithin
    cases r with
    | error e => exact ⟨events, hlog, trivial⟩
    | ok _ => exact ⟨hwithin, events, hlog, trivial⟩

end Resolute.Admin
