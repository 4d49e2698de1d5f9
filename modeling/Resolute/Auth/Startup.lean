import Resolute.Auth.Scram

/-!
# Authentication at startup

`finish_startup`: the client introduces itself, answers what the server asks for, and returns with
`ReadyForQuery`.  In an exchange of SASL it waits for the server's challenge, answers it, and waits
for `AuthenticationOk`; the server's own proof, in `AuthenticationSASLFinal`, may come before that.

The other end is a `Peer`: what each `recv_msg` returns, and which write fails.  `feed` is what a
message leads to, and `sentFrom` what the call sends, however it ends.  The call is
`MutuallyAuthenticated` if it succeeds in an exchange of SASL only with the proof that the server
owes.  The proofs of the server make no difference (`finishStartup_withoutFinals`), so a peer that
does not know the password passes as the server (`no_mutual_authentication`).
-/

namespace Resolute.Auth

open Scram (Libs ChannelBinding ScramClient)
open Rfc5802 (splitComma joinComma Server)

/-- The libraries of `finish_startup`. -/
structure StartupLibs extends Libs where
  /-- `md5::compute`, in lower-case hexadecimal digits. -/
  md5 : Bytes → String

/-- What `finish_startup` is called with. -/
structure Config where
  user : String
  password : String
  database : String
  startupParams : List (String × String)
  /-- The hash of the server's certificate, if the stream is encrypted and has one. -/
  certHash : Option Bytes
  /-- The random bytes of each nonce. -/
  random : ℕ → Bytes

/-- What the client sends. -/
inductive Outgoing where
  | startup (user database : String) (params : List (String × String))
  | password (data : Bytes)
  | frontend (msg : FrontendMsg)
  deriving DecidableEq

/-- What the other end does: what `recv_msg` returns, one call after the other, and which write
fails. -/
structure Peer where
  reads : List ReadResult
  writes : ℕ → Option PgWireError

/-- An exchange of SASL that the client has answered. -/
structure Exchange where
  client : ScramClient
  serverFirst : Bytes
  clientFinal : Bytes
  deriving DecidableEq

/-- The connection as far as startup fills it in. -/
structure Conn where
  pid : Int32
  secret : Int32
  /-- The parameters, the latest value first. -/
  params : List (String × String)
  authMechanism : String
  sent : List Outgoing
  /-- SASL authentications that were begun. -/
  begun : ℕ
  exchanges : List Exchange
  deriving DecidableEq

/-- Where `finish_startup` waits for a message. -/
inductive Phase where
  /-- The loop of authentication. -/
  | loop
  /-- For the server-first-message. -/
  | serverFirst (scram : ScramClient)
  /-- For the server-final-message and `AuthenticationOk`. -/
  | serverFinal
  deriving DecidableEq

/-- What a message leads to. -/
inductive Next where
  | more (phase : Phase) (conn : Conn)
  | done (conn : Conn)
  | failed (e : PgWireError)
  deriving DecidableEq

/-- `choose_scram_mechanism`. -/
def chooseScramMechanism (certHash : Option Bytes) (mechanisms : List String) :
    Except PgWireError (ChannelBinding × String) :=
  let plain := if "SCRAM-SHA-256" ∈ mechanisms then .ok (.none, "SCRAM-SHA-256")
    else
      let names := ", ".intercalate (mechanisms.map String.quote)
      .error (.protocol s!"No supported SASL mechanism: [{names}]")
  match certHash with
  | some hash =>
    if "SCRAM-SHA-256-PLUS" ∈ mechanisms then .ok (.tlsServerEndPoint hash, "SCRAM-SHA-256-PLUS")
    else plain
  | none => plain

section

variable (lib : StartupLibs) (cfg : Config) (writes : ℕ → Option PgWireError)

/-- `md5_password`. -/
def md5Password (user password : String) (salt : Bytes) : Bytes :=
  let inner := lib.md5 (asBytes (password ++ user))
  let outer := lib.md5 (asBytes inner ++ salt)
  asBytes s!"md5{outer}"

/-- `send_raw`, and where the call waits after it. -/
def Conn.sendRaw (conn : Conn) (msg : Outgoing) (phase : Phase) : Next :=
  match writes conn.sent.length with
  | some e => .failed e
  | none => .more phase { conn with sent := conn.sent ++ [msg] }

/-- What `finish_startup` does with a message. -/
def feed (conn : Conn) : Phase → BackendMsg → Next
  | .loop, .authenticationOk => .more .loop conn
  | .loop, .authenticationCleartextPassword =>
    Conn.sendRaw writes { conn with authMechanism := "cleartext" }
      (.password (asBytes cfg.password)) .loop
  | .loop, .authenticationMd5Password salt =>
    Conn.sendRaw writes { conn with authMechanism := "md5" }
      (.password (md5Password lib cfg.user cfg.password salt.toList)) .loop
  | .loop, .authenticationSASL mechanisms =>
    match chooseScramMechanism cfg.certHash mechanisms with
    | .error e => .failed e
    | .ok (cb, name) =>
      let new := ScramClient.new lib.toLibs cfg.password cb (cfg.random conn.begun)
      Conn.sendRaw writes { conn with authMechanism := name, begun := conn.begun + 1 }
        (.frontend (.saslInitialResponse (asBytes name) new.2)) (.serverFirst new.1)
  | .loop, .parameterStatus name value =>
    .more .loop { conn with params := (name, value) :: conn.params.filter (·.1 ≠ name) }
  | .loop, .backendKeyData pid secret => .more .loop { conn with pid := pid, secret := secret }
  | .loop, .readyForQuery _ => .done conn
  | .loop, .errorResponse fields => .failed (.pg fields)
  | .loop, _ => .more .loop conn
  | .serverFirst scram, .authenticationSASLContinue data =>
    match scram.processServerFirst lib.toLibs data with
    | .error e => .failed (.protocol e)
    | .ok clientFinal =>
      let exchange : Exchange := ⟨scram, data, clientFinal⟩
      Conn.sendRaw writes { conn with exchanges := conn.exchanges ++ [exchange] }
        (.frontend (.saslResponse clientFinal)) .serverFinal
  | .serverFirst _, .errorResponse fields => .failed (.pg fields)
  | .serverFirst scram, _ => .more (.serverFirst scram) conn
  | .serverFinal, .authenticationSASLFinal _ => .more .serverFinal conn
  | .serverFinal, .authenticationOk => .more .loop conn
  | .serverFinal, .errorResponse fields => .failed (.pg fields)
  | .serverFinal, _ => .more .serverFinal conn

/-- The calls of `recv_msg` from some point on; `none` while the client waits for a message. -/
def receiveAll : Phase → Conn → List ReadResult → Option (Except PgWireError Conn)
  | _, _, [] => none
  | _, _, .error e :: _ => some (.error e)
  | phase, conn, .ok m :: rs =>
    match feed lib cfg writes conn phase m with
    | .more phase conn => receiveAll phase conn rs
    | .done conn => some (.ok conn)
    | .failed e => some (.error e)

/-- What a run has sent when it ends, or waits for a message; `failed` says what that is when the
run fails on a message. -/
def sentFrom (failed : Phase → Conn → BackendMsg → List Outgoing) :
    Phase → Conn → List ReadResult → List Outgoing
  | _, conn, [] => conn.sent
  | _, conn, .error _ :: _ => conn.sent
  | phase, conn, .ok m :: rs =>
    match feed lib cfg writes conn phase m with
    | .more phase conn => sentFrom failed phase conn rs
    | .done conn => conn.sent
    | .failed _ => failed phase conn m

end

/-- The connection before startup. -/
def Conn.init : Conn where
  pid := 0
  secret := 0
  params := []
  authMechanism := "trust"
  sent := []
  begun := 0
  exchanges := []

/-- `finish_startup`. -/
def finishStartup (lib : StartupLibs) (cfg : Config) (peer : Peer) :
    Option (Except PgWireError Conn) :=
  match Conn.sendRaw peer.writes .init (.startup cfg.user cfg.database cfg.startupParams) .loop with
  | .more phase conn => receiveAll lib cfg peer.writes phase conn peer.reads
  | .done conn => some (.ok conn)
  | .failed e => some (.error e)

/-- The attribute `v=` that the server owes the client: its signature of the exchange, with the key
that it derives from the password, the salt and the number of iterations. -/
def Exchange.serverSignature (F : Rfc5802.Functions) (password : String) (ex : Exchange) :
    Option String := do
  let serverFirst ← fromUtf8 ex.serverFirst
  let clientFinal ← fromUtf8 ex.clientFinal
  let msg ← ((splitComma serverFirst).foldlM Scram.ServerFirst.read ⟨"", "", 0⟩).toOption
  let salt ← F.decode msg.saltB64
  let salted := Rfc5802.saltedPassword F password salt msg.iterations.toNat
  let withoutProof := joinComma (splitComma clientFinal).dropLast
  return Server.final F (Rfc5802.serverKey F salted)
    (Rfc5802.authMessage ex.client.clientFirstBare serverFirst withoutProof)

/-- The message carries the proof that the server owes the client for the exchange. -/
def Exchange.Proves (F : Rfc5802.Functions) (password : String) (ex : Exchange) (data : Bytes) :
    Prop :=
  ∃ text v, fromUtf8 data = some text ∧ ex.serverSignature F password = some v ∧
    v ∈ splitComma text

/-- If the call succeeds and has begun an exchange of SASL, then the peer has proved itself. -/
def MutuallyAuthenticated (F : Rfc5802.Functions) (lib : StartupLibs) (cfg : Config) (peer : Peer) :
    Prop :=
  ∀ conn, finishStartup lib cfg peer = some (.ok conn) → 0 < conn.begun →
    ∃ ex ∈ conn.exchanges, ∃ data, .ok (.authenticationSASLFinal data) ∈ peer.reads ∧
      ex.Proves F cfg.password data

/-! ### A peer that proves nothing -/

/-- The message is a proof of the server. -/
def isFinal : ReadResult → Bool
  | .ok (.authenticationSASLFinal _) => true
  | _ => false

/-- The same peer without its proofs. -/
def Peer.withoutFinals (peer : Peer) : Peer :=
  { peer with reads := peer.reads.filter fun r => !isFinal r }

variable {lib : StartupLibs} {cfg : Config}

theorem feed_final (writes : ℕ → Option PgWireError) (conn : Conn) (phase : Phase) (data : Bytes) :
    feed lib cfg writes conn phase (.authenticationSASLFinal data) = .more phase conn := by
  cases phase <;> rfl

theorem receiveAll_filter (writes : ℕ → Option PgWireError) (phase : Phase) (conn : Conn)
    (rs : List ReadResult) :
    receiveAll lib cfg writes phase conn (rs.filter fun r => !isFinal r) =
      receiveAll lib cfg writes phase conn rs := by
  induction rs generalizing phase conn with
  | nil => rfl
  | cons r rs ih =>
    cases hr : isFinal r with
    | true =>
      -- a proof of the server is passed over wherever the call waits
      obtain ⟨data, rfl⟩ : ∃ data, r = .ok (.authenticationSASLFinal data) := by
        unfold isFinal at hr
        split at hr
        · exact ⟨_, rfl⟩
        · cases hr
      simp only [List.filter_cons, hr, Bool.not_true, Bool.false_eq_true, if_false, receiveAll,
        feed_final, ih]
    | false =>
      simp only [List.filter_cons, hr, Bool.not_false, if_true]
      rcases r with e | m
      · rfl
      · simp only [receiveAll]
        split <;> simp only [ih]

/-- **No proof is looked at.**  The proofs of the server make no difference to startup. -/
theorem finishStartup_withoutFinals (lib : StartupLibs) (cfg : Config) (peer : Peer) :
    finishStartup lib cfg peer.withoutFinals = finishStartup lib cfg peer := by
  unfold finishStartup
  simp only [Peer.withoutFinals, receiveAll_filter]

/-- The challenge of a peer that knows nothing: the nonce of the client, no salt and one
iteration. -/
def emptyChallenge (lib : StartupLibs) (cfg : Config) : Bytes :=
  asBytes (joinComma ["r=" ++ (lib.encode (cfg.random 0) ++ ""), "s=" ++ lib.encode [],
    "i=" ++ Nat.repr (1 : UInt32).toNat])

/-- A peer that offers an exchange, makes up a challenge and declares the client authenticated. -/
def impostor (lib : StartupLibs) (cfg : Config) : Peer where
  reads := [.ok (.authenticationSASL ["SCRAM-SHA-256"]),
    .ok (.authenticationSASLContinue (emptyChallenge lib cfg)), .ok .authenticationOk,
    .ok (.readyForQuery (byte 'I'))]
  writes _ := none

theorem chooseScramMechanism_plain (certHash : Option Bytes) :
    chooseScramMechanism certHash ["SCRAM-SHA-256"] = .ok (.none, "SCRAM-SHA-256") := by
  cases certHash <;> rfl

section

variable {F : Rfc5802.Functions}

/-- The client answers a challenge that is made up, whatever it binds the exchange to. -/
theorem processServerFirst_emptyChallenge (hF : F.Lawful) (hlib : lib.toLibs.Implements F)
    (cfg : Config) (cb : ChannelBinding) :
    ∃ clientFinal,
      (ScramClient.new lib.toLibs cfg.password cb (cfg.random 0)).1.processServerFirst lib.toLibs
        (emptyChallenge lib cfg) = .ok clientFinal := by
  have hcomma : ∀ data, Rfc5802.CommaFree (lib.encode data) := by
    intro data
    rw [hlib.encode]
    exact hF.commaFree_encode data
  have hread := Scram.foldlM_read 1
    ((hcomma (cfg.random 0)).append (by decide : Rfc5802.CommaFree ""))
    (hcomma [])
  have hsalt : lib.decode (lib.encode []) = .ok [] := by
    rw [hlib.encode]
    exact (hlib.decode _ _).1 (hF.decode_encode [])
  have hnonce : (Rfc5802.stripPrefix (lib.encode (cfg.random 0))
      (lib.encode (cfg.random 0) ++ "")).isNone = false := by
    rw [Rfc5802.stripPrefix_append]
    rfl
  have hone : (1 : UInt32) ≤ 1 := by decide
  have hsalted := Scram.hi_eq hF hlib cfg.password [] hone
  obtain ⟨binding, hbinding⟩ : ∃ binding, cb.channelBindingData lib.toLibs = F.encode binding := by
    cases cb <;> exact ⟨_, by rw [ChannelBinding.channelBindingData, hlib.encode]⟩
  exact ⟨_, Scram.processServerFirst_eq hlib hread hnonce hsalt hsalted hbinding⟩

/-- Startup succeeds with the peer that made everything up. -/
theorem not_mutuallyAuthenticated_impostor (hF : F.Lawful) (hlib : lib.toLibs.Implements F)
    (cfg : Config) : ¬ MutuallyAuthenticated F lib cfg (impostor lib cfg) := by
  intro h
  obtain ⟨clientFinal, hfinal⟩ := processServerFirst_emptyChallenge hF hlib cfg .none
  have hok : ∃ conn, finishStartup lib cfg (impostor lib cfg) =
    some (.ok conn) ∧ 0 < conn.begun := by
    simp only [finishStartup, Conn.sendRaw, impostor, receiveAll, feed, chooseScramMechanism_plain,
      Conn.init, hfinal]
    exact ⟨_, rfl, Nat.one_pos⟩
  obtain ⟨conn, hconn, hbegun⟩ := hok
  obtain ⟨ex, -, data, hmem, -⟩ := h conn hconn hbegun
  simp [impostor] at hmem

/-- **No mutual authentication.**  For every user, password and certificate: the proofs of the
server make no difference to startup, and it succeeds with a peer that has none. -/
theorem no_mutual_authentication (hF : F.Lawful) (hlib : lib.toLibs.Implements F) (cfg : Config) :
    (∀ peer, finishStartup lib cfg peer.withoutFinals = finishStartup lib cfg peer) ∧
      ¬ ∀ peer, MutuallyAuthenticated F lib cfg peer :=
  ⟨finishStartup_withoutFinals lib cfg, fun h =>
    not_mutuallyAuthenticated_impostor hF hlib cfg (h (impostor lib cfg))⟩

/-- The libraries, for exchanges of SASL only. -/
def sha256StartupLibs : StartupLibs := { Scram.sha256Libs with md5 := fun _ => "" }

/-- A user `alice`. -/
def aliceConfig : Config where
  user := "alice"
  password := "pencil"
  database := "app"
  startupParams := []
  certHash := none
  random _ := List.replicate 24 7

theorem no_mutual_authentication_alice :
    (∀ peer, finishStartup sha256StartupLibs aliceConfig peer.withoutFinals =
      finishStartup sha256StartupLibs aliceConfig peer) ∧
    ¬ ∀ peer, MutuallyAuthenticated Rfc5802.sha256Functions sha256StartupLibs aliceConfig peer :=
  have hlib : sha256StartupLibs.toLibs.Implements Rfc5802.sha256Functions :=
    Scram.implements_sha256Libs
  no_mutual_authentication Rfc5802.lawful_sha256Functions hlib aliceConfig

/-- The impostor that `alice` meets sends four messages, none of which proves anything. -/
theorem impostor_passes_as_server :
    ¬ MutuallyAuthenticated Rfc5802.sha256Functions sha256StartupLibs aliceConfig
      (impostor sha256StartupLibs aliceConfig) :=
  have hlib : sha256StartupLibs.toLibs.Implements Rfc5802.sha256Functions :=
    Scram.implements_sha256Libs
  not_mutuallyAuthenticated_impostor Rfc5802.lawful_sha256Functions hlib aliceConfig

end

end Resolute.Auth
