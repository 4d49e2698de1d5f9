import Resolute.Auth.CertHash
import Resolute.Auth.Startup
import Resolute.Rust.Utf8

/-!
# Connecting

`connect_inner`: the client asks for encryption or does not, depending on its `TlsMode`, goes by the
one byte of the answer, and runs `finish_startup` over what it has got.  With `Require` nothing but
the request for encryption leaves in the clear.  An exchange of SASL over an encrypted stream is
bound to the certificate that the stream was opened with, if the peer offers that: whoever sits
between the client and a server with another certificate cannot pass the exchange on.

The TLS library is a parameter (`TlsLibs`), and so is what the other end of the TCP connection does
(`Endpoint`).  Whether or not `finish_startup` succeeds, `written` is what it has handed to the
stream.  `connectInner_confidential` says what leaves in the clear and who can use what leaves
encrypted; its second half rests on `Server.binding_of_accepts`, that a server accepts a bound
message only with its own binding data.
-/

namespace Resolute

/-! ### Bound messages -/

namespace Rfc5802

theorem not_mem_of_mem_splitOn (cs : List Char) : ∀ part ∈ cs.splitOn ',', ',' ∉ part := by
  induction cs with
  | nil => simp
  | cons c cs ih =>
    rw [List.splitOn_eq_splitOnP] at ih ⊢
    rw [List.splitOnP_cons_eq_if_modifyHead]
    by_cases hc : c = ','
    · simpa [hc] using ih
    · obtain ⟨part, parts, hparts⟩ := List.exists_cons_of_ne_nil
        (List.splitOnP_ne_nil (· == ',') cs)
      rw [hparts] at ih ⊢
      simpa [hc, Ne.symm hc] using ih

theorem commaFree_of_mem_splitComma {s part : String} (h : part ∈ splitComma s) :
    CommaFree part := by
  obtain ⟨cs, hcs, rfl⟩ := List.mem_map.1 h
  simpa [CommaFree] using not_mem_of_mem_splitOn _ cs hcs

theorem CommaFree.of_stripPrefix {p s t : String} (hs : CommaFree s)
    (h : stripPrefix p s = some t) : CommaFree t := by
  unfold stripPrefix at h
  split_ifs at h
  cases h
  intro hmem
  rw [String.toList_ofList] at hmem
  exact hs (List.mem_of_mem_drop hmem)

/-- No byte of a text without commas is a comma. -/
theorem CommaFree.not_mem_asBytes {s : String} (h : CommaFree s) : 44 ∉ asBytes s := by
  have hutf8 : asBytes s = Rust.utf8 s.toList := by
    rw [asBytes, ← String.utf8Encode_toList, List.utf8Encode, List.data_toByteArray,
      List.toList_toArray]
    rfl
  rw [hutf8]
  intro hmem
  obtain ⟨c, hc, hmem⟩ := List.mem_flatMap.1 hmem
  cases hascii : Rust.isAscii c with
  | false =>
    have := Rust.le_of_mem_utf8EncodeChar hascii hmem
    exact absurd this (by decide)
  | true =>
    rw [Rust.utf8EncodeChar_of_isAscii hascii, List.mem_singleton] at hmem
    have hcode : c.toNat = 44 := by
      have hlt : c.toNat < 128 := by simpa [Rust.isAscii] using hascii
      have := congrArg UInt8.toNat hmem
      rw [UInt8.toNat_ofNat_of_lt' (Nat.lt_trans hlt (by decide))] at this
      exact this.symm
    have hcomma : c = ',' := Char.toNat_inj.1 hcode
    exact h (hcomma ▸ hc)

theorem asBytes_append (s t : String) : asBytes (s ++ t) = asBytes s ++ asBytes t := by
  simp [asBytes]

/-- A header is two texts without commas, each with a comma behind it. -/
theorem Server.splitGs2_eq {message header bare : String}
    (h : Server.splitGs2 message = some (header, bare)) :
    ∃ flag authzid, CommaFree flag ∧ CommaFree authzid ∧
      header = flag ++ "," ++ authzid ++ "," := by
  unfold Server.splitGs2 at h
  split at h
  · rename_i flag authzid rest heq
    cases h
    have hmem : ∀ part ∈ flag :: authzid :: rest, CommaFree part := fun part hpart =>
      commaFree_of_mem_splitComma (heq ▸ hpart)
    exact ⟨flag, authzid, hmem flag (by simp), hmem authzid (by simp), rfl⟩
  · cases h

/-- The bytes in front of the second comma are the same. -/
theorem header_inj {flag authzid flag' authzid' : String} {rest rest' : Bytes}
    (hflag : CommaFree flag) (hauthzid : CommaFree authzid) (hflag' : CommaFree flag')
    (hauthzid' : CommaFree authzid')
    (h : asBytes (flag ++ "," ++ authzid ++ ",") ++ rest =
      asBytes (flag' ++ "," ++ authzid' ++ ",") ++ rest') :
    flag = flag' ∧ authzid = authzid' ∧ rest = rest' := by
  have hcomma : asBytes "," = [44] := by decide
  have hcut : ∀ {xs ys : Bytes} {l l' : Bytes}, 44 ∉ xs → 44 ∉ ys →
      xs ++ 44 :: l = ys ++ 44 :: l' → xs = ys ∧ l = l' := by
    intro xs ys l l' hxs hys heq
    have htake := congrArg (List.takeWhile (· ≠ 44)) heq
    rw [List.takeWhile_append_of_pos (by simpa using fun b hb => ne_of_mem_of_not_mem hb hxs),
      List.takeWhile_append_of_pos (by simpa using fun b hb => ne_of_mem_of_not_mem hb hys)]
      at htake
    have hxy : xs = ys := by simpa using htake
    subst hxy
    exact ⟨rfl, (List.cons.inj (List.append_cancel_left heq)).2⟩
  simp only [asBytes_append, hcomma, List.append_assoc, List.singleton_append] at h
  obtain ⟨hf, h⟩ := hcut hflag.not_mem_asBytes hflag'.not_mem_asBytes h
  obtain ⟨ha, hrest⟩ := hcut hauthzid.not_mem_asBytes hauthzid'.not_mem_asBytes h
  exact ⟨asBytes_injective hf, asBytes_injective ha, hrest⟩

variable {F : Functions}

/-- **Binding.**  Whatever first message a server was shown: it accepts a final message that is
bound to a channel only if that channel is its own. -/
theorem Server.binding_of_accepts (hF : F.Lawful) {srv : Server} {first key hash : Bytes}
    {nonce bare serverFirst : String} (hnonce : CommaFree nonce)
    (h : srv.accepts F first (asBytes (clientFinal F (asBytes "p=tls-server-end-point,," ++ hash)
      nonce key bare serverFirst)) = true) : srv.binding = hash := by
  have hsplit : ∀ binding proof : Bytes, splitComma (joinComma ["c=" ++ F.encode binding,
      "r=" ++ nonce, "p=" ++ F.encode proof]) =
      ["c=" ++ F.encode binding, "r=" ++ nonce, "p=" ++ F.encode proof] := by
    intro binding proof
    refine splitComma_joinComma (by simp) ?_
    simp only [List.mem_cons, List.not_mem_nil, or_false]
    rintro part (rfl | rfl | rfl)
    · exact CommaFree.append (by decide) (hF.commaFree_encode _)
    · exact CommaFree.append (by decide) hnonce
    · exact CommaFree.append (by decide) (hF.commaFree_encode _)
  unfold Server.accepts at h
  rw [fromUtf8_asBytes] at h
  cases hmessage : fromUtf8 first with
  | none => simp [hmessage] at h
  | some message =>
    simp only [hmessage] at h
    cases hgs2 : Server.splitGs2 message with
    | none => simp [hgs2] at h
    | some p =>
      obtain ⟨header, bare'⟩ := p
      simp only [hgs2] at h
      cases hclient : Server.clientNonce bare' with
      | none => simp [hclient] at h
      | some nonce' =>
        simp only [hclient, Server.verify, clientFinal, hsplit, stripPrefix_append,
          Option.bind_some, hF.decode_encode, Bool.and_eq_true, decide_eq_true_eq,
          Option.some.injEq] at h
        obtain ⟨flag, authzid, hflag, hauthzid, rfl⟩ := Server.splitGs2_eq hgs2
        have hgs2 : "p=tls-server-end-point,," = "p=tls-server-end-point" ++ "," ++ "" ++ "," := by
          decide
        have hbytes := h.1.2
        rw [hgs2] at hbytes
        obtain ⟨rfl, rfl, hrest⟩ := header_inj (by decide) (by decide) hflag hauthzid hbytes
        have hbound : (stripPrefix "p=" ("p=tls-server-end-point" ++ "," ++ "" ++ ",")).isSome =
          true := by decide
        rw [Server.bindingData, hbound, if_pos rfl] at hrest
        exact hrest.symm

end Rfc5802

namespace Auth

open Scram (ChannelBinding ScramClient)
open Rfc5802 (CommaFree Server splitComma stripPrefix)

/-! ### The negotiation -/

/-- How to handle TLS negotiation with the server. -/
inductive TlsMode where
  /-- No `SSLRequest`. -/
  | disable
  /-- Upgrade if the server agrees, go on in the clear if it refuses. -/
  | prefer
  /-- An error if the server refuses. -/
  | require
  deriving DecidableEq, Repr

/-- Custom root certificates, and the certificate chain and the key of the client. -/
structure TlsConfig where
  rootCerts : List Bytes
  clientCert : Option (List Bytes × Bytes)

/-- `TlsConfig::default`. -/
def TlsConfig.default : TlsConfig := ⟨[], none⟩

/-- The trust store. -/
inductive Roots where
  /-- `webpki_roots::TLS_SERVER_ROOTS` -/
  | system
  | custom (certs : List Bytes)
  deriving DecidableEq

/-- What the library checks before a handshake, with the text of its errors. -/
structure TlsLibs where
  /-- `RootCertStore::add`. -/
  addRoot : Bytes → Except String Unit
  /-- `with_safe_default_protocol_versions`. -/
  protocolVersions : Except String Unit
  /-- `PrivateKeyDer::try_from`. -/
  privateKey : Bytes → Except String Unit
  /-- `with_client_auth_cert`. -/
  clientAuth : List Bytes → Bytes → Except String Unit
  /-- `ServerName::try_from`. -/
  serverName : String → Except String Unit

/-- An encrypted stream: the certificates of the other end, and what it does. -/
structure Channel where
  peerCertificates : Option (List Bytes)
  peer : Peer

/-- The other end of a TCP connection. -/
structure Endpoint where
  /-- `TcpStream::connect` and `set_nodelay`. -/
  tcp : Except PgWireError Unit
  /-- The write of the `SSLRequest`. -/
  request : Except PgWireError Unit
  /-- The byte it answers with. -/
  response : Except PgWireError UInt8
  /-- What it does in the clear. -/
  clear : Peer
  /-- The handshake, with the trust store, the identity of the client and the name it expects. -/
  handshake : Roots → Option (List Bytes × Bytes) → String → Except PgWireError Channel

/-- `MaybeTlsStream`, by its other end. -/
inductive MaybeTlsStream where
  | plain (peer : Peer)
  | tls (channel : Channel)

/-- `parse_hostname`. -/
def parseHostname (addr : String) : String :=
  let cs := addr.toList
  if cs.head? = some '[' ∧ ']' ∈ cs then String.ofList ((cs.takeWhile (· ≠ ']')).drop 1)
  else String.ofList (cs.takeWhile (· ≠ ':'))

/-- `map_err` with a text in front of the error. -/
def explain {α : Type} (context : String) : Except String α → Except PgWireError α
  | .ok a => .ok a
  | .error e => .error (.protocol s!"{context}: {e}")

/-- The trust store of the configuration. -/
def rootStore (lib : TlsLibs) (config : TlsConfig) : Except PgWireError Roots :=
  if config.rootCerts.isEmpty then .ok .system
  else do
    config.rootCerts.forM fun cert => explain "invalid root certificate" (lib.addRoot cert)
    pure (.custom config.rootCerts)

/-- The branch for `S`. -/
def upgrade (lib : TlsLibs) (config : TlsConfig) (hostname : String) (e : Endpoint) :
    Except PgWireError Channel := do
  let roots ← rootStore lib config
  explain "TLS protocol version setup failed" lib.protocolVersions
  match config.clientCert with
  | some (certs, key) =>
    explain "invalid client private key" (lib.privateKey key)
    explain "TLS client auth config error" (lib.clientAuth certs key)
  | none => pure ()
  explain "invalid hostname" (lib.serverName hostname)
  e.handshake roots config.clientCert hostname

/-- `negotiate_tls_with_config`. -/
def negotiateTls (lib : TlsLibs) (config : TlsConfig) (mode : TlsMode) (hostname : String)
    (e : Endpoint) : Except PgWireError MaybeTlsStream :=
  if mode = .disable then .ok (.plain e.clear)
  else do
    e.request
    let response ← e.response
    if response = byte 'S' then
      let channel ← upgrade lib config hostname e
      pure (.tls channel)
    else if response = byte 'N' then
      if mode = .require then
        .error (.protocol "server does not support TLS but sslmode=require")
      else .ok (.plain e.clear)
    else
      let other := (Rust.asChar response).toString
      .error (.protocol s!"unexpected SSL response: {other}")

/-! ### The call -/

/-- The hash functions of certificates. -/
structure Sha2 where
  sha256 : Bytes → Bytes
  sha384 : Bytes → Bytes
  sha512 : Bytes → Bytes

/-- `cert_signature_hash`. -/
def certSignatureHash (sha : Sha2) (certDer : Bytes) : Bytes :=
  match CertHash.certDigest certDer with
  | .sha384 => sha.sha384 certDer
  | .sha512 => sha.sha512 certDer
  | .sha256 => sha.sha256 certDer

/-- The hash of the first certificate of the other end. -/
def Channel.certHash (sha : Sha2) (channel : Channel) : Option Bytes :=
  (channel.peerCertificates.bind List.head?).map (certSignatureHash sha)

/-- What leaves on the TCP connection in the clear. -/
inductive Packet where
  | sslRequest
  | message (m : Outgoing)
  deriving DecidableEq

/-- The libraries of `connect_inner`. -/
structure ConnectLibs where
  startup : StartupLibs
  tls : TlsLibs
  sha : Sha2

/-- What has been handed to the stream when a run fails on a message: what could not be written may
have left in part. -/
def handedOver (lib : StartupLibs) (cfg : Config) (phase : Phase) (conn : Conn) (m : BackendMsg) :
    List Outgoing :=
  match feed lib cfg (fun _ => none) conn phase m with
  | .more _ conn => conn.sent
  | _ => conn.sent

/-- What `finish_startup` hands to the stream. -/
def written (lib : StartupLibs) (cfg : Config) (peer : Peer) : List Outgoing :=
  match Conn.sendRaw peer.writes .init (.startup cfg.user cfg.database cfg.startupParams) .loop with
  | .more phase conn =>
    sentFrom lib cfg peer.writes (handedOver lib cfg) phase conn peer.reads
  | _ => [.startup cfg.user cfg.database cfg.startupParams]

/-- A call of `connect_inner`: what has left in the clear, what has left encrypted, and what it
returns, which is nothing while it waits for a message. -/
structure Attempt where
  clear : List Packet
  encrypted : List Outgoing
  result : Option (Except PgWireError Conn)

/-- `connect_inner`. -/
def connectInner (lib : ConnectLibs) (addr : String) (cfg : Config) (mode : TlsMode)
    (config : TlsConfig) (e : Endpoint) : Attempt :=
  match e.tcp with
  | .error err => ⟨[], [], some (.error err)⟩
  | .ok () =>
    let asked : List Packet := if mode = .disable then [] else [.sslRequest]
    match negotiateTls lib.tls config mode (parseHostname addr) e with
    | .error err => ⟨asked, [], some (.error err)⟩
    | .ok (.plain peer) =>
      let cfg := { cfg with certHash := none }
      ⟨asked ++ (written lib.startup cfg peer).map .message, [],
        finishStartup lib.startup cfg peer⟩
    | .ok (.tls channel) =>
      let cfg := { cfg with certHash := channel.certHash lib.sha }
      ⟨asked, written lib.startup cfg channel.peer, finishStartup lib.startup cfg channel.peer⟩

/-! ### What is handed to the stream -/

variable {lib : StartupLibs} {cfg : Config} {writes : ℕ → Option PgWireError}

theorem sendRaw_eq {conn conn' : Conn} {msg : Outgoing} {phase phase' : Phase}
    (h : Conn.sendRaw writes conn msg phase = .more phase' conn') :
    phase' = phase ∧ conn' = { conn with sent := conn.sent ++ [msg] } := by
  unfold Conn.sendRaw at h
  split at h
  · cases h
  · cases h
    exact ⟨rfl, rfl⟩

/-- `finish_startup` ends with the connection it has. -/
theorem feed_done {conn conn' : Conn} {phase : Phase} {m : BackendMsg}
    (h : feed lib cfg writes conn phase m = .done conn') : conn' = conn := by
  have hsend : ∀ conn₁ msg phase₁, Conn.sendRaw writes conn₁ msg phase₁ ≠ .done conn' := by
    intro conn₁ msg phase₁ heq
    unfold Conn.sendRaw at heq
    split at heq <;> cases heq
  unfold feed at h
  split at h
  case h_7 => cases h; rfl
  case h_4 | h_10 =>
    split at h
    · cases h
    · exact absurd h (hsend _ _ _)
  case h_2 | h_3 => exact absurd h (hsend _ _ _)
  all_goals cases h

/-- A message leads to a password, to one of the two messages of an exchange, or to none. -/
theorem feed_more {conn conn' : Conn} {phase phase' : Phase} {m : BackendMsg}
    (h : feed lib cfg writes conn phase m = .more phase' conn') :
    (conn'.sent = conn.sent ∧ ∀ scram, phase' = .serverFirst scram → phase = .serverFirst scram) ∨
    (∃ data, conn'.sent = conn.sent ++ [.password data] ∧ phase' = .loop) ∨
    (∃ ms cb name, m = .authenticationSASL ms ∧
      chooseScramMechanism cfg.certHash ms = .ok (cb, name) ∧
      conn'.sent = conn.sent ++ [.frontend (.saslInitialResponse (asBytes name)
        (ScramClient.new lib.toLibs cfg.password cb (cfg.random conn.begun)).2)] ∧
      phase' = .serverFirst
        (ScramClient.new lib.toLibs cfg.password cb (cfg.random conn.begun)).1) ∨
    ∃ scram data clientFinal, phase = .serverFirst scram ∧
      scram.processServerFirst lib.toLibs data = .ok clientFinal ∧
      conn'.sent = conn.sent ++ [.frontend (.saslResponse clientFinal)] ∧
      phase' = .serverFinal := by
  unfold feed at h
  split at h
  case h_2 | h_3 =>
    obtain ⟨rfl, rfl⟩ := sendRaw_eq h
    exact .inr (.inl ⟨_, rfl, rfl⟩)
  case h_4 ms =>
    split at h
    · cases h
    · rename_i cb name hchoose
      obtain ⟨rfl, rfl⟩ := sendRaw_eq h
      exact .inr (.inr (.inl ⟨ms, cb, name, rfl, hchoose, rfl, rfl⟩))
  case h_10 scram data =>
    split at h
    · cases h
    · rename_i clientFinal hfinal
      obtain ⟨rfl, rfl⟩ := sendRaw_eq h
      exact .inr (.inr (.inr ⟨scram, data, clientFinal, rfl, hfinal, rfl, rfl⟩))
  all_goals
    cases h
    all_goals refine .inl ⟨rfl, fun scram hphase => ?_⟩
    all_goals first | exact hphase | cases hphase

/-- What a run that succeeds has sent is what its connection remembers. -/
theorem sentFrom_of_ok {failed : Phase → Conn → BackendMsg → List Outgoing} {phase : Phase}
    {conn conn' : Conn} {rs : List ReadResult}
    (h : receiveAll lib cfg writes phase conn rs = some (.ok conn')) :
    sentFrom lib cfg writes failed phase conn rs = conn'.sent := by
  induction rs generalizing phase conn with
  | nil => cases h
  | cons r rs ih =>
    rcases r with e | m
    · cases h
    · rw [receiveAll] at h
      rw [sentFrom]
      cases hfeed : feed lib cfg writes conn phase m with
      | more phase' conn₁ =>
        rw [hfeed] at h
        exact ih h
      | done conn₁ =>
        rw [hfeed] at h
        cases h
        rfl
      | failed e =>
        rw [hfeed] at h
        cases h

/-- A connection has handed to its stream what it says it has sent. -/
theorem written_of_ok {peer : Peer} {conn : Conn}
    (h : finishStartup lib cfg peer = some (.ok conn)) : written lib cfg peer = conn.sent := by
  unfold finishStartup at h
  unfold written
  cases hsend : Conn.sendRaw peer.writes .init
      (.startup cfg.user cfg.database cfg.startupParams) .loop with
  | more phase conn₁ =>
    rw [hsend] at h
    exact sentFrom_of_ok h
  | done conn₁ =>
    unfold Conn.sendRaw at hsend
    split at hsend <;> cases hsend
  | failed e =>
    rw [hsend] at h
    cases h

/-! ### Exchanges over an encrypted stream -/

theorem commaFree_read {acc acc' : Scram.ServerFirst} {parts : List String}
    (h : parts.foldlM Scram.ServerFirst.read acc = .ok acc') (hacc : CommaFree acc.serverNonce)
    (hparts : ∀ part ∈ parts, CommaFree part) : CommaFree acc'.serverNonce := by
  induction parts generalizing acc with
  | nil =>
    cases h
    exact hacc
  | cons part parts ih =>
    rw [List.forall_mem_cons] at hparts
    rw [List.foldlM_cons] at h
    cases hread : acc.read part with
    | error e =>
      rw [hread] at h
      cases h
    | ok acc₁ =>
      rw [hread] at h
      refine ih h ?_ hparts.2
      unfold Scram.ServerFirst.read at hread
      split at hread
      · rename_i v hv
        cases hread
        exact hparts.1.of_stripPrefix hv
      · split at hread
        · cases hread
          exact hacc
        · split at hread
          · split at hread <;> cases hread
            exact hacc
          · cases hread
            exact hacc

section

variable {F : Rfc5802.Functions}

/-- An answer of the client is that of a client that has some key. -/
theorem exists_of_processServerFirst (hlib : lib.toLibs.Implements F) {self : ScramClient}
    {data clientFinal binding : Bytes}
    (hbinding : self.channelBinding.channelBindingData lib.toLibs = F.encode binding)
    (h : self.processServerFirst lib.toLibs data = .ok clientFinal) :
    ∃ nonce key serverFirst, CommaFree nonce ∧ clientFinal =
      asBytes (Rfc5802.clientFinal F binding nonce key self.clientFirstBare serverFirst) := by
  cases hdata : fromUtf8 data with
  | none => simp [ScramClient.processServerFirst, hdata] at h
  | some serverFirst =>
    obtain rfl := asBytes_of_fromUtf8 hdata
    have h' := h
    unfold ScramClient.processServerFirst at h'
    simp only [hdata, bind, Except.bind] at h'
    cases hread : (splitComma serverFirst).foldlM Scram.ServerFirst.read ⟨"", "", 0⟩ with
    | error e =>
      rw [hread] at h'
      cases h'
    | ok msg =>
      simp only [hread] at h'
      cases hnonce : (stripPrefix self.nonce msg.serverNonce).isNone with
      | true => simp [hnonce] at h'
      | false =>
        cases hsalt : lib.decode msg.saltB64 with
        | error e => simp [hnonce, hsalt] at h'
        | ok salt =>
          cases hsalted : Scram.hi lib.toLibs self.password salt msg.iterations with
          | error e => simp [hnonce, hsalt, hsalted] at h'
          | ok salted =>
            rw [Scram.processServerFirst_eq hlib hread hnonce hsalt hsalted hbinding] at h
            cases h
            exact ⟨_, _, _, commaFree_read hread (by decide) fun part hpart =>
              Rfc5802.commaFree_of_mem_splitComma hpart, rfl⟩

/-- The mechanism that binds an exchange to the stream. -/
def plus : String := "SCRAM-SHA-256-PLUS"

/-- A message of an exchange is bound to the hash of a certificate: no server with another one
accepts it, whatever first message it was shown. -/
def BoundTo (F : Rfc5802.Functions) (hash : Bytes) : Outgoing → Prop
  | .frontend (.saslInitialResponse mechanism _) => mechanism = asBytes plus
  | .frontend (.saslResponse clientFinal) =>
    ∀ (srv : Server) (first : Bytes), srv.accepts F first clientFinal = true → srv.binding = hash
  | _ => True

/-- What was sent is bound, and so is the exchange that is going on. -/
structure Bound (F : Rfc5802.Functions) (hash : Bytes) (phase : Phase) (conn : Conn) : Prop where
  sent : ∀ m ∈ conn.sent, BoundTo F hash m
  scram : ∀ scram, phase = .serverFirst scram →
    scram.channelBinding = .tlsServerEndPoint hash

/-- The peer offers to bind the exchange whenever it asks for one. -/
def OffersPlus (rs : List ReadResult) : Prop :=
  ∀ ms, .ok (.authenticationSASL ms) ∈ rs → plus ∈ ms

theorem Bound.feed {hash : Bytes} {conn conn' : Conn} {phase phase' : Phase} {m : BackendMsg}
    (hF : F.Lawful) (hlib : lib.toLibs.Implements F) (h : Bound F hash phase conn)
    (hcfg : cfg.certHash = some hash) (hplus : ∀ ms, m = .authenticationSASL ms → plus ∈ ms)
    (hfeed : Auth.feed lib cfg writes conn phase m = .more phase' conn') :
    Bound F hash phase' conn' := by
  have hsent : ∀ {msg}, BoundTo F hash msg → ∀ m ∈ conn.sent ++ [msg], BoundTo F hash m := by
    intro msg hmsg m hm
    rcases List.mem_append.1 hm with hm | hm
    · exact h.sent m hm
    · rwa [List.mem_singleton.1 hm]
  rcases feed_more hfeed with ⟨heq, hphase⟩ | ⟨data, heq, rfl⟩ |
    ⟨ms, cb, name, rfl, hchoose, heq, rfl⟩ | ⟨scram, data, clientFinal, rfl, hfinal, heq, rfl⟩
  · exact ⟨heq ▸ h.sent, fun scram hscram => h.scram scram (hphase scram hscram)⟩
  · refine ⟨heq ▸ hsent trivial, fun scram hscram => ?_⟩
    cases hscram
  · -- with the certificate at hand and the mechanism offered, it is chosen
    have hbound : chooseScramMechanism cfg.certHash ms = .ok (.tlsServerEndPoint hash, plus) := by
      simp only [chooseScramMechanism, hcfg]
      exact if_pos (hplus ms rfl)
    rw [hbound] at hchoose
    cases hchoose
    refine ⟨heq ▸ hsent rfl, fun scram hscram => ?_⟩
    cases hscram
    rfl
  · have hbinding : scram.channelBinding.channelBindingData lib.toLibs =
        F.encode (asBytes "p=tls-server-end-point,," ++ hash) := by
      rw [h.scram scram rfl, ChannelBinding.channelBindingData, hlib.encode]
    obtain ⟨nonce, key, serverFirst, hnonce, rfl⟩ :=
      exists_of_processServerFirst hlib hbinding hfinal
    refine ⟨heq ▸ hsent fun srv first haccepts =>
      Rfc5802.Server.binding_of_accepts hF hnonce haccepts, fun scram hscram => ?_⟩
    cases hscram

/-- Whatever the peer does, all that is handed to the stream is bound. -/
theorem boundTo_of_mem_sentFrom {hash : Bytes} (hF : F.Lawful) (hlib : lib.toLibs.Implements F)
    (hcfg : cfg.certHash = some hash) {phase : Phase} {conn : Conn} {rs : List ReadResult}
    (h : Bound F hash phase conn) (hplus : OffersPlus rs) :
    ∀ m ∈ sentFrom lib cfg writes (handedOver lib cfg) phase conn rs, BoundTo F hash m := by
  induction rs generalizing phase conn with
  | nil => exact h.sent
  | cons r rs ih =>
    rcases r with e | m
    · exact h.sent
    · have hm : ∀ ms, m = .authenticationSASL ms → plus ∈ ms := by
        rintro ms rfl
        exact hplus ms List.mem_cons_self
      simp only [sentFrom]
      cases hfeed : Auth.feed lib cfg writes conn phase m with
      | more phase₁ conn₁ =>
        exact ih (h.feed hF hlib hcfg hm hfeed) fun ms hms => hplus ms (List.mem_cons_of_mem _ hms)
      | done conn₁ =>
        obtain rfl := feed_done hfeed
        exact h.sent
      | failed e =>
        simp only [handedOver]
        cases hfeed' : Auth.feed lib cfg (fun _ => none) conn phase m with
        | more phase₁ conn₁ => exact (h.feed hF hlib hcfg hm hfeed').sent
        | done conn₁ => exact h.sent
        | failed e => exact h.sent

theorem boundTo_of_mem_written {hash : Bytes} (hF : F.Lawful) (hlib : lib.toLibs.Implements F)
    (hcfg : cfg.certHash = some hash) {peer : Peer} (hplus : OffersPlus peer.reads) :
    ∀ m ∈ written lib cfg peer, BoundTo F hash m := by
  have hstartup : ∀ m ∈ [Outgoing.startup cfg.user cfg.database cfg.startupParams],
      BoundTo F hash m := by
    intro m hm
    rw [List.mem_singleton.1 hm]
    trivial
  unfold written
  cases hsend : Conn.sendRaw peer.writes .init
      (.startup cfg.user cfg.database cfg.startupParams) .loop with
  | more phase conn =>
    obtain ⟨rfl, rfl⟩ := sendRaw_eq hsend
    refine boundTo_of_mem_sentFrom hF hlib hcfg ⟨hstartup, fun scram hscram => ?_⟩ hplus
    cases hscram
  | done conn => exact hstartup
  | failed e => exact hstartup

end

/-! ### The two streams -/

section

variable {lib : TlsLibs} {config : TlsConfig} {mode : TlsMode} {hostname : String} {e : Endpoint}

/-- The client goes on in the clear only if it was told to, or if it may and was refused. -/
theorem negotiateTls_plain {peer : Peer}
    (h : negotiateTls lib config mode hostname e = .ok (.plain peer)) :
    mode = .disable ∨ mode = .prefer ∧ e.response = .ok (byte 'N') := by
  unfold negotiateTls at h
  by_cases hdisable : mode = .disable
  · exact .inl hdisable
  · rw [if_neg hdisable] at h
    cases hrequest : e.request with
    | error err => simp [hrequest, bind, Except.bind] at h
    | ok u =>
      cases hresponse : e.response with
      | error err => simp [hrequest, hresponse, bind, Except.bind] at h
      | ok response =>
        simp only [hrequest, hresponse, bind, Except.bind] at h
        split_ifs at h with hS hN hrequire
        · cases hupgrade : upgrade lib config hostname e <;> simp [hupgrade, pure, Except.pure] at h
        · refine .inr ⟨?_, by rw [hN]⟩
          cases mode with
          | disable => exact absurd rfl hdisable
          | prefer => rfl
          | require => exact absurd rfl hrequire

/-- What is encrypted goes to the end of a handshake that was shown the trust store, the identity
and the name that the client was called with. -/
theorem negotiateTls_tls {channel : Channel}
    (h : negotiateTls lib config mode hostname e = .ok (.tls channel)) :
    mode ≠ .disable ∧ e.response = .ok (byte 'S') ∧ ∃ roots, rootStore lib config = .ok roots ∧
      e.handshake roots config.clientCert hostname = .ok channel := by
  unfold negotiateTls at h
  have hdisable : mode ≠ .disable := by
    intro hdisable
    rw [if_pos hdisable] at h
    cases h
  rw [if_neg hdisable] at h
  refine ⟨hdisable, ?_⟩
  cases hrequest : e.request with
  | error err => simp [hrequest, bind, Except.bind] at h
  | ok u =>
    cases hresponse : e.response with
    | error err => simp [hrequest, hresponse, bind, Except.bind] at h
    | ok response =>
      simp only [hrequest, hresponse, bind, Except.bind] at h
      split_ifs at h with hS hN hrequire
      · refine ⟨by rw [hS], ?_⟩
        cases hupgrade : upgrade lib config hostname e with
        | error err =>
          rw [hupgrade] at h
          cases h
        | ok channel' =>
          rw [hupgrade] at h
          cases h
          unfold upgrade at hupgrade
          cases hroots : rootStore lib config with
          | error err => simp [hroots, bind, Except.bind] at hupgrade
          | ok roots =>
            refine ⟨roots, rfl, ?_⟩
            simp only [hroots, bind, Except.bind] at hupgrade
            repeat' split at hupgrade
            all_goals first | exact hupgrade | cases hupgrade
      · cases h

end

theorem parseHostname_name {host : String} (hcolon : ':' ∉ host.toList)
    (hbracket : host.toList.head? ≠ some '[') (port : String) :
    parseHostname (host ++ ":" ++ port) = host := by
  have hhead : (host.toList ++ [':'] ++ port.toList).head? ≠ some '[' := by
    rcases hcs : host.toList with _ | ⟨c, cs⟩
    · simp
    · simpa [hcs] using hbracket
  have htake : (host.toList ++ ':' :: port.toList).takeWhile (· ≠ ':') = host.toList := by
    rw [List.takeWhile_append_of_pos (by simpa using fun c hc => ne_of_mem_of_not_mem hc hcolon)]
    simp
  have hlist : (host ++ ":" ++ port).toList = host.toList ++ [':'] ++ port.toList := by simp
  rw [parseHostname, hlist, if_neg fun h => hhead h.1, List.append_assoc, List.singleton_append,
    htake, String.ofList_toList]

theorem parseHostname_bracketed {host : String} (hbracket : ']' ∉ host.toList) (port : String) :
    parseHostname ("[" ++ host ++ "]:" ++ port) = host := by
  have hlist : ("[" ++ host ++ "]:" ++ port).toList =
      ('[' :: host.toList) ++ ']' :: ':' :: port.toList := by simp
  have hnot : ']' ∉ '[' :: host.toList := by simpa using hbracket
  have htake : (('[' :: host.toList) ++ ']' :: ':' :: port.toList).takeWhile (· ≠ ']') =
      '[' :: host.toList := by
    rw [List.takeWhile_append_of_pos (by simpa using fun c hc => ne_of_mem_of_not_mem hc hbracket)]
    simp
  rw [parseHostname, hlist, if_pos ⟨rfl, by simp⟩, htake, List.drop_one, List.tail_cons,
    String.ofList_toList]

/-- **Confidentiality of a connection.**  A connection has sent what it has handed to one of two
streams.  With `Require` nothing but the request for encryption leaves in the clear, and otherwise
only if that was asked for or the server refused.  What leaves encrypted goes to the end of a
handshake with the name of the address; and if that end has a certificate and offers to bind the
exchanges it asks for, then no server with another certificate can use them. -/
theorem connectInner_confidential {F : Rfc5802.Functions} (hF : F.Lawful) (lib : ConnectLibs)
    (hlib : lib.startup.toLibs.Implements F) (addr : String) (cfg : Config) (mode : TlsMode)
    (config : TlsConfig) (e : Endpoint) :
    let attempt := connectInner lib addr cfg mode config e
    (∀ conn, attempt.result = some (.ok conn) →
      attempt.encrypted = conn.sent ∨
        attempt.encrypted = [] ∧ conn.sent.map .message <:+ attempt.clear) ∧
    (mode = .require → ∀ p ∈ attempt.clear, p = .sslRequest) ∧
    (∀ m, .message m ∈ attempt.clear →
      mode = .disable ∨ mode = .prefer ∧ e.response = .ok (byte 'N')) ∧
    (attempt.encrypted ≠ [] → ∃ roots channel, rootStore lib.tls config = .ok roots ∧
      e.handshake roots config.clientCert (parseHostname addr) = .ok channel ∧
      ∀ cert certs, channel.peerCertificates = some (cert :: certs) →
        OffersPlus channel.peer.reads →
          ∀ m ∈ attempt.encrypted, BoundTo F (certSignatureHash lib.sha cert) m) := by
  intro attempt
  have hasked : ∀ p ∈ (if mode = .disable then [] else [Packet.sslRequest]), p = .sslRequest := by
    intro p hp
    split_ifs at hp
    · cases hp
    · exact List.mem_singleton.1 hp
  have hmessage : ∀ m, .message m ∈ (if mode = .disable then [] else [Packet.sslRequest]) →
      mode = .disable ∨ mode = .prefer ∧ e.response = .ok (byte 'N') := by
    intro m hm
    cases hasked _ hm
  simp only [attempt, connectInner]
  cases htcp : e.tcp with
  | error err => simp
  | ok u =>
    simp only
    cases hstream : negotiateTls lib.tls config mode (parseHostname addr) e with
    | error err =>
      refine ⟨fun conn hconn => ?_, fun _ => hasked, hmessage, fun hne => absurd rfl hne⟩
      cases hconn
    | ok stream =>
      cases stream with
      | plain peer =>
        dsimp only
        have hmode := negotiateTls_plain hstream
        refine ⟨fun conn hconn => .inr ⟨rfl, ?_⟩, fun hrequire => ?_, fun _ _ => hmode,
          fun hne => absurd rfl hne⟩
        · rw [written_of_ok hconn]
          exact List.suffix_append _ _
        · rw [hrequire] at hmode
          rcases hmode with hmode | ⟨hmode, -⟩ <;> cases hmode
      | tls channel =>
        dsimp only
        obtain ⟨-, -, roots, hroots, hhandshake⟩ := negotiateTls_tls hstream
        refine ⟨fun conn hconn => .inl (written_of_ok hconn), fun _ => hasked, hmessage,
          fun _ => ⟨roots, channel, hroots, hhandshake, fun cert certs hcerts hplus => ?_⟩⟩
        refine boundTo_of_mem_written hF hlib ?_ hplus
        simp only [Channel.certHash, hcerts, Option.bind_some, List.head?_cons, Option.map_some]

/-- The end of a stream that shows the given certificate, relays both mechanisms of a server, and
relays or makes up a challenge. -/
def relay (lib : StartupLibs) (cfg : Config) (cert : Bytes) : Endpoint where
  tcp := .ok ()
  request := .ok ()
  response := .ok (byte 'S')
  clear := ⟨[], fun _ => none⟩
  handshake _ _ _ := .ok ⟨some [cert],
    ⟨[.ok (.authenticationSASL ["SCRAM-SHA-256", plus]),
      .ok (.authenticationSASLContinue (emptyChallenge lib cfg))], fun _ => none⟩⟩

/-- Libraries that accept whatever they are given. -/
def permissiveLibs : ConnectLibs where
  startup := sha256StartupLibs
  tls := ⟨fun _ => .ok (), .ok (), fun _ => .ok (), fun _ _ => .ok (), fun _ => .ok ()⟩
  sha := ⟨Rfc5802.Sha256.digest, Rfc5802.Sha256.digest, Rfc5802.Sha256.digest⟩

/-- The relay gets no further than to a server with its own certificate. -/
theorem connectInner_confidential_relay :
    let attempt := connectInner permissiveLibs "db.example:5432" aliceConfig .require .default
      (relay sha256StartupLibs aliceConfig [0x30, 0x00])
    (∀ p ∈ attempt.clear, p = .sslRequest) ∧ attempt.encrypted.length = 3 ∧
      ∀ m ∈ attempt.encrypted,
        BoundTo Rfc5802.sha256Functions (Rfc5802.Sha256.digest [0x30, 0x00]) m := by
  intro attempt
  have hlib : sha256StartupLibs.toLibs.Implements Rfc5802.sha256Functions :=
    Scram.implements_sha256Libs
  obtain ⟨-, hclear, -, hencrypted⟩ := connectInner_confidential Rfc5802.lawful_sha256Functions
    permissiveLibs hlib "db.example:5432" aliceConfig .require .default
    (relay sha256StartupLibs aliceConfig [0x30, 0x00])
  have hlength : attempt.encrypted.length = 3 := by
    obtain ⟨clientFinal, hfinal⟩ := processServerFirst_emptyChallenge
      Rfc5802.lawful_sha256Functions hlib aliceConfig
      (.tlsServerEndPoint (Rfc5802.Sha256.digest [0x30, 0x00]))
    have hchoose : chooseScramMechanism (some (Rfc5802.Sha256.digest [0x30, 0x00]))
        ["SCRAM-SHA-256", plus] =
        .ok (.tlsServerEndPoint (Rfc5802.Sha256.digest [0x30, 0x00]), plus) := rfl
    have hdigest : CertHash.certDigest [0x30, 0x00] = .sha256 := by decide
    have hhash : certSignatureHash permissiveLibs.sha [0x30, 0x00] =
        Rfc5802.Sha256.digest [0x30, 0x00] := by
      rw [certSignatureHash, hdigest]
      rfl
    change (written sha256StartupLibs { aliceConfig with
      certHash := some (certSignatureHash permissiveLibs.sha [0x30, 0x00]) }
      ⟨[.ok (.authenticationSASL ["SCRAM-SHA-256", plus]), .ok (.authenticationSASLContinue
        (emptyChallenge sha256StartupLibs aliceConfig))], fun _ => none⟩).length = 3
    rw [hhash]
    simp only [written, Conn.sendRaw, sentFrom, feed, hchoose, Conn.init]
    erw [hfinal]
    rfl
  obtain ⟨roots, channel, -, hchannel, hbound⟩ := hencrypted fun hnil => by
    rw [show attempt.encrypted = [] from hnil] at hlength
    cases hlength
  cases hchannel
  refine ⟨hclear rfl, hlength, hbound [0x30, 0x00] [] rfl ?_⟩
  intro ms hms
  simp only [List.mem_cons, List.not_mem_nil, or_false, Except.ok.injEq, reduceCtorEq,
    BackendMsg.authenticationSASL.injEq] at hms
  simp [hms]

end Auth

end Resolute
