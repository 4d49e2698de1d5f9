import Resolute.Auth.Functions
import Resolute.Wire.Backend

/-!
# The client of a salted challenge response

`ScramClient` of `scram.rs`: its first message (`ScramClient.new`), and its answer to the message of
the server (`ScramClient.processServerFirst`).  The libraries it calls, for HMAC-SHA-256, SHA-256
and base64, are parameters that compute what they are documented to (`Libs.Implements`).

The loop of `hi` computes the first block of PBKDF2 (`hi_eq`), and from there on the client follows
the mechanism step by step: the server accepts its answer (`processServerFirst_accepted`).
-/

namespace Resolute.Scram

open Rfc5802 (splitComma stripPrefix)

/-- The libraries of the client. -/
structure Libs where
  /-- `Hmac::<Sha256>::new_from_slice`: a function of all that the MAC is updated with. -/
  newFromSlice : Bytes → Except String (Bytes → Bytes)
  /-- `Sha256::digest`. -/
  sha256 : Bytes → Bytes
  /-- `B64.encode`. -/
  encode : Bytes → String
  /-- `B64.decode`, with the text of its errors. -/
  decode : String → Except String Bytes

/-- The libraries compute the given functions; HMAC takes keys of any length. -/
structure Libs.Implements (lib : Libs) (F : Rfc5802.Functions) : Prop where
  newFromSlice : ∀ key, lib.newFromSlice key = .ok (F.hmac key)
  sha256 : lib.sha256 = F.hash
  encode : lib.encode = F.encode
  decode : ∀ text data, F.decode text = some data ↔ lib.decode text = .ok data

/-- Channel binding mode. -/
inductive ChannelBinding where
  /-- No channel binding, `n,,`. -/
  | none
  /-- `tls-server-end-point` with the hash of the certificate of the server. -/
  | tlsServerEndPoint (certHash : Bytes)
  deriving DecidableEq, Repr

/-- The GS2 header. -/
def ChannelBinding.gs2Header : ChannelBinding → String
  | none => "n,,"
  | tlsServerEndPoint _ => "p=tls-server-end-point,,"

/-- The client. -/
structure ScramClient where
  password : String
  nonce : String
  clientFirstBare : String
  channelBinding : ChannelBinding
  deriving DecidableEq, Repr

/-- `str::parse::<u32>`: decimal digits, with a sign `+` that may be left out. -/
def parseU32 (s : String) : Option UInt32 :=
  let digits := (stripPrefix "+" s).getD s
  if digits.toList ≠ [] ∧ digits.toList.all Char.isDigit then
    let n := Nat.ofDigitChars 10 digits.toList 0
    if n < 4294967296 then some (.ofNat n) else none
  else none

/-- What is read off the message of the server. -/
structure ServerFirst where
  serverNonce : String
  saltB64 : String
  iterations : UInt32
  deriving DecidableEq, Repr

/-- One attribute of the message; a later one of the same name counts. -/
def ServerFirst.read (acc : ServerFirst) (part : String) : Except String ServerFirst :=
  match stripPrefix "r=" part with
  | some v => .ok { acc with serverNonce := v }
  | none =>
    match stripPrefix "s=" part with
    | some v => .ok { acc with saltB64 := v }
    | none =>
      match stripPrefix "i=" part with
      | some v =>
        match parseU32 v with
        | some n => .ok { acc with iterations := n }
        | none => .error "Bad iteration count"
      | none => .ok acc

section

variable (lib : Libs)

/-- `HmacSha256::new_from_slice`, with the caller's message in front of the error. -/
def newMac (key : Bytes) : Except String (Bytes → Bytes) :=
  match lib.newFromSlice key with
  | .ok mac => .ok mac
  | .error e => .error s!"HMAC key error: {e}"

/-- `for (r, x) in result.iter_mut().zip(u.iter()) { *r ^= x }`. -/
def xorAssign : Bytes → Bytes → Bytes
  | r :: result, x :: u => (r ^^^ x) :: xorAssign result u
  | result, _ => result

/-- The loop of `hi`, with `n` passes to go. -/
def hiLoop (password : Bytes) : (n : ℕ) → (u result : Bytes) → Except String Bytes
  | 0, _, result => .ok result
  | n + 1, u, result => do
    let mac ← newMac lib password
    let u := mac u
    hiLoop password n u (xorAssign result u)

/-- PBKDF2 with HMAC-SHA-256. -/
def hi (password : String) (salt : Bytes) (iterations : UInt32) : Except String Bytes := do
  let mac ← newMac lib (asBytes password)
  let u := mac (salt ++ u32Bytes 1)
  hiLoop lib (asBytes password) (iterations.toNat - 1) u u

def hmacSha256 (key data : Bytes) : Except String Bytes := do
  let mac ← newMac lib key
  return mac data

/-- Channel binding data of the client-final-message. -/
def ChannelBinding.channelBindingData : ChannelBinding → String
  | .none => lib.encode (asBytes "n,,")
  | .tlsServerEndPoint certHash => lib.encode (asBytes "p=tls-server-end-point,," ++ certHash)

namespace ScramClient

/-- `ScramClient::new`, with the random bytes of `generate_nonce`; also the client-first-message. -/
def new (password : String) (channelBinding : ChannelBinding) (random : Bytes) :
    ScramClient × Bytes :=
  let nonce := lib.encode random
  let clientFirstBare := s!"n=,r={nonce}"
  let clientFirstMsg := channelBinding.gs2Header ++ clientFirstBare
  (⟨password, nonce, clientFirstBare, channelBinding⟩, asBytes clientFirstMsg)

/-- `ScramClient::process_server_first`: the client-final-message. -/
def processServerFirst (self : ScramClient) (serverFirst : Bytes) : Except String Bytes :=
  match fromUtf8 serverFirst with
  | .none =>
    let e := utf8Error serverFirst.length 0 serverFirst
    .error s!"Invalid UTF-8 in server-first: {e}"
  | some serverFirst => do
    let msg ← (splitComma serverFirst).foldlM ServerFirst.read ⟨"", "", 0⟩
    if (stripPrefix self.nonce msg.serverNonce).isNone then
      .error "Server nonce doesn't start with client nonce"
    else do
      let salt ← match lib.decode msg.saltB64 with
        | .ok salt => Except.ok salt
        | .error e => .error s!"Bad salt base64: {e}"
      let saltedPassword ← hi lib self.password salt msg.iterations
      let clientKey ← hmacSha256 lib saltedPassword (asBytes "Client Key")
      let storedKey := lib.sha256 clientKey
      let binding := self.channelBinding.channelBindingData lib
      let clientFinalWithoutProof := s!"c={binding},r={msg.serverNonce}"
      let authMessage := s!"{self.clientFirstBare},{serverFirst},{clientFinalWithoutProof}"
      let clientSignature ← hmacSha256 lib storedKey (asBytes authMessage)
      let proof := List.zipWith (· ^^^ ·) clientKey clientSignature
      let proofB64 := lib.encode proof
      return asBytes s!"{clientFinalWithoutProof},p={proofB64}"

end ScramClient

end

/-! ### The salted password -/

theorem xorAssign_eq {r u : Bytes} (h : r.length = u.length) : xorAssign r u = Rfc5802.xor r u := by
  induction r generalizing u with
  | nil => rfl
  | cons x r ih =>
    cases u with
    | nil => cases h
    | cons y u =>
      rw [xorAssign, ih (by simpa using h)]
      rfl

section

open Rfc5802.Pbkdf2

variable {prf : Bytes → Bytes} {salt : Bytes}

theorem length_U (hprf : ∀ data, (prf data).length = 32) (j : ℕ) :
    (U prf salt (j + 1)).length = 32 := hprf _

theorem length_block (hprf : ∀ data, (prf data).length = 32) (c : ℕ) :
    (block prf salt (c + 1)).length = 32 := by
  induction c with
  | zero => exact length_U hprf 0
  | succ c ih => exact (Rfc5802.length_xor (ih.trans (length_U hprf _).symm)).trans ih

variable {lib : Libs} {password : Bytes}

/-- The loop holds `U_c` and the block for `c` iterations. -/
theorem hiLoop_eq (salt : Bytes) (hmac : lib.newFromSlice password = .ok prf)
    (hprf : ∀ data, (prf data).length = 32) (n c : ℕ) :
    hiLoop lib password n (U prf salt (c + 1)) (block prf salt (c + 1)) =
      .ok (block prf salt (c + 1 + n)) := by
  induction n generalizing c with
  | zero => rfl
  | succ n ih =>
    have hlen : (block prf salt (c + 1)).length = (prf (U prf salt (c + 1))).length :=
      (length_block hprf c).trans (hprf _).symm
    have hblock : xorAssign (block prf salt (c + 1)) (prf (U prf salt (c + 1))) =
        block prf salt (c + 2) := xorAssign_eq hlen
    have hmac' : newMac lib password = .ok prf := by rw [newMac, hmac]
    calc hiLoop lib password (n + 1) (U prf salt (c + 1)) (block prf salt (c + 1))
        = hiLoop lib password n (U prf salt (c + 2))
            (xorAssign (block prf salt (c + 1)) (prf (U prf salt (c + 1)))) := by
          rw [hiLoop, hmac']
          rfl
      _ = .ok (block prf salt (c + 1 + 1 + n)) := by
          rw [hblock]
          exact ih (c + 1)
      _ = .ok (block prf salt (c + 1 + (n + 1))) := by
          rw [Nat.add_assoc (c + 1), Nat.add_comm 1 n]

/-- **The salted password.**  `hi` is the first block of PBKDF2. -/
theorem hi_eq {F : Rfc5802.Functions} (hF : F.Lawful) (hlib : lib.Implements F) (password : String)
    (salt : Bytes) {iterations : UInt32} (h : 1 ≤ iterations) :
    hi lib password salt iterations =
      .ok (block (F.hmac (asBytes password)) salt iterations.toNat) := by
  have hpos : 1 ≤ iterations.toNat := UInt32.le_iff_toNat_le.1 h
  have hmac := hlib.newFromSlice (asBytes password)
  have hmac' : newMac lib (asBytes password) = .ok (F.hmac (asBytes password)) := by
    rw [newMac, hmac]
  have hloop := hiLoop_eq salt hmac (hF.length_hmac (asBytes password)) (iterations.toNat - 1) 0
  rw [show 0 + 1 + (iterations.toNat - 1) = iterations.toNat by omega] at hloop
  rw [hi, hmac', ← hloop]
  rfl

end

/-! ### The message of the server -/

theorem parseU32_repr (n : UInt32) : parseU32 (Nat.repr n.toNat) = some n := by
  have hdigits : ∀ c ∈ (Nat.repr n.toNat).toList, c.isDigit = true := by
    intro c hc
    rw [Nat.toList_repr] at hc
    exact Nat.isDigit_of_mem_toDigits (by decide) (by decide) hc
  have hne : (Nat.repr n.toNat).toList ≠ [] := by
    rw [Nat.toList_repr]
    exact List.length_pos_iff.1 Nat.length_toDigits_pos
  have hsign : stripPrefix "+" (Nat.repr n.toNat) = none := by
    obtain ⟨c, cs, hcs⟩ := List.exists_cons_of_ne_nil hne
    have hc := hdigits c (by simp [hcs])
    have hplus : '+' ≠ c := by
      rintro rfl
      exact absurd hc (by decide)
    simp [stripPrefix, hcs, hplus]
  have hall : (Nat.repr n.toNat).toList.all Char.isDigit = true := List.all_eq_true.2 hdigits
  have hlt := n.toNat_lt
  rw [parseU32, hsign, Option.getD_none, if_pos ⟨hne, hall⟩, Nat.toList_repr,
    Nat.ofDigitChars_ten_toDigits, if_pos hlt, UInt32.ofNat_toNat]

theorem stripPrefix_attribute {a b : Char} (h : a ≠ b) (v : String) :
    stripPrefix (String.ofList [a, '=']) (String.ofList [b, '='] ++ v) = none := by
  simp [stripPrefix, h]

theorem commaFree_repr (n : ℕ) : Rfc5802.CommaFree (Nat.repr n) := by
  intro hc
  rw [Nat.toList_repr] at hc
  have hdigit := Nat.isDigit_of_mem_toDigits (by decide) (by decide) hc
  exact absurd hdigit (by decide)

/-- The client reads the message of a server as it was meant. -/
theorem foldlM_read {nonce salt : String} (n : UInt32) (hnonce : Rfc5802.CommaFree nonce)
    (hsalt : Rfc5802.CommaFree salt) :
    (splitComma (Rfc5802.joinComma ["r=" ++ nonce, "s=" ++ salt, "i=" ++ Nat.repr n.toNat])).foldlM
      ServerFirst.read ⟨"", "", 0⟩ = .ok ⟨nonce, salt, n⟩ := by
  have hsr : stripPrefix "r=" ("s=" ++ salt) = none := stripPrefix_attribute (by decide) salt
  have hir : stripPrefix "r=" ("i=" ++ Nat.repr n.toNat) = none :=
    stripPrefix_attribute (by decide) _
  have his : stripPrefix "s=" ("i=" ++ Nat.repr n.toNat) = none :=
    stripPrefix_attribute (by decide) _
  rw [Rfc5802.splitComma_joinComma (by simp)]
  · simp only [List.foldlM, ServerFirst.read, Rfc5802.stripPrefix_append, hsr, hir, his,
      parseU32_repr]
    rfl
  · have hr : Rfc5802.CommaFree "r=" := by decide
    have hs : Rfc5802.CommaFree "s=" := by decide
    have hi : Rfc5802.CommaFree "i=" := by decide
    simp only [List.mem_cons, List.not_mem_nil, or_false]
    rintro part (rfl | rfl | rfl)
    · exact hr.append hnonce
    · exact hs.append hsalt
    · exact hi.append (commaFree_repr _)

/-! ### The exchange -/

/-- The channel-binding flag of the GS2 header. -/
def ChannelBinding.flag : ChannelBinding → String
  | none => "n"
  | tlsServerEndPoint _ => "p=tls-server-end-point"

theorem ChannelBinding.gs2Header_eq (cb : ChannelBinding) :
    cb.gs2Header = cb.flag ++ "," ++ "" ++ "," := by
  cases cb <;> rfl

theorem ChannelBinding.commaFree_flag (cb : ChannelBinding) : Rfc5802.CommaFree cb.flag := by
  cases cb with
  | none =>
    change Rfc5802.CommaFree "n"
    decide
  | tlsServerEndPoint certHash =>
    change Rfc5802.CommaFree "p=tls-server-end-point"
    decide

section

open Rfc5802 (joinComma CommaFree Server)

variable {F : Rfc5802.Functions} {lib : Libs}

theorem clientFirstBare_eq (nonce : String) :
    s!"n=,r={nonce}" = joinComma ["n=", "r=" ++ nonce] := by
  rw [Rfc5802.joinComma_cons_cons, Rfc5802.joinComma_singleton]
  apply String.toList_injective
  simp [toString]

theorem clientFirst_eq (cb : ChannelBinding) (nonce : String) :
    cb.gs2Header ++ s!"n=,r={nonce}" = joinComma [cb.flag, "", "n=", "r=" ++ nonce] := by
  rw [clientFirstBare_eq, cb.gs2Header_eq, Rfc5802.joinComma_cons_cons cb.flag,
    Rfc5802.joinComma_cons_cons ""]
  apply String.toList_injective
  simp

/-- The server finds header, user and nonce in the first message. -/
theorem splitGs2_clientFirst (cb : ChannelBinding) {nonce : String} (hnonce : CommaFree nonce) :
    Server.splitGs2 (cb.gs2Header ++ s!"n=,r={nonce}") = some (cb.gs2Header, s!"n=,r={nonce}") := by
  have hr : CommaFree ("r=" ++ nonce) := CommaFree.append (by decide) hnonce
  rw [Server.splitGs2, clientFirst_eq, Rfc5802.splitComma_joinComma (by simp)]
  · rw [cb.gs2Header_eq, clientFirstBare_eq]
  · simp only [List.mem_cons, List.not_mem_nil, or_false]
    rintro part (rfl | rfl | rfl | rfl)
    · exact cb.commaFree_flag
    · decide
    · decide
    · exact hr

theorem clientNonce_clientFirst {nonce : String} (hnonce : CommaFree nonce) :
    Server.clientNonce s!"n=,r={nonce}" = some nonce := by
  have hr : CommaFree ("r=" ++ nonce) := CommaFree.append (by decide) hnonce
  rw [Server.clientNonce, clientFirstBare_eq, Rfc5802.splitComma_joinComma (by simp)]
  · exact Rfc5802.stripPrefix_append _ _
  · simp only [List.mem_cons, List.not_mem_nil, or_false]
    rintro part (rfl | rfl)
    · decide
    · exact hr

theorem withoutProof_eq (binding nonce : String) :
    s!"c={binding},r={nonce}" = joinComma ["c=" ++ binding, "r=" ++ nonce] := by
  rw [Rfc5802.joinComma_cons_cons, Rfc5802.joinComma_singleton]
  apply String.toList_injective
  simp [toString]

theorem clientFinal_eq {withoutProof binding nonce : String} (proof : String)
    (h : withoutProof = joinComma ["c=" ++ binding, "r=" ++ nonce]) :
    s!"{withoutProof},p={proof}" = joinComma ["c=" ++ binding, "r=" ++ nonce, "p=" ++ proof] := by
  subst h
  simp only [Rfc5802.joinComma_cons_cons, Rfc5802.joinComma_singleton]
  apply String.toList_injective
  simp [toString]

theorem authMessage_eq (bare serverFirst withoutProof : String) :
    asBytes s!"{bare},{serverFirst},{withoutProof}" =
      Rfc5802.authMessage bare serverFirst withoutProof := by
  rw [Rfc5802.authMessage]
  congr 1
  simp only [Rfc5802.joinComma_cons_cons, Rfc5802.joinComma_singleton]
  apply String.toList_injective
  simp [toString]

theorem hmacSha256_eq (hlib : lib.Implements F) (key data : Bytes) :
    hmacSha256 lib key data = .ok (F.hmac key data) := by
  rw [hmacSha256, newMac, hlib.newFromSlice key]
  rfl

/-- The binding data of the client is what the server expects behind the header. -/
theorem channelBindingData_eq (hlib : lib.Implements F) (srv : Server) {cb : ChannelBinding}
    (hcb : cb = .none ∨ cb = .tlsServerEndPoint srv.binding) :
    cb.channelBindingData lib =
      F.encode (asBytes cb.gs2Header ++ srv.bindingData cb.gs2Header) := by
  rcases hcb with rfl | rfl
  · have hplain : (stripPrefix "p=" "n,,").isSome = false := by decide
    simp [ChannelBinding.channelBindingData, ChannelBinding.gs2Header, Server.bindingData, hplain,
      hlib.encode]
  · have hbound : (stripPrefix "p=" "p=tls-server-end-point,,").isSome = true := by decide
    simp [ChannelBinding.channelBindingData, ChannelBinding.gs2Header, Server.bindingData, hbound,
      hlib.encode]

/-- The answer of the client is that of a client that has the key. -/
theorem processServerFirst_eq (hlib : lib.Implements F) {self : ScramClient} {serverFirst : String}
    {msg : ServerFirst} {binding salt salted : Bytes}
    (hread : (splitComma serverFirst).foldlM ServerFirst.read ⟨"", "", 0⟩ = .ok msg)
    (hnonce : (stripPrefix self.nonce msg.serverNonce).isNone = false)
    (hsalt : lib.decode msg.saltB64 = .ok salt)
    (hsalted : hi lib self.password salt msg.iterations = .ok salted)
    (hbinding : self.channelBinding.channelBindingData lib = F.encode binding) :
    self.processServerFirst lib (asBytes serverFirst) =
      .ok (asBytes (Rfc5802.clientFinal F binding msg.serverNonce (Rfc5802.clientKey F salted)
        self.clientFirstBare serverFirst)) := by
  rw [ScramClient.processServerFirst, fromUtf8_asBytes]
  simp only [hread, bind, Except.bind, hnonce, hsalt, hsalted, hmacSha256_eq hlib, hlib.sha256,
    hbinding, Bool.false_eq_true, if_false, pure, Except.pure, withoutProof_eq, authMessage_eq,
    hlib.encode]
  rw [clientFinal_eq _ rfl]
  rfl

/-- **SCRAM.**  The server that was given the password accepts the answer of the client, whatever
the nonces, the salt, the number of iterations and the channel binding. -/
theorem processServerFirst_accepted (hF : F.Lawful) (hlib : lib.Implements F) {password : String}
    (hnormal : F.normalize password = password) (random : Bytes) {nonce : String}
    (hnonce : CommaFree nonce) (salt : Bytes) {i : UInt32} (hi : 1 ≤ i) {cb : ChannelBinding}
    {binding : Bytes} (hcb : cb = .none ∨ cb = .tlsServerEndPoint binding) :
    ∃ serverFirst clientFinal,
      (Server.register F password salt i.toNat nonce binding).challenge F
        (ScramClient.new lib password cb random).2 = some serverFirst ∧
      (ScramClient.new lib password cb random).1.processServerFirst lib serverFirst =
        .ok clientFinal ∧
      (Server.register F password salt i.toNat nonce binding).accepts F
        (ScramClient.new lib password cb random).2 clientFinal = true ∧
      Scram.hi lib password salt i =
        .ok (Rfc5802.Pbkdf2.block (F.hmac (asBytes password)) salt i.toNat) := by
  have hclient : CommaFree (lib.encode random) := by
    rw [hlib.encode]
    exact hF.commaFree_encode random
  have hgs2 := splitGs2_clientFirst cb hclient
  have hbare := clientNonce_clientFirst hclient
  have hsalted := hi_eq hF hlib password salt hi
  have hread := foldlM_read i (hclient.append hnonce) (hF.commaFree_encode salt)
  rw [← String.append_assoc] at hread
  have hprefix : (stripPrefix (ScramClient.new lib password cb random).1.nonce
      (lib.encode random ++ nonce)).isNone = false := by simp [ScramClient.new]
  have hbinding := channelBindingData_eq hlib
    (Server.register F password salt i.toNat nonce binding) hcb
  have hanswer := processServerFirst_eq hlib hread hprefix
    ((hlib.decode _ _).1 (hF.decode_encode salt)) hsalted hbinding
  refine ⟨_, _, ?_, hanswer, ?_, hsalted⟩
  · simp only [Server.challenge, ScramClient.new, fromUtf8_asBytes, hgs2, hbare, bind,
      Option.bind_some, pure]
    rfl
  · simp only [Server.accepts, ScramClient.new, fromUtf8_asBytes, hgs2, hbare]
    refine Server.verify_clientFinal hF (hF.length_hmac _ _) ?_ (hclient.append hnonce)
    rw [Server.register, Rfc5802.saltedPassword, hnormal]

/-- The libraries, computing SHA-256 and base64. -/
def sha256Libs : Libs where
  newFromSlice key := .ok (Rfc5802.Sha256.hmac key)
  sha256 := Rfc5802.Sha256.digest
  encode := Rfc5802.Base64.encode
  decode text :=
    match Rfc5802.Base64.decode text with
    | some data => .ok data
    | none => .error "Invalid padding"

theorem implements_sha256Libs : sha256Libs.Implements Rfc5802.sha256Functions where
  newFromSlice _ := rfl
  sha256 := rfl
  encode := rfl
  decode text data := by
    simp only [sha256Libs, Rfc5802.sha256Functions]
    split <;> simp_all

/-- A user `pencil` with channel binding, and 4096 iterations. -/
theorem processServerFirst_accepted_pencil :
    ∃ serverFirst clientFinal,
      (Server.register Rfc5802.sha256Functions "pencil" [1, 2, 3] 4096 "ext" [7]).challenge
        Rfc5802.sha256Functions
        (ScramClient.new sha256Libs "pencil" (.tlsServerEndPoint [7]) [9, 9]).2 = some serverFirst ∧
      (ScramClient.new sha256Libs "pencil" (.tlsServerEndPoint [7]) [9, 9]).1.processServerFirst
        sha256Libs serverFirst = .ok clientFinal ∧
      (Server.register Rfc5802.sha256Functions "pencil" [1, 2, 3] 4096 "ext" [7]).accepts
        Rfc5802.sha256Functions
        (ScramClient.new sha256Libs "pencil" (.tlsServerEndPoint [7]) [9, 9]).2 clientFinal = true ∧
      hi sha256Libs "pencil" [1, 2, 3] 4096 = .ok (Rfc5802.Pbkdf2.block
        (Rfc5802.sha256Functions.hmac (asBytes "pencil")) [1, 2, 3] 4096) :=
  have hnormal : Rfc5802.sha256Functions.normalize "pencil" = "pencil" := rfl
  have hnonce : CommaFree "ext" := by decide
  processServerFirst_accepted Rfc5802.lawful_sha256Functions implements_sha256Libs hnormal [9, 9]
    hnonce [1, 2, 3] (i := 4096) (by decide) (.inr rfl)

end

end Resolute.Scram
