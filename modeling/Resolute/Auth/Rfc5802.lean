import Resolute.Wire.Types
import Mathlib.Data.List.Basic

/-!
# Salted challenge response authentication

The mechanism of RFC 5802, as its server sees it: what a server stores about a password (`Server`),
the message it challenges a client with (`Server.first`), and the check of the client's answer
(`Server.accepts`).  HMAC, the hash function and base64 are given functions, of which only their
laws are used (`Functions.Lawful`).  Nothing here is specific to this repository.

The attributes of a message are joined by commas; without commas in them they are recovered
(`splitComma_joinComma`).  A client's proof is the exclusive or of its key and its signature, so
that the server, which can compute the signature, recovers the key (`xor_xor_cancel`) and accepts
the message of a client that has it (`Server.verify_clientFinal`).  `Server.final` is the message by
which a server shows that it knows the password too.
-/

namespace Resolute.Rfc5802

/-! ### Exclusive or -/

/-- The exclusive or of two byte strings of the same length. -/
def xor (a b : Bytes) : Bytes := List.zipWith (· ^^^ ·) a b

theorem length_xor {a b : Bytes} (h : a.length = b.length) : (xor a b).length = a.length := by
  simp [xor, h]

theorem xor_xor_cancel {a b : Bytes} (h : a.length = b.length) : xor (xor a b) b = a := by
  induction a generalizing b with
  | nil => rfl
  | cons x a ih =>
    cases b with
    | nil => cases h
    | cons y b =>
      have htail := ih (b := b) (by simpa using h)
      simp only [xor, List.zipWith_cons_cons, List.cons.injEq] at htail ⊢
      exact ⟨by rw [UInt8.xor_assoc, UInt8.xor_self, UInt8.xor_zero], htail⟩

/-! ### Attributes -/

/-- The pieces of a text between its commas. -/
def splitComma (s : String) : List String := (s.toList.splitOn ',').map String.ofList

/-- Put commas between pieces of text. -/
def joinComma (parts : List String) : String :=
  String.ofList ([','].intercalate (parts.map String.toList))

/-- The text without the given beginning. -/
def stripPrefix (p s : String) : Option String :=
  if p.toList.isPrefixOf s.toList then some (String.ofList (s.toList.drop p.toList.length))
    else none

/-- No comma in the text. -/
def CommaFree (s : String) : Prop := ',' ∉ s.toList

instance (s : String) : Decidable (CommaFree s) := inferInstanceAs (Decidable (',' ∉ s.toList))

theorem CommaFree.append {s t : String} (hs : CommaFree s) (ht : CommaFree t) :
    CommaFree (s ++ t) := by
  simp only [CommaFree, String.toList_append, List.mem_append, not_or]
  exact ⟨hs, ht⟩

theorem splitComma_joinComma {parts : List String} (hne : parts ≠ [])
    (h : ∀ part ∈ parts, CommaFree part) : splitComma (joinComma parts) = parts := by
  have hsplit : ([','].intercalate (parts.map String.toList)).splitOn ',' =
      parts.map String.toList := by
    refine List.splitOn_intercalate ',' (fun l hl => ?_) (by simpa using hne)
    obtain ⟨part, hpart, rfl⟩ := List.mem_map.1 hl
    exact h part hpart
  simp [splitComma, joinComma, hsplit]

@[simp] theorem joinComma_cons_cons (p q : String) (parts : List String) :
    joinComma (p :: q :: parts) = p ++ "," ++ joinComma (q :: parts) := by
  apply String.toList_injective
  simp [joinComma, List.intercalate_cons_cons]

@[simp] theorem joinComma_singleton (part : String) : joinComma [part] = part := by
  simp [joinComma]

@[simp] theorem stripPrefix_append (p s : String) : stripPrefix p (p ++ s) = some s := by
  have hp : p.toList.isPrefixOf (p.toList ++ s.toList) = true := by simp
  simp [stripPrefix, hp]

/-! ### PBKDF2 -/

namespace Pbkdf2

variable (prf : Bytes → Bytes) (salt : Bytes)

/-- `U_0` is the salt with the number of the block, and `U_{j+1}` is the function of `U_j`. -/
def U : ℕ → Bytes
  | 0 => salt ++ [0, 0, 0, 1]
  | j + 1 => prf (U j)

/-- The first block for `c` iterations: the exclusive or of `U_1` to `U_c`. -/
def block : ℕ → Bytes
  | 0 => []
  | 1 => U prf salt 1
  | c + 2 => xor (block (c + 1)) (U prf salt (c + 2))

end Pbkdf2

/-! ### Servers -/

/-- The given functions. -/
structure Functions where
  /-- HMAC of a key and data. -/
  hmac : Bytes → Bytes → Bytes
  hash : Bytes → Bytes
  /-- Base64. -/
  encode : Bytes → String
  decode : String → Option Bytes
  /-- The normal form of a password. -/
  normalize : String → String

/-- What is used of the given functions. -/
structure Functions.Lawful (F : Functions) : Prop where
  length_hmac : ∀ key data, (F.hmac key data).length = 32
  decode_encode : ∀ data, F.decode (F.encode data) = some data
  commaFree_encode : ∀ data, CommaFree (F.encode data)

section

variable (F : Functions)

/-- `SaltedPassword`. -/
def saltedPassword (password : String) (salt : Bytes) (iterations : ℕ) : Bytes :=
  Pbkdf2.block (F.hmac (asBytes (F.normalize password))) salt iterations

/-- `ClientKey`. -/
def clientKey (salted : Bytes) : Bytes := F.hmac salted (asBytes "Client Key")

/-- `ServerKey`. -/
def serverKey (salted : Bytes) : Bytes := F.hmac salted (asBytes "Server Key")

/-- `AuthMessage`, of the three messages it is made from. -/
def authMessage (clientFirstBare serverFirst clientFinalWithoutProof : String) : Bytes :=
  asBytes (joinComma [clientFirstBare, serverFirst, clientFinalWithoutProof])

/-- The client-final-message without its proof. -/
def withoutProof (binding : Bytes) (nonce : String) : String :=
  joinComma ["c=" ++ F.encode binding, "r=" ++ nonce]

/-- The client-final-message of a client with the given key. -/
def clientFinal (binding : Bytes) (nonce : String) (key : Bytes) (bare serverFirst : String) :
    String :=
  let signature := F.hmac (F.hash key)
    (authMessage bare serverFirst (withoutProof F binding nonce))
  joinComma ["c=" ++ F.encode binding, "r=" ++ nonce, "p=" ++ F.encode (xor key signature)]

/-- What a server stores about a password, and what it brings to an exchange. -/
structure Server where
  salt : Bytes
  iterations : ℕ
  storedKey : Bytes
  serverKey : Bytes
  /-- Its part of the nonce. -/
  nonce : String
  /-- The channel-binding data of its end of the channel. -/
  binding : Bytes

namespace Server

/-- A server that was given the password when the user was created. -/
def register (password : String) (salt : Bytes) (iterations : ℕ) (nonce : String)
    (binding : Bytes) : Server where
  salt := salt
  iterations := iterations
  storedKey := F.hash (Rfc5802.clientKey F (saltedPassword F password salt iterations))
  serverKey := Rfc5802.serverKey F (saltedPassword F password salt iterations)
  nonce := nonce
  binding := binding

/-- The GS2 header of a client-first-message, and the rest of it. -/
def splitGs2 (clientFirst : String) : Option (String × String) :=
  match splitComma clientFirst with
  | flag :: authzid :: bare => some (flag ++ "," ++ authzid ++ ",", joinComma bare)
  | _ => none

/-- The nonce of a client-first-message without its header: `n=user,r=nonce`. -/
def clientNonce (bare : String) : Option String :=
  match splitComma bare with
  | _ :: r :: _ => stripPrefix "r=" r
  | _ => none

/-- The binding data that belongs to a header: none unless the client asks for channel binding. -/
def bindingData (srv : Server) (header : String) : Bytes :=
  if (stripPrefix "p=" header).isSome then srv.binding else []

/-- The server-first-message. -/
def first (srv : Server) (nonce : String) : String :=
  joinComma ["r=" ++ nonce ++ srv.nonce, "s=" ++ F.encode srv.salt,
    "i=" ++ Nat.repr srv.iterations]

/-- The check of a client-final-message: the nonce is the one of the server-first-message, the
channel binding is that of the client-first-message, and the client has the key. -/
def verify (srv : Server) (header bare nonce clientFinal : String) : Bool :=
  match splitComma clientFinal with
  | c :: r :: more =>
    let attributes := c :: r :: more
    let withoutProof := joinComma attributes.dropLast
    let binding := (stripPrefix "c=" c).bind F.decode
    let proof := (attributes.getLast?.bind (stripPrefix "p=")).bind F.decode
    let signature := F.hmac srv.storedKey (authMessage bare (srv.first F nonce) withoutProof)
    decide (r = "r=" ++ nonce ++ srv.nonce) &&
      decide (binding = some (asBytes header ++ srv.bindingData header)) &&
      proof.any fun p => decide (F.hash (xor p signature) = srv.storedKey)
  | _ => false

/-- The server-first-message in answer to a client-first-message. -/
def challenge (srv : Server) (clientFirst : Bytes) : Option Bytes := do
  let message ← fromUtf8 clientFirst
  let (_, bare) ← splitGs2 message
  let nonce ← clientNonce bare
  return asBytes (srv.first F nonce)

/-- The server accepts the client-final-message of an exchange. -/
def accepts (srv : Server) (clientFirst clientFinal : Bytes) : Bool :=
  match fromUtf8 clientFirst, fromUtf8 clientFinal with
  | some message, some answer =>
    match splitGs2 message with
    | some (header, bare) =>
      match clientNonce bare with
      | some nonce => srv.verify F header bare nonce answer
      | none => false
    | none => false
  | _, _ => false

/-- The `v=` attribute of the server-final-message: the server's signature of the exchange. -/
def final (key : Bytes) (message : Bytes) : String := "v=" ++ F.encode (F.hmac key message)

variable {F} in
/-- The server accepts the message of a client that has the key. -/
theorem verify_clientFinal (hF : F.Lawful) {srv : Server} {header bare nonce : String} {key : Bytes}
    (hkey : key.length = 32) (hstored : srv.storedKey = F.hash key)
    (hnonce : CommaFree (nonce ++ srv.nonce)) :
    srv.verify F header bare nonce (clientFinal F (asBytes header ++ srv.bindingData header)
      (nonce ++ srv.nonce) key bare (srv.first F nonce)) = true := by
  have hsplit : ∀ proof, splitComma (joinComma
      ["c=" ++ F.encode (asBytes header ++ srv.bindingData header), "r=" ++ (nonce ++ srv.nonce),
        "p=" ++ F.encode proof]) =
      ["c=" ++ F.encode (asBytes header ++ srv.bindingData header), "r=" ++ (nonce ++ srv.nonce),
        "p=" ++ F.encode proof] := by
    intro proof
    refine splitComma_joinComma (by simp) ?_
    simp only [List.mem_cons, List.not_mem_nil, or_false]
    rintro part (rfl | rfl | rfl)
    · exact CommaFree.append (by decide) (hF.commaFree_encode _)
    · exact CommaFree.append (by decide) hnonce
    · exact CommaFree.append (by decide) (hF.commaFree_encode _)
  have hlen : ∀ data, key.length = (F.hmac (F.hash key) data).length :=
    fun data => hkey.trans (hF.length_hmac _ _).symm
  simp only [verify, clientFinal, hsplit, List.getLast?_cons_cons, List.getLast?_singleton,
    List.dropLast_cons_cons, List.dropLast_singleton, Option.bind_some, stripPrefix_append,
    hF.decode_encode, hstored, Option.any_some, decide_true, Bool.and_true, Bool.true_and,
    String.append_assoc]
  rw [decide_eq_true_eq, ← withoutProof, xor_xor_cancel (hlen _)]

end Server

end

end Resolute.Rfc5802
