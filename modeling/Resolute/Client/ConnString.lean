import Resolute.Codec.Newtypes
import Resolute.Rust.Radix
import Resolute.Rust.Utf8

/-!
# Connection strings

`parse_connection_string` reads who connects, and to what, from a URI or from keys with values.  A
URI is split at delimiters (`uriParts`); the user, the password and the database are then
percent-decoded, byte by byte (`urlDecode`).

The URI for given components is `connUri`.  Percent-encoding hides the delimiters, but what comes
back of a component are its bytes as characters (`urlDecode_percentEncode`), and a host is taken as
it stands.  `parseConnectionString_connUri_iff` says which components come back.
-/

namespace Resolute

/-- What a connection string says. -/
structure ConnTarget where
  user : String
  password : String
  host : String
  port : ℕ
  database : String
  deriving DecidableEq, Repr

/-! ### The client -/

/-- The parts of a URI between its delimiters. -/
structure UriParts where
  user : List Char
  password : List Char
  host : List Char
  port : List Char
  database : List Char
  deriving DecidableEq, Repr

/-- The schemes of a URI. -/
def postgresScheme : List Char := "postgres://".toList

def postgresqlScheme : List Char := "postgresql://".toList

/-- What is taken for the user and the password of a URI that has none. -/
def defaultAuth : List Char := "postgres:postgres".toList

def defaultDatabase : List Char := "postgres".toList

def defaultPort : List Char := "5432".toList

/-- A URI without its scheme, split at its delimiters, with the defaults for missing parts. -/
def uriParts (rest : List Char) : UriParts :=
  let (auth, hostdb) := (Rust.splitOnce '@' rest).getD (defaultAuth, rest)
  let (user, password) := (Rust.splitOnce ':' auth).getD (auth, [])
  let (hostport, database) := (Rust.splitOnce '/' hostdb).getD (hostdb, defaultDatabase)
  let (host, portStr) := (Rust.splitOnce ':' hostport).getD (hostport, defaultPort)
  ⟨user, password, host, portStr, database⟩

/-- `port_str.parse().unwrap_or(5432)`. -/
def parsePort (portStr : List Char) : ℕ := (Rust.fromStrRadix 65536 10 portStr).getD 5432

/-- `hex_digit`. -/
def hexDigit (b : UInt8) : Option UInt8 :=
  if 48 ≤ b ∧ b ≤ 57 then some (b - 48)
  else if 97 ≤ b ∧ b ≤ 102 then some (b - 97 + 10)
  else if 65 ≤ b ∧ b ≤ 70 then some (b - 65 + 10)
  else none

/-- The byte that three bytes stand for if they are an escape. -/
def escaped (b hi lo : UInt8) : Option UInt8 :=
  if b = byte '%' then
    match hexDigit hi, hexDigit lo with
    | some hi, some lo => some (hi <<< 4 ||| lo)
    | _, _ => none
  else none

/-- The loop of `url_decode` over the bytes of a component. -/
def urlDecodeBytes : Bytes → List Char
  | b :: hi :: lo :: rest =>
    match escaped b hi lo with
    | some value => Rust.asChar value :: urlDecodeBytes rest
    | none => Rust.asChar b :: urlDecodeBytes (hi :: lo :: rest)
  | b :: rest => Rust.asChar b :: urlDecodeBytes rest
  | [] => []

/-- `url_decode`. -/
def urlDecode (s : List Char) : List Char := urlDecodeBytes (Rust.utf8 s)

/-- What follows the scheme of a URI. -/
def stripScheme (uri : List Char) : Option (List Char) :=
  postgresScheme.isPrefixOf? uri <|> postgresqlScheme.isPrefixOf? uri

/-- `parse_pg_uri`. -/
def parsePgUri (uri : List Char) : Option ConnTarget := do
  let rest ← stripScheme uri
  let parts := uriParts (rest.takeWhile (· ≠ '?'))
  return ⟨.ofList (urlDecode parts.user), .ofList (urlDecode parts.password), .ofList parts.host,
    parsePort parts.port, .ofList (urlDecode parts.database)⟩

/-- One part of `key=value` form is taken over. -/
def setKey (target : ConnTarget) (key value : List Char) : ConnTarget :=
  match String.ofList key with
  | "host" | "hostaddr" => { target with host := .ofList value }
  | "port" => { target with port := parsePort value }
  | "user" => { target with user := .ofList value }
  | "password" => { target with password := .ofList value }
  | "dbname" => { target with database := .ofList value }
  | _ => target

/-- `str::split_whitespace`. -/
def splitWhitespace (s : List Char) : List (List Char) :=
  (s.splitOnP isWhitespace).filter (· ≠ [])

/-- `parse_pg_keyvalue`. -/
def parsePgKeyvalue (s : List Char) : ConnTarget :=
  (splitWhitespace s).foldl
    (fun target part =>
      match Rust.splitOnce '=' part with
      | some (key, value) => setKey target key value
      | none => target)
    ⟨"postgres", "", "127.0.0.1", 5432, "postgres"⟩

/-- `parse_connection_string`. -/
def parseConnectionString (s : String) : Option ConnTarget :=
  if postgresScheme.isPrefixOf s.toList ∨ postgresqlScheme.isPrefixOf s.toList then
    parsePgUri s.toList
  else some (parsePgKeyvalue s.toList)

/-! ### URIs for components -/

/-- The unreserved characters of a URI. -/
def isUnreserved (c : Char) : Bool := c.isAlphanum || ['-', '.', '_', '~'].contains c

/-- An upper-case hexadecimal digit. -/
def upperDigit (n : ℕ) : Char := n.digitChar.toUpper

/-- A byte of a component in a URI. -/
def percentByte (b : UInt8) : List Char :=
  if b < 128 ∧ isUnreserved (Rust.asChar b) then [Rust.asChar b]
  else ['%', upperDigit (b.toNat / 16), upperDigit (b.toNat % 16)]

/-- A component, its bytes percent-encoded. -/
def percentEncode (s : String) : List Char := (Rust.utf8 s.toList).flatMap percentByte

/-- The characters of a host name: the unreserved ones and the sub-delimiters. -/
def isNameChar (c : Char) : Bool :=
  isUnreserved c || "!$&()*+,;=".toList.contains c || c.toNat = 39

/-- The characters of an IPv6 address. -/
def isIpv6Char (c : Char) : Bool := [':', '.'].contains c || (Rust.toDigit 16 c).isSome

/-- The host of a URI. -/
inductive Host where
  | name (cs : List Char) (chars : cs.all isNameChar = true)
  | ipv4 (a b c d : UInt8)
  /-- An address without its brackets. -/
  | ipv6 (cs : List Char) (chars : cs.all isIpv6Char = true) (colon : ':' ∈ cs)

namespace Host

/-- The host as it stands in a URI. -/
def text : Host → List Char
  | name cs _ => cs
  | ipv4 a b c d =>
    Nat.toDigits 10 a.toNat ++ '.' :: (Nat.toDigits 10 b.toNat ++
      '.' :: (Nat.toDigits 10 c.toNat ++ '.' :: Nat.toDigits 10 d.toNat))
  | ipv6 cs _ _ => '[' :: (cs ++ [']'])

/-- The string names the host; an IPv6 address may have its brackets or not. -/
def Names (host : Host) (s : String) : Prop :=
  s = String.ofList host.text ∨ ∃ cs chars colon, host = ipv6 cs chars colon ∧ s = String.ofList cs

def isIpv6 : Host → Bool
  | ipv6 _ _ _ => true
  | _ => false

end Host

/-- A query string. -/
def queryText : Option String → List Char
  | none => []
  | some query => '?' :: query.toList

/-- The URI of the components. -/
def connUri (user password : String) (host : Host) (port : UInt16) (database : String)
    (query : Option String) : String :=
  .ofList (postgresScheme ++ (percentEncode user ++ ':' :: (percentEncode password ++
    '@' :: (host.text ++ ':' :: (Nat.toDigits 10 port.toNat ++ '/' :: (percentEncode database ++
      queryText query))))))

/-! ### Percent-encoding -/

theorem hexDigit_upperDigit :
    ∀ n < 16, hexDigit (byte (upperDigit n)) = some (UInt8.ofNat n) := by decide

/-- A byte is made of its two halves. -/
theorem shiftLeft_or_halves (b : UInt8) :
    UInt8.ofNat (b.toNat / 16) <<< 4 ||| UInt8.ofNat (b.toNat % 16) = b := by
  have hb := b.toNat_lt
  have hsize : UInt8.size = 256 := rfl
  have hfour : (4 : UInt8).toNat % 8 = 4 := rfl
  have hor := Nat.shiftLeft_add_eq_or_of_lt (i := 4) (Nat.mod_lt b.toNat (by decide : 0 < 16))
    (b.toNat / 16)
  apply UInt8.toNat_inj.mp
  rw [UInt8.toNat_or, UInt8.toNat_shiftLeft, UInt8.toNat_ofNat_of_lt' (by omega),
    UInt8.toNat_ofNat_of_lt' (by omega), hfour, Nat.shiftLeft_eq]
  rw [Nat.shiftLeft_eq] at hor
  rw [Nat.mod_eq_of_lt (by omega), ← hor]
  omega

theorem urlDecodeBytes_cons_of_ne {b : UInt8} (h : b ≠ byte '%') (rest : Bytes) :
    urlDecodeBytes (b :: rest) = Rust.asChar b :: urlDecodeBytes rest := by
  rcases rest with _ | ⟨hi, _ | ⟨lo, rest⟩⟩
  · rfl
  · rfl
  · rw [urlDecodeBytes, escaped, if_neg h]

/-- An encoded byte in front of any others. -/
theorem urlDecodeBytes_percentByte (b : UInt8) (rest : Bytes) :
    urlDecodeBytes ((percentByte b).map byte ++ rest) = Rust.asChar b :: urlDecodeBytes rest := by
  have hb := b.toNat_lt
  rw [percentByte]
  split_ifs with hplain
  · have hbyte : byte (Rust.asChar b) = b := by
      rw [byte, Rust.toNat_asChar, UInt8.ofNat_toNat]
    rw [List.map_singleton, List.singleton_append, hbyte]
    refine urlDecodeBytes_cons_of_ne ?_ rest
    rintro rfl
    exact absurd hplain.2 (by decide)
  · have hescaped : escaped (byte '%') (byte (upperDigit (b.toNat / 16)))
        (byte (upperDigit (b.toNat % 16))) = some b := by
      rw [escaped, if_pos rfl, hexDigit_upperDigit _ (by omega), hexDigit_upperDigit _ (by omega)]
      exact congrArg some (shiftLeft_or_halves b)
    rw [List.map_cons, List.map_cons, List.map_singleton, List.cons_append, List.cons_append,
      List.singleton_append, urlDecodeBytes, hescaped]

/-- The delimiters at which a URI is split. -/
def isDelimiter (c : Char) : Bool := [':', '@', '/', '?'].contains c

theorem upperDigit_spec :
    ∀ n < 16, Rust.isAscii (upperDigit n) = true ∧ isDelimiter (upperDigit n) = false := by
  decide

/-- What is unreserved does not delimit. -/
theorem isDelimiter_of_isUnreserved {c : Char} (h : isUnreserved c = true) :
    isDelimiter c = false := by
  rw [← Bool.not_eq_true]
  intro hdelimiter
  simp only [isDelimiter, List.contains_eq_mem, decide_eq_true_eq, List.mem_cons,
    List.not_mem_nil, or_false] at hdelimiter
  rcases hdelimiter with rfl | rfl | rfl | rfl <;> exact absurd h (by decide)

theorem percentByte_spec (b : UInt8) :
    ∀ c ∈ percentByte b, Rust.isAscii c = true ∧ isDelimiter c = false := by
  have hb := b.toNat_lt
  rw [percentByte]
  split_ifs with hplain
  · rw [List.forall_mem_singleton]
    refine ⟨?_, isDelimiter_of_isUnreserved hplain.2⟩
    rw [Rust.isAscii, Rust.toNat_asChar, decide_eq_true_eq]
    exact UInt8.lt_iff_toNat_lt.mp hplain.1
  · rw [List.forall_mem_cons, List.forall_mem_cons, List.forall_mem_singleton]
    exact ⟨by decide, upperDigit_spec _ (by omega), upperDigit_spec _ (by omega)⟩

theorem percentEncode_spec (s : String) :
    ∀ c ∈ percentEncode s, Rust.isAscii c = true ∧ isDelimiter c = false := by
  intro c hc
  obtain ⟨b, -, hb⟩ := List.mem_flatMap.mp hc
  exact percentByte_spec b c hb

/-- **The bytes of a component come back as characters.** -/
theorem urlDecode_percentEncode (s : String) :
    urlDecode (percentEncode s) = (Rust.utf8 s.toList).map Rust.asChar := by
  have hascii : ∀ c ∈ percentEncode s, Rust.isAscii c = true :=
    fun c hc => (percentEncode_spec s c hc).1
  rw [urlDecode, Rust.utf8_of_isAscii hascii, percentEncode]
  clear hascii
  induction Rust.utf8 s.toList with
  | nil => rfl
  | cons b bs ih =>
    rw [List.flatMap_cons, List.map_append, List.map_cons, ← ih]
    exact urlDecodeBytes_percentByte b _

/-- A component comes back exactly if it is in ASCII. -/
theorem ofList_urlDecode_percentEncode_iff (s : String) :
    String.ofList (urlDecode (percentEncode s)) = s ↔ ∀ c ∈ s.toList, Rust.isAscii c = true := by
  rw [urlDecode_percentEncode, ← Rust.asChar_utf8_iff]
  constructor
  · intro h
    have := congrArg String.toList h
    rwa [String.toList_ofList] at this
  · intro h
    rw [h, String.ofList_toList]

/-! ### Splitting -/

/-- The string has no delimiter of a URI. -/
def Undelimited (cs : List Char) : Prop := ∀ c ∈ cs, isDelimiter c = false

theorem Undelimited.notMem {cs : List Char} (h : Undelimited cs) {c : Char}
    (hc : isDelimiter c = true) : c ∉ cs := by
  intro hmem
  rw [h c hmem] at hc
  cases hc

theorem undelimited_percentEncode (s : String) : Undelimited (percentEncode s) :=
  fun c hc => (percentEncode_spec s c hc).2

theorem undelimited_toDigits (n : ℕ) : Undelimited (Nat.toDigits 10 n) := by
  intro c hc
  have hdigit := Nat.isDigit_of_mem_toDigits (by decide) (by decide) hc
  apply isDelimiter_of_isUnreserved
  rw [isUnreserved, Char.isAlphanum, hdigit, Bool.or_true, Bool.true_or]

/-- A URI whose parts are all there. -/
theorem uriParts_eq {user password hostport database : List Char} (huser : Undelimited user)
    (hpassword : Undelimited password) (hhostport : '/' ∉ hostport) :
    uriParts (user ++ ':' :: (password ++ '@' :: (hostport ++ '/' :: database))) =
      ⟨user, password, ((Rust.splitOnce ':' hostport).getD (hostport, defaultPort)).1,
        ((Rust.splitOnce ':' hostport).getD (hostport, defaultPort)).2, database⟩ := by
  have hauth : '@' ∉ user ++ ':' :: password := by
    rw [List.mem_append, List.mem_cons, not_or, not_or]
    exact ⟨huser.notMem (by decide), by decide, hpassword.notMem (by decide)⟩
  have hat := Rust.splitOnce_append hauth (hostport ++ '/' :: database)
  rw [List.append_assoc, List.cons_append] at hat
  rw [uriParts, hat, Option.getD_some]
  dsimp only
  rw [Rust.splitOnce_append (huser.notMem (by decide)), Option.getD_some]
  dsimp only
  rw [Rust.splitOnce_append hhostport, Option.getD_some]

/-- The delimiters in a host are the colons of an IPv6 address. -/
theorem Host.of_isDelimiter {host : Host} {c : Char} (hc : c ∈ host.text)
    (hdelimiter : isDelimiter c = true) : c = ':' ∧ host.isIpv6 = true := by
  have hdigits : ∀ n, c ∉ Nat.toDigits 10 n := fun n => (undelimited_toDigits n).notMem hdelimiter
  simp only [isDelimiter, List.contains_eq_mem, decide_eq_true_eq, List.mem_cons,
    List.not_mem_nil, or_false] at hdelimiter
  cases host with
  | name cs chars =>
    have hname := List.all_eq_true.mp chars c hc
    rcases hdelimiter with rfl | rfl | rfl | rfl <;> exact absurd hname (by decide)
  | ipv4 a b d e =>
    simp only [text, List.mem_append, List.mem_cons, hdigits, false_or, or_false, or_self] at hc
    rcases hdelimiter with rfl | rfl | rfl | rfl <;> exact absurd hc (by decide)
  | ipv6 cs chars colon =>
    refine ⟨?_, rfl⟩
    simp only [text, List.mem_cons, List.mem_append, List.not_mem_nil, or_false] at hc
    rcases hc with rfl | hc | rfl
    · exact absurd hdelimiter (by decide)
    · have hchar := List.all_eq_true.mp chars c hc
      rcases hdelimiter with rfl | rfl | rfl | rfl
      · rfl
      all_goals exact absurd hchar (by decide)
    · exact absurd hdelimiter (by decide)

theorem Host.notMem_text (host : Host) {c : Char} (hc : isDelimiter c = true) (hne : c ≠ ':') :
    c ∉ host.text := fun hmem => hne (of_isDelimiter hmem hc).1

/-- The query string is cut off. -/
theorem takeWhile_queryText {cs : List Char} (h : '?' ∉ cs) (query : Option String) :
    (cs ++ queryText query).takeWhile (· ≠ '?') = cs := by
  have hstop : (queryText query).head?.any (· ≠ '?') = false := by
    cases query <;> rfl
  refine (Rust.takeWhile_append_of_head? (fun c hc => decide_eq_true ?_) hstop).1
  rintro rfl
  exact h hc

/-- A string with a scheme is parsed as a URI. -/
theorem parseConnectionString_postgres (rest : List Char) :
    parseConnectionString (String.ofList (postgresScheme ++ rest)) =
      let parts := uriParts (rest.takeWhile (· ≠ '?'))
      some ⟨.ofList (urlDecode parts.user), .ofList (urlDecode parts.password), .ofList parts.host,
        parsePort parts.port, .ofList (urlDecode parts.database)⟩ := by
  have hprefix : postgresScheme.isPrefixOf (postgresScheme ++ rest) = true :=
    List.isPrefixOf_iff_prefix.mpr (List.prefix_append _ _)
  have hstrip : postgresScheme.isPrefixOf? (postgresScheme ++ rest) = some rest :=
    List.isPrefixOf?_eq_some_iff_append_eq.mpr rfl
  rw [parseConnectionString, String.toList_ofList, if_pos (.inl hprefix), parsePgUri, stripScheme,
    hstrip]
  rfl

section

variable (user password : String) (host : Host) (port : UInt16) (database : String)
  (query : Option String)

/-- Where the URI for components is split. -/
theorem parseConnectionString_connUri :
    parseConnectionString (connUri user password host port database query) =
      let hostport := host.text ++ ':' :: Nat.toDigits 10 port.toNat
      let parts := (Rust.splitOnce ':' hostport).getD (hostport, defaultPort)
      some ⟨.ofList (urlDecode (percentEncode user)), .ofList (urlDecode (percentEncode password)),
        .ofList parts.1, parsePort parts.2, .ofList (urlDecode (percentEncode database))⟩ := by
  have huser := undelimited_percentEncode user
  have hpassword := undelimited_percentEncode password
  have hdatabase := undelimited_percentEncode database
  have hport := undelimited_toDigits port.toNat
  have hslash : '/' ∉ host.text ++ ':' :: Nat.toDigits 10 port.toNat := by
    rw [List.mem_append, List.mem_cons, not_or, not_or]
    exact ⟨host.notMem_text (by decide) (by decide), by decide, hport.notMem (by decide)⟩
  have hquery : '?' ∉ percentEncode user ++ ':' :: (percentEncode password ++ '@' ::
      (host.text ++ ':' :: (Nat.toDigits 10 port.toNat ++ '/' :: percentEncode database))) := by
    simp only [List.mem_append, List.mem_cons, not_or]
    exact ⟨huser.notMem (by decide), by decide, hpassword.notMem (by decide), by decide,
      host.notMem_text (by decide) (by decide), by decide, hport.notMem (by decide), by decide,
      hdatabase.notMem (by decide)⟩
  have hcut := takeWhile_queryText hquery query
  have hparts := @uriParts_eq _ _ _ (percentEncode database) huser hpassword hslash
  simp only [List.append_assoc, List.cons_append] at hcut hparts
  rw [connUri, parseConnectionString_postgres, hcut, hparts]

/-- Up to the first colon of an IPv6 address there is not all of the address. -/
theorem not_names_of_isIpv6 (hipv6 : host.isIpv6 = true) (portStr : List Char) :
    ∃ pre post, Rust.splitOnce ':' (host.text ++ ':' :: portStr) = some (pre, post) ∧
      ¬host.Names (String.ofList pre) := by
  cases host with
  | name cs chars => cases hipv6
  | ipv4 a b c d => cases hipv6
  | ipv6 cs chars colon =>
    obtain ⟨pre, post, rfl, hpre⟩ := List.eq_append_cons_of_mem colon
    have hpre : ':' ∉ '[' :: pre := by
      rw [List.mem_cons, not_or]
      exact ⟨by decide, hpre⟩
    refine ⟨'[' :: pre, post ++ ']' :: ':' :: portStr, ?_, ?_⟩
    · rw [Host.text, ← Rust.splitOnce_append hpre]
      simp
    · rintro (h | ⟨cs', chars', colon', hhost, h⟩)
      · rw [String.ofList_inj.mp h] at hpre
        simp [Host.text] at hpre
      · obtain rfl := (Host.ipv6.inj hhost).symm
        rw [String.ofList_inj.mp h] at hpre
        exact hpre colon

/-- **The components that come back**: exactly those without an IPv6 address as the host, whose
user, password and database are in ASCII. -/
theorem parseConnectionString_connUri_iff :
    (∃ s, host.Names s ∧
        parseConnectionString (connUri user password host port database query) =
          some ⟨user, password, s, port.toNat, database⟩) ↔
      (∀ c ∈ user.toList ++ password.toList ++ database.toList, Rust.isAscii c = true) ∧
        host.isIpv6 = false := by
  rw [parseConnectionString_connUri]
  dsimp only
  cases hipv6 : host.isIpv6 with
  | true =>
    obtain ⟨pre, post, hsplit, hnames⟩ :=
      not_names_of_isIpv6 host hipv6 (Nat.toDigits 10 port.toNat)
    rw [hsplit]
    refine iff_of_false ?_ fun h => Bool.noConfusion h.2
    rintro ⟨s, hs, heq⟩
    have hhost := congrArg ConnTarget.host (Option.some.inj heq)
    dsimp only [Option.getD_some] at hhost
    exact hnames (hhost ▸ hs)
  | false =>
    have hcolon : ':' ∉ host.text := fun hmem => by
      rw [(Host.of_isDelimiter hmem (by decide)).2] at hipv6
      cases hipv6
    have hport : parsePort (Nat.toDigits 10 port.toNat) = port.toNat := by
      rw [parsePort, Rust.fromStrRadix_toDigits port.toNat_lt]
      rfl
    have hmem : (∀ c ∈ user.toList ++ password.toList ++ database.toList,
        Rust.isAscii c = true) ↔ (∀ c ∈ user.toList, Rust.isAscii c = true) ∧
          (∀ c ∈ password.toList, Rust.isAscii c = true) ∧
          ∀ c ∈ database.toList, Rust.isAscii c = true := by
      rw [List.forall_mem_append, List.forall_mem_append, and_assoc]
    rw [Rust.splitOnce_append hcolon, and_iff_left rfl, hmem,
      ← ofList_urlDecode_percentEncode_iff, ← ofList_urlDecode_percentEncode_iff,
      ← ofList_urlDecode_percentEncode_iff]
    dsimp only [Option.getD_some]
    rw [hport]
    constructor
    · rintro ⟨s, -, heq⟩
      obtain ⟨huser, hpassword, -, -, hdatabase⟩ := ConnTarget.mk.inj (Option.some.inj heq)
      exact ⟨huser, hpassword, hdatabase⟩
    · rintro ⟨huser, hpassword, hdatabase⟩
      exact ⟨_, .inl rfl, by rw [huser, hpassword, hdatabase]⟩

end

/-- A password that is not in ASCII comes back as the characters of its bytes, and of an IPv6
address not even the first group is left. -/
theorem parseConnectionString_umlaut_ipv6 :
    parseConnectionString (connUri "u" "pä" (.name ['h'] rfl) 5432 "d" none) =
        some ⟨"u", "pÃ¤", "h", 5432, "d"⟩ ∧
      parseConnectionString (connUri "u" "pä" (.name ['h'] rfl) 5432 "d" none) ≠
        some ⟨"u", "pä", "h", 5432, "d"⟩ ∧
      parseConnectionString (connUri "u" "p" (.ipv6 [':', ':', '1'] rfl (by decide)) 6543 "d"
        none) = some ⟨"u", "p", "[", 5432, "d"⟩ := by
  decide

end Resolute
