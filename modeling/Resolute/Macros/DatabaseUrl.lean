import Resolute.Client.ConnString

/-!
# The parsers of a database URL

The macros check a query against the database of `DATABASE_URL`, and the command line works on it;
the program connects to it.  There are three parsers for the one URL.  Two of them
(`Macros.parsePgUri`, `Cli.parsePgUri`) neither cut off a query string nor percent-decode, so that
they agree with that of the program only on URLs that need neither, or in which what is left of the
query happens to be dropped.

`parsers_agree_iff` says which these are (`SameTarget`).  A component that is decoded stands for
itself if no escape is in it (`isLiteral`); and where a query follows, decoding the component must
yield what the other parsers find with the query behind it (`urlDecode_eq_append`).
-/

namespace Resolute

/-! ### The parsers -/

/-- The parts of a URI as they stand. -/
def plainTarget (parts : UriParts) : ConnTarget :=
  ⟨.ofList parts.user, .ofList parts.password, .ofList parts.host, parsePort parts.port,
    .ofList parts.database⟩

/-- `parse_pg_uri` of the macros. -/
def Macros.parsePgUri (uri : List Char) : Option ConnTarget := do
  let rest ← stripScheme uri
  return plainTarget (uriParts rest)

/-- `parse_pg_uri` of the command line. -/
def Cli.parsePgUri (uri : List Char) : Option ConnTarget := do
  let rest ← stripScheme uri
  return plainTarget (uriParts rest)

/-! ### Components that stand for themselves -/

/-- The character is a hexadecimal digit. -/
def isHex (c : Char) : Bool := (Rust.toDigit 16 c).isSome

/-- An escape is in front. -/
def isEscape : List Char → Bool
  | c :: hi :: lo :: _ => c = '%' && isHex hi && isHex lo
  | _ => false

/-- There are only characters of ASCII in the component, and no escape. -/
def isLiteral : List Char → Bool
  | [] => true
  | c :: cs => Rust.isAscii c && !isEscape (c :: cs) && isLiteral cs

theorem hexDigit_isSome_iff (b : UInt8) : (hexDigit b).isSome = true ↔
    48 ≤ b.toNat ∧ b.toNat ≤ 57 ∨ 97 ≤ b.toNat ∧ b.toNat ≤ 102 ∨
      65 ≤ b.toNat ∧ b.toNat ≤ 70 := by
  simp only [hexDigit, UInt8.le_iff_toNat_le]
  change (if 48 ≤ b.toNat ∧ b.toNat ≤ 57 then _ else if 97 ≤ b.toNat ∧ b.toNat ≤ 102 then _
    else if 65 ≤ b.toNat ∧ b.toNat ≤ 70 then _ else none).isSome = true ↔ _
  split_ifs <;> simp <;> omega

theorem isHex_iff (c : Char) : isHex c = true ↔
    48 ≤ c.toNat ∧ c.toNat ≤ 57 ∨ 97 ≤ c.toNat ∧ c.toNat ≤ 102 ∨
      65 ≤ c.toNat ∧ c.toNat ≤ 70 := by
  rw [isHex, Rust.toDigit]
  split_ifs <;> simp <;> omega

theorem isAscii_of_isHex {c : Char} (h : isHex c = true) : Rust.isAscii c = true := by
  rw [isHex_iff] at h
  rw [Rust.isAscii, decide_eq_true_eq]
  omega

theorem hexDigit_byte {c : Char} (h : isHex c = true) : ∃ n, hexDigit (byte c) = some n := by
  have hascii := isAscii_of_isHex h
  rw [Rust.isAscii, decide_eq_true_eq] at hascii
  have hbyte : (byte c).toNat = c.toNat := by
    rw [byte, UInt8.toNat_ofNat']
    omega
  rw [← Option.isSome_iff_exists, hexDigit_isSome_iff, hbyte]
  exact (isHex_iff c).mp h

theorem utf8_cons_of_isAscii {c : Char} (h : Rust.isAscii c = true) (cs : List Char) :
    Rust.utf8 (c :: cs) = byte c :: Rust.utf8 cs := by
  rw [Rust.utf8_cons, Rust.utf8EncodeChar_of_isAscii h]
  rfl

/-! ### One step of the decoder -/

/-- A character that is not in ASCII. -/
theorem urlDecode_cons_of_not_isAscii {c : Char} (h : Rust.isAscii c = false) (cs : List Char) :
    urlDecode (c :: cs) = (String.utf8EncodeChar c).map Rust.asChar ++ urlDecode cs := by
  have hbytes : ∀ bs : Bytes, (∀ b ∈ bs, 128 ≤ b.toNat) → ∀ rest,
      urlDecodeBytes (bs ++ rest) = bs.map Rust.asChar ++ urlDecodeBytes rest := by
    intro bs hbs rest
    induction bs with
    | nil => rfl
    | cons b bs ih =>
      rw [List.forall_mem_cons] at hbs
      have hpercent : b ≠ byte '%' := by
        rintro rfl
        exact absurd hbs.1 (by decide)
      rw [List.cons_append, urlDecodeBytes_cons_of_ne hpercent, ih hbs.2]
      rfl
  rw [urlDecode, Rust.utf8_cons]
  exact hbytes _ (fun b hb => Rust.le_of_mem_utf8EncodeChar h hb) _

/-- An escape. -/
theorem urlDecode_escape {cs : List Char} (h : isEscape cs = true) :
    ∃ hi lo rest value, cs = '%' :: hi :: lo :: rest ∧ Rust.isAscii hi = true ∧
      Rust.isAscii lo = true ∧ urlDecode cs = Rust.asChar value :: urlDecode rest := by
  rcases cs with _ | ⟨c, _ | ⟨hi, _ | ⟨lo, rest⟩⟩⟩
  · cases h
  · cases h
  · cases h
  · simp only [isEscape, Bool.and_eq_true, decide_eq_true_eq] at h
    obtain ⟨⟨rfl, hhi⟩, hlo⟩ := h
    obtain ⟨x, hx⟩ := hexDigit_byte hhi
    obtain ⟨y, hy⟩ := hexDigit_byte hlo
    have hescaped : escaped (byte '%') (byte hi) (byte lo) = some (x <<< 4 ||| y) := by
      rw [escaped, if_pos rfl, hx, hy]
    refine ⟨hi, lo, rest, x <<< 4 ||| y, rfl, isAscii_of_isHex hhi, isAscii_of_isHex hlo, ?_⟩
    rw [urlDecode, utf8_cons_of_isAscii (by decide), utf8_cons_of_isAscii (isAscii_of_isHex hhi),
      utf8_cons_of_isAscii (isAscii_of_isHex hlo), urlDecodeBytes, hescaped]
    rfl

/-- A hexadecimal digit among the bytes is a character. -/
theorem exists_of_hexDigit {cs : List Char} {b n : UInt8} {bs : Bytes}
    (h : Rust.utf8 cs = b :: bs) (hb : hexDigit b = some n) :
    ∃ c ds, cs = c :: ds ∧ isHex c = true ∧ Rust.utf8 ds = bs := by
  have hdigit := (hexDigit_isSome_iff b).mp (by rw [hb]; rfl)
  obtain ⟨c, ds, rfl, rfl, hds⟩ := Rust.utf8_ascii_cons h (by omega)
  refine ⟨c, ds, rfl, ?_, hds⟩
  rw [Rust.utf8_cons] at h
  cases hascii : Rust.isAscii c with
  | true =>
    rw [Rust.isAscii, decide_eq_true_eq] at hascii
    rw [UInt8.toNat_ofNat'] at hdigit
    rw [isHex_iff]
    omega
  | false =>
    obtain ⟨b, b', bs', hbytes⟩ := Rust.exists_utf8EncodeChar hascii
    rw [hbytes] at h
    have := Rust.le_of_mem_utf8EncodeChar hascii (hbytes ▸ List.mem_cons_self)
    rw [(List.cons.inj h).1] at this
    omega

/-- A character of ASCII that begins no escape. -/
theorem urlDecode_cons_of_isAscii {c : Char} {cs : List Char} (h : Rust.isAscii c = true)
    (hescape : isEscape (c :: cs) = false) : urlDecode (c :: cs) = c :: urlDecode cs := by
  have hchar : Rust.asChar (byte c) = c := Rust.asChar_ofNat h
  rw [urlDecode, utf8_cons_of_isAscii h, urlDecode]
  rcases hbytes : Rust.utf8 cs with _ | ⟨hi, _ | ⟨lo, rest⟩⟩
  · exact congrArg (· :: []) hchar
  · exact congrArg (· :: urlDecodeBytes [hi]) hchar
  · have hnone : escaped (byte c) hi lo = none := by
      rw [Option.eq_none_iff_forall_ne_some]
      intro value hvalue
      rw [escaped] at hvalue
      split_ifs at hvalue with hpercent
      have hc : c = '%' := by
        rw [← hchar, hpercent]
        exact Rust.asChar_ofNat (by decide)
      cases hx : hexDigit hi with
      | none =>
        rw [hx] at hvalue
        cases hvalue
      | some x =>
        cases hy : hexDigit lo with
        | none =>
          rw [hx, hy] at hvalue
          cases hvalue
        | some y =>
          obtain ⟨d, ds, rfl, hd, hds⟩ := exists_of_hexDigit hbytes hx
          obtain ⟨e, es, rfl, he, -⟩ := exists_of_hexDigit hds hy
          rw [hc, isEscape, hd, he] at hescape
          cases hescape
    rw [urlDecodeBytes, hnone]
    dsimp only
    rw [hchar]

/-! ### What decoding leaves alone -/

/-- If the result is ahead of the component by characters that are not in ASCII, it stays ahead by
such characters: they are what the component goes on with, and each makes the result longer. -/
theorem urlDecode_ahead {cs ahead post : List Char} (hne : ahead ≠ [])
    (hahead : ∀ c ∈ ahead, Rust.isAscii c = false) (h : ahead ++ urlDecode cs = cs ++ post) :
    post ≠ [] ∧ ∀ c ∈ post, Rust.isAscii c = false := by
  induction cs generalizing ahead with
  | nil =>
    change ahead ++ [] = post at h
    rw [List.append_nil] at h
    exact h ▸ ⟨hne, hahead⟩
  | cons c cs ih =>
    obtain ⟨d, ahead, rfl⟩ := List.exists_cons_of_ne_nil hne
    rw [List.cons_append, List.cons_append] at h
    obtain ⟨rfl, h⟩ := List.cons.inj h
    rw [List.forall_mem_cons] at hahead
    obtain ⟨b, b', bs, hbytes⟩ := Rust.exists_utf8EncodeChar hahead.1
    rw [urlDecode_cons_of_not_isAscii hahead.1, ← List.append_assoc] at h
    refine ih ?_ (fun e he => ?_) h
    · rw [hbytes]
      exact List.append_ne_nil_of_right_ne_nil _ (List.cons_ne_nil _ _)
    · rcases List.mem_append.mp he with he | he
      · exact hahead.2 e he
      · obtain ⟨x, hx, rfl⟩ := List.mem_map.mp he
        have := Rust.le_of_mem_utf8EncodeChar hahead.1 hx
        rw [Rust.isAscii, Rust.toNat_asChar, decide_eq_false_iff_not]
        omega

/-- If the result is behind the component by characters of ASCII, it never catches up. -/
theorem urlDecode_behind {cs behind post : List Char} (hne : behind ≠ [])
    (hbehind : ∀ c ∈ behind, Rust.isAscii c = true) : urlDecode cs ≠ behind ++ (cs ++ post) := by
  induction hn : cs.length using Nat.strong_induction_on generalizing cs behind with
  | _ n ih =>
    subst hn
    intro h
    obtain ⟨d, behind, rfl⟩ := List.exists_cons_of_ne_nil hne
    rw [List.forall_mem_cons] at hbehind
    by_cases hescape : isEscape cs = true
    · obtain ⟨hi, lo, rest, value, rfl, hhi, hlo, hdecode⟩ := urlDecode_escape hescape
      rw [hdecode, List.cons_append] at h
      have hlonger : urlDecode rest = (behind ++ ['%', hi, lo]) ++ (rest ++ post) := by
        rw [(List.cons.inj h).2]
        simp
      refine ih rest.length (by simp only [List.length_cons]; omega) (by simp) (fun e he => ?_) rfl
        hlonger
      rcases List.mem_append.mp he with he | he
      · exact hbehind.2 e he
      · simp only [List.mem_cons, List.not_mem_nil, or_false] at he
        rcases he with rfl | rfl | rfl
        · decide
        · exact hhi
        · exact hlo
    · cases cs with
      | nil => cases h
      | cons c cs =>
        have hplain : isEscape (c :: cs) = false := by simpa using hescape
        cases hascii : Rust.isAscii c with
        | true =>
          rw [urlDecode_cons_of_isAscii hascii hplain, List.cons_append] at h
          obtain ⟨rfl, htail⟩ := List.cons.inj h
          have hsame : urlDecode cs = (behind ++ [c]) ++ (cs ++ post) := by
            rw [htail]
            simp
          refine ih cs.length (by simp) (by simp) (fun e he => ?_) rfl hsame
          rcases List.mem_append.mp he with he | he
          · exact hbehind.2 e he
          · rwa [List.mem_singleton.mp he]
        | false =>
          obtain ⟨b, b', bs, hbytes⟩ := Rust.exists_utf8EncodeChar hascii
          have hb := Rust.le_of_mem_utf8EncodeChar hascii (hbytes ▸ List.mem_cons_self)
          rw [urlDecode_cons_of_not_isAscii hascii, hbytes] at h
          have hd := hbehind.1
          rw [← (List.cons.inj h).1, Rust.isAscii, Rust.toNat_asChar, decide_eq_true_eq] at hd
          omega

/-- **Decoding a component that is a prefix of its result**: the component stands for itself, or
what is added begins with a character that is not in ASCII. -/
theorem urlDecode_eq_append {cs post : List Char} (h : urlDecode cs = cs ++ post) :
    isLiteral cs = true ∧ post = [] ∨ post ≠ [] ∧ ∀ c ∈ post, Rust.isAscii c = false := by
  induction cs with
  | nil => exact .inl ⟨rfl, h.symm⟩
  | cons c cs ih =>
    cases hescape : isEscape (c :: cs) with
    | true =>
      obtain ⟨hi, lo, rest, value, heq, hhi, hlo, hdecode⟩ := urlDecode_escape hescape
      obtain ⟨rfl, rfl⟩ := List.cons.inj heq
      rw [hdecode, List.cons_append] at h
      have hbehind := (List.cons.inj h).2
      refine absurd hbehind (urlDecode_behind (List.cons_ne_nil hi [lo]) ?_)
      simp [hhi, hlo]
    | false =>
      cases hascii : Rust.isAscii c with
      | true =>
        rw [urlDecode_cons_of_isAscii hascii hescape, List.cons_append] at h
        refine (ih (List.cons.inj h).2).imp_left fun hcs => ⟨?_, hcs.2⟩
        rw [isLiteral, hascii, hescape, hcs.1]
        rfl
      | false =>
        obtain ⟨b, b', bs, hbytes⟩ := Rust.exists_utf8EncodeChar hascii
        have hahead : ((b' :: bs).map Rust.asChar) ++ urlDecode cs = cs ++ post := by
          rw [urlDecode_cons_of_not_isAscii hascii, hbytes] at h
          exact (List.cons.inj h).2
        refine .inr (urlDecode_ahead (by simp) (fun e he => ?_) hahead)
        obtain ⟨x, hx, rfl⟩ := List.mem_map.mp he
        have := Rust.le_of_mem_utf8EncodeChar hascii (hbytes ▸ List.mem_cons_of_mem b hx)
        rw [Rust.isAscii, Rust.toNat_asChar, decide_eq_false_iff_not]
        omega

theorem urlDecode_of_isLiteral {cs : List Char} (h : isLiteral cs = true) : urlDecode cs = cs := by
  induction cs with
  | nil => rfl
  | cons c cs ih =>
    simp only [isLiteral, Bool.and_eq_true, Bool.not_eq_true'] at h
    rw [urlDecode_cons_of_isAscii h.1.1 h.1.2, ih h.2]

/-- A component is left alone exactly if it stands for itself. -/
theorem urlDecode_eq_self_iff (cs : List Char) : urlDecode cs = cs ↔ isLiteral cs = true := by
  refine ⟨fun h => ?_, urlDecode_of_isLiteral⟩
  obtain hliteral | hpost := urlDecode_eq_append (h.trans (List.append_nil cs).symm)
  · exact hliteral.1
  · exact absurd rfl hpost.1

/-! ### The parts with and without a query string -/

/-- What is split off of `auth`. -/
def splitAuth (auth : List Char) : List Char × List Char :=
  (Rust.splitOnce ':' auth).getD (auth, [])

/-- What is split off of `hostdb`: the host, the port and the database. -/
def splitHostdb (hostdb : List Char) : List Char × List Char × List Char :=
  let path := (Rust.splitOnce '/' hostdb).getD (hostdb, defaultDatabase)
  let hostport := (Rust.splitOnce ':' path.1).getD (path.1, defaultPort)
  (hostport.1, hostport.2, path.2)

/-- A URI split at the first `@`. -/
def splitRest (rest : List Char) : List Char × List Char :=
  (Rust.splitOnce '@' rest).getD (defaultAuth, rest)

theorem uriParts_eq_split (rest : List Char) : uriParts rest =
    ⟨(splitAuth (splitRest rest).1).1, (splitAuth (splitRest rest).1).2,
      (splitHostdb (splitRest rest).2).1, (splitHostdb (splitRest rest).2).2.1,
      (splitHostdb (splitRest rest).2).2.2⟩ := rfl

/-- What is behind the first slash of a query string is taken for a database. -/
def queryDatabase (query : List Char) : List Char :=
  ((Rust.splitOnce '/' query).getD ([], defaultDatabase)).2

theorem parsePort_of_question {portStr : List Char} (h : '?' ∈ portStr) :
    parsePort portStr = 5432 := by
  rw [parsePort, Rust.fromStrRadix_eq_none h (by decide) (by decide)]
  rfl

/-- **The host, the port and the database**, with a query string behind them and without. -/
theorem splitHostdb_agree_iff {hostdb : List Char} (hquestion : '?' ∉ hostdb)
    (query : List Char) :
    ((splitHostdb hostdb).1 = (splitHostdb (hostdb ++ '?' :: query)).1 ∧
      parsePort (splitHostdb hostdb).2.1 = parsePort (splitHostdb (hostdb ++ '?' :: query)).2.1 ∧
        urlDecode (splitHostdb hostdb).2.2 = (splitHostdb (hostdb ++ '?' :: query)).2.2) ↔
      '/' ∉ hostdb ∧ ':' ∈ hostdb ∧ parsePort (splitHostdb hostdb).2.1 = 5432 ∧
        queryDatabase query = defaultDatabase := by
  by_cases hslash : '/' ∈ hostdb
  · -- the query string is part of the database
    obtain ⟨hostport, database, rfl, hhostport⟩ := List.eq_append_cons_of_mem hslash
    refine iff_of_false (fun h => ?_) fun h => h.1 hslash
    have hsplit := Rust.splitOnce_append hhostport database
    have hdatabase := h.2.2
    rw [splitHostdb, splitHostdb, hsplit,
      Rust.splitOnce_append_left hsplit ('?' :: query)] at hdatabase
    obtain hliteral | hpost := urlDecode_eq_append hdatabase
    · exact absurd hliteral.2 (List.cons_ne_nil _ _)
    · exact absurd (hpost.2 '?' List.mem_cons_self) (by decide)
  · have hnone := Rust.splitOnce_eq_none hslash
    -- what is left of the query string in front of its first slash is part of the port
    obtain ⟨front, hfront⟩ : ∃ front, (Rust.splitOnce '/' (hostdb ++ '?' :: query)).getD
        (hostdb ++ '?' :: query, defaultDatabase) =
          (hostdb ++ '?' :: front, queryDatabase query) := by
      rw [Rust.splitOnce_append_right hslash, Rust.splitOnce, if_neg (by decide), queryDatabase]
      cases Rust.splitOnce '/' query with
      | none => exact ⟨query, rfl⟩
      | some p => exact ⟨p.1, rfl⟩
    have hdefault : urlDecode defaultDatabase = defaultDatabase :=
      urlDecode_of_isLiteral (by decide)
    rw [splitHostdb, splitHostdb, hfront, hnone]
    dsimp only [Option.getD_none]
    rw [hdefault, and_iff_right hslash, eq_comm (a := defaultDatabase)]
    by_cases hcolon : ':' ∈ hostdb
    · obtain ⟨host, portStr, rfl, hhost⟩ := List.eq_append_cons_of_mem hcolon
      have hsplit := Rust.splitOnce_append hhost portStr
      have hport : parsePort (portStr ++ '?' :: front) = 5432 :=
        parsePort_of_question (List.mem_append_right _ List.mem_cons_self)
      rw [hsplit, Rust.splitOnce_append_left hsplit ('?' :: front), Option.getD_some,
        Option.getD_some, hport, and_iff_right rfl, and_iff_right hcolon]
    · refine iff_of_false (fun h => ?_) fun h => hcolon h.1
      have hlen := congrArg List.length h.1
      rw [Rust.splitOnce_eq_none hcolon, Rust.splitOnce_append_right hcolon, Rust.splitOnce,
        if_neg (by decide)] at hlen
      cases hsplit : Rust.splitOnce ':' front with
      | none => simp [hsplit] at hlen
      | some p => simp [hsplit] at hlen

/-- A character of `auth` other than the colon is in the user or in the password. -/
theorem mem_splitAuth {auth : List Char} {c : Char} (hmem : c ∈ auth) (hc : c ≠ ':') :
    c ∈ (splitAuth auth).1 ∨ c ∈ (splitAuth auth).2 := by
  by_cases hcolon : ':' ∈ auth
  · obtain ⟨user, password, rfl, huser⟩ := List.eq_append_cons_of_mem hcolon
    rw [splitAuth, Rust.splitOnce_append huser]
    rw [List.mem_append, List.mem_cons, or_iff_right hc] at hmem
    exact hmem
  · rw [splitAuth, Rust.splitOnce_eq_none hcolon]
    exact .inl hmem

/-! ### Agreement -/

/-- The schemes of a URI. -/
inductive Scheme where
  | postgres
  | postgresql
  deriving DecidableEq, Repr

def Scheme.text : Scheme → List Char
  | postgres => postgresScheme
  | postgresql => postgresqlScheme

/-- All parsers read the same from a URI without its scheme: the user and the password stand for
themselves, and either there is no query string and the database stands for itself, or the query
string follows a port that is 5432 anyway, and nothing in it is taken for another part. -/
def SameTarget (rest : List Char) : Prop :=
  let r := rest.takeWhile (· ≠ '?')
  (isLiteral (uriParts r).user = true ∧ isLiteral (uriParts r).password = true) ∧
    (r = rest ∧ isLiteral (uriParts r).database = true ∨
      ∃ query, rest = r ++ '?' :: query ∧ ('@' ∈ r ∨ '@' ∉ query) ∧ '/' ∉ (splitRest r).2 ∧
        ':' ∈ (splitRest r).2 ∧ parsePort (uriParts r).port = 5432 ∧
        queryDatabase query = defaultDatabase)

/-- The parts of a URI, percent-decoded. -/
def decodedTarget (parts : UriParts) : ConnTarget :=
  ⟨.ofList (urlDecode parts.user), .ofList (urlDecode parts.password), .ofList parts.host,
    parsePort parts.port, .ofList (urlDecode parts.database)⟩

theorem decodedTarget_eq_iff (parts parts' : UriParts) :
    decodedTarget parts = plainTarget parts' ↔
      (urlDecode parts.user = parts'.user ∧ urlDecode parts.password = parts'.password) ∧
        parts.host = parts'.host ∧ parsePort parts.port = parsePort parts'.port ∧
          urlDecode parts.database = parts'.database := by
  rw [decodedTarget, plainTarget, ConnTarget.mk.injEq, String.ofList_inj, String.ofList_inj,
    String.ofList_inj, String.ofList_inj, and_assoc]

theorem stripScheme_text (scheme : Scheme) (rest : List Char) :
    stripScheme (scheme.text ++ rest) = some rest := by
  cases scheme <;> rfl

theorem parseConnectionString_text (scheme : Scheme) (rest : List Char) :
    parseConnectionString (.ofList (scheme.text ++ rest)) =
      some (decodedTarget (uriParts (rest.takeWhile (· ≠ '?')))) := by
  have hprefix : postgresScheme.isPrefixOf (scheme.text ++ rest) = true ∨
      postgresqlScheme.isPrefixOf (scheme.text ++ rest) = true := by
    cases scheme
    · exact .inl (List.isPrefixOf_iff_prefix.mpr (List.prefix_append _ _))
    · exact .inr (List.isPrefixOf_iff_prefix.mpr (List.prefix_append _ _))
  rw [parseConnectionString, String.toList_ofList, if_pos hprefix, parsePgUri, stripScheme_text]
  rfl

/-- The URI has a query string. -/
theorem decodedTarget_eq_query_iff {r : List Char} (hquestion : '?' ∉ r) (query : List Char) :
    decodedTarget (uriParts r) = plainTarget (uriParts (r ++ '?' :: query)) ↔
      (isLiteral (uriParts r).user = true ∧ isLiteral (uriParts r).password = true) ∧
        ('@' ∈ r ∨ '@' ∉ query) ∧ '/' ∉ (splitRest r).2 ∧ ':' ∈ (splitRest r).2 ∧
          parsePort (uriParts r).port = 5432 ∧ queryDatabase query = defaultDatabase := by
  rw [decodedTarget_eq_iff, uriParts_eq_split, uriParts_eq_split]
  dsimp only
  by_cases hat : '@' ∈ r
  · obtain ⟨auth, hostdb, rfl, hauth⟩ := List.eq_append_cons_of_mem hat
    have hsplit := Rust.splitOnce_append hauth hostdb
    have hhostdb : '?' ∉ hostdb := fun hmem =>
      hquestion (List.mem_append_right _ (List.mem_cons_of_mem _ hmem))
    rw [splitRest, splitRest, hsplit, Rust.splitOnce_append_left hsplit ('?' :: query),
      Option.getD_some, Option.getD_some, splitHostdb_agree_iff hhostdb, urlDecode_eq_self_iff,
      urlDecode_eq_self_iff, and_iff_right (Or.inl hat)]
  · have hr : splitRest r = (defaultAuth, r) := by
      rw [splitRest, Rust.splitOnce_eq_none hat]
      rfl
    rw [hr, or_iff_right hat]
    by_cases hquery : '@' ∈ query
    · -- the query string is part of the user or of the password
      obtain ⟨front, hostdb, rfl, hfront⟩ := List.eq_append_cons_of_mem hquery
      have hrest : splitRest (r ++ '?' :: (front ++ '@' :: hostdb)) =
          (r ++ '?' :: front, hostdb) := by
        rw [splitRest, Rust.splitOnce_append_right hat, Rust.splitOnce, if_neg (by decide),
          Rust.splitOnce_append hfront]
        rfl
      refine iff_of_false (fun h => ?_) fun h => absurd hquery h.2.1
      have huser : urlDecode (splitAuth defaultAuth).1 = (splitAuth defaultAuth).1 :=
        urlDecode_of_isLiteral (by decide)
      have hpassword : urlDecode (splitAuth defaultAuth).2 = (splitAuth defaultAuth).2 :=
        urlDecode_of_isLiteral (by decide)
      rw [hrest, huser, hpassword] at h
      have hmem : '?' ∈ r ++ '?' :: front := List.mem_append_right _ List.mem_cons_self
      rcases mem_splitAuth hmem (by decide) with hin | hin
      · rw [← h.1.1] at hin
        exact absurd hin (by decide)
      · rw [← h.1.2] at hin
        exact absurd hin (by decide)
    · have hnot : '@' ∉ r ++ '?' :: query := by
        rw [List.mem_append, List.mem_cons, not_or, not_or]
        exact ⟨hat, by decide, hquery⟩
      have hrest : splitRest (r ++ '?' :: query) = (defaultAuth, r ++ '?' :: query) := by
        rw [splitRest, Rust.splitOnce_eq_none hnot]
        rfl
      rw [hrest, splitHostdb_agree_iff hquestion, urlDecode_eq_self_iff, urlDecode_eq_self_iff,
        and_iff_right hquery]

/-- **The three parsers agree** on a URI exactly if nothing in it needs to be decoded, and what they
make of a query string is the same. -/
theorem parsers_agree_iff (scheme : Scheme) (rest : List Char) :
    (parseConnectionString (.ofList (scheme.text ++ rest)) =
        Macros.parsePgUri (scheme.text ++ rest) ∧
      Macros.parsePgUri (scheme.text ++ rest) = Cli.parsePgUri (scheme.text ++ rest)) ↔
      SameTarget rest := by
  have hcli : Macros.parsePgUri (scheme.text ++ rest) = Cli.parsePgUri (scheme.text ++ rest) := rfl
  have hmacros : Macros.parsePgUri (scheme.text ++ rest) = some (plainTarget (uriParts rest)) := by
    rw [Macros.parsePgUri, stripScheme_text]
    rfl
  rw [and_iff_left hcli, parseConnectionString_text, hmacros, Option.some.injEq, SameTarget]
  by_cases hmem : '?' ∈ rest
  · obtain ⟨r, query, rfl, hquestion⟩ := List.eq_append_cons_of_mem hmem
    have hr : (r ++ '?' :: query).takeWhile (· ≠ '?') = r := by
      have := takeWhile_queryText hquestion (some (.ofList query))
      rwa [queryText, String.toList_ofList] at this
    have hwhole : ¬(r = r ++ '?' :: query ∧ isLiteral (uriParts r).database = true) := by
      rintro ⟨h, -⟩
      rw [← h] at hmem
      exact hquestion hmem
    rw [hr, decodedTarget_eq_query_iff hquestion, or_iff_right hwhole]
    refine and_congr_right' ⟨fun h => ⟨query, rfl, h⟩, ?_⟩
    rintro ⟨query', hquery, h⟩
    rwa [(List.cons.inj (List.append_cancel_left hquery)).2]
  · have hr : rest.takeWhile (· ≠ '?') = rest := by
      have := takeWhile_queryText hmem none
      rwa [queryText, List.append_nil] at this
    have hnone : ¬∃ query, rest = rest ++ '?' :: query ∧ ('@' ∈ rest ∨ '@' ∉ query) ∧
        '/' ∉ (splitRest rest).2 ∧ ':' ∈ (splitRest rest).2 ∧
          parsePort (uriParts rest).port = 5432 ∧ queryDatabase query = defaultDatabase := by
      rintro ⟨query, hquery, -⟩
      rw [hquery] at hmem
      exact hmem (List.mem_append_right _ List.mem_cons_self)
    rw [hr, decodedTarget_eq_iff, or_iff_left hnone, urlDecode_eq_self_iff, urlDecode_eq_self_iff,
      urlDecode_eq_self_iff, and_iff_right rfl, and_iff_right rfl, and_iff_right rfl]

/-- A query string ends up in the name of the database that the macros use, and an encoded password
is not decoded. -/
theorem parsers_disagree :
    parseConnectionString "postgres://u:p@h/d?sslmode=require" = some ⟨"u", "p", "h", 5432, "d"⟩ ∧
      Macros.parsePgUri "postgres://u:p@h/d?sslmode=require".toList =
        some ⟨"u", "p", "h", 5432, "d?sslmode=require"⟩ ∧
      parseConnectionString "postgres://u:p%40x@h/d" = some ⟨"u", "p@x", "h", 5432, "d"⟩ ∧
      Cli.parsePgUri "postgres://u:p%40x@h/d".toList = some ⟨"u", "p%40x", "h", 5432, "d"⟩ := by
  decide

end Resolute
