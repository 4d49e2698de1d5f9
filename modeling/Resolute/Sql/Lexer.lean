import Mathlib.Data.Int.Notation
import Mathlib.Data.List.TakeDrop
import Mathlib.Data.List.TakeWhile
import Mathlib.Tactic.Common

/-!
# The lexical structure of SQL

How PostgreSQL cuts an SQL text into lexemes, with `standard_conforming_strings` on, as far as it
matters where a literal, a comment or an identifier begins and ends: operators are cut into their
characters and numbers at points and signs, and the prefix of a literal other than `E` is an
identifier.  A literal that is not closed reaches to the end of the text.  An `E` literal goes on
after white space with a line break, so the lexer has a state.

The first lexeme is what the text `Begins` with (`lexeme_eq_iff`), and the rest follows from three
facts about it:

* it is the first part of the text (`lexeme_append`), so all lexemes make up the text
  (`textOf_scan`);
* what is behind it matters by its first character only (`Begins.stable`);
* a lexeme that is written is read again where nothing behind it is taken along
  (`scan_lexeme_iff`, `scan_parameter_iff`).
-/

namespace Resolute.Sql

/-! ### Characters -/

/-- The single quote. -/
def quote : Char := Char.ofNat 39

/-- The double quote. -/
def dquote : Char := Char.ofNat 34

def backslash : Char := Char.ofNat 92

def newline : Char := Char.ofNat 10

def carriageReturn : Char := Char.ofNat 13

def isNewline (c : Char) : Bool := c == newline || c == carriageReturn

def isSpace (c : Char) : Bool := c == ' ' || decide (9 ≤ c.toNat) && decide (c.toNat ≤ 13)

/-- A character that an identifier begins with; those outside of ASCII all do. -/
def startsIdentifier (c : Char) : Bool := c.isAlpha || c == '_' || decide (128 ≤ c.toNat)

/-- A character of the tag of a dollar quote, after the first. -/
def isTagChar (c : Char) : Bool := startsIdentifier c || c.isDigit

/-- A character of an identifier, after the first. -/
def isIdentifierChar (c : Char) : Bool := isTagChar c || c == '$'

theorem startsIdentifier_of_isDigit {c : Char} (h : c.isDigit = true) :
    startsIdentifier c = false := by
  have hrange : 48 ≤ c.val.toNat ∧ c.val.toNat ≤ 57 := by
    simpa [Char.isDigit, UInt32.le_iff_toNat_le] using h
  have htoNat : c.toNat = c.val.toNat := rfl
  have hne : c ≠ '_' := by
    rintro rfl
    exact absurd h (by decide)
  have halpha : c.isAlpha = false := by
    change (decide (c.val ≥ 65 ∧ c.val ≤ 90) || decide (c.val ≥ 97) && decide (c.val ≤ 122)) = false
    simp [UInt32.le_iff_toNat_le]
    omega
  simp [startsIdentifier, hne, halpha]
  omega

/-! ### Lexemes -/

inductive Kind where
  | space
  | lineComment
  | blockComment
  | string
  /-- A string literal with backslash escapes. -/
  | escapeString
  | quotedIdentifier
  | dollarString
  | identifier
  | number
  | parameter
  /-- A dollar sign that begins neither a parameter nor a dollar quote. -/
  | strayDollar
  /-- The operator `::`. -/
  | cast
  /-- What the rule of a preprocessor reads. -/
  | placeholder
  | other
  deriving DecidableEq, Repr

structure Lexeme where
  kind : Kind
  text : List Char
  deriving DecidableEq, Repr

/-- The rest of a block comment, inside of `depth` others: its text, and what is left. -/
def blockComment : (depth : ℕ) → List Char → List Char × List Char
  | depth, c :: d :: cs =>
    if c = '/' ∧ d = '*' then
      let (text, rest) := blockComment (depth + 1) cs
      (c :: d :: text, rest)
    else if c = '*' ∧ d = '/' then
      if depth = 0 then ([c, d], cs)
      else
        let (text, rest) := blockComment (depth - 1) cs
        (c :: d :: text, rest)
    else
      let (text, rest) := blockComment depth (d :: cs)
      (c :: text, rest)
  | _, cs => (cs, [])

/-- The rest of a literal or identifier with the given quotes; a doubled one does not end it. -/
def quoted (q : Char) : List Char → List Char × List Char
  | [] => ([], [])
  | [c] => ([c], [])
  | c :: d :: cs =>
    if c = q then
      if d = q then
        let (text, rest) := quoted q cs
        (c :: d :: text, rest)
      else ([c], d :: cs)
    else
      let (text, rest) := quoted q (d :: cs)
      (c :: text, rest)

/-- The rest of a string literal with backslash escapes. -/
def escaped : List Char → List Char × List Char
  | [] => ([], [])
  | [c] => ([c], [])
  | c :: d :: cs =>
    if c = backslash ∨ c = quote ∧ d = quote then
      let (text, rest) := escaped cs
      (c :: d :: text, rest)
    else if c = quote then ([c], d :: cs)
    else
      let (text, rest) := escaped (d :: cs)
      (c :: text, rest)

/-- The rest of a dollar-quoted string, up to the first occurrence of its tag. -/
def dollarQuoted (tag : List Char) : List Char → List Char × List Char
  | [] => ([], [])
  | c :: cs =>
    if tag <+: c :: cs then (tag, (c :: cs).drop tag.length)
    else
      let (text, rest) := dollarQuoted tag cs
      (c :: text, rest)

/-- What a dollar sign begins. -/
def dollar (cs : List Char) : Lexeme × List Char :=
  let run := cs.takeWhile isTagChar
  let rest := cs.dropWhile isTagChar
  if rest.head? = some '$' ∧ run.head?.all startsIdentifier then
    let tag := '$' :: (run ++ ['$'])
    let (text, rest) := dollarQuoted tag rest.tail
    (⟨.dollarString, tag ++ text⟩, rest)
  else if run ≠ [] ∧ run.all Char.isDigit then (⟨.parameter, '$' :: run⟩, rest)
  else (⟨.strayDollar, '$' :: run⟩, rest)

/-- The first lexeme of a text, and what is left; `continues` says that an `E` literal goes on. -/
def lexeme (continues : Bool) (c : Char) (cs : List Char) : Lexeme × List Char :=
  if c = '-' ∧ cs.head? = some '-' then
    (⟨.lineComment, c :: cs.takeWhile (!isNewline ·)⟩, cs.dropWhile (!isNewline ·))
  else if c = '/' ∧ cs.head? = some '*' then
    let (text, rest) := blockComment 0 cs.tail
    (⟨.blockComment, '/' :: '*' :: text⟩, rest)
  else if c = quote then
    let (text, rest) := if continues then escaped cs else quoted quote cs
    (⟨if continues then .escapeString else .string, quote :: text⟩, rest)
  else if (c = 'E' ∨ c = 'e') ∧ cs.head? = some quote then
    let (text, rest) := escaped cs.tail
    (⟨.escapeString, c :: quote :: text⟩, rest)
  else if c = dquote then
    let (text, rest) := quoted dquote cs
    (⟨.quotedIdentifier, dquote :: text⟩, rest)
  else if c = '$' then dollar cs
  else if startsIdentifier c then
    (⟨.identifier, c :: cs.takeWhile isIdentifierChar⟩, cs.dropWhile isIdentifierChar)
  else if c.isDigit then
    (⟨.number, c :: cs.takeWhile isTagChar⟩, cs.dropWhile isTagChar)
  else if c = ':' ∧ cs.head? = some ':' then (⟨.cast, [':', ':']⟩, cs.tail)
  else (⟨if isSpace c then .space else .other, [c]⟩, cs)

/-- What came before. -/
inductive State where
  /-- An `E` literal, and since then only white space, with a line break or not. -/
  | escape (broken : Bool)
  | other
  deriving DecidableEq, Repr

namespace State

/-- A quote goes on with the `E` literal. -/
def continues : State → Bool
  | escape broken => broken
  | other => false

def next (s : State) (l : Lexeme) : State :=
  match l.kind, s with
  | .escapeString, _ => escape false
  | .space, escape broken => escape (broken || l.text.any isNewline)
  | .lineComment, s => s
  | _, _ => other

end State

section

-- what a preprocessor reads before the language does
variable (rule : List Char → Option (Lexeme × List Char))

/-- The first lexeme, with the rule. -/
def first (s : State) (c : Char) (cs : List Char) : Lexeme × List Char :=
  (rule (c :: cs)).getD (lexeme s.continues c cs)

/-- The lexemes of a text; each has at least one character, so `fuel` may be the length. -/
def scanFrom : (fuel : ℕ) → State → List Char → List Lexeme
  | fuel + 1, s, c :: cs =>
    let (l, rest) := first rule s c cs
    l :: scanFrom fuel (s.next l) rest
  | _, _, _ => []

def scan (s : State) (cs : List Char) : List Lexeme := scanFrom rule cs.length s cs

end

/-- The lexemes of a text. -/
def lex (cs : List Char) : List Lexeme := scan (fun _ => none) .other cs

/-- The text of a list of lexemes. -/
def textOf (ls : List Lexeme) : List Char := ls.flatMap Lexeme.text

@[simp] theorem textOf_nil : textOf [] = [] := rfl

@[simp] theorem textOf_cons (l : Lexeme) (ls : List Lexeme) :
    textOf (l :: ls) = l.text ++ textOf ls := rfl

/-! ### A lexeme is the first part of the text -/

theorem blockComment_append (depth : ℕ) (cs : List Char) :
    (blockComment depth cs).1 ++ (blockComment depth cs).2 = cs := by
  fun_induction blockComment depth cs with
  | case1 depth c d cs h text rest heq ih => simpa [heq] using ih
  | case2 c d cs h h' => rfl
  | case3 depth c d cs h h' hd text rest heq ih => simpa [heq] using ih
  | case4 depth c d cs h h' text rest heq ih => simpa [heq] using ih
  | case5 depth cs h => simp

theorem quoted_append (q : Char) (cs : List Char) : (quoted q cs).1 ++ (quoted q cs).2 = cs := by
  fun_induction quoted q cs with
  | case1 => rfl
  | case2 c => rfl
  | case3 cs text rest heq ih => simpa [heq] using ih
  | case4 d cs h => rfl
  | case5 c d cs h text rest heq ih => simpa [heq] using ih

theorem escaped_append (cs : List Char) : (escaped cs).1 ++ (escaped cs).2 = cs := by
  fun_induction escaped cs with
  | case1 => rfl
  | case2 c => rfl
  | case3 c d cs h text rest heq ih => simpa [heq] using ih
  | case4 d cs h => rfl
  | case5 c d cs h h' text rest heq ih => simpa [heq] using ih

theorem dollarQuoted_append (tag cs : List Char) :
    (dollarQuoted tag cs).1 ++ (dollarQuoted tag cs).2 = cs := by
  fun_induction dollarQuoted tag cs with
  | case1 => rfl
  | case2 c cs h => exact List.prefix_iff_eq_append.1 h
  | case3 c cs h text rest heq ih => simpa [heq] using ih

theorem dollar_append (cs : List Char) : (dollar cs).1.text ++ (dollar cs).2 = '$' :: cs := by
  have hcs := List.takeWhile_append_dropWhile (p := isTagChar) (l := cs)
  unfold dollar
  dsimp only
  split_ifs with hopen hdigits
  · obtain ⟨rest, hrest⟩ := List.head?_eq_some_iff.1 hopen.1
    rw [hrest] at hcs
    simp [dollarQuoted_append, hrest, hcs]
  all_goals simp [hcs]

theorem dollar_text (cs : List Char) : ∃ t, (dollar cs).1.text = '$' :: t := by
  unfold dollar
  dsimp only
  split_ifs <;> exact ⟨_, rfl⟩

theorem dollar_kind (cs : List Char) : (dollar cs).1.kind ≠ .placeholder := by
  unfold dollar
  dsimp only
  split_ifs <;> simp

/-! ### What a text begins with -/

/-- What a text begins with, one case for each branch of `lexeme`: its first lexeme and the rest. -/
inductive Begins (continues : Bool) : Char → List Char → Lexeme → List Char → Prop
  | lineComment {cs} (h : cs.head? = some '-') :
    Begins continues '-' cs ⟨.lineComment, '-' :: cs.takeWhile (!isNewline ·)⟩
      (cs.dropWhile (!isNewline ·))
  | blockComment {cs text rest} (h : blockComment 0 cs = (text, rest)) :
    Begins continues '/' ('*' :: cs) ⟨.blockComment, '/' :: '*' :: text⟩ rest
  | continued {cs text rest} (hcontinues : continues = true) (h : escaped cs = (text, rest)) :
    Begins continues quote cs ⟨.escapeString, quote :: text⟩ rest
  | string {cs text rest} (hcontinues : continues = false) (h : quoted quote cs = (text, rest)) :
    Begins continues quote cs ⟨.string, quote :: text⟩ rest
  | escape {c cs text rest} (hc : c = 'E' ∨ c = 'e') (h : escaped cs = (text, rest)) :
    Begins continues c (quote :: cs) ⟨.escapeString, c :: quote :: text⟩ rest
  | quotedIdentifier {cs text rest} (h : quoted dquote cs = (text, rest)) :
    Begins continues dquote cs ⟨.quotedIdentifier, dquote :: text⟩ rest
  | dollar {cs l rest} (h : dollar cs = (l, rest)) : Begins continues '$' cs l rest
  | identifier {c cs} (hident : startsIdentifier c = true)
      (hescape : ¬((c = 'E' ∨ c = 'e') ∧ cs.head? = some quote)) :
    Begins continues c cs ⟨.identifier, c :: cs.takeWhile isIdentifierChar⟩
      (cs.dropWhile isIdentifierChar)
  | number {c cs} (hdigit : c.isDigit = true) :
    Begins continues c cs ⟨.number, c :: cs.takeWhile isTagChar⟩ (cs.dropWhile isTagChar)
  | cast {cs} : Begins continues ':' (':' :: cs) ⟨.cast, [':', ':']⟩ cs
  | other {c cs} (hline : ¬(c = '-' ∧ cs.head? = some '-'))
      (hblock : ¬(c = '/' ∧ cs.head? = some '*')) (hquote : c ≠ quote) (hdquote : c ≠ dquote)
      (hdollar : c ≠ '$') (hident : ¬startsIdentifier c) (hdigit : ¬c.isDigit)
      (hcast : ¬(c = ':' ∧ cs.head? = some ':')) :
    Begins continues c cs ⟨if isSpace c then .space else .other, [c]⟩ cs

theorem begins_lexeme (b : Bool) (c : Char) (cs : List Char) :
    Begins b c cs (lexeme b c cs).1 (lexeme b c cs).2 := by
  unfold lexeme
  split_ifs with hline hblock hquote hb hescape hdquote hdollar hident hdigit hcast hspace
  · rw [hline.1]
    exact .lineComment hline.2
  · obtain ⟨rfl, hstar⟩ := hblock
    obtain ⟨body, rfl⟩ := List.head?_eq_some_iff.1 hstar
    exact .blockComment rfl
  · subst hquote
    exact .continued hb rfl
  · subst hquote
    exact .string (Bool.eq_false_iff.2 hb) rfl
  · obtain ⟨body, hbody⟩ := List.head?_eq_some_iff.1 hescape.2
    subst hbody
    exact .escape hescape.1 rfl
  · subst hdquote
    exact .quotedIdentifier rfl
  · subst hdollar
    exact .dollar rfl
  · exact .identifier hident hescape
  · exact .number hdigit
  · obtain ⟨rfl, hcolon⟩ := hcast
    obtain ⟨body, rfl⟩ := List.head?_eq_some_iff.1 hcolon
    exact .cast
  all_goals
    have hother : Begins b c cs ⟨if isSpace c then .space else .other, [c]⟩ cs :=
      .other hline hblock hquote hdquote hdollar hident hdigit hcast
  · rwa [if_pos hspace] at hother
  · rwa [if_neg hspace] at hother

section

variable {b : Bool} {c : Char} {cs rest : List Char} {l : Lexeme}

theorem lexeme_of_begins (h : Begins b c cs l rest) : lexeme b c cs = (l, rest) := by
  cases h with
  | lineComment h => simp [lexeme, h]
  | blockComment h => simp [lexeme, h]
  | continued hb h => simp [lexeme, h, hb, show quote ≠ '-' by decide, show quote ≠ '/' by decide]
  | string hb h => simp [lexeme, h, hb, show quote ≠ '-' by decide, show quote ≠ '/' by decide]
  | escape hc h =>
    rcases hc with rfl | rfl
    · simp [lexeme, h, show 'E' ≠ quote by decide]
    · simp [lexeme, h, show 'e' ≠ quote by decide]
  | quotedIdentifier h =>
    simp [lexeme, h, show dquote ≠ '-' by decide, show dquote ≠ '/' by decide,
      show dquote ≠ quote by decide, show dquote ≠ 'E' by decide, show dquote ≠ 'e' by decide]
  | dollar h => simp [lexeme, h, show '$' ≠ quote by decide, show '$' ≠ dquote by decide]
  | identifier hident hescape =>
    have hne : ∀ d, startsIdentifier d = false → c ≠ d := by
      rintro d hd rfl
      exact absurd hident (Bool.eq_false_iff.1 hd)
    rw [lexeme, if_neg fun h => hne '-' rfl h.1, if_neg fun h => hne '/' rfl h.1,
      if_neg (hne quote rfl), if_neg hescape, if_neg (hne dquote rfl), if_neg (hne '$' rfl),
      if_pos hident]
  | number hdigit =>
    have hne : ∀ d, d.isDigit = false → c ≠ d := by
      rintro d hd rfl
      exact absurd hdigit (Bool.eq_false_iff.1 hd)
    have hescape : ¬((c = 'E' ∨ c = 'e') ∧ cs.head? = some quote) := fun h =>
      h.1.elim (hne 'E' rfl) (hne 'e' rfl)
    rw [lexeme, if_neg fun h => hne '-' rfl h.1, if_neg fun h => hne '/' rfl h.1,
      if_neg (hne quote rfl), if_neg hescape, if_neg (hne dquote rfl), if_neg (hne '$' rfl),
      if_neg (Bool.eq_false_iff.1 (startsIdentifier_of_isDigit hdigit)), if_pos hdigit]
  | cast => rfl
  | other hline hblock hquote hdquote hdollar hident hdigit hcast =>
    have hescape : ¬((c = 'E' ∨ c = 'e') ∧ cs.head? = some quote) := by
      rintro ⟨rfl | rfl, -⟩ <;> exact hident rfl
    rw [lexeme, if_neg hline, if_neg hblock, if_neg hquote, if_neg hescape, if_neg hdquote,
      if_neg hdollar, if_neg hident, if_neg hdigit, if_neg hcast]

/-- The first lexeme is what the text begins with. -/
theorem lexeme_eq_iff : lexeme b c cs = (l, rest) ↔ Begins b c cs l rest := by
  refine ⟨fun h => ?_, lexeme_of_begins⟩
  have hbegins := begins_lexeme b c cs
  rwa [h] at hbegins

theorem Begins.append (h : Begins b c cs l rest) : l.text ++ rest = c :: cs := by
  cases h with
  | lineComment h => simp
  | @blockComment cs text rest h => simpa [h] using blockComment_append 0 cs
  | continued hb h => simpa [h] using escaped_append cs
  | string hb h => simpa [h] using quoted_append quote cs
  | @escape c cs text rest hc h => simpa [h] using escaped_append cs
  | quotedIdentifier h => simpa [h] using quoted_append dquote cs
  | dollar h => simpa [h] using dollar_append cs
  | identifier hident hescape => simp
  | number hdigit => simp
  | cast => rfl
  | other => rfl

/-- A lexeme begins with the first character. -/
theorem Begins.text (h : Begins b c cs l rest) : ∃ t, l.text = c :: t := by
  cases h with
  | dollar h =>
    obtain ⟨t, ht⟩ := dollar_text cs
    rw [h] at ht
    exact ⟨t, ht⟩
  | _ => exact ⟨_, rfl⟩

/-- The language has no placeholders. -/
theorem Begins.kind (h : Begins b c cs l rest) : l.kind ≠ .placeholder := by
  cases h with
  | dollar h =>
    have hkind := dollar_kind cs
    rwa [h] at hkind
  | other =>
    dsimp only
    split_ifs <;> simp
  | _ => simp

end

theorem lexeme_append (b : Bool) (c : Char) (cs : List Char) :
    (lexeme b c cs).1.text ++ (lexeme b c cs).2 = c :: cs :=
  (begins_lexeme b c cs).append

theorem lexeme_text (b : Bool) (c : Char) (cs : List Char) :
    ∃ t, (lexeme b c cs).1.text = c :: t :=
  (begins_lexeme b c cs).text

theorem lexeme_kind (b : Bool) (c : Char) (cs : List Char) :
    (lexeme b c cs).1.kind ≠ .placeholder :=
  (begins_lexeme b c cs).kind

/-! ### What is behind a lexeme -/

/-- `rest'` begins as `rest` does, but may have a dollar sign for a colon. -/
def SameHead (rest rest' : List Char) : Prop :=
  rest'.head? = rest.head? ∨ rest.head? = some ':' ∧ rest'.head? = some '$'

section

variable {t rest rest' : List Char}

theorem SameHead.append (h : SameHead rest rest') (t : List Char) :
    SameHead (t ++ rest) (t ++ rest') := by
  cases t with
  | nil => exact h
  | cons c t => exact .inl rfl

theorem SameHead.head?_iff (h : SameHead rest rest') {x : Char} (hx : x ≠ ':') (hx' : x ≠ '$') :
    rest'.head? = some x ↔ rest.head? = some x := by
  rcases h with h | ⟨h, h'⟩
  · rw [h]
  · rw [h, h', Option.some_inj, Option.some_inj]
    exact ⟨fun heq => absurd heq.symm hx', fun heq => absurd heq.symm hx⟩

theorem SameHead.eq_nil (h : SameHead [] rest') : rest' = [] := by
  rcases h with h | ⟨h, -⟩
  · exact List.head?_eq_none_iff.1 h
  · cases h

/-- The characters of a class, up to one that is not of it. -/
theorem span_stable {p : Char → Bool} {r : List Char} (ht : ∀ c ∈ t, p c = true)
    (h : ∀ c, r.head? = some c → p c = false) :
    (t ++ r).takeWhile p = t ∧ (t ++ r).dropWhile p = r := by
  have hnil : r.takeWhile p = [] ∧ r.dropWhile p = r := by
    cases r with
    | nil => exact ⟨rfl, rfl⟩
    | cons c cs =>
      have hc := h c rfl
      simp [hc]
  rw [List.takeWhile_append_of_pos ht, List.dropWhile_append_of_pos ht, hnil.1, hnil.2]
  exact ⟨List.append_nil t, rfl⟩

theorem head?_dropWhile {p : Char → Bool} {cs : List Char} {c : Char}
    (h : (cs.dropWhile p).head? = some c) : p c = false := by
  have := List.head?_dropWhile_not p cs
  rw [h] at this
  simpa using this

/-- A text is cut behind its first characters of a class. -/
theorem span_cases (p : Char → Bool) (cs : List Char) : ∃ t r, cs = t ++ r ∧
    (∀ c ∈ t, p c = true) ∧ ∀ c, r.head? = some c → p c = false := by
  refine ⟨cs.takeWhile p, cs.dropWhile p, List.takeWhile_append_dropWhile.symm, ?_, ?_⟩
  · intro c hc
    exact List.mem_takeWhile_imp hc
  · intro c hc
    exact head?_dropWhile hc

theorem blockComment_text (depth : ℕ) (c : Char) (cs : List Char) :
    ∃ t, (blockComment depth (c :: cs)).1 = c :: t := by
  cases cs with
  | nil => exact ⟨[], rfl⟩
  | cons d cs =>
    rw [blockComment]
    split_ifs <;> exact ⟨_, rfl⟩

theorem quoted_text (q c : Char) (cs : List Char) : ∃ t, (quoted q (c :: cs)).1 = c :: t := by
  cases cs with
  | nil => exact ⟨[], rfl⟩
  | cons d cs =>
    rw [quoted]
    split_ifs <;> exact ⟨_, rfl⟩

theorem escaped_text (c : Char) (cs : List Char) : ∃ t, (escaped (c :: cs)).1 = c :: t := by
  cases cs with
  | nil => exact ⟨[], rfl⟩
  | cons d cs =>
    rw [escaped]
    split_ifs <;> exact ⟨_, rfl⟩

theorem blockComment_stable {depth : ℕ} {cs : List Char} (h : blockComment depth cs = (t, rest))
    (hend : rest = [] → rest' = []) : blockComment depth (t ++ rest') = (t, rest') := by
  fun_induction blockComment depth cs generalizing t with
  | case1 depth c d cs hopen text rest₀ heq ih =>
    obtain ⟨rfl, rfl⟩ := Prod.mk.inj h
    rw [List.cons_append, List.cons_append, blockComment, if_pos hopen, ih heq]
  | case2 c d cs hopen hclose =>
    obtain ⟨rfl, rfl⟩ := Prod.mk.inj h
    rw [List.cons_append, List.cons_append, blockComment, if_neg hopen, if_pos hclose]
    rfl
  | case3 depth c d cs hopen hclose hdepth text rest₀ heq ih =>
    obtain ⟨rfl, rfl⟩ := Prod.mk.inj h
    rw [List.cons_append, List.cons_append, blockComment, if_neg hopen, if_pos hclose,
      if_neg hdepth, ih heq]
  | case4 depth c d cs hopen hclose text rest₀ heq ih =>
    obtain ⟨rfl, rfl⟩ := Prod.mk.inj h
    obtain ⟨t', ht'⟩ := blockComment_text depth d cs
    rw [heq] at ht'
    subst ht'
    have ih := ih heq
    rw [List.cons_append] at ih
    rw [List.cons_append, List.cons_append, blockComment, if_neg hopen, if_neg hclose, ih]
  | case5 depth cs hcs =>
    obtain ⟨rfl, rfl⟩ := Prod.mk.inj h
    rw [hend rfl, List.append_nil, blockComment]
    exact hcs

/-- The character behind the closing quote is not a quote. -/
theorem quoted_stable {q : Char} {cs : List Char} (h : quoted q cs = (t, rest))
    (hend : rest = [] → rest' = []) (hq : rest'.head? = some q → rest.head? = some q) :
    quoted q (t ++ rest') = (t, rest') := by
  fun_induction quoted q cs generalizing t with
  | case1 =>
    obtain ⟨rfl, rfl⟩ := Prod.mk.inj h
    rw [hend rfl]
    rfl
  | case2 c =>
    obtain ⟨rfl, rfl⟩ := Prod.mk.inj h
    rw [hend rfl]
    rfl
  | case3 cs text rest₀ heq ih =>
    obtain ⟨rfl, rfl⟩ := Prod.mk.inj h
    rw [List.cons_append, List.cons_append, quoted, if_pos rfl, if_pos rfl, ih heq]
  | case4 d cs hd =>
    obtain ⟨rfl, rfl⟩ := Prod.mk.inj h
    cases rest' with
    | nil => rfl
    | cons d' cs' =>
      have hd' : d' ≠ q := by
        rintro rfl
        exact hd (by simpa using hq rfl)
      rw [List.singleton_append, quoted, if_pos rfl, if_neg hd']
  | case5 c d cs hc text rest₀ heq ih =>
    obtain ⟨rfl, rfl⟩ := Prod.mk.inj h
    obtain ⟨t', ht'⟩ := quoted_text q d cs
    rw [heq] at ht'
    subst ht'
    have ih := ih heq
    rw [List.cons_append] at ih
    rw [List.cons_append, List.cons_append, quoted, if_neg hc, ih]

theorem escaped_stable {cs : List Char} (h : escaped cs = (t, rest))
    (hend : rest = [] → rest' = []) (hq : rest'.head? = some quote → rest.head? = some quote) :
    escaped (t ++ rest') = (t, rest') := by
  fun_induction escaped cs generalizing t with
  | case1 =>
    obtain ⟨rfl, rfl⟩ := Prod.mk.inj h
    rw [hend rfl]
    rfl
  | case2 c =>
    obtain ⟨rfl, rfl⟩ := Prod.mk.inj h
    rw [hend rfl]
    rfl
  | case3 c d cs hc text rest₀ heq ih =>
    obtain ⟨rfl, rfl⟩ := Prod.mk.inj h
    rw [List.cons_append, List.cons_append, escaped, if_pos hc, ih heq]
  | case4 d cs hd =>
    obtain ⟨rfl, rfl⟩ := Prod.mk.inj h
    cases rest' with
    | nil => rfl
    | cons d' cs' =>
      have hd' : ¬(quote = backslash ∨ quote = quote ∧ d' = quote) := by
        rintro (heq | ⟨-, rfl⟩)
        · exact hd (.inl heq)
        · exact hd (.inr ⟨rfl, by simpa using hq rfl⟩)
      rw [List.singleton_append, escaped, if_neg hd', if_pos rfl]
  | case5 c d cs hc hc' text rest₀ heq ih =>
    obtain ⟨rfl, rfl⟩ := Prod.mk.inj h
    obtain ⟨t', ht'⟩ := escaped_text d cs
    rw [heq] at ht'
    subst ht'
    have ih := ih heq
    rw [List.cons_append] at ih
    rw [List.cons_append, List.cons_append, escaped, if_neg hc, if_neg hc', ih]

/-- A dollar-quoted string that is closed ends with its tag. -/
theorem dollarQuoted_suffix {tag cs : List Char} (h : dollarQuoted tag cs = (t, rest))
    (hrest : rest ≠ []) : tag <:+ t := by
  fun_induction dollarQuoted tag cs generalizing t with
  | case1 =>
    obtain ⟨rfl, rfl⟩ := Prod.mk.inj h
    exact absurd rfl hrest
  | case2 c cs hc =>
    obtain ⟨rfl, rfl⟩ := Prod.mk.inj h
    exact List.suffix_rfl
  | case3 c cs hc text rest₀ heq ih =>
    obtain ⟨rfl, rfl⟩ := Prod.mk.inj h
    exact (ih heq).trans (List.suffix_cons c text)

theorem dollarQuoted_stable {tag cs : List Char} (h : dollarQuoted tag cs = (t, rest))
    (htag : tag ≠ []) (hend : rest = [] → rest' = []) :
    dollarQuoted tag (t ++ rest') = (t, rest') := by
  fun_induction dollarQuoted tag cs generalizing t with
  | case1 =>
    obtain ⟨rfl, rfl⟩ := Prod.mk.inj h
    rw [hend rfl]
    rfl
  | case2 c cs hc =>
    obtain ⟨rfl, rfl⟩ := Prod.mk.inj h
    obtain ⟨d, ds, rfl⟩ := List.exists_cons_of_ne_nil htag
    have hpre : d :: ds <+: d :: (ds ++ rest') := List.prefix_append (d :: ds) rest'
    rw [List.cons_append, dollarQuoted, if_pos hpre, ← List.cons_append, List.drop_left]
  | case3 c cs hc text rest₀ heq ih =>
    obtain ⟨rfl, rfl⟩ := Prod.mk.inj h
    have hcs := dollarQuoted_append tag cs
    rw [heq] at hcs
    have hc' : ¬tag <+: c :: (text ++ rest') := by
      intro hpre
      by_cases hrest : rest₀ = []
      · rw [hend hrest, ← hrest, hcs] at hpre
        exact hc hpre
      · -- the tag that closes the string is not longer than what stands before `rest'`
        have hle := (dollarQuoted_suffix heq hrest).length_le
        have hpre' : tag <+: c :: text :=
          List.prefix_of_prefix_length_le hpre (List.prefix_append (c :: text) rest')
            (by rw [List.length_cons]; omega)
        refine hc (hpre'.trans ?_)
        rw [← hcs]
        exact List.prefix_append (c :: text) rest₀
    rw [List.cons_append, dollarQuoted, if_neg hc', ih heq]

/-- The lexemes that a dollar sign behind them would be a part of, or would turn into a tag. -/
def Lexeme.takesDollar (l : Lexeme) : Bool :=
  l.kind == .identifier || l.kind == .strayDollar && l.text.tail.head?.all startsIdentifier

theorem isTagChar_dollar : isTagChar '$' = false := by decide

theorem lexeme_dollar (b : Bool) (cs : List Char) : lexeme b '$' cs = dollar cs :=
  lexeme_of_begins (.dollar rfl)

theorem dollar_open {run body : List Char} (hrun : ∀ c ∈ run, isTagChar c = true)
    (hstart : run.head?.all startsIdentifier) {text : List Char}
    (h : dollarQuoted ('$' :: (run ++ ['$'])) body = (text, rest)) :
    dollar (run ++ '$' :: body) = (⟨.dollarString, '$' :: (run ++ ['$']) ++ text⟩, rest) := by
  obtain ⟨htake, hdrop⟩ := span_stable (r := '$' :: body) hrun
    (fun c hc => by rw [← Option.some_inj.1 hc]; exact isTagChar_dollar)
  simp only [dollar, htake, hdrop, List.head?_cons, hstart, and_self, if_true, List.tail_cons, h]

theorem dollar_closed {run : List Char} (hrun : ∀ c ∈ run, isTagChar c = true)
    (hrest : ∀ c, rest.head? = some c → isTagChar c = false)
    (hopen : ¬(rest.head? = some '$' ∧ run.head?.all startsIdentifier)) :
    dollar (run ++ rest) = (⟨if run ≠ [] ∧ run.all Char.isDigit then .parameter else .strayDollar,
      '$' :: run⟩, rest) := by
  obtain ⟨htake, hdrop⟩ := span_stable hrun hrest
  simp only [dollar, htake, hdrop, if_neg hopen]
  split_ifs <;> rfl

theorem dollar_stable {cs : List Char} {l : Lexeme} (h : dollar cs = (l, rest))
    (hhead : SameHead rest rest') (hdollar : l.takesDollar → rest'.head? = rest.head?) :
    dollar (l.text.tail ++ rest') = (l, rest') := by
  obtain ⟨run, r, rfl, hrun, hr⟩ := span_cases isTagChar cs
  by_cases hopen : r.head? = some '$' ∧ run.head?.all startsIdentifier
  · -- the tag is closed by a dollar sign, so it does not depend on what follows
    obtain ⟨body, rfl⟩ := List.head?_eq_some_iff.1 hopen.1
    obtain ⟨text, rest₀, hbody⟩ : ∃ text rest₀,
        dollarQuoted ('$' :: (run ++ ['$'])) body = (text, rest₀) := ⟨_, _, rfl⟩
    rw [dollar_open hrun hopen.2 hbody] at h
    obtain ⟨rfl, rfl⟩ := Prod.mk.inj h
    have hend : rest₀ = [] → rest' = [] := by
      intro hnil
      rw [hnil] at hhead
      exact hhead.eq_nil
    have hstable := dollarQuoted_stable hbody (List.cons_ne_nil _ _) hend
    simpa using dollar_open hrun hopen.2 hstable
  · rw [dollar_closed hrun hr hopen] at h
    obtain ⟨rfl, rfl⟩ := Prod.mk.inj h
    refine dollar_closed hrun ?_ ?_
    · intro c hc
      rcases hhead with hsame | ⟨-, hdollar'⟩
      · exact hr c (hsame ▸ hc)
      · rw [← Option.some_inj.1 (hdollar'.symm.trans hc)]
        exact isTagChar_dollar
    · rintro ⟨hd, hstart⟩
      refine hopen ⟨?_, hstart⟩
      rw [← hdollar, hd]
      cases run with
      | nil => rfl
      | cons c run =>
        have hc : c.isDigit = false := by
          rw [← Bool.not_eq_true]
          intro hdigit
          simp [startsIdentifier_of_isDigit hdigit] at hstart
        simpa [Lexeme.takesDollar, hc] using hstart

/-- The first lexeme is the same if what is behind it changes, as long as the head of that does, or
becomes a dollar sign that the lexeme does not take. -/
theorem Begins.stable {b : Bool} {c : Char} {cs : List Char} {l : Lexeme}
    (h : Begins b c cs l rest) (hhead : SameHead rest rest')
    (hdollar : l.takesDollar → rest'.head? = rest.head?) :
    Begins b c (l.text.tail ++ rest') l rest' := by
  have hend : rest = [] → rest' = [] := by
    rintro rfl
    exact hhead.eq_nil
  have hcs : SameHead cs (l.text.tail ++ rest') := by
    have happend := h.append
    obtain ⟨t, ht⟩ := h.text
    rw [ht, List.cons_append] at happend
    rw [ht, List.tail_cons, ← (List.cons.inj happend).2]
    exact hhead.append t
  have hquoted : ∀ {x}, x ≠ ':' → x ≠ '$' → rest'.head? = some x → rest.head? = some x :=
    fun hx hx' => (hhead.head?_iff hx hx').1
  -- what ends a run of characters still ends it
  have hspan : ∀ {p : Char → Bool}, rest = cs.dropWhile p → (p ':' = false → p '$' = false) →
      ∀ x, rest'.head? = some x → p x = false := by
    rintro p rfl hp x hx
    rcases hhead with hsame | ⟨hcolon, hdollar'⟩
    · exact head?_dropWhile (hsame ▸ hx)
    · rw [← Option.some_inj.1 (hdollar'.symm.trans hx)]
      exact hp (head?_dropWhile hcolon)
  cases h with
  | lineComment h =>
    obtain ⟨htake, hdrop⟩ := span_stable (fun c hc => List.mem_takeWhile_imp hc)
      (hspan rfl (by decide))
    have hline := @Begins.lineComment b _ ((hcs.head?_iff (by decide) (by decide)).2 h)
    rwa [List.tail_cons, htake, hdrop] at hline
  | blockComment h => exact .blockComment (blockComment_stable h hend)
  | continued hb h =>
    exact .continued hb (escaped_stable h hend (hquoted (by decide) (by decide)))
  | string hb h => exact .string hb (quoted_stable h hend (hquoted (by decide) (by decide)))
  | escape hc h => exact .escape hc (escaped_stable h hend (hquoted (by decide) (by decide)))
  | quotedIdentifier h =>
    exact .quotedIdentifier (quoted_stable h hend (hquoted (by decide) (by decide)))
  | dollar h => exact .dollar (dollar_stable h hhead hdollar)
  | identifier hident hescape =>
    -- an identifier takes a dollar sign, so nothing changes behind it
    have hsame := hdollar rfl
    obtain ⟨htake, hdrop⟩ := span_stable (r := rest') (fun c hc => List.mem_takeWhile_imp hc)
      (fun x hx => head?_dropWhile (hsame ▸ hx))
    have hread := @Begins.identifier b c _ hident fun h =>
      hescape ⟨h.1, (hcs.head?_iff (by decide) (by decide)).1 h.2⟩
    rwa [List.tail_cons, htake, hdrop] at hread
  | number hdigit =>
    obtain ⟨htake, hdrop⟩ := span_stable (fun c hc => List.mem_takeWhile_imp hc)
      (hspan rfl (by decide))
    have hread := @Begins.number b c (cs.takeWhile isTagChar ++ rest') hdigit
    rwa [htake, hdrop] at hread
  | cast => exact .cast
  | other hline hblock hquote hdquote hdollar' hident hdigit hcast =>
    refine .other ?_ ?_ hquote hdquote hdollar' hident hdigit ?_
    · exact fun h => hline ⟨h.1, (hcs.head?_iff (by decide) (by decide)).1 h.2⟩
    · exact fun h => hblock ⟨h.1, (hcs.head?_iff (by decide) (by decide)).1 h.2⟩
    · rintro ⟨rfl, hd⟩
      rcases hhead with hsame | ⟨hcolon, -⟩
      · exact hcast ⟨rfl, hsame ▸ hd⟩
      · exact hcast ⟨rfl, hcolon⟩

/-- A lexeme that would take a dollar sign behind it has none there. -/
theorem Begins.takesDollar {b : Bool} {c : Char} {cs : List Char} {l : Lexeme}
    (h : Begins b c cs l rest) (hl : l.takesDollar) : rest.head? ≠ some '$' := by
  cases h with
  | dollar h =>
    obtain ⟨run, r, rfl, hrun, hr⟩ := span_cases isTagChar cs
    by_cases hopen : r.head? = some '$' ∧ run.head?.all startsIdentifier
    · obtain ⟨body, rfl⟩ := List.head?_eq_some_iff.1 hopen.1
      rw [dollar_open hrun hopen.2 rfl] at h
      obtain ⟨rfl, rfl⟩ := Prod.mk.inj h
      cases hl
    · rw [dollar_closed hrun hr hopen] at h
      obtain ⟨rfl, rfl⟩ := Prod.mk.inj h
      intro hhead
      refine hopen ⟨hhead, ?_⟩
      simp only [Lexeme.takesDollar, List.tail_cons, Bool.or_eq_true, Bool.and_eq_true] at hl
      rcases hl with hl | hl
      · split_ifs at hl <;> cases hl
      · exact hl.2
  | identifier hident hescape =>
    intro hhead
    exact absurd (head?_dropWhile hhead) (by decide)
  | other =>
    split_ifs at hl <;> cases hl
  | _ => cases hl

end

/-! ### The lexemes of a text -/

/-- A rule reads a first part of the text. -/
def Reads (rule : List Char → Option (Lexeme × List Char)) : Prop :=
  ∀ cs l rest, rule cs = some (l, rest) → l.text ≠ [] ∧ l.text ++ rest = cs

theorem reads_none : Reads fun _ => none := fun _ _ _ h => by cases h

section

variable {rule : List Char → Option (Lexeme × List Char)}

theorem first_append (hrule : Reads rule) (s : State) (c : Char) (cs : List Char) :
    (first rule s c cs).1.text ≠ [] ∧
      (first rule s c cs).1.text ++ (first rule s c cs).2 = c :: cs := by
  unfold first
  cases h : rule (c :: cs) with
  | none =>
    obtain ⟨t, ht⟩ := lexeme_text s.continues c cs
    refine ⟨?_, lexeme_append s.continues c cs⟩
    rw [Option.getD_none, ht]
    exact List.cons_ne_nil c t
  | some read => exact hrule _ _ _ h

theorem length_first_le (hrule : Reads rule) (s : State) (c : Char) (cs : List Char) :
    (first rule s c cs).2.length ≤ cs.length := by
  obtain ⟨hne, happend⟩ := first_append hrule s c cs
  have hpos := List.length_pos_iff.2 hne
  have hlen := congrArg List.length happend
  rw [List.length_append, List.length_cons] at hlen
  omega

theorem scanFrom_eq (hrule : Reads rule) {fuel : ℕ} {cs : List Char} (h : cs.length ≤ fuel)
    (s : State) : scanFrom rule fuel s cs = scan rule s cs := by
  unfold scan
  induction hlen : cs.length using Nat.strongRecOn generalizing cs fuel s with
  | _ n ih =>
    cases cs with
    | nil =>
      subst hlen
      cases fuel <;> rfl
    | cons c cs =>
      subst hlen
      have hle := length_first_le hrule s c cs
      simp only [List.length_cons] at h ih ⊢
      obtain ⟨fuel, rfl⟩ := Nat.exists_eq_add_of_le' (Nat.le_trans (Nat.le_add_left 1 _) h)
      simp only [scanFrom]
      rw [ih _ (by omega) (by omega) _ rfl, ← ih _ (by omega) hle _ rfl]

@[simp] theorem scan_nil (s : State) : scan rule s [] = [] := rfl

theorem scan_cons (hrule : Reads rule) (s : State) (c : Char) (cs : List Char) :
    scan rule s (c :: cs) = (first rule s c cs).1 ::
      scan rule (s.next (first rule s c cs).1) (first rule s c cs).2 := by
  rw [← scanFrom_eq hrule (length_first_le hrule s c cs)]
  rfl

/-- The induction along a text, lexeme by lexeme. -/
theorem scan_induction (hrule : Reads rule) {motive : State → List Char → Prop}
    (nil : ∀ s, motive s [])
    (cons : ∀ s c cs, motive (s.next (first rule s c cs).1) (first rule s c cs).2 →
      motive s (c :: cs)) (s : State) (cs : List Char) : motive s cs := by
  induction hlen : cs.length using Nat.strongRecOn generalizing cs s with
  | _ n ih =>
    cases cs with
    | nil => exact nil s
    | cons c cs =>
      subst hlen
      exact cons s c cs (ih _ (Nat.lt_succ_of_le (length_first_le hrule s c cs)) _ _ rfl)

/-- **The lexemes of a text make up the text.** -/
theorem textOf_scan (hrule : Reads rule) (s : State) (cs : List Char) :
    textOf (scan rule s cs) = cs := by
  induction s, cs using scan_induction hrule with
  | nil s => rfl
  | cons s c cs ih =>
    rw [scan_cons hrule, textOf_cons, ih]
    exact (first_append hrule s c cs).2

end

/-! ### Reading what was written -/

section

variable {s : State} {ls : List Lexeme}

/-- A parameter is read as one if and only if no identifier begins directly behind it. -/
theorem dollar_digits_iff {digits rest : List Char} (hdigits : ∀ c ∈ digits, c.isDigit = true)
    (hne : digits ≠ []) :
    (dollar (digits ++ rest)).1 = ⟨.parameter, '$' :: digits⟩ ↔
      rest.head?.any isTagChar = false := by
  have htag : ∀ c ∈ digits, isTagChar c = true := fun c hc => by simp [isTagChar, hdigits c hc]
  have hstart : digits.head?.all startsIdentifier = false := by
    obtain ⟨d, ds, rfl⟩ := List.exists_cons_of_ne_nil hne
    simpa using startsIdentifier_of_isDigit (hdigits d List.mem_cons_self)
  constructor
  · intro h
    obtain ⟨run, r, happend, hrun, hr⟩ := span_cases isTagChar (digits ++ rest)
    rw [happend] at h
    by_cases hopen : r.head? = some '$' ∧ run.head?.all startsIdentifier
    · obtain ⟨body, rfl⟩ := List.head?_eq_some_iff.1 hopen.1
      rw [dollar_open hrun hopen.2 rfl] at h
      cases h
    · rw [dollar_closed hrun hr hopen] at h
      obtain rfl : run = digits := (List.cons.inj (Lexeme.mk.inj h).2).2
      obtain rfl := List.append_cancel_left happend
      cases hhead : rest.head? with
      | none => rfl
      | some c => exact hr c hhead
  · intro h
    rw [dollar_closed htag]
    · simp [hne, List.all_eq_true.2 hdigits]
    · intro c hc
      simpa [hc] using h
    · simp [hstart]

/-- A parameter that is written before `rest`. -/
theorem scan_parameter_iff {digits rest : List Char} (hdigits : ∀ c ∈ digits, c.isDigit = true)
    (hne : digits ≠ []) :
    scan (fun _ => none) s ('$' :: digits ++ rest) = ⟨.parameter, '$' :: digits⟩ :: ls ↔
      rest.head?.any isTagChar = false ∧ scan (fun _ => none) .other rest = ls := by
  have hfirst : first (fun _ => none) s '$' (digits ++ rest) = dollar (digits ++ rest) :=
    lexeme_dollar s.continues _
  rw [List.cons_append, scan_cons reads_none, hfirst, List.cons.injEq,
    dollar_digits_iff hdigits hne]
  refine and_congr_right fun hrest => ?_
  have hread := (dollar_digits_iff hdigits hne).2 hrest
  have happend := dollar_append (digits ++ rest)
  rw [hread, List.cons_append] at happend
  have hnext : s.next ⟨.parameter, '$' :: digits⟩ = .other := by cases s <;> rfl
  rw [List.append_cancel_left (List.cons.inj happend).2, hread, hnext]

/-- A lexeme that was read before `rest`, and is now before `rest'`. -/
theorem scan_lexeme_iff {c : Char} {cs rest' : List Char}
    (hhead : SameHead (lexeme s.continues c cs).2 rest') :
    scan (fun _ => none) s ((lexeme s.continues c cs).1.text ++ rest') =
        (lexeme s.continues c cs).1 :: ls ↔
      ((lexeme s.continues c cs).1.takesDollar →
        rest'.head? = (lexeme s.continues c cs).2.head?) ∧
      scan (fun _ => none) (s.next (lexeme s.continues c cs).1) rest' = ls := by
  obtain ⟨l, rest, hl⟩ : ∃ l rest, lexeme s.continues c cs = (l, rest) := ⟨_, _, rfl⟩
  obtain ⟨t, ht⟩ := lexeme_text s.continues c cs
  rw [hl] at hhead ht ⊢
  dsimp only at hhead ht ⊢
  have hfirst : first (fun _ => none) s c (t ++ rest') = lexeme s.continues c (t ++ rest') := rfl
  rw [ht, List.cons_append, scan_cons reads_none, hfirst, List.cons.injEq]
  constructor
  · rintro ⟨hread, hls⟩
    have happend := lexeme_append s.continues c (t ++ rest')
    rw [hread, ht, List.cons_append] at happend
    have hrest := List.append_cancel_left (List.cons.inj happend).2
    rw [hread, hrest] at hls
    refine ⟨fun htakes => ?_, hls⟩
    have hne := (lexeme_eq_iff.1 (Prod.ext hread hrest)).takesDollar htakes
    rcases hhead with hsame | ⟨-, hdollar⟩
    · exact hsame
    · exact absurd hdollar hne
  · rintro ⟨hsame, hls⟩
    have hstable := lexeme_of_begins ((lexeme_eq_iff.1 hl).stable hhead hsame)
    rw [ht, List.tail_cons] at hstable
    rw [hstable]
    exact ⟨rfl, hls⟩

end

end Resolute.Sql
