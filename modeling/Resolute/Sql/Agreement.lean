import Mathlib.Data.List.Infix
import Resolute.Sql.NamedParams

/-!
# Named parameters and the lexical structure

What the rewriter makes of a text is compared with what the language reads (`Agrees`): a placeholder
is a colon and a name where the language does not read something longer (`pieces`), and the
rewritten text must be read with a parameter in its place and all other lexemes as they were.

The rewriter misreads some texts (`known` says which lexemes it knows), and where a parameter stands
close to other characters the language reads more than the parameter (`Free`).  Where it knows the
lexemes the rewriter works lexeme by lexeme (`readOn_pieces`), and agrees with the language if and
only if all placeholders stand free (`rewrite_agrees_iff`).
-/

namespace Resolute.NamedParams

open Sql (Lexeme State lexeme scan lex textOf quote dquote newline carriageReturn isTagChar
  isIdentifierChar startsIdentifier)

/-! ### What the rewriter should do -/

/-- A placeholder. -/
def placeholder (U : Unicode) : List Char → Option (Lexeme × List Char)
  | [] => none
  | c :: cs =>
    if c = ':' ∧ cs.head?.any U.startsName then
      some (⟨.placeholder, c :: cs.takeWhile U.isWord⟩, cs.dropWhile U.isWord)
    else none

/-- The lexemes of a text with placeholders. -/
def pieces (U : Unicode) (sql : String) : List Lexeme := scan (placeholder U) .other sql.toList

/-- The name of a placeholder. -/
def nameOf (l : Lexeme) : String := String.ofList l.text.tail

/-- The names of the placeholders, in order. -/
def placeholders (ls : List Lexeme) : List String :=
  (ls.filter (·.kind = .placeholder)).map nameOf

/-- A placeholder becomes the parameter with the position of its name. -/
def numbered (names : List String) (l : Lexeme) : Lexeme :=
  if l.kind = .placeholder then
    ⟨.parameter, '$' :: (toString (names.idxOf (nameOf l) + 1)).toList⟩
  else l

/-- The rewritten text has parameters for the placeholders and is otherwise unchanged, and this is
how the language reads it. -/
structure Agrees (U : Unicode) (sql : String) : Prop where
  names : (rewrite U sql).2 = (placeholders (pieces U sql)).eraseDups
  copied : (rewrite U sql).1.toList = textOf ((pieces U sql).map (numbered (rewrite U sql).2))
  read : lex (rewrite U sql).1.toList = (pieces U sql).map (numbered (rewrite U sql).2)

/-! ### Where it does -/

/-- At a dollar sign, the rewriter takes what follows for a tag. -/
def opensTag (U : Unicode) (cs : List Char) : Bool := (cs.dropWhile U.isWord).head? == some '$'

/-- The rewriter knows the lexeme: `rest` is what follows. -/
def known (U : Unicode) (l : Lexeme) (rest : List Char) : Bool :=
  match l.kind with
  -- a line ends with a line feed
  | .lineComment => rest.head? != some carriageReturn || rest.tail.head?.all (· == newline)
  -- no comment inside of a comment
  | .blockComment => !decide (['/', '*'] <:+: l.text.drop 2)
  -- without escapes the literal would end at the same place
  | .escapeString =>
    let body := (l.text.dropWhile (· != quote)).tail
    Sql.quoted quote (body ++ rest) == (body, rest)
  | .dollarString => (l.text.tail.takeWhile isTagChar).all U.isWord
  -- no dollar sign seems to open a string
  | .identifier | .parameter | .strayDollar =>
    l.text.tails.all fun cs => cs.head? != some '$' || !opensTag U (cs.tail ++ rest)
  | _ => true

/-- Something in the text looks like a placeholder. -/
def mentions (U : Unicode) : List Char → Bool
  | [] => false
  | c :: cs => c == ':' && cs.head?.any U.startsName || mentions U cs

/-- The rewriter knows every lexeme that a colon with a name is in or behind. -/
def AllKnown (U : Unicode) : List Lexeme → Prop
  | [] => True
  | l :: ls => (mentions U (textOf (l :: ls)) → known U l (textOf ls)) ∧ AllKnown U ls

/-- No placeholder stands directly behind what would take the dollar sign of its parameter, nor
directly before what would go on with an identifier. -/
def Free : List Lexeme → Prop
  | [] => True
  | l :: ls =>
    (l.kind = .placeholder → (textOf ls).head?.any startsIdentifier = false) ∧
    (l.takesDollar → ls.head?.all (·.kind ≠ .placeholder)) ∧ Free ls

instance decidableAllKnown (U : Unicode) : (ls : List Lexeme) → Decidable (AllKnown U ls)
  | [] => isTrue trivial
  | _ :: ls => @instDecidableAnd _ _ inferInstance (decidableAllKnown U ls)

instance decidableFree : (ls : List Lexeme) → Decidable (Free ls)
  | [] => isTrue trivial
  | _ :: ls => @instDecidableAnd _ _ inferInstance
      (@instDecidableAnd _ _ inferInstance (decidableFree ls))

/-! ### Lexeme by lexeme -/

section

variable {U : Unicode} {c : Char} {cs rest t : List Char} {out : Output}

@[simp] theorem push_push (out : Output) (t t' : List Char) :
    (out.push t).push t' = out.push (t ++ t') := by
  simp [Output.push]

@[simp] theorem push_nil (out : Output) : out.push [] = out := by
  simp [Output.push]

theorem isWord_ascii (h : c.toNat < 128) : U.isWord c = (c.isAlpha || c.isDigit || c == '_') := by
  rw [Unicode.isWord, Unicode.isAlphanumeric, U.isAlphabetic_ascii c h, U.isNumeric_ascii c h]

theorem isWord_dollar : U.isWord '$' = false := by
  rw [isWord_ascii (by decide)]
  decide

theorem startsName_colon : U.startsName ':' = false := by
  rw [Unicode.startsName, U.isAlphabetic_ascii _ (by decide)]
  decide

/-- A character that begins nothing is copied. -/
theorem pass_other (hminus : c ≠ '-') (hslash : c ≠ '/') (hquote : c ≠ quote) (hdquote : c ≠ dquote)
    (hdollar : c ≠ '$') (hcolon : c ≠ ':') : pass U c cs out = (cs, out.push [c]) := by
  simp [pass, hminus, hslash, hquote, hdquote, hdollar, hcolon]

theorem readOn_singleton (c : Char) (out : Output) : readOn U [c] out = out.push [c] := by
  have hle := length_pass_le U c [] out
  rw [readOn_cons]
  rcases pass_cases U c [] out with ⟨text, rest, -, happend, heq⟩ | ⟨hname, -⟩
  · rw [heq] at hle ⊢
    obtain rfl := List.eq_nil_of_length_eq_zero (Nat.le_zero.1 hle)
    rw [List.append_nil] at happend
    rw [happend, readOn_nil]
  · simp at hname

theorem pass_dollar (h : opensTag U cs = false) : pass U '$' cs out = (cs, out.push ['$']) := by
  simp only [opensTag, beq_eq_false_iff_ne] at h
  simp only [pass, show '$' ≠ '-' by decide, show '$' ≠ '/' by decide, show '$' ≠ quote by decide,
    show '$' ≠ dquote by decide, false_and, if_false, if_true, List.span_eq_takeWhile_dropWhile]
  split
  · rename_i heq
    exact absurd (by rw [heq]; rfl) h
  · rfl

theorem not_opensTag (h : t.tails.all
    fun cs => cs.head? != some '$' || !opensTag U (cs.tail ++ rest)) :
    ∀ cs ∈ t.tails, cs.head? = some '$' → opensTag U (cs.tail ++ rest) = false := by
  intro cs hcs hhead
  simpa [hhead] using List.all_eq_true.1 h cs hcs

/-- Identifiers, numbers, parameters and dollar signs are copied character by character. -/
theorem readOn_identifier (ht : ∀ c ∈ t, isIdentifierChar c = true)
    (hdollar : ∀ cs ∈ t.tails, cs.head? = some '$' → opensTag U (cs.tail ++ rest) = false) :
    readOn U (t ++ rest) out = readOn U rest (out.push t) := by
  induction t generalizing out with
  | nil => simp
  | cons c t ih =>
    have hc := ht c List.mem_cons_self
    have hpass : pass U c (t ++ rest) out = (t ++ rest, out.push [c]) := by
      by_cases hc' : c = '$'
      · subst hc'
        exact pass_dollar (hdollar ('$' :: t) (by simp) rfl)
      · have hne : ∀ {d}, isIdentifierChar d = false → c ≠ d := fun hd heq => by
          rw [heq, hd] at hc
          cases hc
        exact pass_other (hne (by decide)) (hne (by decide)) (hne (by decide)) (hne (by decide)) hc'
          (hne (by decide))
    rw [List.cons_append, readOn_cons, hpass, ih]
    · simp
    · exact fun c hc => ht c (List.mem_cons_of_mem _ hc)
    · exact fun cs hcs => hdollar cs (by simp [hcs])

theorem stringLiteral_eq (cs : List Char) : stringLiteral cs = Sql.quoted quote cs := by
  fun_induction stringLiteral cs with
  | case1 => rfl
  | case2 c => rfl
  | case3 cs text rest heq ih => simp [Sql.quoted, ← ih, heq]
  | case4 d cs h => simp [Sql.quoted, h]
  | case5 c d cs h text rest heq ih => simp [Sql.quoted, h, ← ih, heq]

/-- A block comment without another one in it; of one that is not closed, the last character is read
by itself. -/
theorem readOn_blockComment (h : Sql.blockComment 0 cs = (t, rest)) (hopen : ¬['/', '*'] <:+: t) :
    readOn U (blockComment cs).2 (out.push (blockComment cs).1) = readOn U rest (out.push t) := by
  fun_induction blockComment cs generalizing t out with
  | case1 c d cs hclose =>
    obtain ⟨rfl, rfl⟩ := hclose
    obtain ⟨rfl, rfl⟩ := Prod.mk.inj h
    rfl
  | case2 c d cs hclose text rest₀ heq ih =>
    rw [Sql.blockComment] at h
    split_ifs at h with hopens
    · obtain ⟨rfl, -⟩ := Prod.mk.inj h
      obtain ⟨rfl, rfl⟩ := hopens
      exact absurd ((List.prefix_append ['/', '*'] _).isInfix) hopen
    · obtain ⟨rfl, rfl⟩ := Prod.mk.inj h
      have hopen' : ¬['/', '*'] <:+: (Sql.blockComment 0 (d :: cs)).1 := fun hsub =>
        hopen (hsub.trans (List.suffix_cons c _).isInfix)
      have ih := @ih _ (out.push [c]) rfl hopen'
      rw [heq] at ih
      simpa using ih
  | case3 cs hcs =>
    rcases cs with _ | ⟨c, _ | ⟨d, cs⟩⟩
    · obtain ⟨rfl, rfl⟩ := Prod.mk.inj h
      rfl
    · obtain ⟨rfl, rfl⟩ := Prod.mk.inj h
      simp [readOn_singleton]
    · exact absurd rfl (hcs c d cs)

/-- A quoted identifier with a doubled quote is read as two. -/
theorem readOn_quotedIdentifier (h : Sql.quoted dquote cs = (t, rest)) :
    readOn U (quotedIdentifier cs).2 (out.push (quotedIdentifier cs).1) =
      readOn U rest (out.push t) := by
  fun_induction Sql.quoted dquote cs generalizing t out with
  | case1 =>
    obtain ⟨rfl, rfl⟩ := Prod.mk.inj h
    rfl
  | case2 c =>
    obtain ⟨rfl, rfl⟩ := Prod.mk.inj h
    by_cases hc : c = dquote <;> simp [quotedIdentifier, hc]
  | case3 cs text rest₀ heq ih =>
    obtain ⟨rfl, rfl⟩ := Prod.mk.inj h
    have hpass : pass U dquote cs (out.push [dquote]) = ((quotedIdentifier cs).2,
        (out.push [dquote, dquote]).push (quotedIdentifier cs).1) := by
      simp [pass, show dquote ≠ '-' by decide, show dquote ≠ '/' by decide,
        show dquote ≠ quote by decide]
    rw [quotedIdentifier, if_pos rfl]
    dsimp only
    rw [readOn_cons, hpass, ih heq, push_push]
    rfl
  | case4 d cs hd =>
    obtain ⟨rfl, rfl⟩ := Prod.mk.inj h
    rw [quotedIdentifier, if_pos rfl]
  | case5 c d cs hc text rest₀ heq ih =>
    obtain ⟨rfl, rfl⟩ := Prod.mk.inj h
    have ih := @ih _ (out.push [c]) heq
    rw [quotedIdentifier, if_neg hc]
    simpa using ih

theorem dollarBody_eq (tag cs : List Char) :
    dollarBody ('$' :: tag) cs = Sql.dollarQuoted ('$' :: tag) cs := by
  induction cs with
  | nil => rfl
  | cons c cs ih =>
    have hiff : c = '$' ∧ '$' :: tag <+: c :: cs ↔ '$' :: tag <+: c :: cs :=
      and_iff_right_of_imp fun h => (List.cons_prefix_cons.1 h).1.symm
    simp only [dollarBody, Sql.dollarQuoted, hiff, ih]

/-- A line comment; a carriage return before the line feed is copied with it. -/
theorem readOn_lineComment (hcs : cs.head? = some '-')
    (hknown : (cs.dropWhile (!Sql.isNewline ·)).head? ≠ some carriageReturn ∨
      (cs.dropWhile (!Sql.isNewline ·)).tail.head?.all (· == newline)) :
    readOn U ('-' :: cs) out = readOn U (cs.dropWhile (!Sql.isNewline ·))
      (out.push ('-' :: cs.takeWhile (!Sql.isNewline ·))) := by
  have hpass : pass U '-' cs out = (cs.dropWhile (· ≠ newline),
      out.push ('-' :: cs.takeWhile (· ≠ newline))) := by
    simp [pass, hcs, List.span_eq_takeWhile_dropWhile, show '-' ≠ newline by decide]
  obtain ⟨t, r, rfl, ht, hr⟩ := Sql.span_cases (!Sql.isNewline ·) cs
  obtain ⟨htake, hdrop⟩ := Sql.span_stable ht hr
  rw [hdrop] at hknown ⊢
  rw [htake]
  have hline : ∀ c ∈ t, decide (c ≠ newline) = true := by
    intro c hc
    have hc := ht c hc
    simp only [Sql.isNewline, Bool.not_eq_true', Bool.or_eq_false_iff, beq_eq_false_iff_ne] at hc
    simpa using hc.1
  rw [readOn_cons, hpass]
  by_cases hr' : r.head? = some carriageReturn
  · obtain ⟨r, rfl⟩ := List.head?_eq_some_iff.1 hr'
    have hnext : ∀ c, r.head? = some c → decide (c ≠ newline) = false := by
      intro c hc
      simpa [hc] using hknown
    have hline' : ∀ c ∈ t ++ [carriageReturn], decide (c ≠ newline) = true := by
      intro c hc
      rcases List.mem_append.1 hc with hc | hc
      · exact hline c hc
      · rw [List.mem_singleton.1 hc]
        decide
    obtain ⟨htake', hdrop'⟩ := Sql.span_stable hline' hnext
    have hread : readOn U (carriageReturn :: r) (out.push ('-' :: t)) =
        readOn U r ((out.push ('-' :: t)).push [carriageReturn]) := by
      rw [readOn_cons, pass_other] <;> decide
    rw [List.append_cons, htake', hdrop', hread, push_push]
    rfl
  · have hnext : ∀ c, r.head? = some c → decide (c ≠ newline) = false := by
      intro c hc
      have hc' := hr c hc
      simp only [Sql.isNewline, Bool.not_eq_false', Bool.or_eq_true, beq_iff_eq] at hc'
      rcases hc' with rfl | rfl
      · decide
      · exact absurd hc hr'
    obtain ⟨htake', hdrop'⟩ := Sql.span_stable hline hnext
    rw [htake', hdrop']

theorem readOn_string (cs : List Char) (out : Output) : readOn U (quote :: cs) out =
    readOn U (Sql.quoted quote cs).2 (out.push (quote :: (Sql.quoted quote cs).1)) := by
  have hpass : pass U quote cs out =
      ((stringLiteral cs).2, out.push (quote :: (stringLiteral cs).1)) := by
    simp [pass, show quote ≠ '-' by decide, show quote ≠ '/' by decide]
  rw [readOn_cons, hpass, stringLiteral_eq]

/-- What a dollar sign begins. -/
theorem readOn_dollar {l : Lexeme} (h : Sql.dollar cs = (l, rest))
    (hknown : known U l rest = true) :
    readOn U ('$' :: cs) out = readOn U rest (out.push l.text) := by
  obtain ⟨run, r, rfl, hrun, hr⟩ := Sql.span_cases isTagChar cs
  by_cases hopen : r.head? = some '$' ∧ run.head?.all startsIdentifier
  · obtain ⟨body, rfl⟩ := List.head?_eq_some_iff.1 hopen.1
    obtain ⟨text, rest₀, hbody⟩ : ∃ text rest₀,
        Sql.dollarQuoted ('$' :: (run ++ ['$'])) body = (text, rest₀) := ⟨_, _, rfl⟩
    rw [Sql.dollar_open hrun hopen.2 hbody] at h
    obtain ⟨rfl, rfl⟩ := Prod.mk.inj h
    have hword : ∀ c ∈ run, U.isWord c = true := by
      have hspan := Sql.span_stable (r := '$' :: text) hrun
        (fun c hc => hr c hc)
      have htail : ('$' :: (run ++ ['$']) ++ text).tail = run ++ '$' :: text := by simp
      simpa only [known, htail, hspan.1, List.all_eq_true] using hknown
    have hspan := Sql.span_stable (p := U.isWord) (r := '$' :: body) hword
      (fun c hc => by rw [← Option.some_inj.1 hc]; exact isWord_dollar)
    have hpass : pass U '$' (run ++ '$' :: body) out =
        (rest₀, out.push ('$' :: (run ++ ['$']) ++ text)) := by
      simp only [pass, show '$' ≠ '-' by decide, show '$' ≠ '/' by decide,
        show '$' ≠ quote by decide, show '$' ≠ dquote by decide, false_and, if_false, if_true,
        List.span_eq_takeWhile_dropWhile, hspan.1, hspan.2, dollarBody_eq, hbody]
    rw [readOn_cons, hpass]
  · rw [Sql.dollar_closed hrun hr hopen] at h
    obtain ⟨rfl, rfl⟩ := Prod.mk.inj h
    refine readOn_identifier (t := '$' :: run) ?_ ?_
    · intro c hc
      rcases List.mem_cons.1 hc with rfl | hc
      · decide
      · simp [isIdentifierChar, hrun c hc]
    · refine not_opensTag ?_
      by_cases hdigits : run ≠ [] ∧ run.all Char.isDigit = true
      · simpa only [known, if_pos hdigits] using hknown
      · simpa only [known, if_neg hdigits] using hknown

/-- **Lexeme by lexeme.**  A lexeme that the rewriter knows is copied. -/
theorem readOn_lexeme {b : Bool} {l : Lexeme} (h : lexeme b c cs = (l, rest))
    (hnone : placeholder U (c :: cs) = none) (hknown : known U l rest = true) :
    readOn U (c :: cs) out = readOn U rest (out.push l.text) := by
  cases Sql.lexeme_eq_iff.1 h with
  | lineComment hcs =>
    refine readOn_lineComment hcs ?_
    simpa [known] using hknown
  | @blockComment body text rest hbody =>
    -- the rewriter does not see comments inside of the comment, so there must be none
    have hpass : pass U '/' ('*' :: body) out =
        ((blockComment body).2, (out.push ['/', '*']).push (blockComment body).1) := by
      simp [pass]
    rw [readOn_cons, hpass]
    refine (readOn_blockComment hbody (by simpa [known] using hknown)).trans ?_
    simp
  | @continued cs text rest hb hbody =>
    have happend := Sql.escaped_append cs
    rw [hbody] at happend
    dsimp only at happend
    have hquoted : Sql.quoted quote cs = (text, rest) := by
      simpa [known, happend] using hknown
    rw [readOn_string, hquoted]
  | string hb hbody => rw [readOn_string, hbody]
  | @escape c body text rest hc hbody =>
    -- the letter is copied, the quote begins a literal
    have happend := Sql.escaped_append body
    rw [hbody] at happend
    dsimp only at happend
    have hc' : c ≠ quote := by
      rintro rfl
      exact absurd hc (by decide)
    have hquoted : Sql.quoted quote body = (text, rest) := by
      simpa [known, hc', happend] using hknown
    have hpass : pass U c (quote :: body) out = (quote :: body, out.push [c]) := by
      rcases hc with rfl | rfl <;> refine pass_other ?_ ?_ ?_ ?_ ?_ ?_ <;> decide
    rw [readOn_cons, hpass, readOn_string, hquoted, push_push]
    rfl
  | quotedIdentifier hbody =>
    -- one part after another where quotes are doubled
    have hpass : pass U dquote cs out =
        ((quotedIdentifier cs).2, (out.push [dquote]).push (quotedIdentifier cs).1) := by
      simp [pass, show dquote ≠ '-' by decide, show dquote ≠ '/' by decide,
        show dquote ≠ quote by decide]
    rw [readOn_cons, hpass]
    refine (readOn_quotedIdentifier hbody).trans ?_
    simp
  | dollar hbody => exact readOn_dollar hbody hknown
  | identifier hident hescape =>
    -- the rewriter copies an identifier character by character
    have hread := @readOn_identifier U (cs.dropWhile isIdentifierChar)
      (c :: cs.takeWhile isIdentifierChar) out ?_ (not_opensTag hknown)
    · rwa [List.cons_append, List.takeWhile_append_dropWhile] at hread
    · intro d hd
      rcases List.mem_cons.1 hd with rfl | hd
      · simp [isIdentifierChar, isTagChar, hident]
      · exact List.mem_takeWhile_imp hd
  | number hdigit =>
    -- so it does a number, which has no dollar sign in it
    have htag : ∀ d ∈ c :: cs.takeWhile isTagChar, isTagChar d = true := by
      intro d hd
      rcases List.mem_cons.1 hd with rfl | hd
      · simp [isTagChar, hdigit]
      · exact List.mem_takeWhile_imp hd
    have hread := @readOn_identifier U (cs.dropWhile isTagChar) (c :: cs.takeWhile isTagChar) out
      ?_ ?_
    · rwa [List.cons_append, List.takeWhile_append_dropWhile] at hread
    · intro d hd
      rw [isIdentifierChar, htag d hd, Bool.true_or]
    · intro ds hds hhead
      obtain ⟨es, rfl⟩ := List.head?_eq_some_iff.1 hhead
      have hmem := ((List.mem_tails _ _).1 hds).subset List.mem_cons_self
      exact absurd (htag '$' hmem) (by decide)
  | cast =>
    have hpass : pass U ':' (':' :: rest) out = (rest, out.push [':', ':']) := by
      simp [pass, show ':' ≠ quote by decide, show ':' ≠ dquote by decide]
    rw [readOn_cons, hpass]
  | other hline hblock hquote hdquote hdollar hident hdigit hcast =>
    have hname : ¬(c = ':' ∧ cs.head?.any U.startsName) := by
      intro hname
      simp [placeholder, hname] at hnone
    rw [readOn_cons, pass, if_neg hline, if_neg hblock, if_neg hquote, if_neg hdquote,
      if_neg hdollar, if_neg hcast, if_neg hname]

end

/-! ### All of a text -/

section

variable {U : Unicode}

/-- What the rewriter does with a lexeme. -/
def emit (out : Output) (l : Lexeme) : Output :=
  if l.kind = .placeholder then out.placeholder (nameOf l) else out.push l.text

theorem placeholder_eq_some {c : Char} {cs rest : List Char} {l : Lexeme}
    (h : placeholder U (c :: cs) = some (l, rest)) : (c = ':' ∧ cs.head?.any U.startsName) ∧
      l = ⟨.placeholder, c :: cs.takeWhile U.isWord⟩ ∧ rest = cs.dropWhile U.isWord := by
  rw [placeholder] at h
  split_ifs at h with hname
  obtain ⟨rfl, rfl⟩ := Prod.mk.inj (Option.some_inj.1 h)
  exact ⟨hname, rfl, rfl⟩

theorem reads_placeholder (U : Unicode) : Sql.Reads (placeholder U) := by
  intro cs l rest h
  cases cs with
  | nil => cases h
  | cons c cs =>
    obtain ⟨-, rfl, rfl⟩ := placeholder_eq_some h
    exact ⟨List.cons_ne_nil _ _, by simp⟩

/-- The first lexeme is a placeholder, or the language's. -/
theorem first_cases (U : Unicode) (s : State) (c : Char) (cs : List Char) :
    ((c = ':' ∧ cs.head?.any U.startsName) ∧ Sql.first (placeholder U) s c cs =
        (⟨.placeholder, c :: cs.takeWhile U.isWord⟩, cs.dropWhile U.isWord)) ∨
      placeholder U (c :: cs) = none ∧
        Sql.first (placeholder U) s c cs = lexeme s.continues c cs := by
  cases h : placeholder U (c :: cs) with
  | none => exact .inr ⟨rfl, by rw [Sql.first, h, Option.getD_none]⟩
  | some read =>
    obtain ⟨l, rest⟩ := read
    obtain ⟨hname, rfl, rfl⟩ := placeholder_eq_some h
    exact .inl ⟨hname, by rw [Sql.first, h, Option.getD_some]⟩

theorem pass_placeholder {c : Char} {cs : List Char} {out : Output}
    (h : c = ':' ∧ cs.head?.any U.startsName) : pass U c cs out =
      (cs.dropWhile U.isWord, out.placeholder (String.ofList (cs.takeWhile U.isWord))) := by
  obtain ⟨rfl, hname⟩ := h
  have hcolon : cs.head? ≠ some ':' := by
    intro hcolon
    rw [hcolon, Option.any_some, startsName_colon] at hname
    cases hname
  simp [pass, hcolon, hname, show ':' ≠ quote by decide, show ':' ≠ dquote by decide,
    List.span_eq_takeWhile_dropWhile]

theorem mentions_append {t cs : List Char} (h : mentions U (t ++ cs) = false) :
    mentions U cs = false := by
  induction t with
  | nil => exact h
  | cons c t ih => exact ih (Bool.or_eq_false_iff.1 h).2

theorem readOn_of_not_mentions {cs : List Char} (h : mentions U cs = false) (out : Output) :
    readOn U cs out = out.push cs := by
  induction hlen : cs.length using Nat.strongRecOn generalizing cs out with
  | _ n ih =>
    cases cs with
    | nil => simp
    | cons c cs =>
      subst hlen
      have hle := length_pass_le U c cs out
      rw [readOn_cons]
      rcases pass_cases U c cs out with ⟨text, rest, -, happend, heq⟩ | ⟨⟨rfl, hname⟩, -⟩
      · rw [heq] at hle ⊢
        rw [← happend] at h
        rw [ih _ (Nat.lt_succ_of_le hle) (mentions_append h) _ rfl, push_push, happend]
      · simp [mentions, hname] at h

theorem not_placeholder_of_not_mentions (s : State) (cs : List Char) (h : mentions U cs = false) :
    ∀ l ∈ scan (placeholder U) s cs, l.kind ≠ .placeholder := by
  induction s, cs using Sql.scan_induction (reads_placeholder U) with
  | nil s => simp
  | cons s c cs ih =>
    have happend := (Sql.first_append (reads_placeholder U) s c cs).2
    have hrest : mentions U (Sql.first (placeholder U) s c cs).2 = false := by
      rw [← happend] at h
      exact mentions_append h
    have hfirst : (Sql.first (placeholder U) s c cs).1.kind ≠ .placeholder := by
      rcases first_cases U s c cs with ⟨⟨rfl, hname⟩, -⟩ | ⟨-, heq⟩
      · simp [mentions, hname] at h
      · rw [heq]
        exact Sql.lexeme_kind _ _ _
    rw [Sql.scan_cons (reads_placeholder U)]
    exact List.forall_mem_cons.2 ⟨hfirst, ih hrest⟩

theorem foldl_emit_of_not_placeholder {ls : List Lexeme} (h : ∀ l ∈ ls, l.kind ≠ .placeholder)
    (out : Output) : ls.foldl emit out = out.push (textOf ls) := by
  induction ls generalizing out with
  | nil => simp [textOf]
  | cons l ls ih =>
    have hl := h l List.mem_cons_self
    rw [List.foldl_cons, emit, if_neg hl, ih fun l hl => h l (List.mem_cons_of_mem _ hl), push_push]
    rfl

/-- **The whole text.**  Where the rewriter knows the lexemes, it goes through them one by one. -/
theorem readOn_pieces (s : State) (cs : List Char) (out : Output)
    (h : AllKnown U (scan (placeholder U) s cs)) :
    readOn U cs out = (scan (placeholder U) s cs).foldl emit out := by
  induction s, cs using Sql.scan_induction (reads_placeholder U) generalizing out with
  | nil s => rfl
  | cons s c cs ih =>
    by_cases hm : mentions U (c :: cs) = true
    · have happend := (Sql.first_append (reads_placeholder U) s c cs).2
      rw [Sql.scan_cons (reads_placeholder U)] at h ⊢
      obtain ⟨hknown, hrest⟩ := h
      rw [Sql.textOf_cons, Sql.textOf_scan (reads_placeholder U), happend] at hknown
      rw [List.foldl_cons, ← ih _ hrest]
      rcases first_cases U s c cs with ⟨hname, heq⟩ | ⟨hnone, heq⟩
      · rw [heq, readOn_cons, pass_placeholder hname]
        rfl
      · rw [heq] at hknown ⊢
        rw [emit, if_neg (Sql.lexeme_kind _ _ _)]
        exact readOn_lexeme rfl hnone (hknown hm)
    · rw [Bool.not_eq_true] at hm
      rw [readOn_of_not_mentions hm, foldl_emit_of_not_placeholder
        (not_placeholder_of_not_mentions s (c :: cs) hm), Sql.textOf_scan (reads_placeholder U)]

end

/-! ### Names and numbers -/

section

/-- The positions are those of the names. -/
def Consistent (out : Output) : Prop := ∀ n,
  out.positions.lookup n = if n ∈ out.names then some (out.names.idxOf n + 1) else none

theorem consistent_empty : Consistent {} := fun n => by simp

theorem placeholder_of_mem {out : Output} (h : Consistent out) {n : String} (hn : n ∈ out.names) :
    out.placeholder n = out.push ('$' :: (toString (out.names.idxOf n + 1)).toList) := by
  rw [Output.placeholder, h n, if_pos hn]

theorem placeholder_of_not_mem {out : Output} (h : Consistent out) {n : String}
    (hn : n ∉ out.names) : out.placeholder n =
      ⟨out.result ++ '$' :: (toString (out.names.length + 1)).toList, out.names ++ [n],
        (n, out.names.length + 1) :: out.positions⟩ := by
  rw [Output.placeholder, h n, if_neg hn]
  rfl

theorem emit_names {out : Output} (h : Consistent out) (l : Lexeme) : (emit out l).names =
    if l.kind = .placeholder ∧ nameOf l ∉ out.names then out.names ++ [nameOf l]
    else out.names := by
  unfold emit
  by_cases hkind : l.kind = .placeholder
  · by_cases hn : nameOf l ∈ out.names
    · simp [hkind, hn, placeholder_of_mem h hn, Output.push]
    · simp [hkind, hn, placeholder_of_not_mem h hn]
  · simp [hkind, Output.push]

theorem Consistent.emit {out : Output} (h : Consistent out) (l : Lexeme) :
    Consistent (emit out l) := by
  unfold NamedParams.emit
  split_ifs with hkind
  · by_cases hn : nameOf l ∈ out.names
    · rw [placeholder_of_mem h hn]
      exact h
    · rw [placeholder_of_not_mem h hn]
      intro m
      by_cases hm : m = nameOf l
      · subst hm
        simp [List.idxOf_append_of_notMem hn]
      · have hm' : (m == nameOf l) = false := beq_false_of_ne hm
        simp only [List.lookup_cons, hm', h m, List.mem_append, List.mem_singleton, hm, or_false]
        split_ifs with hmem
        · rw [List.idxOf_append_of_mem hmem]
        · rfl
  · exact h

theorem emit_result {out : Output} (h : Consistent out) (l : Lexeme) :
    (emit out l).result = out.result ++ (numbered (emit out l).names l).text := by
  rw [emit_names h]
  unfold emit numbered
  by_cases hkind : l.kind = .placeholder
  · by_cases hn : nameOf l ∈ out.names
    · simp [hkind, hn, placeholder_of_mem h hn, Output.push]
    · simp [hkind, hn, placeholder_of_not_mem h hn, List.idxOf_append_of_notMem hn]
  · simp [hkind, Output.push]

theorem mem_emit_names {out : Output} (h : Consistent out) {l : Lexeme}
    (hl : l.kind = .placeholder) : nameOf l ∈ (emit out l).names := by
  rw [emit_names h]
  split_ifs with hn
  · simp
  · by_contra hmem
    exact hn ⟨hl, hmem⟩

theorem prefix_emit_names {out : Output} (h : Consistent out) (l : Lexeme) :
    out.names <+: (emit out l).names := by
  rw [emit_names h]
  split_ifs
  · exact List.prefix_append _ _
  · exact List.prefix_rfl

theorem numbered_of_prefix {names names' : List String} (h : names <+: names') {l : Lexeme}
    (hl : l.kind = .placeholder → nameOf l ∈ names) : numbered names' l = numbered names l := by
  obtain ⟨rest, rfl⟩ := h
  unfold numbered
  split_ifs with hkind
  · rw [List.idxOf_append_of_mem (hl hkind)]
  · rfl

theorem foldl_emit_spec {out : Output} (h : Consistent out) (ls : List Lexeme) :
    out.names <+: (ls.foldl emit out).names ∧
    (ls.foldl emit out).result =
      out.result ++ textOf (ls.map (numbered (ls.foldl emit out).names)) := by
  induction ls generalizing out with
  | nil => simp [textOf]
  | cons l ls ih =>
    obtain ⟨hpre, hresult⟩ := ih (h.emit l)
    rw [List.foldl_cons]
    refine ⟨(prefix_emit_names h l).trans hpre, ?_⟩
    rw [hresult, emit_result h, List.map_cons, numbered_of_prefix hpre (mem_emit_names h),
      Sql.textOf_cons, List.append_assoc]

theorem foldl_emit_names {out : Output} (h : Consistent out) {names : List String}
    (hnames : out.names = names.eraseDups) (ls : List Lexeme) :
    (ls.foldl emit out).names = (names ++ placeholders ls).eraseDups := by
  induction ls generalizing out names with
  | nil => simpa [placeholders] using hnames
  | cons l ls ih =>
    have hemit := emit_names h l
    rw [hnames] at hemit
    by_cases hkind : l.kind = .placeholder
    · have hstep : (emit out l).names = (names ++ [nameOf l]).eraseDups := by
        rw [hemit, List.eraseDups_append]
        by_cases hn : nameOf l ∈ names <;> simp [hkind, hn, List.removeAll, List.eraseDups_cons]
      rw [List.foldl_cons, ih (h.emit l) hstep]
      simp [placeholders, hkind]
    · have hstep : (emit out l).names = names.eraseDups := by
        rw [hemit, if_neg fun hand => hkind hand.1]
      rw [List.foldl_cons, ih (h.emit l) hstep]
      simp [placeholders, hkind]

/-- The names are those of the placeholders, each one once. -/
theorem foldl_emit_names_empty (ls : List Lexeme) :
    (ls.foldl emit {}).names = (placeholders ls).eraseDups := by
  rw [foldl_emit_names consistent_empty (show _ = [].eraseDups from rfl), List.nil_append]

end

/-! ### How the rewritten text is read -/

section

variable {U : Unicode}

/-- The rewritten rest of a text begins as the text does, but with a dollar sign for the colon of a
placeholder. -/
theorem head?_numbered (names : List String) (s : State) (cs : List Char) :
    (textOf ((scan (placeholder U) s cs).map (numbered names))).head? =
      if (scan (placeholder U) s cs).head?.any (·.kind = .placeholder) then some '$'
      else cs.head? := by
  cases cs with
  | nil => rfl
  | cons c cs =>
    rw [Sql.scan_cons (reads_placeholder U), List.head?_cons, Option.any_some]
    rcases first_cases U s c cs with ⟨-, heq⟩ | ⟨-, heq⟩
    · simp [heq, numbered]
    · have hkind := Sql.lexeme_kind s.continues c cs
      obtain ⟨t, ht⟩ := Sql.lexeme_text s.continues c cs
      simp [heq, numbered, hkind, ht]

theorem head?_of_placeholder {s : State} {cs : List Char}
    (h : (scan (placeholder U) s cs).head?.any (·.kind = .placeholder)) : cs.head? = some ':' := by
  cases cs with
  | nil => cases h
  | cons c cs =>
    rw [Sql.scan_cons (reads_placeholder U), List.head?_cons, Option.any_some] at h
    rcases first_cases U s c cs with ⟨⟨rfl, -⟩, -⟩ | ⟨-, heq⟩
    · rfl
    · rw [heq] at h
      exact absurd (of_decide_eq_true h) (Sql.lexeme_kind _ _ _)

theorem sameHead_numbered (names : List String) (s : State) (cs : List Char) :
    Sql.SameHead cs (textOf ((scan (placeholder U) s cs).map (numbered names))) := by
  rw [Sql.SameHead, head?_numbered]
  split_ifs with h
  · exact .inr ⟨head?_of_placeholder h, rfl⟩
  · exact .inl rfl

theorem isDigit_toString (n : ℕ) : ∀ c ∈ (toString n).toList, c.isDigit = true := by
  intro c hc
  rw [Nat.toString_eq_ofList_toDigits, String.toList_ofList] at hc
  exact Nat.isDigit_of_mem_toDigits (by decide) (by decide) hc

theorem toString_ne_nil (n : ℕ) : (toString n).toList ≠ [] := by
  rw [Nat.toString_eq_ofList_toDigits, String.toList_ofList]
  exact Nat.toDigits_ne_nil

/-- A digit continues a name. -/
theorem isWord_of_isDigit {c : Char} (h : c.isDigit = true) : U.isWord c = true := by
  have hle : c.val.toNat ≤ 57 := by
    simpa [UInt32.le_iff_toNat_le] using (Bool.and_eq_true_iff.1 h).2
  have hascii : c.toNat < 128 := Nat.lt_of_le_of_lt hle (by decide)
  simp [isWord_ascii hascii, h]

/-- A character behind a name belongs to a tag if it begins an identifier. -/
theorem head?_dropWhile_isWord (cs : List Char) :
    (cs.dropWhile U.isWord).head?.any isTagChar =
      (cs.dropWhile U.isWord).head?.any startsIdentifier := by
  cases hhead : (cs.dropWhile U.isWord).head? with
  | none => rfl
  | some c =>
    have hdigit : c.isDigit = false := by
      have hword := Sql.head?_dropWhile hhead
      rw [← Bool.not_eq_true]
      intro hdigit
      rw [isWord_of_isDigit hdigit] at hword
      cases hword
    simp [isTagChar, hdigit]

/-- **How the rewritten text is read.**  Parameters are read in the place of the placeholders if and
only if these stand free. -/
theorem lex_numbered_iff (names : List String) (s : State) (cs : List Char) :
    scan (fun _ => none) s (textOf ((scan (placeholder U) s cs).map (numbered names))) =
      (scan (placeholder U) s cs).map (numbered names) ↔ Free (scan (placeholder U) s cs) := by
  induction s, cs using Sql.scan_induction (reads_placeholder U) with
  | nil s => simp [Free]
  | cons s c cs ih =>
    rw [Sql.scan_cons (reads_placeholder U), List.map_cons, Sql.textOf_cons]
    rcases first_cases U s c cs with ⟨-, heq⟩ | ⟨-, heq⟩
    · -- a parameter in the place of a placeholder
      rw [heq] at ih ⊢
      have hnumbered : numbered names ⟨.placeholder, c :: cs.takeWhile U.isWord⟩ =
          ⟨.parameter, '$' :: (toString (names.idxOf (nameOf ⟨.placeholder,
            c :: cs.takeWhile U.isWord⟩) + 1)).toList⟩ := if_pos rfl
      have hnext : s.next ⟨.placeholder, c :: cs.takeWhile U.isWord⟩ = .other := by
        cases s <;> rfl
      have hhead : (textOf ((scan (placeholder U) .other (cs.dropWhile U.isWord)).map
          (numbered names))).head?.any isTagChar =
            (cs.dropWhile U.isWord).head?.any startsIdentifier := by
        rw [head?_numbered, ← head?_dropWhile_isWord]
        split_ifs with hp
        · rw [head?_of_placeholder hp]
          rfl
        · rfl
      rw [hnext] at ih ⊢
      rw [hnumbered, Sql.scan_parameter_iff (isDigit_toString _) (toString_ne_nil _), ih, hhead]
      simp [Free, Lexeme.takesDollar, Sql.textOf_scan (reads_placeholder U)]
    · rw [heq] at ih ⊢
      have hkind := Sql.lexeme_kind s.continues c cs
      have hnumbered : numbered names (lexeme s.continues c cs).1 = (lexeme s.continues c cs).1 :=
        if_neg hkind
      rw [hnumbered, Sql.scan_lexeme_iff (sameHead_numbered names _ _), ih, head?_numbered]
      have hcolon := @head?_of_placeholder U (s.next (lexeme s.continues c cs).1)
        (lexeme s.continues c cs).2
      generalize scan (placeholder U) _ (lexeme s.continues c cs).2 = ls at hcolon ⊢
      have hiff : (if ls.head?.any (·.kind = .placeholder) then some '$'
          else (lexeme s.continues c cs).2.head?) = (lexeme s.continues c cs).2.head? ↔
            ls.head?.all (·.kind ≠ .placeholder) := by
        cases ls with
        | nil => simp
        | cons p ls =>
          by_cases hp : p.kind = .placeholder
          · rw [hcolon (by simpa using hp)]
            simp [hp]
          · simp [hp]
      rw [hiff]
      simp [Free, hkind]

/-- **When the rewriter agrees with the language.**  Where it knows the lexemes, it does exactly if
the placeholders stand free. -/
theorem rewrite_agrees_iff (U : Unicode) (sql : String) (h : AllKnown U (pieces U sql)) :
    Agrees U sql ↔ Free (pieces U sql) := by
  have hread : readOn U sql.toList {} = (pieces U sql).foldl emit {} := readOn_pieces _ _ _ h
  have hnames : (rewrite U sql).2 = ((pieces U sql).foldl emit {}).names := by
    rw [← hread]
    rfl
  have hresult : (rewrite U sql).1.toList =
      textOf ((pieces U sql).map (numbered (rewrite U sql).2)) := by
    have hspec := (foldl_emit_spec consistent_empty (pieces U sql)).2
    rw [← hnames, ← hread] at hspec
    exact String.toList_ofList.trans hspec
  have hlex := lex_numbered_iff (U := U) (rewrite U sql).2 .other sql.toList
  constructor
  · intro hagrees
    rw [pieces, ← hlex, ← pieces, ← hresult]
    exact hagrees.read
  · intro hfree
    refine ⟨?_, hresult, ?_⟩
    · rw [hnames, foldl_emit_names_empty]
    · rw [hresult]
      exact hlex.2 hfree

theorem agrees_select : Agrees .ascii "SELECT :a /* :b */" :=
  (rewrite_agrees_iff .ascii _ (by decide)).2 (by decide)

/-- An escaped quote, a comment in a comment, a dollar sign in an identifier, a tag that begins with
a digit, and a placeholder behind an identifier. -/
theorem not_agrees : ¬Agrees .ascii "E'it\\'s :a'" ∧ ¬Agrees .ascii "/* /* */ :a */" ∧
    ¬Agrees .ascii "a$b$ :c" ∧ ¬Agrees .ascii "$1$ :a" ∧ ¬Agrees .ascii "x[a:b]" := by
  refine ⟨fun h => absurd h.names (by decide), fun h => absurd h.names (by decide),
    fun h => absurd h.names (by decide), fun h => absurd h.names (by decide),
    fun h => absurd h.read (by decide)⟩

end

end Resolute.NamedParams
