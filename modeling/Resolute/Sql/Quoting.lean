import Resolute.Sql.Lexer

/-!
# Quoted text

A program that puts a text of its own between quotes doubles the quotes in it (`double`).  The lexer
then reads one literal, or one identifier, whose `content` is that text (`lex_literal`,
`lex_delimited`), and goes on where the program does: a text up to a space is read without what
comes behind it (`lex_append`).  Any text may be quoted; a semicolon, a comment or a dollar sign in
it means nothing.  Nothing here is specific to this repository.
-/

namespace Resolute.Sql

/-- Each quote is written twice. -/
def double (q : Char) (t : List Char) : List Char :=
  t.flatMap fun c => if c = q then [q, q] else [c]

/-- A string literal. -/
def literal (t : List Char) : Lexeme := ⟨.string, quote :: double quote t ++ [quote]⟩

/-- A delimited identifier. -/
def delimited (t : List Char) : Lexeme := ⟨.quotedIdentifier, dquote :: double dquote t ++ [dquote]⟩

/-- A word in plain letters. -/
def word (w : String) : Lexeme := ⟨.identifier, w.toList⟩

def space : Lexeme := ⟨.space, [' ']⟩

/-- A text in which each pair of quotes stands for one. -/
def halve (q : Char) : List Char → List Char
  | c :: d :: cs => if c = q ∧ d = q then q :: halve q cs else c :: halve q (d :: cs)
  | cs => cs

/-- What stands between the quotes of a literal or of a delimited identifier. -/
def Lexeme.content (l : Lexeme) : List Char :=
  halve (l.text.headD quote) l.text.tail.dropLast

section

variable {q c : Char} {t rest : List Char}

@[simp] theorem double_nil : double q [] = [] := rfl

theorem double_cons_self : double q (q :: t) = q :: q :: double q t := by
  simp [double]

theorem double_cons_of_ne (h : c ≠ q) : double q (c :: t) = c :: double q t := by
  simp [double, h]

theorem halve_cons_of_ne (h : c ≠ q) : halve q (c :: t) = c :: halve q t := by
  cases t with
  | nil => rfl
  | cons d t => rw [halve, if_neg fun hq => h hq.1]

theorem halve_double (q : Char) (t : List Char) : halve q (double q t) = t := by
  induction t with
  | nil => rfl
  | cons c t ih =>
    by_cases hc : c = q
    · subst hc
      rw [double_cons_self, halve, if_pos ⟨rfl, rfl⟩, ih]
    · rw [double_cons_of_ne hc, halve_cons_of_ne hc, ih]

/-- The closing quote is the one behind the text, if no other follows it. -/
theorem quoted_double (h : rest.head? ≠ some q) (t : List Char) :
    quoted q (double q t ++ q :: rest) = (double q t ++ [q], rest) := by
  induction t with
  | nil =>
    cases rest with
    | nil => rfl
    | cons d rest =>
      have hd : d ≠ q := fun heq => h (congrArg some heq)
      rw [double_nil, List.nil_append, quoted, if_pos rfl, if_neg hd]
      rfl
  | cons c t ih =>
    by_cases hc : c = q
    · subst hc
      rw [double_cons_self, List.cons_append, List.cons_append, quoted, if_pos rfl, if_pos rfl, ih]
      rfl
    · obtain ⟨d, ds, hds⟩ : ∃ d ds, double q t ++ q :: rest = d :: ds :=
        List.exists_cons_of_ne_nil (List.append_ne_nil_of_right_ne_nil _ (List.cons_ne_nil _ _))
      rw [double_cons_of_ne hc, List.cons_append, hds, quoted, if_neg hc, ← hds, ih]
      rfl

end

/-! ### A text that is put together -/

section

variable {rest : List Char} {s : State}

/-- The state behind a list of lexemes. -/
def State.after (s : State) (ls : List Lexeme) : State := ls.foldl State.next s

theorem scan_eq_nil {cs : List Char} (h : scan (fun _ => none) s cs = []) : cs = [] := by
  rw [← textOf_scan reads_none s cs, h]
  rfl

/-- A lexeme that is not the last one does not depend on what comes behind the text. -/
theorem lexeme_append_rest {b : Bool} {c : Char} {cs : List Char}
    (h : (lexeme b c cs).2 ≠ []) (rest : List Char) :
    lexeme b c (cs ++ rest) = ((lexeme b c cs).1, (lexeme b c cs).2 ++ rest) := by
  obtain ⟨d, ds, hds⟩ := List.exists_cons_of_ne_nil h
  obtain ⟨t, ht⟩ := lexeme_text b c cs
  have happend := lexeme_append b c cs
  rw [ht, List.cons_append] at happend
  have hhead : ((lexeme b c cs).2 ++ rest).head? = (lexeme b c cs).2.head? := by
    rw [hds]
    rfl
  have hstable := (begins_lexeme b c cs).stable (.inl hhead) fun _ => hhead
  rw [ht, List.tail_cons, ← List.append_assoc, (List.cons.inj happend).2] at hstable
  exact lexeme_of_begins hstable

/-- A text up to a space is read without what comes behind it. -/
theorem scan_append {ls : List Lexeme} {cs : List Char}
    (h : scan (fun _ => none) s cs = ls ++ [space]) (rest : List Char) :
    scan (fun _ => none) s (cs ++ rest) =
      ls ++ space :: scan (fun _ => none) (s.after (ls ++ [space])) rest := by
  induction s, cs using scan_induction reads_none generalizing ls with
  | nil s => exact absurd h.symm (List.append_ne_nil_of_right_ne_nil _ (List.cons_ne_nil _ _))
  | cons s c cs ih =>
    rw [scan_cons reads_none] at h
    cases ls with
    | nil =>
      obtain ⟨hfirst, hnil⟩ := List.cons.inj h
      have happend := (first_append reads_none s c cs).2
      rw [hfirst, scan_eq_nil hnil] at happend
      obtain ⟨rfl, rfl⟩ := List.cons.inj happend
      rw [List.cons_append, scan_cons reads_none]
      rfl
    | cons l ls =>
      obtain ⟨hfirst, htail⟩ := List.cons.inj h
      have hne : (first (fun _ => none) s c cs).2 ≠ [] := by
        intro hnil
        rw [hnil, scan_nil] at htail
        exact absurd htail.symm (List.append_ne_nil_of_right_ne_nil _ (List.cons_ne_nil _ _))
      have hread : first (fun _ => none) s c (cs ++ rest) =
          ((first (fun _ => none) s c cs).1, (first (fun _ => none) s c cs).2 ++ rest) :=
        lexeme_append_rest hne rest
      rw [List.cons_append, scan_cons reads_none, hread, ih htail, hfirst]
      rfl

/-- **A literal is read as one lexeme**, whatever it quotes. -/
theorem lex_literal (h : rest.head? ≠ some quote) (t : List Char) :
    lex ((literal t).text ++ rest) = literal t :: lex rest := by
  have hread : lexeme false quote (double quote t ++ quote :: rest) = (literal t, rest) :=
    lexeme_of_begins (.string rfl (quoted_double h t))
  have htext : (literal t).text ++ rest = quote :: (double quote t ++ quote :: rest) := by
    simp [literal]
  have hfirst : first (fun _ => none) .other quote (double quote t ++ quote :: rest) =
      (literal t, rest) := hread
  rw [lex, htext, scan_cons reads_none, hfirst]
  rfl

/-- **A delimited identifier is read as one lexeme**, whatever it quotes. -/
theorem lex_delimited (h : rest.head? ≠ some dquote) (t : List Char) :
    lex ((delimited t).text ++ rest) = delimited t :: lex rest := by
  have hread : lexeme false dquote (double dquote t ++ dquote :: rest) = (delimited t, rest) :=
    lexeme_of_begins (.quotedIdentifier (quoted_double h t))
  have htext : (delimited t).text ++ rest = dquote :: (double dquote t ++ dquote :: rest) := by
    simp [delimited]
  have hfirst : first (fun _ => none) .other dquote (double dquote t ++ dquote :: rest) =
      (delimited t, rest) := hread
  rw [lex, htext, scan_cons reads_none, hfirst]
  rfl

/-- A text that ends in a space is read first. -/
theorem lex_append {ls : List Lexeme} {cs : List Char} (h : lex cs = ls ++ [space])
    (hafter : State.other.after (ls ++ [space]) = .other) (rest : List Char) :
    lex (cs ++ rest) = ls ++ space :: lex rest := by
  rw [lex, scan_append h, hafter]
  rfl

theorem content_literal (t : List Char) : (literal t).content = t := by
  simp [literal, Lexeme.content, halve_double]

theorem content_delimited (t : List Char) : (delimited t).content = t := by
  simp [delimited, Lexeme.content, halve_double]

end

end Resolute.Sql
