import Resolute.Sql.Agreement

/-!
# The check for named parameters

`has_named_params` looks for a placeholder without reading the text as the rewriter does: it knows
string literals and casts, but neither comments nor quoted identifiers nor dollar quotes.  It sees
too much, a colon in a comment, and in one case too little: an apostrophe in a comment begins a
literal for it, and a placeholder that follows is inside of this literal.

Whether the check is inside of a literal depends on the number of apostrophes in front only, so
the placeholders that it can miss are those with an odd number of them (`seek_of_even`); they are
all found if the text is `Unhidden`.  The rewriter works segment by segment (`readOn_segments`), and
where the check finds nothing, the text is left alone if and only if no placeholder is hidden
(`skippable_iff`).  So it is where apostrophes are those of literals (`rewrite_of_apostrophes`).
-/

namespace Resolute.NamedParams

open Sql (Lexeme State scan textOf quote dquote newline)

/-! ### The check -/

/-- The rest of a string literal is skipped. -/
def skipLiteral : List Char → List Char
  | c :: d :: cs =>
    if c = quote then if d = quote then skipLiteral cs else d :: cs else skipLiteral (d :: cs)
  | _ => []

/-- The loop of the check; a step takes at least one character, so `fuel` may be their number. -/
def seek (U : Unicode) : (fuel : ℕ) → List Char → Bool
  | fuel + 1, c :: cs =>
    if c = quote then seek U fuel (skipLiteral cs)
    else if c = ':' ∧ cs.head? = some ':' then seek U fuel cs.tail
    else if c = ':' ∧ cs.head?.any U.startsName then true
    else seek U fuel cs
  | _, _ => false

/-- Check if SQL contains any `:name` named parameters. -/
def hasNamedParams (U : Unicode) (sql : String) : Bool := seek U sql.toList.length sql.toList

/-! ### What the rewriter tells apart -/

/-- The first segment of a text, and what is left.  Comments are not nested, an identifier ends with
the next quote, and the tag of a dollar quote may begin with a digit. -/
def segment (U : Unicode) (c : Char) (cs : List Char) : Lexeme × List Char :=
  if c = '-' ∧ cs.head? = some '-' then
    (⟨.lineComment, (c :: cs).takeWhile (· ≠ newline)⟩, (c :: cs).dropWhile (· ≠ newline))
  else if c = '/' ∧ cs.head? = some '*' then
    let (text, rest) := blockComment cs.tail
    (⟨.blockComment, '/' :: '*' :: text⟩, rest)
  else if c = quote then
    let (text, rest) := stringLiteral cs
    (⟨.string, quote :: text⟩, rest)
  else if c = dquote then
    let (text, rest) := quotedIdentifier cs
    (⟨.quotedIdentifier, dquote :: text⟩, rest)
  else if c = '$' then
    match cs.dropWhile U.isWord with
    | '$' :: rest =>
      let tag := '$' :: (cs.takeWhile U.isWord ++ ['$'])
      let (text, rest) := dollarBody tag rest
      (⟨.dollarString, tag ++ text⟩, rest)
    | _ => (⟨.strayDollar, [c]⟩, cs)
  else if c = ':' ∧ cs.head? = some ':' then (⟨.cast, [':', ':']⟩, cs.tail)
  else if c = ':' ∧ cs.head?.any U.startsName then
    (⟨.placeholder, c :: cs.takeWhile U.isWord⟩, cs.dropWhile U.isWord)
  else (⟨.other, [c]⟩, cs)

/-- A text is cut into segments without regard to what came before. -/
def segmentRule (U : Unicode) : List Char → Option (Lexeme × List Char)
  | [] => none
  | c :: cs => some (segment U c cs)

/-- The segments of a text. -/
def segments (U : Unicode) (sql : String) : List Lexeme := scan (segmentRule U) .other sql.toList

/-- No placeholder has an odd number of apostrophes in front. -/
def Unhidden (ls : List Lexeme) : Prop :=
  ∀ front l back, ls = front ++ l :: back → l.kind = .placeholder →
    (textOf front).count quote % 2 = 0

/-! ### Segment by segment -/

section

variable {U : Unicode} {c d : Char} {cs : List Char} {out : Output}

/-- A pass of the rewriter takes a segment. -/
theorem pass_eq_segment (U : Unicode) (c : Char) (cs : List Char) (out : Output) :
    pass U c cs out = ((segment U c cs).2, emit out (segment U c cs).1) := by
  unfold pass segment
  simp only [List.span_eq_takeWhile_dropWhile]
  split_ifs
  · rfl
  · rfl
  · rfl
  · rfl
  · cases hrun : cs.dropWhile U.isWord with
    | nil => rfl
    | cons d rest =>
      by_cases hd : d = '$'
      · subst hd
        rfl
      · simp [hd, emit]
  · rfl
  · rfl
  · rfl

theorem segment_append (U : Unicode) (c : Char) (cs : List Char) :
    (segment U c cs).1.text ≠ [] ∧ (segment U c cs).1.text ++ (segment U c cs).2 = c :: cs := by
  unfold segment
  split_ifs with hline hblock hquote hdquote hdollar hcast hname
  · refine ⟨?_, List.takeWhile_append_dropWhile⟩
    simp [hline.1, show '-' ≠ newline by decide]
  · obtain ⟨rfl, hstar⟩ := hblock
    obtain ⟨ds, rfl⟩ := List.head?_eq_some_iff.1 hstar
    exact ⟨List.cons_ne_nil _ _, by simp [blockComment_append]⟩
  · exact ⟨List.cons_ne_nil _ _, by simp [hquote, stringLiteral_append]⟩
  · exact ⟨List.cons_ne_nil _ _, by simp [hdquote, quotedIdentifier_append]⟩
  · split
    · rename_i rest hrest
      have hcs := List.takeWhile_append_dropWhile (p := U.isWord) (l := cs)
      rw [hrest] at hcs
      refine ⟨by simp, ?_⟩
      rw [List.append_assoc, dollarBody_append]
      simpa [hdollar] using hcs
    · exact ⟨List.cons_ne_nil _ _, rfl⟩
  · obtain ⟨rfl, hcolon⟩ := hcast
    obtain ⟨ds, rfl⟩ := List.head?_eq_some_iff.1 hcolon
    exact ⟨List.cons_ne_nil _ _, rfl⟩
  · exact ⟨List.cons_ne_nil _ _, by simp⟩
  · exact ⟨List.cons_ne_nil _ _, rfl⟩

theorem reads_segmentRule (U : Unicode) : Sql.Reads (segmentRule U) := by
  intro cs l rest h
  cases cs with
  | nil => cases h
  | cons c cs =>
    obtain ⟨rfl, rfl⟩ := Prod.mk.inj (Option.some_inj.1 h)
    exact segment_append U c cs

theorem scan_segment (U : Unicode) (s : State) (c : Char) (cs : List Char) :
    scan (segmentRule U) s (c :: cs) = (segment U c cs).1 ::
      scan (segmentRule U) (s.next (segment U c cs).1) (segment U c cs).2 :=
  Sql.scan_cons (reads_segmentRule U) s c cs

/-- **Segment by segment.**  The rewriter goes through the segments one by one. -/
theorem readOn_segments (s : State) (cs : List Char) (out : Output) :
    readOn U cs out = (scan (segmentRule U) s cs).foldl emit out := by
  induction s, cs using Sql.scan_induction (reads_segmentRule U) generalizing out with
  | nil s => rfl
  | cons s c cs ih =>
    rw [scan_segment, List.foldl_cons, readOn_cons, pass_eq_segment]
    exact ih _

theorem rewrite_eq (U : Unicode) (sql : String) :
    (rewrite U sql).1.toList = ((segments U sql).foldl emit {}).result ∧
      (rewrite U sql).2 = ((segments U sql).foldl emit {}).names := by
  have hread : readOn U sql.toList {} = (segments U sql).foldl emit {} := readOn_segments _ _ _
  rw [← hread]
  exact ⟨String.toList_ofList, rfl⟩

/-- The text is left alone if and only if it has no placeholder. -/
theorem rewrite_eq_self_iff (U : Unicode) (sql : String) :
    rewrite U sql = (sql, []) ↔ ∀ l ∈ segments U sql, l.kind ≠ .placeholder := by
  obtain ⟨hresult, hnames⟩ := rewrite_eq U sql
  constructor
  · intro hself l hl hkind
    rw [hself, foldl_emit_names_empty] at hnames
    have hmem : nameOf l ∈ (placeholders (segments U sql)).eraseDups := by
      rw [List.mem_eraseDups, placeholders, List.mem_map]
      exact ⟨l, List.mem_filter.2 ⟨hl, by simp [hkind]⟩, rfl⟩
    rw [← hnames] at hmem
    cases hmem
  · intro hnone
    rw [foldl_emit_of_not_placeholder hnone] at hresult hnames
    have htext : textOf (segments U sql) = sql.toList :=
      Sql.textOf_scan (reads_segmentRule U) _ _
    refine Prod.ext (String.toList_inj.1 ?_) hnames
    rw [hresult, htext]
    rfl

end

/-! ### What the check finds -/

section

variable {U : Unicode} {c d : Char} {cs pre post : List Char}

theorem isWord_of_startsName (h : U.startsName c = true) : U.isWord c = true := by
  simp only [Unicode.startsName, Unicode.isWord, Unicode.isAlphanumeric, Bool.or_eq_true] at h ⊢
  exact h.imp_left .inl

theorem isWord_colon : U.isWord ':' = false := by
  rw [isWord_ascii (by decide)]
  decide

/-- The colons at the end of a text come in pairs. -/
def paired (pre : List Char) : Bool := pre.foldl (fun b c => if c = ':' then !b else true) true

theorem paired_cons (hc : c ≠ ':') (pre : List Char) : paired (c :: pre) = paired pre := by
  simp [paired, hc]

theorem paired_cast (pre : List Char) : paired (':' :: ':' :: pre) = paired pre := rfl

theorem paired_colon (hc : c ≠ ':') (pre : List Char) :
    paired (':' :: c :: pre) = paired (c :: pre) := by
  simp [paired, hc]

@[simp] theorem paired_append_cast (pre : List Char) :
    paired (pre ++ [':', ':']) = paired pre := by
  simp [paired]

theorem paired_append (hc : c ≠ ':') (t pre : List Char) :
    paired (t ++ c :: pre) = paired pre := by
  simp [paired, hc]

/-- Inside of a literal, the check comes to its end before the next even place. -/
theorem skipLiteral_of_odd (hodd : pre.count quote % 2 = 1) : ∃ t pre', pre = t ++ quote :: pre' ∧
    pre'.count quote % 2 = 0 ∧ skipLiteral (pre ++ ':' :: cs) = pre' ++ ':' :: cs := by
  induction pre using skipLiteral.induct with
  | case1 pre ih =>
    rw [List.count_cons_self, List.count_cons_self] at hodd
    obtain ⟨t, pre', rfl, heven, heq⟩ := ih (by omega)
    refine ⟨quote :: quote :: t, pre', rfl, heven, ?_⟩
    simpa [skipLiteral] using heq
  | case2 d pre hd =>
    refine ⟨[], d :: pre, rfl, ?_, by simp [skipLiteral, hd]⟩
    rw [List.count_cons_self] at hodd
    omega
  | case3 c d pre hc ih =>
    rw [List.count_cons_of_ne hc] at hodd
    obtain ⟨t, pre', heq, heven, hskip⟩ := ih hodd
    refine ⟨c :: t, pre', by rw [heq]; rfl, heven, ?_⟩
    simpa [skipLiteral, hc] using hskip
  | case4 pre hshort =>
    -- a single character, and it is the apostrophe
    obtain ⟨c, rfl⟩ : ∃ c, pre = [c] := by
      rcases pre with _ | ⟨c, _ | ⟨e, pre⟩⟩
      · cases hodd
      · exact ⟨c, rfl⟩
      · exact (hshort c e pre rfl).elim
    have hc : c = quote := by
      by_contra hc
      rw [List.count_cons_of_ne hc] at hodd
      cases hodd
    exact ⟨[], [], by rw [hc]; rfl, rfl, by simp [skipLiteral, hc, show ':' ≠ quote by decide]⟩

/-- **What the check cannot miss.**  It finds a placeholder that has an even number of apostrophes
in front. -/
theorem seek_of_even (hd : U.startsName d = true) {fuel : ℕ}
    (hfuel : (pre ++ ':' :: d :: post).length ≤ fuel) (heven : pre.count quote % 2 = 0)
    (hpaired : paired pre = true) : seek U fuel (pre ++ ':' :: d :: post) = true := by
  have hdcolon : d ≠ ':' := by
    rintro rfl
    rw [startsName_colon] at hd
    cases hd
  induction fuel generalizing pre with
  | zero => simp at hfuel
  | succ fuel ih =>
    cases pre with
    | nil => simp [seek, hd, hdcolon, show ':' ≠ quote by decide]
    | cons c pre =>
      rw [List.cons_append, List.length_cons, Nat.add_le_add_iff_right] at hfuel
      rw [List.cons_append, seek]
      split_ifs with hquote hcast
      · subst hquote
        rw [List.count_cons_self] at heven
        have hodd : pre.count quote % 2 = 1 := by omega
        obtain ⟨t, pre', rfl, heven', hskip⟩ := @skipLiteral_of_odd (d :: post) _ hodd
        rw [hskip]
        have hle : (pre' ++ ':' :: d :: post).length ≤ fuel := by
          simp only [List.length_append, List.length_cons] at hfuel ⊢
          omega
        rw [← List.cons_append, paired_append (by decide)] at hpaired
        exact ih hle heven' hpaired
      · obtain ⟨rfl, hnext⟩ := hcast
        cases pre with
        | nil => cases hpaired
        | cons e pre =>
          obtain rfl : e = ':' := Option.some_inj.1 hnext
          rw [paired_cast] at hpaired
          refine ih (Nat.le_of_succ_le hfuel) ?_ hpaired
          simpa [show ':' ≠ quote by decide] using heven
      · rfl
      · rw [List.count_cons_of_ne hquote] at heven
        refine ih hfuel heven ?_
        by_cases hc : c = ':'
        · subst hc
          cases pre with
          | nil => cases hpaired
          | cons e pre =>
            rwa [paired_colon] at hpaired
            rintro rfl
            exact hcast ⟨rfl, rfl⟩
        · rwa [paired_cons hc] at hpaired

/-! ### Where the check and the rewriter are together -/

theorem blockComment_ends (cs : List Char) :
    (blockComment cs).2.length ≤ 1 ∨ ['/'] <:+ (blockComment cs).1 := by
  fun_induction blockComment cs with
  | case1 c d cs h => exact .inr ⟨['*'], rfl⟩
  | case2 c d cs h text rest heq ih =>
    rw [heq] at ih
    exact ih.imp_right fun hend => hend.trans (List.suffix_cons _ _)
  | case3 cs hshort =>
    left
    rcases cs with _ | ⟨c, _ | ⟨d, cs⟩⟩
    · exact Nat.zero_le _
    · exact Nat.le_refl _
    · exact (hshort c d cs rfl).elim

/-- A literal that is closed has its quote, and an odd number of them with the doubled ones. -/
theorem stringLiteral_ends (cs : List Char) : (stringLiteral cs).2 = [] ∨
    [quote] <:+ (stringLiteral cs).1 ∧ (stringLiteral cs).1.count quote % 2 = 1 := by
  fun_induction stringLiteral cs with
  | case1 => exact .inl rfl
  | case2 c => exact .inl rfl
  | case3 cs text rest heq ih =>
    rw [heq] at ih
    refine ih.imp_right fun hclosed => ⟨hclosed.1.trans ⟨[quote, quote], rfl⟩, ?_⟩
    rw [List.count_cons_self, List.count_cons_self, Nat.add_assoc, Nat.add_mod_right]
    exact hclosed.2
  | case4 d cs h => exact .inr ⟨List.suffix_rfl, by simp⟩
  | case5 c d cs h text rest heq ih =>
    rw [heq] at ih
    refine ih.imp_right fun hclosed => ⟨hclosed.1.trans (List.suffix_cons _ _), ?_⟩
    rw [List.count_cons_of_ne h]
    exact hclosed.2

theorem quotedIdentifier_ends (cs : List Char) :
    (quotedIdentifier cs).2 = [] ∨ [dquote] <:+ (quotedIdentifier cs).1 := by
  fun_induction quotedIdentifier cs with
  | case1 => exact .inl rfl
  | case2 cs => exact .inr List.suffix_rfl
  | case3 c cs h text rest heq ih =>
    rw [heq] at ih
    exact ih.imp_right fun hend => hend.trans (List.suffix_cons _ _)

theorem dollarBody_ends (tag cs : List Char) :
    (dollarBody tag cs).2 = [] ∨ tag <:+ (dollarBody tag cs).1 := by
  fun_induction dollarBody tag cs with
  | case1 => exact .inl rfl
  | case2 c cs h => exact .inr List.suffix_rfl
  | case3 c cs h text rest heq ih =>
    rw [heq] at ih
    exact ih.imp_right fun hend => hend.trans (List.suffix_cons _ _)

theorem paired_of_suffix {t : List Char} (hc : c ≠ ':') (h : [c] <:+ t) :
    paired (pre ++ t) = true := by
  obtain ⟨t, rfl⟩ := h
  rw [← List.append_assoc, paired_append hc]
  rfl

/-- The check does not skip a colon that comes next with another character. -/
def InStep (pre rest : List Char) : Prop := ∀ d cs, rest = ':' :: d :: cs → paired pre = true

theorem inStep_of_length {rest : List Char} (h : rest.length ≤ 1) : InStep pre rest := by
  rintro d cs rfl
  simp at h

theorem inStep_of_suffix {t rest : List Char} (hc : c ≠ ':') (h : rest = [] ∨ [c] <:+ t) :
    InStep (pre ++ t) rest := by
  rintro d cs rfl
  exact paired_of_suffix hc (h.resolve_left (List.cons_ne_nil _ _))

/-- The two stay together from one segment to the next. -/
theorem InStep.segment (h : InStep pre (c :: cs)) :
    InStep (pre ++ (segment U c cs).1.text) (segment U c cs).2 := by
  unfold NamedParams.segment
  split_ifs with hline hblock hquote hdquote hdollar hcast hname
  · intro d ds hrest
    have hhead := Sql.head?_dropWhile (congrArg List.head? hrest)
    cases hhead
  · rcases blockComment_ends cs.tail with hshort | hend
    · exact inStep_of_length hshort
    · exact inStep_of_suffix (by decide) (.inr (hend.trans ⟨['/', '*'], rfl⟩))
  · refine inStep_of_suffix (show quote ≠ ':' by decide) ?_
    exact (stringLiteral_ends cs).imp_right fun hend => hend.1.trans (List.suffix_cons _ _)
  · refine inStep_of_suffix (show dquote ≠ ':' by decide) ?_
    exact (quotedIdentifier_ends cs).imp_right fun hend => hend.trans (List.suffix_cons _ _)
  · split
    · rename_i rest hrest
      refine inStep_of_suffix (show '$' ≠ ':' by decide) ?_
      refine (dollarBody_ends _ rest).imp_right fun hend => ?_
      have htag : ['$'] <:+ '$' :: (cs.takeWhile U.isWord ++ ['$']) :=
        (List.suffix_append _ _).trans (List.suffix_cons _ _)
      exact (htag.trans hend).trans (List.suffix_append _ _)
    · exact inStep_of_suffix (show '$' ≠ ':' by decide) (.inr (by rw [hdollar]))
  · obtain ⟨rfl, hcolon⟩ := hcast
    obtain ⟨ds, rfl⟩ := List.head?_eq_some_iff.1 hcolon
    intro e es hrest
    rw [paired_append_cast]
    exact h ':' ds rfl
  · -- the last character of a name
    obtain ⟨d, ds, rfl, hd⟩ : ∃ d ds, cs = d :: ds ∧ U.startsName d = true := by
      rcases cs with _ | ⟨d, ds⟩
      · cases hname.2
      · exact ⟨d, ds, rfl, hname.2⟩
    have hne : (d :: ds).takeWhile U.isWord ≠ [] := by
      rw [List.takeWhile_cons_of_pos (isWord_of_startsName hd)]
      exact List.cons_ne_nil _ _
    obtain ⟨t, e, heq⟩ := (List.eq_nil_or_concat _).resolve_left hne
    have he : U.isWord e = true := by
      refine List.mem_takeWhile_imp (l := d :: ds) ?_
      simp [heq]
    refine inStep_of_suffix (c := e) ?_ (.inr ⟨c :: t, by simp [heq]⟩)
    rintro rfl
    rw [isWord_colon] at he
    cases he
  · by_cases hc : c = ':'
    · subst hc
      intro e es hrest
      exact absurd ⟨rfl, congrArg List.head? hrest⟩ hcast
    · exact inStep_of_suffix hc (.inr List.suffix_rfl)

theorem segment_placeholder (h : (segment U c cs).1.kind = .placeholder) :
    c = ':' ∧ ∃ d ds, cs = d :: ds ∧ U.startsName d = true := by
  unfold NamedParams.segment at h
  split_ifs at h with hline hblock hquote hdquote hdollar hcast hname
  · split at h <;> cases h
  · refine ⟨hname.1, ?_⟩
    rcases cs with _ | ⟨d, ds⟩
    · cases hname.2
    · exact ⟨d, ds, rfl, hname.2⟩

/-- Along the segments, the check does not miss a placeholder that is not hidden. -/
theorem seek_of_segments {s : State} {front back : List Lexeme} {l : Lexeme} (h : InStep pre cs)
    (hscan : scan (segmentRule U) s cs = front ++ l :: back) (hl : l.kind = .placeholder)
    (heven : (pre ++ textOf front).count quote % 2 = 0) :
    seek U (pre ++ cs).length (pre ++ cs) = true := by
  induction front generalizing pre s cs with
  | nil =>
    cases cs with
    | nil => cases hscan
    | cons c cs =>
      rw [scan_segment] at hscan
      obtain ⟨rfl, -⟩ := List.cons.inj hscan
      obtain ⟨rfl, d, ds, rfl, hd⟩ := segment_placeholder hl
      rw [Sql.textOf_nil, List.append_nil] at heven
      exact seek_of_even hd (Nat.le_refl _) heven (h d ds rfl)
  | cons l' front ih =>
    cases cs with
    | nil => cases hscan
    | cons c cs =>
      rw [scan_segment] at hscan
      obtain ⟨rfl, hrest⟩ := List.cons.inj hscan
      have hfound := ih h.segment hrest (by rw [List.append_assoc]; exact heven)
      rwa [List.append_assoc, (segment_append U c cs).2] at hfound

end

/-! ### When the rewrite may be skipped -/

section

variable {U : Unicode} {sql : String}

theorem unhidden_of_not_placeholder {ls : List Lexeme} (h : ∀ l ∈ ls, l.kind ≠ .placeholder) :
    Unhidden ls := by
  rintro front l back rfl hl
  exact absurd hl (h l (List.mem_append_right _ List.mem_cons_self))

theorem rewrite_of_unhidden (h : hasNamedParams U sql = false)
    (hunhidden : Unhidden (segments U sql)) : rewrite U sql = (sql, []) := by
  rw [rewrite_eq_self_iff]
  intro l hl hkind
  obtain ⟨front, back, hsplit⟩ := List.append_of_mem hl
  have hfound : hasNamedParams U sql = true :=
    seek_of_segments (show InStep [] sql.toList from fun _ _ _ => rfl) hsplit hkind
      (hunhidden front l back hsplit hkind)
  rw [h] at hfound
  cases hfound

/-- **When a caller may skip the rewrite.**  Where the check finds nothing, the rewriter leaves the
text alone if and only if no placeholder is hidden. -/
theorem skippable_iff (U : Unicode) (sql : String) (h : hasNamedParams U sql = false) :
    rewrite U sql = (sql, []) ↔ Unhidden (segments U sql) := by
  constructor
  · intro hself
    exact unhidden_of_not_placeholder ((rewrite_eq_self_iff U sql).1 hself)
  · intro hunhidden
    exact rewrite_of_unhidden h hunhidden

theorem skippable_literal : rewrite .ascii "SELECT ':a'::text" = ("SELECT ':a'::text", []) :=
  (skippable_iff .ascii _ (by decide)).2 (unhidden_of_not_placeholder (by decide))

/-- An apostrophe in a comment, in a quoted identifier and in a dollar quote. -/
theorem missed_behind_apostrophe :
    (hasNamedParams .ascii "-- it's\nSELECT :id" = false ∧
      rewrite .ascii "-- it's\nSELECT :id" = ("-- it's\nSELECT $1", ["id"])) ∧
    (hasNamedParams .ascii "SELECT \"it's\", :id" = false ∧
      rewrite .ascii "SELECT \"it's\", :id" = ("SELECT \"it's\", $1", ["id"])) ∧
    (hasNamedParams .ascii "SELECT $$it's$$, :id" = false ∧
      rewrite .ascii "SELECT $$it's$$, :id" = ("SELECT $$it's$$, $1", ["id"])) := by
  decide

theorem segment_string {c : Char} {cs : List Char} (h : (segment U c cs).1.kind = .string) :
    c = quote := by
  unfold segment at h
  split_ifs at h with hline hblock hquote hdquote hdollar
  · exact hquote
  · split at h <;> cases h

theorem segment_quote (cs : List Char) : segment U quote cs =
    (⟨.string, quote :: (stringLiteral cs).1⟩, (stringLiteral cs).2) := rfl

/-- A segment that something follows has an even number of apostrophes, if it has none or is a
literal. -/
theorem segment_even {c : Char} {cs : List Char} (hrest : (segment U c cs).2 ≠ [])
    (h : (segment U c cs).1.kind ≠ .string → quote ∉ (segment U c cs).1.text) :
    (segment U c cs).1.text.count quote % 2 = 0 := by
  by_cases hkind : (segment U c cs).1.kind = .string
  · obtain rfl := segment_string hkind
    rw [segment_quote] at hrest ⊢
    have hodd := ((stringLiteral_ends cs).resolve_left hrest).2
    rw [List.count_cons_self]
    omega
  · rw [List.count_eq_zero.2 (h hkind)]

theorem unhidden_of_apostrophes (s : State) (cs : List Char)
    (h : ∀ l ∈ scan (segmentRule U) s cs, l.kind ≠ .string → quote ∉ l.text) :
    Unhidden (scan (segmentRule U) s cs) := by
  induction s, cs using Sql.scan_induction (reads_segmentRule U) with
  | nil s => exact unhidden_of_not_placeholder (List.forall_mem_nil _)
  | cons s c cs ih =>
    rw [scan_segment] at h ⊢
    obtain ⟨hfirst, hrest⟩ := List.forall_mem_cons.1 h
    intro front l back hsplit hl
    cases front with
    | nil => rfl
    | cons l' front =>
      obtain ⟨rfl, htail⟩ := List.cons.inj hsplit
      have hne : (segment U c cs).2 ≠ [] := by
        intro hnil
        rw [hnil] at htail
        cases front <;> cases htail
      have heven := segment_even hne hfirst
      have hfront := ih hrest front l back htail hl
      rw [Sql.textOf_cons, List.count_append]
      omega

/-- **Where apostrophes are those of literals**, the check misses nothing. -/
theorem rewrite_of_apostrophes (h : hasNamedParams U sql = false)
    (hquote : ∀ l ∈ segments U sql, l.kind ≠ .string → quote ∉ l.text) :
    rewrite U sql = (sql, []) :=
  rewrite_of_unhidden h (unhidden_of_apostrophes .other sql.toList hquote)

end

end Resolute.NamedParams
