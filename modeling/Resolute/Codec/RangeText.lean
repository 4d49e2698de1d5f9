import Resolute.Codec.ArrayText

/-!
# Ranges in text format

The server writes the bounds of a range between its brackets, and quotes a bound in which a
character could be read as something else (`TextElement.rangeOut`).  The client cuts the text at its
first comma and gives what it finds to the element type as it stands (`TextElement.decodeText`).

The element type is a parameter, of which only the text output of the server and the text decoder
are known.  Which ranges come back depends on what that decoder makes of quoted bounds
(`TextElement.decodeText_rangeOut_iff`); for a strict element type, the ranges are those without
quotes (`TextElement.boundsRead_iff`).  The brackets are cut off as bytes, so a text that begins or
ends with another character can be a panic (`TextElement.decodeText_returns_iff`).
-/

namespace Resolute

open Rust (Fault)

/-- An element type `T` of ranges. -/
structure TextElement (α : Type) where
  /-- The text output of the server. -/
  out : α → String
  /-- `T::decode_text`. -/
  decode : String → Except TypedError α
  decode_out : ∀ v, decode (out v) = .ok v

/-! ### The server -/

/-- The characters that a bound cannot have without quotes. -/
def rangeSpecial (c : Char) : Bool :=
  ['(', ')', '[', ']', ',', '"', '\\'].contains c || arrayIsSpace c

/-- `range_bound_escape` quotes the text of a bound. -/
def needsBoundQuote (x : String) : Bool := x.toList.isEmpty || x.toList.any rangeSpecial

/-- The characters of a quoted bound. -/
def rangeEscape (cs : List Char) : List Char :=
  cs.flatMap fun c => if c = '"' ∨ c = '\\' then [c, c] else [c]

/-- `range_bound_escape`. -/
def boundEscape (x : String) : List Char :=
  if needsBoundQuote x then '"' :: (rangeEscape x.toList ++ ['"']) else x.toList

/-! ### The client -/

/-- The errors of `PgRange::decode_text`; those of the range are `TypedError::Decode` for column
0. -/
inductive RangeTextError where
  /-- "range: invalid text format: {s:?}" -/
  | invalidFormat (s : String)
  /-- "range: missing comma in: {s:?}" -/
  | missingComma (s : String)
  /-- The error of an element. -/
  | element (e : TypedError)
  deriving DecidableEq, Repr

namespace TextElement

variable {α : Type} (T : TextElement α)

/-- The text of a bound; an infinite one has none. -/
def boundOut : Option α → List Char
  | none => []
  | some v => boundEscape (T.out v)

/-- `range_out`. -/
def rangeOut : PgRange α → String
  | .empty => "empty"
  | .range lower upper lowerInclusive upperInclusive =>
    String.ofList ((if lowerInclusive then '[' else '(') ::
      (T.boundOut lower ++ ',' :: T.boundOut upper ++ [if upperInclusive then ']' else ')']))

/-- A bound of the text. -/
def readBound (text : List Char) : Rust.Outcome RangeTextError (Option α) :=
  if text = [] then .ok none
  else
    match T.decode (String.ofList text) with
    | .ok v => .ok (some v)
    | .error e => .error (.err (.element e))

/-- `PgRange::decode_text`. -/
def decodeText (s : String) : Rust.Outcome RangeTextError (PgRange α) :=
  let s := trim s
  if s = "empty" then .ok .empty
  else if Rust.byteLen s.toList < 3 then .error (.err (.invalidFormat s))
  else do
    let inner ← Rust.slice s.toList 1 (Rust.byteLen s.toList - 1)
    match Rust.splitOnce ',' inner with
    | none => .error (.err (.missingComma s))
    | some (lowerStr, upperStr) =>
      let lower ← T.readBound lowerStr
      let upper ← T.readBound upperStr
      return .range lower upper (s.toList.head? = some '[') (s.toList.getLast? = some ']')

/-! ### Ranges that come back -/

/-- The text is what the element type reads as the bound, which is infinite if it has no text. -/
def ReadsAs (text : List Char) (bound : Option α) : Prop :=
  if text = [] then bound = none else ∃ v, bound = some v ∧ T.decode (String.ofList text) = .ok v

theorem readBound_eq_iff (text : List Char) (bound : Option α) :
    T.readBound text = .ok bound ↔ T.ReadsAs text bound := by
  rw [readBound, ReadsAs]
  by_cases htext : text = []
  · rw [if_pos htext, if_pos htext, Except.ok.injEq, eq_comm]
  · rw [if_neg htext, if_neg htext]
    cases T.decode (String.ofList text) with
    | error e => simp
    | ok v => simp [eq_comm]

/-- The text of the bounds, cut at its first comma, is what the element type reads as the bounds. -/
def BoundsRead : PgRange α → Prop
  | .empty => True
  | .range lower upper _ _ =>
    ∃ l u, T.boundOut lower ++ ',' :: T.boundOut upper = l ++ ',' :: u ∧ ',' ∉ l ∧
      T.ReadsAs l lower ∧ T.ReadsAs u upper

/-- The text of the bound is not quoted. -/
def PlainBound (bound : Option α) : Prop := ∀ v, bound = some v → needsBoundQuote (T.out v) = false

/-- No bound is quoted. -/
def PlainBounds : PgRange α → Prop
  | .empty => True
  | .range lower upper _ _ => T.PlainBound lower ∧ T.PlainBound upper

/-- The element type takes a text that begins with a quote for a value only if this is the text of
the value. -/
def Strict : Prop :=
  ∀ cs v, T.decode (String.ofList ('"' :: cs)) = .ok v → T.out v = String.ofList ('"' :: cs)

section

variable {T} {v : α}

theorem boundEscape_of_plain {x : String} (h : needsBoundQuote x = false) :
    boundEscape x = x.toList := by
  rw [boundEscape, h]
  rfl

theorem not_special_of_plainBound {x : String} (h : needsBoundQuote x = false) :
    x.toList ≠ [] ∧ ∀ c ∈ x.toList, rangeSpecial c = false := by
  rw [needsBoundQuote, Bool.or_eq_false_iff, List.isEmpty_eq_false_iff, List.any_eq_false] at h
  exact h.imp_right fun hany c hc => by simpa using hany c hc

theorem comma_notMem_of_plain {x : String} (h : needsBoundQuote x = false) : ',' ∉ x.toList := by
  intro hmem
  have := (not_special_of_plainBound h).2 ',' hmem
  cases this

end

theorem readsAs_of_plainBound {bound : Option α} (h : T.PlainBound bound) :
    ',' ∉ T.boundOut bound ∧ T.ReadsAs (T.boundOut bound) bound := by
  cases bound with
  | none =>
    refine ⟨List.not_mem_nil, ?_⟩
    rw [boundOut, ReadsAs, if_pos rfl]
  | some v =>
    have hplain := h v rfl
    rw [boundOut, boundEscape_of_plain hplain, ReadsAs,
      if_neg (not_special_of_plainBound hplain).1, String.ofList_toList]
    exact ⟨comma_notMem_of_plain hplain, v, rfl, T.decode_out v⟩

/-- Bounds that are not quoted are read as they were. -/
theorem boundsRead_of_plainBounds {r : PgRange α} (h : T.PlainBounds r) : T.BoundsRead r := by
  cases r with
  | empty => trivial
  | range lower upper lowerInclusive upperInclusive =>
    obtain ⟨hcomma, hlower⟩ := T.readsAs_of_plainBound h.1
    exact ⟨_, _, rfl, hcomma, hlower, (T.readsAs_of_plainBound h.2).2⟩

theorem length_le_rangeEscape (cs : List Char) : cs.length ≤ (rangeEscape cs).length := by
  induction cs with
  | nil => exact le_rfl
  | cons c cs ih =>
    rw [rangeEscape, List.flatMap_cons, List.length_append, ← rangeEscape, List.length_cons]
    split_ifs
    · rw [List.length_cons, List.length_singleton]
      omega
    · rw [List.length_singleton]
      omega

theorem mem_of_mem_rangeEscape {c : Char} {cs : List Char} (h : c ∈ rangeEscape cs) : c ∈ cs := by
  obtain ⟨d, hd, hc⟩ := List.mem_flatMap.mp h
  split_ifs at hc
  · rw [List.mem_cons, List.mem_singleton, or_self] at hc
    rwa [hc]
  · rwa [List.mem_singleton.mp hc]

theorem comma_notMem_boundEscape {x : String} (h : ',' ∉ x.toList) : ',' ∉ boundEscape x := by
  rw [boundEscape]
  split_ifs
  · simp only [List.mem_cons, List.mem_append, List.not_mem_nil, or_false, not_or]
    exact ⟨by decide, mt mem_of_mem_rangeEscape h, by decide⟩
  · exact h

section

variable {T} (hT : T.Strict)
include hT

/-- A quoted bound is not what its text says. -/
theorem plainBound_of_readsAs {bound : Option α} (h : T.ReadsAs (T.boundOut bound) bound) :
    T.PlainBound bound := by
  rintro v rfl
  by_contra hquote
  have hquote : needsBoundQuote (T.out v) = true := by simpa using hquote
  have htext : T.boundOut (some v) = '"' :: (rangeEscape (T.out v).toList ++ ['"']) :=
    if_pos hquote
  rw [htext, ReadsAs, if_neg (List.cons_ne_nil _ _)] at h
  obtain ⟨v', hv, hdecode⟩ := h
  obtain rfl := Option.some.inj hv
  have hlength := congrArg List.length (congrArg String.toList (hT _ _ hdecode))
  rw [String.toList_ofList, List.length_cons, List.length_append, List.length_singleton] at hlength
  have := length_le_rangeEscape (T.out v).toList
  omega

/-- A comma in a quoted bound leaves a part that is not what the text of the bound says. -/
theorem comma_notMem_of_readsAs {lower : Option α} {l u rest : List Char}
    (heq : T.boundOut lower ++ ',' :: rest = l ++ ',' :: u) (hl : ',' ∉ l)
    (h : T.ReadsAs l lower) : ',' ∉ T.boundOut lower := by
  cases lower with
  | none => exact List.not_mem_nil
  | some v =>
    by_cases hquote : needsBoundQuote (T.out v) = true
    · have htext : T.boundOut (some v) = '"' :: (rangeEscape (T.out v).toList ++ ['"']) :=
        if_pos hquote
      rw [htext, List.cons_append] at heq
      cases l with
      | nil => exact absurd (List.cons.inj heq).1 (by decide)
      | cons c l =>
        obtain ⟨rfl, -⟩ := List.cons.inj heq
        rw [ReadsAs, if_neg (List.cons_ne_nil _ _)] at h
        obtain ⟨v', hv, hdecode⟩ := h
        obtain rfl := Option.some.inj hv
        refine comma_notMem_boundEscape ?_
        rwa [hT _ _ hdecode, String.toList_ofList]
    · have hplain : needsBoundQuote (T.out v) = false := by simpa using hquote
      rw [boundOut, boundEscape_of_plain hplain]
      exact comma_notMem_of_plain hplain

/-- **Only bounds that are not quoted are read as they were**, by a strict element type. -/
theorem boundsRead_iff (r : PgRange α) : T.BoundsRead r ↔ T.PlainBounds r := by
  refine ⟨fun h => ?_, T.boundsRead_of_plainBounds⟩
  cases r with
  | empty => trivial
  | range lower upper lowerInclusive upperInclusive =>
    obtain ⟨l, u, heq, hl, hlower, hupper⟩ := h
    have hcomma := comma_notMem_of_readsAs hT heq hl hlower
    obtain ⟨rfl, rfl⟩ := Rust.append_sep_inj hcomma hl heq
    exact ⟨plainBound_of_readsAs hT hlower, plainBound_of_readsAs hT hupper⟩

end

/-! ### The whole text -/

/-- The characters of a text in brackets. -/
theorem decodeText_brackets {o c : Char} (ho : o = '[' ∨ o = '(') (hc : c = ']' ∨ c = ')')
    {l u : List Char} (hl : ',' ∉ l) :
    T.decodeText (String.ofList (o :: (l ++ ',' :: u ++ [c]))) = do
      let lower ← T.readBound l
      let upper ← T.readBound u
      return .range lower upper (o = '[') (c = ']') := by
  have hopen : isWhitespace o = false ∧ o.utf8Size = 1 ∧ o ≠ 'e' := by
    rcases ho with rfl | rfl <;> decide
  have hclose : isWhitespace c = false ∧ c.utf8Size = 1 := by
    rcases hc with rfl | rfl <;> decide
  have hempty : String.ofList (o :: (l ++ ',' :: u ++ [c])) ≠ "empty" := by
    intro h
    have hhead := congrArg (fun s : String => s.toList.head?) h
    rw [String.toList_ofList] at hhead
    exact hopen.2.2 (Option.some.inj hhead)
  have hlen : ¬Rust.byteLen (o :: (l ++ ',' :: u ++ [c])) < 3 := by
    have hcomma := (',' : Char).utf8Size_pos
    simp only [Rust.byteLen_cons, Rust.byteLen_append, hopen.2.1, hclose.2]
    omega
  have hlast : (o :: (l ++ ',' :: u ++ [c])).getLast? = some c := by
    rw [List.getLast?_cons, List.getLast?_append]
    rfl
  rw [decodeText, trim_ends hopen.1 hclose.1, if_neg hempty, String.toList_ofList, if_neg hlen,
    Rust.slice_ends hopen.2.1 hclose.2, ok_bind, Rust.splitOnce_append hl, hlast]
  dsimp only
  rw [List.head?_cons]
  simp only [Option.some.injEq]

/-- **The ranges that come back.** -/
theorem decodeText_rangeOut_iff (r : PgRange α) :
    T.decodeText (T.rangeOut r) = .ok r ↔ T.BoundsRead r := by
  cases r with
  | empty =>
    refine iff_of_true ?_ trivial
    rw [rangeOut, decodeText, if_pos (by decide)]
  | range lower upper lowerInclusive upperInclusive =>
    obtain ⟨l, u, heq, hl⟩ :=
      List.eq_append_cons_of_mem (show ',' ∈ T.boundOut lower ++ ',' :: T.boundOut upper by simp)
    have hbracket : ∀ (b : Bool) {c d : Char}, c ≠ d →
        decide ((if b then c else d) = c) = b := by
      intro b c d hcd
      cases b
      · exact decide_eq_false hcd.symm
      · exact decide_eq_true rfl
    rw [rangeOut, heq, T.decodeText_brackets (by split_ifs <;> simp) (by split_ifs <;> simp) hl,
      hbracket lowerInclusive (by decide), hbracket upperInclusive (by decide)]
    have hread : T.BoundsRead (.range lower upper lowerInclusive upperInclusive) ↔
        T.readBound l = .ok lower ∧ T.readBound u = .ok upper := by
      rw [T.readBound_eq_iff, T.readBound_eq_iff]
      constructor
      · rintro ⟨l', u', heq', hl', hlower, hupper⟩
        obtain ⟨rfl, rfl⟩ := Rust.append_sep_inj hl' hl (heq'.symm.trans heq)
        exact ⟨hlower, hupper⟩
      · rintro ⟨hlower, hupper⟩
        exact ⟨l, u, heq, hl, hlower, hupper⟩
    rw [hread]
    cases hlower : T.readBound l with
    | error e => simp [bind, Except.bind]
    | ok lower' =>
      cases hupper : T.readBound u with
      | error e => simp [bind, Except.bind]
      | ok upper' => simp [bind, Except.bind, pure, Except.pure]

/-! ### Texts -/

/-- A text of at least three bytes that begins or ends with a character of several bytes. -/
def MultibyteEnds (s : String) : Prop :=
  3 ≤ Rust.byteLen s.toList ∧
    ¬∃ c d mid, s.toList = c :: (mid ++ [d]) ∧ c.utf8Size = 1 ∧ d.utf8Size = 1

theorem readBound_returns (text : List Char) : (T.readBound text).Returns := by
  rw [readBound]
  split_ifs
  · exact Rust.Outcome.returns_ok _
  · cases T.decode (String.ofList text) with
    | error e => exact Rust.Outcome.returns_err _
    | ok v => exact Rust.Outcome.returns_ok _

/-- **The client panics** on a text whose first or last character it cuts in the middle. -/
theorem decodeText_returns_iff (s : String) :
    (T.decodeText s).Returns ↔ ¬MultibyteEnds (trim s) := by
  rw [decodeText]
  by_cases hempty : trim s = "empty"
  · rw [if_pos hempty, hempty]
    refine iff_of_true (Rust.Outcome.returns_ok _) fun h => h.2 ?_
    exact ⟨'e', 'y', ['m', 'p', 't'], by decide, by decide, by decide⟩
  rw [if_neg hempty]
  by_cases hlen : Rust.byteLen (trim s).toList < 3
  · rw [if_pos hlen]
    exact iff_of_true (Rust.Outcome.returns_err _) fun h => absurd h.1 (Nat.not_le.mpr hlen)
  rw [if_neg hlen]
  obtain ⟨inner, hinner⟩ | hpanic := Rust.slice_cases (ε := RangeTextError) (trim s).toList 1
    (Rust.byteLen (trim s).toList - 1)
  · obtain ⟨c, d, hends⟩ := Rust.exists_of_slice_ends (by omega) hinner
    rw [hinner, ok_bind]
    refine iff_of_true ?_ fun h => h.2 ⟨c, d, inner, hends⟩
    cases Rust.splitOnce ',' inner with
    | none => exact Rust.Outcome.returns_err _
    | some p =>
      exact (T.readBound_returns p.1).bind fun lower =>
        (T.readBound_returns p.2).bind fun upper => Rust.Outcome.returns_ok _
  · rw [hpanic]
    refine iff_of_false (fun h => h rfl) (not_not_intro ⟨Nat.not_lt.mp hlen, ?_⟩)
    rintro ⟨c, d, mid, hs, hc, hd⟩
    rw [hs, Rust.slice_ends hc hd] at hpanic
    cases hpanic

/-- **Ranges and texts that are read as they should be.**  A range comes back if and only if the
part of its text in front of the first comma is what the element type reads as the lower bound, and
the part behind it as the upper; for a strict element type this is so if and only if no bound is
quoted.  The client returns unless the text has ends of several bytes. -/
theorem rangeText_exact_iff (r : PgRange α) (s : String) :
    (T.decodeText (T.rangeOut r) = .ok r ↔ T.BoundsRead r) ∧
      (T.PlainBounds r → T.BoundsRead r) ∧ (T.Strict → (T.BoundsRead r ↔ T.PlainBounds r)) ∧
      ((T.decodeText s).Returns ↔ ¬MultibyteEnds (trim s)) :=
  ⟨T.decodeText_rangeOut_iff r, T.boundsRead_of_plainBounds, fun hT => boundsRead_iff hT r,
    T.decodeText_returns_iff s⟩

/-- `String`: every text is the text of a string. -/
def string : TextElement String where
  out v := v
  decode s := .ok s
  decode_out _ := rfl

/-- A string with a space is quoted, and comes back with its quotes; a text that begins with a
letter of two bytes makes the client panic. -/
theorem string_not_exact :
    string.decodeText (string.rangeOut (.range (some "a b") none true false)) ≠
        .ok (.range (some "a b") none true false) ∧
      string.decodeText "é1,2)" = .error .panic := by
  decide

end TextElement

end Resolute
