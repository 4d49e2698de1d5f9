import Resolute.Sql.Lexer

/-!
# Named parameters

`rewrite` turns the placeholders `:name` of an SQL text into `$1, $2, ...`.  It is one loop over the
characters with a branch for each construct in which a colon may stand for something else; a branch
copies the whole construct.  The same loop exists a second time, in the crate of the macros, where
it runs at compile time (`Macros.rewriteNamedParams`).

The first copy is given by the characters that are left, the second by positions, as it is written.
`loop_eq` says how a text is read from any position on, and with that the two rewriters agree
(`Macros.rewriteNamedParams_eq`).  The classes of characters that the loop asks for are a parameter
(`Unicode`).
-/

namespace Resolute.NamedParams

open Sql (quote dquote newline)

/-! ### Characters -/

/-- The character classes of Rust's standard library. -/
structure Unicode where
  isAlphabetic : Char → Bool
  isNumeric : Char → Bool
  isAlphabetic_ascii : ∀ c : Char, c.toNat < 128 → isAlphabetic c = c.isAlpha
  isNumeric_ascii : ∀ c : Char, c.toNat < 128 → isNumeric c = c.isDigit

namespace Unicode

/-- The letters and digits of ASCII only. -/
def ascii : Unicode := ⟨Char.isAlpha, Char.isDigit, fun _ _ => rfl, fun _ _ => rfl⟩

variable (U : Unicode)

def isAlphanumeric (c : Char) : Bool := U.isAlphabetic c || U.isNumeric c

/-- A character that a name begins with. -/
def startsName (c : Char) : Bool := U.isAlphabetic c || c == '_'

/-- A character of a name, or of the tag of a dollar quote. -/
def isWord (c : Char) : Bool := U.isAlphanumeric c || c == '_'

end Unicode

/-! ### The rewriter of `resolute` -/

/-- What the rewriter has produced so far. -/
structure Output where
  result : List Char := []
  names : List String := []
  positions : List (String × ℕ) := []
  deriving DecidableEq, Repr

namespace Output

def push (out : Output) (text : List Char) : Output := { out with result := out.result ++ text }

/-- A placeholder is replaced; a name that is known keeps its position. -/
def placeholder (out : Output) (name : String) : Output :=
  match out.positions.lookup name with
  | some existing => out.push ('$' :: (toString existing).toList)
  | none =>
    let pos := out.names.length + 1
    let out := { out with names := out.names ++ [name], positions := (name, pos) :: out.positions }
    out.push ('$' :: (toString pos).toList)

end Output

/-- The rest of a block comment: what is copied, and what is left. -/
def blockComment : List Char → List Char × List Char
  | c :: d :: cs =>
    if c = '*' ∧ d = '/' then (['*', '/'], cs)
    else
      let (text, rest) := blockComment (d :: cs)
      (c :: text, rest)
  | cs => ([], cs)

/-- The rest of a string literal. -/
def stringLiteral : List Char → List Char × List Char
  | [] => ([], [])
  | [c] => ([c], [])
  | c :: d :: cs =>
    if c = quote then
      if d = quote then
        let (text, rest) := stringLiteral cs
        (c :: quote :: text, rest)
      else ([c], d :: cs)
    else
      let (text, rest) := stringLiteral (d :: cs)
      (c :: text, rest)

/-- The rest of a quoted identifier. -/
def quotedIdentifier : List Char → List Char × List Char
  | [] => ([], [])
  | c :: cs =>
    if c = dquote then ([c], cs)
    else
      let (text, rest) := quotedIdentifier cs
      (c :: text, rest)

/-- The rest of a dollar-quoted string. -/
def dollarBody (tag : List Char) : List Char → List Char × List Char
  | [] => ([], [])
  | c :: cs =>
    if c = '$' ∧ tag <+: c :: cs then (tag, (c :: cs).drop tag.length)
    else
      let (text, rest) := dollarBody tag cs
      (c :: text, rest)

/-- One pass of the loop, from the character `c` on; also what is left. -/
def pass (U : Unicode) (c : Char) (cs : List Char) (out : Output) : List Char × Output :=
  if c = '-' ∧ cs.head? = some '-' then
    let (text, rest) := (c :: cs).span (· ≠ newline)
    (rest, out.push text)
  else if c = '/' ∧ cs.head? = some '*' then
    let (text, rest) := blockComment cs.tail
    (rest, out.push ('/' :: '*' :: text))
  else if c = quote then
    let (text, rest) := stringLiteral cs
    (rest, out.push (quote :: text))
  else if c = dquote then
    let (text, rest) := quotedIdentifier cs
    (rest, out.push (dquote :: text))
  else if c = '$' then
    let (run, rest) := cs.span U.isWord
    match rest with
    | '$' :: rest =>
      let tag := '$' :: (run ++ ['$'])
      let (text, rest) := dollarBody tag rest
      (rest, out.push (tag ++ text))
    | _ => (cs, out.push [c])
  else if c = ':' ∧ cs.head? = some ':' then (cs.tail, out.push [':', ':'])
  else if c = ':' ∧ cs.head?.any U.startsName then
    let (name, rest) := cs.span U.isWord
    (rest, out.placeholder (String.ofList name))
  else (cs, out.push [c])

/-- The loop; a pass takes at least one character, so `fuel` may be the number of characters. -/
def loop (U : Unicode) : (fuel : ℕ) → List Char → Output → Output
  | fuel + 1, c :: cs, out =>
    let (rest, out) := pass U c cs out
    loop U fuel rest out
  | _, _, out => out

/-- Rewrite `:name` named params to `$N` positional params. -/
def rewrite (U : Unicode) (sql : String) : String × List String :=
  let out := loop U sql.toList.length sql.toList {}
  (String.ofList out.result, out.names)

example : rewrite .ascii "SELECT :id WHERE :id > $$ :x $$" =
    ("SELECT $1 WHERE $1 > $$ :x $$", ["id"]) := by
  decide

/-! ### Reading on -/

section

variable {U : Unicode} {c : Char} {cs : List Char} {out : Output}

theorem blockComment_append (cs : List Char) : (blockComment cs).1 ++ (blockComment cs).2 = cs := by
  fun_induction blockComment cs with
  | case1 c d cs h => simp [h.1, h.2]
  | case2 c d cs h text rest heq ih => simpa [heq] using ih
  | case3 cs h => rfl

theorem stringLiteral_append (cs : List Char) :
    (stringLiteral cs).1 ++ (stringLiteral cs).2 = cs := by
  fun_induction stringLiteral cs with
  | case1 => rfl
  | case2 c => rfl
  | case3 cs text rest heq ih => simpa [heq] using ih
  | case4 d cs h => rfl
  | case5 c d cs h text rest heq ih => simpa [heq] using ih

theorem quotedIdentifier_append (cs : List Char) :
    (quotedIdentifier cs).1 ++ (quotedIdentifier cs).2 = cs := by
  fun_induction quotedIdentifier cs with
  | case1 => rfl
  | case2 cs => rfl
  | case3 c cs h text rest heq ih => simpa [heq] using ih

theorem dollarBody_append (tag cs : List Char) :
    (dollarBody tag cs).1 ++ (dollarBody tag cs).2 = cs := by
  fun_induction dollarBody tag cs with
  | case1 => rfl
  | case2 c cs h => exact List.prefix_iff_eq_append.1 h.2
  | case3 c cs h text rest heq ih => simpa [heq] using ih

/-- A pass copies what it reads, or replaces a placeholder. -/
theorem pass_cases (U : Unicode) (c : Char) (cs : List Char) (out : Output) :
    (∃ text rest, text ≠ [] ∧ text ++ rest = c :: cs ∧ pass U c cs out = (rest, out.push text)) ∨
      (c = ':' ∧ cs.head?.any U.startsName) ∧ pass U c cs out = (cs.dropWhile U.isWord,
        out.placeholder (String.ofList (cs.takeWhile U.isWord))) := by
  unfold pass
  split_ifs with hline hblock hquote hdquote hdollar hcast hname
  · refine .inl ⟨(c :: cs).takeWhile (· ≠ newline), (c :: cs).dropWhile (· ≠ newline),
      ?_, ?_, ?_⟩
    · simp [hline.1, show '-' ≠ newline by decide]
    · exact List.takeWhile_append_dropWhile
    · simp [List.span_eq_takeWhile_dropWhile]
  · obtain ⟨rfl, hstar⟩ := hblock
    obtain ⟨d, ds, rfl⟩ : ∃ d ds, cs = d :: ds := by cases cs <;> simp_all
    obtain rfl : d = '*' := by simpa using hstar
    exact .inl ⟨_, _, List.cons_ne_nil _ _, by simp [blockComment_append], rfl⟩
  · exact .inl ⟨_, _, List.cons_ne_nil _ _, by simp [hquote, stringLiteral_append], rfl⟩
  · exact .inl ⟨_, _, List.cons_ne_nil _ _, by simp [hdquote, quotedIdentifier_append], rfl⟩
  · subst hdollar
    simp only [List.span_eq_takeWhile_dropWhile]
    split
    · rename_i rest hrest
      refine .inl ⟨_, _, by simp, ?_, rfl⟩
      rw [List.append_assoc, dollarBody_append]
      have hcs := List.takeWhile_append_dropWhile (p := U.isWord) (l := cs)
      rw [hrest] at hcs
      simpa using hcs
    · exact .inl ⟨['$'], cs, List.cons_ne_nil _ _, rfl, rfl⟩
  · obtain ⟨rfl, hcolon⟩ := hcast
    obtain ⟨d, ds, rfl⟩ : ∃ d ds, cs = d :: ds := by cases cs <;> simp_all
    obtain rfl : d = ':' := by simpa using hcolon
    exact .inl ⟨[':', ':'], ds, List.cons_ne_nil _ _, rfl, rfl⟩
  · exact .inr ⟨hname, by rw [List.span_eq_takeWhile_dropWhile]⟩
  · exact .inl ⟨[c], cs, List.cons_ne_nil _ _, rfl, rfl⟩

theorem length_pass_le (U : Unicode) (c : Char) (cs : List Char) (out : Output) :
    (pass U c cs out).1.length ≤ cs.length := by
  rcases pass_cases U c cs out with ⟨text, rest, hne, happend, heq⟩ | ⟨-, heq⟩ <;> rw [heq]
  · have hlen := congrArg List.length happend
    have hpos := List.length_pos_iff.2 hne
    simp only [List.length_append, List.length_cons] at hlen
    dsimp only
    omega
  · exact (List.dropWhile_suffix _).length_le

theorem loop_eq {fuel : ℕ} (h : cs.length ≤ fuel) (out : Output) :
    loop U fuel cs out = loop U cs.length cs out := by
  induction hlen : cs.length using Nat.strongRecOn generalizing cs fuel out with
  | _ n ih =>
    cases cs with
    | nil =>
      subst hlen
      cases fuel <;> rfl
    | cons c cs =>
      subst hlen
      have hle := length_pass_le U c cs out
      simp only [List.length_cons] at h ih ⊢
      obtain ⟨fuel, rfl⟩ := Nat.exists_eq_add_of_le' (Nat.le_trans (Nat.le_add_left 1 _) h)
      simp only [loop]
      rw [ih _ (by omega) (by omega) _ rfl, ← ih _ (by omega) hle _ rfl]

/-- How the rest of a text is read. -/
def readOn (U : Unicode) (cs : List Char) (out : Output) : Output := loop U cs.length cs out

@[simp] theorem readOn_nil (out : Output) : readOn U [] out = out := rfl

theorem readOn_cons (c : Char) (cs : List Char) (out : Output) :
    readOn U (c :: cs) out = readOn U (pass U c cs out).1 (pass U c cs out).2 := by
  simp only [readOn, List.length_cons, loop]
  exact loop_eq (length_pass_le U c cs out) _

end

/-! ### The rewriter of the macros -/

namespace Macros

section

variable (chars : List Char)

/-- A line comment. -/
def copyLine (i : ℕ) (result : List Char) : ℕ × List Char :=
  if h : i < chars.length then
    if chars[i] ≠ newline then copyLine (i + 1) (result ++ [chars[i]]) else (i, result)
  else (i, result)
termination_by chars.length - i

/-- A block comment, up to its closing characters. -/
def copyBlock (i : ℕ) (result : List Char) : ℕ × List Char :=
  if h : i + 1 < chars.length then
    if chars[i] = '*' ∧ chars[i + 1] = '/' then (i, result)
    else copyBlock (i + 1) (result ++ [chars[i]])
  else (i, result)
termination_by chars.length - i

/-- A string literal. -/
def copyString (i : ℕ) (result : List Char) : ℕ × List Char :=
  if h : i < chars.length then
    let result := result ++ [chars[i]]
    if chars[i] = quote then
      if chars[i + 1]? = some quote then copyString (i + 2) (result ++ [quote])
      else (i + 1, result)
    else copyString (i + 1) result
  else (i, result)
termination_by chars.length - i

/-- A quoted identifier. -/
def copyIdentifier (i : ℕ) (result : List Char) : ℕ × List Char :=
  if h : i < chars.length then
    let result := result ++ [chars[i]]
    if chars[i] = dquote then (i + 1, result) else copyIdentifier (i + 1) result
  else (i, result)
termination_by chars.length - i

/-- The characters of a name or of a tag are passed. -/
def skipWord (U : Unicode) (i : ℕ) : ℕ :=
  if h : i < chars.length then if U.isWord chars[i] then skipWord U (i + 1) else i
  else i
termination_by chars.length - i

/-- `chars[start..stop]`. -/
def slice (start stop : ℕ) : List Char := (chars.drop start).take (stop - start)

/-- A dollar-quoted string. -/
def copyDollar (tag : List Char) (i : ℕ) (result : List Char) : ℕ × List Char :=
  if h : i < chars.length then
    if chars[i] = '$' ∧ i + tag.length ≤ chars.length ∧ slice chars i (i + tag.length) = tag then
      (i + tag.length, result ++ tag)
    else copyDollar tag (i + 1) (result ++ [chars[i]])
  else (i, result)
termination_by chars.length - i

/-- The position of a name, and `$` with it. -/
def number (out : Output) (name : String) : Output :=
  match out.positions.lookup name with
  | some existing => { out with result := out.result ++ '$' :: (toString existing).toList }
  | none =>
    let names := out.names ++ [name]
    let pos := names.length
    ⟨out.result ++ '$' :: (toString pos).toList, names, (name, pos) :: out.positions⟩

/-- One pass of the loop, from position `i` on. -/
def pass (U : Unicode) (i : ℕ) (out : Output) : ℕ × Output :=
  let upTo : ℕ × List Char → ℕ × Output := fun (i, result) => (i, { out with result })
  if chars[i]? = some '-' ∧ chars[i + 1]? = some '-' then upTo (copyLine chars i out.result)
  else if chars[i]? = some '/' ∧ chars[i + 1]? = some '*' then
    let (i, result) := copyBlock chars (i + 2) (out.result ++ ['/', '*'])
    if i + 1 < chars.length then upTo (i + 2, result ++ ['*', '/']) else upTo (i, result)
  else if chars[i]? = some quote then upTo (copyString chars (i + 1) (out.result ++ [quote]))
  else if chars[i]? = some dquote then
    upTo (copyIdentifier chars (i + 1) (out.result ++ [dquote]))
  else if chars[i]? = some '$' then
    let tagStart := i
    let i := skipWord chars U (i + 1)
    if chars[i]? = some '$' then
      let tag := slice chars tagStart (i + 1)
      upTo (copyDollar chars tag (i + 1) (out.result ++ tag))
    else upTo (tagStart + 1, out.result ++ ['$'])
  else if chars[i]? = some ':' ∧ chars[i + 1]? = some ':' then
    upTo (i + 2, out.result ++ [':', ':'])
  else if chars[i]? = some ':' ∧ chars[i + 1]?.any U.startsName then
    let start := i + 1
    let i := skipWord chars U start
    (i, number out (String.ofList (slice chars start i)))
  else upTo (i + 1, out.result ++ chars[i]?.toList)

/-- `while i < len`; a pass takes at least one character. -/
def loop (U : Unicode) : (fuel i : ℕ) → Output → Output
  | 0, _, out => out
  | fuel + 1, i, out =>
    if i < chars.length then
      let (i, out) := pass chars U i out
      loop U fuel i out
    else out

end

/-- `rewrite_named_params`. -/
def rewriteNamedParams (U : Unicode) (sql : String) : String × List String :=
  let chars := sql.toList
  let out := loop chars U chars.length 0 {}
  (String.ofList out.result, out.names)

/-! ### The rewriters agree -/

section

variable {U : Unicode} {chars : List Char} {i : ℕ} {result : List Char}

/-- What is left after a text was read. -/
theorem drop_add_of_append {text rest : List Char} (h : text ++ rest = chars.drop i) :
    chars.drop (i + text.length) = rest := by
  rw [← List.drop_drop, ← h, List.drop_left]

theorem copyLine_eq : copyLine chars i result =
    (i + ((chars.drop i).takeWhile (· ≠ newline)).length,
      result ++ (chars.drop i).takeWhile (· ≠ newline)) := by
  fun_induction copyLine chars i result with
  | case1 i result hi hne ih =>
    rw [ih, List.drop_eq_getElem_cons hi, List.takeWhile_cons_of_pos (by simpa using hne)]
    simp
    omega
  | case2 i result hi hne =>
    rw [List.drop_eq_getElem_cons hi, List.takeWhile_cons_of_neg (by simpa using hne)]
    simp
  | case3 i result hi => simp [List.drop_of_length_le (Nat.le_of_not_lt hi)]

/-- A block comment with its closing characters. -/
theorem copyBlock_eq :
    let (j, result') := copyBlock chars i result
    (if j + 1 < chars.length then (j + 2, result' ++ ['*', '/']) else (j, result')) =
      (i + (blockComment (chars.drop i)).1.length, result ++ (blockComment (chars.drop i)).1) := by
  fun_induction copyBlock chars i result with
  | case1 i result hi hclose =>
    have hi' : i < chars.length := Nat.lt_of_succ_lt hi
    rw [List.drop_eq_getElem_cons hi', List.drop_eq_getElem_cons hi, blockComment, if_pos hclose]
    simp [hi]
  | case2 i result hi hclose ih =>
    have hi' : i < chars.length := Nat.lt_of_succ_lt hi
    rw [List.drop_eq_getElem_cons hi] at ih
    rw [List.drop_eq_getElem_cons hi', List.drop_eq_getElem_cons hi, blockComment, if_neg hclose]
    refine ih.trans ?_
    simp
    omega
  | case3 i result hi =>
    have hle : (chars.drop i).length ≤ 1 := by
      rw [List.length_drop]
      omega
    have hnil : blockComment (chars.drop i) = ([], chars.drop i) := by
      match chars.drop i, hle with
      | [], _ => rfl
      | [c], _ => rfl
    simp [hi, hnil]

theorem copyString_eq : copyString chars i result =
    (i + (stringLiteral (chars.drop i)).1.length,
      result ++ (stringLiteral (chars.drop i)).1) := by
  fun_induction copyString chars i result with
  | case1 i result hi result' hquote hnext ih =>
    obtain ⟨hi', hnext⟩ := List.getElem?_eq_some_iff.1 hnext
    have hdrop : chars.drop (i + 1) = chars[i + 1] :: chars.drop (i + 2) :=
      List.drop_eq_getElem_cons hi'
    rw [ih, List.drop_eq_getElem_cons hi, hdrop, stringLiteral, if_pos hquote, if_pos hnext]
    simp [result']
    omega
  | case2 i result hi result' hquote hnext =>
    rw [List.drop_eq_getElem_cons hi]
    cases hcs : chars.drop (i + 1) with
    | nil => simp [stringLiteral, result']
    | cons d cs =>
      have hd : chars[i + 1]? = some d := by rw [← List.head?_drop, hcs]; rfl
      rw [hd, Option.some_inj] at hnext
      simp [stringLiteral, hquote, hnext, result']
  | case3 i result hi result' hquote ih =>
    rw [ih, List.drop_eq_getElem_cons hi]
    cases hcs : chars.drop (i + 1) with
    | nil => simp [stringLiteral, result']
    | cons d cs =>
      simp [stringLiteral, hquote, result']
      omega
  | case4 i result hi => simp [List.drop_of_length_le (Nat.le_of_not_lt hi), stringLiteral]

theorem copyIdentifier_eq : copyIdentifier chars i result =
    (i + (quotedIdentifier (chars.drop i)).1.length,
      result ++ (quotedIdentifier (chars.drop i)).1) := by
  fun_induction copyIdentifier chars i result with
  | case1 i result hi result' hquote =>
    rw [List.drop_eq_getElem_cons hi, quotedIdentifier, if_pos hquote]
    rfl
  | case2 i result hi result' hquote ih =>
    rw [ih, List.drop_eq_getElem_cons hi, quotedIdentifier, if_neg hquote]
    simp [result']
    omega
  | case3 i result hi => simp [List.drop_of_length_le (Nat.le_of_not_lt hi), quotedIdentifier]

theorem skipWord_eq :
    skipWord chars U i = i + ((chars.drop i).takeWhile U.isWord).length := by
  fun_induction skipWord chars U i with
  | case1 i hi hword ih =>
    rw [ih, List.drop_eq_getElem_cons hi, List.takeWhile_cons_of_pos hword]
    simp
    omega
  | case2 i hi hword =>
    rw [List.drop_eq_getElem_cons hi, List.takeWhile_cons_of_neg hword]
    rfl
  | case3 i hi => simp [List.drop_of_length_le (Nat.le_of_not_lt hi)]

/-- The comparison of the closing tag. -/
theorem slice_eq_iff {tag : List Char} (hi : i ≤ chars.length) :
    i + tag.length ≤ chars.length ∧ slice chars i (i + tag.length) = tag ↔
      tag <+: chars.drop i := by
  rw [slice, Nat.add_sub_cancel_left, List.prefix_iff_eq_take, eq_comm, and_iff_right_iff_imp]
  intro h
  have hlen := congrArg List.length h
  simp only [List.length_take, List.length_drop] at hlen
  omega

theorem copyDollar_eq {tag : List Char} : copyDollar chars tag i result =
    (i + (dollarBody tag (chars.drop i)).1.length,
      result ++ (dollarBody tag (chars.drop i)).1) := by
  fun_induction copyDollar chars tag i result with
  | case1 i result hlt hclose =>
    have hclose' : chars[i] = '$' ∧ tag <+: chars[i] :: chars.drop (i + 1) := by
      rw [← List.drop_eq_getElem_cons hlt, ← slice_eq_iff (Nat.le_of_lt hlt)]
      exact hclose
    rw [List.drop_eq_getElem_cons hlt, dollarBody, if_pos hclose']
  | case2 i result hlt hclose ih =>
    have hclose' : ¬(chars[i] = '$' ∧ tag <+: chars[i] :: chars.drop (i + 1)) := by
      rw [← List.drop_eq_getElem_cons hlt, ← slice_eq_iff (Nat.le_of_lt hlt)]
      exact hclose
    rw [ih, List.drop_eq_getElem_cons hlt, dollarBody, if_neg hclose']
    simp
    omega
  | case3 i result hlt => simp [List.drop_of_length_le (Nat.le_of_not_lt hlt), dollarBody]

theorem number_eq (out : Output) (name : String) : number out name = out.placeholder name := by
  unfold number Output.placeholder
  cases out.positions.lookup name <;> simp [Output.push]

/-- A pass from a position does what a pass on the characters from there on does. -/
theorem pass_eq {c : Char} {cs : List Char} (h : chars.drop i = c :: cs) (out : Output) :
    let (j, out') := pass chars U i out
    (chars.drop j, out') = NamedParams.pass U c cs out := by
  have hc : chars[i]? = some c := by rw [← List.head?_drop, h]; rfl
  have hcs : chars.drop (i + 1) = cs := by rw [← List.drop_drop, h]; rfl
  have hd : chars[i + 1]? = cs.head? := by rw [← List.head?_drop, hcs]
  have htail : chars.drop (i + 2) = cs.tail := by rw [← List.tail_drop, hcs]
  unfold pass NamedParams.pass
  simp only [hc, hd, Option.some_inj, List.span_eq_takeWhile_dropWhile]
  by_cases hline : c = '-' ∧ cs.head? = some '-'
  · simp only [if_pos hline]
    rw [copyLine_eq, h]
    refine Prod.ext (drop_add_of_append ?_) rfl
    rw [h]
    exact List.takeWhile_append_dropWhile
  simp only [if_neg hline]
  by_cases hblock : c = '/' ∧ cs.head? = some '*'
  · simp only [if_pos hblock]
    have hcopy := @copyBlock_eq chars (i + 2) (out.result ++ ['/', '*'])
    have hrest := drop_add_of_append ((blockComment_append cs.tail).trans htail.symm)
    rw [htail] at hcopy
    generalize copyBlock chars (i + 2) (out.result ++ ['/', '*']) = copied at hcopy ⊢
    obtain ⟨j, result'⟩ := copied
    dsimp only at hcopy ⊢
    -- the closing characters are there, or the text ends with the comment
    split at hcopy <;> rename_i hclose <;> obtain ⟨hj, hresult⟩ := Prod.mk.inj hcopy
    · rw [if_pos hclose, hj, hresult, hrest]
      simp [Output.push]
    · rw [if_neg hclose, hj, hresult, hrest]
      simp [Output.push]
  simp only [if_neg hblock]
  by_cases hquote : c = quote
  · simp only [if_pos hquote]
    rw [copyString_eq, hcs]
    refine Prod.ext (drop_add_of_append ((stringLiteral_append cs).trans hcs.symm)) ?_
    simp [Output.push]
  simp only [if_neg hquote]
  by_cases hdquote : c = dquote
  · simp only [if_pos hdquote]
    rw [copyIdentifier_eq, hcs]
    refine Prod.ext (drop_add_of_append ((quotedIdentifier_append cs).trans hcs.symm)) ?_
    simp [Output.push]
  simp only [if_neg hdquote]
  by_cases hdollar : c = '$'
  · simp only [if_pos hdollar]
    rw [skipWord_eq, hcs]
    -- the run of word characters, and what ends it
    have hrun := drop_add_of_append (List.takeWhile_append_dropWhile (p := U.isWord).trans hcs.symm)
    rw [← List.head?_drop, hrun]
    cases hrest : cs.dropWhile U.isWord with
    | nil => simp [hcs, Output.push, hdollar]
    | cons d ds =>
      by_cases hd : d = '$'
      · -- a dollar sign: the run is a tag
        subst hd
        have htag : slice chars i (i + 1 + (cs.takeWhile U.isWord).length + 1) =
            '$' :: (cs.takeWhile U.isWord ++ ['$']) := by
          have hsplit : cs = cs.takeWhile U.isWord ++ '$' :: ds := by
            rw [← hrest, List.takeWhile_append_dropWhile]
          have hlen : i + 1 + (cs.takeWhile U.isWord).length + 1 - i =
              ((cs.takeWhile U.isWord).length + 1) + 1 := by omega
          have htake : ∀ {run : List Char}, cs = run ++ '$' :: ds →
              cs.take (run.length + 1) = run ++ ['$'] := fun hcs => by
            rw [hcs, List.take_length_add_append]
            rfl
          rw [slice, h, hdollar, hlen, List.take_succ_cons, htake hsplit]
        have hds : chars.drop (i + 1 + (cs.takeWhile U.isWord).length + 1) = ds := by
          rw [← List.tail_drop, hrun, hrest]
          rfl
        simp only [List.head?_cons, if_true, htag]
        rw [copyDollar_eq, hds]
        refine Prod.ext (drop_add_of_append ((dollarBody_append _ ds).trans hds.symm)) ?_
        simp [Output.push]
      · -- no tag, the dollar sign stands for itself
        have hne : ¬(d :: ds).head? = some '$' := by simpa using hd
        simp only [if_neg hne]
        split
        · rename_i heq
          exact absurd (List.cons.inj heq).1 hd
        · rw [hcs, hdollar]
          rfl
  simp only [if_neg hdollar]
  by_cases hcast : c = ':' ∧ cs.head? = some ':'
  · simp only [if_pos hcast]
    rw [htail]
    rfl
  simp only [if_neg hcast]
  by_cases hname : c = ':' ∧ cs.head?.any U.startsName = true
  · simp only [if_pos hname]
    rw [skipWord_eq, hcs, slice, hcs, Nat.add_sub_cancel_left, number_eq]
    have hrun := drop_add_of_append (List.takeWhile_append_dropWhile (p := U.isWord).trans hcs.symm)
    have hname : cs.take (cs.takeWhile U.isWord).length = cs.takeWhile U.isWord :=
      (List.prefix_iff_eq_take.1 (List.takeWhile_prefix U.isWord)).symm
    rw [hrun, hname]
  simp only [if_neg hname]
  rw [hcs]
  rfl

theorem loop_eq (fuel i : ℕ) (out : Output) :
    loop chars U fuel i out = NamedParams.loop U fuel (chars.drop i) out := by
  induction fuel generalizing i out with
  | zero => rfl
  | succ fuel ih =>
    rw [loop]
    split
    · rename_i hi
      have hpass := pass_eq (U := U) (List.drop_eq_getElem_cons hi) out
      rw [List.drop_eq_getElem_cons hi, NamedParams.loop, ← hpass]
      exact ih _ _
    · rename_i hi
      rw [List.drop_of_length_le (Nat.le_of_not_lt hi)]
      rfl

end

/-- **The rewriters agree.**  Position by position, the macros read and produce what `resolute` does
at run time. -/
theorem rewriteNamedParams_eq (U : Unicode) (sql : String) :
    rewriteNamedParams U sql = rewrite U sql := by
  rw [rewriteNamedParams, rewrite, loop_eq, List.drop_zero]

end Macros

end Resolute.NamedParams
