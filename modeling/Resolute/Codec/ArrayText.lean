import Resolute.Codec.Newtypes
import Resolute.Rust.Str

/-!
# Arrays in text format

`parse_pg_text_array` reads what the server writes for a one-dimensional array (`arrayOut`).  The
server quotes an element where it could be read as something else; what it regards as whitespace is
that of ASCII.  The client trims an element that is not quoted of all whitespace that Unicode knows.

The loop of the parser finds the elements one by one (`ArrayText.loop_elements`), so the lists that
come back are those whose elements do, one for one (`ArrayText.parse_arrayOut_iff`).
-/

namespace Resolute

open Rust (Fault)

/-! ### The server -/

/-- `array_isspace`. -/
def arrayIsSpace (c : Char) : Bool := c = ' ' || 9 ≤ c.toNat && c.toNat ≤ 13

/-- The characters that an element cannot have without quotes. -/
def arraySpecial (c : Char) : Bool := ['{', '}', ',', '"', '\\'].contains c || arrayIsSpace c

/-- `array_out` quotes the element. -/
def needsQuote (x : String) : Bool :=
  x.toList.isEmpty || x.toList.map Char.toUpper == "NULL".toList || x.toList.any arraySpecial

/-- The characters of a quoted element. -/
def arrayEscape (cs : List Char) : List Char :=
  cs.flatMap fun c => if c = '"' ∨ c = '\\' then ['\\', c] else [c]

def elementOut (x : String) : List Char :=
  if needsQuote x then '"' :: (arrayEscape x.toList ++ ['"']) else x.toList

/-- The elements with commas between them. -/
def elementsOut : List String → List Char
  | [] => []
  | [x] => elementOut x
  | x :: y :: xs => elementOut x ++ ',' :: elementsOut (y :: xs)

/-- `array_out` of a one-dimensional array without NULL. -/
def arrayOut (xs : List String) : String := String.ofList ('{' :: (elementsOut xs ++ ['}']))

/-! ### The client -/

namespace ArrayText

/-- The errors, all of them `TypedError::Decode` for column 0. -/
inductive ParseError where
  /-- "array: expected {...}, got {s:?}" -/
  | expected (s : String)
  /-- "array: unterminated quoted element" -/
  | unterminated
  /-- "array: unexpected NULL element" -/
  | unexpectedNull
  deriving DecidableEq, Repr

/-- The outcome of the parser. -/
abbrev Parsed (α : Type) := Rust.Outcome ParseError α

/-- The characters of a quoted element behind its first quote: the element, and what is left. -/
def quoted : List Char → (elem : List Char) → Parsed (List Char × List Char)
  | [], _ => .error (.err .unterminated)
  | ['\\'], _ => .error (.err .unterminated)
  | '\\' :: c :: cs, elem => quoted cs (elem ++ [c])
  | c :: cs, elem => if c = '"' then .ok (elem, cs) else quoted cs (elem ++ [c])

/-- One element and what is left. -/
def element (cs : List Char) : Parsed (String × List Char) :=
  match cs with
  | '"' :: cs => do
    let (elem, rest) ← quoted cs []
    return (String.ofList elem, rest)
  | cs =>
    let elem := trim (String.ofList (cs.takeWhile (· ≠ ',')))
    if elem = "NULL" then .error (.err .unexpectedNull)
    else .ok (elem, cs.dropWhile (· ≠ ','))

/-- The comma behind an element is skipped. -/
def skipComma : List Char → List Char
  | ',' :: cs => cs
  | cs => cs

/-- The loop over the elements; a pass takes at least one character. -/
def loop : (fuel : ℕ) → List Char → List String → Parsed (List String)
  | 0, _, result => .ok result
  | fuel + 1, cs, result =>
    match cs.dropWhile (· = ' ') with
    | [] => .ok result
    | c :: cs => do
      let (elem, rest) ← element (c :: cs)
      loop fuel (skipComma rest) (result ++ [elem])

/-- `parse_pg_text_array`. -/
def parse (s : String) : Parsed (List String) :=
  let s := trim s
  if ¬s.toList.head? = some '{' ∨ ¬s.toList.getLast? = some '}' then
    .error (.err (.expected s))
  else do
    let inner ← Rust.slice s.toList 1 (Rust.byteLen s.toList - 1)
    if (trim (String.ofList inner)).isEmpty then return []
    else loop inner.length inner []

/-! ### The elements -/

/-- What the client makes of an element of the server. -/
def received (x : String) : Parsed String :=
  if needsQuote x then .ok x
  else if trim x = "NULL" then .error (.err .unexpectedNull)
  else .ok (trim x)

/-- The quotes and escapes of the server are taken off. -/
theorem quoted_escape (cs rest elem : List Char) :
    quoted (arrayEscape cs ++ '"' :: rest) elem = .ok (elem ++ cs, rest) := by
  induction cs generalizing elem with
  | nil => simp [arrayEscape, quoted]
  | cons c cs ih =>
    rw [arrayEscape, List.flatMap_cons, ← arrayEscape]
    by_cases hspecial : c = '"' ∨ c = '\\'
    · rw [if_pos hspecial, List.cons_append, List.cons_append, List.singleton_append,
        List.cons_append, quoted, ih, List.append_assoc]
      rfl
    · rw [not_or] at hspecial
      rw [if_neg (not_or.mpr hspecial), List.singleton_append, List.cons_append, quoted,
        if_neg hspecial.1, ih, List.append_assoc]
      · rfl
      · intro h
        exact absurd h hspecial.2
      · intro d ds h
        exact absurd h hspecial.2

section

variable {x : String} (hx : needsQuote x = false)
include hx

theorem not_special_of_plain : ∀ c ∈ x.toList, arraySpecial c = false := by
  rw [needsQuote, Bool.or_eq_false_iff] at hx
  intro c hc
  rw [← Bool.not_eq_true]
  intro hspecial
  exact Bool.false_ne_true (hx.2.symm.trans (List.any_eq_true.mpr ⟨c, hc, hspecial⟩))

theorem ne_of_plain {c d : Char} (hc : c ∈ x.toList) (hd : arraySpecial d = true) : c ≠ d := by
  rintro rfl
  rw [not_special_of_plain hx c hc] at hd
  cases hd

theorem exists_cons_of_plain : ∃ c cs, x.toList = c :: cs := by
  rw [needsQuote, Bool.or_eq_false_iff, Bool.or_eq_false_iff] at hx
  apply List.exists_cons_of_ne_nil
  intro hnil
  rw [hnil] at hx
  cases hx.1.1

theorem ne_null_of_plain : x ≠ "NULL" := by
  rintro rfl
  cases hx

end

/-- An element of the server in front of a comma or the end. -/
theorem element_elementOut (x : String) {rest : List Char}
    (hrest : rest = [] ∨ ∃ r, rest = ',' :: r) :
    element (elementOut x ++ rest) = (received x).map (·, rest) := by
  by_cases hx : needsQuote x = true
  · rw [elementOut, if_pos hx, received, if_pos hx, List.cons_append, List.append_assoc,
      List.singleton_append, element, quoted_escape]
    simp [Except.map, bind, Except.bind, pure, Except.pure]
  · have hplain : needsQuote x = false := by simpa using hx
    have hstop : rest.head?.any (· ≠ ',') = false := by
      rcases hrest with rfl | ⟨r, rfl⟩ <;> rfl
    have hcomma : ∀ c ∈ x.toList, decide (c ≠ ',') = true := fun c hc =>
      decide_eq_true (ne_of_plain hplain hc rfl)
    obtain ⟨htake, hdrop⟩ := Rust.takeWhile_append_of_head? hcomma hstop
    obtain ⟨c, cs, hcs⟩ := exists_cons_of_plain hplain
    have hquote : c ≠ '"' := ne_of_plain hplain (hcs ▸ List.mem_cons_self) rfl
    rw [elementOut, if_neg hx, received, if_neg hx, element]
    · rw [htake, hdrop, String.ofList_toList]
      split_ifs <;> rfl
    · intro cs' h
      rw [hcs] at h
      exact hquote (List.cons.inj h).1

/-- An element does not begin with a space. -/
theorem dropWhile_elementOut (x : String) (rest : List Char) :
    ∃ c cs, elementOut x = c :: cs ∧
      (elementOut x ++ rest).dropWhile (· = ' ') = c :: (cs ++ rest) := by
  have hne : ∃ c cs, elementOut x = c :: cs ∧ c ≠ ' ' := by
    by_cases hx : needsQuote x = true
    · exact ⟨'"', _, if_pos hx, by decide⟩
    · have hplain : needsQuote x = false := by simpa using hx
      obtain ⟨c, cs, hcs⟩ := exists_cons_of_plain hplain
      exact ⟨c, cs, (if_neg hx).trans hcs, ne_of_plain hplain (hcs ▸ List.mem_cons_self) rfl⟩
  obtain ⟨c, cs, hcs, hc⟩ := hne
  refine ⟨c, cs, hcs, ?_⟩
  rw [hcs, List.cons_append, List.dropWhile_cons_of_neg (by simpa using hc)]

/-- One pass of the loop. -/
theorem loop_elementOut (x : String) {rest : List Char} (fuel : ℕ) (result : List String)
    (hrest : rest = [] ∨ ∃ r, rest = ',' :: r) :
    loop (fuel + 1) (elementOut x ++ rest) result =
      received x >>= fun elem => loop fuel (skipComma rest) (result ++ [elem]) := by
  obtain ⟨c, cs, hcs, hdrop⟩ := dropWhile_elementOut x rest
  have helement := element_elementOut x hrest
  rw [hcs, List.cons_append] at helement
  rw [loop, hdrop]
  dsimp only
  rw [helement]
  cases received x <;> rfl

/-- **What the loop makes of the elements.** -/
theorem loop_elements (x : String) (xs : List String) {fuel : ℕ} (result : List String)
    (hfuel : (elementsOut (x :: xs)).length ≤ fuel) :
    loop fuel (elementsOut (x :: xs)) result =
      ((x :: xs).mapM received).map (result ++ ·) := by
  induction xs generalizing x fuel result with
  | nil =>
    obtain ⟨c, cs, hcs, -⟩ := dropWhile_elementOut x []
    rw [elementsOut, hcs] at hfuel
    obtain ⟨fuel, rfl⟩ := Nat.exists_eq_succ_of_ne_zero (Nat.ne_zero_of_lt hfuel)
    have hpass := loop_elementOut x fuel result (.inl rfl)
    rw [List.append_nil] at hpass
    rw [elementsOut, hpass, List.mapM_cons, List.mapM_nil]
    cases received x with
    | error e => rfl
    | ok elem => cases fuel <;> rfl
  | cons y ys ih =>
    obtain ⟨c, cs, hcs, -⟩ := dropWhile_elementOut x []
    have hlen : (elementsOut (y :: ys)).length + 2 ≤ fuel := by
      rw [elementsOut, hcs, List.length_append, List.length_cons, List.length_cons] at hfuel
      omega
    obtain ⟨fuel, rfl⟩ := Nat.exists_eq_add_of_le' (show 1 ≤ fuel by omega)
    rw [elementsOut, loop_elementOut x fuel result (.inr ⟨_, rfl⟩), List.mapM_cons]
    cases received x with
    | error e => rfl
    | ok elem =>
      change loop fuel (elementsOut (y :: ys)) (result ++ [elem]) = _
      rw [ih y (result ++ [elem]) (by omega)]
      change _ = Except.map _ ((y :: ys).mapM received >>= fun elems => .ok (elem :: elems))
      cases (y :: ys).mapM received with
      | error e => rfl
      | ok elems => simp [Except.map, bind, Except.bind]

/-! ### The whole text -/

/-- The text of an array has its braces at its ends, so that trimming it changes nothing. -/
theorem trim_arrayOut (xs : List String) : trim (arrayOut xs) = arrayOut xs :=
  trim_ends (by decide) (by decide) (elementsOut xs)

theorem slice_arrayOut (xs : List String) :
    Rust.slice (arrayOut xs).toList 1 (Rust.byteLen (arrayOut xs).toList - 1) =
      (.ok (elementsOut xs) : Parsed (List Char)) := by
  rw [arrayOut, String.toList_ofList]
  exact Rust.slice_ends (by decide) (by decide) (elementsOut xs)

theorem trim_of_isWhitespace {x : String} (h : ∀ c ∈ x.toList, isWhitespace c = true) :
    trim x = "" := by
  rw [trim, List.dropWhile_eq_nil_iff.mpr h]
  rfl

theorem isWhitespace_of_trim {cs : List Char}
    (h : (trim (String.ofList cs)).isEmpty = true) : ∀ c ∈ cs, isWhitespace c = true := by
  rw [String.isEmpty_iff, trim, String.toList_ofList] at h
  have hnil : (cs.dropWhile isWhitespace).reverse.dropWhile isWhitespace = [] := by
    have := congrArg String.toList h
    rwa [String.toList_ofList, String.toList_empty, List.reverse_eq_nil_iff] at this
  rw [List.dropWhile_eq_nil_iff] at hnil
  -- what is left from the first character on that is no whitespace would be whitespace
  rw [← List.dropWhile_eq_nil_iff]
  by_contra hne
  have hhead := List.head_dropWhile_not isWhitespace hne
  rw [hnil _ (List.mem_reverse.mpr (List.head_mem hne))] at hhead
  cases hhead

/-- The client regards the elements as none at all if there is nothing but whitespace in them. -/
theorem trim_elementsOut (x : String) (xs : List String)
    (h : (trim (String.ofList (elementsOut (x :: xs)))).isEmpty = true) :
    needsQuote x = false ∧ trim x ≠ x := by
  have hall := isWhitespace_of_trim h
  have hx : ∀ c ∈ elementOut x, isWhitespace c = true := by
    intro c hc
    cases xs with
    | nil => exact hall c hc
    | cons y ys => exact hall c (List.mem_append_left _ hc)
  by_cases hquote : needsQuote x = true
  · rw [elementOut, if_pos hquote] at hx
    exact absurd (hx '"' List.mem_cons_self) (by decide)
  · have hplain : needsQuote x = false := by simpa using hquote
    rw [elementOut, if_neg hquote] at hx
    refine ⟨hplain, ?_⟩
    rw [trim_of_isWhitespace hx]
    rintro rfl
    cases hplain

theorem received_eq_iff (x : String) :
    received x = .ok x ↔ (needsQuote x = false → trim x = x) := by
  rw [received]
  by_cases hx : needsQuote x = true
  · simp [hx]
  · have hplain : needsQuote x = false := by simpa using hx
    rw [if_neg hx]
    constructor
    · intro h _
      split_ifs at h
      exact Except.ok.inj h
    · intro h
      rw [h hplain, if_neg (ne_null_of_plain hplain)]

theorem mapM_eq_ok_iff {α ε : Type} {f : α → Except ε α} {l : List α} :
    l.mapM f = .ok l ↔ ∀ a ∈ l, f a = .ok a := by
  rw [Rust.mapM_eq_ok, List.map_inj_left]

/-- **Arrays come back** exactly if no element that is sent without quotes begins or ends with what
the client takes for whitespace. -/
theorem parse_arrayOut_iff (xs : List String) :
    parse (arrayOut xs) = .ok xs ↔ ∀ x ∈ xs, needsQuote x = false → trim x = x := by
  have hbraces : ¬(¬(arrayOut xs).toList.head? = some '{' ∨
      ¬(arrayOut xs).toList.getLast? = some '}') := by
    rw [arrayOut, String.toList_ofList]
    simp [List.getLast?_cons]
  rw [parse, trim_arrayOut, if_neg hbraces, slice_arrayOut, ok_bind]
  cases xs with
  | nil => exact iff_of_true rfl fun x hx => (by cases hx)
  | cons x xs =>
    by_cases hempty : (trim (String.ofList (elementsOut (x :: xs)))).isEmpty = true
    · obtain ⟨hplain, htrim⟩ := trim_elementsOut x xs hempty
      rw [if_pos hempty]
      refine iff_of_false (fun h => ?_) fun h => htrim (h x List.mem_cons_self hplain)
      exact absurd (Except.ok.inj h) (List.cons_ne_nil x xs).symm
    · have hmap : ((x :: xs).mapM received).map (([] : List String) ++ ·) =
          (x :: xs).mapM received := by
        cases (x :: xs).mapM received <;> rfl
      rw [if_neg hempty, loop_elements x xs [] le_rfl, hmap, mapM_eq_ok_iff]
      exact forall₂_congr fun x _ => received_eq_iff x

/-- A no-break space in front of an element is not sent in quotes, and is trimmed off. -/
theorem parse_noBreakSpace : parse (arrayOut ["\u00A0x"]) = .ok ["x"] ∧
    parse (arrayOut ["\u00A0x"]) ≠ .ok ["\u00A0x"] := by
  decide

end ArrayText

end Resolute
