import Resolute.Codec.Decimal
import Resolute.Rust.Radix
import Resolute.Rust.Str

/-!
# Byte strings in text format

The server writes a `bytea` in one of two formats (`hexOut`, `escapeOut`).  The client reads pairs
of hexadecimal digits behind `\x`, at positions that it counts in bytes; a text that does not begin
so is taken for the bytes themselves.

A slice of the text may end inside of a character, and a digit may have a sign in front:
`ByteaText.decodePairs_cases` is what the loop over the pairs comes to, for any text.
`ByteaText.decodeText_exact_iff` says which byte strings and which texts are read as they should be.
-/

namespace Resolute

open Rust (Fault)

/-! ### The server -/

/-- A byte as two hexadecimal digits. -/
def hexByte (b : UInt8) : List Char := [(b.toNat / 16).digitChar, (b.toNat % 16).digitChar]

/-- `byteaout` with `bytea_output = hex`. -/
def hexOut (b : Bytes) : String := String.ofList ('\\' :: 'x' :: b.flatMap hexByte)

/-- The byte stands for itself in the escape format. -/
def isPlain (b : UInt8) : Bool := 32 ≤ b && b ≤ 126 && b != 92

/-- A byte in the escape format. -/
def escapeByte (b : UInt8) : List Char :=
  let n := b.toNat
  if b = 92 then ['\\', '\\']
  else if b < 32 ∨ 126 < b then
    ['\\', (n / 64).digitChar, (n / 8 % 8).digitChar, (n % 8).digitChar]
  else [Rust.asChar b]

/-- `byteaout` with `bytea_output = escape`. -/
def escapeOut (b : Bytes) : String := String.ofList (b.flatMap escapeByte)

/-! ### The client -/

namespace ByteaText

/-- The error for the pair at position `i`. -/
def invalidHex (i : ℕ) : TypedError := .decode 0 s!"bytea: invalid hex at offset {i}"

/-- `u8::from_str_radix(part, 16)`. -/
def fromHex (part : List Char) : Option UInt8 := (Rust.fromStrRadix 256 16 part).map UInt8.ofNat

/-- The pair at position `i`. -/
def pairAt (hex : List Char) (i : ℕ) : Rust.Outcome TypedError UInt8 := do
  let part ← Rust.slice hex i (i + 2)
  match fromHex part with
  | none => .error (.err (invalidHex i))
  | some b => .ok b

/-- `(0..n).step_by(2)`. -/
def positions (n : ℕ) : List ℕ := (List.range ((n + 1) / 2)).map (2 * ·)

/-- `decode_text`. -/
def decodeText (s : String) : Rust.Outcome TypedError Bytes :=
  match ['\\', 'x'].isPrefixOf? s.toList with
  | some hex => (positions (Rust.byteLen hex)).mapM (pairAt hex)
  | none => .ok (asBytes s)

/-! ### The loop over the pairs -/

/-- The loop over `n` pairs from position `i` on, by what is left to read. -/
def decodePairs : (n i : ℕ) → List Char → Rust.Outcome TypedError Bytes
  | 0, _, _ => .ok []
  | n + 1, i, cs =>
    match Rust.cutAt cs 2 with
    | none => .error .panic
    | some (part, rest) =>
      match fromHex part with
      | none => .error (.err (invalidHex i))
      | some b => (decodePairs n (i + 2) rest).map (b :: ·)

/-- The number of pairs in `n` bytes, the last one of which may be incomplete. -/
def pairCount (n : ℕ) : ℕ := (n + 1) / 2

theorem mapM_pairAt (n k : ℕ) (pre cs : List Char) (hpre : Rust.byteLen pre = 2 * k) :
    ((List.range' k n).map (2 * ·)).mapM (pairAt (pre ++ cs)) =
      decodePairs n (Rust.byteLen pre) cs := by
  induction n generalizing k pre cs with
  | zero => rfl
  | succ n ih =>
    have hslice := Rust.slice_append_left (ε := TypedError) pre cs 2
    rw [List.range'_succ, List.map_cons, List.mapM_cons, decodePairs, pairAt, ← hpre, hslice]
    cases hcut : Rust.cutAt cs 2 with
    | none => rfl
    | some p =>
      obtain ⟨part, rest⟩ := p
      obtain ⟨rfl, hpart⟩ := Rust.cutAt_eq_some hcut
      have hnext := ih (k + 1) (pre ++ part) rest (by rw [Rust.byteLen_append]; omega)
      rw [List.append_assoc, Rust.byteLen_append, hpart] at hnext
      rw [hnext]
      cases hbyte : fromHex part with
      | none => simp [bind, Except.bind, hbyte]
      | some b =>
        cases hrest : decodePairs n (Rust.byteLen pre + 2) rest <;>
          simp [bind, Except.bind, Except.map, pure, Except.pure, hbyte, hrest]

/-- The loop of the code is that by what is left. -/
theorem decodeText_hex (hex : List Char) :
    decodeText (String.ofList ('\\' :: 'x' :: hex)) =
      decodePairs (pairCount (Rust.byteLen hex)) 0 hex := by
  have hprefix : ['\\', 'x'].isPrefixOf? ('\\' :: 'x' :: hex) = some hex :=
    List.isPrefixOf?_eq_some_iff_append_eq.mpr rfl
  have hloop := mapM_pairAt (pairCount (Rust.byteLen hex)) 0 [] hex rfl
  rw [decodeText, String.toList_ofList, hprefix]
  dsimp only
  rw [positions, List.range_eq_range']
  exact hloop

/-- What is left of the digits ends in the middle of a pair: there is one byte only, or the pair
ends within a character. -/
def Straddles (cs : List Char) : Prop := cs ≠ [] ∧ Rust.cutAt cs 2 = none

/-- Two bytes that are accepted as a pair. -/
def Accepted (part : List Char) : Prop := Rust.byteLen part = 2 ∧ fromHex part ≠ none

theorem pairCount_append {part rest : List Char} (h : Rust.byteLen part = 2) :
    pairCount (Rust.byteLen (part ++ rest)) = pairCount (Rust.byteLen rest) + 1 := by
  rw [Rust.byteLen_append, h, pairCount, pairCount]
  omega

/-- The bytes that accepted pairs stand for. -/
def pairBytes (parts : List (List Char)) : Bytes := parts.filterMap fromHex

/-- The loop over accepted pairs. -/
theorem decodePairs_accepted {parts : List (List Char)} (h : ∀ part ∈ parts, Accepted part)
    (i : ℕ) (rest : List Char) :
    decodePairs (pairCount (Rust.byteLen (parts.flatten ++ rest))) i (parts.flatten ++ rest) =
      (decodePairs (pairCount (Rust.byteLen rest)) (i + 2 * parts.length) rest).map
        (pairBytes parts ++ ·) := by
  induction parts generalizing i with
  | nil => exact (congrFun Except.map_id _).symm
  | cons part parts ih =>
    rw [List.forall_mem_cons] at h
    obtain ⟨⟨hlen, hbyte⟩, h⟩ := h
    obtain ⟨b, hb⟩ := Option.ne_none_iff_exists'.mp hbyte
    have hcut := Rust.cutAt_append part (parts.flatten ++ rest)
    rw [hlen] at hcut
    have hoffset : i + 2 + 2 * parts.length = i + 2 * (part :: parts).length := by
      rw [List.length_cons]
      omega
    rw [List.flatten_cons, List.append_assoc, pairCount_append hlen, decodePairs, hcut]
    dsimp only
    rw [hb]
    dsimp only
    rw [ih h (i + 2), hoffset, pairBytes, pairBytes, List.filterMap_cons_some hb]
    cases decodePairs (pairCount (Rust.byteLen rest)) (i + 2 * (part :: parts).length) rest <;> rfl

/-- **What the loop comes to**: it reads accepted pairs to the end of the text, or up to a pair that
is none, or up to where the text ends in the middle of a pair. -/
theorem decodePairs_cases (i : ℕ) (cs : List Char) :
    ∃ parts rest, cs = parts.flatten ++ rest ∧ (∀ part ∈ parts, Accepted part) ∧
      (rest = [] ∧ decodePairs (pairCount (Rust.byteLen cs)) i cs = .ok (pairBytes parts) ∨
        Straddles rest ∧ decodePairs (pairCount (Rust.byteLen cs)) i cs = .error .panic ∨
        ∃ e, decodePairs (pairCount (Rust.byteLen cs)) i cs = .error (.err e)) := by
  induction hn : pairCount (Rust.byteLen cs) generalizing i cs with
  | zero =>
    have hnil : cs = [] := by
      rw [pairCount] at hn
      exact Rust.byteLen_eq_zero.mp (by omega)
    exact ⟨[], [], hnil, fun part hpart => absurd hpart List.not_mem_nil, .inl ⟨rfl, rfl⟩⟩
  | succ n ih =>
    have hstop : cs = ([] : List (List Char)).flatten ++ cs ∧ ∀ part ∈ [], Accepted part :=
      ⟨rfl, fun part hpart => absurd hpart List.not_mem_nil⟩
    rw [decodePairs]
    cases hcut : Rust.cutAt cs 2 with
    | none =>
      refine ⟨[], cs, hstop.1, hstop.2, .inr (.inl ⟨⟨?_, hcut⟩, rfl⟩)⟩
      rintro rfl
      cases hn
    | some p =>
      obtain ⟨part, rest⟩ := p
      obtain ⟨rfl, hlen⟩ := Rust.cutAt_eq_some hcut
      dsimp only
      cases hbyte : fromHex part with
      | none => exact ⟨[], part ++ rest, hstop.1, hstop.2, .inr (.inr ⟨_, rfl⟩)⟩
      | some b =>
        rw [pairCount_append hlen, Nat.succ.injEq] at hn
        obtain ⟨parts, rest', rfl, hparts, hout⟩ := ih (i + 2) rest hn
        have hpart : Accepted part := ⟨hlen, by rw [hbyte]; exact Option.some_ne_none b⟩
        refine ⟨part :: parts, rest', (List.append_assoc ..).symm,
          List.forall_mem_cons.mpr ⟨hpart, hparts⟩, ?_⟩
        rw [pairBytes, List.filterMap_cons_some hbyte]
        obtain ⟨hrest, hout⟩ | ⟨hrest, hout⟩ | ⟨e, hout⟩ := hout
        · exact .inl ⟨hrest, by rw [hout]; rfl⟩
        · exact .inr (.inl ⟨hrest, by rw [hout]; rfl⟩)
        · exact .inr (.inr ⟨e, by rw [hout]; rfl⟩)

/-! ### Byte strings -/

theorem utf8Size_digitChar : ∀ d < 16, d.digitChar.utf8Size = 1 := by decide

theorem fromHex_hexByte (b : UInt8) : fromHex (hexByte b) = some b := by
  rw [fromHex, hexByte, Rust.fromStrRadix_hexDigits b.toNat_lt]
  exact congrArg some UInt8.ofNat_toNat

theorem accepted_hexByte (b : UInt8) : Accepted (hexByte b) := by
  have hb := b.toNat_lt
  refine ⟨?_, by rw [fromHex_hexByte]; exact Option.some_ne_none b⟩
  rw [hexByte, Rust.byteLen_cons, Rust.byteLen_cons, Rust.byteLen_nil,
    utf8Size_digitChar _ (by omega), utf8Size_digitChar _ (by omega)]

/-- **The hexadecimal format comes back.** -/
theorem decodeText_hexOut (b : Bytes) : decodeText (hexOut b) = .ok b := by
  have hparts : ∀ part ∈ b.map hexByte, Accepted part := by
    intro part hpart
    obtain ⟨x, -, rfl⟩ := List.mem_map.mp hpart
    exact accepted_hexByte x
  have hbytes : pairBytes (b.map hexByte) = b := by
    have hsome : fromHex ∘ hexByte = some := funext fromHex_hexByte
    rw [pairBytes, List.filterMap_map, hsome, List.filterMap_some]
  have hloop := decodePairs_accepted hparts 0 []
  rw [List.append_nil, hbytes] at hloop
  rw [hexOut, decodeText_hex, List.flatMap_def, hloop]
  exact congrArg Except.ok (List.append_nil b)

theorem isPlain_iff {b : UInt8} :
    isPlain b = true ↔ ¬b = 92 ∧ ¬(b < 32 ∨ 126 < b) := by
  simp only [isPlain, Bool.and_eq_true, decide_eq_true_eq, bne_iff_ne, not_or, UInt8.not_lt]
  tauto

theorem escapeByte_of_isPlain {b : UInt8} (h : isPlain b = true) :
    escapeByte b = [Rust.asChar b] := by
  rw [isPlain_iff] at h
  rw [escapeByte, if_neg h.1, if_neg h.2]

/-- A byte that does not stand for itself. -/
theorem escapeByte_of_not_isPlain {b : UInt8} (h : ¬isPlain b = true) :
    ∃ c cs, escapeByte b = '\\' :: c :: cs ∧ c ≠ 'x' ∧ ∀ d ∈ c :: cs, d.toNat < 128 := by
  have hdigit : ∀ d < 8, d.digitChar ≠ 'x' ∧ d.digitChar.toNat < 128 := by decide
  rw [isPlain_iff, not_and_or, not_not, not_not] at h
  by_cases hb : b = 92
  · exact ⟨'\\', [], by rw [escapeByte, if_pos hb], by decide,
      List.forall_mem_singleton.mpr (by decide)⟩
  · have hn := b.toNat_lt
    have hhigh := hdigit (b.toNat / 64) (by omega)
    have hmid := hdigit (b.toNat / 8 % 8) (by omega)
    have hlow := hdigit (b.toNat % 8) (by omega)
    refine ⟨(b.toNat / 64).digitChar, [(b.toNat / 8 % 8).digitChar, (b.toNat % 8).digitChar],
      by rw [escapeByte, if_neg hb, if_pos (h.resolve_left hb)], hhigh.1, ?_⟩
    simp only [List.forall_mem_cons]
    exact ⟨hhigh.2, hmid.2, hlow.2, fun d hd => absurd hd List.not_mem_nil⟩

theorem ascii_escapeByte (b : UInt8) : ∀ c ∈ escapeByte b, c.toNat < 128 := by
  by_cases h : isPlain b = true
  · have hplain := isPlain_iff.mp h
    rw [escapeByte_of_isPlain h, List.forall_mem_singleton, Rust.toNat_asChar]
    have := UInt8.le_iff_toNat_le.mp (UInt8.not_lt.mp (not_or.mp hplain.2).2)
    exact Nat.lt_of_le_of_lt this (by decide)
  · obtain ⟨c, cs, hcs, -, hascii⟩ := escapeByte_of_not_isPlain h
    rw [hcs, List.forall_mem_cons]
    exact ⟨by decide, hascii⟩

/-- A text in the escape format does not look like one in the hexadecimal format. -/
theorem isPrefixOf?_escape (b : Bytes) :
    ['\\', 'x'].isPrefixOf? (b.flatMap escapeByte) = none := by
  cases b with
  | nil => rfl
  | cons x b =>
    rw [List.flatMap_cons]
    by_cases h : isPlain x = true
    · have hx : Rust.asChar x ≠ '\\' := by
        intro heq
        have hnat := congrArg Char.toNat heq
        rw [Rust.toNat_asChar] at hnat
        exact (isPlain_iff.mp h).1 (UInt8.toNat_inj.mp hnat)
      rw [escapeByte_of_isPlain h, List.singleton_append, List.isPrefixOf?]
      exact if_neg (by simpa using hx.symm)
    · obtain ⟨c, cs, hcs, hc, -⟩ := escapeByte_of_not_isPlain h
      rw [hcs, List.cons_append, List.cons_append]
      simp [List.isPrefixOf?, hc.symm]

/-- **The escape format comes back** exactly if every byte stands for itself. -/
theorem decodeText_escapeOut_iff (b : Bytes) :
    decodeText (escapeOut b) = .ok b ↔ ∀ x ∈ b, isPlain x = true := by
  have hascii : ∀ c ∈ b.flatMap escapeByte, c.toNat < 128 := by
    intro c hc
    obtain ⟨x, -, hx⟩ := List.mem_flatMap.mp hc
    exact ascii_escapeByte x c hx
  rw [decodeText, escapeOut, String.toList_ofList, isPrefixOf?_escape]
  dsimp only
  rw [PgNumeric.asBytes_ofList hascii, Except.ok.injEq]
  clear hascii
  constructor
  · intro h
    -- a byte that is escaped takes more than one character
    have hlength : ∀ b : Bytes, b.length ≤ (b.flatMap escapeByte).length ∧
        ((b.flatMap escapeByte).length = b.length → ∀ x ∈ b, isPlain x = true) := by
      intro b
      induction b with
      | nil => exact ⟨le_rfl, fun _ x hx => absurd hx List.not_mem_nil⟩
      | cons x b ih =>
        rw [List.flatMap_cons, List.length_append, List.length_cons, List.forall_mem_cons]
        by_cases hx : isPlain x = true
        · rw [escapeByte_of_isPlain hx, List.length_singleton]
          exact ⟨by omega, fun heq => ⟨hx, ih.2 (by omega)⟩⟩
        · obtain ⟨c, cs, hcs, -⟩ := escapeByte_of_not_isPlain hx
          rw [hcs, List.length_cons, List.length_cons]
          exact ⟨by omega, fun heq => absurd heq (by omega)⟩
    refine (hlength b).2 ?_
    have := congrArg List.length h
    rwa [List.length_map] at this
  · intro h
    induction b with
    | nil => rfl
    | cons x b ih =>
      rw [List.forall_mem_cons] at h
      rw [List.flatMap_cons, escapeByte_of_isPlain h.1, List.singleton_append, List.map_cons,
        ih h.2, byte, Rust.toNat_asChar, UInt8.ofNat_toNat]

/-! ### Texts -/

/-- An even number of hexadecimal digits. -/
def EvenHex (hex : List Char) : Prop :=
  hex.length % 2 = 0 ∧ ∀ c ∈ hex, Rust.toDigit 16 c ≠ none

/-- The characters of a pair that is accepted. -/
theorem exists_of_accepted {part : List Char} (h : Accepted part) :
    ∃ c d, part = [c, d] ∧ (c = '+' ∨ Rust.toDigit 16 c ≠ none) ∧ Rust.toDigit 16 d ≠ none := by
  obtain ⟨hlen, hbyte⟩ := h
  rw [fromHex, ne_eq, Option.map_eq_none_iff, ← ne_eq] at hbyte
  rcases part with _ | ⟨c, _ | ⟨d, _ | ⟨e, part⟩⟩⟩
  · cases hlen
  · -- a character of two bytes is no digit
    rw [Rust.byteLen_cons, Rust.byteLen_nil] at hlen
    have hplus : c ≠ '+' := by
      rintro rfl
      cases hlen
    refine absurd ?_ hbyte
    cases hdigit : Rust.toDigit 16 c with
    | none => simp [Rust.fromStrRadix_of_ne_plus 256 16 hplus, Rust.readDigits, hdigit]
    | some n =>
      have hascii := Rust.toDigit_ascii (by decide) hdigit
      have hsize : c.utf8Size = 1 :=
        Char.utf8Size_eq_one_iff.2 (UInt32.le_iff_toNat_le.2 (Nat.le_of_lt_succ hascii))
      omega
  · refine ⟨c, d, rfl, ?_⟩
    by_cases hplus : c = '+'
    · refine ⟨.inl hplus, fun hd => hbyte ?_⟩
      simp [hplus, Rust.fromStrRadix, Rust.readDigits, hd]
    · rw [Rust.fromStrRadix_hex hplus] at hbyte
      refine ⟨.inr fun hc => hbyte ?_, fun hd => hbyte ?_⟩
      · simp [hc]
      · simp [hd]
  · have hc := c.utf8Size_pos
    have hd := d.utf8Size_pos
    have he := e.utf8Size_pos
    simp only [Rust.byteLen_cons] at hlen
    omega

theorem evenHex_flatten {parts : List (List Char)} (h : ∀ part ∈ parts, Accepted part)
    (hplus : ∀ part ∈ parts, part.head? ≠ some '+') : EvenHex parts.flatten := by
  induction parts with
  | nil => exact ⟨rfl, fun c hc => absurd hc List.not_mem_nil⟩
  | cons part parts ih =>
    rw [List.forall_mem_cons] at h hplus
    obtain ⟨c, d, rfl, hc, hd⟩ := exists_of_accepted h.1
    have hc := hc.resolve_left fun heq => hplus.1 (congrArg some heq)
    obtain ⟨heven, hall⟩ := ih h.2 hplus.2
    rw [List.flatten_cons, EvenHex, List.cons_append, List.cons_append, List.nil_append,
      List.forall_mem_cons, List.forall_mem_cons]
    refine ⟨?_, hc, hd, hall⟩
    rw [List.length_cons, List.length_cons]
    omega

theorem decodePairs_straddles {rest : List Char} (h : Straddles rest) (i : ℕ) :
    decodePairs (pairCount (Rust.byteLen rest)) i rest = .error .panic := by
  obtain ⟨hne, hcut⟩ := h
  have hcount : pairCount (Rust.byteLen rest) ≠ 0 := by
    have := mt Rust.byteLen_eq_zero.mp hne
    rw [pairCount]
    omega
  obtain ⟨n, hn⟩ := Nat.exists_eq_succ_of_ne_zero hcount
  rw [hn, decodePairs, hcut]

/-- The digits behind `\x` are neither read as an even number of digits nor refused: they are
accepted pairs up to where the text ends in the middle of a pair, or to its end, and then there is a
plus sign in one of them. -/
def Mishandled (hex : List Char) : Prop :=
  ∃ (parts : List (List Char)) (rest : List Char),
    hex = parts.flatten ++ rest ∧ (∀ part ∈ parts, Accepted part) ∧
      (Straddles rest ∨ rest = [] ∧ ∃ part ∈ parts, part.head? = some '+')

/-- **The digits that are handled as they should be.** -/
theorem decodePairs_iff (hex : List Char) :
    (decodePairs (pairCount (Rust.byteLen hex)) 0 hex).Returns ∧
        (∀ b, decodePairs (pairCount (Rust.byteLen hex)) 0 hex = .ok b → EvenHex hex) ↔
      ¬Mishandled hex := by
  constructor
  · rintro ⟨hreturns, haccepts⟩ ⟨parts, rest, rfl, hparts, hrest⟩
    rw [decodePairs_accepted hparts] at hreturns haccepts
    obtain hstraddles | ⟨rfl, part, hpart, hplus⟩ := hrest
    · exact hreturns (by rw [decodePairs_straddles hstraddles]; rfl)
    · have hhex := (haccepts _ rfl).2
      have hmem : '+' ∈ parts.flatten ++ [] := by
        rw [List.append_nil]
        exact List.mem_flatten.mpr ⟨part, hpart, List.mem_of_head? hplus⟩
      exact hhex '+' hmem (Rust.toDigit_plus (by decide))
  · intro hgood
    obtain ⟨parts, rest, hcs, hparts, hout⟩ := decodePairs_cases 0 hex
    obtain ⟨rfl, hout⟩ | ⟨hrest, -⟩ | ⟨e, hout⟩ := hout
    · rw [hout]
      refine ⟨fun h => (by cases h), fun b _ => ?_⟩
      have hplus : ∀ part ∈ parts, part.head? ≠ some '+' := fun part hpart heq =>
        hgood ⟨parts, [], hcs, hparts, .inr ⟨rfl, part, hpart, heq⟩⟩
      rw [hcs, List.append_nil]
      exact evenHex_flatten hparts hplus
    · exact absurd ⟨parts, rest, hcs, hparts, .inl hrest⟩ hgood
    · rw [hout]
      exact ⟨fun h => (by cases h), fun b h => (by cases h)⟩

/-- **Byte strings and texts that are read as they should be.**  The hexadecimal format always comes
back, the escape format if every byte stands for itself; a text is accepted only with an even number
of digits, and otherwise refused, unless it is one of the mishandled ones. -/
theorem decodeText_exact_iff (b : Bytes) (s : String) :
    decodeText (hexOut b) = .ok b ∧
      (decodeText (escapeOut b) = .ok b ↔ ∀ x ∈ b, isPlain x = true) ∧
      ((decodeText s).Returns ∧
          (∀ hex b, s.toList = '\\' :: 'x' :: hex → decodeText s = .ok b → EvenHex hex) ↔
        ∀ hex, s.toList = '\\' :: 'x' :: hex → ¬Mishandled hex) := by
  refine ⟨decodeText_hexOut b, decodeText_escapeOut_iff b, ?_⟩
  by_cases hprefix : ∃ hex, s.toList = '\\' :: 'x' :: hex
  · obtain ⟨hex, hs⟩ := hprefix
    have hdecode := decodeText_hex hex
    rw [← hs, String.ofList_toList] at hdecode
    rw [hdecode]
    constructor
    · rintro ⟨hreturns, haccepts⟩ hex' hs'
      obtain rfl : hex = hex' := by simpa using hs.symm.trans hs'
      exact (decodePairs_iff hex).mp ⟨hreturns, fun b => haccepts hex b hs⟩
    · intro hgood
      obtain ⟨hreturns, haccepts⟩ := (decodePairs_iff hex).mpr (hgood hex hs)
      refine ⟨hreturns, fun hex' b hs' => ?_⟩
      obtain rfl : hex = hex' := by simpa using hs.symm.trans hs'
      exact haccepts b
  · have hnone : ['\\', 'x'].isPrefixOf? s.toList = none := by
      rw [Option.eq_none_iff_forall_ne_some]
      intro hex hsome
      exact hprefix ⟨hex, (List.isPrefixOf?_eq_some_iff_append_eq.mp hsome).symm⟩
    rw [decodeText, hnone]
    exact iff_of_true
      ⟨fun h => (by cases h), fun hex b hs => absurd ⟨hex, hs⟩ hprefix⟩
      fun hex hs => absurd ⟨hex, hs⟩ hprefix

/-- A null byte does not come back from the escape format, a single digit makes the client panic,
and a plus sign is accepted. -/
theorem decodeText_null_digit_plus : decodeText (escapeOut [0]) ≠ .ok [0] ∧
    decodeText "\\xa" = .error .panic ∧ decodeText "\\x+a" = .ok [10] := by
  decide

end ByteaText

end Resolute
