import Mathlib.Tactic.Common
import Resolute.Codec.Basic
import Resolute.Rust.Str

/-!
# The labels of enums

`derive(PgEnum)` gives every variant of an enum a label: its `rename`, or else its identifier under
the `rename_all` rule of the enum (`getVariantLabel`, `applyRenameRule`).  `Encode` writes the label
of a variant; `Decode` and `DecodeText` have a match arm for each variant, with its label as the
pattern, and the first arm that fits returns its variant.  So a value survives unless an earlier
variant has the `SameLabel`.

Rust's tables of upper and lower case are a parameter, a `Casing`.  Most rules go by the `words` of
an identifier: `toSnakeCase` puts an underscore in front of a capital that begins a word, and an
underscore of the identifier itself separates two words as well (`toSnakeCase_eq`).  From this
follows which identifiers a rule does not distinguish (`applyRenameRule_eq_iff`), and from that the
enums whose values survive (`StringEnum.roundTrips_iff`).
-/

namespace Resolute.PgEnum

/-! ### Upper and lower case -/

/-- The methods of `char` and `str` that know Unicode. -/
structure Casing where
  isUppercase : Char → Bool
  isLowercase : Char → Bool
  /-- `char::to_lowercase` -/
  toLowercase : Char → List Char
  /-- `char::to_uppercase` -/
  toUppercase : Char → List Char
  /-- `str::to_lowercase`, which looks at what is around a sigma. -/
  strToLowercase : List Char → List Char
  /-- `{:?}` of a string. -/
  debug : String → String
  isUppercase_underscore : isUppercase '_' = false
  toUppercase_underscore : toUppercase '_' = ['_']
  toLowercase_plain : ∀ c, isUppercase c = true → ∀ d ∈ toLowercase c, d ≠ '_' ∧ d ≠ '-'
  toUppercase_plain : ∀ c, c ≠ '_' → '_' ∉ toUppercase c

namespace Casing

theorem toLower_plain {c : Char} (h : c.isUpper = true) :
    ∀ d ∈ [c.toLower], d ≠ '_' ∧ d ≠ '-' := by
  intro d hd
  obtain rfl := List.mem_singleton.mp hd
  have hupper := Rust.isUpper_iff.mp h
  have heq : c.toLower = _ := dif_pos (decide_eq_true_iff.mp h)
  have hlower : c.toLower.toNat = c.toNat + 32 := by
    rw [heq]
    change (c.val + 32).toNat = c.val.toNat + 32
    rw [UInt32.toNat_add]
    exact Nat.mod_eq_of_lt (Nat.lt_of_le_of_lt (Nat.add_le_add_right hupper.2 32) (by decide))
  refine ⟨?_, ?_⟩ <;> intro heq <;> rw [heq] at hlower
  · have hunderscore : '_'.toNat = 95 := rfl
    omega
  · have hhyphen : '-'.toNat = 45 := rfl
    omega

theorem toUpper_plain {c : Char} (h : c ≠ '_') : '_' ∉ [c.toUpper] := by
  rw [List.mem_singleton]
  intro heq
  by_cases hlower : 'a'.val ≤ c.val ∧ c.val ≤ 'z'.val
  · have hbounds : 97 ≤ c.val.toNat ∧ c.val.toNat ≤ 122 := by
      simpa [UInt32.le_iff_toNat_le] using hlower
    have hupper : c.toUpper = _ := dif_pos hlower
    have hval := congrArg Char.toNat (heq.trans hupper)
    simp only [Char.toNat, UInt32.toNat_add] at hval
    have hshift : ('A'.val - 'a'.val).toNat = 2 ^ 32 - 32 := rfl
    have hunderscore : '_'.val.toNat = 95 := rfl
    rw [hshift, hunderscore] at hval
    omega
  · have hsame : c.toUpper = c := dif_neg hlower
    exact h (heq.trans hsame).symm

/-- The letters of ASCII only. -/
def ascii : Casing where
  isUppercase := Char.isUpper
  isLowercase := Char.isLower
  toLowercase c := [c.toLower]
  toUppercase c := [c.toUpper]
  strToLowercase cs := cs.map Char.toLower
  debug s := "\"" ++ s ++ "\""
  isUppercase_underscore := rfl
  toUppercase_underscore := rfl
  toLowercase_plain _ := toLower_plain
  toUppercase_plain _ := toUpper_plain

variable (U : Casing)

/-- `str::to_uppercase` -/
def strToUppercase (cs : List Char) : List Char := cs.flatMap U.toUppercase

/-! ### The rules -/

/-- A capital begins a word behind a small letter, and between a capital and a small letter. -/
def beginsWord (prev : Option Char) (next : List Char) : Bool :=
  prev.any fun p => U.isLowercase p || U.isUppercase p && next.head?.any U.isLowercase

/-- The loop of `to_snake_case`, behind a character. -/
def snakeFrom : (prev : Option Char) → List Char → List Char
  | _, [] => []
  | prev, c :: cs =>
    if U.isUppercase c then
      (if U.beginsWord prev cs then ['_'] else []) ++ U.toLowercase c ++ snakeFrom (some c) cs
    else c :: snakeFrom (some c) cs

def toSnakeCase (name : List Char) : List Char := U.snakeFrom none name

/-- The loop of `camelCase`; `first` at index 0. -/
def camelFrom : (first capitalizeNext : Bool) → List Char → List Char
  | _, _, [] => []
  | first, capitalizeNext, c :: cs =>
    if c = '_' then camelFrom false true cs
    else if capitalizeNext then U.toUppercase c ++ camelFrom false false cs
    else if first then U.toLowercase c ++ camelFrom false false cs
    else c :: camelFrom false false cs

def applyRenameRule (name : List Char) (rule : String) : List Char :=
  match rule with
  | "snake_case" => U.toSnakeCase name
  | "lowercase" => U.strToLowercase name
  | "UPPERCASE" => U.strToUppercase name
  | "SCREAMING_SNAKE_CASE" => U.strToUppercase (U.toSnakeCase name)
  | "camelCase" => U.camelFrom true false (U.toSnakeCase name)
  | "PascalCase" => name
  | "kebab-case" => (U.toSnakeCase name).map fun c => if c = '_' then '-' else c
  | _ => U.toSnakeCase name

end Casing

/-! ### Attributes -/

/-- `key = "value"` in an attribute. -/
structure Meta where
  path : String
  value : String
  deriving DecidableEq, Repr

/-- The last value of a key in an attribute. -/
def attrValue (key : String) (attr : List Meta) : Option String :=
  attr.foldl (fun value m => if m.path = key then some m.value else value) none

/-- The value of a key in the first of the `pg_type` attributes that has it. -/
def pgTypeValue (key : String) (attrs : List (List Meta)) : Option String :=
  attrs.findSome? (attrValue key)

/-- `get_container_rename_all` -/
def getContainerRenameAll (attrs : List (List Meta)) : String :=
  (pgTypeValue "rename_all" attrs).getD "snake_case"

/-- A variant; there is no hyphen in an identifier. -/
structure Variant where
  ident : String
  attrs : List (List Meta)
  ident_plain : '-' ∉ ident.toList
  deriving DecidableEq

/-- `rename` of a variant. -/
def Variant.rename (v : Variant) : Option String := pgTypeValue "rename" v.attrs

def getVariantLabel (U : Casing) (v : Variant) (renameAll : String) : String :=
  match v.rename with
  | some value => value
  | none => String.ofList (U.applyRenameRule v.ident.toList renameAll)

/-! ### The codecs -/

/-- An enum that `derive(PgEnum)` is for; Rust refuses two variants with one identifier. -/
structure StringEnum where
  name : String
  attrs : List (List Meta)
  variants : List Variant
  nodup : (variants.map Variant.ident).Nodup

namespace StringEnum

variable (E : StringEnum) (U : Casing)

/-- A value of the enum. -/
abbrev Value := {v : Variant // v ∈ E.variants}

def renameAll : String := getContainerRenameAll E.attrs

def label (v : E.Value) : String := getVariantLabel U v.1 E.renameAll

/-- The match arms of the decoders. -/
def decodeArms : List (String × E.Value) := E.variants.attach.map fun v => (E.label U v, v)

def encode (v : E.Value) (buf : Bytes) : Bytes := buf ++ asBytes (E.label U v)

def decodeText (s : String) : Decoded E.Value :=
  match (E.decodeArms U).find? fun arm => arm.1 == s with
  | some arm => .ok arm.2
  | none => .err 0 s!"unknown {E.name} variant: {U.debug s}"

def decode (buf : Bytes) : Decoded E.Value :=
  match fromUtf8 buf with
  | none => .err 0 s!"enum: invalid UTF-8: {utf8Error buf.length 0 buf}"
  | some s => E.decodeText U s

/-- Every value comes back from what `encode` writes for it. -/
def RoundTrips : Prop :=
  ∀ v, E.decode U (E.encode U v []) = .ok v ∧ E.decodeText U (E.label U v) = .ok v

end StringEnum

/-! ### The words of an identifier -/

namespace Casing

variable (U : Casing)

/-- A character of a word. -/
def smallChar (c : Char) : List Char := if U.isUppercase c then U.toLowercase c else [c]

/-- The words of what is behind a character; the first of them may be the rest of a word. -/
def wordsFrom : (prev : Option Char) → List Char → List (List Char)
  | _, [] => [[]]
  | prev, c :: cs =>
    if c = '_' then [] :: wordsFrom (some c) cs
    else
      let ws := (wordsFrom (some c) cs).modifyHead (U.smallChar c ++ ·)
      if U.isUppercase c && U.beginsWord prev cs then [] :: ws else ws

/-- The words of an identifier, in small letters. -/
def words (name : List Char) : List (List Char) := U.wordsFrom none name

/-- A word with its first letter changed. -/
def mapFirst (f : Char → List Char) : List Char → List Char
  | [] => []
  | c :: cs => f c ++ cs

/-- The words one after another, with capitals where words begin, except at the front. -/
def camel : List (List Char) → List Char
  | [] => []
  | w :: ws => mapFirst U.toLowercase w ++ ws.flatMap (mapFirst U.toUppercase)

/-- A rule makes the same text of two identifiers. -/
def SameText (rule : String) (x y : List Char) : Prop :=
  match rule with
  | "lowercase" => U.strToLowercase x = U.strToLowercase y
  | "UPPERCASE" => U.strToUppercase x = U.strToUppercase y
  | "SCREAMING_SNAKE_CASE" => (U.words x).map U.strToUppercase = (U.words y).map U.strToUppercase
  | "camelCase" => U.camel (U.words x) = U.camel (U.words y)
  | "PascalCase" => x = y
  | _ => U.words x = U.words y

variable {U}

theorem wordsFrom_ne_nil (prev : Option Char) (cs : List Char) : U.wordsFrom prev cs ≠ [] := by
  induction cs generalizing prev with
  | nil => simp [wordsFrom]
  | cons c cs ih =>
    have := ih (some c)
    simp only [wordsFrom]
    split_ifs <;> simp_all [List.modifyHead_eq_nil_iff]

theorem smallChar_plain {c : Char} (h : c ≠ '_') : '_' ∉ U.smallChar c := by
  unfold smallChar
  split_ifs with hupper
  · intro hmem
    exact (U.toLowercase_plain c hupper _ hmem).1 rfl
  · simpa using h.symm

theorem intercalate_modifyHead {α : Type} (sep p : List α) {ws : List (List α)} (h : ws ≠ []) :
    sep.intercalate (ws.modifyHead (p ++ ·)) = p ++ sep.intercalate ws := by
  obtain ⟨w, ws, rfl⟩ := List.exists_cons_of_ne_nil h
  cases ws with
  | nil => simp
  | cons w' ws => simp [List.intercalate, List.intersperse]

theorem intercalate_nil_cons {α : Type} (sep : List α) {ws : List (List α)} (h : ws ≠ []) :
    sep.intercalate ([] :: ws) = sep ++ sep.intercalate ws := by
  obtain ⟨w, ws, rfl⟩ := List.exists_cons_of_ne_nil h
  simp [List.intercalate, List.intersperse]

theorem snakeFrom_eq (prev : Option Char) (cs : List Char) :
    U.snakeFrom prev cs = ['_'].intercalate (U.wordsFrom prev cs) := by
  induction cs generalizing prev with
  | nil => rfl
  | cons c cs ih =>
    have hne := wordsFrom_ne_nil (U := U) (some c) cs
    simp only [snakeFrom, wordsFrom, ih]
    by_cases hc : c = '_'
    · subst hc
      rw [if_neg (by simp [U.isUppercase_underscore]), if_pos rfl, intercalate_nil_cons _ hne]
      rfl
    · have hjoin := intercalate_modifyHead ['_'] (U.smallChar c) hne
      have hne' : (U.wordsFrom (some c) cs).modifyHead (U.smallChar c ++ ·) ≠ [] := by
        rwa [ne_eq, List.modifyHead_eq_nil_iff]
      rw [if_neg hc]
      cases hupper : U.isUppercase c with
      | false =>
        have hsmall : U.smallChar c = [c] := if_neg (by simp [hupper])
        simp only [Bool.false_and, Bool.false_eq_true, if_false, hjoin]
        rw [hsmall]
        rfl
      | true =>
        have hsmall : U.smallChar c = U.toLowercase c := if_pos hupper
        rw [if_pos rfl, ← hsmall]
        cases hbegins : U.beginsWord prev cs with
        | false => simp [hjoin]
        | true => simp [intercalate_nil_cons _ hne', hjoin]

/-- **Snake case** is the words of an identifier, with an underscore between two of them. -/
theorem toSnakeCase_eq (name : List Char) : U.toSnakeCase name = ['_'].intercalate (U.words name) :=
  snakeFrom_eq none name

theorem words_ne_nil (name : List Char) : U.words name ≠ [] := wordsFrom_ne_nil none name

theorem notMem_wordsFrom {d : Char} {prev : Option Char} {cs : List Char}
    (h : ∀ c ∈ cs, c ≠ '_' → d ∉ U.smallChar c) : ∀ w ∈ U.wordsFrom prev cs, d ∉ w := by
  induction cs generalizing prev with
  | nil => simp [wordsFrom]
  | cons c cs ih =>
    have hrest := @ih (some c) fun c' hc' => h c' (List.mem_cons_of_mem _ hc')
    simp only [wordsFrom]
    by_cases hc : c = '_'
    · rw [if_pos hc]
      exact List.forall_mem_cons.mpr ⟨by simp, hrest⟩
    · have hmod : ∀ w ∈ (U.wordsFrom (some c) cs).modifyHead (U.smallChar c ++ ·), d ∉ w := by
        obtain ⟨w, ws, hws⟩ := List.exists_cons_of_ne_nil (wordsFrom_ne_nil (U := U) (some c) cs)
        rw [hws] at hrest ⊢
        obtain ⟨hw, hws'⟩ := List.forall_mem_cons.mp hrest
        refine List.forall_mem_cons.mpr ⟨?_, hws'⟩
        rw [List.mem_append, not_or]
        exact ⟨h c List.mem_cons_self hc, hw⟩
      rw [if_neg hc]
      split_ifs
      · exact List.forall_mem_cons.mpr ⟨by simp, hmod⟩
      · exact hmod

theorem underscore_notMem_words {name : List Char} : ∀ w ∈ U.words name, '_' ∉ w :=
  notMem_wordsFrom fun _ _ hc => smallChar_plain hc

theorem hyphen_notMem_words {name : List Char} (h : '-' ∉ name) : ∀ w ∈ U.words name, '-' ∉ w := by
  refine notMem_wordsFrom fun c hmem _ => ?_
  unfold smallChar
  split_ifs with hupper
  · intro hd
    exact (U.toLowercase_plain c hupper _ hd).2 rfl
  · rw [List.mem_singleton]
    exact fun hd => h (hd ▸ hmem)

/-! ### The texts of a rule -/

theorem intercalate_inj {d : Char} {ws ws' : List (List Char)} (hne : ws ≠ []) (hne' : ws' ≠ [])
    (hws : ∀ w ∈ ws, d ∉ w) (hws' : ∀ w ∈ ws', d ∉ w) :
    [d].intercalate ws = [d].intercalate ws' ↔ ws = ws' := by
  constructor
  · intro h
    rw [← List.splitOn_intercalate d hws hne, h, List.splitOn_intercalate d hws' hne']
  · intro h
    rw [h]

theorem flatMap_intercalate {sep sep' : List Char} {f : Char → List Char}
    (hsep : sep.flatMap f = sep') (ws : List (List Char)) :
    (sep.intercalate ws).flatMap f = sep'.intercalate (ws.map (·.flatMap f)) := by
  induction ws with
  | nil => rfl
  | cons w ws ih =>
    cases ws with
    | nil => simp
    | cons w' ws => simp_all [List.intercalate, List.intersperse]

theorem strToUppercase_intercalate (ws : List (List Char)) :
    U.strToUppercase (['_'].intercalate ws) = ['_'].intercalate (ws.map U.strToUppercase) :=
  flatMap_intercalate (by simp [U.toUppercase_underscore]) ws

theorem kebab_intercalate {ws : List (List Char)} (h : ∀ w ∈ ws, '_' ∉ w) :
    (['_'].intercalate ws).map (fun c => if c = '_' then '-' else c) = ['-'].intercalate ws := by
  have hsep : (['_'].flatMap fun c => [if c = '_' then '-' else c]) = ['-'] := rfl
  rw [List.map_eq_flatMap, flatMap_intercalate hsep]
  congr 1
  refine (List.map_congr_left fun w hw => ?_).trans (List.map_id ws)
  rw [← List.map_eq_flatMap]
  refine (List.map_congr_left fun c hc => if_neg ?_).trans (List.map_id w)
  exact fun heq => h w hw (heq ▸ hc)

theorem underscore_notMem_upper {ws : List (List Char)} (h : ∀ w ∈ ws, '_' ∉ w) :
    ∀ w ∈ ws.map U.strToUppercase, '_' ∉ w := by
  intro w hw
  obtain ⟨w, hmem, rfl⟩ := List.mem_map.mp hw
  rw [strToUppercase, List.mem_flatMap]
  rintro ⟨c, hc, hupper⟩
  exact U.toUppercase_plain c (fun heq => h w hmem (heq ▸ hc)) hupper

theorem camelFrom_plain {w : List Char} (h : '_' ∉ w) (rest : List Char) :
    U.camelFrom false false (w ++ rest) = w ++ U.camelFrom false false rest := by
  induction w with
  | nil => rfl
  | cons c w ih =>
    obtain ⟨hc, hw⟩ := not_or.mp (mt List.mem_cons.mpr h)
    rw [List.cons_append, camelFrom, if_neg (Ne.symm hc), if_neg (by simp), if_neg (by simp), ih hw]
    rfl

theorem intercalate_cons (d : Char) (w : List Char) (ws : List (List Char)) :
    [d].intercalate (w :: ws) = w ++ ws.flatMap (d :: ·) := by
  induction ws generalizing w with
  | nil => simp
  | cons w' ws ih =>
    rw [List.flatMap_cons, List.cons_append, ← ih w']
    simp [List.intercalate, List.intersperse]

variable (U) in
/-- What the loop of `camelCase` does at the beginning of a word. -/
def camelFirst (first capitalizeNext : Bool) (c : Char) : List Char :=
  if capitalizeNext then U.toUppercase c else if first then U.toLowercase c else [c]

theorem camelFrom_word {w : List Char} (h : '_' ∉ w) (first capitalizeNext : Bool)
    (ws : List (List Char)) :
    U.camelFrom first capitalizeNext (w ++ ws.flatMap ('_' :: ·)) =
      mapFirst (U.camelFirst first capitalizeNext) w ++
        U.camelFrom false false (ws.flatMap ('_' :: ·)) := by
  cases w with
  | nil => cases ws <;> simp [camelFrom, mapFirst]
  | cons c w =>
    obtain ⟨hc, hw⟩ := not_or.mp (mt List.mem_cons.mpr h)
    rw [List.cons_append, camelFrom, if_neg (Ne.symm hc), camelFrom_plain hw, mapFirst]
    unfold camelFirst
    split_ifs <;> simp

theorem camelFrom_words {w : List Char} {ws : List (List Char)} (first capitalizeNext : Bool)
    (h : ∀ v ∈ w :: ws, '_' ∉ v) :
    U.camelFrom first capitalizeNext (w ++ ws.flatMap ('_' :: ·)) =
      mapFirst (U.camelFirst first capitalizeNext) w ++ ws.flatMap (mapFirst U.toUppercase) := by
  induction ws generalizing w first capitalizeNext with
  | nil => simpa [camelFrom] using camelFrom_word (h w List.mem_cons_self) first capitalizeNext []
  | cons v ws ih =>
    obtain ⟨hw, hvs⟩ := List.forall_mem_cons.mp h
    rw [camelFrom_word hw, List.flatMap_cons, List.cons_append, camelFrom, if_pos rfl,
      ih false true hvs]
    rfl

theorem camelFrom_intercalate {ws : List (List Char)} (hne : ws ≠ []) (h : ∀ w ∈ ws, '_' ∉ w) :
    U.camelFrom true false (['_'].intercalate ws) = U.camel ws := by
  obtain ⟨w, ws, rfl⟩ := List.exists_cons_of_ne_nil hne
  rw [intercalate_cons, camelFrom_words true false h]
  rfl

/-- **The texts of a rule.**  What a rule does not distinguish is the same words, or the same
letters. -/
theorem applyRenameRule_eq_iff {x y : List Char} (hx : '-' ∉ x) (hy : '-' ∉ y) (rule : String) :
    U.applyRenameRule x rule = U.applyRenameRule y rule ↔ U.SameText rule x y := by
  have hsnake : U.toSnakeCase x = U.toSnakeCase y ↔ U.words x = U.words y := by
    rw [toSnakeCase_eq, toSnakeCase_eq]
    exact intercalate_inj (words_ne_nil x) (words_ne_nil y) underscore_notMem_words
      underscore_notMem_words
  have hscreaming : U.strToUppercase (U.toSnakeCase x) = U.strToUppercase (U.toSnakeCase y) ↔
      (U.words x).map U.strToUppercase = (U.words y).map U.strToUppercase := by
    rw [toSnakeCase_eq, toSnakeCase_eq, strToUppercase_intercalate, strToUppercase_intercalate]
    exact intercalate_inj (by simp [words_ne_nil]) (by simp [words_ne_nil])
      (underscore_notMem_upper underscore_notMem_words)
      (underscore_notMem_upper underscore_notMem_words)
  have hcamel : U.camelFrom true false (U.toSnakeCase x) =
      U.camelFrom true false (U.toSnakeCase y) ↔ U.camel (U.words x) = U.camel (U.words y) := by
    rw [toSnakeCase_eq, toSnakeCase_eq, camelFrom_intercalate (words_ne_nil x)
      underscore_notMem_words, camelFrom_intercalate (words_ne_nil y) underscore_notMem_words]
  have hkebab : (U.toSnakeCase x).map (fun c => if c = '_' then '-' else c) =
      (U.toSnakeCase y).map (fun c => if c = '_' then '-' else c) ↔ U.words x = U.words y := by
    rw [toSnakeCase_eq, toSnakeCase_eq, kebab_intercalate underscore_notMem_words,
      kebab_intercalate underscore_notMem_words]
    exact intercalate_inj (words_ne_nil x) (words_ne_nil y) (hyphen_notMem_words hx)
      (hyphen_notMem_words hy)
  unfold applyRenameRule SameText
  split <;> simp_all

end Casing

/-! ### Labels -/

/-- Two variants have one label: the same `rename`, or a `rename` that is what the rule makes of the
other identifier, or identifiers that the rule does not distinguish. -/
def SameLabel (U : Casing) (rule : String) (u v : Variant) : Prop :=
  match u.rename, v.rename with
  | some s, some t => s = t
  | some s, none => s.toList = U.applyRenameRule v.ident.toList rule
  | none, some t => U.applyRenameRule u.ident.toList rule = t.toList
  | none, none => U.SameText rule u.ident.toList v.ident.toList

theorem getVariantLabel_eq_iff {U : Casing} {rule : String} (u v : Variant) :
    getVariantLabel U u rule = getVariantLabel U v rule ↔ SameLabel U rule u v := by
  unfold getVariantLabel SameLabel
  cases u.rename <;> cases v.rename
  · exact String.ofList_inj.trans (Casing.applyRenameRule_eq_iff u.ident_plain v.ident_plain rule)
  · rw [← String.toList_inj, String.toList_ofList]
  · rw [← String.toList_inj, String.toList_ofList]
  · rfl

namespace StringEnum

variable {E : StringEnum} {U : Casing}

theorem decode_encode (v : E.Value) :
    E.decode U (E.encode U v []) = E.decodeText U (E.label U v) := by
  rw [encode, List.nil_append, decode, fromUtf8_asBytes]

/-- The arm that fits a label returns a variant with this label. -/
theorem decodeText_eq_ok {u : E.Value} {s : String} (h : E.decodeText U s = .ok u) :
    E.label U u = s := by
  unfold decodeText at h
  cases harm : (E.decodeArms U).find? fun arm => arm.1 == s with
  | none => simp [harm, Decoded.err] at h
  | some arm =>
    obtain ⟨u', -, rfl⟩ := List.mem_map.mp (List.mem_of_find?_eq_some harm)
    obtain rfl : u' = u := by simpa [harm] using h
    simpa using List.find?_some harm

/-- There is an arm for every label. -/
theorem exists_decodeText_label (v : E.Value) : ∃ u, E.decodeText U (E.label U v) = .ok u := by
  cases harm : (E.decodeArms U).find? fun arm => arm.1 == E.label U v with
  | none =>
    have hmem : (E.label U v, v) ∈ E.decodeArms U :=
      List.mem_map_of_mem (List.mem_attach E.variants v)
    have hno := List.find?_eq_none.mp harm _ hmem
    exact absurd (beq_self_eq_true (E.label U v)) hno
  | some arm => exact ⟨arm.2, by rw [decodeText, harm]⟩

/-- **Enum codecs round-trip** exactly if no two variants have one label. -/
theorem roundTrips_iff :
    E.RoundTrips U ↔ ∀ u v : E.Value, SameLabel U E.renameAll u.1 v.1 → u = v := by
  constructor
  · intro h u v hsame
    have hlabel : E.label U u = E.label U v := (getVariantLabel_eq_iff u.1 v.1).mpr hsame
    have hu := (h u).2
    rw [hlabel, (h v).2] at hu
    exact (Except.ok.inj hu).symm
  · intro h v
    obtain ⟨u, hu⟩ := exists_decodeText_label (U := U) v
    obtain rfl := h u v ((getVariantLabel_eq_iff u.1 v.1).mp (decodeText_eq_ok hu))
    exact ⟨(decode_encode u).trans hu, hu⟩

/-- `FooBar` and `Foo_Bar` are two identifiers of the words `foo` and `bar`. -/
def fooBars : StringEnum where
  name := "Both"
  attrs := []
  variants := [⟨"FooBar", [], by decide⟩, ⟨"Foo_Bar", [], by decide⟩]
  nodup := by decide

/-- The second variant is written as `foo_bar`, and read as the first. -/
theorem fooBars_lose : ¬fooBars.RoundTrips .ascii := by
  intro h
  have hlost := (h ⟨⟨"Foo_Bar", [], by decide⟩, by decide⟩).2
  revert hlost
  decide

end StringEnum

end Resolute.PgEnum
