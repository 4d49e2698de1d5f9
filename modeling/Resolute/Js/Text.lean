import Resolute.Rust.Utf8
import Resolute.Wire.Types

/-!
# Strings of JavaScript

A string of JavaScript is a list of UTF-16 code units (`utf16`), which determine the text.  A
character of ASCII is one unit, as it is one byte in UTF-8; any other character has fewer units than
bytes, so only the texts in ASCII have as many units as bytes (`length_utf16_eq_iff`).  `slice`
takes what is between two positions of the units.
-/

namespace Resolute.Js

open Rust (byteLen isAscii utf8)

/-! ### Code units -/

/-- The code units of a character. -/
def utf16Char (c : Char) : List ℕ :=
  if c.toNat < 0x10000 then [c.toNat]
  else [0xD800 + (c.toNat - 0x10000) / 0x400, 0xDC00 + (c.toNat - 0x10000) % 0x400]

/-- The code units of a text. -/
def utf16 (cs : List Char) : List ℕ := cs.flatMap utf16Char

@[simp] theorem utf16_nil : utf16 [] = [] := rfl

@[simp] theorem utf16_cons (c : Char) (cs : List Char) :
    utf16 (c :: cs) = utf16Char c ++ utf16 cs := List.flatMap_cons

@[simp] theorem utf16_append (cs ds : List Char) : utf16 (cs ++ ds) = utf16 cs ++ utf16 ds :=
  List.flatMap_append

theorem toNat_range (c : Char) : c.toNat < 0xD800 ∨ 0xDFFF < c.toNat ∧ c.toNat < 0x110000 :=
  c.valid

/-- A character is read off the front of a string. -/
theorem utf16Char_inj {c d : Char} {us vs : List ℕ} (h : utf16Char c ++ us = utf16Char d ++ vs) :
    c = d ∧ us = vs := by
  have hc := toNat_range c
  have hd := toNat_range d
  simp only [utf16Char] at h
  have hnat : c.toNat = d.toNat ∧ us = vs := by
    split_ifs at h with h₁ h₂ h₂
    all_goals
      simp only [List.cons_append, List.nil_append, List.cons.injEq] at h
      first
        | exact ⟨h.1, h.2⟩
        | exact ⟨by omega, h.2.2⟩
        | omega
  exact ⟨Char.toNat_inj.mp hnat.1, hnat.2⟩

theorem utf16Char_ne_nil (c : Char) : utf16Char c ≠ [] := by
  unfold utf16Char
  split_ifs <;> exact List.cons_ne_nil _ _

theorem utf16_eq_nil {cs : List Char} : utf16 cs = [] ↔ cs = [] := by
  cases cs with
  | nil => simp
  | cons c cs => simp [utf16Char_ne_nil]

theorem utf16_injective : Function.Injective utf16 := by
  intro cs ds h
  induction cs generalizing ds with
  | nil => exact (utf16_eq_nil.mp h.symm).symm
  | cons c cs ih =>
    cases ds with
    | nil => exact utf16_eq_nil.mp h
    | cons d ds =>
      obtain ⟨rfl, hrest⟩ := utf16Char_inj h
      rw [ih hrest]

/-! ### Units and bytes -/

theorem length_utf16Char_le (c : Char) : (utf16Char c).length ≤ c.utf8Size ∧
    ((utf16Char c).length = c.utf8Size ↔ isAscii c = true) := by
  have hval : c.val.toNat = c.toNat := rfl
  rw [← Rust.utf8Size_eq_one_iff]
  simp only [utf16Char, Char.utf8Size, UInt32.le_iff_toNat_le, hval, UInt32.toNat_ofNatLT]
  split_ifs <;> simp <;> omega

theorem length_utf16_le (cs : List Char) : (utf16 cs).length ≤ byteLen cs := by
  induction cs with
  | nil => simp
  | cons c cs ih =>
    have hc := (length_utf16Char_le c).1
    simp only [utf16_cons, List.length_append, Rust.byteLen_cons]
    omega

/-- The texts of ASCII are those with as many units as bytes. -/
theorem length_utf16_eq_iff (cs : List Char) :
    (utf16 cs).length = byteLen cs ↔ ∀ c ∈ cs, isAscii c = true := by
  induction cs with
  | nil => simp
  | cons c cs ih =>
    obtain ⟨hle, hiff⟩ := length_utf16Char_le c
    have hcs := length_utf16_le cs
    rw [List.forall_mem_cons, ← ih, ← hiff]
    simp only [utf16_cons, List.length_append, Rust.byteLen_cons]
    omega

theorem length_utf16_pos {cs : List Char} (h : cs ≠ []) : 0 < (utf16 cs).length := by
  rw [List.length_pos_iff]
  exact fun heq => h (utf16_injective heq)

/-! ### Slices -/

/-- `s.slice(start, end)` -/
def slice (us : List ℕ) (start stop : ℕ) : List ℕ := (us.take stop).drop start

theorem length_slice (us : List ℕ) (start stop : ℕ) :
    (slice us start stop).length = min stop us.length - start := by
  rw [slice, List.length_drop, List.length_take]

@[simp] theorem slice_self (us : List ℕ) (n : ℕ) : slice us n n = [] := by
  rw [slice, List.drop_eq_nil_iff]
  exact List.length_take_le n us

/-- A slice that begins at the beginning of a part and ends where it ends, or behind the string. -/
theorem slice_append (us vs ws : List ℕ) {stop : ℕ} (h : stop = us.length + vs.length ∨
    us.length + vs.length ≤ stop ∧ ws = []) : slice (us ++ (vs ++ ws)) us.length stop = vs := by
  rw [slice, ← List.append_assoc]
  rcases h with rfl | ⟨hle, rfl⟩
  · rw [List.take_left' (List.length_append), List.drop_left]
  · rw [List.append_nil, List.take_of_length_le (by rwa [List.length_append]), List.drop_left]

end Resolute.Js
