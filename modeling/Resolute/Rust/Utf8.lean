import Resolute.Rust.Str

/-!
# The bytes of strings

The bytes of a string are those of its characters one after another (`utf8`).  A character of ASCII
is one byte that is less than 128; any other has at least two bytes, and none of them is less.  So a
byte of ASCII in front is a character (`utf8_ascii_cons`), and a string whose bytes are taken for
characters one by one is unchanged exactly if all of it is ASCII (`asChar_utf8_iff`).
-/

namespace Resolute.Rust

/-- `str::as_bytes`. -/
def utf8 (cs : List Char) : List UInt8 := cs.flatMap String.utf8EncodeChar

/-- `char::is_ascii`. -/
def isAscii (c : Char) : Bool := c.toNat < 128

theorem utf8_cons (c : Char) (cs : List Char) :
    utf8 (c :: cs) = String.utf8EncodeChar c ++ utf8 cs := List.flatMap_cons

theorem length_utf8 (cs : List Char) : (utf8 cs).length = byteLen cs := by
  induction cs with
  | nil => rfl
  | cons c cs ih =>
    rw [utf8_cons, List.length_append, String.length_utf8EncodeChar, ih, byteLen_cons]

theorem utf8Size_eq_one_iff {c : Char} : c.utf8Size = 1 ↔ isAscii c = true := by
  rw [Char.utf8Size_eq_one_iff, isAscii, decide_eq_true_eq, UInt32.le_iff_toNat_le]
  exact Nat.lt_succ_iff.symm

/-- A character of ASCII is its byte. -/
theorem utf8EncodeChar_of_isAscii {c : Char} (h : isAscii c = true) :
    String.utf8EncodeChar c = [UInt8.ofNat c.toNat] := by
  rw [String.utf8EncodeChar_eq_singleton (utf8Size_eq_one_iff.mpr h)]
  refine congrArg (fun b => [b]) (UInt8.toNat_inj.mp ?_)
  rw [UInt32.toNat_toUInt8, UInt8.toNat_ofNat']
  rfl

/-- A byte that is at least 128 because of a bit that was set. -/
theorem le_toNat_or {x y : UInt8} (h : 128 ≤ y.toNat) : 128 ≤ (x ||| y).toNat := by
  rw [UInt8.toNat_or]
  exact Nat.le_trans h Nat.right_le_or

theorem le_of_mem_utf8EncodeChar {c : Char} (h : isAscii c = false) {b : UInt8}
    (hb : b ∈ String.utf8EncodeChar c) : 128 ≤ b.toNat := by
  have hone : c.utf8Size ≠ 1 := by
    rw [ne_eq, utf8Size_eq_one_iff, h]
    exact Bool.false_ne_true
  obtain h1 | h2 | h3 | h4 := c.utf8Size_eq
  · exact absurd h1 hone
  · rw [String.utf8EncodeChar_eq_cons_cons h2] at hb
    simp only [List.mem_cons, List.not_mem_nil, or_false] at hb
    rcases hb with rfl | rfl <;> exact le_toNat_or (by decide)
  · rw [String.utf8EncodeChar_eq_cons_cons_cons h3] at hb
    simp only [List.mem_cons, List.not_mem_nil, or_false] at hb
    rcases hb with rfl | rfl | rfl <;> exact le_toNat_or (by decide)
  · rw [String.utf8EncodeChar_eq_cons_cons_cons_cons h4] at hb
    simp only [List.mem_cons, List.not_mem_nil, or_false] at hb
    rcases hb with rfl | rfl | rfl | rfl <;> exact le_toNat_or (by decide)

/-- A character that is not in ASCII has at least two bytes. -/
theorem exists_utf8EncodeChar {c : Char} (h : isAscii c = false) :
    ∃ b b' bs, String.utf8EncodeChar c = b :: b' :: bs := by
  have hone : c.utf8Size ≠ 1 := by
    rw [ne_eq, utf8Size_eq_one_iff, h]
    exact Bool.false_ne_true
  have hlen := String.length_utf8EncodeChar c
  have hpos := c.utf8Size_pos
  rcases hbytes : String.utf8EncodeChar c with _ | ⟨b, _ | ⟨b', bs⟩⟩
  · rw [hbytes, List.length_nil] at hlen
    omega
  · rw [hbytes, List.length_singleton] at hlen
    omega
  · exact ⟨b, b', bs, rfl⟩

/-- A byte of ASCII in front is a character. -/
theorem utf8_ascii_cons {cs : List Char} {b : UInt8} {bs : List UInt8} (h : utf8 cs = b :: bs)
    (hb : b.toNat < 128) : ∃ c ds, cs = c :: ds ∧ UInt8.ofNat c.toNat = b ∧ utf8 ds = bs := by
  cases cs with
  | nil => cases h
  | cons c ds =>
    rw [utf8_cons] at h
    cases hc : isAscii c with
    | true =>
      rw [utf8EncodeChar_of_isAscii hc] at h
      exact ⟨c, ds, rfl, (List.cons.inj h).1, (List.cons.inj h).2⟩
    | false =>
      obtain ⟨b', b'', bs', hbytes⟩ := exists_utf8EncodeChar hc
      rw [hbytes] at h
      obtain rfl := (List.cons.inj h).1
      have := le_of_mem_utf8EncodeChar hc (hbytes ▸ List.mem_cons_self)
      omega

theorem utf8_of_isAscii {cs : List Char} (h : ∀ c ∈ cs, isAscii c = true) :
    utf8 cs = cs.map fun c => UInt8.ofNat c.toNat := by
  induction cs with
  | nil => rfl
  | cons c cs ih =>
    rw [List.forall_mem_cons] at h
    rw [utf8_cons, utf8EncodeChar_of_isAscii h.1, ih h.2]
    rfl

theorem asChar_ofNat {c : Char} (h : isAscii c = true) : asChar (UInt8.ofNat c.toNat) = c := by
  rw [isAscii, decide_eq_true_eq] at h
  rw [asChar, UInt8.toNat_ofNat_of_lt' (Nat.lt_trans h (by decide))]
  exact Char.ofNat_toNat c

/-- A string is what its bytes are cast to exactly if it is in ASCII. -/
theorem asChar_utf8_iff (cs : List Char) :
    (utf8 cs).map asChar = cs ↔ ∀ c ∈ cs, isAscii c = true := by
  constructor
  · intro h
    have hlen := congrArg List.length h
    rw [List.length_map, length_utf8] at hlen
    clear h
    have hle : ∀ ds : List Char, ds.length ≤ byteLen ds := by
      intro ds
      induction ds with
      | nil => exact Nat.le_refl 0
      | cons d ds ih =>
        have := d.utf8Size_pos
        rw [byteLen_cons, List.length_cons]
        omega
    induction cs with
    | nil => exact fun c hc => absurd hc List.not_mem_nil
    | cons c cs ih =>
      have hpos := c.utf8Size_pos
      have := hle cs
      rw [byteLen_cons, List.length_cons] at hlen
      exact List.forall_mem_cons.mpr ⟨utf8Size_eq_one_iff.mp (by omega), ih (by omega)⟩
  · intro h
    induction cs with
    | nil => rfl
    | cons c cs ih =>
      rw [List.forall_mem_cons] at h
      rw [utf8_cons, utf8EncodeChar_of_isAscii h.1, List.map_append, ih h.2, List.map_singleton,
        asChar_ofNat h.1]
      rfl

end Resolute.Rust
