import Mathlib.Algebra.GroupWithZero.Nat
import Mathlib.Tactic.Common

/-!
# Slices of strings

A `&str` is the list of its characters.  Its positions count the bytes of their UTF-8 encodings, and
a slice whose ends are not between two characters is a panic, as one that ends behind the string is.
So a function on strings has an `Outcome`: it returns, fails with an error, or panics.

`cutAt` cuts a string at a position, `slice` at two, and `splitOnce` at the first separator.  A
string is cut into the parts of which it is the concatenation (`cutAt_eq_some`, `slice_append`,
`splitOnce_append`); this is how positions that the source computes are turned into lists.  The
letters of ASCII are told by their numbers (`isUpper_iff`, `isLower_iff`).
-/

namespace Resolute.Rust

/-- How a function that returns a `Result<_, E>` does not return `Ok`. -/
inductive Fault (ε : Type) where
  | err (e : ε)
  | panic
  deriving DecidableEq, Repr

/-- The outcome of a function that returns a `Result<T, E>`. -/
abbrev Outcome (ε α : Type) := Except (Fault ε) α

/-- The function returns. -/
def Outcome.Returns {ε α : Type} (r : Outcome ε α) : Prop := r ≠ .error .panic

theorem Outcome.returns_ok {ε α : Type} (a : α) : Outcome.Returns (.ok a : Outcome ε α) := by
  intro h
  cases h

theorem Outcome.returns_err {ε α : Type} (e : ε) :
    Outcome.Returns (.error (.err e) : Outcome ε α) := by
  intro h
  cases h

theorem Outcome.Returns.bind {ε α β : Type} {r : Outcome ε α} {f : α → Outcome ε β}
    (hr : r.Returns) (hf : ∀ a, (f a).Returns) : (r >>= f).Returns := by
  cases r with
  | error e => exact fun h => hr (congrArg Except.error (Except.error.inj h))
  | ok a => exact hf a

theorem Outcome.Returns.mapM {ε α β : Type} {f : α → Outcome ε β} (hf : ∀ a, (f a).Returns)
    (l : List α) : Outcome.Returns (l.mapM f) := by
  induction l with
  | nil => exact returns_ok _
  | cons a l ih =>
    rw [List.mapM_cons]
    exact (hf a).bind fun b => Returns.bind ih fun bs => returns_ok _

/-- The capitals of ASCII. -/
theorem isUpper_iff {c : Char} : c.isUpper = true ↔ 65 ≤ c.toNat ∧ c.toNat ≤ 90 := by
  have h : c.isUpper = true ↔ 'A'.val ≤ c.val ∧ c.val ≤ 'Z'.val := decide_eq_true_iff
  rw [h, UInt32.le_iff_toNat_le, UInt32.le_iff_toNat_le]
  rfl

/-- The small letters of ASCII. -/
theorem isLower_iff {c : Char} : c.isLower = true ↔ 97 ≤ c.toNat ∧ c.toNat ≤ 122 := by
  have h : c.isLower = true ↔ 'a'.val ≤ c.val ∧ c.val ≤ 'z'.val :=
    Bool.and_eq_true_iff.trans (and_congr decide_eq_true_iff decide_eq_true_iff)
  rw [h, UInt32.le_iff_toNat_le, UInt32.le_iff_toNat_le]
  rfl

/-- `collect` into a `Result<Vec<_>, _>`. -/
theorem mapM_eq_ok {α β ε : Type} {f : α → Except ε β} {l : List α} {out : List β} :
    l.mapM f = .ok out ↔ l.map f = out.map .ok := by
  induction l generalizing out with
  | nil =>
    rw [List.mapM_nil, List.map_nil, eq_comm (a := []), List.map_eq_nil_iff, eq_comm]
    exact Except.ok.injEq _ _ |>.to_iff
  | cons a l ih =>
    rw [List.mapM_cons, List.map_cons]
    cases ha : f a with
    | error e => cases out <;> simp [bind, Except.bind]
    | ok b =>
      cases hl : l.mapM f with
      | error e =>
        have hno (out : List β) : l.map f ≠ out.map .ok := fun h => by
          rw [← ih, hl] at h
          cases h
        cases out <;> simp [bind, Except.bind, hno]
      | ok bs =>
        rw [ih] at hl
        cases out <;> simp [bind, Except.bind, pure, Except.pure, hl, List.map_inj_right]

/-- `b as char`. -/
def asChar (b : UInt8) : Char := Char.ofNat b.toNat

@[simp] theorem toNat_asChar (b : UInt8) : (asChar b).toNat = b.toNat := by
  have hvalid : b.toNat.isValidChar := .inl (Nat.lt_trans b.toNat_lt (by decide))
  rw [asChar, Char.ofNat, dif_pos hvalid]
  rfl

/-- `str::len`. -/
def byteLen (cs : List Char) : ℕ := (cs.map Char.utf8Size).sum

@[simp] theorem byteLen_nil : byteLen [] = 0 := rfl

@[simp] theorem byteLen_cons (c : Char) (cs : List Char) :
    byteLen (c :: cs) = c.utf8Size + byteLen cs := by
  simp [byteLen]

@[simp] theorem byteLen_append (cs ds : List Char) :
    byteLen (cs ++ ds) = byteLen cs + byteLen ds := by
  simp [byteLen]

theorem byteLen_eq_zero {cs : List Char} : byteLen cs = 0 ↔ cs = [] := by
  cases cs with
  | nil => exact iff_of_true rfl rfl
  | cons c cs =>
    have := c.utf8Size_pos
    simp only [byteLen_cons, reduceCtorEq, iff_false]
    omega

/-- A string cut at position `n`, if this is between two characters. -/
def cutAt : List Char → (n : ℕ) → Option (List Char × List Char)
  | cs, 0 => some ([], cs)
  | [], _ + 1 => none
  | c :: cs, n + 1 =>
    if c.utf8Size ≤ n + 1 then (cutAt cs (n + 1 - c.utf8Size)).map fun p => (c :: p.1, p.2)
    else none

theorem cutAt_append (cs ds : List Char) : cutAt (cs ++ ds) (byteLen cs) = some (cs, ds) := by
  induction cs with
  | nil => rw [byteLen_nil, cutAt, List.nil_append]
  | cons c cs ih =>
    obtain ⟨n, hn⟩ := Nat.exists_eq_add_of_lt c.utf8Size_pos
    rw [byteLen_cons, show c.utf8Size + byteLen cs = (n + byteLen cs) + 1 by omega,
      List.cons_append, cutAt, if_pos (by omega),
      show n + byteLen cs + 1 - c.utf8Size = byteLen cs by omega, ih]
    rfl

/-- The parts of a string that is cut. -/
theorem cutAt_eq_some {cs pre post : List Char} {n : ℕ} (h : cutAt cs n = some (pre, post)) :
    cs = pre ++ post ∧ byteLen pre = n := by
  induction cs generalizing n pre with
  | nil =>
    cases n with
    | zero =>
      obtain ⟨rfl, rfl⟩ := Prod.mk.inj (Option.some.inj h)
      exact ⟨rfl, rfl⟩
    | succ n => cases h
  | cons c cs ih =>
    cases n with
    | zero =>
      obtain ⟨rfl, rfl⟩ := Prod.mk.inj (Option.some.inj h)
      exact ⟨rfl, rfl⟩
    | succ n =>
      rw [cutAt] at h
      obtain ⟨hsize, h⟩ := Option.ite_none_right_eq_some.mp h
      obtain ⟨⟨pre', post'⟩, hcut, heq⟩ := Option.map_eq_some_iff.mp h
      obtain ⟨rfl, rfl⟩ := Prod.mk.inj heq
      obtain ⟨rfl, hlen⟩ := ih hcut
      refine ⟨rfl, ?_⟩
      rw [byteLen_cons, hlen]
      omega

/-- `&s[i..j]`. -/
def slice {ε : Type} (cs : List Char) (i j : ℕ) : Outcome ε (List Char) :=
  if j < i then .error .panic
  else
    match cutAt cs i with
    | none => .error .panic
    | some (_, rest) =>
      match cutAt rest (j - i) with
      | none => .error .panic
      | some (mid, _) => .ok mid

/-- A slice from a position between two characters on. -/
theorem slice_append_left {ε : Type} (pre rest : List Char) (n : ℕ) :
    slice (ε := ε) (pre ++ rest) (byteLen pre) (byteLen pre + n) =
      match cutAt rest n with
      | none => .error .panic
      | some (mid, _) => .ok mid := by
  rw [slice, if_neg (by omega), cutAt_append, Nat.add_sub_cancel_left]

theorem slice_append {ε : Type} (pre mid post : List Char) :
    slice (ε := ε) (pre ++ (mid ++ post)) (byteLen pre) (byteLen pre + byteLen mid) = .ok mid := by
  rw [slice_append_left, cutAt_append]

/-- The slice without the first and the last byte, where both are characters. -/
theorem slice_ends {ε : Type} {c d : Char} (hc : c.utf8Size = 1) (hd : d.utf8Size = 1)
    (mid : List Char) :
    slice (ε := ε) (c :: (mid ++ [d])) 1 (byteLen (c :: (mid ++ [d])) - 1) = .ok mid := by
  have hslice := slice_append (ε := ε) [c] mid [d]
  have hlen : byteLen (c :: (mid ++ [d])) - 1 = byteLen [c] + byteLen mid := by
    simp only [byteLen_cons, byteLen_append, byteLen_nil, hc, hd]
    omega
  have hfirst : byteLen [c] = 1 := by rw [byteLen_cons, byteLen_nil, hc]
  rw [← hlen, hfirst] at hslice
  exact hslice

/-- A slice is taken, or it is a panic. -/
theorem slice_cases {ε : Type} (cs : List Char) (i j : ℕ) :
    (∃ mid, slice (ε := ε) cs i j = .ok mid) ∨ slice (ε := ε) cs i j = .error .panic := by
  rw [slice]
  split_ifs
  · exact .inr rfl
  · cases cutAt cs i with
    | none => exact .inr rfl
    | some p =>
      dsimp only
      cases cutAt p.2 (j - i) with
      | none => exact .inr rfl
      | some q => exact .inl ⟨q.1, rfl⟩

theorem exists_of_byteLen_eq_one {cs : List Char} (h : byteLen cs = 1) :
    ∃ c, cs = [c] ∧ c.utf8Size = 1 := by
  rcases cs with _ | ⟨c, _ | ⟨d, cs⟩⟩
  · cases h
  · exact ⟨c, rfl, h⟩
  · have hc := c.utf8Size_pos
    have hd := d.utf8Size_pos
    rw [byteLen_cons, byteLen_cons] at h
    omega

/-- A slice without the first and the last byte is a panic if one of these is part of a longer
character. -/
theorem exists_of_slice_ends {ε : Type} {cs mid : List Char} (hlen : 2 ≤ byteLen cs)
    (h : slice (ε := ε) cs 1 (byteLen cs - 1) = .ok mid) :
    ∃ c d, cs = c :: (mid ++ [d]) ∧ c.utf8Size = 1 ∧ d.utf8Size = 1 := by
  rw [slice, if_neg (by omega)] at h
  cases hcut : cutAt cs 1 with
  | none =>
    rw [hcut] at h
    cases h
  | some p =>
    obtain ⟨pre, rest⟩ := p
    obtain ⟨rfl, hpre⟩ := cutAt_eq_some hcut
    rw [hcut] at h
    dsimp only at h
    cases hcut' : cutAt rest (byteLen (pre ++ rest) - 1 - 1) with
    | none =>
      rw [hcut'] at h
      cases h
    | some q =>
      obtain ⟨mid', post⟩ := q
      obtain ⟨rfl, hmid⟩ := cutAt_eq_some hcut'
      rw [hcut'] at h
      obtain rfl := Except.ok.inj h
      rw [byteLen_append, byteLen_append] at hmid hlen
      obtain ⟨c, rfl, hc⟩ := exists_of_byteLen_eq_one hpre
      obtain ⟨d, rfl, hd⟩ := exists_of_byteLen_eq_one (show byteLen post = 1 by omega)
      exact ⟨c, d, rfl, hc, hd⟩

/-- `str::split_once` with a character. -/
def splitOnce (sep : Char) : List Char → Option (List Char × List Char)
  | [] => none
  | c :: cs => if c = sep then some ([], cs) else (splitOnce sep cs).map fun p => (c :: p.1, p.2)

theorem splitOnce_append {sep : Char} {pre : List Char} (h : sep ∉ pre) (post : List Char) :
    splitOnce sep (pre ++ sep :: post) = some (pre, post) := by
  induction pre with
  | nil => rw [List.nil_append, splitOnce, if_pos rfl]
  | cons c pre ih =>
    rw [List.mem_cons, not_or] at h
    rw [List.cons_append, splitOnce, if_neg (Ne.symm h.1), ih h.2]
    rfl

/-- The first separator is at one place only. -/
theorem append_sep_inj {sep : Char} {pre post pre' post' : List Char} (h : sep ∉ pre)
    (h' : sep ∉ pre') (heq : pre ++ sep :: post = pre' ++ sep :: post') :
    pre = pre' ∧ post = post' := by
  have hsplit := splitOnce_append h post
  rw [heq, splitOnce_append h' post'] at hsplit
  obtain ⟨rfl, rfl⟩ := Prod.mk.inj (Option.some.inj hsplit)
  exact ⟨rfl, rfl⟩

theorem splitOnce_eq_none {sep : Char} {cs : List Char} (h : sep ∉ cs) :
    splitOnce sep cs = none := by
  induction cs with
  | nil => rfl
  | cons c cs ih =>
    rw [List.mem_cons, not_or] at h
    rw [splitOnce, if_neg (Ne.symm h.1), ih h.2]
    rfl

/-- `str::rsplit_once` with a character. -/
def rsplitOnce (sep : Char) (cs : List Char) : Option (List Char × List Char) :=
  (splitOnce sep cs.reverse).map fun p => (p.2.reverse, p.1.reverse)

theorem rsplitOnce_append {sep : Char} (pre : List Char) {post : List Char} (h : sep ∉ post) :
    rsplitOnce sep (pre ++ sep :: post) = some (pre, post) := by
  have hsplit := splitOnce_append (mt List.mem_reverse.mp h) pre.reverse
  rw [rsplitOnce, List.reverse_append, List.reverse_cons, List.append_assoc,
    List.singleton_append, hsplit, Option.map_some, List.reverse_reverse, List.reverse_reverse]

/-- What is in front of the first separator. -/
theorem splitOnce_spec {sep : Char} {cs pre post : List Char}
    (h : splitOnce sep cs = some (pre, post)) : cs = pre ++ sep :: post ∧ sep ∉ pre := by
  by_cases hmem : sep ∈ cs
  · obtain ⟨pre', post', rfl, hpre⟩ := List.eq_append_cons_of_mem hmem
    rw [splitOnce_append hpre] at h
    obtain ⟨rfl, rfl⟩ := Prod.mk.inj (Option.some.inj h)
    exact ⟨rfl, hpre⟩
  · rw [splitOnce_eq_none hmem] at h
    cases h

/-- What is behind the last separator. -/
theorem rsplitOnce_spec {sep : Char} {cs pre post : List Char}
    (h : rsplitOnce sep cs = some (pre, post)) : cs = pre ++ sep :: post ∧ sep ∉ post := by
  obtain ⟨⟨post', pre'⟩, hsplit, heq⟩ := Option.map_eq_some_iff.mp h
  obtain ⟨rfl, rfl⟩ := Prod.mk.inj heq
  obtain ⟨hcs, hpost⟩ := splitOnce_spec hsplit
  refine ⟨?_, mt List.mem_reverse.mp hpost⟩
  rw [← List.reverse_reverse cs, hcs]
  simp

/-- What follows a string does not move its first separator. -/
theorem splitOnce_append_left {sep : Char} {cs pre post : List Char}
    (h : splitOnce sep cs = some (pre, post)) (ds : List Char) :
    splitOnce sep (cs ++ ds) = some (pre, post ++ ds) := by
  obtain ⟨rfl, hpre⟩ := splitOnce_spec h
  rw [List.append_assoc, List.cons_append, splitOnce_append hpre]

/-- A string without separators goes to what is in front of the first one. -/
theorem splitOnce_append_right {sep : Char} {cs : List Char} (h : sep ∉ cs) (ds : List Char) :
    splitOnce sep (cs ++ ds) = (splitOnce sep ds).map fun p => (cs ++ p.1, p.2) := by
  induction cs with
  | nil => simp
  | cons c cs ih =>
    rw [List.mem_cons, not_or] at h
    rw [List.cons_append, splitOnce, if_neg (Ne.symm h.1), ih h.2, Option.map_map]
    rfl

/-- What is taken while a property holds, in front of something that does not have it. -/
theorem takeWhile_append_of_head? {α : Type} {p : α → Bool} {t rest : List α}
    (ht : ∀ a ∈ t, p a = true) (hrest : rest.head?.any p = false) :
    (t ++ rest).takeWhile p = t ∧ (t ++ rest).dropWhile p = rest := by
  rw [List.takeWhile_append_of_pos ht, List.dropWhile_append_of_pos ht]
  cases rest with
  | nil => simp
  | cons a rest =>
    have ha : p a = false := hrest
    simp [ha]

end Resolute.Rust
