import Mathlib.Data.Nat.Digits.Lemmas
import Mathlib.Tactic.Common

/-!
# Object identifiers in DER

X.690 gives an object identifier as a sequence of subidentifiers.  A `subidentifier` is a number to
the base 128, in as few octets as possible: each octet has seven bits of it, and bit 8 in all octets
but the last.  The first two arcs share the first subidentifier: the second arc is below 40 under
the arcs 0 and 1, and the number is 40 times the first arc and the second.

Octets that are read from the left fall into groups that end where bit 8 is not set, and octets
behind the last group (`unfinished`); they do so in one way (`exists_groups`, `groups_inj`).  A
`Group` without leading zeros is a subidentifier, and the octets of an object identifier
(`Oid.contents`) determine it.
-/

namespace Resolute.X690

/-! ### The encoding -/

/-- The octets of a subidentifier. -/
def subidentifier (n : ℕ) : List UInt8 :=
  ((Nat.digits 128 (n / 128)).reverse.map fun d => UInt8.ofNat (128 + d)) ++
    [UInt8.ofNat (n % 128)]

/-- The arcs of an object identifier. -/
@[ext]
structure Oid where
  top : ℕ
  second : ℕ
  rest : List ℕ
  top_le : top ≤ 2
  second_lt : top < 2 → second < 40
  deriving DecidableEq

namespace Oid

def arcs (oid : Oid) : List ℕ := oid.top :: oid.second :: oid.rest

def subidentifiers (oid : Oid) : List ℕ := (oid.top * 40 + oid.second) :: oid.rest

/-- The contents octets. -/
def contents (oid : Oid) : List UInt8 := oid.subidentifiers.flatMap subidentifier

end Oid

/-- The number in the lower seven bits of octets. -/
def value (bs : List UInt8) : ℕ := Nat.ofDigits 128 (bs.reverse.map fun b => b.toNat % 128)

@[simp] theorem value_nil : value [] = 0 := rfl

theorem value_concat (bs : List UInt8) (b : UInt8) :
    value (bs ++ [b]) = value bs * 128 + b.toNat % 128 := by
  rw [value, List.reverse_append, List.reverse_singleton, List.singleton_append, List.map_cons,
    Nat.ofDigits_cons, ← value]
  omega

/-! ### Groups -/

/-- Bit 8 is set. -/
def continues (b : UInt8) : Bool := 128 ≤ b.toNat

theorem continues_of_ge {b : UInt8} (h : 128 ≤ b.toNat) : continues b = true := decide_eq_true h

theorem not_continues {b : UInt8} (h : b.toNat < 128) : ¬continues b = true := fun hb =>
  Nat.not_le.mpr h (of_decide_eq_true hb)

/-- Octets of which only the last has no bit 8. -/
@[ext]
structure Group where
  init : List UInt8
  last : UInt8
  init_ge : ∀ b ∈ init, 128 ≤ b.toNat
  last_lt : last.toNat < 128

namespace Group

def octets (g : Group) : List UInt8 := g.init ++ [g.last]

/-- The first octet has a digit other than zero. -/
def Minimal (g : Group) : Prop := g.init.head? ≠ some 128

/-- The octets of a number. -/
def ofNat (n : ℕ) : Group where
  init := (Nat.digits 128 (n / 128)).reverse.map fun d => UInt8.ofNat (128 + d)
  last := UInt8.ofNat (n % 128)
  init_ge := by
    intro b hb
    obtain ⟨d, hd, rfl⟩ := List.mem_map.mp hb
    have hlt := Nat.digits_lt_base (by decide) (List.mem_reverse.mp hd)
    rw [UInt8.toNat_ofNat']
    omega
  last_lt := by
    rw [UInt8.toNat_ofNat']
    omega

@[simp] theorem octets_ofNat (n : ℕ) : (ofNat n).octets = subidentifier n := rfl

theorem toNat_digit {d : ℕ} (h : d < 128) : (UInt8.ofNat (128 + d)).toNat % 128 = d := by
  rw [UInt8.toNat_ofNat']
  omega

@[simp] theorem value_subidentifier (n : ℕ) : value (subidentifier n) = n := by
  have hdigits : ((Nat.digits 128 (n / 128)).map fun d => (UInt8.ofNat (128 + d)).toNat % 128) =
      Nat.digits 128 (n / 128) := by
    conv_rhs => rw [← List.map_id (Nat.digits 128 (n / 128))]
    exact List.map_congr_left fun d hd => toNat_digit (Nat.digits_lt_base (by decide) hd)
  rw [subidentifier, value_concat, value, ← List.map_reverse, List.reverse_reverse, List.map_map]
  rw [show (fun b : UInt8 => b.toNat % 128) ∘ (fun d => UInt8.ofNat (128 + d)) =
    fun d => (UInt8.ofNat (128 + d)).toNat % 128 from rfl, hdigits, Nat.ofDigits_digits,
    UInt8.toNat_ofNat']
  omega

theorem ofNat_injective : Function.Injective ofNat := fun m n h => by
  rw [← value_subidentifier m, ← octets_ofNat, h, octets_ofNat, value_subidentifier]

theorem minimal_ofNat (n : ℕ) : (ofNat n).Minimal := by
  intro hhead
  rw [ofNat, List.head?_map, List.head?_reverse, Option.map_eq_some_iff] at hhead
  obtain ⟨d, hd, hzero⟩ := hhead
  have hlt := Nat.digits_lt_base (by decide) (List.mem_of_getLast? hd)
  have hpos : n / 128 ≠ 0 := by
    intro hnil
    rw [hnil] at hd
    cases hd
  have hne := Nat.getLast_digit_ne_zero 128 hpos
  rw [List.getLast?_eq_some_getLast (Nat.digits_ne_nil_iff_ne_zero.mpr hpos),
    Option.some.injEq] at hd
  have hnat := congrArg UInt8.toNat hzero
  rw [UInt8.toNat_ofNat'] at hnat
  change (128 + d) % 2 ^ 8 = 128 at hnat
  omega

/-- **Groups without leading zeros** are subidentifiers. -/
theorem octets_eq {g : Group} (h : g.Minimal) : subidentifier (value g.octets) = g.octets := by
  obtain ⟨init, last, hinit, hlast⟩ := g
  have hdigits : Nat.digits 128 (value init) = init.reverse.map fun b => b.toNat % 128 := by
    refine Nat.digits_ofDigits 128 (by decide) _ (fun d hd => ?_) fun hne hzero => h ?_
    · obtain ⟨b, -, rfl⟩ := List.mem_map.mp hd
      exact Nat.mod_lt _ (by decide)
    · obtain ⟨b, bs, rfl⟩ := List.exists_cons_of_ne_nil
        (fun hnil : init = [] => hne (by rw [hnil]; rfl))
      have hge := hinit b List.mem_cons_self
      have hlt := b.toNat_lt
      simp only [List.reverse_cons, List.map_append, List.map_singleton,
        List.getLast_append_singleton] at hzero
      rw [List.head?_cons, Option.some.injEq, ← UInt8.toNat_inj]
      change b.toNat = 128
      omega
  have hoctets : (init.map fun b => UInt8.ofNat (128 + b.toNat % 128)) = init := by
    conv_rhs => rw [← List.map_id init]
    refine List.map_congr_left fun b hb => ?_
    have hge := hinit b hb
    have hlt := b.toNat_lt
    rw [id, ← UInt8.toNat_inj, UInt8.toNat_ofNat']
    omega
  have hdiv : (value init * 128 + last.toNat % 128) / 128 = value init := by omega
  have hmod : (value init * 128 + last.toNat % 128) % 128 = last.toNat := by omega
  rw [octets, value_concat, subidentifier, hdiv, hmod, hdigits, ← List.map_reverse,
    List.reverse_reverse, List.map_map, UInt8.ofNat_toNat]
  exact congrArg (· ++ [last]) hoctets

/-- A group is read off the front. -/
theorem octets_append_inj {g g' : Group} {bs bs' : List UInt8}
    (h : g.octets ++ bs = g'.octets ++ bs') : g = g' ∧ bs = bs' := by
  have hsplit (g : Group) (bs : List UInt8) :
      (g.octets ++ bs).takeWhile continues = g.init ∧
        (g.octets ++ bs).dropWhile continues = g.last :: bs := by
    have hall : ∀ b ∈ g.init, continues b = true := fun b hb => continues_of_ge (g.init_ge b hb)
    have hstop := not_continues g.last_lt
    rw [octets, List.append_assoc, List.takeWhile_append_of_pos hall,
      List.dropWhile_append_of_pos hall, List.singleton_append, List.takeWhile_cons_of_neg hstop,
      List.dropWhile_cons_of_neg hstop, List.append_nil]
    exact ⟨rfl, rfl⟩
  have htake := (hsplit g bs).1
  have hdrop := (hsplit g bs).2
  rw [h, (hsplit g' bs').1] at htake
  rw [h, (hsplit g' bs').2, List.cons.injEq] at hdrop
  exact ⟨Group.ext htake.symm hdrop.1.symm, hdrop.2.symm⟩

end Group

/-- The octets behind the last one that ends a group. -/
def unfinished (bs : List UInt8) : List UInt8 :=
  (bs.reverse.takeWhile continues).reverse

theorem unfinished_ge (bs : List UInt8) : ∀ b ∈ unfinished bs, 128 ≤ b.toNat := by
  intro b hb
  have hall := List.all_eq_true.mp List.all_takeWhile b (List.mem_reverse.mp hb)
  exact of_decide_eq_true hall

theorem unfinished_groups (gs : List Group) {tail : List UInt8}
    (htail : ∀ b ∈ tail, 128 ≤ b.toNat) :
    unfinished (gs.flatMap Group.octets ++ tail) = tail := by
  have hall : ∀ b ∈ tail.reverse, continues b = true := fun b hb =>
    continues_of_ge (htail b (List.mem_reverse.mp hb))
  have hstop : (gs.flatMap Group.octets).reverse.takeWhile continues = [] := by
    rcases List.eq_nil_or_concat gs with rfl | ⟨gs, g, rfl⟩
    · rfl
    · rw [List.concat_eq_append, List.flatMap_append, List.flatMap_singleton, Group.octets,
        ← List.append_assoc, List.reverse_append, List.reverse_singleton, List.singleton_append,
        List.takeWhile_cons_of_neg (not_continues g.last_lt)]
  rw [unfinished, List.reverse_append, List.takeWhile_append_of_pos hall, hstop, List.append_nil,
    List.reverse_reverse]

@[simp] theorem unfinished_flatMap (gs : List Group) :
    unfinished (gs.flatMap Group.octets) = [] := by
  have h := unfinished_groups gs (fun b (hb : b ∈ []) => absurd hb List.not_mem_nil)
  rwa [List.append_nil] at h

theorem unfinished_eq_nil_of_cons {b : UInt8} {bs : List UInt8} (h : unfinished (b :: bs) = []) :
    unfinished bs = [] := by
  rw [unfinished, List.reverse_eq_nil_iff, List.reverse_cons, List.takeWhile_append] at h
  rw [unfinished, List.reverse_eq_nil_iff]
  split_ifs at h
  · rw [(List.append_eq_nil_iff.mp h).1]
    rfl
  · exact h

/-- **Octets fall into groups.** -/
theorem exists_groups (bs : List UInt8) :
    ∃ gs : List Group, bs = gs.flatMap Group.octets ++ unfinished bs := by
  have hsplit : ∃ (gs : List Group) (tail : List UInt8), bs = gs.flatMap Group.octets ++ tail ∧
      ∀ b ∈ tail, 128 ≤ b.toNat := by
    induction bs with
    | nil => exact ⟨[], [], rfl, fun b hb => absurd hb List.not_mem_nil⟩
    | cons b bs ih =>
      obtain ⟨gs, tail, rfl, htail⟩ := ih
      by_cases hb : b.toNat < 128
      · exact ⟨⟨[], b, fun c hc => absurd hc List.not_mem_nil, hb⟩ :: gs, tail, rfl, htail⟩
      · have hge := Nat.le_of_not_lt hb
        -- the octet belongs to what follows
        cases gs with
        | nil => exact ⟨[], b :: tail, rfl, List.forall_mem_cons.mpr ⟨hge, htail⟩⟩
        | cons g gs =>
          exact ⟨⟨b :: g.init, g.last, List.forall_mem_cons.mpr ⟨hge, g.init_ge⟩, g.last_lt⟩ :: gs,
            tail, rfl, htail⟩
  obtain ⟨gs, tail, hbs, htail⟩ := hsplit
  refine ⟨gs, ?_⟩
  rw [hbs, unfinished_groups gs htail]

/-- **In one way.** -/
theorem groups_inj {gs gs' : List Group} {tail tail' : List UInt8}
    (htail : ∀ b ∈ tail, 128 ≤ b.toNat) (htail' : ∀ b ∈ tail', 128 ≤ b.toNat)
    (h : gs.flatMap Group.octets ++ tail = gs'.flatMap Group.octets ++ tail') :
    gs = gs' ∧ tail = tail' := by
  have hlast (g : Group) (bs : List UInt8) : g.last ∈ g.octets ++ bs := by simp [Group.octets]
  induction gs generalizing gs' with
  | nil =>
    cases gs' with
    | nil => exact ⟨rfl, h⟩
    | cons g' gs' =>
      rw [List.flatMap_nil, List.nil_append, List.flatMap_cons, List.append_assoc] at h
      exact absurd (htail g'.last (h ▸ hlast g' _)) (Nat.not_le.mpr g'.last_lt)
  | cons g gs ih =>
    rw [List.flatMap_cons, List.append_assoc] at h
    cases gs' with
    | nil =>
      rw [List.flatMap_nil, List.nil_append] at h
      exact absurd (htail' g.last (h ▸ hlast g _)) (Nat.not_le.mpr g.last_lt)
    | cons g' gs' =>
      rw [List.flatMap_cons, List.append_assoc] at h
      obtain ⟨rfl, hrest⟩ := Group.octets_append_inj h
      obtain ⟨rfl, rfl⟩ := ih hrest
      exact ⟨rfl, rfl⟩

/-! ### Object identifiers -/

theorem subidentifier_of_lt {n : ℕ} (h : n < 128) : subidentifier n = [UInt8.ofNat n] := by
  rw [subidentifier, Nat.div_eq_of_lt h, Nat.mod_eq_of_lt h, Nat.digits_zero]
  rfl

/-- Subidentifiers are groups. -/
theorem flatMap_subidentifier (ns : List ℕ) :
    ns.flatMap subidentifier = (ns.map Group.ofNat).flatMap Group.octets := by
  rw [List.flatMap_map]
  rfl

/-- Groups without leading zeros are the subidentifiers of their numbers. -/
theorem flatMap_subidentifier_value {gs : List Group} (h : ∀ g ∈ gs, g.Minimal) :
    (gs.map fun g => value g.octets).flatMap subidentifier = gs.flatMap Group.octets := by
  rw [List.flatMap_map]
  exact List.flatMap_congr fun g hg => Group.octets_eq (h g hg)

theorem flatMap_octets_injective : Function.Injective fun gs : List Group =>
    gs.flatMap Group.octets := by
  intro gs gs' h
  have hnil : ∀ b ∈ ([] : List UInt8), 128 ≤ b.toNat := fun b hb => absurd hb List.not_mem_nil
  exact (groups_inj hnil hnil (congrArg (· ++ []) h)).1

theorem flatMap_subidentifier_inj {ms ns : List ℕ}
    (h : ms.flatMap subidentifier = ns.flatMap subidentifier) : ms = ns := by
  rw [flatMap_subidentifier, flatMap_subidentifier] at h
  exact List.map_injective_iff.mpr Group.ofNat_injective (flatMap_octets_injective h)

namespace Oid

/-- **The octets determine the object identifier.** -/
theorem contents_injective : Function.Injective contents := by
  intro x y h
  obtain ⟨top, second, rest, htop, hsecond⟩ := x
  obtain ⟨top', second', rest', htop', hsecond'⟩ := y
  have hsubs := flatMap_subidentifier_inj h
  simp only [subidentifiers, List.cons.injEq] at hsubs
  obtain ⟨hfirst, rfl⟩ := hsubs
  ext1
  · simp only
    omega
  · simp only
    omega
  · rfl

/-- The last octet ends a group. -/
theorem unfinished_contents (oid : Oid) : unfinished oid.contents = [] := by
  rw [contents, flatMap_subidentifier, unfinished_flatMap]

theorem contents_ne_nil (oid : Oid) : oid.contents ≠ [] := by
  simp [contents, subidentifiers, subidentifier]

end Oid

end Resolute.X690
