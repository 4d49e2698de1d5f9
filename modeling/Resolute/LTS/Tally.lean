import Mathlib.Data.Int.Notation
import Mathlib.Tactic.Common

/-!
# Counting over a list of tasks

A counter that several tasks change is explained by giving every local state of a task a weight: the
counter is the sum of the weights, the `tally`.  A step replaces one element of the list, so the sum
changes by the difference of two weights (`tally_set`, `tally_modify`).  Counting is the case of the
weights 0 and 1 (`tally_countP`), and weights that are not negative bound each other by their sum
(`le_tally`).

An invariant that speaks about the tasks one by one looks up a task in the new list: it is the one
that was replaced or added, or one of the old list (`getElem?_set_cases`,
`getElem?_concat_cases`).  Nothing here is specific to this repository.
-/

namespace Resolute

variable {α : Type*}

/-- The sum of the weights of the elements of a list. -/
def tally (w : α → ℤ) : List α → ℤ
  | [] => 0
  | a :: l => w a + tally w l

variable {w : α → ℤ}

@[simp] theorem tally_nil : tally w [] = 0 := rfl

@[simp] theorem tally_cons (a : α) (l : List α) : tally w (a :: l) = w a + tally w l := rfl

@[simp] theorem tally_append (l l' : List α) : tally w (l ++ l') = tally w l + tally w l' := by
  induction l with
  | nil => simp
  | cons a l ih => simp only [List.cons_append, tally_cons, ih]; omega

/-- Replacing an element changes the sum by the difference of the weights. -/
theorem tally_set {l : List α} {i : ℕ} {a : α} (h : l[i]? = some a) (b : α) :
    tally w (l.set i b) = tally w l - w a + w b := by
  induction l generalizing i with
  | nil => simp at h
  | cons c l ih =>
    cases i with
    | zero =>
      rw [List.getElem?_cons_zero, Option.some_inj] at h
      subst h
      simp only [List.set_cons_zero, tally_cons]
      omega
    | succ i =>
      rw [List.getElem?_cons_succ] at h
      simp only [List.set_cons_succ, tally_cons, ih h]
      omega

/-- Changing an element changes the sum by the difference of the weights. -/
theorem tally_modify {l : List α} {i : ℕ} {a : α} (h : l[i]? = some a) (f : α → α) :
    tally w (l.modify i f) = tally w l - w a + w (f a) := by
  induction l generalizing i with
  | nil => simp at h
  | cons c l ih =>
    cases i with
    | zero =>
      rw [List.getElem?_cons_zero, Option.some_inj] at h
      subst h
      simp only [List.modify_zero_cons, tally_cons]
      omega
    | succ i =>
      rw [List.getElem?_cons_succ] at h
      simp only [List.modify_succ_cons, tally_cons, ih h]
      omega

theorem tally_congr {w' : α → ℤ} {l : List α} (h : ∀ a ∈ l, w a = w' a) :
    tally w l = tally w' l := by
  induction l with
  | nil => rfl
  | cons a l ih =>
    rw [tally_cons, tally_cons, h a List.mem_cons_self,
      ih fun b hb => h b (List.mem_cons_of_mem _ hb)]

theorem tally_mono {w' : α → ℤ} {l : List α} (h : ∀ a ∈ l, w a ≤ w' a) :
    tally w l ≤ tally w' l := by
  induction l with
  | nil => exact Int.le_refl 0
  | cons a l ih =>
    have ha := h a List.mem_cons_self
    have hl := ih fun b hb => h b (List.mem_cons_of_mem _ hb)
    rw [tally_cons, tally_cons]
    omega

theorem tally_add (w w' : α → ℤ) (l : List α) :
    tally (fun a => w a + w' a) l = tally w l + tally w' l := by
  induction l with
  | nil => rfl
  | cons a l ih => simp only [tally_cons, ih]; omega

theorem tally_sub (w w' : α → ℤ) (l : List α) :
    tally (fun a => w a - w' a) l = tally w l - tally w' l := by
  induction l with
  | nil => rfl
  | cons a l ih => simp only [tally_cons, ih]; omega

theorem tally_nonneg {l : List α} (h : ∀ a ∈ l, 0 ≤ w a) : 0 ≤ tally w l := by
  induction l with
  | nil => exact Int.le_refl 0
  | cons a l ih =>
    have ha := h a List.mem_cons_self
    have hl := ih fun b hb => h b (List.mem_cons_of_mem _ hb)
    rw [tally_cons]
    omega

theorem tally_eq_zero {l : List α} (h : ∀ a ∈ l, w a = 0) : tally w l = 0 := by
  induction l with
  | nil => rfl
  | cons a l ih =>
    rw [tally_cons, h a List.mem_cons_self, ih fun b hb => h b (List.mem_cons_of_mem _ hb)]
    rfl

/-- Counting is summing weights of zero and one. -/
theorem tally_countP {p : α → Bool} {l : List α} (h : ∀ a ∈ l, w a = if p a then 1 else 0) :
    tally w l = l.countP p := by
  induction l with
  | nil => rfl
  | cons a l ih =>
    rw [tally_cons, h a List.mem_cons_self, ih fun b hb => h b (List.mem_cons_of_mem _ hb),
      List.countP_cons]
    split_ifs <;> omega

/-- A sum of weights that are not negative is at least each of them. -/
theorem le_tally {l : List α} (h : ∀ a ∈ l, 0 ≤ w a) {a : α} (ha : a ∈ l) : w a ≤ tally w l := by
  induction l with
  | nil => cases ha
  | cons b l ih =>
    have hb := h b List.mem_cons_self
    have hl := tally_nonneg fun c hc => h c (List.mem_cons_of_mem b hc)
    rw [tally_cons]
    rcases List.mem_cons.1 ha with rfl | ha
    · omega
    · have := ih (fun c hc => h c (List.mem_cons_of_mem _ hc)) ha
      omega

/-- An element of a list in which one was replaced. -/
theorem getElem?_set_cases {l : List α} {i j : ℕ} {a b : α} (h : (l.set i a)[j]? = some b) :
    j = i ∧ b = a ∨ j ≠ i ∧ l[j]? = some b := by
  by_cases hj : j = i
  · subst hj
    have hlt : j < l.length := by simpa using (List.getElem?_eq_some_iff.1 h).1
    rw [List.getElem?_set_self hlt, Option.some_inj] at h
    exact .inl ⟨rfl, h.symm⟩
  · rw [List.getElem?_set_ne (Ne.symm hj)] at h
    exact .inr ⟨hj, h⟩

/-- An element of a list to which one was added. -/
theorem getElem?_concat_cases {l : List α} {j : ℕ} {a b : α} (h : (l ++ [a])[j]? = some b) :
    l[j]? = some b ∨ j = l.length ∧ b = a := by
  rw [List.getElem?_append] at h
  split_ifs at h with hj
  · exact .inl h
  · obtain ⟨hlt, -⟩ := List.getElem?_eq_some_iff.1 h
    rw [List.length_singleton] at hlt
    exact .inr ⟨by omega, List.mem_singleton.1 (List.mem_of_getElem? h)⟩

end Resolute
