import Mathlib.Data.List.Forall2
import Mathlib.Data.List.GetD

/-!
# Queries with outer joins

What is known of a query before its conditions and expressions are read is its `Shape`: the tables,
how they are joined, and which columns of the result are plain references.  It says where the
columns of the result come from.  A `Query` of a shape has the conditions and the expressions, which
are arbitrary functions, and has rows.

A cell of a row tells the NULL that a table holds from the one that an outer join or a grouping set
puts in the place of a column; conditions and expressions cannot.  The two directions are

* `Query.rows_fit` : a cell is in a table, where its column says so, or it is padding that its
  column `Allows`;
* `Shape.exists_padding` : what may be padding is padding, for some conditions and expressions.
-/

namespace Resolute.Relational

variable {T A V E : Type}

/-! ### Cells -/

inductive Cell (V : Type) where
  | value (v : V)
  /-- The NULL of a table or of an expression. -/
  | null
  /-- The NULL in the place of a column. -/
  | padding
  deriving DecidableEq, Repr

/-- What is seen of a cell. -/
def Cell.seen : Cell V → Option V
  | .value v => some v
  | .null => none
  | .padding => none

/-- A cell of a table or of an expression. -/
def Cell.ofOption : Option V → Cell V
  | some v => .value v
  | none => .null

@[simp] theorem Cell.seen_ofOption (v : Option V) : (Cell.ofOption v).seen = v := by
  cases v <;> rfl

@[simp] theorem Cell.ofOption_ne_padding (v : Option V) : Cell.ofOption v ≠ .padding := by
  cases v <;> exact fun h => by cases h

abbrev Row (V : Type) := List (Cell V)

/-- What is seen of a row. -/
def seen (x : Row V) : List (Option V) := x.map Cell.seen

/-- The row of an outer join that stands for a side without a partner. -/
def pad (width : ℕ) : Row V := List.replicate width .padding

/-! ### Shapes -/

inductive Join where
  | inner
  | left
  | right
  | full
  deriving DecidableEq, Repr

/-- Rows of the left side without a partner are in the result. -/
def Join.keepsLeft : Join → Bool
  | .inner => false
  | .left => true
  | .right => false
  | .full => true

/-- Rows of the right side without a partner are in the result. -/
def Join.keepsRight : Join → Bool
  | .inner => false
  | .left => false
  | .right => true
  | .full => true

/-- A query without its conditions and expressions; `T` names the tables and `A` their columns. -/
inductive Shape (T A : Type) where
  /-- Columns of a table. -/
  | table (t : T) (attrs : List A)
  /-- A source of computed columns. -/
  | computed (width : ℕ)
  | join (kind : Join) (left right : Shape T A)
  /-- A join whose right side may refer to the row of the left side. -/
  | lateral (outer : Bool) (left right : Shape T A)
  /-- A select list: each item is a column of the input, or an expression. -/
  | select (input : Shape T A) (items : List (Option ℕ))
  /-- `WHERE`, `GROUP BY`, `DISTINCT`, `LIMIT` and the like: some of the rows. -/
  | choose (input : Shape T A)
  /-- `GROUPING SETS`: the columns that each set keeps. -/
  | groupingSets (set : List ℕ) (sets : List (List ℕ)) (input : Shape T A)
  deriving DecidableEq, Repr

/-- A column of a result. -/
structure Column (T A : Type) where
  /-- The column of a table that it is a plain reference to. -/
  origin : Option (T × A)
  /-- An outer join or a grouping set may put NULL in its place. -/
  padded : Bool
  deriving DecidableEq, Repr

/-- A column of computed values. -/
def Column.computed : Column T A := ⟨none, false⟩

/-- The column on a side of a join that can lack a partner, if `outer`. -/
def Column.padIf (outer : Bool) (c : Column T A) : Column T A :=
  { c with padded := c.padded || outer }

/-- The grouping set `set` leaves out column `i`, which another of `sets` keeps. -/
def leavesOut (sets : List (List ℕ)) (set : List ℕ) (i : ℕ) : Bool :=
  !set.contains i && sets.any (·.contains i)

def Shape.columns : Shape T A → List (Column T A)
  | .table t attrs => attrs.map fun a => ⟨some (t, a), false⟩
  | .computed width => List.replicate width .computed
  | .join kind l r =>
    l.columns.map (Column.padIf kind.keepsRight) ++ r.columns.map (Column.padIf kind.keepsLeft)
  | .lateral outer l r => l.columns ++ r.columns.map (Column.padIf outer)
  | .select input items => items.map fun item =>
    (item.bind fun i => input.columns[i]?).getD .computed
  | .choose input => input.columns
  | .groupingSets set sets input => input.columns.mapIdx fun i c =>
    c.padIf ((set :: sets).any fun s => leavesOut (set :: sets) s i)

def Shape.width (s : Shape T A) : ℕ := s.columns.length

/-! ### Queries -/

/-- What an execution of a query depends on. -/
structure Env (T A V E : Type) where
  /-- The rows of the tables. -/
  tables : T → List (A → Option V)
  /-- The parameters, the clock, and what else there is. -/
  given : E
  /-- The rows that a lateral query is joined to. -/
  around : List (Option V) := []

def Env.within (e : Env T A V E) (x : Row V) : Env T A V E :=
  { e with around := e.around ++ seen x }

/-- A query of a shape. -/
inductive Query (T A V E : Type) : Shape T A → Type where
  | table (t : T) (attrs : List A) : Query T A V E (.table t attrs)
  | computed (width : ℕ) (rows : Env T A V E → List (Fin width → Option V)) :
    Query T A V E (.computed width)
  | join (kind : Join) {s s' : Shape T A} (on : Env T A V E → List (Option V) → Bool)
    (left : Query T A V E s) (right : Query T A V E s') : Query T A V E (.join kind s s')
  | lateral (outer : Bool) {s s' : Shape T A} (on : Env T A V E → List (Option V) → Bool)
    (left : Query T A V E s) (right : Query T A V E s') : Query T A V E (.lateral outer s s')
  /-- An expression depends on all rows, on the row's index and on the item's. -/
  | select {s : Shape T A} (items : List (Option ℕ))
    (exprs : Env T A V E → List (List (Option V)) → ℕ → ℕ → Option V)
    (input : Query T A V E s) : Query T A V E (.select s items)
  /-- The indices of the rows. -/
  | choose {s : Shape T A} (which : Env T A V E → List (List (Option V)) → List ℕ)
    (input : Query T A V E s) : Query T A V E (.choose s)
  | groupingSets (set : List ℕ) (sets : List (List ℕ)) {s : Shape T A}
    (input : Query T A V E s) : Query T A V E (.groupingSets set sets s)

/-- A row of the left side with its partners, and without one if `outer`. -/
def extend (outer : Bool) (width : ℕ) (on : List (Option V) → Bool) (ys : List (Row V))
    (x : Row V) : List (Row V) :=
  let partners := ys.filter fun y => on (seen (x ++ y))
  if outer ∧ partners.isEmpty then [x ++ pad width] else partners.map (x ++ ·)

/-- The rows of the right side that have no partner. -/
def alone (on : List (Option V) → Bool) (xs ys : List (Row V)) : List (Row V) :=
  ys.filter fun y => xs.all fun x => !on (seen (x ++ y))

/-- An item of a select list. -/
def item (exprs : ℕ → Option V) (x : Row V) (j : ℕ) : Option ℕ → Cell V
  | some i => x.getD i .null
  | none => .ofOption (exprs j)

/-- The row in a grouping set. -/
def blank (sets : List (List ℕ)) (set : List ℕ) (x : Row V) : Row V :=
  x.mapIdx fun i c => if leavesOut sets set i then .padding else c

def Query.rows : {s : Shape T A} → Query T A V E s → Env T A V E → List (Row V)
  | _, .table t attrs, e => (e.tables t).map fun row => attrs.map fun a => .ofOption (row a)
  | _, .computed _ rows, e => (rows e).map fun row => List.ofFn fun i => .ofOption (row i)
  | .join _ s s', .join kind on l r, e =>
    (l.rows e).flatMap (extend kind.keepsLeft s'.width (on e) (r.rows e)) ++
      if kind.keepsRight then (alone (on e) (l.rows e) (r.rows e)).map (pad s.width ++ ·) else []
  | .lateral _ _ s', .lateral outer on l r, e =>
    (l.rows e).flatMap fun x => extend outer s'.width (on e) (r.rows (e.within x)) x
  | _, .select items exprs input, e =>
    (input.rows e).mapIdx fun k x =>
      items.mapIdx (item (exprs e ((input.rows e).map seen) k) x)
  | _, .choose which input, e =>
    (which e ((input.rows e).map seen)).filterMap ((input.rows e)[·]?)
  | _, .groupingSets set sets input, e =>
    (set :: sets).flatMap fun s => (input.rows e).map (blank (set :: sets) s)

/-! ### Where the cells come from -/

theorem mem_extend {outer : Bool} {width : ℕ} {on : List (Option V) → Bool} {ys : List (Row V)}
    {x z : Row V} :
    z ∈ extend outer width on ys x ↔
      (∃ y ∈ ys, on (seen (x ++ y)) = true ∧ x ++ y = z) ∨
        outer = true ∧ (∀ y ∈ ys, on (seen (x ++ y)) = false) ∧ x ++ pad width = z := by
  have hempty : (ys.filter fun y => on (seen (x ++ y))).isEmpty = true ↔
      ∀ y ∈ ys, on (seen (x ++ y)) = false := by simp [List.filter_eq_nil_iff]
  simp only [extend]
  split_ifs with h
  · have hnone := hempty.1 h.2
    constructor
    · intro hz
      exact .inr ⟨h.1, hnone, (List.mem_singleton.1 hz).symm⟩
    · rintro (⟨y, hy, hon, -⟩ | ⟨-, -, rfl⟩)
      · simp [hnone y hy] at hon
      · exact List.mem_singleton_self _
  · constructor
    · intro hz
      obtain ⟨y, hy, rfl⟩ := List.mem_map.1 hz
      exact .inl ⟨y, (List.mem_filter.1 hy).1, (List.mem_filter.1 hy).2, rfl⟩
    · rintro (⟨y, hy, hon, rfl⟩ | ⟨houter, hnone, -⟩)
      · exact List.mem_map_of_mem (List.mem_filter.2 ⟨hy, hon⟩)
      · exact absurd ⟨houter, hempty.2 hnone⟩ h

theorem mem_alone {on : List (Option V) → Bool} {xs ys : List (Row V)} {y : Row V} :
    y ∈ alone on xs ys ↔ y ∈ ys ∧ ∀ x ∈ xs, on (seen (x ++ y)) = false := by
  simp [alone]

/-- What a column says of the cells in it. -/
def Column.Allows (tables : T → List (A → Option V)) (c : Column T A) (cell : Cell V) : Prop :=
  (cell = .padding → c.padded = true) ∧ ∀ t a, c.origin = some (t, a) →
    cell = .padding ∨ ∃ row ∈ tables t, cell = .ofOption (row a)

/-- Each cell of a row is as its column says. -/
abbrev Fits (tables : T → List (A → Option V)) (cs : List (Column T A)) (x : Row V) : Prop :=
  List.Forall₂ (Column.Allows tables) cs x

section

variable {tables : T → List (A → Option V)} {c : Column T A} {cs : List (Column T A)}
  {cell : Cell V} {x : Row V}

theorem Column.allows_computed (v : Option V) :
    (Column.computed : Column T A).Allows tables (.ofOption v) :=
  ⟨fun h => absurd h (Cell.ofOption_ne_padding v), fun t a h => by cases h⟩

theorem Column.allows_padding (h : c.padded = true) : c.Allows tables (.padding : Cell V) :=
  ⟨fun _ => h, fun _ _ _ => .inl rfl⟩

theorem Column.Allows.padIf (h : c.Allows tables cell) (outer : Bool) :
    (c.padIf outer).Allows tables cell :=
  ⟨fun hcell => by simp [Column.padIf, h.1 hcell], h.2⟩

theorem Fits.padIf (h : Fits tables cs x) (outer : Bool) :
    Fits tables (cs.map (Column.padIf outer)) x :=
  List.forall₂_map_left_iff.2 (h.imp fun _ _ hc => hc.padIf outer)

/-- The side without a partner. -/
theorem fits_pad (cs : List (Column T A)) :
    Fits tables (cs.map (Column.padIf true)) (pad cs.length : Row V) := by
  induction cs with
  | nil => exact .nil
  | cons c cs ih => exact .cons (Column.allows_padding (by simp [Column.padIf])) ih

/-- The cell of a column. -/
theorem Fits.getElem? (h : Fits tables cs x) {i : ℕ} (hc : cs[i]? = some c) :
    ∃ cell, x[i]? = some cell ∧ c.Allows tables cell := by
  obtain ⟨hi, rfl⟩ := List.getElem?_eq_some_iff.1 hc
  have hx : i < x.length := h.length_eq ▸ hi
  exact ⟨x[i], List.getElem?_eq_getElem hx, h.get hi hx⟩

theorem fits_of_getElem (hlength : cs.length = x.length)
    (h : ∀ (i : ℕ) (hi : i < cs.length) (hx : i < x.length), cs[i].Allows tables x[i]) :
    Fits tables cs x :=
  List.forall₂_iff_get.2 ⟨hlength, fun i hi hx => h i hi hx⟩

/-- A column of the input, or a computed one if there is no such column. -/
theorem Fits.reference (h : Fits tables cs x) (i : ℕ) :
    (cs[i]?.getD .computed).Allows tables (x.getD i .null) := by
  rw [List.getD_eq_getElem?_getD]
  cases hc : cs[i]? with
  | none =>
    have hx : x[i]? = none := by
      rw [List.getElem?_eq_none_iff, ← h.length_eq]
      exact List.getElem?_eq_none_iff.1 hc
    rw [hx]
    exact Column.allows_computed none
  | some c =>
    obtain ⟨cell, hcell, hallows⟩ := h.getElem? hc
    rw [hcell]
    exact hallows

theorem Fits.select (h : Fits tables cs x) (items : List (Option ℕ)) (exprs : ℕ → Option V) :
    Fits tables (items.map fun item => (item.bind fun i => cs[i]?).getD .computed)
      (items.mapIdx (item exprs x)) := by
  refine fits_of_getElem (by simp) fun j hj _ => ?_
  have hlt : j < items.length := by simpa using hj
  rw [List.getElem_map, List.getElem_mapIdx]
  cases items[j] with
  | none => exact Column.allows_computed _
  | some i => exact h.reference i

theorem Fits.blank (h : Fits tables cs x) {sets : List (List ℕ)} {set : List ℕ}
    (hset : set ∈ sets) :
    Fits tables (cs.mapIdx fun i c => c.padIf (sets.any fun s => leavesOut sets s i))
      (blank sets set x) := by
  refine fits_of_getElem (by simpa [Relational.blank] using h.length_eq) fun i hi hx => ?_
  simp only [Relational.blank, List.getElem_mapIdx]
  split_ifs with hout
  · refine Column.allows_padding ?_
    simp only [Column.padIf, Bool.or_eq_true, List.any_eq_true]
    exact .inr ⟨set, hset, hout⟩
  · exact (h.get _ _).padIf _

end

/-- **Cells come from where the columns say.**  A cell of a column that is a plain reference is in
the table, or it is padding, and then the column may be padded. -/
theorem Query.rows_fit {s : Shape T A} (q : Query T A V E s) (e : Env T A V E) :
    ∀ x ∈ q.rows e, Fits e.tables s.columns x := by
  induction q generalizing e with
  | table t attrs =>
    intro x hx
    obtain ⟨row, hrow, rfl⟩ := List.mem_map.1 hx
    refine List.forall₂_map_left_iff.2 (List.forall₂_map_right_iff.2 ?_)
    refine List.forall₂_same.2 fun a _ => ⟨fun h => absurd h (Cell.ofOption_ne_padding _), ?_⟩
    rintro _ _ ⟨⟩
    exact .inr ⟨row, hrow, rfl⟩
  | computed width rows =>
    intro x hx
    obtain ⟨row, -, rfl⟩ := List.mem_map.1 hx
    refine fits_of_getElem (by simp [Shape.columns]) fun i _ _ => ?_
    simpa [Shape.columns] using Column.allows_computed _
  | @join kind s s' on l r ihl ihr =>
    intro z hz
    rcases List.mem_append.1 hz with hz | hz
    · obtain ⟨x, hx, hz⟩ := List.mem_flatMap.1 hz
      rcases mem_extend.1 hz with ⟨y, hy, -, rfl⟩ | ⟨hkeeps, -, rfl⟩
      · exact List.rel_append ((ihl e x hx).padIf _) ((ihr e y hy).padIf _)
      · simp only [Shape.columns, hkeeps]
        exact List.rel_append ((ihl e x hx).padIf _) (fits_pad _)
    · cases hkeeps : kind.keepsRight with
      | false => simp [hkeeps] at hz
      | true =>
        rw [hkeeps, if_pos rfl] at hz
        obtain ⟨y, hy, rfl⟩ := List.mem_map.1 hz
        simp only [Shape.columns, hkeeps]
        exact List.rel_append (fits_pad _) ((ihr e y (mem_alone.1 hy).1).padIf _)
  | @lateral outer s s' on l r ihl ihr =>
    intro z hz
    obtain ⟨x, hx, hz⟩ := List.mem_flatMap.1 hz
    rcases mem_extend.1 hz with ⟨y, hy, -, rfl⟩ | ⟨rfl, -, rfl⟩
    · exact List.rel_append (ihl e x hx) ((ihr (e.within x) y hy).padIf _)
    · exact List.rel_append (ihl e x hx) (fits_pad _)
  | select items exprs input ih =>
    intro z hz
    obtain ⟨k, hk, rfl⟩ := List.mem_mapIdx.1 hz
    exact (ih e _ (List.getElem_mem hk)).select items _
  | choose which input ih =>
    intro x hx
    obtain ⟨k, -, hk⟩ := List.mem_filterMap.1 hx
    exact ih e x (List.mem_of_getElem? hk)
  | groupingSets set sets input ih =>
    intro z hz
    obtain ⟨s, hs, hz⟩ := List.mem_flatMap.1 hz
    obtain ⟨x, hx, rfl⟩ := List.mem_map.1 hz
    exact (ih e x hx).blank hs

/-! ### What may be padding -/

/-- A query of the shape: all conditions hold, and all expressions are NULL. -/
def Shape.fill : (s : Shape T A) → Query T A V E s
  | .table t attrs => .table t attrs
  | .computed width => .computed width fun _ => [fun _ => none]
  | .join kind l r => .join kind (fun _ _ => true) l.fill r.fill
  | .lateral outer l r => .lateral outer (fun _ _ => true) l.fill r.fill
  | .select input items => .select items (fun _ _ _ _ => none) input.fill
  | .choose input => .choose (fun _ xs => List.range xs.length) input.fill
  | .groupingSets set sets input => .groupingSets set sets input.fill

section

variable {s s' : Shape T A} {e : Env T A V E} {x y : Row V}

theorem Query.mem_rows_join {kind : Join} {on : Env T A V E → List (Option V) → Bool}
    {l : Query T A V E s} {r : Query T A V E s'} {z : Row V} :
    z ∈ (Query.join kind on l r).rows e ↔
      (∃ x ∈ l.rows e, z ∈ extend kind.keepsLeft s'.width (on e) (r.rows e) x) ∨
        kind.keepsRight = true ∧
          ∃ y ∈ alone (on e) (l.rows e) (r.rows e), pad s.width ++ y = z := by
  rw [Query.rows, List.mem_append, List.mem_flatMap]
  cases kind.keepsRight <;> simp

/-- Partners. -/
theorem Query.mem_rows_join_of_on {kind : Join} {on : Env T A V E → List (Option V) → Bool}
    {l : Query T A V E s} {r : Query T A V E s'} (hx : x ∈ l.rows e) (hy : y ∈ r.rows e)
    (hon : on e (seen (x ++ y)) = true) : x ++ y ∈ (Query.join kind on l r).rows e :=
  mem_rows_join.2 (.inl ⟨x, hx, mem_extend.2 (.inl ⟨y, hy, hon, rfl⟩)⟩)

/-- No partner. -/
theorem Query.mem_rows_join_left {kind : Join} {on : Env T A V E → List (Option V) → Bool}
    {l : Query T A V E s} {r : Query T A V E s'} (hkeeps : kind.keepsLeft = true)
    (hx : x ∈ l.rows e) (hon : ∀ y ∈ r.rows e, on e (seen (x ++ y)) = false) :
    x ++ pad s'.width ∈ (Query.join kind on l r).rows e :=
  mem_rows_join.2 (.inl ⟨x, hx, mem_extend.2 (.inr ⟨hkeeps, hon, rfl⟩)⟩)

theorem Query.mem_rows_join_right {kind : Join} {on : Env T A V E → List (Option V) → Bool}
    {l : Query T A V E s} {r : Query T A V E s'} (hkeeps : kind.keepsRight = true)
    (hy : y ∈ r.rows e) (hon : ∀ x ∈ l.rows e, on e (seen (x ++ y)) = false) :
    pad s.width ++ y ∈ (Query.join kind on l r).rows e :=
  mem_rows_join.2 (.inr ⟨hkeeps, y, mem_alone.2 ⟨hy, hon⟩, rfl⟩)

theorem Query.mem_rows_lateral_left {outer : Bool} {on : Env T A V E → List (Option V) → Bool}
    {l : Query T A V E s} {r : Query T A V E s'} (houter : outer = true) (hx : x ∈ l.rows e)
    (hon : ∀ y ∈ r.rows (e.within x), on e (seen (x ++ y)) = false) :
    x ++ pad s'.width ∈ (Query.lateral outer on l r).rows e :=
  List.mem_flatMap.2 ⟨x, hx, mem_extend.2 (.inr ⟨houter, hon, rfl⟩)⟩

theorem Query.mem_rows_lateral_of_on {outer : Bool} {on : Env T A V E → List (Option V) → Bool}
    {l : Query T A V E s} {r : Query T A V E s'} (hx : x ∈ l.rows e)
    (hy : y ∈ r.rows (e.within x)) (hon : on e (seen (x ++ y)) = true) :
    x ++ y ∈ (Query.lateral outer on l r).rows e :=
  List.mem_flatMap.2 ⟨x, hx, mem_extend.2 (.inl ⟨y, hy, hon, rfl⟩)⟩

/-- All rows are chosen. -/
theorem Query.mem_rows_choose_all {q : Query T A V E s} (hx : x ∈ q.rows e) :
    x ∈ (Query.choose (fun _ xs => List.range xs.length) q).rows e := by
  obtain ⟨k, hk⟩ := List.getElem?_of_mem hx
  have hlt : k < (q.rows e).length := (List.getElem?_eq_some_iff.1 hk).1
  refine List.mem_filterMap.2 ⟨k, List.mem_range.2 ?_, hk⟩
  rwa [List.length_map]

/-- If no table is empty, the query has a row. -/
theorem Shape.exists_mem_fill (s : Shape T A) {e : Env T A V E} (h : ∀ t, e.tables t ≠ []) :
    ∃ x, x ∈ (s.fill : Query T A V E s).rows e := by
  induction s generalizing e with
  | table t attrs =>
    obtain ⟨row, hrow⟩ := List.exists_mem_of_ne_nil _ (h t)
    exact ⟨_, List.mem_map_of_mem hrow⟩
  | computed width => exact ⟨_, List.mem_singleton_self _⟩
  | join kind l r ihl ihr =>
    obtain ⟨x, hx⟩ := ihl h
    obtain ⟨y, hy⟩ := ihr h
    exact ⟨x ++ y, Query.mem_rows_join_of_on hx hy rfl⟩
  | lateral outer l r ihl ihr =>
    obtain ⟨x, hx⟩ := ihl h
    obtain ⟨y, hy⟩ := ihr (e := e.within x) h
    exact ⟨x ++ y, Query.mem_rows_lateral_of_on hx hy rfl⟩
  | select input items ih =>
    obtain ⟨x, hx⟩ := ih h
    obtain ⟨k, hk, rfl⟩ := List.getElem_of_mem hx
    exact ⟨_, List.mem_mapIdx.2 ⟨k, hk, rfl⟩⟩
  | choose input ih =>
    obtain ⟨x, hx⟩ := ih h
    exact ⟨x, Query.mem_rows_choose_all hx⟩
  | groupingSets set sets input ih =>
    obtain ⟨x, hx⟩ := ih h
    exact ⟨_, List.mem_flatMap.2 ⟨set, List.mem_cons_self, List.mem_map_of_mem hx⟩⟩

/-- A cell of the right side of a join. -/
theorem Query.getElem?_append_right {q : Query T A V E s} (hx : x ∈ q.rows e) {i : ℕ}
    (hi : s.width ≤ i) (y : Row V) : (x ++ y)[i]? = y[i - s.width]? := by
  have hlength : x.length = s.width := (q.rows_fit e x hx).length_eq.symm
  rw [List.getElem?_append_right (hlength ▸ hi), hlength]

theorem getElem?_append_of_some {i : ℕ} {cell : Cell V} (h : x[i]? = some cell) (y : Row V) :
    (x ++ y)[i]? = some cell := by
  rw [List.getElem?_append_left (List.getElem?_eq_some_iff.1 h).1, h]

theorem getElem?_pad {width i : ℕ} (h : i < width) : (pad width : Row V)[i]? = some .padding := by
  rw [pad, List.getElem?_replicate, if_pos h]

/-- A column on a side of a join may be padded before the join, or by it. -/
theorem padded_cases {cs : List (Column T A)} {outer : Bool} {i : ℕ} {c : Column T A}
    (hc : (cs.map (Column.padIf outer))[i]? = some c) (hpadded : c.padded = true) :
    (∃ c', cs[i]? = some c' ∧ c'.padded = true) ∨ outer = true ∧ i < cs.length := by
  rw [List.getElem?_map, Option.map_eq_some_iff] at hc
  obtain ⟨c', hc', rfl⟩ := hc
  rcases (Bool.or_eq_true _ _).mp hpadded with h | h
  · exact .inl ⟨c', hc', h⟩
  · exact .inr ⟨h, (List.getElem?_eq_some_iff.1 hc').1⟩

end

/-- **What may be padding is padding for some query of the shape**, whatever the tables have in
them, if none is empty. -/
theorem Shape.exists_padding (s : Shape T A) {i : ℕ} {c : Column T A} (hc : s.columns[i]? = some c)
    (hpadded : c.padded = true) : ∃ q : Query T A V E s, ∀ e : Env T A V E,
      (∀ t, e.tables t ≠ []) → ∃ x ∈ q.rows e, x[i]? = some .padding := by
  induction s generalizing i c with
  | table t attrs =>
    obtain ⟨a, -, rfl⟩ := List.mem_map.1 (List.mem_of_getElem? hc)
    cases hpadded
  | computed width =>
    obtain ⟨-, rfl⟩ := List.mem_replicate.1 (List.mem_of_getElem? hc)
    cases hpadded
  | join kind l r ihl ihr =>
    rw [Shape.columns, List.getElem?_append, List.length_map] at hc
    split_ifs at hc with hi
    · rcases padded_cases hc hpadded with ⟨c', hc', hpadded'⟩ | ⟨hkeeps, hi⟩
      · -- the padding was there before the join: join with every row
        obtain ⟨q, hq⟩ := ihl hc' hpadded'
        refine ⟨.join kind (fun _ _ => true) q r.fill, fun e h => ?_⟩
        obtain ⟨x, hx, hpad⟩ := hq e h
        obtain ⟨y, hy⟩ := r.exists_mem_fill h
        exact ⟨x ++ y, Query.mem_rows_join_of_on hx hy rfl, getElem?_append_of_some hpad y⟩
      · -- no row of the left side is a partner
        refine ⟨.join kind (fun _ _ => false) l.fill r.fill, fun e h => ?_⟩
        obtain ⟨y, hy⟩ := r.exists_mem_fill h
        exact ⟨pad l.width ++ y, Query.mem_rows_join_right hkeeps hy fun _ _ => rfl,
          getElem?_append_of_some (getElem?_pad hi) y⟩
    · rcases padded_cases hc hpadded with ⟨c', hc', hpadded'⟩ | ⟨hkeeps, hi'⟩
      · obtain ⟨q, hq⟩ := ihr hc' hpadded'
        refine ⟨.join kind (fun _ _ => true) l.fill q, fun e h => ?_⟩
        obtain ⟨x, hx⟩ := l.exists_mem_fill h
        obtain ⟨y, hy, hpad⟩ := hq e h
        refine ⟨x ++ y, Query.mem_rows_join_of_on hx hy rfl, ?_⟩
        rw [Query.getElem?_append_right hx (Nat.not_lt.1 hi)]
        exact hpad
      · -- no row of the right side is a partner
        refine ⟨.join kind (fun _ _ => false) l.fill r.fill, fun e h => ?_⟩
        obtain ⟨x, hx⟩ := l.exists_mem_fill h
        refine ⟨x ++ pad r.width, Query.mem_rows_join_left hkeeps hx fun _ _ => rfl, ?_⟩
        rw [Query.getElem?_append_right hx (Nat.not_lt.1 hi)]
        exact getElem?_pad hi'
  | lateral outer l r ihl ihr =>
    rw [Shape.columns, List.getElem?_append] at hc
    split_ifs at hc with hi
    · -- a column of the left side
      obtain ⟨q, hq⟩ := ihl hc hpadded
      refine ⟨.lateral outer (fun _ _ => true) q r.fill, fun e h => ?_⟩
      obtain ⟨x, hx, hpad⟩ := hq e h
      obtain ⟨y, hy⟩ := r.exists_mem_fill (e := e.within x) h
      exact ⟨x ++ y, Query.mem_rows_lateral_of_on hx hy rfl, getElem?_append_of_some hpad y⟩
    · rcases padded_cases hc hpadded with ⟨c', hc', hpadded'⟩ | ⟨houter, hi'⟩
      · obtain ⟨q, hq⟩ := ihr hc' hpadded'
        refine ⟨.lateral outer (fun _ _ => true) l.fill q, fun e h => ?_⟩
        obtain ⟨x, hx⟩ := l.exists_mem_fill h
        obtain ⟨y, hy, hpad⟩ := hq (e.within x) h
        refine ⟨x ++ y, Query.mem_rows_lateral_of_on hx hy rfl, ?_⟩
        rw [Query.getElem?_append_right hx (Nat.not_lt.1 hi)]
        exact hpad
      · -- the inner query never matches
        refine ⟨.lateral outer (fun _ _ => false) l.fill r.fill, fun e h => ?_⟩
        obtain ⟨x, hx⟩ := l.exists_mem_fill h
        refine ⟨x ++ pad r.width, Query.mem_rows_lateral_left houter hx fun _ _ => rfl, ?_⟩
        rw [Query.getElem?_append_right hx (Nat.not_lt.1 hi)]
        exact getElem?_pad hi'
  | select input items ih =>
    rw [Shape.columns, List.getElem?_map, Option.map_eq_some_iff] at hc
    obtain ⟨it, hit, rfl⟩ := hc
    cases hcolumn : it.bind fun j => input.columns[j]? with
    | none =>
      rw [hcolumn] at hpadded
      cases hpadded
    | some c =>
      rw [hcolumn] at hpadded
      obtain ⟨j, rfl, hj⟩ := Option.bind_eq_some_iff.1 hcolumn
      obtain ⟨q, hq⟩ := ih hj hpadded
      refine ⟨.select items (fun _ _ _ _ => none) q, fun e h => ?_⟩
      obtain ⟨x, hx, hpad⟩ := hq e h
      obtain ⟨k, hk, rfl⟩ := List.getElem_of_mem hx
      refine ⟨_, List.mem_mapIdx.2 ⟨k, hk, rfl⟩, ?_⟩
      rw [List.getElem?_mapIdx, hit, Option.map_some, item, List.getD_eq_getElem?_getD, hpad]
      rfl
  | choose input ih =>
    obtain ⟨q, hq⟩ := ih hc hpadded
    refine ⟨.choose (fun _ xs => List.range xs.length) q, fun e h => ?_⟩
    obtain ⟨x, hx, hi⟩ := hq e h
    exact ⟨x, Query.mem_rows_choose_all hx, hi⟩
  | groupingSets set sets input ih =>
    rw [Shape.columns, List.getElem?_mapIdx, Option.map_eq_some_iff] at hc
    obtain ⟨c', hc', rfl⟩ := hc
    rcases (Bool.or_eq_true _ _).mp hpadded with hpadded' | hout
    · obtain ⟨q, hq⟩ := ih hc' hpadded'
      refine ⟨.groupingSets set sets q, fun e h => ?_⟩
      obtain ⟨x, hx, hpad⟩ := hq e h
      refine ⟨_, List.mem_flatMap.2 ⟨set, List.mem_cons_self, List.mem_map_of_mem hx⟩, ?_⟩
      rw [blank, List.getElem?_mapIdx, hpad, Option.map_some, ite_self]
    · obtain ⟨s, hs, hout⟩ := List.any_eq_true.1 hout
      refine ⟨.groupingSets set sets input.fill, fun e h => ?_⟩
      obtain ⟨x, hx⟩ := input.exists_mem_fill h
      refine ⟨_, List.mem_flatMap.2 ⟨s, hs, List.mem_map_of_mem hx⟩, ?_⟩
      obtain ⟨cell, hcell, -⟩ := (Query.rows_fit _ _ _ hx).getElem? hc'
      rw [blank, List.getElem?_mapIdx, hcell, Option.map_some, if_pos hout]

end Resolute.Relational
