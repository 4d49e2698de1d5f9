import Resolute.Client.Basic
import Resolute.Rust.Str
import Resolute.Sql.Agreement

/-!
# The structure of the rewritten text

Whatever the rewriter makes of a text, what it returns can be undone: the names are those that the
`numbers` in the result stand for, in the order in which they come first, and with each number
replaced by its name (`restore`) the text is what it was.  The values that were bound to the names
are then put at the positions of these numbers, by `resolve_named_params` for a slice of parameters
and by `materialize` for a builder.

A text may have a `$N` of its own (`hasNumber`), which the rewriter leaves as it is; there is then
no telling which numbers are the rewriter's.  For the others, `rewrite_structure` puts the text that
is given back, the numbers and the values together.
-/

namespace Resolute.NamedParams

/-! ### Numbers in a text -/

/-- The text has a `$N`. -/
def hasNumber : List Char → Bool
  | [] => false
  | c :: cs => (c == '$' && cs.head?.any Char.isDigit) || hasNumber cs

/-- A piece of a text in which numbers stand for names. -/
inductive Token where
  | char (c : Char)
  /-- `$N`. -/
  | number (n : ℕ)
  deriving DecidableEq, Repr

/-- Read a text. -/
def tokens : List Char → List Token
  | [] => []
  | c :: cs =>
    if c = '$' ∧ cs.head?.any Char.isDigit then
      .number (Nat.ofDigitChars 10 (cs.takeWhile Char.isDigit) 0) ::
        tokens (cs.dropWhile Char.isDigit)
    else .char c :: tokens cs
termination_by cs => cs.length
decreasing_by
  · exact Nat.lt_succ_of_le (List.dropWhile_suffix _).length_le
  · exact Nat.lt_succ_self _

/-- The number of a token. -/
def Token.number? : Token → Option ℕ
  | char _ => none
  | number n => some n

/-- The numbers of a text. -/
def numbers (cs : List Char) : List ℕ := (tokens cs).filterMap Token.number?

/-- A token, with the name for a number. -/
def Token.restore (names : List String) : Token → List Char
  | char c => [c]
  | number n => ':' :: (names.getD (n - 1) "").toList

/-- The text, with the names for the numbers. -/
def restore (names : List String) (cs : List Char) : List Char :=
  (tokens cs).flatMap (Token.restore names)

theorem tokens_nil : tokens [] = [] := by rw [tokens]

theorem tokens_char {c : Char} {cs : List Char} (h : ¬(c = '$' ∧ cs.head?.any Char.isDigit)) :
    tokens (c :: cs) = .char c :: tokens cs := by
  rw [tokens, if_neg h]

/-- What the rewriter puts for a placeholder is read as its number. -/
theorem tokens_number (n : ℕ) {cs : List Char} (h : cs.head?.any Char.isDigit = false) :
    tokens ('$' :: (toString n).toList ++ cs) = .number n :: tokens cs := by
  obtain ⟨d, ds, hd⟩ := List.exists_cons_of_ne_nil (toString_ne_nil n)
  have hdigit : d.isDigit = true := isDigit_toString n d (by rw [hd]; exact List.mem_cons_self)
  have hhead : ((toString n).toList ++ cs).head?.any Char.isDigit = true := by
    rw [hd]
    exact hdigit
  obtain ⟨htake, hdrop⟩ := Rust.takeWhile_append_of_head? (isDigit_toString n) h
  rw [List.cons_append, tokens, if_pos ⟨rfl, hhead⟩, htake, hdrop,
    Nat.toString_eq_ofList_toDigits, String.toList_ofList, Nat.ofDigitChars_ten_toDigits]

theorem hasNumber_append {t cs : List Char} (h : hasNumber (t ++ cs) = false) :
    hasNumber cs = false := by
  induction t with
  | nil => exact h
  | cons c t ih =>
    rw [List.cons_append, hasNumber, Bool.or_eq_false_iff] at h
    exact ih h.2

/-- A text without numbers is read character by character, in front of what does not begin with a
digit unless the rest of the text does. -/
theorem tokens_append {t cs seg : List Char} (h : hasNumber (t ++ cs) = false)
    (hhead : seg.head?.any Char.isDigit = true → cs.head?.any Char.isDigit = true) :
    tokens (t ++ seg) = t.map .char ++ tokens seg := by
  induction t with
  | nil => rfl
  | cons c t ih =>
    rw [List.cons_append, hasNumber, Bool.or_eq_false_iff, Bool.and_eq_false_iff,
      beq_eq_false_iff_ne] at h
    rw [List.cons_append, tokens_char, ih h.2, List.map_cons, List.cons_append]
    rintro ⟨rfl, hdigit⟩
    have hnext := h.1.resolve_left fun hne => hne rfl
    cases t with
    | nil =>
      rw [List.nil_append] at hdigit hnext
      rw [hhead hdigit] at hnext
      cases hnext
    | cons d t =>
      rw [List.cons_append] at hdigit hnext
      exact Bool.false_ne_true (hnext.symm.trans hdigit)

/-! ### The rest of a text -/

/-- How the rewriter gets from `out` to `fin` by the text `cs`, of which it makes `seg`. -/
structure Undone (out fin : Output) (cs seg : List Char) : Prop where
  result : fin.result = out.result ++ seg
  names : out.names <+: fin.names
  restore : restore fin.names seg = cs
  head : seg.head?.any Char.isDigit = true → cs.head?.any Char.isDigit = true
  numbers : (List.range' 1 out.names.length ++ numbers seg).eraseDups =
    List.range' 1 fin.names.length

/-- A number that is there already adds nothing. -/
theorem eraseDups_append_cons_of_mem {l ks : List ℕ} {k : ℕ} (h : k ∈ l) :
    (l ++ k :: ks).eraseDups = (l ++ ks).eraseDups := by
  rw [List.eraseDups_append, List.eraseDups_append]
  simp [List.removeAll, h]

theorem eraseDups_range' (n : ℕ) : (List.range' 1 n).eraseDups = List.range' 1 n := by
  induction n with
  | zero => rfl
  | succ n ih =>
    rw [List.range'_concat, Nat.one_mul, List.eraseDups_append, ih]
    simp [List.removeAll, List.eraseDups_cons]

/-- A placeholder gets the number of its name, or the next number and its name the next place. -/
theorem placeholder_spec {out : Output} (h : Consistent out) (name : String) :
    ∃ k, (out.placeholder name).result = out.result ++ '$' :: (toString k).toList ∧
      out.names <+: (out.placeholder name).names ∧
      (out.placeholder name).names[k - 1]? = some name ∧
      ∀ ks, (List.range' 1 out.names.length ++ k :: ks).eraseDups =
        (List.range' 1 (out.placeholder name).names.length ++ ks).eraseDups := by
  by_cases hn : name ∈ out.names
  · refine ⟨out.names.idxOf name + 1, ?_⟩
    rw [placeholder_of_mem h hn]
    refine ⟨rfl, List.prefix_rfl, List.getElem?_idxOf hn, fun ks => ?_⟩
    have hlt := List.idxOf_lt_length_of_mem hn
    exact eraseDups_append_cons_of_mem (List.mem_range'_1.mpr ⟨by omega, by omega⟩)
  · refine ⟨out.names.length + 1, ?_⟩
    rw [placeholder_of_not_mem h hn]
    refine ⟨rfl, List.prefix_append _ _, by simp, fun ks => ?_⟩
    rw [List.length_append, List.length_singleton, List.range'_concat, List.append_assoc,
      Nat.one_mul, Nat.add_comm 1]
    rfl

namespace Undone

theorem nil (out : Output) : Undone out out [] [] where
  result := (List.append_nil _).symm
  names := List.prefix_rfl
  restore := by rw [NamedParams.restore, tokens_nil]; rfl
  head := id
  numbers := by
    rw [NamedParams.numbers, tokens_nil]
    simpa using eraseDups_range' _

/-- A text that is copied. -/
theorem push {out fin : Output} {t cs seg : List Char} (h : Undone (out.push t) fin cs seg)
    (ht : hasNumber (t ++ cs) = false) : Undone out fin (t ++ cs) (t ++ seg) where
  result := by rw [h.result, Output.push, List.append_assoc]
  names := h.names
  restore := by
    have hcs := h.restore
    rw [NamedParams.restore] at hcs ⊢
    rw [tokens_append ht h.head, List.flatMap_append, hcs, List.flatMap_map]
    simp [Token.restore]
  head := by
    cases t with
    | nil => exact h.head
    | cons c t => exact id
  numbers := by
    have hcs := h.numbers
    rw [NamedParams.numbers] at hcs ⊢
    rw [tokens_append ht h.head, List.filterMap_append, List.filterMap_map]
    simpa [Token.number?, Function.comp_def, Output.push] using hcs

/-- A placeholder. -/
theorem placeholder {out fin : Output} {name : String} {cs seg : List Char}
    (h : Undone (out.placeholder name) fin cs seg) (hout : Consistent out)
    (hcs : cs.head?.any Char.isDigit = false) :
    ∃ seg', Undone out fin (':' :: name.toList ++ cs) seg' := by
  obtain ⟨k, hresult, hnames, hname, hnumbers⟩ := placeholder_spec hout name
  have hseg : seg.head?.any Char.isDigit = false := by
    rw [← Bool.not_eq_true]
    intro hdigit
    rw [h.head hdigit] at hcs
    cases hcs
  have htokens := tokens_number k hseg
  refine ⟨'$' :: (toString k).toList ++ seg, ?_, hnames.trans h.names, ?_, ?_, ?_⟩
  · rw [h.result, hresult, List.append_assoc]
  · have hget : fin.names.getD (k - 1) "" = name := by
      obtain ⟨later, hlater⟩ := h.names
      rw [List.getD_eq_getElem?_getD, ← hlater, List.getElem?_append_left (by
        rw [List.getElem?_eq_some_iff] at hname
        exact hname.1), hname]
      rfl
    rw [NamedParams.restore, htokens, List.flatMap_cons, Token.restore, hget]
    exact congrArg _ h.restore
  · exact fun hdigit => Bool.noConfusion hdigit
  · rw [NamedParams.numbers, htokens, List.filterMap_cons]
    exact (hnumbers _).trans h.numbers

end Undone

section

variable {U : Unicode}

theorem consistent_push {out : Output} (h : Consistent out) (t : List Char) :
    Consistent (out.push t) :=
  h

theorem consistent_placeholder {out : Output} (h : Consistent out) (name : String) :
    Consistent (out.placeholder name) := by
  simpa [emit, nameOf] using h.emit ⟨.placeholder, ':' :: name.toList⟩

theorem nodup_placeholder {out : Output} (h : Consistent out) (hnodup : out.names.Nodup)
    (name : String) : (out.placeholder name).names.Nodup := by
  by_cases hn : name ∈ out.names
  · rwa [placeholder_of_mem h hn]
  · rw [placeholder_of_not_mem h hn]
    exact List.nodup_append.mpr ⟨hnodup, by simp, fun a ha b hb => by
      rw [List.mem_singleton.mp hb]
      exact ne_of_mem_of_not_mem ha hn⟩

/-- The character behind a name is no digit. -/
theorem head?_dropWhile_isDigit (cs : List Char) :
    (cs.dropWhile U.isWord).head?.any Char.isDigit = false := by
  cases hhead : (cs.dropWhile U.isWord).head? with
  | none => rfl
  | some c =>
    have hword := Sql.head?_dropWhile hhead
    rw [← Bool.not_eq_true]
    intro hdigit
    rw [isWord_of_isDigit hdigit] at hword
    cases hword

/-- The rest of a text is undone: a pass copies what it reads, or replaces a placeholder. -/
theorem readOn_undone {out : Output} (hout : Consistent out) {cs : List Char}
    (hcs : hasNumber cs = false) : ∃ seg, Undone out (readOn U cs out) cs seg := by
  induction hlen : cs.length using Nat.strongRecOn generalizing cs out with
  | _ n ih =>
    cases cs with
    | nil => exact ⟨[], .nil out⟩
    | cons c cs =>
      subst hlen
      rw [readOn_cons]
      have hle := length_pass_le U c cs out
      rcases pass_cases U c cs out with ⟨t, rest, -, happend, hpass⟩ | ⟨⟨rfl, hname⟩, hpass⟩
      · rw [hpass] at hle ⊢
        rw [← happend] at hcs ⊢
        obtain ⟨seg, h⟩ := ih rest.length (Nat.lt_succ_of_le hle) (consistent_push hout t)
          (hasNumber_append hcs) rfl
        exact ⟨_, h.push hcs⟩
      · rw [hpass] at hle ⊢
        have hrest : hasNumber (cs.dropWhile U.isWord) = false :=
          hasNumber_append (t := ':' :: cs.takeWhile U.isWord) <| by
            rw [List.cons_append, List.takeWhile_append_dropWhile]
            exact hcs
        obtain ⟨seg, h⟩ := ih _ (Nat.lt_succ_of_le hle) (consistent_placeholder hout _) hrest rfl
        obtain ⟨seg', h'⟩ := h.placeholder hout (head?_dropWhile_isDigit cs)
        rw [String.toList_ofList, List.cons_append, List.takeWhile_append_dropWhile] at h'
        exact ⟨seg', h'⟩

/-- No name comes twice. -/
theorem readOn_nodup {out : Output} (hout : Consistent out) (h : out.names.Nodup)
    (cs : List Char) : (readOn U cs out).names.Nodup := by
  induction hlen : cs.length using Nat.strongRecOn generalizing cs out with
  | _ n ih =>
    cases cs with
    | nil => exact h
    | cons c cs =>
      subst hlen
      rw [readOn_cons]
      have hle := length_pass_le U c cs out
      rcases pass_cases U c cs out with ⟨t, rest, -, -, hpass⟩ | ⟨-, hpass⟩
      · rw [hpass] at hle ⊢
        exact ih _ (Nat.lt_succ_of_le hle) (consistent_push hout t) h rest rfl
      · rw [hpass] at hle ⊢
        exact ih _ (Nat.lt_succ_of_le hle) (consistent_placeholder hout _)
          (nodup_placeholder hout h _) _ rfl

end

/-- The whole text is undone. -/
theorem rewrite_undone (U : Unicode) {sql : String} (h : hasNumber sql.toList = false) :
    Undone {} (readOn U sql.toList {}) sql.toList (rewrite U sql).1.toList := by
  obtain ⟨seg, hseg⟩ := readOn_undone (U := U) consistent_empty h
  have hresult : (rewrite U sql).1.toList = seg := by
    rw [rewrite, String.toList_ofList]
    exact hseg.result
  rwa [hresult]

/-- With the names for the numbers, the text is what it was. -/
theorem rewrite_restore (U : Unicode) {sql : String} (h : hasNumber sql.toList = false) :
    restore (rewrite U sql).2 (rewrite U sql).1.toList = sql.toList :=
  (rewrite_undone U h).restore

/-- The numbers in the result are those of the names, and come first in the order of the names. -/
theorem rewrite_numbers (U : Unicode) {sql : String} (h : hasNumber sql.toList = false) :
    (numbers (rewrite U sql).1.toList).eraseDups = List.range' 1 (rewrite U sql).2.length :=
  (rewrite_undone U h).numbers

theorem rewrite_nodup (U : Unicode) (sql : String) : (rewrite U sql).2.Nodup :=
  readOn_nodup consistent_empty List.nodup_nil _

/-! ### Values -/

section

variable {α : Type}

/-- `resolve_named_params`. -/
def resolveNamedParams (names : List String) (params : List (String × α)) :
    Except TypedError (List α) :=
  names.mapM fun name =>
    match params.find? fun p => p.1 = name with
    | some p => .ok p.2
    | none => .error (.missingParam name)

/-- The parameters of a builder. -/
inductive BuilderParams (α : Type) where
  | empty
  | positional (values : List α)
  | named (values : List (String × α))
  | invalid (message : String)
  deriving DecidableEq, Repr

/-- Fluent builder for a runtime SQL query. -/
structure QueryBuilder (α : Type) where
  sql : String
  params : BuilderParams α
  deriving DecidableEq, Repr

namespace QueryBuilder

/-- `sql(text)`. -/
def new (sql : String) : QueryBuilder α := ⟨sql, .empty⟩

/-- The message for `bind` and `bind_named` on one builder. -/
def mixed : String := "cannot mix bind() and bind_named() on the same QueryBuilder"

/-- Bind a positional parameter. -/
def bind (b : QueryBuilder α) (value : α) : QueryBuilder α :=
  { b with params :=
    match b.params with
    | .empty => .positional [value]
    | .positional v => .positional (v ++ [value])
    | .named _ => .invalid mixed
    | .invalid msg => .invalid msg }

/-- Bind a named parameter. -/
def bindNamed (b : QueryBuilder α) (name : String) (value : α) : QueryBuilder α :=
  { b with params :=
    match b.params with
    | .empty => .named [(name, value)]
    | .named v => .named (v ++ [(name, value)])
    | .positional _ => .invalid mixed
    | .invalid msg => .invalid msg }

/-- The loop of `materialize` over the names in their order. -/
def order (v : List (String × α)) : (names : List String) → (ordered : List α) →
    Except TypedError (List α)
  | [], ordered => .ok ordered
  | name :: names, ordered =>
    match v.find? fun p => p.1 = name with
    | some found => order v names (ordered ++ [found.2])
    | none => .error (.missingParam name)

/-- `materialize`. -/
def materialize (U : Unicode) (b : QueryBuilder α) : Except TypedError (String × List α) :=
  match b.params with
  | .empty => .ok (b.sql, [])
  | .positional v => .ok (b.sql, v)
  | .named v =>
    let (rewritten, names) := rewrite U b.sql
    (order v names []).map (rewritten, ·)
  | .invalid msg => .error (.config msg)

/-- A builder after these calls of `bind_named`. -/
def bindAll (sql : String) (params : List (String × α)) : QueryBuilder α :=
  params.foldl (fun b p => b.bindNamed p.1 p.2) (new sql)

theorem foldl_bindNamed (sql : String) (v params : List (String × α)) :
    params.foldl (fun b p => b.bindNamed p.1 p.2) (⟨sql, .named v⟩ : QueryBuilder α) =
      ⟨sql, .named (v ++ params)⟩ := by
  induction params generalizing v with
  | nil => rw [List.foldl_nil, List.append_nil]
  | cons p params ih =>
    rw [List.foldl_cons, bindNamed]
    dsimp only
    rw [ih, List.append_assoc]
    rfl

theorem bindAll_eq (sql : String) {params : List (String × α)} (h : params ≠ []) :
    bindAll sql params = ⟨sql, .named params⟩ := by
  obtain ⟨p, ps, rfl⟩ := List.exists_cons_of_ne_nil h
  exact foldl_bindNamed sql [p] ps

end QueryBuilder

/-- The values that belong to the names, or the error for a name without a value. -/
structure Binds (names : List String) (params : List (String × α))
    (result : Except TypedError (List α)) : Prop where
  /-- Position `k` is that of the first value bound to name `k`. -/
  value : ∀ values, result = .ok values → values.length = names.length ∧
    ∀ k : ℕ, values[k]? = names[k]?.bind fun name => params.lookup name
  missing_iff : (∃ name, result = .error (.missingParam name)) ↔
    ∃ name ∈ names, params.lookup name = none
  missing : ∀ e, result = .error e → ∃ name ∈ names, params.lookup name = none ∧
    e = .missingParam name

theorem find?_eq_lookup (params : List (String × α)) (name : String) :
    (params.find? fun p => p.1 = name).map Prod.snd = params.lookup name := by
  induction params with
  | nil => rfl
  | cons p params ih =>
    rw [List.find?_cons, List.lookup_cons]
    by_cases h : p.1 = name
    · simp [h]
    · have hne : (name == p.1) = false := beq_false_of_ne fun heq => h heq.symm
      rw [hne]
      simpa [h] using ih

theorem resolveNamedParams_cons (name : String) (names : List String)
    (params : List (String × α)) : resolveNamedParams (name :: names) params =
      match params.lookup name with
      | some a => (resolveNamedParams names params).map (a :: ·)
      | none => .error (.missingParam name) := by
  rw [resolveNamedParams, List.mapM_cons, ← find?_eq_lookup]
  cases params.find? fun p => p.1 = name with
  | none => rfl
  | some p =>
    change (resolveNamedParams names params >>= fun values => .ok (p.2 :: values)) = _
    cases resolveNamedParams names params <;> rfl

/-- Either every name has a value, and these are returned, or the first one without is reported. -/
theorem resolveNamedParams_cases (names : List String) (params : List (String × α)) :
    (∃ values, resolveNamedParams names params = .ok values ∧
        values.map some = names.map fun name => params.lookup name) ∨
      ∃ name ∈ names, params.lookup name = none ∧
        resolveNamedParams names params = .error (.missingParam name) := by
  induction names with
  | nil => exact .inl ⟨[], rfl, rfl⟩
  | cons name names ih =>
    rw [resolveNamedParams_cons]
    cases hlookup : params.lookup name with
    | none => exact .inr ⟨name, List.mem_cons_self, hlookup, rfl⟩
    | some a =>
      dsimp only
      rcases ih with ⟨values, h, hvalues⟩ | ⟨n, hn, hnone, h⟩
      · rw [h]
        exact .inl ⟨a :: values, rfl, by rw [List.map_cons, List.map_cons, hlookup, hvalues]⟩
      · rw [h]
        exact .inr ⟨n, List.mem_cons_of_mem _ hn, hnone, rfl⟩

theorem resolveNamedParams_binds (names : List String) (params : List (String × α)) :
    Binds names params (resolveNamedParams names params) := by
  rcases resolveNamedParams_cases names params with ⟨values, h, hvalues⟩ | ⟨name, hname, hnone, h⟩
  · rw [h]
    refine ⟨fun v hv => ?_, ⟨?_, ?_⟩, fun e he => (by cases he)⟩
    · obtain rfl := Except.ok.inj hv
      have hlen := congrArg List.length hvalues
      rw [List.length_map, List.length_map] at hlen
      refine ⟨hlen, fun k => ?_⟩
      have hk := congrArg (fun l => l[k]?) hvalues
      simp only [List.getElem?_map] at hk
      cases hv : values[k]? <;> cases hn : names[k]? <;> simp_all
    · rintro ⟨n, hn⟩
      cases hn
    · rintro ⟨n, hn, hnone⟩
      have hmem : params.lookup n ∈ values.map some := by
        rw [hvalues]
        exact List.mem_map_of_mem hn
      rw [hnone] at hmem
      simp at hmem
  · rw [h]
    refine ⟨fun v hv => (by cases hv), ⟨fun _ => ⟨name, hname, hnone⟩, fun _ => ⟨name, rfl⟩⟩,
      fun e he => ?_⟩
    exact ⟨name, hname, hnone, (Except.error.inj he).symm⟩

namespace QueryBuilder

/-- The loop collects what `resolve_named_params` does. -/
theorem order_eq (v : List (String × α)) (names : List String) (ordered : List α) :
    order v names ordered = (resolveNamedParams names v).map (ordered ++ ·) := by
  induction names generalizing ordered with
  | nil =>
    rw [order]
    exact congrArg _ (List.append_nil _).symm
  | cons name names ih =>
    rw [order, resolveNamedParams_cons, ← find?_eq_lookup]
    cases v.find? fun p => p.1 = name with
    | none => rfl
    | some p =>
      dsimp only [Option.map_some]
      rw [ih]
      cases resolveNamedParams names v with
      | error e => rfl
      | ok values => simp [Except.map]

theorem materialize_bindAll (U : Unicode) (sql : String) {params : List (String × α)}
    (h : params ≠ []) : (bindAll sql params).materialize U =
      (resolveNamedParams (rewrite U sql).2 params).map ((rewrite U sql).1, ·) := by
  rw [bindAll_eq sql h, materialize]
  dsimp only
  rw [order_eq]
  cases resolveNamedParams (rewrite U sql).2 params <;> rfl

end QueryBuilder

/-- **The structure of the rewritten text.**  The names are distinct and stand for the numbers of
the text in the order in which these come first; with the names for its numbers the text is what it
was; and each number is given the value that was bound to its name. -/
theorem rewrite_structure (U : Unicode) (sql : String) (params : List (String × α))
    (h : hasNumber sql.toList = false) :
    (rewrite U sql).2.Nodup ∧
    (numbers (rewrite U sql).1.toList).eraseDups = List.range' 1 (rewrite U sql).2.length ∧
    restore (rewrite U sql).2 (rewrite U sql).1.toList = sql.toList ∧
    Binds (rewrite U sql).2 params (resolveNamedParams (rewrite U sql).2 params) ∧
    (params ≠ [] →
      (∀ text values, (QueryBuilder.bindAll sql params).materialize U = .ok (text, values) →
        text = (rewrite U sql).1) ∧
      Binds (rewrite U sql).2 params
        (((QueryBuilder.bindAll sql params).materialize U).map Prod.snd)) := by
  refine ⟨rewrite_nodup U sql, rewrite_numbers U h, rewrite_restore U h,
    resolveNamedParams_binds _ params, fun hparams => ?_⟩
  have hbinds := resolveNamedParams_binds (rewrite U sql).2 params
  rw [QueryBuilder.materialize_bindAll U sql hparams]
  cases hresolve : resolveNamedParams (rewrite U sql).2 params with
  | error e =>
    rw [hresolve] at hbinds
    exact ⟨fun text values h => (by cases h), hbinds⟩
  | ok v =>
    rw [hresolve] at hbinds
    refine ⟨fun text values h => ?_, hbinds⟩
    cases h
    rfl

end

/-- A text with two names, of which one comes twice. -/
theorem rewrite_structure_select :
    let sql := "SELECT :b, :a, :b"
    let params := [("a", 1), ("b", 2)]
    (rewrite .ascii sql).2.Nodup ∧
    (numbers (rewrite .ascii sql).1.toList).eraseDups =
      List.range' 1 (rewrite .ascii sql).2.length ∧
    restore (rewrite .ascii sql).2 (rewrite .ascii sql).1.toList = sql.toList ∧
    Binds (rewrite .ascii sql).2 params (resolveNamedParams (rewrite .ascii sql).2 params) ∧
    (params ≠ [] →
      (∀ text values, (QueryBuilder.bindAll sql params).materialize .ascii = .ok (text, values) →
        text = (rewrite .ascii sql).1) ∧
      Binds (rewrite .ascii sql).2 params
        (((QueryBuilder.bindAll sql params).materialize .ascii).map Prod.snd)) :=
  rewrite_structure .ascii "SELECT :b, :a, :b" [("a", 1), ("b", 2)] (by decide)

/-- A builder that nothing was bound to is one with positional parameters: its text is returned as
it is, and the name in it is not missed. -/
theorem materialize_unbound : hasNumber ":a".toList = false ∧
    ¬Binds (rewrite .ascii ":a").2 ([] : List (String × ℕ))
      (((QueryBuilder.bindAll ":a" []).materialize .ascii).map Prod.snd) := by
  refine ⟨by decide, fun h => ?_⟩
  have hnames : (rewrite .ascii ":a").2 = ["a"] := by decide
  rw [hnames] at h
  obtain ⟨name, herror⟩ := h.missing_iff.mpr ⟨"a", List.mem_singleton_self _, rfl⟩
  cases herror

end Resolute.NamedParams
