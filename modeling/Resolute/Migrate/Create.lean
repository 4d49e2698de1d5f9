import Mathlib.Data.List.Perm.Basic
import Mathlib.Data.Multiset.AddSub
import Resolute.Migrate.Timestamp
import Resolute.Rust.Str

/-!
# New migrations

`create` makes the names of the two files of a migration with `Path::with_extension`, which
replaces what is behind the last dot of a name (`withExtension`); `scan_migrations` takes the names
apart at `.up.sql` and at the first underscore.  Files are written whether they exist or not.

A directory yields its files in any order, and two migrations with one version are in this order in
the result, so that results are compared up to permutations.  After `create` has succeeded in a
directory, a scan should find the new migration, and else what was there (`Found`).
`scanMigrations_ok_iff` takes a scan apart file by file, `scanFile_up` reads the new file, and
`found_iff` says when the new migration is found.
-/

namespace Resolute.Migrate

/-! ### Paths -/

/-- `Path::file_name`, for a path that does not end with `/`, `.` or `..`. -/
def fileName (path : List Char) : List Char := (path.reverse.takeWhile (· ≠ '/')).reverse

/-- `Path::file_stem` of a file name: what is before the last dot, if there is something. -/
def fileStem (name : List Char) : List Char :=
  match name.reverse.dropWhile (· ≠ '.') with
  | [] | [_] => name
  | _ :: before => before.reverse

/-- `Path::with_extension`, with an extension that is not empty. -/
def withExtension (path extension : String) : String :=
  let name := fileName path.toList
  let parent := path.toList.take (path.toList.length - name.length)
  String.ofList (parent ++ (fileStem name ++ '.' :: extension.toList))

/-! ### Creating -/

/-- The paths that `create` returns, and the files that it writes. -/
def create (dir : Dir) (secs : UInt64) (name : String) :
    (String × String) × List (String × String) :=
  let ts := formatYyyymmddhhmmss secs
  let base := dir.join s!"{ts}_{name}"
  let upPath := withExtension base "up.sql"
  let downPath := withExtension base "down.sql"
  ((upPath, downPath),
    [(upPath, s!"-- Migration: {name}\n"), (downPath, s!"-- Revert: {name}\n")])

/-- `std::fs::write` of a file in a directory. -/
def write (files : List File) (file : String × String) : List File :=
  let name := some (String.ofList (fileName file.1.toList))
  if files.any (·.name = name) then
    files.map fun f => if f.name = name then ⟨name, .ok file.2⟩ else f
  else ⟨name, .ok file.2⟩ :: files

/-- The files of a directory, if there is one. -/
def Dir.files (dir : Dir) : List File := if dir.isDir then dir.entries.toOption.getD [] else []

/-- A directory after `create` has succeeded: `create_dir_all` has made sure that it exists, except
that it does nothing for an empty path, and the files have been written. -/
structure Created (dir : Dir) (secs : UInt64) (name : String) (dir' : Dir) : Prop where
  path : dir'.path = dir.path
  isDir : dir'.isDir = decide (dir.path ≠ "")
  entries : ∃ files, dir'.entries = .ok files ∧
    files.Perm ((create dir secs name).2.foldl write dir.files)

/-- The number that a timestamp is. -/
def timestamp (secs : UInt64) : ℕ := Nat.ofDigitChars 10 (formatYyyymmddhhmmss secs).toList 0

/-- A scan finds the new migration, and else what was there. -/
def Found (old : List Migration) (dir dir' : Dir) (secs : UInt64) (name : String) : Prop :=
  ∃ new, scanMigrations dir' = .ok new ∧
    new.Perm (⟨timestamp secs, name, (create dir secs name).1.1, (create dir secs name).1.2⟩ :: old)

/-! ### Names and paths -/

theorem dropWhile_reverse {c : Char} {pre post : List Char} (h : c ∉ post) :
    (pre ++ c :: post).reverse.dropWhile (· ≠ c) = c :: pre.reverse := by
  have hall : ∀ d ∈ post.reverse, (decide (d ≠ c)) = true := fun d hd =>
    decide_eq_true fun heq => h (List.mem_reverse.mp (heq ▸ hd))
  rw [List.reverse_append, List.reverse_cons, List.append_assoc, List.dropWhile_append_of_pos hall]
  simp

theorem dropWhile_of_notMem {c : Char} {name : List Char} (h : c ∉ name) :
    name.reverse.dropWhile (· ≠ c) = [] := by
  have hall : ∀ d ∈ name.reverse, (decide (d ≠ c)) = true := fun d hd =>
    decide_eq_true fun heq => h (List.mem_reverse.mp (heq ▸ hd))
  simpa using @List.dropWhile_append_of_pos _ _ _ [] hall

theorem fileStem_append {pre post : List Char} (hne : pre ≠ []) (h : '.' ∉ post) :
    fileStem (pre ++ '.' :: post) = pre := by
  rw [fileStem, dropWhile_reverse h]
  obtain ⟨c, cs, hcs⟩ := List.exists_cons_of_ne_nil (List.reverse_ne_nil_iff.mpr hne)
  rw [hcs]
  simp [← hcs]

theorem fileStem_of_notMem {name : List Char} (h : '.' ∉ name) : fileStem name = name := by
  rw [fileStem, dropWhile_of_notMem h]

/-- What is in front of the file names in the paths of a directory. -/
def Dir.front (dir : Dir) : List Char :=
  if dir.path = "" ∨ dir.path.toList.getLast? = some '/' then dir.path.toList
  else dir.path.toList ++ ['/']

theorem Dir.toList_join (dir : Dir) (name : String) :
    (dir.join name).toList = dir.front ++ name.toList := by
  rw [join, front]
  split_ifs <;> simp

theorem Dir.front_ends (dir : Dir) : dir.front = [] ∨ ∃ front, dir.front = front ++ ['/'] := by
  rw [front]
  split_ifs with h
  · rcases h with h | h
    · exact .inl (by rw [h]; rfl)
    · exact .inr ⟨_, (List.dropLast_append_getLast? '/' h).symm⟩
  · exact .inr ⟨_, rfl⟩

theorem fileName_append {dir : Dir} {name : List Char} (h : '/' ∉ name) :
    fileName (dir.front ++ name) = name := by
  have hall : ∀ d ∈ name.reverse, (decide (d ≠ '/')) = true := fun d hd =>
    decide_eq_true fun heq => h (List.mem_reverse.mp (heq ▸ hd))
  have hstop : (dir.front.reverse).takeWhile (· ≠ '/') = [] := by
    rcases dir.front_ends with hfront | ⟨front, hfront⟩
    · rw [hfront]
      rfl
    · rw [hfront, List.reverse_append]
      rfl
  rw [fileName, List.reverse_append, List.takeWhile_append_of_pos hall, hstop, List.append_nil,
    List.reverse_reverse]

theorem Dir.withExtension_join (dir : Dir) {name : String} (h : '/' ∉ name.toList)
    (extension : String) :
    withExtension (dir.join name) extension =
      dir.join (String.ofList (fileStem name.toList ++ '.' :: extension.toList)) := by
  rw [← String.toList_inj, withExtension, String.toList_ofList, toList_join, toList_join,
    fileName_append h, String.toList_ofList, List.length_append, Nat.add_sub_cancel,
    List.take_left']
  rfl

/-! ### Timestamps -/

theorem format_text (secs : UInt64) :
    (formatYyyymmddhhmmss secs).toList = (Instant.ofSecs secs.toNat).text := by
  rw [format_eq_ofSecs, String.toList_ofList]

theorem format_digits (secs : UInt64) :
    ∀ c ∈ (formatYyyymmddhhmmss secs).toList, c.isDigit = true := by
  have hyear := Instant.year_ge secs.toNat
  rw [format_text, Instant.text_eq (by omega)]
  simp only [List.mem_append]
  rintro c (((((h | h) | h) | h) | h) | h)
  · exact Rust.isDigit_padded h
  all_goals exact Rust.isDigit_fixed h

theorem format_ne_nil (secs : UInt64) : (formatYyyymmddhhmmss secs).toList ≠ [] := by
  have hyear := Instant.year_ge secs.toNat
  intro hnil
  have hlen := congrArg List.length hnil
  rw [format_text, Instant.text_eq (by omega)] at hlen
  simp at hlen

/-- The timestamp is the digits of the instant. -/
theorem timestamp_eq (secs : UInt64) : timestamp secs = (Instant.ofSecs secs.toNat).key := by
  have hyear := Instant.year_ge secs.toNat
  rw [timestamp, format_text]
  generalize Instant.ofSecs secs.toNat = i at hyear ⊢
  have hmonth := Nat.mod_eq_of_lt i.month_lt
  have hday := Nat.mod_eq_of_lt i.day_lt
  have hhour := Nat.mod_eq_of_lt (Nat.lt_trans i.hour_lt (by decide : 24 < 100))
  have hminute := Nat.mod_eq_of_lt (Nat.lt_trans i.minute_lt (by decide : 60 < 100))
  have hsecond := Nat.mod_eq_of_lt (Nat.lt_trans i.second_lt (by decide : 60 < 100))
  rw [Instant.text_eq (by omega)]
  simp only [Nat.ofDigitChars_append, Rust.ofDigitChars_fixed_add, Rust.ofDigitChars_padded,
    Nat.reducePow, hmonth, hday, hhour, hminute, hsecond, Instant.key]

/-- The timestamp is an `i64` up to the year 922337203. -/
theorem timestamp_lt_iff (secs : UInt64) : timestamp secs < 9223372036854775808 ↔
    (secs.toNat : ℤ) < Gregorian.daysBeforeYear 922337204 * 86400 := by
  have hyear := Instant.year_ge secs.toNat
  rw [timestamp_eq, ← Instant.secs_ofSecs, ← Instant.year_lt_iff]
  generalize Instant.ofSecs secs.toNat = i at hyear ⊢
  have hmonth := i.date.month_le
  have hday := i.day_lt
  have hhour := i.hour_lt
  have hminute := i.minute_lt
  have hsecond := i.second_lt
  unfold Instant.key
  omega

theorem parseI64_format (secs : UInt64) : parseI64 (formatYyyymmddhhmmss secs).toList =
    if timestamp secs < 9223372036854775808 then some (timestamp secs : ℤ) else none :=
  parseI64_digits (format_ne_nil secs) (format_digits secs)

/-! ### The new files -/

/-- What `with_extension` leaves of a name. -/
def nameStem (name : List Char) : List Char :=
  match name.reverse.dropWhile (· ≠ '.') with
  | [] => name
  | _ :: before => before.reverse

/-- The last dot of a name. -/
theorem exists_last {c : Char} {name : List Char} (h : c ∈ name) :
    ∃ pre post, name = pre ++ c :: post ∧ c ∉ post := by
  obtain ⟨post, pre, hrev, hpost⟩ := List.eq_append_cons_of_mem (List.mem_reverse.mpr h)
  refine ⟨pre.reverse, post.reverse, ?_, fun hmem => hpost (List.mem_reverse.mp hmem)⟩
  rw [← List.reverse_reverse name, hrev, List.reverse_append, List.reverse_cons, List.append_assoc]
  rfl

theorem nameStem_of_notMem {name : List Char} (h : '.' ∉ name) : nameStem name = name := by
  rw [nameStem, dropWhile_of_notMem h]

theorem nameStem_append {pre post : List Char} (h : '.' ∉ post) :
    nameStem (pre ++ '.' :: post) = pre := by
  rw [nameStem, dropWhile_reverse h]
  exact List.reverse_reverse pre

/-- A name without dots is left as it is. -/
theorem nameStem_eq_iff (name : List Char) : nameStem name = name ↔ '.' ∉ name := by
  constructor
  · intro heq hdot
    obtain ⟨pre, post, rfl, hpost⟩ := exists_last hdot
    rw [nameStem_append hpost] at heq
    have hlen := congrArg List.length heq
    rw [List.length_append, List.length_cons] at hlen
    omega
  · exact nameStem_of_notMem

theorem notMem_of_digits {cs : List Char} (h : ∀ c ∈ cs, c.isDigit = true) {c : Char}
    (hc : c.isDigit = false) : c ∉ cs := by
  intro hmem
  rw [h c hmem] at hc
  cases hc

theorem fileStem_base {ts : List Char} (hts : '.' ∉ ts) (name : List Char) :
    fileStem (ts ++ '_' :: name) = ts ++ '_' :: nameStem name := by
  by_cases hdot : '.' ∈ name
  · obtain ⟨pre, post, rfl, hpost⟩ := exists_last hdot
    rw [nameStem_append hpost, ← List.cons_append, ← List.append_assoc,
      fileStem_append (by simp) hpost]
  · rw [nameStem_of_notMem hdot, fileStem_of_notMem]
    simp [hts, hdot]

/-- The name of the up-file, up to its suffix. -/
def stem (secs : UInt64) (name : String) : List Char :=
  (formatYyyymmddhhmmss secs).toList ++ '_' :: nameStem name.toList

theorem mem_of_mem_nameStem {c : Char} {name : List Char} (h : c ∈ nameStem name) : c ∈ name := by
  by_cases hdot : '.' ∈ name
  · obtain ⟨pre, post, rfl, hpost⟩ := exists_last hdot
    rw [nameStem_append hpost] at h
    exact List.mem_append_left _ h
  · rwa [nameStem_of_notMem hdot] at h

theorem slash_notMem_stem (secs : UInt64) {name : String} (h : '/' ∉ name.toList) :
    '/' ∉ stem secs name := by
  rw [stem, List.mem_append, List.mem_cons, not_or, not_or]
  exact ⟨notMem_of_digits (format_digits secs) (by decide), by decide,
    fun hmem => h (mem_of_mem_nameStem hmem)⟩

theorem create_eq (dir : Dir) (secs : UInt64) {name : String} (h : '/' ∉ name.toList) :
    create dir secs name =
      ((dir.join (String.ofList (stem secs name ++ ".up.sql".toList)),
        dir.join (String.ofList (stem secs name ++ ".down.sql".toList))),
      [(dir.join (String.ofList (stem secs name ++ ".up.sql".toList)), s!"-- Migration: {name}\n"),
        (dir.join (String.ofList (stem secs name ++ ".down.sql".toList)),
          s!"-- Revert: {name}\n")]) := by
  have hdigits := format_digits secs
  have hbase : (s!"{formatYyyymmddhhmmss secs}_{name}").toList =
      (formatYyyymmddhhmmss secs).toList ++ '_' :: name.toList := by
    simp [toString]
  have hslash : '/' ∉ (s!"{formatYyyymmddhhmmss secs}_{name}").toList := by
    rw [hbase, List.mem_append, List.mem_cons, not_or, not_or]
    exact ⟨notMem_of_digits hdigits (by decide), by decide, h⟩
  have hstem : fileStem (s!"{formatYyyymmddhhmmss secs}_{name}").toList = stem secs name := by
    rw [hbase, fileStem_base (notMem_of_digits hdigits (by decide))]
    rfl
  simp only [create, dir.withExtension_join hslash, hstem]
  rfl

/-! ### Scanning -/

/-- The migration that a file is, if it is one. -/
def found (dir : Dir) (f : File) : Option Migration := (scanFile dir f).toOption.join

/-- A scan goes on behind a file. -/
def Accepted (dir : Dir) (f : File) : Prop := ∃ m, scanFile dir f = .ok m

theorem found_eq {dir : Dir} {f : File} {m : Option Migration} (h : scanFile dir f = .ok m) :
    found dir f = m := by
  rw [found, h]
  rfl

/-- What a scan finds. -/
theorem scanMigrations_of_accepted {dir : Dir} {files : List File} (hdir : dir.isDir = true)
    (hentries : dir.entries = .ok files) (h : ∀ f ∈ files, Accepted dir f) :
    ∃ ms, scanMigrations dir = .ok ms ∧ ms.Perm (files.filterMap (found dir)) := by
  have hmap : files.map (scanFile dir) = (files.map (found dir)).map .ok := by
    rw [List.map_map]
    refine List.map_congr_left fun f hf => ?_
    obtain ⟨m, hm⟩ := h f hf
    rw [Function.comp_apply, found_eq hm, hm]
  have hreduce : (files.map (found dir)).reduceOption = files.filterMap (found dir) := by
    change (files.map (found dir)).filterMap id = _
    rw [List.filterMap_map]
    rfl
  refine ⟨_, ?_, List.perm_insertionSort (fun a b => a.version ≤ b.version) _⟩
  rw [scanMigrations, hdir, hentries, ← hreduce]
  simp only [bind, Except.bind, Rust.mapM_eq_ok.mpr hmap]
  rfl

theorem scanMigrations_of_rejected {dir : Dir} {files : List File} (hdir : dir.isDir = true)
    (hentries : dir.entries = .ok files) {f : File} (hf : f ∈ files) (h : ¬Accepted dir f)
    (ms : List Migration) : scanMigrations dir ≠ .ok ms := by
  rw [scanMigrations, hdir, hentries]
  simp only [bind, Except.bind]
  cases hout : files.mapM (scanFile dir) with
  | error e => exact fun h => by cases h
  | ok out =>
    have hmem := List.mem_map_of_mem (f := scanFile dir) hf
    rw [Rust.mapM_eq_ok.mp hout] at hmem
    obtain ⟨m, -, hm⟩ := List.mem_map.mp hmem
    exact absurd ⟨m, hm.symm⟩ h

/-- A scan that succeeds has accepted every file. -/
theorem accepted_of_scanMigrations {dir : Dir} {ms : List Migration}
    (h : scanMigrations dir = .ok ms) :
    (∀ f ∈ dir.files, Accepted dir f) ∧ ms.Perm (dir.files.filterMap (found dir)) := by
  unfold Dir.files
  cases hdir : dir.isDir with
  | false =>
    rw [scanMigrations, hdir] at h
    obtain rfl := Except.ok.inj h
    rw [if_neg (by decide)]
    exact ⟨fun f hf => absurd hf List.not_mem_nil, List.Perm.refl _⟩
  | true =>
    rw [if_pos rfl]
    cases hentries : dir.entries with
    | error e =>
      rw [scanMigrations, hdir, hentries] at h
      cases h
    | ok files =>
      have hall : ∀ f ∈ files, Accepted dir f := by
        intro f hf
        by_contra hno
        exact scanMigrations_of_rejected hdir hentries hf hno ms h
      obtain ⟨ms', hms', hperm⟩ := scanMigrations_of_accepted hdir hentries hall
      obtain rfl := Except.ok.inj (h.symm.trans hms')
      exact ⟨hall, hperm⟩

/-- What a scan finds, up to the order of the files. -/
theorem scanMigrations_ok_iff {dir : Dir} {files : List File} (hdir : dir.isDir = true)
    (hentries : dir.entries = .ok files) (l : List Migration) :
    (∃ ms, scanMigrations dir = .ok ms ∧ ms.Perm l) ↔
      (∀ f ∈ files, Accepted dir f) ∧ (files.filterMap (found dir)).Perm l := by
  constructor
  · rintro ⟨ms, hms, hperm⟩
    have hall := accepted_of_scanMigrations hms
    rw [Dir.files, hdir, if_pos rfl, hentries] at hall
    exact ⟨hall.1, hall.2.symm.trans hperm⟩
  · rintro ⟨hall, hperm⟩
    obtain ⟨ms, hms, hperm'⟩ := scanMigrations_of_accepted hdir hentries hall
    exact ⟨ms, hms, hperm'.trans hperm⟩

/-! ### The files of a directory after `create` -/

theorem scanFile_congr {dir dir' : Dir} (hpath : dir'.path = dir.path) {f f' : File}
    (hname : f'.name = f.name) : scanFile dir' f' = scanFile dir f := by
  have hjoin (n : String) : dir'.join n = dir.join n := by rw [Dir.join, Dir.join, hpath]
  simp only [scanFile, hname, hjoin]

/-- A file of a directory is written. -/
theorem write_join (files : List File) (dir : Dir) {name : String} (h : '/' ∉ name.toList)
    (content : String) : write files (dir.join name, content) =
      if files.any (·.name = some name) then
        files.map fun f => if f.name = some name then ⟨some name, .ok content⟩ else f
      else ⟨some name, .ok content⟩ :: files := by
  rw [write, Dir.toList_join, fileName_append h, String.ofList_toList]

theorem found_congr {dir : Dir} {f f' : File} (h : f'.name = f.name) :
    found dir f' = found dir f := by
  rw [found, found, scanFile_congr rfl h]

theorem accepted_congr {dir : Dir} {f f' : File} (h : f'.name = f.name) :
    Accepted dir f' ↔ Accepted dir f := by
  rw [Accepted, Accepted, scanFile_congr rfl h]

theorem name_replaced (f : File) (name content : String) :
    (if f.name = some name then (⟨some name, .ok content⟩ : File) else f).name = f.name := by
  split_ifs with hname
  · exact hname.symm
  · rfl

/-- What is found behind a write. -/
theorem filterMap_write (files : List File) (dir : Dir) {name : String} (h : '/' ∉ name.toList)
    (content : String) : (write files (dir.join name, content)).filterMap (found dir) =
      if files.any (·.name = some name) then files.filterMap (found dir)
      else (found dir ⟨some name, .ok content⟩).toList ++ files.filterMap (found dir) := by
  rw [write_join files dir h]
  split_ifs with hany
  · rw [List.filterMap_map]
    exact List.filterMap_congr fun f _ => found_congr (name_replaced f name content)
  · rw [List.filterMap_cons]
    cases found dir ⟨some name, .ok content⟩ <;> rfl

theorem accepted_write {files : List File} (dir : Dir) {name : String} (h : '/' ∉ name.toList)
    (content : String) : (∀ f ∈ write files (dir.join name, content), Accepted dir f) ↔
      Accepted dir ⟨some name, .ok content⟩ ∧ ∀ f ∈ files, Accepted dir f := by
  rw [write_join files dir h]
  split_ifs with hany
  · obtain ⟨f₀, hf₀, hname₀⟩ := List.any_eq_true.mp hany
    have hnew : Accepted dir ⟨some name, .ok content⟩ ↔ Accepted dir f₀ :=
      accepted_congr (of_decide_eq_true hname₀).symm
    rw [hnew, List.forall_mem_map]
    simp only [fun f => @accepted_congr dir _ _ (name_replaced f name content)]
    exact (and_iff_right_of_imp fun hall => hall f₀ hf₀).symm
  · exact List.forall_mem_cons

/-! ### How the new files are read -/

theorem stripSuffix_append (pre suffix : List Char) :
    stripSuffix suffix (pre ++ suffix) = some pre := by
  rw [stripSuffix, if_pos (List.suffix_append pre suffix), List.length_append, Nat.add_sub_cancel,
    List.take_left']
  rfl

theorem splitOnce_stem (secs : UInt64) (name : String) :
    splitOnce '_' (stem secs name) "unnamed".toList =
      ((formatYyyymmddhhmmss secs).toList, nameStem name.toList) := by
  have hall : ∀ c ∈ (formatYyyymmddhhmmss secs).toList, (decide (c ≠ '_')) = true := by
    intro c hc
    refine decide_eq_true fun heq => ?_
    exact notMem_of_digits (format_digits secs) (by decide) (heq ▸ hc : '_' ∈ _)
  rw [splitOnce, stem, List.dropWhile_append_of_pos hall, List.takeWhile_append_of_pos hall]
  simp

theorem parseI64_stem (secs : UInt64) (name : String) :
    parseI64 (splitOnce '_' (stem secs name) "unnamed".toList).1 =
      if timestamp secs < 9223372036854775808 then some (timestamp secs : ℤ) else none := by
  rw [splitOnce_stem, parseI64_format]

theorem scanFile_of_some (dir : Dir) {pre : List Char} {version : ℤ} (content : String)
    (h : parseI64 (splitOnce '_' pre "unnamed".toList).1 = some version) :
    scanFile dir ⟨some (String.ofList (pre ++ ".up.sql".toList)), .ok content⟩ =
      .ok (some ⟨version, String.ofList (splitOnce '_' pre "unnamed".toList).2,
        dir.join (String.ofList (pre ++ ".up.sql".toList)),
        dir.join (String.ofList (pre ++ ".down.sql".toList))⟩) := by
  have hdown : String.ofList (pre ++ ".down.sql".toList) = String.ofList pre ++ ".down.sql" := by
    rw [String.ofList_append, String.ofList_toList]
  rw [hdown]
  simp only [scanFile, Option.getD_some, String.toList_ofList, stripSuffix_append, h]

theorem not_accepted_of_none (dir : Dir) {pre : List Char} (content : String)
    (h : parseI64 (splitOnce '_' pre "unnamed".toList).1 = none) :
    ¬Accepted dir ⟨some (String.ofList (pre ++ ".up.sql".toList)), .ok content⟩ := by
  rintro ⟨m, hm⟩
  simp only [scanFile, Option.getD_some, String.toList_ofList, stripSuffix_append, h] at hm
  cases hm

/-- The up-file is the new migration, if the timestamp is an `i64`. -/
theorem scanFile_up (dir : Dir) {secs : UInt64} (h : timestamp secs < 9223372036854775808)
    (name content : String) :
    scanFile dir ⟨some (String.ofList (stem secs name ++ ".up.sql".toList)), .ok content⟩ =
      .ok (some ⟨timestamp secs, String.ofList (nameStem name.toList),
        dir.join (String.ofList (stem secs name ++ ".up.sql".toList)),
        dir.join (String.ofList (stem secs name ++ ".down.sql".toList))⟩) := by
  rw [scanFile_of_some dir content ((parseI64_stem secs name).trans (if_pos h)), splitOnce_stem]

theorem not_accepted_up (dir : Dir) {secs : UInt64} (h : ¬timestamp secs < 9223372036854775808)
    (name content : String) :
    ¬Accepted dir ⟨some (String.ofList (stem secs name ++ ".up.sql".toList)), .ok content⟩ :=
  not_accepted_of_none dir content ((parseI64_stem secs name).trans (if_neg h))

/-- The down-file is passed over. -/
theorem scanFile_down (dir : Dir) (pre : List Char) (content : String) :
    scanFile dir ⟨some (String.ofList (pre ++ ".down.sql".toList)), .ok content⟩ = .ok none := by
  have hno : ¬".up.sql".toList <:+ pre ++ ".down.sql".toList := by
    intro hsuffix
    have := List.suffix_of_suffix_length_le hsuffix (List.suffix_append pre ".down.sql".toList)
      (by decide)
    revert this
    decide
  simp only [scanFile, Option.getD_some, String.toList_ofList, stripSuffix, if_neg hno]

/-! ### After `create` -/

/-- The name of the up-file. -/
def upName (secs : UInt64) (name : String) : String :=
  String.ofList (stem secs name ++ ".up.sql".toList)

theorem slash_notMem_append {pre suffix : List Char} (hpre : '/' ∉ pre) (hsuffix : '/' ∉ suffix) :
    '/' ∉ (String.ofList (pre ++ suffix)).toList := by
  rw [String.toList_ofList, List.mem_append, not_or]
  exact ⟨hpre, hsuffix⟩

theorem accepted_created (dir : Dir) (secs : UInt64) {name : String} (h : '/' ∉ name.toList)
    (files : List File) : (∀ f ∈ (create dir secs name).2.foldl write files, Accepted dir f) ↔
      timestamp secs < 9223372036854775808 ∧ ∀ f ∈ files, Accepted dir f := by
  have hstem := slash_notMem_stem secs h
  rw [create_eq dir secs h, List.foldl_cons, List.foldl_cons, List.foldl_nil,
    accepted_write dir (slash_notMem_append hstem (by decide)),
    accepted_write dir (slash_notMem_append hstem (by decide)),
    and_iff_right ⟨none, scanFile_down dir _ _⟩]
  refine and_congr_left fun _ => ⟨fun haccepted => ?_, fun hts => ⟨_, scanFile_up dir hts name _⟩⟩
  by_contra hts
  exact not_accepted_up dir hts name _ haccepted

theorem filterMap_created (dir : Dir) {secs : UInt64} (hts : timestamp secs < 9223372036854775808)
    {name : String} (h : '/' ∉ name.toList) (files : List File) :
    ((create dir secs name).2.foldl write files).filterMap (found dir) =
      if files.any (·.name = some (upName secs name)) then files.filterMap (found dir)
      else ⟨timestamp secs, String.ofList (nameStem name.toList), (create dir secs name).1.1,
        (create dir secs name).1.2⟩ :: files.filterMap (found dir) := by
  have hstem := slash_notMem_stem secs h
  have hdown (content : String) : found dir
      ⟨some (String.ofList (stem secs name ++ ".down.sql".toList)), .ok content⟩ = none :=
    found_eq (scanFile_down dir _ content)
  rw [create_eq dir secs h, List.foldl_cons, List.foldl_cons, List.foldl_nil,
    filterMap_write _ dir (slash_notMem_append hstem (by decide)), hdown, Option.toList_none,
    List.nil_append, ite_self, filterMap_write _ dir (slash_notMem_append hstem (by decide)),
    found_eq (scanFile_up dir hts name _), upName]
  rfl

theorem upName_of_notMem (secs : UInt64) {name : String} (h : '.' ∉ name.toList) :
    upName secs name = s!"{formatYyyymmddhhmmss secs}_{name}.up.sql" := by
  rw [← String.toList_inj, upName, stem, nameStem_of_notMem h]
  simp [toString]

theorem perm_cons_left_iff {α : Type} {a b : α} {l : List α} :
    (a :: l).Perm (b :: l) ↔ a = b := by
  rw [← Multiset.coe_eq_coe, ← Multiset.cons_coe, ← Multiset.cons_coe, Multiset.cons_inj_left]

/-- What is found is the new migration and what was there, unless the name has a dot or the up-file
has been there. -/
theorem perm_created_iff {old : List Migration} {dir : Dir} {secs : UInt64} {name : String}
    (hold : old.Perm (dir.files.filterMap (found dir))) (hname : '/' ∉ name.toList)
    (hts : timestamp secs < 9223372036854775808) :
    (((create dir secs name).2.foldl write dir.files).filterMap (found dir)).Perm
        (⟨timestamp secs, name, (create dir secs name).1.1, (create dir secs name).1.2⟩ :: old) ↔
      '.' ∉ name.toList ∧
        ∀ f ∈ dir.files, f.name ≠ some s!"{formatYyyymmddhhmmss secs}_{name}.up.sql" := by
  rw [filterMap_created dir hts hname]
  split_ifs with hany
  · refine iff_of_false (fun h => ?_) fun ⟨hdot, hnew⟩ => ?_
    · have hlen := h.length_eq
      rw [List.length_cons, hold.length_eq] at hlen
      omega
    · obtain ⟨f, hf, hup⟩ := List.any_eq_true.mp hany
      rw [upName_of_notMem secs hdot] at hup
      exact hnew f hf (of_decide_eq_true hup)
  · rw [(hold.cons _).congr_right, perm_cons_left_iff, Migration.mk.injEq]
    have hdot : String.ofList (nameStem name.toList) = name ↔ '.' ∉ name.toList := by
      rw [← String.toList_inj, String.toList_ofList, nameStem_eq_iff]
    simp only [hdot, true_and, and_true]
    refine (and_iff_left_of_imp fun hdot f hf hup => hany ?_).symm
    rw [upName_of_notMem secs hdot]
    exact List.any_eq_true.mpr ⟨f, hf, decide_eq_true hup⟩

/-- **When the new migration is found.** -/
theorem found_iff {old : List Migration} {dir dir' : Dir} {secs : UInt64} {name : String}
    (hold : scanMigrations dir = .ok old) (hname : '/' ∉ name.toList)
    (hc : Created dir secs name dir') :
    Found old dir dir' secs name ↔ dir.path ≠ "" ∧ '.' ∉ name.toList ∧
      (∀ f ∈ dir.files, f.name ≠ some s!"{formatYyyymmddhhmmss secs}_{name}.up.sql") ∧
      (secs.toNat : ℤ) < Gregorian.daysBeforeYear 922337204 * 86400 := by
  obtain ⟨hall, hperm⟩ := accepted_of_scanMigrations hold
  obtain ⟨files, hentries, hfiles⟩ := hc.entries
  by_cases hpath : dir.path = ""
  · have hdir : dir'.isDir = false := by rw [hc.isDir, hpath]; rfl
    refine iff_of_false ?_ fun h => h.1 hpath
    rintro ⟨new, hnew, hnewperm⟩
    rw [scanMigrations, hdir] at hnew
    obtain rfl := Except.ok.inj hnew
    exact absurd hnewperm.length_eq (Nat.zero_ne_add_one _)
  have hdir : dir'.isDir = true := by rw [hc.isDir]; exact decide_eq_true hpath
  have haccepted (f : File) : Accepted dir' f ↔ Accepted dir f := by
    rw [Accepted, Accepted, scanFile_congr hc.path rfl]
  have hfound : found dir' = found dir :=
    funext fun f => by rw [found, found, scanFile_congr hc.path rfl]
  have hscan : (∀ f ∈ files, Accepted dir' f) ↔ timestamp secs < 9223372036854775808 := by
    simp only [hfiles.mem_iff, haccepted, accepted_created dir secs hname, and_iff_left hall]
  rw [Found, scanMigrations_ok_iff hdir hentries, hscan, hfound,
    (hfiles.filterMap (found dir)).congr_left, ← timestamp_lt_iff, and_iff_right hpath,
    ← and_assoc, and_comm]
  exact and_congr_left fun hts => perm_created_iff hperm hname hts

/-- The directory `migrations` with nothing in it. -/
def emptyDir : Dir := ⟨"migrations", true, .ok []⟩

/-- It after `create` has succeeded. -/
def createdIn (dir : Dir) (secs : UInt64) (name : String) : Dir :=
  ⟨dir.path, decide (dir.path ≠ ""), .ok ((create dir secs name).2.foldl write dir.files)⟩

theorem created_createdIn (dir : Dir) (secs : UInt64) (name : String) :
    Created dir secs name (createdIn dir secs name) :=
  ⟨rfl, rfl, _, rfl, List.Perm.refl _⟩

theorem found_users :
    Found [] emptyDir (createdIn emptyDir 1582934400 "users") 1582934400 "users" :=
  (found_iff rfl (by decide) (created_createdIn _ _ _)).mpr
    ⟨by decide, by decide, fun _ h => absurd h List.not_mem_nil, by decide⟩

/-- What is behind the last dot of a name is lost. -/
theorem dotted_lost : scanMigrations emptyDir = .ok [] ∧ '/' ∉ "v1.2".toList ∧
    Created emptyDir 1582934400 "v1.2" (createdIn emptyDir 1582934400 "v1.2") ∧
    ¬Found [] emptyDir (createdIn emptyDir 1582934400 "v1.2") 1582934400 "v1.2" := by
  refine ⟨rfl, by decide, created_createdIn _ _ _, fun hfound => ?_⟩
  have hscan := (scanMigrations_ok_iff rfl rfl _).mp hfound
  have hts : timestamp 1582934400 < 9223372036854775808 := by
    rw [timestamp_lt_iff]
    decide
  have hdot := (@perm_created_iff [] emptyDir _ _ (List.Perm.refl _) (by decide) hts).mp hscan.2
  exact absurd hdot.1 (by decide)

end Resolute.Migrate
