import Pqxx.Row

set_option autoImplicit false

namespace Pqxx

-- Where the first of the columns with a property is, against where it is in a stretch of them.
theorem findIdx_split (cols : List Column) (p : Column → Bool) (start size : Nat) (inside : start + size ≤ cols.length) :
    ((cols.drop start).take size).findIdx? p = none ∧ (∀ n, cols.findIdx? p = some n → n < start ∨ start + size ≤ n) ∨
      ∃ k, ((cols.drop start).take size).findIdx? p = some k ∧ k < size ∧
        ((∃ n, cols.findIdx? p = some n ∧ n < start) ∨ cols.findIdx? p = some (start + k)) := by
  have beforeLength : (cols.take start).length = start := List.length_take_of_le (by omega)
  have sliceLength : ((cols.drop start).take size).length = size :=
    List.length_take_of_le (by rw [List.length_drop]; omega)
  have whole : cols.findIdx? p = ((cols.take start).findIdx? p).or
      (((((cols.drop start).take size).findIdx? p).or
        ((((cols.drop start).drop size).findIdx? p).map fun i => i + size)).map fun i => i + start) := by
    have parts : cols = cols.take start ++ ((cols.drop start).take size ++ (cols.drop start).drop size) := by
      rw [List.take_append_drop, List.take_append_drop]
    conv => lhs; rw [parts]
    rw [List.findIdx?_append, List.findIdx?_append, beforeLength, sliceLength]
  cases inSlice : ((cols.drop start).take size).findIdx? p with
  | some k =>
      have short : k < size := by
        have := (List.findIdx?_eq_some_iff_getElem.mp inSlice).1
        omega
      refine .inr ⟨k, rfl, short, ?_⟩
      cases inBefore : (cols.take start).findIdx? p with
      | some n =>
          have := (List.findIdx?_eq_some_iff_getElem.mp inBefore).1
          exact .inl ⟨n, by rw [whole, inBefore]; rfl, by omega⟩
      | none =>
          refine .inr ?_
          rw [whole, inBefore, inSlice, Nat.add_comm]
          rfl
  | none =>
      refine .inl ⟨rfl, fun n found => ?_⟩
      rw [whole, inSlice] at found
      cases inBefore : (cols.take start).findIdx? p with
      | some m =>
          have := (List.findIdx?_eq_some_iff_getElem.mp inBefore).1
          rw [inBefore] at found
          obtain rfl : m = n := Option.some.inj found
          exact .inl (by omega)
      | none =>
          rw [inBefore] at found
          simp only [Option.none_or, Option.map_map, Option.map_eq_some_iff] at found
          obtain ⟨m, -, at_⟩ := found
          simp only [Function.comp_apply] at at_
          exact .inr (by omega)

section

variable {fold : String → Option String} {r : Row}

theorem pq_fnumber_cases (fold : String → Option String) (d : ResultData) (colName : String) :
    (d.columnNumber fold colName = .error { kind := .argumentError, what := "Unknown column name: '" ++ colName ++ "'" } ∧
      d.columns.findIdx? (fun c => some c.name = fold colName) = none) ∨
      ∃ n, d.columnNumber fold colName = .ok n ∧ d.columns.findIdx? (fun c => some c.name = fold colName) = some n := by
  cases found : d.columns.findIdx? fun c => some c.name = fold colName with
  | none =>
      refine .inl ⟨?_, rfl⟩
      rw [ResultData.columnNumber, pqFnumber, found]
      rfl
  | some n =>
      refine .inr ⟨n, ?_, rfl⟩
      rw [ResultData.columnNumber, pqFnumber, found]
      exact if_neg (show ¬ Int.ofNat n = Int.negSucc 0 from nofun)

theorem null_column_number (colName : String) : ResultData.null.columnNumber fold colName =
    .error { kind := .argumentError, what := "Unknown column name: '" ++ colName ++ "'" } := rfl

theorem column_name_there {d : ResultData} {i : Nat} (there : i < d.columns.length) :
    d.columnName i = .ok d.columns[i].name := by
  simp only [ResultData.columnName, pqFname, List.getElem?_eq_getElem there, Option.map_some]

-- From i on, a name that is there is found where it comes first.
theorem search_spec (name : String) (i columns : Nat) (before : r.start ≤ i) (inside : i + columns ≤ r.home.columns.length) :
    r.search name i columns =
      .ok ((((r.home.columns.drop i).take columns).findIdx? fun c => some c.name = some name).map fun k => k + (i - r.start)) := by
  induction columns generalizing i with
  | zero => rfl
  | succ columns ih =>
      have there : i < r.home.columns.length := by omega
      have head : r.home.columns.drop i = r.home.columns[i] :: r.home.columns.drop (i + 1) := List.drop_eq_getElem_cons there
      rw [Row.search, column_name_there there, head, List.take_succ_cons, List.findIdx?_cons]
      simp only [bind, Except.bind, pure, Except.pure]
      by_cases same : name = r.home.columns[i].name
      · rw [if_pos same, decide_eq_true (congrArg some same.symm)]
        simp
      · rw [if_neg same, decide_eq_false fun other => same (Option.some.inj other).symm, ih (i + 1) (by omega) (by omega)]
        simp only [Bool.false_eq_true, if_false, Option.map_map]
        congr 2
        funext k
        simp only [Function.comp_apply]
        omega

-- A lookup in a slice gives the first column of the slice with the name, wherever the
-- result has the name for the first time.
theorem row_column_number (colName : String) :
    r.columnNumber fold colName = match r.shown.findIdx? fun c => some c.name = fold colName with
      | some k => .ok k
      | none => .error { kind := .argumentError, what := "Unknown column name: '" ++ colName ++ "'" } := by
  have ordered := r.ordered
  have inside := r.inside
  have split := findIdx_split r.home.columns (fun c => some c.name = fold colName) r.start r.size
    (by simp only [Row.size]; omega)
  have stop : r.start + r.size = r.stop := by
    simp only [Row.size]
    omega
  rw [stop] at split
  obtain ⟨missing, nowhere⟩ | ⟨n, number, first⟩ := pq_fnumber_cases fold r.home colName
  · obtain ⟨unseen, -⟩ | ⟨k, -, -, ⟨n, found, -⟩ | found⟩ := split
    · rw [Row.columnNumber, missing, Row.shown, unseen]
      rfl
    · rw [nowhere] at found
      cases found
    · rw [nowhere] at found
      cases found
  · rw [Row.columnNumber, number]
    simp only [bind, Except.bind, pure, Except.pure, null_column_number]
    obtain ⟨there, named, -⟩ := List.findIdx?_eq_some_iff_getElem.mp first
    have folded : fold colName = some r.home.columns[n].name := (of_decide_eq_true named).symm
    have again := search_spec (r := r) r.home.columns[n].name r.start r.size (Nat.le_refl _) (by omega)
    rw [← folded, Nat.sub_self] at again
    obtain ⟨unseen, outside⟩ | ⟨k, seen, short, ⟨m, found, early⟩ | found⟩ := split
    · rw [Row.shown, unseen]
      obtain early | late := outside n first
      · rw [if_neg (by omega), if_neg (by omega), column_name_there there]
        simp only [Row.size] at again unseen
        simp only [again, unseen, Option.map_none]
      · rw [if_pos late]
    · rw [first] at found
      obtain rfl : n = m := Option.some.inj found
      rw [Row.shown, seen, if_neg (by omega), if_neg (by omega), column_name_there there]
      simp only [Row.size] at again seen
      simp only [again, seen, Option.map_some, Nat.add_zero]
    · rw [first] at found
      obtain rfl : n = r.start + k := Option.some.inj found
      rw [Row.shown, seen, if_neg (by omega), if_pos (by omega), Nat.add_sub_cancel_left]

end

-- The range of columns that a chain of slices composes to.
def composed : Nat → Nat → List (Nat × Nat) → Option (Nat × Nat)
  | low, high, [] => some (low, high)
  | low, high, (b, e) :: rest => if b ≤ e ∧ e ≤ high - low then composed (low + b) (low + e) rest else none

section

variable (fold : String → Option String) (d : ResultData) (i low high : Nat)

-- Whether column k of the range has the name that a request denotes.
def NamedAt (colName : String) (k : Nat) : Prop :=
  k < high - low ∧ ∃ c, d.columns[low + k]? = some c ∧ some c.name = fold colName

-- A row that shows just the columns of a range of result row i.
structure Shows (s : Row) : Prop where
  size : s.size = high - low
  begins : s.start = low
  ends : s.stop = high
  get : ∀ k, s.get k = { home := d, row := i, col := low + k }
  front : s.front = s.get 0
  back : low < high → s.back = s.get (high - low - 1)
  fieldAt : ∀ k, s.fieldAt k = if k < high - low then .ok { home := d, row := i, col := low + k }
    else .error { kind := .rangeError, what := "Invalid field number" }
  fields : s.fields = (List.range' low (high - low)).map fun col => { home := d, row := i, col }
  columns : ∀ k < high - low, ∃ c, d.columns[low + k]? = some c ∧ s.columnType k = .ok c.type ∧ s.columnTable k = .ok c.table
  named : ∀ colName k, s.columnNumber fold colName = .ok k ↔
    NamedAt fold d low high colName k ∧ ∀ j < k, ¬ NamedAt fold d low high colName j
  unnamed : ∀ colName, s.columnNumber fold colName =
      .error { kind := .argumentError, what := "Unknown column name: '" ++ colName ++ "'" } ↔
    ∀ k, ¬ NamedAt fold d low high colName k
  lookup : ∀ colName, s.fieldNamed fold colName = (s.columnNumber fold colName).map s.get

end

section

variable {fold : String → Option String} {r s : Row}

theorem slices_spec (cuts : List (Nat × Nat)) :
    match composed r.start r.stop cuts with
    | none => r.slices cuts = .error { kind := .rangeError, what := "Invalid field range" }
    | some (low, high) => ∃ s, r.slices cuts = .ok s ∧ s.home = r.home ∧ s.index = r.index ∧ s.start = low ∧ s.stop = high := by
  induction cuts generalizing r with
  | nil => exact ⟨r, rfl, rfl, rfl, rfl, rfl⟩
  | cons cut rest ih =>
      obtain ⟨b, e⟩ := cut
      obtain ⟨ordered, inside, s, cut, home, index, start, stop⟩ | ⟨invalid, refused⟩ := slice_spec (r := r) b e
      · rw [composed, if_pos ⟨ordered, inside⟩, Row.slices, cut, ← start, ← stop, ← home, ← index]
        exact ih
      · rw [composed, if_neg invalid, Row.slices, refused]
        rfl

theorem column_there (k : Nat) (there : k < r.size) :
    ∃ c, r.home.columns[r.start + k]? = some c ∧ r.columnType k = .ok c.type ∧ r.columnTable k = .ok c.table := by
  have inside := r.inside
  simp only [Row.size] at there
  have at_ : r.home.columns[r.start + k]? = some r.home.columns[r.start + k] := List.getElem?_eq_getElem (by omega)
  refine ⟨_, at_, ?_, ?_⟩
  · rw [Row.columnType, ResultData.columnType, pqFtype, at_]
    exact if_neg r.home.columns[r.start + k].typed
  · rw [Row.columnTable, ResultData.columnTable, pqFtable, at_]
    exact if_neg (by omega)

theorem named_at (colName : String) (k : Nat) : NamedAt fold r.home r.start r.stop colName k ↔
    ∃ there : k < r.shown.length, some r.shown[k].name = fold colName := by
  have length := shown_length r
  constructor
  · rintro ⟨there, c, at_, named⟩
    have short : k < r.shown.length := by rw [length]; exact there
    have same : r.shown[k] = c := by
      have := shown_column (r := r) k there
      rw [at_, List.getElem?_eq_getElem short] at this
      exact Option.some.inj this
    exact ⟨short, by rw [same]; exact named⟩
  · rintro ⟨short, named⟩
    have there : k < r.size := by omega
    refine ⟨there, r.shown[k], ?_, named⟩
    rw [← shown_column k there, List.getElem?_eq_getElem short]

theorem shows_range (r : Row) : Shows fold r.home r.index r.start r.stop r where
  size := rfl
  begins := rfl
  ends := rfl
  get := fun _ => rfl
  front := rfl
  back := fun any => by
    simp only [Row.back, Row.get]
    congr 1
    omega
  fieldAt := fun k => by
    by_cases there : k < r.stop - r.start
    · rw [if_pos there]
      exact if_neg (by simp only [Row.size]; omega)
    · rw [if_neg there]
      exact if_pos (by simp only [Row.size]; omega)
  fields := rfl
  columns := fun k there => column_there k there
  named := fun colName k => by
    rw [row_column_number, named_at]
    simp only [named_at]
    cases found : r.shown.findIdx? fun c => some c.name = fold colName with
    | none =>
        have absent := List.findIdx?_eq_none_iff.mp found
        refine ⟨fun same => (by cases same), ?_⟩
        rintro ⟨⟨there, named⟩, _⟩
        have := absent _ (List.getElem_mem there)
        exact absurd named (of_decide_eq_false this)
    | some n =>
        obtain ⟨there, named, first⟩ := List.findIdx?_eq_some_iff_getElem.mp found
        have named := of_decide_eq_true named
        constructor
        · rintro ⟨⟩
          exact ⟨⟨there, named⟩, fun j early other => first j early (decide_eq_true other.2)⟩
        · rintro ⟨⟨short, other⟩, least⟩
          obtain early | rfl | late := Nat.lt_trichotomy k n
          · exact absurd (decide_eq_true other) (first k early)
          · rfl
          · exact absurd ⟨there, named⟩ (least n late)
  unnamed := fun colName => by
    rw [row_column_number]
    simp only [named_at]
    cases found : r.shown.findIdx? fun c => some c.name = fold colName with
    | none =>
        have absent := List.findIdx?_eq_none_iff.mp found
        refine ⟨?_, fun _ => rfl⟩
        rintro _ k ⟨there, named⟩
        have := absent _ (List.getElem_mem there)
        exact absurd named (of_decide_eq_false this)
    | some n =>
        obtain ⟨there, named, -⟩ := List.findIdx?_eq_some_iff_getElem.mp found
        exact ⟨fun same => (by cases same), fun none_ => absurd ⟨there, of_decide_eq_true named⟩ (none_ n)⟩
  lookup := fun colName => by
    rw [Row.fieldNamed]
    cases r.columnNumber fold colName with
    | ok n => rfl
    | error x => rfl

end

-- A chain of slices of a full row shows just the columns of the range it composes to, by
-- number and by name; where one of its bounds is not valid it is refused.
theorem row_slices (fold : String → Option String) (d : ResultData) (i : Nat) (cuts : List (Nat × Nat)) :
    match composed 0 d.columns.length cuts with
    | none => (Row.full d i).slices cuts = .error { kind := .rangeError, what := "Invalid field range" }
    | some (low, high) => ∃ s, (Row.full d i).slices cuts = .ok s ∧ Shows fold d i low high s := by
  have spec := slices_spec (r := Row.full d i) cuts
  simp only [Row.full] at spec ⊢
  cases range : composed 0 d.columns.length cuts with
  | none =>
      rw [range] at spec
      exact spec
  | some bounds =>
      obtain ⟨low, high⟩ := bounds
      rw [range] at spec
      obtain ⟨s, cut, rfl, rfl, rfl, rfl⟩ := spec
      exact ⟨s, cut, shows_range s⟩

-- A name that the result has before the slice and again in it.
example : (do
    let d : ResultData := {
      columns := [⟨"a", 23, 0, by decide⟩, ⟨"b", 25, 0, by decide⟩, ⟨"a", 16, 7, by decide⟩], size := 1,
      fewColumns := by decide, fewRows := by decide }
    let s ← (Row.full d 0).slices [(1, 3), (0, 2)]
    s.columnNumber some "a") = .ok 1 := rfl

end Pqxx
