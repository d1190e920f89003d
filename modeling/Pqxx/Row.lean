import Mathlib.Algebra.Group.Nat.Defs
import Pqxx.Except

set_option autoImplicit false

namespace Pqxx

-- A column of a result, with the ids of its type, which is never oid_none, and of the
-- table it comes from, which is oid_none for one that is computed.
structure Column where
  name : String
  type : Nat
  table : Nat
  typed : type ≠ 0
deriving DecidableEq

-- What a row and its fields use of the PGresult that a result holds. A count of columns or
-- of rows is an int in libpq.
structure ResultData where
  columns : List Column
  size : Nat
  fewColumns : columns.length < 2 ^ 31
  fewRows : size < 2 ^ 31

-- A result that holds no PGresult.
def ResultData.null : ResultData := { columns := [], size := 0, fewColumns := by decide, fewRows := by decide }

-- fold is what libpq makes of a column name in a request: it folds what is not quoted, and
-- it takes no empty request.
section

variable (fold : String → Option String)

-- PQfnumber.
def pqFnumber (r : ResultData) (colName : String) : Int :=
  (r.columns.findIdx? fun c => some c.name = fold colName).elim (-1) Int.ofNat

-- PQfname, PQftype and PQftable, which give nothing for a column that is not there.
def pqFname (r : ResultData) (number : Nat) : Option String := r.columns[number]?.map Column.name

def pqFtype (r : ResultData) (number : Nat) : Nat := r.columns[number]?.elim 0 Column.type

def pqFtable (r : ResultData) (number : Nat) : Nat := r.columns[number]?.elim 0 Column.table

namespace ResultData

def columnName (r : ResultData) (number : Nat) : Except Exn String :=
  match pqFname r number with
  | some n => .ok n
  | none => .error { kind := .rangeError, what := "Invalid column number: " ++ toString number }

def columnNumber (r : ResultData) (colName : String) : Except Exn Nat :=
  let n := pqFnumber fold r colName
  if n = -1 then .error { kind := .argumentError, what := "Unknown column name: '" ++ colName ++ "'" } else .ok n.toNat

def columnType (r : ResultData) (colNum : Nat) : Except Exn Nat :=
  let t := pqFtype r colNum
  if t = 0 then
    .error { kind := .argumentError, what := "Attempt to retrieve type of nonexistant column " ++ toString colNum ++ " of query result" }
  else .ok t

def columnTable (r : ResultData) (colNum : Nat) : Except Exn Nat :=
  let t := pqFtable r colNum
  if t = 0 ∧ colNum ≥ r.columns.length then
    .error { kind := .argumentError, what := "Attempt to retrieve table ID for column " ++ toString colNum ++ " out of " ++
      toString r.columns.length }
  else .ok t

end ResultData

structure Field where
  home : ResultData
  row : Nat
  col : Nat

-- A row, or a slice of one. Its bounds are always in order and inside the result.
structure Row where
  home : ResultData
  index : Nat
  start : Nat
  stop : Nat
  ordered : start ≤ stop
  inside : stop ≤ home.columns.length

namespace Row

-- The constructor: a row in full.
def full (r : ResultData) (i : Nat) : Row :=
  { home := r, index := i, start := 0, stop := r.columns.length, ordered := Nat.zero_le _, inside := Nat.le_refl _ }

def size (r : Row) : Nat := r.stop - r.start

def field (r : Row) (col : Nat) : Field := { home := r.home, row := r.index, col }

-- begin() and end() are the positions start and stop, and what an iterator at one of them
-- refers to is the field there.
def front (r : Row) : Field := r.field r.start

def back (r : Row) : Field := r.field (r.stop - 1)

def get (r : Row) (i : Nat) : Field := r.field (r.start + i)

def fieldAt (r : Row) (i : Nat) : Except Exn Field :=
  if i ≥ r.size then .error { kind := .rangeError, what := "Invalid field number" } else .ok (r.get i)

-- for (i = begin(); i != end(); ++i).
def fields (r : Row) : List Field := (List.range' r.start (r.stop - r.start)).map r.field

def columnType (r : Row) (colNum : Nat) : Except Exn Nat := r.home.columnType (r.start + colNum)

def columnTable (r : Row) (colNum : Nat) : Except Exn Nat := r.home.columnTable (r.start + colNum)

-- The loop for a name that occurs before the slice: from i on, with so many columns to go.
def search (r : Row) (adaptedColName : String) : Nat → Nat → Except Exn (Option Nat)
  | _, 0 => .ok none
  | i, columns + 1 => do
      let name ← r.home.columnName i
      if adaptedColName = name then pure (some (i - r.start)) else search r adaptedColName (i + 1) columns

def columnNumber (r : Row) (colName : String) : Except Exn Nat := do
  let n ← r.home.columnNumber fold colName
  if n ≥ r.stop then ResultData.null.columnNumber fold colName
  else if n ≥ r.start then pure (n - r.start)
  else do
    let adaptedColName ← r.home.columnName n
    let found ← r.search adaptedColName r.start (r.stop - r.start)
    match found with
    | some i => pure i
    | none => ResultData.null.columnNumber fold colName

def fieldNamed (r : Row) (f : String) : Except Exn Field := do
  let n ← r.columnNumber fold f
  pure (r.field (r.start + n))

def slice (r : Row) (b e : Nat) : Except Exn Row :=
  if invalid : b > e ∨ e > r.size then .error { kind := .rangeError, what := "Invalid field range" }
  else .ok {
    home := r.home, index := r.index, start := r.start + b, stop := r.start + e
    ordered := by omega
    inside := by
      have := r.ordered
      have := r.inside
      unfold size at invalid
      omega }

-- slice(b, e).slice(b', e') and so on.
def slices (r : Row) : List (Nat × Nat) → Except Exn Row
  | [] => .ok r
  | (b, e) :: rest => do
      let s ← r.slice b e
      s.slices rest

-- The columns a row shows.
def shown (r : Row) : List Column := (r.home.columns.drop r.start).take r.size

end Row

end

section

variable {r : Row}

theorem shown_length (r : Row) : r.shown.length = r.size := by
  have := r.inside
  simp only [Row.shown, Row.size, List.length_take, List.length_drop]
  omega

theorem shown_column (i : Nat) (there : i < r.size) : r.shown[i]? = r.home.columns[r.start + i]? := by
  rw [Row.shown, List.getElem?_take_of_lt there, List.getElem?_drop]

theorem slice_spec (b e : Nat) :
    (b ≤ e ∧ e ≤ r.stop - r.start ∧ ∃ s, r.slice b e = .ok s ∧ s.home = r.home ∧ s.index = r.index ∧
        s.start = r.start + b ∧ s.stop = r.start + e) ∨
      ¬ (b ≤ e ∧ e ≤ r.stop - r.start) ∧ r.slice b e = .error { kind := .rangeError, what := "Invalid field range" } := by
  by_cases valid : b ≤ e ∧ e ≤ r.stop - r.start
  · exact .inl ⟨valid.1, valid.2, _, dif_neg (by simp only [Row.size]; omega), rfl, rfl, rfl, rfl⟩
  · exact .inr ⟨valid, dif_pos (by simp only [Row.size]; omega)⟩

end

end Pqxx
