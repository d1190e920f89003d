import Mathlib.Data.Int.Order.Basic
import Pqxx.Lib.Cells
import Pqxx.TableWriter

set_option autoImplicit false

namespace Pqxx

open Lib

-- What a parameter is passed as: by operator()(), as a value that to_string() makes text
-- of, where there is none behind a null pointer, or as a binarystring.
inductive Param where
  | null
  | text (v : Option Bytes) (nonnull : Bool)
  | binary (b : Bytes) (nonnull : Bool)
deriving DecidableEq, Repr

structure StatementParameters where
  values : List Bytes
  nonnull : List Bool
  binary : List Bool
deriving DecidableEq, Repr

-- A conversion to int.
def toInt (n : Nat) : Int := Int.bmod n 4294967296

-- The arrays that libpq is given. What lies behind the pointers is in values.
structure Marshalled where
  values : Cells (Option Bytes)
  lengths : Cells Int
  binaries : Cells Int
deriving DecidableEq, Repr

namespace StatementParameters

def empty : StatementParameters := { values := [], nonnull := [], binary := [] }

def addCheckedParam (p : StatementParameters) (v : Bytes) (nonnull binary : Bool) : StatementParameters :=
  { values := if nonnull then p.values ++ [v] else p.values, nonnull := p.nonnull ++ [nonnull], binary := p.binary ++ [binary] }

-- add_param() with and without a value, and add_binary_param().
def addParam (p : StatementParameters) : Param → StatementParameters
  | .null => p.addCheckedParam [] false false
  | .text none _ => p.addCheckedParam [] false false
  | .text (some v) nonnull => p.addCheckedParam (if nonnull then v else []) nonnull false
  | .binary b nonnull => p.addCheckedParam b nonnull true

def ofParams (params : List Param) : StatementParameters := params.foldl addParam empty

-- The loop from i on with so many turns left; v is the next of m_values. None is an index
-- out of range, of m_values or of an array.
def fill (p : StatementParameters) : Nat → Nat → Nat → Marshalled → Option Marshalled
  | 0, _, _, m => some m
  | turns + 1, i, v, m => do
      let nonnull ← p.nonnull[i]?
      let binary ← p.binary[i]?
      if nonnull then do
        let value ← p.values[v]?
        let values ← m.values.write i [some value]
        let lengths ← m.lengths.write i [toInt value.length]
        let binaries ← m.binaries.write i [toInt binary.toNat]
        p.fill turns (i + 1) (v + 1) { values, lengths, binaries }
      else do
        let values ← m.values.write i [none]
        let lengths ← m.lengths.write i [0]
        let binaries ← m.binaries.write i [toInt binary.toNat]
        p.fill turns (i + 1) v { values, lengths, binaries }

def marshall (p : StatementParameters) : Option (Int × Marshalled) := do
  let elements := p.nonnull.length
  let m ← p.fill elements 0 0
    { values := Cells.fresh (elements + 1), lengths := Cells.fresh (2 * (elements + 1)), binaries := Cells.fresh (elements + 1) }
  let values ← m.values.write elements [none]
  let lengths ← m.lengths.write elements [0]
  let binaries ← m.binaries.write elements [0]
  pure (toInt elements, { values, lengths, binaries })

end StatementParameters

namespace Param

-- The value of a parameter that is not null.
def value : Param → Option Bytes
  | .null => none
  | .text v nonnull => if nonnull then v else none
  | .binary b nonnull => if nonnull then some b else none

def isBinary : Param → Bool
  | .binary _ _ => true
  | _ => false

end Param

-- The arrays as they are to be: each parameter's entries, and an entry of zeros to end with.
structure Marshals (params : List Param) (count : Int) (m : Marshalled) : Prop where
  count : count = params.length
  entries : ∀ (i : Nat) (p : Param), params[i]? = some p →
    m.values.cells[i]? = some (some p.value) ∧
      m.lengths.cells[i]? = some (some (p.value.elim 0 fun b => (b.length : Int))) ∧
      m.binaries.cells[i]? = some (some (if p.isBinary then 1 else 0))
  ends : m.values.cells[params.length]? = some (some none) ∧ m.lengths.cells[params.length]? = some (some 0) ∧
    m.binaries.cells[params.length]? = some (some 0)

theorem to_int_of_small {n : Nat} (small : n < 2147483648) : toInt n = n := by
  exact Int.bmod_eq_of_le (by omega) (by omega)

theorem small_of_to_int {n : Nat} (same : toInt n = n) : n < 2147483648 := by
  have bound : toInt n < (4294967296 + 1) / 2 := Int.bmod_lt (by omega)
  omega

namespace Param

-- The entries that marshall() makes of a parameter.
def lengthEntry (p : Param) : Int := p.value.elim 0 fun b => toInt b.length

def binaryEntry (p : Param) : Int := toInt p.isBinary.toNat

theorem binary_entry (p : Param) : p.binaryEntry = if p.isBinary then 1 else 0 := by
  rw [binaryEntry]
  cases p.isBinary with
  | false => rfl
  | true => rfl

end Param

namespace StatementParameters

theorem add_param (p : StatementParameters) (param : Param) :
    p.addParam param =
      { values := p.values ++ param.value.toList, nonnull := p.nonnull ++ [param.value.isSome], binary := p.binary ++ [param.isBinary] } := by
  cases param with
  | null => simp [addParam, addCheckedParam, Param.value, Param.isBinary]
  | text v nonnull =>
      cases v with
      | none => cases nonnull <;> simp [addParam, addCheckedParam, Param.value, Param.isBinary]
      | some b => cases nonnull <;> simp [addParam, addCheckedParam, Param.value, Param.isBinary]
  | binary b nonnull => cases nonnull <;> simp [addParam, addCheckedParam, Param.value, Param.isBinary]

theorem add_params (params : List Param) (p : StatementParameters) :
    params.foldl addParam p =
      { values := p.values ++ params.filterMap Param.value, nonnull := p.nonnull ++ params.map fun param => param.value.isSome,
        binary := p.binary ++ params.map Param.isBinary } := by
  induction params generalizing p with
  | nil => simp only [List.foldl_nil, List.filterMap_nil, List.map_nil, List.append_nil]
  | cons param params ih =>
      rw [List.foldl_cons, ih, add_param]
      cases value : param.value with
      | none => simp [value]
      | some b => simp [value]

theorem of_params (params : List Param) :
    ofParams params =
      { values := params.filterMap Param.value, nonnull := params.map fun param => param.value.isSome,
        binary := params.map Param.isBinary } := by
  rw [ofParams, add_params]
  simp only [empty, List.nil_append]

-- The arrays when the first parameters are done and so many are left to do.
def progress (spare : Nat) (done : List Param) (left : Nat) : Marshalled :=
  { values := Cells.filled (done.map Param.value) (left + 1), lengths := Cells.filled (done.map Param.lengthEntry) (left + 1 + spare),
    binaries := Cells.filled (done.map Param.binaryEntry) (left + 1) }

-- One turn. The second index is the number of those before that are not null.
theorem fill_turn (spare : Nat) (done : List Param) (param : Param) (rest : List Param) :
    (ofParams (done ++ param :: rest)).fill (rest.length + 1) done.length (done.filterMap Param.value).length
        (progress spare done (rest.length + 1)) =
      (ofParams (done ++ param :: rest)).fill rest.length (done.length + 1) ((done ++ [param]).filterMap Param.value).length
        (progress spare (done ++ [param]) rest.length) := by
  have values := Cells.write_filled (done.map Param.value) param.value (rest.length + 1)
  have lengths := Cells.write_filled (done.map Param.lengthEntry) param.lengthEntry (rest.length + 1 + spare)
  have binaries := Cells.write_filled (done.map Param.binaryEntry) param.binaryEntry (rest.length + 1)
  rw [List.length_map] at values lengths binaries
  have nonnull : (ofParams (done ++ param :: rest)).nonnull[done.length]? = some param.value.isSome := by
    simp [of_params]
  have binary : (ofParams (done ++ param :: rest)).binary[done.length]? = some param.isBinary := by
    simp [of_params]
  have arrays : rest.length + 1 + 1 + spare = rest.length + 1 + spare + 1 := by omega
  have flag : toInt param.isBinary.toNat = param.binaryEntry := rfl
  rw [fill, nonnull, binary, progress, arrays]
  simp only [Option.bind_eq_bind, Option.bind_some, flag]
  cases value : param.value with
  | none =>
      have length : param.lengthEntry = 0 := by rw [Param.lengthEntry, value]; rfl
      rw [value] at values
      rw [length] at lengths
      rw [Option.isSome_none, if_neg Bool.false_ne_true, values, lengths, binaries]
      simp only [Option.bind_some, progress, List.map_append, List.map_cons, List.map_nil, List.filterMap_append, List.filterMap_cons,
        List.filterMap_nil, List.append_nil, value, length]
  | some b =>
      have length : param.lengthEntry = toInt b.length := by rw [Param.lengthEntry, value, Option.elim_some]
      have stored : (ofParams (done ++ param :: rest)).values[(done.filterMap Param.value).length]? = some b := by
        simp [of_params, value]
      rw [value] at values
      rw [length] at lengths
      rw [Option.isSome_some, if_pos rfl, stored]
      simp only [Option.bind_some]
      rw [values, lengths, binaries]
      simp only [Option.bind_some, progress, List.map_append, List.map_cons, List.map_nil, List.filterMap_append, List.filterMap_cons,
        List.filterMap_nil, List.length_append, List.length_cons, List.length_nil, value, length]

-- The loop, by induction on the parameters that are still to be done.
theorem fill_rest (spare : Nat) (rest done : List Param) :
    (ofParams (done ++ rest)).fill rest.length done.length (done.filterMap Param.value).length (progress spare done rest.length) =
      some (progress spare (done ++ rest) 0) := by
  induction rest generalizing done with
  | nil => rw [List.append_nil]; rfl
  | cons param rest ih =>
      have next := ih (done ++ [param])
      rw [List.append_assoc, List.singleton_append, List.length_append] at next
      rw [List.length_cons, fill_turn]
      exact next

def finished (params : List Param) : Marshalled :=
  { values := Cells.filled (params.map Param.value ++ [none]) 0,
    lengths := Cells.filled (params.map Param.lengthEntry ++ [0]) (params.length + 1),
    binaries := Cells.filled (params.map Param.binaryEntry ++ [0]) 0 }

-- No index is ever out of range.
theorem marshall_finishes (params : List Param) : (ofParams params).marshall = some (toInt params.length, finished params) := by
  have elements : (ofParams params).nonnull.length = params.length := by
    rw [of_params, List.length_map]
  have filled := fill_rest (params.length + 1) params []
  have room : 0 + 1 + (params.length + 1) = params.length + 1 + 1 := by omega
  have start : progress (params.length + 1) [] params.length =
      { values := Cells.fresh (params.length + 1), lengths := Cells.fresh (2 * (params.length + 1)),
        binaries := Cells.fresh (params.length + 1) } := by
    rw [progress, Nat.two_mul]
    rfl
  rw [List.nil_append, List.length_nil, List.filterMap_nil, List.length_nil, start] at filled
  have values := Cells.write_filled (params.map Param.value) none 0
  have lengths := Cells.write_filled (params.map Param.lengthEntry) 0 (params.length + 1)
  have binaries := Cells.write_filled (params.map Param.binaryEntry) 0 0
  rw [List.length_map] at values lengths binaries
  rw [marshall, elements]
  simp only [Option.bind_eq_bind, filled, Option.bind_some, progress, room]
  rw [values, lengths, binaries]
  rfl

theorem finished_entries {params : List Param} {i : Nat} {p : Param} (there : params[i]? = some p) :
    (finished params).values.cells[i]? = some (some p.value) ∧ (finished params).lengths.cells[i]? = some (some p.lengthEntry) ∧
      (finished params).binaries.cells[i]? = some (some (if p.isBinary then 1 else 0)) := by
  obtain ⟨bound, -⟩ := List.getElem?_eq_some_iff.mp there
  have entry {α : Type} (f : Param → α) (last : α) : (params.map f ++ [last])[i]? = some (f p) := by
    rw [List.getElem?_append_left (by rw [List.length_map]; exact bound), List.getElem?_map, there]
    rfl
  have binary : (finished params).binaries.cells[i]? = some (some p.binaryEntry) := Cells.filled_cell (entry Param.binaryEntry 0)
  rw [Param.binary_entry] at binary
  exact ⟨Cells.filled_cell (entry Param.value none), Cells.filled_cell (entry Param.lengthEntry 0), binary⟩

theorem finished_ends (params : List Param) :
    (finished params).values.cells[params.length]? = some (some none) ∧
      (finished params).lengths.cells[params.length]? = some (some 0) ∧
      (finished params).binaries.cells[params.length]? = some (some 0) := by
  have entry {α : Type} (f : Param → α) (last : α) : (params.map f ++ [last])[params.length]? = some last := by
    rw [List.getElem?_append_right (Nat.le_of_eq (List.length_map f)), List.length_map, Nat.sub_self]
    rfl
  exact ⟨Cells.filled_cell (entry Param.value none), Cells.filled_cell (entry Param.lengthEntry 0),
    Cells.filled_cell (entry Param.binaryEntry 0)⟩

end StatementParameters

def Small (params : List Param) : Prop :=
  params.length < 2147483648 ∧ ∀ p ∈ params, ∀ b, p.value = some b → b.length < 2147483648

theorem Param.length_entry_exact (p : Param) :
    p.lengthEntry = (p.value.elim 0 fun b => (b.length : Int)) ↔ ∀ b, p.value = some b → b.length < 2147483648 := by
  rw [Param.lengthEntry]
  cases p.value with
  | none => simp
  | some b =>
      rw [Option.elim_some, Option.elim_some]
      constructor
      · intro same c value
        obtain rfl := Option.some.inj value
        exact small_of_to_int same
      · intro small
        exact to_int_of_small (small b rfl)

def Marshalling (params : List Param) : Prop :=
  ∃ count m, (StatementParameters.ofParams params).marshall = some (count, m) ∧ Marshals params count m

theorem marshalling (params : List Param) : Marshalling params ↔ Small params := by
  constructor
  · rintro ⟨count, m, done, marshals⟩
    rw [StatementParameters.marshall_finishes] at done
    obtain ⟨rfl, rfl⟩ := Prod.mk.inj (Option.some.inj done)
    constructor
    · exact small_of_to_int marshals.count
    · intro p member
      obtain ⟨i, there⟩ := List.mem_iff_getElem?.mp member
      have found := (StatementParameters.finished_entries there).2.1
      rw [(marshals.entries i p there).2.1] at found
      exact p.length_entry_exact.mp (Option.some.inj (Option.some.inj found)).symm
  · rintro ⟨few, short⟩
    exact ⟨_, _, StatementParameters.marshall_finishes params,
      { count := to_int_of_small few
        entries := fun i p there => by
          have entries := StatementParameters.finished_entries there
          rw [p.length_entry_exact.mpr (short p (List.mem_of_getElem? there))] at entries
          exact entries
        ends := StatementParameters.finished_ends params }⟩

theorem marshalling_long_value : ¬ ∀ params, Marshalling params := by
  intro all
  have small := ((marshalling _).mp (all [.binary (List.replicate 2147483648 0) true])).2 _ List.mem_cons_self _ rfl
  rw [List.length_replicate] at small
  exact Nat.lt_irrefl _ small

end Pqxx
