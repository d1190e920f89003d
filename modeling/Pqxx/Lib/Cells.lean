import Mathlib.Data.List.Basic

set_option autoImplicit false

namespace Lib

-- An array of a fixed size. A cell is none for as long as nothing has been written to it.
structure Cells (α : Type) where
  cells : List (Option α)
deriving DecidableEq, Repr

namespace Cells

variable {α : Type}

def fresh (size : Nat) : Cells α := ⟨List.replicate size none⟩

-- An array written to from its start on, with so many cells left.
def filled (values : List α) (left : Nat) : Cells α := ⟨values.map some ++ List.replicate left none⟩

def size (c : Cells α) : Nat := c.cells.length

-- Writing beyond the end of the array gives none.
def write (c : Cells α) (place : Nat) (values : List α) : Option (Cells α) :=
  if place + values.length ≤ c.size then
    some ⟨c.cells.take place ++ values.map some ++ c.cells.drop (place + values.length)⟩
  else none

-- What has been written from the start up to the first value that is final, as a reader
-- finds it who takes one cell after another. There is none where a cell that has not been
-- written to, or the end of the array, comes first.
def readUntil (final : α → Bool) : List (Option α) → Option (List α)
  | [] => none
  | none :: _ => none
  | some a :: rest => if final a then some [] else (readUntil final rest).map (a :: ·)

theorem write_between (left middle right : List (Option α)) (values : List α) (fits : middle.length = values.length) :
    write ⟨left ++ middle ++ right⟩ left.length values = some ⟨left ++ values.map some ++ right⟩ := by
  have bound : left.length + values.length ≤ size ⟨left ++ middle ++ right⟩ := by
    simp only [size, List.length_append]
    omega
  rw [write, if_pos bound]
  simp only
  rw [← fits, ← List.length_append, List.drop_left, List.append_assoc left middle right, List.take_left]

theorem write_filled (values : List α) (a : α) (left : Nat) :
    (filled values (left + 1)).write values.length [a] = some (filled (values ++ [a]) left) := by
  have between := write_between (values.map some) [none] (List.replicate left none) [a] rfl
  rw [List.length_map] at between
  rw [filled, List.replicate_succ, ← List.singleton_append, ← List.append_assoc, between, filled, List.map_append]

theorem filled_cell {values : List α} {left place : Nat} {a : α} (there : values[place]? = some a) :
    (filled values left).cells[place]? = some (some a) := by
  obtain ⟨bound, rfl⟩ := List.getElem?_eq_some_iff.mp there
  rw [filled, List.getElem?_append_left (by rw [List.length_map]; exact bound), List.getElem?_map, there]
  rfl

theorem read_until_written (final : α → Bool) (values : List α) (last : α) (rest : List (Option α)) (before : ∀ a ∈ values, final a = false)
    (ends : final last = true) : readUntil final (values.map some ++ some last :: rest) = some values := by
  induction values with
  | nil => simp only [List.map_nil, List.nil_append, readUntil, ends, if_true]
  | cons a values ih =>
      have here := before a List.mem_cons_self
      simp only [List.map_cons, List.cons_append, readUntil, here, Bool.false_eq_true, if_false]
      rw [ih fun b there => before b (List.mem_cons_of_mem a there)]
      rfl

end Cells

end Lib
