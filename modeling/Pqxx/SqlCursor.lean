import Pqxx.Except
import Pqxx.Lib.Prog

set_option autoImplicit false

namespace Pqxx

open Lib

-- cursor_base: difference_type is long, kept as Int. Every sum below stays within
-- -1 .. n+1, so only labs(hoped) at the minimum of long could leave the type.
def CursorBase.all : Int := 2147483646
def CursorBase.backwardAll : Int := -2147483647

inductive AccessPolicy where
  | forwardOnly
  | randomAccess
deriving DecidableEq, Repr

inductive OwnershipPolicy where
  | owned
  | loose
deriving DecidableEq, Repr

-- The distance in a FETCH or MOVE command, as stridestring spells it.
inductive Stride where
  | all
  | backwardAll
  | count (n : Int)
deriving DecidableEq, Repr

def Stride.text : Stride → String
  | .all => "ALL"
  | .backwardAll => "BACKWARD ALL"
  | .count n => toString n

def stridestring (n : Int) : Stride :=
  if n ≥ CursorBase.all then .all
  else if n ≤ CursorBase.backwardAll then .backwardAll
  else .count n

section

variable {ρ : Type}

-- The backend's cursor. Position 0 is in front of the first row and n+1 behind the
-- last; the field bounded keeps any other position from being built.
structure Portal (ρ : Type) where
  rows : List ρ
  position : Nat
  scroll : Bool
  bounded : position ≤ rows.length + 1

def Portal.forward (p : Portal ρ) (k : Nat) : List ρ × Portal ρ :=
  ((p.rows.drop p.position).take k, { p with position := min (p.position + k) (p.rows.length + 1), bounded := by omega })

def Portal.backward (p : Portal ρ) (k : Nat) : List ρ × Portal ρ :=
  ((p.rows.take (p.position - 1)).reverse.take k,
    { p with position := p.position - k, bounded := by have := p.bounded; omega })

-- FETCH 0 returns the row the cursor is on, if it is on one.
def Portal.current (p : Portal ρ) : List ρ := (p.rows.drop (p.position - 1)).take (min p.position 1)

def Portal.step (p : Portal ρ) : Stride → Except Exn (List ρ × Portal ρ)
  | .all => .ok (p.forward (p.rows.length + 1))
  | .backwardAll =>
      if p.scroll then .ok (p.backward (p.rows.length + 1))
      else .error { kind := .sqlError, what := "cursor can only scan forward" }
  | .count n =>
      if n > 0 then .ok (p.forward n.natAbs)
      else if n = 0 then .ok (p.current, p)
      else if p.scroll then .ok (p.backward n.natAbs)
      else .error { kind := .sqlError, what := "cursor can only scan forward" }

structure SqlCursor (ρ : Type) where
  name : String
  emptyResult : List ρ
  adopted : Bool
  ownership : OwnershipPolicy
  -- At starting position (-1), somewhere in the middle (0), or past end (1).
  atEnd : Int
  pos : Int
  endpos : Int

structure CursorState (ρ : Type) where
  cur : SqlCursor ρ
  portal : Portal ρ

def declarePortal (rows : List ρ) (ap : AccessPolicy) : Portal ρ :=
  { rows, position := 0, scroll := decide (ap = .randomAccess), bounded := by omega }

-- The query constructor once DECLARE has gone through; init_empty_result() then
-- runs FETCH 0 in front of the first row.
def sqlCursor (rows : List ρ) (name : String) (ap : AccessPolicy) (op : OwnershipPolicy) : CursorState ρ :=
  let portal := declarePortal rows ap
  { cur := { name, emptyResult := portal.current, adopted := false, ownership := op, atEnd := -1, pos := 0, endpos := -1 }
    portal }

def adoptCursor (portal : Portal ρ) (name : String) (op : OwnershipPolicy) : CursorState ρ :=
  { cur := { name, emptyResult := [], adopted := true, ownership := op, atEnd := 0, pos := -1, endpos := -1 }
    portal }

def CursorState.update (s : CursorState ρ) (f : SqlCursor ρ → SqlCursor ρ) : CursorState ρ := { s with cur := f s.cur }

-- The end of adjust(): direction * actual is applied and handed back.
def advance (direction actual : Int) (hitEnd : Bool) : Prog (CursorState ρ) Exn Int := do
  Prog.modify fun s => s.update fun c => if c.pos ≥ 0 then { c with pos := c.pos + direction * actual } else c
  let cur ← Prog.gets CursorState.cur
  if hitEnd then
    if cur.endpos ≥ 0 ∧ cur.pos ≠ cur.endpos then
      throw (.internalError "Inconsistent cursor end positions")
    else do
      Prog.modify fun s => s.update fun c => { c with endpos := c.pos }
      pure (direction * actual)
  else pure (direction * actual)

-- The branch of adjust() for a row count short of the request.
def hitLimit (hoped actual direction : Int) : Prog (CursorState ρ) Exn Int := do
  let cur ← Prog.gets CursorState.cur
  let actual := if cur.atEnd ≠ direction then actual + 1 else actual
  if direction > 0 then do
    Prog.modify fun s => s.update fun c => { c with atEnd := direction }
    advance direction actual true
  else if cur.pos = -1 then do
    Prog.modify fun s => s.update fun c => { c with pos := actual, atEnd := direction }
    advance direction actual false
  else if cur.pos ≠ actual then
    throw (.internalError ("Moved back to beginning, but wrong position: " ++
      "hoped=" ++ toString hoped ++ ", " ++ "actual=" ++ toString actual ++ ", " ++
      "m_pos=" ++ toString cur.pos ++ ", " ++ "direction=" ++ toString direction))
  else do
    Prog.modify fun s => s.update fun c => { c with atEnd := direction }
    advance direction actual false

def adjust (hoped actual : Int) : Prog (CursorState ρ) Exn Int :=
  if actual < 0 then throw (.internalError "Negative rows in cursor movement")
  else if hoped = 0 then pure 0
  else
    let direction : Int := if hoped < 0 then -1 else 1
    if actual ≠ hoped.natAbs then
      if actual > hoped.natAbs then throw (.internalError "Cursor displacement larger than requested")
      else hitLimit hoped actual direction
    else do
      Prog.modify fun s => s.update fun c => { c with atEnd := 0 }
      advance direction actual false

-- Exec on the connection the cursor lives in; a failed command moves nothing.
def command (stride : Stride) : Prog (CursorState ρ) Exn (List ρ) := do
  let portal ← Prog.gets CursorState.portal
  match portal.step stride with
  | .error e => throw e
  | .ok (rows, next) => do
      Prog.modify fun s => { s with portal := next }
      pure rows

-- FETCH: the rows it returned, and the displacement.
def fetch (rows : Int) : Prog (CursorState ρ) Exn (List ρ × Int) :=
  if rows = 0 then do
    let cur ← Prog.gets CursorState.cur
    pure (cur.emptyResult, 0)
  else do
    let r ← command (stridestring rows)
    let displacement ← adjust rows r.length
    pure (r, displacement)

-- MOVE: the number of rows the backend reports, and the displacement.
def move (rows : Int) : Prog (CursorState ρ) Exn (Int × Int) :=
  if rows = 0 then pure (0, 0)
  else do
    let r ← command (stridestring rows)
    let d : Int := r.length
    let displacement ← adjust rows d
    pure (d, displacement)

end

end Pqxx
