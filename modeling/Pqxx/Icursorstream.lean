import Mathlib.Data.Int.Order.Basic
import Pqxx.Lib.OrdMap
import Pqxx.SqlCursorPosition

set_option autoImplicit false

namespace Pqxx

open Lib

variable {ρ : Type}

-- icursor_iterator's members, where stream says whether m_stream is the stream here or
-- null.
structure IcursorIterator (ρ : Type) where
  stream : Bool
  here : List ρ
  pos : Int

-- icursorstream's members with the iterators that there are; iterators is the list at
-- m_iterators, linked by the iterators' m_prev and m_next.
structure Icursorstream (ρ : Type) where
  cur : CursorState ρ
  stride : Int
  realpos : Int
  reqpos : Int
  iterators : List Nat
  done : Bool
  iterator : Nat → Option (IcursorIterator ρ)

namespace Icursorstream

-- difference_type is long; a sum out of its range wraps here.
def wrap (n : Int) : Int := Int.bmod n 18446744073709551616

-- The constructors with a query and with an existing cursor, given a stride that
-- set_stride() accepts.
inductive Opening (ρ : Type) where
  | create (rows : List ρ) (basename : String)
  | adopt (portal : Portal ρ) (cname : String) (op : OwnershipPolicy)

-- What lies in front of the stream.
def Opening.rows : Opening ρ → List ρ
  | .create rows _ => rows
  | .adopt portal _ _ => portal.rows.drop portal.position

def Opening.cursor : Opening ρ → CursorState ρ
  | .create rows basename => sqlCursor rows basename .forwardOnly .owned
  | .adopt portal cname op => adoptCursor portal cname op

def fresh (o : Opening ρ) (sstride : Int) : Icursorstream ρ :=
  { cur := o.cursor, stride := sstride, realpos := 0, reqpos := 0, iterators := [], done := false, iterator := fun _ => none }

def icursorstream (o : Opening ρ) (sstride : Int) : Except Exn (Icursorstream ρ) :=
  if sstride < 1 then .error { kind := .argumentError, what := "Attempt to set cursor stride to " ++ toString sstride }
  else .ok (fresh o sstride)

def setIterator (s : Icursorstream ρ) (i : Nat) (it : IcursorIterator ρ) : Icursorstream ρ :=
  { s with iterator := fun j => if j = i then some it else s.iterator j }

def insertIterator (s : Icursorstream ρ) (i : Nat) : Icursorstream ρ := { s with iterators := i :: s.iterators }

def removeIterator (s : Icursorstream ρ) (i : Nat) : Icursorstream ρ := { s with iterators := s.iterators.erase i }

def onCursor {α : Type} (m : Prog (CursorState ρ) Exn α) : Prog (Icursorstream ρ) Exn α := fun s =>
  match m s.cur with
  | (r, cur) => (r, { s with cur })

def fetchblock : Prog (Icursorstream ρ) Exn (List ρ) := do
  let s ← Prog.get
  let r ← onCursor (fetch s.stride)
  Prog.modify fun s => { s with realpos := s.realpos + r.1.length, done := s.done || r.1.isEmpty }
  pure r.1

def ignore (n : Int) : Prog (Icursorstream ρ) Exn Unit := do
  let offset ← onCursor (move n)
  Prog.modify fun s => { s with realpos := s.realpos + offset.1, done := s.done || decide (offset.1 < n) }

def forward (n : Int) : Prog (Icursorstream ρ) Exn Int := do
  Prog.modify fun s => { s with reqpos := wrap (s.reqpos + n * s.stride) }
  Prog.gets Icursorstream.reqpos

-- The multimap of the iterators from m_realpos up to topos, by position.
def todo (s : Icursorstream ρ) (topos : Int) : OrdMap Int (List Nat) :=
  s.iterators.foldl (fun todo i =>
    match s.iterator i with
    | none => todo
    | some it =>
        if it.pos ≥ s.realpos ∧ it.pos ≤ topos then todo.set it.pos ((todo.find it.pos).getD [] ++ [i]) else todo) OrdMap.empty

def fill (s : Icursorstream ρ) (r : List ρ) (is : List Nat) : Icursorstream ρ :=
  { s with iterator := fun j => if j ∈ is then (s.iterator j).map fun it => { it with here := r } else s.iterator j }

-- The loop over the positions in todo, and the inner one over the iterators there.
def service : List (Int × List Nat) → Prog (Icursorstream ρ) Exn Unit
  | [] => pure ()
  | (readpos, is) :: rest => do
      let s ← Prog.get
      Prog.when (readpos > s.realpos) (ignore (readpos - s.realpos))
      let r ← fetchblock
      Prog.modify fun s => s.fill r is
      service rest

def serviceIterators (topos : Int) : Prog (Icursorstream ρ) Exn Unit := do
  let s ← Prog.get
  if topos < s.realpos then pure () else service (s.todo topos).entries

end Icursorstream

namespace IcursorIterator

open Icursorstream

-- An iterator made without a stream, on the stream, and as a copy of another.
def create (i : Nat) : Prog (Icursorstream ρ) Exn Unit := Prog.modify fun s => s.setIterator i { stream := false, here := [], pos := 0 }

def createOn (i : Nat) : Prog (Icursorstream ρ) Exn Unit := do
  let pos ← forward 0
  Prog.modify fun s => (s.setIterator i { stream := true, here := [], pos }).insertIterator i

def copy (i : Nat) (rhs : IcursorIterator ρ) : Prog (Icursorstream ρ) Exn Unit :=
  Prog.modify fun s => if rhs.stream then (s.setIterator i rhs).insertIterator i else s.setIterator i rhs

def destroy (i : Nat) (it : IcursorIterator ρ) : Prog (Icursorstream ρ) Exn Unit :=
  Prog.modify fun s =>
    let s := if it.stream then s.removeIterator i else s
    { s with iterator := fun j => if j = i then none else s.iterator j }

-- operator+=, and operator++ where n is 1; the postfix one makes a copy first. An
-- iterator must have a stream to advance on.
def advance (i : Nat) (it : IcursorIterator ρ) (n : Int) : Prog (Icursorstream ρ) Exn Unit :=
  if n ≤ 0 then
    if n = 0 then pure () else throw { kind := .argumentError, what := "Advancing icursor_iterator by negative offset" }
  else do
    let pos ← forward n
    Prog.modify fun s => s.setIterator i { it with pos, here := [] }

def assign (i : Nat) (it rhs : IcursorIterator ρ) : Prog (Icursorstream ρ) Exn Unit :=
  Prog.modify fun s =>
    if rhs.stream = it.stream then s.setIterator i { it with here := rhs.here, pos := rhs.pos }
    else
      let s := if it.stream then s.removeIterator i else s
      let s := s.setIterator i rhs
      if rhs.stream then s.insertIterator i else s

def refresh (it : IcursorIterator ρ) : Prog (Icursorstream ρ) Exn Unit :=
  if it.stream then serviceIterators it.pos else pure ()

def cached (i : Nat) : Prog (Icursorstream ρ) Exn (List ρ) := do
  let s ← Prog.get
  pure ((s.iterator i).elim [] IcursorIterator.here)

def dereference (i : Nat) : Prog (Icursorstream ρ) Exn (List ρ) := do
  let s ← Prog.get
  match s.iterator i with
  | none => pure []
  | some it => do
      refresh it
      cached i

-- operator==. There is no iterator of any other stream.
def equal (i j : Nat) : Prog (Icursorstream ρ) Exn Bool := do
  let s ← Prog.get
  match s.iterator i, s.iterator j with
  | some it, some rhs =>
      if it.stream = rhs.stream then pure (decide (it.pos = rhs.pos))
      else do
        refresh it
        refresh rhs
        let here ← cached i
        let there ← cached j
        pure (here.isEmpty && there.isEmpty)
  | _, _ => pure false

def less (i j : Nat) : Prog (Icursorstream ρ) Exn Bool := do
  let s ← Prog.get
  match s.iterator i, s.iterator j with
  | some it, some rhs =>
      if it.stream = rhs.stream then pure (decide (it.pos < rhs.pos))
      else do
        refresh it
        refresh rhs
        let here ← cached i
        pure (!here.isEmpty)
  | _, _ => pure false

end IcursorIterator

inductive IteratorOp where
  | create (i : Nat)
  | createOn (i : Nat)
  | copy (i rhs : Nat)
  | assign (i rhs : Nat)
  | advance (i : Nat) (n : Int)
  | dereference (i : Nat)
  | equal (i rhs : Nat)
  | less (i rhs : Nat)
  | destroy (i : Nat)
deriving DecidableEq, Repr

-- What the client can do: nothing to an iterator that is not there, no new iterator in
-- the place of one that is, and no advancing without a stream.
def IteratorOp.perform (s : Icursorstream ρ) : IteratorOp → Prog (Icursorstream ρ) Exn Unit
  | .create i => if (s.iterator i).isNone then IcursorIterator.create i else pure ()
  | .createOn i => if (s.iterator i).isNone then IcursorIterator.createOn i else pure ()
  | .copy i rhs =>
      match s.iterator i, s.iterator rhs with
      | none, some other => IcursorIterator.copy i other
      | _, _ => pure ()
  | .assign i rhs =>
      match s.iterator i, s.iterator rhs with
      | some it, some other => IcursorIterator.assign i it other
      | _, _ => pure ()
  | .advance i n =>
      match s.iterator i with
      | some it => if it.stream then IcursorIterator.advance i it n else pure ()
      | none => pure ()
  | .dereference i => do
      let _ ← IcursorIterator.dereference i
      pure ()
  | .equal i rhs => do
      let _ ← IcursorIterator.equal i rhs
      pure ()
  | .less i rhs => do
      let _ ← IcursorIterator.less i rhs
      pure ()
  | .destroy i =>
      match s.iterator i with
      | some it => IcursorIterator.destroy i it
      | none => pure ()

def iteratorStep (s : Icursorstream ρ) (op : IteratorOp) : Icursorstream ρ := (op.perform s s).2

end Pqxx
