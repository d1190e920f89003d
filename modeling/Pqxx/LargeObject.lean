import Mathlib.Algebra.Group.Int.Defs

set_option autoImplicit false

namespace Pqxx

-- The answers that lo_read and lo_write give to one call after another. An error is none;
-- a read before the end delivers at least one byte, and nothing delivers or takes more
-- bytes than it was asked to.
structure LoAnswers where
  read : Nat → Option Nat
  write : Nat → Option Nat

inductive SeekDir where
  | beg
  | cur
  | end_
deriving DecidableEq

-- An open large object, on the side of the backend. An error aborts the transaction, and
-- then no call gets through any more. The log has the calls of lo_write: the bytes that they
-- were given, and how many of them were written.
structure LargeObject where
  content : List UInt8
  position : Nat
  failed : Bool
  reads : Nat
  log : List (List UInt8 × Option Nat)
deriving DecidableEq

def LargeObject.opened (content : List UInt8) : LargeObject :=
  { content, position := 0, failed := false, reads := 0, log := [] }

-- A write past the end fills the gap with zeros.
def overwrite (content : List UInt8) (position : Nat) (bytes : List UInt8) : List UInt8 :=
  content.take position ++ List.replicate (position - content.length) 0 ++ bytes ++ content.drop (position + bytes.length)

namespace LargeObject

-- lo_lseek gives the new position, which has to fit an int.
def loLseek (o : LargeObject) (offset : Int) (dir : SeekDir) : Int × LargeObject :=
  let target := match dir with
    | .beg => offset
    | .cur => o.position + offset
    | .end_ => o.content.length + offset
  if o.failed = true ∨ target < 0 ∨ target ≥ 2 ^ 31 then (-1, { o with failed := true })
  else (target, { o with position := target.toNat })

variable (lo : LoAnswers)

def loRead (o : LargeObject) (len : Nat) : Int × List UInt8 × LargeObject :=
  match o.failed, lo.read o.reads with
  | false, some n =>
      let bytes := (o.content.drop o.position).take (min (max n 1) len)
      (bytes.length, bytes, { o with position := o.position + bytes.length, reads := o.reads + 1 })
  | _, _ => (-1, [], { o with failed := true, reads := o.reads + 1 })

def loWrite (o : LargeObject) (bytes : List UInt8) : Int × LargeObject :=
  match o.failed, lo.write o.log.length with
  | false, some n =>
      let taken := bytes.take n
      (taken.length, { o with
        content := overwrite o.content o.position taken, position := o.position + taken.length, log := o.log ++ [(bytes, some n)] })
  | _, _ => (-1, { o with failed := true, log := o.log ++ [(bytes, none)] })

-- The bytes that the calls of lo_write wrote.
def written (o : LargeObject) : List UInt8 := o.log.flatMap fun call => call.1.take (call.2.getD 0)

-- largeobjectaccess: cseek passes the offset on as an int.
def cseek (o : LargeObject) (dest : Int) (dir : SeekDir) : Int × LargeObject := o.loLseek (BitVec.ofInt 32 dest).toInt dir

def cread (o : LargeObject) (bytes : Nat) : Int × List UInt8 × LargeObject :=
  match o.loRead lo bytes with
  | (n, buf, o') => (max n (-1), buf, o')

def cwrite (o : LargeObject) (buf : List UInt8) : Int × LargeObject :=
  match o.loWrite lo buf with
  | (n, o') => (max n (-1), o')

end LargeObject

-- traits_type::eof(), and to_int_type(), which is never negative.
def eof : Int := -1

def toIntType (c : UInt8) : Int := c.toNat

-- A char on its own, as an int: it is signed.
def charValue (c : UInt8) : Int := if c < 128 then c.toNat else c.toNat - 256

-- The characters from eback() to egptr(), and how far gptr() is.
structure GetArea where
  chars : List UInt8
  next : Nat
  within : next ≤ chars.length
deriving DecidableEq

def GetArea.fresh (chars : List UInt8) : GetArea := { chars, next := 0, within := Nat.zero_le _ }

-- setg(eback(), eback(), egptr()).
def GetArea.rewind (g : GetArea) : GetArea := .fresh g.chars

def GetArea.remaining (g : GetArea) : List UInt8 := g.chars.drop g.next

-- gbump(1), where there is a character to pass.
def GetArea.bump (g : GetArea) : GetArea := { chars := g.chars, next := min (g.next + 1) g.chars.length, within := Nat.min_le_right .. }

-- largeobject_streambuf. There is a get area if it is opened for input and a put area if
-- it is opened for output: the characters from pbase() to pptr(), with epptr() bufSize after pbase().
structure LargeobjectStreambuf where
  bufSize : Nat
  obj : LargeObject
  get : Option GetArea
  put : Option (List UInt8)
deriving DecidableEq

namespace LargeobjectStreambuf

-- The constructor and initialize().
def opened (content : List UInt8) (bufSize : Nat) (input output : Bool) : LargeobjectStreambuf := {
  bufSize, obj := .opened content
  get := if input = true then some (.fresh []) else none
  put := if output = true then some [] else none }

def seekoff (s : LargeobjectStreambuf) (offset : Int) (dir : SeekDir) : Int × LargeobjectStreambuf :=
  match s.obj.cseek offset dir with
  | (pos, obj) => (pos, { s with obj })

def seekpos (s : LargeobjectStreambuf) (pos : Int) : Int × LargeobjectStreambuf :=
  match s.obj.cseek pos .beg with
  | (newpos, obj) => (newpos, { s with obj })

variable (lo : LoAnswers)

-- What cwrite returns is what overflow returns, whether ch finds a place or not.
def overflow (s : LargeobjectStreambuf) (ch : Option UInt8) : Int × LargeobjectStreambuf :=
  match s.put with
  | none => (eof, s)
  | some [] => (0, { s with put := some ch.toList })
  | some pending =>
      match s.obj.cwrite lo pending with
      | (res, obj) => (res, { s with obj, put := some ch.toList })

def sync (s : LargeobjectStreambuf) : Int × LargeobjectStreambuf :=
  LargeobjectStreambuf.overflow lo { s with get := s.get.map GetArea.rewind } none

def underflow (s : LargeobjectStreambuf) : Int × LargeobjectStreambuf :=
  match s.get with
  | none => (eof, s)
  | some _ =>
      match s.obj.cread lo s.bufSize with
      | (res, buf, obj) =>
          let s := { s with obj, get := some (.fresh (if res = eof then [] else buf)) }
          (if res = 0 ∨ res = eof then eof else charValue (buf.headD 0), s)

-- From here on std::basic_streambuf: the character at gptr(), where there is one.
def current (s : LargeobjectStreambuf) : Option UInt8 := s.get.bind fun g => g.remaining.head?

def gbump (s : LargeobjectStreambuf) : LargeobjectStreambuf := { s with get := s.get.map GetArea.bump }

def uflow (s : LargeobjectStreambuf) : Int × LargeobjectStreambuf :=
  match s.underflow lo with
  | (c, s) => if c = eof then (eof, s) else (toIntType (s.current.getD 0), s.gbump)

def sgetc (s : LargeobjectStreambuf) : Int × LargeobjectStreambuf :=
  match s.current with
  | some c => (toIntType c, s)
  | none => s.underflow lo

def sbumpc (s : LargeobjectStreambuf) : Int × LargeobjectStreambuf :=
  match s.current with
  | some c => (toIntType c, s.gbump)
  | none => s.uflow lo

def snextc (s : LargeobjectStreambuf) : Int × LargeobjectStreambuf :=
  match s.sbumpc lo with
  | (c, s) => if c = eof then (eof, s) else s.sgetc lo

-- As if by so many calls of sbumpc, up to one that returns eof.
def sgetn (s : LargeobjectStreambuf) : Nat → List UInt8 × LargeobjectStreambuf
  | 0 => ([], s)
  | n + 1 =>
      match s.sbumpc lo with
      | (c, s) =>
          if c = eof then ([], s)
          else
            match s.sgetn n with
            | (cs, s) => (c.toNat.toUInt8 :: cs, s)

def sputc (s : LargeobjectStreambuf) (c : UInt8) : Int × LargeobjectStreambuf :=
  match s.put with
  | some pending =>
      if pending.length < s.bufSize then (toIntType c, { s with put := some (pending ++ [c]) }) else s.overflow lo (some c)
  | none => s.overflow lo (some c)

-- As if by calls of sputc, up to one that returns eof. It returns how many did not.
def sputn (s : LargeobjectStreambuf) : List UInt8 → Nat × LargeobjectStreambuf
  | [] => (0, s)
  | c :: cs =>
      match s.sputc lo c with
      | (res, s) =>
          if res = eof then (0, s)
          else
            match s.sputn cs with
            | (n, s) => (n + 1, s)

end LargeobjectStreambuf

end Pqxx
