set_option autoImplicit false

namespace Pqxx

-- std::string as the bytes it holds.
abbrev Bytes := List UInt8

def tab : UInt8 := 9
def newline : UInt8 := 10
def backslash : UInt8 := 92

-- util.hxx separated_list: the separator goes between items, never behind them.
def separatedList (sep : Bytes) : List Bytes → Bytes
  | [] => []
  | [item] => item
  | item :: next :: rest => item ++ sep ++ separatedList sep (next :: rest)

-- The letter of a character's named escape, or 0 where it has none.
def escapechar (i : UInt8) : UInt8 :=
  if i = 8 then 98
  else if i = 11 then 118
  else if i = 12 then 102
  else if i = newline then 110
  else if i = tab then 116
  else if i = 13 then 114
  else if i = backslash then backslash
  else 0

-- The source compares a plain char. A byte from 0x80 on is below ' ' where char
-- is signed and above '~' where it is not, so both kinds of platform agree.
def unprintable (i : UInt8) : Bool := i.toNat < 32 || i.toNat > 126

def numberToDigit (i : UInt8) : UInt8 := i + 48

def tooctdigit (c : UInt8) (n : UInt8) : UInt8 := numberToDigit ((c >>> (3 * n)) &&& 7)

-- One turn of the loop in Escape. The literal "\\\\" of the second branch is two
-- backslashes, not one.
def escapeByte (c : UInt8) : Bytes :=
  if escapechar c ≠ 0 then [backslash, escapechar c]
  else if unprintable c then [backslash, backslash, tooctdigit c 2, tooctdigit c 1, tooctdigit c 0]
  else [c]

def escape (s null : Bytes) : Bytes :=
  if s = null then [backslash, 78]
  else if s = [] then s
  else s.flatMap escapeByte

-- tablewriter::generate with Escaper(NullStr()) as the access functor.
def generate (null : Bytes) (row : List Bytes) : Bytes :=
  separatedList [tab] (row.map fun s => escape s null)

end Pqxx
