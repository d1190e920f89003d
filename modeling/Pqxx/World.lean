import Mathlib.Data.String.Basic
import Pqxx.Except
import Pqxx.Lib.OrdMap
import Pqxx.Lib.Prog
import Pqxx.Server

set_option autoImplicit false

namespace Pqxx

open Lib

inductive ConnStatus where
  | started
  | ok
  | bad
deriving DecidableEq, Repr

-- A COPY in progress: the lines the backend has yet to give, if it is one that reads.
structure Copying where
  trans : Nat
  text : String
  lines : List String
deriving DecidableEq, Repr

-- PGconn: the connection to a session, and what libpq has read from it or expects to.
structure Handle where
  status : ConnStatus
  version : Nat
  protocol : Nat
  backendpid : Nat
  unread : List Answer
  active : Bool
  copying : Option Copying
  notifies : List Notify
deriving DecidableEq, Repr

-- connectionpolicy's derived classes.
inductive Policy where
  | direct
  | lazy
  | async
  | null
deriving DecidableEq, Repr

structure PreparedDef where
  definition : String
  registered : Bool
deriving DecidableEq, Repr

-- connection_base's members and its policy; trans is the transaction in m_Trans. What
-- connect_async keeps in m_connecting is here the handle's status: started.
structure Connection where
  policy : Policy
  handle : Option Handle
  completed : Bool
  inhibitReactivation : Bool
  reactivationAvoidance : Int
  serverversion : Nat
  uniqueId : Nat
  vars : OrdMap String String
  receivers : List (String × Nat)
  prepared : OrdMap String PreparedDef
  trans : Option Nat

def Connection.isOpen (c : Connection) : Bool := c.completed && c.handle.any fun h => h.status = .ok

-- A connection_base as its constructor leaves it, before init().
def Connection.initial (policy : Policy) : Connection :=
  { policy, handle := none, completed := false, inhibitReactivation := false, reactivationAvoidance := 0, serverversion := 0,
    uniqueId := 0, vars := OrdMap.empty, receivers := [], prepared := OrdMap.empty, trans := none }

-- connection_base::m_receivers, ordered by channel: at the end of those for its channel.
def insertReceiver (channel : String) (receiver : Nat) : List (String × Nat) → List (String × Nat)
  | [] => [(channel, receiver)]
  | (c, r) :: rest => if channel < c then (channel, receiver) :: (c, r) :: rest else (c, r) :: insertReceiver channel receiver rest

inductive Status where
  | nascent
  | active
  | aborted
  | committed
  | inDoubt
deriving DecidableEq, Repr

inductive Kind where
  | work
  | subtransaction (parent : Nat)
  | robust
deriving DecidableEq, Repr

-- The focus of a transaction: a pipeline, or a table stream with its m_Done.
structure Focus where
  classname : String
  name : String
  done : Bool
deriving DecidableEq, Repr

def description (classname name : String) : String := if name = "" then classname else classname ++ " '" ++ name ++ "'"

def Focus.description (f : Focus) : String := Pqxx.description f.classname f.name

-- transaction_base's members with its derived classes'. The block it began, and when it
-- did, are on record only.
structure Transaction where
  kind : Kind
  classname : String
  name : String
  startArgs : String
  status : Status
  registered : Bool
  focus : Option Focus
  pendingError : String
  vars : OrdMap String String
  reactivationAvoidance : Int
  logTable : String
  recordId : Nat
  xid : String
  backendpid : Nat
  block : Option Nat
  begun : Option Nat

-- transaction_base's members before its constructor's body.
def Transaction.fresh (kind : Kind) (classname name startArgs logTable : String) : Transaction :=
  { kind, classname, name, startArgs, status := .nascent, registered := false, focus := none, pendingError := "",
    vars := OrdMap.empty, reactivationAvoidance := 0, logTable, recordId := 0, xid := "", backendpid := 0, block := none,
    begun := none }

def Transaction.description (x : Transaction) : String := Pqxx.description x.classname x.name

-- A statement that went to libpq, and whether its transaction was then active and free
-- of a focus.
structure Sent where
  sql : Sql
  guarded : Bool
deriving DecidableEq, Repr

structure World where
  conn : Connection
  trans : Nat → Transaction
  server : Server
  clock : Nat
  notices : List String
  delivered : List (Nat × Notify)
  sent : List Sent

def World.initial (policy : Policy) : World :=
  { conn := Connection.initial policy, trans := fun _ => Transaction.fresh .work "" "" "" "", server := Server.initial, clock := 0,
    notices := [], delivered := [], sent := [] }

def Transaction.free (x : Transaction) : Bool := decide (x.status = .active ∧ x.focus = none)

def World.guarded (w : World) (sql : Sql) : Bool := sql.trans.all fun i => (w.trans i).free

abbrev Client : Type → Type := Prog World Exn

def fault {α : Type} (kind : ExnKind) (what : String) : Client α := throw { kind, what }

def modifyConn (f : Connection → Connection) : Client Unit := Prog.modify fun w => { w with conn := f w.conn }

def modifyHandle (f : Handle → Handle) : Client Unit := modifyConn fun c => { c with handle := c.handle.map f }

def modifyTrans (i : Nat) (f : Transaction → Transaction) : Client Unit :=
  Prog.modify fun w => { w with trans := fun j => if j = i then f (w.trans j) else w.trans j }

def tick : Client Nat := do
  let t ← Prog.gets World.clock
  Prog.modify fun w => { w with clock := t + 1 }
  pure t

end Pqxx
