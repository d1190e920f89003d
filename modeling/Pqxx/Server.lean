import Pqxx.Lib.Store

set_option autoImplicit false

namespace Pqxx

open Lib

structure SqlError where
  state : String
  message : String
deriving DecidableEq, Repr

-- As libpq lays out a message of the backend.
def SqlError.text (e : SqlError) : String := "ERROR:  " ++ e.message ++ "\n"

inductive Answer where
  | rows (rows : List (List String))
  | failed (error : SqlError)
deriving DecidableEq, Repr

-- PostgreSQL folds the case of names that are not quoted.
def fold (name : String) : List Char := name.toList.map Char.toLower

-- What the library sends. A statement of the client's is marked with the transaction
-- it is sent through. COPY takes effect when its data has ended.
inductive Sql where
  | begin (args : String)
  | commit
  | rollback
  | savepoint (name : String)
  | release (name : String)
  | rollbackTo (name : String)
  | setVar (var value : String)
  | showVar (var : String)
  | listen (channel : String)
  | unlisten (channel : String)
  | statement (trans : Nat) (text : String) (args : List (Option String))
  | fetch (text : String)
  | copy (trans : Nat) (text : String)
  | copyEnd (trans : Nat) (text : String)
  | prepare (name definition : String)
  | execute (trans : Nat) (name : String) (args : List (Option String))
  | deallocate (name : String)
  | setConstraints
  | createTable (table : String)
  | createSequence (sequence : String)
  | deleteOld (table : String)
  | nextval (sequence : String)
  | insertRecord (table : String) (id : Nat) (user : String) (name : String)
  | deleteRecord (table : String) (id : Nat)
  | txidCurrent
  | txidRunning (xid : String)
  | activity (backendpid : Nat)
  | findRecord (table : String) (id : Nat) (user : String)
deriving DecidableEq, Repr

-- As PQescapeStringConn does it.
def quoted (text : String) : String :=
  let quote := Char.ofNat 39
  String.ofList (quote :: text.toList.flatMap (fun c => if c = quote then [c, c] else [c]) ++ [quote])

def Sql.text : Sql → String
  | .begin args => if args = "" then "BEGIN" else "BEGIN; SET TRANSACTION" ++ args
  | .commit => "COMMIT"
  | .rollback => "ROLLBACK"
  | .savepoint name => "SAVEPOINT \"" ++ name ++ "\""
  | .release name => "RELEASE SAVEPOINT \"" ++ name ++ "\""
  | .rollbackTo name => "ROLLBACK TO SAVEPOINT \"" ++ name ++ "\""
  | .setVar var value => "SET " ++ var ++ "=" ++ value
  | .showVar var => "SHOW " ++ var
  | .listen channel => "LISTEN \"" ++ channel ++ "\""
  | .unlisten channel => "UNLISTEN \"" ++ channel ++ "\""
  | .statement _ text _ => text
  | .fetch text => text
  | .copy _ text => text
  | .copyEnd _ _ => "[END COPY]"
  | .prepare name _ => "[PREPARE " ++ name ++ "]"
  | .execute _ name _ => name
  | .deallocate name => "DEALLOCATE \"" ++ name ++ "\""
  | .setConstraints => "SET CONSTRAINTS ALL IMMEDIATE"
  | .createTable table => "CREATE TABLE \"" ++ table ++ "\" (id INTEGER NOT NULL, username VARCHAR(256), transaction_id xid, " ++
      "name VARCHAR(256), date TIMESTAMP NOT NULL)"
  | .createSequence sequence => "CREATE SEQUENCE " ++ sequence
  | .deleteOld table => "DELETE FROM " ++ table ++ " WHERE date < CURRENT_TIMESTAMP - '30 days'::interval"
  | .nextval sequence => "SELECT nextval(" ++ quoted sequence ++ ")"
  | .insertRecord table id user name => "INSERT INTO \"" ++ table ++ "\" (id, username, name, date) VALUES (" ++ toString id ++
      ", " ++ quoted user ++ ", " ++ (if name = "" then "NULL" else quoted name) ++ ", CURRENT_TIMESTAMP)"
  | .deleteRecord table id => "DELETE FROM \"" ++ table ++ "\" WHERE id = " ++ toString id
  | .txidCurrent => "SELECT txid_current()"
  | .txidRunning xid => "SELECT " ++ xid ++ " >= txid_snapshot_xmin(txid_current_snapshot())"
  | .activity backendpid => "SELECT current_query FROM pq_stat_activity WHERE procpid = " ++ toString backendpid
  | .findRecord table id user => "SELECT id FROM \"" ++ table ++ "\" WHERE id = " ++ toString id ++ " AND user = " ++ user

def Sql.trans : Sql → Option Nat
  | .statement i _ _ => some i
  | .execute i _ _ => some i
  | _ => none

-- One row of a robusttransaction log table.
structure Record where
  id : Nat
  username : String
  name : String
  date : Nat
deriving DecidableEq, Repr

-- A statement of the client's that took effect, and when.
structure Effect where
  time : Nat
  trans : Nat
  text : String
deriving DecidableEq, Repr

-- What a session sees: its database, where marks are the blocks that write to it, and
-- its own settings.
structure View where
  effects : List Effect
  marks : List Nat
  tables : List Char → Option (List Record)
  sequences : List Char → Bool
  vars : List Char → Option String
  listens : String → Bool

def View.reset (v : View) : View := { v with vars := fun _ => none, listens := fun _ => false }

-- What becomes of a request: the connection may break before or after the backend gets
-- it, and libpq may return no result on a connection that lives on.
inductive Fate where
  | answered
  | lostBefore
  | lostAfter
  | nullBefore
  | nullAfter
deriving DecidableEq, Repr

inductive Consumed where
  | fine
  | trouble
  | lost
deriving DecidableEq, Repr

structure Notify where
  channel : String
  extra : String
  pid : Nat
deriving DecidableEq, Repr

-- The world outside: libpq, the network and the backend's own choices, asked once for
-- each point in time. greets gives the server version and protocol of a new connection;
-- refuses may refuse a statement sent on its own, with 0, or the i-th of several; operand
-- is what the text of a user name, unquoted, stands for in a condition on the rows of the
-- log, if it stands for anything: an identifier, say, that names no column does not.
structure Outside where
  greets : Nat → Option (Nat × Nat)
  fate : Nat → Fate
  refuses : Nat → Nat → Option SqlError
  rows : Nat → List (List String)
  copyLines : Nat → List String
  consumes : Nat → Consumed
  drops : Nat → Bool
  arrives : Nat → List Notify
  receiverThrows : Nat → Option String
  errorMessage : Nat → String
  default : String → String
  expires : Nat → Nat → Bool
  nextval : Nat → Nat
  xid : Nat → String
  running : Nat → Bool
  user : String
  operand : String → Option (Record → Option String)

-- Nothing goes wrong, and nobody else does anything.
def Outside.calm : Outside :=
  { greets := fun _ => some (90100, 3), fate := fun _ => .answered, refuses := fun _ _ => none, rows := fun _ => [],
    copyLines := fun _ => [], consumes := fun _ => .fine, drops := fun _ => false, arrives := fun _ => [],
    receiverThrows := fun _ => none, errorMessage := fun _ => "", default := fun _ => "", expires := fun _ _ => false,
    nextval := id, xid := fun t => toString t, running := fun _ => false, user := "pqxx", operand := fun _ => none }

structure Server where
  store : Store View
  prepared : List (String × String)

def View.empty : View :=
  { effects := [], marks := [], tables := fun _ => none, sequences := fun _ => false, vars := fun _ => none, listens := fun _ => false }

def Server.initial : Server := { store := { base := View.empty, block := none }, prepared := [] }

-- A session ends with its connection, and its block with it; the next one starts anew.
def Server.newSession (s : Server) : Server := { store := { base := s.store.base.reset, block := none }, prepared := [] }

def aborted : SqlError :=
  { state := "25P02", message := "current transaction is aborted, commands ignored until end of transaction block" }

def noRelation (name : String) : SqlError := { state := "42P01", message := "relation \"" ++ name ++ "\" does not exist" }

def relationExists (name : String) : SqlError := { state := "42P07", message := "relation \"" ++ name ++ "\" already exists" }

def noSavepoint (name : String) : SqlError := { state := "3B001", message := "savepoint \"" ++ name ++ "\" does not exist" }

def statementExists (name : String) : SqlError :=
  { state := "42P05", message := "prepared statement \"" ++ name ++ "\" already exists" }

def noBlock (command : String) : SqlError :=
  { state := "25P01", message := command ++ " can only be used in transaction blocks" }

def noStatement (name : String) : SqlError :=
  { state := "26000", message := "prepared statement \"" ++ name ++ "\" does not exist" }

def noColumn (name : String) : SqlError := { state := "42703", message := "column \"" ++ name ++ "\" does not exist" }

section

variable (env : Outside) (t : Nat)

def View.withTable (v : View) (name : List Char) (label : String) (f : List Record → List Record) :
    Except SqlError (View × List (List String)) :=
  match v.tables name with
  | none => .error (noRelation label)
  | some records => .ok ({ v with tables := fun n => if n = name then some (f records) else v.tables n }, [])

def View.apply (v : View) (i : Nat) (text : String) : View := { v with effects := v.effects ++ [{ time := t, trans := i, text }] }

-- The rows that meet the condition "id = n AND user = name", unless name means nothing.
def findRows (records : List Record) (id : Nat) (user : String) : Except SqlError (List (List String)) :=
  match env.operand user with
  | none => .error (noColumn user)
  | some operand => .ok ((records.filter fun r => decide (r.id = id ∧ operand r = some env.user)).map fun r => [toString r.id])

-- A statement that is neither about the block nor refused. Names of tables are quoted
-- except where old records are deleted and with sequences.
def View.run (v : View) (prepared : List (String × String)) : Sql → Except SqlError (View × List (List String))
  | .setVar var value => .ok ({ v with vars := fun n => if n = fold var then some value else v.vars n }, [])
  | .showVar var => .ok (v, [[(v.vars (fold var)).getD (env.default var)]])
  | .listen channel => .ok ({ v with listens := fun c => c = channel || v.listens c }, [])
  | .unlisten channel => .ok ({ v with listens := fun c => c ≠ channel && v.listens c }, [])
  | .statement i text _ => .ok (v.apply t i text, env.rows t)
  | .fetch _ => .ok (v, env.rows t)
  | .copyEnd i text => .ok (v.apply t i text, [])
  | .prepare name _ =>
      if name ≠ "" ∧ (prepared.lookup name).isSome then .error (statementExists name) else .ok (v, [])
  | .deallocate name => if (prepared.lookup name).isSome then .ok (v, []) else .error (noStatement name)
  | .execute i name _ =>
      match prepared.lookup name with
      | none => .error (noStatement name)
      | some definition => .ok (v.apply t i definition, env.rows t)
  | .createTable table =>
      if (v.tables table.toList).isSome then .error (relationExists table)
      else .ok ({ v with tables := fun n => if n = table.toList then some [] else v.tables n }, [])
  | .createSequence sequence =>
      if v.sequences (fold sequence) then .error (relationExists sequence)
      else .ok ({ v with sequences := fun n => n = fold sequence || v.sequences n }, [])
  | .deleteOld table => v.withTable (fold table) table fun records => records.filter fun r => ¬ env.expires t r.date
  | .nextval sequence =>
      if v.sequences (fold sequence) then .ok (v, [[toString (env.nextval t)]]) else .error (noRelation sequence)
  | .insertRecord table id username name =>
      v.withTable table.toList table fun records => records ++ [{ id, username, name, date := t }]
  | .deleteRecord table id => v.withTable table.toList table fun records => records.filter fun r => r.id ≠ id
  | .txidCurrent => .ok (v, [[env.xid t]])
  | .txidRunning _ => .ok (v, [[if env.running t then "t" else "f"]])
  | .activity _ => .error (noRelation "pq_stat_activity")
  | .findRecord table id user =>
      match v.tables table.toList with
      | none => .error (noRelation table)
      | some records => (findRows env records id user).map fun rows => (v, rows)
  | _ => .ok (v, [])

-- A statement about savepoints, and the error it gives where it does not apply.
def Server.keep (s : Server) (command : String) (error : SqlError) : Option (Store View) → Answer × Server
  | some store => (.rows [], { s with store })
  | none => (.failed (if s.store.block.isNone then noBlock command else error), { s with store := s.store.fail })

-- Prepared statements belong to the session and no rollback undoes them.
def Server.prepare (s : Server) : Sql → Server
  | .prepare name definition => { s with prepared := (name, definition) :: s.prepared.filter fun p => p.1 ≠ name }
  | .deallocate name => { s with prepared := s.prepared.filter fun p => p.1 ≠ name }
  | _ => s

def Server.run (s : Server) (sql : Sql) : Answer × Server :=
  if s.store.failed then (.failed aborted, s)
  else
    match s.store.view.run env t s.prepared sql with
    | .error error => (.failed error, { s with store := s.store.fail })
    | .ok (view, rows) => (.rows rows, { s.prepare sql with store := s.store.put view })

def Server.perform (s : Server) : Sql → Answer × Server
  | .begin _ =>
      if s.store.failed then (.failed aborted, s)
      else (.rows [], { s with store := s.store.begin fun v => { v with marks := t :: v.marks } })
  | .commit => (.rows [], { s with store := s.store.commit })
  | .rollback => (.rows [], { s with store := s.store.rollback })
  | .savepoint name => s.keep "SAVEPOINT" aborted (s.store.savepoint name)
  | .release name => s.keep "RELEASE SAVEPOINT" (if s.store.failed then aborted else noSavepoint name) (s.store.release name)
  | .rollbackTo name => s.keep "ROLLBACK TO SAVEPOINT" (noSavepoint name) (s.store.rollbackTo name)
  | sql => s.run env t sql

-- A refused COMMIT ends the block all the same.
def Server.refuse (s : Server) (sql : Sql) : Server :=
  { s with store := if sql = .commit then s.store.rollback else s.store.fail }

def Server.serve (s : Server) (i : Nat) (sql : Sql) : Answer × Server :=
  match env.refuses t i with
  | some error => (.failed error, s.refuse sql)
  | none => s.perform env t sql

-- Several statements in one request stop at the first that fails.
def Server.serveAll (s : Server) : Nat → List Sql → List Answer × Server × Bool
  | _, [] => ([], s, true)
  | i, sql :: rest =>
      match s.serve env t i sql with
      | (.failed error, next) => ([.failed error], next, false)
      | (.rows rows, next) =>
          let more := next.serveAll (i + 1) rest
          (.rows rows :: more.1, more.2)

-- Outside a block they are one transaction, so that a failure undoes them all.
def Server.serveBatch (s : Server) (batch : List Sql) : List Answer × Server :=
  match s.serveAll env t 1 batch with
  | (answers, next, through) => (answers, if through then next else { next with store := s.store.fail })

end

end Pqxx
