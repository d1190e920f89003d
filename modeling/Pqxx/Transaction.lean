import Pqxx.Connection

set_option autoImplicit false

namespace Pqxx

open Lib

-- field.to(), for the first field of a result, where it holds a number.
def toId (text : String) : Option Nat :=
  if text ≠ "" ∧ text.toList.all Char.isDigit then some (Nat.ofDigitChars 10 text.toList 0) else none

def firstField (rows : List (List String)) : Option String := rows.head?.bind List.head?

section

variable (env : Outside)

-- reactivation_avoidance_exemption around a piece of work: whichever way it ends, the
-- count is put back.
def exempt (work : Client Unit) : Client Unit := do
  let before ← Prog.get
  let count := before.conn.reactivationAvoidance
  modifyConn fun c => { c with reactivationAvoidance := 0 }
  let leave : Client Unit := do
    Prog.when (count ≠ 0 ∧ before.conn.isOpen = false) Connection.deactivate
    modifyConn fun c => { c with reactivationAvoidance := c.reactivationAvoidance + count }
  tryCatch work fun e => do
    leave
    throw e
  leave

namespace Transaction

def setStatus (i : Nat) (status : Status) : Client Unit := modifyTrans i fun x => { x with status }

-- The message is gone by the time it is thrown.
def checkPendingError (i : Nat) : Client Unit := do
  let w ← Prog.get
  if (w.trans i).pendingError ≠ "" then do
    modifyTrans i fun x => { x with pendingError := "" }
    fault .failure ""
  else pure ()

def registerPendingError (i : Nat) (err : String) : Client Unit :=
  modifyTrans i fun x => if x.pendingError = "" ∧ err ≠ "" then { x with pendingError := err } else x

def directExec (i : Nat) (sql : Sql) (retries : Nat) : Client (List (List String)) := do
  checkPendingError i
  Connection.exec env sql retries

-- A statement for its effect only.
def direct (i : Nat) (sql : Sql) (retries : Nat) : Client Unit := do
  let _ ← directExec env i sql retries
  pure ()

def swallow (m : Client Unit) : Client Unit := tryCatch m fun _ => pure ()

def noticing (m : Client Unit) : Client Unit := tryCatch m fun e => processNotice e.what

-- dbtransaction's do_begin() and do_abort().
def dbBegin (i : Nat) : Client Unit := do
  let w ← Prog.get
  direct env i (.begin (w.trans i).startArgs) (if w.conn.reactivationAvoidance ≠ 0 then 0 else 2)

def dbAbort (i : Nat) : Client Unit := do
  modifyTrans i fun x => { x with reactivationAvoidance := 0 }
  direct env i .rollback 0

def sequence (x : Transaction) : String := x.logTable ++ "_seq"

def createLogTable (i : Nat) : Client Unit := do
  let w ← Prog.get
  tryCatch (direct env i (.createTable (w.trans i).logTable) 1) fun e =>
    processNotice ("Could not create transaction log table: " ++ e.what)
  tryCatch (direct env i (.createSequence (sequence (w.trans i))) 0) fun e =>
    processNotice ("Could not create transaction log sequence: " ++ e.what)

def setRecordId (i : Nat) (field : Option String) : Client Unit :=
  match field.map toId with
  | some none => fault .failure "Could not convert string to integer"
  | some (some id) => modifyTrans i fun x => { x with recordId := id }
  | none => pure ()

def createTransactionRecord (i : Nat) : Client Unit := do
  let w ← Prog.get
  direct env i (.deleteOld (w.trans i).logTable) 0
  let rows ← directExec env i (.nextval (sequence (w.trans i))) 0
  setRecordId i (firstField rows)
  let w ← Prog.get
  let user ← Connection.username env
  direct env i (.insertRecord (w.trans i).logTable (w.trans i).recordId user (w.trans i).name) 0

def robustBegin (i : Nat) : Client Unit := do
  tryCatch (createTransactionRecord env i) fun _ => do
    swallow (dbAbort env i)
    createLogTable env i
    dbBegin env i
    let w ← Prog.get
    modifyTrans i fun x => { x with backendpid := w.conn.handle.elim 0 fun h => h.backendpid }
    createTransactionRecord env i
  dbBegin env i
  let w ← Prog.get
  direct env i (.deleteRecord (w.trans i).logTable (w.trans i).recordId) 0
  let w ← Prog.get
  Prog.when (w.conn.serverversion ≥ 80300) do
    let rows ← directExec env i .txidCurrent 0
    modifyTrans i fun x => { x with xid := (firstField rows).getD x.xid }

def deleteTransactionRecord (i : Nat) : Client Unit := do
  let w ← Prog.get
  if (w.trans i).recordId = 0 then pure ()
  else do
    swallow (exempt do
      direct env i (.deleteRecord (w.trans i).logTable (w.trans i).recordId) 20
      modifyTrans i fun x => { x with recordId := 0 })
    let w ← Prog.get
    Prog.when ((w.trans i).recordId ≠ 0) (processNotice ("WARNING: Failed to delete obsolete transaction record with id " ++
      toString (w.trans i).recordId ++ " ('" ++ (w.trans i).name ++ "'). Please delete it manually.  Thank you.\n"))

def doBegin (i : Nat) : Client Unit := do
  let w ← Prog.get
  match (w.trans i).kind with
  | .work => dbBegin env i
  | .subtransaction _ => direct env i (.savepoint (w.trans i).name) 0
  | .robust => robustBegin env i

def doAbort (i : Nat) : Client Unit := do
  let w ← Prog.get
  match (w.trans i).kind with
  | .work => dbAbort env i
  | .subtransaction _ => direct env i (.rollbackTo (w.trans i).name) 0
  | .robust => do
      dbAbort env i
      deleteTransactionRecord env i

-- End() for a transaction that is not, or not any more, active.
def endClosed (i : Nat) : Client Unit := do
  noticing (checkPendingError i)
  let w ← Prog.get
  Prog.when ((w.trans i).registered = true) do
    modifyTrans i fun x => { x with registered := false }
    Connection.unregisterTransaction i

-- The status is no longer active when abort() gets to End().
def abort (i : Nat) : Client Unit := do
  let w ← Prog.get
  let close : Client Unit := do
    setStatus i .aborted
    endClosed i
  match (w.trans i).status with
  | .nascent => close
  | .active => do
      swallow (doAbort env i)
      close
  | .aborted => pure ()
  | .committed => fault .usageError ("Attempt to abort previously committed " ++ (w.trans i).description)
  | .inDoubt => processNotice ("Warning: " ++ (w.trans i).description ++
      " aborted after going into indeterminate state; it may have been executed anyway.\n")

def noteFocus (x : Transaction) : Client Unit :=
  match x.focus with
  | none => pure ()
  | some f => processNotice ("Closing " ++ x.description ++ "  with " ++ f.description ++ " still open\n")

def end_ (i : Nat) : Client Unit := noticing do
  endClosed i
  let w ← Prog.get
  if (w.trans i).status = .active then do
    noteFocus (w.trans i)
    noticing (abort env i)
    let w ← Prog.get
    modifyConn fun c => { c with reactivationAvoidance := c.reactivationAvoidance + (w.trans i).reactivationAvoidance }
    modifyTrans i fun x => { x with reactivationAvoidance := 0 }
  else pure ()

-- For the record: when the transaction began, and the block it is then in.
def setBegun (i : Nat) : Client Unit := Prog.modify fun w => { w with trans := fun j =>
  if j = i then { w.trans j with status := .active, begun := some w.clock, block := w.server.store.view.marks.head? } else w.trans j }

def begin (i : Nat) : Client Unit := do
  let w ← Prog.get
  if (w.trans i).status ≠ .nascent then
    throw (.internalError "pqxx::transaction: Begin() called while not in nascent state")
  else
    tryCatch
      (do
        let _ ← Connection.getNotifs env
        doBegin env i
        setBegun i)
      fun e => do
        end_ env i
        throw e

def activate (i : Nat) : Client Unit := do
  let w ← Prog.get
  match (w.trans i).status with
  | .nascent => begin env i
  | .active => pure ()
  | .committed | .aborted | .inDoubt =>
      fault .usageError ("Attempt to activate " ++ (w.trans i).description ++ " which is already closed")

def doExec (i : Nat) (sql : Sql) : Client (List (List String)) :=
  tryCatch (directExec env i sql 0) fun e => do
    swallow (abort env i)
    throw e

-- activate() with the word on what for put before a usage_error.
def activateFor (i : Nat) (purpose : String) : Client Unit :=
  tryCatch (activate env i) fun e =>
    if e.isA .usageError then fault .usageError (purpose ++ ".  " ++ e.what) else throw e

def execSql (i : Nat) (sql : Sql) (desc : String) : Client (List (List String)) := do
  checkPendingError i
  let n := if desc = "" then "" else "'" ++ desc ++ "' "
  let w ← Prog.get
  match (w.trans i).focus with
  | some f => fault .usageError ("Attempt to execute query " ++ n ++ "on " ++ (w.trans i).description ++ " with " ++
      f.description ++ " still open")
  | none => do
      activateFor env i ("Error executing query " ++ n)
      doExec env i sql

def exec (i : Nat) (query desc : String) : Client (List (List String)) := execSql env i (.statement i query []) desc

def workCommit (i : Nat) : Client Unit :=
  tryCatch (direct env i .commit 0) fun e => do
    let w ← Prog.get
    if w.conn.isOpen = false then do
      processNotice (e.what ++ "\n")
      let msg := "WARNING: Connection lost while committing transaction '" ++ (w.trans i).name ++
        "'. There is no way to tell whether the transaction succeeded or was aborted except to check manually."
      processNotice (msg ++ "\n")
      fault .inDoubtError msg
    else throw e

def subCommit (i parent : Nat) : Client Unit := do
  let w ← Prog.get
  let ra := (w.trans i).reactivationAvoidance
  modifyTrans i fun x => { x with reactivationAvoidance := 0 }
  direct env i (.release (w.trans i).name) 0
  modifyTrans parent fun x => { x with reactivationAvoidance := x.reactivationAvoidance + ra }

-- Whether the old backend still runs the transaction, as far as anyone can tell.
def oldBackendHolds (i : Nat) : Client Bool := do
  let w ← Prog.get
  if w.conn.serverversion > 80300 then do
    let rows ← directExec env i (.txidRunning (w.trans i).xid) 0
    pure (decide (firstField rows = some "t"))
  else do
    let rows ← directExec env i (.activity (w.trans i).backendpid) 0
    pure (decide (rows ≠ []))

def waitForOldBackend (i : Nat) : Nat → Client Bool
  | 0 => pure true
  | c + 1 => do
      let hold ← oldBackendHolds env i
      if hold then waitForOldBackend i c else pure false

def checkTransactionRecord (i : Nat) : Client Bool := do
  let hold ← waitForOldBackend env i 20
  if hold then fault .inDoubtError "Old backend process stays alive too long to wait for."
  else do
    let w ← Prog.get
    let user ← Connection.username env
    let rows ← directExec env i (.findRecord (w.trans i).logTable (w.trans i).recordId user) 20
    pure (decide (rows ≠ []))

def robustInDoubt {α : Type} (i : Nat) (what : String) : Client α := do
  let w ← Prog.get
  let msg := "WARNING: Connection lost while committing transaction '" ++ (w.trans i).name ++ "' (id " ++
    toString (w.trans i).recordId ++ ", transaction_id " ++ (w.trans i).xid ++ "). Please check for this record in the '" ++
    (w.trans i).logTable ++ "' table.  If the record exists, the transaction was executed. If not, then it wasn't.\n"
  processNotice msg
  processNotice "Could not verify existence of transaction record because of the following error:\n"
  processNotice (what ++ "\n")
  fault .inDoubtError msg

-- Whether the COMMIT went through; if not, the connection is lost.
def sendCommit (i : Nat) : Client Bool :=
  tryCatch
    (do
      direct env i .commit 0
      modifyTrans i fun x => { x with recordId := 0 }
      pure true)
    fun e =>
      if e.isA .brokenConnection then pure false
      else do
        let w ← Prog.get
        if w.conn.isOpen then do
          doAbort env i
          throw e
        else pure false

def robustCommit (i : Nat) : Client Unit := do
  let w ← Prog.get
  if (w.trans i).recordId = 0 then throw (.internalError ("transaction '" ++ (w.trans i).name ++ "' has no ID"))
  else do
    tryCatch (direct env i .setConstraints 0) fun e => do
      doAbort env i
      throw e
    let through ← sendCommit env i
    if through then pure ()
    else do
      let exists_ ← tryCatch (checkTransactionRecord env i) fun f => robustInDoubt i f.what
      if exists_ then do
        doAbort env i
        fault .brokenConnection "Connection lost while committing."
      else pure ()

def doCommit (i : Nat) : Client Unit := do
  let w ← Prog.get
  match (w.trans i).kind with
  | .work => workCommit env i
  | .subtransaction parent => subCommit env i parent
  | .robust => robustCommit env i

-- commit() once it is clear that there is something to commit.
def commitActive (i : Nat) : Client Unit := do
  tryCatch
    (do
      doCommit env i
      setStatus i .committed)
    fun e => do
      setStatus i (if e.isA .inDoubtError then .inDoubt else .aborted)
      throw e
  let w ← Prog.get
  Connection.addVariables (w.trans i).vars
  end_ env i

def commit (i : Nat) : Client Unit := do
  checkPendingError i
  let w ← Prog.get
  match (w.trans i).status with
  | .nascent => pure ()
  | .aborted => fault .usageError ("Attempt to commit previously aborted " ++ (w.trans i).description)
  | .committed => processNotice ((w.trans i).description ++ " committed more than once\n")
  | .inDoubt => fault .inDoubtError ((w.trans i).description ++ " committed again while in an indeterminate state")
  | .active =>
      match (w.trans i).focus with
      | some f => fault .failure ("Attempt to commit " ++ (w.trans i).description ++ " with " ++ f.description ++ " still open")
      | none =>
          if w.conn.isOpen = false then
            fault .brokenConnection "Broken connection to backend; cannot complete transaction"
          else commitActive env i

def setVariable (i : Nat) (var value : String) : Client Unit := do
  Connection.rawSetVar env var value
  modifyTrans i fun x => { x with vars := x.vars.set var value }

def getVariable (i : Nat) (var : String) : Client String := do
  let w ← Prog.get
  match (w.trans i).vars.find var with
  | some value => pure value
  | none => Connection.rawGetVar env var

-- prepared() only: the invocation it returns is a value of its own.
def prepared (i : Nat) (statement : String) : Client Unit :=
  activateFor env i ("Error executing prepared statement " ++ statement)

def registerFocus (i : Nat) (f : Focus) : Client Unit := do
  let w ← Prog.get
  match (w.trans i).focus with
  | none => modifyTrans i fun x => { x with focus := some f }
  | some old => fault .usageError ("Started " ++ f.description ++ " while " ++ old.description ++ " still active")

def unregisterFocus (i : Nat) : Client Unit := modifyTrans i fun x => { x with focus := none }

def makeCopyString (table columns : String) : String :=
  "COPY " ++ table ++ " " ++ (if columns = "" then "" else "(" ++ columns ++ ") ")

end Transaction

-- The constructors: a subtransaction does not register with the connection, and begins
-- with its first statement.
def openWork (i : Nat) (kind : Kind) (classname name startArgs logTable : String) : Client Unit := do
  modifyTrans i fun _ => Transaction.fresh kind classname name startArgs logTable
  Connection.registerTransaction i
  modifyTrans i fun x => { x with registered := true }
  Transaction.begin env i

def openSubtransaction (i parent : Nat) (name : String) : Client Unit := do
  let name ← Connection.adornName name
  modifyTrans i fun _ => Transaction.fresh (.subtransaction parent) "subtransaction" name "" ""

-- connection_base's variables go through its transaction, if it has one.
namespace Connection

def setVariable (var value : String) : Client Unit := do
  let w ← Prog.get
  match w.conn.trans with
  | some i => Transaction.setVariable env i var value
  | none => do
      Prog.when (w.conn.isOpen = true) (rawSetVar env var value)
      modifyConn fun c => { c with vars := c.vars.set var value }

def getVariable (var : String) : Client String := do
  let w ← Prog.get
  match w.conn.trans with
  | some i => Transaction.getVariable env i var
  | none => rawGetVar env var

end Connection

-- tablewriter and tablereader, open for as long as they are their transaction's focus.
namespace TableStream

def openWriter (i : Nat) (table columns : String) : Client Unit := do
  let _ ← Transaction.execSql env i (.copy i (Transaction.makeCopyString table columns ++ "FROM STDIN")) ""
  Transaction.registerFocus i { classname := "tablewriter", name := table, done := false }

def openReader (i : Nat) (table columns : String) : Client Unit := do
  let _ ← Transaction.execSql env i (.copy i (Transaction.makeCopyString table columns ++ "TO STDOUT")) ""
  Transaction.registerFocus i { classname := "tablereader", name := table, done := false }

def writerClose (i : Nat) : Client Unit := do
  let w ← Prog.get
  if (w.trans i).focus.isSome then do
    Transaction.unregisterFocus i
    Connection.endCopyWrite env
  else pure ()

def setDone (i : Nat) : Client Unit :=
  modifyTrans i fun x => { x with focus := x.focus.map fun f => { f with done := true } }

def getRawLine (i : Nat) : Client (Option String) := do
  let w ← Prog.get
  if (w.trans i).focus.all Focus.done then pure none
  else
    tryCatch
      (do
        let line ← Connection.readCopyLine env
        Prog.when (line = none) (setDone i)
        pure line)
      fun e => do
        setDone i
        throw e

-- The lines nobody has read, of which libpq knows how many there are.
def skipLines : Nat → Client Unit
  | 0 => pure ()
  | lines + 1 => do
      let line ← Connection.readCopyLine env
      if line = none then pure () else skipLines lines

def readerClose (i : Nat) : Client Unit := do
  let w ← Prog.get
  match (w.trans i).focus with
  | none => pure ()
  | some f => do
      Transaction.unregisterFocus i
      let lines := (w.conn.handle.bind Handle.copying).elim 0 fun c => c.lines.length
      Prog.when (f.done = false) (tryCatch (skipLines env (lines + 1)) fun e =>
        if e.isA .brokenConnection then throw e else Transaction.registerPendingError i e.what)

-- The destructors keep their exceptions for the transaction to report.
def destroyWriter (i : Nat) : Client Unit := tryCatch (writerClose env i) fun e => Transaction.registerPendingError i e.what

def destroyReader (i : Nat) : Client Unit := tryCatch (readerClose env i) fun e => Transaction.registerPendingError i e.what

end TableStream

end

end Pqxx
