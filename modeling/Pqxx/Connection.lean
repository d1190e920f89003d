import Pqxx.World

set_option autoImplicit false

namespace Pqxx

open Lib

def Handle.fresh (version protocol backendpid : Nat) : Handle :=
  { status := .ok, version, protocol, backendpid, unread := [], active := false, copying := none, notifies := [] }

-- The connection breaks: libpq finds it bad, and its session is over.
def World.lose (w : World) : World := { w with
  server := w.server.newSession
  conn := { w.conn with handle := w.conn.handle.map fun h => { h with status := .bad, unread := [], active := false, copying := none } } }

-- process_notice: the handlers get every message with a newline at its end.
def processNotice (msg : String) : Client Unit :=
  Prog.modify fun w =>
    if msg = "" then w
    else { w with notices := w.notices ++ [if msg.toList.getLast? = some '\n' then msg else msg ++ "\n"] }

section

variable (env : Outside)

-- PQerrorMessage.
def errMsg : Client String := do
  let w ← Prog.get
  pure (if w.conn.handle.isSome then env.errorMessage w.clock else "No connection to database")

def brokenConnection {α : Type} : Client α := fault .brokenConnection "Connection to database failed"

-- libpq sends a request, and drops what is left of an earlier exchange.
def World.ask (w : World) (batch : List Sql) (active : Bool) : World := { w with
  clock := w.clock + 1
  sent := w.sent ++ batch.map fun sql => { sql, guarded := w.guarded sql }
  conn := { w.conn with handle := w.conn.handle.map fun h => { h with unread := [], active, copying := none } } }

def World.serve (w : World) (server : Server) : World := { w with server }

-- A COPY that is accepted puts the connection in a state of its own.
def Answer.copying (lines : List String) : Answer → Sql → Option Copying
  | .rows _, .copy i text => some { trans := i, text, lines }
  | _, _ => none

-- PQexec and the like. Where there is no result, null is what comes back.
def pqExec (sql : Sql) : Client (Option Answer) := do
  let w ← Prog.get
  if w.conn.handle.any (fun h => h.status = .ok) then do
    let served := w.server.serve env w.clock 0 sql
    Prog.modify fun w => w.ask [sql] false
    match env.fate w.clock with
    | .answered => do
        Prog.modify fun w => w.serve served.2
        modifyHandle fun h => { h with copying := served.1.copying (env.copyLines w.clock) sql }
        pure (some served.1)
    | .lostBefore => do
        Prog.modify World.lose
        pure none
    | .lostAfter => do
        Prog.modify fun w => (w.serve served.2).lose
        pure none
    | .nullBefore => pure none
    | .nullAfter => do
        Prog.modify fun w => w.serve served.2
        pure none
  else pure none

-- PQsendQuery of several statements, which fails during an earlier exchange.
def pqSendQuery (batch : List Sql) : Client Bool := do
  let w ← Prog.get
  if w.conn.handle.any (fun h => h.status = .ok && !h.active) then do
    let served := w.server.serveBatch env w.clock batch
    Prog.modify fun w => w.ask batch true
    match env.fate w.clock with
    | .answered | .nullAfter => do
        Prog.modify fun w => w.serve served.2
        modifyHandle fun h => { h with unread := served.1 }
        pure true
    | .lostBefore => do
        Prog.modify World.lose
        pure false
    | .lostAfter => do
        Prog.modify fun w => (w.serve served.2).lose
        pure true
    | .nullBefore => do
        modifyHandle fun h => { h with active := false }
        pure false
  else pure false

-- PQgetResult: a connection that breaks meanwhile gives an error, then null.
def pqGetResult : Client (Option Answer) := do
  let w ← Prog.get
  match w.conn.handle with
  | none => pure none
  | some h =>
      if h.status = .ok ∧ h.active = true then do
        let t ← tick
        if env.drops t then do
          Prog.modify World.lose
          pure (some (.failed { state := "", message := env.errorMessage t }))
        else
          match h.unread with
          | [] => do
              modifyHandle fun h => { h with active := false }
              pure none
          | r :: rest => do
              modifyHandle fun h => { h with unread := rest }
              pure (some r)
      else pure none

-- PQconsumeInput, which picks up what notifications have come in.
def consumeConn : Client Bool := do
  let t ← tick
  match env.consumes t with
  | .fine => do
      modifyHandle fun h => { h with notifies := h.notifies ++ env.arrives t }
      pure true
  | .trouble => pure false
  | .lost => do
      Prog.modify World.lose
      pure false

-- PQfinish.
def pqFinish : Client Unit := Prog.modify fun w => { w with
  conn := { w.conn with handle := none }
  server := if w.conn.handle.isSome then w.server.newSession else w.server }

-- PQconnectdb or PQreset: a new session, or none.
def pqConnect : Client Bool := do
  let t ← tick
  match env.greets t with
  | some (version, protocol) => do
      Prog.modify fun w => { w with
        conn := { w.conn with handle := some (Handle.fresh version protocol t) }, server := w.server.newSession }
      pure true
  | none => pure false

namespace Connection

def normalconnect : Client Unit := do
  let w ← Prog.get
  if w.conn.handle.isSome then pure ()
  else do
    let connected ← pqConnect env
    if connected then pure ()
    else do
      let w ← Prog.get
      fault .brokenConnection (env.errorMessage w.clock)

-- do_dropconnect() gives up an attempt to connect, which the new status or the end of
-- the handle does here.
def doDisconnect : Client Unit := pqFinish

-- PQconnectStart.
def startAsync : Client Unit := do
  let w ← Prog.get
  if w.conn.handle.isSome then pure ()
  else do
    let t ← tick
    if env.drops t then fault .brokenConnection (env.errorMessage t)
    else modifyConn fun c => { c with handle := some { Handle.fresh 0 0 0 with status := .started } }

def doStartconnect : Client Unit := do
  let w ← Prog.get
  match w.conn.policy with
  | .direct => normalconnect env
  | .async => startAsync env
  | .lazy | .null => pure ()

-- PQconnectPoll until it says that the connection is made, or has failed.
def pollAsync : Client Unit := do
  let connected ← pqConnect env
  if connected then pure ()
  else do
    modifyHandle fun h => { h with status := .bad }
    let w ← Prog.get
    fault .brokenConnection (env.errorMessage w.clock)

def doCompleteconnect : Client Unit := do
  let w ← Prog.get
  match w.conn.policy with
  | .lazy => normalconnect env
  | .async => do
      Prog.when (w.conn.handle = none) (startAsync env)
      let w ← Prog.get
      if w.conn.handle.any (fun h => h.status = .started) then pollAsync env else pure ()
  | .direct | .null => pure ()

def disconnect : Client Unit := doDisconnect

def setCompleted (completed : Bool) : Client Unit := modifyConn fun c => { c with completed }

def readCapabilities : Client Unit := do
  let w ← Prog.get
  match w.conn.handle with
  | none => brokenConnection
  | some h => do
      modifyConn fun c => { c with serverversion := h.version }
      if h.version ≤ 90000 then fault .featureNotSupported "Unsupported server version; 9.0 is the minimum."
      else if h.protocol = 0 then brokenConnection
      else if h.protocol ≤ 2 then
        fault .featureNotSupported "Unsupported frontend/backend protocol version; 3.0 is the minimum."
      else pure ()

-- One LISTEN for each channel of the receivers, which are ordered by channel.
def listenAll (last : String) : List (String × Nat) → List Sql
  | [] => []
  | (channel, _) :: rest =>
      if channel ≠ last then .listen channel :: listenAll channel rest else listenAll last rest

def restoreQuery (c : Connection) : List Sql :=
  listenAll "" c.receivers ++ c.vars.entries.map fun e => .setVar e.1 e.2

-- The loop over the results of the batch. Each turn takes one, or the null at the end.
def drain (makeResult : Option Answer → Client (Option Answer)) : Nat → Client Unit
  | 0 => pure ()
  | turns + 1 => do
      let r ← pqGetResult env
      let r ← makeResult r
      if r.isSome then drain makeResult turns else pure ()

def restore (makeResult : Option Answer → Client (Option Answer)) : Client Unit := do
  let w ← Prog.get
  if w.conn.receivers ≠ [] ∨ w.conn.vars.entries ≠ [] then do
    let _ ← pqSendQuery env (restoreQuery w.conn)
    let w ← Prog.get
    drain env makeResult ((w.conn.handle.elim 0 fun h => h.unread.length) + 2)
  else pure ()

-- SetupState() is entered again through make_result(), which asks for the encoding and
-- so activates the connection.
def setupStateWith (makeResult : Option Answer → Client (Option Answer)) : Client Unit := do
  let w ← Prog.get
  match w.conn.handle with
  | none => throw (.internalError "SetupState() on no connection")
  | some h =>
      if h.status ≠ .ok then do
        let msg ← errMsg env
        doDisconnect
        fault .failure msg
      else do
        readCapabilities
        modifyConn fun c => { c with prepared := c.prepared.mapValues fun _ p => { p with registered := false } }
        restore env makeResult
        setCompleted true
        let w ← Prog.get
        if w.conn.isOpen then pure () else brokenConnection

def connect (setupState : Client Unit) : Client Unit := do
  doStartconnect env
  doCompleteconnect env
  setCompleted true
  let w ← Prog.get
  if w.conn.isOpen then setupState else brokenConnection

def activateWith (setupState : Client Unit) : Client Unit := do
  let w ← Prog.get
  if w.conn.isOpen then pure ()
  else if w.conn.inhibitReactivation then
    fault .brokenConnection "Could not reactivate connection; reactivation is inhibited"
  else if w.conn.reactivationAvoidance ≠ 0 then pure ()
  else
    tryCatch (connect env setupState) fun e =>
      if e.isA .brokenConnection then do
        disconnect
        setCompleted false
        fault .brokenConnection e.what
      else do
        setCompleted false
        throw e

-- How deep the two may call each other. At the third level activate() finds the
-- connection open, or broken for good, and does not enter SetupState() again.
def setupLevel : Nat → Client Unit
  | 0 => pure ()
  | level + 1 => setupStateWith env fun r => do
      activateWith env (setupLevel level)
      pure r

def setupState : Client Unit := setupLevel env 2

def activate : Client Unit := activateWith env (setupState env)

def makeResult (r : Option Answer) : Client (Option Answer) := do
  activate env
  pure r

def reset : Client Unit := do
  let w ← Prog.get
  if w.conn.inhibitReactivation then fault .brokenConnection "Could not reset connection: reactivation is inhibited"
  else if w.conn.reactivationAvoidance ≠ 0 then pure ()
  else do
    setCompleted false
    let w ← Prog.get
    if w.conn.handle.isSome then do
      let connected ← pqConnect env
      Prog.when (connected = false) (Prog.modify World.lose)
      setupState env
    else activate env

-- ThrowSQLError, its subclasses of sql_error taken together; too_many_connections is a
-- broken_connection.
def errorKind (state : String) : ExnKind :=
  if state.toList.take 2 = ['0', '8'] then .brokenConnection
  else if state.toList.take 2 = ['0', 'A'] then .featureNotSupported
  else if state = "53300" then .brokenConnection
  else .sqlError

def throwSqlError {α : Type} (error : SqlError) (query : String) : Client α :=
  throw { kind := errorKind error.state, what := error.text, query := if errorKind error.state = .brokenConnection then "" else query }

def checkResult (r : Option Answer) (query : String) : Client (List (List String)) := do
  let w ← Prog.get
  if w.conn.isOpen = false then brokenConnection
  else
    match r with
    | none => do
        let msg ← errMsg env
        fault .failure msg
    | some (.failed error) => throwSqlError error query
    | some (.rows rows) => pure rows

-- One call of a receiver, whose exceptions go no further.
def deliver (n : Notify) (receiver : String × Nat) : Client Unit := do
  let t ← tick
  Prog.modify fun w => { w with delivered := w.delivered ++ [(receiver.2, n)] }
  match env.receiverThrows t with
  | none => pure ()
  | some what => processNotice ("Exception in notification receiver '" ++ receiver.1 ++ "': " ++ what ++ "\n")

def deliverAll (n : Notify) : List (String × Nat) → Client Unit
  | [] => pure ()
  | receiver :: rest => do
      Prog.when (receiver.1 = n.channel) (deliver env n receiver)
      deliverAll n rest

def notifyAll : List Notify → Client Unit
  | [] => pure ()
  | n :: rest => do
      modifyHandle fun h => { h with notifies := rest }
      let w ← Prog.get
      deliverAll env n w.conn.receivers
      notifyAll rest

def getNotifs : Client Nat := do
  let w ← Prog.get
  if w.conn.isOpen = false then pure 0
  else do
    let consumed ← consumeConn env
    if consumed = false then brokenConnection
    else do
      let w ← Prog.get
      if w.conn.trans.isSome then pure 0
      else do
        let queue := w.conn.handle.elim [] fun h => h.notifies
        notifyAll env queue
        pure queue.length

def retry (sql : Sql) : Nat → Option Answer → Client (Option Answer)
  | 0, r => pure r
  | retries + 1, r => do
      let w ← Prog.get
      if r = none ∧ w.conn.isOpen = false then do
        reset env
        let w ← Prog.get
        if w.conn.isOpen then do
          let r ← pqExec env sql
          let r ← makeResult env r
          retry sql retries r
        else retry sql retries r
      else pure r

def exec (sql : Sql) (retries : Nat) : Client (List (List String)) := do
  activate env
  let r ← pqExec env sql
  let r ← makeResult env r
  let r ← retry env sql retries r
  let rows ← checkResult env r sql.text
  let _ ← getNotifs env
  pure rows

def rawSetVar (var value : String) : Client Unit := do
  let _ ← exec env (.setVar var value) 0
  pure ()

def addVariables (vars : OrdMap String String) : Client Unit :=
  modifyConn fun c => { c with vars := vars.entries.foldl (fun m e => m.set e.1 e.2) c.vars }

def rawGetVar (var : String) : Client String := do
  let w ← Prog.get
  match w.conn.vars.find var with
  | some value => pure value
  | none => do
      let rows ← exec env (.showVar var) 0
      match rows with
      | (value :: _) :: _ => pure value
      | [] :: _ => fault .rangeError "Invalid field number"
      | [] => fault .rangeError "Row number out of range"

-- m_Trans.Register and its check that there is no other transaction.
def registerTransaction (i : Nat) : Client Unit := do
  let w ← Prog.get
  match w.conn.trans with
  | none => modifyConn fun c => { c with trans := some i }
  | some old =>
      if old = i then fault .usageError ("Started twice: " ++ (w.trans i).description)
      else fault .usageError ("Started " ++ (w.trans i).description ++ " while " ++ (w.trans old).description ++ " still active")

def unregisterTransaction (i : Nat) : Client Unit := do
  let w ← Prog.get
  match w.conn.trans with
  | none => processNotice ("Closed while not open: " ++ (w.trans i).description)
  | some old =>
      if old = i then modifyConn fun c => { c with trans := none }
      else processNotice ("Closed " ++ (w.trans i).description ++ "; expected to close " ++ (w.trans old).description)

def findPrepared (statement : String) : Client PreparedDef := do
  let w ← Prog.get
  match w.conn.prepared.find statement with
  | none => fault .argumentError ("Unknown prepared statement '" ++ statement ++ "'")
  | some definition => pure definition

def prepare (name definition : String) : Client Unit := do
  let w ← Prog.get
  match w.conn.prepared.find name with
  | none => modifyConn fun c => { c with prepared := c.prepared.set name { definition, registered := false } }
  | some old =>
      if definition = old.definition then pure ()
      else if name ≠ "" then fault .argumentError ("Inconsistent redefinition of prepared statement " ++ name)
      else modifyConn fun c => { c with prepared := c.prepared.set name { definition, registered := false } }

def unprepare (name : String) : Client Unit := do
  let w ← Prog.get
  match w.conn.prepared.find name with
  | none => pure ()
  | some old => do
      Prog.when (old.registered = true) do
        let _ ← exec env (.deallocate name) 0
        pure ()
      modifyConn fun c => { c with prepared := c.prepared.erase name }

-- PQprotocolVersion gives 0 for a connection that is bad.
def protocolVersion (c : Connection) : Nat := c.handle.elim 0 fun h => if h.status = .ok then h.protocol else 0

def registerPrepared (name : String) : Client Unit := do
  activate env
  let w ← Prog.get
  if protocolVersion w.conn < 3 then
    fault .featureNotSupported "Prepared statements in libpqxx require a newer server version."
  else do
    let s ← findPrepared name
    if s.registered then pure ()
    else do
      let r ← pqExec env (.prepare name s.definition)
      let r ← makeResult env r
      let _ ← checkResult env r ("[PREPARE " ++ name ++ "]")
      modifyConn fun c => { c with prepared := c.prepared.set name { s with registered := decide (name ≠ "") } }

def preparedExec (i : Nat) (statement : String) (args : List (Option String)) : Client (List (List String)) := do
  registerPrepared env statement
  activate env
  let r ← pqExec env (.execute i statement args)
  let r ← makeResult env r
  let rows ← checkResult env r statement
  let _ ← getNotifs env
  pure rows

def parameterizedExec (i : Nat) (query : String) (args : List (Option String)) : Client (List (List String)) := do
  let r ← pqExec env (.statement i query args)
  let r ← makeResult env r
  let rows ← checkResult env r query
  let _ ← getNotifs env
  pure rows

def addReceiver (channel : String) (receiver : Nat) : Client Unit := do
  let w ← Prog.get
  if w.conn.receivers.any fun r => r.1 = channel then
    modifyConn fun c => { c with receivers := insertReceiver channel receiver c.receivers }
  else do
    Prog.when (w.conn.isOpen = true) (tryCatch
      (do
        let r ← pqExec env (.listen channel)
        let r ← makeResult env r
        let _ ← checkResult env r (Sql.listen channel).text
        pure ())
      fun e => if e.isA .brokenConnection then pure () else throw e)
    modifyConn fun c => { c with receivers := insertReceiver channel receiver c.receivers }

def removeReceiver (channel : String) (receiver : Nat) : Client Unit :=
  tryCatch
    (do
      let w ← Prog.get
      if (channel, receiver) ∈ w.conn.receivers then do
        let gone := w.conn.handle.isSome && decide ((w.conn.receivers.filter fun r => r.1 = channel).length = 1)
        modifyConn fun c => { c with receivers := c.receivers.erase (channel, receiver) }
        Prog.when (gone = true) do
          let _ ← exec env (.unlisten channel) 0
          pure ()
      else processNotice ("Attempt to remove unknown receiver '" ++ channel ++ "'"))
    fun e => processNotice e.what

def deactivate : Client Unit := do
  let w ← Prog.get
  match w.conn.handle, w.conn.trans with
  | none, _ => pure ()
  | some _, some i =>
      fault .usageError ("Attempt to deactivate connection while " ++ (w.trans i).description ++ " still open")
  | some _, none =>
      if w.conn.reactivationAvoidance ≠ 0 then
        processNotice "Attempt to deactivate connection while it is in a state that cannot be fully recovered later (ignoring)"
      else do
        setCompleted false
        doDisconnect

def simulateFailure : Client Unit := do
  let w ← Prog.get
  Prog.when (w.conn.handle.isSome = true) do
    doDisconnect
    modifyConn fun c => { c with inhibitReactivation := true }

def adornName (n : String) : Client String := do
  modifyConn fun c => { c with uniqueId := c.uniqueId + 1 }
  let w ← Prog.get
  pure (if n = "" then "x" ++ toString w.conn.uniqueId else n ++ "_" ++ toString w.conn.uniqueId)

-- PQputCopyData, and PQendcopy where that fails on a connection that lives on: the data
-- has ended then, as far as the backend is concerned.
def pqPutCopyData : Client Bool := do
  let w ← Prog.get
  match w.conn.handle.bind Handle.copying with
  | none => pure false
  | some copying => do
      let t ← tick
      match env.fate t with
      | .answered => pure true
      | .lostBefore | .lostAfter => do
          Prog.modify World.lose
          pure false
      | .nullBefore | .nullAfter => do
          Prog.modify fun w => w.serve (w.server.serve env t 0 (.copyEnd copying.trans copying.text)).2
          modifyHandle fun h => { h with copying := none }
          pure false

def writeCopyLine : Client Unit := do
  let w ← Prog.get
  if w.conn.isOpen = false then throw (.internalError "WriteCopyLine() without connection")
  else do
    let put ← pqPutCopyData env
    if put then pure ()
    else do
      let msg ← errMsg env
      fault .failure ("Error writing to table: " ++ msg)

-- PQputCopyEnd, PQgetResult and the check of the result.
def endCopy (copying : Copying) : Client Unit := do
  let r ← pqExec env (.copyEnd copying.trans copying.text)
  let r ← makeResult env r
  let _ ← checkResult env r "[END COPY]"
  pure ()

def endCopyWrite : Client Unit := do
  let w ← Prog.get
  match w.conn.handle.bind Handle.copying with
  | none => do
      let msg ← errMsg env
      fault .failure ("Write to table failed: " ++ msg)
  | some copying => endCopy env copying

def pqGetCopyData (copying : Copying) : Client (Option String) := do
  let t ← tick
  if env.drops t then do
    Prog.modify World.lose
    let msg ← errMsg env
    fault .failure ("Reading of table data failed: " ++ msg)
  else
    match copying.lines with
    | [] => pure none
    | line :: rest => do
        modifyHandle fun h => { h with copying := some { copying with lines := rest } }
        pure (some line)

-- A line of data, or none at the end, where the backend says whether all went well.
def readCopyLine : Client (Option String) := do
  let w ← Prog.get
  if w.conn.isOpen = false then throw (.internalError "ReadCopyLine() without connection")
  else
    match w.conn.handle.bind Handle.copying with
    | none => do
        let msg ← errMsg env
        fault .failure ("Reading of table data failed: " ++ msg)
    | some copying => do
        let line ← pqGetCopyData env copying
        Prog.when (line = none) (endCopy env copying)
        pure line

-- username(), which only wants a connection object.
def username : Client String := do
  let w ← Prog.get
  Prog.when (w.conn.handle = none) (activate env)
  pure env.user

end Connection

end

end Pqxx
