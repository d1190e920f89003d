import Mathlib.Data.Nat.Basic
import Pqxx.Except
import Pqxx.Lib.OrdMap
import Pqxx.Lib.Prog

set_option autoImplicit false

namespace Pqxx

open Lib

def theSeparator : String := "; "
def theDummyValue : String := "1"
def theDummyQuery : String := "SELECT " ++ theDummyValue ++ theSeparator

-- numeric_limits<query_id>::max(); query_id is long.
def qidLimit : Nat := 9223372036854775807

-- What a PGresult says: the rows of a query that succeeded, or the message of one
-- that failed with an SQL error.
inductive Outcome where
  | rows (rows : List (List String))
  | failed (message : String)
deriving DecidableEq, Repr

structure Result where
  outcome : Outcome
  query : String
deriving DecidableEq, Repr

def Result.rows (r : Result) : List (List String) :=
  match r.outcome with
  | .rows rows => rows
  | .failed _ => []

def Result.checkStatus (r : Result) : Except Exn Unit :=
  match r.outcome with
  | .rows _ => .ok ()
  | .failed message => .error { kind := .sqlError, what := message, query := r.query }

-- m_query and m_res; none is the result object that no PGresult was put into.
structure Query where
  query : String
  res : Option Result
deriving DecidableEq, Repr

-- result::empty()
def Query.isEmpty (q : Query) : Bool := q.res.all fun r => r.rows.isEmpty

structure Batch where
  dummy : Bool
  queries : List (Nat × String)
deriving DecidableEq, Repr

-- The string start_exec sends: the queries through separated_list, behind the dummy.
def Batch.text (b : Batch) : String :=
  (if b.dummy then theDummyQuery else "") ++ theSeparator.intercalate (b.queries.map Prod.snd)

-- The backend and libpq, asked once for each thing they decide. A whole batch may be
-- refused with a syntax error before any of its statements runs; the number counts the
-- statements executed so far. answer is none where libpq gets no result at all.
structure Backend where
  rejects : Nat → List String → Option String
  answer : Nat → String → Option Outcome
  consumeInput : Nat → Bool
  isBusy : Nat → Bool
  cancels : Nat → Bool

-- The pipeline's members, then libpq's side of the connection, then the record of
-- what was inserted, sent and executed, which no function reads back except to count
-- the statements. An iterator into m_queries is the key it points at; none is end().
structure PipelineState where
  queries : OrdMap Nat Query
  first : Option Nat
  second : Option Nat
  retain : Int
  numWaiting : Int
  qId : Nat
  dummyPending : Bool
  error : Nat
  registered : Bool
  -- results PQgetResult has yet to return, before the null that ends the exchange
  unread : List Outcome
  active : Bool
  clock : Nat
  inserted : List String
  sent : List Batch
  executed : List (Nat × Option Outcome)

-- Either a C++ exception, or an iterator dereferenced that points at nothing.
inductive Stop where
  | thrown (e : Exn)
  | endDereferenced
deriving DecidableEq, Repr

abbrev Pipe : Type → Type := Prog PipelineState Stop

def PipelineState.start : PipelineState :=
  { queries := OrdMap.empty, first := none, second := none, retain := 0, numWaiting := 0, qId := 0, dummyPending := false
    error := qidLimit, registered := true, unread := [], active := false, clock := 0, inserted := [], sent := [], executed := [] }

def PipelineState.havePending (s : PipelineState) : Bool := decide (s.second ≠ s.first)

def PipelineState.setErrorAt (s : PipelineState) (qid : Nat) : PipelineState :=
  if qid < s.error then { s with error := qid } else s

-- internal::distance over the queries from one iterator to the other.
def PipelineState.distance (s : PipelineState) (here there : Option Nat) : Nat :=
  (s.queries.entries.filter fun e => here.any (· ≤ e.1) && there.all (e.1 < ·)).length

-- The loop that gives every query of a failed batch the batch's own result.
def PipelineState.setResults (s : PipelineState) (res : Result) : PipelineState :=
  { s with queries := s.queries.mapValues fun k q =>
      if (s.first.any (· ≤ k) && s.second.all (k < ·)) = true then { q with res := some res } else q }

-- The queries from an iterator on, as separated_list visits them.
def PipelineState.queriesFrom (s : PipelineState) (oldest : Option Nat) : List (Nat × String) :=
  (s.queries.entries.filter fun e => oldest.any (· ≤ e.1)).map fun e => (e.1, e.2.query)

section

variable (env : Backend)

def raise {α : Type} (kind : ExnKind) (what : String) : Pipe α := throw (.thrown { kind, what })

def ofExcept {α : Type} : Except Exn α → Pipe α
  | .ok a => pure a
  | .error e => throw (.thrown e)

def deref (it : Option Nat) : Pipe (Nat × Query) := do
  let queries ← Prog.gets PipelineState.queries
  match it.bind fun id => (queries.find id).map (id, ·) with
  | some entry => pure entry
  | none => throw .endDereferenced

def increment (it : Option Nat) : Pipe (Option Nat) := do
  let entry ← deref it
  Prog.gets fun s => s.queries.next entry.1

def setResult (id : Nat) (res : Result) : Pipe Unit :=
  Prog.modify fun s => { s with queries := s.queries.mapValues fun k q => if k = id then { q with res := some res } else q }

def setErrorAt (qid : Nat) : Pipe Unit := Prog.modify fun s => s.setErrorAt qid

def internalError {α : Type} (err : String) : Pipe α := do
  setErrorAt 0
  throw (.thrown (.internalError err))

def consumeInput : Pipe Bool := do
  let t ← Prog.gets PipelineState.clock
  Prog.modify fun s => { s with clock := t + 1 }
  pure (env.consumeInput t)

def isBusy : Pipe Bool := do
  let t ← Prog.gets PipelineState.clock
  Prog.modify fun s => { s with clock := t + 1 }
  pure (env.isBusy t)

def cancelQuery : Pipe Unit := do
  let t ← Prog.gets PipelineState.clock
  Prog.modify fun s => { s with clock := t + 1 }
  if env.cancels t then pure () else raise .sqlError ""

-- PQgetResult: the null that ends an exchange leaves libpq idle.
def getResult : Pipe (Option Outcome) := fun s =>
  match s.unread with
  | [] => (.ok none, { s with active := false })
  | r :: rest => (.ok (some r), { s with unread := rest })

-- The statements of one query string, up to the first that does not succeed.
def runQueries : Nat → List (Nat × String) → List Outcome × List (Nat × Option Outcome)
  | _, [] => ([], [])
  | n, (id, query) :: rest =>
      match env.answer n query with
      | some (.rows rows) =>
          let more := runQueries (n + 1) rest
          (.rows rows :: more.1, (id, some (.rows rows)) :: more.2)
      | some (.failed message) => ([.failed message], [(id, some (.failed message))])
      | none => ([], [(id, none)])

def runBatch (n : Nat) (b : Batch) : List Outcome × List (Nat × Option Outcome) :=
  if b.dummy then
    match env.rejects n (b.queries.map Prod.snd) with
    | some message => ([.failed message], [])
    | none => (.rows [[theDummyValue]] :: (runQueries env n b.queries).1, (runQueries env n b.queries).2)
  else runQueries env n b.queries

-- start_exec; PQsendQuery refuses while an exchange is still going on.
def startExec (b : Batch) : Pipe Unit := do
  let s ← Prog.get
  if s.active then raise .failure "another command is already in progress\n"
  else Prog.modify fun s => { s with
    unread := (runBatch env s.executed.length b).1, active := true, sent := s.sent ++ [b]
    executed := s.executed ++ (runBatch env s.executed.length b).2 }

-- m_Trans.exec of one query of a failed batch. PQexec discards what is left of an
-- earlier exchange.
def transExec (id : Nat) (query : String) : Pipe Result := do
  let n ← Prog.gets fun s => s.executed.length
  Prog.modify fun s => { s with unread := [], active := false, executed := s.executed ++ [(id, env.answer n query)] }
  match env.answer n query with
  | some (.rows rows) => pure { outcome := .rows rows, query }
  | some (.failed message) => throw (.thrown { kind := .sqlError, what := message, query })
  | none => raise .failure ""

def attach : Pipe Unit := Prog.modify fun s => { s with registered := true }

def detach : Pipe Unit := Prog.modify fun s => { s with registered := false }

def generateId : Pipe Nat := do
  let qId ← Prog.gets PipelineState.qId
  if qId = qidLimit then raise .overflowError "Too many queries went through pipeline"
  else do
    Prog.modify fun s => { s with qId := qId + 1 }
    pure (qId + 1)

-- The branch of obtain_result() for the null result.
def noResult (expectNone : Bool) : Pipe Bool := do
  let s ← Prog.get
  if s.havePending ∧ expectNone = false then do
    let pending ← deref s.first
    setErrorAt pending.1
    Prog.modify fun s => { s with second := s.first }
    pure false
  else pure false

def gotResult (outcome : Outcome) : Pipe Bool := do
  let s ← Prog.get
  let oldest ← deref s.queries.begin
  if s.havePending = false then do
    setErrorAt oldest.1
    raise .logicError "Got more results from pipeline than there were queries"
  else do
    let pending ← deref s.first
    if pending.2.isEmpty = false then internalError "multiple results for one query"
    else do
      setResult pending.1 { outcome, query := oldest.2.query }
      let next ← increment s.first
      Prog.modify fun s => { s with first := next }
      pure true

def obtainResult (expectNone : Bool) : Pipe Bool := do
  let r ← getResult
  match r with
  | none => noResult expectNone
  | some outcome => gotResult outcome

-- The do loop that issues the queries of a failed batch one at a time. Each turn moves
-- m_issuedrange.first on, so the map has as many entries as there can be turns.
def replay (stop : Option Nat) : Nat → Pipe Unit
  | 0 => pure ()
  | turns + 1 => do
      Prog.modify fun s => { s with numWaiting := s.numWaiting - 1 }
      let here ← Prog.gets PipelineState.first
      let pending ← deref here
      let res ← transExec env pending.1 pending.2.query
      setResult pending.1 res
      ofExcept res.checkStatus
      let next ← increment here
      Prog.modify fun s => { s with first := next }
      if next ≠ stop then replay stop turns else pure ()

-- The handler around that loop, which blames the query it stopped at.
def blame : Pipe Unit := do
  let here ← Prog.gets PipelineState.first
  let thud ← deref here
  let next ← increment here
  Prog.modify fun s => { s with first := next, second := next }
  match next with
  | none => setErrorAt (thud.1 + 1)
  | some q => setErrorAt q

def replayBatch (message : String) : Pipe Unit := do
  let refused : Result := { outcome := .failed message, query := "[DUMMY PIPELINE QUERY]" }
  let stop ← Prog.gets PipelineState.second
  Prog.modify fun s => s.setResults refused
  let _ ← obtainResult true
  Prog.modify fun s => { s with numWaiting := s.numWaiting + s.distance s.first stop, second := s.first, registered := false }
  let turns ← Prog.gets fun s => s.queries.entries.length
  tryCatch (replay env stop turns) fun
    | .endDereferenced => throw .endDereferenced
    | .thrown _ => blame

def obtainDummy : Pipe Unit := do
  let r ← getResult
  Prog.modify fun s => { s with dummyPending := false }
  match r with
  | none => internalError "pipeline got no result from backend when it expected one"
  | some (.failed message) => replayBatch env message
  | some (.rows rows) =>
      if rows.length > 1 then internalError "unexpected result for dummy query in pipeline"
      else
        match rows with
        | [] => raise .rangeError "Row number out of range"
        | [] :: _ => raise .rangeError "Invalid field number"
        | (value :: _) :: _ =>
            if value ≠ theDummyValue then internalError "dummy query in pipeline returned unexpected value" else pure ()

def issue : Pipe Unit := do
  let _ ← obtainResult false
  let s ← Prog.get
  if s.error < qidLimit then pure ()
  else do
    let oldest := s.second
    let batch := s.queriesFrom oldest
    let prependDummy := decide (batch.length > 1)
    startExec env { dummy := prependDummy, queries := batch }
    Prog.modify fun s => { s with
      dummyPending := prependDummy, first := oldest, second := none, numWaiting := s.numWaiting - batch.length }

-- Both loops below stop at the null result at the latest, so one turn more than there
-- are results is enough.
def getFurther : Nat → Pipe Unit
  | 0 => pure ()
  | turns + 1 => do
      let busy ← isBusy env
      if busy then pure ()
      else do
        let got ← obtainResult false
        if got then do
          let consumed ← consumeInput env
          if consumed then getFurther turns else raise .brokenConnection "Connection to database failed"
        else pure ()

def getFurtherAvailableResults : Pipe Unit := do
  let results ← Prog.gets fun s => s.unread.length
  getFurther env (results + 1)

def receiveIfAvailable : Pipe Unit := do
  let consumed ← consumeInput env
  if consumed = false then raise .brokenConnection "Connection to database failed"
  else do
    let busy ← isBusy env
    if busy then pure ()
    else do
      let s ← Prog.get
      Prog.when s.dummyPending (obtainDummy env)
      let s ← Prog.get
      if s.havePending then getFurtherAvailableResults env else pure ()

def receiveUntil (stop : Option Nat) : Nat → Pipe Unit
  | 0 => pure ()
  | turns + 1 => do
      let got ← obtainResult false
      let first ← Prog.gets PipelineState.first
      if got ∧ first ≠ stop then receiveUntil stop turns else pure ()

def receive (stop : Option Nat) : Pipe Unit := do
  let s ← Prog.get
  Prog.when s.dummyPending (obtainDummy env)
  let results ← Prog.gets fun s => s.unread.length
  receiveUntil stop (results + 1)
  let first ← Prog.gets PipelineState.first
  if first = stop then getFurtherAvailableResults env else pure ()

-- insert() as far as the query is in the map and counted.
def enqueue (query : String) : Pipe Nat := do
  attach
  let qid ← generateId
  Prog.modify fun s => { s with queries := s.queries.insert qid { query, res := none }, inserted := s.inserted ++ [query] }
  Prog.modify fun s => if s.second = none then
    { s with second := some qid, first := if s.first = none then some qid else s.first } else s
  Prog.modify fun s => { s with numWaiting := s.numWaiting + 1 }
  pure qid

def insert (query : String) : Pipe Nat := do
  let qid ← enqueue query
  let s ← Prog.get
  if s.numWaiting > s.retain then do
    Prog.when s.havePending (receiveIfAvailable env)
    let s ← Prog.get
    Prog.when (s.havePending = false) (issue env)
    pure qid
  else pure qid

-- What complete() does with the queries not issued yet.
def issueRest : Pipe Unit := do
  issue env
  receive env none

def complete : Pipe Unit := do
  let s ← Prog.get
  Prog.when s.havePending (receive env s.second)
  let s ← Prog.get
  Prog.when (s.numWaiting ≠ 0 ∧ s.error = qidLimit) (issueRest env)
  detach

def forget : Pipe Unit := do
  let s ← Prog.get
  Prog.when s.havePending (receive env s.second)
  Prog.modify fun s => { s with first := none, second := none, numWaiting := 0, dummyPending := false, queries := OrdMap.empty }

def flush : Pipe Unit := do
  let s ← Prog.get
  Prog.when (s.queries.entries ≠ []) (forget env)
  detach

def cancelPending : Nat → Pipe Unit
  | 0 => pure ()
  | turns + 1 => do
      let s ← Prog.get
      if s.havePending then do
        cancelQuery env
        let canceled ← deref s.first
        let next ← increment s.first
        Prog.modify fun s => { s with first := next, queries := s.queries.erase canceled.1 }
        cancelPending turns
      else pure ()

-- cancel() removes one query a turn.
def cancel : Pipe Unit := do
  let turns ← Prog.gets fun s => s.queries.entries.length
  cancelPending env (turns + 1)

def isFinished (q : Nat) : Pipe Bool := do
  let s ← Prog.get
  match s.queries.find q with
  | none => raise .logicError ("Requested status for unknown query " ++ toString q)
  | some _ =>
      if s.first = none then pure true
      else do
        let pending ← deref s.first
        pure (decide (q < pending.1 ∧ q < s.error))

def resume : Pipe Unit := do
  let s ← Prog.get
  Prog.when s.havePending (receiveIfAvailable env)
  let s ← Prog.get
  if s.havePending = false ∧ s.numWaiting ≠ 0 then do
    issue env
    receiveIfAvailable env
  else pure ()

def retain (retainMax : Int) : Pipe Int := do
  if retainMax < 0 then raise .rangeError ("Attempt to make pipeline retain " ++ toString retainMax ++ " queries")
  else do
    let oldvalue ← Prog.gets PipelineState.retain
    Prog.modify fun s => { s with retain := retainMax }
    let s ← Prog.get
    Prog.when (s.numWaiting ≥ s.retain) (resume env)
    pure oldvalue

def earlierError {α : Type} : Pipe α := raise .runtimeError "Could not complete query in pipeline due to error in earlier query"

-- retrieve's test whether the query has yet to be issued.
def notIssued (q : Nat) : Pipe Bool := do
  let s ← Prog.get
  if s.second = none then pure false
  else do
    let waiting ← deref s.second
    pure (decide (q ≥ waiting.1))

-- retrieve's first step, for a query that has not been issued.
def issueFor (q : Nat) : Pipe Unit := do
  let waiting ← notIssued q
  if waiting then do
    let s ← Prog.get
    Prog.when s.havePending (receive env s.second)
    let s ← Prog.get
    Prog.when (s.error = qidLimit) (issue env)
  else pure ()

-- Its second: get the result if it is not in, else whatever is convenient.
def receiveFor (q : Nat) : Pipe Unit := do
  let s ← Prog.get
  if s.havePending then do
    let pending ← deref s.first
    if q ≥ pending.1 then do
      let suc ← increment (some q)
      receive env suc
    else receiveIfAvailable env
  else pure ()

def takeResult (q : Nat) : Pipe (Nat × Result) := do
  let entry ← deref (some q)
  Prog.modify fun s => { s with queries := s.queries.erase q }
  match entry.2.res with
  | none => raise .failure "No result set given"
  | some res => do
      ofExcept res.checkStatus
      pure (q, res)

-- The iterator overload of retrieve().
def retrieveAt (it : Option Nat) : Pipe (Nat × Result) :=
  match it with
  | none => raise .logicError "Attempt to retrieve result for unknown query"
  | some q => do
      let s ← Prog.get
      if q ≥ s.error then earlierError
      else do
        issueFor env q
        receiveFor env q
        let s ← Prog.get
        if q ≥ s.error then earlierError
        else do
          Prog.when (s.numWaiting ≠ 0 ∧ s.havePending = false ∧ s.error = qidLimit) (issue env)
          takeResult q

def retrieve (q : Nat) : Pipe Result := do
  let s ← Prog.get
  let got ← retrieveAt env ((s.queries.find q).map fun _ => q)
  pure got.2

def retrieveOldest : Pipe (Nat × Result) := do
  let s ← Prog.get
  match s.queries.begin with
  | none => raise .logicError "Attempt to retrieve result from empty pipeline"
  | some q => retrieveAt env (some q)

end

end Pqxx
