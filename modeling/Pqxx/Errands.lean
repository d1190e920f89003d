import Pqxx.ClientRun
import Pqxx.ConnectionSteps
import Pqxx.TransactionUpkeep

set_option autoImplicit false

namespace Pqxx

open Lib Prog

-- A statement that neither opens a block nor brings one back to life.
def Sql.ordinary : Sql → Prop
  | .begin _ => False
  | .rollbackTo _ => False
  | _ => True

structure Station where
  status : Status
  registered : Bool
  kind : Kind

def Transaction.standing (x : Transaction) : Station := { status := x.status, registered := x.registered, kind := x.kind }

-- A change of members other than those that say who uses the connection and who is told of
-- notifications, whether it is open and whether it may be made anew.
structure Beside (c c' : Connection) : Prop where
  trans : c'.trans = c.trans
  uniqueId : c'.uniqueId = c.uniqueId
  handle : c'.handle = c.handle
  completed : c'.completed = c.completed
  reactivationAvoidance : c'.reactivationAvoidance = c.reactivationAvoidance
  receivers : c'.receivers = c.receivers

def Enlists (R : World → World → Prop) (f : List (String × Nat) → List (String × Nat)) : Prop :=
  Keeps R (modifyConn fun c => { c with receivers := f c.receivers })

-- A relation that holds across all that is done for a client short of beginning and ending
-- transactions, with the calls that may make or lose the connection taken as they are.
structure Errands (env : Outside) (R : World → World → Prop) : Prop extends Framing R where
  activates : Keeps R (Connection.activate env)
  deactivates : Keeps R Connection.deactivate
  resets : Keeps R (Connection.reset env)
  finishes : Keeps R pqFinish
  requests : ∀ sql : Sql, sql.ordinary → Keeps R (pqExec env sql)
  notifs : Keeps R (Connection.getNotifs env)
  puts : Keeps R (Connection.pqPutCopyData env)
  gives : ∀ copying, Keeps R (Connection.pqGetCopyData env copying)
  notices : ∀ msg, Keeps R (processNotice msg)
  members : ∀ f : Connection → Connection, (∀ c, Beside c (f c)) → Keeps R (modifyConn f)
  turns : ∀ i (f : Transaction → Transaction), (∀ x : Transaction, (f x).standing = x.standing) →
    (∀ x : Transaction, (f x).reactivationAvoidance = x.reactivationAvoidance) → Keeps R (modifyTrans i f)

theorem Steps.errands {env : Outside} {R : World → World → Prop} (steps : Steps env R) (notifs : Keeps R (Connection.getNotifs env))
    (members : ∀ f : Connection → Connection, (∀ c, Beside c (f c)) → Keeps R (modifyConn f))
    (turns : ∀ i (f : Transaction → Transaction), (∀ x : Transaction, (f x).standing = x.standing) →
      (∀ x : Transaction, (f x).reactivationAvoidance = x.reactivationAvoidance) → Keeps R (modifyTrans i f)) : Errands env R where
  toFraming := steps.toFraming
  activates := Connection.activate_steps steps
  deactivates := Connection.deactivate_steps steps
  resets := Connection.reset_steps steps
  finishes := steps.finishes
  requests sql _ := pq_exec_steps steps sql
  notifs := notifs
  puts := Connection.pq_put_copy_data_steps steps
  gives := Connection.pq_get_copy_data_steps steps
  notices := steps.notices
  members := members
  turns := turns

section

variable {env : Outside} {R : World → World → Prop} (errands : Errands env R) {i : Nat}

include errands

theorem dropped_errand {α : Type} {m : Client α} (keeps : Keeps R m) : Keeps R (do let _ ← m; pure () : Client Unit) :=
  keeps_bind errands.toFraming keeps fun _ => keeps_pure errands.toFraming _

namespace Connection

theorem make_result_errand (r : Option Answer) : Keeps R (makeResult env r) :=
  keeps_bind errands.toFraming errands.activates fun _ => keeps_pure errands.toFraming _

theorem check_result_errand (r : Option Answer) (query : String) : Keeps R (checkResult env r query) := by
  have framing := errands.toFraming
  apply keeps_get
  intro w
  apply keeps_ite
  · exact keeps_throw framing _
  · rcases r with _ | rows | error
    · exact keeps_get fun v => framing.same
    · exact keeps_pure framing _
    · exact keeps_throw framing _

-- A request, the check of its result, and what comes then.
theorem request_errand {α : Type} (sql : Sql) (ordinary : sql.ordinary) (text : String) {rest : List (List String) → Client α}
    (each : ∀ rows, Keeps R (rest rows)) :
    Keeps R (do
      let r ← pqExec env sql
      let r ← makeResult env r
      let rows ← checkResult env r text
      rest rows) := by
  have framing := errands.toFraming
  apply keeps_bind framing (errands.requests sql ordinary)
  intro r
  apply keeps_bind framing (make_result_errand errands r)
  intro r
  exact keeps_bind framing (check_result_errand errands r text) each

theorem notifs_errand (rows : List (List String)) : Keeps R (do let _ ← getNotifs env; pure rows : Client (List (List String))) :=
  keeps_bind errands.toFraming errands.notifs fun _ => keeps_pure errands.toFraming _

theorem retry_errand {sql : Sql} (requests : Keeps R (pqExec env sql)) (retries : Nat) (r : Option Answer) : Keeps R (retry env sql retries r) := by
  have framing := errands.toFraming
  induction retries generalizing r with
  | zero => exact keeps_pure framing _
  | succ retries ih =>
      apply keeps_get
      intro w
      apply keeps_ite
      · apply keeps_bind framing errands.resets
        intro _
        apply keeps_get
        intro v
        apply keeps_ite
        · apply keeps_bind framing requests
          intro r
          exact keeps_bind framing (make_result_errand errands r) ih
        · exact ih r
      · exact keeps_pure framing _

theorem exec_requested {sql : Sql} (requests : Keeps R (pqExec env sql)) (retries : Nat) : Keeps R (exec env sql retries) := by
  have framing := errands.toFraming
  apply keeps_bind framing errands.activates
  intro _
  apply keeps_bind framing requests
  intro r
  apply keeps_bind framing (make_result_errand errands r)
  intro r
  apply keeps_bind framing (retry_errand errands requests retries r)
  intro r
  exact keeps_bind framing (check_result_errand errands r sql.text) (notifs_errand errands)

theorem exec_errand (sql : Sql) (ordinary : sql.ordinary) (retries : Nat) : Keeps R (exec env sql retries) :=
  exec_requested errands (errands.requests sql ordinary) retries

theorem exec_unit_errand (sql : Sql) (ordinary : sql.ordinary) (retries : Nat) : Keeps R (do let _ ← exec env sql retries; pure () : Client Unit) :=
  dropped_errand errands (exec_errand errands sql ordinary retries)

theorem username_errand : Keeps R (username env) := by
  have framing := errands.toFraming
  apply keeps_get
  intro w
  exact keeps_bind framing (keeps_when framing _ errands.activates) fun _ => keeps_pure framing _

theorem raw_get_var_errand (var : String) : Keeps R (rawGetVar env var) := by
  have framing := errands.toFraming
  apply keeps_get
  intro w
  cases w.conn.vars.find var with
  | some value => exact keeps_pure framing _
  | none =>
      apply keeps_bind framing (exec_errand errands _ (by trivial) 0)
      intro rows
      rcases rows with _ | ⟨_ | ⟨value, _⟩, _⟩
      · exact keeps_throw framing _
      · exact keeps_throw framing _
      · exact keeps_pure framing _

theorem prepare_errand (name definition : String) : Keeps R (prepare name definition) := by
  have framing := errands.toFraming
  apply keeps_get
  intro w
  cases w.conn.prepared.find name with
  | none => exact errands.members _ fun _ => ⟨rfl, rfl, rfl, rfl, rfl, rfl⟩
  | some old =>
      apply keeps_ite
      · exact keeps_pure framing _
      · exact keeps_ite _ (keeps_throw framing _) (errands.members _ fun _ => ⟨rfl, rfl, rfl, rfl, rfl, rfl⟩)

theorem unprepare_errand (name : String) : Keeps R (unprepare env name) := by
  have framing := errands.toFraming
  apply keeps_get
  intro w
  cases w.conn.prepared.find name with
  | none => exact keeps_pure framing _
  | some old =>
      apply keeps_bind framing (keeps_when framing _ (exec_unit_errand errands _ (by trivial) 0))
      exact fun _ => errands.members _ fun _ => ⟨rfl, rfl, rfl, rfl, rfl, rfl⟩

theorem register_prepared_errand (name : String) : Keeps R (registerPrepared env name) := by
  have framing := errands.toFraming
  have finds : Keeps R (findPrepared name) := by
    apply keeps_get
    intro w
    cases w.conn.prepared.find name with
    | none => exact keeps_throw framing _
    | some s => exact keeps_pure framing _
  apply keeps_bind framing errands.activates
  intro _
  apply keeps_get
  intro w
  apply keeps_ite
  · exact keeps_throw framing _
  · apply keeps_bind framing finds
    intro s
    apply keeps_ite
    · exact keeps_pure framing _
    · exact request_errand errands _ (by trivial) _ fun _ => errands.members _ fun _ => ⟨rfl, rfl, rfl, rfl, rfl, rfl⟩

theorem parameterized_exec_errand (query : String) (args : List (Option String)) : Keeps R (parameterizedExec env i query args) :=
  request_errand errands _ (by trivial) _ (notifs_errand errands)

theorem prepared_exec_errand (statement : String) (args : List (Option String)) : Keeps R (preparedExec env i statement args) := by
  have framing := errands.toFraming
  apply keeps_bind framing (register_prepared_errand errands statement)
  intro _
  exact keeps_bind framing errands.activates fun _ => request_errand errands _ (by trivial) _ (notifs_errand errands)

theorem end_copy_errand (copying : Copying) : Keeps R (endCopy env copying) :=
  request_errand errands _ (by trivial) _ fun _ => keeps_pure errands.toFraming _

theorem write_copy_line_errand : Keeps R (writeCopyLine env) := by
  have framing := errands.toFraming
  apply keeps_get
  intro w
  apply keeps_ite
  · exact keeps_throw framing _
  · apply keeps_bind framing errands.puts
    intro put
    exact keeps_ite _ (keeps_pure framing _) (keeps_get fun v => framing.same)

theorem end_copy_write_errand : Keeps R (endCopyWrite env) := by
  apply keeps_get
  intro w
  cases w.conn.handle.bind Handle.copying with
  | none => exact keeps_get fun v => errands.same
  | some copying => exact end_copy_errand errands copying

theorem read_copy_line_errand : Keeps R (readCopyLine env) := by
  have framing := errands.toFraming
  apply keeps_get
  intro w
  apply keeps_ite
  · exact keeps_throw framing _
  · cases w.conn.handle.bind Handle.copying with
    | none => exact keeps_get fun v => framing.same
    | some copying =>
        apply keeps_bind framing (errands.gives copying)
        intro line
        exact keeps_bind framing (keeps_when framing _ (end_copy_errand errands copying)) fun _ => keeps_pure framing _

theorem add_receiver_errand {channel : String} {receiver : Nat} (enlists : Enlists R (insertReceiver channel receiver)) :
    Keeps R (addReceiver env channel receiver) := by
  have framing := errands.toFraming
  apply keeps_get
  intro w
  apply keeps_ite
  · exact enlists
  · refine keeps_bind framing (keeps_when framing _ ?_) fun _ => enlists
    apply keeps_try_catch framing
    · exact request_errand errands _ (by trivial) _ fun _ => keeps_pure framing _
    · exact fun e => keeps_ite _ (keeps_pure framing _) (keeps_throw framing _)

theorem remove_receiver_errand {channel : String} {receiver : Nat} (enlists : Enlists R fun receivers => receivers.erase (channel, receiver)) :
    Keeps R (removeReceiver env channel receiver) := by
  have framing := errands.toFraming
  apply keeps_try_catch framing
  · apply keeps_get
    intro w
    apply keeps_ite
    · apply keeps_bind framing enlists
      exact fun _ => keeps_when framing _ (exec_unit_errand errands _ (by trivial) 0)
    · exact errands.notices _
  · exact fun e => errands.notices _

theorem simulate_failure_errand : Keeps R simulateFailure := by
  have framing := errands.toFraming
  apply keeps_get
  intro w
  apply keeps_when framing
  exact keeps_bind framing errands.finishes fun _ => errands.members _ fun _ => ⟨rfl, rfl, rfl, rfl, rfl, rfl⟩

end Connection

namespace Transaction

theorem check_pending_errand : Keeps R (checkPendingError i) := by
  have framing := errands.toFraming
  apply keeps_get
  intro w
  apply keeps_ite
  · exact keeps_bind framing (errands.turns i _ (fun _ => rfl) fun _ => rfl) fun _ => keeps_throw framing _
  · exact keeps_pure framing _

theorem direct_exec_errand (sql : Sql) (ordinary : sql.ordinary) (retries : Nat) : Keeps R (directExec env i sql retries) :=
  keeps_bind errands.toFraming (check_pending_errand errands) fun _ => Connection.exec_errand errands sql ordinary retries

theorem noticing_errand {m : Client Unit} (keeps : Keeps R m) : Keeps R (noticing m) :=
  keeps_try_catch errands.toFraming keeps fun _ => errands.notices _

theorem note_focus_errand (x : Transaction) : Keeps R (noteFocus x) := by
  unfold noteFocus
  cases x.focus with
  | none => exact keeps_pure errands.toFraming _
  | some f => exact errands.notices _

theorem set_variable_errand (var value : String) : Keeps R (setVariable env i var value) :=
  keeps_bind errands.toFraming (Connection.exec_unit_errand errands _ (by trivial) 0) fun _ => errands.turns i _ (fun _ => rfl) fun _ => rfl

theorem get_variable_errand (var : String) : Keeps R (getVariable env i var) := by
  apply keeps_get
  intro w
  cases (w.trans i).vars.find var with
  | some value => exact keeps_pure errands.toFraming _
  | none => exact Connection.raw_get_var_errand errands var

theorem register_focus_errand (f : Focus) : Keeps R (registerFocus i f) := by
  apply keeps_get
  intro w
  cases (w.trans i).focus with
  | none => exact errands.turns i _ (fun _ => rfl) fun _ => rfl
  | some old => exact keeps_throw errands.toFraming _

theorem pending_error_errand (err : String) : Keeps R (registerPendingError i err) := by
  apply errands.turns
  · intro x
    split
    · rfl
    · rfl
  · intro x
    split
    · rfl
    · rfl

end Transaction

namespace TableStream

theorem writer_close_errand : Keeps R (writerClose env i) := by
  have framing := errands.toFraming
  apply keeps_get
  intro w
  apply keeps_ite
  · exact keeps_bind framing (errands.turns i _ (fun _ => rfl) fun _ => rfl) fun _ => Connection.end_copy_write_errand errands
  · exact keeps_pure framing _

theorem get_raw_line_errand : Keeps R (getRawLine env i) := by
  have framing := errands.toFraming
  have done : Keeps R (setDone i) := errands.turns i _ (fun _ => rfl) fun _ => rfl
  apply keeps_get
  intro w
  apply keeps_ite
  · exact keeps_pure framing _
  · apply keeps_try_catch framing
    · apply keeps_bind framing (Connection.read_copy_line_errand errands)
      exact fun line => keeps_bind framing (keeps_when framing _ done) fun _ => keeps_pure framing _
    · exact fun e => keeps_bind framing done fun _ => keeps_throw framing e

theorem reader_close_errand : Keeps R (readerClose env i) := by
  have framing := errands.toFraming
  have skips (lines : Nat) : Keeps R (skipLines env lines) := by
    induction lines with
    | zero => exact keeps_pure framing _
    | succ lines ih =>
        exact keeps_bind framing (Connection.read_copy_line_errand errands) fun line => keeps_ite _ (keeps_pure framing _) ih
  apply keeps_get
  intro w
  cases (w.trans i).focus with
  | none => exact keeps_pure framing _
  | some f =>
      refine keeps_bind framing (errands.turns i _ (fun _ => rfl) fun _ => rfl) fun _ => keeps_when framing _ ?_
      apply keeps_try_catch framing (skips _)
      exact fun e => keeps_ite _ (keeps_throw framing _) (Transaction.pending_error_errand errands _)

end TableStream

theorem conn_set_variable_errand (var value : String) : Keeps R (Connection.setVariable env var value) := by
  have framing := errands.toFraming
  apply keeps_get
  intro w
  cases w.conn.trans with
  | some i => exact Transaction.set_variable_errand errands var value
  | none =>
      apply keeps_bind framing (keeps_when framing _ (Connection.exec_unit_errand errands _ (by trivial) 0))
      exact fun _ => errands.members _ fun _ => ⟨rfl, rfl, rfl, rfl, rfl, rfl⟩

theorem conn_get_variable_errand (var : String) : Keeps R (Connection.getVariable env var) := by
  apply keeps_get
  intro w
  cases w.conn.trans with
  | some i => exact Transaction.get_variable_errand errands var
  | none => exact Connection.raw_get_var_errand errands var

end

-- The operations on a transaction that may begin or end it.
def WorkOp.decisive : WorkOp → Bool
  | .exec _ _ => true
  | .prepared _ => true
  | .openWriter _ _ => true
  | .openReader _ _ => true
  | .commit => true
  | .abort => true
  | .end_ => true
  | _ => false

-- And those on a connection that concern a transaction.
def ClientOp.transactional : ClientOp → Bool
  | .openWork _ _ _ _ _ _ => true
  | .openSubtransaction _ _ _ => true
  | .work _ _ => true
  | _ => false

-- A relation that holds across what the operation does to the receivers.
def ClientOp.Enrols (R : World → World → Prop) : ClientOp → Prop
  | .addReceiver channel receiver => Enlists R (insertReceiver channel receiver)
  | .removeReceiver channel receiver => Enlists R fun receivers => receivers.erase (channel, receiver)
  | _ => True

section

variable {env : Outside} {R : World → World → Prop} (errands : Errands env R) {i : Nat}

include errands

theorem work_errand (op : WorkOp) (idle : op.decisive = false) : Keeps R (op.perform env i) := by
  have reports (e : Exn) : Keeps R (Transaction.registerPendingError i e.what) := Transaction.pending_error_errand errands _
  cases op with
  | exec query desc => exact absurd idle.symm Bool.false_ne_true
  | prepared statement => exact absurd idle.symm Bool.false_ne_true
  | preparedExec statement args => exact dropped_errand errands (Connection.prepared_exec_errand errands statement args)
  | parameterizedExec query args => exact dropped_errand errands (Connection.parameterized_exec_errand errands query args)
  | setVariable var value => exact Transaction.set_variable_errand errands var value
  | getVariable var => exact dropped_errand errands (Transaction.get_variable_errand errands var)
  | fetch query => exact dropped_errand errands (Connection.exec_errand errands _ (by trivial) 0)
  | openWriter table columns => exact absurd idle.symm Bool.false_ne_true
  | writeLine => exact Connection.write_copy_line_errand errands
  | closeWriter => exact TableStream.writer_close_errand errands
  | destroyWriter => exact keeps_try_catch errands.toFraming (TableStream.writer_close_errand errands) reports
  | openReader table columns => exact absurd idle.symm Bool.false_ne_true
  | getLine => exact dropped_errand errands (TableStream.get_raw_line_errand errands)
  | closeReader => exact TableStream.reader_close_errand errands
  | destroyReader => exact keeps_try_catch errands.toFraming (TableStream.reader_close_errand errands) reports
  | prepare name definition => exact Connection.prepare_errand errands name definition
  | unprepare name => exact Connection.unprepare_errand errands name
  | getNotifs => exact dropped_errand errands errands.notifs
  | disconnect => exact errands.finishes
  | commit => exact absurd idle.symm Bool.false_ne_true
  | abort => exact absurd idle.symm Bool.false_ne_true
  | end_ => exact absurd idle.symm Bool.false_ne_true

omit errands in
theorem enrols_any (enlists : ∀ f, Enlists R f) (op : ClientOp) : op.Enrols R := by
  cases op with
  | addReceiver channel receiver => exact enlists (insertReceiver channel receiver)
  | removeReceiver channel receiver => exact enlists fun receivers => receivers.erase (channel, receiver)
  | _ => trivial

theorem client_errand (op : ClientOp) (idle : op.transactional = false) (enrols : op.Enrols R) :
    Keeps R (op.perform env) := by
  cases op with
  | openWork i kind classname name startArgs logTable => exact absurd idle.symm Bool.false_ne_true
  | openSubtransaction i parent name => exact absurd idle.symm Bool.false_ne_true
  | work i op => exact absurd idle.symm Bool.false_ne_true
  | setVariable var value => exact conn_set_variable_errand errands var value
  | getVariable var => exact dropped_errand errands (conn_get_variable_errand errands var)
  | addReceiver channel receiver => exact Connection.add_receiver_errand errands enrols
  | removeReceiver channel receiver => exact Connection.remove_receiver_errand errands enrols
  | activate => exact errands.activates
  | deactivate => exact errands.deactivates
  | reset => exact errands.resets
  | simulateFailure => exact Connection.simulate_failure_errand errands

end

theorem stable_errands {env : Outside} : Errands env Stable where
  toFraming := stable_framing
  activates := Connection.activate_keeps stable_upkeep
  deactivates := deactivate_keeps (@stable_upkeep env)
  resets := Connection.reset_keeps stable_upkeep
  finishes := pq_finish_keeps (@stable_upkeep env)
  requests sql _ := pq_exec_keeps stable_upkeep (stable_request sql)
  notifs := Connection.get_notifs_keeps stable_upkeep
  puts := Connection.pq_put_copy_data_keeps stable_ledger
  gives copying := by
    apply keeps_bind stable_framing (tick_keeps (@stable_upkeep env))
    intro t
    apply keeps_ite
    · apply keeps_bind stable_framing (lose_keeps (@stable_upkeep env))
      exact fun _ => keeps_get fun w => stable_framing.same
    · cases copying.lines with
      | nil => exact keeps_pure stable_framing _
      | cons line rest => exact keeps_bind stable_framing (modify_handle_keeps (@stable_upkeep env) _) fun _ => keeps_pure stable_framing _
  notices := (@stable_lifetime env).notices
  members f beside := members_keep (@stable_ledger env) f fun c => (beside c).reactivationAvoidance
  turns i f _ count := stable_turn i f fun x zero => (count x).trans zero

end Pqxx
