import Pqxx.Errands

set_option autoImplicit false

namespace Pqxx

open Lib Prog

-- A relation that holds across errands and across all that a transaction sends, with what is
-- put aside or handed on taken as it is.
structure Services (env : Outside) (R : World → World → Prop) : Prop extends Errands env R where
  execs : ∀ (sql : Sql) (retries : Nat), Keeps R (Connection.exec env sql retries)
  clears : ∀ i, Keeps R (modifyTrans i fun x => { x with reactivationAvoidance := 0 })
  deletes : ∀ i (w : World), w.conn.isOpen = true → R w (Transaction.deleteTransactionRecord env i w).2
  hands : ∀ i parent, Keeps R (Transaction.subCommit env i parent)

section

variable {env : Outside} {R : World → World → Prop} (services : Services env R) {i : Nat}

include services

namespace Transaction

theorem direct_exec_service (sql : Sql) (retries : Nat) : Keeps R (directExec env i sql retries) :=
  keeps_bind services.toFraming (check_pending_errand services.toErrands) fun _ => services.execs sql retries

theorem direct_service (sql : Sql) (retries : Nat) : Keeps R (direct env i sql retries) :=
  keeps_bind services.toFraming (direct_exec_service services sql retries) fun _ => keeps_pure services.toFraming _

theorem swallow_service {m : Client Unit} (keeps : Keeps R m) : Keeps R (swallow m) :=
  keeps_try_catch services.toFraming keeps fun _ => keeps_pure services.toFraming _

theorem db_begin_service : Keeps R (dbBegin env i) := keeps_get fun _ => direct_service services _ _

theorem db_abort_service : Keeps R (dbAbort env i) :=
  keeps_bind services.toFraming (services.clears i) fun _ => direct_service services _ _

theorem create_log_table_service : Keeps R (createLogTable env i) := by
  have framing := services.toFraming
  apply keeps_get
  intro w
  apply keeps_bind framing (keeps_try_catch framing (direct_service services _ _) fun _ => services.notices _)
  exact fun _ => keeps_try_catch framing (direct_service services _ _) fun _ => services.notices _

theorem set_record_id_service (field : Option String) : Keeps R (setRecordId i field) := by
  unfold setRecordId
  rcases field.map toId with _ | _ | id
  · exact keeps_pure services.toFraming _
  · exact keeps_throw services.toFraming _
  · exact services.turns i _ (fun _ => rfl) fun _ => rfl

theorem create_transaction_record_service : Keeps R (createTransactionRecord env i) := by
  have framing := services.toFraming
  apply keeps_get
  intro w
  apply keeps_bind framing (direct_service services _ _)
  intro _
  apply keeps_bind framing (direct_exec_service services _ _)
  intro rows
  apply keeps_bind framing (set_record_id_service services _)
  intro _
  apply keeps_get
  intro v
  exact keeps_bind framing (Connection.username_errand services.toErrands) fun user => direct_service services _ _

theorem robust_begin_service : Keeps R (robustBegin env i) := by
  have framing := services.toFraming
  apply keeps_bind framing
  · apply keeps_try_catch framing (create_transaction_record_service services)
    intro _
    apply keeps_bind framing (swallow_service services (db_abort_service services))
    intro _
    apply keeps_bind framing (create_log_table_service services)
    intro _
    apply keeps_bind framing (db_begin_service services)
    intro _
    apply keeps_get
    intro w
    exact keeps_bind framing (services.turns i _ (fun _ => rfl) fun _ => rfl) fun _ => create_transaction_record_service services
  · intro _
    apply keeps_bind framing (db_begin_service services)
    intro _
    apply keeps_get
    intro w
    apply keeps_bind framing (direct_service services _ _)
    intro _
    apply keeps_get
    intro v
    apply keeps_when framing
    exact keeps_bind framing (direct_exec_service services _ _) fun rows => services.turns i _ (fun _ => rfl) fun _ => rfl

theorem do_begin_service : Keeps R (doBegin env i) := by
  apply keeps_get
  intro w
  cases (w.trans i).kind with
  | work => exact db_begin_service services
  | subtransaction parent => exact direct_service services _ _
  | robust => exact robust_begin_service services

-- The record is deleted once ROLLBACK has been answered, on a connection that is open.
theorem do_abort_service : Keeps R (doAbort env i) := by
  intro w
  rw [doAbort, bind_apply, get_apply]
  dsimp only
  cases (w.trans i).kind with
  | work => exact db_abort_service services w
  | subtransaction parent => exact direct_service services _ _ w
  | robust =>
      apply bind_after services.toFraming _ fun _ u isOpen => services.deletes i u isOpen
      exact wp_mono (wp_and (wp_keeps (db_abort_service services)) db_abort_open) (fun _ _ => id) fun _ _ kept => kept.1

theorem work_commit_service : Keeps R (workCommit env i) := by
  have framing := services.toFraming
  apply keeps_try_catch framing (direct_service services _ _)
  intro e
  apply keeps_get
  intro w
  apply keeps_ite
  · apply keeps_bind framing (services.notices _)
    exact fun _ => keeps_bind framing (services.notices _) fun _ => keeps_throw framing _
  · exact keeps_throw framing e

theorem check_record_service : Keeps R (checkTransactionRecord env i) := by
  have framing := services.toFraming
  have holds : Keeps R (oldBackendHolds env i) := by
    apply keeps_get
    intro w
    apply keeps_ite
    · exact keeps_bind framing (direct_exec_service services _ _) fun _ => keeps_pure framing _
    · exact keeps_bind framing (direct_exec_service services _ _) fun _ => keeps_pure framing _
  have waits (turns : Nat) : Keeps R (waitForOldBackend env i turns) := by
    induction turns with
    | zero => exact keeps_pure framing _
    | succ turns ih => exact keeps_bind framing holds fun hold => keeps_ite _ ih (keeps_pure framing _)
  apply keeps_bind framing (waits 20)
  intro hold
  apply keeps_ite
  · exact keeps_throw framing _
  · apply keeps_get
    intro w
    apply keeps_bind framing (Connection.username_errand services.toErrands)
    exact fun user => keeps_bind framing (direct_exec_service services _ _) fun _ => keeps_pure framing _

theorem robust_commit_service : Keeps R (robustCommit env i) := by
  have framing := services.toFraming
  have aborts {α : Type} (e : Exn) : Keeps R (do doAbort env i; throw e : Client α) :=
    keeps_bind framing (do_abort_service services) fun _ => keeps_throw framing e
  have doubts (what : String) : Keeps R (robustInDoubt i what : Client Bool) := by
    apply keeps_get
    intro w
    apply keeps_bind framing (services.notices _)
    intro _
    apply keeps_bind framing (services.notices _)
    exact fun _ => keeps_bind framing (services.notices _) fun _ => keeps_throw framing _
  have sends : Keeps R (sendCommit env i) := by
    apply keeps_try_catch framing
    · apply keeps_bind framing (direct_service services _ _)
      exact fun _ => keeps_bind framing (services.turns i _ (fun _ => rfl) fun _ => rfl) fun _ => keeps_pure framing _
    · intro e
      apply keeps_ite
      · exact keeps_pure framing _
      · apply keeps_get
        intro w
        exact keeps_ite _ (aborts e) (keeps_pure framing _)
  apply keeps_get
  intro w
  apply keeps_ite
  · exact keeps_throw framing _
  · apply keeps_bind framing (keeps_try_catch framing (direct_service services _ _) aborts)
    intro _
    apply keeps_bind framing sends
    intro through
    apply keeps_ite
    · exact keeps_pure framing _
    · apply keeps_bind framing (keeps_try_catch framing (check_record_service services) fun f => doubts _)
      exact fun exists_ => keeps_ite _ (aborts _) (keeps_pure framing _)

theorem do_commit_service : Keeps R (doCommit env i) := by
  apply keeps_get
  intro w
  cases (w.trans i).kind with
  | work => exact work_commit_service services
  | subtransaction parent => exact services.hands i parent
  | robust => exact robust_commit_service services

end Transaction

end

-- One that takes no heed of the counts.
structure Heedless (env : Outside) (R : World → World → Prop) : Prop extends Errands env R where
  sends : ∀ sql, Keeps R (pqExec env sql)
  counts : ∀ f : Int → Int, Keeps R (modifyConn fun c => { c with reactivationAvoidance := f c.reactivationAvoidance })
  tallies : ∀ i (f : Int → Int), Keeps R (modifyTrans i fun x => { x with reactivationAvoidance := f x.reactivationAvoidance })

section

variable {env : Outside} {R : World → World → Prop} (heedless : Heedless env R) {i : Nat}

include heedless

theorem exempt_heedless {work : Client Unit} (works : Keeps R work) : Keeps R (exempt work) := by
  have framing := heedless.toFraming
  have leaves (before : World) (count : Int) : Keeps R (do
      Prog.when (count ≠ 0 ∧ before.conn.isOpen = false) Connection.deactivate
      modifyConn fun c => { c with reactivationAvoidance := c.reactivationAvoidance + count } : Client Unit) := by
    apply keeps_bind framing (keeps_when framing _ heedless.deactivates)
    exact fun _ => heedless.counts fun c => c + count
  apply keeps_get
  intro before
  apply keeps_bind framing (heedless.counts fun _ => 0)
  intro _
  apply keeps_bind framing
  · apply keeps_try_catch framing works
    exact fun e => keeps_bind framing (leaves before _) fun _ => keeps_throw framing e
  · exact fun _ => leaves before _

theorem direct_heedless (sql : Sql) (retries : Nat) : Keeps R (Transaction.direct env i sql retries) := by
  have framing := heedless.toFraming
  apply dropped_errand heedless.toErrands
  apply keeps_bind framing (Transaction.check_pending_errand heedless.toErrands)
  exact fun _ => Connection.exec_requested heedless.toErrands (heedless.sends sql) retries

theorem delete_record_heedless : Keeps R (Transaction.deleteTransactionRecord env i) := by
  have framing := heedless.toFraming
  apply keeps_get
  intro w
  apply keeps_ite
  · exact keeps_pure framing _
  · apply keeps_bind framing
    · apply keeps_try_catch framing _ fun _ => keeps_pure framing _
      apply exempt_heedless heedless
      exact keeps_bind framing (direct_heedless heedless _ 20) fun _ => heedless.turns i _ (fun _ => rfl) fun _ => rfl
    · exact fun _ => keeps_get fun v => keeps_when framing _ (heedless.notices _)

theorem Heedless.services : Services env R where
  toErrands := heedless.toErrands
  execs sql retries := Connection.exec_requested heedless.toErrands (heedless.sends sql) retries
  clears i := heedless.tallies i fun _ => 0
  deletes _ w _ := delete_record_heedless heedless w
  hands i parent := by
    have framing := heedless.toFraming
    apply keeps_get
    intro w
    apply keeps_bind framing (heedless.tallies i fun _ => 0)
    intro _
    apply keeps_bind framing (direct_heedless heedless _ 0)
    exact fun _ => heedless.tallies parent fun x => x + (w.trans i).reactivationAvoidance

end

-- One that holds whatever becomes of a transaction, but for its registration.
structure Dealings (env : Outside) (R : World → World → Prop) : Prop extends Services env R where
  settles : ∀ i status, Keeps R (Transaction.setStatus i status)
  strikes : ∀ i, Keeps R (modifyTrans i fun x => { x with registered := false })
  resigns : ∀ i, Keeps R (Connection.unregisterTransaction i)
  yields : ∀ i, Keeps R (do
    let w ← Prog.get
    modifyConn fun c => { c with reactivationAvoidance := c.reactivationAvoidance + (w.trans i).reactivationAvoidance }
    modifyTrans i fun x => { x with reactivationAvoidance := 0 } : Client Unit)
  begins : ∀ i, Keeps R (Transaction.setBegun i)

section

variable {env : Outside} {R : World → World → Prop} (dealings : Dealings env R) {i : Nat}

include dealings

namespace Transaction

theorem end_closed_dealing : Keeps R (endClosed i) := by
  have framing := dealings.toFraming
  have errands := dealings.toErrands
  apply keeps_bind framing (noticing_errand errands (check_pending_errand errands))
  intro _
  apply keeps_get
  intro w
  apply keeps_when framing
  exact keeps_bind framing (dealings.strikes i) fun _ => dealings.resigns i

theorem abort_dealing : Keeps R (abort env i) := by
  have framing := dealings.toFraming
  have services := dealings.toServices
  have closes : Keeps R (do setStatus i .aborted; endClosed i : Client Unit) :=
    keeps_bind framing (dealings.settles i _) fun _ => end_closed_dealing dealings
  apply keeps_get
  intro w
  cases (w.trans i).status with
  | nascent => exact closes
  | active => exact keeps_bind framing (swallow_service services (do_abort_service services)) fun _ => closes
  | aborted => exact keeps_pure framing _
  | committed => exact keeps_throw framing _
  | inDoubt => exact dealings.notices _

theorem end_dealing : Keeps R (end_ env i) := by
  have framing := dealings.toFraming
  have errands := dealings.toErrands
  apply noticing_errand errands
  apply keeps_bind framing (end_closed_dealing dealings)
  intro _
  apply keeps_get
  intro w
  apply keeps_ite
  · apply keeps_bind framing (note_focus_errand errands _)
    exact fun _ => keeps_bind framing (noticing_errand errands (abort_dealing dealings)) fun _ => dealings.yields i
  · exact keeps_pure framing _

theorem begin_dealing : Keeps R (begin env i) := by
  have framing := dealings.toFraming
  apply keeps_get
  intro w
  apply keeps_ite
  · exact keeps_throw framing _
  · apply keeps_try_catch framing
    · apply keeps_bind framing dealings.notifs
      exact fun _ => keeps_bind framing (do_begin_service dealings.toServices) fun _ => dealings.begins i
    · exact fun e => keeps_bind framing (end_dealing dealings) fun _ => keeps_throw framing e

theorem activate_for_dealing (purpose : String) : Keeps R (activateFor env i purpose) := by
  have framing := dealings.toFraming
  apply keeps_try_catch framing
  · apply keeps_get
    intro w
    cases (w.trans i).status with
    | nascent => exact begin_dealing dealings
    | active => exact keeps_pure framing _
    | aborted => exact keeps_throw framing _
    | committed => exact keeps_throw framing _
    | inDoubt => exact keeps_throw framing _
  · exact fun e => keeps_ite _ (keeps_throw framing _) (keeps_throw framing e)

theorem exec_sql_dealing (sql : Sql) (desc : String) : Keeps R (execSql env i sql desc) := by
  have framing := dealings.toFraming
  have services := dealings.toServices
  apply keeps_bind framing (check_pending_errand services.toErrands)
  intro _
  apply keeps_get
  intro w
  cases (w.trans i).focus with
  | some f => exact keeps_throw framing _
  | none =>
      apply keeps_bind framing (activate_for_dealing dealings _)
      intro _
      apply keeps_try_catch framing (direct_exec_service services sql 0)
      exact fun e => keeps_bind framing (swallow_service services (abort_dealing dealings)) fun _ => keeps_throw framing e

theorem commit_dealing : Keeps R (commit env i) := by
  have framing := dealings.toFraming
  have active : Keeps R (commitActive env i) := by
    apply keeps_bind framing
    · apply keeps_try_catch framing (keeps_bind framing (do_commit_service dealings.toServices) fun _ => dealings.settles i _)
      exact fun e => keeps_bind framing (dealings.settles i _) fun _ => keeps_throw framing e
    · intro _
      apply keeps_get
      intro w
      exact keeps_bind framing (dealings.members _ fun _ => ⟨rfl, rfl, rfl, rfl, rfl, rfl⟩) fun _ => end_dealing dealings
  apply keeps_bind framing (check_pending_errand dealings.toErrands)
  intro _
  apply keeps_get
  intro w
  cases (w.trans i).status with
  | nascent => exact keeps_pure framing _
  | active =>
      cases (w.trans i).focus with
      | some f => exact keeps_throw framing _
      | none => exact keeps_ite _ (keeps_throw framing _) active
  | aborted => exact keeps_throw framing _
  | committed => exact dealings.notices _
  | inDoubt => exact keeps_throw framing _

end Transaction

theorem perform_dealing (op : WorkOp) : Keeps R (op.perform env i) := by
  have framing := dealings.toFraming
  have errands := dealings.toErrands
  have focuses (f : Focus) : Keeps R (Transaction.registerFocus i f) := Transaction.register_focus_errand errands f
  cases decisive : op.decisive with
  | false => exact work_errand errands op decisive
  | true =>
      cases op with
      | exec query desc => exact dropped_errand errands (Transaction.exec_sql_dealing dealings _ desc)
      | prepared statement => exact Transaction.activate_for_dealing dealings _
      | openWriter table columns => exact keeps_bind framing (Transaction.exec_sql_dealing dealings _ "") fun _ => focuses _
      | openReader table columns => exact keeps_bind framing (Transaction.exec_sql_dealing dealings _ "") fun _ => focuses _
      | commit => exact Transaction.commit_dealing dealings
      | abort => exact Transaction.abort_dealing dealings
      | end_ => exact Transaction.end_dealing dealings
      | _ => exact absurd decisive Bool.false_ne_true

end

end Pqxx
