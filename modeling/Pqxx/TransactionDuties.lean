import Pqxx.TransactionBackground

set_option autoImplicit false

namespace Pqxx

open Lib Prog

-- All that transactions do, for as long as they count nothing that cannot be recovered.
structure Duties (env : Outside) (R : World → World → Prop) : Prop extends Chores env R where
  notifs : Keeps R (Connection.getNotifs env)
  sends : ∀ sql : Sql, sql.deaf → ∀ retries, Keeps R (Connection.exec env sql retries)
  turns : ∀ i f, (∀ x : Transaction, x.reactivationAvoidance = 0 → (f x).reactivationAvoidance = 0) →
    (∀ x : Transaction, (f x).vars = x.vars) → Keeps R (modifyTrans i f)
  begins : ∀ i, Keeps R (Transaction.setBegun i)
  nought : ∀ {α : Type} (f : World → Client α), (∀ w, (∀ i, (w.trans i).reactivationAvoidance = 0) → Keeps R (f w)) →
    Keeps R (Prog.get >>= f)

-- The same with what happens to variables when a transaction starts and when it commits.
structure Lifetime (env : Outside) (R : World → World → Prop) : Prop extends Duties env R where
  opens : ∀ i (x : Transaction), x.reactivationAvoidance = 0 → Keeps R (modifyTrans i fun _ => x)
  merges : ∀ vars, Keeps R (Connection.addVariables vars)

section

variable {env : Outside} {R : World → World → Prop} (duties : Duties env R)

include duties

variable {i : Nat}

namespace Transaction

theorem abort_keeps : Keeps R (abort env i) := by
  have framing := duties.toFraming
  have chores := duties.toChores
  have closes : Keeps R (do setStatus i .aborted; endClosed i : Client Unit) :=
    keeps_bind framing (duties.turns i _ (fun _ => id) fun _ => rfl) fun _ => end_closed_keeps chores i
  refine keeps_get fun w => ?_
  cases (w.trans i).status with
  | nascent => exact closes
  | active => exact keeps_bind framing (swallow_keeps chores (do_abort_keeps chores i)) fun _ => closes
  | aborted => exact keeps_pure framing _
  | committed => exact keeps_throw framing _
  | inDoubt => exact duties.notices _

-- The count handed to the connection is nought.
theorem end_keeps : Keeps R (end_ env i) := by
  have framing := duties.toFraming
  have chores := duties.toChores
  refine noticing_keeps chores (keeps_bind framing (end_closed_keeps chores i) fun _ => keeps_get fun w => ?_)
  refine keeps_ite _ ?_ (keeps_pure framing _)
  refine keeps_bind framing (note_focus_keeps chores _) fun _ => ?_
  refine keeps_bind framing (noticing_keeps chores (abort_keeps duties)) fun _ => duties.nought _ fun v zero => ?_
  refine keeps_bind framing (chores.members _ (fun c => ⟨rfl, rfl, rfl, rfl, ?_, rfl, rfl⟩) fun _ => rfl) fun _ => duties.turns i _ (fun _ _ => rfl) fun _ => rfl
  show c.reactivationAvoidance + (v.trans i).reactivationAvoidance = c.reactivationAvoidance
  rw [zero i, Int.add_zero]

theorem begin_keeps : Keeps R (begin env i) := by
  have framing := duties.toFraming
  have chores := duties.toChores
  refine keeps_get fun w => keeps_ite _ (keeps_throw framing _) (keeps_try_catch framing ?_ fun e => ?_)
  · exact keeps_bind framing duties.notifs fun _ => keeps_bind framing (do_begin_keeps chores i) fun _ => duties.begins i
  · exact keeps_bind framing (end_keeps duties) fun _ => keeps_throw framing _

theorem activate_for_keeps (purpose : String) : Keeps R (activateFor env i purpose) := by
  have framing := duties.toFraming
  refine keeps_try_catch framing (keeps_get fun w => ?_) fun e =>
    keeps_ite _ (keeps_throw framing _) (keeps_throw framing _)
  cases (w.trans i).status with
  | nascent => exact begin_keeps duties
  | active => exact keeps_pure framing _
  | committed => exact keeps_throw framing _
  | aborted => exact keeps_throw framing _
  | inDoubt => exact keeps_throw framing _

theorem exec_sql_keeps (sql : Sql) (deaf : sql.deaf) (desc : String) : Keeps R (execSql env i sql desc) := by
  have framing := duties.toFraming
  have chores := duties.toChores
  refine keeps_bind framing (check_pending_error_keeps chores i) fun _ => keeps_get fun w => ?_
  split
  · exact keeps_throw framing _
  · refine keeps_bind framing (activate_for_keeps duties _) fun _ => keeps_try_catch framing ?_ fun e => ?_
    · exact direct_exec_keeps chores i (duties.sends sql deaf 0)
    · exact keeps_bind framing (swallow_keeps chores (abort_keeps duties)) fun _ => keeps_throw framing _

theorem work_commit_keeps : Keeps R (workCommit env i) := by
  have framing := duties.toFraming
  have chores := duties.toChores
  refine keeps_try_catch framing (direct_keeps chores i (duties.sends .commit (by trivial) 0)) fun e => keeps_get fun w => ?_
  refine keeps_ite _ ?_ (keeps_throw framing _)
  refine keeps_bind framing (duties.notices _) fun _ => ?_
  exact keeps_bind framing (duties.notices _) fun _ => keeps_throw framing _

-- Nor does a subtransaction have anything to hand on to its parent.
theorem sub_commit_keeps (parent : Nat) : Keeps R (subCommit env i parent) := by
  have framing := duties.toFraming
  have chores := duties.toChores
  refine duties.nought _ fun w zero => keeps_bind framing (duties.turns i _ (fun _ _ => rfl) fun _ => rfl) fun _ => ?_
  refine keeps_bind framing (own_direct_keeps chores i _ (by trivial) 0) fun _ => duties.turns parent _ (fun x same => ?_) fun _ => rfl
  show x.reactivationAvoidance + (w.trans i).reactivationAvoidance = 0
  rw [same, zero i, Int.add_zero]

theorem check_record_keeps : Keeps R (checkTransactionRecord env i) := by
  have framing := duties.toFraming
  have chores := duties.toChores
  have holds : Keeps R (oldBackendHolds env i) := by
    refine keeps_get fun w => keeps_ite _ ?_ ?_
    · exact keeps_bind framing (direct_exec_keeps chores i (chores.manages _ (by trivial) 0)) fun _ => keeps_pure framing _
    · exact keeps_bind framing (direct_exec_keeps chores i (chores.manages _ (by trivial) 0)) fun _ => keeps_pure framing _
  have waits (turns : Nat) : Keeps R (waitForOldBackend env i turns) := by
    induction turns with
    | zero => exact keeps_pure framing _
    | succ turns ih => exact keeps_bind framing holds fun hold => keeps_ite _ ih (keeps_pure framing _)
  refine keeps_bind framing (waits 20) fun hold => keeps_ite _ (keeps_throw framing _) (keeps_get fun w => ?_)
  refine keeps_bind framing (Connection.username_keeps chores) fun user => ?_
  exact keeps_bind framing (direct_exec_keeps chores i (chores.manages _ (by trivial) 20)) fun _ => keeps_pure framing _

theorem robust_in_doubt_keeps {α : Type} (what : String) : Keeps R (robustInDoubt i what : Client α) := by
  have framing := duties.toFraming
  refine keeps_get fun w => keeps_bind framing (duties.notices _) fun _ => ?_
  exact keeps_bind framing (duties.notices _) fun _ => keeps_bind framing (duties.notices _) fun _ => keeps_throw framing _

theorem robust_commit_keeps : Keeps R (robustCommit env i) := by
  have framing := duties.toFraming
  have chores := duties.toChores
  have aborts (e : Exn) : Keeps R (do doAbort env i; throw e : Client Unit) :=
    keeps_bind framing (do_abort_keeps chores i) fun _ => keeps_throw framing _
  have sends : Keeps R (sendCommit env i) := by
    refine keeps_try_catch framing ?_ fun e => keeps_ite _ (keeps_pure framing _) (keeps_get fun w => ?_)
    · refine keeps_bind framing (direct_keeps chores i (duties.sends .commit (by trivial) 0)) fun _ => ?_
      exact keeps_bind framing (duties.turns i _ (fun _ => id) fun _ => rfl) fun _ => keeps_pure framing _
    · refine keeps_ite _ ?_ (keeps_pure framing _)
      exact keeps_bind framing (do_abort_keeps chores i) fun _ => keeps_throw framing _
  refine keeps_get fun w => keeps_ite _ (keeps_throw framing _) ?_
  refine keeps_bind framing (keeps_try_catch framing (own_direct_keeps chores i _ (by trivial) 0) aborts) fun _ => ?_
  refine keeps_bind framing sends fun through => keeps_ite _ (keeps_pure framing _) ?_
  refine keeps_bind framing ?_ fun exists_ => keeps_ite _ ?_ (keeps_pure framing _)
  · exact keeps_try_catch framing (check_record_keeps duties) fun f => robust_in_doubt_keeps duties _
  · exact keeps_bind framing (do_abort_keeps chores i) fun _ => keeps_throw framing _

theorem do_commit_keeps : Keeps R (doCommit env i) := by
  refine keeps_get fun w => ?_
  cases (w.trans i).kind with
  | work => exact work_commit_keeps duties
  | subtransaction parent => exact sub_commit_keeps duties parent
  | robust => exact robust_commit_keeps duties

end Transaction

theorem register_keeps : Keeps R (Connection.registerTransaction i) := by
  have framing := duties.toFraming
  refine keeps_get fun w => ?_
  cases w.conn.trans with
  | none => exact duties.members _ (fun _ => ⟨rfl, rfl, rfl, rfl, rfl, rfl, rfl⟩) fun _ => rfl
  | some old => exact keeps_ite _ (keeps_throw framing _) (keeps_throw framing _)

-- What openWork() does once there is a transaction to be opened.
theorem opened_keeps : Keeps R (do
    Connection.registerTransaction i
    modifyTrans i fun x => { x with registered := true }
    Transaction.begin env i : Client Unit) := by
  have framing := duties.toFraming
  refine keeps_bind framing (register_keeps duties) fun _ => ?_
  exact keeps_bind framing (duties.turns i _ (fun _ => id) fun _ => rfl) fun _ => Transaction.begin_keeps duties

theorem adorn_name_keeps (n : String) : Keeps R (Connection.adornName n) := by
  have framing := duties.toFraming
  refine keeps_bind framing (duties.members _ (fun _ => ⟨rfl, rfl, rfl, rfl, rfl, rfl, rfl⟩) fun _ => rfl) fun _ => ?_
  exact keeps_get fun _ => keeps_pure framing _

end

section

variable {env : Outside} {R : World → World → Prop} (life : Lifetime env R)

include life

variable {i : Nat}

theorem Transaction.commit_keeps : Keeps R (commit env i) := by
  have framing := life.toFraming
  have duties := life.toDuties
  have turns (status : Status) : Keeps R (setStatus i status) := duties.turns i _ (fun _ => id) fun _ => rfl
  have active : Keeps R (commitActive env i) := by
    refine keeps_bind framing (keeps_try_catch framing ?_ fun e => ?_) fun _ => keeps_get fun w => ?_
    · exact keeps_bind framing (do_commit_keeps duties) fun _ => turns _
    · exact keeps_bind framing (turns _) fun _ => keeps_throw framing _
    · exact keeps_bind framing (life.merges _) fun _ => end_keeps duties
  refine keeps_bind framing (check_pending_error_keeps life.toChores i) fun _ => keeps_get fun w => ?_
  cases (w.trans i).status with
  | nascent => exact keeps_pure framing _
  | aborted => exact keeps_throw framing _
  | committed => exact duties.notices _
  | inDoubt => exact keeps_throw framing _
  | active =>
    cases (w.trans i).focus with
    | some f => exact keeps_throw framing _
    | none => exact keeps_ite _ (keeps_throw framing _) active

theorem open_work_keeps (kind : Kind) (classname name startArgs logTable : String) :
    Keeps R (openWork env i kind classname name startArgs logTable) :=
  keeps_bind life.toFraming (life.opens i _ rfl) fun _ => opened_keeps life.toDuties

theorem open_subtransaction_keeps (parent : Nat) (name : String) : Keeps R (openSubtransaction i parent name) :=
  keeps_bind life.toFraming (adorn_name_keeps life.toDuties name) fun _ => life.opens i _ rfl

end

end Pqxx
