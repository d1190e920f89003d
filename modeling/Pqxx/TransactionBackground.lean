import Pqxx.ConnectionSpec
import Pqxx.Transaction

set_option autoImplicit false

namespace Pqxx

open Lib Prog

-- A transaction but for its notes to itself.
def Transaction.bare (x : Transaction) : Transaction :=
  { x with pendingError := "", reactivationAvoidance := 0, recordId := 0, xid := "", backendpid := 0, registered := false }

theorem bare_same {α : Type} (field : Transaction → α) (kept : ∀ x : Transaction, field x.bare = field x) {x y : Transaction}
    (same : x.bare = y.bare) : field x = field y := by
  rw [← kept x, same, kept y]

-- The statements that are not the client's, other than COMMIT.
def Sql.own : Sql → Prop
  | .commit => False
  | .statement _ _ _ => False
  | .execute _ _ _ => False
  | _ => True

theorem own_inside {sql : Sql} (own : sql.own) : sql ≠ .commit := by
  rintro rfl
  exact own

theorem own_trans {sql : Sql} (own : sql.own) : sql.trans = none := by
  cases sql with
  | statement => exact own.elim
  | execute => exact own.elim
  | _ => rfl

def World.note (w : World) (i : Nat) (f : Transaction → Transaction) : World :=
  { w with trans := fun j => if j = i then f (w.trans j) else w.trans j }

-- A relation that holds across all a transaction does short of a change of status.
structure Bookkeeping (env : Outside) (R : World → World → Prop) : Prop extends Background env R where
  notes : ∀ w i f, (∀ x : Transaction, (f x).bare = x.bare) → R w (w.note i f)
  own : ∀ sql : Sql, sql.own → Request env R sql
  copies : ∀ (w : World) i text, R w (({ w with clock := w.clock + 1 } : World).serve (w.server.serve env w.clock 0 (.copyEnd i text)).2)

-- One that holds across all of that but a change of the connection's count, other than
-- one that is put back, which is sure to happen only on an open connection.
structure Ledger (env : Outside) (R : World → World → Prop) : Prop extends Upkeep env R where
  members : ∀ (w : World) (f : Connection → Connection), (∀ c, (f c).reactivationAvoidance = c.reactivationAvoidance) →
    R w { w with conn := f w.conn }
  notes : ∀ w i f, (∀ x : Transaction, (f x).bare = x.bare) →
    (∀ x : Transaction, (f x).reactivationAvoidance = x.reactivationAvoidance ∨ (f x).reactivationAvoidance = 0) → R w (w.note i f)
  own : ∀ sql : Sql, sql.own → Request env R sql
  copies : ∀ (w : World) i text, R w (({ w with clock := w.clock + 1 } : World).serve (w.server.serve env w.clock 0 (.copyEnd i text)).2)
  exempts : ∀ (work : Client Unit) (w : World), Keeps R work → w.conn.isOpen = true → R w (exempt work w).2

-- Those of them that are not about what the session listens on.
def Sql.managing : Sql → Prop
  | .listen _ => False
  | .unlisten _ => False
  | sql => sql.own

theorem managing_own {sql : Sql} (managing : sql.managing) : sql.own := by
  cases sql with
  | listen => exact managing.elim
  | unlisten => exact managing.elim
  | _ => exact managing

-- A change of members that the connection and its session have nothing to do with.
structure Aside (c c' : Connection) : Prop where
  policy : c'.policy = c.policy
  handle : c'.handle = c.handle
  completed : c'.completed = c.completed
  inhibitReactivation : c'.inhibitReactivation = c.inhibitReactivation
  reactivationAvoidance : c'.reactivationAvoidance = c.reactivationAvoidance
  receivers : c'.receivers = c.receivers
  prepared : c'.prepared = c.prepared

-- What a transaction does short of a change of status, with the connection's own calls
-- taken as they are.
structure Chores (env : Outside) (R : World → World → Prop) : Prop extends Framing R where
  notices : ∀ msg, Keeps R (processNotice msg)
  activates : Keeps R (Connection.activate env)
  manages : ∀ sql : Sql, sql.managing → ∀ retries, Keeps R (Connection.exec env sql retries)
  members : ∀ f : Connection → Connection, (∀ c, Aside c (f c)) → (∀ c, (f c).vars = c.vars) → Keeps R (modifyConn f)
  notes : ∀ i f, (∀ x : Transaction, (f x).bare = x.bare) →
    (∀ x : Transaction, (f x).reactivationAvoidance = x.reactivationAvoidance ∨ (f x).reactivationAvoidance = 0) → Keeps R (modifyTrans i f)
  exempts : ∀ (work : Client Unit) (w : World), Keeps R work → w.conn.isOpen = true → R w (exempt work w).2

theorem Ledger.chores {env : Outside} {R : World → World → Prop} (ledger : Ledger env R) : Chores env R where
  toFraming := ledger.toFraming
  notices := process_notice_keeps ledger.toUpkeep
  activates := Connection.activate_keeps ledger.toUpkeep
  manages sql managing retries := Connection.exec_keeps ledger.toUpkeep (ledger.own sql (managing_own managing)) retries
  members f aside _ w := ledger.members w f fun c => (aside c).reactivationAvoidance
  notes i f same count w := ledger.notes w i f same count
  exempts := ledger.exempts

theorem Transaction.check_pending_clean {i : Nat} {w : World} (clean : (w.trans i).pendingError = "") :
    checkPendingError i w = (.ok (), w) := by
  simp only [checkPendingError, Prog.bind_apply, Prog.get_apply, if_neg (not_not_intro clean), Prog.pure_apply]

theorem any_upkeep {env : Outside} : Upkeep env fun _ _ => True where
  same _ := trivial
  onward _ _ _ _ _ := trivial
  link _ _ _ _ _ _ _ := trivial
  ends _ _ _ _ _ _ _ := trivial
  asks _ _ _ := trivial
  restores _ _ _ := trivial

theorem any_request {env : Outside} {sql : Sql} : Request env (fun _ _ => True) sql := ⟨fun _ => trivial, fun _ => trivial⟩

theorem deactivate_keeps {env : Outside} {R : World → World → Prop} (up : Upkeep env R) : Keeps R Connection.deactivate := by
  refine keeps_get fun w => ?_
  split
  · exact keeps_pure up.toFraming _
  · exact fault_keeps up _ _
  · refine keeps_ite _ (process_notice_keeps up _) ?_
    exact keeps_bind up.toFraming (set_completed_keeps up _) fun _ => pq_finish_keeps up

theorem exempt_keeps {env : Outside} {R : World → World → Prop} (back : Background env R) (work : Client Unit) (works : Keeps R work) :
    Keeps R (exempt work) := by
  refine keeps_get fun before => keeps_bind back.toFraming (modify_conn_keeps back _) fun _ => ?_
  have leaves : Keeps R (do
      Prog.when (before.conn.reactivationAvoidance ≠ 0 ∧ before.conn.isOpen = false) Connection.deactivate
      modifyConn fun c => { c with reactivationAvoidance := c.reactivationAvoidance + before.conn.reactivationAvoidance }) :=
    keeps_bind back.toFraming (keeps_when back.toFraming _ (deactivate_keeps back.upkeep)) fun _ => modify_conn_keeps back _
  refine keeps_bind back.toFraming (keeps_try_catch back.toFraming works fun e => ?_) fun _ => leaves
  exact keeps_bind back.toFraming leaves fun _ => keeps_throw back.toFraming _

-- Where the count that is put aside is nought.
theorem exempt_nought {P : World → Prop} (regardless : ∀ w, P w → w.conn.reactivationAvoidance = 0) {work : Client Unit}
    (works : ∀ w, P w → P (work w).2) {w : World} (holds : P w) : P (exempt work w).2 := by
  have count : w.conn.reactivationAvoidance = 0 := regardless w holds
  have same : ({ w with conn := { w.conn with reactivationAvoidance := 0 } } : World) = w := by rw [← count]
  have worked := works w holds
  have stays : ¬ (w.conn.reactivationAvoidance ≠ 0 ∧ w.conn.isOpen = false) := fun both => both.1 count
  have back (u : World) (holds : P u) :
      P { u with conn := { u.conn with reactivationAvoidance := u.conn.reactivationAvoidance + w.conn.reactivationAvoidance } } := by
    rw [count, Int.add_zero]
    exact holds
  simp only [exempt, modifyConn, Prog.bind_apply, Prog.get_apply, Prog.modify_apply, Prog.try_catch_apply, Prog.when_skip _ _ _ stays, same]
  split
  · rename_i outcome
    split at outcome
    · rename_i result
      obtain ⟨_, rfl⟩ := Prod.mk.inj outcome
      rw [result] at worked
      exact back _ worked
    · cases (Prod.mk.inj outcome).1
  · rename_i outcome
    split at outcome
    · cases (Prod.mk.inj outcome).1
    · rename_i result
      obtain ⟨_, rfl⟩ := Prod.mk.inj outcome
      rw [result] at worked
      exact back _ worked

theorem Bookkeeping.ledger {env : Outside} {R : World → World → Prop} (books : Bookkeeping env R) : Ledger env R where
  toUpkeep := books.upkeep
  members w f _ := modify_conn_keeps books.toBackground f w
  notes w i f same _ := books.notes w i f same
  own := books.own
  copies := books.copies
  exempts work w works _ := exempt_keeps books.toBackground work works w

section

variable {env : Outside} {R : World → World → Prop} (ledger : Ledger env R)

include ledger

theorem members_keep (f : Connection → Connection) (count : ∀ c, (f c).reactivationAvoidance = c.reactivationAvoidance) :
    Keeps R (modifyConn f) := fun w => ledger.members w f count

namespace Connection

theorem own_exec_keeps (sql : Sql) (own : sql.own) (retries : Nat) : Keeps R (exec env sql retries) :=
  exec_keeps ledger.toUpkeep (ledger.own sql own) retries

theorem raw_set_var_keeps (var value : String) : Keeps R (rawSetVar env var value) :=
  keeps_bind ledger.toFraming (own_exec_keeps ledger _ (by trivial) 0) fun _ => keeps_pure ledger.toFraming _

theorem add_variables_keeps (vars : OrdMap String String) : Keeps R (addVariables vars) := members_keep ledger _ fun _ => rfl

theorem raw_get_var_keeps (var : String) : Keeps R (rawGetVar env var) := by
  refine keeps_get fun w => ?_
  split
  · exact keeps_pure ledger.toFraming _
  · refine keeps_bind ledger.toFraming (own_exec_keeps ledger _ (by trivial) 0) fun rows => ?_
    split
    · exact keeps_pure ledger.toFraming _
    · exact fault_keeps ledger.toUpkeep _ _
    · exact fault_keeps ledger.toUpkeep _ _

theorem prepare_keeps (name definition : String) : Keeps R (prepare name definition) := by
  have up := ledger.toUpkeep
  refine keeps_get fun w => ?_
  split
  · exact members_keep ledger _ fun _ => rfl
  · refine keeps_ite _ (keeps_pure up.toFraming _) ?_
    exact keeps_ite _ (fault_keeps up _ _) (members_keep ledger _ fun _ => rfl)

theorem unprepare_keeps (name : String) : Keeps R (unprepare env name) := by
  have up := ledger.toUpkeep
  refine keeps_get fun w => ?_
  split
  · exact keeps_pure up.toFraming _
  · refine keeps_bind up.toFraming (keeps_when up.toFraming _ ?_) fun _ => members_keep ledger _ fun _ => rfl
    exact keeps_bind up.toFraming (own_exec_keeps ledger _ (by trivial) 0) fun _ => keeps_pure up.toFraming _

theorem find_prepared_keeps (statement : String) : Keeps R (findPrepared statement) := by
  refine keeps_get fun w => ?_
  split
  · exact fault_keeps ledger.toUpkeep _ _
  · exact keeps_pure ledger.toFraming _

theorem register_prepared_keeps (name : String) : Keeps R (registerPrepared env name) := by
  have up := ledger.toUpkeep
  refine keeps_bind up.toFraming (activate_keeps up) fun _ => keeps_get fun w => ?_
  refine keeps_ite _ (fault_keeps up _ _) (keeps_bind up.toFraming (find_prepared_keeps ledger name) fun s => ?_)
  refine keeps_ite _ (keeps_pure up.toFraming _) ?_
  refine keeps_bind up.toFraming (pq_exec_keeps up (ledger.own _ (by trivial))) fun r => ?_
  refine keeps_bind up.toFraming (make_result_keeps up r) fun r => ?_
  exact keeps_bind up.toFraming (check_result_keeps up r _) fun _ => members_keep ledger _ fun _ => rfl

section

variable (i : Nat) (text : String) (args : List (Option String))

theorem prepared_exec_keeps (request : Request env R (.execute i text args)) : Keeps R (preparedExec env i text args) := by
  have up := ledger.toUpkeep
  refine keeps_bind up.toFraming (register_prepared_keeps ledger text) fun _ => ?_
  refine keeps_bind up.toFraming (activate_keeps up) fun _ => ?_
  refine keeps_bind up.toFraming (pq_exec_keeps up request) fun r => ?_
  refine keeps_bind up.toFraming (make_result_keeps up r) fun r => ?_
  refine keeps_bind up.toFraming (check_result_keeps up r _) fun rows => ?_
  exact keeps_bind up.toFraming (get_notifs_keeps up) fun _ => keeps_pure up.toFraming _

theorem parameterized_exec_keeps (request : Request env R (.statement i text args)) :
    Keeps R (parameterizedExec env i text args) := by
  have up := ledger.toUpkeep
  refine keeps_bind up.toFraming (pq_exec_keeps up request) fun r => ?_
  refine keeps_bind up.toFraming (make_result_keeps up r) fun r => ?_
  refine keeps_bind up.toFraming (check_result_keeps up r _) fun rows => ?_
  exact keeps_bind up.toFraming (get_notifs_keeps up) fun _ => keeps_pure up.toFraming _

end

theorem pq_put_copy_data_keeps : Keeps R (pqPutCopyData env) := by
  have up := ledger.toUpkeep
  intro w
  simp only [pqPutCopyData, Prog.bind_apply, Prog.get_apply]
  cases w.conn.handle.bind Handle.copying with
  | none => exact up.same w
  | some copying =>
    simp only [tick, Prog.bind_apply, Prog.gets_apply, Prog.modify_apply, Prog.pure_apply]
    have ticked : R w { w with clock := w.clock + 1 } := up.link w _ (tended_refl _) rfl rfl rfl (Nat.le_succ _)
    have served := ledger.copies w copying.trans copying.text
    cases env.fate w.clock with
    | answered => exact ticked
    | lostBefore => exact up.onward _ _ _ ticked (lose_keeps up _)
    | lostAfter => exact up.onward _ _ _ ticked (lose_keeps up _)
    | nullBefore => exact up.onward _ _ _ served (modify_handle_keeps up _ _)
    | nullAfter => exact up.onward _ _ _ served (modify_handle_keeps up _ _)

theorem write_copy_line_keeps : Keeps R (writeCopyLine env) := by
  have up := ledger.toUpkeep
  refine keeps_get fun w => keeps_ite _ (keeps_throw up.toFraming _) ?_
  refine keeps_bind up.toFraming (pq_put_copy_data_keeps ledger) fun put => ?_
  refine keeps_ite _ (keeps_pure up.toFraming _) ?_
  exact keeps_bind up.toFraming (err_msg_keeps up) fun msg => fault_keeps up _ _

theorem end_copy_keeps (copying : Copying) : Keeps R (endCopy env copying) := by
  have up := ledger.toUpkeep
  refine keeps_bind up.toFraming (pq_exec_keeps up (ledger.own _ (by trivial))) fun r => ?_
  refine keeps_bind up.toFraming (make_result_keeps up r) fun r => ?_
  exact keeps_bind up.toFraming (check_result_keeps up r _) fun _ => keeps_pure up.toFraming _

theorem end_copy_write_keeps : Keeps R (endCopyWrite env) := by
  have up := ledger.toUpkeep
  refine keeps_get fun w => ?_
  split
  · exact keeps_bind up.toFraming (err_msg_keeps up) fun msg => fault_keeps up _ _
  · exact end_copy_keeps ledger _

theorem read_copy_line_keeps : Keeps R (readCopyLine env) := by
  have up := ledger.toUpkeep
  refine keeps_get fun w => keeps_ite _ (keeps_throw up.toFraming _) ?_
  split
  · exact keeps_bind up.toFraming (err_msg_keeps up) fun msg => fault_keeps up _ _
  · rename_i copying _
    refine keeps_bind up.toFraming (keeps_bind up.toFraming (tick_keeps up) fun t => ?_) fun line => ?_
    · refine keeps_ite _ ?_ ?_
      · refine keeps_bind up.toFraming (lose_keeps up) fun _ => ?_
        exact keeps_bind up.toFraming (err_msg_keeps up) fun msg => fault_keeps up _ _
      · split
        · exact keeps_pure up.toFraming _
        · exact keeps_bind up.toFraming (modify_handle_keeps up _) fun _ => keeps_pure up.toFraming _
    · exact keeps_bind up.toFraming (keeps_when up.toFraming _ (end_copy_keeps ledger copying)) fun _ =>
        keeps_pure up.toFraming _

end Connection

end

section

variable {env : Outside} {R : World → World → Prop} (chores : Chores env R)

include chores

namespace Connection

theorem username_keeps : Keeps R (username env) := by
  refine keeps_get fun w => ?_
  exact keeps_bind chores.toFraming (keeps_when chores.toFraming _ chores.activates) fun _ => keeps_pure chores.toFraming _

theorem unregister_keeps (i : Nat) : Keeps R (unregisterTransaction i) := by
  refine keeps_get fun w => ?_
  split
  · exact chores.notices _
  · exact keeps_ite _ (chores.members _ (fun _ => ⟨rfl, rfl, rfl, rfl, rfl, rfl, rfl⟩) fun _ => rfl) (chores.notices _)

end Connection

namespace Transaction

theorem check_pending_error_keeps (i : Nat) : Keeps R (checkPendingError i) := by
  refine keeps_get fun w => keeps_ite _ ?_ (keeps_pure chores.toFraming _)
  exact keeps_bind chores.toFraming (chores.notes i _ (fun _ => rfl) fun _ => .inl rfl) fun _ => keeps_throw chores.toFraming _

theorem direct_exec_keeps (i : Nat) {sql : Sql} {retries : Nat} (sends : Keeps R (Connection.exec env sql retries)) :
    Keeps R (directExec env i sql retries) :=
  keeps_bind chores.toFraming (check_pending_error_keeps chores i) fun _ => sends

theorem direct_keeps (i : Nat) {sql : Sql} {retries : Nat} (sends : Keeps R (Connection.exec env sql retries)) :
    Keeps R (direct env i sql retries) :=
  keeps_bind chores.toFraming (direct_exec_keeps chores i sends) fun _ => keeps_pure chores.toFraming _

theorem swallow_keeps {m : Client Unit} (keeps : Keeps R m) : Keeps R (swallow m) :=
  keeps_try_catch chores.toFraming keeps fun _ => keeps_pure chores.toFraming _

theorem noticing_keeps {m : Client Unit} (keeps : Keeps R m) : Keeps R (noticing m) :=
  keeps_try_catch chores.toFraming keeps fun _ => chores.notices _

theorem own_direct_keeps (i : Nat) (sql : Sql) (managing : sql.managing) (retries : Nat) : Keeps R (direct env i sql retries) :=
  direct_keeps chores i (chores.manages sql managing retries)

theorem db_begin_keeps (i : Nat) : Keeps R (dbBegin env i) :=
  keeps_get fun _ => own_direct_keeps chores i _ (by trivial) _

theorem db_abort_keeps (i : Nat) : Keeps R (dbAbort env i) :=
  keeps_bind chores.toFraming (chores.notes i _ (fun _ => rfl) fun _ => .inr rfl) fun _ => own_direct_keeps chores i _ (by trivial) _

theorem create_log_table_keeps (i : Nat) : Keeps R (createLogTable env i) := by
  refine keeps_get fun w => keeps_bind chores.toFraming ?_ fun _ => ?_
  · exact keeps_try_catch chores.toFraming (own_direct_keeps chores i _ (by trivial) _) fun _ =>
      chores.notices _
  · exact keeps_try_catch chores.toFraming (own_direct_keeps chores i _ (by trivial) _) fun _ =>
      chores.notices _

theorem set_record_id_keeps (i : Nat) (field : Option String) : Keeps R (setRecordId i field) := by
  simp only [setRecordId]
  split
  · exact keeps_throw chores.toFraming _
  · exact chores.notes i _ (fun _ => rfl) fun _ => .inl rfl
  · exact keeps_pure chores.toFraming _

theorem create_transaction_record_keeps (i : Nat) : Keeps R (createTransactionRecord env i) := by
  refine keeps_get fun w => keeps_bind chores.toFraming (own_direct_keeps chores i _ (by trivial) _) fun _ => ?_
  refine keeps_bind chores.toFraming (direct_exec_keeps chores i (chores.manages _ (by trivial) _)) fun rows => ?_
  refine keeps_bind chores.toFraming (set_record_id_keeps chores i _) fun _ => keeps_get fun v => ?_
  refine keeps_bind chores.toFraming (Connection.username_keeps chores) fun user => ?_
  exact own_direct_keeps chores i _ (by trivial) _

theorem robust_begin_keeps (i : Nat) : Keeps R (robustBegin env i) := by
  have framing := chores.toFraming
  refine keeps_bind framing (keeps_try_catch framing (create_transaction_record_keeps chores i) fun _ => ?_) fun _ => ?_
  · refine keeps_bind framing (swallow_keeps chores (db_abort_keeps chores i)) fun _ => ?_
    refine keeps_bind framing (create_log_table_keeps chores i) fun _ => ?_
    refine keeps_bind framing (db_begin_keeps chores i) fun _ => keeps_get fun w => ?_
    exact keeps_bind framing (chores.notes i _ (fun _ => rfl) fun _ => .inl rfl) fun _ => create_transaction_record_keeps chores i
  · refine keeps_bind framing (db_begin_keeps chores i) fun _ => keeps_get fun w => ?_
    refine keeps_bind framing (own_direct_keeps chores i _ (by trivial) _) fun _ => keeps_get fun v => keeps_when framing _ ?_
    refine keeps_bind framing (direct_exec_keeps chores i (chores.manages _ (by trivial) _)) fun rows => ?_
    exact chores.notes i _ (fun _ => rfl) fun _ => .inl rfl

theorem delete_transaction_record_open (i : Nat) (w : World) (isOpen : w.conn.isOpen = true) :
    R w (deleteTransactionRecord env i w).2 := by
  have framing := chores.toFraming
  have deleting : Keeps R (do
      direct env i (.deleteRecord (w.trans i).logTable (w.trans i).recordId) 20
      modifyTrans i fun x => { x with recordId := 0 }) :=
    keeps_bind framing (own_direct_keeps chores i _ (by trivial) _) fun _ => chores.notes i _ (fun _ => rfl) fun _ => .inl rfl
  simp only [deleteTransactionRecord]
  rw [Prog.bind_apply, Prog.get_apply]
  dsimp only
  rw [Prog.ite_apply]
  split
  · exact framing.same w
  · refine bind_from framing ?_ fun _ => keeps_get fun v => keeps_when framing _ (chores.notices _)
    have exempted := chores.exempts _ w deleting isOpen
    simp only [swallow, Prog.try_catch_apply]
    split
    · rename_i outcome
      rw [outcome] at exempted
      exact exempted
    · rename_i outcome
      rw [outcome] at exempted
      exact exempted

theorem do_begin_keeps (i : Nat) : Keeps R (doBegin env i) := by
  refine keeps_get fun w => ?_
  split
  · exact db_begin_keeps chores i
  · exact own_direct_keeps chores i _ (by trivial) _
  · exact robust_begin_keeps chores i

omit chores in
theorem db_abort_open {i : Nat} {w : World} : wp (dbAbort env i) (fun _ u => u.conn.isOpen = true) (fun _ _ => True) w := by
  simp only [dbAbort, direct, directExec]
  refine wp_last fun _ v => wp_mono ?_ (fun _ _ => id) (fun _ _ => id)
  rw [wp_bind, wp_bind]
  refine wp_mono (wp_ends _ _) (fun _ u _ => ?_) (fun _ _ => id)
  refine wp_mono (Connection.exec_heard any_upkeep any_request 0) ?_ (fun _ _ => id)
  rintro _ t ⟨v, _, isOpen, _, _, quiet⟩
  exact quiet.isOpen.trans (answered_open.trans isOpen)

theorem do_abort_keeps (i : Nat) : Keeps R (doAbort env i) := by
  intro w
  simp only [doAbort]
  rw [Prog.bind_apply, Prog.get_apply]
  dsimp only
  cases (w.trans i).kind with
  | work => exact db_abort_keeps chores i w
  | subtransaction parent => exact own_direct_keeps chores i _ (by trivial) _ w
  | robust =>
    refine bind_after chores.toFraming ?_ fun _ u isOpen => delete_transaction_record_open chores i u isOpen
    exact wp_mono (wp_and (wp_keeps (db_abort_keeps chores i)) db_abort_open) (fun _ _ => id) (fun _ _ kept => kept.1)

theorem end_closed_keeps (i : Nat) : Keeps R (endClosed i) := by
  refine keeps_bind chores.toFraming (noticing_keeps chores (check_pending_error_keeps chores i)) fun _ => keeps_get fun w => ?_
  refine keeps_when chores.toFraming _ ?_
  exact keeps_bind chores.toFraming (chores.notes i _ (fun _ => rfl) fun _ => .inl rfl) fun _ => Connection.unregister_keeps chores i

theorem note_focus_keeps (x : Transaction) : Keeps R (noteFocus x) := by
  simp only [noteFocus]
  split
  · exact keeps_pure chores.toFraming _
  · exact chores.notices _

end Transaction

end

end Pqxx
