import Pqxx.Connection
import Pqxx.ServerSpec

set_option autoImplicit false

namespace Pqxx

open Lib Prog

-- What becomes of a connection_base's members while the library only sees to the
-- connection: none of them tells the client anything new, save that a new session has no
-- prepared statements yet.
structure Tended (c c' : Connection) : Prop where
  policy : c'.policy = c.policy
  inhibitReactivation : c'.inhibitReactivation = c.inhibitReactivation
  reactivationAvoidance : c'.reactivationAvoidance = c.reactivationAvoidance
  uniqueId : c'.uniqueId = c.uniqueId
  vars : c'.vars = c.vars
  receivers : c'.receivers = c.receivers
  prepared : c'.prepared = c.prepared ∨ c'.prepared = c.prepared.mapValues fun _ p => { p with registered := false }
  trans : c'.trans = c.trans

theorem tended_refl (c : Connection) : Tended c c := ⟨rfl, rfl, rfl, rfl, rfl, rfl, .inl rfl, rfl⟩

theorem tended_handle (c : Connection) (handle : Option Handle) : Tended c { c with handle } := ⟨rfl, rfl, rfl, rfl, rfl, rfl, .inl rfl, rfl⟩

theorem tended_completed (c : Connection) (completed : Bool) : Tended c { c with completed } := ⟨rfl, rfl, rfl, rfl, rfl, rfl, .inl rfl, rfl⟩

theorem tended_version (c : Connection) (serverversion : Nat) : Tended c { c with serverversion } :=
  ⟨rfl, rfl, rfl, rfl, rfl, rfl, .inl rfl, rfl⟩

theorem tended_unregistered (c : Connection) :
    Tended c { c with prepared := c.prepared.mapValues fun _ p => { p with registered := false } } :=
  ⟨rfl, rfl, rfl, rfl, rfl, rfl, .inr rfl, rfl⟩

theorem unregistered_twice (m : OrdMap String PreparedDef) :
    (m.mapValues fun _ p => { p with registered := false }).mapValues (fun _ p => { p with registered := false }) =
      m.mapValues fun _ p => { p with registered := false } := by
  simp only [OrdMap.mapValues, List.map_map, Function.comp_def]

theorem tended_trans {c c' c'' : Connection} (left : Tended c c') (right : Tended c' c'') : Tended c c'' where
  policy := right.policy.trans left.policy
  inhibitReactivation := right.inhibitReactivation.trans left.inhibitReactivation
  reactivationAvoidance := right.reactivationAvoidance.trans left.reactivationAvoidance
  uniqueId := right.uniqueId.trans left.uniqueId
  vars := right.vars.trans left.vars
  receivers := right.receivers.trans left.receivers
  prepared := by
    rcases right.prepared with same | reset
    · rw [same]
      exact left.prepared
    · rcases left.prepared with same | again
      · rw [reset, same]
        exact .inr rfl
      · rw [reset, again, unregistered_twice]
        exact .inr rfl
  trans := right.trans.trans left.trans

-- A relation that holds across all that the connection does on its own account:
-- connecting, losing a connection, and restoring a session's state.
structure Upkeep (env : Outside) (R : World → World → Prop) : Prop extends Framing R where
  link : ∀ w w', Tended w.conn w'.conn → w'.trans = w.trans → w'.server = w.server → w'.sent = w.sent → w.clock ≤ w'.clock → R w w'
  ends : ∀ w w', Tended w.conn w'.conn → w'.trans = w.trans → w'.server = w.server.newSession → w'.sent = w.sent →
    w.clock ≤ w'.clock → R w w'
  asks : ∀ w batch, (∀ sql ∈ batch, sql.restoring) → R w (w.ask batch true)
  restores : ∀ w batch, (∀ sql ∈ batch, sql.restoring) →
    R w ((w.ask batch true).serve (w.server.serveBatch env w.clock batch).2)

theorem tended_upkeep (env : Outside) : Upkeep env (fun w w' => Tended w.conn w'.conn) where
  same := fun w => tended_refl w.conn
  onward := fun _ _ _ => tended_trans
  link := fun _ _ tended _ _ _ _ => tended
  ends := fun _ _ tended _ _ _ _ => tended
  asks := fun w _ _ => tended_handle w.conn _
  restores := fun w _ _ => tended_handle w.conn _

-- One that takes any change to the connection's members.
structure Background (env : Outside) (R : World → World → Prop) : Prop extends Framing R where
  link : ∀ w w', w'.trans = w.trans → w'.server = w.server → w'.sent = w.sent → w.clock ≤ w'.clock → R w w'
  ends : ∀ w w', w'.trans = w.trans → w'.server = w.server.newSession → w'.sent = w.sent → w.clock ≤ w'.clock → R w w'
  asks : ∀ w batch, (∀ sql ∈ batch, sql.restoring) → R w (w.ask batch true)
  restores : ∀ w batch, (∀ sql ∈ batch, sql.restoring) →
    R w ((w.ask batch true).serve (w.server.serveBatch env w.clock batch).2)

theorem Background.upkeep {env : Outside} {R : World → World → Prop} (back : Background env R) : Upkeep env R where
  toFraming := back.toFraming
  link := fun w w' _ => back.link w w'
  ends := fun w w' _ => back.ends w w'
  asks := back.asks
  restores := back.restores

-- And one that holds across a request of the client's.
structure Request (env : Outside) (R : World → World → Prop) (sql : Sql) : Prop where
  asks : ∀ w, R w (w.ask [sql] false)
  served : ∀ w, R w ((w.ask [sql] false).serve (w.server.serve env w.clock 0 sql).2)

def Later (w w' : World) : Prop := w.clock ≤ w'.clock

theorem later_background (env : Outside) : Background env Later where
  same := fun _ => Nat.le_refl _
  onward := fun _ _ _ => Nat.le_trans
  link := fun _ _ _ _ _ later => later
  ends := fun _ _ _ _ _ later => later
  asks := fun _ _ _ => Nat.le_succ _
  restores := fun _ _ _ => Nat.le_succ _

theorem later_request (env : Outside) (sql : Sql) : Request env Later sql where
  asks := fun _ => Nat.le_succ _
  served := fun _ => Nat.le_succ _

section

variable {env : Outside} {R : World → World → Prop} (up : Upkeep env R)

include up

theorem fault_keeps {α : Type} (kind : ExnKind) (what : String) : Keeps R (fault kind what : Client α) :=
  keeps_throw up.toFraming _

theorem tend_conn_keeps (f : Connection → Connection) (tends : ∀ c, Tended c (f c)) : Keeps R (modifyConn f) :=
  keeps_modify _ fun w => up.link w _ (tends w.conn) rfl rfl rfl (Nat.le_refl _)

theorem modify_handle_keeps (f : Handle → Handle) : Keeps R (modifyHandle f) := tend_conn_keeps up _ fun c => tended_handle c _

theorem set_completed_keeps (completed : Bool) : Keeps R (Connection.setCompleted completed) :=
  tend_conn_keeps up _ fun c => tended_completed c _

theorem tick_keeps : Keeps R tick := fun w => up.link w _ (tended_refl _) rfl rfl rfl (Nat.le_succ _)

theorem lose_keeps : Keeps R (Prog.modify World.lose : Client Unit) :=
  keeps_modify _ fun w => up.ends w _ (tended_handle _ _) rfl rfl rfl (Nat.le_refl _)

theorem process_notice_keeps (msg : String) : Keeps R (processNotice msg) := by
  refine keeps_modify _ fun w => ?_
  split
  · exact up.same w
  · exact up.link w _ (tended_refl _) rfl rfl rfl (Nat.le_refl _)

theorem err_msg_keeps : Keeps R (errMsg env) := fun w => up.same w

theorem pq_exec_keeps {sql : Sql} (request : Request env R sql) : Keeps R (pqExec env sql) := by
  intro w
  simp only [pqExec, Prog.bind_apply, Prog.get_apply, Prog.ite_apply]
  split
  · have asked := request.asks w
    have served := request.served w
    have lost : ∀ w', R w w' → R w w'.lose := fun w' kept =>
      up.onward _ _ _ kept (up.ends w' _ (tended_handle _ _) rfl rfl rfl (Nat.le_refl _))
    rw [Prog.modify_apply]
    dsimp only
    cases env.fate w.clock with
    | answered => exact up.onward _ _ _ served (modify_handle_keeps up _ _)
    | lostBefore => exact lost _ asked
    | lostAfter => exact lost _ served
    | nullBefore => exact asked
    | nullAfter => exact served
  · exact up.same w

theorem pq_send_query_keeps (batch : List Sql) (restoring : ∀ sql ∈ batch, sql.restoring) : Keeps R (pqSendQuery env batch) := by
  intro w
  simp only [pqSendQuery, Prog.bind_apply, Prog.get_apply, Prog.ite_apply]
  split
  · have asked := up.asks w batch restoring
    have served := up.restores w batch restoring
    have lost : ∀ w', R w w' → R w w'.lose := fun w' kept =>
      up.onward _ _ _ kept (up.ends w' _ (tended_handle _ _) rfl rfl rfl (Nat.le_refl _))
    rw [Prog.modify_apply]
    dsimp only
    cases env.fate w.clock with
    | answered => exact up.onward _ _ _ served (modify_handle_keeps up _ _)
    | lostBefore => exact lost _ asked
    | lostAfter => exact lost _ served
    | nullBefore => exact up.onward _ _ _ asked (modify_handle_keeps up _ _)
    | nullAfter => exact up.onward _ _ _ served (modify_handle_keeps up _ _)
  · exact up.same w

theorem pq_get_result_keeps : Keeps R (pqGetResult env) := by
  refine keeps_get fun w => ?_
  split
  · exact keeps_pure up.toFraming _
  · rename_i h _
    refine keeps_ite _ (keeps_bind up.toFraming (tick_keeps up) fun t => ?_) (keeps_pure up.toFraming _)
    refine keeps_ite _ (keeps_bind up.toFraming (lose_keeps up) fun _ => keeps_pure up.toFraming _) ?_
    split
    · exact keeps_bind up.toFraming (modify_handle_keeps up _) fun _ => keeps_pure up.toFraming _
    · exact keeps_bind up.toFraming (modify_handle_keeps up _) fun _ => keeps_pure up.toFraming _

theorem consume_conn_keeps : Keeps R (consumeConn env) := by
  refine keeps_bind up.toFraming (tick_keeps up) fun t => ?_
  split
  · exact keeps_bind up.toFraming (modify_handle_keeps up _) fun _ => keeps_pure up.toFraming _
  · exact keeps_pure up.toFraming _
  · exact keeps_bind up.toFraming (lose_keeps up) fun _ => keeps_pure up.toFraming _

theorem pq_finish_keeps : Keeps R pqFinish := by
  refine keeps_modify _ fun w => ?_
  by_cases live : w.conn.handle.isSome = true
  · rw [if_pos live]
    exact up.ends w _ (tended_handle _ _) rfl rfl rfl (Nat.le_refl _)
  · rw [if_neg live]
    exact up.link w _ (tended_handle _ _) rfl rfl rfl (Nat.le_refl _)

theorem pq_connect_keeps : Keeps R (pqConnect env) := by
  refine keeps_bind up.toFraming (tick_keeps up) fun t => ?_
  split
  · exact keeps_bind up.toFraming (keeps_modify _ fun w => up.ends w _ (tended_handle _ _) rfl rfl rfl (Nat.le_refl _)) fun _ =>
      keeps_pure up.toFraming _
  · exact keeps_pure up.toFraming _

omit up in
theorem modify_conn_keeps (back : Background env R) (f : Connection → Connection) : Keeps R (modifyConn f) :=
  keeps_modify _ fun w => back.link w _ rfl rfl rfl (Nat.le_refl _)

namespace Connection

theorem normalconnect_keeps : Keeps R (normalconnect env) := by
  refine keeps_get fun w => ?_
  refine keeps_ite _ (keeps_pure up.toFraming _) (keeps_bind up.toFraming (pq_connect_keeps up) fun connected => ?_)
  exact keeps_ite _ (keeps_pure up.toFraming _) fun v => up.same v

theorem do_disconnect_keeps : Keeps R doDisconnect := pq_finish_keeps up

theorem start_async_keeps : Keeps R (startAsync env) := by
  refine keeps_get fun w => ?_
  refine keeps_ite _ (keeps_pure up.toFraming _) (keeps_bind up.toFraming (tick_keeps up) fun t => ?_)
  exact keeps_ite _ (fault_keeps up _ _) (tend_conn_keeps up _ fun c => tended_handle c _)

theorem do_startconnect_keeps : Keeps R (doStartconnect env) := by
  refine keeps_get fun w => ?_
  cases w.conn.policy with
  | direct => exact normalconnect_keeps up
  | async => exact start_async_keeps up
  | lazy => exact keeps_pure up.toFraming _
  | null => exact keeps_pure up.toFraming _

theorem poll_async_keeps : Keeps R (pollAsync env) := by
  refine keeps_bind up.toFraming (pq_connect_keeps up) fun connected => ?_
  refine keeps_ite _ (keeps_pure up.toFraming _) (keeps_bind up.toFraming (modify_handle_keeps up _) fun _ => ?_)
  exact fun v => up.same v

theorem do_completeconnect_keeps : Keeps R (doCompleteconnect env) := by
  refine keeps_get fun w => ?_
  cases w.conn.policy with
  | lazy => exact normalconnect_keeps up
  | async =>
      refine keeps_bind up.toFraming (keeps_when up.toFraming _ (start_async_keeps up)) (fun _ => keeps_get fun v => ?_)
      exact keeps_ite _ (poll_async_keeps up) (keeps_pure up.toFraming _)
  | direct => exact keeps_pure up.toFraming _
  | null => exact keeps_pure up.toFraming _

theorem read_capabilities_keeps : Keeps R readCapabilities := by
  refine keeps_get fun w => ?_
  split
  · exact keeps_throw up.toFraming _
  · refine keeps_bind up.toFraming (tend_conn_keeps up _ fun c => tended_version c _) (fun _ => ?_)
    exact keeps_ite _ (fault_keeps up _ _) (keeps_ite _ (fault_keeps up _ _)
      (keeps_ite _ (fault_keeps up _ _) (keeps_pure up.toFraming _)))

omit up in
theorem restore_query_restoring (c : Connection) : ∀ sql ∈ restoreQuery c, sql.restoring := by
  have listening : ∀ (receivers : List (String × Nat)) (last : String), ∀ sql ∈ listenAll last receivers, sql.restoring := by
    intro receivers
    induction receivers with
    | nil => exact fun _ _ there => absurd there List.not_mem_nil
    | cons head rest ih =>
        intro last sql there
        rw [listenAll] at there
        split at there
        · rcases List.mem_cons.mp there with rfl | there
          · trivial
          · exact ih _ sql there
        · exact ih _ sql there
  intro sql there
  rcases List.mem_append.mp there with there | there
  · exact listening _ _ sql there
  · obtain ⟨_, _, rfl⟩ := List.mem_map.mp there
    trivial

theorem drain_keeps (make : Option Answer → Client (Option Answer)) (makes : ∀ r, Keeps R (make r)) (turns : Nat) :
    Keeps R (drain env make turns) := by
  induction turns with
  | zero => exact keeps_pure up.toFraming _
  | succ turns ih =>
      refine keeps_bind up.toFraming (pq_get_result_keeps up) fun r => keeps_bind up.toFraming (makes r) fun _ => ?_
      exact keeps_ite _ ih (keeps_pure up.toFraming _)

theorem restore_keeps (make : Option Answer → Client (Option Answer)) (makes : ∀ r, Keeps R (make r)) :
    Keeps R (restore env make) := by
  refine keeps_get fun w => ?_
  refine keeps_ite _ ?_ (keeps_pure up.toFraming _)
  refine keeps_bind up.toFraming (pq_send_query_keeps up _ (restore_query_restoring w.conn)) fun _ => ?_
  exact keeps_get fun v => drain_keeps up make makes _

theorem setup_state_with_keeps (make : Option Answer → Client (Option Answer)) (makes : ∀ r, Keeps R (make r)) :
    Keeps R (setupStateWith env make) := by
  refine keeps_get fun w => ?_
  split
  · exact keeps_throw up.toFraming _
  · refine keeps_ite _ ?_ ?_
    · refine keeps_bind up.toFraming (err_msg_keeps up) fun msg => ?_
      exact keeps_bind up.toFraming (do_disconnect_keeps up) fun _ => fault_keeps up _ _
    · refine keeps_bind up.toFraming (read_capabilities_keeps up) fun _ => ?_
      refine keeps_bind up.toFraming (tend_conn_keeps up _ tended_unregistered) fun _ => ?_
      refine keeps_bind up.toFraming (restore_keeps up make makes) fun _ => ?_
      refine keeps_bind up.toFraming (set_completed_keeps up _) fun _ => keeps_get fun v => ?_
      exact keeps_ite _ (keeps_pure up.toFraming _) (fault_keeps up _ _)

theorem connect_keeps (setup : Client Unit) (sets : Keeps R setup) : Keeps R (connect env setup) := by
  refine keeps_bind up.toFraming (do_startconnect_keeps up) fun _ => ?_
  refine keeps_bind up.toFraming (do_completeconnect_keeps up) fun _ => ?_
  refine keeps_bind up.toFraming (set_completed_keeps up _) fun _ => keeps_get fun v => ?_
  exact keeps_ite _ sets (fault_keeps up _ _)

theorem activate_with_keeps (setup : Client Unit) (sets : Keeps R setup) : Keeps R (activateWith env setup) := by
  refine keeps_get fun w => ?_
  refine keeps_ite _ (keeps_pure up.toFraming _) (keeps_ite _ (fault_keeps up _ _)
    (keeps_ite _ (keeps_pure up.toFraming _) ?_))
  refine keeps_try_catch up.toFraming (connect_keeps up setup sets) fun e => ?_
  have failed : Keeps R (setCompleted false) := set_completed_keeps up _
  refine keeps_ite _ ?_ (keeps_bind up.toFraming failed fun _ => keeps_throw up.toFraming _)
  exact keeps_bind up.toFraming (do_disconnect_keeps up) fun _ =>
    keeps_bind up.toFraming failed fun _ => fault_keeps up _ _

theorem setup_level_keeps (level : Nat) : Keeps R (setupLevel env level) := by
  induction level with
  | zero => exact keeps_pure up.toFraming _
  | succ level ih =>
      exact setup_state_with_keeps up _ fun r =>
        keeps_bind up.toFraming (activate_with_keeps up _ ih) fun _ => keeps_pure up.toFraming _

theorem activate_keeps : Keeps R (activate env) := activate_with_keeps up _ (setup_level_keeps up 2)

theorem make_result_keeps (r : Option Answer) : Keeps R (makeResult env r) :=
  keeps_bind up.toFraming (activate_keeps up) fun _ => keeps_pure up.toFraming _

theorem reset_keeps : Keeps R (reset env) := by
  refine keeps_get fun w => ?_
  refine keeps_ite _ (fault_keeps up _ _) (keeps_ite _ (keeps_pure up.toFraming _) ?_)
  refine keeps_bind up.toFraming (set_completed_keeps up _) fun _ => keeps_get fun v => ?_
  refine keeps_ite _ ?_ (activate_keeps up)
  refine keeps_bind up.toFraming (pq_connect_keeps up) fun connected => ?_
  exact keeps_bind up.toFraming (keeps_when up.toFraming _ (lose_keeps up)) fun _ => setup_level_keeps up 2

theorem check_result_keeps (r : Option Answer) (query : String) : Keeps R (checkResult env r query) := by
  refine keeps_get fun w => ?_
  refine keeps_ite _ (fault_keeps up _ _) ?_
  split
  · exact keeps_bind up.toFraming (err_msg_keeps up) fun _ => fault_keeps up _ _
  · exact keeps_throw up.toFraming _
  · exact keeps_pure up.toFraming _

theorem deliver_all_keeps (n : Notify) (receivers : List (String × Nat)) : Keeps R (deliverAll env n receivers) := by
  induction receivers with
  | nil => exact keeps_pure up.toFraming _
  | cons receiver rest ih =>
      have called : Keeps R (deliver env n receiver) := by
        refine keeps_bind up.toFraming (tick_keeps up) fun t => ?_
        refine keeps_bind up.toFraming (keeps_modify _ fun w => up.link w _ (tended_refl _) rfl rfl rfl (Nat.le_refl _)) fun _ => ?_
        split
        · exact keeps_pure up.toFraming _
        · exact process_notice_keeps up _
      exact keeps_bind up.toFraming (keeps_when up.toFraming _ called) fun _ => ih

theorem notify_all_keeps (queue : List Notify) : Keeps R (notifyAll env queue) := by
  induction queue with
  | nil => exact keeps_pure up.toFraming _
  | cons n rest ih =>
      refine keeps_bind up.toFraming (modify_handle_keeps up _) fun _ => keeps_get fun w => ?_
      exact keeps_bind up.toFraming (deliver_all_keeps up n _) (fun _ => ih)

theorem get_notifs_keeps : Keeps R (getNotifs env) := by
  refine keeps_get fun w => ?_
  refine keeps_ite _ (keeps_pure up.toFraming _) (keeps_bind up.toFraming (consume_conn_keeps up) fun consumed => ?_)
  refine keeps_ite _ (fault_keeps up _ _) (keeps_get fun v => ?_)
  refine keeps_ite _ (keeps_pure up.toFraming _) ?_
  exact keeps_bind up.toFraming (notify_all_keeps up _) fun _ => keeps_pure up.toFraming _

section

variable {sql : Sql} (request : Request env R sql)

include request

theorem retry_keeps (retries : Nat) (r : Option Answer) : Keeps R (retry env sql retries r) := by
  induction retries generalizing r with
  | zero => exact keeps_pure up.toFraming _
  | succ retries ih =>
      refine keeps_get fun w => ?_
      refine keeps_ite _ (keeps_bind up.toFraming (reset_keeps up) fun _ => keeps_get fun v => ?_)
        (keeps_pure up.toFraming _)
      refine keeps_ite _ ?_ (ih r)
      refine keeps_bind up.toFraming (pq_exec_keeps up request) fun r => ?_
      exact keeps_bind up.toFraming (make_result_keeps up r) fun r => ih r

theorem exec_keeps (retries : Nat) : Keeps R (exec env sql retries) := by
  refine keeps_bind up.toFraming (activate_keeps up) fun _ => ?_
  refine keeps_bind up.toFraming (pq_exec_keeps up request) fun r => ?_
  refine keeps_bind up.toFraming (make_result_keeps up r) fun r => ?_
  refine keeps_bind up.toFraming (retry_keeps up request retries r) fun r => ?_
  refine keeps_bind up.toFraming (check_result_keeps up r _) fun rows => ?_
  exact keeps_bind up.toFraming (get_notifs_keeps up) fun _ => keeps_pure up.toFraming _

end

end Connection

end

end Pqxx
