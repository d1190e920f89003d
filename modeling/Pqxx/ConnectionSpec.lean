import Pqxx.ConnectionBackground

set_option autoImplicit false

namespace Pqxx

open Lib Prog

-- Time has passed on the connection, and libpq may hold other notifications, but the
-- session and everything the client has are as they were.
structure Quiet (w w' : World) : Prop where
  trans : w'.trans = w.trans
  server : w'.server = w.server
  sent : w'.sent = w.sent
  isOpen : w'.conn.isOpen = w.conn.isOpen
  conn : ∃ handle, w'.conn = { w.conn with handle }
  later : w.clock ≤ w'.clock

-- The connection is closed, whatever it was, and the session over.
structure Cut (w w' : World) (server : Server) : Prop where
  trans : w'.trans = w.trans
  server : w'.server = server.newSession
  closed : w'.conn.isOpen = false
  conn : ∃ handle completed, w'.conn = { w.conn with handle, completed }
  later : w.clock ≤ w'.clock

theorem quiet_refl (w : World) : Quiet w w := ⟨rfl, rfl, rfl, rfl, ⟨w.conn.handle, rfl⟩, Nat.le_refl _⟩

theorem quiet_trans {w w' w'' : World} (left : Quiet w w') (right : Quiet w' w'') : Quiet w w'' := by
  obtain ⟨_, one⟩ := left.conn
  obtain ⟨h, two⟩ := right.conn
  exact ⟨right.trans.trans left.trans, right.server.trans left.server, right.sent.trans left.sent, right.isOpen.trans left.isOpen,
    ⟨h, by rw [two, one]⟩, Nat.le_trans left.later right.later⟩

theorem open_handle {c : Connection} (isOpen : c.isOpen = true) : ∃ h, c.handle = some h ∧ h.status = .ok ∧ c.completed = true := by
  simp only [Connection.isOpen, Bool.and_eq_true, Option.any_eq_true, decide_eq_true_eq] at isOpen
  obtain ⟨completed, h, handle, status⟩ := isOpen
  exact ⟨h, handle, status, completed⟩

theorem lost_closed (w : World) : w.lose.conn.isOpen = false := by
  simp only [World.lose, Connection.isOpen, Option.any_map]
  cases w.conn.handle <;> simp

theorem cut_lose (w : World) : Cut w w.lose w.server :=
  ⟨rfl, rfl, lost_closed w, ⟨_, w.conn.completed, rfl⟩, Nat.le_refl _⟩

-- What the client finds when its request has been answered.
def World.answered (w : World) (env : Outside) (sql : Sql) : World :=
  let served := w.server.serve env w.clock 0 sql
  let asked := (w.ask [sql] false).serve served.2
  { asked with conn := { asked.conn with
    handle := asked.conn.handle.map fun h => { h with copying := served.1.copying (env.copyLines w.clock) sql } } }

section

variable {env : Outside} {w : World} {sql : Sql}

theorem asked_open (batch : List Sql) (active : Bool) : (w.ask batch active).conn.isOpen = w.conn.isOpen := by
  simp only [World.ask, Connection.isOpen, Option.any_map]

theorem answered_open : (w.answered env sql).conn.isOpen = w.conn.isOpen := by
  simp only [World.answered, World.serve, World.ask, Connection.isOpen, Option.any_map]

theorem pq_exec_apply (h : Handle) (handle : w.conn.handle = some h) (status : h.status = .ok) :
    pqExec env sql w = match env.fate w.clock with
      | .answered => (.ok (some (w.server.serve env w.clock 0 sql).1), w.answered env sql)
      | .lostBefore => (.ok none, (w.ask [sql] false).lose)
      | .lostAfter => (.ok none, ((w.ask [sql] false).serve (w.server.serve env w.clock 0 sql).2).lose)
      | .nullBefore => (.ok none, w.ask [sql] false)
      | .nullAfter => (.ok none, (w.ask [sql] false).serve (w.server.serve env w.clock 0 sql).2) := by
  have live : w.conn.handle.any (fun h => h.status = .ok) = true := by simp [handle, status]
  simp only [pqExec, Prog.bind_apply, Prog.get_apply, if_pos live, Prog.modify_apply]
  cases env.fate w.clock <;> rfl

theorem pq_exec_dead (dead : w.conn.handle.any (fun h => h.status = .ok) = false) : pqExec env sql w = (.ok none, w) := by
  have dead : ¬ w.conn.handle.any (fun h => h.status = .ok) = true := by simp [dead]
  simp only [pqExec, Prog.bind_apply, Prog.get_apply, if_neg dead, Prog.pure_apply]

namespace Connection

theorem activate_open (isOpen : w.conn.isOpen = true) : activate env w = (.ok (), w) := by
  simp only [activate, activateWith, Prog.bind_apply, Prog.get_apply, if_pos isOpen, Prog.pure_apply]

theorem make_result_open (isOpen : w.conn.isOpen = true) (r : Option Answer) : makeResult env r w = (.ok r, w) := by
  simp only [makeResult, Prog.bind_apply, activate_open isOpen, Prog.pure_apply]

-- A handle that has gone bad is not connected again; it is freed and left for later.
theorem connect_bad (h : Handle) (handle : w.conn.handle = some h) (status : h.status = .bad) (setup : Client Unit) :
    connect env setup w = (.error { kind := .brokenConnection, what := "Connection to database failed" },
      { w with conn := { w.conn with completed := true } }) := by
  have there : w.conn.handle.isSome = true := by simp [handle]
  have some_ : w.conn.handle ≠ none := by simp [handle]
  have settled : ¬ w.conn.handle.any (fun h => h.status = .started) = true := by simp [handle, status]
  have started : doStartconnect env w = (.ok (), w) := by
    simp only [doStartconnect, Prog.bind_apply, Prog.get_apply]
    cases w.conn.policy <;>
      simp only [normalconnect, startAsync, Prog.bind_apply, Prog.get_apply, if_pos there, Prog.pure_apply]
  have finished : doCompleteconnect env w = (.ok (), w) := by
    simp only [doCompleteconnect, Prog.bind_apply, Prog.get_apply]
    cases w.conn.policy <;>
      simp only [normalconnect, Prog.bind_apply, Prog.get_apply, if_pos there, Prog.when_skip _ _ w some_, if_neg settled,
        Prog.pure_apply]
  have shut : ¬ Connection.isOpen { w.conn with completed := true } = true := by
    simp [Connection.isOpen, handle, status]
  simp only [connect, Prog.bind_apply, started, finished, setCompleted, modifyConn, Prog.modify_apply, Prog.get_apply, if_neg shut,
    brokenConnection, fault, Prog.throw_apply]

theorem activate_bad (h : Handle) (handle : w.conn.handle = some h) (status : h.status = .bad) (ended : w.server.newSession = w.server) :
    wp (activate env) (fun _ w' => w' = w ∧ w.conn.reactivationAvoidance ≠ 0 ∧ w.conn.inhibitReactivation = false)
      (fun e w' => e.kind = .brokenConnection ∧ Cut w w' w.server ∧ (w.conn.inhibitReactivation = false → w'.conn.handle = none)) w := by
  have shut : ¬ w.conn.isOpen = true := by simp [Connection.isOpen, handle, status]
  have closed : w.conn.isOpen = false := Bool.eq_false_iff.mpr shut
  simp only [activate, activateWith, wp_bind, wp_get]
  rw [if_neg shut]
  refine wp_ite _ _ _ _ _ _ (fun inhibited => ?_) (fun reactivating => ?_)
  · simp only [fault, wp_throw]
    exact ⟨trivial, ⟨rfl, ended.symm, closed, ⟨w.conn.handle, w.conn.completed, rfl⟩, Nat.le_refl _⟩, fun free => by
      rw [inhibited] at free
      cases free⟩
  · refine wp_ite _ _ _ _ _ _ (fun avoided => ⟨rfl, avoided, Bool.eq_false_iff.mpr reactivating⟩) (fun _ => ?_)
    rw [wp_try_catch]
    refine wp_error (connect_bad h handle status _) ?_
    have isBroken : ({ kind := .brokenConnection, what := "Connection to database failed" } : Exn).isA .brokenConnection = true := rfl
    rw [if_pos isBroken]
    refine ⟨rfl, ⟨rfl, ?_, rfl, ⟨none, false, rfl⟩, Nat.le_refl _⟩, fun _ => rfl⟩
    simp only [handle, Option.isSome_some, if_true]

theorem make_result_bad (h : Handle) (handle : w.conn.handle = some h) (status : h.status = .bad) (ended : w.server.newSession = w.server)
    (r : Option Answer) :
    wp (makeResult env r) (fun r' w' => r' = r ∧ w' = w ∧ w.conn.reactivationAvoidance ≠ 0 ∧ w.conn.inhibitReactivation = false)
      (fun e w' => e.kind = .brokenConnection ∧ Cut w w' w.server ∧ (w.conn.inhibitReactivation = false → w'.conn.handle = none)) w := by
  simp only [makeResult, wp_bind, wp_pure]
  refine wp_mono (activate_bad h handle status ended) ?_ (fun _ _ => id)
  rintro _ w' ⟨rfl, avoided⟩
  exact ⟨trivial, rfl, avoided⟩

theorem check_result_closed (closed : w.conn.isOpen = false) (r : Option Answer) (query : String) :
    checkResult env r query w = (.error { kind := .brokenConnection, what := "Connection to database failed" }, w) := by
  simp only [checkResult, Prog.bind_apply, Prog.get_apply, if_pos closed, brokenConnection, fault, Prog.throw_apply]

-- An error of the backend as an exception.
def sqlException (error : SqlError) (query : String) : Exn :=
  { kind := errorKind error.state, what := error.text, query := if errorKind error.state = .brokenConnection then "" else query }

theorem check_result_open (isOpen : w.conn.isOpen = true) (r : Option Answer) (query : String) :
    checkResult env r query w = match r with
      | none => (.error { kind := .failure, what := env.errorMessage w.clock }, w)
      | some (.failed error) => (.error (sqlException error query), w)
      | some (.rows rows) => (.ok rows, w) := by
  obtain ⟨h, handle, _⟩ := open_handle isOpen
  have shut : ¬ w.conn.isOpen = false := by simp [isOpen]
  have there : w.conn.handle.isSome = true := by simp [handle]
  simp only [checkResult, Prog.bind_apply, Prog.get_apply, if_neg shut]
  cases r with
  | none => simp only [errMsg, Prog.bind_apply, Prog.get_apply, if_pos there, Prog.pure_apply, fault, Prog.throw_apply]
  | some answer => cases answer <;> rfl

-- Receivers are called one after the other, and no exception of theirs gets out.
theorem notify_all_spec (queue : List Notify) : wp (notifyAll env queue) (fun _ w' => Quiet w w') (fun _ _ => False) w := by
  have delivering : ∀ (n : Notify) (receivers : List (String × Nat)) (v : World),
      wp (deliverAll env n receivers) (fun _ w' => Quiet v w') (fun _ _ => False) v := by
    intro n receivers
    induction receivers with
    | nil => exact quiet_refl
    | cons receiver rest ih =>
        intro v
        simp only [deliverAll, wp_bind]
        refine wp_when _ _ _ _ _ (fun _ => ?_) (fun _ => ih v)
        simp only [deliver, tick, wp_bind, wp_gets, wp_modify, wp_pure]
        cases env.receiverThrows v.clock with
        | none =>
            simp only [wp_pure]
            refine wp_mono (ih _) (fun _ _ quiet => quiet_trans ?_ quiet) (fun _ _ => id)
            exact ⟨rfl, rfl, rfl, rfl, ⟨v.conn.handle, rfl⟩, Nat.le_succ _⟩
        | some what =>
            simp only [processNotice, wp_modify]
            refine wp_mono (ih _) (fun _ _ quiet => quiet_trans ?_ quiet) (fun _ _ => id)
            split <;> exact ⟨rfl, rfl, rfl, rfl, ⟨v.conn.handle, rfl⟩, Nat.le_succ _⟩
  induction queue generalizing w with
  | nil => exact quiet_refl w
  | cons n rest ih =>
      simp only [notifyAll, modifyHandle, modifyConn, wp_bind, wp_modify, wp_get]
      refine wp_mono (delivering n _ _) (fun _ v quiet => ?_) (fun _ _ => id)
      refine wp_mono ih (fun _ _ more => quiet_trans (quiet_trans ?_ quiet) more) (fun _ _ => id)
      refine ⟨rfl, rfl, rfl, ?_, ⟨_, rfl⟩, Nat.le_refl _⟩
      simp only [Connection.isOpen, Option.any_map]

-- get_notifs() on an open connection.
theorem get_notifs_spec (isOpen : w.conn.isOpen = true) (post : Nat → World → Prop) (raised : Exn → World → Prop)
    (fine : env.consumes w.clock = .fine → ∀ n w', Quiet w w' → post n w')
    (trouble : env.consumes w.clock = .trouble → ∀ e w', e.kind = .brokenConnection → Quiet w w' → raised e w')
    (lost : env.consumes w.clock = .lost → ∀ e w', e.kind = .brokenConnection → Cut w w' w.server → raised e w') :
    wp (getNotifs env) post raised w := by
  have shut : ¬ w.conn.isOpen = false := by simp [isOpen]
  obtain ⟨h, handle, status, completed⟩ := open_handle isOpen
  simp only [getNotifs, wp_bind, wp_get]
  rw [if_neg shut]
  simp only [consumeConn, tick, wp_bind, wp_gets, wp_modify, wp_pure]
  cases consumed : env.consumes w.clock with
  | fine =>
      simp only [modifyHandle, modifyConn, wp_bind, wp_modify, wp_pure]
      rw [if_neg (by simp)]
      have picked : ∀ v : World, v = { w with clock := w.clock + 1, conn := { w.conn with
          handle := w.conn.handle.map fun h => { h with notifies := h.notifies ++ env.arrives w.clock } } } → Quiet w v := by
        rintro v rfl
        refine ⟨rfl, rfl, rfl, ?_, ⟨_, rfl⟩, Nat.le_succ _⟩
        simp only [Connection.isOpen, Option.any_map]
      refine wp_ite _ _ _ _ _ _ (fun _ => fine consumed _ _ (picked _ rfl)) (fun _ => ?_)
      simp only [wp_bind, wp_pure]
      refine wp_mono (notify_all_spec _) (fun _ _ quiet => ?_) (fun _ _ => False.elim)
      exact fine consumed _ _ (quiet_trans (picked _ rfl) quiet)
  | trouble =>
      simp only [wp_pure, if_true, brokenConnection, fault, wp_throw]
      exact trouble consumed _ _ rfl ⟨rfl, rfl, rfl, rfl, ⟨w.conn.handle, rfl⟩, Nat.le_succ _⟩
  | lost =>
      simp only [wp_bind, wp_modify, wp_pure, if_true, brokenConnection, fault, wp_throw]
      have cut := cut_lose { w with clock := w.clock + 1 }
      exact lost consumed _ _ rfl ⟨cut.trans, cut.server, cut.closed, cut.conn, Nat.le_succ _⟩

theorem retry_settled (r : Option Answer) (settled : r ≠ none ∨ w.conn.isOpen = true) (retries : Nat) :
    retry env sql retries r w = (.ok r, w) := by
  cases retries with
  | zero => rfl
  | succ retries =>
      have stays : ¬ (r = none ∧ w.conn.isOpen = false) := by
        rintro ⟨none_, shut⟩
        rcases settled with some_ | isOpen
        · exact some_ none_
        · rw [shut] at isOpen
          cases isOpen
      simp only [retry, Prog.bind_apply, Prog.get_apply, if_neg stays, Prog.pure_apply]

theorem retry_avoided (closed : w.conn.isOpen = false) (avoided : w.conn.reactivationAvoidance ≠ 0)
    (free : w.conn.inhibitReactivation = false) (retries : Nat) : retry env sql retries none w = (.ok none, w) := by
  induction retries with
  | zero => rfl
  | succ retries ih =>
      have free : ¬ w.conn.inhibitReactivation = true := by simp [free]
      simp only [retry, reset, Prog.bind_apply, Prog.get_apply, closed, and_self, if_true, Prog.ite_apply, if_neg free,
        if_pos avoided, Prog.pure_apply]
      exact ih

end Connection

-- All that can become of a statement sent over a connection that is open.
inductive Executed (env : Outside) (w : World) (sql : Sql) : Except Exn (List (List String)) → World → Prop
  | done (rows : List (List String)) (w' : World) (fate : env.fate w.clock = .answered)
      (answer : (w.server.serve env w.clock 0 sql).1 = .rows rows) (consumed : env.consumes (w.clock + 1) = .fine)
      (quiet : Quiet (w.answered env sql) w') : Executed env w sql (.ok rows) w'
  | refused (error : SqlError) (fate : env.fate w.clock = .answered)
      (answer : (w.server.serve env w.clock 0 sql).1 = .failed error) :
      Executed env w sql (.error (Connection.sqlException error sql.text)) (w.answered env sql)
  | troubled (rows : List (List String)) (e : Exn) (w' : World) (fate : env.fate w.clock = .answered)
      (answer : (w.server.serve env w.clock 0 sql).1 = .rows rows) (consumed : env.consumes (w.clock + 1) = .trouble)
      (broken : e.kind = .brokenConnection) (quiet : Quiet (w.answered env sql) w') : Executed env w sql (.error e) w'
  | dropped (rows : List (List String)) (e : Exn) (w' : World) (fate : env.fate w.clock = .answered)
      (answer : (w.server.serve env w.clock 0 sql).1 = .rows rows) (consumed : env.consumes (w.clock + 1) = .lost)
      (broken : e.kind = .brokenConnection) (cut : Cut (w.answered env sql) w' (w.answered env sql).server) :
      Executed env w sql (.error e) w'
  | unsent (fate : env.fate w.clock = .nullBefore) (e : Exn) (failure : e.kind = .failure) :
      Executed env w sql (.error e) (w.ask [sql] false)
  | unheard (fate : env.fate w.clock = .nullAfter) (e : Exn) (failure : e.kind = .failure) :
      Executed env w sql (.error e) ((w.ask [sql] false).serve (w.server.serve env w.clock 0 sql).2)
  | lostBefore (fate : env.fate w.clock = .lostBefore) (e : Exn) (w' : World) (broken : e.kind = .brokenConnection)
      (cut : Cut (w.ask [sql] false) w' w.server)
      (freed : w.conn.inhibitReactivation = false → w.conn.reactivationAvoidance = 0 → w'.conn.handle = none) :
      Executed env w sql (.error e) w'
  | lostAfter (fate : env.fate w.clock = .lostAfter) (e : Exn) (w' : World) (broken : e.kind = .brokenConnection)
      (cut : Cut (w.ask [sql] false) w' (w.server.serve env w.clock 0 sql).2)
      (freed : w.conn.inhibitReactivation = false → w.conn.reactivationAvoidance = 0 → w'.conn.handle = none) :
      Executed env w sql (.error e) w'

namespace Connection

-- What exec() does once libpq has found the connection broken.
theorem exec_lost (v : World) (server : Server) (handle : ∃ h, v.conn.handle = some h) (retries : Nat) (query : String) :
    wp (do
        let r ← makeResult env none
        let r ← retry env sql retries r
        let rows ← checkResult env r query
        let _ ← getNotifs env
        pure rows)
      (fun _ _ => False)
      (fun e w' => e.kind = .brokenConnection ∧ Cut v w' server ∧
        (v.conn.inhibitReactivation = false → v.conn.reactivationAvoidance = 0 → w'.conn.handle = none))
      ({ v with server }).lose := by
  obtain ⟨h, handle⟩ := handle
  have cut := cut_lose { v with server }
  have found : ({ v with server } : World).lose.conn.handle = some { h with status := .bad, unread := [], active := false, copying := none } := by
    simp only [World.lose, handle, Option.map_some]
  simp only [wp_bind]
  refine wp_mono (make_result_bad _ found rfl rfl none) ?_ ?_
  · rintro r w' ⟨rfl, rfl, avoided, free⟩
    have closed := cut.closed
    refine wp_ok (retry_avoided closed avoided free retries) (wp_error (check_result_closed closed none _) ?_)
    exact ⟨rfl, ⟨cut.trans, cut.server, cut.closed, cut.conn, cut.later⟩, fun _ none_ => absurd none_ avoided⟩
  · rintro e w' ⟨broken, cut', freed⟩
    obtain ⟨_, completed, one⟩ := cut.conn
    obtain ⟨handle', completed', two⟩ := cut'.conn
    refine ⟨broken, ⟨cut'.trans.trans cut.trans, cut'.server, cut'.closed, ⟨handle', completed', ?_⟩,
      Nat.le_trans cut.later cut'.later⟩, fun free _ => freed free⟩
    rw [two, one]

theorem exec_open (isOpen : w.conn.isOpen = true) (retries : Nat) :
    wp (exec env sql retries) (fun rows w' => Executed env w sql (.ok rows) w') (fun e w' => Executed env w sql (.error e) w') w := by
  obtain ⟨h, handle, status, _⟩ := open_handle isOpen
  have stays : (w.answered env sql).conn.isOpen = true := answered_open.trans isOpen
  have sent := @pq_exec_apply env w sql h handle status
  have asked : ∃ h, (w.ask [sql] false).conn.handle = some h := by simp [World.ask, handle]
  simp only [exec]
  rw [wp_bind]
  refine wp_ok (activate_open isOpen) ?_
  rw [wp_bind]
  cases fate : env.fate w.clock with
  | answered =>
      rw [fate] at sent
      refine wp_ok sent ?_
      simp only [wp_bind]
      refine wp_ok (make_result_open stays _) (wp_ok (retry_settled _ (.inr stays) retries) ?_)
      cases answer : (w.server.serve env w.clock 0 sql).1 with
      | failed error =>
          exact wp_error (check_result_open stays _ _) (.refused error fate answer)
      | rows rows =>
          refine wp_ok (check_result_open stays _ _) (get_notifs_spec stays _ _ ?_ ?_ ?_)
          · exact fun consumed _ w' quiet => .done rows w' fate answer consumed quiet
          · exact fun consumed e w' broken quiet => .troubled rows e w' fate answer consumed broken quiet
          · exact fun consumed e w' broken cut => .dropped rows e w' fate answer consumed broken cut
  | lostBefore =>
      rw [fate] at sent
      refine wp_ok sent ?_
      have lost := @exec_lost env sql (w.ask [sql] false) w.server asked retries sql.text
      refine wp_mono lost (fun _ _ => False.elim) ?_
      rintro e w' ⟨broken, cut, freed⟩
      exact .lostBefore fate e w' broken cut freed
  | lostAfter =>
      rw [fate] at sent
      refine wp_ok sent ?_
      have lost := @exec_lost env sql (w.ask [sql] false) (w.server.serve env w.clock 0 sql).2 asked retries sql.text
      refine wp_mono lost (fun _ _ => False.elim) ?_
      rintro e w' ⟨broken, cut, freed⟩
      exact .lostAfter fate e w' broken cut freed
  | nullBefore =>
      rw [fate] at sent
      have stays : (w.ask [sql] false).conn.isOpen = true := (asked_open [sql] false).trans isOpen
      refine wp_ok sent ?_
      simp only [wp_bind]
      refine wp_ok (make_result_open stays _) (wp_ok (retry_settled _ (.inr stays) retries) ?_)
      exact wp_error (check_result_open stays _ _) (.unsent fate _ rfl)
  | nullAfter =>
      rw [fate] at sent
      have stays : ((w.ask [sql] false).serve (w.server.serve env w.clock 0 sql).2).conn.isOpen = true :=
        (asked_open [sql] false).trans isOpen
      refine wp_ok sent ?_
      simp only [wp_bind]
      refine wp_ok (make_result_open stays _) (wp_ok (retry_settled _ (.inr stays) retries) ?_)
      exact wp_error (check_result_open stays _ _) (.unheard fate _ rfl)

theorem setup_state_with_ends (make : Option Answer → Client (Option Answer)) :
    wp (setupStateWith env make) (fun _ w' => w'.conn.isOpen = true) (fun _ _ => True) w := by
  simp only [setupStateWith]
  refine wp_last fun v s => ?_
  split
  · trivial
  · refine wp_ite _ _ _ _ _ _ (fun _ => wp_last fun _ _ => wp_last fun _ _ => trivial) (fun _ => ?_)
    refine wp_last fun _ _ => wp_last fun _ _ => wp_last fun _ _ => wp_last fun _ s => ?_
    rw [wp_bind, wp_get]
    exact wp_ite _ _ _ _ _ _ (fun isOpen => isOpen) (fun _ => trivial)

theorem activate_ends :
    wp (activate env) (fun _ w' => w'.conn.isOpen = true ∨ w'.conn.reactivationAvoidance ≠ 0) (fun _ _ => True) w := by
  simp only [activate, activateWith]
  rw [wp_bind, wp_get]
  refine wp_ite _ _ _ _ _ _ (fun isOpen => .inl isOpen) (fun _ => wp_ite _ _ _ _ _ _ (fun _ => trivial) (fun _ => ?_))
  refine wp_ite _ _ _ _ _ _ (fun avoided => .inr avoided) (fun _ => ?_)
  rw [wp_try_catch]
  have connected : wp (connect env (setupState env)) (fun _ w' => w'.conn.isOpen = true) (fun _ _ => True) w := by
    simp only [connect]
    refine wp_last fun _ _ => wp_last fun _ _ => wp_last fun _ _ => wp_last fun v s => ?_
    exact wp_ite _ _ _ _ _ _ (fun _ => setup_state_with_ends _) (fun _ => trivial)
  refine wp_mono connected (fun _ _ isOpen => .inl isOpen) (fun e v _ => ?_)
  refine wp_ite _ _ _ _ _ _ (fun _ => wp_last fun _ _ => wp_last fun _ _ => trivial) (fun _ => wp_last fun _ _ => trivial)

theorem activate_settled (settled : w.conn.isOpen = true ∨ w.conn.reactivationAvoidance ≠ 0) :
    wp (activate env) (fun _ w' => w' = w) (fun _ _ => True) w := by
  simp only [activate, activateWith]
  rw [wp_bind, wp_get]
  refine wp_ite _ _ _ _ _ _ (fun _ => rfl) (fun closed => wp_ite _ _ _ _ _ _ (fun _ => trivial) (fun _ => ?_))
  refine wp_ite _ _ _ _ _ _ (fun _ => rfl) (fun avoided => ?_)
  rcases settled with isOpen | avoid
  · exact absurd isOpen closed
  · exact absurd avoid avoided

-- The answer is that of the backend to the request made in v.
def Heard (env : Outside) (sql : Sql) (v : World) (r : Option Answer) (w' : World) : Prop :=
  env.fate v.clock = .answered ∧ r = some (v.server.serve env v.clock 0 sql).1 ∧ w' = v.answered env sql

theorem pq_exec_heard : wp (pqExec env sql) (fun r w' => r = none ∨ Heard env sql w r w') (fun _ _ => False) w := by
  cases dead : w.conn.handle.any (fun h => h.status = .ok) with
  | false => exact wp_ok (pq_exec_dead dead) (.inl rfl)
  | true =>
      obtain ⟨h, handle, status⟩ := (Option.any_eq_true _ _).mp dead
      have sent := @pq_exec_apply env w sql h handle (of_decide_eq_true status)
      cases fate : env.fate w.clock with
      | answered =>
          rw [fate] at sent
          exact wp_ok sent (.inr ⟨fate, rfl, rfl⟩)
      | lostBefore | lostAfter | nullBefore | nullAfter =>
          rw [fate] at sent
          exact wp_ok sent (.inl rfl)

section

variable {R : World → World → Prop} (up : Upkeep env R) (request : Request env R sql)

-- Where the result at hand comes from, after whatever it took to get it.
def Arrived (env : Outside) (R : World → World → Prop) (sql : Sql) (w : World) (r : Option Answer) (w' : World) : Prop :=
  R w w' ∧ (r = none ∨ ∃ v, R w v ∧ Heard env sql v r w')

include up request

-- One round of sending the statement, on a connection that is not about to change.
theorem round_arrives (v : World) (kept : R w v) (settled : v.conn.isOpen = true ∨ v.conn.reactivationAvoidance ≠ 0) :
    wp (do
        let r ← pqExec env sql
        makeResult env r)
      (fun r w' => Arrived env R sql w r w') (fun _ _ => True) v := by
  rw [wp_bind]
  refine wp_mono (wp_and pq_exec_heard (wp_keeps (pq_exec_keeps up request))) ?_ (fun _ _ _ => trivial)
  rintro r u ⟨heard, onward⟩
  have reached := up.onward _ _ _ kept onward
  have made : wp (makeResult env r) (fun r' w' => r' = r ∧ R u w') (fun _ _ => True) u := by
    simp only [makeResult, wp_bind, wp_pure]
    exact wp_mono (wp_keeps (activate_keeps up)) (fun _ _ more => ⟨trivial, more⟩) (fun _ _ _ => trivial)
  rcases heard with rfl | ⟨fate, rfl, rfl⟩
  · refine wp_mono made ?_ (fun _ _ => id)
    rintro r w' ⟨rfl, more⟩
    exact ⟨up.onward _ _ _ reached more, .inl rfl⟩
  · have still : (v.answered env sql).conn.isOpen = true ∨ (v.answered env sql).conn.reactivationAvoidance ≠ 0 := by
      rw [answered_open]
      exact settled
    simp only [makeResult, wp_bind, wp_pure]
    refine wp_mono (activate_settled still) ?_ (fun _ _ => id)
    rintro _ w' rfl
    exact ⟨reached, .inr ⟨v, kept, fate, rfl, rfl⟩⟩

theorem retry_arrives (retries : Nat) (r : Option Answer) (v : World) (arrived : Arrived env R sql w r v) :
    wp (retry env sql retries r) (fun r w' => Arrived env R sql w r w') (fun _ _ => True) v := by
  induction retries generalizing r v with
  | zero => exact arrived
  | succ retries ih =>
      simp only [retry]
      rw [wp_bind, wp_get]
      refine wp_ite _ _ _ _ _ _ ?_ (fun _ => arrived)
      rintro ⟨rfl, _⟩
      rw [wp_bind]
      refine wp_mono (wp_keeps (reset_keeps up)) ?_ (fun _ _ _ => trivial)
      intro _ u more
      have kept := up.onward _ _ _ arrived.1 more
      rw [wp_bind, wp_get]
      refine wp_ite _ _ _ _ _ _ (fun isOpen => ?_) (fun _ => ih none u ⟨kept, .inl rfl⟩)
      have round := @round_arrives env w sql R up request u kept (.inl isOpen)
      rw [wp_bind] at round ⊢
      refine wp_mono round (fun r t made => ?_) (fun _ _ => id)
      rw [wp_bind]
      exact wp_mono made (fun r t arrived => ih r t arrived) (fun _ _ => id)

-- exec() returns the rows of a request that was made on an open connection, and the
-- connection has been quiet since.
theorem exec_heard (retries : Nat) :
    wp (exec env sql retries)
      (fun rows w' => ∃ v, R w v ∧ v.conn.isOpen = true ∧ env.fate v.clock = .answered ∧
        (v.server.serve env v.clock 0 sql).1 = .rows rows ∧ Quiet (v.answered env sql) w')
      (fun _ _ => True) w := by
  simp only [exec]
  rw [wp_bind]
  refine wp_mono (wp_and activate_ends (wp_keeps (activate_keeps up))) ?_ (fun _ _ _ => trivial)
  rintro _ v ⟨settled, kept⟩
  have round := @round_arrives env w sql R up request v kept settled
  rw [wp_bind] at round ⊢
  refine wp_mono round (fun r t made => ?_) (fun _ _ => id)
  rw [wp_bind]
  refine wp_mono made (fun r t arrived => ?_) (fun _ _ => id)
  rw [wp_bind]
  refine wp_mono (retry_arrives up request retries r t arrived) (fun r u arrived => ?_) (fun _ _ => id)
  simp only [wp_bind, wp_pure]
  cases isOpen : u.conn.isOpen with
  | false => exact wp_error (check_result_closed isOpen r _) trivial
  | true =>
      have checked := @check_result_open env u isOpen r sql.text
      rcases arrived with ⟨_, rfl | ⟨v, kept, fate, rfl, rfl⟩⟩
      · exact wp_error checked trivial
      · cases answer : (v.server.serve env v.clock 0 sql).1 with
        | failed error =>
            rw [answer] at checked
            exact wp_error checked trivial
        | rows rows =>
            rw [answer] at checked
            refine wp_ok checked (get_notifs_spec isOpen _ _ ?_ (fun _ _ _ _ _ => trivial) (fun _ _ _ _ _ => trivial))
            exact fun _ _ w' quiet => ⟨v, kept, answered_open.symm.trans isOpen, fate, answer, quiet⟩

end

end Connection

end

end Pqxx
