import Pqxx.TransactionBackground

set_option autoImplicit false

namespace Pqxx

open Lib Prog

-- All that is sent arrives, is taken by the backend, and is answered.
structure Outside.Smooth (env : Outside) : Prop where
  fate : ∀ t, env.fate t = .answered
  refuses : ∀ t i, env.refuses t i = none
  consumes : ∀ t, env.consumes t = .fine

def World.statuses (w : World) (j : Nat) : Status := (w.trans j).status

-- What a call comes to as far as the session and the standing of transactions go.
structure Turned (server : Server) (statuses : Nat → Status) (w w' : World) : Prop where
  server : w'.server = server
  status : ∀ j, (w'.trans j).status = statuses j
  isOpen : w'.conn.isOpen = w.conn.isOpen
  ids : w'.conn.uniqueId = w.conn.uniqueId
  kind : ∀ j, (w'.trans j).kind = (w.trans j).kind
  name : ∀ j, (w'.trans j).name = (w.trans j).name
  pendingError : ∀ j, (w'.trans j).pendingError = (w.trans j).pendingError
  focus : ∀ j, (w'.trans j).focus = (w.trans j).focus

def turn (i : Nat) (status : Status) (statuses : Nat → Status) (j : Nat) : Status := if j = i then status else statuses j

section

variable {env : Outside} {server server' : Server} {statuses statuses' : Nat → Status} {i : Nat} {w w' w'' : World}

theorem turned_onward (one : Turned server statuses w w') (two : Turned server' statuses' w' w'') : Turned server' statuses' w w'' where
  server := two.server
  status := two.status
  isOpen := two.isOpen.trans one.isOpen
  ids := two.ids.trans one.ids
  kind j := (two.kind j).trans (one.kind j)
  name j := (two.name j).trans (one.name j)
  pendingError j := (two.pendingError j).trans (one.pendingError j)
  focus j := (two.focus j).trans (one.focus j)

-- A call that leaves both as they are may come after another.
theorem turned_still (one : Turned server statuses w w') (two : Turned w'.server w'.statuses w' w'') : Turned server statuses w w'' := by
  have onward := turned_onward one two
  exact { onward with server := two.server.trans one.server, status := fun j => (two.status j).trans (one.status j) }

theorem turned_quiet (quiet : Quiet w w') : Turned w.server w.statuses w w' := by
  obtain ⟨_, conn⟩ := quiet.conn
  refine ⟨quiet.server, ?_, quiet.isOpen, by rw [conn], ?_, ?_, ?_, ?_⟩
  all_goals
    rw [quiet.trans]
    exact fun _ => rfl

theorem turned_conn (f : Connection → Connection) (isOpen : (f w.conn).isOpen = w.conn.isOpen) (ids : (f w.conn).uniqueId = w.conn.uniqueId) :
    Turned w.server w.statuses w { w with conn := f w.conn } :=
  ⟨rfl, fun _ => rfl, isOpen, ids, fun _ => rfl, fun _ => rfl, fun _ => rfl, fun _ => rfl⟩

-- What a transaction notes for itself is neither its status nor what a status depends on.
theorem turned_note (f : Transaction → Transaction)
    (same : ∀ x, (f x).status = x.status ∧ (f x).kind = x.kind ∧ (f x).name = x.name ∧ (f x).pendingError = x.pendingError ∧ (f x).focus = x.focus) :
    wp (modifyTrans i f) (fun _ u => Turned w.server w.statuses w u) (fun _ _ => False) w := by
  have field {β : Type} (of : Transaction → β) (kept : ∀ x, of (f x) = of x) (j : Nat) :
      of (if j = i then f (w.trans j) else w.trans j) = of (w.trans j) := by
    split
    · exact kept _
    · rfl
  exact ⟨rfl, field Transaction.status fun x => (same x).1, rfl, rfl, field Transaction.kind fun x => (same x).2.1,
    field Transaction.name fun x => (same x).2.2.1, field Transaction.pendingError fun x => (same x).2.2.2.1,
    field Transaction.focus fun x => (same x).2.2.2.2⟩

theorem turned_set_status (status : Status) :
    wp (Transaction.setStatus i status) (fun _ u => Turned w.server (turn i status w.statuses) w u) (fun _ _ => False) w := by
  have field {β : Type} (of : Transaction → β) (kept : ∀ x : Transaction, of { x with status } = of x) (j : Nat) :
      of (if j = i then { w.trans j with status } else w.trans j) = of (w.trans j) := by
    split
    · exact kept _
    · rfl
  refine ⟨rfl, fun j => ?_, rfl, rfl, field Transaction.kind fun _ => rfl, field Transaction.name fun _ => rfl,
    field Transaction.pendingError fun _ => rfl, field Transaction.focus fun _ => rfl⟩
  simp only [turn, World.statuses]
  split
  · rfl
  · rfl

theorem turned_notice (msg : String) :
    wp (processNotice msg) (fun _ u => Turned w.server w.statuses w u) (fun _ _ => False) w := by
  simp only [processNotice, wp_modify]
  split <;> exact ⟨rfl, fun _ => rfl, rfl, rfl, fun _ => rfl, fun _ => rfl, fun _ => rfl, fun _ => rfl⟩

theorem smooth_serve (smooth : env.Smooth) (s : Server) (t i : Nat) (sql : Sql) : s.serve env t i sql = s.perform env t sql := by
  rw [Server.serve, smooth.refuses]

theorem turned_exec (smooth : env.Smooth) {sql : Sql} {rows : List (List String)} (isOpen : w.conn.isOpen = true)
    (answer : (w.server.perform env w.clock sql).1 = .rows rows) (retries : Nat) :
    wp (Connection.exec env sql retries) (fun _ u => Turned (w.server.perform env w.clock sql).2 w.statuses w u) (fun _ _ => False) w := by
  have serves := smooth_serve smooth w.server w.clock 0 sql
  have failing {error : SqlError} (failed : (w.server.serve env w.clock 0 sql).1 = .failed error) : False := by
    rw [serves, answer] at failed
    cases failed
  refine wp_mono (Connection.exec_open isOpen retries) ?_ ?_
  · intro rows u done
    cases done with
    | done _ _ _ _ _ quiet =>
        have answered : Turned (w.server.perform env w.clock sql).2 w.statuses w (w.answered env sql) :=
          ⟨by rw [← serves]; rfl, fun _ => rfl, answered_open, rfl, fun _ => rfl, fun _ => rfl, fun _ => rfl, fun _ => rfl⟩
        exact turned_still answered (turned_quiet quiet)
  · intro e u ends
    cases ends with
    | refused _ _ failed => exact failing failed
    | troubled _ _ _ _ _ consumed _ _ => rw [smooth.consumes] at consumed; cases consumed
    | dropped _ _ _ _ _ consumed _ _ => rw [smooth.consumes] at consumed; cases consumed
    | unsent fate _ => rw [smooth.fate] at fate; cases fate
    | unheard fate _ => rw [smooth.fate] at fate; cases fate
    | lostBefore fate _ _ => rw [smooth.fate] at fate; cases fate
    | lostAfter fate _ _ => rw [smooth.fate] at fate; cases fate

theorem turned_get_notifs (smooth : env.Smooth) (isOpen : w.conn.isOpen = true) :
    wp (Connection.getNotifs env) (fun _ u => Turned w.server w.statuses w u) (fun _ _ => False) w := by
  refine Connection.get_notifs_spec isOpen _ _ (fun _ _ _ quiet => turned_quiet quiet) ?_ ?_
  · intro trouble
    rw [smooth.consumes] at trouble
    cases trouble
  · intro lost
    rw [smooth.consumes] at lost
    cases lost

namespace Transaction

theorem turned_direct_exec (smooth : env.Smooth) {sql : Sql} {rows : List (List String)} (isOpen : w.conn.isOpen = true)
    (clean : (w.trans i).pendingError = "") (answer : (w.server.perform env w.clock sql).1 = .rows rows) (retries : Nat) :
    wp (directExec env i sql retries) (fun _ u => Turned (w.server.perform env w.clock sql).2 w.statuses w u) (fun _ _ => False) w := by
  rw [directExec, wp_bind]
  exact wp_ok (check_pending_clean clean) (turned_exec smooth isOpen answer retries)

theorem turned_direct (smooth : env.Smooth) {sql : Sql} {rows : List (List String)} (isOpen : w.conn.isOpen = true)
    (clean : (w.trans i).pendingError = "") (answer : (w.server.perform env w.clock sql).1 = .rows rows) (retries : Nat) :
    wp (direct env i sql retries) (fun _ u => Turned (w.server.perform env w.clock sql).2 w.statuses w u) (fun _ _ => False) w := by
  rw [direct, wp_bind]
  exact wp_mono (turned_direct_exec smooth isOpen clean answer retries) (fun _ _ => id) (fun _ _ => id)

theorem turned_unregister : wp (Connection.unregisterTransaction i) (fun _ u => Turned w.server w.statuses w u) (fun _ _ => False) w := by
  rw [Connection.unregisterTransaction, wp_bind, wp_get]
  cases w.conn.trans with
  | none => exact turned_notice _
  | some old => exact wp_ite _ _ _ _ _ _ (fun _ => turned_conn (fun c => { c with trans := none }) rfl rfl) fun _ => turned_notice _

theorem turned_end_closed (clean : (w.trans i).pendingError = "") :
    wp (endClosed i) (fun _ u => Turned w.server w.statuses w u) (fun _ _ => False) w := by
  have quiet : noticing (checkPendingError i) w = (.ok (), w) := by
    simp only [noticing, Prog.try_catch_apply, check_pending_clean clean]
  rw [endClosed, wp_bind]
  refine wp_ok quiet ?_
  rw [wp_bind, wp_get]
  refine wp_when _ _ _ _ _ (fun _ => ?_) fun _ => ⟨rfl, fun _ => rfl, rfl, rfl, fun _ => rfl, fun _ => rfl, fun _ => rfl, fun _ => rfl⟩
  rw [wp_bind]
  refine wp_mono (turned_note _ fun _ => ⟨rfl, rfl, rfl, rfl, rfl⟩) (fun _ u one => ?_) (fun _ _ => id)
  exact wp_mono turned_unregister (fun _ _ two => turned_still one two) (fun _ _ => id)

theorem turned_end (clean : (w.trans i).pendingError = "") (ended : (w.trans i).status ≠ .active) :
    wp (end_ env i) (fun _ u => Turned w.server w.statuses w u) (fun _ _ => False) w := by
  rw [end_, noticing, wp_try_catch, wp_bind]
  refine wp_mono (turned_end_closed clean) (fun _ u one => ?_) (fun _ _ => False.elim)
  rw [wp_bind, wp_get]
  have ended : ¬ (u.trans i).status = .active := by
    rw [one.status]
    exact ended
  rw [if_neg ended]
  exact one

-- abort() of a transaction that has begun.
theorem turned_abort (active : (w.trans i).status = .active) (clean : (w.trans i).pendingError = "") {server : Server}
    (aborts : wp (doAbort env i) (fun _ u => Turned server w.statuses w u) (fun _ _ => False) w) :
    wp (abort env i) (fun _ u => Turned server (turn i .aborted w.statuses) w u) (fun _ _ => False) w := by
  rw [abort, wp_bind, wp_get]
  simp only [active]
  rw [wp_bind, swallow, wp_try_catch]
  refine wp_mono aborts (fun _ u one => ?_) (fun _ _ => False.elim)
  rw [wp_bind]
  refine wp_mono (turned_set_status .aborted) (fun _ v two => ?_) (fun _ _ => id)
  have both : Turned server (turn i .aborted w.statuses) w v := by
    have onward := turned_onward one two
    refine { onward with server := two.server.trans one.server, status := fun j => (two.status j).trans ?_ }
    simp only [turn, World.statuses, one.status]
  exact wp_mono (turned_end_closed ((both.pendingError i).trans clean)) (fun _ _ three => turned_still both three) (fun _ _ => id)

-- And of one that has not.
theorem turned_abort_nascent (nascent : (w.trans i).status = .nascent) (clean : (w.trans i).pendingError = "") :
    wp (abort env i) (fun _ u => Turned w.server (turn i .aborted w.statuses) w u) (fun _ _ => False) w := by
  rw [abort, wp_bind, wp_get]
  simp only [nascent]
  rw [wp_bind]
  refine wp_mono (turned_set_status .aborted) (fun _ v one => ?_) (fun _ _ => id)
  exact wp_mono (turned_end_closed ((one.pendingError i).trans clean)) (fun _ _ two => turned_still one two) (fun _ _ => id)

theorem turned_commit (active : (w.trans i).status = .active) (clean : (w.trans i).pendingError = "") (plain : (w.trans i).focus = none)
    (isOpen : w.conn.isOpen = true) {server : Server}
    (commits : wp (doCommit env i) (fun _ u => Turned server w.statuses w u) (fun _ _ => False) w) :
    wp (commit env i) (fun _ u => Turned server (turn i .committed w.statuses) w u) (fun _ _ => False) w := by
  have shut : ¬ w.conn.isOpen = false := by simp [isOpen]
  rw [commit, wp_bind]
  refine wp_ok (check_pending_clean clean) ?_
  rw [wp_bind, wp_get]
  simp only [active, plain]
  rw [if_neg shut, commitActive, wp_bind, wp_try_catch, wp_bind]
  refine wp_mono commits (fun _ u one => ?_) (fun _ _ => False.elim)
  refine wp_mono (turned_set_status .committed) (fun _ v two => ?_) (fun _ _ => False.elim)
  have both : Turned server (turn i .committed w.statuses) w v := by
    have onward := turned_onward one two
    refine { onward with server := two.server.trans one.server, status := fun j => (two.status j).trans ?_ }
    simp only [turn, World.statuses, one.status]
  rw [wp_bind, wp_get, wp_bind, Connection.addVariables, modifyConn, wp_modify]
  have added := turned_still both (@turned_conn v (fun c => { c with vars := (v.trans i).vars.entries.foldl (fun m e => m.set e.1 e.2) c.vars }) rfl rfl)
  have ended : (v.trans i).status ≠ .active := by
    rw [both.status, turn, if_pos rfl]
    intro same
    cases same
  exact wp_mono (turned_end ((added.pendingError i).trans clean) ended) (fun _ _ three => turned_still added three) (fun _ _ => id)

theorem turned_begin (smooth : env.Smooth) (nascent : (w.trans i).status = .nascent) (isOpen : w.conn.isOpen = true) {P : Server → Prop}
    (begins : ∀ v, Turned w.server w.statuses w v →
      wp (doBegin env i) (fun _ u => ∃ server, P server ∧ Turned server v.statuses v u) (fun _ _ => False) v) :
    wp (begin env i) (fun _ u => ∃ server, P server ∧ Turned server (turn i .active w.statuses) w u) (fun _ _ => False) w := by
  rw [begin, wp_bind, wp_get, if_neg (by rw [nascent]; exact not_not_intro rfl), wp_try_catch, wp_bind]
  refine wp_mono (turned_get_notifs smooth isOpen) (fun _ u one => ?_) (fun _ _ => False.elim)
  rw [wp_bind]
  refine wp_mono (begins u one) (fun _ v ⟨server, served, two⟩ => ?_) (fun _ _ => False.elim)
  have both := turned_onward one two
  have same {β : Type} (of : Transaction → β) (kept : ∀ x : Transaction, ∀ b c, of { x with status := .active, begun := b, block := c } = of x)
      (j : Nat) (old : of (v.trans j) = of (w.trans j)) :
      of (if j = i then { v.trans j with status := .active, begun := some v.clock, block := v.server.store.view.marks.head? } else v.trans j) =
        of (w.trans j) := by
    split
    · exact (kept _ _ _).trans old
    · exact old
  refine ⟨server, served, both.server, fun j => ?_, both.isOpen, both.ids, fun j => ?_, fun j => ?_, fun j => ?_, fun j => ?_⟩
  · simp only [turn]
    split
    · rfl
    · exact (two.status j).trans (one.status j)
  · exact same Transaction.kind (fun _ _ _ => rfl) j (both.kind j)
  · exact same Transaction.name (fun _ _ _ => rfl) j (both.name j)
  · exact same Transaction.pendingError (fun _ _ _ => rfl) j (both.pendingError j)
  · exact same Transaction.focus (fun _ _ _ => rfl) j (both.focus j)

-- exec() of a transaction that has begun.
theorem turned_exec_active (smooth : env.Smooth) {sql : Sql} {rows : List (List String)} (active : (w.trans i).status = .active)
    (clean : (w.trans i).pendingError = "") (plain : (w.trans i).focus = none) (isOpen : w.conn.isOpen = true)
    (answer : (w.server.perform env w.clock sql).1 = .rows rows) (desc : String) :
    wp (execSql env i sql desc) (fun _ u => Turned (w.server.perform env w.clock sql).2 w.statuses w u) (fun _ _ => False) w := by
  have ready : ∀ purpose, activateFor env i purpose w = (.ok (), w) := by
    intro purpose
    simp only [activateFor, Prog.try_catch_apply, activate, Prog.bind_apply, Prog.get_apply, active, Prog.pure_apply]
  rw [execSql, wp_bind]
  refine wp_ok (check_pending_clean clean) ?_
  rw [wp_bind, wp_get]
  simp only [plain]
  rw [wp_bind]
  refine wp_ok (ready _) ?_
  rw [doExec, wp_try_catch]
  exact wp_mono (turned_direct_exec smooth isOpen clean answer 0) (fun _ _ => id) (fun _ _ => False.elim)

-- And of one that has not: the same after begin().
theorem turned_exec_nascent (nascent : (w.trans i).status = .nascent) (clean : (w.trans i).pendingError = "")
    (plain : (w.trans i).focus = none) (sql : Sql) (desc : String) {Q : World → Prop}
    (begins : wp (begin env i) (fun _ u => (u.trans i).pendingError = "" ∧ (u.trans i).focus = none ∧ (u.trans i).status = .active ∧
      wp (execSql env i sql desc) (fun _ v => Q v) (fun _ _ => False) u) (fun _ _ => False) w) :
    wp (execSql env i sql desc) (fun _ v => Q v) (fun _ _ => False) w := by
  rw [execSql, wp_bind]
  refine wp_ok (check_pending_clean clean) ?_
  rw [wp_bind, wp_get]
  simp only [plain]
  rw [wp_bind, activateFor, wp_try_catch, activate, wp_bind, wp_get]
  simp only [nascent]
  refine wp_mono begins (fun _ u ⟨clean, plain, active, rest⟩ => ?_) (fun _ _ => False.elim)
  have ready : ∀ purpose, activateFor env i purpose u = (.ok (), u) := by
    intro purpose
    simp only [activateFor, Prog.try_catch_apply, activate, Prog.bind_apply, Prog.get_apply, active, Prog.pure_apply]
  rw [execSql] at rest
  unfold wp at rest ⊢
  simp only [Prog.bind_apply, check_pending_clean clean, Prog.get_apply, plain, ready] at rest
  exact rest

end Transaction

end

end Pqxx
