import Pqxx.SessionBlocks
import Pqxx.TransactionExclusion

set_option autoImplicit false

namespace Pqxx

open Lib Prog

-- The transaction is where it was, or the session has no block that goes on without it.
def Resolved (i : Nat) (w : World) : Prop := (w.trans i).status = .active ∨ w.server.store.Dead

section

variable {env : Outside} {i : Nat} {w v : World}

theorem kept_settles (kept : Unmoved w v) (active : (w.trans i).status = .active) : Resolved i v := .inl ((kept_status kept i).trans active)

theorem same_settles (trans : v.trans = w.trans) (active : (w.trans i).status = .active) : Resolved i v := by
  rw [Resolved, trans]
  exact .inl active

theorem settles_onward (kept : Unmoved w v) (dull : Dull w v) (settles : Resolved i w) : Resolved i v := by
  cases settles with
  | inl active => exact kept_settles kept active
  | inr dead => exact .inr (dull.dead dead)

namespace Transaction

theorem end_closed_dull : Keeps Dull (endClosed i) := by
  have errands := @dull_errands .calm
  have unregisters : Keeps Dull (Connection.unregisterTransaction i) := by
    apply keeps_get
    intro w
    cases w.conn.trans with
    | none => exact dull_notice _
    | some old => exact keeps_ite _ (fun _ => dull_still rfl rfl) (dull_notice _)
  apply keeps_bind dull_framing (noticing_errand errands (check_pending_errand errands))
  intro _
  apply keeps_get
  intro w
  apply keeps_when dull_framing
  exact keeps_bind dull_framing (fun _ => dull_still rfl rfl) fun _ => unregisters

-- A pending error is thrown before anything is sent.
theorem check_pending_split : wp (checkPendingError i) (fun _ v => v = w ∧ (w.trans i).pendingError = "") (fun _ v => Unmoved w v) w := by
  by_cases clean : (w.trans i).pendingError = ""
  · exact wp_ok (check_pending_clean clean) ⟨rfl, clean⟩
  · have keeps := wp_keeps (s := w) (check_pending_errand (@kept_errands .calm) (i := i))
    rw [checkPendingError, wp_bind, wp_get, if_pos clean] at keeps ⊢
    exact keeps

-- It does not outlive the end of the transaction.
theorem end_closed_clears : wp (endClosed i) (fun _ v => (v.trans i).pendingError = "") (fun _ _ => False) w := by
  have spoken : ∀ (v : World) (msg : String), (v.trans i).pendingError = "" →
      wp (processNotice msg) (fun _ u => (u.trans i).pendingError = "") (fun _ _ => False) v := by
    intro v msg clean
    rw [processNotice, wp_modify]
    split
    · exact clean
    · exact clean
  have cleared : wp (noticing (checkPendingError i)) (fun _ v => (v.trans i).pendingError = "") (fun _ _ => False) w := by
    rw [noticing, wp_try_catch, checkPendingError, wp_bind, wp_get]
    apply wp_ite
    · intro _
      rw [wp_bind]
      apply spoken
      exact congrArg Transaction.pendingError (@turned_own i w fun x => { x with pendingError := "" })
    · exact fun clean => not_not.mp clean
  rw [endClosed, wp_bind]
  apply wp_mono cleared
  · intro _ v clean
    have struck : (((modifyTrans i fun x => { x with registered := false } : Client Unit) v).2.trans i).pendingError = "" := by
      rw [turned_own]
      exact clean
    rw [wp_bind, wp_get]
    apply wp_when
    · intro _
      rw [wp_bind]
      show wp (Connection.unregisterTransaction i) _ _ ((modifyTrans i fun x => { x with registered := false } : Client Unit) v).2
      rw [Connection.unregisterTransaction, wp_bind, wp_get]
      cases ((modifyTrans i fun x => { x with registered := false } : Client Unit) v).2.conn.trans with
      | none => exact spoken _ _ struck
      | some old =>
          apply wp_ite
          · exact fun _ => struck
          · exact fun _ => spoken _ _ struck
    · exact fun _ => clean
  · exact fun _ _ => False.elim

end Transaction

end

-- What is known of a work between its beginning and its end.
structure AtWork (i : Nat) (w : World) : Prop where
  kind : (w.trans i).kind = .work
  active : (w.trans i).status = .active
  uncounted : w.Uncounted
  grounded : Grounded w

section

variable {env : Outside} {i : Nat} {w v : World}

theorem kept_at_work (kept : Unmoved w v) (grounds : Grounds w v) (work : AtWork i w) : AtWork i v where
  kind := (kept_kind kept i).trans work.kind
  active := (kept_status kept i).trans work.active
  uncounted := stable_uncounted work.uncounted grounds.stable
  grounded := grounds.grounded work.uncounted work.grounded

theorem notice_at_work (msg : String) (work : AtWork i w) (clean : (w.trans i).pendingError = "") :
    wp (processNotice msg) (fun _ u => AtWork i u ∧ (u.trans i).pendingError = "") (fun _ _ => False) w := by
  have trans := process_notice_keeps (@same_trans_background .calm).upkeep msg w
  have after_ : AtWork i ((processNotice msg : Client Unit) w).2 ∧ (((processNotice msg : Client Unit) w).2.trans i).pendingError = "" := by
    refine ⟨kept_at_work (notice_kept msg w) ((@grounds_lifetime .calm).notices msg w) work, ?_⟩
    rw [trans]
    exact clean
  exact after_

namespace Transaction

section

variable (candid : env.Candid)

include candid

theorem abort_settles (work : AtWork i w) (clean : (w.trans i).pendingError = "") :
    wp (abort env i) (fun _ u => u.server.store.Dead) (fun _ _ => False) w := by
  have ready : w.server.Holds w.server.store.base.effects ∨ w.conn.isOpen = true ∧ w.server.store.base.effects = w.server.store.base.effects := by
    cases work.grounded with
    | inl dead => exact .inl (Store.dead_idle dead View.effects)
    | inr isOpen => exact .inr ⟨isOpen, rfl⟩
  have aborts : wp (swallow (doAbort env i)) (fun _ u => u.server.store.Dead) (fun _ _ => False) w := by
    rw [swallow, wp_try_catch, doAbort, wp_bind, wp_get, work.kind]
    have noted : ((modifyTrans i fun x => { x with reactivationAvoidance := 0 } : Client Unit) w).2.Uncounted :=
      stable_uncounted work.uncounted (stable_turn i _ (fun _ _ => rfl) w)
    have cleared : (((modifyTrans i fun x => { x with reactivationAvoidance := 0 } : Client Unit) w).2.trans i).pendingError = "" := by
      rw [turned_own]
      exact clean
    show wp (dbAbort env i) _ _ w
    rw [dbAbort, wp_bind]
    show wp (direct env i .rollback 0) _ _ ((modifyTrans i fun x => { x with reactivationAvoidance := 0 } : Client Unit) w).2
    exact wp_mono (rollback_done candid noted cleared ready) (fun _ _ done => done.1.dead) fun _ _ done => done.1.dead
  rw [abort, wp_bind, wp_get, work.active]
  show wp (do swallow (doAbort env i); setStatus i .aborted; endClosed i : Client Unit) _ _ w
  rw [wp_bind]
  apply wp_mono aborts
  · intro _ v dead
    rw [wp_bind]
    show wp (endClosed i) _ _ ((setStatus i .aborted : Client Unit) v).2
    have ends := wp_and (wp_keeps (s := ((setStatus i .aborted : Client Unit) v).2) (@end_closed_dull i)) end_closed_cleared
    exact wp_mono ends (fun _ _ both => both.1.dead dead) fun _ _ both => both.2
  · exact fun _ _ => False.elim

-- A statement that fails takes its transaction with it.
theorem do_exec_settles (work : AtWork i w) (clean : (w.trans i).pendingError = "") (sql : Sql) (deaf : sql.deaf) :
    wp (doExec env i sql) (fun _ u => Resolved i u) (fun _ u => Resolved i u) w := by
  have sends : Keeps (fun w u => u.trans = w.trans ∧ Grounds w u) (Connection.exec env sql 0) := fun w =>
    ⟨Connection.exec_keeps same_trans_background.upkeep ⟨fun _ => rfl, fun _ => rfl⟩ 0 w, (@grounds_lifetime env).sends sql deaf 0 w⟩
  rw [doExec, wp_try_catch, directExec, wp_bind]
  apply wp_ok (check_pending_clean clean)
  apply wp_mono (wp_keeps sends)
  · exact fun _ u both => same_settles both.1 work.active
  · intro e u both
    have still : AtWork i u := by
      constructor
      · rw [both.1]
        exact work.kind
      · rw [both.1]
        exact work.active
      · exact stable_uncounted work.uncounted both.2.stable
      · exact both.2.grounded work.uncounted work.grounded
    rw [wp_bind, swallow, wp_try_catch]
    apply wp_mono (abort_settles candid still (by rw [both.1]; exact clean))
    · exact fun _ _ => .inr
    · exact fun _ _ => False.elim

omit candid in
theorem activate_for_active (active : (w.trans i).status = .active) (purpose : String) : activateFor env i purpose w = (.ok (), w) := by
  rw [activateFor, try_catch_apply, activate, bind_apply, get_apply]
  dsimp only
  rw [active]
  rfl

theorem exec_sql_settles (work : AtWork i w) (sql : Sql) (deaf : sql.deaf) (desc : String) :
    wp (execSql env i sql desc) (fun _ u => Resolved i u) (fun _ u => Resolved i u) w := by
  rw [execSql, wp_bind]
  apply wp_mono check_pending_split
  · intro _ v same
    rw [same.1, wp_bind, wp_get]
    cases (w.trans i).focus with
    | some f => exact .inl work.active
    | none =>
        rw [wp_bind]
        apply wp_ok (activate_for_active work.active _)
        exact do_exec_settles candid work same.2 sql deaf
  · exact fun _ _ kept => kept_settles kept work.active

-- The destructor, of a work that was left alone.
theorem end_settles (work : AtWork i w) : wp (end_ env i) (fun _ u => Resolved i u) (fun _ _ => False) w := by
  have closes : wp (endClosed i) (fun _ v => AtWork i v ∧ (v.trans i).pendingError = "") (fun _ _ => False) w := by
    have grounds := wp_keeps (s := w) (end_closed_keeps (@grounds_lifetime env).toChores i)
    apply wp_mono (wp_and (wp_and end_closed_cleared end_closed_clears) grounds)
    · intro _ v all
      have cleared := all.1.1
      refine ⟨⟨cleared.kind.trans work.kind, cleared.status.trans work.active, ?_, ?_⟩, all.1.2⟩
      · exact stable_uncounted work.uncounted all.2.stable
      · exact all.2.grounded work.uncounted work.grounded
    · exact fun _ _ all => all.1.1
  have aborts : ∀ v, AtWork i v → (v.trans i).pendingError = "" →
      wp (noticing (abort env i)) (fun _ u => u.server.store.Dead) (fun _ _ => False) v := by
    intro v still clean
    rw [noticing, wp_try_catch]
    exact wp_mono (abort_settles candid still clean) (fun _ _ => id) fun _ _ => False.elim
  have notes : ∀ v, AtWork i v → (v.trans i).pendingError = "" →
      wp (noteFocus (v.trans i)) (fun _ u => AtWork i u ∧ (u.trans i).pendingError = "") (fun _ _ => False) v := by
    intro v still clean
    unfold noteFocus
    cases (v.trans i).focus with
    | none => exact ⟨still, clean⟩
    | some f => exact notice_at_work _ still clean
  rw [end_, noticing, wp_try_catch, wp_bind]
  apply wp_mono closes
  · intro _ v both
    rw [wp_bind, wp_get, if_pos both.1.active, wp_bind]
    apply wp_mono (notes v both.1 both.2)
    · intro _ u both
      rw [wp_bind]
      apply wp_mono (aborts u both.1 both.2)
      · exact fun _ t dead => .inr dead
      · exact fun _ _ => False.elim
    · exact fun _ _ => False.elim
  · exact fun _ _ => False.elim

theorem commit_active_settles (work : AtWork i w) (clean : (w.trans i).pendingError = "") (isOpen : w.conn.isOpen = true) :
    wp (commitActive env i) (fun _ u => Resolved i u) (fun _ u => Resolved i u) w := by
  have merges : ∀ v : World, v.server.store.Dead → (v.trans i).pendingError = "" → (v.trans i).status ≠ .active →
      wp (do
        let w ← Prog.get
        Connection.addVariables (w.trans i).vars
        end_ env i : Client Unit) (fun _ u => Resolved i u) (fun _ u => Resolved i u) v := by
    intro v dead still ended
    rw [wp_bind, wp_get, wp_bind]
    have ends := @turned_end env i ((Connection.addVariables (v.trans i).vars : Client Unit) v).2 still ended
    show wp (end_ env i) _ _ ((Connection.addVariables (v.trans i).vars : Client Unit) v).2
    exact wp_mono ends (fun _ _ turned => .inr (by rw [turned.server]; exact dead)) fun _ _ => False.elim
  have committing := @work_commit_spec env i w clean isOpen
  have done : doCommit env i w = workCommit env i w := by
    rw [doCommit, bind_apply, get_apply]
    dsimp only
    rw [work.kind]
  unfold wp at committing
  rw [← done] at committing
  rw [commitActive, wp_bind, wp_try_catch, wp_bind]
  apply wp_mono committing
  · intro _ u committed
    obtain ⟨rows, executed⟩ := committed
    have dead : u.server.store.Dead := by
      rw [(executed_rows executed).2.1]
      exact ending_dead (.inl rfl) 0
    have still : (((setStatus i .committed : Client Unit) u).2.trans i).pendingError = "" := by
      rw [set_status_own, executed_trans executed]
      exact clean
    have ended : (((setStatus i .committed : Client Unit) u).2.trans i).status ≠ .active := by
      rw [set_status_own]
      exact fun active => by cases active
    exact merges _ dead still ended
  · intro e v failed
    obtain ⟨e', u, executed, alike, _⟩ := failed
    have dead : u.server.store.Dead := by
      cases executed_error candid executed with
      | inl answered =>
          obtain ⟨_, _, server, _⟩ := answered
          rw [server]
          exact ending_dead (.inl rfl) 0
      | inr lost =>
          cases lost.2 with
          | inl unserved =>
              rw [unserved]
              exact new_session_dead
          | inr served =>
              rw [served]
              exact new_session_dead
    have still : v.server.store.Dead := by
      rw [alike.2.1]
      exact dead
    exact .inr still

theorem commit_settles (work : AtWork i w) : wp (commit env i) (fun _ u => Resolved i u) (fun _ u => Resolved i u) w := by
  rw [commit, wp_bind]
  apply wp_mono check_pending_split
  · intro _ v same
    rw [same.1, wp_bind, wp_get, work.active]
    dsimp only
    cases (w.trans i).focus with
    | some f => exact .inl work.active
    | none =>
        apply wp_ite
        · exact fun _ => .inl work.active
        · exact fun stays => commit_active_settles candid work same.2 ((Bool.not_eq_false _).mp stays)
  · exact fun _ _ kept => kept_settles kept work.active

end

end Transaction

-- What a client does with a work that it has begun.
theorem work_settles (candid : env.Candid) (work : AtWork i w) (op : WorkOp) (clean : op = .abort → (w.trans i).pendingError = "") :
    Resolved i (op.perform env i w).2 := by
  have opens : ∀ (table : String) (f : Focus), wp (do
      let _ ← Transaction.execSql env i (.copy i table) ""
      Transaction.registerFocus i f) (fun _ u => Resolved i u) (fun _ u => Resolved i u) w := by
    intro table f
    have settled : ∀ v, Resolved i v → wp (Transaction.registerFocus i f) (fun _ u => Resolved i u) (fun _ u => Resolved i u) v := by
      intro v settles
      have keeps : Keeps (fun w u => Unmoved w u ∧ Dull w u) (Transaction.registerFocus i f) := fun u =>
        ⟨Transaction.register_focus_errand (@kept_errands env) f u, Transaction.register_focus_errand (@dull_errands env) f u⟩
      exact wp_mono (wp_keeps keeps) (fun _ _ both => settles_onward both.1 both.2 settles) fun _ _ both => settles_onward both.1 both.2 settles
    rw [wp_bind]
    exact wp_mono (Transaction.exec_sql_settles candid work _ (by trivial) "") (fun _ v => settled v) fun _ _ => id
  apply wp_leaves
  cases decisive : op.decisive with
  | false =>
      have keeps := wp_keeps (s := w) (work_errand (@kept_errands env) (i := i) op decisive)
      exact wp_mono keeps (fun _ _ kept => kept_settles kept work.active) fun _ _ kept => kept_settles kept work.active
  | true =>
      cases op with
      | exec query desc =>
          rw [WorkOp.perform, wp_bind]
          exact wp_mono (Transaction.exec_sql_settles candid work _ (by trivial) desc) (fun _ _ => id) fun _ _ => id
      | prepared statement => exact wp_ok (Transaction.activate_for_active work.active _) (.inl work.active)
      | openWriter table columns => exact opens _ _
      | openReader table columns => exact opens _ _
      | commit => exact Transaction.commit_settles candid work
      | abort => exact wp_mono (Transaction.abort_settles candid work (clean rfl)) (fun _ _ => .inr) fun _ _ => False.elim
      | end_ => exact wp_mono (Transaction.end_settles candid work) (fun _ _ => id) fun _ _ => False.elim
      | _ => exact absurd decisive Bool.false_ne_true

end

-- A transaction that is closed sends nothing that could open a block.
section

variable {env : Outside} {i : Nat} {w : World}

theorem activate_for_closed (closed : (w.trans i).status.closed = true) (purpose : String) :
    ∃ e, Transaction.activateFor env i purpose w = (.error e, w) := by
  rw [Transaction.activateFor, try_catch_apply, Transaction.activate, bind_apply, get_apply]
  dsimp only
  cases status : (w.trans i).status with
  | nascent =>
      rw [status] at closed
      exact absurd closed Bool.false_ne_true
  | active =>
      rw [status] at closed
      exact absurd closed Bool.false_ne_true
  | aborted => exact ⟨_, rfl⟩
  | committed => exact ⟨_, rfl⟩
  | inDoubt => exact ⟨_, rfl⟩

theorem exec_sql_closed (closed : (w.trans i).status.closed = true) (sql : Sql) (desc : String) :
    wp (Transaction.execSql env i sql desc) (fun _ _ => False) (fun _ u => Dull w u) w := by
  have pends := wp_keeps (s := w) (Transaction.check_pending_errand (@dull_errands env) (i := i))
  rw [Transaction.execSql, wp_bind]
  apply wp_mono (wp_and Transaction.check_pending_split pends)
  · intro _ v both
    rw [both.1.1, wp_bind, wp_get]
    cases (w.trans i).focus with
    | some f => exact dull_framing.same w
    | none =>
        obtain ⟨e, refused⟩ := @activate_for_closed env i w closed ("Error executing query " ++ (if desc = "" then "" else "'" ++ desc ++ "' "))
        rw [wp_bind]
        exact wp_error refused (dull_framing.same w)
  · exact fun _ _ both => both.2

theorem commit_closed (closed : (w.trans i).status.closed = true) :
    wp (Transaction.commit env i) (fun _ u => Dull w u) (fun _ u => Dull w u) w := by
  have pends := wp_keeps (s := w) (Transaction.check_pending_errand (@dull_errands env) (i := i))
  rw [Transaction.commit, wp_bind]
  apply wp_mono (wp_and Transaction.check_pending_split pends)
  · intro _ v both
    rw [both.1.1, wp_bind, wp_get]
    cases status : (w.trans i).status with
    | nascent => exact dull_framing.same w
    | active =>
        rw [status] at closed
        exact absurd closed Bool.false_ne_true
    | aborted => exact dull_framing.same w
    | committed => exact dull_notice _ w
    | inDoubt => exact dull_framing.same w
  · exact fun _ _ both => both.2

theorem abort_closed (closed : (w.trans i).status.closed = true) :
    wp (Transaction.abort env i) (fun _ u => Dull w u) (fun _ u => Dull w u) w := by
  rw [Transaction.abort, wp_bind, wp_get]
  cases status : (w.trans i).status with
  | nascent =>
      rw [status] at closed
      exact absurd closed Bool.false_ne_true
  | active =>
      rw [status] at closed
      exact absurd closed Bool.false_ne_true
  | aborted => exact dull_framing.same w
  | committed => exact dull_framing.same w
  | inDoubt => exact wp_keeps (s := w) (dull_notice _)

theorem end_closed_over (idle : (w.trans i).status ≠ .active) :
    wp (Transaction.end_ env i) (fun _ u => Dull w u) (fun _ u => Dull w u) w := by
  have ends := wp_and (wp_keeps (s := w) (@Transaction.end_closed_dull i)) Transaction.end_closed_cleared
  rw [Transaction.end_, Transaction.noticing, wp_try_catch, wp_bind]
  apply wp_mono ends
  · intro _ v both
    rw [wp_bind, wp_get]
    apply wp_ite
    · exact fun active => absurd (both.2.status.symm.trans active) idle
    · exact fun _ => both.1
  · exact fun _ _ both => both.2.elim

theorem closed_dull (closed : (w.trans i).status.closed = true) (op : WorkOp) : Dull w (op.perform env i w).2 := by
  have opens : ∀ (table : String) (f : Focus), wp (do
      let _ ← Transaction.execSql env i (.copy i table) ""
      Transaction.registerFocus i f) (fun _ u => Dull w u) (fun _ u => Dull w u) w := by
    intro table f
    rw [wp_bind]
    exact wp_mono (exec_sql_closed closed _ "") (fun _ _ => False.elim) fun _ _ => id
  have idle : (w.trans i).status ≠ .active := by
    intro active
    rw [active] at closed
    exact absurd closed Bool.false_ne_true
  apply wp_leaves
  cases decisive : op.decisive with
  | false => exact wp_keeps (s := w) (work_errand (@dull_errands env) (i := i) op decisive)
  | true =>
      cases op with
      | exec query desc =>
          rw [WorkOp.perform, wp_bind]
          exact wp_mono (exec_sql_closed closed _ desc) (fun _ _ => False.elim) fun _ _ => id
      | prepared statement =>
          obtain ⟨e, refused⟩ := @activate_for_closed env i w closed ("Error executing prepared statement " ++ statement)
          exact wp_error refused (dull_framing.same w)
      | openWriter table columns => exact opens _ _
      | openReader table columns => exact opens _ _
      | commit => exact commit_closed closed
      | abort => exact abort_closed closed
      | end_ => exact end_closed_over idle
      | _ => exact absurd decisive Bool.false_ne_true

end

-- A work that has begun has the connection.
def Owner (w : World) : Prop := ∃ i, w.conn.trans = some i ∧ (w.trans i).status = .active ∧ (w.trans i).kind = .work

instance decidableOwner (w : World) : Decidable (Owner w) :=
  decidable_of_iff (w.conn.trans.any fun i => decide ((w.trans i).status = .active ∧ (w.trans i).kind = .work)) (by
    rw [Option.any_eq_true, Owner]
    apply exists_congr
    intro i
    rw [decide_eq_true_eq])

-- Works with their subtransactions, which are used while the work is active. abort() is not
-- called while there is an error to report, which would keep it from sending anything.
def Careful (w : World) : ClientOp → Prop
  | .openWork i kind _ _ _ logTable => w.conn.trans ≠ some i ∧ kind = .work ∧ logTable = ""
  | .openSubtransaction i _ _ => w.conn.trans ≠ some i
  | .work i op => Exists_ i w ∧
      ((w.trans i).kind = .work ∧ (op ≠ .abort ∨ (w.trans i).pendingError = "") ∨ (w.trans i).kind.within = true ∧ Owner w)
  | _ => True

instance decidableCareful (w : World) : ∀ op, Decidable (Careful w op)
  | .openWork i kind _ _ _ logTable => inferInstanceAs (Decidable (w.conn.trans ≠ some i ∧ kind = .work ∧ logTable = ""))
  | .openSubtransaction i parent name => decidableFits w (.openSubtransaction i parent name)
  | .work i op => inferInstanceAs (Decidable (Exists_ i w ∧
      ((w.trans i).kind = .work ∧ (op ≠ .abort ∨ (w.trans i).pendingError = "") ∨ (w.trans i).kind.within = true ∧ Owner w)))
  | .setVariable _ _ => .isTrue trivial
  | .getVariable _ => .isTrue trivial
  | .addReceiver _ _ => .isTrue trivial
  | .removeReceiver _ _ => .isTrue trivial
  | .activate => .isTrue trivial
  | .deactivate => .isTrue trivial
  | .reset => .isTrue trivial
  | .simulateFailure => .isTrue trivial

-- The transactions agree with the connection, and the backend with both.
structure Tidy (w : World) : Prop where
  orderly : InOrder w
  uncounted : w.Uncounted
  grounded : Grounded w
  owned : w.server.store.Dead ∨ Owner w

section

variable {env : Outside} {i : Nat} {w v : World}

theorem tidy_initial (policy : Policy) : Tidy (World.initial policy) where
  orderly := orderly_initial policy
  uncounted := ⟨rfl, fun _ => rfl⟩
  grounded := .inl (Store.dead_unblocked rfl)
  owned := .inl (Store.dead_unblocked rfl)

theorem careful_fits (op : ClientOp) (careful : Careful w op) : Fits w op := by
  cases op with
  | openWork => exact careful.1
  | openSubtransaction => exact careful
  | work => exact careful.1
  | _ => trivial

theorem work_grounds (op : WorkOp) : Keeps Grounds (op.perform env i) := by
  have duties := (@grounds_lifetime env).toDuties
  have focuses (f : Focus) : Keeps Grounds (Transaction.registerFocus i f) := Transaction.register_focus_errand (@grounds_errands env) f
  cases decisive : op.decisive with
  | false => exact work_errand grounds_errands op decisive
  | true =>
      cases op with
      | exec query desc => exact dropped_errand (@grounds_errands env) (Transaction.exec_sql_keeps duties _ (by trivial) desc)
      | prepared statement => exact Transaction.activate_for_keeps duties _
      | openWriter table columns => exact keeps_bind grounds_framing (Transaction.exec_sql_keeps duties _ (by trivial) "") fun _ => focuses _
      | openReader table columns => exact keeps_bind grounds_framing (Transaction.exec_sql_keeps duties _ (by trivial) "") fun _ => focuses _
      | commit => exact Transaction.commit_keeps grounds_lifetime
      | abort => exact Transaction.abort_keeps duties
      | end_ => exact Transaction.end_keeps duties
      | _ => exact absurd decisive Bool.false_ne_true

theorem client_step_grounds (op : ClientOp) : Grounds w (clientStep env w op) := by
  cases transactional : op.transactional with
  | false => exact client_errand (@grounds_errands env) op transactional (enrols_any grounds_enlists op) w
  | true =>
      cases op with
      | openWork i kind classname name startArgs logTable => exact open_work_keeps (@grounds_lifetime env) kind classname name startArgs logTable w
      | openSubtransaction i parent name => exact open_subtransaction_keeps (@grounds_lifetime env) parent name w
      | work i op => exact work_grounds op w
      | _ => exact absurd transactional Bool.false_ne_true

-- Another transaction than i.
theorem owner_stays (others : ∀ j, j ≠ i → (v.trans j).standing = (w.trans j).standing)
    (holder : ∀ j, j ≠ i → (v.conn.trans = some j ↔ w.conn.trans = some j)) (owner : Owner w)
    (away : ∀ j, w.conn.trans = some j → (w.trans j).status = .active → (w.trans j).kind = .work → j ≠ i) : Owner v := by
  obtain ⟨j, held, active, kind⟩ := owner
  have other := away j held active kind
  refine ⟨j, (holder j other).mpr held, ?_, ?_⟩
  · exact (congrArg Station.status (others j other)).trans active
  · exact (congrArg Station.kind (others j other)).trans kind

theorem kept_owner (kept : Unmoved w v) (owner : Owner w) : Owner v := by
  obtain ⟨j, held, active, kind⟩ := owner
  exact ⟨j, (kept_holder kept).trans held, (kept_status kept j).trans active, (kept_kind kept j).trans kind⟩

-- BEGIN goes out to a session that has no block to be joined.
theorem open_work_owned (candid : env.Candid) (tidy : Tidy w) (classname name startArgs : String) (unheld : w.conn.trans ≠ some i) :
    (openWork env i .work classname name startArgs "" w).2.server.store.Dead ∨ Owner (openWork env i .work classname name startArgs "" w).2 := by
  cases busy : w.conn.trans with
  | none =>
      have dead : w.server.store.Dead := by
        cases tidy.owned with
        | inl dead => exact dead
        | inr owner =>
            obtain ⟨j, held, _⟩ := owner
            exact absurd (held.symm.trans busy) (Option.some_ne_none j)
      have idle : w.server.Holds w.server.store.base.effects := Store.dead_idle dead View.effects
      have opens := wp_and (@open_work_free env i w .work classname name startArgs "" busy)
        (open_working candid tidy.uncounted idle classname name startArgs)
      have either : wp (openWork env i .work classname name startArgs "") (fun _ u => u.server.store.Dead ∨ Owner u)
          (fun _ u => u.server.store.Dead ∨ Owner u) w :=
        wp_mono opens (fun _ _ both => .inr ⟨i, both.1.holder, both.1.status, both.1.kind⟩) fun _ _ both => .inl both.2.dead
      exact wp_leaves either
  | some j =>
      have other : i ≠ j := fun same => unheld (by rw [busy, same])
      rw [open_work_refused .work classname name startArgs "" busy other]
      cases tidy.owned with
      | inl dead => exact .inl dead
      | inr owner =>
          right
          apply @owner_stays i w
          · exact fun k away => congrArg Transaction.standing
              (@turned_other i w (fun _ => Transaction.fresh .work classname name startArgs "") k away)
          · exact fun _ _ => Iff.rfl
          · exact owner
          · exact fun k held _ _ same => unheld (by rw [← same]; exact held)

theorem work_owned (candid : env.Candid) (tidy : Tidy w) (op : WorkOp) (careful : Careful w (.work i op)) :
    (op.perform env i w).2.server.store.Dead ∨ Owner (op.perform env i w).2 := by
  have moves := @work_moves env i op w
  have stays : (∀ j, w.conn.trans = some j → (w.trans j).status = .active → (w.trans j).kind = .work → j ≠ i) → Owner w →
      Owner (op.perform env i w).2 := fun away owner => owner_stays moves.others (moves_holder moves) owner away
  cases careful.2 with
  | inr inner =>
      right
      apply stays _ inner.2
      intro j _ _ kind same
      have within := inner.1
      rw [← same, kind] at within
      exact absurd within Bool.false_ne_true
  | inl outer =>
      have outermost : (w.trans i).kind.within = false := by
        rw [outer.1]
        rfl
      have closed : (w.trans i).status.closed = true → (op.perform env i w).2.server.store.Dead ∨ Owner (op.perform env i w).2 := by
        intro closed
        cases tidy.owned with
        | inl dead => exact .inl ((closed_dull closed op).dead dead)
        | inr owner =>
            right
            apply stays _ owner
            intro j _ active _ same
            rw [← same, active] at closed
            exact absurd closed Bool.false_ne_true
      cases status : (w.trans i).status with
      | nascent =>
          cases careful.1 with
          | inl within => exact absurd (outermost.symm.trans within) Bool.false_ne_true
          | inr begun => exact absurd status begun
      | active =>
          have clean (same : op = .abort) : (w.trans i).pendingError = "" := outer.2.resolve_left (not_not_intro same)
          cases work_settles candid ⟨outer.1, status, tidy.uncounted, tidy.grounded⟩ op clean with
          | inl active =>
              right
              have kind := moves.kind.trans outer.1
              cases moves.held (tidy.orderly.hand i) careful.1 (tidy.orderly.held i) active with
              | inl within =>
                  rw [kind] at within
                  exact absurd within Bool.false_ne_true
              | inr holder => exact ⟨i, holder, active, kind⟩
          | inr dead => exact .inl dead
      | aborted => exact closed (by rw [status]; rfl)
      | committed => exact closed (by rw [status]; rfl)
      | inDoubt => exact closed (by rw [status]; rfl)

theorem client_step_owned (candid : env.Candid) (tidy : Tidy w) (op : ClientOp) (careful : Careful w op) :
    (clientStep env w op).server.store.Dead ∨ Owner (clientStep env w op) := by
  cases transactional : op.transactional with
  | false =>
      cases tidy.owned with
      | inl dead => exact .inl ((client_errand (@dull_errands env) op transactional (enrols_any dull_enlists op) w).dead dead)
      | inr owner => exact .inr (kept_owner (client_errand (@kept_errands env) op transactional (enrols_any kept_enlists op) w) owner)
  | true =>
      cases op with
      | openWork i kind classname name startArgs logTable =>
          obtain ⟨unheld, rfl, rfl⟩ := careful
          exact open_work_owned candid tidy classname name startArgs unheld
      | openSubtransaction i parent name =>
          have unopened := @open_subtransaction_leaves i w parent name
          cases tidy.owned with
          | inl dead => exact .inl dead
          | inr owner =>
              right
              apply @owner_stays i w
              · exact unopened.others
              · exact fun _ _ => Iff.rfl
              · exact owner
              · exact fun j held _ _ same => careful (by rw [← same]; exact held)
      | work i op => exact work_owned candid tidy op careful
      | _ => exact absurd transactional Bool.false_ne_true

theorem client_step_tidy (candid : env.Candid) (op : ClientOp) (careful : Careful w op) (tidy : Tidy w) : Tidy (clientStep env w op) := by
  have grounds := @client_step_grounds env w op
  constructor
  · exact turn_orderly (client_step_turns op (careful_fits op careful)) tidy.orderly
  · exact stable_uncounted tidy.uncounted grounds.stable
  · exact grounds.grounded tidy.uncounted tidy.grounded
  · exact client_step_owned candid tidy op careful

-- A block that a commit would add to the database is that of an active work, on an open
-- connection.
theorem blocks_owned (env : Outside) (candid : env.Candid) (policy : Policy) (ops : List ClientOp)
    (careful : Along Careful (clientStep env) (World.initial policy) ops) (b : Block View)
    (block : (run (clientStep env) (World.initial policy) ops).server.store.block = some b) (works : b.failed = false) :
    (run (clientStep env) (World.initial policy) ops).conn.isOpen = true ∧ Owner (run (clientStep env) (World.initial policy) ops) := by
  have tidy := run_invariant Careful (clientStep env) Tidy (fun _ op careful tidy => client_step_tidy candid op careful tidy)
    (World.initial policy) ops careful (tidy_initial policy)
  have alive : ¬ (run (clientStep env) (World.initial policy) ops).server.store.Dead := by
    intro dead
    exact absurd (works.symm.trans (dead b block)) Bool.false_ne_true
  exact ⟨tidy.grounded.resolve_left alive, tidy.owned.resolve_left alive⟩

-- A second work, begun once the first is gone, and a subtransaction of it.
theorem blocks_owned_second :
    let ops : List ClientOp := [.openWork 0 .work "transaction" "one" "" "", .work 0 (.exec "SELECT 1" ""), .work 0 .abort,
      .openWork 1 .work "transaction" "two" "" "", .openSubtransaction 2 1 "inner", .work 2 (.exec "SELECT 2" ""), .work 2 .end_]
    let w := run (clientStep .calm) (World.initial .direct) ops
    w.conn.isOpen = true ∧ Owner w := by
  intro ops w
  have candid : Outside.calm.Candid := ⟨fun _ => by simp [Outside.calm], fun _ => by simp [Outside.calm]⟩
  have careful : Along Careful (clientStep .calm) (World.initial .direct) ops := by decide +kernel
  have inside : (w.server.store.block.any fun b => b.failed = false) = true := by decide +kernel
  obtain ⟨b, block, works⟩ := (Option.any_eq_true _ _).mp inside
  exact blocks_owned .calm candid .direct ops careful b block (of_decide_eq_true works)

end

end Pqxx
