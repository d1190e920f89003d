import Pqxx.Errands
import Pqxx.WorkAttempt

set_option autoImplicit false

namespace Pqxx

open Lib Prog

section

variable {env : Outside} {s : Server} {t : Nat}

theorem restoring_ordinary {sql : Sql} (restoring : sql.restoring) : sql.ordinary := by
  cases sql with
  | begin args => exact restoring
  | rollbackTo name => exact restoring
  | _ => trivial

theorem run_dead (dead : s.store.Dead) (sql : Sql) : (s.run env t sql).2.store.Dead := by
  rw [Server.run]
  split
  · exact dead
  · split
    · exact Store.dead_fail
    · exact Store.dead_put dead _

theorem keep_dead (command : String) (error : SqlError) : (s.keep command error none).2.store.Dead := Store.dead_fail

theorem perform_dead (dead : s.store.Dead) {sql : Sql} (ordinary : sql.ordinary) : (s.perform env t sql).2.store.Dead := by
  cases sql with
  | begin args => exact ordinary.elim
  | rollbackTo name => exact ordinary.elim
  | commit => exact Store.dead_commit
  | rollback => exact Store.dead_rollback
  | savepoint name =>
      rw [Server.perform, Store.dead_savepoint dead]
      exact keep_dead _ _
  | release name =>
      rw [Server.perform, Store.dead_release dead]
      exact keep_dead _ _
  | _ => exact run_dead dead _

theorem refuse_dead (sql : Sql) : (s.refuse sql).store.Dead := by
  rw [Server.refuse]
  split
  · exact Store.dead_rollback
  · exact Store.dead_fail

theorem serve_dead (dead : s.store.Dead) {sql : Sql} (ordinary : sql.ordinary) (i : Nat) : (s.serve env t i sql).2.store.Dead := by
  rw [Server.serve]
  split
  · exact refuse_dead sql
  · exact perform_dead dead ordinary

theorem serve_all_dead (batch : List Sql) (i : Nat) (ordinary : ∀ sql ∈ batch, sql.ordinary) (dead : s.store.Dead) :
    (s.serveAll env t i batch).2.1.store.Dead := by
  induction batch generalizing s i with
  | nil => exact dead
  | cons sql rest ih =>
      have served := @serve_dead env s t dead sql (ordinary sql List.mem_cons_self) i
      rw [Server.serveAll]
      split
      · rename_i next outcome
        rw [outcome] at served
        exact served
      · rename_i next outcome
        rw [outcome] at served
        exact ih (i + 1) (fun sql there => ordinary sql (List.mem_cons_of_mem _ there)) served

theorem serve_batch_dead (batch : List Sql) (ordinary : ∀ sql ∈ batch, sql.ordinary) (dead : s.store.Dead) :
    (s.serveBatch env t batch).2.store.Dead := by
  have through := @serve_all_dead env s t batch 1 ordinary dead
  simp only [Server.serveBatch]
  split
  · exact through
  · exact Store.dead_fail

-- The end of a block, however it is taken.
theorem ending_dead {sql : Sql} (ends : sql = .commit ∨ sql = .rollback) (i : Nat) : (s.serve env t i sql).2.store.Dead := by
  rw [Server.serve]
  split
  · exact refuse_dead sql
  · cases ends with
    | inl commit =>
        rw [commit]
        exact Store.dead_commit
    | inr rollback =>
        rw [rollback]
        exact Store.dead_rollback

theorem new_session_dead : s.newSession.store.Dead := Store.dead_unblocked rfl

theorem dead_background : Background env fun w w' => w.server.store.Dead → w'.server.store.Dead where
  same _ := id
  onward _ _ _ one two dead := two (one dead)
  link _ _ _ server _ _ dead := by
    rw [server]
    exact dead
  ends _ _ _ server _ _ _ := by
    rw [server]
    exact new_session_dead
  asks _ _ _ := id
  restores _ batch restoring dead := serve_batch_dead batch (fun sql there => restoring_ordinary (restoring sql there)) dead

theorem dead_request {sql : Sql} (ordinary : sql.ordinary) : Request env (fun w w' => w.server.store.Dead → w'.server.store.Dead) sql where
  asks _ := id
  served _ dead := serve_dead dead ordinary 0

end

-- No block is begun, and one in progress is left where it is or is over.
structure Dull (w w' : World) : Prop where
  dead : w.server.store.Dead → w'.server.store.Dead
  isOpen : w.conn.isOpen = true → w'.conn.isOpen = true ∨ w'.server.store.Dead

section

variable {env : Outside} {w v : World}

theorem dull_framing : Framing Dull where
  same _ := ⟨id, .inl⟩
  onward _ _ _ one two := {
    dead := fun dead => two.dead (one.dead dead)
    isOpen := fun isOpen => by
      cases one.isOpen isOpen with
      | inl still => exact two.isOpen still
      | inr dead => exact .inr (two.dead dead) }

theorem dull_still (server : v.server = w.server) (isOpen : v.conn.isOpen = w.conn.isOpen) : Dull w v where
  dead dead := by
    rw [server]
    exact dead
  isOpen held := .inl (isOpen.trans held)

theorem dull_over (dead : v.server.store.Dead) : Dull w v := ⟨fun _ => dead, fun _ => .inr dead⟩

theorem dull_quiet (quiet : Quiet w v) : Dull w v := dull_still quiet.server quiet.isOpen

theorem dull_cut {server : Server} (cut : Cut w v server) : Dull w v := by
  apply dull_over
  rw [cut.server]
  exact new_session_dead

theorem dull_lose : Dull w w.lose := dull_over new_session_dead

-- A function need only be looked at where the connection is open.
theorem dull_split {α : Type} {m : Client α} (dead : Keeps (fun w w' => w.server.store.Dead → w'.server.store.Dead) m)
    (isOpen : ∀ w : World, w.conn.isOpen = true → Dull w (m w).2) : Keeps Dull m :=
  fun w => ⟨dead w, fun held => (isOpen w held).isOpen held⟩

theorem dull_request {sql : Sql} (ordinary : sql.ordinary) : Keeps Dull (pqExec env sql) := by
  apply dull_split (pq_exec_keeps dead_background.upkeep (dead_request ordinary))
  intro w isOpen
  obtain ⟨h, handle, status, _⟩ := open_handle isOpen
  have served : ∀ u : World, u.server = (w.server.serve env w.clock 0 sql).2 → u.conn.isOpen = w.conn.isOpen → Dull w u := by
    intro u server same
    constructor
    · intro dead
      rw [server]
      exact serve_dead dead ordinary 0
    · exact fun held => .inl (same.trans held)
  rw [pq_exec_apply h handle status]
  cases env.fate w.clock with
  | answered => exact served _ rfl answered_open
  | lostBefore => exact dull_over new_session_dead
  | lostAfter => exact dull_over new_session_dead
  | nullBefore => exact dull_still rfl (asked_open [sql] false)
  | nullAfter => exact served _ rfl (asked_open [sql] false)

theorem dull_notifs : Keeps Dull (Connection.getNotifs env) := by
  apply dull_split (Connection.get_notifs_keeps dead_background.upkeep)
  intro w isOpen
  apply wp_leaves
  apply Connection.get_notifs_spec isOpen
  · exact fun _ _ v quiet => dull_quiet quiet
  · exact fun _ _ v _ quiet => dull_quiet quiet
  · exact fun _ _ v _ cut => dull_cut cut

theorem dull_reset : Keeps Dull (Connection.reset env) := by
  apply dull_split (Connection.reset_keeps dead_background.upkeep)
  intro w isOpen
  obtain ⟨h, handle, _, _⟩ := open_handle isOpen
  have sets : ∀ v : World, v.server.store.Dead →
      wp (Connection.setupState env) (fun _ u => u.server.store.Dead) (fun _ u => u.server.store.Dead) v := by
    intro v dead
    have keeps := wp_keeps (s := v) (Connection.setup_level_keeps (@dead_background env).upkeep 2)
    exact wp_mono keeps (fun _ _ keeps => keeps dead) fun _ _ keeps => keeps dead
  have anew : ∀ u : World, wp (do
      let connected ← pqConnect env
      Prog.when (connected = false) (Prog.modify World.lose)
      Connection.setupState env : Client Unit) (fun _ v => v.server.store.Dead) (fun _ v => v.server.store.Dead) u := by
    intro u
    rw [pqConnect, wp_bind, wp_bind, tick, wp_bind, wp_gets, wp_bind, wp_modify, wp_pure]
    cases env.greets u.clock with
    | none =>
        rw [wp_pure, wp_bind]
        apply wp_when
        · exact fun _ => sets _ new_session_dead
        · exact fun connected => absurd rfl connected
    | some greeting =>
        rw [wp_bind, wp_modify, wp_pure, wp_bind]
        apply wp_when
        · exact fun lost => absurd lost.symm Bool.false_ne_true
        · exact fun _ => sets _ new_session_dead
  apply wp_leaves
  rw [Connection.reset, wp_bind, wp_get]
  apply wp_ite
  · exact fun _ => dull_framing.same w
  · intro _
    apply wp_ite
    · exact fun _ => dull_framing.same w
    · intro _
      rw [wp_bind]
      apply wp_ite
      · exact fun _ => wp_mono (anew _) (fun _ _ => dull_over) fun _ _ => dull_over
      · intro none_
        exact absurd (by rw [handle]; rfl) none_

theorem dull_tick : Keeps Dull tick := fun _ => dull_still rfl rfl

theorem dull_notice (msg : String) : Keeps Dull (processNotice msg) := by
  intro w
  rw [processNotice, modify_apply]
  split
  · exact dull_framing.same w
  · exact dull_still rfl rfl

theorem dull_handle (f : Handle → Handle) (status : ∀ h, (f h).status = h.status) : Keeps Dull (modifyHandle f) := by
  intro w
  have same : ((modifyHandle f : Client Unit) w).2.conn.isOpen = w.conn.isOpen := by
    show (w.conn.completed && (w.conn.handle.map f).any fun h => h.status = .ok) = w.conn.isOpen
    rw [Option.any_map, Connection.isOpen]
    simp only [status]
  exact dull_still rfl same

theorem finished_dead {h : Handle} (handle : w.conn.handle = some h) : (pqFinish w).2.server.store.Dead := by
  rw [pqFinish, modify_apply, handle]
  exact new_session_dead

theorem dull_finish : Keeps Dull pqFinish := by
  apply dull_split (pq_finish_keeps (@dead_background .calm).upkeep)
  intro w isOpen
  obtain ⟨h, handle, _, _⟩ := open_handle isOpen
  exact dull_over (finished_dead handle)

theorem dull_deactivate : Keeps Dull Connection.deactivate := by
  have finishes : Keeps Dull (do Connection.setCompleted false; Connection.doDisconnect : Client Unit) := by
    have up := (@dead_background .calm).upkeep
    apply dull_split (keeps_bind up.toFraming (set_completed_keeps up false) fun _ => pq_finish_keeps up)
    intro w isOpen
    obtain ⟨h, handle, _, _⟩ := open_handle isOpen
    exact dull_over (@finished_dead { w with conn := { w.conn with completed := false } } h handle)
  apply keeps_get
  intro w
  cases w.conn.handle with
  | none => exact keeps_pure dull_framing _
  | some h =>
      cases w.conn.trans with
      | some i => exact keeps_throw dull_framing _
      | none => exact keeps_ite _ (dull_notice _) finishes

theorem dull_put : Keeps Dull (Connection.pqPutCopyData env) := by
  have ended (copying : Copying) (t : Nat) : Keeps Dull (do
      Prog.modify fun w => w.serve (w.server.serve env t 0 (.copyEnd copying.trans copying.text)).2
      modifyHandle fun h => { h with copying := none }
      pure false : Client Bool) := by
    apply keeps_bind dull_framing
    · exact fun w => ⟨fun dead => @serve_dead env _ t dead (.copyEnd copying.trans copying.text) trivial 0, .inl⟩
    · exact fun _ => keeps_bind dull_framing (dull_handle _ fun _ => rfl) fun _ => keeps_pure dull_framing _
  apply keeps_get
  intro w
  cases w.conn.handle.bind Handle.copying with
  | none => exact keeps_pure dull_framing _
  | some copying =>
      apply keeps_bind dull_framing dull_tick
      intro t
      cases env.fate t with
      | answered => exact keeps_pure dull_framing _
      | lostBefore | lostAfter => exact keeps_bind dull_framing (fun w => dull_lose) fun _ => keeps_pure dull_framing _
      | nullBefore | nullAfter => exact ended copying t

theorem dull_give (copying : Copying) : Keeps Dull (Connection.pqGetCopyData env copying) := by
  apply keeps_bind dull_framing dull_tick
  intro t
  apply keeps_ite
  · apply keeps_bind dull_framing (fun w => dull_lose)
    exact fun _ => keeps_get fun w => dull_framing.same
  · cases copying.lines with
    | nil => exact keeps_pure dull_framing _
    | cons line rest => exact keeps_bind dull_framing (dull_handle _ fun _ => rfl) fun _ => keeps_pure dull_framing _

theorem dull_errands : Errands env Dull where
  toFraming := dull_framing
  activates := by
    apply dull_split (Connection.activate_keeps dead_background.upkeep)
    intro w isOpen
    rw [Connection.activate_open isOpen]
    exact dull_framing.same w
  deactivates := dull_deactivate
  resets := dull_reset
  finishes := dull_finish
  requests _ := dull_request
  notifs := dull_notifs
  puts := dull_put
  gives := dull_give
  notices := dull_notice
  members f beside w := by
    have same : (f w.conn).isOpen = w.conn.isOpen := by
      rw [Connection.isOpen, (beside w.conn).completed, (beside w.conn).handle]
      rfl
    exact dull_still rfl same
  turns _ _ _ _ _ := dull_still rfl rfl

theorem dull_enlists (f : List (String × Nat) → List (String × Nat)) : Enlists Dull f := fun _ => dull_still rfl rfl

end

-- A block in progress is on an open connection.
def Grounded (w : World) : Prop := w.server.store.Dead ∨ w.conn.isOpen = true

-- It stays so, for as long as nothing keeps the connection from being made anew.
structure Grounds (w w' : World) : Prop where
  stable : Stable w w'
  grounded : w.Uncounted → Grounded w → Grounded w'

section

variable {env : Outside} {w v : World}

theorem grounds_framing : Framing Grounds where
  same w := ⟨stable_framing.same w, fun _ => id⟩
  onward _ _ _ one two := {
    stable := stable_framing.onward _ _ _ one.stable two.stable
    grounded := fun uncounted before => two.grounded (stable_uncounted uncounted one.stable) (one.grounded uncounted before) }

theorem dull_grounded (dull : Dull w v) (before : Grounded w) : Grounded v := by
  cases before with
  | inl dead => exact .inl (dull.dead dead)
  | inr isOpen => exact (dull.isOpen isOpen).symm

theorem grounds_dull {α : Type} {m : Client α} (stable : Keeps Stable m) (dull : Keeps Dull m) : Keeps Grounds m :=
  fun w => ⟨stable w, fun _ => dull_grounded (dull w)⟩

theorem executed_grounded {sql : Sql} {outcome : Except Exn (List (List String))} (isOpen : w.conn.isOpen = true)
    (executed : Executed env w sql outcome v) : Grounded v := by
  have cut_over : ∀ {u : World} {server : Server}, Cut u v server → Grounded v := by
    intro u server cut
    rw [Grounded, cut.server]
    exact .inl new_session_dead
  cases executed with
  | done _ _ _ _ _ quiet => exact .inr (quiet.isOpen.trans (answered_open.trans isOpen))
  | refused _ _ _ => exact .inr (answered_open.trans isOpen)
  | troubled _ _ _ _ _ _ _ quiet => exact .inr (quiet.isOpen.trans (answered_open.trans isOpen))
  | dropped _ _ _ _ _ _ _ cut => exact cut_over cut
  | unsent _ _ _ => exact .inr ((asked_open [sql] false).trans isOpen)
  | unheard _ _ _ => exact .inr ((asked_open [sql] false).trans isOpen)
  | lostBefore _ _ _ _ cut _ => exact cut_over cut
  | lostAfter _ _ _ _ cut _ => exact cut_over cut

-- Whatever is sent, a block it may open is on the connection that it was sent on.
theorem exec_grounds (sql : Sql) (retries : Nat) (stable : Keeps Stable (Connection.exec env sql retries)) :
    Keeps Grounds (Connection.exec env sql retries) := by
  intro w
  refine ⟨stable w, fun uncounted before => ?_⟩
  apply wp_leaves
  by_cases isOpen : w.conn.isOpen = true
  · exact wp_mono (Connection.exec_open isOpen retries) (fun _ _ executed => executed_grounded isOpen executed)
      fun _ _ executed => executed_grounded isOpen executed
  · have dead : w.server.store.Dead := before.resolve_right isOpen
    apply wp_mono (exec_activated (@dead_background env).upkeep uncounted sql retries)
    · intro _ u done
      obtain ⟨v, _, _, isOpen, executed⟩ := done
      exact executed_grounded isOpen executed
    · intro _ u failed
      cases failed with
      | inl unsent => exact .inl (unsent.1 dead)
      | inr sent =>
          obtain ⟨v, _, _, isOpen, executed⟩ := sent
          exact executed_grounded isOpen executed

theorem grounds_lifetime : Lifetime env Grounds where
  toFraming := grounds_framing
  notices msg := grounds_dull ((@stable_lifetime env).notices msg) (dull_notice msg)
  activates := grounds_dull (@stable_lifetime env).activates (@dull_errands env).activates
  manages sql managing retries := exec_grounds sql retries ((@stable_lifetime env).manages sql managing retries)
  members f aside vars := by
    apply grounds_dull ((@stable_lifetime env).members f aside vars)
    intro w
    have same : (f w.conn).isOpen = w.conn.isOpen := by
      rw [Connection.isOpen, (aside w.conn).completed, (aside w.conn).handle]
      rfl
    exact dull_still rfl same
  notes i f same count := grounds_dull ((@stable_lifetime env).notes i f same count) fun _ => dull_still rfl rfl
  exempts work w works isOpen := by
    refine ⟨(@stable_lifetime env).exempts work w (fun v => (works v).stable) isOpen, fun uncounted before => ?_⟩
    have worked : ∀ v : World, v.Uncounted ∧ Grounded v → (work v).2.Uncounted ∧ Grounded (work v).2 := fun v both =>
      ⟨stable_uncounted both.1 (works v).stable, (works v).grounded both.1 both.2⟩
    exact (@exempt_nought (fun v => v.Uncounted ∧ Grounded v) (fun _ both => both.1.1) work worked w ⟨uncounted, before⟩).2
  notifs := grounds_dull (@stable_lifetime env).notifs dull_notifs
  sends sql deaf retries := exec_grounds sql retries ((@stable_lifetime env).sends sql deaf retries)
  turns i f count vars := grounds_dull ((@stable_lifetime env).turns i f count vars) fun _ => dull_still rfl rfl
  begins i := grounds_dull ((@stable_lifetime env).begins i) fun _ => dull_still rfl rfl
  nought f each w := by
    by_cases zero : ∀ i, (w.trans i).reactivationAvoidance = 0
    · exact each w zero w
    · exact ⟨fun nought => absurd nought zero, fun uncounted => absurd uncounted.2 zero⟩
  opens i x count := grounds_dull ((@stable_lifetime env).opens i x count) fun _ => dull_still rfl rfl
  merges vars := grounds_dull ((@stable_lifetime env).merges vars) fun _ => dull_still rfl rfl

theorem grounds_errands : Errands env Grounds where
  toFraming := grounds_framing
  activates := grounds_dull (@stable_errands env).activates (@dull_errands env).activates
  deactivates := grounds_dull (@stable_errands env).deactivates dull_deactivate
  resets := grounds_dull (@stable_errands env).resets dull_reset
  finishes := grounds_dull (@stable_errands env).finishes dull_finish
  requests sql ordinary := grounds_dull ((@stable_errands env).requests sql ordinary) (dull_request ordinary)
  notifs := grounds_dull (@stable_errands env).notifs dull_notifs
  puts := grounds_dull (@stable_errands env).puts dull_put
  gives copying := grounds_dull ((@stable_errands env).gives copying) (dull_give copying)
  notices msg := grounds_dull ((@stable_errands env).notices msg) (dull_notice msg)
  members f beside := grounds_dull ((@stable_errands env).members f beside) ((@dull_errands env).members f beside)
  turns i f same count := grounds_dull ((@stable_errands env).turns i f same count) ((@dull_errands env).turns i f same count)

theorem grounds_enlists (f : List (String × Nat) → List (String × Nat)) : Enlists Grounds f := grounds_dull (fun _ => stable_same rfl rfl) (dull_enlists f)

end

end Pqxx
