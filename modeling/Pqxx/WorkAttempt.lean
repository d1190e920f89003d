import Pqxx.PendingErrors
import Pqxx.TransactionUpkeep
import Pqxx.Unhindered

set_option autoImplicit false

namespace Pqxx

open Lib Prog

-- libpq gives no result, and takes in nothing, only where the connection is lost.
structure Outside.Candid (env : Outside) : Prop where
  heard : ∀ t, env.fate t ≠ .nullBefore ∧ env.fate t ≠ .nullAfter
  consumes : ∀ t, env.consumes t ≠ .trouble

-- The database holds these effects, and the session has nothing that COMMIT would add.
def Server.Holds (held : List Effect) (s : Server) : Prop := s.store.Idle View.effects held

-- It has a block that COMMIT would add these new ones for.
def Server.Pending (held new : List Effect) (s : Server) : Prop := s.store.Pending View.effects held (held ++ new)

section

variable {env : Outside} {held new : List Effect} {s : Server} {t : Nat}

theorem new_session_holds (base : s.store.base.effects = held) : s.newSession.Holds held := by
  refine ⟨base, fun b there => ?_⟩
  cases there

theorem restoring_effects {v v' : View} {prepared : List (String × String)} {sql : Sql} {rows : List (List String)} (restoring : sql.restoring)
    (outcome : v.run env t prepared sql = .ok (v', rows)) : v'.effects = v.effects := by
  cases sql with
  | setVar var value =>
      cases outcome
      rfl
  | listen channel =>
      cases outcome
      rfl
  | _ => exact restoring.elim

theorem server_run_holds (idle : s.Holds held) {sql : Sql}
    (same : ∀ v rows, s.store.view.run env t s.prepared sql = .ok (v, rows) → v.effects = s.store.view.effects) : (s.run env t sql).2.Holds held := by
  rw [Server.run]
  split
  · exact idle
  · rename_i works
    split
    · exact Store.fail_idle idle.base
    · rename_i view rows outcome
      exact Store.idle_put idle (Bool.eq_false_iff.mpr works) view (same view rows outcome)

theorem restoring_holds (idle : s.Holds held) {sql : Sql} (restoring : sql.restoring) (i : Nat) : (s.serve env t i sql).2.Holds held := by
  have inside : sql ≠ .commit := by
    intro same
    rw [same] at restoring
    exact restoring
  rw [Server.serve]
  split
  · rw [Server.refuse, if_neg inside]
    exact Store.fail_idle idle.base
  · cases sql with
    | setVar var value => exact server_run_holds idle fun _ _ => restoring_effects restoring
    | listen channel => exact server_run_holds idle fun _ _ => restoring_effects restoring
    | _ => exact restoring.elim

theorem serve_batch_holds (idle : s.Holds held) (batch : List Sql) (restoring : ∀ sql ∈ batch, sql.restoring) :
    (s.serveBatch env t batch).2.Holds held := by
  have all : ∀ (batch : List Sql) (s : Server) (i : Nat), (∀ sql ∈ batch, sql.restoring) → s.Holds held →
      (s.serveAll env t i batch).2.1.Holds held := by
    intro batch
    induction batch with
    | nil => exact fun s i _ idle => idle
    | cons sql rest ih =>
        intro s i restoring idle
        have served := @restoring_holds env held s t idle sql (restoring sql List.mem_cons_self) i
        rw [Server.serveAll]
        split
        · rename_i next outcome
          rw [outcome] at served
          exact served
        · rename_i next outcome
          rw [outcome] at served
          exact ih next (i + 1) (fun sql there => restoring sql (List.mem_cons_of_mem _ there)) served
  have through := all batch s 1 restoring idle
  simp only [Server.serveBatch]
  split
  · exact through
  · exact Store.fail_idle idle.base

-- Nothing the connection does on its own account makes a difference to what is committed.
theorem holds_background : Background env fun w w' => w.server.Holds held → w'.server.Holds held where
  same _ := id
  onward _ _ _ left right := fun idle => right (left idle)
  link w w' _ server _ _ := fun idle => by
    rw [server]
    exact idle
  ends w w' _ server _ _ := fun idle => by
    rw [server]
    exact new_session_holds idle.base
  asks _ _ _ := id
  restores _ batch restoring := fun idle => serve_batch_holds idle batch restoring

theorem begin_effects (base : s.store.base.effects = held) (args : String) : (s.serve env t 0 (.begin args)).2.store.base.effects = held := by
  rw [Server.serve]
  split
  · exact base
  · rw [Server.perform]
    split
    · exact base
    · cases block : s.store.block with
      | none =>
          simp only [Store.begin, block]
          exact base
      | some b =>
          simp only [Store.begin, block]
          exact base

theorem begin_accepted (idle : s.Holds held) {args : String} {rows : List (List String)} (answer : (s.serve env t 0 (.begin args)).1 = .rows rows) :
    (s.serve env t 0 (.begin args)).2.Pending held [] := by
  rw [Server.serve] at answer ⊢
  split at answer
  · cases answer
  · rw [Server.perform] at answer ⊢
    split at answer
    · cases answer
    · rename_i works
      rw [if_neg works, Server.Pending, List.append_nil]
      exact Store.idle_begin idle (Bool.eq_false_iff.mpr works) (fun v => { v with marks := t :: v.marks }) fun _ => rfl

theorem begin_refused (idle : s.Holds held) {args : String} {error : SqlError} (answer : (s.serve env t 0 (.begin args)).1 = .failed error) :
    (s.serve env t 0 (.begin args)).2.Holds held := by
  rw [Server.serve] at answer ⊢
  split at answer
  · exact Store.fail_idle idle.base
  · rw [Server.perform] at answer ⊢
    split at answer
    · rename_i failed
      rw [if_pos failed]
      exact idle
    · cases answer

theorem statement_accepted (pending : s.Pending held new) (i : Nat) (text : String) (args : List (Option String)) {rows : List (List String)}
    (answer : (s.serve env t 0 (.statement i text args)).1 = .rows rows) :
    (s.serve env t 0 (.statement i text args)).2.Pending held (new ++ [{ time := t, trans := i, text }]) := by
  have works : ¬ s.store.failed = true := Bool.eq_false_iff.mp (Store.pending_works pending)
  have viewed : s.store.view.effects = held ++ new := Store.pending_view pending
  rw [Server.serve] at answer ⊢
  split at answer
  · cases answer
  · simp only [Server.perform, Server.run, if_neg works, View.run]
    refine Store.pending_put pending _ ?_
    simp only [View.apply, viewed, List.append_assoc]

theorem statement_base (base : s.store.base.effects = held) (works : s.store.failed = false) (block : s.store.block ≠ none) (i : Nat) (text : String)
    (args : List (Option String)) : (s.serve env t 0 (.statement i text args)).2.store.base.effects = held := by
  have through : ¬ s.store.failed = true := Bool.eq_false_iff.mp works
  rw [Server.serve]
  split
  · exact base
  · simp only [Server.perform, Server.run, if_neg through, View.run, Store.put]
    cases there : s.store.block with
    | none => exact absurd there block
    | some b => exact base

theorem commit_served_holds (pending : s.Pending held new) (i : Nat) :
    (env.refuses t i = none → (s.serve env t i .commit).2.Holds (held ++ new)) ∧
    (env.refuses t i ≠ none → (s.serve env t i .commit).2.Holds held) := by
  rw [Server.serve]
  constructor
  · intro accepted
    rw [accepted]
    exact Store.pending_commit pending
  · intro refused
    obtain ⟨error, refusal⟩ := Option.ne_none_iff_exists'.mp refused
    rw [refusal]
    exact Store.idle_rollback pending.base

theorem rollback_holds (base : s.store.base.effects = held) (i : Nat) : (s.serve env t i .rollback).2.Holds held := by
  rw [Server.serve]
  split
  · exact Store.fail_idle base
  · exact Store.idle_rollback base

end

-- What a request on an open connection comes to for the database, where libpq is candid.
section

variable {env : Outside} (candid : env.Candid) {held new : List Effect} {i : Nat} {w u : World} {sql : Sql}

include candid

-- An exception means that the backend refused, or that the session is over.
theorem executed_error {e : Exn} (executed : Executed env w sql (.error e) u) :
    (∃ error, (w.server.serve env w.clock 0 sql).1 = .failed error ∧ u.server = (w.server.serve env w.clock 0 sql).2 ∧ u.conn.isOpen = w.conn.isOpen) ∨
    u.conn.isOpen = false ∧ (u.server = w.server.newSession ∨ u.server = (w.server.serve env w.clock 0 sql).2.newSession) := by
  cases executed with
  | refused error fate answer => exact .inl ⟨error, answer, rfl, answered_open⟩
  | troubled rows e w' fate answer consumed broken quiet => exact absurd consumed (candid.consumes _)
  | dropped rows e w' fate answer consumed broken cut => exact .inr ⟨cut.closed, .inr cut.server⟩
  | unsent fate e failure => exact absurd fate (candid.heard _).1
  | unheard fate e failure => exact absurd fate (candid.heard _).2
  | lostBefore fate e w' broken cut freed => exact .inr ⟨cut.closed, .inl cut.server⟩
  | lostAfter fate e w' broken cut freed => exact .inr ⟨cut.closed, .inr cut.server⟩

omit candid in
theorem executed_rows {rows : List (List String)} (executed : Executed env w sql (.ok rows) u) :
    (w.server.serve env w.clock 0 sql).1 = .rows rows ∧ u.server = (w.server.serve env w.clock 0 sql).2 ∧ u.conn.isOpen = w.conn.isOpen := by
  cases executed with
  | done rows w' fate answer consumed quiet => exact ⟨answer, quiet.server, quiet.isOpen.trans answered_open⟩

-- A statement that leaves what is committed alone, and then fails.
theorem executed_holds {e : Exn} (executed : Executed env w sql (.error e) u) (before : w.server.store.base.effects = held)
    (after : (w.server.serve env w.clock 0 sql).2.store.base.effects = held)
    (refused : ∀ error, (w.server.serve env w.clock 0 sql).1 = .failed error → (w.server.serve env w.clock 0 sql).2.Holds held) : u.server.Holds held := by
  cases executed_error candid executed with
  | inl answered =>
      obtain ⟨error, answer, server, _⟩ := answered
      rw [server]
      exact refused error answer
  | inr lost =>
      cases lost.2 with
      | inl unserved =>
          rw [unserved]
          exact new_session_holds before
      | inr served =>
          rw [served]
          exact new_session_holds after

theorem executed_begin_fails {args : String} {e : Exn} (executed : Executed env w (.begin args) (.error e) u) (idle : w.server.Holds held) :
    u.server.Holds held :=
  executed_holds candid executed idle.base (begin_effects idle.base args) fun _ => begin_refused idle

theorem executed_rollback_fails {e : Exn} (executed : Executed env w .rollback (.error e) u) (base : w.server.store.base.effects = held) :
    u.server.Holds held :=
  executed_holds candid executed base (rollback_holds base 0).base fun _ _ => rollback_holds base 0

theorem executed_statement_fails {text : String} {args : List (Option String)} {e : Exn} (pending : w.server.Pending held new)
    (executed : Executed env w (.statement i text args) (.error e) u) : u.server.Holds held := by
  obtain ⟨b, block, _⟩ := pending.live
  have blocked : w.server.store.block ≠ none := by simp [block]
  have base := @statement_base env held w.server w.clock pending.base (Store.pending_works pending) blocked i text args
  refine executed_holds candid executed pending.base base fun error answer => ?_
  rw [Server.serve] at answer ⊢
  split at answer
  · exact Store.fail_idle pending.base
  · have works : ¬ w.server.store.failed = true := Bool.eq_false_iff.mp (Store.pending_works pending)
    simp only [Server.perform, Server.run, if_neg works, View.run] at answer
    cases answer

theorem executed_commit_fails {e : Exn} (executed : Executed env w .commit (.error e) u) (pending : w.server.Pending held new) :
    (u.conn.isOpen = true → u.server.Holds held) ∧ (u.conn.isOpen = false → u.server.Holds held ∨ u.server.Holds (held ++ new)) := by
  obtain ⟨accepted, refused⟩ := @commit_served_holds env held new w.server w.clock pending 0
  cases executed_error candid executed with
  | inl answered =>
      obtain ⟨error, answer, server, stays⟩ := answered
      have denied : env.refuses w.clock 0 ≠ none := by
        intro granted
        rw [serve_commit w.server 0 granted] at answer
        cases answer
      rw [server]
      exact ⟨fun _ => refused denied, fun _ => .inl (refused denied)⟩
  | inr lost =>
      rw [lost.1]
      refine ⟨fun isOpen => absurd isOpen Bool.false_ne_true, fun _ => ?_⟩
      cases lost.2 with
      | inl unserved =>
          rw [unserved]
          exact .inl (new_session_holds pending.base)
      | inr served =>
          rw [served]
          by_cases granted : env.refuses w.clock 0 = none
          · exact .inr (new_session_holds (accepted granted).base)
          · exact .inl (new_session_holds (refused granted).base)

end

-- No transaction has anything that keeps the connection from being made anew.
def World.Uncounted (w : World) : Prop := w.conn.reactivationAvoidance = 0 ∧ ∀ j, (w.trans j).reactivationAvoidance = 0

theorem stable_uncounted {w w' : World} (uncounted : w.Uncounted) (stable : Stable w w') : w'.Uncounted := by
  obtain ⟨count, counts⟩ := stable uncounted.2
  exact ⟨count.trans uncounted.1, counts⟩

section

variable {env : Outside} {i : Nat} {w : World}

theorem same_trans_background : Background env fun w w' => w'.trans = w.trans where
  same _ := rfl
  onward _ _ _ left right := right.trans left
  link _ _ trans _ _ _ := trans
  ends _ _ trans _ _ _ := trans
  asks _ _ _ := rfl
  restores _ _ _ := rfl

-- exec() activates the connection first, and then finds it open.
theorem exec_activated {R : World → World → Prop} (up : Upkeep env R) (uncounted : w.Uncounted) (sql : Sql) (retries : Nat) :
    wp (Connection.exec env sql retries)
      (fun rows w' => ∃ v, R w v ∧ v.trans = w.trans ∧ v.conn.isOpen = true ∧ Executed env v sql (.ok rows) w')
      (fun e w' => R w w' ∧ w'.trans = w.trans ∨ ∃ v, R w v ∧ v.trans = w.trans ∧ v.conn.isOpen = true ∧ Executed env v sql (.error e) w') w := by
  have keeps : Keeps (fun w w' => (R w w' ∧ w'.trans = w.trans) ∧ Tended w.conn w'.conn) (Connection.activate env) := fun w =>
    ⟨⟨Connection.activate_keeps up w, Connection.activate_keeps same_trans_background.upkeep w⟩, Connection.activate_keeps (tended_upkeep env) w⟩
  simp only [Connection.exec]
  rw [wp_bind]
  refine wp_mono (wp_and Connection.activate_ends (wp_keeps keeps)) (fun _ v both => ?_) (fun e v both => .inl both.2.1)
  obtain ⟨settled, ⟨kept, trans⟩, tended⟩ := both
  have isOpen : v.conn.isOpen = true := settled.resolve_right (not_not.mpr (tended.reactivationAvoidance.trans uncounted.1))
  have all := @Connection.exec_open env v sql isOpen retries
  simp only [Connection.exec] at all
  rw [wp_bind] at all
  have skipped : ∀ {post : Unit → World → Prop} {raised : Exn → World → Prop}, wp (Connection.activate env) post raised v → post () v := by
    intro post raised spec
    rw [wp, Connection.activate_open isOpen] at spec
    exact spec
  refine wp_mono (skipped all) (fun rows u executed => ⟨v, kept, trans, isOpen, executed⟩) fun e u executed => ?_
  exact .inr ⟨v, kept, trans, isOpen, executed⟩

end

-- A work that can go on: what it has run so far will be in the database if it commits.
structure Working (held new : List Effect) (i : Nat) (w : World) : Prop where
  kind : (w.trans i).kind = .work
  active : (w.trans i).status = .active
  clean : (w.trans i).pendingError = ""
  plain : (w.trans i).focus = none
  isOpen : w.conn.isOpen = true
  pending : w.server.Pending held new

-- One that has come to an end.
structure Over (held : List Effect) (i : Nat) (w : World) : Prop where
  ended : (w.trans i).status ≠ .active
  clean : (w.trans i).pendingError = ""
  plain : (w.trans i).focus = none
  idle : w.server.Holds held

section

variable {env : Outside} (candid : env.Candid) {held new : List Effect} {i : Nat} {w : World}

theorem turned_over {statuses : Nat → Status} {u : World} (turned : Turned w.server statuses w u) (ended : statuses i ≠ .active)
    (clean : (w.trans i).pendingError = "") (plain : (w.trans i).focus = none) (idle : w.server.Holds held) : Over held i u where
  ended := by
    rw [turned.status]
    exact ended
  clean := (turned.pendingError i).trans clean
  plain := (turned.focus i).trans plain
  idle := by
    rw [turned.server]
    exact idle

theorem end_over (gone : Over held i w) : wp (Transaction.end_ env i) (fun _ u => Over held i u) (fun _ _ => False) w :=
  wp_mono (Transaction.turned_end gone.clean gone.ended)
    (fun _ _ turned => turned_over turned gone.ended gone.clean gone.plain gone.idle) fun _ _ => id

include candid

-- ROLLBACK, on a connection that may have to be made first.
theorem rollback_done (uncounted : w.Uncounted) (clean : (w.trans i).pendingError = "")
    (ready : w.server.Holds held ∨ w.conn.isOpen = true ∧ w.server.store.base.effects = held) :
    wp (Transaction.direct env i .rollback 0) (fun _ u => u.server.Holds held ∧ u.trans = w.trans)
      (fun _ u => u.server.Holds held ∧ u.trans = w.trans) w := by
  have accepted : ∀ {v u : World} {rows : List (List String)}, v.server.store.base.effects = held → Executed env v .rollback (.ok rows) u →
      u.server.Holds held := by
    intro v u rows base executed
    rw [(executed_rows executed).2.1]
    exact rollback_holds base 0
  simp only [Transaction.direct, Transaction.directExec]
  rw [wp_bind, wp_bind]
  refine wp_ok (Transaction.check_pending_clean clean) ?_
  cases ready with
  | inl idle =>
      refine wp_mono (exec_activated (@holds_background env held).upkeep uncounted .rollback 0) ?_ ?_
      · intro rows u done
        obtain ⟨v, kept, trans, _, executed⟩ := done
        exact ⟨accepted (kept idle).base executed, (executed_trans executed).trans trans⟩
      · intro e u failed
        cases failed with
        | inl unsent => exact ⟨unsent.1 idle, unsent.2⟩
        | inr sent =>
            obtain ⟨v, kept, trans, _, executed⟩ := sent
            exact ⟨executed_rollback_fails candid executed (kept idle).base, (executed_trans executed).trans trans⟩
  | inr open_ =>
      refine wp_mono (Connection.exec_open open_.1 0) ?_ ?_
      · exact fun rows u executed => ⟨accepted open_.2 executed, executed_trans executed⟩
      · exact fun e u executed => ⟨executed_rollback_fails candid executed open_.2, executed_trans executed⟩

theorem abort_over (uncounted : w.Uncounted) (kind : (w.trans i).kind = .work) (active : (w.trans i).status = .active)
    (clean : (w.trans i).pendingError = "") (plain : (w.trans i).focus = none)
    (ready : w.server.Holds held ∨ w.conn.isOpen = true ∧ w.server.store.base.effects = held) :
    wp (Transaction.abort env i) (fun _ u => Over held i u ∧ (u.trans i).status = .aborted) (fun _ _ => False) w := by
  have forgets : wp (Transaction.swallow (Transaction.doAbort env i))
      (fun _ u => u.server.Holds held ∧ (u.trans i).pendingError = "" ∧ (u.trans i).focus = none) (fun _ _ => False) w := by
    simp only [Transaction.swallow]
    rw [wp_try_catch, Transaction.doAbort, wp_bind, wp_get]
    simp only [kind, Transaction.dbAbort, modifyTrans]
    rw [wp_bind, wp_modify]
    have noted : ({ w with trans := fun j => if j = i then { w.trans j with reactivationAvoidance := 0 } else w.trans j } : World).Uncounted := by
      refine ⟨uncounted.1, fun j => ?_⟩
      simp only
      split
      · rfl
      · exact uncounted.2 j
    refine wp_mono (rollback_done candid noted (by simpa using clean) ready) ?_ ?_
    · intro _ u done
      rw [done.2]
      simpa [done.1, plain] using clean
    · intro _ u done
      simp only [wp_pure]
      rw [done.2]
      simpa [done.1, plain] using clean
  rw [Transaction.abort, wp_bind, wp_get]
  simp only [active]
  rw [wp_bind]
  refine wp_mono forgets (fun _ u gone => ?_) fun _ _ => id
  rw [wp_bind]
  refine wp_mono (turned_set_status .aborted) (fun _ v one => ?_) fun _ _ => id
  refine wp_mono (Transaction.turned_end_closed ((one.pendingError i).trans gone.2.1)) (fun _ x two => ?_) fun _ _ => id
  have turned := turned_still one two
  have status : (x.trans i).status = .aborted := (turned.status i).trans (if_pos rfl)
  exact ⟨turned_over turned (by simp [turn]) gone.2.1 gone.2.2 gone.1, status⟩

-- The destructor, of a work that was left alone or has ended.
theorem end_working (uncounted : w.Uncounted) (working : Working held new i w) :
    wp (Transaction.end_ env i) (fun _ u => Over held i u) (fun _ _ => False) w := by
  rw [Transaction.end_, Transaction.noticing, wp_try_catch, wp_bind]
  have counted := wp_keeps (s := w) (Transaction.end_closed_keeps (@stable_duties env).toChores i)
  refine wp_mono (wp_and (Transaction.turned_end_closed working.clean) counted) (fun _ u both => ?_) (fun _ _ both => both.1.elim)
  obtain ⟨one, stable⟩ := both
  rw [wp_bind, wp_get]
  have active : (u.trans i).status = .active := (one.status i).trans working.active
  have plain : (u.trans i).focus = none := (one.focus i).trans working.plain
  rw [if_pos active, wp_bind, Transaction.noteFocus, plain]
  refine wp_ok rfl ?_
  rw [wp_bind, Transaction.noticing, wp_try_catch]
  have ready : u.conn.isOpen = true ∧ u.server.store.base.effects = held := by
    rw [one.isOpen, one.server]
    exact ⟨working.isOpen, working.pending.base⟩
  have aborts := abort_over candid (stable_uncounted uncounted stable) ((one.kind i).trans working.kind) active
    ((one.pendingError i).trans working.clean) plain (.inr ready)
  refine wp_mono aborts (fun _ v gone => ?_) (fun _ _ => False.elim)
  simp only [wp_bind, wp_get, modifyConn, modifyTrans, wp_modify]
  obtain ⟨gone, _⟩ := gone
  exact ⟨by simpa using gone.ended, by simpa using gone.clean, by simpa using gone.plain, gone.idle⟩

-- exec() of a work that can go on adds its statement, or the work is over.
theorem exec_working (uncounted : w.Uncounted) (working : Working held new i w) (query desc : String) :
    wp (Transaction.exec env i query desc)
      (fun _ u => Working held (new ++ [{ time := w.clock, trans := i, text := query }]) i u)
      (fun _ u => Over held i u ∧ (u.trans i).status = .aborted) w := by
  have stable := wp_keeps (s := w) (Transaction.direct_exec_keeps (i := i) (@stable_duties env).toChores
    ((@stable_duties env).sends (.statement i query []) trivial 0))
  rw [Transaction.exec, Transaction.execSql, wp_bind]
  refine wp_ok (Transaction.check_pending_clean working.clean) ?_
  rw [wp_bind, wp_get, working.plain]
  have ready : Transaction.activateFor env i ("Error executing query " ++ (if desc = "" then "" else "'" ++ desc ++ "' ")) w = (.ok (), w) := by
    simp only [Transaction.activateFor, Transaction.activate, Prog.try_catch_apply, Prog.bind_apply, Prog.get_apply, working.active, Prog.pure_apply]
  rw [wp_bind]
  refine wp_ok ready ?_
  rw [Transaction.doExec, wp_try_catch]
  refine wp_mono (wp_and (direct_open working.clean working.isOpen 0) stable) ?_ ?_
  · intro rows u both
    have trans := executed_trans both.1
    obtain ⟨answer, server, stays⟩ := executed_rows both.1
    refine ⟨by rw [trans]; exact working.kind, by rw [trans]; exact working.active, by rw [trans]; exact working.clean,
      by rw [trans]; exact working.plain, stays.trans working.isOpen, ?_⟩
    rw [server]
    exact statement_accepted working.pending i query [] answer
  · intro e u both
    have trans := executed_trans both.1
    rw [wp_bind, Transaction.swallow, wp_try_catch]
    have aborts := abort_over candid (stable_uncounted uncounted both.2) (i := i) (by rw [trans]; exact working.kind)
      (by rw [trans]; exact working.active) (by rw [trans]; exact working.clean) (by rw [trans]; exact working.plain)
      (.inl (executed_statement_fails candid working.pending both.1))
    exact wp_mono aborts (fun _ v gone => gone) fun _ _ => False.elim

omit candid in
theorem exec_aborted (gone : Over held i w) (aborted : (w.trans i).status = .aborted) (query desc : String) :
    ∃ e, Transaction.exec env i query desc w = (.error e, w) := by
  have refused : ∀ purpose, Transaction.activateFor env i purpose w = (.error {
      kind := .usageError
      what := purpose ++ ".  " ++ ("Attempt to activate " ++ (w.trans i).description ++ " which is already closed") }, w) := by
    intro purpose
    simp only [Transaction.activateFor, Transaction.activate, Prog.try_catch_apply, Prog.bind_apply, Prog.get_apply, aborted, fault,
      Prog.throw_apply, Exn.isA]
    rfl
  simp only [Transaction.exec, Transaction.execSql, Prog.bind_apply, Transaction.check_pending_clean gone.clean, Prog.get_apply, gone.plain, refused]
  exact ⟨_, rfl⟩

-- BEGIN on whatever connection there is.
theorem begin_working (uncounted : w.Uncounted) (idle : w.server.Holds held) (kind : (w.trans i).kind = .work)
    (nascent : (w.trans i).status = .nascent) (clean : (w.trans i).pendingError = "") (plain : (w.trans i).focus = none) :
    wp (Transaction.begin env i) (fun _ u => Working held [] i u) (fun _ u => u.server.Holds held) w := by
  have fresh : ¬ (w.trans i).status ≠ .nascent := not_not.mpr nascent
  have notified := wp_keeps (s := w) (Connection.get_notifs_keeps (@holds_background env held).upkeep)
  have same := wp_keeps (s := w) (Connection.get_notifs_keeps (@same_trans_background env).upkeep)
  have stable := wp_keeps (s := w) (Connection.get_notifs_keeps (@stable_upkeep env))
  have closing : ∀ {u : World}, u.server.Holds held → u.trans = w.trans → wp (Transaction.end_ env i) (fun _ v => v.server.Holds held) (fun _ _ => False) u := by
    intro u idle trans
    have gone : Over held i u := ⟨by simp [trans, nascent], by rw [trans]; exact clean, by rw [trans]; exact plain, idle⟩
    exact wp_mono (end_over gone) (fun _ _ gone => gone.idle) fun _ _ => id
  have ending : ∀ {u : World} (e : Exn), u.server.Holds held → u.trans = w.trans →
      wp (do
        Transaction.end_ env i
        throw e : Client Unit) (fun _ v => Working held [] i v) (fun _ v => v.server.Holds held) u := by
    intro u e idle trans
    rw [wp_bind]
    exact wp_mono (closing idle trans) (fun _ _ idle => idle) fun _ _ => False.elim
  rw [Transaction.begin, wp_bind, wp_get, if_neg fresh, wp_try_catch, wp_bind]
  refine wp_mono (wp_and (wp_and notified same) stable) ?_ fun e u all => ending e (all.1.1 idle) all.1.2
  intro _ u all
  obtain ⟨⟨idles, trans⟩, stable⟩ := all
  have idle := idles idle
  rw [wp_bind, Transaction.doBegin, wp_bind, wp_get, trans, kind]
  simp only [Transaction.dbBegin, Transaction.direct, Transaction.directExec]
  rw [wp_bind, wp_get, wp_bind, wp_bind]
  refine wp_ok (Transaction.check_pending_clean (by rw [trans]; exact clean)) ?_
  refine wp_mono (exec_activated (@holds_background env held).upkeep (stable_uncounted uncounted stable) _ _) ?_ ?_
  · intro rows v done
    obtain ⟨x, kept, before, isOpen, executed⟩ := done
    obtain ⟨answer, server, stays⟩ := executed_rows executed
    have same : v.trans = w.trans := (executed_trans executed).trans (before.trans trans)
    have pending := begin_accepted (kept idle) answer
    simp only [wp_pure, Transaction.setBegun, wp_modify]
    refine ⟨by simp [same, kind], by simp, by simp [same, clean], by simp [same, plain], stays.trans isOpen, ?_⟩
    show v.server.Pending held []
    rw [server]
    exact pending
  · intro e v failed
    cases failed with
    | inl unsent => exact ending e (unsent.1 idle) (unsent.2.trans trans)
    | inr sent =>
        obtain ⟨x, kept, before, isOpen, executed⟩ := sent
        exact ending e (executed_begin_fails candid executed (kept idle)) ((executed_trans executed).trans (before.trans trans))

-- The constructor.
theorem open_working (uncounted : w.Uncounted) (idle : w.server.Holds held) (classname name startArgs : String) :
    wp (openWork env i .work classname name startArgs "") (fun _ u => Working held [] i u) (fun _ u => u.server.Holds held) w := by
  have noted : ∀ {u : World} (f : Transaction → Transaction), u.Uncounted → (∀ x : Transaction, x.reactivationAvoidance = 0 → (f x).reactivationAvoidance = 0) →
      (u.note i f).Uncounted := by
    intro u f uncounted nought
    refine ⟨uncounted.1, fun j => ?_⟩
    simp only [World.note]
    split
    · exact nought _ (uncounted.2 j)
    · exact uncounted.2 j
  have opened := noted (fun _ => Transaction.fresh .work classname name startArgs "") uncounted fun _ _ => rfl
  have starting : ∀ u : World, u.trans = (w.note i fun _ => Transaction.fresh .work classname name startArgs "").trans → u.server = w.server →
      u.conn.reactivationAvoidance = 0 → wp (do
        modifyTrans i fun x => { x with registered := true }
        Transaction.begin env i) (fun _ u => Working held [] i u) (fun _ u => u.server.Holds held) u := by
    intro u trans server count
    simp only [modifyTrans]
    rw [wp_bind, wp_modify]
    have before : u.Uncounted := ⟨count, by rw [trans]; exact opened.2⟩
    refine begin_working candid (noted (fun x => { x with registered := true }) before fun _ => id) (by show u.server.Holds held; rw [server]; exact idle) ?_ ?_ ?_ ?_
    all_goals simp [World.note, trans, Transaction.fresh]
  rw [openWork]
  simp only [modifyTrans]
  rw [wp_bind, wp_modify, wp_bind, Connection.registerTransaction, wp_bind, wp_get]
  cases there : w.conn.trans with
  | none =>
      simp only [modifyConn, wp_modify]
      exact starting _ rfl rfl uncounted.1
  | some old => exact wp_ite _ _ _ _ _ _ (fun _ => idle) fun _ => idle

-- commit() of a work that can go on.
theorem commit_working (working : Working held new i w) :
    wp (Transaction.commit env i) (fun _ u => Over (held ++ new) i u)
      (fun e u => Over held i u ∨ e.isA .inDoubtError = true ∧ Over (held ++ new) i u) w := by
  have isOpen := working.isOpen
  have closing : ∀ {u v : World} (status : Status) {effects : List Effect}, status ≠ .active → u.trans = w.trans → v.trans = u.trans → v.server = u.server →
      u.server.Holds effects → Over effects i { v with trans := fun j => if j = i then { v.trans j with status } else v.trans j } := by
    intro u v status effects ended before trans server idle
    refine ⟨by simpa using ended, by simp [trans, before, working.clean], by simp [trans, before, working.plain], ?_⟩
    show v.server.Holds effects
    rw [server]
    exact idle
  have done : Transaction.doCommit env i w = Transaction.workCommit env i w := by
    simp only [Transaction.doCommit, Prog.bind_apply, Prog.get_apply, working.kind]
  have committing := @work_commit_spec env i w working.clean working.isOpen
  unfold wp at committing
  rw [← done] at committing
  simp only [Transaction.commit]
  rw [wp_bind]
  refine wp_ok (Transaction.check_pending_clean working.clean) ?_
  rw [wp_bind, wp_get, working.active, working.plain, if_neg (by simp [isOpen]), Transaction.commitActive, wp_bind, wp_try_catch, wp_bind]
  refine wp_mono committing ?_ ?_
  · intro _ u committed
    obtain ⟨rows, executed⟩ := committed
    obtain ⟨answer, server, _⟩ := executed_rows executed
    have granted : env.refuses w.clock 0 = none := by
      cases refusal : env.refuses w.clock 0 with
      | none => rfl
      | some error =>
          rw [Server.serve, refusal] at answer
          cases answer
    have idle : u.server.Holds (held ++ new) := by
      rw [server]
      exact (commit_served_holds working.pending 0).1 granted
    simp only [Transaction.setStatus, modifyTrans, Connection.addVariables, modifyConn, wp_bind, wp_modify, wp_get]
    have gone := closing .committed (by decide) (executed_trans executed) rfl rfl idle
    exact wp_mono (end_over ⟨gone.ended, gone.clean, gone.plain, gone.idle⟩) (fun _ _ => id) fun _ _ => False.elim
  · intro e v failed
    obtain ⟨e', u, executed, alike, certain⟩ := failed
    obtain ⟨stays, goes⟩ := executed_commit_fails candid executed working.pending
    have ended : (if e.isA .inDoubtError then Status.inDoubt else .aborted) ≠ .active := by split <;> decide
    simp only [Transaction.setStatus, modifyTrans, wp_bind, wp_modify, wp_throw]
    cases open_ : u.conn.isOpen with
    | true => exact .inl (closing _ ended (executed_trans executed) alike.1 alike.2.1 (stays open_))
    | false =>
        have doubt : e.isA .inDoubtError = true := by rw [certain, open_]; rfl
        cases goes open_ with
        | inl idle => exact .inl (closing _ ended (executed_trans executed) alike.1 alike.2.1 idle)
        | inr idle => exact .inr ⟨doubt, closing _ ended (executed_trans executed) alike.1 alike.2.1 idle⟩

omit candid in
theorem commit_aborted (gone : Over held i w) (aborted : (w.trans i).status = .aborted) :
    ∃ e, Transaction.commit env i w = (.error e, w) ∧ e.isA .inDoubtError = false := by
  refine ⟨{ kind := .usageError, what := "Attempt to commit previously aborted " ++ (w.trans i).description }, ?_, rfl⟩
  simp only [Transaction.commit, Prog.bind_apply, Transaction.check_pending_clean gone.clean, Prog.get_apply, aborted, fault, Prog.throw_apply]

omit candid in
-- What ~transaction_base does after End() has nothing to do with the database.
theorem destroy_holds (ends : wp (Transaction.end_ env i) (fun _ u => Over held i u) (fun _ _ => False) w) :
    (Transaction.destroy env i w).2.server.Holds held := by
  have framing : Framing fun w w' : World => w'.server = w.server := ⟨fun _ => rfl, fun _ _ _ left right => right.trans left⟩
  have notices : ∀ msg, Keeps (fun w w' : World => w'.server = w.server) (processNotice msg) := by
    intro msg
    apply keeps_modify
    intro w
    split <;> rfl
  have spec : wp (Transaction.destroy env i) (fun _ u => u.server.Holds held) (fun _ u => u.server.Holds held) w := by
    rw [Transaction.destroy, wp_bind]
    refine wp_mono ends (fun _ u gone => ?_) fun _ _ => False.elim
    have idle : ∀ v : World, v.server = u.server → v.server.Holds held := by
      intro v same
      rw [same]
      exact gone.idle
    refine wp_mono (wp_keeps (R := fun w w' : World => w'.server = w.server) ?_) (fun _ v => idle v) fun _ v => idle v
    refine keeps_try_catch framing (keeps_bind framing (keeps_modify _ fun _ => rfl) fun _ => keeps_get fun w => ?_) fun e => notices _
    refine keeps_bind framing (keeps_when framing _ (notices _)) fun _ => keeps_when framing _ ?_
    refine keeps_bind framing (notices _) fun _ => keeps_get fun w => ?_
    cases w.conn.trans with
    | none => exact notices _
    | some old => exact keeps_ite _ (keeps_modify _ fun _ => rfl) (notices _)
  exact wp_leaves spec

omit candid in
theorem destroy_stable : Keeps Stable (Transaction.destroy env i) := by
  refine keeps_bind stable_framing (Transaction.end_keeps (@stable_duties env)) fun _ => ?_
  refine keeps_try_catch stable_framing ?_ fun e => process_notice_keeps (@stable_upkeep env) _
  refine keeps_bind stable_framing (stable_turn i _ fun _ _ => rfl) fun _ => keeps_get fun w => ?_
  refine keeps_bind stable_framing (keeps_when stable_framing _ (process_notice_keeps (@stable_upkeep env) _)) fun _ => ?_
  refine keeps_when stable_framing _ (keeps_bind stable_framing (process_notice_keeps (@stable_upkeep env) _) fun _ => ?_)
  exact Connection.unregister_keeps (@stable_duties env).toChores i

end

end Pqxx
