import Pqxx.CommitVerdict
import Pqxx.SessionRestoration

set_option autoImplicit false

namespace Pqxx

open Lib Prog

-- The log of a robusttransaction as a view has it.
def View.log (v : View) (table : String) : Option (List Record) := v.tables table.toList

-- Statements that leave every table alone.
def Sql.tableless : Sql → Prop
  | .createTable _ | .deleteOld _ | .insertRecord _ _ _ _ | .deleteRecord _ _ => False
  | _ => True

-- Statements that have nothing to do with blocks.
def Sql.plain : Sql → Prop
  | .begin _ | .commit | .rollback | .savepoint _ | .release _ | .rollbackTo _ => False
  | _ => True

section

variable {env : Outside} {t i : Nat} {s : Server} {sql : Sql} {table : String} {log : Option (List Record)}

theorem run_tables {v v' : View} {prepared : List (String × String)} {rows : List (List String)} (tableless : sql.tableless)
    (outcome : v.run env t prepared sql = .ok (v', rows)) : v'.tables = v.tables := by
  cases sql with
  | createTable => exact tableless.elim
  | deleteOld => exact tableless.elim
  | insertRecord => exact tableless.elim
  | deleteRecord => exact tableless.elim
  | findRecord table id user =>
      simp only [View.run] at outcome
      split at outcome
      · cases outcome
      · cases found : findRows env _ id user with
        | error e => rw [found] at outcome; cases outcome
        | ok rows => rw [found] at outcome; cases outcome; rfl
  | activity pid => cases outcome
  | prepare name definition => simp only [View.run] at outcome; split at outcome <;> cases outcome; rfl
  | deallocate name => simp only [View.run] at outcome; split at outcome <;> cases outcome; rfl
  | execute i name args => simp only [View.run] at outcome; split at outcome <;> cases outcome; rfl
  | createSequence sequence => simp only [View.run] at outcome; split at outcome <;> cases outcome; rfl
  | nextval sequence => simp only [View.run] at outcome; split at outcome <;> cases outcome; rfl
  | _ => cases outcome; rfl

theorem with_table_row {v v' : View} {name : String} {label : String} {f : List Record → List Record} {rows : List (List String)}
    (outcome : v.withTable name.toList label f = .ok (v', rows)) : ∃ records, v.log name = some records ∧ v'.log name = some (f records) := by
  rw [View.withTable] at outcome
  split at outcome
  · cases outcome
  · rename_i records there
    cases outcome
    exact ⟨records, there, if_pos rfl⟩

theorem perform_run (plain : sql.plain) : s.perform env t sql = s.run env t sql := by
  cases sql with
  | begin => exact plain.elim
  | commit => exact plain.elim
  | rollback => exact plain.elim
  | savepoint => exact plain.elim
  | release => exact plain.elim
  | rollbackTo => exact plain.elim
  | _ => rfl

-- What an answer with rows says of the statement and its session.
theorem serve_rows (plain : sql.plain) {rows : List (List String)} (answer : (s.serve env t i sql).1 = .rows rows) :
    s.store.failed = false ∧ ∃ v, s.store.view.run env t s.prepared sql = .ok (v, rows) ∧
      (s.serve env t i sql).2.store = s.store.put v := by
  rw [Server.serve] at answer ⊢
  split at answer
  · cases answer
  · rw [perform_run plain, Server.run] at answer ⊢
    split at answer
    · cases answer
    · rename_i sound
      rw [if_neg sound]
      split at answer
      · cases answer
      · rename_i v rows' outcome
        obtain rfl := Answer.rows.inj answer
        exact ⟨Bool.eq_false_iff.mpr sound, v, outcome, rfl⟩

theorem serve_idle (idle : s.Idle) (other : ∀ args, sql ≠ .begin args) : (s.serve env t i sql).2.Idle := by
  have block : s.store.block = none := idle
  have fails : s.store.fail.block = none := by rw [Store.fail, block, Option.map_none]
  have runs (plain : sql.plain) : (s.perform env t sql).2.Idle := by
    rw [perform_run plain, Server.run]
    split
    · exact idle
    · split
      · exact fails
      · rename_i v rows _
        show (s.store.put v).block = none
        rw [Store.put, block]
  have keeps (command : String) (error : SqlError) (kept : Option (Store View)) (none_ : kept = none) :
      (s.keep command error kept).2.Idle := by
    rw [none_]
    exact fails
  rw [Server.serve]
  split
  · rw [Server.refuse]
    split
    · rfl
    · exact fails
  · cases sql with
    | begin args => exact absurd rfl (other args)
    | commit => simp only [Server.perform, Server.Idle, Store.commit, block]
    | rollback => rfl
    | savepoint name => exact keeps _ _ _ (by rw [Store.savepoint, block])
    | release name => exact keeps _ _ _ (by rw [Store.release, block])
    | rollbackTo name => exact keeps _ _ _ (by rw [Store.rollbackTo, block])
    | _ => exact runs trivial

-- A session whose log, as committed, is known, and which has not set any savepoint.
structure Server.Plain (table : String) (log : Option (List Record)) (s : Server) : Prop where
  base : s.store.base.log table = log
  saves : ∀ b, s.store.block = some b → b.saves = []

theorem plain_fail {next : Server} (plain : s.Plain table log) : ({ next with store := s.store.fail } : Server).Plain table log := by
  refine ⟨plain.base, fun b block => ?_⟩
  obtain ⟨b', there, rfl⟩ := Option.map_eq_some_iff.mp block
  exact plain.saves b' there

theorem plain_put (plain : s.Plain table log) (prepared : List (String × String)) (v : View) (same : s.store.block = none → v.log table = log) :
    ({ store := s.store.put v, prepared } : Server).Plain table log := by
  cases block : s.store.block with
  | none =>
      refine ⟨?_, fun b there => ?_⟩
      · simp only [Store.put, block]
        exact same block
      · simp only [Store.put, block] at there
        cases there
  | some b =>
      refine ⟨?_, fun b' there => ?_⟩
      · simp only [Store.put, block]
        exact plain.base
      · simp only [Store.put, block, Option.some.injEq] at there
        rw [← there]
        exact plain.saves b block

theorem plain_served (plain : s.Plain table log) (tableless : sql.tableless ∨ s.store.block ≠ none) : (s.run env t sql).2.Plain table log := by
  rw [Server.run]
  split
  · exact plain
  · split
    · exact plain_fail plain
    · rename_i v rows outcome
      refine plain_put plain _ v fun block => ?_
      rcases tableless with tableless | inside
      · rw [View.log, run_tables tableless outcome, Store.view, block]
        exact plain.base
      · exact absurd block inside

theorem plain_begin (plain : s.Plain table log) (args : String) : (s.serve env t i (.begin args)).2.Plain table log := by
  rw [Server.serve]
  split
  · rw [Server.refuse, if_neg fun same => (by cases same)]
    exact plain_fail plain
  · rw [Server.perform]
    split
    · exact plain
    · cases block : s.store.block with
      | none =>
          refine ⟨?_, fun b there => ?_⟩
          · simp only [Store.begin, block]
            exact plain.base
          · simp only [Store.begin, block, Option.some.injEq] at there
            rw [← there]
      | some b =>
          have same : s.store.begin (fun v => { v with marks := t :: v.marks }) = s.store := by rw [Store.begin, block]
          rw [same]
          exact plain

theorem plain_restored (plain : s.Plain table log) (batch : List Sql) (restoring : ∀ sql ∈ batch, sql.restoring) :
    (s.serveBatch env t batch).2.Plain table log := by
  refine serve_batch_keeps batch (Server.Plain table log) (fun i sql s among plain => ?_) (fun s next plain _ => plain_fail plain) plain
  have restores := restoring sql among
  rw [Server.serve]
  split
  · rw [Server.refuse]
    split
    · exact ⟨plain.base, fun _ none_ => by cases none_⟩
    · exact plain_fail plain
  · cases sql with
    | listen channel => exact plain_served plain (.inl trivial)
    | setVar var value => exact plain_served plain (.inl trivial)
    | _ => exact restores.elim

theorem plain_session (plain : s.Plain table log) : s.newSession.Plain table log := ⟨plain.base, fun _ none_ => by cases none_⟩

end

-- What leads up to a BEGIN that is answered.
structure LeadingUp (table : String) (w w' : World) : Prop where
  still : Still w w'
  trans : w'.trans = w.trans
  plain : ∀ log, w.server.Plain table log → w'.server.Plain table log

def StaysIdle (w w' : World) : Prop := w.server.Idle → w'.server.Idle

-- What a robusttransaction does to clear the ground before it has its table made: no
-- record comes into the log.
structure Clearing (table : String) (w w' : World) : Prop where
  still : Still w w'
  idle : StaysIdle w w'
  records : w.server.Idle → ∀ r ∈ (w'.server.store.base.log table).getD [], r ∈ (w.server.store.base.log table).getD []

section

variable {env : Outside} {i : Nat} {table : String} {log : Option (List Record)}

theorem leading_framing : Framing (LeadingUp table) where
  same w := ⟨still_framing.same w, rfl, fun _ plain => plain⟩
  onward w u v one two :=
    ⟨still_framing.onward w u v one.still two.still, two.trans.trans one.trans, fun log plain => two.plain log (one.plain log plain)⟩

theorem leading_upkeep : Upkeep env (LeadingUp table) where
  toFraming := leading_framing
  link w w' tended trans server sent later := by
    refine ⟨still_server trans server later, trans, fun log plain => ?_⟩
    rw [server]
    exact plain
  ends w w' tended trans server sent later := by
    refine ⟨(@still_background env).ends w w' trans server sent later, trans, fun log plain => ?_⟩
    rw [server]
    exact plain_session plain
  asks w batch restoring := ⟨(@still_background env).asks w batch restoring, rfl, fun _ plain => plain⟩
  restores w batch restoring := ⟨(@still_background env).restores w batch restoring, rfl, fun _ plain => plain_restored plain batch restoring⟩

theorem leading_request (args : String) : Request env (LeadingUp table) (.begin args) where
  asks w := ⟨(@still_request env (.begin args) nofun).asks w, rfl, fun _ plain => plain⟩
  served w := ⟨(@still_request env (.begin args) nofun).served w, rfl, fun _ plain => plain_begin plain args⟩

theorem idle_upkeep : Upkeep env StaysIdle where
  same _ := id
  onward _ _ _ one two idle := two (one idle)
  link _ _ _ _ server _ _ := by
    rw [StaysIdle, server]
    exact id
  ends _ _ _ _ server _ _ := by
    rw [StaysIdle, server]
    exact fun _ => rfl
  asks _ _ _ := id
  restores _ batch restoring := serve_batch_idle batch restoring

theorem idle_request {sql : Sql} (other : ∀ args, sql ≠ .begin args) : Request env StaysIdle sql :=
  ⟨fun _ => id, fun _ idle => serve_idle idle other⟩

theorem clearing_framing : Framing (Clearing table) where
  same w := ⟨still_framing.same w, id, fun _ _ => id⟩
  onward w u v one two := ⟨still_framing.onward w u v one.still two.still, fun idle => two.idle (one.idle idle),
    fun idle r there => one.records idle r (two.records (one.idle idle) r there)⟩

-- Nothing happens to the log outside a block but what a statement does to its table.
theorem clearing_server {w w' : World} (still : Still w w') (idle : StaysIdle w w')
    (plain : w.server.Idle → ∀ log, w.server.Plain table log → w'.server.Plain table log) : Clearing table w w' := by
  refine ⟨still, idle, fun holds r there => ?_⟩
  have none_ : w.server.store.block = none := holds
  have kept := plain holds _ ⟨rfl, fun b block => by rw [none_] at block; cases block⟩
  rw [kept.base] at there
  exact there

theorem clearing_upkeep : Upkeep env (Clearing table) where
  toFraming := clearing_framing
  link w w' tended trans server sent later := by
    have idle := (@idle_upkeep env).link w w' tended trans server sent later
    refine clearing_server (still_server trans server later) idle ?_
    rw [server]
    exact fun _ _ => id
  ends w w' tended trans server sent later := by
    have idle := (@idle_upkeep env).ends w w' tended trans server sent later
    refine clearing_server ((@still_background env).ends w w' trans server sent later) idle ?_
    rw [server]
    exact fun _ _ => plain_session
  asks w batch restoring := clearing_server ((@still_background env).asks w batch restoring) id fun _ _ => id
  restores w batch restoring := clearing_server ((@still_background env).restores w batch restoring) (serve_batch_idle batch restoring)
    fun _ _ plain => plain_restored plain batch restoring

-- Of the statements sent meanwhile, one makes the table, and none puts anything in it.
theorem clearing_request (sql : Sql) (other : ∀ args, sql ≠ .begin args) (inside : sql ≠ .commit)
    (records : ∀ s : Server, s.Idle → ∀ t i, ∀ r ∈ ((s.serve env t i sql).2.store.base.log table).getD [],
      r ∈ (s.store.base.log table).getD []) :
    Request env (Clearing table) sql where
  asks w := clearing_server ((@still_request env sql inside).asks w) id fun _ _ => id
  served w := ⟨(@still_request env sql inside).served w, (idle_request other).served w, fun idle => records w.server idle w.clock 0⟩

theorem clearing_note (f : Transaction → Transaction) (same : ∀ x : Transaction, (f x).bare = x.bare) :
    Keeps (Clearing table) (modifyTrans i f) :=
  fun w => clearing_server ((@still_bookkeeping Outside.calm).notes w i f same) id fun _ _ => id

theorem clearing_rollback : Request env (Clearing table) .rollback := by
  refine clearing_request _ nofun nofun fun s _ t i r there => ?_
  rw [Server.serve] at there
  split at there
  · exact there
  · exact there

theorem clearing_create_sequence (sequence : String) : Request env (Clearing table) (.createSequence sequence) := by
  refine clearing_request _ nofun nofun fun s idle t i r there => ?_
  have none_ : s.store.block = none := idle
  have plain : s.Plain table (s.store.base.log table) := ⟨rfl, fun b block => by rw [none_] at block; cases block⟩
  rw [Server.serve] at there
  split at there
  · exact there
  · rw [perform_run (by trivial), (plain_served plain (.inl (by trivial))).base] at there
    exact there

-- The table that is made is empty.
theorem clearing_create_table : Request env (Clearing table) (.createTable table) := by
  refine clearing_request _ nofun nofun fun s idle t i r there => ?_
  have none_ : s.store.block = none := idle
  rw [Server.serve] at there
  split at there
  · exact there
  · rw [perform_run (by trivial), Server.run, Store.failed, none_] at there
    simp only [Option.any_none, Bool.false_eq_true, if_false, View.run] at there
    split at there
    · exact there
    · rename_i v rows outcome
      split at outcome
      · cases outcome
      · obtain ⟨rfl, _⟩ := Prod.mk.inj (Except.ok.inj outcome)
        simp only [Store.put, none_, View.log, if_true, Option.getD_some] at there
        cases there

namespace Transaction

theorem check_pending_same {w : World} :
    wp (checkPendingError i) (fun _ u => w = u ∧ (w.trans i).pendingError = "") (fun _ _ => True) w := by
  by_cases clean : (w.trans i).pendingError = ""
  · exact wp_ok (check_pending_clean clean) ⟨rfl, clean⟩
  · rw [checkPendingError, wp_bind, wp_get, if_pos clean]
    exact wp_last fun _ _ => trivial

-- A transaction's notes to itself are all that direct() adds to exec().
theorem direct_exec_sends {R : World → World → Prop} (framing : Framing R)
    (notes : ∀ f, (∀ x : Transaction, (f x).bare = x.bare) → Keeps R (modifyTrans i f)) {sql : Sql} {retries : Nat}
    (sends : Keeps R (Connection.exec env sql retries)) : Keeps R (directExec env i sql retries) := by
  refine keeps_bind framing (keeps_get fun w => keeps_ite _ ?_ (keeps_pure framing _)) fun _ => sends
  exact keeps_bind framing (notes _ fun _ => rfl) fun _ => keeps_throw framing _

theorem direct_clears {sql : Sql} (request : Request env (Clearing table) sql) (retries : Nat) :
    Keeps (Clearing table) (direct env i sql retries) :=
  keeps_bind clearing_framing (direct_exec_sends clearing_framing clearing_note (Connection.exec_keeps clearing_upkeep request retries))
    fun _ => keeps_pure clearing_framing _

theorem db_abort_clears : Keeps (Clearing table) (dbAbort env i) :=
  keeps_bind clearing_framing (clearing_note _ fun _ => rfl) fun _ => direct_clears clearing_rollback 0

theorem create_log_table_clears (w : World) : Clearing (w.trans i).logTable w (createLogTable env i w).2 := by
  have notices := process_notice_keeps (@clearing_upkeep env (w.trans i).logTable)
  refine keeps_bind clearing_framing (keeps_try_catch clearing_framing ?_ fun _ => notices _) (fun _ => ?_) w
  · exact direct_clears clearing_create_table 1
  · exact keeps_try_catch clearing_framing (direct_clears (clearing_create_sequence _) 0) fun _ => notices _

-- A statement on an open connection that is answered with rows.
theorem direct_exec_done {w : World} {sql : Sql} (isOpen : w.conn.isOpen = true) (retries : Nat) :
    wp (directExec env i sql retries) (fun rows u => (w.trans i).pendingError = "" ∧ env.fate w.clock = .answered ∧
      (w.server.serve env w.clock 0 sql).1 = .rows rows ∧ Quiet (w.answered env sql) u) (fun _ _ => True) w := by
  rw [directExec, wp_bind]
  refine wp_mono check_pending_same ?_ fun _ _ => id
  rintro _ _ ⟨rfl, clean⟩
  refine wp_mono (Connection.exec_open isOpen retries) ?_ fun _ _ _ => trivial
  intro rows u executed
  cases executed with
  | done _ _ fate answer _ quiet => exact ⟨clean, fate, answer, quiet⟩

theorem direct_done {w : World} {sql : Sql} (isOpen : w.conn.isOpen = true) (retries : Nat) :
    wp (direct env i sql retries) (fun _ u => (w.trans i).pendingError = "" ∧ env.fate w.clock = .answered ∧
      (∃ rows, (w.server.serve env w.clock 0 sql).1 = .rows rows) ∧ Quiet (w.answered env sql) u) (fun _ _ => True) w := by
  rw [direct, wp_bind]
  refine wp_mono (direct_exec_done isOpen retries) (fun rows u done => ?_) (fun _ _ => id)
  obtain ⟨clean, fate, answer, quiet⟩ := done
  exact ⟨clean, fate, ⟨rows, answer⟩, quiet⟩

-- The record that CreateTransactionRecord() leaves where there is no block to undo it.
structure Recorded (env : Outside) (i : Nat) (w : World) : Prop where
  isOpen : w.conn.isOpen = true
  idle : w.server.Idle
  record : ∃ records date, w.server.store.base.log (w.trans i).logTable =
    some (records ++ [{ id := (w.trans i).recordId, username := env.user, name := (w.trans i).name, date }])

theorem username_open {w : World} (isOpen : w.conn.isOpen = true) : Connection.username env w = (.ok env.user, w) := by
  obtain ⟨h, handle, _⟩ := open_handle isOpen
  have there : ¬ w.conn.handle = none := by simp [handle]
  simp only [Connection.username, Prog.bind_apply, Prog.get_apply, Prog.when_skip _ _ w there, Prog.pure_apply]

theorem direct_idle {w : World} {sql : Sql} (idle : w.server.Idle) (other : ∀ args, sql ≠ .begin args) (retries : Nat) :
    wp (direct env i sql retries) (fun _ u => u.conn.isOpen = true ∧ u.server.Idle) (fun _ _ => True) w := by
  rw [direct, wp_bind, directExec, wp_bind]
  refine wp_mono check_pending_same ?_ fun _ _ => id
  rintro _ _ ⟨rfl, _⟩
  refine wp_mono (Connection.exec_heard idle_upkeep (idle_request other) retries) ?_ fun _ _ _ => trivial
  rintro rows v ⟨x, kept, isOpen, _, _, quiet⟩
  refine ⟨quiet.isOpen.trans (answered_open.trans isOpen), ?_⟩
  rw [quiet.server]
  exact serve_idle (kept idle) other

theorem create_transaction_record_records {w : World} (idle : w.server.Idle) :
    wp (createTransactionRecord env i) (fun _ u => Recorded env i u) (fun _ _ => True) w := by
  rw [createTransactionRecord, wp_bind, wp_get, wp_bind]
  refine wp_mono (direct_idle idle (by rintro _ ⟨⟩) 0) ?_ fun _ _ _ => trivial
  rintro _ u ⟨isOpen, idle⟩
  rw [wp_bind]
  refine wp_mono (direct_exec_done isOpen 0) ?_ fun _ _ _ => trivial
  rintro rows v ⟨_, _, _, quiet⟩
  have isOpen : v.conn.isOpen = true := quiet.isOpen.trans (answered_open.trans isOpen)
  have idle : v.server.Idle := by
    rw [quiet.server]
    exact serve_idle idle fun _ same => (by cases same)
  rw [wp_bind]
  have noted : wp (setRecordId i (firstField rows)) (fun _ x => x.conn = v.conn ∧ x.server = v.server) (fun _ _ => True) v := by
    rw [setRecordId]
    split
    · trivial
    · exact ⟨rfl, rfl⟩
    · exact ⟨rfl, rfl⟩
  refine wp_mono noted ?_ fun _ _ _ => trivial
  rintro _ x ⟨conn, server⟩
  rw [← conn] at isOpen
  rw [← server] at idle
  rw [wp_bind, wp_get, wp_bind]
  refine wp_ok (username_open isOpen) (wp_mono (direct_done isOpen 0) ?_ fun _ _ _ => trivial)
  rintro _ y ⟨_, _, ⟨rows, answer⟩, quiet⟩
  obtain ⟨_, view, outcome, store⟩ := serve_rows (by trivial) answer
  obtain ⟨records, there, made⟩ := with_table_row outcome
  have none_ : x.server.store.block = none := idle
  have base : y.server.store.base = view := by
    rw [quiet.server]
    show (x.server.serve env x.clock 0 _).2.store.base = view
    rw [store, Store.put, none_]
  refine ⟨quiet.isOpen.trans (answered_open.trans isOpen), ?_, records, x.clock, ?_⟩
  · rw [quiet.server]
    exact serve_idle idle fun _ same => (by cases same)
  · rw [base, quiet.trans]
    exact made

theorem create_transaction_record_idle : Keeps StaysIdle (createTransactionRecord env i) := by
  have framing := (@idle_upkeep env).toFraming
  have sends {sql : Sql} (other : ∀ args, sql ≠ .begin args) : Keeps StaysIdle (directExec env i sql 0) :=
    direct_exec_sends framing (fun _ _ _ => id) (Connection.exec_keeps idle_upkeep (idle_request other) 0)
  refine keeps_get fun w => keeps_bind framing ?_ fun _ => keeps_bind framing (sends fun _ same => (by cases same)) fun rows => ?_
  · exact keeps_bind framing (sends fun _ same => (by cases same)) fun _ => keeps_pure framing _
  · refine keeps_bind framing ?_ fun _ => keeps_get fun v => keeps_bind framing ?_ fun user => ?_
    · rw [setRecordId]
      split
      · exact keeps_throw framing _
      · exact fun _ => id
      · exact keeps_pure framing _
    · refine keeps_get fun x => keeps_bind framing (keeps_when framing _ (Connection.activate_keeps idle_upkeep)) fun _ => keeps_pure framing _
    · exact keeps_bind framing (sends fun _ same => (by cases same)) fun _ => keeps_pure framing _

end Transaction

-- In a block that no COMMIT has touched, on an open connection.
structure InBlock (table : String) (log : Option (List Record)) (w : World) : Prop where
  isOpen : w.conn.isOpen = true
  marked : w.server.Marked w.clock
  plain : w.server.Plain table log
  inside : w.server.store.block ≠ none

namespace Transaction

theorem db_begin_enters {w : World} (marked : w.server.Marked w.clock) (plain : w.server.Plain table log) :
    wp (dbBegin env i) (fun _ u => InBlock table log u ∧ u.trans = w.trans) (fun _ _ => True) w := by
  rw [dbBegin, wp_bind, wp_get, direct, wp_bind, directExec, wp_bind]
  refine wp_mono check_pending_same ?_ fun _ _ => id
  rintro _ _ ⟨rfl, _⟩
  refine wp_mono (Connection.exec_heard (@leading_upkeep env table) (leading_request _) _) ?_ fun _ _ _ => trivial
  rintro rows u ⟨v, leading, isOpen, _, answer, quiet⟩
  obtain ⟨b, block⟩ := begin_served answer
  have served := (@serve_marked env _ _ (leading.still.marked marked).1 (.begin (w.trans i).startArgs) (fun same => by cases same) 0).1
  refine ⟨⟨quiet.isOpen.trans (answered_open.trans isOpen), ?_, ?_, ?_⟩, quiet.trans.trans leading.trans⟩
  · rw [quiet.server]
    exact marked_later served quiet.later
  · rw [quiet.server]
    exact plain_begin (leading.plain log plain) _
  · rw [quiet.server]
    show (v.server.serve env v.clock 0 _).2.store.block ≠ none
    rw [block]
    exact Option.some_ne_none _

-- A statement in the block: only what the block sees may change.
theorem direct_exec_inside {w : World} {sql : Sql} (inBlock : InBlock table log w) (plain : sql.plain) (retries : Nat) :
    wp (directExec env i sql retries) (fun rows u => InBlock table log u ∧ u.trans = w.trans ∧
      ∃ (b : Block View) (v : View), w.server.store.block = some b ∧ b.view.run env w.clock w.server.prepared sql = .ok (v, rows) ∧
        u.server.store.block = some { b with view := v }) (fun _ _ => True) w := by
  refine wp_mono (direct_exec_done inBlock.isOpen retries) ?_ fun _ _ => id
  rintro rows u ⟨_, _, answer, quiet⟩
  obtain ⟨_, v, outcome, store⟩ := serve_rows plain answer
  obtain ⟨b, block⟩ := Option.ne_none_iff_exists'.mp inBlock.inside
  have inside : sql ≠ .commit := by
    rintro rfl
    exact plain
  have put : u.server.store = { base := w.server.store.base, block := some { b with view := v } } := by
    rw [quiet.server]
    show (w.server.serve env w.clock 0 sql).2.store = _
    rw [store, Store.put, block]
  have served := (@serve_marked env _ _ inBlock.marked sql inside 0).1
  refine ⟨⟨quiet.isOpen.trans (answered_open.trans inBlock.isOpen), ?_, ?_, ?_⟩, quiet.trans, b, v, block, ?_, by rw [put]⟩
  · rw [quiet.server]
    exact marked_later served quiet.later
  · refine ⟨by rw [put]; exact inBlock.plain.base, fun b' there => ?_⟩
    rw [put] at there
    cases there
    exact inBlock.plain.saves b block
  · rw [put]
    exact Option.some_ne_none _
  · rw [Store.view, block] at outcome
    exact outcome

theorem direct_inside {w : World} {sql : Sql} (inBlock : InBlock table log w) (plain : sql.plain) (retries : Nat) :
    wp (direct env i sql retries) (fun _ u => InBlock table log u ∧ u.trans = w.trans ∧
      ∃ (b : Block View) (v : View) (rows : List (List String)), w.server.store.block = some b ∧
        b.view.run env w.clock w.server.prepared sql = .ok (v, rows) ∧ u.server.store.block = some { b with view := v })
      (fun _ _ => True) w := by
  rw [direct, wp_bind]
  refine wp_mono (direct_exec_inside inBlock plain retries) ?_ fun _ _ => id
  rintro rows u ⟨kept, trans, b, v, before, outcome, block⟩
  exact ⟨kept, trans, b, v, rows, before, outcome, block⟩

theorem create_transaction_record_inside {w : World} (inBlock : InBlock table log w) :
    wp (createTransactionRecord env i) (fun _ u => InBlock table log u) (fun _ _ => True) w := by
  rw [createTransactionRecord, wp_bind, wp_get, wp_bind]
  refine wp_mono (direct_inside inBlock (by trivial) 0) ?_ fun _ _ => id
  rintro _ u ⟨inBlock, _⟩
  rw [wp_bind]
  refine wp_mono (direct_exec_inside inBlock (by trivial) 0) ?_ fun _ _ => id
  rintro rows v ⟨inBlock, _⟩
  have noted : wp (setRecordId i (firstField rows)) (fun _ x => InBlock table log x) (fun _ _ => True) v := by
    rw [setRecordId]
    split
    · trivial
    · exact ⟨inBlock.isOpen, inBlock.marked, inBlock.plain, inBlock.inside⟩
    · exact inBlock
  rw [wp_bind]
  refine wp_mono noted ?_ fun _ _ => id
  intro _ x inBlock
  rw [wp_bind, wp_get, wp_bind]
  refine wp_ok (username_open inBlock.isOpen) (wp_mono (direct_inside inBlock (by trivial) 0) ?_ fun _ _ => id)
  exact fun _ _ done => done.1

-- The second attempt is made in a block, which keeps what it does to itself.
theorem record_retried {w : World} (marked : w.server.Marked w.clock) (idle : w.server.Idle) :
    wp (do
        swallow (dbAbort env i)
        createLogTable env i
        dbBegin env i
        let w ← Prog.get
        modifyTrans i fun x => { x with backendpid := w.conn.handle.elim 0 fun h => h.backendpid }
        createTransactionRecord env i : Client Unit)
      (fun _ u => ∃ log, InBlock (w.trans i).logTable log u ∧
        ∀ r ∈ log.getD [], r ∈ (w.server.store.base.log (w.trans i).logTable).getD [])
      (fun _ _ => True) w := by
  have chores := (@still_bookkeeping env).ledger.chores
  have aborts : Keeps (Clearing (w.trans i).logTable) (swallow (dbAbort env i)) :=
    keeps_try_catch clearing_framing db_abort_clears fun _ => keeps_pure clearing_framing _
  rw [wp_bind]
  refine wp_mono (wp_keeps aborts) (fun _ u cleared => ?_) fun _ _ _ => trivial
  have table : (u.trans i).logTable = (w.trans i).logTable := bare_same Transaction.logTable (fun _ => rfl) (cleared.still.bare i)
  have making := @create_log_table_clears env i u
  rw [table] at making
  have made : wp (createLogTable env i) (fun _ v => Clearing (w.trans i).logTable u v) (fun _ _ => True) u := by
    unfold wp
    split
    · rename_i outcome
      rw [outcome] at making
      exact making
    · trivial
  rw [wp_bind]
  refine wp_mono made (fun _ v making => ?_) fun _ _ => id
  have whole := clearing_framing.onward _ _ _ cleared making
  have none_ : v.server.store.block = none := whole.idle idle
  have plain : v.server.Plain (w.trans i).logTable (v.server.store.base.log (w.trans i).logTable) :=
    ⟨rfl, fun b block => by rw [none_] at block; cases block⟩
  rw [wp_bind]
  refine wp_mono (db_begin_enters (whole.still.marked marked).1 plain) ?_ fun _ _ => id
  rintro _ x ⟨inBlock, _⟩
  rw [wp_bind, wp_get, wp_bind, modifyTrans, wp_modify]
  refine wp_mono (create_transaction_record_inside ⟨inBlock.isOpen, inBlock.marked, inBlock.plain, inBlock.inside⟩) ?_ fun _ _ => id
  exact fun _ y inBlock => ⟨_, inBlock, whole.records idle⟩

end Transaction

-- What the first attempt at the record has to do with the log as it is outside the
-- transaction: it is there if the attempt came off, and otherwise nothing came of it.
structure Noted (env : Outside) (first : Except Exn Unit × World) (log : Option (List Record)) (x : Transaction) : Prop where
  made : first.1 = .ok () → ∃ records date, log =
    some (records ++ [{ id := x.recordId, username := env.user, name := x.name, date }])
  missed : first.1 ≠ .ok () → ∀ r ∈ log.getD [], r ∈ (first.2.server.store.base.log x.logTable).getD []

-- A robusttransaction that has just begun.
structure Begun (env : Outside) (i : Nat) (first : Except Exn Unit × World) (log : Option (List Record)) (w : World) : Prop where
  inBlock : InBlock (w.trans i).logTable log w
  gone : ∃ b records, w.server.store.block = some b ∧ b.view.log (w.trans i).logTable = some records ∧
    ∀ r ∈ records, r.id ≠ (w.trans i).recordId
  noted : Noted env first log (w.trans i)

theorem begun_same {first : Except Exn Unit × World} {w w' : World} (begun : Begun env i first log w) (conn : w'.conn = w.conn)
    (server : w'.server = w.server) (clock : w'.clock = w.clock) (table : (w'.trans i).logTable = (w.trans i).logTable)
    (id : (w'.trans i).recordId = (w.trans i).recordId) (name : (w'.trans i).name = (w.trans i).name) : Begun env i first log w' := by
  obtain ⟨⟨isOpen, marked, plain, inside⟩, gone, made, missed⟩ := begun
  refine ⟨⟨by rw [conn]; exact isOpen, by rw [server, clock]; exact marked, ?_, by rw [server]; exact inside⟩, ?_, ?_, ?_⟩
  · rw [server, table]
    exact plain
  · rw [server, table, id]
    exact gone
  · rw [id, name]
    exact made
  · rw [table]
    exact missed

namespace Transaction

theorem record_noted {w : World} (marked : w.server.Marked w.clock) (idle : w.server.Idle) :
    wp (tryCatch (createTransactionRecord env i) fun _ => do
        swallow (dbAbort env i)
        createLogTable env i
        dbBegin env i
        let w ← Prog.get
        modifyTrans i fun x => { x with backendpid := w.conn.handle.elim 0 fun h => h.backendpid }
        createTransactionRecord env i)
      (fun _ u => Still w u ∧ ∃ log, u.server.Plain (w.trans i).logTable log ∧ Noted env (createTransactionRecord env i w) log (u.trans i))
      (fun _ _ => True) w := by
  have chores := (@still_bookkeeping env).ledger.chores
  have framing := chores.toFraming
  have kept := create_transaction_record_keeps chores i w
  have still_idle := @create_transaction_record_idle env i w
  have recorded := @create_transaction_record_records env i w idle
  rw [wp_try_catch]
  unfold wp at recorded ⊢
  cases first : createTransactionRecord env i w with
  | mk outcome u =>
      rw [first] at kept still_idle recorded
      have table : (u.trans i).logTable = (w.trans i).logTable := bare_same Transaction.logTable (fun _ => rfl) (kept.bare i)
      cases outcome with
      | ok _ =>
          obtain ⟨records, date, there⟩ := recorded.record
          have none_ : u.server.store.block = none := recorded.idle
          have plain : u.server.Plain (w.trans i).logTable (u.server.store.base.log (w.trans i).logTable) :=
            ⟨rfl, fun b block => by rw [none_] at block; cases block⟩
          refine ⟨kept, _, plain, fun _ => ⟨records, date, ?_⟩, fun failed => absurd rfl failed⟩
          rw [← table]
          exact there
      | error e =>
          have retrying : Keeps Still (do
              swallow (dbAbort env i)
              createLogTable env i
              dbBegin env i
              let w ← Prog.get
              modifyTrans i fun x => { x with backendpid := w.conn.handle.elim 0 fun h => h.backendpid }
              createTransactionRecord env i : Client Unit) := by
            refine keeps_bind framing (swallow_keeps chores (db_abort_keeps chores i)) fun _ => ?_
            refine keeps_bind framing (create_log_table_keeps chores i) fun _ => ?_
            refine keeps_bind framing (db_begin_keeps chores i) fun _ => keeps_get fun w => ?_
            exact keeps_bind framing (chores.notes i _ (fun _ => rfl) fun _ => .inl rfl) fun _ => create_transaction_record_keeps chores i
          refine wp_mono (wp_and (wp_keeps retrying) (record_retried (kept.marked marked).1 (still_idle idle))) ?_ fun _ _ _ => trivial
          rintro _ v ⟨still, log, inBlock, missed⟩
          have same : (v.trans i).logTable = (u.trans i).logTable := bare_same Transaction.logTable (fun _ => rfl) (still.bare i)
          rw [table] at inBlock
          refine ⟨framing.onward _ _ _ kept still, log, inBlock.plain, fun made => (by cases made), fun _ => ?_⟩
          rw [same]
          exact missed

theorem robust_begin_begins {w : World} (marked : w.server.Marked w.clock) (idle : w.server.Idle) :
    wp (robustBegin env i) (fun _ u => Still w u ∧ ∃ log, Begun env i (createTransactionRecord env i w) log u) (fun _ _ => True) w := by
  have chores := (@still_bookkeeping env).ledger.chores
  have begins : wp (robustBegin env i) (fun _ u => ∃ log, Begun env i (createTransactionRecord env i w) log u) (fun _ _ => True) w := ?_
  · exact wp_mono (wp_and (wp_keeps (robust_begin_keeps chores i)) begins) (fun _ _ => id) fun _ _ _ => trivial
  rw [robustBegin, wp_bind]
  refine wp_mono (record_noted marked idle) ?_ fun _ _ => id
  rintro _ u ⟨still, log, plain, noted⟩
  have table : (u.trans i).logTable = (w.trans i).logTable := bare_same Transaction.logTable (fun _ => rfl) (still.bare i)
  rw [← table] at plain
  rw [wp_bind]
  refine wp_mono (db_begin_enters (still.marked marked).1 plain) ?_ fun _ _ => id
  rintro _ v ⟨inBlock, trans⟩
  rw [← trans] at inBlock
  rw [wp_bind, wp_get, wp_bind]
  refine wp_mono (direct_inside inBlock (by trivial) 0) ?_ fun _ _ => id
  rintro _ x ⟨inBlock, trans', b, view, rows, _, outcome, block⟩
  obtain ⟨records, _, left⟩ := with_table_row outcome
  have same : x.trans = u.trans := trans'.trans trans
  rw [← trans'] at inBlock left
  have begun : Begun env i (createTransactionRecord env i w) log x := by
    refine ⟨inBlock, ⟨_, _, block, left, fun r there => by simpa using (List.mem_filter.mp there).2⟩, ?_⟩
    rw [same]
    exact noted
  rw [wp_bind, wp_get]
  refine wp_when _ _ _ _ _ (fun _ => ?_) fun _ => ⟨log, begun⟩
  rw [wp_bind]
  refine wp_mono (direct_exec_inside inBlock (by trivial) 0) ?_ fun _ _ => id
  rintro rows y ⟨inBlock, trans, b', view', before, outcome, block'⟩
  obtain ⟨rfl, _⟩ := Prod.mk.inj (Except.ok.inj outcome)
  have begun : Begun env i (createTransactionRecord env i w) log y := by
    obtain ⟨_, ⟨c, records, there, left, gone⟩, noted⟩ := begun
    rw [there] at before
    cases before
    rw [← trans] at inBlock left gone noted
    exact ⟨inBlock, ⟨_, records, block', left, gone⟩, noted⟩
  have field {β : Type} (of : Transaction → β) (kept : ∀ (z : Transaction) xid, of { z with xid } = of z) :
      of (if i = i then { y.trans i with xid := (firstField rows).getD (y.trans i).xid } else y.trans i) = of (y.trans i) := by
    rw [if_pos rfl]
    exact kept _ _
  exact ⟨log, begun_same begun rfl rfl rfl (field Transaction.logTable fun _ _ => rfl) (field Transaction.recordId fun _ _ => rfl)
    (field Transaction.name fun _ _ => rfl)⟩

end Transaction

-- What tells a view that has the block's changes from one that has not.
def View.traits (table : String) (v : View) : List Nat × Option (List Record) := (v.marks, v.log table)

-- A robusttransaction in progress: all that is in its block, or that one of its savepoints
-- goes back to, has the block's mark and lacks the record, and log is the log without.
structure Engaged (i : Nat) (log : Option (List Record)) (w : World) : Prop where
  kind : (w.trans i).kind = .robust
  isOpen : w.conn.isOpen = true
  inside : w.server.store.block ≠ none
  views : ∃ m records, (w.trans i).block = some m ∧ m ∉ w.server.store.base.marks ∧ (∀ r ∈ records, r.id ≠ (w.trans i).recordId) ∧
    w.server.store.Keyed (View.traits (w.trans i).logTable) (w.server.store.base.marks, log) (m :: w.server.store.base.marks, some records)

theorem set_begun_engages {first : Except Exn Unit × World} {w : World} (kind : (w.trans i).kind = .robust) (begun : Begun env i first log w) :
    wp (Transaction.setBegun i) (fun _ u => Engaged i log u ∧ Noted env first log (u.trans i)) (fun _ _ => False) w := by
  obtain ⟨⟨isOpen, marked, plain, inside⟩, ⟨b, records, block, left, gone⟩, noted⟩ := begun
  obtain ⟨_, m, _, own, keyed⟩ := marked
  have marks := keyed.view b block
  have head : w.server.store.view.marks.head? = some m := by rw [Store.view, block, marks, List.head?_cons]
  rw [Transaction.setBegun, wp_modify]
  have there {β : Type} (of : Transaction → β) : of (if i = i then { w.trans i with
      status := .active, begun := some w.clock, block := w.server.store.view.marks.head? } else w.trans i) =
        of { w.trans i with status := .active, begun := some w.clock, block := w.server.store.view.marks.head? } := by
    rw [if_pos rfl]
  refine ⟨⟨(there Transaction.kind).trans kind, isOpen, inside, m, records, (there Transaction.block).trans head, own, ?_, ?_⟩, ?_⟩
  · simp only [if_true]
    exact gone
  · simp only [if_true]
    refine ⟨?_, fun b' there => ?_, fun b' there save among => ?_⟩
    · exact congrArg (Prod.mk _) plain.base
    · rw [block] at there
      cases there
      rw [View.traits, marks, left]
    · rw [plain.saves b' there] at among
      cases among
  · simp only [if_true]
    exact ⟨noted.made, noted.missed⟩

theorem Transaction.begin_engages {w : World} (kind : (w.trans i).kind = .robust) (marked : w.server.Marked w.clock) (idle : w.server.Idle) :
    wp (begin env i) (fun _ u => ∃ log, Engaged i log u ∧
      Noted env (createTransactionRecord env i (Connection.getNotifs env w).2) log (u.trans i)) (fun _ _ => True) w := by
  have quiet := (Connection.get_notifs_keeps (@still_background env).upkeep) w
  have still_idle := (Connection.get_notifs_keeps (@idle_upkeep env)) w idle
  have body : wp (do
      let _ ← Connection.getNotifs env
      doBegin env i
      setBegun i) (fun _ u => ∃ log, Engaged i log u ∧
        Noted env (createTransactionRecord env i (Connection.getNotifs env w).2) log (u.trans i)) (fun _ _ => True) w := by
    rw [wp_bind]
    cases got : Connection.getNotifs env w with
    | mk outcome u =>
        rw [got] at quiet still_idle
        cases outcome with
        | error e => exact wp_error got trivial
        | ok n =>
            have robust : (u.trans i).kind = .robust := (bare_same Transaction.kind (fun _ => rfl) (quiet.bare i)).trans kind
            refine wp_ok got ?_
            rw [wp_bind, doBegin, wp_bind, wp_get]
            simp only [robust]
            refine wp_mono (robust_begin_begins (quiet.marked marked).1 still_idle) ?_ fun _ _ => id
            rintro _ v ⟨still, log, begun⟩
            have robust : (v.trans i).kind = .robust := (bare_same Transaction.kind (fun _ => rfl) (still.bare i)).trans robust
            exact wp_mono (set_begun_engages robust begun) (fun _ x engaged => ⟨log, engaged⟩) fun _ _ => False.elim
  rw [begin, wp_bind, wp_get]
  refine wp_ite _ _ _ _ _ _ (fun _ => trivial) fun _ => ?_
  rw [wp_try_catch]
  exact wp_mono body (fun _ _ => id) fun _ _ _ => wp_last fun _ _ => trivial

end

end Pqxx
