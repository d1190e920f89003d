import Pqxx.TransactionLog

set_option autoImplicit false

namespace Pqxx

open Lib Prog

-- What may be sent in the course of a transaction: not what ends its block, nor what is
-- the library's own business with its log.
def Sql.within : Sql → Prop
  | .commit | .rollback => False
  | sql => sql.tableless

theorem within_tableless {sql : Sql} (within : sql.within) : sql.tableless := by
  cases sql with
  | commit => exact within.elim
  | rollback => exact within.elim
  | _ => exact within

-- A transaction's work, by whichever calls and with whatever success, as long as it does
-- not cost the connection.
inductive Works (env : Outside) (i : Nat) : World → World → Prop
  | none (w : World) : Works env i w w
  | sent {w u : World} (sql : Sql) (retries : Nat) (works : Works env i w u) (within : sql.within)
      (stays : (Transaction.directExec env i sql retries u).2.conn.isOpen = true) :
      Works env i w (Transaction.directExec env i sql retries u).2

section

variable {env : Outside} {i t : Nat} {s : Server} {sql : Sql} {table : String} {log : Option (List Record)} {w u : World}

theorem serve_inside (inside : s.store.block ≠ none) (within : sql.within) (n : Nat) : (s.serve env t n sql).2.store.block ≠ none := by
  obtain ⟨b, block⟩ := Option.ne_none_iff_exists'.mp inside
  have fails : s.store.fail.block ≠ none := by
    rw [Store.fail, block]
    exact Option.some_ne_none _
  have keeps (command : String) (error : SqlError) (kept : Option (Store View)) (each : ∀ store, kept = some store → store.block ≠ none) :
      (s.keep command error kept).2.store.block ≠ none := by
    cases kept with
    | none => exact fails
    | some store => exact each store rfl
  have runs : (s.run env t sql).2.store.block ≠ none := by
    rw [Server.run]
    split
    · exact inside
    · split
      · exact fails
      · show (s.store.put _).block ≠ none
        rw [Store.put, block]
        exact Option.some_ne_none _
  have other : sql ≠ .commit := by
    rintro rfl
    exact within
  rw [Server.serve]
  split
  · rw [Server.refuse, if_neg other]
    exact fails
  · cases sql with
    | begin args =>
        rw [Server.perform]
        split
        · exact inside
        · show (s.store.begin _).block ≠ none
          rw [Store.begin, block]
          exact inside
    | commit => exact within.elim
    | rollback => exact within.elim
    | savepoint name =>
        refine keeps _ _ _ fun store kept => ?_
        rw [Store.savepoint, block] at kept
        simp only at kept
        split at kept
        · cases kept
        · cases kept
          exact Option.some_ne_none _
    | release name =>
        refine keeps _ _ _ fun store kept => ?_
        rw [Store.release, block] at kept
        simp only at kept
        split at kept
        · cases kept
        · obtain ⟨_, _, rfl⟩ := Option.map_eq_some_iff.mp kept
          exact Option.some_ne_none _
    | rollbackTo name =>
        refine keeps _ _ _ fun store kept => ?_
        rw [Store.rollbackTo, block] at kept
        obtain ⟨_, _, rfl⟩ := Option.map_eq_some_iff.mp kept
        exact Option.some_ne_none _
    | _ => exact runs

-- What a statement leaves that does not cost the connection.
theorem executed_stays {outcome : Except Exn (List (List String))} (executed : Executed env w sql outcome u) (stays : u.conn.isOpen = true) :
    (u.server = w.server ∨ u.server = (w.server.serve env w.clock 0 sql).2) ∧ u.trans = w.trans := by
  have gone {server : Server} {v : World} (cut : Cut v u server) : (u.server = w.server ∨ u.server = (w.server.serve env w.clock 0 sql).2) ∧
      u.trans = w.trans := by
    rw [cut.closed] at stays
    cases stays
  cases executed with
  | done _ _ _ _ _ quiet => exact ⟨.inr quiet.server, quiet.trans⟩
  | refused => exact ⟨.inr rfl, rfl⟩
  | troubled _ _ _ _ _ _ _ quiet => exact ⟨.inr quiet.server, quiet.trans⟩
  | dropped _ _ _ _ _ _ _ cut => exact gone cut
  | unsent => exact ⟨.inl rfl, rfl⟩
  | unheard => exact ⟨.inr rfl, rfl⟩
  | lostBefore _ _ _ _ cut => exact gone cut
  | lostAfter _ _ _ _ cut => exact gone cut

theorem engaged_server (engaged : Engaged i log w) (within : sql.within) (trans : u.trans = w.trans) (stays : u.conn.isOpen = true)
    (server : u.server = w.server ∨ u.server = (w.server.serve env w.clock 0 sql).2) : Engaged i log u := by
  obtain ⟨kind, isOpen, inside, m, records, own, fresh, gone, keyed⟩ := engaged
  rcases server with server | server
  · exact ⟨by rw [trans]; exact kind, stays, by rw [server]; exact inside, m, records, by rw [trans]; exact own,
      by rw [server]; exact fresh, by rw [trans]; exact gone, by rw [server, trans]; exact keyed⟩
  · have other : sql ≠ .commit := by
      rintro rfl
      exact within
    have served := serve_keyed env w.clock keyed other (.inl inside) (fun v rows outcome => by
      rw [View.traits, View.traits, run_marks outcome, View.log, View.log, run_tables (within_tableless within) outcome]) 0
    have base : u.server.store.base.marks = w.server.store.base.marks := by
      rw [server]
      exact congrArg Prod.fst served.base
    refine ⟨by rw [trans]; exact kind, stays, ?_, m, records, by rw [trans]; exact own, by rw [base]; exact fresh,
      by rw [trans]; exact gone, ?_⟩
    · rw [server]
      exact serve_inside inside within 0
    · rw [base, server, trans]
      exact served

-- A pending error is all a transaction may lose by a statement.
theorem statement_engaged (engaged : Engaged i log w) (within : sql.within) (retries : Nat)
    (stays : (Transaction.directExec env i sql retries w).2.conn.isOpen = true) :
    let u := (Transaction.directExec env i sql retries w).2
    Engaged i log u ∧ (u.trans i = w.trans i ∨ u.trans i = { w.trans i with pendingError := "" }) := by
  have ends : wp (Transaction.directExec env i sql retries)
      (fun _ u => u.conn.isOpen = true → Engaged i log u ∧ (u.trans i = w.trans i ∨ u.trans i = { w.trans i with pendingError := "" }))
      (fun _ u => u.conn.isOpen = true → Engaged i log u ∧ (u.trans i = w.trans i ∨ u.trans i = { w.trans i with pendingError := "" })) w := by
    rw [Transaction.directExec, wp_bind]
    by_cases clean : (w.trans i).pendingError = ""
    · have goes {outcome : Except Exn (List (List String))} {u : World} (executed : Executed env w sql outcome u) (stays : u.conn.isOpen = true) :
          Engaged i log u ∧ (u.trans i = w.trans i ∨ u.trans i = { w.trans i with pendingError := "" }) := by
        obtain ⟨server, trans⟩ := executed_stays executed stays
        exact ⟨engaged_server engaged within trans stays server, .inl (by rw [trans])⟩
      refine wp_ok (Transaction.check_pending_clean clean) ?_
      exact wp_mono (Connection.exec_open engaged.isOpen retries) (fun _ _ => goes) fun _ _ => goes
    · rw [Transaction.checkPendingError, wp_bind, wp_get, if_pos clean, wp_bind, modifyTrans, wp_modify]
      obtain ⟨kind, isOpen, inside, m, records, own, fresh, gone, keyed⟩ := engaged
      simp only [fault, wp_throw]
      refine fun _ => ⟨⟨?_, isOpen, inside, m, records, ?_, fresh, ?_, ?_⟩, .inr (if_pos trivial)⟩
      · simpa only [if_true] using kind
      · simpa only [if_true] using own
      · simpa only [if_true] using gone
      · simpa only [if_true] using keyed
  exact wp_leaves ends stays

theorem works_engaged {first : Except Exn Unit × World} (works : Works env i w u) (engaged : Engaged i log w)
    (noted : Noted env first log (w.trans i)) : Engaged i log u ∧ Noted env first log (u.trans i) := by
  induction works with
  | none => exact ⟨engaged, noted⟩
  | sent sql retries _ within stays ih =>
      obtain ⟨engaged, own⟩ := statement_engaged ih.1 within retries stays
      refine ⟨engaged, ?_⟩
      rcases own with same | same
      · rw [same]
        exact ih.2
      · rw [same]
        exact ⟨ih.2.made, ih.2.missed⟩

-- A block that has just taken a statement is fit to commit.
theorem constrained_ready (engaged : Engaged i log w) :
    wp (Transaction.direct env i .setConstraints 0) (fun _ u => Engaged i log u ∧ u.trans = w.trans ∧ u.server.store.failed = false ∧
      (u.trans i).pendingError = "" ∧ u.conn.serverversion = w.conn.serverversion) (fun _ _ => True) w := by
  refine wp_mono (Transaction.direct_done engaged.isOpen 0) ?_ fun _ _ => id
  rintro _ u ⟨clean, _, ⟨rows, answer⟩, quiet⟩
  obtain ⟨sound, v, _, store⟩ := serve_rows (by trivial) answer
  obtain ⟨b, block⟩ := Option.ne_none_iff_exists'.mp engaged.inside
  obtain ⟨handle, conn⟩ := quiet.conn
  refine ⟨engaged_server engaged (by trivial) quiet.trans (quiet.isOpen.trans (answered_open.trans engaged.isOpen)) (.inr quiet.server),
    quiet.trans, ?_, ?_, by rw [conn]; rfl⟩
  · rw [quiet.server]
    show (w.server.serve env w.clock 0 .setConstraints).2.store.failed = false
    rw [Store.failed, block] at sound
    rw [store, Store.put, block]
    exact sound
  · rw [quiet.trans]
    exact clean

-- The connection is lost with COMMIT on its way. The log says then what became of it: the
-- record is gone from it if the backend committed, and it is as it was otherwise.
structure Cast (i : Nat) (log : Option (List Record)) (w u : World) : Prop where
  trans : u.trans = w.trans
  closed : u.conn.isOpen = false
  version : u.conn.serverversion = w.conn.serverversion
  idle : u.server.Idle
  told : u.blockCommitted i ∧ (∃ records, u.server.store.base.log (u.trans i).logTable = some records ∧
      ∀ r ∈ records, r.id ≠ (u.trans i).recordId) ∨
    ¬ u.blockCommitted i ∧ u.server.store.base.log (u.trans i).logTable = log

theorem cut_casts (engaged : Engaged i log w) (sound : w.server.store.failed = false) {server : Server}
    (served : server = w.server ∨ server = (w.server.serve env w.clock 0 .commit).2) (cut : Cut (w.ask [.commit] false) u server) :
    Cast i log w u := by
  obtain ⟨kind, isOpen, inside, m, records, own, fresh, gone, keyed⟩ := engaged
  obtain ⟨handle, completed, conn⟩ := cut.conn
  have trans : u.trans = w.trans := cut.trans
  refine ⟨trans, cut.closed, by rw [conn]; rfl, by rw [cut.server]; rfl, ?_⟩
  have base : u.server.store.base = server.store.base.reset := by rw [cut.server]; rfl
  have committed : u.blockCommitted i ↔ m ∈ server.store.base.marks := by
    rw [World.blockCommitted, trans, own, base]
    simp only [Option.some.injEq, exists_eq_left', View.reset]
  have untouched (same : server.store.base = w.server.store.base) :
      ¬ u.blockCommitted i ∧ u.server.store.base.log (u.trans i).logTable = log := by
    rw [committed, base, same, trans]
    exact ⟨fresh, congrArg Prod.snd keyed.base⟩
  rcases served with rfl | rfl
  · exact .inr (untouched rfl)
  · cases accepted : env.refuses w.clock 0 with
    | some error =>
        refine .inr (untouched ?_)
        rw [Server.serve, accepted]
        rfl
    | none =>
        obtain ⟨b, block⟩ := Option.ne_none_iff_exists'.mp inside
        have fine : b.failed = false := by simpa only [Store.failed, block, Option.any_some] using sound
        have view := keyed.view b block
        have landed : (w.server.serve env w.clock 0 .commit).2.store.base = b.view := by
          rw [serve_commit w.server 0 accepted]
          simp only [Store.commit, block, fine, Bool.false_eq_true, if_false]
        refine .inl ?_
        rw [committed, base, landed, trans]
        refine ⟨?_, records, congrArg Prod.snd view, gone⟩
        rw [show b.view.marks = m :: w.server.store.base.marks from congrArg Prod.fst view]
        exact List.mem_cons_self

theorem send_commit_casts (engaged : Engaged i log w) (sound : w.server.store.failed = false) (clean : (w.trans i).pendingError = "")
    (lost : env.fate w.clock = .lostBefore ∨ env.fate w.clock = .lostAfter) :
    wp (Transaction.sendCommit env i) (fun through u => through = false ∧ Cast i log w u) (fun _ _ => False) w := by
  rw [Transaction.sendCommit, wp_try_catch, wp_bind, Transaction.direct, wp_bind]
  refine wp_mono (direct_open clean engaged.isOpen 0) ?_ ?_
  · intro rows u executed
    cases executed with
    | done _ _ fate => rcases lost with lost | lost <;> (rw [fate] at lost; cases lost)
  · intro e u executed
    have other {f : Fate} (fate : env.fate w.clock = f) (answered : f ≠ .lostBefore ∧ f ≠ .lostAfter) : False := by
      rw [fate] at lost
      exact lost.elim answered.1 answered.2
    have casts {server : Server} (served : server = w.server ∨ server = (w.server.serve env w.clock 0 .commit).2)
        (broken : e.kind = .brokenConnection) (cut : Cut (w.ask [.commit] false) u server) :
        wp (if e.isA .brokenConnection then pure false else do
          let w ← Prog.get
          if w.conn.isOpen then do
            Transaction.doAbort env i
            throw e
          else pure false : Client Bool) (fun through u => through = false ∧ Cast i log w u) (fun _ _ => False) u := by
      have kind : e.isA .brokenConnection = true := by
        rw [Exn.isA, broken]
        rfl
      rw [if_pos kind]
      exact ⟨rfl, cut_casts engaged sound served cut⟩
    cases executed with
    | refused _ fate => exact (other fate (by decide)).elim
    | troubled _ _ _ fate => exact (other fate (by decide)).elim
    | dropped _ _ _ fate => exact (other fate (by decide)).elim
    | unsent fate => exact (other fate (by decide)).elim
    | unheard fate => exact (other fate (by decide)).elim
    | lostBefore _ _ _ broken cut => exact casts (.inl rfl) broken cut
    | lostAfter _ _ _ broken cut => exact casts (.inr rfl) broken cut

end

-- From some time on, all that is sent arrives, is taken by the backend, and is answered.
structure Outside.SmoothSince (env : Outside) (since : Nat) : Prop where
  fate : ∀ t, since ≤ t → env.fate t = .answered
  refuses : ∀ t i, since ≤ t → env.refuses t i = none
  consumes : ∀ t, since ≤ t → env.consumes t = .fine

-- A connection that has been made again for asking about transaction x.
structure Asking (i : Nat) (x : Transaction) (since : Nat) (log : Option (List Record)) (w : World) : Prop where
  own : w.trans i = x
  isOpen : w.conn.isOpen = true
  late : since ≤ w.clock
  idle : w.server.Idle
  log : w.server.store.base.log x.logTable = log

section

variable {env : Outside} {i since : Nat} {x : Transaction} {sql : Sql} {log : Option (List Record)} {w u : World}

theorem exec_activates (activated : Connection.activate env w = (.ok (), u)) (isOpen : u.conn.isOpen = true) (retries : Nat) :
    Connection.exec env sql retries w = Connection.exec env sql retries u := by
  simp only [Connection.exec, Prog.bind_apply, activated, Connection.activate_open isOpen]

theorem asking_answered (asking : Asking i x since log w) (smooth : env.SmoothSince since) (plain : sql.plain) (tableless : sql.tableless)
    (quiet : Quiet (w.answered env sql) u) : Asking i x since log u := by
  have none_ : w.server.store.block = none := asking.idle
  have accepted := smooth.refuses w.clock 0 asking.late
  have served : u.server = (w.server.serve env w.clock 0 sql).2 := quiet.server
  refine ⟨by rw [quiet.trans]; exact asking.own, quiet.isOpen.trans (answered_open.trans asking.isOpen), ?_, ?_, ?_⟩
  · exact Nat.le_trans asking.late (Nat.le_trans (Nat.le_succ _) quiet.later)
  · rw [served]
    refine serve_idle asking.idle ?_
    rintro args rfl
    exact plain
  · have kept : w.server.Plain x.logTable log := ⟨asking.log, fun b block => by rw [none_] at block; cases block⟩
    rw [served, Server.serve, accepted, perform_run plain]
    exact (plain_served kept (.inl tableless)).base

theorem exec_asking (asking : Asking i x since log w) (smooth : env.SmoothSince since) (plain : sql.plain) (tableless : sql.tableless)
    (retries : Nat) :
    wp (Connection.exec env sql retries) (fun rows u => Asking i x since log u ∧ (w.server.run env w.clock sql).1 = .rows rows)
      (fun _ _ => ∃ error, (w.server.run env w.clock sql).1 = .failed error) w := by
  have answered := smooth.fate w.clock asking.late
  have fine := smooth.consumes (w.clock + 1) (Nat.le_trans asking.late (Nat.le_succ _))
  have accepted := smooth.refuses w.clock 0 asking.late
  have serves : w.server.serve env w.clock 0 sql = w.server.run env w.clock sql := by
    rw [Server.serve, accepted]
    exact perform_run plain
  have other {f : Fate} (fate : env.fate w.clock = f) (differs : Fate.answered ≠ f) : False := differs (answered.symm.trans fate)
  refine wp_mono (Connection.exec_open asking.isOpen retries) ?_ ?_
  · intro rows u executed
    cases executed with
    | done _ _ _ answer _ quiet =>
        rw [serves] at answer
        exact ⟨asking_answered asking smooth plain tableless quiet, answer⟩
  · intro e u executed
    cases executed with
    | refused error _ answer =>
        rw [serves] at answer
        exact ⟨error, answer⟩
    | troubled _ _ _ _ _ consumed => rw [fine] at consumed; cases consumed
    | dropped _ _ _ _ _ consumed => rw [fine] at consumed; cases consumed
    | unsent fate => exact (other fate (by decide)).elim
    | unheard fate => exact (other fate (by decide)).elim
    | lostBefore fate => exact (other fate (by decide)).elim
    | lostAfter fate => exact (other fate (by decide)).elim

theorem ask_running (idle : w.server.Idle) (xid : String) :
    (w.server.run env w.clock (.txidRunning xid)).1 = .rows [[if env.running w.clock then "t" else "f"]] := by
  have none_ : w.server.store.block = none := idle
  simp only [Server.run, Store.failed, none_, Option.any_none, Bool.false_eq_true, if_false, View.run]

theorem ask_activity (idle : w.server.Idle) (pid : Nat) :
    (w.server.run env w.clock (.activity pid)).1 = .failed (noRelation "pq_stat_activity") := by
  have none_ : w.server.store.block = none := idle
  simp only [Server.run, Store.failed, none_, Option.any_none, Bool.false_eq_true, if_false, View.run]

-- Whether the record is found, if it can be looked for.
theorem ask_record (idle : w.server.Idle) (table : String) (id : Nat) (user : String) :
    (w.server.run env w.clock (.findRecord table id user)).1 = match w.server.store.base.log table, env.operand user with
      | none, _ => .failed (noRelation table)
      | some _, none => .failed (noColumn user)
      | some records, some operand =>
          .rows ((records.filter fun r => decide (r.id = id ∧ operand r = some env.user)).map fun r => [toString r.id]) := by
  have none_ : w.server.store.block = none := idle
  simp only [Server.run, Store.failed, none_, Option.any_none, Bool.false_eq_true, if_false, View.run, Store.view, View.log]
  cases w.server.store.base.tables table.toList with
  | none => rfl
  | some records =>
      simp only [findRows]
      cases env.operand user with
      | none => rfl
      | some operand => rfl

-- What the lookup takes: the version the connection had before it was lost, the table, and
-- a user name that stands for something.
def Lookable (env : Outside) (w : World) (log : Option (List Record)) : Prop :=
  80300 < w.conn.serverversion ∧ log.isSome = true ∧ (env.operand env.user).isSome = true

-- A row of the log that the lookup would find.
def Findable (env : Outside) (id : Nat) (log : Option (List Record)) : Prop :=
  ∃ records operand, log = some records ∧ env.operand env.user = some operand ∧ ∃ r ∈ records, r.id = id ∧ operand r = some env.user

section

variable (clean : (w.trans i).pendingError = "") (activated : Connection.activate env w = (.ok (), u))
  (asking : Asking i (w.trans i) u.clock log u) (smooth : env.SmoothSince u.clock) (gone : ∀ t, u.clock ≤ t → env.running t = false)

namespace Transaction

include clean activated asking smooth gone

theorem old_backend_over :
    wp (waitForOldBackend env i 20) (fun hold v => hold = false ∧ 80300 < w.conn.serverversion ∧ Asking i (w.trans i) u.clock log v)
      (fun _ _ => ¬ 80300 < w.conn.serverversion) w := by
  have asks {sql : Sql} (plain : sql.plain) (tableless : sql.tableless) :
      wp (directExec env i sql 0) (fun rows v => Asking i (w.trans i) u.clock log v ∧ (u.server.run env u.clock sql).1 = .rows rows)
        (fun _ _ => ∃ error, (u.server.run env u.clock sql).1 = .failed error) w := by
    have asked := exec_asking asking smooth plain tableless 0
    unfold wp at asked
    rw [← exec_activates activated asking.isOpen] at asked
    rw [directExec, wp_bind]
    exact wp_ok (check_pending_clean clean) asked
  rw [waitForOldBackend, oldBackendHolds, wp_bind, wp_bind, wp_get]
  refine wp_ite _ _ _ _ _ _ (fun later => ?_) fun early => ?_
  · rw [wp_bind]
    refine wp_mono (asks (by trivial) (by trivial)) ?_ ?_
    · rintro rows v ⟨asking', answer⟩
      rw [ask_running asking.idle, gone u.clock (Nat.le_refl _)] at answer
      obtain rfl := Answer.rows.inj answer
      exact ⟨rfl, later, asking'⟩
    · rintro e v ⟨error, failed⟩
      rw [ask_running asking.idle] at failed
      cases failed
  · rw [wp_bind]
    refine wp_mono (asks (by trivial) (by trivial)) ?_ fun _ _ _ => early
    rintro rows v ⟨_, answer⟩
    rw [ask_activity asking.idle] at answer
    cases answer

theorem check_transaction_record_tells :
    wp (checkTransactionRecord env i)
      (fun found v => Lookable env w log ∧ (found = true ↔ Findable env (w.trans i).recordId log) ∧ Asking i (w.trans i) u.clock log v)
      (fun _ _ => ¬ Lookable env w log) w := by
  rw [checkTransactionRecord, wp_bind]
  refine wp_mono (old_backend_over clean activated asking smooth gone) ?_ fun _ _ early lookable => early lookable.1
  rintro hold v ⟨rfl, later, asking⟩
  rw [if_neg Bool.false_ne_true, wp_bind, wp_get, wp_bind]
  refine wp_ok (username_open asking.isOpen) ?_
  rw [wp_bind, directExec, wp_bind, asking.own]
  refine wp_ok (check_pending_clean (by rw [asking.own]; exact clean)) ?_
  have found := @ask_record env v asking.idle (w.trans i).logTable (w.trans i).recordId env.user
  rw [asking.log] at found
  refine wp_mono (exec_asking asking smooth (by trivial) (by trivial) 20) ?_ ?_
  · rintro rows x ⟨asking', answer⟩
    rw [found] at answer
    cases there : log with
    | none => rw [there] at answer; cases answer
    | some records =>
        cases means : env.operand env.user with
        | none => rw [there, means] at answer; cases answer
        | some operand =>
            rw [there, means] at answer
            obtain rfl := Answer.rows.inj answer
            subst there
            rw [wp_pure]
            refine ⟨⟨later, rfl, by rw [means]; rfl⟩, ?_, asking'⟩
            rw [decide_eq_true_iff, ne_eq, List.map_eq_nil_iff, List.filter_eq_nil_iff, not_forall]
            constructor
            · intro some_
              obtain ⟨r, some_⟩ := some_
              obtain ⟨among, matches_⟩ := Classical.not_imp.mp some_
              obtain ⟨same, own⟩ := of_decide_eq_true (not_not.mp matches_)
              exact ⟨records, operand, rfl, means, r, among, same, own⟩
            · rintro ⟨_, _, ⟨⟩, means', r, among, matches_⟩
              obtain rfl := Option.some.inj (means.symm.trans means')
              exact ⟨r, fun none_ => none_ among (decide_eq_true matches_)⟩
  · rintro e x ⟨error, failed⟩ ⟨_, table, means⟩
    rw [found] at failed
    obtain ⟨records, rfl⟩ := Option.isSome_iff_exists.mp table
    obtain ⟨operand, operates⟩ := Option.isSome_iff_exists.mp means
    rw [operates] at failed
    cases failed

end Transaction

end

namespace Transaction

theorem notice_returns (msg : String) : wp (processNotice msg) (fun _ _ => True) (fun _ _ => False) w := by
  rw [processNotice, wp_modify]
  trivial

theorem robust_in_doubt_raises {α : Type} (what : String) :
    wp (robustInDoubt i what : Client α) (fun _ _ => False) (fun e _ => e.kind = .inDoubtError) w := by
  rw [robustInDoubt, wp_bind, wp_get, wp_bind]
  refine wp_mono (notice_returns _) (fun _ u _ => ?_) fun _ _ => False.elim
  rw [wp_bind]
  refine wp_mono (notice_returns _) (fun _ v _ => ?_) fun _ _ => False.elim
  rw [wp_bind]
  exact wp_mono (notice_returns _) (fun _ _ _ => rfl) fun _ _ => False.elim

theorem delete_transaction_record_returns : wp (deleteTransactionRecord env i) (fun _ _ => True) (fun _ _ => False) w := by
  have swallowed (m : Client Unit) (v : World) : wp (swallow m) (fun _ _ => True) (fun _ _ => False) v := by
    rw [swallow, wp_try_catch]
    exact wp_mono (wp_ends m v) (fun _ _ _ => trivial) fun _ _ _ => trivial
  rw [deleteTransactionRecord, wp_bind, wp_get]
  refine wp_ite _ _ _ _ _ _ (fun _ => trivial) fun _ => ?_
  rw [wp_bind]
  refine wp_mono (swallowed _ w) (fun _ v _ => ?_) fun _ _ => id
  rw [wp_bind, wp_get]
  exact wp_when _ _ _ _ _ (fun _ => notice_returns _) fun _ => trivial

-- do_abort() on a connection that has been made again.
theorem do_abort_returns (robust : x.kind = .robust) (clean : x.pendingError = "") (asking : Asking i x since log w)
    (smooth : env.SmoothSince since) :
    wp (doAbort env i) (fun _ _ => True) (fun _ _ => False) w := by
  have accepted := smooth.refuses w.clock 0 asking.late
  have fine := smooth.consumes (w.clock + 1) (Nat.le_trans asking.late (Nat.le_succ _))
  have answered := smooth.fate w.clock asking.late
  rw [doAbort, wp_bind, wp_get, asking.own]
  simp only [robust]
  rw [dbAbort, wp_bind, wp_bind, modifyTrans, wp_modify, direct, wp_bind]
  have clean : (if i = i then { w.trans i with reactivationAvoidance := 0 } else w.trans i).pendingError = "" := by
    rw [if_pos rfl, asking.own]
    exact clean
  have other {f : Fate} (fate : env.fate w.clock = f) (differs : Fate.answered ≠ f) : False := differs (answered.symm.trans fate)
  have rolls := @direct_open env i { w with trans := fun j => if j = i then { w.trans j with reactivationAvoidance := 0 } else w.trans j }
    .rollback clean asking.isOpen 0
  refine wp_mono rolls ?_ ?_
  · exact fun _ _ _ => delete_transaction_record_returns
  · intro e v executed
    cases executed with
    | refused error _ answer =>
        rw [Server.serve, accepted] at answer
        cases answer
    | troubled _ _ _ _ _ consumed => rw [fine] at consumed; cases consumed
    | dropped _ _ _ _ _ consumed => rw [fine] at consumed; cases consumed
    | unsent fate => exact (other fate (by decide)).elim
    | unheard fate => exact (other fate (by decide)).elim
    | lostBefore fate => exact (other fate (by decide)).elim
    | lostAfter fate => exact (other fate (by decide)).elim

end Transaction

end

-- What do_commit() is to tell: that it returns says that the backend committed, and a
-- broken_connection that it rolled back.
structure Verdict (committed : Prop) (outcome : Except Exn Unit) : Prop where
  returns : outcome = .ok () ↔ committed
  broken : (∃ e, outcome = .error e ∧ e.isA .brokenConnection = true) ↔ ¬ committed
  certain : ¬ ∃ e, outcome = .error e ∧ e.isA .inDoubtError = true

-- do_commit() gets as far as sending COMMIT, in a state from which the connection is lost.
structure CommitLost (env : Outside) (i : Nat) (w ready : World) : Prop where
  identified : (w.trans i).recordId ≠ 0
  constrained : Transaction.direct env i .setConstraints 0 w = (.ok (), ready)
  lost : env.fate ready.clock = .lostBefore ∨ env.fate ready.clock = .lostAfter

-- The connection can be made again, all that is asked over it then is answered, and the
-- old backend has nothing to do with the transaction any more.
structure Reachable (env : Outside) (lost fresh : World) : Prop where
  activated : Connection.activate env lost = (.ok (), fresh)
  isOpen : fresh.conn.isOpen = true
  smooth : env.SmoothSince fresh.clock
  gone : ∀ t, fresh.clock ≤ t → env.running t = false

-- Where the log tells what became of the transaction.
def LogTells (env : Outside) (i : Nat) (w : World) (committed : Prop) : Prop :=
  80300 < w.conn.serverversion ∧ (env.operand env.user).isSome = true ∧
    (¬ committed → Findable env (w.trans i).recordId (w.server.store.base.log (w.trans i).logTable))

section

variable {env : Outside} {i : Nat} {log : Option (List Record)} {w ready fresh : World}

-- What do_commit() makes of the lookup.
inductive Answered (env : Outside) (id : Nat) (lost : World) (log : Option (List Record)) : Except Exn Unit → Prop
  | found (lookable : Lookable env lost log) (there : Findable env id log) (e : Exn) (broken : e.kind = .brokenConnection) :
      Answered env id lost log (.error e)
  | gone (lookable : Lookable env lost log) (none_ : ¬ Findable env id log) : Answered env id lost log (.ok ())
  | unknown (unanswered : ¬ Lookable env lost log) (e : Exn) (doubt : e.kind = .inDoubtError) : Answered env id lost log (.error e)

-- The verdict is right where the record can be looked for and is there just when the
-- backend has not committed.
theorem answered_verdict {id : Nat} {lost : World} {outcome : Except Exn Unit} (answered : Answered env id lost log outcome) (committed : Prop) :
    Verdict committed outcome ↔ Lookable env lost log ∧ (Findable env id log ↔ ¬ committed) := by
  cases answered with
  | found lookable there e kind =>
      have broken : e.isA .brokenConnection = true ∧ e.isA .inDoubtError = false := by
        rw [Exn.isA, Exn.isA, kind]
        exact ⟨rfl, rfl⟩
      constructor
      · exact fun verdict => ⟨lookable, fun _ => verdict.broken.mp ⟨e, rfl, broken.1⟩, fun _ => there⟩
      · rintro ⟨_, tells⟩
        have rolled := tells.mp there
        refine ⟨⟨fun same => (by cases same), fun committed => absurd committed rolled⟩, ⟨fun _ => rolled, fun _ => ⟨e, rfl, broken.1⟩⟩, ?_⟩
        rintro ⟨_, ⟨⟩, doubt⟩
        rw [broken.2] at doubt
        cases doubt
  | gone lookable none_ =>
      constructor
      · exact fun verdict => ⟨lookable, fun there => absurd there none_, fun rolled => absurd (verdict.returns.mp rfl) rolled⟩
      · rintro ⟨_, tells⟩
        have landed : committed := by_contra fun rolled => none_ (tells.mpr rolled)
        refine ⟨⟨fun _ => landed, fun _ => rfl⟩, ⟨?_, fun rolled => absurd landed rolled⟩, ?_⟩
        · rintro ⟨_, same, _⟩
          cases same
        · rintro ⟨_, same, _⟩
          cases same
  | unknown unanswered e kind =>
      have doubt : e.isA .inDoubtError = true := by
        rw [Exn.isA, kind]
        rfl
      exact ⟨fun verdict => absurd ⟨e, rfl, doubt⟩ verdict.certain, fun tells => absurd tells.1 unanswered⟩

theorem cast_asking {lost : World} (cast : Cast i log w lost) (reachable : Reachable env lost fresh) :
    Asking i (lost.trans i) fresh.clock (lost.server.store.base.log (lost.trans i).logTable) fresh := by
  have leading := Connection.activate_keeps (@leading_upkeep env (lost.trans i).logTable) lost
  have idle := Connection.activate_keeps (@idle_upkeep env) lost cast.idle
  rw [reachable.activated] at leading idle
  have none_ : lost.server.store.block = none := cast.idle
  refine ⟨by rw [leading.trans], reachable.isOpen, Nat.le_refl _, idle, ?_⟩
  exact (leading.plain _ ⟨rfl, fun b block => by rw [none_] at block; cases block⟩).base

theorem robust_commit_answers {lost : World} (sent : CommitLost env i w ready) (robust : (w.trans i).kind = .robust)
    (clean : (w.trans i).pendingError = "") (committing : Transaction.sendCommit env i ready = (.ok false, lost)) (trans : lost.trans = w.trans)
    (asking : Asking i (lost.trans i) fresh.clock log fresh) (reachable : Reachable env lost fresh) :
    Answered env (w.trans i).recordId lost log (Transaction.doCommit env i w).1 := by
  have ends : wp (do
      let exists_ ← tryCatch (Transaction.checkTransactionRecord env i) fun f => Transaction.robustInDoubt i f.what
      if exists_ then do
        Transaction.doAbort env i
        fault .brokenConnection "Connection lost while committing."
      else pure () : Client Unit)
      (fun _ _ => Answered env (w.trans i).recordId lost log (.ok ()))
      (fun e _ => Answered env (w.trans i).recordId lost log (.error e)) lost := by
    rw [← trans] at robust clean ⊢
    rw [wp_bind, wp_try_catch]
    refine wp_mono (Transaction.check_transaction_record_tells clean reachable.activated asking reachable.smooth reachable.gone) ?_ ?_
    · rintro found v ⟨lookable, tells, asking⟩
      refine wp_ite _ _ _ _ _ _ (fun there => ?_) fun none_ => ?_
      · rw [wp_bind]
        refine wp_mono (Transaction.do_abort_returns robust clean asking reachable.smooth) (fun _ _ _ => ?_) fun _ _ => False.elim
        exact .found lookable (tells.mp there) _ rfl
      · exact .gone lookable fun there => none_ (tells.mpr there)
    · intro e v unanswered
      exact wp_mono (Transaction.robust_in_doubt_raises _) (fun _ _ => False.elim) fun e _ doubt => .unknown unanswered e doubt
  have commits : Transaction.doCommit env i w = (do
      let exists_ ← tryCatch (Transaction.checkTransactionRecord env i) fun f => Transaction.robustInDoubt i f.what
      if exists_ then do
        Transaction.doAbort env i
        fault .brokenConnection "Connection lost while committing."
      else pure () : Client Unit) lost := by
    simp only [Transaction.doCommit, Transaction.robustCommit, Prog.bind_apply, Prog.get_apply, robust, if_neg sent.identified,
      Prog.try_catch_apply, sent.constrained, committing, Bool.false_eq_true, if_false]
  rw [commits]
  unfold wp at ends
  split at ends
  · rename_i outcome
    rw [outcome]
    exact ends
  · rename_i outcome
    rw [outcome]
    exact ends

theorem robust_commit_tells (engaged : Engaged i log w) (sent : CommitLost env i w ready)
    (reachable : Reachable env (Transaction.sendCommit env i ready).2 fresh) :
    Verdict ((Transaction.sendCommit env i ready).2.blockCommitted i) (Transaction.doCommit env i w).1 ↔
      LogTells env i w ((Transaction.sendCommit env i ready).2.blockCommitted i) := by
  have constrained := @constrained_ready env i log w engaged
  unfold wp at constrained
  rw [sent.constrained] at constrained
  obtain ⟨engaged', trans, sound, clean, version⟩ := constrained
  have casts := @send_commit_casts env i log ready engaged' sound clean sent.lost
  unfold wp at casts
  cases committing : Transaction.sendCommit env i ready with
  | mk through lost =>
      rw [committing] at casts reachable
      cases through with
      | error e => exact casts.elim
      | ok through =>
          obtain ⟨rfl, cast⟩ := casts
          have same : lost.trans = w.trans := cast.trans.trans trans
          rw [trans] at clean
          have answered := robust_commit_answers sent engaged.kind clean committing same (cast_asking cast reachable) reachable
          obtain ⟨_, records, _, _, gone, keyed⟩ := engaged.views
          have before : w.server.store.base.log (w.trans i).logTable = log := congrArg Prod.snd keyed.base
          have later : lost.conn.serverversion = w.conn.serverversion := cast.version.trans version
          have told := cast.told
          rw [same] at told answered
          rw [LogTells, before, answered_verdict answered, Lookable, later]
          rcases told with ⟨landed, records, there, gone⟩ | ⟨rolled, there⟩
          · have missing : ¬ Findable env (w.trans i).recordId (lost.server.store.base.log (w.trans i).logTable) := by
              rintro ⟨_, _, found, _, r, among, same, _⟩
              rw [there] at found
              obtain rfl := Option.some.inj found
              exact gone r among same
            rw [there] at missing
            simp only [missing, landed, there, Option.isSome_some, not_true_eq_false, false_imp_iff, and_true, true_and]
          · simp only [rolled, there, not_false_eq_true, iff_true, true_imp_iff]
            constructor
            · exact fun ⟨⟨version, _, means⟩, found⟩ => ⟨version, means, found⟩
            · rintro ⟨version, means, found⟩
              have table : log.isSome = true := by
                obtain ⟨records, _, table, _⟩ := found
                rw [table]
                rfl
              exact ⟨⟨version, table, means⟩, found⟩

end

-- The record is in the log outside the transaction, where it does not go when the
-- transaction fails, if the first attempt to write it came off. What the second attempt
-- writes is in a block, and no row has come into the log outside of it.
theorem robust_begin_logs (env : Outside) (i : Nat) (w₀ w₁ w : World) (robust : (w₀.trans i).kind = .robust)
    (marked : w₀.server.Marked w₀.clock) (idle : w₀.server.Idle) (begun : Transaction.begin env i w₀ = (.ok (), w₁))
    (worked : Works env i w₁ w) :
    let first := Transaction.createTransactionRecord env i (Connection.getNotifs env w₀).2
    let log := w.server.store.base.log (w.trans i).logTable
    (first.1 = .ok () → ∃ records date, log =
      some (records ++ [{ id := (w.trans i).recordId, username := env.user, name := (w.trans i).name, date }])) ∧
    (first.1 ≠ .ok () → ∀ r ∈ log.getD [], r ∈ (first.2.server.store.base.log (w.trans i).logTable).getD []) := by
  intro first log
  have begins := @Transaction.begin_engages env i w₀ robust marked idle
  unfold wp at begins
  rw [begun] at begins
  obtain ⟨outside, engaged, noted⟩ := begins
  obtain ⟨engaged, noted⟩ := works_engaged worked engaged noted
  obtain ⟨_, _, _, _, _, keyed⟩ := engaged.views
  have same : log = outside := congrArg Prod.snd keyed.base
  rw [same]
  exact ⟨noted.made, noted.missed⟩

-- The connection is lost at time t, and nothing else goes wrong.
def Outside.losing (user : String) (operand : Option (Record → Option String)) (t : Nat) (fate : Fate) : Outside :=
  { Outside.calm with
    user, operand := fun name => if name = user then operand else none, fate := fun u => if u = t then fate else .answered }

theorem losing_smooth {user : String} {operand : Option (Record → Option String)} {t since : Nat} {fate : Fate} (later : t < since) :
    (Outside.losing user operand t fate).SmoothSince since :=
  ⟨fun _ late => if_neg (Nat.ne_of_gt (Nat.lt_of_lt_of_le later late)), fun _ _ _ => rfl, fun _ _ => rfl⟩

-- A database that has a log.
def View.withLog : View :=
  { View.empty with tables := fun n => if n = "log".toList then some [] else none, sequences := fun n => n = "log_seq".toList }

-- A session that is to run a robusttransaction, the transaction when it has begun and when
-- it sends COMMIT, and the connection when it is lost.
def World.beforehand (tables : View) : World :=
  { World.initial .lazy with
    trans := fun _ => Transaction.fresh .robust "robusttransaction" "" "" "log"
    server := { store := { base := tables, block := none }, prepared := [] } }

def World.underway (env : Outside) (tables : View) : World := (Transaction.begin env 0 (.beforehand tables)).2

def World.constrained (env : Outside) (tables : View) : World := (Transaction.direct env 0 .setConstraints 0 (.underway env tables)).2

def World.cutOff (env : Outside) (tables : View) : World := (Transaction.sendCommit env 0 (.constrained env tables)).2

def World.remade (env : Outside) (tables : View) : World := (Connection.activate env (.cutOff env tables)).2

theorem call_returns {m : Client Unit} {w : World} (returns : (m w).1 = .ok ()) : m w = (.ok (), (m w).2) := Prod.ext returns rfl

-- A user called username, which is the name of the column that has it.
def Outside.username : Outside := .losing "username" (some fun r => some r.username) 15 .lostBefore

-- An ordinary user, whose name is that of no column: the lookup fails.
def Outside.ordinary : Outside := .losing "pqxx" none 15 .lostAfter

-- The log is made when it is first used, and the record with it in the transaction, which
-- takes it along when it rolls back.
def Outside.firstUse : Outside := .losing "username" (some fun r => some r.username) 24 .lostBefore

theorem robust_verdict_first_use :
    (Transaction.begin .firstUse 0 (.beforehand .empty)).1 = .ok () ∧
      CommitLost .firstUse 0 (.underway .firstUse .empty) (.constrained .firstUse .empty) ∧
      Reachable .firstUse (.cutOff .firstUse .empty) (.remade .firstUse .empty) ∧
      ¬ (World.cutOff .firstUse .empty).blockCommitted 0 ∧ (Transaction.doCommit .firstUse 0 (.underway .firstUse .empty)).1 = .ok () := by
  have constrained : (Transaction.direct .firstUse 0 .setConstraints 0 (.underway .firstUse .empty)).1 = .ok () := by decide +kernel
  have activated : (Connection.activate .firstUse (.cutOff .firstUse .empty)).1 = .ok () := by decide +kernel
  have later : 24 < (World.remade .firstUse .empty).clock := by decide +kernel
  exact ⟨by decide +kernel, ⟨by decide +kernel, call_returns constrained, .inl (by decide +kernel)⟩,
    ⟨call_returns activated, by decide +kernel, losing_smooth later, fun _ _ => rfl⟩, block_missed (by decide +kernel),
    by decide +kernel⟩

end Pqxx
