import Pqxx.Lib.Run
import Pqxx.TransactionBackground

set_option autoImplicit false

namespace Pqxx

open Lib Prog

-- What a client does with a work: the ways of running a statement, some of which know
-- nothing of the work's state, its streams, and the ways of ending it.
inductive WorkOp where
  | exec (query desc : String)
  | prepared (statement : String)
  | preparedExec (statement : String) (args : List (Option String))
  | parameterizedExec (query : String) (args : List (Option String))
  | setVariable (var value : String)
  | getVariable (var : String)
  | fetch (query : String)
  | openWriter (table columns : String)
  | writeLine
  | closeWriter
  | destroyWriter
  | openReader (table columns : String)
  | getLine
  | closeReader
  | destroyReader
  | prepare (name definition : String)
  | unprepare (name : String)
  | getNotifs
  | disconnect
  | commit
  | abort
  | end_
deriving DecidableEq, Repr

section

variable (env : Outside) (i : Nat)

-- Whether the client catches an exception makes no difference to the state.
def WorkOp.perform : WorkOp → Client Unit
  | .exec query desc => do
      let _ ← Transaction.exec env i query desc
      pure ()
  | .prepared statement => Transaction.prepared env i statement
  | .preparedExec statement args => do
      let _ ← Connection.preparedExec env i statement args
      pure ()
  | .parameterizedExec query args => do
      let _ ← Connection.parameterizedExec env i query args
      pure ()
  | .setVariable var value => Transaction.setVariable env i var value
  | .getVariable var => do
      let _ ← Transaction.getVariable env i var
      pure ()
  | .fetch query => do
      let _ ← Connection.exec env (.fetch query) 0
      pure ()
  | .openWriter table columns => TableStream.openWriter env i table columns
  | .writeLine => Connection.writeCopyLine env
  | .closeWriter => TableStream.writerClose env i
  | .destroyWriter => TableStream.destroyWriter env i
  | .openReader table columns => TableStream.openReader env i table columns
  | .getLine => do
      let _ ← TableStream.getRawLine env i
      pure ()
  | .closeReader => TableStream.readerClose env i
  | .destroyReader => TableStream.destroyReader env i
  | .prepare name definition => Connection.prepare name definition
  | .unprepare name => Connection.unprepare env name
  | .getNotifs => do
      let _ ← Connection.getNotifs env
      pure ()
  | .disconnect => Connection.disconnect
  | .commit => Transaction.commit env i
  | .abort => Transaction.abort env i
  | .end_ => Transaction.end_ env i

def workStep (w : World) (op : WorkOp) : World := (op.perform env i w).2

end

-- Whether the block the transaction began is among those the backend committed.
def World.blockCommitted (w : World) (i : Nat) : Prop := ∃ m, (w.trans i).block = some m ∧ m ∈ w.server.store.base.marks

-- Whether COMMIT would commit it: it is in progress and has not failed.
def World.blockLive (w : World) (i : Nat) : Prop := ∃ m, (w.trans i).block = some m ∧ w.server.live m

-- What a client may conclude from a transaction's status.
def Truthful (i : Nat) (w : World) : Prop :=
  ((w.trans i).status = .committed → w.blockCommitted i) ∧ ((w.trans i).status = .aborted → ¬ w.blockCommitted i)

-- commit() gets as far as sending COMMIT.
def CommitSent (i : Nat) (w : World) : Prop :=
  (w.trans i).status = .active ∧ (w.trans i).pendingError = "" ∧ (w.trans i).focus = none ∧ w.conn.isOpen = true

-- Where COMMIT is answered, its block must still be in progress and fit to commit; where
-- the answer does not get through although the connection lives on, it must not be.
def CommitSafe (env : Outside) (i : Nat) (w : World) : WorkOp → Prop
  | .commit => CommitSent i w → env.refuses w.clock 0 = none →
      match env.fate w.clock with
      | .answered =>
          match env.consumes (w.clock + 1) with
          | .fine => w.blockLive i
          | .trouble => ¬ w.blockLive i
          | .lost => True
      | .nullAfter => ¬ w.blockLive i
      | .lostBefore | .lostAfter | .nullBefore => True
  | _ => True

structure Still (w w' : World) : Prop where
  marked : w.server.Marked w.clock → w'.server.Marked w'.clock ∧ w'.server.store.base.marks = w.server.store.base.marks
  bare : ∀ j, (w'.trans j).bare = (w.trans j).bare

section

variable {env : Outside} {i : Nat}

theorem still_framing : Framing Still where
  same _ := ⟨fun marked => ⟨marked, rfl⟩, fun _ => rfl⟩
  onward _ _ _ one two := by
    refine ⟨fun marked => ?_, fun j => (two.bare j).trans (one.bare j)⟩
    obtain ⟨marked, left⟩ := one.marked marked
    obtain ⟨marked, right⟩ := two.marked marked
    exact ⟨marked, right.trans left⟩

theorem still_server {w w' : World} (trans : w'.trans = w.trans) (server : w'.server = w.server) (later : w.clock ≤ w'.clock) :
    Still w w' := by
  refine ⟨fun marked => ?_, fun j => by rw [trans]⟩
  rw [server]
  exact ⟨marked_later marked later, rfl⟩

theorem still_request (sql : Sql) (inside : sql ≠ .commit) : Request env Still sql where
  asks _ := still_server rfl rfl (Nat.le_succ _)
  served _ := ⟨fun marked => serve_marked marked sql inside 0, fun _ => rfl⟩

theorem still_bookkeeping : Bookkeeping env Still where
  toFraming := still_framing
  link _ _ trans server _ later := still_server trans server later
  ends w w' trans server _ later := by
    refine ⟨fun marked => ?_, fun j => by rw [trans]⟩
    obtain ⟨marked, same⟩ := new_session_marked marked
    rw [server]
    exact ⟨marked_later marked later, same⟩
  asks _ _ _ := still_server rfl rfl (Nat.le_succ _)
  restores _ batch restoring := ⟨fun marked => serve_batch_marked marked batch restoring, fun _ => rfl⟩
  notes w i f same := by
    refine ⟨fun marked => ⟨marked, rfl⟩, fun j => ?_⟩
    simp only [World.note]
    split
    · exact same _
    · rfl
  own sql own := still_request sql (own_inside own)
  copies w j text := ⟨fun marked => serve_marked marked (.copyEnd j text) nofun 0, fun _ => rfl⟩

theorem still_background : Background env Still := still_bookkeeping.toBackground

-- What any other operation than commit() may do to a work that has begun.
def Fades (i : Nat) (w w' : World) : Prop :=
  (w.trans i).kind = .work → (w.trans i).status ≠ .nascent →
    (w.server.Marked w.clock → w'.server.Marked w'.clock ∧ w'.server.store.base.marks = w.server.store.base.marks) ∧
    (w'.trans i).kind = .work ∧ (w'.trans i).block = (w.trans i).block ∧
    ((w'.trans i).status = (w.trans i).status ∨ (w.trans i).status = .active ∧ (w'.trans i).status = .aborted)

theorem still_fades {w w' : World} (still : Still w w') : Fades i w w' := fun kind _ =>
  ⟨still.marked, (bare_same Transaction.kind (fun _ => rfl) (still.bare i)).trans kind,
    bare_same Transaction.block (fun _ => rfl) (still.bare i), .inl (bare_same Transaction.status (fun _ => rfl) (still.bare i))⟩

theorem fades_framing : Framing (Fades i) where
  same w := still_fades (still_framing.same w)
  onward w u v one two := by
    intro kind begun
    obtain ⟨marked, kind', block, status⟩ := one kind begun
    have begun' : (u.trans i).status ≠ .nascent := by
      rcases status with status | ⟨_, status⟩
      · rw [status]
        exact begun
      · rw [status]
        exact nofun
    obtain ⟨marked', kind'', block', status'⟩ := two kind' begun'
    refine ⟨fun there => ?_, kind'', block'.trans block, ?_⟩
    · obtain ⟨here, left⟩ := marked there
      obtain ⟨here, right⟩ := marked' here
      exact ⟨here, right.trans left⟩
    · rcases status with status | ⟨active, status⟩
      · rw [status] at status'
        exact status'
      · rcases status' with status' | ⟨active', _⟩
        · exact .inr ⟨active, status'.trans status⟩
        · rw [status] at active'
          cases active'

theorem fades_keeps {α : Type} {m : Client α} (keeps : Keeps Still m) : Keeps (Fades i) m := fun w => still_fades (keeps w)

-- The status an abort leaves behind, where there was something to abort.
theorem close_fades (env : Outside) (u : World) (active : (u.trans i).status = .active) :
    Fades i u ((do Transaction.setStatus i .aborted; Transaction.endClosed i : Client Unit) u).2 := by
  refine bind_at fades_framing ?_ fun _ => fades_keeps (Transaction.end_closed_keeps (@still_bookkeeping env).ledger.chores i) _
  intro kind _
  simp only [Transaction.setStatus, modifyTrans, Prog.modify_apply, if_true]
  exact ⟨fun marked => ⟨marked, trivial⟩, kind, trivial, .inr ⟨active, trivial⟩⟩

theorem abort_fades : Keeps (Fades i) (Transaction.abort env i) := by
  intro w
  simp only [Transaction.abort]
  rw [Prog.bind_apply, Prog.get_apply]
  dsimp only
  cases status : (w.trans i).status with
  | nascent => exact fun _ begun => absurd status begun
  | active =>
      have still := Transaction.swallow_keeps (@still_bookkeeping env).ledger.chores (Transaction.do_abort_keeps (@still_bookkeeping env).ledger.chores i) w
      refine bind_at fades_framing (still_fades still) fun _ => close_fades env _ ?_
      exact (bare_same Transaction.status (fun _ => rfl) (still.bare i)).trans status
  | aborted => exact fades_framing.same w
  | committed => exact fades_framing.same w
  | inDoubt => exact fades_keeps (process_notice_keeps (@still_background env).upkeep _) w

theorem end_fades : Keeps (Fades i) (Transaction.end_ env i) := by
  have still {α : Type} {m : Client α} (keeps : Keeps Still m) : Keeps (Fades i) m := fades_keeps keeps
  have back := @still_background env
  refine keeps_try_catch fades_framing ?_ fun e => still (process_notice_keeps back.upkeep _)
  refine keeps_bind fades_framing (still (Transaction.end_closed_keeps (@still_bookkeeping env).ledger.chores i)) fun _ => keeps_get fun w => ?_
  refine keeps_ite _ ?_ (keeps_pure fades_framing _)
  refine keeps_bind fades_framing (still (Transaction.note_focus_keeps (@still_bookkeeping env).ledger.chores _)) fun _ => ?_
  refine keeps_bind fades_framing ?_ fun _ => keeps_get fun v => ?_
  · exact keeps_try_catch fades_framing abort_fades fun e => still (process_notice_keeps back.upkeep _)
  · refine keeps_bind fades_framing (still (modify_conn_keeps back _)) fun _ => ?_
    exact still ((@still_bookkeeping env).ledger.chores.notes i _ (fun _ => rfl) fun _ => .inr rfl)

theorem activate_fades : Keeps (Fades i) (Transaction.activate env i) := by
  intro w
  simp only [Transaction.activate]
  rw [Prog.bind_apply, Prog.get_apply]
  dsimp only
  cases status : (w.trans i).status with
  | nascent => exact fun _ begun => absurd status begun
  | active => exact fades_framing.same w
  | committed => exact fades_framing.same w
  | aborted => exact fades_framing.same w
  | inDoubt => exact fades_framing.same w

theorem activate_for_fades (purpose : String) : Keeps (Fades i) (Transaction.activateFor env i purpose) := by
  refine keeps_try_catch fades_framing activate_fades fun e => ?_
  exact keeps_ite _ (keeps_throw fades_framing _) (keeps_throw fades_framing _)

theorem exec_sql_fades (sql : Sql) (inside : sql ≠ .commit) (desc : String) : Keeps (Fades i) (Transaction.execSql env i sql desc) := by
  have books := (@still_bookkeeping env).ledger
  refine keeps_bind fades_framing (fades_keeps (Transaction.check_pending_error_keeps books.chores i)) fun _ => keeps_get fun w => ?_
  split
  · exact keeps_throw fades_framing _
  · refine keeps_bind fades_framing (activate_for_fades _) fun _ => ?_
    refine keeps_try_catch fades_framing ?_ fun e => ?_
    · exact fades_keeps (Transaction.direct_exec_keeps books.chores i (Connection.exec_keeps books.toUpkeep (still_request sql inside) 0))
    · refine keeps_bind fades_framing ?_ fun _ => keeps_throw fades_framing _
      exact keeps_try_catch fades_framing abort_fades fun _ => keeps_pure fades_framing _

theorem focus_fades (f : Transaction → Transaction)
    (same : ∀ x : Transaction, (f x).kind = x.kind ∧ (f x).status = x.status ∧ (f x).block = x.block) :
    Keeps (Fades i) (modifyTrans i f) := by
  intro w kind _
  obtain ⟨kind', status', block'⟩ := same (w.trans i)
  simp only [modifyTrans, Prog.modify_apply, if_true]
  exact ⟨fun marked => ⟨marked, trivial⟩, kind'.trans kind, block', .inl status'⟩

theorem set_variable_fades (var value : String) : Keeps (Fades i) (Transaction.setVariable env i var value) := by
  refine keeps_bind fades_framing (fades_keeps (Connection.raw_set_var_keeps (@still_bookkeeping env).ledger var value)) fun _ => ?_
  exact focus_fades _ fun _ => ⟨rfl, rfl, rfl⟩

theorem register_focus_fades (f : Focus) : Keeps (Fades i) (Transaction.registerFocus i f) := by
  refine keeps_get fun w => ?_
  split
  · exact focus_fades _ fun _ => ⟨rfl, rfl, rfl⟩
  · exact keeps_throw fades_framing _

theorem writer_close_fades : Keeps (Fades i) (TableStream.writerClose env i) := by
  refine keeps_get fun w => keeps_ite _ ?_ (keeps_pure fades_framing _)
  refine keeps_bind fades_framing (focus_fades _ fun _ => ⟨rfl, rfl, rfl⟩) fun _ => ?_
  exact fades_keeps (Connection.end_copy_write_keeps still_bookkeeping.ledger)

theorem get_raw_line_fades : Keeps (Fades i) (TableStream.getRawLine env i) := by
  have done : Keeps (Fades i) (TableStream.setDone i) := focus_fades _ fun _ => ⟨rfl, rfl, rfl⟩
  refine keeps_get fun w => keeps_ite _ (keeps_pure fades_framing _) (keeps_try_catch fades_framing ?_ fun e => ?_)
  · refine keeps_bind fades_framing (fades_keeps (Connection.read_copy_line_keeps still_bookkeeping.ledger)) fun line => ?_
    exact keeps_bind fades_framing (keeps_when fades_framing _ done) fun _ => keeps_pure fades_framing _
  · exact keeps_bind fades_framing done fun _ => keeps_throw fades_framing _

theorem skip_lines_still (lines : Nat) : Keeps Still (TableStream.skipLines env lines) := by
  induction lines with
  | zero => exact keeps_pure still_framing _
  | succ lines ih =>
      refine keeps_bind still_framing (Connection.read_copy_line_keeps still_bookkeeping.ledger) fun line => ?_
      exact keeps_ite _ (keeps_pure still_framing _) ih

theorem pending_error_fades (err : String) : Keeps (Fades i) (Transaction.registerPendingError i err) := by
  refine focus_fades _ fun x => ?_
  split
  · exact ⟨rfl, rfl, rfl⟩
  · exact ⟨rfl, rfl, rfl⟩

theorem reader_close_fades : Keeps (Fades i) (TableStream.readerClose env i) := by
  refine keeps_get fun w => ?_
  split
  · exact keeps_pure fades_framing _
  · refine keeps_bind fades_framing (focus_fades _ fun _ => ⟨rfl, rfl, rfl⟩) fun _ => keeps_when fades_framing _ ?_
    refine keeps_try_catch fades_framing (fades_keeps (skip_lines_still _)) fun e => ?_
    exact keeps_ite _ (keeps_throw fades_framing _) (pending_error_fades _)

theorem perform_fades (op : WorkOp) (other : op ≠ .commit) : Keeps (Fades i) (op.perform env i) := by
  have books := (@still_bookkeeping env).ledger
  have back := @still_background env
  have unit {m : Client Unit} (keeps : Keeps Still m) : Keeps (Fades i) m := fades_keeps keeps
  have dropped {α : Type} {m : Client α} (keeps : Keeps (Fades i) m) : Keeps (Fades i) (m >>= fun _ => pure ()) :=
    keeps_bind fades_framing keeps fun _ => keeps_pure fades_framing _
  cases op with
  | exec query desc => exact dropped (exec_sql_fades (.statement i query []) nofun desc)
  | prepared statement => exact activate_for_fades _
  | preparedExec statement args =>
      exact dropped (fades_keeps (Connection.prepared_exec_keeps books i statement args (still_request _ nofun)))
  | parameterizedExec query args =>
      exact dropped (fades_keeps (Connection.parameterized_exec_keeps books i query args (still_request _ nofun)))
  | setVariable var value => exact set_variable_fades var value
  | getVariable var =>
      refine dropped (keeps_get fun w => ?_)
      split
      · exact keeps_pure fades_framing _
      · exact fades_keeps (Connection.raw_get_var_keeps books var)
  | fetch query => exact dropped (fades_keeps (Connection.own_exec_keeps books _ (by trivial) 0))
  | openWriter table columns =>
      exact keeps_bind fades_framing (exec_sql_fades (.copy i _) nofun "") fun _ => register_focus_fades _
  | writeLine => exact unit (Connection.write_copy_line_keeps books)
  | closeWriter => exact writer_close_fades
  | destroyWriter => exact keeps_try_catch fades_framing writer_close_fades fun e => pending_error_fades _
  | openReader table columns =>
      exact keeps_bind fades_framing (exec_sql_fades (.copy i _) nofun "") fun _ => register_focus_fades _
  | getLine => exact dropped get_raw_line_fades
  | closeReader => exact reader_close_fades
  | destroyReader => exact keeps_try_catch fades_framing reader_close_fades fun e => pending_error_fades _
  | prepare name definition => exact unit (Connection.prepare_keeps books name definition)
  | unprepare name => exact unit (Connection.unprepare_keeps books name)
  | getNotifs => exact dropped (fades_keeps (Connection.get_notifs_keeps back.upkeep))
  | disconnect => exact unit (pq_finish_keeps back.upkeep)
  | commit => exact absurd rfl other
  | abort => exact abort_fades
  | end_ => exact end_fades

-- The COMMIT reaches the backend, which accepts it, and the block is fit to commit.
def CommitLands (env : Outside) (w : World) (m : Nat) : Prop :=
  env.refuses w.clock 0 = none ∧ w.server.live m ∧ env.fate w.clock ≠ .lostBefore ∧ env.fate w.clock ≠ .nullBefore

theorem commit_served (w : World) (marked : w.server.Marked w.clock) (m : Nat) (before : m ∉ w.server.store.base.marks) :
    (w.server.serve env w.clock 0 .commit).2.Marked (w.clock + 1) ∧
      (m ∈ (w.server.serve env w.clock 0 .commit).2.store.base.marks ↔ env.refuses w.clock 0 = none ∧ w.server.live m) := by
  cases refused : env.refuses w.clock 0 with
  | none =>
      rw [serve_commit w.server 0 refused]
      exact ⟨commit_marked marked (Nat.lt_succ_self _), by simp only [commit_marks w.server m before, true_and]⟩
  | some error =>
      have served : (w.server.serve env w.clock 0 .commit).2 = { w.server with store := w.server.store.rollback } := by
        simp only [Server.serve, refused, Server.refuse, if_true]
      rw [served]
      refine ⟨marked_idle rfl fun x there => Nat.lt_succ_of_lt (marked.1 x there), ?_⟩
      simp only [Store.rollback, before, reduceCtorEq, false_and]

theorem executed_lands {w u : World} {outcome : Except Exn (List (List String))} (marked : w.server.Marked w.clock) (m : Nat)
    (before : m ∉ w.server.store.base.marks) (executed : Executed env w .commit outcome u) :
    u.server.Marked u.clock ∧ (m ∈ u.server.store.base.marks ↔ CommitLands env w m) := by
  obtain ⟨servedMarked, lands⟩ := @commit_served env w marked m before
  have through (fate : env.fate w.clock ≠ .lostBefore ∧ env.fate w.clock ≠ .nullBefore) :
      (env.refuses w.clock 0 = none ∧ w.server.live m) ↔ CommitLands env w m :=
    ⟨fun ⟨accepted, live⟩ => ⟨accepted, live, fate⟩, fun ⟨accepted, live, _⟩ => ⟨accepted, live⟩⟩
  have never (fate : env.fate w.clock = .lostBefore ∨ env.fate w.clock = .nullBefore) :
      m ∈ w.server.store.base.marks ↔ CommitLands env w m := by
    refine ⟨fun there => absurd there before, fun ⟨_, _, notLost, notNull⟩ => ?_⟩
    rcases fate with fate | fate
    · exact absurd fate notLost
    · exact absurd fate notNull
  cases executed with
  | done rows w' fate answer consumed quiet =>
      have later : w.clock + 1 ≤ u.clock := quiet.later
      rw [quiet.server]
      exact ⟨marked_later servedMarked later, lands.trans (through (by simp [fate]))⟩
  | refused error fate answer => exact ⟨servedMarked, lands.trans (through (by simp [fate]))⟩
  | troubled rows e w' fate answer consumed broken quiet =>
      have later : w.clock + 1 ≤ u.clock := quiet.later
      rw [quiet.server]
      exact ⟨marked_later servedMarked later, lands.trans (through (by simp [fate]))⟩
  | dropped rows e w' fate answer consumed broken cut =>
      have later : w.clock + 1 ≤ u.clock := cut.later
      rw [cut.server]
      obtain ⟨here, same⟩ := new_session_marked servedMarked
      refine ⟨marked_later here later, ?_⟩
      rw [← through (by simp [fate]), ← lands]
      exact Iff.rfl
  | unsent fate e failure => exact ⟨marked_later marked (Nat.le_succ _), never (.inr fate)⟩
  | unheard fate e failure => exact ⟨servedMarked, lands.trans (through (by simp [fate]))⟩
  | lostBefore fate e w' broken cut freed =>
      have later : w.clock + 1 ≤ u.clock := cut.later
      rw [cut.server]
      refine ⟨marked_later (new_session_marked marked).1 (Nat.le_trans (Nat.le_succ _) later), ?_⟩
      rw [← never (.inl fate)]
      exact Iff.rfl
  | lostAfter fate e w' broken cut freed =>
      have later : w.clock + 1 ≤ u.clock := cut.later
      rw [cut.server]
      refine ⟨marked_later (new_session_marked servedMarked).1 later, ?_⟩
      rw [← through (by simp [fate]), ← lands]
      exact Iff.rfl

-- What commit() makes of the way COMMIT went.
def verdict (outcome : Except Exn (List (List String))) (u : World) : Status :=
  match outcome with
  | .ok _ => .committed
  | .error _ => if u.conn.isOpen then .aborted else .inDoubt

theorem executed_trans {w u : World} {sql : Sql} {outcome : Except Exn (List (List String))} (executed : Executed env w sql outcome u) :
    u.trans = w.trans := by
  cases executed with
  | done _ _ _ _ _ quiet => exact quiet.trans
  | refused => rfl
  | troubled _ _ _ _ _ _ _ quiet => exact quiet.trans
  | dropped _ _ _ _ _ _ _ cut => exact cut.trans
  | unsent => rfl
  | unheard => rfl
  | lostBefore _ _ _ _ cut => exact cut.trans
  | lostAfter _ _ _ _ cut => exact cut.trans

-- None of the exceptions of exec() is an in_doubt_error.
theorem executed_certain {w u : World} {sql : Sql} {e : Exn} (executed : Executed env w sql (.error e) u) :
    e.isA .inDoubtError = false := by
  have broken (kind : e.kind = .brokenConnection) : e.isA .inDoubtError = false := by
    rw [Exn.isA, kind]
    rfl
  have failure (kind : e.kind = .failure) : e.isA .inDoubtError = false := by
    rw [Exn.isA, kind]
    rfl
  cases executed with
  | refused error =>
      simp only [Exn.isA, Connection.sqlException, Connection.errorKind]
      split
      · rfl
      · split
        · rfl
        · split
          · rfl
          · rfl
  | troubled _ _ _ _ _ _ kind => exact broken kind
  | dropped _ _ _ _ _ _ kind => exact broken kind
  | unsent _ _ kind => exact failure kind
  | unheard _ _ kind => exact failure kind
  | lostBefore _ _ _ kind => exact broken kind
  | lostAfter _ _ _ kind => exact broken kind

-- Two worlds that differ in what was said to the client at most.
def Alike (w w' : World) : Prop := w'.trans = w.trans ∧ w'.server = w.server ∧ w'.clock = w.clock

theorem process_notice_alike {u w : World} (alike : Alike u w) (msg : String) :
    wp (processNotice msg) (fun _ v => Alike u v) (fun _ _ => False) w := by
  simp only [processNotice, wp_modify]
  split
  · exact alike
  · exact alike

theorem direct_open {w : World} {sql : Sql} (calm : (w.trans i).pendingError = "") (isOpen : w.conn.isOpen = true) (retries : Nat) :
    wp (Transaction.directExec env i sql retries) (fun rows w' => Executed env w sql (.ok rows) w')
      (fun e w' => Executed env w sql (.error e) w') w := by
  simp only [Transaction.directExec]
  rw [wp_bind]
  exact wp_ok (Transaction.check_pending_clean calm) (Connection.exec_open isOpen retries)

theorem work_commit_spec {w : World} (calm : (w.trans i).pendingError = "") (isOpen : w.conn.isOpen = true) :
    wp (Transaction.workCommit env i) (fun _ u => ∃ rows, Executed env w .commit (.ok rows) u)
      (fun e v => ∃ e' u, Executed env w .commit (.error e') u ∧ Alike u v ∧ e.isA .inDoubtError = !u.conn.isOpen) w := by
  simp only [Transaction.workCommit, Transaction.direct]
  rw [wp_try_catch, wp_bind]
  refine wp_mono (direct_open calm isOpen 0) (fun rows u executed => ⟨rows, executed⟩) (fun e u executed => ?_)
  rw [wp_bind, wp_get]
  refine wp_ite _ _ _ _ _ _ (fun closed => ?_) (fun stays => ?_)
  · rw [wp_bind]
    refine wp_mono (process_notice_alike ⟨rfl, rfl, rfl⟩ _) (fun _ v alike => ?_) (fun _ _ => False.elim)
    rw [wp_bind]
    refine wp_mono (process_notice_alike alike _) (fun _ v alike => ?_) (fun _ _ => False.elim)
    refine ⟨e, u, executed, alike, ?_⟩
    rw [closed]
    rfl
  · refine ⟨e, u, executed, ⟨rfl, rfl, rfl⟩, ?_⟩
    rw [executed_certain executed, (Bool.not_eq_false _).mp stays]
    rfl

-- A work between its beginning and its end, in a world fit for one.
structure Underway (i : Nat) (w : World) : Prop where
  kind : (w.trans i).kind = .work
  begun : (w.trans i).status ≠ .nascent
  marked : w.server.Marked w.clock
  block : ∃ m, (w.trans i).block = some m
  inside : (w.trans i).status = .active → ¬ w.blockCommitted i

theorem fades_committed {w w' : World} (fades : Fades i w w') (underway : Underway i w) :
    w'.blockCommitted i ↔ w.blockCommitted i := by
  obtain ⟨marked, _, block, _⟩ := fades underway.kind underway.begun
  simp only [World.blockCommitted, block, (marked underway.marked).2]

theorem fades_underway {w w' : World} (fades : Fades i w w') (underway : Underway i w) (sound : Truthful i w) :
    Underway i w' ∧ Truthful i w' := by
  obtain ⟨marked, kind, block, status⟩ := fades underway.kind underway.begun
  have same := fades_committed fades underway
  obtain ⟨m, own⟩ := underway.block
  refine ⟨⟨kind, ?_, (marked underway.marked).1, ⟨m, block.trans own⟩, ?_⟩, ?_, ?_⟩
  · rcases status with status | ⟨_, status⟩
    · rw [status]
      exact underway.begun
    · rw [status]
      exact nofun
  · intro active
    rw [same]
    rcases status with status | ⟨_, status⟩
    · exact underway.inside (status.symm.trans active)
    · rw [status] at active
      cases active
  · intro committed
    rw [same]
    rcases status with status | ⟨_, status⟩
    · exact sound.1 (status.symm.trans committed)
    · rw [status] at committed
      cases committed
  · intro aborted
    rw [same]
    rcases status with status | ⟨active, _⟩
    · exact sound.2 (status.symm.trans aborted)
    · exact underway.inside active

-- Where commit() leaves a work whose COMMIT it sent.
def Settled (env : Outside) (i : Nat) (w w' : World) : Prop :=
  ∃ outcome u, Executed env w .commit outcome u ∧ (w'.trans i).status = verdict outcome u ∧
    (w'.trans i).kind = (w.trans i).kind ∧ (w'.trans i).block = (w.trans i).block ∧
    (u.server.Marked u.clock → w'.server.Marked w'.clock ∧ w'.server.store.base.marks = u.server.store.base.marks)

-- Once the status is final, what follows in commit() leaves the work as it is.
theorem settled_onward {w v v' : World} (settled : Settled env i w v) (work : (w.trans i).kind = .work)
    (closed : (v.trans i).status = .committed) (fades : Fades i v v') :
    Settled env i w v' ∧ (v'.trans i).status = .committed := by
  obtain ⟨outcome, u, executed, status, kind, block, marked⟩ := settled
  obtain ⟨marked', kind', block', status'⟩ := fades (kind.trans work) (by rw [closed]; exact nofun)
  have stays : (v'.trans i).status = .committed := by
    rcases status' with status' | ⟨active, _⟩
    · exact status'.trans closed
    · rw [closed] at active
      cases active
  refine ⟨⟨outcome, u, executed, ?_, kind'.trans (kind.trans work).symm |>.trans kind, block'.trans block, fun there => ?_⟩, stays⟩
  · rw [← status, closed, stays]
  · obtain ⟨here, left⟩ := marked there
    obtain ⟨here, right⟩ := marked' here
    exact ⟨here, right.trans left⟩

theorem commit_active_spec {w : World} (work : (w.trans i).kind = .work) (sent : CommitSent i w) :
    wp (Transaction.commitActive env i) (fun _ w' => Settled env i w w' ∧ (w'.trans i).status = .committed)
      (fun _ w' => Settled env i w w') w := by
  obtain ⟨active, calm, focus, isOpen⟩ := sent
  have done : Transaction.doCommit env i w = Transaction.workCommit env i w := by
    simp only [Transaction.doCommit, Prog.bind_apply, Prog.get_apply, work]
  have committed := @work_commit_spec env i w calm isOpen
  unfold wp at committed
  rw [← done] at committed
  have rest : Keeps (Fades i) (do
      let w ← (Prog.get : Client World)
      Connection.addVariables (w.trans i).vars
      Transaction.end_ env i) :=
    keeps_get fun w => keeps_bind fades_framing
      (fades_keeps (Connection.add_variables_keeps (@still_bookkeeping env).ledger _)) fun _ => end_fades
  simp only [Transaction.commitActive]
  rw [wp_bind, wp_try_catch, wp_bind]
  refine wp_mono committed ?_ ?_
  · rintro _ u ⟨rows, executed⟩
    have trans := executed_trans executed
    simp only [Transaction.setStatus, modifyTrans, wp_modify]
    have settled : Settled env i w { u with trans := fun j => if j = i then { u.trans j with status := .committed } else u.trans j } := by
      refine ⟨.ok rows, u, executed, ?_⟩
      simp only [if_true, trans, verdict, true_and]
      exact fun marked => ⟨marked, trivial⟩
    have final {v' : World} := @settled_onward env i w _ v' settled work (by simp only [if_true])
    exact wp_mono (wp_keeps rest) (fun _ _ fades => final fades) (fun _ _ fades => (final fades).1)
  · rintro e v ⟨e', u, executed, ⟨trans, server, clock⟩, certain⟩
    have before := executed_trans executed
    simp only [Transaction.setStatus, modifyTrans, wp_bind, wp_modify, wp_throw]
    refine ⟨.error e', u, executed, ?_⟩
    simp only [if_true, trans, before, certain, server, clock, true_and]
    refine ⟨?_, fun marked => ⟨marked, trivial⟩⟩
    cases isOpen : u.conn.isOpen with
    | true => simp [verdict, isOpen]
    | false => simp [verdict, isOpen]

theorem settled_final {w w' : World} (settled : Settled env i w w') : (w'.trans i).status ≠ .active := by
  obtain ⟨outcome, u, _, status, _⟩ := settled
  rw [status]
  cases outcome with
  | ok => exact nofun
  | error => simp only [verdict]; split <;> exact nofun

theorem verdict_open {u : World} {e : Exn} (isOpen : u.conn.isOpen = true) : verdict (.error e) u = .aborted := by
  simp only [verdict, isOpen, if_true]

theorem verdict_closed {u : World} {e : Exn} (closed : u.conn.isOpen = false) : verdict (.error e) u = .inDoubt := by
  simp only [verdict, closed, Bool.false_eq_true, if_false]

-- The status and the fate of the block agree just where the condition holds.
theorem verdict_safe {w u : World} {outcome : Except Exn (List (List String))} (executed : Executed env w .commit outcome u)
    (isOpen : w.conn.isOpen = true) (m : Nat) :
    ((verdict outcome u = .committed → CommitLands env w m) ∧ (verdict outcome u = .aborted → ¬ CommitLands env w m)) ↔
      (env.refuses w.clock 0 = none →
        match env.fate w.clock with
        | .answered =>
            match env.consumes (w.clock + 1) with
            | .fine => w.server.live m
            | .trouble => ¬ w.server.live m
            | .lost => True
        | .nullAfter => ¬ w.server.live m
        | .lostBefore | .lostAfter | .nullBefore => True) := by
  have accepted (rows : List (List String)) (answer : (w.server.serve env w.clock 0 .commit).1 = .rows rows) :
      env.refuses w.clock 0 = none := by
    cases refused : env.refuses w.clock 0 with
    | none => rfl
    | some error =>
        simp only [Server.serve, refused] at answer
        cases answer
  have answeredOpen : (w.answered env .commit).conn.isOpen = true := answered_open.trans isOpen
  cases executed with
  | done rows w' fate answer consumed quiet =>
      simp only [verdict, CommitLands, accepted rows answer, fate, consumed, reduceCtorEq, not_false_eq_true, and_true, true_and,
        true_imp_iff, false_imp_iff, ne_eq]
  | refused error fate answer =>
      have refused : env.refuses w.clock 0 ≠ none := by
        intro refused
        rw [serve_commit w.server 0 refused] at answer
        cases answer
      simp only [verdict_open answeredOpen, CommitLands, refused, false_and, not_false_eq_true, reduceCtorEq, false_imp_iff,
        true_imp_iff, and_true]
  | troubled rows e w' fate answer consumed broken quiet =>
      simp only [verdict_open (quiet.isOpen.trans answeredOpen), CommitLands, accepted rows answer, fate, consumed, reduceCtorEq,
        not_false_eq_true, and_true, true_and, true_imp_iff, false_imp_iff, ne_eq]
  | dropped rows e w' fate answer consumed broken cut =>
      simp only [verdict_closed cut.closed, fate, consumed, reduceCtorEq, false_imp_iff, and_true, imp_true_iff]
  | unsent fate e failure =>
      have asked : (w.ask [.commit] false).conn.isOpen = true := (asked_open [.commit] false).trans isOpen
      simp only [verdict_open asked, CommitLands, fate, reduceCtorEq, false_imp_iff, true_and, imp_true_iff, ne_eq,
        not_true_eq_false, and_false, not_false_eq_true]
  | unheard fate e failure =>
      have asked : ((w.ask [.commit] false).serve (w.server.serve env w.clock 0 .commit).2).conn.isOpen = true :=
        (asked_open [.commit] false).trans isOpen
      simp only [verdict_open asked, CommitLands, fate, reduceCtorEq, false_imp_iff, true_imp_iff, true_and, ne_eq,
        not_false_eq_true, and_true, not_and]
  | lostBefore fate e w' broken cut freed =>
      simp only [verdict_closed cut.closed, fate, reduceCtorEq, false_imp_iff, and_true, imp_true_iff]
  | lostAfter fate e w' broken cut freed =>
      simp only [verdict_closed cut.closed, fate, reduceCtorEq, false_imp_iff, and_true, imp_true_iff]

-- One commit() and what its verdict is worth.
theorem settled_sound {w w' : World} (underway : Underway i w) (sent : CommitSent i w) (settled : Settled env i w w') :
    Underway i w' ∧ (Truthful i w' ↔ CommitSafe env i w .commit) := by
  have notActive := settled_final settled
  obtain ⟨outcome, u, executed, status, kind, block, marked⟩ := settled
  obtain ⟨m, own⟩ := underway.block
  have before : m ∉ w.server.store.base.marks := fun there => underway.inside sent.1 ⟨m, own, there⟩
  obtain ⟨here, lands⟩ := executed_lands underway.marked m before executed
  obtain ⟨there, same⟩ := marked here
  have committed : w'.blockCommitted i ↔ CommitLands env w m := by
    simp only [World.blockCommitted, block, own, Option.some.injEq, exists_eq_left', same, lands]
  have live : w.blockLive i ↔ w.server.live m := by
    simp only [World.blockLive, own, Option.some.injEq, exists_eq_left']
  have notNascent : (w'.trans i).status ≠ .nascent := by
    rw [status]
    cases outcome with
    | ok => exact nofun
    | error => simp only [verdict]; split <;> exact nofun
  refine ⟨⟨kind.trans underway.kind, notNascent, there, ⟨m, block.trans own⟩, fun active => absurd active notActive⟩, ?_⟩
  simp only [Truthful, committed, status, CommitSafe, sent, live, true_imp_iff]
  exact verdict_safe executed sent.2.2.2 m

theorem process_notice_sent (msg : String) (w : World) :
    wp (processNotice msg) (fun _ v => Still w v ∧ v.trans = w.trans ∧ v.sent = w.sent ∧ v.server = w.server) (fun _ _ => False) w := by
  simp only [processNotice, wp_modify]
  split
  · exact ⟨still_framing.same w, rfl, rfl, rfl⟩
  · exact ⟨still_server rfl rfl (Nat.le_refl _), rfl, rfl, rfl⟩

-- What one commit() of a work that is underway comes to.
structure CommitStep (env : Outside) (i : Nat) (w w' : World) : Prop where
  underway : Underway i w'
  sound : Truthful i w' ↔ CommitSafe env i w .commit
  unsent : (w'.trans i).status = .active → w'.sent = w.sent ∧ w'.server = w.server

-- A commit() that turns back before it sends anything.
theorem turned_back {w w' : World} (underway : Underway i w) (sound : Truthful i w) (still : Still w w')
    (nothing : w'.sent = w.sent ∧ w'.server = w.server) (notSent : ¬ CommitSent i w) : CommitStep env i w w' := by
  obtain ⟨underway', sound'⟩ := fades_underway (still_fades still) underway sound
  exact ⟨underway', ⟨fun _ sent => absurd sent notSent, fun _ => sound'⟩, fun _ => nothing⟩

theorem commit_spec {w : World} (underway : Underway i w) (sound : Truthful i w) :
    wp (Transaction.commit env i) (fun _ w' => CommitStep env i w w' ∧ (w'.trans i).status = .committed)
      (fun _ w' => CommitStep env i w w') w := by
  have same := still_framing.same w
  simp only [Transaction.commit, Transaction.checkPendingError, wp_bind, wp_get]
  refine wp_ite _ _ _ _ _ _ (fun pending => ?_) (fun calm => ?_)
  · simp only [modifyTrans, fault, wp_bind, wp_modify, wp_throw]
    refine turned_back underway sound ?_ ⟨rfl, rfl⟩ (fun sent => absurd sent.2.1 pending)
    exact (@still_bookkeeping env).notes w i (fun x => { x with pendingError := "" }) fun _ => rfl
  · rw [wp_pure]
    cases status : (w.trans i).status with
    | nascent => exact absurd status underway.begun
    | aborted =>
        refine turned_back underway sound same ⟨rfl, rfl⟩ fun sent => ?_
        rw [sent.1] at status
        cases status
    | inDoubt =>
        refine turned_back underway sound same ⟨rfl, rfl⟩ fun sent => ?_
        rw [sent.1] at status
        cases status
    | committed =>
        refine wp_mono (process_notice_sent _ w) ?_ (fun _ _ => False.elim)
        rintro _ v ⟨still, trans, nothing⟩
        refine ⟨turned_back underway sound still nothing fun sent => ?_, by rw [trans]; exact status⟩
        rw [sent.1] at status
        cases status
    | active =>
        cases focus : (w.trans i).focus with
        | some f =>
            refine turned_back underway sound same ⟨rfl, rfl⟩ fun sent => ?_
            rw [sent.2.2.1] at focus
            cases focus
        | none =>
            refine wp_ite _ _ _ _ _ _ (fun closed => ?_) (fun isOpen => ?_)
            · refine turned_back underway sound same ⟨rfl, rfl⟩ fun sent => ?_
              rw [sent.2.2.2] at closed
              cases closed
            · have sent : CommitSent i w := ⟨status, not_not.mp calm, focus, (Bool.not_eq_false _).mp isOpen⟩
              have step {w' : World} (settled : Settled env i w w') : CommitStep env i w w' := by
                obtain ⟨underway', sound'⟩ := settled_sound underway sent settled
                exact ⟨underway', sound', fun active => absurd active (settled_final settled)⟩
              refine wp_mono (commit_active_spec underway.kind sent) ?_ (fun _ _ settled => step settled)
              rintro _ _ ⟨settled, committed⟩
              exact ⟨step settled, committed⟩

theorem begin_served {server : Server} {t : Nat} {args : String} {rows : List (List String)}
    (answer : (server.serve env t 0 (.begin args)).1 = .rows rows) :
    ∃ b, (server.serve env t 0 (.begin args)).2.store.block = some b := by
  simp only [Server.serve] at answer ⊢
  split at answer
  · cases answer
  · rename_i accepted
    simp only [Server.perform] at answer ⊢
    split at answer
    · cases answer
    · rename_i fine
      simp only [fine, Bool.false_eq_true, if_false, Store.begin]
      cases there : server.store.block with
      | none => exact ⟨_, rfl⟩
      | some b => exact ⟨b, there⟩

-- BEGIN puts the session in a block which no COMMIT has touched.
theorem db_begin_spec {w : World} (marked : w.server.Marked w.clock) :
    wp (Transaction.dbBegin env i)
      (fun _ w' => Still w w' ∧ ∃ m, w'.server.store.view.marks.head? = some m ∧ m ∉ w'.server.store.base.marks)
      (fun _ _ => True) w := by
  have books := (@still_bookkeeping env).ledger
  have begins := @still_request env (.begin (w.trans i).startArgs) nofun
  simp only [Transaction.dbBegin, Transaction.direct, Transaction.directExec, wp_bind, wp_get, wp_pure]
  refine wp_mono (wp_keeps (Transaction.check_pending_error_keeps books.chores i)) (fun _ u still => ?_) (fun _ _ _ => trivial)
  have heard := @Connection.exec_heard env u _ Still still_background.upkeep begins (if w.conn.reactivationAvoidance ≠ 0 then 0 else 2)
  refine wp_mono (wp_and heard (wp_keeps (Connection.exec_keeps still_background.upkeep begins _))) ?_ (fun _ _ _ => trivial)
  rintro rows w' ⟨⟨v, still', isOpen, fate, answer, quiet⟩, onward⟩
  have whole := still_framing.onward _ _ _ still onward
  obtain ⟨b, block⟩ := begin_served answer
  have block' : w'.server.store.block = some b := by
    rw [quiet.server]
    exact block
  obtain ⟨_, m, _, own, keyed⟩ := (whole.marked marked).1
  refine ⟨whole, m, ?_, own⟩
  simp only [Store.view, block', keyed.view b block', List.head?_cons]

-- The work's constructor, where it succeeds, leaves a work that is underway.
theorem begin_spec {w : World} (marked : w.server.Marked w.clock) (work : (w.trans i).kind = .work)
    (nascent : (w.trans i).status = .nascent) :
    wp (Transaction.begin env i) (fun _ w' => Underway i w' ∧ (w'.trans i).status = .active) (fun _ _ => True) w := by
  have fresh : ¬ (w.trans i).status ≠ .nascent := not_not.mpr nascent
  simp only [Transaction.begin]
  rw [wp_bind, wp_get, if_neg fresh, wp_try_catch]
  have body : wp (do
      let _ ← Connection.getNotifs env
      Transaction.doBegin env i
      Transaction.setBegun i) (fun _ w' => Underway i w' ∧ (w'.trans i).status = .active) (fun _ _ => True) w := by
    rw [wp_bind]
    refine wp_mono (wp_keeps (Connection.get_notifs_keeps still_background.upkeep)) (fun _ u still => ?_) (fun _ _ _ => trivial)
    have kind := (bare_same Transaction.kind (fun _ => rfl) (still.bare i)).trans work
    rw [wp_bind]
    simp only [Transaction.doBegin, wp_bind, wp_get, kind]
    refine wp_mono (db_begin_spec (still.marked marked).1) ?_ (fun _ _ _ => trivial)
    rintro _ v ⟨still', m, head, own⟩
    have kind' := (bare_same Transaction.kind (fun _ => rfl) (still'.bare i)).trans kind
    simp only [Transaction.setBegun, wp_modify]
    refine ⟨⟨?_, ?_, (still'.marked (still.marked marked).1).1, ⟨m, ?_⟩, ?_⟩, ?_⟩
    · simp only [if_true, kind']
    · simp only [if_true, ne_eq, reduceCtorEq, not_false_eq_true]
    · simp only [if_true, head]
    · rintro _ ⟨m', here, there⟩
      simp only [if_true, head, Option.some.injEq] at here
      rw [here] at own
      exact own there
    · simp only [if_true]
  refine wp_mono body (fun _ _ => id) (fun e v _ => ?_)
  exact wp_last fun _ _ => trivial

theorem open_work_spec {w : World} (marked : w.server.Marked w.clock) (classname name startArgs logTable : String) :
    wp (openWork env i .work classname name startArgs logTable)
      (fun _ w' => Underway i w' ∧ (w'.trans i).status = .active) (fun _ _ => True) w := by
  simp only [openWork, modifyTrans, wp_bind, wp_modify, Connection.registerTransaction, wp_get]
  split
  · simp only [modifyConn, wp_modify]
    refine begin_spec marked ?_ ?_
    · simp only [if_true, Transaction.fresh]
    · simp only [if_true, Transaction.fresh]
  · refine wp_ite _ _ _ _ _ _ (fun _ => trivial) (fun _ => trivial)

end

theorem active_sound {i : Nat} {w : World} (active : (w.trans i).status = .active) : Truthful i w := by
  refine ⟨fun committed => ?_, fun aborted => ?_⟩
  · rw [active] at committed
    cases committed
  · rw [active] at aborted
    cases aborted

-- One operation on a work that is underway.
theorem work_step {env : Outside} {i : Nat} {w : World} (op : WorkOp) (underway : Underway i w) (sound : Truthful i w) :
    Underway i (workStep env i w op) ∧ (Truthful i (workStep env i w op) ↔ CommitSafe env i w op) := by
  by_cases commits : op = .commit
  · rw [commits]
    have spec := @commit_spec env i w underway sound
    simp only [workStep, WorkOp.perform]
    unfold wp at spec
    split at spec
    · rename_i outcome
      rw [outcome]
      exact ⟨spec.1.underway, spec.1.sound⟩
    · rename_i outcome
      rw [outcome]
      exact ⟨spec.underway, spec.sound⟩
  · obtain ⟨underway', sound'⟩ := fades_underway (@perform_fades env i op commits w) underway sound
    refine ⟨underway', fun _ => ?_, fun _ => sound'⟩
    cases op with
    | commit => exact absurd rfl commits
    | _ => trivial

-- A work's status can be trusted in every state of a run whose every COMMIT meets the
-- condition, and a COMMIT that does not meet it leaves a status that cannot. commit()
-- returns with the status committed only, and a commit() that gives no verdict at all
-- has sent nothing.
theorem commit_sound (env : Outside) (i : Nat) (classname name startArgs logTable : String) (w₀ w : World)
    (marked : w₀.server.Marked w₀.clock)
    (opened : openWork env i .work classname name startArgs logTable w₀ = (.ok (), w)) (ops : List WorkOp)
    (safe : Along (CommitSafe env i) (workStep env i) w ops) :
    let v := run (workStep env i) w ops
    Truthful i v ∧ (∀ op, Truthful i (workStep env i v op) ↔ CommitSafe env i v op) ∧
      ∀ outcome v', Transaction.commit env i v = (outcome, v') →
        (outcome = .ok () → (v'.trans i).status = .committed) ∧
        ((v'.trans i).status = .committed ∨ (v'.trans i).status = .aborted ∨ (v'.trans i).status = .inDoubt ∨
          v'.sent = v.sent ∧ v'.server = v.server) := by
  have start := @open_work_spec env i w₀ marked classname name startArgs logTable
  unfold wp at start
  rw [opened] at start
  have kept : Underway i (run (workStep env i) w ops) ∧ Truthful i (run (workStep env i) w ops) :=
    run_invariant (CommitSafe env i) (workStep env i) (fun w => Underway i w ∧ Truthful i w)
      (fun w op safe ⟨underway, sound⟩ => by
        obtain ⟨underway', sound'⟩ := @work_step env i w op underway sound
        exact ⟨underway', sound'.mpr safe⟩)
      w ops safe ⟨start.1, active_sound start.2⟩
  obtain ⟨underway, sound⟩ := kept
  refine ⟨sound, fun op => (work_step op underway sound).2, fun outcome v' committed => ?_⟩
  have spec := @commit_spec env i _ underway sound
  unfold wp at spec
  rw [committed] at spec
  have final (step : CommitStep env i (run (workStep env i) w ops) v') : (v'.trans i).status = .committed ∨
      (v'.trans i).status = .aborted ∨ (v'.trans i).status = .inDoubt ∨
        v'.sent = (run (workStep env i) w ops).sent ∧ v'.server = (run (workStep env i) w ops).server := by
    cases status : (v'.trans i).status with
    | nascent => exact absurd status step.underway.begun
    | active => exact .inr (.inr (.inr (step.unsent status)))
    | aborted => exact .inr (.inl rfl)
    | committed => exact .inl rfl
    | inDoubt => exact .inr (.inr (.inl rfl))
  cases outcome with
  | ok _ => exact ⟨fun _ => spec.2, final spec.1⟩
  | error e => exact ⟨nofun, final spec⟩

-- An INSERT and a COMMIT, and nothing goes wrong.
theorem commit_sound_calm :
    let opened := openWork Outside.calm 0 .work "transaction<READ COMMITTED>" "" "" "" (World.initial .lazy)
    let v := run (workStep Outside.calm 0) opened.2 [.exec "INSERT INTO t VALUES (1)" "", .commit]
    (v.trans 0).status = .committed ∧ v.blockCommitted 0 := by
  have opened : openWork Outside.calm 0 .work "transaction<READ COMMITTED>" "" "" "" (World.initial .lazy) =
      (.ok (), (openWork Outside.calm 0 .work "transaction<READ COMMITTED>" "" "" "" (World.initial .lazy)).2) := rfl
  have sound := commit_sound Outside.calm 0 "transaction<READ COMMITTED>" "" "" "" (World.initial .lazy) _
    (marked_idle rfl nofun) opened [.exec "INSERT INTO t VALUES (1)" "", .commit] ?_
  · have status : ((run (workStep Outside.calm 0)
        (openWork Outside.calm 0 .work "transaction<READ COMMITTED>" "" "" "" (World.initial .lazy)).2
        [.exec "INSERT INTO t VALUES (1)" "", .commit]).trans 0).status = .committed := by decide +kernel
    exact ⟨status, sound.1.1 status⟩
  · refine ⟨trivial, fun _ _ => ?_, trivial⟩
    exact ⟨1, by decide +kernel, live_any (by decide +kernel)⟩

theorem block_missed {w : World} {i : Nat}
    (all : (w.trans i).block.all (fun m => decide (m ∉ w.server.store.base.marks)) = true) : ¬ w.blockCommitted i := by
  rintro ⟨m, own, there⟩
  rw [own] at all
  exact of_decide_eq_true all there

-- The backend refuses a prepared statement, which does not abort the work; its COMMIT
-- then rolls back, yet answers as any other, and the work counts as committed.
theorem commit_sound_fails :
    let env := { Outside.calm with
      refuses := fun t _ => if t = 4 then some { state := "23505", message := "duplicate key" } else none }
    let opened := openWork env 0 .work "transaction<READ COMMITTED>" "" "" "" (World.initial .lazy)
    let v := run (workStep env 0) opened.2 [.prepare "ins" "INSERT INTO t VALUES (1)", .prepared "ins", .preparedExec "ins" []]
    opened.1 = .ok () ∧ (Transaction.commit env 0 v).1 = .ok () ∧ ((Transaction.commit env 0 v).2.trans 0).status = .committed ∧
      ¬ (Transaction.commit env 0 v).2.blockCommitted 0 := by
  exact ⟨rfl, rfl, by decide +kernel, block_missed (by decide +kernel)⟩

end Pqxx
