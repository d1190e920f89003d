import Pqxx.ClientRun
import Pqxx.StatementGuard

set_option autoImplicit false

namespace Pqxx

open Lib Prog

-- A statement of the client's, or COMMIT: what may have an effect that lasts, and so must not
-- be sent twice.
def Sql.lasting : Sql → Bool
  | .commit => true
  | .statement _ _ _ => true
  | .execute _ _ _ => true
  | _ => false

def World.lasting (w : World) : List Sql := (w.sent.map Sent.sql).filter Sql.lasting

def Hushed (w w' : World) : Prop := w'.lasting = w.lasting

def SentOnce (sql : Sql) (w w' : World) : Prop := w'.lasting = w.lasting ++ [sql]

def AtMostOnce (sql : Sql) (w w' : World) : Prop := Hushed w w' ∨ SentOnce sql w w'

section

variable {env : Outside} {i : Nat} {sql : Sql} {w v u : World}

theorem own_lasting (own : sql.own) : sql.lasting = false := by
  cases sql with
  | commit => exact own.elim
  | statement _ _ _ => exact own.elim
  | execute _ _ _ => exact own.elim
  | _ => rfl

theorem restoring_lasting (restoring : sql.restoring) : sql.lasting = false := by
  cases sql with
  | setVar _ _ => rfl
  | listen _ => rfl
  | _ => exact restoring.elim

theorem hushed_sent (sent : v.sent = w.sent) : Hushed w v := by rw [Hushed, World.lasting, World.lasting, sent]

theorem lasting_asked {batch : List Sql} (sent : v.sent = w.sent ++ batch.map fun sql => { sql, guarded := w.guarded sql }) :
    v.lasting = w.lasting ++ batch.filter Sql.lasting := by
  rw [World.lasting, sent, List.map_append, List.filter_append, List.map_map]
  exact congrArg (fun asked => w.lasting ++ List.filter Sql.lasting asked) (List.map_id batch)

theorem hushed_asked {batch : List Sql} (sent : v.sent = w.sent ++ batch.map fun sql => { sql, guarded := w.guarded sql })
    (passing : ∀ sql ∈ batch, sql.lasting = false) : Hushed w v := by
  have none_ : batch.filter Sql.lasting = [] := by
    apply List.filter_eq_nil_iff.mpr
    intro sql there
    rw [passing sql there]
    exact Bool.false_ne_true
  rw [Hushed, lasting_asked sent, none_, List.append_nil]

theorem sent_once_asked (lasting : sql.lasting = true) (sent : v.sent = w.sent ++ [{ sql, guarded := w.guarded sql }]) :
    SentOnce sql w v := by
  rw [SentOnce, @lasting_asked w v [sql] sent, List.filter_cons, lasting]
  rfl

theorem hushed_framing : Framing Hushed where
  same _ := rfl
  onward _ _ _ one two := two.trans one

theorem hushed_request (passing : sql.lasting = false) : Request env Hushed sql where
  asks _ := hushed_asked rfl fun other there => by rw [List.mem_singleton.mp there]; exact passing
  served _ := hushed_asked rfl fun other there => by rw [List.mem_singleton.mp there]; exact passing

theorem hushed_bookkeeping : Bookkeeping env Hushed where
  toFraming := hushed_framing
  link _ _ _ _ sent _ := hushed_sent sent
  ends _ _ _ _ sent _ := hushed_sent sent
  asks _ _ restoring := hushed_asked rfl fun sql there => restoring_lasting (restoring sql there)
  restores _ _ restoring := hushed_asked rfl fun sql there => restoring_lasting (restoring sql there)
  notes _ _ _ _ := hushed_sent rfl
  own _ own := hushed_request (own_lasting own)
  copies _ _ _ := hushed_sent rfl

theorem turn_hushed (f : Transaction → Transaction) : Keeps Hushed (modifyTrans i f) := fun _ => hushed_sent rfl

theorem members_hushed (f : Connection → Connection) : Keeps Hushed (modifyConn f) := fun _ => hushed_sent rfl

namespace Transaction

theorem abort_hushed : Keeps Hushed (abort env i) := by
  have ledger := (@hushed_bookkeeping env).ledger
  have closes : Keeps Hushed (do setStatus i .aborted; endClosed i : Client Unit) :=
    keeps_bind hushed_framing (turn_hushed _) fun _ => end_closed_keeps ledger.chores i
  apply keeps_get
  intro w
  cases (w.trans i).status with
  | nascent => exact closes
  | active => exact keeps_bind hushed_framing (swallow_keeps ledger.chores (do_abort_keeps ledger.chores i)) fun _ => closes
  | aborted => exact keeps_pure hushed_framing _
  | committed => exact keeps_throw hushed_framing _
  | inDoubt => exact process_notice_keeps ledger.toUpkeep _

theorem end_hushed : Keeps Hushed (end_ env i) := by
  have ledger := (@hushed_bookkeeping env).ledger
  apply noticing_keeps ledger.chores
  apply keeps_bind hushed_framing (end_closed_keeps ledger.chores i)
  intro _
  apply keeps_get
  intro w
  apply keeps_ite
  · apply keeps_bind hushed_framing (note_focus_keeps ledger.chores _)
    intro _
    apply keeps_bind hushed_framing (noticing_keeps ledger.chores abort_hushed)
    intro _
    exact keeps_get fun v => keeps_bind hushed_framing (members_hushed _) fun _ => turn_hushed _
  · exact keeps_pure hushed_framing _

theorem begin_hushed : Keeps Hushed (begin env i) := by
  have ledger := (@hushed_bookkeeping env).ledger
  have starts : Keeps Hushed (do let _ ← Connection.getNotifs env; doBegin env i; setBegun i : Client Unit) := by
    apply keeps_bind hushed_framing (Connection.get_notifs_keeps ledger.toUpkeep)
    intro _
    apply keeps_bind hushed_framing (do_begin_keeps ledger.chores i)
    intro _
    exact fun _ => hushed_sent rfl
  apply keeps_get
  intro w
  apply keeps_ite
  · exact keeps_throw hushed_framing _
  · exact keeps_try_catch hushed_framing starts fun e => keeps_bind hushed_framing end_hushed fun _ => keeps_throw hushed_framing e

theorem activate_for_hushed (purpose : String) : Keeps Hushed (activateFor env i purpose) := by
  have activates : Keeps Hushed (activate env i) := by
    apply keeps_get
    intro w
    cases (w.trans i).status with
    | nascent => exact begin_hushed
    | active => exact keeps_pure hushed_framing _
    | committed => exact keeps_throw hushed_framing _
    | aborted => exact keeps_throw hushed_framing _
    | inDoubt => exact keeps_throw hushed_framing _
  apply keeps_try_catch hushed_framing activates
  intro e
  exact keeps_ite _ (keeps_throw hushed_framing _) (keeps_throw hushed_framing _)

end Transaction

theorem once_after (before : Hushed w v) (after_ : AtMostOnce sql v u) : AtMostOnce sql w u := by
  cases after_ with
  | inl hushed => exact .inl (hushed_framing.onward _ _ _ before hushed)
  | inr sent => exact .inr (sent.trans (congrArg (fun before => before ++ [sql]) before))

theorem once_before (before : AtMostOnce sql w v) (after_ : Hushed v u) : AtMostOnce sql w u := by
  cases before with
  | inl hushed => exact .inl (hushed_framing.onward _ _ _ hushed after_)
  | inr sent => exact .inr (after_.trans sent)

theorem sent_once_after (before : Hushed w v) (after_ : SentOnce sql v u) : SentOnce sql w u :=
  after_.trans (congrArg (fun before => before ++ [sql]) before)

-- A call that has sql sent, once, or throws and may have had it sent.
def Sending {α : Type} (sql : Sql) (call : Client α) (w : World) : Prop :=
  wp call (fun _ u => SentOnce sql w u) (fun _ u => AtMostOnce sql w u) w

theorem sending_after {α β : Type} {first : Client β} {rest : β → Client α} (hushed : Keeps Hushed first)
    (sends : ∀ b v, Sending sql (rest b) v) : Sending sql (first >>= rest) w := by
  rw [Sending, wp_bind]
  apply wp_mono (wp_keeps hushed)
  · intro b v before
    exact wp_mono (sends b v) (fun _ _ => sent_once_after before) fun _ _ => once_after before
  · exact fun _ _ => .inl

theorem sending_before {α β : Type} {first : Client β} {rest : β → Client α} (sends : Sending sql first w)
    (hushed : ∀ b, Keeps Hushed (rest b)) : Sending sql (first >>= rest) w := by
  rw [Sending, wp_bind]
  apply wp_mono sends
  · intro b v sent
    exact wp_mono (wp_keeps (hushed b)) (fun _ _ later => later.trans sent) fun _ _ later => .inr (later.trans sent)
  · exact fun _ _ => id

-- A handler that sends nothing, and throws in the end.
theorem sending_handled {α : Type} {call : Client α} {handler : Exn → Client α} (sends : Sending sql call w)
    (hushed : ∀ e, Keeps Hushed (handler e)) (throws : ∀ e v, wp (handler e) (fun _ _ => False) (fun _ _ => True) v) :
    Sending sql (tryCatch call handler) w := by
  rw [Sending, wp_try_catch]
  apply wp_mono sends
  · exact fun _ _ => id
  · intro e v once
    exact wp_mono (wp_and (wp_keeps (hushed e)) (throws e v)) (fun _ _ both => both.2.elim) fun _ _ both => once_before once both.1

theorem pq_exec_sends (lasting : sql.lasting = true) :
    wp (pqExec env sql) (fun r u => SentOnce sql w u ∨ r = none ∧ Hushed w u) (fun _ _ => False) w := by
  cases dead : w.conn.handle.any (fun h => h.status = .ok) with
  | false => exact wp_ok (pq_exec_dead dead) (.inr ⟨rfl, rfl⟩)
  | true =>
      obtain ⟨h, handle, status⟩ := (Option.any_eq_true _ _).mp dead
      have sent := @pq_exec_apply env w sql h handle (of_decide_eq_true status)
      cases fate : env.fate w.clock with
      | answered | lostBefore | lostAfter | nullBefore | nullAfter =>
          rw [fate] at sent
          exact wp_ok sent (.inl (sent_once_asked lasting rfl))

theorem wrap_up_hushed (text : String) (r : Option Answer) : Keeps Hushed (Connection.wrapUp env text r) := by
  have up := (@hushed_bookkeeping env).ledger.toUpkeep
  apply keeps_bind hushed_framing (Connection.make_result_keeps up r)
  intro r
  apply keeps_bind hushed_framing (Connection.check_result_keeps up r _)
  intro rows
  exact keeps_bind hushed_framing (Connection.get_notifs_keeps up) fun _ => keeps_pure hushed_framing _

theorem request_sends (lasting : sql.lasting = true) (text : String) :
    Sending sql (do
      let r ← pqExec env sql
      Connection.wrapUp env text r) w := by
  rw [Sending, wp_bind]
  apply wp_mono (pq_exec_sends lasting)
  · intro r u reached
    cases reached with
    | inl sent =>
        exact wp_mono (wp_keeps (wrap_up_hushed text r)) (fun _ _ later => later.trans sent) fun _ _ later => .inr (later.trans sent)
    | inr missed =>
        rw [missed.1]
        apply wp_mono (wp_and (wp_keeps (wrap_up_hushed text none)) (wrap_up_nothing text))
        · exact fun _ _ both => both.2.elim
        · exact fun _ _ both => .inl (hushed_framing.onward _ _ _ missed.2 both.1)
  · exact fun _ _ => False.elim

namespace Connection

-- Nothing that may last is ever tried again.
theorem exec_sends (lasting : sql.lasting = true) : Sending sql (exec env sql 0) w :=
  sending_after (activate_keeps (@hushed_bookkeeping env).ledger.toUpkeep) fun _ _ => request_sends lasting sql.text

theorem prepared_exec_sends (statement : String) (args : List (Option String)) :
    Sending (.execute i statement args) (preparedExec env i statement args) w := by
  have ledger := (@hushed_bookkeeping env).ledger
  apply sending_after (register_prepared_keeps ledger statement)
  intro _ _
  apply sending_after (activate_keeps ledger.toUpkeep)
  intro _ _
  exact request_sends rfl statement

theorem parameterized_exec_sends (query : String) (args : List (Option String)) :
    Sending (.statement i query args) (parameterizedExec env i query args) w := request_sends rfl query

end Connection

namespace Transaction

theorem direct_exec_sending (lasting : sql.lasting = true) : Sending sql (directExec env i sql 0) w :=
  sending_after (check_pending_error_keeps (@hushed_bookkeeping env).ledger.chores i) fun _ _ => Connection.exec_sends lasting

theorem direct_sending (lasting : sql.lasting = true) : Sending sql (direct env i sql 0) w :=
  sending_before (direct_exec_sending lasting) fun _ => keeps_pure hushed_framing _

theorem exec_sends (query desc : String) : Sending (.statement i query []) (exec env i query desc) w := by
  have ledger := (@hushed_bookkeeping env).ledger
  apply sending_after (check_pending_error_keeps ledger.chores i)
  intro _ v
  rw [Sending, wp_bind, wp_get]
  cases (v.trans i).focus with
  | some f => exact .inl rfl
  | none =>
      apply sending_after (activate_for_hushed _)
      intro _ u
      apply sending_handled (direct_exec_sending rfl)
      · intro e
        exact keeps_bind hushed_framing (swallow_keeps ledger.chores abort_hushed) fun _ => keeps_throw hushed_framing e
      · intro e t
        rw [wp_bind]
        exact wp_mono (wp_ends _ t) (fun _ _ _ => trivial) fun _ _ _ => trivial

theorem exec_sql_hushed (own : sql.own) (desc : String) : Keeps Hushed (execSql env i sql desc) := by
  have ledger := (@hushed_bookkeeping env).ledger
  apply keeps_bind hushed_framing (check_pending_error_keeps ledger.chores i)
  intro _
  apply keeps_get
  intro w
  cases (w.trans i).focus with
  | some f => exact keeps_throw hushed_framing _
  | none =>
      apply keeps_bind hushed_framing (activate_for_hushed _)
      intro _
      apply keeps_try_catch hushed_framing (direct_exec_keeps ledger.chores i (Connection.own_exec_keeps ledger sql own 0))
      intro e
      exact keeps_bind hushed_framing (swallow_keeps ledger.chores abort_hushed) fun _ => keeps_throw hushed_framing e

theorem set_variable_hushed (var value : String) : Keeps Hushed (setVariable env i var value) :=
  keeps_bind hushed_framing (Connection.raw_set_var_keeps (@hushed_bookkeeping env).ledger var value) fun _ => turn_hushed _

theorem get_variable_hushed (var : String) : Keeps Hushed (getVariable env i var) := by
  apply keeps_get
  intro w
  cases (w.trans i).vars.find var with
  | some value => exact keeps_pure hushed_framing _
  | none => exact Connection.raw_get_var_keeps (@hushed_bookkeeping env).ledger var

theorem pending_error_hushed (err : String) : Keeps Hushed (registerPendingError i err) := turn_hushed _

theorem register_focus_hushed (f : Focus) : Keeps Hushed (registerFocus i f) := by
  apply keeps_get
  intro w
  cases (w.trans i).focus with
  | none => exact turn_hushed _
  | some old => exact keeps_throw hushed_framing _

end Transaction

-- A call with one step that may send sql, once.
theorem once_kept_after {α β : Type} {first : Client β} {rest : β → Client α} (hushed : Keeps Hushed first)
    (sends : ∀ b, Keeps (AtMostOnce sql) (rest b)) : Keeps (AtMostOnce sql) (first >>= rest) := by
  intro w
  rw [bind_apply]
  have before := hushed w
  split
  · rename_i b v outcome
    rw [outcome] at before
    exact once_after before (sends b v)
  · rename_i e v outcome
    rw [outcome] at before
    exact .inl before

theorem once_kept_before {α β : Type} {first : Client β} {rest : β → Client α} (sends : Keeps (AtMostOnce sql) first)
    (hushed : ∀ b, Keeps Hushed (rest b)) : Keeps (AtMostOnce sql) (first >>= rest) := by
  intro w
  rw [bind_apply]
  have before := sends w
  split
  · rename_i b v outcome
    rw [outcome] at before
    exact once_before before (hushed b v)
  · rename_i e v outcome
    rw [outcome] at before
    exact before

theorem once_kept_handled {α : Type} {call : Client α} {handler : Exn → Client α} (sends : Keeps (AtMostOnce sql) call)
    (hushed : ∀ e, Keeps Hushed (handler e)) : Keeps (AtMostOnce sql) (tryCatch call handler) := by
  intro w
  rw [try_catch_apply]
  have before := sends w
  split
  · rename_i a v outcome
    rw [outcome] at before
    exact before
  · rename_i e v outcome
    rw [outcome] at before
    exact once_before before (hushed e v)

theorem once_kept_hushed {α : Type} {call : Client α} (hushed : Keeps Hushed call) : Keeps (AtMostOnce sql) call := fun w => .inl (hushed w)

theorem once_kept_sending {α : Type} {call : Client α} (sends : ∀ w, Sending sql call w) : Keeps (AtMostOnce sql) call := by
  intro w
  exact wp_leaves (wp_mono (sends w) (fun _ _ sent => .inr sent) fun _ _ => id)

namespace Transaction

theorem work_commit_once : Keeps (AtMostOnce .commit) (workCommit env i) := by
  have up := (@hushed_bookkeeping env).ledger.toUpkeep
  apply once_kept_handled (once_kept_sending fun w => direct_sending rfl)
  intro e
  apply keeps_get
  intro w
  apply keeps_ite
  · apply keeps_bind hushed_framing (process_notice_keeps up _)
    intro _
    exact keeps_bind hushed_framing (process_notice_keeps up _) fun _ => keeps_throw hushed_framing _
  · exact keeps_throw hushed_framing _

theorem sub_commit_hushed (parent : Nat) : Keeps Hushed (subCommit env i parent) := by
  apply keeps_get
  intro w
  apply keeps_bind hushed_framing (turn_hushed _)
  intro _
  apply keeps_bind hushed_framing (own_direct_keeps (@hushed_bookkeeping env).ledger.chores i _ (by trivial) 0)
  intro _
  exact turn_hushed _

theorem check_record_hushed : Keeps Hushed (checkTransactionRecord env i) := by
  have chores := (@hushed_bookkeeping env).ledger.chores
  have holds : Keeps Hushed (oldBackendHolds env i) := by
    apply keeps_get
    intro w
    apply keeps_ite
    · exact keeps_bind hushed_framing (direct_exec_keeps chores i (chores.manages _ (by trivial) 0)) fun _ => keeps_pure hushed_framing _
    · exact keeps_bind hushed_framing (direct_exec_keeps chores i (chores.manages _ (by trivial) 0)) fun _ => keeps_pure hushed_framing _
  have waits (turns : Nat) : Keeps Hushed (waitForOldBackend env i turns) := by
    induction turns with
    | zero => exact keeps_pure hushed_framing _
    | succ turns ih => exact keeps_bind hushed_framing holds fun hold => keeps_ite _ ih (keeps_pure hushed_framing _)
  apply keeps_bind hushed_framing (waits 20)
  intro hold
  apply keeps_ite
  · exact keeps_throw hushed_framing _
  · apply keeps_get
    intro w
    apply keeps_bind hushed_framing (Connection.username_keeps chores)
    intro user
    exact keeps_bind hushed_framing (direct_exec_keeps chores i (chores.manages _ (by trivial) 20)) fun _ => keeps_pure hushed_framing _

theorem robust_in_doubt_hushed {α : Type} (what : String) : Keeps Hushed (robustInDoubt i what : Client α) := by
  have notices := (@hushed_bookkeeping Outside.calm).ledger.chores.notices
  apply keeps_get
  intro w
  apply keeps_bind hushed_framing (notices _)
  intro _
  apply keeps_bind hushed_framing (notices _)
  intro _
  exact keeps_bind hushed_framing (notices _) fun _ => keeps_throw hushed_framing _

-- COMMIT is not repeated even where the robusttransaction finds out later that it was lost.
theorem robust_commit_once : Keeps (AtMostOnce .commit) (robustCommit env i) := by
  have chores := (@hushed_bookkeeping env).ledger.chores
  have aborts (e : Exn) : Keeps Hushed (do doAbort env i; throw e : Client Unit) :=
    keeps_bind hushed_framing (do_abort_keeps chores i) fun _ => keeps_throw hushed_framing _
  have sends : Keeps (AtMostOnce .commit) (sendCommit env i) := by
    apply once_kept_handled
    · apply once_kept_before (once_kept_sending fun w => direct_sending rfl)
      intro _
      exact keeps_bind hushed_framing (turn_hushed _) fun _ => keeps_pure hushed_framing _
    · intro e
      apply keeps_ite
      · exact keeps_pure hushed_framing _
      · apply keeps_get
        intro w
        apply keeps_ite
        · exact keeps_bind hushed_framing (do_abort_keeps chores i) fun _ => keeps_throw hushed_framing _
        · exact keeps_pure hushed_framing _
  have concludes (through : Bool) : Keeps Hushed (if through then pure () else do
      let exists_ ← tryCatch (checkTransactionRecord env i) fun f => robustInDoubt i f.what
      if exists_ then do
        doAbort env i
        fault .brokenConnection "Connection lost while committing."
      else pure () : Client Unit) := by
    apply keeps_ite
    · exact keeps_pure hushed_framing _
    · apply keeps_bind hushed_framing (keeps_try_catch hushed_framing check_record_hushed fun f => robust_in_doubt_hushed _)
      intro exists_
      apply keeps_ite
      · exact keeps_bind hushed_framing (do_abort_keeps chores i) fun _ => keeps_throw hushed_framing _
      · exact keeps_pure hushed_framing _
  apply keeps_get
  intro w
  apply keeps_ite
  · exact once_kept_hushed (keeps_throw hushed_framing _)
  · apply once_kept_after (keeps_try_catch hushed_framing (own_direct_keeps chores i _ (by trivial) 0) aborts)
    intro _
    exact once_kept_before sends concludes

theorem commit_once : Keeps (AtMostOnce .commit) (commit env i) := by
  have ledger := (@hushed_bookkeeping env).ledger
  have does : Keeps (AtMostOnce .commit) (doCommit env i) := by
    apply keeps_get
    intro w
    cases (w.trans i).kind with
    | work => exact work_commit_once
    | subtransaction parent => exact once_kept_hushed (sub_commit_hushed parent)
    | robust => exact robust_commit_once
  have commits : Keeps (AtMostOnce .commit) (commitActive env i) := by
    apply once_kept_before
    · apply once_kept_handled (once_kept_before does fun _ => turn_hushed _)
      intro e
      exact keeps_bind hushed_framing (turn_hushed _) fun _ => keeps_throw hushed_framing e
    · intro _
      apply keeps_get
      intro w
      exact keeps_bind hushed_framing (members_hushed _) fun _ => end_hushed
  apply once_kept_after (check_pending_error_keeps ledger.chores i)
  intro _
  apply keeps_get
  intro w
  cases (w.trans i).status with
  | nascent => exact once_kept_hushed (keeps_pure hushed_framing _)
  | aborted => exact once_kept_hushed (keeps_throw hushed_framing _)
  | committed => exact once_kept_hushed (process_notice_keeps ledger.toUpkeep _)
  | inDoubt => exact once_kept_hushed (keeps_throw hushed_framing _)
  | active =>
      cases (w.trans i).focus with
      | some f => exact once_kept_hushed (keeps_throw hushed_framing _)
      | none => exact keeps_ite _ (once_kept_hushed (keeps_throw hushed_framing _)) commits

end Transaction

namespace TableStream

theorem writer_close_hushed : Keeps Hushed (writerClose env i) := by
  apply keeps_get
  intro w
  apply keeps_ite
  · exact keeps_bind hushed_framing (turn_hushed _) fun _ => Connection.end_copy_write_keeps (@hushed_bookkeeping env).ledger
  · exact keeps_pure hushed_framing _

theorem reader_close_hushed : Keeps Hushed (readerClose env i) := by
  have reads := Connection.read_copy_line_keeps (@hushed_bookkeeping env).ledger
  have skips (lines : Nat) : Keeps Hushed (skipLines env lines) := by
    induction lines with
    | zero => exact keeps_pure hushed_framing _
    | succ lines ih => exact keeps_bind hushed_framing reads fun line => keeps_ite _ (keeps_pure hushed_framing _) ih
  apply keeps_get
  intro w
  cases (w.trans i).focus with
  | none => exact keeps_pure hushed_framing _
  | some f =>
      apply keeps_bind hushed_framing (turn_hushed _)
      intro _
      apply keeps_when hushed_framing
      apply keeps_try_catch hushed_framing (skips _)
      intro e
      exact keeps_ite _ (keeps_throw hushed_framing _) (Transaction.pending_error_hushed _)

theorem get_raw_line_hushed : Keeps Hushed (getRawLine env i) := by
  have done : Keeps Hushed (setDone i) := turn_hushed _
  apply keeps_get
  intro w
  apply keeps_ite
  · exact keeps_pure hushed_framing _
  · apply keeps_try_catch hushed_framing
    · apply keeps_bind hushed_framing (Connection.read_copy_line_keeps (@hushed_bookkeeping env).ledger)
      intro line
      exact keeps_bind hushed_framing (keeps_when hushed_framing _ done) fun _ => keeps_pure hushed_framing _
    · exact fun e => keeps_bind hushed_framing done fun _ => keeps_throw hushed_framing _

end TableStream

namespace Connection

theorem add_receiver_hushed (channel : String) (receiver : Nat) : Keeps Hushed (addReceiver env channel receiver) := by
  have ledger := (@hushed_bookkeeping env).ledger
  apply keeps_get
  intro w
  apply keeps_ite
  · exact members_hushed _
  · apply keeps_bind hushed_framing
    · apply keeps_when hushed_framing
      apply keeps_try_catch hushed_framing
      · apply keeps_bind hushed_framing (pq_exec_keeps ledger.toUpkeep (hushed_request rfl))
        intro r
        apply keeps_bind hushed_framing (make_result_keeps ledger.toUpkeep r)
        intro r
        exact keeps_bind hushed_framing (check_result_keeps ledger.toUpkeep r _) fun _ => keeps_pure hushed_framing _
      · exact fun e => keeps_ite _ (keeps_pure hushed_framing _) (keeps_throw hushed_framing _)
    · exact fun _ => members_hushed _

theorem remove_receiver_hushed (channel : String) (receiver : Nat) : Keeps Hushed (removeReceiver env channel receiver) := by
  have ledger := (@hushed_bookkeeping env).ledger
  apply keeps_try_catch hushed_framing
  · apply keeps_get
    intro w
    apply keeps_ite
    · apply keeps_bind hushed_framing (members_hushed _)
      intro _
      apply keeps_when hushed_framing
      exact keeps_bind hushed_framing (own_exec_keeps ledger _ (by trivial) 0) fun _ => keeps_pure hushed_framing _
    · exact process_notice_keeps ledger.toUpkeep _
  · exact fun e => process_notice_keeps ledger.toUpkeep _

theorem register_hushed : Keeps Hushed (registerTransaction i) := by
  apply keeps_get
  intro w
  cases w.conn.trans with
  | none => exact members_hushed _
  | some old => exact keeps_ite _ (keeps_throw hushed_framing _) (keeps_throw hushed_framing _)

end Connection

theorem open_work_hushed (kind : Kind) (classname name startArgs logTable : String) :
    Keeps Hushed (openWork env i kind classname name startArgs logTable) := by
  apply keeps_bind hushed_framing (turn_hushed _)
  intro _
  apply keeps_bind hushed_framing Connection.register_hushed
  intro _
  exact keeps_bind hushed_framing (turn_hushed _) fun _ => Transaction.begin_hushed

theorem open_subtransaction_hushed (parent : Nat) (name : String) : Keeps Hushed (openSubtransaction i parent name) := by
  apply keeps_bind hushed_framing
  · exact keeps_bind hushed_framing (members_hushed _) fun _ => keeps_get fun w => keeps_pure hushed_framing _
  · exact fun _ => turn_hushed _

-- What an operation has sent, if anything.
def WorkOp.asks (i : Nat) : WorkOp → List Sql
  | .exec query _ => [.statement i query []]
  | .preparedExec statement args => [.execute i statement args]
  | .parameterizedExec query args => [.statement i query args]
  | .commit => [.commit]
  | _ => []

theorem perform_hushed (op : WorkOp) (nothing : op.asks i = []) : Keeps Hushed (op.perform env i) := by
  have ledger := (@hushed_bookkeeping env).ledger
  have dropped {α : Type} {m : Client α} (keeps : Keeps Hushed m) : Keeps Hushed (m >>= fun _ => pure ()) :=
    keeps_bind hushed_framing keeps fun _ => keeps_pure hushed_framing _
  cases op with
  | exec query desc => cases nothing
  | preparedExec statement args => cases nothing
  | parameterizedExec query args => cases nothing
  | commit => cases nothing
  | prepared statement => exact Transaction.activate_for_hushed _
  | setVariable var value => exact Transaction.set_variable_hushed var value
  | getVariable var => exact dropped (Transaction.get_variable_hushed var)
  | fetch query => exact dropped (Connection.own_exec_keeps ledger _ (by trivial) 0)
  | openWriter table columns =>
      exact keeps_bind hushed_framing (Transaction.exec_sql_hushed (by trivial) "") fun _ => Transaction.register_focus_hushed _
  | writeLine => exact Connection.write_copy_line_keeps ledger
  | closeWriter => exact TableStream.writer_close_hushed
  | destroyWriter => exact keeps_try_catch hushed_framing TableStream.writer_close_hushed fun e => Transaction.pending_error_hushed _
  | openReader table columns =>
      exact keeps_bind hushed_framing (Transaction.exec_sql_hushed (by trivial) "") fun _ => Transaction.register_focus_hushed _
  | getLine => exact dropped TableStream.get_raw_line_hushed
  | closeReader => exact TableStream.reader_close_hushed
  | destroyReader => exact keeps_try_catch hushed_framing TableStream.reader_close_hushed fun e => Transaction.pending_error_hushed _
  | prepare name definition => exact Connection.prepare_keeps ledger name definition
  | unprepare name => exact Connection.unprepare_keeps ledger name
  | getNotifs => exact dropped (Connection.get_notifs_keeps ledger.toUpkeep)
  | disconnect => exact pq_finish_keeps ledger.toUpkeep
  | abort => exact Transaction.abort_hushed
  | end_ => exact Transaction.end_hushed

def ClientOp.asks : ClientOp → List Sql
  | .work i op => op.asks i
  | _ => []

-- The statement of a call that returned. commit() may return without a COMMIT.
def ClientOp.owes (op : ClientOp) : Except Exn Unit → List Sql
  | .error _ => []
  | .ok () =>
      match op with
      | .work _ .commit => []
      | op => op.asks

-- An operation has sent what it returned for, and no more than it was asked to.
structure Discharged (op : ClientOp) (w : World) (outcome : Except Exn Unit) (w' : World) (made : List Sql) : Prop where
  sent : w'.lasting = w.lasting ++ made
  owed : (op.owes outcome).Sublist made
  asked : made.Sublist op.asks

theorem owes_asks (op : ClientOp) (outcome : Except Exn Unit) : (op.owes outcome).Sublist op.asks := by
  unfold ClientOp.owes
  split
  · exact List.nil_sublist _
  · split
    · exact List.nil_sublist _
    · exact List.Sublist.refl _

theorem hushed_answers (op : ClientOp) (nothing : op.asks = []) (hushed : Keeps Hushed (op.perform env)) :
    ∃ made, Discharged op w (op.perform env w).1 (op.perform env w).2 made := by
  refine ⟨[], (hushed w).trans (List.append_nil _).symm, ?_, List.nil_sublist _⟩
  rw [← nothing]
  exact owes_asks op _

theorem once_answers (op : ClientOp) (asks : op.asks = [sql]) (nothing : ∀ outcome, op.owes outcome = [])
    (once : Keeps (AtMostOnce sql) (op.perform env)) : ∃ made, Discharged op w (op.perform env w).1 (op.perform env w).2 made := by
  cases once w with
  | inl hushed =>
      refine ⟨[], hushed.trans (List.append_nil _).symm, ?_, List.nil_sublist _⟩
      rw [nothing]
  | inr sent =>
      refine ⟨[sql], sent, ?_, ?_⟩
      · rw [nothing]
        exact List.nil_sublist _
      · rw [asks]

theorem sending_answers (op : ClientOp) (asks : op.asks = [sql]) (sends : Sending sql (op.perform env) w) :
    ∃ made, Discharged op w (op.perform env w).1 (op.perform env w).2 made := by
  have most := owes_asks op
  rw [asks] at most
  unfold Sending wp at sends
  generalize op.perform env w = ended at sends ⊢
  obtain ⟨outcome, t⟩ := ended
  cases outcome with
  | ok u =>
      refine ⟨[sql], sends, most _, ?_⟩
      rw [asks]
  | error e =>
      cases sends with
      | inl hushed => exact ⟨[], hushed.trans (List.append_nil _).symm, List.Sublist.refl _, List.nil_sublist _⟩
      | inr sent =>
          refine ⟨[sql], sent, most _, ?_⟩
          rw [asks]

theorem client_answers (op : ClientOp) (w : World) : ∃ made, Discharged op w (op.perform env w).1 (op.perform env w).2 made := by
  have ledger := (@hushed_bookkeeping env).ledger
  have returned {α : Type} {sql : Sql} {call : Client α} (sends : Sending sql call w) : Sending sql (do let _ ← call; pure ()) w :=
    sending_before sends fun _ => keeps_pure hushed_framing _
  cases op with
  | work i op =>
      cases asks : op.asks i with
      | nil => exact hushed_answers _ asks (perform_hushed op asks)
      | cons sql rest =>
          cases op with
          | exec query desc => exact sending_answers (.work i (.exec query desc)) rfl (returned (Transaction.exec_sends query desc))
          | preparedExec statement args =>
              exact sending_answers (.work i (.preparedExec statement args)) rfl (returned (Connection.prepared_exec_sends statement args))
          | parameterizedExec query args =>
              exact sending_answers (.work i (.parameterizedExec query args)) rfl (returned (Connection.parameterized_exec_sends query args))
          | commit => exact once_answers (.work i .commit) rfl (fun outcome => by cases outcome <;> rfl) Transaction.commit_once
          | _ => cases asks
  | openWork i kind classname name startArgs logTable => exact hushed_answers _ rfl (open_work_hushed kind classname name startArgs logTable)
  | openSubtransaction i parent name => exact hushed_answers _ rfl (open_subtransaction_hushed parent name)
  | setVariable var value =>
      apply hushed_answers _ rfl
      apply keeps_get
      intro v
      cases v.conn.trans with
      | some i => exact Transaction.set_variable_hushed var value
      | none =>
          apply keeps_bind hushed_framing
          · exact keeps_when hushed_framing _ (Connection.raw_set_var_keeps ledger var value)
          · exact fun _ => members_hushed _
  | getVariable var =>
      apply hushed_answers _ rfl
      apply keeps_bind hushed_framing
      · apply keeps_get
        intro v
        cases v.conn.trans with
        | some i => exact Transaction.get_variable_hushed var
        | none => exact Connection.raw_get_var_keeps ledger var
      · exact fun _ => keeps_pure hushed_framing _
  | addReceiver channel receiver => exact hushed_answers _ rfl (Connection.add_receiver_hushed channel receiver)
  | removeReceiver channel receiver => exact hushed_answers _ rfl (Connection.remove_receiver_hushed channel receiver)
  | activate => exact hushed_answers _ rfl (Connection.activate_keeps ledger.toUpkeep)
  | deactivate => exact hushed_answers _ rfl (deactivate_keeps ledger.toUpkeep)
  | reset => exact hushed_answers _ rfl (Connection.reset_keeps ledger.toUpkeep)
  | simulateFailure =>
      apply hushed_answers _ rfl
      apply keeps_get
      intro v
      exact keeps_when hushed_framing _ (keeps_bind hushed_framing (pq_finish_keeps ledger.toUpkeep) fun _ => members_hushed _)

-- An operation as a step that answers with the statement it returned for.
def owingStep (env : Outside) (w : World) (op : ClientOp) : List Sql × World := (op.owes (op.perform env w).1, clientStep env w op)

-- Over any run, whatever becomes of the connection in between: the statements of the client
-- and the COMMITs go out in the order they are asked for, none of them twice, and none is
-- missing whose call returned.
theorem statements_sent_once (env : Outside) (w : World) (ops : List ClientOp) :
    ∃ made, (run (clientStep env) w ops).lasting = w.lasting ++ made ∧
      (answers (owingStep env) w ops).flatten.Sublist made ∧ made.Sublist (ops.flatMap ClientOp.asks) := by
  induction ops generalizing w with
  | nil => exact ⟨[], (List.append_nil _).symm, List.Sublist.refl _, List.Sublist.refl _⟩
  | cons op ops ih =>
      obtain ⟨first, here⟩ := @client_answers env op w
      obtain ⟨later, sent, owed, asked⟩ := ih (clientStep env w op)
      refine ⟨first ++ later, ?_, ?_, ?_⟩
      · rw [run_cons, sent, clientStep, here.sent, List.append_assoc]
      · exact here.owed.append owed
      · rw [List.flatMap_cons]
        exact here.asked.append asked

end

end Pqxx
