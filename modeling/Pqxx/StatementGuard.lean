import Pqxx.CommitVerdict

set_option autoImplicit false

namespace Pqxx

open Lib Prog

-- While the transactions keep their status and their focus: what is sent is for i or for
-- no transaction, and on record with the word on that.
structure Watches (i : Nat) (w w' : World) : Prop where
  status : ∀ j, (w'.trans j).status = (w.trans j).status
  focus : ∀ j, (w'.trans j).focus = (w.trans j).focus
  sent : ∃ new, w'.sent = w.sent ++ new ∧ ∀ s ∈ new, (s.sql.trans = none ∨ s.sql.trans = some i) ∧ s.guarded = w.guarded s.sql

-- Nothing is sent for a transaction that is not active, or has a focus.
def Unslipped (w w' : World) : Prop := ∃ new, w'.sent = w.sent ++ new ∧ ∀ s ∈ new, s.guarded = true

section

variable {env : Outside} {i : Nat} {w w' : World}

theorem guarded_same (status : ∀ j, (w'.trans j).status = (w.trans j).status) (focus : ∀ j, (w'.trans j).focus = (w.trans j).focus)
    (sql : Sql) : w'.guarded sql = w.guarded sql := by
  rw [World.guarded, World.guarded]
  congr 1
  funext j
  rw [Transaction.free, Transaction.free, status, focus]

theorem guarded_none {sql : Sql} (none_ : sql.trans = none) : w.guarded sql = true := by
  rw [World.guarded, none_]
  rfl

theorem guarded_some {sql : Sql} (some_ : sql.trans = some i) : w.guarded sql = (w.trans i).free := by
  rw [World.guarded, some_]
  rfl

theorem restoring_trans {sql : Sql} (restoring : sql.restoring) : sql.trans = none := by
  cases sql with
  | statement => exact restoring.elim
  | execute => exact restoring.elim
  | _ => rfl

theorem watches_still (trans : w'.trans = w.trans) (sent : w'.sent = w.sent) : Watches i w w' where
  status j := by rw [trans]
  focus j := by rw [trans]
  sent := ⟨[], by rw [sent, List.append_nil], nofun⟩

theorem watches_asked {batch : List Sql} (trans : w'.trans = w.trans)
    (sent : w'.sent = w.sent ++ batch.map fun sql => { sql, guarded := w.guarded sql })
    (whose : ∀ sql ∈ batch, sql.trans = none ∨ sql.trans = some i) : Watches i w w' where
  status j := by rw [trans]
  focus j := by rw [trans]
  sent := by
    refine ⟨_, sent, fun s there => ?_⟩
    obtain ⟨sql, inside, rfl⟩ := List.mem_map.mp there
    exact ⟨whose sql inside, rfl⟩

theorem watches_framing : Framing (Watches i) where
  same _ := watches_still rfl rfl
  onward _ _ _ one two := by
    obtain ⟨left, sent, first⟩ := one.sent
    obtain ⟨right, sent', second⟩ := two.sent
    refine ⟨fun j => (two.status j).trans (one.status j), fun j => (two.focus j).trans (one.focus j),
      left ++ right, by rw [sent', sent, List.append_assoc], fun s there => ?_⟩
    obtain there | there := List.mem_append.mp there
    · exact first s there
    · obtain ⟨whose, guarded⟩ := second s there
      exact ⟨whose, guarded.trans (guarded_same one.status one.focus s.sql)⟩

theorem watches_request (sql : Sql) (whose : sql.trans = none ∨ sql.trans = some i) : Request env (Watches i) sql where
  asks _ := watches_asked rfl rfl (fun other there => by rw [List.mem_singleton.mp there]; exact whose)
  served _ := watches_asked rfl rfl (fun other there => by rw [List.mem_singleton.mp there]; exact whose)

theorem watches_bookkeeping : Bookkeeping env (Watches i) where
  toFraming := watches_framing
  link _ _ trans _ sent _ := watches_still trans sent
  ends _ _ trans _ sent _ := watches_still trans sent
  asks _ _ restoring := watches_asked rfl rfl fun sql there => .inl (restoring_trans (restoring sql there))
  restores _ _ restoring := watches_asked rfl rfl fun sql there => .inl (restoring_trans (restoring sql there))
  notes _ _ _ same := by
    refine ⟨fun k => ?_, fun k => ?_, [], (List.append_nil _).symm, nofun⟩
    · simp only [World.note]
      split
      · exact bare_same Transaction.status (fun _ => rfl) (same _)
      · rfl
    · simp only [World.note]
      split
      · exact bare_same Transaction.focus (fun _ => rfl) (same _)
      · rfl
  own sql own := watches_request sql (.inl (own_trans own))
  copies _ _ _ := watches_still rfl rfl

theorem unslipped_same (sent : w'.sent = w.sent) : Unslipped w w' := ⟨[], by rw [sent, List.append_nil], nofun⟩

theorem unslipped_framing : Framing Unslipped where
  same _ := unslipped_same rfl
  onward _ _ _ one two := by
    obtain ⟨left, sent, first⟩ := one
    obtain ⟨right, sent', second⟩ := two
    refine ⟨left ++ right, by rw [sent', sent, List.append_assoc], fun s there => ?_⟩
    obtain there | there := List.mem_append.mp there
    · exact first s there
    · exact second s there

theorem watches_unslipped (free : (w.trans i).free = true) (watches : Watches i w w') : Unslipped w w' := by
  obtain ⟨new, sent, each⟩ := watches.sent
  refine ⟨new, sent, fun s there => ?_⟩
  obtain ⟨none_ | some_, guarded⟩ := each s there
  · rw [guarded, guarded_none none_]
  · rw [guarded, guarded_some some_, free]

theorem unslipped_asked {batch : List Sql} (sent : w'.sent = w.sent ++ batch.map fun sql => { sql, guarded := w.guarded sql })
    (whose : ∀ sql ∈ batch, sql.trans = none) : Unslipped w w' := by
  refine ⟨_, sent, fun s there => ?_⟩
  obtain ⟨sql, inside, rfl⟩ := List.mem_map.mp there
  exact guarded_none (whose sql inside)

theorem unslipped_request (sql : Sql) (whose : sql.trans = none) : Request env Unslipped sql where
  asks _ := unslipped_asked rfl (fun other there => by rw [List.mem_singleton.mp there]; exact whose)
  served _ := unslipped_asked rfl (fun other there => by rw [List.mem_singleton.mp there]; exact whose)

theorem unslipped_bookkeeping : Bookkeeping env Unslipped where
  toFraming := unslipped_framing
  link _ _ _ _ sent _ := unslipped_same sent
  ends _ _ _ _ sent _ := unslipped_same sent
  asks _ _ restoring := unslipped_asked rfl fun sql there => restoring_trans (restoring sql there)
  restores _ _ restoring := unslipped_asked rfl fun sql there => restoring_trans (restoring sql there)
  notes _ _ _ _ := unslipped_same rfl
  own sql own := unslipped_request sql (own_trans own)
  copies _ _ _ := unslipped_same rfl

theorem turn_unslipped (f : Transaction → Transaction) : Keeps Unslipped (modifyTrans i f) := fun _ => unslipped_same rfl

theorem abort_unslipped : Keeps Unslipped (Transaction.abort env i) := by
  have ledger := (@unslipped_bookkeeping env).ledger
  have closes : Keeps Unslipped (do Transaction.setStatus i .aborted; Transaction.endClosed i : Client Unit) :=
    keeps_bind unslipped_framing (turn_unslipped _) fun _ => Transaction.end_closed_keeps ledger.chores i
  refine keeps_get fun w => ?_
  cases (w.trans i).status with
  | nascent => exact closes
  | active =>
      exact keeps_bind unslipped_framing (Transaction.swallow_keeps ledger.chores (Transaction.do_abort_keeps ledger.chores i)) fun _ => closes
  | aborted => exact keeps_pure unslipped_framing _
  | committed => exact keeps_throw unslipped_framing _
  | inDoubt => exact process_notice_keeps ledger.toUpkeep _

theorem end_unslipped : Keeps Unslipped (Transaction.end_ env i) := by
  have ledger := (@unslipped_bookkeeping env).ledger
  refine Transaction.noticing_keeps ledger.chores (keeps_bind unslipped_framing (Transaction.end_closed_keeps ledger.chores i) fun _ =>
    keeps_get fun w => keeps_ite _ ?_ (keeps_pure unslipped_framing _))
  refine keeps_bind unslipped_framing (Transaction.note_focus_keeps ledger.chores _) fun _ => ?_
  refine keeps_bind unslipped_framing (Transaction.noticing_keeps ledger.chores abort_unslipped) fun _ => keeps_get fun v => ?_
  exact keeps_bind unslipped_framing (fun _ => unslipped_same rfl) fun _ => turn_unslipped _

-- And the statement itself is sent.
def Carried (sql : Sql) (w w' : World) : Prop :=
  ∃ new, w'.sent = w.sent ++ new ∧ (∀ s ∈ new, s.guarded = true) ∧ ∃ s ∈ new, s.sql = sql

-- A call that runs a statement has it sent while its transaction is active and has no
-- focus, or throws and has nothing sent past it.
def NothingSlips (sql : Sql) (call : Client (List (List String))) (w : World) : Prop :=
  wp call (fun _ u => Carried sql w u) (fun _ u => Unslipped w u) w

theorem carried_after {sql : Sql} {v u : World} (before : Unslipped w v) (carried : Carried sql v u) : Carried sql w u := by
  obtain ⟨left, sent, first⟩ := before
  obtain ⟨right, sent', second, s, there, same⟩ := carried
  refine ⟨left ++ right, by rw [sent', sent, List.append_assoc], fun s there => ?_, s, List.mem_append_right left there, same⟩
  obtain there | there := List.mem_append.mp there
  · exact first s there
  · exact second s there

theorem carried_before {sql : Sql} {v u : World} (carried : Carried sql w v) (after : Unslipped v u) : Carried sql w u := by
  obtain ⟨left, sent, first, s, there, same⟩ := carried
  obtain ⟨right, sent', second⟩ := after
  refine ⟨left ++ right, by rw [sent', sent, List.append_assoc], fun s there => ?_, s, List.mem_append_left right there, same⟩
  obtain there | there := List.mem_append.mp there
  · exact first s there
  · exact second s there

theorem watches_free (watches : Watches i w w') : (w'.trans i).free = (w.trans i).free := by
  rw [Transaction.free, Transaction.free, watches.status, watches.focus]

theorem carried_answered {sql : Sql} (whose : sql.trans = some i) (free : (w.trans i).free = true) : Carried sql w (w.answered env sql) := by
  refine ⟨[{ sql, guarded := w.guarded sql }], rfl, fun s there => ?_, _, List.mem_singleton_self _, rfl⟩
  rw [List.mem_singleton.mp there]
  exact (guarded_some whose).trans free

-- What comes after the request, in a call that makes one.
def Connection.wrapUp (env : Outside) (text : String) (r : Option Answer) : Client (List (List String)) := do
  let r ← makeResult env r
  let rows ← checkResult env r text
  let _ ← getNotifs env
  pure rows

theorem wrap_up_watches (text : String) (r : Option Answer) : Keeps (Watches i) (Connection.wrapUp env text r) := by
  have up := (@watches_bookkeeping env i).ledger.toUpkeep
  refine keeps_bind watches_framing (Connection.make_result_keeps up r) fun r => ?_
  refine keeps_bind watches_framing (Connection.check_result_keeps up r _) fun rows => ?_
  exact keeps_bind watches_framing (Connection.get_notifs_keeps up) fun _ => keeps_pure watches_framing _

theorem wrap_up_nothing (text : String) : wp (Connection.wrapUp env text none) (fun _ _ => False) (fun _ _ => True) w := by
  have made : wp (Connection.makeResult env none) (fun r _ => r = none) (fun _ _ => True) w := by
    simp only [Connection.makeResult, wp_bind, wp_pure]
    exact wp_mono (wp_ends _ _) (fun _ _ _ => trivial) (fun _ _ => id)
  rw [Connection.wrapUp, wp_bind]
  refine wp_mono made (fun r u none_ => ?_) (fun _ _ => id)
  subst none_
  rw [wp_bind]
  cases isOpen : u.conn.isOpen with
  | false => exact wp_error (Connection.check_result_closed isOpen none text) trivial
  | true => exact wp_error (Connection.check_result_open isOpen none text) trivial

-- The request and what comes after it, made for a transaction that may.
theorem request_guarded {sql : Sql} (whose : sql.trans = some i) (free : (w.trans i).free = true) (text : String) :
    NothingSlips sql (do
      let r ← pqExec env sql
      Connection.wrapUp env text r) w := by
  have up := (@watches_bookkeeping env i).ledger.toUpkeep
  have request := @watches_request env i sql (.inr whose)
  rw [NothingSlips, wp_bind]
  refine wp_mono (wp_and (@Connection.pq_exec_heard env w sql) (wp_keeps (pq_exec_keeps up request))) ?_ (fun _ _ both => both.1.elim)
  intro r u ⟨heard, watches⟩
  have carries : wp (Connection.wrapUp env text r) (fun _ _ => Carried sql w u) (fun _ _ => True) u := by
    obtain rfl | ⟨_, -, rfl⟩ := heard
    · exact wp_mono (wrap_up_nothing text) (fun _ _ => False.elim) (fun _ _ => id)
    · exact wp_mono (wp_ends _ _) (fun _ _ _ => carried_answered whose free) (fun _ _ => id)
  refine wp_mono (wp_and (wp_keeps (@wrap_up_watches env i text r)) carries) ?_ ?_
  · intro _ v ⟨more, carried⟩
    exact carried_before carried (watches_unslipped ((watches_free watches).trans free) more)
  · intro _ v ⟨more, _⟩
    exact watches_unslipped free (watches_framing.onward _ _ _ watches more)

-- Made for one that may not, on a connection that takes it.
theorem request_slips {sql : Sql} (whose : sql.trans = some i) (taken : (w.trans i).free = false)
    (alive : w.conn.handle.any (fun h => h.status = .ok) = true) (text : String) :
    ¬ NothingSlips sql (do
      let r ← pqExec env sql
      Connection.wrapUp env text r) w := by
  obtain ⟨h, handle, status⟩ := (Option.any_eq_true _ _).mp alive
  have applied := @pq_exec_apply env w sql h handle (of_decide_eq_true status)
  have sent : (pqExec env sql w).2.sent = w.sent ++ [{ sql, guarded := false }] := by
    have guarded : w.guarded sql = false := (guarded_some whose).trans taken
    rw [applied, ← guarded]
    cases env.fate w.clock <;> rfl
  obtain ⟨r, u, result⟩ : ∃ r u, pqExec env sql w = (.ok r, u) := by
    rw [applied]
    cases env.fate w.clock <;> exact ⟨_, _, rfl⟩
  rw [result] at sent
  have caught : ∀ v : World, Watches i u v → ¬ Unslipped w v := by
    intro v watches slipped
    obtain ⟨more, onward, -⟩ := watches.sent
    obtain ⟨new, all, each⟩ := slipped
    rw [onward, sent, List.append_assoc] at all
    have same := List.append_cancel_left all
    have := each { sql, guarded := false } (by rw [← same]; exact List.mem_cons_self)
    nomatch this
  intro slips
  have kept := @wrap_up_watches env i text r u
  rw [NothingSlips, wp_bind] at slips
  unfold wp at slips
  rw [result] at slips
  cases outcome : Connection.wrapUp env text r u with
  | mk rows v =>
      rw [outcome] at kept
      simp only [outcome] at slips
      cases rows with
      | ok rows => exact caught v kept (by obtain ⟨new, all, each, -⟩ := slips; exact ⟨new, all, each⟩)
      | error e => exact caught v kept slips

theorem parameterized_guarded (query : String) (args : List (Option String)) (free : (w.trans i).free = true) :
    NothingSlips (.statement i query args) (Connection.parameterizedExec env i query args) w :=
  request_guarded rfl free query

-- Whatever a prepared statement takes before its EXECUTE, the transaction stays as it is.
theorem prepared_guarded (statement : String) (args : List (Option String)) (free : (w.trans i).free = true) :
    NothingSlips (.execute i statement args) (Connection.preparedExec env i statement args) w := by
  have ledger := (@watches_bookkeeping env i).ledger
  have raised : ∀ (e : Exn) u, Watches i w u → Unslipped w u := fun _ _ => watches_unslipped free
  rw [NothingSlips, Connection.preparedExec, wp_bind]
  refine wp_mono (wp_keeps (Connection.register_prepared_keeps ledger statement)) (fun _ u one => ?_) raised
  rw [wp_bind]
  refine wp_mono (wp_keeps (Connection.activate_keeps ledger.toUpkeep)) (fun _ v two => ?_)
    fun _ v two => watches_unslipped free (watches_framing.onward _ _ _ one two)
  have kept := watches_framing.onward _ _ _ one two
  have before := watches_unslipped free kept
  refine wp_mono (@request_guarded env i _ (.execute i statement args) rfl ((watches_free kept).trans free) statement) ?_ ?_
  · exact fun _ _ carried => carried_after before carried
  · exact fun _ _ slipped => unslipped_framing.onward _ _ _ before slipped

theorem direct_guarded {sql : Sql} (whose : sql.trans = some i) (free : (w.trans i).free = true) :
    NothingSlips sql (Transaction.directExec env i sql 0) w := by
  have ledger := (@watches_bookkeeping env i).ledger
  have up := ledger.toUpkeep
  have request := @watches_request env i sql (.inr whose)
  rw [NothingSlips, Transaction.directExec, wp_bind]
  refine wp_mono (wp_keeps (Transaction.check_pending_error_keeps ledger.chores i)) (fun _ u one => ?_) fun _ _ => watches_unslipped free
  have before := watches_unslipped free one
  have still := (watches_free one).trans free
  refine wp_mono (wp_and (Connection.exec_heard up request 0) (wp_keeps (Connection.exec_keeps up request 0))) ?_ ?_
  · rintro _ v ⟨⟨t, two, _, _, _, quiet⟩, _⟩
    refine carried_after before (carried_after (watches_unslipped still two) ?_)
    exact carried_before (carried_answered whose ((watches_free two).trans still)) (unslipped_same quiet.sent)
  · rintro _ v ⟨_, two⟩
    exact unslipped_framing.onward _ _ _ before (watches_unslipped still two)

-- begin() leaves the transaction active, with the focus it had.
theorem begin_guarded (plain : (w.trans i).focus = none) :
    wp (Transaction.begin env i) (fun _ u => Unslipped w u ∧ (u.trans i).free = true) (fun _ u => Unslipped w u) w := by
  have books := @watches_bookkeeping env i
  have ledger := books.ledger
  have slips := (@unslipped_bookkeeping env).ledger
  have fails : ∀ (e : Exn) u, Unslipped w u → wp (do
      Transaction.end_ env i
      throw e : Client Unit) (fun _ v => Unslipped w v ∧ (v.trans i).free = true) (fun _ v => Unslipped w v) u := by
    intro e u one
    rw [wp_bind]
    exact wp_mono (wp_keeps end_unslipped) (fun _ _ two => unslipped_framing.onward _ _ _ one two)
      fun _ _ two => unslipped_framing.onward _ _ _ one two
  rw [Transaction.begin, wp_bind, wp_get]
  refine wp_ite _ _ _ _ _ _ (fun _ => unslipped_same rfl) fun _ => ?_
  rw [wp_try_catch, wp_bind]
  refine wp_mono (wp_and (wp_keeps (Connection.get_notifs_keeps ledger.toUpkeep)) (wp_keeps (Connection.get_notifs_keeps slips.toUpkeep)))
    (fun _ u one => ?_) fun e u one => fails e u one.2
  rw [wp_bind]
  refine wp_mono (wp_and (wp_keeps (Transaction.do_begin_keeps ledger.chores i)) (wp_keeps (Transaction.do_begin_keeps slips.chores i)))
    (fun _ v two => ?_) fun e v two => fails e v (unslipped_framing.onward _ _ _ one.2 two.2)
  have focus : (v.trans i).focus = none := (two.1.focus i).trans ((one.1.focus i).trans plain)
  refine ⟨unslipped_framing.onward _ _ _ one.2 (unslipped_framing.onward _ _ _ two.2 (unslipped_same rfl)), ?_⟩
  simp only [Transaction.free, if_pos, focus]
  rfl

theorem activate_guarded (plain : (w.trans i).focus = none) (purpose : String) :
    wp (Transaction.activateFor env i purpose) (fun _ u => Unslipped w u ∧ (u.trans i).free = true) (fun _ u => Unslipped w u) w := by
  have activates : wp (Transaction.activate env i) (fun _ u => Unslipped w u ∧ (u.trans i).free = true) (fun _ u => Unslipped w u) w := by
    rw [Transaction.activate, wp_bind, wp_get]
    cases status : (w.trans i).status with
    | nascent => exact begin_guarded plain
    | active =>
        refine ⟨unslipped_same rfl, ?_⟩
        rw [Transaction.free, status, plain]
        rfl
    | committed => exact unslipped_same rfl
    | aborted => exact unslipped_same rfl
    | inDoubt => exact unslipped_same rfl
  rw [Transaction.activateFor, wp_try_catch]
  refine wp_mono activates (fun _ _ => id) fun e u slipped => ?_
  exact wp_ite _ _ _ _ _ _ (fun _ => slipped) fun _ => slipped

-- exec() checks everything itself.
theorem exec_guarded (query desc : String) : NothingSlips (.statement i query []) (Transaction.exec env i query desc) w := by
  have slips := (@unslipped_bookkeeping env).ledger
  have books := (@watches_bookkeeping env i).ledger
  rw [NothingSlips, Transaction.exec, Transaction.execSql, wp_bind]
  refine wp_mono (wp_keeps (Transaction.check_pending_error_keeps slips.chores i)) (fun _ u one => ?_) fun _ _ => id
  rw [wp_bind, wp_get]
  cases focus : (u.trans i).focus with
  | some f => exact one
  | none =>
      simp only
      rw [wp_bind]
      refine wp_mono (activate_guarded focus _) (fun _ v two => ?_) fun _ v two => unslipped_framing.onward _ _ _ one two
      have before := unslipped_framing.onward _ _ _ one two.1
      rw [Transaction.doExec, wp_try_catch]
      refine wp_mono (direct_guarded rfl two.2) (fun _ _ carried => carried_after before carried) fun e t three => ?_
      have reached := unslipped_framing.onward _ _ _ before three
      rw [wp_bind]
      exact wp_mono (wp_keeps (Transaction.swallow_keeps slips.chores abort_unslipped))
        (fun _ _ four => unslipped_framing.onward _ _ _ reached four) fun _ _ four => unslipped_framing.onward _ _ _ reached four

end

section

variable (env : Outside)

-- Any transaction on the connection may be the next to do something.
def anyStep (w : World) (op : Nat × WorkOp) : World := workStep env op.1 w op.2

-- The three ways to run a statement. The invocation of a prepared or a parameterized
-- statement may be older than the state in which it is executed.
def StatementsGuarded (w : World) : Nat × WorkOp → Prop
  | (i, .exec query desc) => NothingSlips (.statement i query []) (Transaction.exec env i query desc) w
  | (i, .preparedExec statement args) => NothingSlips (.execute i statement args) (Connection.preparedExec env i statement args) w
  | (i, .parameterizedExec query args) => NothingSlips (.statement i query args) (Connection.parameterizedExec env i query args) w
  | _ => True

end

def InvokedFree (w : World) : Nat × WorkOp → Prop
  | (i, .preparedExec _ _) => (w.trans i).free = true
  | (i, .parameterizedExec _ _) => (w.trans i).free = true
  | _ => True

-- Nothing slips past a transaction if invocations are only executed while it is active and
-- has no focus. At any other time a parameterized statement goes through to a connection
-- that is alive, and so does a prepared one that the backend already knows.
theorem statements_guarded (env : Outside) (w : World) (ops : List (Nat × WorkOp)) :
    (Along InvokedFree (anyStep env) w ops → Along (StatementsGuarded env) (anyStep env) w ops) ∧
      ∀ i args, (w.trans i).free = false →
        (∀ query, w.conn.handle.any (fun h => h.status = .ok) = true →
          ¬ StatementsGuarded env w (i, .parameterizedExec query args)) ∧
        ∀ statement s, w.conn.isOpen = true → w.conn.prepared.find statement = some s → s.registered = true →
          3 ≤ Connection.protocolVersion w.conn → ¬ StatementsGuarded env w (i, .preparedExec statement args) := by
  constructor
  · intro invoked
    refine along_invariant InvokedFree (StatementsGuarded env) (anyStep env) (fun _ => True) ?_ w ops invoked trivial
    intro v ⟨i, op⟩ free _
    refine ⟨trivial, ?_⟩
    cases op with
    | exec query desc => exact exec_guarded query desc
    | preparedExec statement args => exact prepared_guarded statement args free
    | parameterizedExec query args => exact parameterized_guarded query args free
    | _ => trivial
  · intro i args taken
    refine ⟨fun query alive => request_slips rfl taken alive query, fun statement s isOpen known registered version slips => ?_⟩
    have before : Connection.registerPrepared env statement w = (.ok (), w) := by
      simp only [Connection.registerPrepared, bind_apply, Connection.activate_open isOpen, get_apply, Connection.findPrepared]
      rw [if_neg (by omega)]
      simp only [bind_apply, get_apply, known, pure_apply, registered, if_true]
    have alive : w.conn.handle.any (fun h => h.status = .ok) = true := by
      obtain ⟨h, handle, status, -⟩ := open_handle isOpen
      rw [handle]
      exact decide_eq_true status
    refine @request_slips env i _ (.execute i statement args) rfl taken alive statement ?_
    unfold StatementsGuarded NothingSlips wp at slips
    simp only [Connection.preparedExec, bind_apply, before, Connection.activate_open isOpen] at slips
    exact slips

-- A parameterized statement while a tablewriter is open on its transaction.
theorem statements_guarded_under_focus :
    let opened := openWork Outside.calm 0 .work "transaction<READ COMMITTED>" "" "" "" (World.initial .direct)
    ¬ Along (StatementsGuarded Outside.calm) (anyStep Outside.calm) opened.2 [(0, .openWriter "t" ""), (0, .parameterizedExec "SELECT 1" [])] := by
  intro opened guarded
  exact request_slips rfl (by decide +kernel) (by decide +kernel) "SELECT 1" guarded.2.1

end Pqxx
