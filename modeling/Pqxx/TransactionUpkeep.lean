import Pqxx.CommitVerdict
import Pqxx.TransactionDuties

set_option autoImplicit false

namespace Pqxx

open Lib Prog

-- The connection's count of what cannot be recovered stays as it is, for as long as the
-- transactions have no counts of their own to hand on.
def Stable (w w' : World) : Prop :=
  (∀ i, (w.trans i).reactivationAvoidance = 0) →
    w'.conn.reactivationAvoidance = w.conn.reactivationAvoidance ∧ ∀ i, (w'.trans i).reactivationAvoidance = 0

theorem stable_framing : Framing Stable where
  same _ zero := ⟨rfl, zero⟩
  onward _ _ _ one two zero := by
    obtain ⟨left, zero⟩ := one zero
    obtain ⟨right, zero⟩ := two zero
    exact ⟨right.trans left, zero⟩

theorem stable_same {w w' : World} (count : w'.conn.reactivationAvoidance = w.conn.reactivationAvoidance) (trans : w'.trans = w.trans) :
    Stable w w' := fun zero => ⟨count, fun i => by rw [trans]; exact zero i⟩

theorem stable_turn (i : Nat) (f : Transaction → Transaction)
    (count : ∀ x : Transaction, x.reactivationAvoidance = 0 → (f x).reactivationAvoidance = 0) : Keeps Stable (modifyTrans i f) := by
  refine fun w zero => ⟨rfl, fun j => ?_⟩
  show (if j = i then f (w.trans j) else w.trans j).reactivationAvoidance = 0
  split
  · exact count _ (zero j)
  · exact zero j

-- The transactions' counts may be taken to be nought in what follows.
theorem stable_get {α : Type} {f : World → Client α}
    (each : ∀ w, (∀ i, (w.trans i).reactivationAvoidance = 0) → Keeps Stable (f w)) : Keeps Stable (Prog.get >>= f) :=
  fun w zero => each w zero w zero

theorem stable_upkeep {env : Outside} : Upkeep env Stable where
  toFraming := stable_framing
  link _ _ tended trans _ _ _ := stable_same tended.reactivationAvoidance trans
  ends _ _ tended trans _ _ _ := stable_same tended.reactivationAvoidance trans
  asks _ _ _ := stable_same rfl rfl
  restores _ _ _ := stable_same rfl rfl

theorem stable_request {env : Outside} (sql : Sql) : Request env Stable sql := ⟨fun _ => stable_same rfl rfl, fun _ => stable_same rfl rfl⟩

theorem stable_exempt (work : Client Unit) (w : World) (works : Keeps Stable work) (isOpen : w.conn.isOpen = true) :
    Stable w (exempt work w).2 := by
  intro zero
  have cleared := works { w with conn := { w.conn with reactivationAvoidance := 0 } } zero
  have stays : ¬ (w.conn.reactivationAvoidance ≠ 0 ∧ w.conn.isOpen = false) := by simp [isOpen]
  simp only [exempt, modifyConn, Prog.bind_apply, Prog.get_apply, Prog.modify_apply, Prog.try_catch_apply, Prog.when_skip _ _ _ stays]
  split
  · rename_i outcome
    split at outcome
    · rename_i result
      obtain ⟨_, rfl⟩ := Prod.mk.inj outcome
      rw [result] at cleared
      exact ⟨by rw [cleared.1, Int.zero_add], cleared.2⟩
    · cases (Prod.mk.inj outcome).1
  · rename_i outcome
    split at outcome
    · cases (Prod.mk.inj outcome).1
    · rename_i result
      obtain ⟨_, rfl⟩ := Prod.mk.inj outcome
      rw [result] at cleared
      exact ⟨by rw [cleared.1, Int.zero_add], cleared.2⟩

theorem stable_ledger {env : Outside} : Ledger env Stable where
  toUpkeep := stable_upkeep
  members _ _ count := stable_same (count _) rfl
  notes w i f _ count := by
    refine stable_turn i f (fun x zero => ?_) w
    rcases count x with same | cleared
    · exact same.trans zero
    · exact cleared
  own sql _ := stable_request sql
  copies _ _ _ := stable_same rfl rfl
  exempts := stable_exempt

theorem stable_lifetime {env : Outside} : Lifetime env Stable where
  toChores := stable_ledger.chores
  notifs := Connection.get_notifs_keeps stable_upkeep
  sends sql _ := Connection.exec_keeps stable_upkeep (stable_request sql)
  turns i f count _ := stable_turn i f count
  begins i := by
    refine fun w zero => ⟨rfl, fun j => ?_⟩
    show (if j = i then _ else w.trans j : Transaction).reactivationAvoidance = 0
    split
    · exact zero j
    · exact zero j
  nought _ each := stable_get each
  opens i x zero := stable_turn i _ fun _ _ => zero
  merges vars := members_keep (@stable_ledger env) _ fun _ => rfl

theorem stable_duties {env : Outside} : Duties env Stable := stable_lifetime.toDuties

section

variable {env : Outside} {i : Nat}

theorem register_focus_stable (f : Focus) : Keeps Stable (Transaction.registerFocus i f) := by
  refine keeps_get fun w => ?_
  cases (w.trans i).focus with
  | none => exact stable_turn i _ fun _ => id
  | some old => exact keeps_throw stable_framing _

theorem pending_error_stable (err : String) : Keeps Stable (Transaction.registerPendingError i err) := by
  refine stable_turn i _ fun x zero => ?_
  split
  · exact zero
  · exact zero

theorem writer_close_stable : Keeps Stable (TableStream.writerClose env i) := by
  refine keeps_get fun w => keeps_ite _ ?_ (keeps_pure stable_framing _)
  exact keeps_bind stable_framing (stable_turn i _ fun _ => id) fun _ => Connection.end_copy_write_keeps stable_ledger

theorem reader_close_stable : Keeps Stable (TableStream.readerClose env i) := by
  have skips (lines : Nat) : Keeps Stable (TableStream.skipLines env lines) := by
    induction lines with
    | zero => exact keeps_pure stable_framing _
    | succ lines ih =>
        refine keeps_bind stable_framing (Connection.read_copy_line_keeps stable_ledger) fun line => ?_
        exact keeps_ite _ (keeps_pure stable_framing _) ih
  refine keeps_get fun w => ?_
  cases (w.trans i).focus with
  | none => exact keeps_pure stable_framing _
  | some f =>
      refine keeps_bind stable_framing (stable_turn i _ fun _ => id) fun _ => keeps_when stable_framing _ ?_
      exact keeps_try_catch stable_framing (skips _) fun e => keeps_ite _ (keeps_throw stable_framing _) (pending_error_stable _)

theorem get_raw_line_stable : Keeps Stable (TableStream.getRawLine env i) := by
  have done : Keeps Stable (TableStream.setDone i) := stable_turn i _ fun _ => id
  refine keeps_get fun w => keeps_ite _ (keeps_pure stable_framing _) (keeps_try_catch stable_framing ?_ fun e => ?_)
  · refine keeps_bind stable_framing (Connection.read_copy_line_keeps stable_ledger) fun line => ?_
    exact keeps_bind stable_framing (keeps_when stable_framing _ done) fun _ => keeps_pure stable_framing _
  · exact keeps_bind stable_framing done fun _ => keeps_throw stable_framing _

-- Nothing a client does with a transaction changes the count.
theorem perform_stable (op : WorkOp) : Keeps Stable (op.perform env i) := by
  have ledger := @stable_ledger env
  have duties := @stable_duties env
  have dropped {α : Type} {m : Client α} (keeps : Keeps Stable m) : Keeps Stable (m >>= fun _ => pure ()) :=
    keeps_bind stable_framing keeps fun _ => keeps_pure stable_framing _
  cases op with
  | exec query desc => exact dropped (Transaction.exec_sql_keeps duties _ (by trivial) desc)
  | prepared statement => exact Transaction.activate_for_keeps duties _
  | preparedExec statement args => exact dropped (Connection.prepared_exec_keeps ledger i statement args (stable_request _))
  | parameterizedExec query args => exact dropped (Connection.parameterized_exec_keeps ledger i query args (stable_request _))
  | setVariable var value =>
      exact keeps_bind stable_framing (Connection.raw_set_var_keeps ledger var value) fun _ => stable_turn i _ fun _ => id
  | getVariable var =>
      refine dropped (keeps_get fun w => ?_)
      cases (w.trans i).vars.find var with
      | some value => exact keeps_pure stable_framing _
      | none => exact Connection.raw_get_var_keeps ledger var
  | fetch query => exact dropped (Connection.own_exec_keeps ledger _ (by trivial) 0)
  | openWriter table columns =>
      exact keeps_bind stable_framing (Transaction.exec_sql_keeps duties _ (by trivial) "") fun _ => register_focus_stable _
  | writeLine => exact Connection.write_copy_line_keeps ledger
  | closeWriter => exact writer_close_stable
  | destroyWriter => exact keeps_try_catch stable_framing writer_close_stable fun e => pending_error_stable _
  | openReader table columns =>
      exact keeps_bind stable_framing (Transaction.exec_sql_keeps duties _ (by trivial) "") fun _ => register_focus_stable _
  | getLine => exact dropped get_raw_line_stable
  | closeReader => exact reader_close_stable
  | destroyReader => exact keeps_try_catch stable_framing reader_close_stable fun e => pending_error_stable _
  | prepare name definition => exact Connection.prepare_keeps ledger name definition
  | unprepare name => exact Connection.unprepare_keeps ledger name
  | getNotifs => exact dropped (Connection.get_notifs_keeps stable_upkeep)
  | disconnect => exact pq_finish_keeps (@stable_upkeep env)
  | commit => exact Transaction.commit_keeps (@stable_lifetime env)
  | abort => exact Transaction.abort_keeps duties
  | end_ => exact Transaction.end_keeps duties

theorem simulate_failure_stable : Keeps Stable Connection.simulateFailure := by
  refine keeps_get fun w => keeps_when stable_framing _ ?_
  exact keeps_bind stable_framing (pq_finish_keeps (@stable_upkeep .calm)) fun _ => members_keep (@stable_ledger .calm) _ fun _ => rfl

end

end Pqxx
