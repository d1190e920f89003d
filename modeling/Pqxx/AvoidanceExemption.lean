import Pqxx.TransactionBackground

set_option autoImplicit false

namespace Pqxx

open Lib

-- A world as the constructor of the exemption leaves it.
def World.exempted (w : World) : World := { w with conn := { w.conn with reactivationAvoidance := 0 } }

-- The destructor of an exemption that was made in w.
def leaveExemption (w : World) : Client Unit := do
  Prog.when (w.conn.reactivationAvoidance ≠ 0 ∧ w.conn.isOpen = false) Connection.deactivate
  modifyConn fun c => { c with reactivationAvoidance := c.reactivationAvoidance + w.conn.reactivationAvoidance }

-- The scope ends as the work in it does, and the count is what it was and what the work
-- has added to it.
structure Restores (work : Client Unit) (w : World) : Prop where
  outcome : (exempt work w).1 = (work w.exempted).1
  counter : (exempt work w).2.conn.reactivationAvoidance =
    w.conn.reactivationAvoidance + (work w.exempted).2.conn.reactivationAvoidance

-- deactivate() refuses on the way out: a transaction is there, and so is a connection that
-- was not there when the scope began.
def Stuck (work : Client Unit) (w : World) : Prop :=
  (w.conn.reactivationAvoidance ≠ 0 ∧ w.conn.isOpen = false) ∧
    (work w.exempted).2.conn.handle.isSome = true ∧ (work w.exempted).2.conn.trans.isSome = true

theorem exempt_ok {work : Client Unit} {w u : World} (ended : work w.exempted = (.ok (), u)) : exempt work w = leaveExemption w u := by
  have cleared : work { w with conn := { w.conn with reactivationAvoidance := 0 } } = (.ok (), u) := ended
  simp only [exempt, modifyConn, Prog.bind_apply, Prog.get_apply, Prog.modify_apply, Prog.try_catch_apply, cleared]
  rfl

theorem exempt_error {work : Client Unit} {w u : World} {e : Exn} (ended : work w.exempted = (.error e, u)) :
    exempt work w = match leaveExemption w u with
      | (.ok _, v) => (.error e, v)
      | (.error refused, v) => (.error refused, v) := by
  have cleared : work { w with conn := { w.conn with reactivationAvoidance := 0 } } = (.error e, u) := ended
  simp only [exempt, modifyConn, Prog.bind_apply, Prog.get_apply, Prog.modify_apply, Prog.try_catch_apply, cleared, leaveExemption,
    Prog.throw_apply]
  cases Prog.when (w.conn.reactivationAvoidance ≠ 0 ∧ w.conn.isOpen = false) Connection.deactivate u with
  | mk outcome v =>
      cases outcome with
      | ok _ => rfl
      | error refused => rfl

theorem deactivate_idle (w : World) (idle : ¬ (w.conn.handle.isSome = true ∧ w.conn.trans.isSome = true)) :
    ∃ v, Connection.deactivate w = (.ok (), v) ∧ v.conn.reactivationAvoidance = w.conn.reactivationAvoidance := by
  simp only [Connection.deactivate, Prog.bind_apply, Prog.get_apply]
  cases handle : w.conn.handle with
  | none => exact ⟨w, rfl, rfl⟩
  | some h =>
      cases trans : w.conn.trans with
      | some i => exact absurd ⟨by rw [handle]; rfl, by rw [trans]; rfl⟩ idle
      | none =>
          dsimp only
          rw [Prog.ite_apply]
          split
          · simp only [processNotice, Prog.modify_apply]
            refine ⟨_, rfl, ?_⟩
            split
            · rfl
            · rfl
          · exact ⟨_, rfl, rfl⟩

theorem deactivate_busy (w : World) (busy : w.conn.handle.isSome = true ∧ w.conn.trans.isSome = true) :
    ∃ e, Connection.deactivate w = (.error e, w) := by
  obtain ⟨h, handle⟩ := Option.isSome_iff_exists.mp busy.1
  obtain ⟨i, trans⟩ := Option.isSome_iff_exists.mp busy.2
  simp only [Connection.deactivate, Prog.bind_apply, Prog.get_apply, handle, trans]
  exact ⟨_, rfl⟩

-- Where the destructor has no reason to deactivate, or deactivate() does not refuse, the
-- count is added back.
theorem leave_restores (w u : World)
    (free : ¬ ((w.conn.reactivationAvoidance ≠ 0 ∧ w.conn.isOpen = false) ∧ u.conn.handle.isSome = true ∧ u.conn.trans.isSome = true)) :
    ∃ v, leaveExemption w u = (.ok (), v) ∧ v.conn.reactivationAvoidance = w.conn.reactivationAvoidance + u.conn.reactivationAvoidance := by
  rw [leaveExemption]
  by_cases reactivated : w.conn.reactivationAvoidance ≠ 0 ∧ w.conn.isOpen = false
  · obtain ⟨v, deactivated, count⟩ := deactivate_idle u fun busy => free ⟨reactivated, busy⟩
    simp only [Prog.bind_apply, Prog.when_run _ _ _ reactivated, deactivated, modifyConn, Prog.modify_apply]
    exact ⟨_, rfl, by rw [count, Int.add_comm]⟩
  · simp only [Prog.bind_apply, Prog.when_skip _ _ _ reactivated, modifyConn, Prog.modify_apply]
    exact ⟨_, rfl, Int.add_comm _ _⟩

theorem leave_stuck (w u : World) (reactivated : w.conn.reactivationAvoidance ≠ 0 ∧ w.conn.isOpen = false)
    (busy : u.conn.handle.isSome = true ∧ u.conn.trans.isSome = true) : ∃ e, leaveExemption w u = (.error e, u) := by
  obtain ⟨e, refused⟩ := deactivate_busy u busy
  rw [leaveExemption]
  simp only [Prog.bind_apply, Prog.when_run _ _ _ reactivated, refused]
  exact ⟨e, rfl⟩

theorem exempt_restores (work : Client Unit) (w : World) (free : ¬ Stuck work w) : Restores work w := by
  cases ended : work w.exempted with
  | mk outcome u =>
      rw [Stuck, ended] at free
      obtain ⟨v, left, count⟩ := leave_restores w u free
      cases outcome with
      | ok _ =>
          have exempted := (exempt_ok ended).trans left
          exact ⟨by rw [exempted, ended], by rw [exempted, ended, count]⟩
      | error e =>
          have exempted := exempt_error ended
          rw [left] at exempted
          exact ⟨by rw [exempted, ended], by rw [exempted, ended, count]⟩

-- Whatever the work is, this is the only way for an exemption to fail.
theorem exempt_restores_iff (work : Client Unit) (w : World) : Restores work w ↔ ¬ Stuck work w := by
  constructor
  · rintro restores ⟨reactivated, busy⟩
    have counter := restores.counter
    cases ended : work w.exempted with
    | mk outcome u =>
        rw [ended] at busy counter
        obtain ⟨refused, left⟩ := leave_stuck w u reactivated busy
        have stays : (exempt work w).2 = u := by
          cases outcome with
          | ok _ => rw [exempt_ok ended, left]
          | error e => rw [exempt_error ended, left]
        rw [stays] at counter
        dsimp only at counter
        have counted := reactivated.1
        omega
  · exact exempt_restores work w

namespace Transaction

variable (env : Outside)

-- The work in the one scope there is, in DeleteTransactionRecord.
def deletion (i : Nat) (w : World) : Client Unit := do
  direct env i (.deleteRecord (w.trans i).logTable (w.trans i).recordId) 20
  modifyTrans i fun x => { x with recordId := 0 }

-- How that scope comes to run: after dbtransaction::do_abort() has returned, in the
-- do_abort() of a robusttransaction that has a record.
inductive Exempts : World → Client Unit → Prop
  | aborted (i : Nat) (w v : World) (robust : (w.trans i).kind = .robust) (rolledBack : dbAbort env i w = (.ok (), v))
      (record : (v.trans i).recordId ≠ 0) : Exempts v (deletion env i v)

theorem delete_transaction_record_exempts (i : Nat) (v : World) (record : (v.trans i).recordId ≠ 0) :
    deleteTransactionRecord env i v = (do
      swallow (exempt (deletion env i v))
      let w ← Prog.get
      Prog.when ((w.trans i).recordId ≠ 0) (processNotice ("WARNING: Failed to delete obsolete transaction record with id " ++
        toString (w.trans i).recordId ++ " ('" ++ (w.trans i).name ++ "'). Please delete it manually.  Thank you.\n"))) v := by
  rw [deleteTransactionRecord, Prog.bind_apply, Prog.get_apply]
  dsimp only
  rw [if_neg record]
  rfl

theorem do_abort_exempts {i : Nat} {w v : World} (robust : (w.trans i).kind = .robust) (rolledBack : dbAbort env i w = (.ok (), v)) :
    doAbort env i w = deleteTransactionRecord env i v := by
  simp only [doAbort, Prog.bind_apply, Prog.get_apply, robust, rolledBack]

theorem exempts_open {v : World} {work : Client Unit} (entered : Exempts env v work) : v.conn.isOpen = true := by
  cases entered with
  | aborted i w v robust rolledBack record =>
      have isOpen : Prog.wp (dbAbort env i) (fun _ u => u.conn.isOpen = true) (fun _ _ => True) w := db_abort_open
      rw [Prog.wp, rolledBack] at isOpen
      exact isOpen

theorem avoidance_exemption {v : World} {work : Client Unit} (entered : Exempts env v work) : Restores work v := by
  apply exempt_restores
  rintro ⟨⟨_, lost⟩, _⟩
  rw [exempts_open env entered] at lost
  cases lost

-- A robusttransaction with a record, while an object keeps its connection from being
-- reactivated.
def recorded : World :=
  let w := (Connection.activate Outside.calm (World.initial .lazy)).2
  { w with
    conn := { w.conn with reactivationAvoidance := 2, trans := some 0 }
    trans := fun _ => { Transaction.fresh .robust "robusttransaction" "" "" "log" with status := .active, recordId := 7 } }

theorem avoidance_exemption_recorded :
    Restores (deletion Outside.calm 0 (dbAbort Outside.calm 0 recorded).2) (dbAbort Outside.calm 0 recorded).2 :=
  avoidance_exemption Outside.calm (.aborted 0 recorded _ rfl rfl (by decide))

end Transaction

end Pqxx
