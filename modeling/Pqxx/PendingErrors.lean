import Pqxx.TransactionBackground
import Pqxx.Lib.Run

set_option autoImplicit false

namespace Pqxx

open Lib Prog

-- A message as the error handlers get it.
def noticeLine (msg : String) : String := if msg.toList.getLast? = some '\n' then msg else msg ++ "\n"

-- The destructors of a transaction: End(), then what ~transaction_base finds left over.
def Transaction.destroy (env : Outside) (i : Nat) : Client Unit := do
  end_ env i
  let leftovers : Client Unit := do
    modifyTrans i fun x => { x with reactivationAvoidance := 0 }
    let w ← Prog.get
    Prog.when ((w.trans i).pendingError ≠ "") (processNotice ("UNPROCESSED ERROR: " ++ (w.trans i).pendingError ++ "\n"))
    Prog.when ((w.trans i).registered = true) do
      processNotice ((w.trans i).description ++ " was never closed properly!\n")
      Connection.unregisterTransaction i
  tryCatch leftovers fun e => processNotice (e.what ++ "\n")

inductive PendingOp where
  | register (err : String)
  | exec (query desc : String)
  | commit
  | abort
  | end_
  | destroy
deriving DecidableEq, Repr

section

variable (env : Outside) (i : Nat)

def PendingOp.perform : PendingOp → Client Unit
  | .register err => Transaction.registerPendingError i err
  | .exec query desc => do
      let _ ← Transaction.exec env i query desc
      pure ()
  | .commit => Transaction.commit env i
  | .abort => Transaction.abort env i
  | .end_ => Transaction.end_ env i
  | .destroy => Transaction.destroy env i

def pendingStep (w : World) (op : PendingOp) : World := (op.perform env i w).2

def World.pending (w : World) : String := (w.trans i).pendingError

-- The same with another text pending.
def World.pend (w : World) (text : String) : World := w.note i fun x => { x with pendingError := text }

-- The calls that have to report a pending error: those that throw it, and those that end
-- the transaction.
def ReportDue (w : World) : PendingOp → Prop
  | .register _ => False
  | .exec _ _ | .commit | .end_ | .destroy => w.pending i ≠ ""
  | .abort => w.pending i ≠ "" ∧ ((w.trans i).status = .nascent ∨ (w.trans i).status = .active)

-- The pending error is reported, once and with its own text, whatever that may be.
def ReportsPending (w : World) (op : PendingOp) : Prop :=
  ∀ text, text ≠ "" →
    match op with
    | .register _ => True
    | .exec _ _ | .commit =>
        (op.perform env i (w.pend i text)).1 = .error { kind := .failure, what := text } ∧
          (pendingStep env i (w.pend i text) op).sent = w.sent ∧ (pendingStep env i (w.pend i text) op).pending i = ""
    | .abort | .end_ | .destroy =>
        (pendingStep env i (w.pend i text) op).notices.count (noticeLine text) = w.notices.count (noticeLine text) + 1 ∧
          (pendingStep env i (w.pend i text) op).pending i = ""

-- The first error registered stays the one to report until it is reported.
def PendingKept (w : World) (op : PendingOp) : Prop :=
  (ReportDue i w op → ReportsPending env i w op) ∧
    (¬ ReportDue i w op → w.pending i ≠ "" → (pendingStep env i w op).pending i = w.pending i) ∧
    ∀ err, op = .register err → w.pending i = "" → (pendingStep env i w op).pending i = err

end

section

variable {env : Outside} {i : Nat} {w : World}

theorem note_twice (f g : Transaction → Transaction) : (w.note i f).note i g = w.note i fun x => g (f x) := by
  simp only [World.note]
  congr 1
  funext j
  by_cases same : j = i
  · simp only [if_pos same]
  · simp only [if_neg same]

@[simp] theorem note_at (f : Transaction → Transaction) : (w.note i f).trans i = f (w.trans i) := if_pos rfl

theorem notice_nothing : processNotice "" w = (.ok (), w) := rfl

theorem modify_trans_note (f : Transaction → Transaction) : modifyTrans i f w = (.ok (), w.note i f) := rfl

-- A check finds the error, and takes it away.
theorem check_pending (there : (w.trans i).pendingError ≠ "") :
    Transaction.checkPendingError i w = (.error { kind := .failure, what := "" }, w.pend i "") := by
  simp only [Transaction.checkPendingError, bind_apply, get_apply, Prog.ite_apply, if_pos there]
  rfl

theorem pend_pend (text other : String) : (w.pend i text).pend i other = w.pend i other := note_twice ..

theorem pend_there {text : String} (some_ : text ≠ "") : ((w.pend i text).trans i).pendingError ≠ "" := by
  rw [World.pend, note_at]
  exact some_

-- End() delivers the exception's text, of which there is none.
theorem end_closed_forgets (there : (w.trans i).pendingError ≠ "") :
    Transaction.endClosed i w = Transaction.endClosed i (w.pend i "") := by
  have one : Transaction.noticing (Transaction.checkPendingError i) w = (.ok (), w.pend i "") := by
    simp only [Transaction.noticing, try_catch_apply, check_pending there, notice_nothing]
  have other : Transaction.noticing (Transaction.checkPendingError i) (w.pend i "") = (.ok (), w.pend i "") := by
    simp only [Transaction.noticing, try_catch_apply, @Transaction.check_pending_clean i (w.pend i "") (by rw [World.pend, note_at])]
  rw [Transaction.endClosed, bind_apply, bind_apply, one, other]

theorem end_forgets (there : (w.trans i).pendingError ≠ "") : Transaction.end_ env i w = Transaction.end_ env i (w.pend i "") := by
  simp only [Transaction.end_, Transaction.noticing, try_catch_apply, bind_apply, end_closed_forgets there]

theorem destroy_forgets (there : (w.trans i).pendingError ≠ "") :
    Transaction.destroy env i w = Transaction.destroy env i (w.pend i "") := by
  simp only [Transaction.destroy, bind_apply, end_forgets there]

-- The first statement of an abort is where the check throws, for abort() to swallow.
theorem do_abort_forgets (env : Outside) (i : Nat) (w : World) : ∃ u, ∀ text, text ≠ "" →
    Transaction.swallow (Transaction.doAbort env i) (w.pend i text) = (.ok (), u) := by
  have direct : ∀ (v : World) sql, (v.trans i).pendingError ≠ "" →
      Transaction.direct env i sql 0 v = (.error { kind := .failure, what := "" }, v.pend i "") := by
    intro v sql there
    simp only [Transaction.direct, Transaction.directExec, bind_apply, check_pending there]
  have rollback : ∀ text, text ≠ "" → Transaction.dbAbort env i (w.pend i text) =
      (.error { kind := .failure, what := "" }, (w.note i fun x => { x with reactivationAvoidance := 0 }).pend i "") := by
    intro text some_
    have there : (((w.pend i text).note i fun x => { x with reactivationAvoidance := 0 }).trans i).pendingError ≠ "" := by
      rw [World.pend, note_at, note_at]
      exact some_
    simp only [Transaction.dbAbort, bind_apply, modify_trans_note, direct _ _ there]
    simp only [World.pend, note_twice]
  have kind : ∀ text, ((w.pend i text).trans i).kind = (w.trans i).kind := by
    intro text
    rw [World.pend, note_at]
  cases shape : (w.trans i).kind with
  | work =>
      refine ⟨(w.note i fun x => { x with reactivationAvoidance := 0 }).pend i "", fun text some_ => ?_⟩
      simp only [Transaction.swallow, Transaction.doAbort, try_catch_apply, bind_apply, get_apply, kind, shape, rollback text some_]
      rfl
  | subtransaction parent =>
      refine ⟨w.pend i "", fun text some_ => ?_⟩
      simp only [Transaction.swallow, Transaction.doAbort, try_catch_apply, bind_apply, get_apply, kind, shape,
        direct _ _ (pend_there some_), pend_pend]
      rfl
  | robust =>
      refine ⟨(w.note i fun x => { x with reactivationAvoidance := 0 }).pend i "", fun text some_ => ?_⟩
      simp only [Transaction.swallow, Transaction.doAbort, try_catch_apply, bind_apply, get_apply, kind, shape, rollback text some_]
      rfl

theorem abort_forgets (open_ : (w.trans i).status = .nascent ∨ (w.trans i).status = .active) :
    ∃ u, ∀ text, text ≠ "" → Transaction.abort env i (w.pend i text) = u := by
  have status : ∀ text, ((w.pend i text).trans i).status = (w.trans i).status := by
    intro text
    rw [World.pend, note_at]
  obtain nascent | active := open_
  · refine ⟨Transaction.endClosed i ((w.note i fun x => { x with status := .aborted }).pend i ""), fun text some_ => ?_⟩
    have there : (((w.pend i text).note i fun x => { x with status := .aborted }).trans i).pendingError ≠ "" := by
      rw [World.pend, note_at, note_at]
      exact some_
    simp only [Transaction.abort, bind_apply, get_apply, status, nascent, Transaction.setStatus, modify_trans_note,
      end_closed_forgets there]
    simp only [World.pend, note_twice]
  · obtain ⟨u, swallowed⟩ := do_abort_forgets env i w
    refine ⟨Transaction.endClosed i (u.note i fun x => { x with status := .aborted }), fun text some_ => ?_⟩
    simp only [Transaction.abort, bind_apply, get_apply, status, active, swallowed text some_, Transaction.setStatus, modify_trans_note]

-- The text is nowhere in what a call that ends the transaction does.
theorem ending_forgets (env : Outside) (op : PendingOp) (due : ReportDue i w op) (ends : op = .abort ∨ op = .end_ ∨ op = .destroy) :
    ∃ u, ∀ text, text ≠ "" → op.perform env i (w.pend i text) = u := by
  obtain rfl | rfl | rfl := ends
  · exact abort_forgets due.2
  · refine ⟨Transaction.end_ env i (w.pend i ""), fun text some_ => ?_⟩
    rw [PendingOp.perform, end_forgets (pend_there some_), pend_pend]
  · refine ⟨Transaction.destroy env i (w.pend i ""), fun text some_ => ?_⟩
    rw [PendingOp.perform, destroy_forgets (pend_there some_), pend_pend]

theorem lines_bounded (lines : List String) : ∃ n, ∀ line ∈ lines, line.length ≤ n := by
  induction lines with
  | nil => exact ⟨0, nofun⟩
  | cons first rest ih =>
      obtain ⟨n, bound⟩ := ih
      refine ⟨max first.length n, fun line there => ?_⟩
      obtain rfl | there := List.mem_cons.mp there
      · exact Nat.le_max_left _ _
      · exact Nat.le_trans (bound line there) (Nat.le_max_right _ _)

theorem notice_line_longer (msg : String) : msg.length ≤ (noticeLine msg).length := by
  rw [noticeLine]
  split
  · exact Nat.le_refl _
  · rw [String.length_append]
    omega

-- There is always a text that no handler has seen.
theorem unseen_text (seen : List String) : ∃ text, text ≠ "" ∧ noticeLine text ∉ seen := by
  obtain ⟨n, bound⟩ := lines_bounded seen
  have long : (String.ofList (List.replicate (n + 1) 'x')).length = n + 1 := by
    rw [String.length_ofList, List.length_replicate]
  refine ⟨String.ofList (List.replicate (n + 1) 'x'), fun empty => ?_, fun there => ?_⟩
  · rw [empty, String.length_empty] at long
    omega
  · have short := bound _ there
    have longer := notice_line_longer (String.ofList (List.replicate (n + 1) 'x'))
    omega

theorem never_reports (op : PendingOp) (due : ReportDue i w op) : ¬ ReportsPending env i w op := by
  have thrown : ∀ text, text ≠ "" → ∀ (m : Client Unit), (m (w.pend i text)).1 = .error { kind := .failure, what := "" } →
      ¬ (m (w.pend i text)).1 = .error { kind := .failure, what := text } := by
    intro text some_ m empty full
    rw [empty] at full
    injection full with same
    injection same with _ same
    exact some_ same.symm
  have silent : op = .abort ∨ op = .end_ ∨ op = .destroy → ¬ ∀ text, text ≠ "" →
      (pendingStep env i (w.pend i text) op).notices.count (noticeLine text) = w.notices.count (noticeLine text) + 1 ∧
        (pendingStep env i (w.pend i text) op).pending i = "" := by
    intro ends reports
    obtain ⟨u, forgets⟩ := ending_forgets env op due ends
    obtain ⟨text, some_, unseen⟩ := unseen_text u.2.notices
    have counted := (reports text some_).1
    rw [pendingStep, forgets text some_, List.count_eq_zero_of_not_mem unseen] at counted
    omega
  have other : ((w.pend i "x").trans i).pendingError ≠ "" := pend_there (by decide)
  intro reports
  cases op with
  | register err => exact due
  | exec query desc =>
      refine thrown "x" (by decide) _ ?_ (reports "x" (by decide)).1
      simp only [PendingOp.perform, Transaction.exec, Transaction.execSql, bind_apply, check_pending other]
  | commit =>
      refine thrown "x" (by decide) _ ?_ (reports "x" (by decide)).1
      simp only [PendingOp.perform, Transaction.commit, bind_apply, check_pending other]
  | abort => exact silent (.inl rfl) reports
  | end_ => exact silent (.inr (.inl rfl)) reports
  | destroy => exact silent (.inr (.inr rfl)) reports

theorem undue_kept (op : PendingOp) (undue : ¬ ReportDue i w op) (there : w.pending i ≠ "") :
    (pendingStep env i w op).pending i = w.pending i := by
  cases op with
  | register err =>
      rw [pendingStep, PendingOp.perform, Transaction.registerPendingError, modify_trans_note, World.pending, note_at, if_neg fun both => there both.1]
      rfl
  | abort =>
      rw [pendingStep, PendingOp.perform, Transaction.abort]
      simp only [bind_apply, get_apply]
      cases status : (w.trans i).status with
      | nascent => exact absurd ⟨there, .inl status⟩ undue
      | active => exact absurd ⟨there, .inr status⟩ undue
      | aborted => rfl
      | committed => rfl
      | inDoubt =>
          simp only [processNotice, modify_apply]
          split <;> rfl
  | exec query desc => exact absurd there undue
  | commit => exact absurd there undue
  | end_ => exact absurd there undue
  | destroy => exact absurd there undue

theorem register_first (err : String) (none_ : w.pending i = "") : (pendingStep env i w (.register err)).pending i = err := by
  rw [pendingStep, PendingOp.perform, Transaction.registerPendingError, modify_trans_note, World.pending, note_at]
  by_cases empty : err = ""
  · rw [if_neg fun both => both.2 empty, empty]
    exact none_
  · rw [if_pos ⟨none_, empty⟩]

end

-- A pending error is lost wherever it has to be reported: it is kept, the first of those
-- that are registered, exactly in the runs in which it never has to be.
theorem pending_errors (env : Outside) (i : Nat) (w : World) (ops : List PendingOp) :
    Along (PendingKept env i) (pendingStep env i) w ops ↔ Along (fun w op => ¬ ReportDue i w op) (pendingStep env i) w ops := by
  have each : ∀ v op, PendingKept env i v op ↔ ¬ ReportDue i v op := by
    intro v op
    constructor
    · exact fun kept due => never_reports op due (kept.1 due)
    · exact fun undue => ⟨fun due => absurd due undue, undue_kept op, fun err register none_ => by
        subst register
        exact register_first err none_⟩
  induction ops generalizing w with
  | nil => exact Iff.rfl
  | cons op rest ih => exact and_congr (each w op) (ih _)

-- A table stream's error, and a statement after it.
theorem pending_errors_lost :
    ¬ Along (PendingKept Outside.calm 0) (pendingStep Outside.calm 0) (World.initial .direct)
      [.register "ERROR:  invalid input\n", .exec "SELECT 1" ""] := by
  intro kept
  have due : ReportDue 0 (pendingStep Outside.calm 0 (World.initial .direct) (.register "ERROR:  invalid input\n"))
      (.exec "SELECT 1" "") := by
    rw [ReportDue, register_first _ rfl]
    decide
  exact never_reports _ due (kept.2.1.1 due)

end Pqxx
