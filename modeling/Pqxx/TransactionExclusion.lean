import Pqxx.Lib.Run
import Pqxx.TransactionLifecycle

set_option autoImplicit false

namespace Pqxx

open Lib Prog

section

variable {env : Outside} {i : Nat} {w v u : World}

theorem work_moves (op : WorkOp) : Keeps (WorksOn i) (op.perform env i) := by
  have dropped {α : Type} {m : Client α} (keeps : Keeps (WorksOn i) m) : Keeps (WorksOn i) (m >>= fun _ => pure ()) :=
    keeps_bind moves_framing keeps fun _ => keeps_pure moves_framing _
  have focuses (f : Focus) : Keeps (WorksOn i) (Transaction.registerFocus i f) :=
    moves_kept (Transaction.register_focus_errand (@kept_errands env) f)
  cases decisive : op.decisive with
  | false => exact moves_kept (work_errand kept_errands op decisive)
  | true =>
      cases op with
      | exec query desc => exact dropped (Transaction.exec_sql_moves _ desc)
      | prepared statement => exact Transaction.activate_for_moves _
      | openWriter table columns => exact keeps_bind moves_framing (Transaction.exec_sql_moves _ "") fun _ => focuses _
      | openReader table columns => exact keeps_bind moves_framing (Transaction.exec_sql_moves _ "") fun _ => focuses _
      | commit => exact Transaction.commit_moves
      | abort => exact Transaction.abort_keeps_moves
      | end_ => exact Transaction.end_keeps_moves
      | _ => exact absurd decisive Bool.false_ne_true

-- A new transaction that has begun, and has the connection to itself.
structure Opened (i : Nat) (kind : Kind) (w w' : World) : Prop where
  others : ∀ j, j ≠ i → (w'.trans j).standing = (w.trans j).standing
  kind : (w'.trans i).kind = kind
  registered : (w'.trans i).registered = true
  status : (w'.trans i).status = .active
  was : w.conn.trans = none
  holder : w'.conn.trans = some i

-- A new one that has not begun, because it is yet to or because it could not.
structure Unopened (i : Nat) (kind : Kind) (w w' : World) : Prop where
  others : ∀ j, j ≠ i → (w'.trans j).standing = (w.trans j).standing
  kind : (w'.trans i).kind = kind
  registered : (w'.trans i).registered = false
  status : (w'.trans i).status = .nascent
  holder : w'.conn.trans = w.conn.trans

theorem open_work_free (kind : Kind) (classname name startArgs logTable : String) (free : w.conn.trans = none) :
    wp (openWork env i kind classname name startArgs logTable) (fun _ u => Opened i kind w u) (fun _ u => Unopened i kind w u) w := by
  let made : World := ((modifyTrans i fun _ => Transaction.fresh kind classname name startArgs logTable : Client Unit) w).2
  let held : World := ((modifyConn fun c => { c with trans := some i } : Client Unit) made).2
  let begins : World := ((modifyTrans i fun x => { x with registered := true } : Client Unit) held).2
  have own : begins.trans i = { Transaction.fresh kind classname name startArgs logTable with registered := true } :=
    (@turned_own i held fun x => { x with registered := true }).trans
      (congrArg (fun x : Transaction => { x with registered := true })
        (@turned_own i w fun _ => Transaction.fresh kind classname name startArgs logTable))
  have other : ∀ j, j ≠ i → begins.trans j = w.trans j := fun j away =>
    (@turned_other i held (fun x => { x with registered := true }) j away).trans
      (@turned_other i w (fun _ => Transaction.fresh kind classname name startArgs logTable) j away)
  have registers : Connection.registerTransaction i made = (.ok (), held) := by
    have still : made.conn.trans = none := free
    rw [Connection.registerTransaction, bind_apply, get_apply]
    dsimp only
    rw [still]
    rfl
  have nascent : (begins.trans i).status = .nascent := congrArg Transaction.status own
  rw [openWork, wp_bind]
  show wp (Connection.registerTransaction i >>= _) _ _ made
  rw [wp_bind]
  apply wp_ok registers
  rw [wp_bind]
  show wp (Transaction.begin env i) _ _ begins
  apply wp_mono (Transaction.begin_begun nascent)
  · intro _ u begun
    constructor
    · exact fun j away => (begun.others j away).trans (congrArg Transaction.standing (other j away))
    · exact begun.kind.trans (congrArg Transaction.kind own)
    · exact begun.registered.trans (congrArg Transaction.registered own)
    · exact begun.status
    · exact free
    · exact begun.holder
  · intro _ u cleared
    have agree : Hand i begins := iff_of_true (congrArg Transaction.registered own) rfl
    have gone := cleared.gone agree
    constructor
    · exact fun j away => (cleared.others j away).trans (congrArg Transaction.standing (other j away))
    · exact cleared.kind.trans (congrArg Transaction.kind own)
    · exact cleared.registered
    · exact cleared.status.trans nascent
    · cases cleared.holder with
      | inl same => exact absurd same gone
      | inr none => exact none.2.trans free.symm

-- There is a transaction already: nothing is sent, and the connection stays as it is.
theorem open_work_refused (kind : Kind) (classname name startArgs logTable : String) {j : Nat} (busy : w.conn.trans = some j) (other : i ≠ j) :
    openWork env i kind classname name startArgs logTable w =
      (.error { kind := .usageError, what := "Started " ++ description classname name ++ " while " ++ (w.trans j).description ++ " still active" },
        ((modifyTrans i fun _ => Transaction.fresh kind classname name startArgs logTable : Client Unit) w).2) := by
  let made : World := ((modifyTrans i fun _ => Transaction.fresh kind classname name startArgs logTable : Client Unit) w).2
  have own : (made.trans i).description = description classname name :=
    congrArg Transaction.description (@turned_own i w fun _ => Transaction.fresh kind classname name startArgs logTable)
  have old : made.trans j = w.trans j := turned_other _ j (Ne.symm other)
  have still : made.conn.trans = some j := busy
  have refuses : Connection.registerTransaction i made =
      (.error { kind := .usageError, what := "Started " ++ description classname name ++ " while " ++ (w.trans j).description ++ " still active" },
        made) := by
    rw [Connection.registerTransaction, bind_apply, get_apply]
    dsimp only
    rw [still]
    dsimp only
    rw [if_neg (Ne.symm other), own, old]
    rfl
  rw [openWork, bind_apply]
  show (Connection.registerTransaction i >>= _) made = _
  rw [bind_apply, refuses]

theorem open_work_leaves (kind : Kind) (classname name startArgs logTable : String) (unheld : w.conn.trans ≠ some i) :
    Opened i kind w (openWork env i kind classname name startArgs logTable w).2 ∨
      Unopened i kind w (openWork env i kind classname name startArgs logTable w).2 := by
  cases busy : w.conn.trans with
  | none =>
      have either : wp (openWork env i kind classname name startArgs logTable) (fun _ u => Opened i kind w u ∨ Unopened i kind w u)
          (fun _ u => Opened i kind w u ∨ Unopened i kind w u) w :=
        wp_mono (open_work_free kind classname name startArgs logTable busy) (fun _ _ => Or.inl) fun _ _ => Or.inr
      exact wp_leaves either
  | some j =>
      have other : i ≠ j := fun same => unheld (by rw [busy, same])
      have own := @turned_own i w fun _ => Transaction.fresh kind classname name startArgs logTable
      rw [open_work_refused kind classname name startArgs logTable busy other]
      right
      constructor
      · exact fun k away =>
          congrArg Transaction.standing (@turned_other i w (fun _ => Transaction.fresh kind classname name startArgs logTable) k away)
      · exact congrArg Transaction.kind own
      · exact congrArg Transaction.registered own
      · exact congrArg Transaction.status own
      · rfl

-- A subtransaction is not registered, and begins with its first statement.
theorem open_subtransaction_leaves (parent : Nat) (name : String) :
    Unopened i (.subtransaction parent) w (openSubtransaction i parent name w).2 := by
  have own : ((openSubtransaction i parent name w).2.trans i).standing =
      { status := .nascent, registered := false, kind := .subtransaction parent } := by
    show (if i = i then _ else w.trans i : Transaction).standing = _
    rw [if_pos rfl]
    rfl
  constructor
  · exact fun j away => congrArg Transaction.standing (if_neg away)
  · exact congrArg Station.kind own
  · exact congrArg Station.registered own
  · exact congrArg Station.status own
  · rfl

end

-- Every transaction agrees with the connection.
structure InOrder (w : World) : Prop where
  hand : ∀ i, Hand i w
  held : ∀ i, Seated i w

-- A new object is not the one that the connection has, and what is done with a
-- transaction is done with an object.
def Fits (w : World) : ClientOp → Prop
  | .openWork i _ _ _ _ _ => w.conn.trans ≠ some i
  | .openSubtransaction i _ _ => w.conn.trans ≠ some i
  | .work i _ => Exists_ i w
  | _ => True

instance decidableExists (i : Nat) (w : World) : Decidable (Exists_ i w) := inferInstanceAs (Decidable (_ ∨ _))

instance decidableFits (w : World) (op : ClientOp) : Decidable (Fits w op) := by
  cases op with
  | openWork i => exact inferInstanceAs (Decidable (w.conn.trans ≠ some i))
  | openSubtransaction i => exact inferInstanceAs (Decidable (w.conn.trans ≠ some i))
  | work i => exact inferInstanceAs (Decidable (Exists_ i w))
  | _ => exact inferInstanceAs (Decidable True)

-- The operation makes object i.
def ClientOp.makes (i : Nat) : ClientOp → Bool
  | .openWork j _ _ _ _ _ => decide (j = i)
  | .openSubtransaction j _ _ => decide (j = i)
  | _ => false

-- What one operation does to the transactions on a connection.
inductive Turn (op : ClientOp) (w w' : World) : Prop where
  | opened (i : Nat) (kind : Kind) (makes : op.makes i = true) (opened : Opened i kind w w') : Turn op w w'
  | unopened (i : Nat) (kind : Kind) (makes : op.makes i = true) (unheld : w.conn.trans ≠ some i) (unopened : Unopened i kind w w') : Turn op w w'
  | moved (i : Nat) (there : Exists_ i w) (moves : WorksOn i w w') : Turn op w w'
  | kept (kept : Unmoved w w') : Turn op w w'

section

variable {env : Outside} {i : Nat} {w v : World}

theorem client_step_turns (op : ClientOp) (fits : Fits w op) : Turn op w (clientStep env w op) := by
  cases transactional : op.transactional with
  | false => exact .kept (client_errand (@kept_errands env) op transactional (enrols_any kept_enlists op) w)
  | true =>
      cases op with
      | openWork i kind classname name startArgs logTable =>
          have makes : (ClientOp.openWork i kind classname name startArgs logTable).makes i = true := decide_eq_true rfl
          cases @open_work_leaves env i w kind classname name startArgs logTable fits with
          | inl opened => exact .opened i kind makes opened
          | inr unopened => exact .unopened i kind makes fits unopened
      | openSubtransaction i parent name =>
          exact .unopened i (.subtransaction parent) (decide_eq_true rfl) fits (open_subtransaction_leaves parent name)
      | work i op => exact .moved i fits (work_moves op w)
      | _ => exact absurd transactional Bool.false_ne_true

theorem orderly_initial (policy : Policy) : InOrder (World.initial policy) where
  hand _ := iff_of_false Bool.false_ne_true (Option.some_ne_none _).symm
  held _ active := by cases active

-- Everyone but i stands as before, and the connection has whom it had or lets i go.
theorem orderly_others (orderly : InOrder w) (others : ∀ j, j ≠ i → (v.trans j).standing = (w.trans j).standing)
    (holder : ∀ j, j ≠ i → (v.conn.trans = some j ↔ w.conn.trans = some j)) (hand : Hand i v) (held : Seated i v) : InOrder v := by
  constructor
  · intro j
    by_cases own : j = i
    · rw [own]
      exact hand
    · have same : (v.trans j).registered = (w.trans j).registered := congrArg Station.registered (others j own)
      rw [Hand, same, holder j own]
      exact orderly.hand j
  · intro j
    by_cases own : j = i
    · rw [own]
      exact held
    · have status : (v.trans j).status = (w.trans j).status := congrArg Station.status (others j own)
      have kind : (v.trans j).kind = (w.trans j).kind := congrArg Station.kind (others j own)
      rw [Seated, status, kind, holder j own]
      exact orderly.held j

theorem moves_holder (moves : WorksOn i w v) (j : Nat) (away : j ≠ i) : v.conn.trans = some j ↔ w.conn.trans = some j := by
  cases moves.holder with
  | inl same => rw [same]
  | inr gone =>
      rw [gone.1, gone.2]
      exact iff_of_false (Option.some_ne_none j).symm fun same => away (Option.some.inj same).symm

theorem kept_orderly (orderly : InOrder w) (kept : Unmoved w v) : InOrder v where
  hand j := (kept_hand kept).mpr (orderly.hand j)
  held j := by rw [Seated, kept_status kept, kept_kind kept, kept_holder kept]; exact orderly.held j

theorem unopened_orderly {kind : Kind} (orderly : InOrder w) (unopened : Unopened i kind w v) (unheld : w.conn.trans ≠ some i) : InOrder v := by
  have same (j : Nat) (_ : j ≠ i) : v.conn.trans = some j ↔ w.conn.trans = some j := by rw [unopened.holder]
  have hand : Hand i v := by
    rw [Hand, unopened.registered, unopened.holder]
    exact iff_of_false Bool.false_ne_true unheld
  have held : Seated i v := by
    rw [Seated, unopened.status]
    exact fun active => by cases active
  exact orderly_others orderly unopened.others same hand held

theorem opened_orderly {kind : Kind} (orderly : InOrder w) (opened : Opened i kind w v) : InOrder v := by
  have free (j : Nat) (away : j ≠ i) : v.conn.trans = some j ↔ w.conn.trans = some j := by
    rw [opened.was, opened.holder]
    exact iff_of_false (fun same => away (Option.some.inj same).symm) (Option.some_ne_none j).symm
  exact orderly_others orderly opened.others free (iff_of_true opened.registered opened.holder) fun _ => .inr opened.holder

theorem turn_orderly {op : ClientOp} (turn : Turn op w v) (orderly : InOrder w) : InOrder v := by
  cases turn with
  | opened i kind _ opened => exact opened_orderly orderly opened
  | unopened i kind _ unheld unopened => exact unopened_orderly orderly unopened unheld
  | moved i there moves =>
      exact orderly_others orderly moves.others (moves_holder moves) (moves.hand (orderly.hand i))
        (moves.held (orderly.hand i) there (orderly.held i))
  | kept kept => exact kept_orderly orderly kept

-- No two transactions are active on one connection, but for those within others.
structure Exclusive (env : Outside) (w : World) : Prop where
  register : ∀ i, (w.trans i).registered = true ↔ w.conn.trans = some i
  single : ∀ i j, (w.trans i).status = .active → (w.trans i).kind.within = false → (w.trans j).status = .active →
    (w.trans j).kind.within = false → i = j
  begins : ∀ i kind classname name startArgs logTable, w.conn.trans = none →
    wp (openWork env i kind classname name startArgs logTable) (fun _ u => Opened i kind w u) (fun _ u => Unopened i kind w u) w
  refused : ∀ i j kind classname name startArgs logTable, w.conn.trans = some j → i ≠ j →
    openWork env i kind classname name startArgs logTable w =
      (.error { kind := .usageError, what := "Started " ++ description classname name ++ " while " ++ (w.trans j).description ++ " still active" },
        ((modifyTrans i fun _ => Transaction.fresh kind classname name startArgs logTable : Client Unit) w).2)

theorem orderly_exclusive (orderly : InOrder w) : Exclusive env w where
  register := orderly.hand
  single i j activeI outerI activeJ outerJ := by
    have holds : ∀ k, (w.trans k).status = .active → (w.trans k).kind.within = false → w.conn.trans = some k := by
      intro k active outer
      cases orderly.held k active with
      | inl within => exact absurd (outer.symm.trans within) Bool.false_ne_true
      | inr holder => exact holder
    exact Option.some.inj ((holds i activeI outerI).symm.trans (holds j activeJ outerJ))
  begins _ kind classname name startArgs logTable free := open_work_free kind classname name startArgs logTable free
  refused _ _ kind classname name startArgs logTable busy other := open_work_refused kind classname name startArgs logTable busy other

theorem transactions_exclude (env : Outside) (policy : Policy) (ops : List ClientOp)
    (fits : Along Fits (clientStep env) (World.initial policy) ops) : Exclusive env (run (clientStep env) (World.initial policy) ops) := by
  apply orderly_exclusive
  exact run_invariant Fits (clientStep env) InOrder (fun w op fits orderly => turn_orderly (client_step_turns op fits) orderly)
    (World.initial policy) ops fits (orderly_initial policy)

-- The second of two is refused while the first is there, and begins once that is gone.
theorem transactions_exclude_two :
    let ops : List ClientOp := [.openWork 0 .work "transaction" "one" "" "", .openWork 1 .work "transaction" "two" "" "",
      .openSubtransaction 2 0 "inner", .work 2 (.exec "SELECT 1" ""), .work 2 .commit, .work 0 .commit, .openWork 1 .work "transaction" "two" "" ""]
    let w := run (clientStep .calm) (World.initial .direct) ops
    w.conn.trans = some 1 ∧ (w.trans 1).status = .active ∧ Exclusive .calm w := by
  refine ⟨?_, ?_, transactions_exclude .calm .direct _ ?_⟩
  · decide +kernel
  · decide +kernel
  · decide +kernel

-- What has become of object i, by an operation that does not make it anew.
structure Proceeds (i : Nat) (w w' : World) : Prop where
  onward : (w.trans i).status.Onward (w'.trans i).status
  regained : w'.conn.trans = some i → w.conn.trans = some i

theorem proceeds_trans {u : World} (one : Proceeds i w v) (two : Proceeds i v u) : Proceeds i w u where
  onward := onward_trans one.onward two.onward
  regained held := one.regained (two.regained held)

theorem kept_proceeds (kept : Unmoved w v) : Proceeds i w v where
  onward := .inl (kept_status kept i)
  regained held := (kept_holder kept).symm.trans held

theorem unopened_proceeds {j : Nat} {kind : Kind} (unopened : Unopened j kind w v) (away : i ≠ j) : Proceeds i w v where
  onward := .inl (congrArg Station.status (unopened.others i away))
  regained held := unopened.holder.symm.trans held

theorem opened_proceeds {j : Nat} {kind : Kind} (opened : Opened j kind w v) (away : i ≠ j) : Proceeds i w v where
  onward := .inl (congrArg Station.status (opened.others i away))
  regained held := absurd (Option.some.inj (held.symm.trans opened.holder)) away

theorem moves_proceeds {j : Nat} (moves : WorksOn j w v) : Proceeds i w v where
  onward := by
    by_cases own : i = j
    · rw [own]
      exact moves.onward
    · exact .inl (congrArg Station.status (moves.others i own))
  regained held := by
    cases moves.holder with
    | inl same => exact same.symm.trans held
    | inr gone => exact absurd (held.symm.trans gone.2) (Option.some_ne_none i)

theorem turn_proceeds {op : ClientOp} (turn : Turn op w v) (old : op.makes i = false) : Proceeds i w v := by
  have away {j : Nat} (makes : op.makes j = true) : i ≠ j := by
    intro same
    rw [same] at old
    exact absurd (old.symm.trans makes) Bool.false_ne_true
  cases turn with
  | opened j kind makes opened => exact opened_proceeds opened (away makes)
  | unopened j kind makes _ unopened => exact unopened_proceeds unopened (away makes)
  | moved j _ moves => exact moves_proceeds moves
  | kept kept => exact kept_proceeds kept

-- Whatever else goes on, an object begins once and is closed once, and once it is off the
-- register it does not come back.
theorem objects_proceed (env : Outside) (i : Nat) (w : World) (ops : List ClientOp)
    (fits : Along (fun v op => Fits v op ∧ op.makes i = false) (clientStep env) w ops) : Proceeds i w (run (clientStep env) w ops) := by
  apply run_invariant (fun v op => Fits v op ∧ op.makes i = false) (clientStep env) (Proceeds i w) _ w ops fits
  · exact kept_proceeds rfl
  · exact fun v op both before => proceeds_trans before (turn_proceeds (client_step_turns op both.1) both.2)

-- Committed, and committed once more while another has the connection.
theorem objects_proceed_once :
    let w := clientStep .calm (World.initial .direct) (.openWork 0 .work "transaction" "one" "" "")
    let ops : List ClientOp := [.work 0 .commit, .openWork 1 .work "transaction" "two" "" "", .work 0 .commit, .work 0 .abort]
    ((run (clientStep .calm) w ops).trans 0).status = .committed ∧ Proceeds 0 w (run (clientStep .calm) w ops) := by
  constructor
  · decide +kernel
  · exact objects_proceed .calm 0 _ _ (by decide +kernel)

end

end Pqxx
