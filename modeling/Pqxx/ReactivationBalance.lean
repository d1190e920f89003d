import Pqxx.Lib.Run
import Pqxx.SqlCursor
import Pqxx.TransactionUpkeep

set_option autoImplicit false

namespace Pqxx

open Lib Prog

inductive UpdatePolicy where
  | readOnly
  | update
deriving DecidableEq, Repr

-- isspace in the C locale, or a semicolon.
def uselessTrail (c : Char) : Bool := c = ' ' || (9 ≤ c.toNat && c.toNat ≤ 13) || c = ';'

-- What is left of the query without its useless trail. An empty query, whose end() the
-- source decrements all the same, counts as one that is all trail.
def stripTrail (query : String) : String := String.ofList (query.toList.reverse.dropWhile uselessTrail).reverse

def declareText (name query : String) (ap : AccessPolicy) (up : UpdatePolicy) (hold : Bool) : String :=
  "DECLARE \"" ++ name ++ "\" " ++ (if ap = .forwardOnly then "NO " else "") ++ "SCROLL " ++ "CURSOR " ++
    (if hold then "WITH HOLD " else "") ++ "FOR " ++ query ++ " " ++
    (if up ≠ .update then "FOR READ ONLY " else "FOR UPDATE ")

-- The results of FETCH, as rows of text.
abbrev CursorObject : Type := SqlCursor (List String)

def addReactivationAvoidanceCount (n : Int) : Client Unit :=
  modifyConn fun c => { c with reactivationAvoidance := c.reactivationAvoidance + n }

section

variable (env : Outside)

def initEmptyResult (i : Nat) (name : String) : Client (List (List String)) :=
  Transaction.exec env i ("FETCH 0 IN \"" ++ name ++ "\"") ""

def createCursor (i : Nat) (query cname : String) (ap : AccessPolicy) (up : UpdatePolicy) (op : OwnershipPolicy) (hold : Bool) :
    Client CursorObject := do
  let name ← Connection.adornName cname
  if stripTrail query = "" then fault .argumentError "Cursor created on empty query"
  else do
    Connection.activate env
    let _ ← Transaction.exec env i (declareText name (stripTrail query) ap up hold) ("[DECLARE " ++ name ++ "]")
    let emptyResult ← initEmptyResult env i name
    Prog.when (hold = true) (addReactivationAvoidanceCount 1)
    pure { name, emptyResult, adopted := false, ownership := op, atEnd := -1, pos := 0, endpos := -1 }

def adoptCursorObject (cname : String) (op : OwnershipPolicy) : Client CursorObject := do
  Prog.when (op = .owned) (addReactivationAvoidanceCount (-1))
  pure { name := cname, emptyResult := [], adopted := true, ownership := op, atEnd := 0, pos := -1, endpos := -1 }

def closeCursor (cur : CursorObject) : Client CursorObject :=
  if cur.ownership = .owned then do
    Transaction.swallow do
      let _ ← Connection.exec env (.fetch ("CLOSE \"" ++ cur.name ++ "\"")) 0
      pure ()
    Prog.when (cur.adopted = true) (addReactivationAvoidanceCount (-1))
    pure { cur with ownership := .loose }
  else pure cur

end

-- A connection, the cursor objects on it, and, on record only, the WITH HOLD cursors made
-- by such an object that no owner has closed yet.
structure CursorSession where
  world : World
  cursors : List CursorObject
  held : List String

-- A new connection.
def CursorSession.start (policy : Policy) : CursorSession := { world := World.initial policy, cursors := [], held := [] }

-- What a client does with the objects, and whatever else it does on the connection. A
-- destructor closes its cursor.
inductive CursorUse where
  | create (i : Nat) (query cname : String) (ap : AccessPolicy) (up : UpdatePolicy) (op : OwnershipPolicy) (hold : Bool)
  | adopt (cname : String) (op : OwnershipPolicy)
  | close (k : Nat)
  | destroy (k : Nat)
  | openWork (i : Nat) (kind : Kind) (classname name startArgs logTable : String)
  | openSubtransaction (i parent : Nat) (name : String)
  | work (i : Nat) (op : WorkOp)
  | activate
  | deactivate
  | reset
  | simulateFailure
deriving DecidableEq, Repr

namespace CursorSession

-- An object whose constructor throws does not come into being.
def keep (s : CursorSession) (hold : Bool) (r : Except Exn CursorObject × World) : CursorSession :=
  match r with
  | (.ok cur, world) => { world, cursors := s.cursors ++ [cur], held := if hold then cur.name :: s.held else s.held }
  | (.error _, world) => { s with world }

def closed (env : Outside) (s : CursorSession) (cur : CursorObject) (f : CursorObject → List CursorObject) : CursorSession :=
  match closeCursor env cur s.world with
  | (.ok cur', world) => { world, cursors := f cur', held := if cur.ownership = .owned then s.held.erase cur.name else s.held }
  | (.error _, world) => { s with world }

def perform (s : CursorSession) (m : Client Unit) : CursorSession := { s with world := (m s.world).2 }

def step (env : Outside) (s : CursorSession) : CursorUse → CursorSession
  | .create i query cname ap up op hold => s.keep hold (createCursor env i query cname ap up op hold s.world)
  | .adopt cname op => s.keep false (adoptCursorObject cname op s.world)
  | .close k =>
      match s.cursors[k]? with
      | some cur => s.closed env cur fun cur' => s.cursors.set k cur'
      | none => s
  | .destroy k =>
      match s.cursors[k]? with
      | some cur => s.closed env cur fun _ => s.cursors.eraseIdx k
      | none => s
  | .openWork i kind classname name startArgs logTable => s.perform (Pqxx.openWork env i kind classname name startArgs logTable)
  | .openSubtransaction i parent name => s.perform (Pqxx.openSubtransaction i parent name)
  | .work i op => s.perform (op.perform env i)
  | .activate => s.perform (Connection.activate env)
  | .deactivate => s.perform Connection.deactivate
  | .reset => s.perform (Connection.reset env)
  | .simulateFailure => s.perform Connection.simulateFailure

def count (s : CursorSession) : Int := s.world.conn.reactivationAvoidance

-- The count is where it was at first exactly when there is no cursor left to lose, and
-- just then the connection can be given up and made again.
structure Balanced (env : Outside) (s : CursorSession) : Prop where
  above : 0 ≤ s.count
  back : s.count = 0 ↔ s.held = []
  deactivates : s.world.conn.handle.isSome = true → s.world.conn.trans = none →
    ((Connection.deactivate s.world).2.conn.handle = none ↔ s.held = [])
  refused : s.held ≠ [] → s.world.conn.isOpen = false → s.world.conn.inhibitReactivation = false →
    Connection.activate env s.world = (.ok (), s.world)
  reactivates : s.held = [] → wp (Connection.activate env) (fun _ w => w.conn.isOpen = true) (fun _ _ => True) s.world

-- An owner of a cursor is closed. One that made it leaves the count as it is; one that
-- adopted it takes from the count once more.
def CloseSafe (s : CursorSession) (cur : CursorObject) : Prop :=
  cur.ownership = .owned →
    if cur.adopted then s.count = 1 ∧ s.held.erase cur.name = [] ∨ 2 ≤ s.count ∧ s.held.erase cur.name ≠ []
    else s.held ≠ [cur.name]

def Safe (s : CursorSession) : CursorUse → Prop
  | .adopt _ .owned => 2 ≤ s.count
  | .close k | .destroy k => ∀ cur, s.cursors[k]? = some cur → s.CloseSafe cur
  | _ => True

end CursorSession

-- The count, where no transaction has one of its own.
def Even (c : Int) (w : World) : Prop := w.conn.reactivationAvoidance = c ∧ ∀ i, (w.trans i).reactivationAvoidance = 0

section

variable {env : Outside} {w : World} {c : Int}

theorem stable_even {α : Type} {m : Client α} (keeps : Keeps Stable m) (even : Even c w) :
    wp m (fun _ t => Even c t) (fun _ t => Even c t) w := by
  refine wp_mono (wp_keeps keeps) (fun _ t stable => ?_) (fun _ t stable => ?_)
  · exact ⟨(stable even.2).1.trans even.1, (stable even.2).2⟩
  · exact ⟨(stable even.2).1.trans even.1, (stable even.2).2⟩

theorem add_count_even (n : Int) (even : Even c w) (post : Unit → World → Prop) (raised : Exn → World → Prop)
    (added : ∀ t, Even (c + n) t → post () t) : wp (addReactivationAvoidanceCount n) post raised w := by
  refine added _ ⟨?_, even.2⟩
  show w.conn.reactivationAvoidance + n = c + n
  rw [even.1]

theorem when_even (b : Prop) [Decidable b] (n : Int) (even : Even c w) (post : Unit → World → Prop) (raised : Exn → World → Prop)
    (added : ∀ t, Even (c + if b then n else 0) t → post () t) : wp (Prog.when b (addReactivationAvoidanceCount n)) post raised w := by
  refine wp_when _ _ _ _ _ (fun yes => ?_) (fun no => ?_)
  · rw [if_pos yes] at added
    exact add_count_even n even post raised added
  · rw [if_neg no, Int.add_zero] at added
    exact added w even

theorem create_cursor_spec (i : Nat) (query cname : String) (ap : AccessPolicy) (up : UpdatePolicy) (op : OwnershipPolicy) (hold : Bool)
    (even : Even c w) : wp (createCursor env i query cname ap up op hold)
      (fun _ t => Even (c + if hold = true then 1 else 0) t) (fun _ t => Even c t) w := by
  have executes (text desc : String) : Keeps Stable (Transaction.exec env i text desc) := Transaction.exec_sql_keeps stable_duties _ (by trivial) desc
  simp only [createCursor]
  rw [wp_bind]
  refine wp_mono (stable_even (adorn_name_keeps (@stable_duties env) cname) even) (fun name t even => ?_) (fun _ _ => id)
  refine wp_ite _ _ _ _ _ _ (fun _ => even) (fun _ => ?_)
  rw [wp_bind]
  refine wp_mono (stable_even (Connection.activate_keeps stable_upkeep) even) (fun _ t even => ?_) (fun _ _ => id)
  rw [wp_bind]
  refine wp_mono (stable_even (executes _ _) even) (fun _ t even => ?_) (fun _ _ => id)
  rw [wp_bind]
  refine wp_mono (stable_even (executes _ _) even) (fun _ t even => ?_) (fun _ _ => id)
  rw [wp_bind]
  exact when_even _ 1 even _ _ fun _ added => added

theorem adopt_cursor_spec (cname : String) (op : OwnershipPolicy) (even : Even c w) :
    wp (adoptCursorObject cname op) (fun _ t => Even (c + if op = .owned then -1 else 0) t) (fun _ _ => False) w := by
  simp only [adoptCursorObject]
  rw [wp_bind]
  exact when_even _ (-1) even _ _ fun _ added => added

theorem close_cursor_spec (cur : CursorObject) (even : Even c w) :
    wp (closeCursor env cur) (fun _ t => Even (c + if cur.ownership = .owned ∧ cur.adopted = true then -1 else 0) t)
      (fun _ _ => False) w := by
  refine wp_ite _ _ _ _ _ _ (fun owned => ?_) (fun loose => ?_)
  · have sends : Keeps Stable (do let _ ← Connection.exec env (.fetch ("CLOSE \"" ++ cur.name ++ "\"")) 0; pure () : Client Unit) :=
      keeps_bind stable_framing (Connection.own_exec_keeps stable_ledger _ (by trivial) 0) fun _ => keeps_pure stable_framing _
    rw [wp_bind, Transaction.swallow, wp_try_catch]
    have after (t : World) (even : Even c t) : wp (do
        Prog.when (cur.adopted = true) (addReactivationAvoidanceCount (-1))
        pure { cur with ownership := .loose })
          (fun _ t => Even (c + if cur.ownership = .owned ∧ cur.adopted = true then -1 else 0) t) (fun _ _ => False) t := by
      rw [wp_bind]
      refine when_even _ (-1) even _ _ fun _ added => ?_
      simp only [owned, true_and]
      exact added
    exact wp_mono (stable_even sends even) (fun _ t even => after t even) (fun _ t even => after t even)
  · rw [if_neg fun both => loose both.1, Int.add_zero]
    exact even

end

namespace CursorSession

section

variable {env : Outside} {s : CursorSession}

theorem balanced_iff : Balanced env s ↔ 0 ≤ s.count ∧ (s.count = 0 ↔ s.held = []) := by
  refine ⟨fun balanced => ⟨balanced.above, balanced.back⟩, ?_⟩
  rintro ⟨above, back⟩
  refine ⟨above, back, ?_, ?_, ?_⟩
  · intro there idle
    obtain ⟨h, handle⟩ := Option.isSome_iff_exists.mp there
    by_cases none_ : s.held = []
    · have calm : ¬ s.world.conn.reactivationAvoidance ≠ 0 := fun busy => busy (back.mpr none_)
      simp only [Connection.deactivate, Prog.bind_apply, Prog.get_apply, handle, idle, if_neg calm, Connection.setCompleted, modifyConn,
        Prog.modify_apply, Connection.doDisconnect, pqFinish, none_]
    · have busy : s.world.conn.reactivationAvoidance ≠ 0 := fun calm => none_ (back.mp calm)
      simp only [Connection.deactivate, Prog.bind_apply, Prog.get_apply, handle, idle, if_pos busy, none_, iff_false]
      simp only [processNotice, Prog.modify_apply]
      split
      · rw [handle]
        exact Option.some_ne_none _
      · rw [handle]
        exact Option.some_ne_none _
  · intro held closed free
    have busy : s.world.conn.reactivationAvoidance ≠ 0 := fun calm => held (back.mp calm)
    have shut : ¬ s.world.conn.isOpen = true := by rw [closed]; exact Bool.false_ne_true
    have allowed : ¬ s.world.conn.inhibitReactivation = true := by rw [free]; exact Bool.false_ne_true
    simp only [Connection.activate, Connection.activateWith, Prog.bind_apply, Prog.get_apply, if_neg shut, if_neg allowed, if_pos busy,
      Prog.pure_apply]
  · intro none_
    have calm : s.world.conn.reactivationAvoidance = 0 := back.mpr none_
    refine wp_mono (wp_and Connection.activate_ends (wp_keeps (Connection.activate_keeps (tended_upkeep env)))) ?_ (fun _ _ _ => trivial)
    rintro _ t ⟨isOpen | avoided, tended⟩
    · exact isOpen
    · exact absurd (tended.reactivationAvoidance.trans calm) avoided

-- No transaction on the connection has a count of its own.
def Bare (s : CursorSession) : Prop := ∀ i, (s.world.trans i).reactivationAvoidance = 0

theorem perform_balance {m : Client Unit} (keeps : Keeps Stable m) (bare : s.Bare) :
    (s.perform m).Bare ∧ (s.perform m).count = s.count ∧ (s.perform m).held = s.held :=
  ⟨(keeps s.world bare).2, (keeps s.world bare).1, rfl⟩

theorem keep_balance {hold : Bool} {added : Int} {m : Client CursorObject}
    (spec : wp m (fun _ t => Even (s.count + added) t) (fun _ t => Even s.count t) s.world) :
    (s.keep hold (m s.world)).Bare ∧ ((s.keep hold (m s.world)).count = s.count ∧ (s.keep hold (m s.world)).held = s.held ∨
      (s.keep hold (m s.world)).count = s.count + added ∧
        ∃ name, (s.keep hold (m s.world)).held = if hold then name :: s.held else s.held) := by
  unfold wp at spec
  split at spec
  · rename_i cur world outcome
    rw [outcome]
    exact ⟨spec.2, .inr ⟨spec.1, cur.name, rfl⟩⟩
  · rename_i outcome
    rw [outcome]
    exact ⟨spec.2, .inl ⟨spec.1, rfl⟩⟩

theorem closed_balance (cur : CursorObject) (f : CursorObject → List CursorObject) (bare : s.Bare) :
    (s.closed env cur f).Bare ∧
      (s.closed env cur f).count = s.count + (if cur.ownership = .owned ∧ cur.adopted = true then -1 else 0) ∧
      (s.closed env cur f).held = if cur.ownership = .owned then s.held.erase cur.name else s.held := by
  have spec := @close_cursor_spec env s.world s.count cur ⟨rfl, bare⟩
  unfold wp at spec
  simp only [closed]
  split at spec
  · rename_i outcome
    rw [outcome]
    exact ⟨spec.2, spec.1, rfl⟩
  · exact spec.elim

theorem adopt_balance (cname : String) (op : OwnershipPolicy) :
    (step env s (.adopt cname op)).count = s.count + (if op = .owned then -1 else 0) ∧ (step env s (.adopt cname op)).held = s.held := by
  cases op with
  | owned => exact ⟨rfl, rfl⟩
  | loose => exact ⟨(Int.add_zero _).symm, rfl⟩

theorem step_bare (op : CursorUse) (bare : s.Bare) : (step env s op).Bare := by
  cases op with
  | create i query cname ap up op hold => exact (keep_balance (create_cursor_spec i query cname ap up op hold ⟨rfl, bare⟩)).1
  | adopt cname op =>
      exact (keep_balance (wp_mono (adopt_cursor_spec cname op ⟨rfl, bare⟩) (fun _ _ => id) (fun _ _ => False.elim))).1
  | close k =>
      simp only [step]
      split
      · exact (closed_balance _ _ bare).1
      · exact bare
  | destroy k =>
      simp only [step]
      split
      · exact (closed_balance _ _ bare).1
      · exact bare
  | openWork i kind classname name startArgs logTable =>
      exact (perform_balance (open_work_keeps stable_lifetime kind classname name startArgs logTable) bare).1
  | openSubtransaction i parent name => exact (perform_balance (open_subtransaction_keeps (@stable_lifetime env) parent name) bare).1
  | work i op => exact (perform_balance (perform_stable op) bare).1
  | activate => exact (perform_balance (Connection.activate_keeps (@stable_upkeep env)) bare).1
  | deactivate => exact (perform_balance (deactivate_keeps (@stable_upkeep env)) bare).1
  | reset => exact (perform_balance (Connection.reset_keeps (@stable_upkeep env)) bare).1
  | simulateFailure => exact (perform_balance (simulate_failure_stable) bare).1

theorem erase_empty {name : String} {held : List String} (some_ : held ≠ []) : held.erase name = [] ↔ held = [name] := by
  cases held with
  | nil => exact absurd rfl some_
  | cons head rest =>
      by_cases same : head = name
      · subst same
        simp
      · have other : (head == name) = false := by simp [same]
        simp [other, same]

theorem closed_iff (cur : CursorObject) (f : CursorObject → List CursorObject) (bare : s.Bare) (balanced : Balanced env s) :
    Balanced env (s.closed env cur f) ↔ s.CloseSafe cur := by
  obtain ⟨_, count, held⟩ := @closed_balance env s cur f bare
  have above := balanced.above
  have back := balanced.back
  rw [balanced_iff, count, held, CloseSafe]
  by_cases owned : cur.ownership = .owned
  · simp only [owned, true_and, if_true, forall_const]
    by_cases adopted : cur.adopted = true
    · simp only [if_pos adopted]
      by_cases gone : s.held.erase cur.name = []
      · simp only [ne_eq, gone, iff_true, and_true, not_true_eq_false, and_false, or_false]
        omega
      · simp only [ne_eq, gone, iff_false, and_false, not_false_eq_true, and_true, false_or]
        omega
    · simp only [if_neg adopted, Int.add_zero]
      by_cases none_ : s.held = []
      · simp [none_, back.mpr none_]
      · have busy : s.count ≠ 0 := fun calm => none_ (back.mp calm)
        simp only [above, true_and, busy, false_iff, ne_eq, erase_empty none_]
  · simp only [owned, false_and, if_false, false_imp_iff, Int.add_zero, iff_true]
    exact ⟨above, back⟩

theorem same_balanced {t : CursorSession} (balanced : Balanced env s) (count : t.count = s.count) (held : t.held = s.held) :
    Balanced env t := by
  rw [balanced_iff, count, held]
  exact balanced_iff.mp balanced

-- What one step does to the balance.
theorem step_iff (op : CursorUse) (bare : s.Bare) (balanced : Balanced env s) : Balanced env (step env s op) ↔ s.Safe op := by
  have above := balanced.above
  have back := balanced.back
  have unchanged {m : Client Unit} (keeps : Keeps Stable m) : Balanced env (s.perform m) ↔ True := by
    obtain ⟨_, count, held⟩ := perform_balance keeps bare
    exact iff_true_intro (same_balanced balanced count held)
  have closes (k : Nat) (f : CursorObject → CursorObject → List CursorObject) :
      Balanced env (match s.cursors[k]? with
        | some cur => s.closed env cur (f cur)
        | none => s) ↔ ∀ cur, s.cursors[k]? = some cur → s.CloseSafe cur := by
    cases s.cursors[k]? with
    | none => exact iff_of_true balanced nofun
    | some cur => simp only [closed_iff cur _ bare balanced, Option.some.injEq, forall_eq']
  cases op with
  | create i query cname ap up op hold =>
      refine iff_of_true ?_ trivial
      obtain ⟨_, ⟨count, held⟩ | ⟨count, name, held⟩⟩ := keep_balance (create_cursor_spec i query cname ap up op hold ⟨rfl, bare⟩)
      · exact same_balanced balanced count held
      · rw [balanced_iff]
        simp only [step]
        rw [count, held]
        cases hold with
        | false => exact ⟨by simpa using above, by simpa using back⟩
        | true => exact ⟨by simp; omega, by simp; omega⟩
  | adopt cname op =>
      obtain ⟨count, held⟩ := @adopt_balance env s cname op
      rw [balanced_iff, count, held]
      cases op with
      | owned =>
          show 0 ≤ s.count - 1 ∧ (s.count - 1 = 0 ↔ s.held = []) ↔ 2 ≤ s.count
          rw [← back]
          omega
      | loose =>
          show 0 ≤ s.count + 0 ∧ (s.count + 0 = 0 ↔ s.held = []) ↔ True
          rw [Int.add_zero]
          exact iff_true_intro ⟨above, back⟩
  | close k => exact closes k fun _ cur' => s.cursors.set k cur'
  | destroy k => exact closes k fun _ _ => s.cursors.eraseIdx k
  | openWork i kind classname name startArgs logTable => exact unchanged (open_work_keeps stable_lifetime kind classname name startArgs logTable)
  | openSubtransaction i parent name => exact unchanged (open_subtransaction_keeps (@stable_lifetime env) parent name)
  | work i op => exact unchanged (perform_stable op)
  | activate => exact unchanged (Connection.activate_keeps (@stable_upkeep env))
  | deactivate => exact unchanged (deactivate_keeps (@stable_upkeep env))
  | reset => exact unchanged (Connection.reset_keeps (@stable_upkeep env))
  | simulateFailure => exact unchanged simulate_failure_stable

end

end CursorSession

theorem start_balanced (env : Outside) (policy : Policy) : CursorSession.Balanced env (.start policy) :=
  CursorSession.balanced_iff.mpr ⟨Int.le_refl 0, iff_of_true rfl rfl⟩

-- Over all the states of a run, whichever steps it takes.
theorem reactivation_balance (env : Outside) (policy : Policy) (ops : List CursorUse) :
    (∀ n, CursorSession.Balanced env (run (CursorSession.step env) (.start policy) (ops.take n))) ↔
      Along CursorSession.Safe (CursorSession.step env) (.start policy) ops :=
  throughout_iff CursorSession.Safe (CursorSession.step env) CursorSession.Bare (CursorSession.Balanced env)
    (fun _ op bare => CursorSession.step_bare op bare) (fun _ op bare balanced => CursorSession.step_iff op bare balanced)
    (.start policy) ops (fun _ => rfl) (start_balanced env policy)

-- The owner of a WITH HOLD cursor closes it, and nothing gives back what the cursor added
-- to the count.
theorem reactivation_balance_fails :
    ¬ (∀ (env : Outside) (policy : Policy) (ops : List CursorUse) (n : Nat),
      CursorSession.Balanced env (run (CursorSession.step env) (.start policy) (ops.take n))) := by
  intro claimed
  have balanced := claimed .calm .lazy
    [.openWork 0 .work "transaction" "" "" "", .create 0 "SELECT * FROM t" "cur" .forwardOnly .readOnly .owned true, .close 0] 3
  have closed := balanced.back.mpr (by decide +kernel)
  exact absurd closed (by decide +kernel)

end Pqxx
