import Pqxx.AvoidanceExemption
import Pqxx.ReactivationBalance
import Pqxx.TransactionServices

set_option autoImplicit false

namespace Pqxx

open Lib Prog

-- The backend process at the other end.
def World.backend (w : World) : Option Nat := w.conn.handle.map Handle.backendpid

-- The session is the one it was or is over, and a connection that is closed stays closed.
structure Moored (w w' : World) : Prop where
  backend : w'.backend = w.backend ∨ w'.backend = none
  closed : w.conn.isOpen = false → w'.conn.isOpen = false

-- There is something that would not survive the session.
def World.Avoiding (w : World) : Prop := w.conn.reactivationAvoidance ≠ 0 ∧ ∀ j, (w.trans j).reactivationAvoidance = 0

structure Secured (w w' : World) : Prop where
  stable : Stable w w'
  moored : w.Avoiding → Moored w w'

section

variable {env : Outside} {i : Nat} {w v : World}

theorem moored_framing : Framing Moored where
  same _ := ⟨.inl rfl, id⟩
  onward _ _ _ one two := {
    backend := by
      cases two.backend with
      | inl same =>
          rw [same]
          exact one.backend
      | inr ended => exact .inr ended
    closed := fun closed => two.closed (one.closed closed) }

theorem moored_conn (handle : v.conn.handle = w.conn.handle) (completed : v.conn.completed = w.conn.completed) : Moored w v := by
  constructor
  · rw [World.backend, handle]
    exact .inl rfl
  · intro closed
    rw [Connection.isOpen, handle, completed]
    exact closed

theorem tick_moored : Keeps Moored tick := fun _ => moored_conn rfl rfl

theorem notice_moored (msg : String) : Keeps Moored (processNotice msg) := by
  intro w
  rw [processNotice, modify_apply]
  split
  · exact moored_framing.same w
  · exact moored_conn rfl rfl

theorem handle_moored (f : Handle → Handle) (status : ∀ h, (f h).status = h.status) (pid : ∀ h, (f h).backendpid = h.backendpid) :
    Keeps Moored (modifyHandle f) := by
  intro w
  constructor
  · left
    show (w.conn.handle.map f).map Handle.backendpid = w.conn.handle.map Handle.backendpid
    rw [Option.map_map]
    exact congrArg w.conn.handle.map (funext pid)
  · intro closed
    show (w.conn.completed && (w.conn.handle.map f).any fun h => h.status = .ok) = false
    rw [Option.any_map]
    simp only [status]
    exact closed

theorem lose_moored : Keeps Moored (Prog.modify World.lose : Client Unit) := by
  intro w
  constructor
  · exact .inl (Option.map_map _ _ _)
  · exact fun _ => lost_closed w

theorem turn_moored (j : Nat) (f : Transaction → Transaction) : Keeps Moored (modifyTrans j f) := fun _ => moored_conn rfl rfl

theorem finish_moored : Keeps Moored pqFinish := fun _ => ⟨.inr rfl, fun _ => Bool.and_false _⟩

theorem request_moored (sql : Sql) : Keeps Moored (pqExec env sql) := by
  have asks (batch : List Sql) : Keeps Moored (Prog.modify fun w => w.ask batch false : Client Unit) := by
    intro w
    constructor
    · exact .inl (Option.map_map _ _ _)
    · exact fun closed => (asked_open batch false).trans closed
  have serves (server : Server) : Keeps Moored (Prog.modify fun w => w.serve server : Client Unit) := fun _ => moored_conn rfl rfl
  apply keeps_get
  intro w
  apply keeps_ite
  · apply keeps_bind moored_framing (asks [sql])
    intro _
    cases env.fate w.clock with
    | answered =>
        apply keeps_bind moored_framing (serves _)
        exact fun _ => keeps_bind moored_framing (handle_moored _ (fun _ => rfl) fun _ => rfl) fun _ => keeps_pure moored_framing _
    | lostBefore => exact keeps_bind moored_framing lose_moored fun _ => keeps_pure moored_framing _
    | lostAfter =>
        apply keeps_bind moored_framing
        · exact fun v => moored_framing.onward _ _ _ (serves _ v) (lose_moored _)
        · exact fun _ => keeps_pure moored_framing _
    | nullBefore => exact keeps_pure moored_framing _
    | nullAfter => exact keeps_bind moored_framing (serves _) fun _ => keeps_pure moored_framing _
  · exact keeps_pure moored_framing _

theorem notifs_moored : Keeps Moored (Connection.getNotifs env) := by
  have consumes : Keeps Moored (consumeConn env) := by
    apply keeps_bind moored_framing tick_moored
    intro t
    cases env.consumes t with
    | fine => exact keeps_bind moored_framing (handle_moored _ (fun _ => rfl) fun _ => rfl) fun _ => keeps_pure moored_framing _
    | trouble => exact keeps_pure moored_framing _
    | lost => exact keeps_bind moored_framing lose_moored fun _ => keeps_pure moored_framing _
  have delivers (n : Notify) (receiver : String × Nat) : Keeps Moored (Connection.deliver env n receiver) := by
    apply keeps_bind moored_framing tick_moored
    intro t
    apply keeps_bind moored_framing (fun _ => moored_conn rfl rfl)
    intro _
    cases env.receiverThrows t with
    | none => exact keeps_pure moored_framing _
    | some what => exact notice_moored _
  have each (n : Notify) (receivers : List (String × Nat)) : Keeps Moored (Connection.deliverAll env n receivers) := by
    induction receivers with
    | nil => exact keeps_pure moored_framing _
    | cons receiver rest ih => exact keeps_bind moored_framing (keeps_when moored_framing _ (delivers n receiver)) fun _ => ih
  have notifies (queue : List Notify) : Keeps Moored (Connection.notifyAll env queue) := by
    induction queue with
    | nil => exact keeps_pure moored_framing _
    | cons n rest ih =>
        apply keeps_bind moored_framing (handle_moored (fun h => { h with notifies := rest }) (fun _ => rfl) fun _ => rfl)
        exact fun _ => keeps_get fun v => keeps_bind moored_framing (each n _) fun _ => ih
  apply keeps_get
  intro w
  apply keeps_ite
  · exact keeps_pure moored_framing _
  · apply keeps_bind moored_framing consumes
    intro consumed
    apply keeps_ite
    · exact keeps_throw moored_framing _
    · apply keeps_get
      intro v
      apply keeps_ite
      · exact keeps_pure moored_framing _
      · exact keeps_bind moored_framing (notifies _) fun _ => keeps_pure moored_framing _

theorem put_moored : Keeps Moored (Connection.pqPutCopyData env) := by
  apply keeps_get
  intro w
  cases w.conn.handle.bind Handle.copying with
  | none => exact keeps_pure moored_framing _
  | some copying =>
      apply keeps_bind moored_framing tick_moored
      intro t
      cases env.fate t with
      | answered => exact keeps_pure moored_framing _
      | lostBefore | lostAfter => exact keeps_bind moored_framing lose_moored fun _ => keeps_pure moored_framing _
      | nullBefore | nullAfter =>
          apply keeps_bind moored_framing (fun _ => moored_conn rfl rfl)
          exact fun _ => keeps_bind moored_framing (handle_moored _ (fun _ => rfl) fun _ => rfl) fun _ => keeps_pure moored_framing _

theorem give_moored (copying : Copying) : Keeps Moored (Connection.pqGetCopyData env copying) := by
  apply keeps_bind moored_framing tick_moored
  intro t
  apply keeps_ite
  · apply keeps_bind moored_framing lose_moored
    exact fun _ => keeps_get fun w => moored_framing.same
  · cases copying.lines with
    | nil => exact keeps_pure moored_framing _
    | cons line rest =>
        exact keeps_bind moored_framing (handle_moored _ (fun _ => rfl) fun _ => rfl) fun _ => keeps_pure moored_framing _

-- The three that could take up a new session or give up the one there is look at the count.
theorem activate_avoiding (avoiding : w.conn.reactivationAvoidance ≠ 0) : (Connection.activate env w).2 = w := by
  rw [Connection.activate, Connection.activateWith, bind_apply, get_apply]
  dsimp only
  by_cases isOpen : w.conn.isOpen = true
  · rw [if_pos isOpen]
    rfl
  · rw [if_neg isOpen]
    by_cases inhibited : w.conn.inhibitReactivation = true
    · rw [if_pos inhibited]
      rfl
    · rw [if_neg inhibited, if_pos avoiding]
      rfl

theorem reset_avoiding (avoiding : w.conn.reactivationAvoidance ≠ 0) : (Connection.reset env w).2 = w := by
  rw [Connection.reset, bind_apply, get_apply]
  dsimp only
  by_cases inhibited : w.conn.inhibitReactivation = true
  · rw [if_pos inhibited]
    rfl
  · rw [if_neg inhibited, if_pos avoiding]
    rfl

theorem deactivate_avoiding (avoiding : w.conn.reactivationAvoidance ≠ 0) : Moored w (Connection.deactivate w).2 := by
  rw [Connection.deactivate, bind_apply, get_apply]
  dsimp only
  cases w.conn.handle with
  | none => exact moored_framing.same w
  | some h =>
      cases w.conn.trans with
      | some i => exact moored_framing.same w
      | none =>
          dsimp only
          rw [if_pos avoiding]
          exact notice_moored _ w

theorem stable_avoiding (avoiding : w.Avoiding) (stable : Stable w v) : v.Avoiding := by
  obtain ⟨count, counts⟩ := stable avoiding.2
  rw [World.Avoiding, count]
  exact ⟨avoiding.1, counts⟩

theorem secured_framing : Framing Secured where
  same w := ⟨stable_framing.same w, fun _ => moored_framing.same w⟩
  onward _ _ _ one two := {
    stable := stable_framing.onward _ _ _ one.stable two.stable
    moored := fun avoiding => moored_framing.onward _ _ _ (one.moored avoiding) (two.moored (stable_avoiding avoiding one.stable)) }

theorem secured_moored {α : Type} {m : Client α} (stable : Keeps Stable m) (moored : Keeps Moored m) : Keeps Secured m :=
  fun w => ⟨stable w, fun _ => moored w⟩

theorem secured_errands : Errands env Secured where
  toFraming := secured_framing
  activates w := by
    refine ⟨(@stable_errands env).activates w, fun avoiding => ?_⟩
    rw [activate_avoiding avoiding.1]
    exact moored_framing.same w
  deactivates w := ⟨(@stable_errands env).deactivates w, fun avoiding => deactivate_avoiding avoiding.1⟩
  resets w := by
    refine ⟨(@stable_errands env).resets w, fun avoiding => ?_⟩
    rw [reset_avoiding avoiding.1]
    exact moored_framing.same w
  finishes := secured_moored (@stable_errands env).finishes finish_moored
  requests sql ordinary := secured_moored ((@stable_errands env).requests sql ordinary) (request_moored sql)
  notifs := secured_moored (@stable_errands env).notifs notifs_moored
  puts := secured_moored (@stable_errands env).puts put_moored
  gives copying := secured_moored ((@stable_errands env).gives copying) (give_moored copying)
  notices msg := secured_moored ((@stable_errands env).notices msg) (notice_moored msg)
  members f beside := by
    apply secured_moored ((@stable_errands env).members f beside)
    exact fun w => moored_conn (beside w.conn).handle (beside w.conn).completed
  turns i f same count := secured_moored ((@stable_errands env).turns i f same count) (turn_moored i f)

-- A handle that is open, or has gone bad, is not connected by anything short of reset().
def Latched (w : World) : Prop := w.conn.isOpen = true ∨ ∃ h, w.conn.handle = some h ∧ h.status = .bad

theorem activate_latched (latched : Latched w) :
    wp (Connection.activate env) (fun _ u => u = w ∧ (w.conn.isOpen = true ∨ w.conn.reactivationAvoidance ≠ 0)) (fun _ u => Moored w u) w := by
  cases latched with
  | inl isOpen =>
      apply wp_ok (Connection.activate_open isOpen)
      exact ⟨rfl, .inl isOpen⟩
  | inr bad =>
      obtain ⟨h, handle, status⟩ := bad
      have closed : ¬ w.conn.isOpen = true := by
        rw [Connection.isOpen, handle]
        simp [status]
      rw [Connection.activate, Connection.activateWith, wp_bind, wp_get, if_neg closed]
      apply wp_ite
      · exact fun _ => moored_framing.same w
      · intro _
        apply wp_ite
        · exact fun avoiding => ⟨rfl, .inr avoiding⟩
        · intro _
          rw [wp_try_catch]
          apply wp_error (Connection.connect_bad h handle status _)
          have broken : ({ kind := .brokenConnection, what := "Connection to database failed" } : Exn).isA .brokenConnection = true := rfl
          rw [if_pos broken]
          exact ⟨.inr rfl, fun _ => rfl⟩

theorem request_latched (isOpen : w.conn.isOpen = true) (sql : Sql) :
    wp (pqExec env sql) (fun _ u => Moored w u ∧ Latched u) (fun _ _ => False) w := by
  obtain ⟨h, handle, status, _⟩ := open_handle isOpen
  have moored := @request_moored env sql w
  rw [pq_exec_apply h handle status] at moored
  rw [wp, pq_exec_apply h handle status]
  have bad : ∀ u : World, u.conn.handle.isSome = true → Latched u.lose := by
    intro u some_
    obtain ⟨g, there⟩ := Option.isSome_iff_exists.mp some_
    right
    refine ⟨{ g with status := .bad, unread := [], active := false, copying := none }, ?_, rfl⟩
    rw [World.lose, there]
    rfl
  have asked : ∀ batch active, (w.ask batch active).conn.handle.isSome = true := by
    intro batch active
    rw [World.ask, handle]
    rfl
  cases fate : env.fate w.clock with
  | answered =>
      rw [fate] at moored
      exact ⟨moored, .inl (answered_open.trans isOpen)⟩
  | lostBefore =>
      rw [fate] at moored
      exact ⟨moored, bad _ (asked [sql] false)⟩
  | lostAfter =>
      rw [fate] at moored
      exact ⟨moored, bad _ (asked [sql] false)⟩
  | nullBefore =>
      rw [fate] at moored
      exact ⟨moored, .inl ((asked_open [sql] false).trans isOpen)⟩
  | nullAfter =>
      rw [fate] at moored
      exact ⟨moored, .inl ((asked_open [sql] false).trans isOpen)⟩

theorem retry_latched (sql : Sql) (retries : Nat) (r : Option Answer) (still : w.conn.isOpen = true ∨ w.conn.reactivationAvoidance ≠ 0) :
    (Connection.retry env sql retries r w).2 = w := by
  induction retries generalizing r with
  | zero => rfl
  | succ retries ih =>
      rw [Connection.retry, bind_apply, get_apply]
      dsimp only
      by_cases lost : r = none ∧ w.conn.isOpen = false
      · rw [if_pos lost]
        have avoiding : w.conn.reactivationAvoidance ≠ 0 := by
          cases still with
          | inl isOpen =>
              rw [isOpen] at lost
              cases lost.2
          | inr avoiding => exact avoiding
        have same := @reset_avoiding env w avoiding
        rw [bind_apply]
        cases resets : Connection.reset env w with
        | mk outcome v =>
            rw [resets] at same
            obtain rfl : v = w := same
            cases outcome with
            | error e => rfl
            | ok _ =>
                dsimp only
                rw [bind_apply, get_apply]
                dsimp only
                rw [if_neg (by rw [lost.2]; exact Bool.false_ne_true)]
                exact ih r
      · rw [if_neg lost]
        rfl

theorem check_result_moored (r : Option Answer) (query : String) : Keeps Moored (Connection.checkResult env r query) := by
  apply keeps_get
  intro w
  apply keeps_ite
  · exact keeps_throw moored_framing _
  · rcases r with _ | rows | error
    · exact keeps_get fun v => moored_framing.same
    · exact keeps_pure moored_framing _
    · exact keeps_throw moored_framing _

-- One statement on a connection that is open, whatever the count.
theorem exec_open_moored (isOpen : w.conn.isOpen = true) (sql : Sql) (retries : Nat) : Moored w (Connection.exec env sql retries w).2 := by
  apply wp_leaves
  rw [Connection.exec, wp_bind]
  apply wp_ok (Connection.activate_open isOpen)
  rw [wp_bind]
  apply wp_mono (request_latched isOpen sql) _ fun _ _ => False.elim
  intro r u requested
  obtain ⟨moored, latched⟩ := requested
  rw [wp_bind, Connection.makeResult, wp_bind]
  apply wp_mono (activate_latched latched) _ fun _ v onward => moored_framing.onward _ _ _ moored onward
  intro _ v activated
  obtain ⟨rfl, still⟩ := activated
  rw [wp_pure, wp_bind]
  have rest (r : Option Answer) : Keeps Moored (do
      let rows ← Connection.checkResult env r sql.text
      let _ ← Connection.getNotifs env
      pure rows : Client (List (List String))) := by
    apply keeps_bind moored_framing (check_result_moored r sql.text)
    exact fun _ => keeps_bind moored_framing notifs_moored fun _ => keeps_pure moored_framing _
  have same := @retry_latched env v sql retries r still
  rw [wp]
  cases retried : Connection.retry env sql retries r v with
  | mk outcome t =>
      rw [retried] at same
      obtain rfl : t = v := same
      cases outcome with
      | ok r => exact wp_mono (wp_keeps (rest r)) (fun _ _ => moored_framing.onward _ _ _ moored) fun _ _ => moored_framing.onward _ _ _ moored
      | error e => exact moored

theorem exempt_moored {work : Client Unit} (isOpen : w.conn.isOpen = true) (works : Moored w.exempted (work w.exempted).2) :
    Moored w (exempt work w).2 := by
  have stays : ¬ (w.conn.reactivationAvoidance ≠ 0 ∧ w.conn.isOpen = false) := by
    rw [isOpen]
    exact fun both => Bool.false_ne_true both.2.symm
  have entered : Moored w w.exempted := moored_conn rfl rfl
  cases ended : work w.exempted with
  | mk outcome u =>
      rw [ended] at works
      have left : ∃ v, leaveExemption w u = (.ok (), v) ∧ Moored u v := by
        rw [leaveExemption, bind_apply, when_skip _ _ _ stays]
        exact ⟨_, rfl, moored_conn rfl rfl⟩
      obtain ⟨v, left, after⟩ := left
      have onward := moored_framing.onward _ _ _ entered (moored_framing.onward _ _ _ works after)
      cases outcome with
      | ok _ =>
          rw [exempt_ok ended, left]
          exact onward
      | error e =>
          rw [exempt_error ended, left]
          exact onward

theorem swallow_leaves (m : Client Unit) : (Transaction.swallow m w).2 = (m w).2 := by
  rw [Transaction.swallow, try_catch_apply]
  cases m w with
  | mk outcome u =>
      cases outcome with
      | ok _ => rfl
      | error e => rfl

-- The statement goes out on the connection on which ROLLBACK was answered. When that is lost,
-- so is the record, which stays where it is.
theorem delete_record_moored (isOpen : w.conn.isOpen = true) : Moored w (Transaction.deleteTransactionRecord env i w).2 := by
  have checks : ∀ v : World, wp (Transaction.checkPendingError i) (fun _ u => u.conn = v.conn) (fun _ u => u.conn = v.conn) v := by
    intro v
    rw [Transaction.checkPendingError, wp_bind, wp_get]
    exact wp_ite _ _ _ _ _ _ (fun _ => rfl) fun _ => rfl
  have deletes (sql : Sql) (retries : Nat) : ∀ v : World, v.conn.isOpen = true → Moored v (Transaction.direct env i sql retries v).2 := by
    intro v isOpen
    have sends : Moored v (Transaction.directExec env i sql retries v).2 := by
      apply @bind_after World Exn _ _ Moored moored_framing fun u => u.conn.isOpen = true
      · apply wp_mono (checks v)
        · intro _ u same
          exact ⟨moored_conn (by rw [same]) (by rw [same]), by rw [same]; exact isOpen⟩
        · exact fun _ u same => moored_conn (by rw [same]) (by rw [same])
      · exact fun _ u isOpen => exec_open_moored isOpen sql retries
    exact bind_from moored_framing sends fun _ => keeps_pure moored_framing _
  rw [Transaction.deleteTransactionRecord, bind_apply, get_apply]
  dsimp only
  by_cases none_ : (w.trans i).recordId = 0
  · rw [if_pos none_]
    exact moored_framing.same w
  · rw [if_neg none_]
    apply bind_from moored_framing
    · rw [swallow_leaves]
      apply exempt_moored isOpen
      exact bind_from moored_framing (deletes _ 20 w.exempted isOpen) fun _ => turn_moored i _
    · exact fun _ => keeps_get fun v => keeps_when moored_framing _ (notice_moored _)

-- The transactions' counts may be taken to be nought.
theorem secured_get {α : Type} {f : World → Client α} (each : ∀ w, (∀ j, (w.trans j).reactivationAvoidance = 0) → Keeps Secured (f w)) :
    Keeps Secured (Prog.get >>= f) :=
  fun w => ⟨fun zero => (each w zero w).stable zero, fun avoiding => (each w avoiding.2 w).moored avoiding⟩

theorem turn_secured (j : Nat) (f : Transaction → Transaction)
    (count : ∀ x : Transaction, x.reactivationAvoidance = 0 → (f x).reactivationAvoidance = 0) : Keeps Secured (modifyTrans j f) :=
  secured_moored (stable_turn j f count) (turn_moored j f)

theorem members_secured (f : Connection → Connection) (handle : ∀ c, (f c).handle = c.handle) (completed : ∀ c, (f c).completed = c.completed)
    (count : ∀ c, (f c).reactivationAvoidance = c.reactivationAvoidance) : Keeps Secured (modifyConn f) :=
  fun w => ⟨stable_same (count w.conn) rfl, fun _ => moored_conn (handle w.conn) (completed w.conn)⟩

theorem exec_secured (sql : Sql) (retries : Nat) : Keeps Secured (Connection.exec env sql retries) := by
  apply Connection.exec_requested secured_errands
  exact secured_moored (pq_exec_keeps stable_upkeep (stable_request sql)) (request_moored sql)

theorem sub_commit_secured (parent : Nat) : Keeps Secured (Transaction.subCommit env i parent) := by
  apply secured_get
  intro w zero
  dsimp only
  rw [zero i]
  apply keeps_bind secured_framing (turn_secured i (fun x => { x with reactivationAvoidance := 0 }) fun _ _ => rfl)
  intro _
  apply keeps_bind secured_framing (dropped_errand (@secured_errands env) (Transaction.direct_exec_errand (@secured_errands env) _ (by trivial) 0))
  exact fun _ => turn_secured parent _ fun x none_ => (Int.add_zero _).trans none_

theorem secured_services : Services env Secured where
  toErrands := secured_errands
  execs := exec_secured
  clears i := turn_secured i _ fun _ _ => rfl
  deletes i w isOpen := ⟨Transaction.delete_transaction_record_open (@stable_ledger env).chores i w isOpen, fun _ => delete_record_moored isOpen⟩
  hands _ parent := sub_commit_secured parent

theorem unregister_secured : Keeps Secured (Connection.unregisterTransaction i) := by
  apply keeps_get
  intro w
  cases w.conn.trans with
  | none => exact (@secured_errands .calm).notices _
  | some old =>
      apply keeps_ite
      · exact members_secured _ (fun _ => rfl) (fun _ => rfl) fun _ => rfl
      · exact (@secured_errands .calm).notices _

theorem secured_dealings : Dealings env Secured where
  toServices := secured_services
  settles i _ := turn_secured i _ fun _ => id
  strikes i := turn_secured i _ fun _ => id
  resigns _ := unregister_secured
  yields i := by
    apply secured_get
    intro w zero
    rw [zero i]
    have same : Keeps Secured (modifyConn fun c => { c with reactivationAvoidance := c.reactivationAvoidance + 0 }) :=
      members_secured _ (fun _ => rfl) (fun _ => rfl) fun _ => Int.add_zero _
    exact keeps_bind secured_framing same fun _ => turn_secured i _ fun _ _ => rfl
  begins i := secured_moored ((@stable_lifetime env).begins i) fun _ => moored_conn rfl rfl

theorem open_work_secured (kind : Kind) (classname name startArgs logTable : String) :
    Keeps Secured (openWork env i kind classname name startArgs logTable) := by
  have registers : Keeps Secured (Connection.registerTransaction i) := by
    apply keeps_get
    intro w
    cases w.conn.trans with
    | none => exact members_secured _ (fun _ => rfl) (fun _ => rfl) fun _ => rfl
    | some old => exact keeps_ite _ (keeps_throw secured_framing _) (keeps_throw secured_framing _)
  apply keeps_bind secured_framing (turn_secured i _ fun _ _ => rfl)
  intro _
  apply keeps_bind secured_framing registers
  exact fun _ => keeps_bind secured_framing (turn_secured i _ fun _ => id) fun _ => Transaction.begin_dealing secured_dealings

theorem adorn_secured (n : String) : Keeps Secured (Connection.adornName n) := by
  apply keeps_bind secured_framing
  · exact members_secured (fun c => { c with uniqueId := c.uniqueId + 1 }) (fun _ => rfl) (fun _ => rfl) fun _ => rfl
  · exact fun _ => keeps_get fun _ => keeps_pure secured_framing _

theorem open_subtransaction_secured (parent : Nat) (name : String) : Keeps Secured (openSubtransaction i parent name) :=
  keeps_bind secured_framing (adorn_secured name) fun _ => turn_secured i _ fun _ _ => rfl

-- What a cursor object does to the count comes last.
def Bound (w w' : World) : Prop := w.Avoiding → Moored w w'

theorem bound_last {α β : Type} {m : Client β} {f : β → Client α} (first : Keeps Secured m) (rest : ∀ b, Keeps Bound (f b)) :
    Keeps Bound (m >>= f) := by
  apply keeps_last _ _ first rest
  · exact fun _ _ secured => secured.moored
  · exact fun _ _ _ secured bound avoiding =>
      moored_framing.onward _ _ _ (secured.moored avoiding) (bound (stable_avoiding avoiding secured.stable))

theorem count_moored (b : Prop) [Decidable b] (n : Int) : Keeps Moored (Prog.when b (addReactivationAvoidanceCount n)) :=
  keeps_when moored_framing b fun _ => moored_conn rfl rfl

theorem create_cursor_bound (query cname : String) (ap : AccessPolicy) (up : UpdatePolicy) (op : OwnershipPolicy) (hold : Bool) :
    Keeps Bound (createCursor env i query cname ap up op hold) := by
  apply bound_last (adorn_secured cname)
  intro name
  apply keeps_ite
  · exact fun w _ => moored_framing.same w
  · apply bound_last (@secured_errands env).activates
    intro _
    apply bound_last (Transaction.exec_sql_dealing secured_dealings _ _)
    intro _
    apply bound_last (Transaction.exec_sql_dealing secured_dealings _ _)
    intro emptyResult w _
    exact keeps_bind moored_framing (count_moored _ 1) (fun _ => keeps_pure moored_framing _) w

theorem close_cursor_bound (cur : CursorObject) : Keeps Bound (closeCursor env cur) := by
  apply keeps_ite
  · apply bound_last
    · exact keeps_try_catch secured_framing (Connection.exec_unit_errand secured_errands _ (by trivial) 0) fun _ => keeps_pure secured_framing _
    · intro _ w _
      exact keeps_bind moored_framing (count_moored _ (-1)) (fun _ => keeps_pure moored_framing _) w
  · exact fun w _ => moored_framing.same w

end

namespace CursorSession

-- A step of a client that still has a WITH HOLD cursor, and keeps the count right.
structure Sheltered (s : CursorSession) (use : CursorUse) : Prop where
  safe : s.Safe use
  held : s.held ≠ []

section

variable {env : Outside} {s : CursorSession}

theorem keep_world (hold : Bool) (r : Except Exn CursorObject × World) : (s.keep hold r).world = r.2 := by
  rcases r with ⟨outcome, world⟩
  cases outcome with
  | ok cur => rfl
  | error e => rfl

theorem closed_world (cur : CursorObject) (f : CursorObject → List CursorObject) :
    (s.closed env cur f).world = (closeCursor env cur s.world).2 := by
  rw [closed]
  rcases closeCursor env cur s.world with ⟨outcome, world⟩
  cases outcome with
  | ok cur => rfl
  | error e => rfl

theorem step_moored (bare : s.Bare) (counted : s.count ≠ 0) (use : CursorUse) :
    Moored s.world (step env s use).world := by
  have avoiding : s.world.Avoiding := ⟨counted, bare⟩
  have closes (cur : CursorObject) (f : CursorObject → List CursorObject) : Moored s.world (s.closed env cur f).world := by
    rw [closed_world]
    exact close_cursor_bound cur s.world avoiding
  cases use with
  | create i query cname ap up op hold =>
      rw [step, keep_world]
      exact create_cursor_bound query cname ap up op hold s.world avoiding
  | adopt cname op =>
      rw [step, keep_world]
      exact keeps_bind moored_framing (count_moored _ (-1)) (fun _ => keeps_pure moored_framing _) s.world
  | close k =>
      rw [step]
      cases s.cursors[k]? with
      | none => exact moored_framing.same s.world
      | some cur => exact closes cur fun cur' => s.cursors.set k cur'
  | destroy k =>
      rw [step]
      cases s.cursors[k]? with
      | none => exact moored_framing.same s.world
      | some cur => exact closes cur fun _ => s.cursors.eraseIdx k
  | openWork i kind classname name startArgs logTable => exact (open_work_secured kind classname name startArgs logTable s.world).moored avoiding
  | openSubtransaction i parent name => exact (open_subtransaction_secured parent name s.world).moored avoiding
  | work i op => exact (perform_dealing secured_dealings op s.world).moored avoiding
  | activate => exact ((@secured_errands env).activates s.world).moored avoiding
  | deactivate => exact ((@secured_errands env).deactivates s.world).moored avoiding
  | reset => exact ((@secured_errands env).resets s.world).moored avoiding
  | simulateFailure => exact (Connection.simulate_failure_errand (@secured_errands env) s.world).moored avoiding

-- Where the steps before were safe, the count is there for as long as a cursor is.
theorem sheltered_moored (bare : s.Bare) (balanced : Balanced env s) (uses : List CursorUse)
    (sheltered : Along Sheltered (step env) s uses) : Moored s.world (run (step env) s uses).world := by
  have preserved : ∀ t use, t.Sheltered use → t.Bare ∧ Balanced env t ∧ Moored s.world t.world →
      (step env t use).Bare ∧ Balanced env (step env t use) ∧ Moored s.world (step env t use).world := by
    intro t use sheltered held
    obtain ⟨bare, balanced, moored⟩ := held
    refine ⟨step_bare use bare, (step_iff use bare balanced).mpr sheltered.safe, ?_⟩
    have counted : t.count ≠ 0 := fun none_ => sheltered.held (balanced.back.mp none_)
    exact moored_framing.onward _ _ _ moored (step_moored bare counted use)
  exact (run_invariant Sheltered (step env) _ preserved s uses sheltered ⟨bare, balanced, moored_framing.same s.world⟩).2.2

theorem safe_balanced (policy : Policy) (uses : List CursorUse) (safe : Along Safe (step env) (.start policy) uses) :
    (run (step env) (.start policy) uses).Bare ∧ Balanced env (run (step env) (.start policy) uses) := by
  apply run_invariant Safe (step env) (fun t => t.Bare ∧ Balanced env t) _ _ uses safe
  · exact ⟨fun _ => rfl, start_balanced env policy⟩
  · intro t use safe held
    exact ⟨step_bare use held.1, (step_iff use held.1 held.2).mpr safe⟩

end

end CursorSession

-- For as long as there is a WITH HOLD cursor, no other session takes the place of the one that has it.
theorem held_session_stays (env : Outside) (policy : Policy) (before uses : List CursorUse)
    (safe : Along CursorSession.Safe (CursorSession.step env) (.start policy) before)
    (sheltered : Along CursorSession.Sheltered (CursorSession.step env) (run (CursorSession.step env) (.start policy) before) uses) :
    Moored (run (CursorSession.step env) (.start policy) before).world
      (run (CursorSession.step env) (.start policy) (before ++ uses)).world := by
  obtain ⟨bare, balanced⟩ := CursorSession.safe_balanced policy before safe
  rw [run_append]
  exact CursorSession.sheltered_moored bare balanced uses sheltered

-- A cursor outlives its transaction, and then BEGIN finds the connection broken.
theorem held_session_stays_closed :
    let env := { Outside.calm with fate := fun t => if t = 10 then .lostBefore else .answered }
    let before : List CursorUse := [.openWork 0 .work "transaction" "" "" "",
      .create 0 "SELECT * FROM t" "cur" .forwardOnly .readOnly .owned true, .work 0 .commit]
    let uses : List CursorUse := [.openWork 1 .work "transaction" "" "" "", .activate, .reset]
    Moored (run (CursorSession.step env) (.start .lazy) before).world (run (CursorSession.step env) (.start .lazy) (before ++ uses)).world ∧
      (run (CursorSession.step env) (.start .lazy) (before ++ uses)).world.conn.isOpen = false := by
  intro env before uses
  refine ⟨held_session_stays env .lazy before uses ⟨trivial, trivial, trivial, trivial⟩ ?_, by decide +kernel⟩
  exact ⟨⟨trivial, by decide +kernel⟩, ⟨trivial, by decide +kernel⟩, ⟨trivial, by decide +kernel⟩, trivial⟩

end Pqxx
