import Pqxx.ConnectionSpec

set_option autoImplicit false

namespace Pqxx

open Lib Prog

theorem tended_request (env : Outside) (sql : Sql) : Request env (fun w w' => Tended w.conn w'.conn) sql where
  asks := fun w => tended_handle w.conn _
  served := fun w => tended_handle w.conn _

def Fate.loses : Fate → Bool
  | .lostBefore | .lostAfter => true
  | .answered | .nullBefore | .nullAfter => false

-- What is left of a world whose connection has been given up.
def World.givenUp (w : World) : World :=
  { w with conn := { w.conn with handle := none, completed := false }, server := w.server.newSession }

-- What Exec() makes of its last attempt.
def Connection.conclude (env : Outside) (sql : Sql) (r : Option Answer) : Client (List (List String)) := do
  let rows ← Connection.checkResult env r sql.text
  let _ ← Connection.getNotifs env
  pure rows

-- Retrying as Exec() means it: what becomes of a statement sent in w with so many retries
-- left, and after how many attempts.
inductive Retried (env : Outside) (sql : Sql) : Nat → World → Nat → Except Exn (List (List String)) → World → Prop
  | settled (retries : Nat) (w v w' : World) (r : Option Answer) (outcome : Except Exn (List (List String)))
      (sent : pqExec env sql w = (.ok r, v)) (stands : r ≠ none ∨ v.conn.isOpen = true)
      (ending : Connection.conclude env sql r v = (outcome, w')) : Retried env sql retries w 1 outcome w'
  | exhausted (w v w' : World) (e : Exn) (sent : pqExec env sql w = (.ok none, v)) (closed : v.conn.isOpen = false)
      (broken : e.kind = .brokenConnection) (cut : Cut v w' v.server) (silent : w'.sent = v.sent) :
      Retried env sql 0 w 1 (.error e) w'
  | stuck (retries : Nat) (w v w' : World) (e : Exn) (sent : pqExec env sql w = (.ok none, v)) (closed : v.conn.isOpen = false)
      (failed : Connection.reset env v = (.error e, w')) : Retried env sql (retries + 1) w 1 (.error e) w'
  | again (retries tries : Nat) (w v u w' : World) (outcome : Except Exn (List (List String)))
      (sent : pqExec env sql w = (.ok none, v)) (closed : v.conn.isOpen = false)
      (through : Connection.reset env v = (.ok (), u)) (isOpen : u.conn.isOpen = true)
      (rest : Retried env sql retries u tries outcome w') : Retried env sql (retries + 1) w (tries + 1) outcome w'

-- Exec() connects where it has to, and retries as it means to.
def RetriesAsMeant (env : Outside) (sql : Sql) (retries : Nat) (w : World) : Prop :=
  match Connection.activate env w with
  | (.error e, v) => Connection.exec env sql retries w = (.error e, v)
  | (.ok (), v) => v.conn.isOpen = true ∧ ∃ tries, tries ≤ retries + 1 ∧
      Retried env sql retries v tries (Connection.exec env sql retries w).1 (Connection.exec env sql retries w).2

section

variable {env : Outside} {sql : Sql} {w : World}

theorem retried_bound {retries tries : Nat} {outcome : Except Exn (List (List String))} {w' : World}
    (retried : Retried env sql retries w tries outcome w') : tries ≤ retries + 1 := by
  induction retried with
  | settled retries => exact Nat.le_add_left 1 retries
  | exhausted => exact Nat.le_refl 1
  | stuck retries => exact Nat.le_add_left 1 (retries + 1)
  | again retries tries _ _ _ _ _ _ _ _ _ _ ih => exact Nat.succ_le_succ ih

theorem retried_later {retries tries : Nat} {outcome : Except Exn (List (List String))} {w' : World}
    (retried : Retried env sql retries w tries outcome w') : w.clock ≤ w'.clock := by
  have back := later_background env
  have sending : ∀ w v : World, ∀ r, pqExec env sql w = (.ok r, v) → w.clock ≤ v.clock := by
    intro w v r sent
    have later := pq_exec_keeps back.upkeep (later_request env sql) w
    rw [sent] at later
    exact later
  have resetting : ∀ v u : World, ∀ r, Connection.reset env v = (r, u) → v.clock ≤ u.clock := by
    intro v u r reset
    have later := Connection.reset_keeps back.upkeep v
    rw [reset] at later
    exact later
  induction retried with
  | settled _ w v w' r outcome sent _ ending =>
      have concluding : Keeps Later (Connection.conclude env sql r) :=
        keeps_bind back.toFraming (Connection.check_result_keeps back.upkeep r _) fun rows =>
          keeps_bind back.toFraming (Connection.get_notifs_keeps back.upkeep) fun _ => keeps_pure back.toFraming rows
      have later := concluding v
      rw [ending] at later
      exact Nat.le_trans (sending _ _ _ sent) later
  | exhausted w v w' e sent _ _ cut _ => exact Nat.le_trans (sending _ _ _ sent) cut.later
  | stuck _ w v w' e sent _ failed => exact Nat.le_trans (sending _ _ _ sent) (resetting _ _ _ failed)
  | again _ _ w v u w' _ sent _ through _ _ ih =>
      exact Nat.le_trans (Nat.le_trans (sending _ _ _ sent) (resetting _ _ _ through)) ih

namespace Connection

-- A connection that has gone bad is given up: reset() would have made a new one of it.
theorem activate_gives_up (h : Handle) (handle : w.conn.handle = some h) (status : h.status = .bad)
    (free : w.conn.inhibitReactivation = false) (unavoided : w.conn.reactivationAvoidance = 0) :
    activate env w = (.error { kind := .brokenConnection, what := "Connection to database failed" }, w.givenUp) := by
  have shut : ¬ w.conn.isOpen = true := by simp [Connection.isOpen, handle, status]
  have uninhibited : ¬ w.conn.inhibitReactivation = true := by simp [free]
  have unavoided : ¬ w.conn.reactivationAvoidance ≠ 0 := fun avoided => avoided unavoided
  have isBroken : ({ kind := .brokenConnection, what := "Connection to database failed" } : Exn).isA .brokenConnection = true := rfl
  simp only [activate, activateWith, Prog.bind_apply, Prog.get_apply, if_neg shut, if_neg uninhibited, if_neg unavoided,
    Prog.try_catch_apply, connect_bad h handle status]
  rw [if_pos isBroken]
  simp only [Prog.bind_apply, disconnect, doDisconnect, pqFinish, Prog.modify_apply, setCompleted, modifyConn, handle,
    Option.isSome_some, if_true, fault, Prog.throw_apply]
  rfl

theorem reset_ticks (handle : ∃ h, w.conn.handle = some h) (free : w.conn.inhibitReactivation = false)
    (unavoided : w.conn.reactivationAvoidance = 0) : w.clock < (reset env w).2.clock := by
  obtain ⟨h, handle⟩ := handle
  have back := later_background env
  have uninhibited : ¬ w.conn.inhibitReactivation = true := by simp [free]
  have unavoided : ¬ w.conn.reactivationAvoidance ≠ 0 := fun avoided => avoided unavoided
  have there : w.conn.handle.isSome = true := by simp [handle]
  have connecting : ∀ v : World, v.clock = w.clock → w.clock < (pqConnect env v).2.clock := by
    intro v same
    have later : v.clock < (pqConnect env v).2.clock := by
      simp only [pqConnect, tick, Prog.bind_apply, Prog.gets_apply, Prog.modify_apply, Prog.pure_apply]
      cases env.greets v.clock with
      | none => exact Nat.lt_succ_self _
      | some greeting => exact Nat.lt_succ_self _
    omega
  simp only [reset, Prog.bind_apply, Prog.get_apply, if_neg uninhibited, if_neg unavoided, setCompleted, modifyConn, Prog.modify_apply,
    if_pos there]
  have rest : ∀ connected : Bool, Keeps Later (do
      Prog.when (connected = false) (Prog.modify World.lose)
      setupState env) := fun connected =>
    keeps_bind back.toFraming (keeps_when back.toFraming _ (lose_keeps back.upkeep)) fun _ => setup_level_keeps back.upkeep 2
  have first := connecting { w with conn := { w.conn with completed := false } } rfl
  split
  · rename_i connected v outcome
    rw [outcome] at first
    exact Nat.lt_of_lt_of_le first (rest connected v)
  · rename_i e v outcome
    rw [outcome] at first
    exact first

-- The end of an attempt in which the connection is lost: no result, and a bad handle.
theorem pq_exec_loses (isOpen : w.conn.isOpen = true) (lost : (env.fate w.clock).loses = true) :
    ∃ v h, pqExec env sql w = (.ok none, v) ∧ v.conn.handle = some h ∧ h.status = .bad ∧ Tended w.conn v.conn := by
  obtain ⟨h, handle, status, _⟩ := open_handle isOpen
  have sent := @pq_exec_apply env w sql h handle status
  have tended := pq_exec_keeps (tended_upkeep env) (tended_request env sql) w
  cases fate : env.fate w.clock with
  | answered | nullBefore | nullAfter =>
      rw [fate] at lost
      cases lost
  | lostBefore | lostAfter =>
      rw [fate] at sent
      rw [sent] at tended
      refine ⟨_, { h with status := .bad, unread := [], active := false, copying := none }, sent, ?_, rfl, tended⟩
      simp only [World.lose, World.ask, World.serve, handle, Option.map_some]

theorem exec_loses (isOpen : w.conn.isOpen = true) (free : w.conn.inhibitReactivation = false)
    (unavoided : w.conn.reactivationAvoidance = 0) (lost : (env.fate w.clock).loses = true) (retries : Nat) :
    ∃ v h, pqExec env sql w = (.ok none, v) ∧ v.conn.handle = some h ∧ h.status = .bad ∧ Tended w.conn v.conn ∧
      exec env sql retries w = (.error { kind := .brokenConnection, what := "Connection to database failed" }, v.givenUp) := by
  obtain ⟨v, h, sent, handle, status, tended⟩ := @pq_exec_loses env sql w isOpen lost
  have gives := @activate_gives_up env v h handle status (tended.inhibitReactivation.trans free)
    (tended.reactivationAvoidance.trans unavoided)
  refine ⟨v, h, sent, handle, status, tended, ?_⟩
  simp only [exec, makeResult, Prog.bind_apply, activate_open isOpen, sent, gives]

-- An attempt that the connection survives is the last one.
theorem exec_settles (isOpen : w.conn.isOpen = true) (stays : (env.fate w.clock).loses = false) (retries : Nat) :
    Retried env sql retries w 1 (exec env sql retries w).1 (exec env sql retries w).2 := by
  obtain ⟨h, handle, status, _⟩ := open_handle isOpen
  have sent := @pq_exec_apply env w sql h handle status
  have settles : ∀ (r : Option Answer) (v : World), pqExec env sql w = (.ok r, v) → v.conn.isOpen = true →
      Retried env sql retries w 1 (exec env sql retries w).1 (exec env sql retries w).2 := by
    intro r v sent still
    refine .settled retries w v _ r _ sent (.inr still) ?_
    simp only [exec, conclude, Prog.bind_apply, activate_open isOpen, sent, make_result_open still,
      retry_settled r (.inr still) retries]
  cases fate : env.fate w.clock with
  | answered =>
      rw [fate] at sent
      exact settles _ _ sent (answered_open.trans isOpen)
  | nullBefore | nullAfter =>
      rw [fate] at sent
      exact settles _ _ sent ((asked_open [sql] false).trans isOpen)
  | lostBefore | lostAfter =>
      rw [fate] at stays
      cases stays

-- Without retries there is nothing left to do once the connection is lost.
theorem exec_exhausts (isOpen : w.conn.isOpen = true) (free : w.conn.inhibitReactivation = false)
    (unavoided : w.conn.reactivationAvoidance = 0) (lost : (env.fate w.clock).loses = true) :
    Retried env sql 0 w 1 (exec env sql 0 w).1 (exec env sql 0 w).2 := by
  obtain ⟨v, h, sent, handle, status, _, gives⟩ := @exec_loses env sql w isOpen free unavoided lost 0
  have closed : v.conn.isOpen = false := by simp [Connection.isOpen, handle, status]
  rw [gives]
  exact .exhausted w v v.givenUp _ sent closed rfl ⟨rfl, rfl, rfl, ⟨none, false, rfl⟩, Nat.le_refl _⟩ rfl

-- With retries left the exception of makeResult() comes first, and nothing is reset.
theorem exec_never_retries (isOpen : w.conn.isOpen = true) (free : w.conn.inhibitReactivation = false)
    (unavoided : w.conn.reactivationAvoidance = 0) (lost : (env.fate w.clock).loses = true) (retries tries : Nat) :
    ¬ Retried env sql (retries + 1) w tries (exec env sql (retries + 1) w).1 (exec env sql (retries + 1) w).2 := by
  obtain ⟨v, h, sent, handle, status, tended, gives⟩ := @exec_loses env sql w isOpen free unavoided lost (retries + 1)
  have closed : v.conn.isOpen = false := by simp [Connection.isOpen, handle, status]
  have ticks := @reset_ticks env v ⟨h, handle⟩ (tended.inhibitReactivation.trans free) (tended.reactivationAvoidance.trans unavoided)
  have still : (exec env sql (retries + 1) w).2.clock = v.clock := by
    rw [gives]
    rfl
  intro retried
  generalize exec env sql (retries + 1) w = ended at retried still
  obtain ⟨outcome, w'⟩ := ended
  have same : ∀ (r : Option Answer) (u : World), pqExec env sql w = (.ok r, u) → r = none ∧ u = v := by
    intro r u again
    rw [sent] at again
    cases again
    exact ⟨rfl, rfl⟩
  cases retried with
  | settled _ _ u _ r _ sent stands _ =>
      obtain ⟨rfl, rfl⟩ := same r u sent
      rcases stands with some_ | isOpen
      · exact some_ rfl
      · rw [closed] at isOpen
        cases isOpen
  | stuck _ _ u _ e sent _ failed =>
      obtain ⟨_, rfl⟩ := same none u sent
      rw [failed] at ticks
      simp only at ticks still
      omega
  | again _ tries _ u x _ _ sent _ through _ rest =>
      obtain ⟨_, rfl⟩ := same none u sent
      rw [through] at ticks
      have later := retried_later rest
      simp only at ticks still later
      omega

end Connection

theorem activate_opens (unavoided : w.conn.reactivationAvoidance = 0) {v : World} (activated : Connection.activate env w = (.ok (), v)) :
    v.conn.isOpen = true ∧ Tended w.conn v.conn := by
  have tended := Connection.activate_keeps (tended_upkeep env) w
  have settled := @Connection.activate_ends env w
  simp only [wp, activated] at settled tended
  rcases settled with isOpen | avoided
  · exact ⟨isOpen, tended⟩
  · exact absurd (tended.reactivationAvoidance.trans unavoided) avoided

-- exec() past its call of activate() is exec() where the connection is open.
theorem exec_from (retries : Nat) {v : World} (activated : Connection.activate env w = (.ok (), v)) (isOpen : v.conn.isOpen = true) :
    Connection.exec env sql retries w = Connection.exec env sql retries v := by
  simp only [Connection.exec, Prog.bind_apply, activated, Connection.activate_open isOpen]

end

theorem exec_retries (env : Outside) (sql : Sql) (retries : Nat) (w : World) (free : w.conn.inhibitReactivation = false)
    (unavoided : w.conn.reactivationAvoidance = 0) :
    RetriesAsMeant env sql retries w ↔
      retries = 0 ∨ ∀ v, Connection.activate env w = (.ok (), v) → (env.fate v.clock).loses = false := by
  unfold RetriesAsMeant
  cases activated : Connection.activate env w with
  | mk outcome v =>
      cases outcome with
      | error e =>
          refine iff_of_true ?_ (.inr fun u there => ?_)
          · simp only [Connection.exec, Prog.bind_apply, activated]
          · cases there
      | ok done =>
          obtain ⟨isOpen, tended⟩ := activate_opens unavoided activated
          have freed := tended.inhibitReactivation.trans free
          have unavoided := tended.reactivationAvoidance.trans unavoided
          simp only [exec_from retries activated isOpen]
          cases lost : (env.fate v.clock).loses with
          | false =>
              refine iff_of_true ⟨isOpen, 1, Nat.le_add_left 1 retries, Connection.exec_settles isOpen lost retries⟩ (.inr fun u there => ?_)
              cases there
              exact lost
          | true =>
              cases retries with
              | zero => exact iff_of_true ⟨isOpen, 1, Nat.le_refl 1, Connection.exec_exhausts isOpen freed unavoided lost⟩ (.inl rfl)
              | succ retries =>
                  refine iff_of_false ?_ ?_
                  · rintro ⟨_, tries, _, retried⟩
                    exact Connection.exec_never_retries isOpen freed unavoided lost retries tries retried
                  · rintro (none_ | stays)
                    · cases none_
                    · have still := stays v rfl
                      rw [lost] at still
                      cases still

theorem exec_retries_calm : RetriesAsMeant Outside.calm (.showVar "datestyle") 2 (World.initial .lazy) :=
  (exec_retries Outside.calm (.showVar "datestyle") 2 (World.initial .lazy) rfl rfl).mpr (.inr fun _ _ => rfl)

-- The connection breaks under the first attempt; the backend could be reached again.
def flaky : Outside := { Outside.calm with fate := fun t => if t = 1 then .lostBefore else .answered }

theorem exec_retries_fails : ¬ RetriesAsMeant flaky (.showVar "datestyle") 2 (World.initial .lazy) := by
  rintro claimed
  have activated : Connection.activate flaky (World.initial .lazy) = (.ok (), (Connection.activate flaky (World.initial .lazy)).2) := rfl
  unfold RetriesAsMeant at claimed
  rw [activated] at claimed
  obtain ⟨isOpen, tries, _, retried⟩ := claimed
  rw [exec_from 2 activated isOpen] at retried
  exact Connection.exec_never_retries isOpen rfl rfl rfl 1 tries retried

end Pqxx
