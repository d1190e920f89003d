import Pqxx.Lib.Run
import Pqxx.SessionSetup

set_option autoImplicit false

namespace Pqxx

open Lib Prog

-- What is done with prepared statements, to the connection they are for, and in between.
inductive RegistryOp where
  | prepare (name definition : String)
  | unprepare (name : String)
  | prepareNow (name : String)
  | preparedExec (i : Nat) (name : String) (args : List (Option String))
  | begin (args : String)
  | commit
  | rollback
  | statement (i : Nat) (text : String) (retries : Nat)
  | getNotifs
  | activate
  | reset
  | deactivate
  | disconnect
deriving DecidableEq, Repr

namespace Connection

-- prepare_now().
def prepareNow (env : Outside) (name : String) : Client Unit := registerPrepared env name

end Connection

def RegistryOp.perform (env : Outside) : RegistryOp → Client Unit
  | .prepare name definition => Connection.prepare name definition
  | .unprepare name => Connection.unprepare env name
  | .prepareNow name => Connection.prepareNow env name
  | .preparedExec i name args => do
      let _ ← Connection.preparedExec env i name args
      pure ()
  | .begin args => do
      let _ ← Connection.exec env (.begin args) 2
      pure ()
  | .commit => do
      let _ ← Connection.exec env .commit 0
      pure ()
  | .rollback => do
      let _ ← Connection.exec env .rollback 0
      pure ()
  | .statement i text retries => do
      let _ ← Connection.exec env (.statement i text []) retries
      pure ()
  | .getNotifs => do
      let _ ← Connection.getNotifs env
      pure ()
  | .activate => Connection.activate env
  | .reset => Connection.reset env
  | .deactivate => Connection.deactivate
  | .disconnect => Connection.disconnect

def registryStep (env : Outside) (w : World) (op : RegistryOp) : World := (op.perform env w).2

def Server.Unprepared (s : Server) : Prop := s.prepared = []

-- What the client has marked is what the session has.
structure Registry (w : World) : Prop where
  regardless : w.conn.reactivationAvoidance = 0
  nameless : ∀ p, w.conn.prepared.find "" = some p → p.registered = false
  raw : w.conn.isOpen = false → Raw w.conn Server.Unprepared w
  marked : w.conn.isOpen = true → ∀ name p, w.conn.prepared.find name = some p → p.registered = true →
    w.server.prepared.lookup name = some p.definition
  session : w.conn.isOpen = true → ∀ name, name ≠ "" → (w.server.prepared.lookup name).isSome = true →
    ∃ p, w.conn.prepared.find name = some p ∧ p.registered = true

-- The statements known to the client are still the same.
def SameStatements (w w' : World) : Prop :=
  ∀ name, (w'.conn.prepared.find name).map PreparedDef.definition = (w.conn.prepared.find name).map PreparedDef.definition

section

variable {env : Outside} {t : Nat} {s : Server} {w u : World}

theorem serve_prepared (i : Nat) (sql : Sql) : (s.serve env t i sql).2.prepared = match (s.serve env t i sql).1 with
    | .rows _ => (s.prepare sql).prepared
    | .failed _ => s.prepared := by
  have kept (command : String) (error : SqlError) (store : Option (Store View)) :
      (s.keep command error store).2.prepared = match (s.keep command error store).1 with
        | .rows _ => s.prepared
        | .failed _ => s.prepared := by
    cases store <;> rfl
  have runs : (s.run env t sql).2.prepared = match (s.run env t sql).1 with
      | .rows _ => (s.prepare sql).prepared
      | .failed _ => s.prepared := by
    simp only [Server.run]
    split
    · rfl
    · split <;> rfl
  rw [Server.serve]
  split
  · rfl
  · cases sql with
    | begin args =>
        simp only [Server.perform]
        split <;> rfl
    | commit => rfl
    | rollback => rfl
    | savepoint name => exact kept _ _ _
    | release name => exact kept _ _ _
    | rollbackTo name => exact kept _ _ _
    | _ => exact runs

-- Few statements are about prepared statements.
theorem serve_same {sql : Sql} (other : s.prepare sql = s) (i : Nat) : (s.serve env t i sql).2.prepared = s.prepared := by
  rw [serve_prepared, other]
  split <;> rfl

theorem batch_unprepared (batch : List Sql) (restoring : ∀ sql ∈ batch, sql.restoring) (unprepared : s.Unprepared) :
    (s.serveBatch env t batch).2.Unprepared := by
  refine serve_batch_keeps batch Server.Unprepared (fun i sql s among unprepared => ?_) (fun _ _ _ => id) unprepared
  have other : s.prepare sql = s := by
    have := restoring sql among
    cases sql <;> first | rfl | exact this.elim
  exact (serve_same other i).trans unprepared

theorem unprepared_restoring (c : Connection) : Restoring env 0 (Connection.restoreQuery c) Server.Unprepared Server.Unprepared where
  begins _ := rfl
  sends _ _ _ := batch_unprepared _ (Connection.restore_query_restoring c)
  again _ _ _ := batch_unprepared _ (Connection.restore_query_restoring c)
  unsent _ _ _ _ := id

theorem same_tended (tended : Tended w.conn u.conn) : SameStatements w u := by
  intro name
  rcases tended.prepared with same | unmarked
  · rw [same]
  · rw [unmarked, OrdMap.find_map_values, Option.map_map]
    rfl

theorem same_trans {v : World} (one : SameStatements w u) (two : SameStatements u v) : SameStatements w v :=
  fun name => (two name).trans (one name)

theorem nameless_tended (registry : Registry w) (tended : Tended w.conn u.conn) (p : PreparedDef)
    (found : u.conn.prepared.find "" = some p) : p.registered = false := by
  rcases tended.prepared with same | unmarked
  · exact registry.nameless p (same ▸ found)
  · rw [unmarked, OrdMap.find_map_values] at found
    obtain ⟨_, _, rfl⟩ := Option.map_eq_some_iff.mp found
    rfl

theorem raw_self (raw : Raw w.conn Server.Unprepared u) : Raw u.conn Server.Unprepared u := ⟨tended_refl _, raw.begun⟩

-- A session that has just been set up.
theorem ripe_registry (registry : Registry w) (ripe : Ripe 0 w.conn Server.Unprepared u) (isOpen : u.conn.isOpen = true) : Registry u := by
  obtain ⟨h, handle, ok, _⟩ := open_handle isOpen
  obtain ⟨h', handle', _, good⟩ := ripe.restored
  rw [handle] at handle'
  obtain rfl := Option.some.inj handle'
  obtain ⟨_, unprepared, unmarked⟩ := good ok
  have all : ∀ name p, u.conn.prepared.find name = some p → p.registered = false := by
    intro name p found
    rw [← unmarked, OrdMap.find_map_values] at found
    obtain ⟨_, _, rfl⟩ := Option.map_eq_some_iff.mp found
    rfl
  constructor
  case regardless => exact ripe.tended.reactivationAvoidance.trans registry.regardless
  case nameless => exact all ""
  case raw =>
    intro closed
    rw [isOpen] at closed
    cases closed
  case marked =>
    intro _ name p found registered
    rw [all name p found] at registered
    cases registered
  case session =>
    intro _ name _ there
    rw [show u.server.prepared = [] from unprepared] at there
    cases there

theorem raw_registry (registry : Registry w) (raw : Raw w.conn Server.Unprepared u) (closed : u.conn.isOpen = false) : Registry u := by
  constructor
  case regardless => exact raw.tended.reactivationAvoidance.trans registry.regardless
  case nameless => exact nameless_tended registry raw.tended
  case raw => exact fun _ => raw_self raw
  case marked =>
    intro isOpen
    rw [closed] at isOpen
    cases isOpen
  case session =>
    intro isOpen
    rw [closed] at isOpen
    cases isOpen

theorem down_registry (registry : Registry w) (down : Down w.conn u) : Registry u :=
  raw_registry registry (raw_down down) (down_closed down)

-- Where the same session goes on with the same marks.
theorem still_registry (registry : Registry w) (before : w.conn.isOpen = true) (isOpen : u.conn.isOpen = true)
    (regardless : u.conn.reactivationAvoidance = 0) (prepared : u.conn.prepared = w.conn.prepared)
    (server : u.server.prepared = w.server.prepared) : Registry u := by
  constructor
  case regardless => exact regardless
  case nameless => rw [prepared]; exact registry.nameless
  case raw =>
    intro closed
    rw [isOpen] at closed
    cases closed
  case marked => rw [prepared, server]; exact fun _ => registry.marked before
  case session => rw [prepared, server]; exact fun _ => registry.session before

theorem activate_registry (registry : Registry w) :
    wp (Connection.activate env) (fun _ u => Registry u ∧ SameStatements w u ∧ u.conn.isOpen = true ∧ (w.conn.isOpen = true → u = w))
      (fun _ u => Registry u ∧ SameStatements w u) w := by
  cases isOpen : w.conn.isOpen with
  | true => exact wp_ok (Connection.activate_open isOpen) ⟨registry, fun _ => rfl, isOpen, fun _ => rfl⟩
  | false =>
      refine wp_mono (activate_sets_up (unprepared_restoring w.conn) isOpen (registry.raw isOpen) (Nat.zero_le _)) ?_ ?_
      · rintro _ u (⟨_, avoided⟩ | ⟨ripe, opened⟩)
        · exact absurd registry.regardless avoided
        · exact ⟨ripe_registry registry ripe opened, same_tended ripe.tended, opened, nofun⟩
      · exact fun _ u ⟨raw, closed⟩ => ⟨raw_registry registry raw closed, same_tended raw.tended⟩

theorem reset_registry (registry : Registry w) :
    wp (Connection.reset env) (fun _ u => Registry u ∧ SameStatements w u) (fun _ u => Registry u ∧ SameStatements w u) w := by
  refine wp_mono (reset_sets_up (unprepared_restoring w.conn) (tended_refl _) registry.raw (Nat.zero_le _)) ?_ ?_
  · rintro _ u (⟨_, avoided⟩ | ⟨ripe, opened⟩)
    · exact absurd registry.regardless avoided
    · exact ⟨ripe_registry registry ripe opened, same_tended ripe.tended⟩
  · rintro _ u (⟨rfl, _⟩ | ⟨raw, closed⟩)
    · exact ⟨registry, fun _ => rfl⟩
    · exact ⟨raw_registry registry raw closed, same_tended raw.tended⟩

theorem goes_registry {server : Server} (registry : Registry w) (before : w.conn.isOpen = true) (goes : Goes w u server)
    (same : server.prepared = w.server.prepared) : Registry u ∧ SameStatements w u := by
  have regardless : u.conn.reactivationAvoidance = 0 := goes.tended.reactivationAvoidance.trans registry.regardless
  have session : u.server.prepared = w.server.prepared := by rw [goes.server, same]
  exact ⟨still_registry registry before goes.isOpen regardless goes.prepared session, same_tended goes.tended⟩

-- Statements that are not about prepared ones.
theorem exec_registry {sql : Sql} (registry : Registry w) (other : ∀ s : Server, s.prepare sql = s) (retries : Nat) :
    wp (Connection.exec env sql retries) (fun _ u => Registry u ∧ SameStatements w u) (fun _ u => Registry u ∧ SameStatements w u) w := by
  refine exec_onward retries (wp_mono (activate_registry registry) ?_ fun _ _ => id)
  rintro _ v ⟨active, same, isOpen, _⟩
  have served : (v.server.serve env v.clock 0 sql).2.prepared = v.server.prepared := serve_same (other _) 0
  refine ⟨isOpen, wp_mono (exec_leaves isOpen active.regardless retries) ?_ ?_⟩
  · rintro _ u ⟨_, _, goes⟩
    obtain ⟨kept, still⟩ := goes_registry active isOpen goes served
    exact ⟨kept, same_trans same still⟩
  · rintro _ u ⟨_, down | ⟨_, goes⟩ | ⟨goes, _⟩⟩
    · exact ⟨down_registry active down, same_trans same (same_tended down.tended)⟩
    · obtain ⟨kept, still⟩ := goes_registry active isOpen goes rfl
      exact ⟨kept, same_trans same still⟩
    · obtain ⟨kept, still⟩ := goes_registry active isOpen goes served
      exact ⟨kept, same_trans same still⟩

theorem get_notifs_registry (registry : Registry w) :
    wp (Connection.getNotifs env) (fun _ u => Registry u ∧ SameStatements w u) (fun _ u => Registry u ∧ SameStatements w u) w := by
  cases isOpen : w.conn.isOpen with
  | false =>
      rw [Connection.getNotifs, wp_bind, wp_get, if_pos isOpen]
      exact ⟨registry, fun _ => rfl⟩
  | true =>
      refine wp_mono (get_notifs_leaves isOpen) (fun _ u goes => goes_registry registry isOpen goes rfl) ?_
      rintro _ u (down | goes)
      · exact ⟨down_registry registry down, same_tended down.tended⟩
      · exact goes_registry registry isOpen goes rfl

theorem disconnect_registry (registry : Registry w) :
    wp Connection.disconnect (fun _ u => Registry u ∧ SameStatements w u) (fun _ _ => False) w := by
  refine wp_mono (down_disconnect (tended_refl _)) (fun _ u down => ?_) fun _ _ => id
  exact ⟨down_registry registry down, same_tended down.tended⟩

theorem deactivate_registry (registry : Registry w) :
    wp Connection.deactivate (fun _ u => Registry u ∧ SameStatements w u) (fun _ u => Registry u ∧ SameStatements w u) w := by
  rw [Connection.deactivate, wp_bind, wp_get]
  split
  · exact ⟨registry, fun _ => rfl⟩
  · exact ⟨registry, fun _ => rfl⟩
  · rw [if_neg (not_not_intro registry.regardless), wp_bind, Connection.setCompleted, modifyConn, wp_modify]
    refine wp_mono (down_disconnect (tended_completed _ _)) (fun _ u down => ?_) fun _ _ => False.elim
    exact ⟨down_registry registry down, same_tended down.tended⟩

end

-- What is known of one statement, and not of the others.
theorem forget_lookup (session : List (String × String)) (name j : String) :
    (session.filter fun p => p.1 ≠ name).lookup j = if j = name then none else session.lookup j := by
  induction session with
  | nil => simp
  | cons p rest ih =>
      obtain ⟨n, definition⟩ := p
      by_cases here : n = name
      · rw [List.filter_cons_of_neg (by simp [here]), ih, here]
        by_cases same : j = name
        · rw [if_pos same, if_pos same]
        · rw [if_neg same, if_neg same, List.lookup_cons, beq_eq_false_iff_ne.mpr same]
      · rw [List.filter_cons_of_pos (by simp [here]), List.lookup_cons, List.lookup_cons, ih]
        by_cases same : j = name
        · rw [same, beq_eq_false_iff_ne.mpr (Ne.symm here)]
        · rw [if_neg same, if_neg same]

theorem remember_lookup (session : List (String × String)) (name definition j : String) :
    ((name, definition) :: session.filter fun p => p.1 ≠ name).lookup j = if j = name then some definition else session.lookup j := by
  rw [List.lookup_cons, forget_lookup]
  by_cases same : j = name
  · rw [if_pos same, if_pos same, same, beq_self_eq_true]
  · rw [if_neg same, if_neg same, beq_eq_false_iff_ne.mpr same]

section

variable {env : Outside} {w : World}

-- A new or another definition, which the session does not have yet.
theorem define_registry (registry : Registry w) (name definition : String)
    (unheld : name ≠ "" → w.conn.isOpen = true → ∀ p, w.conn.prepared.find name = some p → p.registered = false) :
    Registry { w with conn := { w.conn with prepared := w.conn.prepared.set name { definition, registered := false } } } := by
  constructor
  case regardless => exact registry.regardless
  case nameless =>
    intro p found
    rw [OrdMap.find_set] at found
    split at found
    · obtain rfl := Option.some.inj found
      rfl
    · exact registry.nameless p found
  case raw => exact fun closed => ⟨tended_refl _, (registry.raw closed).begun⟩
  case marked =>
    intro isOpen j p found registered
    rw [OrdMap.find_set] at found
    split at found
    · obtain rfl := Option.some.inj found
      cases registered
    · exact registry.marked isOpen j p found registered
  case session =>
    intro isOpen j named there
    obtain ⟨p, found, registered⟩ := registry.session isOpen j named there
    refine ⟨p, ?_, registered⟩
    rw [OrdMap.find_set]
    split
    · rename_i same
      subst same
      rw [unheld named isOpen p found] at registered
      cases registered
    · exact found

theorem prepare_registry (registry : Registry w) (name definition : String) :
    wp (Connection.prepare name definition)
      (fun _ u => Registry u ∧ ∀ j, (u.conn.prepared.find j).map PreparedDef.definition =
        if j = name then some definition else (w.conn.prepared.find j).map PreparedDef.definition)
      (fun _ u => u = w) w := by
  have defined (j : String) : ((w.conn.prepared.set name { definition, registered := false }).find j).map PreparedDef.definition =
      if j = name then some definition else (w.conn.prepared.find j).map PreparedDef.definition := by
    rw [OrdMap.find_set]
    split <;> rfl
  rw [Connection.prepare, wp_bind, wp_get]
  cases found : w.conn.prepared.find name with
  | none =>
      refine ⟨define_registry registry name definition fun _ _ p there => ?_, defined⟩
      rw [found] at there
      cases there
  | some old =>
      refine wp_ite _ _ _ _ _ _ (fun same => ⟨registry, fun j => ?_⟩) fun _ => wp_ite _ _ _ _ _ _ (fun _ => rfl) fun nameless => ?_
      · split
        · rename_i here
          rw [here, found, same]
          rfl
        · rfl
      · exact ⟨define_registry registry name definition fun named => absurd named nameless, defined⟩

-- PREPARE has been answered.
theorem mark_registry {v : World} {s : PreparedDef} {name : String} (registry : Registry v) (isOpen : v.conn.isOpen = true)
    (prepared : w.conn.prepared = v.conn.prepared) (stillOpen : w.conn.isOpen = true)
    (tended : Tended v.conn w.conn)
    (served : w.server.prepared = (name, s.definition) :: v.server.prepared.filter fun p => p.1 ≠ name) :
    Registry { w with conn := { w.conn with prepared := w.conn.prepared.set name { s with registered := decide (name ≠ "") } } } := by
  have looked := remember_lookup v.server.prepared name s.definition
  constructor
  case regardless => exact tended.reactivationAvoidance.trans registry.regardless
  case nameless =>
    intro p there
    rw [OrdMap.find_set, prepared] at there
    split at there
    · rename_i nameless
      obtain rfl := Option.some.inj there
      simp [← nameless]
    · exact registry.nameless p there
  case raw =>
    intro closed
    rw [show Connection.isOpen { w.conn with prepared := w.conn.prepared.set name { s with registered := decide (name ≠ "") } } =
      w.conn.isOpen from rfl, stillOpen] at closed
    cases closed
  case marked =>
    intro _ j p there registered
    rw [OrdMap.find_set, prepared] at there
    rw [served, looked]
    split at there
    · rename_i same
      obtain rfl := Option.some.inj there
      rw [if_pos same]
    · rename_i other
      rw [if_neg other]
      exact registry.marked isOpen j p there registered
  case session =>
    intro _ j named there
    rw [OrdMap.find_set, prepared]
    rw [served, looked] at there
    by_cases same : j = name
    · rw [if_pos same]
      exact ⟨_, rfl, decide_eq_true (same ▸ named)⟩
    · rw [if_neg same] at there ⊢
      exact registry.session isOpen j named there

theorem register_registry (heard : ∀ t, env.fate t ≠ .nullAfter) (registry : Registry w) (name : String) :
    wp (Connection.registerPrepared env name)
      (fun _ u => (Registry u ∧ SameStatements w u) ∧ u.conn.isOpen = true ∧
        ∃ p, u.conn.prepared.find name = some p ∧ u.server.prepared.lookup name = some p.definition)
      (fun _ u => Registry u ∧ SameStatements w u) w := by
  rw [Connection.registerPrepared, wp_bind]
  refine wp_mono (activate_registry registry) ?_ (fun _ _ => id)
  rintro _ v ⟨active, same, isOpen, _⟩
  rw [wp_bind, wp_get]
  refine wp_ite _ _ _ _ _ _ (fun _ => ⟨active, same⟩) fun _ => ?_
  rw [wp_bind, Connection.findPrepared, wp_bind, wp_get]
  cases found : v.conn.prepared.find name with
  | none => exact ⟨active, same⟩
  | some s =>
      rw [wp_pure]
      refine wp_ite _ _ _ _ _ _ (fun marked => ?_) fun unmarked => ?_
      · exact ⟨⟨active, same⟩, isOpen, s, found, active.marked isOpen name s found marked⟩
      have served := @serve_prepared env v.clock v.server 0 (.prepare name s.definition)
      rw [wp_grouped]
      refine wp_mono (request_leaves isOpen active.regardless _) ?_ ?_
      · rintro rows u ⟨answer, goes⟩
        rw [answer] at served
        have session := (congrArg Server.prepared goes.server).trans served
        have kept := mark_registry active isOpen goes.prepared goes.isOpen goes.tended session
        refine ⟨⟨kept, same_trans same fun j => ?_⟩, goes.isOpen, { s with registered := decide (name ≠ "") }, ?_, ?_⟩
        · simp only [OrdMap.find_set, goes.prepared]
          split
          · rename_i here
            rw [here, found]
            rfl
          · rfl
        · simp only [OrdMap.find_set, if_true]
        · simp only [session]
          exact (remember_lookup v.server.prepared name s.definition name).trans (if_pos rfl)
      · rintro _ u (down | ⟨_, goes⟩ | ⟨goes, unheard | ⟨_, error, answer, _⟩⟩)
        · exact ⟨down_registry active down, same_trans same (same_tended down.tended)⟩
        · obtain ⟨kept, still⟩ := goes_registry active isOpen goes rfl
          exact ⟨kept, same_trans same still⟩
        · exact absurd unheard (heard _)
        · rw [answer] at served
          obtain ⟨kept, still⟩ := goes_registry active isOpen goes served
          exact ⟨kept, same_trans same still⟩

-- A statement is forgotten by the client, and by the session if that had it.
theorem erase_registry {v : World} {name : String} (registry : Registry v) (prepared : w.conn.prepared = v.conn.prepared)
    (regardless : w.conn.reactivationAvoidance = 0) (raw : w.conn.isOpen = false → Raw w.conn Server.Unprepared w)
    (wasOpen : w.conn.isOpen = true → v.conn.isOpen = true)
    (kept : ∀ j, j ≠ name → w.server.prepared.lookup j = v.server.prepared.lookup j)
    (gone : w.conn.isOpen = true → name ≠ "" → w.server.prepared.lookup name = none) :
    Registry { w with conn := { w.conn with prepared := w.conn.prepared.erase name } } := by
  constructor
  case regardless => exact regardless
  case nameless =>
    intro p found
    rw [OrdMap.find_erase, prepared] at found
    split at found
    · cases found
    · exact registry.nameless p found
  case raw => exact fun closed => ⟨tended_refl _, (raw closed).begun⟩
  case marked =>
    intro isOpen j p found registered
    rw [OrdMap.find_erase, prepared] at found
    split at found
    · cases found
    · rename_i other
      exact (kept j other).trans (registry.marked (wasOpen isOpen) j p found registered)
  case session =>
    intro isOpen j named there
    have other : j ≠ name := by
      rintro rfl
      have absent := gone isOpen named
      rw [show ({ w with conn := { w.conn with prepared := w.conn.prepared.erase j } } : World).server = w.server from rfl, absent] at there
      cases there
    obtain ⟨p, found, registered⟩ := registry.session (wasOpen isOpen) j named (by rw [← kept j other]; exact there)
    refine ⟨p, ?_, registered⟩
    rw [OrdMap.find_erase, if_neg other, prepared]
    exact found

end

-- The client takes the statement to be in the session.
def Connection.marks (c : Connection) (name : String) : Bool := (c.prepared.find name).any PreparedDef.registered

theorem marks_iff (c : Connection) (name : String) :
    c.marks name = true ↔ ∃ p, c.prepared.find name = some p ∧ p.registered = true := Option.any_eq_true _ _

-- unprepare() of a statement that is marked comes while the connection is open, and if
-- the backend hears of it, it is fit to do it.
def Heeded (env : Outside) (w : World) : RegistryOp → Prop
  | .unprepare name => w.conn.marks name = true → w.conn.isOpen = true ∧ (env.fate w.clock = .answered →
      env.refuses w.clock 0 = none ∧ w.server.store.failed = false ∧ env.consumes (w.clock + 1) ≠ .trouble)
  | _ => True

instance (env : Outside) (w : World) : ∀ op, Decidable (Heeded env w op)
  | .unprepare _ => inferInstanceAs (Decidable (_ → _ ∧ (_ → _)))
  | .prepare _ _ | .prepareNow _ | .preparedExec _ _ _ | .begin _ | .commit | .rollback | .statement _ _ _ | .getNotifs | .activate | .reset
  | .deactivate | .disconnect => inferInstanceAs (Decidable True)

section

variable {env : Outside} {w : World}

theorem serve_deallocate {s : Server} {t : Nat} {name : String} (fit : env.refuses t 0 = none) (sound : s.store.failed = false)
    (there : (s.prepared.lookup name).isSome = true) : (s.serve env t 0 (.deallocate name)).1 = .rows [] := by
  have ran : s.store.view.run env t s.prepared (.deallocate name) = .ok (s.store.view, []) := by
    simp only [View.run, there, if_true]
  simp only [Server.serve, fit, Server.perform, Server.run, sound, Bool.false_eq_true, if_false, ran]

theorem unprepare_registry (heard : ∀ t, env.fate t ≠ .nullAfter) (registry : Registry w) (name : String)
    (heeded : Heeded env w (.unprepare name)) :
    wp (Connection.unprepare env name)
      (fun _ u => Registry u ∧ ∀ j, (u.conn.prepared.find j).map PreparedDef.definition =
        if j = name then none else (w.conn.prepared.find j).map PreparedDef.definition)
      (fun _ u => (Registry u ∧ SameStatements w u) ∧ w.conn.marks name = true ∧
        (env.fate w.clock = .answered → env.consumes (w.clock + 1) = .lost)) w := by
  have erased (u : World) (prepared : u.conn.prepared = w.conn.prepared) (j : String) :
      ((u.conn.prepared.erase name).find j).map PreparedDef.definition =
        if j = name then none else (w.conn.prepared.find j).map PreparedDef.definition := by
    rw [OrdMap.find_erase, prepared]
    split <;> rfl
  rw [Connection.unprepare, wp_bind, wp_get]
  cases found : w.conn.prepared.find name with
  | none =>
      refine ⟨registry, fun j => ?_⟩
      split
      · rename_i here
        rw [here, found]
        rfl
      · rfl
  | some old =>
      rw [wp_bind]
      refine wp_when _ _ _ _ _ (fun registered => ?_) fun unmarked => ?_
      · have marked : w.conn.marks name = true := (marks_iff _ _).mpr ⟨old, found, registered⟩
        obtain ⟨isOpen, fit⟩ := heeded marked
        have there := registry.marked isOpen name old found registered
        have served := @serve_prepared env w.clock w.server 0 (.deallocate name)
        rw [wp_bind]
        refine wp_mono (exec_leaves isOpen registry.regardless 0) ?_ ?_
        · rintro _ u ⟨_, answer, goes⟩
          rw [answer] at served
          have session := (congrArg Server.prepared goes.server).trans served
          have looked (j : String) : u.server.prepared.lookup j = if j = name then none else w.server.prepared.lookup j := by
            rw [session]
            exact forget_lookup _ name j
          refine ⟨erase_registry registry goes.prepared (goes.tended.reactivationAvoidance.trans registry.regardless) ?_ (fun _ => isOpen) ?_ ?_,
            erased u goes.prepared⟩
          · intro closed
            rw [goes.isOpen] at closed
            cases closed
          · exact fun j other => (looked j).trans (if_neg other)
          · exact fun _ _ => (looked name).trans (if_pos rfl)
        · rintro _ u ⟨silent, ends⟩
          refine ⟨?_, marked, fun answered => ?_⟩
          · rcases ends with down | ⟨_, goes⟩ | ⟨goes, unheard | ⟨answered, trouble | ⟨error, answer⟩⟩⟩
            · exact ⟨down_registry registry down, same_tended down.tended⟩
            · exact goes_registry registry isOpen goes rfl
            · exact absurd unheard (heard _)
            · exact absurd trouble (fit answered).2.2
            · rw [answer] at served
              exact goes_registry registry isOpen goes served
          · obtain ⟨granted, sound, quiet⟩ := fit answered
            have answer := serve_deallocate granted sound (by rw [there]; rfl : (w.server.prepared.lookup name).isSome = true)
            have unwell := silent _ answer answered
            cases consumed : env.consumes (w.clock + 1) with
            | fine => exact absurd consumed unwell
            | trouble => exact absurd consumed quiet
            | lost => rfl
      · refine ⟨erase_registry registry rfl registry.regardless registry.raw id (fun _ _ => rfl) fun isOpen named => ?_, erased w rfl⟩
        cases there : w.server.prepared.lookup name with
        | none => rfl
        | some definition =>
            obtain ⟨p, same, registered⟩ := registry.session isOpen name named (by rw [there]; rfl)
            rw [found] at same
            obtain rfl := Option.some.inj same
            exact absurd registered unmarked

end

-- What has been done, and for each name the definition that prepare() accepted last.
structure History where
  world : World
  accepted : String → Option String

def historyStep (env : Outside) (h : History) (op : RegistryOp) : History :=
  { world := registryStep env h.world op
    accepted := match op, (op.perform env h.world).1 with
      | .prepare name definition, .ok _ => fun n => if n = name then some definition else h.accepted n
      | _, _ => h.accepted }

-- While the connection is open, what is marked is in the session.
def Registered (w : World) : Prop :=
  w.conn.isOpen = true → ∀ name p, w.conn.prepared.find name = some p → p.registered = true →
    w.server.prepared.lookup name = some p.definition

-- Where register_prepared() sends a PREPARE, the session has no such statement.
def PreparesAnew (env : Outside) (w : World) (name : String) : Prop :=
  wp (Connection.activate env) (fun _ u => ∀ p, u.conn.prepared.find name = some p → p.registered = false → name ≠ "" →
    u.server.prepared.lookup name = none) (fun _ _ => True) w

-- Where prepared_exec() sends its EXECUTE, the session has the statement as last accepted.
def ExecutesAccepted (env : Outside) (h : History) (name : String) : Prop :=
  wp (do
      Connection.registerPrepared env name
      Connection.activate env)
    (fun _ u => ∃ definition, h.accepted name = some definition ∧ u.server.prepared.lookup name = some definition)
    (fun _ _ => True) h.world

-- Where unprepare() sends its DEALLOCATE, the session has the statement.
def DeallocatesKnown (env : Outside) (w : World) (name : String) : Prop :=
  w.conn.marks name = true →
    wp (Connection.activate env) (fun _ u => (u.server.prepared.lookup name).isSome = true) (fun _ _ => True) w

-- The backend can be reached: there is a connection, and a request on it is answered.
def Reached (env : Outside) (w : World) : Prop :=
  (Connection.activate env w).1 = .ok () ∧ env.fate (Connection.activate env w).2.clock = .answered ∧
    env.consumes ((Connection.activate env w).2.clock + 1) ≠ .lost

def Unprepares (env : Outside) (w : World) (name : String) : Prop :=
  Reached env w → (Connection.unprepare env name w).1 = .ok () ∧ (Connection.unprepare env name w).2.conn.prepared.find name = none

-- What is promised of each operation and of what is so before and after it.
def Regular (env : Outside) (h : History) (op : RegistryOp) : Prop :=
  Registered h.world ∧ Registered (historyStep env h op).world ∧
    match op with
    | .prepareNow name => PreparesAnew env h.world name
    | .preparedExec _ name _ => PreparesAnew env h.world name ∧ ExecutesAccepted env h name
    | .unprepare name => DeallocatesKnown env h.world name ∧ Unprepares env h.world name
    | _ => True

-- Every statement known has the definition accepted last.
def Accounted (h : History) : Prop :=
  ∀ name p, h.world.conn.prepared.find name = some p → h.accepted name = some p.definition

section

variable {env : Outside} {h : History} {w : World}

theorem same_accounted {accepted : String → Option String} {v : World} (accounted : Accounted { world := v, accepted })
    (same : SameStatements v w) : Accounted { world := w, accepted } := by
  intro name p found
  have there := same name
  rw [found] at there
  obtain ⟨p', found', definition⟩ := Option.map_eq_some_iff.mp there.symm
  rw [accounted name p' found', definition]

-- Whatever is done but to define statements or forget them.
theorem perform_registry (heard : ∀ t, env.fate t ≠ .nullAfter) (registry : Registry w) (op : RegistryOp)
    (others : ∀ name, op ≠ .unprepare name ∧ ∀ definition, op ≠ .prepare name definition) :
    wp (op.perform env) (fun _ u => Registry u ∧ SameStatements w u) (fun _ u => Registry u ∧ SameStatements w u) w := by
  have alone {α : Type} {m : Client α}
      (spec : wp m (fun _ u => Registry u ∧ SameStatements w u) (fun _ u => Registry u ∧ SameStatements w u) w) :
      wp (do
          let _ ← m
          pure ()) (fun _ u => Registry u ∧ SameStatements w u) (fun _ u => Registry u ∧ SameStatements w u) w := by
    rw [wp_bind]
    exact wp_mono spec (fun _ _ => id) fun _ _ => id
  cases op with
  | prepare name definition => exact absurd rfl ((others name).2 definition)
  | unprepare name => exact absurd rfl (others name).1
  | prepareNow name => exact wp_mono (register_registry heard registry name) (fun _ _ => And.left) fun _ _ => id
  | preparedExec i name args =>
      refine alone ?_
      have split : Connection.preparedExec env i name args = (do
          Connection.registerPrepared env name
          Connection.exec env (.execute i name args) 0) := rfl
      rw [split, wp_bind]
      refine wp_mono (register_registry heard registry name) ?_ fun _ _ => id
      rintro _ v ⟨⟨active, same⟩, _⟩
      have ran := @exec_registry env v (.execute i name args) active (fun _ => rfl) 0
      exact wp_mono ran (fun _ _ kept => ⟨kept.1, same_trans same kept.2⟩) fun _ _ kept => ⟨kept.1, same_trans same kept.2⟩
  | begin args => exact alone (exec_registry registry (fun _ => rfl) 2)
  | commit => exact alone (exec_registry registry (fun _ => rfl) 0)
  | rollback => exact alone (exec_registry registry (fun _ => rfl) 0)
  | statement i text retries => exact alone (exec_registry registry (fun _ => rfl) retries)
  | getNotifs => exact alone (get_notifs_registry registry)
  | activate => exact wp_mono (activate_registry registry) (fun _ _ done => ⟨done.1, done.2.1⟩) fun _ _ => id
  | reset => exact reset_registry registry
  | deactivate => exact deactivate_registry registry
  | disconnect => exact wp_mono (disconnect_registry registry) (fun _ _ => id) fun _ _ => False.elim

theorem prepares_anew (registry : Registry w) (name : String) : PreparesAnew env w name := by
  refine wp_mono (activate_registry registry) ?_ fun _ _ _ => trivial
  rintro _ u ⟨active, _, isOpen, _⟩ p found unmarked named
  cases there : u.server.prepared.lookup name with
  | none => rfl
  | some definition =>
      obtain ⟨p', same, registered⟩ := active.session isOpen name named (by rw [there]; rfl)
      rw [found] at same
      obtain rfl := Option.some.inj same
      rw [unmarked] at registered
      cases registered

theorem executes_accepted (heard : ∀ t, env.fate t ≠ .nullAfter) (registry : Registry h.world) (accounted : Accounted h) (name : String) :
    ExecutesAccepted env h name := by
  rw [ExecutesAccepted, wp_bind]
  refine wp_mono (register_registry heard registry name) ?_ fun _ _ _ => trivial
  rintro _ u ⟨⟨_, same⟩, isOpen, p, found, there⟩
  refine wp_ok (Connection.activate_open isOpen) ⟨p.definition, ?_, there⟩
  exact same_accounted accounted same name p found

theorem deallocates_known (registry : Registry w) (name : String) (heeded : Heeded env w (.unprepare name)) :
    DeallocatesKnown env w name := by
  intro marked
  obtain ⟨isOpen, _⟩ := heeded marked
  obtain ⟨p, found, registered⟩ := (marks_iff _ _).mp marked
  refine wp_ok (Connection.activate_open isOpen) ?_
  rw [registry.marked isOpen name p found registered]
  rfl

theorem unprepares (heard : ∀ t, env.fate t ≠ .nullAfter) (registry : Registry w) (name : String) (heeded : Heeded env w (.unprepare name)) :
    Unprepares env w name := by
  intro ⟨_, answered, kept⟩
  have spec := unprepare_registry heard registry name heeded
  unfold wp at spec
  split at spec
  · rename_i outcome
    rw [outcome]
    exact ⟨rfl, Option.map_eq_none_iff.mp ((spec.2 name).trans (if_pos rfl))⟩
  · obtain ⟨_, marked, lost⟩ := spec
    rw [Connection.activate_open (heeded marked).1] at answered kept
    exact absurd (lost answered) kept

theorem step_registry (heard : ∀ t, env.fate t ≠ .nullAfter) (registry : Registry h.world) (accounted : Accounted h) (op : RegistryOp)
    (heeded : Heeded env h.world op) : Registry (historyStep env h op).world ∧ Accounted (historyStep env h op) := by
  have kept (others : ∀ name, op ≠ .unprepare name ∧ ∀ definition, op ≠ .prepare name definition)
      (same : (historyStep env h op).accepted = h.accepted) :
      Registry (historyStep env h op).world ∧ Accounted (historyStep env h op) := by
    obtain ⟨onward, known⟩ := wp_leaves (perform_registry heard registry op others)
    refine ⟨onward, fun name p found => ?_⟩
    rw [same]
    exact same_accounted accounted known name p found
  cases op with
  | prepare name definition =>
      have spec := prepare_registry registry name definition
      simp only [historyStep, registryStep, RegistryOp.perform]
      unfold wp at spec
      split at spec
      · rename_i outcome
        rw [outcome]
        refine ⟨spec.1, fun j p found => ?_⟩
        have there := spec.2 j
        simp only at found ⊢
        rw [found] at there
        split at there
        · rename_i here
          rw [if_pos here]
          exact there.symm
        · rename_i other
          rw [if_neg other]
          obtain ⟨p', found', same⟩ := Option.map_eq_some_iff.mp there.symm
          rw [accounted j p' found', same]
      · rename_i outcome
        rw [outcome, spec]
        exact ⟨registry, accounted⟩
  | unprepare name =>
      have spec := unprepare_registry heard registry name heeded
      simp only [historyStep, registryStep, RegistryOp.perform]
      unfold wp at spec
      split at spec
      · rename_i outcome
        rw [outcome]
        refine ⟨spec.1, fun j p found => ?_⟩
        have there := spec.2 j
        simp only at found ⊢
        rw [found] at there
        split at there
        · cases there
        · obtain ⟨p', found', same⟩ := Option.map_eq_some_iff.mp there.symm
          rw [accounted j p' found', same]
      · rename_i outcome
        rw [outcome]
        exact ⟨spec.1.1, same_accounted accounted spec.1.2⟩
  | _ => exact kept (fun _ => ⟨nofun, nofun⟩) rfl

theorem step_regular (heard : ∀ t, env.fate t ≠ .nullAfter) (registry : Registry h.world) (accounted : Accounted h) (op : RegistryOp)
    (heeded : Heeded env h.world op) : Regular env h op := by
  refine ⟨registry.marked, (step_registry heard registry accounted op heeded).1.marked, ?_⟩
  cases op with
  | prepareNow name => exact prepares_anew registry name
  | preparedExec i name args => exact ⟨prepares_anew registry name, executes_accepted heard registry accounted name⟩
  | unprepare name => exact ⟨deallocates_known registry name heeded, unprepares heard registry name heeded⟩
  | _ => trivial

end

end Pqxx
