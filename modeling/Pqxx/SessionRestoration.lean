import Pqxx.ListeningSet
import Pqxx.StatementRegistry

set_option autoImplicit false

namespace Pqxx

open Lib Prog

-- What is done with variables, receivers, prepared statements and transactions, and with
-- the connection they share.
inductive SessionOp where
  | setVariable (var value : String)
  | addReceiver (channel : String) (receiver : Nat)
  | removeReceiver (channel : String) (receiver : Nat)
  | prepare (name definition : String)
  | unprepare (name : String)
  | prepareNow (name : String)
  | preparedExec (i : Nat) (name : String) (args : List (Option String))
  | openWork (i : Nat) (kind : Kind) (classname name startArgs logTable : String)
  | exec (i : Nat) (query desc : String)
  | commit (i : Nat)
  | abort (i : Nat)
  | end_ (i : Nat)
  | getNotifs
  | activate
  | reset
  | deactivate
  | disconnect
deriving DecidableEq, Repr

def SessionOp.perform (env : Outside) : SessionOp → Client Unit
  | .setVariable var value => Connection.setVariable env var value
  | .addReceiver channel receiver => Connection.addReceiver env channel receiver
  | .removeReceiver channel receiver => Connection.removeReceiver env channel receiver
  | .prepare name definition => Connection.prepare name definition
  | .unprepare name => Connection.unprepare env name
  | .prepareNow name => Connection.prepareNow env name
  | .preparedExec i name args => do
      let _ ← Connection.preparedExec env i name args
      pure ()
  | .openWork i kind classname name startArgs logTable => Pqxx.openWork env i kind classname name startArgs logTable
  | .exec i query desc => do
      let _ ← Transaction.exec env i query desc
      pure ()
  | .commit i => Transaction.commit env i
  | .abort i => Transaction.abort env i
  | .end_ i => Transaction.end_ env i
  | .getNotifs => do
      let _ ← Connection.getNotifs env
      pure ()
  | .activate => Connection.activate env
  | .reset => Connection.reset env
  | .deactivate => Connection.deactivate
  | .disconnect => Connection.disconnect

-- A client with its record of the values it has set, the last one first: those set for
-- good, and those set within a transaction that is still to commit.
structure Session where
  world : World
  settled : List (String × String)
  held : Nat → List (String × String)

def Session.note (s : Session) : SessionOp → Except Exn Unit → Session
  | .setVariable var value, .ok _ =>
      match s.world.conn.trans with
      | some i => { s with held := fun j => if j = i then (var, value) :: s.held j else s.held j }
      | none => { s with settled := (var, value) :: s.settled }
  | .openWork i _ _ _ _ _, _ => { s with held := fun j => if j = i then [] else s.held j }
  | .commit i, .ok _ => if (s.world.trans i).status = .active then { s with settled := s.held i ++ s.settled } else s
  | _, _ => s

def sessionStep (env : Outside) (s : Session) (op : SessionOp) : Session :=
  { s.note op (op.perform env s.world).1 with world := (op.perform env s.world).2 }

-- The value a variable was last set to, by whatever spelling of its name.
def Session.lastSet (s : Session) (name : String) : Option String :=
  (s.settled.find? fun e => decide (fold e.1 = fold name)).map Prod.snd

-- A session as it should be when it has been set up.
structure Recovered (s : Session) (u : World) : Prop where
  values : ∀ name value, s.lastSet name = some value → u.server.store.view.vars (fold name) = some value
  receivers : ∀ r ∈ s.world.conn.receivers, u.server.store.view.listens r.1 = true
  unregistered : ∀ name p, u.conn.prepared.find name = some p → p.registered = false

-- While a call lasts, the backend refuses a statement of the restore batch.
def BatchRefused (env : Outside) (w u : World) : Prop :=
  ∃ t i, w.clock ≤ t ∧ t < u.clock ∧ i < (Connection.restoreQuery w.conn).length ∧ env.refuses t (i + 1) ≠ none

-- Where a call returns without having done nothing at all, it has recovered the session.
def Recovers (env : Outside) (s : Session) (m : Client Unit) : Prop :=
  ∀ u, m s.world = (.ok (), u) → u = s.world ∨ Recovered s u ∧ ¬ BatchRefused env s.world u

-- From now on the restore batch gets through and nothing in it is refused; no channel is
-- nameless; and of the spellings of a name, the one that is last in order was set last.
structure Recoverable (env : Outside) (s : Session) : Prop where
  granted : ∀ t i, s.world.clock ≤ t → env.refuses t (i + 1) = none
  sent : ∀ t, s.world.clock ≤ t → env.fate t ≠ .nullBefore
  named : ∀ r ∈ s.world.conn.receivers, r.1 ≠ ""
  inOrder : ∀ e name, s.settled.find? (fun e => decide (fold e.1 = fold name)) = some e →
    ∀ other ∈ s.settled, fold other.1 = fold name → other.1 ≤ e.1

-- What SET makes of the variables.
def Sql.sets (vars : List Char → Option String) : Sql → List Char → Option String
  | .setVar var value, n => if n = fold var then some value else vars n
  | _, n => vars n

def Server.Idle (s : Server) : Prop := s.store.block = none

-- A session in which the batch for c has been served.
structure Server.Restored (c : Connection) (s : Server) : Prop where
  idle : s.Idle
  listens : ∀ r ∈ c.receivers, s.store.base.listens r.1 = true
  vars : ∀ name value, c.vars.find name = some value →
    (∀ other, (c.vars.find other).isSome = true → fold other = fold name → other ≤ name) → s.store.base.vars (fold name) = some value

section

variable {env : Outside} {t : Nat} {s : Server}

theorem serve_sets (i : Nat) {sql : Sql} (restoring : sql.restoring) (granted : env.refuses t i = none) (idle : s.Idle) :
    (s.serve env t i sql).1 = .rows [] ∧ (s.serve env t i sql).2.Idle ∧
      (s.serve env t i sql).2.store.base.vars = sql.sets s.store.base.vars := by
  have idle : s.store.block = none := idle
  have sound : s.store.failed = false := by simp [Store.failed, idle]
  cases sql with
  | listen channel =>
      simp only [Server.Idle, Server.serve, granted, Server.perform, Server.run, sound, Bool.false_eq_true, if_false, View.run, Server.prepare]
      simp only [Store.view, Store.put, idle]
      exact ⟨trivial, trivial, rfl⟩
  | setVar var value =>
      simp only [Server.Idle, Server.serve, granted, Server.perform, Server.run, sound, Bool.false_eq_true, if_false, View.run, Server.prepare]
      simp only [Store.view, Store.put, idle]
      exact ⟨trivial, trivial, rfl⟩
  | _ => exact restoring.elim

theorem serve_batch_sets (batch : List Sql) (restoring : ∀ sql ∈ batch, sql.restoring) (granted : ∀ i, env.refuses t (i + 1) = none)
    (idle : s.Idle) :
    (s.serveBatch env t batch).2.Idle ∧ (s.serveBatch env t batch).2.store.base.vars = batch.foldl Sql.sets s.store.base.vars := by
  refine serve_batch_through batch (fun done u => u.Idle ∧ u.store.base.vars = done.foldl Sql.sets s.store.base.vars) ?_ ⟨idle, rfl⟩
  rintro i sql done u among ⟨idle, vars⟩
  obtain ⟨answer, still, set⟩ := serve_sets (i + 1) (restoring sql among) (granted i) idle
  refine ⟨⟨_, answer⟩, still, ?_⟩
  rw [set, vars, List.foldl_append]
  rfl

-- Whatever is refused, nothing of the batch starts a block.
theorem serve_batch_idle (batch : List Sql) (restoring : ∀ sql ∈ batch, sql.restoring) (idle : s.Idle) :
    (s.serveBatch env t batch).2.Idle := by
  have fails (s next : Server) (idle : s.Idle) : ({ next with store := s.store.fail } : Server).Idle := by
    have idle : s.store.block = none := idle
    simp only [Server.Idle, Store.fail, idle, Option.map_none]
  refine serve_batch_keeps batch Server.Idle (fun i sql s among idle => ?_) (fun s next idle _ => fails s next idle) idle
  cases granted : env.refuses t i with
  | none => exact (serve_sets i (restoring sql among) granted idle).2.1
  | some error =>
      simp only [Server.serve, granted, Server.refuse]
      split
      · rfl
      · exact fails s s idle

-- Entries in order leave a variable with the value of the last spelling of its name.
theorem entries_set {entries : List (String × String)} (sorted : entries.Pairwise fun a b => a.1 < b.1) {name value : String}
    (there : (name, value) ∈ entries) (last : ∀ e ∈ entries, fold e.1 = fold name → e.1 ≤ name) (vars : List Char → Option String) :
    (entries.map fun e => Sql.setVar e.1 e.2).foldl Sql.sets vars (fold name) = some value := by
  have beyond : ∀ (rest : List (String × String)) (vars : List Char → Option String), (∀ e ∈ rest, fold e.1 ≠ fold name) →
      (rest.map fun e => Sql.setVar e.1 e.2).foldl Sql.sets vars (fold name) = vars (fold name) := by
    intro rest
    induction rest with
    | nil => exact fun _ _ => rfl
    | cons head rest ih =>
        intro vars other
        rw [List.map_cons, List.foldl_cons, ih _ fun e later => other e (List.mem_cons_of_mem _ later)]
        exact if_neg (Ne.symm (other head List.mem_cons_self))
  induction entries generalizing vars with
  | nil => cases there
  | cons head rest ih =>
      obtain ⟨above, sortedRest⟩ := List.pairwise_cons.mp sorted
      rw [List.map_cons, List.foldl_cons]
      rcases List.mem_cons.mp there with rfl | later
      · rw [beyond rest _ fun e after same => absurd (above e after) (not_lt.mpr (last e (List.mem_cons_of_mem _ after) same))]
        exact if_pos rfl
      · exact ih sortedRest later (fun e after => last e (List.mem_cons_of_mem _ after)) _

theorem idle_restoring (c : Connection) : Restoring env 0 (Connection.restoreQuery c) Server.Idle Server.Idle where
  begins _ := rfl
  sends _ _ _ := serve_batch_idle _ (Connection.restore_query_restoring c)
  again _ _ _ := serve_batch_idle _ (Connection.restore_query_restoring c)
  unsent _ _ _ _ := id

theorem listens_not_sets (last : String) (receivers : List (String × Nat)) (vars : List Char → Option String) :
    (Connection.listenAll last receivers).foldl Sql.sets vars = vars := by
  induction receivers generalizing last with
  | nil => rfl
  | cons head rest ih =>
      rw [Connection.listenAll]
      split
      · exact ih head.1
      · exact ih last

theorem restored_restoring {since : Nat} (granted : ∀ t i, since ≤ t → env.refuses t (i + 1) = none)
    (sent : ∀ t, since ≤ t → env.fate t ≠ .nullBefore) (c : Connection) (named : ∀ r ∈ c.receivers, r.1 ≠ "") :
    Restoring env since (Connection.restoreQuery c) Server.Idle (Server.Restored c) := by
  have restoring := Connection.restore_query_restoring c
  have sends (t : Nat) (s : Server) (late : since ≤ t) (idle : s.Idle) : (s.serveBatch env t (Connection.restoreQuery c)).2.Restored c := by
    have grants := fun i => granted t i late
    obtain ⟨still, vars⟩ := serve_batch_sets _ restoring grants idle
    have attends : s.Listens s.store.base.listens := ⟨idle, rfl⟩
    have listens := (serve_batch_listens _ restoring grants attends).2
    refine ⟨still, fun r among => ?_, fun name value found last => ?_⟩
    · have heard := (restore_query_channels c named r.1).mpr (List.any_eq_true.mpr ⟨r, among, decide_eq_true rfl⟩)
      rw [listens]
      exact Bool.or_eq_true_iff.mpr (.inl (decide_eq_true heard))
    · rw [vars, Connection.restoreQuery, List.foldl_append, listens_not_sets]
      refine entries_set c.vars.sorted ((c.vars.mem_entries_iff name value).mpr found) (fun e there => last e.1 ?_) _
      rw [(c.vars.mem_entries_iff e.1 e.2).mp there]
      rfl
  constructor
  case begins => exact fun _ => rfl
  case sends => exact fun t s late idle => sends t s late idle
  case again => exact fun t s late restored => sends t s late restored.idle
  case unsent => exact fun t _ late unsent _ => absurd unsent (sent t late)

end

-- Nothing is counted that cannot be recovered, and a session is as it began until its
-- connection is open.
structure Upright (w : World) : Prop where
  regardless : w.conn.reactivationAvoidance = 0
  nought : ∀ i, (w.trans i).reactivationAvoidance = 0
  raw : w.conn.isOpen = false → Raw w.conn Server.Idle w

-- What a call leaves that has nothing to do with variables.
structure Spared (w u : World) : Prop where
  upright : Upright u
  vars : u.conn.vars = w.conn.vars
  held : ∀ i, (u.trans i).vars = (w.trans i).vars

def Spares (w u : World) : Prop := Upright w → Spared w u

theorem spared_same {w : World} (upright : Upright w) : Spared w w := ⟨upright, rfl, fun _ => rfl⟩

theorem spared_trans {w v u : World} (one : Spared w v) (two : Spared v u) : Spared w u :=
  ⟨two.upright, two.vars.trans one.vars, fun i => (two.held i).trans (one.held i)⟩

theorem spares_framing : Framing Spares where
  same _ := spared_same
  onward _ _ _ left right upright := spared_trans (left upright) (right (left upright).upright)

section

variable {env : Outside} {w u : World}

theorem spared_open (upright : Upright w) (isOpen : u.conn.isOpen = true) (tended : Tended w.conn u.conn) (turned : u.trans = w.trans) :
    Spared w u := by
  refine ⟨⟨tended.reactivationAvoidance.trans upright.regardless, by rw [turned]; exact upright.nought, fun closed => ?_⟩, tended.vars,
    fun i => by rw [turned]⟩
  rw [isOpen] at closed
  cases closed

theorem spared_raw (upright : Upright w) (raw : Raw w.conn Server.Idle u) (turned : u.trans = w.trans) : Spared w u :=
  ⟨⟨raw.tended.reactivationAvoidance.trans upright.regardless, by rw [turned]; exact upright.nought, fun _ => ⟨tended_refl _, raw.begun⟩⟩,
    raw.tended.vars, fun i => by rw [turned]⟩

theorem spared_down (upright : Upright w) (down : Down w.conn u) (turned : u.trans = w.trans) : Spared w u :=
  spared_raw upright (raw_down down) turned

theorem spared_goes {server : Server} (upright : Upright w) (goes : Goes w u server) (turned : u.trans = w.trans) : Spared w u :=
  spared_open upright goes.isOpen goes.tended turned

theorem activate_spared (upright : Upright w) :
    wp (Connection.activate env) (fun _ u => Spared w u ∧ u.conn.isOpen = true) (fun _ u => Spared w u) w := by
  cases isOpen : w.conn.isOpen with
  | true => exact wp_ok (Connection.activate_open isOpen) ⟨spared_same upright, isOpen⟩
  | false =>
      have sets := activate_sets_up (@idle_restoring env w.conn) isOpen (upright.raw isOpen) (Nat.zero_le _)
      refine wp_mono (wp_and sets (wp_keeps (Connection.activate_keeps (unturned_upkeep env)))) ?_ ?_
      · rintro _ u ⟨⟨_, avoided⟩ | ⟨ripe, opened⟩, turned⟩
        · exact absurd upright.regardless avoided
        · exact ⟨spared_open upright opened ripe.tended turned, opened⟩
      · rintro _ u ⟨⟨raw, _⟩, turned⟩
        exact spared_raw upright raw turned

theorem reset_spared (upright : Upright w) : wp (Connection.reset env) (fun _ u => Spared w u) (fun _ u => Spared w u) w := by
  have sets := reset_sets_up (@idle_restoring env w.conn) (tended_refl _) upright.raw (Nat.zero_le _)
  refine wp_mono (wp_and sets (wp_keeps (Connection.reset_keeps (unturned_upkeep env)))) ?_ ?_
  · rintro _ u ⟨⟨_, avoided⟩ | ⟨ripe, opened⟩, turned⟩
    · exact absurd upright.regardless avoided
    · exact spared_open upright opened ripe.tended turned
  · rintro _ u ⟨⟨rfl, _⟩ | ⟨raw, _⟩, turned⟩
    · exact spared_same upright
    · exact spared_raw upright raw turned

theorem exec_spared (sql : Sql) (retries : Nat) (upright : Upright w) :
    wp (Connection.exec env sql retries) (fun _ u => Spared w u) (fun _ u => Spared w u) w := by
  refine exec_onward retries (wp_mono (activate_spared upright) ?_ fun _ _ => id)
  rintro _ v ⟨active, isOpen⟩
  have turns := wp_keeps (s := v) (Connection.exec_keeps (unturned_upkeep env) (unturned_request env sql) retries)
  refine ⟨isOpen, wp_mono (wp_and (exec_leaves isOpen active.upright.regardless retries) turns) ?_ ?_⟩
  · rintro _ u ⟨⟨_, _, goes⟩, turned⟩
    exact spared_trans active (spared_goes active.upright goes turned)
  · rintro _ u ⟨⟨_, down | ⟨_, goes⟩ | ⟨goes, _⟩⟩, turned⟩
    · exact spared_trans active (spared_down active.upright down turned)
    · exact spared_trans active (spared_goes active.upright goes turned)
    · exact spared_trans active (spared_goes active.upright goes turned)

-- A statement sent without exec().
theorem request_spared (sql : Sql) (query : String) (upright : Upright w) (isOpen : w.conn.isOpen = true) :
    wp (do
        let r ← pqExec env sql
        let r ← Connection.makeResult env r
        Connection.checkResult env r query) (fun _ u => Spared w u ∧ u.conn.isOpen = true) (fun _ u => Spared w u) w := by
  have turns : Keeps Unturned (do
      let r ← pqExec env sql
      let r ← Connection.makeResult env r
      Connection.checkResult env r query) := by
    have up := unturned_upkeep env
    refine keeps_bind up.toFraming (pq_exec_keeps up (unturned_request env _)) fun r => ?_
    exact keeps_bind up.toFraming (Connection.make_result_keeps up r) fun r => Connection.check_result_keeps up r _
  refine wp_mono (wp_and (@request_leaves env w sql isOpen upright.regardless query) (wp_keeps turns)) ?_ ?_
  · rintro _ u ⟨⟨_, goes⟩, turned⟩
    exact ⟨spared_goes upright goes turned, goes.isOpen⟩
  · rintro _ u ⟨down | ⟨_, goes⟩ | ⟨goes, _⟩, turned⟩
    · exact spared_down upright down turned
    · exact spared_goes upright goes turned
    · exact spared_goes upright goes turned

theorem get_notifs_spared (upright : Upright w) : wp (Connection.getNotifs env) (fun _ u => Spared w u) (fun _ u => Spared w u) w := by
  cases isOpen : w.conn.isOpen with
  | false =>
      rw [Connection.getNotifs, wp_bind, wp_get, if_pos isOpen]
      exact spared_same upright
  | true =>
      have turns := wp_keeps (s := w) (Connection.get_notifs_keeps (unturned_upkeep env))
      refine wp_mono (wp_and (get_notifs_leaves isOpen) turns) ?_ ?_
      · exact fun _ u ends => spared_goes upright ends.1 ends.2
      · rintro _ u ⟨down | goes, turned⟩
        · exact spared_down upright down turned
        · exact spared_goes upright goes turned

theorem disconnect_spared (upright : Upright w) : wp Connection.disconnect (fun _ u => Spared w u) (fun _ _ => False) w := by
  have turns := wp_keeps (s := w) (pq_finish_keeps (unturned_upkeep .calm))
  refine wp_mono (wp_and (down_disconnect (tended_refl _)) turns) ?_ fun _ _ => And.left
  exact fun _ u ends => spared_down upright ends.1 ends.2

-- What a change to other members of the connection leaves.
theorem spared_beside (upright : Upright w) (handle : u.conn.handle = w.conn.handle) (completed : u.conn.completed = w.conn.completed)
    (count : u.conn.reactivationAvoidance = w.conn.reactivationAvoidance) (server : u.server = w.server)
    (nought : ∀ i, (u.trans i).reactivationAvoidance = 0) : Upright u := by
  have isOpen : u.conn.isOpen = w.conn.isOpen := by rw [Connection.isOpen, Connection.isOpen, handle, completed]
  refine ⟨count.trans upright.regardless, nought, fun closed => ⟨tended_refl _, ?_⟩⟩
  rw [handle, server]
  exact (upright.raw (isOpen.symm.trans closed)).begun

theorem members_spared (f : Connection → Connection) (handle : ∀ c, (f c).handle = c.handle) (completed : ∀ c, (f c).completed = c.completed)
    (count : ∀ c, (f c).reactivationAvoidance = c.reactivationAvoidance) (vars : ∀ c, (f c).vars = c.vars) : Keeps Spares (modifyConn f) :=
  fun _ upright => ⟨spared_beside upright (handle _) (completed _) (count _) rfl upright.nought, vars _, fun _ => rfl⟩

theorem turns_spared (i : Nat) (f : Transaction → Transaction)
    (count : ∀ x : Transaction, x.reactivationAvoidance = 0 → (f x).reactivationAvoidance = 0) (vars : ∀ x : Transaction, (f x).vars = x.vars) :
    Keeps Spares (modifyTrans i f) := by
  refine fun w upright => ⟨spared_beside upright rfl rfl rfl rfl fun j => ?_, rfl, fun j => ?_⟩
  · show (if j = i then f (w.trans j) else w.trans j).reactivationAvoidance = 0
    split
    · exact count _ (upright.nought j)
    · exact upright.nought j
  · show (if j = i then f (w.trans j) else w.trans j).vars = (w.trans j).vars
    split
    · exact vars _
    · rfl

theorem spares {α : Type} {m : Client α} (spec : ∀ w, Upright w → wp m (fun _ u => Spared w u) (fun _ u => Spared w u) w) :
    Keeps Spares m := fun w upright => wp_leaves (spec w upright)

theorem notice_spared (msg : String) : Keeps Spares (processNotice msg) := by
  intro w upright
  simp only [processNotice, Prog.modify_apply]
  split
  · exact spared_same upright
  · exact ⟨spared_beside upright rfl rfl rfl rfl upright.nought, rfl, fun _ => rfl⟩

theorem spares_duties : Duties env Spares where
  toFraming := spares_framing
  notices := notice_spared
  activates := spares fun w upright => wp_mono (activate_spared upright) (fun _ _ done => done.1) fun _ _ => id
  manages sql _ retries := spares fun w upright => exec_spared sql retries upright
  members f aside vars := members_spared f (fun c => (aside c).handle) (fun c => (aside c).completed) (fun c => (aside c).reactivationAvoidance) vars
  notes i f same count := by
    refine turns_spared i f (fun x zero => ?_) fun x => bare_same Transaction.vars (fun _ => rfl) (same x)
    rcases count x with same | cleared
    · exact same.trans zero
    · exact cleared
  exempts _ w works _ upright :=
    exempt_nought (P := Spared w) (fun _ spared => spared.upright.regardless)
      (fun u spared => spared_trans spared (works u spared.upright)) (spared_same upright)
  notifs := spares fun w upright => get_notifs_spared upright
  sends sql _ retries := spares fun w upright => exec_spared sql retries upright
  turns := turns_spared
  begins i := by
    refine fun w upright => ⟨spared_beside upright rfl rfl rfl rfl fun j => ?_, rfl, fun j => ?_⟩
    · show (if j = i then _ else w.trans j : Transaction).reactivationAvoidance = 0
      split
      · exact upright.nought j
      · exact upright.nought j
    · show (if j = i then _ else w.trans j : Transaction).vars = (w.trans j).vars
      split
      · rfl
      · rfl
  nought _ each w upright := each w upright.nought w upright

end

-- What a call leaves that gives one transaction, or the connection, other variables.
structure Assigned (w u : World) (vars : OrdMap String String) (held : Nat → OrdMap String String) : Prop where
  upright : Upright u
  vars : u.conn.vars = vars
  held : ∀ i, (u.trans i).vars = held i

theorem Spared.assigned {w u : World} (spared : Spared w u) : Assigned w u w.conn.vars fun i => (w.trans i).vars :=
  ⟨spared.upright, spared.vars, spared.held⟩

section

variable {env : Outside} {w : World}

theorem end_returns {i : Nat} : wp (Transaction.end_ env i) (fun _ _ => True) (fun _ _ => False) w := by
  rw [Transaction.end_, Transaction.noticing, wp_try_catch]
  exact wp_mono (wp_ends _ _) (fun _ _ => id) fun _ _ => id

theorem set_variable_assigns (var value : String) (upright : Upright w) :
    wp (Connection.setVariable env var value)
      (fun _ u => match w.conn.trans with
        | some i => Assigned w u w.conn.vars fun j => if j = i then (w.trans j).vars.set var value else (w.trans j).vars
        | none => Assigned w u (w.conn.vars.set var value) fun j => (w.trans j).vars) (fun _ u => Spared w u) w := by
  have sets (u : World) (upright : Upright u) :
      wp (Connection.rawSetVar env var value) (fun _ v => Spared u v) (fun _ v => Spared u v) u := by
    rw [Connection.rawSetVar, wp_bind]
    exact wp_mono (exec_spared _ 0 upright) (fun _ _ => id) fun _ _ => id
  rw [Connection.setVariable, wp_bind, wp_get]
  cases w.conn.trans with
  | some i =>
      simp only
      rw [Transaction.setVariable, wp_bind]
      refine wp_mono (sets w upright) (fun _ u spared => ?_) fun _ _ => id
      simp only [modifyTrans, wp_modify]
      refine ⟨spared_beside spared.upright rfl rfl rfl rfl fun j => ?_, spared.vars, fun j => ?_⟩
      · dsimp only
        split
        · exact spared.upright.nought j
        · exact spared.upright.nought j
      · dsimp only
        split
        · rw [spared.held]
        · exact spared.held j
  | none =>
      have puts (u : World) (spared : Spared w u) :
          wp (modifyConn fun c => { c with vars := c.vars.set var value })
            (fun _ u => Assigned w u (w.conn.vars.set var value) fun j => (w.trans j).vars) (fun _ u => Spared w u) u := by
        simp only [modifyConn, wp_modify]
        refine ⟨spared_beside spared.upright rfl rfl rfl rfl spared.upright.nought, ?_, spared.held⟩
        dsimp only
        rw [spared.vars]
      simp only
      rw [wp_bind]
      refine wp_when _ _ _ _ _ (fun _ => ?_) fun _ => puts w (spared_same upright)
      exact wp_mono (sets w upright) (fun _ u spared => puts u spared) fun _ _ => id

theorem open_work_assigns (i : Nat) (kind : Kind) (classname name startArgs logTable : String) (upright : Upright w) :
    Assigned w (openWork env i kind classname name startArgs logTable w).2 w.conn.vars
      fun j => if j = i then OrdMap.empty else (w.trans j).vars := by
  have opened := @opened_keeps env Spares spares_duties i (modifyTrans i (fun _ => Transaction.fresh kind classname name startArgs logTable) w).2
  have fresh : Assigned w (modifyTrans i (fun _ => Transaction.fresh kind classname name startArgs logTable) w).2 w.conn.vars
      fun j => if j = i then OrdMap.empty else (w.trans j).vars := by
    refine ⟨spared_beside upright rfl rfl rfl rfl fun j => ?_, rfl, fun j => ?_⟩
    · show (if j = i then _ else w.trans j : Transaction).reactivationAvoidance = 0
      split
      · rfl
      · exact upright.nought j
    · show (if j = i then _ else w.trans j : Transaction).vars = _
      split
      · rfl
      · rfl
  obtain ⟨upright, vars, held⟩ := opened fresh.upright
  exact ⟨upright, vars.trans fresh.vars, fun j => (held j).trans (fresh.held j)⟩

theorem commit_assigns (i : Nat) (upright : Upright w) :
    wp (Transaction.commit env i)
      (fun _ u => Assigned w u
        (if (w.trans i).status = .active then (w.trans i).vars.entries.foldl (fun m e => m.set e.1 e.2) w.conn.vars else w.conn.vars)
        fun j => (w.trans j).vars) (fun _ u => Spared w u) w := by
  have framing := spares_framing
  have duties := @spares_duties env
  have same := spared_same upright
  have after {u : World} (spared : Spared w u) {m : Client Unit} (keeps : Keeps Spares m) :
      wp m (fun _ v => Spared w v) (fun _ v => Spared w v) u :=
    wp_mono (wp_keeps keeps) (fun _ _ next => spared_trans spared (next spared.upright)) fun _ _ next =>
      spared_trans spared (next spared.upright)
  have turns (status : Status) : Keeps Spares (Transaction.setStatus i status) := turns_spared i _ (fun _ => id) fun _ => rfl
  simp only [Transaction.commit, Transaction.checkPendingError, wp_bind, wp_get]
  refine wp_ite _ _ _ _ _ _ (fun pending => ?_) fun calm => ?_
  · rw [wp_bind]
    refine wp_mono (after same (turns_spared i _ (fun _ => id) fun _ => rfl)) (fun _ _ => id) fun _ _ => id
  · rw [wp_pure]
    cases (w.trans i).status with
    | nascent => exact same.assigned
    | aborted => exact same
    | committed => exact wp_mono (after same (notice_spared _)) (fun _ _ spared => spared.assigned) fun _ _ => id
    | inDoubt => exact same
    | active =>
        cases (w.trans i).focus with
        | some f => exact same
        | none =>
            refine wp_ite _ _ _ _ _ _ (fun _ => same) fun _ => ?_
            have commits : wp (tryCatch
                (do
                  Transaction.doCommit env i
                  Transaction.setStatus i .committed)
                fun e => do
                  Transaction.setStatus i (if e.isA .inDoubtError then .inDoubt else .aborted)
                  throw e : Client Unit) (fun _ u => Spared w u) (fun _ u => Spared w u) w := by
              refine after same (keeps_try_catch framing ?_ fun e => ?_)
              · exact keeps_bind framing (Transaction.do_commit_keeps duties) fun _ => turns _
              · exact keeps_bind framing (turns _) fun _ => keeps_throw framing _
            rw [Transaction.commitActive, wp_bind]
            refine wp_mono commits (fun _ u spared => ?_) fun _ _ => id
            rw [wp_bind, wp_get, wp_bind]
            simp only [Connection.addVariables, modifyConn, wp_modify]
            have added := spared_beside (u := { u with conn := { u.conn with
              vars := (u.trans i).vars.entries.foldl (fun m e => m.set e.1 e.2) u.conn.vars } }) spared.upright rfl rfl rfl rfl spared.upright.nought
            have ends := wp_and (@end_returns env _ i) <| wp_keeps (s := ({ u with conn := { u.conn with
              vars := (u.trans i).vars.entries.foldl (fun m e => m.set e.1 e.2) u.conn.vars } } : World)) (@Transaction.end_keeps env Spares duties i)
            refine wp_mono ends ?_ ?_
            · rintro _ v ⟨_, next⟩
              obtain ⟨upright, vars, held⟩ := next added
              refine ⟨upright, vars.trans ?_, fun j => (held j).trans (spared.held j)⟩
              simp only [spared.vars, spared.held, if_true]
            · exact fun _ _ thrown => thrown.1.elim

theorem add_receiver_spares (channel : String) (receiver : Nat) : Keeps Spares (Connection.addReceiver env channel receiver) := by
  have inserts : Keeps Spares (modifyConn fun c => { c with receivers := insertReceiver channel receiver c.receivers }) :=
    members_spared _ (fun _ => rfl) (fun _ => rfl) (fun _ => rfl) fun _ => rfl
  refine spares fun w upright => ?_
  have puts (u : World) (spared : Spared w u) :
      wp (modifyConn fun c => { c with receivers := insertReceiver channel receiver c.receivers }) (fun _ u => Spared w u)
        (fun _ u => Spared w u) u := by
    have both := wp_keeps (s := u) inserts
    exact wp_mono both (fun _ _ next => spared_trans spared (next spared.upright)) fun _ _ next =>
      spared_trans spared (next spared.upright)
  rw [Connection.addReceiver, wp_bind, wp_get]
  refine wp_ite _ _ _ _ _ _ (fun _ => puts w (spared_same upright)) fun _ => ?_
  rw [wp_bind]
  refine wp_when _ _ _ _ _ (fun isOpen => ?_) fun _ => puts w (spared_same upright)
  rw [wp_try_catch, wp_grouped]
  refine wp_mono (request_spared _ _ upright isOpen) (fun _ u done => puts u done.1) fun e u spared => ?_
  exact wp_ite _ _ _ _ _ _ (fun _ => puts u spared) fun _ => spared

theorem remove_receiver_spares (channel : String) (receiver : Nat) : Keeps Spares (Connection.removeReceiver env channel receiver) := by
  have framing := spares_framing
  refine keeps_try_catch framing (keeps_get fun w => keeps_ite _ ?_ (notice_spared _)) fun e => notice_spared _
  refine keeps_bind framing (members_spared _ (fun _ => rfl) (fun _ => rfl) (fun _ => rfl) fun _ => rfl) fun _ => ?_
  refine keeps_when framing _ (keeps_bind framing ?_ fun _ => keeps_pure framing _)
  exact spares fun u upright => exec_spared _ 0 upright

theorem prepare_spares (name definition : String) : Keeps Spares (Connection.prepare name definition) := by
  have framing := spares_framing
  have puts (f : Connection → OrdMap String PreparedDef) : Keeps Spares (modifyConn fun c => { c with prepared := f c }) :=
    members_spared _ (fun _ => rfl) (fun _ => rfl) (fun _ => rfl) fun _ => rfl
  refine keeps_get fun w => ?_
  split
  · exact puts _
  · refine keeps_ite _ (keeps_pure framing _) ?_
    exact keeps_ite _ (keeps_throw framing _) (puts _)

theorem unprepare_spares (name : String) : Keeps Spares (Connection.unprepare env name) := by
  have framing := spares_framing
  refine keeps_get fun w => ?_
  split
  · exact keeps_pure framing _
  · refine keeps_bind framing (keeps_when framing _ (keeps_bind framing ?_ fun _ => keeps_pure framing _)) fun _ => ?_
    · exact spares fun u upright => exec_spared _ 0 upright
    · exact members_spared _ (fun _ => rfl) (fun _ => rfl) (fun _ => rfl) fun _ => rfl

theorem register_prepared_spared (name : String) (upright : Upright w) :
    wp (Connection.registerPrepared env name) (fun _ u => Spared w u) (fun _ u => Spared w u) w := by
  have marks (definition : PreparedDef) (u : World) (spared : Spared w u) :
      wp (modifyConn fun c => { c with prepared := c.prepared.set name definition }) (fun _ u => Spared w u) (fun _ u => Spared w u) u := by
    have both := wp_keeps (s := u) (members_spared (fun c => { c with prepared := c.prepared.set name definition }) (fun _ => rfl) (fun _ => rfl)
      (fun _ => rfl) fun _ => rfl)
    exact wp_mono both (fun _ _ next => spared_trans spared (next spared.upright)) fun _ _ next =>
      spared_trans spared (next spared.upright)
  rw [Connection.registerPrepared, wp_bind]
  refine wp_mono (activate_spared upright) ?_ fun _ _ => id
  rintro _ u ⟨spared, isOpen⟩
  rw [wp_bind, wp_get]
  refine wp_ite _ _ _ _ _ _ (fun _ => spared) fun _ => ?_
  rw [Connection.findPrepared, wp_bind, wp_bind, wp_get]
  cases u.conn.prepared.find name with
  | none => exact spared
  | some s =>
      simp only [wp_pure]
      refine wp_ite _ _ _ _ _ _ (fun _ => spared) fun _ => ?_
      rw [wp_grouped]
      refine wp_mono (request_spared _ _ spared.upright isOpen) (fun _ v done => marks _ v (spared_trans spared done.1)) fun _ v next => ?_
      exact spared_trans spared next

theorem prepared_exec_spared (i : Nat) (statement : String) (args : List (Option String)) (upright : Upright w) :
    wp (Connection.preparedExec env i statement args) (fun _ u => Spared w u) (fun _ u => Spared w u) w := by
  rw [Connection.preparedExec, wp_bind]
  refine wp_mono (register_prepared_spared statement upright) (fun _ u one => ?_) fun _ _ => id
  rw [wp_bind]
  refine wp_mono (activate_spared one.upright) ?_ fun _ _ next => spared_trans one next
  rintro _ v ⟨two, isOpen⟩
  have both := spared_trans one two
  rw [wp_grouped]
  refine wp_mono (request_spared _ _ two.upright isOpen) ?_ fun _ _ next => spared_trans both next
  rintro rows x ⟨three, _⟩
  have all := spared_trans both three
  rw [wp_bind]
  exact wp_mono (get_notifs_spared three.upright) (fun _ _ next => spared_trans all next) fun _ _ next => spared_trans all next

theorem deactivate_spares : Keeps Spares Connection.deactivate := by
  refine spares fun w upright => ?_
  rw [Connection.deactivate, wp_bind, wp_get]
  split
  · exact spared_same upright
  · exact spared_same upright
  · rw [if_neg (not_not_intro upright.regardless), wp_bind, Connection.setCompleted, modifyConn, wp_modify]
    have turns := wp_keeps (s := ({ w with conn := { w.conn with completed := false } } : World)) (pq_finish_keeps (unturned_upkeep .calm))
    refine wp_mono (wp_and (down_disconnect (tended_completed w.conn false)) turns) ?_ fun _ _ failed => failed.1.elim
    exact fun _ u ends => spared_down upright ends.1 ends.2

-- What has nothing to do with variables.
def SessionOp.apart : SessionOp → Prop
  | .setVariable _ _ => False
  | .openWork _ _ _ _ _ _ => False
  | .commit _ => False
  | _ => True

theorem perform_spares (op : SessionOp) (apart : op.apart) : Keeps Spares (op.perform env) := by
  have framing := spares_framing
  have duties := @spares_duties env
  have dropped {α : Type} {m : Client α} (keeps : Keeps Spares m) : Keeps Spares (m >>= fun _ => pure ()) :=
    keeps_bind framing keeps fun _ => keeps_pure framing _
  cases op with
  | setVariable => exact apart.elim
  | openWork => exact apart.elim
  | commit => exact apart.elim
  | addReceiver channel receiver => exact add_receiver_spares channel receiver
  | removeReceiver channel receiver => exact remove_receiver_spares channel receiver
  | prepare name definition => exact prepare_spares name definition
  | unprepare name => exact unprepare_spares name
  | prepareNow name => exact spares fun w upright => register_prepared_spared name upright
  | preparedExec i name args => exact dropped (spares fun w upright => prepared_exec_spared i name args upright)
  | exec i query desc => exact dropped (Transaction.exec_sql_keeps duties _ (by trivial) desc)
  | abort i => exact Transaction.abort_keeps duties
  | end_ i => exact Transaction.end_keeps duties
  | getNotifs => exact dropped duties.notifs
  | activate => exact duties.activates
  | reset => exact spares fun w upright => reset_spared upright
  | deactivate => exact deactivate_spares
  | disconnect => exact spares fun w upright => wp_mono (disconnect_spared upright) (fun _ _ => id) fun _ _ => False.elim

end

-- What the record says of one spelling of a name.
def Session.spelled (log : List (String × String)) (name : String) : Option String :=
  (log.find? fun e => decide (e.1 = name)).map Prod.snd

-- The client's maps say what the record says.
structure Booked (s : Session) : Prop where
  upright : Upright s.world
  settled : ∀ name, s.world.conn.vars.find name = Session.spelled s.settled name
  held : ∀ i name, (s.world.trans i).vars.find name = Session.spelled (s.held i) name

theorem spelled_cons (log : List (String × String)) (var value name : String) :
    Session.spelled ((var, value) :: log) name = if name = var then some value else Session.spelled log name := by
  simp only [Session.spelled, List.find?_cons]
  by_cases same : name = var
  · simp [same]
  · simp [same, Ne.symm same]

theorem spelled_append (log log' : List (String × String)) (name : String) :
    Session.spelled (log ++ log') name = (Session.spelled log name).or (Session.spelled log' name) := by
  simp only [Session.spelled, List.find?_append]
  cases log.find? fun e => decide (e.1 = name) <;> rfl

section

variable {env : Outside} {s : Session}

theorem booked_spared (booked : Booked s) {u : World} (spared : Spared s.world u) : Booked { s with world := u } :=
  ⟨spared.upright, fun name => by rw [spared.vars]; exact booked.settled name, fun i name => by rw [spared.held]; exact booked.held i name⟩

theorem step_booked (booked : Booked s) (op : SessionOp) : Booked (sessionStep env s op) := by
  have apart (other : op.apart) (same : ∀ outcome, s.note op outcome = s) : Booked (sessionStep env s op) := by
    rw [sessionStep, same]
    exact booked_spared booked (perform_spares op other s.world booked.upright)
  cases op with
  | setVariable var value =>
      have spec := @set_variable_assigns env s.world var value booked.upright
      simp only [sessionStep, SessionOp.perform]
      unfold wp at spec
      split at spec
      · rename_i u outcome
        rw [outcome]
        simp only [Session.note]
        cases there : s.world.conn.trans with
        | some i =>
            rw [there] at spec
            obtain ⟨upright, vars, held⟩ := spec
            refine ⟨upright, fun name => by rw [vars]; exact booked.settled name, fun j name => ?_⟩
            simp only [held]
            split
            · rw [OrdMap.find_set, spelled_cons, booked.held]
            · exact booked.held j name
        | none =>
            rw [there] at spec
            obtain ⟨upright, vars, held⟩ := spec
            refine ⟨upright, fun name => ?_, fun j name => by rw [held]; exact booked.held j name⟩
            simp only [vars]
            rw [OrdMap.find_set, spelled_cons, booked.settled]
      · rename_i e u outcome
        rw [outcome]
        exact booked_spared booked spec
  | openWork i kind classname name startArgs logTable =>
      obtain ⟨upright, vars, held⟩ := @open_work_assigns env s.world i kind classname name startArgs logTable booked.upright
      refine ⟨upright, fun name => (congrArg (fun m => m.find name) vars).trans (booked.settled name), fun j name => ?_⟩
      refine (congrArg (fun m => m.find name) (held j)).trans ?_
      simp only [sessionStep, Session.note]
      split
      · rfl
      · exact booked.held j name
  | commit i =>
      have spec := @commit_assigns env s.world i booked.upright
      simp only [sessionStep, SessionOp.perform]
      unfold wp at spec
      split at spec
      · rename_i u outcome
        rw [outcome]
        obtain ⟨upright, vars, held⟩ := spec
        simp only [Session.note]
        split at vars
        · rename_i active
          rw [if_pos active]
          refine ⟨upright, fun name => ?_, fun j name => by rw [held]; exact booked.held j name⟩
          simp only [vars]
          rw [OrdMap.find_set_all, spelled_append, booked.settled, booked.held]
        · rename_i over_
          rw [if_neg over_]
          exact ⟨upright, fun name => by rw [vars]; exact booked.settled name, fun j name => by rw [held]; exact booked.held j name⟩
      · rename_i e u outcome
        rw [outcome]
        exact booked_spared booked spec
  | _ => exact apart trivial fun _ => rfl

theorem last_set_foremost (booked : Booked s)
    (inOrder : ∀ e name, s.settled.find? (fun e => decide (fold e.1 = fold name)) = some e →
      ∀ other ∈ s.settled, fold other.1 = fold name → other.1 ≤ e.1) {name value : String} (last : s.lastSet name = some value) :
    ∃ spelling, fold spelling = fold name ∧ s.world.conn.vars.find spelling = some value ∧
      ∀ other, (s.world.conn.vars.find other).isSome = true → fold other = fold spelling → other ≤ spelling := by
  obtain ⟨e, found, rfl⟩ := Option.map_eq_some_iff.mp last
  have same : fold e.1 = fold name := by simpa using List.find?_some found
  refine ⟨e.1, same, ?_, fun other there alike => ?_⟩
  · obtain ⟨_, before, after, split, first⟩ := List.find?_eq_some_iff_append.mp found
    have exact_ : s.settled.find? (fun d => decide (d.1 = e.1)) = some e := by
      refine List.find?_eq_some_iff_append.mpr ⟨decide_eq_true rfl, before, after, split, fun d early => ?_⟩
      have other := first d early
      simp only [Bool.not_eq_true', decide_eq_false_iff_not] at other ⊢
      intro equal
      exact other (by rw [equal]; exact same)
    rw [booked.settled, Session.spelled, exact_]
    rfl
  · rw [booked.settled, Session.spelled, Option.isSome_map] at there
    obtain ⟨d, among, spelling⟩ := List.find?_isSome.mp there
    obtain rfl := of_decide_eq_true spelling
    exact inOrder e name found d among (alike.trans same)

theorem ripe_recovered (booked : Booked s) (recoverable : Recoverable env s) {u : World} {since : Nat}
    (ripe : Ripe since s.world.conn (Server.Restored s.world.conn) u) (isOpen : u.conn.isOpen = true) : Recovered s u := by
  obtain ⟨h, handle, ok, _⟩ := open_handle isOpen
  obtain ⟨h', handle', _, good⟩ := ripe.restored
  rw [handle] at handle'
  obtain rfl := Option.some.inj handle'
  obtain ⟨_, ⟨idle, listens, vars⟩, unmarked⟩ := good ok
  have idle : u.server.store.block = none := idle
  have view : u.server.store.view = u.server.store.base := by simp only [Store.view, idle]
  refine ⟨fun name value last => ?_, fun r among => ?_, fun name p found => ?_⟩
  · obtain ⟨spelling, same, found, foremost⟩ := last_set_foremost booked recoverable.inOrder last
    rw [view, ← same]
    exact vars spelling value found foremost
  · rw [view]
    exact listens r among
  · rw [← unmarked, OrdMap.find_map_values] at found
    obtain ⟨_, _, rfl⟩ := Option.map_eq_some_iff.mp found
    rfl

theorem recovers (booked : Booked s) (recoverable : Recoverable env s) :
    Recovers env s (Connection.activate env) ∧ Recovers env s (Connection.reset env) := by
  have restoring := restored_restoring recoverable.granted recoverable.sent s.world.conn recoverable.named
  have taken (u : World) : ¬ BatchRefused env s.world u := by
    rintro ⟨t, i, late, _, _, refused⟩
    exact refused (recoverable.granted t i late)
  have done {m : Client Unit} {raised : Exn → World → Prop} (spec : wp m (fun _ u => u = s.world ∧ s.world.conn.reactivationAvoidance ≠ 0 ∨
      Ripe s.world.clock s.world.conn (Server.Restored s.world.conn) u ∧ u.conn.isOpen = true) raised s.world) : Recovers env s m := by
    intro u outcome
    unfold wp at spec
    rw [outcome] at spec
    rcases spec with ⟨same, _⟩ | ⟨ripe, isOpen⟩
    · exact .inl same
    · exact .inr ⟨ripe_recovered booked recoverable ripe isOpen, taken u⟩
  constructor
  · cases isOpen : s.world.conn.isOpen with
    | true =>
        intro u outcome
        rw [Connection.activate_open isOpen] at outcome
        exact .inl (Prod.mk.inj outcome).2.symm
    | false => exact done (activate_sets_up restoring isOpen (booked.upright.raw isOpen) (Nat.le_refl _))
  · exact done (reset_sets_up restoring (tended_refl _) booked.upright.raw (Nat.le_refl _))

end

-- A session that is set up has what the client has set and listens to, whatever came
-- before, as long as it is recoverable when it is set up.
theorem session_recovery (env : Outside) (policy : Policy) (w : World) (ops : List SessionOp) (begun : w.conn = Connection.initial policy)
    (unused : ∀ i, (w.trans i).vars = OrdMap.empty ∧ (w.trans i).reactivationAvoidance = 0) :
    let s := run (sessionStep env) { world := w, settled := [], held := fun _ => [] } ops
    Recoverable env s → Recovers env s (Connection.activate env) ∧ Recovers env s (Connection.reset env) := by
  intro s recoverable
  have closed : w.conn.isOpen = false := by rw [begun]; rfl
  have start : Booked { world := w, settled := [], held := fun _ => [] } := by
    refine ⟨⟨?_, fun i => (unused i).2, fun _ => ⟨tended_refl _, fun h handle => ?_⟩⟩, fun name => ?_, fun i name => ?_⟩
    · rw [begun]
      rfl
    · rw [begun] at handle
      cases handle
    · rw [begun]
      rfl
    · rw [(unused i).1]
      rfl
  exact recovers (run_always (sessionStep env) Booked (fun _ op booked => step_booked booked op) _ ops start) recoverable

theorem session_recovery_lost :
    let s := run (sessionStep Outside.calm) { world := World.initial .lazy, settled := [], held := fun _ => [] }
      [.setVariable "datestyle" "ISO", .addReceiver "events" 0, .activate, .prepare "count" "SELECT 1", .prepareNow "count",
        .setVariable "datestyle" "German", .openWork 0 .work "transaction" "" "" "", .setVariable "timezone" "UTC", .commit 0, .disconnect]
    s.lastSet "DateStyle" = some "German" ∧ s.lastSet "TimeZone" = some "UTC" ∧ Recovers Outside.calm s (Connection.activate Outside.calm) ∧
      Recovers Outside.calm s (Connection.reset Outside.calm) := by
  intro s
  refine ⟨by decide +kernel, by decide +kernel, session_recovery Outside.calm .lazy (World.initial .lazy) _ rfl (fun _ => ⟨rfl, rfl⟩) ?_⟩
  have alone : ∀ e ∈ s.settled, ∀ other ∈ s.settled, fold other.1 = fold e.1 → other.1 = e.1 := by decide +kernel
  refine ⟨fun _ _ _ => rfl, fun _ _ => nofun, by decide +kernel, fun e name found other among same => ?_⟩
  have alike : fold e.1 = fold name := by simpa using List.find?_some found
  exact le_of_eq (alone e (List.mem_of_find?_eq_some found) other among (same.trans alike.symm))

-- The results of the batch are not looked at, so that a value the backend refuses goes
-- unnoticed.
theorem session_recovery_refused :
    let env := { Outside.calm with refuses := fun _ i => if i = 1 then some { state := "22023", message := "invalid value" } else none }
    ¬ Recovers env (run (sessionStep env) { world := World.initial .lazy, settled := [], held := fun _ => [] }
      [.setVariable "datestyle" "nonsense"]) (Connection.activate env) := by
  intro env recovers
  generalize made : run (sessionStep env) { world := World.initial .lazy, settled := [], held := fun _ => [] }
    [.setVariable "datestyle" "nonsense"] = s at recovers
  have returns : (Connection.activate env s.world).1 = .ok () := by
    subst made
    decide +kernel
  have last : s.lastSet "datestyle" = some "nonsense" := by
    subst made
    decide +kernel
  have lost : (Connection.activate env s.world).2.server.store.view.vars (fold "datestyle") = none := by
    subst made
    decide +kernel
  rcases recovers (Connection.activate env s.world).2 (Prod.ext returns rfl) with same | ⟨recovered, _⟩
  · have opened : (Connection.activate env s.world).2.conn.isOpen ≠ s.world.conn.isOpen := by
      subst made
      decide +kernel
    exact opened (congrArg (fun w => w.conn.isOpen) same)
  · rw [recovered.values "datestyle" "nonsense" last] at lost
    cases lost

end Pqxx
