import Pqxx.Lib.Run
import Pqxx.SessionSetup
import Pqxx.TransactionDuties

set_option autoImplicit false

namespace Pqxx

open Lib Prog

-- What is done with receivers, with transactions and with the connection they share.
inductive ListeningOp where
  | addReceiver (channel : String) (receiver : Nat)
  | removeReceiver (channel : String) (receiver : Nat)
  | openWork (i : Nat) (kind : Kind) (classname name startArgs logTable : String)
  | openSubtransaction (i parent : Nat) (name : String)
  | exec (i : Nat) (query desc : String)
  | commit (i : Nat)
  | abort (i : Nat)
  | end_ (i : Nat)
  | getNotifs
  | activate
  | reset
  | deactivate
  | disconnect
deriving DecidableEq, Repr

def ListeningOp.perform (env : Outside) : ListeningOp → Client Unit
  | .addReceiver channel receiver => Connection.addReceiver env channel receiver
  | .removeReceiver channel receiver => Connection.removeReceiver env channel receiver
  | .openWork i kind classname name startArgs logTable => Pqxx.openWork env i kind classname name startArgs logTable
  | .openSubtransaction i parent name => Pqxx.openSubtransaction i parent name
  | .exec i query desc => do
      let _ ← Transaction.exec env i query desc
      pure ()
  | .commit i => Transaction.commit env i
  | .abort i => Transaction.abort env i
  | .end_ i => Transaction.end_ env i
  | .getNotifs => do
      let _ ← Connection.getNotifs env
      pure ()
  | .activate => Connection.activate env
  | .reset => Connection.reset env
  | .deactivate => Connection.deactivate
  | .disconnect => Connection.disconnect

def listeningStep (env : Outside) (w : World) (op : ListeningOp) : World := (op.perform env w).2

def channels (receivers : List (String × Nat)) (channel : String) : Bool := receivers.any fun r => r.1 = channel

-- The session listens to nothing, or to some channels, and is in no block.
def Server.Listens (listens : String → Bool) (s : Server) : Prop := s.store.block = none ∧ s.store.base.listens = listens

section

variable {env : Outside} {t : Nat} {s : Server} {listens : String → Bool}

theorem channels_insert (channel : String) (receiver : Nat) (receivers : List (String × Nat)) :
    channels (insertReceiver channel receiver receivers) = fun c => decide (c = channel) || channels receivers c := by
  funext c
  induction receivers with
  | nil => simp [insertReceiver, channels, eq_comm]
  | cons head rest ih =>
      obtain ⟨other, r⟩ := head
      rw [insertReceiver]
      split
      · simp [channels, eq_comm]
      · simp only [channels, List.any_cons] at ih ⊢
        rw [ih]
        exact Bool.or_left_comm _ _ _

theorem listen_all_channels (receivers : List (String × Nat)) (last channel : String) :
    (Sql.listen channel ∈ Connection.listenAll last receivers → channels receivers channel = true) ∧
      (channels receivers channel = true → channel ≠ last → Sql.listen channel ∈ Connection.listenAll last receivers) := by
  induction receivers generalizing last with
  | nil => exact ⟨nofun, nofun⟩
  | cons head rest ih =>
      obtain ⟨first, r⟩ := head
      simp only [Connection.listenAll, channels, List.any_cons, Bool.or_eq_true, decide_eq_true_eq]
      split
      · constructor
        · intro there
          rcases List.mem_cons.mp there with same | there
          · exact .inl (Sql.listen.inj same).symm
          · exact .inr ((ih first).1 there)
        · intro there other
          by_cases same : channel = first
          · rw [same]
            exact List.mem_cons_self
          · rcases there with rfl | there
            · exact absurd rfl same
            · exact List.mem_cons_of_mem _ ((ih first).2 there same)
      · rename_i same
        have same : first = last := not_not.mp same
        constructor
        · exact fun there => .inr ((ih last).1 there)
        · rintro (rfl | there) other
          · exact absurd same other
          · exact (ih last).2 there other

-- What the restore batch listens to, where no channel is nameless.
theorem restore_query_channels (c : Connection) (named : ∀ r ∈ c.receivers, r.1 ≠ "") (channel : String) :
    Sql.listen channel ∈ Connection.restoreQuery c ↔ channels c.receivers channel = true := by
  obtain ⟨only, all⟩ := listen_all_channels c.receivers "" channel
  rw [Connection.restoreQuery, List.mem_append]
  constructor
  · rintro (there | there)
    · exact only there
    · obtain ⟨_, _, ⟨⟩⟩ := List.mem_map.mp there
  · intro there
    obtain ⟨r, among, same⟩ := List.any_eq_true.mp there
    exact .inl (all there ((of_decide_eq_true same) ▸ named r among))

theorem serve_restoring (i : Nat) {sql : Sql} (restoring : sql.restoring) (granted : env.refuses t i = none) (attends : s.Listens listens) :
    (s.serve env t i sql).1 = .rows [] ∧ (s.serve env t i sql).2.Listens fun c => decide (sql = .listen c) || listens c := by
  obtain ⟨free, base⟩ := attends
  have sound : s.store.failed = false := by simp [Store.failed, free]
  cases sql with
  | listen channel =>
      simp only [Server.serve, granted, Server.perform, Server.run, sound, Bool.false_eq_true, if_false, View.run, Server.prepare]
      simp only [Store.view, Store.put, free]
      refine ⟨trivial, rfl, ?_⟩
      funext c
      rw [base]
      simp [eq_comm]
  | setVar var value =>
      simp only [Server.serve, granted, Server.perform, Server.run, sound, Bool.false_eq_true, if_false, View.run, Server.prepare]
      simp only [Store.view, Store.put, free]
      refine ⟨trivial, rfl, ?_⟩
      funext c
      rw [base]
      simp
  | _ => exact restoring.elim

theorem serve_batch_listens (batch : List Sql) (restoring : ∀ sql ∈ batch, sql.restoring) (granted : ∀ i, env.refuses t (i + 1) = none)
    (attends : s.Listens listens) : (s.serveBatch env t batch).2.Listens fun c => decide (Sql.listen c ∈ batch) || listens c := by
  refine serve_batch_through batch (fun done s => s.Listens fun c => decide (Sql.listen c ∈ done) || listens c) ?_ ?_
  · intro i sql done s among attends
    obtain ⟨answer, next⟩ := serve_restoring (i + 1) (restoring sql among) (granted i) attends
    refine ⟨⟨_, answer⟩, next.1, next.2.trans ?_⟩
    funext c
    simp only [List.mem_append, List.mem_singleton, Bool.decide_or]
    rw [show decide (Sql.listen c = sql) = decide (sql = Sql.listen c) from decide_eq_decide.mpr eq_comm, ← Bool.or_assoc]
    rw [Bool.or_comm (decide (sql = Sql.listen c))]
  · simpa using attends

end

-- Statements that restore a session get through, and no request is lost on a connection
-- that lives on.
structure Outside.Restores (env : Outside) : Prop where
  granted : ∀ t i, env.refuses t (i + 1) = none
  heard : ∀ t, env.fate t ≠ .nullBefore ∧ env.fate t ≠ .nullAfter

theorem listens_restoring {env : Outside} (restores : env.Restores) (c : Connection) (named : ∀ r ∈ c.receivers, r.1 ≠ "") :
    Restoring env 0 (Connection.restoreQuery c) (Server.Listens fun _ => false) (Server.Listens (channels c.receivers)) := by
  have sets (t : Nat) (s : Server) (listens : String → Bool) (less : ∀ channel, listens channel = true → channels c.receivers channel = true)
      (attends : s.Listens listens) : (s.serveBatch env t (Connection.restoreQuery c)).2.Listens (channels c.receivers) := by
    have served := serve_batch_listens _ (Connection.restore_query_restoring c) (restores.granted t) attends
    refine ⟨served.1, served.2.trans ?_⟩
    funext channel
    have whole := restore_query_channels c named channel
    cases there : channels c.receivers channel with
    | true => rw [decide_eq_true (whole.mpr there), Bool.true_or]
    | false =>
        rw [decide_eq_false (fun among => by rw [whole.mp among] at there; cases there), Bool.false_or]
        cases before : listens channel with
        | false => rfl
        | true =>
            rw [less channel before] at there
            cases there
  constructor
  case begins => exact fun s => ⟨rfl, rfl⟩
  case sends => exact fun t s _ => sets t s _ nofun
  case again => exact fun t s _ => sets t s _ fun _ => id
  case unsent => exact fun t _ _ unsent _ => absurd unsent (restores.heard t).1

-- Nothing is counted that cannot be recovered, and no channel is nameless.
structure Plain (w : World) : Prop where
  regardless : w.conn.reactivationAvoidance = 0
  nought : ∀ i, (w.trans i).reactivationAvoidance = 0
  named : ∀ r ∈ w.conn.receivers, r.1 ≠ ""

-- The session listens to the channels of the receivers, whichever way a block in it
-- might end.
structure Attuned (w : World) : Prop extends Plain w where
  raw : w.conn.isOpen = false → Raw w.conn (Server.Listens fun _ => false) w
  there : w.conn.isOpen = true → w.server.store.Keyed View.listens (channels w.conn.receivers) (channels w.conn.receivers)

def Unturned (w w' : World) : Prop := w'.trans = w.trans

theorem unturned_upkeep (env : Outside) : Upkeep env Unturned where
  same _ := rfl
  onward _ _ _ left right := right.trans left
  link _ _ _ trans _ _ _ := trans
  ends _ _ _ trans _ _ _ := trans
  asks _ _ _ := rfl
  restores _ _ _ := rfl

theorem unturned_request (env : Outside) (sql : Sql) : Request env Unturned sql := ⟨fun _ => rfl, fun _ => rfl⟩

section

variable {env : Outside} {w u : World}

theorem plain_tended (plain : Plain w) (tended : Tended w.conn u.conn) (turned : u.trans = w.trans) : Plain u where
  regardless := tended.reactivationAvoidance.trans plain.regardless
  nought := by rw [turned]; exact plain.nought
  named := by rw [tended.receivers]; exact plain.named

theorem attuned_ripe (plain : Plain w) (ripe : Ripe 0 w.conn (Server.Listens (channels w.conn.receivers)) u) (isOpen : u.conn.isOpen = true)
    (turned : u.trans = w.trans) : Attuned u := by
  obtain ⟨h, handle, ok, _⟩ := open_handle isOpen
  obtain ⟨h', handle', _, good⟩ := ripe.restored
  rw [handle] at handle'
  obtain rfl := Option.some.inj handle'
  obtain ⟨_, ⟨free, base⟩, _⟩ := good ok
  refine ⟨plain_tended plain ripe.tended turned, fun closed => ?_, fun _ => ?_⟩
  · rw [isOpen] at closed
    cases closed
  · rw [ripe.tended.receivers]
    refine ⟨base, fun b block => ?_, fun b block => ?_⟩
    · rw [free] at block
      cases block
    · rw [free] at block
      cases block

theorem attuned_raw (plain : Plain w) (raw : Raw w.conn (Server.Listens fun _ => false) u) (closed : u.conn.isOpen = false)
    (turned : u.trans = w.trans) : Attuned u := by
  refine ⟨plain_tended plain raw.tended turned, fun _ => ⟨tended_refl _, raw.begun⟩, fun isOpen => ?_⟩
  rw [closed] at isOpen
  cases isOpen

theorem attuned_down (plain : Plain w) (down : Down w.conn u) (turned : u.trans = w.trans) : Attuned u :=
  attuned_raw plain (raw_down down) (down_closed down) turned

-- Where the session goes on and listens to the same.
theorem attuned_goes {server : Server} (plain : Plain w) (goes : Goes w u server)
    (keyed : server.store.Keyed View.listens (channels w.conn.receivers) (channels w.conn.receivers)) (turned : u.trans = w.trans) :
    Attuned u := by
  refine ⟨plain_tended plain goes.tended turned, fun closed => ?_, fun _ => ?_⟩
  · rw [goes.isOpen] at closed
    cases closed
  · rw [goes.tended.receivers, goes.server]
    exact keyed

theorem activate_attuned (restores : env.Restores) (attuned : Attuned w) :
    wp (Connection.activate env) (fun _ u => Attuned u ∧ Tended w.conn u.conn ∧ u.conn.isOpen = true) (fun _ u => Attuned u) w := by
  cases isOpen : w.conn.isOpen with
  | true => exact wp_ok (Connection.activate_open isOpen) ⟨attuned, tended_refl _, isOpen⟩
  | false =>
      have sets := activate_sets_up (listens_restoring restores w.conn attuned.named) isOpen (attuned.raw isOpen) (Nat.zero_le _)
      refine wp_mono (wp_and sets (wp_keeps (Connection.activate_keeps (unturned_upkeep env)))) ?_ ?_
      · rintro _ u ⟨⟨_, avoided⟩ | ⟨ripe, opened⟩, turned⟩
        · exact absurd attuned.regardless avoided
        · exact ⟨attuned_ripe attuned.toPlain ripe opened turned, ripe.tended, opened⟩
      · rintro _ u ⟨⟨raw, closed⟩, turned⟩
        exact attuned_raw attuned.toPlain raw closed turned

theorem reset_attuned (restores : env.Restores) (plain : Plain w)
    (raw : w.conn.isOpen = false → Raw w.conn (Server.Listens fun _ => false) w) :
    wp (Connection.reset env) (fun _ u => Attuned u) (fun _ u => u = w ∨ Attuned u) w := by
  have sets := reset_sets_up (listens_restoring restores w.conn plain.named) (tended_refl _) raw (Nat.zero_le _)
  refine wp_mono (wp_and sets (wp_keeps (Connection.reset_keeps (unturned_upkeep env)))) ?_ ?_
  · rintro _ u ⟨⟨_, avoided⟩ | ⟨ripe, opened⟩, turned⟩
    · exact absurd plain.regardless avoided
    · exact attuned_ripe plain ripe opened turned
  · rintro _ u ⟨⟨same, _⟩ | ⟨raw, closed⟩, turned⟩
    · exact .inl same
    · exact .inr (attuned_raw plain raw closed turned)

-- A statement that leaves alone what is listened on, or changes nothing about it.
theorem serve_attuned {s : Server} {listens : String → Bool} {t i : Nat} {sql : Sql} (keyed : s.store.Keyed View.listens listens listens)
    (same : sql.deaf ∨ ∃ channel, sql = .unlisten channel ∧ listens channel = false) :
    (s.serve env t i sql).2.store.Keyed View.listens listens listens := by
  have runs (deaf : ∀ v rows, s.store.view.run env t s.prepared sql = .ok (v, rows) → v.listens = s.store.view.listens) :
      (s.run env t sql).2.store.Keyed View.listens listens listens := server_run_keyed keyed sql deaf
  simp only [Server.serve]
  split
  · simp only [Server.refuse]
    split
    · exact Store.keyed_rollback keyed
    · exact Store.keyed_fail keyed
  · rcases same with deaf | ⟨channel, rfl, off⟩
    · have runs := runs fun v rows outcome => (run_same outcome).2 deaf
      cases sql with
      | begin args =>
          simp only [Server.perform]
          split
          · exact keyed
          · exact Store.keyed_begin keyed (fun v => { v with marks := t :: v.marks }) fun _ => rfl
      | commit => exact Store.keyed_commit keyed
      | rollback => exact Store.keyed_rollback keyed
      | savepoint name => exact keep_keyed keyed _ _ _ fun _ => Store.keyed_savepoint keyed
      | release name => exact keep_keyed keyed _ _ _ fun _ => Store.keyed_release keyed
      | rollbackTo name => exact keep_keyed keyed _ _ _ fun _ => Store.keyed_rollback_to keyed
      | _ => exact runs
    · refine runs fun v rows outcome => ?_
      cases outcome
      funext c
      simp only [Store.keyed_view keyed]
      by_cases here : c = channel
      · rw [here, off]
        simp
      · simp [here]

-- exec() on a connection that is open, of a statement that changes nothing about what is
-- listened on.
theorem exec_open_attuned {sql : Sql} (attuned : Attuned w) (isOpen : w.conn.isOpen = true)
    (same : sql.deaf ∨ ∃ channel, sql = .unlisten channel ∧ channels w.conn.receivers channel = false) (retries : Nat) :
    wp (Connection.exec env sql retries) (fun _ u => Attuned u) (fun _ u => Attuned u) w := by
  have turns := wp_keeps (s := w) (Connection.exec_keeps (unturned_upkeep env) (unturned_request env sql) retries)
  have served := @serve_attuned env w.server _ w.clock 0 sql (attuned.there isOpen) same
  refine wp_mono (wp_and (exec_leaves isOpen attuned.regardless retries) turns) ?_ ?_
  · rintro _ u ⟨⟨_, _, goes⟩, turned⟩
    exact attuned_goes attuned.toPlain goes served turned
  · rintro _ u ⟨⟨_, down | ⟨_, goes⟩ | ⟨goes, _⟩⟩, turned⟩
    · exact attuned_down attuned.toPlain down turned
    · exact attuned_goes attuned.toPlain goes (attuned.there isOpen) turned
    · exact attuned_goes attuned.toPlain goes served turned

theorem exec_attuned (restores : env.Restores) {sql : Sql} (attuned : Attuned w)
    (same : sql.deaf ∨ ∃ channel, sql = .unlisten channel ∧ channels w.conn.receivers channel = false) (retries : Nat) :
    wp (Connection.exec env sql retries) (fun _ u => Attuned u) (fun _ u => Attuned u) w := by
  refine exec_onward retries (wp_mono (activate_attuned restores attuned) ?_ fun _ _ => id)
  rintro _ v ⟨active, tended, isOpen⟩
  exact ⟨isOpen, exec_open_attuned active isOpen (by rw [tended.receivers]; exact same) retries⟩

theorem get_notifs_attuned (attuned : Attuned w) : wp (Connection.getNotifs env) (fun _ u => Attuned u) (fun _ u => Attuned u) w := by
  cases isOpen : w.conn.isOpen with
  | false =>
      rw [Connection.getNotifs, wp_bind, wp_get, if_pos isOpen]
      exact attuned
  | true =>
      have turns := wp_keeps (s := w) (Connection.get_notifs_keeps (unturned_upkeep env))
      refine wp_mono (wp_and (get_notifs_leaves isOpen) turns) ?_ ?_
      · exact fun _ u ends => attuned_goes attuned.toPlain ends.1 (attuned.there isOpen) ends.2
      · rintro _ u ⟨down | goes, turned⟩
        · exact attuned_down attuned.toPlain down turned
        · exact attuned_goes attuned.toPlain goes (attuned.there isOpen) turned

theorem disconnect_attuned (plain : Plain w) : wp Connection.disconnect (fun _ u => Attuned u) (fun _ _ => False) w := by
  have turns := wp_keeps (s := w) (pq_finish_keeps (unturned_upkeep .calm))
  refine wp_mono (wp_and (down_disconnect (tended_refl _)) turns) ?_ fun _ _ => And.left
  exact fun _ u ends => attuned_down plain ends.1 ends.2

theorem deactivate_attuned (attuned : Attuned w) : wp Connection.deactivate (fun _ u => Attuned u) (fun _ u => Attuned u) w := by
  rw [Connection.deactivate, wp_bind, wp_get]
  split
  · exact attuned
  · exact attuned
  · rw [if_neg (not_not_intro attuned.regardless), wp_bind, Connection.setCompleted, modifyConn, wp_modify]
    have plain : Plain { w with conn := { w.conn with completed := false } } := ⟨attuned.regardless, attuned.nought, attuned.named⟩
    exact wp_mono (disconnect_attuned plain) (fun _ _ => id) fun _ _ => False.elim

-- What a change that keeps to the client's side leaves.
theorem attuned_beside (attuned : Attuned w) (aside : Aside w.conn u.conn) (server : u.server = w.server)
    (nought : ∀ i, (u.trans i).reactivationAvoidance = 0) : Attuned u := by
  have isOpen : u.conn.isOpen = w.conn.isOpen := by rw [Connection.isOpen, Connection.isOpen, aside.handle, aside.completed]
  constructor
  case toPlain => exact ⟨aside.reactivationAvoidance.trans attuned.regardless, nought, by rw [aside.receivers]; exact attuned.named⟩
  case raw =>
    rw [isOpen]
    intro closed
    refine ⟨tended_refl _, ?_⟩
    rw [aside.handle, server]
    exact (attuned.raw closed).begun
  case there => rw [isOpen, aside.receivers, server]; exact attuned.there

end

def Attunes (w w' : World) : Prop := Attuned w → Attuned w'

theorem attunes_framing : Framing Attunes where
  same _ := id
  onward _ _ _ left right attuned := right (left attuned)

theorem attunes {α : Type} {m : Client α} (spec : ∀ w, Attuned w → wp m (fun _ u => Attuned u) (fun _ u => Attuned u) w) : Keeps Attunes m :=
  fun w attuned => wp_leaves (spec w attuned)

theorem aside_refl (c : Connection) : Aside c c := ⟨rfl, rfl, rfl, rfl, rfl, rfl, rfl⟩

theorem turns_attune (i : Nat) (f : Transaction → Transaction)
    (count : ∀ x : Transaction, x.reactivationAvoidance = 0 → (f x).reactivationAvoidance = 0) : Keeps Attunes (modifyTrans i f) := by
  intro w attuned
  refine attuned_beside attuned (aside_refl _) rfl fun j => ?_
  show (if j = i then f (w.trans j) else w.trans j).reactivationAvoidance = 0
  split
  · exact count _ (attuned.nought j)
  · exact attuned.nought j

theorem attunes_lifetime {env : Outside} (restores : env.Restores) : Lifetime env Attunes where
  toFraming := attunes_framing
  notices msg := by
    intro w attuned
    simp only [processNotice, Prog.modify_apply]
    split
    · exact attuned
    · exact attuned_beside attuned (aside_refl _) rfl attuned.nought
  activates := attunes fun w attuned => wp_mono (activate_attuned restores attuned) (fun _ _ done => done.1) fun _ _ => id
  manages sql managing retries := by
    refine attunes fun w attuned => exec_attuned restores attuned (.inl ?_) retries
    cases sql with
    | listen => exact managing.elim
    | unlisten => exact managing.elim
    | _ => trivial
  members f aside _ w attuned := attuned_beside attuned (aside _) rfl attuned.nought
  notes i f _ count := by
    refine turns_attune i f fun x zero => ?_
    rcases count x with same | cleared
    · exact same.trans zero
    · exact cleared
  exempts _ _ works _ := exempt_nought (fun _ attuned => attuned.regardless) works
  notifs := attunes fun w attuned => get_notifs_attuned attuned
  sends sql deaf retries := attunes fun w attuned => exec_attuned restores attuned (.inl deaf) retries
  turns i f count _ := turns_attune i f count
  begins i := by
    intro w attuned
    refine attuned_beside attuned (aside_refl _) rfl fun j => ?_
    show (if j = i then _ else w.trans j : Transaction).reactivationAvoidance = 0
    split
    · exact attuned.nought j
    · exact attuned.nought j
  nought _ each w attuned := each w attuned.nought w attuned
  opens i x zero := turns_attune i _ fun _ _ => zero
  merges vars w attuned := attuned_beside attuned ⟨rfl, rfl, rfl, rfl, rfl, rfl, rfl⟩ rfl attuned.nought

theorem attunes_duties {env : Outside} (restores : env.Restores) : Duties env Attunes := (attunes_lifetime restores).toDuties

-- The block in progress is to change what the session listens to, to just the channels of
-- the receivers.
structure Pending (w : World) : Prop extends Plain w where
  isOpen : w.conn.isOpen = true
  held : w.conn.trans ≠ none
  block : ∃ b, w.server.store.block = some b ∧ b.view.listens = channels w.conn.receivers

def Tuned (w : World) : Prop := Attuned w ∨ Pending w

-- What LISTEN and UNLISTEN make of what is listened to.
def Sql.tunes : Sql → (String → Bool) → String → Bool
  | .listen channel, listens, c => c = channel || listens c
  | .unlisten channel, listens, c => c ≠ channel && listens c
  | _, listens, c => listens c

section

variable {env : Outside} {w u : World} {sql : Sql}

theorem tuned_open (tuned : Tuned w) (isOpen : w.conn.isOpen = true) : w.server.store.view.listens = channels w.conn.receivers := by
  rcases tuned with attuned | pending
  · exact Store.keyed_view (attuned.there isOpen)
  · obtain ⟨b, block, listens⟩ := pending.block
    simp only [Store.view, block]
    exact listens

theorem tuned_plain (tuned : Tuned w) : Plain w := by
  rcases tuned with attuned | pending
  · exact attuned.toPlain
  · exact pending.toPlain

theorem tuned_closed (tuned : Tuned w) (closed : w.conn.isOpen = false) : Attuned w := by
  rcases tuned with attuned | pending
  · exact attuned
  · have isOpen := pending.isOpen
    rw [closed] at isOpen
    cases isOpen

theorem tuned_goes {server : Server} (tuned : Tuned w) (isOpen : w.conn.isOpen = true) (goes : Goes w u server)
    (same : server.store = w.server.store) (turned : u.trans = w.trans) : Tuned u := by
  rcases tuned with attuned | pending
  · refine .inl (attuned_goes attuned.toPlain goes ?_ turned)
    rw [same]
    exact attuned.there isOpen
  · obtain ⟨b, block, listens⟩ := pending.block
    refine .inr ⟨plain_tended pending.toPlain goes.tended turned, goes.isOpen, ?_, b, ?_, ?_⟩
    · rw [goes.tended.trans]
      exact pending.held
    · rw [goes.server, same, block]
    · rw [goes.tended.receivers]
      exact listens

-- Where a statement has changed what the session sees, in its block or for good.
theorem tuned_put {view : View} (plain : Plain u) (isOpen : u.conn.isOpen = true) (store : u.server.store = w.server.store.put view)
    (listens : view.listens = channels u.conn.receivers) (held : w.server.store.block.isSome = true → u.conn.trans ≠ none) : Tuned u := by
  cases block : w.server.store.block with
  | none =>
      refine .inl ⟨plain, fun closed => ?_, fun _ => ?_⟩
      · rw [isOpen] at closed
        cases closed
      · simp only [Store.put, block] at store
        rw [store]
        exact ⟨listens, fun _ inside => (by cases inside), fun _ inside => by cases inside⟩
  | some b =>
      refine .inr ⟨plain, isOpen, held (by rw [block]; rfl), { b with view }, ?_, listens⟩
      rw [store, Store.put, block]

-- Receivers are a matter of the client's, where their channels are the same, or nothing
-- listens anyway.
theorem tuned_receivers (tuned : Tuned w) (receivers : List (String × Nat)) (named : ∀ r ∈ receivers, r.1 ≠ "")
    (same : w.conn.isOpen = true → channels receivers = channels w.conn.receivers) :
    Tuned { w with conn := { w.conn with receivers } } := by
  rcases tuned with attuned | pending
  · refine .inl ⟨⟨attuned.regardless, attuned.nought, named⟩, ?_, fun isOpen => ?_⟩
    · exact fun closed => ⟨tended_refl _, (attuned.raw closed).begun⟩
    simp only [same isOpen]
    exact attuned.there isOpen
  · obtain ⟨b, block, listens⟩ := pending.block
    have kept := listens.trans (same pending.isOpen).symm
    exact .inr ⟨⟨pending.regardless, pending.nought, named⟩, pending.isOpen, pending.held, b, block, kept⟩

theorem serve_tunes {s : Server} {t : Nat} {rows : List (List String)} (tuning : ¬ sql.deaf) (answer : (s.serve env t 0 sql).1 = .rows rows) :
    ∃ view, (s.serve env t 0 sql).2.store = s.store.put view ∧ view.listens = sql.tunes s.store.view.listens := by
  cases sql with
  | listen channel =>
      simp only [Server.serve, Server.perform, Server.run, View.run] at answer ⊢
      split at answer
      · cases answer
      · split at answer
        · cases answer
        · rename_i granted sound
          simp only [sound]
          exact ⟨_, rfl, rfl⟩
  | unlisten channel =>
      simp only [Server.serve, Server.perform, Server.run, View.run] at answer ⊢
      split at answer
      · cases answer
      · split at answer
        · cases answer
        · rename_i granted sound
          simp only [sound]
          exact ⟨_, rfl, rfl⟩
  | _ => exact absurd trivial tuning

-- LISTEN and UNLISTEN only fail where the block has failed, unless they are refused.
theorem serve_tuning {s : Server} {t : Nat} (tuning : ¬ sql.deaf) (granted : env.refuses t 0 = none) :
    s.serve env t 0 sql = (.failed aborted, s) ∧ s.store.failed = true ∨ (s.serve env t 0 sql).1 = .rows [] ∧ s.store.failed = false := by
  cases sound : s.store.failed with
  | true =>
      cases sql with
      | listen channel => exact .inl ⟨by simp [Server.serve, Server.perform, Server.run, granted, sound], rfl⟩
      | unlisten channel => exact .inl ⟨by simp [Server.serve, Server.perform, Server.run, granted, sound], rfl⟩
      | _ => exact absurd trivial tuning
  | false =>
      cases sql with
      | listen channel => exact .inr ⟨by simp [Server.serve, Server.perform, Server.run, View.run, granted, sound], rfl⟩
      | unlisten channel => exact .inr ⟨by simp [Server.serve, Server.perform, Server.run, View.run, granted, sound], rfl⟩
      | _ => exact absurd trivial tuning

end

-- LISTEN and UNLISTEN are not refused, and a block they are sent in is a transaction's.
def Tuning (env : Outside) (w : World) : Prop :=
  (env.fate w.clock = .answered → env.refuses w.clock 0 = none) ∧ (w.server.store.block.isSome = true → w.conn.trans.isSome = true)

-- The block in progress changes what the session listens to, or did before a savepoint.
def Unsettled (w : World) : Prop :=
  ∃ b, w.server.store.block = some b ∧
    ¬ (b.view.listens = w.server.store.base.listens ∧ ∀ save ∈ b.saves, save.2.listens = w.server.store.base.listens)

-- Channels have names, and a block that changes what the session listens to goes on
-- until it is committed as a plain transaction, or the connection is lost.
def Confirming (env : Outside) (w : World) : ListeningOp → Prop
  | .addReceiver channel _ => channel ≠ "" ∧ (channels w.conn.receivers channel = false → w.conn.isOpen = true → Tuning env w)
  | .removeReceiver channel receiver =>
      (channel, receiver) ∈ w.conn.receivers → (w.conn.receivers.filter fun r => r.1 = channel).length = 1 → w.conn.isOpen = true →
        Tuning env w ∧ (env.fate w.clock = .answered → w.server.store.failed = false)
  | .exec i _ _ => Unsettled w → (w.trans i).status ≠ .nascent ∧ ((w.trans i).status = .active → env.fate w.clock = .answered →
      env.refuses w.clock 0 = none ∧ w.server.store.failed = false ∧ env.consumes (w.clock + 1) ≠ .trouble)
  | .commit i => Unsettled w → (w.trans i).status = .active →
      (w.trans i).kind = .work ∧ (env.fate w.clock = .answered → env.refuses w.clock 0 = none ∧ w.server.store.failed = false)
  | .abort i | .end_ i => Unsettled w → (w.trans i).status ≠ .active ∧ (w.trans i).registered = false
  | _ => True

section

variable {env : Outside} {w u : World}

theorem pending_settled (pending : Pending w) (settled : ¬ Unsettled w) : Attuned w := by
  obtain ⟨b, block, listens⟩ := pending.block
  have same : b.view.listens = w.server.store.base.listens ∧ ∀ save ∈ b.saves, save.2.listens = w.server.store.base.listens :=
    not_not.mp fun other => settled ⟨b, block, other⟩
  refine ⟨pending.toPlain, fun closed => ?_, fun _ => ⟨same.1.symm.trans listens, fun b' there => ?_, fun b' there save among => ?_⟩⟩
  · rw [pending.isOpen] at closed
    cases closed
  · rw [block] at there
    obtain rfl := Option.some.inj there
    exact listens
  · rw [block] at there
    obtain rfl := Option.some.inj there
    exact (same.2 save among).trans (same.1.symm.trans listens)

theorem insert_named {receivers : List (String × Nat)} {channel : String} {receiver : Nat} (named : ∀ r ∈ receivers, r.1 ≠ "")
    (name : channel ≠ "") : ∀ r ∈ insertReceiver channel receiver receivers, r.1 ≠ "" := by
  induction receivers with
  | nil =>
      intro r there
      obtain rfl := List.mem_singleton.mp there
      exact name
  | cons head rest ih =>
      intro r there
      rw [insertReceiver] at there
      split at there
      · rcases List.mem_cons.mp there with rfl | there
        · exact name
        · exact named r there
      · rcases List.mem_cons.mp there with rfl | there
        · exact named _ List.mem_cons_self
        · exact ih (fun r among => named r (List.mem_cons_of_mem _ among)) r there

theorem add_receiver_tuned (restores : env.Restores) (tuned : Tuned w) (channel : String) (receiver : Nat)
    (confirming : Confirming env w (.addReceiver channel receiver)) :
    wp (Connection.addReceiver env channel receiver) (fun _ u => Tuned u) (fun _ u => Tuned u) w := by
  obtain ⟨name, tuning⟩ := confirming
  have named := @insert_named w.conn.receivers channel receiver (tuned_plain tuned).named name
  have alters : ¬ (Sql.listen channel).deaf := id
  rw [Connection.addReceiver, wp_bind, wp_get]
  refine wp_ite _ _ _ _ _ _ (fun heard => ?_) fun unheard => ?_
  · refine tuned_receivers tuned _ named fun _ => ?_
    rw [channels_insert]
    funext c
    by_cases same : c = channel
    · rw [decide_eq_true same, Bool.true_or, same]
      exact heard.symm
    · rw [decide_eq_false same, Bool.false_or]
  rw [wp_bind]
  have adds (u : World) (tuned : Tuned u) (closed : u.conn.isOpen = false) (same : u.conn.receivers = w.conn.receivers) :
      wp (modifyConn fun c => { c with receivers := insertReceiver channel receiver c.receivers })
        (fun _ u => Tuned u) (fun _ u => Tuned u) u := by
    refine tuned_receivers tuned _ (by rw [same]; exact named) fun isOpen => ?_
    rw [closed] at isOpen
    cases isOpen
  refine wp_when _ _ _ _ _ (fun isOpen => ?_) fun closed => adds w tuned (Bool.eq_false_iff.mpr closed) rfl
  obtain ⟨granted, held⟩ := tuning (Bool.eq_false_iff.mpr unheard) isOpen
  have turns : Keeps Unturned (do
      let r ← pqExec env (.listen channel)
      let r ← Connection.makeResult env r
      Connection.checkResult env r (Sql.listen channel).text) := by
    have up := unturned_upkeep env
    refine keeps_bind up.toFraming (pq_exec_keeps up (unturned_request env _)) fun r => ?_
    exact keeps_bind up.toFraming (Connection.make_result_keeps up r) fun r => Connection.check_result_keeps up r _
  have requested := wp_and (@request_leaves env w (.listen channel) isOpen (tuned_plain tuned).regardless (Sql.listen channel).text)
    (wp_keeps turns)
  rw [wp_try_catch, wp_grouped]
  refine wp_mono requested ?_ ?_
  · rintro rows u ⟨⟨answer, goes⟩, turned⟩
    obtain ⟨view, store, listens⟩ := serve_tunes alters answer
    have plain := plain_tended (tuned_plain tuned) goes.tended turned
    refine @tuned_put w _ view ⟨plain.regardless, plain.nought, ?_⟩ goes.isOpen ?_ ?_ ?_
    · simp only [goes.tended.receivers]
      exact named
    · rw [← store, ← goes.server]
    · rw [listens, tuned_open tuned isOpen]
      simp only [goes.tended.receivers]
      exact (channels_insert channel receiver w.conn.receivers).symm
    · intro block
      simp only [goes.tended.trans]
      exact Option.isSome_iff_ne_none.mp (held block)
  · rintro e u ⟨down | ⟨unsent, _⟩ | ⟨goes, unheard | ⟨answered, error, answer, thrown⟩⟩, turned⟩
    · have attuned := attuned_down (tuned_plain tuned) down turned
      exact wp_ite _ _ _ _ _ _ (fun _ => adds u (.inl attuned) (down_closed down) down.tended.receivers) fun _ => .inl attuned
    · exact absurd unsent (restores.heard _).1
    · exact absurd unheard (restores.heard _).2
    · rcases @serve_tuning env _ w.server w.clock alters (granted answered) with ⟨failed, _⟩ | ⟨fine, _⟩
      · rw [failed] at answer goes
        obtain rfl := Answer.failed.inj answer
        have other : ¬ e.isA .brokenConnection = true := by
          have kind : Connection.errorKind aborted.state = .sqlError := by decide +kernel
          rw [thrown]
          simp [Connection.sqlException, Exn.isA, ExnKind.isA, kind]
        rw [if_neg other]
        exact tuned_goes tuned isOpen goes rfl turned
      · rw [fine] at answer
        cases answer

theorem channels_count (receivers : List (String × Nat)) (channel : String) :
    channels receivers channel = true ↔ 0 < (receivers.filter fun r => r.1 = channel).length := by
  rw [channels, List.any_eq_true, List.length_pos_iff_exists_mem]
  simp only [List.mem_filter]

theorem channels_erase {receivers : List (String × Nat)} {channel : String} {receiver : Nat} (there : (channel, receiver) ∈ receivers) :
    channels (receivers.erase (channel, receiver)) = if (receivers.filter fun r => r.1 = channel).length = 1
      then (Sql.unlisten channel).tunes (channels receivers) else channels receivers := by
  have count (c : String) : (receivers.filter fun r => r.1 = c).length =
      (((channel, receiver) :: receivers.erase (channel, receiver)).filter fun r => r.1 = c).length :=
    ((List.perm_cons_erase there).filter _).length_eq
  funext c
  have left := channels_count (receivers.erase (channel, receiver)) c
  have right := channels_count receivers c
  rw [count c] at right
  by_cases same : c = channel
  · subst same
    have one := count c
    rw [List.filter_cons_of_pos (by simp), List.length_cons] at right one
    have held : channels receivers c = true := right.mpr (Nat.succ_pos _)
    split
    · simp only [Sql.tunes, ne_eq, not_true_eq_false, decide_false, Bool.false_and]
      refine Bool.eq_false_iff.mpr fun still => ?_
      have := left.mp still
      omega
    · rw [held]
      refine left.mpr ?_
      omega
  · rw [List.filter_cons_of_neg (by simpa using Ne.symm same)] at right
    have kept : channels (receivers.erase (channel, receiver)) c = channels receivers c := Bool.eq_iff_iff.mpr (left.trans right.symm)
    split
    · simp only [Sql.tunes, ne_eq, same, not_false_eq_true, decide_true, Bool.true_and]
      exact kept
    · exact kept

-- The receiver is gone by now.
theorem unlisten_tuned (restores : env.Restores) {channel : String} (plain : Plain w) (isOpen : w.conn.isOpen = true)
    (silent : (Sql.unlisten channel).tunes w.server.store.view.listens = channels w.conn.receivers)
    (granted : env.fate w.clock = .answered → env.refuses w.clock 0 = none ∧ w.server.store.failed = false)
    (held : w.server.store.block.isSome = true → w.conn.trans.isSome = true) :
    wp (Connection.exec env (.unlisten channel) 0) (fun _ u => Tuned u) (fun _ u => Tuned u) w := by
  have alters : ¬ (Sql.unlisten channel).deaf := id
  have turns := wp_keeps (s := w) (Connection.exec_keeps (unturned_upkeep env) (unturned_request env (.unlisten channel)) 0)
  have stops (u : World) (rows : List (List String)) (answer : (w.server.serve env w.clock 0 (.unlisten channel)).1 = .rows rows)
      (goes : Goes w u (w.server.serve env w.clock 0 (.unlisten channel)).2) (turned : u.trans = w.trans) : Tuned u := by
    obtain ⟨view, store, listens⟩ := serve_tunes alters answer
    refine @tuned_put w u view (plain_tended plain goes.tended turned) goes.isOpen ?_ ?_ ?_
    · rw [← store, ← goes.server]
    · rw [listens, goes.tended.receivers]
      exact silent
    · intro block
      rw [goes.tended.trans]
      exact Option.isSome_iff_ne_none.mp (held block)
  refine wp_mono (wp_and (exec_leaves isOpen plain.regardless 0) turns) ?_ ?_
  · rintro rows u ⟨⟨_, answer, goes⟩, turned⟩
    exact stops u rows answer goes turned
  · rintro _ u ⟨⟨_, down | ⟨unsent, _⟩ | ⟨goes, unheard | ⟨answered, _⟩⟩⟩, turned⟩
    · exact .inl (attuned_down plain down turned)
    · exact absurd unsent (restores.heard _).1
    · exact absurd unheard (restores.heard _).2
    · obtain ⟨fit, sound⟩ := granted answered
      rcases @serve_tuning env _ w.server w.clock alters fit with ⟨_, failed⟩ | ⟨fine, _⟩
      · rw [sound] at failed
        cases failed
      · exact stops u _ fine goes turned

theorem remove_receiver_tuned (restores : env.Restores) (tuned : Tuned w) (channel : String) (receiver : Nat)
    (confirming : Confirming env w (.removeReceiver channel receiver)) :
    wp (Connection.removeReceiver env channel receiver) (fun _ u => Tuned u) (fun _ _ => False) w := by
  have notice (msg : String) (u : World) (tuned : Tuned u) : wp (processNotice msg) (fun _ u => Tuned u) (fun _ _ => False) u := by
    simp only [processNotice, wp_modify]
    split
    · exact tuned
    · rcases tuned with attuned | pending
      · exact .inl (attuned_beside attuned (aside_refl _) rfl attuned.nought)
      · exact .inr ⟨⟨pending.regardless, pending.nought, pending.named⟩, pending.isOpen, pending.held, pending.block⟩
  have named : ∀ r ∈ w.conn.receivers.erase (channel, receiver), r.1 ≠ "" :=
    fun r there => (tuned_plain tuned).named r (List.mem_of_mem_erase there)
  rw [Connection.removeReceiver, wp_try_catch]
  suffices body : wp (do
      let w ← Prog.get
      if (channel, receiver) ∈ w.conn.receivers then do
        let gone := w.conn.handle.isSome && decide ((w.conn.receivers.filter fun r => r.1 = channel).length = 1)
        modifyConn fun c => { c with receivers := c.receivers.erase (channel, receiver) }
        Prog.when (gone = true) do
          let _ ← Connection.exec env (.unlisten channel) 0
          pure ()
      else processNotice ("Attempt to remove unknown receiver '" ++ channel ++ "'")) (fun _ u => Tuned u) (fun _ u => Tuned u) w from
    wp_mono body (fun _ _ => id) fun e u tuned => notice e.what u tuned
  rw [wp_bind, wp_get]
  refine wp_ite _ _ _ _ _ _ (fun there => ?_) fun _ => wp_mono (notice _ w tuned) (fun _ _ => id) fun _ _ => False.elim
  have erased := channels_erase there
  rw [wp_bind, modifyConn, wp_modify]
  refine wp_when _ _ _ _ _ (fun gone => ?_) fun more => ?_
  · have last : (w.conn.receivers.filter fun r => r.1 = channel).length = 1 := of_decide_eq_true (Bool.and_eq_true_iff.mp gone).2
    rw [if_pos last] at erased
    rw [wp_bind]
    cases isOpen : w.conn.isOpen with
    | false =>
        have silent : Tuned { w with conn := { w.conn with receivers := w.conn.receivers.erase (channel, receiver) } } := by
          refine tuned_receivers tuned _ named fun opened => ?_
          rw [isOpen] at opened
          cases opened
        have off : channels (w.conn.receivers.erase (channel, receiver)) channel = false := by
          rw [erased]
          simp [Sql.tunes]
        refine wp_mono (exec_attuned restores (tuned_closed silent isOpen) (.inr ⟨channel, rfl, off⟩) 0) ?_ ?_
        · exact fun _ _ => .inl
        · exact fun _ _ => .inl
    | true =>
        obtain ⟨⟨granted, held⟩, sound⟩ := confirming there last isOpen
        have plain : Plain { w with conn := { w.conn with receivers := w.conn.receivers.erase (channel, receiver) } } :=
          ⟨(tuned_plain tuned).regardless, (tuned_plain tuned).nought, named⟩
        refine wp_mono (unlisten_tuned restores plain isOpen ?_ (fun answered => ⟨granted answered, sound answered⟩) held) ?_ ?_
        · rw [tuned_open tuned isOpen]
          exact erased.symm
        · exact fun _ _ => id
        · exact fun _ _ => id
  · refine tuned_receivers tuned _ named fun isOpen => ?_
    obtain ⟨h, handle, _⟩ := open_handle isOpen
    rw [erased, if_neg]
    intro last
    exact more (by rw [handle, last]; rfl)

theorem pending_beside (pending : Pending w) (aside : Aside w.conn u.conn) (trans : u.conn.trans = w.conn.trans) (server : u.server = w.server)
    (nought : ∀ i, (u.trans i).reactivationAvoidance = 0) : Pending u := by
  have isOpen : u.conn.isOpen = w.conn.isOpen := by rw [Connection.isOpen, Connection.isOpen, aside.handle, aside.completed]
  refine ⟨⟨aside.reactivationAvoidance.trans pending.regardless, nought, ?_⟩, isOpen.trans pending.isOpen, ?_, ?_⟩
  · rw [aside.receivers]
    exact pending.named
  · rw [trans]
    exact pending.held
  · rw [server, aside.receivers]
    exact pending.block

theorem pending_turn (pending : Pending w) (i : Nat) (f : Transaction → Transaction)
    (count : ∀ x : Transaction, x.reactivationAvoidance = 0 → (f x).reactivationAvoidance = 0) : Pending (modifyTrans i f w).2 := by
  refine pending_beside pending (aside_refl _) rfl rfl fun j => ?_
  show (if j = i then f (w.trans j) else w.trans j).reactivationAvoidance = 0
  split
  · exact count _ (pending.nought j)
  · exact pending.nought j

theorem pending_notice (pending : Pending w) (msg : String) : Pending (processNotice msg w).2 := by
  simp only [processNotice, Prog.modify_apply]
  split
  · exact pending
  · exact pending_beside pending (aside_refl _) rfl rfl pending.nought

theorem notice_pending (pending : Pending w) (msg : String) :
    wp (processNotice msg) (fun _ u => Tuned u) (fun _ u => Tuned u) w := .inr (pending_notice pending msg)

-- An error that is pending is thrown, and nothing is sent.
theorem check_pending_spec (pending : Pending w) (i : Nat) :
    wp (Transaction.checkPendingError i) (fun _ u => u = w ∧ (w.trans i).pendingError = "")
      (fun _ u => Pending u ∧ (u.trans i).status = (w.trans i).status ∧ (u.trans i).registered = (w.trans i).registered) w := by
  rw [Transaction.checkPendingError, wp_bind, wp_get]
  refine wp_ite _ _ _ _ _ _ (fun _ => ?_) fun none_ => ⟨rfl, not_not.mp none_⟩
  refine ⟨pending_turn pending i (fun x => { x with pendingError := "" }) fun _ => id, ?_, ?_⟩
  · simp only [if_true]
  · simp only [if_true]

-- A statement that gets through leaves the block as it is, and one that does not leaves
-- no connection.
theorem statement_pending (restores : env.Restores) (pending : Pending w) (i : Nat) (query : String) (args : List (Option String))
    (granted : env.fate w.clock = .answered →
      env.refuses w.clock 0 = none ∧ w.server.store.failed = false ∧ env.consumes (w.clock + 1) ≠ .trouble) :
    wp (Connection.exec env (.statement i query args) 0) (fun _ u => Tuned u) (fun _ u => Attuned u) w := by
  have turns := wp_keeps (s := w) (Connection.exec_keeps (unturned_upkeep env) (unturned_request env (.statement i query args)) 0)
  have served (fit : env.refuses w.clock 0 = none) (sound : w.server.store.failed = false) :
      w.server.serve env w.clock 0 (.statement i query args) =
        (.rows (env.rows w.clock), { w.server with store := w.server.store.put (w.server.store.view.apply w.clock i query) }) := by
    simp only [Server.serve, fit, Server.perform, Server.run, sound, Bool.false_eq_true, if_false, View.run, Server.prepare]
  refine wp_mono (wp_and (exec_leaves pending.isOpen pending.regardless 0) turns) ?_ ?_
  · rintro rows u ⟨⟨answered, _, goes⟩, turned⟩
    obtain ⟨fit, sound, _⟩ := granted answered
    rw [served fit sound] at goes
    have store : u.server.store = w.server.store.put (w.server.store.view.apply w.clock i query) := by rw [goes.server]
    refine tuned_put (plain_tended pending.toPlain goes.tended turned) goes.isOpen store ?_ fun _ => ?_
    · rw [goes.tended.receivers]
      exact tuned_open (.inr pending) pending.isOpen
    · rw [goes.tended.trans]
      exact pending.held
  · rintro _ u ⟨⟨_, down | ⟨unsent, _⟩ | ⟨_, unheard | ⟨answered, trouble | ⟨error, answer⟩⟩⟩⟩, turned⟩
    · exact attuned_down pending.toPlain down turned
    · exact absurd unsent (restores.heard _).1
    · exact absurd unheard (restores.heard _).2
    · exact absurd trouble (granted answered).2.2
    · obtain ⟨fit, sound, _⟩ := granted answered
      rw [served fit sound] at answer
      cases answer

theorem activate_for_begun {i : Nat} (begun : (w.trans i).status ≠ .nascent) (purpose : String) :
    wp (Transaction.activateFor env i purpose) (fun _ u => u = w ∧ (w.trans i).status = .active) (fun _ u => u = w) w := by
  have first : wp (Transaction.activate env i) (fun _ u => u = w ∧ (w.trans i).status = .active) (fun _ u => u = w) w := by
    rw [Transaction.activate, wp_bind, wp_get]
    cases status : (w.trans i).status with
    | nascent => exact absurd status begun
    | active => exact ⟨rfl, rfl⟩
    | committed => exact rfl
    | aborted => exact rfl
    | inDoubt => exact rfl
  rw [Transaction.activateFor, wp_try_catch]
  refine wp_mono first (fun _ _ => id) ?_
  rintro e _ rfl
  exact wp_ite _ _ _ _ _ _ (fun _ => rfl) fun _ => rfl

-- What comes after the connection is in tune again keeps it so.
theorem attuned_by {α : Type} {m : Client α} (keeps : Keeps Attunes m) (attuned : Attuned w) :
    wp m (fun _ u => Attuned u) (fun _ u => Attuned u) w :=
  wp_mono (wp_keeps keeps) (fun _ _ onward => onward attuned) fun _ _ onward => onward attuned

theorem then_attuned {α β : Type} {m : Client β} {f : β → Client α} (first : wp m (fun _ u => Attuned u) (fun _ u => Attuned u) w)
    (rest : ∀ b, Keeps Attunes (f b)) : wp (m >>= f) (fun _ u => Attuned u) (fun _ u => Attuned u) w := by
  rw [wp_bind]
  exact wp_mono first (fun b _ attuned => attuned_by (rest b) attuned) fun _ _ => id

theorem else_attuned {α : Type} {m : Client α} {handler : Exn → Client α} (body : wp m (fun _ u => Attuned u) (fun _ u => Attuned u) w)
    (caught : ∀ e, Keeps Attunes (handler e)) : wp (tryCatch m handler) (fun _ u => Attuned u) (fun _ u => Attuned u) w := by
  rw [wp_try_catch]
  exact wp_mono body (fun _ _ => id) fun e _ attuned => attuned_by (caught e) attuned

theorem exec_pending (restores : env.Restores) (pending : Pending w) (i : Nat) (query desc : String)
    (running : (w.trans i).status ≠ .nascent ∧ ((w.trans i).status = .active → env.fate w.clock = .answered →
      env.refuses w.clock 0 = none ∧ w.server.store.failed = false ∧ env.consumes (w.clock + 1) ≠ .trouble)) :
    wp (Transaction.exec env i query desc) (fun _ u => Tuned u) (fun _ u => Tuned u) w := by
  obtain ⟨begun, granted⟩ := running
  have duties := attunes_duties restores
  rw [Transaction.exec, Transaction.execSql, wp_bind]
  refine wp_mono (check_pending_spec pending i) ?_ fun _ _ kept => .inr kept.1
  rintro _ u ⟨rfl, quiet⟩
  rw [wp_bind, wp_get]
  cases (u.trans i).focus with
  | some f => exact .inr pending
  | none =>
      rw [wp_bind]
      refine wp_mono (activate_for_begun begun _) ?_ fun _ v same => .inr (same ▸ pending)
      rintro _ v ⟨rfl, active⟩
      have fits := granted active
      have executes : wp (Transaction.directExec env i (.statement i query []) 0) (fun _ u => Tuned u) (fun _ u => Attuned u) v := by
        rw [Transaction.directExec, wp_bind]
        exact wp_ok (Transaction.check_pending_clean quiet) (statement_pending restores pending i query [] (granted active))
      rw [Transaction.doExec, wp_try_catch]
      refine wp_mono executes (fun _ _ => id) fun e u attuned => ?_
      refine wp_mono (attuned_by (keeps_bind attunes_framing ?_ fun _ => keeps_throw attunes_framing _) attuned) (fun _ _ => .inl) fun _ _ => .inl
      exact Transaction.swallow_keeps duties.toChores (Transaction.abort_keeps duties)

-- COMMIT makes good what the block has changed.
theorem commit_confirms (restores : env.Restores) (pending : Pending w)
    (granted : env.fate w.clock = .answered → env.refuses w.clock 0 = none ∧ w.server.store.failed = false) :
    wp (Connection.exec env .commit 0) (fun _ u => Attuned u) (fun _ u => Attuned u) w := by
  have turns := wp_keeps (s := w) (Connection.exec_keeps (unturned_upkeep env) (unturned_request env .commit) 0)
  have commits (u : World) (answered : env.fate w.clock = .answered) (goes : Goes w u (w.server.serve env w.clock 0 .commit).2)
      (turned : u.trans = w.trans) : Attuned u := by
    obtain ⟨fit, sound⟩ := granted answered
    obtain ⟨b, block, listens⟩ := pending.block
    have whole : ¬ b.failed = true := by
      intro failed
      simp only [Store.failed, block, Option.any_some, failed] at sound
      cases sound
    refine attuned_goes pending.toPlain goes ?_ turned
    simp only [Server.serve, fit, Server.perform, Store.commit, block, if_neg whole]
    exact ⟨listens, fun _ inside => (by cases inside), fun _ inside => by cases inside⟩
  refine wp_mono (wp_and (exec_leaves pending.isOpen pending.regardless 0) turns) ?_ ?_
  · rintro rows u ⟨⟨answered, _, goes⟩, turned⟩
    exact commits u answered goes turned
  · rintro _ u ⟨⟨_, down | ⟨unsent, _⟩ | ⟨goes, unheard | ⟨answered, _⟩⟩⟩, turned⟩
    · exact attuned_down pending.toPlain down turned
    · exact absurd unsent (restores.heard _).1
    · exact absurd unheard (restores.heard _).2
    · exact commits u answered goes turned

theorem commit_pending (restores : env.Restores) (pending : Pending w) (i : Nat)
    (confirming : (w.trans i).status = .active →
      (w.trans i).kind = .work ∧ (env.fate w.clock = .answered → env.refuses w.clock 0 = none ∧ w.server.store.failed = false)) :
    wp (Transaction.commit env i) (fun _ u => Tuned u) (fun _ u => Tuned u) w := by
  have duties := attunes_duties restores
  have framing := attunes_framing
  rw [Transaction.commit, wp_bind]
  refine wp_mono (check_pending_spec pending i) ?_ fun _ _ kept => .inr kept.1
  rintro _ u ⟨rfl, quiet⟩
  rw [wp_bind, wp_get]
  cases status : (u.trans i).status with
  | nascent => exact .inr pending
  | aborted => exact .inr pending
  | committed => exact notice_pending pending _
  | inDoubt => exact .inr pending
  | active =>
      cases (u.trans i).focus with
      | some f => exact .inr pending
      | none =>
          refine wp_ite _ _ _ _ _ _ (fun _ => .inr pending) fun _ => ?_
          obtain ⟨plain, granted⟩ := confirming status
          have sends : wp (Transaction.direct env i .commit 0) (fun _ v => Attuned v) (fun _ v => Attuned v) u := by
            rw [Transaction.direct, wp_bind, Transaction.directExec, wp_bind]
            refine wp_ok (Transaction.check_pending_clean quiet) ?_
            exact wp_mono (commit_confirms restores pending granted) (fun _ _ => id) fun _ _ => id
          have commits : wp (Transaction.doCommit env i) (fun _ v => Attuned v) (fun _ v => Attuned v) u := by
            rw [Transaction.doCommit, wp_bind, wp_get, plain]
            refine else_attuned sends fun e => keeps_get fun v => keeps_ite _ ?_ (keeps_throw framing _)
            refine keeps_bind framing (duties.notices _) fun _ => ?_
            exact keeps_bind framing (duties.notices _) fun _ => keeps_throw framing _
          have turns (status : Status) : Keeps Attunes (Transaction.setStatus i status) := duties.turns i _ (fun _ => id) fun _ => rfl
          refine wp_mono (then_attuned (else_attuned (then_attuned commits fun _ => turns _) fun e => ?_) fun _ => keeps_get fun v => ?_)
            (fun _ _ => .inl) fun _ _ => .inl
          · exact keeps_bind framing (turns _) fun _ => keeps_throw framing _
          · exact keeps_bind framing ((attunes_lifetime restores).merges _) fun _ => Transaction.end_keeps duties

-- A transaction that has nothing to do with the connection any more closes quietly.
theorem end_closed_pending (pending : Pending w) {i : Nat} (gone : (w.trans i).registered = false) :
    wp (Transaction.endClosed i) (fun _ u => Pending u ∧ (u.trans i).status = (w.trans i).status) (fun _ _ => False) w := by
  have rest (u : World) (pending : Pending u) (same : (u.trans i).status = (w.trans i).status) (gone : (u.trans i).registered = false) :
      wp (do
          let w ← Prog.get
          Prog.when ((w.trans i).registered = true) do
            modifyTrans i fun x => { x with registered := false }
            Connection.unregisterTransaction i : Client Unit)
        (fun _ u => Pending u ∧ (u.trans i).status = (w.trans i).status) (fun _ _ => False) u := by
    rw [wp_bind, wp_get]
    refine wp_when _ _ _ _ _ (fun there => ?_) fun _ => ⟨pending, same⟩
    rw [gone] at there
    cases there
  have checks : wp (Transaction.noticing (Transaction.checkPendingError i))
      (fun _ u => Pending u ∧ (u.trans i).status = (w.trans i).status ∧ (u.trans i).registered = false) (fun _ _ => False) w := by
    rw [Transaction.noticing, wp_try_catch]
    refine wp_mono (check_pending_spec pending i) ?_ ?_
    · rintro _ u ⟨rfl, _⟩
      exact ⟨pending, rfl, gone⟩
    · rintro e u ⟨pending, status, registered⟩
      have told := pending_notice pending e.what
      have trans : (processNotice e.what u).2.trans = u.trans := by
        simp only [processNotice, Prog.modify_apply]
        split <;> rfl
      refine ⟨told, ?_, ?_⟩
      · exact (congrArg (fun x => (x i).status) trans).trans status
      · exact (congrArg (fun x => (x i).registered) trans).trans (registered.trans gone)
  rw [Transaction.endClosed, wp_bind]
  exact wp_mono checks (fun _ u closed => rest u closed.1 closed.2.1 closed.2.2) fun _ _ => id

theorem abort_pending (pending : Pending w) {i : Nat} (over_ : (w.trans i).status ≠ .active) (gone : (w.trans i).registered = false) :
    wp (Transaction.abort env i) (fun _ u => Tuned u) (fun _ u => Tuned u) w := by
  rw [Transaction.abort, wp_bind, wp_get]
  cases status : (w.trans i).status with
  | nascent =>
      have ended : Pending (Transaction.setStatus i .aborted w).2 :=
        pending_turn pending i (fun x => { x with status := .aborted }) fun _ => id
      have still : ((Transaction.setStatus i .aborted w).2.trans i).registered = false := by
        simp only [Transaction.setStatus, modifyTrans, Prog.modify_apply, if_true]
        exact gone
      have turned : Transaction.setStatus i .aborted w = (.ok (), (Transaction.setStatus i .aborted w).2) := rfl
      rw [wp_bind]
      refine wp_ok turned ?_
      exact wp_mono (end_closed_pending ended still) (fun _ _ closed => .inr closed.1) fun _ _ => False.elim
  | active => exact absurd status over_
  | aborted => exact .inr pending
  | committed => exact .inr pending
  | inDoubt => exact notice_pending pending _

theorem end_pending (pending : Pending w) {i : Nat} (over_ : (w.trans i).status ≠ .active) (gone : (w.trans i).registered = false) :
    wp (Transaction.end_ env i) (fun _ u => Tuned u) (fun _ u => Tuned u) w := by
  rw [Transaction.end_, Transaction.noticing, wp_try_catch, wp_bind]
  refine wp_mono (end_closed_pending pending gone) ?_ fun _ _ => False.elim
  rintro _ u ⟨pending, same⟩
  rw [wp_bind, wp_get]
  refine wp_ite _ _ _ _ _ _ (fun active => ?_) fun _ => .inr pending
  rw [same] at active
  exact absurd active over_

-- While one transaction holds the connection, no other starts on it.
theorem open_work_pending (pending : Pending w) (i : Nat) (kind : Kind) (classname name startArgs logTable : String) :
    wp (openWork env i kind classname name startArgs logTable) (fun _ u => Tuned u) (fun _ u => Tuned u) w := by
  have fresh := pending_turn pending i (fun _ => Transaction.fresh kind classname name startArgs logTable) fun _ _ => rfl
  have turned : modifyTrans i (fun _ => Transaction.fresh kind classname name startArgs logTable) w =
      (.ok (), (modifyTrans i (fun _ => Transaction.fresh kind classname name startArgs logTable) w).2) := rfl
  rw [openWork, wp_bind]
  refine wp_ok turned ?_
  generalize (modifyTrans i (fun _ => Transaction.fresh kind classname name startArgs logTable) w).2 = u at fresh
  obtain ⟨old, held⟩ := Option.ne_none_iff_exists'.mp fresh.held
  rw [wp_bind, Connection.registerTransaction, wp_bind, wp_get, held]
  exact wp_ite _ _ _ _ _ _ (fun _ => .inr fresh) fun _ => .inr fresh

theorem open_subtransaction_pending (pending : Pending w) (i parent : Nat) (name : String) :
    wp (openSubtransaction i parent name) (fun _ u => Tuned u) (fun _ u => Tuned u) w := by
  have named : Pending { w with conn := { w.conn with uniqueId := w.conn.uniqueId + 1 } } :=
    pending_beside pending ⟨rfl, rfl, rfl, rfl, rfl, rfl, rfl⟩ rfl rfl pending.nought
  rw [openSubtransaction, wp_bind, Connection.adornName]
  simp only [modifyConn, wp_bind, wp_modify, wp_get, wp_pure]
  exact .inr (pending_turn named i (fun _ => Transaction.fresh (.subtransaction parent) "subtransaction" _ "" "") fun _ _ => rfl)

theorem step_pending (restores : env.Restores) (pending : Pending w) (unsettled : Unsettled w) (op : ListeningOp)
    (confirming : Confirming env w op) : Tuned (listeningStep env w op) := by
  have alone {α : Type} {m : Client α} (spec : wp m (fun _ u => Tuned u) (fun _ u => Tuned u) w) :
      wp (do
          let _ ← m
          pure ()) (fun _ u => Tuned u) (fun _ u => Tuned u) w := by
    rw [wp_bind]
    exact wp_mono spec (fun _ _ => id) fun _ _ => id
  refine @wp_leaves World Exn Unit Tuned (op.perform env) w ?_
  cases op with
  | addReceiver channel receiver => exact add_receiver_tuned restores (.inr pending) channel receiver confirming
  | removeReceiver channel receiver =>
      exact wp_mono (remove_receiver_tuned restores (.inr pending) channel receiver confirming) (fun _ _ => id) fun _ _ => False.elim
  | openWork i kind classname name startArgs logTable => exact open_work_pending pending i kind classname name startArgs logTable
  | openSubtransaction i parent name => exact open_subtransaction_pending pending i parent name
  | exec i query desc => exact alone (exec_pending restores pending i query desc (confirming unsettled))
  | commit i => exact commit_pending restores pending i (confirming unsettled)
  | abort i => exact abort_pending pending (confirming unsettled).1 (confirming unsettled).2
  | end_ i => exact end_pending pending (confirming unsettled).1 (confirming unsettled).2
  | getNotifs =>
      have turns := wp_keeps (s := w) (Connection.get_notifs_keeps (unturned_upkeep env))
      refine alone (wp_mono (wp_and (get_notifs_leaves pending.isOpen) turns) ?_ ?_)
      · exact fun _ u ends => tuned_goes (.inr pending) pending.isOpen ends.1 rfl ends.2
      · rintro _ u ⟨down | goes, turned⟩
        · exact .inl (attuned_down pending.toPlain down turned)
        · exact tuned_goes (.inr pending) pending.isOpen goes rfl turned
  | activate => exact wp_ok (Connection.activate_open pending.isOpen) (.inr pending)
  | reset =>
      have opened (closed : w.conn.isOpen = false) : Raw w.conn (Server.Listens fun _ => false) w := by
        rw [pending.isOpen] at closed
        cases closed
      refine wp_mono (reset_attuned restores pending.toPlain opened) (fun _ _ => .inl) ?_
      rintro _ u (rfl | attuned)
      · exact .inr pending
      · exact .inl attuned
  | deactivate =>
      obtain ⟨old, held⟩ := Option.ne_none_iff_exists'.mp pending.held
      obtain ⟨h, handle, _⟩ := open_handle pending.isOpen
      simp only [ListeningOp.perform]
      rw [Connection.deactivate, wp_bind, wp_get, handle, held]
      exact .inr pending
  | disconnect => exact wp_mono (disconnect_attuned pending.toPlain) (fun _ _ => .inl) fun _ _ => False.elim

theorem step_attuned (restores : env.Restores) (attuned : Attuned w) (op : ListeningOp) (confirming : Confirming env w op) :
    Tuned (listeningStep env w op) := by
  have duties := attunes_duties restores
  have alone {α : Type} {m : Client α} (keeps : Keeps Attunes m) : Keeps Attunes (do
      let _ ← m
      pure () : Client Unit) := keeps_bind attunes_framing keeps fun _ => keeps_pure attunes_framing _
  cases op with
  | addReceiver channel receiver => exact wp_leaves (add_receiver_tuned restores (.inl attuned) channel receiver confirming)
  | removeReceiver channel receiver =>
      exact wp_leaves (wp_mono (remove_receiver_tuned restores (.inl attuned) channel receiver confirming) (fun _ _ => id) fun _ _ => False.elim)
  | openWork i kind classname name startArgs logTable => exact .inl (open_work_keeps (attunes_lifetime restores) kind classname name startArgs logTable w attuned)
  | openSubtransaction i parent name => exact .inl (open_subtransaction_keeps (attunes_lifetime restores) parent name w attuned)
  | exec i query desc => exact .inl (alone (Transaction.exec_sql_keeps duties _ (by trivial) desc) w attuned)
  | commit i => exact .inl (Transaction.commit_keeps (attunes_lifetime restores) w attuned)
  | abort i => exact .inl (Transaction.abort_keeps duties w attuned)
  | end_ i => exact .inl (Transaction.end_keeps duties w attuned)
  | getNotifs => exact .inl (alone duties.notifs w attuned)
  | activate => exact .inl (duties.activates w attuned)
  | reset =>
      refine .inl (wp_leaves (wp_mono (reset_attuned restores attuned.toPlain attuned.raw) (fun _ _ => id) ?_))
      rintro _ u (rfl | again)
      · exact attuned
      · exact again
  | deactivate => exact .inl (wp_leaves (deactivate_attuned attuned))
  | disconnect => exact .inl (wp_leaves (wp_mono (disconnect_attuned attuned.toPlain) (fun _ _ => id) fun _ _ => False.elim))

theorem step_tuned (restores : env.Restores) (tuned : Tuned w) (op : ListeningOp) (confirming : Confirming env w op) :
    Tuned (listeningStep env w op) := by
  rcases tuned with attuned | pending
  · exact step_attuned restores attuned op confirming
  · by_cases unsettled : Unsettled w
    · exact step_pending restores pending unsettled op confirming
    · exact step_attuned restores (pending_settled pending unsettled) op confirming

end

-- Where the connection is open and no transaction is in progress, the session listens to
-- the channels that have receivers, and to no others.
def Attentive (w : World) : Prop :=
  w.conn.isOpen = true → w.conn.trans = none →
    ∀ channel, w.server.store.base.listens channel = true ↔ ∃ receiver, (channel, receiver) ∈ w.conn.receivers

theorem tuned_attentive {w : World} (tuned : Tuned w) : Attentive w := by
  intro isOpen idle channel
  rcases tuned with attuned | pending
  · rw [(attuned.there isOpen).base, channels, List.any_eq_true]
    constructor
    · rintro ⟨⟨c, receiver⟩, there, same⟩
      obtain rfl : c = channel := of_decide_eq_true same
      exact ⟨receiver, there⟩
    · rintro ⟨receiver, there⟩
      exact ⟨_, there, decide_eq_true rfl⟩
  · exact absurd idle pending.held

-- As long as what listens was not changed in a block that is then undone, the session
-- listens as the receivers want.
theorem receivers_attended (env : Outside) (policy : Policy) (w : World) (ops : List ListeningOp) (begun : w.conn = Connection.initial policy)
    (nought : ∀ i, (w.trans i).reactivationAvoidance = 0) (restores : env.Restores)
    (confirming : Along (Confirming env) (listeningStep env) w ops) : Attentive (run (listeningStep env) w ops) := by
  refine tuned_attentive (run_invariant (Confirming env) (listeningStep env) Tuned ?_ w ops confirming (.inl ⟨⟨?_, nought, ?_⟩, ?_, ?_⟩))
  · exact fun w op confirming tuned => step_tuned restores tuned op confirming
  · rw [begun]
    rfl
  · rw [begun]
    exact fun _ => nofun
  · intro _
    rw [begun]
    refine ⟨by rw [begun]; exact tended_refl _, fun h handle => ?_⟩
    rw [begun] at handle
    cases handle
  · intro isOpen
    rw [begun] at isOpen
    cases isOpen

theorem receivers_attended_committed :
    Attentive (run (listeningStep Outside.calm) (World.initial .direct)
      [.activate, .addReceiver "events" 0, .openWork 0 .work "transaction" "" "" "", .addReceiver "jobs" 1, .commit 0, .deactivate,
        .activate]) := by
  refine receivers_attended Outside.calm .direct (World.initial .direct) _ rfl (fun _ => rfl) ⟨fun _ _ => rfl, fun _ => ⟨nofun, nofun⟩⟩
    ⟨trivial, ⟨by decide, fun _ _ => ⟨fun _ => rfl, nofun⟩⟩, trivial, ⟨by decide, ?_⟩, ?_, trivial, trivial, trivial⟩
  · exact fun _ _ => ⟨fun _ => rfl, fun _ => rfl⟩
  · exact fun _ _ => ⟨rfl, fun _ => ⟨rfl, rfl⟩⟩

-- A receiver that comes while a transaction is in progress is not heard of by the backend
-- if that is aborted.
theorem receivers_attended_aborted :
    ¬ Attentive (run (listeningStep Outside.calm) (World.initial .direct)
      [.activate, .openWork 0 .work "transaction" "" "" "", .addReceiver "events" 0, .abort 0]) := by
  intro attentive
  have listens := (attentive rfl rfl "events").mpr ⟨0, by decide +kernel⟩
  revert listens
  decide +kernel

end Pqxx
