import Pqxx.ConnectionSpec

set_option autoImplicit false

namespace Pqxx

open Lib Prog

def Handle.Fit (h : Handle) : Prop := 90000 < h.version ∧ 2 < h.protocol

-- No statement is marked registered.
def Connection.Unmarked (c : Connection) : Prop := c.prepared.mapValues (fun _ p => { p with registered := false }) = c.prepared

-- What the statements that restore a session make of it, from some time on: A holds when
-- it has just begun, and Q once they have been sent, or could not be.
structure Restoring (env : Outside) (since : Nat) (batch : List Sql) (A Q : Server → Prop) : Prop where
  begins : ∀ s : Server, A s.newSession
  sends : ∀ t s, since ≤ t → A s → Q (s.serveBatch env t batch).2
  again : ∀ t s, since ≤ t → Q s → Q (s.serveBatch env t batch).2
  unsent : ∀ t s, since ≤ t → env.fate t = .nullBefore → A s → Q s

-- What statements in one request bring about, where all of them are taken.
theorem serve_batch_through {env : Outside} {t : Nat} {s : Server} (batch : List Sql) (P : List Sql → Server → Prop)
    (each : ∀ i sql done s, sql ∈ batch → P done s → (∃ rows, (s.serve env t (i + 1) sql).1 = .rows rows) ∧
      P (done ++ [sql]) (s.serve env t (i + 1) sql).2) (start : P [] s) : P batch (s.serveBatch env t batch).2 := by
  have all : ∀ (rest done : List Sql) (s : Server) (i : Nat), (∀ sql ∈ rest, sql ∈ batch) → P done s →
      (s.serveAll env t (i + 1) rest).2.2 = true ∧ P (done ++ rest) (s.serveAll env t (i + 1) rest).2.1 := by
    intro rest
    induction rest with
    | nil =>
        intro done s i _ holds
        rw [List.append_nil]
        exact ⟨rfl, holds⟩
    | cons sql rest ih =>
        intro done s i among holds
        obtain ⟨⟨rows, answer⟩, next⟩ := each i sql done s (among sql List.mem_cons_self) holds
        obtain ⟨through, onward⟩ := ih _ _ (i + 1) (fun sql there => among sql (List.mem_cons_of_mem _ there)) next
        rw [List.append_assoc] at onward
        rw [Server.serveAll]
        generalize s.serve env t (i + 1) sql = served at answer next through onward
        obtain ⟨first, next⟩ := served
        simp only at answer through onward ⊢
        subst answer
        exact ⟨through, onward⟩
  obtain ⟨through, holds⟩ := all batch [] s 0 (fun _ => id) start
  rw [Server.serveBatch]
  generalize s.serveAll env t 1 batch = served at through holds
  obtain ⟨answers, next, _⟩ := served
  simp only at through holds ⊢
  rw [through]
  exact holds

-- What each statement of a request keeps to, refused or not, the request does.
theorem serve_batch_keeps {env : Outside} {t : Nat} {s : Server} (batch : List Sql) (P : Server → Prop)
    (each : ∀ i sql s, sql ∈ batch → P s → P (s.serve env t i sql).2)
    (fails : ∀ s next : Server, P s → P next → P { next with store := s.store.fail }) (holds : P s) : P (s.serveBatch env t batch).2 := by
  have all : ∀ (rest : List Sql) (s : Server) (i : Nat), (∀ sql ∈ rest, sql ∈ batch) → P s → P (s.serveAll env t i rest).2.1 := by
    intro rest
    induction rest with
    | nil => exact fun _ _ _ => id
    | cons sql rest ih =>
        intro s i among holds
        have kept := each i sql s (among sql List.mem_cons_self) holds
        rw [Server.serveAll]
        split
        · rename_i next outcome
          rw [outcome] at kept
          exact kept
        · rename_i next outcome
          rw [outcome] at kept
          exact ih next (i + 1) (fun sql there => among sql (List.mem_cons_of_mem _ there)) kept
  have kept := all batch s 1 (fun _ => id) holds
  rw [Server.serveBatch]
  generalize s.serveAll env t 1 batch = served at kept
  obtain ⟨answers, next, through⟩ := served
  simp only
  split
  · exact kept
  · exact fails s next holds kept

-- A connection whose session, if it has one, has just begun.
structure Raw (c : Connection) (A : Server → Prop) (w : World) : Prop where
  tended : Tended c w.conn
  begun : ∀ h, w.conn.handle = some h → h.status = .ok → A w.server ∧ h.active = false

-- One that has none.
structure Down (c : Connection) (w : World) : Prop where
  tended : Tended c w.conn
  down : ∀ h, w.conn.handle = some h → h.status ≠ .ok

-- One whose session has been restored, unless it has been lost again.
structure Ripe (since : Nat) (c : Connection) (Q : Server → Prop) (w : World) : Prop where
  tended : Tended c w.conn
  late : since ≤ w.clock
  restored : ∃ h, w.conn.handle = some h ∧ h.status ≠ .started ∧ (h.status = .ok → h.Fit ∧ Q w.server ∧ w.conn.Unmarked)

section

variable {env : Outside} {since : Nat} {A Q : Server → Prop} {c : Connection} {w : World}

theorem raw_down (down : Down c w) : Raw c A w := ⟨down.tended, fun h handle ok => absurd ok (down.down h handle)⟩

theorem down_closed (down : Down c w) : w.conn.isOpen = false := by
  cases isOpen : w.conn.isOpen with
  | false => rfl
  | true =>
      obtain ⟨h, handle, ok, _⟩ := open_handle isOpen
      exact absurd ok (down.down h handle)

theorem down_disconnect (tended : Tended c w.conn) :
    wp Connection.doDisconnect (fun _ u => Down c u) (fun _ _ => False) w := by
  simp only [Connection.doDisconnect, pqFinish, wp_modify]
  exact ⟨tended_trans tended (tended_handle _ _), fun _ there => by cases there⟩

theorem raw_same {w' : World} (raw : Raw c A w) (tended : Tended w.conn w'.conn) (handle : w'.conn.handle = w.conn.handle)
    (server : w'.server = w.server) : Raw c A w' := by
  refine ⟨tended_trans raw.tended tended, fun h there ok => ?_⟩
  rw [server]
  exact raw.begun h (handle.symm.trans there) ok

-- Whatever libpq does to a handle that stays as good as it was.
theorem ripe_same {w' : World} (ripe : Ripe since c Q w) (tended : Tended w.conn w'.conn) (later : w.clock ≤ w'.clock)
    (server : w'.server = w.server) (prepared : w'.conn.prepared = w.conn.prepared)
    (handle : ∀ h, w.conn.handle = some h → ∃ h', w'.conn.handle = some h' ∧ h'.status = h.status ∧ (h.Fit → h'.Fit)) : Ripe since c Q w' := by
  obtain ⟨h, there, settled, good⟩ := ripe.restored
  obtain ⟨h', there', status, fit⟩ := handle h there
  refine ⟨tended_trans ripe.tended tended, Nat.le_trans ripe.late later, h', there', by rw [status]; exact settled, fun ok => ?_⟩
  obtain ⟨fits, restored, unmarked⟩ := good (status.symm.trans ok)
  rw [server, Connection.Unmarked, prepared]
  exact ⟨fit fits, restored, unmarked⟩

theorem ripe_lose (ripe : Ripe since c Q w) : Ripe since c Q w.lose := by
  obtain ⟨h, there, _⟩ := ripe.restored
  refine ⟨tended_trans ripe.tended (tended_handle _ _), ripe.late,
    { h with status := .bad, unread := [], active := false, copying := none }, ?_, nofun, nofun⟩
  simp only [World.lose, there, Option.map_some]

theorem ripe_tick (ripe : Ripe since c Q w) : Ripe since c Q { w with clock := w.clock + 1 } :=
  ripe_same ripe (tended_refl _) (Nat.le_succ _) rfl rfl fun h there => ⟨h, there, rfl, id⟩

section

variable (restoring : Restoring env since (Connection.restoreQuery c) A Q)

include restoring

theorem raw_pq_connect (raw : Raw c A w) (down : ∀ h, w.conn.handle = some h → h.status ≠ .ok) :
    wp (pqConnect env) (fun _ u => Raw c A u) (fun _ _ => False) w := by
  simp only [pqConnect, tick, wp_bind, wp_gets, wp_modify, wp_pure]
  cases env.greets w.clock with
  | none => exact raw_down ⟨raw.tended, down⟩
  | some greeting =>
      simp only [wp_bind, wp_modify, wp_pure]
      refine ⟨tended_trans raw.tended (tended_handle _ _), ?_⟩
      rintro _ ⟨⟩ _
      exact ⟨restoring.begins _, rfl⟩

theorem raw_normalconnect (raw : Raw c A w) : wp (Connection.normalconnect env) (fun _ u => Raw c A u) (fun _ u => Raw c A u) w := by
  rw [Connection.normalconnect, wp_bind, wp_get]
  refine wp_ite _ _ _ _ _ _ (fun _ => raw) (fun none_ => ?_)
  have down : ∀ h, w.conn.handle = some h → h.status ≠ .ok := fun h there => absurd (by rw [there]; rfl) none_
  rw [wp_bind]
  refine wp_mono (raw_pq_connect restoring raw down) (fun _ u connected => ?_) (fun _ _ => False.elim)
  exact wp_ite _ _ _ _ _ _ (fun _ => connected) fun _ => connected

omit restoring in
theorem raw_start_async (raw : Raw c A w) : wp (Connection.startAsync env) (fun _ u => Raw c A u) (fun _ u => Raw c A u) w := by
  have ticked : Raw c A { w with clock := w.clock + 1 } := raw_same raw (tended_refl _) rfl rfl
  simp only [Connection.startAsync, tick, wp_bind, wp_get]
  refine wp_ite _ _ _ _ _ _ (fun _ => raw) (fun _ => ?_)
  simp only [wp_bind, wp_gets, wp_modify, wp_pure]
  refine wp_ite _ _ _ _ _ _ (fun _ => ticked) (fun _ => ⟨tended_trans ticked.tended (tended_handle _ _), ?_⟩)
  rintro _ ⟨⟩ ok
  cases ok

theorem raw_poll_async (raw : Raw c A w) (down : ∀ h, w.conn.handle = some h → h.status ≠ .ok) :
    wp (Connection.pollAsync env) (fun _ u => Raw c A u) (fun _ u => Raw c A u) w := by
  rw [Connection.pollAsync, wp_bind]
  refine wp_mono (raw_pq_connect restoring raw down) (fun _ u connected => ?_) (fun _ _ => False.elim)
  refine wp_ite _ _ _ _ _ _ (fun _ => connected) fun _ => ⟨tended_trans connected.tended (tended_handle _ _), ?_⟩
  intro h there ok
  obtain ⟨_, _, rfl⟩ := Option.map_eq_some_iff.mp there
  cases ok

theorem raw_do_startconnect (raw : Raw c A w) : wp (Connection.doStartconnect env) (fun _ u => Raw c A u) (fun _ u => Raw c A u) w := by
  rw [Connection.doStartconnect, wp_bind, wp_get]
  cases w.conn.policy with
  | direct => exact raw_normalconnect restoring raw
  | async => exact raw_start_async raw
  | lazy => exact raw
  | null => exact raw

theorem raw_do_completeconnect (raw : Raw c A w) :
    wp (Connection.doCompleteconnect env) (fun _ u => Raw c A u) (fun _ u => Raw c A u) w := by
  rw [Connection.doCompleteconnect, wp_bind, wp_get]
  cases w.conn.policy with
  | lazy => exact raw_normalconnect restoring raw
  | async =>
      have started : wp (when (w.conn.handle = none) (Connection.startAsync env)) (fun _ u => Raw c A u) (fun _ u => Raw c A u) w :=
        wp_when _ _ _ _ _ (fun _ => raw_start_async raw) fun _ => raw
      simp only [wp_bind]
      refine wp_mono started (fun _ u next => ?_) (fun _ _ => id)
      rw [wp_get]
      refine wp_ite _ _ _ _ _ _ (fun polling => ?_) fun _ => next
      obtain ⟨h, handle, status⟩ := (Option.any_eq_true _ _).mp polling
      refine raw_poll_async restoring next fun h' there => ?_
      rw [handle] at there
      obtain rfl := Option.some.inj there
      rw [of_decide_eq_true status]
      intro same
      cases same
  | direct => exact raw
  | null => exact raw

omit restoring in
-- Where there is a handle already, and not of an attempt under way, there is nothing to do.
theorem linked_already {h : Handle} (handle : w.conn.handle = some h) (settled : h.status ≠ .started) :
    Connection.doStartconnect env w = (.ok (), w) ∧ Connection.doCompleteconnect env w = (.ok (), w) := by
  have there : w.conn.handle.isSome = true := by simp [handle]
  have some_ : w.conn.handle ≠ none := by simp [handle]
  have waiting : ¬ w.conn.handle.any (fun h => h.status = .started) = true := by simp [handle, settled]
  constructor
  · simp only [Connection.doStartconnect, Prog.bind_apply, Prog.get_apply]
    cases w.conn.policy <;>
      simp only [Connection.normalconnect, Connection.startAsync, Prog.bind_apply, Prog.get_apply, if_pos there, Prog.pure_apply]
  · simp only [Connection.doCompleteconnect, Prog.bind_apply, Prog.get_apply]
    cases w.conn.policy <;>
      simp only [Connection.normalconnect, Prog.bind_apply, Prog.get_apply, if_pos there, Prog.when_skip _ _ w some_, if_neg waiting,
        Prog.pure_apply]

omit restoring in
theorem read_capabilities_spec {h : Handle} (handle : w.conn.handle = some h) :
    wp Connection.readCapabilities (fun _ u => h.Fit ∧ u = { w with conn := { w.conn with serverversion := h.version } })
      (fun _ u => ¬ h.Fit ∧ u = { w with conn := { w.conn with serverversion := h.version } }) w := by
  rw [Connection.readCapabilities, wp_bind, wp_get, handle]
  simp only [modifyConn, wp_bind, wp_modify]
  refine wp_ite _ _ _ _ _ _ (fun old => ⟨fun fit => ?_, rfl⟩) fun recent => ?_
  · have := fit.1
    omega
  · refine wp_ite _ _ _ _ _ _ (fun zero => ⟨fun fit => ?_, rfl⟩) fun some_ => ?_
    · have := fit.2
      omega
    · refine wp_ite _ _ _ _ _ _ (fun two => ⟨fun fit => ?_, rfl⟩) fun three => ⟨⟨by omega, by omega⟩, rfl⟩
      have := fit.2
      omega

omit restoring in
theorem ripe_get_result (ripe : Ripe since c Q w) : wp (pqGetResult env) (fun _ u => Ripe since c Q u) (fun _ _ => False) w := by
  have handles (v : World) (ripe : Ripe since c Q v) (f : Handle → Handle) (same : ∀ h, (f h).status = h.status ∧ (h.Fit → (f h).Fit)) :
      Ripe since c Q { v with conn := { v.conn with handle := v.conn.handle.map f } } := by
    refine ripe_same ripe (tended_handle _ _) (Nat.le_refl _) rfl rfl fun h there => ⟨f h, ?_, same h⟩
    simp only [there, Option.map_some]
  rw [pqGetResult, wp_bind, wp_get]
  cases w.conn.handle with
  | none => exact ripe
  | some h =>
      refine wp_ite _ _ _ _ _ _ (fun _ => ?_) fun _ => ripe
      simp only [tick, wp_bind, wp_gets, wp_modify, wp_pure]
      refine wp_ite _ _ _ _ _ _ (fun _ => ?_) fun _ => ?_
      · simp only [wp_bind, wp_modify, wp_pure]
        exact ripe_lose (ripe_tick ripe)
      · cases h.unread with
        | nil => exact handles _ (ripe_tick ripe) _ fun _ => ⟨rfl, id⟩
        | cons r rest => exact handles _ (ripe_tick ripe) _ fun _ => ⟨rfl, id⟩

omit restoring in
theorem ripe_drain (make : Option Answer → Client (Option Answer))
    (makes : ∀ r v, Ripe since c Q v → wp (make r) (fun _ u => Ripe since c Q u) (fun _ u => Down c u) v) (turns : Nat) (ripe : Ripe since c Q w) :
    wp (Connection.drain env make turns) (fun _ u => Ripe since c Q u) (fun _ u => Down c u) w := by
  induction turns generalizing w with
  | zero => exact ripe
  | succ turns ih =>
      rw [Connection.drain, wp_bind]
      refine wp_mono (ripe_get_result ripe) (fun r v next => ?_) (fun _ _ => False.elim)
      rw [wp_bind]
      refine wp_mono (makes r v next) (fun r' u next => ?_) (fun _ _ => id)
      exact wp_ite _ _ _ _ _ _ (fun _ => ih next) fun _ => next

-- The batch is sent from a session that has just begun, and may be sent again.
theorem ripe_send {h : Handle} (handle : w.conn.handle = some h) (ok : h.status = .ok) (fit : h.Fit) (tended : Tended c w.conn)
    (late : since ≤ w.clock) (unmarked : w.conn.Unmarked) (phase : A w.server ∧ h.active = false ∨ Q w.server) :
    wp (pqSendQuery env (Connection.restoreQuery c)) (fun _ u => Ripe since c Q u) (fun _ _ => False) w := by
  have later : since ≤ w.clock + 1 := Nat.le_succ_of_le late
  have kept : Q (w.server.serveBatch env w.clock (Connection.restoreQuery c)).2 := by
    rcases phase with ⟨begun, _⟩ | restored
    · exact restoring.sends w.clock _ late begun
    · exact restoring.again w.clock _ late restored
  rw [pqSendQuery, wp_bind, wp_get]
  refine wp_ite _ _ _ _ _ _ (fun idle => ?_) fun busy => ?_
  · have idle : h.active = false := by
      rw [handle] at idle
      simpa [ok] using idle
    have lost : ∀ server, Ripe since c Q ({ (w.ask (Connection.restoreQuery c) true) with server } : World).lose := by
      intro server
      refine ⟨tended_trans tended (tended_handle _ _), later,
        { h with status := .bad, unread := [], active := false, copying := none }, ?_, fun same => (by cases same), fun same => by cases same⟩
      simp only [World.lose, World.ask, handle, Option.map_some]
    have sent : Ripe since c Q { (w.ask (Connection.restoreQuery c) true).serve (w.server.serveBatch env w.clock (Connection.restoreQuery c)).2 with
        conn := { w.conn with handle := (w.ask (Connection.restoreQuery c) true).conn.handle.map fun h =>
          { h with unread := (w.server.serveBatch env w.clock (Connection.restoreQuery c)).1 } } } := by
      refine ⟨tended_trans tended (tended_handle _ _), later,
        { h with unread := (w.server.serveBatch env w.clock (Connection.restoreQuery c)).1, active := true, copying := none }, ?_, ?_,
        fun _ => ⟨fit, kept, unmarked⟩⟩
      · simp only [World.ask, handle, Option.map_some]
      · rw [ok]
        intro same
        cases same
    simp only [wp_bind, wp_modify]
    cases fate : env.fate w.clock with
    | nullBefore =>
        have still : Q w.server := by
          rcases phase with ⟨begun, _⟩ | restored
          · exact restoring.unsent _ _ late fate begun
          · exact restored
        refine ⟨tended_trans tended (tended_handle _ _), later, { h with unread := [], active := false, copying := none }, ?_, ?_,
          fun _ => ⟨fit, still, unmarked⟩⟩
        · simp only [World.ask, handle, Option.map_some]
        · rw [ok]
          intro same
          cases same
    | lostBefore => exact lost _
    | lostAfter => exact lost _
    | answered =>
        exact sent
    | nullAfter =>
        exact sent
  · have active : h.active = true := by
      rw [handle] at busy
      simpa [ok] using busy
    refine ⟨tended, late, h, handle, (by rw [ok]; intro same; cases same), fun _ => ⟨fit, ?_, unmarked⟩⟩
    rcases phase with ⟨_, idle⟩ | restored
    · rw [idle] at active
      cases active
    · exact restored

theorem ripe_restore (make : Option Answer → Client (Option Answer))
    (makes : ∀ r v, Ripe since c Q v → wp (make r) (fun _ u => Ripe since c Q u) (fun _ u => Down c u) v)
    {h : Handle} (handle : w.conn.handle = some h) (ok : h.status = .ok) (fit : h.Fit) (tended : Tended c w.conn)
    (late : since ≤ w.clock) (unmarked : w.conn.Unmarked) (phase : A w.server ∧ h.active = false ∨ Q w.server) :
    wp (Connection.restore env make) (fun _ u => Ripe since c Q u) (fun _ u => Down c u) w := by
  have query : Connection.restoreQuery w.conn = Connection.restoreQuery c := by
    rw [Connection.restoreQuery, Connection.restoreQuery, tended.receivers, tended.vars]
  rw [Connection.restore, wp_bind, wp_get]
  refine wp_ite _ _ _ _ _ _ (fun _ => ?_) fun nothing => ?_
  · rw [wp_bind, query]
    refine wp_mono (ripe_send restoring handle ok fit tended late unmarked phase) (fun _ v ripe => ?_) (fun _ _ => False.elim)
    rw [wp_bind, wp_get]
    exact ripe_drain make makes _ ripe
  · obtain ⟨receivers, vars⟩ := not_or.mp nothing
    have empty : Connection.restoreQuery c = [] := by
      rw [← query, Connection.restoreQuery, not_not.mp receivers, not_not.mp vars]
      rfl
    refine ⟨tended, late, h, handle, by rw [ok]; exact nofun, fun _ => ⟨fit, ?_, unmarked⟩⟩
    rcases phase with ⟨begun, _⟩ | restored
    · have sent := restoring.sends w.clock _ late begun
      rw [empty] at sent
      exact sent
    · exact restored

-- From a connection with a session that is fit.
theorem setup_rest (make : Option Answer → Client (Option Answer))
    (makes : ∀ r v, Ripe since c Q v → wp (make r) (fun _ u => Ripe since c Q u) (fun _ u => Down c u) v)
    {h : Handle} (handle : w.conn.handle = some h) (ok : h.status = .ok) (fit : h.Fit) (tended : Tended c w.conn)
    (late : since ≤ w.clock) (phase : A w.server ∧ h.active = false ∨ Q w.server) :
    wp (do
        modifyConn fun c => { c with prepared := c.prepared.mapValues fun _ p => { p with registered := false } }
        Connection.restore env make
        Connection.setCompleted true
        let w ← Prog.get
        if w.conn.isOpen then pure () else brokenConnection)
      (fun _ u => Ripe since c Q u ∧ u.conn.isOpen = true) (fun _ u => Down c u) w := by
  simp only [modifyConn, wp_bind, wp_modify]
  have unmarked : Connection.Unmarked { w.conn with prepared := w.conn.prepared.mapValues fun _ p => { p with registered := false } } :=
    unregistered_twice _
  refine wp_mono (ripe_restore restoring make makes handle ok fit (tended_trans tended (tended_unregistered _)) late unmarked phase)
    (fun _ u ripe => ?_) (fun _ _ => id)
  simp only [Connection.setCompleted, modifyConn, wp_modify, wp_get]
  have completed : Ripe since c Q { u with conn := { u.conn with completed := true } } :=
    ripe_same ripe (tended_completed _ _) (Nat.le_refl _) rfl rfl fun h there => ⟨h, there, rfl, id⟩
  refine wp_ite _ _ _ _ _ _ (fun isOpen => ⟨completed, isOpen⟩) fun closed => ⟨completed.tended, fun h there ok => closed ?_⟩
  simp only at there
  simp only [Connection.isOpen, there, Option.any_some, ok, decide_true, Bool.true_and]

theorem ripe_setup (make : Option Answer → Client (Option Answer))
    (makes : ∀ r v, Ripe since c Q v → wp (make r) (fun _ u => Ripe since c Q u) (fun _ u => Down c u) v) (ripe : Ripe since c Q w) :
    wp (Connection.setupStateWith env make) (fun _ u => Ripe since c Q u ∧ u.conn.isOpen = true) (fun _ u => Down c u) w := by
  obtain ⟨h, handle, _, good⟩ := ripe.restored
  rw [Connection.setupStateWith, wp_bind, wp_get]
  simp only [handle]
  refine wp_ite _ _ _ _ _ _ (fun _ => ?_) fun alive => ?_
  · simp only [errMsg, wp_bind, wp_get, wp_pure]
    exact wp_mono (down_disconnect ripe.tended) (fun _ _ down => down) (fun _ _ => False.elim)
  · obtain ⟨fit, restored, _⟩ := good (not_not.mp alive)
    rw [wp_bind]
    refine wp_mono (read_capabilities_spec handle) ?_ (fun _ _ unfit => absurd fit unfit.1)
    rintro _ u ⟨_, rfl⟩
    exact setup_rest restoring make makes handle (not_not.mp alive) fit (tended_trans ripe.tended (tended_version _ _)) ripe.late (.inr restored)

theorem raw_setup (make : Option Answer → Client (Option Answer))
    (makes : ∀ r v, Ripe since c Q v → wp (make r) (fun _ u => Ripe since c Q u) (fun _ u => Down c u) v) (raw : Raw c A w)
    (late : since ≤ w.clock) :
    wp (Connection.setupStateWith env make) (fun _ u => Ripe since c Q u ∧ u.conn.isOpen = true)
      (fun _ u => Raw c A u ∧ (Down c u ∨ u.conn.completed = w.conn.completed)) w := by
  rw [Connection.setupStateWith, wp_bind, wp_get]
  cases handle : w.conn.handle with
  | none => exact ⟨raw, .inr rfl⟩
  | some h =>
      refine wp_ite _ _ _ _ _ _ (fun _ => ?_) fun alive => ?_
      · simp only [errMsg, wp_bind, wp_get, wp_pure]
        exact wp_mono (down_disconnect raw.tended) (fun _ _ down => ⟨raw_down down, .inl down⟩) (fun _ _ => False.elim)
      · rw [wp_bind]
        refine wp_mono (read_capabilities_spec handle) ?_ ?_
        · rintro _ u ⟨fit, rfl⟩
          have rest := @setup_rest env since A Q c { w with conn := { w.conn with serverversion := h.version } } restoring make makes h handle
            (not_not.mp alive) fit (tended_trans raw.tended (tended_version _ _)) late (.inl (raw.begun h handle (not_not.mp alive)))
          exact wp_mono rest (fun _ _ => id) fun _ _ down => ⟨raw_down down, .inl down⟩
        · rintro _ u ⟨_, rfl⟩
          exact ⟨raw_same raw (tended_version _ _) rfl rfl, .inr rfl⟩

omit restoring in
-- activate() within SetupState(), where the connection is the one being set up.
theorem ripe_activate_with (free : c.inhibitReactivation = false) (setup : Client Unit)
    (sets : ∀ v, Ripe since c Q v → wp setup (fun _ u => Ripe since c Q u) (fun _ u => Down c u) v) (ripe : Ripe since c Q w) :
    wp (Connection.activateWith env setup) (fun _ u => Ripe since c Q u) (fun _ u => Down c u) w := by
  have allowed : ¬ w.conn.inhibitReactivation = true := by
    rw [ripe.tended.inhibitReactivation, free]
    exact Bool.false_ne_true
  obtain ⟨h, handle, settled, _⟩ := ripe.restored
  obtain ⟨starts, completes⟩ := @linked_already env w h handle settled
  rw [Connection.activateWith, wp_bind, wp_get]
  refine wp_ite _ _ _ _ _ _ (fun _ => ripe) fun _ => ?_
  rw [if_neg allowed]
  refine wp_ite _ _ _ _ _ _ (fun _ => ripe) fun _ => ?_
  rw [wp_try_catch, Connection.connect, wp_bind]
  refine wp_ok starts ?_
  rw [wp_bind]
  refine wp_ok completes ?_
  have completed : Ripe since c Q { w with conn := { w.conn with completed := true } } :=
    ripe_same ripe (tended_completed _ _) (Nat.le_refl _) rfl rfl fun h there => ⟨h, there, rfl, id⟩
  have caught (e : Exn) (v : World) (tended : Tended c v.conn) (down : e.isA .brokenConnection = false → Down c v) :
      wp (if e.isA .brokenConnection then do
          Connection.disconnect
          Connection.setCompleted false
          fault .brokenConnection e.what
        else do
          Connection.setCompleted false
          throw e : Client Unit) (fun _ u => Ripe since c Q u) (fun _ u => Down c u) v := by
    refine wp_ite _ _ _ _ _ _ (fun _ => ?_) fun other => ?_
    · rw [wp_bind, Connection.disconnect]
      refine wp_mono (down_disconnect tended) (fun _ u gone => ?_) (fun _ _ => False.elim)
      exact ⟨tended_trans gone.tended (tended_completed _ _), gone.down⟩
    · have gone := down (Bool.eq_false_iff.mpr other)
      exact ⟨tended_trans gone.tended (tended_completed _ _), gone.down⟩
  rw [wp_bind, Connection.setCompleted, modifyConn, wp_modify, wp_bind, wp_get]
  refine wp_ite _ _ _ _ _ _ (fun _ => ?_) fun _ => ?_
  · exact wp_mono (sets _ completed) (fun _ _ => id) fun e u down => caught e u down.tended fun _ => down
  · refine caught { kind := .brokenConnection, what := "Connection to database failed" } _ completed.tended fun other => ?_
    cases other

theorem ripe_setup_level (free : c.inhibitReactivation = false) (level : Nat) (ripe : Ripe since c Q w) :
    wp (Connection.setupLevel env level) (fun _ u => Ripe since c Q u) (fun _ u => Down c u) w := by
  induction level generalizing w with
  | zero => exact ripe
  | succ level ih =>
      rw [Connection.setupLevel]
      refine wp_mono (ripe_setup restoring _ (fun r v inside => ?_) ripe) (fun _ _ both => both.1) (fun _ _ => id)
      rw [wp_bind]
      exact wp_mono (ripe_activate_with free _ (fun _ => ih) inside) (fun _ _ => id) (fun _ _ => id)

theorem raw_setup_state (free : c.inhibitReactivation = false) (raw : Raw c A w) (late : since ≤ w.clock) :
    wp (Connection.setupState env) (fun _ u => Ripe since c Q u ∧ u.conn.isOpen = true)
      (fun _ u => Raw c A u ∧ (Down c u ∨ u.conn.completed = w.conn.completed)) w := by
  rw [Connection.setupState, Connection.setupLevel]
  refine raw_setup restoring _ (fun r v inside => ?_) raw late
  rw [wp_bind]
  exact wp_mono (ripe_activate_with free _ (fun _ => ripe_setup_level restoring free 1) inside) (fun _ _ => id) (fun _ _ => id)

-- What activate() does on a connection that is closed.
theorem activate_sets_up (closed : w.conn.isOpen = false) (raw : Raw c A w) (late : since ≤ w.clock) :
    wp (Connection.activate env) (fun _ u => u = w ∧ w.conn.reactivationAvoidance ≠ 0 ∨ Ripe since c Q u ∧ u.conn.isOpen = true)
      (fun _ u => Raw c A u ∧ u.conn.isOpen = false) w := by
  rw [Connection.activate, Connection.activateWith, wp_bind, wp_get, if_neg (by rw [closed]; exact Bool.false_ne_true)]
  refine wp_ite _ _ _ _ _ _ (fun _ => ⟨raw, closed⟩) fun allowed => ?_
  refine wp_ite _ _ _ _ _ _ (fun avoided => .inl ⟨rfl, avoided⟩) fun _ => ?_
  have free : c.inhibitReactivation = false := by
    rw [← raw.tended.inhibitReactivation]
    exact Bool.eq_false_iff.mpr allowed
  have caught (e : Exn) (v : World) (raw : Raw c A v) :
      wp (if e.isA .brokenConnection then do
          Connection.disconnect
          Connection.setCompleted false
          fault .brokenConnection e.what
        else do
          Connection.setCompleted false
          throw e : Client Unit)
        (fun _ u => u = w ∧ w.conn.reactivationAvoidance ≠ 0 ∨ Ripe since c Q u ∧ u.conn.isOpen = true)
        (fun _ u => Raw c A u ∧ u.conn.isOpen = false) v := by
    refine wp_ite _ _ _ _ _ _ (fun _ => ?_) fun other => ?_
    · rw [wp_bind, Connection.disconnect]
      refine wp_mono (down_disconnect raw.tended) (fun _ u gone => ?_) (fun _ _ => False.elim)
      exact ⟨raw_same (raw_down gone) (tended_completed _ _) rfl rfl, rfl⟩
    · exact ⟨raw_same raw (tended_completed _ _) rfl rfl, rfl⟩
  rw [wp_try_catch, Connection.connect, wp_bind]
  have up := (later_background env).upkeep
  refine wp_mono (wp_and (raw_do_startconnect restoring raw) (wp_keeps (Connection.do_startconnect_keeps up))) ?_ fun e x failed =>
    caught e x failed.1
  rintro _ u ⟨started, soon⟩
  rw [wp_bind]
  refine wp_mono (wp_and (raw_do_completeconnect restoring started) (wp_keeps (Connection.do_completeconnect_keeps up))) ?_
    fun e x failed => caught e x failed.1
  rintro _ v ⟨linked, sooner⟩
  rw [wp_bind, Connection.setCompleted, modifyConn, wp_modify, wp_bind, wp_get]
  have completed : Raw c A { v with conn := { v.conn with completed := true } } := raw_same linked (tended_completed _ _) rfl rfl
  refine wp_ite _ _ _ _ _ _ (fun _ => ?_) fun _ => ?_
  · have onward : since ≤ v.clock := Nat.le_trans late (Nat.le_trans soon sooner)
    exact wp_mono (raw_setup_state restoring free completed onward) (fun _ _ => .inr) fun e x failed => caught e x failed.1
  · exact caught { kind := .brokenConnection, what := "Connection to database failed" } _ completed

-- And reset() on any.
theorem reset_sets_up (tended : Tended c w.conn) (raw : w.conn.isOpen = false → Raw c A w) (late : since ≤ w.clock) :
    wp (Connection.reset env) (fun _ u => u = w ∧ w.conn.reactivationAvoidance ≠ 0 ∨ Ripe since c Q u ∧ u.conn.isOpen = true)
      (fun _ u => u = w ∧ w.conn.inhibitReactivation = true ∨ Raw c A u ∧ u.conn.isOpen = false) w := by
  rw [Connection.reset, wp_bind, wp_get]
  refine wp_ite _ _ _ _ _ _ (fun inhibited => .inl ⟨rfl, inhibited⟩) fun allowed => ?_
  refine wp_ite _ _ _ _ _ _ (fun avoided => .inl ⟨rfl, avoided⟩) fun regardless => ?_
  have free : c.inhibitReactivation = false := by
    rw [← tended.inhibitReactivation]
    exact Bool.eq_false_iff.mpr allowed
  rw [wp_bind, Connection.setCompleted, modifyConn, wp_modify, wp_bind, wp_get]
  refine wp_ite _ _ _ _ _ _ (fun there => ?_) fun none_ => ?_
  · have setup (v : World) (ready : Raw c A v) (later : since ≤ v.clock) (still : v.conn.completed = false) :
        wp (Connection.setupState env) (fun _ u => u = w ∧ w.conn.reactivationAvoidance ≠ 0 ∨ Ripe since c Q u ∧ u.conn.isOpen = true)
          (fun _ u => u = w ∧ w.conn.inhibitReactivation = true ∨ Raw c A u ∧ u.conn.isOpen = false) v := by
      refine wp_mono (raw_setup_state restoring free ready later) (fun _ _ => .inr) fun _ u failed => .inr ⟨failed.1, ?_⟩
      rcases failed.2 with down | same
      · exact down_closed down
      · rw [Connection.isOpen, same, still]
        rfl
    simp only [pqConnect, tick, wp_bind, wp_gets, wp_modify, wp_pure]
    cases env.greets w.clock with
    | none =>
        simp only [wp_pure]
        rw [when, if_pos rfl, wp_modify]
        refine setup _ ⟨tended_trans tended ⟨rfl, rfl, rfl, rfl, rfl, rfl, .inl rfl, rfl⟩, ?_⟩ (Nat.le_succ_of_le late) rfl
        intro h handle ok
        obtain ⟨_, _, rfl⟩ := Option.map_eq_some_iff.mp handle
        cases ok
    | some greeting =>
        simp only [wp_bind, wp_modify, wp_pure]
        rw [when, if_neg (by simp)]
        refine setup _ ⟨tended_trans tended ⟨rfl, rfl, rfl, rfl, rfl, rfl, .inl rfl, rfl⟩, ?_⟩ (Nat.le_succ_of_le late) rfl
        rintro _ ⟨⟩ _
        exact ⟨restoring.begins _, rfl⟩
  · have gone : w.conn.handle = none := Option.not_isSome_iff_eq_none.mp none_
    have closed : w.conn.isOpen = false := by simp [Connection.isOpen, gone]
    have ready : Raw c A { w with conn := { w.conn with completed := false } } := raw_same (raw closed) (tended_completed _ _) rfl rfl
    have shut : Connection.isOpen { w.conn with completed := false } = false := rfl
    refine wp_mono (activate_sets_up restoring shut ready late) (fun _ u outcome => ?_) fun _ _ => .inr
    rcases outcome with ⟨_, avoided⟩ | done
    · exact absurd avoided regardless
    · exact .inr done

end

end

-- The connection a call leaves behind is open, as it was before, or gone.
def Stays (c : Connection) (w : World) : Prop := Tended c w.conn ∧ w.conn.isOpen = true ∨ Down c w

section

variable {env : Outside} {c : Connection} {w : World}

theorem down_lose (tended : Tended c w.conn) : Down c w.lose := by
  refine ⟨tended_trans tended (tended_handle _ _), fun h there ok => ?_⟩
  obtain ⟨_, _, rfl⟩ := Option.map_eq_some_iff.mp there
  cases ok

-- A connection that is gone stays so while an exchange on it is still being completed.
theorem down_activate {h : Handle} (handle : w.conn.handle = some h) (status : h.status = .bad) (tended : Tended c w.conn)
    (regardless : w.conn.reactivationAvoidance = 0) :
    wp (Connection.activate env) (fun _ _ => False) (fun _ u => Down c u) w := by
  have shut : ¬ w.conn.isOpen = true := by simp [Connection.isOpen, handle, status]
  have down : Down c w := by
    refine ⟨tended, fun h' there ok => ?_⟩
    rw [handle] at there
    obtain rfl := Option.some.inj there
    rw [status] at ok
    cases ok
  rw [Connection.activate, Connection.activateWith, wp_bind, wp_get, if_neg shut]
  refine wp_ite _ _ _ _ _ _ (fun _ => down) fun _ => ?_
  rw [if_neg (not_not_intro regardless), wp_try_catch]
  refine wp_error (Connection.connect_bad h handle status _) ?_
  have isBroken : ({ kind := .brokenConnection, what := "Connection to database failed" } : Exn).isA .brokenConnection = true := rfl
  rw [if_pos isBroken, wp_bind, Connection.disconnect]
  refine wp_mono (down_disconnect (tended_trans tended (tended_completed _ _))) (fun _ u gone => ?_) (fun _ _ => False.elim)
  exact ⟨tended_trans gone.tended (tended_completed _ _), gone.down⟩

theorem get_notifs_ends (tended : Tended c w.conn) (isOpen : w.conn.isOpen = true) :
    wp (Connection.getNotifs env) (fun _ u => Tended c u.conn ∧ u.conn.isOpen = true) (fun _ u => Stays c u) w := by
  have shut : ¬ w.conn.isOpen = false := by simp [isOpen]
  simp only [Connection.getNotifs, wp_bind, wp_get]
  rw [if_neg shut]
  simp only [consumeConn, tick, wp_bind, wp_gets, wp_modify, wp_pure]
  cases env.consumes w.clock with
  | fine =>
      simp only [modifyHandle, modifyConn, wp_bind, wp_modify, wp_pure]
      rw [if_neg (by simp)]
      have picked : Connection.isOpen { w.conn with
          handle := w.conn.handle.map fun h => { h with notifies := h.notifies ++ env.arrives w.clock } } = true := by
        rw [← isOpen]
        simp only [Connection.isOpen, Option.any_map]
      have still := tended_trans tended (tended_handle w.conn (w.conn.handle.map fun h => { h with notifies := h.notifies ++ env.arrives w.clock }))
      refine wp_ite _ _ _ _ _ _ (fun _ => ⟨still, picked⟩) (fun _ => ?_)
      simp only [wp_bind, wp_pure]
      refine wp_mono (Connection.notify_all_spec _) (fun _ u quiet => ?_) (fun _ _ => False.elim)
      obtain ⟨_, conn⟩ := quiet.conn
      exact ⟨by rw [conn]; exact tended_trans still (tended_handle _ _), quiet.isOpen.trans picked⟩
  | trouble =>
      simp only [wp_pure, if_true, brokenConnection, fault, wp_throw]
      exact .inl ⟨tended, isOpen⟩
  | lost =>
      simp only [wp_bind, wp_modify, wp_pure, if_true, brokenConnection, fault, wp_throw]
      exact .inr (down_lose tended)

-- exec() on a connection that is open.
theorem exec_stays (sql : Sql) (isOpen : w.conn.isOpen = true) (tended : Tended c w.conn) (regardless : w.conn.reactivationAvoidance = 0)
    (retries : Nat) :
    wp (Connection.exec env sql retries) (fun _ u => Tended c u.conn ∧ u.conn.isOpen = true) (fun _ u => Stays c u) w := by
  obtain ⟨h, handle, status, _⟩ := open_handle isOpen
  have sent := @pq_exec_apply env w sql h handle status
  have settles (v : World) (tended : Tended c v.conn) (stillOpen : v.conn.isOpen = true) (r : Option Answer) :
      wp (do
          let r ← Connection.makeResult env r
          let r ← Connection.retry env sql retries r
          let rows ← Connection.checkResult env r sql.text
          let _ ← Connection.getNotifs env
          pure rows) (fun _ u => Tended c u.conn ∧ u.conn.isOpen = true) (fun _ u => Stays c u) v := by
    simp only [wp_bind]
    refine wp_ok (Connection.make_result_open stillOpen r) (wp_ok (Connection.retry_settled r (.inr stillOpen) retries) ?_)
    have checked := @Connection.check_result_open env v stillOpen r sql.text
    cases r with
    | none => exact wp_error checked (.inl ⟨tended, stillOpen⟩)
    | some answer =>
        cases answer with
        | failed error => exact wp_error checked (.inl ⟨tended, stillOpen⟩)
        | rows rows => exact wp_ok checked (get_notifs_ends tended stillOpen)
  have gone (v : World) (server : Server) (there : ∃ h, v.conn.handle = some h) (tended : Tended c v.conn)
      (regardless : v.conn.reactivationAvoidance = 0) (r : Option Answer) :
      wp (do
          let r ← Connection.makeResult env r
          let r ← Connection.retry env sql retries r
          let rows ← Connection.checkResult env r sql.text
          let _ ← Connection.getNotifs env
          pure rows) (fun _ u => Tended c u.conn ∧ u.conn.isOpen = true) (fun _ u => Stays c u) ({ v with server } : World).lose := by
    obtain ⟨h, there⟩ := there
    have found : ({ v with server } : World).lose.conn.handle = some { h with status := .bad, unread := [], active := false, copying := none } := by
      simp only [World.lose, there, Option.map_some]
    have lost : Tended c ({ v with server } : World).lose.conn := tended_trans tended (tended_handle _ _)
    rw [wp_bind, Connection.makeResult, wp_bind]
    exact wp_mono (down_activate found rfl lost regardless) (fun _ _ => False.elim) fun _ _ => .inr
  have asked : ∃ h, (w.ask [sql] false).conn.handle = some h := by simp [World.ask, handle]
  have still : (w.ask [sql] false).conn.isOpen = true := (asked_open [sql] false).trans isOpen
  have kept : Tended c (w.ask [sql] false).conn := tended_trans tended (tended_handle _ _)
  rw [Connection.exec, wp_bind]
  refine wp_ok (Connection.activate_open isOpen) ?_
  rw [wp_bind]
  cases fate : env.fate w.clock with
  | answered =>
      rw [fate] at sent
      exact wp_ok sent (settles (w.answered env sql) (tended_trans tended (tended_handle _ _)) (answered_open.trans isOpen) _)
  | lostBefore =>
      rw [fate] at sent
      exact wp_ok sent (gone (w.ask [sql] false) w.server asked kept regardless none)
  | lostAfter =>
      rw [fate] at sent
      exact wp_ok sent (gone (w.ask [sql] false) _ asked kept regardless none)
  | nullBefore =>
      rw [fate] at sent
      exact wp_ok sent (settles _ kept still none)
  | nullAfter =>
      rw [fate] at sent
      exact wp_ok sent (settles ((w.ask [sql] false).serve (w.server.serve env w.clock 0 sql).2) kept still none)

end

-- The connection goes on with the statements it knows, and its session is as given.
structure Goes (w u : World) (server : Server) : Prop where
  isOpen : u.conn.isOpen = true
  tended : Tended w.conn u.conn
  prepared : u.conn.prepared = w.conn.prepared
  server : u.server = server

section

variable {env : Outside} {w : World} {sql : Sql}

theorem goes_asked (isOpen : w.conn.isOpen = true) : Goes w (w.ask [sql] false) w.server :=
  ⟨(asked_open [sql] false).trans isOpen, tended_handle _ _, rfl, rfl⟩

theorem goes_answered (isOpen : w.conn.isOpen = true) : Goes w (w.answered env sql) (w.server.serve env w.clock 0 sql).2 :=
  ⟨answered_open.trans isOpen, tended_handle _ _, rfl, rfl⟩

theorem goes_quiet {v u : World} {server : Server} (goes : Goes w v server) (quiet : Quiet v u) : Goes w u server := by
  obtain ⟨handle, conn⟩ := quiet.conn
  refine ⟨quiet.isOpen.trans goes.isOpen, ?_, ?_, quiet.server.trans goes.server⟩
  · rw [conn]
    exact tended_trans goes.tended (tended_handle _ _)
  · rw [conn]
    exact goes.prepared

-- How a statement ends that is sent over a connection that is open, seen from the session.
theorem exec_leaves (isOpen : w.conn.isOpen = true) (regardless : w.conn.reactivationAvoidance = 0) (retries : Nat) :
    wp (Connection.exec env sql retries)
      (fun rows u => env.fate w.clock = .answered ∧ (w.server.serve env w.clock 0 sql).1 = .rows rows ∧
        Goes w u (w.server.serve env w.clock 0 sql).2)
      (fun _ u => (∀ rows, (w.server.serve env w.clock 0 sql).1 = .rows rows → env.fate w.clock = .answered →
          env.consumes (w.clock + 1) ≠ .fine) ∧
        (Down w.conn u ∨ env.fate w.clock = .nullBefore ∧ Goes w u w.server ∨ Goes w u (w.server.serve env w.clock 0 sql).2 ∧
          (env.fate w.clock = .nullAfter ∨ env.fate w.clock = .answered ∧
            (env.consumes (w.clock + 1) = .trouble ∨ ∃ error, (w.server.serve env w.clock 0 sql).1 = .failed error)))) w := by
  have gone (u : World) (stays : Stays w.conn u) (closed : u.conn.isOpen = false) : Down w.conn u := by
    rcases stays with ⟨_, still⟩ | down
    · rw [closed] at still
      cases still
    · exact down
  have answered := @goes_answered env w sql isOpen
  have silent (other : env.fate w.clock ≠ .answered) (rows : List (List String)) (_ : (w.server.serve env w.clock 0 sql).1 = .rows rows)
      (heard : env.fate w.clock = .answered) : env.consumes (w.clock + 1) ≠ .fine := absurd heard other
  refine wp_mono (wp_and (Connection.exec_open isOpen retries) (exec_stays sql isOpen (tended_refl _) regardless retries)) ?_ ?_
  · rintro rows u ⟨executed, _⟩
    cases executed with
    | done rows u fate answer consumed quiet => exact ⟨fate, answer, goes_quiet answered quiet⟩
  · rintro e u ⟨executed, stays⟩
    cases executed with
    | refused error fate answer =>
        refine ⟨fun rows given => ?_, .inr (.inr ⟨answered, .inr ⟨fate, .inr ⟨error, answer⟩⟩⟩)⟩
        rw [answer] at given
        cases given
    | troubled rows e u fate answer consumed broken quiet =>
        have unwell : env.consumes (w.clock + 1) ≠ .fine := by simp [consumed]
        exact ⟨fun _ _ _ => unwell, .inr (.inr ⟨goes_quiet answered quiet, .inr ⟨fate, .inl consumed⟩⟩)⟩
    | dropped rows e u fate answer consumed broken cut =>
        have unwell : env.consumes (w.clock + 1) ≠ .fine := by simp [consumed]
        exact ⟨fun _ _ _ => unwell, .inl (gone u stays cut.closed)⟩
    | unsent fate e failure =>
        exact ⟨silent (by simp [fate]), .inr (.inl ⟨fate, goes_asked isOpen⟩)⟩
    | unheard fate e failure =>
        refine ⟨silent (by simp [fate]), .inr (.inr ⟨?_, .inl fate⟩)⟩
        exact ⟨(asked_open [sql] false).trans isOpen, tended_handle _ _, rfl, rfl⟩
    | lostBefore fate e u broken cut freed =>
        exact ⟨silent (by simp [fate]), .inl (gone u stays cut.closed)⟩
    | lostAfter fate e u broken cut freed =>
        exact ⟨silent (by simp [fate]), .inl (gone u stays cut.closed)⟩

theorem get_notifs_leaves (isOpen : w.conn.isOpen = true) :
    wp (Connection.getNotifs env) (fun _ u => Goes w u w.server) (fun _ u => Down w.conn u ∨ Goes w u w.server) w := by
  have here : Goes w w w.server := ⟨isOpen, tended_refl _, rfl, rfl⟩
  have spec := @Connection.get_notifs_spec env w isOpen (fun _ u => Quiet w u) (fun _ u => Quiet w u ∨ u.conn.isOpen = false)
    (fun _ _ _ quiet => quiet) (fun _ _ _ _ quiet => .inl quiet) (fun _ _ _ _ cut => .inr cut.closed)
  refine wp_mono (wp_and spec (get_notifs_ends (tended_refl _) isOpen)) (fun _ _ ends => goes_quiet here ends.1) ?_
  rintro _ u ⟨quiet | closed, stays⟩
  · exact .inr (goes_quiet here quiet)
  · rcases stays with ⟨_, still⟩ | down
    · rw [closed] at still
      cases still
    · exact .inl down

-- PQprepare and the like, with make_result() and check_result() but without get_notifs().
theorem request_leaves (isOpen : w.conn.isOpen = true) (regardless : w.conn.reactivationAvoidance = 0) (query : String) :
    wp (do
        let r ← pqExec env sql
        let r ← Connection.makeResult env r
        Connection.checkResult env r query)
      (fun rows u => (w.server.serve env w.clock 0 sql).1 = .rows rows ∧ Goes w u (w.server.serve env w.clock 0 sql).2)
      (fun e u => Down w.conn u ∨ env.fate w.clock = .nullBefore ∧ Goes w u w.server ∨ Goes w u (w.server.serve env w.clock 0 sql).2 ∧
        (env.fate w.clock = .nullAfter ∨ env.fate w.clock = .answered ∧ ∃ error, (w.server.serve env w.clock 0 sql).1 = .failed error ∧
          e = Connection.sqlException error query)) w := by
  obtain ⟨h, handle, status, _⟩ := open_handle isOpen
  have sent := @pq_exec_apply env w sql h handle status
  have gone (v : World) (there : v.conn.handle.isSome = true) (tended : Tended w.conn v.conn) :
      wp (do
          let r ← Connection.makeResult env none
          Connection.checkResult env r query) (fun _ _ => False) (fun _ u => Down w.conn u) v.lose := by
    obtain ⟨h, there⟩ := Option.isSome_iff_exists.mp there
    have found : v.lose.conn.handle = some { h with status := .bad, unread := [], active := false, copying := none } := by
      simp only [World.lose, there, Option.map_some]
    have regardless : v.lose.conn.reactivationAvoidance = 0 := tended.reactivationAvoidance.trans regardless
    rw [wp_bind, Connection.makeResult, wp_bind]
    exact wp_mono (down_activate found rfl (tended_trans tended (tended_handle _ _)) regardless) (fun _ _ => False.elim) fun _ _ => id
  have asked : (w.ask [sql] false).conn.handle.isSome = true := by simp [World.ask, handle]
  have checks (v : World) (server : Server) (goes : Goes w v server) (r : Option Answer) :
      wp (do
          let r ← Connection.makeResult env r
          Connection.checkResult env r query)
        (fun rows u => u = v ∧ r = some (.rows rows))
        (fun e u => u = v ∧ (r = none ∨ ∃ error, r = some (.failed error) ∧ e = Connection.sqlException error query)) v := by
    rw [wp_bind]
    refine wp_ok (Connection.make_result_open goes.isOpen r) ?_
    have checked := @Connection.check_result_open env v goes.isOpen r query
    cases r with
    | none => exact wp_error checked ⟨rfl, .inl rfl⟩
    | some answer =>
        cases answer with
        | failed error => exact wp_error checked ⟨rfl, .inr ⟨error, rfl, rfl⟩⟩
        | rows rows => exact wp_ok checked ⟨rfl, rfl⟩
  rw [wp_bind]
  cases fate : env.fate w.clock with
  | answered =>
      rw [fate] at sent
      refine wp_ok sent (wp_mono (checks _ _ (goes_answered isOpen) _) ?_ ?_)
      · rintro rows _ ⟨rfl, answer⟩
        exact ⟨Option.some.inj answer, goes_answered isOpen⟩
      · rintro e _ ⟨rfl, none_ | ⟨error, answer, thrown⟩⟩
        · cases none_
        · exact .inr (.inr ⟨goes_answered isOpen, .inr ⟨rfl, error, Option.some.inj answer, thrown⟩⟩)
  | lostBefore =>
      rw [fate] at sent
      exact wp_ok sent (wp_mono (gone _ asked (tended_handle _ _)) (fun _ _ => False.elim) fun _ _ => .inl)
  | lostAfter =>
      rw [fate] at sent
      exact wp_ok sent (wp_mono (gone _ asked (tended_handle _ _)) (fun _ _ => False.elim) fun _ _ => .inl)
  | nullBefore =>
      rw [fate] at sent
      refine wp_ok sent (wp_mono (checks _ _ (goes_asked isOpen) _) ?_ ?_)
      · rintro rows _ ⟨_, answer⟩
        cases answer
      · rintro _ _ ⟨rfl, _⟩
        exact .inr (.inl ⟨rfl, goes_asked isOpen⟩)
  | nullAfter =>
      rw [fate] at sent
      have goes : Goes w ((w.ask [sql] false).serve (w.server.serve env w.clock 0 sql).2) (w.server.serve env w.clock 0 sql).2 :=
        ⟨(asked_open [sql] false).trans isOpen, tended_handle _ _, rfl, rfl⟩
      refine wp_ok sent (wp_mono (checks _ _ goes _) ?_ ?_)
      · rintro rows _ ⟨_, answer⟩
        cases answer
      · rintro _ _ ⟨rfl, _⟩
        exact .inr (.inr ⟨goes, .inl rfl⟩)

-- exec() from a connection that it may first have to activate.
theorem exec_onward {post : List (List String) → World → Prop} {raised : Exn → World → Prop} (retries : Nat)
    (activated : wp (Connection.activate env) (fun _ v => v.conn.isOpen = true ∧ wp (Connection.exec env sql retries) post raised v) raised w) :
    wp (Connection.exec env sql retries) post raised w := by
  rw [Connection.exec, wp_bind]
  refine wp_mono activated ?_ (fun _ _ => id)
  rintro _ v ⟨isOpen, rest⟩
  rw [Connection.exec, wp_bind, wp, Connection.activate_open isOpen] at rest
  exact rest

end

end Pqxx
