import Pqxx.TransactionDocket

set_option autoImplicit false

namespace Pqxx

open Lib Prog

def Status.closed : Status → Bool
  | .aborted => true
  | .committed => true
  | .inDoubt => true
  | _ => false

-- A transaction begins once, and is closed once.
def Status.Onward (s s' : Status) : Prop := s' = s ∨ s = .nascent ∨ s = .active ∧ s'.closed = true

def Kind.within : Kind → Bool
  | .subtransaction _ => true
  | _ => false

-- A transaction and its connection agree on whether it is registered.
def Hand (i : Nat) (w : World) : Prop := (w.trans i).registered = true ↔ w.conn.trans = some i

-- A transaction that is active is registered, unless it is within another one.
def Seated (i : Nat) (w : World) : Prop := (w.trans i).status = .active → (w.trans i).kind.within = true ∨ w.conn.trans = some i

-- There is such an object: a constructor that throws leaves none, and only a subtransaction is
-- yet to begin when its constructor is done.
def Exists_ (i : Nat) (w : World) : Prop := (w.trans i).kind.within = true ∨ (w.trans i).status ≠ .nascent

-- What an operation on a transaction may do.
structure WorksOn (i : Nat) (w w' : World) : Prop where
  others : ∀ j, j ≠ i → (w'.trans j).standing = (w.trans j).standing
  kind : (w'.trans i).kind = (w.trans i).kind
  onward : (w.trans i).status.Onward (w'.trans i).status
  issued : w'.conn.uniqueId = w.conn.uniqueId
  holder : w'.conn.trans = w.conn.trans ∨ w.conn.trans = some i ∧ w'.conn.trans = none
  hand : Hand i w → Hand i w'
  exists_ : Exists_ i w → Exists_ i w'
  held : Hand i w → Exists_ i w → Seated i w → Seated i w'

-- What taking it off the register does.
structure Cleared (i : Nat) (w w' : World) : Prop where
  others : ∀ j, j ≠ i → (w'.trans j).standing = (w.trans j).standing
  kind : (w'.trans i).kind = (w.trans i).kind
  status : (w'.trans i).status = (w.trans i).status
  issued : w'.conn.uniqueId = w.conn.uniqueId
  holder : w'.conn.trans = w.conn.trans ∨ w.conn.trans = some i ∧ w'.conn.trans = none
  registered : (w'.trans i).registered = false
  gone : Hand i w → w'.conn.trans ≠ some i

section

variable {env : Outside} {i : Nat} {w v u : World}

theorem onward_trans {s s' s'' : Status} (one : s.Onward s') (two : s'.Onward s'') : s.Onward s'' := by
  cases one with
  | inl same =>
      rw [← same]
      exact two
  | inr moved =>
      cases moved with
      | inl fresh => exact .inr (.inl fresh)
      | inr closes =>
          cases two with
          | inl same =>
              rw [same]
              exact .inr (.inr closes)
          | inr more =>
              cases more with
              | inl fresh =>
                  rw [fresh] at closes
                  exact absurd closes.2 Bool.false_ne_true
              | inr again =>
                  rw [again.1] at closes
                  exact absurd closes.2 Bool.false_ne_true

theorem kept_standing (kept : Unmoved w v) (j : Nat) : (v.trans j).standing = (w.trans j).standing := congrFun (congrArg Docket.standing kept) j

theorem kept_status (kept : Unmoved w v) (j : Nat) : (v.trans j).status = (w.trans j).status := congrArg Station.status (kept_standing kept j)

theorem kept_registered (kept : Unmoved w v) (j : Nat) : (v.trans j).registered = (w.trans j).registered :=
  congrArg Station.registered (kept_standing kept j)

theorem kept_kind (kept : Unmoved w v) (j : Nat) : (v.trans j).kind = (w.trans j).kind := congrArg Station.kind (kept_standing kept j)

theorem kept_holder (kept : Unmoved w v) : v.conn.trans = w.conn.trans := congrArg Docket.holder kept

theorem kept_issued (kept : Unmoved w v) : v.conn.uniqueId = w.conn.uniqueId := congrArg Docket.issued kept

theorem kept_hand (kept : Unmoved w v) : Hand i v ↔ Hand i w := by rw [Hand, Hand, kept_registered kept, kept_holder kept]

theorem kept_moves (kept : Unmoved w v) : WorksOn i w v where
  others j _ := kept_standing kept j
  kind := kept_kind kept i
  onward := .inl (kept_status kept i)
  issued := kept_issued kept
  holder := .inl (kept_holder kept)
  hand := (kept_hand kept).mpr
  exists_ there := by rw [Exists_, kept_kind kept, kept_status kept]; exact there
  held _ _ held := by rw [Seated, kept_status kept, kept_kind kept, kept_holder kept]; exact held

theorem kept_cleared (kept : Unmoved w v) (cleared : Cleared i v u) : Cleared i w u where
  others j other := (cleared.others j other).trans (kept_standing kept j)
  kind := cleared.kind.trans (kept_kind kept i)
  status := cleared.status.trans (kept_status kept i)
  issued := cleared.issued.trans (kept_issued kept)
  holder := by rw [← kept_holder kept]; exact cleared.holder
  registered := cleared.registered
  gone hand := cleared.gone ((kept_hand kept).mpr hand)

theorem moves_framing : Framing (WorksOn i) where
  same _ := kept_moves rfl
  onward _ _ _ one two := {
    others := fun j other => (two.others j other).trans (one.others j other)
    kind := two.kind.trans one.kind
    onward := onward_trans one.onward two.onward
    issued := two.issued.trans one.issued
    holder := by
      cases one.holder with
      | inl same =>
          rw [← same]
          exact two.holder
      | inr gone =>
          cases two.holder with
          | inl same => exact .inr ⟨gone.1, same.trans gone.2⟩
          | inr again => exact .inr ⟨gone.1, again.2⟩
    hand := fun hand => two.hand (one.hand hand)
    exists_ := fun there => two.exists_ (one.exists_ there)
    held := fun hand there held => two.held (one.hand hand) (one.exists_ there) (one.held hand there held) }

theorem moves_kept {α : Type} {m : Client α} (keeps : Keeps Unmoved m) : Keeps (WorksOn i) m := fun w => kept_moves (keeps w)

theorem set_status_standing (status : Status) (j : Nat) (other : j ≠ i) :
    (((Transaction.setStatus i status : Client Unit) w).2.trans j).standing = (w.trans j).standing := by
  show (if j = i then _ else w.trans j : Transaction).standing = _
  rw [if_neg other]

theorem set_status_own (status : Status) : ((Transaction.setStatus i status : Client Unit) w).2.trans i = { w.trans i with status } := if_pos rfl

-- A transaction is closed where it stands.
theorem close_moves (status : Status) (closed : status.closed = true) (open_ : (w.trans i).status.closed = false) :
    WorksOn i w ((Transaction.setStatus i status : Client Unit) w).2 := by
  have own := @set_status_own i w status
  have left : status ≠ .nascent := by
    intro fresh
    rw [fresh] at closed
    exact absurd closed Bool.false_ne_true
  have idle : status ≠ .active := by
    intro active
    rw [active] at closed
    exact absurd closed Bool.false_ne_true
  constructor
  · exact set_status_standing status
  · rw [own]
  · rw [own]
    cases now : (w.trans i).status with
    | nascent => exact .inr (.inl rfl)
    | active => exact .inr (.inr ⟨rfl, closed⟩)
    | aborted | committed | inDoubt =>
        rw [now] at open_
        exact absurd open_.symm Bool.false_ne_true
  · rfl
  · exact .inl rfl
  · intro hand
    rw [Hand, own]
    exact hand
  · intro _
    rw [Exists_, own]
    exact .inr left
  · intro _ _ _ active
    rw [own] at active
    exact absurd active idle

theorem cleared_moves (cleared : Cleared i w v) (idle : (w.trans i).status ≠ .active) : WorksOn i w v where
  others := cleared.others
  kind := cleared.kind
  onward := .inl cleared.status
  issued := cleared.issued
  holder := cleared.holder
  hand hand := by
    rw [Hand, cleared.registered]
    exact iff_of_false Bool.false_ne_true (cleared.gone hand)
  exists_ there := by rw [Exists_, cleared.kind, cleared.status]; exact there
  held _ _ _ active := absurd (cleared.status.symm.trans active) idle

theorem cleared_kept (cleared : Cleared i w v) (kept : Unmoved v u) : Cleared i w u where
  others j other := (kept_standing kept j).trans (cleared.others j other)
  kind := (kept_kind kept i).trans cleared.kind
  status := (kept_status kept i).trans cleared.status
  issued := (kept_issued kept).trans cleared.issued
  holder := by rw [kept_holder kept]; exact cleared.holder
  registered := (kept_registered kept i).trans cleared.registered
  gone hand := by rw [kept_holder kept]; exact cleared.gone hand

theorem turned_own (f : Transaction → Transaction) : ((modifyTrans i f : Client Unit) w).2.trans i = f (w.trans i) := if_pos rfl

theorem turned_other (f : Transaction → Transaction) (j : Nat) (other : j ≠ i) : ((modifyTrans i f : Client Unit) w).2.trans j = w.trans j :=
  if_neg other

-- Taken off its own register, a transaction may still be the one the connection has.
theorem strike_cleared (holder : v.conn.trans = none ∧ w.conn.trans = some i ∨ v.conn.trans = w.conn.trans ∧ w.conn.trans ≠ some i)
    (issued : v.conn.uniqueId = w.conn.uniqueId)
    (trans : v.trans = ((modifyTrans i fun x => { x with registered := false } : Client Unit) w).2.trans) :
    Cleared i w v := by
  have own := @turned_own i w fun x => { x with registered := false }
  constructor
  · intro j other
    rw [trans, turned_other _ j other]
  · rw [trans, own]
  · rw [trans, own]
  · exact issued
  · cases holder with
    | inl gone => exact .inr ⟨gone.2, gone.1⟩
    | inr same => exact .inl same.1
  · rw [trans, own]
  · intro _
    cases holder with
    | inl gone =>
        rw [gone.1]
        exact (Option.some_ne_none i).symm
    | inr same =>
        rw [same.1]
        exact same.2

theorem unregister_cleared : wp (do
    modifyTrans i fun x => { x with registered := false }
    Connection.unregisterTransaction i : Client Unit) (fun _ u => Cleared i w u) (fun _ _ => False) w := by
  rw [wp_bind]
  show wp (Connection.unregisterTransaction i) _ _ ((modifyTrans i fun x => { x with registered := false } : Client Unit) w).2
  rw [Connection.unregisterTransaction, wp_bind, wp_get]
  have still : ((modifyTrans i fun x => { x with registered := false } : Client Unit) w).2.conn = w.conn := rfl
  rw [still]
  cases holder : w.conn.trans with
  | none =>
      have struck : Cleared i w ((modifyTrans i fun x => { x with registered := false } : Client Unit) w).2 := by
        refine strike_cleared (.inr ⟨rfl, ?_⟩) rfl rfl
        rw [holder]
        exact (Option.some_ne_none i).symm
      exact cleared_kept struck (notice_kept _ _)
  | some old =>
      apply wp_ite
      · intro same
        refine strike_cleared (.inl ⟨rfl, ?_⟩) rfl rfl
        rw [holder, same]
      · intro other
        have struck : Cleared i w ((modifyTrans i fun x => { x with registered := false } : Client Unit) w).2 := by
          refine strike_cleared (.inr ⟨rfl, ?_⟩) rfl rfl
          rw [holder]
          exact fun same => other (Option.some.inj same)
        exact cleared_kept struck (notice_kept _ _)

namespace Transaction

theorem end_closed_cleared : wp (endClosed i) (fun _ u => Cleared i w u) (fun _ _ => False) w := by
  have quiet : wp (noticing (checkPendingError i)) (fun _ v => Unmoved w v) (fun _ _ => False) w := by
    have never : wp (noticing (checkPendingError i)) (fun _ _ => True) (fun _ _ => False) w := by
      rw [noticing, wp_try_catch]
      exact wp_mono (wp_ends _ _) (fun _ _ _ => trivial) fun _ _ _ => trivial
    have kept := wp_keeps (s := w) (noticing_errand (@kept_errands .calm) (check_pending_errand (@kept_errands .calm) (i := i)))
    exact wp_mono (wp_and kept never) (fun _ _ both => both.1) fun _ _ both => both.2
  rw [endClosed, wp_bind]
  apply wp_mono quiet
  · intro _ v kept
    rw [wp_bind, wp_get]
    apply wp_when
    · exact fun _ => wp_mono unregister_cleared (fun _ _ cleared => kept_cleared kept cleared) fun _ _ => id
    · intro unregistered
      have off : (v.trans i).registered = false := Bool.eq_false_iff.mpr unregistered
      exact kept_cleared kept ⟨fun _ _ => rfl, rfl, rfl, rfl, .inl rfl, off, fun hand held => unregistered (hand.mpr held)⟩
  · exact fun _ _ => False.elim

-- abort() leaves an active transaction aborted, and throws only where it was committed.
theorem abort_moves : wp (abort env i) (fun _ u => WorksOn i w u ∧ ((w.trans i).status = .active → (u.trans i).status = .aborted))
    (fun _ u => WorksOn i w u ∧ (w.trans i).status ≠ .active) w := by
  have closes : ∀ v, WorksOn i w v → (v.trans i).status.closed = false →
      wp (do setStatus i .aborted; endClosed i : Client Unit)
        (fun _ u => WorksOn i w u ∧ ((w.trans i).status = .active → (u.trans i).status = .aborted))
        (fun _ u => WorksOn i w u ∧ (w.trans i).status ≠ .active) v := by
    intro v before open_
    have closed := @close_moves i v .aborted rfl open_
    have status : (((setStatus i .aborted : Client Unit) v).2.trans i).status = .aborted := congrArg Transaction.status (set_status_own .aborted)
    rw [wp_bind]
    show wp (endClosed i) _ _ ((setStatus i .aborted : Client Unit) v).2
    apply wp_mono end_closed_cleared
    · intro _ u cleared
      have idle : (((setStatus i .aborted : Client Unit) v).2.trans i).status ≠ .active := by
        rw [status]
        decide
      have all := moves_framing.onward _ _ _ before (moves_framing.onward _ _ _ closed (cleared_moves cleared idle))
      exact ⟨all, fun _ => cleared.status.trans status⟩
    · exact fun _ _ => False.elim
  rw [abort, wp_bind, wp_get]
  cases status : (w.trans i).status with
  | nascent =>
      have all := closes w (moves_framing.same w) (by rw [status]; rfl)
      rw [status] at all
      exact all
  | active =>
      show wp (do swallow (doAbort env i); setStatus i .aborted; endClosed i : Client Unit) _ _ w
      have never : wp (swallow (doAbort env i)) (fun _ _ => True) (fun _ _ => False) w := by
        rw [swallow, wp_try_catch]
        exact wp_mono (wp_ends _ _) (fun _ _ _ => trivial) fun _ _ _ => trivial
      rw [wp_bind]
      apply wp_mono (wp_and (wp_keeps (swallow_service (@kept_services env) (do_abort_service kept_services))) never)
      · intro _ v both
        have all := closes v (kept_moves both.1) (by rw [kept_status both.1, status]; rfl)
        rw [status] at all
        exact all
      · exact fun _ _ both => both.2.elim
  | aborted => exact ⟨moves_framing.same w, fun active => by cases active⟩
  | committed => exact ⟨moves_framing.same w, by decide⟩
  | inDoubt => exact ⟨kept_moves (notice_kept _ w), fun active => by cases active⟩

-- Off the register and then aborted.
theorem cleared_aborted (cleared : Cleared i w v) (moves : WorksOn i v u) (active : (w.trans i).status = .active)
    (aborted : (u.trans i).status = .aborted) : WorksOn i w u where
  others j other := (moves.others j other).trans (cleared.others j other)
  kind := moves.kind.trans cleared.kind
  onward := by
    rw [active, aborted]
    exact .inr (.inr ⟨rfl, rfl⟩)
  issued := moves.issued.trans cleared.issued
  holder := by
    cases cleared.holder with
    | inl same =>
        rw [← same]
        exact moves.holder
    | inr gone =>
        cases moves.holder with
        | inl same => exact .inr ⟨gone.1, same.trans gone.2⟩
        | inr again => exact .inr ⟨gone.1, again.2⟩
  hand hand := by
    apply moves.hand
    rw [Hand, cleared.registered]
    exact iff_of_false Bool.false_ne_true (cleared.gone hand)
  exists_ _ := by
    rw [Exists_, aborted]
    exact .inr (by decide)
  held _ _ _ now := by
    rw [aborted] at now
    cases now

theorem end_moves : wp (end_ env i) (fun _ u => WorksOn i w u ∧ (u.trans i).status ≠ .active) (fun _ _ => False) w := by
  have open_ : ∀ v, Cleared i w v → (v.trans i).status = .active →
      wp (do
        noteFocus (v.trans i)
        noticing (abort env i)
        let w ← Prog.get
        modifyConn fun c => { c with reactivationAvoidance := c.reactivationAvoidance + (w.trans i).reactivationAvoidance }
        modifyTrans i fun x => { x with reactivationAvoidance := 0 } : Client Unit)
        (fun _ u => WorksOn i w u ∧ (u.trans i).status ≠ .active) (fun _ _ => False) v := by
    intro v cleared active
    have noted : wp (noteFocus (v.trans i)) (fun _ t => Unmoved v t) (fun _ _ => False) v := by
      have keeps := note_focus_errand (@kept_errands .calm) (v.trans i) v
      unfold noteFocus at keeps ⊢
      cases focus : (v.trans i).focus with
      | none => exact rfl
      | some f =>
          rw [focus] at keeps
          exact keeps
    rw [wp_bind]
    apply wp_mono noted
    · intro _ t kept
      have still : (t.trans i).status = .active := (kept_status kept i).trans active
      have ends : wp (noticing (abort env i)) (fun _ u => WorksOn i t u ∧ (u.trans i).status = .aborted) (fun _ _ => False) t := by
        rw [noticing, wp_try_catch]
        apply wp_mono abort_moves
        · exact fun _ u both => ⟨both.1, both.2 still⟩
        · exact fun _ u both => absurd still both.2
      rw [wp_bind]
      apply wp_mono ends
      · intro _ u both
        rw [wp_bind, wp_get, wp_bind]
        have turned : Unmoved u (({ u with conn := { u.conn with
            reactivationAvoidance := u.conn.reactivationAvoidance + (u.trans i).reactivationAvoidance } } : World).note i fun x =>
              { x with reactivationAvoidance := 0 }) :=
          turn_kept (fun x : Transaction => { x with reactivationAvoidance := 0 }) (fun _ => rfl) { u with conn := { u.conn with
            reactivationAvoidance := u.conn.reactivationAvoidance + (u.trans i).reactivationAvoidance } }
        have all := moves_framing.onward _ _ _ (kept_moves kept) (moves_framing.onward _ _ _ both.1 (kept_moves turned))
        have status := (kept_status turned i).trans both.2
        exact ⟨cleared_aborted cleared all (cleared.status.symm.trans active) status, fun now => absurd (status.symm.trans now) (by decide)⟩
      · exact fun _ _ => False.elim
    · exact fun _ _ => False.elim
  have never : wp (end_ env i) (fun _ _ => True) (fun _ _ => False) w := by
    rw [end_, noticing, wp_try_catch]
    exact wp_mono (wp_ends _ _) (fun _ _ _ => trivial) fun _ _ _ => trivial
  rw [end_, noticing, wp_try_catch, wp_bind]
  apply wp_mono end_closed_cleared
  · intro _ v cleared
    rw [wp_bind, wp_get]
    apply wp_ite
    · exact fun active => wp_mono (open_ v cleared active) (fun _ _ => id) fun _ _ => False.elim
    · intro idle
      have before : (w.trans i).status ≠ .active := fun active => idle (cleared.status.trans active)
      exact ⟨cleared_moves cleared before, idle⟩
  · exact fun _ _ => False.elim

theorem end_keeps_moves : Keeps (WorksOn i) (end_ env i) := fun _ => wp_leaves (wp_mono end_moves (fun _ _ both => both.1) fun _ _ => False.elim)

theorem abort_keeps_moves : Keeps (WorksOn i) (abort env i) := fun _ =>
  wp_leaves (wp_mono abort_moves (fun _ _ both => both.1) fun _ _ both => both.1)

theorem end_cleared (idle : (w.trans i).status ≠ .active) : wp (end_ env i) (fun _ u => Cleared i w u) (fun _ _ => False) w := by
  rw [end_, noticing, wp_try_catch, wp_bind]
  apply wp_mono end_closed_cleared
  · intro _ v cleared
    rw [wp_bind, wp_get]
    apply wp_ite
    · exact fun active => absurd (cleared.status.symm.trans active) idle
    · exact fun _ => cleared
  · exact fun _ _ => False.elim

end Transaction

-- What a transaction is once it has begun.
structure SetOut (i : Nat) (w w' : World) : Prop where
  others : ∀ j, j ≠ i → (w'.trans j).standing = (w.trans j).standing
  kind : (w'.trans i).kind = (w.trans i).kind
  issued : w'.conn.uniqueId = w.conn.uniqueId
  holder : w'.conn.trans = w.conn.trans
  registered : (w'.trans i).registered = (w.trans i).registered
  status : (w'.trans i).status = .active

theorem begun_moves (begun : SetOut i w v) (nascent : (w.trans i).status = .nascent) : WorksOn i w v where
  others := begun.others
  kind := begun.kind
  onward := .inr (.inl nascent)
  issued := begun.issued
  holder := .inl begun.holder
  hand hand := by rw [Hand, begun.registered, begun.holder]; exact hand
  exists_ _ := by
    rw [Exists_, begun.status]
    exact .inr (by decide)
  held _ there _ _ := by
    rw [begun.kind]
    cases there with
    | inl within => exact .inl within
    | inr left => exact absurd nascent left

namespace Transaction

theorem begin_begun (nascent : (w.trans i).status = .nascent) :
    wp (begin env i) (fun _ u => SetOut i w u) (fun _ u => Cleared i w u) w := by
  have ended : ∀ (e : Exn) v, Unmoved w v → wp (do end_ env i; throw e : Client Unit) (fun _ u => SetOut i w u) (fun _ u => Cleared i w u) v := by
    intro e v kept
    have idle : (v.trans i).status ≠ .active := by
      rw [kept_status kept, nascent]
      decide
    rw [wp_bind]
    exact wp_mono (end_cleared idle) (fun _ _ cleared => kept_cleared kept cleared) fun _ _ => False.elim
  rw [begin, wp_bind, wp_get]
  apply wp_ite
  · exact fun left => absurd nascent left
  · intro _
    rw [wp_try_catch, wp_bind]
    apply wp_mono (wp_keeps (Connection.get_notifs_keeps kept_upkeep))
    · intro _ v one
      rw [wp_bind]
      apply wp_mono (wp_keeps (do_begin_service kept_services))
      · intro _ u two
        have kept := kept_framing.onward _ _ _ one two
        have own : (((setBegun i : Client Unit) u).2.trans i) =
            { u.trans i with status := .active, begun := some u.clock, block := u.server.store.view.marks.head? } := if_pos rfl
        have other : ∀ j, j ≠ i → ((setBegun i : Client Unit) u).2.trans j = u.trans j := fun j other => if_neg other
        show SetOut i w ((setBegun i : Client Unit) u).2
        constructor
        · intro j away
          rw [other j away]
          exact kept_standing kept j
        · rw [own]
          exact kept_kind kept i
        · exact (kept_issued kept : u.conn.uniqueId = w.conn.uniqueId)
        · exact (kept_holder kept : u.conn.trans = w.conn.trans)
        · rw [own]
          exact kept_registered kept i
        · rw [own]
      · exact fun e u two => ended e u (kept_framing.onward _ _ _ one two)
    · exact fun e v one => ended e v one

theorem begin_moves : Keeps (WorksOn i) (begin env i) := by
  intro w
  by_cases nascent : (w.trans i).status = .nascent
  · have idle : (w.trans i).status ≠ .active := by
      rw [nascent]
      decide
    exact wp_leaves (wp_mono (begin_begun nascent) (fun _ _ begun => begun_moves begun nascent) fun _ _ cleared => cleared_moves cleared idle)
  · rw [begin, bind_apply, get_apply]
    show WorksOn i w ((if (w.trans i).status ≠ .nascent then _ else _ : Client Unit) w).2
    rw [if_pos nascent]
    exact moves_framing.same w

theorem activate_for_moves (purpose : String) : Keeps (WorksOn i) (activateFor env i purpose) := by
  have activates : Keeps (WorksOn i) (activate env i) := by
    apply keeps_get
    intro w
    cases (w.trans i).status with
    | nascent => exact begin_moves
    | active => exact keeps_pure moves_framing _
    | committed => exact keeps_throw moves_framing _
    | aborted => exact keeps_throw moves_framing _
    | inDoubt => exact keeps_throw moves_framing _
  apply keeps_try_catch moves_framing activates
  exact fun e => keeps_ite _ (keeps_throw moves_framing _) (keeps_throw moves_framing _)

theorem exec_sql_moves (sql : Sql) (desc : String) : Keeps (WorksOn i) (execSql env i sql desc) := by
  apply keeps_bind moves_framing (moves_kept (check_pending_errand (@kept_errands env)))
  intro _
  apply keeps_get
  intro w
  cases (w.trans i).focus with
  | some f => exact keeps_throw moves_framing _
  | none =>
      apply keeps_bind moves_framing (activate_for_moves _)
      intro _
      apply keeps_try_catch moves_framing (moves_kept (direct_exec_service kept_services sql 0))
      intro e
      apply keeps_bind moves_framing (keeps_try_catch moves_framing abort_keeps_moves fun _ => keeps_pure moves_framing _)
      exact fun _ => keeps_throw moves_framing e

theorem commit_active_moves (active : (w.trans i).status = .active) : WorksOn i w (commitActive env i w).2 := by
  have closes : ∀ (status : Status) v, status.closed = true → Unmoved w v → WorksOn i w ((setStatus i status : Client Unit) v).2 := by
    intro status v closed kept
    have open_ : (v.trans i).status.closed = false := by
      rw [kept_status kept, active]
      rfl
    exact moves_framing.onward _ _ _ (kept_moves kept) (close_moves status closed open_)
  have merges : Keeps (WorksOn i) (do
      let w ← Prog.get
      Connection.addVariables (w.trans i).vars
      end_ env i : Client Unit) := by
    apply keeps_get
    intro u
    have adds : Keeps Unmoved (Connection.addVariables (u.trans i).vars) := members_kept _ (fun _ => rfl) fun _ => rfl
    exact keeps_bind moves_framing (moves_kept adds) fun _ => end_keeps_moves
  apply bind_from moves_framing _ fun _ => merges
  apply wp_leaves
  rw [wp_try_catch, wp_bind]
  apply wp_mono (wp_keeps (do_commit_service kept_services))
  · exact fun _ v kept => closes .committed v rfl kept
  · intro e v kept
    rw [wp_bind]
    apply closes _ v _ kept
    cases e.isA .inDoubtError <;> rfl

theorem commit_moves : Keeps (WorksOn i) (commit env i) := by
  apply keeps_bind moves_framing (moves_kept (check_pending_errand (@kept_errands env)))
  intro _ w
  rw [bind_apply, get_apply]
  dsimp only
  cases status : (w.trans i).status with
  | nascent => exact moves_framing.same w
  | aborted => exact moves_framing.same w
  | committed => exact kept_moves (notice_kept _ w)
  | inDoubt => exact moves_framing.same w
  | active =>
      dsimp only
      cases focus : (w.trans i).focus with
      | some f => exact moves_framing.same w
      | none =>
          dsimp only
          split
          · exact moves_framing.same w
          · exact commit_active_moves status

end Transaction

end

end Pqxx
