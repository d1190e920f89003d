import Pqxx.TransactionServices

set_option autoImplicit false

namespace Pqxx

open Lib Prog

-- Who is registered with the connection, how many names it has given out, and where each
-- transaction stands.
structure Docket where
  holder : Option Nat
  issued : Nat
  standing : Nat → Station

def World.docket (w : World) : Docket :=
  { holder := w.conn.trans, issued := w.conn.uniqueId, standing := fun j => (w.trans j).standing }

def Unmoved (w w' : World) : Prop := w'.docket = w.docket

section

variable {env : Outside} {i : Nat} {w v : World}

theorem kept_framing : Framing Unmoved where
  same _ := rfl
  onward _ _ _ one two := two.trans one

theorem kept_tended (tended : Tended w.conn v.conn) (trans : v.trans = w.trans) : Unmoved w v := by
  rw [Unmoved, World.docket, World.docket, tended.trans, tended.uniqueId, trans]

theorem kept_upkeep : Upkeep env Unmoved where
  toFraming := kept_framing
  link _ _ tended trans _ _ _ := kept_tended tended trans
  ends _ _ tended trans _ _ _ := kept_tended tended trans
  asks _ _ _ := rfl
  restores _ _ _ := rfl

theorem turn_kept (f : Transaction → Transaction) (same : ∀ x : Transaction, (f x).standing = x.standing) :
    Keeps Unmoved (modifyTrans i f) := by
  intro w
  have each : (fun j => (if j = i then f (w.trans j) else w.trans j : Transaction).standing) = fun j => (w.trans j).standing := by
    funext j
    split
    · exact same _
    · rfl
  exact congrArg (fun standing => ({ holder := w.conn.trans, issued := w.conn.uniqueId, standing } : Docket)) each

theorem members_kept (f : Connection → Connection) (trans : ∀ c, (f c).trans = c.trans) (issued : ∀ c, (f c).uniqueId = c.uniqueId) :
    Keeps Unmoved (modifyConn f) := by
  intro w
  show ({ holder := (f w.conn).trans, issued := (f w.conn).uniqueId, standing := _ } : Docket) = w.docket
  rw [trans, issued]
  rfl

theorem notice_kept (msg : String) : Keeps Unmoved (processNotice msg) := process_notice_keeps (@kept_upkeep .calm) msg

theorem kept_steps : Steps env Unmoved where
  toFraming := kept_framing
  ticks := tick_keeps (@kept_upkeep env)
  notices := notice_kept
  members _ tended _ w := kept_tended (tended w.conn) rfl
  eases f _ _ _ := modify_handle_keeps (@kept_upkeep env) f
  spoils := modify_handle_keeps (@kept_upkeep env) _
  asks _ _ _ := rfl
  serves _ _ := rfl
  loses := lose_keeps (@kept_upkeep env)
  finishes := pq_finish_keeps (@kept_upkeep env)
  connects := pq_connect_keeps kept_upkeep
  starts := Connection.start_async_keeps kept_upkeep

theorem kept_errands : Errands env Unmoved := by
  apply kept_steps.errands (Connection.get_notifs_keeps kept_upkeep)
  · exact fun f beside => members_kept f (fun c => (beside c).trans) fun c => (beside c).uniqueId
  · exact fun i f same _ => turn_kept f same

theorem kept_enlists (f : List (String × Nat) → List (String × Nat)) : Enlists Unmoved f := members_kept _ (fun _ => rfl) fun _ => rfl

theorem kept_heedless : Heedless env Unmoved where
  toErrands := kept_errands
  sends := pq_exec_steps kept_steps
  counts f := members_kept (fun c => { c with reactivationAvoidance := f c.reactivationAvoidance }) (fun _ => rfl) fun _ => rfl
  tallies _ f := turn_kept (fun x => { x with reactivationAvoidance := f x.reactivationAvoidance }) fun _ => rfl

theorem kept_services : Services env Unmoved := kept_heedless.services

end

end Pqxx
