import Pqxx.ConnectionBackground

set_option autoImplicit false

namespace Pqxx

open Lib Prog

-- A relation that holds across each step in which a connection is made, used, lost or restored.
structure Steps (env : Outside) (R : World → World → Prop) : Prop extends Framing R where
  ticks : Keeps R tick
  notices : ∀ msg, Keeps R (processNotice msg)
  members : ∀ f : Connection → Connection, (∀ c, Tended c (f c)) → (∀ c, (f c).handle = c.handle) → Keeps R (modifyConn f)
  eases : ∀ f : Handle → Handle, (∀ h, (f h).status = h.status) → (∀ h, (f h).backendpid = h.backendpid) →
    (∀ h, (f h).notifies = h.notifies) → Keeps R (modifyHandle f)
  spoils : Keeps R (modifyHandle fun h => { h with status := .bad })
  asks : ∀ batch active, Keeps R (Prog.modify fun w => w.ask batch active : Client Unit)
  serves : ∀ f : World → Server, Keeps R (Prog.modify fun w => w.serve (f w) : Client Unit)
  loses : Keeps R (Prog.modify World.lose : Client Unit)
  finishes : Keeps R pqFinish
  connects : Keeps R (pqConnect env)
  starts : Keeps R (Connection.startAsync env)

section

variable {env : Outside} {R : World → World → Prop} (steps : Steps env R)

include steps

theorem err_msg_steps : Keeps R (errMsg env) := fun w => steps.same w

theorem complete_steps (completed : Bool) : Keeps R (Connection.setCompleted completed) :=
  steps.members _ (fun c => tended_completed c completed) fun _ => rfl

theorem serve_lose_steps (server : Server) : Keeps R (Prog.modify fun w => (w.serve server).lose : Client Unit) :=
  fun w => steps.onward _ _ _ (steps.serves (fun _ => server) w) (steps.loses _)

theorem pq_exec_steps (sql : Sql) : Keeps R (pqExec env sql) := by
  have framing := steps.toFraming
  apply keeps_get
  intro w
  apply keeps_ite
  · apply keeps_bind framing (steps.asks [sql] false)
    intro _
    cases env.fate w.clock with
    | answered =>
        apply keeps_bind framing (steps.serves _)
        exact fun _ => keeps_bind framing (steps.eases _ (fun _ => rfl) (fun _ => rfl) fun _ => rfl) fun _ => keeps_pure framing _
    | lostBefore => exact keeps_bind framing steps.loses fun _ => keeps_pure framing _
    | lostAfter => exact keeps_bind framing (serve_lose_steps steps _) fun _ => keeps_pure framing _
    | nullBefore => exact keeps_pure framing _
    | nullAfter => exact keeps_bind framing (steps.serves _) fun _ => keeps_pure framing _
  · exact keeps_pure framing _

theorem pq_send_query_steps (batch : List Sql) : Keeps R (pqSendQuery env batch) := by
  have framing := steps.toFraming
  apply keeps_get
  intro w
  apply keeps_ite
  · apply keeps_bind framing (steps.asks batch true)
    intro _
    cases env.fate w.clock with
    | answered | nullAfter =>
        apply keeps_bind framing (steps.serves _)
        exact fun _ => keeps_bind framing (steps.eases _ (fun _ => rfl) (fun _ => rfl) fun _ => rfl) fun _ => keeps_pure framing _
    | lostBefore => exact keeps_bind framing steps.loses fun _ => keeps_pure framing _
    | lostAfter => exact keeps_bind framing (serve_lose_steps steps _) fun _ => keeps_pure framing _
    | nullBefore => exact keeps_bind framing (steps.eases _ (fun _ => rfl) (fun _ => rfl) fun _ => rfl) fun _ => keeps_pure framing _
  · exact keeps_pure framing _

theorem pq_get_result_steps : Keeps R (pqGetResult env) := by
  have framing := steps.toFraming
  apply keeps_get
  intro w
  cases w.conn.handle with
  | none => exact keeps_pure framing _
  | some h =>
      apply keeps_ite
      · apply keeps_bind framing steps.ticks
        intro t
        apply keeps_ite
        · exact keeps_bind framing steps.loses fun _ => keeps_pure framing _
        · cases h.unread with
          | nil => exact keeps_bind framing (steps.eases _ (fun _ => rfl) (fun _ => rfl) fun _ => rfl) fun _ => keeps_pure framing _
          | cons r rest => exact keeps_bind framing (steps.eases _ (fun _ => rfl) (fun _ => rfl) fun _ => rfl) fun _ => keeps_pure framing _
      · exact keeps_pure framing _

namespace Connection

theorem normalconnect_steps : Keeps R (normalconnect env) := by
  have framing := steps.toFraming
  apply keeps_get
  intro w
  apply keeps_ite
  · exact keeps_pure framing _
  · apply keeps_bind framing steps.connects
    exact fun connected => keeps_ite _ (keeps_pure framing _) fun v => steps.same v

theorem do_startconnect_steps : Keeps R (doStartconnect env) := by
  apply keeps_get
  intro w
  cases w.conn.policy with
  | direct => exact normalconnect_steps steps
  | async => exact steps.starts
  | lazy => exact keeps_pure steps.toFraming _
  | null => exact keeps_pure steps.toFraming _

theorem do_completeconnect_steps : Keeps R (doCompleteconnect env) := by
  have framing := steps.toFraming
  have polls : Keeps R (pollAsync env) := by
    apply keeps_bind framing steps.connects
    intro connected
    apply keeps_ite
    · exact keeps_pure framing _
    · exact keeps_bind framing steps.spoils fun _ v => steps.same v
  apply keeps_get
  intro w
  cases w.conn.policy with
  | lazy => exact normalconnect_steps steps
  | async =>
      apply keeps_bind framing (keeps_when framing _ steps.starts)
      exact fun _ => keeps_get fun v => keeps_ite _ polls (keeps_pure framing _)
  | direct => exact keeps_pure framing _
  | null => exact keeps_pure framing _

theorem read_capabilities_steps : Keeps R readCapabilities := by
  have framing := steps.toFraming
  apply keeps_get
  intro w
  cases w.conn.handle with
  | none => exact keeps_throw framing _
  | some h =>
      apply keeps_bind framing (steps.members _ (fun c => tended_version c h.version) fun _ => rfl)
      intro _
      apply keeps_ite
      · exact keeps_throw framing _
      · apply keeps_ite
        · exact keeps_throw framing _
        · exact keeps_ite _ (keeps_throw framing _) (keeps_pure framing _)

section

variable {make : Option Answer → Client (Option Answer)} (makes : ∀ r, Keeps R (make r))

include makes

theorem drain_steps (turns : Nat) : Keeps R (drain env make turns) := by
  have framing := steps.toFraming
  induction turns with
  | zero => exact keeps_pure framing _
  | succ turns ih =>
      apply keeps_bind framing (pq_get_result_steps steps)
      exact fun r => keeps_bind framing (makes r) fun _ => keeps_ite _ ih (keeps_pure framing _)

theorem setup_state_with_steps : Keeps R (setupStateWith env make) := by
  have framing := steps.toFraming
  have restores : Keeps R (restore env make) := by
    apply keeps_get
    intro w
    apply keeps_ite
    · apply keeps_bind framing (pq_send_query_steps steps _)
      exact fun _ => keeps_get fun v => drain_steps steps makes _
    · exact keeps_pure framing _
  apply keeps_get
  intro w
  cases w.conn.handle with
  | none => exact keeps_throw framing _
  | some h =>
      apply keeps_ite
      · apply keeps_bind framing (err_msg_steps steps)
        exact fun msg => keeps_bind framing steps.finishes fun _ => keeps_throw framing _
      · apply keeps_bind framing (read_capabilities_steps steps)
        intro _
        apply keeps_bind framing (steps.members _ tended_unregistered fun _ => rfl)
        intro _
        apply keeps_bind framing restores
        intro _
        apply keeps_bind framing (complete_steps steps true)
        exact fun _ => keeps_get fun v => keeps_ite _ (keeps_pure framing _) (keeps_throw framing _)

end

theorem activate_with_steps {setup : Client Unit} (sets : Keeps R setup) : Keeps R (activateWith env setup) := by
  have framing := steps.toFraming
  have connects : Keeps R (connect env setup) := by
    apply keeps_bind framing (do_startconnect_steps steps)
    intro _
    apply keeps_bind framing (do_completeconnect_steps steps)
    intro _
    apply keeps_bind framing (complete_steps steps true)
    exact fun _ => keeps_get fun v => keeps_ite _ sets (keeps_throw framing _)
  apply keeps_get
  intro w
  apply keeps_ite
  · exact keeps_pure framing _
  · apply keeps_ite
    · exact keeps_throw framing _
    · apply keeps_ite
      · exact keeps_pure framing _
      · apply keeps_try_catch framing connects
        intro e
        apply keeps_ite
        · apply keeps_bind framing steps.finishes
          exact fun _ => keeps_bind framing (complete_steps steps false) fun _ => keeps_throw framing _
        · exact keeps_bind framing (complete_steps steps false) fun _ => keeps_throw framing e

theorem setup_level_steps (level : Nat) : Keeps R (setupLevel env level) := by
  induction level with
  | zero => exact keeps_pure steps.toFraming _
  | succ level ih =>
      apply setup_state_with_steps steps
      exact fun r => keeps_bind steps.toFraming (activate_with_steps steps ih) fun _ => keeps_pure steps.toFraming _

theorem activate_steps : Keeps R (activate env) := activate_with_steps steps (setup_level_steps steps 2)

theorem reset_steps : Keeps R (reset env) := by
  have framing := steps.toFraming
  apply keeps_get
  intro w
  apply keeps_ite
  · exact keeps_throw framing _
  · apply keeps_ite
    · exact keeps_pure framing _
    · apply keeps_bind framing (complete_steps steps false)
      intro _
      apply keeps_get
      intro v
      apply keeps_ite
      · apply keeps_bind framing steps.connects
        exact fun connected => keeps_bind framing (keeps_when framing _ steps.loses) fun _ => setup_level_steps steps 2
      · exact activate_steps steps

theorem deactivate_steps : Keeps R deactivate := by
  have framing := steps.toFraming
  apply keeps_get
  intro w
  cases w.conn.handle with
  | none => exact keeps_pure framing _
  | some h =>
      cases w.conn.trans with
      | some i => exact keeps_throw framing _
      | none =>
          apply keeps_ite
          · exact steps.notices _
          · exact keeps_bind framing (complete_steps steps false) fun _ => steps.finishes

theorem pq_put_copy_data_steps : Keeps R (pqPutCopyData env) := by
  have framing := steps.toFraming
  apply keeps_get
  intro w
  cases w.conn.handle.bind Handle.copying with
  | none => exact keeps_pure framing _
  | some copying =>
      apply keeps_bind framing steps.ticks
      intro t
      cases env.fate t with
      | answered => exact keeps_pure framing _
      | lostBefore | lostAfter => exact keeps_bind framing steps.loses fun _ => keeps_pure framing _
      | nullBefore | nullAfter =>
          apply keeps_bind framing (steps.serves _)
          exact fun _ => keeps_bind framing (steps.eases _ (fun _ => rfl) (fun _ => rfl) fun _ => rfl) fun _ => keeps_pure framing _

theorem pq_get_copy_data_steps (copying : Copying) : Keeps R (pqGetCopyData env copying) := by
  have framing := steps.toFraming
  apply keeps_bind framing steps.ticks
  intro t
  apply keeps_ite
  · apply keeps_bind framing steps.loses
    exact fun _ => keeps_bind framing (err_msg_steps steps) fun msg => keeps_throw framing _
  · cases copying.lines with
    | nil => exact keeps_pure framing _
    | cons line rest => exact keeps_bind framing (steps.eases _ (fun _ => rfl) (fun _ => rfl) fun _ => rfl) fun _ => keeps_pure framing _

end Connection

end

end Pqxx
