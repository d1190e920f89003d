import Pqxx.ConnectionSpec

set_option autoImplicit false

namespace Pqxx

open Lib Prog

-- What libpq holds for the client to pick up.
def World.held (w : World) : List Notify := w.conn.handle.elim [] Handle.notifies

-- After PQconsumeInput.
def World.consumed (w : World) (env : Outside) : World := { w with
  clock := w.clock + 1
  conn := { w.conn with handle := w.conn.handle.map fun h => { h with notifies := h.notifies ++ env.arrives w.clock } } }

-- The calls one notification is for: one for each entry of its channel.
def callsFor (receivers : List (String × Nat)) (n : Notify) : List (Nat × Notify) :=
  (receivers.filter fun r => r.1 = n.channel).map fun r => (r.2, n)

def calls (receivers : List (String × Nat)) (queue : List Notify) : List (Nat × Notify) := queue.flatMap (callsFor receivers)

-- Receivers have been called, and nothing else has become of the connection.
structure Called (w w' : World) (made : List (Nat × Notify)) : Prop where
  delivered : w'.delivered = w.delivered ++ made
  conn : w'.conn = w.conn

theorem called_none (w : World) : Called w w [] := ⟨(List.append_nil _).symm, rfl⟩

theorem called_onward {w v u : World} {first second : List (Nat × Notify)} (one : Called w v first) (two : Called v u second) :
    Called w u (first ++ second) := by
  refine ⟨?_, two.conn.trans one.conn⟩
  rw [two.delivered, one.delivered, List.append_assoc]

section

variable {env : Outside}

namespace Connection

-- Whether the receiver throws makes no difference to what has been called.
theorem deliver_calls (n : Notify) (receiver : String × Nat) (w : World) :
    wp (deliver env n receiver) (fun _ w' => Called w w' [(receiver.2, n)]) (fun _ _ => False) w := by
  simp only [deliver, tick, wp_bind, wp_gets, wp_modify, wp_pure]
  cases env.receiverThrows w.clock with
  | none => exact ⟨rfl, rfl⟩
  | some what =>
      simp only [processNotice, wp_modify]
      split
      · exact ⟨rfl, rfl⟩
      · exact ⟨rfl, rfl⟩

theorem deliver_all_calls (n : Notify) (receivers : List (String × Nat)) (w : World) :
    wp (deliverAll env n receivers) (fun _ w' => Called w w' (callsFor receivers n)) (fun _ _ => False) w := by
  induction receivers generalizing w with
  | nil => exact called_none w
  | cons receiver rest ih =>
      simp only [deliverAll, wp_bind]
      refine wp_when _ _ _ _ _ (fun matches_ => ?_) (fun other => ?_)
      · have here : callsFor (receiver :: rest) n = (receiver.2, n) :: callsFor rest n := by
          simp only [callsFor, List.filter_cons, decide_eq_true matches_, if_true, List.map_cons]
        refine wp_mono (deliver_calls n receiver w) (fun _ v called => ?_) (fun _ _ => id)
        refine wp_mono (ih v) (fun _ u more => ?_) (fun _ _ => id)
        rw [here]
        exact called_onward called more
      · have skipped : callsFor (receiver :: rest) n = callsFor rest n := by
          simp only [callsFor, List.filter_cons, decide_eq_false other, Bool.false_eq_true, if_false]
        rw [skipped]
        exact ih w

-- The queue is emptied from the front, one notification a turn.
theorem notify_all_calls (queue : List Notify) (w : World) :
    wp (notifyAll env queue)
      (fun _ w' => w'.delivered = w.delivered ++ calls w.conn.receivers queue ∧ w'.conn.receivers = w.conn.receivers ∧
        (queue ≠ [] → w'.held = []) ∧ (queue = [] → w'.held = w.held))
      (fun _ _ => False) w := by
  induction queue generalizing w with
  | nil => exact ⟨(List.append_nil _).symm, rfl, fun some_ => absurd rfl some_, fun _ => rfl⟩
  | cons n rest ih =>
      simp only [notifyAll, modifyHandle, modifyConn, wp_bind, wp_modify, wp_get]
      refine wp_mono (deliver_all_calls n _ _) (fun _ v called => ?_) (fun _ _ => id)
      refine wp_mono (ih v) ?_ (fun _ _ => id)
      rintro _ u ⟨delivered, receivers, emptied, same⟩
      have kept : v.conn.receivers = w.conn.receivers := by rw [called.conn]
      refine ⟨?_, receivers.trans kept, fun _ => ?_, fun none_ => by cases none_⟩
      · rw [delivered, called.delivered, kept, calls, calls, List.flatMap_cons, List.append_assoc]
      · cases rest with
        | cons next rest => exact emptied (List.cons_ne_nil next rest)
        | nil =>
            rw [same rfl, World.held, called.conn]
            cases w.conn.handle with
            | none => rfl
            | some h => rfl

end Connection

end

-- get_notifs() as it is meant: queue is what libpq holds once it has read its input.
structure Delivers (w : World) (queue : List Notify) (outcome : Except Exn Nat × World) : Prop where
  idle : w.conn.trans = none → outcome.1 = .ok queue.length ∧
    outcome.2.delivered = w.delivered ++ calls w.conn.receivers queue ∧ outcome.2.held = []
  busy : w.conn.trans ≠ none → outcome.1 = .ok 0 ∧ outcome.2.delivered = w.delivered ∧ outcome.2.held = queue
  receivers : outcome.2.conn.receivers = w.conn.receivers

-- Where libpq cannot read its input, that is all the client hears about.
theorem notification_delivery (env : Outside) (w : World) (isOpen : w.conn.isOpen = true) :
    (env.consumes w.clock = .fine → Delivers w (w.held ++ env.arrives w.clock) (Connection.getNotifs env w)) ∧
    (env.consumes w.clock ≠ .fine → ∃ e w', Connection.getNotifs env w = (.error e, w') ∧ e.kind = .brokenConnection ∧
      w'.delivered = w.delivered ∧ w'.held = w.held) := by
  obtain ⟨h, handle, _, _⟩ := open_handle isOpen
  have shut : ¬ w.conn.isOpen = false := by simp [isOpen]
  constructor
  · intro consumed
    have got : Connection.getNotifs env w = (do
        let w ← Prog.get
        if w.conn.trans.isSome then pure 0
        else do
          let queue := w.held
          Connection.notifyAll env queue
          pure queue.length : Client Nat) (w.consumed env) := by
      simp only [Connection.getNotifs, consumeConn, tick, Prog.bind_apply, Prog.get_apply, if_neg shut, Prog.gets_apply,
        Prog.modify_apply, Prog.pure_apply, consumed, modifyHandle, modifyConn]
      rfl
    have queue : (w.consumed env).held = w.held ++ env.arrives w.clock := by
      simp only [World.consumed, World.held, handle, Option.map_some, Option.elim_some]
    rw [got]
    simp only [Prog.bind_apply, Prog.get_apply]
    cases there : w.conn.trans with
    | some i =>
        have busy : (w.consumed env).conn.trans.isSome = true := by simp [World.consumed, there]
        rw [if_pos busy]
        exact ⟨fun idle => absurd (there.symm.trans idle) (Option.some_ne_none i), fun _ => ⟨rfl, rfl, queue⟩, rfl⟩
    | none =>
        have idle : ¬ (w.consumed env).conn.trans.isSome = true := by simp [World.consumed, there]
        rw [if_neg idle]
        have spec := @Connection.notify_all_calls env (w.consumed env).held (w.consumed env)
        unfold wp at spec
        simp only [Prog.bind_apply]
        generalize result : Connection.notifyAll env (w.consumed env).held (w.consumed env) = ended at spec ⊢
        obtain ⟨outcome, u⟩ := ended
        cases outcome with
        | error e => exact spec.elim
        | ok done =>
          obtain ⟨delivered, receivers, emptied, same⟩ := spec
          simp only [Prog.pure_apply]
          refine ⟨fun _ => ⟨by rw [← queue], by rw [← queue]; exact delivered, ?_⟩, fun busy => absurd there busy, receivers⟩
          by_cases none_ : (w.consumed env).held = []
          · exact (same none_).trans none_
          · exact emptied none_
  · intro failed
    simp only [Connection.getNotifs, consumeConn, tick, Prog.bind_apply, Prog.get_apply, if_neg shut, Prog.gets_apply,
      Prog.modify_apply, Prog.pure_apply]
    cases consumed : env.consumes w.clock with
    | fine => exact absurd consumed failed
    | trouble => exact ⟨_, _, rfl, rfl, rfl, rfl⟩
    | lost => exact ⟨_, _, rfl, rfl, rfl, by simp only [World.lose, World.held, handle, Option.map_some]; rfl⟩

-- The first of two receivers on a channel throws, and the second is called all the same.
theorem notification_delivery_throwing :
    let env : Outside := { Outside.calm with receiverThrows := fun t => if t = 1 then some "no" else none }
    let n : Notify := { channel := "news", extra := "", pid := 7 }
    let h : Handle := { Handle.fresh 90100 3 0 with notifies := [n, n] }
    let w : World := { World.initial .direct with conn := { Connection.initial .direct with
      handle := some h, completed := true, receivers := [("news", 1), ("news", 2), ("other", 3)] } }
    Delivers w [n, n] (Connection.getNotifs env w) :=
  (notification_delivery { Outside.calm with receiverThrows := fun t => if t = 1 then some "no" else none }
    { World.initial .direct with conn := { Connection.initial .direct with
      handle := some { Handle.fresh 90100 3 0 with
        notifies := [{ channel := "news", extra := "", pid := 7 }, { channel := "news", extra := "", pid := 7 }] }
      completed := true, receivers := [("news", 1), ("news", 2), ("other", 3)] } } rfl).1 rfl

end Pqxx
