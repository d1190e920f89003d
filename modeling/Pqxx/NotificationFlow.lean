import Pqxx.Lib.Passage
import Pqxx.NotificationDelivery
import Pqxx.TransactionServices

set_option autoImplicit false

namespace Pqxx

open Lib Prog

-- What libpq may have been given to read in the meantime.
def arrivals (env : Outside) (w w' : World) : List Notify := (List.range' w.clock (w'.clock - w.clock)).flatMap env.arrives

-- The calls a receiver has had.
def callsTo (s : String × Nat) (log : List (Nat × Notify)) : List Notify :=
  (log.filter fun call => call.1 = s.2 ∧ call.2.channel = s.1).map Prod.snd

-- What of a handle matters to the queue.
def Handle.port (h : Handle) : ConnStatus × Nat × List Notify := (h.status, h.backendpid, h.notifies)

-- A connection that is there is in use since the time before, or was made since.
def Handle.Since (h : Handle) (w w' : World) : Prop :=
  (∃ g, w.conn.handle = some g ∧ g.status = .ok ∧ g.backendpid = h.backendpid) ∨ w.clock ≤ h.backendpid ∧ h.backendpid < w'.clock

def Renewed (w w' : World) : Prop := ∀ h, w'.conn.handle = some h → h.status = .ok → w.clock ≤ h.backendpid

structure Passing (w w' : World) : Prop where
  later : w.clock ≤ w'.clock
  session : ∀ h, w'.conn.handle = some h → h.status = .ok → h.Since w w'

-- What goes through the queue: in at the end as libpq gets it, and none is dropped while the session lasts.
structure Flow (env : Outside) (w w' : World) (p : Passage Notify) : Prop where
  links : p.Links w.held w'.held
  came : p.came.Sublist (arrivals env w w')
  dropped : p.whole = false → Renewed w w'

-- A receiver s that is there all the time has been called for each notification of its channel
-- that went out of the queue.
structure Told (env : Outside) (s : String × Nat) (w w' : World) : Prop extends Passing w w' where
  enrolled : w'.conn.receivers.count s = w.conn.receivers.count s
  told : ∃ p, Flow env w w' p ∧ (w.conn.receivers.count s = 1 →
    callsTo s w'.delivered = callsTo s w.delivered ++ p.served.filter fun n => n.channel = s.1)

-- Nobody has been called.
structure Waited (env : Outside) (w w' : World) : Prop extends Passing w w' where
  delivered : w'.delivered = w.delivered
  kept : ∃ p, Flow env w w' p ∧ p.served = []

structure Unheard (env : Outside) (w w' : World) : Prop where
  holder : w'.conn.trans = w.conn.trans ∨ w'.conn.trans = none
  silent : w.conn.trans ≠ none → w'.conn.trans = w.conn.trans → Waited env w w'

structure Conveys (env : Outside) (s : String × Nat) (w w' : World) : Prop extends Told env s w w', Unheard env w w'

section

variable {env : Outside} {s : String × Nat} {i : Nat} {w u v : World}

theorem arrivals_onward (one : w.clock ≤ u.clock) (two : u.clock ≤ v.clock) : arrivals env w v = arrivals env w u ++ arrivals env u v := by
  have split : List.range' w.clock (v.clock - w.clock) = List.range' w.clock (u.clock - w.clock) ++ List.range' u.clock (v.clock - u.clock) := by
    have parts : v.clock - w.clock = (u.clock - w.clock) + (v.clock - u.clock) := by omega
    have start : u.clock = w.clock + (u.clock - w.clock) := by omega
    rw [parts, ← List.range'_append_1, ← start]
  rw [arrivals, split, List.flatMap_append]
  rfl

theorem callsTo_append (log more : List (Nat × Notify)) : callsTo s (log ++ more) = callsTo s log ++ callsTo s more := by
  rw [callsTo, List.filter_append, List.map_append]
  rfl

-- A receiver is called as often as it is there.
theorem callsTo_callsFor (receivers : List (String × Nat)) (n : Notify) :
    callsTo s (callsFor receivers n) = if n.channel = s.1 then List.replicate (receivers.count s) n else [] := by
  induction receivers with
  | nil => split <;> rfl
  | cons r rest ih =>
      have unrolled : callsTo s (callsFor (r :: rest) n) =
          if r.1 = n.channel ∧ r.2 = s.2 ∧ n.channel = s.1 then n :: callsTo s (callsFor rest n) else callsTo s (callsFor rest n) := by
        by_cases here : r.1 = n.channel
        · by_cases mine : r.2 = s.2 ∧ n.channel = s.1
          · simp [callsTo, callsFor, here, mine]
          · simp [callsTo, callsFor, here, mine]
        · simp [callsTo, callsFor, here]
      rw [unrolled, ih, List.count_cons]
      by_cases channel : n.channel = s.1
      · rw [channel]
        by_cases same : r = s
        · simp [same, List.replicate_succ]
        · have other : ¬ (r.1 = s.1 ∧ r.2 = s.2) := fun both => same (Prod.ext both.1 both.2)
          simp [same, other]
      · simp [channel]

theorem callsTo_calls (receivers : List (String × Nat)) (once : receivers.count s = 1) (queue : List Notify) :
    callsTo s (calls receivers queue) = queue.filter fun n => n.channel = s.1 := by
  induction queue with
  | nil => rfl
  | cons n rest ih =>
      rw [calls, List.flatMap_cons, callsTo_append, callsTo_callsFor, once]
      rw [calls] at ih
      rw [ih, List.filter_cons]
      by_cases channel : n.channel = s.1
      · simp [channel]
      · simp [channel]

theorem since_onward {h : Handle} (one : ∀ g, u.conn.handle = some g → g.status = .ok → g.Since w u) (since : h.Since u v)
    (left : w.clock ≤ u.clock) (right : u.clock ≤ v.clock) : h.Since w v := by
  rcases since with ⟨g, there, open_, same⟩ | ⟨made, before⟩
  · rcases one g there open_ with ⟨f, here, ok, pid⟩ | ⟨made, before⟩
    · exact .inl ⟨f, here, ok, pid.trans same⟩
    · right
      rw [← same]
      exact ⟨made, Nat.lt_of_lt_of_le before right⟩
  · exact .inr ⟨Nat.le_trans left made, before⟩

theorem renewed_onward (one : Renewed w u) (session : ∀ h, v.conn.handle = some h → h.status = .ok → h.Since u v)
    (left : w.clock ≤ u.clock) : Renewed w v := by
  intro h there open_
  rcases session h there open_ with ⟨g, here, ok, same⟩ | ⟨made, _⟩
  · rw [← same]
    exact one g here ok
  · exact Nat.le_trans left made

theorem passing_framing : Framing Passing where
  same _ := ⟨Nat.le_refl _, fun h there open_ => .inl ⟨h, there, open_, rfl⟩⟩
  onward _ _ _ one two := ⟨Nat.le_trans one.later two.later,
    fun h there open_ => since_onward one.session (two.session h there open_) one.later two.later⟩

theorem flow_idle (held : v.held = w.held) : Flow env w v .idle where
  links := by
    rw [held]
    exact Passage.links_idle _
  came := List.nil_sublist _
  dropped lost := Bool.noConfusion lost

theorem flow_onward {p q : Passage Notify} (first : Passing w u) (second : Passing u v) (one : Flow env w u p) (two : Flow env u v q) :
    Flow env w v (p.onward q) where
  links := Passage.links_onward one.links two.links
  came := by
    rw [arrivals_onward first.later second.later]
    exact one.came.append two.came
  dropped lost := by
    rw [Passage.whole_onward, Bool.and_eq_false_iff] at lost
    cases lost with
    | inl lost => exact renewed_onward (one.dropped lost) second.session first.later
    | inr lost => exact fun h there open_ => Nat.le_trans first.later (two.dropped lost h there open_)

theorem told_framing : Framing (Told env s) where
  same w := by
    refine ⟨passing_framing.same w, rfl, .idle, flow_idle rfl, fun _ => ?_⟩
    exact (List.append_nil _).symm
  onward _ _ _ one two := by
    obtain ⟨p, flow, calls⟩ := one.told
    obtain ⟨q, flow', calls'⟩ := two.told
    refine ⟨passing_framing.onward _ _ _ one.toPassing two.toPassing, two.enrolled.trans one.enrolled, p.onward q, ?_, fun once => ?_⟩
    · exact flow_onward one.toPassing two.toPassing flow flow'
    · rw [calls' (one.enrolled.trans once), calls once, Passage.served_onward, List.filter_append, List.append_assoc]

theorem waited_framing : Framing (Waited env) where
  same w := ⟨passing_framing.same w, rfl, .idle, flow_idle rfl, rfl⟩
  onward _ _ _ one two := by
    obtain ⟨p, flow, unserved⟩ := one.kept
    obtain ⟨q, flow', unserved'⟩ := two.kept
    refine ⟨passing_framing.onward _ _ _ one.toPassing two.toPassing, two.delivered.trans one.delivered, p.onward q, ?_, ?_⟩
    · exact flow_onward one.toPassing two.toPassing flow flow'
    · rw [Passage.served_onward, unserved, unserved']
      rfl

-- A connection that has been given up is nobody's until the next transaction begins.
theorem unheard_framing : Framing (Unheard env) where
  same w := ⟨.inl rfl, fun _ _ => waited_framing.same w⟩
  onward _ u v one two := {
    holder := by
      cases two.holder with
      | inl same =>
          rw [same]
          exact one.holder
      | inr none_ => exact .inr none_
    silent := fun held same => by
      cases one.holder with
      | inl still =>
          have second : Waited env u v := two.silent (by rw [still]; exact held) (same.trans still.symm)
          exact waited_framing.onward _ _ _ (one.silent held still) second
      | inr none_ =>
          cases two.holder with
          | inl still => exact absurd (same.symm.trans (still.trans none_)) held
          | inr ended => exact absurd (same.symm.trans ended) held }

theorem conveys_framing : Framing (Conveys env s) where
  same w := ⟨told_framing.same w, unheard_framing.same w⟩
  onward _ _ _ one two := ⟨told_framing.onward _ _ _ one.toTold two.toTold, unheard_framing.onward _ _ _ one.toUnheard two.toUnheard⟩

theorem waited_told (waited : Waited env w v) (enrolled : v.conn.receivers.count s = w.conn.receivers.count s) : Told env s w v := by
  obtain ⟨p, flow, unserved⟩ := waited.kept
  refine ⟨waited.toPassing, enrolled, p, flow, fun _ => ?_⟩
  rw [waited.delivered, unserved, List.filter_nil, List.append_nil]

theorem waited_conveys (waited : Waited env w v) (enrolled : v.conn.receivers.count s = w.conn.receivers.count s)
    (trans : v.conn.trans = w.conn.trans) : Conveys env s w v :=
  ⟨waited_told waited enrolled, .inl trans, fun _ _ => waited⟩

theorem held_port (w : World) : w.held = (w.conn.handle.map Handle.port).elim [] fun port => port.2.2 := by
  rw [World.held]
  cases w.conn.handle with
  | none => rfl
  | some h => rfl

theorem since_line (line : v.conn.handle.map (fun h => (h.status, h.backendpid)) = w.conn.handle.map fun h => (h.status, h.backendpid))
    (h : Handle) (there : v.conn.handle = some h) (open_ : h.status = .ok) : h.Since w v := by
  rw [there] at line
  obtain ⟨g, here, same⟩ := Option.map_eq_some_iff.mp line.symm
  have status : g.status = h.status := congrArg Prod.fst same
  exact .inl ⟨g, here, status.trans open_, congrArg Prod.snd same⟩

theorem waited_still (later : w.clock ≤ v.clock) (port : v.conn.handle.map Handle.port = w.conn.handle.map Handle.port)
    (delivered : v.delivered = w.delivered) : Waited env w v := by
  have line := congrArg (Option.map fun port => (port.1, port.2.1)) port
  rw [Option.map_map, Option.map_map] at line
  have held : v.held = w.held := by rw [held_port v, port, ← held_port w]
  exact ⟨⟨later, since_line line⟩, delivered, .idle, flow_idle held, rfl⟩

-- Whatever the handle is now good for, libpq still has what it had.
theorem waited_closed (later : w.clock ≤ v.clock) (closed : ∀ h, v.conn.handle = some h → h.status ≠ .ok) (held : v.held = w.held)
    (delivered : v.delivered = w.delivered) : Waited env w v :=
  ⟨⟨later, fun h there open_ => absurd open_ (closed h there)⟩, delivered, .idle, flow_idle held, rfl⟩

-- What was in the queue goes with the session that it came from.
theorem waited_renewed (later : w.clock ≤ v.clock)
    (made : ∀ h, v.conn.handle = some h → h.status = .ok → w.clock ≤ h.backendpid ∧ h.backendpid < v.clock) (held : v.held = [])
    (delivered : v.delivered = w.delivered) : Waited env w v := by
  have flow : Flow env w v (.drop w.held) := {
    links := by
      rw [held]
      exact Passage.links_drop _
    came := List.nil_sublist _
    dropped := fun _ h there open_ => (made h there open_).1 }
  exact ⟨⟨later, fun h there open_ => .inr (made h there open_)⟩, delivered, _, flow, Passage.served_drop _⟩

theorem conveys_still (later : w.clock ≤ v.clock) (port : v.conn.handle.map Handle.port = w.conn.handle.map Handle.port)
    (enrolled : v.conn.receivers.count s = w.conn.receivers.count s) (trans : v.conn.trans = w.conn.trans)
    (delivered : v.delivered = w.delivered) : Conveys env s w v :=
  waited_conveys (waited_still later port delivered) enrolled trans

theorem conveys_eased (f : Handle → Handle) (handle : v.conn.handle = w.conn.handle.map f) (port : ∀ h, (f h).port = h.port)
    (later : w.clock ≤ v.clock) (enrolled : v.conn.receivers.count s = w.conn.receivers.count s) (trans : v.conn.trans = w.conn.trans)
    (delivered : v.delivered = w.delivered) : Conveys env s w v := by
  apply conveys_still later _ enrolled trans delivered
  rw [handle, Option.map_map]
  exact congrArg w.conn.handle.map (funext port)

theorem conveys_spoilt (f : Handle → Handle) (handle : v.conn.handle = w.conn.handle.map f) (bad : ∀ h, (f h).status = .bad)
    (notifies : ∀ h, (f h).notifies = h.notifies) (later : w.clock ≤ v.clock)
    (enrolled : v.conn.receivers.count s = w.conn.receivers.count s) (trans : v.conn.trans = w.conn.trans)
    (delivered : v.delivered = w.delivered) : Conveys env s w v := by
  refine waited_conveys (waited_closed later ?_ ?_ delivered) enrolled trans
  · intro h there open_
    rw [handle] at there
    obtain ⟨g, _, rfl⟩ := Option.map_eq_some_iff.mp there
    rw [bad] at open_
    cases open_
  · rw [World.held, World.held, handle]
    cases w.conn.handle with
    | none => rfl
    | some h => exact notifies h

theorem connect_conveys : Keeps (Conveys env s) (pqConnect env) := by
  intro w
  apply wp_leaves
  rw [pqConnect, wp_bind, tick, wp_bind, wp_gets, wp_bind, wp_modify, wp_pure]
  cases env.greets w.clock with
  | none => exact conveys_still (Nat.le_succ _) rfl rfl rfl rfl
  | some greeting =>
      refine waited_conveys (waited_renewed (Nat.le_succ _) ?_ rfl rfl) rfl rfl
      intro h there _
      obtain rfl := Option.some.inj there
      exact ⟨Nat.le_refl _, Nat.lt_succ_self _⟩

theorem start_conveys : Keeps (Conveys env s) (Connection.startAsync env) := by
  intro w
  apply wp_leaves
  rw [Connection.startAsync, wp_bind, wp_get]
  apply wp_ite
  · exact fun _ => conveys_framing.same w
  · intro there
    have none_ : w.conn.handle = none := Option.not_isSome_iff_eq_none.mp there
    rw [wp_bind, tick, wp_bind, wp_gets, wp_bind, wp_modify, wp_pure]
    apply wp_ite
    · exact fun _ => conveys_still (Nat.le_succ _) rfl rfl rfl rfl
    · intro _
      refine waited_conveys (waited_closed (Nat.le_succ _) ?_ ?_ rfl) rfl rfl
      · intro h started open_
        obtain rfl := Option.some.inj started
        cases open_
      · rw [World.held, World.held, none_]
        rfl

theorem conveys_steps : Steps env (Conveys env s) where
  toFraming := conveys_framing
  ticks _ := conveys_still (Nat.le_succ _) rfl rfl rfl rfl
  notices msg w := by
    rw [processNotice, modify_apply]
    split
    · exact conveys_framing.same w
    · exact conveys_still (Nat.le_refl _) rfl rfl rfl rfl
  members f tended handle w := by
    have port : (f w.conn).handle.map Handle.port = w.conn.handle.map Handle.port := by rw [handle]
    exact conveys_still (Nat.le_refl _) port (by rw [← (tended w.conn).receivers]; rfl) (tended w.conn).trans rfl
  eases f status pid notifies _ := by
    have port (h : Handle) : (f h).port = h.port := by rw [Handle.port, status, pid, notifies]; rfl
    exact conveys_eased f rfl port (Nat.le_refl _) rfl rfl rfl
  spoils _ := conveys_spoilt (fun h => { h with status := .bad }) rfl (fun _ => rfl) (fun _ => rfl) (Nat.le_refl _) rfl rfl rfl
  asks _ active _ :=
    conveys_eased (fun h => { h with unread := [], active, copying := none }) rfl (fun _ => rfl) (Nat.le_succ _) rfl rfl rfl
  serves _ _ := conveys_still (Nat.le_refl _) rfl rfl rfl rfl
  loses _ := by
    apply conveys_spoilt (fun h => { h with status := .bad, unread := [], active := false, copying := none }) rfl
    · exact fun _ => rfl
    · exact fun _ => rfl
    · exact Nat.le_refl _
    · rfl
    · rfl
    · rfl
  finishes w := by
    have none_ (h : Handle) (there : (pqFinish w).2.conn.handle = some h) : False := Option.some_ne_none h there.symm
    exact waited_conveys (waited_renewed (Nat.le_refl _) (fun h there => (none_ h there).elim) rfl rfl) rfl rfl
  connects := connect_conveys
  starts := start_conveys

theorem consume_conveys : Keeps (Conveys env s) (consumeConn env) := by
  intro w
  apply wp_leaves
  rw [consumeConn, wp_bind, tick, wp_bind, wp_gets, wp_bind, wp_modify, wp_pure]
  have ticked := (@conveys_steps env s).ticks w
  cases env.consumes w.clock with
  | fine =>
      rw [wp_bind, modifyHandle, modifyConn, wp_modify, wp_pure]
      cases handle : w.conn.handle with
      | none => exact conveys_still (Nat.le_succ _) (by rw [handle]; rfl) rfl rfl rfl
      | some h =>
          have flow : Flow env w { w with
              clock := w.clock + 1
              conn := { w.conn with handle := some { h with notifies := h.notifies ++ env.arrives w.clock } } } (.arrive (env.arrives w.clock)) := {
            links := by
              rw [World.held, World.held, handle]
              exact Passage.links_arrive _ _
            came := by
              rw [arrivals, Nat.add_sub_cancel_left]
              exact List.sublist_append_left _ _
            dropped := fun lost => Bool.noConfusion lost }
          refine waited_conveys ⟨⟨Nat.le_succ _, ?_⟩, rfl, _, flow, rfl⟩ rfl rfl
          intro g there open_
          obtain rfl := Option.some.inj there
          exact .inl ⟨h, handle, open_, rfl⟩
  | trouble => exact ticked
  | lost =>
      rw [wp_bind, wp_modify, wp_pure]
      exact conveys_framing.onward _ _ _ ticked ((@conveys_steps env s).loses _)

-- Receivers are called on the connection there is.
structure Serving (w w' : World) : Prop where
  later : w.clock ≤ w'.clock
  line : w'.conn.handle.map (fun h => (h.status, h.backendpid)) = w.conn.handle.map fun h => (h.status, h.backendpid)
  trans : w'.conn.trans = w.conn.trans

theorem serving_framing : Framing Serving where
  same _ := ⟨Nat.le_refl _, rfl, rfl⟩
  onward _ _ _ one two := ⟨Nat.le_trans one.later two.later, two.line.trans one.line, two.trans.trans one.trans⟩

theorem notify_all_serving (queue : List Notify) : Keeps Serving (Connection.notifyAll env queue) := by
  have notices (msg : String) : Keeps Serving (processNotice msg) := by
    intro w
    rw [processNotice, modify_apply]
    split
    · exact serving_framing.same w
    · exact ⟨Nat.le_refl _, rfl, rfl⟩
  have delivers (n : Notify) (receiver : String × Nat) : Keeps Serving (Connection.deliver env n receiver) := by
    apply keeps_bind serving_framing (fun _ => ⟨Nat.le_succ _, rfl, rfl⟩)
    intro t
    apply keeps_bind serving_framing (fun _ => ⟨Nat.le_refl _, rfl, rfl⟩)
    intro _
    cases env.receiverThrows t with
    | none => exact keeps_pure serving_framing _
    | some what => exact notices _
  have each (n : Notify) (receivers : List (String × Nat)) : Keeps Serving (Connection.deliverAll env n receivers) := by
    induction receivers with
    | nil => exact keeps_pure serving_framing _
    | cons receiver rest ih => exact keeps_bind serving_framing (keeps_when serving_framing _ (delivers n receiver)) fun _ => ih
  induction queue with
  | nil => exact keeps_pure serving_framing _
  | cons n rest ih =>
      apply keeps_bind serving_framing (fun _ => ⟨Nat.le_refl _, Option.map_map _ _ _, rfl⟩)
      exact fun _ => keeps_get fun v => keeps_bind serving_framing (each n _) fun _ => ih

theorem notify_all_conveys (idle : w.conn.trans = none) : Conveys env s w (Connection.notifyAll env w.held w).2 := by
  have serving := @notify_all_serving env w.held w
  have spec := wp_leaves (wp_mono (@Connection.notify_all_calls env w.held w) (fun _ _ => id) fun _ _ => False.elim)
  obtain ⟨delivered, receivers, emptied, unheld⟩ := spec
  have emptied : (Connection.notifyAll env w.held w).2.held = [] := by
    by_cases none_ : w.held = []
    · exact (unheld none_).trans none_
    · exact emptied none_
  have flow : Flow env w (Connection.notifyAll env w.held w).2 (.serve w.held) := {
    links := by
      rw [emptied]
      exact Passage.links_serve _
    came := List.nil_sublist _
    dropped := fun lost => by
      rw [Passage.whole_serve] at lost
      cases lost }
  refine ⟨⟨⟨serving.later, since_line serving.line⟩, by rw [receivers], _, flow, fun once => ?_⟩, .inl serving.trans, fun busy => absurd idle busy⟩
  rw [delivered, callsTo_append, callsTo_calls _ once, Passage.served_serve]

theorem notifs_conveys : Keeps (Conveys env s) (Connection.getNotifs env) := by
  apply keeps_get
  intro w
  apply keeps_ite
  · exact keeps_pure conveys_framing _
  · apply keeps_bind conveys_framing consume_conveys
    intro consumed
    apply keeps_ite
    · exact keeps_throw conveys_framing _
    · intro v
      rw [bind_apply, get_apply]
      dsimp only
      by_cases busy : v.conn.trans.isSome = true
      · rw [if_pos busy]
        exact conveys_framing.same v
      · rw [if_neg busy]
        exact bind_from conveys_framing (notify_all_conveys (Option.not_isSome_iff_eq_none.mp busy)) fun _ => keeps_pure conveys_framing _

theorem turn_conveys (f : Transaction → Transaction) : Keeps (Conveys env s) (modifyTrans i f) :=
  fun _ => conveys_still (Nat.le_refl _) rfl rfl rfl rfl

theorem count_conveys (f : Int → Int) :
    Keeps (Conveys env s) (modifyConn fun c => { c with reactivationAvoidance := f c.reactivationAvoidance }) :=
  fun _ => conveys_still (Nat.le_refl _) rfl rfl rfl rfl

theorem conveys_errands : Errands env (Conveys env s) := by
  apply conveys_steps.errands notifs_conveys
  · intro f beside w
    have port : (f w.conn).handle.map Handle.port = w.conn.handle.map Handle.port := by rw [(beside w.conn).handle]
    have enrolled : (f w.conn).receivers.count s = w.conn.receivers.count s := by rw [(beside w.conn).receivers]
    exact conveys_still (Nat.le_refl _) port enrolled (beside w.conn).trans rfl
  · exact fun i f _ _ => turn_conveys f

theorem conveys_heedless : Heedless env (Conveys env s) where
  toErrands := conveys_errands
  sends := pq_exec_steps conveys_steps
  counts := count_conveys
  tallies _ _ := turn_conveys _

theorem unregister_conveys : Keeps (Conveys env s) (Connection.unregisterTransaction i) := by
  have frees : Keeps (Conveys env s) (modifyConn fun c => { c with trans := none }) := by
    intro w
    exact ⟨waited_told (waited_still (Nat.le_refl _) rfl rfl) rfl, .inr rfl, fun held same => absurd same.symm held⟩
  apply keeps_get
  intro w
  cases w.conn.trans with
  | none => exact (@conveys_steps env s).notices _
  | some old => exact keeps_ite _ frees ((@conveys_steps env s).notices _)

theorem conveys_dealings : Dealings env (Conveys env s) where
  toServices := conveys_heedless.services
  settles _ _ := turn_conveys _
  strikes _ := turn_conveys _
  resigns _ := unregister_conveys
  yields i := by
    apply keeps_get
    intro w
    exact keeps_bind conveys_framing (count_conveys fun c => c + (w.trans i).reactivationAvoidance) fun _ => turn_conveys _
  begins _ _ := conveys_still (Nat.le_refl _) rfl rfl rfl rfl

theorem insert_count {channel : String} {receiver : Nat} (other : (channel, receiver) ≠ s) (receivers : List (String × Nat)) :
    (insertReceiver channel receiver receivers).count s = receivers.count s := by
  induction receivers with
  | nil => exact List.count_eq_zero_of_not_mem (fun there => other (List.mem_singleton.mp there).symm)
  | cons r rest ih =>
      rw [insertReceiver]
      split
      · exact List.count_cons_of_ne other
      · rw [List.count_cons, List.count_cons, ih]

-- Other receivers come and go.
def Bypasses (s : String × Nat) (op : ClientOp) : Prop := op ≠ .addReceiver s.1 s.2 ∧ op ≠ .removeReceiver s.1 s.2

theorem bypasses_enrols (op : ClientOp) (bypasses : Bypasses s op) : op.Enrols (Conveys env s) := by
  cases op with
  | addReceiver channel receiver =>
      have other : (channel, receiver) ≠ s := by
        rintro rfl
        exact bypasses.1 rfl
      exact fun _ => conveys_still (Nat.le_refl _) rfl (insert_count other _) rfl rfl
  | removeReceiver channel receiver =>
      have other : s ≠ (channel, receiver) := by
        rintro rfl
        exact bypasses.2 rfl
      exact fun _ => conveys_still (Nat.le_refl _) rfl (List.count_erase_of_ne other) rfl rfl
  | _ => trivial

theorem register_told : Keeps (Told env s) (Connection.registerTransaction i) := by
  apply keeps_get
  intro w
  cases w.conn.trans with
  | none => exact fun _ => waited_told (waited_still (Nat.le_refl _) rfl rfl) rfl
  | some old => exact keeps_ite _ (keeps_throw told_framing _) (keeps_throw told_framing _)

theorem adorn_conveys (n : String) : Keeps (Conveys env s) (Connection.adornName n) := by
  apply keeps_bind conveys_framing
  · exact fun _ => conveys_still (Nat.le_refl _) rfl rfl rfl rfl
  · exact fun _ => keeps_get fun _ => keeps_pure conveys_framing _

theorem open_subtransaction_conveys (parent : Nat) (name : String) : Keeps (Conveys env s) (openSubtransaction i parent name) :=
  keeps_bind conveys_framing (adorn_conveys name) fun _ => turn_conveys _

theorem open_work_told (kind : Kind) (classname name startArgs logTable : String) :
    Keeps (Told env s) (openWork env i kind classname name startArgs logTable) := by
  have turns (f : Transaction → Transaction) : Keeps (Told env s) (modifyTrans i f) := fun w => (turn_conveys f w).toTold
  apply keeps_bind told_framing (turns _)
  intro _
  apply keeps_bind told_framing register_told
  intro _
  apply keeps_bind told_framing (turns _)
  exact fun _ w => (Transaction.begin_dealing conveys_dealings w).toTold

-- There is no second transaction on a connection.
theorem open_work_waited (busy : w.conn.trans ≠ none) (kind : Kind) (classname name startArgs logTable : String) :
    Waited env w (openWork env i kind classname name startArgs logTable w).2 := by
  obtain ⟨old, held⟩ := Option.ne_none_iff_exists'.mp busy
  have spec : wp (openWork env i kind classname name startArgs logTable) (fun _ v => Waited env w v) (fun _ v => Waited env w v) w := by
    rw [openWork, wp_bind, modifyTrans, wp_modify, wp_bind, Connection.registerTransaction, wp_bind, wp_get]
    dsimp only
    rw [held]
    apply wp_ite
    · exact fun _ => waited_still (Nat.le_refl _) rfl rfl
    · exact fun _ => waited_still (Nat.le_refl _) rfl rfl
  exact wp_leaves spec

theorem client_told (op : ClientOp) (bypasses : Bypasses s op) : Told env s w (clientStep env w op) := by
  cases transactional : op.transactional with
  | false => exact (client_errand conveys_errands op transactional (bypasses_enrols op bypasses) w).toTold
  | true =>
      cases op with
      | openWork i kind classname name startArgs logTable => exact open_work_told kind classname name startArgs logTable w
      | openSubtransaction i parent name => exact (open_subtransaction_conveys parent name w).toTold
      | work i op => exact (perform_dealing conveys_dealings op w).toTold
      | _ => exact absurd transactional Bool.false_ne_true

-- No operation concerns every receiver.
theorem bypasses_some (op : ClientOp) : ∃ s, Bypasses s op := by
  cases op with
  | addReceiver channel receiver =>
      refine ⟨(channel, receiver + 1), fun same => ?_, ClientOp.noConfusion⟩
      injection same with _ same
      exact Nat.succ_ne_self receiver same.symm
  | removeReceiver channel receiver =>
      refine ⟨(channel, receiver + 1), ClientOp.noConfusion, fun same => ?_⟩
      injection same with _ same
      exact Nat.succ_ne_self receiver same.symm
  | _ => exact ⟨("", 0), ClientOp.noConfusion, ClientOp.noConfusion⟩

theorem client_waited (op : ClientOp) (busy : w.conn.trans ≠ none) (still : (clientStep env w op).conn.trans ≠ none) :
    Waited env w (clientStep env w op) := by
  obtain ⟨s, bypasses⟩ := bypasses_some op
  have hushed (conveys : Conveys env s w (clientStep env w op)) : Waited env w (clientStep env w op) :=
    conveys.silent busy (conveys.holder.resolve_right still)
  cases transactional : op.transactional with
  | false => exact hushed (client_errand conveys_errands op transactional (bypasses_enrols op bypasses) w)
  | true =>
      cases op with
      | openWork i kind classname name startArgs logTable => exact open_work_waited busy kind classname name startArgs logTable
      | openSubtransaction i parent name => exact hushed (open_subtransaction_conveys parent name w)
      | work i op => exact hushed (perform_dealing conveys_dealings op w)
      | _ => exact absurd transactional Bool.false_ne_true

theorem run_told (uses : List ClientOp) (bypassed : ∀ op ∈ uses, Bypasses s op) (w : World) : Told env s w (run (clientStep env) w uses) := by
  apply run_invariant (fun _ op => Bypasses s op) (clientStep env) (Told env s w) _ w uses _ (told_framing.same w)
  · exact fun v op bypasses one => told_framing.onward _ _ _ one (client_told op bypasses)
  · exact along_of_mem _ _ w uses fun op there _ => bypassed op there

-- A backend is as old as its connection.
def Dated (w : World) : Prop := ∀ h, w.conn.handle = some h → h.status = .ok → h.backendpid < w.clock

theorem run_dated (policy : Policy) (ops : List ClientOp) : Dated (run (clientStep env) (World.initial policy) ops) := by
  apply run_always (clientStep env) Dated
  · intro w op dated h there open_
    obtain ⟨s, bypasses⟩ := bypasses_some op
    have told : Told env s w (clientStep env w op) := client_told op bypasses
    rcases told.session h there open_ with ⟨g, here, ok, same⟩ | ⟨_, before⟩
    · rw [← same]
      exact Nat.lt_of_lt_of_le (dated g here ok) told.later
    · exact before
  · exact fun h there => absurd there.symm (Option.some_ne_none h)

-- A session is told by its backend.
def SameSession (w w' : World) : Prop :=
  ∃ h h', w.conn.handle = some h ∧ w'.conn.handle = some h' ∧ h.status = .ok ∧ h'.status = .ok ∧ h.backendpid = h'.backendpid

theorem flow_whole {p : Passage Notify} (dated : Dated w) (flow : Flow env w v p) (same : SameSession w v) : p.whole = true := by
  obtain ⟨h, h', there, there', open_, open', pid⟩ := same
  rw [← Bool.not_eq_false]
  intro lost
  have old : h.backendpid < w.clock := dated h there open_
  have made : w.clock ≤ h'.backendpid := flow.dropped lost h' there' open'
  omega

end

-- A receiver that stays in place hears of what its channel got, in the order in which it came,
-- and misses nothing that was read on a session that is still there.
theorem notifications_told (env : Outside) (policy : Policy) (s : String × Nat) (before uses : List ClientOp)
    (once : (run (clientStep env) (World.initial policy) before).conn.receivers.count s = 1) (bypassed : ∀ op ∈ uses, Bypasses s op) :
    let w := run (clientStep env) (World.initial policy) before
    let w' := run (clientStep env) w uses
    w'.conn.receivers.count s = 1 ∧ ∃ p : Passage Notify, p.Links w.held w'.held ∧ p.came.Sublist (arrivals env w w') ∧
      callsTo s w'.delivered = callsTo s w.delivered ++ (p.served.filter fun n => n.channel = s.1) ∧
      (SameSession w w' → w.held ++ p.came = p.served ++ w'.held) := by
  intro w w'
  have told : Told env s w w' := run_told uses bypassed w
  obtain ⟨p, flow, calls⟩ := told.told
  refine ⟨told.enrolled.trans once, p, flow.links, flow.came, calls once, fun same => ?_⟩
  exact Passage.whole_links flow.links (flow_whole (run_dated policy before) flow same)

-- One notification is read under the transaction and one after it, and another receiver comes and goes.
theorem notifications_told_twice :
    let n : Notify := { channel := "news", extra := "", pid := 7 }
    let env := { Outside.calm with arrives := fun t => if t = 7 ∨ t = 10 then [n] else [] }
    let before : List ClientOp := [.addReceiver "news" 1, .activate]
    let uses : List ClientOp := [.addReceiver "news" 2, .openWork 0 .work "transaction" "" "" "", .work 0 .getNotifs,
      .work 0 .commit, .removeReceiver "news" 2, .work 0 .getNotifs]
    let w := run (clientStep env) (World.initial .direct) before
    let w' := run (clientStep env) w uses
    (∃ p : Passage Notify, p.Links w.held w'.held ∧ p.came.Sublist (arrivals env w w') ∧
      callsTo ("news", 1) w'.delivered = callsTo ("news", 1) w.delivered ++ (p.served.filter fun n => n.channel = "news") ∧
      (SameSession w w' → w.held ++ p.came = p.served ++ w'.held)) ∧ w'.delivered = [(1, n), (1, n)] := by
  intro n env before uses w w'
  have bypassed : ∀ op ∈ uses, Bypasses ("news", 1) op := by
    unfold Bypasses
    decide
  exact ⟨(notifications_told env .direct ("news", 1) before uses (by decide +kernel) bypassed).2, by decide +kernel⟩

-- While a transaction has the connection its receivers wait, and so do the notifications.
theorem notifications_wait (env : Outside) (policy : Policy) (before uses : List ClientOp)
    (busy : (run (clientStep env) (World.initial policy) before).conn.trans ≠ none)
    (still : Along (fun w op => (clientStep env w op).conn.trans ≠ none) (clientStep env)
      (run (clientStep env) (World.initial policy) before) uses) :
    let w := run (clientStep env) (World.initial policy) before
    let w' := run (clientStep env) w uses
    w'.delivered = w.delivered ∧
      (SameSession w w' → ∃ came : List Notify, came.Sublist (arrivals env w w') ∧ w'.held = w.held ++ came) := by
  intro w w'
  have waited : w'.conn.trans ≠ none ∧ Waited env w w' := by
    apply run_invariant _ (clientStep env) (fun v => v.conn.trans ≠ none ∧ Waited env w v) _ w uses still ⟨busy, waited_framing.same w⟩
    exact fun v op next held => ⟨next, waited_framing.onward _ _ _ held.2 (client_waited op held.1 next)⟩
  obtain ⟨p, flow, unserved⟩ := waited.2.kept
  refine ⟨waited.2.delivered, fun same => ⟨p.came, flow.came, ?_⟩⟩
  have links := Passage.whole_links flow.links (flow_whole (run_dated policy before) flow same)
  rw [unserved] at links
  exact links.symm

theorem notifications_wait_two :
    let n : Notify := { channel := "news", extra := "", pid := 7 }
    let env := { Outside.calm with arrives := fun t => if t = 6 ∨ t = 9 then [n] else [] }
    let before : List ClientOp := [.addReceiver "news" 1, .openWork 0 .work "transaction" "" "" ""]
    let uses : List ClientOp := [.work 0 .getNotifs, .work 0 (.exec "SELECT 1" ""), .work 0 .getNotifs]
    let w := run (clientStep env) (World.initial .direct) before
    let w' := run (clientStep env) w uses
    (w'.delivered = w.delivered ∧
      (SameSession w w' → ∃ came : List Notify, came.Sublist (arrivals env w w') ∧ w'.held = w.held ++ came)) ∧
      w'.held = [n, n] := by
  intro n env before uses w w'
  have still : Along (fun w op => (clientStep env w op).conn.trans ≠ none) (clientStep env) w uses :=
    ⟨by decide +kernel, by decide +kernel, by decide +kernel, trivial⟩
  exact ⟨notifications_wait env .direct before uses (by decide +kernel) still, by decide +kernel⟩

end Pqxx
