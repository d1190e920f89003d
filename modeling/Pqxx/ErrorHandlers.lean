import Pqxx.Lib.Roster
import Pqxx.NoticeDispatch

set_option autoImplicit false

namespace Pqxx

open Lib

-- The errorhandlers there are, with m_home where it is not a null pointer, and the
-- connections there are, with m_errorhandlers; and the calls made to handlers so far.
structure Handling where
  home : Nat → Option (Option Nat)
  errorhandlers : Nat → Option (List Nat)
  called : List (Nat × Bytes)

inductive HandlingOp where
  | connect (conn : Nat)
  | close (conn : Nat) (open_ : Option Bytes) (receivers : Bool)
  | disconnect (conn : Nat) (open_ : Option Bytes) (receivers : Bool)
  | create (handler conn : Nat)
  | destroy (handler : Nat)
  | notice (conn : Nat) (msg : Bytes)
deriving DecidableEq, Repr

def asciiBytes (text : String) : Bytes := text.toList.map fun c => UInt8.ofNat c.toNat

namespace Handling

def setHome (s : Handling) (handler : Nat) (home : Option (Option Nat)) : Handling :=
  { s with home := fun h => if h = handler then home else s.home h }

def setErrorhandlers (s : Handling) (conn : Nat) (handlers : Option (List Nat)) : Handling :=
  { s with errorhandlers := fun c => if c = conn then handlers else s.errorhandlers c }

-- All that follows gives none where it comes to an object that is not there.
def registerErrorhandler (s : Handling) (conn handler : Nat) : Option Handling := do
  let handlers ← s.errorhandlers conn
  pure (s.setErrorhandlers conn (some (handlers ++ [handler])))

def unregisterErrorhandler (s : Handling) (conn handler : Nat) : Option Handling := do
  let handlers ← s.errorhandlers conn
  pure (s.setErrorhandlers conn (some (handlers.filter fun other => other ≠ handler)))

-- errorhandler's constructor.
def errorhandler (s : Handling) (handler conn : Nat) : Option Handling :=
  (s.setHome handler (some (some conn))).registerErrorhandler conn handler

def unregister (s : Handling) (handler : Nat) : Option Handling := do
  match ← s.home handler with
  | none => pure s
  | some conn => (s.setHome handler (some none)).unregisterErrorhandler conn handler

-- Its destructor.
def destroy (s : Handling) (handler : Nat) : Option Handling := do
  let s ← s.unregister handler
  pure (s.setHome handler none)

-- The loop in close().
def unregisterAll (s : Handling) : List Nat → Option Handling
  | [] => some s
  | handler :: rest => do
      let s ← s.unregister handler
      s.unregisterAll rest

section

variable (answer : HandlerAnswers) (memory : Memory)

def processNotice (s : Handling) (conn : Nat) (msg : Bytes) : Option Handling := do
  let handlers ← s.errorhandlers conn
  if handlers.all fun handler => (s.home handler).isSome then do
    let notices ← Notices.processNoticeString answer memory { errorhandlers := handlers, called := s.called } msg
    pure { s with called := notices.called }
  else none

-- What close() has to say about what is still open. The transaction is told by its description.
def closingNotices (open_ : Option Bytes) (receivers : Bool) : List Bytes :=
  (open_.toList.map fun description => asciiBytes "Closing connection while " ++ description ++ asciiBytes " still open") ++
    if receivers then [asciiBytes "Closing connection with outstanding receivers."] else []

def processNotices (s : Handling) (conn : Nat) : List Bytes → Option Handling
  | [] => some s
  | msg :: rest => do
      let s ← s.processNotice answer memory conn msg
      s.processNotices conn rest

-- The handlers are swapped out of the list before they are told to unregister.
def close (s : Handling) (conn : Nat) (open_ : Option Bytes) (receivers : Bool) : Option Handling := do
  let s ← s.processNotices answer memory conn (closingNotices open_ receivers)
  let handlers ← s.errorhandlers conn
  (s.setErrorhandlers conn (some [])).unregisterAll handlers.reverse

def perform (s : Handling) : HandlingOp → Option Handling
  | .connect conn => some (s.setErrorhandlers conn (some []))
  | .close conn open_ receivers => s.close answer memory conn open_ receivers
  | .disconnect conn open_ receivers => do
      let s ← s.close answer memory conn open_ receivers
      pure (s.setErrorhandlers conn none)
  | .create handler conn => s.errorhandler handler conn
  | .destroy handler => s.destroy handler
  | .notice conn msg => s.processNotice answer memory conn msg

def run (s : Handling) : List HandlingOp → Option Handling
  | [] => some s
  | op :: ops => do
      let s ← s.perform answer memory op
      s.run ops

end

-- A new object is at an address where there is none, and all others that are named are
-- there; a handler may be gone before or after the connection it was created for.
def Feasible (s : Handling) : HandlingOp → Prop
  | .connect conn => (s.errorhandlers conn).isNone = true
  | .close conn _ _ | .disconnect conn _ _ => (s.errorhandlers conn).isSome = true
  | .create handler conn => (s.home handler).isNone = true ∧ (s.errorhandlers conn).isSome = true
  | .destroy handler => (s.home handler).isSome = true
  | .notice conn msg => (s.errorhandlers conn).isSome = true ∧ msg ≠ []

def Allowed (answer : HandlerAnswers) (memory : Memory) (s : Handling) : List HandlingOp → Prop
  | [] => True
  | op :: ops => s.Feasible op ∧ match s.perform answer memory op with
      | none => True
      | some next => next.Allowed answer memory ops

instance decidableFeasible (s : Handling) : ∀ op, Decidable (s.Feasible op)
  | .connect conn => inferInstanceAs (Decidable ((s.errorhandlers conn).isNone = true))
  | .close conn _ _ | .disconnect conn _ _ => inferInstanceAs (Decidable ((s.errorhandlers conn).isSome = true))
  | .create handler conn => inferInstanceAs (Decidable ((s.home handler).isNone = true ∧ (s.errorhandlers conn).isSome = true))
  | .destroy handler => inferInstanceAs (Decidable ((s.home handler).isSome = true))
  | .notice conn msg => inferInstanceAs (Decidable ((s.errorhandlers conn).isSome = true ∧ msg ≠ []))

instance decidableAllowed (answer : HandlerAnswers) (memory : Memory) : ∀ (s : Handling) ops, Decidable (s.Allowed answer memory ops)
  | _, [] => inferInstanceAs (Decidable True)
  | s, op :: ops =>
      have : Decidable (match s.perform answer memory op with
          | none => True
          | some next => next.Allowed answer memory ops) :=
        match s.perform answer memory op with
        | none => inferInstanceAs (Decidable True)
        | some next => decidableAllowed answer memory next ops
      inferInstanceAs (Decidable (s.Feasible op ∧ _))

def initial : Handling := { home := fun _ => none, errorhandlers := fun _ => none, called := [] }

end Handling

-- Who is registered with whom, as the class documents it: from a handler's construction to
-- its destruction, unless the connection is closed or destroyed before.
def HandlingOp.enrol (r : Roster Nat Nat) : HandlingOp → Roster Nat Nat
  | .create handler conn => r.join handler conn
  | .destroy handler => r.leave handler
  | .close conn _ _ | .disconnect conn _ _ => r.disband conn
  | .connect _ | .notice _ _ => r

def enrolled (ops : List HandlingOp) : Roster Nat Nat := ops.foldl HandlingOp.enrol Roster.empty

-- The pointers at both ends show the same roster.
structure Mirrors (s : Handling) (r : Roster Nat Nat) : Prop where
  home : ∀ handler, s.home handler = some (r.host handler) ∨ s.home handler = none ∧ r.host handler = none
  errorhandlers : ∀ conn, s.errorhandlers conn = some (r.guests conn) ∨ s.errorhandlers conn = none ∧ r.guests conn = []

section

variable {s : Handling} {r : Roster Nat Nat} {conn handler : Nat}

theorem Mirrors.live_home (mirrors : Mirrors s r) (live : (s.home handler).isSome = true) : s.home handler = some (r.host handler) := by
  apply (mirrors.home handler).resolve_right
  rintro ⟨gone, -⟩
  rw [gone] at live
  cases live

theorem Mirrors.live_conn (mirrors : Mirrors s r) (live : (s.errorhandlers conn).isSome = true) :
    s.errorhandlers conn = some (r.guests conn) := by
  apply (mirrors.errorhandlers conn).resolve_right
  rintro ⟨gone, -⟩
  rw [gone] at live
  cases live

-- Whoever is registered is there, and so is the connection.
theorem Mirrors.guest_live (mirrors : Mirrors s r) (guest : handler ∈ r.guests conn) : s.home handler = some (some conn) := by
  have host := (r.mem_guests handler conn).mp guest
  rw [← host]
  apply (mirrors.home handler).resolve_right
  rintro ⟨-, away⟩
  rw [away] at host
  cases host

theorem Mirrors.host_live (mirrors : Mirrors s r) (host : r.host handler = some conn) : s.errorhandlers conn = some (r.guests conn) := by
  apply (mirrors.errorhandlers conn).resolve_right
  rintro ⟨-, nobody⟩
  have guest := (r.mem_guests handler conn).mpr host
  rw [nobody] at guest
  cases guest

theorem mirrors_initial : Mirrors Handling.initial Roster.empty := ⟨fun _ => .inr ⟨rfl, rfl⟩, fun _ => .inr ⟨rfl, rfl⟩⟩

theorem mirrors_connect (mirrors : Mirrors s r) (new : (s.errorhandlers conn).isNone = true) :
    Mirrors (s.setErrorhandlers conn (some [])) r := by
  refine ⟨mirrors.home, fun c => ?_⟩
  simp only [Handling.setErrorhandlers]
  split
  · rename_i same
    subst same
    have nobody : r.guests c = [] := by
      rcases mirrors.errorhandlers c with live | ⟨-, nobody⟩
      · rw [live] at new
        cases new
      · exact nobody
    rw [nobody]
    exact .inl rfl
  · exact mirrors.errorhandlers c

theorem mirrors_create (mirrors : Mirrors s r) (new : (s.home handler).isNone = true) (live : (s.errorhandlers conn).isSome = true) :
    ∃ next, s.errorhandler handler conn = some next ∧ Mirrors next (r.join handler conn) := by
  have away : r.host handler = none := by
    rcases mirrors.home handler with there | ⟨-, away⟩
    · rw [there] at new
      cases new
    · exact away
  have list := mirrors.live_conn live
  refine ⟨_, by simp only [Handling.errorhandler, Handling.registerErrorhandler, Handling.setHome, list]; rfl, fun h => ?_, fun c => ?_⟩
  · rw [r.host_join]
    simp only [Handling.setErrorhandlers]
    split
    · exact .inl rfl
    · exact mirrors.home h
  · rw [r.guests_join _ _ _ away]
    simp only [Handling.setErrorhandlers]
    split
    · rename_i same
      rw [same]
      exact .inl rfl
    · exact mirrors.errorhandlers c

-- A handler that goes leaves the one list it is in, which is that of m_home.
theorem mirrors_destroy (mirrors : Mirrors s r) (live : (s.home handler).isSome = true) :
    ∃ next, s.destroy handler = some next ∧ Mirrors next (r.leave handler) := by
  have home := mirrors.live_home live
  have homes (h : Nat) : (if h = handler then none else s.home h) = some ((r.leave handler).host h) ∨
      (if h = handler then none else s.home h) = none ∧ (r.leave handler).host h = none := by
    rw [r.host_leave]
    split
    · exact .inr ⟨rfl, rfl⟩
    · exact mirrors.home h
  cases host : r.host handler with
  | none =>
      rw [host] at home
      refine ⟨s.setHome handler none, by simp only [Handling.destroy, Handling.unregister, home]; rfl, homes, fun c => ?_⟩
      rw [r.leave_same handler host]
      exact mirrors.errorhandlers c
  | some conn =>
      have list := mirrors.host_live host
      rw [host] at home
      refine ⟨_, by
        simp only [Handling.destroy, Handling.unregister, home, Handling.unregisterErrorhandler, Handling.setHome, list, Option.bind_eq_bind,
          Option.bind_some]
        rfl, fun h => ?_, fun c => ?_⟩
      · have here := homes h
        simp only [Handling.setErrorhandlers]
        split
        · rename_i same
          rw [if_pos same] at here
          exact here
        · rename_i different
          rw [if_neg different] at here
          exact here
      · simp only [Handling.setErrorhandlers, r.guests_leave]
        split
        · rename_i same
          rw [same]
          exact .inl rfl
        · rename_i different
          have absent : handler ∉ r.guests c := by
            intro guest
            have other := (r.mem_guests handler c).mp guest
            rw [host] at other
            exact different (Option.some.inj other).symm
          have kept : (r.guests c).filter (fun other => other ≠ handler) = r.guests c := by
            refine List.filter_eq_self.mpr fun other guest => ?_
            have unlike : other ≠ handler := by
              rintro rfl
              exact absent guest
            simpa using unlike
          rw [kept]
          exact mirrors.errorhandlers c

end

section

variable {answer : HandlerAnswers} {memory : Memory} {s : Handling} {r : Roster Nat Nat} {conn : Nat}

theorem string_processed (n : Notices) {msg : Bytes} (nonempty : msg ≠ []) : ∃ next, n.processNoticeString answer memory msg = some next := by
  obtain ⟨c, final⟩ : ∃ c, msg.getLast? = some c := ⟨_, List.getLast?_eq_some_getLast nonempty⟩
  simp only [Notices.processNoticeString, indexed_last nonempty, final, Option.bind_eq_bind, Option.bind_some]
  split
  · exact ⟨_, rfl⟩
  · split
    · exact ⟨_, rfl⟩
    · exact ⟨_, rfl⟩

-- All that are called are there.
theorem process_notice_reaches (mirrors : Mirrors s r) (live : (s.errorhandlers conn).isSome = true) (msg : Bytes) :
    s.processNotice answer memory conn msg =
      (Notices.processNoticeString answer memory { errorhandlers := r.guests conn, called := s.called } msg).map fun notices =>
        { s with called := notices.called } := by
  have there : (r.guests conn).all (fun handler => (s.home handler).isSome) = true := by
    refine List.all_eq_true.mpr fun handler guest => ?_
    rw [mirrors.guest_live guest]
    rfl
  simp only [Handling.processNotice, mirrors.live_conn live, Option.bind_eq_bind, Option.bind_some, there, if_true]
  cases Notices.processNoticeString answer memory { errorhandlers := r.guests conn, called := s.called } msg <;> rfl

theorem mirrors_notice (mirrors : Mirrors s r) (live : (s.errorhandlers conn).isSome = true) {msg : Bytes} (nonempty : msg ≠ []) :
    ∃ called, s.processNotice answer memory conn msg = some { s with called } := by
  obtain ⟨notices, processed⟩ :=
    @string_processed answer memory { errorhandlers := r.guests conn, called := s.called } msg nonempty
  refine ⟨notices.called, ?_⟩
  rw [process_notice_reaches mirrors live, processed]
  rfl

theorem mirrors_notices (msgs : List Bytes) (mirrors : Mirrors s r) (live : (s.errorhandlers conn).isSome = true)
    (nonempty : ∀ msg ∈ msgs, msg ≠ []) : ∃ called, s.processNotices answer memory conn msgs = some { s with called } := by
  induction msgs generalizing s with
  | nil => exact ⟨s.called, rfl⟩
  | cons msg rest ih =>
      obtain ⟨called, processed⟩ := @mirrors_notice answer memory s r conn mirrors live msg (nonempty msg List.mem_cons_self)
      obtain ⟨final, through⟩ := @ih { s with called } ⟨mirrors.home, mirrors.errorhandlers⟩ live fun msg there =>
        nonempty msg (List.mem_cons_of_mem _ there)
      refine ⟨final, ?_⟩
      simp only [Handling.processNotices, processed, Option.bind_eq_bind, Option.bind_some]
      exact through

theorem closing_nonempty (open_ : Option Bytes) (receivers : Bool) : ∀ msg ∈ Handling.closingNotices open_ receivers, msg ≠ [] := by
  have closing : asciiBytes "Closing connection while " ≠ [] := by decide
  intro msg there
  rcases List.mem_append.mp there with there | there
  · obtain ⟨description, -, rfl⟩ := List.mem_map.mp there
    exact fun none => closing (List.append_eq_nil_iff.mp (List.append_eq_nil_iff.mp none).1).1
  · split at there
    · obtain rfl := List.mem_singleton.mp there
      decide
    · cases there

-- By induction on the handlers still to unregister; the list they are looked for in is empty.
theorem unregister_all (handlers : List Nat) (s : Handling) (empty : s.errorhandlers conn = some [])
    (each : ∀ handler ∈ handlers, s.home handler = some (some conn) ∨ s.home handler = some none) :
    s.unregisterAll handlers = some { s with home := fun h => if h ∈ handlers then some none else s.home h } := by
  induction handlers generalizing s with
  | nil => simp [Handling.unregisterAll]
  | cons handler rest ih =>
      have gone : s.unregister handler = some (s.setHome handler (some none)) := by
        rcases each handler List.mem_cons_self with there | out
        · have same : (s.setHome handler (some none)).setErrorhandlers conn (some []) = s.setHome handler (some none) := by
            simp only [Handling.setErrorhandlers, Handling.setHome, Handling.mk.injEq, true_and, and_true]
            funext c
            split
            · rename_i here
              rw [here, empty]
            · rfl
          simp only [Handling.unregister, there, Option.bind_eq_bind, Option.bind_some, Handling.unregisterErrorhandler]
          rw [show (s.setHome handler (some none)).errorhandlers conn = some [] from empty]
          simp only [Option.bind_some, List.filter_nil, same]
          rfl
        · have same : s.setHome handler (some none) = s := by
            have unchanged : (fun h => if h = handler then some none else s.home h) = s.home := by
              funext h
              split
              · rename_i here
                rw [here, out]
              · rfl
            simp only [Handling.setHome, unchanged]
          simp only [Handling.unregister, out, Option.bind_eq_bind, Option.bind_some, same]
          rfl
      have later : ∀ other ∈ rest, (s.setHome handler (some none)).home other = some (some conn) ∨
          (s.setHome handler (some none)).home other = some none := by
        intro other there
        simp only [Handling.setHome]
        split
        · exact .inr rfl
        · exact each other (List.mem_cons_of_mem _ there)
      simp only [Handling.unregisterAll, gone, Option.bind_eq_bind, Option.bind_some]
      rw [ih (s.setHome handler (some none)) empty later]
      simp only [Handling.setHome, List.mem_cons]
      congr 2
      funext h
      by_cases first : h = handler
      · simp [first]
      · simp [first]

theorem mirrors_close (mirrors : Mirrors s r) (live : (s.errorhandlers conn).isSome = true) (open_ : Option Bytes) (receivers : Bool) :
    ∃ next, s.close answer memory conn open_ receivers = some next ∧ next.errorhandlers conn = some [] ∧ Mirrors next (r.disband conn) := by
  obtain ⟨called, processed⟩ := @mirrors_notices answer memory s r conn _ mirrors live (closing_nonempty open_ receivers)
  have emptied : (({ s with called } : Handling).setErrorhandlers conn (some [])).errorhandlers conn = some [] := if_pos rfl
  have each : ∀ handler ∈ (r.guests conn).reverse, s.home handler = some (some conn) ∨ s.home handler = some none :=
    fun handler there => .inl (mirrors.guest_live (List.mem_reverse.mp there))
  have closed : s.close answer memory conn open_ receivers =
      (({ s with called } : Handling).setErrorhandlers conn (some [])).unregisterAll (r.guests conn).reverse := by
    simp only [Handling.close, processed, Option.bind_eq_bind, Option.bind_some, mirrors.live_conn live]
  refine ⟨_, closed.trans (unregister_all _ _ emptied each), emptied, fun h => ?_, fun c => ?_⟩
  · rw [r.host_disband]
    simp only [Handling.setErrorhandlers, List.mem_reverse, r.mem_guests]
    split
    · exact .inl rfl
    · exact mirrors.home h
  · rw [r.guests_disband]
    simp only [Handling.setErrorhandlers]
    split
    · exact .inl rfl
    · exact mirrors.errorhandlers c

-- What each operation does to the pointers is what it does to the roster.
theorem perform_mirrors (op : HandlingOp) (mirrors : Mirrors s r) (feasible : s.Feasible op) :
    ∃ next, s.perform answer memory op = some next ∧ Mirrors next (op.enrol r) := by
  cases op with
  | connect conn => exact ⟨_, rfl, mirrors_connect mirrors feasible⟩
  | close conn open_ receivers =>
      obtain ⟨next, closed, -, mirrors⟩ := @mirrors_close answer memory s r conn mirrors feasible open_ receivers
      exact ⟨next, closed, mirrors⟩
  | disconnect conn open_ receivers =>
      obtain ⟨next, closed, -, mirrors⟩ := @mirrors_close answer memory s r conn mirrors feasible open_ receivers
      refine ⟨next.setErrorhandlers conn none, by simp only [Handling.perform, closed]; rfl, mirrors.home, fun c => ?_⟩
      simp only [Handling.setErrorhandlers]
      split
      · rename_i same
        subst same
        exact .inr ⟨rfl, by rw [HandlingOp.enrol, r.guests_disband, if_pos rfl]⟩
      · exact mirrors.errorhandlers c
  | create handler conn => exact mirrors_create mirrors feasible.1 feasible.2
  | destroy handler => exact mirrors_destroy mirrors feasible
  | notice conn msg =>
      obtain ⟨called, processed⟩ := @mirrors_notice answer memory s r conn mirrors feasible.1 msg feasible.2
      exact ⟨_, processed, mirrors.home, mirrors.errorhandlers⟩

theorem run_mirrors (ops : List HandlingOp) (mirrors : Mirrors s r) (allowed : s.Allowed answer memory ops) :
    ∃ next, s.run answer memory ops = some next ∧ Mirrors next (ops.foldl HandlingOp.enrol r) := by
  induction ops generalizing s r with
  | nil => exact ⟨s, rfl, mirrors⟩
  | cons op ops ih =>
      obtain ⟨feasible, rest⟩ := allowed
      obtain ⟨next, performed, mirrors⟩ := @perform_mirrors answer memory s r op mirrors feasible
      rw [performed] at rest
      obtain ⟨last, ran, mirrors⟩ := ih mirrors rest
      refine ⟨last, ?_, mirrors⟩
      simp only [Handling.run, performed, Option.bind_eq_bind, Option.bind_some]
      exact ran

end

-- The handlers a connection has are those created for it that have not been destroyed
-- since, nor the connection closed, in the order of their creation; m_home says the same,
-- and a message reaches them from the last to the first that answers false.
structure Attended (answer : HandlerAnswers) (memory : Memory) (r : Roster Nat Nat) (s : Handling) : Prop where
  handlers : ∀ conn list, s.errorhandlers conn = some list → list = r.guests conn
  home : ∀ handler home, s.home handler = some home → home = r.host handler
  there : ∀ handler conn, r.host handler = some conn → (s.home handler).isSome = true ∧ (s.errorhandlers conn).isSome = true
  notices : ∀ conn msg, (s.errorhandlers conn).isSome = true → msg ≠ [] → 0 ∉ msg →
    ∃ next : Notices, s.processNotice answer memory conn msg = some { s with called := next.called } ∧
      Notified answer (r.guests conn).reverse memory msg { errorhandlers := r.guests conn, called := s.called } next

-- No run comes to an object that is not there, in whatever order handlers and connections
-- are destroyed.
theorem error_handlers_attended (answer : HandlerAnswers) (memory : Memory) (ops : List HandlingOp)
    (allowed : Handling.initial.Allowed answer memory ops) :
    ∃ s, Handling.initial.run answer memory ops = some s ∧ Attended answer memory (enrolled ops) s := by
  obtain ⟨s, ran, mirrors⟩ := run_mirrors ops mirrors_initial allowed
  rw [← enrolled] at mirrors
  refine ⟨s, ran, fun conn list here => ?_, fun handler home here => ?_, fun handler conn host => ?_, fun conn msg live nonempty free => ?_⟩
  · exact Option.some.inj (here.symm.trans (mirrors.live_conn (by rw [here]; rfl)))
  · exact Option.some.inj (here.symm.trans (mirrors.live_home (by rw [here]; rfl)))
  · rw [mirrors.guest_live (((enrolled ops).mem_guests handler conn).mpr host), mirrors.host_live host]
    exact ⟨rfl, rfl⟩
  · obtain ⟨next, processed, notified⟩ :=
      string_notified answer memory free nonempty { errorhandlers := (enrolled ops).guests conn, called := s.called }
    refine ⟨next, ?_, notified⟩
    rw [process_notice_reaches mirrors live, processed]
    rfl

-- One handler outlives its connection, and one is created again after a close.
theorem error_handlers_attended_in_any_order :
    let ops : List HandlingOp := [.connect 7, .connect 8, .create 1 7, .create 2 7, .create 3 8, .notice 7 [72], .close 7 none true, .destroy 1,
      .create 1 7, .create 4 7, .disconnect 7 (some [84]) false, .destroy 4, .destroy 1, .notice 8 [72]]
    ∃ s, Handling.initial.run (fun _ _ _ => true) ⟨true, true⟩ ops = some s ∧
      Attended (fun _ _ _ => true) ⟨true, true⟩ (enrolled ops) s :=
  error_handlers_attended _ _ _ (by decide)

end Pqxx
