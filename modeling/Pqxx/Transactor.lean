import Pqxx.Except
import Pqxx.Lib.Prog

set_option autoImplicit false

namespace Pqxx

open Lib

-- What may be thrown at perform(): a std::exception, or anything else.
inductive Thrown where
  | standard (e : Exn)
  | unknown
deriving DecidableEq, Repr

-- A class derived from transactor, whose objects have their state in τ, with the
-- transaction class it asks for; σ is everything else. The destructor and the two
-- callbacks that report trouble are declared not to throw.
structure Transactor (τ σ : Type) where
  argument : Prog (τ × σ) Thrown Unit
  call : Prog (τ × σ) Thrown Unit
  commit : Prog (τ × σ) Thrown Unit
  close : τ × σ → τ × σ
  onAbort : String → τ × σ → τ × σ
  onCommit : Prog (τ × σ) Thrown Unit
  onDoubt : τ × σ → τ × σ

-- How an attempt ended.
inductive AttemptOutcome where
  | committed
  | failed (e : Exn)
  | doubt (e : Exn)
  | unknown
deriving DecidableEq, Repr

inductive Event (τ : Type) where
  | began (copy : τ)
  | ended (outcome : AttemptOutcome)
  | onAbort (what : String)
  | onCommit
  | onDoubt
deriving DecidableEq, Repr

-- What perform() goes by: the world, and a record of what it has done so far.
structure Performing (τ σ : Type) where
  world : σ
  events : List (Event τ)

def Thrown.outcome : Thrown → AttemptOutcome
  | .standard e => if e.isA .inDoubtError then .doubt e else .failed e
  | .unknown => .unknown

section

variable {τ σ : Type} (job : Transactor τ σ) (T : τ)

-- The try block: the transaction is gone by the time a handler runs.
def tryOnce : Prog (τ × σ) Thrown Unit := fun s =>
  match job.argument s with
  | (.error e, s) => (.error e, s)
  | (.ok (), s) =>
      let ended := (do
        job.call
        job.commit : Prog (τ × σ) Thrown Unit) s
      (ended.1, job.close ended.2)

def performLoop : Nat → Prog (Performing τ σ) Thrown Unit
  | 0 => pure ()
  | attempts + 1 => fun s =>
      let events := s.events ++ [.began T]
      match tryOnce job (T, s.world) with
      | (.ok (), T2) =>
          let called := job.onCommit T2
          (called.1, { world := called.2.2, events := events ++ [.ended .committed, .onCommit] })
      | (.error (.standard e), T2) =>
          if e.isA .inDoubtError then
            let called := job.onDoubt T2
            (.error (.standard e), { world := called.2, events := events ++ [.ended (.doubt e), .onDoubt] })
          else
            let called := job.onAbort e.what T2
            let next : Performing τ σ := { world := called.2, events := events ++ [.ended (.failed e), .onAbort e.what] }
            if attempts = 0 then (.error (.standard e), next) else performLoop attempts next
      | (.error .unknown, T2) =>
          let called := job.onAbort "Unknown exception" T2
          (.error .unknown, { world := called.2, events := events ++ [.ended .unknown, .onAbort "Unknown exception"] })

-- connection_base::perform, of so many attempts.
def Connection.perform (attempts : Int) : Prog (Performing τ σ) Thrown Unit :=
  if attempts ≤ 0 then pure () else performLoop job T attempts.toNat

end

-- An attempt in all it comes to: its copy of the transactor, its end, and the one call
-- that goes with such an end.
structure Attempt (τ : Type) where
  copy : τ
  outcome : AttemptOutcome
deriving DecidableEq, Repr

def Attempt.callback {τ : Type} (a : Attempt τ) : Event τ :=
  match a.outcome with
  | .committed => .onCommit
  | .failed e => .onAbort e.what
  | .doubt _ => .onDoubt
  | .unknown => .onAbort "Unknown exception"

def Attempt.events {τ : Type} (a : Attempt τ) : List (Event τ) := [.began a.copy, .ended a.outcome, a.callback]

def AttemptOutcome.retried : AttemptOutcome → Bool
  | .failed _ => true
  | .committed | .doubt _ | .unknown => false

-- perform() as it is meant. Only the last attempt can have committed, since every other
-- one failed and could be retried.
structure PerformedRight {τ : Type} (T : τ) (attempts : Nat) (made : List (Attempt τ)) (result : Except Thrown Unit) : Prop where
  some_ : made ≠ []
  bounded : made.length ≤ attempts
  fresh : ∀ a ∈ made, a.copy = T
  retried : ∀ a ∈ made.dropLast, a.outcome.retried = true
  once : made.countP (fun a => a.outcome = .committed) ≤ 1
  committed : result = .ok () → ∃ a ∈ made, a.outcome = .committed
  exhausted : ∀ a ∈ made.getLast?, a.outcome.retried = true → made.length = attempts

section

variable {τ σ : Type} {job : Transactor τ σ} {T : τ}

theorem performed_once {attempts : Nat} (outcome : AttemptOutcome) (result : Except Thrown Unit) (final : outcome.retried = false ∨ attempts = 1)
    (some_ : 1 ≤ attempts) (committed : result = .ok () → outcome = .committed) :
    PerformedRight T attempts [{ copy := T, outcome }] result where
  some_ := nofun
  bounded := some_
  fresh := by
    intro a there
    rw [List.mem_singleton.mp there]
  retried := nofun
  once := List.countP_le_length
  committed := fun normal => ⟨_, List.mem_singleton_self _, committed normal⟩
  exhausted := by
    intro a there again
    rw [List.getLast?_singleton] at there
    obtain rfl := Option.some.inj there
    rcases final with final | one
    · rw [final] at again
      cases again
    · exact one.symm

theorem performed_again {attempts : Nat} {made : List (Attempt τ)} {result : Except Thrown Unit} (e : Exn)
    (rest : PerformedRight T attempts made result) : PerformedRight T (attempts + 1) ({ copy := T, outcome := .failed e } :: made) result where
  some_ := nofun
  bounded := Nat.succ_le_succ rest.bounded
  fresh := by
    intro a there
    rcases List.mem_cons.mp there with rfl | there
    · rfl
    · exact rest.fresh a there
  retried := by
    intro a there
    rw [List.dropLast_cons_of_ne_nil rest.some_] at there
    rcases List.mem_cons.mp there with rfl | there
    · rfl
    · exact rest.retried a there
  once := by
    rw [List.countP_cons_of_neg (by simp)]
    exact rest.once
  committed := by
    intro normal
    obtain ⟨a, there, committed⟩ := rest.committed normal
    exact ⟨a, List.mem_cons_of_mem _ there, committed⟩
  exhausted := by
    intro a there again
    have last : a ∈ made.getLast? := by
      cases made with
      | nil => exact absurd rfl rest.some_
      | cons b made => exact there
    rw [List.length_cons, rest.exhausted a last again]

-- By the attempts left.
theorem perform_loop_right (attempts : Nat) (some_ : 1 ≤ attempts) (s : Performing τ σ) :
    ∃ made, (performLoop job T attempts s).2.events = s.events ++ made.flatMap Attempt.events ∧
      PerformedRight T attempts made (performLoop job T attempts s).1 := by
  induction attempts generalizing s with
  | zero => cases some_
  | succ attempts ih =>
      simp only [performLoop]
      cases tried : tryOnce job (T, s.world) with
      | mk outcome T2 =>
          cases outcome with
          | ok done =>
              refine ⟨[{ copy := T, outcome := .committed }], ?_, performed_once .committed _ (.inl rfl) some_ fun _ => rfl⟩
              simp [Attempt.events, Attempt.callback]
          | error thrown =>
              cases thrown with
              | unknown =>
                  refine ⟨[{ copy := T, outcome := .unknown }], ?_, performed_once .unknown _ (.inl rfl) some_ nofun⟩
                  simp [Attempt.events, Attempt.callback]
              | standard e =>
                  by_cases doubt : e.isA .inDoubtError = true
                  · simp only [if_pos doubt]
                    refine ⟨[{ copy := T, outcome := .doubt e }], ?_, performed_once (.doubt e) _ (.inl rfl) some_ nofun⟩
                    simp [Attempt.events, Attempt.callback]
                  · simp only [if_neg doubt]
                    by_cases last : attempts = 0
                    · subst last
                      refine ⟨[{ copy := T, outcome := .failed e }], ?_, performed_once (.failed e) _ (.inr rfl) some_ nofun⟩
                      simp [Attempt.events, Attempt.callback]
                    · simp only [if_neg last]
                      obtain ⟨made, events, right⟩ := ih (Nat.pos_of_ne_zero last) _
                      refine ⟨{ copy := T, outcome := .failed e } :: made, ?_, performed_again e right⟩
                      rw [events]
                      simp [Attempt.events, Attempt.callback]

end

-- A job that can be done once the world has counted to two, and that fails until then.
def counting : Transactor Nat Nat where
  argument := pure ()
  call := Prog.modify fun s => (s.1 + 1, s.2 + 1)
  commit := fun s => if s.2 ≤ 2 then (.error (.standard { kind := .sqlError, what := "no" }), s) else (.ok (), s)
  close := id
  onAbort := fun _ => id
  onCommit := pure ()
  onDoubt := id

example : (Connection.perform counting 5 4 { world := 0, events := [] }).1 = .ok () := rfl

end Pqxx
