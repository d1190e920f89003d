import Pqxx.Transactor
import Pqxx.WorkAttempt

set_option autoImplicit false

namespace Pqxx

open Lib Prog

variable {τ : Type}

-- What a transactor does with the work it is given. It may catch what exec() throws, and
-- go by what it returns.
inductive Body (τ : Type) where
  | done (state : τ)
  | throw_ (thrown : Thrown) (state : τ)
  | exec (query desc : String) (next : Except Exn (List (List String)) → Body τ)

def Body.run (env : Outside) (i : Nat) : Body τ → Prog (τ × World) Thrown Unit
  | .done state => fun s => (.ok (), (state, s.2))
  | .throw_ thrown state => fun s => (.error thrown, (state, s.2))
  | .exec query desc next => fun s =>
      match Transaction.exec env i query desc s.2 with
      | (outcome, w) => (next outcome).run env i (s.1, w)

-- The statements of a run in which the backend takes every one.
inductive Body.Completes : Body τ → List String → Prop
  | done (state : τ) : Completes (.done state) []
  | exec (query desc : String) (next : Except Exn (List (List String)) → Body τ) (rows : List (List String)) (queries : List String)
      (rest : (next (.ok rows)).Completes queries) : Completes (.exec query desc next) (query :: queries)

-- A class derived from transactor<transaction<...> >, whose objects have their state in τ
-- and leave the connection alone in their callbacks.
structure Job (τ : Type) where
  classname : String
  name : String
  startArgs : String
  body : τ → Body τ
  onAbort : String → τ → τ
  onCommit : Prog τ Thrown Unit
  onDoubt : τ → τ

def onWorld (m : Client Unit) : Prog (τ × World) Thrown Unit := fun s =>
  match m s.2 with
  | (.ok (), w) => (.ok (), (s.1, w))
  | (.error e, w) => (.error (.standard e), (s.1, w))

def Job.transactor (env : Outside) (i : Nat) (job : Job τ) : Transactor τ World where
  argument := onWorld (openWork env i .work job.classname job.name job.startArgs "")
  call := fun s => (job.body s.1).run env i s
  commit := onWorld (Transaction.commit env i)
  close := fun s => (s.1, (Transaction.destroy env i s.2).2)
  onAbort := fun what s => (job.onAbort what s.1, s.2)
  onCommit := fun s =>
    match job.onCommit s.1 with
    | (outcome, state) => (outcome, (state, s.2))
  onDoubt := fun s => (job.onDoubt s.1, s.2)

-- All that one such run does to the database.
def Body.Whole (body : Body τ) (i : Nat) (new : List Effect) : Prop :=
  body.Completes (new.map Effect.text) ∧ ∀ e ∈ new, e.trans = i

theorem wp_on_world (state : τ) {m : Client Unit} {post : Unit → World → Prop} {raised : Exn → World → Prop} {w : World} (spec : wp m post raised w) :
    wp (onWorld m) (fun _ s => s.1 = state ∧ post () s.2) (fun thrown s => ∃ e, thrown = .standard e ∧ raised e s.2) (state, w) := by
  unfold wp at spec ⊢
  simp only [onWorld]
  cases outcome : m w with
  | mk r u =>
      rw [outcome] at spec
      cases r with
      | ok => exact ⟨rfl, spec⟩
      | error e => exact ⟨e, rfl, spec⟩

section

variable {env : Outside} {held : List Effect} {i : Nat}

theorem run_exec {query desc : String} {next : Except Exn (List (List String)) → Body τ} {state : τ} {w u : World}
    {outcome : Except Exn (List (List String))} (done : Transaction.exec env i query desc w = (outcome, u)) :
    (Body.exec query desc next).run env i (state, w) = (next outcome).run env i (state, u) := by
  simp only [Body.run, done]

-- Once the work is aborted, nothing more comes of what the body does.
theorem body_aborted (body : Body τ) (state : τ) {w : World} (gone : Over held i w) (aborted : (w.trans i).status = .aborted) :
    (body.run env i (state, w)).2.2 = w := by
  induction body with
  | done final => rfl
  | throw_ thrown final => rfl
  | exec query desc next ih =>
      obtain ⟨e, refused⟩ := @exec_aborted env held i w gone aborted query desc
      rw [run_exec refused]
      exact ih (.error e)

-- A work in the middle of what its body does, or at its end.
def Attempting (held : List Effect) (i : Nat) (w : World) : Prop :=
  w.Uncounted ∧ ((∃ new, Working held new i w) ∨ Over held i w ∧ (w.trans i).status = .aborted)

theorem body_working (candid : env.Candid) (body : Body τ) (state : τ) {new : List Effect} {w : World} (uncounted : w.Uncounted)
    (working : Working held new i w) :
    wp (body.run env i)
      (fun _ s => s.2.Uncounted ∧
        ((∃ more, Working held (new ++ more) i s.2 ∧ body.Whole i more) ∨ Over held i s.2 ∧ (s.2.trans i).status = .aborted))
      (fun _ s => Attempting held i s.2) (state, w) := by
  induction body generalizing new w with
  | done final =>
      refine ⟨uncounted, .inl ⟨[], ?_, .done final, fun e there => absurd there List.not_mem_nil⟩⟩
      rw [List.append_nil]
      exact working
  | throw_ thrown final => exact ⟨uncounted, .inl ⟨new, working⟩⟩
  | exec query desc next ih =>
      have spec := exec_working candid uncounted working query desc
      have stable : Stable w (Transaction.exec env i query desc w).2 :=
        Transaction.exec_sql_keeps (@stable_duties env) (.statement i query []) trivial desc w
      unfold wp
      cases outcome : Transaction.exec env i query desc w with
      | mk r u =>
          unfold wp at spec
          rw [outcome] at spec stable
          have uncounted := stable_uncounted uncounted stable
          rw [run_exec outcome]
          cases r with
          | ok rows =>
              refine wp_mono (ih (.ok rows) uncounted spec) (fun _ s after => ⟨after.1, ?_⟩) fun _ _ => id
              refine after.2.imp (fun going => ?_) id
              obtain ⟨more, working, completes, whose⟩ := going
              refine ⟨{ time := w.clock, trans := i, text := query } :: more, ?_, .exec query desc next rows _ completes, ?_⟩
              · rw [List.append_cons]
                exact working
              · intro e there
                cases there with
                | head => rfl
                | tail _ later => exact whose e later
          | error e =>
              have same := @body_aborted τ env held i (next (.error e)) state _ spec.1 spec.2
              rw [← same] at uncounted spec
              split
              · rename_i done
                rw [done] at uncounted spec
                exact ⟨uncounted, .inr spec⟩
              · rename_i done
                rw [done] at uncounted spec
                exact ⟨uncounted, .inr spec⟩

theorem close_attempt (candid : env.Candid) {w : World} (attempting : Attempting held i w) :
    (Transaction.destroy env i w).2.Uncounted ∧ (Transaction.destroy env i w).2.server.Holds held := by
  refine ⟨stable_uncounted attempting.1 (destroy_stable w), ?_⟩
  cases attempting.2 with
  | inl going =>
      obtain ⟨new, working⟩ := going
      exact destroy_holds (end_working candid attempting.1 working)
  | inr gone => exact destroy_holds (end_over gone.1)

-- The database with all that one attempt did, or without.
def Landed (held : List Effect) (i : Nat) (body : Body τ) (w : World) : Prop := ∃ new, w.server.Holds (held ++ new) ∧ body.Whole i new

def Thrown.doubtful (thrown : Thrown) : Prop := ∃ e, thrown = .standard e ∧ e.isA .inDoubtError = true

section

variable (candid : env.Candid) (job : Job τ) (T : τ) {w : World}

include candid

theorem attempt_ends (uncounted : w.Uncounted) (working : Working held [] i w) (state : τ) :
    wp (do
        (job.transactor env i).call
        (job.transactor env i).commit)
      (fun _ s => s.2.Uncounted ∧ ∃ new, Over (held ++ new) i s.2 ∧ (job.body state).Whole i new)
      (fun thrown s => s.2.Uncounted ∧ (Attempting held i s.2 ∨ Over held i s.2 ∨
        thrown.doubtful ∧ ∃ new, Over (held ++ new) i s.2 ∧ (job.body state).Whole i new)) (state, w) := by
  rw [wp_bind]
  refine wp_mono (body_working candid (job.body state) state uncounted working) (fun _ s after => ?_) fun _ _ after => ⟨after.1, .inl after⟩
  obtain ⟨uncounted, ended⟩ := after
  have stable := wp_keeps (s := s.2) (Transaction.commit_keeps (i := i) (@stable_lifetime env))
  cases ended with
  | inl going =>
      obtain ⟨new, working, whole⟩ := going
      refine wp_mono (wp_on_world s.1 (wp_and (commit_working candid working) stable)) (fun _ u done => ?_) fun thrown u failed => ?_
      · exact ⟨stable_uncounted uncounted done.2.2, new, done.2.1, whole⟩
      · obtain ⟨e, same, gone, stable⟩ := failed
        refine ⟨stable_uncounted uncounted stable, .inr (gone.imp id fun doubt => ?_)⟩
        exact ⟨⟨e, same, doubt.1⟩, new, doubt.2, whole⟩
  | inr gone =>
      obtain ⟨e, refused, certain⟩ := @commit_aborted env held i s.2 gone.1 gone.2
      have spec : wp (Transaction.commit env i) (fun _ _ => False) (fun _ u => u = s.2) s.2 := wp_error refused rfl
      refine wp_mono (wp_on_world s.1 spec) (fun _ _ => fun never => never.2.elim) fun thrown u failed => ?_
      obtain ⟨_, _, same⟩ := failed
      rw [same]
      exact ⟨uncounted, .inr (.inl gone.1)⟩

omit candid in
theorem close_over (uncounted : w.Uncounted) (gone : Over held i w) :
    (Transaction.destroy env i w).2.Uncounted ∧ (Transaction.destroy env i w).2.server.Holds held :=
  ⟨stable_uncounted uncounted (destroy_stable w), destroy_holds (end_over gone)⟩

-- One attempt, from the constructor of the transaction to its destructor.
theorem attempt_atomic (uncounted : w.Uncounted) (idle : w.server.Holds held) :
    wp (tryOnce (job.transactor env i)) (fun _ s => s.2.Uncounted ∧ Landed held i (job.body T) s.2)
      (fun thrown s => s.2.Uncounted ∧ (s.2.server.Holds held ∨ thrown.doubtful ∧ Landed held i (job.body T) s.2)) (T, w) := by
  have stable := wp_keeps (s := w) (open_work_keeps (i := i) (@stable_lifetime env) .work job.classname job.name job.startArgs "")
  have opened := wp_on_world T (wp_and (open_working candid uncounted idle job.classname job.name job.startArgs) stable)
  unfold wp at opened ⊢
  simp only [tryOnce]
  have argument : (job.transactor env i).argument = onWorld (openWork env i .work job.classname job.name job.startArgs "") := rfl
  rw [argument]
  cases outcome : (onWorld (openWork env i .work job.classname job.name job.startArgs "") (T, w) : Except Thrown Unit × τ × World) with
  | mk r s =>
      rw [outcome] at opened
      cases r with
      | error thrown =>
          obtain ⟨e, _, idle, stable⟩ := opened
          exact ⟨stable_uncounted uncounted stable, .inl idle⟩
      | ok =>
          obtain ⟨same, working, stable⟩ := opened
          obtain ⟨state, u⟩ := s
          have same : state = T := same
          rw [same]
          have ended := attempt_ends candid job (stable_uncounted uncounted stable) working T
          unfold wp at ended
          simp only [Job.transactor] at ended ⊢
          split at ended
          · rename_i done
            obtain ⟨uncounted, new, gone, whole⟩ := ended
            rw [done]
            obtain ⟨uncounted, idle⟩ := close_over uncounted gone
            exact ⟨uncounted, new, idle, whole⟩
          · rename_i done
            obtain ⟨uncounted, ended⟩ := ended
            rw [done]
            rcases ended with attempting | gone | doubt
            · obtain ⟨uncounted, idle⟩ := close_attempt candid attempting
              exact ⟨uncounted, .inl idle⟩
            · obtain ⟨uncounted, idle⟩ := close_over uncounted gone
              exact ⟨uncounted, .inl idle⟩
            · obtain ⟨doubtful, new, gone, whole⟩ := doubt
              obtain ⟨uncounted, idle⟩ := close_over uncounted gone
              exact ⟨uncounted, .inr ⟨doubtful, new, idle, whole⟩⟩

-- What perform() has come to: at most one attempt's work is in the database, and all of it.
structure Settles (held : List Effect) (i : Nat) (body : Body τ) (events : List (Event τ)) (w : World) : Prop where
  whole : w.server.Holds held ∨ Landed held i body w
  committed : Event.onCommit ∈ events → Landed held i body w
  failed : Event.onCommit ∉ events → Event.onDoubt ∉ events → w.server.Holds held

theorem perform_loop_atomic (attempts : Nat) (s : Performing τ World) (uncounted : s.world.Uncounted) (idle : s.world.server.Holds held)
    (before : Event.onCommit ∉ s.events) :
    Settles held i (job.body T) (performLoop (job.transactor env i) T attempts s).2.events (performLoop (job.transactor env i) T attempts s).2.world ∧
    (0 < attempts → (performLoop (job.transactor env i) T attempts s).1 = .ok () →
      Event.onCommit ∈ (performLoop (job.transactor env i) T attempts s).2.events) := by
  induction attempts generalizing s with
  | zero => exact ⟨⟨.inl idle, fun there => absurd there before, fun _ _ => idle⟩, fun none_ => absurd none_ (Nat.lt_irrefl 0)⟩
  | succ attempts ih =>
      have attempt := attempt_atomic (i := i) candid job T uncounted idle
      unfold wp at attempt
      simp only [performLoop]
      cases outcome : (tryOnce (job.transactor env i) (T, s.world) : Except Thrown Unit × τ × World) with
      | mk r after =>
          rw [outcome] at attempt
          cases r with
          | ok =>
              obtain ⟨_, done⟩ := attempt
              simp only [Job.transactor]
              have there : Event.onCommit ∈ s.events ++ [.began T] ++ [.ended .committed, .onCommit] := by simp
              exact ⟨⟨.inr done, fun _ => done, fun never => absurd there never⟩, fun _ _ => there⟩
          | error thrown =>
              obtain ⟨uncounted, ended⟩ := attempt
              cases thrown with
              | unknown =>
                  have idle := ended.resolve_right fun doubt => by
                    obtain ⟨e, same, _⟩ := doubt.1
                    cases same
                  simp only [Job.transactor]
                  exact ⟨⟨.inl idle, fun there => by simp [before] at there, fun _ _ => idle⟩, fun _ returned => by cases returned⟩
              | standard e =>
                  by_cases doubtful : e.isA .inDoubtError = true
                  · simp only [Job.transactor, if_pos doubtful]
                    refine ⟨⟨ended.imp id And.right, fun there => by simp [before] at there, fun _ never => ?_⟩, fun _ returned => by cases returned⟩
                    exact absurd (by simp) never
                  · have idle := ended.resolve_right fun doubt => by
                      obtain ⟨e', same, doubt⟩ := doubt.1
                      cases same
                      exact doubtful doubt
                    simp only [if_neg doubtful]
                    by_cases last : attempts = 0
                    · simp only [if_pos last, Job.transactor]
                      exact ⟨⟨.inl idle, fun there => by simp [before] at there, fun _ _ => idle⟩, fun _ returned => by cases returned⟩
                    · simp only [if_neg last]
                      refine (ih _ uncounted idle ?_).imp id fun returned _ => returned (Nat.pos_of_ne_zero last)
                      simp [before]

end

end

-- However perform() ends, whatever the backend refuses and whenever the connection is
-- lost, the database has all that one attempt of the body did, or nothing: all of it once
-- on_commit() was called, and nothing where neither that nor on_doubt() was.
theorem transactor_atomic (env : Outside) (candid : env.Candid) (held : List Effect) (i : Nat) (job : Job τ) (T : τ) (attempts : Int) (w : World)
    (uncounted : w.Uncounted) (idle : w.server.Holds held) :
    let performed := Connection.perform (job.transactor env i) T attempts { world := w, events := [] }
    (∃ new, performed.2.world.server.Holds (held ++ new) ∧ (new = [] ∨ (job.body T).Whole i new) ∧
      (Event.onCommit ∈ performed.2.events → (job.body T).Whole i new) ∧
      (Event.onCommit ∉ performed.2.events → Event.onDoubt ∉ performed.2.events → new = [])) ∧
    (0 < attempts → performed.1 = .ok () → Event.onCommit ∈ performed.2.events) := by
  have settled : Settles held i (job.body T) (Connection.perform (job.transactor env i) T attempts { world := w, events := [] }).2.events
      (Connection.perform (job.transactor env i) T attempts { world := w, events := [] }).2.world ∧
      (0 < attempts → (Connection.perform (job.transactor env i) T attempts { world := w, events := [] }).1 = .ok () →
        Event.onCommit ∈ (Connection.perform (job.transactor env i) T attempts { world := w, events := [] }).2.events) := by
    rw [Connection.perform]
    split
    · rename_i none_
      exact ⟨⟨.inl idle, fun there => absurd there List.not_mem_nil, fun _ _ => idle⟩, fun some_ => absurd some_ (by omega)⟩
    · rename_i some_
      have loop := perform_loop_atomic (i := i) candid job T attempts.toNat { world := w, events := [] } uncounted idle List.not_mem_nil
      exact ⟨loop.1, fun _ => loop.2 (by omega)⟩
  refine ⟨?_, settled.2⟩
  generalize Connection.perform (job.transactor env i) T attempts { world := w, events := [] } = performed at settled ⊢
  obtain ⟨settles, _⟩ := settled
  have nothing : ∀ {v : World}, v.server.Holds held → v.server.Holds (held ++ []) := by
    intro v idle
    rw [List.append_nil]
    exact idle
  by_cases committed : Event.onCommit ∈ performed.2.events
  · obtain ⟨new, idle, whole⟩ := settles.committed committed
    exact ⟨new, idle, .inr whole, fun _ => whole, fun never => absurd committed never⟩
  · by_cases doubt : Event.onDoubt ∈ performed.2.events
    · cases settles.whole with
      | inl idle => exact ⟨[], nothing idle, .inl rfl, fun there => absurd there committed, fun _ _ => rfl⟩
      | inr done =>
          obtain ⟨new, idle, whole⟩ := done
          exact ⟨new, idle, .inr whole, fun there => absurd there committed, fun _ never => absurd doubt never⟩
    · exact ⟨[], nothing (settles.failed committed doubt), .inl rfl, fun there => absurd there committed, fun _ _ => rfl⟩

-- A transactor that inserts a row and then another, and gives up on any error.
def inserting : Job Unit where
  classname := "transaction<READ COMMITTED>"
  name := "inserting"
  startArgs := ""
  body := fun _ => .exec "INSERT 1" "" fun outcome =>
    match outcome with
    | .error e => .throw_ (.standard e) ()
    | .ok _ => .exec "INSERT 2" "" fun outcome =>
        match outcome with
        | .error e => .throw_ (.standard e) ()
        | .ok _ => .done ()
  onAbort := fun _ => id
  onCommit := pure ()
  onDoubt := id

-- The connection is lost with the second row, and the second attempt goes through.
theorem transactor_atomic_second_attempt :
    let env := { Outside.calm with fate := fun t => if t = 5 then .lostAfter else .answered }
    let performed := Connection.perform (inserting.transactor env 0) () 2 { world := World.initial .direct, events := [] }
    performed.2.events.length = 6 ∧ ∃ new, performed.2.world.server.Holds new ∧ (inserting.body ()).Whole 0 new := by
  have candid : ({ Outside.calm with fate := fun t => if t = 5 then .lostAfter else .answered } : Outside).Candid := by
    refine ⟨fun t => ?_, fun t => by simp [Outside.calm]⟩
    simp only
    split
    · decide
    · decide
  have attempts : (Connection.perform (inserting.transactor { Outside.calm with fate := fun t => if t = 5 then .lostAfter else .answered } 0) () 2
      { world := World.initial .direct, events := [] }).2.events.length = 6 := by decide +kernel
  obtain ⟨⟨new, idle, _, committed, _⟩, _⟩ := transactor_atomic _ candid [] 0 inserting () 2 (World.initial .direct)
    ⟨rfl, fun _ => rfl⟩ ⟨rfl, fun b there => absurd there.symm (Option.some_ne_none b)⟩
  exact ⟨attempts, new, idle, committed (by decide +kernel)⟩

end Pqxx
