import Pqxx.PipelineRun

set_option autoImplicit false

namespace Pqxx

open Lib

-- What every public operation is to leave behind, in the members' own terms.
structure Consistent (agree : Agreement) (s : PipelineState) : Prop where
  valid : ∀ x, s.first = some x ∨ s.second = some x → ∃ q, s.queries.find x = some q
  notAfter : ∀ y, s.second = some y → ∃ x, s.first = some x ∧ x ≤ y
  own : ∀ id q, s.queries.find id = some q → (∀ x, s.first = some x → id < x) → id < s.error →
    ∃ r, q.res = some r ∧ Produced agree s.executed id r
  waiting : s.error = qidLimit → s.numWaiting = s.distance s.second none
  blame : s.error < qidLimit → Faulty s.executed

section

variable {env : Backend} {agree : Agreement} {plain : Prop} {s : PipelineState}

theorem linked_consistent (linked : Linked env agree plain s) : Consistent agree s := by
  obtain ⟨lo, hi, sound, _⟩ := linked
  have ordered := sound.ordered
  have within := sound.within
  refine ⟨?_, ?_, ?_, ?_, ?_⟩
  · rintro x (there | there)
    · rw [sound.first] at there
      obtain ⟨rfl, inside⟩ := iter_at_some there
      exact sound.full lo (Nat.le_refl lo) inside
    · rw [sound.second] at there
      obtain ⟨rfl, inside⟩ := iter_at_some there
      exact sound.full hi ordered inside
  · intro y there
    rw [sound.second] at there
    obtain ⟨rfl, inside⟩ := iter_at_some there
    exact ⟨lo, by rw [sound.first, iterAt, if_pos (by omega)], ordered⟩
  · intro id q found before usable
    refine sound.own id q found ?_ usable
    have inside := (sound.known id q found).2
    by_cases more : lo ≤ s.qId
    · exact before lo (by rw [sound.first, iterAt, if_pos more])
    · omega
  · intro healthy
    rw [sound.waiting healthy]
    have length := range_length sound hi (s.qId + 1) ordered (Nat.le_refl _)
    have same : s.distance s.second none = s.qId + 1 - hi := by
      rw [← length, PipelineState.distance]
      refine congrArg List.length (List.filter_congr fun e there => ?_)
      have inside := (sound.known e.1 e.2 ((s.queries.mem_entries_iff e.1 e.2).mp there)).2
      rw [sound.second, iter_at_any _ _ _ inside, Option.all_none, Bool.and_true, decide_eq_decide]
      omega
    rw [same]
    omega
  · exact fun failed => (sound.stopped failed).2.2

end

theorem produced_same {executed : List (Nat × Option Outcome)} {id : Nat} {r : Result}
    (produced : Produced sameError executed id r) : (id, some r.outcome) ∈ executed := by
  rcases produced with there | ⟨message, outcome, holds, there, _, same⟩
  · exact there
  · rw [holds, ← same]
    exact there

theorem run_consistent (env : Backend) (agree : Agreement) (rejecting : RejectsForAQuery agree env) (ops : List PipelineOp)
    (orderly : Along (Orderly env) (pipelineStep env) .start ops) (few : (inserts ops).length < 2147483647) :
    Linked env agree False (run (pipelineStep env) .start ops) ∧ (run (pipelineStep env) .start ops).inserted = inserts ops := by
  obtain ⟨linked, inserted⟩ := run_linked env agree False (fun impossible => impossible.elim) rejecting .start ops
    (start_linked env agree False) orderly (fun impossible => impossible.elim) few
  exact ⟨linked, inserted⟩

-- A run of any public operations, each of which may throw. A batch that is refused has
-- a query that fails on its own, and the results of queries cancelled while pending are
-- not in the way of a new batch. The error of that query is its own if it is the one
-- the batch was refused with.
theorem pipeline_consistent (env : Backend) (rejecting : RejectsForAQuery anyError env) (ops : List PipelineOp) (op : PipelineOp)
    (orderly : Along (Orderly env) (pipelineStep env) .start (ops ++ [op])) (few : (inserts (ops ++ [op])).length < 2147483647) :
    let s := run (pipelineStep env) .start ops
    Consistent anyError s ∧ (op.call env s).1 ≠ .error .endDereferenced ∧
      (RejectsForAQuery sameError env → ∀ id q, s.queries.find id = some q → (∀ x, s.first = some x → id < x) → id < s.error →
        ∃ r, q.res = some r ∧ (id, some r.outcome) ∈ s.executed) := by
  obtain ⟨before, last⟩ := (along_append _ _ _ _ _).mp orderly
  rw [inserts_append, List.length_append] at few
  obtain ⟨linked, inserted⟩ := run_consistent env anyError rejecting ops before (by omega)
  refine ⟨linked_consistent linked, ?_, fun same id q found early usable => ?_⟩
  · generalize run (pipelineStep env) .start ops = s at *
    have room : s.qId + 2 < qidLimit := by
      obtain ⟨lo, hi, sound, _⟩ := linked
      have count := sound.count
      rw [inserted] at count
      unfold qidLimit
      omega
    have called := call_linking (fun impossible => impossible.elim) rejecting linked op last.1 room fun impossible => impossible.elim
    intro dangling
    unfold Linking Settling Prog.wp at called
    split at called
    · rename_i outcome
      rw [outcome] at dangling
      cases dangling
    · rename_i outcome
      obtain ⟨x, thrown⟩ := called.1
      rw [outcome, thrown] at dangling
      cases dangling
  · obtain ⟨linkedSame, _⟩ := run_consistent env sameError same ops before (by omega)
    obtain ⟨r, held, produced⟩ := (linked_consistent linkedSame).own id q found early usable
    exact ⟨r, held, produced_same produced⟩

-- A batch of two refused as a whole, of which the second query fails on its own.
def refusingBackend : Backend :=
  { rejects := fun n queries => if n = 0 ∧ queries = ["SELECT 1", "SELEC 2"] then some "syntax error" else none
    answer := fun _ query => if query = "SELEC 2" then some (.failed "syntax error") else some (.rows [["1"]])
    consumeInput := fun _ => true, isBusy := fun _ => false, cancels := fun _ => true }

theorem refusing_backend_rejects (agree : Agreement) (agreed : agree "syntax error" (some (.failed "syntax error"))) :
    RejectsForAQuery agree refusingBackend := by
  intro n queries message rejected
  simp only [refusingBackend] at rejected
  split at rejected
  · rename_i given
    obtain ⟨rfl, rfl⟩ := given
    obtain rfl := Option.some.inj rejected
    exact agreed
  · cases rejected

theorem pipeline_consistent_refused :
    (PipelineOp.call refusingBackend .complete (run (pipelineStep refusingBackend) .start
      [.retain 10, .insert "SELECT 1", .insert "SELEC 2"])).1 ≠ .error .endDereferenced :=
  (pipeline_consistent refusingBackend (refusing_backend_rejects anyError trivial)
    [.retain 10, .insert "SELECT 1", .insert "SELEC 2"] .complete
    ⟨⟨fun h => absurd h (by decide +kernel), fun h => nomatch h⟩, ⟨fun h => absurd h (by decide +kernel), fun h => nomatch h⟩,
      ⟨fun h => absurd h (by decide +kernel), fun h => nomatch h⟩, ⟨fun _ _ => by decide +kernel, fun h => nomatch h⟩, trivial⟩
    (by decide)).2.1

-- The same batch on a backend that takes each query on its own: the replay succeeds,
-- m_issuedrange.first ends up after m_issuedrange.second, and complete() goes on to
-- dereference the end iterator.
def fickleBackend : Backend :=
  { rejects := fun n _ => if n = 0 then some "syntax error" else none
    answer := fun _ _ => some (.rows [["1"]])
    consumeInput := fun _ => true, isBusy := fun _ => false, cancels := fun _ => true }

theorem pipeline_consistent_fails :
    ¬ (∀ (env : Backend) (ops : List PipelineOp) (op : PipelineOp), (inserts (ops ++ [op])).length < 2147483647 →
      Consistent sameError (run (pipelineStep env) .start ops) ∧
        (op.call env (run (pipelineStep env) .start ops)).1 ≠ .error .endDereferenced) := by
  intro claimed
  have kept := (claimed fickleBackend [.retain 10, .insert "SELECT 1", .insert "SELECT 2"] .complete (by decide)).2
  exact kept (by decide +kernel)

end Pqxx
