import Mathlib.Data.List.Induction
import Pqxx.PipelineRun

set_option autoImplicit false

namespace Pqxx

open Lib

-- r is what the backend made of the query that was inserted as number id.
def OwnResult (env : Backend) (texts : List String) (id : Nat) (r : Result) : Prop :=
  ∃ text, 1 ≤ id ∧ texts[id - 1]? = some text ∧ env.answer (id - 1) text = some r.outcome

def Batch.texts (b : Batch) : List String := b.queries.map Prod.snd

-- What a run over the queries texts leaves behind, and what the operations that report
-- results do from there. Only a connection that fails keeps a result from the client.
structure Matched (env : Backend) (texts : List String) (s : PipelineState) : Prop where
  sent : s.sent.flatMap Batch.queries ++ s.queriesFrom s.second = numbered (fun _ text => text) texts
  executed : s.executed = numbered env.answer (s.sent.flatMap Batch.texts)
  finished : ∀ id, (isFinished id s).1 = .ok true →
    ∃ q r, s.queries.find id = some q ∧ q.res = some r ∧ OwnResult env texts id r
  retrieved : ∀ id, Prog.wp (retrieve env id) (fun r _ => OwnResult env texts id r)
    (fun e _ => s.queries.find id = none ∨ Severed env e) s
  oldest : Prog.wp (retrieveOldest env) (fun r _ => s.queries.begin = some r.1 ∧ OwnResult env texts r.1 r.2)
    (fun e _ => s.queries.begin = none ∨ Severed env e) s
  completed : Prog.wp (complete env) (fun _ t => t.sent.flatMap Batch.queries = numbered (fun _ text => text) texts ∧
    ∀ id q, t.queries.find id = some q → ∃ r, q.res = some r ∧ OwnResult env texts id r) (fun e _ => Severed env e) s
  healthy : s.error = qidLimit

section

variable {env : Backend} {agree : Agreement} {s : PipelineState} {lo hi : Nat}

theorem answering_rejects (answering : Answering env) : RejectsForAQuery agree env := by
  intro n queries message rejected
  rw [answering.1] at rejected
  cases rejected

theorem linked_calm (linked : Linked env agree True s) : ∃ lo hi, Sound env agree True s lo hi ∧ InFlight env s lo hi := by
  obtain ⟨lo, hi, sound, flight | stale⟩ := linked
  · exact ⟨lo, hi, sound, flight⟩
  · exact absurd trivial stale.notPlain

theorem linked_orderly (linked : Linked env agree True s) (op : PipelineOp) (wanted : op ≠ .cancel) : Orderly env s op := by
  obtain ⟨lo, hi, sound, flight⟩ := linked_calm linked
  exact ⟨fun _ calm => (in_flight_idle flight (sound_calm sound calm)).1, fun canceled => absurd canceled wanted⟩

theorem plain_run (answering : Answering env) (ops : List PipelineOp) (ordinary : ∀ op ∈ ops, op ≠ .flush ∧ op ≠ .cancel)
    (few : (inserts ops).length < 2147483647) :
    Along (Orderly env) (pipelineStep env) .start ops ∧ Linked env anyError True (run (pipelineStep env) .start ops) ∧
      (run (pipelineStep env) .start ops).inserted = inserts ops := by
  have linked : ∀ before : List PipelineOp, before <+: ops → Along (Orderly env) (pipelineStep env) .start before →
      Linked env anyError True (run (pipelineStep env) .start before) ∧
        (run (pipelineStep env) .start before).inserted = inserts before := by
    rintro before ⟨after, rfl⟩ orderly
    rw [inserts_append, List.length_append] at few
    exact run_linked env anyError True (fun _ => answering) (answering_rejects answering) .start before
      (start_linked env anyError True) orderly (fun _ op there => ordinary op (List.mem_append_left _ there)) (by
        show (inserts before).length < 2147483647
        omega)
  have orderly : ∀ before : List PipelineOp, before <+: ops → Along (Orderly env) (pipelineStep env) .start before := by
    intro before
    induction before using List.reverseRecOn with
    | nil => exact fun _ => trivial
    | append_singleton before op ih =>
        intro prefix_
        have shorter : before <+: ops := (List.prefix_append before [op]).trans prefix_
        have ordinaryOp := ordinary op (prefix_.subset (List.mem_append_right _ List.mem_cons_self))
        refine (along_append _ _ _ _ _).mpr ⟨ih shorter, ?_, trivial⟩
        exact linked_orderly (linked before shorter (ih shorter)).1 op ordinaryOp.2
  have whole := orderly ops (List.prefix_refl ops)
  exact ⟨whole, linked ops (List.prefix_refl ops) whole⟩

theorem sound_own_result (sound : Sound env agree True s lo hi) (id : Nat) (outcome : Outcome)
    (executed : (id, some outcome) ∈ s.executed) (r : Result) (same : r.outcome = outcome) : OwnResult env s.inserted id r := by
  rw [(sound.record trivial).executed, numbered, List.mem_mapIdx] at executed
  obtain ⟨i, inside, entry⟩ := executed
  rw [Prod.mk.injEq] at entry
  obtain ⟨rfl, answer⟩ := entry
  rw [List.length_take] at inside
  refine ⟨s.inserted[i], by omega, ?_, ?_⟩
  · rw [Nat.add_sub_cancel]
    exact List.getElem?_eq_getElem (by omega)
  · rw [Nat.add_sub_cancel, same, ← answer, List.getElem_take]

-- A failed query has a fault on record, which a run of answered queries has not.
theorem sound_produced (answering : Answering env) (sound : Sound env agree True s lo hi) (id : Nat) (r : Result)
    (produced : Produced agree s.executed id r) : OwnResult env s.inserted id r := by
  rcases produced with executed | ⟨_, outcome, _, there, bad, _⟩
  · exact sound_own_result sound id r.outcome executed r rfl
  · exact absurd trivial (sound_not_plain (fun _ => answering) sound ⟨id, outcome, there, bad⟩)

theorem sound_well (answering : Answering env) (sound : Sound env agree True s lo hi) : s.error = qidLimit := by
  have limit := sound.limit
  apply Decidable.byContradiction
  intro unhealthy
  exact sound_not_plain (fun _ => answering) sound (sound.stopped (by omega)).2.2 trivial

theorem numbered_texts (texts : List String) : (numbered (fun _ text => text) texts).map Prod.snd = texts := by
  refine List.ext_getElem (by simp only [numbered, List.length_map, List.length_mapIdx]) fun i _ _ => ?_
  simp only [numbered, List.getElem_map, List.getElem_mapIdx]

theorem sound_sent (sound : Sound env agree True s lo hi) :
    s.sent.flatMap Batch.queries ++ s.queriesFrom s.second = numbered (fun _ text => text) s.inserted := by
  rw [(sound.record trivial).sent, issued_queries sound]
  exact numbered_extend (fun _ text => text) s.inserted (hi - 1)

theorem sound_executed (sound : Sound env agree True s lo hi) : s.executed = numbered env.answer (s.sent.flatMap Batch.texts) := by
  have same : s.sent.flatMap Batch.texts = (s.sent.flatMap Batch.queries).map Prod.snd := List.map_flatMap.symm
  rw [same, (sound.record trivial).sent, numbered_texts]
  exact (sound.record trivial).executed

theorem sound_finished (answering : Answering env) (sound : Sound env agree True s lo hi) (id : Nat)
    (yes : (isFinished id s).1 = .ok true) :
    ∃ q r, s.queries.find id = some q ∧ q.res = some r ∧ OwnResult env s.inserted id r := by
  have spec := is_finished_spec sound id
  unfold Prog.wp at spec
  split at spec
  · rename_i answer _ outcome
    rw [outcome] at yes
    obtain ⟨_, q, found, received⟩ := spec
    obtain rfl : answer = true := Except.ok.inj yes
    have healthy := sound_well answering sound
    have inside := (sound.known id q found).2
    have small := sound.small
    obtain ⟨r, held, produced⟩ := sound.own id q found (received rfl) (by omega)
    exact ⟨q, r, found, held, sound_produced answering sound id r produced⟩
  · rename_i outcome
    rw [outcome] at yes
    cases yes

theorem sound_retrieved (answering : Answering env) (sound : Sound env agree True s lo hi) (flight : InFlight env s lo hi) (id : Nat) (q : Query)
    (found : s.queries.find id = some q) :
    Prog.wp (retrieveAt env (some id)) (fun r _ => r.1 = id ∧ OwnResult env s.inserted id r.2) (fun e _ => Severed env e) s := by
  refine Prog.wp_mono (retrieve_spec (fun _ => answering) (answering_rejects answering) sound flight id q found) ?_ ?_
  · rintro r t ⟨rfl, executed, _, inserted, a, b, soundThen, _⟩
    rw [← inserted]
    exact ⟨rfl, sound_own_result soundThen r.1 r.2.outcome executed r.2 rfl⟩
  · rintro e t ⟨severed | ⟨_, faulty⟩, _, _, a, b, soundThen, _⟩
    · exact severed
    · exact absurd trivial (sound_not_plain (fun _ => answering) soundThen faulty)

theorem sound_complete (answering : Answering env) (sound : Sound env agree True s lo hi) (flight : InFlight env s lo hi) :
    Prog.wp (complete env) (fun _ t => t.sent.flatMap Batch.queries = numbered (fun _ text => text) s.inserted ∧
      ∀ id q, t.queries.find id = some q → ∃ r, q.res = some r ∧ OwnResult env s.inserted id r) (fun e _ => Severed env e) s := by
  refine Prog.wp_mono (complete_spec (fun _ => answering) (answering_rejects answering) sound flight) ?_ (fun _ _ bad => bad.1)
  rintro _ t ⟨⟨a, b, soundThen, _, frame⟩, completed⟩
  have healthy := sound_well answering soundThen
  obtain ⟨unsent, pending⟩ := completed healthy
  have sent := sound_sent soundThen
  have nothing : t.queriesFrom none = [] := by simp [PipelineState.queriesFrom]
  rw [unsent, nothing, List.append_nil, frame.inserted] at sent
  refine ⟨sent, fun id q found => ?_⟩
  have inside := (soundThen.known id q found).2
  have small := soundThen.small
  have received : id < a := by
    rw [soundThen.first, iterAt] at pending
    by_cases more : a ≤ t.qId
    · rw [if_pos more] at pending
      cases pending
    · omega
  obtain ⟨r, held, produced⟩ := soundThen.own id q found received (by omega)
  refine ⟨r, held, ?_⟩
  rw [← frame.inserted]
  exact sound_produced answering soundThen id r produced

theorem linked_matched (answering : Answering env) (linked : Linked env agree True s) : Matched env s.inserted s := by
  obtain ⟨lo, hi, sound, flight⟩ := linked_calm linked
  refine ⟨sound_sent sound, sound_executed sound, sound_finished answering sound, ?_, ?_, sound_complete answering sound flight,
    sound_well answering sound⟩
  · intro id
    simp only [retrieve, Prog.wp_bind, Prog.wp_get, Prog.wp_pure]
    cases found : s.queries.find id with
    | none =>
        simp only [Option.map_none, retrieveAt, raise, Prog.wp_throw]
        exact .inl trivial
    | some q =>
        refine Prog.wp_mono (sound_retrieved answering sound flight id q found) ?_ (fun _ _ => .inr)
        exact fun _ _ own => own.2
  · simp only [retrieveOldest, Prog.wp_bind, Prog.wp_get]
    cases begun : s.queries.begin with
    | none => exact .inl rfl
    | some id =>
        obtain ⟨q, found⟩ := begin_found s.queries id begun
        refine Prog.wp_mono (sound_retrieved answering sound flight id q found) ?_ (fun _ _ => .inr)
        rintro r t ⟨rfl, own⟩
        exact ⟨rfl, own⟩

end

-- After any run of insert, retain, resume, complete, is_finished and retrieve calls, each
-- of which may find the connection failing, on a backend that answers every query.
theorem pipeline_matches (env : Backend) (answering : Answering env) (ops : List PipelineOp)
    (ordinary : ∀ op ∈ ops, op ≠ .flush ∧ op ≠ .cancel) (few : (inserts ops).length < 2147483647) :
    Matched env (inserts ops) (run (pipelineStep env) .start ops) := by
  obtain ⟨_, linked, inserted⟩ := plain_run answering ops ordinary few
  have matched := linked_matched answering linked
  rw [inserted] at matched
  exact matched

-- A backend that answers with the query's own text and its place in the order.
def echoBackend : Backend :=
  { rejects := fun _ _ => none, answer := fun n query => some (.rows [[toString n, query]])
    consumeInput := fun _ => true, isBusy := fun t => t % 2 = 0, cancels := fun _ => true }

theorem pipeline_matches_out_of_order :
    Matched echoBackend ["SELECT 1", "SELECT 2", "SELECT 3"] (run (pipelineStep echoBackend) .start
      [.retain 2, .insert "SELECT 1", .insert "SELECT 2", .insert "SELECT 3", .retrieve 3, .resume, .retrieve 1]) :=
  pipeline_matches echoBackend ⟨fun _ _ => rfl, fun _ _ => ⟨_, rfl⟩⟩
    [.retain 2, .insert "SELECT 1", .insert "SELECT 2", .insert "SELECT 3", .retrieve 3, .resume, .retrieve 1]
    (by decide) (by decide)

end Pqxx
