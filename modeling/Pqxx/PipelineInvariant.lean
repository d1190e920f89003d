import Mathlib.Tactic.Common
import Pqxx.Pipeline

set_option autoImplicit false

namespace Pqxx

open Lib

-- Where an iterator stands that has passed every query below x, of n inserted so far.
def iterAt (n x : Nat) : Option Nat := if x ≤ n then some x else none

-- Some query that was executed failed, or got no result.
def Faulty (executed : List (Nat × Option Outcome)) : Prop :=
  ∃ id outcome, (id, outcome) ∈ executed ∧ ∀ rows, outcome ≠ some (.rows rows)

-- qs are the queries of the pipeline from at on.
def Lists (queries : OrdMap Nat Query) : Nat → List (Nat × String) → Prop
  | _, [] => True
  | here, (id, text) :: rest => id = here ∧ (∃ q, queries.find id = some q ∧ q.query = text) ∧ Lists queries (here + 1) rest

-- The results in order are those of the queries from at on.
def Answers (executed : List (Nat × Option Outcome)) : Nat → List Outcome → Prop
  | _, [] => True
  | here, outcome :: rest => (here, some outcome) ∈ executed ∧ Answers executed (here + 1) rest

-- Every query is answered with rows, alone and in a batch.
def Answering (env : Backend) : Prop :=
  (∀ n queries, env.rejects n queries = none) ∧ ∀ n query, ∃ rows, env.answer n query = some (.rows rows)

-- How far the error a query holds may be from the one it failed with: the message it
-- holds, and what became of it on its own.
abbrev Agreement : Type := String → Option Outcome → Prop

-- The query a replay stopped at keeps the error of its batch, whatever its own was; or
-- that error is its own.
def anyError : Agreement := fun _ _ => True

def sameError : Agreement := fun message outcome => outcome = some (.failed message)

-- Replayed from the n-th statement on, one of the queries fails, in agreement with the
-- message the batch was refused with.
def ReplayStops (agree : Agreement) (env : Backend) : Nat → List String → String → Prop
  | _, [], _ => False
  | n, query :: rest, message =>
      match env.answer n query with
      | some (.rows _) => ReplayStops agree env (n + 1) rest message
      | outcome => agree message outcome

def RejectsForAQuery (agree : Agreement) (env : Backend) : Prop :=
  ∀ n queries message, env.rejects n queries = some message → ReplayStops agree env n queries message

-- r is what was produced for the query, or an error in agreement with its failure.
def Produced (agree : Agreement) (executed : List (Nat × Option Outcome)) (id : Nat) (r : Result) : Prop :=
  (id, some r.outcome) ∈ executed ∨
    ∃ message outcome, r.outcome = .failed message ∧ (id, outcome) ∈ executed ∧ (∀ rows, outcome ≠ some (.rows rows)) ∧
      agree message outcome

def numbered {α : Type} (f : Nat → String → α) (texts : List String) : List (Nat × α) :=
  texts.mapIdx fun i text => (i + 1, f i text)

-- Everything below hi was sent once and in order, and executed once and in order.
structure Dispatched (env : Backend) (s : PipelineState) (hi : Nat) : Prop where
  sent : s.sent.flatMap Batch.queries = numbered (fun _ text => text) (s.inserted.take (hi - 1))
  executed : s.executed = numbered env.answer (s.inserted.take (hi - 1))

-- The pipeline's members agree: queries below lo have been received, those below hi
-- issued. plain stands for a run of queries that all succeed, without flush or cancel.
structure Sound (env : Backend) (agree : Agreement) (plain : Prop) (s : PipelineState) (lo hi : Nat) : Prop where
  first : s.first = iterAt s.qId lo
  second : s.second = iterAt s.qId hi
  positive : 1 ≤ lo
  ordered : lo ≤ hi
  within : hi ≤ s.qId + 1
  small : s.qId + 1 < qidLimit
  known : ∀ id q, s.queries.find id = some q → 1 ≤ id ∧ id ≤ s.qId
  full : ∀ id, lo ≤ id → id ≤ s.qId → ∃ q, s.queries.find id = some q
  text : ∀ id q, s.queries.find id = some q → s.inserted[id - 1]? = some q.query
  count : s.inserted.length = s.qId
  own : ∀ id q, s.queries.find id = some q → id < lo → id < s.error →
    ∃ r, q.res = some r ∧ Produced agree s.executed id r
  blank : ∀ id q, s.queries.find id = some q → lo ≤ id → q.isEmpty = true
  waiting : s.error = qidLimit → s.numWaiting = (s.qId : Int) + 1 - hi
  limit : s.error ≤ qidLimit
  stopped : s.error < qidLimit → lo = hi ∧ s.error ≤ lo ∧ Faulty s.executed
  record : plain → Dispatched env s hi

def dummyAnswer (s : PipelineState) : List Outcome := if s.dummyPending then [.rows [[theDummyValue]]] else []

-- What libpq still holds: the rest of the batch's results, or its refusal.
structure InFlight (env : Backend) (s : PipelineState) (lo hi : Nat) : Prop where
  dummy : s.dummyPending = true → lo < hi
  results : (∃ outcomes, s.unread = dummyAnswer s ++ outcomes ∧ outcomes.length ≤ hi - lo ∧ Answers s.executed lo outcomes ∧
      (outcomes.length < hi - lo → Faulty s.executed)) ∨
    (s.dummyPending = true ∧ ∃ message queries, s.unread = [.failed message] ∧ Lists s.queries lo queries ∧ queries.length = hi - lo ∧
      env.rejects s.executed.length (queries.map Prod.snd) = some message)

-- What a receiving function leaves alone.
structure Frame (s t : PipelineState) : Prop where
  qId : t.qId = s.qId
  retain : t.retain = s.retain
  inserted : t.inserted = s.inserted
  keys : ∀ id, (t.queries.find id).isSome = (s.queries.find id).isSome

theorem frame_refl (s : PipelineState) : Frame s s := ⟨rfl, rfl, rfl, fun _ => rfl⟩

theorem frame_trans {s t u : PipelineState} (left : Frame s t) (right : Frame t u) : Frame s u :=
  ⟨right.qId.trans left.qId, right.retain.trans left.retain, right.inserted.trans left.inserted,
    fun id => (right.keys id).trans (left.keys id)⟩

theorem iter_at_some {n x y : Nat} (at_ : iterAt n x = some y) : x = y ∧ x ≤ n := by
  unfold iterAt at at_
  split at at_
  · exact ⟨Option.some.inj at_, by assumption⟩
  · cases at_

theorem iter_at_inj {n x y : Nat} (left : x ≤ n + 1) (right : y ≤ n + 1) (same : iterAt n x = iterAt n y) : x = y := by
  unfold iterAt at same
  split at same <;> split at same
  · exact Option.some.inj same
  · cases same
  · cases same
  · omega

section

variable {env : Backend} {agree : Agreement} {plain : Prop} {s : PipelineState} {lo hi : Nat}

theorem sound_pending (sound : Sound env agree plain s lo hi) : s.havePending = decide (lo < hi) := by
  have within := sound.within
  have ordered := sound.ordered
  simp only [PipelineState.havePending, sound.first, sound.second, decide_eq_decide]
  constructor
  · intro different
    have : lo ≠ hi := fun same => different (by rw [same])
    omega
  · intro less same
    have := iter_at_inj (by omega) (by omega) same
    omega

-- While queries from lo on are in the map, incrementing an iterator at lo is arithmetic.
theorem sound_next (sound : Sound env agree plain s lo hi) (id : Nat) (from_ : lo ≤ id) (inside : id ≤ s.qId) :
    s.queries.next id = iterAt s.qId (id + 1) := by
  unfold iterAt
  by_cases more : id + 1 ≤ s.qId
  · rw [if_pos more]
    obtain ⟨q, found⟩ := sound.full (id + 1) (by omega) more
    exact s.queries.next_eq_some id (id + 1) q found (by omega) fun _ _ _ less => less
  · rw [if_neg more]
    refine s.queries.next_eq_none id fun i w there => ?_
    have := (sound.known i w there).2
    omega

theorem deref_found (s : PipelineState) (it : Option Nat) (id : Nat) (q : Query) (points : it = some id)
    (found : s.queries.find id = some q) : deref it s = (.ok (id, q), s) := by
  subst points
  simp only [deref, Prog.bind_apply, Prog.gets_apply, Option.bind_some, found, Option.map_some, Prog.pure_apply]

theorem increment_found (s : PipelineState) (it : Option Nat) (id : Nat) (q : Query) (points : it = some id)
    (found : s.queries.find id = some q) : increment it s = (.ok (s.queries.next id), s) := by
  simp only [increment, Prog.bind_apply, deref_found s it id q points found, Prog.gets_apply]

theorem get_result_null (s : PipelineState) (unread : s.unread = []) : getResult s = (.ok none, { s with active := false }) := by
  unfold getResult
  split
  · rfl
  · simp_all

theorem get_result_next (s : PipelineState) (outcome : Outcome) (rest : List Outcome) (unread : s.unread = outcome :: rest) :
    getResult s = (.ok (some outcome), { s with unread := rest }) := by
  unfold getResult
  split <;> simp_all

theorem no_result_calm (s : PipelineState) (expectNone : Bool) (calm : s.havePending = false ∨ expectNone = true) :
    noResult expectNone s = (.ok false, s) := by
  have quiet : ¬ (s.havePending = true ∧ expectNone = false) := by
    rcases calm with calm | calm <;> simp [calm]
  simp only [noResult, Prog.bind_apply, Prog.get_apply, if_neg quiet, Prog.pure_apply]

theorem set_error_at_first (s : PipelineState) (qid : Nat) : (s.setErrorAt qid).first = s.first := by
  unfold PipelineState.setErrorAt
  split <;> rfl

theorem no_result_cut (s : PipelineState) (here : Nat) (q : Query) (pending : s.havePending = true)
    (first : s.first = some here) (found : s.queries.find here = some q) :
    noResult false s = (.ok false, { s.setErrorAt here with second := s.first }) := by
  simp only [noResult, Prog.bind_apply, Prog.get_apply, pending, and_self, if_true,
    deref_found s s.first here q first found, setErrorAt, Prog.modify_apply, Prog.pure_apply, set_error_at_first]

theorem got_result_stored (s : PipelineState) (outcome : Outcome) (here : Nat) (q : Query) (pending : s.havePending = true)
    (first : s.first = some here) (found : s.queries.find here = some q) (blank : q.isEmpty = true) :
    ∃ text, gotResult outcome s = (.ok true, { s with
      first := s.queries.next here
      queries := s.queries.mapValues fun k q => if k = here then { q with res := some { outcome, query := text } } else q }) := by
  obtain ⟨j, w, begun, there⟩ := s.queries.begin_eq_some here q found
  refine ⟨w.query, ?_⟩
  have notCalm : ¬ s.havePending = false := by simp [pending]
  have notFull : ¬ q.isEmpty = false := by simp [blank]
  simp only [gotResult, Prog.bind_apply, Prog.get_apply, deref_found s _ j w begun there, if_neg notCalm,
    deref_found s _ here q first found, if_neg notFull, setResult, Prog.modify_apply]
  have stored : (s.queries.mapValues fun k q => if k = here then { q with res := some { outcome, query := w.query } } else q).find
      here = some { q with res := some { outcome, query := w.query } } := by
    simp only [OrdMap.find_map_values, found, Option.map_some, if_true]
  rw [increment_found _ s.first here _ first stored, OrdMap.next_map_values]
  rfl

theorem sound_healthy (sound : Sound env agree plain s lo hi) (pending : lo < hi) : s.error = qidLimit := by
  have limit := sound.limit
  apply Decidable.byContradiction
  intro unhealthy
  have := (sound.stopped (by omega)).1
  omega

-- plain excludes a failed query, so whatever holds of a fault holds under plain.
theorem sound_not_plain (answering : plain → Answering env) (sound : Sound env agree plain s lo hi) (faulty : Faulty s.executed) :
    ¬ plain := by
  intro calm
  obtain ⟨id, outcome, executed, bad⟩ := faulty
  rw [(sound.record calm).executed, numbered, List.mem_mapIdx] at executed
  obtain ⟨i, inside, entry⟩ := executed
  obtain ⟨rows, answer⟩ := (answering calm).2 i ((s.inserted.take (hi - 1))[i])
  rw [Prod.mk.injEq] at entry
  exact bad rows (entry.2.symm.trans answer)

-- One more result goes to the oldest query that has none.
theorem sound_received (sound : Sound env agree plain s lo hi) (pending : lo < hi) (outcome : Outcome) (text : String)
    (unread : List Outcome) (produced : (lo, some outcome) ∈ s.executed) :
    Sound env agree plain { s with
      unread := unread, first := s.queries.next lo
      queries := s.queries.mapValues fun k q => if k = lo then { q with res := some { outcome, query := text } } else q }
      (lo + 1) hi := by
  have within := sound.within
  have healthy := sound_healthy sound pending
  have found : ∀ id q, (s.queries.mapValues fun k q => if k = lo then { q with res := some { outcome, query := text } } else q).find
      id = some q → ∃ old, s.queries.find id = some old ∧ q.query = old.query ∧
        q.res = if id = lo then some { outcome, query := text } else old.res := by
    intro id q there
    rw [OrdMap.find_map_values, Option.map_eq_some_iff] at there
    obtain ⟨old, there, rfl⟩ := there
    refine ⟨old, there, ?_, ?_⟩ <;> split <;> rfl
  exact {
    first := sound_next sound lo (Nat.le_refl lo) (by omega)
    second := sound.second
    positive := by omega
    ordered := pending
    within := within
    small := sound.small
    known := fun id q there => by
      obtain ⟨old, there, _, _⟩ := found id q there
      exact sound.known id old there
    full := fun id from_ inside => by
      obtain ⟨q, there⟩ := sound.full id (by omega) inside
      exact ⟨_, by rw [OrdMap.find_map_values, there]; rfl⟩
    text := fun id q there => by
      obtain ⟨old, there, same, _⟩ := found id q there
      rw [same]
      exact sound.text id old there
    count := sound.count
    own := fun id q there below usable => by
      obtain ⟨old, there, _, res⟩ := found id q there
      by_cases here : id = lo
      · subst here
        rw [if_pos rfl] at res
        exact ⟨_, res, .inl produced⟩
      · rw [if_neg here] at res
        rw [res]
        exact sound.own id old there (by omega) usable
    blank := fun id q there above => by
      obtain ⟨old, there, _, res⟩ := found id q there
      have other : id ≠ lo := by omega
      rw [if_neg other] at res
      have blank := sound.blank id old there (by omega)
      simpa only [Query.isEmpty, res] using blank
    waiting := sound.waiting
    limit := sound.limit
    stopped := fun unhealthy => by
      have : s.error < qidLimit := unhealthy
      omega
    record := fun calm => ⟨(sound.record calm).sent, (sound.record calm).executed⟩ }

-- No more results although queries are pending: nothing past here will be issued.
theorem sound_cut (answering : plain → Answering env) (sound : Sound env agree plain s lo hi) (pending : lo < hi)
    (faulty : Faulty s.executed) :
    Sound env agree plain { s.setErrorAt lo with second := s.first } lo lo := by
  have within := sound.within
  have small := sound.small
  have healthy := sound_healthy sound pending
  have marked : s.setErrorAt lo = { s with error := lo } := by
    rw [PipelineState.setErrorAt, if_pos (by omega)]
  rw [marked]
  exact {
    first := sound.first
    second := sound.first
    positive := sound.positive
    ordered := Nat.le_refl lo
    within := by
      show lo ≤ s.qId + 1
      omega
    small := small
    known := sound.known
    full := sound.full
    text := sound.text
    count := sound.count
    own := fun id q there below _ => sound.own id q there below (by
      have := (sound.known id q there).2
      omega)
    blank := sound.blank
    waiting := fun error => by
      have : lo = qidLimit := error
      omega
    limit := by
      show lo ≤ qidLimit
      omega
    stopped := fun _ => ⟨rfl, Nat.le_refl lo, faulty⟩
    record := fun calm => absurd calm (sound_not_plain answering sound faulty) }

-- libpq's side is no part of the members' agreement.
theorem sound_link (sound : Sound env agree plain s lo hi) (unread : List Outcome) (active dummyPending registered : Bool) (clock : Nat) :
    Sound env agree plain { s with unread, active, dummyPending, registered, clock } lo hi :=
  ⟨sound.first, sound.second, sound.positive, sound.ordered, sound.within, sound.small, sound.known, sound.full, sound.text,
    sound.count, sound.own, sound.blank, sound.waiting, sound.limit, sound.stopped,
    fun calm => ⟨(sound.record calm).sent, (sound.record calm).executed⟩⟩

-- What obtain_result() says about its own work.
structure Obtained (s t : PipelineState) (lo hi lo' hi' : Nat) (got : Bool) : Prop where
  frame : Frame s t
  dummy : t.dummyPending = false
  more : got = true → lo < hi ∧ lo' = lo + 1 ∧ hi' = hi ∧ t.unread.length + 1 = s.unread.length ∧ t.error = s.error
  done : got = false → lo' = lo ∧ hi' = lo ∧ t.unread = [] ∧ (lo < hi → t.error < qidLimit) ∧ (lo = hi → t.error = s.error)

theorem in_flight_results (flight : InFlight env s lo hi) (noDummy : s.dummyPending = false) :
    s.unread.length ≤ hi - lo ∧ Answers s.executed lo s.unread ∧ (s.unread.length < hi - lo → Faulty s.executed) := by
  rcases flight.results with ⟨outcomes, unread, short, answers, cut⟩ | ⟨dummy, _⟩
  · rw [dummyAnswer, noDummy] at unread
    simp only [Bool.false_eq_true, if_false, List.nil_append] at unread
    rw [unread]
    exact ⟨short, answers, cut⟩
  · rw [noDummy] at dummy
    cases dummy

theorem in_flight_of_results (noDummy : s.dummyPending = false) (short : s.unread.length ≤ hi - lo)
    (answers : Answers s.executed lo s.unread) (cut : s.unread.length < hi - lo → Faulty s.executed) : InFlight env s lo hi := by
  refine ⟨fun dummy => ?_, .inl ⟨s.unread, ?_, short, answers, cut⟩⟩
  · rw [noDummy] at dummy
    cases dummy
  · rw [dummyAnswer, noDummy]
    simp only [Bool.false_eq_true, if_false, List.nil_append]

theorem obtain_result_spec (answering : plain → Answering env) (sound : Sound env agree plain s lo hi) (flight : InFlight env s lo hi)
    (noDummy : s.dummyPending = false) :
    Prog.wp (obtainResult false) (fun got t => ∃ lo' hi', Sound env agree plain t lo' hi' ∧ InFlight env t lo' hi' ∧
      Obtained s t lo hi lo' hi' got) (fun _ _ => False) s := by
  obtain ⟨short, answers, cut⟩ := in_flight_results flight noDummy
  have pending := sound_pending sound
  have within := sound.within
  have frame : ∀ t : PipelineState, t.qId = s.qId → t.retain = s.retain → t.inserted = s.inserted → t.queries = s.queries →
      Frame s t := fun t a b c d => ⟨a, b, c, fun id => by rw [d]⟩
  unfold Prog.wp
  cases unread : s.unread with
  | nil =>
      rw [unread] at short answers cut
      simp only [obtainResult, Prog.bind_apply, get_result_null s unread]
      by_cases waitingFor : lo < hi
      · have faulty := cut (by simp only [List.length_nil]; omega)
        have healthy := sound_healthy sound waitingFor
        obtain ⟨q, found⟩ := sound.full lo (Nat.le_refl lo) (by omega)
        have first : s.first = some lo := by rw [sound.first, iterAt, if_pos (by omega)]
        have linked := sound_link sound s.unread false s.dummyPending s.registered s.clock
        have pendingNow : PipelineState.havePending { s with active := false } = true :=
          pending.trans (decide_eq_true waitingFor)
        rw [no_result_cut { s with active := false } lo q pendingNow first found]
        have next := sound_cut answering linked waitingFor faulty
        have marked : ({ s with active := false } : PipelineState).setErrorAt lo = { s with active := false, error := lo } := by
          have small := sound.small
          have less : lo < ({ s with active := false } : PipelineState).error := by
            show lo < s.error
            omega
          rw [PipelineState.setErrorAt, if_pos less]
        rw [marked] at next ⊢
        refine ⟨lo, lo, next, in_flight_of_results noDummy (by simp [unread]) (by simp [unread, Answers]) (by simp [unread]), ?_⟩
        refine ⟨frame _ rfl rfl rfl rfl, noDummy, fun got => Bool.noConfusion got, fun _ => ⟨rfl, rfl, unread, fun _ => ?_, fun same => ?_⟩⟩
        · show lo < qidLimit
          have small := sound.small
          omega
        · omega
      · have same : lo = hi := by
          have := sound.ordered
          omega
        have calmNow : PipelineState.havePending { s with active := false } = false :=
          pending.trans (decide_eq_false waitingFor)
        rw [no_result_calm _ false (.inl calmNow)]
        refine ⟨lo, hi, sound_link sound s.unread false s.dummyPending s.registered s.clock,
          in_flight_of_results noDummy (by simp [unread]) (by simp [unread, Answers]) (by simp [unread, same]), ?_⟩
        exact ⟨frame _ rfl rfl rfl rfl, noDummy, fun got => Bool.noConfusion got,
          fun _ => ⟨rfl, same.symm, unread, fun less => absurd less waitingFor, fun _ => rfl⟩⟩
  | cons outcome rest =>
      rw [unread] at short answers cut
      have waitingFor : lo < hi := by
        simp only [List.length_cons] at short
        omega
      obtain ⟨q, found⟩ := sound.full lo (Nat.le_refl lo) (by omega)
      have first : s.first = some lo := by rw [sound.first, iterAt, if_pos (by omega)]
      have pendingNow : PipelineState.havePending { s with unread := rest } = true :=
        pending.trans (decide_eq_true waitingFor)
      obtain ⟨text, stored⟩ := got_result_stored { s with unread := rest } outcome lo q pendingNow first found
        (sound.blank lo q found (Nat.le_refl lo))
      simp only [obtainResult, Prog.bind_apply, get_result_next s outcome rest unread, stored]
      refine ⟨lo + 1, hi, sound_received sound waitingFor outcome text rest answers.1, ?_, ?_⟩
      · simp only [List.length_cons] at short cut
        exact in_flight_of_results noDummy (by show rest.length ≤ hi - (lo + 1); omega) answers.2
          (fun less => cut (by have : rest.length < hi - (lo + 1) := less; omega))
      · refine ⟨⟨rfl, rfl, rfl, fun id => ?_⟩, noDummy, fun _ => ⟨waitingFor, rfl, rfl, ?_, rfl⟩,
          fun got => Bool.noConfusion got⟩
        · simp only [OrdMap.find_map_values, Option.isSome_map]
        · simp only [unread, List.length_cons]

end

end Pqxx
