import Pqxx.PipelineReceive

set_option autoImplicit false

namespace Pqxx

open Lib

section

variable {env : Backend} {agree : Agreement} {plain : Prop} {s : PipelineState} {lo hi : Nat}

theorem answers_append (executed more : List (Nat × Option Outcome)) (here : Nat) (outcomes : List Outcome)
    (answers : Answers more here outcomes) : Answers (executed ++ more) here outcomes := by
  induction outcomes generalizing here with
  | nil => trivial
  | cons outcome rest ih => exact ⟨List.mem_append_right _ answers.1, ih (here + 1) answers.2⟩

theorem faulty_append (executed more : List (Nat × Option Outcome)) (faulty : Faulty more) : Faulty (executed ++ more) := by
  obtain ⟨id, outcome, there, bad⟩ := faulty
  exact ⟨id, outcome, List.mem_append_right _ there, bad⟩

theorem answers_cons (head : Nat × Option Outcome) (executed : List (Nat × Option Outcome)) (here : Nat)
    (outcomes : List Outcome) (answers : Answers executed here outcomes) : Answers (head :: executed) here outcomes :=
  answers_append [head] executed here outcomes answers

-- What libpq gets of the statements of a batch: a result for each, up to a failure.
theorem run_queries_spec (env : Backend) (queries : OrdMap Nat Query) (n here : Nat) (qs : List (Nat × String)) (lists : Lists queries here qs) :
    (runQueries env n qs).1.length ≤ qs.length ∧ Answers (runQueries env n qs).2 here (runQueries env n qs).1 ∧
      ((runQueries env n qs).1.length < qs.length → Faulty (runQueries env n qs).2) := by
  induction qs generalizing n here with
  | nil => exact ⟨Nat.le_refl _, trivial, fun less => absurd less (Nat.lt_irrefl _)⟩
  | cons head rest ih =>
      obtain ⟨id, text⟩ := head
      obtain ⟨rfl, _, more⟩ := lists
      obtain ⟨short, answers, cut⟩ := ih (n + 1) (id + 1) more
      cases answer : env.answer n text with
      | none =>
          simp only [runQueries, answer]
          exact ⟨Nat.zero_le _, trivial, fun _ => ⟨id, none, List.mem_cons_self, fun rows => by simp⟩⟩
      | some outcome =>
          cases outcome with
          | failed message =>
              simp only [runQueries, answer]
              exact ⟨by simp, ⟨List.mem_cons_self, trivial⟩, fun _ => ⟨id, _, List.mem_cons_self, fun rows => by simp⟩⟩
          | rows rows =>
              simp only [runQueries, answer]
              refine ⟨Nat.succ_le_succ short, ⟨List.mem_cons_self, answers_cons _ _ _ _ answers⟩, fun less => ?_⟩
              simp only [List.length_cons] at less
              exact faulty_append [(id, some (.rows rows))] _ (cut (by omega))

theorem run_queries_answering (answering : Answering env) (n : Nat) (qs : List (Nat × String)) :
    (runQueries env n qs).2 = qs.mapIdx fun i e => (e.1, env.answer (n + i) e.2) := by
  induction qs generalizing n with
  | nil => rfl
  | cons head rest ih =>
      obtain ⟨id, text⟩ := head
      obtain ⟨rows, answer⟩ := answering.2 n text
      simp only [runQueries, answer, ih, List.mapIdx_cons, Nat.add_zero, List.cons.injEq, true_and]
      refine List.mapIdx_eq_mapIdx_iff.mpr fun i _ => ?_
      rw [show n + 1 + i = n + (i + 1) by omega]

theorem lists_of_get (queries : OrdMap Nat Query) (here : Nat) (qs : List (Nat × String))
    (there : ∀ i (inside : i < qs.length), (qs[i]).1 = here + i ∧ ∃ q, queries.find (here + i) = some q ∧ q.query = (qs[i]).2) :
    Lists queries here qs := by
  induction qs generalizing here with
  | nil => trivial
  | cons head rest ih =>
      obtain ⟨key, q, found, text⟩ := there 0 (by simp)
      simp only [List.getElem_cons_zero, Nat.add_zero] at key found text
      refine ⟨key, ⟨q, by rw [key]; exact found, text⟩, ih (here + 1) fun i inside => ?_⟩
      have next := there (i + 1) (by simpa using inside)
      rw [show here + 1 + i = here + (i + 1) by omega]
      simpa using next

-- The batch that issue() puts together: the inserted queries from hi on.
theorem issued_queries (sound : Sound env agree plain s lo hi) :
    s.queriesFrom s.second = (s.inserted.drop (hi - 1)).mapIdx fun i text => (i + (hi - 1) + 1, text) := by
  have positive := sound.positive
  have ordered := sound.ordered
  have same : (s.queries.entries.filter fun e => s.second.any (· ≤ e.1)) =
      s.queries.entries.filter fun e => decide (hi ≤ e.1 ∧ e.1 < s.qId + 1) := by
    refine List.filter_congr fun e there => ?_
    have inside := (sound.known e.1 e.2 ((s.queries.mem_entries_iff e.1 e.2).mp there)).2
    rw [sound.second, iter_at_any _ _ _ inside, decide_eq_decide]
    omega
  rw [PipelineState.queriesFrom, same, sound_range sound hi (s.qId + 1) ordered (Nat.le_refl _)]
  have count := sound.count
  refine List.ext_getElem ?_ fun i _ _ => ?_
  · simp only [numbered, List.length_drop, List.length_take, List.length_mapIdx]
    omega
  · simp only [numbered, List.getElem_drop, List.getElem_take, List.getElem_mapIdx]
    exact Prod.ext (by simp only; omega) rfl

theorem issued_lists (sound : Sound env agree plain s lo hi) :
    Lists s.queries hi ((s.inserted.drop (hi - 1)).mapIdx fun i text => (i + (hi - 1) + 1, text)) := by
  have positive := sound.positive
  have ordered := sound.ordered
  have count := sound.count
  refine lists_of_get _ _ _ fun i inside => ?_
  simp only [List.length_mapIdx, List.length_drop] at inside
  obtain ⟨q, found⟩ := sound.full (hi + i) (by omega) (by omega)
  have text := sound.text (hi + i) q found
  simp only [List.getElem_mapIdx, List.getElem_drop]
  refine ⟨by omega, q, found, ?_⟩
  rw [show hi + i - 1 = hi - 1 + i by omega, List.getElem?_eq_getElem (by omega)] at text
  exact (Option.some.inj text).symm

theorem issued_length (sound : Sound env agree plain s lo hi) :
    ((s.inserted.drop (hi - 1)).mapIdx fun i text => (i + (hi - 1) + 1, text)).length = s.qId + 1 - hi := by
  have positive := sound.positive
  have ordered := sound.ordered
  have count := sound.count
  simp only [List.length_mapIdx, List.length_drop]
  omega

theorem numbered_extend {α : Type} (f : Nat → String → α) (texts : List String) (k : Nat) :
    numbered f (texts.take k) ++ (texts.drop k).mapIdx (fun i text => (i + k + 1, f (k + i) text)) = numbered f texts := by
  have split : numbered f texts = numbered f (texts.take k ++ texts.drop k) := by rw [List.take_append_drop]
  rw [split, numbered, numbered, List.mapIdx_append]
  refine congrArg (List.append _) (List.mapIdx_eq_mapIdx_iff.mpr fun i bound => ?_)
  rw [List.length_drop] at bound
  have length : (texts.take k).length = k := by
    rw [List.length_take]
    omega
  rw [length, Nat.add_comm k i]

-- Sending the batch: everything below qId + 1 is issued now, in order and once.
theorem issued_record (answering : Answering env) (sound : Sound env agree plain s lo hi) (recorded : Dispatched env s hi)
    (dummy : Bool) (batch : List (Nat × String))
    (isBatch : batch = (s.inserted.drop (hi - 1)).mapIdx fun i text => (i + (hi - 1) + 1, text)) :
    (s.sent ++ [({ dummy, queries := batch } : Batch)]).flatMap Batch.queries =
        numbered (fun _ text => text) (s.inserted.take (s.qId + 1 - 1)) ∧
      s.executed ++ (runBatch env s.executed.length { dummy, queries := batch }).2 =
        numbered env.answer (s.inserted.take (s.qId + 1 - 1)) := by
  have count := sound.count
  have positive := sound.positive
  have ordered := sound.ordered
  have within := sound.within
  have whole : s.inserted.take (s.qId + 1 - 1) = s.inserted := List.take_of_length_le (by omega)
  have length : s.executed.length = hi - 1 := by
    rw [recorded.executed]
    simp only [numbered, List.length_mapIdx, List.length_take]
    omega
  have ran : (runBatch env s.executed.length { dummy, queries := batch }).2 = (runQueries env s.executed.length batch).2 := by
    simp only [runBatch]
    cases dummy with
    | false => rfl
    | true => simp only [answering.1, if_true]
  rw [whole, List.flatMap_append, recorded.sent, ran, run_queries_answering answering, length, recorded.executed, isBatch]
  refine ⟨?_, ?_⟩
  · simp only [List.flatMap_cons, List.flatMap_nil, List.append_nil]
    exact numbered_extend (fun _ text => text) s.inserted (hi - 1)
  · rw [List.mapIdx_mapIdx]
    exact numbered_extend env.answer s.inserted (hi - 1)

theorem obtain_result_idle (idle : s.unread = []) (calm : s.havePending = false) :
    obtainResult false s = (.ok false, { s with active := false }) := by
  simp only [obtainResult, Prog.bind_apply, get_result_null s idle, no_result_calm { s with active := false } false (.inl calm)]

theorem run_batch_flight (sound : Sound env agree plain s lo hi) (more : hi ≤ s.qId) (batch : List (Nat × String))
    (isBatch : batch = (s.inserted.drop (hi - 1)).mapIdx fun i text => (i + (hi - 1) + 1, text)) (t : PipelineState)
    (queries : t.queries = s.queries) (dummy : t.dummyPending = decide (batch.length > 1))
    (unread : t.unread = (runBatch env s.executed.length { dummy := decide (batch.length > 1), queries := batch }).1)
    (executed : t.executed = s.executed ++ (runBatch env s.executed.length { dummy := decide (batch.length > 1), queries := batch }).2) :
    InFlight env t hi (s.qId + 1) := by
  have length : batch.length = s.qId + 1 - hi := by rw [isBatch]; exact issued_length sound
  have lists : Lists s.queries hi batch := by rw [isBatch]; exact issued_lists sound
  obtain ⟨short, answers, cut⟩ := run_queries_spec env s.queries s.executed.length hi batch lists
  rw [length] at short cut
  refine ⟨fun _ => by omega, ?_⟩
  by_cases several : batch.length > 1
  · rw [decide_eq_true several] at dummy unread executed
    simp only [runBatch, if_true] at unread executed
    cases refused : env.rejects s.executed.length (batch.map Prod.snd) with
    | none =>
        simp only [refused] at unread executed
        refine .inl ⟨_, ?_, short, ?_, fun less => ?_⟩
        · rw [unread, dummyAnswer, dummy]
          rfl
        · rw [executed]
          exact answers_append _ _ _ _ answers
        · rw [executed]
          exact faulty_append _ _ (cut less)
    | some message =>
        simp only [refused, List.append_nil] at unread executed
        exact .inr ⟨dummy, message, batch, unread, by rw [queries]; exact lists, length, by rw [executed]; exact refused⟩
  · rw [decide_eq_false several] at dummy unread executed
    simp only [runBatch, Bool.false_eq_true, if_false] at unread executed
    refine .inl ⟨_, ?_, short, ?_, fun less => ?_⟩
    · rw [unread, dummyAnswer, dummy]
      rfl
    · rw [executed]
      exact answers_append _ _ _ _ answers
    · rw [executed]
      exact faulty_append _ _ (cut less)

-- What issue() does with nothing pending: everything waiting goes out, unless an
-- earlier query has failed.
structure Issued (s t : PipelineState) (hi lo' hi' : Nat) : Prop where
  frame : Frame s t
  error : t.error = s.error
  all : t.error = qidLimit → lo' = hi ∧ hi' = s.qId + 1
  none : t.error < qidLimit → lo' = hi ∧ hi' = hi

theorem issue_spec (answering : plain → Answering env) (sound : Sound env agree plain s hi hi) (idle : s.unread = [])
    (dummy : s.error < qidLimit → s.dummyPending = false) (more : s.error = qidLimit → hi ≤ s.qId) :
    Prog.wp (issue env) (fun _ t => ∃ lo' hi', Sound env agree plain t lo' hi' ∧ InFlight env t lo' hi' ∧ Issued s t hi lo' hi')
      (fun _ _ => False) s := by
  have limit := sound.limit
  have calm : s.havePending = false := by
    rw [sound_pending sound]
    exact decide_eq_false (Nat.lt_irrefl hi)
  simp only [issue, Prog.wp_bind]
  refine Prog.wp_ok (obtain_result_idle idle calm) ?_
  rw [Prog.wp_get]
  refine Prog.wp_ite _ _ _ _ _ _ (fun stopped => ?_) (fun healthy => ?_)
  · have stoppedNow : s.error < qidLimit := stopped
    refine ⟨hi, hi, sound_link sound s.unread false s.dummyPending s.registered s.clock, ?_, ?_⟩
    · exact in_flight_of_results (dummy stopped) (by simp [idle]) (by simp [idle, Answers]) (by simp)
    · refine ⟨⟨rfl, rfl, rfl, fun _ => rfl⟩, rfl, fun error => ?_, fun _ => ⟨rfl, rfl⟩⟩
      have : s.error = qidLimit := error
      omega
  · have healthyNow : s.error = qidLimit := by
      have : ¬ s.error < qidLimit := healthy
      omega
    have waiting := sound.waiting healthyNow
    have within := more healthyNow
    have isBatch : PipelineState.queriesFrom { s with active := false } s.second =
        (s.inserted.drop (hi - 1)).mapIdx fun i text => (i + (hi - 1) + 1, text) := by
      have waitingQueries := issued_queries sound
      exact waitingQueries
    have length := issued_length sound
    simp only [startExec, Prog.wp_bind, Prog.wp_get, Prog.wp_modify]
    refine Prog.wp_ite _ _ _ _ _ _ (fun busy => Bool.noConfusion busy) (fun _ => ?_)
    simp only [Prog.wp_modify]
    rw [← isBatch] at length
    generalize PipelineState.queriesFrom { s with active := false } s.second = batch at *
    refine ⟨hi, s.qId + 1, ?_, ?_, ?_⟩
    · exact {
        first := sound.second
        second := by
          show none = iterAt s.qId (s.qId + 1)
          rw [iterAt, if_neg (by omega)]
        positive := sound.positive
        ordered := by omega
        within := Nat.le_refl _
        small := sound.small
        known := sound.known
        full := sound.full
        text := sound.text
        count := sound.count
        own := fun id q there below usable => by
          obtain ⟨r, held, produced⟩ := sound.own id q there below usable
          exact ⟨r, held, produced_append _ produced⟩
        blank := sound.blank
        waiting := fun _ => by
          show s.numWaiting - (batch.length : Int) = (s.qId : Int) + 1 - (s.qId + 1 : Nat)
          rw [length]
          omega
        limit := limit
        stopped := fun error => by
          have : s.error < qidLimit := error
          omega
        record := fun calm => by
          obtain ⟨sent, executed⟩ := issued_record (answering calm) sound (sound.record calm) (decide (batch.length > 1)) batch
            isBatch
          exact ⟨sent, executed⟩ }
    · exact run_batch_flight sound within batch isBatch _ rfl rfl rfl rfl
    · exact ⟨⟨rfl, rfl, rfl, fun _ => rfl⟩, rfl, fun _ => ⟨rfl, rfl⟩, fun error => by
        have : s.error < qidLimit := error
        omega⟩

end

end Pqxx
