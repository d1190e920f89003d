import Pqxx.PipelineSending

set_option autoImplicit false

namespace Pqxx

open Lib Prog

-- A new pipeline with the same retention on the same connection, when libpq has nothing
-- for it: one that is detached, and numbers its queries from where the old one stopped.
def PipelineState.renew (s : PipelineState) : PipelineState :=
  { PipelineState.start with
    retain := s.retain, qId := s.qId, registered := false, active := s.active, clock := s.clock, inserted := s.inserted
    sent := s.sent, executed := s.executed }

-- What flush() is to make of the pipeline.
def AsNew (env : Backend) (s t : PipelineState) : Prop :=
  t = t.renew ∧ t.retain = s.retain ∧ t.qId = s.qId ∧ Issues env t ∧ Owns env t

-- No query has failed, and libpq holds a result for each query that is pending.
def Intact (s : PipelineState) : Prop :=
  s.error = qidLimit ∧ s.unread.length = s.distance s.first s.second + (if s.dummyPending then 1 else 0)

-- There is nothing left of a batch whose queries were cancelled.
def FlushSafe (s : PipelineState) : Prop := Intact s ∧ (s.dummyPending = true → s.havePending = true)

instance (s : PipelineState) : Decidable (FlushSafe s) :=
  inferInstanceAs (Decidable ((s.error = qidLimit ∧ s.unread.length = s.distance s.first s.second + (if s.dummyPending then 1 else 0)) ∧
    (s.dummyPending = true → s.havePending = true)))

section

variable {env : Backend} {agree : Agreement} {plain : Prop} {s : PipelineState} {lo hi : Nat}

theorem intact_iff (sound : Sound env agree plain s lo hi) :
    Intact s ↔ s.error = qidLimit ∧ s.unread.length = hi - lo + (if s.dummyPending then 1 else 0) := by
  rw [Intact, sound.first, sound.second, distance_range sound]

theorem obtain_result_got (expectNone : Bool) :
    wp (obtainResult expectNone) (fun got _ => got = true ↔ s.unread ≠ []) (fun _ _ => True) s := by
  simp only [obtainResult]
  rw [wp_bind]
  cases unread : s.unread with
  | nil =>
      refine wp_ok (get_result_null s unread) ?_
      dsimp only [noResult]
      rw [wp_bind, wp_get]
      refine wp_ite _ _ _ _ _ _ (fun _ => ?_) (fun _ => by simp)
      exact wp_last fun _ _ => wp_last fun _ _ => wp_last fun _ _ => by simp
  | cons outcome rest =>
      refine wp_ok (get_result_next s outcome rest unread) ?_
      dsimp only [gotResult]
      rw [wp_bind, wp_get]
      refine wp_last fun _ _ => wp_ite _ _ _ _ _ _ (fun _ => wp_last fun _ _ => trivial) (fun _ => ?_)
      refine wp_last fun _ _ => wp_ite _ _ _ _ _ _ (fun _ => wp_last fun _ _ => trivial) (fun _ => ?_)
      exact wp_last fun _ _ => wp_last fun _ _ => wp_last fun _ _ => by simp

theorem obtain_result_intact (answering : plain → Answering env) (sound : Sound env agree plain s lo hi)
    (flight : InFlight env s lo hi) (noDummy : s.dummyPending = false) :
    wp (obtainResult false) (fun got t => ∃ lo' hi', Sound env agree plain t lo' hi' ∧ InFlight env t lo' hi' ∧
      Obtained s t lo hi lo' hi' got ∧ (Intact t ↔ Intact s)) (fun _ _ => False) s := by
  refine wp_mono (wp_and (obtain_result_spec answering sound flight noDummy) (obtain_result_got false)) ?_ (fun _ _ bad => bad.1.elim)
  rintro got t ⟨⟨lo', hi', soundThen, flightThen, obtained⟩, wasThere⟩
  refine ⟨lo', hi', soundThen, flightThen, obtained, ?_⟩
  have ordered := sound.ordered
  rw [intact_iff sound, intact_iff soundThen, obtained.dummy, noDummy]
  simp only [Bool.false_eq_true, if_false, Nat.add_zero]
  cases got with
  | true =>
      obtain ⟨pending, rfl, rfl, shorter, error⟩ := obtained.more rfl
      omega
  | false =>
      obtain ⟨first, second, idle, cut, same⟩ := obtained.done rfl
      have nothing : s.unread = [] := by
        apply Decidable.byContradiction
        intro some_
        cases wasThere.mpr some_
      rw [idle, nothing, List.length_nil, first, second]
      by_cases pending : lo < hi
      · have := cut pending
        omega
      · have := same (by omega)
        omega

theorem obtain_dummy_intact (answering : plain → Answering env) (rejecting : RejectsForAQuery agree env)
    (sound : Sound env agree plain s lo hi) (flight : InFlight env s lo hi) (dummy : s.dummyPending = true) :
    wp (obtainDummy env) (fun _ t => Intact t ↔ Intact s) (fun _ _ => False) s := by
  have pending := flight.dummy dummy
  have before := intact_iff sound
  rw [dummy] at before
  simp only [obtainDummy, wp_bind]
  rcases flight.results with ⟨outcomes, unread, _⟩ | ⟨_, message, qs, unread, lists, whole, rejected⟩
  · rw [dummyAnswer, if_pos dummy] at unread
    refine wp_ok (get_result_next s _ _ unread) ?_
    simp only [wp_modify, List.length_singleton, Nat.lt_irrefl, if_false, theDummyValue, ne_eq, not_true, wp_pure]
    have after := intact_iff (sound_link sound outcomes s.active false s.registered s.clock)
    refine after.trans ?_
    rw [before, unread]
    simp only [List.singleton_append, List.length_cons, Bool.false_eq_true, if_false, if_true]
    omega
  · refine wp_ok (get_result_next s _ _ unread) ?_
    have notPlain : ¬ plain := by
      intro calm
      rw [(answering calm).1] at rejected
      cases rejected
    have linked := sound_link sound [] s.active false s.registered s.clock
    rw [wp_modify]
    refine wp_mono (replay_batch_spec notPlain linked pending rfl rfl message qs lists whole (rejecting _ _ _ rejected)) ?_ (fun _ _ => id)
    rintro _ t ⟨_, _, _, _, _, failed, _⟩
    rw [before, unread, Intact, if_pos rfl, List.length_singleton]
    omega

theorem get_further_intact (answering : plain → Answering env) (turns : Nat) (sound : Sound env agree plain s lo hi)
    (flight : InFlight env s lo hi) (noDummy : s.dummyPending = false) :
    wp (getFurther env turns) (fun _ t => Intact t ↔ Intact s) (fun _ _ => True) s := by
  induction turns generalizing s lo hi with
  | zero => exact Iff.rfl
  | succ turns ih =>
      simp only [getFurther, isBusy, wp_bind, wp_gets, wp_modify, wp_pure]
      refine wp_ite _ _ _ _ _ _ (fun _ => Iff.rfl) (fun _ => ?_)
      rw [wp_bind]
      refine wp_mono (obtain_result_intact answering (sound_clock sound (s.clock + 1)) (in_flight_clock flight (s.clock + 1)) noDummy) ?_
        (fun _ _ => False.elim)
      rintro got t ⟨lo', hi', soundThen, flightThen, obtained, intact⟩
      refine wp_ite _ _ _ _ _ _ (fun _ => ?_) (fun _ => intact)
      simp only [consumeInput, wp_bind, wp_gets, wp_modify, wp_pure]
      refine wp_ite _ _ _ _ _ _ (fun _ => ?_) (fun _ => trivial)
      refine wp_mono (ih (sound_clock soundThen (t.clock + 1)) (in_flight_clock flightThen (t.clock + 1)) obtained.dummy) ?_
        (fun _ _ => id)
      exact fun _ _ more => more.trans intact

theorem receive_until_intact (answering : plain → Answering env) (stop : Option Nat) (turns : Nat) (sound : Sound env agree plain s lo hi)
    (flight : InFlight env s lo hi) (noDummy : s.dummyPending = false) :
    wp (receiveUntil stop turns) (fun _ t => ∃ lo' hi', Sound env agree plain t lo' hi' ∧ InFlight env t lo' hi' ∧
      t.dummyPending = false ∧ (Intact t ↔ Intact s)) (fun _ _ => False) s := by
  induction turns generalizing s lo hi with
  | zero => exact ⟨lo, hi, sound, flight, noDummy, Iff.rfl⟩
  | succ turns ih =>
      simp only [receiveUntil, wp_bind]
      refine wp_mono (obtain_result_intact answering sound flight noDummy) ?_ (fun _ _ => False.elim)
      rintro got t ⟨lo', hi', soundThen, flightThen, obtained, intact⟩
      rw [wp_gets]
      refine wp_ite _ _ _ _ _ _ (fun _ => ?_) (fun _ => ⟨lo', hi', soundThen, flightThen, obtained.dummy, intact⟩)
      refine wp_mono (ih soundThen flightThen obtained.dummy) ?_ (fun _ _ => id)
      rintro _ u ⟨a, b, soundEnd, flightEnd, still, more⟩
      exact ⟨a, b, soundEnd, flightEnd, still, more.trans intact⟩

theorem receive_intact (answering : plain → Answering env) (rejecting : RejectsForAQuery agree env)
    (sound : Sound env agree plain s lo hi) (flight : InFlight env s lo hi) (stop : Option Nat) :
    wp (receive env stop) (fun _ t => Intact t ↔ Intact s) (fun _ _ => True) s := by
  have dummyRead : wp (Prog.when s.dummyPending (obtainDummy env)) (fun _ t => ∃ lo' hi', Sound env agree plain t lo' hi' ∧
      InFlight env t lo' hi' ∧ t.dummyPending = false ∧ (Intact t ↔ Intact s)) (fun _ _ => False) s := by
    refine wp_when _ _ _ _ _ (fun dummy => ?_) (fun noDummy => ⟨lo, hi, sound, flight, Bool.eq_false_iff.mpr noDummy, Iff.rfl⟩)
    refine wp_mono (wp_and (obtain_dummy_spec answering rejecting sound flight dummy)
      (obtain_dummy_intact answering rejecting sound flight dummy)) ?_ (fun _ _ bad => bad.1)
    rintro _ t ⟨⟨lo', hi', soundThen, flightThen, received, _⟩, intact⟩
    exact ⟨lo', hi', soundThen, flightThen, received.dummy, intact⟩
  simp only [receive, wp_bind, wp_get, wp_gets]
  refine wp_mono dummyRead ?_ (fun _ _ => False.elim)
  rintro _ t ⟨lo', hi', soundThen, flightThen, noDummy, intact⟩
  refine wp_mono (receive_until_intact answering stop (t.unread.length + 1) soundThen flightThen noDummy) ?_ (fun _ _ => False.elim)
  rintro _ u ⟨a, b, soundEnd, flightEnd, still, more⟩
  refine wp_ite _ _ _ _ _ _ (fun _ => ?_) (fun _ => more.trans intact)
  simp only [getFurtherAvailableResults, wp_bind, wp_gets]
  exact wp_mono (get_further_intact answering _ soundEnd flightEnd still) (fun _ _ last => last.trans (more.trans intact)) (fun _ _ => id)

-- With nothing pending, only what libpq still holds can be in the way.
theorem flush_safe_idle (sound : Sound env agree plain s hi hi) (dummy : s.dummyPending = true → s.unread ≠ []) :
    FlushSafe s ↔ s.error = qidLimit ∧ s.unread = [] := by
  have calm : s.havePending = false := by
    rw [sound_pending sound]
    exact decide_eq_false (Nat.lt_irrefl hi)
  rw [FlushSafe, intact_iff sound, calm, Nat.sub_self, Nat.zero_add]
  constructor
  · rintro ⟨⟨healthy, length⟩, fresh⟩
    have noDummy : ¬ s.dummyPending = true := fun there => Bool.noConfusion (fresh there)
    rw [if_neg noDummy] at length
    exact ⟨healthy, List.eq_nil_of_length_eq_zero length⟩
  · rintro ⟨healthy, idle⟩
    have noDummy : ¬ s.dummyPending = true := fun there => dummy there idle
    rw [if_neg noDummy, idle]
    exact ⟨⟨healthy, rfl⟩, fun there => absurd there noDummy⟩

theorem flush_safe_received {t : PipelineState} {a : Nat} (sound : Sound env agree plain s lo hi) (flight : InFlight env s lo hi)
    (soundThen : Sound env agree plain t a a) (flightThen : InFlight env t a a) (intact : Intact t ↔ Intact s) :
    FlushSafe s ↔ t.error = qidLimit ∧ t.unread = [] := by
  obtain ⟨idle, noDummy⟩ := in_flight_idle flightThen rfl
  have fresh : s.dummyPending = true → s.havePending = true := by
    intro dummy
    rw [sound_pending sound]
    exact decide_eq_true (flight.dummy dummy)
  have through : Intact t ↔ t.error = qidLimit ∧ t.unread = [] := by
    rw [intact_iff soundThen, noDummy, idle]
    simp
  rw [FlushSafe, ← intact, through]
  exact ⟨fun safe => safe.1, fun whole => ⟨whole, fresh⟩⟩

theorem renewed_iff {t : PipelineState} (queries : t.queries = OrdMap.empty) (first : t.first = none) (second : t.second = none)
    (waiting : t.error = qidLimit → t.numWaiting = 0) (detached : t.registered = false)
    (dummy : t.unread = [] → t.dummyPending = false) : t = t.renew ↔ t.error = qidLimit ∧ t.unread = [] := by
  constructor
  · intro same
    have error := congrArg PipelineState.error same
    have unread := congrArg PipelineState.unread same
    exact ⟨error, unread⟩
  · rintro ⟨healthy, idle⟩
    have noDummy := dummy idle
    have nothing := waiting healthy
    cases t
    simp only at queries first second nothing detached noDummy healthy idle
    subst queries first second nothing detached noDummy healthy idle
    rfl

theorem empty_ended (sound : Sound env agree plain s lo hi) (queries : s.queries = OrdMap.empty) : lo = s.qId + 1 ∧ hi = s.qId + 1 := by
  have within := sound.within
  have ordered := sound.ordered
  by_cases more : lo ≤ s.qId
  · obtain ⟨q, there⟩ := sound.full lo (Nat.le_refl lo) more
    rw [queries, OrdMap.find_empty] at there
    cases there
  · omega

theorem linked_idle (linked : Linked env agree plain s) (queries : s.queries = OrdMap.empty) :
    Sound env agree plain s (s.qId + 1) (s.qId + 1) ∧ (s.dummyPending = true → s.unread ≠ []) := by
  obtain ⟨lo, hi, sound, state⟩ := linked
  obtain ⟨rfl, rfl⟩ := empty_ended sound queries
  refine ⟨sound, ?_⟩
  rcases state with flight | stale
  · intro dummy
    have := flight.dummy dummy
    omega
  · exact stale.dummy

-- An empty pipeline is as new where no error is on record and libpq has nothing for it.
theorem emptied_as_new {t : PipelineState} (rejecting : RejectsForAQuery agree env) (linked : Linked env agree False t)
    (room : t.qId + 2 < qidLimit) (queries : t.queries = OrdMap.empty) (detached : t.registered = false) (retain : t.retain = s.retain)
    (number : t.qId = s.qId) : AsNew env s t ↔ t.error = qidLimit ∧ t.unread = [] := by
  obtain ⟨sound, dummy⟩ := linked_idle linked queries
  have ended : iterAt t.qId (t.qId + 1) = none := by rw [iterAt, if_neg (by omega)]
  have renewed := renewed_iff queries (sound.first.trans ended) (sound.second.trans ended)
    (fun healthy => by have := sound.waiting healthy; omega) detached
    (fun idle => Bool.eq_false_iff.mpr fun there => dummy there idle)
  constructor
  · exact fun new => renewed.mp new.1
  · rintro ⟨healthy, idle⟩
    exact ⟨renewed.mpr ⟨healthy, idle⟩, retain, number, sound_issues sound idle healthy room, linked_owns rejecting linked⟩

-- What receive() leaves for flush() to forget.
theorem flush_receives (rejecting : RejectsForAQuery agree env) (linked : Linked env agree False s) :
    wp (Prog.when s.havePending (receive env s.second)) (fun _ t => t.retain = s.retain ∧ t.qId = s.qId ∧
      (t.error = qidLimit ∧ t.unread = [] ↔ FlushSafe s)) (fun _ _ => True) s := by
  have answering : False → Answering env := fun impossible => impossible.elim
  obtain ⟨lo, hi, sound, flight | stale⟩ := linked
  · have intact : wp (Prog.when s.havePending (receive env s.second)) (fun _ t => Intact t ↔ Intact s) (fun _ _ => True) s :=
      wp_when _ _ _ _ _ (fun _ => receive_intact answering rejecting sound flight s.second) fun _ => Iff.rfl
    refine wp_mono (wp_and (receive_all_spec answering rejecting sound flight) intact) ?_ (fun _ _ _ => trivial)
    rintro _ t ⟨⟨a, b, soundThen, flightThen, received, rfl⟩, intact⟩
    exact ⟨received.frame.retain, received.frame.qId, (flush_safe_received sound flight soundThen flightThen intact).symm⟩
  · obtain rfl := stale.calm
    have calm : ¬ s.havePending = true := by
      rw [sound_pending sound]
      simp
    exact wp_ok (Prog.when_skip _ _ s calm) ⟨rfl, rfl, (flush_safe_idle sound stale.dummy).symm⟩

-- flush() from any state in which the members agree, whatever libpq still holds.
theorem flush_renews (rejecting : RejectsForAQuery agree env) (linked : Linked env agree False s) (room : s.qId + 2 < qidLimit) :
    wp (flush env) (fun _ t => t.queries = OrdMap.empty ∧ t.registered = false ∧ (AsNew env s t ↔ FlushSafe s)) (fun _ _ => True) s := by
  have called : Linking env agree False (insertedBy s .flush) (flush env) s :=
    call_linking (fun impossible => impossible.elim) rejecting linked .flush
      ⟨fun none_ => Bool.noConfusion none_, fun other => nomatch other⟩ room fun impossible => impossible.elim
  have flushed : wp (flush env) (fun _ t => t.queries = OrdMap.empty ∧ t.registered = false ∧ t.retain = s.retain ∧ t.qId = s.qId ∧
      (t.error = qidLimit ∧ t.unread = [] ↔ FlushSafe s)) (fun _ _ => True) s := by
    simp only [flush, wp_bind, wp_get]
    refine wp_when _ _ _ _ _ (fun _ => ?_) (fun empty => ?_)
    · simp only [forget, wp_bind, wp_get]
      refine wp_mono (flush_receives rejecting linked) ?_ (fun _ _ => id)
      rintro _ t ⟨retain, number, safe⟩
      exact ⟨rfl, rfl, retain, number, safe⟩
    · have queries : s.queries = OrdMap.empty := OrdMap.empty_of_entries s.queries (Decidable.byContradiction empty)
      obtain ⟨sound, dummy⟩ := linked_idle linked queries
      exact ⟨queries, rfl, rfl, rfl, (flush_safe_idle sound dummy).symm⟩
  refine wp_mono (wp_and called flushed) ?_ (fun _ _ _ => trivial)
  rintro _ t ⟨⟨linkedThen, _⟩, queries, detached, retain, number, safe⟩
  refine ⟨queries, detached, (emptied_as_new rejecting linkedThen ?_ queries detached retain number).trans safe⟩
  rw [number]
  exact room

end

-- After any run of public operations whose refused batches each have a query that fails
-- on its own, and in which nothing is issued while results of cancelled queries are
-- unread, flush() makes the pipeline new if no query has failed that others waited behind.
theorem pipeline_flush (env : Backend) (rejecting : RejectsForAQuery anyError env) (ops : List PipelineOp)
    (orderly : Along (Orderly env) (pipelineStep env) .start ops) (few : (inserts ops).length < 2147483647) :
    let s := run (pipelineStep env) .start ops
    wp (flush env) (fun _ t => t.queries = OrdMap.empty ∧ t.registered = false ∧ (AsNew env s t ↔ FlushSafe s)) (fun _ _ => True) s := by
  obtain ⟨linked, inserted⟩ := run_linked env anyError False (fun impossible => impossible.elim) rejecting .start ops
    (start_linked env anyError False) orderly (fun impossible => impossible.elim) few
  refine flush_renews rejecting linked ?_
  obtain ⟨lo, hi, sound, _⟩ := linked
  have count := sound.count
  rw [inserted, show PipelineState.start.inserted = [] from rfl, List.nil_append] at count
  unfold qidLimit
  omega

-- A backend that takes every batch and knows one query that fails.
def strictBackend : Backend :=
  { rejects := fun _ _ => none, answer := fun _ query => if query = "SELEC" then some (.failed "syntax error") else some (.rows [["1"]])
    consumeInput := fun _ => true, isBusy := fun _ => true, cancels := fun _ => true }

theorem pipeline_flush_last_failed :
    let s := run (pipelineStep strictBackend) .start [.retain 10, .insert "SELECT 1", .insert "SELEC", .resume]
    wp (flush strictBackend) (fun _ t => AsNew strictBackend s t) (fun _ _ => True) s :=
  wp_mono (pipeline_flush strictBackend (fun _ _ _ refused => nomatch refused)
    [.retain 10, .insert "SELECT 1", .insert "SELEC", .resume]
    ⟨⟨fun issued => absurd issued (by decide +kernel), fun other => nomatch other⟩,
      ⟨fun issued => absurd issued (by decide +kernel), fun other => nomatch other⟩,
      ⟨fun issued => absurd issued (by decide +kernel), fun other => nomatch other⟩,
      ⟨fun _ _ => by decide +kernel, fun other => nomatch other⟩, trivial⟩ (by decide))
    (fun _ _ flushed => flushed.2.2.mpr (by decide +kernel)) (fun _ _ => id)

-- The query that fails is the first of two: m_error outlives flush().
theorem pipeline_flush_fails :
    ¬ (∀ (env : Backend) (ops : List PipelineOp), (inserts ops).length < 2147483647 →
      wp (flush env) (fun _ t => AsNew env (run (pipelineStep env) .start ops) t) (fun _ _ => True)
        (run (pipelineStep env) .start ops)) := by
  intro claimed
  have flushed := claimed strictBackend [.retain 10, .insert "SELEC", .insert "SELECT 2", .complete] (by decide)
  have returned := wp_returned flushed (show (flush strictBackend (run (pipelineStep strictBackend) .start
    [.retain 10, .insert "SELEC", .insert "SELECT 2", .complete])).1 = .ok () by decide +kernel)
  exact absurd (congrArg PipelineState.error returned.1) (by decide +kernel)

end Pqxx
