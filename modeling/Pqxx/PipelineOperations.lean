import Pqxx.PipelineIssue

set_option autoImplicit false

namespace Pqxx

open Lib

section

variable {env : Backend} {agree : Agreement} {plain : Prop} {s : PipelineState} {lo hi : Nat}

-- A public operation is through, with everything in step again.
def Done (env : Backend) (agree : Agreement) (plain : Prop) (s t : PipelineState) : Prop :=
  ∃ lo hi, Sound env agree plain t lo hi ∧ InFlight env t lo hi ∧ Frame s t

theorem in_flight_idle (flight : InFlight env s lo hi) (calm : lo = hi) : s.unread = [] ∧ s.dummyPending = false := by
  have noDummy : s.dummyPending = false := by
    apply Bool.eq_false_iff.mpr
    intro dummy
    have := flight.dummy dummy
    omega
  have short := (in_flight_results flight noDummy).1
  exact ⟨List.eq_nil_of_length_eq_zero (by omega), noDummy⟩

theorem sound_calm (sound : Sound env agree plain s lo hi) (calm : s.havePending = false) : lo = hi := by
  have ordered := sound.ordered
  rw [sound_pending sound] at calm
  have := of_decide_eq_false calm
  omega

theorem sound_busy (sound : Sound env agree plain s lo hi) (busy : s.havePending = true) : lo < hi := by
  rw [sound_pending sound] at busy
  exact of_decide_eq_true busy

theorem done_trans {t u : PipelineState} (frame : Frame s t) (done : Done env agree plain t u) : Done env agree plain s u := by
  obtain ⟨lo, hi, sound, flight, more⟩ := done
  exact ⟨lo, hi, sound, flight, frame_trans frame more⟩

theorem ready_done {t : PipelineState} (ready : Ready env agree plain s lo hi t) : Done env agree plain s t := by
  obtain ⟨lo', hi', sound, flight, received⟩ := ready
  exact ⟨lo', hi', sound, flight, received.frame⟩

theorem detach_spec {t : PipelineState} (done : Done env agree plain s t) :
    Prog.wp detach (fun _ u => Done env agree plain s u) (fun _ _ => False) t := by
  obtain ⟨lo', hi', sound, flight, frame⟩ := done
  exact ⟨lo', hi', sound_link sound t.unread t.active t.dummyPending false t.clock, ⟨flight.dummy, flight.results⟩,
    ⟨frame.qId, frame.retain, frame.inserted, frame.keys⟩⟩

theorem lists_insert (queries : OrdMap Nat Query) (k : Nat) (v : Query) (here : Nat) (qs : List (Nat × String))
    (lists : Lists queries here qs) : Lists (queries.insert k v) here qs := by
  induction qs generalizing here with
  | nil => trivial
  | cons head rest ih =>
      obtain ⟨key, ⟨q, found, text⟩, more⟩ := lists
      refine ⟨key, ⟨q, ?_, text⟩, ih (here + 1) more⟩
      rw [OrdMap.find_insert]
      by_cases same : head.1 = k
      · rw [if_pos same, ← same, found]
        rfl
      · rw [if_neg same, found]

theorem lists_erase (queries : OrdMap Nat Query) (k : Nat) (here : Nat) (qs : List (Nat × String)) (below : k < here)
    (lists : Lists queries here qs) : Lists (queries.erase k) here qs := by
  induction qs generalizing here with
  | nil => trivial
  | cons head rest ih =>
      obtain ⟨key, ⟨q, found, text⟩, more⟩ := lists
      refine ⟨key, ⟨q, ?_, text⟩, ih (here + 1) (by omega) more⟩
      rw [OrdMap.find_erase, if_neg (by omega), found]

def insertQuery (s : PipelineState) (text : String) : PipelineState :=
  { s with
    qId := s.qId + 1, registered := true, numWaiting := s.numWaiting + 1, inserted := s.inserted ++ [text]
    queries := s.queries.insert (s.qId + 1) { query := text, res := none }
    first := if s.second = none ∧ s.first = none then some (s.qId + 1) else s.first
    second := if s.second = none then some (s.qId + 1) else s.second }

-- A new query is behind both ends of the range; end() comes to mean it.
theorem sound_insert (sound : Sound env agree plain s lo hi) (room : s.qId + 2 < qidLimit) (text : String) :
    Sound env agree plain (insertQuery s text) lo hi := by
  have within := sound.within
  have ordered := sound.ordered
  have count := sound.count
  have found : ∀ id q, (s.queries.insert (s.qId + 1) { query := text, res := none }).find id = some q →
      (id = s.qId + 1 ∧ q = { query := text, res := none }) ∨ s.queries.find id = some q := by
    intro id q there
    rw [OrdMap.find_insert] at there
    by_cases new : id = s.qId + 1
    · rw [if_pos new] at there
      have absent : s.queries.find (s.qId + 1) = none := by
        cases old : s.queries.find (s.qId + 1) with
        | none => rfl
        | some w =>
            have := (sound.known _ w old).2
            omega
      rw [absent] at there
      exact .inl ⟨new, (Option.some.inj there).symm⟩
    · rw [if_neg new] at there
      exact .inr there
  exact {
    first := by
      show (if s.second = none ∧ s.first = none then some (s.qId + 1) else s.first) = iterAt (s.qId + 1) lo
      rw [sound.first, sound.second]
      unfold iterAt
      by_cases last : lo ≤ s.qId
      · rw [if_pos last, if_pos (by omega : lo ≤ s.qId + 1), if_neg (by simp)]
      · rw [if_neg last, if_neg (by omega : ¬ hi ≤ s.qId), if_pos ⟨rfl, rfl⟩, if_pos (by omega : lo ≤ s.qId + 1)]
        exact congrArg some (by omega)
    second := by
      show (if s.second = none then some (s.qId + 1) else s.second) = iterAt (s.qId + 1) hi
      rw [sound.second]
      unfold iterAt
      by_cases last : hi ≤ s.qId
      · rw [if_pos last, if_pos (by omega : hi ≤ s.qId + 1), if_neg (by simp)]
      · rw [if_neg last, if_pos rfl, if_pos (by omega : hi ≤ s.qId + 1)]
        exact congrArg some (by omega)
    positive := sound.positive
    ordered := ordered
    within := by
      show hi ≤ s.qId + 1 + 1
      omega
    small := room
    known := fun id q there => by
      show 1 ≤ id ∧ id ≤ s.qId + 1
      rcases found id q there with ⟨rfl, _⟩ | old
      · omega
      · have := sound.known id q old
        omega
    full := fun id from_ inside => by
      have inside : id ≤ s.qId + 1 := inside
      by_cases new : id = s.qId + 1
      · exact ⟨_, by rw [insertQuery, OrdMap.find_insert, if_pos new]⟩
      · obtain ⟨q, old⟩ := sound.full id from_ (by omega)
        exact ⟨q, by rw [insertQuery, OrdMap.find_insert, if_neg new, old]⟩
    text := fun id q there => by
      show (s.inserted ++ [text])[id - 1]? = some q.query
      rcases found id q there with ⟨rfl, rfl⟩ | old
      · rw [Nat.add_sub_cancel, ← count, List.getElem?_concat_length]
      · have := sound.known id q old
        rw [List.getElem?_append_left (by omega)]
        exact sound.text id q old
    count := by
      show (s.inserted ++ [text]).length = s.qId + 1
      rw [List.length_append, List.length_singleton, count]
    own := fun id q there below usable => by
      rcases found id q there with ⟨rfl, _⟩ | old
      · omega
      · exact sound.own id q old below usable
    blank := fun id q there above => by
      rcases found id q there with ⟨_, rfl⟩ | old
      · rfl
      · exact sound.blank id q old above
    waiting := fun healthy => by
      have := sound.waiting healthy
      show s.numWaiting + 1 = ((s.qId + 1 : Nat) : Int) + 1 - hi
      omega
    limit := sound.limit
    stopped := sound.stopped
    record := fun calm => by
      have old := sound.record calm
      have early : (s.inserted ++ [text]).take (hi - 1) = s.inserted.take (hi - 1) := List.take_append_of_le_length (by omega)
      exact ⟨by rw [insertQuery]; simp only [early]; exact old.sent, by rw [insertQuery]; simp only [early]; exact old.executed⟩ }

theorem in_flight_insert (flight : InFlight env s lo hi) (text : String) : InFlight env (insertQuery s text) lo hi := by
  refine ⟨flight.dummy, flight.results.imp id ?_⟩
  rintro ⟨dummy, message, queries, unread, lists, rest⟩
  exact ⟨dummy, message, queries, unread, lists_insert _ _ _ lo queries lists, rest⟩

theorem enqueue_apply (room : s.qId ≠ qidLimit) (text : String) :
    enqueue text s = (.ok (s.qId + 1), insertQuery s text) := by
  have generated : generateId { s with registered := true } = (.ok (s.qId + 1), { s with registered := true, qId := s.qId + 1 }) := by
    simp only [generateId, Prog.bind_apply, Prog.gets_apply, if_neg room, Prog.modify_apply, Prog.pure_apply]
  simp only [enqueue, attach, Prog.bind_apply, Prog.modify_apply, generated, Prog.pure_apply, insertQuery]
  by_cases last : s.second = none
  · by_cases empty : s.first = none
    · simp only [last, empty, and_self, if_true]
    · simp only [if_pos last, if_neg empty, if_neg (fun both : s.second = none ∧ s.first = none => empty both.2)]
  · simp only [if_neg last, if_neg (fun both : s.second = none ∧ s.first = none => last both.1)]

-- The end of several operations: whatever waits goes out if nothing is pending.
theorem issue_idle_spec (answering : plain → Answering env) (sound : Sound env agree plain s lo hi) (flight : InFlight env s lo hi)
    (c : Prop) [Decidable c] (calm : c → s.havePending = false) (more : c → s.error = qidLimit → hi ≤ s.qId) :
    Prog.wp (Prog.when c (issue env)) (fun _ t => ∃ lo' hi', Sound env agree plain t lo' hi' ∧ InFlight env t lo' hi' ∧
      Frame s t ∧ t.error = s.error ∧ lo ≤ lo' ∧ (¬ c → t = s) ∧ (c → t.error = qidLimit → lo' = hi ∧ hi' = s.qId + 1))
      (fun _ _ => False) s := by
  refine Prog.wp_when _ _ _ _ _ (fun yes => ?_) (fun no => ?_)
  · obtain rfl := sound_calm sound (calm yes)
    obtain ⟨idle, noDummy⟩ := in_flight_idle flight rfl
    refine Prog.wp_mono (issue_spec answering sound idle (fun _ => noDummy) (more yes)) ?_ (fun _ _ => id)
    rintro _ t ⟨lo', hi', soundAfter, flightAfter, issued⟩
    refine ⟨lo', hi', soundAfter, flightAfter, issued.frame, issued.error, ?_, fun no => absurd yes no, fun _ => issued.all⟩
    have limit := soundAfter.limit
    by_cases healthy : t.error = qidLimit
    · exact Nat.le_of_eq (issued.all healthy).1.symm
    · exact Nat.le_of_eq (issued.none (by omega)).1.symm
  · exact ⟨lo, hi, sound, flight, frame_refl s, rfl, Nat.le_refl lo, fun _ => rfl, fun yes => absurd yes no⟩

-- The start of several operations: what is pending is looked at, if anything is.
theorem receive_some_spec (answering : plain → Answering env) (rejecting : RejectsForAQuery agree env)
    (sound : Sound env agree plain s lo hi) (flight : InFlight env s lo hi) :
    Prog.wp (Prog.when s.havePending (receiveIfAvailable env)) (fun _ t => ∃ lo' hi', Sound env agree plain t lo' hi' ∧
      InFlight env t lo' hi' ∧ ReceivedSome s t lo hi lo' hi') (fun e t => Severed env e ∧ Done env agree plain s t) s := by
  refine Prog.wp_when _ _ _ _ _ (fun _ => ?_) (fun _ => ?_)
  · refine Prog.wp_mono (receive_if_available_spec answering rejecting sound flight) (fun _ _ => id) ?_
    rintro e t ⟨severed, a, b, soundThen, flightThen, received⟩
    exact ⟨severed, a, b, soundThen, flightThen, received.frame⟩
  · exact ⟨lo, hi, sound, flight, frame_refl s, Nat.le_refl lo, fun healthy => ⟨rfl, healthy⟩⟩

theorem receive_all_spec (answering : plain → Answering env) (rejecting : RejectsForAQuery agree env)
    (sound : Sound env agree plain s lo hi) (flight : InFlight env s lo hi) :
    Prog.wp (Prog.when s.havePending (receive env s.second)) (fun _ t => ∃ lo' hi', Sound env agree plain t lo' hi' ∧
      InFlight env t lo' hi' ∧ ReceivedSome s t lo hi lo' hi' ∧ lo' = hi') (fun e t => Severed env e ∧ Done env agree plain s t) s := by
  refine Prog.wp_when _ _ _ _ _ (fun busy => ?_) (fun calm => ?_)
  · rw [sound.second]
    refine Prog.wp_mono (receive_spec answering rejecting hi sound flight (sound_busy sound busy) (Nat.le_refl hi)) ?_ ?_
    · rintro _ t ⟨a, b, soundThen, flightThen, received, reached⟩
      refine ⟨a, b, soundThen, flightThen, received_some received, ?_⟩
      have limit := soundThen.limit
      have ordered := soundThen.ordered
      by_cases healthy : t.error = qidLimit
      · have := reached healthy
        have := (received.kept healthy).1
        omega
      · exact (soundThen.stopped (by omega)).1
    · rintro e t ⟨severed, ready⟩
      exact ⟨severed, ready_done ready⟩
  · exact ⟨lo, hi, sound, flight, ⟨frame_refl s, Nat.le_refl lo, fun healthy => ⟨rfl, healthy⟩⟩,
      sound_calm sound (Bool.eq_false_iff.mpr calm)⟩

theorem insert_spec (answering : plain → Answering env) (rejecting : RejectsForAQuery agree env) (sound : Sound env agree plain s lo hi)
    (flight : InFlight env s lo hi) (room : s.qId + 2 < qidLimit) (text : String) :
    Prog.wp (insert env text) (fun qid t => qid = s.qId + 1 ∧ Done env agree plain (insertQuery s text) t)
      (fun e t => Severed env e ∧ Done env agree plain (insertQuery s text) t) s := by
  have within : hi ≤ (insertQuery s text).qId := sound.within
  have soundNow := sound_insert sound room text
  have flightNow := in_flight_insert flight text
  simp only [insert, Prog.wp_bind]
  refine Prog.wp_ok (enqueue_apply (by omega) text) ?_
  generalize insertQuery s text = t at *
  rw [Prog.wp_get]
  refine Prog.wp_ite _ _ _ _ _ _ (fun _ => ?_) (fun _ => ?_)
  · simp only [Prog.wp_bind]
    refine Prog.wp_mono (receive_some_spec answering rejecting soundNow flightNow) ?_ (fun _ _ => id)
    rintro _ u ⟨a, b, soundThen, flightThen, received⟩
    rw [Prog.wp_get]
    have more : u.havePending = false → u.error = qidLimit → b ≤ u.qId := by
      intro _ healthy
      rw [(received.kept healthy).1, received.frame.qId]
      exact within
    refine Prog.wp_mono (issue_idle_spec answering soundThen flightThen _ id more) ?_ (fun _ _ => False.elim)
    rintro _ v ⟨c, d, soundEnd, flightEnd, frame, _⟩
    exact ⟨rfl, c, d, soundEnd, flightEnd, frame_trans received.frame frame⟩
  · exact ⟨rfl, lo, hi, soundNow, flightNow, frame_refl t⟩

-- complete() has nothing left to send or to receive, unless a query has failed.
def Completed (t : PipelineState) : Prop := t.error = qidLimit → t.second = none ∧ t.first = none

theorem sound_completed (sound : Sound env agree plain s lo hi) (past : s.error = qidLimit → lo = s.qId + 1) : Completed s := by
  intro healthy
  have ended := past healthy
  have ordered := sound.ordered
  rw [sound.second, sound.first, iterAt, iterAt, if_neg (by omega), if_neg (by omega)]
  exact ⟨rfl, rfl⟩

theorem issue_rest_spec (answering : plain → Answering env) (rejecting : RejectsForAQuery agree env) (sound : Sound env agree plain s hi hi)
    (flight : InFlight env s hi hi) (healthy : s.error = qidLimit) (more : hi ≤ s.qId) :
    Prog.wp (issueRest env) (fun _ t => Done env agree plain s t ∧ Completed t) (fun e t => Severed env e ∧ Done env agree plain s t) s := by
  obtain ⟨idle, noDummy⟩ := in_flight_idle flight rfl
  simp only [issueRest, Prog.wp_bind]
  refine Prog.wp_mono (issue_spec answering sound idle (fun _ => noDummy) (fun _ => more)) ?_ (fun _ _ => False.elim)
  rintro _ t ⟨a, b, soundThen, flightThen, issued⟩
  obtain ⟨rfl, rfl⟩ := issued.all (issued.error.trans healthy)
  have last : none = iterAt t.qId (s.qId + 1) := by
    rw [issued.frame.qId, iterAt, if_neg (by omega)]
  rw [last]
  refine Prog.wp_mono (receive_spec answering rejecting (s.qId + 1) soundThen flightThen (by omega) (Nat.le_refl _)) ?_ ?_
  · rintro _ u ⟨c, d, soundEnd, flightEnd, received, reached⟩
    have frame := frame_trans issued.frame received.frame
    refine ⟨⟨c, d, soundEnd, flightEnd, frame⟩, sound_completed soundEnd fun fine => ?_⟩
    have ordered := soundEnd.ordered
    have within := soundEnd.within
    have sameId := frame.qId
    have := reached fine
    omega
  · rintro e u ⟨severed, ready⟩
    exact ⟨severed, done_trans issued.frame (ready_done ready)⟩

theorem complete_spec (answering : plain → Answering env) (rejecting : RejectsForAQuery agree env) (sound : Sound env agree plain s lo hi)
    (flight : InFlight env s lo hi) :
    Prog.wp (complete env) (fun _ t => Done env agree plain s t ∧ Completed t) (fun e t => Severed env e ∧ Done env agree plain s t) s := by
  simp only [complete, Prog.wp_bind, Prog.wp_get]
  refine Prog.wp_mono (receive_all_spec answering rejecting sound flight) ?_ (fun _ _ => id)
  rintro _ t ⟨a, b, soundThen, flightThen, received, rfl⟩
  have rest : Prog.wp (Prog.when (t.numWaiting ≠ 0 ∧ t.error = qidLimit) (issueRest env))
      (fun _ u => Done env agree plain s u ∧ Completed u) (fun e u => Severed env e ∧ Done env agree plain s u) t := by
    refine Prog.wp_when _ _ _ _ _ (fun waiting => ?_) (fun through => ?_)
    · have counted := soundThen.waiting waiting.2
      have within := soundThen.within
      refine Prog.wp_mono (issue_rest_spec answering rejecting soundThen flightThen waiting.2 (by omega)) ?_ ?_
      · rintro _ u ⟨done, completed⟩
        exact ⟨done_trans received.frame done, completed⟩
      · intro e u bad
        exact ⟨bad.1, done_trans received.frame bad.2⟩
    · refine ⟨⟨a, a, soundThen, flightThen, received.frame⟩, sound_completed soundThen fun healthy => ?_⟩
      have counted := soundThen.waiting healthy
      have nothing : t.numWaiting = 0 := Decidable.byContradiction fun some_ => through ⟨some_, healthy⟩
      omega
  refine Prog.wp_mono rest ?_ (fun _ _ => id)
  rintro _ u ⟨done, completed⟩
  have detached : Done env agree plain s { u with registered := false } := detach_spec done
  exact ⟨detached, completed⟩

theorem resume_spec (answering : plain → Answering env) (rejecting : RejectsForAQuery agree env) (sound : Sound env agree plain s lo hi)
    (flight : InFlight env s lo hi) :
    Prog.wp (resume env) (fun _ t => Done env agree plain s t) (fun e t => Severed env e ∧ Done env agree plain s t) s := by
  simp only [resume, Prog.wp_bind, Prog.wp_get]
  refine Prog.wp_mono (receive_some_spec answering rejecting sound flight) ?_ (fun _ _ => id)
  rintro _ t ⟨a, b, soundThen, flightThen, received⟩
  refine Prog.wp_ite _ _ _ _ _ _ (fun waiting => ?_) (fun _ => ⟨a, b, soundThen, flightThen, received.frame⟩)
  obtain rfl := sound_calm soundThen waiting.1
  obtain ⟨idle, noDummy⟩ := in_flight_idle flightThen rfl
  have within := soundThen.within
  have more : t.error = qidLimit → a ≤ t.qId := by
    intro healthy
    have counted := soundThen.waiting healthy
    omega
  simp only [Prog.wp_bind]
  refine Prog.wp_mono (issue_spec answering soundThen idle (fun _ => noDummy) more) ?_ (fun _ _ => False.elim)
  rintro _ u ⟨c, d, soundNext, flightNext, issued⟩
  have before := frame_trans received.frame issued.frame
  refine Prog.wp_mono (receive_if_available_spec answering rejecting soundNext flightNext) ?_ ?_
  · rintro _ v ⟨e, f, soundEnd, flightEnd, receivedEnd⟩
    exact ⟨e, f, soundEnd, flightEnd, frame_trans before receivedEnd.frame⟩
  · rintro x v ⟨severed, e, f, soundEnd, flightEnd, receivedEnd⟩
    exact ⟨severed, e, f, soundEnd, flightEnd, frame_trans before receivedEnd.frame⟩

-- The operations that neither insert nor send: the queries inserted so far are the same.
def Through (env : Backend) (agree : Agreement) (plain : Prop) (s t : PipelineState) : Prop :=
  t.qId = s.qId ∧ t.inserted = s.inserted ∧ ∃ lo hi, Sound env agree plain t lo hi ∧ InFlight env t lo hi

theorem done_through {t : PipelineState} (done : Done env agree plain s t) : Through env agree plain s t := by
  obtain ⟨lo', hi', sound, flight, frame⟩ := done
  exact ⟨frame.qId, frame.inserted, lo', hi', sound, flight⟩

-- flush() forgets whatever has happened, except that m_error keeps its value.
theorem sound_forget (notPlain : ¬ plain) (sound : Sound env agree plain s lo hi) :
    Sound env agree plain { s with first := none, second := none, numWaiting := 0, dummyPending := false, queries := OrdMap.empty }
      (s.qId + 1) (s.qId + 1) := by
  have within := sound.within
  have ordered := sound.ordered
  have ended : none = iterAt s.qId (s.qId + 1) := by rw [iterAt, if_neg (by omega)]
  exact {
    first := ended
    second := ended
    positive := by omega
    ordered := Nat.le_refl _
    within := Nat.le_refl _
    small := sound.small
    known := fun id q there => by simp only [OrdMap.find_empty, reduceCtorEq] at there
    full := fun id from_ inside => by
      have inside : id ≤ s.qId := inside
      omega
    text := fun id q there => by simp only [OrdMap.find_empty, reduceCtorEq] at there
    count := sound.count
    own := fun id q there => by simp only [OrdMap.find_empty, reduceCtorEq] at there
    blank := fun id q there => by simp only [OrdMap.find_empty, reduceCtorEq] at there
    waiting := fun _ => by
      show (0 : Int) = (s.qId : Int) + 1 - (s.qId + 1 : Nat)
      omega
    limit := sound.limit
    stopped := fun error => by
      obtain ⟨_, before, faulty⟩ := sound.stopped error
      exact ⟨rfl, by show s.error ≤ s.qId + 1; omega, faulty⟩
    record := fun calm => absurd calm notPlain }

theorem flush_spec (answering : plain → Answering env) (rejecting : RejectsForAQuery agree env) (notPlain : ¬ plain)
    (sound : Sound env agree plain s lo hi) (flight : InFlight env s lo hi) :
    Prog.wp (flush env) (fun _ t => Through env agree plain s t)
      (fun e t => Severed env e ∧ Done env agree plain s t) s := by
  simp only [flush, Prog.wp_bind, Prog.wp_get]
  have forgotten : Prog.wp (Prog.when (s.queries.entries ≠ []) (forget env))
      (fun _ t => Through env agree plain s t) (fun e t => Severed env e ∧ Done env agree plain s t) s := by
    refine Prog.wp_when _ _ _ _ _ (fun _ => ?_) (fun _ => ⟨rfl, rfl, lo, hi, sound, flight⟩)
    simp only [forget, Prog.wp_bind, Prog.wp_get]
    refine Prog.wp_mono (receive_all_spec answering rejecting sound flight) ?_ (fun _ _ => id)
    rintro _ t ⟨a, b, soundThen, flightThen, received, same⟩
    obtain ⟨idle, _⟩ := in_flight_idle flightThen same
    rw [Prog.wp_modify]
    refine ⟨received.frame.qId, received.frame.inserted, t.qId + 1, t.qId + 1, sound_forget notPlain soundThen, in_flight_of_results rfl ?_ ?_ ?_⟩
    · simp [idle]
    · simp [idle, Answers]
    · simp
  refine Prog.wp_mono forgotten ?_ (fun _ _ => id)
  rintro _ t ⟨same, inserted, a, b, soundThen, flightThen⟩
  exact ⟨same, inserted, a, b, sound_link soundThen t.unread t.active t.dummyPending false t.clock, flightThen.dummy, flightThen.results⟩

theorem is_finished_spec (sound : Sound env agree plain s lo hi) (q : Nat) :
    Prog.wp (isFinished q) (fun answer t => t = s ∧ ∃ entry, s.queries.find q = some entry ∧ (answer = true → q < lo))
      (fun e t => t = s ∧ s.queries.find q = none ∧ ∃ x : Exn, x.kind = .logicError ∧ e = .thrown x) s := by
  simp only [isFinished, Prog.wp_bind, Prog.wp_get]
  cases found : s.queries.find q with
  | none => exact ⟨rfl, rfl, _, rfl, rfl⟩
  | some entry =>
      have known := sound.known q entry found
      refine Prog.wp_ite _ _ _ _ _ _ (fun ended => ?_) (fun inside => ?_)
      · refine ⟨rfl, entry, rfl, fun _ => ?_⟩
        rw [sound.first, iterAt] at ended
        by_cases more : lo ≤ s.qId
        · rw [if_pos more] at ended
          cases ended
        · omega
      · rw [sound.first, iterAt] at inside
        by_cases more : lo ≤ s.qId
        · obtain ⟨w, there⟩ := sound.full lo (Nat.le_refl lo) more
          have first : s.first = some lo := by rw [sound.first, iterAt, if_pos more]
          simp only [Prog.wp_bind]
          refine Prog.wp_ok (deref_found s s.first lo w first there) ⟨rfl, entry, rfl, fun yes => ?_⟩
          exact (of_decide_eq_true yes).1
        · rw [if_neg more] at inside
          exact absurd rfl inside

theorem sound_retain (sound : Sound env agree plain s lo hi) (retain : Int) : Sound env agree plain { s with retain } lo hi :=
  ⟨sound.first, sound.second, sound.positive, sound.ordered, sound.within, sound.small, sound.known, sound.full, sound.text,
    sound.count, sound.own, sound.blank, sound.waiting, sound.limit, sound.stopped,
    fun calm => ⟨(sound.record calm).sent, (sound.record calm).executed⟩⟩

theorem retain_spec (answering : plain → Answering env) (rejecting : RejectsForAQuery agree env) (sound : Sound env agree plain s lo hi)
    (flight : InFlight env s lo hi) (retainMax : Int) :
    Prog.wp (retain env retainMax) (fun _ t => Through env agree plain s t)
      (fun e t => (Severed env e ∨ retainMax < 0 ∧ ∃ x, e = .thrown x) ∧ Through env agree plain s t) s := by
  refine Prog.wp_ite _ _ _ _ _ _ (fun negative => ?_) (fun _ => ?_)
  · exact ⟨.inr ⟨negative, _, rfl⟩, rfl, rfl, lo, hi, sound, flight⟩
  · simp only [Prog.wp_bind, Prog.wp_gets, Prog.wp_get, Prog.wp_modify, Prog.wp_pure]
    have soundNow := sound_retain sound retainMax
    have flightNow : InFlight env { s with retain := retainMax } lo hi := ⟨flight.dummy, flight.results⟩
    refine Prog.wp_when _ _ _ _ _ (fun _ => ?_) (fun _ => ⟨rfl, rfl, lo, hi, soundNow, flightNow⟩)
    refine Prog.wp_mono (resume_spec answering rejecting soundNow flightNow) ?_ ?_
    · intro _ t done
      obtain ⟨sameId, inserted, rest⟩ := done_through done
      exact ⟨sameId, inserted, rest⟩
    · intro e t bad
      obtain ⟨sameId, inserted, rest⟩ := done_through bad.2
      exact ⟨.inl bad.1, sameId, inserted, rest⟩

theorem issue_for_spec (answering : plain → Answering env) (rejecting : RejectsForAQuery agree env) (sound : Sound env agree plain s lo hi)
    (flight : InFlight env s lo hi) (q : Nat) (inside : q ≤ s.qId) :
    Prog.wp (issueFor env q) (fun _ t => ∃ lo' hi', Sound env agree plain t lo' hi' ∧ InFlight env t lo' hi' ∧ Frame s t ∧
      (t.error = qidLimit → q < hi')) (fun e t => Severed env e ∧ Done env agree plain s t) s := by
  have within := sound.within
  have ordered := sound.ordered
  have decided : Prog.wp (notIssued q) (fun waiting t => t = s ∧ waiting = decide (hi ≤ q)) (fun _ _ => False) s := by
    simp only [notIssued, Prog.wp_bind, Prog.wp_get]
    refine Prog.wp_ite _ _ _ _ _ _ (fun ended => ?_) (fun more => ?_)
    · refine ⟨rfl, (decide_eq_false ?_).symm⟩
      rw [sound.second, iterAt] at ended
      by_cases last : hi ≤ s.qId
      · rw [if_pos last] at ended
        cases ended
      · omega
    · rw [sound.second, iterAt] at more
      by_cases last : hi ≤ s.qId
      · obtain ⟨w, there⟩ := sound.full hi ordered last
        have second : s.second = some hi := by rw [sound.second, iterAt, if_pos last]
        simp only [Prog.wp_bind]
        exact Prog.wp_ok (deref_found s s.second hi w second there) ⟨rfl, rfl⟩
      · rw [if_neg last] at more
        exact absurd rfl more
  simp only [issueFor, Prog.wp_bind]
  refine Prog.wp_mono decided ?_ (fun _ _ => False.elim)
  rintro waiting t ⟨rfl, rfl⟩
  refine Prog.wp_ite _ _ _ _ _ _ (fun behind => ?_) (fun early => ?_)
  · have behind := of_decide_eq_true behind
    simp only [Prog.wp_bind, Prog.wp_get]
    refine Prog.wp_mono (receive_all_spec answering rejecting sound flight) ?_ (fun _ _ => id)
    rintro _ u ⟨a, b, soundThen, flightThen, received, rfl⟩
    have calm : u.error = qidLimit → u.havePending = false := by
      intro _
      rw [sound_pending soundThen]
      exact decide_eq_false (Nat.lt_irrefl a)
    have more : u.error = qidLimit → u.error = qidLimit → a ≤ u.qId := by
      intro healthy _
      rw [(received.kept healthy).1, received.frame.qId]
      omega
    refine Prog.wp_mono (issue_idle_spec answering soundThen flightThen _ calm more) ?_ (fun _ _ => False.elim)
    rintro _ v ⟨c, d, soundEnd, flightEnd, frame, error, _, _, all⟩
    refine ⟨c, d, soundEnd, flightEnd, frame_trans received.frame frame, fun healthy => ?_⟩
    have whole := (all (error.symm.trans healthy) healthy).2
    have sameId := received.frame.qId
    omega
  · have early : ¬ hi ≤ q := fun behind => early (decide_eq_true behind)
    exact ⟨lo, hi, sound, flight, frame_refl t, fun _ => by omega⟩

theorem receive_for_spec (answering : plain → Answering env) (rejecting : RejectsForAQuery agree env) (sound : Sound env agree plain s lo hi)
    (flight : InFlight env s lo hi) (q : Nat) (w : Query) (there : s.queries.find q = some w) (issued : s.error = qidLimit → q < hi) :
    Prog.wp (receiveFor env q) (fun _ t => ∃ lo' hi', Sound env agree plain t lo' hi' ∧ InFlight env t lo' hi' ∧ Frame s t ∧
      (t.error = qidLimit → q < lo')) (fun e t => Severed env e ∧ Done env agree plain s t) s := by
  have within := sound.within
  have inside := (sound.known q w there).2
  simp only [receiveFor, Prog.wp_bind, Prog.wp_get]
  refine Prog.wp_ite _ _ _ _ _ _ (fun busy => ?_) (fun calm => ?_)
  · have pending := sound_busy sound busy
    have healthy := sound_healthy sound pending
    obtain ⟨head, oldest⟩ := sound.full lo (Nat.le_refl lo) (by omega)
    have first : s.first = some lo := by rw [sound.first, iterAt, if_pos (by omega)]
    simp only [Prog.wp_bind]
    refine Prog.wp_ok (deref_found s s.first lo head first oldest) ?_
    refine Prog.wp_ite _ _ _ _ _ _ (fun late => ?_) (fun early => ?_)
    · simp only [Prog.wp_bind]
      refine Prog.wp_ok (increment_found s (some q) q w rfl there) ?_
      rw [sound_next sound q late inside]
      have before := issued healthy
      have late : lo ≤ q := late
      refine Prog.wp_mono (receive_spec answering rejecting (q + 1) sound flight (by omega) (by omega)) ?_ ?_
      · rintro _ t ⟨a, b, soundThen, flightThen, received, reached⟩
        exact ⟨a, b, soundThen, flightThen, received.frame, fun fine => reached fine⟩
      · rintro e t ⟨severed, ready⟩
        exact ⟨severed, ready_done ready⟩
    · have early : ¬ q ≥ lo := early
      refine Prog.wp_mono (receive_if_available_spec answering rejecting sound flight) ?_ ?_
      · rintro _ t ⟨a, b, soundThen, flightThen, received⟩
        have onward := received.onward
        exact ⟨a, b, soundThen, flightThen, received.frame, fun _ => by omega⟩
      · rintro e t ⟨severed, a, b, soundThen, flightThen, received⟩
        exact ⟨severed, a, b, soundThen, flightThen, received.frame⟩
  · have same := sound_calm sound (Bool.eq_false_iff.mpr calm)
    exact ⟨lo, hi, sound, flight, frame_refl s, fun healthy => by have := issued healthy; omega⟩

-- A query that has been retrieved is gone from the map, and its result is its own.
theorem sound_erase (sound : Sound env agree plain s lo hi) (q : Nat) (below : q < lo) :
    Sound env agree plain { s with queries := s.queries.erase q } lo hi := by
  have found : ∀ id w, (s.queries.erase q).find id = some w → s.queries.find id = some w := by
    intro id w there
    rw [OrdMap.find_erase] at there
    by_cases gone : id = q
    · rw [if_pos gone] at there
      cases there
    · rw [if_neg gone] at there
      exact there
  exact {
    first := sound.first
    second := sound.second
    positive := sound.positive
    ordered := sound.ordered
    within := sound.within
    small := sound.small
    known := fun id w there => sound.known id w (found id w there)
    full := fun id from_ inside => by
      obtain ⟨w, there⟩ := sound.full id from_ inside
      exact ⟨w, by rw [OrdMap.find_erase, if_neg (by omega), there]⟩
    text := fun id w there => sound.text id w (found id w there)
    count := sound.count
    own := fun id w there => sound.own id w (found id w there)
    blank := fun id w there => sound.blank id w (found id w there)
    waiting := sound.waiting
    limit := sound.limit
    stopped := sound.stopped
    record := fun calm => ⟨(sound.record calm).sent, (sound.record calm).executed⟩ }

theorem in_flight_erase (flight : InFlight env s lo hi) (q : Nat) (below : q < lo) :
    InFlight env { s with queries := s.queries.erase q } lo hi := by
  refine ⟨flight.dummy, flight.results.imp id ?_⟩
  rintro ⟨dummy, message, queries, unread, lists, rest⟩
  exact ⟨dummy, message, queries, unread, lists_erase _ _ lo queries below lists, rest⟩

theorem produced_rows {executed : List (Nat × Option Outcome)} {id : Nat} {r : Result} (rows : List (List String))
    (produced : Produced agree executed id r) (succeeded : r.outcome = .rows rows) : (id, some r.outcome) ∈ executed := by
  rcases produced with there | ⟨message, outcome, holds, _⟩
  · exact there
  · rw [holds] at succeeded
    cases succeeded

theorem produced_failed {executed : List (Nat × Option Outcome)} {id : Nat} {r : Result} (message : String)
    (produced : Produced agree executed id r) (failed : r.outcome = .failed message) : Faulty executed := by
  rcases produced with there | ⟨_, outcome, _, there, bad, _⟩
  · exact ⟨id, _, there, fun rows => by rw [failed]; simp⟩
  · exact ⟨id, outcome, there, bad⟩

theorem take_result_spec (sound : Sound env agree plain s lo hi) (q : Nat) (w : Query) (there : s.queries.find q = some w)
    (received : q < lo) (usable : q < s.error) :
    Prog.wp (takeResult q) (fun r t => r.1 = q ∧ (q, some r.2.outcome) ∈ t.executed ∧ t = { s with queries := s.queries.erase q })
      (fun e t => (∃ x, e = .thrown x) ∧ Faulty t.executed ∧ t = { s with queries := s.queries.erase q }) s := by
  obtain ⟨r, held, produced⟩ := sound.own q w there received usable
  simp only [takeResult, Prog.wp_bind]
  refine Prog.wp_ok (deref_found s (some q) q w rfl there) ?_
  simp only [Prog.wp_modify, held, Prog.wp_bind]
  cases outcome : r.outcome with
  | rows rows =>
      simp only [Result.checkStatus, outcome, ofExcept, Prog.wp_pure]
      exact ⟨trivial, by rw [← outcome]; exact produced_rows rows produced outcome, trivial⟩
  | failed message =>
      simp only [Result.checkStatus, outcome, ofExcept, Prog.wp_throw]
      exact ⟨⟨_, rfl⟩, produced_failed message produced outcome, trivial⟩

theorem retrieve_spec (answering : plain → Answering env) (rejecting : RejectsForAQuery agree env) (sound : Sound env agree plain s lo hi)
    (flight : InFlight env s lo hi) (q : Nat) (w : Query) (there : s.queries.find q = some w) :
    Prog.wp (retrieveAt env (some q)) (fun r t => r.1 = q ∧ (q, some r.2.outcome) ∈ t.executed ∧ Through env agree plain s t)
      (fun e t => (Severed env e ∨ (∃ x, e = .thrown x) ∧ Faulty t.executed) ∧ Through env agree plain s t) s := by
  have inside := (sound.known q w there).2
  have small := sound.small
  have failed : ∀ {t : PipelineState} {a b : Nat}, Sound env agree plain t a b → Frame s t → q ≥ t.error → Faulty t.executed := by
    intro t a b soundThen frame late
    have sameId := frame.qId
    exact (soundThen.stopped (by omega)).2.2
  simp only [retrieveAt, Prog.wp_bind, Prog.wp_get]
  refine Prog.wp_ite _ _ _ _ _ _ (fun late => ?_) (fun _ => ?_)
  · rw [earlierError, raise, Prog.wp_throw]
    exact ⟨.inr ⟨⟨_, rfl⟩, failed sound (frame_refl s) late⟩, rfl, rfl, lo, hi, sound, flight⟩
  simp only [Prog.wp_bind]
  refine Prog.wp_mono (issue_for_spec answering rejecting sound flight q inside) ?_ (fun e t bad => ⟨.inl bad.1, done_through bad.2⟩)
  rintro _ t ⟨a, b, soundThen, flightThen, frame, issued⟩
  have present : ∀ {u : PipelineState}, Frame s u → ∃ x, u.queries.find q = some x := by
    intro u framed
    have kept := framed.keys q
    rw [there, Option.isSome_some] at kept
    exact Option.isSome_iff_exists.mp kept
  obtain ⟨x, found⟩ := present frame
  refine Prog.wp_mono (receive_for_spec answering rejecting soundThen flightThen q x found issued) ?_ ?_
  · rintro _ u ⟨c, d, soundNext, flightNext, frameNext, reached⟩
    have framed := frame_trans frame frameNext
    rw [Prog.wp_get]
    refine Prog.wp_ite _ _ _ _ _ _ (fun late => ?_) (fun usable => ?_)
    · rw [earlierError, raise, Prog.wp_throw]
      exact ⟨.inr ⟨⟨_, rfl⟩, failed soundNext framed late⟩, framed.qId, framed.inserted, c, d, soundNext, flightNext⟩
    · have usable : ¬ q ≥ u.error := usable
      have below : q < c := by
        have limit := soundNext.limit
        by_cases healthy : u.error = qidLimit
        · exact reached healthy
        · have := (soundNext.stopped (by omega)).2.1
          omega
      have more : u.numWaiting ≠ 0 ∧ u.havePending = false ∧ u.error = qidLimit → u.error = qidLimit → d ≤ u.qId := by
        intro waiting healthy
        have := soundNext.waiting healthy
        have := soundNext.within
        omega
      simp only [Prog.wp_bind]
      refine Prog.wp_mono (issue_idle_spec answering soundNext flightNext _ (fun waiting => waiting.2.1) more) ?_
        (fun _ _ => False.elim)
      rintro _ v ⟨e, f, soundEnd, flightEnd, frameEnd, error, onward, _, _⟩
      have all := frame_trans framed frameEnd
      obtain ⟨y, last⟩ := present all
      have erased : Through env agree plain s { v with queries := v.queries.erase q } :=
        ⟨all.qId, all.inserted, e, f, sound_erase soundEnd q (by omega), in_flight_erase flightEnd q (by omega)⟩
      refine Prog.wp_mono (take_result_spec soundEnd q y last (by omega) (by omega)) ?_ ?_
      · rintro r z ⟨same, produced, rfl⟩
        exact ⟨same, produced, erased⟩
      · rintro x z ⟨thrown, faulty, rfl⟩
        exact ⟨.inr ⟨thrown, faulty⟩, erased⟩
  · rintro e u ⟨severed, done⟩
    exact ⟨.inl severed, done_through (done_trans frame done)⟩

end

end Pqxx
