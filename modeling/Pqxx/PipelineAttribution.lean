import Pqxx.PipelineRun
import Pqxx.PipelineShape

set_option autoImplicit false

namespace Pqxx

open Lib Prog

-- Between calls.
def Standing (s : PipelineState) : Prop := ∃ lo hi, Fit True s s lo hi

-- The queries in the map from m_issuedrange.first on, as far as the iterator stop, have
-- the text of the oldest query in the map.
def TextsMatch (s : PipelineState) (stop : Option Nat) : Prop :=
  ∀ e ∈ s.texts, s.first.any (· ≤ e.1) = true → stop.all (e.1 < ·) = true → s.texts.head?.all (fun oldest => oldest.2 = e.2) = true

instance (s : PipelineState) (stop : Option Nat) : Decidable (TextsMatch s stop) :=
  inferInstanceAs (Decidable (∀ e ∈ s.texts, s.first.any (· ≤ e.1) = true → stop.all (e.1 < ·) = true →
    s.texts.head?.all (fun oldest => oldest.2 = e.2) = true))

-- The backend does not refuse the batch of the queries that wait and those inserted now.
def BatchAccepted (env : Backend) (s : PipelineState) (more : List String) : Prop :=
  ((s.queriesFrom s.second).map Prod.snd ++ more).length > 1 →
    env.rejects s.executed.length ((s.queriesFrom s.second).map Prod.snd ++ more) = none

instance (env : Backend) (s : PipelineState) (more : List String) : Decidable (BatchAccepted env s more) :=
  inferInstanceAs (Decidable (_ → _))

-- How far a call gets that receives what is pending and then issues what waits.
def PipelineState.goal (s : PipelineState) : Option Nat := if s.numWaiting ≠ 0 ∧ s.error = qidLimit then none else s.second

def RetrieveSafe (env : Backend) (s : PipelineState) (q : Nat) : Prop :=
  (s.queries.find q).isSome = true → q < s.error →
    TextsMatch s (if s.second.any (· ≤ q) then none else s.second) ∧ BatchAccepted env s []

-- libpq holds no more results than there are queries pending.
def NoSurplus (s : PipelineState) : Prop := s.unread.length ≤ s.distance s.first s.second + (if s.dummyPending then 1 else 0)

-- What a call may receive, it may receive while the oldest query has the same text; and
-- the batch it may issue is not refused.
def AttributionSafe (env : Backend) (s : PipelineState) : PipelineOp → Prop
  | .insert query => s.numWaiting + 1 > s.retain → TextsMatch s s.second ∧ BatchAccepted env s [query]
  | .complete | .resume => TextsMatch s s.goal ∧ BatchAccepted env s []
  | .retain retainMax => 0 ≤ retainMax → s.numWaiting ≥ retainMax → TextsMatch s s.goal ∧ BatchAccepted env s []
  | .retrieve q => RetrieveSafe env s q
  | .retrieveOldest => ∀ q ∈ s.queries.begin, RetrieveSafe env s q
  | .flush => TextsMatch s s.second ∨ NoSurplus s
  | .cancel | .isFinished _ => True

instance (env : Backend) (s : PipelineState) (q : Nat) : Decidable (RetrieveSafe env s q) := inferInstanceAs (Decidable (_ → _ → _))

instance (s : PipelineState) : Decidable (NoSurplus s) := inferInstanceAs (Decidable (_ ≤ _))

instance (env : Backend) (s : PipelineState) (op : PipelineOp) : Decidable (AttributionSafe env s op) :=
  match op with
  | .insert _ => inferInstanceAs (Decidable (_ → _))
  | .complete | .resume => inferInstanceAs (Decidable (_ ∧ _))
  | .retain _ => inferInstanceAs (Decidable (_ → _ → _))
  | .retrieve q => inferInstanceAs (Decidable (RetrieveSafe env s q))
  | .retrieveOldest => inferInstanceAs (Decidable (∀ q ∈ s.queries.begin, RetrieveSafe env s q))
  | .flush => inferInstanceAs (Decidable (_ ∨ _))
  | .cancel | .isFinished _ => inferInstanceAs (Decidable True)

-- A result that is returned, or an error that is thrown, is by this name.
def NamedAs (text : String) : Except Stop Result → Prop
  | .ok r => r.query = text
  | .error (.thrown e) => e.kind = .sqlError → e.query = text
  | .error .endDereferenced => True

-- Every result stored goes by its query's own text, and so does what retrieve() returns
-- or throws.
structure Attributed (env : Backend) (s : PipelineState) (op : PipelineOp) : Prop where
  stored : ∀ id q r, (pipelineStep env s op).queries.find id = some q → q.res = some r → r.query = q.query
  retrieved : ∀ id q, op = .retrieve id → s.queries.find id = some q → NamedAs q.query (retrieve env id s).1
  oldest : ∀ id q, op = .retrieveOldest → s.queries.begin = some id → s.queries.find id = some q →
    NamedAs q.query ((retrieveOldest env s).1.map Prod.snd)

section

variable {env : Backend} {s : PipelineState} {lo hi : Nat}

theorem alike_of_match (fit : Fit True s s lo hi) (x : Nat) (texts : TextsMatch s (iterAt s.qId x)) : AlikeFrom s.texts lo x := by
  intro e there above below oldest head
  have known := fit.known e there
  have first : s.first.any (· ≤ e.1) = true := by
    rw [fit.first, iterAt, if_pos (by omega)]
    exact decide_eq_true above
  have stop : (iterAt s.qId x).all (e.1 < ·) = true := by
    unfold iterAt
    split
    · exact decide_eq_true below
    · rfl
  have same := texts e there first stop
  rw [head] at same
  exact of_decide_eq_true same

theorem match_waiting (fit : Fit True s s lo hi) (texts : TextsMatch s s.second) : AlikeFrom s.texts lo hi :=
  alike_of_match fit hi (by rw [← fit.second]; exact texts)

theorem match_all (fit : Fit True s s lo hi) (texts : TextsMatch s none) : AlikeFrom s.texts lo (s.qId + 1) :=
  alike_of_match fit (s.qId + 1) (by rw [iterAt, if_neg (by omega)]; exact texts)

theorem alike_append {texts : List (Nat × String)} (alike : AlikeFrom texts lo hi) (id : Nat) (query : String) (beyond : hi ≤ id) :
    AlikeFrom (texts ++ [(id, query)]) lo hi := by
  intro e there above below oldest head
  rcases List.mem_append.mp there with there | new
  · cases texts with
    | nil => cases there
    | cons first rest => exact alike e there above below oldest head
  · obtain rfl := List.mem_singleton.mp new
    omega

theorem accepts_of (fit : Fit True s s lo hi) (accepted : BatchAccepted env s []) : Accepts env s hi := by
  intro several
  rw [← fit.second] at several ⊢
  have accepts := accepted (by rw [List.append_nil, List.length_map]; exact several)
  rw [List.append_nil] at accepts
  exact accepts

theorem accepts_none (env : Backend) (s : PipelineState) : Accepts env s (s.qId + 1) := by
  intro several
  rw [iterAt, if_neg (by omega), queries_from_texts, show (s.texts.filter fun e => Option.any (· ≤ e.1) none) = [] from
    List.filter_eq_nil_iff.mpr fun _ _ => Bool.false_ne_true] at several
  cases several

-- A range that was cut short is not issued from again, unless its last query has the
-- last id there is; then it goes alone.
theorem accepts_after {b t : PipelineState} {named : Prop} {lo' : Nat} (fit : Fit named b t lo' lo') (ends : Ends t hi lo' lo')
    (within : hi ≤ b.qId + 1) (accepts : Accepts env b hi) (healthy : ¬ t.error < qidLimit) : Accepts env b lo' := by
  rcases ends with rfl | ⟨_, less, error⟩
  · exact accepts
  · intro several
    have bounded := fit.bounded
    have last : lo' = b.qId := by omega
    rw [queries_from_texts] at several
    have sorted : (b.texts.filter fun e => (iterAt b.qId lo').any (· ≤ e.1)).Pairwise fun a b => a.1 < b.1 := by
      rw [← fit.texts]
      exact (texts_sorted t).filter _
    have each : ∀ e ∈ b.texts.filter fun e => (iterAt b.qId lo').any (· ≤ e.1), e.1 = lo' := by
      intro e there
      obtain ⟨there, above⟩ := List.mem_filter.mp there
      have known := fit.known e there
      rw [iterAt, if_pos (by omega)] at above
      have above : lo' ≤ e.1 := of_decide_eq_true above
      omega
    cases entries : b.texts.filter fun e => (iterAt b.qId lo').any (· ≤ e.1) with
    | nil =>
        rw [entries] at several
        cases several
    | cons one rest =>
        cases rest with
        | nil =>
            rw [entries] at several
            exact absurd several (by simp)
        | cons two rest =>
            rw [entries] at sorted each
            have less := List.rel_of_pairwise_cons sorted List.mem_cons_self
            have := each one List.mem_cons_self
            have := each two (List.mem_cons_of_mem _ List.mem_cons_self)
            omega

def Broken (stop : Stop) (t : PipelineState) : Prop := stop.sql = false ∧ Standing t

theorem failing_broken {b : PipelineState} {stop : Stop} {t : PipelineState} (failed : Failing True b stop t) : Broken stop t := by
  obtain ⟨plain, lo, hi, fit⟩ := failed
  exact ⟨plain, lo, hi, fit_rebase fit⟩

-- issue() at the end of a call, from a range that was received from a base b.
theorem issue_standing {b t : PipelineState} {lo' : Nat} (fit : Fit True b t lo' lo') (ends : Ends t hi lo' lo') (within : hi ≤ b.qId + 1)
    (accepts : Accepts env b hi) : wp (issue env) (fun _ u => Standing u) Broken t := by
  refine wp_mono (issue_fit fit fun healthy => accepts_after fit ends within accepts healthy) ?_ (fun _ _ => failing_broken)
  rintro _ u ⟨_, _, _, ⟨fitted, _⟩ | ⟨fitted, _⟩⟩
  · exact ⟨lo', lo', fitted⟩
  · exact ⟨lo', _, fitted⟩

theorem insert_texts (fit : Fit True s s lo hi) (query : String) :
    (insertQuery s query).texts = s.texts ++ [(s.qId + 1, query)] := by
  have last : ∀ e ∈ s.queries.entries, e.1 < s.qId + 1 := fun e there =>
    Nat.lt_succ_of_le (fit_known fit e.1 e.2 ((s.queries.mem_entries_iff e.1 e.2).mp there))
  rw [PipelineState.texts, insertQuery, OrdMap.entries_insert_last s.queries _ _ last, List.map_append]
  rfl

theorem insert_waiting (fit : Fit True s s lo hi) (query : String) :
    (insertQuery s query).queriesFrom (insertQuery s query).second = s.queriesFrom s.second ++ [(s.qId + 1, query)] := by
  have within := fit.within
  rw [queries_from_texts, queries_from_texts, insert_texts fit, List.filter_append]
  by_cases more : hi ≤ s.qId
  · have second : s.second = some hi := by rw [fit.second, iterAt, if_pos more]
    have same : (insertQuery s query).second = some hi := (if_neg (by rw [second]; exact Option.some_ne_none hi)).trans second
    have kept : ([(s.qId + 1, query)].filter fun e => (some hi).any (· ≤ e.1)) = [(s.qId + 1, query)] :=
      List.filter_cons_of_pos (decide_eq_true within)
    rw [same, second, kept]
  · have second : s.second = none := by rw [fit.second, iterAt, if_neg more]
    have new : (insertQuery s query).second = some (s.qId + 1) := if_pos second
    have old : (s.texts.filter fun e => (some (s.qId + 1)).any (· ≤ e.1)) = [] := by
      refine List.filter_eq_nil_iff.mpr fun e there above => ?_
      have := fit.known e there
      have : s.qId + 1 ≤ e.1 := of_decide_eq_true above
      omega
    have nothing : (s.texts.filter fun e => (none : Option Nat).any (· ≤ e.1)) = [] :=
      List.filter_eq_nil_iff.mpr fun _ _ => Bool.false_ne_true
    have kept : ([(s.qId + 1, query)].filter fun e => (some (s.qId + 1)).any (· ≤ e.1)) = [(s.qId + 1, query)] :=
      List.filter_cons_of_pos (decide_eq_true (Nat.le_refl _))
    rw [new, second, old, nothing, kept]

theorem insert_fit (fit : Fit True s s lo hi) (room : s.qId ≠ qidLimit) (query : String) :
    Fit True (insertQuery s query) (insertQuery s query) lo hi := by
  have within := fit.within
  have ordered := fit.ordered
  have bounded := fit.bounded
  have found : ∀ id q, (insertQuery s query).queries.find id = some q → q.res = none ∨ s.queries.find id = some q := by
    intro id q there
    rw [insertQuery, OrdMap.find_insert] at there
    split at there
    · rename_i new
      cases old : s.queries.find (s.qId + 1) with
      | none =>
          rw [old] at there
          obtain rfl := Option.some.inj there
          exact .inl rfl
      | some w =>
          have := fit_known fit (s.qId + 1) w old
          omega
    · exact .inr there
  exact {
    texts := rfl, qId := rfl, executed := rfl, numWaiting := rfl, error := Nat.le_refl _, ordered := ordered, dummy := fit.dummy
    first := by
      show (if s.second = none ∧ s.first = none then some (s.qId + 1) else s.first) = iterAt (s.qId + 1) lo
      rw [fit.first, fit.second]
      unfold iterAt
      by_cases more : lo ≤ s.qId
      · simp [more, show lo ≤ s.qId + 1 by omega]
      · obtain rfl : lo = s.qId + 1 := by omega
        simp [show ¬ hi ≤ s.qId by omega]
    second := by
      show (if s.second = none then some (s.qId + 1) else s.second) = iterAt (s.qId + 1) hi
      rw [fit.second]
      unfold iterAt
      by_cases more : hi ≤ s.qId
      · simp [more, show hi ≤ s.qId + 1 by omega]
      · obtain rfl : hi = s.qId + 1 := by omega
        simp
    within := Nat.le_succ_of_le within
    known := by
      rw [insert_texts fit]
      intro e there
      show e.1 ≤ s.qId + 1
      rcases List.mem_append.mp there with there | new
      · have := fit.known e there
        omega
      · rw [List.mem_singleton.mp new]
    full := by
      rw [insert_texts fit]
      intro id from_ inside
      have inside : id ≤ s.qId + 1 := inside
      by_cases old : id ≤ s.qId
      · obtain ⟨text, there⟩ := fit.full id from_ old
        exact ⟨text, List.mem_append_left _ there⟩
      · obtain rfl : id = s.qId + 1 := by omega
        exact ⟨query, List.mem_append_right _ List.mem_cons_self⟩
    bounded := by
      show s.qId + 1 ≤ qidLimit
      omega
    blank := fun id q there from_ => (found id q there).elim (fun none_ => none_) fun old => fit.blank id q old from_
    own := fun good id q r there stored => by
      rcases found id q there with blank | old
      · rw [blank] at stored
        cases stored
      · exact fit.own good id q r old stored
    limit := fit.limit
    stopped := fit.stopped }

theorem enqueue_full (query : String) (full : s.qId = qidLimit) (fit : Fit True s s lo hi) :
    wp (enqueue query) (fun _ _ => False) Broken s := by
  have stopped : enqueue query s = (.error (.thrown { kind := .overflowError, what := "Too many queries went through pipeline" }),
      { s with registered := true }) := by
    simp only [enqueue, attach, generateId, Prog.bind_apply, Prog.modify_apply, Prog.gets_apply, if_pos full, raise, Prog.throw_apply]
  exact wp_error stopped ⟨rfl, lo, hi, fit_rebase (fit_member fit rfl rfl rfl rfl rfl rfl rfl fit.dummy)⟩

theorem insert_standing (fit : Fit True s s lo hi) (query : String)
    (safe : s.numWaiting + 1 > s.retain → TextsMatch s s.second ∧ BatchAccepted env s [query]) :
    wp (Pqxx.insert env query) (fun _ t => Standing t) Broken s := by
  have within := fit.within
  rw [Pqxx.insert, wp_bind]
  by_cases room : s.qId = qidLimit
  · exact wp_mono (enqueue_full query room fit) (fun _ _ => False.elim) (fun _ _ => id)
  have fitted := insert_fit fit room query
  have texts := insert_texts fit query
  have waiting := insert_waiting fit query
  refine wp_ok (enqueue_apply room query) ?_
  rw [wp_bind, wp_get]
  refine wp_ite _ _ _ _ _ _ (fun full => ?_) (fun _ => ⟨lo, hi, fitted⟩)
  obtain ⟨matches_, accepted⟩ := safe full
  have alike : AlikeFrom (insertQuery s query).texts lo hi := by
    rw [texts]
    exact alike_append (match_waiting fit matches_) _ query within
  have accepts : Accepts env (insertQuery s query) hi := by
    intro several
    rw [← fitted.second, waiting] at several ⊢
    rw [List.map_append, List.map_cons, List.map_nil]
    refine accepted ?_
    simpa using several
  have issuing (u : PipelineState) {lo' hi' : Nat} (received : Fit True (insertQuery s query) u lo' hi') (ends : Ends u hi lo' hi') :
      wp (do
          let v ← Prog.get
          Prog.when (v.havePending = false) (issue env)
          pure (s.qId + 1) : Pipe Nat) (fun _ t => Standing t) Broken u := by
    rw [wp_bind, wp_get, wp_bind]
    refine wp_when _ _ _ _ _ (fun idle => ?_) (fun _ => ⟨lo', hi', fit_rebase received⟩)
    rw [fit_pending received] at idle
    have ordered := received.ordered
    obtain rfl : lo' = hi' := by
      have := of_decide_eq_false idle
      omega
    exact issue_standing received ends fitted.within accepts
  rw [wp_bind]
  refine wp_when _ _ _ _ _ (fun pending => ?_) (fun _ => issuing _ fitted (.inl rfl))
  rw [fit_pending fitted] at pending
  have less := of_decide_eq_true pending
  refine wp_mono (receive_if_available_fit fitted (fun _ => alike) fun _ same => by omega) ?_ (fun _ _ => failing_broken)
  rintro _ u ⟨_, _, received, _, ends⟩
  exact issuing u received ends

-- receive() of all that is pending.
theorem receive_pending (fit : Fit True s s lo hi) (alike : AlikeFrom s.texts lo hi) (pending : s.havePending = true) :
    wp (receive env s.second) (fun _ t => ∃ end_, Fit True s t end_ end_ ∧ lo ≤ end_ ∧ Ends t hi end_ end_) (Failing True s) s := by
  rw [fit_pending fit] at pending
  have less := of_decide_eq_true pending
  rw [fit.second]
  refine wp_mono (receive_fit hi fit (fun _ => alike) less (Nat.le_refl hi)) ?_ (fun _ _ => id)
  rintro _ t ⟨lo', hi', received, onward, ends, far⟩
  have inside := ends_le ends
  have ordered := received.ordered
  obtain rfl : lo' = hi' := by
    rcases far with far | ⟨same, _⟩
    · omega
    · exact same
  exact ⟨lo', received, onward, ends⟩

-- A call that receives whatever is pending, if anything is, before it goes on.
theorem when_pending (fit : Fit True s s lo hi) (alike : AlikeFrom s.texts lo hi) {rest : Unit → Pipe Unit}
    (goes : ∀ end_ t, Fit True s t end_ end_ → lo ≤ end_ → Ends t hi end_ end_ → wp (rest ()) (fun _ u => Standing u) Broken t) :
    wp (Prog.when s.havePending (receive env s.second) >>= rest) (fun _ u => Standing u) Broken s := by
  rw [wp_bind]
  refine wp_when _ _ _ _ _ (fun pending => ?_) (fun calm => ?_)
  · refine wp_mono (receive_pending fit alike pending) ?_ (fun _ _ => failing_broken)
    exact fun _ t ⟨end_, received, onward, ends⟩ => goes end_ t received onward ends
  · have same := fit_pending fit
    have ordered := fit.ordered
    rw [Bool.eq_false_iff.mpr calm] at same
    obtain rfl : lo = hi := by
      have := of_decide_eq_false same.symm
      omega
    exact goes lo s fit (Nat.le_refl lo) (.inl rfl)

theorem detach_standing (standing : Standing s) : wp detach (fun _ t => Standing t) Broken s := by
  obtain ⟨lo, hi, fit⟩ := standing
  exact ⟨lo, hi, fit_rebase (fit_member fit rfl rfl rfl rfl rfl rfl rfl fit.dummy)⟩

theorem goal_match (fit : Fit True s s lo hi) (texts : TextsMatch s s.goal) :
    AlikeFrom s.texts lo hi ∧ (s.numWaiting ≠ 0 → s.error = qidLimit → AlikeFrom s.texts lo (s.qId + 1)) := by
  unfold PipelineState.goal at texts
  split at texts
  · have alike := match_all fit texts
    have within := fit.within
    exact ⟨fun e there above below => alike e there above (by omega), fun _ _ => alike⟩
  · rename_i none_
    exact ⟨match_waiting fit texts, fun waiting healthy => absurd ⟨waiting, healthy⟩ none_⟩

-- The state to which issue() has come, of a call that found the pipeline at b.
theorem issue_rest {b t : PipelineState} {lo' : Nat} (fit : Fit True b t lo' lo') (ends : Ends t hi lo' lo') (within : hi ≤ b.qId + 1)
    (accepts : Accepts env b hi) (alike : ¬ t.error < qidLimit → AlikeFrom b.texts lo' (b.qId + 1)) (rest : Pipe Unit)
    (idle : ∀ u, Fit True u u lo' lo' → (u.dummyPending = true → u.unread = []) → wp rest (fun _ v => Standing v) Broken u)
    (sent : ∀ u, Fit True u u lo' (u.qId + 1) → lo' < u.qId + 1 → AlikeFrom u.texts lo' (u.qId + 1) →
      wp rest (fun _ v => Standing v) Broken u) :
    wp (do issue env; rest) (fun _ v => Standing v) Broken t := by
  have inside := fit.within
  rw [wp_bind]
  refine wp_mono (issue_fit fit fun healthy => accepts_after fit ends within accepts healthy) ?_ (fun _ _ => failing_broken)
  rintro _ u ⟨texts, qId, _, ⟨fitted, unread, _⟩ | ⟨fitted, healthy, none_⟩⟩
  · exact idle u fitted fun _ => unread
  · by_cases some_ : lo' < b.qId + 1
    · refine sent u (by rw [qId]; exact fitted) (by rw [qId]; exact some_) ?_
      rw [texts, qId]
      exact alike healthy
    · obtain rfl : lo' = b.qId + 1 := by omega
      exact idle u fitted fun dummy => absurd ((none_ rfl).symm.trans dummy) Bool.false_ne_true

theorem complete_standing (fit : Fit True s s lo hi) (texts : TextsMatch s s.goal) (accepted : BatchAccepted env s []) :
    wp (complete env) (fun _ t => Standing t) Broken s := by
  obtain ⟨alike, further⟩ := goal_match fit texts
  rw [complete, wp_bind, wp_get]
  refine when_pending fit alike fun end_ t received onward ends => ?_
  rw [wp_bind, wp_get, wp_bind]
  refine wp_when _ _ _ _ _ (fun more => ?_) (fun _ => detach_standing ⟨end_, end_, fit_rebase received⟩)
  have healthy : s.error = qidLimit := by
    have := received.error
    have := fit.limit
    omega
  refine wp_mono (issue_rest received ends fit.within (accepts_of fit accepted) (fun _ e there above below =>
    further (by rw [← received.numWaiting]; exact more.1) healthy e there (by omega) below) (receive env none) ?_ ?_)
    (fun _ _ standing => detach_standing standing) (fun _ _ => id)
  · intro u fitted fresh
    refine wp_mono (receive_idle_fit fitted fresh none) ?_ (fun _ _ => failing_broken)
    exact fun _ v fitted => ⟨end_, end_, fit_rebase fitted⟩
  · intro u fitted some_ alike
    have goal : (none : Option Nat) = iterAt u.qId (u.qId + 1) := by rw [iterAt, if_neg (by omega)]
    rw [goal]
    refine wp_mono (receive_fit _ fitted (fun _ => alike) some_ (Nat.le_refl _)) ?_ (fun _ _ => failing_broken)
    rintro _ v ⟨lo', hi', fitted, _⟩
    exact ⟨lo', hi', fit_rebase fitted⟩

-- Results that go by a wrong name do not outlast flush(), unless it throws.
theorem flush_standing (fit : Fit True s s lo hi) (safe : TextsMatch s s.second ∨ NoSurplus s) :
    wp (flush env) (fun _ t => Standing t) Broken s := by
  have ordered := fit.ordered
  rw [flush, wp_bind, wp_get, wp_bind]
  refine wp_when _ _ _ _ _ (fun _ => ?_) (fun _ => detach_standing ⟨lo, hi, fit⟩)
  have drops {named : Prop} {t : PipelineState} {end_ : Nat} (received : Fit named s t end_ end_) :
      wp (Prog.modify fun s => { s with first := none, second := none, numWaiting := 0, dummyPending := false, queries := OrdMap.empty })
        (fun _ t => wp detach (fun _ u => Standing u) Broken t) Broken t :=
    detach_standing ⟨_, _, fit_dropped received rfl rfl rfl rfl rfl⟩
  rw [forget, wp_bind, wp_get, wp_bind]
  refine wp_when _ _ _ _ _ (fun pending => ?_) (fun calm => ?_)
  · rcases safe with texts | few
    · refine wp_mono (receive_pending fit (match_waiting fit texts) pending) ?_ (fun _ _ => failing_broken)
      rintro _ t ⟨_, received, _⟩
      exact drops received
    · rw [fit_pending fit] at pending
      have distance := distance_le fit
      unfold NoSurplus at few
      have unnamed : Fit False s s lo hi := { fit with own := False.elim }
      refine wp_mono (receive_all_fit unnamed False.elim (of_decide_eq_true pending) (by omega)) ?_ (fun _ _ => False.elim)
      rintro _ t ⟨_, received⟩
      exact drops received
  · have same := fit_pending fit
    rw [Bool.eq_false_iff.mpr calm] at same
    obtain rfl : lo = hi := by
      have := of_decide_eq_false same.symm
      omega
    exact drops fit

theorem resume_standing (fit : Fit True s s lo hi) (texts : TextsMatch s s.goal) (accepted : BatchAccepted env s []) :
    wp (resume env) (fun _ t => Standing t) Broken s := by
  obtain ⟨alike, further⟩ := goal_match fit texts
  have ordered := fit.ordered
  have rest (t : PipelineState) {lo' hi' : Nat} (received : Fit True s t lo' hi') (onward : lo ≤ lo') (ends : Ends t hi lo' hi') :
      wp (do
          let s ← Prog.get
          if s.havePending = false ∧ s.numWaiting ≠ 0 then do
            issue env
            receiveIfAvailable env
          else pure ()) (fun _ t => Standing t) Broken t := by
    rw [wp_bind, wp_get]
    refine wp_ite _ _ _ _ _ _ (fun more => ?_) (fun _ => ⟨lo', hi', fit_rebase received⟩)
    have idle := more.1
    rw [fit_pending received] at idle
    have ordered := received.ordered
    obtain rfl : lo' = hi' := by
      have := of_decide_eq_false idle
      omega
    have waiting : s.numWaiting ≠ 0 := by
      rw [← received.numWaiting]
      exact more.2
    have receives (u : PipelineState) {x y : Nat} (fitted : Fit True u u x y) (alike : AlikeFrom u.texts x y)
        (fresh : u.dummyPending = true → x = y → u.unread = []) :
        wp (receiveIfAvailable env) (fun _ v => Standing v) Broken u := by
      refine wp_mono (receive_if_available_fit fitted (fun _ => alike) fresh) ?_ (fun _ _ => failing_broken)
      rintro _ v ⟨x, y, fitted, _⟩
      exact ⟨x, y, fit_rebase fitted⟩
    refine issue_rest received ends fit.within (accepts_of fit accepted) (fun healthy e there above below => ?_) (receiveIfAvailable env) ?_ ?_
    · have healthy : s.error = qidLimit := by
        have := received.error
        have := fit.limit
        omega
      exact further waiting healthy e there (by omega) below
    · exact fun u fitted fresh => receives u fitted (fun e _ above below => by omega) fun dummy _ => fresh dummy
    · exact fun u fitted some_ alike => receives u fitted alike fun _ same => by omega
  rw [resume, wp_bind, wp_get, wp_bind]
  refine wp_when _ _ _ _ _ (fun pending => ?_) (fun _ => rest s fit (Nat.le_refl lo) (.inl rfl))
  rw [fit_pending fit] at pending
  have less := of_decide_eq_true pending
  refine wp_mono (receive_if_available_fit fit (fun _ => alike) fun _ same => by omega) ?_ (fun _ _ => failing_broken)
  rintro _ t ⟨lo', hi', received, onward, ends⟩
  exact rest t received onward ends

theorem retain_standing (retainMax : Int) (fit : Fit True s s lo hi)
    (safe : 0 ≤ retainMax → s.numWaiting ≥ retainMax → TextsMatch s s.goal ∧ BatchAccepted env s []) :
    wp (retain env retainMax) (fun _ t => Standing t) Broken s := by
  refine wp_ite _ _ _ _ _ _ (fun _ => ⟨rfl, lo, hi, fit⟩) (fun nonneg => ?_)
  have kept : Fit True { s with retain := retainMax } { s with retain := retainMax } lo hi :=
    fit_rebase (fit_member fit rfl rfl rfl rfl rfl rfl rfl fit.dummy)
  rw [wp_bind, wp_gets, wp_bind, wp_modify, wp_bind, wp_get, wp_bind]
  refine wp_when _ _ _ _ _ (fun full => ?_) (fun _ => ⟨lo, hi, kept⟩)
  obtain ⟨texts, accepted⟩ := safe (by omega) full
  exact resume_standing kept texts accepted

theorem is_finished_same (q : Nat) : (isFinished q s).2 = s := by
  simp only [isFinished, Prog.bind_apply, Prog.get_apply]
  cases s.queries.find q with
  | none => rfl
  | some query =>
      simp only [Prog.ite_apply]
      split
      · rfl
      · simp only [deref, Prog.bind_apply, Prog.gets_apply]
        cases s.first.bind fun id => (s.queries.find id).map (id, ·) with
        | none => rfl
        | some entry => rfl

theorem cancel_standing (turns : Nat) (fit : Fit True s s lo hi) :
    wp (cancelPending env turns) (fun _ t => Standing t) (fun _ t => Standing t) s := by
  induction turns generalizing s lo with
  | zero => exact ⟨lo, hi, fit⟩
  | succ turns ih =>
      have within := fit.within
      rw [cancelPending, wp_bind, wp_get]
      refine wp_ite _ _ _ _ _ _ (fun pending => ?_) (fun _ => ⟨lo, hi, fit⟩)
      rw [fit_pending fit] at pending
      have less := of_decide_eq_true pending
      have ticked : Fit True s { s with clock := s.clock + 1 } lo hi := fit_member fit rfl rfl rfl rfl rfl rfl rfl fit.dummy
      rw [wp_bind, cancelQuery, wp_bind, wp_gets, wp_bind, wp_modify]
      refine wp_ite _ _ _ _ _ _ (fun _ => ?_) (fun _ => ⟨lo, hi, fit_rebase ticked⟩)
      rw [wp_pure]
      obtain ⟨q, found, _⟩ := fit_found ticked lo (Nat.le_refl lo) (by omega)
      have first : s.first = some lo := by rw [fit.first, iterAt, if_pos (by omega)]
      rw [wp_bind]
      refine wp_ok (deref_found _ _ lo q first found) ?_
      rw [wp_bind]
      refine wp_ok (increment_found _ _ lo q first found) ?_
      rw [wp_bind, wp_modify]
      exact ih (fit_cancelled ticked less rfl rfl rfl rfl rfl rfl rfl)

-- retrieve() where query q has been issued, or cannot be: b is what the rest of the call
-- is measured from.
def Staged (env : Backend) (s t : PipelineState) (q : Nat) : Prop :=
  ∃ b lo hi, Fit True b t lo hi ∧ b.texts = s.texts ∧ AlikeFrom b.texts lo hi ∧ (q < hi ∨ lo = hi ∧ t.error ≤ lo) ∧
    (¬ t.error < qidLimit → Accepts env b hi)

-- And where it has been received, or cannot be.
def Served (env : Backend) (s t : PipelineState) (q : Nat) : Prop :=
  ∃ b lo hi was, Fit True b t lo hi ∧ b.texts = s.texts ∧ Ends t was lo hi ∧ was ≤ b.qId + 1 ∧ (q < t.error → q < lo) ∧
    (¬ t.error < qidLimit → Accepts env b was)

theorem not_issued_fit (fit : Fit True s s lo hi) (q : Nat) (inside : q ≤ s.qId) : notIssued q s = (.ok (decide (hi ≤ q)), s) := by
  simp only [notIssued, Prog.bind_apply, Prog.get_apply]
  by_cases more : hi ≤ s.qId
  · have second : s.second = some hi := by rw [fit.second, iterAt, if_pos more]
    have some_ : ¬ s.second = none := by rw [second]; exact Option.some_ne_none hi
    obtain ⟨w, found, _⟩ := fit_found fit hi fit.ordered more
    simp only [if_neg some_, Prog.bind_apply, deref_found s s.second hi w second found, Prog.pure_apply, ge_iff_le]
  · have second : s.second = none := by rw [fit.second, iterAt, if_neg more]
    rw [if_pos second, decide_eq_false (by omega)]
    rfl

theorem issue_for_fit (fit : Fit True s s lo hi) (q : Nat) (inside : q ≤ s.qId)
    (texts : TextsMatch s (if s.second.any (· ≤ q) then none else s.second)) (accepted : BatchAccepted env s []) :
    wp (issueFor env q) (fun _ t => Staged env s t q) Broken s := by
  have accepts := accepts_of fit accepted
  have ordered := fit.ordered
  have second : s.second.any (· ≤ q) = decide (hi ≤ q) := by
    rw [fit.second, iterAt]
    split
    · rfl
    · symm
      simp only [Option.any_none, decide_eq_false_iff_not]
      omega
  rw [second] at texts
  rw [issueFor, wp_bind]
  refine wp_ok (not_issued_fit fit q inside) ?_
  refine wp_ite _ _ _ _ _ _ (fun waiting => ?_) (fun issued => ?_)
  · rw [if_pos waiting] at texts
    have all := match_all fit texts
    have within := fit.within
    have issues (t : PipelineState) {end_ : Nat} (received : Fit True s t end_ end_) (onward : lo ≤ end_) (ends : Ends t hi end_ end_) :
        wp (do let s ← Prog.get; Prog.when (s.error = qidLimit) (issue env)) (fun _ u => Staged env s u q) Broken t := by
      rw [wp_bind, wp_get]
      refine wp_when _ _ _ _ _ (fun healthy => ?_) (fun stuck => ?_)
      · refine wp_mono (issue_fit received fun healthy => accepts_after received ends within accepts healthy) ?_ (fun _ _ => failing_broken)
        rintro _ u ⟨texts, qId, error, ⟨_, _, stuck⟩ | ⟨fitted, _⟩⟩
        · exact absurd healthy (Nat.ne_of_lt stuck)
        · refine ⟨u, end_, s.qId + 1, fitted, texts, ?_, .inl (by omega), fun _ => ?_⟩
          · rw [texts]
            exact fun e there above below => all e there (by omega) below
          · rw [← qId]
            exact accepts_none env u
      · have limit := received.limit
        have stuck : t.error < qidLimit := by omega
        exact ⟨s, end_, end_, received, rfl, fun e _ above below => by omega, .inr ⟨rfl, (received.stopped stuck).2⟩,
          fun healthy => absurd stuck healthy⟩
    have alike : AlikeFrom s.texts lo hi := fun e there above below => all e there above (by omega)
    rw [wp_bind, wp_get, wp_bind]
    refine wp_when _ _ _ _ _ (fun pending => ?_) (fun calm => ?_)
    · refine wp_mono (receive_pending fit alike pending) ?_ (fun _ _ => failing_broken)
      rintro _ t ⟨_, received, onward, ends⟩
      exact issues t received onward ends
    · have same := fit_pending fit
      rw [Bool.eq_false_iff.mpr calm] at same
      obtain rfl : lo = hi := by
        have := of_decide_eq_false same.symm
        omega
      exact issues s fit (Nat.le_refl lo) (.inl rfl)
  · rw [if_neg issued] at texts
    have before : ¬ hi ≤ q := fun above => issued (decide_eq_true above)
    exact ⟨s, lo, hi, fit, rfl, match_waiting fit texts, .inl (by omega), fun _ => accepts⟩

theorem receive_for_fit {t : PipelineState} (q : Nat) (text : String) (there : (q, text) ∈ s.texts) (staged : Staged env s t q) :
    wp (receiveFor env q) (fun _ u => Served env s u q) Broken t := by
  obtain ⟨b, lo, hi, fit, texts, alike, issued, accepts⟩ := staged
  have within := fit.within
  have ordered := fit.ordered
  have pending := fit_pending fit
  rw [receiveFor, wp_bind, wp_get]
  refine wp_ite _ _ _ _ _ _ (fun busy => ?_) (fun calm => ?_)
  · rw [busy] at pending
    have less := of_decide_eq_true pending.symm
    have healthy : ¬ t.error < qidLimit := fun stuck => by
      have := (fit.stopped stuck).1
      omega
    have issued : q < hi := by omega
    obtain ⟨w, found, _⟩ := fit_found fit lo (Nat.le_refl lo) (by omega)
    have first : t.first = some lo := by rw [fit.first, iterAt, if_pos (by omega)]
    rw [wp_bind]
    refine wp_ok (deref_found _ _ lo w first found) ?_
    refine wp_ite _ _ _ _ _ _ (fun later => ?_) (fun earlier => ?_)
    · rw [← texts, ← fit.texts, mem_texts] at there
      obtain ⟨query, known, _⟩ := there
      rw [wp_bind]
      refine wp_ok (increment_found _ _ q query rfl known) ?_
      rw [fit_next fit q (by omega)]
      refine wp_mono (receive_fit (q + 1) fit (fun _ => alike) (by omega) issued) ?_ (fun _ _ => failing_broken)
      rintro _ u ⟨lo', hi', fitted, _, ends, far⟩
      exact ⟨b, lo', hi', hi, fitted, texts, ends, within, fun live => by omega, fun _ => accepts healthy⟩
    · refine wp_mono (receive_if_available_fit fit (fun _ => alike) fun _ same => by omega) ?_ (fun _ _ => failing_broken)
      rintro _ u ⟨lo', hi', fitted, onward, ends⟩
      exact ⟨b, lo', hi', hi, fitted, texts, ends, within, fun _ => by omega, fun _ => accepts healthy⟩
  · rw [Bool.eq_false_iff.mpr calm] at pending
    have idle := of_decide_eq_false pending.symm
    exact ⟨b, lo, hi, hi, fit, texts, .inl rfl, within, fun live => by omega, accepts⟩

theorem broken_named (text : String) {stop : Stop} {t : PipelineState} (broken : Broken stop t) : NamedAs text (.error stop) ∧ Standing t := by
  refine ⟨?_, broken.2⟩
  cases stop with
  | endDereferenced => trivial
  | thrown e => exact fun sql => absurd (broken.1.symm.trans (decide_eq_true sql)) Bool.false_ne_true

theorem take_result_named {b : PipelineState} (fit : Fit True b s lo hi) (q : Nat) (text : String) (there : (q, text) ∈ b.texts)
    (received : q < lo) :
    wp (takeResult q) (fun got t => got.2.query = text ∧ Standing t) (fun stop t => NamedAs text (.error stop) ∧ Standing t) s := by
  rw [← fit.texts, mem_texts] at there
  obtain ⟨query, found, rfl⟩ := there
  have forgotten : Standing { s with queries := s.queries.erase q } := ⟨lo, hi, fit_forget fit q received rfl rfl rfl rfl rfl fit.dummy⟩
  rw [takeResult, wp_bind]
  refine wp_ok (deref_found _ _ q query rfl found) ?_
  rw [wp_bind, wp_modify]
  cases stored : query.res with
  | none => exact ⟨fun sql => ExnKind.noConfusion sql, forgotten⟩
  | some r =>
      have own := fit.own trivial q query r found stored
      rw [wp_bind]
      cases outcome : r.outcome with
      | rows rows =>
          have status : r.checkStatus = .ok () := by rw [Result.checkStatus, outcome]
          rw [status]
          exact ⟨own, forgotten⟩
      | failed message =>
          have status : r.checkStatus = .error { kind := .sqlError, what := message, query := r.query } := by
            rw [Result.checkStatus, outcome]
          rw [status]
          exact ⟨fun _ => own, forgotten⟩

theorem retrieve_at_named (fit : Fit True s s lo hi) (q : Nat) (query : Query) (found : s.queries.find q = some query)
    (safe : RetrieveSafe env s q) :
    wp (retrieveAt env (some q)) (fun got t => got.2.query = query.query ∧ Standing t)
      (fun stop t => NamedAs query.query (.error stop) ∧ Standing t) s := by
  have there : (q, query.query) ∈ s.texts := mem_texts.mpr ⟨query, found, rfl⟩
  have earlier {t : PipelineState} (standing : Standing t) :
      wp (earlierError : Pipe (Nat × Result)) (fun got t => got.2.query = query.query ∧ Standing t)
        (fun stop t => NamedAs query.query (.error stop) ∧ Standing t) t := ⟨fun sql => ExnKind.noConfusion sql, standing⟩
  rw [retrieveAt, wp_bind, wp_get]
  refine wp_ite _ _ _ _ _ _ (fun _ => earlier ⟨lo, hi, fit⟩) (fun live => ?_)
  obtain ⟨texts, accepted⟩ := safe (by rw [found]; rfl) (by omega)
  rw [wp_bind]
  refine wp_mono (issue_for_fit fit q (fit_known fit q query found) texts accepted) ?_ (fun _ _ => broken_named _)
  intro _ t staged
  rw [wp_bind]
  refine wp_mono (receive_for_fit q query.query there staged) ?_ (fun _ _ => broken_named _)
  rintro _ u ⟨b, lo', hi', was, fitted, same, ends, within, passed, accepts⟩
  rw [← same] at there
  rw [wp_bind, wp_get]
  refine wp_ite _ _ _ _ _ _ (fun _ => earlier ⟨lo', hi', fit_rebase fitted⟩) (fun live => ?_)
  have received : q < lo' := passed (by omega)
  rw [wp_bind]
  refine wp_when _ _ _ _ _ (fun idle => ?_) (fun _ => take_result_named fitted q _ there received)
  obtain ⟨_, calm, _⟩ := idle
  rw [fit_pending fitted] at calm
  have ordered := fitted.ordered
  obtain rfl : lo' = hi' := by
    have := of_decide_eq_false calm
    omega
  refine wp_mono (issue_fit fitted fun healthy => accepts_after fitted ends within (accepts healthy) healthy) ?_
    (fun _ _ failed => broken_named _ (failing_broken failed))
  rintro _ v ⟨texts, _, _, ⟨after, _⟩ | ⟨after, _⟩⟩
  · exact take_result_named after q _ (by rw [texts]; exact there) received
  · exact take_result_named after q _ (by rw [texts]; exact there) received

theorem retrieve_named (q : Nat) (safe : RetrieveSafe env s q) (standing : Standing s) :
    wp (retrieve env q) (fun r t => (∀ query, s.queries.find q = some query → NamedAs query.query (.ok r)) ∧ Standing t)
      (fun stop t => (∀ query, s.queries.find q = some query → NamedAs query.query (.error stop)) ∧ Standing t) s := by
  obtain ⟨lo, hi, fit⟩ := standing
  rw [retrieve, wp_bind, wp_get]
  cases found : s.queries.find q with
  | none => exact ⟨fun _ same => (by cases same), lo, hi, fit⟩
  | some query =>
      rw [wp_bind]
      refine wp_mono (retrieve_at_named fit q query found safe) ?_ ?_
      · rintro got t ⟨named, standing⟩
        exact ⟨fun _ same => by rw [← Option.some.inj same]; exact named, standing⟩
      · rintro stop t ⟨named, standing⟩
        exact ⟨fun _ same => by rw [← Option.some.inj same]; exact named, standing⟩

theorem retrieve_oldest_named (safe : ∀ q ∈ s.queries.begin, RetrieveSafe env s q) (standing : Standing s) :
    wp (retrieveOldest env)
      (fun got t => (∀ id query, s.queries.begin = some id → s.queries.find id = some query → NamedAs query.query (.ok got.2)) ∧ Standing t)
      (fun stop t => (∀ id query, s.queries.begin = some id → s.queries.find id = some query → NamedAs query.query (.error stop)) ∧
        Standing t) s := by
  obtain ⟨lo, hi, fit⟩ := standing
  rw [retrieveOldest, wp_bind, wp_get]
  cases texts : s.texts with
  | nil =>
      rw [begin_missing texts]
      exact ⟨fun _ _ same => (by cases same), lo, hi, fit⟩
  | cons oldest rest =>
      obtain ⟨w, begun, there, _⟩ := begin_oldest texts
      have named {stop : Except Stop Result} (as_ : NamedAs w.query stop) (id : Nat) (query : Query) (at_ : some oldest.1 = some id)
          (found : s.queries.find id = some query) : NamedAs query.query stop := by
        obtain rfl := Option.some.inj at_
        rw [there] at found
        obtain rfl := Option.some.inj found
        exact as_
      have spec := retrieve_at_named fit oldest.1 w there (safe oldest.1 begun)
      rw [begun]
      refine wp_mono spec ?_ ?_
      · rintro _ _ ⟨as_, standing⟩
        exact ⟨named as_, standing⟩
      · rintro _ _ ⟨as_, standing⟩
        exact ⟨named as_, standing⟩

theorem call_standing (op : PipelineOp) (safe : AttributionSafe env s op) (standing : Standing s) :
    wp (op.call env) (fun _ t => Standing t) (fun _ t => Standing t) s := by
  have dropped {α : Type} {m : Pipe α} (call : wp m (fun _ t => Standing t) (fun _ t => Standing t) s) :
      wp (m >>= fun _ => pure ()) (fun _ t => Standing t) (fun _ t => Standing t) s := (wp_bind _ _ _ _ _).mpr call
  have broken {α : Type} {m : Pipe α} (call : wp m (fun _ t => Standing t) Broken s) :
      wp m (fun _ t => Standing t) (fun _ t => Standing t) s := wp_mono call (fun _ _ => id) (fun _ _ failed => failed.2)
  obtain ⟨lo, hi, fit⟩ := standing
  cases op with
  | insert query => exact dropped (broken (insert_standing fit query safe))
  | complete => exact broken (complete_standing fit safe.1 safe.2)
  | flush => exact broken (flush_standing fit safe)
  | cancel =>
      rw [PipelineOp.call, cancel, wp_bind, wp_gets]
      exact cancel_standing _ fit
  | isFinished q =>
      refine dropped ?_
      have same := @is_finished_same s q
      unfold wp
      split
      · rename_i outcome
        rw [outcome] at same
        obtain rfl := same
        exact ⟨lo, hi, fit⟩
      · rename_i outcome
        rw [outcome] at same
        obtain rfl := same
        exact ⟨lo, hi, fit⟩
  | retain retainMax => exact dropped (broken (retain_standing retainMax fit safe))
  | resume => exact broken (resume_standing fit safe.1 safe.2)
  | retrieve q =>
      exact dropped (wp_mono (retrieve_named q safe ⟨lo, hi, fit⟩) (fun _ _ named => named.2) (fun _ _ named => named.2))
  | retrieveOldest =>
      exact dropped (wp_mono (retrieve_oldest_named safe ⟨lo, hi, fit⟩) (fun _ _ named => named.2) (fun _ _ named => named.2))

theorem step_attributed (op : PipelineOp) (safe : AttributionSafe env s op) (standing : Standing s) :
    Standing (pipelineStep env s op) ∧ Attributed env s op := by
  have next : Standing (pipelineStep env s op) := by
    have call := call_standing op safe standing
    unfold wp at call
    unfold pipelineStep
    split at call
    · rename_i outcome
      rw [outcome]
      exact call
    · rename_i outcome
      rw [outcome]
      exact call
  refine ⟨next, ?_, ?_, ?_⟩
  · obtain ⟨lo, hi, fit⟩ := next
    exact fit.own trivial
  · rintro id q rfl found
    have named := retrieve_named id safe standing
    unfold wp at named
    split at named
    · rename_i outcome
      rw [outcome]
      exact named.1 q found
    · rename_i outcome
      rw [outcome]
      exact named.1 q found
  · rintro id q rfl begun found
    have named := retrieve_oldest_named safe standing
    unfold wp at named
    split at named
    · rename_i outcome
      rw [outcome]
      exact named.1 id q begun found
    · rename_i outcome
      rw [outcome]
      exact named.1 id q begun found

end

theorem start_standing : Standing .start := by
  have nothing : ∀ id, PipelineState.start.queries.find id = none := fun _ => rfl
  exact ⟨1, 1, {
    texts := rfl, qId := rfl, executed := rfl, numWaiting := rfl, error := Nat.le_refl _, first := rfl, second := rfl
    ordered := Nat.le_refl _, within := Nat.le_refl _, bounded := Nat.zero_le _, limit := Nat.le_refl _
    known := fun _ there => absurd there List.not_mem_nil
    full := fun id from_ inside => absurd (Nat.le_trans from_ inside) (by decide)
    blank := fun id q there => by rw [nothing id] at there; cases there
    own := fun _ id q r there => by rw [nothing id] at there; cases there
    stopped := fun stuck => absurd stuck (Nat.lt_irrefl _), dummy := fun _ less => absurd less (Nat.lt_irrefl _) }⟩

-- When obtain_result() stores a result: it goes by the name of its query exactly if that
-- is the name of the oldest query in the map too.
def StoredByName (expectNone : Bool) (s : PipelineState) : Prop :=
  (obtainResult expectNone s).1 = .ok true → ∀ id q, s.first = some id → s.queries.find id = some q →
    ∀ q' r, (obtainResult expectNone s).2.queries.find id = some q' → q'.res = some r →
      (r.query = q.query ↔ ∀ j oldest, s.queries.begin = some j → s.queries.find j = some oldest → oldest.query = q.query)

theorem stored_by_name (expectNone : Bool) (s : PipelineState) : StoredByName expectNone s := by
  intro got id q first found q' r there stored
  cases unread : s.unread with
  | nil =>
      have none_ : obtainResult expectNone s = noResult expectNone { s with active := false } := by
        simp only [obtainResult, Prog.bind_apply, get_result_null s unread]
      have never : wp (noResult expectNone) (fun got _ => got = false) (fun _ _ => True) { s with active := false } := by
        rw [noResult, wp_bind, wp_get]
        refine wp_ite _ _ _ _ _ _ (fun _ => ?_) (fun _ => rfl)
        exact wp_last fun _ _ => wp_last fun _ _ => wp_last fun _ _ => rfl
      rw [none_] at got
      cases wp_returned never got
  | cons outcome rest =>
      have one : obtainResult expectNone s = gotResult outcome { s with unread := rest } := by
        simp only [obtainResult, Prog.bind_apply, get_result_next s outcome rest unread]
      rw [one] at got there
      have member : (id, q.query) ∈ s.texts := mem_texts.mpr ⟨q, found, rfl⟩
      cases texts : s.texts with
      | nil =>
          rw [texts] at member
          cases member
      | cons oldest others =>
          obtain ⟨w, begun, known, name⟩ := begin_oldest texts
          have reached : s.havePending = true ∧ q.isEmpty = true := by
            have begins := deref_found { s with unread := rest } _ _ w begun known
            have points := deref_found { s with unread := rest } s.first id q first found
            have same : ({ s with unread := rest } : PipelineState).havePending = s.havePending := rfl
            simp only [gotResult, Prog.bind_apply, Prog.get_apply, begins, same] at got
            cases pending : s.havePending with
            | false =>
                simp only [pending, if_true, Prog.bind_apply, setErrorAt, Prog.modify_apply, raise, Prog.throw_apply] at got
                cases got
            | true =>
                simp only [pending, Bool.true_eq_false, if_false, Prog.bind_apply, points] at got
                cases empty : q.isEmpty with
                | true => exact ⟨rfl, rfl⟩
                | false =>
                    simp only [empty, if_true, internalError, Prog.bind_apply, setErrorAt, Prog.modify_apply, Prog.throw_apply] at got
                    cases got
          rw [@got_result_names { s with unread := rest } outcome id q reached.1 first found reached.2 oldest others texts] at there
          simp only [OrdMap.find_map_values, found, Option.map_some, if_true, Option.some.injEq] at there
          subst there
          obtain rfl := Option.some.inj stored
          constructor
          · intro same j old at_ old_
            rw [begun] at at_
            obtain rfl := Option.some.inj at_
            rw [known] at old_
            obtain rfl := Option.some.inj old_
            exact name.trans same
          · exact fun each => name.symm.trans (each oldest.1 w begun known)

-- Each obtain_result() by itself, and whole runs whose calls keep to the condition.
theorem pipeline_attribution (env : Backend) (ops : List PipelineOp) (safe : Along (AttributionSafe env) (pipelineStep env) .start ops) :
    Along (Attributed env) (pipelineStep env) .start ops ∧ ∀ expectNone s, StoredByName expectNone s := by
  refine ⟨?_, stored_by_name⟩
  exact along_invariant (AttributionSafe env) (Attributed env) (pipelineStep env) Standing
    (fun _ op safe standing => step_attributed op safe standing) .start ops safe start_standing

-- The second query fails, and is retrieved by its own name.
def fussyBackend : Backend :=
  { rejects := fun _ _ => none, answer := fun _ query => some (if query = "SELEC" then .failed "syntax error" else .rows [[query]])
    consumeInput := fun _ => true, isBusy := fun _ => false, cancels := fun _ => true }

theorem pipeline_attribution_kept :
    ∃ s, run (pipelineStep fussyBackend) .start [.insert "SELECT 1", .retrieve 1, .insert "SELEC", .complete] = s ∧
      NamedAs "SELEC" (retrieve fussyBackend 2 s).1 := by
  obtain ⟨s, reached⟩ : ∃ s, run (pipelineStep fussyBackend) .start [.insert "SELECT 1", .retrieve 1, .insert "SELEC", .complete] = s :=
    ⟨_, rfl⟩
  have named : (s.queries.find 2).map Query.query = some "SELEC" := by
    rw [← reached]
    decide +kernel
  obtain ⟨q, found, text⟩ := Option.map_eq_some_iff.mp named
  have attributed := (pipeline_attribution fussyBackend
    ([.insert "SELECT 1", .retrieve 1, .insert "SELEC", .complete] ++ [.retrieve 2]) (by decide +kernel)).1
  rw [along_append, reached] at attributed
  refine ⟨s, reached, ?_⟩
  rw [← text]
  exact attributed.2.1.retrieved 2 q rfl found

-- Two queries in one batch: the result of the second goes by the name of the first.
theorem pipeline_attribution_fails :
    ¬ (∀ (env : Backend) (ops : List PipelineOp), Along (Attributed env) (pipelineStep env) .start ops) := by
  intro claimed
  have attributed := claimed fussyBackend ([.retain 10, .insert "SELECT 1", .insert "SELECT 2"] ++ [.complete])
  rw [along_append] at attributed
  have stored := attributed.2.1.stored 2
  obtain ⟨t, reached⟩ : ∃ t, pipelineStep fussyBackend (run (pipelineStep fussyBackend) .start [.retain 10, .insert "SELECT 1",
    .insert "SELECT 2"]) .complete = t := ⟨_, rfl⟩
  rw [reached] at stored
  have wrong : t.queries.find 2 = some { query := "SELECT 2", res := some { outcome := .rows [["SELECT 2"]], query := "SELECT 1" } } := by
    rw [← reached]
    decide +kernel
  exact absurd (stored _ _ wrong rfl) (by decide)

end Pqxx
