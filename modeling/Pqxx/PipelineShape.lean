import Pqxx.PipelineInvariant

set_option autoImplicit false

namespace Pqxx

open Lib Prog

-- The texts of the queries in the map, with their ids.
def PipelineState.texts (s : PipelineState) : List (Nat × String) := s.queries.entries.map fun e => (e.1, e.2.query)

-- Each query from lo on and below hi has the text of the oldest.
def AlikeFrom (texts : List (Nat × String)) (lo hi : Nat) : Prop :=
  ∀ e ∈ texts, lo ≤ e.1 → e.1 < hi → ∀ oldest, texts.head? = some oldest → oldest.2 = e.2

-- The pipeline as it stands while a call is under way that found it at b: which queries
-- there are is as it was, the range of those issued lies where the iterators say, and,
-- if named, each result stored has its query's text. Nothing is said of what the results are.
structure Fit (named : Prop) (b s : PipelineState) (lo hi : Nat) : Prop where
  texts : s.texts = b.texts
  qId : s.qId = b.qId
  executed : s.executed = b.executed
  numWaiting : s.numWaiting = b.numWaiting
  error : s.error ≤ b.error
  first : s.first = iterAt b.qId lo
  second : s.second = iterAt b.qId hi
  ordered : lo ≤ hi
  within : hi ≤ b.qId + 1
  known : ∀ e ∈ b.texts, e.1 ≤ b.qId
  full : ∀ id, lo ≤ id → id ≤ b.qId → ∃ text, (id, text) ∈ b.texts
  blank : ∀ id q, s.queries.find id = some q → lo ≤ id → q.res = none
  own : named → ∀ id q r, s.queries.find id = some q → q.res = some r → r.query = q.query
  bounded : b.qId ≤ qidLimit
  limit : s.error ≤ qidLimit
  stopped : s.error < qidLimit → lo = hi ∧ s.error ≤ lo
  dummy : s.dummyPending = true → lo < hi → ∃ rest, s.unread = .rows [[theDummyValue]] :: rest

-- The range ends where it did, or was cut short there, behind the last result.
def Ends (t : PipelineState) (hi lo' hi' : Nat) : Prop := hi' = hi ∨ lo' = hi' ∧ hi' < hi ∧ t.error ≤ lo'

-- An exception that is not a query's.
def Stop.sql : Stop → Bool
  | .thrown e => e.kind = .sqlError
  | .endDereferenced => false

def Failing (named : Prop) (b : PipelineState) (stop : Stop) (t : PipelineState) : Prop := stop.sql = false ∧ ∃ lo hi, Fit named b t lo hi

theorem mem_texts {s : PipelineState} {id : Nat} {text : String} :
    (id, text) ∈ s.texts ↔ ∃ q, s.queries.find id = some q ∧ q.query = text := by
  simp only [PipelineState.texts, List.mem_map, Prod.mk.injEq]
  constructor
  · rintro ⟨⟨id, q⟩, there, rfl, rfl⟩
    exact ⟨q, (s.queries.mem_entries_iff id q).mp there, rfl⟩
  · rintro ⟨q, found, rfl⟩
    exact ⟨(id, q), (s.queries.mem_entries_iff id q).mpr found, rfl, rfl⟩

theorem texts_sorted (s : PipelineState) : s.texts.Pairwise fun a b => a.1 < b.1 := List.pairwise_map.mpr s.queries.sorted

theorem texts_map_values (m : OrdMap Nat Query) (f : Nat → Query → Query) (same : ∀ id q, (f id q).query = q.query) :
    (m.mapValues f).entries.map (fun e => (e.1, e.2.query)) = m.entries.map fun e => (e.1, e.2.query) := by
  simp only [OrdMap.mapValues, List.map_map, Function.comp_def, same]

theorem set_error_at_le {s : PipelineState} (limit : s.error ≤ qidLimit) (qid : Nat) :
    (s.setErrorAt qid).error ≤ qidLimit ∧ (s.setErrorAt qid).error ≤ qid ∧ (s.setErrorAt qid).error ≤ s.error := by
  unfold PipelineState.setErrorAt
  split
  · rename_i less
    exact ⟨by show qid ≤ qidLimit; omega, Nat.le_refl _, Nat.le_of_lt less⟩
  · rename_i more
    exact ⟨limit, by omega, Nat.le_refl _⟩

theorem set_error_at_rest (s : PipelineState) (qid : Nat) : s.setErrorAt qid = { s with error := (s.setErrorAt qid).error } := by
  unfold PipelineState.setErrorAt
  split <;> rfl

section

variable {env : Backend} {named : Prop} {b s : PipelineState} {lo hi : Nat}

theorem fit_pending (fit : Fit named b s lo hi) : s.havePending = decide (lo < hi) := by
  have within := fit.within
  have ordered := fit.ordered
  simp only [PipelineState.havePending, fit.first, fit.second, decide_eq_decide]
  constructor
  · intro different
    have : lo ≠ hi := fun same => different (by rw [same])
    omega
  · intro less same
    have := iter_at_inj (by omega) (by omega) same
    omega

theorem fit_found (fit : Fit named b s lo hi) (id : Nat) (from_ : lo ≤ id) (inside : id ≤ b.qId) :
    ∃ q, s.queries.find id = some q ∧ q.res = none := by
  obtain ⟨text, there⟩ := fit.full id from_ inside
  rw [← fit.texts, mem_texts] at there
  obtain ⟨q, found, _⟩ := there
  exact ⟨q, found, fit.blank id q found from_⟩

theorem fit_known (fit : Fit named b s lo hi) (id : Nat) (q : Query) (found : s.queries.find id = some q) : id ≤ b.qId :=
  fit.known (id, q.query) (by rw [← fit.texts, mem_texts]; exact ⟨q, found, rfl⟩)

theorem fit_next (fit : Fit named b s lo hi) (id : Nat) (from_ : lo ≤ id + 1) : s.queries.next id = iterAt b.qId (id + 1) := by
  unfold iterAt
  by_cases more : id + 1 ≤ b.qId
  · rw [if_pos more]
    obtain ⟨q, found, _⟩ := fit_found fit (id + 1) from_ more
    exact s.queries.next_eq_some id (id + 1) q found (by omega) fun _ _ _ less => less
  · rw [if_neg more]
    refine s.queries.next_eq_none id fun i w there => ?_
    have := fit_known fit i w there
    omega

-- The oldest query, which begin() points at.
theorem begin_oldest {oldest : Nat × String} {rest : List (Nat × String)} (texts : s.texts = oldest :: rest) :
    ∃ q, s.queries.begin = some oldest.1 ∧ s.queries.find oldest.1 = some q ∧ q.query = oldest.2 := by
  unfold PipelineState.texts at texts
  cases entries : s.queries.entries with
  | nil =>
      rw [entries] at texts
      cases texts
  | cons head tail =>
      rw [entries, List.map_cons, List.cons.injEq] at texts
      obtain ⟨rfl, _⟩ := texts
      refine ⟨head.2, ?_, ?_, rfl⟩
      · rw [OrdMap.begin, entries]
        rfl
      · rw [← OrdMap.mem_entries_iff, entries]
        exact List.mem_cons_self

theorem begin_missing (texts : s.texts = []) : s.queries.begin = none := by
  have none_ : s.queries.entries = [] := List.map_eq_nil_iff.mp texts
  rw [OrdMap.begin, none_]
  rfl

-- The oldest query's text goes with the result, whichever query the result is for.
theorem got_result_names (outcome : Outcome) (here : Nat) (q : Query) (pending : s.havePending = true) (first : s.first = some here)
    (found : s.queries.find here = some q) (blank : q.isEmpty = true) (oldest : Nat × String) (rest : List (Nat × String))
    (texts : s.texts = oldest :: rest) :
    gotResult outcome s = (.ok true, { s with
      first := s.queries.next here
      queries := s.queries.mapValues fun k q => if k = here then { q with res := some { outcome, query := oldest.2 } } else q }) := by
  obtain ⟨w, begun, there, text⟩ := begin_oldest texts
  have notCalm : ¬ s.havePending = false := by simp [pending]
  have notFull : ¬ q.isEmpty = false := by simp [blank]
  simp only [gotResult, Prog.bind_apply, Prog.get_apply, deref_found s _ _ w begun there, if_neg notCalm,
    deref_found s _ here q first found, if_neg notFull, setResult, Prog.modify_apply, text]
  have stored : (s.queries.mapValues fun k q => if k = here then { q with res := some { outcome, query := oldest.2 } } else q).find
      here = some { q with res := some { outcome, query := oldest.2 } } := by
    simp only [OrdMap.find_map_values, found, Option.map_some, if_true]
  rw [increment_found _ s.first here _ first stored, OrdMap.next_map_values]
  rfl

-- The state of libpq's side and what is on record may change at will, short of a dummy.
theorem fit_member (fit : Fit named b s lo hi) {t : PipelineState} (queries : t.queries = s.queries) (first : t.first = s.first)
    (second : t.second = s.second) (qId : t.qId = s.qId) (error : t.error = s.error) (executed : t.executed = s.executed)
    (numWaiting : t.numWaiting = s.numWaiting)
    (dummy : t.dummyPending = true → lo < hi → ∃ rest, t.unread = .rows [[theDummyValue]] :: rest) : Fit named b t lo hi where
  texts := by rw [PipelineState.texts, queries]; exact fit.texts
  qId := qId.trans fit.qId
  executed := executed.trans fit.executed
  numWaiting := numWaiting.trans fit.numWaiting
  error := by rw [error]; exact fit.error
  first := first.trans fit.first
  second := second.trans fit.second
  ordered := fit.ordered
  within := fit.within
  known := fit.known
  full := fit.full
  bounded := fit.bounded
  blank := by rw [queries]; exact fit.blank
  own := by rw [queries]; exact fit.own
  limit := by rw [error]; exact fit.limit
  stopped := by rw [error]; exact fit.stopped
  dummy := dummy

theorem fit_error (fit : Fit named b s lo lo) (qid : Nat) (below : qid ≤ lo) : Fit named b (s.setErrorAt qid) lo lo := by
  obtain ⟨limit, less, earlier⟩ := set_error_at_le fit.limit qid
  rw [set_error_at_rest]
  exact { fit with error := Nat.le_trans earlier fit.error, limit := limit, stopped := fun _ => ⟨rfl, Nat.le_trans less below⟩ }

-- The oldest query is not beyond the range.
theorem oldest_below (fit : Fit named b s lo lo) (oldest : Nat × String) (rest : List (Nat × String)) (texts : s.texts = oldest :: rest) :
    oldest.1 ≤ lo := by
  have within := fit.within
  have there : oldest ∈ b.texts := by
    rw [← fit.texts, texts]
    exact List.mem_cons_self
  have known := fit.known oldest there
  by_cases more : lo ≤ b.qId
  · obtain ⟨text, found⟩ := fit.full lo (Nat.le_refl lo) more
    rw [← fit.texts, texts] at found
    have sorted := texts_sorted s
    rw [texts] at sorted
    rcases List.mem_cons.mp found with rfl | later
    · exact Nat.le_refl _
    · exact Nat.le_of_lt (List.rel_of_pairwise_cons sorted later)
  · omega

theorem fit_cut (fit : Fit named b s lo hi) (pending : lo < hi) : Fit named b { s.setErrorAt lo with second := s.first } lo lo := by
  have within := fit.within
  obtain ⟨limit, less, earlier⟩ := set_error_at_le fit.limit lo
  rw [set_error_at_rest]
  exact { fit with
    error := Nat.le_trans earlier fit.error, second := fit.first, ordered := Nat.le_refl _, within := by omega, limit := limit
    stopped := fun _ => ⟨rfl, less⟩, dummy := fun _ none_ => absurd none_ (Nat.lt_irrefl lo) }

-- One more result goes to the oldest query that has none.
theorem fit_received (fit : Fit named b s lo hi) (pending : lo < hi) (noDummy : s.dummyPending = false) (outcome : Outcome)
    (unread : List Outcome) (text : String) (own : named → ∀ q, s.queries.find lo = some q → text = q.query) :
    Fit named b { s with
      unread := unread, first := s.queries.next lo
      queries := s.queries.mapValues fun k q => if k = lo then { q with res := some { outcome, query := text } } else q }
      (lo + 1) hi := by
  have within := fit.within
  have healthy : ¬ s.error < qidLimit := fun less => by
    have := (fit.stopped less).1
    omega
  have found : ∀ id q, (s.queries.mapValues fun k q => if k = lo then { q with res := some { outcome, query := text } } else q).find
      id = some q → ∃ old, s.queries.find id = some old ∧ q.query = old.query ∧
        q.res = if id = lo then some { outcome, query := text } else old.res := by
    intro id q there
    rw [OrdMap.find_map_values, Option.map_eq_some_iff] at there
    obtain ⟨old, there, rfl⟩ := there
    refine ⟨old, there, ?_, ?_⟩ <;> split <;> rfl
  refine { fit with
    texts := ?_, first := fit_next fit lo (by omega), ordered := by omega
    full := fun id from_ inside => fit.full id (by omega) inside, blank := ?_, own := ?_
    stopped := fun less => absurd less healthy, dummy := fun dummy => absurd (noDummy.symm.trans dummy) Bool.noConfusion }
  · rw [← fit.texts]
    refine texts_map_values s.queries _ fun id q => ?_
    split <;> rfl
  · intro id q there from_
    obtain ⟨old, before, _, res⟩ := found id q there
    rw [if_neg (by omega)] at res
    rw [res]
    exact fit.blank id old before (by omega)
  · intro good id q r there stored
    obtain ⟨old, before, same, res⟩ := found id q there
    rw [res] at stored
    split at stored
    · rename_i here
      subst here
      obtain rfl := Option.some.inj stored
      exact (own good old before).trans same.symm
    · rw [same]
      exact fit.own good id old r before stored

theorem obtain_fit (fit : Fit named b s lo hi) (alike : named → AlikeFrom b.texts lo hi) (noDummy : s.dummyPending = true → lo = hi) :
    wp (obtainResult false)
      (fun got t => ∃ lo' hi', Fit named b t lo' hi' ∧ t.dummyPending = s.dummyPending ∧
        (got = true ∧ lo < hi ∧ lo' = lo + 1 ∧ hi = hi' ∧ t.unread.length + 1 = s.unread.length ∨
          got = false ∧ lo = lo' ∧ lo = hi' ∧ t.unread = [] ∧ t.active = false ∧ (lo < hi → t.error ≤ lo) ∧
            (lo = hi → t.error = s.error)))
      (fun stop t => lo = hi ∧ s.unread ≠ [] ∧ Failing named b stop t) s := by
  have ordered := fit.ordered
  have within := fit.within
  have pending := fit_pending fit
  cases unread : s.unread with
  | nil =>
      have idle : Fit named b { s with active := false } lo hi := fit_member fit rfl rfl rfl rfl rfl rfl rfl fit.dummy
      by_cases less : lo < hi
      · obtain ⟨q, found, _⟩ := fit_found fit lo (Nat.le_refl lo) (by omega)
        have first : ({ s with active := false } : PipelineState).first = some lo := by
          rw [show ({ s with active := false } : PipelineState).first = s.first from rfl, fit.first, iterAt, if_pos (by omega)]
        have cut := no_result_cut { s with active := false } lo q ((fit_pending idle).trans (decide_eq_true less)) first found
        refine wp_ok (by simp only [obtainResult, Prog.bind_apply, get_result_null s unread, cut]; rfl) ?_
        refine ⟨lo, lo, fit_cut idle less, ?_, .inr ⟨rfl, rfl, rfl, ?_, ?_, fun _ => (set_error_at_le idle.limit lo).2.1, fun same => ?_⟩⟩
        · rw [set_error_at_rest]
        · rw [set_error_at_rest]
          exact unread
        · rw [set_error_at_rest]
        · omega
      · obtain rfl : lo = hi := by omega
        have calm := no_result_calm { s with active := false } false (.inl ((fit_pending idle).trans (decide_eq_false less)))
        refine wp_ok (by simp only [obtainResult, Prog.bind_apply, get_result_null s unread, calm]; rfl) ?_
        exact ⟨lo, lo, idle, rfl, .inr ⟨rfl, rfl, rfl, unread, rfl, fun none_ => absurd none_ less, fun _ => rfl⟩⟩
  | cons outcome rest =>
      have got : obtainResult false s = gotResult outcome { s with unread := rest } := by
        simp only [obtainResult, Prog.bind_apply, get_result_next s outcome rest unread]
      by_cases less : lo < hi
      · have dummy : s.dummyPending = false := Bool.eq_false_iff.mpr fun there => by
          have := noDummy there
          omega
        obtain ⟨q, found, blank⟩ := fit_found fit lo (Nat.le_refl lo) (by omega)
        obtain ⟨text, member⟩ := fit.full lo (Nat.le_refl lo) (by omega)
        cases texts : s.texts with
        | nil =>
            rw [← fit.texts, texts] at member
            cases member
        | cons oldest others =>
            have first : s.first = some lo := by rw [fit.first, iterAt, if_pos (by omega)]
            have empty : q.isEmpty = true := by rw [Query.isEmpty, blank]; rfl
            have stored := @got_result_names { s with unread := rest } outcome lo q (pending.trans (decide_eq_true less))
              first found empty oldest others texts
            refine wp_ok (got.trans stored) ⟨lo + 1, hi, ?_, rfl, .inl ⟨rfl, less, rfl, rfl, rfl⟩⟩
            refine fit_received fit less dummy outcome rest oldest.2 fun good w there => ?_
            have same : (lo, w.query) ∈ b.texts := by
              rw [← fit.texts, mem_texts]
              exact ⟨w, there, rfl⟩
            refine alike good _ same (Nat.le_refl lo) less oldest ?_
            rw [← fit.texts, texts]
            rfl
      · obtain rfl : lo = hi := by omega
        have surplus : Fit named b { s with unread := rest } lo lo :=
          fit_member fit rfl rfl rfl rfl rfl rfl rfl fun _ none_ => absurd none_ less
        have calm : ({ s with unread := rest } : PipelineState).havePending = false := (fit_pending surplus).trans (decide_eq_false less)
        cases texts : s.texts with
        | nil =>
            have missing : deref ({ s with unread := rest } : PipelineState).queries.begin { s with unread := rest } =
                (.error .endDereferenced, { s with unread := rest }) := by
              rw [show ({ s with unread := rest } : PipelineState).queries = s.queries from rfl, begin_missing texts]
              rfl
            have stopped : gotResult outcome { s with unread := rest } = (.error .endDereferenced, { s with unread := rest }) := by
              simp only [gotResult, Prog.bind_apply, Prog.get_apply, missing]
            exact wp_error (got.trans stopped) ⟨rfl, List.cons_ne_nil _ _, rfl, lo, lo, surplus⟩
        | cons oldest others =>
            obtain ⟨w, begun, there, _⟩ := begin_oldest texts
            have stopped : gotResult outcome { s with unread := rest } = (.error (.thrown { kind := .logicError, what :=
                "Got more results from pipeline than there were queries" }), ({ s with unread := rest } : PipelineState).setErrorAt oldest.1) := by
              simp only [gotResult, Prog.bind_apply, Prog.get_apply, deref_found { s with unread := rest } _ _ w begun there, if_pos calm,
                setErrorAt, Prog.modify_apply, raise, Prog.throw_apply]
            exact wp_error (got.trans stopped) ⟨rfl, List.cons_ne_nil _ _, rfl, lo, lo,
              fit_error surplus oldest.1 (oldest_below surplus oldest others texts)⟩

theorem ends_cut {t : PipelineState} (ordered : lo ≤ hi) (error : lo < hi → t.error ≤ lo) : Ends t hi lo lo := by
  by_cases less : lo < hi
  · exact .inr ⟨rfl, less, error less⟩
  · exact .inl (by omega)

theorem ends_le {t : PipelineState} {lo' hi' : Nat} (ends : Ends t hi lo' hi') : hi' ≤ hi := by
  rcases ends with same | ⟨_, less, _⟩
  · omega
  · omega

theorem get_further_fit (turns : Nat) (fit : Fit named b s lo hi) (alike : named → AlikeFrom b.texts lo hi)
    (noDummy : s.dummyPending = false) :
    wp (getFurther env turns) (fun _ t => ∃ lo' hi', Fit named b t lo' hi' ∧ lo ≤ lo' ∧ Ends t hi lo' hi') (Failing named b) s := by
  induction turns generalizing s lo hi with
  | zero => exact ⟨lo, hi, fit, Nat.le_refl _, .inl rfl⟩
  | succ turns ih =>
      have ticked : Fit named b { s with clock := s.clock + 1 } lo hi := fit_member fit rfl rfl rfl rfl rfl rfl rfl fit.dummy
      simp only [getFurther, isBusy]
      rw [wp_bind, wp_bind, wp_gets, wp_bind, wp_modify, wp_pure]
      refine wp_ite _ _ _ _ _ _ (fun _ => ⟨lo, hi, ticked, Nat.le_refl _, .inl rfl⟩) (fun _ => ?_)
      rw [wp_bind]
      refine wp_mono (obtain_fit ticked alike fun dummy => absurd (noDummy.symm.trans dummy) Bool.noConfusion) ?_
        (fun _ _ failed => failed.2.2)
      rintro got t ⟨lo', hi', fitted, dummy, ⟨rfl, less, rfl, rfl, _⟩ | ⟨rfl, rfl, rfl, _, _, error, _⟩⟩
      · have ticked : Fit named b { t with clock := t.clock + 1 } (lo + 1) hi := fit_member fitted rfl rfl rfl rfl rfl rfl rfl fitted.dummy
        rw [if_pos rfl, wp_bind, consumeInput, wp_bind, wp_gets, wp_bind, wp_modify, wp_pure]
        refine wp_ite _ _ _ _ _ _ (fun _ => ?_) (fun _ => ⟨rfl, lo + 1, hi, ticked⟩)
        refine wp_mono (ih ticked (fun good e there from_ => alike good e there (by omega)) (dummy.trans noDummy)) ?_ (fun _ _ => id)
        rintro _ u ⟨lo', hi', fitted, from_, upto⟩
        exact ⟨lo', hi', fitted, by omega, upto⟩
      · rw [if_neg Bool.false_ne_true]
        exact ⟨lo, lo, fitted, Nat.le_refl _, ends_cut fit.ordered error⟩

theorem obtain_dummy_fit (fit : Fit named b s lo hi) (dummy : s.dummyPending = true) (fresh : lo = hi → s.unread = []) :
    wp (obtainDummy env) (fun _ t => Fit named b t lo hi ∧ t.dummyPending = false ∧ t.unread.length + 1 = s.unread.length)
      (fun stop t => lo = hi ∧ Failing named b stop t) s := by
  have ordered := fit.ordered
  by_cases less : lo < hi
  · obtain ⟨rest, unread⟩ := fit.dummy dummy less
    have read : Fit named b { s with unread := rest, dummyPending := false } lo hi :=
      fit_member fit rfl rfl rfl rfl rfl rfl rfl Bool.noConfusion
    have one : ¬ ([[theDummyValue]] : List (List String)).length > 1 := by decide
    have ended : obtainDummy env s = (.ok (), { s with unread := rest, dummyPending := false }) := by
      simp only [obtainDummy, Prog.bind_apply, get_result_next s _ rest unread, Prog.modify_apply, if_neg one, ne_eq, not_true, if_false,
        Prog.pure_apply]
    refine wp_ok ended ⟨read, rfl, ?_⟩
    rw [unread]
    rfl
  · obtain rfl : lo = hi := by omega
    have read : Fit named b { s with active := false, dummyPending := false } lo lo :=
      fit_member fit rfl rfl rfl rfl rfl rfl rfl Bool.noConfusion
    have stopped : obtainDummy env s = (.error (.thrown (.internalError "pipeline got no result from backend when it expected one")),
        ({ s with active := false, dummyPending := false } : PipelineState).setErrorAt 0) := by
      simp only [obtainDummy, Prog.bind_apply, get_result_null s (fresh rfl), Prog.modify_apply, internalError, setErrorAt, Prog.throw_apply]
    exact wp_error stopped ⟨rfl, rfl, lo, lo, fit_error read 0 (Nat.zero_le lo)⟩

theorem receive_if_available_fit (fit : Fit named b s lo hi) (alike : named → AlikeFrom b.texts lo hi)
    (fresh : s.dummyPending = true → lo = hi → s.unread = []) :
    wp (receiveIfAvailable env) (fun _ t => ∃ lo' hi', Fit named b t lo' hi' ∧ lo ≤ lo' ∧ Ends t hi lo' hi') (Failing named b) s := by
  have ticked : Fit named b { s with clock := s.clock + 1 } lo hi := fit_member fit rfl rfl rfl rfl rfl rfl rfl fit.dummy
  have tickedTwice : Fit named b { s with clock := s.clock + 1 + 1 } lo hi := fit_member ticked rfl rfl rfl rfl rfl rfl rfl fit.dummy
  simp only [receiveIfAvailable, consumeInput, isBusy]
  rw [wp_bind, wp_bind, wp_gets, wp_bind, wp_modify, wp_pure]
  refine wp_ite _ _ _ _ _ _ (fun _ => ⟨rfl, lo, hi, ticked⟩) (fun _ => ?_)
  rw [wp_bind, wp_bind, wp_gets, wp_bind, wp_modify, wp_pure]
  refine wp_ite _ _ _ _ _ _ (fun _ => ⟨lo, hi, tickedTwice, Nat.le_refl _, .inl rfl⟩) (fun _ => ?_)
  rw [wp_bind, wp_get, wp_bind]
  have further (t : PipelineState) (fitted : Fit named b t lo hi) (noDummy : t.dummyPending = false) :
      wp (do let s ← Prog.get; if s.havePending then getFurtherAvailableResults env else pure ())
        (fun _ t => ∃ lo' hi', Fit named b t lo' hi' ∧ lo ≤ lo' ∧ Ends t hi lo' hi') (Failing named b) t := by
    rw [wp_bind, wp_get]
    refine wp_ite _ _ _ _ _ _ (fun _ => ?_) (fun _ => ⟨lo, hi, fitted, Nat.le_refl _, .inl rfl⟩)
    rw [getFurtherAvailableResults, wp_bind, wp_gets]
    exact get_further_fit _ fitted alike noDummy
  refine wp_when _ _ _ _ _ (fun dummy => ?_) (fun noDummy => further _ tickedTwice (Bool.eq_false_iff.mpr noDummy))
  refine wp_mono (obtain_dummy_fit tickedTwice dummy (fresh dummy)) ?_ (fun _ _ failed => failed.2)
  exact fun _ t ⟨fitted, noDummy, _⟩ => further t fitted noDummy

-- How far receive() gets: to the query it is to stop at, or to the end of the results.
theorem receive_until_fit (x turns : Nat) (fit : Fit named b s lo hi) (alike : named → AlikeFrom b.texts lo hi)
    (noDummy : s.dummyPending = false) (from_ : lo < x) (upto : x ≤ hi) (enough : s.unread.length < turns) :
    wp (receiveUntil (iterAt b.qId x) turns)
      (fun _ t => ∃ lo' hi', Fit named b t lo' hi' ∧ lo ≤ lo' ∧ Ends t hi lo' hi' ∧ t.dummyPending = false ∧
        (lo' = x ∧ hi' = hi ∧ t.unread.length + x = s.unread.length + lo ∨ lo' < x ∧ lo' = hi' ∧ t.error ≤ lo'))
      (fun _ _ => False) s := by
  have within := fit.within
  induction turns generalizing s lo with
  | zero => exact absurd enough (Nat.not_lt_zero _)
  | succ turns ih =>
      rw [receiveUntil, wp_bind]
      refine wp_mono (obtain_fit fit alike fun dummy => absurd (noDummy.symm.trans dummy) Bool.noConfusion) ?_
        (fun _ _ ⟨same, _⟩ => by omega)
      rintro got t ⟨lo', hi', fitted, dummy, ⟨rfl, less, rfl, rfl, length⟩ | ⟨rfl, rfl, rfl, _, _, error, _⟩⟩
      · rw [wp_bind, wp_gets]
        refine wp_ite _ _ _ _ _ _ (fun more => ?_) (fun done => ?_)
        · have beyond : lo + 1 ≠ x := fun same => more.2 (by rw [fitted.first, same])
          refine wp_mono (ih fitted (fun good e there from_ => alike good e there (by omega)) (dummy.trans noDummy) (by omega) (by omega)) ?_
            (fun _ _ => id)
          rintro _ u ⟨lo', hi', fitted, from_, upto, noDummy, ends⟩
          refine ⟨lo', hi', fitted, by omega, upto, noDummy, ?_⟩
          rcases ends with ⟨at_, whole, count⟩ | cut
          · exact .inl ⟨at_, whole, by omega⟩
          · exact .inr cut
        · have same : lo + 1 = x := by
            refine iter_at_inj (n := b.qId) (by omega) (by omega) ?_
            rw [← fitted.first]
            exact Decidable.byContradiction fun other => done ⟨rfl, other⟩
          exact ⟨lo + 1, hi, fitted, Nat.le_succ _, .inl rfl, dummy.trans noDummy, .inl ⟨same, rfl, by omega⟩⟩
      · rw [wp_bind, wp_gets]
        refine wp_ite _ _ _ _ _ _ (fun more => absurd more.1 Bool.false_ne_true) (fun _ => ?_)
        exact ⟨lo, lo, fitted, Nat.le_refl _, ends_cut fit.ordered error, dummy.trans noDummy, .inr ⟨from_, rfl, error (by omega)⟩⟩

theorem receive_fit (x : Nat) (fit : Fit named b s lo hi) (alike : named → AlikeFrom b.texts lo hi) (from_ : lo < x) (upto : x ≤ hi) :
    wp (receive env (iterAt b.qId x))
      (fun _ t => ∃ lo' hi', Fit named b t lo' hi' ∧ lo ≤ lo' ∧ Ends t hi lo' hi' ∧ (x ≤ lo' ∨ lo' = hi' ∧ t.error ≤ lo')) (Failing named b) s := by
  have within := fit.within
  have receives (t : PipelineState) (before : Fit named b t lo hi) (calm : t.dummyPending = false) :
      wp (do
          let results ← Prog.gets fun s => s.unread.length
          receiveUntil (iterAt b.qId x) (results + 1)
          let first ← Prog.gets PipelineState.first
          if first = iterAt b.qId x then getFurtherAvailableResults env else pure ())
        (fun _ t => ∃ lo' hi', Fit named b t lo' hi' ∧ lo ≤ lo' ∧ Ends t hi lo' hi' ∧ (x ≤ lo' ∨ lo' = hi' ∧ t.error ≤ lo')) (Failing named b) t := by
    rw [wp_bind, wp_gets, wp_bind]
    refine wp_mono (receive_until_fit x _ before alike calm from_ upto (Nat.lt_succ_self _)) ?_ (fun _ _ => False.elim)
    rintro _ u ⟨lo', hi', fitted, onward, inside, noDummy, ends⟩
    rw [wp_bind, wp_gets]
    rcases ends with ⟨rfl, rfl, _⟩ | ⟨short, cut⟩
    · refine wp_ite _ _ _ _ _ _ (fun _ => ?_) (fun other => absurd fitted.first other)
      rw [getFurtherAvailableResults, wp_bind, wp_gets]
      refine wp_mono (get_further_fit _ fitted (fun good e there above below => alike good e there (by omega) below) noDummy) ?_
        (fun _ _ => id)
      rintro _ v ⟨lo'', hi'', fitted', onward', inside'⟩
      exact ⟨lo'', hi'', fitted', by omega, inside', .inl onward'⟩
    · have other : ¬ u.first = iterAt b.qId x := by
        intro there
        have within := fitted.within
        have ordered := fitted.ordered
        have := iter_at_inj (by omega) (by omega) (fitted.first.symm.trans there)
        omega
      refine wp_ite _ _ _ _ _ _ (fun there => absurd there other) (fun _ => ?_)
      exact ⟨lo', hi', fitted, onward, inside, .inr cut⟩
  simp only [receive]
  rw [wp_bind, wp_get, wp_bind]
  refine wp_when _ _ _ _ _ (fun dummy => ?_) (fun noDummy => receives s fit (Bool.eq_false_iff.mpr noDummy))
  refine wp_mono (obtain_dummy_fit fit dummy fun same => by omega) ?_ (fun _ _ failed => failed.2)
  exact fun _ t ⟨fitted, noDummy, _⟩ => receives t fitted noDummy

theorem fit_rebase (fit : Fit named b s lo hi) : Fit named s s lo hi := by
  have qId := fit.qId
  exact { fit with
    texts := rfl, qId := rfl, executed := rfl, numWaiting := rfl, error := Nat.le_refl _, first := by rw [qId]; exact fit.first, second := by rw [qId]; exact fit.second
    within := by rw [qId]; exact fit.within, known := by rw [fit.texts, qId]; exact fit.known
    full := by rw [fit.texts, qId]; exact fit.full, bounded := by rw [qId]; exact fit.bounded }

-- The queries from lo on have been sent.
theorem fit_sent (fit : Fit named b s lo lo) {t : PipelineState} (queries : t.queries = s.queries) (qId : t.qId = s.qId)
    (error : t.error = s.error) (healthy : ¬ s.error < qidLimit) (first : t.first = s.second) (second : t.second = none)
    (dummy : t.dummyPending = true → ∃ rest, t.unread = .rows [[theDummyValue]] :: rest) : Fit named t t lo (b.qId + 1) := by
  have counted : t.qId = b.qId := qId.trans fit.qId
  have texts : t.texts = b.texts := by
    rw [PipelineState.texts, queries]
    exact fit.texts
  exact {
    texts := rfl, qId := rfl, executed := rfl, numWaiting := rfl, error := Nat.le_refl _, ordered := fit.within, dummy := fun there _ => dummy there
    first := by rw [first, counted]; exact fit.second
    second := by rw [second, counted, iterAt, if_neg (by omega)]
    within := by rw [counted]
    known := by rw [texts, counted]; exact fit.known
    full := by rw [texts, counted]; exact fit.full
    bounded := by rw [counted]; exact fit.bounded
    blank := by rw [queries]; exact fit.blank
    own := by rw [queries]; exact fit.own
    limit := by rw [error]; exact fit.limit
    stopped := fun stuck => absurd (by rw [← error]; exact stuck) healthy }

theorem queries_from_texts (it : Option Nat) : s.queriesFrom it = s.texts.filter fun e => it.any (· ≤ e.1) := by
  simp only [PipelineState.queriesFrom, PipelineState.texts, List.filter_map, Function.comp_def]

-- The batch that takes in all the queries from lo on is not refused.
def Accepts (env : Backend) (b : PipelineState) (lo : Nat) : Prop :=
  (b.queriesFrom (iterAt b.qId lo)).length > 1 → env.rejects b.executed.length ((b.queriesFrom (iterAt b.qId lo)).map Prod.snd) = none

theorem issue_fit (fit : Fit named b s lo lo) (accepts : ¬ s.error < qidLimit → Accepts env b lo) :
    wp (issue env)
      (fun _ t => t.texts = b.texts ∧ t.qId = b.qId ∧ t.error = s.error ∧
        (Fit named t t lo lo ∧ t.unread = [] ∧ s.error < qidLimit ∨
          Fit named t t lo (b.qId + 1) ∧ ¬ s.error < qidLimit ∧ (lo = b.qId + 1 → t.dummyPending = false)))
      (Failing named b) s := by
  have within := fit.within
  rw [issue, wp_bind]
  refine wp_mono (obtain_fit fit (fun _ e _ above below => by omega) fun _ => rfl) ?_ (fun _ _ failed => failed.2.2)
  rintro got t ⟨lo', hi', fitted, _, ⟨_, less, _⟩ | ⟨_, rfl, rfl, unread, idle, _, same⟩⟩
  · exact absurd less (Nat.lt_irrefl lo)
  · have error := same rfl
    rw [wp_bind, wp_get]
    refine wp_ite _ _ _ _ _ _ (fun stuck => ?_) (fun healthy => ?_)
    · exact ⟨fitted.texts, fitted.qId, error, .inl ⟨fit_rebase fitted, unread, by rw [← error]; exact stuck⟩⟩
    · rw [error] at healthy
      have free : ¬ t.active = true := by rw [idle]; exact Bool.false_ne_true
      have batch : t.queriesFrom t.second = b.queriesFrom (iterAt b.qId lo) := by
        rw [fitted.second, queries_from_texts, queries_from_texts, fitted.texts]
      have accepted := accepts healthy
      simp only [startExec]
      rw [wp_bind, wp_bind, wp_get]
      refine wp_ite _ _ _ _ _ _ (fun busy => absurd busy free) (fun _ => ?_)
      rw [wp_modify, wp_modify]
      refine ⟨fitted.texts, fitted.qId, error, .inr ⟨fit_sent fitted rfl rfl rfl (by rw [error]; exact healthy) rfl rfl ?_, healthy, fun none_ => ?_⟩⟩
      · intro dummy
        have several : (t.queriesFrom t.second).length > 1 := of_decide_eq_true dummy
        rw [batch] at several
        have accepted := accepts healthy several
        simp only [runBatch, batch, decide_eq_true several, if_true, fitted.executed, accepted]
        exact ⟨_, rfl⟩
      · have nothing : b.queriesFrom (iterAt b.qId lo) = [] := by
          rw [none_, iterAt, if_neg (by omega), queries_from_texts]
          exact List.filter_eq_nil_iff.mpr fun _ _ => Bool.false_ne_true
        rw [batch, nothing]
        rfl

-- With nothing issued there is nothing to receive.
theorem receive_idle_fit (fit : Fit named b s lo lo) (fresh : s.dummyPending = true → s.unread = []) (stop : Option Nat) :
    wp (receive env stop) (fun _ t => Fit named b t lo lo) (Failing named b) s := by
  have alike : named → AlikeFrom b.texts lo lo := fun _ e _ above below => by omega
  have receives (t : PipelineState) (before : Fit named b t lo lo) (noDummy : t.dummyPending = false) :
      wp (do
          let results ← Prog.gets fun s => s.unread.length
          receiveUntil stop (results + 1)
          let first ← Prog.gets PipelineState.first
          if first = stop then getFurtherAvailableResults env else pure ())
        (fun _ t => Fit named b t lo lo) (Failing named b) t := by
    rw [wp_bind, wp_gets, wp_bind, receiveUntil, wp_bind]
    refine wp_mono (obtain_fit before alike fun _ => rfl) ?_ (fun _ _ failed => failed.2.2)
    rintro got u ⟨lo', hi', fitted, same, ⟨_, less, _⟩ | ⟨rfl, rfl, rfl, _⟩⟩
    · exact absurd less (Nat.lt_irrefl lo)
    · rw [wp_bind, wp_gets]
      refine wp_ite _ _ _ _ _ _ (fun more => absurd more.1 Bool.false_ne_true) (fun _ => ?_)
      rw [wp_pure, wp_bind, wp_gets]
      refine wp_ite _ _ _ _ _ _ (fun _ => ?_) (fun _ => fitted)
      rw [getFurtherAvailableResults, wp_bind, wp_gets]
      refine wp_mono (get_further_fit _ fitted alike (same.trans noDummy)) ?_ (fun _ _ => id)
      rintro _ v ⟨lo', hi', after, onward, ends⟩
      have := ends_le ends
      have := after.ordered
      obtain rfl : lo' = lo := by omega
      obtain rfl : hi' = lo' := by omega
      exact after
  simp only [receive]
  rw [wp_bind, wp_get, wp_bind]
  refine wp_when _ _ _ _ _ (fun dummy => ?_) (fun noDummy => receives s fit (Bool.eq_false_iff.mpr noDummy))
  refine wp_mono (obtain_dummy_fit fit dummy fun _ => fresh dummy) ?_ (fun _ _ failed => failed.2)
  exact fun _ t ⟨fitted, noDummy, _⟩ => receives t fitted noDummy

theorem increasing_length (ids : List Nat) (below above : Nat) (increasing : ids.Pairwise (· < ·))
    (inside : ∀ id ∈ ids, below ≤ id ∧ id < above) : ids.length ≤ above - below := by
  induction ids generalizing below with
  | nil => exact Nat.zero_le _
  | cons id ids ih =>
      have here := inside id List.mem_cons_self
      have rest := ih (id + 1) (List.Pairwise.of_cons increasing) fun later there =>
        ⟨List.rel_of_pairwise_cons increasing there, (inside later (List.mem_cons_of_mem id there)).2⟩
      rw [List.length_cons]
      omega

theorem distance_le (fit : Fit named b s lo hi) : s.distance s.first s.second ≤ hi - lo := by
  rw [PipelineState.distance, ← List.length_map (f := fun e : Nat × Query => e.1)]
  refine increasing_length _ lo hi (List.pairwise_map.mpr (s.queries.sorted.filter _)) fun id member => ?_
  obtain ⟨e, kept, rfl⟩ := List.mem_map.mp member
  obtain ⟨there, range⟩ := List.mem_filter.mp kept
  have known := fit_known fit e.1 e.2 ((s.queries.mem_entries_iff e.1 e.2).mp there)
  rw [Bool.and_eq_true, fit.first, fit.second] at range
  obtain ⟨above, below⟩ := range
  unfold iterAt at above below
  constructor
  · split at above
    · exact of_decide_eq_true above
    · cases above
  · split at below
    · exact of_decide_eq_true below
    · omega

-- With no more results than there are queries pending, all are received without a hitch.
theorem receive_all_fit (fit : Fit named s s lo hi) (alike : named → AlikeFrom s.texts lo hi) (pending : lo < hi)
    (surplus : s.unread.length ≤ hi - lo + (if s.dummyPending then 1 else 0)) :
    wp (receive env s.second) (fun _ t => ∃ end_, Fit named s t end_ end_) (fun _ _ => False) s := by
  have receives (t : PipelineState) (before : Fit named s t lo hi) (calm : t.dummyPending = false) (few : t.unread.length ≤ hi - lo) :
      wp (do
          let results ← Prog.gets fun s => s.unread.length
          receiveUntil s.second (results + 1)
          let first ← Prog.gets PipelineState.first
          if first = s.second then getFurtherAvailableResults env else pure ())
        (fun _ t => ∃ end_, Fit named s t end_ end_) (fun _ _ => False) t := by
    rw [wp_bind, wp_gets, wp_bind, fit.second]
    refine wp_mono (receive_until_fit hi _ before alike calm pending (Nat.le_refl hi) (Nat.lt_succ_self _)) ?_ (fun _ _ => id)
    rintro _ u ⟨lo', hi', fitted, onward, inside, noDummy, ⟨rfl, rfl, length⟩ | ⟨_, rfl, _⟩⟩
    · rw [wp_bind, wp_gets]
      refine wp_ite _ _ _ _ _ _ (fun _ => ?_) (fun _ => ⟨_, fitted⟩)
      have idle : u.unread = [] := List.eq_nil_of_length_eq_zero (by omega)
      have ticked : Fit named s { u with clock := u.clock + 1 } hi' hi' := fit_member fitted rfl rfl rfl rfl rfl rfl rfl fitted.dummy
      rw [getFurtherAvailableResults, wp_bind, wp_gets, getFurther, isBusy, wp_bind, wp_bind, wp_gets, wp_bind, wp_modify, wp_pure]
      refine wp_ite _ _ _ _ _ _ (fun _ => ⟨_, ticked⟩) (fun _ => ?_)
      rw [wp_bind]
      refine wp_mono (obtain_fit ticked (fun _ e _ above below => by omega) fun _ => rfl) ?_ (fun _ _ failed => failed.2.1 idle)
      rintro got v ⟨lo'', hi'', fitted, _, ⟨_, less, _⟩ | ⟨rfl, rfl, rfl, _⟩⟩
      · exact absurd less (Nat.lt_irrefl _)
      · rw [if_neg Bool.false_ne_true]
        exact ⟨_, fitted⟩
    · rw [wp_bind, wp_gets]
      refine wp_ite _ _ _ _ _ _ (fun there => ?_) (fun _ => ⟨lo', fitted⟩)
      have within := fit.within
      have := iter_at_inj (by omega) (by omega) (fitted.first.symm.trans there)
      omega
  simp only [receive]
  rw [wp_bind, wp_get, wp_bind]
  refine wp_when _ _ _ _ _ (fun dummy => ?_) (fun noDummy => ?_)
  · refine wp_mono (obtain_dummy_fit fit dummy fun same => by omega) ?_ (fun _ _ failed => by have := failed.1; omega)
    rw [if_pos dummy] at surplus
    exact fun _ t ⟨fitted, noDummy, length⟩ => receives t fitted noDummy (by omega)
  · rw [if_neg noDummy] at surplus
    exact receives s fit (Bool.eq_false_iff.mpr noDummy) surplus

-- Once all is received, the queries may be dropped.
theorem fit_dropped (fit : Fit named b s lo lo) {t : PipelineState} (queries : t.queries = OrdMap.empty) (first : t.first = none)
    (second : t.second = none) (qId : t.qId = s.qId) (error : t.error = s.error) : Fit True t t (t.qId + 1) (t.qId + 1) := by
  have within := fit.within
  have counted : t.qId = b.qId := qId.trans fit.qId
  have texts : t.texts = [] := by rw [PipelineState.texts, queries]; rfl
  have nothing : ∀ id, t.queries.find id = none := fun id => by rw [queries]; rfl
  have behind : iterAt t.qId (t.qId + 1) = none := by rw [iterAt, if_neg (by omega)]
  exact {
    texts := rfl, qId := rfl, executed := rfl, numWaiting := rfl, error := Nat.le_refl _, ordered := Nat.le_refl _
    dummy := fun _ less => absurd less (Nat.lt_irrefl _)
    first := first.trans behind.symm
    second := second.trans behind.symm
    within := Nat.le_refl _
    known := by rw [texts]; exact fun _ there => absurd there List.not_mem_nil
    full := fun id from_ inside => by omega
    bounded := by rw [counted]; exact fit.bounded
    blank := fun id q there => by rw [nothing id] at there; cases there
    own := fun _ id q r there => by rw [nothing id] at there; cases there
    limit := by rw [error]; exact fit.limit
    stopped := by
      rw [error, counted]
      intro stuck
      have := (fit.stopped stuck).2
      exact ⟨rfl, by omega⟩ }

-- A query in front of the range leaves the map.
theorem fit_forget (fit : Fit named b s lo hi) (id : Nat) (below : id < lo) {t : PipelineState} (queries : t.queries = s.queries.erase id)
    (first : t.first = s.first) (second : t.second = s.second) (qId : t.qId = s.qId) (error : t.error = s.error)
    (dummy : t.dummyPending = true → lo < hi → ∃ rest, t.unread = .rows [[theDummyValue]] :: rest) : Fit named t t lo hi := by
  have counted : t.qId = b.qId := qId.trans fit.qId
  have texts : t.texts = b.texts.filter fun e => decide (e.1 ≠ id) := by
    rw [← fit.texts, PipelineState.texts, queries, OrdMap.erase, PipelineState.texts, List.filter_map]
    rfl
  have found : ∀ i q, t.queries.find i = some q → s.queries.find i = some q := by
    intro i q there
    rw [queries, OrdMap.find_erase] at there
    split at there
    · cases there
    · exact there
  exact {
    texts := rfl, qId := rfl, executed := rfl, numWaiting := rfl, error := Nat.le_refl _, ordered := fit.ordered, dummy := dummy
    first := by rw [first, counted]; exact fit.first
    second := by rw [second, counted]; exact fit.second
    within := by rw [counted]; exact fit.within
    known := by
      rw [texts, counted]
      exact fun e there => fit.known e (List.mem_of_mem_filter there)
    full := by
      rw [texts, counted]
      intro i from_ inside
      obtain ⟨text, there⟩ := fit.full i from_ inside
      exact ⟨text, List.mem_filter.mpr ⟨there, decide_eq_true (by show i ≠ id; omega)⟩⟩
    bounded := by rw [counted]; exact fit.bounded
    blank := fun i q there from_ => fit.blank i q (found i q there) from_
    own := fun good i q r there => fit.own good i q r (found i q there)
    limit := by rw [error]; exact fit.limit
    stopped := by rw [error]; exact fit.stopped }

-- The oldest query that is pending is cancelled.
theorem fit_cancelled (fit : Fit named b s lo hi) (pending : lo < hi) {t : PipelineState} (queries : t.queries = s.queries.erase lo)
    (first : t.first = s.queries.next lo) (second : t.second = s.second) (qId : t.qId = s.qId) (error : t.error = s.error)
    (dummyPending : t.dummyPending = s.dummyPending) (unread : t.unread = s.unread) : Fit named t t (lo + 1) hi := by
  have healthy : ¬ s.error < qidLimit := fun less => by
    have := (fit.stopped less).1
    omega
  have fresh : t.dummyPending = true → lo + 1 < hi → ∃ rest, t.unread = .rows [[theDummyValue]] :: rest := by
    rw [dummyPending, unread]
    exact fun dummy _ => fit.dummy dummy pending
  have skipped : Fit named b { s with first := s.queries.next lo } (lo + 1) hi :=
    { fit with
      first := fit_next fit lo (by omega), ordered := pending, full := fun id from_ inside => fit.full id (by omega) inside
      blank := fun id q there from_ => fit.blank id q there (by omega), stopped := fun less => absurd less healthy
      dummy := fun dummy _ => fit.dummy dummy pending }
  exact fit_forget skipped lo (Nat.lt_succ_self lo) queries first second qId error fresh

end

end Pqxx
