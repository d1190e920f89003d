import Pqxx.PipelineInvariant

set_option autoImplicit false

namespace Pqxx

open Lib

section

variable {env : Backend} {agree : Agreement} {plain : Prop} {s : PipelineState} {lo hi : Nat}

-- Inside the loop of obtain_dummy(): the queries from here to hi hold the result of the
-- batch they were refused with, and m_issuedrange.second is of no account.
structure Replaying (agree : Agreement) (s : PipelineState) (here hi : Nat) (refused : Result) : Prop where
  first : s.first = iterAt s.qId here
  positive : 1 ≤ here
  ordered : here < hi
  within : hi ≤ s.qId + 1
  small : s.qId + 1 < qidLimit
  known : ∀ id q, s.queries.find id = some q → 1 ≤ id ∧ id ≤ s.qId
  full : ∀ id, here ≤ id → id ≤ s.qId → ∃ q, s.queries.find id = some q
  text : ∀ id q, s.queries.find id = some q → s.inserted[id - 1]? = some q.query
  count : s.inserted.length = s.qId
  own : ∀ id q, s.queries.find id = some q → id < here → ∃ r, q.res = some r ∧ Produced agree s.executed id r
  refused : ∀ id q, s.queries.find id = some q → here ≤ id → id < hi → q.res = some refused
  blank : ∀ id q, s.queries.find id = some q → hi ≤ id → q.isEmpty = true
  healthy : s.error = qidLimit
  noDummy : s.dummyPending = false
  idle : s.unread = []

theorem replaying_next {here : Nat} {refused : Result} (replaying : Replaying agree s here hi refused) :
    s.queries.next here = iterAt s.qId (here + 1) := by
  unfold iterAt
  by_cases more : here + 1 ≤ s.qId
  · rw [if_pos more]
    obtain ⟨q, found⟩ := replaying.full (here + 1) (by omega) more
    exact s.queries.next_eq_some here (here + 1) q found (by omega) fun _ _ _ less => less
  · rw [if_neg more]
    refine s.queries.next_eq_none here fun i w there => ?_
    have := (replaying.known i w there).2
    omega

theorem produced_append {executed : List (Nat × Option Outcome)} {id : Nat} {r : Result} (more : List (Nat × Option Outcome))
    (produced : Produced agree executed id r) : Produced agree (executed ++ more) id r := by
  rcases produced with there | ⟨message, outcome, holds, there, rest⟩
  · exact .inl (List.mem_append_left _ there)
  · exact .inr ⟨message, outcome, holds, List.mem_append_left _ there, rest⟩

-- A replayed query that succeeds gets its own result in place of the batch's.
theorem replaying_step {here : Nat} {refused : Result} (own : Result) (replaying : Replaying agree s here hi refused) (more : here + 1 < hi)
    (active : Bool) (numWaiting : Int) :
    Replaying agree { s with
      numWaiting := numWaiting, unread := [], active := active, first := s.queries.next here
      executed := s.executed ++ [(here, some own.outcome)]
      queries := s.queries.mapValues fun k q => if k = here then { q with res := some own } else q } (here + 1) hi refused := by
  have found : ∀ id q, (s.queries.mapValues fun k q => if k = here then { q with res := some own } else q).find id = some q →
      ∃ old, s.queries.find id = some old ∧ q.query = old.query ∧ q.res = if id = here then some own else old.res := by
    intro id q there
    rw [OrdMap.find_map_values, Option.map_eq_some_iff] at there
    obtain ⟨old, there, rfl⟩ := there
    refine ⟨old, there, ?_, ?_⟩ <;> split <;> rfl
  exact {
    first := replaying_next replaying
    positive := by omega
    ordered := more
    within := replaying.within
    small := replaying.small
    known := fun id q there => by
      obtain ⟨old, there, _, _⟩ := found id q there
      exact replaying.known id old there
    full := fun id from_ inside => by
      obtain ⟨q, there⟩ := replaying.full id (by omega) inside
      exact ⟨_, by rw [OrdMap.find_map_values, there]; rfl⟩
    text := fun id q there => by
      obtain ⟨old, there, same, _⟩ := found id q there
      rw [same]
      exact replaying.text id old there
    count := replaying.count
    own := fun id q there below => by
      obtain ⟨old, there, _, res⟩ := found id q there
      by_cases now : id = here
      · subst now
        rw [if_pos rfl] at res
        exact ⟨own, res, .inl (List.mem_append_right _ List.mem_cons_self)⟩
      · rw [if_neg now] at res
        obtain ⟨r, held, produced⟩ := replaying.own id old there (by omega)
        exact ⟨r, res.trans held, produced_append _ produced⟩
    refused := fun id q there from_ below => by
      obtain ⟨old, there, _, res⟩ := found id q there
      rw [if_neg (by omega)] at res
      exact res.trans (replaying.refused id old there (by omega) below)
    blank := fun id q there above => by
      obtain ⟨old, there, _, res⟩ := found id q there
      rw [if_neg (by omega)] at res
      have blank := replaying.blank id old there above
      simpa only [Query.isEmpty, res] using blank
    healthy := replaying.healthy
    noDummy := replaying.noDummy
    idle := rfl }

theorem lists_map_values (queries : OrdMap Nat Query) (f : Nat → Query → Query) (same : ∀ k q, (f k q).query = q.query)
    (here : Nat) (qs : List (Nat × String)) (lists : Lists queries here qs) : Lists (queries.mapValues f) here qs := by
  induction qs generalizing here with
  | nil => trivial
  | cons head rest ih =>
      obtain ⟨id, text⟩ := head
      obtain ⟨key, ⟨q, found, there⟩, more⟩ := lists
      refine ⟨key, ⟨f id q, ?_, (same id q).trans there⟩, ih (here + 1) more⟩
      rw [OrdMap.find_map_values, found]
      rfl

theorem trans_exec_rows (env : Backend) (s : PipelineState) (id : Nat) (query : String) (rows : List (List String))
    (answer : env.answer s.executed.length query = some (.rows rows)) :
    transExec env id query s = (.ok { outcome := .rows rows, query }, { s with
      unread := [], active := false, executed := s.executed ++ [(id, some (.rows rows))] }) := by
  simp only [transExec, Prog.bind_apply, Prog.gets_apply, Prog.modify_apply, answer, Prog.pure_apply]

theorem trans_exec_stopped (env : Backend) (s : PipelineState) (id : Nat) (query : String)
    (bad : ∀ rows, env.answer s.executed.length query ≠ some (.rows rows)) :
    ∃ x, transExec env id query s = (.error (.thrown x), { s with
      unread := [], active := false, executed := s.executed ++ [(id, env.answer s.executed.length query)] }) := by
  simp only [transExec, Prog.bind_apply, Prog.gets_apply, Prog.modify_apply]
  cases answer : env.answer s.executed.length query with
  | none => exact ⟨_, rfl⟩
  | some outcome =>
      cases outcome with
      | failed message => exact ⟨_, rfl⟩
      | rows rows => exact absurd answer (bad rows)

theorem replay_spec (qs : List (Nat × String)) (turns here : Nat) (message : String) (refused : Result)
    (replaying : Replaying agree s here hi refused) (waiting : s.numWaiting = (s.qId : Int) + 1 - here) (lists : Lists s.queries here qs)
    (whole : qs.length = hi - here) (stops : ReplayStops agree env s.executed.length (qs.map Prod.snd) message)
    (enough : qs.length ≤ turns) :
    Prog.wp (replay env (iterAt s.qId hi) turns) (fun _ _ => False) (fun e t => (∃ x, e = .thrown x) ∧ ∃ thud,
      here ≤ thud ∧ Replaying agree t thud hi refused ∧ t.numWaiting = (t.qId : Int) - thud ∧
      (∃ outcome, (thud, outcome) ∈ t.executed ∧ (∀ rows, outcome ≠ some (.rows rows)) ∧ agree message outcome) ∧ Frame s t) s := by
  induction qs generalizing s here turns with
  | nil => exact stops.elim
  | cons head rest ih =>
      obtain ⟨id, text⟩ := head
      obtain ⟨rfl, ⟨q, found, rfl⟩, more⟩ := lists
      cases turns with
      | zero => simp at enough
      | succ turns =>
          have within := replaying.within
          have ordered := replaying.ordered
          have first : s.first = some id := by rw [replaying.first, iterAt, if_pos (by omega)]
          simp only [replay, Prog.wp_bind, Prog.wp_modify, Prog.wp_gets]
          refine Prog.wp_ok (deref_found _ s.first id q first found) ?_
          simp only [List.map_cons, ReplayStops] at stops
          by_cases succeeded : ∃ rows, env.answer s.executed.length q.query = some (.rows rows)
          · obtain ⟨rows, answer⟩ := succeeded
            rw [answer] at stops
            simp only at stops
            refine Prog.wp_ok (trans_exec_rows env _ id q.query rows answer) ?_
            have left : rest ≠ [] := by
              intro nothing
              rw [nothing] at stops
              exact stops
            have longer : 0 < rest.length := List.length_pos_iff.mpr left
            simp only [List.length_cons] at whole enough
            have step := replaying_step { outcome := .rows rows, query := q.query } replaying (by omega) false
              (s.numWaiting - 1)
            simp only [Prog.wp_pure, setResult, Prog.wp_modify, Result.checkStatus, ofExcept]
            have stored : (s.queries.mapValues fun k w =>
                if k = id then { w with res := some { outcome := .rows rows, query := q.query } } else w).find id =
                  some { q with res := some { outcome := .rows rows, query := q.query } } := by
              rw [OrdMap.find_map_values, found, Option.map_some, if_pos rfl]
            refine Prog.wp_ok (increment_found _ s.first id _ first stored) ?_
            simp only [OrdMap.next_map_values]
            rw [replaying_next replaying] at step ⊢
            have apart : iterAt s.qId (id + 1) ≠ iterAt s.qId hi := by
              intro same
              have := iter_at_inj (by omega) (by omega) same
              omega
            rw [if_pos apart]
            have stopsLater : ReplayStops agree env (s.executed ++ [(id, some (Outcome.rows rows))]).length (rest.map Prod.snd) message := by
              rw [List.length_append]
              exact stops
            have listed := lists_map_values s.queries
              (fun k w => if k = id then { w with res := some { outcome := .rows rows, query := q.query } } else w)
              (fun k w => by split <;> rfl) (id + 1) rest more
            refine Prog.wp_mono (ih turns (id + 1) step ?_ listed (by omega) stopsLater (by omega)) (fun _ _ => False.elim) ?_
            · show s.numWaiting - 1 = (s.qId : Int) + 1 - (id + 1 : Nat)
              omega
            · rintro e t ⟨thrown, thud, from_, blamed, counted, failed, frame⟩
              refine ⟨thrown, thud, by omega, blamed, counted, failed, frame_trans ?_ frame⟩
              exact ⟨rfl, rfl, rfl, fun k => by simp only [OrdMap.find_map_values, Option.isSome_map]⟩
          · have bad : ∀ rows, env.answer s.executed.length q.query ≠ some (.rows rows) := fun rows answer => succeeded ⟨rows, answer⟩
            obtain ⟨x, stopped⟩ := trans_exec_stopped env { s with numWaiting := s.numWaiting - 1 } id q.query bad
            refine Prog.wp_error stopped ⟨⟨x, rfl⟩, id, Nat.le_refl id, ?_, ?_, ?_, ⟨rfl, rfl, rfl, fun _ => rfl⟩⟩
            · exact { replaying with
                own := fun k w there below => by
                  obtain ⟨r, held, produced⟩ := replaying.own k w there below
                  exact ⟨r, held, produced_append _ produced⟩
                idle := rfl }
            · show s.numWaiting - 1 = (s.qId : Int) - id
              omega
            · refine ⟨_, List.mem_append_right _ List.mem_cons_self, bad, ?_⟩
              split at stops
              · rename_i rows answer
                exact absurd answer (bad rows)
              · exact stops

theorem numbered_ordered {α : Type} (f : Nat → String → α) (texts : List String) :
    (numbered f texts).Pairwise fun a b => a.1 < b.1 := by
  rw [List.pairwise_iff_getElem]
  intro i j _ _ less
  simp only [numbered, List.getElem_mapIdx]
  omega

theorem mem_numbered_range (texts : List String) (a b : Nat) (positive : 1 ≤ a) (e : Nat × String) :
    e ∈ ((numbered (fun _ text => text) texts).take (b - 1)).drop (a - 1) ↔
      a ≤ e.1 ∧ e.1 < b ∧ texts[e.1 - 1]? = some e.2 := by
  rw [List.mem_drop_iff_getElem]
  simp only [numbered, List.length_take, List.length_mapIdx, List.getElem_take, List.getElem_mapIdx]
  constructor
  · rintro ⟨i, inside, rfl⟩
    refine ⟨by simp only; omega, by simp only; omega, ?_⟩
    simp only [Nat.add_sub_cancel]
    exact List.getElem?_eq_getElem (by omega)
  · rintro ⟨above, below, there⟩
    obtain ⟨inside, same⟩ := List.getElem?_eq_some_iff.mp there
    refine ⟨e.1 - a, by omega, ?_⟩
    have index : a - 1 + (e.1 - a) = e.1 - 1 := by omega
    have number : a - 1 + (e.1 - a) + 1 = e.1 := by omega
    refine Prod.ext number ?_
    simp only [index]
    exact same

-- The queries the map holds in a range that has not been received are the inserted ones.
theorem sound_range (sound : Sound env agree plain s lo hi) (a b : Nat) (above : lo ≤ a) (below : b ≤ s.qId + 1) :
    (s.queries.entries.filter fun e => decide (a ≤ e.1 ∧ e.1 < b)).map (fun e => (e.1, e.2.query)) =
      ((numbered (fun _ text => text) s.inserted).take (b - 1)).drop (a - 1) := by
  have positive := sound.positive
  refine OrdMap.ordered_ext ?_ ?_ fun e => ?_
  · exact List.pairwise_map.mpr (s.queries.sorted.filter _)
  · exact ((numbered_ordered _ _).sublist (List.take_sublist _ _)).sublist (List.drop_sublist _ _)
  · rw [mem_numbered_range s.inserted a b (by omega) e]
    simp only [List.mem_map, List.mem_filter, decide_eq_true_eq]
    constructor
    · rintro ⟨w, ⟨there, from_, upto⟩, rfl⟩
      exact ⟨from_, upto, sound.text w.1 w.2 ((s.queries.mem_entries_iff w.1 w.2).mp there)⟩
    · rintro ⟨from_, upto, there⟩
      obtain ⟨q, found⟩ := sound.full e.1 (by omega) (by omega)
      refine ⟨(e.1, q), ⟨(s.queries.mem_entries_iff e.1 q).mpr found, from_, upto⟩, ?_⟩
      have same := sound.text e.1 q found
      rw [there] at same
      rw [← Option.some.inj same]

theorem iter_at_any (n x k : Nat) (inside : k ≤ n) : (iterAt n x).any (fun i => decide (i ≤ k)) = decide (x ≤ k) := by
  unfold iterAt
  split
  · rfl
  · simp only [Option.any_none]
    symm
    simp only [decide_eq_false_iff_not]
    omega

theorem iter_at_all (n x k : Nat) (inside : k ≤ n) : (iterAt n x).all (fun i => decide (k < i)) = decide (k < x) := by
  unfold iterAt
  split
  · rfl
  · simp only [Option.all_none]
    symm
    simp only [decide_eq_true_eq]
    omega

theorem range_length (sound : Sound env agree plain s lo hi) (a b : Nat) (above : lo ≤ a) (below : b ≤ s.qId + 1) :
    (s.queries.entries.filter fun e => decide (a ≤ e.1 ∧ e.1 < b)).length = b - a := by
  have lengths := congrArg List.length (sound_range sound a b above below)
  have positive := sound.positive
  have count := sound.count
  simp only [List.length_map, List.length_drop, List.length_take, numbered, List.length_mapIdx] at lengths
  omega

theorem distance_range (sound : Sound env agree plain s lo hi) : s.distance (iterAt s.qId lo) (iterAt s.qId hi) = hi - lo := by
  rw [← range_length sound lo hi (Nat.le_refl lo) sound.within, PipelineState.distance]
  refine congrArg List.length (List.filter_congr fun e there => ?_)
  have inside := (sound.known e.1 e.2 ((s.queries.mem_entries_iff e.1 e.2).mp there)).2
  rw [iter_at_any _ _ _ inside, iter_at_all _ _ _ inside, Bool.decide_and]

theorem blame_spec (env : Backend) {thud : Nat} {refused : Result} (notPlain : ¬ plain) (message : String)
    (replaying : Replaying agree s thud hi refused) (waiting : s.numWaiting = (s.qId : Int) - thud)
    (own : ∃ outcome, (thud, outcome) ∈ s.executed ∧ (∀ rows, outcome ≠ some (.rows rows)) ∧ agree message outcome)
    (same : refused.outcome = .failed message) :
    Prog.wp blame (fun _ t => Sound env agree plain t (thud + 1) (thud + 1) ∧ t.unread = [] ∧ t.dummyPending = false ∧
      t.error < qidLimit ∧ Frame s t) (fun _ _ => False) s := by
  have ordered := replaying.ordered
  have within := replaying.within
  have small := replaying.small
  have positive := replaying.positive
  have first : s.first = some thud := by rw [replaying.first, iterAt, if_pos (by omega)]
  obtain ⟨q, found⟩ := replaying.full thud (Nat.le_refl thud) (by omega)
  have marked : ({ s with first := iterAt s.qId (thud + 1), second := iterAt s.qId (thud + 1) } : PipelineState).setErrorAt (thud + 1) =
      { s with first := iterAt s.qId (thud + 1), second := iterAt s.qId (thud + 1), error := thud + 1 } := by
    have less : thud + 1 < ({ s with first := iterAt s.qId (thud + 1), second := iterAt s.qId (thud + 1) } : PipelineState).error := by
      show thud + 1 < s.error
      rw [replaying.healthy]
      omega
    rw [PipelineState.setErrorAt, if_pos less]
  have sound : Sound env agree plain
      { s with first := iterAt s.qId (thud + 1), second := iterAt s.qId (thud + 1), error := thud + 1 } (thud + 1) (thud + 1) := {
    first := rfl
    second := rfl
    positive := by omega
    ordered := Nat.le_refl _
    within := by
      show thud + 1 ≤ s.qId + 1
      omega
    small := small
    known := replaying.known
    full := fun id from_ inside => replaying.full id (by omega) inside
    text := replaying.text
    count := replaying.count
    own := fun id w there below _ => by
      by_cases here : id = thud
      · subst here
        obtain ⟨outcome, failed, bad, agreed⟩ := own
        exact ⟨refused, replaying.refused id w there (Nat.le_refl id) ordered, .inr ⟨message, outcome, same, failed, bad, agreed⟩⟩
      · exact replaying.own id w there (by omega)
    blank := fun id w there above => by
      by_cases behind : id < hi
      · have held := replaying.refused id w there (by omega) behind
        simp [Query.isEmpty, held, Result.rows, same]
      · exact replaying.blank id w there (by omega)
    waiting := fun error => by
      have : thud + 1 = qidLimit := error
      omega
    limit := by
      show thud + 1 ≤ qidLimit
      omega
    stopped := fun _ => by
      obtain ⟨outcome, failed, bad, _⟩ := own
      exact ⟨rfl, Nat.le_refl _, thud, outcome, failed, bad⟩
    record := fun calm => absurd calm notPlain }
  simp only [blame, Prog.wp_bind, Prog.wp_gets]
  refine Prog.wp_ok (deref_found s s.first thud q first found) ?_
  refine Prog.wp_ok (increment_found s s.first thud q first found) ?_
  rw [replaying_next replaying, Prog.wp_modify]
  have ended : setErrorAt (thud + 1) { s with first := iterAt s.qId (thud + 1), second := iterAt s.qId (thud + 1) } =
      (.ok (), { s with first := iterAt s.qId (thud + 1), second := iterAt s.qId (thud + 1), error := thud + 1 }) := by
    rw [setErrorAt, Prog.modify_apply, marked]
  have frame : Frame s { s with first := iterAt s.qId (thud + 1), second := iterAt s.qId (thud + 1), error := thud + 1 } :=
    ⟨rfl, rfl, rfl, fun _ => rfl⟩
  have unhealthy : thud + 1 < qidLimit := by omega
  cases next : iterAt s.qId (thud + 1) with
  | none =>
      rw [next] at ended sound frame
      exact Prog.wp_ok ended ⟨sound, replaying.idle, replaying.noDummy, unhealthy, frame⟩
  | some following =>
      have follows := (iter_at_some next).1
      subst follows
      rw [next] at ended sound frame
      exact Prog.wp_ok ended ⟨sound, replaying.idle, replaying.noDummy, unhealthy, frame⟩

-- What receiving leaves behind: no dummy, and m_issuedrange.second where it was unless
-- a query turned out to have failed.
structure Received (s t : PipelineState) (lo hi lo' hi' : Nat) : Prop where
  frame : Frame s t
  dummy : t.dummyPending = false
  onward : lo ≤ lo'
  kept : t.error = qidLimit → hi' = hi ∧ s.error = qidLimit

theorem sound_set_results (sound : Sound env agree plain s lo hi) (refused : Result) (empty : refused.rows = []) :
    Sound env agree plain (s.setResults refused) lo hi ∧ Frame s (s.setResults refused) ∧
      ∀ id q, (s.setResults refused).queries.find id = some q → lo ≤ id → id < hi → q.res = some refused := by
  have found : ∀ id q, (s.setResults refused).queries.find id = some q → ∃ old, s.queries.find id = some old ∧
      q.query = old.query ∧ q.res = if lo ≤ id ∧ id < hi then some refused else old.res := by
    intro id q there
    rw [PipelineState.setResults, OrdMap.find_map_values, Option.map_eq_some_iff] at there
    obtain ⟨old, there, rfl⟩ := there
    have inside := (sound.known id old there).2
    refine ⟨old, there, by split <;> rfl, ?_⟩
    rw [sound.first, sound.second, iter_at_any _ _ _ inside, iter_at_all _ _ _ inside]
    by_cases within : lo ≤ id ∧ id < hi
    · simp only [within, decide_true, Bool.and_self, if_true, and_self]
    · have outside : ¬ (decide (lo ≤ id) && decide (id < hi)) = true := by simpa using within
      rw [if_neg outside, if_neg within]
  refine ⟨?_, ⟨rfl, rfl, rfl, fun id => ?_⟩, fun id q there from_ below => ?_⟩
  · exact {
      first := sound.first
      second := sound.second
      positive := sound.positive
      ordered := sound.ordered
      within := sound.within
      small := sound.small
      known := fun id q there => by
        obtain ⟨old, there, _, _⟩ := found id q there
        exact sound.known id old there
      full := fun id from_ inside => by
        obtain ⟨q, there⟩ := sound.full id from_ inside
        exact ⟨_, by rw [PipelineState.setResults, OrdMap.find_map_values, there]; rfl⟩
      text := fun id q there => by
        obtain ⟨old, there, same, _⟩ := found id q there
        rw [same]
        exact sound.text id old there
      count := sound.count
      own := fun id q there below usable => by
        obtain ⟨old, there, _, res⟩ := found id q there
        rw [if_neg (by omega)] at res
        rw [res]
        exact sound.own id old there below usable
      blank := fun id q there above => by
        obtain ⟨old, there, _, res⟩ := found id q there
        have blank := sound.blank id old there above
        by_cases within : lo ≤ id ∧ id < hi
        · rw [if_pos within] at res
          simp [Query.isEmpty, res, empty]
        · rw [if_neg within] at res
          simpa only [Query.isEmpty, res] using blank
      waiting := sound.waiting
      limit := sound.limit
      stopped := sound.stopped
      record := fun calm => ⟨(sound.record calm).sent, (sound.record calm).executed⟩ }
  · simp only [PipelineState.setResults, OrdMap.find_map_values, Option.isSome_map]
  · obtain ⟨old, _, _, res⟩ := found id q there
    exact res.trans (if_pos ⟨from_, below⟩)

theorem set_results_keeps (s : PipelineState) (refused : Result) :
    (s.setResults refused).unread = s.unread ∧ (s.setResults refused).dummyPending = s.dummyPending ∧
      (s.setResults refused).error = s.error ∧ (s.setResults refused).executed = s.executed := ⟨rfl, rfl, rfl, rfl⟩

theorem set_results_lists (refused : Result) (here : Nat) (qs : List (Nat × String)) (lists : Lists s.queries here qs) :
    Lists (s.setResults refused).queries here qs := by
  unfold PipelineState.setResults
  dsimp only
  refine lists_map_values s.queries _ (fun k q => ?_) here qs lists
  split <;> rfl

theorem obtain_result_nothing (s : PipelineState) (idle : s.unread = []) :
    obtainResult true s = (.ok false, { s with active := false }) := by
  simp only [obtainResult, Prog.bind_apply, get_result_null s idle, no_result_calm _ true (.inr rfl)]

theorem replay_batch_spec (notPlain : ¬ plain) (sound : Sound env agree plain s lo hi) (pending : lo < hi) (idle : s.unread = [])
    (noDummy : s.dummyPending = false) (message : String) (qs : List (Nat × String)) (lists : Lists s.queries lo qs)
    (whole : qs.length = hi - lo) (stops : ReplayStops agree env s.executed.length (qs.map Prod.snd) message) :
    Prog.wp (replayBatch env message) (fun _ t => ∃ here, lo < here ∧ Sound env agree plain t here here ∧ t.unread = [] ∧
      t.dummyPending = false ∧ t.error < qidLimit ∧ Frame s t) (fun _ _ => False) s := by
  have healthy := sound_healthy sound pending
  obtain ⟨refused, frame, held⟩ := sound_set_results sound { outcome := .failed message, query := "[DUMMY PIPELINE QUERY]" } rfl
  have listed := set_results_lists { outcome := .failed message, query := "[DUMMY PIPELINE QUERY]" } lo qs lists
  obtain ⟨idleNow, noDummyNow, healthyNow, executed⟩ := set_results_keeps s { outcome := .failed message, query := "[DUMMY PIPELINE QUERY]" }
  rw [idle] at idleNow
  rw [noDummy] at noDummyNow
  rw [healthy] at healthyNow
  rw [← executed] at stops
  generalize marked : s.setResults { outcome := .failed message, query := "[DUMMY PIPELINE QUERY]" } = u at *
  have distance := distance_range refused
  have turns : qs.length ≤ u.queries.entries.length := by
    rw [whole, ← range_length refused lo hi (Nat.le_refl lo) refused.within]
    exact List.length_filter_le _ _
  have second : s.second = iterAt u.qId hi := by rw [frame.qId]; exact sound.second
  simp only [replayBatch, Prog.wp_bind, Prog.wp_gets, Prog.wp_modify, marked]
  refine Prog.wp_ok (obtain_result_nothing u idleNow) ?_
  have replaying : Replaying agree { u with
      active := false, numWaiting := u.numWaiting + ((hi - lo : Nat) : Int), second := u.first, registered := false } lo hi
      { outcome := .failed message, query := "[DUMMY PIPELINE QUERY]" } := {
    first := refused.first
    positive := refused.positive
    ordered := pending
    within := refused.within
    small := refused.small
    known := refused.known
    full := refused.full
    text := refused.text
    count := refused.count
    own := fun id q there below => by
      have := (refused.known id q there).2
      have := refused.small
      exact refused.own id q there below (by omega)
    refused := held
    blank := fun id q there above => refused.blank id q there (by omega)
    healthy := healthyNow
    noDummy := noDummyNow
    idle := idleNow }
  have waiting : u.numWaiting + ((hi - lo : Nat) : Int) = (u.qId : Int) + 1 - lo := by
    have counted := refused.waiting healthyNow
    omega
  have length : PipelineState.distance { u with active := false } u.first s.second = hi - lo := by
    rw [second, refused.first]
    exact distance
  rw [length, Prog.wp_try_catch, second]
  refine Prog.wp_mono (replay_spec qs u.queries.entries.length lo message _ replaying waiting listed whole stops turns)
    (fun _ _ => False.elim) ?_
  rintro e t ⟨⟨x, rfl⟩, thud, from_, blamed, counted, failed, framed⟩
  refine Prog.wp_mono (blame_spec env notPlain message blamed counted failed rfl) ?_ (fun _ _ => id)
  rintro _ v ⟨soundAfter, idleAfter, dummyAfter, unhealthy, frameAfter⟩
  refine ⟨thud + 1, by omega, soundAfter, idleAfter, dummyAfter, unhealthy, ?_⟩
  have middle : Frame u { u with
      active := false, numWaiting := u.numWaiting + ((hi - lo : Nat) : Int), second := u.first, registered := false } :=
    ⟨rfl, rfl, rfl, fun _ => rfl⟩
  exact frame_trans frame (frame_trans middle (frame_trans framed frameAfter))

theorem obtain_dummy_spec (answering : plain → Answering env) (rejecting : RejectsForAQuery agree env)
    (sound : Sound env agree plain s lo hi) (flight : InFlight env s lo hi) (dummy : s.dummyPending = true) :
    Prog.wp (obtainDummy env) (fun _ t => ∃ lo' hi', Sound env agree plain t lo' hi' ∧ InFlight env t lo' hi' ∧
      Received s t lo hi lo' hi' ∧ (t.error = qidLimit → lo' = lo)) (fun _ _ => False) s := by
  have pending := flight.dummy dummy
  simp only [obtainDummy, Prog.wp_bind]
  rcases flight.results with ⟨outcomes, unread, short, answers, cut⟩ | ⟨_, message, qs, unread, lists, whole, rejected⟩
  · rw [dummyAnswer, if_pos dummy] at unread
    refine Prog.wp_ok (get_result_next s _ _ unread) ?_
    simp only [Prog.wp_modify, List.length_singleton, Nat.lt_irrefl, if_false, theDummyValue, ne_eq, not_true, Prog.wp_pure]
    exact ⟨lo, hi, sound_link sound outcomes s.active false s.registered s.clock, in_flight_of_results rfl short answers cut,
      ⟨⟨rfl, rfl, rfl, fun _ => rfl⟩, rfl, Nat.le_refl lo, fun error => ⟨rfl, error⟩⟩, fun _ => rfl⟩
  · refine Prog.wp_ok (get_result_next s _ _ unread) ?_
    have notPlain : ¬ plain := by
      intro calm
      rw [(answering calm).1] at rejected
      cases rejected
    have stops := rejecting _ _ _ rejected
    have linked := sound_link sound [] s.active false s.registered s.clock
    rw [Prog.wp_modify]
    refine Prog.wp_mono (replay_batch_spec notPlain linked pending rfl rfl message qs lists whole stops) ?_ (fun _ _ => id)
    rintro _ t ⟨here, after, soundAfter, idle, noDummy, unhealthy, frame⟩
    refine ⟨here, here, soundAfter, in_flight_of_results noDummy (by simp [idle]) (by simp [idle, Answers]) (by simp [idle]), ?_⟩
    refine ⟨⟨⟨frame.qId, frame.retain, frame.inserted, frame.keys⟩, noDummy, by omega, fun error => ?_⟩, fun error => ?_⟩
    · omega
    · omega

end

end Pqxx
