import Pqxx.PipelineRun

set_option autoImplicit false

namespace Pqxx

open Lib Prog

-- A batch that was sent stays on record.
def Grows (s t : PipelineState) : Prop := s.sent <+: t.sent

theorem grows_framing : Framing Grows where
  same s := List.prefix_refl s.sent
  onward _ _ _ := List.IsPrefix.trans

section

variable {env : Backend}

theorem silent_grows (f : PipelineState → PipelineState) (silent : ∀ s, (f s).sent = s.sent) :
    Keeps Grows (Prog.modify f : Pipe Unit) := by
  intro s
  show s.sent <+: (f s).sent
  have same : s.sent <+: s.sent := List.prefix_refl s.sent
  exact (silent s).symm ▸ same

theorem raise_grows {α : Type} (kind : ExnKind) (what : String) : Keeps Grows (raise kind what : Pipe α) := keeps_throw grows_framing _

theorem of_except_grows {α : Type} (r : Except Exn α) : Keeps Grows (ofExcept r) := by
  cases r with
  | ok a => exact keeps_pure grows_framing a
  | error e => exact keeps_throw grows_framing _

theorem deref_grows (it : Option Nat) : Keeps Grows (deref it) := by
  refine keeps_gets _ fun queries => ?_
  split
  · exact keeps_pure grows_framing _
  · exact keeps_throw grows_framing _

theorem increment_grows (it : Option Nat) : Keeps Grows (increment it) :=
  keeps_bind grows_framing (deref_grows it) fun _ => fun s => List.prefix_refl s.sent

theorem set_result_grows (id : Nat) (res : Result) : Keeps Grows (setResult id res) := silent_grows _ fun _ => rfl

theorem set_error_at_sent (s : PipelineState) (qid : Nat) : (s.setErrorAt qid).sent = s.sent := by
  unfold PipelineState.setErrorAt
  split <;> rfl

theorem set_error_at_grows (qid : Nat) : Keeps Grows (setErrorAt qid) := silent_grows _ fun s => set_error_at_sent s qid

theorem internal_error_grows {α : Type} (err : String) : Keeps Grows (internalError err : Pipe α) :=
  keeps_bind grows_framing (set_error_at_grows 0) fun _ => keeps_throw grows_framing _

theorem consume_input_grows : Keeps Grows (consumeInput env) :=
  keeps_gets _ fun _ => keeps_bind grows_framing (silent_grows _ fun _ => rfl) fun _ => keeps_pure grows_framing _

theorem is_busy_grows : Keeps Grows (isBusy env) :=
  keeps_gets _ fun _ => keeps_bind grows_framing (silent_grows _ fun _ => rfl) fun _ => keeps_pure grows_framing _

theorem get_result_grows : Keeps Grows getResult := by
  intro s
  unfold getResult
  split <;> exact List.prefix_refl _

theorem start_exec_grows (b : Batch) : Keeps Grows (startExec env b) := by
  refine keeps_get fun s => ?_
  refine keeps_ite _ (raise_grows _ _) (keeps_modify _ fun s => ?_)
  exact List.prefix_append _ _

theorem trans_exec_grows (id : Nat) (query : String) : Keeps Grows (transExec env id query) := by
  refine keeps_gets _ fun n => keeps_bind grows_framing (silent_grows _ fun _ => rfl) fun _ => ?_
  split
  · exact keeps_pure grows_framing _
  · exact keeps_throw grows_framing _
  · exact raise_grows _ _

theorem no_result_grows (expectNone : Bool) : Keeps Grows (noResult expectNone) := by
  refine keeps_get fun s => keeps_ite _ ?_ (keeps_pure grows_framing _)
  refine keeps_bind grows_framing (deref_grows _) fun pending => keeps_bind grows_framing (set_error_at_grows _) fun _ => ?_
  exact keeps_bind grows_framing (silent_grows _ fun _ => rfl) fun _ => keeps_pure grows_framing _

theorem got_result_grows (outcome : Outcome) : Keeps Grows (gotResult outcome) := by
  refine keeps_get fun s => keeps_bind grows_framing (deref_grows _) fun oldest => keeps_ite _ ?_ ?_
  · exact keeps_bind grows_framing (set_error_at_grows _) fun _ => raise_grows _ _
  · refine keeps_bind grows_framing (deref_grows _) fun pending => keeps_ite _ (internal_error_grows _) ?_
    refine keeps_bind grows_framing (set_result_grows _ _) fun _ => keeps_bind grows_framing (increment_grows _) fun next => ?_
    exact keeps_bind grows_framing (silent_grows _ fun _ => rfl) fun _ => keeps_pure grows_framing _

theorem obtain_result_grows (expectNone : Bool) : Keeps Grows (obtainResult expectNone) := by
  refine keeps_bind grows_framing get_result_grows fun r => ?_
  cases r with
  | none => exact no_result_grows expectNone
  | some outcome => exact got_result_grows outcome

theorem replay_grows (stop : Option Nat) (turns : Nat) : Keeps Grows (replay env stop turns) := by
  induction turns with
  | zero => exact keeps_pure grows_framing _
  | succ turns ih =>
      refine keeps_bind grows_framing (silent_grows _ fun _ => rfl) fun _ => keeps_gets _ fun here => ?_
      refine keeps_bind grows_framing (deref_grows here) fun pending => ?_
      refine keeps_bind grows_framing (trans_exec_grows _ _) fun res => keeps_bind grows_framing (set_result_grows _ _) fun _ => ?_
      refine keeps_bind grows_framing (of_except_grows _) fun _ => keeps_bind grows_framing (increment_grows here) fun next => ?_
      exact keeps_bind grows_framing (silent_grows _ fun _ => rfl) fun _ => keeps_ite _ ih (keeps_pure grows_framing _)

theorem blame_grows : Keeps Grows blame := by
  refine keeps_gets _ fun here => keeps_bind grows_framing (deref_grows here) fun thud => ?_
  refine keeps_bind grows_framing (increment_grows here) fun next => keeps_bind grows_framing (silent_grows _ fun _ => rfl) fun _ => ?_
  cases next with
  | none => exact set_error_at_grows _
  | some q => exact set_error_at_grows _

theorem replay_batch_grows (message : String) : Keeps Grows (replayBatch env message) := by
  refine keeps_gets _ fun stop => keeps_bind grows_framing (silent_grows _ fun _ => rfl) fun _ => ?_
  refine keeps_bind grows_framing (obtain_result_grows true) fun _ => keeps_bind grows_framing (silent_grows _ fun _ => rfl) fun _ => ?_
  refine keeps_gets _ fun turns => keeps_try_catch grows_framing (replay_grows stop turns) fun e => ?_
  cases e with
  | endDereferenced => exact keeps_throw grows_framing _
  | thrown e => exact blame_grows

theorem obtain_dummy_grows : Keeps Grows (obtainDummy env) := by
  refine keeps_bind grows_framing get_result_grows fun r => keeps_bind grows_framing (silent_grows _ fun _ => rfl) fun _ => ?_
  split
  · exact internal_error_grows _
  · exact replay_batch_grows _
  · refine keeps_ite _ (internal_error_grows _) ?_
    split
    · exact raise_grows _ _
    · exact raise_grows _ _
    · exact keeps_ite _ (internal_error_grows _) (keeps_pure grows_framing _)

theorem get_further_grows (turns : Nat) : Keeps Grows (getFurther env turns) := by
  induction turns with
  | zero => exact keeps_pure grows_framing _
  | succ turns ih =>
      refine keeps_bind grows_framing is_busy_grows fun busy => keeps_ite _ (keeps_pure grows_framing _) ?_
      refine keeps_bind grows_framing (obtain_result_grows false) fun got => keeps_ite _ ?_ (keeps_pure grows_framing _)
      exact keeps_bind grows_framing consume_input_grows fun consumed => keeps_ite _ ih (raise_grows _ _)

theorem receive_until_grows (stop : Option Nat) (turns : Nat) : Keeps Grows (receiveUntil stop turns) := by
  induction turns with
  | zero => exact keeps_pure grows_framing _
  | succ turns ih =>
      refine keeps_bind grows_framing (obtain_result_grows false) fun got => keeps_gets _ fun first => ?_
      exact keeps_ite _ ih (keeps_pure grows_framing _)

theorem receive_grows (stop : Option Nat) : Keeps Grows (receive env stop) := by
  refine keeps_get fun s => keeps_bind grows_framing (keeps_when grows_framing _ obtain_dummy_grows) fun _ => ?_
  refine keeps_gets _ fun results => keeps_bind grows_framing (receive_until_grows stop _) fun _ => keeps_gets _ fun first => ?_
  exact keeps_ite _ (keeps_gets _ fun results => get_further_grows _) (keeps_pure grows_framing _)

theorem issue_grows : Keeps Grows (issue env) := by
  refine keeps_bind grows_framing (obtain_result_grows false) fun _ => keeps_get fun s => ?_
  refine keeps_ite _ (keeps_pure grows_framing _) (keeps_bind grows_framing (start_exec_grows _) fun _ => ?_)
  exact silent_grows _ fun _ => rfl

theorem complete_grows : Keeps Grows (complete env) := by
  refine keeps_get fun s => keeps_bind grows_framing (keeps_when grows_framing _ (receive_grows _)) fun _ => keeps_get fun s => ?_
  refine keeps_bind grows_framing (keeps_when grows_framing _ ?_) fun _ => silent_grows _ fun _ => rfl
  exact keeps_bind grows_framing issue_grows fun _ => receive_grows none

-- The next batch is what waits now with a query that is inserted then, and it is sent.
def Issues (env : Backend) (s : PipelineState) : Prop := ∀ query, ∃ dummy rest,
  (run (pipelineStep env) s [.insert query, .complete]).sent =
    s.sent ++ { dummy, queries := s.queriesFrom s.second ++ [(s.qId + 1, query)] } :: rest

-- A result that is retrieved later on is what became of that very query.
def Owns (env : Backend) (s : PipelineState) : Prop := ∀ ops q,
  Along (Orderly env) (pipelineStep env) s (ops ++ [.retrieve q]) → (s.inserted ++ inserts ops).length < 2147483647 →
    wp (retrieve env q) (fun r t => (q, some r.outcome) ∈ t.executed) (fun _ _ => True) (run (pipelineStep env) s ops)

section

variable {agree : Agreement} {plain : Prop} {s : PipelineState} {lo hi : Nat}

theorem inserted_waiting (sound : Sound env agree plain s lo hi) (room : s.qId + 2 < qidLimit) (query : String) :
    (insertQuery s query).queriesFrom (insertQuery s query).second = s.queriesFrom s.second ++ [(s.qId + 1, query)] := by
  have positive := sound.positive
  have within := sound.within
  have count := sound.count
  rw [issued_queries (sound_insert sound room query), issued_queries sound]
  have last : (insertQuery s query).inserted.drop (hi - 1) = s.inserted.drop (hi - 1) ++ [query] :=
    List.drop_append_of_le_length (by omega)
  rw [last, List.mapIdx_concat, List.length_drop]
  have number : s.inserted.length - (hi - 1) + (hi - 1) + 1 = s.qId + 1 := by omega
  rw [number]

theorem issue_sends (sound : Sound env agree plain s hi hi) (idle : s.unread = []) (healthy : s.error = qidLimit) :
    ∃ dummy t, issue env s = (.ok (), t) ∧ t.sent = s.sent ++ [{ dummy, queries := s.queriesFrom s.second }] ∧ t.queries = s.queries := by
  have calm : s.havePending = false := by
    rw [sound_pending sound]
    exact decide_eq_false (Nat.lt_irrefl hi)
  have well : ¬ ({ s with active := false } : PipelineState).error < qidLimit := by
    show ¬ s.error < qidLimit
    omega
  simp only [issue, Prog.bind_apply, obtain_result_idle idle calm, Prog.get_apply, Prog.ite_apply, if_neg well, startExec,
    Bool.false_eq_true, if_false, Prog.modify_apply]
  exact ⟨_, _, rfl, rfl, rfl⟩

-- With nothing pending, insert() and complete() come down to issue().
theorem insert_idle (room : s.qId ≠ qidLimit) (query : String) (calm : (insertQuery s query).havePending = false) :
    pipelineStep env s (.insert query) =
      if (insertQuery s query).numWaiting > (insertQuery s query).retain then (issue env (insertQuery s query)).2
      else insertQuery s query := by
  simp only [pipelineStep, PipelineOp.call, insert, Prog.bind_apply, enqueue_apply room query, Prog.get_apply, Prog.ite_apply,
    Prog.when_skip _ _ _ (Bool.eq_false_iff.mp calm), Prog.when_run _ _ _ calm]
  by_cases many : (insertQuery s query).numWaiting > (insertQuery s query).retain
  · simp only [if_pos many]
    cases issue env (insertQuery s query) with
    | mk outcome t => cases outcome <;> rfl
  · simp only [if_neg many, Prog.pure_apply]

theorem complete_idle (calm : s.havePending = false) :
    pipelineStep env s .complete =
      if s.numWaiting ≠ 0 ∧ s.error = qidLimit then ((issueRest env >>= fun _ => detach) s).2 else { s with registered := false } := by
  simp only [pipelineStep, PipelineOp.call, complete, Prog.bind_apply, Prog.get_apply, Prog.when_skip _ _ s (Bool.eq_false_iff.mp calm)]
  by_cases due : s.numWaiting ≠ 0 ∧ s.error = qidLimit
  · rw [if_pos due, Prog.when_run _ _ s due]
  · rw [if_neg due, Prog.when_skip _ _ s due]
    rfl

theorem sound_issues (sound : Sound env agree plain s hi hi) (idle : s.unread = []) (healthy : s.error = qidLimit)
    (room : s.qId + 2 < qidLimit) : Issues env s := by
  intro query
  have waiting := inserted_waiting sound room query
  have soundNow := sound_insert sound room query
  have calm : (insertQuery s query).havePending = false := by
    rw [sound_pending soundNow]
    exact decide_eq_false (Nat.lt_irrefl hi)
  have inserted := @insert_idle env s (by omega) query calm
  have idleNow : (insertQuery s query).unread = [] := idle
  have healthyNow : (insertQuery s query).error = qidLimit := healthy
  have sentNow : (insertQuery s query).sent = s.sent := rfl
  have within : hi ≤ (insertQuery s query).qId := sound.within
  generalize insertQuery s query = u at *
  have counted := soundNow.waiting healthyNow
  obtain ⟨dummy, v, issued, sent, _⟩ := @issue_sends env _ _ _ _ soundNow idleNow healthyNow
  rw [waiting, sentNow] at sent
  have grown : Grows v (run (pipelineStep env) s [.insert query, .complete]) := by
    simp only [run_cons, run_nil, inserted]
    by_cases many : u.numWaiting > u.retain
    · rw [if_pos many, issued]
      exact complete_grows v
    · rw [if_neg many, complete_idle calm, if_pos ⟨by omega, healthyNow⟩]
      refine bind_from grows_framing ?_ fun _ => silent_grows _ fun _ => rfl
      rw [issueRest, Prog.bind_apply, issued]
      exact receive_grows none v
  obtain ⟨rest, more⟩ := grown
  exact ⟨dummy, rest, by rw [← more, sent, List.append_assoc, List.singleton_append]⟩

-- A query that failed, or a result that nobody waits for, keeps a batch from being sent.
theorem issue_blocked (sound : Sound env agree plain s hi hi) (stuck : s.error < qidLimit ∨ s.unread ≠ []) (more : hi ≤ s.qId) :
    (issue env s).2.sent = s.sent ∧ (issue env s).2.error < qidLimit ∧ (issue env s).2.havePending = false ∧
      (s.error = qidLimit → ∃ e, (issue env s).1 = .error e) := by
  have calm : s.havePending = false := by
    rw [sound_pending sound]
    exact decide_eq_false (Nat.lt_irrefl hi)
  cases unread : s.unread with
  | nil =>
      have failed : s.error < qidLimit := stuck.resolve_right fun some_ => some_ unread
      have failedNow : ({ s with active := false } : PipelineState).error < qidLimit := failed
      simp only [issue, Prog.bind_apply, obtain_result_idle unread calm, Prog.get_apply, Prog.ite_apply, if_pos failedNow, Prog.pure_apply]
      exact ⟨trivial, failed, calm, fun healthy => by omega⟩
  | cons outcome rest =>
      obtain ⟨w, there⟩ := sound.full hi (Nat.le_refl hi) more
      obtain ⟨oldest, q, begun, found⟩ := s.queries.begin_eq_some hi w there
      have inside := (sound.known oldest q found).2
      have small := sound.small
      have calmNow : PipelineState.havePending { s with unread := rest } = false := calm
      have stopped : issue env s =
          (.error (.thrown { kind := .logicError, what := "Got more results from pipeline than there were queries" }),
            PipelineState.setErrorAt { s with unread := rest } oldest) := by
        simp only [issue, obtainResult, Prog.bind_apply, get_result_next s outcome rest unread, gotResult, Prog.get_apply,
          deref_found { s with unread := rest } _ oldest q begun found, if_pos calmNow, setErrorAt, Prog.modify_apply, raise,
          Prog.throw_apply]
      rw [stopped]
      unfold PipelineState.setErrorAt
      split
      · exact ⟨rfl, by show oldest < qidLimit; omega, calm, fun _ => ⟨_, rfl⟩⟩
      · rename_i early
        have early : ¬ oldest < s.error := early
        exact ⟨rfl, by show s.error < qidLimit; omega, calm, fun _ => ⟨_, rfl⟩⟩

theorem blocked_never_issues (sound : Sound env agree plain s hi hi) (stuck : s.error < qidLimit ∨ s.unread ≠ [])
    (room : s.qId + 2 < qidLimit) : ¬ Issues env s := by
  intro issues
  have query : String := ""
  obtain ⟨dummy, rest, sends⟩ := issues query
  have silent : (run (pipelineStep env) s [.insert query, .complete]).sent = s.sent := by
    have soundNow := sound_insert sound room query
    have calm : (insertQuery s query).havePending = false := by
      rw [sound_pending soundNow]
      exact decide_eq_false (Nat.lt_irrefl hi)
    have inserted := @insert_idle env s (by omega) query calm
    have stuckNow : (insertQuery s query).error < qidLimit ∨ (insertQuery s query).unread ≠ [] := stuck
    have sentNow : (insertQuery s query).sent = s.sent := rfl
    have within : hi ≤ (insertQuery s query).qId := sound.within
    generalize insertQuery s query = u at *
    obtain ⟨sent, failed, idle, thrown⟩ := @issue_blocked env _ _ _ _ soundNow stuckNow within
    simp only [run_cons, run_nil, inserted]
    by_cases many : u.numWaiting > u.retain
    · rw [if_pos many, complete_idle idle, if_neg (by omega), sent, sentNow]
    · rw [if_neg many, complete_idle calm]
      by_cases due : u.numWaiting ≠ 0 ∧ u.error = qidLimit
      · rw [if_pos due]
        obtain ⟨e, outcome⟩ := thrown due.2
        rw [← sentNow, ← sent, Prog.bind_apply, issueRest, Prog.bind_apply]
        cases result : issue env u with
        | mk r t =>
            rw [result] at outcome
            obtain rfl : r = .error e := outcome
            rfl
      · rw [if_neg due, ← sentNow]
  rw [silent] at sends
  have lengths := congrArg List.length sends
  simp only [List.length_append, List.length_cons] at lengths
  omega

theorem linked_owns (rejecting : RejectsForAQuery agree env) (linked : Linked env agree False s) : Owns env s := by
  intro ops q orderly few
  obtain ⟨before, last⟩ := (along_append _ _ _ _ _).mp orderly
  obtain ⟨⟨lo, hi, sound, state⟩, _⟩ := run_linked env agree False (fun impossible => impossible.elim) rejecting s ops linked before
    (fun impossible => impossible.elim) few
  generalize run (pipelineStep env) s ops = u at *
  simp only [retrieve, Prog.wp_bind, Prog.wp_get, Prog.wp_pure]
  cases found : u.queries.find q with
  | none => exact trivial
  | some w =>
      have flowing : InFlight env u lo hi → wp (retrieveAt env (some q)) (fun r t => (q, some r.2.outcome) ∈ t.executed)
          (fun _ _ => True) u := fun flight =>
        wp_mono (retrieve_spec (fun impossible => impossible.elim) rejecting sound flight q w found) (fun _ _ own => own.2.1)
          (fun _ _ _ => trivial)
      rcases state with flight | stale
      · exact flowing flight
      · by_cases silent : u.numWaiting = 0
        · exact wp_mono (retrieve_stale sound stale silent q w found) (fun _ _ own => own.1) (fun _ _ _ => trivial)
        · have idle : u.havePending = false := by
            rw [sound_pending sound]
            exact decide_eq_false (by have := stale.calm; omega)
          have unread := last.1.idle (by simp [issues, found, silent]) idle
          exact flowing (stale_in_flight stale unread)

end

end

end Pqxx
