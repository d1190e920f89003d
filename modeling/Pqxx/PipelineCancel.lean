import Pqxx.PipelineSending

set_option autoImplicit false

namespace Pqxx

open Lib Prog

-- What cancel() is to leave of the pipeline: the queries received before, which can be
-- retrieved at once, and those that wait, which go out with the next that is inserted.
structure CancelClean (env : Backend) (s t : PipelineState) : Prop where
  kept : ∀ id q, s.queries.find id = some q → (∀ x, s.first = some x → id < x) ∨ (∃ y, s.second = some y ∧ y ≤ id) →
    t.queries.find id = some q
  gone : ∀ id x, s.first = some x → x ≤ id → (∀ y, s.second = some y → id < y) → t.queries.find id = none
  retrieved : ∀ id q r, s.queries.find id = some q → (∀ x, s.first = some x → id < x) → q.res = some r →
    (retrieve env id t).1 = match r.checkStatus with
      | .ok _ => .ok r
      | .error e => .error (.thrown e)
  issued : Issues env t
  owned : Owns env t

-- libpq holds no result when cancel() is called.
def CancelSafe (s : PipelineState) (op : PipelineOp) : Prop := op = .cancel → s.unread = []

section

variable {env : Backend} {agree : Agreement} {plain : Prop} {s : PipelineState} {lo hi : Nat}

-- Where nothing is to be read, a cancel() that is cut short does no harm either.
theorem cancelled_flowing {t : PipelineState} {lo' : Nat} (flight : InFlight env s lo hi) (idle : s.unread = []) (onward : lo ≤ lo')
    (sound : Sound env agree plain t lo' hi) (cancelled : Cancelled s t lo lo') : Flowing env agree plain t := by
  have noDummy : s.dummyPending = false := Bool.eq_false_iff.mpr fun dummy => in_flight_dummy flight dummy idle
  obtain ⟨_, _, cut⟩ := in_flight_results flight noDummy
  refine ⟨lo', hi, sound, in_flight_of_results (cancelled.dummyPending.trans noDummy) ?_ ?_ ?_⟩
  · rw [cancelled.unread, idle]
    exact Nat.zero_le _
  · rw [cancelled.unread, idle]
    trivial
  · intro less
    rw [cancelled.executed]
    refine cut ?_
    rw [cancelled.unread, idle] at less
    rw [idle]
    simp only [List.length_nil] at less ⊢
    omega

theorem cancel_flowing (notPlain : ¬ plain) (sound : Sound env agree plain s lo hi) (flight : InFlight env s lo hi) (idle : s.unread = []) :
    Settling (fun t => Flowing env agree plain t ∧ t.inserted = s.inserted) (cancel env) s := by
  have ordered := sound.ordered
  simp only [Settling, cancel, wp_bind, wp_gets]
  refine wp_mono (cancel_pending_spec notPlain _ sound (cancel_turns sound)) ?_ ?_
  · rintro _ t ⟨soundAfter, cancelled⟩
    exact ⟨cancelled_flowing flight idle ordered soundAfter cancelled, cancelled.inserted⟩
  · rintro e t ⟨thrown, lo', from_, _, soundAfter, cancelled, _⟩
    exact ⟨thrown, cancelled_flowing flight idle from_ soundAfter cancelled, cancelled.inserted⟩

theorem run_flowing (rejecting : RejectsForAQuery agree env) (notPlain : ¬ plain) (ops : List PipelineOp) (flowing : Flowing env agree plain s)
    (safe : Along CancelSafe (pipelineStep env) s ops) (few : (s.inserted ++ inserts ops).length < 2147483647) :
    Flowing env agree plain (run (pipelineStep env) s ops) ∧ (run (pipelineStep env) s ops).inserted = s.inserted ++ inserts ops := by
  induction ops generalizing s with
  | nil => exact ⟨flowing, (List.append_nil _).symm⟩
  | cons op ops ih =>
      have split : inserts (op :: ops) = inserts [op] ++ inserts ops := inserts_append [op] ops
      obtain ⟨lo, hi, sound, flight⟩ := flowing
      have room : s.qId + 2 < qidLimit := by
        have count := sound.count
        rw [List.length_append] at few
        unfold qidLimit
        omega
      have called : Settling (fun t => Flowing env agree plain t ∧ t.inserted = insertedBy s op) (op.call env) s := by
        by_cases canceled : op = .cancel
        · subst canceled
          simp only [insertedBy, inserts, List.append_nil]
          exact cancel_flowing notPlain sound flight (safe.1 rfl)
        · exact call_flowing (fun calm => absurd calm notPlain) rejecting sound flight op canceled room fun calm => absurd calm notPlain
      have next : Flowing env agree plain (pipelineStep env s op) ∧ (pipelineStep env s op).inserted = insertedBy s op := by
        unfold Settling wp at called
        unfold pipelineStep
        split at called
        · rename_i outcome
          rw [outcome]
          exact called
        · rename_i outcome
          rw [outcome]
          exact called.2
      rw [split, ← List.append_assoc] at few ⊢
      obtain ⟨after, inserted⟩ := ih next.1 safe.2 (by rw [next.2]; exact few)
      exact ⟨after, by rw [run_cons, inserted, next.2, insertedBy]⟩

-- A result that is in can be retrieved with nothing pending, as long as issue() is not
-- stopped by a result of some other query.
theorem retrieve_received (sound : Sound env agree plain s hi hi) (idle : s.unread = []) (healthy : s.error = qidLimit) (id : Nat)
    (q : Query) (r : Result) (found : s.queries.find id = some q) (received : id < hi) (held : q.res = some r) :
    (retrieve env id s).1 = match r.checkStatus with
      | .ok _ => .ok r
      | .error e => .error (.thrown e) := by
  have inside := (sound.known id q found).2
  have small := sound.small
  have within := sound.within
  have usable : ¬ id ≥ s.error := by omega
  have calm : s.havePending = false := by
    rw [sound_pending sound]
    exact decide_eq_false (Nat.lt_irrefl hi)
  have decided : notIssued id s = (.ok false, s) := by
    simp only [notIssued, Prog.bind_apply, Prog.get_apply]
    by_cases more : hi ≤ s.qId
    · obtain ⟨w, there⟩ := sound.full hi (Nat.le_refl hi) more
      have second : s.second = some hi := by rw [sound.second, iterAt, if_pos more]
      have some_ : ¬ s.second = none := by rw [second]; exact Option.some_ne_none hi
      simp only [if_neg some_, Prog.bind_apply, deref_found s s.second hi w second there, Prog.pure_apply]
      rw [decide_eq_false (by omega)]
    · have second : s.second = none := by rw [sound.second, iterAt, if_neg more]
      simp only [if_pos second, Prog.pure_apply]
  have asked : issueFor env id s = (.ok (), s) := by
    simp only [issueFor, Prog.bind_apply, decided, Bool.false_eq_true, if_false, Prog.pure_apply]
  have looked : receiveFor env id s = (.ok (), s) := by
    simp only [receiveFor, Prog.bind_apply, Prog.get_apply, calm, Bool.false_eq_true, if_false, Prog.pure_apply]
  have sent : ∃ t, Prog.when (s.numWaiting ≠ 0 ∧ s.havePending = false ∧ s.error = qidLimit) (issue env) s = (.ok (), t) ∧
      t.queries.find id = some q := by
    by_cases waits : s.numWaiting ≠ 0 ∧ s.havePending = false ∧ s.error = qidLimit
    · obtain ⟨_, t, issued, _, queries⟩ := @issue_sends env _ _ _ _ sound idle healthy
      exact ⟨t, (Prog.when_run _ _ s waits).trans issued, by rw [queries]; exact found⟩
    · exact ⟨s, Prog.when_skip _ _ s waits, found⟩
  obtain ⟨t, issued, there⟩ := sent
  simp only [retrieve, retrieveAt, Prog.bind_apply, Prog.get_apply, found, Option.map_some, if_neg usable, asked, looked, issued,
    takeResult, deref_found t (some id) id q rfl there, Prog.modify_apply, held]
  cases status : r.checkStatus with
  | ok _ => rfl
  | error e => rfl

theorem cancel_clean (rejecting : RejectsForAQuery agree env) (flowing : Flowing env agree False s) (healthy : s.error = qidLimit)
    (room : s.qId + 2 < qidLimit) :
    wp (cancel env) (fun _ t => CancelClean env s t ↔ s.unread = []) (fun _ _ => True) s := by
  obtain ⟨lo, hi, sound, flight⟩ := flowing
  have ordered := sound.ordered
  have within := sound.within
  simp only [cancel, wp_bind, wp_gets]
  refine wp_mono (cancel_pending_spec id _ sound (cancel_turns sound)) ?_ (fun _ _ _ => trivial)
  rintro _ t ⟨soundAfter, cancelled⟩
  have roomAfter : t.qId + 2 < qidLimit := by
    rw [cancelled.qId]
    exact room
  have received : ∀ id q, s.queries.find id = some q → (∀ x, s.first = some x → id < x) → id < lo := by
    intro id q found before
    have inside := (sound.known id q found).2
    by_cases more : lo ≤ s.qId
    · exact before lo (by rw [sound.first, iterAt, if_pos more])
    · omega
  constructor
  · intro clean
    apply Decidable.byContradiction
    intro held
    rw [← cancelled.unread] at held
    exact blocked_never_issues soundAfter (.inr held) roomAfter clean.issued
  · intro idle
    have idleAfter : t.unread = [] := cancelled.unread.trans idle
    have healthyAfter : t.error = qidLimit := cancelled.error.trans healthy
    refine ⟨fun id q found side => ?_, fun id x first above below => ?_, fun id q r found before held => ?_, ?_, ?_⟩
    · rw [cancelled.find]
      rcases side with before | ⟨y, second, above⟩
      · rw [if_neg (by have := received id q found before; omega)]
        exact found
      · rw [sound.second] at second
        obtain ⟨rfl, _⟩ := iter_at_some second
        rw [if_neg (by omega)]
        exact found
    · rw [sound.first] at first
      obtain ⟨rfl, _⟩ := iter_at_some first
      rw [cancelled.find]
      by_cases inside : id < hi
      · rw [if_pos ⟨above, inside⟩]
      · have last : ¬ hi ≤ s.qId := fun more => inside (below hi (by rw [sound.second, iterAt, if_pos more]))
        rw [if_neg (by omega)]
        cases found : s.queries.find id with
        | none => rfl
        | some q =>
            have := (sound.known id q found).2
            omega
    · have early := received id q found before
      have there : t.queries.find id = some q := by
        rw [cancelled.find, if_neg (by omega)]
        exact found
      exact retrieve_received soundAfter idleAfter healthyAfter id q r there (by omega) held
    · exact sound_issues soundAfter idleAfter healthyAfter roomAfter
    · exact linked_owns rejecting (flowing_linked (cancelled_flowing flight idle ordered soundAfter cancelled))

end

-- After any run in which libpq held no result whenever cancel() was called, and whose
-- refused batches each have a query that fails on its own.
theorem pipeline_cancel (env : Backend) (rejecting : RejectsForAQuery anyError env) (ops : List PipelineOp)
    (safe : Along CancelSafe (pipelineStep env) .start ops) (few : (inserts ops).length < 2147483647) (s : PipelineState)
    (reached : run (pipelineStep env) .start ops = s) (healthy : s.error = qidLimit) :
    wp (cancel env) (fun _ t => CancelClean env s t ↔ s.unread = []) (fun _ _ => True) s := by
  obtain ⟨flowing, inserted⟩ := run_flowing rejecting id ops (start_flowing env anyError False) safe few
  rw [reached] at flowing inserted
  refine cancel_clean rejecting flowing healthy ?_
  obtain ⟨lo, hi, sound, _⟩ := flowing
  have count := sound.count
  rw [inserted, show PipelineState.start.inserted = [] from rfl, List.nil_append] at count
  unfold qidLimit
  omega

-- A backend whose answers are there as soon as they are asked for.
def promptBackend : Backend :=
  { rejects := fun _ _ => none, answer := fun _ query => some (.rows [[query]])
    consumeInput := fun _ => true, isBusy := fun _ => false, cancels := fun _ => true }

def receivedOps : List PipelineOp := [.insert "SELECT 1", .insert "SELECT 2", .resume, .retain 5, .insert "SELECT 3"]

theorem pipeline_cancel_received :
    ∃ s, run (pipelineStep promptBackend) .start receivedOps = s ∧
      wp (cancel promptBackend) (fun _ t => CancelClean promptBackend s t) (fun _ _ => True) s := by
  obtain ⟨s, reached⟩ : ∃ s, run (pipelineStep promptBackend) .start receivedOps = s := ⟨_, rfl⟩
  have healthy : s.error = qidLimit := by
    rw [← reached]
    decide +kernel
  have idle : s.unread = [] := by
    rw [← reached]
    decide +kernel
  refine ⟨s, reached, wp_mono (pipeline_cancel promptBackend (fun _ _ _ refused => nomatch refused) receivedOps ?_ (by decide) s
    reached healthy) (fun _ _ cancelled => cancelled.mpr idle) (fun _ _ => id)⟩
  exact along_of_mem _ _ _ _ fun op there _ canceled =>
    absurd canceled ((by decide : ∀ op ∈ receivedOps, op ≠ PipelineOp.cancel) op there)

-- A query is cancelled while its result is on its way: the next one is never sent.
theorem pipeline_cancel_fails :
    ¬ (∀ (env : Backend) (ops : List PipelineOp) (s : PipelineState), (inserts ops).length < 2147483647 →
      run (pipelineStep env) .start ops = s → s.error = qidLimit →
        wp (cancel env) (fun _ t => CancelClean env s t) (fun _ _ => True) s) := by
  intro claimed
  obtain ⟨s, reached⟩ : ∃ s, run (pipelineStep promptBackend) .start [.insert "SELECT 1"] = s := ⟨_, rfl⟩
  have healthy : s.error = qidLimit := by
    rw [← reached]
    decide +kernel
  have clean := claimed promptBackend [.insert "SELECT 1"] s (by decide) reached healthy
  have returned : (cancel promptBackend s).1 = .ok () := by
    rw [← reached]
    decide +kernel
  have before : (cancel promptBackend s).2.sent.length = 1 := by
    rw [← reached]
    decide +kernel
  have silent : (run (pipelineStep promptBackend) (cancel promptBackend s).2 [.insert "SELECT 2", .complete]).sent.length = 1 := by
    rw [← reached]
    decide +kernel
  obtain ⟨dummy, rest, sends⟩ := (wp_returned clean returned).issued "SELECT 2"
  have lengths := congrArg List.length sends
  rw [silent, List.length_append, List.length_cons, before] at lengths
  omega

end Pqxx
