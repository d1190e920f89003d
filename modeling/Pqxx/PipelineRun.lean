import Pqxx.Lib.Run
import Pqxx.PipelineOperations

set_option autoImplicit false

namespace Pqxx

open Lib

inductive PipelineOp where
  | insert (query : String)
  | complete
  | flush
  | cancel
  | isFinished (q : Nat)
  | retain (retainMax : Int)
  | resume
  | retrieve (q : Nat)
  | retrieveOldest
deriving DecidableEq, Repr

-- A call made by a client that catches whatever it throws and drops what it returns.
def PipelineOp.call (env : Backend) : PipelineOp → Pipe Unit
  | .insert query => do
      let _ ← Pqxx.insert env query
      pure ()
  | .complete => Pqxx.complete env
  | .flush => Pqxx.flush env
  | .cancel => Pqxx.cancel env
  | .isFinished q => do
      let _ ← Pqxx.isFinished q
      pure ()
  | .retain retainMax => do
      let _ ← Pqxx.retain env retainMax
      pure ()
  | .resume => Pqxx.resume env
  | .retrieve q => do
      let _ ← Pqxx.retrieve env q
      pure ()
  | .retrieveOldest => do
      let _ ← Pqxx.retrieveOldest env
      pure ()

def pipelineStep (env : Backend) (s : PipelineState) (op : PipelineOp) : PipelineState := (op.call env s).2

def inserts : List PipelineOp → List String
  | [] => []
  | .insert query :: ops => query :: inserts ops
  | _ :: ops => inserts ops

-- The call gets as far as issue() when nothing is pending and no query has failed.
def issues (s : PipelineState) : PipelineOp → Bool
  | .insert _ => decide (s.numWaiting + 1 > s.retain)
  | .complete => decide (s.numWaiting ≠ 0)
  | .resume => decide (s.numWaiting ≠ 0)
  | .retain retainMax => decide (0 ≤ retainMax ∧ s.numWaiting ≥ retainMax ∧ s.numWaiting ≠ 0)
  | .retrieve q => decide (s.numWaiting ≠ 0) && (s.queries.find q).isSome
  | .retrieveOldest => decide (s.numWaiting ≠ 0)
  | _ => false

section

variable {env : Backend} {agree : Agreement} {plain : Prop} {s : PipelineState} {lo hi : Nat}

-- cancel() has dropped pending queries, and their results are still to be read.
structure Stale (plain : Prop) (s : PipelineState) (lo hi : Nat) : Prop where
  calm : lo = hi
  healthy : s.error = qidLimit
  notPlain : ¬ plain
  dummy : s.dummyPending = true → s.unread ≠ []

def Linked (env : Backend) (agree : Agreement) (plain : Prop) (s : PipelineState) : Prop :=
  ∃ lo hi, Sound env agree plain s lo hi ∧ (InFlight env s lo hi ∨ Stale plain s lo hi)

-- Nothing but the results of pending queries is on its way.
def Flowing (env : Backend) (agree : Agreement) (plain : Prop) (s : PipelineState) : Prop :=
  ∃ lo hi, Sound env agree plain s lo hi ∧ InFlight env s lo hi

theorem flowing_linked (flowing : Flowing env agree plain s) : Linked env agree plain s := by
  obtain ⟨lo, hi, sound, flight⟩ := flowing
  exact ⟨lo, hi, sound, .inl flight⟩

theorem stale_in_flight (stale : Stale plain s lo hi) (idle : s.unread = []) : InFlight env s lo hi := by
  have noDummy : s.dummyPending = false := Bool.eq_false_iff.mpr fun dummy => stale.dummy dummy idle
  have calm := stale.calm
  exact in_flight_of_results noDummy (by simp [idle]) (by simp [idle, Answers]) (by simp [calm])

theorem sound_cancel (notPlain : ¬ plain) (sound : Sound env agree plain s lo hi) (pending : lo < hi) (clock : Nat) :
    Sound env agree plain { s with first := iterAt s.qId (lo + 1), queries := s.queries.erase lo, clock } (lo + 1) hi := by
  have found : ∀ id w, (s.queries.erase lo).find id = some w → id ≠ lo ∧ s.queries.find id = some w := by
    intro id w there
    rw [OrdMap.find_erase] at there
    by_cases gone : id = lo
    · rw [if_pos gone] at there
      cases there
    · rw [if_neg gone] at there
      exact ⟨gone, there⟩
  exact {
    first := rfl
    second := sound.second
    positive := by omega
    ordered := pending
    within := sound.within
    small := sound.small
    known := fun id w there => sound.known id w (found id w there).2
    full := fun id from_ inside => by
      obtain ⟨w, there⟩ := sound.full id (by omega) inside
      exact ⟨w, by rw [OrdMap.find_erase, if_neg (by omega), there]⟩
    text := fun id w there => sound.text id w (found id w there).2
    count := sound.count
    own := fun id w there below usable => by
      obtain ⟨other, there⟩ := found id w there
      exact sound.own id w there (by omega) usable
    blank := fun id w there above => sound.blank id w (found id w there).2 (by omega)
    waiting := sound.waiting
    limit := sound.limit
    stopped := fun error => by
      have unhealthy : s.error < qidLimit := error
      have := (sound.stopped unhealthy).1
      omega
    record := fun calm => absurd calm notPlain }

-- The queries from lo to lo' are gone; all else is as it was, libpq's side included.
structure Cancelled (s t : PipelineState) (lo lo' : Nat) : Prop where
  unread : t.unread = s.unread
  error : t.error = s.error
  dummyPending : t.dummyPending = s.dummyPending
  inserted : t.inserted = s.inserted
  executed : t.executed = s.executed
  qId : t.qId = s.qId
  find : ∀ id, t.queries.find id = if lo ≤ id ∧ id < lo' then none else s.queries.find id

-- cancel() goes on until a request fails.
theorem cancel_pending_spec (notPlain : ¬ plain) (turns : Nat) (sound : Sound env agree plain s lo hi) (enough : hi - lo < turns) :
    Prog.wp (cancelPending env turns) (fun _ t => Sound env agree plain t hi hi ∧ Cancelled s t lo hi)
      (fun e t => (∃ x, e = .thrown x) ∧ ∃ lo', lo ≤ lo' ∧ lo' < hi ∧ Sound env agree plain t lo' hi ∧ Cancelled s t lo lo' ∧
        (lo < lo' → env.cancels s.clock = true) ∧ env.cancels (s.clock + (lo' - lo)) = false) s := by
  induction turns generalizing s lo with
  | zero => omega
  | succ turns ih =>
      simp only [cancelPending, Prog.wp_bind, Prog.wp_get]
      refine Prog.wp_ite _ _ _ _ _ _ (fun busy => ?_) (fun calm => ?_)
      · have pending := sound_busy sound busy
        have within := sound.within
        obtain ⟨w, there⟩ := sound.full lo (Nat.le_refl lo) (by omega)
        have first : s.first = some lo := by rw [sound.first, iterAt, if_pos (by omega)]
        simp only [cancelQuery, Prog.wp_bind, Prog.wp_gets, Prog.wp_modify]
        refine Prog.wp_ite _ _ _ _ _ _ (fun granted => ?_) (fun refused => ?_)
        · rw [Prog.wp_pure]
          refine Prog.wp_ok (deref_found _ s.first lo w first there) ?_
          refine Prog.wp_ok (increment_found _ s.first lo w first there) ?_
          simp only [sound_next sound lo (Nat.le_refl lo) (by omega)]
          have onward : ∀ (t : PipelineState) (lo' : Nat), lo < lo' →
              Cancelled { s with clock := s.clock + 1, first := iterAt s.qId (lo + 1), queries := s.queries.erase lo } t (lo + 1) lo' →
                Cancelled s t lo lo' := by
            intro t lo' less more
            refine ⟨more.unread, more.error, more.dummyPending, more.inserted, more.executed, more.qId, fun id => ?_⟩
            rw [more.find, OrdMap.find_erase]
            by_cases here : id = lo
            · rw [if_neg (by omega), if_pos here, if_pos (by omega)]
            · by_cases gone : lo + 1 ≤ id ∧ id < lo'
              · rw [if_pos gone, if_pos (by omega)]
              · rw [if_neg gone, if_neg here, if_neg (by omega)]
          refine Prog.wp_mono (ih (sound_cancel notPlain sound pending (s.clock + 1)) (by omega)) ?_ ?_
          · rintro _ t ⟨soundAfter, cancelled⟩
            exact ⟨soundAfter, onward t hi pending cancelled⟩
          · rintro e t ⟨thrown, lo', from_, before, soundAfter, cancelled, _, refused⟩
            refine ⟨thrown, lo', by omega, before, soundAfter, onward t lo' (by omega) cancelled, fun _ => granted, ?_⟩
            rw [show s.clock + (lo' - lo) = s.clock + 1 + (lo' - (lo + 1)) by omega]
            exact refused
        · rw [raise, Prog.wp_throw]
          refine ⟨⟨_, rfl⟩, lo, Nat.le_refl lo, pending, sound_clock sound (s.clock + 1), ?_, fun less => absurd less (Nat.lt_irrefl lo), ?_⟩
          · exact ⟨rfl, rfl, rfl, rfl, rfl, rfl, fun id => by rw [if_neg (by omega)]⟩
          · rw [Nat.sub_self, Nat.add_zero]
            exact Bool.eq_false_iff.mpr refused
      · obtain rfl := sound_calm sound (Bool.eq_false_iff.mpr calm)
        exact ⟨sound, rfl, rfl, rfl, rfl, rfl, rfl, fun id => by rw [if_neg (by omega)]⟩

theorem cancel_turns (sound : Sound env agree plain s lo hi) : hi - lo < s.queries.entries.length + 1 := by
  have bound := List.length_filter_le (fun e : Nat × Query => decide (lo ≤ e.1 ∧ e.1 < hi)) s.queries.entries
  rw [range_length sound lo hi (Nat.le_refl lo) sound.within] at bound
  omega

-- A call ends in a state of the kind wanted, and dereferences no end iterator.
def Settling (wanted : PipelineState → Prop) (m : Pipe Unit) (s : PipelineState) : Prop :=
  Prog.wp m (fun _ t => wanted t) (fun e t => (∃ x, e = .thrown x) ∧ wanted t) s

-- It leaves everything linked.
def Linking (env : Backend) (agree : Agreement) (plain : Prop) (inserted : List String) (m : Pipe Unit) (s : PipelineState) : Prop :=
  Settling (fun t => Linked env agree plain t ∧ t.inserted = inserted) m s

theorem severed_thrown {e : Stop} (severed : Severed env e) : ∃ x, e = .thrown x := ⟨_, severed.1⟩

theorem settling_of {α : Type} {wanted : PipelineState → Prop} {m : Pipe α} {post : α → PipelineState → Prop}
    {raised : Stop → PipelineState → Prop} (spec : Prog.wp m post raised s) (value : ∀ a t, post a t → wanted t)
    (failure : ∀ e t, raised e t → (∃ x, e = .thrown x) ∧ wanted t) : Settling wanted (do let _ ← m; pure ()) s := by
  simp only [Settling, Prog.wp_bind, Prog.wp_pure]
  exact Prog.wp_mono spec value failure

theorem done_flowing {t : PipelineState} (done : Done env agree plain s t) : Flowing env agree plain t ∧ t.inserted = s.inserted := by
  obtain ⟨lo', hi', sound, flight, frame⟩ := done
  exact ⟨⟨lo', hi', sound, flight⟩, frame.inserted⟩

theorem through_flowing {t : PipelineState} (through : Through env agree plain s t) : Flowing env agree plain t ∧ t.inserted = s.inserted :=
  ⟨through.2.2, through.2.1⟩

-- What a call asks of its state: libpq holds no results of cancelled queries when a
-- batch is to be issued, and a cancellation that starts goes through.
structure Orderly (env : Backend) (s : PipelineState) (op : PipelineOp) : Prop where
  idle : issues s op = true → s.havePending = false → s.unread = []
  granted : op = .cancel → env.cancels s.clock = true →
    ∀ t, s.clock ≤ t → t < s.clock + s.distance s.first s.second → env.cancels t = true

theorem in_flight_dummy (flight : InFlight env s lo hi) (dummy : s.dummyPending = true) : s.unread ≠ [] := by
  rcases flight.results with ⟨outcomes, there, _⟩ | ⟨_, message, queries, there, _⟩
  · rw [there, dummyAnswer, if_pos dummy]
    exact List.cons_ne_nil _ _
  · rw [there]
    exact List.cons_ne_nil _ _

theorem lists_same {queries queries' : OrdMap Nat Query} (same : ∀ id, queries'.find id = queries.find id) (here : Nat)
    (qs : List (Nat × String)) (lists : Lists queries here qs) : Lists queries' here qs := by
  induction qs generalizing here with
  | nil => trivial
  | cons head rest ih =>
      obtain ⟨key, ⟨q, found, text⟩, more⟩ := lists
      exact ⟨key, ⟨q, (same head.1).trans found, text⟩, ih (here + 1) more⟩

theorem in_flight_uncancelled {t : PipelineState} (flight : InFlight env s lo hi) (cancelled : Cancelled s t lo lo) : InFlight env t lo hi := by
  have same : ∀ id, t.queries.find id = s.queries.find id := fun id => by rw [cancelled.find, if_neg (by omega)]
  have dummy : dummyAnswer t = dummyAnswer s := by rw [dummyAnswer, dummyAnswer, cancelled.dummyPending]
  refine ⟨fun there => flight.dummy (cancelled.dummyPending.symm.trans there), ?_⟩
  rw [cancelled.unread, cancelled.executed, cancelled.dummyPending, dummy]
  refine flight.results.imp id ?_
  rintro ⟨there, message, queries, unread, lists, rest⟩
  exact ⟨there, message, queries, unread, lists_same same lo queries lists, rest⟩

theorem cancel_linking (notPlain : ¬ plain) (sound : Sound env agree plain s lo hi) (flight : InFlight env s lo hi)
    (granted : env.cancels s.clock = true → ∀ t, s.clock ≤ t → t < s.clock + (hi - lo) → env.cancels t = true) :
    Linking env agree plain s.inserted (cancel env) s := by
  simp only [Linking, Settling, cancel, Prog.wp_bind, Prog.wp_gets]
  refine Prog.wp_mono (cancel_pending_spec notPlain _ sound (cancel_turns sound)) ?_ ?_
  · rintro _ t ⟨soundAfter, cancelled⟩
    have inserted := cancelled.inserted
    refine ⟨?_, inserted⟩
    by_cases pending : lo < hi
    · refine ⟨hi, hi, soundAfter, .inr ⟨rfl, cancelled.error.trans (sound_healthy sound pending), notPlain, fun dummy => ?_⟩⟩
      rw [cancelled.dummyPending] at dummy
      rw [cancelled.unread]
      exact in_flight_dummy flight dummy
    · obtain rfl : lo = hi := by
        have := sound.ordered
        omega
      obtain ⟨idle, noDummy⟩ := in_flight_idle flight rfl
      refine ⟨lo, lo, soundAfter, .inl (in_flight_of_results (cancelled.dummyPending.trans noDummy) ?_ ?_ ?_)⟩
      · rw [cancelled.unread, idle]
        exact Nat.zero_le _
      · rw [cancelled.unread, idle]
        trivial
      · omega
  · rintro e t ⟨thrown, lo', from_, before, soundAfter, cancelled, first, refused⟩
    obtain rfl : lo' = lo := by
      apply Decidable.byContradiction
      intro different
      rw [granted (first (by omega)) _ (Nat.le_add_right _ _) (by omega)] at refused
      cases refused
    exact ⟨thrown, ⟨lo', hi, soundAfter, .inl (in_flight_uncancelled flight cancelled)⟩, cancelled.inserted⟩

theorem begin_found (queries : OrdMap Nat Query) (q : Nat) (begun : queries.begin = some q) : ∃ w, queries.find q = some w := by
  obtain ⟨entries, sorted⟩ := queries
  cases entries with
  | nil => cases begun
  | cons head rest =>
      obtain rfl := Option.some.inj begun
      exact ⟨head.2, (OrdMap.mem_entries_iff _ _ _).mp List.mem_cons_self⟩

theorem retrieve_flowing (answering : plain → Answering env) (rejecting : RejectsForAQuery agree env) (sound : Sound env agree plain s lo hi)
    (flight : InFlight env s lo hi) (q : Nat) (w : Query) (there : s.queries.find q = some w) :
    Prog.wp (retrieveAt env (some q)) (fun _ t => Flowing env agree plain t ∧ t.inserted = s.inserted)
      (fun e t => (∃ x, e = .thrown x) ∧ Flowing env agree plain t ∧ t.inserted = s.inserted) s := by
  refine Prog.wp_mono (retrieve_spec answering rejecting sound flight q w there) ?_ ?_
  · rintro _ t ⟨_, _, through⟩
    exact through_flowing through
  · rintro e t ⟨severed | ⟨thrown, _⟩, through⟩
    · exact ⟨severed_thrown severed, through_flowing through⟩
    · exact ⟨thrown, through_flowing through⟩

theorem retrieve_call (wanted : PipelineState → Prop) (q : Nat)
    (spec : ∀ w, s.queries.find q = some w →
      Prog.wp (retrieveAt env (some q)) (fun _ t => wanted t) (fun e t => (∃ x, e = .thrown x) ∧ wanted t) s)
    (kept : wanted s) : Settling wanted (PipelineOp.call env (.retrieve q)) s := by
  simp only [Settling, PipelineOp.call, retrieve, Prog.wp_bind, Prog.wp_get, Prog.wp_pure]
  cases found : s.queries.find q with
  | none =>
      simp only [Option.map_none, retrieveAt, raise, Prog.wp_throw]
      exact ⟨⟨_, rfl⟩, kept⟩
  | some w => exact spec w found

theorem retrieve_oldest_call (wanted : PipelineState → Prop)
    (spec : ∀ q w, s.queries.find q = some w →
      Prog.wp (retrieveAt env (some q)) (fun _ t => wanted t) (fun e t => (∃ x, e = .thrown x) ∧ wanted t) s)
    (kept : wanted s) : Settling wanted (PipelineOp.call env .retrieveOldest) s := by
  simp only [Settling, PipelineOp.call, retrieveOldest, Prog.wp_bind, Prog.wp_get, Prog.wp_pure]
  cases begun : s.queries.begin with
  | none => exact ⟨⟨_, rfl⟩, kept⟩
  | some q =>
      obtain ⟨w, found⟩ := begin_found s.queries q begun
      exact spec q w found

def insertedBy (s : PipelineState) (op : PipelineOp) : List String := s.inserted ++ inserts [op]

-- Every call but cancel().
theorem call_flowing (answering : plain → Answering env) (rejecting : RejectsForAQuery agree env) (sound : Sound env agree plain s lo hi)
    (flight : InFlight env s lo hi) (op : PipelineOp) (other : op ≠ .cancel) (room : s.qId + 2 < qidLimit)
    (allowed : plain → op ≠ .flush) :
    Settling (fun t => Flowing env agree plain t ∧ t.inserted = insertedBy s op) (op.call env) s := by
  have kept : Flowing env agree plain s ∧ s.inserted = s.inserted := ⟨⟨lo, hi, sound, flight⟩, rfl⟩
  have finished : ∀ (m : Pipe Unit), Prog.wp m (fun _ t => Done env agree plain s t) (fun e t => Severed env e ∧ Done env agree plain s t) s →
      Settling (fun t => Flowing env agree plain t ∧ t.inserted = s.inserted) m s := fun m spec =>
    Prog.wp_mono spec (fun _ _ done => done_flowing done) fun _ _ bad => ⟨severed_thrown bad.1, done_flowing bad.2⟩
  cases op with
  | insert query =>
      refine settling_of (insert_spec answering rejecting sound flight room query) ?_ ?_
      · rintro _ t ⟨_, done⟩
        exact done_flowing done
      · rintro e t ⟨severed, done⟩
        exact ⟨severed_thrown severed, done_flowing done⟩
  | complete =>
      simp only [insertedBy, inserts, List.append_nil]
      exact finished _ (Prog.wp_mono (complete_spec answering rejecting sound flight) (fun _ _ done => done.1) (fun _ _ => id))
  | resume =>
      simp only [insertedBy, inserts, List.append_nil]
      exact finished _ (resume_spec answering rejecting sound flight)
  | flush =>
      simp only [insertedBy, inserts, List.append_nil]
      have notPlain : ¬ plain := fun calm => allowed calm rfl
      refine Prog.wp_mono (flush_spec answering rejecting notPlain sound flight) (fun _ _ => through_flowing) ?_
      exact fun _ _ bad => ⟨severed_thrown bad.1, done_flowing bad.2⟩
  | cancel => exact absurd rfl other
  | isFinished q =>
      simp only [insertedBy, inserts, List.append_nil]
      refine settling_of (is_finished_spec sound q) ?_ ?_
      · rintro _ t ⟨rfl, _⟩
        exact kept
      · rintro e t ⟨rfl, _, x, _, thrown⟩
        exact ⟨⟨x, thrown⟩, kept⟩
  | retain retainMax =>
      simp only [insertedBy, inserts, List.append_nil]
      refine settling_of (retain_spec answering rejecting sound flight retainMax) (fun _ _ => through_flowing) ?_
      rintro e t ⟨severed | ⟨_, thrown⟩, through⟩
      · exact ⟨severed_thrown severed, through_flowing through⟩
      · exact ⟨thrown, through_flowing through⟩
  | retrieve q =>
      simp only [insertedBy, inserts, List.append_nil]
      exact retrieve_call _ q (retrieve_flowing answering rejecting sound flight q) kept
  | retrieveOldest =>
      simp only [insertedBy, inserts, List.append_nil]
      exact retrieve_oldest_call _ (retrieve_flowing answering rejecting sound flight) kept

theorem call_flight (answering : plain → Answering env) (rejecting : RejectsForAQuery agree env) (sound : Sound env agree plain s lo hi)
    (flight : InFlight env s lo hi) (op : PipelineOp) (orderly : Orderly env s op) (room : s.qId + 2 < qidLimit)
    (allowed : plain → op ≠ .flush ∧ op ≠ .cancel) : Linking env agree plain (insertedBy s op) (op.call env) s := by
  by_cases canceled : op = .cancel
  · subst canceled
    simp only [insertedBy, inserts, List.append_nil]
    have notPlain : ¬ plain := fun calm => (allowed calm).2 rfl
    refine cancel_linking notPlain sound flight fun granting => ?_
    rw [← distance_range sound, ← sound.first, ← sound.second]
    exact orderly.granted rfl granting
  · refine Prog.wp_mono (call_flowing answering rejecting sound flight op canceled room fun calm => (allowed calm).1) ?_ ?_
    · exact fun _ _ kept => ⟨flowing_linked kept.1, kept.2⟩
    · exact fun _ _ kept => ⟨kept.1, flowing_linked kept.2.1, kept.2.2⟩

theorem retrieve_stale (sound : Sound env agree plain s lo hi) (stale : Stale plain s lo hi) (none_ : s.numWaiting = 0) (q : Nat) (w : Query)
    (there : s.queries.find q = some w) :
    Prog.wp (retrieveAt env (some q)) (fun r t => (q, some r.2.outcome) ∈ t.executed ∧ Linked env agree plain t ∧ t.inserted = s.inserted)
      (fun e t => (∃ x, e = .thrown x) ∧ Linked env agree plain t ∧ t.inserted = s.inserted) s := by
  have healthy := stale.healthy
  have counted := sound.waiting healthy
  have calm := stale.calm
  have within := sound.within
  have small := sound.small
  have inside := (sound.known q w there).2
  have idle : s.havePending = false := by
    rw [sound_pending sound]
    exact decide_eq_false (by omega)
  have ended : s.second = none := by rw [sound.second, iterAt, if_neg (by omega)]
  have usable : ¬ q ≥ s.error := by omega
  have asked : issueFor env q s = (.ok (), s) := by
    simp only [issueFor, notIssued, Prog.bind_apply, Prog.get_apply, ended, if_true, Prog.pure_apply, Bool.false_eq_true, if_false]
  have looked : receiveFor env q s = (.ok (), s) := by
    simp only [receiveFor, Prog.bind_apply, Prog.get_apply, idle, Bool.false_eq_true, if_false, Prog.pure_apply]
  have erased : Linked env agree plain { s with queries := s.queries.erase q } ∧ s.inserted = s.inserted :=
    ⟨⟨lo, hi, sound_erase sound q (by omega), .inr ⟨calm, healthy, stale.notPlain, stale.dummy⟩⟩, rfl⟩
  simp only [retrieveAt, Prog.wp_bind, Prog.wp_get]
  rw [if_neg usable]
  simp only [Prog.wp_bind]
  refine Prog.wp_ok asked (Prog.wp_ok looked ?_)
  rw [Prog.wp_get, if_neg usable]
  simp only [Prog.wp_bind]
  refine Prog.wp_when _ _ _ _ _ (fun waiting => absurd none_ waiting.1) (fun _ => ?_)
  refine Prog.wp_mono (take_result_spec sound q w there (by omega) (by omega)) ?_ ?_
  · rintro _ t ⟨_, executed, rfl⟩
    exact ⟨executed, erased⟩
  · rintro e t ⟨thrown, _, rfl⟩
    exact ⟨thrown, erased⟩

theorem resume_still (s : PipelineState) (idle : s.havePending = false) (nothing : s.numWaiting = 0) :
    resume env s = (.ok (), s) := by
  have quiet : ¬ (s.havePending = false ∧ s.numWaiting ≠ 0) := fun waiting => waiting.2 nothing
  simp only [resume, Prog.bind_apply, Prog.get_apply, Prog.when_skip _ _ s (Bool.eq_false_iff.mp idle), if_neg quiet,
    Prog.pure_apply]

-- With results of cancelled queries unread, a call that issues nothing reads none.
theorem call_stale (sound : Sound env agree plain s lo hi) (stale : Stale plain s lo hi) (op : PipelineOp) (silent : issues s op = false)
    (room : s.qId + 2 < qidLimit) : Linking env agree plain (insertedBy s op) (op.call env) s := by
  have healthy := stale.healthy
  have counted := sound.waiting healthy
  have calm := stale.calm
  have idle : s.havePending = false := by
    rw [sound_pending sound]
    exact decide_eq_false (by omega)
  have kept : Linked env agree plain s ∧ s.inserted = s.inserted := ⟨⟨lo, hi, sound, .inr stale⟩, rfl⟩
  have resumed : s.numWaiting = 0 → ∀ retain, resume env { s with retain } = (.ok (), { s with retain }) :=
    fun nothing retain => resume_still { s with retain } idle nothing
  have retained : ∀ retain, Linked env agree plain { s with retain } := fun retain =>
    ⟨lo, hi, sound_retain sound retain, .inr ⟨calm, healthy, stale.notPlain, stale.dummy⟩⟩
  have retrieved : s.numWaiting = 0 → ∀ q w, s.queries.find q = some w → Prog.wp (retrieveAt env (some q))
      (fun _ t => Linked env agree plain t ∧ t.inserted = s.inserted)
      (fun e t => (∃ x, e = .thrown x) ∧ Linked env agree plain t ∧ t.inserted = s.inserted) s := fun nothing q w found =>
    Prog.wp_mono (retrieve_stale sound stale nothing q w found) (fun _ _ own => own.2) (fun _ _ => id)
  cases op with
  | insert query =>
      have few : ¬ (insertQuery s query).numWaiting > (insertQuery s query).retain := of_decide_eq_false silent
      have enqueued : insert env query s = (.ok (s.qId + 1), insertQuery s query) := by
        simp only [insert, Prog.bind_apply, enqueue_apply (by omega : s.qId ≠ qidLimit) query, Prog.get_apply, if_neg few,
          Prog.pure_apply]
      have called : (PipelineOp.insert query).call env s = (.ok (), insertQuery s query) := by
        simp only [PipelineOp.call, Prog.bind_apply, enqueued, Prog.pure_apply]
      exact Prog.wp_ok called ⟨⟨lo, hi, sound_insert sound room query, .inr ⟨calm, healthy, stale.notPlain, stale.dummy⟩⟩, rfl⟩
  | complete =>
      simp only [insertedBy, inserts, List.append_nil]
      have nothing : s.numWaiting = 0 := by simpa [issues] using silent
      have through : complete env s = (.ok (), { s with registered := false }) := by
        have quiet : ¬ (s.numWaiting ≠ 0 ∧ s.error = qidLimit) := fun waiting => waiting.1 nothing
        simp only [complete, Prog.bind_apply, Prog.get_apply, Prog.when_skip _ _ s (Bool.eq_false_iff.mp idle),
          Prog.when_skip _ _ s quiet, detach, Prog.modify_apply]
      exact Prog.wp_ok through ⟨⟨lo, hi, sound_link sound s.unread s.active s.dummyPending false s.clock,
        .inr ⟨calm, healthy, stale.notPlain, stale.dummy⟩⟩, rfl⟩
  | resume =>
      simp only [insertedBy, inserts, List.append_nil]
      have nothing : s.numWaiting = 0 := by simpa [issues] using silent
      exact Prog.wp_ok (resumed nothing s.retain) kept
  | flush =>
      simp only [insertedBy, inserts, List.append_nil]
      simp only [Linking, Settling, PipelineOp.call, flush, Prog.wp_bind, Prog.wp_get]
      refine Prog.wp_when _ _ _ _ _ (fun _ => ?_) (fun _ => ?_)
      · simp only [forget, Prog.wp_bind, Prog.wp_get]
        refine Prog.wp_when _ _ _ _ _ (fun busy => absurd busy (by rw [idle]; exact Bool.false_ne_true)) (fun _ => ?_)
        exact ⟨⟨s.qId + 1, s.qId + 1, sound_link (sound_forget stale.notPlain sound) s.unread s.active false false s.clock,
          .inr ⟨rfl, healthy, stale.notPlain, fun dummy => Bool.noConfusion dummy⟩⟩, rfl⟩
      · exact ⟨⟨lo, hi, sound_link sound s.unread s.active s.dummyPending false s.clock,
          .inr ⟨calm, healthy, stale.notPlain, stale.dummy⟩⟩, rfl⟩
  | cancel =>
      simp only [insertedBy, inserts, List.append_nil]
      have still : cancel env s = (.ok (), s) := by
        simp only [cancel, cancelPending, Prog.bind_apply, Prog.gets_apply, Prog.get_apply, idle, Bool.false_eq_true, if_false,
          Prog.pure_apply]
      exact Prog.wp_ok still kept
  | isFinished q =>
      simp only [insertedBy, inserts, List.append_nil]
      refine settling_of (is_finished_spec sound q) ?_ ?_
      · rintro _ t ⟨rfl, _⟩
        exact kept
      · rintro e t ⟨rfl, _, x, _, thrown⟩
        exact ⟨⟨x, thrown⟩, kept⟩
  | retain retainMax =>
      simp only [insertedBy, inserts, List.append_nil]
      simp only [Linking, Settling, PipelineOp.call, retain, Prog.wp_bind]
      refine Prog.wp_ite _ _ _ _ _ _ (fun _ => ⟨⟨_, rfl⟩, kept⟩) (fun positive => ?_)
      simp only [Prog.wp_bind, Prog.wp_gets, Prog.wp_get, Prog.wp_modify, Prog.wp_pure]
      refine Prog.wp_when _ _ _ _ _ (fun enough => ?_) (fun _ => ⟨retained retainMax, rfl⟩)
      have nothing : s.numWaiting = 0 := by
        have enough : s.numWaiting ≥ retainMax := enough
        simp only [issues, decide_eq_false_iff_not] at silent
        omega
      exact Prog.wp_ok (resumed nothing retainMax) ⟨retained retainMax, rfl⟩
  | retrieve q =>
      simp only [insertedBy, inserts, List.append_nil]
      refine retrieve_call _ q (fun w found => ?_) kept
      have nothing : s.numWaiting = 0 := by simpa [issues, found] using silent
      exact retrieved nothing q w found
  | retrieveOldest =>
      simp only [insertedBy, inserts, List.append_nil]
      have nothing : s.numWaiting = 0 := by simpa [issues] using silent
      exact retrieve_oldest_call _ (retrieved nothing) kept

theorem call_linking (answering : plain → Answering env) (rejecting : RejectsForAQuery agree env) (linked : Linked env agree plain s)
    (op : PipelineOp) (orderly : Orderly env s op) (room : s.qId + 2 < qidLimit) (allowed : plain → op ≠ .flush ∧ op ≠ .cancel) :
    Linking env agree plain (insertedBy s op) (op.call env) s := by
  obtain ⟨lo, hi, sound, flight | stale⟩ := linked
  · exact call_flight answering rejecting sound flight op orderly room allowed
  · by_cases silent : issues s op = false
    · exact call_stale sound stale op silent room
    · have idle : s.havePending = false := by
        rw [sound_pending sound]
        exact decide_eq_false (by have := stale.calm; omega)
      have unread := orderly.idle (by simpa using silent) idle
      exact call_flight answering rejecting sound (stale_in_flight stale unread) op orderly room allowed

end

theorem start_flowing (env : Backend) (agree : Agreement) (plain : Prop) : Flowing env agree plain PipelineState.start := by
  refine ⟨1, 1, ?_, in_flight_of_results rfl (Nat.zero_le _) trivial fun less => absurd less (Nat.lt_irrefl 0)⟩
  exact {
    first := rfl
    second := rfl
    positive := Nat.le_refl 1
    ordered := Nat.le_refl 1
    within := Nat.le_refl 1
    small := by decide
    known := fun id q there => by simp only [PipelineState.start, OrdMap.find_empty, reduceCtorEq] at there
    full := fun id from_ inside => by
      have inside : id ≤ 0 := inside
      omega
    text := fun id q there => by simp only [PipelineState.start, OrdMap.find_empty, reduceCtorEq] at there
    count := rfl
    own := fun id q there => by simp only [PipelineState.start, OrdMap.find_empty, reduceCtorEq] at there
    blank := fun id q there => by simp only [PipelineState.start, OrdMap.find_empty, reduceCtorEq] at there
    waiting := fun _ => rfl
    limit := Nat.le_refl _
    stopped := fun error => absurd error (by decide)
    record := fun _ => ⟨rfl, rfl⟩ }

theorem start_linked (env : Backend) (agree : Agreement) (plain : Prop) : Linked env agree plain PipelineState.start :=
  flowing_linked (start_flowing env agree plain)

theorem inserts_append (left right : List PipelineOp) : inserts (left ++ right) = inserts left ++ inserts right := by
  induction left with
  | nil => rfl
  | cons op ops ih => cases op <;> simp only [List.cons_append, inserts, ih]

theorem run_linked (env : Backend) (agree : Agreement) (plain : Prop) (answering : plain → Answering env) (rejecting : RejectsForAQuery agree env)
    (s : PipelineState) (ops : List PipelineOp) (linked : Linked env agree plain s)
    (orderly : Along (Orderly env) (pipelineStep env) s ops) (allowed : plain → ∀ op ∈ ops, op ≠ .flush ∧ op ≠ .cancel)
    (few : (s.inserted ++ inserts ops).length < 2147483647) :
    Linked env agree plain (run (pipelineStep env) s ops) ∧ (run (pipelineStep env) s ops).inserted = s.inserted ++ inserts ops := by
  induction ops generalizing s with
  | nil => exact ⟨linked, (List.append_nil _).symm⟩
  | cons op ops ih =>
      have split : inserts (op :: ops) = inserts [op] ++ inserts ops := inserts_append [op] ops
      have room : s.qId + 2 < qidLimit := by
        obtain ⟨lo, hi, sound, _⟩ := linked
        have count := sound.count
        rw [List.length_append] at few
        unfold qidLimit
        omega
      have called := call_linking answering rejecting linked op orderly.1 room fun calm => allowed calm op List.mem_cons_self
      have next : Linked env agree plain (pipelineStep env s op) ∧ (pipelineStep env s op).inserted = insertedBy s op := by
        unfold Linking Settling Prog.wp at called
        unfold pipelineStep
        split at called
        · rename_i outcome
          rw [outcome]
          exact called
        · rename_i outcome
          rw [outcome]
          exact called.2
      rw [split, ← List.append_assoc] at few ⊢
      obtain ⟨after, inserted⟩ := ih (pipelineStep env s op) next.1 orderly.2
        (fun calm later there => allowed calm later (List.mem_cons_of_mem _ there)) (by rw [next.2]; exact few)
      exact ⟨after, by rw [run_cons, inserted, next.2, insertedBy]⟩

end Pqxx
