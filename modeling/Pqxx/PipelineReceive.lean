import Pqxx.PipelineReplay

set_option autoImplicit false

namespace Pqxx

open Lib

-- consume_input() failed, which is the only thing that ends receiving early.
def Severed (env : Backend) (e : Stop) : Prop :=
  e = .thrown { kind := .brokenConnection, what := "Connection to database failed" } ∧ ∃ t, env.consumeInput t = false

section

variable {env : Backend} {agree : Agreement} {plain : Prop} {s : PipelineState} {lo hi : Nat}

-- Received, except that the dummy may still be out: nothing was available.
structure ReceivedSome (s t : PipelineState) (lo hi lo' hi' : Nat) : Prop where
  frame : Frame s t
  onward : lo ≤ lo'
  kept : t.error = qidLimit → hi' = hi ∧ s.error = qidLimit

theorem received_some {t : PipelineState} {lo' hi' : Nat} (received : Received s t lo hi lo' hi') :
    ReceivedSome s t lo hi lo' hi' := ⟨received.frame, received.onward, received.kept⟩

def Ready (env : Backend) (agree : Agreement) (plain : Prop) (s : PipelineState) (lo hi : Nat) (t : PipelineState) : Prop :=
  ∃ lo' hi', Sound env agree plain t lo' hi' ∧ InFlight env t lo' hi' ∧ Received s t lo hi lo' hi'

theorem received_trans {t u : PipelineState} {lo' hi' lo'' hi'' : Nat} (left : Received s t lo hi lo' hi')
    (right : Received t u lo' hi' lo'' hi'') : Received s u lo hi lo'' hi'' := by
  refine ⟨frame_trans left.frame right.frame, right.dummy, Nat.le_trans left.onward right.onward, fun error => ?_⟩
  obtain ⟨second, still⟩ := right.kept error
  obtain ⟨first, before⟩ := left.kept still
  exact ⟨second.trans first, before⟩

theorem obtained_received {t : PipelineState} {lo' hi' : Nat} {got : Bool} (sound : Sound env agree plain s lo hi)
    (obtained : Obtained s t lo hi lo' hi' got) : Received s t lo hi lo' hi' := by
  have ordered := sound.ordered
  cases got with
  | true =>
      obtain ⟨_, rfl, rfl, _, error⟩ := obtained.more rfl
      exact ⟨obtained.frame, obtained.dummy, by omega, fun healthy => ⟨rfl, by rw [← error]; exact healthy⟩⟩
  | false =>
      obtain ⟨first, second, _, cut, same⟩ := obtained.done rfl
      refine ⟨obtained.frame, obtained.dummy, by omega, fun healthy => ?_⟩
      have equal : lo = hi := by
        apply Decidable.byContradiction
        intro different
        have := cut (by omega)
        omega
      exact ⟨second.trans equal, by rw [← same equal]; exact healthy⟩

theorem in_flight_clock (flight : InFlight env s lo hi) (clock : Nat) : InFlight env { s with clock } lo hi :=
  ⟨flight.dummy, flight.results⟩

theorem sound_clock (sound : Sound env agree plain s lo hi) (clock : Nat) : Sound env agree plain { s with clock } lo hi :=
  sound_link sound s.unread s.active s.dummyPending s.registered clock

theorem received_clock {t : PipelineState} {lo' hi' : Nat} (clock : Nat)
    (received : Received { s with clock } t lo hi lo' hi') : Received s t lo hi lo' hi' :=
  ⟨⟨received.frame.qId, received.frame.retain, received.frame.inserted, received.frame.keys⟩, received.dummy, received.onward,
    received.kept⟩

theorem received_refl (noDummy : s.dummyPending = false) : Received s s lo hi lo hi :=
  ⟨frame_refl s, noDummy, Nat.le_refl lo, fun healthy => ⟨rfl, healthy⟩⟩

theorem ready_trans {t u : PipelineState} {lo' hi' : Nat} (received : Received s t lo hi lo' hi')
    (ready : Ready env agree plain t lo' hi' u) : Ready env agree plain s lo hi u := by
  obtain ⟨a, b, sound, flight, more⟩ := ready
  exact ⟨a, b, sound, flight, received_trans received more⟩

theorem ready_clock {t : PipelineState} (clock : Nat) (ready : Ready env agree plain { s with clock } lo hi t) :
    Ready env agree plain s lo hi t := by
  obtain ⟨lo', hi', sound, flight, received⟩ := ready
  exact ⟨lo', hi', sound, flight, received_clock clock received⟩

theorem get_further_spec (answering : plain → Answering env) (turns : Nat) (sound : Sound env agree plain s lo hi)
    (flight : InFlight env s lo hi) (noDummy : s.dummyPending = false) :
    Prog.wp (getFurther env turns) (fun _ t => Ready env agree plain s lo hi t)
      (fun e t => Severed env e ∧ Ready env agree plain s lo hi t) s := by
  induction turns generalizing s lo hi with
  | zero => exact ⟨lo, hi, sound, flight, received_refl noDummy⟩
  | succ turns ih =>
      simp only [getFurther, isBusy, Prog.wp_bind, Prog.wp_gets, Prog.wp_modify, Prog.wp_pure]
      have soundNow := sound_clock sound (s.clock + 1)
      have flightNow := in_flight_clock flight (s.clock + 1)
      refine Prog.wp_ite _ _ _ _ _ _ (fun _ => ?_) (fun _ => ?_)
      · exact ⟨lo, hi, soundNow, flightNow, received_clock (s.clock + 1) (received_refl noDummy)⟩
      · rw [Prog.wp_bind]
        refine Prog.wp_mono (obtain_result_spec answering soundNow flightNow noDummy) ?_ (fun _ _ => False.elim)
        rintro got t ⟨lo', hi', soundThen, flightThen, obtained⟩
        have received := received_clock (s.clock + 1) (obtained_received soundNow obtained)
        refine Prog.wp_ite _ _ _ _ _ _ (fun _ => ?_) (fun _ => ?_)
        · simp only [consumeInput, Prog.wp_bind, Prog.wp_gets, Prog.wp_modify, Prog.wp_pure]
          have soundLater := sound_clock soundThen (t.clock + 1)
          have flightLater := in_flight_clock flightThen (t.clock + 1)
          refine Prog.wp_ite _ _ _ _ _ _ (fun _ => ?_) (fun failed => ?_)
          · refine Prog.wp_mono (ih soundLater flightLater received.dummy) (fun _ u ready => ?_) (fun e u bad => ⟨bad.1, ?_⟩)
            · exact ready_trans received (ready_clock (t.clock + 1) ready)
            · exact ready_trans received (ready_clock (t.clock + 1) bad.2)
          · rw [raise, Prog.wp_throw]
            refine ⟨⟨rfl, t.clock, Bool.eq_false_iff.mpr failed⟩, ready_trans received ?_⟩
            exact ⟨lo', hi', soundLater, flightLater, received_clock (t.clock + 1) (received_refl received.dummy)⟩
        · exact ⟨lo', hi', soundThen, flightThen, received⟩

theorem get_further_available_spec (answering : plain → Answering env) (sound : Sound env agree plain s lo hi)
    (flight : InFlight env s lo hi) (noDummy : s.dummyPending = false) :
    Prog.wp (getFurtherAvailableResults env) (fun _ t => Ready env agree plain s lo hi t)
      (fun e t => Severed env e ∧ Ready env agree plain s lo hi t) s := by
  simp only [getFurtherAvailableResults, Prog.wp_bind, Prog.wp_gets]
  exact get_further_spec answering _ sound flight noDummy

-- Reached: the results up to target are in, unless a query turned out to have failed.
theorem receive_until_spec (answering : plain → Answering env) (turns target : Nat) (sound : Sound env agree plain s lo hi)
    (flight : InFlight env s lo hi) (noDummy : s.dummyPending = false) (enough : s.unread.length < turns)
    (ahead : (lo < target ∧ target ≤ hi) ∨ s.error < qidLimit) :
    Prog.wp (receiveUntil (iterAt s.qId target) turns) (fun _ t => ∃ lo' hi', Sound env agree plain t lo' hi' ∧
      InFlight env t lo' hi' ∧ Received s t lo hi lo' hi' ∧ (t.error = qidLimit → target ≤ lo')) (fun _ _ => False) s := by
  induction turns generalizing s lo hi with
  | zero => omega
  | succ turns ih =>
      simp only [receiveUntil, Prog.wp_bind]
      refine Prog.wp_mono (obtain_result_spec answering sound flight noDummy) ?_ (fun _ _ => False.elim)
      rintro got t ⟨lo', hi', soundThen, flightThen, obtained⟩
      have received := obtained_received sound obtained
      rw [Prog.wp_gets]
      refine Prog.wp_ite _ _ _ _ _ _ (fun more => ?_) (fun stop => ?_)
      · obtain ⟨pending, here, there, shorter, error⟩ := obtained.more more.1
        have healthy := sound_healthy sound pending
        have bounds : lo < target ∧ target ≤ hi := ahead.resolve_right (by omega)
        have apart : lo' ≠ target := by
          intro same
          rw [soundThen.first, same, received.frame.qId] at more
          exact more.2 rfl
        have onward : (lo' < target ∧ target ≤ hi') ∨ t.error < qidLimit := .inl (by omega)
        have follows := ih soundThen flightThen received.dummy (by omega) onward
        rw [received.frame.qId] at follows
        refine Prog.wp_mono follows ?_ (fun _ _ => id)
        rintro _ u ⟨a, b, soundEnd, flightEnd, receivedEnd, reached⟩
        exact ⟨a, b, soundEnd, flightEnd, received_trans received receivedEnd, reached⟩
      · rw [Prog.wp_pure]
        refine ⟨lo', hi', soundThen, flightThen, received, fun healthy => ?_⟩
        have bounds : lo < target ∧ target ≤ hi := ahead.resolve_right (by
          have := (received.kept healthy).2
          omega)
        cases got with
        | true =>
            have equal : t.first = iterAt s.qId target := Decidable.byContradiction fun different => stop ⟨rfl, different⟩
            rw [soundThen.first, received.frame.qId] at equal
            have within := sound.within
            have withinThen := soundThen.within
            have orderedThen := soundThen.ordered
            have sameId := received.frame.qId
            have := iter_at_inj (by omega) (by omega) equal
            omega
        | false =>
            have cut := (obtained.done rfl).2.2.2.1 (by omega)
            omega

theorem receive_spec (answering : plain → Answering env) (rejecting : RejectsForAQuery agree env) (target : Nat)
    (sound : Sound env agree plain s lo hi) (flight : InFlight env s lo hi) (ahead : lo < target) (upto : target ≤ hi) :
    Prog.wp (receive env (iterAt s.qId target)) (fun _ t => ∃ lo' hi', Sound env agree plain t lo' hi' ∧ InFlight env t lo' hi' ∧
      Received s t lo hi lo' hi' ∧ (t.error = qidLimit → target ≤ lo'))
      (fun e t => Severed env e ∧ Ready env agree plain s lo hi t) s := by
  have dummyRead : Prog.wp (Prog.when s.dummyPending (obtainDummy env)) (fun _ t => ∃ lo' hi', Sound env agree plain t lo' hi' ∧
      InFlight env t lo' hi' ∧ Received s t lo hi lo' hi' ∧ ((lo' < target ∧ target ≤ hi') ∨ t.error < qidLimit))
      (fun _ _ => False) s := by
    refine Prog.wp_when _ _ _ _ _ (fun dummy => ?_) (fun noDummy => ?_)
    · refine Prog.wp_mono (obtain_dummy_spec answering rejecting sound flight dummy) ?_ (fun _ _ => id)
      rintro _ t ⟨lo', hi', soundThen, flightThen, received, kept⟩
      refine ⟨lo', hi', soundThen, flightThen, received, ?_⟩
      have limit := soundThen.limit
      by_cases healthy : t.error = qidLimit
      · have := (received.kept healthy).1
        exact .inl ⟨by rw [kept healthy]; exact ahead, by omega⟩
      · exact .inr (by omega)
    · exact ⟨lo, hi, sound, flight, received_refl (Bool.eq_false_iff.mpr noDummy), .inl ⟨ahead, upto⟩⟩
  simp only [receive, Prog.wp_bind, Prog.wp_get, Prog.wp_gets]
  refine Prog.wp_mono dummyRead ?_ (fun _ _ => False.elim)
  rintro _ t ⟨lo', hi', soundThen, flightThen, received, bounds⟩
  have looped := receive_until_spec answering (t.unread.length + 1) target soundThen flightThen received.dummy
    (Nat.lt_succ_self _) bounds
  rw [received.frame.qId] at looped
  refine Prog.wp_mono looped ?_ (fun _ _ => False.elim)
  rintro _ u ⟨a, b, soundEnd, flightEnd, receivedEnd, reached⟩
  have all := received_trans received receivedEnd
  refine Prog.wp_ite _ _ _ _ _ _ (fun _ => ?_) (fun _ => ?_)
  · refine Prog.wp_mono (get_further_available_spec answering soundEnd flightEnd all.dummy) ?_ ?_
    · rintro _ v ⟨c, d, soundLast, flightLast, receivedLast⟩
      refine ⟨c, d, soundLast, flightLast, received_trans all receivedLast, fun healthy => ?_⟩
      have := reached (receivedLast.kept healthy).2
      have := receivedLast.onward
      omega
    · rintro e v ⟨severed, ready⟩
      exact ⟨severed, ready_trans all ready⟩
  · exact ⟨a, b, soundEnd, flightEnd, all, reached⟩

theorem receive_if_available_spec (answering : plain → Answering env) (rejecting : RejectsForAQuery agree env)
    (sound : Sound env agree plain s lo hi) (flight : InFlight env s lo hi) :
    Prog.wp (receiveIfAvailable env) (fun _ t => ∃ lo' hi', Sound env agree plain t lo' hi' ∧ InFlight env t lo' hi' ∧
        ReceivedSome s t lo hi lo' hi')
      (fun e t => Severed env e ∧ ∃ lo' hi', Sound env agree plain t lo' hi' ∧ InFlight env t lo' hi' ∧
        ReceivedSome s t lo hi lo' hi') s := by
  simp only [receiveIfAvailable, consumeInput, isBusy, Prog.wp_bind, Prog.wp_gets, Prog.wp_modify, Prog.wp_pure]
  have still : ∀ clock, ∃ lo' hi', Sound env agree plain { s with clock } lo' hi' ∧ InFlight env { s with clock } lo' hi' ∧
      ReceivedSome s { s with clock } lo hi lo' hi' := fun clock =>
    ⟨lo, hi, sound_clock sound clock, in_flight_clock flight clock, ⟨rfl, rfl, rfl, fun _ => rfl⟩, Nat.le_refl lo,
      fun healthy => ⟨rfl, healthy⟩⟩
  refine Prog.wp_ite _ _ _ _ _ _ (fun failed => ?_) (fun _ => ?_)
  · rw [raise, Prog.wp_throw]
    exact ⟨⟨rfl, s.clock, failed⟩, still _⟩
  · simp only [Prog.wp_bind, Prog.wp_gets, Prog.wp_modify, Prog.wp_pure]
    refine Prog.wp_ite _ _ _ _ _ _ (fun _ => still _) (fun _ => ?_)
    simp only [Prog.wp_bind, Prog.wp_get]
    have soundNow := sound_clock sound (s.clock + 1 + 1)
    have flightNow := in_flight_clock flight (s.clock + 1 + 1)
    have dummyRead : Prog.wp (Prog.when s.dummyPending (obtainDummy env)) (fun _ t => Ready env agree plain s lo hi t)
        (fun _ _ => False) { s with clock := s.clock + 1 + 1 } := by
      refine Prog.wp_when _ _ _ _ _ (fun dummy => ?_) (fun noDummy => ?_)
      · refine Prog.wp_mono (obtain_dummy_spec answering rejecting soundNow flightNow dummy) ?_ (fun _ _ => id)
        rintro _ t ⟨lo', hi', soundThen, flightThen, received, _⟩
        exact ⟨lo', hi', soundThen, flightThen, received_clock _ received⟩
      · exact ⟨lo, hi, soundNow, flightNow, received_clock _ (received_refl (Bool.eq_false_iff.mpr noDummy))⟩
    refine Prog.wp_mono dummyRead ?_ (fun _ _ => False.elim)
    rintro _ t ⟨lo', hi', soundThen, flightThen, received⟩
    refine Prog.wp_ite _ _ _ _ _ _ (fun _ => ?_) (fun _ => ?_)
    · refine Prog.wp_mono (get_further_available_spec answering soundThen flightThen received.dummy) ?_ ?_
      · rintro _ u ⟨a, b, soundEnd, flightEnd, receivedEnd⟩
        exact ⟨a, b, soundEnd, flightEnd, received_some (received_trans received receivedEnd)⟩
      · rintro e u ⟨severed, a, b, soundEnd, flightEnd, receivedEnd⟩
        exact ⟨severed, a, b, soundEnd, flightEnd, received_some (received_trans received receivedEnd)⟩
    · exact ⟨lo', hi', soundThen, flightThen, received_some received⟩

end

end Pqxx
