import Pqxx.IcursorstreamBlocks

set_option autoImplicit false

namespace Pqxx

open Lib Icursorstream

variable {ρ : Type}

-- The positions stay within long, and the distances within all().
def Feasible (s : Icursorstream ρ) : IteratorOp → Prop
  | .advance _ n => s.reqpos + n * s.stride < 9223372036854775808
  | .dereference i => ∀ it, s.iterator i = some it → Spans s it.pos
  | .equal i rhs | .less i rhs => ∀ it, s.iterator i = some it ∨ s.iterator rhs = some it → Spans s it.pos
  | .create _ | .createOn _ | .copy _ _ | .assign _ _ | .destroy _ => True

-- No iterator is made on the stream once the block where it would be has been read.
def Timely (s : Icursorstream ρ) : IteratorOp → Prop
  | .createOn _ => s.realpos ≤ s.reqpos
  | _ => True

theorem wrap_fits (n : Int) (least : 0 ≤ n) (fits : n < 9223372036854775808) : wrap n = n := by
  exact Int.bmod_eq_of_le (by omega) (by omega)

section

variable {rows : List ρ} {strict : Bool} {s : Icursorstream ρ} (serves : Serves rows strict s)

include serves

-- A change of one iterator, and of what depends on it.
theorem update_serves (i : Nat) (new : Option (IcursorIterator ρ)) (iterators : List Nat) (reqpos : Int) (once : iterators.Nodup)
    (others : ∀ j, j ≠ i → (j ∈ iterators ↔ j ∈ s.iterators)) (self : i ∈ iterators ↔ ∃ it, new = some it ∧ it.stream = true)
    (onward : s.reqpos ≤ reqpos) (divides : s.stride ∣ reqpos) (fits : reqpos < 9223372036854775808)
    (placed : ∀ it, new = some it → it.stream = true → 0 ≤ it.pos ∧ it.pos ≤ reqpos ∧ s.stride ∣ it.pos)
    (held : ∀ it, new = some it → it.stream = true → it.pos < s.realpos →
      it.here = block rows s.stride it.pos ∨ strict = false ∧ it.here = []) :
    Serves rows strict { s with iterator := fun j => if j = i then new else s.iterator j, iterators, reqpos } := by
  have req := serves.req
  have ahead := serves.ahead
  refine ⟨⟨serves.streams.steady, serves.streams.rest, serves.streams.real, serves.streams.stride⟩, ⟨by simp only; omega, divides⟩, fits,
    by simp only; omega, fun j => ?_, once, fun j it found onStream => ?_, fun j it found onStream passed => ?_⟩
  · by_cases same : j = i
    · subst same
      simp only [if_true]
      exact self
    · simp only [if_neg same]
      rw [others j same]
      exact serves.listed j
  · by_cases same : j = i
    · subst same
      simp only [if_true] at found
      exact placed it found onStream
    · simp only [if_neg same] at found
      obtain ⟨least, most, dividing⟩ := serves.placed j it found onStream
      exact ⟨least, Int.le_trans most onward, dividing⟩
  · by_cases same : j = i
    · subst same
      simp only [if_true] at found
      exact held it found onStream passed
    · simp only [if_neg same] at found
      exact serves.held j it found onStream passed

theorem absent_unlisted (i : Nat) (absent : s.iterator i = none) : i ∉ s.iterators := by
  intro listed
  obtain ⟨it, found, _⟩ := (serves.listed i).mp listed
  rw [absent] at found
  cases found

theorem unattached_unlisted (i : Nat) (it : IcursorIterator ρ) (found : s.iterator i = some it) (off : it.stream = false) :
    i ∉ s.iterators := by
  intro listed
  obtain ⟨it', found', onStream⟩ := (serves.listed i).mp listed
  rw [found] at found'
  cases found'
  rw [off] at onStream
  cases onStream

theorem create_serves (i : Nat) (absent : s.iterator i = none) : Serves rows strict (IcursorIterator.create i s).2 := by
  have unlisted := absent_unlisted serves i absent
  refine update_serves serves i (some { stream := false, here := [], pos := 0 }) s.iterators s.reqpos serves.once (fun _ _ => Iff.rfl) ?_
    (Int.le_refl _) serves.req.2 serves.fits ?_ ?_
  · refine iff_of_false unlisted ?_
    rintro ⟨it, same, onStream⟩
    cases same
    cases onStream
  · rintro it same onStream
    cases same
    cases onStream
  · rintro it same onStream
    cases same
    cases onStream

theorem create_on_serves (i : Nat) (absent : s.iterator i = none) (timely : strict = true → s.realpos ≤ s.reqpos) :
    Serves rows strict (IcursorIterator.createOn i s).2 := by
  have unlisted := absent_unlisted serves i absent
  have still : wrap (s.reqpos + 0 * s.stride) = s.reqpos := by
    rw [Int.zero_mul, Int.add_zero]
    exact wrap_fits _ serves.req.1 serves.fits
  have made : (IcursorIterator.createOn i s).2 = { s with
      iterator := fun j => if j = i then some { stream := true, here := [], pos := s.reqpos } else s.iterator j
      iterators := i :: s.iterators, reqpos := s.reqpos } := by
    simp only [IcursorIterator.createOn, forward, Prog.bind_apply, Prog.modify_apply, Prog.gets_apply, still, setIterator, insertIterator]
  rw [made]
  refine update_serves serves i _ (i :: s.iterators) s.reqpos (List.nodup_cons.mpr ⟨unlisted, serves.once⟩) (fun j other => ?_) ?_
    (Int.le_refl _) serves.req.2 serves.fits ?_ ?_
  · rw [List.mem_cons]
    exact or_iff_right other
  · exact iff_of_true List.mem_cons_self ⟨_, rfl, rfl⟩
  · rintro it same _
    cases same
    exact ⟨serves.req.1, Int.le_refl _, serves.req.2⟩
  · rintro it same _ passed
    cases same
    cases strict with
    | false => exact .inr ⟨rfl, rfl⟩
    | true =>
        have inTime := timely rfl
        simp only at passed
        omega

theorem copy_serves (i j : Nat) (rhs : IcursorIterator ρ) (absent : s.iterator i = none) (there : s.iterator j = some rhs) :
    Serves rows strict (IcursorIterator.copy i rhs s).2 := by
  have unlisted := absent_unlisted serves i absent
  cases onStream : rhs.stream with
  | true =>
      have made : (IcursorIterator.copy i rhs s).2 = { s with
          iterator := fun k => if k = i then some rhs else s.iterator k, iterators := i :: s.iterators, reqpos := s.reqpos } := by
        simp only [IcursorIterator.copy, Prog.modify_apply, if_pos onStream, setIterator, insertIterator]
      rw [made]
      refine update_serves serves i _ (i :: s.iterators) s.reqpos (List.nodup_cons.mpr ⟨unlisted, serves.once⟩) (fun k other => ?_) ?_
        (Int.le_refl _) serves.req.2 serves.fits ?_ ?_
      · rw [List.mem_cons]
        exact or_iff_right other
      · exact iff_of_true List.mem_cons_self ⟨rhs, rfl, onStream⟩
      · rintro it same on
        cases same
        exact serves.placed j _ there on
      · rintro it same on
        cases same
        exact serves.held j _ there on
  | false =>
      have off : ¬ rhs.stream = true := by simp [onStream]
      have made : (IcursorIterator.copy i rhs s).2 = { s with
          iterator := fun k => if k = i then some rhs else s.iterator k, iterators := s.iterators, reqpos := s.reqpos } := by
        simp only [IcursorIterator.copy, Prog.modify_apply, if_neg off, setIterator]
      rw [made]
      refine update_serves serves i _ s.iterators s.reqpos serves.once (fun _ _ => Iff.rfl) ?_ (Int.le_refl _) serves.req.2 serves.fits ?_ ?_
      · refine iff_of_false unlisted ?_
        rintro ⟨it, same, on⟩
        cases same
        exact off on
      · rintro it same on
        cases same
        exact absurd on off
      · rintro it same on
        cases same
        exact absurd on off

-- The list without an iterator that leaves the stream, or never was on it.
theorem leave_listed (i : Nat) (it : IcursorIterator ρ) (found : s.iterator i = some it) :
    i ∉ (if it.stream = true then s.iterators.erase i else s.iterators) ∧
      (if it.stream = true then s.iterators.erase i else s.iterators).Nodup ∧
      ∀ j, j ≠ i → (j ∈ (if it.stream = true then s.iterators.erase i else s.iterators) ↔ j ∈ s.iterators) := by
  by_cases onStream : it.stream = true
  · simp only [if_pos onStream]
    exact ⟨serves.once.not_mem_erase, serves.once.erase i, fun j other => List.mem_erase_of_ne other⟩
  · simp only [if_neg onStream]
    exact ⟨unattached_unlisted serves i it found (Bool.eq_false_iff.mpr onStream), serves.once, fun _ _ => trivial⟩

theorem destroy_serves (i : Nat) (it : IcursorIterator ρ) (found : s.iterator i = some it) :
    Serves rows strict (IcursorIterator.destroy i it s).2 := by
  obtain ⟨gone, once, others⟩ := leave_listed serves i it found
  have made : (IcursorIterator.destroy i it s).2 = { s with
      iterator := fun j => if j = i then none else s.iterator j
      iterators := if it.stream = true then s.iterators.erase i else s.iterators, reqpos := s.reqpos } := by
    simp only [IcursorIterator.destroy, Prog.modify_apply, removeIterator]
    split <;> rfl
  rw [made]
  refine update_serves serves i none _ s.reqpos once others ?_ (Int.le_refl _) serves.req.2 serves.fits ?_ ?_
  · refine iff_of_false gone ?_
    rintro ⟨it, same, _⟩
    cases same
  · rintro it same
    cases same
  · rintro it same
    cases same

theorem assign_serves (i j : Nat) (it rhs : IcursorIterator ρ) (found : s.iterator i = some it) (there : s.iterator j = some rhs) :
    Serves rows strict (IcursorIterator.assign i it rhs s).2 := by
  by_cases same : rhs.stream = it.stream
  · have made : (IcursorIterator.assign i it rhs s).2 = { s with
        iterator := fun k => if k = i then some { it with here := rhs.here, pos := rhs.pos } else s.iterator k
        iterators := s.iterators, reqpos := s.reqpos } := by
      simp only [IcursorIterator.assign, Prog.modify_apply, if_pos same, setIterator]
    rw [made]
    refine update_serves serves i _ s.iterators s.reqpos serves.once (fun _ _ => Iff.rfl) ?_ (Int.le_refl _) serves.req.2 serves.fits ?_ ?_
    · rw [serves.listed i, found]
      constructor
      · rintro ⟨_, old, onStream⟩
        cases old
        exact ⟨_, rfl, onStream⟩
      · rintro ⟨_, new, onStream⟩
        cases new
        exact ⟨it, rfl, onStream⟩
    · rintro _ new onStream
      cases new
      exact serves.placed j rhs there (same.trans onStream)
    · rintro _ new onStream
      cases new
      exact serves.held j rhs there (same.trans onStream)
  · obtain ⟨gone, once, others⟩ := leave_listed serves i it found
    have made : (IcursorIterator.assign i it rhs s).2 = { s with
        iterator := fun k => if k = i then some rhs else s.iterator k
        iterators := if rhs.stream = true then i :: (if it.stream = true then s.iterators.erase i else s.iterators)
          else (if it.stream = true then s.iterators.erase i else s.iterators)
        reqpos := s.reqpos } := by
      simp only [IcursorIterator.assign, Prog.modify_apply, if_neg same, removeIterator, setIterator, insertIterator]
      split <;> split <;> rfl
    rw [made]
    refine update_serves serves i _ _ s.reqpos ?_ (fun k other => ?_) ?_ (Int.le_refl _) serves.req.2 serves.fits ?_ ?_
    · split
      · exact List.nodup_cons.mpr ⟨gone, once⟩
      · exact once
    · rw [← others k other]
      split
      · rw [List.mem_cons]
        exact or_iff_right other
      · rfl
    · by_cases onStream : rhs.stream = true
      · rw [if_pos onStream]
        exact iff_of_true List.mem_cons_self ⟨rhs, rfl, onStream⟩
      · rw [if_neg onStream]
        refine iff_of_false gone ?_
        rintro ⟨_, new, on⟩
        cases new
        exact onStream on
    · rintro _ new onStream
      cases new
      exact serves.placed j rhs there onStream
    · rintro _ new onStream
      cases new
      exact serves.held j rhs there onStream

-- An iterator that advances goes to the stream's next position, which has not been read.
theorem advance_serves (i : Nat) (it : IcursorIterator ρ) (n : Int) (found : s.iterator i = some it) (onStream : it.stream = true)
    (fits : s.reqpos + n * s.stride < 9223372036854775808) : Serves rows strict (IcursorIterator.advance i it n s).2 := by
  by_cases still : n ≤ 0
  · have made : (IcursorIterator.advance i it n s).2 = s := by
      simp only [IcursorIterator.advance, if_pos still]
      split <;> rfl
    rw [made]
    exact serves
  · have req := serves.req
    have ahead := serves.ahead
    have positive := serves.streams.stride
    have further : s.stride ≤ n * s.stride := by
      have least := Int.mul_le_mul_of_nonneg_right (show 1 ≤ n by omega) (show 0 ≤ s.stride by omega)
      rw [Int.one_mul] at least
      exact least
    have lands := wrap_fits (s.reqpos + n * s.stride) (by omega) fits
    have made : (IcursorIterator.advance i it n s).2 = { s with
        iterator := fun k => if k = i then some { it with pos := s.reqpos + n * s.stride, here := [] } else s.iterator k
        iterators := s.iterators, reqpos := s.reqpos + n * s.stride } := by
      simp only [IcursorIterator.advance, if_neg still, forward, Prog.bind_apply, Prog.modify_apply, Prog.gets_apply, lands, setIterator]
    rw [made]
    have divides := Int.dvd_add req.2 (Int.dvd_mul_left n s.stride)
    refine update_serves serves i _ s.iterators _ serves.once (fun _ _ => Iff.rfl) ?_ (by omega) divides fits ?_ ?_
    · exact iff_of_true ((serves.listed i).mpr ⟨it, found, onStream⟩) ⟨_, rfl, onStream⟩
    · rintro _ new _
      cases new
      exact ⟨by simp only; omega, Int.le_refl _, divides⟩
    · rintro _ new _ passed
      cases new
      simp only at passed
      omega

theorem refresh_spec (it : IcursorIterator ρ) (i : Nat) (found : s.iterator i = some it) (spans : Spans s it.pos) :
    ∃ t, IcursorIterator.refresh it s = (.ok (), t) ∧ Serves rows strict t ∧ SameStream s t ∧
      ∀ j, t.iterator j = if it.stream = true then (s.iterator j).map (serviced rows s it.pos) else s.iterator j := by
  by_cases onStream : it.stream = true
  · obtain ⟨_, reached, aligned⟩ := serves.placed i it found onStream
    obtain ⟨t, served, servesT, same, iterators⟩ := service_iterators_spec serves it.pos aligned reached spans
    refine ⟨t, ?_, servesT, same, fun j => ?_⟩
    · rw [IcursorIterator.refresh, if_pos onStream, served]
    · rw [if_pos onStream]
      exact iterators j
  · refine ⟨s, ?_, serves, same_stream_refl s, fun j => ?_⟩
    · rw [IcursorIterator.refresh, if_neg onStream]
      rfl
    · rw [if_neg onStream]

theorem dereference_spec (i : Nat) (it : IcursorIterator ρ) (found : s.iterator i = some it) (spans : Spans s it.pos) :
    ∃ t, IcursorIterator.dereference i s =
        (.ok (if it.stream = true ∧ s.realpos ≤ it.pos then block rows s.stride it.pos else it.here), t) ∧
      Serves rows strict t ∧ SameStream s t ∧
      ∀ j, t.iterator j = if it.stream = true then (s.iterator j).map (serviced rows s it.pos) else s.iterator j := by
  obtain ⟨t, refreshed, servesT, same, iterators⟩ := refresh_spec serves it i found spans
  refine ⟨t, ?_, servesT, same, iterators⟩
  have value : (t.iterator i).elim [] IcursorIterator.here =
      if it.stream = true ∧ s.realpos ≤ it.pos then block rows s.stride it.pos else it.here := by
    rw [iterators i, found]
    by_cases onStream : it.stream = true
    · rw [if_pos onStream, Option.map_some, Option.elim_some]
      by_cases ahead : s.realpos ≤ it.pos
      · rw [serviced, if_pos ⟨onStream, ahead, Int.le_refl _⟩, if_pos ⟨onStream, ahead⟩]
      · rw [serviced, if_neg (fun all => ahead all.2.1), if_neg (fun both => ahead both.2)]
    · rw [if_neg onStream, if_neg (fun both => onStream both.1)]
      rfl
  simp only [IcursorIterator.dereference, IcursorIterator.cached, Prog.bind_apply, Prog.get_apply, found, refreshed, Prog.pure_apply,
    value]

-- A comparison of iterators of which one is on the stream: the other's refresh() does
-- nothing.
theorem refresh_both_spec (it rhs : IcursorIterator ρ) (i j : Nat) (found : s.iterator i = some it) (there : s.iterator j = some rhs)
    (different : it.stream ≠ rhs.stream) (spans : Spans s it.pos) (spans' : Spans s rhs.pos) :
    ∃ t, Serves rows strict t ∧ SameStream s t ∧ ∀ {α : Type} (rest : Prog (Icursorstream ρ) Exn α), (do
        IcursorIterator.refresh it
        IcursorIterator.refresh rhs
        rest) s = rest t := by
  have idle : ∀ (off : IcursorIterator ρ) (u : Icursorstream ρ), ¬ off.stream = true → IcursorIterator.refresh off u = (.ok (), u) := by
    intro off u none_
    rw [IcursorIterator.refresh, if_neg none_]
    rfl
  by_cases onStream : it.stream = true
  · have off : ¬ rhs.stream = true := fun on => different (onStream.trans on.symm)
    obtain ⟨t, refreshed, servesT, same, _⟩ := refresh_spec serves it i found spans
    refine ⟨t, servesT, same, fun rest => ?_⟩
    simp only [Prog.bind_apply, refreshed, idle rhs t off]
  · obtain ⟨t, refreshed, servesT, same, _⟩ := refresh_spec serves rhs j there spans'
    refine ⟨t, servesT, same, fun rest => ?_⟩
    simp only [Prog.bind_apply, idle it s onStream, refreshed]

theorem equal_serves (i j : Nat) (spans : ∀ it, s.iterator i = some it ∨ s.iterator j = some it → Spans s it.pos) :
    Serves rows strict (IcursorIterator.equal i j s).2 ∧ (IcursorIterator.equal i j s).2.stride = s.stride := by
  simp only [IcursorIterator.equal, Prog.bind_apply, Prog.get_apply]
  cases found : s.iterator i with
  | none => exact ⟨serves, rfl⟩
  | some it =>
      cases there : s.iterator j with
      | none => exact ⟨serves, rfl⟩
      | some rhs =>
          dsimp only
          by_cases same : it.stream = rhs.stream
          · rw [if_pos same]
            exact ⟨serves, rfl⟩
          · obtain ⟨t, servesT, sameT, both⟩ := refresh_both_spec serves it rhs i j found there same (spans it (.inl found))
              (spans rhs (.inr there))
            rw [if_neg same, both]
            exact ⟨servesT, sameT.stride⟩

theorem less_serves (i j : Nat) (spans : ∀ it, s.iterator i = some it ∨ s.iterator j = some it → Spans s it.pos) :
    Serves rows strict (IcursorIterator.less i j s).2 ∧ (IcursorIterator.less i j s).2.stride = s.stride := by
  simp only [IcursorIterator.less, Prog.bind_apply, Prog.get_apply]
  cases found : s.iterator i with
  | none => exact ⟨serves, rfl⟩
  | some it =>
      cases there : s.iterator j with
      | none => exact ⟨serves, rfl⟩
      | some rhs =>
          dsimp only
          by_cases same : it.stream = rhs.stream
          · rw [if_pos same]
            exact ⟨serves, rfl⟩
          · obtain ⟨t, servesT, sameT, both⟩ := refresh_both_spec serves it rhs i j found there same (spans it (.inl found))
              (spans rhs (.inr there))
            rw [if_neg same, both]
            exact ⟨servesT, sameT.stride⟩

-- The state after a call of which the result does not matter.
omit serves in
theorem ignoring_value {α : Type} (m : Prog (Icursorstream ρ) Exn α) : ((do
    let _ ← m
    pure () : Prog (Icursorstream ρ) Exn Unit) s).2 = (m s).2 := by
  simp only [Prog.bind_apply]
  cases m s with
  | mk outcome t => cases outcome <;> rfl

theorem iterator_step_serves (op : IteratorOp) (feasible : Feasible s op) (timely : strict = true → Timely s op) :
    Serves rows strict (iteratorStep s op) ∧ (iteratorStep s op).stride = s.stride := by
  cases op with
  | create i =>
      simp only [iteratorStep, IteratorOp.perform]
      cases there : s.iterator i with
      | none => exact ⟨create_serves serves i there, rfl⟩
      | some it => exact ⟨serves, rfl⟩
  | createOn i =>
      simp only [iteratorStep, IteratorOp.perform]
      cases there : s.iterator i with
      | none => exact ⟨create_on_serves serves i there timely, rfl⟩
      | some it => exact ⟨serves, rfl⟩
  | copy i j =>
      simp only [iteratorStep, IteratorOp.perform]
      cases here : s.iterator i with
      | some it => exact ⟨serves, rfl⟩
      | none =>
          cases there : s.iterator j with
          | none => exact ⟨serves, rfl⟩
          | some rhs =>
              refine ⟨copy_serves serves i j rhs here there, ?_⟩
              simp only [IcursorIterator.copy, Prog.modify_apply]
              split <;> rfl
  | assign i j =>
      simp only [iteratorStep, IteratorOp.perform]
      cases here : s.iterator i with
      | none => exact ⟨serves, rfl⟩
      | some it =>
          cases there : s.iterator j with
          | none => exact ⟨serves, rfl⟩
          | some rhs =>
              refine ⟨assign_serves serves i j it rhs here there, ?_⟩
              simp only [IcursorIterator.assign, Prog.modify_apply]
              split
              · rfl
              · split <;> split <;> rfl
  | advance i n =>
      simp only [iteratorStep, IteratorOp.perform]
      cases here : s.iterator i with
      | none => exact ⟨serves, rfl⟩
      | some it =>
          by_cases onStream : it.stream = true
          · simp only [if_pos onStream]
            refine ⟨advance_serves serves i it n here onStream feasible, ?_⟩
            simp only [IcursorIterator.advance, Prog.ite_apply]
            split
            · split <;> rfl
            · rfl
          · simp only [if_neg onStream]
            exact ⟨serves, rfl⟩
  | dereference i =>
      simp only [iteratorStep, IteratorOp.perform]
      rw [ignoring_value]
      cases here : s.iterator i with
      | none =>
          simp only [IcursorIterator.dereference, Prog.bind_apply, Prog.get_apply, here]
          exact ⟨serves, rfl⟩
      | some it =>
          obtain ⟨t, outcome, servesT, same, _⟩ := dereference_spec serves i it here (feasible it here)
          rw [outcome]
          exact ⟨servesT, same.stride⟩
  | equal i j =>
      simp only [iteratorStep, IteratorOp.perform]
      rw [ignoring_value]
      exact equal_serves serves i j feasible
  | less i j =>
      simp only [iteratorStep, IteratorOp.perform]
      rw [ignoring_value]
      exact less_serves serves i j feasible
  | destroy i =>
      simp only [iteratorStep, IteratorOp.perform]
      cases here : s.iterator i with
      | none => exact ⟨serves, rfl⟩
      | some it =>
          refine ⟨destroy_serves serves i it here, ?_⟩
          simp only [IcursorIterator.destroy, Prog.modify_apply]
          split <;> rfl

end

theorem block_nonempty {rows : List ρ} {stride pos : Int} (positive : 1 ≤ stride) (least : 0 ≤ pos) (inside : pos < rows.length) :
    block rows stride pos ≠ [] := by
  intro none_
  have counted := congrArg List.length none_
  rw [block, List.length_take, List.length_drop, List.length_nil] at counted
  omega

theorem opening_serves (o : Opening ρ) (strict : Bool) (stride : Int) (s : Icursorstream ρ) (opened : icursorstream o stride = .ok s) :
    Serves o.rows strict s ∧ s.stride = stride := by
  unfold icursorstream at opened
  split at opened
  · cases opened
  · rename_i positive
    cases opened
    have least : 1 ≤ stride := by omega
    have streams : Streams o.rows (fresh o stride) := by
      cases o with
      | create rows basename =>
          refine ⟨.inl ⟨rfl, ?_, ?_, .inl rfl⟩, rfl, ⟨Int.le_refl _, Int.natCast_nonneg _⟩, least⟩
          · simp [fresh, Opening.cursor, sqlCursor, declarePortal]
          · simp [fresh, Opening.cursor, sqlCursor, declarePortal]
      | adopt portal cname op => exact ⟨.inr ⟨rfl, rfl⟩, rfl, ⟨Int.le_refl _, Int.natCast_nonneg _⟩, least⟩
    refine ⟨⟨streams, ⟨Int.le_refl _, Int.dvd_zero _⟩, show (0 : Int) < 9223372036854775808 by decide, ?_, fun i => ?_, List.nodup_nil, ?_, ?_⟩, rfl⟩
    · simp only [fresh]
      omega
    · refine iff_of_false List.not_mem_nil ?_
      rintro ⟨it, found, _⟩
      cases found
    · rintro i it found
      cases found
    · rintro i it found
      cases found

theorem iterator_run_serves {rows : List ρ} {strict : Bool} {stride : Int} (ops : List IteratorOp) (s : Icursorstream ρ)
    (serves : Serves rows strict s) (same : s.stride = stride) (feasible : Along Feasible iteratorStep s ops)
    (timely : strict = true → Along Timely iteratorStep s ops) :
    Serves rows strict (run iteratorStep s ops) ∧ (run iteratorStep s ops).stride = stride := by
  induction ops generalizing s with
  | nil => exact ⟨serves, same⟩
  | cons op ops ih =>
      obtain ⟨next, still⟩ := iterator_step_serves serves op feasible.1 fun is => (timely is).1
      exact ih (iteratorStep s op) next (still.trans same) feasible.2 fun is => (timely is).2

-- After any run, an iterator gives its block exactly when that has yet to be read or is
-- in its cache; and always, where iterators are only made on the stream in time.
theorem cursor_stream_iterators (o : Opening ρ) (stride : Int) (start : Icursorstream ρ) (opened : icursorstream o stride = .ok start)
    (ops : List IteratorOp) (feasible : Along Feasible iteratorStep start ops) (s : Icursorstream ρ)
    (reached : run iteratorStep start ops = s) (i : Nat) (it : IcursorIterator ρ) (found : s.iterator i = some it)
    (onStream : it.stream = true) (spans : Spans s it.pos) :
    ((IcursorIterator.dereference i s).1 = .ok (block o.rows stride it.pos) ↔ s.realpos ≤ it.pos ∨ it.here ≠ []) ∧
    (Along Timely iteratorStep start ops →
      (IcursorIterator.dereference i s).1 = .ok (block o.rows stride it.pos) ∧
      (IcursorIterator.dereference i (IcursorIterator.dereference i s).2).1 = .ok (block o.rows stride it.pos) ∧
      ∀ j rhs, s.iterator j = some rhs → rhs.stream = true → (IcursorIterator.equal i j s).1 = .ok true →
        (IcursorIterator.dereference j s).1 = (IcursorIterator.dereference i s).1) := by
  subst reached
  constructor
  · obtain ⟨first, same⟩ := opening_serves o false stride start opened
    obtain ⟨serves, strides⟩ := iterator_run_serves ops start first same feasible fun none_ => by cases none_
    obtain ⟨t, outcome, _⟩ := dereference_spec serves i it found spans
    have placed := serves.placed i it found onStream
    have real := serves.streams.real
    rw [outcome, Except.ok.injEq, strides]
    by_cases ahead : (run iteratorStep start ops).realpos ≤ it.pos
    · rw [if_pos ⟨onStream, ahead⟩]
      exact iff_of_true rfl (.inl ahead)
    · rw [if_neg (fun both => ahead both.2), or_iff_right ahead]
      have passed : it.pos < (run iteratorStep start ops).realpos := by omega
      have something : block o.rows stride it.pos ≠ [] := block_nonempty (by rw [← strides]; exact serves.streams.stride) placed.1 (by omega)
      rcases serves.held i it found onStream passed with held | ⟨_, missed⟩
      · rw [held, strides]
        exact iff_of_true rfl something
      · rw [missed]
        exact iff_of_false something.symm fun some_ => some_ rfl
  · intro timely
    obtain ⟨first, same⟩ := opening_serves o true stride start opened
    obtain ⟨serves, strides⟩ := iterator_run_serves ops start first same feasible fun _ => timely
    have gives : ∀ (t : Icursorstream ρ) (k : Nat) (x : IcursorIterator ρ), Serves o.rows true t → t.stride = stride →
        t.iterator k = some x → x.stream = true → Spans t x.pos →
        (IcursorIterator.dereference k t).1 = .ok (block o.rows stride x.pos) := by
      intro t k x servesT stridesT found on spans
      obtain ⟨_, outcome, _⟩ := dereference_spec servesT k x found spans
      rw [outcome, stridesT]
      by_cases ahead : t.realpos ≤ x.pos
      · rw [if_pos ⟨on, ahead⟩]
      · rw [if_neg (fun both => ahead both.2)]
        rcases servesT.held k x found on (by omega) with held | ⟨none_, _⟩
        · rw [held, stridesT]
        · cases none_
    have value := gives _ i it serves strides found onStream spans
    refine ⟨value, ?_, fun j rhs there on equal => ?_⟩
    · obtain ⟨t, outcome, servesT, sameT, iterators⟩ := dereference_spec serves i it found spans
      obtain ⟨sameStream, samePos⟩ := serviced_same o.rows (run iteratorStep start ops) it.pos it
      have later := iterators i
      rw [if_pos onStream, found, Option.map_some] at later
      have further := sameT.later
      rw [outcome]
      have again := gives t i _ servesT (sameT.stride.trans strides) later (sameStream.trans onStream) (by
        rw [samePos]
        refine spans.imp (fun small => by rw [sameT.rows]; exact small) fun both => ⟨by rw [sameT.stride]; exact both.1, ?_⟩
        have := both.2
        omega)
      rw [samePos] at again
      exact again
    · have pos : it.pos = rhs.pos := by
        simp only [IcursorIterator.equal, Prog.bind_apply, Prog.get_apply] at equal
        rw [found, there] at equal
        simp only [if_pos (onStream.trans on.symm), Prog.pure_apply, Except.ok.injEq, decide_eq_true_eq] at equal
        exact equal
      rw [value, gives _ j rhs serves strides there on (by rw [← pos]; exact spans), pos]

theorem cursor_stream_iterators_shared :
    (IcursorIterator.dereference 0 (run iteratorStep (fresh (.create [10, 20, 30] "c") 2)
      [.createOn 0, .copy 1 0, .advance 1 1, .dereference 1])).1 = .ok [10, 20] :=
  ((cursor_stream_iterators (.create [10, 20, 30] "c") 2 (fresh (.create [10, 20, 30] "c") 2) rfl
    [.createOn 0, .copy 1 0, .advance 1 1, .dereference 1]
    ⟨trivial, trivial, show (0 + 1 * 2 : Int) < 9223372036854775808 by decide,
      fun _ _ => .inl (show (3 : Int) < CursorBase.all by decide), trivial⟩
    _ rfl 0 { stream := true, here := [10, 20], pos := 0 } rfl rfl (.inl (show (3 : Int) < CursorBase.all by decide))).2
    ⟨Int.le_refl 0, trivial, trivial, trivial, trivial⟩).1

theorem cursor_stream_iterators_fails :
    ¬ ∀ (ops : List IteratorOp) (i : Nat) (it : IcursorIterator Nat),
      (run iteratorStep (fresh (.create [10, 20, 30] "c") 2) ops).iterator i = some it → it.stream = true →
      (IcursorIterator.dereference i (run iteratorStep (fresh (.create [10, 20, 30] "c") 2) ops)).1 =
        .ok (block [10, 20, 30] 2 it.pos) := by
  intro claimed
  have missed := claimed [.createOn 0, .dereference 0, .createOn 1] 1 { stream := true, here := [], pos := 0 } rfl rfl
  exact absurd missed (by decide)

end Pqxx
