import Pqxx.Icursorstream
import Pqxx.Lib.Run

set_option autoImplicit false

namespace Pqxx

open Lib Icursorstream

variable {ρ : Type}

-- A cursor that knows where it is, or one that does not go by it.
def Steady (c : CursorState ρ) : Prop := Located c ∨ Lost c

-- The rows that lie ahead of a cursor.
def CursorState.rest (c : CursorState ρ) : List ρ := c.portal.rows.drop c.portal.position

theorem steady_ahead (c : CursorState ρ) (k : Int) (ahead : 0 < k)
    (within : k < CursorBase.all ∨ (c.portal.rows.length : Int) < CursorBase.all) (steady : Steady c) :
    ∃ displacement after, fetch k c = (.ok (c.rest.take k.toNat, displacement), after) ∧
      move k c = (.ok (((c.rest.take k.toNat).length : Int), displacement), after) ∧ Steady after ∧
      after.portal.rows = c.portal.rows ∧ after.rest = c.rest.drop k.toNat := by
  have moving : k ≠ 0 := by omega
  obtain ⟨next, answer, sameRows, _, landed⟩ := portal_step_ahead c.portal k ahead within
  have moves : Moves c.portal.rows.length c.portal.position k (c.rest.take k.toNat).length next.position := by
    refine ⟨fun _ => ⟨by omega, ?_⟩, fun behind => by omega⟩
    simp only [CursorState.rest, List.length_take, List.length_drop]
    omega
  have adjusting : ∃ displacement after, adjust k (c.rest.take k.toNat).length { c with portal := next } = (.ok displacement, after) ∧
      after.portal = next ∧ Steady after := by
    rcases steady with located | lost
    · obtain ⟨after, adjusted, at_, locatedAfter, _⟩ := located_adjust c next k _ moving located moves sameRows
      exact ⟨_, after, adjusted, at_, .inl locatedAfter⟩
    · obtain ⟨displacement, after, adjusted, at_, _, lostAfter⟩ := lost_adjust c next k _ moving lost moves
      exact ⟨_, after, adjusted, at_, .inr (lostAfter (by omega))⟩
  obtain ⟨displacement, after, adjusted, at_, steadyAfter⟩ := adjusting
  refine ⟨displacement, after, fetch_answered c k moving _ next answer _ after adjusted,
    move_answered c k moving _ next answer _ after adjusted, steadyAfter, by rw [at_, sameRows], ?_⟩
  simp only [CursorState.rest, at_, sameRows, landed, List.drop_drop]
  by_cases beyond : c.portal.position + k.toNat ≤ c.portal.rows.length + 1
  · rw [Nat.min_eq_left beyond]
  · rw [List.drop_of_length_le (by omega), List.drop_of_length_le (by omega)]

-- The rows from one position on that a block of the stream holds.
def block (rows : List ρ) (stride pos : Int) : List ρ := (rows.drop pos.toNat).take stride.toNat

-- A stream whose count of the rows read agrees with its cursor.
structure Streams (rows : List ρ) (s : Icursorstream ρ) : Prop where
  steady : Steady s.cur
  rest : s.cur.rest = rows.drop s.realpos.toNat
  real : 0 ≤ s.realpos ∧ s.realpos ≤ rows.length
  stride : 1 ≤ s.stride

-- Reading leaves everything about the stream alone but how far it has got.
structure SameStream (s t : Icursorstream ρ) : Prop where
  rows : t.cur.portal.rows = s.cur.portal.rows
  stride : t.stride = s.stride
  reqpos : t.reqpos = s.reqpos
  iterators : t.iterators = s.iterators
  later : s.realpos ≤ t.realpos

theorem same_stream_refl (s : Icursorstream ρ) : SameStream s s := ⟨rfl, rfl, rfl, rfl, Int.le_refl _⟩

theorem same_stream_trans {s t u : Icursorstream ρ} (left : SameStream s t) (right : SameStream t u) : SameStream s u :=
  ⟨right.rows.trans left.rows, right.stride.trans left.stride, right.reqpos.trans left.reqpos, right.iterators.trans left.iterators,
    Int.le_trans left.later right.later⟩

-- No distance that has to be covered in one command is as long as all().
def Spans (s : Icursorstream ρ) (topos : Int) : Prop :=
  (s.cur.portal.rows.length : Int) < CursorBase.all ∨ s.stride < CursorBase.all ∧ topos - s.realpos < CursorBase.all

theorem fetchblock_apply (s : Icursorstream ρ) {r : List ρ} {displacement : Int} {after : CursorState ρ}
    (fetched : fetch s.stride s.cur = (.ok (r, displacement), after)) :
    fetchblock s = (.ok r, { s with cur := after, realpos := s.realpos + r.length, done := s.done || r.isEmpty }) := by
  simp only [fetchblock, onCursor, Prog.bind_apply, Prog.get_apply, fetched, Prog.modify_apply, Prog.pure_apply]

theorem ignore_apply (s : Icursorstream ρ) (n : Int) {d displacement : Int} {after : CursorState ρ}
    (moved : move n s.cur = (.ok (d, displacement), after)) :
    ignore n s = (.ok (), { s with cur := after, realpos := s.realpos + d, done := s.done || decide (d < n) }) := by
  simp only [ignore, onCursor, Prog.bind_apply, moved, Prog.modify_apply]

section

variable {rows : List ρ} {s : Icursorstream ρ} (streams : Streams rows s)

include streams

theorem passed_realpos (k : Int) (ahead : 0 < k) :
    s.realpos + ((s.cur.rest.take k.toNat).length : Int) = min (s.realpos + k) rows.length := by
  have real := streams.real
  rw [streams.rest, List.length_take, List.length_drop]
  omega

theorem passed_rest (k : Int) (ahead : 0 < k) :
    s.cur.rest.drop k.toNat = rows.drop (min (s.realpos + k) (rows.length : Int)).toNat := by
  have real := streams.real
  rw [streams.rest, List.drop_drop]
  by_cases beyond : s.realpos + k ≤ rows.length
  · have same : s.realpos.toNat + k.toNat = (min (s.realpos + k) (rows.length : Int)).toNat := by omega
    rw [same]
  · rw [List.drop_of_length_le (by omega), List.drop_of_length_le (by omega)]

theorem fetchblock_spec (within : s.stride < CursorBase.all ∨ (s.cur.portal.rows.length : Int) < CursorBase.all) :
    ∃ t, fetchblock s = (.ok (block rows s.stride s.realpos), t) ∧ Streams rows t ∧ SameStream s t ∧ t.iterator = s.iterator ∧
      t.realpos = min (s.realpos + s.stride) rows.length := by
  have positive := streams.stride
  have real := streams.real
  obtain ⟨displacement, after, fetched, _, steady, sameRows, rest⟩ := steady_ahead s.cur s.stride (by omega) within streams.steady
  have counted := passed_realpos streams s.stride (by omega)
  have left := passed_rest streams s.stride (by omega)
  have read : s.cur.rest.take s.stride.toNat = block rows s.stride s.realpos := by rw [block, streams.rest]
  rw [read] at fetched counted
  refine ⟨_, fetchblock_apply s fetched, ⟨steady, ?_, ?_, positive⟩, ⟨sameRows, rfl, rfl, rfl, ?_⟩, rfl, counted⟩
  · simp only [counted]
    rw [rest, left]
  · simp only [counted]
    omega
  · simp only [counted]
    omega

theorem ignore_spec (n : Int) (ahead : 0 < n) (within : n < CursorBase.all ∨ (s.cur.portal.rows.length : Int) < CursorBase.all) :
    ∃ t, ignore n s = (.ok (), t) ∧ Streams rows t ∧ SameStream s t ∧ t.iterator = s.iterator ∧
      t.realpos = min (s.realpos + n) rows.length := by
  have real := streams.real
  obtain ⟨displacement, after, _, moved, steady, sameRows, rest⟩ := steady_ahead s.cur n ahead within streams.steady
  have counted := passed_realpos streams n ahead
  have left := passed_rest streams n ahead
  refine ⟨_, ignore_apply s n moved, ⟨steady, ?_, ?_, streams.stride⟩, ⟨sameRows, rfl, rfl, rfl, ?_⟩, rfl, counted⟩
  · simp only [counted]
    rw [rest, left]
  · simp only [counted]
    omega
  · simp only [counted]
    omega

end

-- One turn of the loop up to the reading: the block at readpos.
def readAt (readpos : Int) : Prog (Icursorstream ρ) Exn (List ρ) := do
  let s ← Prog.get
  Prog.when (readpos > s.realpos) (ignore (readpos - s.realpos))
  fetchblock

theorem service_cons (readpos : Int) (is : List Nat) (rest : List (Int × List Nat)) (s : Icursorstream ρ) :
    service ((readpos, is) :: rest) s = (do
      let r ← readAt readpos
      Prog.modify fun s => s.fill r is
      service rest) s := by
  simp only [service, readAt, Prog.bind_apply, Prog.get_apply]
  cases Prog.when (readpos > s.realpos) (ignore (readpos - s.realpos)) s with
  | mk outcome next => cases outcome <;> rfl

theorem read_at_spec {rows : List ρ} {s : Icursorstream ρ} (streams : Streams rows s) (readpos : Int) (ahead : s.realpos ≤ readpos)
    (spans : Spans s readpos) :
    ∃ t, readAt readpos s = (.ok (block rows s.stride readpos), t) ∧ Streams rows t ∧ SameStream s t ∧ t.iterator = s.iterator ∧
      t.realpos = min (readpos + s.stride) rows.length := by
  have real := streams.real
  have positive := streams.stride
  have striding : s.stride < CursorBase.all ∨ (s.cur.portal.rows.length : Int) < CursorBase.all := spans.elim .inr fun both => .inl both.1
  by_cases further : readpos > s.realpos
  · have skipping : readpos - s.realpos < CursorBase.all ∨ (s.cur.portal.rows.length : Int) < CursorBase.all :=
      spans.elim .inr fun both => .inl both.2
    obtain ⟨u, ignored, streamsU, sameU, iteratorU, realU⟩ := ignore_spec streams (readpos - s.realpos) (by omega) skipping
    obtain ⟨t, fetched, streamsT, sameT, iteratorT, realT⟩ := fetchblock_spec streamsU (by rw [sameU.stride, sameU.rows]; exact striding)
    have same : block rows u.stride u.realpos = block rows s.stride readpos := by
      rw [block, block, sameU.stride, realU]
      by_cases beyond : readpos ≤ rows.length
      · have there : min (s.realpos + (readpos - s.realpos)) (rows.length : Int) = readpos := by omega
        rw [there]
      · rw [List.drop_of_length_le (by omega), List.drop_of_length_le (by omega)]
    refine ⟨t, ?_, streamsT, same_stream_trans sameU sameT, iteratorT.trans iteratorU, ?_⟩
    · simp only [readAt, Prog.bind_apply, Prog.get_apply, Prog.when, if_pos further, ignored, fetched, same]
    · rw [realT, realU, sameU.stride]
      omega
  · have here : s.realpos = readpos := by omega
    obtain ⟨t, fetched, streamsT, sameT, iteratorT, realT⟩ := fetchblock_spec streams striding
    refine ⟨t, ?_, streamsT, sameT, iteratorT, ?_⟩
    · simp only [readAt, Prog.bind_apply, Prog.get_apply, Prog.when_skip _ _ s further, fetched]
      rw [here]
    · rw [realT, here]

theorem fill_iterator (s : Icursorstream ρ) (r : List ρ) (is : List Nat) (j : Nat) :
    (s.fill r is).iterator j = if j ∈ is then (s.iterator j).map fun it => { it with here := r } else s.iterator j := rfl

-- The loop reads the blocks at the positions it is given and hands them to the iterators
-- there; place says at which position an iterator is.
theorem service_spec {rows : List ρ} (topos : Int) (place : Nat → Int) (es : List (Int × List Nat)) (s : Icursorstream ρ)
    (streams : Streams rows s) (spans : Spans s topos) (apart : es.Pairwise fun a b => a.1 + s.stride ≤ b.1)
    (bounds : ∀ e ∈ es, s.realpos ≤ e.1 ∧ e.1 ≤ topos) (places : ∀ e ∈ es, ∀ j ∈ e.2, place j = e.1) :
    ∃ t, service es s = (.ok (), t) ∧ Streams rows t ∧ SameStream s t ∧ s.realpos ≤ t.realpos ∧
      t.realpos ≤ max s.realpos (topos + s.stride) ∧
      ∀ j, t.iterator j = if ∃ e ∈ es, j ∈ e.2 then (s.iterator j).map fun it => { it with here := block rows s.stride (place j) }
        else s.iterator j := by
  induction es generalizing s with
  | nil =>
      refine ⟨s, rfl, streams, same_stream_refl s, Int.le_refl _, Int.le_max_left _ _, fun j => ?_⟩
      rw [if_neg (by rintro ⟨e, there, _⟩; cases there)]
  | cons head rest ih =>
      obtain ⟨readpos, is⟩ := head
      obtain ⟨further, apartRest⟩ := List.pairwise_cons.mp apart
      obtain ⟨least, most⟩ := bounds (readpos, is) List.mem_cons_self
      have real := streams.real
      have positive := streams.stride
      have near : Spans s readpos := spans.imp_right fun both => ⟨both.1, by have := both.2; omega⟩
      obtain ⟨u, read, streamsU, sameU, iteratorU, realU⟩ := read_at_spec streams readpos least near
      have later : s.realpos ≤ u.realpos := by omega
      have filled : Streams rows (u.fill (block rows s.stride readpos) is) := ⟨streamsU.steady, streamsU.rest, streamsU.real, streamsU.stride⟩
      have spansU : Spans (u.fill (block rows s.stride readpos) is) topos := by
        refine spans.imp (fun small => ?_) fun both => ⟨?_, ?_⟩
        · simp only [fill, sameU.rows]
          exact small
        · simp only [fill, sameU.stride]
          exact both.1
        · simp only [fill]
          have := both.2
          omega
      obtain ⟨t, served, streamsT, sameT, laterT, lastT, each⟩ := ih (u.fill (block rows s.stride readpos) is) filled spansU
        (by simpa only [fill, sameU.stride] using apartRest)
        (fun e there => by
          have next := further e there
          have bound := (bounds e (List.mem_cons_of_mem _ there)).2
          simp only [fill]
          omega)
        (fun e there => places e (List.mem_cons_of_mem _ there))
      refine ⟨t, ?_, streamsT, same_stream_trans sameU ⟨sameT.rows, sameT.stride, sameT.reqpos, sameT.iterators, laterT⟩, ?_, ?_,
        fun j => ?_⟩
      · rw [service_cons]
        simp only [Prog.bind_apply, read, Prog.modify_apply, served]
      · simp only [fill] at laterT
        omega
      · simp only [fill, sameU.stride] at lastT
        omega
      · rw [each j, fill_iterator, iteratorU]
        by_cases inRest : ∃ e ∈ rest, j ∈ e.2
        · obtain ⟨e, there, member⟩ := inRest
          have away : j ∉ is := fun member' => by
            have one := places (readpos, is) List.mem_cons_self j member'
            have two := places e (List.mem_cons_of_mem _ there) j member
            have next := further e there
            simp only at one
            omega
          rw [if_pos ⟨e, there, member⟩, if_neg away, if_pos ⟨e, List.mem_cons_of_mem _ there, member⟩]
          simp only [fill, sameU.stride]
        · rw [if_neg inRest]
          by_cases member : j ∈ is
          · rw [if_pos member, if_pos ⟨(readpos, is), List.mem_cons_self, member⟩, places (readpos, is) List.mem_cons_self j member]
          · rw [if_neg member, if_neg]
            rintro ⟨e, there, inside⟩
            rcases List.mem_cons.mp there with rfl | there
            · exact member inside
            · exact inRest ⟨e, there, inside⟩

-- The iterators that service_iterators() is to serve.
def Due (s : Icursorstream ρ) (topos : Int) (j : Nat) (pos : Int) : Prop :=
  ∃ it, s.iterator j = some it ∧ it.pos = pos ∧ s.realpos ≤ pos ∧ pos ≤ topos

-- One iterator's turn in gathering them.
def gather (s : Icursorstream ρ) (topos : Int) (m : OrdMap Int (List Nat)) (i : Nat) : OrdMap Int (List Nat) :=
  match s.iterator i with
  | none => m
  | some it => if it.pos ≥ s.realpos ∧ it.pos ≤ topos then m.set it.pos ((m.find it.pos).getD [] ++ [i]) else m

theorem gather_find (s : Icursorstream ρ) (topos : Int) (m : OrdMap Int (List Nat)) (i j : Nat) (k : Int) :
    j ∈ ((gather s topos m i).find k).getD [] ↔ j ∈ (m.find k).getD [] ∨ j = i ∧ Due s topos i k := by
  unfold gather Due
  cases found : s.iterator i with
  | none =>
      refine (or_iff_left ?_).symm
      rintro ⟨_, it, there, _⟩
      cases there
  | some it =>
      simp only [Option.some.injEq, exists_eq_left']
      by_cases inside : it.pos ≥ s.realpos ∧ it.pos ≤ topos
      · rw [if_pos inside, OrdMap.find_set]
        by_cases same : k = it.pos
        · subst same
          rw [if_pos rfl, Option.getD_some, List.mem_append, List.mem_singleton]
          refine or_congr_right ?_
          exact ⟨fun here => ⟨here, rfl, inside.1, inside.2⟩, fun both => both.1⟩
        · rw [if_neg same]
          exact (or_iff_left fun both => same both.2.1.symm).symm
      · rw [if_neg inside]
        refine (or_iff_left ?_).symm
        rintro ⟨_, rfl, least, most⟩
        exact inside ⟨least, most⟩

theorem gather_nonempty (s : Icursorstream ρ) (topos : Int) (m : OrdMap Int (List Nat)) (i : Nat)
    (some_ : ∀ k is, m.find k = some is → is ≠ []) : ∀ k is, (gather s topos m i).find k = some is → is ≠ [] := by
  intro k is
  unfold gather
  split
  · exact some_ k is
  · split
    · rw [OrdMap.find_set]
      split
      · intro same
        cases same
        exact List.append_ne_nil_of_right_ne_nil _ (List.cons_ne_nil i [])
      · exact some_ k is
    · exact some_ k is

theorem todo_find (s : Icursorstream ρ) (topos : Int) (j : Nat) (k : Int) :
    j ∈ ((s.todo topos).find k).getD [] ↔ j ∈ s.iterators ∧ Due s topos j k := by
  have gathered : ∀ (l : List Nat) (m : OrdMap Int (List Nat)),
      j ∈ ((l.foldl (gather s topos) m).find k).getD [] ↔ j ∈ (m.find k).getD [] ∨ j ∈ l ∧ Due s topos j k := by
    intro l
    induction l with
    | nil => exact fun m => (or_iff_left fun both => by cases both.1).symm
    | cons i rest ih =>
        intro m
        rw [List.foldl_cons, ih, gather_find, List.mem_cons, or_assoc]
        refine or_congr_right ⟨?_, ?_⟩
        · rintro (⟨rfl, due⟩ | ⟨there, due⟩)
          · exact ⟨.inl rfl, due⟩
          · exact ⟨.inr there, due⟩
        · rintro ⟨rfl | there, due⟩
          · exact .inl ⟨rfl, due⟩
          · exact .inr ⟨there, due⟩
  refine (gathered s.iterators OrdMap.empty).trans (or_iff_right ?_)
  rw [OrdMap.find_empty]
  exact List.not_mem_nil

theorem todo_nonempty (s : Icursorstream ρ) (topos : Int) (k : Int) (is : List Nat) (there : (s.todo topos).find k = some is) : is ≠ [] := by
  have gathered : ∀ (l : List Nat) (m : OrdMap Int (List Nat)), (∀ k is, m.find k = some is → is ≠ []) →
      ∀ k is, (l.foldl (gather s topos) m).find k = some is → is ≠ [] := by
    intro l
    induction l with
    | nil => exact fun m some_ => some_
    | cons i rest ih => exact fun m some_ => ih _ (gather_nonempty s topos m i some_)
  refine gathered s.iterators OrdMap.empty (fun k is found => ?_) k is there
  rw [OrdMap.find_empty] at found
  cases found

theorem todo_entry (s : Icursorstream ρ) (topos : Int) (e : Int × List Nat) (there : e ∈ (s.todo topos).entries) (j : Nat) :
    j ∈ e.2 ↔ j ∈ s.iterators ∧ Due s topos j e.1 := by
  have found := ((s.todo topos).mem_entries_iff e.1 e.2).mp there
  rw [← todo_find, found, Option.getD_some]

-- A stream in which every iterator has its block, or will be served it; without strict, one
-- may have missed it.
structure Serves (rows : List ρ) (strict : Bool) (s : Icursorstream ρ) : Prop where
  streams : Streams rows s
  req : 0 ≤ s.reqpos ∧ s.stride ∣ s.reqpos
  fits : s.reqpos < 9223372036854775808
  ahead : s.realpos ≤ s.reqpos + s.stride
  listed : ∀ i, i ∈ s.iterators ↔ ∃ it, s.iterator i = some it ∧ it.stream = true
  once : s.iterators.Nodup
  placed : ∀ i it, s.iterator i = some it → it.stream = true → 0 ≤ it.pos ∧ it.pos ≤ s.reqpos ∧ s.stride ∣ it.pos
  held : ∀ i it, s.iterator i = some it → it.stream = true → it.pos < s.realpos →
    it.here = block rows s.stride it.pos ∨ strict = false ∧ it.here = []

theorem strides_apart {stride a b : Int} (left : stride ∣ a) (right : stride ∣ b) (less : a < b) : a + stride ≤ b := by
  have gap := Int.le_of_dvd (by omega) (Int.dvd_sub right left)
  omega

-- What one call of service_iterators() does to an iterator.
def serviced (rows : List ρ) (s : Icursorstream ρ) (topos : Int) (it : IcursorIterator ρ) : IcursorIterator ρ :=
  if it.stream = true ∧ s.realpos ≤ it.pos ∧ it.pos ≤ topos then { it with here := block rows s.stride it.pos } else it

theorem serviced_same (rows : List ρ) (s : Icursorstream ρ) (topos : Int) (it : IcursorIterator ρ) :
    (serviced rows s topos it).stream = it.stream ∧ (serviced rows s topos it).pos = it.pos := by
  unfold serviced
  split
  · exact ⟨rfl, rfl⟩
  · exact ⟨rfl, rfl⟩

section

variable {rows : List ρ} {strict : Bool} {s : Icursorstream ρ} (serves : Serves rows strict s) (topos : Int)

theorem todo_due (e : Int × List Nat) (there : e ∈ (s.todo topos).entries) : ∃ j, j ∈ s.iterators ∧ Due s topos j e.1 := by
  have nonempty := todo_nonempty s topos e.1 e.2 (((s.todo topos).mem_entries_iff e.1 e.2).mp there)
  obtain ⟨j, member⟩ := List.exists_mem_of_ne_nil e.2 nonempty
  exact ⟨j, (todo_entry s topos e there j).mp member⟩

include serves

theorem todo_apart : (s.todo topos).entries.Pairwise fun a b => a.1 + s.stride ≤ b.1 := by
  have dividing : ∀ e ∈ (s.todo topos).entries, s.stride ∣ e.1 := by
    intro e there
    obtain ⟨j, listed, it, found, pos, _⟩ := todo_due topos e there
    obtain ⟨it', found', onStream⟩ := (serves.listed j).mp listed
    rw [found] at found'
    cases found'
    rw [← pos]
    exact (serves.placed j it found onStream).2.2
  refine List.Pairwise.imp_of_mem (fun here there less => ?_) (s.todo topos).sorted
  exact strides_apart (dividing _ here) (dividing _ there) less

theorem todo_member (i : Nat) (it : IcursorIterator ρ) (found : s.iterator i = some it) :
    (∃ e ∈ (s.todo topos).entries, i ∈ e.2) ↔ it.stream = true ∧ s.realpos ≤ it.pos ∧ it.pos ≤ topos := by
  constructor
  · rintro ⟨e, there, member⟩
    obtain ⟨listed, it', found', pos, least, most⟩ := (todo_entry s topos e there i).mp member
    obtain ⟨it'', found'', onStream⟩ := (serves.listed i).mp listed
    rw [found] at found' found''
    cases found'
    cases found''
    rw [pos]
    exact ⟨onStream, least, most⟩
  · rintro ⟨onStream, least, most⟩
    have due : i ∈ ((s.todo topos).find it.pos).getD [] :=
      (todo_find s topos i it.pos).mpr ⟨(serves.listed i).mpr ⟨it, found, onStream⟩, it, found, rfl, least, most⟩
    cases entry : (s.todo topos).find it.pos with
    | none =>
        rw [entry] at due
        cases due
    | some is =>
        rw [entry] at due
        exact ⟨(it.pos, is), ((s.todo topos).mem_entries_iff it.pos is).mpr entry, due⟩

theorem service_todo (spans : Spans s topos) :
    ∃ t, service (s.todo topos).entries s = (.ok (), t) ∧ Streams rows t ∧ SameStream s t ∧
      t.realpos ≤ max s.realpos (topos + s.stride) ∧ ∀ i, t.iterator i = (s.iterator i).map (serviced rows s topos) := by
  obtain ⟨t, served, streams, same, _, last, each⟩ := service_spec topos (fun j => (s.iterator j).elim 0 IcursorIterator.pos)
    (s.todo topos).entries s serves.streams spans (todo_apart serves topos)
    (fun e there => by
      obtain ⟨j, _, it, _, _, least, most⟩ := todo_due topos e there
      exact ⟨least, most⟩)
    (fun e there j member => by
      obtain ⟨_, it, found, pos, _⟩ := (todo_entry s topos e there j).mp member
      rw [found]
      exact pos)
  refine ⟨t, served, streams, same, last, fun i => ?_⟩
  rw [each i]
  cases found : s.iterator i with
  | none => split <;> rfl
  | some it =>
      by_cases served : it.stream = true ∧ s.realpos ≤ it.pos ∧ it.pos ≤ topos
      · rw [if_pos ((todo_member serves topos i it found).mpr served), Option.map_some, Option.map_some, serviced, if_pos served]
        rfl
      · rw [if_neg (fun here => served ((todo_member serves topos i it found).mp here)), Option.map_some, serviced, if_neg served]

theorem serviced_serves (aligned : s.stride ∣ topos) (reached : topos ≤ s.reqpos) {t : Icursorstream ρ} (streams : Streams rows t)
    (same : SameStream s t) (last : t.realpos ≤ max s.realpos (topos + s.stride))
    (iterators : ∀ i, t.iterator i = (s.iterator i).map (serviced rows s topos)) : Serves rows strict t := by
  have positive := serves.streams.stride
  have known : ∀ i it, t.iterator i = some it → ∃ old, s.iterator i = some old ∧ it = serviced rows s topos old := by
    intro i it found
    rw [iterators i] at found
    obtain ⟨old, there, rfl⟩ := Option.map_eq_some_iff.mp found
    exact ⟨old, there, rfl⟩
  refine ⟨streams, ?_, ?_, ?_, fun i => ?_, by rw [same.iterators]; exact serves.once, ?_, ?_⟩
  · rw [same.reqpos, same.stride]
    exact serves.req
  · rw [same.reqpos]
    exact serves.fits
  · have ahead := serves.ahead
    rw [same.reqpos, same.stride]
    omega
  · rw [same.iterators, serves.listed i, iterators i]
    cases s.iterator i with
    | none => simp
    | some it => simp [(serviced_same rows s topos it).1]
  · intro i it found onStream
    obtain ⟨old, there, rfl⟩ := known i it found
    obtain ⟨sameStream, samePos⟩ := serviced_same rows s topos old
    rw [samePos, same.reqpos, same.stride]
    rw [sameStream] at onStream
    exact serves.placed i old there onStream
  · intro i it found onStream passed
    obtain ⟨old, there, rfl⟩ := known i it found
    obtain ⟨sameStream, samePos⟩ := serviced_same rows s topos old
    rw [sameStream] at onStream
    rw [samePos] at passed ⊢
    rw [same.stride]
    by_cases served : old.stream = true ∧ s.realpos ≤ old.pos ∧ old.pos ≤ topos
    · rw [serviced, if_pos served]
      exact .inl rfl
    · -- What lies behind topos is a whole stride further on, and not yet read.
      have placed := serves.placed i old there onStream
      have before : old.pos < s.realpos := by
        by_cases further : topos < old.pos
        · have next := strides_apart aligned placed.2.2 further
          omega
        · by_cases least : s.realpos ≤ old.pos
          · exact absurd ⟨onStream, least, by omega⟩ served
          · omega
      rw [serviced, if_neg served]
      exact serves.held i old there onStream before

theorem service_iterators_spec (aligned : s.stride ∣ topos) (reached : topos ≤ s.reqpos) (spans : Spans s topos) :
    ∃ t, serviceIterators topos s = (.ok (), t) ∧ Serves rows strict t ∧ SameStream s t ∧
      ∀ i, t.iterator i = (s.iterator i).map (serviced rows s topos) := by
  by_cases behind : topos < s.realpos
  · refine ⟨s, ?_, serves, same_stream_refl s, fun i => ?_⟩
    · simp only [serviceIterators, Prog.bind_apply, Prog.get_apply, if_pos behind, Prog.pure_apply]
    · have same : serviced rows s topos = id := by
        funext it
        rw [serviced, if_neg (by omega)]
        rfl
      rw [same, Option.map_id, id]
  · obtain ⟨t, served, streams, same, last, iterators⟩ := service_todo serves topos spans
    refine ⟨t, ?_, serviced_serves serves topos aligned reached streams same last iterators, same, iterators⟩
    simp only [serviceIterators, Prog.bind_apply, Prog.get_apply, if_neg behind, served]

end

end Pqxx
