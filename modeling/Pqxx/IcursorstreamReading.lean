import Pqxx.IcursorIterators
import Pqxx.Lib.Reader

set_option autoImplicit false

namespace Pqxx

open Lib Icursorstream

variable {ρ : Type}

namespace Icursorstream

def setStride (n : Int) : Prog (Icursorstream ρ) Exn Unit :=
  if n < 1 then throw { kind := .argumentError, what := "Attempt to set cursor stride to " ++ toString n }
  else Prog.modify fun s => { s with stride := n }

-- The loop while (stream >> r), with the results that its body gets to see.
def readOut : Nat → Prog (Icursorstream ρ) Exn (Option (List (List ρ)))
  | 0 => pure none
  | fuel + 1 => do
      let r ← fetchblock
      let s ← Prog.get
      if s.done then pure (some [])
      else do
        let rest ← readOut fuel
        pure (rest.map fun rs => r :: rs)

end Icursorstream

-- Reading a stream without iterators: get(), or operator>>, and the two that give no rows.
inductive StreamOp where
  | get
  | ignore (n : Int)
  | setStride (n : Int)
deriving DecidableEq, Repr

def StreamOp.perform : StreamOp → Prog (Icursorstream ρ) Exn (List ρ)
  | .get => fetchblock
  | .ignore n => do
      Icursorstream.ignore n
      pure []
  | .setStride n => do
      Icursorstream.setStride n
      pure []

def streamAnswer (s : Icursorstream ρ) (op : StreamOp) : Except Exn (List ρ) × Icursorstream ρ := op.perform s

-- The same on a reader: no row is given twice or left out, and a stream does not go back.
def readerAnswer (r : Reader ρ) : StreamOp → Except Exn (List ρ) × Reader ρ
  | .get => (.ok r.portion, r.take)
  | .ignore n =>
      if n < 0 then (.error { kind := .sqlError, what := "cursor can only scan forward" }, r) else (.ok [], r.skip n.toNat)
  | .setStride n =>
      if positive : 0 < n.toNat then (.ok [], r.pace n.toNat positive)
      else (.error { kind := .argumentError, what := "Attempt to set cursor stride to " ++ toString n }, r)

namespace Icursorstream

def Opening.forwardOnly : Opening ρ → Prop
  | .create _ _ => True
  | .adopt portal _ _ => portal.scroll = false

-- A distance that the stream covers in one command.
def Opening.Reaches (o : Opening ρ) (n : Int) : Prop := n < CursorBase.all ∨ (o.cursor.portal.rows.length : Int) < CursorBase.all

def Opening.Within (o : Opening ρ) : StreamOp → Prop
  | .get => True
  | .ignore n => (0 ≤ n ∨ o.forwardOnly) ∧ o.Reaches n
  | .setStride n => o.Reaches n

instance : (o : Opening ρ) → Decidable o.forwardOnly
  | .create _ _ => inferInstanceAs (Decidable True)
  | .adopt portal _ _ => inferInstanceAs (Decidable (portal.scroll = false))

instance (o : Opening ρ) (n : Int) : Decidable (o.Reaches n) := inferInstanceAs (Decidable (_ ∨ _))

instance (o : Opening ρ) : (op : StreamOp) → Decidable (o.Within op)
  | .get => inferInstanceAs (Decidable True)
  | .ignore n => inferInstanceAs (Decidable ((0 ≤ n ∨ o.forwardOnly) ∧ o.Reaches n))
  | .setStride n => inferInstanceAs (Decidable (o.Reaches n))

end Icursorstream

theorem adjust_portal (hoped actual : Int) : Prog.Keeps (fun c d : CursorState ρ => d.portal = c.portal) (adjust hoped actual) := by
  have framing : Prog.Framing fun c d : CursorState ρ => d.portal = c.portal := ⟨fun _ => rfl, fun _ _ _ left right => right.trans left⟩
  have noting : ∀ f, Prog.Keeps (fun c d : CursorState ρ => d.portal = c.portal) (Prog.modify fun c => c.update f : Prog (CursorState ρ) Exn Unit) :=
    fun f => Prog.keeps_modify _ fun _ => rfl
  have advancing : ∀ direction actual hitEnd, Prog.Keeps (fun c d : CursorState ρ => d.portal = c.portal) (advance direction actual hitEnd) := by
    intro direction actual hitEnd
    apply Prog.keeps_bind framing
    · exact Prog.keeps_modify _ fun _ => rfl
    · intro _
      apply Prog.keeps_gets
      intro cur
      apply Prog.keeps_ite
      · apply Prog.keeps_ite _ (Prog.keeps_throw framing _)
        exact Prog.keeps_bind framing (noting _) fun _ => Prog.keeps_pure framing _
      · exact Prog.keeps_pure framing _
  apply Prog.keeps_ite _ (Prog.keeps_throw framing _)
  apply Prog.keeps_ite _ (Prog.keeps_pure framing _)
  apply Prog.keeps_ite
  · apply Prog.keeps_ite _ (Prog.keeps_throw framing _)
    apply Prog.keeps_gets
    intro cur
    apply Prog.keeps_ite _ (Prog.keeps_bind framing (noting _) fun _ => advancing _ _ _)
    apply Prog.keeps_ite _ (Prog.keeps_bind framing (noting _) fun _ => advancing _ _ _)
    exact Prog.keeps_ite _ (Prog.keeps_throw framing _) (Prog.keeps_bind framing (noting _) fun _ => advancing _ _ _)
  · exact Prog.keeps_bind framing (noting _) fun _ => advancing _ _ _

-- No command changes what kind of cursor it is.
theorem portal_step_scroll (p next : Portal ρ) (stride : Stride) (rows : List ρ) (answer : p.step stride = .ok (rows, next)) :
    next.scroll = p.scroll := by
  unfold Portal.step at answer
  split at answer
  · cases answer
    rfl
  · split at answer
    · cases answer
      rfl
    · cases answer
  · split at answer
    · cases answer
      rfl
    · split at answer
      · cases answer
        rfl
      · split at answer
        · cases answer
          rfl
        · cases answer

theorem command_scroll (stride : Stride) : Prog.Keeps (fun c d : CursorState ρ => d.portal.scroll = c.portal.scroll) (command stride) := by
  intro c
  simp only [command, Prog.bind_apply, Prog.gets_apply]
  cases answer : c.portal.step stride with
  | error e => rfl
  | ok answered => exact portal_step_scroll c.portal answered.2 stride answered.1 answer

section

variable (k : Int)

theorem adjust_scroll (actual : Int) : Prog.Keeps (fun c d : CursorState ρ => d.portal.scroll = c.portal.scroll) (adjust k actual) :=
  fun c => congrArg Portal.scroll (adjust_portal k actual c)

theorem same_scroll_framing : Prog.Framing fun c d : CursorState ρ => d.portal.scroll = c.portal.scroll :=
  ⟨fun _ => rfl, fun _ _ _ left right => right.trans left⟩

theorem fetch_scroll : Prog.Keeps (fun c d : CursorState ρ => d.portal.scroll = c.portal.scroll) (fetch k) := by
  apply Prog.keeps_ite _ (Prog.keeps_gets _ fun cur => Prog.keeps_pure same_scroll_framing _)
  apply Prog.keeps_bind same_scroll_framing (command_scroll _)
  intro r
  exact Prog.keeps_bind same_scroll_framing (adjust_scroll k _) fun _ => Prog.keeps_pure same_scroll_framing _

theorem move_scroll : Prog.Keeps (fun c d : CursorState ρ => d.portal.scroll = c.portal.scroll) (move k) := by
  apply Prog.keeps_ite _ (Prog.keeps_pure same_scroll_framing _)
  apply Prog.keeps_bind same_scroll_framing (command_scroll _)
  intro r
  exact Prog.keeps_bind same_scroll_framing (adjust_scroll k _) fun _ => Prog.keeps_pure same_scroll_framing _

end

-- A stream and the reader that stands for it.
structure Reads (o : Opening ρ) (s : Icursorstream ρ) (r : Reader ρ) : Prop where
  streams : Streams o.rows s
  left : s.cur.rest = r.left
  stride : s.stride = r.stride
  done : s.done = r.ended
  rows : s.cur.portal.rows = o.cursor.portal.rows
  scroll : s.cur.portal.scroll = o.cursor.portal.scroll
  reaches : o.Reaches s.stride

section

variable {o : Opening ρ} {s : Icursorstream ρ} {r : Reader ρ} (reads : Reads o s r)

include reads

theorem get_reads : ∃ t, fetchblock s = (.ok r.portion, t) ∧ Reads o t r.take := by
  have positive := reads.streams.stride
  have within : s.stride < CursorBase.all ∨ (s.cur.portal.rows.length : Int) < CursorBase.all := by
    rw [reads.rows]
    exact reads.reaches
  obtain ⟨displacement, after, fetched, _, _, rows, rest⟩ := steady_ahead s.cur s.stride (by omega) within reads.streams.steady
  have scroll := fetch_scroll s.stride s.cur
  obtain ⟨t, spec, streams, same, _⟩ := fetchblock_spec reads.streams within
  have applied := fetchblock_apply s fetched
  have asked : s.stride.toNat = r.stride := by
    rw [reads.stride]
    rfl
  rw [reads.left, asked] at fetched rest applied
  have there : t = { s with cur := after, realpos := s.realpos + r.portion.length, done := s.done || r.portion.isEmpty } := by
    rw [spec] at applied
    exact (Prod.mk.inj applied).2
  refine ⟨t, ?_, ⟨streams, ?_, same.stride.trans reads.stride, ?_, ?_, ?_, ?_⟩⟩
  · rw [applied, there]
    rfl
  · rw [there]
    exact rest
  · rw [there, reads.done]
    rfl
  · exact same.rows.trans reads.rows
  · rw [fetched] at scroll
    rw [there]
    exact scroll.trans reads.scroll
  · rw [same.stride]
    exact reads.reaches

theorem ignore_reads (n : Int) (ahead : 0 ≤ n) (reaches : o.Reaches n) : ∃ t, ignore n s = (.ok (), t) ∧ Reads o t (r.skip n.toNat) := by
  by_cases still : n = 0
  · subst still
    have same : r.skip 0 = r := by simp [Reader.skip]
    refine ⟨s, ?_, by rw [Int.toNat_zero, same]; exact reads⟩
    simp [ignore, move, onCursor]
  · have further : 0 < n := by omega
    have within : n < CursorBase.all ∨ (s.cur.portal.rows.length : Int) < CursorBase.all := by
      rw [reads.rows]
      exact reaches
    obtain ⟨displacement, after, _, moved, _, rows, rest⟩ := steady_ahead s.cur n further within reads.streams.steady
    have scroll := move_scroll n s.cur
    obtain ⟨t, spec, streams, same, _⟩ := ignore_spec reads.streams n further within
    have applied := ignore_apply s n moved
    rw [reads.left] at rest applied
    rw [spec] at applied
    have there := (Prod.mk.inj applied).2
    have short : decide (((r.left.take n.toNat).length : Int) < n) = decide (r.left.length < n.toNat) := by
      rw [decide_eq_decide, List.length_take]
      omega
    refine ⟨t, spec, ⟨streams, ?_, same.stride.trans reads.stride, ?_, ?_, ?_, ?_⟩⟩
    · rw [there]
      exact rest
    · rw [there, short, reads.done]
      rfl
    · exact same.rows.trans reads.rows
    · rw [moved] at scroll
      rw [there]
      exact scroll.trans reads.scroll
    · rw [same.stride]
      exact reads.reaches

-- The backend refuses to go back, and nothing has changed.
theorem ignore_back (n : Int) (back : n < 0) (forwardOnly : o.forwardOnly) :
    ignore n s = (.error { kind := .sqlError, what := "cursor can only scan forward" }, s) := by
  have fixed : s.cur.portal.scroll = false := by
    rw [reads.scroll]
    cases o with
    | create rows basename => rfl
    | adopt portal cname op => exact forwardOnly
  have moving : n ≠ 0 := by omega
  have refused := portal_step_refused s.cur.portal n back fixed
  simp only [ignore, move, if_neg moving, onCursor, command, Prog.bind_apply, Prog.gets_apply, refused, Prog.throw_apply]

theorem stream_step_reads (op : StreamOp) (within : o.Within op) :
    (streamAnswer s op).1 = (readerAnswer r op).1 ∧ Reads o (moved streamAnswer s op) (moved readerAnswer r op) := by
  cases op with
  | get =>
      obtain ⟨t, spec, next⟩ := get_reads reads
      have answered : streamAnswer s .get = (.ok r.portion, t) := spec
      rw [moved, moved, answered]
      exact ⟨rfl, next⟩
  | ignore n =>
      by_cases back : n < 0
      · have refused := ignore_back reads n back (within.1.resolve_left (by omega))
        have answered : streamAnswer s (.ignore n) = (.error { kind := .sqlError, what := "cursor can only scan forward" }, s) := by
          simp only [streamAnswer, StreamOp.perform, Prog.bind_apply, refused]
        rw [moved, moved, answered, readerAnswer, if_pos back]
        exact ⟨rfl, reads⟩
      · obtain ⟨t, spec, next⟩ := ignore_reads reads n (by omega) within.2
        have answered : streamAnswer s (.ignore n) = (.ok [], t) := by
          simp only [streamAnswer, StreamOp.perform, Prog.bind_apply, spec, Prog.pure_apply]
        rw [moved, moved, answered, readerAnswer, if_neg back]
        exact ⟨rfl, next⟩
  | setStride n =>
      by_cases positive : 0 < n.toNat
      · have legal : ¬ n < 1 := by omega
        have answered : streamAnswer s (.setStride n) = (.ok [], { s with stride := n }) := by
          simp only [streamAnswer, StreamOp.perform, setStride, if_neg legal, Prog.bind_apply, Prog.modify_apply, Prog.pure_apply]
        rw [moved, moved, answered, readerAnswer, dif_pos positive]
        have streams := reads.streams
        refine ⟨rfl, ⟨⟨streams.steady, streams.rest, streams.real, ?_⟩, reads.left, ?_, reads.done, reads.rows, reads.scroll, within⟩⟩
        · show 1 ≤ n
          omega
        · show n = (n.toNat : Int)
          omega
      · have illegal : n < 1 := by omega
        have answered : streamAnswer s (.setStride n) =
            (.error { kind := .argumentError, what := "Attempt to set cursor stride to " ++ toString n }, s) := by
          simp only [streamAnswer, StreamOp.perform, setStride, if_pos illegal, Prog.bind_apply, Prog.throw_apply]
        rw [moved, moved, answered, readerAnswer, dif_neg positive]
        exact ⟨rfl, reads⟩

end

-- One turn for each portion, and one for the empty result at the end.
theorem read_out_reads {o : Opening ρ} (r : Reader ρ) (s : Icursorstream ρ) (fuel : Nat) (reads : Reads o s r) (enough : r.left.length < fuel) :
    ∃ t, readOut fuel s = (.ok (some r.portions), t) ∧ t.done = true := by
  induction fuel generalizing r s with
  | zero => exact absurd enough (Nat.not_lt_zero _)
  | succ fuel ih =>
      obtain ⟨t, spec, next⟩ := get_reads reads
      by_cases last : r.left = []
      · have gone : t.done = true := by
          rw [next.done]
          show (r.ended || r.portion.isEmpty) = true
          rw [Reader.portion_empty, last, List.isEmpty_nil, Bool.or_true]
        refine ⟨t, ?_, gone⟩
        simp only [readOut, Prog.bind_apply, spec, Prog.get_apply, gone, if_true, Prog.pure_apply, r.portions_none last]
      · have going : ¬ t.done = true := by
          rw [next.done]
          show ¬ (r.ended || r.portion.isEmpty) = true
          rw [Reader.portion_empty, Bool.or_eq_true, List.isEmpty_iff]
          exact fun either => either.elim (fun ended => last (r.spent ended)) last
        have shorter := r.take_shorter last
        obtain ⟨u, rest, gone⟩ := ih r.take t next (by omega)
        refine ⟨u, ?_, gone⟩
        simp only [readOut, Prog.bind_apply, spec, Prog.get_apply, if_neg going, rest, Prog.pure_apply, Option.map_some, r.portions_some last]

theorem fresh_reads (o : Opening ρ) (stride : Int) (positive : 0 < stride.toNat) (reaches : o.Reaches stride) :
    Reads o (fresh o stride) (Reader.on o.rows stride.toNat positive) := by
  have opened : icursorstream o stride = .ok (fresh o stride) := by
    rw [icursorstream, if_neg (by omega)]
  obtain ⟨serves, _⟩ := opening_serves o false stride (fresh o stride) opened
  refine ⟨serves.streams, serves.streams.rest, ?_, rfl, rfl, rfl, reaches⟩
  show stride = (stride.toNat : Int)
  omega

theorem reader_left (r : Reader ρ) (op : StreamOp) : (moved readerAnswer r op).left.length ≤ r.left.length := by
  cases op with
  | get => exact (List.drop_sublist r.stride r.left).length_le
  | ignore n =>
      rw [moved, readerAnswer]
      split
      · exact Nat.le_refl _
      · exact (List.drop_sublist n.toNat r.left).length_le
  | setStride n =>
      rw [moved, readerAnswer]
      split
      · exact Nat.le_refl _
      · exact Nat.le_refl _

end Pqxx
