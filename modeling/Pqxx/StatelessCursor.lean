import Pqxx.SqlCursorPosition

set_option autoImplicit false

namespace Pqxx

open Lib

variable {ρ : Type}

def obtainStatelessCursorSize : Prog (CursorState ρ) Exn Int := do
  let cur ← Prog.gets CursorState.cur
  Prog.when (cur.endpos = -1) do
    let _ ← move CursorBase.all
    pure ()
  let cur ← Prog.gets CursorState.cur
  pure (cur.endpos - 1)

def statelessCursorRetrieve (size beginPos endPos : Int) : Prog (CursorState ρ) Exn (List ρ) :=
  if beginPos < 0 ∨ beginPos > size then throw { kind := .rangeError, what := "Starting position out of range" }
  else
    let endPos := if endPos < -1 then -1 else if endPos > size then size else endPos
    if beginPos = endPos then do
      let cur ← Prog.gets CursorState.cur
      pure cur.emptyResult
    else do
      let direction : Int := if beginPos < endPos then 1 else -1
      let cur ← Prog.gets CursorState.cur
      let _ ← move (beginPos - direction - (cur.pos - 1))
      let r ← fetch (endPos - beginPos)
      pure r.1

def StatelessCursor.retrieve (beginPos endPos : Int) : Prog (CursorState ρ) Exn (List ρ) := do
  let size ← obtainStatelessCursorSize
  statelessCursorRetrieve size beginPos endPos

-- stateless_cursor's two constructors; the second is for a cursor that is already there.
inductive Opening (ρ : Type) where
  | create (rows : List ρ) (cname : String) (op : OwnershipPolicy)
  | adopt (portal : Portal ρ) (adoptedCursor : String) (op : OwnershipPolicy)

def Opening.rows : Opening ρ → List ρ
  | .create rows _ _ => rows
  | .adopt portal _ _ => portal.rows

def Opening.scrolling : Opening ρ → Bool
  | .create _ _ _ => true
  | .adopt portal _ _ => portal.scroll

def statelessCursor : Opening ρ → Except Exn Unit × CursorState ρ
  | .create rows cname op => (.ok (), sqlCursor rows cname .randomAccess op)
  | .adopt portal adoptedCursor op =>
      (do
        let _ ← move CursorBase.backwardAll
        pure () : Prog (CursorState ρ) Exn Unit) (adoptCursor portal adoptedCursor op)

inductive StatelessOp where
  | size
  | retrieve (beginPos endPos : Int)
deriving DecidableEq, Repr

-- One call, whatever came of it.
def statelessStep (s : CursorState ρ) : StatelessOp → CursorState ρ
  | .size => (obtainStatelessCursorSize s).2
  | .retrieve beginPos endPos => (StatelessCursor.retrieve beginPos endPos s).2

-- The rows that exist from one number on up to another, or down to it.
def rowsBetween (rows : List ρ) (beginPos endPos : Int) : List ρ :=
  if beginPos < endPos then (rows.drop beginPos.toNat).take (endPos - beginPos).toNat
  else ((rows.take (beginPos + 1).toNat).drop (endPos + 1).toNat).reverse

-- What is asked of retrieve().
def Retrieves (rows : List ρ) (beginPos endPos : Int) (outcome : Except Exn (List ρ)) : Prop :=
  if 0 ≤ beginPos ∧ beginPos ≤ rows.length then outcome = .ok (rowsBetween rows beginPos endPos)
  else ∃ e, outcome = .error e ∧ e.kind = .rangeError

-- No move of a cursor changes its empty result.
def SameEmpty (s t : CursorState ρ) : Prop := t.cur.emptyResult = s.cur.emptyResult

theorem same_empty_framing : Prog.Framing (SameEmpty : CursorState ρ → CursorState ρ → Prop) :=
  ⟨fun _ => rfl, fun _ _ _ left right => right.trans left⟩

theorem advance_keeps_empty (direction actual : Int) (hitEnd : Bool) :
    Prog.Keeps (SameEmpty : CursorState ρ → CursorState ρ → Prop) (advance direction actual hitEnd) := by
  refine Prog.keeps_bind same_empty_framing (Prog.keeps_modify _ fun s => ?_) fun _ => Prog.keeps_gets _ fun cur => ?_
  · simp only [SameEmpty, CursorState.update]
    split <;> rfl
  · refine Prog.keeps_ite _ (Prog.keeps_ite _ (Prog.keeps_throw same_empty_framing _) ?_) (Prog.keeps_pure same_empty_framing _)
    exact Prog.keeps_bind same_empty_framing (Prog.keeps_modify _ fun _ => rfl) fun _ => Prog.keeps_pure same_empty_framing _

theorem adjust_keeps_empty (k actual : Int) :
    Prog.Keeps (SameEmpty : CursorState ρ → CursorState ρ → Prop) (adjust k actual) := by
  have moving : ∀ f : CursorState ρ → CursorState ρ, ∀ direction actual hitEnd, (∀ s, SameEmpty s (f s)) →
      Prog.Keeps (SameEmpty : CursorState ρ → CursorState ρ → Prop) (do
        Prog.modify f
        advance direction actual hitEnd) := fun f direction actual hitEnd same =>
    Prog.keeps_bind same_empty_framing (Prog.keeps_modify f same) fun _ => advance_keeps_empty direction actual hitEnd
  refine Prog.keeps_ite _ (Prog.keeps_throw same_empty_framing _) (Prog.keeps_ite _ (Prog.keeps_pure same_empty_framing _) ?_)
  refine Prog.keeps_ite _ (Prog.keeps_ite _ (Prog.keeps_throw same_empty_framing _) ?_) (moving _ _ _ _ ?_)
  · refine Prog.keeps_gets _ fun cur => ?_
    refine Prog.keeps_ite _ (moving _ _ _ _ ?_) (Prog.keeps_ite _ (moving _ _ _ _ ?_) ?_)
    · exact fun _ => rfl
    · exact fun _ => rfl
    · refine Prog.keeps_ite _ (Prog.keeps_throw same_empty_framing _) (moving _ _ _ _ ?_)
      exact fun _ => rfl
  · exact fun _ => rfl

theorem size_moved (s : CursorState ρ) (unknown : s.cur.endpos = -1) {d displacement : Int} {after : CursorState ρ}
    (moved : move CursorBase.all s = (.ok (d, displacement), after)) :
    obtainStatelessCursorSize s = (.ok (after.cur.endpos - 1), after) := by
  simp only [obtainStatelessCursorSize, Prog.bind_apply, Prog.gets_apply, Prog.when, if_pos unknown, moved, Prog.pure_apply]

-- A scrolling cursor over rows, in a position it knows.
structure Poised (rows : List ρ) (s : CursorState ρ) : Prop where
  located : Located s
  rows : s.portal.rows = rows
  scroll : s.portal.scroll = true
  empty : s.cur.emptyResult = []

section

variable {rows : List ρ} {s : CursorState ρ} (small : (rows.length : Int) < CursorBase.all) (poised : Poised rows s)

include small poised

theorem move_poised (k : Int) :
    ∃ d displacement after, move k s = (.ok (d, displacement), after) ∧ Poised rows after ∧
      after.portal.position = (if 0 ≤ k then min (s.portal.position + k.natAbs) (rows.length + 1) else s.portal.position - k.natAbs) ∧
      (k ≠ 0 → after.cur.endpos = if after.portal.position = rows.length + 1 then (rows.length : Int) + 1 else s.cur.endpos) ∧
      (k = 0 → after.cur.endpos = s.cur.endpos) := by
  obtain ⟨located, same, scroll, empty⟩ := poised
  have bounded := s.portal.bounded
  by_cases still : k = 0
  · subst still
    refine ⟨0, 0, s, rfl, ⟨located, same, scroll, empty⟩, ?_, fun moving => absurd rfl moving, fun _ => rfl⟩
    rw [same] at bounded
    simp only [Int.le_refl, if_true, Int.natAbs_zero, Nat.add_zero]
    omega
  · obtain ⟨passed, next, answer, sameRows, sameScroll, moves⟩ := portal_step_moves s.portal k still (by rw [same]; exact small)
      (fun _ => scroll)
    obtain ⟨after, adjusted, landed, locatedAfter, endpos⟩ := located_adjust s next k passed.length still located moves sameRows
    have kept := adjust_keeps_empty k passed.length { s with portal := next }
    rw [adjusted] at kept
    rw [same] at moves endpos
    refine ⟨_, _, after, move_answered s k still passed next answer _ after adjusted,
      ⟨locatedAfter, by rw [landed, sameRows, same], by rw [landed, sameScroll, scroll], kept.trans empty⟩, ?_,
      fun _ => by rw [landed]; exact endpos, fun none_ => absurd none_ still⟩
    rw [landed]
    rcases Int.lt_or_gt_of_ne still with behind | ahead
    · rw [if_neg (by omega)]
      exact (moves.backward behind).1
    · rw [if_pos (by omega)]
      exact (moves.forward ahead).1

theorem fetch_ahead_poised (k : Int) (ahead : 0 < k) :
    ∃ displacement after, fetch k s = (.ok ((rows.drop s.portal.position).take k.toNat, displacement), after) ∧ Poised rows after := by
  obtain ⟨located, same, scroll, empty⟩ := poised
  have moving : k ≠ 0 := by omega
  obtain ⟨next, answer, sameRows, sameScroll, landed⟩ := portal_step_ahead s.portal k ahead (.inr (by rw [same]; exact small))
  have moves : Moves s.portal.rows.length s.portal.position k ((s.portal.rows.drop s.portal.position).take k.toNat).length
      next.position := by
    refine ⟨fun _ => ⟨by omega, ?_⟩, fun behind => by omega⟩
    simp only [List.length_take, List.length_drop]
    omega
  obtain ⟨after, adjusted, at_, locatedAfter, _⟩ := located_adjust s next k _ moving located moves sameRows
  have kept := adjust_keeps_empty k ((s.portal.rows.drop s.portal.position).take k.toNat).length { s with portal := next }
  rw [adjusted] at kept
  have fetched := fetch_answered s k moving _ next answer _ after adjusted
  rw [same] at fetched
  exact ⟨_, after, fetched, locatedAfter, by rw [at_, sameRows, same], by rw [at_, sameScroll, scroll], kept.trans empty⟩

omit small in
theorem fetch_back_poised (k : Int) (behind : k < 0) (within : CursorBase.backwardAll < k) :
    ∃ displacement after, fetch k s = (.ok ((rows.take (s.portal.position - 1)).reverse.take k.natAbs, displacement), after) ∧
      Poised rows after := by
  obtain ⟨located, same, scroll, empty⟩ := poised
  have moving : k ≠ 0 := by omega
  have bounded := s.portal.bounded
  obtain ⟨next, answer, sameRows, sameScroll, landed⟩ := portal_step_back s.portal k behind within scroll
  have moves : Moves s.portal.rows.length s.portal.position k
      ((s.portal.rows.take (s.portal.position - 1)).reverse.take k.natAbs).length next.position := by
    refine ⟨fun ahead => by omega, fun _ => ⟨landed, ?_⟩⟩
    simp only [List.length_take, List.length_reverse]
    omega
  obtain ⟨after, adjusted, at_, locatedAfter, _⟩ := located_adjust s next k _ moving located moves sameRows
  have kept := adjust_keeps_empty k ((s.portal.rows.take (s.portal.position - 1)).reverse.take k.natAbs).length { s with portal := next }
  rw [adjusted] at kept
  have fetched := fetch_answered s k moving _ next answer _ after adjusted
  rw [same] at fetched
  exact ⟨_, after, fetched, locatedAfter, by rw [at_, sameRows, same], by rw [at_, sameScroll, scroll], kept.trans empty⟩

theorem size_poised :
    ∃ after, obtainStatelessCursorSize s = (.ok (rows.length : Int), after) ∧ Poised rows after := by
  have endpos := poised.located.endpos
  rw [poised.rows] at endpos
  by_cases unknown : s.cur.endpos = -1
  · obtain ⟨d, displacement, after, moved, poisedAfter, landed, ended, _⟩ := move_poised small poised CursorBase.all
    have found : after.portal.position = rows.length + 1 := by
      unfold CursorBase.all at small landed
      rw [landed, if_pos (by omega)]
      omega
    have known := ended (by decide)
    rw [if_pos found] at known
    refine ⟨after, ?_, poisedAfter⟩
    rw [size_moved s unknown moved, known, Int.add_sub_cancel]
  · have known : s.cur.endpos = (rows.length : Int) + 1 := endpos.resolve_left unknown
    refine ⟨s, ?_, poised⟩
    simp only [obtainStatelessCursorSize, Prog.bind_apply, Prog.gets_apply, Prog.when_skip _ _ s unknown, Prog.pure_apply]
    rw [known]
    rw [Int.add_sub_cancel]

end

-- What retrieve() returns: begun one row past the end and ended on a row that is there,
-- it goes back as many rows as lie between and so returns the row at endPos too.
def retrieved (rows : List ρ) (beginPos endPos : Int) : List ρ :=
  if beginPos = rows.length ∧ 0 ≤ endPos ∧ endPos < rows.length then (rows.drop endPos.toNat).reverse
  else rowsBetween rows beginPos endPos

theorem rows_between_same (rows : List ρ) (pos : Int) : rowsBetween rows pos pos = [] := by
  simp only [rowsBetween, if_neg (Int.lt_irrefl pos), List.drop_take, Nat.sub_self, List.take_zero, List.reverse_nil]

theorem rows_between_end (rows : List ρ) (endPos : Int) (beyond : (rows.length : Int) ≤ endPos) :
    rowsBetween rows rows.length endPos = [] := by
  by_cases same : (rows.length : Int) = endPos
  · rw [← same]
    exact rows_between_same rows _
  · rw [rowsBetween, if_pos (by omega), Int.toNat_natCast, List.drop_length, List.take_nil]

-- Counting back from one past a row that is there.
theorem rows_between_back (rows : List ρ) (b e : Int) (behind : e < b) (least : -1 ≤ e) (inside : b < rows.length) :
    (rows.take (b + 1).toNat).reverse.take (e - b).natAbs = rowsBetween rows b e := by
  rw [rowsBetween, if_neg (by omega), List.take_reverse, List.length_take]
  have skipped : min (b + 1).toNat rows.length - (e - b).natAbs = (e + 1).toNat := by omega
  rw [skipped]

theorem stateless_retrieve_poised {rows : List ρ} {s : CursorState ρ} (small : (rows.length : Int) < CursorBase.all)
    (poised : Poised rows s) (beginPos endPos : Int) (first : 0 ≤ beginPos) (last : beginPos ≤ rows.length) :
    ∃ after, statelessCursorRetrieve rows.length beginPos endPos s = (.ok (retrieved rows beginPos endPos), after) ∧
      Poised rows after := by
  have within : ¬ (beginPos < 0 ∨ beginPos > rows.length) := by omega
  have pos : s.cur.pos = s.portal.position := poised.located.pos
  have bounded := s.portal.bounded
  rw [poised.rows] at bounded
  simp only [statelessCursorRetrieve, if_neg within]
  generalize clamped : (if endPos < -1 then -1 else if endPos > rows.length then (rows.length : Int) else endPos) = e
  have range : -1 ≤ e ∧ e ≤ rows.length := by
    rw [← clamped]
    split
    · omega
    · split <;> omega
  by_cases same : beginPos = e
  · refine ⟨s, ?_, poised⟩
    rw [if_pos same]
    simp only [Prog.bind_apply, Prog.gets_apply, Prog.pure_apply, poised.empty]
    have nothing : retrieved rows beginPos endPos = [] := by
      by_cases beyond : endPos > rows.length
      · have atEnd : beginPos = rows.length := by
          rw [same, ← clamped, if_neg (by omega), if_pos beyond]
        rw [retrieved, if_neg (by omega), atEnd]
        exact rows_between_end rows endPos (by omega)
      · have there : endPos = beginPos := by
          rw [same, ← clamped]
          split
          · omega
          · rfl
        rw [retrieved, if_neg (by omega), there]
        exact rows_between_same rows beginPos
    rw [nothing]
  · rw [if_neg same]
    by_cases ahead : beginPos < e
    · simp only [Prog.bind_apply, Prog.gets_apply, if_pos ahead]
      obtain ⟨d, displacement, there, moved, poisedThere, landed, _⟩ := move_poised small poised (beginPos - 1 - (s.cur.pos - 1))
      have position : there.portal.position = beginPos.toNat := by
        rw [landed]
        split <;> omega
      obtain ⟨displacement, after, fetched, poisedAfter⟩ := fetch_ahead_poised small poisedThere (e - beginPos) (by omega)
      refine ⟨after, ?_, poisedAfter⟩
      simp only [moved, fetched, Prog.pure_apply, position]
      have asked : rowsBetween rows beginPos endPos = (rows.drop beginPos.toNat).take (endPos - beginPos).toNat := by
        rw [rowsBetween, if_pos]
        rw [← clamped] at ahead
        split at ahead
        · omega
        · split at ahead <;> omega
      have whole : (rows.drop beginPos.toNat).take (e - beginPos).toNat = (rows.drop beginPos.toNat).take (endPos - beginPos).toNat := by
        rw [← clamped] at ahead ⊢
        split
        · omega
        · split
          · rw [List.take_of_length_le (by rw [List.length_drop]; omega), List.take_of_length_le (by rw [List.length_drop]; omega)]
          · rfl
      rw [retrieved, if_neg (by omega), asked, whole]
    · have behind : e < beginPos := by omega
      have lower : endPos < beginPos ∧ (e = endPos ∨ e = -1 ∧ endPos < -1) := by
        rw [← clamped] at behind ⊢
        split
        · omega
        · rename_i least
          rw [if_neg least] at behind
          split at behind
          · omega
          · rename_i most
            rw [if_neg most]
            omega
      simp only [Prog.bind_apply, Prog.gets_apply, if_neg ahead]
      obtain ⟨d, displacement, there, moved, poisedThere, landed, _⟩ := move_poised small poised (beginPos - (-1) - (s.cur.pos - 1))
      have position : there.portal.position - 1 = min (beginPos + 1).toNat rows.length := by
        rw [landed]
        split <;> omega
      obtain ⟨displacement, after, fetched, poisedAfter⟩ := fetch_back_poised poisedThere (e - beginPos) (by omega)
        (by unfold CursorBase.backwardAll; unfold CursorBase.all at small; omega)
      refine ⟨after, ?_, poisedAfter⟩
      simp only [moved, fetched, Prog.pure_apply, position]
      by_cases atEnd : beginPos = rows.length
      · have whole : min (beginPos + 1).toNat rows.length = rows.length := by omega
        rw [whole, List.take_length, List.take_reverse]
        rcases lower with ⟨_, rfl | ⟨rfl, least⟩⟩
        · by_cases inside : 0 ≤ e
          · have skipped : rows.length - (e - beginPos).natAbs = e.toNat := by omega
            rw [retrieved, if_pos ⟨atEnd, inside, by omega⟩, skipped]
          · have skipped : rows.length - (e - beginPos).natAbs = (e + 1).toNat := by omega
            rw [retrieved, if_neg (by omega), rowsBetween, if_neg (by omega), skipped, atEnd,
              List.take_of_length_le (by omega)]
        · have skipped : rows.length - (-1 - beginPos).natAbs = (endPos + 1).toNat := by omega
          rw [retrieved, if_neg (by omega), rowsBetween, if_neg (by omega), skipped, atEnd, List.take_of_length_le (by omega)]
      · have whole : min (beginPos + 1).toNat rows.length = (beginPos + 1).toNat := by omega
        rw [whole, rows_between_back rows beginPos e behind range.1 (by omega), retrieved, if_neg (by omega)]
        rcases lower with ⟨_, rfl | ⟨rfl, least⟩⟩
        · rfl
        · have none_ : (endPos + 1).toNat = ((-1 : Int) + 1).toNat := by omega
          rw [rowsBetween, if_neg (by omega), rowsBetween, if_neg (by omega), none_]

-- retrieve() from a position the cursor knows, which it knows afterwards as well.
theorem retrieve_poised {rows : List ρ} {s : CursorState ρ} (small : (rows.length : Int) < CursorBase.all) (poised : Poised rows s)
    (beginPos endPos : Int) :
    ∃ after, StatelessCursor.retrieve beginPos endPos s = (if 0 ≤ beginPos ∧ beginPos ≤ rows.length then .ok (retrieved rows beginPos endPos)
      else .error { kind := .rangeError, what := "Starting position out of range" }, after) ∧ Poised rows after := by
  obtain ⟨there, sized, poisedThere⟩ := size_poised small poised
  simp only [StatelessCursor.retrieve, Prog.bind_apply, sized]
  by_cases within : 0 ≤ beginPos ∧ beginPos ≤ rows.length
  · rw [if_pos within]
    exact stateless_retrieve_poised small poisedThere beginPos endPos within.1 within.2
  · refine ⟨there, ?_, poisedThere⟩
    rw [if_neg within, statelessCursorRetrieve, if_pos (by omega)]
    rfl

theorem stateless_run_poised {rows : List ρ} (small : (rows.length : Int) < CursorBase.all) (ops : List StatelessOp) (s : CursorState ρ)
    (poised : Poised rows s) : Poised rows (run statelessStep s ops) := by
  refine run_always statelessStep (Poised rows) ?_ s ops poised
  intro s op poised
  cases op with
  | size =>
      obtain ⟨after, sized, poisedAfter⟩ := size_poised small poised
      rw [statelessStep, sized]
      exact poisedAfter
  | retrieve beginPos endPos =>
      obtain ⟨after, outcome, poisedAfter⟩ := retrieve_poised small poised beginPos endPos
      rw [statelessStep, outcome]
      exact poisedAfter

theorem retrieves_iff {rows : List ρ} (beginPos endPos : Int) :
    Retrieves rows beginPos endPos (if 0 ≤ beginPos ∧ beginPos ≤ rows.length then .ok (retrieved rows beginPos endPos)
      else .error { kind := .rangeError, what := "Starting position out of range" }) ↔
      ¬ (beginPos = rows.length ∧ 0 ≤ endPos ∧ endPos < rows.length) := by
  unfold Retrieves
  by_cases within : 0 ≤ beginPos ∧ beginPos ≤ rows.length
  · rw [if_pos within, if_pos within, Except.ok.injEq]
    by_cases slips : beginPos = rows.length ∧ 0 ≤ endPos ∧ endPos < rows.length
    · refine iff_of_false (fun same => ?_) (fun no => no slips)
      have counted := congrArg List.length same
      rw [retrieved, if_pos slips, rowsBetween, if_neg (by omega)] at counted
      simp only [List.length_reverse, List.length_drop, List.length_take] at counted
      omega
    · rw [retrieved, if_neg slips]
      exact iff_of_true rfl slips
  · rw [if_neg within, if_neg within]
    exact iff_of_true ⟨_, rfl, rfl⟩ (by omega)

theorem stateless_opens_poised (o : Opening ρ) (scrolling : o.scrolling = true) (small : (o.rows.length : Int) < CursorBase.all) :
    (statelessCursor o).1 = .ok () ∧ Poised o.rows (statelessCursor o).2 := by
  cases o with
  | create rows cname op =>
      refine ⟨rfl, ⟨rfl, ?_, ?_, .inl rfl⟩, rfl, rfl, ?_⟩
      · simp [statelessCursor, sqlCursor, declarePortal]
      · simp [statelessCursor, sqlCursor, declarePortal]
      · simp [statelessCursor, sqlCursor, declarePortal, Portal.current]
  | adopt portal adoptedCursor op =>
      simp only [Opening.scrolling, Opening.rows] at scrolling small ⊢
      have moving : CursorBase.backwardAll ≠ 0 := by decide
      obtain ⟨passed, next, answer, sameRows, sameScroll, moves⟩ := portal_step_moves portal CursorBase.backwardAll moving small
        (fun _ => scrolling)
      obtain ⟨displacement, after, adjusted, landed, found, _⟩ := lost_adjust (adoptCursor portal adoptedCursor op) next
        CursorBase.backwardAll passed.length moving ⟨rfl, rfl⟩ moves
      have moved := move_answered (adoptCursor portal adoptedCursor op) CursorBase.backwardAll moving passed next answer
        displacement after adjusted
      have kept := adjust_keeps_empty CursorBase.backwardAll passed.length { adoptCursor portal adoptedCursor op with portal := next }
      rw [adjusted] at kept
      have start : next.position = 0 := by
        have bounded := portal.bounded
        have there := (moves.backward (by decide)).1
        unfold CursorBase.all at small
        unfold CursorBase.backwardAll at there
        omega
      have opened : statelessCursor (.adopt portal adoptedCursor op) = (.ok (), after) := by
        simp only [statelessCursor, Prog.bind_apply, moved, Prog.pure_apply]
      rw [opened]
      exact ⟨rfl, found start, by rw [landed, sameRows], by rw [landed, sameScroll, scrolling], kept⟩

-- A move backward does not tell where the end is.
theorem adjust_back_endpos (k actual : Int) (behind : k < 0) :
    Prog.Keeps (fun s t : CursorState ρ => t.portal = s.portal ∧ t.cur.endpos = s.cur.endpos) (adjust k actual) := by
  have framing : Prog.Framing (fun s t : CursorState ρ => t.portal = s.portal ∧ t.cur.endpos = s.cur.endpos) :=
    ⟨fun _ => ⟨rfl, rfl⟩, fun _ _ _ left right => ⟨right.1.trans left.1, right.2.trans left.2⟩⟩
  have advancing : ∀ actual, Prog.Keeps (fun s t : CursorState ρ => t.portal = s.portal ∧ t.cur.endpos = s.cur.endpos)
      (advance (-1) actual false) := by
    intro actual
    refine Prog.keeps_bind framing (Prog.keeps_modify _ fun s => ?_) fun _ => Prog.keeps_gets _ fun cur => ?_
    · simp only [CursorState.update]
      split <;> exact ⟨trivial, rfl⟩
    · exact Prog.keeps_pure framing _
  have moving : ∀ (f : CursorState ρ → CursorState ρ) (actual : Int),
      (∀ s, (f s).portal = s.portal ∧ (f s).cur.endpos = s.cur.endpos) →
      Prog.Keeps (fun s t : CursorState ρ => t.portal = s.portal ∧ t.cur.endpos = s.cur.endpos) (do
        Prog.modify f
        advance (-1) actual false) := fun f actual same =>
    Prog.keeps_bind framing (Prog.keeps_modify f same) fun _ => advancing actual
  have direction : (if k < 0 then (-1 : Int) else 1) = -1 := if_pos behind
  simp only [adjust, direction]
  refine Prog.keeps_ite _ (Prog.keeps_throw framing _) (Prog.keeps_ite _ (Prog.keeps_pure framing _) ?_)
  refine Prog.keeps_ite _ (Prog.keeps_ite _ (Prog.keeps_throw framing _) ?_) (moving _ _ ?_)
  · refine Prog.keeps_gets _ fun cur => ?_
    rw [if_neg (show ¬ (-1 : Int) > 0 by decide)]
    refine Prog.keeps_ite _ (moving _ _ ?_) (Prog.keeps_ite _ (Prog.keeps_throw framing _) (moving _ _ ?_))
    · exact fun _ => ⟨rfl, rfl⟩
    · exact fun _ => ⟨rfl, rfl⟩
  · exact fun _ => ⟨rfl, rfl⟩

theorem stateless_starts (o : Opening ρ) (scrolling : o.scrolling = true) :
    (statelessCursor o).2.portal.position = 0 ∧ (statelessCursor o).2.portal.rows = o.rows ∧ (statelessCursor o).2.cur.endpos = -1 := by
  cases o with
  | create rows cname op => exact ⟨rfl, rfl, rfl⟩
  | adopt portal adoptedCursor op =>
      have answer : portal.step (stridestring CursorBase.backwardAll) =
          .ok ((portal.backward (portal.rows.length + 1)).1, (portal.backward (portal.rows.length + 1)).2) := by
        have stride : stridestring CursorBase.backwardAll = .backwardAll := rfl
        rw [stride, Portal.step, if_pos (show portal.scroll = true from scrolling)]
      have start : (portal.backward (portal.rows.length + 1)).2.position = 0 := by
        have bounded := portal.bounded
        simp only [Portal.backward]
        omega
      have kept := adjust_back_endpos CursorBase.backwardAll (portal.backward (portal.rows.length + 1)).1.length (by decide)
        { adoptCursor portal adoptedCursor op with portal := (portal.backward (portal.rows.length + 1)).2 }
      have moving : ¬ CursorBase.backwardAll = 0 := by decide
      have left : (statelessCursor (.adopt portal adoptedCursor op)).2 =
          (adjust CursorBase.backwardAll (portal.backward (portal.rows.length + 1)).1.length
            { adoptCursor portal adoptedCursor op with portal := (portal.backward (portal.rows.length + 1)).2 }).2 := by
        simp only [statelessCursor, move, if_neg moving, command, Prog.bind_apply, Prog.gets_apply]
        simp only [adoptCursor, answer, Prog.bind_apply, Prog.modify_apply, Prog.pure_apply]
        generalize adjust CursorBase.backwardAll _ _ = adjusted
        obtain ⟨outcome, after⟩ := adjusted
        cases outcome <;> rfl
      rw [left, kept.1, kept.2]
      exact ⟨start, rfl, rfl⟩

-- A result set that MOVE ALL does not fall short on: the size stays unknown.
theorem retrieve_huge (s : CursorState ρ) (start : s.portal.position = 0) (unknown : s.cur.endpos = -1)
    (huge : CursorBase.all ≤ (s.portal.rows.length : Int)) : ∃ e, (StatelessCursor.retrieve 0 0 s).1 = .error e := by
  have answer : s.portal.step (stridestring CursorBase.all) = .ok ((s.portal.forward (s.portal.rows.length + 1)).1,
      (s.portal.forward (s.portal.rows.length + 1)).2) := rfl
  have counted : ((s.portal.forward (s.portal.rows.length + 1)).1.length : Int) = s.portal.rows.length := by
    simp only [Portal.forward, List.length_take, List.length_drop]
    omega
  have moving : CursorBase.all ≠ 0 := by decide
  have full : (CursorBase.all.natAbs : Int) = CursorBase.all := rfl
  by_cases exactly : (s.portal.rows.length : Int) = CursorBase.all
  · have adjusted := adjust_full { s with portal := (s.portal.forward (s.portal.rows.length + 1)).2 } CursorBase.all moving
    have whole : (CursorBase.all.natAbs : Int) = (s.portal.forward (s.portal.rows.length + 1)).1.length := by omega
    rw [whole] at adjusted
    have moved := move_answered s CursorBase.all moving _ _ answer _ _ adjusted
    have sized := size_moved s unknown moved
    simp only [CursorState.update, unknown] at sized
    refine ⟨{ kind := .rangeError, what := "Starting position out of range" }, ?_⟩
    simp only [StatelessCursor.retrieve, Prog.bind_apply, sized]
    rfl
  · have some_ : ¬ ((s.portal.forward (s.portal.rows.length + 1)).1.length : Int) < 0 := by omega
    have more : ((s.portal.forward (s.portal.rows.length + 1)).1.length : Int) ≠ CursorBase.all.natAbs := by omega
    have beyond : ((s.portal.forward (s.portal.rows.length + 1)).1.length : Int) > CursorBase.all.natAbs := by omega
    refine ⟨.internalError "Cursor displacement larger than requested", ?_⟩
    simp only [StatelessCursor.retrieve, obtainStatelessCursorSize, Prog.bind_apply, Prog.gets_apply, Prog.when, if_pos unknown, move, if_neg moving,
      command, answer, Prog.modify_apply, Prog.pure_apply, adjust, if_neg some_, if_pos more, if_pos beyond, Prog.throw_apply]

-- A stateless_cursor over a result set of fewer than all() rows returns what it is asked
-- for after any earlier calls, save when it is asked to go back from one past the end to
-- a row that is there; over a longer one it does not even find nothing where nothing is
-- asked for.
theorem stateless_cursor_retrieves (o : Opening ρ) (scrolling : o.scrolling = true) :
    ((o.rows.length : Int) < CursorBase.all → (statelessCursor o).1 = .ok () ∧
      ∀ (ops : List StatelessOp) (beginPos endPos : Int),
        Retrieves o.rows beginPos endPos (StatelessCursor.retrieve beginPos endPos (run statelessStep (statelessCursor o).2 ops)).1 ↔
          ¬ (beginPos = o.rows.length ∧ 0 ≤ endPos ∧ endPos < o.rows.length)) ∧
    (CursorBase.all ≤ (o.rows.length : Int) → ¬ Retrieves o.rows 0 0 (StatelessCursor.retrieve 0 0 (statelessCursor o).2).1) := by
  constructor
  · intro small
    obtain ⟨opened, poised⟩ := stateless_opens_poised o scrolling small
    refine ⟨opened, fun ops beginPos endPos => ?_⟩
    obtain ⟨after, outcome, _⟩ := retrieve_poised small (stateless_run_poised small ops _ poised) beginPos endPos
    rw [outcome]
    exact retrieves_iff beginPos endPos
  · intro huge
    obtain ⟨start, same, unknown⟩ := stateless_starts o scrolling
    obtain ⟨e, failed⟩ := retrieve_huge (statelessCursor o).2 start unknown (by rw [same]; exact huge)
    unfold Retrieves
    rw [if_pos (by omega), failed]
    intro claimed
    cases claimed

theorem stateless_cursor_retrieves_back :
    Retrieves [10, 20, 30] 2 0 (StatelessCursor.retrieve 2 0 (run statelessStep
      (statelessCursor (.create [10, 20, 30] "stateless" .owned)).2 [.retrieve 0 2, .size])).1 :=
  (((stateless_cursor_retrieves (.create [10, 20, 30] "stateless" .owned) rfl).1 (by decide)).2 [.retrieve 0 2, .size] 2 0).mpr (by decide)

theorem stateless_cursor_retrieves_fails :
    ¬ ∀ (rows : List Nat) (beginPos endPos : Int),
      Retrieves rows beginPos endPos (StatelessCursor.retrieve beginPos endPos (statelessCursor (.create rows "stateless" .owned)).2).1 := by
  intro claimed
  have back := claimed [10, 20, 30] 3 1
  rw [Retrieves, if_pos (by decide)] at back
  exact absurd back (by decide)

end Pqxx
