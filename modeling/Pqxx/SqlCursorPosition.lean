import Mathlib.Data.Nat.Cast.Basic
import Mathlib.Tactic.SplitIfs
import Pqxx.Lib.Run
import Pqxx.SqlCursor

set_option autoImplicit false

namespace Pqxx

open Lib

variable {ρ : Type}

-- What a nonzero move does in numbers: a result of n rows, from position q by k, to
-- position q' with count rows passed over.
structure Moves (n q : Nat) (k : Int) (count q' : Nat) : Prop where
  forward : 0 < k → q' = min (q + k.natAbs) (n + 1) ∧ count = min k.natAbs (n - q)
  backward : k < 0 → q' = q - k.natAbs ∧ count = min k.natAbs (q - 1)

theorem portal_forward_moves (p : Portal ρ) (k : Int) (m : Nat) (ahead : 0 < k)
    (enough : m = k.natAbs ∨ p.rows.length + 1 ≤ m ∧ p.rows.length + 1 ≤ k.natAbs) :
    Moves p.rows.length p.position k (p.forward m).1.length (p.forward m).2.position := by
  refine ⟨fun _ => ⟨?_, ?_⟩, fun behind => by omega⟩
  · simp only [Portal.forward]
    omega
  · simp only [Portal.forward, List.length_take, List.length_drop]
    omega

theorem portal_backward_moves (p : Portal ρ) (k : Int) (m : Nat) (behind : k < 0)
    (enough : m = k.natAbs ∨ p.rows.length + 1 ≤ m ∧ p.rows.length + 1 ≤ k.natAbs) :
    Moves p.rows.length p.position k (p.backward m).1.length (p.backward m).2.position := by
  have bounded := p.bounded
  refine ⟨fun ahead => by omega, fun _ => ⟨?_, ?_⟩⟩
  · simp only [Portal.backward]
    omega
  · simp only [Portal.backward, List.length_take, List.length_reverse]
    omega

-- The only stride the backend refuses is a backward one on a NO SCROLL cursor, and
-- a result set below all() rows makes ALL no shorter than the request.
theorem portal_step_moves (p : Portal ρ) (k : Int) (nonzero : k ≠ 0) (small : (p.rows.length : Int) < CursorBase.all)
    (legal : k < 0 → p.scroll = true) :
    ∃ rows next, p.step (stridestring k) = .ok (rows, next) ∧ next.rows = p.rows ∧ next.scroll = p.scroll ∧
      Moves p.rows.length p.position k rows.length next.position := by
  unfold CursorBase.all at small
  by_cases isAll : k ≥ CursorBase.all
  · have stride : stridestring k = .all := by simp only [stridestring, if_pos isAll]
    unfold CursorBase.all at isAll
    refine ⟨(p.forward _).1, (p.forward _).2, by rw [stride]; rfl, rfl, rfl, ?_⟩
    exact portal_forward_moves p k _ (by omega) (.inr (by omega))
  · by_cases isBack : k ≤ CursorBase.backwardAll
    · have stride : stridestring k = .backwardAll := by simp only [stridestring, if_neg isAll, if_pos isBack]
      unfold CursorBase.backwardAll at isBack
      refine ⟨(p.backward _).1, (p.backward _).2, by rw [stride, Portal.step, if_pos (legal (by omega))], rfl, rfl, ?_⟩
      exact portal_backward_moves p k _ (by omega) (.inr (by omega))
    · have stride : stridestring k = .count k := by simp only [stridestring, if_neg isAll, if_neg isBack]
      by_cases ahead : k > 0
      · refine ⟨(p.forward _).1, (p.forward _).2, by rw [stride, Portal.step, if_pos ahead], rfl, rfl, ?_⟩
        exact portal_forward_moves p k _ ahead (.inl rfl)
      · refine ⟨(p.backward k.natAbs).1, (p.backward k.natAbs).2, ?_, rfl, rfl, ?_⟩
        · rw [stride, Portal.step, if_neg ahead, if_neg nonzero, if_pos (legal (by omega))]
        · exact portal_backward_moves p k _ (by omega) (.inl rfl)

-- The rows a stride within all() gives, and where it leaves the backend's cursor.
theorem portal_step_ahead (p : Portal ρ) (k : Int) (ahead : 0 < k) (within : k < CursorBase.all ∨ (p.rows.length : Int) < CursorBase.all) :
    ∃ next, p.step (stridestring k) = .ok ((p.rows.drop p.position).take k.toNat, next) ∧ next.rows = p.rows ∧
      next.scroll = p.scroll ∧ next.position = min (p.position + k.toNat) (p.rows.length + 1) := by
  unfold CursorBase.all at within
  by_cases isAll : k ≥ CursorBase.all
  · have stride : stridestring k = .all := by simp only [stridestring, if_pos isAll]
    unfold CursorBase.all at isAll
    have rest : (p.rows.drop p.position).take (p.rows.length + 1) = (p.rows.drop p.position).take k.toNat := by
      rw [List.take_of_length_le (by rw [List.length_drop]; omega), List.take_of_length_le (by rw [List.length_drop]; omega)]
    refine ⟨(p.forward (p.rows.length + 1)).2, ?_, rfl, rfl, ?_⟩
    · rw [stride, Portal.step, ← rest]
      rfl
    · simp only [Portal.forward]
      omega
  · have notBack : ¬ k ≤ CursorBase.backwardAll := by
      unfold CursorBase.backwardAll
      omega
    have stride : stridestring k = .count k := by simp only [stridestring, if_neg isAll, if_neg notBack]
    have same : k.natAbs = k.toNat := by omega
    refine ⟨(p.forward k.natAbs).2, ?_, rfl, rfl, ?_⟩
    · rw [stride, Portal.step, if_pos ahead, same]
      rfl
    · rw [same]
      rfl

theorem portal_step_back (p : Portal ρ) (k : Int) (behind : k < 0) (within : CursorBase.backwardAll < k) (scroll : p.scroll = true) :
    ∃ next, p.step (stridestring k) = .ok ((p.rows.take (p.position - 1)).reverse.take k.natAbs, next) ∧ next.rows = p.rows ∧
      next.scroll = p.scroll ∧ next.position = p.position - k.natAbs := by
  have notAll : ¬ k ≥ CursorBase.all := by
    unfold CursorBase.all
    omega
  have stride : stridestring k = .count k := by simp only [stridestring, if_neg notAll, if_neg (Int.not_le.mpr within)]
  have notAhead : ¬ k > 0 := by omega
  have moving : ¬ k = 0 := by omega
  exact ⟨(p.backward k.natAbs).2, by rw [stride, Portal.step, if_neg notAhead, if_neg moving, if_pos scroll]; rfl, rfl, rfl, rfl⟩

theorem portal_step_refused (p : Portal ρ) (k : Int) (behind : k < 0) (fixed : p.scroll = false) :
    p.step (stridestring k) = .error { kind := .sqlError, what := "cursor can only scan forward" } := by
  have notAll : ¬ k ≥ CursorBase.all := by
    unfold CursorBase.all
    omega
  have still : ¬ k = 0 := by omega
  have notAhead : ¬ k > 0 := by omega
  have notScroll : ¬ p.scroll = true := by simp [fixed]
  by_cases isBack : k ≤ CursorBase.backwardAll
  · simp only [stridestring, if_neg notAll, if_pos isBack, Portal.step, if_neg notScroll]
  · simp only [stridestring, if_neg notAll, if_neg isBack, Portal.step, if_neg notAhead, if_neg still, if_neg notScroll]

-- The three ways through adjust() that return: the full distance, a short move
-- forward and a short move backward.
theorem adjust_full (s : CursorState ρ) (k : Int) (nonzero : k ≠ 0) :
    adjust k k.natAbs s = (.ok k, s.update fun c =>
      { c with atEnd := 0, pos := if c.pos ≥ 0 then c.pos + k else c.pos }) := by
  have direction : (if k < 0 then (-1 : Int) else 1) * (k.natAbs : Int) = k := by split_ifs <;> omega
  have counted : ¬ (k.natAbs : Int) < 0 := by omega
  simp only [adjust, if_neg counted, if_neg nonzero, ne_eq, not_true, if_false, advance, Prog.bind_apply, Prog.modify_apply,
    Prog.gets_apply, Prog.pure_apply, direction, CursorState.update, Bool.false_eq_true]
  split_ifs <;> rfl

theorem adjust_forward_short (s : CursorState ρ) (k : Int) (actual step : Nat) (ahead : 0 < k) (short : actual < k.natAbs)
    (stepped : step = if s.cur.atEnd = 1 then actual else actual + 1)
    (consistent : s.cur.endpos ≥ 0 → (if s.cur.pos ≥ 0 then s.cur.pos + step else s.cur.pos) = s.cur.endpos) :
    adjust k actual s = (.ok step, s.update fun c =>
      { c with atEnd := 1, pos := if c.pos ≥ 0 then c.pos + step else c.pos,
               endpos := if c.pos ≥ 0 then c.pos + step else c.pos }) := by
  have counted : ¬ (actual : Int) < 0 := by omega
  have nonzero : k ≠ 0 := by omega
  have shorter : (actual : Int) ≠ k.natAbs := by omega
  have within : ¬ (actual : Int) > k.natAbs := by omega
  have direction : (if k < 0 then (-1 : Int) else 1) = 1 := if_neg (by omega)
  have total : (if s.cur.atEnd ≠ 1 then (actual : Int) + 1 else actual) = step := by split_ifs at * <;> omega
  simp only [adjust, if_neg counted, if_neg nonzero, if_pos shorter, if_neg within, direction, hitLimit, advance,
    Prog.bind_apply, Prog.modify_apply, Prog.gets_apply, Prog.pure_apply, Prog.ite_apply, CursorState.update, total, Int.one_mul,
    show (1 : Int) > 0 by decide, if_true]
  by_cases known : s.cur.pos ≥ 0
  · simp only [if_pos known] at consistent ⊢
    rw [if_neg (fun bad => bad.2 (consistent bad.1))]
  · simp only [if_neg known] at consistent ⊢
    rw [if_neg (fun bad => bad.2 (consistent bad.1))]

theorem adjust_backward_short (s : CursorState ρ) (k : Int) (actual step : Nat) (behind : k < 0) (short : actual < k.natAbs)
    (stepped : step = if s.cur.atEnd = -1 then actual else actual + 1) (consistent : s.cur.pos = -1 ∨ s.cur.pos = step) :
    adjust k actual s = (.ok (-step), s.update fun c => { c with atEnd := -1, pos := 0 }) := by
  have counted : ¬ (actual : Int) < 0 := by omega
  have nonzero : k ≠ 0 := by omega
  have shorter : (actual : Int) ≠ k.natAbs := by omega
  have within : ¬ (actual : Int) > k.natAbs := by omega
  have direction : (if k < 0 then (-1 : Int) else 1) = -1 := if_pos behind
  have total : (if s.cur.atEnd ≠ -1 then (actual : Int) + 1 else actual) = step := by split_ifs at * <;> omega
  simp only [adjust, if_neg counted, if_neg nonzero, if_pos shorter, if_neg within, direction, hitLimit, advance,
    Prog.bind_apply, Prog.modify_apply, Prog.gets_apply, Prog.pure_apply, Prog.ite_apply, Prog.throw_apply, CursorState.update,
    total, show ¬ (-1 : Int) > 0 by decide, if_false, Bool.false_eq_true]
  have negated : (-1 : Int) * step = -step := by omega
  have cancelled : (step : Int) + -step = 0 := by omega
  have counts : (step : Int) ≥ 0 := by omega
  by_cases unknown : s.cur.pos = -1
  · simp only [if_pos unknown, if_pos counts, negated, cancelled]
  · have here : s.cur.pos = step := consistent.resolve_left unknown
    have known : ¬ (step : Int) = -1 := by omega
    simp only [here, if_neg known, ne_eq, not_true, if_false, if_pos counts, negated, cancelled]

inductive CursorOp where
  | move (rows : Int)
  | fetch (rows : Int)
deriving DecidableEq, Repr

def CursorOp.distance : CursorOp → Int
  | .move rows => rows
  | .fetch rows => rows

-- One call, of which only the displacement matters here.
def perform : CursorOp → Prog (CursorState ρ) Exn Int
  | .move rows => do
      let r ← move rows
      pure r.2
  | .fetch rows => do
      let r ← fetch rows
      pure r.2

def cursorStep (s : CursorState ρ) (op : CursorOp) : CursorState ρ := (perform op s).2

-- Where the backend stopped after a call that moved its cursor, or tried to.
def stopOf (s : CursorState ρ) (op : CursorOp) : List Nat :=
  if op.distance = 0 then []
  else match (perform op s).1 with
    | .ok _ => [(cursorStep s op).portal.position]
    | .error _ => []

def stops (s : CursorState ρ) : List CursorOp → List Nat
  | [] => []
  | op :: ops => stopOf s op ++ stops (cursorStep s op) ops

theorem perform_still (s : CursorState ρ) (op : CursorOp) (still : op.distance = 0) : perform op s = (.ok 0, s) := by
  cases op with
  | move rows =>
      subst still
      rfl
  | fetch rows =>
      subst still
      rfl

theorem perform_moving (s : CursorState ρ) (op : CursorOp) (rows : List ρ) (next : Portal ρ) (moving : op.distance ≠ 0)
    (answer : s.portal.step (stridestring op.distance) = .ok (rows, next)) :
    perform op s = adjust op.distance rows.length { s with portal := next } := by
  cases op with
  | move k =>
      simp only [CursorOp.distance] at moving answer ⊢
      simp only [perform, move, if_neg moving, command, Prog.bind_apply, Prog.gets_apply, answer, Prog.modify_apply,
        Prog.pure_apply]
      cases adjust k rows.length { s with portal := next } with
      | mk outcome after => cases outcome <;> rfl
  | fetch k =>
      simp only [CursorOp.distance] at moving answer ⊢
      simp only [perform, fetch, if_neg moving, command, Prog.bind_apply, Prog.gets_apply, answer, Prog.modify_apply,
        Prog.pure_apply]
      cases adjust k rows.length { s with portal := next } with
      | mk outcome after => cases outcome <;> rfl

theorem perform_refused (s : CursorState ρ) (op : CursorOp) (e : Exn) (moving : op.distance ≠ 0)
    (answer : s.portal.step (stridestring op.distance) = .error e) : perform op s = (.error e, s) := by
  cases op with
  | move k =>
      simp only [CursorOp.distance] at moving answer
      simp only [perform, move, if_neg moving, command, Prog.bind_apply, Prog.gets_apply, answer, Prog.throw_apply]
  | fetch k =>
      simp only [CursorOp.distance] at moving answer
      simp only [perform, fetch, if_neg moving, command, Prog.bind_apply, Prog.gets_apply, answer, Prog.throw_apply]

theorem move_answered (s : CursorState ρ) (k : Int) (moving : k ≠ 0) (rows : List ρ) (next : Portal ρ)
    (answer : s.portal.step (stridestring k) = .ok (rows, next)) (displacement : Int) (after : CursorState ρ)
    (adjusted : adjust k rows.length { s with portal := next } = (.ok displacement, after)) :
    move k s = (.ok ((rows.length : Int), displacement), after) := by
  simp only [move, if_neg moving, command, Prog.bind_apply, Prog.gets_apply, answer, Prog.modify_apply, Prog.pure_apply, adjusted]

theorem fetch_answered (s : CursorState ρ) (k : Int) (moving : k ≠ 0) (rows : List ρ) (next : Portal ρ)
    (answer : s.portal.step (stridestring k) = .ok (rows, next)) (displacement : Int) (after : CursorState ρ)
    (adjusted : adjust k rows.length { s with portal := next } = (.ok displacement, after)) :
    fetch k s = (.ok (rows, displacement), after) := by
  simp only [fetch, if_neg moving, command, Prog.bind_apply, Prog.gets_apply, answer, Prog.modify_apply, Prog.pure_apply, adjusted]

theorem cursor_step_still (s : CursorState ρ) (op : CursorOp) (still : op.distance = 0) :
    cursorStep s op = s ∧ stopOf s op = [] := by
  constructor
  · rw [cursorStep, perform_still s op still]
  · rw [stopOf, if_pos still]

theorem cursor_step_moved (s after : CursorState ρ) (op : CursorOp) (displacement : Int) (moving : op.distance ≠ 0)
    (performed : perform op s = (.ok displacement, after)) :
    cursorStep s op = after ∧ stopOf s op = [after.portal.position] := by
  constructor
  · rw [cursorStep, performed]
  · rw [stopOf, if_neg moving, cursorStep, performed]

theorem cursor_step_refused (s : CursorState ρ) (op : CursorOp) (behind : op.distance < 0) (fixed : s.portal.scroll = false) :
    cursorStep s op = s ∧ stopOf s op = [] := by
  have moving : op.distance ≠ 0 := by omega
  have performed := perform_refused s op _ moving (portal_step_refused s.portal op.distance behind fixed)
  constructor
  · rw [cursorStep, performed]
  · rw [stopOf, if_neg moving, performed]

-- A cursor whose own numbers agree with the backend's. m_at_end tells exactly the two
-- one-past-end positions, which is what adjust() infers the extra step from.
structure Located (s : CursorState ρ) : Prop where
  pos : s.cur.pos = s.portal.position
  first : s.cur.atEnd = -1 ↔ s.portal.position = 0
  last : s.cur.atEnd = 1 ↔ s.portal.position = s.portal.rows.length + 1
  endpos : s.cur.endpos = -1 ∨ s.cur.endpos = s.portal.rows.length + 1

structure Lost (s : CursorState ρ) : Prop where
  pos : s.cur.pos = -1
  endpos : s.cur.endpos = -1

theorem located_adjust (s : CursorState ρ) (next : Portal ρ) (k : Int) (count : Nat) (nonzero : k ≠ 0) (located : Located s)
    (moves : Moves s.portal.rows.length s.portal.position k count next.position) (same : next.rows = s.portal.rows) :
    ∃ after, adjust k count { s with portal := next } = (.ok ((next.position : Int) - s.portal.position), after) ∧
      after.portal = next ∧ Located after ∧
      after.cur.endpos = if next.position = s.portal.rows.length + 1 then (s.portal.rows.length : Int) + 1 else s.cur.endpos := by
  obtain ⟨pos, first, last, endpos⟩ := located
  have bounded := s.portal.bounded
  have counted : s.cur.pos ≥ 0 := by omega
  by_cases full : count = k.natAbs
  · subst full
    have inside : next.position ≠ 0 ∧ next.position ≠ s.portal.rows.length + 1 ∧
        (next.position : Int) - s.portal.position = k := by
      rcases Int.lt_or_gt_of_ne nonzero with behind | ahead
      · obtain ⟨landed, passed⟩ := moves.backward behind
        omega
      · obtain ⟨landed, passed⟩ := moves.forward ahead
        omega
    obtain ⟨awayFromFirst, awayFromLast, displacement⟩ := inside
    refine ⟨_, by rw [adjust_full _ _ nonzero, displacement], rfl, ?_, ?_⟩
    · refine ⟨?_, ?_, ?_, ?_⟩
      · simp only [CursorState.update, if_pos counted]
        omega
      · simp only [CursorState.update]
        omega
      · simp only [CursorState.update, same]
        omega
      · simp only [CursorState.update, same]
        exact endpos
    · simp only [CursorState.update, if_neg awayFromLast]
  · rcases Int.lt_or_gt_of_ne nonzero with behind | ahead
    · obtain ⟨landed, passed⟩ := moves.backward behind
      have short : count < k.natAbs := by omega
      have arrived : next.position = 0 := by omega
      have step : s.portal.position = if s.cur.atEnd = -1 then count else count + 1 := by split_ifs <;> omega
      have displacement : -(s.portal.position : Int) = (next.position : Int) - s.portal.position := by omega
      have adjusted := adjust_backward_short { s with portal := next } k count _ behind short step (.inr pos)
      rw [displacement] at adjusted
      refine ⟨_, adjusted, rfl, ?_, ?_⟩
      · refine ⟨?_, ?_, ?_, ?_⟩
        · simp only [CursorState.update, arrived]
          rfl
        · simp only [CursorState.update, arrived]
        · simp only [CursorState.update, arrived]
          omega
        · simp only [CursorState.update, same]
          exact endpos
      · simp only [CursorState.update, arrived]
        rw [if_neg (by omega)]
    · obtain ⟨landed, passed⟩ := moves.forward ahead
      have short : count < k.natAbs := by omega
      have arrived : next.position = s.portal.rows.length + 1 := by omega
      have step : s.portal.rows.length + 1 - s.portal.position = if s.cur.atEnd = 1 then count else count + 1 := by
        split_ifs <;> omega
      have total : s.cur.pos + ((s.portal.rows.length + 1 - s.portal.position : Nat) : Int) = s.portal.rows.length + 1 := by omega
      have consistent : s.cur.endpos ≥ 0 →
          (if s.cur.pos ≥ 0 then s.cur.pos + ((s.portal.rows.length + 1 - s.portal.position : Nat) : Int) else s.cur.pos) =
            s.cur.endpos := by
        intro found
        rw [if_pos counted]
        omega
      have displacement : ((s.portal.rows.length + 1 - s.portal.position : Nat) : Int) =
          (next.position : Int) - s.portal.position := by omega
      have adjusted := adjust_forward_short { s with portal := next } k count _ ahead short step consistent
      rw [displacement] at adjusted
      refine ⟨_, adjusted, rfl, ?_, ?_⟩
      · refine ⟨?_, ?_, ?_, ?_⟩
        · simp only [CursorState.update, if_pos counted]
          omega
        · simp only [CursorState.update]
          omega
        · exact iff_of_true rfl (arrived.trans (by rw [← same]; rfl))
        · simp only [CursorState.update, if_pos counted, same]
          omega
      · simp only [CursorState.update, if_pos counted, if_pos arrived]
        omega

theorem lost_adjust (s : CursorState ρ) (next : Portal ρ) (k : Int) (count : Nat) (nonzero : k ≠ 0) (lost : Lost s)
    (moves : Moves s.portal.rows.length s.portal.position k count next.position) :
    ∃ displacement after, adjust k count { s with portal := next } = (.ok displacement, after) ∧
      after.portal = next ∧ (next.position = 0 → Located after) ∧ (next.position ≠ 0 → Lost after) := by
  obtain ⟨pos, endpos⟩ := lost
  have bounded := s.portal.bounded
  have unknown : ¬ s.cur.pos ≥ 0 := by omega
  by_cases full : count = k.natAbs
  · subst full
    have inside : next.position ≠ 0 := by
      rcases Int.lt_or_gt_of_ne nonzero with behind | ahead
      · obtain ⟨landed, passed⟩ := moves.backward behind
        omega
      · obtain ⟨landed, passed⟩ := moves.forward ahead
        omega
    refine ⟨_, _, adjust_full _ _ nonzero, rfl, fun arrived => absurd arrived inside, fun _ => ⟨?_, ?_⟩⟩
    · simp only [CursorState.update, if_neg unknown]
      exact pos
    · simp only [CursorState.update]
      exact endpos
  · rcases Int.lt_or_gt_of_ne nonzero with behind | ahead
    · obtain ⟨landed, passed⟩ := moves.backward behind
      have short : count < k.natAbs := by omega
      have arrived : next.position = 0 := by omega
      refine ⟨_, _, adjust_backward_short { s with portal := next } k count _ behind short rfl (.inl pos), rfl,
        fun _ => ⟨?_, ?_, ?_, ?_⟩, fun away => absurd arrived away⟩
      · simp only [CursorState.update, arrived]
        rfl
      · simp only [CursorState.update, arrived]
      · simp only [CursorState.update, arrived]
        omega
      · simp only [CursorState.update]
        exact .inl endpos
    · obtain ⟨landed, passed⟩ := moves.forward ahead
      have short : count < k.natAbs := by omega
      have away : next.position ≠ 0 := by omega
      have consistent : s.cur.endpos ≥ 0 →
          (if s.cur.pos ≥ 0 then s.cur.pos + ((if s.cur.atEnd = 1 then count else count + 1 : Nat) : Int) else s.cur.pos) =
            s.cur.endpos := by
        intro found
        omega
      refine ⟨_, _, adjust_forward_short { s with portal := next } k count _ ahead short rfl consistent, rfl,
        fun arrived => absurd arrived away, fun _ => ⟨?_, ?_⟩⟩
      · simp only [CursorState.update, if_neg unknown]
        exact pos
      · simp only [CursorState.update, if_neg unknown]
        exact pos

-- A call leaves the cursor alone, or moves it as the backend moved.
theorem cursor_step_located (s : CursorState ρ) (op : CursorOp) (small : (s.portal.rows.length : Int) < CursorBase.all)
    (located : Located s) :
    Located (cursorStep s op) ∧ (cursorStep s op).portal.rows = s.portal.rows ∧
      (cursorStep s op).portal.scroll = s.portal.scroll ∧
      (cursorStep s op).cur.endpos = (if s.portal.rows.length + 1 ∈ stopOf s op then (s.portal.rows.length : Int) + 1
        else s.cur.endpos) ∧
      ((op.distance < 0 → s.portal.scroll = true) →
        (perform op s).1 = .ok (((cursorStep s op).portal.position : Int) - s.portal.position)) := by
  by_cases still : op.distance = 0
  · obtain ⟨after, stopped⟩ := cursor_step_still s op still
    rw [after, stopped, perform_still s op still, if_neg List.not_mem_nil, Int.sub_self]
    exact ⟨located, rfl, rfl, rfl, fun _ => rfl⟩
  · by_cases legal : op.distance < 0 → s.portal.scroll = true
    · obtain ⟨rows, next, answer, same, scroll, moves⟩ := portal_step_moves s.portal op.distance still small legal
      obtain ⟨last, adjusted, landed, locatedAfter, endpos⟩ := located_adjust s next op.distance rows.length still located moves same
      have performed := (perform_moving s op rows next still answer).trans adjusted
      obtain ⟨after, stopped⟩ := cursor_step_moved s last op _ still performed
      rw [after, stopped, performed, landed]
      refine ⟨locatedAfter, same, scroll, ?_, fun _ => rfl⟩
      rw [endpos]
      simp only [List.mem_singleton, eq_comm]
    · obtain ⟨behind, fixed⟩ := Classical.not_imp.mp legal
      obtain ⟨after, stopped⟩ := cursor_step_refused s op behind (Bool.eq_false_iff.mpr fixed)
      rw [after, stopped, if_neg List.not_mem_nil]
      exact ⟨located, rfl, rfl, rfl, fun allowed => absurd allowed legal⟩

theorem cursor_step_lost (s : CursorState ρ) (op : CursorOp) (small : (s.portal.rows.length : Int) < CursorBase.all)
    (lost : Lost s) :
    (0 ∈ stopOf s op → Located (cursorStep s op)) ∧ (0 ∉ stopOf s op → Lost (cursorStep s op)) ∧
      (cursorStep s op).portal.rows = s.portal.rows := by
  by_cases still : op.distance = 0
  · obtain ⟨after, stopped⟩ := cursor_step_still s op still
    rw [after, stopped]
    exact ⟨fun hit => absurd hit List.not_mem_nil, fun _ => lost, rfl⟩
  · by_cases legal : op.distance < 0 → s.portal.scroll = true
    · obtain ⟨rows, next, answer, same, scroll, moves⟩ := portal_step_moves s.portal op.distance still small legal
      obtain ⟨displacement, last, adjusted, landed, hit, missed⟩ := lost_adjust s next op.distance rows.length still lost moves
      have performed := (perform_moving s op rows next still answer).trans adjusted
      obtain ⟨after, stopped⟩ := cursor_step_moved s last op _ still performed
      rw [after, stopped, landed, List.mem_singleton]
      exact ⟨fun here => hit here.symm, fun away => missed (fun here => away here.symm), same⟩
    · obtain ⟨behind, fixed⟩ := Classical.not_imp.mp legal
      obtain ⟨after, stopped⟩ := cursor_step_refused s op behind (Bool.eq_false_iff.mpr fixed)
      rw [after, stopped]
      exact ⟨fun hit => absurd hit List.not_mem_nil, fun _ => lost, rfl⟩

theorem located_run (s : CursorState ρ) (ops : List CursorOp) (small : (s.portal.rows.length : Int) < CursorBase.all)
    (located : Located s) :
    Located (run cursorStep s ops) ∧ (run cursorStep s ops).portal.rows = s.portal.rows ∧
      (run cursorStep s ops).portal.scroll = s.portal.scroll ∧
      (run cursorStep s ops).cur.endpos = (if s.portal.rows.length + 1 ∈ stops s ops then (s.portal.rows.length : Int) + 1
        else s.cur.endpos) := by
  induction ops generalizing s with
  | nil => exact ⟨located, rfl, rfl, by simp only [run_nil, stops, List.not_mem_nil, if_false]⟩
  | cons op ops ih =>
      obtain ⟨locatedNext, same, scroll, endpos, _⟩ := cursor_step_located s op small located
      obtain ⟨locatedAfter, sameAfter, scrollAfter, endposAfter⟩ := ih (cursorStep s op) (by rw [same]; exact small) locatedNext
      refine ⟨locatedAfter, sameAfter.trans same, scrollAfter.trans scroll, ?_⟩
      rw [run_cons, endposAfter, same, endpos]
      simp only [stops, List.mem_append]
      by_cases later : s.portal.rows.length + 1 ∈ stops (cursorStep s op) ops
      · rw [if_pos later, if_pos (.inr later)]
      · simp only [if_neg later, or_iff_left later]

theorem lost_run (s : CursorState ρ) (ops : List CursorOp) (small : (s.portal.rows.length : Int) < CursorBase.all)
    (lost : Lost s) :
    (0 ∈ stops s ops → Located (run cursorStep s ops)) ∧ (0 ∉ stops s ops → Lost (run cursorStep s ops)) := by
  induction ops generalizing s with
  | nil => exact ⟨fun hit => absurd hit List.not_mem_nil, fun _ => lost⟩
  | cons op ops ih =>
      obtain ⟨hit, missed, same⟩ := cursor_step_lost s op small lost
      have smallNext : ((cursorStep s op).portal.rows.length : Int) < CursorBase.all := by rw [same]; exact small
      simp only [stops, List.mem_append, run_cons]
      by_cases here : 0 ∈ stopOf s op
      · obtain ⟨locatedAfter, _⟩ := located_run (cursorStep s op) ops smallNext (hit here)
        exact ⟨fun _ => locatedAfter, fun never => absurd (.inl here) never⟩
      · obtain ⟨hitLater, missedLater⟩ := ih (cursorStep s op) smallNext (missed here)
        exact ⟨fun found => hitLater (found.resolve_left here), fun never => missedLater (fun later => never (.inr later))⟩

-- pos(), endpos() and the displacement of every call, after any run of calls; next is
-- the call that follows. A query constructor starts on the backend's position 0, an
-- adopting one knows nothing until a move has stopped at 0.
theorem sql_cursor_position (rows : List ρ) (name : String) (ap : AccessPolicy) (op : OwnershipPolicy) (portal : Portal ρ)
    (ops : List CursorOp) (next : CursorOp) (small : (rows.length : Int) < CursorBase.all)
    (adoptedSmall : (portal.rows.length : Int) < CursorBase.all) (legal : next.distance < 0 → ap = .randomAccess) :
    (let s := run cursorStep (sqlCursor rows name ap op) ops
     s.cur.pos = s.portal.position ∧
      s.cur.endpos = (if rows.length + 1 ∈ stops (sqlCursor rows name ap op) ops then (rows.length : Int) + 1 else -1) ∧
      (perform next s).1 = .ok (((cursorStep s next).portal.position : Int) - s.portal.position)) ∧
    (let s := run cursorStep (adoptCursor portal name op) ops
     s.cur.pos = if 0 ∈ stops (adoptCursor portal name op) ops then (s.portal.position : Int) else -1) := by
  constructor
  · have located : Located (sqlCursor rows name ap op) := by
      refine ⟨rfl, by simp [sqlCursor, declarePortal], ?_, .inl rfl⟩
      simp [sqlCursor, declarePortal]
    obtain ⟨locatedAfter, same, scroll, endpos⟩ := located_run (sqlCursor rows name ap op) ops small located
    refine ⟨locatedAfter.pos, endpos, ?_⟩
    obtain ⟨_, _, _, _, displacement⟩ := cursor_step_located (run cursorStep (sqlCursor rows name ap op) ops) next
      (by rw [same]; exact small) locatedAfter
    refine displacement (fun behind => ?_)
    rw [scroll]
    simp only [sqlCursor, declarePortal, legal behind, decide_true]
  · obtain ⟨hit, missed⟩ := lost_run (adoptCursor portal name op) ops adoptedSmall ⟨rfl, rfl⟩
    simp only
    split_ifs with found
    · exact (hit found).pos
    · exact (missed found).pos

theorem sql_cursor_position_bounces :
    (run cursorStep (sqlCursor [10, 20, 30] "c" .randomAccess .owned) [.move 5, .fetch 1, .move (-9)]).cur.pos = 0 :=
  ((sql_cursor_position [10, 20, 30] "c" .randomAccess .owned (declarePortal [10] .randomAccess) [.move 5, .fetch 1, .move (-9)]
    (.fetch (-1)) (by decide) (by decide) (fun _ => rfl)).1.1).trans (by decide)

end Pqxx
