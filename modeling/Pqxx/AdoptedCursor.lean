import Pqxx.SqlCursorPosition

set_option autoImplicit false

namespace Pqxx

open Lib

variable {ρ : Type}

-- What m_at_end says is true. It may know less than there is to know, as after adoption.
structure Honest (s : CursorState ρ) : Prop where
  first : s.cur.atEnd = -1 → s.portal.position = 0
  last : s.cur.atEnd = 1 → s.portal.position = s.portal.rows.length + 1

-- m_at_end knows of the end that a move of this distance is up against.
structure Aware (s : CursorState ρ) (k : Int) : Prop where
  first : k < 0 → s.portal.position = 0 → s.cur.atEnd = -1
  last : 0 < k → s.portal.position = s.portal.rows.length + 1 → s.cur.atEnd = 1

structure Oriented (s : CursorState ρ) : Prop where
  honest : Honest s
  aware : ∀ k, Aware s k

theorem oriented_inside (s : CursorState ρ) (middle : s.cur.atEnd = 0) (awayFromFirst : s.portal.position ≠ 0)
    (awayFromLast : s.portal.position ≠ s.portal.rows.length + 1) : Oriented s := by
  constructor
  · exact ⟨fun first => by omega, fun last => by omega⟩
  · exact fun k => ⟨fun _ here => absurd here awayFromFirst, fun _ here => absurd here awayFromLast⟩

theorem oriented_first (s : CursorState ρ) (first : s.cur.atEnd = -1) (here : s.portal.position = 0) : Oriented s := by
  constructor
  · exact ⟨fun _ => here, fun last => by omega⟩
  · exact fun k => ⟨fun _ _ => first, fun _ there => by omega⟩

theorem oriented_last (s : CursorState ρ) (last : s.cur.atEnd = 1) (here : s.portal.position = s.portal.rows.length + 1) : Oriented s := by
  constructor
  · exact ⟨fun first => by omega, fun _ => here⟩
  · exact fun k => ⟨fun _ there => by omega, fun _ _ => last⟩

theorem full_displacement (s : CursorState ρ) (next : Portal ρ) (k : Int) (nonzero : k ≠ 0)
    (moves : Moves s.portal.rows.length s.portal.position k k.natAbs next.position) (same : next.rows = s.portal.rows) :
    (next.position : Int) - s.portal.position = k ∧ Aware s k ∧
      ∃ after, adjust k k.natAbs { s with portal := next } = (.ok k, after) ∧ after.portal = next ∧ Oriented after := by
  have bounded := s.portal.bounded
  have apart : (next.position : Int) - s.portal.position = k ∧ next.position ≠ 0 ∧ next.position ≠ s.portal.rows.length + 1 ∧
      (k < 0 → s.portal.position ≠ 0) ∧ (0 < k → s.portal.position ≠ s.portal.rows.length + 1) := by
    rcases Int.lt_or_gt_of_ne nonzero with behind | ahead
    · obtain ⟨landed, passed⟩ := moves.backward behind
      omega
    · obtain ⟨landed, passed⟩ := moves.forward ahead
      omega
  obtain ⟨displacement, awayFromFirst, awayFromLast, inside, insideLast⟩ := apart
  rw [← same] at awayFromLast
  exact ⟨displacement, ⟨fun behind here => absurd here (inside behind), fun ahead here => absurd here (insideLast ahead)⟩,
    _, adjust_full _ _ nonzero, rfl, oriented_inside _ rfl awayFromFirst awayFromLast⟩

theorem backward_short_displacement (s : CursorState ρ) (next : Portal ρ) (k : Int) (count : Nat) (behind : k < 0)
    (short : count < k.natAbs) (lost : Lost s) (honest : Honest s)
    (moves : Moves s.portal.rows.length s.portal.position k count next.position) :
    ∃ displacement after, adjust k count { s with portal := next } = (.ok displacement, after) ∧ after.portal = next ∧ Oriented after ∧
      (displacement = (next.position : Int) - s.portal.position ↔ Aware s k) := by
  obtain ⟨landed, passed⟩ := moves.backward behind
  have arrived : next.position = 0 := by omega
  have adjusted := adjust_backward_short { s with portal := next } k count _ behind short rfl (.inl lost.pos)
  refine ⟨_, _, adjusted, rfl, oriented_first _ rfl arrived, ?_⟩
  simp only
  by_cases known : s.cur.atEnd = -1
  · have here := honest.first known
    rw [if_pos known]
    exact iff_of_true (by omega) ⟨fun _ _ => known, fun ahead => absurd ahead (by omega)⟩
  · rw [if_neg known]
    constructor
    · intro displaced
      exact ⟨fun _ here => by omega, fun ahead => absurd ahead (by omega)⟩
    · intro aware
      have away : s.portal.position ≠ 0 := fun here => known (aware.first behind here)
      omega

theorem forward_short_displacement (s : CursorState ρ) (next : Portal ρ) (k : Int) (count : Nat) (ahead : 0 < k)
    (short : count < k.natAbs) (lost : Lost s) (honest : Honest s)
    (moves : Moves s.portal.rows.length s.portal.position k count next.position) (same : next.rows = s.portal.rows) :
    ∃ displacement after, adjust k count { s with portal := next } = (.ok displacement, after) ∧ after.portal = next ∧ Oriented after ∧
      (displacement = (next.position : Int) - s.portal.position ↔ Aware s k) := by
  obtain ⟨landed, passed⟩ := moves.forward ahead
  have bounded := s.portal.bounded
  have arrived : next.position = s.portal.rows.length + 1 := by omega
  have unknown := lost.pos
  have endless := lost.endpos
  have adjusted := adjust_forward_short { s with portal := next } k count _ ahead short rfl (fun found => by simp only at found; omega)
  refine ⟨_, _, adjusted, rfl, oriented_last _ rfl (by rw [← same] at arrived; exact arrived), ?_⟩
  simp only
  by_cases known : s.cur.atEnd = 1
  · have here := honest.last known
    rw [if_pos known]
    exact iff_of_true (by omega) ⟨fun behind => absurd behind (by omega), fun _ _ => known⟩
  · rw [if_neg known]
    constructor
    · intro displaced
      exact ⟨fun behind => absurd behind (by omega), fun _ here => by omega⟩
    · intro aware
      have away : s.portal.position ≠ s.portal.rows.length + 1 := fun here => known (aware.last ahead here)
      omega

-- What adjust() reports is the change of position exactly where m_at_end is aware of the
-- end that the move is up against. After the move it knows of either end.
theorem lost_displacement (s : CursorState ρ) (next : Portal ρ) (k : Int) (count : Nat) (nonzero : k ≠ 0) (lost : Lost s) (honest : Honest s)
    (moves : Moves s.portal.rows.length s.portal.position k count next.position) (same : next.rows = s.portal.rows) :
    ∃ displacement after, adjust k count { s with portal := next } = (.ok displacement, after) ∧ after.portal = next ∧ Oriented after ∧
      (displacement = (next.position : Int) - s.portal.position ↔ Aware s k) := by
  by_cases full : count = k.natAbs
  · subst full
    obtain ⟨displacement, aware, after, adjusted, landed, oriented⟩ := full_displacement s next k nonzero moves same
    exact ⟨k, after, adjusted, landed, oriented, iff_of_true displacement.symm aware⟩
  · rcases Int.lt_or_gt_of_ne nonzero with behind | ahead
    · obtain ⟨landed, passed⟩ := moves.backward behind
      exact backward_short_displacement s next k count behind (by omega) lost honest moves
    · obtain ⟨landed, passed⟩ := moves.forward ahead
      exact forward_short_displacement s next k count ahead (by omega) lost honest moves same

-- The displacement that a call reports is the change of the position. In particular it does
-- not end in an exception.
def Displaces (s : CursorState ρ) (op : CursorOp) : Prop :=
  (perform op s).1 = .ok (((cursorStep s op).portal.position : Int) - s.portal.position)

-- What holds between two calls, from the first on that moved.
structure Tracked (s : CursorState ρ) : Prop where
  small : (s.portal.rows.length : Int) < CursorBase.all
  scroll : s.portal.scroll = true
  oriented : Located s ∨ Lost s ∧ Oriented s

theorem located_or_lost_step (s : CursorState ρ) (op : CursorOp) (small : (s.portal.rows.length : Int) < CursorBase.all) (lost : Lost s) :
    Located (cursorStep s op) ∨ Lost (cursorStep s op) := by
  obtain ⟨hit, missed, -⟩ := cursor_step_lost s op small lost
  by_cases here : 0 ∈ stopOf s op
  · exact .inl (hit here)
  · exact .inr (missed here)

theorem lost_moves (s : CursorState ρ) (op : CursorOp) (moving : op.distance ≠ 0) (small : (s.portal.rows.length : Int) < CursorBase.all)
    (scroll : s.portal.scroll = true) (lost : Lost s) (honest : Honest s) :
    Tracked (cursorStep s op) ∧ (∃ displacement, (perform op s).1 = .ok displacement) ∧ (Displaces s op ↔ Aware s op.distance) := by
  obtain ⟨rows, next, answer, same, kept, moves⟩ := portal_step_moves s.portal op.distance moving small fun _ => scroll
  obtain ⟨displacement, after, adjusted, landed, oriented, correct⟩ :=
    lost_displacement s next op.distance rows.length moving lost honest moves same
  have performed := (perform_moving s op rows next moving answer).trans adjusted
  have stepped := (cursor_step_moved s after op displacement moving performed).1
  have known := located_or_lost_step s op small lost
  rw [stepped] at known
  rw [Displaces, stepped, performed, landed, ← correct]
  refine ⟨⟨by rw [landed, same]; exact small, by rw [landed, kept]; exact scroll, ?_⟩, ⟨displacement, rfl⟩, ?_⟩
  · exact known.imp_right fun still => ⟨still, oriented⟩
  · exact ⟨fun reported => Except.ok.inj reported, fun reported => congrArg Except.ok reported⟩

theorem still_displaces (s : CursorState ρ) (op : CursorOp) (still : op.distance = 0) : Displaces s op := by
  rw [Displaces, (cursor_step_still s op still).1, perform_still s op still, Int.sub_self]

theorem tracked_step (s : CursorState ρ) (op : CursorOp) (tracked : Tracked s) : Tracked (cursorStep s op) ∧ Displaces s op := by
  by_cases still : op.distance = 0
  · rw [(cursor_step_still s op still).1]
    exact ⟨tracked, still_displaces s op still⟩
  · rcases tracked.oriented with located | ⟨lost, oriented⟩
    · obtain ⟨locatedAfter, same, kept, -, displaces⟩ := cursor_step_located s op tracked.small located
      exact ⟨⟨by rw [same]; exact tracked.small, by rw [kept]; exact tracked.scroll, .inl locatedAfter⟩,
        displaces fun _ => tracked.scroll⟩
    · obtain ⟨after, -, correct⟩ := lost_moves s op still tracked.small tracked.scroll lost oriented.honest
      exact ⟨after, correct.mpr (oriented.aware op.distance)⟩

theorem tracked_run (s : CursorState ρ) (ops : List CursorOp) (tracked : Tracked s) : Along Displaces cursorStep s ops :=
  along_invariant (fun _ _ => True) Displaces cursorStep Tracked (fun s op _ tracked => tracked_step s op tracked) s ops
    (along_of_mem _ cursorStep s ops fun _ _ _ => trivial) tracked

-- The first call that moves does not run against the end that the cursor is at.
def Inward (portal : Portal ρ) : List CursorOp → Prop
  | [] => True
  | op :: ops =>
      if op.distance = 0 then Inward portal ops
      else ¬ (op.distance < 0 ∧ portal.position = 0) ∧ ¬ (0 < op.distance ∧ portal.position = portal.rows.length + 1)

theorem adopted_at_end (portal : Portal ρ) (name : String) (policy : OwnershipPolicy) : (adoptCursor portal name policy).cur.atEnd = 0 := rfl

theorem adopted_honest (portal : Portal ρ) (name : String) (policy : OwnershipPolicy) : Honest (adoptCursor portal name policy) := by
  have middle := adopted_at_end portal name policy
  exact ⟨fun first => by omega, fun last => by omega⟩

theorem adopted_aware (portal : Portal ρ) (name : String) (policy : OwnershipPolicy) (k : Int) :
    Aware (adoptCursor portal name policy) k ↔
      ¬ (k < 0 ∧ portal.position = 0) ∧ ¬ (0 < k ∧ portal.position = portal.rows.length + 1) := by
  have middle := adopted_at_end portal name policy
  constructor
  · intro aware
    constructor
    · rintro ⟨behind, here⟩
      have first := aware.first behind here
      omega
    · rintro ⟨ahead, here⟩
      have last := aware.last ahead here
      omega
  · rintro ⟨first, last⟩
    exact ⟨fun behind here => absurd ⟨behind, here⟩ first, fun ahead here => absurd ⟨ahead, here⟩ last⟩

-- No call ends in an exception, not even one that runs against an end.
theorem adopted_reports (portal : Portal ρ) (name : String) (policy : OwnershipPolicy) (ops : List CursorOp)
    (scroll : portal.scroll = true) (small : (portal.rows.length : Int) < CursorBase.all) :
    Along (fun s op => ∃ displacement, (perform op s).1 = .ok displacement) cursorStep (adoptCursor portal name policy) ops := by
  induction ops with
  | nil => trivial
  | cons op ops ih =>
      rw [Along]
      by_cases still : op.distance = 0
      · rw [perform_still _ op still, (cursor_step_still _ op still).1]
        exact ⟨⟨0, rfl⟩, ih⟩
      · obtain ⟨after, reported, -⟩ := lost_moves (adoptCursor portal name policy) op still small scroll ⟨rfl, rfl⟩
          (adopted_honest portal name policy)
        exact ⟨reported, along_invariant (fun _ _ => True) _ cursorStep Tracked
          (fun s op _ tracked => ⟨(tracked_step s op tracked).1, _, (tracked_step s op tracked).2⟩) _ ops
          (along_of_mem _ cursorStep _ ops fun _ _ _ => trivial) after⟩

theorem adopted_displacement (portal : Portal ρ) (name : String) (policy : OwnershipPolicy) (ops : List CursorOp)
    (scroll : portal.scroll = true) (small : (portal.rows.length : Int) < CursorBase.all) :
    Along Displaces cursorStep (adoptCursor portal name policy) ops ↔ Inward portal ops := by
  induction ops with
  | nil => exact Iff.rfl
  | cons op ops ih =>
      rw [Along, Inward]
      by_cases still : op.distance = 0
      · rw [if_pos still, (cursor_step_still _ op still).1, ih]
        exact and_iff_right (still_displaces _ op still)
      · obtain ⟨after, -, correct⟩ := lost_moves (adoptCursor portal name policy) op still small scroll ⟨rfl, rfl⟩
          (adopted_honest portal name policy)
        rw [if_neg still, ← adopted_aware portal name policy, ← correct]
        exact and_iff_left (tracked_run _ ops after)

theorem adopted_displacement_bounces :
    Along Displaces cursorStep (adoptCursor (declarePortal [10, 20, 30] .randomAccess) "adopted" .owned)
        [.move 0, .fetch CursorBase.all, .fetch CursorBase.backwardAll, .move 5] ↔
      Inward (declarePortal [10, 20, 30] .randomAccess) [.move 0, .fetch CursorBase.all, .fetch CursorBase.backwardAll, .move 5] :=
  adopted_displacement _ _ _ _ rfl (by decide)

-- An adopted cursor in front of its first row moves backward: that is nowhere, but it
-- reports one step.
theorem adopted_displacement_fails :
    ¬ ∀ (portal : Portal Nat) (name : String) (policy : OwnershipPolicy) (ops : List CursorOp), portal.scroll = true →
      (portal.rows.length : Int) < CursorBase.all → Along Displaces cursorStep (adoptCursor portal name policy) ops := by
  intro all
  have inward := (adopted_displacement _ _ _ _ rfl (by decide)).mp
    (all (declarePortal [10, 20, 30] .randomAccess) "adopted" .owned [.move (-1)] rfl (by decide))
  exact inward.1 ⟨by decide, rfl⟩

end Pqxx
