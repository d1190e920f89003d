import Mathlib.Data.List.Basic

set_option autoImplicit false

namespace Lib

variable {α : Type}

-- Something read front to back in portions of stride elements. It is ended once a portion came
-- back empty or less could be skipped than was asked for.
structure Reader (α : Type) where
  left : List α
  stride : Nat
  ended : Bool
  positive : 0 < stride
  spent : ended = true → left = []

namespace Reader

def on (left : List α) (stride : Nat) (positive : 0 < stride) : Reader α :=
  { left, stride, ended := false, positive, spent := fun ended => absurd ended Bool.false_ne_true }

def portion (r : Reader α) : List α := r.left.take r.stride

theorem portion_empty (r : Reader α) : r.portion.isEmpty = r.left.isEmpty := by
  have positive := r.positive
  have asked : r.stride ≠ 0 := by omega
  rw [Bool.eq_iff_iff, List.isEmpty_iff, List.isEmpty_iff, portion, List.take_eq_nil_iff, or_iff_right asked]

def take (r : Reader α) : Reader α where
  left := r.left.drop r.stride
  stride := r.stride
  ended := r.ended || r.portion.isEmpty
  positive := r.positive
  spent := by
    intro ended
    rw [portion_empty, Bool.or_eq_true, List.isEmpty_iff] at ended
    rw [ended.elim r.spent id, List.drop_nil]

def skip (r : Reader α) (n : Nat) : Reader α where
  left := r.left.drop n
  stride := r.stride
  ended := r.ended || decide (r.left.length < n)
  positive := r.positive
  spent := by
    intro ended
    rw [Bool.or_eq_true, decide_eq_true_eq] at ended
    cases ended with
    | inl before => rw [r.spent before, List.drop_nil]
    | inr short => exact List.drop_of_length_le (Nat.le_of_lt short)

def pace (r : Reader α) (stride : Nat) (positive : 0 < stride) : Reader α := { r with stride, positive }

theorem take_shorter (r : Reader α) (some_ : r.left ≠ []) : r.take.left.length < r.left.length := by
  have length := List.length_pos_iff.mpr some_
  have positive := r.positive
  show (r.left.drop r.stride).length < r.left.length
  rw [List.length_drop]
  omega

-- What reading on until a portion comes back empty gives.
def portions (r : Reader α) : List (List α) := if r.left ≠ [] then r.portion :: r.take.portions else []
termination_by r.left.length
decreasing_by exact r.take_shorter ‹_›

theorem portions_some (r : Reader α) (some_ : r.left ≠ []) : r.portions = r.portion :: r.take.portions := by
  rw [portions, if_pos some_]

theorem portions_none (r : Reader α) (none_ : r.left = []) : r.portions = [] := by
  rw [portions, if_neg (not_not.mpr none_)]

theorem portions_flatten (r : Reader α) : r.portions.flatten = r.left := by
  induction r using portions.induct with
  | case1 r some_ ih =>
      rw [portions_some r some_, List.flatten_cons, ih]
      exact List.take_append_drop r.stride r.left
  | case2 r none_ => rw [portions_none r (not_not.mp none_), not_not.mp none_, List.flatten_nil]

theorem portions_nonempty (r : Reader α) : ∀ p ∈ r.portions, p ≠ [] := by
  induction r using portions.induct with
  | case1 r some_ ih =>
      rw [portions_some r some_]
      intro p there
      cases there with
      | head => simpa [portion_empty] using (List.isEmpty_eq_false_iff.mp (r.portion_empty.trans (List.isEmpty_eq_false_iff.mpr some_)))
      | tail _ later => exact ih p later
  | case2 r none_ =>
      rw [portions_none r (not_not.mp none_)]
      exact fun p there => absurd there List.not_mem_nil

-- All are as long as was asked for, but perhaps the last.
theorem portions_full (r : Reader α) : ∀ p ∈ r.portions.dropLast, p.length = r.stride := by
  induction r using portions.induct with
  | case1 r some_ ih =>
      rw [portions_some r some_]
      intro p there
      by_cases last : r.take.left = []
      · rw [portions_none r.take last] at there
        cases there
      · rw [portions_some r.take last, List.dropLast_cons_cons, ← portions_some r.take last] at there
        cases there with
        | head =>
            have beyond : r.stride < r.left.length := by
              by_contra within
              exact last (List.drop_of_length_le (Nat.not_lt.mp within))
            exact List.length_take.trans (Nat.min_eq_left (Nat.le_of_lt beyond))
        | tail _ later => exact ih p later
  | case2 r none_ =>
      rw [portions_none r (not_not.mp none_)]
      exact fun p there => absurd there List.not_mem_nil

end Reader

end Lib
