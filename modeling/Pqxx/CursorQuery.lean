import Mathlib.Data.List.DropRight
import Pqxx.ReactivationBalance

set_option autoImplicit false

namespace Pqxx

open Lib

-- The loop of the constructor from an iterator at last on: it stops at begin(), or at the
-- first character from the back that is of use. None is a reading outside of the string.
def trimFrom (query : List Char) : Nat → Option Nat
  | 0 => some 0
  | last + 1 =>
      match query[last + 1]? with
      | none => none
      | some c => if uselessTrail c then trimFrom query last else some (last + 1)

-- The query that the cursor is declared for. An empty one has no character for the
-- iterator at end() to step back to.
def trimQuery (query : String) : Option (Except Exn String) :=
  match query.toList.length with
  | 0 => none
  | length + 1 =>
      match trimFrom query.toList length with
      | none => none
      | some 0 =>
          match query.toList[0]? with
          | none => none
          | some c =>
              if uselessTrail c then some (.error { kind := .argumentError, what := "Cursor created on empty query" })
              else some (.ok (String.ofList (query.toList.take 1)))
      | some (last + 1) => some (.ok (String.ofList (query.toList.take (last + 2))))

-- The constructor with its loop; createCursor has what the loop leaves at once. Nothing is
-- said of what happens outside of the query: here it ends there.
def createTrimmedCursor (env : Outside) (i : Nat) (query cname : String) (ap : AccessPolicy) (up : UpdatePolicy) (op : OwnershipPolicy)
    (hold : Bool) : Client CursorObject := do
  let name ← Connection.adornName cname
  match trimQuery query with
  | none => throw (.internalError "outside of the query")
  | some (.error e) => throw e
  | some (.ok left) => do
      Connection.activate env
      let _ ← Transaction.exec env i (declareText name left ap up hold) ("[DECLARE " ++ name ++ "]")
      let emptyResult ← initEmptyResult env i name
      Prog.when (hold = true) (addReactivationAvoidanceCount 1)
      pure { name, emptyResult, adopted := false, ownership := op, atEnd := -1, pos := 0, endpos := -1 }

-- A text that ends in neither whitespace nor a semicolon.
def Useful (text : List Char) : Prop := ∃ c, text.getLast? = some c ∧ uselessTrail c = false

-- What the trimming is to do: it stays inside the string, refuses the queries that are all
-- trail and no others, and leaves the longest part from the start that is not.
structure Trimmed (query : String) : Prop where
  refuses : (∀ c ∈ query.toList, uselessTrail c = true) → ∃ e, trimQuery query = some (.error e) ∧ e.kind = .argumentError
  leaves : (∃ c ∈ query.toList, uselessTrail c = false) → ∃ left, trimQuery query = some (.ok left) ∧
    left.toList <+: query.toList ∧ Useful left.toList ∧
      ∀ other, other <+: query.toList → Useful other → other.length ≤ left.toList.length

-- What comes behind the last character of use is all trail.
theorem trim_from_spec (query : List Char) (last : Nat) (within : last < query.length) :
    ∃ stop, trimFrom query last = some stop ∧ stop ≤ last ∧ (∀ k, stop < k → k ≤ last → ∃ c, query[k]? = some c ∧ uselessTrail c = true) ∧
      (0 < stop → ∃ c, query[stop]? = some c ∧ uselessTrail c = false) := by
  induction last with
  | zero => exact ⟨0, rfl, Nat.le_refl 0, fun k above below => by omega, fun positive => by omega⟩
  | succ last ih =>
      obtain ⟨c, here⟩ : ∃ c, query[last + 1]? = some c := ⟨query[last + 1], List.getElem?_eq_getElem within⟩
      simp only [trimFrom, here]
      cases useless : uselessTrail c with
      | false =>
          rw [if_neg Bool.false_ne_true]
          exact ⟨last + 1, rfl, Nat.le_refl _, fun k above below => by omega, fun _ => ⟨c, here, useless⟩⟩
      | true =>
          rw [if_pos rfl]
          obtain ⟨stop, found, below, trail, useful⟩ := ih (by omega)
          refine ⟨stop, found, by omega, fun k above most => ?_, useful⟩
          rcases Nat.lt_or_ge last k with past | inner
          · obtain rfl : k = last + 1 := by omega
            exact ⟨c, here, useless⟩
          · exact trail k above inner

theorem strip_tail (text tail : List Char) (trail : ∀ c ∈ tail, uselessTrail c = true) :
    (text ++ tail).rdropWhile uselessTrail = text.rdropWhile uselessTrail := by
  induction tail using List.reverseRecOn with
  | nil => rw [List.append_nil]
  | append_singleton tail c ih =>
      rw [← List.append_assoc, List.rdropWhile_concat_pos _ _ _ (trail c (by simp))]
      exact ih fun d there => trail d (by simp [there])

theorem strip_useful (text : List Char) (useful : Useful text) : text.rdropWhile uselessTrail = text := by
  obtain ⟨c, last, useless⟩ := useful
  rw [List.rdropWhile_eq_self_iff]
  intro some_
  rw [List.getLast?_eq_some_getLast some_] at last
  rw [Option.some.inj last, useless]
  exact Bool.false_ne_true

-- The first characters up to one of use with nothing but trail behind it are what is left.
theorem take_strip (query : List Char) (stop : Nat) (within : stop < query.length)
    (trail : ∀ k, stop < k → k ≤ query.length - 1 → ∃ c, query[k]? = some c ∧ uselessTrail c = true) :
    query.rdropWhile uselessTrail = (query.take (stop + 1)).rdropWhile uselessTrail := by
  have tail : ∀ c ∈ query.drop (stop + 1), uselessTrail c = true := by
    intro c there
    obtain ⟨k, bound, rfl⟩ := List.mem_iff_getElem.mp there
    rw [List.length_drop] at bound
    obtain ⟨c, found, useless⟩ := trail (stop + 1 + k) (by omega) (by omega)
    rw [List.getElem?_eq_getElem (by omega)] at found
    rw [List.getElem_drop, Option.some.inj found]
    exact useless
  have split := strip_tail (query.take (stop + 1)) (query.drop (stop + 1)) tail
  rw [List.take_append_drop] at split
  exact split

theorem take_useful (query : List Char) (stop : Nat) (c : Char) (here : query[stop]? = some c) (useless : uselessTrail c = false) :
    Useful (query.take (stop + 1)) := by
  refine ⟨c, ?_, useless⟩
  rw [List.getLast?_eq_getElem?, List.length_take]
  have within : stop < query.length := (List.getElem?_eq_some_iff.mp here).1
  rw [Nat.min_eq_left within, Nat.succ_sub_one, List.getElem?_take_of_lt (Nat.lt_succ_self stop)]
  exact here

-- What is left is the longest part from the start that is not trail at its end.
theorem strip_longest (query other : List Char) (part : other <+: query) (useful : Useful other) :
    other.length ≤ (query.rdropWhile uselessTrail).length := by
  obtain ⟨rest, rfl⟩ := part
  induction rest using List.reverseRecOn with
  | nil => rw [List.append_nil, strip_useful other useful]
  | append_singleton rest c ih =>
      rw [← List.append_assoc, List.rdropWhile_concat]
      split
      · exact ih
      · simp only [List.length_append, List.length_singleton]
        omega

theorem strip_trail_empty (query : String) : stripTrail query = "" ↔ query.toList.rdropWhile uselessTrail = [] := by
  rw [← String.toList_eq_nil_iff, stripTrail, String.toList_ofList, List.rdropWhile]

-- Of a query that is not empty the loop leaves what stripTrail does.
theorem trim_query_strip (query : String) (some_ : query ≠ "") : trimQuery query =
    if stripTrail query = "" then some (.error { kind := .argumentError, what := "Cursor created on empty query" })
    else some (.ok (stripTrail query)) := by
  have nonempty : query.toList ≠ [] := fun none_ => some_ (String.toList_eq_nil_iff.mp none_)
  obtain ⟨length, size⟩ := Nat.exists_eq_succ_of_ne_zero (fun zero => nonempty (List.length_eq_zero_iff.mp zero))
  obtain ⟨stop, found, below, trail, useful⟩ := trim_from_spec query.toList length (by omega)
  have split := take_strip query.toList stop (by omega) fun k above most => trail k above (by omega)
  have kept (c : Char) (here : query.toList[stop]? = some c) (useless : uselessTrail c = false) :
      stripTrail query ≠ "" ∧ stripTrail query = String.ofList (query.toList.take (stop + 1)) := by
    have useful := take_useful query.toList stop c here useless
    have left : query.toList.rdropWhile uselessTrail = query.toList.take (stop + 1) := by rw [split, strip_useful _ useful]
    refine ⟨fun none_ => ?_, congrArg String.ofList left⟩
    rw [strip_trail_empty, left] at none_
    obtain ⟨c, last, _⟩ := useful
    rw [none_] at last
    cases last
  simp only [trimQuery, size, found]
  cases stop with
  | zero =>
      obtain ⟨c, here⟩ : ∃ c, query.toList[0]? = some c := ⟨_, List.getElem?_eq_getElem (by omega)⟩
      simp only [here]
      cases useless : uselessTrail c with
      | true =>
          have first : query.toList.take 1 = [c] := by
            rw [List.take_one, List.head?_eq_getElem?, here]
            rfl
          have gone : stripTrail query = "" := by
            rw [strip_trail_empty, split, first, List.rdropWhile_singleton, if_pos useless]
          rw [if_pos rfl, if_pos gone]
      | false =>
          obtain ⟨left, same⟩ := kept c here useless
          rw [if_neg Bool.false_ne_true, if_neg left, same]
  | succ stop =>
      obtain ⟨c, here, useless⟩ := useful (Nat.succ_pos stop)
      obtain ⟨left, same⟩ := kept c here useless
      rw [if_neg left, same]

-- And so that is what the cursor is declared for.
theorem create_cursor_trims (env : Outside) (i : Nat) (query cname : String) (ap : AccessPolicy) (up : UpdatePolicy) (op : OwnershipPolicy)
    (hold : Bool) (some_ : query ≠ "") :
    createCursor env i query cname ap up op hold = createTrimmedCursor env i query cname ap up op hold := by
  rw [createCursor, createTrimmedCursor, trim_query_strip query some_]
  split
  · rfl
  · rfl

-- The trimming does what it is to do exactly for the queries that are not empty.
theorem query_trimming (query : String) : Trimmed query ↔ query ≠ "" := by
  constructor
  · rintro trimmed rfl
    obtain ⟨e, refused, -⟩ := trimmed.refuses fun c there => nomatch there
    cases refused
  · intro some_
    have trims := trim_query_strip query some_
    have left : stripTrail query = "" ↔ ∀ c ∈ query.toList, uselessTrail c = true := by
      rw [strip_trail_empty, List.rdropWhile_eq_nil_iff]
    constructor
    · intro trail
      rw [if_pos (left.mpr trail)] at trims
      exact ⟨_, trims, rfl⟩
    · rintro ⟨c, there, useful⟩
      have kept : stripTrail query ≠ "" := by
        intro gone
        rw [left.mp gone c there] at useful
        cases useful
      rw [if_neg kept] at trims
      have same : (stripTrail query).toList = query.toList.rdropWhile uselessTrail := by
        rw [stripTrail, String.toList_ofList, List.rdropWhile]
      refine ⟨_, trims, ?_⟩
      rw [same]
      refine ⟨List.rdropWhile_prefix _ _, ?_, fun other part useful => strip_longest _ _ part useful⟩
      have there : query.toList.rdropWhile uselessTrail ≠ [] := fun none_ => kept ((strip_trail_empty query).mpr none_)
      refine ⟨_, List.getLast?_eq_some_getLast there, ?_⟩
      exact Bool.eq_false_iff.mpr (List.rdropWhile_last_not _ _ there)

-- The iterator at the end of an empty query is stepped back all the same.
theorem query_trimming_empty : ¬ ∀ query, Trimmed query := fun claimed => (query_trimming "").mp (claimed "") rfl

end Pqxx
