set_option autoImplicit false

namespace Lib

namespace Delimited

variable {α : Type}

-- Text goes before the first of the pieces.
def attach (text : List α) : List (List α) → List (List α)
  | [] => [text]
  | piece :: rest => (text ++ piece) :: rest

-- A text in which every esc has an element to go with it.
inductive Spelled (esc : α) (plain named : α → Prop) : List α → Prop
  | nil : Spelled esc plain named []
  | char (c : α) (rest : List α) : c ≠ esc → plain c → Spelled esc plain named rest → Spelled esc plain named (c :: rest)
  | pair (n : α) (rest : List α) : named n → Spelled esc plain named rest → Spelled esc plain named (esc :: n :: rest)

variable {esc mark : α} {plain named : α → Prop}

theorem attach_append (left right : List α) (pieces : List (List α)) :
    attach (left ++ right) pieces = attach left (attach right pieces) := by
  cases pieces with
  | nil => rfl
  | cons piece rest => rw [attach, attach, attach, List.append_assoc]

theorem spelled_append {left right : List α} (first : Spelled esc plain named left) (second : Spelled esc plain named right) :
    Spelled esc plain named (left ++ right) := by
  induction first with
  | nil => exact second
  | char c rest other here _ ih => exact .char c (rest ++ right) other here ih
  | pair n rest here _ ih => exact .pair n (rest ++ right) here ih

theorem spelled_flat_map {β : Type} (write : β → List α) (items : List β) (each : ∀ b, Spelled esc plain named (write b)) :
    Spelled esc plain named (items.flatMap write) := by
  induction items with
  | nil => exact .nil
  | cons b items ih =>
      rw [List.flatMap_cons]
      exact spelled_append (each b) ih

theorem spelled_intercalate {sep : List α} {items : List (List α)} (between : Spelled esc plain named sep)
    (each : ∀ item ∈ items, Spelled esc plain named item) : Spelled esc plain named (sep.intercalate items) := by
  induction items with
  | nil => exact .nil
  | cons item rest ih =>
      have first := each item List.mem_cons_self
      cases rest with
      | nil =>
          rw [List.intercalate_singleton]
          exact first
      | cons next rest =>
          have others := ih fun other there => each other (List.mem_cons_of_mem item there)
          rw [List.intercalate_cons_cons]
          exact spelled_append (spelled_append first between) others

theorem spelled_mono {plain' named' : α → Prop} {text : List α} (spelled : Spelled esc plain named text)
    (wider : ∀ c, plain c → plain' c) (more : ∀ n, named n → named' n) : Spelled esc plain' named' text := by
  induction spelled with
  | nil => exact .nil
  | char c rest other here _ ih => exact .char c rest other (wider c here) ih
  | pair n rest here _ ih => exact .pair n rest (more n here) ih

-- What the first esc of a text is followed by.
theorem spelled_pair {n : α} {rest : List α} (spelled : Spelled esc plain named (esc :: n :: rest)) : named n := by
  cases spelled with
  | char _ _ other => exact absurd rfl other
  | pair _ _ here => exact here

theorem attach_some (text : List α) (pieces : List (List α)) : attach text pieces ≠ [] := by
  cases pieces with
  | nil => exact List.cons_ne_nil _ _
  | cons piece rest => exact List.cons_ne_nil _ _

theorem attach_nothing (pieces : List (List α)) (some_ : pieces ≠ []) : attach [] pieces = pieces := by
  cases pieces with
  | nil => exact absurd rfl some_
  | cons piece rest => rfl

variable [DecidableEq α]

-- The pieces between the marks. An esc takes the next element as it is, a mark too.
def cut (esc mark : α) : List α → List (List α)
  | [] => [[]]
  | c :: rest =>
      if c = mark then [] :: cut esc mark rest
      else if c = esc then
        match rest with
        | [] => [[c]]
        | n :: rest => attach [c, n] (cut esc mark rest)
      else attach [c] (cut esc mark rest)

theorem cut_some (esc mark : α) (text : List α) : cut esc mark text ≠ [] := by
  rw [cut.eq_def]
  repeat' split
  all_goals
    first
    | exact List.cons_ne_nil _ _
    | exact attach_some _ _

theorem cut_spelled (apart : esc ≠ mark) {text : List α} (spelled : Spelled esc (fun c => c ≠ mark) named text) (rest : List α) :
    cut esc mark (text ++ rest) = attach text (cut esc mark rest) := by
  induction spelled with
  | nil => exact (attach_nothing _ (cut_some esc mark rest)).symm
  | char c text other here _ ih =>
      rw [List.cons_append, cut.eq_def]
      simp only [if_neg here, if_neg other, ih]
      exact (attach_append [c] text _).symm
  | pair n text _ _ ih =>
      rw [List.cons_append, List.cons_append, cut.eq_def]
      simp only [if_neg apart, if_true, ih]
      exact (attach_append [esc, n] text _).symm

theorem cut_mark (esc mark : α) (rest : List α) : cut esc mark (mark :: rest) = [] :: cut esc mark rest := by
  rw [cut.eq_def]
  exact if_pos rfl

theorem cut_piece (apart : esc ≠ mark) {text : List α} (spelled : Spelled esc (fun c => c ≠ mark) named text) :
    cut esc mark text = [text] := by
  have alone := cut_spelled apart spelled []
  rw [List.append_nil] at alone
  rw [alone, cut, attach, List.append_nil]

theorem cut_item (apart : esc ≠ mark) {text : List α} (spelled : Spelled esc (fun c => c ≠ mark) named text) (rest : List α) :
    cut esc mark (text ++ mark :: rest) = text :: cut esc mark rest := by
  rw [cut_spelled apart spelled, cut_mark, attach, List.append_nil]

-- Items with a mark between two of them.
theorem cut_intercalate (apart : esc ≠ mark) (items : List (List α)) (some_ : items ≠ [])
    (each : ∀ item ∈ items, Spelled esc (fun c => c ≠ mark) named item) : cut esc mark ([mark].intercalate items) = items := by
  induction items with
  | nil => exact absurd rfl some_
  | cons item rest ih =>
      have first := each item List.mem_cons_self
      cases rest with
      | nil => rw [List.intercalate_singleton, cut_piece apart first]
      | cons next rest =>
          have others := ih (List.cons_ne_nil next rest) fun other there => each other (List.mem_cons_of_mem item there)
          rw [List.intercalate_cons_cons, List.append_assoc, List.singleton_append, cut_item apart first, others]

-- Items with a mark behind each of them.
theorem cut_flat_map (apart : esc ≠ mark) (items : List (List α)) (each : ∀ item ∈ items, Spelled esc (fun c => c ≠ mark) named item) :
    cut esc mark (items.flatMap fun item => item ++ [mark]) = items ++ [[]] := by
  induction items with
  | nil => rfl
  | cons item rest ih =>
      have others := ih fun other there => each other (List.mem_cons_of_mem item there)
      rw [List.flatMap_cons, List.append_assoc, List.singleton_append, cut_item apart (each item List.mem_cons_self), others,
        List.cons_append]

end Delimited

end Lib
