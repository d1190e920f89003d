import Mathlib.Data.List.Nodup

set_option autoImplicit false

namespace Lib

-- The two links of every node in a heap; none is a null pointer.
structure Links (ν : Type) where
  prev : ν → Option ν
  next : ν → Option ν

namespace Links

variable {ν : Type} [DecidableEq ν]

def setPrev (l : Links ν) (x : ν) (p : Option ν) : Links ν := { l with prev := fun y => if y = x then p else l.prev y }

def setNext (l : Links ν) (x : ν) (n : Option ν) : Links ν := { l with next := fun y => if y = x then n else l.next y }

-- The same through a pointer that may be null; then nothing is set.
def setPrevOf (l : Links ν) (x : Option ν) (p : Option ν) : Links ν := x.elim l fun y => l.setPrev y p

def setNextOf (l : Links ν) (x : Option ν) (n : Option ν) : Links ν := x.elim l fun y => l.setNext y n

-- The links of a node are as they were.
def Same (l l' : Links ν) (x : ν) : Prop := l'.prev x = l.prev x ∧ l'.next x = l.next x

omit [DecidableEq ν] in
theorem Same.trans {l l' l'' : Links ν} {x : ν} (first : Same l l' x) (second : Same l' l'' x) : Same l l'' x :=
  ⟨second.1.trans first.1, second.2.trans first.2⟩

theorem set_prev_same (l : Links ν) {x y : ν} (p : Option ν) (apart : y ≠ x) : Same l (l.setPrev x p) y := ⟨if_neg apart, rfl⟩

theorem set_next_same (l : Links ν) {x y : ν} (n : Option ν) (apart : y ≠ x) : Same l (l.setNext x n) y := ⟨rfl, if_neg apart⟩

theorem set_prev_of_same (l : Links ν) {x : Option ν} {y : ν} (p : Option ν) (apart : ∀ z ∈ x, y ≠ z) : Same l (l.setPrevOf x p) y := by
  cases x with
  | none => exact ⟨rfl, rfl⟩
  | some z => exact set_prev_same l p (apart z rfl)

theorem set_next_of_same (l : Links ν) {x : Option ν} {y : ν} (n : Option ν) (apart : ∀ z ∈ x, y ≠ z) : Same l (l.setNextOf x n) y := by
  cases x with
  | none => exact ⟨rfl, rfl⟩
  | some z => exact set_next_same l n (apart z rfl)

omit [DecidableEq ν] in
-- Nodes that are linked both ways, between what is in front of them and what is behind.
def Segment (l : Links ν) : Option ν → List ν → Option ν → Prop
  | _, [], _ => True
  | before, x :: xs, after => l.prev x = before ∧ l.next x = xs.head?.or after ∧ Segment l (some x) xs after

omit [DecidableEq ν] in
theorem segment_frame {l l' : Links ν} {before after : Option ν} {xs : List ν} (segment : Segment l before xs after)
    (same : ∀ x ∈ xs, Same l l' x) : Segment l' before xs after := by
  induction xs generalizing before with
  | nil => trivial
  | cons x xs ih =>
      obtain ⟨prev, next, rest⟩ := segment
      have here := same x List.mem_cons_self
      exact ⟨here.1.trans prev, here.2.trans next, ih rest fun y there => same y (List.mem_cons_of_mem x there)⟩

omit [DecidableEq ν] in
theorem segment_append {l : Links ν} {before after : Option ν} {xs ys : List ν} :
    Segment l before (xs ++ ys) after ↔ Segment l before xs (ys.head?.or after) ∧ Segment l (xs.getLast?.or before) ys after := by
  induction xs generalizing before with
  | nil => simp [Segment]
  | cons x xs ih =>
      have last : (x :: xs).getLast?.or before = xs.getLast?.or (some x) := by
        cases xs with
        | nil => rfl
        | cons y xs => simp [List.getLast?_cons]
      rw [List.cons_append, Segment, Segment, ih, last, List.head?_append, Option.or_assoc]
      simp only [and_assoc]

theorem segment_reseat_head {l : Links ν} {before after : Option ν} {xs : List ν} (p : Option ν) (segment : Segment l before xs after)
    (once : xs.Nodup) : Segment (l.setPrevOf xs.head? p) p xs after := by
  cases xs with
  | nil => trivial
  | cons x xs =>
      obtain ⟨-, next, rest⟩ := segment
      have apart := (List.nodup_cons.mp once).1
      refine ⟨if_pos rfl, next, segment_frame rest fun y there => set_prev_same l p ?_⟩
      rintro rfl
      exact apart there

theorem segment_reseat_last {l : Links ν} {before after : Option ν} {xs : List ν} (n : Option ν) (segment : Segment l before xs after)
    (once : xs.Nodup) : Segment (l.setNextOf xs.getLast? n) before xs n := by
  rcases List.eq_nil_or_concat xs with rfl | ⟨front, x, rfl⟩
  · trivial
  · rw [List.concat_eq_append] at segment once ⊢
    obtain ⟨first, prev, -, -⟩ := segment_append.mp segment
    rw [List.getLast?_append, List.getLast?_singleton, Option.some_or]
    have apart : x ∉ front := fun there => (List.nodup_append.mp once).2.2 x there x (List.mem_singleton.mpr rfl) rfl
    refine segment_append.mpr ⟨segment_frame first fun y there => set_next_same l n ?_, prev, if_pos rfl, trivial⟩
    rintro rfl
    exact apart there

omit [DecidableEq ν] in
theorem segment_at {l : Links ν} {before after : Option ν} {xs : List ν} (segment : Segment l before xs after) (k : Nat)
    (bound : k < xs.length) : l.prev xs[k] = (if k = 0 then before else xs[k - 1]?) ∧ l.next xs[k] = xs[k + 1]?.or after := by
  induction xs generalizing before k with
  | nil => cases bound
  | cons x xs ih =>
      obtain ⟨prev, next, rest⟩ := segment
      cases k with
      | zero =>
          rw [List.getElem_cons_zero, if_pos rfl, Nat.zero_add, List.getElem?_cons_succ, ← List.head?_eq_getElem?]
          exact ⟨prev, next⟩
      | succ k =>
          have later := ih rest k (Nat.lt_of_succ_lt_succ bound)
          rw [List.getElem_cons_succ, if_neg (Nat.succ_ne_zero k), Nat.add_sub_cancel, List.getElem?_cons_succ]
          refine ⟨later.1.trans ?_, later.2⟩
          cases k with
          | zero => rfl
          | succ k => rw [if_neg (Nat.succ_ne_zero k), Nat.add_sub_cancel, List.getElem?_cons_succ]

-- A list of nodes from a head pointer on, with null pointers at its ends.
structure Chain (l : Links ν) (head : Option ν) (xs : List ν) : Prop where
  head : head = xs.head?
  segment : Segment l none xs none
  once : xs.Nodup

-- Putting a node in front. Its own backward link is left as it is.
def push (l : Links ν) (head : Option ν) (i : ν) : Links ν := (l.setNext i head).setPrevOf head (some i)

-- Taking a node out, with the new head; none where that follows a null pointer.
def unlink (l : Links ν) (head : Option ν) (i : ν) : Option (Links ν × Option ν) :=
  let next := l.next i
  if head = some i then some (((l.setPrevOf next none).setPrev i none).setNext i none, next)
  else do
    let prev ← l.prev i
    some ((((l.setNext prev next).setPrevOf next (some prev)).setPrev i none).setNext i none, head)

-- Going from node to node until there is a null pointer; none where that takes more than
-- so many steps.
def walk (l : Links ν) : Nat → Option ν → Option (List ν)
  | _, none => some []
  | 0, some _ => none
  | fuel + 1, some i => (l.walk fuel (l.next i)).map (i :: ·)

theorem push_same {l : Links ν} {head : Option ν} {xs : List ν} (chain : Chain l head xs) {i y : ν} (apart : y ≠ i) (outside : y ∉ xs) :
    Same l (l.push head i) y := by
  refine (set_next_same l head apart).trans (set_prev_of_same _ (some i) ?_)
  rintro z first rfl
  rw [chain.head] at first
  exact outside (List.mem_of_head? first)

theorem push_chain {l : Links ν} {head : Option ν} {xs : List ν} (chain : Chain l head xs) {i : ν} (new : i ∉ xs) (null : l.prev i = none) :
    Chain (l.push head i) (some i) (i :: xs) := by
  have others : Segment (l.setNext i head) none xs none := by
    refine segment_frame chain.segment fun y there => set_next_same l head ?_
    rintro rfl
    exact new there
  have joined := segment_reseat_head (some i) others chain.once
  have unchanged : ∀ z ∈ head, i ≠ z := by
    rintro z first rfl
    rw [chain.head] at first
    exact new (List.mem_of_head? first)
  have own := set_prev_of_same (l.setNext i head) (some i) unchanged
  refine ⟨rfl, ⟨own.1.trans null, ?_, ?_⟩, List.nodup_cons.mpr ⟨new, chain.once⟩⟩
  · rw [push, own.2, Option.or_none, ← chain.head]
    exact if_pos rfl
  · rw [push, chain.head]
    rw [chain.head] at joined
    exact joined

-- The two neighbours of a node are joined, and the node's own links are cleared.
theorem segment_unlink {l : Links ν} {front back : List ν} {i : ν} (segment : Segment l none (front ++ i :: back) none)
    (once : (front ++ i :: back).Nodup) :
    Segment ((((l.setNextOf front.getLast? back.head?).setPrevOf back.head? front.getLast?).setPrev i none).setNext i none) none
      (front ++ back) none := by
  obtain ⟨before, -, -, after⟩ := segment_append.mp segment
  obtain ⟨frontOnce, restOnce, apart⟩ := List.nodup_append.mp once
  obtain ⟨missing, backOnce⟩ := List.nodup_cons.mp restOnce
  have beforeJoined := segment_reseat_last back.head? before frontOnce
  have afterStill : Segment (l.setNextOf front.getLast? back.head?) (some i) back none := by
    refine segment_frame after fun y there => set_next_of_same l _ ?_
    rintro z last rfl
    exact apart y (List.mem_of_getLast? last) y (List.mem_cons_of_mem i there) rfl
  have afterJoined := segment_reseat_head front.getLast? afterStill backOnce
  have beforeStill : Segment ((l.setNextOf front.getLast? back.head?).setPrevOf back.head? front.getLast?) none front back.head? := by
    refine segment_frame beforeJoined fun y there => set_prev_of_same _ _ ?_
    rintro z first rfl
    exact apart y there y (List.mem_cons_of_mem i (List.mem_of_head? first)) rfl
  have joined : Segment ((l.setNextOf front.getLast? back.head?).setPrevOf back.head? front.getLast?) none (front ++ back) none := by
    rw [segment_append, Option.or_none, Option.or_none]
    exact ⟨beforeStill, afterJoined⟩
  refine segment_frame joined fun y there => ?_
  have other : y ≠ i := by
    rintro rfl
    rcases List.mem_append.mp there with inFront | inBack
    · exact apart y inFront y List.mem_cons_self rfl
    · exact missing inBack
  exact (set_prev_same _ none other).trans (set_next_same _ none other)

theorem unlink_chain {l : Links ν} {head : Option ν} {xs : List ν} (chain : Chain l head xs) {i : ν} (there : i ∈ xs) :
    ∃ after, l.unlink head i = some (after, (xs.erase i).head?) ∧ Chain after (xs.erase i).head? (xs.erase i) ∧
      after.prev i = none ∧ after.next i = none ∧ ∀ y ∉ xs, Same l after y := by
  obtain ⟨front, back, rfl⟩ := List.append_of_mem there
  have once := chain.once
  obtain ⟨-, restOnce, apart⟩ := List.nodup_append.mp once
  have absent : i ∉ front := fun inFront => apart i inFront i List.mem_cons_self rfl
  have erased : (front ++ i :: back).erase i = front ++ back := by
    rw [List.erase_append_right _ absent, List.erase_cons_head]
  obtain ⟨-, prev, next, -⟩ := segment_append.mp chain.segment
  rw [Option.or_none] at prev next
  have joined := segment_unlink chain.segment once
  have result : l.unlink head i =
      some ((((l.setNextOf front.getLast? back.head?).setPrevOf back.head? front.getLast?).setPrev i none).setNext i none,
        (front ++ back).head?) := by
    rw [unlink, chain.head, next]
    rcases List.eq_nil_or_concat front with rfl | ⟨left, p, rfl⟩
    · rw [List.nil_append, List.head?_cons, if_pos rfl]
      rfl
    · rw [List.concat_eq_append] at prev absent ⊢
      rw [List.getLast?_append, List.getLast?_singleton, Option.some_or] at prev ⊢
      have elsewhere : ¬ (left ++ [p] ++ i :: back).head? = some i := by
        intro first
        rw [List.append_assoc, List.head?_append] at first
        cases left with
        | nil =>
            obtain rfl := Option.some.inj first
            exact absent (List.mem_append_right _ List.mem_cons_self)
        | cons q left =>
            obtain rfl := Option.some.inj first
            exact absent (List.mem_append_left _ List.mem_cons_self)
      have same : (left ++ [p] ++ i :: back).head? = (left ++ [p] ++ back).head? := by
        cases left with
        | nil => rfl
        | cons q left => rfl
      rw [if_neg elsewhere, prev, same]
      rfl
  rw [erased]
  refine ⟨_, result, ⟨rfl, joined, ?_⟩, ?_, if_pos rfl, ?_⟩
  · rw [← erased]
    exact once.erase i
  · exact if_pos rfl
  · intro y outside
    have other : y ≠ i := by
      rintro rfl
      exact outside (List.mem_append_right _ List.mem_cons_self)
    have notLast : ∀ z ∈ front.getLast?, y ≠ z := by
      rintro z last rfl
      exact outside (List.mem_append_left _ (List.mem_of_getLast? last))
    have notFirst : ∀ z ∈ back.head?, y ≠ z := by
      rintro z first rfl
      exact outside (List.mem_append_right _ (List.mem_cons_of_mem i (List.mem_of_head? first)))
    exact (((set_next_of_same l _ notLast).trans (set_prev_of_same _ _ notFirst)).trans (set_prev_same _ none other)).trans
      (set_next_same _ none other)

omit [DecidableEq ν] in
theorem chain_frame {l l' : Links ν} {head : Option ν} {xs : List ν} (chain : Chain l head xs) (same : ∀ x ∈ xs, Same l l' x) :
    Chain l' head xs := ⟨chain.head, segment_frame chain.segment same, chain.once⟩

omit [DecidableEq ν] in
theorem walk_segment {l : Links ν} {before : Option ν} {xs : List ν} (segment : Segment l before xs none) (fuel : Nat)
    (enough : xs.length ≤ fuel) : l.walk fuel xs.head? = some xs := by
  induction xs generalizing before fuel with
  | nil =>
      cases fuel with
      | zero => rfl
      | succ fuel => rfl
  | cons x xs ih =>
      obtain ⟨-, next, rest⟩ := segment
      rw [List.length_cons] at enough
      obtain ⟨fuel, rfl⟩ := Nat.exists_eq_add_of_lt (Nat.lt_of_lt_of_le (Nat.succ_pos _) enough)
      rw [Nat.zero_add] at enough ⊢
      rw [List.head?_cons, walk, next, Option.or_none, ih rest fuel (Nat.le_of_succ_le_succ enough)]
      rfl

omit [DecidableEq ν] in
-- The links are each other's inverse on the list.
theorem chain_inverse {l : Links ν} {head : Option ν} {xs : List ν} (chain : Chain l head xs) {i j : ν} (one : i ∈ xs) (other : j ∈ xs) :
    l.next i = some j ↔ l.prev j = some i := by
  obtain ⟨a, boundA, rfl⟩ := List.mem_iff_getElem.mp one
  obtain ⟨b, boundB, rfl⟩ := List.mem_iff_getElem.mp other
  rw [(segment_at chain.segment a boundA).2, (segment_at chain.segment b boundB).1, Option.or_none]
  have found (k c : Nat) (bound : c < xs.length) : xs[k]? = some xs[c] ↔ k = c := by
    constructor
    · intro same
      obtain ⟨inside, equal⟩ := List.getElem?_eq_some_iff.mp same
      exact (chain.once.getElem_inj_iff).mp equal
    · rintro rfl
      exact List.getElem?_eq_getElem bound
  rw [found (a + 1) b boundB]
  by_cases first : b = 0
  · rw [if_pos first]
    exact ⟨fun after => by omega, fun none_ => nomatch none_⟩
  · rw [if_neg first, found (b - 1) a boundA]
    omega

-- Nodes linked in a circle, given from any one of them on.
structure Ring (l : Links ν) (xs : List ν) : Prop where
  segment : Segment l xs.getLast? xs xs.head?
  once : xs.Nodup

-- Putting a node behind another, and taking one out to be a ring of its own.
def insertAfter (l : Links ν) (x i : ν) : Links ν :=
  (((l.setPrev i (some x)).setNext i (l.next x)).setPrevOf (l.next x) (some i)).setNext x (some i)

def detach (l : Links ν) (i : ν) : Links ν :=
  (((l.setPrevOf (l.next i) (l.prev i)).setNextOf (l.prev i) (l.next i)).setPrev i (some i)).setNext i (some i)

omit [DecidableEq ν] in
theorem ring_frame {l l' : Links ν} {xs : List ν} (ring : Ring l xs) (same : ∀ x ∈ xs, Same l l' x) : Ring l' xs :=
  ⟨segment_frame ring.segment same, ring.once⟩

omit [DecidableEq ν] in
theorem ring_rotate {l : Links ν} {xs ys : List ν} (ring : Ring l (xs ++ ys)) : Ring l (ys ++ xs) := by
  refine ⟨?_, (List.perm_append_comm.nodup_iff).mp ring.once⟩
  obtain ⟨first, second⟩ := segment_append.mp ring.segment
  rcases List.eq_nil_or_concat xs with rfl | ⟨front, x, rfl⟩
  · rw [List.append_nil]
    exact ring.segment
  · rcases List.eq_nil_or_concat ys with rfl | ⟨back, y, rfl⟩
    · rw [List.nil_append]
      have segment := ring.segment
      rw [List.append_nil] at segment
      exact segment
    · have headX : ∃ a, (front.concat x).head? = some a := by
        cases front with
        | nil => exact ⟨x, rfl⟩
        | cons a front => exact ⟨a, rfl⟩
      have headY : ∃ a, (back.concat y).head? = some a := by
        cases back with
        | nil => exact ⟨y, rfl⟩
        | cons a back => exact ⟨a, rfl⟩
      obtain ⟨a, headX⟩ := headX
      obtain ⟨b, headY⟩ := headY
      have lastX : (front.concat x).getLast? = some x := by simp
      have lastY : (back.concat y).getLast? = some y := by simp
      rw [List.getLast?_append, List.head?_append, headX, headY, lastX, lastY] at first second
      rw [List.getLast?_append, List.head?_append, headX, headY, lastX, lastY, segment_append, headX, lastY]
      exact ⟨second, first⟩

omit [DecidableEq ν] in
theorem ring_from {l : Links ν} {xs : List ν} (ring : Ring l xs) {i : ν} (there : i ∈ xs) :
    ∃ rest, Ring l (i :: rest) ∧ (i :: rest).Perm xs := by
  obtain ⟨front, back, rfl⟩ := List.append_of_mem there
  have perm : ((i :: back) ++ front).Perm (front ++ i :: back) := List.perm_append_comm
  exact ⟨back ++ front, ring_rotate ring, perm⟩

omit [DecidableEq ν] in
theorem ring_to {l : Links ν} {xs : List ν} (ring : Ring l xs) {i : ν} (there : i ∈ xs) :
    ∃ front, Ring l (front ++ [i]) ∧ (front ++ [i]).Perm xs := by
  obtain ⟨front, back, rfl⟩ := List.append_of_mem there
  have split : front ++ i :: back = (front ++ [i]) ++ back := by rw [List.append_assoc, List.singleton_append]
  rw [split] at ring ⊢
  refine ⟨back ++ front, ?_, ?_⟩
  · rw [List.append_assoc]
    exact ring_rotate ring
  · rw [List.append_assoc]
    exact List.perm_append_comm

omit [DecidableEq ν] in
theorem ring_member {l : Links ν} {xs : List ν} (ring : Ring l xs) {i z : ν} (there : i ∈ xs) (linked : l.prev i = some z ∨ l.next i = some z) :
    z ∈ xs := by
  obtain ⟨rest, rotated, perm⟩ := ring_from ring there
  obtain ⟨prev, next, -⟩ := rotated.segment
  rw [← perm.mem_iff]
  rcases linked with back | ahead
  · exact List.mem_of_getLast? (prev.symm.trans back)
  · rw [next, List.head?_cons] at ahead
    cases rest with
    | nil => exact List.mem_singleton.mpr (Option.some.inj ahead).symm
    | cons a rest =>
        obtain rfl := Option.some.inj ahead
        exact List.mem_cons_of_mem i List.mem_cons_self

theorem insert_after_same (l : Links ν) {x i y : ν} (apart : y ≠ i) (other : y ≠ x) (next : ∀ z ∈ l.next x, y ≠ z) :
    Same l (l.insertAfter x i) y :=
  (((set_prev_same l _ apart).trans (set_next_same _ _ apart)).trans (set_prev_of_same _ _ next)).trans (set_next_same _ _ other)

theorem ring_insert {l : Links ν} {xs : List ν} (ring : Ring l xs) {x i : ν} (there : x ∈ xs) (new : i ∉ xs) :
    ∃ ys, Ring (l.insertAfter x i) ys ∧ ys.Perm (i :: xs) ∧ ∀ y ∉ i :: xs, Same l (l.insertAfter x i) y := by
  obtain ⟨front, rotated, perm⟩ := ring_to ring there
  have last : (front ++ [x]).getLast? = some x := by rw [List.getLast?_append, List.getLast?_singleton, Option.some_or]
  obtain ⟨first, head⟩ : ∃ a, (front ++ [x]).head? = some a := by
    cases front with
    | nil => exact ⟨x, rfl⟩
    | cons a front => exact ⟨a, rfl⟩
  have segment := rotated.segment
  rw [last, head] at segment
  have next : l.next x = some first := by
    have tail := (segment_append.mp segment).2
    exact tail.2.1
  have absent : i ∉ front ++ [x] := fun inside => new (perm.mem_iff.mp inside)
  have notX : i ≠ x := by
    rintro rfl
    exact new there
  have notFirst : i ≠ first := by
    rintro rfl
    exact absent (List.mem_of_head? head)
  have placed : Segment ((l.setPrev i (some x)).setNext i (some first)) (some x) (front ++ [x]) (some first) := by
    refine segment_frame segment fun y inside => ?_
    have apart : y ≠ i := by
      rintro rfl
      exact absent inside
    exact (set_prev_same l _ apart).trans (set_next_same _ _ apart)
  have headed := segment_reseat_head (some i) placed rotated.once
  have closed := segment_reseat_last (some i) headed rotated.once
  rw [head, last] at closed
  have edited : l.insertAfter x i =
      (((l.setPrev i (some x)).setNext i (some first)).setPrevOf (some first) (some i)).setNextOf (some x) (some i) := by
    rw [insertAfter, next]
    rfl
  have own : Same ((l.setPrev i (some x)).setNext i (some first))
      ((((l.setPrev i (some x)).setNext i (some first)).setPrevOf (some first) (some i)).setNextOf (some x) (some i)) i :=
    (set_prev_same _ _ notFirst).trans (set_next_same _ _ notX)
  rw [edited]
  refine ⟨i :: (front ++ [x]), ⟨?_, List.nodup_cons.mpr ⟨absent, rotated.once⟩⟩, perm.cons i, fun y outside => ?_⟩
  · have lastOf : (i :: (front ++ [x])).getLast? = some x := by rw [← List.cons_append, List.getLast?_append, List.getLast?_singleton, Option.some_or]
    rw [lastOf, List.head?_cons, Segment, head, Option.some_or]
    exact ⟨own.1.trans (if_pos rfl), own.2.trans (if_pos rfl), closed⟩
  · rw [← edited]
    have outsideXs : y ∉ xs := fun inside => outside (List.mem_cons_of_mem i inside)
    refine insert_after_same l ?_ ?_ ?_
    · rintro rfl
      exact outside List.mem_cons_self
    · rintro rfl
      exact outsideXs there
    · rintro z found rfl
      obtain rfl := Option.some.inj (next.symm.trans found)
      exact outsideXs (perm.mem_iff.mp (List.mem_of_head? head))

theorem ring_detach {l : Links ν} {xs : List ν} (ring : Ring l xs) {i : ν} (there : i ∈ xs) :
    ∃ rest, Ring (l.detach i) rest ∧ rest.Perm (xs.erase i) ∧ Ring (l.detach i) [i] ∧ ∀ y ∉ xs, Same l (l.detach i) y := by
  obtain ⟨rest, rotated, perm⟩ := ring_from ring there
  obtain ⟨missing, restOnce⟩ := List.nodup_cons.mp rotated.once
  obtain ⟨prev, next, segment⟩ := rotated.segment
  refine ⟨rest, ?_, ?_, ⟨⟨if_pos rfl, if_pos rfl, trivial⟩, List.nodup_singleton i⟩, fun y outside => ?_⟩
  · cases rest with
    | nil => exact ⟨trivial, List.nodup_nil⟩
    | cons a rest =>
        have lastOf : (i :: a :: rest).getLast? = (a :: rest).getLast? := by rw [List.getLast?_cons_cons]
        rw [lastOf] at prev
        have headed := segment_reseat_head (a :: rest).getLast? segment restOnce
        have closed := segment_reseat_last (a :: rest).head? headed restOnce
        have smaller : Ring ((l.setPrevOf (a :: rest).head? (a :: rest).getLast?).setNextOf (a :: rest).getLast? (a :: rest).head?)
            (a :: rest) := ⟨closed, restOnce⟩
        refine ring_frame smaller fun y among => ?_
        have apart : y ≠ i := by
          rintro rfl
          exact missing among
        rw [detach, prev, next, List.head?_cons, Option.some_or]
        exact (set_prev_same _ _ apart).trans (set_next_same _ _ apart)
  · have erased := perm.erase i
    rw [List.erase_cons_head] at erased
    exact erased
  · have apart (z : ν) (among : z ∈ i :: rest) : y ≠ z := by
      rintro rfl
      exact outside (perm.mem_iff.mp among)
    have other := apart i List.mem_cons_self
    exact (((set_prev_of_same l _ fun z found => apart z (ring_member rotated List.mem_cons_self (.inr found))).trans
      (set_next_of_same _ _ fun z found => apart z (ring_member rotated List.mem_cons_self (.inl found)))).trans (set_prev_same _ _ other)).trans (set_next_same _ _ other)

omit [DecidableEq ν] in
theorem ring_alone {l : Links ν} {xs : List ν} (ring : Ring l xs) {i : ν} (there : i ∈ xs) : l.prev i = some i ↔ xs = [i] := by
  constructor
  · intro own
    obtain ⟨rest, rotated, perm⟩ := ring_from ring there
    obtain ⟨missing, -⟩ := List.nodup_cons.mp rotated.once
    have last := rotated.segment.1.symm.trans own
    cases rest with
    | nil => exact List.perm_singleton.mp perm.symm
    | cons a rest =>
        rw [List.getLast?_cons_cons] at last
        exact absurd (List.mem_of_getLast? last) missing
  · rintro rfl
    exact ring.segment.1

end Links

end Lib
