import Pqxx.Lib.Links
import Pqxx.Lib.Run

set_option autoImplicit false

namespace Pqxx

open Lib

variable {ν : Type} [DecidableEq ν]

-- refcount's m_l and m_r, for every address that one may be at.
structure Refcounts (ν : Type) where
  left : ν → ν
  right : ν → ν

namespace Refcounts

def setLeft (r : Refcounts ν) (i l : ν) : Refcounts ν := { r with left := fun j => if j = i then l else r.left j }

def setRight (r : Refcounts ν) (i x : ν) : Refcounts ν := { r with right := fun j => if j = i then x else r.right j }

-- The constructor.
def refcount (r : Refcounts ν) (i : ν) : Refcounts ν := (r.setLeft i i).setRight i i

def makeref (r : Refcounts ν) (i rhs : ν) : Refcounts ν :=
  let r := r.setLeft i rhs
  let r := r.setRight i (r.right rhs)
  let r := r.setLeft (r.right i) i
  r.setRight (r.left i) i

def loseref (r : Refcounts ν) (i : ν) : Bool × Refcounts ν :=
  let result := decide (r.left i = i)
  let r := r.setLeft (r.right i) (r.left i)
  let r := r.setRight (r.left i) (r.right i)
  (result, (r.setLeft i i).setRight i i)

omit [DecidableEq ν] in
def links (r : Refcounts ν) : Links ν := ⟨fun i => some (r.left i), fun i => some (r.right i)⟩

end Refcounts

-- The PQAlloc objects that there are, with m_Obj, where none is a null pointer, and m_rc;
-- and the pointers given to DELETER so far.
structure PqAllocs (ν : Type) where
  obj : ν → Option (Option Nat)
  rc : Refcounts ν
  deleted : List Nat

inductive AllocOp (ν : Type) where
  | make (i : ν)
  | adopt (i : ν) (obj : Option Nat)
  | copy (i rhs : ν)
  | assign (i rhs : ν)
  | swap (i rhs tmp : ν)
  | reset (i : ν)
  | destroy (i : ν)
deriving DecidableEq, Repr

namespace PqAllocs

def setObj (s : PqAllocs ν) (i : ν) (obj : Option (Option Nat)) : PqAllocs ν := { s with obj := fun j => if j = i then obj else s.obj j }

def construct (s : PqAllocs ν) (i : ν) (obj : Option Nat) : PqAllocs ν := { s.setObj i (some obj) with rc := s.rc.refcount i }

def makeref (s : PqAllocs ν) (i rhs : ν) : PqAllocs ν := { s.setObj i (s.obj rhs) with rc := s.rc.makeref i rhs }

def loseref (s : PqAllocs ν) (i : ν) : PqAllocs ν :=
  let (last, rc) := s.rc.loseref i
  { s.setObj i (some none) with rc, deleted := if last then s.deleted ++ (s.obj i).join.toList else s.deleted }

def redoref (s : PqAllocs ν) (i rhs : ν) : PqAllocs ν := if s.obj rhs ≠ s.obj i then (s.loseref i).makeref i rhs else s

def copy (s : PqAllocs ν) (i rhs : ν) : PqAllocs ν := (s.construct i none).makeref i rhs

-- The destructor, and that of m_rc after it.
def destroy (s : PqAllocs ν) (i : ν) : PqAllocs ν :=
  let s := s.loseref i
  { s.setObj i none with rc := (s.rc.loseref i).2 }

def swap (s : PqAllocs ν) (i rhs tmp : ν) : PqAllocs ν :=
  (((s.copy tmp i).redoref i rhs).redoref rhs tmp).destroy tmp

def perform (s : PqAllocs ν) : AllocOp ν → PqAllocs ν
  | .make i => s.construct i none
  | .adopt i obj => s.construct i obj
  | .copy i rhs => s.copy i rhs
  | .assign i rhs => s.redoref i rhs
  | .swap i rhs tmp => s.swap i rhs tmp
  | .reset i => s.loseref i
  | .destroy i => s.destroy i

-- A new object, swap's temporary one included, is at an address where there is none, and
-- the others are there.
omit [DecidableEq ν] in
def Feasible (s : PqAllocs ν) : AllocOp ν → Prop
  | .make i | .adopt i _ => (s.obj i).isNone = true
  | .copy i rhs => (s.obj i).isNone = true ∧ (s.obj rhs).isSome = true
  | .assign i rhs => (s.obj i).isSome = true ∧ (s.obj rhs).isSome = true
  | .swap i rhs tmp => ((s.obj i).isSome = true ∧ (s.obj rhs).isSome = true) ∧ (s.obj tmp).isNone = true
  | .reset i | .destroy i => (s.obj i).isSome = true

instance decidableFeasible (s : PqAllocs ν) : ∀ op, Decidable (s.Feasible op)
  | .make i | .adopt i _ => inferInstanceAs (Decidable ((s.obj i).isNone = true))
  | .copy i rhs => inferInstanceAs (Decidable ((s.obj i).isNone = true ∧ (s.obj rhs).isSome = true))
  | .assign i rhs => inferInstanceAs (Decidable ((s.obj i).isSome = true ∧ (s.obj rhs).isSome = true))
  | .swap i rhs tmp => inferInstanceAs (Decidable (((s.obj i).isSome = true ∧ (s.obj rhs).isSome = true) ∧ (s.obj tmp).isNone = true))
  | .reset i | .destroy i => inferInstanceAs (Decidable ((s.obj i).isSome = true))

omit [DecidableEq ν] in
-- Before the first object is made; what is in the links does not matter.
def initial (rc : Refcounts ν) : PqAllocs ν := { obj := fun _ => none, rc, deleted := [] }

end PqAllocs

-- The raw pointers that objects are constructed from.
def AllocOp.adopts : AllocOp ν → List Nat
  | .adopt _ obj => obj.toList
  | .make _ | .copy _ _ | .assign _ _ | .swap _ _ _ | .reset _ | .destroy _ => []

def adopted (ops : List (AllocOp ν)) : List Nat := ops.flatMap AllocOp.adopts

-- Every object is in a ring, with all others in it at one and the same pointer, and the
-- rings do not meet. Whoever has the same pointer is in the same ring, unless it is null.
structure Held (s : PqAllocs ν) (ring : ν → List ν) : Prop where
  rings : ∀ i, (s.obj i).isSome = true → Links.Ring s.rc.links (ring i) ∧ i ∈ ring i
  shared : ∀ i j, (s.obj i).isSome = true → j ∈ ring i → ring j = ring i ∧ s.obj j = s.obj i
  joined : ∀ i j p, s.obj i = some (some p) → s.obj j = some (some p) → ring j = ring i

-- A pointer goes to DELETER when no object has it any more, and not again.
structure Reckoned (s : PqAllocs ν) (raw : List Nat) : Prop where
  owned : ∀ i p, s.obj i = some (some p) → p ∈ raw
  held : ∀ i p, s.obj i = some (some p) → s.deleted.count p = 0
  released : ∀ p ∈ raw, (∀ i, s.obj i ≠ some (some p)) → s.deleted.count p = 1
  never : ∀ p, p ∉ raw → s.deleted.count p = 0

theorem set_left_links (r : Refcounts ν) (i l : ν) : (r.setLeft i l).links = r.links.setPrev i (some l) := by
  simp only [Refcounts.links, Refcounts.setLeft, Links.setPrev]
  congr
  funext j
  split
  · rfl
  · rfl

theorem set_right_links (r : Refcounts ν) (i x : ν) : (r.setRight i x).links = r.links.setNext i (some x) := by
  simp only [Refcounts.links, Refcounts.setRight, Links.setNext]
  congr
  funext j
  split
  · rfl
  · rfl

theorem refcount_links (r : Refcounts ν) (i : ν) : (r.refcount i).links = (r.links.setPrev i (some i)).setNext i (some i) := by
  rw [Refcounts.refcount, set_right_links, set_left_links]

theorem makeref_links (r : Refcounts ν) {i rhs : ν} (outside : r.right rhs ≠ i) : (r.makeref i rhs).links = r.links.insertAfter rhs i := by
  have next : ((r.setLeft i rhs).setRight i (r.right rhs)).right i = r.right rhs := if_pos rfl
  have prev : (((r.setLeft i rhs).setRight i (r.right rhs)).setLeft (r.right rhs) i).left i = rhs := by
    rw [Refcounts.setLeft]
    exact (if_neg (Ne.symm outside)).trans (if_pos rfl)
  have made : r.makeref i rhs = (((r.setLeft i rhs).setRight i (r.right rhs)).setLeft (r.right rhs) i).setRight rhs i := by
    have same : (r.setLeft i rhs).right rhs = r.right rhs := rfl
    simp only [Refcounts.makeref, same, next, prev]
  rw [made, set_right_links, set_left_links, set_right_links, set_left_links]
  rfl

theorem loseref_links (r : Refcounts ν) (i : ν) : (r.loseref i).2.links = r.links.detach i := by
  have prev : (r.setLeft (r.right i) (r.left i)).left i = r.left i := by
    simp only [Refcounts.setLeft]
    split
    · rfl
    · rfl
  have lost : (r.loseref i).2 = (((r.setLeft (r.right i) (r.left i)).setRight (r.left i) (r.right i)).setLeft i i).setRight i i := by
    have same : (r.setLeft (r.right i) (r.left i)).right i = r.right i := rfl
    simp only [Refcounts.loseref, prev, same]
  rw [lost, set_right_links, set_left_links, set_right_links, set_left_links]
  rfl

def setRing (ring : ν → List ν) (ys : List ν) : ν → List ν := fun j => if j ∈ ys then ys else ring j

theorem set_ring_in (ring : ν → List ν) {ys : List ν} {j : ν} (there : j ∈ ys) : setRing ring ys j = ys := if_pos there

theorem set_ring_out (ring : ν → List ν) {ys : List ν} {j : ν} (out : j ∉ ys) : setRing ring ys j = ring j := if_neg out

theorem set_obj_same (s : PqAllocs ν) (i : ν) (obj : Option (Option Nat)) : (s.setObj i obj).obj i = obj := if_pos rfl

theorem set_obj_other (s : PqAllocs ν) {i j : ν} (obj : Option (Option Nat)) (apart : j ≠ i) : (s.setObj i obj).obj j = s.obj j :=
  if_neg apart

section

omit [DecidableEq ν]

variable {s : PqAllocs ν} {ring : ν → List ν}

theorem Held.live (held : Held s ring) {i j : ν} (live : (s.obj i).isSome = true) (there : j ∈ ring i) : (s.obj j).isSome = true := by
  rw [(held.shared i j live there).2]
  exact live

theorem Held.back (held : Held s ring) {i j : ν} (live : (s.obj i).isSome = true) (there : j ∈ ring i) : i ∈ ring j := by
  rw [(held.shared i j live there).1]
  exact (held.rings i live).2

theorem Held.alone (held : Held s ring) {i j : ν} (alone : ring i = [i]) (live : (s.obj j).isSome = true) (there : i ∈ ring j) : j = i := by
  have back := held.back live there
  rw [alone] at back
  exact List.mem_singleton.mp back

end

-- Some objects make up a new ring, and nothing changes among the others.
theorem regroup {s : PqAllocs ν} {ring : ν → List ν} {ys : List ν} {o : Option Nat} (formed : Links.Ring s.rc.links ys)
    (equal : ∀ k ∈ ys, s.obj k = some o)
    (others : ∀ j, (s.obj j).isSome = true → j ∉ ys → (Links.Ring s.rc.links (ring j) ∧ j ∈ ring j) ∧
      ∀ k ∈ ring j, k ∉ ys ∧ ring k = ring j ∧ s.obj k = s.obj j)
    (joined : ∀ i j p, i ∉ ys → j ∉ ys → s.obj i = some (some p) → s.obj j = some (some p) → ring j = ring i)
    (apart : ∀ p, o = some p → ∀ j, j ∉ ys → s.obj j ≠ some (some p)) : Held s (setRing ring ys) := by
  constructor
  · intro i live
    by_cases inside : i ∈ ys
    · rw [set_ring_in ring inside]
      exact ⟨formed, inside⟩
    · rw [set_ring_out ring inside]
      exact (others i live inside).1
  · intro i j live there
    by_cases inside : i ∈ ys
    · rw [set_ring_in ring inside] at there ⊢
      rw [set_ring_in ring there, equal i inside, equal j there]
      exact ⟨rfl, rfl⟩
    · rw [set_ring_out ring inside] at there ⊢
      obtain ⟨out, same, obj⟩ := (others i live inside).2 j there
      rw [set_ring_out ring out]
      exact ⟨same, obj⟩
  · intro i j p one other
    by_cases inside : i ∈ ys
    · have pointer : o = some p := Option.some.inj ((equal i inside).symm.trans one)
      have along : j ∈ ys := by
        by_contra out
        exact apart p pointer j out other
      rw [set_ring_in ring inside, set_ring_in ring along]
    · have out : j ∉ ys := by
        intro along
        have pointer : o = some p := Option.some.inj ((equal j along).symm.trans other)
        exact apart p pointer i inside one
      rw [set_ring_out ring inside, set_ring_out ring out]
      exact joined i j p inside out one other

theorem construct_held {s : PqAllocs ν} {ring : ν → List ν} (held : Held s ring) {i : ν} {obj : Option Nat} (absent : s.obj i = none)
    (new : ∀ p, obj = some p → ∀ j, s.obj j ≠ some (some p)) : Held (s.construct i obj) (setRing ring [i]) := by
  have objs {j : ν} (apart : j ≠ i) : (s.construct i obj).obj j = s.obj j := set_obj_other s _ apart
  have out {j : ν} (other : j ∉ [i]) : j ≠ i := fun same => other (List.mem_singleton.mpr same)
  have links : (s.construct i obj).rc.links = (s.rc.links.setPrev i (some i)).setNext i (some i) := refcount_links s.rc i
  refine regroup (o := obj) ?_ ?_ ?_ ?_ ?_
  · rw [links]
    exact ⟨⟨if_pos rfl, if_pos rfl, trivial⟩, List.nodup_singleton i⟩
  · intro k here
    rw [List.mem_singleton.mp here]
    exact set_obj_same s i _
  · intro j live other
    rw [objs (out other)] at live
    obtain ⟨formed, own⟩ := held.rings j live
    have apart {k : ν} (there : k ∈ ring j) : k ≠ i := by
      rintro rfl
      have present := held.live live there
      rw [absent] at present
      cases present
    refine ⟨⟨Links.ring_frame formed fun k there => ?_, own⟩, fun k there => ?_⟩
    · rw [links]
      exact (Links.set_prev_same _ _ (apart there)).trans (Links.set_next_same _ _ (apart there))
    · obtain ⟨same, equal⟩ := held.shared j k live there
      rw [objs (apart there), objs (out other)]
      exact ⟨fun here => apart there (List.mem_singleton.mp here), same, equal⟩
  · intro a b p outA outB one other
    rw [objs (out outA)] at one
    rw [objs (out outB)] at other
    exact held.joined a b p one other
  · intro p pointer j other
    rw [objs (out other)]
    exact new p pointer j

theorem makeref_held {s : PqAllocs ν} {ring : ν → List ν} (held : Held s ring) {i rhs : ν} {o : Option Nat} (alone : ring i = [i])
    (live : (s.obj i).isSome = true) (apart : i ≠ rhs) (there : s.obj rhs = some o) : ∃ ring', Held (s.makeref i rhs) ring' := by
  have rhsLive : (s.obj rhs).isSome = true := by rw [there]; rfl
  obtain ⟨formed, own⟩ := held.rings rhs rhsLive
  have new : i ∉ ring rhs := fun inside => apart (held.alone alone rhsLive inside).symm
  have outside : s.rc.right rhs ≠ i := by
    intro same
    exact new (Links.ring_member formed own (.inr (congrArg some same)))
  obtain ⟨ys, grown, perm, kept⟩ := Links.ring_insert formed own new
  rw [← makeref_links s.rc outside] at grown kept
  have objs {j : ν} (other : j ≠ i) : (s.makeref i rhs).obj j = s.obj j := set_obj_other s _ other
  have newcomer : (s.makeref i rhs).obj i = some o := (set_obj_same s i _).trans there
  have members {k : ν} : k ∈ ys ↔ k = i ∨ k ∈ ring rhs := perm.mem_iff.trans List.mem_cons
  have out {j : ν} (other : j ∉ ys) : j ≠ i ∧ j ∉ ring rhs := not_or.mp fun either => other (members.mpr either)
  refine ⟨setRing ring ys, regroup (o := o) grown ?_ ?_ ?_ ?_⟩
  · intro k inside
    rcases members.mp inside with rfl | among
    · exact newcomer
    · have other : k ≠ i := by
        rintro rfl
        exact new among
      rw [objs other, (held.shared rhs k rhsLive among).2, there]
  · intro j liveJ outJ
    obtain ⟨otherJ, awayJ⟩ := out outJ
    rw [objs otherJ] at liveJ
    obtain ⟨ringJ, ownJ⟩ := held.rings j liveJ
    have outK {k : ν} (thereK : k ∈ ring j) : k ≠ i ∧ k ∉ ring rhs := by
      constructor
      · rintro rfl
        exact otherJ (held.alone alone liveJ thereK)
      · intro among
        have back := held.back liveJ thereK
        rw [(held.shared rhs k rhsLive among).1] at back
        exact awayJ back
    refine ⟨⟨Links.ring_frame ringJ fun k thereK => kept k ?_, ownJ⟩, fun k thereK => ?_⟩
    · rw [List.mem_cons]
      exact not_or.mpr (outK thereK)
    · obtain ⟨same, equal⟩ := held.shared j k liveJ thereK
      rw [objs (outK thereK).1, objs otherJ]
      exact ⟨fun inside => (not_or.mpr (outK thereK)) (members.mp inside), same, equal⟩
  · intro a b p outA outB one other
    rw [objs (out outA).1] at one
    rw [objs (out outB).1] at other
    exact held.joined a b p one other
  · intro p pointer j outJ other
    obtain ⟨otherJ, awayJ⟩ := out outJ
    rw [objs otherJ] at other
    rw [pointer] at there
    have same := held.joined rhs j p there other
    have live : (s.obj j).isSome = true := by rw [other]; rfl
    have ownJ := (held.rings j live).2
    rw [same] at ownJ
    exact awayJ ownJ

-- Leaving a ring. The object is then a ring of its own.
theorem loseref_held {s : PqAllocs ν} {ring : ν → List ν} (held : Held s ring) {i : ν} (live : (s.obj i).isSome = true) :
    ∃ ring', Held (s.loseref i) ring' ∧ ring' i = [i] := by
  obtain ⟨formed, own⟩ := held.rings i live
  obtain ⟨rest, left, perm, single, kept⟩ := Links.ring_detach formed own
  rw [← loseref_links] at left single kept
  have objs {j : ν} (other : j ≠ i) : (s.loseref i).obj j = s.obj j := set_obj_other s _ other
  have once := formed.once
  have members {k : ν} : k ∈ rest ↔ k ≠ i ∧ k ∈ ring i := perm.mem_iff.trans once.mem_erase_iff
  have out {j : ν} (other : j ∉ [i]) : j ≠ i := fun same => other (List.mem_singleton.mpr same)
  refine ⟨setRing (setRing ring rest) [i], regroup (o := none) single ?_ ?_ ?_ ?_, set_ring_in _ (List.mem_singleton.mpr rfl)⟩
  · intro k here
    rw [List.mem_singleton.mp here]
    exact set_obj_same s i _
  · intro j liveJ outJ
    have otherJ := out outJ
    rw [objs otherJ] at liveJ
    by_cases among : j ∈ rest
    · rw [set_ring_in ring among]
      refine ⟨⟨left, among⟩, fun k inside => ?_⟩
      have otherK := (members.mp inside).1
      have equalJ := (held.shared i j live (members.mp among).2).2
      have equalK := (held.shared i k live (members.mp inside).2).2
      rw [set_ring_in ring inside, objs otherK, objs otherJ, equalJ, equalK]
      exact ⟨fun same => otherK (List.mem_singleton.mp same), rfl, rfl⟩
    · rw [set_ring_out ring among]
      have away : j ∉ ring i := fun inside => among (members.mpr ⟨otherJ, inside⟩)
      have awayK {k : ν} (there : k ∈ ring j) : k ∉ ring i := by
        intro inside
        have back := held.back liveJ there
        rw [(held.shared i k live inside).1] at back
        exact away back
      refine ⟨⟨Links.ring_frame (held.rings j liveJ).1 fun k there => kept k (awayK there), (held.rings j liveJ).2⟩, fun k there => ?_⟩
      obtain ⟨same, equal⟩ := held.shared j k liveJ there
      have otherK : k ≠ i := by
        rintro rfl
        exact awayK there own
      rw [set_ring_out ring fun inside => awayK there (members.mp inside).2, objs otherK, objs otherJ]
      exact ⟨fun here => otherK (List.mem_singleton.mp here), same, equal⟩
  · intro a b p outA outB one other
    have otherA := out outA
    have otherB := out outB
    rw [objs otherA] at one
    rw [objs otherB] at other
    have same := held.joined a b p one other
    have ownA := (held.rings a (by rw [one]; rfl)).2
    have ownB := (held.rings b (by rw [other]; rfl)).2
    by_cases among : a ∈ rest
    · have along : b ∈ rest := by
        rw [same, (held.shared i a live (members.mp among).2).1] at ownB
        exact members.mpr ⟨otherB, ownB⟩
      rw [set_ring_in ring among, set_ring_in ring along]
    · have away : b ∉ rest := by
        intro along
        rw [← same, (held.shared i b live (members.mp along).2).1] at ownA
        exact among (members.mpr ⟨otherA, ownA⟩)
      rw [set_ring_out ring among, set_ring_out ring away, same]
  · exact fun p pointer => nomatch pointer

-- What the destructor of m_rc does comes to nothing.
theorem vanish_held {s : PqAllocs ν} {ring : ν → List ν} (held : Held s ring) {i : ν} (alone : ring i = [i]) (live : (s.obj i).isSome = true) :
    Held { s.setObj i none with rc := (s.rc.loseref i).2 } ring := by
  obtain ⟨formed, own⟩ := held.rings i live
  obtain ⟨-, -, -, -, kept⟩ := Links.ring_detach formed own
  rw [← loseref_links, alone] at kept
  have present {j : ν} (liveJ : ((s.setObj i none).obj j).isSome = true) : j ≠ i := by
    rintro rfl
    rw [set_obj_same] at liveJ
    cases liveJ
  have apart {j k : ν} (liveJ : (s.obj j).isSome = true) (otherJ : j ≠ i) (there : k ∈ ring j) : k ≠ i := by
    rintro rfl
    exact otherJ (held.alone alone liveJ there)
  have before {j : ν} (liveJ : ((s.setObj i none).obj j).isSome = true) : (s.obj j).isSome = true := by
    rw [set_obj_other s none (present liveJ)] at liveJ
    exact liveJ
  constructor
  · intro j liveJ
    obtain ⟨formedJ, ownJ⟩ := held.rings j (before liveJ)
    refine ⟨Links.ring_frame formedJ fun k there => kept k fun here => ?_, ownJ⟩
    exact apart (before liveJ) (present liveJ) there (List.mem_singleton.mp here)
  · intro j k liveJ there
    obtain ⟨same, equal⟩ := held.shared j k (before liveJ) there
    refine ⟨same, ?_⟩
    have otherK := apart (before liveJ) (present liveJ) there
    exact (set_obj_other s none otherK).trans (equal.trans (set_obj_other s none (present liveJ)).symm)
  · intro a b p one other
    have otherA := present (j := a) (by rw [one]; rfl)
    have otherB := present (j := b) (by rw [other]; rfl)
    exact held.joined a b p ((set_obj_other s none otherA).symm.trans one) ((set_obj_other s none otherB).symm.trans other)

omit [DecidableEq ν] in
-- Whether anybody has a pointer is all that counts.
theorem reckoned_same {s next : PqAllocs ν} {raw : List Nat} (reckoned : Reckoned s raw) (deleted : next.deleted = s.deleted)
    (kept : ∀ p, (∃ i, next.obj i = some (some p)) ↔ ∃ i, s.obj i = some (some p)) : Reckoned next raw := by
  constructor
  · intro i p found
    obtain ⟨j, there⟩ := (kept p).mp ⟨i, found⟩
    exact reckoned.owned j p there
  · intro i p found
    obtain ⟨j, there⟩ := (kept p).mp ⟨i, found⟩
    rw [deleted]
    exact reckoned.held j p there
  · intro p taken nobody
    rw [deleted]
    exact reckoned.released p taken fun j there => by
      obtain ⟨i, found⟩ := (kept p).mpr ⟨j, there⟩
      exact nobody i found
  · intro p foreign
    rw [deleted]
    exact reckoned.never p foreign

theorem adopt_reckoned {s : PqAllocs ν} {raw : List Nat} (reckoned : Reckoned s raw) {i : ν} {p : Nat} (absent : s.obj i = none)
    (new : p ∉ raw) : Reckoned (s.construct i (some p)) (raw ++ [p]) := by
  have objs {j : ν} (apart : j ≠ i) : (s.construct i (some p)).obj j = s.obj j := set_obj_other s _ apart
  have own : (s.construct i (some p)).obj i = some (some p) := set_obj_same s i _
  constructor
  · intro j q found
    by_cases same : j = i
    · rw [same, own] at found
      exact List.mem_append_right raw (List.mem_singleton.mpr (Option.some.inj (Option.some.inj found)).symm)
    · rw [objs same] at found
      exact List.mem_append_left [p] (reckoned.owned j q found)
  · intro j q found
    by_cases same : j = i
    · rw [same, own] at found
      obtain rfl := Option.some.inj (Option.some.inj found)
      exact reckoned.never p new
    · rw [objs same] at found
      exact reckoned.held j q found
  · intro q taken nobody
    rcases List.mem_append.mp taken with before | here
    · apply reckoned.released q before
      intro j found
      have same : j ≠ i := by
        rintro rfl
        rw [absent] at found
        cases found
      exact nobody j ((objs same).trans found)
    · rw [List.mem_singleton.mp here] at nobody
      exact absurd own (nobody i)
  · intro q foreign
    exact reckoned.never q fun before => foreign (List.mem_append_left [p] before)

theorem makeref_reckoned {s : PqAllocs ν} {raw : List Nat} (reckoned : Reckoned s raw) {i rhs : ν} (null : s.obj i = some none)
    (apart : i ≠ rhs) : Reckoned (s.makeref i rhs) raw := by
  refine reckoned_same reckoned rfl fun p => ?_
  constructor
  · rintro ⟨j, found⟩
    by_cases same : j = i
    · rw [same] at found
      exact ⟨rhs, (set_obj_same s i _).symm.trans found⟩
    · exact ⟨j, (set_obj_other s _ same).symm.trans found⟩
  · rintro ⟨j, found⟩
    have other : j ≠ i := by
      rintro rfl
      rw [null] at found
      cases found
    exact ⟨j, (set_obj_other s _ other).trans found⟩

-- The last of a ring is the last to have the pointer.
theorem loseref_reckoned {s : PqAllocs ν} {ring : ν → List ν} {raw : List Nat} (held : Held s ring) (reckoned : Reckoned s raw) {i : ν}
    (live : (s.obj i).isSome = true) : Reckoned (s.loseref i) raw := by
  obtain ⟨formed, own⟩ := held.rings i live
  have objs {j : ν} (apart : j ≠ i) : (s.loseref i).obj j = s.obj j := set_obj_other s _ apart
  have null : (s.loseref i).obj i = some none := set_obj_same s i _
  have last : (s.rc.loseref i).1 = true ↔ ring i = [i] := by
    rw [← Links.ring_alone formed own, Refcounts.loseref, decide_eq_true_iff]
    exact ⟨congrArg some, Option.some.inj⟩
  have still {p : Nat} {j : ν} (found : (s.loseref i).obj j = some (some p)) : j ≠ i ∧ s.obj j = some (some p) := by
    have apart : j ≠ i := by
      rintro rfl
      rw [null] at found
      cases found
    exact ⟨apart, (objs apart).symm.trans found⟩
  by_cases freed : ring i = [i] ∧ ∃ p, s.obj i = some (some p)
  · obtain ⟨alone, p, found⟩ := freed
    have deleted : (s.loseref i).deleted = s.deleted ++ [p] := by
      simp only [PqAllocs.loseref, last.mpr alone, if_true, found]
      rfl
    have sole {j : ν} (there : s.obj j = some (some p)) : j = i := by
      have same := held.joined i j p found there
      have ownJ := (held.rings j (by rw [there]; rfl)).2
      rw [same, alone] at ownJ
      exact List.mem_singleton.mp ownJ
    have others {q : Nat} (apart : q ≠ p) : (s.loseref i).deleted.count q = s.deleted.count q := by
      rw [deleted, List.count_append, List.count_singleton, beq_eq_false_iff_ne.mpr (Ne.symm apart)]
      rfl
    constructor
    · exact fun j q there => reckoned.owned j q (still there).2
    · intro j q there
      have apart : q ≠ p := by
        rintro rfl
        exact (still there).1 (sole (still there).2)
      rw [others apart]
      exact reckoned.held j q (still there).2
    · intro q taken nobody
      by_cases same : q = p
      · rw [same, deleted, List.count_append, reckoned.held i p found, List.count_singleton_self]
      · rw [others same]
        refine reckoned.released q taken fun j there => ?_
        have apart : j ≠ i := by
          rintro rfl
          exact same (Option.some.inj (Option.some.inj (there.symm.trans found)))
        exact nobody j ((objs apart).trans there)
    · intro q foreign
      have apart : q ≠ p := by
        rintro rfl
        exact foreign (reckoned.owned i q found)
      rw [others apart]
      exact reckoned.never q foreign
  · have deleted : (s.loseref i).deleted = s.deleted := by
      simp only [PqAllocs.loseref]
      split
      · rename_i result
        have alone := last.mp result
        obtain ⟨obj, found⟩ := Option.isSome_iff_exists.mp live
        cases obj with
        | none => rw [found, Option.join_some, Option.toList_none, List.append_nil]
        | some p => exact absurd ⟨alone, p, found⟩ freed
      · rfl
    refine reckoned_same reckoned deleted fun p => ⟨fun ⟨j, there⟩ => ⟨j, (still there).2⟩, fun ⟨j, there⟩ => ?_⟩
    by_cases same : j = i
    · rw [same] at there
      have many : ring i ≠ [i] := fun alone => freed ⟨alone, p, there⟩
      rcases (formed.once.ne_singleton_iff i).mp many with empty | ⟨k, inside, apart⟩
      · rw [empty] at own
        exact absurd own List.not_mem_nil
      · exact ⟨k, (objs apart).trans ((held.shared i k live inside).2.trans there)⟩
    · exact ⟨j, (objs same).trans there⟩

def Kept (s : PqAllocs ν) (raw : List Nat) : Prop := ∃ ring, Held s ring ∧ Reckoned s raw

-- No object comes or goes.
def SameObjects (s next : PqAllocs ν) : Prop := ∀ i, (next.obj i).isSome = (s.obj i).isSome

theorem loseref_objects (s : PqAllocs ν) {i : ν} (live : (s.obj i).isSome = true) : SameObjects s (s.loseref i) := by
  intro j
  by_cases same : j = i
  · rw [same, live]
    exact congrArg Option.isSome (set_obj_same s i _)
  · exact congrArg Option.isSome (set_obj_other s _ same)

theorem makeref_objects (s : PqAllocs ν) {i rhs : ν} (live : (s.obj i).isSome = true) (there : (s.obj rhs).isSome = true) :
    SameObjects s (s.makeref i rhs) := by
  intro j
  by_cases same : j = i
  · rw [same, live, ← there]
    exact congrArg Option.isSome (set_obj_same s i _)
  · exact congrArg Option.isSome (set_obj_other s _ same)

theorem make_kept {s : PqAllocs ν} {raw : List Nat} (kept : Kept s raw) {i : ν} (absent : s.obj i = none) : Kept (s.construct i none) raw := by
  obtain ⟨ring, held, reckoned⟩ := kept
  refine ⟨_, construct_held held absent (fun p pointer => nomatch pointer), reckoned_same reckoned rfl fun p => ?_⟩
  constructor
  · rintro ⟨j, found⟩
    by_cases same : j = i
    · rw [same] at found
      cases (set_obj_same s i _).symm.trans found
    · exact ⟨j, (set_obj_other s _ same).symm.trans found⟩
  · rintro ⟨j, found⟩
    have other : j ≠ i := by
      rintro rfl
      rw [absent] at found
      cases found
    exact ⟨j, (set_obj_other s _ other).trans found⟩

theorem adopt_kept {s : PqAllocs ν} {raw : List Nat} (kept : Kept s raw) {i : ν} {p : Nat} (absent : s.obj i = none) (new : p ∉ raw) :
    Kept (s.construct i (some p)) (raw ++ [p]) := by
  obtain ⟨ring, held, reckoned⟩ := kept
  refine ⟨_, construct_held held absent fun q pointer j found => ?_, adopt_reckoned reckoned absent new⟩
  obtain rfl := Option.some.inj pointer
  exact new (reckoned.owned j p found)

-- An object that has just been made, or has let go of its pointer, joins another.
theorem join_kept {s : PqAllocs ν} {ring : ν → List ν} {raw : List Nat} (held : Held s ring) (reckoned : Reckoned s raw) {i rhs : ν}
    (alone : ring i = [i]) (null : s.obj i = some none) (apart : i ≠ rhs) (there : (s.obj rhs).isSome = true) : Kept (s.makeref i rhs) raw := by
  obtain ⟨o, found⟩ := Option.isSome_iff_exists.mp there
  obtain ⟨ring', joined⟩ := makeref_held held alone (by rw [null]; rfl) apart found
  exact ⟨ring', joined, makeref_reckoned reckoned null apart⟩

theorem copy_kept {s : PqAllocs ν} {raw : List Nat} (kept : Kept s raw) {i rhs : ν} (absent : s.obj i = none)
    (there : (s.obj rhs).isSome = true) : Kept (s.copy i rhs) raw := by
  obtain ⟨ring, held, reckoned⟩ := make_kept kept absent
  have apart : i ≠ rhs := by
    rintro rfl
    rw [absent] at there
    cases there
  have null : (s.construct i none).obj i = some none := set_obj_same s i _
  have live : ((s.construct i none).obj i).isSome = true := by rw [null]; rfl
  obtain ⟨formed, own⟩ := held.rings i live
  have self : (s.construct i none).rc.links.prev i = some i := by
    show (s.rc.refcount i).links.prev i = some i
    rw [refcount_links]
    exact if_pos rfl
  have alone := (Links.ring_alone formed own).mp self
  refine join_kept held reckoned alone null apart ?_
  rw [← there]
  exact congrArg Option.isSome (set_obj_other s _ (Ne.symm apart))

theorem redoref_kept {s : PqAllocs ν} {raw : List Nat} (kept : Kept s raw) {i rhs : ν} (live : (s.obj i).isSome = true)
    (there : (s.obj rhs).isSome = true) : Kept (s.redoref i rhs) raw ∧ SameObjects s (s.redoref i rhs) := by
  rw [PqAllocs.redoref]
  split
  · rename_i different
    obtain ⟨ring, held, reckoned⟩ := kept
    have apart : i ≠ rhs := by
      rintro rfl
      exact different rfl
    obtain ⟨ring', left, alone⟩ := loseref_held held live
    have lost := loseref_objects s live
    have still : ((s.loseref i).obj rhs).isSome = true := (lost rhs).trans there
    have own : ((s.loseref i).obj i).isSome = true := (lost i).trans live
    refine ⟨join_kept left (loseref_reckoned held reckoned live) alone (set_obj_same s i _) apart still, fun j => ?_⟩
    exact (makeref_objects _ own still j).trans (lost j)
  · exact ⟨kept, fun _ => rfl⟩

theorem reset_kept {s : PqAllocs ν} {raw : List Nat} (kept : Kept s raw) {i : ν} (live : (s.obj i).isSome = true) :
    Kept (s.loseref i) raw := by
  obtain ⟨ring, held, reckoned⟩ := kept
  obtain ⟨ring', left, -⟩ := loseref_held held live
  exact ⟨ring', left, loseref_reckoned held reckoned live⟩

theorem destroy_kept {s : PqAllocs ν} {raw : List Nat} (kept : Kept s raw) {i : ν} (live : (s.obj i).isSome = true) :
    Kept (s.destroy i) raw := by
  obtain ⟨ring, held, reckoned⟩ := kept
  obtain ⟨ring', left, alone⟩ := loseref_held held live
  have own : ((s.loseref i).obj i).isSome = true := (loseref_objects s live i).trans live
  have null : (s.loseref i).obj i = some none := set_obj_same s i _
  refine ⟨ring', vanish_held left alone own, reckoned_same (loseref_reckoned held reckoned live) rfl fun p => ?_⟩
  constructor
  · rintro ⟨j, found⟩
    have other : j ≠ i := by
      rintro rfl
      cases (set_obj_same (s.loseref j) j none).symm.trans found
    exact ⟨j, (set_obj_other (s.loseref i) none other).symm.trans found⟩
  · rintro ⟨j, found⟩
    have other : j ≠ i := by
      rintro rfl
      rw [null] at found
      cases found
    exact ⟨j, (set_obj_other (s.loseref i) none other).trans found⟩

theorem copy_objects (s : PqAllocs ν) {i rhs j : ν} (other : j ≠ i) : (s.copy i rhs).obj j = s.obj j :=
  (set_obj_other _ _ other).trans (set_obj_other s _ other)

theorem copy_live (s : PqAllocs ν) {i rhs : ν} (apart : rhs ≠ i) (there : (s.obj rhs).isSome = true) :
    ((s.copy i rhs).obj i).isSome = true := by
  have copied : (s.copy i rhs).obj i = s.obj rhs := (set_obj_same _ i _).trans (set_obj_other s _ apart)
  rw [copied]
  exact there

theorem swap_kept {s : PqAllocs ν} {raw : List Nat} (kept : Kept s raw) {i rhs tmp : ν} (live : (s.obj i).isSome = true)
    (there : (s.obj rhs).isSome = true) (absent : s.obj tmp = none) : Kept (s.swap i rhs tmp) raw := by
  have apart {j : ν} (present : (s.obj j).isSome = true) : j ≠ tmp := by
    rintro rfl
    rw [absent] at present
    cases present
  have copied := copy_kept kept absent live
  have one : ((s.copy tmp i).obj i).isSome = true := by
    rw [copy_objects s (apart live)]
    exact live
  have two : ((s.copy tmp i).obj rhs).isSome = true := by
    rw [copy_objects s (apart there)]
    exact there
  have three := copy_live s (apart live) live
  obtain ⟨first, firstSame⟩ := redoref_kept copied one two
  obtain ⟨second, secondSame⟩ := redoref_kept first ((firstSame rhs).trans two) ((firstSame tmp).trans three)
  exact destroy_kept second ((secondSame tmp).trans ((firstSame tmp).trans three))

theorem perform_kept {s : PqAllocs ν} {raw : List Nat} (kept : Kept s raw) (op : AllocOp ν) (feasible : s.Feasible op)
    (distinct : (raw ++ op.adopts).Nodup) : Kept (s.perform op) (raw ++ op.adopts) := by
  have unchanged : raw ++ [] = raw := List.append_nil raw
  cases op with
  | make i =>
      rw [AllocOp.adopts, unchanged]
      exact make_kept kept (Option.isNone_iff_eq_none.mp feasible)
  | adopt i obj =>
      have absent := Option.isNone_iff_eq_none.mp feasible
      cases obj with
      | none =>
          rw [AllocOp.adopts, Option.toList_none, unchanged]
          exact make_kept kept absent
      | some p =>
          refine adopt_kept kept absent fun before => ?_
          exact (List.nodup_append.mp distinct).2.2 p before p (List.mem_singleton.mpr rfl) rfl
  | copy i rhs =>
      rw [AllocOp.adopts, unchanged]
      exact copy_kept kept (Option.isNone_iff_eq_none.mp feasible.1) feasible.2
  | assign i rhs =>
      rw [AllocOp.adopts, unchanged]
      exact (redoref_kept kept feasible.1 feasible.2).1
  | swap i rhs tmp =>
      rw [AllocOp.adopts, unchanged]
      exact swap_kept kept feasible.1.1 feasible.1.2 (Option.isNone_iff_eq_none.mp feasible.2)
  | reset i =>
      rw [AllocOp.adopts, unchanged]
      exact reset_kept kept feasible
  | destroy i =>
      rw [AllocOp.adopts, unchanged]
      exact destroy_kept kept feasible

-- By induction on the operations; the pointers of those before are in raw.
theorem run_kept (ops : List (AllocOp ν)) {s : PqAllocs ν} {raw : List Nat} (kept : Kept s raw)
    (feasible : Along PqAllocs.Feasible PqAllocs.perform s ops) (distinct : (raw ++ adopted ops).Nodup) :
    Kept (run PqAllocs.perform s ops) (raw ++ adopted ops) := by
  induction ops generalizing s raw with
  | nil =>
      rw [adopted, List.flatMap_nil, List.append_nil]
      exact kept
  | cons op ops ih =>
      have split : raw ++ adopted (op :: ops) = (raw ++ op.adopts) ++ adopted ops := by
        rw [adopted, List.flatMap_cons, ← List.append_assoc]
        rfl
      rw [split] at distinct ⊢
      exact ih (perform_kept kept op feasible.1 (List.nodup_append.mp distinct).1) feasible.2 distinct

omit [DecidableEq ν] in
theorem initial_kept (rc : Refcounts ν) : Kept (PqAllocs.initial rc) [] := by
  refine ⟨fun _ => [], ⟨?_, ?_, ?_⟩, ⟨?_, ?_, ?_, ?_⟩⟩
  · exact fun i live => nomatch live
  · exact fun i j live => nomatch live
  · exact fun i j p one => nomatch one
  · exact fun i p found => nomatch found
  · exact fun i p found => nomatch found
  · exact fun p taken => absurd taken List.not_mem_nil
  · exact fun p foreign => List.count_nil

-- Two rings that meet are one.
omit [DecidableEq ν] in
theorem Held.disjoint {s : PqAllocs ν} {ring : ν → List ν} (held : Held s ring) {i j : ν} (one : (s.obj i).isSome = true)
    (other : (s.obj j).isSome = true) : ring i = ring j ∨ ∀ k ∈ ring i, k ∉ ring j := by
  by_cases meet : ∃ k ∈ ring i, k ∈ ring j
  · obtain ⟨k, inOne, inOther⟩ := meet
    exact .inl ((held.shared i k one inOne).1.symm.trans (held.shared j k other inOther).1)
  · exact .inr fun k inOne inOther => meet ⟨k, inOne, inOther⟩

-- In every state: the rings, and a pointer that some object has not been freed, one that
-- no object has any more has been freed once, and nothing else has been.
theorem reference_ring (rc : Refcounts ν) (ops : List (AllocOp ν)) (feasible : Along PqAllocs.Feasible PqAllocs.perform (PqAllocs.initial rc) ops)
    (distinct : (adopted ops).Nodup) :
    ∃ ring, Held (run PqAllocs.perform (PqAllocs.initial rc) ops) ring ∧
      (∀ i j, ((run PqAllocs.perform (PqAllocs.initial rc) ops).obj i).isSome = true →
        ((run PqAllocs.perform (PqAllocs.initial rc) ops).obj j).isSome = true → ring i = ring j ∨ ∀ k ∈ ring i, k ∉ ring j) ∧
      Reckoned (run PqAllocs.perform (PqAllocs.initial rc) ops) (adopted ops) := by
  obtain ⟨ring, held, reckoned⟩ := run_kept ops (initial_kept rc) feasible (by rw [List.nil_append]; exact distinct)
  rw [List.nil_append] at reckoned
  exact ⟨ring, held, fun i j one other => held.disjoint one other, reckoned⟩

theorem reference_ring_swaps :
    let ops : List (AllocOp Nat) :=
      [.adopt 1 (some 70), .copy 2 1, .make 3, .adopt 4 (some 80), .assign 3 4, .swap 1 4 9, .swap 2 2 9, .reset 2, .copy 5 2, .destroy 4]
    ∃ ring, Held (run PqAllocs.perform (PqAllocs.initial ⟨id, id⟩) ops) ring ∧
      (∀ i j, ((run PqAllocs.perform (PqAllocs.initial ⟨id, id⟩) ops).obj i).isSome = true →
        ((run PqAllocs.perform (PqAllocs.initial ⟨id, id⟩) ops).obj j).isSome = true → ring i = ring j ∨ ∀ k ∈ ring i, k ∉ ring j) ∧
      Reckoned (run PqAllocs.perform (PqAllocs.initial ⟨id, id⟩) ops) (adopted ops) :=
  reference_ring _ _ (by decide) (by decide)

end Pqxx
