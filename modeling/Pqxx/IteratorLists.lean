import Pqxx.Icursorstream
import Pqxx.Lib.Links

set_option autoImplicit false

namespace Pqxx

open Lib

variable {κ ρ : Type} [DecidableEq κ]

-- icursor_iterator's members but for its links; the streams are those of κ.
structure StreamIterator (κ ρ : Type) where
  stream : Option κ
  here : List ρ
  pos : Int
deriving DecidableEq

-- What icursorstream's members say to its iterators.
structure StreamHead where
  stride : Int
  realpos : Int
  reqpos : Int
  iterators : Option Nat
deriving DecidableEq, Repr

-- The iterators that there are, each at its address, with m_prev and m_next in links.
structure IteratorHeap (κ ρ : Type) where
  stream : κ → StreamHead
  iterator : Nat → Option (StreamIterator κ ρ)
  links : Links Nat

inductive ListOp (κ : Type) where
  | create (i : Nat)
  | createOn (i : Nat) (s : κ)
  | copy (i rhs : Nat)
  | assign (i rhs : Nat)
  | advance (i : Nat) (n : Int)
  | destroy (i : Nat)
deriving DecidableEq, Repr

namespace IteratorHeap

def setStream (h : IteratorHeap κ ρ) (s : κ) (x : StreamHead) : IteratorHeap κ ρ :=
  { h with stream := fun t => if t = s then x else h.stream t }

omit [DecidableEq κ] in
def setIterator (h : IteratorHeap κ ρ) (i : Nat) (it : Option (StreamIterator κ ρ)) : IteratorHeap κ ρ :=
  { h with iterator := fun j => if j = i then it else h.iterator j }

def forward (h : IteratorHeap κ ρ) (s : κ) (n : Int) : IteratorHeap κ ρ × Int :=
  let reqpos := Icursorstream.wrap ((h.stream s).reqpos + n * (h.stream s).stride)
  (h.setStream s { h.stream s with reqpos }, reqpos)

def insertIterator (h : IteratorHeap κ ρ) (s : κ) (i : Nat) : IteratorHeap κ ρ :=
  { h.setStream s { h.stream s with iterators := some i } with links := h.links.push (h.stream s).iterators i }

-- None where it follows a null m_prev.
def removeIterator (h : IteratorHeap κ ρ) (s : κ) (i : Nat) : Option (IteratorHeap κ ρ) := do
  let (links, iterators) ← h.links.unlink (h.stream s).iterators i
  some { h.setStream s { h.stream s with iterators } with links }

-- The members of a new iterator.
omit [DecidableEq κ] in
def construct (h : IteratorHeap κ ρ) (i : Nat) (it : StreamIterator κ ρ) : IteratorHeap κ ρ :=
  { h.setIterator i (some it) with links := (h.links.setPrev i none).setNext i none }

-- Where there is a stream, to be put on its list or taken off it.
def join (h : IteratorHeap κ ρ) (i : Nat) (stream : Option κ) : IteratorHeap κ ρ := stream.elim h fun s => h.insertIterator s i

def leave (h : IteratorHeap κ ρ) (i : Nat) (stream : Option κ) : Option (IteratorHeap κ ρ) :=
  stream.elim (some h) fun s => h.removeIterator s i

def assign (h : IteratorHeap κ ρ) (i : Nat) (it rhs : StreamIterator κ ρ) : Option (IteratorHeap κ ρ) :=
  if rhs.stream = it.stream then some (h.setIterator i (some { it with here := rhs.here, pos := rhs.pos }))
  else do
    let h ← h.leave i it.stream
    some ((h.setIterator i (some { stream := rhs.stream, here := rhs.here, pos := rhs.pos })).join i rhs.stream)

-- operator+=; a negative offset is refused.
def advance (h : IteratorHeap κ ρ) (i : Nat) (it : StreamIterator κ ρ) (n : Int) : Option (IteratorHeap κ ρ) :=
  if n ≤ 0 then some h
  else do
    let s ← it.stream
    let (h, pos) := h.forward s n
    some (h.setIterator i (some { it with pos, here := [] }))

def perform (h : IteratorHeap κ ρ) : ListOp κ → Option (IteratorHeap κ ρ)
  | .create i => some (h.construct i { stream := none, here := [], pos := 0 })
  | .createOn i s =>
      let (h, pos) := h.forward s 0
      some ((h.construct i { stream := some s, here := [], pos }).insertIterator s i)
  | .copy i rhs => do
      let rhs ← h.iterator rhs
      some ((h.construct i rhs).join i rhs.stream)
  | .assign i rhs => do
      let it ← h.iterator i
      let rhs ← h.iterator rhs
      h.assign i it rhs
  | .advance i n => do
      let it ← h.iterator i
      h.advance i it n
  | .destroy i => do
      let it ← h.iterator i
      let h ← h.leave i it.stream
      some (h.setIterator i none)

def run (h : IteratorHeap κ ρ) : List (ListOp κ) → Option (IteratorHeap κ ρ)
  | [] => some h
  | op :: ops => do
      let h ← h.perform op
      h.run ops

-- A new object is at an address where there is none, and all others that are named are
-- there. Only an iterator on a stream is advanced.
omit [DecidableEq κ] in
def Feasible (h : IteratorHeap κ ρ) : ListOp κ → Prop
  | .create i | .createOn i _ => (h.iterator i).isNone = true
  | .copy i rhs => (h.iterator i).isNone = true ∧ (h.iterator rhs).isSome = true
  | .assign i rhs => (h.iterator i).isSome = true ∧ (h.iterator rhs).isSome = true
  | .advance i _ => ((h.iterator i).bind StreamIterator.stream).isSome = true
  | .destroy i => (h.iterator i).isSome = true

def Allowed (h : IteratorHeap κ ρ) : List (ListOp κ) → Prop
  | [] => True
  | op :: ops => h.Feasible op ∧ match h.perform op with
      | none => True
      | some next => next.Allowed ops

omit [DecidableEq κ] in
instance decidableFeasible (h : IteratorHeap κ ρ) : ∀ op, Decidable (h.Feasible op)
  | .create i | .createOn i _ => inferInstanceAs (Decidable ((h.iterator i).isNone = true))
  | .copy i rhs => inferInstanceAs (Decidable ((h.iterator i).isNone = true ∧ (h.iterator rhs).isSome = true))
  | .assign i rhs => inferInstanceAs (Decidable ((h.iterator i).isSome = true ∧ (h.iterator rhs).isSome = true))
  | .advance i _ => inferInstanceAs (Decidable (((h.iterator i).bind StreamIterator.stream).isSome = true))
  | .destroy i => inferInstanceAs (Decidable ((h.iterator i).isSome = true))

instance decidableAllowed : ∀ (h : IteratorHeap κ ρ) ops, Decidable (h.Allowed ops)
  | _, [] => inferInstanceAs (Decidable True)
  | h, op :: ops =>
      have : Decidable (match h.perform op with
          | none => True
          | some next => next.Allowed ops) :=
        match h.perform op with
        | none => inferInstanceAs (Decidable True)
        | some next => decidableAllowed next ops
      inferInstanceAs (Decidable (h.Feasible op ∧ _))

-- Streams before the first iterator is made.
omit [DecidableEq κ] in
def fresh (stream : κ → StreamHead) : IteratorHeap κ ρ :=
  { stream := fun s => { stream s with iterators := none }, iterator := fun _ => none, links := ⟨fun _ => none, fun _ => none⟩ }

-- The first loop in service_iterators, which collects in todo the iterators from m_realpos
-- up to topos. None is a step too many, or to an iterator that is not there.
def collect (h : IteratorHeap κ ρ) (s : κ) (topos : Int) : Nat → Option Nat → OrdMap Int (List Nat) → Option (OrdMap Int (List Nat))
  | _, none, todo => some todo
  | 0, some _, _ => none
  | fuel + 1, some i, todo => do
      let it ← h.iterator i
      h.collect s topos fuel (h.links.next i)
        (if it.pos ≥ (h.stream s).realpos ∧ it.pos ≤ topos then todo.set it.pos ((todo.find it.pos).getD [] ++ [i]) else todo)

-- One of the streams as it looks where its iterators are a list.
def view (h : IteratorHeap κ ρ) (s : κ) (cur : CursorState ρ) (done : Bool) (iterators : List Nat) : Icursorstream ρ :=
  { cur, stride := (h.stream s).stride, realpos := (h.stream s).realpos, reqpos := (h.stream s).reqpos, iterators, done,
    iterator := fun i => (h.iterator i).map fun it => { stream := decide (it.stream = some s), here := it.here, pos := it.pos } }

end IteratorHeap

-- Each stream's chain is the list of the iterators on it.
structure Threaded (h : IteratorHeap κ ρ) (lists : κ → List Nat) : Prop where
  chains : ∀ s, Links.Chain h.links (h.stream s).iterators (lists s)
  live : ∀ s i, i ∈ lists s ↔ ∃ it, h.iterator i = some it ∧ it.stream = some s
  loose : ∀ i it, h.iterator i = some it → it.stream = none → h.links.prev i = none ∧ h.links.next i = none

-- The same while one iterator is on no list, whatever its members are by then.
structure ThreadedBut (h : IteratorHeap κ ρ) (lists : κ → List Nat) (i : Nat) : Prop where
  chains : ∀ s, Links.Chain h.links (h.stream s).iterators (lists s)
  live : ∀ s j, j ≠ i → (j ∈ lists s ↔ ∃ it, h.iterator j = some it ∧ it.stream = some s)
  loose : ∀ j it, j ≠ i → h.iterator j = some it → it.stream = none → h.links.prev j = none ∧ h.links.next j = none
  out : ∀ s, i ∉ lists s
  null : h.links.prev i = none ∧ h.links.next i = none

def setList (lists : κ → List Nat) (s : κ) (xs : List Nat) : κ → List Nat := fun t => if t = s then xs else lists t

section

omit [DecidableEq κ]

variable {h : IteratorHeap κ ρ} {lists : κ → List Nat} {i : Nat}

theorem Threaded.lone (threaded : Threaded h lists) {s t : κ} (here : i ∈ lists s) (there : i ∈ lists t) : s = t := by
  obtain ⟨it, found, onS⟩ := (threaded.live s i).mp here
  obtain ⟨other, again, onT⟩ := (threaded.live t i).mp there
  obtain rfl := Option.some.inj (found.symm.trans again)
  exact Option.some.inj (onS.symm.trans onT)

theorem set_iterator_other (h : IteratorHeap κ ρ) {i j : Nat} (it : Option (StreamIterator κ ρ)) (apart : j ≠ i) :
    (h.setIterator i it).iterator j = h.iterator j := if_neg apart

theorem set_iterator_same (h : IteratorHeap κ ρ) (i : Nat) (it : Option (StreamIterator κ ρ)) :
    (h.setIterator i it).iterator i = it := if_pos rfl

theorem ThreadedBut.members (threaded : ThreadedBut h lists i) (it : Option (StreamIterator κ ρ)) : ThreadedBut (h.setIterator i it) lists i where
  chains := threaded.chains
  live s j apart := by
    rw [set_iterator_other h it apart]
    exact threaded.live s j apart
  loose j it' apart found := by
    rw [set_iterator_other h it apart] at found
    exact threaded.loose j it' apart found
  out := threaded.out
  null := threaded.null

theorem ThreadedBut.gone (threaded : ThreadedBut h lists i) (gone : h.iterator i = none) : Threaded h lists where
  chains := threaded.chains
  live s j := by
    by_cases same : j = i
    · rw [same, gone]
      exact ⟨fun there => absurd there (threaded.out s), fun ⟨_, found, _⟩ => nomatch found⟩
    · exact threaded.live s j same
  loose j it found := by
    by_cases same : j = i
    · rw [same, gone] at found
      cases found
    · exact threaded.loose j it same found

theorem ThreadedBut.streamless (threaded : ThreadedBut h lists i) {it : StreamIterator κ ρ} (found : h.iterator i = some it)
    (off : it.stream = none) : Threaded h lists where
  chains := threaded.chains
  live s j := by
    by_cases same : j = i
    · rw [same]
      refine ⟨fun there => absurd there (threaded.out s), fun ⟨other, again, on⟩ => ?_⟩
      obtain rfl := Option.some.inj (found.symm.trans again)
      rw [off] at on
      cases on
    · exact threaded.live s j same
  loose j it found := by
    by_cases same : j = i
    · rw [same]
      exact fun _ => threaded.null
    · exact threaded.loose j it same found

theorem Threaded.members (threaded : Threaded h lists) {it new : StreamIterator κ ρ} (found : h.iterator i = some it)
    (same : new.stream = it.stream) : Threaded (h.setIterator i (some new)) lists := by
  have members (j : Nat) : ((h.setIterator i (some new)).iterator j).map StreamIterator.stream = (h.iterator j).map StreamIterator.stream := by
    by_cases here : j = i
    · rw [here, set_iterator_same, found, Option.map_some, Option.map_some, same]
    · rw [set_iterator_other h _ here]
  have on (j : Nat) (stream : Option κ) :
      (∃ it, (h.setIterator i (some new)).iterator j = some it ∧ it.stream = stream) ↔ ∃ it, h.iterator j = some it ∧ it.stream = stream := by
    rw [← Option.map_eq_some_iff, ← Option.map_eq_some_iff, members]
  refine ⟨threaded.chains, fun s j => (threaded.live s j).trans (on j (some s)).symm, fun j other there off => ?_⟩
  obtain ⟨before, here, loose⟩ := (on j none).mp ⟨other, there, off⟩
  exact threaded.loose j before here loose

theorem Threaded.absent (threaded : Threaded h lists) (absent : h.iterator i = none) (s : κ) : i ∉ lists s := by
  intro there
  obtain ⟨it, found, -⟩ := (threaded.live s i).mp there
  rw [absent] at found
  cases found

theorem Threaded.off (threaded : Threaded h lists) {it : StreamIterator κ ρ} (found : h.iterator i = some it) (off : it.stream = none) :
    ThreadedBut h lists i where
  chains := threaded.chains
  live s j _ := threaded.live s j
  loose j it _ := threaded.loose j it
  out s there := by
    obtain ⟨other, again, on⟩ := (threaded.live s i).mp there
    obtain rfl := Option.some.inj (found.symm.trans again)
    rw [off] at on
    cases on
  null := threaded.loose i it found off

theorem Threaded.construct (threaded : Threaded h lists) (absent : h.iterator i = none) (it : StreamIterator κ ρ) :
    ThreadedBut (h.construct i it) lists i := by
  have same {j : Nat} (apart : j ≠ i) : Links.Same h.links (h.construct i it).links j :=
    (Links.set_prev_same h.links none apart).trans (Links.set_next_same _ none apart)
  constructor
  · intro s
    refine Links.chain_frame (threaded.chains s) fun j there => same ?_
    rintro rfl
    exact threaded.absent absent s there
  · intro s j apart
    rw [threaded.live s j]
    exact iff_of_eq (by rw [IteratorHeap.construct, set_iterator_other h _ apart])
  · intro j other apart found
    have before : h.iterator j = some other := (set_iterator_other h _ apart).symm.trans found
    intro off
    obtain ⟨prev, next⟩ := threaded.loose j other before off
    exact ⟨(same apart).1.trans prev, (same apart).2.trans next⟩
  · exact threaded.absent absent
  · exact ⟨if_pos rfl, if_pos rfl⟩

end

section

variable {h : IteratorHeap κ ρ} {lists : κ → List Nat} {i : Nat}

theorem set_list_same (lists : κ → List Nat) (s : κ) (xs : List Nat) : setList lists s xs s = xs := if_pos rfl

theorem set_list_other (lists : κ → List Nat) {s t : κ} (xs : List Nat) (apart : t ≠ s) : setList lists s xs t = lists t := if_neg apart

theorem forward_threaded (threaded : Threaded h lists) (s : κ) (n : Int) : Threaded (h.forward s n).1 lists where
  chains t := by
    by_cases same : t = s
    · rw [same]
      have chain := threaded.chains s
      simp only [IteratorHeap.forward, IteratorHeap.setStream, if_true]
      exact chain
    · simp only [IteratorHeap.forward, IteratorHeap.setStream, if_neg same]
      exact threaded.chains t
  live := threaded.live
  loose := threaded.loose

theorem ThreadedBut.insert (threaded : ThreadedBut h lists i) {it : StreamIterator κ ρ} {s : κ} (found : h.iterator i = some it)
    (on : it.stream = some s) : Threaded (h.insertIterator s i) (setList lists s (i :: lists s)) := by
  have pushed := Links.push_chain (threaded.chains s) (threaded.out s) threaded.null.1
  have disjoint {t : κ} {j : Nat} (apart : t ≠ s) (there : j ∈ lists t) : j ∉ lists s := by
    intro here
    have other : j ≠ i := by
      rintro rfl
      exact threaded.out t there
    obtain ⟨one, found, onT⟩ := (threaded.live t j other).mp there
    obtain ⟨two, again, onS⟩ := (threaded.live s j other).mp here
    obtain rfl := Option.some.inj (found.symm.trans again)
    exact apart (Option.some.inj (onT.symm.trans onS))
  constructor
  · intro t
    by_cases same : t = s
    · rw [same, set_list_same]
      simp only [IteratorHeap.insertIterator, IteratorHeap.setStream, if_true]
      exact pushed
    · rw [set_list_other lists _ same]
      simp only [IteratorHeap.insertIterator, IteratorHeap.setStream, if_neg same]
      refine Links.chain_frame (threaded.chains t) fun j there => Links.push_same (threaded.chains s) ?_ (disjoint same there)
      rintro rfl
      exact threaded.out t there
  · intro t j
    by_cases same : t = s
    · rw [same, set_list_same, List.mem_cons]
      by_cases here : j = i
      · rw [here]
        exact iff_of_true (.inl rfl) ⟨it, found, on⟩
      · rw [or_iff_right here]
        exact threaded.live s j here
    · rw [set_list_other lists _ same]
      by_cases here : j = i
      · rw [here]
        refine iff_of_false (threaded.out t) fun ⟨other, again, onT⟩ => ?_
        obtain rfl := Option.some.inj (found.symm.trans again)
        exact same (Option.some.inj (onT.symm.trans on))
      · exact threaded.live t j here
  · intro j other there off
    have apart : j ≠ i := by
      rintro rfl
      obtain rfl := Option.some.inj (found.symm.trans there)
      rw [on] at off
      cases off
    have outside : j ∉ lists s := by
      intro here
      obtain ⟨one, again, onS⟩ := (threaded.live s j apart).mp here
      obtain rfl := Option.some.inj (again.symm.trans there)
      rw [off] at onS
      cases onS
    have kept := Links.push_same (threaded.chains s) apart outside
    obtain ⟨prev, next⟩ := threaded.loose j other apart there off
    exact ⟨kept.1.trans prev, kept.2.trans next⟩

theorem ThreadedBut.join (threaded : ThreadedBut h lists i) {it : StreamIterator κ ρ} (found : h.iterator i = some it) :
    ∃ lists, Threaded (h.join i it.stream) lists := by
  cases stream : it.stream with
  | none => exact ⟨lists, threaded.streamless found stream⟩
  | some s => exact ⟨_, threaded.insert found stream⟩

theorem Threaded.remove (threaded : Threaded h lists) {it : StreamIterator κ ρ} {s : κ} (found : h.iterator i = some it) (on : it.stream = some s) :
    ∃ next, h.removeIterator s i = some next ∧ next.iterator = h.iterator ∧ ThreadedBut next (setList lists s ((lists s).erase i)) i := by
  have listed : i ∈ lists s := (threaded.live s i).mpr ⟨it, found, on⟩
  obtain ⟨links, unlinked, chain, prev, next, kept⟩ := Links.unlink_chain (threaded.chains s) listed
  have once := (threaded.chains s).once
  refine ⟨{ h.setStream s { h.stream s with iterators := ((lists s).erase i).head? } with links }, ?_, rfl, ?_⟩
  · rw [IteratorHeap.removeIterator, unlinked]
    rfl
  constructor
  · intro t
    by_cases same : t = s
    · rw [same, set_list_same]
      simp only [IteratorHeap.setStream, if_true]
      exact chain
    · rw [set_list_other lists _ same]
      simp only [IteratorHeap.setStream, if_neg same]
      exact Links.chain_frame (threaded.chains t) fun j there => kept j fun here => same (threaded.lone there here)
  · intro t j apart
    by_cases same : t = s
    · rw [same, set_list_same, List.mem_erase_of_ne apart]
      exact threaded.live s j
    · rw [set_list_other lists _ same]
      exact threaded.live t j
  · intro j other apart there off
    have outside : j ∉ lists s := by
      intro here
      obtain ⟨one, again, onS⟩ := (threaded.live s j).mp here
      obtain rfl := Option.some.inj (again.symm.trans there)
      rw [off] at onS
      cases onS
    obtain ⟨prev, next⟩ := threaded.loose j other there off
    exact ⟨(kept j outside).1.trans prev, (kept j outside).2.trans next⟩
  · intro t
    by_cases same : t = s
    · rw [same, set_list_same]
      exact once.not_mem_erase
    · rw [set_list_other lists _ same]
      exact fun there => same (threaded.lone there listed)
  · exact ⟨prev, next⟩

theorem Threaded.leave (threaded : Threaded h lists) {it : StreamIterator κ ρ} (found : h.iterator i = some it) :
    ∃ next lists, h.leave i it.stream = some next ∧ next.iterator = h.iterator ∧ ThreadedBut next lists i := by
  cases stream : it.stream with
  | none => exact ⟨h, lists, rfl, rfl, threaded.off found stream⟩
  | some s =>
      obtain ⟨next, removed, same, but⟩ := threaded.remove found stream
      exact ⟨next, _, removed, same, but⟩

end

theorem assign_threaded {h : IteratorHeap κ ρ} {lists : κ → List Nat} {i : Nat} {it : StreamIterator κ ρ} (threaded : Threaded h lists)
    (found : h.iterator i = some it) (rhs : StreamIterator κ ρ) : ∃ next lists, h.assign i it rhs = some next ∧ Threaded next lists := by
  rw [IteratorHeap.assign]
  by_cases same : rhs.stream = it.stream
  · rw [if_pos same]
    exact ⟨_, lists, rfl, threaded.members found rfl⟩
  · obtain ⟨left, lists, gone, -, but⟩ := threaded.leave found
    have assigned := but.members (some { stream := rhs.stream, here := rhs.here, pos := rhs.pos })
    obtain ⟨lists, joined⟩ := assigned.join (set_iterator_same left i _)
    rw [if_neg same, gone]
    exact ⟨_, lists, rfl, joined⟩

-- One case for each of the places that edit the lists.
theorem perform_threaded {h : IteratorHeap κ ρ} {lists : κ → List Nat} (threaded : Threaded h lists) (op : ListOp κ) (feasible : h.Feasible op) :
    ∃ next lists, h.perform op = some next ∧ Threaded next lists := by
  cases op with
  | create i =>
      have absent := Option.isNone_iff_eq_none.mp feasible
      exact ⟨_, lists, rfl, (threaded.construct absent _).streamless (set_iterator_same h i _) rfl⟩
  | createOn i s =>
      have absent := Option.isNone_iff_eq_none.mp feasible
      have but := (forward_threaded threaded s 0).construct absent { stream := some s, here := [], pos := (h.forward s 0).2 }
      exact ⟨_, _, rfl, but.insert (set_iterator_same _ i _) rfl⟩
  | copy i rhs =>
      have absent := Option.isNone_iff_eq_none.mp feasible.1
      obtain ⟨rhs, there⟩ := Option.isSome_iff_exists.mp feasible.2
      obtain ⟨lists, joined⟩ := (threaded.construct absent rhs).join (set_iterator_same _ i _)
      rw [IteratorHeap.perform, there]
      exact ⟨_, lists, rfl, joined⟩
  | assign i rhs =>
      obtain ⟨it, found⟩ := Option.isSome_iff_exists.mp feasible.1
      obtain ⟨rhs, there⟩ := Option.isSome_iff_exists.mp feasible.2
      rw [IteratorHeap.perform, found, there]
      exact assign_threaded threaded found rhs
  | advance i n =>
      obtain ⟨s, onStream⟩ := Option.isSome_iff_exists.mp feasible
      obtain ⟨it, found, on⟩ := Option.bind_eq_some_iff.mp onStream
      rw [IteratorHeap.perform, found]
      simp only [Option.bind_eq_bind, Option.bind_some, IteratorHeap.advance, on]
      split
      · exact ⟨h, lists, rfl, threaded⟩
      · exact ⟨_, lists, rfl, (forward_threaded threaded s n).members found on.symm⟩
  | destroy i =>
      obtain ⟨it, found⟩ := Option.isSome_iff_exists.mp feasible
      obtain ⟨left, lists, gone, -, but⟩ := threaded.leave found
      rw [IteratorHeap.perform, found]
      simp only [Option.bind_eq_bind, Option.bind_some, gone]
      exact ⟨_, lists, rfl, (but.members none).gone (set_iterator_same left i none)⟩

-- By induction on the operations.
theorem run_threaded (ops : List (ListOp κ)) {h : IteratorHeap κ ρ} {lists : κ → List Nat} (threaded : Threaded h lists) (allowed : h.Allowed ops) :
    ∃ next lists, h.run ops = some next ∧ Threaded next lists := by
  induction ops generalizing h lists with
  | nil => exact ⟨h, lists, rfl, threaded⟩
  | cons op ops ih =>
      obtain ⟨feasible, later⟩ := allowed
      obtain ⟨next, lists, performed, threaded⟩ := perform_threaded threaded op feasible
      rw [performed] at later
      rw [IteratorHeap.run, performed]
      exact ih threaded later

omit [DecidableEq κ] in
theorem fresh_threaded (stream : κ → StreamHead) : Threaded (IteratorHeap.fresh stream : IteratorHeap κ ρ) fun _ => [] where
  chains _ := ⟨rfl, trivial, List.nodup_nil⟩
  live _ _ := iff_of_false List.not_mem_nil fun ⟨_, found, _⟩ => nomatch found
  loose _ _ found := nomatch found

omit [DecidableEq κ] in
-- The loop visits the nodes of a chain that are left, one after another.
theorem collect_segment {h : IteratorHeap κ ρ} (s : κ) (topos : Int) {before : Option Nat} {xs : List Nat}
    (segment : Links.Segment h.links before xs none) (there : ∀ i ∈ xs, (h.iterator i).isSome = true) (fuel : Nat)
    (enough : xs.length ≤ fuel) (todo : OrdMap Int (List Nat)) :
    h.collect s topos fuel xs.head? todo = some (xs.foldl (fun todo i =>
      match h.iterator i with
      | none => todo
      | some it =>
          if it.pos ≥ (h.stream s).realpos ∧ it.pos ≤ topos then todo.set it.pos ((todo.find it.pos).getD [] ++ [i]) else todo) todo) := by
  induction xs generalizing before fuel todo with
  | nil =>
      cases fuel with
      | zero => rfl
      | succ fuel => rfl
  | cons i xs ih =>
      obtain ⟨-, next, rest⟩ := segment
      obtain ⟨it, found⟩ := Option.isSome_iff_exists.mp (there i List.mem_cons_self)
      rw [List.length_cons] at enough
      cases fuel with
      | zero => exact absurd enough (Nat.not_succ_le_zero _)
      | succ fuel =>
          rw [List.head?_cons, IteratorHeap.collect, found, next, Option.or_none, List.foldl_cons, found]
          exact ih rest (fun j later => there j (List.mem_cons_of_mem i later)) fuel (Nat.le_of_succ_le_succ enough) _

theorem view_todo (h : IteratorHeap κ ρ) (s : κ) (cur : CursorState ρ) (done : Bool) (xs : List Nat) (topos : Int) :
    (h.view s cur done xs).todo topos = xs.foldl (fun todo i =>
      match h.iterator i with
      | none => todo
      | some it =>
          if it.pos ≥ (h.stream s).realpos ∧ it.pos ≤ topos then todo.set it.pos ((todo.find it.pos).getD [] ++ [i]) else todo)
      OrdMap.empty := by
  rw [Icursorstream.todo]
  congr
  funext todo i
  simp only [IteratorHeap.view]
  cases h.iterator i with
  | none => rfl
  | some it => rfl

-- A stream's chain as it is to be, where its iterators are those in the list.
structure WellLinked (h : IteratorHeap κ ρ) (s : κ) (xs : List Nat) : Prop where
  first : (h.stream s).iterators = xs.head?
  live : ∀ i, i ∈ xs ↔ ∃ it, h.iterator i = some it ∧ it.stream = some s
  once : xs.Nodup
  links : ∀ (k : Nat) (bound : k < xs.length),
    h.links.prev xs[k] = (if k = 0 then none else xs[k - 1]?) ∧ h.links.next xs[k] = xs[k + 1]?
  inverse : ∀ i ∈ xs, ∀ j ∈ xs, h.links.next i = some j ↔ h.links.prev j = some i
  walked : ∀ fuel, xs.length ≤ fuel → h.links.walk fuel (h.stream s).iterators = some xs
  serviced : ∀ topos cur done fuel, xs.length ≤ fuel →
    h.collect s topos fuel (h.stream s).iterators OrdMap.empty = some ((h.view s cur done xs).todo topos)

theorem Threaded.well_linked {h : IteratorHeap κ ρ} {lists : κ → List Nat} (threaded : Threaded h lists) (s : κ) : WellLinked h s (lists s) := by
  have chain := threaded.chains s
  constructor
  · exact chain.head
  · exact threaded.live s
  · exact chain.once
  · intro k bound
    have at_ := Links.segment_at chain.segment k bound
    rw [Option.or_none] at at_
    exact at_
  · exact fun i one j other => Links.chain_inverse chain one other
  · intro fuel enough
    rw [chain.head]
    exact Links.walk_segment chain.segment fuel enough
  · intro topos cur done fuel enough
    rw [chain.head, view_todo]
    refine collect_segment s topos chain.segment (fun i there => ?_) fuel enough _
    obtain ⟨it, found, -⟩ := (threaded.live s i).mp there
    rw [found]
    rfl

theorem iterator_lists (stream : κ → StreamHead) (ops : List (ListOp κ)) (allowed : (IteratorHeap.fresh stream : IteratorHeap κ ρ).Allowed ops) :
    ∃ h, (IteratorHeap.fresh stream : IteratorHeap κ ρ).run ops = some h ∧ ∀ s, ∃ xs, WellLinked h s xs := by
  obtain ⟨h, lists, ran, threaded⟩ := run_threaded ops (fresh_threaded stream) allowed
  exact ⟨h, ran, fun s => ⟨lists s, threaded.well_linked s⟩⟩

-- Two iterators change places between two streams, and one that is in the middle goes.
theorem iterator_lists_migrate :
    ∃ h, (IteratorHeap.fresh fun _ => ⟨1, 0, 0, none⟩ : IteratorHeap Bool Nat).run
        [.createOn 1 true, .createOn 2 true, .copy 3 1, .create 4, .assign 2 2, .assign 2 4, .createOn 5 false, .assign 2 5, .destroy 1] = some h ∧
      ∀ s, ∃ xs, WellLinked h s xs :=
  iterator_lists _ _ (by decide)

end Pqxx
