import Mathlib.Data.List.Basic

set_option autoImplicit false

namespace Lib

variable {ι α : Type}

inductive NestOp (ι α : Type) where
  | enter (i parent : ι)
  | exec (i : ι) (a : α)
  | commit (i : ι)
  | abort (i : ι)

-- Nested transactions as their client knows them. The path of one leads from itself to the
-- outermost but one; the outermost has none.
structure Nest (ι α : Type) where
  outermost : ι
  path : ι → List ι
  entered : List ι
  begun : List ι
  done : List (ι × α)
  committed : List ι
  aborted : List ι

namespace Nest

def start (outermost : ι) : Nest ι α :=
  { outermost, path := fun _ => [], entered := [], begun := [], done := [], committed := [], aborted := [] }

def begin (n : Nest ι α) (i : ι) : Nest ι α := { n with begun := i :: n.begun }

def perform (n : Nest ι α) (i : ι) (a : α) : Nest ι α := { n with done := n.done ++ [(i, a)] }

def step [DecidableEq ι] (n : Nest ι α) : NestOp ι α → Nest ι α
  | .enter i parent => { n with path := fun j => if j = i then i :: n.path parent else n.path j, entered := i :: n.entered }
  | .exec i a => (n.begin i).perform i a
  | .commit i => { n with committed := i :: n.committed }
  | .abort i => { n with aborted := i :: n.aborted }

-- What it is all for: what was done stays done if every transaction it was done in commits.
def survivors [DecidableEq ι] (n : Nest ι α) : List (ι × α) := n.done.filter fun s => ∀ j ∈ n.path s.1, j ∈ n.committed

-- What has not been undone so far.
def standing [DecidableEq ι] (n : Nest ι α) : List (ι × α) := n.done.filter fun s => ∀ j ∈ n.path s.1, j ∉ n.aborted

-- What would not be undone, should i abort now.
def without [DecidableEq ι] (n : Nest ι α) (i : ι) : List (ι × α) := (n.step (.abort i)).standing

def Closed (n : Nest ι α) (i : ι) : Prop := i ∈ n.committed ∨ i ∈ n.aborted

def Running (n : Nest ι α) (i : ι) : Prop := i ∈ n.entered ∧ i ∈ n.begun ∧ ¬ n.Closed i

-- Neither closed nor inside one that is.
def Open (n : Nest ι α) (i : ι) : Prop := ∀ j ∈ n.path i, ¬ n.Closed j

-- Whatever runs inside i has been closed.
def Cleared (n : Nest ι α) (i : ι) : Prop := ∀ j ∈ n.entered, j ∈ n.begun → i ∈ n.path j → j ≠ i → n.Closed j

-- Whatever runs does so around i.
def Alone (n : Nest ι α) (i : ι) : Prop := ∀ j ∈ n.entered, j ∈ n.begun → ¬ n.Closed j → j ∈ n.path i

-- Whatever ran has been closed.
def Over (n : Nest ι α) : Prop := ∀ j ∈ n.entered, j ∈ n.begun → n.Closed j

-- Inner ones are closed before outer ones, and nothing comes after that.
def Proper (n : Nest ι α) : NestOp ι α → Prop
  | .enter i parent => i ≠ n.outermost ∧ i ∉ n.entered ∧ (parent = n.outermost ∨ parent ∈ n.entered)
  | .exec i _ => (i = n.outermost ∨ i ∈ n.entered) ∧ n.Open i
  | .commit i => i ∈ n.entered ∧ n.Open i ∧ n.Cleared i
  | .abort i => i ∈ n.entered ∧ n.Open i ∧ n.Cleared i

-- One after the other on one path: nothing is done in a transaction before something is
-- done in each around it, nor while another runs.
def Ordered (n : Nest ι α) : NestOp ι α → Prop
  | .enter _ _ => True
  | .exec i _ => (∀ j ∈ (n.path i).tail, j ∈ n.begun) ∧ n.Alone i
  | .commit i => n.Alone i
  | .abort i => n.Alone i

section

variable [DecidableEq ι] (n : Nest ι α)

instance (i : ι) : Decidable (n.Closed i) := inferInstanceAs (Decidable (i ∈ n.committed ∨ i ∈ n.aborted))

instance (i : ι) : Decidable (n.Open i) := inferInstanceAs (Decidable (∀ j ∈ n.path i, ¬ n.Closed j))

instance (i : ι) : Decidable (n.Cleared i) :=
  inferInstanceAs (Decidable (∀ j ∈ n.entered, j ∈ n.begun → i ∈ n.path j → j ≠ i → n.Closed j))

instance (i : ι) : Decidable (n.Alone i) := inferInstanceAs (Decidable (∀ j ∈ n.entered, j ∈ n.begun → ¬ n.Closed j → j ∈ n.path i))

instance : Decidable n.Over := inferInstanceAs (Decidable (∀ j ∈ n.entered, j ∈ n.begun → n.Closed j))

instance : ∀ op, Decidable (n.Proper op)
  | .enter _ _ => inferInstanceAs (Decidable (_ ∧ _))
  | .exec _ _ => inferInstanceAs (Decidable (_ ∧ _))
  | .commit _ => inferInstanceAs (Decidable (_ ∧ _))
  | .abort _ => inferInstanceAs (Decidable (_ ∧ _))

instance : ∀ op, Decidable (n.Ordered op)
  | .enter _ _ => inferInstanceAs (Decidable True)
  | .exec i _ => inferInstanceAs (Decidable ((∀ j ∈ (n.path i).tail, j ∈ n.begun) ∧ n.Alone i))
  | .commit i => inferInstanceAs (Decidable (n.Alone i))
  | .abort i => inferInstanceAs (Decidable (n.Alone i))

end

structure Sound (n : Nest ι α) : Prop where
  bare : n.path n.outermost = []
  paths : ∀ i ∈ n.entered, ∃ p, (p = n.outermost ∨ p ∈ n.entered) ∧ n.path i = i :: n.path p
  stray : ∀ i, i ∉ n.entered → n.path i = []
  doneIn : ∀ s ∈ n.done, s.1 = n.outermost ∨ s.1 ∈ n.entered
  begunIn : ∀ i ∈ n.begun, i = n.outermost ∨ i ∈ n.entered
  around : ∀ s ∈ n.done, ∀ j ∈ n.path s.1, j ∈ n.begun
  outward : ∀ i ∈ n.begun, ∀ j ∈ n.path i, j ∈ n.begun
  once : ∀ j ∈ n.committed, j ∉ n.aborted

-- What runs is all on one path, and its end is where.
def Inner (n : Nest ι α) (at_ : ι) : Prop := (at_ = n.outermost ∨ at_ ∈ n.entered) ∧ ∀ j, j ∈ n.path at_ ↔ n.Running j

section

variable {n : Nest ι α} {i j : ι} {a : α}

theorem inner_outermost (sound : n.Sound) {at_ : ι} (inner : n.Inner at_) (alone : n.Alone n.outermost) : n.path at_ = [] := by
  refine List.eq_nil_iff_forall_not_mem.mpr fun j there => ?_
  obtain ⟨entered, begun, going⟩ := (inner.2 j).mp there
  have inside := alone j entered begun going
  rw [sound.bare] at inside
  cases inside

theorem path_entered (sound : n.Sound) (there : j ∈ n.path i) : j ∈ n.entered := by
  have all : ∀ (l : List ι) i, n.path i = l → j ∈ l → j ∈ n.entered := by
    intro l
    induction l with
    | nil => exact fun _ _ => nofun
    | cons k rest ih =>
        intro i same there
        by_cases entered : i ∈ n.entered
        · obtain ⟨p, _, path⟩ := sound.paths i entered
          rw [path] at same
          obtain ⟨rfl, onward⟩ := List.cons.inj same
          rcases List.mem_cons.mp there with rfl | there
          · exact entered
          · exact ih p onward there
        · rw [sound.stray i entered] at same
          cases same
  exact all _ i rfl there

theorem path_suffix (sound : n.Sound) (there : j ∈ n.path i) : n.path j <:+ n.path i := by
  have all : ∀ (l : List ι) i, n.path i = l → j ∈ l → n.path j <:+ l := by
    intro l
    induction l with
    | nil => exact fun _ _ => nofun
    | cons k rest ih =>
        intro i same there
        by_cases entered : i ∈ n.entered
        · obtain ⟨p, _, path⟩ := sound.paths i entered
          have whole := same
          rw [path] at same
          obtain ⟨rfl, onward⟩ := List.cons.inj same
          rcases List.mem_cons.mp there with rfl | there
          · exact ⟨[], whole⟩
          · exact (ih p onward there).trans (List.suffix_cons _ _)
        · rw [sound.stray i entered] at same
          cases same
  exact all _ i rfl there

theorem path_antisymm (sound : n.Sound) (one : j ∈ n.path i) (two : i ∈ n.path j) : i = j := by
  have same : n.path j = n.path i := (path_suffix sound one).eq_of_length_le (path_suffix sound two).length_le
  obtain ⟨p, _, here⟩ := sound.paths i (path_entered sound two)
  obtain ⟨q, _, there⟩ := sound.paths j (path_entered sound one)
  rw [here, there] at same
  exact (List.cons.inj same).1.symm

theorem path_nodup (sound : n.Sound) {p : ι} (path : n.path i = i :: n.path p) : i ∉ n.path p := by
  intro there
  have short := (path_suffix sound there).length_le
  rw [path, List.length_cons] at short
  omega

-- Where i may do something, what runs is its path, or the path around it.
theorem inner_begun (sound : n.Sound) {at_ : ι} (inner : n.Inner at_) (going : n.Open i) (alone : n.Alone i) (entered : i ∈ n.entered)
    (begun : i ∈ n.begun) : at_ = i := by
  obtain ⟨p, _, path⟩ := sound.paths i entered
  have own : i ∈ n.path i := by rw [path]; exact List.mem_cons_self
  have runs : n.Running i := ⟨entered, begun, going i own⟩
  have there : i ∈ n.path at_ := (inner.2 i).mpr runs
  have around : n.path i <:+ n.path at_ := path_suffix sound there
  rcases inner.1 with rfl | inside
  · rw [sound.bare] at there
    cases there
  · obtain ⟨q, _, whole⟩ := sound.paths at_ inside
    have last : at_ ∈ n.path at_ := by rw [whole]; exact List.mem_cons_self
    obtain ⟨_, running, open_⟩ := (inner.2 at_).mp last
    exact path_antisymm sound there (alone at_ inside running open_)

theorem inner_fresh (sound : n.Sound) {at_ p : ι} (inner : n.Inner at_) (going : n.Open i) (alone : n.Alone i)
    (path : n.path i = i :: n.path p) (fresh : i ∉ n.begun) (first : ∀ j ∈ (n.path i).tail, j ∈ n.begun) : n.path at_ = n.path p := by
  have outer : ∀ j ∈ n.path p, j ∈ n.path at_ := by
    intro j there
    have inside : j ∈ n.path i := by rw [path]; exact List.mem_cons_of_mem _ there
    refine (inner.2 j).mpr ⟨path_entered sound inside, first j ?_, going j inside⟩
    rw [path]
    exact there
  have inward : ∀ j ∈ n.path at_, j ∈ n.path p := by
    intro j there
    obtain ⟨entered, begun, running⟩ := (inner.2 j).mp there
    have inside := alone j entered begun running
    rw [path] at inside
    rcases List.mem_cons.mp inside with rfl | inside
    · exact absurd begun fresh
    · exact inside
  -- one contains the head of the other, whichever is not empty
  cases whole : n.path at_ with
  | nil => exact (List.eq_nil_iff_forall_not_mem.mpr fun j there => List.not_mem_nil (whole ▸ outer j there)).symm
  | cons h rest =>
      by_cases inside : at_ ∈ n.entered
      · obtain ⟨q, _, own⟩ := sound.paths at_ inside
        have last : at_ ∈ n.path p := inward at_ (by rw [own]; exact List.mem_cons_self)
        by_cases known : p ∈ n.entered
        · obtain ⟨r, _, other⟩ := sound.paths p known
          have first : p ∈ n.path at_ := outer p (by rw [other]; exact List.mem_cons_self)
          rw [← whole, path_antisymm sound last first]
        · rw [sound.stray p known] at last
          cases last
      · rw [sound.stray at_ inside] at whole
        cases whole

theorem sound_start (outermost : ι) : (start outermost : Nest ι α).Sound where
  bare := rfl
  paths _ := nofun
  stray _ _ := rfl
  doneIn _ := nofun
  begunIn _ := nofun
  around _ := nofun
  outward _ := nofun
  once _ := nofun

theorem inner_start (outermost : ι) : (start outermost : Nest ι α).Inner outermost :=
  ⟨.inl rfl, fun _ => ⟨nofun, fun running => nomatch running.1⟩⟩

theorem sound_begin (sound : n.Sound) (known : i = n.outermost ∨ i ∈ n.entered) (first : ∀ j ∈ n.path i, j ≠ i → j ∈ n.begun) :
    (n.begin i).Sound where
  bare := sound.bare
  paths := sound.paths
  stray := sound.stray
  doneIn := sound.doneIn
  begunIn k there := by
    rcases List.mem_cons.mp there with rfl | there
    · exact known
    · exact sound.begunIn k there
  around s there j inside := List.mem_cons_of_mem i (sound.around s there j inside)
  outward k there j inside := by
    rcases List.mem_cons.mp there with rfl | there
    · by_cases same : j = k
      · exact List.mem_cons.mpr (.inl same)
      · exact List.mem_cons_of_mem _ (first j inside same)
    · exact List.mem_cons_of_mem i (sound.outward k there j inside)
  once := sound.once

theorem sound_perform (sound : n.Sound) (known : i = n.outermost ∨ i ∈ n.entered) (first : ∀ j ∈ n.path i, j ∈ n.begun) :
    (n.perform i a).Sound where
  bare := sound.bare
  paths := sound.paths
  stray := sound.stray
  doneIn s there := by
    rcases List.mem_append.mp there with there | there
    · exact sound.doneIn s there
    · rw [List.mem_singleton.mp there]
      exact known
  begunIn := sound.begunIn
  around s there := by
    rcases List.mem_append.mp there with there | there
    · exact sound.around s there
    · rw [List.mem_singleton.mp there]
      exact first
  outward := sound.outward
  once := sound.once

theorem inner_begin {at_ p : ι} (inner : n.Inner at_) (entered : i ∈ n.entered) (going : ¬ n.Closed i)
    (path : n.path i = i :: n.path p) (here : n.path at_ = n.path p) : (n.begin i).Inner i := by
  refine ⟨.inr entered, fun j => ?_⟩
  have before := inner.2 j
  rw [here] at before
  change j ∈ n.path i ↔ j ∈ n.entered ∧ j ∈ i :: n.begun ∧ ¬ n.Closed j
  rw [path, List.mem_cons, List.mem_cons, before]
  constructor
  · rintro (rfl | runs)
    · exact ⟨entered, .inl rfl, going⟩
    · exact ⟨runs.1, .inr runs.2.1, runs.2.2⟩
  · rintro ⟨there, rfl | begun, open_⟩
    · exact .inl rfl
    · exact .inr ⟨there, begun, open_⟩

theorem entered_path (sound : n.Sound) (entered : i ∈ n.entered) : i ∈ n.path i := by
  obtain ⟨p, _, path⟩ := sound.paths i entered
  rw [path]
  exact List.mem_cons_self

theorem outermost_apart (sound : n.Sound) (entered : i ∈ n.entered) : i ≠ n.outermost := by
  rintro rfl
  have there := entered_path sound entered
  rw [sound.bare] at there
  cases there

theorem inner_again {at_ : ι} (inner : n.Inner at_) (known : ∀ j ∈ n.entered, j = i → j ∈ n.begun) : (n.begin i).Inner at_ := by
  refine ⟨inner.1, fun j => (inner.2 j).trans ?_⟩
  constructor
  · exact fun runs => ⟨runs.1, List.mem_cons_of_mem i runs.2.1, runs.2.2⟩
  · rintro ⟨entered, begun, going⟩
    rcases List.mem_cons.mp begun with same | begun
    · exact ⟨entered, known j entered same, going⟩
    · exact ⟨entered, begun, going⟩

theorem inner_here {at_ : ι} (inner : n.Inner at_) (known : i = n.outermost ∨ i ∈ n.entered) (here : n.path at_ = n.path i) : n.Inner i :=
  ⟨known, by rw [← here]; exact inner.2⟩

-- Closing what runs innermost leaves the one around it, and closing what does not run
-- leaves all as it was.
theorem inner_close {m : Nest ι α} {p : ι} (sound : n.Sound) (inner : n.Inner i) (parent : p = n.outermost ∨ p ∈ n.entered)
    (path : n.path i = i :: n.path p) (same : m.outermost = n.outermost ∧ m.path = n.path ∧ m.entered = n.entered ∧ m.begun = n.begun)
    (closed : ∀ j, m.Closed j ↔ j = i ∨ n.Closed j) : m.Inner p := by
  obtain ⟨outermost, paths, entered, begun⟩ := same
  refine ⟨by rw [outermost, entered]; exact parent, fun j => ?_⟩
  have before := inner.2 j
  rw [path, List.mem_cons] at before
  rw [paths, Running, entered, begun, closed]
  constructor
  · intro there
    obtain ⟨one, two, three⟩ := before.mp (.inr there)
    refine ⟨one, two, not_or.mpr ⟨?_, three⟩⟩
    rintro rfl
    exact path_nodup sound path there
  · rintro ⟨one, two, three⟩
    obtain ⟨other, three⟩ := not_or.mp three
    exact (before.mpr ⟨one, two, three⟩).resolve_left other

theorem inner_idle {m : Nest ι α} {at_ : ι} (inner : n.Inner at_) (idle : i ∉ n.begun)
    (same : m.outermost = n.outermost ∧ m.path = n.path ∧ m.entered = n.entered ∧ m.begun = n.begun)
    (closed : ∀ j, m.Closed j ↔ j = i ∨ n.Closed j) : m.Inner at_ := by
  obtain ⟨outermost, paths, entered, begun⟩ := same
  refine ⟨by rw [outermost, entered]; exact inner.1, fun j => ?_⟩
  rw [paths, Running, entered, begun, closed, inner.2 j]
  constructor
  · rintro ⟨one, two, three⟩
    refine ⟨one, two, not_or.mpr ⟨?_, three⟩⟩
    rintro rfl
    exact idle two
  · exact fun ⟨one, two, three⟩ => ⟨one, two, (not_or.mp three).2⟩

-- Nothing was done in one that is new.
theorem done_elsewhere {p : ι} (sound : n.Sound) (proper : n.Proper (.enter i p)) {s : ι × α} (there : s ∈ n.done) : s.1 ≠ i := by
  intro same
  rcases sound.doneIn s there with root | inside
  · exact proper.1 (same.symm.trans root)
  · exact proper.2.1 (same ▸ inside)

variable [DecidableEq ι]

theorem step_outermost (op : NestOp ι α) : (n.step op).outermost = n.outermost := by
  cases op <;> rfl

theorem enter_path {p : ι} (other : j ≠ i) : (n.step (.enter i p)).path j = n.path j := if_neg other

theorem sound_enter {p : ι} (sound : n.Sound) (proper : n.Proper (.enter i p)) : (n.step (.enter i p)).Sound := by
  obtain ⟨apart, fresh, parent⟩ := proper
  have old : ∀ k, k = n.outermost ∨ k ∈ n.entered → k ≠ i := by
    rintro k (rfl | there) rfl
    · exact apart rfl
    · exact fresh there
  have grown : ∀ k, k = n.outermost ∨ k ∈ n.entered → k = n.outermost ∨ k ∈ i :: n.entered := fun k there =>
    there.imp_right (List.mem_cons_of_mem i)
  constructor
  case bare => exact (enter_path (old _ (.inl rfl))).trans sound.bare
  case paths =>
    intro k there
    rcases List.mem_cons.mp there with rfl | there
    · refine ⟨p, grown p parent, ?_⟩
      rw [enter_path (old p parent)]
      exact if_pos rfl
    · obtain ⟨q, known, path⟩ := sound.paths k there
      refine ⟨q, grown q known, ?_⟩
      rw [enter_path (old q known), enter_path (old k (.inr there))]
      exact path
  case stray =>
    intro k stray
    obtain ⟨other, stray⟩ := not_or.mp (mt List.mem_cons.mpr stray)
    exact (enter_path other).trans (sound.stray k stray)
  case doneIn => exact fun s there => grown _ (sound.doneIn s there)
  case begunIn => exact fun k there => grown k (sound.begunIn k there)
  case around =>
    intro s there
    rw [enter_path (old _ (sound.doneIn s there))]
    exact sound.around s there
  case outward =>
    intro k there
    rw [enter_path (old k (sound.begunIn k there))]
    exact sound.outward k there
  case once => exact sound.once

theorem sound_commit (sound : n.Sound) (going : ¬ n.Closed i) : (n.step (.commit i)).Sound where
  bare := sound.bare
  paths := sound.paths
  stray := sound.stray
  doneIn := sound.doneIn
  begunIn := sound.begunIn
  around := sound.around
  outward := sound.outward
  once j there := by
    rcases List.mem_cons.mp there with rfl | there
    · exact fun aborted => going (.inr aborted)
    · exact sound.once j there

theorem sound_abort (sound : n.Sound) (going : ¬ n.Closed i) : (n.step (.abort i)).Sound where
  bare := sound.bare
  paths := sound.paths
  stray := sound.stray
  doneIn := sound.doneIn
  begunIn := sound.begunIn
  around := sound.around
  outward := sound.outward
  once j there aborted := by
    rcases List.mem_cons.mp aborted with rfl | aborted
    · exact going (.inl there)
    · exact sound.once j there aborted

theorem inner_enter {at_ p : ι} (sound : n.Sound) (proper : n.Proper (.enter i p)) (inner : n.Inner at_) :
    (n.step (.enter i p)).Inner at_ := by
  obtain ⟨apart, fresh, _⟩ := proper
  have other : at_ ≠ i := by
    rintro rfl
    rcases inner.1 with same | there
    · exact apart same
    · exact fresh there
  refine ⟨inner.1.imp_right (List.mem_cons_of_mem i), fun j => ?_⟩
  rw [enter_path other, inner.2 j]
  constructor
  · exact fun runs => ⟨List.mem_cons_of_mem i runs.1, runs.2⟩
  · rintro ⟨there, begun, going⟩
    rcases List.mem_cons.mp there with rfl | there
    · rcases sound.begunIn j begun with same | there
      · exact absurd same apart
      · exact absurd there fresh
    · exact ⟨there, begun, going⟩

theorem commit_closed (j : ι) : (n.step (.commit i)).Closed j ↔ j = i ∨ n.Closed j := by
  rw [Closed, Closed, step, List.mem_cons, or_assoc]

theorem abort_closed (j : ι) : (n.step (.abort i)).Closed j ↔ j = i ∨ n.Closed j := by
  rw [Closed, Closed, step, List.mem_cons, or_left_comm]

theorem standing_enter {p : ι} (sound : n.Sound) (proper : n.Proper (.enter i p)) : (n.step (.enter i p)).standing = n.standing := by
  refine List.filter_congr fun s there => ?_
  rw [enter_path (done_elsewhere sound proper there)]
  rfl

theorem without_enter {p : ι} (sound : n.Sound) (proper : n.Proper (.enter i p)) : (n.step (.enter i p)).without j = n.without j := by
  refine List.filter_congr fun s there => ?_
  have kept : ((n.step (.enter i p)).step (.abort j)).path s.1 = n.path s.1 := enter_path (done_elsewhere sound proper there)
  rw [kept]
  rfl

theorem standing_perform (going : ∀ j ∈ n.path i, ¬ n.Closed j) : (n.perform i a).standing = n.standing ++ [(i, a)] := by
  have kept : ∀ j ∈ n.path i, j ∉ n.aborted := fun j there aborted => going j there (.inr aborted)
  refine (List.filter_append _ _).trans (congrArg (n.standing ++ ·) ?_)
  exact List.filter_cons_of_pos (decide_eq_true kept)

theorem without_perform (inside : j ∈ n.path i) : (n.perform i a).without j = n.without j := by
  have undone : ¬ ∀ k ∈ n.path i, k ∉ j :: n.aborted := fun each => each j inside List.mem_cons_self
  refine (List.filter_append _ _).trans ((congrArg (n.without j ++ ·) ?_).trans (List.append_nil _))
  exact List.filter_cons_of_neg (mt of_decide_eq_true undone)

theorem without_fresh (sound : n.Sound) (fresh : j ∉ n.begun) : n.without j = n.standing := by
  refine List.filter_congr fun s there => decide_eq_decide.mpr (forall₂_congr fun k inside => ?_)
  have other : k ≠ j := by
    rintro rfl
    exact fresh (sound.around s there k inside)
  rw [step, List.mem_cons, not_or]
  exact and_iff_right other

theorem without_idle (sound : n.Sound) (fresh : i ∉ n.begun) : (n.step (.abort i)).without j = n.without j := by
  refine List.filter_congr fun s there => decide_eq_decide.mpr (forall₂_congr fun k inside => ?_)
  have other : k ≠ i := by
    rintro rfl
    exact fresh (sound.around s there k inside)
  simp only [step, List.mem_cons, not_or, other, not_false_eq_true, true_and]

theorem without_abort (sound : n.Sound) (inside : j ∈ n.path i) : (n.step (.abort i)).without j = n.without j := by
  refine List.filter_congr fun s _ => decide_eq_decide.mpr ?_
  simp only [step, List.mem_cons, not_or]
  constructor
  · exact fun each k there => ⟨(each k there).1, (each k there).2.2⟩
  · intro each k there
    refine ⟨(each k there).1, ?_, (each k there).2⟩
    rintro rfl
    exact (each j ((path_suffix sound there).mem inside)).1 rfl

-- When all that was begun is closed, what stands is what survives.
theorem standing_survives (sound : n.Sound) (ended : n.Over) : n.standing = n.survivors := by
  refine List.filter_congr fun s there => decide_eq_decide.mpr (forall₂_congr fun j inside => ?_)
  constructor
  · exact fun kept => (ended j (path_entered sound inside) (sound.around s there j inside)).resolve_right kept
  · exact sound.once j

end

end Nest

end Lib
