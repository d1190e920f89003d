set_option autoImplicit false

namespace Lib

variable {α : Type}

-- What a transaction block sees, with the views its savepoints keep, innermost first.
structure Block (α : Type) where
  view : α
  saves : List (String × α)
  failed : Bool

-- A transactional store: what is committed, and the block in progress on top of it.
structure Store (α : Type) where
  base : α
  block : Option (Block α)

-- The newest savepoint of a name, and those made before it.
def cut (name : String) : List (String × α) → Option (α × List (String × α))
  | [] => none
  | (saved, view) :: rest => if saved = name then some (view, rest) else cut name rest

namespace Store

def view (s : Store α) : α :=
  match s.block with
  | none => s.base
  | some b => b.view

def failed (s : Store α) : Bool := s.block.any Block.failed

-- A statement on its own commits at once; one in a block does not.
def put (s : Store α) (view : α) : Store α :=
  match s.block with
  | none => { s with base := view }
  | some b => { s with block := some { b with view } }

def fail (s : Store α) : Store α := { s with block := s.block.map fun b => { b with failed := true } }

-- A block begun inside another is none of its own.
def begin (s : Store α) (view : α → α) : Store α :=
  match s.block with
  | none => { s with block := some { view := view s.base, saves := [], failed := false } }
  | some _ => s

def commit (s : Store α) : Store α :=
  match s.block with
  | none => s
  | some b => { base := if b.failed then s.base else b.view, block := none }

def rollback (s : Store α) : Store α := { s with block := none }

def savepoint (s : Store α) (name : String) : Option (Store α) :=
  match s.block with
  | none => none
  | some b => if b.failed then none else some { s with block := some { b with saves := (name, b.view) :: b.saves } }

def release (s : Store α) (name : String) : Option (Store α) :=
  match s.block with
  | none => none
  | some b =>
      if b.failed then none
      else (cut name b.saves).map fun kept => { s with block := some { b with saves := kept.2 } }

-- The savepoint itself stays, and a failed block works again.
def rollbackTo (s : Store α) (name : String) : Option (Store α) :=
  match s.block with
  | none => none
  | some b => (cut name b.saves).map fun kept =>
      { s with block := some { view := kept.1, saves := (name, kept.1) :: kept.2, failed := false } }

-- What a key says of the committed value, and what it says of all the views of a block.
structure Keyed {β : Type} (key : α → β) (old new : β) (s : Store α) : Prop where
  base : key s.base = old
  view : ∀ b, s.block = some b → key b.view = new
  saves : ∀ b, s.block = some b → ∀ save ∈ b.saves, key save.2 = new

theorem cut_mem {name : String} {saves : List (String × α)} {kept : α × List (String × α)} (found : cut name saves = some kept) :
    (name, kept.1) ∈ saves ∧ ∀ save ∈ kept.2, save ∈ saves := by
  induction saves with
  | nil => cases found
  | cons head rest ih =>
      rw [cut] at found
      split at found
      · rename_i same
        cases found
        exact ⟨by rw [← same]; exact List.mem_cons_self, fun _ => List.mem_cons_of_mem _⟩
      · obtain ⟨here, older⟩ := ih found
        exact ⟨List.mem_cons_of_mem _ here, fun save there => List.mem_cons_of_mem _ (older save there)⟩

section

variable {β : Type} {key : α → β} {old new : β} {s : Store α}

theorem keyed_put (keyed : Keyed key old new s) (view : α) (same : key view = key s.view) : Keyed key old new (s.put view) := by
  cases block : s.block with
  | none =>
      simp only [put, block]
      simp only [Store.view, block] at same
      exact ⟨same.trans keyed.base, fun _ => nofun, fun _ => nofun⟩
  | some b =>
      simp only [put, block]
      simp only [Store.view, block] at same
      refine ⟨keyed.base, ?_, ?_⟩
      · rintro _ ⟨⟩
        exact same.trans (keyed.view b block)
      · rintro _ ⟨⟩
        exact keyed.saves b block

theorem keyed_fail (keyed : Keyed key old new s) : Keyed key old new s.fail := by
  cases block : s.block with
  | none =>
      simp only [fail, block, Option.map_none]
      exact ⟨keyed.base, fun _ => nofun, fun _ => nofun⟩
  | some b =>
      simp only [fail, block, Option.map_some]
      refine ⟨keyed.base, ?_, ?_⟩
      · rintro _ ⟨⟩
        exact keyed.view b block
      · rintro _ ⟨⟩
        exact keyed.saves b block

theorem keyed_rollback (keyed : Keyed key old new s) : Keyed key old new s.rollback :=
  ⟨keyed.base, fun _ => nofun, fun _ => nofun⟩

theorem keyed_view (keyed : Keyed key old old s) : key s.view = old := by
  cases block : s.block with
  | none =>
      simp only [Store.view, block]
      exact keyed.base
  | some b =>
      simp only [Store.view, block]
      exact keyed.view b block

theorem keyed_begin (keyed : Keyed key old old s) (view : α → α) (same : ∀ a, key (view a) = key a) : Keyed key old old (s.begin view) := by
  cases block : s.block with
  | none =>
      simp only [begin, block]
      refine ⟨keyed.base, ?_, ?_⟩
      · rintro _ ⟨⟩
        exact (same _).trans keyed.base
      · rintro _ ⟨⟩ _ there
        cases there
  | some b =>
      simp only [begin, block]
      exact keyed

theorem keyed_commit (keyed : Keyed key old old s) : Keyed key old old s.commit := by
  cases block : s.block with
  | none =>
      simp only [commit, block]
      exact keyed
  | some b =>
      simp only [commit, block]
      refine ⟨?_, fun _ => nofun, fun _ => nofun⟩
      split
      · exact keyed.base
      · exact keyed.view b block

theorem keyed_savepoint {s' : Store α} {name : String} (keyed : Keyed key old new s) (kept : s.savepoint name = some s') :
    Keyed key old new s' := by
  rw [savepoint] at kept
  split at kept
  · cases kept
  · rename_i b block
    split at kept
    · cases kept
    · cases kept
      refine ⟨keyed.base, ?_, ?_⟩
      · rintro _ ⟨⟩
        exact keyed.view b block
      · rintro _ ⟨⟩ save there
        rcases List.mem_cons.mp there with rfl | there
        · exact keyed.view b block
        · exact keyed.saves b block save there

theorem keyed_release {s' : Store α} {name : String} (keyed : Keyed key old new s) (kept : s.release name = some s') :
    Keyed key old new s' := by
  rw [release] at kept
  split at kept
  · cases kept
  · rename_i b block
    split at kept
    · cases kept
    · obtain ⟨found, there, rfl⟩ := Option.map_eq_some_iff.mp kept
      refine ⟨keyed.base, ?_, ?_⟩
      · rintro _ ⟨⟩
        exact keyed.view b block
      · rintro _ ⟨⟩ save older
        exact keyed.saves b block save ((cut_mem there).2 save older)

theorem keyed_rollback_to {s' : Store α} {name : String} (keyed : Keyed key old new s) (kept : s.rollbackTo name = some s') :
    Keyed key old new s' := by
  rw [rollbackTo] at kept
  split at kept
  · cases kept
  · rename_i b block
    obtain ⟨found, there, rfl⟩ := Option.map_eq_some_iff.mp kept
    obtain ⟨here, older⟩ := cut_mem there
    have saved : key found.1 = new := keyed.saves b block _ here
    refine ⟨keyed.base, ?_, ?_⟩
    · rintro _ ⟨⟩
      exact saved
    · rintro _ ⟨⟩ save among
      rcases List.mem_cons.mp among with rfl | among
      · exact saved
      · exact keyed.saves b block save (older save among)

end

-- What a key says of the committed value, where a commit would make no difference to it.
structure Idle {β : Type} (key : α → β) (old : β) (s : Store α) : Prop where
  base : key s.base = old
  dead : ∀ b, s.block = some b → b.failed = true

-- And where a commit would replace it.
structure Pending {β : Type} (key : α → β) (old new : β) (s : Store α) : Prop where
  base : key s.base = old
  live : ∃ b, s.block = some b ∧ b.failed = false ∧ key b.view = new

section

variable {β : Type} {key : α → β} {old new : β} {s : Store α}

theorem idle_rollback (base : key s.base = old) : Idle key old s.rollback := ⟨base, fun b there => absurd there.symm (Option.some_ne_none b)⟩

theorem fail_idle (base : key s.base = old) : Idle key old s.fail := by
  refine ⟨base, fun b there => ?_⟩
  obtain ⟨_, _, rfl⟩ := Option.map_eq_some_iff.mp there
  rfl

theorem idle_unblocked (idle : Idle key old s) (works : s.failed = false) : s.block = none := by
  cases block : s.block with
  | none => rfl
  | some b =>
      have failed := idle.dead b block
      simp [failed, block, Store.failed] at works

theorem idle_view (idle : Idle key old s) (works : s.failed = false) : key s.view = old := by
  rw [Store.view, idle_unblocked idle works]
  exact idle.base

theorem idle_put (idle : Idle key old s) (works : s.failed = false) (view : α) (same : key view = key s.view) : Idle key old (s.put view) := by
  have viewed := idle_view idle works
  rw [Store.put, idle_unblocked idle works]
  exact ⟨same.trans viewed, fun b there => absurd there.symm (Option.some_ne_none b)⟩

theorem idle_begin (idle : Idle key old s) (works : s.failed = false) (view : α → α) (same : ∀ a, key (view a) = key a) :
    Pending key old old (s.begin view) := by
  rw [Store.begin, idle_unblocked idle works]
  exact ⟨idle.base, _, rfl, rfl, (same s.base).trans idle.base⟩

theorem pending_works (pending : Pending key old new s) : s.failed = false := by
  obtain ⟨b, block, works, _⟩ := pending.live
  simp [Store.failed, block, works]

theorem pending_view (pending : Pending key old new s) : key s.view = new := by
  obtain ⟨b, block, _, viewed⟩ := pending.live
  rw [Store.view, block]
  exact viewed

theorem pending_put (pending : Pending key old new s) (view : α) {next : β} (viewed : key view = next) : Pending key old next (s.put view) := by
  obtain ⟨b, block, works, _⟩ := pending.live
  rw [Store.put, block]
  exact ⟨pending.base, _, rfl, works, viewed⟩

theorem pending_commit (pending : Pending key old new s) : Idle key new s.commit := by
  obtain ⟨b, block, works, viewed⟩ := pending.live
  rw [Store.commit, block]
  simp only [works]
  exact ⟨viewed, fun b there => absurd there.symm (Option.some_ne_none b)⟩

end

-- Where no block is in progress, or one that a commit would make nothing of.
def Dead (s : Store α) : Prop := ∀ b, s.block = some b → b.failed = true

section

variable {s : Store α}

theorem dead_unblocked (unblocked : s.block = none) : s.Dead := by
  intro b block
  exact absurd (block.symm.trans unblocked) (Option.some_ne_none b)

theorem dead_put (dead : s.Dead) (view : α) : (s.put view).Dead := by
  cases block : s.block with
  | none =>
      rw [put, block]
      exact dead_unblocked rfl
  | some b =>
      rw [put, block]
      intro c same
      rw [← Option.some.inj same]
      exact dead b block

theorem dead_fail : s.fail.Dead := by
  intro b block
  obtain ⟨c, _, same⟩ := Option.map_eq_some_iff.mp block
  rw [← same]

theorem dead_commit : s.commit.Dead := by
  cases block : s.block with
  | none =>
      rw [commit, block]
      exact dead_unblocked block
  | some b =>
      rw [commit, block]
      exact dead_unblocked rfl

theorem dead_rollback : s.rollback.Dead := dead_unblocked rfl

-- A savepoint has no place there, and none to be released.
theorem dead_savepoint (dead : s.Dead) (name : String) : s.savepoint name = none := by
  cases block : s.block with
  | none => rw [savepoint, block]
  | some b =>
      rw [savepoint, block]
      exact if_pos (dead b block)

theorem dead_release (dead : s.Dead) (name : String) : s.release name = none := by
  cases block : s.block with
  | none => rw [release, block]
  | some b =>
      rw [release, block]
      exact if_pos (dead b block)

theorem dead_idle {β : Type} (dead : s.Dead) (key : α → β) : Idle key (key s.base) s := ⟨rfl, dead⟩

end

end Store

end Lib
