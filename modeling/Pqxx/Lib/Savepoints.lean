import Pqxx.Lib.Nest
import Pqxx.Lib.Store

set_option autoImplicit false

namespace Lib

variable {ι α β γ : Type}

-- The savepoints of nested transactions, the innermost first: the one of i shows what would
-- be left without i. Those of transactions that are gone may lie between them.
inductive Savepoints (name : ι → String) (shows : β → γ) (left : ι → γ) : List ι → List (String × β) → Prop
  | nil : Savepoints name shows left [] []
  | save (i : ι) (path : List ι) (saves : List (String × β)) (view : β) (same : shows view = left i)
      (below : Savepoints name shows left path saves) : Savepoints name shows left (i :: path) ((name i, view) :: saves)
  | gone (path : List ι) (saves : List (String × β)) (old : String) (view : β) (other : ∀ i ∈ path, name i ≠ old)
      (below : Savepoints name shows left path saves) : Savepoints name shows left path ((old, view) :: saves)

section

variable {name name' : ι → String} {shows : β → γ} {left left' : ι → γ} {path : List ι} {saves : List (String × β)}

theorem savepoints_cut {i : ι} (stacked : Savepoints name shows left (i :: path) saves) :
    ∃ kept, cut (name i) saves = some kept ∧ shows kept.1 = left i ∧ Savepoints name shows left path kept.2 := by
  generalize whole : i :: path = all at stacked
  induction stacked with
  | nil => cases whole
  | save k rest saves view same below =>
      cases whole
      exact ⟨(view, saves), by rw [cut, if_pos rfl], same, below⟩
  | gone rest saves old view other below ih =>
      subst whole
      obtain ⟨kept, found, same, onward⟩ := ih rfl
      exact ⟨kept, by rw [cut, if_neg (other i List.mem_cons_self).symm]; exact found, same, onward⟩

theorem savepoints_congr (stacked : Savepoints name shows left path saves)
    (same : ∀ i ∈ path, name' i = name i ∧ left' i = left i) : Savepoints name' shows left' path saves := by
  induction stacked with
  | nil => exact .nil
  | save i rest saves view shown below ih =>
      obtain ⟨named, kept⟩ := same i List.mem_cons_self
      rw [← named]
      exact .save i rest saves view (shown.trans kept.symm) (ih fun j there => same j (List.mem_cons_of_mem _ there))
  | gone rest saves old view other below ih =>
      refine .gone rest saves old view (fun i there => ?_) (ih same)
      rw [(same i there).1]
      exact other i there

end

-- A block with its savepoints carries out nested transactions: it shows what stands, after
-- what there was before.
structure Carries (name : ι → String) (shows : β → List (ι × α)) (before : List (ι × α)) [DecidableEq ι]
    (n : Nest ι α) (at_ : ι) (b : Block β) : Prop where
  live : b.failed = false
  view : shows b.view = before ++ n.standing
  stacked : Savepoints name shows (fun i => before ++ n.without i) (n.path at_) b.saves

section

variable [DecidableEq ι] {name : ι → String} {shows : β → List (ι × α)} {before : List (ι × α)} {n : Nest ι α} {at_ i p : ι} {b : Block β}

theorem carries_enter {name' : ι → String} (sound : n.Sound) (proper : n.Proper (.enter i p)) (inner : n.Inner at_)
    (carries : Carries name shows before n at_ b) (same : ∀ j ∈ n.path at_, name' j = name j) :
    Carries name' shows before (n.step (.enter i p)) at_ b := by
  have other : at_ ≠ i := by
    rintro rfl
    rcases inner.1 with root | there
    · exact proper.1 root
    · exact proper.2.1 there
  refine ⟨carries.live, carries.view.trans (by rw [Nest.standing_enter sound proper]), ?_⟩
  rw [Nest.enter_path other]
  refine savepoints_congr carries.stacked fun j there => ⟨same j there, ?_⟩
  rw [Nest.without_enter sound proper]

-- SAVEPOINT, with the first that is done in a transaction.
theorem carries_begin (sound : n.Sound) (carries : Carries name shows before n at_ b) (fresh : i ∉ n.begun)
    (path : n.path i = i :: n.path p) (here : n.path at_ = n.path p) :
    Carries name shows before (n.begin i) i { b with saves := (name i, b.view) :: b.saves } := by
  refine ⟨carries.live, carries.view, ?_⟩
  have stacked := carries.stacked
  rw [here] at stacked
  change Savepoints name shows (fun j => before ++ n.without j) (n.path i) _
  rw [path]
  refine .save i _ _ _ ?_ stacked
  rw [Nest.without_fresh sound fresh]
  exact carries.view

theorem carries_perform {a : α} {view : β} (going : ∀ j ∈ n.path i, ¬ n.Closed j) (here : n.path at_ = n.path i)
    (carries : Carries name shows before n at_ b) (more : shows view = shows b.view ++ [(i, a)]) :
    Carries name shows before (n.perform i a) i { b with view } := by
  refine ⟨carries.live, ?_, ?_⟩
  · rw [Nest.standing_perform going, ← List.append_assoc, ← carries.view]
    exact more
  · have stacked := carries.stacked
    rw [here] at stacked
    refine savepoints_congr stacked fun j there => ⟨rfl, ?_⟩
    have inside : j ∈ n.path i := there
    rw [Nest.without_perform inside]

-- RELEASE SAVEPOINT.
theorem carries_commit (carries : Carries name shows before n i b) (path : n.path i = i :: n.path p) :
    ∃ kept, cut (name i) b.saves = some kept ∧ Carries name shows before (n.step (.commit i)) p { b with saves := kept.2 } := by
  have stacked := carries.stacked
  rw [path] at stacked
  obtain ⟨kept, found, _, onward⟩ := savepoints_cut stacked
  exact ⟨kept, found, carries.live, carries.view, onward⟩

-- ROLLBACK TO SAVEPOINT.
theorem carries_abort (sound : n.Sound) (carries : Carries name shows before n i b) (path : n.path i = i :: n.path p)
    (apart : ∀ j ∈ n.path p, name j ≠ name i) :
    ∃ kept, cut (name i) b.saves = some kept ∧
      Carries name shows before (n.step (.abort i)) p { view := kept.1, saves := (name i, kept.1) :: kept.2, failed := false } := by
  have stacked := carries.stacked
  rw [path] at stacked
  obtain ⟨kept, found, same, onward⟩ := savepoints_cut stacked
  refine ⟨kept, found, rfl, same, .gone _ _ _ _ apart ?_⟩
  refine savepoints_congr onward fun j there => ⟨rfl, ?_⟩
  rw [Nest.without_abort sound (by rw [path]; exact List.mem_cons_of_mem _ there)]

-- A transaction that was never begun leaves nothing behind.
theorem carries_idle (sound : n.Sound) (carries : Carries name shows before n at_ b) (fresh : i ∉ n.begun) :
    Carries name shows before (n.step (.commit i)) at_ b ∧ Carries name shows before (n.step (.abort i)) at_ b := by
  refine ⟨⟨carries.live, carries.view, carries.stacked⟩, carries.live, ?_, ?_⟩
  · have same := Nest.without_fresh sound fresh
    exact carries.view.trans (congrArg (before ++ ·) same.symm)
  · refine savepoints_congr carries.stacked fun j _ => ⟨rfl, ?_⟩
    rw [Nest.without_idle sound fresh]

end

end Lib
