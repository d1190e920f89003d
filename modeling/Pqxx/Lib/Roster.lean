import Mathlib.Data.List.Nodup

set_option autoImplicit false

namespace Lib

variable {γ η : Type} [DecidableEq γ] [DecidableEq η]

-- Guests and the hosts they are with, in the order they came; no guest is with two hosts.
structure Roster (γ η : Type) where
  entries : List (γ × η)
  single : (entries.map Prod.fst).Nodup

namespace Roster

def empty : Roster γ η := ⟨[], List.nodup_nil⟩

omit [DecidableEq γ] [DecidableEq η] in
theorem single_filter (r : Roster γ η) (keep : γ × η → Bool) : ((r.entries.filter keep).map Prod.fst).Nodup :=
  (List.filter_sublist.map Prod.fst).nodup r.single

def leave (r : Roster γ η) (g : γ) : Roster γ η := ⟨r.entries.filter fun e => e.1 ≠ g, r.single_filter _⟩

def disband (r : Roster γ η) (h : η) : Roster γ η := ⟨r.entries.filter fun e => e.2 ≠ h, r.single_filter _⟩

omit [DecidableEq η] in
theorem leave_absent (r : Roster γ η) (g : γ) : g ∉ (r.leave g).entries.map Prod.fst := by
  intro there
  obtain ⟨e, there, rfl⟩ := List.mem_map.mp there
  have other := (List.mem_filter.mp there).2
  simp at other

-- One that was with another host before is not any more.
def join (r : Roster γ η) (g : γ) (h : η) : Roster γ η where
  entries := (r.leave g).entries ++ [(g, h)]
  single := by
    rw [List.map_append]
    refine (r.leave g).single.append (List.nodup_singleton g) ?_
    intro other there here
    obtain rfl := List.mem_singleton.mp here
    exact r.leave_absent other there

def host (r : Roster γ η) (g : γ) : Option η := (r.entries.find? fun e => e.1 = g).map Prod.snd

def guests (r : Roster γ η) (h : η) : List γ := (r.entries.filter fun e => e.2 = h).map Prod.fst

omit [DecidableEq η] in
-- The two ways of looking at a roster agree.
theorem host_iff (r : Roster γ η) (g : γ) (h : η) : r.host g = some h ↔ (g, h) ∈ r.entries := by
  constructor
  · intro found
    obtain ⟨e, here, rfl⟩ := Option.map_eq_some_iff.mp found
    have same : e.1 = g := by simpa using List.find?_some here
    rw [← same]
    exact List.mem_of_find?_eq_some here
  · intro there
    rw [host]
    cases found : r.entries.find? fun e => e.1 = g with
    | none =>
        have none := List.find?_eq_none.mp found (g, h) there
        simp at none
    | some e =>
        have same : e.1 = g := by simpa using List.find?_some found
        have one := List.inj_on_of_nodup_map r.single (List.mem_of_find?_eq_some found) there same
        rw [one]
        rfl

theorem mem_guests (r : Roster γ η) (g : γ) (h : η) : g ∈ r.guests h ↔ r.host g = some h := by
  rw [host_iff]
  constructor
  · intro guest
    obtain ⟨e, listed, rfl⟩ := List.mem_map.mp guest
    obtain ⟨entry, same⟩ := List.mem_filter.mp listed
    have same : e.2 = h := by simpa using same
    rw [← same]
    exact entry
  · intro there
    exact List.mem_map.mpr ⟨(g, h), List.mem_filter.mpr ⟨there, by simp⟩, rfl⟩

omit [DecidableEq η] in
theorem host_none (r : Roster γ η) (g : γ) : r.host g = none ↔ ∀ h, (g, h) ∉ r.entries := by
  rw [Option.eq_none_iff_forall_ne_some]
  exact forall_congr' fun h => not_congr (r.host_iff g h)

omit [DecidableEq η] in
theorem leave_same (r : Roster γ η) (g : γ) (away : r.host g = none) : r.leave g = r := by
  have all : r.entries.filter (fun e => e.1 ≠ g) = r.entries := by
    refine List.filter_eq_self.mpr fun e there => ?_
    have other : e.1 ≠ g := by
      rintro rfl
      exact (r.host_none e.1).mp away e.2 there
    simpa using other
  cases r
  simp only [leave, Roster.mk.injEq]
  exact all

omit [DecidableEq η] in
theorem host_leave (r : Roster γ η) (g other : γ) : (r.leave g).host other = if other = g then none else r.host other := by
  refine Option.ext fun h => ?_
  rw [host_iff]
  simp only [leave, List.mem_filter]
  split
  · rename_i same
    simp [same]
  · rename_i different
    rw [host_iff]
    simp [different]

omit [DecidableEq η] in
theorem host_join (r : Roster γ η) (g other : γ) (h : η) :
    (r.join g h).host other = if other = g then some h else r.host other := by
  refine Option.ext fun h' => ?_
  rw [host_iff]
  simp only [join, List.mem_append, List.mem_singleton, Prod.mk.injEq]
  rw [← host_iff, host_leave]
  split
  · rename_i same
    simp [same, eq_comm]
  · rename_i different
    simp [different]

theorem host_disband (r : Roster γ η) (h : η) (g : γ) : (r.disband h).host g = if r.host g = some h then none else r.host g := by
  refine Option.ext fun h' => ?_
  rw [host_iff]
  simp only [disband, List.mem_filter]
  rw [← host_iff]
  split
  · rename_i same
    constructor
    · rintro ⟨there, other⟩
      rw [same] at there
      simp [Option.some.inj there] at other
    · intro there
      cases there
  · rename_i different
    constructor
    · exact And.left
    · intro there
      refine ⟨there, ?_⟩
      simp only [ne_eq, decide_not, Bool.not_eq_eq_eq_not, Bool.not_true, decide_eq_false_iff_not]
      rintro rfl
      exact different there

omit [DecidableEq γ] in
theorem guests_filter (r : Roster γ η) (h : η) (keep : γ → Bool) :
    ((r.entries.filter fun e => keep e.1).filter fun e => e.2 = h).map Prod.fst = (r.guests h).filter keep := by
  rw [guests, List.filter_map, List.filter_comm]
  rfl

theorem guests_leave (r : Roster γ η) (g : γ) (h : η) : (r.leave g).guests h = (r.guests h).filter fun other => other ≠ g :=
  guests_filter r h fun other => other ≠ g

-- Who comes is the last.
theorem guests_join (r : Roster γ η) (g : γ) (h other : η) (away : r.host g = none) :
    (r.join g h).guests other = if other = h then r.guests other ++ [g] else r.guests other := by
  have entries : (r.join g h).entries = r.entries ++ [(g, h)] := by
    show (r.leave g).entries ++ [(g, h)] = _
    rw [leave_same r g away]
  rw [guests, entries, List.filter_append, List.map_append]
  split
  · rename_i same
    simp [same, guests]
  · rename_i different
    simp [Ne.symm different, guests]

omit [DecidableEq γ] in
theorem guests_disband (r : Roster γ η) (h other : η) : (r.disband h).guests other = if other = h then [] else r.guests other := by
  simp only [guests, disband, List.filter_filter]
  split
  · rename_i same
    rw [List.map_eq_nil_iff, List.filter_eq_nil_iff]
    intro e _
    simp [same]
  · rename_i different
    congr 1
    refine List.filter_congr fun e _ => ?_
    by_cases same : e.2 = other
    · simp [same, different]
    · simp [same]

end Roster

end Lib
