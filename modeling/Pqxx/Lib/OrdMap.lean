import Mathlib.Data.List.Basic
import Mathlib.Order.Lattice
import Mathlib.Tactic.SplitIfs

set_option autoImplicit false

namespace Lib

-- An ordered map with unique keys, kept in key order as an iteration visits it.
structure OrdMap (κ ν : Type) [LinearOrder κ] where
  entries : List (κ × ν)
  sorted : entries.Pairwise fun a b => a.1 < b.1

namespace OrdMap

variable {κ ν : Type} [LinearOrder κ]

def lookup (k : κ) : List (κ × ν) → Option ν
  | [] => none
  | (k', v) :: rest => if k = k' then some v else lookup k rest

-- Puts v at k; keep decides what becomes of a value that is there already.
def place (keep : ν → ν → ν) (k : κ) (v : ν) : List (κ × ν) → List (κ × ν)
  | [] => [(k, v)]
  | (k', v') :: rest =>
      if k < k' then (k, v) :: (k', v') :: rest
      else if k = k' then (k', keep v' v) :: rest
      else (k', v') :: place keep k v rest

theorem place_keys (keep : ν → ν → ν) (k : κ) (v : ν) (es : List (κ × ν)) (e : κ × ν) (present : e ∈ place keep k v es) :
    e.1 = k ∨ ∃ old ∈ es, old.1 = e.1 := by
  induction es with
  | nil =>
      simp only [place, List.mem_singleton] at present
      exact .inl (congrArg Prod.fst present)
  | cons head rest ih =>
      obtain ⟨k', v'⟩ := head
      simp only [place] at present
      split_ifs at present with less same
      · rcases List.mem_cons.mp present with rfl | old
        · exact .inl rfl
        · exact .inr ⟨e, old, rfl⟩
      · rcases List.mem_cons.mp present with rfl | old
        · exact .inl same.symm
        · exact .inr ⟨e, List.mem_cons_of_mem _ old, rfl⟩
      · rcases List.mem_cons.mp present with rfl | old
        · exact .inr ⟨_, List.mem_cons_self, rfl⟩
        · exact (ih old).imp_right fun ⟨o, there, key⟩ => ⟨o, List.mem_cons_of_mem _ there, key⟩

theorem place_sorted (keep : ν → ν → ν) (k : κ) (v : ν) (es : List (κ × ν)) (sorted : es.Pairwise fun a b => a.1 < b.1) :
    (place keep k v es).Pairwise fun a b => a.1 < b.1 := by
  induction es with
  | nil => exact List.pairwise_singleton _ _
  | cons head rest ih =>
      obtain ⟨k', v'⟩ := head
      obtain ⟨above, sortedRest⟩ := List.pairwise_cons.mp sorted
      simp only [place]
      split_ifs with less same
      · refine List.pairwise_cons.mpr ⟨fun e there => ?_, sorted⟩
        rcases List.mem_cons.mp there with rfl | later
        · exact less
        · exact lt_trans less (above e later)
      · exact List.pairwise_cons.mpr ⟨above, sortedRest⟩
      · refine List.pairwise_cons.mpr ⟨fun e there => ?_, ih sortedRest⟩
        rcases place_keys keep k v rest e there with key | ⟨old, there, key⟩
        · rw [key]
          exact lt_of_le_of_ne (not_lt.mp less) (Ne.symm same)
        · rw [← key]
          exact above old there

def empty : OrdMap κ ν := ⟨[], List.Pairwise.nil⟩

def find (m : OrdMap κ ν) (k : κ) : Option ν := lookup k m.entries

-- std::map::insert leaves a value that is there alone; operator[] = overwrites it.
def insert (m : OrdMap κ ν) (k : κ) (v : ν) : OrdMap κ ν :=
  ⟨place (fun old _ => old) k v m.entries, place_sorted _ k v m.entries m.sorted⟩

def set (m : OrdMap κ ν) (k : κ) (v : ν) : OrdMap κ ν :=
  ⟨place (fun _ new => new) k v m.entries, place_sorted _ k v m.entries m.sorted⟩

def erase (m : OrdMap κ ν) (k : κ) : OrdMap κ ν :=
  ⟨m.entries.filter fun e => decide (e.1 ≠ k), m.sorted.filter _⟩

def mapValues (m : OrdMap κ ν) (f : κ → ν → ν) : OrdMap κ ν :=
  ⟨m.entries.map fun e => (e.1, f e.1 e.2), List.pairwise_map.mpr m.sorted⟩

-- The key an iterator at k is incremented to; none is end().
def next (m : OrdMap κ ν) (k : κ) : Option κ := (m.entries.find? fun e => decide (k < e.1)).map Prod.fst

def begin (m : OrdMap κ ν) : Option κ := m.entries.head?.map Prod.fst

theorem lookup_missing {k : κ} {es : List (κ × ν)} (absent : ∀ e ∈ es, k ≠ e.1) : lookup k es = none := by
  induction es with
  | nil => rfl
  | cons e rest ih =>
      rw [lookup, if_neg (absent e List.mem_cons_self)]
      exact ih fun later there => absent later (List.mem_cons_of_mem _ there)

theorem lookup_place (keep : ν → ν → ν) (k : κ) (v : ν) (es : List (κ × ν)) (sorted : es.Pairwise fun a b => a.1 < b.1) (j : κ) :
    lookup j (place keep k v es) = if j = k then some ((lookup k es).elim v fun old => keep old v) else lookup j es := by
  induction es with
  | nil => simp only [place, lookup, Option.elim]
  | cons head rest ih =>
      obtain ⟨k', v'⟩ := head
      obtain ⟨above, sortedRest⟩ := List.pairwise_cons.mp sorted
      have missing (less : k < k') : lookup k rest = none := lookup_missing fun e there => ne_of_lt (lt_trans less (above e there))
      simp only [place]
      by_cases less : k < k'
      · rw [if_pos less]
        by_cases here : j = k
        · subst here
          simp only [lookup, if_true, if_neg (ne_of_lt less), missing less, Option.elim]
        · simp only [lookup, if_neg here]
      · by_cases same : k = k'
        · subst same
          by_cases here : j = k
          · simp only [if_neg less, if_true, lookup, if_pos here, Option.elim]
          · simp only [if_neg less, if_true, lookup, if_neg here]
        · rw [if_neg less, if_neg same, lookup, ih sortedRest, lookup, lookup, if_neg same]
          by_cases here : j = k
          · have other : j ≠ k' := fun there => same (here.symm.trans there)
            rw [if_pos here, if_pos here, if_neg other]
          · rw [if_neg here, if_neg here]

-- A key beyond all others goes to the end.
theorem entries_insert_last (m : OrdMap κ ν) (k : κ) (v : ν) (last : ∀ e ∈ m.entries, e.1 < k) :
    (m.insert k v).entries = m.entries ++ [(k, v)] := by
  have placed : ∀ es : List (κ × ν), (∀ e ∈ es, e.1 < k) → place (fun old _ => old) k v es = es ++ [(k, v)] := by
    intro es
    induction es with
    | nil => exact fun _ => rfl
    | cons head rest ih =>
        intro below
        have less := below head List.mem_cons_self
        rw [place, if_neg (lt_asymm less), if_neg (ne_of_gt less), ih fun e there => below e (List.mem_cons_of_mem head there)]
        rfl
  exact placed m.entries last

theorem empty_of_entries (m : OrdMap κ ν) (nothing : m.entries = []) : m = empty := by
  obtain ⟨entries, sorted⟩ := m
  obtain rfl := nothing
  rfl

@[simp] theorem find_empty (k : κ) : (empty : OrdMap κ ν).find k = none := rfl

theorem find_insert (m : OrdMap κ ν) (k j : κ) (v : ν) :
    (m.insert k v).find j = if j = k then some ((m.find k).getD v) else m.find j := by
  rw [find, insert, lookup_place _ _ _ _ m.sorted]
  simp only [find]
  cases lookup k m.entries <;> rfl

theorem find_set (m : OrdMap κ ν) (k j : κ) (v : ν) : (m.set k v).find j = if j = k then some v else m.find j := by
  rw [find, set, lookup_place _ _ _ _ m.sorted]
  simp only [find]
  cases lookup k m.entries <;> rfl

-- All that another map holds, put into this one.
theorem find_set_all (m m' : OrdMap κ ν) (j : κ) :
    (m'.entries.foldl (fun m e => m.set e.1 e.2) m).find j = (m'.find j).or (m.find j) := by
  obtain ⟨entries, sorted⟩ := m'
  simp only [find]
  induction entries generalizing m with
  | nil => rfl
  | cons head rest ih =>
      obtain ⟨k, v⟩ := head
      obtain ⟨above, sortedRest⟩ := List.pairwise_cons.mp sorted
      rw [List.foldl_cons, ih (m.set k v) sortedRest]
      have put := find_set m k j v
      simp only [find] at put
      rw [put, lookup]
      split_ifs with here
      · rw [lookup_missing fun e there => by rw [here]; exact ne_of_lt (above e there)]
        rfl
      · rfl

theorem find_erase (m : OrdMap κ ν) (k j : κ) : (m.erase k).find j = if j = k then none else m.find j := by
  simp only [find, erase]
  induction m.entries with
  | nil => simp only [List.filter_nil, lookup, ite_self]
  | cons head rest ih =>
      obtain ⟨k', v'⟩ := head
      by_cases same : k' = k
      · simp only [List.filter_cons, same, ne_eq, not_true, decide_false, Bool.false_eq_true, if_false, ih, lookup]
        split_ifs <;> rfl
      · simp only [List.filter_cons, ne_eq, same, not_false_eq_true, decide_true, if_true, lookup, ih]
        by_cases here : j = k'
        · have other : j ≠ k := fun there => same (here.symm.trans there)
          rw [if_pos here, if_neg other, if_pos here]
        · rw [if_neg here, if_neg here]

theorem find_map_values (m : OrdMap κ ν) (f : κ → ν → ν) (j : κ) : (m.mapValues f).find j = (m.find j).map (f j) := by
  simp only [find, mapValues]
  induction m.entries with
  | nil => rfl
  | cons head rest ih =>
      simp only [List.map_cons, lookup, ih]
      split_ifs with here
      · rw [here]
        rfl
      · rfl

theorem next_map_values (m : OrdMap κ ν) (f : κ → ν → ν) (k : κ) : (m.mapValues f).next k = m.next k := by
  simp only [next, mapValues, List.find?_map, Option.map_map]
  rfl

theorem mem_entries_iff (m : OrdMap κ ν) (k : κ) (v : ν) : (k, v) ∈ m.entries ↔ m.find k = some v := by
  obtain ⟨entries, sorted⟩ := m
  simp only [find]
  induction entries with
  | nil => simp only [List.not_mem_nil, lookup, reduceCtorEq]
  | cons head rest ih =>
      obtain ⟨k', v'⟩ := head
      obtain ⟨above, sortedRest⟩ := List.pairwise_cons.mp sorted
      simp only [List.mem_cons, Prod.mk.injEq, lookup, ih sortedRest]
      split_ifs with here
      · subst here
        constructor
        · rintro (⟨-, rfl⟩ | later)
          · rfl
          · exact absurd (above (k, v) ((ih sortedRest).mpr later)) (lt_irrefl k)
        · intro same
          exact .inl ⟨rfl, (Option.some.inj same).symm⟩
      · simp only [here, false_and, false_or]

theorem next_eq_some (m : OrdMap κ ν) (k j : κ) (v : ν) (there : m.find j = some v) (less : k < j)
    (least : ∀ i w, m.find i = some w → k < i → j ≤ i) : m.next k = some j := by
  have member := (m.mem_entries_iff j v).mpr there
  obtain ⟨e, found⟩ : ∃ e, m.entries.find? (fun e => decide (k < e.1)) = some e := by
    rw [← Option.isSome_iff_exists, List.find?_isSome]
    exact ⟨(j, v), member, by simpa using less⟩
  have above : k < e.1 := by simpa using List.find?_some found
  have minimal : j ≤ e.1 := least e.1 e.2 ((m.mem_entries_iff e.1 e.2).mp (List.mem_of_find?_eq_some found)) above
  obtain ⟨_, before, after, split, smaller⟩ := List.find?_eq_some_iff_append.mp found
  have first : e.1 ≤ j := by
    rw [split] at member
    rcases List.mem_append.mp member with early | late
    · exact absurd less (by simpa using smaller (j, v) early)
    · rcases List.mem_cons.mp late with rfl | later
      · exact le_refl _
      · have order := m.sorted
        rw [split] at order
        exact le_of_lt ((List.pairwise_cons.mp (List.pairwise_append.mp order).2.1).1 (j, v) later)
  simp only [next, found, Option.map_some, le_antisymm first minimal]

theorem next_eq_none (m : OrdMap κ ν) (k : κ) (last : ∀ i w, m.find i = some w → i ≤ k) : m.next k = none := by
  have nothing : m.entries.find? (fun e => decide (k < e.1)) = none := by
    rw [List.find?_eq_none]
    intro e there
    simpa using last e.1 e.2 ((m.mem_entries_iff e.1 e.2).mp there)
  simp only [next, nothing, Option.map_none]

theorem begin_eq_some (m : OrdMap κ ν) (k : κ) (v : ν) (there : m.find k = some v) :
    ∃ j w, m.begin = some j ∧ m.find j = some w := by
  obtain ⟨entries, sorted⟩ := m
  cases entries with
  | nil => simp only [find, lookup, reduceCtorEq] at there
  | cons head rest =>
      refine ⟨head.1, head.2, rfl, ?_⟩
      exact (mem_entries_iff _ _ _).mp List.mem_cons_self

-- A strictly ordered list is determined by its members.
theorem ordered_ext {es es' : List (κ × ν)} (ordered : es.Pairwise fun a b => a.1 < b.1)
    (ordered' : es'.Pairwise fun a b => a.1 < b.1) (same : ∀ e, e ∈ es ↔ e ∈ es') : es = es' := by
  have distinct : ∀ {l : List (κ × ν)}, (l.Pairwise fun a b => a.1 < b.1) → l.Nodup := by
    intro l sorted
    refine List.Pairwise.imp ?_ sorted
    intro a b less same
    rw [same] at less
    exact lt_irrefl b.1 less
  refine List.Perm.eq_of_pairwise ?_ ordered ordered'
    ((List.perm_ext_iff_of_nodup (distinct ordered) (distinct ordered')).mpr same)
  intro a b _ _ less less'
  exact absurd (lt_trans less less') (lt_irrefl a.1)

end OrdMap

end Lib
