import Mathlib.Data.List.Basic

set_option autoImplicit false

namespace Lib

variable {α : Type}

-- What passes through a queue in some time: what comes in at its end and what goes out at its
-- front, where each item is served or dropped.
structure Passage (α : Type) where
  came : List α
  gone : List (α × Bool)

namespace Passage

def served (p : Passage α) : List α := (p.gone.filter Prod.snd).map Prod.fst

def whole (p : Passage α) : Bool := p.gone.all Prod.snd

-- The queue was at first before and is after in the end.
def Links (p : Passage α) (before after : List α) : Prop := before ++ p.came = p.gone.map Prod.fst ++ after

def idle : Passage α := { came := [], gone := [] }

def arrive (items : List α) : Passage α := { came := items, gone := [] }

def serve (items : List α) : Passage α := { came := [], gone := items.map fun item => (item, true) }

def drop (items : List α) : Passage α := { came := [], gone := items.map fun item => (item, false) }

-- One after the other.
def onward (p q : Passage α) : Passage α := { came := p.came ++ q.came, gone := p.gone ++ q.gone }

theorem filter_all (items : List α) : (items.map fun item => (item, true)).filter Prod.snd = items.map fun item => (item, true) := by
  apply List.filter_eq_self.mpr
  intro item there
  obtain ⟨_, _, rfl⟩ := List.mem_map.mp there
  rfl

theorem map_fst (items : List α) (kept : Bool) : (items.map fun item => (item, kept)).map Prod.fst = items := by
  rw [List.map_map]
  exact List.map_id items

@[simp] theorem served_serve (items : List α) : (serve items).served = items := by
  rw [served, serve, filter_all, map_fst]

@[simp] theorem served_drop (items : List α) : (drop items).served = [] := by
  rw [served, drop]
  have none_ : (items.map fun item => (item, false)).filter Prod.snd = [] := by
    apply List.filter_eq_nil_iff.mpr
    intro item there
    obtain ⟨_, _, rfl⟩ := List.mem_map.mp there
    exact Bool.false_ne_true
  rw [none_]
  rfl

@[simp] theorem served_onward (p q : Passage α) : (p.onward q).served = p.served ++ q.served := by
  rw [served, onward, List.filter_append, List.map_append]
  rfl

theorem whole_onward (p q : Passage α) : (p.onward q).whole = (p.whole && q.whole) := List.all_append

theorem whole_serve (items : List α) : (serve items).whole = true := by
  rw [whole, serve, List.all_map]
  exact List.all_eq_true.mpr fun _ _ => rfl

theorem links_idle (queue : List α) : idle.Links queue queue := List.append_nil queue

theorem links_arrive (queue items : List α) : (arrive items).Links queue (queue ++ items) := rfl

theorem links_serve (queue : List α) : (serve queue).Links queue [] := by
  rw [Links, serve, map_fst]

theorem links_drop (queue : List α) : (drop queue).Links queue [] := by
  rw [Links, drop, map_fst]

theorem links_onward {p q : Passage α} {before between after : List α} (first : p.Links before between) (second : q.Links between after) :
    (p.onward q).Links before after := by
  rw [Links] at first second
  calc before ++ (p.came ++ q.came)
      = (before ++ p.came) ++ q.came := (List.append_assoc _ _ _).symm
    _ = p.gone.map Prod.fst ++ (between ++ q.came) := by rw [first, List.append_assoc]
    _ = (p.gone ++ q.gone).map Prod.fst ++ after := by rw [second, List.map_append, List.append_assoc]

-- Where nothing is dropped, what came through has been served, and the rest is still there.
theorem whole_links {p : Passage α} {before after : List α} (links : p.Links before after) (whole : p.whole = true) :
    before ++ p.came = p.served ++ after := by
  have all : p.gone.filter Prod.snd = p.gone := List.filter_eq_self.mpr (List.all_eq_true.mp whole)
  rw [served, all]
  exact links

end Passage

end Lib
