set_option autoImplicit false

namespace Lib

variable {σ ι : Type}

-- A deterministic system taking one input after another.
def run (step : σ → ι → σ) (s : σ) (is : List ι) : σ := is.foldl step s

-- Every step of the run meets p, a property of the input and the state before it.
def Along (p : σ → ι → Prop) (step : σ → ι → σ) : σ → List ι → Prop
  | _, [] => True
  | s, i :: is => p s i ∧ Along p step (step s i) is

@[simp] theorem run_nil (step : σ → ι → σ) (s : σ) : run step s [] = s := rfl

@[simp] theorem run_cons (step : σ → ι → σ) (s : σ) (i : ι) (is : List ι) :
    run step s (i :: is) = run step (step s i) is := rfl

theorem run_append (step : σ → ι → σ) (s : σ) (left right : List ι) :
    run step s (left ++ right) = run step (run step s left) right := by
  simp [run]

theorem along_append (p : σ → ι → Prop) (step : σ → ι → σ) (s : σ) (left right : List ι) :
    Along p step s (left ++ right) ↔ Along p step s left ∧ Along p step (run step s left) right := by
  induction left generalizing s with
  | nil => simp [Along]
  | cons i is ih => simp [Along, ih, and_assoc]

instance decidableAlong (p : σ → ι → Prop) [∀ s i, Decidable (p s i)] (step : σ → ι → σ) : ∀ s is, Decidable (Along p step s is)
  | _, [] => inferInstanceAs (Decidable True)
  | s, i :: is =>
      have := decidableAlong p step (step s i) is
      inferInstanceAs (Decidable (p s i ∧ Along p step (step s i) is))

-- A property of the inputs alone.
theorem along_of_mem (p : σ → ι → Prop) (step : σ → ι → σ) (s : σ) (is : List ι) (each : ∀ i ∈ is, ∀ t, p t i) : Along p step s is := by
  induction is generalizing s with
  | nil => trivial
  | cons i is ih => exact ⟨each i List.mem_cons_self s, ih (step s i) fun j there => each j (List.mem_cons_of_mem i there)⟩

-- What one step preserves while it meets ok, a whole run of such steps preserves.
theorem run_invariant (ok : σ → ι → Prop) (step : σ → ι → σ) (inv : σ → Prop)
    (preserved : ∀ s i, ok s i → inv s → inv (step s i)) (s : σ) (is : List ι)
    (allowed : Along ok step s is) (init : inv s) : inv (run step s is) := by
  induction is generalizing s with
  | nil => exact init
  | cons i is ih => exact ih (step s i) allowed.2 (preserved s i allowed.1 init)

theorem run_always (step : σ → ι → σ) (inv : σ → Prop) (preserved : ∀ s i, inv s → inv (step s i)) (s : σ) (is : List ι)
    (init : inv s) : inv (run step s is) := by
  induction is generalizing s with
  | nil => exact init
  | cons i is ih => exact ih (step s i) (preserved s i init)

-- With an invariant in hand, what each step guarantees holds at every step of a run.
theorem along_invariant (ok post : σ → ι → Prop) (step : σ → ι → σ) (inv : σ → Prop)
    (preserved : ∀ s i, ok s i → inv s → inv (step s i) ∧ post s i) (s : σ) (is : List ι)
    (allowed : Along ok step s is) (init : inv s) : Along post step s is := by
  induction is generalizing s with
  | nil => trivial
  | cons i is ih =>
      obtain ⟨next, here⟩ := preserved s i allowed.1 init
      exact ⟨here, ih (step s i) allowed.2 next⟩

-- Where a step from a good state leads to a good one exactly if it is ok, the run stays
-- good throughout exactly if all its steps are. What holds anyway is base.
theorem throughout_iff (ok : σ → ι → Prop) (step : σ → ι → σ) (base good : σ → Prop) (kept : ∀ s i, base s → base (step s i))
    (decides : ∀ s i, base s → good s → (good (step s i) ↔ ok s i)) (s : σ) (is : List ι) (start : base s) (init : good s) :
    (∀ n, good (run step s (is.take n))) ↔ Along ok step s is := by
  induction is generalizing s with
  | nil => simp [Along, init]
  | cons i is ih =>
      have split : (∀ n, good (run step s ((i :: is).take n))) ↔ ∀ n, good (run step (step s i) (is.take n)) := by
        constructor
        · exact fun each n => each (n + 1)
        · intro each n
          cases n with
          | zero => exact init
          | succ n => exact each n
      rw [split, Along]
      constructor
      · intro each
        have next : good (step s i) := each 0
        exact ⟨(decides s i start init).mp next, (ih (step s i) (kept s i start) next).mp each⟩
      · intro ⟨here, rest⟩
        have next : good (step s i) := (decides s i start init).mpr here
        exact (ih (step s i) (kept s i start) next).mpr rest

section

variable {τ ω : Type}

-- Where every step gives an answer.
def moved (step : σ → ι → ω × σ) (s : σ) (i : ι) : σ := (step s i).2

def answers (step : σ → ι → ω × σ) : σ → List ι → List ω
  | _, [] => []
  | s, i :: is => (step s i).1 :: answers step (moved step s i) is

-- Two systems that agree on every step the second is allowed from related states agree on
-- every run it is allowed, and stay related.
theorem answers_simulated (step : σ → ι → ω × σ) (plain : τ → ι → ω × τ) (rel : σ → τ → Prop) (ok : τ → ι → Prop)
    (each : ∀ s t i, ok t i → rel s t → (step s i).1 = (plain t i).1 ∧ rel (moved step s i) (moved plain t i)) (is : List ι) (s : σ) (t : τ)
    (allowed : Along ok (moved plain) t is) (start : rel s t) :
    answers step s is = answers plain t is ∧ rel (run (moved step) s is) (run (moved plain) t is) := by
  induction is generalizing s t with
  | nil => exact ⟨rfl, start⟩
  | cons i is ih =>
      obtain ⟨here, next⟩ := each s t i allowed.1 start
      obtain ⟨later, last⟩ := ih (moved step s i) (moved plain t i) allowed.2 next
      rw [answers, answers, here, later]
      exact ⟨rfl, last⟩

end

end Lib
