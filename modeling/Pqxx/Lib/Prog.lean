set_option autoImplicit false

namespace Lib

-- A program over a state, which keeps what it did to the state when it throws.
def Prog (σ ε α : Type) : Type := σ → Except ε α × σ

namespace Prog

variable {σ ε α β : Type}

def bind (m : Prog σ ε α) (f : α → Prog σ ε β) : Prog σ ε β := fun s =>
  match m s with
  | (.ok a, next) => f a next
  | (.error e, next) => (.error e, next)

instance : Monad (Prog σ ε) where
  pure a := fun s => (.ok a, s)
  bind := bind

instance : MonadExceptOf ε (Prog σ ε) where
  throw e := fun s => (.error e, s)
  tryCatch m handler := fun s =>
    match m s with
    | (.ok a, next) => (.ok a, next)
    | (.error e, next) => handler e next

def gets (f : σ → α) : Prog σ ε α := fun s => (.ok (f s), s)

def get : Prog σ ε σ := fun s => (.ok s, s)

def modify (f : σ → σ) : Prog σ ε Unit := fun s => (.ok (), f s)

def when (c : Prop) [Decidable c] (m : Prog σ ε Unit) : Prog σ ε Unit := if c then m else pure ()

-- A computation that does not look at the state.
def lift (r : Except ε α) : Prog σ ε α := fun s => (r, s)

@[simp] theorem lift_apply (r : Except ε α) (s : σ) : (lift r : Prog σ ε α) s = (r, s) := rfl

@[simp] theorem pure_apply (a : α) (s : σ) : (pure a : Prog σ ε α) s = (.ok a, s) := rfl

@[simp] theorem bind_apply (m : Prog σ ε α) (f : α → Prog σ ε β) (s : σ) :
    (m >>= f) s = match m s with
      | (.ok a, next) => f a next
      | (.error e, next) => (.error e, next) := rfl

@[simp] theorem throw_apply (e : ε) (s : σ) : (throw e : Prog σ ε α) s = (.error e, s) := rfl

@[simp] theorem try_catch_apply (m : Prog σ ε α) (handler : ε → Prog σ ε α) (s : σ) :
    (tryCatch m handler) s = match m s with
      | (.ok a, next) => (.ok a, next)
      | (.error e, next) => handler e next := rfl

@[simp] theorem gets_apply (f : σ → α) (s : σ) : (gets f : Prog σ ε α) s = (.ok (f s), s) := rfl

@[simp] theorem get_apply (s : σ) : (get : Prog σ ε σ) s = (.ok s, s) := rfl

@[simp] theorem modify_apply (f : σ → σ) (s : σ) : (modify f : Prog σ ε Unit) s = (.ok (), f s) := rfl

@[simp] theorem ite_apply (c : Prop) [Decidable c] (m m' : Prog σ ε α) (s : σ) :
    (if c then m else m') s = if c then m s else m' s := by
  split <;> rfl

theorem when_skip (c : Prop) [Decidable c] (m : Prog σ ε Unit) (s : σ) (no : ¬ c) : when c m s = (.ok (), s) := by
  rw [when, if_neg no]
  rfl

theorem when_run (c : Prop) [Decidable c] (m : Prog σ ε Unit) (s : σ) (yes : c) : when c m s = m s := by
  rw [when, if_pos yes]

-- Every way m ends from s: with a value and a state that meet post, or an exception
-- and a state that meet raised.
def wp (m : Prog σ ε α) (post : α → σ → Prop) (raised : ε → σ → Prop) (s : σ) : Prop :=
  match m s with
  | (.ok a, next) => post a next
  | (.error e, next) => raised e next

variable (post : α → σ → Prop) (raised : ε → σ → Prop)

@[simp] theorem wp_pure (a : α) (s : σ) : wp (pure a) post raised s ↔ post a s := Iff.rfl

@[simp] theorem wp_throw (e : ε) (s : σ) : wp (throw e) post raised s ↔ raised e s := Iff.rfl

@[simp] theorem wp_gets (f : σ → α) (s : σ) : wp (gets f) post raised s ↔ post (f s) s := Iff.rfl

@[simp] theorem wp_get (after : σ → σ → Prop) (s : σ) : wp get after raised s ↔ after s s := Iff.rfl

@[simp] theorem wp_modify (f : σ → σ) (after : Unit → σ → Prop) (s : σ) :
    wp (modify f) after raised s ↔ after () (f s) := Iff.rfl

@[simp] theorem wp_bind (m : Prog σ ε β) (f : β → Prog σ ε α) (s : σ) :
    wp (m >>= f) post raised s ↔ wp m (fun b next => wp (f b) post raised next) raised s := by
  simp only [wp, bind_apply]
  cases m s with
  | mk outcome next => cases outcome <;> rfl

@[simp] theorem wp_try_catch (m : Prog σ ε α) (handler : ε → Prog σ ε α) (s : σ) :
    wp (tryCatch m handler) post raised s ↔ wp m post (fun e next => wp (handler e) post raised next) s := by
  simp only [wp, try_catch_apply]
  cases m s with
  | mk outcome next => cases outcome <;> rfl

-- The first steps of four taken as one.
theorem wp_grouped {γ δ : Type} (m : Prog σ ε β) (f : β → Prog σ ε γ) (g : γ → Prog σ ε δ) (rest : δ → Prog σ ε α) (s : σ) :
    wp (do
        let b ← m
        let c ← f b
        let d ← g c
        rest d) post raised s ↔
      wp (do
        let b ← m
        let c ← f b
        g c) (fun d next => wp (rest d) post raised next) raised s := by
  simp only [wp_bind]

theorem wp_ite (c : Prop) [Decidable c] (m m' : Prog σ ε α) (s : σ) (yes : c → wp m post raised s)
    (no : ¬ c → wp m' post raised s) : wp (if c then m else m') post raised s := by
  by_cases h : c
  · rw [if_pos h]
    exact yes h
  · rw [if_neg h]
    exact no h

theorem wp_when (c : Prop) [Decidable c] (m : Prog σ ε Unit) (after : Unit → σ → Prop) (s : σ)
    (yes : c → wp m after raised s) (no : ¬ c → after () s) : wp (when c m) after raised s :=
  wp_ite after raised c m (pure ()) s yes no

variable {post raised}

theorem wp_ok {m : Prog σ ε α} {s next : σ} {a : α} (outcome : m s = (.ok a, next)) (value : post a next) :
    wp m post raised s := by
  unfold wp
  rw [outcome]
  exact value

theorem wp_error {m : Prog σ ε α} {s next : σ} {e : ε} (outcome : m s = (.error e, next)) (failure : raised e next) :
    wp m post raised s := by
  unfold wp
  rw [outcome]
  exact failure

theorem wp_returned {m : Prog σ ε α} {s : σ} {a : α} (spec : wp m post raised s) (outcome : (m s).1 = .ok a) : post a (m s).2 := by
  unfold wp at spec
  split at spec
  · rename_i result
    rw [result] at outcome ⊢
    obtain rfl := Except.ok.inj outcome
    exact spec
  · rename_i result
    rw [result] at outcome
    cases outcome

-- Where it does not matter which way m ends.
theorem wp_leaves {good : σ → Prop} {m : Prog σ ε α} {s : σ} (spec : wp m (fun _ t => good t) (fun _ t => good t) s) : good (m s).2 := by
  unfold wp at spec
  split at spec
  · rename_i outcome
    rw [outcome]
    exact spec
  · rename_i outcome
    rw [outcome]
    exact spec

-- Where m does not throw.
theorem wp_completes {m : Prog σ ε α} {s : σ} (spec : wp m post (fun _ _ => False) s) : ∃ a, (m s).1 = .ok a ∧ post a (m s).2 := by
  unfold wp at spec
  cases outcome : m s with
  | mk result next =>
      rw [outcome] at spec
      cases result with
      | ok a => exact ⟨a, rfl, spec⟩
      | error e => exact spec.elim

theorem wp_mono {post' : α → σ → Prop} {raised' : ε → σ → Prop} {m : Prog σ ε α} {s : σ} (spec : wp m post raised s)
    (value : ∀ a next, post a next → post' a next) (failure : ∀ e next, raised e next → raised' e next) :
    wp m post' raised' s := by
  unfold wp at *
  split at spec
  · exact value _ _ spec
  · exact failure _ _ spec

theorem wp_ends (m : Prog σ ε α) (s : σ) : wp m (fun _ _ => True) (fun _ _ => True) s := by
  unfold wp
  split <;> trivial

-- Where only a normal end matters, what comes first may do as it likes.
theorem wp_last {m : Prog σ ε β} {f : β → Prog σ ε α} {s : σ} (rest : ∀ b t, wp (f b) post (fun _ _ => True) t) :
    wp (m >>= f) post (fun _ _ => True) s := by
  rw [wp_bind]
  exact wp_mono (wp_ends m s) (fun b t _ => rest b t) (fun _ _ => id)

-- A relation between the state before and after that steps in sequence can be held to.
structure Framing (R : σ → σ → Prop) : Prop where
  same : ∀ s, R s s
  onward : ∀ s t u, R s t → R t u → R s u

-- Whichever way m ends, the states before and after are in R.
def Keeps (R : σ → σ → Prop) (m : Prog σ ε α) : Prop := ∀ s, R s (m s).2

variable {R : σ → σ → Prop}

theorem keeps_pure (framing : Framing R) (a : α) : Keeps R (pure a : Prog σ ε α) := framing.same

theorem keeps_throw (framing : Framing R) (e : ε) : Keeps R (throw e : Prog σ ε α) := framing.same

theorem keeps_modify (f : σ → σ) (each : ∀ s, R s (f s)) : Keeps R (modify f : Prog σ ε Unit) := each

theorem keeps_bind (framing : Framing R) {m : Prog σ ε β} {f : β → Prog σ ε α} (first : Keeps R m)
    (rest : ∀ b, Keeps R (f b)) : Keeps R (m >>= f) := by
  intro s
  have one := first s
  rw [bind_apply]
  split
  · rename_i outcome
    rw [outcome] at one
    exact framing.onward _ _ _ one (rest _ _)
  · rename_i outcome
    rw [outcome] at one
    exact one

-- From one state only, where what comes next depends on what the first step left.
theorem bind_at (framing : Framing R) {m : Prog σ ε β} {f : β → Prog σ ε α} {s : σ} (first : R s (m s).2)
    (rest : ∀ b, R (m s).2 (f b (m s).2).2) : R s ((m >>= f) s).2 := by
  rw [bind_apply]
  split
  · rename_i outcome
    rw [outcome] at first rest
    exact framing.onward _ _ _ first (rest _)
  · rename_i outcome
    rw [outcome] at first
    exact first

theorem keeps_get {f : σ → Prog σ ε α} (each : ∀ s, Keeps R (f s)) : Keeps R (get >>= f) := fun s => each s s

theorem keeps_gets (g : σ → β) {f : β → Prog σ ε α} (each : ∀ b, Keeps R (f b)) : Keeps R (gets g >>= f) := fun s => each (g s) s

theorem keeps_try_catch (framing : Framing R) {m : Prog σ ε α} {handler : ε → Prog σ ε α} (body : Keeps R m)
    (caught : ∀ e, Keeps R (handler e)) : Keeps R (tryCatch m handler) := by
  intro s
  have one := body s
  rw [try_catch_apply]
  split
  · rename_i outcome
    rw [outcome] at one
    exact one
  · rename_i outcome
    rw [outcome] at one
    exact framing.onward _ _ _ one (caught _ _)

theorem keeps_ite (c : Prop) [Decidable c] {m m' : Prog σ ε α} (yes : Keeps R m) (no : Keeps R m') :
    Keeps R (if c then m else m') := by
  split
  · exact yes
  · exact no

theorem keeps_when (framing : Framing R) (c : Prop) [Decidable c] {m : Prog σ ε Unit} (yes : Keeps R m) : Keeps R (when c m) :=
  keeps_ite c yes (keeps_pure framing ())

-- What comes first may be measured from any earlier state that it is known to be in R with.
theorem bind_from (framing : Framing R) {m : Prog σ ε β} {f : β → Prog σ ε α} {v s : σ} (first : R v (m s).2)
    (rest : ∀ b, Keeps R (f b)) : R v ((m >>= f) s).2 := by
  rw [bind_apply]
  split
  · rename_i outcome
    rw [outcome] at first
    exact framing.onward _ _ _ first (rest _ _)
  · rename_i outcome
    rw [outcome] at first
    exact first

-- What comes last may do what takes more to say.
theorem keeps_last {S : σ → σ → Prop} (within : ∀ s t, R s t → S s t) (after : ∀ s t u, R s t → S t u → S s u) {m : Prog σ ε β}
    {f : β → Prog σ ε α} (first : Keeps R m) (rest : ∀ b, Keeps S (f b)) : Keeps S (m >>= f) := by
  intro s
  have one := first s
  rw [bind_apply]
  split
  · rename_i outcome
    rw [outcome] at one
    exact after _ _ _ one (rest _ _)
  · rename_i outcome
    rw [outcome] at one
    exact within _ _ one

theorem wp_and {post' : α → σ → Prop} {raised' : ε → σ → Prop} {m : Prog σ ε α} {s : σ} (left : wp m post raised s)
    (right : wp m post' raised' s) : wp m (fun a t => post a t ∧ post' a t) (fun e t => raised e t ∧ raised' e t) s := by
  unfold wp at *
  split
  · rename_i outcome
    rw [outcome] at left right
    exact ⟨left, right⟩
  · rename_i outcome
    rw [outcome] at left right
    exact ⟨left, right⟩

theorem wp_keeps {m : Prog σ ε α} {s : σ} (keeps : Keeps R m) : wp m (fun _ t => R s t) (fun _ t => R s t) s := by
  have one := keeps s
  unfold wp
  split
  · rename_i outcome
    rw [outcome] at one
    exact one
  · rename_i outcome
    rw [outcome] at one
    exact one

-- Where what comes next is in R only from a state such as a normal end leaves.
theorem bind_after (framing : Framing R) {good : σ → Prop} {m : Prog σ ε β} {f : β → Prog σ ε α} {s : σ}
    (first : wp m (fun _ t => R s t ∧ good t) (fun _ t => R s t) s) (rest : ∀ b t, good t → R t (f b t).2) :
    R s ((m >>= f) s).2 := by
  rw [bind_apply]
  unfold wp at first
  split
  · rename_i outcome
    rw [outcome] at first
    exact framing.onward _ _ _ first.1 (rest _ _ first.2)
  · rename_i outcome
    rw [outcome] at first
    exact first

end Prog

end Lib
