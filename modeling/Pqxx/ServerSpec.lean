import Mathlib.Logic.Basic
import Pqxx.Server

set_option autoImplicit false

namespace Pqxx

open Lib

variable {env : Outside} {t : Nat}

theorem with_table_same {p : Prop} {v v' : View} {name : List Char} {label : String} {f : List Record → List Record}
    {rows : List (List String)} (outcome : v.withTable name label f = .ok (v', rows)) :
    v'.marks = v.marks ∧ (p → v'.listens = v.listens) := by
  simp only [View.withTable] at outcome
  split at outcome
  · cases outcome
  · cases outcome
    exact ⟨rfl, fun _ => rfl⟩

-- Statements that leave alone what the session listens on.
def Sql.deaf : Sql → Prop
  | .listen _ => False
  | .unlisten _ => False
  | _ => True

-- Only BEGIN marks a view, and only LISTEN and UNLISTEN change what it listens on.
theorem run_same {v v' : View} {prepared : List (String × String)} {sql : Sql} {rows : List (List String)}
    (outcome : v.run env t prepared sql = .ok (v', rows)) : v'.marks = v.marks ∧ (sql.deaf → v'.listens = v.listens) := by
  have same {v v' : View} (marks : v'.marks = v.marks) (listens : v'.listens = v.listens) :
      v'.marks = v.marks ∧ (sql.deaf → v'.listens = v.listens) := ⟨marks, fun _ => listens⟩
  cases sql with
  | listen channel => cases outcome; exact ⟨rfl, False.elim⟩
  | unlisten channel => cases outcome; exact ⟨rfl, False.elim⟩
  | deleteOld table => exact with_table_same outcome
  | insertRecord table id user name => exact with_table_same outcome
  | deleteRecord table id => exact with_table_same outcome
  | findRecord table id user =>
      simp only [View.run] at outcome
      split at outcome
      · cases outcome
      · cases found : findRows env _ id user with
        | error e => rw [found] at outcome; cases outcome
        | ok rows => rw [found] at outcome; cases outcome; exact same rfl rfl
  | activity pid => cases outcome
  | prepare name definition => simp only [View.run] at outcome; split at outcome <;> cases outcome; exact same rfl rfl
  | deallocate name => simp only [View.run] at outcome; split at outcome <;> cases outcome; exact same rfl rfl
  | execute i name args => simp only [View.run] at outcome; split at outcome <;> cases outcome; exact same rfl rfl
  | createTable table => simp only [View.run] at outcome; split at outcome <;> cases outcome; exact same rfl rfl
  | createSequence sequence => simp only [View.run] at outcome; split at outcome <;> cases outcome; exact same rfl rfl
  | nextval sequence => simp only [View.run] at outcome; split at outcome <;> cases outcome; exact same rfl rfl
  | _ => cases outcome; exact same rfl rfl

theorem run_marks {v v' : View} {prepared : List (String × String)} {sql : Sql} {rows : List (List String)}
    (outcome : v.run env t prepared sql = .ok (v', rows)) : v'.marks = v.marks := (run_same outcome).1

variable {old new : List Nat} {s : Server}

theorem keep_keyed {β : Type} {key : View → β} {old new : β} {s : Server} (keyed : s.store.Keyed key old new) (command : String)
    (error : SqlError) (kept : Option (Store View)) (each : ∀ store, kept = some store → store.Keyed key old new) :
    (s.keep command error kept).2.store.Keyed key old new := by
  cases kept with
  | none => exact Store.keyed_fail keyed
  | some store => exact each store rfl

theorem server_run_keyed {β : Type} {key : View → β} {old new : β} (keyed : s.store.Keyed key old new) (sql : Sql)
    (same : ∀ v rows, s.store.view.run env t s.prepared sql = .ok (v, rows) → key v = key s.store.view) : (s.run env t sql).2.store.Keyed key old new := by
  simp only [Server.run]
  split
  · exact keyed
  · split
    · exact Store.keyed_fail keyed
    · rename_i view rows outcome
      exact Store.keyed_put keyed view (same _ _ outcome)

-- What a statement that stays in its block leaves of what all the views of the block agree on.
theorem serve_keyed {β : Type} {key : View → β} {old new : β} (env : Outside) (t : Nat) {sql : Sql} (keyed : s.store.Keyed key old new)
    (inside : sql ≠ .commit) (begun : s.store.block ≠ none ∨ ∀ args, sql ≠ .begin args)
    (same : ∀ v rows, s.store.view.run env t s.prepared sql = .ok (v, rows) → key v = key s.store.view)
    (i : Nat) : (s.serve env t i sql).2.store.Keyed key old new := by
  simp only [Server.serve]
  split
  · simp only [Server.refuse, if_neg inside]
    exact Store.keyed_fail keyed
  · cases sql with
    | begin args =>
        rcases begun with block | other
        · simp only [Server.perform]
          split
          · exact keyed
          · cases there : s.store.block with
            | none => exact absurd there block
            | some b =>
                simp only [Store.begin, there]
                exact keyed
        · exact absurd rfl (other args)
    | commit => exact absurd rfl inside
    | rollback => exact Store.keyed_rollback keyed
    | savepoint name => exact keep_keyed keyed _ _ _ fun _ => Store.keyed_savepoint keyed
    | release name => exact keep_keyed keyed _ _ _ fun _ => Store.keyed_release keyed
    | rollbackTo name => exact keep_keyed keyed _ _ _ fun _ => Store.keyed_rollback_to keyed
    | _ => exact server_run_keyed keyed _ same

-- What a session's state is restored with.
def Sql.restoring : Sql → Prop
  | .listen _ => True
  | .setVar _ _ => True
  | _ => False

theorem serve_all_keyed (env : Outside) (t : Nat) (batch : List Sql) (restoring : ∀ sql ∈ batch, sql.restoring) (keyed : s.store.Keyed View.marks old new) (i : Nat) :
    (s.serveAll env t i batch).2.1.store.Keyed View.marks old new := by
  induction batch generalizing s i with
  | nil => exact keyed
  | cons sql rest ih =>
      have first := restoring sql List.mem_cons_self
      have inside : sql ≠ .commit := by rintro rfl; exact first
      have other : ∀ args, sql ≠ .begin args := by rintro args rfl; exact first
      have served := serve_keyed env t keyed inside (.inr other) (fun _ _ => run_marks) i
      rw [Server.serveAll]
      split
      · rename_i next outcome
        rw [outcome] at served
        exact served
      · rename_i next outcome
        rw [outcome] at served
        exact ih (fun sql there => restoring sql (List.mem_cons_of_mem _ there)) served (i + 1)

theorem serve_batch_keyed (env : Outside) (t : Nat) (batch : List Sql) (restoring : ∀ sql ∈ batch, sql.restoring) (keyed : s.store.Keyed View.marks old new) :
    (s.serveBatch env t batch).2.store.Keyed View.marks old new := by
  have all := serve_all_keyed env t batch restoring keyed 1
  simp only [Server.serveBatch]
  split
  · exact all
  · exact Store.keyed_fail keyed

-- The marks of the blocks that committed are of the past, and the block in progress has
-- one more, which is its own.
def Server.Marked (t : Nat) (s : Server) : Prop :=
  (∀ m ∈ s.store.base.marks, m < t) ∧ ∃ m, m ≤ t ∧ m ∉ s.store.base.marks ∧
    s.store.Keyed View.marks s.store.base.marks (m :: s.store.base.marks)

theorem marked_later {u : Nat} (marked : s.Marked t) (later : t ≤ u) : s.Marked u := by
  obtain ⟨past, m, now, own, keyed⟩ := marked
  exact ⟨fun x there => Nat.lt_of_lt_of_le (past x there) later, m, Nat.le_trans now later, own, keyed⟩

theorem marked_keyed {s' : Server} (marked : s.Marked t)
    (keeps : ∀ old new, s.store.Keyed View.marks old new → s'.store.Keyed View.marks old new) :
    s'.Marked t ∧ s'.store.base.marks = s.store.base.marks := by
  obtain ⟨past, m, now, own, keyed⟩ := marked
  have keyed' := keeps _ _ keyed
  have same := keyed'.base
  refine ⟨⟨?_, m, now, ?_, ?_⟩, same⟩
  · rw [same]
    exact past
  · rw [same]
    exact own
  · rw [same]
    exact keyed'

theorem new_session_marked (marked : s.Marked t) : s.newSession.Marked t ∧ s.newSession.store.base.marks = s.store.base.marks := by
  obtain ⟨past, m, now, own, _⟩ := marked
  exact ⟨⟨past, m, now, own, rfl, fun _ => nofun, fun _ => nofun⟩, rfl⟩

-- A request that is not COMMIT commits no block.
theorem serve_marked (marked : s.Marked t) (sql : Sql) (inside : sql ≠ .commit) (i : Nat) :
    (s.serve env t i sql).2.Marked (t + 1) ∧ (s.serve env t i sql).2.store.base.marks = s.store.base.marks := by
  by_cases begun : s.store.block ≠ none ∨ ∀ args, sql ≠ .begin args
  · obtain ⟨marked', same⟩ := marked_keyed marked fun _ _ keyed => serve_keyed env t keyed inside begun (fun _ _ => run_marks) i
    exact ⟨marked_later marked' (Nat.le_succ t), same⟩
  · rw [not_or, not_not, not_forall] at begun
    obtain ⟨block, args, begins⟩ := begun
    obtain rfl := not_not.mp begins
    obtain ⟨past, m, now, own, keyed⟩ := marked
    simp only [Server.serve]
    split
    · simp only [Server.refuse, if_neg inside, Store.fail, block, Option.map_none]
      exact ⟨marked_later ⟨past, m, now, own, rfl, fun _ inside => (by cases inside), fun _ inside => by cases inside⟩ (Nat.le_succ t), trivial⟩
    · simp only [Server.perform, Store.failed, block, Option.any_none, Bool.false_eq_true, if_false, Store.begin]
      refine ⟨⟨fun x there => Nat.lt_succ_of_lt (past x there), t, Nat.le_succ t, fun there => Nat.lt_irrefl t (past t there), rfl, ?_, ?_⟩, trivial⟩
      · rintro _ ⟨⟩
        rfl
      · rintro _ ⟨⟩
        exact fun _ there => absurd there List.not_mem_nil

theorem serve_batch_marked (marked : s.Marked t) (batch : List Sql) (restoring : ∀ sql ∈ batch, sql.restoring) :
    (s.serveBatch env t batch).2.Marked (t + 1) ∧ (s.serveBatch env t batch).2.store.base.marks = s.store.base.marks := by
  obtain ⟨marked', same⟩ := marked_keyed marked fun _ _ keyed => serve_batch_keyed env t batch restoring keyed
  exact ⟨marked_later marked' (Nat.le_succ t), same⟩

-- The block in progress is one that COMMIT would commit.
def Server.live (s : Server) (m : Nat) : Prop := ∃ b, s.store.block = some b ∧ b.failed = false ∧ m ∈ b.view.marks

theorem live_any {m : Nat} (any : s.store.block.any (fun b => !b.failed && decide (m ∈ b.view.marks)) = true) : s.live m := by
  obtain ⟨b, block, live⟩ := (Option.any_eq_true _ _).mp any
  obtain ⟨fine, there⟩ := Bool.and_eq_true_iff.mp live
  exact ⟨b, block, by simpa using fine, of_decide_eq_true there⟩

theorem serve_commit (s : Server) (i : Nat) (accepted : env.refuses t i = none) :
    s.serve env t i .commit = (.rows [], { s with store := s.store.commit }) := by
  simp only [Server.serve, accepted, Server.perform]

theorem commit_marks (s : Server) (m : Nat) (before : m ∉ s.store.base.marks) :
    m ∈ s.store.commit.base.marks ↔ s.live m := by
  simp only [Store.commit, Server.live]
  cases block : s.store.block with
  | none =>
      simp only [before, reduceCtorEq, false_and, exists_false]
  | some b =>
      simp only [Option.some.injEq, exists_eq_left']
      cases failed : b.failed with
      | false => simp
      | true => simp [before]

theorem marked_idle (idle : s.store.block = none) (past : ∀ m ∈ s.store.base.marks, m < t) : s.Marked t := by
  refine ⟨past, t, Nat.le_refl t, fun there => Nat.lt_irrefl t (past t there), rfl, ?_, ?_⟩
  · rw [idle]
    exact fun _ => nofun
  · rw [idle]
    exact fun _ => nofun

theorem commit_marked (marked : s.Marked t) {u : Nat} (later : t < u) : ({ s with store := s.store.commit } : Server).Marked u := by
  obtain ⟨past, m, now, own, keyed⟩ := marked
  have before : ∀ x ∈ s.store.base.marks, x < u := fun x there => Nat.lt_trans (past x there) later
  cases block : s.store.block with
  | none =>
      have same : s.store.commit = s.store := by simp only [Store.commit, block]
      rw [same]
      exact marked_idle block before
  | some b =>
      have view := keyed.view b block
      refine marked_idle (by simp only [Store.commit, block]) ?_
      simp only [Store.commit, block]
      cases b.failed with
      | true => exact before
      | false =>
          rw [if_neg Bool.false_ne_true, view]
          intro x there
          rcases List.mem_cons.mp there with rfl | there
          · exact Nat.lt_of_le_of_lt now later
          · exact before x there

end Pqxx
