import Pqxx.Lib.Run
import Pqxx.Lib.Savepoints
import Pqxx.Unhindered

set_option autoImplicit false

namespace Pqxx

open Lib Prog

-- What is done on the subtransactions of a work, and on the work itself until it commits.
inductive SubOp where
  | subtransaction (i parent : Nat) (name : String)
  | exec (i : Nat) (query desc : String)
  | commit (i : Nat)
  | abort (i : Nat)
deriving DecidableEq, Repr

def SubOp.perform (env : Outside) : SubOp → Client Unit
  | .subtransaction i parent name => openSubtransaction i parent name
  | .exec i query desc => do
      let _ ← Transaction.exec env i query desc
      pure ()
  | .commit i => Transaction.commit env i
  | .abort i => Transaction.abort env i

def subStep (env : Outside) (w : World) (op : SubOp) : World := (op.perform env w).2

-- The same as nested transactions are meant.
def SubOp.nest : SubOp → NestOp Nat String
  | .subtransaction i parent _ => .enter i parent
  | .exec i query _ => .exec i query
  | .commit i => .commit i
  | .abort i => .abort i

def View.statements (v : View) : List (Nat × String) := v.effects.map fun e => (e.trans, e.text)

def adorned (n : String) (id : Nat) : String := if n = "" then "x" ++ toString id else n ++ "_" ++ toString id

def Server.inBlock (s : Server) (b : Block View) : Server := { s with store := { s.store with block := some b } }

def World.names (w : World) (i : Nat) : String := (w.trans i).name

-- The session carries out the nested transactions, and the objects know how far they are.
structure Nested (before : List (Nat × String)) (n : Nest Nat String) (at_ : Nat) (w : World) : Prop where
  sound : n.Sound
  inner : n.Inner at_
  isOpen : w.conn.isOpen = true
  base : w.server.store.base.statements = before
  block : ∃ b, w.server.store.block = some b ∧ Carries w.names View.statements before n at_ b
  clean : ∀ i, i = n.outermost ∨ i ∈ n.entered → (w.trans i).pendingError = "" ∧ (w.trans i).focus = none
  kind : ∀ i ∈ n.entered, ∃ parent, (w.trans i).kind = .subtransaction parent
  running : ∀ i ∈ n.entered, ¬ n.Closed i → i ∈ n.begun → (w.trans i).status = .active
  idle : ∀ i ∈ n.entered, ¬ n.Closed i → i ∉ n.begun → (w.trans i).status = .nascent
  work : (w.trans n.outermost).kind = .work ∧ (w.trans n.outermost).status = .active
  names : ∀ i ∈ n.entered, ∃ given id, id ≤ w.conn.uniqueId ∧ (w.trans i).name = adorned given id
  apart : ∀ i ∈ n.entered, ∀ j ∈ n.entered, (w.trans i).name = (w.trans j).name → i = j

section

variable {env : Outside} {t : Nat} {s : Server} {b : Block View}

theorem adorned_digits (n : String) (id : Nat) : (adorned n id).toList.reverse.takeWhile Char.isDigit = (Nat.toDigits 10 id).reverse := by
  have digits : ∀ c ∈ (Nat.toDigits 10 id).reverse, c.isDigit = true := fun c there =>
    Nat.isDigit_of_mem_toDigits (by decide) (by decide) (List.mem_reverse.mp there)
  have split : ∃ front last, Char.isDigit last = false ∧ (adorned n id).toList = front ++ last :: Nat.toDigits 10 id := by
    have text : (toString id).toList = Nat.toDigits 10 id := Nat.toList_repr
    rw [adorned]
    by_cases empty : n = ""
    · refine ⟨[], 'x', by decide, ?_⟩
      rw [if_pos empty, String.toList_append, text]
      rfl
    · refine ⟨n.toList, '_', by decide, ?_⟩
      rw [if_neg empty, String.toList_append, String.toList_append, text, List.append_assoc]
      rfl
  obtain ⟨front, last, apart, whole⟩ := split
  rw [whole, List.reverse_append, List.reverse_cons, List.append_assoc, List.takeWhile_append_of_pos digits, List.singleton_append,
    List.takeWhile_cons_of_neg (by rw [apart]; exact Bool.false_ne_true), List.append_nil]

theorem adorned_id {n m : String} {k l : Nat} (same : adorned n k = adorned m l) : k = l := by
  have digits := adorned_digits n k
  rw [same, adorned_digits m l] at digits
  have values := congrArg (fun ds => Nat.ofDigitChars 10 ds 0) (List.reverse_injective digits)
  simpa using values.symm

theorem perform_begin (args : String) (outside : s.store.block = none) :
    s.perform env t (.begin args) =
      (.rows [], s.inBlock { view := { s.store.base with marks := t :: s.store.base.marks }, saves := [], failed := false }) := by
  have live : ¬ s.store.failed = true := by simp [Store.failed, outside]
  simp only [Server.perform, if_neg live, Store.begin, outside, Server.inBlock]

theorem perform_commit (inside : s.store.block = some b) (live : b.failed = false) :
    s.perform env t .commit = (.rows [], { s with store := { base := b.view, block := none } }) := by
  simp only [Server.perform, Store.commit, inside, live, Bool.false_eq_true, if_false]

theorem perform_savepoint (inside : s.store.block = some b) (live : b.failed = false) (name : String) :
    s.perform env t (.savepoint name) = (.rows [], s.inBlock { b with saves := (name, b.view) :: b.saves }) := by
  simp only [Server.perform, Store.savepoint, inside, live, Bool.false_eq_true, if_false, Server.keep, Server.inBlock]

theorem perform_release (inside : s.store.block = some b) (live : b.failed = false) {name : String} {kept : View × List (String × View)}
    (found : cut name b.saves = some kept) : s.perform env t (.release name) = (.rows [], s.inBlock { b with saves := kept.2 }) := by
  simp only [Server.perform, Store.release, inside, live, Bool.false_eq_true, if_false, found, Option.map_some, Server.keep, Server.inBlock]

theorem perform_rollback_to (inside : s.store.block = some b) {name : String} {kept : View × List (String × View)}
    (found : cut name b.saves = some kept) :
    s.perform env t (.rollbackTo name) =
      (.rows [], s.inBlock { view := kept.1, saves := (name, kept.1) :: kept.2, failed := false }) := by
  simp only [Server.perform, Store.rollbackTo, inside, found, Option.map_some, Server.keep, Server.inBlock]

theorem perform_statement (inside : s.store.block = some b) (live : b.failed = false) (i : Nat) (text : String)
    (args : List (Option String)) :
    s.perform env t (.statement i text args) = (.rows (env.rows t), s.inBlock { b with view := b.view.apply t i text }) := by
  have works : ¬ s.store.failed = true := by simp [Store.failed, inside, live]
  simp only [Server.perform, Server.run, if_neg works, Store.view, inside, View.run, Server.prepare, Store.put, Server.inBlock]

end

section

variable {env : Outside} {before : List (Nat × String)} {n n' : Nest Nat String} {at_ at' i : Nat} {w u : World} {server : Server}
  {statuses : Nat → Status}

-- From one state to the next, where the objects are those there were.
theorem nested_next (nested : Nested before n at_ w) (turned : Turned server statuses w u) (sound : n'.Sound) (inner : n'.Inner at')
    (same : n'.outermost = n.outermost ∧ n'.entered = n.entered) (base : server.store.base.statements = before)
    (block : ∃ b, server.store.block = some b ∧ Carries w.names View.statements before n' at' b)
    (running : ∀ i ∈ n.entered, ¬ n'.Closed i → i ∈ n'.begun → statuses i = .active)
    (idle : ∀ i ∈ n.entered, ¬ n'.Closed i → i ∉ n'.begun → statuses i = .nascent)
    (work : statuses n.outermost = .active) : Nested before n' at' u where
  sound := sound
  inner := inner
  isOpen := turned.isOpen.trans nested.isOpen
  base := by rw [turned.server, base]
  block := by
    have names : u.names = w.names := funext turned.name
    rw [turned.server, names]
    exact block
  clean i known := by
    rw [turned.pendingError, turned.focus]
    rw [same.1, same.2] at known
    exact nested.clean i known
  kind i entered := by
    rw [turned.kind]
    exact nested.kind i (same.2 ▸ entered)
  running i entered going begun := (turned.status i).trans (running i (same.2 ▸ entered) going begun)
  idle i entered going fresh := (turned.status i).trans (idle i (same.2 ▸ entered) going fresh)
  work := by
    rw [same.1, turned.kind, turned.status]
    exact ⟨nested.work.1, work⟩
  names i entered := by
    rw [turned.name, turned.ids]
    exact nested.names i (same.2 ▸ entered)
  apart i entered j other := by
    rw [turned.name, turned.name]
    exact nested.apart i (same.2 ▸ entered) j (same.2 ▸ other)

-- The constructor only takes a name that is not in use.
theorem nested_enter {p : Nat} (nested : Nested before n at_ w) (proper : n.Proper (.enter i p)) (name : String) :
    Nested before (n.step (.enter i p)) at_ (openSubtransaction i p name w).2 := by
  have opens : openSubtransaction i p name w = (.ok (), { w with
      conn := { w.conn with uniqueId := w.conn.uniqueId + 1 }
      trans := fun j => if j = i then Transaction.fresh (.subtransaction p) "subtransaction" (adorned name (w.conn.uniqueId + 1)) "" ""
        else w.trans j }) := rfl
  obtain ⟨apart, fresh, _⟩ := id proper
  have others : ∀ j, j = n.outermost ∨ j ∈ n.entered → j ≠ i := by
    rintro j (rfl | there) rfl
    · exact apart rfl
    · exact fresh there
  have new : ∀ given id, id ≤ w.conn.uniqueId → adorned given id ≠ adorned name (w.conn.uniqueId + 1) := by
    intro given id small same
    have := adorned_id same
    omega
  rw [opens]
  obtain ⟨b, inside, carries⟩ := nested.block
  constructor
  case sound => exact Nest.sound_enter nested.sound proper
  case inner => exact Nest.inner_enter nested.sound proper nested.inner
  case isOpen => exact nested.isOpen
  case base => exact nested.base
  case block =>
    refine ⟨b, inside, carries_enter nested.sound proper nested.inner carries fun j there => ?_⟩
    simp only [World.names, if_neg (others j (.inr (Nest.path_entered nested.sound there)))]
  case clean =>
    intro j known
    by_cases same : j = i
    · simp only [if_pos same]
      exact ⟨rfl, rfl⟩
    · simp only [if_neg same]
      exact nested.clean j (known.imp_right fun there => (List.mem_cons.mp there).resolve_left same)
  case kind =>
    intro j entered
    by_cases same : j = i
    · simp only [if_pos same]
      exact ⟨p, rfl⟩
    · simp only [if_neg same]
      exact nested.kind j ((List.mem_cons.mp entered).resolve_left same)
  case running =>
    intro j entered going begun
    have other := others j (nested.sound.begunIn j begun)
    simp only [if_neg other]
    exact nested.running j ((List.mem_cons.mp entered).resolve_left other) going begun
  case idle =>
    intro j entered going idle
    by_cases same : j = i
    · simp only [if_pos same]
      rfl
    · simp only [if_neg same]
      exact nested.idle j ((List.mem_cons.mp entered).resolve_left same) going idle
  case work =>
    have other : n.outermost ≠ i := others _ (.inl rfl)
    exact ⟨(congrArg Transaction.kind (if_neg other)).trans nested.work.1, (congrArg Transaction.status (if_neg other)).trans nested.work.2⟩
  case names =>
    intro j entered
    by_cases same : j = i
    · simp only [if_pos same]
      exact ⟨name, _, Nat.le_refl _, rfl⟩
    · simp only [if_neg same]
      obtain ⟨given, id, small, named⟩ := nested.names j ((List.mem_cons.mp entered).resolve_left same)
      exact ⟨given, id, Nat.le_succ_of_le small, named⟩
  case apart =>
    intro j entered k other same
    by_cases left : j = i
    · by_cases right : k = i
      · rw [left, right]
      · simp only [if_pos left, if_neg right] at same
        obtain ⟨given, id, small, named⟩ := nested.names k ((List.mem_cons.mp other).resolve_left right)
        exact absurd (named.symm.trans same.symm) (new given id small)
    · by_cases right : k = i
      · simp only [if_neg left, if_pos right] at same
        obtain ⟨given, id, small, named⟩ := nested.names j ((List.mem_cons.mp entered).resolve_left left)
        exact absurd (named.symm.trans same) (new given id small)
      · simp only [if_neg left, if_neg right] at same
        exact nested.apart j ((List.mem_cons.mp entered).resolve_left left) k ((List.mem_cons.mp other).resolve_left right) same

-- Nothing happens to the session where a transaction that runs already goes on.
theorem nested_again (nested : Nested before n at_ w) (known : i = n.outermost ∨ i ∈ n.entered)
    (begun : ∀ j ∈ n.entered, j = i → j ∈ n.begun) (first : ∀ j ∈ n.path i, j ∈ n.begun) : Nested before (n.begin i) at_ w where
  sound := Nest.sound_begin nested.sound known fun j there _ => first j there
  inner := Nest.inner_again nested.inner begun
  isOpen := nested.isOpen
  base := nested.base
  block := by
    obtain ⟨b, inside, carries⟩ := nested.block
    exact ⟨b, inside, carries.live, carries.view, carries.stacked⟩
  clean := nested.clean
  kind := nested.kind
  running j entered going there := by
    rcases List.mem_cons.mp there with same | there
    · exact nested.running j entered going (begun j entered same)
    · exact nested.running j entered going there
  idle j entered going fresh := nested.idle j entered going fun there => fresh (List.mem_cons_of_mem i there)
  work := nested.work
  names := nested.names
  apart := nested.apart

theorem nested_begin (smooth : env.Smooth) {p : Nat} (nested : Nested before n at_ w) (entered : i ∈ n.entered) (going : n.Open i)
    (path : n.path i = i :: n.path p) (here : n.path at_ = n.path p) (fresh : i ∉ n.begun) (first : ∀ j ∈ n.path i, j ≠ i → j ∈ n.begun) :
    wp (Transaction.begin env i) (fun _ u => Nested before (n.begin i) i u ∧ (u.trans i).status = .active) (fun _ _ => False) w := by
  have open_ : ¬ n.Closed i := going i (Nest.entered_path nested.sound entered)
  have nascent : (w.trans i).status = .nascent := nested.idle i entered open_ fresh
  obtain ⟨b, inside, carries⟩ := nested.block
  obtain ⟨parent, kind⟩ := nested.kind i entered
  have begins : wp (Transaction.begin env i) (fun _ u => ∃ server, server = w.server.inBlock { b with saves := (w.names i, b.view) :: b.saves } ∧
      Turned server (turn i .active w.statuses) w u) (fun _ _ => False) w := by
    refine Transaction.turned_begin smooth nascent nested.isOpen fun v one => ?_
    have answer : v.server.perform env v.clock (.savepoint (v.trans i).name) =
        (.rows [], w.server.inBlock { b with saves := (w.names i, b.view) :: b.saves }) := by
      rw [one.server, one.name]
      exact perform_savepoint inside carries.live _
    rw [Transaction.doBegin, wp_bind, wp_get, one.kind, kind]
    refine wp_mono (Transaction.turned_direct smooth (one.isOpen.trans nested.isOpen)
      ((one.pendingError i).trans (nested.clean i (.inr entered)).1) (congrArg Prod.fst answer) 0) (fun _ _ two => ?_) (fun _ _ => id)
    rw [answer] at two
    exact ⟨_, rfl, two⟩
  refine wp_mono begins ?_ (fun _ _ => id)
  rintro _ u ⟨_, rfl, turned⟩
  refine ⟨?_, (turned.status i).trans (if_pos rfl)⟩
  refine nested_next nested turned (Nest.sound_begin nested.sound (.inr entered) first)
    (Nest.inner_begin nested.inner entered open_ path here) ⟨rfl, rfl⟩ nested.base ⟨_, rfl, carries_begin nested.sound carries fresh path here⟩
    (fun j there going begun => ?_) (fun j there going idle => ?_) ?_
  · rw [turn]
    by_cases same : j = i
    · exact if_pos same
    · rw [if_neg same]
      exact nested.running j there going ((List.mem_cons.mp begun).resolve_left same)
  · obtain ⟨same, idle⟩ := not_or.mp (mt List.mem_cons.mpr idle)
    rw [turn, if_neg same]
    exact nested.idle j there going idle
  · rw [turn, if_neg (Nest.outermost_apart nested.sound entered).symm]
    exact nested.work.2

-- A statement of a transaction that runs, and that all run around.
theorem nested_perform (smooth : env.Smooth) (nested : Nested before n i w) (known : i = n.outermost ∨ i ∈ n.entered) (going : n.Open i)
    (active : (w.trans i).status = .active) (first : ∀ j ∈ n.path i, j ∈ n.begun) (query desc : String) :
    wp (Transaction.exec env i query desc) (fun _ u => Nested before (n.perform i query) i u) (fun _ _ => False) w := by
  obtain ⟨b, inside, carries⟩ := nested.block
  obtain ⟨clean, plain⟩ := nested.clean i known
  have answer := @perform_statement env w.clock w.server b inside carries.live i query []
  refine wp_mono (Transaction.turned_exec_active smooth active clean plain nested.isOpen (congrArg Prod.fst answer) desc)
    (fun _ u turned => ?_) (fun _ _ => id)
  rw [answer] at turned
  refine nested_next nested turned (Nest.sound_perform nested.sound known first) nested.inner ⟨rfl, rfl⟩ nested.base
    ⟨_, rfl, carries_perform going rfl carries ?_⟩ nested.running nested.idle nested.work.2
  simp only [View.statements, View.apply, List.map_append, List.map_cons, List.map_nil]

theorem nested_here (nested : Nested before n at_ w) (known : i = n.outermost ∨ i ∈ n.entered) (here : n.path at_ = n.path i) :
    Nested before n i w := by
  refine { nested with inner := Nest.inner_here nested.inner known here, block := ?_ }
  obtain ⟨b, inside, carries⟩ := nested.block
  exact ⟨b, inside, carries.live, carries.view, here ▸ carries.stacked⟩

theorem nested_exec (smooth : env.Smooth) (nested : Nested before n at_ w) {query : String} (proper : n.Proper (.exec i query))
    (ordered : n.Ordered (.exec i query)) (desc : String) :
    wp (Transaction.exec env i query desc) (fun _ u => Nested before (n.step (.exec i query)) i u) (fun _ _ => False) w := by
  obtain ⟨known, going⟩ := proper
  obtain ⟨first, alone⟩ := ordered
  rcases known with rfl | entered
  · have outside := Nest.inner_outermost nested.sound nested.inner alone
    have around : ∀ j ∈ n.path n.outermost, j ∈ n.begun := by
      rw [nested.sound.bare]
      exact fun _ => nofun
    have again := nested_again nested (.inl rfl) (fun j there same => absurd same (Nest.outermost_apart nested.sound there)) around
    have here := nested_here again (.inl rfl) (outside.trans nested.sound.bare.symm)
    exact nested_perform smooth here (.inl rfl) going here.work.2 (fun j there => List.mem_cons_of_mem _ (around j there)) query desc
  · obtain ⟨p, _, path⟩ := nested.sound.paths i entered
    rw [path, List.tail_cons] at first
    have around : ∀ j ∈ n.path i, j ∈ (n.begin i).begun := by
      rw [path]
      intro j there
      rcases List.mem_cons.mp there with rfl | there
      · exact List.mem_cons_self
      · exact List.mem_cons_of_mem _ (first j there)
    by_cases begun : i ∈ n.begun
    · obtain rfl := Nest.inner_begun nested.sound nested.inner going alone entered begun
      have again := nested_again nested (.inr entered) (fun j there same => same ▸ begun) (nested.sound.outward at_ begun)
      have active := nested.running at_ entered (going at_ (Nest.entered_path nested.sound entered)) begun
      exact nested_perform smooth again (.inr entered) going active around query desc
    · have here := Nest.inner_fresh nested.sound nested.inner going alone path begun (by rw [path]; exact first)
      have outer : ∀ j ∈ n.path i, j ≠ i → j ∈ n.begun := by
        rw [path]
        exact fun j there other => first j ((List.mem_cons.mp there).resolve_left other)
      obtain ⟨clean, plain⟩ := nested.clean i (.inr entered)
      have nascent := nested.idle i entered (going i (Nest.entered_path nested.sound entered)) begun
      refine Transaction.turned_exec_nascent nascent clean plain _ desc ?_
      refine wp_mono (nested_begin smooth nested entered going path here begun outer) (fun _ u ⟨next, active⟩ => ?_) (fun _ _ => id)
      obtain ⟨clean, plain⟩ := next.clean i (.inr entered)
      exact ⟨clean, plain, active, nested_perform smooth next (.inr entered) going active around query desc⟩

-- RELEASE SAVEPOINT leaves a subtransaction's statements to the one around it.
theorem nested_commit (smooth : env.Smooth) (nested : Nested before n at_ w) (proper : n.Proper (.commit i)) (ordered : n.Ordered (.commit i)) :
    wp (Transaction.commit env i) (fun _ u => ∃ at', Nested before (n.step (.commit i)) at' u) (fun _ _ => False) w := by
  obtain ⟨entered, going, _⟩ := proper
  have open_ : ¬ n.Closed i := going i (Nest.entered_path nested.sound entered)
  obtain ⟨p, parent, path⟩ := nested.sound.paths i entered
  obtain ⟨clean, plain⟩ := nested.clean i (.inr entered)
  have sound := Nest.sound_commit nested.sound open_
  by_cases begun : i ∈ n.begun
  · obtain rfl := Nest.inner_begun nested.sound nested.inner going ordered entered begun
    obtain ⟨b, inside, carries⟩ := nested.block
    obtain ⟨kept, found, released⟩ := carries_commit carries path
    obtain ⟨outer, kind⟩ := nested.kind at_ entered
    have active := nested.running at_ entered open_ begun
    have commits : wp (Transaction.doCommit env at_) (fun _ u => Turned (w.server.inBlock { b with saves := kept.2 }) w.statuses w u)
        (fun _ _ => False) w := by
      rw [Transaction.doCommit, wp_bind, wp_get]
      simp only [kind]
      rw [Transaction.subCommit, wp_bind, wp_get, wp_bind]
      refine wp_mono (turned_note _ fun _ => ⟨rfl, rfl, rfl, rfl, rfl⟩) (fun _ u one => ?_) (fun _ _ => id)
      have answer : u.server.perform env u.clock (.release (w.trans at_).name) = (.rows [], w.server.inBlock { b with saves := kept.2 }) := by
        rw [one.server]
        exact perform_release inside carries.live found
      rw [wp_bind]
      refine wp_mono (Transaction.turned_direct smooth (one.isOpen.trans nested.isOpen) ((one.pendingError at_).trans clean)
        (congrArg Prod.fst answer) 0) (fun _ v two => ?_) (fun _ _ => id)
      rw [answer] at two
      have both := turned_onward one two
      have still : Turned (w.server.inBlock { b with saves := kept.2 }) w.statuses w v :=
        { both with status := fun j => (two.status j).trans (one.status j) }
      exact wp_mono (turned_note _ fun _ => ⟨rfl, rfl, rfl, rfl, rfl⟩) (fun _ _ three => turned_still still three) (fun _ _ => id)
    refine wp_mono (Transaction.turned_commit active clean plain nested.isOpen commits) (fun _ u turned => ⟨p, ?_⟩) (fun _ _ => id)
    refine nested_next nested turned sound (Nest.inner_close nested.sound nested.inner parent path ⟨rfl, rfl, rfl, rfl⟩ Nest.commit_closed)
      ⟨rfl, rfl⟩ nested.base ⟨_, rfl, released⟩ (fun j there going begun => ?_) (fun j there going idle => ?_) ?_
    · obtain ⟨other, going⟩ := not_or.mp (mt (Nest.commit_closed j).mpr going)
      rw [turn, if_neg other]
      exact nested.running j there going begun
    · obtain ⟨other, going⟩ := not_or.mp (mt (Nest.commit_closed j).mpr going)
      rw [turn, if_neg other]
      exact nested.idle j there going idle
    · rw [turn, if_neg (Nest.outermost_apart nested.sound entered).symm]
      exact nested.work.2
  · have nascent := nested.idle i entered open_ begun
    have nothing : Transaction.commit env i w = (.ok (), w) := by
      simp only [Transaction.commit, Prog.bind_apply, Transaction.check_pending_clean clean, Prog.get_apply, nascent, Prog.pure_apply]
    obtain ⟨b, inside, carries⟩ := nested.block
    refine wp_ok nothing ⟨at_, ?_⟩
    refine { nested with
      sound := sound
      inner := Nest.inner_idle nested.inner begun ⟨rfl, rfl, rfl, rfl⟩ Nest.commit_closed
      block := ⟨b, inside, (carries_idle nested.sound carries begun).1⟩
      running := fun j there going => nested.running j there (not_or.mp (mt (Nest.commit_closed j).mpr going)).2
      idle := fun j there going => nested.idle j there (not_or.mp (mt (Nest.commit_closed j).mpr going)).2 }

-- ROLLBACK TO SAVEPOINT undoes them, and the savepoint stays where it was.
theorem nested_abort (smooth : env.Smooth) (nested : Nested before n at_ w) (proper : n.Proper (.abort i)) (ordered : n.Ordered (.abort i)) :
    wp (Transaction.abort env i) (fun _ u => ∃ at', Nested before (n.step (.abort i)) at' u) (fun _ _ => False) w := by
  obtain ⟨entered, going, _⟩ := proper
  have open_ : ¬ n.Closed i := going i (Nest.entered_path nested.sound entered)
  obtain ⟨p, parent, path⟩ := nested.sound.paths i entered
  obtain ⟨clean, _⟩ := nested.clean i (.inr entered)
  have sound := Nest.sound_abort nested.sound open_
  have others : ∀ j, ¬ (n.step (.abort i)).Closed j → j ≠ i ∧ ¬ n.Closed j := fun j going => not_or.mp (mt (Nest.abort_closed j).mpr going)
  have outer : turn i .aborted w.statuses n.outermost = .active := by
    rw [turn, if_neg (Nest.outermost_apart nested.sound entered).symm]
    exact nested.work.2
  have running : ∀ j ∈ n.entered, ¬ (n.step (.abort i)).Closed j → j ∈ n.begun → turn i .aborted w.statuses j = .active := by
    intro j there going begun
    rw [turn, if_neg (others j going).1]
    exact nested.running j there (others j going).2 begun
  have idle : ∀ j ∈ n.entered, ¬ (n.step (.abort i)).Closed j → j ∉ n.begun → turn i .aborted w.statuses j = .nascent := by
    intro j there going fresh
    rw [turn, if_neg (others j going).1]
    exact nested.idle j there (others j going).2 fresh
  obtain ⟨b, inside, carries⟩ := nested.block
  by_cases begun : i ∈ n.begun
  · obtain rfl := Nest.inner_begun nested.sound nested.inner going ordered entered begun
    have apart : ∀ j ∈ n.path p, w.names j ≠ w.names at_ := by
      intro j there same
      have inside : j ∈ n.path at_ := by rw [path]; exact List.mem_cons_of_mem _ there
      have := nested.apart j (Nest.path_entered nested.sound inside) at_ entered same
      exact Nest.path_nodup nested.sound path (this ▸ there)
    obtain ⟨kept, found, undone⟩ := carries_abort nested.sound carries path apart
    obtain ⟨_, kind⟩ := nested.kind at_ entered
    have answer := @perform_rollback_to env w.clock w.server b inside (w.trans at_).name kept found
    have aborts : wp (Transaction.doAbort env at_) (fun _ u =>
        Turned (w.server.inBlock { view := kept.1, saves := (w.names at_, kept.1) :: kept.2, failed := false }) w.statuses w u)
        (fun _ _ => False) w := by
      rw [Transaction.doAbort, wp_bind, wp_get]
      simp only [kind]
      refine wp_mono (Transaction.turned_direct smooth nested.isOpen clean (congrArg Prod.fst answer) 0) (fun _ _ one => ?_) (fun _ _ => id)
      rw [answer] at one
      exact one
    have active := nested.running at_ entered open_ begun
    refine wp_mono (Transaction.turned_abort active clean aborts) (fun _ u turned => ⟨p, ?_⟩) (fun _ _ => id)
    exact nested_next nested turned sound (Nest.inner_close nested.sound nested.inner parent path ⟨rfl, rfl, rfl, rfl⟩ Nest.abort_closed)
      ⟨rfl, rfl⟩ nested.base ⟨_, rfl, undone⟩ running idle outer
  · have nascent := nested.idle i entered open_ begun
    refine wp_mono (Transaction.turned_abort_nascent nascent clean) (fun _ u turned => ⟨at_, ?_⟩) (fun _ _ => id)
    exact nested_next nested turned sound (Nest.inner_idle nested.inner begun ⟨rfl, rfl, rfl, rfl⟩ Nest.abort_closed)
      ⟨rfl, rfl⟩ nested.base ⟨b, inside, (carries_idle nested.sound carries begun).2⟩ running idle outer

theorem nested_step (smooth : env.Smooth) (nested : Nested before n at_ w) (op : SubOp) (proper : n.Proper op.nest) (ordered : n.Ordered op.nest) :
    ∃ at', Nested before (n.step op.nest) at' (subStep env w op) := by
  have settles {post : World → Prop} {m : Client Unit} (spec : wp m (fun _ u => post u) (fun _ _ => False) w) : post (m w).2 :=
    (wp_completes spec).choose_spec.2
  cases op with
  | subtransaction i parent name => exact ⟨at_, nested_enter nested proper name⟩
  | exec i query desc =>
      refine ⟨i, settles ?_⟩
      rw [SubOp.perform, wp_bind]
      exact wp_mono (nested_exec smooth nested proper ordered desc) (fun _ _ => id) (fun _ _ => id)
  | commit i => exact settles (nested_commit smooth nested proper ordered)
  | abort i => exact settles (nested_abort smooth nested proper ordered)

theorem nested_run (smooth : env.Smooth) (ops : List SubOp) (nested : Nested before n at_ w)
    (proper : Along Nest.Proper Nest.step n (ops.map SubOp.nest)) (ordered : Along Nest.Ordered Nest.step n (ops.map SubOp.nest)) :
    ∃ at', Nested before (run Nest.step n (ops.map SubOp.nest)) at' (run (subStep env) w ops) := by
  induction ops generalizing n at_ w with
  | nil => exact ⟨at_, nested⟩
  | cons op rest ih =>
      obtain ⟨_, next⟩ := nested_step smooth nested op proper.1 ordered.1
      exact ih next proper.2 ordered.2

-- Nothing has been done in the block, if there is one.
def Server.Unwritten (s : Server) : Prop :=
  ∀ b, s.store.block = some b → b.failed = false ∧ b.saves = [] ∧ b.view.statements = s.store.base.statements

-- Whatever it takes to connect, and to begin.
structure Untouched (w w' : World) : Prop where
  trans : w'.trans = w.trans
  ids : w'.conn.uniqueId = w.conn.uniqueId
  kept : w.server.Unwritten → w'.server.Unwritten ∧ w'.server.store.base.statements = w.server.store.base.statements

theorem put_unwritten {s : Server} (unwritten : s.Unwritten) (view : View) (same : view.statements = s.store.view.statements) :
    ({ s with store := s.store.put view } : Server).Unwritten ∧ (s.store.put view).base.statements = s.store.base.statements := by
  cases block : s.store.block with
  | none =>
      simp only [Store.view, block] at same
      simp only [Server.Unwritten, Store.put, block]
      exact ⟨fun _ inside => (by cases inside), same⟩
  | some b =>
      simp only [Store.view, block] at same
      obtain ⟨live, saves, shown⟩ := unwritten b block
      simp only [Server.Unwritten, Store.put, block]
      refine ⟨?_, trivial⟩
      rintro _ ⟨⟩
      exact ⟨live, saves, same.trans shown⟩

theorem restoring_unwritten (smooth : env.Smooth) {s : Server} (unwritten : s.Unwritten) {sql : Sql} (restoring : sql.restoring) (t i : Nat) :
    ∃ rows, (s.serve env t i sql).1 = .rows rows ∧ (s.serve env t i sql).2.Unwritten ∧
      (s.serve env t i sql).2.store.base.statements = s.store.base.statements := by
  have live : ¬ s.store.failed = true := by
    cases block : s.store.block with
    | none => simp [Store.failed, block]
    | some b => simp [Store.failed, block, (unwritten b block).1]
  rw [smooth_serve smooth]
  cases sql with
  | setVar var value =>
      simp only [Server.perform, Server.run, if_neg live, View.run, Server.prepare]
      exact ⟨[], rfl, put_unwritten unwritten _ rfl⟩
  | listen channel =>
      simp only [Server.perform, Server.run, if_neg live, View.run, Server.prepare]
      exact ⟨[], rfl, put_unwritten unwritten _ rfl⟩
  | _ => exact restoring.elim

theorem batch_unwritten (smooth : env.Smooth) (t : Nat) (batch : List Sql) (restoring : ∀ sql ∈ batch, sql.restoring) {s : Server}
    (unwritten : s.Unwritten) :
    (s.serveBatch env t batch).2.Unwritten ∧ (s.serveBatch env t batch).2.store.base.statements = s.store.base.statements := by
  have all : ∀ (batch : List Sql) (s : Server) (i : Nat), (∀ sql ∈ batch, sql.restoring) → s.Unwritten →
      (s.serveAll env t i batch).2.2 = true ∧ (s.serveAll env t i batch).2.1.Unwritten ∧
        (s.serveAll env t i batch).2.1.store.base.statements = s.store.base.statements := by
    intro batch
    induction batch with
    | nil => exact fun s _ _ unwritten => ⟨rfl, unwritten, rfl⟩
    | cons sql rest ih =>
        intro s i restoring unwritten
        obtain ⟨rows, answer, kept, same⟩ := restoring_unwritten smooth unwritten (restoring sql List.mem_cons_self) t i
        obtain ⟨through, onward, again⟩ := ih (s.serve env t i sql).2 (i + 1) (fun other there => restoring other (List.mem_cons_of_mem _ there)) kept
        rw [Server.serveAll]
        cases served : s.serve env t i sql with
        | mk outcome next =>
            rw [served] at answer through onward again same
            obtain rfl := answer
            exact ⟨through, onward, again.trans same⟩
  have outcome := all batch s 1 restoring unwritten
  rw [Server.serveBatch]
  generalize s.serveAll env t 1 batch = served at outcome
  obtain ⟨answers, next, through⟩ := served
  obtain ⟨rfl, kept, same⟩ := outcome
  exact ⟨kept, same⟩

theorem begin_unwritten (smooth : env.Smooth) {s : Server} (unwritten : s.Unwritten) (t i : Nat) (args : String) :
    (s.serve env t i (.begin args)).2.Unwritten ∧ (s.serve env t i (.begin args)).2.store.base.statements = s.store.base.statements ∧
      ∃ b, (s.serve env t i (.begin args)).2.store.block = some b := by
  rw [smooth_serve smooth]
  cases block : s.store.block with
  | none =>
      rw [perform_begin args block]
      refine ⟨?_, rfl, _, rfl⟩
      rintro _ ⟨⟩
      exact ⟨rfl, rfl, rfl⟩
  | some b =>
      have live : ¬ s.store.failed = true := by simp [Store.failed, block, (unwritten b block).1]
      have same : s.store.begin (fun v => { v with marks := t :: v.marks }) = s.store := by simp only [Store.begin, block]
      simp only [Server.perform, if_neg live, same]
      exact ⟨unwritten, trivial, b, block⟩

theorem untouched_framing : Framing Untouched where
  same _ := ⟨rfl, rfl, fun unwritten => ⟨unwritten, rfl⟩⟩
  onward _ _ _ one two := by
    refine ⟨two.trans.trans one.trans, two.ids.trans one.ids, fun unwritten => ?_⟩
    obtain ⟨unwritten, left⟩ := one.kept unwritten
    obtain ⟨unwritten, right⟩ := two.kept unwritten
    exact ⟨unwritten, right.trans left⟩

theorem untouched_upkeep (smooth : env.Smooth) : Upkeep env Untouched where
  toFraming := untouched_framing
  link _ _ tended trans server _ _ := ⟨trans, tended.uniqueId, fun unwritten => by rw [server]; exact ⟨unwritten, rfl⟩⟩
  ends _ _ tended trans server _ _ := ⟨trans, tended.uniqueId, fun _ => by rw [server]; exact ⟨fun _ => nofun, rfl⟩⟩
  asks _ _ _ := ⟨rfl, rfl, fun unwritten => ⟨unwritten, rfl⟩⟩
  restores w batch restoring := ⟨rfl, rfl, batch_unwritten smooth w.clock batch restoring⟩

theorem untouched_begin (smooth : env.Smooth) (args : String) : Request env Untouched (.begin args) where
  asks _ := ⟨rfl, rfl, fun unwritten => ⟨unwritten, rfl⟩⟩
  served w := ⟨rfl, rfl, fun unwritten => by
    obtain ⟨kept, same, _⟩ := begin_unwritten smooth unwritten w.clock 0 args
    exact ⟨kept, same⟩⟩

theorem nested_begun (smooth : env.Smooth) (unwritten : w.server.Unwritten) (base : w.server.store.base.statements = before) {work : Nat}
    (nascent : (w.trans work).status = .nascent) (kind : (w.trans work).kind = .work) (clean : (w.trans work).pendingError = "")
    (plain : (w.trans work).focus = none) :
    wp (Transaction.begin env work) (fun _ u => Nested before (Nest.start work) work u) (fun _ _ => True) w := by
  subst base
  have up := untouched_upkeep smooth
  have begins : wp (do
      let _ ← Connection.getNotifs env
      Transaction.doBegin env work
      Transaction.setBegun work) (fun _ u => Nested w.server.store.base.statements (Nest.start work) work u) (fun _ _ => True) w := by
    rw [wp_bind]
    refine wp_mono (wp_keeps (Connection.get_notifs_keeps up)) (fun _ x one => ?_) (fun _ _ _ => trivial)
    have here : (x.trans work).kind = .work := by rw [one.trans, kind]
    have quiet : (x.trans work).pendingError = "" := by rw [one.trans, clean]
    rw [wp_bind, Transaction.doBegin, wp_bind, wp_get]
    simp only [here]
    rw [Transaction.dbBegin, wp_bind, wp_get, Transaction.direct, wp_bind, Transaction.directExec, wp_bind]
    refine wp_ok (Transaction.check_pending_clean quiet) ?_
    refine wp_mono (Connection.exec_heard up (untouched_begin smooth (x.trans work).startArgs) _) ?_ (fun _ _ => id)
    rintro _ z ⟨y, two, isOpen, _, _, quiet⟩
    obtain ⟨kept, same⟩ := (untouched_framing.onward _ _ _ one two).kept unwritten
    have trans : z.trans = w.trans := quiet.trans.trans (two.trans.trans one.trans)
    have server : z.server = (y.server.serve env y.clock 0 (.begin (x.trans work).startArgs)).2 := quiet.server
    obtain ⟨kept, again, b, inside⟩ := begin_unwritten smooth kept y.clock 0 (x.trans work).startArgs
    rw [← server] at kept again inside
    obtain ⟨live, saves, shown⟩ := kept b inside
    have first : (Nest.start work : Nest Nat String).standing = [] := rfl
    have bare : ∀ i, i = work ∨ i ∈ (Nest.start work : Nest Nat String).entered → i = work := fun i known => known.resolve_right fun inside => by cases inside
    refine {
      sound := Nest.sound_start work
      inner := Nest.inner_start work
      isOpen := quiet.isOpen.trans (answered_open.trans isOpen)
      base := again.trans same
      block := ⟨b, inside, live, by rw [first, List.append_nil]; exact shown.trans (again.trans same), by rw [saves]; exact .nil⟩
      clean := ?_
      kind := fun _ inside => by cases inside
      running := fun _ inside => by cases inside
      idle := fun _ inside => by cases inside
      work := ?_
      names := fun _ inside => by cases inside
      apart := fun _ inside => by cases inside }
    · intro i known
      obtain rfl := bare i known
      simp only [if_true, trans]
      exact ⟨clean, plain⟩
    · simp only [Nest.start, if_true, trans]
      exact ⟨kind, trivial⟩
  rw [Transaction.begin, wp_bind, wp_get, if_neg (by rw [nascent]; exact not_not_intro rfl), wp_try_catch]
  exact wp_mono begins (fun _ _ => id) (fun _ _ _ => wp_last fun _ _ => trivial)

-- Where the constructor returns, the work is in a block of its own, whatever state the
-- connection was in.
theorem nested_open (smooth : env.Smooth) (outside : w.server.store.block = none) (work : Nat) (classname name startArgs logTable : String) :
    wp (openWork env work .work classname name startArgs logTable)
      (fun _ u => Nested w.server.store.base.statements (Nest.start work) work u) (fun _ _ => True) w := by
  have unwritten : w.server.Unwritten := by
    intro b inside
    rw [outside] at inside
    cases inside
  rw [openWork, modifyTrans, wp_bind, wp_modify, wp_bind, Connection.registerTransaction, wp_bind, wp_get]
  cases w.conn.trans with
  | some old => exact wp_ite _ _ _ _ _ _ (fun _ => trivial) fun _ => trivial
  | none =>
      simp only [modifyConn, wp_modify]
      rw [modifyTrans, wp_bind, wp_modify]
      refine nested_begun smooth ?_ rfl ?_ ?_ ?_ ?_
      · exact unwritten
      all_goals simp only [if_true, Transaction.fresh]

-- COMMIT of the work itself, once whatever runs in it has been closed.
theorem nested_end (smooth : env.Smooth) (nested : Nested before n at_ w) (ended : n.Over) :
    wp (Transaction.commit env n.outermost) (fun _ u => u.server.store.base.statements = before ++ n.survivors) (fun _ _ => False) w := by
  obtain ⟨b, inside, carries⟩ := nested.block
  obtain ⟨clean, plain⟩ := nested.clean n.outermost (.inl rfl)
  obtain ⟨kind, active⟩ := nested.work
  have answer := @perform_commit env w.clock w.server b inside carries.live
  have commits : wp (Transaction.doCommit env n.outermost) (fun _ u =>
      Turned { w.server with store := { base := b.view, block := none } } w.statuses w u) (fun _ _ => False) w := by
    rw [Transaction.doCommit, wp_bind, wp_get]
    simp only [kind]
    rw [Transaction.workCommit, wp_try_catch]
    refine wp_mono (Transaction.turned_direct smooth nested.isOpen clean (congrArg Prod.fst answer) 0) (fun _ _ one => ?_) (fun _ _ => False.elim)
    rw [answer] at one
    exact one
  refine wp_mono (Transaction.turned_commit active clean plain nested.isOpen commits) (fun _ u turned => ?_) (fun _ _ => id)
  rw [turned.server, ← Nest.standing_survives nested.sound ended]
  exact carries.view

end

-- The statements of a work that remain once it has committed are those of the committed
-- subtransactions inside committed ones, if each does something before any inside it does.
theorem nested_transactions (env : Outside) (smooth : env.Smooth) (w : World) (outside : w.server.store.block = none)
    (work : Nat) (classname name startArgs logTable : String)
    (works : (openWork env work .work classname name startArgs logTable w).1 = .ok ()) (ops : List SubOp)
    (proper : Along Nest.Proper Nest.step (Nest.start work) (ops.map SubOp.nest))
    (ended : (run Nest.step (Nest.start work) (ops.map SubOp.nest)).Over)
    (ordered : Along Nest.Ordered Nest.step (Nest.start work) (ops.map SubOp.nest)) :
    let opened := openWork env work .work classname name startArgs logTable w
    let committed := Transaction.commit env work (run (subStep env) opened.2 ops)
    committed.1 = .ok () ∧ committed.2.server.store.base.statements =
      w.server.store.base.statements ++ (run Nest.step (Nest.start work) (ops.map SubOp.nest)).survivors := by
  intro opened committed
  have start := wp_returned (nested_open smooth outside work classname name startArgs logTable) works
  obtain ⟨_, nested⟩ := nested_run smooth ops start proper ordered
  have outermost : (run Nest.step (Nest.start work) (ops.map SubOp.nest)).outermost = work :=
    run_always Nest.step (fun n => n.outermost = work) (fun n op same => (Nest.step_outermost op).trans same) _ _ rfl
  have ends := nested_end smooth nested ended
  rw [outermost] at ends
  obtain ⟨_, commits, shown⟩ := wp_completes ends
  exact ⟨commits, shown⟩

-- Two levels, of which the inner one aborts.
theorem nested_transactions_two_levels :
    let w := World.initial .direct
    let ops : List SubOp := [.subtransaction 1 0 "outer", .exec 1 "one" "", .subtransaction 2 1 "inner", .exec 2 "two" "", .abort 2, .commit 1]
    let opened := openWork Outside.calm 0 .work "transaction<READ COMMITTED>" "" "" "" w
    let committed := Transaction.commit Outside.calm 0 (run (subStep Outside.calm) opened.2 ops)
    committed.1 = .ok () ∧ committed.2.server.store.base.statements =
      w.server.store.base.statements ++ (run Nest.step (Nest.start 0) (ops.map SubOp.nest)).survivors :=
  nested_transactions Outside.calm ⟨fun _ => rfl, fun _ _ => rfl, fun _ => rfl⟩ (World.initial .direct) rfl 0 _ "" "" "" (by decide +kernel) _
    (by decide +kernel) (by decide +kernel) (by decide +kernel)

-- A statement in the inner of two, when the outer has yet to begin: the outer one aborts
-- without a word to the backend.
theorem nested_transactions_inner_first :
    let w := World.initial .direct
    let ops : List SubOp := [.subtransaction 1 0 "outer", .subtransaction 2 1 "inner", .exec 2 "two" "", .commit 2, .abort 1]
    let opened := openWork Outside.calm 0 .work "transaction<READ COMMITTED>" "" "" "" w
    let committed := Transaction.commit Outside.calm 0 (run (subStep Outside.calm) opened.2 ops)
    Along Nest.Proper Nest.step (Nest.start 0) (ops.map SubOp.nest) ∧ (run Nest.step (Nest.start 0) (ops.map SubOp.nest)).Over ∧
      (committed.2.trans 0).status = .committed ∧ committed.2.server.store.base.statements ≠
        w.server.store.base.statements ++ (run Nest.step (Nest.start 0) (ops.map SubOp.nest)).survivors := by
  decide +kernel

end Pqxx
