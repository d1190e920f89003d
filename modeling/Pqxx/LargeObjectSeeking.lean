import Pqxx.LargeObjectReading

set_option autoImplicit false

namespace Pqxx

open Lib

inductive BufOp where
  | read (op : ReadOp)
  | pubseekpos (pos : Int)
  | pubseekoff (offset : Int) (dir : SeekDir)
  | pubsync

section

variable (lo : LoAnswers)

def LargeobjectStreambuf.step (s : LargeobjectStreambuf) : BufOp → Got × LargeobjectStreambuf
  | .read op => s.read lo op
  | .pubseekpos pos => match s.seekpos pos with | (p, s) => (.value p, s)
  | .pubseekoff offset dir => match s.seekoff offset dir with | (p, s) => (.value p, s)
  | .pubsync => match s.sync lo with | (res, s) => (.value res, s)

section

variable (content : List UInt8)

-- Where an offset leads to from position i.
def seekTarget (i : Nat) (offset : Int) : SeekDir → Int
  | .beg => offset
  | .cur => i + offset
  | .end_ => content.length + offset

-- What a call gives to one who is at byte i of the content, where something is promised
-- about it, and where he is then.
def positioned (i : Nat) : BufOp → Option Got × Nat
  | .read op => (some (delivered content i op).1, (delivered content i op).2)
  | .pubseekpos pos => (some (.value pos), pos.toNat)
  | .pubseekoff offset dir => (some (.value (seekTarget content i offset dir)), (seekTarget content i offset dir).toNat)
  | .pubsync => (none, i)

-- From byte i on, each call gives what it should, and the next byte after it is the right one.
def Positioned (s : LargeobjectStreambuf) (i : Nat) : List BufOp → Prop
  | [] => True
  | op :: rest =>
      (∀ got, (positioned content i op).1 = some got → (s.step lo op).1 = got) ∧
        (s.step lo op).2.left = content.drop (positioned content i op).2 ∧
        Positioned (s.step lo op).2 (positioned content i op).2 rest

end

end

-- An offset as cseek passes it on.
def asInt (offset : Int) : Int := (BitVec.ofInt 32 offset).toInt

-- What lo_lseek accepts: a position that is not negative and fits an int.
def Accepted (s : LargeobjectStreambuf) : BufOp → Prop
  | .read _ => True
  | .pubseekpos pos => 0 ≤ asInt pos
  | .pubseekoff offset dir =>
      0 ≤ seekTarget s.obj.content s.obj.position (asInt offset) dir ∧
        seekTarget s.obj.content s.obj.position (asInt offset) dir < 2 ^ 31
  | .pubsync => True

-- A seek does not look at the get area, so that it has to be used up, and a sync goes back
-- to its start.
def Drained (s : LargeobjectStreambuf) : BufOp → Prop
  | .read _ => True
  | .pubseekpos pos => s.current = none ∧ asInt pos = pos
  | .pubseekoff offset _ => s.current = none ∧ asInt offset = offset
  | .pubsync => ∀ g, s.get = some g → g.next = 0

section

variable {lo : LoAnswers} {content : List UInt8} {s : LargeobjectStreambuf} {i : Nat}

theorem seek_accepted (stands : StandsAt content s i) (offset : Int) (dir : SeekDir)
    (low : 0 ≤ seekTarget content s.obj.position (asInt offset) dir)
    (high : seekTarget content s.obj.position (asInt offset) dir < 2 ^ 31) :
    s.obj.cseek offset dir = (seekTarget content s.obj.position (asInt offset) dir,
      { s.obj with position := (seekTarget content s.obj.position (asInt offset) dir).toNat }) := by
  have target : s.obj.cseek offset dir =
      if s.obj.failed = true ∨ seekTarget content s.obj.position (asInt offset) dir < 0 ∨
          seekTarget content s.obj.position (asInt offset) dir ≥ 2 ^ 31 then (-1, { s.obj with failed := true })
      else (seekTarget content s.obj.position (asInt offset) dir,
        { s.obj with position := (seekTarget content s.obj.position (asInt offset) dir).toNat }) := by
    rw [← stands.same]
    cases dir with
    | beg => rfl
    | cur => rfl
    | end_ => rfl
  rw [target, if_neg]
  rw [stands.alive]
  rintro (failed | early | late)
  · nomatch failed
  · omega
  · omega

-- The stream after a seek of the object to q.
def LargeobjectStreambuf.sought (s : LargeobjectStreambuf) (q : Nat) : LargeobjectStreambuf :=
  { s with obj := { s.obj with position := q } }

theorem sought_left (stands : StandsAt content s i) (q : Nat) (left : (s.sought q).left = content.drop q) : s.current = none := by
  obtain ⟨g, get, -⟩ := stands.area
  have parts : (s.sought q).left = g.remaining ++ content.drop q := by
    rw [← stands.same]
    simp only [LargeobjectStreambuf.left, LargeobjectStreambuf.sought, get, Option.elim_some]
  have length := congrArg List.length (parts.symm.trans left)
  rw [List.length_append] at length
  rw [LargeobjectStreambuf.current, get, Option.bind_some, List.head?_eq_none_iff]
  exact List.length_eq_zero_iff.mp (by omega)

theorem sought_stands (stands : StandsAt content s i) (used : s.current = none) (q : Nat) : StandsAt content (s.sought q) q := by
  obtain ⟨-, g, get, empty⟩ := current_none stands used
  refine ⟨stands.sized, stands.alive, stands.same, ⟨g, get, ?_, ?_⟩, stands.unwritten⟩
  · rw [empty]
    rfl
  · rw [empty]
    exact List.nil_prefix

theorem seek_target_shift (p : Nat) (offset : Int) (dir : SeekDir) :
    seekTarget content p (asInt offset) dir = seekTarget content p offset dir ↔ asInt offset = offset := by
  cases dir <;> simp only [seekTarget] <;> omega

theorem sync_spec (lo : LoAnswers) (stands : StandsAt content s i) :
    ((s.sync lo).2.left = content.drop i ↔ Drained s .pubsync) ∧ (Drained s .pubsync → StandsAt content (s.sync lo).2 i) := by
  obtain ⟨g, get, position, start⟩ := stands.area
  have sync : ∃ put, (put = none ∨ put = some []) ∧ (s.sync lo).2 = { s with get := some g.rewind, put } := by
    obtain nothing | nothing := stands.unwritten
    · exact ⟨none, .inl rfl, by rw [LargeobjectStreambuf.sync, LargeobjectStreambuf.overflow, nothing, get]; rfl⟩
    · exact ⟨some [], .inr rfl, by rw [LargeobjectStreambuf.sync, LargeobjectStreambuf.overflow, nothing, get]; rfl⟩
  obtain ⟨put, unwritten, sync⟩ := sync
  have drained : Drained s .pubsync ↔ g.next = 0 := by
    simp only [Drained, get, Option.some.injEq, forall_eq']
  have whole : g.next = 0 → g.rewind = g := by
    intro untouched
    obtain ⟨chars, next, within⟩ := g
    obtain rfl : next = 0 := untouched
    rfl
  have stays : g.next = 0 → StandsAt content { s with get := some g.rewind, put } i := by
    intro untouched
    rw [whole untouched]
    exact ⟨stands.sized, stands.alive, stands.same, ⟨g, rfl, position, start⟩, unwritten⟩
  rw [sync, drained]
  refine ⟨⟨fun left => ?_, fun untouched => stands_left (stays untouched)⟩, stays⟩
  have before := stands_left stands
  rw [← left, LargeobjectStreambuf.left, LargeobjectStreambuf.left, get] at before
  have length := congrArg List.length (List.append_cancel_right before)
  have within := g.within
  rw [Option.elim_some, Option.elim_some, GetArea.remaining, GetArea.remaining, List.length_drop, List.length_drop] at length
  simp only [GetArea.rewind, GetArea.fresh] at length
  omega

theorem buf_step_spec (serves : ∀ k, (lo.read k).isSome) (ascii : ∀ c ∈ content, c < 128) (op : BufOp)
    (stands : StandsAt content s i) (accepted : Accepted s op) :
    ((∀ got, (positioned content i op).1 = some got → (s.step lo op).1 = got) ∧
        (s.step lo op).2.left = content.drop (positioned content i op).2 ↔ Drained s op) ∧
      (Drained s op → StandsAt content (s.step lo op).2 (positioned content i op).2) := by
  cases op with
  | read op =>
      obtain ⟨right, next⟩ := read_spec serves op stands
      have plain := read_low serves ascii op stands
      simp only [LargeobjectStreambuf.step, positioned, Drained, Option.some.injEq, forall_eq', iff_true]
      exact ⟨right.mpr plain, fun _ => next plain⟩
  | pubseekpos pos =>
      have small : asInt pos < 2 ^ 31 := by
        have := BitVec.toInt_lt (x := BitVec.ofInt 32 pos)
        rw [asInt]
        omega
      have seek : s.seekpos pos = (asInt pos, s.sought (asInt pos).toNat) := by
        rw [LargeobjectStreambuf.seekpos, seek_accepted stands pos .beg accepted small]
        rfl
      simp only [LargeobjectStreambuf.step, seek, positioned, Drained, Option.some.injEq, forall_eq', Got.value.injEq]
      refine ⟨⟨fun ⟨same, left⟩ => ?_, fun ⟨used, same⟩ => ?_⟩, fun ⟨used, same⟩ => ?_⟩
      · rw [same] at left
        exact ⟨sought_left stands _ left, same⟩
      · rw [same]
        exact ⟨rfl, stands_left (sought_stands stands used _)⟩
      · rw [same]
        exact sought_stands stands used _
  | pubseekoff offset dir =>
      obtain ⟨low, high⟩ := accepted
      rw [stands.same] at low high
      have seek : s.seekoff offset dir = (seekTarget content s.obj.position (asInt offset) dir,
          s.sought (seekTarget content s.obj.position (asInt offset) dir).toNat) := by
        rw [LargeobjectStreambuf.seekoff, seek_accepted stands offset dir low high]
        rfl
      simp only [LargeobjectStreambuf.step, seek, positioned, Drained, Option.some.injEq, forall_eq', Got.value.injEq]
      refine ⟨⟨fun ⟨same, left⟩ => ?_, fun ⟨used, same⟩ => ?_⟩, fun ⟨used, same⟩ => ?_⟩
      · rw [same] at left
        have used := sought_left stands _ left
        rw [(current_none stands used).1] at same
        exact ⟨used, (seek_target_shift i offset dir).mp same⟩
      · rw [same, (current_none stands used).1]
        exact ⟨rfl, stands_left (sought_stands stands used _)⟩
      · rw [same, (current_none stands used).1]
        exact sought_stands stands used _
  | pubsync =>
      obtain ⟨right, next⟩ := sync_spec lo stands
      simp only [LargeobjectStreambuf.step, positioned, reduceCtorEq, false_imp_iff, implies_true, true_and]
      exact ⟨right, next⟩

end

end Pqxx
