import Pqxx.LargeObject
import Pqxx.Except
import Pqxx.Lib.Run

set_option autoImplicit false

namespace Pqxx

open Lib

inductive WriteOp where
  | sputc (c : UInt8)
  | sputn (cs : List UInt8)
  | pubsync

def WriteOp.bytes : WriteOp → List UInt8
  | .sputc c => [c]
  | .sputn cs => cs
  | .pubsync => []

section

variable (lo : LoAnswers)

-- Whether the call reports failure: an eof, a count that is too low, or -1.
def LargeobjectStreambuf.write (s : LargeobjectStreambuf) : WriteOp → Bool × LargeobjectStreambuf
  | .sputc c => match s.sputc lo c with | (res, s) => (decide (res = eof), s)
  | .sputn cs => match s.sputn lo cs with | (n, s) => (decide (n < cs.length), s)
  | .pubsync => match s.sync lo with | (res, s) => (decide (res = -1), s)

def writeStep (s : LargeobjectStreambuf) (op : WriteOp) : LargeobjectStreambuf := (s.write lo op).2

def Unreported (s : LargeobjectStreambuf) (op : WriteOp) : Prop := (s.write lo op).1 = false

-- A call of lo_write that wrote less than it was given and did not say that it failed.
def ShortWrite (call : List UInt8 × Option Nat) : Prop := ∃ n, call.2 = some n ∧ n < call.1.length

-- largeobjectaccess::write, which writes all or throws. An error's text ends with Reason(errno).
def LargeObject.writeAll (o : LargeObject) (id : Nat) (reason : String) (buf : List UInt8) : Except Exn LargeObject :=
  match o.cwrite lo buf with
  | (bytes, o') =>
      if bytes < buf.length then
        if bytes < 0 then
          .error { kind := .failure, what := "Error writing to large object #" ++ toString id ++ ": " ++ reason }
        else if bytes = 0 then
          .error { kind := .failure, what := "Could not write to large object #" ++ toString id ++ ": " ++ reason }
        else
          .error { kind := .failure, what := "Wanted to write " ++ toString buf.length ++ " bytes to large object #" ++ toString id ++
            "; could only write " ++ toString bytes }
      else .ok o'

end

-- A stream to which the bytes have been put, with no failure so far: lo_write was given all
-- of them but those in the put area. The object has had its content overwritten from the start.
structure Holds (before : List UInt8) (s : LargeobjectStreambuf) (bytes : List UInt8) : Prop where
  area : ∃ pending, s.put = some pending ∧ pending.length ≤ s.bufSize ∧ s.obj.log.flatMap Prod.fst ++ pending = bytes
  answered : ∀ call ∈ s.obj.log, call.2.isSome
  alive : s.obj.failed = false
  content : s.obj.content = s.obj.written ++ before.drop s.obj.written.length
  position : s.obj.position = s.obj.written.length
  sized : 0 < s.bufSize

section

variable {lo : LoAnswers} {before bytes : List UInt8} {s : LargeobjectStreambuf}

theorem overwrite_next (done more : List UInt8) :
    overwrite (done ++ before.drop done.length) done.length more = (done ++ more) ++ before.drop (done ++ more).length := by
  have none_ : done.length - (done ++ before.drop done.length).length = 0 := by
    rw [List.length_append]
    omega
  rw [overwrite, none_, List.take_left, List.replicate_zero, List.append_nil, ← List.drop_drop, List.drop_left, List.drop_drop,
    List.length_append]

-- A write of the put area, which empties it whatever lo_write did with it.
theorem cwrite_spec (lo : LoAnswers) (holds : Holds before s bytes) {pending : List UInt8} (put : s.put = some pending) :
    ((s.obj.cwrite lo pending).1 = eof ∧ lo.write s.obj.log.length = none) ∨
      0 ≤ (s.obj.cwrite lo pending).1 ∧ ∀ rest : List UInt8, rest.length ≤ s.bufSize →
        Holds before { s with obj := (s.obj.cwrite lo pending).2, put := some rest } (bytes ++ rest) := by
  obtain ⟨others, area, -, given⟩ := holds.area
  obtain rfl : pending = others := Option.some.inj (put.symm.trans area)
  cases answer : lo.write s.obj.log.length with
  | none =>
      refine .inl ⟨?_, rfl⟩
      simp only [LargeObject.cwrite, LargeObject.loWrite, holds.alive, answer]
      rfl
  | some n =>
      have result : s.obj.cwrite lo pending = (((pending.take n).length : Int), { s.obj with
          content := overwrite s.obj.content s.obj.position (pending.take n)
          position := s.obj.position + (pending.take n).length
          log := s.obj.log ++ [(pending, some n)] }) := by
        simp only [LargeObject.cwrite, LargeObject.loWrite, holds.alive, answer]
        congr 1
        omega
      rw [result]
      have written : ∀ o : LargeObject, o.log = s.obj.log ++ [(pending, some n)] → o.written = s.obj.written ++ pending.take n := by
        intro o log
        rw [LargeObject.written, log, List.flatMap_append]
        simp only [LargeObject.written, List.flatMap_cons, List.flatMap_nil, List.append_nil, Option.getD_some]
      refine .inr ⟨Int.natCast_nonneg _, fun rest fits => ⟨⟨rest, rfl, fits, ?_⟩, ?_, holds.alive, ?_, ?_, holds.sized⟩⟩
      · rw [List.flatMap_append, ← given]
        simp only [List.flatMap_cons, List.flatMap_nil, List.append_nil]
      · intro call there
        obtain there | there := List.mem_append.mp there
        · exact holds.answered call there
        · rw [List.mem_singleton.mp there]
          rfl
      · rw [written _ rfl]
        simp only [holds.content, holds.position, overwrite_next]
      · rw [written _ rfl, List.length_append]
        simp only [holds.position]

theorem overflow_spec (holds : Holds before s bytes) (ch : Option UInt8) (fine : ¬ (s.overflow lo ch).1 = eof) :
    Holds before (s.overflow lo ch).2 (bytes ++ ch.toList) ∧ (s.overflow lo ch).2.put = some ch.toList := by
  obtain ⟨pending, put, fits, given⟩ := holds.area
  have room : ch.toList.length ≤ s.bufSize := by
    have := holds.sized
    cases ch with
    | none => exact Nat.zero_le _
    | some c => exact holds.sized
  cases pending with
  | nil =>
      rw [LargeobjectStreambuf.overflow, put]
      rw [List.append_nil] at given
      exact ⟨⟨⟨ch.toList, rfl, room, by rw [given]⟩, holds.answered, holds.alive, holds.content, holds.position, holds.sized⟩, rfl⟩
  | cons c cs =>
      have result : s.overflow lo ch =
          ((s.obj.cwrite lo (c :: cs)).1, { s with obj := (s.obj.cwrite lo (c :: cs)).2, put := some ch.toList }) := by
        rw [LargeobjectStreambuf.overflow, put]
      rw [result] at fine ⊢
      obtain ⟨end_, -⟩ | ⟨-, next⟩ := cwrite_spec lo holds put
      · exact absurd end_ fine
      · exact ⟨next ch.toList room, rfl⟩

theorem sputc_spec (holds : Holds before s bytes) (c : UInt8) (fine : ¬ (s.sputc lo c).1 = eof) :
    Holds before (s.sputc lo c).2 (bytes ++ [c]) := by
  obtain ⟨pending, put, fits, given⟩ := holds.area
  rw [LargeobjectStreambuf.sputc, put] at fine ⊢
  by_cases room : pending.length < s.bufSize
  · simp only [if_pos room]
    refine ⟨⟨pending ++ [c], rfl, ?_, by rw [← List.append_assoc, given]⟩, holds.answered, holds.alive, holds.content, holds.position,
      holds.sized⟩
    rw [List.length_append, List.length_singleton]
    exact room
  · simp only [if_neg room] at fine ⊢
    exact (overflow_spec holds (some c) fine).1

theorem sputn_end {c : UInt8} {cs : List UInt8} (end_ : (s.sputc lo c).1 = eof) :
    s.sputn lo (c :: cs) = (0, (s.sputc lo c).2) := if_pos end_

theorem sputn_put {c : UInt8} {cs : List UInt8} (fine : ¬ (s.sputc lo c).1 = eof) :
    s.sputn lo (c :: cs) = (((s.sputc lo c).2.sputn lo cs).1 + 1, ((s.sputc lo c).2.sputn lo cs).2) := if_neg fine

theorem sputn_spec (holds : Holds before s bytes) (cs : List UInt8) (fine : ¬ (s.sputn lo cs).1 < cs.length) :
    Holds before (s.sputn lo cs).2 (bytes ++ cs) := by
  induction cs generalizing s bytes with
  | nil =>
      rw [List.append_nil]
      exact holds
  | cons c cs ih =>
      by_cases end_ : (s.sputc lo c).1 = eof
      · rw [sputn_end end_, List.length_cons] at fine
        omega
      · rw [sputn_put end_, List.length_cons] at fine
        rw [sputn_put end_, List.append_cons]
        exact ih (sputc_spec holds c end_) (by omega)

theorem sync_holds (holds : Holds before s bytes) (fine : ¬ (s.sync lo).1 = eof) :
    Holds before (s.sync lo).2 bytes ∧ (s.sync lo).2.put = some [] := by
  have rewound : Holds before { s with get := s.get.map GetArea.rewind } bytes :=
    ⟨holds.area, holds.answered, holds.alive, holds.content, holds.position, holds.sized⟩
  obtain ⟨next, empty⟩ := overflow_spec rewound none fine
  rw [Option.toList_none, List.append_nil] at next
  exact ⟨next, empty⟩

theorem write_spec (holds : Holds before s bytes) (op : WriteOp) (fine : Unreported lo s op) :
    Holds before (writeStep lo s op) (bytes ++ op.bytes) := by
  cases op with
  | sputc c => exact sputc_spec holds c (of_decide_eq_false fine)
  | sputn cs => exact sputn_spec holds cs (of_decide_eq_false fine)
  | pubsync =>
      rw [WriteOp.bytes, List.append_nil]
      exact (sync_holds holds (of_decide_eq_false fine)).1

theorem writes_spec (ops : List WriteOp) (holds : Holds before s bytes)
    (fine : Along (Unreported lo) (writeStep lo) s ops) :
    Holds before (run (writeStep lo) s ops) (bytes ++ ops.flatMap WriteOp.bytes) := by
  induction ops generalizing s bytes with
  | nil =>
      rw [List.flatMap_nil, List.append_nil]
      exact holds
  | cons op rest ih =>
      rw [List.flatMap_cons, ← List.append_assoc]
      exact ih (write_spec holds op fine.1) fine.2

theorem taken_length (log : List (List UInt8 × Option Nat)) :
    (log.flatMap fun call => call.1.take (call.2.getD 0)).length ≤ (log.flatMap Prod.fst).length := by
  induction log with
  | nil => exact Nat.le_refl _
  | cons call log ih =>
      rw [List.flatMap_cons, List.flatMap_cons, List.length_append, List.length_append, List.length_take]
      omega

-- What lo_write has taken is all that it was given exactly if it never took less.
theorem taken_all (log : List (List UInt8 × Option Nat)) (answered : ∀ call ∈ log, call.2.isSome) :
    (log.flatMap fun call => call.1.take (call.2.getD 0)) = log.flatMap Prod.fst ↔ ∀ call ∈ log, ¬ ShortWrite call := by
  induction log with
  | nil => exact ⟨fun _ => nofun, fun _ => rfl⟩
  | cons call log ih =>
      obtain ⟨n, some_⟩ := Option.isSome_iff_exists.mp (answered call List.mem_cons_self)
      have rest := ih fun other there => answered other (List.mem_cons_of_mem call there)
      have short : ShortWrite call ↔ n < call.1.length := by
        constructor
        · rintro ⟨m, same, less⟩
          rw [some_] at same
          rw [Option.some.inj same]
          exact less
        · exact fun less => ⟨n, some_, less⟩
      rw [List.flatMap_cons, List.flatMap_cons, List.forall_mem_cons, short, ← rest, some_, Option.getD_some]
      constructor
      · intro same
        have length := congrArg List.length same
        have others := taken_length log
        rw [List.length_append, List.length_append, List.length_take] at length
        obtain ⟨-, tails⟩ := List.append_inj same (by rw [List.length_take]; omega)
        exact ⟨by omega, tails⟩
      · intro ⟨full, same⟩
        rw [same, List.take_of_length_le (by omega)]

-- The sibling of the stream's own writing reports a short write.
theorem write_all_full {o o' : LargeObject} {id : Nat} {reason : String} {buf : List UInt8}
    (done : o.writeAll lo id reason buf = .ok o') : ∃ n, o'.log = o.log ++ [(buf, some n)] ∧ ¬ ShortWrite (buf, some n) := by
  cases alive : o.failed with
  | true =>
      simp only [LargeObject.writeAll, LargeObject.cwrite, LargeObject.loWrite, alive] at done
      rw [if_pos (by omega), if_pos (by decide)] at done
      nomatch done
  | false =>
      cases answer : lo.write o.log.length with
      | none =>
          simp only [LargeObject.writeAll, LargeObject.cwrite, LargeObject.loWrite, alive, answer] at done
          rw [if_pos (by omega), if_pos (by decide)] at done
          nomatch done
      | some n =>
          simp only [LargeObject.writeAll, LargeObject.cwrite, LargeObject.loWrite, alive, answer] at done
          by_cases short : max ((buf.take n).length : Int) (-1) < buf.length
          · rw [if_pos short, if_neg (by omega)] at done
            by_cases none_ : max ((buf.take n).length : Int) (-1) = 0
            · rw [if_pos none_] at done
              nomatch done
            · rw [if_neg none_] at done
              nomatch done
          · rw [if_neg short] at done
            injection done with done
            refine ⟨n, by rw [← done], ?_⟩
            rintro ⟨m, same, less⟩
            obtain rfl := Option.some.inj same
            rw [List.length_take] at short
            simp only at less
            omega

end

end Pqxx
