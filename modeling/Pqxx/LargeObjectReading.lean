import Pqxx.LargeObject
import Pqxx.Lib.Run

set_option autoImplicit false

namespace Pqxx

open Lib

inductive ReadOp where
  | sgetc
  | sbumpc
  | snextc
  | sgetn (n : Nat)

inductive Got where
  | value (c : Int)
  | chars (cs : List UInt8)
deriving DecidableEq

section

variable (lo : LoAnswers)

def LargeobjectStreambuf.read (s : LargeobjectStreambuf) : ReadOp → Got × LargeobjectStreambuf
  | .sgetc => match s.sgetc lo with | (c, s) => (.value c, s)
  | .sbumpc => match s.sbumpc lo with | (c, s) => (.value c, s)
  | .snextc => match s.snextc lo with | (c, s) => (.value c, s)
  | .sgetn n => match s.sgetn lo n with | (cs, s) => (.chars cs, s)

-- What a stream still has to deliver: what is left in the get area, and the object from
-- its position on.
def LargeobjectStreambuf.left (s : LargeobjectStreambuf) : List UInt8 :=
  (s.get.elim [] GetArea.remaining) ++ s.obj.content.drop s.obj.position

section

variable (content : List UInt8)

def valueAt (i : Nat) : Int := content[i]?.elim eof toIntType

def after (i : Nat) : Nat := if i < content.length then i + 1 else i

-- What a call gives to one who is at byte i of the content, and where he is then.
def delivered (i : Nat) : ReadOp → Got × Nat
  | .sgetc => (.value (valueAt content i), i)
  | .sbumpc => (.value (valueAt content i), after content i)
  | .snextc => (.value (valueAt content (i + 1)), after content i)
  | .sgetn n => (.chars ((content.drop i).take n), i + ((content.drop i).take n).length)

-- From byte i on, all calls give what they should, and leave what they should.
def ReadsRight (s : LargeobjectStreambuf) (i : Nat) : List ReadOp → Prop
  | [] => True
  | op :: rest =>
      (s.read lo op).1 = (delivered content i op).1 ∧ (s.read lo op).2.left = content.drop (delivered content i op).2 ∧
        ReadsRight (s.read lo op).2 (delivered content i op).2 rest

end

-- The byte that the next read of the object starts with, if the get area is at its end.
def LargeobjectStreambuf.refills (s : LargeobjectStreambuf) : Option UInt8 :=
  if s.current = none then s.obj.content[s.obj.position]? else none

-- A byte that underflow reports as what it is.
def PlainGet (s : LargeobjectStreambuf) : Prop := ∀ c, s.refills = some c → c < 128

-- A byte that underflow does not take for the end.
def PlainBump (s : LargeobjectStreambuf) : Prop := ∀ c, s.refills = some c → c ≠ 255

def PlainBumps : Nat → LargeobjectStreambuf → Prop
  | 0, _ => True
  | n + 1, s => PlainBump s ∧ PlainBumps n (s.sbumpc lo).2

def PlainRead (s : LargeobjectStreambuf) : ReadOp → Prop
  | .sgetc => PlainGet s
  | .sbumpc => PlainBump s
  | .snextc => PlainBump s ∧ PlainGet (s.sbumpc lo).2
  | .sgetn n => PlainBumps lo n s

end

-- An open stream whose next byte is byte i of the content.
structure StandsAt (content : List UInt8) (s : LargeobjectStreambuf) (i : Nat) : Prop where
  sized : 0 < s.bufSize
  alive : s.obj.failed = false
  same : s.obj.content = content
  area : ∃ g, s.get = some g ∧ s.obj.position = i + g.remaining.length ∧ g.remaining <+: content.drop i
  unwritten : s.put = none ∨ s.put = some []

section

variable {lo : LoAnswers} {content : List UInt8} {s : LargeobjectStreambuf} {i : Nat}

theorem opened_stands (content : List UInt8) (bufSize : Nat) (sized : 0 < bufSize) (output : Bool) :
    StandsAt content (.opened content bufSize true output) 0 where
  sized := sized
  alive := rfl
  same := rfl
  area := ⟨.fresh [], rfl, rfl, List.nil_prefix⟩
  unwritten := by
    cases output with
    | false => exact .inl rfl
    | true => exact .inr rfl

theorem stands_left (stands : StandsAt content s i) : s.left = content.drop i := by
  obtain ⟨g, get, position, rest, split⟩ := stands.area
  have beyond : rest = (content.drop i).drop g.remaining.length := by
    rw [← split, List.drop_left]
  rw [LargeobjectStreambuf.left, get, stands.same, position, Option.elim_some, ← List.drop_drop, ← beyond, split]

theorem bump_remaining (g : GetArea) : g.bump.remaining = g.remaining.tail := by
  rw [GetArea.remaining, GetArea.remaining, List.tail_drop]
  show g.chars.drop (min (g.next + 1) g.chars.length) = _
  by_cases more : g.next + 1 ≤ g.chars.length
  · rw [Nat.min_eq_left more]
  · rw [Nat.min_eq_right (by omega), List.drop_length, List.drop_eq_nil_of_le (by omega)]

theorem current_some (stands : StandsAt content s i) {c : UInt8} (there : s.current = some c) :
    content[i]? = some c ∧ StandsAt content s.gbump (i + 1) := by
  obtain ⟨g, get, position, rest, split⟩ := stands.area
  rw [LargeobjectStreambuf.current, get, Option.bind_some] at there
  obtain ⟨others, shape⟩ : ∃ others, g.remaining = c :: others := List.head?_eq_some_iff.mp there
  have whole : content.drop i = c :: (others ++ rest) := by
    rw [← split, shape, List.cons_append]
  have bumped : g.bump.remaining = others := by
    rw [bump_remaining, shape, List.tail_cons]
  refine ⟨?_, stands.sized, stands.alive, stands.same, ⟨g.bump, ?_, ?_, rest, ?_⟩, stands.unwritten⟩
  · have := congrArg List.head? whole
    rw [List.head?_drop, List.head?_cons] at this
    exact this
  · rw [LargeobjectStreambuf.gbump, get, Option.map_some]
  · rw [bumped]
    have length := congrArg List.length shape
    rw [List.length_cons] at length
    show s.obj.position = _
    omega
  · rw [bumped, ← List.drop_drop, whole, List.drop_one, List.tail_cons]

theorem current_none (stands : StandsAt content s i) (none_ : s.current = none) :
    s.obj.position = i ∧ ∃ g, s.get = some g ∧ g.remaining = [] := by
  obtain ⟨g, get, position, -⟩ := stands.area
  rw [LargeobjectStreambuf.current, get, Option.bind_some, List.head?_eq_none_iff] at none_
  rw [none_] at position
  exact ⟨position, g, get, none_⟩

-- What a refill delivers: at the end nothing, and before it some bytes from i on.
theorem underflow_spec (serves : ∀ k, (lo.read k).isSome) (stands : StandsAt content s i) (none_ : s.current = none) :
    StandsAt content (s.underflow lo).2 i ∧ (s.underflow lo).2.current = content[i]? ∧
      (s.underflow lo).1 = content[i]?.elim eof charValue := by
  obtain ⟨position, g, get, -⟩ := current_none stands none_
  obtain ⟨n, answer⟩ := Option.isSome_iff_exists.mp (serves s.obj.reads)
  have sized := stands.sized
  obtain ⟨bytes, shape⟩ : ∃ bytes, bytes = (content.drop i).take (min (max n 1) s.bufSize) := ⟨_, rfl⟩
  have fetched : s.obj.cread lo s.bufSize = ((bytes.length : Int), bytes,
      { s.obj with position := i + bytes.length, reads := s.obj.reads + 1 }) := by
    simp only [LargeObject.cread, LargeObject.loRead, stands.alive, answer, stands.same, position, ← shape]
    congr 1
    omega
  have front : bytes.head? = content[i]? := by
    rw [shape, List.head?_take, if_neg (by omega), List.head?_drop]
  have result : s.underflow lo = (content[i]?.elim eof charValue, { s with
      obj := { s.obj with position := i + bytes.length, reads := s.obj.reads + 1 }, get := some (.fresh bytes) }) := by
    have counted : ¬ (bytes.length : Int) = eof := by
      unfold eof
      omega
    rw [LargeobjectStreambuf.underflow, get]
    simp only [fetched, if_neg counted]
    congr 1
    rw [← front]
    cases bytes with
    | nil => rfl
    | cons c cs =>
        refine if_neg ?_
        rintro (zero | end_)
        · rw [List.length_cons] at zero
          omega
        · exact counted end_
  rw [result]
  refine ⟨⟨sized, stands.alive, stands.same, ⟨.fresh bytes, rfl, rfl, ?_⟩, stands.unwritten⟩, front, rfl⟩
  rw [GetArea.remaining, GetArea.fresh, List.drop_zero, shape]
  exact List.take_prefix _ _

theorem refills_some {c : UInt8} (stands : StandsAt content s i) : s.refills = some c ↔ s.current = none ∧ content[i]? = some c := by
  rw [LargeobjectStreambuf.refills]
  by_cases none_ : s.current = none
  · rw [if_pos none_, stands.same, (current_none stands none_).1]
    exact ⟨fun there => ⟨none_, there⟩, fun both => both.2⟩
  · rw [if_neg none_]
    exact ⟨nofun, fun both => absurd both.1 none_⟩

theorem char_value_plain {c : UInt8} (low : c < 128) : charValue c = toIntType c := if_pos low

theorem char_value_negative {c : UInt8} (high : ¬ c < 128) : charValue c < 0 := by
  have := c.toNat_lt
  rw [charValue, if_neg high]
  omega

theorem char_value_eof (c : UInt8) : charValue c = eof ↔ c = 255 := by
  constructor
  · intro end_
    have high : ¬ c < 128 := by
      intro low
      rw [char_value_plain low, toIntType, eof] at end_
      omega
    rw [charValue, if_neg high, eof] at end_
    exact UInt8.toNat.inj (show c.toNat = 255 by omega)
  · rintro rfl
    rfl

theorem to_int_type_ne_eof (c : UInt8) : ¬ toIntType c = eof := by
  rw [toIntType, eof]
  omega

theorem sgetc_spec (serves : ∀ k, (lo.read k).isSome) (stands : StandsAt content s i) :
    StandsAt content (s.sgetc lo).2 i ∧
      ((s.sgetc lo).1 = valueAt content i ↔ PlainGet s) := by
  rw [LargeobjectStreambuf.sgetc, PlainGet]
  simp only [refills_some stands]
  cases here : s.current with
  | some c =>
      have there := (current_some stands here).1
      refine ⟨stands, fun _ => nofun, fun _ => ?_⟩
      rw [valueAt, there]
      rfl
  | none =>
      obtain ⟨still, -, result⟩ := underflow_spec serves stands here
      refine ⟨still, ?_⟩
      rw [result, valueAt]
      cases there : content[i]? with
      | none => exact ⟨fun _ => nofun, fun _ => rfl⟩
      | some c =>
          simp only [Option.elim_some, true_and, Option.some.injEq, forall_eq']
          constructor
          · intro right
            refine Decidable.byContradiction fun high => ?_
            have := char_value_negative high
            rw [right, toIntType] at this
            omega
          · exact char_value_plain

theorem uflow_end (end_ : (s.underflow lo).1 = eof) : s.uflow lo = (eof, (s.underflow lo).2) := if_pos end_

theorem uflow_char (char : ¬ (s.underflow lo).1 = eof) :
    s.uflow lo = (toIntType ((s.underflow lo).2.current.getD 0), (s.underflow lo).2.gbump) := if_neg char

-- A refill that looks like the end leaves the byte where it is.
theorem sbumpc_spec (serves : ∀ k, (lo.read k).isSome) (stands : StandsAt content s i) :
    PlainBump s ∧ (s.sbumpc lo).1 = valueAt content i ∧ StandsAt content (s.sbumpc lo).2 (after content i) ∨
      ¬ PlainBump s ∧ (s.sbumpc lo).1 = eof ∧ StandsAt content (s.sbumpc lo).2 i ∧ ∃ c, content[i]? = some c := by
  rw [LargeobjectStreambuf.sbumpc, PlainBump]
  simp only [refills_some stands]
  cases here : s.current with
  | some c =>
      obtain ⟨there, next⟩ := current_some stands here
      obtain ⟨inside, -⟩ := List.getElem?_eq_some_iff.mp there
      refine .inl ⟨fun _ => nofun, ?_, ?_⟩
      · rw [valueAt, there]
        rfl
      · rw [after, if_pos inside]
        exact next
  | none =>
      obtain ⟨still, front, result⟩ := underflow_spec serves stands here
      cases there : content[i]? with
      | none =>
          rw [there] at result
          have outside := List.getElem?_eq_none_iff.mp there
          simp only [uflow_end result]
          refine .inl ⟨fun _ => nofun, ?_, ?_⟩
          · rw [valueAt, there]
            rfl
          · rw [after, if_neg (by omega)]
            exact still
      | some c =>
          rw [there] at front result
          obtain ⟨inside, -⟩ := List.getElem?_eq_some_iff.mp there
          simp only [true_and, Option.some.injEq, forall_eq']
          by_cases last : c = 255
          · simp only [uflow_end (result.trans ((char_value_eof c).mpr last))]
            exact .inr ⟨fun plain => plain last, trivial, still, c, rfl⟩
          · simp only [uflow_char fun end_ => last ((char_value_eof c).mp (result.symm.trans end_))]
            refine .inl ⟨last, ?_, ?_⟩
            · rw [valueAt, there, front]
              rfl
            · rw [after, if_pos inside]
              exact (current_some still front).2

theorem value_at_ne_eof {c : UInt8} (there : content[i]? = some c) : ¬ valueAt content i = eof := by
  rw [valueAt, there]
  exact to_int_type_ne_eof c

theorem drop_after {c : UInt8} (there : content[i]? = some c) : content.drop i = c :: content.drop (after content i) := by
  obtain ⟨inside, rfl⟩ := List.getElem?_eq_some_iff.mp there
  rw [after, if_pos inside]
  exact List.drop_eq_getElem_cons inside

theorem drop_after_ne {c : UInt8} (there : content[i]? = some c) : ¬ content.drop i = content.drop (after content i) := by
  intro same
  have length := congrArg List.length (drop_after there)
  rw [same, List.length_cons] at length
  omega

theorem snextc_end (end_ : (s.sbumpc lo).1 = eof) : s.snextc lo = (eof, (s.sbumpc lo).2) := if_pos end_

theorem snextc_char (char : ¬ (s.sbumpc lo).1 = eof) : s.snextc lo = (s.sbumpc lo).2.sgetc lo := if_neg char

theorem snextc_spec (serves : ∀ k, (lo.read k).isSome) (stands : StandsAt content s i) :
    ((s.snextc lo).1 = valueAt content (i + 1) ∧ (s.snextc lo).2.left = content.drop (after content i) ↔
        PlainBump s ∧ PlainGet (s.sbumpc lo).2) ∧
      (PlainBump s → StandsAt content (s.snextc lo).2 (after content i)) := by
  obtain ⟨plain, result, next⟩ | ⟨odd, result, still, c, there⟩ := sbumpc_spec serves stands
  · cases there : content[i]? with
    | none =>
        -- At the end there is nothing to look at next.
        have outside := List.getElem?_eq_none_iff.mp there
        have same : after content i = i := if_neg (by omega)
        have end_ : (s.sbumpc lo).1 = eof := by
          rw [result, valueAt, there]
          rfl
        rw [snextc_end end_, valueAt, List.getElem?_eq_none (by omega)]
        rw [same] at next
        have nothing : PlainGet (s.sbumpc lo).2 := by
          intro d refill
          have := ((refills_some next).mp refill).2
          rw [there] at this
          nomatch this
        exact ⟨⟨fun _ => ⟨plain, nothing⟩, fun _ => ⟨rfl, by rw [same]; exact stands_left next⟩⟩, fun _ => by rw [same]; exact next⟩
    | some c =>
        have char : ¬ (s.sbumpc lo).1 = eof := by
          rw [result]
          exact value_at_ne_eof there
        obtain ⟨inside, -⟩ := List.getElem?_eq_some_iff.mp there
        have next_ : after content i = i + 1 := if_pos inside
        rw [next_] at next ⊢
        obtain ⟨still, right⟩ := sgetc_spec serves next
        rw [snextc_char char, right]
        exact ⟨⟨fun both => ⟨plain, both.1⟩, fun both => ⟨both.2, stands_left still⟩⟩, fun _ => still⟩
  · rw [snextc_end result]
    refine ⟨⟨fun both => ?_, fun both => absurd both.1 odd⟩, fun plain => absurd plain odd⟩
    have skipped := both.2
    rw [stands_left still] at skipped
    exact absurd skipped (drop_after_ne there)

theorem sgetn_end (n : Nat) (end_ : (s.sbumpc lo).1 = eof) : s.sgetn lo (n + 1) = ([], (s.sbumpc lo).2) := if_pos end_

theorem sgetn_char (n : Nat) (char : ¬ (s.sbumpc lo).1 = eof) : s.sgetn lo (n + 1) =
    ((s.sbumpc lo).1.toNat.toUInt8 :: ((s.sbumpc lo).2.sgetn lo n).1, ((s.sbumpc lo).2.sgetn lo n).2) := if_neg char

-- Induction on the number of characters asked for.
theorem sgetn_spec (serves : ∀ k, (lo.read k).isSome) (n : Nat) (stands : StandsAt content s i) :
    ((s.sgetn lo n).1 = (content.drop i).take n ∧
        (s.sgetn lo n).2.left = content.drop (i + ((content.drop i).take n).length) ↔ PlainBumps lo n s) ∧
      (PlainBumps lo n s → StandsAt content (s.sgetn lo n).2 (i + ((content.drop i).take n).length)) := by
  induction n generalizing s i with
  | zero => exact ⟨⟨fun _ => trivial, fun _ => ⟨rfl, stands_left stands⟩⟩, fun _ => stands⟩
  | succ n ih =>
      rw [PlainBumps]
      obtain ⟨plain, result, next⟩ | ⟨odd, result, still, c, there⟩ := sbumpc_spec serves stands
      · cases there : content[i]? with
        | none =>
            have outside := List.getElem?_eq_none_iff.mp there
            have same : after content i = i := if_neg (by omega)
            have rest : content.drop i = [] := List.drop_eq_nil_of_le outside
            have end_ : (s.sbumpc lo).1 = eof := by
              rw [result, valueAt, there]
              rfl
            rw [same] at next
            have more := ih next
            rw [rest, List.take_nil, List.length_nil, Nat.add_zero] at more ⊢
            rw [sgetn_end n end_]
            have nothing : PlainBumps lo n (s.sbumpc lo).2 := by
              refine more.1.mp ?_
              cases n with
              | zero => exact ⟨rfl, stands_left next⟩
              | succ n =>
                  obtain ⟨-, again, same'⟩ | ⟨-, -, -, d, inside⟩ := sbumpc_spec serves next
                  · rw [same] at same'
                    rw [valueAt, there] at again
                    rw [sgetn_end n again]
                    exact ⟨rfl, stands_left same'⟩
                  · rw [there] at inside
                    nomatch inside
            exact ⟨⟨fun _ => ⟨plain, nothing⟩, fun _ => ⟨rfl, stands_left next⟩⟩, fun _ => next⟩
        | some c =>
            have char : ¬ (s.sbumpc lo).1 = eof := by
              rw [result]
              exact value_at_ne_eof there
            have code : (s.sbumpc lo).1.toNat.toUInt8 = c := by
              rw [result, valueAt, there]
              exact UInt8.ofNat_toNat
            obtain ⟨inside, -⟩ := List.getElem?_eq_some_iff.mp there
            have next_ : after content i = i + 1 := if_pos inside
            have split := drop_after there
            obtain ⟨right, stays⟩ := ih next
            rw [sgetn_char n char, code, split, List.take_succ_cons, List.length_cons, List.cons.injEq]
            have index : i + (((content.drop (after content i)).take n).length + 1) =
                after content i + ((content.drop (after content i)).take n).length := by omega
            rw [index]
            exact ⟨⟨fun both => ⟨plain, right.mp ⟨both.1.2, both.2⟩⟩, fun both => ⟨⟨rfl, (right.mpr both.2).1⟩, (right.mpr both.2).2⟩⟩,
              fun both => stays both.2⟩
      · rw [sgetn_end n result]
        refine ⟨⟨fun both => ?_, fun both => absurd both.1 odd⟩, fun both => absurd both.1 odd⟩
        have empty := both.1
        rw [drop_after there, List.take_succ_cons] at empty
        nomatch empty

theorem read_spec (serves : ∀ k, (lo.read k).isSome) (op : ReadOp) (stands : StandsAt content s i) :
    ((s.read lo op).1 = (delivered content i op).1 ∧ (s.read lo op).2.left = content.drop (delivered content i op).2 ↔
        PlainRead lo s op) ∧
      (PlainRead lo s op → StandsAt content (s.read lo op).2 (delivered content i op).2) := by
  cases op with
  | sgetc =>
      obtain ⟨still, right⟩ := sgetc_spec serves stands
      simp only [LargeobjectStreambuf.read, delivered, PlainRead, Got.value.injEq, right]
      exact ⟨⟨fun both => both.1, fun plain => ⟨plain, stands_left still⟩⟩, fun _ => still⟩
  | sbumpc =>
      simp only [LargeobjectStreambuf.read, delivered, PlainRead, Got.value.injEq]
      obtain ⟨plain, result, next⟩ | ⟨odd, result, still, c, there⟩ := sbumpc_spec serves stands
      · exact ⟨⟨fun _ => plain, fun _ => ⟨result, stands_left next⟩⟩, fun _ => next⟩
      · refine ⟨⟨fun both => ?_, fun plain => absurd plain odd⟩, fun plain => absurd plain odd⟩
        exact absurd (both.1.symm.trans result) (value_at_ne_eof there)
  | snextc =>
      simp only [LargeobjectStreambuf.read, delivered, PlainRead, Got.value.injEq]
      obtain ⟨right, next⟩ := snextc_spec serves stands
      exact ⟨right, fun both => next both.1⟩
  | sgetn n =>
      simp only [LargeobjectStreambuf.read, delivered, PlainRead, Got.chars.injEq]
      exact sgetn_spec serves n stands

theorem refills_low (ascii : ∀ c ∈ content, c < 128) (stands : StandsAt content s i) (c : UInt8) (refill : s.refills = some c) :
    c < 128 :=
  ascii c (List.mem_of_getElem? ((refills_some stands).mp refill).2)

theorem low_ne {c : UInt8} (low : c < 128) : c ≠ 255 := by
  rintro rfl
  exact absurd low (by decide)

theorem sbumpc_low (serves : ∀ k, (lo.read k).isSome) (ascii : ∀ c ∈ content, c < 128) (stands : StandsAt content s i) :
    PlainBump s ∧ StandsAt content (s.sbumpc lo).2 (after content i) := by
  have plain : PlainBump s := fun c refill => low_ne (refills_low ascii stands c refill)
  obtain ⟨-, -, next⟩ | ⟨odd, -⟩ := sbumpc_spec serves stands
  · exact ⟨plain, next⟩
  · exact absurd plain odd

-- With such bytes all reads are plain.
theorem read_low (serves : ∀ k, (lo.read k).isSome) (ascii : ∀ c ∈ content, c < 128) (op : ReadOp) (stands : StandsAt content s i) :
    PlainRead lo s op := by
  have bumps : ∀ n s i, StandsAt content s i → PlainBumps lo n s := by
    intro n
    induction n with
    | zero => exact fun _ _ _ => trivial
    | succ n ih =>
        intro s i stands
        obtain ⟨plain, next⟩ := sbumpc_low serves ascii stands
        exact ⟨plain, ih _ _ next⟩
  cases op with
  | sgetc => exact refills_low ascii stands
  | sbumpc => exact (sbumpc_low serves ascii stands).1
  | snextc =>
      obtain ⟨plain, next⟩ := sbumpc_low serves ascii stands
      exact ⟨plain, refills_low ascii next⟩
  | sgetn n => exact bumps n s i stands

theorem reads_low (serves : ∀ k, (lo.read k).isSome) (ascii : ∀ c ∈ content, c < 128) (ops : List ReadOp)
    (stands : StandsAt content s i) : Along (PlainRead lo) (fun s op => (s.read lo op).2) s ops := by
  induction ops generalizing s i with
  | nil => trivial
  | cons op rest ih =>
      have plain := read_low serves ascii op stands
      exact ⟨plain, ih ((read_spec serves op stands).2 plain)⟩

end

theorem letters_low : ∀ c ∈ [97, 98, 99], c < (128 : UInt8) := by
  intro c there
  simp only [List.mem_cons, List.not_mem_nil, or_false] at there
  obtain rfl | rfl | rfl := there <;> decide

end Pqxx
