import Mathlib.Algebra.Group.Int.Defs
import Pqxx.Row

set_option autoImplicit false

namespace Pqxx

-- const_result_iterator and const_row_iterator: the number of a row or of a column, which
-- is unsigned. An offset is signed; index and offset are added as signed numbers.
structure ConstIterator (width : Nat) where
  index : BitVec width
deriving DecidableEq

namespace ConstIterator

variable {width : Nat}

def inc (i : ConstIterator width) : ConstIterator width := { index := i.index + 1 }

def dec (i : ConstIterator width) : ConstIterator width := { index := i.index - 1 }

def addAssign (i : ConstIterator width) (o : Int) : ConstIterator width := { index := .ofInt width (i.index.toInt + o) }

def subAssign (i : ConstIterator width) (o : Int) : ConstIterator width := { index := .ofInt width (i.index.toInt - o) }

def add (i : ConstIterator width) (o : Int) : ConstIterator width := { index := .ofInt width (i.index.toInt + o) }

def sub (i : ConstIterator width) (o : Int) : ConstIterator width := { index := .ofInt width (i.index.toInt - o) }

-- difference_type(num() - i.num()): an unsigned difference, taken for a signed one.
def difference (i j : ConstIterator width) : Int := (i.index - j.index).toInt

def less (i j : ConstIterator width) : Bool := i.index < j.index

def lessEqual (i j : ConstIterator width) : Bool := i.index ≤ j.index

def greater (i j : ConstIterator width) : Bool := i.index > j.index

def greaterEqual (i j : ConstIterator width) : Bool := i.index ≥ j.index

end ConstIterator

-- const_reverse_result_iterator and const_reverse_row_iterator: the iterator they derive
-- from, at the very element they refer to.
structure ConstReverseIterator (width : Nat) where
  super : ConstIterator width
deriving DecidableEq

namespace ConstReverseIterator

variable {width : Nat}

-- The constructor takes the forward iterator one past the element.
def ofForward (rhs : ConstIterator width) : ConstReverseIterator width := { super := rhs.dec }

def base (i : ConstReverseIterator width) : ConstIterator width := i.super.inc

def inc (i : ConstReverseIterator width) : ConstReverseIterator width := { super := i.super.dec }

def dec (i : ConstReverseIterator width) : ConstReverseIterator width := { super := i.super.inc }

-- The value of i++ or i-- and what it leaves in i.
def postInc (i : ConstReverseIterator width) : ConstReverseIterator width × ConstReverseIterator width := (i, i.inc)

def postDec (i : ConstReverseIterator width) : ConstReverseIterator width × ConstReverseIterator width := (i, i.dec)

def addAssign (i : ConstReverseIterator width) (o : Int) : ConstReverseIterator width := { super := i.super.subAssign o }

def subAssign (i : ConstReverseIterator width) (o : Int) : ConstReverseIterator width := { super := i.super.addAssign o }

def add (i : ConstReverseIterator width) (o : Int) : ConstReverseIterator width := ofForward (i.base.sub o)

def sub (i : ConstReverseIterator width) (o : Int) : ConstReverseIterator width := ofForward (i.base.add o)

def difference (i rhs : ConstReverseIterator width) : Int := rhs.super.difference i.super

def equal (i rhs : ConstReverseIterator width) : Bool := i.super = rhs.super

def less (i rhs : ConstReverseIterator width) : Bool := i.super.greater rhs.super

def lessEqual (i rhs : ConstReverseIterator width) : Bool := i.super.greaterEqual rhs.super

def greater (i rhs : ConstReverseIterator width) : Bool := i.super.less rhs.super

def greaterEqual (i rhs : ConstReverseIterator width) : Bool := i.super.lessEqual rhs.super

end ConstReverseIterator

-- What a reverse iterator walks over: the rows of a result or the columns of a row.
inductive Container where
  | rows (r : ResultData)
  | columns (r : Row)

namespace Container

-- result_size_type is unsigned long, here of 64 bits, and row_size_type is unsigned int.
def width : Container → Nat
  | rows _ => 64
  | columns _ => 32

def first : Container → Nat
  | rows _ => 0
  | columns r => r.start

def size : Container → Nat
  | rows r => r.size
  | columns r => r.size

def begin_ (c : Container) : ConstIterator c.width := { index := .ofNat c.width c.first }

def end_ (c : Container) : ConstIterator c.width := { index := .ofNat c.width (c.first + c.size) }

def rbegin (c : Container) : ConstReverseIterator c.width := .ofForward c.end_

def rend (c : Container) : ConstReverseIterator c.width := .ofForward c.begin_

-- while (i < rend()) or while (i != rend()): the numbers of the elements that *i++ gives,
-- if the loop ends after at most so many.
def walk (c : Container) (more : ConstReverseIterator c.width → ConstReverseIterator c.width → Bool) :
    Nat → ConstReverseIterator c.width → Option (List Nat)
  | 0, i => if more i c.rend then none else some []
  | steps + 1, i =>
      if more i c.rend then (c.walk more steps i.postInc.2).map (i.postInc.1.super.index.toNat :: ·) else some []

-- The last element but k.
def place (c : Container) (k : Nat) : ConstReverseIterator c.width := c.rbegin.add k

end Container

section

variable (c : Container)

-- All that the laws say but for the order.
structure Numbered : Prop where
  rbegin : c.place 0 = c.rbegin
  rend : c.place c.size = c.rend
  refers : ∀ k < c.size, (c.place k).super.index.toNat = c.first + (c.size - 1 - k)
  base : ∀ k ≤ c.size, (c.place k).base.index.toNat = c.first + (c.size - k)
  inc : ∀ k < c.size, (c.place k).inc = c.place (k + 1) ∧ (c.place k).postInc = (c.place k, c.place (k + 1))
  dec : ∀ k < c.size, (c.place (k + 1)).dec = c.place k ∧ (c.place (k + 1)).postDec = (c.place (k + 1), c.place k)
  forth : ∀ i ≤ c.size, ∀ j ≤ c.size, (c.place i).addAssign ((j : Int) - i) = c.place j ∧ (c.place i).add ((j : Int) - i) = c.place j
  back : ∀ i ≤ c.size, ∀ j ≤ c.size, (c.place i).subAssign ((i : Int) - j) = c.place j ∧ (c.place i).sub ((i : Int) - j) = c.place j
  difference : ∀ i ≤ c.size, ∀ j ≤ c.size, (c.place j).difference (c.place i) = (j : Int) - i
  equal : ∀ i ≤ c.size, ∀ j ≤ c.size, (c.place i).equal (c.place j) = decide (i = j)

-- The relational operators tell what the difference tells.
structure OrderedAt (i j : Nat) : Prop where
  less : (c.place i).less (c.place j) = true ↔ 0 < (c.place j).difference (c.place i)
  lessEqual : (c.place i).lessEqual (c.place j) = true ↔ 0 ≤ (c.place j).difference (c.place i)
  greater : (c.place i).greater (c.place j) = true ↔ (c.place j).difference (c.place i) < 0
  greaterEqual : (c.place i).greaterEqual (c.place j) = true ↔ (c.place j).difference (c.place i) ≤ 0

-- The numbers of all elements, the last one first.
def reversed : List Nat := (List.range' c.first c.size).reverse

structure ReverseLaws : Prop where
  numbered : Numbered c
  ordered : ∀ i ≤ c.size, ∀ j ≤ c.size, OrderedAt c i j
  walks : ∀ steps ≥ c.size, c.walk ConstReverseIterator.less steps c.rbegin = some (reversed c)

end

section

variable {width : Nat}

-- The reverse iterator at number z, which is -1 at the rend of a container that starts at 0.
def reverseAt (width : Nat) (z : Int) : ConstReverseIterator width := { super := { index := .ofInt width z } }

theorem ofInt_pred (z : Int) : BitVec.ofInt width z - 1 = BitVec.ofInt width (z - 1) := by
  rw [BitVec.sub_eq_add_neg, Int.sub_eq_add_neg, BitVec.ofInt_add, BitVec.ofInt_neg]
  rfl

theorem ofInt_succ (z : Int) : BitVec.ofInt width z + 1 = BitVec.ofInt width (z + 1) := by
  rw [BitVec.ofInt_add]
  rfl

theorem ofInt_sub (z y : Int) : BitVec.ofInt width z - BitVec.ofInt width y = BitVec.ofInt width (z - y) := by
  rw [BitVec.sub_eq_add_neg, Int.sub_eq_add_neg, BitVec.ofInt_add, BitVec.ofInt_neg]

theorem reverse_at_inc (z : Int) : (reverseAt width z).inc = reverseAt width (z - 1) := by
  simp only [reverseAt, ConstReverseIterator.inc, ConstIterator.dec, ofInt_pred]

theorem reverse_at_dec (z : Int) : (reverseAt width z).dec = reverseAt width (z + 1) := by
  simp only [reverseAt, ConstReverseIterator.dec, ConstIterator.inc, ofInt_succ]

theorem number_to_int (wide : 32 ≤ width) {z : Int} (low : -2 ^ 31 ≤ z) (high : z < 2 ^ 31) : (BitVec.ofInt width z).toInt = z := by
  have pow : (2 : Int) ^ 31 ≤ 2 ^ (width - 1) := by exact_mod_cast Nat.pow_le_pow_right (by decide) (by omega)
  exact BitVec.toInt_ofInt_eq_self (by omega) (by omega) (by omega)

theorem number_to_nat (wide : 32 ≤ width) {z : Int} (low : 0 ≤ z) (high : z < 2 ^ 31) : (BitVec.ofInt width z).toNat = z.toNat := by
  have pow : 2 ^ 31 < 2 ^ width := Nat.pow_lt_pow_right (by decide) (by omega)
  have pow : (2 : Int) ^ 31 < ((2 ^ width : Nat) : Int) := by exact_mod_cast pow
  rw [BitVec.toNat_ofInt, Int.emod_eq_of_lt low (by omega)]

theorem wrapped_to_nat : (BitVec.ofInt width (-1)).toNat = 2 ^ width - 1 := by
  have ones : BitVec.ofInt width (-1) = BitVec.allOnes width := by
    rw [BitVec.ofInt_neg]
    exact BitVec.neg_one_eq_allOnes
  rw [ones, BitVec.toNat_allOnes]

theorem reverse_at_base (z : Int) : (reverseAt width z).base = { index := .ofInt width (z + 1) } := by
  simp only [reverseAt, ConstReverseIterator.base, ConstIterator.inc, ofInt_succ]

theorem reverse_at_difference (wide : 32 ≤ width) {z y : Int} (low : -2 ^ 31 ≤ y - z) (high : y - z < 2 ^ 31) :
    (reverseAt width z).difference (reverseAt width y) = y - z := by
  simp only [reverseAt, ConstReverseIterator.difference, ConstIterator.difference, ofInt_sub]
  exact number_to_int wide low high

-- One index is less than another, as an unsigned number.
theorem number_less (wide : 32 ≤ width) {z y : Int} (zlow : -1 ≤ z) (zhigh : z < 2 ^ 31) (ylow : -1 ≤ y) (yhigh : y < 2 ^ 31) :
    BitVec.ofInt width z < BitVec.ofInt width y ↔ z ≠ -1 ∧ (y = -1 ∨ z < y) := by
  have pow : 2 ^ 31 < 2 ^ width := Nat.pow_lt_pow_right (by decide) (by omega)
  rw [BitVec.lt_def]
  obtain rfl | zin : z = -1 ∨ 0 ≤ z := by omega
  · have := (BitVec.ofInt width y).isLt
    rw [wrapped_to_nat]
    omega
  · rw [number_to_nat wide zin zhigh]
    obtain rfl | yin : y = -1 ∨ 0 ≤ y := by omega
    · rw [wrapped_to_nat]
      omega
    · rw [number_to_nat wide yin yhigh]
      omega

end

section

variable {c : Container}

theorem container_fits (c : Container) : 32 ≤ c.width ∧ c.first + c.size < 2 ^ 31 := by
  cases c with
  | rows r => exact ⟨show 32 ≤ 64 by decide, by simpa only [Container.first, Container.size, Nat.zero_add] using r.fewRows⟩
  | columns r =>
      have ordered := r.ordered
      have inside := r.inside
      have few := r.home.fewColumns
      refine ⟨Nat.le_refl _, ?_⟩
      simp only [Container.first, Container.size, Row.size]
      omega

theorem place_at (k : Nat) (inside : k ≤ c.size) : c.place k = reverseAt c.width (c.first + c.size - 1 - k) := by
  obtain ⟨wide, fits⟩ := container_fits c
  have last : c.rbegin = reverseAt c.width (c.first + c.size - 1) := by
    rw [reverseAt, ← ofInt_pred]
    rfl
  rw [Container.place, last, ConstReverseIterator.add, reverse_at_base, ConstIterator.sub, number_to_int wide (by omega) (by omega)]
  simp only [ConstReverseIterator.ofForward, ConstIterator.dec, ofInt_pred, reverseAt]
  congr 3
  omega

theorem rend_at : c.rend = reverseAt c.width (c.first - 1) := by
  rw [reverseAt, ← ofInt_pred]
  rfl

theorem reverse_numbered (c : Container) : Numbered c := by
  obtain ⟨wide, fits⟩ := container_fits c
  constructor
  case rbegin =>
    rw [place_at 0 (Nat.zero_le _), reverseAt]
    simp only [Int.natCast_zero, Int.sub_zero]
    rw [← ofInt_pred]
    rfl
  case rend =>
    rw [place_at c.size (Nat.le_refl _), rend_at]
    congr 1
    omega
  case refers =>
    intro k inside
    rw [place_at k (by omega), reverseAt, number_to_nat wide (by omega) (by omega)]
    omega
  case base =>
    intro k inside
    rw [place_at k inside, reverse_at_base, number_to_nat wide (by omega) (by omega)]
    omega
  case inc =>
    intro k inside
    have next : (c.place k).inc = c.place (k + 1) := by
      rw [place_at k (by omega), place_at (k + 1) inside, reverse_at_inc]
      congr 1
      omega
    exact ⟨next, by rw [ConstReverseIterator.postInc, next]⟩
  case dec =>
    intro k inside
    have next : (c.place (k + 1)).dec = c.place k := by
      rw [place_at k (by omega), place_at (k + 1) inside, reverse_at_dec]
      congr 1
      omega
    exact ⟨next, by rw [ConstReverseIterator.postDec, next]⟩
  case forth =>
    intro i iIn j jIn
    rw [place_at i iIn, place_at j jIn, ConstReverseIterator.add, reverse_at_base]
    simp only [ConstReverseIterator.addAssign, ConstReverseIterator.ofForward, ConstIterator.subAssign, ConstIterator.sub,
      ConstIterator.dec, reverseAt]
    rw [number_to_int wide (by omega) (by omega), number_to_int wide (by omega) (by omega), ofInt_pred]
    constructor
    · congr 3
      omega
    · congr 3
      omega
  case back =>
    intro i iIn j jIn
    rw [place_at i iIn, place_at j jIn, ConstReverseIterator.sub, reverse_at_base]
    simp only [ConstReverseIterator.subAssign, ConstReverseIterator.ofForward, ConstIterator.addAssign, ConstIterator.add,
      ConstIterator.dec, reverseAt]
    rw [number_to_int wide (by omega) (by omega), number_to_int wide (by omega) (by omega), ofInt_pred]
    constructor
    · congr 3
      omega
    · congr 3
      omega
  case difference =>
    intro i iIn j jIn
    rw [place_at i iIn, place_at j jIn, reverse_at_difference wide (by omega) (by omega)]
    omega
  case equal =>
    intro i iIn j jIn
    rw [place_at i iIn, place_at j jIn, ConstReverseIterator.equal]
    congr 1
    apply propext
    constructor
    · intro same
      have same := congrArg (fun s : ConstIterator c.width => s.index.toInt) same
      simp only [reverseAt] at same
      rw [number_to_int wide (by omega) (by omega), number_to_int wide (by omega) (by omega)] at same
      omega
    · rintro rfl
      rfl

-- Forward, the iterator at the greater number is the greater one, but the rend of a
-- container that starts at 0 counts as the greatest.
theorem place_less (i j : Nat) (iIn : i ≤ c.size) (jIn : j ≤ c.size) :
    (c.place i).super.index < (c.place j).super.index ↔ ¬ (c.first = 0 ∧ i = c.size) ∧ (j < i ∨ c.first = 0 ∧ j = c.size) := by
  obtain ⟨wide, fits⟩ := container_fits c
  rw [place_at i iIn, place_at j jIn, reverseAt, reverseAt,
    number_less wide (by omega) (by omega) (by omega) (by omega)]
  omega

theorem ordered_at (i j : Nat) (iIn : i ≤ c.size) (jIn : j ≤ c.size) :
    OrderedAt c i j ↔ (c.first = 0 → (i = c.size ↔ j = c.size)) := by
  have less := place_less i j iIn jIn
  have more := place_less j i jIn iIn
  have apart := (reverse_numbered c).difference i iIn j jIn
  constructor
  · rintro ⟨lt, -, gt, -⟩ start
    simp only [ConstReverseIterator.less, ConstReverseIterator.greater, ConstIterator.greater, ConstIterator.less, decide_eq_true_eq,
      gt_iff_lt, less, more, apart] at lt gt
    omega
  · intro both
    constructor
    all_goals
      simp only [ConstReverseIterator.less, ConstReverseIterator.greater, ConstReverseIterator.lessEqual,
        ConstReverseIterator.greaterEqual, ConstIterator.greater, ConstIterator.less, ConstIterator.lessEqual,
        ConstIterator.greaterEqual, decide_eq_true_eq, gt_iff_lt, ge_iff_le, ← BitVec.not_lt, less, more, apart]
      omega

-- A loop whose condition is right at each place down to the rend gives all elements that are left.
theorem walk_from {more : ConstReverseIterator c.width → ConstReverseIterator c.width → Bool}
    (right : ∀ k ≤ c.size, more (c.place k) c.rend = decide (k < c.size)) (left : Nat) (inside : left ≤ c.size) (steps : Nat)
    (enough : left ≤ steps) :
    c.walk more steps (c.place (c.size - left)) = some (List.range' c.first left).reverse := by
  induction left generalizing steps with
  | zero =>
      have ended : more (c.place (c.size - 0)) c.rend = false := by
        rw [right (c.size - 0) (by omega)]
        exact decide_eq_false (by omega)
      cases steps with
      | zero => rw [Container.walk, ended]; rfl
      | succ steps => rw [Container.walk, ended]; rfl
  | succ left ih =>
      obtain ⟨steps, rfl⟩ : ∃ n, steps = n + 1 := ⟨steps - 1, by omega⟩
      have going : more (c.place (c.size - (left + 1))) c.rend = true := by
        rw [right _ (by omega)]
        exact decide_eq_true (by omega)
      have next := ((reverse_numbered c).inc (c.size - (left + 1)) (by omega)).2
      have refers := (reverse_numbered c).refers (c.size - (left + 1)) (by omega)
      have step : c.size - (left + 1) + 1 = c.size - left := by omega
      have element : c.size - 1 - (c.size - (left + 1)) = left := by omega
      rw [Container.walk, if_pos going, next, refers, step, element, ih (by omega) steps (by omega), List.range'_concat]
      simp only [Nat.one_mul, List.reverse_append, List.reverse_singleton, List.singleton_append, Option.map_some]

theorem walk_all {more : ConstReverseIterator c.width → ConstReverseIterator c.width → Bool}
    (right : ∀ k ≤ c.size, more (c.place k) c.rend = decide (k < c.size)) (steps : Nat) (enough : c.size ≤ steps) :
    c.walk more steps c.rbegin = some (reversed c) := by
  have := walk_from right c.size (Nat.le_refl _) steps enough
  rw [Nat.sub_self, (reverse_numbered c).rbegin] at this
  exact this

end

-- A reverse iterator is right about its place everywhere, but with a rend that has wrapped
-- around in a container that starts at 0 it is compared the wrong way.
theorem reverse_iterator_laws (c : Container) :
    (ReverseLaws c ↔ c.first ≠ 0 ∨ c.size = 0) ∧
      Numbered c ∧
      (∀ i ≤ c.size, ∀ j ≤ c.size, OrderedAt c i j ↔ (c.first = 0 → (i = c.size ↔ j = c.size))) ∧
      ((∀ steps ≥ c.size, c.walk ConstReverseIterator.less steps c.rbegin = some (reversed c)) ↔ c.first ≠ 0 ∨ c.size = 0) ∧
      ∀ steps ≥ c.size, c.walk (fun i j => !i.equal j) steps c.rbegin = some (reversed c) := by
  have numbers := reverse_numbered c
  have unequal : ∀ k ≤ c.size, (!(c.place k).equal c.rend) = decide (k < c.size) := by
    intro k inside
    rw [← numbers.rend, numbers.equal k inside c.size (Nat.le_refl _), ← decide_not]
    exact decide_eq_decide.mpr (by omega)
  have walks : (∀ steps ≥ c.size, c.walk ConstReverseIterator.less steps c.rbegin = some (reversed c)) ↔ c.first ≠ 0 ∨ c.size = 0 := by
    constructor
    · intro all
      refine Decidable.byContradiction fun wrong => ?_
      have stops : (c.place 0).less (c.place c.size) = false := by
        rw [ConstReverseIterator.less, ConstIterator.greater]
        refine decide_eq_false ?_
        rw [gt_iff_lt, place_less c.size 0 (Nat.le_refl _) (Nat.zero_le _)]
        omega
      rw [numbers.rbegin, numbers.rend] at stops
      have nothing := all c.size (Nat.le_refl _)
      obtain ⟨n, some_⟩ : ∃ n, c.size = n + 1 := ⟨c.size - 1, by omega⟩
      rw [some_, Container.walk, stops, if_neg Bool.false_ne_true] at nothing
      have length : 0 = c.size := by
        simpa only [reversed, List.length_nil, List.length_reverse, List.length_range'] using
          congrArg List.length (Option.some.inj nothing)
      omega
    · intro fine
      refine walk_all fun k inside => ?_
      rw [← numbers.rend, ConstReverseIterator.less, ConstIterator.greater]
      refine decide_eq_decide.mpr ?_
      rw [gt_iff_lt, place_less c.size k (Nat.le_refl _) inside]
      omega
  refine ⟨⟨fun laws => walks.mp laws.walks, fun fine => ⟨numbers, fun i iIn j jIn => ?_, walks.mpr fine⟩⟩, numbers,
    fun i iIn j jIn => ordered_at i j iIn jIn, walks, walk_all unequal⟩
  exact (ordered_at i j iIn jIn).mpr (by omega)

-- A result of one row, and its row of one column in full.
theorem reverse_iterator_laws_broken :
    let d : ResultData := { columns := [⟨"a", 23, 0, by decide⟩], size := 1, fewColumns := by decide, fewRows := by decide }
    ¬ ReverseLaws (.rows d) ∧ ¬ ReverseLaws (.columns (.full d 0)) := by
  refine ⟨fun laws => ?_, fun laws => ?_⟩
  · exact absurd (laws.walks 1 (by decide)) (by decide)
  · exact absurd (laws.walks 1 (by decide)) (by decide)

end Pqxx
