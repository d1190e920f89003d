import Mathlib.Algebra.Group.Int.Defs
import Mathlib.Algebra.Group.Nat.Defs
import Mathlib.Data.List.Induction
import Mathlib.Data.List.TakeWhile
import Pqxx.Except
import Pqxx.Lib.Prog

set_option autoImplicit false

namespace Pqxx

open Lib

-- The integer types string_traits is specialised for. The narrowest of them has 16 bits.
structure IntType where
  isSigned : Bool
  width : Nat
  wide : 16 ≤ width

namespace IntType

def min (T : IntType) : Int := if T.isSigned then -(2 ^ (T.width - 1)) else 0

def max (T : IntType) : Int := if T.isSigned then 2 ^ (T.width - 1) - 1 else 2 ^ T.width - 1

def holds (T : IntType) (n : Int) : Prop := T.min ≤ n ∧ n ≤ T.max

instance (T : IntType) (n : Int) : Decidable (T.holds n) := inferInstanceAs (Decidable (_ ∧ _))

-- The value of the type that n becomes when it is converted, or when it is the result of
-- an operation that goes out of range.
def cast (T : IntType) (n : Int) : Int := T.min + (n - T.min) % 2 ^ T.width

theorem limits (T : IntType) : ∃ half : Int, 32768 ≤ half ∧ (2 : Int) ^ T.width = 2 * half ∧
    (T.isSigned = true ∧ T.min = -half ∧ T.max = half - 1 ∨ T.isSigned = false ∧ T.min = 0 ∧ T.max = 2 * half - 1) := by
  have wide := T.wide
  have split : (2 : Int) ^ T.width = 2 * 2 ^ (T.width - 1) := by
    rw [← Int.pow_succ', Nat.sub_add_cancel (by omega)]
  refine ⟨2 ^ (T.width - 1), ?_, split, ?_⟩
  · have grows : 32768 ≤ (2 : Nat) ^ (T.width - 1) :=
      calc 32768 = 2 ^ 15 := rfl
        _ ≤ 2 ^ (T.width - 1) := Nat.pow_le_pow_right (by decide) (by omega)
    exact Int.ofNat_le.mpr grows
  · cases signed : T.isSigned with
    | true => simp [min, max, signed]
    | false => simp [min, max, signed, split]

theorem cast_range (T : IntType) (n : Int) : T.holds (T.cast n) := by
  obtain ⟨half, large, card, limits⟩ := T.limits
  have low := Int.emod_nonneg (n - T.min) (show (2 : Int) ^ T.width ≠ 0 by omega)
  have high := Int.emod_lt_of_pos (n - T.min) (show (0 : Int) < 2 ^ T.width by omega)
  simp only [holds, cast]
  omega

theorem cast_same (T : IntType) (n : Int) (inRange : T.holds n) : T.cast n = n := by
  obtain ⟨half, large, card, limits⟩ := T.limits
  obtain ⟨low, high⟩ := inRange
  have small : (n - T.min) % 2 ^ T.width = n - T.min := Int.emod_eq_of_lt (by omega) (by omega)
  simp only [cast, small]
  omega

end IntType

-- What a null-terminated ASCII string has before its null.
structure CString where
  chars : List Char
  ascii : ∀ c ∈ chars, 0 < c.toNat ∧ c.toNat < 128

namespace StrConv

section

variable (T : IntType)

def digitToNumber (c : Char) : Int := (c.toNat : Int) - 48

def reportOverflow {α : Type} : Except Exn α :=
  .error { kind := .failure, what := "Could not convert string to integer: value out of range." }

def checkBeforeAddingDigit (n : Int) : Except Exn Unit :=
  if T.isSigned then
    if n < 0 ∧ Int.tdiv T.min 10 > n then reportOverflow else pure ()
  else pure ()

def safeMultiplyByTen (n : Int) : Except Exn Int :=
  if n > 0 ∧ Int.tdiv T.max n < 10 then reportOverflow
  else do
    checkBeforeAddingDigit T n
    pure (T.cast (n * 10))

def absorbDigit (value digit : Int) : Except Exn Int := do
  let product ← safeMultiplyByTen T value
  pure (T.cast (product + T.cast digit))

-- The loop over digits, and what of the string it leaves.
def absorbDigits (negative : Bool) : Int → List Char → Except Exn (Int × List Char)
  | result, [] => pure (result, [])
  | result, c :: str =>
      if c.isDigit then do
        let result ← absorbDigit T result (if negative then -digitToNumber c else digitToNumber c)
        absorbDigits negative result str
      else pure (result, c :: str)

-- The state is the target's.
def store (str : List Char) (parsed : Int × List Char) : Prog Int Exn Unit :=
  if parsed.2 = [] then Prog.modify fun _ => parsed.1
  else throw { kind := .failure, what := "Unexpected text after integer: '" ++ String.ofList str ++ "'" }

def fromStringSigned (str : List Char) : Prog Int Exn Unit :=
  match str with
  | c :: rest =>
      if c.isDigit then do
        let parsed ← Prog.lift (absorbDigits T false 0 (c :: rest))
        store str parsed
      else if c ≠ '-' then throw { kind := .failure, what := "Could not convert string to integer: '" ++ String.ofList str ++ "'" }
      else do
        let parsed ← Prog.lift (absorbDigits T true 0 rest)
        store str parsed
  | [] => throw { kind := .failure, what := "Could not convert string to integer: '" ++ String.ofList str ++ "'" }

def fromStringUnsigned (str : List Char) : Prog Int Exn Unit :=
  match str with
  | c :: rest =>
      if c.isDigit then do
        let parsed ← Prog.lift (absorbDigits T false 0 (c :: rest))
        store str parsed
      else throw { kind := .failure, what := "Could not convert string to unsigned integer: '" ++ String.ofList str ++ "'" }
  | [] => throw { kind := .failure, what := "Could not convert string to unsigned integer: '" ++ String.ofList str ++ "'" }

-- string_traits<T>::from_string.
def fromString (s : CString) : Prog Int Exn Unit :=
  if T.isSigned then fromStringSigned T s.chars else fromStringUnsigned T s.chars

end

-- What a sequence of digits stands for.
def value (negative : Bool) (digits : List Char) : Int :=
  if negative then -(Nat.ofDigitChars 10 digits 0 : Int) else Nat.ofDigitChars 10 digits 0

-- The string starts with these digits, after its sign.
def Leads (T : IntType) (str : List Char) (negative : Bool) (digits rest : List Char) : Prop :=
  (∀ c ∈ digits, c.isDigit = true) ∧
    (negative = false ∧ str = digits ++ rest ∨ negative = true ∧ T.isSigned = true ∧ str = '-' :: digits ++ rest)

-- The string is one or more digits, with at most a sign before them, for n.
def Denotes (T : IntType) (str : List Char) (n : Int) : Prop :=
  ∃ negative digits, Leads T str negative digits [] ∧ digits ≠ [] ∧ n = value negative digits

-- A conversion that is exact, or fails and leaves the target alone.
def Exact (T : IntType) (s : CString) (obj : Int) : Prop :=
  (∀ n, Denotes T s.chars n → T.holds n → fromString T s obj = (.ok (), n)) ∧
    ((¬ ∃ n, Denotes T s.chars n ∧ T.holds n) → ∃ e, e.isA .failure = true ∧ fromString T s obj = (.error e, obj))

-- No value on the way is other than that of the digits so far.
def NeverWraps (T : IntType) (str : List Char) : Prop :=
  ∀ negative digits rest result, Leads T str negative digits rest → absorbDigits T negative 0 digits = .ok (result, []) →
    result = value negative digits

-- No digit takes the value out of range unless ten times the value before it was out of
-- range already; and the string is not just a sign.
def Guarded (T : IntType) (str : List Char) : Prop :=
  (T.isSigned = true → str ≠ ['-']) ∧
    ∀ negative digits c rest, Leads T str negative (digits ++ [c]) rest → T.holds (10 * value negative digits) →
      T.holds (value negative (digits ++ [c]))

def signed (negative : Bool) (c : Char) : Int := if negative then -digitToNumber c else digitToNumber c

section

variable {T : IntType} {negative : Bool}

theorem digit_range {c : Char} (digit : c.isDigit = true) : 0 ≤ digitToNumber c ∧ digitToNumber c ≤ 9 := by
  have bounds : 48 ≤ c.toNat ∧ c.toNat ≤ 57 := by
    simp only [Char.isDigit, Bool.and_eq_true, decide_eq_true_eq, UInt32.le_iff_toNat_le] at digit
    exact digit
  simp only [digitToNumber]
  omega

theorem value_snoc (digits : List Char) (c : Char) (digit : c.isDigit = true) :
    value negative (digits ++ [c]) = 10 * value negative digits + signed negative c := by
  have range := digit_range digit
  simp only [digitToNumber] at range
  simp only [value, signed, digitToNumber, Nat.ofDigitChars_eq_foldl, List.foldl_append, List.foldl_cons, List.foldl_nil]
  have zero : '0'.toNat = 48 := rfl
  rw [zero]
  split <;> omega

-- The value of more digits, where the digits before it are done with.
theorem absorb_append (first rest : List Char) (digits : ∀ c ∈ first, c.isDigit = true) (result : Int) :
    absorbDigits T negative result (first ++ rest) =
      match absorbDigits T negative result first with
      | .ok (r, _) => absorbDigits T negative r rest
      | .error e => .error e := by
  induction first generalizing result with
  | nil => rfl
  | cons c first ih =>
      have here := digits c List.mem_cons_self
      simp only [List.cons_append, absorbDigits, if_pos here]
      cases absorbDigit T result (if negative = true then -digitToNumber c else digitToNumber c) with
      | error e => rfl
      | ok r => exact ih (fun c there => digits c (List.mem_cons_of_mem _ there)) r

theorem absorb_snoc (digits : List Char) (c : Char) (all : ∀ d ∈ digits ++ [c], d.isDigit = true) (r : Int)
    (before : absorbDigits T negative 0 digits = .ok (r, [])) :
    absorbDigits T negative 0 (digits ++ [c]) = (absorbDigit T r (signed negative c)).map fun r => (r, []) := by
  rw [absorb_append digits [c] (fun d there => all d (List.mem_append_left _ there)) 0, before]
  have here := all c (List.mem_append_right _ List.mem_cons_self)
  simp only [absorbDigits, if_pos here, signed]
  cases absorbDigit T r (if negative = true then -digitToNumber c else digitToNumber c) with
  | error e => rfl
  | ok r => rfl

theorem absorb_error (digits : List Char) (c : Char) (all : ∀ d ∈ digits ++ [c], d.isDigit = true) (e : Exn)
    (before : absorbDigits T negative 0 digits = .error e) : absorbDigits T negative 0 (digits ++ [c]) = .error e := by
  rw [absorb_append digits [c] (fun d there => all d (List.mem_append_left _ there)) 0, before]

-- The check before the multiplication is exact.
theorem multiply_spec (n : Int) (inRange : T.holds n) :
    safeMultiplyByTen T n = if T.holds (10 * n) then .ok (10 * n) else reportOverflow := by
  obtain ⟨half, large, card, limits⟩ := T.limits
  have above : (n > 0 ∧ Int.tdiv T.max n < 10) ↔ n > 0 ∧ T.max < 10 * n := by
    refine and_congr_right fun positive => ?_
    rw [Int.tdiv_eq_ediv_of_nonneg (by omega), Int.ediv_lt_iff_lt_mul positive]
  have below (isSigned : T.isSigned = true) : (n < 0 ∧ Int.tdiv T.min 10 > n) ↔ 10 * n < T.min := by
    have least : T.min = -half := by
      rcases limits with ⟨_, low, _⟩ | ⟨unsigned, _⟩
      · exact low
      · rw [isSigned] at unsigned
        cases unsigned
    rw [least, Int.neg_tdiv, Int.tdiv_eq_ediv_of_nonneg (by omega)]
    omega
  by_cases fits : T.holds (10 * n)
  · have same : T.cast (n * 10) = 10 * n := by
      rw [Int.mul_comm]
      exact T.cast_same _ fits
    have notAbove : ¬ (n > 0 ∧ Int.tdiv T.max n < 10) := by
      rw [above]
      exact fun wraps => absurd fits.2 (Int.not_le.mpr wraps.2)
    simp only [safeMultiplyByTen, if_neg notAbove, if_pos fits, checkBeforeAddingDigit]
    cases signed : T.isSigned with
    | false =>
        rw [if_neg Bool.false_ne_true, same]
        rfl
    | true =>
        have notBelow : ¬ (n < 0 ∧ Int.tdiv T.min 10 > n) := by
          rw [below signed]
          exact Int.not_lt.mpr fits.1
        rw [if_pos rfl, if_neg notBelow, same]
        rfl
  · simp only [safeMultiplyByTen, if_neg fits]
    by_cases wraps : n > 0 ∧ Int.tdiv T.max n < 10
    · rw [if_pos wraps]
    · rw [if_neg wraps]
      rw [above] at wraps
      have under : T.isSigned = true ∧ 10 * n < T.min := by
        simp only [IntType.holds] at fits inRange
        rcases limits with ⟨isSigned, _⟩ | ⟨_, low, _⟩
        · exact ⟨isSigned, by omega⟩
        · omega
      simp only [checkBeforeAddingDigit]
      rw [if_pos under.1, if_pos ((below under.1).mpr under.2)]
      rfl

theorem absorb_digit_spec (n : Int) (inRange : T.holds n) (c : Char) (digit : c.isDigit = true)
    (sign : negative = true → T.isSigned = true) :
    absorbDigit T n (signed negative c) =
      if T.holds (10 * n) then .ok (T.cast (10 * n + signed negative c)) else reportOverflow := by
  obtain ⟨half, large, card, limits⟩ := T.limits
  have range := digit_range digit
  have small : T.cast (signed negative c) = signed negative c := by
    refine T.cast_same _ ?_
    simp only [IntType.holds, signed]
    cases negative with
    | false =>
        rw [if_neg Bool.false_ne_true]
        omega
    | true =>
        have isSigned := sign rfl
        rw [if_pos rfl]
        rcases limits with ⟨_, low, high⟩ | ⟨unsigned, _⟩
        · omega
        · rw [isSigned] at unsigned
          cases unsigned
  simp only [absorbDigit, multiply_spec n inRange]
  by_cases fits : T.holds (10 * n)
  · rw [if_pos fits, if_pos fits]
    simp only [bind, Except.bind, pure, Except.pure, small]
  · rw [if_neg fits, if_neg fits]
    rfl

theorem value_sign (digits : List Char) : (negative = false → 0 ≤ value negative digits) ∧ (negative = true → value negative digits ≤ 0) := by
  refine ⟨fun positive => ?_, fun isNegative => ?_⟩
  · rw [positive, value, if_neg Bool.false_ne_true]
    omega
  · rw [isNegative, value, if_pos rfl]
    omega

theorem signed_sign (c : Char) (digit : c.isDigit = true) :
    (negative = false → 0 ≤ signed negative c) ∧ (negative = true → signed negative c ≤ 0) := by
  have range := digit_range digit
  refine ⟨fun positive => ?_, fun isNegative => ?_⟩
  · rw [positive, signed, if_neg Bool.false_ne_true]
    omega
  · rw [isNegative, signed, if_pos rfl]
    omega

-- Another digit takes the value no nearer to zero.
theorem holds_shorter (digits : List Char) (c : Char) (digit : c.isDigit = true)
    (inRange : T.holds (value negative (digits ++ [c]))) : T.holds (10 * value negative digits) := by
  obtain ⟨half, large, card, limits⟩ := T.limits
  have sign := @value_sign negative digits
  have last := @signed_sign negative c digit
  rw [value_snoc digits c digit] at inRange
  simp only [IntType.holds] at inRange ⊢
  cases negative with
  | false =>
      have one := sign.1 rfl
      have two := last.1 rfl
      omega
  | true =>
      have one := sign.2 rfl
      have two := last.2 rfl
      omega

theorem holds_tenth (n : Int) (inRange : T.holds (10 * n)) : T.holds n := by
  obtain ⟨half, large, card, limits⟩ := T.limits
  simp only [IntType.holds] at inRange ⊢
  omega

theorem holds_zero : T.holds 0 := by
  obtain ⟨half, large, card, limits⟩ := T.limits
  simp only [IntType.holds]
  omega

variable {str : List Char}

theorem leads_sign {digits rest : List Char} (leads : Leads T str negative digits rest) : negative = true → T.isSigned = true := by
  intro isNegative
  rcases leads.2 with ⟨positive, _⟩ | ⟨_, isSigned, _⟩
  · rw [positive] at isNegative
    cases isNegative
  · exact isSigned

theorem leads_shorter {digits rest : List Char} {c : Char} (leads : Leads T str negative (digits ++ [c]) rest) :
    Leads T str negative digits (c :: rest) := by
  refine ⟨fun d there => leads.1 d (List.mem_append_left _ there), ?_⟩
  rcases leads.2 with ⟨positive, same⟩ | ⟨isNegative, isSigned, same⟩
  · exact .inl ⟨positive, by rw [same, List.append_assoc]; rfl⟩
  · refine .inr ⟨isNegative, isSigned, ?_⟩
    rw [same, List.cons_append, List.cons_append, List.append_assoc]
    rfl

-- Where every addition is guarded, the digits give their value, or an overflow.
theorem absorb_guarded (guarded : Guarded T str) (digits rest : List Char) (leads : Leads T str negative digits rest) :
    absorbDigits T negative 0 digits =
      if T.holds (value negative digits) then .ok (value negative digits, []) else reportOverflow := by
  induction digits using List.reverseRecOn generalizing rest with
  | nil =>
      have zero : value negative [] = 0 := by
        simp [value]
      rw [zero, if_pos holds_zero]
      rfl
  | append_singleton digits c ih =>
      have before := ih (c :: rest) (leads_shorter leads)
      have digit := leads.1 c (List.mem_append_right _ List.mem_cons_self)
      by_cases fits : T.holds (10 * value negative digits)
      · have inRange := guarded.2 negative digits c rest leads fits
        rw [if_pos (holds_tenth _ fits)] at before
        rw [absorb_snoc digits c leads.1 _ before, absorb_digit_spec _ (holds_tenth _ fits) c digit (leads_sign leads), if_pos fits,
          ← value_snoc digits c digit, T.cast_same _ inRange, if_pos inRange]
        rfl
      · have outside : ¬ T.holds (value negative (digits ++ [c])) := fun inRange => fits (holds_shorter digits c digit inRange)
        rw [if_neg outside]
        by_cases near : T.holds (value negative digits)
        · rw [if_pos near] at before
          rw [absorb_snoc digits c leads.1 _ before, absorb_digit_spec _ near c digit (leads_sign leads), if_neg fits]
          rfl
        · rw [if_neg near] at before
          exact absorb_error digits c leads.1 _ before

-- Where no value wraps, digits whose value can be multiplied by ten are read in full.
theorem absorb_unwrapped (never : NeverWraps T str) (digits rest : List Char) (leads : Leads T str negative digits rest)
    (fits : T.holds (10 * value negative digits)) : absorbDigits T negative 0 digits = .ok (value negative digits, []) := by
  induction digits using List.reverseRecOn generalizing rest with
  | nil =>
      have zero : value negative [] = 0 := by
        simp [value]
      rw [zero]
      rfl
  | append_singleton digits c ih =>
      have digit := leads.1 c (List.mem_append_right _ List.mem_cons_self)
      have fewer := holds_shorter digits c digit (holds_tenth _ fits)
      have before := ih (c :: rest) (leads_shorter leads) fewer
      have next := absorb_snoc digits c leads.1 _ before
      rw [absorb_digit_spec _ (holds_tenth _ fewer) c digit (leads_sign leads), if_pos fewer] at next
      have same := never negative _ rest _ leads next
      rw [next, same]
      rfl

-- A sum that stays in the type's range is exact.
theorem guarded_of_never (never : NeverWraps T str) (negative : Bool) (digits : List Char) (c : Char) (rest : List Char)
    (leads : Leads T str negative (digits ++ [c]) rest) (fits : T.holds (10 * value negative digits)) :
    T.holds (value negative (digits ++ [c])) := by
  have digit := leads.1 c (List.mem_append_right _ List.mem_cons_self)
  have before := absorb_unwrapped never digits (c :: rest) (leads_shorter leads) fits
  have next := absorb_snoc digits c leads.1 _ before
  rw [absorb_digit_spec _ (holds_tenth _ fits) c digit (leads_sign leads), if_pos fits] at next
  rw [← never negative _ rest _ leads next]
  exact T.cast_range _

theorem absorb_stops (digits rest : List Char) (all : ∀ c ∈ digits, c.isDigit = true) (stops : ∀ c ∈ rest.head?, c.isDigit = false)
    (result : Int) :
    absorbDigits T negative result (digits ++ rest) = (absorbDigits T negative result digits).map fun parsed => (parsed.1, rest) := by
  rw [absorb_append digits rest all result]
  cases absorbDigits T negative result digits with
  | error e => rfl
  | ok parsed =>
      cases rest with
      | nil => rfl
      | cons c rest =>
          have stop : ¬ c.isDigit = true := by
            rw [stops c rfl]
            exact Bool.false_ne_true
          simp only [absorbDigits, if_neg stop]
          rfl

-- A string that starts as an integer does, up to where it no longer is one.
theorem from_string_leads (s : CString) (obj : Int) (digits rest : List Char) (leads : Leads T s.chars negative digits rest)
    (stops : ∀ c ∈ rest.head?, c.isDigit = false) (some_ : negative = false → digits ≠ []) :
    fromString T s obj = match absorbDigits T negative 0 digits with
      | .ok parsed => store s.chars (parsed.1, rest) obj
      | .error e => (.error e, obj) := by
  have parsed := @absorb_stops T negative digits rest leads.1 stops 0
  rcases leads.2 with ⟨positive, same⟩ | ⟨isNegative, isSigned, same⟩
  · cases digits with
    | nil => exact absurd rfl (some_ positive)
    | cons c digits =>
        have digit := leads.1 c List.mem_cons_self
        rw [positive] at parsed ⊢
        have whole : fromString T s obj = (do
            let parsed ← Prog.lift (absorbDigits T false 0 (c :: digits ++ rest))
            store s.chars parsed) obj := by
          simp only [fromString, fromStringSigned, fromStringUnsigned, same, List.cons_append, if_pos digit]
          split <;> rfl
        rw [whole, Prog.bind_apply, Prog.lift_apply, parsed]
        cases absorbDigits T false 0 (c :: digits) with
        | error e => rfl
        | ok parsed => rfl
  · rw [isNegative] at parsed ⊢
    have dash : ¬ '-'.isDigit = true := by decide
    have whole : fromString T s obj = (do
        let parsed ← Prog.lift (absorbDigits T true 0 (digits ++ rest))
        store s.chars parsed) obj := by
      simp only [fromString, fromStringSigned, same, List.cons_append, if_pos isSigned, if_neg dash, ne_eq, not_true_eq_false, if_false]
    rw [whole, Prog.bind_apply, Prog.lift_apply, parsed]
    cases absorbDigits T true 0 digits with
    | error e => rfl
    | ok parsed => rfl

-- Any other string is rejected at its first character.
theorem from_string_cases (s : CString) :
    (∃ negative digits rest, Leads T s.chars negative digits rest ∧ (∀ c ∈ rest.head?, c.isDigit = false) ∧
      (negative = false → digits ≠ [])) ∨
    (¬ ∃ n, Denotes T s.chars n) ∧ ∀ obj, ∃ e : Exn, e.isA .failure = true ∧ fromString T s obj = (.error e, obj) := by
  have stops (str : List Char) : ∀ c ∈ (str.dropWhile Char.isDigit).head?, c.isDigit = false := by
    intro c first
    have stop := List.head?_dropWhile_not Char.isDigit str
    rw [Option.mem_def.mp first] at stop
    exact stop
  have digits (str : List Char) : ∀ c ∈ str.takeWhile Char.isDigit, c.isDigit = true := fun _ => List.mem_takeWhile_imp
  have rejected {obj : Int} (text : String) (outcome : fromString T s obj = (.error { kind := .failure, what := text }, obj)) :
      ∃ e : Exn, e.isA .failure = true ∧ fromString T s obj = (.error e, obj) := ⟨_, rfl, outcome⟩
  cases chars : s.chars with
  | nil =>
      refine .inr ⟨?_, fun obj => ?_⟩
      · rintro ⟨_, _, _, ⟨_, ⟨_, same⟩ | ⟨_, _, same⟩⟩, nonempty, _⟩
        · rw [List.append_nil] at same
          exact nonempty same.symm
        · cases same
      · cases isSigned : T.isSigned with
        | true => exact rejected _ (by simp only [fromString, fromStringSigned, chars, isSigned, if_true]; rfl)
        | false =>
            exact rejected _ (by simp only [fromString, fromStringUnsigned, chars, isSigned, Bool.false_eq_true, if_false]; rfl)
  | cons c rest =>
      by_cases digit : c.isDigit = true
      · refine .inl ⟨false, (c :: rest).takeWhile Char.isDigit, (c :: rest).dropWhile Char.isDigit, ⟨digits _, .inl ⟨rfl, ?_⟩⟩,
          stops _, fun _ => ?_⟩
        · exact List.takeWhile_append_dropWhile.symm
        · rw [List.takeWhile_cons_of_pos digit]
          exact List.cons_ne_nil _ _
      · by_cases sign : T.isSigned = true ∧ c = '-'
        · refine .inl ⟨true, rest.takeWhile Char.isDigit, rest.dropWhile Char.isDigit, ⟨digits _, .inr ⟨rfl, sign.1, ?_⟩⟩, stops _, nofun⟩
          rw [sign.2, List.cons_append, List.takeWhile_append_dropWhile]
        · refine .inr ⟨?_, fun obj => ?_⟩
          · rintro ⟨_, _, _, ⟨all, ⟨_, same⟩ | ⟨_, isSigned, same⟩⟩, nonempty, _⟩
            · rw [List.append_nil] at same
              exact digit (all c (by rw [← same]; exact List.mem_cons_self))
            · rw [List.append_nil] at same
              injection same with same _
              exact sign ⟨isSigned, same⟩
          · cases isSigned : T.isSigned with
            | true =>
                have other : c ≠ '-' := fun same => sign ⟨isSigned, same⟩
                exact rejected _ (by
                  simp only [fromString, fromStringSigned, chars, isSigned, if_true, if_neg digit, if_pos other]
                  rfl)
            | false =>
                exact rejected _ (by
                  simp only [fromString, fromStringUnsigned, chars, isSigned, Bool.false_eq_true, if_false, if_neg digit]
                  rfl)

theorem leads_denotes {digits : List Char} (leads : Leads T str negative digits []) (nonempty : digits ≠ []) :
    Denotes T str (value negative digits) := ⟨negative, digits, leads, nonempty, rfl⟩

-- A string is read as one integer only.
theorem leads_unique {s : CString} {digits rest : List Char} {n : Int} (leads : Leads T s.chars negative digits rest)
    (stops : ∀ c ∈ rest.head?, c.isDigit = false) (some_ : negative = false → digits ≠ []) (denotes : Denotes T s.chars n) :
    rest = [] ∧ n = value negative digits := by
  obtain ⟨sign, others, ⟨all, form⟩, _, rfl⟩ := denotes
  have dash : ¬ '-'.isDigit = true := by decide
  have cut (whole : others = digits ++ rest) : rest = [] ∧ others = digits := by
    cases rest with
    | nil => exact ⟨rfl, by rw [whole, List.append_nil]⟩
    | cons c rest =>
        have digit := all c (by rw [whole]; exact List.mem_append_right _ List.mem_cons_self)
        rw [stops c rfl] at digit
        cases digit
  rcases leads.2 with ⟨positive, here⟩ | ⟨isNegative, _, here⟩
  · rcases form with ⟨positive', there⟩ | ⟨_, _, there⟩
    · rw [here, List.append_nil] at there
      obtain ⟨none_, same⟩ := cut there.symm
      exact ⟨none_, by rw [positive', positive, same]⟩
    · rw [here, List.append_nil] at there
      cases digits with
      | nil => exact absurd rfl (some_ positive)
      | cons c digits =>
          injection there with first _
          exact absurd (leads.1 c List.mem_cons_self) (by rw [first]; exact dash)
  · rcases form with ⟨_, there⟩ | ⟨isNegative', _, there⟩
    · rw [here, List.append_nil] at there
      exact absurd (all '-' (by rw [← there]; exact List.mem_cons_self)) dash
    · rw [here, List.append_nil, List.cons_append] at there
      injection there with _ there
      obtain ⟨none_, same⟩ := cut there.symm
      exact ⟨none_, by rw [isNegative', isNegative, same]⟩

end

-- Conversion is exact, and nothing wraps on the way, just where every addition is
-- guarded by the multiplication before it and the string is not only a sign.
theorem from_string_exact (T : IntType) (s : CString) (obj : Int) :
    Exact T s obj ∧ NeverWraps T s.chars ↔ Guarded T s.chars := by
  constructor
  · rintro ⟨exact_, never⟩
    refine ⟨fun isSigned alone => ?_, guarded_of_never never⟩
    have read : fromString T s obj = (.ok (), 0) := by
      have dash : ¬ '-'.isDigit = true := by decide
      simp only [fromString, fromStringSigned, alone, if_pos isSigned, if_neg dash, ne_eq, not_true_eq_false, if_false]
      rfl
    have nothing : ¬ ∃ n, Denotes T s.chars n ∧ T.holds n := by
      rintro ⟨_, ⟨_, digits, ⟨all, ⟨_, same⟩ | ⟨_, _, same⟩⟩, nonempty, _⟩, _⟩
      · rw [alone, List.append_nil] at same
        have digit := all '-' (by rw [← same]; exact List.mem_cons_self)
        exact absurd digit (by decide)
      · rw [alone, List.append_nil] at same
        injection same with _ same
        exact nonempty same.symm
    obtain ⟨_, _, failed⟩ := exact_.2 nothing
    rw [read] at failed
    cases failed
  · intro guarded
    have never : NeverWraps T s.chars := by
      intro negative digits rest result leads parsed
      rw [absorb_guarded guarded digits rest leads] at parsed
      split at parsed
      · cases parsed
        rfl
      · cases parsed
    refine ⟨?_, never⟩
    have rejected (text : String) (outcome : fromString T s obj = (.error { kind := .failure, what := text }, obj)) :
        ∃ e : Exn, e.isA .failure = true ∧ fromString T s obj = (.error e, obj) := ⟨_, rfl, outcome⟩
    rcases @from_string_cases T s with ⟨negative, digits, rest, leads, stops, some_⟩ | ⟨other, refused⟩
    · have outcome := from_string_leads s obj digits rest leads stops some_
      rw [absorb_guarded guarded digits rest leads] at outcome
      refine ⟨fun n denotes inRange => ?_, fun nothing => ?_⟩
      · obtain ⟨none_, same⟩ := leads_unique leads stops some_ denotes
        rw [← same, if_pos inRange] at outcome
        rw [outcome, none_]
        rfl
      · by_cases inRange : T.holds (value negative digits)
        · rw [if_pos inRange] at outcome
          have more : rest ≠ [] := by
            rintro rfl
            by_cases nonempty : digits = []
            · rw [nonempty] at leads some_
              rcases leads.2 with ⟨positive, _⟩ | ⟨_, isSigned, same⟩
              · exact some_ positive rfl
              · exact guarded.1 isSigned same
            · exact nothing ⟨_, leads_denotes leads nonempty, inRange⟩
          have refused : store s.chars (value negative digits, rest) obj =
              (.error { kind := .failure, what := "Unexpected text after integer: '" ++ String.ofList s.chars ++ "'" }, obj) := by
            simp only [store, if_neg more]
            rfl
          exact rejected _ (outcome.trans refused)
        · rw [if_neg inRange] at outcome
          exact rejected _ outcome
    · exact ⟨fun n denotes _ => absurd ⟨n, denotes⟩ other, fun _ => refused obj⟩

theorem past_unsigned_ascii : ∀ c ∈ "4294967296".toList, 0 < c.toNat ∧ c.toNat < 128 := by simp

-- The 32-bit unsigned type takes the first number past its range for zero.
theorem from_string_exact_fails :
    let T : IntType := { isSigned := false, width := 32, wide := by decide }
    let s : CString := { chars := "4294967296".toList, ascii := past_unsigned_ascii }
    fromString T s 7 = (.ok (), 0) ∧ ¬ Exact T s 7 := by
  intro T s
  have read : fromString T s 7 = (.ok (), 0) := by decide +kernel
  refine ⟨read, fun exact_ => ?_⟩
  have nothing : ¬ ∃ n, Denotes T s.chars n ∧ T.holds n := by
    rintro ⟨n, denotes, inRange⟩
    have whole : Leads T s.chars false "4294967296".toList [] := ⟨by simp, .inl ⟨rfl, rfl⟩⟩
    obtain ⟨_, same⟩ := leads_unique whole nofun (fun _ => by decide) denotes
    rw [same] at inRange
    exact absurd inRange (by decide +kernel)
  obtain ⟨_, _, failed⟩ := exact_.2 nothing
  rw [read] at failed
  cases failed

end StrConv

end Pqxx
