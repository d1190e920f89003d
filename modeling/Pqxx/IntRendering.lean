import Mathlib.Data.Nat.Init
import Pqxx.StrConv

set_option autoImplicit false

namespace Pqxx

open Lib

namespace StrConv

-- The canonical decimal numeral of an integer, as a stringstream prints it too.
def decimal (n : Int) : List Char := if n < 0 then '-' :: Nat.toDigits 10 n.natAbs else Nat.toDigits 10 n.natAbs

def numberToDigit (i : Int) : Char := Char.ofNat (48 + i.toNat)

-- The loop that writes digits in front of p, which has this many characters of the buffer
-- before it. There is no outcome where it would leave the buffer.
def writeDigits : Nat → Int → List Char → Option (List Char)
  | 0, obj, text => if obj > 0 then none else some text
  | before + 1, obj, text => if obj > 0 then writeDigits before (obj.tdiv 10) (numberToDigit (obj.tmod 10) :: text) else some text

-- The number is of a type of so many bytes. The null character takes the last place of
-- the buffer.
def toStringUnsigned (size : Nat) (obj : Int) : Option (List Char) :=
  if obj = 0 then some ['0']
  else
    let buf := 4 * size + 1
    writeDigits (buf - 1) obj []

def toStringFallback (obj : Int) : List Char := decimal obj

-- The type that a negated number has: what is narrower than int is promoted to it.
def promoted (int T : IntType) : IntType := if T.width < int.width then int else T

def toStringSigned (int T : IntType) (obj : Int) : Option (List Char) :=
  if obj < 0 then
    if obj ≠ T.min then (toStringUnsigned ((promoted int T).width / 8) ((promoted int T).cast (-obj))).map fun text => '-' :: text
    else some (toStringFallback obj)
  else toStringUnsigned (T.width / 8) obj

-- string_traits<T>::to_string, on a platform with this int.
def toString (int T : IntType) (obj : Int) : Option (List Char) :=
  if T.isSigned then toStringSigned int T obj else toStringUnsigned (T.width / 8) obj

theorem number_to_digit (d : Nat) (small : d < 10) : numberToDigit d = Nat.digitChar d := by
  have each : ∀ k : Fin 10, numberToDigit (k.val : Int) = Nat.digitChar k.val := by decide
  exact each ⟨d, small⟩

theorem write_digits (before n : Nat) (text : List Char) (some_ : 0 < n) (fits : n < 10 ^ before) :
    writeDigits before n text = some (Nat.toDigits 10 n ++ text) := by
  induction before generalizing n text with
  | zero =>
      rw [Nat.pow_zero] at fits
      omega
  | succ before ih =>
      have positive : (n : Int) > 0 := by omega
      have last : (n : Int).tmod 10 = (n % 10 : Nat) := by rw [Int.tmod_eq_emod_of_nonneg (by omega)]; rfl
      have others : (n : Int).tdiv 10 = (n / 10 : Nat) := by rw [Int.tdiv_eq_ediv_of_nonneg (by omega)]; rfl
      rw [writeDigits, if_pos positive, last, others, number_to_digit _ (Nat.mod_lt n (by decide))]
      by_cases one : n < 10
      · have done : n / 10 = 0 := by omega
        have digit : n % 10 = n := by omega
        rw [done, digit, Nat.toDigits_of_lt_base one]
        cases before with
        | zero => rfl
        | succ before => rfl
      · have shorter : n / 10 < 10 ^ before := by
          rw [Nat.pow_succ] at fits
          omega
        rw [ih (n / 10) _ (by omega) shorter, Nat.toDigits_of_base_le (by decide) (Nat.not_lt.mp one), List.append_assoc]
        rfl

-- Four decimal digits hold what one byte does, and more; from two bytes on they make up
-- for the bits behind the last whole byte, too.
theorem buffer_suffices (width n : Nat) (wide : 16 ≤ width) (fits : n < 2 ^ width) : n < 10 ^ (4 * (width / 8)) := by
  have more : ∀ bytes, 2 ≤ bytes → 2 ^ (8 * bytes + 7) ≤ 10 ^ (4 * bytes) := by
    intro bytes two
    induction bytes, two using Nat.le_induction with
    | base => decide
    | succ bytes two ih =>
        have left : 2 ^ (8 * (bytes + 1) + 7) = 256 * 2 ^ (8 * bytes + 7) := by
          rw [show 8 * (bytes + 1) + 7 = 8 + (8 * bytes + 7) by omega, Nat.pow_add]
        have right : 10 ^ (4 * (bytes + 1)) = 10000 * 10 ^ (4 * bytes) := by
          rw [show 4 * (bytes + 1) = 4 + 4 * bytes by omega, Nat.pow_add]
        omega
  have bytes := more (width / 8) (by omega)
  have whole : 2 ^ width ≤ 2 ^ (8 * (width / 8) + 7) := Nat.pow_le_pow_right (by decide) (by omega)
  omega

theorem to_string_unsigned (width n : Nat) (wide : 16 ≤ width) (fits : n < 2 ^ width) :
    toStringUnsigned (width / 8) n = some (Nat.toDigits 10 n) := by
  by_cases zero : n = 0
  · subst zero
    rfl
  · have nonzero : ¬ (n : Int) = 0 := by omega
    rw [toStringUnsigned, if_neg nonzero]
    have written := write_digits (4 * (width / 8)) n [] (by omega) (buffer_suffices width n wide fits)
    rw [List.append_nil] at written
    exact written

section

variable (int T : IntType) {v : Int}

theorem promoted_holds (inRange : T.holds v) (negative : v < 0) (negatable : v ≠ T.min) :
    (promoted int T).holds (-v) ∧ (promoted int T).cast (-v) = -v := by
  have holds : (promoted int T).holds (-v) := by
    obtain ⟨half, large, card, limits⟩ := T.limits
    simp only [IntType.holds] at inRange
    unfold promoted
    split
    · rename_i wider
      obtain ⟨half', large', card', limits'⟩ := int.limits
      have doubled : (2 : Int) * 2 ^ T.width ≤ 2 ^ int.width := by
        rw [← Int.pow_succ']
        exact_mod_cast Nat.pow_le_pow_right (show 0 < 2 by decide) wider
      simp only [IntType.holds]
      omega
    · simp only [IntType.holds]
      omega
  exact ⟨holds, (promoted int T).cast_same _ holds⟩

theorem holds_fits (inRange : T.holds v) (nonnegative : 0 ≤ v) : v.toNat < 2 ^ T.width := by
  obtain ⟨half, large, card, limits⟩ := T.limits
  simp only [IntType.holds] at inRange
  have less : v < 2 ^ T.width := by omega
  have same : (v.toNat : Int) = v := Int.toNat_of_nonneg nonnegative
  rw [← same] at less
  exact_mod_cast less

theorem to_string_decimal (inRange : T.holds v) : toString int T v = some (decimal v) := by
  have plain (nonnegative : 0 ≤ v) : toStringUnsigned (T.width / 8) v = some (decimal v) := by
    have same : (v.toNat : Int) = v := Int.toNat_of_nonneg nonnegative
    have written := to_string_unsigned T.width v.toNat T.wide (holds_fits T inRange nonnegative)
    rw [same] at written
    rw [written, decimal, if_neg (by omega), show v.natAbs = v.toNat by omega]
  cases signed : T.isSigned with
  | false =>
      obtain ⟨half, large, card, limits⟩ := T.limits
      simp only [IntType.holds] at inRange
      have nonnegative : 0 ≤ v := by
        rcases limits with ⟨isSigned, _⟩ | ⟨_, low, _⟩
        · rw [isSigned] at signed
          cases signed
        · omega
      rw [toString, if_neg (by rw [signed]; exact Bool.false_ne_true)]
      exact plain nonnegative
  | true =>
      rw [toString, if_pos signed, toStringSigned]
      by_cases negative : v < 0
      · rw [if_pos negative]
        by_cases negatable : v ≠ T.min
        · obtain ⟨holds, same⟩ := promoted_holds int T inRange negative negatable
          have written := to_string_unsigned (promoted int T).width (-v).toNat (promoted int T).wide
            (holds_fits (promoted int T) holds (by omega))
          rw [Int.toNat_of_nonneg (by omega)] at written
          rw [if_pos negatable, same, written, decimal, if_pos negative, show v.natAbs = (-v).toNat by omega]
          rfl
        · rw [if_neg negatable]
          rfl
      · rw [if_neg negative]
        exact plain (Int.not_lt.mp negative)

end

theorem decimal_ascii (n : Int) : ∀ c ∈ decimal n, 0 < c.toNat ∧ c.toNat < 128 := by
  have digits : ∀ c ∈ Nat.toDigits 10 n.natAbs, 0 < c.toNat ∧ c.toNat < 128 := by
    intro c there
    have range := digit_range (Nat.isDigit_of_mem_toDigits (by decide) (by decide) there)
    simp only [digitToNumber] at range
    omega
  intro c there
  unfold decimal at there
  split at there
  · rcases List.mem_cons.mp there with rfl | there
    · decide
    · exact digits c there
  · exact digits c there

def decimalString (n : Int) : CString := { chars := decimal n, ascii := decimal_ascii n }

-- Digits whose value is in range are read one by one, each value on the way being nearer
-- to zero.
theorem absorb_in_range {T : IntType} {negative : Bool} (digits : List Char) (all : ∀ c ∈ digits, c.isDigit = true)
    (sign : negative = true → T.isSigned = true) (inRange : T.holds (value negative digits)) :
    absorbDigits T negative 0 digits = .ok (value negative digits, []) := by
  induction digits using List.reverseRecOn with
  | nil =>
      have zero : value negative [] = 0 := by
        simp only [value, Nat.ofDigitChars_nil]
        split <;> rfl
      rw [zero]
      rfl
  | append_singleton digits c ih =>
      have digit := all c (List.mem_append_right _ List.mem_cons_self)
      have fits := holds_shorter digits c digit inRange
      have before := ih (fun d there => all d (List.mem_append_left _ there)) (holds_tenth _ fits)
      rw [absorb_snoc digits c all _ before, absorb_digit_spec _ (holds_tenth _ fits) c digit sign, if_pos fits,
        ← value_snoc digits c digit, T.cast_same _ inRange]
      rfl

theorem to_digits_some (n : Nat) : Nat.toDigits 10 n ≠ [] := by
  rw [Nat.toDigits_eq_if (by decide)]
  split
  · exact nofun
  · exact List.append_ne_nil_of_right_ne_nil _ nofun

theorem decimal_leads (T : IntType) {v : Int} (inRange : T.holds v) :
    Leads T (decimalString v).chars (decide (v < 0)) (Nat.toDigits 10 v.natAbs) [] ∧
      value (decide (v < 0)) (Nat.toDigits 10 v.natAbs) = v := by
  have digits : ∀ c ∈ Nat.toDigits 10 v.natAbs, c.isDigit = true := fun c there =>
    Nat.isDigit_of_mem_toDigits (by decide) (by decide) there
  by_cases negative : v < 0
  · have isSigned : T.isSigned = true := by
      obtain ⟨half, large, card, limits⟩ := T.limits
      simp only [IntType.holds] at inRange
      rcases limits with ⟨isSigned, _⟩ | ⟨_, low, _⟩
      · exact isSigned
      · omega
    rw [decide_eq_true negative]
    refine ⟨⟨digits, .inr ⟨rfl, isSigned, ?_⟩⟩, ?_⟩
    · rw [List.append_nil]
      exact if_pos negative
    · rw [value, if_pos rfl, Nat.ofDigitChars_ten_toDigits]
      omega
  · rw [decide_eq_false negative]
    refine ⟨⟨digits, .inl ⟨rfl, ?_⟩⟩, ?_⟩
    · rw [List.append_nil]
      exact if_neg negative
    · rw [value, if_neg Bool.false_ne_true, Nat.ofDigitChars_ten_toDigits]
      omega

theorem from_decimal (T : IntType) {v : Int} (inRange : T.holds v) (obj : Int) :
    fromString T (decimalString v) obj = (.ok (), v) := by
  obtain ⟨leads, same⟩ := decimal_leads T inRange
  have read := absorb_in_range (T := T) _ leads.1 (leads_sign leads) (by rw [same]; exact inRange)
  rw [from_string_leads _ obj _ [] leads nofun (fun _ => to_digits_some _), read, same]
  rfl

-- The text is all that to_string() writes, and from_string() has the number from it.
theorem int_round_trip (int T : IntType) (v : Int) (inRange : T.holds v) (obj : Int) :
    toString int T v = some (decimalString v).chars ∧ fromString T (decimalString v) obj = (.ok (), v) :=
  ⟨to_string_decimal int T inRange, from_decimal T inRange obj⟩

-- The smallest short, which cannot be negated in its own type.
theorem int_round_trip_smallest :
    let int : IntType := { isSigned := true, width := 32, wide := by decide }
    let T : IntType := { isSigned := true, width := 16, wide := by decide }
    toString int T (-32768) = some (decimalString (-32768)).chars ∧ fromString T (decimalString (-32768)) 7 = (.ok (), -32768) :=
  int_round_trip { isSigned := true, width := 32, wide := by decide } { isSigned := true, width := 16, wide := by decide } (-32768)
    (by decide) 7

end StrConv

end Pqxx
