import Mathlib.Data.List.TakeWhile
import Pqxx.CopyFraming
import Pqxx.CopyText
import Pqxx.Lib.Delimited

set_option autoImplicit false

namespace Pqxx

open Lib Lib.Delimited

-- The digits that a numeric escape goes on with, at most as many as it may have.
def escapeDigits (isDigit : UInt8 → Bool) (most : Nat) (text : Bytes) : Bytes := (text.take most).takeWhile isDigit

def hexValue (c : UInt8) : Option UInt8 :=
  if 48 ≤ c ∧ c ≤ 57 then some (c - 48)
  else if 97 ≤ c ∧ c ≤ 102 then some (c - 87)
  else if 65 ≤ c ∧ c ≤ 70 then some (c - 55)
  else none

def escapeNumber (base : UInt8) (digits : Bytes) : UInt8 := digits.foldl (fun value d => value * base + (hexValue d).getD 0) 0

-- The text of a field, as the backend takes it from the data of a COPY FROM STDIN.
def loadText : Bytes → Bytes
  | [] => []
  | c :: rest =>
      if c = backslash then
        match rest with
        | [] => []
        | n :: rest =>
            if isOctalchar n = true then
              let digits := escapeDigits isOctalchar 3 (n :: rest)
              escapeNumber 8 digits :: loadText ((n :: rest).drop digits.length)
            else if n = 120 ∧ escapeDigits (fun d => (hexValue d).isSome) 2 rest ≠ [] then
              let digits := escapeDigits (fun d => (hexValue d).isSome) 2 rest
              escapeNumber 16 digits :: loadText (rest.drop digits.length)
            else (namedEscape n).getD n :: loadText rest
      else c :: loadText rest
termination_by text => text.length
decreasing_by
  all_goals
    simp only [List.length_cons, List.length_drop]
    omega

def loadField (piece : Bytes) : Option Bytes := if piece = nullPiece then none else some (loadText piece)

def loadLine (line : Bytes) : List (Option Bytes) := (cut backslash tab line).map loadField

-- Nothing behind the last newline is no line, and a line \. ends the data.
def loadLines (sent : Bytes) : List Bytes :=
  let pieces := cut backslash newline sent
  (if pieces.getLast? = some [] then pieces.dropLast else pieces).takeWhile (· ≠ [backslash, 46])

def loadCopy (sent : Bytes) : List (List (Option Bytes)) := (loadLines sent).map loadLine

abbrev FieldByte (c : UInt8) : Prop := c ≠ tab ∧ c ≠ newline

abbrev LineByte (c : UInt8) : Prop := c ≠ newline

abbrev EscapeLetter (n : UInt8) : Prop := n ≠ 46

-- Text that can stand in a field, and text that can stand in a line.
abbrev FieldText : Bytes → Prop := Spelled backslash FieldByte EscapeLetter

abbrev LineText : Bytes → Prop := Spelled backslash LineByte EscapeLetter

theorem field_in_line {piece : Bytes} (field : FieldText piece) : LineText piece :=
  spelled_mono field (fun _ here => here.2) fun _ here => here

theorem null_field : FieldText nullPiece := .pair 78 [] (by decide) .nil

theorem octal_field (c n : UInt8) (rest : Bytes) (field : FieldText rest) : FieldText (tooctdigit c n :: rest) := by
  have range := tooctdigit_range c n
  apply Spelled.char
  · intro same
    rw [same] at range
    exact absurd range (by decide)
  · constructor
    · intro same
      rw [same] at range
      exact absurd range (by decide)
    · intro same
      rw [same] at range
      exact absurd range (by decide)
  · exact field

-- One case for each branch of the loop in Escape.
theorem escape_byte_field (c : UInt8) : FieldText (escapeByte c) := by
  by_cases named : escapechar c = 0
  · cases odd : unprintable c with
    | true =>
        simp only [escapeByte, named, odd, ne_eq, not_true, if_false, if_true]
        exact .pair backslash _ (by decide) (octal_field c 2 _ (octal_field c 1 _ (octal_field c 0 _ .nil)))
    | false =>
        simp only [escapeByte, named, odd, ne_eq, not_true, if_false, Bool.false_eq_true]
        apply Spelled.char
        · intro same
          rw [same] at named
          exact absurd named (by decide)
        · constructor
          · intro same
            rw [same] at named
            exact absurd named (by decide)
          · intro same
            rw [same] at named
            exact absurd named (by decide)
        · exact .nil
  · simp only [escapeByte, named, ne_eq, not_false_eq_true, if_true]
    apply Spelled.pair
    · cases escapechar_cases c named with
      | inl here => rw [here]; decide
      | inr others => rcases others with rfl | rfl | rfl | rfl | rfl | rfl <;> decide
    · exact .nil

theorem escape_field (s null : Bytes) : FieldText (escape s null) := by
  rw [escape]
  split
  · exact null_field
  · split
    · rename_i empty
      rw [empty]
      exact .nil
    · exact spelled_flat_map escapeByte s escape_byte_field

theorem copy_byte_field (c : UInt8) : FieldText (copyByte c) := by
  unfold copyByte
  cases written : copyLetter c with
  | none =>
      obtain ⟨notTab, notNewline, notBackslash⟩ := copy_letter_none c written
      exact .char c [] notBackslash ⟨notTab, notNewline⟩ .nil
  | some letter =>
      apply Spelled.pair
      · cases copy_letter_cases c letter written with
        | inl same =>
            rw [same.2]
            decide
        | inr other =>
            intro dot
            have nameless : namedEscape letter = none := by rw [dot]; decide
            rw [nameless] at other
            cases other.2.2.2.2
      · exact .nil

theorem copy_field_field (field : Option Bytes) : FieldText (copyField field) := by
  cases field with
  | none => exact null_field
  | some s => exact spelled_flat_map copyByte s copy_byte_field

theorem load_plain (c : UInt8) (rest : Bytes) (other : c ≠ backslash) : loadText (c :: rest) = c :: loadText rest := by
  rw [loadText.eq_def]
  simp only [if_neg other]

theorem load_named (n : UInt8) (rest : Bytes) (notOctal : isOctalchar n = false) (notHex : n ≠ 120) :
    loadText (backslash :: n :: rest) = (namedEscape n).getD n :: loadText rest := by
  rw [loadText.eq_def]
  simp only [notOctal, notHex, false_and, if_true, if_false, Bool.false_eq_true]

theorem load_digit (c n : UInt8) (rest : Bytes) : loadText (tooctdigit c n :: rest) = tooctdigit c n :: loadText rest := by
  have range := tooctdigit_range c n
  apply load_plain
  intro same
  rw [same] at range
  exact absurd range (by decide)

-- Escape writes two backslashes before the digits of a byte, and to the backend too they are
-- one backslash with digits behind it.
theorem load_escape_byte (c : UInt8) (rest : Bytes) : loadText (escapeByte c ++ rest) = rereadByte c ++ loadText rest := by
  by_cases named : escapechar c = 0
  · cases odd : unprintable c with
    | true =>
        simp only [escapeByte, rereadByte, octalEscaped, named, odd, ne_eq, not_true, if_false, if_true, decide_true, Bool.and_self]
        show loadText (backslash :: backslash :: tooctdigit c 2 :: tooctdigit c 1 :: tooctdigit c 0 :: rest) = _
        rw [load_named backslash _ (by decide) (by decide), load_digit, load_digit, load_digit]
        rfl
    | false =>
        simp only [escapeByte, rereadByte, octalEscaped, named, odd, ne_eq, not_true, if_false, Bool.and_false, Bool.false_eq_true]
        apply load_plain
        intro same
        rw [same] at named
        exact absurd named (by decide)
  · have kept : rereadByte c = [c] := by simp only [rereadByte, octalEscaped, named, decide_false, Bool.false_and, Bool.false_eq_true, if_false]
    rw [kept]
    simp only [escapeByte, named, ne_eq, not_false_eq_true, if_true]
    show loadText (backslash :: escapechar c :: rest) = _
    rcases escapechar_cases c named with rfl | rfl | rfl | rfl | rfl | rfl | rfl
    all_goals exact load_named _ rest (by decide) (by decide)

theorem load_copy_byte (c : UInt8) (rest : Bytes) : loadText (copyByte c ++ rest) = c :: loadText rest := by
  unfold copyByte
  cases written : copyLetter c with
  | none => exact load_plain c rest (copy_letter_none c written).2.2
  | some letter =>
      show loadText (backslash :: letter :: rest) = c :: loadText rest
      cases copy_letter_cases c letter written with
      | inl same =>
          rw [same.1, same.2]
          exact load_named backslash rest (by decide) (by decide)
      | inr other =>
          have notHex : letter ≠ 120 := by
            intro hex
            have nameless : namedEscape letter = none := by rw [hex]; decide
            rw [nameless] at other
            cases other.2.2.2.2
          rw [load_named letter rest other.2.2.2.1 notHex, other.2.2.2.2]
          rfl

-- A way of writing bytes one after another that the backend reads one after another.
theorem load_flat_map (write read : UInt8 → Bytes) (each : ∀ c rest, loadText (write c ++ rest) = read c ++ loadText rest) (s : Bytes) :
    loadText (s.flatMap write) = s.flatMap read := by
  induction s with
  | nil => rw [List.flatMap_nil, List.flatMap_nil, loadText]
  | cons c s ih => rw [List.flatMap_cons, List.flatMap_cons, each, ih]

-- A field as the backend stores it, and as it was meant.
def storedField (null s : Bytes) : Option Bytes := if s = null then none else some (s.flatMap rereadByte)

def meantField (null s : Bytes) : Option Bytes := if s = null then none else some s

theorem load_escape (s null : Bytes) : loadField (escape s null) = storedField null s := by
  by_cases same : s = null
  · rw [loadField, if_pos ((escape_null s null).mpr same), storedField, if_pos same]
  · have written : escape s null = s.flatMap escapeByte := by
      rw [escape, if_neg same]
      split
      · rename_i empty
        rw [empty, List.flatMap_nil]
      · rfl
    rw [loadField, if_neg fun marker => same ((escape_null s null).mp marker), storedField, if_neg same, written]
    exact congrArg some (load_flat_map escapeByte rereadByte load_escape_byte s)

theorem copy_bytes_not_null (s : Bytes) : s.flatMap copyByte ≠ nullPiece := by
  intro same
  cases s with
  | nil => exact absurd same (by decide)
  | cons c s =>
      rw [List.flatMap_cons] at same
      unfold copyByte at same
      cases written : copyLetter c with
      | none =>
          rw [written] at same
          exact (copy_letter_none c written).2.2 (List.cons.inj same).1
      | some letter =>
          rw [written] at same
          have second : letter = 78 := (List.cons.inj (List.cons.inj same).2).1
          cases copy_letter_cases c letter written with
          | inl backslashes => exact absurd (backslashes.2.symm.trans second) (by decide)
          | inr other => exact other.2.2.1 second

theorem load_copy_field (field : Option Bytes) : loadField (copyField field) = field := by
  cases field with
  | none => exact if_pos rfl
  | some s =>
      have same := load_flat_map copyByte (fun c => [c]) load_copy_byte s
      rw [List.flatMap_singleton'] at same
      rw [copyField, loadField, if_neg (copy_bytes_not_null s), same]

theorem fields_line (pieces : List Bytes) (fields : ∀ piece ∈ pieces, FieldText piece) : LineText (separatedList [tab] pieces) := by
  rw [separated_list_intercalate]
  exact spelled_intercalate (.char tab [] (by decide) (by decide) .nil) fun piece there => field_in_line (fields piece there)

theorem load_fields (pieces : List Bytes) (some_ : pieces ≠ []) (fields : ∀ piece ∈ pieces, FieldText piece) :
    loadLine (separatedList [tab] pieces) = pieces.map loadField := by
  have apart : backslash ≠ tab := by decide
  rw [loadLine, separated_list_intercalate, cut_intercalate apart pieces some_]
  exact fun piece there => spelled_mono (fields piece there) (fun _ here => here.1) fun _ here => here

-- What the backend reads of lines that were sent one after another.
theorem load_lines (lines : List Bytes) (texts : ∀ line ∈ lines, LineText line) :
    loadLines (lines.flatMap fun line => line ++ [newline]) = lines := by
  have apart : backslash ≠ newline := by decide
  rw [loadLines, cut_flat_map apart lines texts]
  simp only [List.getLast?_concat, if_true, List.dropLast_concat]
  rw [List.takeWhile_eq_self_iff]
  intro line there
  rw [decide_eq_true_eq]
  intro marker
  have text := texts line there
  rw [marker] at text
  exact (spelled_pair text : EscapeLetter 46) rfl

end Pqxx
