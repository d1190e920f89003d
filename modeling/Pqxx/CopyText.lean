import Pqxx.CopyRoundTrip

set_option autoImplicit false

namespace Pqxx

-- The letter PostgreSQL writes behind a backslash for a byte it does not write as it is.
def copyLetter (c : UInt8) : Option UInt8 :=
  if c = backslash then some backslash
  else if c = 8 then some 98
  else if c = 12 then some 102
  else if c = newline then some 110
  else if c = 13 then some 114
  else if c = tab then some 116
  else if c = 11 then some 118
  else none

def copyByte (c : UInt8) : Bytes :=
  match copyLetter c with
  | some letter => [backslash, letter]
  | none => [c]

def copyField : Option Bytes → Bytes
  | none => [backslash, 78]
  | some s => s.flatMap copyByte

-- A line of COPY TO STDOUT as PQgetCopyData gives it.
def copyLine (row : List (Option Bytes)) : Bytes := separatedList [tab] (row.map copyField) ++ [newline]

theorem copy_letter_cases (c letter : UInt8) (written : copyLetter c = some letter) :
    c = backslash ∧ letter = backslash ∨ c ≠ backslash ∧ letter ≠ tab ∧ letter ≠ 78 ∧ isOctalchar letter = false ∧ namedEscape letter = some c := by
  unfold copyLetter at written
  repeat' split at written
  all_goals
    first
    | cases written
      subst_vars
      decide
    | cases written

theorem copy_letter_none (c : UInt8) (plain : copyLetter c = none) : c ≠ tab ∧ c ≠ newline ∧ c ≠ backslash := by
  refine ⟨?_, ?_, ?_⟩
  all_goals
    rintro rfl
    exact absurd plain (by decide)

theorem scan_copy_byte (nullStr tail r : Bytes) (c : UInt8) (isnull : Bool) :
    scanField nullStr (copyByte c ++ tail) r isnull = scanField nullStr tail (r ++ [c]) isnull := by
  unfold copyByte
  cases written : copyLetter c with
  | none =>
      obtain ⟨notTab, notNewline, notBackslash⟩ := copy_letter_none c written
      exact scan_plain nullStr tail r c isnull notTab notNewline notBackslash
  | some letter =>
      rcases copy_letter_cases c letter written with ⟨rfl, rfl⟩ | ⟨_, _, notNull, notOctal, named⟩
      · exact scan_escaped_backslash nullStr tail r isnull
      · show scanField nullStr (backslash :: letter :: tail) r isnull = _
        rw [scanField.eq_def]
        simp only [backslash_ne_newline, backslash_ne_tab, notNull, notOctal, named, if_false, if_true, Bool.false_eq_true]

theorem scan_copy_bytes (nullStr tail s r : Bytes) (isnull : Bool) :
    scanField nullStr (s.flatMap copyByte ++ tail) r isnull = scanField nullStr tail (r ++ s) isnull := by
  induction s generalizing r with
  | nil => rw [List.flatMap_nil, List.nil_append, List.append_nil]
  | cons c s ih =>
      rw [List.flatMap_cons, List.append_assoc, scan_copy_byte, ih, List.append_assoc, List.singleton_append]

-- What a field ends in, and what is left of the line behind it.
inductive FieldEnd : Bytes → Bytes → Prop
  | separator (after : Bytes) : FieldEnd (tab :: after) after
  | line : FieldEnd [newline] []

theorem scan_field_end (nullStr r tail after : Bytes) (isnull : Bool) (ends : FieldEnd tail after) :
    scanField nullStr tail r isnull = .ok (after, r, isnull) := by
  cases ends with
  | separator =>
      rw [scanField.eq_def]
      simp only [if_true]
  | line => rfl

theorem scan_copy_field (nullStr tail after : Bytes) (field : Option Bytes) (ends : FieldEnd tail after) :
    ∃ isnull, scanField nullStr (copyField field ++ tail) [] false = .ok (after, field.getD nullStr, isnull) ∧
      (isnull = true → (field.getD nullStr).length = nullStr.length) := by
  cases field with
  | none =>
      refine ⟨true, ?_, fun _ => rfl⟩
      show scanField nullStr (backslash :: 78 :: tail) [] false = _
      rw [scanField.eq_def]
      simp only [backslash_ne_newline, backslash_ne_tab, if_false, if_true, ne_eq, not_true]
      exact scan_field_end nullStr nullStr tail after true ends
  | some s =>
      refine ⟨false, ?_, fun isNull => by cases isNull⟩
      rw [copyField, scan_copy_bytes]
      exact scan_field_end nullStr s tail after false ends

-- The line ends in a newline, so that there is something to read for each field, an empty
-- last one included.
theorem tokenize_from_copy (nullStr line : Bytes) (first : Option Bytes) (rest : List (Option Bytes)) (here : Nat)
    (behind : line.drop here = copyLine (first :: rest)) :
    tokenizeFrom line nullStr here = .ok ((first :: rest).map fun field => field.getD nullStr) := by
  induction rest generalizing first here with
  | nil =>
      have text : line.drop here = copyField first ++ [newline] := behind
      obtain ⟨isnull, scan, clean⟩ := scan_copy_field nullStr [newline] [] first .line
      have inside : here < line.length := by
        apply Nat.lt_of_not_le
        intro ended
        rw [List.drop_eq_nil_of_le ended] at text
        exact absurd text.symm (by simp)
      rw [← text] at scan
      obtain ⟨next, after, turn⟩ := tokenize_from_cons line nullStr [] (first.getD nullStr) here isnull inside scan clean
      rw [turn, tokenize_from_end line nullStr next after]
      rfl
  | cons second rest ih =>
      have text : line.drop here = copyField first ++ tab :: copyLine (second :: rest) := by
        rw [behind]
        simp only [copyLine, List.map_cons, separatedList, List.append_assoc, List.cons_append, List.nil_append]
      obtain ⟨isnull, scan, clean⟩ := scan_copy_field nullStr (tab :: copyLine (second :: rest)) _ first (.separator _)
      have inside : here < line.length := by
        apply Nat.lt_of_not_le
        intro ended
        rw [List.drop_eq_nil_of_le ended] at text
        exact absurd text.symm (by simp)
      rw [← text] at scan
      obtain ⟨next, after, turn⟩ := tokenize_from_cons line nullStr _ (first.getD nullStr) here isnull inside scan clean
      rw [turn, ih second next after]
      rfl

theorem copy_text_decodes (nullStr : Bytes) (first : Option Bytes) (rest : List (Option Bytes)) :
    tokenize (copyLine (first :: rest)) nullStr = .ok ((first :: rest).map fun field => field.getD nullStr) :=
  tokenize_from_copy nullStr (copyLine (first :: rest)) first rest 0 rfl

-- A field that reads \N is not null, and an empty one at the end is not lost.
example : copyLine [some [backslash, 78], none, some []] = [backslash, backslash, 78, tab, backslash, 78, tab, newline] := by decide

end Pqxx
