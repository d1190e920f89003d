import Pqxx.TableReader

set_option autoImplicit false

namespace Pqxx

-- A character that Escape writes as two backslashes and three digits. The reader
-- takes the first backslash to escape the second, so the digits come back as text.
def octalEscaped (c : UInt8) : Bool := escapechar c = 0 && unprintable c

def rereadByte (c : UInt8) : Bytes :=
  if octalEscaped c then [backslash, tooctdigit c 2, tooctdigit c 1, tooctdigit c 0] else [c]

def reread (null s : Bytes) : Bytes := if s = null then null else s.flatMap rereadByte

-- What a row becomes on its way through a line: every field is reread, and a last
-- field that is written as nothing is lost.
def rereadRow (null : Bytes) : List Bytes → List Bytes
  | [] => []
  | [s] => if escape s null = [] then [] else [reread null s]
  | s :: next :: rest => reread null s :: rereadRow null (next :: rest)

theorem escapechar_cases (c : UInt8) (named : escapechar c ≠ 0) :
    c = 8 ∨ c = 11 ∨ c = 12 ∨ c = newline ∨ c = tab ∨ c = 13 ∨ c = backslash := by
  unfold escapechar at named
  repeat' split at named
  all_goals simp_all

theorem scan_plain (nullStr tail r : Bytes) (c : UInt8) (isnull : Bool) (notTab : c ≠ tab) (notNewline : c ≠ newline)
    (notBackslash : c ≠ backslash) :
    scanField nullStr (c :: tail) r isnull = scanField nullStr tail (r ++ [c]) isnull := by
  rw [scanField.eq_def]
  simp only [notTab, notNewline, notBackslash, if_false]

theorem scan_escaped_backslash (nullStr tail r : Bytes) (isnull : Bool) :
    scanField nullStr (backslash :: backslash :: tail) r isnull = scanField nullStr tail (r ++ [backslash]) isnull := by
  rw [scanField.eq_def]
  simp [backslash_ne_newline, backslash_ne_tab, show ¬ backslash = 78 by decide, show isOctalchar backslash = false by decide,
    show namedEscape backslash = none by decide]

theorem tooctdigit_range (c n : UInt8) : 48 ≤ (tooctdigit c n).toNat ∧ (tooctdigit c n).toNat ≤ 55 := by
  have low : ((c >>> (3 * n)) &&& 7).toNat ≤ 7 := by
    rw [UInt8.toNat_and]
    exact Nat.and_le_right
  simp only [tooctdigit, numberToDigit, UInt8.toNat_add]
  simp only [UInt8.reduceToNat]
  omega

theorem scan_octal_digit (nullStr tail r : Bytes) (c n : UInt8) (isnull : Bool) :
    scanField nullStr (tooctdigit c n :: tail) r isnull = scanField nullStr tail (r ++ [tooctdigit c n]) isnull := by
  have range := tooctdigit_range c n
  apply scan_plain
  · intro same; rw [same] at range; exact absurd range (by decide)
  · intro same; rw [same] at range; exact absurd range (by decide)
  · intro same; rw [same] at range; exact absurd range (by decide)

theorem scan_escape_byte (nullStr tail r : Bytes) (c : UInt8) (isnull : Bool) :
    scanField nullStr (escapeByte c ++ tail) r isnull = scanField nullStr tail (r ++ rereadByte c) isnull := by
  by_cases named : escapechar c = 0
  · by_cases octal : unprintable c = true
    · simp only [escapeByte, rereadByte, octalEscaped, named, octal, ne_eq, not_true, if_false, if_true, List.cons_append,
        List.nil_append, decide_true, Bool.and_self]
      rw [scan_escaped_backslash, scan_octal_digit, scan_octal_digit, scan_octal_digit]
      simp [List.append_assoc]
    · have plain : rereadByte c = [c] := by simp [rereadByte, octalEscaped, octal]
      rw [plain]
      simp only [escapeByte, named, octal, ne_eq, not_true, if_false]
      apply scan_plain <;> (rintro rfl; exact absurd named (by decide))
  · rcases escapechar_cases c named with rfl | rfl | rfl | rfl | rfl | rfl | rfl
    all_goals
      rw [scanField.eq_def]
      simp [escapeByte, escapechar, rereadByte, octalEscaped, newline, tab, backslash, isOctalchar, namedEscape]

theorem scan_escape_bytes (nullStr tail s r : Bytes) (isnull : Bool) :
    scanField nullStr (s.flatMap escapeByte ++ tail) r isnull = scanField nullStr tail (r ++ s.flatMap rereadByte) isnull := by
  induction s generalizing r with
  | nil => simp
  | cons c s ih =>
      simp only [List.flatMap_cons, List.append_assoc]
      rw [scan_escape_byte, ih]
      simp [List.append_assoc]

theorem scan_ends (nullStr r tail : Bytes) (isnull : Bool) (ends : tail = [] ∨ ∃ after, tail = tab :: after) :
    scanField nullStr tail r isnull = .ok (tail.tail, r, isnull) := by
  rcases ends with rfl | ⟨after, rfl⟩
  · rfl
  · rw [scanField.eq_def]
    simp

theorem scan_escape (null tail s : Bytes) (ends : tail = [] ∨ ∃ after, tail = tab :: after) :
    ∃ isnull, scanField null (escape s null ++ tail) [] false = .ok (tail.tail, reread null s, isnull) ∧
      (isnull = true → (reread null s).length = null.length) := by
  by_cases same : s = null
  · refine ⟨true, ?_, fun _ => by simp [reread, same]⟩
    have marker : escape s null ++ tail = backslash :: 78 :: tail := by simp [escape, same]
    rw [marker, scanField.eq_def]
    simp only [backslash_ne_newline, backslash_ne_tab, if_false, if_true, ne_eq, not_true, reread, same]
    exact scan_ends null null tail true ends
  · refine ⟨false, ?_, fun isnull => Bool.noConfusion isnull⟩
    have written : escape s null = s.flatMap escapeByte := by
      by_cases isEmpty : s = []
      · subst isEmpty
        simp [escape, same]
      · simp [escape, same, isEmpty]
    rw [written, scan_escape_bytes, scan_ends null _ tail false ends]
    simp [reread, same]

theorem generate_cons (null s next : Bytes) (rest : List Bytes) :
    generate null (s :: next :: rest) = escape s null ++ tab :: generate null (next :: rest) := by
  simp [generate, separatedList]

theorem tokenize_from_generate (null line : Bytes) (row : List Bytes) (here : Nat)
    (behind : line.drop here = generate null row) : tokenizeFrom line null here = .ok (rereadRow null row) := by
  induction row generalizing here with
  | nil => exact tokenize_from_end line null here behind
  | cons s rest ih =>
      cases rest with
      | nil =>
          have text : line.drop here = escape s null ++ [] := by simpa [generate, separatedList] using behind
          by_cases nothing : escape s null = []
          · simp only [rereadRow, nothing, if_true]
            exact tokenize_from_end line null here (by simp [text, nothing])
          · have inside : here < line.length := by
              apply Nat.lt_of_not_le
              intro ended
              rw [List.drop_eq_nil_of_le ended, List.append_nil] at text
              exact nothing text.symm
            obtain ⟨isnull, scan, clean⟩ := scan_escape null [] s (.inl rfl)
            rw [← text] at scan
            obtain ⟨next, after, turn⟩ := tokenize_from_cons line null [] (reread null s) here isnull inside scan clean
            rw [turn, tokenize_from_end line null next after]
            simp [rereadRow, nothing, Except.map]
      | cons t rest =>
          rw [generate_cons] at behind
          have inside : here < line.length := by
            apply Nat.lt_of_not_le
            intro ended
            rw [List.drop_eq_nil_of_le ended] at behind
            simp at behind
          obtain ⟨isnull, scan, clean⟩ := scan_escape null (tab :: generate null (t :: rest)) s (.inr ⟨_, rfl⟩)
          rw [← behind] at scan
          obtain ⟨next, after, turn⟩ := tokenize_from_cons line null _ (reread null s) here isnull inside scan clean
          rw [turn, ih next after]
          rfl

theorem tokenize_generate (null : Bytes) (row : List Bytes) : tokenize (generate null row) null = .ok (rereadRow null row) :=
  tokenize_from_generate null (generate null row) row 0 (by simp)

theorem reread_byte_length (c : UInt8) : (rereadByte c).length = if octalEscaped c then 4 else 1 := by
  by_cases octal : octalEscaped c = true <;> simp [rereadByte, octal]

theorem reread_bytes_length (s : Bytes) : s.length ≤ (s.flatMap rereadByte).length := by
  induction s with
  | nil => simp
  | cons c s ih =>
      have grown := reread_byte_length c
      simp only [List.flatMap_cons, List.length_append, List.length_cons]
      split at grown <;> omega

theorem reread_bytes_same (s : Bytes) : s.flatMap rereadByte = s ↔ ∀ c ∈ s, octalEscaped c = false := by
  induction s with
  | nil => simp
  | cons c s ih =>
      have longer := reread_bytes_length s
      by_cases octal : octalEscaped c = true
      · constructor
        · intro same
          have lengths := congrArg List.length same
          simp only [List.flatMap_cons, List.length_append, reread_byte_length, octal, if_true, List.length_cons] at lengths
          omega
        · intro clean
          have cleanHead := clean c (by simp)
          rw [octal] at cleanHead
          cases cleanHead
      · simp [rereadByte, octal, ih]

theorem reread_same (null s : Bytes) : reread null s = s ↔ s ≠ null → ∀ c ∈ s, octalEscaped c = false := by
  by_cases same : s = null
  · simp [reread, same]
  · simp [reread, same, reread_bytes_same]

theorem escape_byte_nonempty (c : UInt8) : escapeByte c ≠ [] := by
  unfold escapeByte
  repeat' split
  all_goals simp

theorem escape_nothing (null s : Bytes) : escape s null = [] ↔ s = [] ∧ null ≠ [] := by
  by_cases same : s = null
  · simp [escape, same]
  · by_cases isEmpty : s = []
    · subst isEmpty
      simp [escape, same, Ne.symm same]
    · cases s with
      | nil => exact absurd rfl isEmpty
      | cons c s => simp [escape, same, escape_byte_nonempty]

theorem reread_row_same (null : Bytes) (row : List Bytes) :
    rereadRow null row = row ↔
      (∀ s ∈ row, s ≠ null → ∀ c ∈ s, octalEscaped c = false) ∧ (row.getLast? = some [] → null = []) := by
  induction row with
  | nil => simp [rereadRow]
  | cons s rest ih =>
      cases rest with
      | nil =>
          by_cases nothing : escape s null = []
          · have lost := (escape_nothing null s).mp nothing
            rw [lost.1] at nothing
            simp [rereadRow, nothing, lost.1, lost.2]
          · have kept : s = [] → null = [] := by
              intro isEmpty
              exact Decidable.byContradiction fun nonempty => nothing ((escape_nothing null s).mpr ⟨isEmpty, nonempty⟩)
            simp only [rereadRow, nothing, if_false, List.cons.injEq, and_true, reread_same, List.mem_cons, List.not_mem_nil,
              or_false, forall_eq, List.getLast?_singleton, Option.some.injEq]
            exact ⟨fun same => ⟨same, kept⟩, fun both => both.1⟩
      | cons t rest =>
          simp only [rereadRow, List.cons.injEq, ih, reread_same, List.getLast?_cons_cons, List.mem_cons, forall_eq_or_imp]
          exact and_assoc.symm

-- The codec gives a row back exactly when no field that is not the null string holds
-- a character Escape writes in octal, and the last field is not written as nothing.
theorem copy_round_trip (null : Bytes) (row : List Bytes) :
    tokenize (generate null row) null = .ok row ↔
      (∀ s ∈ row, s ≠ null → ∀ c ∈ s, octalEscaped c = false) ∧ (row.getLast? = some [] → null = []) := by
  rw [tokenize_generate, Except.ok.injEq]
  exact reread_row_same null row

-- A single field holding the byte 1 comes back as the four characters \001, and a
-- row of two fields of which the last is empty comes back as one field.
theorem copy_round_trip_fails :
    ¬ (∀ (null : Bytes) (row : List Bytes), row ≠ [] → (∀ s ∈ row, (0 : UInt8) ∉ s) →
      tokenize (generate null row) null = .ok row) := by
  intro claimed
  have control := claimed [] [[1]] (by simp) (by simp)
  rw [tokenize_generate, Except.ok.injEq] at control
  exact absurd control (by decide)

example : rereadRow [78] [[97], []] = [[97]] := by decide

end Pqxx
