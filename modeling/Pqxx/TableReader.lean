import Pqxx.Except
import Pqxx.TableWriter

set_option autoImplicit false

namespace Pqxx

-- Line[i]; reading at size() yields a null character, as for a const std::string.
def byteAt (line : Bytes) (i : Nat) : UInt8 := line.getD i 0

theorem backslash_ne_newline : backslash ≠ newline := by decide
theorem backslash_ne_tab : backslash ≠ tab := by decide

def isOctalchar (o : UInt8) : Bool := o ≥ 48 && o ≤ 55

def digitToNumber (c : UInt8) : UInt8 := c - 48

def octalValue (n n1 n2 : UInt8) : UInt8 :=
  (digitToNumber n <<< 6) ||| (digitToNumber n1 <<< 3) ||| digitToNumber n2

-- The first tab at or after start, or line.size() where there is none. The bound
-- in the type is what makes every later access through stop a safe one.
def findtab (line : Bytes) (start : Nat) : Fin (line.length + 1) :=
  ⟨min line.length (start + (line.drop start).findIdx (· = tab)), by omega⟩

-- The character a one-letter escape stands for, where it has one of its own.
def namedEscape (n : UInt8) : Option UInt8 :=
  if n = 98 then some 8
  else if n = 118 then some 11
  else if n = 102 then some 12
  else if n = 110 then some newline
  else if n = 116 then some tab
  else if n = 114 then some 13
  else none

def failWith {α : Type} (kind : ExnKind) (what : String) : Except Exn α := .error { kind, what }

-- The for loop of extract_field. It returns the index behind the loop with the
-- field and the null flag; a newline sets i to stop and the loop still adds 1.
def extractLoop (line nullStr : Bytes) (i : Nat) (stop : Fin (line.length + 1)) (r : Bytes) (isnull : Bool) :
    Except Exn (Nat × Bytes × Bool) :=
  if _inside : i < stop.val then
    let c := byteAt line i
    if c = newline then .ok (stop.val + 1, r, isnull)
    else if c = backslash then
      let n := byteAt line (i + 1)
      if i + 1 ≥ line.length then failWith .failure "Row ends in backslash"
      else if n = 78 then
        if r ≠ [] then failWith .failure "Null sequence found in nonempty field"
        else extractLoop line nullStr (i + 2) stop nullStr true
      else if isOctalchar n then
        if i + 1 + 2 ≥ line.length then failWith .failure "Row ends in middle of octal value"
        else
          let n1 := byteAt line (i + 2)
          let n2 := byteAt line (i + 3)
          if !isOctalchar n1 || !isOctalchar n2 then failWith .failure "Invalid octal in encoded table stream"
          else extractLoop line nullStr (i + 4) stop (r ++ [octalValue n n1 n2]) isnull
      else match namedEscape n with
        | some b => extractLoop line nullStr (i + 2) stop (r ++ [b]) isnull
        | none =>
            -- A self-escaped tab was taken for the end of the field: look for the next one.
            if i + 1 = stop.val then
              if i + 1 + 1 ≥ line.length then .error (.internalError "COPY line ends in backslash")
              else extractLoop line nullStr (i + 2) (findtab line (i + 2)) (r ++ [n]) isnull
            else extractLoop line nullStr (i + 2) stop (r ++ [n]) isnull
    else extractLoop line nullStr (i + 1) stop (r ++ [c]) isnull
  else .ok (i, r, isnull)
termination_by line.length - i
decreasing_by
  all_goals
    have _bound := stop.isLt
    omega

def extractField (line nullStr : Bytes) (i : Nat) : Except Exn (Bytes × Nat) :=
  match extractLoop line nullStr i (findtab line i) [] false with
  | .error e => .error e
  | .ok (j, r, isnull) =>
      if isnull ∧ r.length ≠ nullStr.length then failWith .failure "Field contains data behind null sequence"
      else .ok (r, j + 1)

theorem extract_loop_advances (line nullStr : Bytes) (i : Nat) (stop : Fin (line.length + 1)) (r : Bytes)
    (isnull : Bool) (j : Nat) (field : Bytes) (flag : Bool)
    (result : extractLoop line nullStr i stop r isnull = .ok (j, field, flag)) : i ≤ j := by
  fun_induction extractLoop line nullStr i stop r isnull with
  | case1 i stop r isnull inside c newlineHere =>
      simp only [Except.ok.injEq, Prod.mk.injEq] at result
      omega
  | case13 i stop r isnull outside =>
      simp only [Except.ok.injEq, Prod.mk.injEq] at result
      omega
  | case2 | case3 | case5 | case6 | case9 => simp [failWith] at result
  | case4 | case7 | case8 | case10 | case11 | case12 =>
      rename_i ih
      have := ih result
      omega

theorem extract_field_advances (line nullStr : Bytes) (i j : Nat) (field : Bytes)
    (result : extractField line nullStr i = .ok (field, j)) : i < j := by
  unfold extractField at result
  cases loop : extractLoop line nullStr i (findtab line i) [] false with
  | error e => simp [loop] at result
  | ok outcome =>
      obtain ⟨k, r, isnull⟩ := outcome
      have advanced := extract_loop_advances line nullStr i (findtab line i) [] false k r isnull loop
      by_cases behind : isnull = true ∧ r.length ≠ nullStr.length
      · simp [loop, behind, failWith] at result
      · simp only [loop, if_neg behind, Except.ok.injEq, Prod.mk.injEq] at result
        omega

def tokenizeFrom (line nullStr : Bytes) (here : Nat) : Except Exn (List Bytes) :=
  if here < line.length then
    match _field : extractField line nullStr here with
    | .error e => .error e
    | .ok (field, next) =>
        match tokenizeFrom line nullStr next with
        | .error e => .error e
        | .ok fields => .ok (field :: fields)
  else .ok []
termination_by line.length - here
decreasing_by
  have := extract_field_advances line nullStr here next field _field
  omega

def tokenize (line nullStr : Bytes) : Except Exn (List Bytes) := tokenizeFrom line nullStr 0

-- The same scan by recursion on what is left of the line. Fields are decoded
-- without positions here; the theorems below connect the two.
def scanField (nullStr : Bytes) : Bytes → Bytes → Bool → Except Exn (Bytes × Bytes × Bool)
  | [], r, isnull => .ok ([], r, isnull)
  | c :: rest, r, isnull =>
      if c = tab then .ok (rest, r, isnull)
      else if c = newline then .ok ((rest.dropWhile (· ≠ tab)).drop 2, r, isnull)
      else if c = backslash then
        match rest with
        | [] => failWith .failure "Row ends in backslash"
        | n :: rest =>
            if n = 78 then
              if r ≠ [] then failWith .failure "Null sequence found in nonempty field"
              else scanField nullStr rest nullStr true
            else if isOctalchar n then
              match rest with
              | n1 :: n2 :: rest =>
                  if !isOctalchar n1 || !isOctalchar n2 then failWith .failure "Invalid octal in encoded table stream"
                  else scanField nullStr rest (r ++ [octalValue n n1 n2]) isnull
              | _ => failWith .failure "Row ends in middle of octal value"
            else match namedEscape n with
              | some b => scanField nullStr rest (r ++ [b]) isnull
              | none =>
                  if n = tab ∧ rest = [] then .error (.internalError "COPY line ends in backslash")
                  else scanField nullStr rest (r ++ [n]) isnull
      else scanField nullStr rest (r ++ [c]) isnull

theorem findtab_at_end (line : Bytes) (i : Nat) (atEnd : line.drop i = []) : (findtab line i).val = line.length := by
  have outside : line.length ≤ i := List.drop_eq_nil_iff.mp atEnd
  simp [findtab, atEnd]
  omega

theorem findtab_cons (line rest : Bytes) (i : Nat) (c : UInt8) (here : line.drop i = c :: rest) :
    (findtab line i).val = if c = tab then i else (findtab line (i + 1)).val := by
  have bound : i + rest.length + 1 = line.length := by
    have lengths := congrArg List.length here
    simp at lengths
    omega
  have next : line.drop (i + 1) = rest := by
    rw [List.drop_add_one_eq_tail_drop, here]
    rfl
  have inRest := @List.findIdx_le_length _ (fun b => decide (b = tab)) rest
  by_cases same : c = tab
  · simp [findtab, here, same, List.findIdx_cons]
    omega
  · simp [findtab, here, next, same, List.findIdx_cons]
    omega

theorem drop_cons_access (line rest : Bytes) (i : Nat) (c : UInt8) (here : line.drop i = c :: rest) :
    i < line.length ∧ byteAt line i = c ∧ line.drop (i + 1) = rest := by
  have bound : i < line.length := by
    have lengths := congrArg List.length here
    simp at lengths
    omega
  have head : line.drop i = line.get ⟨i, bound⟩ :: line.drop (i + 1) := List.drop_eq_getElem_cons bound
  rw [here] at head
  injection head with same tailSame
  exact ⟨bound, by simp [byteAt, bound, same], tailSame.symm⟩

theorem findtab_skip (line rest : Bytes) (i : Nat) (c : UInt8) (here : line.drop i = c :: rest) (other : c ≠ tab) :
    findtab line (i + 1) = findtab line i := by
  apply Fin.ext
  rw [findtab_cons line rest i c here, if_neg other]

theorem findtab_beyond (line : Bytes) (i : Nat) (bound : i ≤ line.length) : i ≤ (findtab line i).val := by
  simp only [findtab]
  omega

theorem drop_findtab (line : Bytes) (i : Nat) :
    line.drop (findtab line i).val = (line.drop i).dropWhile (fun b => decide (b ≠ tab)) := by
  have jump : line.drop (findtab line i).val = (line.drop i).drop ((line.drop i).findIdx (· = tab)) := by
    rw [List.drop_drop]
    simp only [findtab]
    by_cases short : line.length ≤ i + (line.drop i).findIdx (· = tab)
    · rw [Nat.min_eq_left short, List.drop_length, List.drop_eq_nil_of_le short]
    · rw [Nat.min_eq_right (by omega)]
  rw [jump, List.dropWhile_eq_drop_findIdx_not]
  simp

-- What the loop sees at an escape: n is never behind stop, and n at stop is a tab.
structure EscapeAt (line : Bytes) (i : Nat) (n : UInt8) (rest : Bytes) : Prop where
  inside : i + 1 < line.length
  first : byteAt line i = backslash
  second : byteAt line (i + 1) = n
  next : line.drop (i + 2) = rest
  before : i < (findtab line i).val
  atStop : i + 1 = (findtab line i).val ↔ n = tab
  skip : n ≠ tab → findtab line (i + 2) = findtab line i

theorem escape_at (line rest : Bytes) (i : Nat) (n : UInt8) (here : line.drop i = backslash :: n :: rest) :
    EscapeAt line i n rest := by
  obtain ⟨_, first, tail⟩ := drop_cons_access line (n :: rest) i backslash here
  obtain ⟨inside, second, next⟩ := drop_cons_access line rest (i + 1) n tail
  have skipFirst := findtab_skip line (n :: rest) i backslash here (by decide)
  have beyond := findtab_beyond line (i + 1) (by omega)
  have beyondSecond := findtab_beyond line (i + 1 + 1) inside
  have found := findtab_cons line rest (i + 1) n tail
  rw [skipFirst] at beyond found
  refine ⟨inside, first, second, next, beyond, ?_, ?_⟩
  · by_cases same : n = tab
    · rw [if_pos same] at found
      exact ⟨fun _ => same, fun _ => found.symm⟩
    · rw [if_neg same] at found
      have later : i + 1 < (findtab line i).val := by omega
      exact ⟨fun stop => absurd stop (by omega), fun isTab => absurd isTab same⟩
  · intro other
    rw [findtab_skip line rest (i + 1) n tail other, skipFirst]

theorem octal_not_tab (n : UInt8) (octal : isOctalchar n = true) : n ≠ tab := by
  rintro rfl
  exact absurd octal (by decide)

theorem named_not_tab (n b : UInt8) (named : namedEscape n = some b) : n ≠ tab := by
  rintro rfl
  simp [namedEscape, tab] at named

-- The loop is always entered with stop at the first tab from i on; that is the
-- invariant which lets the scan forget positions.
theorem extract_loop_scan (line nullStr rest r : Bytes) (isnull : Bool) (i : Nat) (here : line.drop i = rest)
    (bound : i ≤ line.length) :
    (extractLoop line nullStr i (findtab line i) r isnull).map (fun out => (line.drop (out.1 + 1), out.2)) =
      scanField nullStr rest r isnull := by
  induction rest, r, isnull using scanField.induct nullStr generalizing i with
  | case1 r isnull =>
      have stop := findtab_at_end line i here
      have outside : line.length ≤ i := List.drop_eq_nil_iff.mp here
      rw [extractLoop, dif_neg (by omega)]
      simp [Except.map, scanField]
      omega
  | case2 rest r isnull =>
      have stop := findtab_cons line rest i tab here
      rw [extractLoop, dif_neg (by simp [stop]), scanField.eq_def]
      simp [Except.map, (drop_cons_access line rest i tab here).2.2]
  | case3 rest r isnull other =>
      obtain ⟨inside, access, next⟩ := drop_cons_access line rest i newline here
      have skip := findtab_skip line rest i newline here other
      have beyond := findtab_beyond line (i + 1) inside
      have jump := drop_findtab line (i + 1)
      rw [skip] at beyond jump
      rw [extractLoop, dif_pos (by omega), scanField.eq_def]
      simp only [access, if_pos, Except.map, if_neg other]
      rw [← next, ← jump, List.drop_drop]
  | case13 c rest r isnull notTab notNewline notBackslash ih =>
      obtain ⟨inside, access, next⟩ := drop_cons_access line rest i c here
      have skip := findtab_skip line rest i c here notTab
      have beyond := findtab_beyond line (i + 1) inside
      rw [skip] at beyond
      rw [extractLoop, dif_pos (by omega), ← skip, scanField.eq_def]
      simp only [access, if_neg notNewline, if_neg notBackslash, if_neg notTab]
      exact ih (i + 1) next inside
  | case4 r isnull _ _ =>
      obtain ⟨inside, access, next⟩ := drop_cons_access line [] i backslash here
      have skip := findtab_skip line [] i backslash here backslash_ne_tab
      have beyond := findtab_beyond line (i + 1) inside
      rw [skip] at beyond
      have ended : line.length ≤ i + 1 := List.drop_eq_nil_iff.mp next
      rw [extractLoop, dif_pos (by omega), scanField.eq_def]
      simp [access, ended, failWith, Except.map, backslash_ne_newline, backslash_ne_tab]
  | case5 r isnull rest nonempty _ _ =>
      have esc := escape_at line rest i 78 here
      rw [extractLoop, dif_pos esc.before, scanField.eq_def]
      simp [esc.first, esc.second, Nat.not_le.mpr esc.inside, nonempty, failWith, Except.map, backslash_ne_newline,
        backslash_ne_tab]
  | case6 r isnull rest isEmpty _ _ ih =>
      have esc := escape_at line rest i 78 here
      rw [extractLoop, dif_pos esc.before, scanField.eq_def]
      simp only [esc.first, esc.second, Nat.not_le.mpr esc.inside, isEmpty, backslash_ne_newline, backslash_ne_tab,
        ge_iff_le, if_true, if_false]
      rw [← esc.skip (by decide)]
      exact ih (i + 2) esc.next esc.inside
  | case7 r isnull n notNull octal n1 n2 rest bad _ _ =>
      have esc := escape_at line (n1 :: n2 :: rest) i n here
      obtain ⟨_, access1, tail⟩ := drop_cons_access line (n2 :: rest) (i + 2) n1 esc.next
      obtain ⟨inside, access2, _⟩ := drop_cons_access line rest (i + 3) n2 tail
      rw [extractLoop, dif_pos esc.before, scanField.eq_def]
      simp [esc.first, esc.second, access1, access2, Nat.not_le.mpr esc.inside, Nat.not_le.mpr inside, notNull, octal, bad,
        failWith, Except.map, backslash_ne_newline, backslash_ne_tab]
  | case8 r isnull n notNull octal n1 n2 rest good _ _ ih =>
      have esc := escape_at line (n1 :: n2 :: rest) i n here
      obtain ⟨_, access1, tail⟩ := drop_cons_access line (n2 :: rest) (i + 2) n1 esc.next
      obtain ⟨inside, access2, next⟩ := drop_cons_access line rest (i + 3) n2 tail
      have octals : isOctalchar n1 = true ∧ isOctalchar n2 = true := by simpa using good
      have skip1 := findtab_skip line (n2 :: rest) (i + 2) n1 esc.next (octal_not_tab n1 octals.1)
      have skip2 := findtab_skip line rest (i + 3) n2 tail (octal_not_tab n2 octals.2)
      rw [extractLoop, dif_pos esc.before, scanField.eq_def]
      simp only [esc.first, esc.second, access1, access2, Nat.not_le.mpr esc.inside, Nat.not_le.mpr inside, notNull, octal,
        good, backslash_ne_newline, backslash_ne_tab, ge_iff_le, if_true, if_false]
      rw [← esc.skip (octal_not_tab n octal), ← skip1, ← skip2]
      exact ih (i + 4) next inside
  | case9 r isnull n rest notNull octal short _ _ =>
      have esc := escape_at line rest i n here
      have ended : line.length ≤ i + 1 + 2 := by
        have lengths := congrArg List.length here
        match rest with
        | [] => simp at lengths; omega
        | [n1] => simp at lengths; omega
        | n1 :: n2 :: more => exact absurd rfl (short n1 n2 more)
      rw [extractLoop, dif_pos esc.before, scanField.eq_def]
      simp [esc.first, esc.second, Nat.not_le.mpr esc.inside, ended, notNull, octal, failWith, Except.map,
        backslash_ne_newline, backslash_ne_tab]
  | case10 r isnull n rest notNull notOctal b named _ _ ih =>
      have esc := escape_at line rest i n here
      rw [extractLoop, dif_pos esc.before, scanField.eq_def]
      simp only [esc.first, esc.second, Nat.not_le.mpr esc.inside, notNull, notOctal, named, backslash_ne_newline,
        backslash_ne_tab, ge_iff_le, if_true, if_false]
      rw [← esc.skip (named_not_tab n b named)]
      exact ih (i + 2) esc.next esc.inside
  | case11 r isnull n rest notNull notOctal plain atEnd _ _ =>
      obtain ⟨rfl, rfl⟩ := atEnd
      have esc := escape_at line [] i tab here
      have stop := esc.atStop.mpr rfl
      have ended : line.length ≤ i + 1 + 1 := List.drop_eq_nil_iff.mp esc.next
      rw [extractLoop, dif_pos esc.before, scanField.eq_def]
      simp only [esc.first, esc.second, Nat.not_le.mpr esc.inside, notNull, notOctal, plain, backslash_ne_newline,
        backslash_ne_tab, ge_iff_le, if_true, if_false]
      rw [if_pos stop, if_pos ended]
      simp [Except.map]
  | case12 r isnull n rest notNull notOctal plain inner _ _ ih =>
      have esc := escape_at line rest i n here
      rw [extractLoop, dif_pos esc.before, scanField.eq_def]
      simp only [esc.first, esc.second, Nat.not_le.mpr esc.inside, notNull, notOctal, plain, inner, backslash_ne_newline,
        backslash_ne_tab, ge_iff_le, if_true, if_false]
      by_cases isTab : n = tab
      · have more : ¬ line.length ≤ i + 1 + 1 := by
          intro ended
          exact inner ⟨isTab, by rw [← esc.next]; exact List.drop_eq_nil_of_le ended⟩
        rw [if_pos (esc.atStop.mpr isTab), if_neg more]
        exact ih (i + 2) esc.next esc.inside
      · rw [if_neg (fun stop => isTab (esc.atStop.mp stop)), ← esc.skip isTab]
        exact ih (i + 2) esc.next esc.inside

theorem extract_field_of_scan (line nullStr after field : Bytes) (i : Nat) (isnull : Bool) (inside : i < line.length)
    (scan : scanField nullStr (line.drop i) [] false = .ok (after, field, isnull))
    (clean : isnull = true → field.length = nullStr.length) :
    ∃ j, extractField line nullStr i = .ok (field, j) ∧ line.drop j = after := by
  have loop := extract_loop_scan line nullStr (line.drop i) [] false i rfl (Nat.le_of_lt inside)
  rw [scan] at loop
  cases result : extractLoop line nullStr i (findtab line i) [] false with
  | error e => simp [result, Except.map] at loop
  | ok outcome =>
      obtain ⟨j, r, flag⟩ := outcome
      simp only [result, Except.map, Except.ok.injEq, Prod.mk.injEq] at loop
      obtain ⟨rest, rfl, rfl⟩ := loop
      refine ⟨j + 1, ?_, rest⟩
      have kept : ¬ (flag = true ∧ r.length ≠ nullStr.length) := fun bad => bad.2 (clean bad.1)
      simp only [extractField, result, if_neg kept]

-- One turn of tokenize, with the field and the rest of the line as the scan gives them.
theorem tokenize_from_cons (line nullStr after field : Bytes) (here : Nat) (isnull : Bool) (inside : here < line.length)
    (scan : scanField nullStr (line.drop here) [] false = .ok (after, field, isnull))
    (clean : isnull = true → field.length = nullStr.length) :
    ∃ next, line.drop next = after ∧
      tokenizeFrom line nullStr here = (tokenizeFrom line nullStr next).map (fun fields => field :: fields) := by
  obtain ⟨next, extracted, rest⟩ := extract_field_of_scan line nullStr after field here isnull inside scan clean
  refine ⟨next, rest, ?_⟩
  rw [tokenizeFrom, if_pos inside]
  split
  · rename_i e failed
    rw [extracted] at failed
    cases failed
  · rename_i found position ok
    rw [extracted] at ok
    cases ok
    cases tokenizeFrom line nullStr next <;> rfl

theorem tokenize_from_end (line nullStr : Bytes) (here : Nat) (ended : line.drop here = []) :
    tokenizeFrom line nullStr here = .ok [] := by
  rw [tokenizeFrom, if_neg (Nat.not_lt.mpr (List.drop_eq_nil_iff.mp ended))]

end Pqxx
