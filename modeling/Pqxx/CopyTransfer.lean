import Mathlib.Algebra.Group.Nat.Defs
import Pqxx.CopyStoring
import Pqxx.Lib.Prog

set_option autoImplicit false

namespace Pqxx

open Lib

-- The connection of a tablewriter: the data that PQputCopyData took, call by call, and which
-- of its calls it takes.
structure CopySink where
  isOpen : Bool
  copying : Bool
  taken : List Bytes
  accepts : Nat → Bool
  errMsg : String

-- What PQgetCopyData comes to behind the last line: an error of its own, or the results of the
-- COPY, of which check_result may throw one.
inductive CopyEnd where
  | failed (errMsg : String)
  | results (checked : Except Exn Unit)

-- The connection of a tablereader.
structure CopySource where
  isOpen : Bool
  lines : List Bytes
  ends : CopyEnd

structure Tablereader where
  source : CopySource
  done : Bool

namespace CopySink

def opened (accepts : Nat → Bool) (errMsg : String) : CopySink := { isOpen := true, copying := true, taken := [], accepts, errMsg }

-- There is nothing to send in a length below 0.
def pqPutCopyData (buffer : Bytes) (nbytes : Int) : Prog CopySink Exn Bool := do
  let w ← Prog.get
  if w.copying = true ∧ w.accepts w.taken.length = true then
    Prog.modify fun w => { w with taken := w.taken ++ [buffer.take nbytes.toNat] }
    return true
  else return false

def pqEndcopy : Prog CopySink Exn Unit := Prog.modify fun w => { w with copying := false }

-- The length is cast to an int.
def writeCopyLine (line : Bytes) : Prog CopySink Exn Unit := do
  let w ← Prog.get
  if w.isOpen = false then throw (.internalError "WriteCopyLine() without connection")
  else
    let l := line ++ [newline]
    let put ← pqPutCopyData l (BitVec.ofNat 32 l.length).toInt
    if put = true then return ()
    else
      pqEndcopy
      throw { kind := .failure, what := "Error writing to table: " ++ w.errMsg }

def withoutNewline (line : Bytes) : Bytes :=
  if line = [] ∨ line.getLast? ≠ some newline then line else line.take (line.length - 1)

-- tablewriter::write_raw_line and insert.
def writeRawLine (line : Bytes) : Prog CopySink Exn Unit := writeCopyLine (withoutNewline line)

def insert (null : Bytes) (row : List Bytes) : Prog CopySink Exn Unit := writeRawLine (generate null row)

def writeRawLines : List Bytes → Prog CopySink Exn Unit
  | [] => return ()
  | line :: rest => do
      writeRawLine line
      writeRawLines rest

-- One row after another, as from a back_insert_iterator.
def insertAll (null : Bytes) : List (List Bytes) → Prog CopySink Exn Unit
  | [] => return ()
  | row :: rest => do
      insert null row
      insertAll null rest

end CopySink

-- A line is taken from a char *, so that it ends at the first null character.
def CopySource.readCopyLine (r : CopySource) : Except Exn (Option Bytes) × CopySource :=
  if r.isOpen = false then (.error (.internalError "ReadCopyLine() without connection"), r)
  else
    match r.lines with
    | line :: rest => (.ok (some (line.takeWhile (· ≠ 0))), { r with lines := rest })
    | [] =>
        match r.ends with
        | .failed errMsg => (failWith .failure ("Reading of table data failed: " ++ errMsg), r)
        | .results (.error e) => (.error e, r)
        | .results (.ok ()) => (.ok none, r)

namespace Tablereader

def getRawLine (r : Tablereader) : Except Exn (Option Bytes) × Tablereader :=
  if r.done = true then (.ok none, r)
  else
    match r.source.readCopyLine with
    | (.ok line, source) => (.ok line, { source, done := line.isNone })
    | (.error e, source) => (.error e, { source, done := true })

theorem get_raw_line_next (r : Tablereader) (line : Bytes) (rest : List Bytes) (fresh : r.done = false) (live : r.source.isOpen = true)
    (lines : r.source.lines = line :: rest) :
    r.getRawLine = (.ok (some (line.takeWhile (· ≠ 0))), { source := { r.source with lines := rest }, done := false }) := by
  simp only [getRawLine, CopySource.readCopyLine, fresh, live, lines, Bool.false_eq_true, if_false, Bool.true_eq_false]
  rfl

-- What the reader throws behind the last line, if it does.
def ending (r : Tablereader) : Except Exn Unit :=
  match r.source.ends with
  | .failed errMsg => failWith .failure ("Reading of table data failed: " ++ errMsg)
  | .results checked => checked

theorem get_raw_line_end (r : Tablereader) (fresh : r.done = false) (live : r.source.isOpen = true) (lines : r.source.lines = []) :
    r.getRawLine = (r.ending.map fun _ => none, { r with done := true }) := by
  simp only [getRawLine, CopySource.readCopyLine, fresh, live, lines, Bool.false_eq_true, if_false, Bool.true_eq_false, ending]
  cases r.source.ends with
  | failed errMsg => rfl
  | results checked => cases checked <;> rfl

theorem get_raw_line_shorter (r : Tablereader) (line : Bytes) (got : (r.getRawLine).1 = .ok (some line)) :
    (r.getRawLine).2.source.lines.length < r.source.lines.length := by
  cases done : r.done with
  | true =>
      rw [getRawLine, if_pos done] at got
      cases got
  | false =>
      cases live : r.source.isOpen with
      | false =>
          simp only [getRawLine, CopySource.readCopyLine, done, live, Bool.false_eq_true, if_false, if_true] at got
          cases got
      | true =>
          cases lines : r.source.lines with
          | nil =>
              rw [get_raw_line_end r done live lines] at got
              cases ends : r.ending with
              | error e =>
                  rw [ends] at got
                  cases got
              | ok u =>
                  rw [ends] at got
                  cases got
          | cons next rest =>
              rw [get_raw_line_next r next rest done live lines]
              exact Nat.lt_succ_self rest.length

end Tablereader

-- tablewriter::operator<<(tablereader &).
def CopySink.insertFrom (r : Tablereader) (w : CopySink) : Except Exn Unit × Tablereader × CopySink :=
  match _got : r.getRawLine with
  | (.error e, r') => (.error e, r', w)
  | (.ok none, r') => (.ok (), r', w)
  | (.ok (some line), r') =>
      match writeRawLine line w with
      | (.error e, w') => (.error e, r', w')
      | (.ok (), w') => insertFrom r' w'
termination_by r.source.lines.length
decreasing_by
  have shorter := r.get_raw_line_shorter line (by rw [_got])
  rw [_got] at shorter
  exact shorter

namespace CopySink

-- A sink that is in the middle of taking data.
def Taking (w : CopySink) : Prop := w.isOpen = true ∧ w.copying = true

def ThrownOff (w : CopySink) (e : Exn) : Prop := e = { kind := .failure, what := "Error writing to table: " ++ w.errMsg }

-- The length of the line has to fit an int, with its newline.
abbrev Fits (line : Bytes) : Prop := line.length + 1 < 2 ^ 31

theorem write_copy_line_taken (w : CopySink) (line : Bytes) (taking : w.Taking) (fits : Fits line)
    (takes : w.accepts w.taken.length = true) :
    writeCopyLine line w = (.ok (), { w with taken := w.taken ++ [line ++ [newline]] }) := by
  have length : (BitVec.ofNat 32 (line ++ [newline]).length).toInt.toNat = (line ++ [newline]).length := by
    have short : (line ++ [newline]).length < 2 ^ 31 := by
      rw [List.length_append]
      exact fits
    rw [BitVec.toInt_eq_toNat_of_lt, BitVec.toNat_ofNat, Int.toNat_natCast, Nat.mod_eq_of_lt]
    · omega
    · rw [BitVec.toNat_ofNat]
      omega
  simp only [writeCopyLine, pqPutCopyData, Prog.bind_apply, Prog.get_apply, taking.1, taking.2, takes, Bool.true_eq_false, if_false, if_true,
    and_self, Prog.modify_apply, Prog.pure_apply, length, List.take_length]

theorem write_copy_line_refused (w : CopySink) (line : Bytes) (live : w.isOpen = true) (refuses : w.accepts w.taken.length = false) :
    ∃ e, writeCopyLine line w = (.error e, { w with copying := false }) ∧ w.ThrownOff e := by
  refine ⟨_, ?_, rfl⟩
  simp only [writeCopyLine, pqPutCopyData, Prog.bind_apply, Prog.get_apply, live, refuses, Bool.true_eq_false, if_false, Bool.false_eq_true,
    and_false, Prog.pure_apply, pqEndcopy, Prog.modify_apply]
  rfl

theorem without_newline_same (line : Bytes) (inside : newline ∉ line) : withoutNewline line = line := by
  apply if_pos
  by_cases empty : line = []
  · exact .inl empty
  · exact .inr fun last => inside (List.mem_of_getLast? last)

theorem without_newline_ended (line : Bytes) : withoutNewline (line ++ [newline]) = line := by
  rw [withoutNewline, if_neg]
  · rw [List.length_append, List.length_singleton, Nat.add_sub_cancel, List.take_left]
  · intro kept
    cases kept with
    | inl empty => exact absurd empty (List.append_ne_nil_of_right_ne_nil line (List.cons_ne_nil newline []))
    | inr other => exact other List.getLast?_concat

-- The first n lines went out, each with one newline behind it. That is all of them, or libpq
-- did not take the next one.
structure Sent (w : CopySink) (lines : List Bytes) (n : Nat) (outcome : Except Exn Unit) (w' : CopySink) : Prop where
  within : n ≤ lines.length
  taken : w'.taken = w.taken ++ (lines.take n).map fun line => withoutNewline line ++ [newline]
  ends : outcome = .ok () ∧ n = lines.length ∨
    ∃ e, outcome = .error e ∧ w.ThrownOff e ∧ n < lines.length ∧ w.accepts (w.taken.length + n) = false

theorem write_raw_lines_sent (lines : List Bytes) (w : CopySink) (taking : w.Taking) (fits : ∀ line ∈ lines, Fits (withoutNewline line)) :
    ∃ n, Sent w lines n (writeRawLines lines w).1 (writeRawLines lines w).2 := by
  induction lines generalizing w with
  | nil => exact ⟨0, Nat.le_refl 0, (List.append_nil w.taken).symm, .inl ⟨rfl, rfl⟩⟩
  | cons line rest ih =>
      cases takes : w.accepts w.taken.length with
      | false =>
          obtain ⟨e, outcome, thrown⟩ := write_copy_line_refused w (withoutNewline line) taking.1 takes
          have all : writeRawLines (line :: rest) w = (.error e, { w with copying := false }) := by
            rw [writeRawLines, Prog.bind_apply, writeRawLine, outcome]
          rw [all]
          exact ⟨0, Nat.zero_le _, (List.append_nil w.taken).symm, .inr ⟨e, rfl, thrown, Nat.succ_pos _, takes⟩⟩
      | true =>
          have outcome := write_copy_line_taken w (withoutNewline line) taking (fits line List.mem_cons_self) takes
          have all : writeRawLines (line :: rest) w =
              writeRawLines rest { w with taken := w.taken ++ [withoutNewline line ++ [newline]] } := by
            rw [writeRawLines, Prog.bind_apply, writeRawLine, outcome]
          obtain ⟨n, sent⟩ := ih { w with taken := w.taken ++ [withoutNewline line ++ [newline]] } taking
            fun other there => fits other (List.mem_cons_of_mem line there)
          rw [all]
          refine ⟨n + 1, Nat.succ_le_succ sent.within, ?_, ?_⟩
          · rw [sent.taken, List.append_assoc, List.take_succ_cons, List.map_cons, List.singleton_append]
          · cases sent.ends with
            | inl full => exact .inl ⟨full.1, congrArg Nat.succ full.2⟩
            | inr cut =>
                obtain ⟨e, failed, thrown, short, refuses⟩ := cut
                refine .inr ⟨e, failed, thrown, Nat.succ_lt_succ short, ?_⟩
                have position : w.taken.length + (n + 1) = (w.taken ++ [withoutNewline line ++ [newline]]).length + n := by
                  rw [List.length_append, List.length_singleton]
                  omega
                rw [position]
                exact refuses

theorem insert_all_lines (null : Bytes) (rows : List (List Bytes)) : insertAll null rows = writeRawLines (rows.map (generate null)) := by
  induction rows with
  | nil => rfl
  | cons row rest ih => rw [insertAll, ih, List.map_cons, writeRawLines, insert]

theorem generate_no_newline (null : Bytes) (row : List Bytes) : newline ∉ generate null row := by
  intro there
  cases generate_clean null row newline there with
  | inl same => exact absurd same (by decide)
  | inr printable => exact absurd printable.1 (by decide)

-- What the backend reads of lines that are fields with tabs between them.
theorem load_rows {β : Type} (write : β → List Bytes) (rows : List β) (columns : ∀ row ∈ rows, write row ≠ [])
    (fields : ∀ row ∈ rows, ∀ piece ∈ write row, FieldText piece) :
    loadCopy (rows.map fun row => separatedList [tab] (write row) ++ [newline]).flatten = rows.map fun row => (write row).map loadField := by
  have sent : (rows.map fun row => separatedList [tab] (write row) ++ [newline]).flatten =
      (rows.map fun row => separatedList [tab] (write row)).flatMap fun line => line ++ [newline] := by
    rw [List.flatMap_def, List.map_map]
    rfl
  rw [sent, loadCopy, load_lines, List.map_map]
  · apply List.map_congr_left
    intro row there
    exact load_fields (write row) (columns row there) (fields row there)
  · intro line there
    obtain ⟨row, among, rfl⟩ := List.mem_map.mp there
    exact fields_line (write row) (fields row among)

theorem stored_field_meant (null s : Bytes) : storedField null s = meantField null s ↔ s ≠ null → ∀ c ∈ s, octalEscaped c = false := by
  by_cases same : s = null
  · simp only [storedField, meantField, same, if_true, ne_eq, not_true, false_implies]
  · simp only [storedField, meantField, same, if_false, Option.some.injEq, reread_bytes_same, ne_eq, not_false_eq_true, forall_const]

theorem stored_rows_meant (null : Bytes) (rows : List (List Bytes)) :
    (rows.map fun row => row.map (storedField null)) = (rows.map fun row => row.map (meantField null)) ↔
      ∀ row ∈ rows, ∀ s ∈ row, s ≠ null → ∀ c ∈ s, octalEscaped c = false := by
  rw [List.map_inj_left]
  apply forall_congr'
  intro row
  apply imp_congr_right
  intro _
  rw [List.map_inj_left]
  apply forall_congr'
  intro s
  exact imp_congr_right fun _ => stored_field_meant null s

theorem insert_all_stored (null : Bytes) (rows : List (List Bytes)) (accepts : Nat → Bool) (errMsg : String)
    (columns : ∀ row ∈ rows, row ≠ []) (fits : ∀ row ∈ rows, Fits (generate null row)) :
    ∃ n ≤ rows.length,
      loadCopy (insertAll null rows (.opened accepts errMsg)).2.taken.flatten = ((rows.take n).map fun row => row.map (storedField null)) ∧
      (loadCopy (insertAll null rows (.opened accepts errMsg)).2.taken.flatten = ((rows.take n).map fun row => row.map (meantField null)) ↔
        ∀ row ∈ rows.take n, ∀ s ∈ row, s ≠ null → ∀ c ∈ s, octalEscaped c = false) ∧
      ((insertAll null rows (.opened accepts errMsg)).1 = .ok () ∧ n = rows.length ∨
        ∃ e, (insertAll null rows (.opened accepts errMsg)).1 = .error e ∧ ThrownOff (.opened accepts errMsg) e ∧
          n < rows.length ∧ accepts n = false) := by
  have short : ∀ line ∈ rows.map (generate null), Fits (withoutNewline line) := by
    intro line there
    obtain ⟨row, among, rfl⟩ := List.mem_map.mp there
    rw [without_newline_same _ (generate_no_newline null row)]
    exact fits row among
  obtain ⟨n, sent⟩ := write_raw_lines_sent (rows.map (generate null)) (.opened accepts errMsg) ⟨rfl, rfl⟩ short
  rw [← insert_all_lines] at sent
  have within : n ≤ rows.length := by
    have bound := sent.within
    rw [List.length_map] at bound
    exact bound
  have data : (insertAll null rows (.opened accepts errMsg)).2.taken =
      (rows.take n).map fun row => separatedList [tab] (row.map fun s => escape s null) ++ [newline] := by
    rw [sent.taken, ← List.map_take, List.map_map]
    apply List.map_congr_left
    intro row _
    show withoutNewline (generate null row) ++ [newline] = _
    rw [without_newline_same _ (generate_no_newline null row), generate]
  have loaded : loadCopy (insertAll null rows (.opened accepts errMsg)).2.taken.flatten =
      (rows.take n).map fun row => row.map (storedField null) := by
    rw [data, load_rows fun row : List Bytes => row.map fun s => escape s null]
    · apply List.map_congr_left
      intro row _
      rw [List.map_map]
      apply List.map_congr_left
      intro s _
      exact load_escape s null
    · intro row there nothing
      exact columns row (List.mem_of_mem_take there) (List.map_eq_nil_iff.mp nothing)
    · intro row _ piece there
      obtain ⟨s, -, rfl⟩ := List.mem_map.mp there
      exact escape_field s null
  refine ⟨n, within, loaded, ?_, ?_⟩
  · rw [loaded]
    exact stored_rows_meant null (rows.take n)
  · cases sent.ends with
    | inl full => exact .inl ⟨full.1, full.2.trans (List.length_map _)⟩
    | inr cut =>
        obtain ⟨e, failed, thrown, less, refuses⟩ := cut
        rw [List.length_map] at less
        have here : (CopySink.opened accepts errMsg).taken.length + n = n := Nat.zero_add n
        rw [here] at refuses
        exact .inr ⟨e, failed, thrown, less, refuses⟩

theorem insert_all_stored_three :
    ∃ n ≤ 3,
      loadCopy (insertAll [78] [[[97, 9], [78]], [[1], []], [[98]]] (.opened (fun k => decide (k < 2)) "gone")).2.taken.flatten =
        (([[[97, 9], [78]], [[1], []], [[98]]] : List (List Bytes)).take n).map (fun row => row.map (storedField [78])) ∧
      (loadCopy (insertAll [78] [[[97, 9], [78]], [[1], []], [[98]]] (.opened (fun k => decide (k < 2)) "gone")).2.taken.flatten =
          (([[[97, 9], [78]], [[1], []], [[98]]] : List (List Bytes)).take n).map (fun row => row.map (meantField [78])) ↔
        ∀ row ∈ ([[[97, 9], [78]], [[1], []], [[98]]] : List (List Bytes)).take n, ∀ s ∈ row, s ≠ [78] → ∀ c ∈ s, octalEscaped c = false) ∧
      ((insertAll [78] [[[97, 9], [78]], [[1], []], [[98]]] (.opened (fun k => decide (k < 2)) "gone")).1 = .ok () ∧ n = 3 ∨
        ∃ e, (insertAll [78] [[[97, 9], [78]], [[1], []], [[98]]] (.opened (fun k => decide (k < 2)) "gone")).1 = .error e ∧
          ThrownOff (.opened (fun k => decide (k < 2)) "gone") e ∧ n < 3 ∧ decide (n < 2) = false) :=
  insert_all_stored [78] [[[97, 9], [78]], [[1], []], [[98]]] (fun k => decide (k < 2)) "gone" (by decide) (by decide)

theorem insert_from_next (r r' : Tablereader) (w : CopySink) (line : Bytes) (got : r.getRawLine = (.ok (some line), r')) :
    insertFrom r w = match writeRawLine line w with
      | (.error e, w') => (.error e, r', w')
      | (.ok (), w') => insertFrom r' w' := by
  rw [insertFrom]
  split
  · rename_i outcome
    rw [got] at outcome
    cases outcome
  · rename_i outcome
    rw [got] at outcome
    cases outcome
  · rename_i outcome
    rw [got] at outcome
    cases outcome
    rfl

theorem insert_from_end (r r' : Tablereader) (w : CopySink) (ends : Except Exn Unit) (got : r.getRawLine = (ends.map fun _ => none, r')) :
    insertFrom r w = (ends, r', w) := by
  rw [insertFrom]
  cases ends with
  | error e =>
      split
      · rename_i outcome
        rw [got] at outcome
        cases outcome
        rfl
      · rename_i outcome
        rw [got] at outcome
        cases outcome
      · rename_i outcome
        rw [got] at outcome
        cases outcome
  | ok u =>
      split
      · rename_i outcome
        rw [got] at outcome
        cases outcome
      · rename_i outcome
        rw [got] at outcome
        cases outcome
        rfl
      · rename_i outcome
        rw [got] at outcome
        cases outcome

-- Copying from a reader is writing the lines that are left in it, and then ending as it does.
-- A line that could not be written is gone from it too.
theorem insert_from_lines (lines : List Bytes) (r : Tablereader) (w : CopySink) (fresh : r.done = false) (live : r.source.isOpen = true)
    (left : r.source.lines = lines) (taking : w.Taking) (whole : ∀ line ∈ lines, (0 : UInt8) ∉ line)
    (fits : ∀ line ∈ lines, Fits (withoutNewline line)) :
    ∃ r', insertFrom r w = ((writeRawLines lines w).1.bind fun _ => r.ending, r', (writeRawLines lines w).2) ∧
      r'.source.lines = lines.drop ((writeRawLines lines w).2.taken.length - w.taken.length + 1) := by
  induction lines generalizing r w with
  | nil => exact ⟨{ r with done := true }, insert_from_end r _ w r.ending (r.get_raw_line_end fresh live left), left⟩
  | cons line rest ih =>
      have uncut : line.takeWhile (· ≠ 0) = line := by
        rw [List.takeWhile_eq_self_iff]
        intro c there
        rw [decide_eq_true_eq]
        intro zero
        rw [zero] at there
        exact whole line List.mem_cons_self there
      have next := r.get_raw_line_next line rest fresh live left
      rw [uncut] at next
      rw [insert_from_next r _ w line next]
      cases takes : w.accepts w.taken.length with
      | false =>
          obtain ⟨e, outcome, -⟩ := write_copy_line_refused w (withoutNewline line) taking.1 takes
          have all : writeRawLines (line :: rest) w = (.error e, { w with copying := false }) := by
            rw [writeRawLines, Prog.bind_apply, writeRawLine, outcome]
          rw [all, writeRawLine, outcome]
          refine ⟨_, rfl, ?_⟩
          rw [Nat.sub_self]
          rfl
      | true =>
          have outcome := write_copy_line_taken w (withoutNewline line) taking (fits line List.mem_cons_self) takes
          have all : writeRawLines (line :: rest) w =
              writeRawLines rest { w with taken := w.taken ++ [withoutNewline line ++ [newline]] } := by
            rw [writeRawLines, Prog.bind_apply, writeRawLine, outcome]
          rw [all, writeRawLine, outcome]
          have later : ∀ other ∈ rest, Fits (withoutNewline other) := fun other there => fits other (List.mem_cons_of_mem line there)
          obtain ⟨n, sent⟩ := write_raw_lines_sent rest { w with taken := w.taken ++ [withoutNewline line ++ [newline]] } taking later
          obtain ⟨r', same, gone⟩ := ih { source := { r.source with lines := rest }, done := false }
            { w with taken := w.taken ++ [withoutNewline line ++ [newline]] } rfl live rfl taking
            (fun other there => whole other (List.mem_cons_of_mem line there)) later
          refine ⟨r', same, ?_⟩
          rw [gone, sent.taken]
          simp only [List.length_append, List.length_singleton]
          generalize ((rest.take n).map fun line => withoutNewline line ++ [newline]).length = count
          have below : w.taken.length + 1 + count - (w.taken.length + 1) = count := by omega
          have above : w.taken.length + 1 + count - w.taken.length = count + 1 := by omega
          rw [below, above, List.drop_succ_cons]

theorem copy_letter_nonzero (c letter : UInt8) (written : copyLetter c = some letter) : letter ≠ 0 := by
  intro zero
  cases copy_letter_cases c letter written with
  | inl same => exact absurd (same.2.symm.trans zero) (by decide)
  | inr other =>
      have nameless : namedEscape letter = none := by rw [zero]; decide
      rw [nameless] at other
      cases other.2.2.2.2

theorem copy_byte_nonzero (c : UInt8) (nonzero : c ≠ 0) : (0 : UInt8) ∉ copyByte c := by
  intro there
  unfold copyByte at there
  cases written : copyLetter c with
  | none =>
      rw [written] at there
      exact nonzero (List.mem_singleton.mp there).symm
  | some letter =>
      rw [written] at there
      cases List.mem_cons.mp there with
      | inl first => exact absurd first (by decide)
      | inr later => exact copy_letter_nonzero c letter written (List.mem_singleton.mp later).symm

theorem copy_line_nonzero (row : List (Option Bytes)) (clean : ∀ field ∈ row, (0 : UInt8) ∉ field.getD []) : (0 : UInt8) ∉ copyLine row := by
  intro there
  cases List.mem_append.mp there with
  | inr last => exact absurd (List.mem_singleton.mp last) (by decide)
  | inl inside =>
      cases separated_list_bytes inside with
      | inl apart => exact absurd (List.mem_singleton.mp apart) (by decide)
      | inr among =>
          obtain ⟨piece, written, here⟩ := among
          obtain ⟨field, column, rfl⟩ := List.mem_map.mp written
          cases field with
          | none => exact absurd here (by decide)
          | some s =>
              obtain ⟨c, char, zero⟩ := List.mem_flatMap.mp here
              apply copy_byte_nonzero c _ zero
              intro same
              rw [same] at char
              exact clean (some s) column char

-- A table that is copied from one connection to another arrives as it was: every null, every
-- empty field and every byte, in order, as far as the target took the data.
theorem insert_from_copied (rows : List (List (Option Bytes))) (r : Tablereader) (accepts : Nat → Bool) (errMsg : String)
    (fresh : r.done = false) (live : r.source.isOpen = true) (left : r.source.lines = rows.map copyLine)
    (columns : ∀ row ∈ rows, row ≠ []) (clean : ∀ row ∈ rows, ∀ field ∈ row, (0 : UInt8) ∉ field.getD [])
    (fits : ∀ row ∈ rows, (copyLine row).length < 2 ^ 31) :
    ∃ n ≤ rows.length, ∃ outcome r' w', insertFrom r (.opened accepts errMsg) = (outcome, r', w') ∧
      w'.taken = (rows.take n).map copyLine ∧
      loadCopy w'.taken.flatten = rows.take n ∧
      r'.source.lines = (rows.drop (n + 1)).map copyLine ∧
      (outcome = r.ending ∧ n = rows.length ∨
        ∃ e, outcome = .error e ∧ ThrownOff (.opened accepts errMsg) e ∧ n < rows.length ∧ accepts n = false) := by
  have bare : ∀ row : List (Option Bytes), withoutNewline (copyLine row) = separatedList [tab] (row.map copyField) := fun row => without_newline_ended _
  have short : ∀ line ∈ rows.map copyLine, Fits (withoutNewline line) := by
    intro line there
    obtain ⟨row, among, rfl⟩ := List.mem_map.mp there
    have length := fits row among
    rw [copyLine, List.length_append] at length
    rw [bare]
    exact length
  have whole : ∀ line ∈ rows.map copyLine, (0 : UInt8) ∉ line := by
    intro line there
    obtain ⟨row, among, rfl⟩ := List.mem_map.mp there
    exact copy_line_nonzero row (clean row among)
  obtain ⟨n, sent⟩ := write_raw_lines_sent (rows.map copyLine) (.opened accepts errMsg) ⟨rfl, rfl⟩ short
  obtain ⟨r', same, gone⟩ := insert_from_lines (rows.map copyLine) r (.opened accepts errMsg) fresh live left ⟨rfl, rfl⟩ whole short
  have within : n ≤ rows.length := by
    have bound := sent.within
    rw [List.length_map] at bound
    exact bound
  have data : (writeRawLines (rows.map copyLine) (.opened accepts errMsg)).2.taken = (rows.take n).map copyLine := by
    rw [sent.taken, ← List.map_take, List.map_map]
    apply List.map_congr_left
    intro row _
    show withoutNewline (copyLine row) ++ [newline] = copyLine row
    rw [bare, copyLine]
  refine ⟨n, within, _, r', _, same, data, ?_, ?_, ?_⟩
  · rw [data]
    show loadCopy ((rows.take n).map fun row => separatedList [tab] (row.map copyField) ++ [newline]).flatten = rows.take n
    rw [load_rows fun row : List (Option Bytes) => row.map copyField]
    · have back : ∀ row : List (Option Bytes), (row.map copyField).map loadField = row := by
        intro row
        rw [List.map_map]
        exact (List.map_congr_left fun field _ => load_copy_field field).trans (List.map_id row)
      exact (List.map_congr_left fun row _ => back row).trans (List.map_id _)
    · intro row there nothing
      exact columns row (List.mem_of_mem_take there) (List.map_eq_nil_iff.mp nothing)
    · intro row _ piece there
      obtain ⟨field, -, rfl⟩ := List.mem_map.mp there
      exact copy_field_field field
  · have count : (writeRawLines (rows.map copyLine) (.opened accepts errMsg)).2.taken.length - 0 = n := by
      rw [data, List.length_map, List.length_take, Nat.min_eq_left within, Nat.sub_zero]
    rw [gone, List.map_drop]
    exact congrArg (fun k => (rows.map copyLine).drop (k + 1)) count
  · cases sent.ends with
    | inl full =>
        rw [full.1]
        exact .inl ⟨rfl, full.2.trans (List.length_map _)⟩
    | inr cut =>
        obtain ⟨e, failed, thrown, less, refuses⟩ := cut
        have here : (CopySink.opened accepts errMsg).taken.length + n = n := Nat.zero_add n
        rw [List.length_map] at less
        rw [here] at refuses
        rw [failed]
        exact .inr ⟨e, rfl, thrown, less, refuses⟩

theorem insert_from_copied_two :
    ∃ n ≤ 2, ∃ outcome r' w',
      insertFrom { source := { isOpen := true, lines := [[some [1, 9], none], [some [], some [92]]].map copyLine, ends := .results (.ok ()) }, done := false }
          (.opened (fun _ => true) "") = (outcome, r', w') ∧
        w'.taken = ([[some [1, 9], none], [some [], some [92]]].take n).map copyLine ∧
        loadCopy w'.taken.flatten = ([[some [1, 9], none], [some [], some [92]]] : List (List (Option Bytes))).take n ∧
        r'.source.lines = ([[some [1, 9], none], [some [], some [92]]].drop (n + 1)).map copyLine ∧
        (outcome = .ok () ∧ n = 2 ∨ ∃ e, outcome = .error e ∧ ThrownOff (.opened (fun _ => true) "") e ∧ n < 2 ∧ true = false) :=
  insert_from_copied [[some [1, 9], none], [some [], some [92]]]
    { source := { isOpen := true, lines := [[some [1, 9], none], [some [], some [92]]].map copyLine, ends := .results (.ok ()) }, done := false }
    (fun _ => true) "" rfl rfl rfl (by decide) (by decide) (by decide)

end CopySink

end Pqxx
