import Pqxx.CopyRoundTrip

set_option autoImplicit false

namespace Pqxx

-- How a null is written.
def nullPiece : Bytes := [backslash, 78]

def Printable (b : UInt8) : Prop := 32 ≤ b.toNat ∧ b.toNat ≤ 126

theorem octal_printable (c n : UInt8) : Printable (tooctdigit c n) := by
  obtain ⟨low, high⟩ := tooctdigit_range c n
  exact ⟨by omega, by omega⟩

theorem backslash_printable : Printable backslash := ⟨by decide, by decide⟩

theorem escapechar_printable (c : UInt8) (named : escapechar c ≠ 0) : Printable (escapechar c) := by
  rcases escapechar_cases c named with rfl | rfl | rfl | rfl | rfl | rfl | rfl
  all_goals exact ⟨by decide, by decide⟩

-- One case for each branch of the loop in Escape.
theorem escape_byte_printable (c b : UInt8) (written : b ∈ escapeByte c) : Printable b := by
  by_cases named : escapechar c = 0
  · cases odd : unprintable c with
    | true =>
        simp only [escapeByte, named, odd, ne_eq, not_true, if_false, if_true, List.mem_cons, List.not_mem_nil, or_false] at written
        rcases written with rfl | rfl | rfl | rfl | rfl
        · exact backslash_printable
        · exact backslash_printable
        · exact octal_printable c 2
        · exact octal_printable c 1
        · exact octal_printable c 0
    | false =>
        simp only [escapeByte, named, odd, ne_eq, not_true, if_false, Bool.false_eq_true, List.mem_singleton] at written
        simp only [unprintable, Bool.or_eq_false_iff, decide_eq_false_iff_not, Nat.not_lt, gt_iff_lt] at odd
        rw [written]
        exact odd
  · simp only [escapeByte, named, ne_eq, not_false_eq_true, if_true, List.mem_cons, List.not_mem_nil, or_false] at written
    rcases written with rfl | rfl
    · exact backslash_printable
    · exact escapechar_printable c named

theorem escape_printable (s null : Bytes) (b : UInt8) (written : b ∈ escape s null) : Printable b := by
  rw [escape] at written
  split at written
  · rcases List.mem_cons.mp written with rfl | later
    · exact backslash_printable
    · rw [List.mem_singleton.mp later]
      exact ⟨by decide, by decide⟩
  · split at written
    · rename_i empty
      rw [empty] at written
      cases written
    · obtain ⟨c, -, here⟩ := List.mem_flatMap.mp written
      exact escape_byte_printable c b here

-- A backslash is never followed by an N: what follows it is a letter that names an escape,
-- or the second of two backslashes.
theorem escape_bytes_not_null (c : UInt8) (s : Bytes) : (c :: s).flatMap escapeByte ≠ nullPiece := by
  intro same
  rw [List.flatMap_cons] at same
  by_cases named : escapechar c = 0
  · cases odd : unprintable c with
    | true =>
        simp only [escapeByte, named, odd, ne_eq, not_true, if_false, if_true, List.cons_append, nullPiece] at same
        obtain ⟨second, -⟩ := List.cons.inj (List.cons.inj same).2
        exact absurd second (by decide)
    | false =>
        simp only [escapeByte, named, odd, ne_eq, not_true, if_false, Bool.false_eq_true, List.cons_append, nullPiece] at same
        rw [(List.cons.inj same).1] at named
        exact absurd named (by decide)
  · simp only [escapeByte, named, ne_eq, not_false_eq_true, if_true, List.cons_append, nullPiece] at same
    obtain ⟨second, -⟩ := List.cons.inj (List.cons.inj same).2
    rcases escapechar_cases c named with rfl | rfl | rfl | rfl | rfl | rfl | rfl
    all_goals exact absurd second (by decide)

theorem escape_null (s null : Bytes) : escape s null = nullPiece ↔ s = null := by
  constructor
  · intro written
    by_cases same : s = null
    · exact same
    · rw [escape, if_neg same] at written
      cases s with
      | nil => exact absurd written (by decide)
      | cons c s =>
          rw [if_neg (List.cons_ne_nil c s)] at written
          exact absurd written (escape_bytes_not_null c s)
  · intro same
    rw [escape, if_pos same, nullPiece]

theorem separated_list_intercalate (sep : Bytes) (items : List Bytes) : separatedList sep items = sep.intercalate items := by
  induction items with
  | nil => rfl
  | cons item rest ih =>
      cases rest with
      | nil => rw [separatedList, List.intercalate_singleton]
      | cons next rest => rw [separatedList, ih, List.intercalate_cons_cons]

theorem separated_list_count (mark : UInt8) (items : List Bytes) (clear : ∀ item ∈ items, mark ∉ item) :
    (separatedList [mark] items).count mark = items.length - 1 := by
  induction items with
  | nil => rfl
  | cons item rest ih =>
      have none : item.count mark = 0 := List.count_eq_zero.mpr (clear item List.mem_cons_self)
      cases rest with
      | nil => rw [separatedList, none]; rfl
      | cons next rest =>
          have others := ih fun other there => clear other (List.mem_cons_of_mem item there)
          rw [separatedList, List.count_append, List.count_append, none, others, List.count_singleton_self]
          simp only [List.length_cons]
          omega

theorem separated_list_bytes {sep : Bytes} {items : List Bytes} {b : UInt8} (there : b ∈ separatedList sep items) :
    b ∈ sep ∨ ∃ item ∈ items, b ∈ item := by
  induction items with
  | nil => cases there
  | cons item rest ih =>
      cases rest with
      | nil => exact .inr ⟨item, List.mem_cons_self, there⟩
      | cons next rest =>
          rw [separatedList, List.mem_append, List.mem_append] at there
          rcases there with (here | apart) | later
          · exact .inr ⟨item, List.mem_cons_self, here⟩
          · exact .inl apart
          · rcases ih later with apart | ⟨other, among, inside⟩
            · exact .inl apart
            · exact .inr ⟨other, List.mem_cons_of_mem item among, inside⟩

-- A line of COPY text as a reader takes it apart: at its tabs.
structure Framed (null : Bytes) (row : List Bytes) (line : Bytes) : Prop where
  boundaries : line.count tab = row.length - 1
  clean : ∀ b ∈ line, b ≠ newline ∧ b ≠ 13 ∧ b ≠ 0 ∧ b.toNat < 128
  pieces : (line.splitOn tab).length = row.length
  nulls : ∀ i : Nat, (line.splitOn tab)[i]? = some nullPiece ↔ row[i]? = some null

theorem escape_no_tab (s null : Bytes) : tab ∉ escape s null := by
  intro there
  exact absurd (escape_printable s null tab there).1 (by decide)

theorem generate_pieces (null : Bytes) (row : List Bytes) (nonempty : row ≠ []) :
    (generate null row).splitOn tab = row.map fun s => escape s null := by
  rw [generate, separated_list_intercalate]
  apply List.splitOn_intercalate
  · intro piece among
    obtain ⟨s, -, rfl⟩ := List.mem_map.mp among
    exact escape_no_tab s null
  · intro none
    exact nonempty (List.map_eq_nil_iff.mp none)

theorem generate_clean (null : Bytes) (row : List Bytes) (b : UInt8) (there : b ∈ generate null row) : b = tab ∨ Printable b := by
  rcases separated_list_bytes there with apart | ⟨piece, among, inside⟩
  · exact .inl (List.mem_singleton.mp apart)
  · obtain ⟨s, -, rfl⟩ := List.mem_map.mp among
    exact .inr (escape_printable s null b inside)

theorem generate_framed (null : Bytes) (row : List Bytes) (nonempty : row ≠ []) : Framed null row (generate null row) := by
  have pieces := generate_pieces null row nonempty
  constructor
  · rw [generate, separated_list_count, List.length_map]
    intro piece among
    obtain ⟨s, -, rfl⟩ := List.mem_map.mp among
    exact escape_no_tab s null
  · intro b there
    rcases generate_clean null row b there with rfl | ⟨low, high⟩
    · exact ⟨by decide, by decide, by decide, by decide⟩
    · refine ⟨?_, ?_, ?_, by omega⟩
      all_goals
        rintro rfl
        exact absurd low (by decide)
  · rw [pieces, List.length_map]
  · intro i
    rw [pieces, List.getElem?_map, Option.map_eq_some_iff]
    constructor
    · rintro ⟨s, there, written⟩
      rw [there, (escape_null s null).mp written]
    · intro there
      exact ⟨null, there, (escape_null null null).mpr rfl⟩

theorem generate_framed_escapes :
    Framed [backslash, 78] [[backslash, 78], [92, 9, 10, 0, 200], [], [78]]
      (generate [backslash, 78] [[backslash, 78], [92, 9, 10, 0, 200], [], [78]]) :=
  generate_framed _ _ (by decide)

end Pqxx
