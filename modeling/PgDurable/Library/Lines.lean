import PgDurable.Library.Text

/-!
# Lines of a text

`lines` cuts a text at its line breaks, and `padLines` puts the lines together again as a block of
one width. A word without a line break that does not end in white space is in one of the lines
(`infix_lines`), and so in the block.
-/

namespace PgDurable.Text

/-- Add a character at the front of the first line. -/
def pushFirst (c : Char) : List (List Char) → List (List Char)
  | [] => [[c]]
  | line :: others => (c :: line) :: others

/-- The lines of a text; a carriage return before a line break belongs to the break. -/
def lines : List Char → List (List Char)
  | [] => []
  | c :: text =>
      if c = '\n' then [] :: lines text
      else if c = '\r' ∧ text.head? = some '\n' then lines text
      else pushFirst c (lines text)

/-- The text without white space at its end. -/
def trimEnd (text : List Char) : List Char := (text.reverse.dropWhile isWhitespace).reverse

/-- Fill up with blanks on the right. -/
def padRight (width : Nat) (line : List Char) : List Char :=
  line ++ List.replicate (width - line.length) ' '

/-- The lines of the text, filled up to the longest one and four more characters. -/
def padLines (text : List Char) : List Char :=
  let lines := lines (trimEnd text)
  let width := (lines.map List.length).foldl max 0 + 4
  ['\n'].intercalate (lines.map (padRight width))

/-! ## Words in a line -/

/-- The word has a last character, which is not white space. -/
def EndsSolid (word : List Char) : Prop :=
  ∃ front last, word = front ++ [last] ∧ isWhitespace last = false

theorem infix_push_first {c : Char} {line word : List Char} {others : List (List Char)}
    (hline : line ∈ others) (hword : word <:+: line) :
    ∃ line ∈ pushFirst c others, word <:+: line := by
  cases others with
  | nil => cases hline
  | cons first others =>
      rcases List.mem_cons.1 hline with rfl | hlater
      · exact ⟨c :: line, List.mem_cons_self, hword.trans (List.suffix_cons c line).isInfix⟩
      · exact ⟨line, List.mem_cons_of_mem _ hlater, hword⟩

/-- A text that starts with the word has a first line that does. -/
theorem lines_word {word : List Char} (hbreak : '\n' ∉ word) (hsolid : EndsSolid word)
    (rest : List Char) : ∃ line others, lines (word ++ rest) = (word ++ line) :: others := by
  induction word with
  | nil =>
      obtain ⟨front, last, h, -⟩ := hsolid
      exact absurd h.symm (List.append_ne_nil_of_right_ne_nil front (List.cons_ne_nil last []))
  | cons c word ih =>
      have hc : c ≠ '\n' := fun h => hbreak (by rw [h]; exact List.mem_cons_self)
      have hword : '\n' ∉ word := fun h => hbreak (List.mem_cons_of_mem _ h)
      rw [List.cons_append, lines, if_neg hc]
      by_cases hnil : word = []
      · -- The word is its last character.
        subst hnil
        obtain ⟨front, last, h, hlast⟩ := hsolid
        have hfront : front = [] := by
          have hlength := congrArg List.length h
          rw [List.length_append, List.length_singleton, List.length_singleton] at hlength
          exact List.length_eq_zero_iff.1 (by omega)
        rw [hfront, List.nil_append] at h
        have hreturn : ¬ (c = '\r' ∧ (([] : List Char) ++ rest).head? = some '\n') := by
          rintro ⟨hc, -⟩
          rw [hc] at h
          rw [← List.head_eq_of_cons_eq h] at hlast
          exact absurd hlast (by decide)
        rw [if_neg hreturn, List.nil_append]
        cases lines rest with
        | nil => exact ⟨[], [], rfl⟩
        | cons first others => exact ⟨first, others, rfl⟩
      · have hsolid' : EndsSolid word := by
          obtain ⟨front, last, h, hlast⟩ := hsolid
          cases front with
          | nil => exact absurd (List.tail_eq_of_cons_eq h) hnil
          | cons _ front => exact ⟨front, last, List.tail_eq_of_cons_eq h, hlast⟩
        have hreturn : ¬ (c = '\r' ∧ (word ++ rest).head? = some '\n') := by
          rintro ⟨-, hhead⟩
          obtain ⟨first, word', rfl⟩ := List.exists_cons_of_ne_nil hnil
          rw [List.cons_append, List.head?_cons] at hhead
          exact hword (by rw [Option.some.inj hhead]; exact List.mem_cons_self)
        obtain ⟨line, others, hlines⟩ := ih hword hsolid'
        rw [if_neg hreturn, hlines]
        exact ⟨line, others, rfl⟩

/-- A word without a line break that does not end in white space is in a line of the text. -/
theorem infix_lines {word : List Char} (hbreak : '\n' ∉ word) (hsolid : EndsSolid word)
    (front rest : List Char) : ∃ line ∈ lines (front ++ (word ++ rest)), word <:+: line := by
  induction front with
  | nil =>
      obtain ⟨line, others, h⟩ := lines_word hbreak hsolid rest
      rw [List.nil_append, h]
      exact ⟨word ++ line, List.mem_cons_self, (List.prefix_append word line).isInfix⟩
  | cons c front ih =>
      obtain ⟨line, hline, hword⟩ := ih
      rw [List.cons_append, lines]
      split
      · exact ⟨line, List.mem_cons_of_mem _ hline, hword⟩
      split
      · exact ⟨line, hline, hword⟩
      · exact infix_push_first hline hword

/-- White space at the end of the text is not part of such a word. -/
theorem infix_trim_end {word : List Char} (hsolid : EndsSolid word) (front rest : List Char) :
    ∃ rest', trimEnd (front ++ (word ++ rest)) = front ++ (word ++ rest') := by
  obtain ⟨start, last, rfl, hlast⟩ := hsolid
  rw [trimEnd, List.reverse_append, List.reverse_append, List.reverse_append, List.append_assoc,
    List.dropWhile_append]
  split
  · refine ⟨[], ?_⟩
    rw [List.reverse_singleton, List.append_assoc, List.singleton_append,
      List.dropWhile_cons_of_neg (by rw [hlast]; decide)]
    simp
  · refine ⟨(rest.reverse.dropWhile isWhitespace).reverse, ?_⟩
    simp

theorem infix_intercalate {separator line : List Char} {lines : List (List Char)}
    (hline : line ∈ lines) : line <:+: separator.intercalate lines := by
  refine List.infix_of_mem_flatten ?_
  induction lines with
  | nil => cases hline
  | cons first others ih =>
      cases others with
      | nil => exact hline
      | cons second others =>
          rw [List.intersperse_cons_cons]
          rcases List.mem_cons.1 hline with rfl | hlater
          · exact List.mem_cons_self
          · exact List.mem_cons_of_mem _ (List.mem_cons_of_mem _ (ih hlater))

/-- A word without a line break that does not end in white space is in the block. -/
theorem infix_pad_lines {word text : List Char} (hbreak : '\n' ∉ word) (hsolid : EndsSolid word)
    (hword : word <:+: text) : word <:+: padLines text := by
  obtain ⟨front, rest, rfl⟩ := hword
  rw [List.append_assoc]
  obtain ⟨rest', htrim⟩ := infix_trim_end hsolid front rest
  obtain ⟨line, hline, hword⟩ := infix_lines hbreak hsolid front rest'
  rw [padLines, htrim]
  have hpadded : ∀ width, word <:+: padRight width line :=
    fun _ => hword.trans (List.prefix_append line _).isInfix
  exact (hpadded _).trans (infix_intercalate (List.mem_map_of_mem hline))

end PgDurable.Text
