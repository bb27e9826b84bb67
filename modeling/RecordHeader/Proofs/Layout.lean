import RecordHeader.Text.Lines
import RecordHeader.Text.WhiteSpace
import Mathlib.Tactic

set_option autoImplicit false

/-! # Lines and words as relations

`Text.lines` and `Text.words` cut a text with the list operations of the library.  Here the
same two cuts are stated on the characters of the text, without an algorithm:

* `LinesOf text lines`: the text is the lines in order, each ended by a line feed or by a
  carriage return and a line feed; only the last one may stand without an ending, and then
  it is not empty.
* `WordsOf text words`: the text is the words in order, each a non-empty run free of white
  space, with white space between them and possibly around them.

`linesOf_iff` and `wordsOf_iff` say that each relation holds of exactly one list, the one
that the function computes.  The laws on appended texts (`lines_append`, `words_append`)
are what the parser's laws rest on.
-/

namespace RecordHeader.Text

/-! ## Lines -/

/-- How a text is made of its lines. -/
inductive LinesOf : List Char → List (List Char) → Prop
  /-- The empty text has no line. -/
  | none : LinesOf [] []
  /-- A last line may stand without an ending; a carriage return at its end belongs to it. -/
  | unended {line : List Char} : line ≠ [] → '\n' ∉ line → LinesOf line [line]
  /-- A line that a line feed alone ends. -/
  | lineFeed {line rest : List Char} {lines : List (List Char)} :
      '\n' ∉ line → line.getLast? ≠ some '\r' → LinesOf rest lines →
      LinesOf (line ++ '\n' :: rest) (line :: lines)
  /-- A line that a carriage return and a line feed end. -/
  | carriageReturn {line rest : List Char} {lines : List (List Char)} :
      '\n' ∉ line → LinesOf rest lines →
      LinesOf (line ++ '\r' :: '\n' :: rest) (line :: lines)

/-- Pieces in front of others were all ended by a line feed. -/
theorem endedLines_append {pieces : List (List Char)} (front : List (List Char))
    (h : pieces ≠ []) :
    endedLines (front ++ pieces) = front.map dropCarriageReturn ++ endedLines pieces := by
  induction front with
  | nil => rfl
  | cons piece front ih =>
      have hne : front ++ pieces ≠ [] := by simp [h]
      obtain ⟨next, others, hcons⟩ := List.exists_cons_of_ne_nil hne
      rw [List.cons_append, hcons, endedLines, ← hcons, ih]
      · rfl
      · simp

/-- **Lines at a line feed.** What stands before a line feed is cut for itself, and so is
what stands after it. -/
theorem lines_append_lineFeed (front rest : List Char) :
    lines (front ++ '\n' :: rest)
      = (front.splitOn '\n').map dropCarriageReturn ++ lines rest := by
  rw [lines, List.splitOn_append_cons_self, endedLines_append _ (List.splitOn_ne_nil _ _)]
  rfl

@[simp]
theorem lines_nil : lines [] = [] := rfl

/-- A text without a line feed is one line, unless it is empty. -/
theorem lines_of_not_mem {line : List Char} (hne : line ≠ []) (h : '\n' ∉ line) :
    lines line = [line] := by
  rw [lines, List.splitOn_eq_singleton h]
  simp [endedLines, hne]

/-- The first line, when a line feed ends it. -/
theorem lines_cons {line : List Char} (h : '\n' ∉ line) (rest : List Char) :
    lines (line ++ '\n' :: rest) = dropCarriageReturn line :: lines rest := by
  rw [lines_append_lineFeed, List.splitOn_eq_singleton h]
  rfl

/-- **The lines of two texts, one after the other.** The seam must lie between two lines:
the first text is empty or ends with a line feed. -/
theorem lines_append {front : List Char} (h : front = [] ∨ front.getLast? = some '\n')
    (rest : List Char) : lines (front ++ rest) = lines front ++ lines rest := by
  rcases h with rfl | h
  · rfl
  · obtain ⟨body, rfl⟩ := List.getLast?_eq_some_iff.mp h
    rw [List.append_assoc, List.singleton_append, lines_append_lineFeed, lines_append_lineFeed,
      lines_nil, List.append_nil]

theorem dropCarriageReturn_of_ne {line : List Char} (h : line.getLast? ≠ some '\r') :
    dropCarriageReturn line = line :=
  if_neg h

theorem dropCarriageReturn_append (line : List Char) :
    dropCarriageReturn (line ++ ['\r']) = line := by
  simp [dropCarriageReturn]

/-- The relation holds only of the lines that are computed. -/
theorem lines_of_linesOf {text : List Char} {cut : List (List Char)} (h : LinesOf text cut) :
    lines text = cut := by
  induction h with
  | none => rfl
  | unended hne hline => exact lines_of_not_mem hne hline
  | lineFeed hline hlast _ ih => rw [lines_cons hline, dropCarriageReturn_of_ne hlast, ih]
  | @carriageReturn line rest cut hline _ ih =>
      have hended : '\n' ∉ line ++ ['\r'] := by simp [hline]
      have hseam : line ++ '\r' :: '\n' :: rest = (line ++ ['\r']) ++ '\n' :: rest := by simp
      rw [hseam, lines_cons hended, dropCarriageReturn_append, ih]

/-- The relation holds of the lines that are computed. -/
theorem linesOf_lines (text : List Char) : LinesOf text (lines text) := by
  -- on the length, since a step removes a whole line with its ending
  induction hn : text.length using Nat.strong_induction_on generalizing text with
  | _ n ih =>
      by_cases hmem : '\n' ∈ text
      · obtain ⟨line, rest, rfl, hline⟩ := List.eq_append_cons_of_mem hmem
        have hshort : rest.length < n := by simp at hn; omega
        have hrest := ih rest.length hshort rest rfl
        rw [lines_cons hline]
        by_cases hlast : line.getLast? = some '\r'
        · obtain ⟨body, rfl⟩ := List.getLast?_eq_some_iff.mp hlast
          have hbody : '\n' ∉ body := fun hc => hline (by simp [hc])
          rw [dropCarriageReturn_append, List.append_assoc, List.singleton_append]
          exact LinesOf.carriageReturn hbody hrest
        · rw [dropCarriageReturn_of_ne hlast]
          exact LinesOf.lineFeed hline hlast hrest
      · by_cases hne : text = []
        · subst hne
          exact LinesOf.none
        · rw [lines_of_not_mem hne hmem]
          exact LinesOf.unended hne hmem

/-- **A text has one row of lines**, and `lines` computes it. -/
theorem linesOf_iff {text : List Char} {cut : List (List Char)} :
    LinesOf text cut ↔ lines text = cut := by
  constructor
  · exact lines_of_linesOf
  · rintro rfl
    exact linesOf_lines text

/-! ## Words -/

/-- How a text is made of its words and the white space around them. -/
inductive WordsOf : List Char → List (List Char) → Prop
  /-- White space alone holds no word. -/
  | blank {gap : List Char} : isBlank gap = true → WordsOf gap []
  /-- A word is not empty and free of white space, and white space or the end follows it. -/
  | word {gap word rest : List Char} {words : List (List Char)} :
      isBlank gap = true → word ≠ [] → (∀ c ∈ word, isWhiteSpace c = false) →
      (∀ c, rest.head? = some c → isWhiteSpace c = true) → WordsOf rest words →
      WordsOf (gap ++ (word ++ rest)) (word :: words)

/-- **Words at a white space character.** It parts the words before it from those after
it. -/
theorem words_append {c : Char} (hc : isWhiteSpace c = true) (front rest : List Char) :
    words (front ++ c :: rest) = words front ++ words rest := by
  unfold words
  rw [List.splitOnP_append_cons front rest hc, List.filter_append]

theorem words_cons_of_whiteSpace {c : Char} (hc : isWhiteSpace c = true) (rest : List Char) :
    words (c :: rest) = words rest := by
  have h := words_append hc [] rest
  simpa [words] using h

/-- White space in front of a text adds no word. -/
theorem words_append_of_isBlank {gap : List Char} (h : isBlank gap = true)
    (rest : List Char) : words (gap ++ rest) = words rest := by
  induction gap with
  | nil => rfl
  | cons c gap ih =>
      obtain ⟨hc, hgap⟩ : isWhiteSpace c = true ∧ isBlank gap = true := by
        simpa [isBlank] using h
      rw [List.cons_append, words_cons_of_whiteSpace hc, ih hgap]

theorem words_of_isBlank {gap : List Char} (h : isBlank gap = true) : words gap = [] := by
  have hwords := words_append_of_isBlank h []
  rw [List.append_nil] at hwords
  rw [hwords]
  rfl

/-- A run without white space is one word. -/
theorem words_of_letters {word : List Char} (hne : word ≠ [])
    (h : ∀ c ∈ word, isWhiteSpace c = false) : words word = [word] := by
  rw [words, List.splitOnP_eq_singleton h]
  simp [hne]

/-- A run without white space is the first word, if white space or the end follows it. -/
theorem words_append_of_letters {word rest : List Char} (hne : word ≠ [])
    (h : ∀ c ∈ word, isWhiteSpace c = false)
    (hrest : ∀ c, rest.head? = some c → isWhiteSpace c = true) :
    words (word ++ rest) = word :: words rest := by
  cases rest with
  | nil =>
      rw [List.append_nil, words_of_letters hne h]
      rfl
  | cons c rest =>
      have hc : isWhiteSpace c = true := hrest c rfl
      rw [words_append hc, words_of_letters hne h, words_cons_of_whiteSpace hc]
      rfl

/-- The relation holds only of the words that are computed. -/
theorem words_of_wordsOf {text : List Char} {cut : List (List Char)} (h : WordsOf text cut) :
    words text = cut := by
  induction h with
  | blank hgap => exact words_of_isBlank hgap
  | word hgap hne hword hrest _ ih =>
      rw [words_append_of_isBlank hgap, words_append_of_letters hne hword hrest, ih]

/-- The white space at the front of a text, and the run of other characters after it. -/
theorem exists_gap_word (text : List Char) :
    ∃ gap word rest, text = gap ++ (word ++ rest) ∧ isBlank gap = true ∧
      (∀ c ∈ word, isWhiteSpace c = false) ∧
      (∀ c, rest.head? = some c → isWhiteSpace c = true) ∧ (word = [] → rest = []) := by
  have hhead : ∀ (p : Char → Bool) (l : List Char) (c : Char),
      (l.dropWhile p).head? = some c → p c = false := by
    intro p l c hc
    by_contra hp
    have := List.head?_dropWhile_not p l
    rw [hc] at this
    simp [hp] at this
  refine ⟨text.takeWhile isWhiteSpace,
    (text.dropWhile isWhiteSpace).takeWhile fun c => !isWhiteSpace c,
    (text.dropWhile isWhiteSpace).dropWhile fun c => !isWhiteSpace c, ?_, ?_, ?_, ?_, ?_⟩
  · rw [List.takeWhile_append_dropWhile, List.takeWhile_append_dropWhile]
  · exact List.all_takeWhile
  · intro c hc
    simpa using List.all_eq_true.mp List.all_takeWhile c hc
  · intro c hc
    simpa using hhead _ _ c hc
  · intro hword
    cases hdrop : text.dropWhile isWhiteSpace with
    | nil => rfl
    | cons c rest =>
        have hc : isWhiteSpace c = false := hhead _ text c (by rw [hdrop]; rfl)
        simp [hdrop, hc] at hword

/-- The relation holds of the words that are computed. -/
theorem wordsOf_words (text : List Char) : WordsOf text (words text) := by
  -- on the length, since a step removes a whole word
  induction hn : text.length using Nat.strong_induction_on generalizing text with
  | _ n ih =>
      obtain ⟨gap, word, rest, rfl, hgap, hword, hrest, hnil⟩ := exists_gap_word text
      by_cases hne : word = []
      · rw [hne, hnil hne, List.append_nil, List.append_nil, words_of_isBlank hgap]
        exact WordsOf.blank hgap
      · have hpos : 0 < word.length := List.length_pos_iff.mpr hne
        have hshort : rest.length < n := by simp at hn; omega
        rw [words_append_of_isBlank hgap, words_append_of_letters hne hword hrest]
        exact WordsOf.word hgap hne hword hrest (ih rest.length hshort rest rfl)

/-- **A text has one row of words**, and `words` computes it. -/
theorem wordsOf_iff {text : List Char} {cut : List (List Char)} :
    WordsOf text cut ↔ words text = cut := by
  constructor
  · exact words_of_wordsOf
  · rintro rfl
    exact wordsOf_words text

/-- The blank texts are those without words. -/
theorem words_eq_nil_iff {text : List Char} : words text = [] ↔ isBlank text = true := by
  constructor
  · intro h
    cases wordsOf_iff.mpr h with
    | blank hgap => exact hgap
  · exact words_of_isBlank

end RecordHeader.Text
