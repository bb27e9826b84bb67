import RecordHeader.Proofs.Faithful
import RecordHeader.Proofs.Layout
import Mathlib.Data.List.DropRight
import Mathlib.Tactic

set_option autoImplicit false

/-! # Searching and cutting texts

A reader that knows nothing of how a text was made looks for marks in it: the first occurrence of
some characters (`List.dropInfix?`), the last occurrence of one (`cutLast?`), every occurrence of
a separator (`pieces`).  This file says what such a reader finds.

A mark that ends with a line feed can only be found where a line of the text ends with it
(`exists_line_of_unlines_eq`), so a search for whole lines in a row of lines is decided by looking
at the lines.
-/

namespace RecordHeader.Text

/-! ## Rows of lines -/

/-- The text of a row of lines, each ended by a line feed. -/
def unlines (rows : List (List Char)) : List Char :=
  rows.flatMap (· ++ ['\n'])

@[simp]
theorem unlines_nil : unlines [] = [] := rfl

@[simp]
theorem unlines_cons (row : List Char) (rows : List (List Char)) :
    unlines (row :: rows) = row ++ '\n' :: unlines rows := by
  simp [unlines]

@[simp]
theorem unlines_append (rows others : List (List Char)) :
    unlines (rows ++ others) = unlines rows ++ unlines others := by
  simp [unlines]

/-- Texts of one line each, one after the other. -/
theorem toList_join_map {α : Type} {text : α → String} {row : α → List Char} {entries : List α}
    (h : ∀ x ∈ entries, (text x).toList = row x ++ ['\n']) :
    (String.join (entries.map text)).toList = unlines (entries.map row) := by
  rw [String.toList_join, List.flatMap_map, unlines, List.flatMap_map]
  exact List.flatMap_congr h

/-- Lines that do not end with a carriage return are read as they were written. -/
theorem lines_unlines {rows : List (List Char)}
    (h : ∀ row ∈ rows, '\n' ∉ row ∧ row.getLast? ≠ some '\r') : lines (unlines rows) = rows := by
  induction rows with
  | nil => rfl
  | cons row rows ih =>
      obtain ⟨hfeed, hreturn⟩ := h row (by simp)
      rw [unlines_cons, lines_cons hfeed, dropCarriageReturn_of_ne hreturn,
        ih fun other hother => h other (by simp [hother])]

section Occurrences

variable {rows : List (List Char)} {front mark next back : List Char}

/-- **A mark at a line feed is the end of a line.** -/
theorem exists_line_of_unlines_eq (hrows : ∀ row ∈ rows, '\n' ∉ row) (hmark : '\n' ∉ mark)
    (h : unlines rows = front ++ (mark ++ '\n' :: back)) :
    ∃ before last after, rows = before ++ (last ++ mark) :: after ∧
      front = unlines before ++ last ∧ back = unlines after := by
  induction rows generalizing front with
  | nil => simp at h
  | cons row rows ih =>
      have hrow : '\n' ∉ row := hrows row (by simp)
      rw [unlines_cons] at h
      by_cases hfront : '\n' ∈ front
      · -- the first line lies in front of the mark
        obtain ⟨line, rest, rfl, hline⟩ := List.eq_append_cons_of_mem hfront
        rw [List.append_assoc, List.cons_append] at h
        obtain ⟨rfl, hrest⟩ := append_cons_inj_of_not_mem_left hrow hline h
        obtain ⟨before, last, after, rfl, rfl, rfl⟩ :=
          ih (fun other hother => hrows other (by simp [hother])) hrest
        exact ⟨row :: before, last, after, rfl, by simp, rfl⟩
      · have hend : '\n' ∉ front ++ mark := by simp [hfront, hmark]
        rw [← List.append_assoc] at h
        obtain ⟨rfl, rfl⟩ := append_cons_inj_of_not_mem_left hrow hend h
        exact ⟨[], front, rows, rfl, rfl, rfl⟩

end Occurrences

/-- A row is cut behind a front that does not hold the line where it is cut. -/
theorem exists_of_append_eq_append_cons {α : Type} {x : α} {front rest before after : List α}
    (hx : x ∉ front) (h : front ++ rest = before ++ x :: after) :
    ∃ between, before = front ++ between ∧ rest = between ++ x :: after := by
  rcases List.append_eq_append_iff.mp h with ⟨between, hbefore, hrest⟩ | ⟨between, rfl, hafter⟩
  · exact ⟨between, hbefore, hrest⟩
  · cases between with
    | nil => exact ⟨[], by simp, by simpa using hafter.symm⟩
    | cons y between =>
        obtain rfl : x = y := (List.cons.inj hafter).1
        simp at hx

/-! ## The first occurrence of a mark -/

section Marks

variable {text mark front back : List Char}

/-- An occurrence with none before it is the one that is found. -/
theorem dropInfix?_eq_some_of_forall_le (h : text = front ++ (mark ++ back))
    (hfirst : ∀ front' back', text = front' ++ (mark ++ back') → front.length ≤ front'.length) :
    text.dropInfix? mark = some (front, back) := by
  rw [List.dropInfix?_eq_some_iff]
  refine ⟨⟨mark, by rw [h, List.append_assoc], by simp⟩, ?_⟩
  intro front' mark' back' htext hmark
  obtain rfl : mark' = mark := eq_of_beq hmark
  exact hfirst front' back' (by rw [htext, List.append_assoc])

theorem eq_of_dropInfix?_eq_some (h : text.dropInfix? mark = some (front, back)) :
    text = front ++ (mark ++ back) := by
  obtain ⟨⟨mark', htext, hmark⟩, -⟩ := List.dropInfix?_eq_some_iff.mp h
  obtain rfl : mark' = mark := eq_of_beq hmark
  rw [htext, List.append_assoc]

theorem length_lt_of_dropInfix?_eq_some (hmark : mark ≠ [])
    (h : text.dropInfix? mark = some (front, back)) : back.length < text.length := by
  have hlength := congrArg List.length (eq_of_dropInfix?_eq_some h)
  have hpositive := List.length_pos_iff.mpr hmark
  simp only [List.length_append] at hlength
  omega

/-- A mark whose first character is not in front of it is found. -/
theorem dropInfix?_append_cons {c : Char} (hfront : c ∉ front) :
    (front ++ (c :: mark ++ back)).dropInfix? (c :: mark) = some (front, back) := by
  refine dropInfix?_eq_some_of_forall_le rfl ?_
  intro front' back' htext
  obtain ⟨between, rfl, -⟩ := exists_of_append_eq_append_cons hfront htext
  simp

theorem dropInfix?_of_not_mem {c : Char} (h : c ∉ text) : text.dropInfix? (c :: mark) = none := by
  cases hfound : text.dropInfix? (c :: mark) with
  | none => rfl
  | some found =>
      have htext := eq_of_dropInfix?_eq_some hfound
      exact absurd (htext ▸ by simp) h

theorem dropSuffix?_append (front mark : List Char) :
    (front ++ mark).dropSuffix? mark = some front :=
  List.dropSuffix?_eq_some_iff.mpr ⟨mark, rfl, by simp⟩

end Marks

/-! ## Two characters side by side -/

section Pairs

variable {c d : Char} {front middle back : List Char}

/-- Two characters that stand side by side in a text stand so in its middle part, if the second one
is in neither of the other parts and the first one does not end the front. -/
theorem pair_infix_of_append (hfront : d ∉ front) (hlast : front.getLast? ≠ some c)
    (hback : d ∉ back) (h : [c, d] <:+: front ++ (middle ++ back)) : [c, d] <:+: middle := by
  obtain ⟨before, after, heq⟩ := h
  have hcut : front ++ (middle ++ back) = (before ++ [c]) ++ d :: after := by
    rw [← heq, List.append_assoc, List.append_assoc]
    rfl
  obtain ⟨between, hbetween, hrest⟩ := exists_of_append_eq_append_cons hfront hcut
  rcases List.eq_nil_or_concat between with rfl | ⟨between, last, rfl⟩
  · -- the first character would end the front
    rw [List.append_nil] at hbetween
    exact absurd (by rw [← hbetween, List.getLast?_concat]) hlast
  · rw [List.concat_eq_append, ← List.append_assoc] at hbetween
    obtain ⟨-, hc⟩ := List.append_inj' hbetween rfl
    obtain rfl : c = last := List.singleton_inj.mp hc
    rw [List.concat_eq_append] at hrest
    rcases List.append_eq_append_iff.mp hrest with ⟨others, -, hback'⟩ | ⟨others, hmiddle, hafter⟩
    · exact absurd (hback' ▸ by simp) hback
    · cases others with
      | nil =>
          rw [List.nil_append] at hafter
          exact absurd (hafter ▸ by simp) hback
      | cons other others =>
          obtain rfl : d = other := (List.cons.inj hafter).1
          exact ⟨between, others, by rw [hmiddle, List.append_assoc, List.append_assoc]; rfl⟩

/-- Two different characters side by side are found where nothing in front has them so. -/
theorem dropInfix?_pair_iff (hne : c ≠ d) :
    (front ++ ([c, d] ++ back)).dropInfix? [c, d] = some (front, back) ↔ ¬ [c, d] <:+: front := by
  constructor
  · rintro h ⟨before, after, rfl⟩
    obtain ⟨-, hfirst⟩ := List.dropInfix?_eq_some_iff.mp h
    have hle := hfirst before [c, d] (after ++ ([c, d] ++ back)) (by simp) (by simp)
    simp only [List.length_append, List.length_cons, List.length_nil] at hle
    omega
  · intro hnot
    refine dropInfix?_eq_some_of_forall_le rfl ?_
    intro front' back' htext
    rcases List.append_eq_append_iff.mp htext with ⟨others, hfront', -⟩ | ⟨others, hfront, hrest⟩
    · rw [hfront', List.length_append]
      omega
    · -- an earlier one would reach into the front by one character or by both
      match others, hrest with
      | [], _ => rw [hfront, List.append_nil]
      | [other], hrest =>
          obtain ⟨-, htail⟩ := List.cons.inj hrest
          exact absurd (List.cons.inj htail).1.symm hne
      | first :: second :: others, hrest =>
          obtain ⟨rfl, htail⟩ := List.cons.inj hrest
          obtain ⟨rfl, -⟩ := List.cons.inj htail
          exact absurd ⟨front', others, by rw [hfront, List.append_assoc]; rfl⟩ hnot

end Pairs

/-! ## Pieces between separators -/

/-- No piece between the occurrences of a character holds it. -/
theorem not_mem_of_mem_splitOn {c : Char} {text piece : List Char} (h : piece ∈ text.splitOn c) :
    c ∉ piece := by
  -- on the length, since each step goes on behind the first occurrence
  induction hn : text.length using Nat.strong_induction_on generalizing text with
  | _ n ih =>
      by_cases hc : c ∈ text
      · obtain ⟨first, rest, rfl, hfirst⟩ := List.eq_append_cons_of_mem hc
        rw [List.splitOn_append_cons_self_of_not_mem hfirst] at h
        rcases List.mem_cons.mp h with rfl | h
        · exact hfirst
        · rw [List.length_append, List.length_cons] at hn
          exact ih rest.length (by omega) h rfl
      · rw [List.splitOn_eq_singleton hc] at h
        rwa [List.mem_singleton.mp h]

/-- The pieces of a text between the occurrences of a separator, from left to right. -/
def pieces (separator text : List Char) : List (List Char) :=
  if hempty : separator = [] then [text]
  else
    match hfound : text.dropInfix? separator with
    | none => [text]
    | some (piece, rest) =>
      have := length_lt_of_dropInfix?_eq_some hempty hfound
      piece :: pieces separator rest
termination_by text.length

section Pieces

variable {c : Char} {separator : List Char}

theorem pieces_of_not_mem {text : List Char} (h : c ∉ text) :
    pieces (c :: separator) text = [text] := by
  rw [pieces, dif_neg (by simp)]
  split
  · rfl
  · next hfound => rw [dropInfix?_of_not_mem h] at hfound; cases hfound

theorem pieces_append {piece : List Char} (h : c ∉ piece) (rest : List Char) :
    pieces (c :: separator) (piece ++ (c :: separator ++ rest))
      = piece :: pieces (c :: separator) rest := by
  rw [pieces, dif_neg (by simp)]
  split
  · next hfound => rw [dropInfix?_append_cons h] at hfound; cases hfound
  · next hfound =>
      rw [dropInfix?_append_cons h] at hfound
      cases hfound
      rfl

/-- **What was put between separators is read back**, when the separator's first character is in
none of the pieces. -/
theorem pieces_intercalate {row : List (List Char)} (hne : row ≠ [])
    (h : ∀ piece ∈ row, c ∉ piece) :
    pieces (c :: separator) ((c :: separator).intercalate row) = row := by
  induction row with
  | nil => exact absurd rfl hne
  | cons piece row ih =>
      have hpiece : c ∉ piece := h piece (by simp)
      cases row with
      | nil => rw [List.intercalate_singleton, pieces_of_not_mem hpiece]
      | cons next row =>
          rw [List.intercalate_cons_cons, List.append_assoc, pieces_append hpiece,
            ih (by simp) fun other hother => h other (by simp [hother])]

end Pieces

/-! ## The last occurrence of a character, and white space around a text -/

/-- What stands before and what stands after the last occurrence of a character. -/
def cutLast? (c : Char) (text : List Char) : Option (List Char × List Char) :=
  if c ∈ text then some ((text.rdropWhile (· != c)).dropLast, text.rtakeWhile (· != c))
  else none

theorem rdropWhile_append {p : Char → Bool} {back : List Char} (front : List Char)
    (h : ∀ c ∈ back, p c = true) : (front ++ back).rdropWhile p = front.rdropWhile p := by
  rw [List.rdropWhile, List.reverse_append, List.dropWhile_append_of_pos (by simpa using h),
    List.rdropWhile]

theorem cutLast?_append {c : Char} {back : List Char} (front : List Char) (h : c ∉ back) :
    cutLast? c (front ++ c :: back) = some (front, back) := by
  have hback : ∀ other ∈ back, (other != c) = true := by
    intro other hother
    rw [bne_iff_ne]
    rintro rfl
    exact h hother
  have hdrop : (front ++ c :: back).rdropWhile (· != c) = front ++ [c] := by
    rw [List.append_cons, rdropWhile_append _ hback]
    exact List.rdropWhile_concat_neg _ _ _ (by simp)
  have htake : (front ++ c :: back).rtakeWhile (· != c) = back := by
    rw [List.rtakeWhile, List.reverse_append, List.reverse_cons, List.append_assoc,
      List.takeWhile_append_of_pos (by simpa using hback)]
    simp
  rw [cutLast?, if_pos (by simp), hdrop, htake, List.dropLast_concat]

/-- A text without the white space around it. -/
def trim (text : List Char) : List Char :=
  (text.dropWhile isWhiteSpace).rdropWhile isWhiteSpace

theorem trim_append {gap core : List Char} {first last : Char} (hgap : isBlank gap = true)
    (hfirst : core.head? = some first) (hfirst' : isWhiteSpace first = false)
    (hlast : core.getLast? = some last) (hlast' : isWhiteSpace last = false) :
    trim (gap ++ core) = core := by
  obtain ⟨rest, rfl⟩ := List.getLast?_eq_some_iff.mp hlast
  have hdrop : (gap ++ (rest ++ [last])).dropWhile isWhiteSpace = rest ++ [last] := by
    rw [List.dropWhile_append_of_pos (by simpa [isBlank] using hgap)]
    cases hcore : rest ++ [last] with
    | nil => simp at hcore
    | cons c cs =>
        obtain rfl : c = first := by simpa [hcore] using hfirst
        rw [List.dropWhile_cons_of_neg (by simp [hfirst'])]
  rw [trim, hdrop]
  exact List.rdropWhile_concat_neg _ _ _ (by simp [hlast'])

end RecordHeader.Text
