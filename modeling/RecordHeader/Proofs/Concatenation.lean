import RecordHeader.Proofs.Parsing
import Mathlib.Tactic

set_option autoImplicit false

/-! # Parsing two texts in a row

When a text is cut between two lines, the parser's answer on the whole is determined by its
answers on the two parts.  An error of the first part stays.  A blank line in the first part
stays the end of the definitions, and the second part only adds to the ignored lines.  When
the first part is open, the second part is read as it would be read alone, with every line
number moved by the number of records before it (`Schema.shift`, `LineError.shift`).

Both halves of the law are laws of `Schema.ofLines`: it reads appended lines one part after the
other (`ofLines_append_of_error`, `ofLines_append_of_terminated`, `ofLines_append_of_open`), and
it commutes with moving the line numbers (`ofLines_add`).
-/

namespace RecordHeader

/-- A schema with all its line numbers moved by `n`. -/
def Schema.shift (n : Nat) (schema : Schema) : Schema where
  records := schema.records.map fun record => { record with line := record.line + n }
  terminatedAt := schema.terminatedAt.map (· + n)
  ignoredLines := schema.ignoredLines

/-- An error with its line number moved by `n`. -/
def LineError.shift (n : Nat) (error : LineError) : LineError :=
  { error with line := error.line + n }

namespace Schema

variable {table : TypeTable} {first : Nat}

/-! ## Moving the line numbers -/

/-- Lines that start `n` lines later give the same answer, with its line numbers moved. -/
theorem ofLines_add (n : Nat) (lines : List (List Char)) :
    ofLines table (first + n) lines =
      match ofLines table first lines with
      | .ok schema => .ok (schema.shift n)
      | .error error => .error (error.shift n) := by
  induction lines using definition_induction generalizing first with
  | nil => rfl
  | blank line rest hblank =>
      rw [ofLines_of_isBlank hblank, ofLines_of_isBlank hblank]
      rfl
  | fault line rest token kind _ hline =>
      rw [ofLines_of_hasFault hline, ofLines_of_hasFault hline]
      rfl
  | record line rest declaration _ hline ih =>
      rw [ofLines_of_standsIn hline, ofLines_of_standsIn hline,
        show first + n + 1 = first + 1 + n by omega, ih]
      cases ofLines table (first + 1) rest <;> rfl

/-! ## Reading one part after the other -/

theorem ofLines_append_of_error {lines : List (List Char)} {error : LineError}
    (h : ofLines table first lines = .error error) (rest : List (List Char)) :
    ofLines table first (lines ++ rest) = .error error := by
  induction lines using definition_induction generalizing first with
  | nil => cases h
  | blank line lines hblank => rw [ofLines_of_isBlank hblank] at h; cases h
  | fault line lines token kind _ hline =>
      rw [ofLines_of_hasFault hline] at h
      rw [List.cons_append, ofLines_of_hasFault hline, h]
  | record line lines declaration _ hline ih =>
      rw [ofLines_error_of_standsIn hline] at h
      rw [List.cons_append, ofLines_error_of_standsIn hline]
      exact ih h

/-- Behind the blank line that ended the definitions, lines are only counted. -/
theorem ofLines_append_of_terminated {lines : List (List Char)} {schema : Schema}
    (h : ofLines table first lines = .ok schema) (hend : schema.terminatedAt ≠ none)
    (rest : List (List Char)) :
    ofLines table first (lines ++ rest) =
      .ok { schema with
            ignoredLines :=
              schema.ignoredLines + rest.countP fun line => !Text.isBlank line } := by
  induction lines using definition_induction generalizing first schema with
  | nil =>
      obtain rfl := Except.ok.inj h
      exact absurd rfl hend
  | blank line lines hblank =>
      rw [ofLines_of_isBlank hblank] at h
      obtain rfl := Except.ok.inj h
      rw [List.cons_append, ofLines_of_isBlank hblank, List.countP_append]
  | fault line lines token kind _ hline => rw [ofLines_of_hasFault hline] at h; cases h
  | record line lines declaration _ hline ih =>
      obtain ⟨tail, hlines, rfl⟩ := exists_ofLines_of_standsIn hline h
      rw [List.cons_append, ofLines_of_standsIn hline, ih hlines hend]
      rfl

/-- Behind open definitions, reading goes on with the next line number. -/
theorem ofLines_append_of_open {lines : List (List Char)} {schema : Schema}
    (h : ofLines table first lines = .ok schema) (hopen : schema.terminatedAt = none)
    (rest : List (List Char)) :
    ofLines table first (lines ++ rest) =
      (ofLines table (first + schema.records.length) rest).map fun tail =>
        { tail with records := schema.records ++ tail.records } := by
  induction lines using definition_induction generalizing first schema with
  | nil =>
      obtain rfl := Except.ok.inj h
      show ofLines table first rest = (ofLines table first rest).map id
      rw [Except.map_id]
      rfl
  | blank line lines hblank =>
      rw [ofLines_of_isBlank hblank] at h
      obtain rfl := Except.ok.inj h
      cases hopen
  | fault line lines token kind _ hline => rw [ofLines_of_hasFault hline] at h; cases h
  | record line lines declaration _ hline ih =>
      obtain ⟨front, hlines, rfl⟩ := exists_ofLines_of_standsIn hline h
      rw [List.cons_append, ofLines_of_standsIn hline, ih hlines hopen, List.length_cons,
        show first + 1 + front.records.length = first + (front.records.length + 1) by omega]
      cases ofLines table (first + (front.records.length + 1)) rest <;> rfl

/-! ## The law for texts -/

/-- The lines of two texts, when the seam lies between two lines. -/
theorem parse_append {front : String} (h : front = "" ∨ front.toList.getLast? = some '\n')
    (rest : String) :
    parse table (front ++ rest)
      = ofLines table 1 (Text.lines front.toList ++ Text.lines rest.toList) := by
  have hseam : front.toList = [] ∨ front.toList.getLast? = some '\n' := by
    rcases h with rfl | h
    · exact Or.inl rfl
    · exact Or.inr h
  rw [parse, String.toList_append, Text.lines_append hseam]

/-- **The concatenation law.** Let the first text be empty or end with a line feed.  Its error
is the error of the whole.  If it has a blank line, the whole gives its schema, with the lines
of the second text that are not blank counted among the ignored ones.  Otherwise the whole
gives what the second text gives, with its line numbers moved by the number of records of the
first, behind those records. -/
theorem parse_concatenation (table : TypeTable) (front rest : String)
    (h : front = "" ∨ front.toList.getLast? = some '\n') :
    (∀ error, parse table front = .error error → parse table (front ++ rest) = .error error) ∧
    (∀ schema, parse table front = .ok schema → schema.terminatedAt ≠ none →
      parse table (front ++ rest) = .ok
        { schema with
          ignoredLines := schema.ignoredLines +
            (Text.lines rest.toList).countP fun line => !Text.isBlank line }) ∧
    ∀ schema, parse table front = .ok schema → schema.terminatedAt = none →
      (∀ tail, parse table rest = .ok tail →
        parse table (front ++ rest) = .ok
          { records := schema.records ++ (tail.shift schema.records.length).records
            terminatedAt := (tail.shift schema.records.length).terminatedAt
            ignoredLines := tail.ignoredLines }) ∧
      ∀ error, parse table rest = .error error →
        parse table (front ++ rest) = .error (error.shift schema.records.length) := by
  rw [parse_append h]
  refine ⟨?_, ?_, ?_⟩
  · intro error hfront
    exact ofLines_append_of_error hfront _
  · intro schema hfront hend
    exact ofLines_append_of_terminated hfront hend _
  · intro schema hfront hopen
    have hmoved := ofLines_append_of_open hfront hopen (Text.lines rest.toList)
    rw [ofLines_add] at hmoved
    rw [hmoved]
    constructor
    · intro tail hrest
      have hlines : ofLines table 1 (Text.lines rest.toList) = .ok tail := hrest
      rw [hlines]
      rfl
    · intro error hrest
      have hlines : ofLines table 1 (Text.lines rest.toList) = .error error := hrest
      rw [hlines]
      rfl

/-- The law at a seam of the third kind: an open text of one record, then one with a fault in
its second line, which becomes the third line of the whole. -/
theorem parse_concatenation_fault :
    parse .standard ("A x:int\n" ++ "B y:int\r\nC z\n\n")
      = .error ⟨3, "z", .malformedField⟩ := by
  have hlaw := parse_concatenation .standard "A x:int\n" "B y:int\r\nC z\n\n" (Or.inr rfl)
  exact (hlaw.2.2 ⟨[⟨"A", 1, [⟨"x", "int", ⟨"int", "int"⟩⟩]⟩], none, 0⟩ rfl rfl).2
    ⟨2, "z", .malformedField⟩ rfl

end Schema

end RecordHeader
