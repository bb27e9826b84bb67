import RecordHeader.Proofs.Names
import RecordHeader.Proofs.Parsing
import Mathlib.Tactic

set_option autoImplicit false

/-! # Printing definitions and reading them back

A list of declarations can be written down in many ways: any white space stands around the words
of a line, a line ends in either of the two usual ways, the last one need not end at all, and a
blank line may part the definitions from any other text.  A `Layout` makes all these choices, and
`Layout.print` writes the declarations down as it says.

Whatever the layout, parsing gives the declarations back (`parse_print`).  A line is seen through
its words, which neither the white space nor a dropped carriage return touches
(`LineLayout.standsIn_print`, `Text.words_dropCarriageReturn`), so the induction has only to carry
the line numbers.
-/

namespace RecordHeader

/-! ## Layouts -/

/-- White space that does not end a line; there may be none. -/
structure Gap where
  chars : List Char
  isBlank : Text.isBlank chars = true
  lineFeed_not_mem : '\n' ∉ chars

/-- White space that parts two words of a line. -/
structure Separator extends Gap where
  ne_nil : chars ≠ []

/-- How a line ends. -/
inductive Ending where
  | lineFeed
  | carriageReturn

/-- The characters that end a line. -/
def Ending.chars : Ending → List Char
  | lineFeed => ['\n']
  | carriageReturn => ['\r', '\n']

/-- How one declaration is written on its line. -/
structure LineLayout where
  /-- What stands before the name of the record. -/
  before : Gap
  /-- What stands before each field, by the field's place. -/
  separator : Nat → Separator
  /-- What stands behind the last word. -/
  after : Gap
  ending : Ending

/-- What becomes of a text behind its last declaration. -/
inductive Closing where
  /-- The last line has no ending, and nothing follows it. -/
  | unended
  /-- The last line is ended, and nothing follows it. -/
  | ended
  /-- A blank line follows the last one, and then any text. -/
  | blank (gap : Gap) (rest : List Char)

/-- How declarations are written down: each on its line, by its place in the list. -/
structure Layout where
  line : Nat → LineLayout
  closing : Closing

/-- The fields of a line, each behind what parts it from the word before. -/
def LineLayout.printFields (separator : Nat → Separator) : List (String × String) → List Char
  | [] => []
  | field :: rest =>
      (separator 0).chars ++
        (Declaration.fieldWord field ++ printFields (fun place => separator (place + 1)) rest)

/-- The line of a declaration, without its ending. -/
def LineLayout.print (layout : LineLayout) (declaration : Declaration) : List Char :=
  layout.before.chars ++ (declaration.name.toList ++
    (printFields layout.separator declaration.fields ++ layout.after.chars))

/-- What follows the last ended line. -/
def Closing.chars : Closing → List Char
  | unended => []
  | ended => []
  | blank gap rest => gap.chars ++ '\n' :: rest

/-- The layout of the declarations behind the first one. -/
def Layout.tail (layout : Layout) : Layout :=
  { layout with line := fun place => layout.line (place + 1) }

/-- The text of declarations under a layout. -/
def Layout.print (layout : Layout) : List Declaration → List Char
  | [] => layout.closing.chars
  | declaration :: rest =>
      (layout.line 0).print declaration ++
        match layout.closing, rest with
        | .unended, [] => []
        | _, _ => (layout.line 0).ending.chars ++ layout.tail.print rest

/-- The line that ends the definitions, `line` being the first that declares no record. -/
def Closing.terminatedAt (line : Nat) : Closing → Option Nat
  | unended => none
  | ended => none
  | blank _ _ => some line

/-- The number of lines behind it that are not blank. -/
def Closing.ignoredLines : Closing → Nat
  | unended => 0
  | ended => 0
  | blank _ rest => (Text.lines rest).countP fun line => !Text.isBlank line

/-! ## The words of a printed line -/

namespace Name

theorem isWhiteSpace_of_mem {name : List Char} {c : Char} (h : isIdentifierChars name = true)
    (hc : c ∈ name) : Text.isWhiteSpace c = false :=
  isWhiteSpace_of_isPart (isPart_of_mem h hc)

end Name

namespace Declaration

theorem fieldWord_ne_nil (field : String × String) : fieldWord field ≠ [] := by
  simp [fieldWord]

theorem isWhiteSpace_of_mem_fieldWord {field : String × String} {c : Char} (h : IsField field)
    (hc : c ∈ fieldWord field) : Text.isWhiteSpace c = false := by
  rcases List.mem_append.mp hc with hc | hc
  · exact Name.isWhiteSpace_of_mem h.1 hc
  · rcases List.mem_cons.mp hc with rfl | hc
    · decide
    · exact Name.isWhiteSpace_of_mem h.2 hc

end Declaration

theorem Gap.isWhiteSpace_of_mem (gap : Gap) {c : Char} (h : c ∈ gap.chars) :
    Text.isWhiteSpace c = true :=
  List.all_eq_true.mp gap.isBlank c h

namespace LineLayout

/-- A word of a line is followed by white space, if by anything. -/
theorem isWhiteSpace_of_head? {separator : Nat → Separator} {fields : List (String × String)}
    {after : Gap} {c : Char}
    (h : (printFields separator fields ++ after.chars).head? = some c) :
    Text.isWhiteSpace c = true := by
  cases fields with
  | nil => exact after.isWhiteSpace_of_mem (List.mem_of_head? h)
  | cons field rest =>
      have hhead : (separator 0).chars.head? = some c := by
        rw [printFields, List.append_assoc, List.head?_append_of_ne_nil _ (separator 0).ne_nil] at h
        exact h
      exact (separator 0).isWhiteSpace_of_mem (List.mem_of_head? hhead)

theorem wordsOf_printFields (after : Gap) {fields : List (String × String)}
    (h : ∀ field ∈ fields, Declaration.IsField field) (separator : Nat → Separator) :
    Text.WordsOf (printFields separator fields ++ after.chars)
      (fields.map Declaration.fieldWord) := by
  induction fields generalizing separator with
  | nil => exact Text.WordsOf.blank after.isBlank
  | cons field rest ih =>
      have hfield := h field List.mem_cons_self
      have hrest := ih (fun other hother => h other (List.mem_cons_of_mem _ hother))
        (fun place => separator (place + 1))
      rw [printFields, List.append_assoc, List.append_assoc, List.map_cons]
      exact Text.WordsOf.word (separator 0).isBlank (Declaration.fieldWord_ne_nil field)
        (fun c hc => Declaration.isWhiteSpace_of_mem_fieldWord hfield hc)
        (fun c hc => isWhiteSpace_of_head? hc) hrest

/-- The line of a declaration declares it. -/
theorem standsIn_print (layout : LineLayout) {declaration : Declaration}
    (h : declaration.IsWellNamed) :
    Declaration.StandsIn (layout.print declaration) declaration := by
  refine ⟨?_, h⟩
  apply Text.WordsOf.word layout.before.isBlank
  · exact Name.ne_nil_of_isIdentifierChars h.1
  · exact fun c hc => Name.isWhiteSpace_of_mem h.1 hc
  · exact fun c hc => isWhiteSpace_of_head? hc
  · exact wordsOf_printFields layout.after h.2 layout.separator

/-! ## The printed line as a line of the text -/

theorem lineFeed_not_mem_printFields {fields : List (String × String)}
    (h : ∀ field ∈ fields, Declaration.IsField field) (separator : Nat → Separator) :
    '\n' ∉ printFields separator fields := by
  induction fields generalizing separator with
  | nil => exact List.not_mem_nil
  | cons field rest ih =>
      have hword : '\n' ∉ Declaration.fieldWord field := by
        intro hc
        have hblank := Declaration.isWhiteSpace_of_mem_fieldWord (h field List.mem_cons_self) hc
        exact absurd hblank (by decide)
      have hrest := ih (fun other hother => h other (List.mem_cons_of_mem _ hother))
        (fun place => separator (place + 1))
      simp only [printFields, List.mem_append, not_or]
      exact ⟨(separator 0).lineFeed_not_mem, hword, hrest⟩

theorem lineFeed_not_mem_print (layout : LineLayout) {declaration : Declaration}
    (h : declaration.IsWellNamed) : '\n' ∉ layout.print declaration := by
  have hname : '\n' ∉ declaration.name.toList :=
    Name.not_mem_of_isPart_eq_false (by decide) h.1
  simp only [print, List.mem_append, not_or]
  exact ⟨layout.before.lineFeed_not_mem, hname,
    lineFeed_not_mem_printFields h.2 layout.separator, layout.after.lineFeed_not_mem⟩

theorem print_ne_nil (layout : LineLayout) {declaration : Declaration}
    (h : declaration.IsWellNamed) : layout.print declaration ≠ [] := by
  intro hnil
  obtain ⟨-, hrest⟩ := List.append_eq_nil_iff.mp hnil
  obtain ⟨hname, -⟩ := List.append_eq_nil_iff.mp hrest
  exact Name.ne_nil_of_isIdentifierChars h.1 hname

end LineLayout

/-- A carriage return at the end of a line belongs to none of its words. -/
theorem Text.words_dropCarriageReturn (line : List Char) :
    words (dropCarriageReturn line) = words line := by
  by_cases hlast : line.getLast? = some '\r'
  · obtain ⟨body, rfl⟩ := List.getLast?_eq_some_iff.mp hlast
    have hreturn : isWhiteSpace '\r' = true := by decide
    calc words (dropCarriageReturn (body ++ ['\r']))
        = words body ++ words [] := by rw [dropCarriageReturn_append]; simp [words]
      _ = words (body ++ ['\r']) := (words_append hreturn body []).symm
  · rw [dropCarriageReturn_of_ne hlast]

/-- However a line is ended, the parser sees a line that declares the same. -/
theorem Ending.exists_lines_eq (ending : Ending) {line : List Char} {declaration : Declaration}
    (hline : Declaration.StandsIn line declaration) (hfeed : '\n' ∉ line) (rest : List Char) :
    ∃ seen, Declaration.StandsIn seen declaration ∧
      Text.lines (line ++ (ending.chars ++ rest)) = seen :: Text.lines rest := by
  cases ending with
  | lineFeed =>
      -- what stands behind the last word may itself end in a carriage return, which is then lost
      refine ⟨Text.dropCarriageReturn line, ⟨?_, hline.2⟩, Text.lines_cons hfeed rest⟩
      rw [Text.wordsOf_iff, Text.words_dropCarriageReturn]
      exact Text.wordsOf_iff.mp hline.1
  | carriageReturn =>
      have hended : '\n' ∉ line ++ ['\r'] := by simp [hfeed]
      have hseam : line ++ (carriageReturn.chars ++ rest) = (line ++ ['\r']) ++ '\n' :: rest := by
        simp [chars]
      refine ⟨line, hline, ?_⟩
      rw [hseam, Text.lines_cons hended, Text.dropCarriageReturn_append]

/-! ## Reading a printed text -/

namespace Layout

variable (table : TypeTable)

theorem print_unended {layout : Layout} (h : layout.closing = .unended)
    (declaration : Declaration) :
    layout.print [declaration] = (layout.line 0).print declaration := by
  simp [print, h]

theorem print_cons (layout : Layout) (declaration : Declaration) {rest : List Declaration}
    (h : layout.closing ≠ .unended ∨ rest ≠ []) :
    layout.print (declaration :: rest) =
      (layout.line 0).print declaration ++
        ((layout.line 0).ending.chars ++ layout.tail.print rest) := by
  rw [print]
  intro hclosing hrest
  exact h.elim (fun hne => hne hclosing) (fun hne => hne hrest)

/-- What follows the last ended line declares no record. -/
theorem ofLines_closing (closing : Closing) (first : Nat) :
    Schema.ofLines table first (Text.lines closing.chars) =
      .ok { terminatedAt := closing.terminatedAt first, ignoredLines := closing.ignoredLines } := by
  cases closing with
  | unended => rfl
  | ended => rfl
  | blank gap rest =>
      have hblank : Text.isBlank (Text.dropCarriageReturn gap.chars) = true := by
        rw [← Text.words_eq_nil_iff, Text.words_dropCarriageReturn]
        exact Text.words_of_isBlank gap.isBlank
      rw [Closing.chars, Text.lines_cons gap.lineFeed_not_mem, Schema.ofLines_of_isBlank hblank]
      rfl

/-- Reading printed declarations from any line number on. -/
theorem ofLines_print (layout : Layout) {declarations : List Declaration}
    (h : ∀ declaration ∈ declarations, declaration.IsWellNamed) (first : Nat) :
    Schema.ofLines table first (Text.lines (layout.print declarations)) =
      .ok { records := declarations.mapIdx fun place declaration =>
              declaration.toRecord table (first + place)
            terminatedAt := layout.closing.terminatedAt (first + declarations.length)
            ignoredLines := layout.closing.ignoredLines } := by
  -- each step takes the first line off, so the layout loses its first line and the number goes up
  induction declarations generalizing layout first with
  | nil => exact ofLines_closing table layout.closing first
  | cons declaration rest ih =>
      have hnamed := h declaration List.mem_cons_self
      have hline := (layout.line 0).standsIn_print hnamed
      have hfeed := (layout.line 0).lineFeed_not_mem_print hnamed
      by_cases hlast : layout.closing = .unended ∧ rest = []
      · obtain ⟨hclosing, rfl⟩ := hlast
        have hne := (layout.line 0).print_ne_nil hnamed
        rw [print_unended hclosing, Text.lines_of_not_mem hne hfeed,
          Schema.ofLines_of_standsIn hline, hclosing]
        rfl
      · have hmore : layout.closing ≠ .unended ∨ rest ≠ [] := by tauto
        obtain ⟨seen, hseen, hlines⟩ :=
          (layout.line 0).ending.exists_lines_eq hline hfeed (layout.tail.print rest)
        have hrest := ih layout.tail
          (fun other hother => h other (List.mem_cons_of_mem _ hother)) (first + 1)
        have hshift : ∀ place, first + 1 + place = first + (place + 1) := by omega
        simp only [hshift] at hrest
        rw [print_cons layout declaration hmore, hlines, Schema.ofLines_of_standsIn hseen, hrest,
          List.mapIdx_cons, List.length_cons]
        rfl

end Layout

namespace Schema

/-- **Printed declarations are read back.** Declarations by identifiers, written down under any
layout, are what the text declares: one record for each, in order and numbered from one, with the
types spelled as the table says.  A blank line that follows them is the one that ended them, and
nothing behind it counts. -/
theorem parse_print (table : TypeTable) (layout : Layout) {declarations : List Declaration}
    (h : ∀ declaration ∈ declarations, declaration.IsWellNamed) :
    parse table (String.ofList (layout.print declarations)) =
      .ok { records := declarations.mapIdx fun place declaration =>
              { name := declaration.name
                line := place + 1
                fields := declaration.fields.map fun field =>
                  { name := field.1, declared := field.2, spelling := table.resolve field.2 } }
            terminatedAt := layout.closing.terminatedAt (declarations.length + 1)
            ignoredLines := layout.closing.ignoredLines } := by
  have hlines := layout.ofLines_print table h 1
  simp only [Nat.add_comm 1] at hlines
  rw [parse, String.toList_ofList]
  exact hlines

end Schema

/-- A layout with tabs, line separators, next lines and stray carriage returns, in which both
endings occur and a blank line of a carriage return follows. -/
def Layout.mixed : Layout where
  line place :=
    { before := ⟨['\t'], by decide, by decide⟩
      separator := fun _ => ⟨⟨['\r', '\u2028'], by decide, by decide⟩, by decide⟩
      after := ⟨['\u0085', '\r'], by decide, by decide⟩
      ending := if place = 0 then .carriageReturn else .lineFeed }
  closing := .blank ⟨[' ', '\r'], by decide, by decide⟩ "not: a\n\ndefinition".toList

theorem Schema.parse_print_mixed :
    (∀ declaration ∈ [⟨"Image", [("x", "int"), ("file", "string")]⟩, ⟨"Mark", []⟩],
      Declaration.IsWellNamed declaration) ∧
    parse .standard ("\tImage\r\u2028x:int\r\u2028file:string\u0085\r\r\n\tMark\u0085\r\n" ++
        " \r\nnot: a\n\ndefinition") =
      .ok { records :=
              [{ name := "Image", line := 1
                 fields := [{ name := "x", declared := "int", spelling := ⟨"int", "int"⟩ },
                   { name := "file", declared := "string"
                     spelling := ⟨"std::string", "const std::string &"⟩ }] },
               { name := "Mark", line := 2, fields := [] }]
            terminatedAt := some 3
            ignoredLines := 2 } := by
  have hnamed : ∀ declaration ∈ [⟨"Image", [("x", "int"), ("file", "string")]⟩, ⟨"Mark", []⟩],
      Declaration.IsWellNamed declaration := by
    decide
  have hparse := parse_print .standard Layout.mixed hnamed
  refine ⟨hnamed, Eq.trans (congrArg (parse .standard) ?_) (hparse.trans ?_)⟩
  · decide +kernel
  · decide +kernel

end RecordHeader
