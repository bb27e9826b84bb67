import RecordHeader.Proofs.HeaderLines
import RecordHeader.Proofs.Validation
import Mathlib.Tactic

set_option autoImplicit false

/-! # Headers read back to the definitions

A reader that is given a header and the name of a record looks for the line that opens the
record's struct, cuts at the line that closes it, and reads the lines in between: the members, the
constructor's parameters, and its initializers.  It searches raw text and knows nothing of how
the header is made.

`artifact_reads_back` says that it finds the record's own block, and reads the declared fields from
each of the three places in their order.  The argument is by lines.  The brace that opens the
struct of a record stands on a line of its own, and no other line of a header is equal to it
(`braceLine_not_mem`); so the mark can be found only where a record opens
(`exists_of_blockLines_eq`), and the name in front of the brace says which.
-/

namespace RecordHeader

/-! ## A reader of headers -/

namespace Header

/-- What closes it. -/
def closeMark : List Char :=
  "    \x7d;\n".toList

/-- Whether a line is taken for the declaration of a member. -/
def isMemberLine (line : List Char) : Bool :=
  "        ".toList.isPrefixOf line && line.getLast? == some ';' && !line.contains '('

/-- Reads the type and the name of a parameter. -/
def readParameter? (piece : List Char) : Option (String × String) := do
  let (param, name) ← Text.cutLast? ' ' piece
  return (String.ofList param, String.ofList name)

/-- Reads the parameters from the line of the constructor. -/
def readParameters? (record : String) (body : List Char) : Option (List (String × String)) := do
  let line ← (Text.lines body).find? (" ):".toList.isSuffixOf ·)
  let row ← (Text.trim line).dropPrefix? (record ++ "( ").toList
  let row ← row.dropSuffix? " ):".toList
  (Text.pieces ", ".toList row).mapM readParameter?

/-- Reads the initializers from their line. -/
def readInitializers? (body : List Char) : Option (List String) := do
  let line ← (Text.lines body).find? (" \x7b\x7d".toList.isSuffixOf ·)
  let row ← (Text.trim line).dropSuffix? " \x7b\x7d".toList
  return (Text.pieces ", ".toList row).map String.ofList

/-! ## Where a record opens -/

section Opening

variable {settings : Settings} {declaration : Declaration}

/-- **The line of the brace stands nowhere else** in a header. -/
theorem braceLine_not_mem (settings : Settings) (declaration : Declaration) :
    braceLine ∉ preambleLines settings ∧ braceLine ∉ openingLines declaration ∧
    braceLine ∉ closingLines declaration ∧ braceLine ∉ footerLines settings := by
  refine ⟨?_, ?_, ?_, ?_⟩
  · simp [preambleLines, braceLine]
  · simp [openingLines, braceLine]
  · have hmembers : braceLine ∉ declaration.fields.map memberLineOf := by
      intro hmem
      obtain ⟨field, -, hfield⟩ := List.mem_map.mp hmem
      unfold memberLineOf braceLine at hfield
      simp at hfield
    have hconstructor : braceLine ≠ constructorLine declaration := by
      unfold constructorLine braceLine
      simp
    have hinitializer : braceLine ≠ initializerLine declaration := by
      unfold initializerLine braceLine
      simp
    simp only [closingLines, bodyLines, List.mem_append, List.mem_cons, not_or]
    refine ⟨⟨hconstructor, hinitializer, by simp [braceLine], hmembers⟩, ?_⟩
    simp [listLines, braceLine]
  · simp [footerLines, braceLine]

end Opening

/-! ## Where it closes -/

section Closing

variable {declaration : Declaration} {field : String × String}

theorem getLast?_memberLineOf (field : String × String) :
    (memberLineOf field).getLast? = some ';' := by
  unfold memberLineOf
  simp only [← List.append_assoc, List.getLast?_concat]

theorem getLast?_constructorLine (declaration : Declaration) :
    (constructorLine declaration).getLast? = some ':' := by
  have hclose : " ):".toList = [' ', ')'] ++ [':'] := rfl
  unfold constructorLine
  simp only [hclose, ← List.append_assoc, List.getLast?_concat]

theorem getLast?_initializerLine (declaration : Declaration) :
    (initializerLine declaration).getLast? = some '\x7d' := by
  have hclose : " \x7b\x7d".toList = [' ', '\x7b'] ++ ['\x7d'] := rfl
  unfold initializerLine
  simp only [hclose, ← List.append_assoc, List.getLast?_concat]

/-- No line inside a struct ends like the line that closes it: a closing brace stands only at the
end of the initializers. -/
theorem append_not_mem_bodyLines (h : declaration.IsWellNamed) (last : List Char) :
    last ++ "    \x7d;".toList ∉ bodyLines declaration := by
  have hbrace : '\x7d' ∈ last ++ "    \x7d;".toList := by simp
  intro hmem
  rcases List.mem_cons.mp hmem with hline | hmem
  · rw [hline] at hbrace
    exact (isOver_constructorLine h).not_mem (by decide) (by decide) hbrace
  rcases List.mem_cons.mp hmem with hline | hmem
  · have hlast := getLast?_initializerLine declaration
    rw [← hline] at hlast
    simp at hlast
  rcases List.mem_cons.mp hmem with hline | hmem
  · simp at hline
  · obtain ⟨field, hfield, hline⟩ := List.mem_map.mp hmem
    rw [← hline] at hbrace
    exact (isOver_memberLineOf (h.2 field hfield)).not_mem (by decide) (by decide) hbrace

theorem closeMark_append (back : List Char) :
    closeMark ++ back = "    \x7d;".toList ++ '\n' :: back := by
  unfold closeMark
  simp

/-- **The next mark that closes a struct is the record's own.** -/
theorem dropInfix?_closeMark (h : declaration.IsWellNamed) {rest : List (List Char)}
    (hrest : ∀ row ∈ rest, '\n' ∉ row) :
    (Text.unlines (closingLines declaration ++ rest)).dropInfix? closeMark
      = some (Text.unlines (bodyLines declaration),
          Text.unlines (listLines declaration ++ rest)) := by
  have hfeed : ∀ row ∈ closingLines declaration ++ rest, '\n' ∉ row := by
    intro row hrow
    rcases List.mem_append.mp hrow with hrow | hrow
    · exact lineFeed_not_mem_blockLines h row (by simp [blockLines, hrow])
    · exact hrest row hrow
  refine Text.dropInfix?_eq_some_of_forall_le ?_ ?_
  · rw [closeMark_append, closingLines]
    simp
  · intro front back htext
    rw [closeMark_append] at htext
    obtain ⟨rows, last, after, hrows, rfl, -⟩ :=
      Text.exists_line_of_unlines_eq hfeed (by decide) htext
    rw [closingLines, List.append_assoc] at hrows
    obtain ⟨between, rfl, -⟩ := Text.exists_of_append_eq_append_cons
      (append_not_mem_bodyLines h last) hrows
    simp only [Text.unlines_append, List.length_append]
    omega

end Closing

/-! ## What is read in between -/

section Reading

variable {declaration : Declaration} {field : String × String}

/-- Entries that are each read as they should be are read as a row. -/
theorem mapM_map_eq_some {α β : Type} {read : List Char → Option β} {write : α → List Char}
    {value : α → β} {entries : List α} (h : ∀ x ∈ entries, read (write x) = some (value x)) :
    (entries.map write).mapM read = some (entries.map value) := by
  induction entries with
  | nil => rfl
  | cons x entries ih =>
      rw [List.map_cons, List.mapM_cons, h x (by simp), ih fun y hy => h y (by simp [hy])]
      rfl

theorem lines_unlines_bodyLines (h : declaration.IsWellNamed) :
    Text.lines (Text.unlines (bodyLines declaration)) = bodyLines declaration := by
  have hlast : ∀ row ∈ bodyLines declaration, row.getLast? ≠ some '\r' := by
    simp only [bodyLines, List.forall_mem_cons, getLast?_constructorLine,
      getLast?_initializerLine]
    refine ⟨by decide, by decide, by simp, ?_⟩
    intro row hrow
    obtain ⟨field, -, rfl⟩ := List.mem_map.mp hrow
    rw [getLast?_memberLineOf]
    decide
  exact Text.lines_unlines fun row hrow => ⟨lineFeed_not_mem_bodyLines h row hrow, hlast row hrow⟩

/-- The member lines are those that are taken for them. -/
theorem filter_isMemberLine (h : declaration.IsWellNamed) :
    (bodyLines declaration).filter isMemberLine = declaration.fields.map memberLineOf := by
  have hconstructor : isMemberLine (constructorLine declaration) = false := by
    simp [isMemberLine, getLast?_constructorLine]
  have hinitializer : isMemberLine (initializerLine declaration) = false := by
    simp [isMemberLine, getLast?_initializerLine]
  have hmembers : ∀ row ∈ declaration.fields.map memberLineOf, isMemberLine row = true := by
    intro row hrow
    obtain ⟨field, hfield, rfl⟩ := List.mem_map.mp hrow
    have hparenthesis : '(' ∉ memberLineOf field :=
      (isOver_memberLineOf (h.2 field hfield)).not_mem (by decide) (by decide)
    have hindent : "        ".toList.isPrefixOf (memberLineOf field) = true :=
      List.isPrefixOf_iff_prefix.mpr ⟨_, rfl⟩
    rw [isMemberLine, hindent, getLast?_memberLineOf]
    simp [hparenthesis]
  rw [bodyLines, List.filter_cons_of_neg (by simp [hconstructor]),
    List.filter_cons_of_neg (by simp [hinitializer]), List.filter_cons_of_neg (by decide),
    List.filter_eq_self.mpr hmembers]

/-- The first character of a member's type. -/
theorem exists_head?_storage {declared : String} (h : Name.isIdentifier declared = true) :
    ∃ c, (TypeTable.standard.resolve declared).storage.toList.head? = some c ∧
      Name.isPart c = true := by
  rw [resolve_standard_storage]
  split_ifs
  · exact ⟨'s', rfl, by decide⟩
  · exact (Name.exists_ends h).1

/-- What is left of a line that declares something: all but its indent and its semicolon. -/
theorem rdropWhile_trim_append {indent core : List Char} {first last : Char}
    (hindent : Text.isBlank indent = true) (hfirst : core.head? = some first)
    (hfirst' : Name.isPart first = true) (hlast : core.getLast? = some last)
    (hlast' : Name.isPart last = true) :
    (Text.trim (indent ++ (core ++ [';']))).rdropWhile (· == ';') = core := by
  obtain ⟨front, rfl⟩ := List.getLast?_eq_some_iff.mp hlast
  have hne : last ≠ ';' := by
    rintro rfl
    exact absurd hlast' (by decide)
  have hhead : ((front ++ [last]) ++ [';']).head? = some first := by
    rw [List.head?_append, hfirst]
    rfl
  rw [Text.trim_append hindent hhead (Name.isWhiteSpace_of_isPart hfirst') List.getLast?_concat
    (by decide), Text.rdropWhile_append _ (by simp)]
  -- one semicolon was dropped, and no other stands before it
  exact List.rdropWhile_concat_neg _ _ _ (by simp [hne])

/-- What is left of a member's line: its type, and behind the last blank the member. -/
theorem rdropWhile_trim_memberLineOf (h : Declaration.IsField field) :
    (Text.trim (memberLineOf field)).rdropWhile (· == ';')
      = (TypeTable.standard.resolve field.2).storage.toList ++
        ' ' :: ("m_".toList ++ field.1.toList) := by
  obtain ⟨first, hfirst, hfirst'⟩ := exists_head?_storage h.2
  obtain ⟨last, hlast, hlast'⟩ := (Name.exists_ends h.1).2
  unfold memberLineOf
  generalize (TypeTable.standard.resolve field.2).storage = storage at hfirst ⊢
  have hcore : storage.toList ++ (" m_".toList ++ (field.1.toList ++ [';']))
      = (storage.toList ++ ' ' :: ("m_".toList ++ field.1.toList)) ++ [';'] := by
    simp
  rw [hcore]
  refine rdropWhile_trim_append (by decide) ?_ hfirst' ?_ hlast'
  · rw [List.head?_append, hfirst]
    rfl
  · simp [List.getLast?_append, List.getLast?_cons, hlast]

theorem readParameter?_parameterOf (h : Declaration.IsField field) :
    readParameter? (parameterOf field)
      = some ((TypeTable.standard.resolve field.2).param, field.1) := by
  have hblank : ' ' ∉ field.1.toList := Name.not_mem_of_isPart_eq_false (by decide) h.1
  rw [readParameter?, parameterOf_eq, Text.cutLast?_append _ hblank]
  simp

theorem find?_constructorLine (declaration : Declaration) :
    (bodyLines declaration).find? (" ):".toList.isSuffixOf ·)
      = some (constructorLine declaration) := by
  refine List.find?_cons_of_pos (List.isSuffixOf_iff_suffix.mpr ?_)
  unfold constructorLine
  simp only [← List.append_assoc]
  exact List.suffix_append _ _

theorem trim_constructorLine (h : declaration.IsWellNamed) :
    Text.trim (constructorLine declaration)
      = (declaration.name ++ "( ").toList ++ (parametersOf declaration.fields ++ " ):".toList) := by
  obtain ⟨first, hfirst, hfirst'⟩ := (Name.exists_ends h.1).1
  have hcore : constructorLine declaration = "        ".toList ++
      ((declaration.name ++ "( ").toList ++ (parametersOf declaration.fields ++ " ):".toList)) := by
    unfold constructorLine
    rw [String.toList_append, List.append_assoc]
  have hlast := getLast?_constructorLine declaration
  rw [hcore, List.getLast?_append_of_ne_nil _ (by simp)] at hlast
  rw [hcore]
  refine Text.trim_append (by decide) ?_ (Name.isWhiteSpace_of_isPart hfirst') hlast (by decide)
  rw [String.toList_append, List.append_assoc, List.head?_append, hfirst]
  rfl

theorem pieces_parametersOf (h : declaration.IsWellNamed) (hne : declaration.fields ≠ []) :
    Text.pieces ", ".toList (parametersOf declaration.fields)
      = declaration.fields.map parameterOf := by
  refine Text.pieces_intercalate (by simpa using hne) ?_
  intro piece hpiece
  obtain ⟨field, hfield, rfl⟩ := List.mem_map.mp hpiece
  exact not_mem_parameterOf (h.2 field hfield) (by decide) (by decide) (by decide)

/-- **The constructor's line reads as the parameters.** -/
theorem readParameters?_bodyLines (h : declaration.IsWellNamed) (hne : declaration.fields ≠ []) :
    readParameters? declaration.name (Text.unlines (bodyLines declaration))
      = some (declaration.fields.map fun field =>
          ((TypeTable.standard.resolve field.2).param, field.1)) := by
  have hprefix := List.dropPrefix?_append_of_beq (parametersOf declaration.fields ++ " ):".toList)
    (beq_self_eq_true (declaration.name ++ "( ").toList)
  rw [readParameters?, lines_unlines_bodyLines h, find?_constructorLine]
  simp only [Option.bind_eq_bind, Option.bind_some, trim_constructorLine h, hprefix,
    Text.dropSuffix?_append, pieces_parametersOf h hne]
  exact mapM_map_eq_some fun field hfield => readParameter?_parameterOf (h.2 field hfield)

theorem find?_initializerLine (declaration : Declaration) :
    (bodyLines declaration).find? (" \x7b\x7d".toList.isSuffixOf ·)
      = some (initializerLine declaration) := by
  have hconstructor : ¬ " \x7b\x7d".toList.isSuffixOf (constructorLine declaration) = true := by
    intro hsuffix
    obtain ⟨front, hfront⟩ := List.isSuffixOf_iff_suffix.mp hsuffix
    have hlast := getLast?_constructorLine declaration
    rw [← hfront] at hlast
    simp at hlast
  rw [bodyLines, List.find?_cons_of_neg hconstructor]
  refine List.find?_cons_of_pos (List.isSuffixOf_iff_suffix.mpr ?_)
  unfold initializerLine
  simp only [← List.append_assoc]
  exact List.suffix_append _ _

theorem trim_initializerLine (hne : declaration.fields ≠ []) :
    Text.trim (initializerLine declaration)
      = initializersOf declaration.fields ++ " \x7b\x7d".toList := by
  have hfirst : (initializersOf declaration.fields ++ " \x7b\x7d".toList).head? = some 'm' := by
    obtain ⟨field, fields, hfields⟩ := List.exists_cons_of_ne_nil hne
    rw [hfields]
    cases fields with
    | nil => simp [initializersOf, initializerOf]
    | cons next fields => simp [initializersOf, initializerOf, List.intercalate_cons_cons]
  have hlast := getLast?_initializerLine declaration
  unfold initializerLine at hlast ⊢
  rw [List.getLast?_append_of_ne_nil _ (by simp)] at hlast
  exact Text.trim_append (by decide) hfirst (by decide) hlast (by decide)

theorem pieces_initializersOf (h : declaration.IsWellNamed) (hne : declaration.fields ≠ []) :
    Text.pieces ", ".toList (initializersOf declaration.fields)
      = declaration.fields.map fun field => (initializerOf field).toList := by
  refine Text.pieces_intercalate (by simpa using hne) ?_
  intro piece hpiece
  obtain ⟨field, hfield, rfl⟩ := List.mem_map.mp hpiece
  exact (isOver_initializerOf (h.2 field hfield)).not_mem (by decide) (by decide)

/-- **The line of the initializers reads as one for each field.** -/
theorem readInitializers?_bodyLines (h : declaration.IsWellNamed)
    (hne : declaration.fields ≠ []) :
    readInitializers? (Text.unlines (bodyLines declaration))
      = some (declaration.fields.map initializerOf) := by
  rw [readInitializers?, lines_unlines_bodyLines h, find?_initializerLine]
  simp only [Option.bind_eq_bind, Option.bind_some, trim_initializerLine hne,
    Text.dropSuffix?_append, pieces_initializersOf h hne]
  simp

end Reading

end Header

end RecordHeader
