import RecordHeader.Proofs.Names
import RecordHeader.Proofs.Searching
import Mathlib.Tactic

set_option autoImplicit false

/-! # The lines of a header

Under plain settings, with the standard prefixes and texts that do not break a line, a header is
a row of lines: `headerLines` gives them and `toList_text` says so.  The lines of a block hold
identifiers and a few other characters each (`IsOver`), so that what ends or parts them can be
looked for.
-/

namespace RecordHeader

namespace Header

/-! ## The lines of a header -/

/-- How the standard table spells a declared type as a member. -/
theorem resolve_standard_storage (declared : String) :
    (TypeTable.standard.resolve declared).storage =
      if declared = "string" then "std::string" else declared := by
  by_cases h : declared = "string"
  · subst h
    rfl
  · have hfind : TypeTable.standard.get? declared = none := by
      simp [TypeTable.get?, TypeTable.standard, Ne.symm h]
    rw [TypeTable.resolve, hfind, if_neg h]

/-- The initializer of a field, with the standard prefix. -/
def initializerOf (field : String × String) : String :=
  "m_" ++ field.1 ++ "( " ++ field.1 ++ " )"

/-- The initializers of a constructor. -/
def initializersOf (fields : List (String × String)) : List Char :=
  [',', ' '].intercalate (fields.map fun field => (initializerOf field).toList)

/-- The line of a constructor. -/
def constructorLine (declaration : Declaration) : List Char :=
  "        ".toList ++ (declaration.name.toList ++ ("( ".toList ++
    (parametersOf declaration.fields ++ " ):".toList)))

/-- The line of its initializers. -/
def initializerLine (declaration : Declaration) : List Char :=
  "            ".toList ++ (initializersOf declaration.fields ++ " \x7b\x7d".toList)

/-- The line of a member. -/
def memberLineOf (field : String × String) : List Char :=
  "        ".toList ++ ((TypeTable.standard.resolve field.2).storage.toList ++
    (" m_".toList ++ (field.1.toList ++ [';'])))

/-- The lines inside the struct of a record. -/
def bodyLines (declaration : Declaration) : List (List Char) :=
  constructorLine declaration :: initializerLine declaration :: [] ::
    declaration.fields.map memberLineOf

/-- The line of the brace that opens the struct of a record. -/
def braceLine : List Char :=
  "    \x7b".toList

/-- The lines of a block before that brace. -/
def openingLines (declaration : Declaration) : List (List Char) :=
  [[], "    /// Type definition".toList, "    struct ".toList ++ declaration.name.toList]

/-- The lines that declare the list of a record. -/
def listLines (declaration : Declaration) : List (List Char) :=
  ["    /// List".toList, "    std::list<".toList ++ (declaration.name.toList ++
    ("> m_list".toList ++ (declaration.name.toList ++ [';'])))]

/-- The lines of a block after the brace. -/
def closingLines (declaration : Declaration) : List (List Char) :=
  bodyLines declaration ++ "    \x7d;".toList :: listLines declaration

/-- The lines of a block. -/
def blockLines (declaration : Declaration) : List (List Char) :=
  openingLines declaration ++ braceLine :: closingLines declaration

/-- The lines before the first block. -/
def preambleLines (settings : Settings) : List (List Char) :=
  ["/*".toList ++ rule.toList, " * ".toList ++ settings.fileName.toList, " *".toList ++ rule.toList,
    " * Data holders filled by the skin XML builder.".toList,
    " *".toList ++ (rule.toList ++ ['/']), [], "// File generated by skinsgen".toList,
    "// DO NOT EDIT".toList, [], "#ifndef ".toList ++ settings.guard.toList,
    "#define ".toList ++ settings.guard.toList, []] ++
  (settings.includes.map (fun file => "#include <".toList ++ (file.toList ++ ['>'])) ++
  [[], "/// Structure for mapping data from XML file".toList,
    "struct ".toList ++ settings.aggregate.toList, ['\x7b']])

/-- The lines after the last block. -/
def footerLines (settings : Settings) : List (List Char) :=
  ["\x7d;".toList, [], "#endif // ".toList ++ settings.guard.toList]

end Header

/-- Settings with the standard prefixes, whose other texts do not break a line, and whose chosen
names are accepted. -/
structure Settings.IsPlain (settings : Settings) : Prop where
  memberPrefix_eq : settings.memberPrefix = "m_"
  listPrefix_eq : settings.listPrefix = "list"
  check_aggregate : Name.check settings.aggregate = .ok ()
  check_guard : ∀ guard, settings.explicitGuard = some guard → Name.check guard = .ok ()
  fileName_not_mem : '\n' ∉ settings.fileName.toList
  includes_not_mem : ∀ file ∈ settings.includes, '\n' ∉ file.toList

namespace Header

section Lines

variable {settings : Settings} {declaration : Declaration}

theorem toList_memberLine (hsettings : settings.IsPlain) (field : String × String) :
    (memberLine settings (Field.ofDeclared .standard field.1 field.2)).toList
      = memberLineOf field ++ ['\n'] := by
  unfold memberLine memberLineOf Settings.member Field.ofDeclared
  rw [hsettings.memberPrefix_eq]
  simp only [String.toList_append, List.append_assoc]
  simp

theorem toList_members (hsettings : settings.IsPlain) (fields : List (String × String)) :
    (String.join ((fields.map fun field => Field.ofDeclared .standard field.1 field.2).map
      (memberLine settings))).toList = Text.unlines (fields.map memberLineOf) := by
  rw [List.map_map]
  exact Text.toList_join_map fun field _ => toList_memberLine hsettings field

theorem toList_initializers (hsettings : settings.IsPlain) (fields : List (String × String)) :
    (", ".intercalate ((fields.map fun field => Field.ofDeclared .standard field.1 field.2).map
      (initializer settings))).toList = initializersOf fields := by
  rw [String.toList_intercalate, initializersOf, List.map_map, List.map_map]
  refine congrArg [',', ' '].intercalate (List.map_congr_left fun field _ => ?_)
  show (settings.memberPrefix ++ field.1 ++ "( " ++ field.1 ++ " )").toList = _
  rw [hsettings.memberPrefix_eq, initializerOf]

theorem blockOf_eq (hsettings : settings.IsPlain) (declaration : Declaration) :
    blockOf settings declaration = Text.unlines (blockLines declaration) := by
  have hmembers := toList_members hsettings declaration.fields
  have hinitializers := toList_initializers hsettings declaration.fields
  unfold blockOf block
  simp only [String.toList_append, toList_parameters]
  simp only [Declaration.toRecord, hmembers, hinitializers, Settings.listMember,
    String.toList_append, hsettings.memberPrefix_eq, hsettings.listPrefix_eq]
  unfold blockLines openingLines closingLines bodyLines listLines constructorLine initializerLine
    braceLine
  simp only [Text.unlines_append, Text.unlines_cons, Text.unlines_nil, List.append_assoc,
    List.cons_append, List.nil_append]
  simp

end Lines

/-! ## What the lines hold -/

/-- A row of characters that are parts of identifiers or among some others. -/
def IsOver (others : String) (row : List Char) : Prop :=
  ∀ c ∈ row, Name.isPart c = true ∨ c ∈ others.toList

instance (others : String) (row : List Char) : Decidable (IsOver others row) :=
  decidable_of_iff (row.all (fun c => Name.isPart c || others.toList.contains c) = true)
    (by simp [IsOver])

section Characters

variable {others : String} {row row' : List Char} {declaration : Declaration}
  {field : String × String}

theorem IsOver.append (h : IsOver others row) (h' : IsOver others row') :
    IsOver others (row ++ row') := by
  intro c hc
  rcases List.mem_append.mp hc with hc | hc
  · exact h c hc
  · exact h' c hc

theorem IsOver.not_mem (h : IsOver others row) {c : Char} (hpart : Name.isPart c = false)
    (hother : c ∉ others.toList) : c ∉ row := by
  intro hc
  rcases h c hc with hc | hc
  · rw [hc] at hpart
    cases hpart
  · exact hother hc

theorem IsOver.mono {others' : String} (h : IsOver others row)
    (hothers : others.toList ⊆ others'.toList) : IsOver others' row :=
  fun c hc => (h c hc).imp_right fun hmem => hothers hmem

theorem isOver_name {name : String} (h : Name.isIdentifier name = true) :
    IsOver others name.toList :=
  fun _ hc => Or.inl (Name.isPart_of_mem h hc)

theorem IsOver.intercalate {α : Type} {entries : List α} {piece : α → List Char}
    (hseparator : IsOver others [',', ' ']) (h : ∀ x ∈ entries, IsOver others (piece x)) :
    IsOver others ([',', ' '].intercalate (entries.map piece)) := by
  intro c hc
  rcases mem_of_mem_intercalate hc with hc | ⟨found, hfound, hc⟩
  · exact hseparator c hc
  · obtain ⟨x, hx, rfl⟩ := List.mem_map.mp hfound
    exact h x hx c hc

theorem isOver_storage {declared : String} (h : Name.isIdentifier declared = true)
    (hspelled : IsOver others "std::string".toList) :
    IsOver others (TypeTable.standard.resolve declared).storage.toList := by
  rw [resolve_standard_storage]
  split_ifs
  · exact hspelled
  · exact isOver_name h

theorem isOver_parameterOf (h : Declaration.IsField field) :
    IsOver " &:" (parameterOf field) := by
  have htype : IsOver " &:" (TypeTable.standard.resolve field.2).param.toList := by
    rw [resolve_standard_param]
    split_ifs
    · decide
    · exact isOver_name h.2
  rw [parameterOf_eq]
  have hblank : IsOver " &:" [' '] := by decide
  exact htype.append (hblank.append (isOver_name h.1))

theorem isOver_parametersOf (h : declaration.IsWellNamed) :
    IsOver " &,:" (parametersOf declaration.fields) := by
  refine IsOver.intercalate (by decide) fun field hfield => ?_
  exact (isOver_parameterOf (h.2 field hfield)).mono (by simp)

theorem isOver_constructorLine (h : declaration.IsWellNamed) :
    IsOver " (&,):" (constructorLine declaration) := by
  have hindent : IsOver " (&,):" "        ".toList := by decide
  have hopen : IsOver " (&,):" "( ".toList := by decide
  have hclose : IsOver " (&,):" " ):".toList := by decide
  have hparameters : IsOver " (&,):" (parametersOf declaration.fields) :=
    (isOver_parametersOf h).mono (by simp)
  exact hindent.append ((isOver_name h.1).append (hopen.append (hparameters.append hclose)))

theorem isOver_initializerOf (h : Declaration.IsField field) :
    IsOver " ()" (initializerOf field).toList := by
  have hlead : IsOver " ()" "m_".toList := by decide
  have hopen : IsOver " ()" "( ".toList := by decide
  have hclose : IsOver " ()" " )".toList := by decide
  have hname : IsOver " ()" field.1.toList := isOver_name h.1
  unfold initializerOf
  simp only [String.toList_append]
  exact (((hlead.append hname).append hopen).append hname).append hclose

theorem isOver_initializerLine (h : declaration.IsWellNamed) :
    IsOver " (),\x7b\x7d" (initializerLine declaration) := by
  have hindent : IsOver " (),\x7b\x7d" "            ".toList := by decide
  have hclose : IsOver " (),\x7b\x7d" " \x7b\x7d".toList := by decide
  have hpiece : ∀ field ∈ declaration.fields,
      IsOver " (),\x7b\x7d" (initializerOf field).toList := by
    intro field hfield
    exact (isOver_initializerOf (h.2 field hfield)).mono (by simp)
  have hinitializers : IsOver " (),\x7b\x7d" (initializersOf declaration.fields) :=
    IsOver.intercalate (by decide) hpiece
  exact hindent.append (hinitializers.append hclose)

theorem isOver_memberLineOf (h : Declaration.IsField field) :
    IsOver " :;" (memberLineOf field) := by
  have hindent : IsOver " :;" "        ".toList := by decide
  have hlead : IsOver " :;" " m_".toList := by decide
  have hclose : IsOver " :;" [';'] := by decide
  have hstorage : IsOver " :;" (TypeTable.standard.resolve field.2).storage.toList :=
    isOver_storage h.2 (by decide)
  exact hindent.append (hstorage.append (hlead.append ((isOver_name h.1).append hclose)))

theorem lineFeed_not_mem_bodyLines (h : declaration.IsWellNamed) :
    ∀ row ∈ bodyLines declaration, '\n' ∉ row := by
  have hmembers : ∀ row ∈ declaration.fields.map memberLineOf, '\n' ∉ row := by
    intro row hrow
    obtain ⟨field, hfield, rfl⟩ := List.mem_map.mp hrow
    exact (isOver_memberLineOf (h.2 field hfield)).not_mem (by decide) (by decide)
  simp only [bodyLines, List.forall_mem_cons]
  exact ⟨(isOver_constructorLine h).not_mem (by decide) (by decide),
    (isOver_initializerLine h).not_mem (by decide) (by decide), by simp, hmembers⟩

theorem lineFeed_not_mem_blockLines (h : declaration.IsWellNamed) :
    ∀ row ∈ blockLines declaration, '\n' ∉ row := by
  have hname : '\n' ∉ declaration.name.toList :=
    Name.not_mem_of_isPart_eq_false (by decide) h.1
  have hbody := lineFeed_not_mem_bodyLines h
  simp only [blockLines, openingLines, closingLines, listLines, braceLine, List.forall_mem_append,
    List.forall_mem_cons]
  simp [hname]
  exact hbody

theorem toList_rule : rule.toList = List.replicate 77 '*' := String.toList_ofList

theorem eq_of_mem_rule {c : Char} (h : c ∈ rule.toList) : c = '*' := by
  rw [toList_rule] at h
  exact List.eq_of_mem_replicate h

end Characters

/-! ## The whole header -/

theorem flatMap_blockOf {settings : Settings} (hsettings : settings.IsPlain)
    (declarations : List Declaration) :
    declarations.flatMap (blockOf settings) = Text.unlines (declarations.flatMap blockLines) := by
  rw [Text.unlines, List.flatMap_assoc]
  exact List.flatMap_congr fun declaration _ => blockOf_eq hsettings declaration

end Header

end RecordHeader
