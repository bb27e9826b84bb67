import RecordHeader.Proofs.Framing
import Mathlib.Tactic

set_option autoImplicit false

/-! # What a reader finds in a block

`readBlock?` reads the text of a block and is told nothing about its record.  It takes the name of
the struct from behind the word `struct`, cuts where the struct opens and closes, and reads the
types and names of the constructor's parameters, its initializers, and the types and names that are
declared inside the struct and behind it.

`readBlock?_block` says that in the block of a record it finds what `view` takes from the record
itself.  So whatever is said of a view is said of the emitted text.
-/

namespace RecordHeader.Header

/-! ## A reader of blocks -/

/-- Reads the type and the name from a line that declares something. -/
def readDeclaration? (line : List Char) : Option (String × String) :=
  readParameter? ((Text.trim line).rdropWhile (· == ';'))

/-- Reads the lines that end with a semicolon. -/
def readDeclarations? (text : List Char) : Option (List (String × String)) :=
  ((Text.lines text).filter (·.getLast? == some ';')).mapM readDeclaration?

/-- What stands in a block: a struct, and what is declared behind it.  Parameters, members and lists
have a type and a name. -/
structure BlockView where
  name : String
  parameters : List (String × String)
  initializers : List String
  members : List (String × String)
  lists : List (String × String)
deriving DecidableEq

/-- Reads a block. -/
def readBlock? (block : List Char) : Option BlockView := do
  let rest ← block.dropPrefix? "\n    /// Type definition\n    struct ".toList
  let (name, rest) ← rest.dropInfix? "\n    \x7b\n".toList
  let (body, rest) ← rest.dropInfix? closeMark
  let parameters ← readParameters? (String.ofList name) body
  let initializers ← readInitializers? body
  let members ← readDeclarations? body
  let lists ← readDeclarations? rest
  return { name := String.ofList name, parameters, initializers, members, lists }

/-- What the block of a record is to hold. -/
def view (settings : Settings) (record : Record) : BlockView where
  name := record.name
  parameters := record.fields.map fun field => (field.spelling.param, field.name)
  initializers := record.fields.map (initializer settings)
  members := record.fields.map fun field => (field.spelling.storage, settings.member field.name)
  lists := [("std::list<" ++ record.name ++ ">", settings.listMember record.name)]

/-! ## Its parts -/

section Parts

variable {settings : Settings} {declaration : Declaration} {field : String × String}

/-- A declared name is found behind the last blank. -/
theorem readDeclaration?_eq {line : List Char} {type name : String}
    (hline : (Text.trim line).rdropWhile (· == ';') = type.toList ++ ' ' :: name.toList)
    (hname : ∀ c ∈ name.toList, Name.isPart c = true) :
    readDeclaration? line = some (type, name) := by
  have hblank : ' ' ∉ name.toList := fun hmem => absurd (hname ' ' hmem) (by decide)
  rw [readDeclaration?, hline, readParameter?, Text.cutLast?_append _ hblank]
  simp

theorem readDeclaration?_memberLineOf (h : Declaration.IsField field) :
    readDeclaration? (memberLineOf field)
      = some ((TypeTable.standard.resolve field.2).storage, "m_" ++ field.1) := by
  refine readDeclaration?_eq ?_ (Name.isPart_of_mem_append (by decide) h.1)
  rw [rdropWhile_trim_memberLineOf h, String.toList_append]

/-- **Inside a struct, the members are declared.** -/
theorem readDeclarations?_bodyLines (h : declaration.IsWellNamed) :
    readDeclarations? (Text.unlines (bodyLines declaration))
      = some (declaration.fields.map fun field =>
          ((TypeTable.standard.resolve field.2).storage, "m_" ++ field.1)) := by
  have hmembers : ∀ row ∈ declaration.fields.map memberLineOf,
      (row.getLast? == some ';') = true := by
    intro row hrow
    obtain ⟨field, -, rfl⟩ := List.mem_map.mp hrow
    rw [getLast?_memberLineOf]
    rfl
  have hrows : (bodyLines declaration).filter (·.getLast? == some ';')
      = declaration.fields.map memberLineOf := by
    rw [bodyLines, List.filter_cons_of_neg (by simp [getLast?_constructorLine]),
      List.filter_cons_of_neg (by simp [getLast?_initializerLine]),
      List.filter_cons_of_neg (by simp), List.filter_eq_self.mpr hmembers]
  rw [readDeclarations?, lines_unlines_bodyLines h, hrows]
  exact mapM_map_eq_some fun field hfield => readDeclaration?_memberLineOf (h.2 field hfield)

/-- **Behind a struct, its list is declared.** -/
theorem readDeclarations?_listLines (h : declaration.IsWellNamed) :
    readDeclarations? (Text.unlines (listLines declaration))
      = some [("std::list<" ++ declaration.name ++ ">", "m_list" ++ declaration.name)] := by
  have hunbroken : ∀ row ∈ listLines declaration, '\n' ∉ row ∧ row.getLast? ≠ some '\r' :=
    fun row hrow => blockLines_unbroken h row (by simp [blockLines, closingLines, hrow])
  obtain ⟨core, hcore⟩ : ∃ core, ("std::list<" ++ declaration.name ++ ">").toList ++
      ' ' :: ("m_list" ++ declaration.name).toList = core := ⟨_, rfl⟩
  have hlines : listLines declaration
      = ["    /// List".toList, "    ".toList ++ (core ++ [';'])] := by
    rw [← hcore]
    unfold listLines
    simp
  have hread : readDeclaration? ("    ".toList ++ (core ++ [';'])) = some
      ("std::list<" ++ declaration.name ++ ">", "m_list" ++ declaration.name) := by
    obtain ⟨last, hlast, hlast'⟩ := (Name.exists_ends h.1).2
    have hfirst : core.head? = some 's' := by simp [← hcore]
    have hend : core.getLast? = some last := by
      simp [← hcore, List.getLast?_append, List.getLast?_cons, hlast]
    refine readDeclaration?_eq ?_ (Name.isPart_of_mem_append (by decide) h.1)
    rw [rdropWhile_trim_append (by decide) hfirst (by decide) hend hlast', hcore]
  have hsemicolon : ("    ".toList ++ (core ++ [';'])).getLast? = some ';' := by
    rw [← List.append_assoc, List.getLast?_concat]
  rw [readDeclarations?, Text.lines_unlines hunbroken, hlines, List.filter_cons_of_neg (by decide),
    List.filter_cons_of_pos (by simp only [hsemicolon, beq_self_eq_true]), List.filter_nil,
    List.mapM_cons, hread]
  rfl

/-- The text of a block, cut where its struct opens. -/
theorem unlines_blockLines_eq (declaration : Declaration) :
    Text.unlines (blockLines declaration)
      = "\n    /// Type definition\n    struct ".toList ++ (declaration.name.toList ++
          ("\n    \x7b\n".toList ++ Text.unlines (closingLines declaration))) := by
  unfold blockLines openingLines braceLine
  simp

end Parts

/-! ## The whole -/

section Whole

variable {settings : Settings} {declaration : Declaration}

/-- The view of a declared record, with the standard prefixes. -/
theorem view_toRecord (hmember : settings.memberPrefix = "m_")
    (hlist : settings.listPrefix = "list") (declaration : Declaration) (line : Nat) :
    view settings (declaration.toRecord .standard line) =
      { name := declaration.name
        parameters := declaration.fields.map fun field =>
          ((TypeTable.standard.resolve field.2).param, field.1)
        initializers := declaration.fields.map initializerOf
        members := declaration.fields.map fun field =>
          ((TypeTable.standard.resolve field.2).storage, "m_" ++ field.1)
        lists := [("std::list<" ++ declaration.name ++ ">", "m_list" ++ declaration.name)] } := by
  have hmembers : ∀ name, settings.member name = "m_" ++ name := fun name => by
    rw [Settings.member, hmember]
  have hlists : ∀ name, settings.listMember name = "m_list" ++ name := fun name => by
    rw [Settings.listMember, hmember, hlist]
    rfl
  unfold view initializer initializerOf
  simp only [hmembers, hlists, Declaration.toRecord, List.map_map]
  rfl

/-- **A block reads as its record.** -/
theorem readBlock?_block (hmember : settings.memberPrefix = "m_")
    (hlist : settings.listPrefix = "list") (h : declaration.IsWellNamed)
    (hne : declaration.fields ≠ []) (line : Nat) :
    readBlock? (block settings (declaration.toRecord .standard line)).toList
      = some (view settings (declaration.toRecord .standard line)) := by
  have hlead := List.dropPrefix?_append_of_beq (declaration.name.toList ++
      ("\n    \x7b\n".toList ++ Text.unlines (closingLines declaration)))
    (beq_self_eq_true "\n    /// Type definition\n    struct ".toList)
  have hname : (declaration.name.toList ++ ("\n    \x7b\n".toList ++
        Text.unlines (closingLines declaration))).dropInfix? "\n    \x7b\n".toList
      = some (declaration.name.toList, Text.unlines (closingLines declaration)) :=
    Text.dropInfix?_append_cons (Name.not_mem_of_isPart_eq_false (by decide) h.1)
  have hclose : (Text.unlines (closingLines declaration)).dropInfix? closeMark
      = some (Text.unlines (bodyLines declaration), Text.unlines (listLines declaration)) := by
    have hnone : ∀ row ∈ ([] : List (List Char)), '\n' ∉ row := by simp
    simpa using dropInfix?_closeMark h hnone
  -- with the three cuts in place, each reader has its own part of the text
  rw [toList_block hmember hlist, unlines_blockLines_eq, view_toRecord hmember hlist, readBlock?]
  simp only [Option.bind_eq_bind, Option.bind_some, hlead, hname, hclose, String.ofList_toList,
    readParameters?_bodyLines h hne, readInitializers?_bodyLines h hne,
    readDeclarations?_bodyLines h, readDeclarations?_listLines h]
  rfl

/-- So does each block in the header of an accepted text. -/
theorem readBlock?_of_parse {text : String} {schema : Schema} {record : Record}
    (hmember : settings.memberPrefix = "m_") (hlist : settings.listPrefix = "list")
    (hparse : Schema.parse .standard text = .ok schema) (hrecord : record ∈ schema.records)
    (hne : record.fields ≠ []) :
    readBlock? (block settings record).toList = some (view settings record) := by
  obtain ⟨declared, hdeclared, hrecords⟩ := Schema.exists_declares_of_parse hparse
  obtain ⟨declaration, hmem, line, rfl⟩ := exists_declaration_of_mem hrecords hrecord
  have hfields : declaration.fields ≠ [] := by simpa [Declaration.toRecord] using hne
  exact readBlock?_block hmember hlist (hdeclared.isWellNamed declaration hmem) hfields line

end Whole

end RecordHeader.Header
