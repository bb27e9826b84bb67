import RecordHeader.Header
import RecordHeader.Proofs.Jobs
import RecordHeader.Proofs.Parsing
import Mathlib.Tactic

set_option autoImplicit false

/-! # A header is a faithful image of the definitions

Two accepted texts have the same header under the same settings if and only if they declare
the same records with the same fields.  Nothing is assumed of the settings: a prefix or a file
name may hold any characters, also those that part the pieces of a header.

What makes a header readable all the same is the constructor of each record.  The line in front
of it holds the record's name and ends at the first line feed, and its parameters end at the
first closing parenthesis; neither can occur in what is written there, since names and declared
types are identifiers.  So the first block of a row of blocks determines its record
(`blockOf_append_inj`), hence the whole block, hence the rest of the row (`blocks_inj`).
-/

namespace RecordHeader

/-! ## Cutting a text at a character -/

section Cutting

variable {α : Type} [DecidableEq α] {a : α} {x₁ x₂ y₁ y₂ : List α}

/-- Two texts are cut alike at the first occurrence of a character. -/
theorem append_cons_inj_of_not_mem_left (h₁ : a ∉ x₁) (h₂ : a ∉ x₂)
    (h : x₁ ++ a :: y₁ = x₂ ++ a :: y₂) : x₁ = x₂ ∧ y₁ = y₂ := by
  have hsplit := congrArg (List.splitOn a) h
  rw [List.splitOn_append_cons_self_of_not_mem h₁,
    List.splitOn_append_cons_self_of_not_mem h₂] at hsplit
  obtain rfl : x₁ = x₂ := (List.cons.inj hsplit).1
  exact ⟨rfl, (List.cons.inj (List.append_cancel_left h)).2⟩

/-- Two texts are cut alike at the last occurrence of a character. -/
theorem append_cons_inj_of_not_mem_right (h₁ : a ∉ y₁) (h₂ : a ∉ y₂)
    (h : x₁ ++ a :: y₁ = x₂ ++ a :: y₂) : x₁ = x₂ ∧ y₁ = y₂ := by
  have hreverse : y₁.reverse ++ a :: x₁.reverse = y₂.reverse ++ a :: x₂.reverse := by
    simpa using congrArg List.reverse h
  obtain ⟨hy, hx⟩ := append_cons_inj_of_not_mem_left (by simpa using h₁) (by simpa using h₂)
    hreverse
  exact ⟨List.reverse_injective hx, List.reverse_injective hy⟩

/-- Pieces are read back from between separators that start with a character which is in none
of them. -/
theorem intercalate_inj {sep : List α} {pieces others : List (List α)}
    (h₁ : ∀ piece ∈ pieces, piece ≠ [] ∧ a ∉ piece) (h₂ : ∀ piece ∈ others, piece ≠ [] ∧ a ∉ piece)
    (h : (a :: sep).intercalate pieces = (a :: sep).intercalate others) : pieces = others := by
  induction pieces generalizing others with
  | nil =>
      cases others with
      | nil => rfl
      | cons other others =>
          have hne : other ≠ [] := (h₂ other (by simp)).1
          cases others <;> simp [List.intercalate_cons_cons, hne] at h
  | cons piece pieces ih =>
      have hpiece := h₁ piece (by simp)
      cases others with
      | nil => cases pieces <;> simp [List.intercalate_cons_cons, hpiece.1] at h
      | cons other others =>
          have hother := h₂ other (by simp)
          cases pieces with
          | nil =>
              cases others with
              | nil => simpa using h
              | cons next others =>
                  rw [List.intercalate_singleton, List.intercalate_cons_cons] at h
                  exact absurd (h ▸ by simp) hpiece.2
          | cons next pieces =>
              cases others with
              | nil =>
                  rw [List.intercalate_singleton, List.intercalate_cons_cons] at h
                  exact absurd (h ▸ by simp) hother.2
              | cons next' others =>
                  rw [List.intercalate_cons_cons, List.intercalate_cons_cons, List.append_assoc,
                    List.append_assoc, List.cons_append, List.cons_append] at h
                  obtain ⟨rfl, htail⟩ := append_cons_inj_of_not_mem_left hpiece.2 hother.2 h
                  rw [ih (fun p hp => h₁ p (by simp [hp])) (fun p hp => h₂ p (by simp [hp]))
                    (List.append_cancel_left htail)]

omit [DecidableEq α] in
/-- What stands between separators is in a separator or in a piece. -/
theorem mem_of_mem_intercalate {sep : List α} {pieces : List (List α)}
    (h : a ∈ sep.intercalate pieces) : a ∈ sep ∨ ∃ piece ∈ pieces, a ∈ piece := by
  induction pieces with
  | nil => simp at h
  | cons piece pieces ih =>
      cases pieces with
      | nil => exact Or.inr ⟨piece, by simp, by simpa using h⟩
      | cons next pieces =>
          rw [List.intercalate_cons_cons, List.append_assoc, List.mem_append,
            List.mem_append] at h
          rcases h with h | h | h
          · exact Or.inr ⟨piece, by simp, h⟩
          · exact Or.inl h
          · rcases ih h with h | ⟨found, hfound, h⟩
            · exact Or.inl h
            · exact Or.inr ⟨found, List.mem_cons_of_mem _ hfound, h⟩

omit [DecidableEq α] in
/-- A function that tells the members of two rows apart tells the rows apart. -/
theorem eq_of_map_eq {β : Type} {f : α → β} {row other : List α}
    (hf : ∀ x ∈ row, ∀ y ∈ other, f x = f y → x = y) (h : row.map f = other.map f) :
    row = other := by
  induction row generalizing other with
  | nil => exact (List.map_eq_nil_iff.mp h.symm).symm
  | cons x row ih =>
      cases other with
      | nil => cases h
      | cons y other =>
          obtain ⟨hxy, hrow⟩ := List.cons.inj h
          rw [hf x (by simp) y (by simp) hxy,
            ih (fun x' hx y' hy => hf x' (by simp [hx]) y' (by simp [hy])) hrow]

end Cutting

/-! ## Parameters -/

namespace Header

/-- How the standard table spells a declared type as a parameter. -/
theorem resolve_standard_param (declared : String) :
    (TypeTable.standard.resolve declared).param =
      if declared = "string" then "const std::string &" else declared := by
  by_cases h : declared = "string"
  · subst h
    rfl
  · have hfind : TypeTable.standard.get? declared = none := by
      simp [TypeTable.get?, TypeTable.standard, Ne.symm h]
    rw [TypeTable.resolve, hfind, if_neg h]

/-- The spelling of a string parameter is no identifier, so no declared type is taken for
another one. -/
theorem resolve_standard_param_inj {declared other : String}
    (h₁ : Name.isIdentifier declared = true) (h₂ : Name.isIdentifier other = true)
    (h : (TypeTable.standard.resolve declared).param = (TypeTable.standard.resolve other).param) :
    declared = other := by
  have hspelled : Name.isIdentifier "const std::string &" = false := by decide
  rw [resolve_standard_param, resolve_standard_param] at h
  by_cases hd : declared = "string"
  · by_cases ho : other = "string"
    · rw [hd, ho]
    · rw [if_pos hd, if_neg ho] at h
      rw [← h, hspelled] at h₂
      cases h₂
  · by_cases ho : other = "string"
    · rw [if_neg hd, if_pos ho] at h
      rw [h, hspelled] at h₁
      cases h₁
    · rwa [if_neg hd, if_neg ho] at h

/-- The parameter of a field, as the standard table spells it. -/
def parameterOf (field : String × String) : List Char :=
  (parameter (Field.ofDeclared .standard field.1 field.2)).toList

theorem parameterOf_eq (field : String × String) :
    parameterOf field
      = (TypeTable.standard.resolve field.2).param.toList ++ ' ' :: field.1.toList := by
  show ((TypeTable.standard.resolve field.2).param ++ " " ++ field.1).toList = _
  rw [String.toList_append, String.toList_append, List.append_assoc]
  rfl

/-- A parameter holds no character but those of identifiers, blanks and those of the spelling
of strings. -/
theorem not_mem_parameterOf {field : String × String} {c : Char}
    (h : Declaration.IsField field) (hpart : Name.isPart c = false) (hblank : c ≠ ' ')
    (hspelled : c ∉ "const std::string &".toList) : c ∉ parameterOf field := by
  have hname : c ∉ field.1.toList := Name.not_mem_of_isPart_eq_false hpart h.1
  have htype : c ∉ field.2.toList := Name.not_mem_of_isPart_eq_false hpart h.2
  rw [parameterOf_eq, resolve_standard_param]
  by_cases hstring : field.2 = "string"
  · rw [if_pos hstring]
    simp only [List.mem_append, List.mem_cons, not_or]
    exact ⟨hspelled, hblank, hname⟩
  · rw [if_neg hstring]
    simp only [List.mem_append, List.mem_cons, not_or]
    exact ⟨htype, hblank, hname⟩

theorem parameterOf_inj {field other : String × String} (h₁ : Declaration.IsField field)
    (h₂ : Declaration.IsField other) (h : parameterOf field = parameterOf other) :
    field = other := by
  rw [parameterOf_eq, parameterOf_eq] at h
  -- the name is what follows the last blank: the spelling of a type may hold blanks itself
  have hblank : Name.isPart ' ' = false := by decide
  obtain ⟨htype, hname⟩ := append_cons_inj_of_not_mem_right
    (Name.not_mem_of_isPart_eq_false hblank h₁.1) (Name.not_mem_of_isPart_eq_false hblank h₂.1) h
  have hdeclared := resolve_standard_param_inj h₁.2 h₂.2 (String.toList_inj.mp htype)
  exact Prod.ext (String.toList_inj.mp hname) hdeclared

/-- The parameters of a constructor. -/
def parametersOf (fields : List (String × String)) : List Char :=
  [',', ' '].intercalate (fields.map parameterOf)

theorem parametersOf_inj {fields others : List (String × String)}
    (h₁ : ∀ field ∈ fields, Declaration.IsField field)
    (h₂ : ∀ field ∈ others, Declaration.IsField field)
    (h : parametersOf fields = parametersOf others) : fields = others := by
  have hpieces : ∀ row : List (String × String), (∀ field ∈ row, Declaration.IsField field) →
      ∀ piece ∈ row.map parameterOf, piece ≠ [] ∧ ',' ∉ piece := by
    intro row hrow piece hpiece
    obtain ⟨field, hfield, rfl⟩ := List.mem_map.mp hpiece
    refine ⟨?_, not_mem_parameterOf (hrow field hfield) (by decide) (by decide) (by decide)⟩
    rw [parameterOf_eq]
    simp
  have hmap := intercalate_inj (hpieces fields h₁) (hpieces others h₂) h
  refine eq_of_map_eq ?_ hmap
  intro field hfield other hother
  exact parameterOf_inj (h₁ field hfield) (h₂ other hother)

/-! ## Blocks -/

/-- What stands in a block before its record's name. -/
def blockLead : String :=
  "\n" ++ ("    /// Type definition\n" ++ "    struct ")

/-- What stands in a block between the line with its record's name and the parameters. -/
def constructorLead (name : String) : String :=
  "    \x7b\n" ++ ("        " ++ (name ++ "( "))

/-- What stands in a block after the parameters and the parenthesis that closes them. -/
def blockRest (settings : Settings) (record : Record) : String :=
  ":\n" ++
  ("            " ++ (", ".intercalate (record.fields.map (initializer settings)) ++
  (" \x7b\x7d\n" ++ ("\n" ++ (String.join (record.fields.map (memberLine settings)) ++
  ("    \x7d;\n" ++ ("    /// List\n" ++
  ("    std::list<" ++ (record.name ++ ("> " ++ (settings.listMember record.name ++
  ";\n")))))))))))

/-- Only the prefixes of the settings matter to a block. -/
theorem block_congr {settings other : Settings}
    (hmember : other.memberPrefix = settings.memberPrefix)
    (hlist : other.listPrefix = settings.listPrefix) : block other = block settings := by
  funext record
  unfold block initializer memberLine Settings.listMember Settings.member
  rw [hmember, hlist]

/-- A block by what surrounds its record's name and its constructor's parameters. -/
theorem block_eq (settings : Settings) (record : Record) :
    block settings record =
      blockLead ++ (record.name ++ ("\n" ++ (constructorLead record.name ++
      (", ".intercalate (record.fields.map parameter) ++ (" " ++ (")" ++
        blockRest settings record)))))) := by
  have hclose : " ):\n" = " " ++ (")" ++ ":\n") := by decide
  unfold block blockLead constructorLead blockRest
  rw [hclose]
  simp only [String.append_assoc]

/-- The block of a declared record.  It does not depend on the line of the declaration. -/
def blockOf (settings : Settings) (declaration : Declaration) : List Char :=
  (block settings (declaration.toRecord .standard 0)).toList

theorem toList_parameters (declaration : Declaration) (line : Nat) :
    (", ".intercalate ((declaration.toRecord .standard line).fields.map parameter)).toList
      = parametersOf declaration.fields := by
  rw [String.toList_intercalate, parametersOf, Declaration.toRecord, List.map_map, List.map_map]
  rfl

/-- The characters of a block and of what follows it: the record's name stands before the first
line feed behind the opening, and the parameters stand before the first closing parenthesis
behind that name. -/
theorem blockOf_append (settings : Settings) (declaration : Declaration) (rest : List Char) :
    blockOf settings declaration ++ rest =
      blockLead.toList ++ (declaration.name.toList ++ '\n' ::
      ((constructorLead declaration.name).toList ++
      ((parametersOf declaration.fields ++ [' ']) ++ ')' ::
        ((blockRest settings (declaration.toRecord .standard 0)).toList ++ rest)))) := by
  unfold blockOf
  rw [block_eq]
  simp only [String.toList_append, toList_parameters, List.append_assoc]
  rfl

theorem not_mem_parametersOf {fields : List (String × String)}
    (h : ∀ field ∈ fields, Declaration.IsField field) : ')' ∉ parametersOf fields ++ [' '] := by
  intro hmem
  rcases List.mem_append.mp hmem with hmem | hmem
  · rcases mem_of_mem_intercalate hmem with hmem | ⟨piece, hpiece, hmem⟩
    · exact absurd hmem (by decide)
    · obtain ⟨field, hfield, rfl⟩ := List.mem_map.mp hpiece
      exact not_mem_parameterOf (h field hfield) (by decide) (by decide) (by decide) hmem
  · exact absurd hmem (by decide)

/-- **The first block of a row can be read.** It determines its record, and so where it
ends. -/
theorem blockOf_append_inj {settings : Settings} {declaration other : Declaration}
    {rest rest' : List Char} (h₁ : declaration.IsWellNamed) (h₂ : other.IsWellNamed)
    (h : blockOf settings declaration ++ rest = blockOf settings other ++ rest') :
    declaration = other ∧ rest = rest' := by
  have hfeed : Name.isPart '\n' = false := by decide
  have hopened := h
  rw [blockOf_append, blockOf_append] at hopened
  obtain ⟨hnames, hbody⟩ := append_cons_inj_of_not_mem_left
    (Name.not_mem_of_isPart_eq_false hfeed h₁.1) (Name.not_mem_of_isPart_eq_false hfeed h₂.1)
    (List.append_cancel_left hopened)
  have hname : declaration.name = other.name := String.toList_inj.mp hnames
  rw [hname] at hbody
  obtain ⟨hparameters, -⟩ := append_cons_inj_of_not_mem_left (not_mem_parametersOf h₁.2)
    (not_mem_parametersOf h₂.2) (List.append_cancel_left hbody)
  have hfields := parametersOf_inj h₁.2 h₂.2 (List.append_cancel_right hparameters)
  obtain rfl : declaration = other := by
    cases declaration
    cases other
    simp only at hname hfields
    rw [hname, hfields]
  exact ⟨rfl, List.append_cancel_left h⟩

/-- **A row of blocks can be read.** Equal rows come from equal declarations. -/
theorem blocks_inj {settings : Settings} {declarations others : List Declaration}
    (h₁ : ∀ declaration ∈ declarations, declaration.IsWellNamed)
    (h₂ : ∀ declaration ∈ others, declaration.IsWellNamed)
    (h : declarations.flatMap (blockOf settings) = others.flatMap (blockOf settings)) :
    declarations = others := by
  have hne : ∀ (declaration : Declaration) (rest : List Char),
      blockOf settings declaration ++ rest ≠ [] := by
    intro declaration rest hnil
    rw [blockOf_append] at hnil
    simp at hnil
  induction declarations generalizing others with
  | nil =>
      cases others with
      | nil => rfl
      | cons other others => exact absurd h.symm (hne other _)
  | cons declaration declarations ih =>
      cases others with
      | nil => exact absurd h (hne declaration _)
      | cons other others =>
          rw [List.flatMap_cons, List.flatMap_cons] at h
          obtain ⟨rfl, hrest⟩ :=
            blockOf_append_inj (h₁ declaration (by simp)) (h₂ other (by simp)) h
          rw [ih (fun d hd => h₁ d (by simp [hd])) (fun d hd => h₂ d (by simp [hd])) hrest]

/-! ## Headers -/

/-- The blocks of a schema are those of its declarations. -/
theorem toList_join_blocks (settings : Settings) {declarations : List Declaration}
    {schema : Schema}
    (h : List.Forall₂ (fun declaration record => ∃ line, record = declaration.toRecord .standard line)
      declarations schema.records) :
    (String.join (blocks settings schema)).toList = declarations.flatMap (blockOf settings) := by
  rw [String.toList_join, blocks]
  generalize schema.records = records at h
  induction h with
  | nil => rfl
  | cons hrecord _ ih =>
      obtain ⟨line, rfl⟩ := hrecord
      rw [List.map_cons, List.flatMap_cons, List.flatMap_cons, ih]
      rfl

/-- Under the same settings, headers are equal when their blocks are. -/
theorem text_eq_iff (settings : Settings) (schema other : Schema) :
    text settings schema = text settings other ↔
      String.join (blocks settings schema) = String.join (blocks settings other) := by
  unfold text
  rw [String.append_left_inj, String.append_right_inj]

/-- **A header can be read.** Under the same settings, the headers of two rows of declarations
are equal only if the rows are. -/
theorem text_eq_iff_declarations (settings : Settings) {declarations others : List Declaration}
    {schema other : Schema}
    (h₁ : ∀ declaration ∈ declarations, declaration.IsWellNamed)
    (h₂ : ∀ declaration ∈ others, declaration.IsWellNamed)
    (hrecords : List.Forall₂
      (fun declaration record => ∃ line, record = declaration.toRecord .standard line)
      declarations schema.records)
    (hrecords' : List.Forall₂
      (fun declaration record => ∃ line, record = declaration.toRecord .standard line)
      others other.records) :
    text settings schema = text settings other ↔ declarations = others := by
  calc text settings schema = text settings other
      ↔ String.join (blocks settings schema) = String.join (blocks settings other) :=
        text_eq_iff settings schema other
    _ ↔ declarations.flatMap (blockOf settings) = others.flatMap (blockOf settings) := by
        rw [← String.toList_inj, toList_join_blocks settings hrecords,
          toList_join_blocks settings hrecords']
    _ ↔ declarations = others := ⟨blocks_inj h₁ h₂, fun h => by rw [h]⟩

end Header

/-- **A header is a faithful image of the definitions.** Let two texts be accepted under the
same settings, whatever these are.  Each of them declares one row of records, and their headers
are equal if and only if the two rows are.  So a comparison by bytes, of a file that holds the
header of the first text with the definitions of the second, tells whether they declare the same:
the check says so, and an update leaves the file unchanged exactly then. -/
theorem artifact_faithful (settings : Settings) (first second : String)
    (rendered rendered' : Rendered) (h₁ : Job.result { settings } first = .ok rendered)
    (h₂ : Job.result { settings } second = .ok rendered') :
    (∃ declarations, Declares first declarations) ∧
    (∃ declarations, Declares second declarations) ∧
    ∀ declarations others, Declares first declarations → Declares second others →
      (rendered.artifact = rendered'.artifact ↔ declarations = others) ∧
      ∀ (files : FileSystem) (input output : String),
        files.read input = .ok (Text.utf8 second) →
        files.read output = .ok (Text.utf8 rendered.artifact) →
        (Run.on (Job.isCurrent { settings } input output) {} files).1.1
          = .ok (decide (declarations = others)) ∧
        ((∃ summary, (Run.on (Job.update { settings } input output) {} files).1.1 = .ok summary ∧
          summary.unchanged = true) ↔ declarations = others) := by
  have hsecond := h₂
  obtain ⟨schema, hparse, -, rfl⟩ := Job.result_eq_ok_iff.mp h₁
  obtain ⟨schema', hparse', -, rfl⟩ := Job.result_eq_ok_iff.mp h₂
  obtain ⟨declared, hdeclared, hrecords⟩ := Schema.exists_declares_of_parse hparse
  obtain ⟨declared', hdeclared', hrecords'⟩ := Schema.exists_declares_of_parse hparse'
  refine ⟨⟨declared, hdeclared⟩, ⟨declared', hdeclared'⟩, ?_⟩
  intro declarations others hfirst hother
  obtain rfl := hdeclared.unique hfirst
  obtain rfl := hdeclared'.unique hother
  have hiff := Header.text_eq_iff_declarations settings hdeclared.isWellNamed
    hdeclared'.isWellNamed hrecords hrecords'
  refine ⟨hiff, ?_⟩
  intro files input output hinput houtput
  have hbytes : (Text.utf8 (Header.text settings schema) = Text.utf8 (Header.text settings schema'))
      ↔ declared = declared' :=
    ⟨fun h => hiff.mp (Text.utf8_injective h), fun h => congrArg Text.utf8 (hiff.mpr h)⟩
  have hcurrent := Job.isCurrent_of_read hinput hsecond houtput {}
  have hdecide : decide (Text.utf8 (Header.text settings schema)
      = Text.utf8 (Header.text settings schema')) = decide (declared = declared') := by
    rw [decide_eq_decide]
    exact hbytes
  refine ⟨hcurrent.trans (congrArg Except.ok hdecide), ?_⟩
  rw [Job.update_unchanged_iff _ _ _ {} {}, hcurrent, Except.ok.injEq, decide_eq_true_iff]
  exact hbytes

/-- A working directory that holds definitions and a header. -/
def FileSystem.ofTexts (definitions header : String) : FileSystem :=
  (FileSystem.fresh.put ["home", "developer", "a.def"] (.file .file (Text.utf8 definitions))).put
    ["home", "developer", "a.hpp"] (.file .file (Text.utf8 header))

theorem FileSystem.read_ofTexts (definitions header : String) :
    (ofTexts definitions header).read "a.def" = .ok (Text.utf8 definitions) ∧
    (ofTexts definitions header).read "a.hpp" = .ok (Text.utf8 header) :=
  ⟨rfl, rfl⟩

/-- Settings that put parentheses and line feeds into a header, a text, the same records laid out
otherwise, and a text that declares another type. -/
theorem artifact_faithful_layout :
    ∃ (settings : Settings) (first second third : Rendered),
      Job.result { settings } "A x:int y:string" = .ok first ∧
      Job.result { settings } "\tA x:int  y:string\r\n\nB" = .ok second ∧
      Job.result { settings } "A x:int y:bool" = .ok third ∧
      first.artifact = second.artifact ∧ first.artifact ≠ third.artifact ∧
      (Run.on (Job.isCurrent { settings } "a.def" "a.hpp") {}
        (.ofTexts "\tA x:int  y:string\r\n\nB" first.artifact)).1.1 = .ok true ∧
      (Run.on (Job.isCurrent { settings } "a.def" "a.hpp") {}
        (.ofTexts "A x:int y:bool" first.artifact)).1.1 = .ok false := by
  have h₁ : Job.result { settings := { memberPrefix := ")\n(" } } "A x:int y:string" = .ok _ :=
    Job.result_of_ok rfl rfl
  have h₂ : Job.result { settings := { memberPrefix := ")\n(" } } "\tA x:int  y:string\r\n\nB"
    = .ok _ := Job.result_of_ok rfl rfl
  have h₃ : Job.result { settings := { memberPrefix := ")\n(" } } "A x:int y:bool" = .ok _ :=
    Job.result_of_ok rfl rfl
  obtain ⟨hsame, hcurrent⟩ := (artifact_faithful _ _ _ _ _ h₁ h₂).2.2
    [⟨"A", [("x", "int"), ("y", "string")]⟩] [⟨"A", [("x", "int"), ("y", "string")]⟩]
    (by decide) (by decide)
  obtain ⟨hother, hstale⟩ := (artifact_faithful _ _ _ _ _ h₁ h₃).2.2
    [⟨"A", [("x", "int"), ("y", "string")]⟩] [⟨"A", [("x", "int"), ("y", "bool")]⟩]
    (by decide) (by decide)
  obtain ⟨hinput, houtput⟩ := FileSystem.read_ofTexts "\tA x:int  y:string\r\n\nB" _
  obtain ⟨hinput', houtput'⟩ := FileSystem.read_ofTexts "A x:int y:bool" _
  refine ⟨_, _, _, _, h₁, h₂, h₃, hsame.mpr rfl, ?_, (hcurrent _ _ _ hinput houtput).1,
    (hstale _ _ _ hinput' houtput').1⟩
  intro heq
  exact absurd (hother.mp heq) (by decide)

end RecordHeader
