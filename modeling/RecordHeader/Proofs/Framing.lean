import RecordHeader.Proofs.ReadBack
import Mathlib.Tactic

set_option autoImplicit false

/-! # Definitions cannot break the frame of a header

Between its preamble and its footer a header has nothing but the blocks of its records.  This file
says that no definition text can write anything there that would be read as something else: the
blocks hold few characters, their lines are counted, and their brackets are balanced.

Balance is shown for all kinds of brackets at once.  `IsNested` builds texts in which brackets
enclose nested texts, and a block is such a text (`isNested_blockLines`): its names cannot hold a
bracket, and what the block adds of its own comes in pairs.  Nested texts are balanced in each kind
(`IsNested.isBalanced`), and so is any row of them, up to the end of each one.
-/

namespace RecordHeader

/-! ## Brackets -/

/-- A kind of brackets. -/
structure Bracket where
  opener : Char
  closer : Char
deriving DecidableEq

namespace Bracket

def braces : Bracket := ⟨'\x7b', '\x7d'⟩

def parentheses : Bracket := ⟨'(', ')'⟩

def angles : Bracket := ⟨'<', '>'⟩

/-- The kinds of brackets in a header. -/
def all : List Bracket :=
  [braces, parentheses, angles]

/-- The brackets of a kind are balanced: no prefix of the text closes more than it opens, and the
whole text closes what it opens. -/
structure IsBalanced (bracket : Bracket) (text : List Char) : Prop where
  le_of_prefix : ∀ front, front <+: text → front.count bracket.closer ≤ front.count bracket.opener
  count_eq : text.count bracket.closer = text.count bracket.opener

/-- A kind of brackets that does not occur in a text. -/
def IsAbsent (bracket : Bracket) (text : List Char) : Prop :=
  bracket.opener ∉ text ∧ bracket.closer ∉ text

instance (bracket : Bracket) (text : List Char) : Decidable (bracket.IsAbsent text) :=
  inferInstanceAs (Decidable (_ ∧ _))

variable {bracket other : Bracket} {text text' : List Char}

theorem opener_ne_closer (h : bracket ∈ all) : bracket.opener ≠ bracket.closer := by
  have hkinds : ∀ bracket ∈ all, bracket.opener ≠ bracket.closer := by decide
  exact hkinds bracket h

/-- Two kinds of brackets share no character. -/
theorem eq_or_isAbsent (h : bracket ∈ all) (h' : other ∈ all) :
    other = bracket ∨ bracket.IsAbsent [other.opener] ∧ bracket.IsAbsent [other.closer] := by
  have hkinds : ∀ bracket ∈ all, ∀ other ∈ all, other = bracket ∨
      (bracket.opener ∉ [other.opener] ∧ bracket.closer ∉ [other.opener]) ∧
      bracket.opener ∉ [other.closer] ∧ bracket.closer ∉ [other.closer] := by
    decide
  exact hkinds bracket h other h'

theorem IsAbsent.of_subset (h : bracket.IsAbsent text') (hsubset : text ⊆ text') :
    bracket.IsAbsent text :=
  ⟨fun hmem => h.1 (hsubset hmem), fun hmem => h.2 (hsubset hmem)⟩

theorem IsAbsent.isBalanced (h : bracket.IsAbsent text) : bracket.IsBalanced text where
  le_of_prefix front hfront := by
    have hcloser : front.count bracket.closer = 0 :=
      List.count_eq_zero.mpr (h.of_subset hfront.subset).2
    omega
  count_eq := by rw [List.count_eq_zero.mpr h.1, List.count_eq_zero.mpr h.2]

/-- A balanced text ends where it started, so the next one starts anew. -/
theorem IsBalanced.append (h : bracket.IsBalanced text) (h' : bracket.IsBalanced text') :
    bracket.IsBalanced (text ++ text') where
  le_of_prefix front hfront := by
    rcases List.prefix_or_prefix_of_prefix hfront (List.prefix_append text text') with hin | hover
    · exact h.le_of_prefix front hin
    · -- the prefix reaches into the second text, where nothing of the first one is open
      obtain ⟨rest, rfl⟩ := hover
      have hrest := h'.le_of_prefix rest ((List.prefix_append_right_inj text).mp hfront)
      have hcount := h.count_eq
      rw [List.count_append, List.count_append]
      omega
  count_eq := by rw [List.count_append, List.count_append, h.count_eq, h'.count_eq]

/-- Brackets around a balanced text: inside them, one more is open. -/
theorem IsBalanced.enclose (h : bracket.IsBalanced text)
    (hne : bracket.opener ≠ bracket.closer) :
    bracket.IsBalanced (bracket.opener :: (text ++ [bracket.closer])) where
  le_of_prefix front hfront := by
    have hcount := h.count_eq
    rcases List.prefix_cons_iff.mp hfront with rfl | ⟨inside, rfl, hinside⟩
    · exact Nat.le_refl 0
    · rw [List.count_cons_of_ne hne, List.count_cons_self]
      rcases List.prefix_concat_iff.mp hinside with rfl | hinside
      · -- the whole text, whose last bracket closes the first one
        rw [List.count_append, List.count_append, List.count_singleton_self]
        omega
      · have hle := h.le_of_prefix inside hinside
        omega
  count_eq := by
    have hnone : [bracket.closer].count bracket.opener = 0 :=
      List.count_eq_zero.mpr (by simpa using hne)
    have hcount := h.count_eq
    rw [List.count_cons_of_ne hne, List.count_cons_self, List.count_append, List.count_append,
      List.count_singleton_self, hnone]
    omega

end Bracket

/-! ## Nested texts -/

/-- Brackets of all kinds enclose texts of the same sort, side by side. -/
inductive IsNested : List Char → Prop
  | nil : IsNested []
  | plain {c : Char} {rest : List Char} (hc : ∀ bracket ∈ Bracket.all, bracket.IsAbsent [c])
      (h : IsNested rest) : IsNested (c :: rest)
  | enclosed {inner rest : List Char} (bracket : Bracket) (hkind : bracket ∈ Bracket.all)
      (hinner : IsNested inner) (h : IsNested rest) :
      IsNested (bracket.opener :: (inner ++ bracket.closer :: rest))

namespace IsNested

variable {text text' : List Char}

/-- **Nested texts are balanced** in each kind of brackets. -/
theorem isBalanced (h : IsNested text) {bracket : Bracket} (hbracket : bracket ∈ Bracket.all) :
    bracket.IsBalanced text := by
  induction h with
  | nil => exact Bracket.IsAbsent.isBalanced ⟨List.not_mem_nil, List.not_mem_nil⟩
  | plain hc _ ih => exact (hc bracket hbracket).isBalanced.append ih
  | @enclosed inner rest other hkind _ _ hinner hrest =>
      have hpair : bracket.IsBalanced (other.opener :: (inner ++ [other.closer])) := by
        rcases Bracket.eq_or_isAbsent hbracket hkind with rfl | ⟨hopener, hcloser⟩
        · exact hinner.enclose (Bracket.opener_ne_closer hbracket)
        · -- brackets of another kind do not count
          exact hopener.isBalanced.append (hinner.append hcloser.isBalanced)
      rw [List.append_cons, ← List.cons_append]
      exact hpair.append hrest

theorem of_isAbsent (h : ∀ bracket ∈ Bracket.all, bracket.IsAbsent text) : IsNested text := by
  induction text with
  | nil => exact nil
  | cons c rest ih =>
      have hfirst : ∀ bracket ∈ Bracket.all, bracket.IsAbsent [c] := fun bracket hbracket =>
        (h bracket hbracket).of_subset (by simp)
      have hrest : ∀ bracket ∈ Bracket.all, bracket.IsAbsent rest := fun bracket hbracket =>
        (h bracket hbracket).of_subset (List.subset_cons_self _ _)
      exact plain hfirst (ih hrest)

theorem append (h : IsNested text) (h' : IsNested text') : IsNested (text ++ text') := by
  induction h with
  | nil => exact h'
  | plain hc _ ih => exact plain hc ih
  | enclosed bracket hkind hinner _ _ ih =>
      rw [List.cons_append, List.append_assoc, List.cons_append]
      exact enclosed bracket hkind hinner ih

theorem flatMap {α : Type} {row : List α} {f : α → List Char} (h : ∀ x ∈ row, IsNested (f x)) :
    IsNested (row.flatMap f) := by
  induction row with
  | nil => exact nil
  | cons x row ih =>
      rw [List.flatMap_cons]
      exact (h x List.mem_cons_self).append (ih fun y hy => h y (List.mem_cons_of_mem _ hy))

theorem intercalate {separator : List Char} {pieces : List (List Char)}
    (hseparator : IsNested separator) (h : ∀ piece ∈ pieces, IsNested piece) :
    IsNested (separator.intercalate pieces) := by
  induction pieces with
  | nil => exact nil
  | cons piece pieces ih =>
      have hpiece := h piece List.mem_cons_self
      have hpieces := ih fun other hother => h other (List.mem_cons_of_mem _ hother)
      cases pieces with
      | nil =>
          rw [List.intercalate_singleton]
          exact hpiece
      | cons next pieces =>
          rw [List.intercalate_cons_cons]
          exact (hpiece.append hseparator).append hpieces

theorem inBraces (h : IsNested text) (h' : IsNested text') :
    IsNested ('\x7b' :: (text ++ '\x7d' :: text')) :=
  enclosed Bracket.braces (by simp [Bracket.all]) h h'

theorem inParentheses (h : IsNested text) (h' : IsNested text') :
    IsNested ('(' :: (text ++ ')' :: text')) :=
  enclosed Bracket.parentheses (by simp [Bracket.all]) h h'

theorem inAngles (h : IsNested text) (h' : IsNested text') :
    IsNested ('<' :: (text ++ '>' :: text')) :=
  enclosed Bracket.angles (by simp [Bracket.all]) h h'

theorem unlines {rows : List (List Char)} (h : ∀ row ∈ rows, IsNested row) :
    IsNested (Text.unlines rows) := by
  have hfeed : IsNested ['\n'] := plain (by decide) nil
  exact flatMap fun row hrow => (h row hrow).append hfeed

end IsNested

namespace Header

/-! ## Brackets of a block -/

section Block

variable {declaration : Declaration} {field : String × String}

/-- What a block has of its own besides brackets. -/
def plainCharacters : String := " \n:;,&/"

/-- Identifiers hold no brackets either. -/
theorem isNested_of_isOver {row : List Char} (h : IsOver plainCharacters row) : IsNested row := by
  have hparts : ∀ bracket ∈ Bracket.all,
      Name.isPart bracket.opener = false ∧ Name.isPart bracket.closer = false := by decide
  have hothers : ∀ bracket ∈ Bracket.all, bracket.IsAbsent plainCharacters.toList := by decide
  refine IsNested.of_isAbsent fun bracket hbracket => ?_
  obtain ⟨hopener, hcloser⟩ := hparts bracket hbracket
  obtain ⟨hopener', hcloser'⟩ := hothers bracket hbracket
  exact ⟨h.not_mem hopener hopener', h.not_mem hcloser hcloser'⟩

theorem isNested_name {name : String} (h : Name.isIdentifier name = true) :
    IsNested name.toList :=
  isNested_of_isOver (isOver_name h)

theorem isNested_constructorLine (h : declaration.IsWellNamed) :
    IsNested (constructorLine declaration) := by
  have hline : constructorLine declaration = ("        ".toList ++ declaration.name.toList) ++
      '(' :: (([' '] ++ (parametersOf declaration.fields ++ [' '])) ++ ')' :: [':']) := by
    unfold constructorLine
    simp
  have hindent : IsNested "        ".toList := isNested_of_isOver (by decide)
  have hblank : IsNested [' '] := isNested_of_isOver (by decide)
  have hcolon : IsNested [':'] := isNested_of_isOver (by decide)
  have hparameters : IsNested (parametersOf declaration.fields) :=
    isNested_of_isOver ((isOver_parametersOf h).mono (by simp [plainCharacters]))
  -- the line up to the parenthesis, what stands inside, and the colon behind it
  rw [hline]
  exact (hindent.append (isNested_name h.1)).append
    ((hblank.append (hparameters.append hblank)).inParentheses hcolon)

theorem isNested_initializerOf (h : Declaration.IsField field) :
    IsNested (initializerOf field).toList := by
  have hpiece : (initializerOf field).toList = ("m_".toList ++ field.1.toList) ++
      '(' :: (([' '] ++ (field.1.toList ++ [' '])) ++ ')' :: []) := by
    simp [initializerOf]
  have hlead : IsNested "m_".toList := isNested_of_isOver (by decide)
  have hblank : IsNested [' '] := isNested_of_isOver (by decide)
  have hname := isNested_name h.1
  rw [hpiece]
  exact (hlead.append hname).append ((hblank.append (hname.append hblank)).inParentheses .nil)

theorem isNested_initializerLine (h : declaration.IsWellNamed) :
    IsNested (initializerLine declaration) := by
  have hline : initializerLine declaration = "            ".toList ++
      (initializersOf declaration.fields ++ ([' '] ++ '\x7b' :: ([] ++ '\x7d' :: []))) := by
    unfold initializerLine
    simp
  have hindent : IsNested "            ".toList := isNested_of_isOver (by decide)
  have hblank : IsNested [' '] := isNested_of_isOver (by decide)
  have hinitializers : IsNested (initializersOf declaration.fields) := by
    refine IsNested.intercalate (isNested_of_isOver (by decide)) ?_
    intro piece hpiece
    obtain ⟨field, hfield, rfl⟩ := List.mem_map.mp hpiece
    exact isNested_initializerOf (h.2 field hfield)
  rw [hline]
  exact hindent.append (hinitializers.append (hblank.append (IsNested.nil.inBraces .nil)))

theorem isNested_bodyLines (h : declaration.IsWellNamed) :
    ∀ row ∈ bodyLines declaration, IsNested row := by
  have hmembers : ∀ row ∈ declaration.fields.map memberLineOf, IsNested row := by
    intro row hrow
    obtain ⟨field, hfield, rfl⟩ := List.mem_map.mp hrow
    exact isNested_of_isOver
      ((isOver_memberLineOf (h.2 field hfield)).mono (by simp [plainCharacters]))
  simp only [bodyLines, List.forall_mem_cons]
  exact ⟨isNested_constructorLine h, isNested_initializerLine h, .nil, hmembers⟩

theorem isNested_openingLines (h : declaration.IsWellNamed) :
    ∀ row ∈ openingLines declaration, IsNested row := by
  have hnote : IsNested "    /// Type definition".toList := isNested_of_isOver (by decide)
  have hstruct : IsNested "    struct ".toList := isNested_of_isOver (by decide)
  simp only [openingLines, List.forall_mem_cons]
  exact ⟨.nil, hnote, hstruct.append (isNested_name h.1), by simp⟩

theorem isNested_listLines (h : declaration.IsWellNamed) :
    ∀ row ∈ listLines declaration, IsNested row := by
  have hline : "    std::list<".toList ++ (declaration.name.toList ++
      ("> m_list".toList ++ (declaration.name.toList ++ [';'])))
        = "    std::list".toList ++ '<' :: (declaration.name.toList ++
          '>' :: (" m_list".toList ++ (declaration.name.toList ++ [';']))) := by
    simp
  have hnote : IsNested "    /// List".toList := isNested_of_isOver (by decide)
  have hlist : IsNested "    std::list".toList := isNested_of_isOver (by decide)
  have hmember : IsNested " m_list".toList := isNested_of_isOver (by decide)
  have hend : IsNested [';'] := isNested_of_isOver (by decide)
  have hname := isNested_name h.1
  simp only [listLines, List.forall_mem_cons]
  refine ⟨hnote, ?_, by simp⟩
  rw [hline]
  exact hlist.append (hname.inAngles (hmember.append (hname.append hend)))

/-- **The brackets of a block are nested.** The braces of the struct enclose its body, and each
other pair stands on one line. -/
theorem isNested_blockLines (h : declaration.IsWellNamed) :
    IsNested (Text.unlines (blockLines declaration)) := by
  -- the braces of the struct are the only pair that spans lines
  have hblock : Text.unlines (blockLines declaration) =
      Text.unlines (openingLines declaration) ++ ("    ".toList ++
        '\x7b' :: ((['\n'] ++ (Text.unlines (bodyLines declaration) ++ "    ".toList)) ++
          '\x7d' :: (";\n".toList ++ Text.unlines (listLines declaration)))) := by
    simp [blockLines, braceLine, closingLines]
  have hindent : IsNested "    ".toList := isNested_of_isOver (by decide)
  have hfeed : IsNested ['\n'] := isNested_of_isOver (by decide)
  have hend : IsNested ";\n".toList := isNested_of_isOver (by decide)
  have hbody := IsNested.unlines (isNested_bodyLines h)
  rw [hblock]
  exact (IsNested.unlines (isNested_openingLines h)).append (hindent.append
    ((hfeed.append (hbody.append hindent)).inBraces
      (hend.append (IsNested.unlines (isNested_listLines h)))))

end Block

/-! ## Characters and lines of a block -/

section Lines

variable {declaration : Declaration}

/-- What a block has of its own: `plainCharacters` and brackets. -/
def blockCharacters : String := " \n\x7b\x7d()<>:;,&/"

theorem isOver_blockLines (h : declaration.IsWellNamed) :
    ∀ row ∈ blockLines declaration, IsOver blockCharacters row := by
  have hname : IsOver blockCharacters declaration.name.toList := isOver_name h.1
  have hnil : IsOver blockCharacters [] := by decide
  have hend : IsOver blockCharacters [';'] := by decide
  have hopening : ∀ row ∈ openingLines declaration, IsOver blockCharacters row := by
    have hnote : IsOver blockCharacters "    /// Type definition".toList := by decide
    have hstruct : IsOver blockCharacters "    struct ".toList := by decide
    simp only [openingLines, List.forall_mem_cons]
    exact ⟨hnil, hnote, hstruct.append hname, by simp⟩
  have hlist : ∀ row ∈ listLines declaration, IsOver blockCharacters row := by
    have hnote : IsOver blockCharacters "    /// List".toList := by decide
    have hlead : IsOver blockCharacters "    std::list<".toList := by decide
    have hmember : IsOver blockCharacters "> m_list".toList := by decide
    simp only [listLines, List.forall_mem_cons]
    exact ⟨hnote, hlead.append (hname.append (hmember.append (hname.append hend))), by simp⟩
  have hbody : ∀ row ∈ bodyLines declaration, IsOver blockCharacters row := by
    simp only [bodyLines, List.forall_mem_cons]
    refine ⟨(isOver_constructorLine h).mono (by simp [blockCharacters]),
      (isOver_initializerLine h).mono (by simp [blockCharacters]), hnil, ?_⟩
    intro row hrow
    obtain ⟨field, hfield, rfl⟩ := List.mem_map.mp hrow
    exact (isOver_memberLineOf (h.2 field hfield)).mono (by simp [blockCharacters])
  have hbrace : IsOver blockCharacters braceLine := by decide
  have hclose : IsOver blockCharacters "    \x7d;".toList := by decide
  simp only [blockLines, closingLines, List.forall_mem_append, List.forall_mem_cons]
  exact ⟨hopening, hbrace, hbody, hclose, hlist⟩

theorem IsOver.unlines {others : String} {rows : List (List Char)}
    (hfeed : '\n' ∈ others.toList) (h : ∀ row ∈ rows, IsOver others row) :
    IsOver others (Text.unlines rows) := by
  intro c hc
  obtain ⟨row, hrow, hc⟩ := List.mem_flatMap.mp hc
  rcases List.mem_append.mp hc with hc | hc
  · exact h row hrow c hc
  · rw [List.mem_singleton.mp hc]
    exact Or.inr hfeed

theorem blockLines_unbroken (h : declaration.IsWellNamed) :
    ∀ row ∈ blockLines declaration, '\n' ∉ row ∧ row.getLast? ≠ some '\r' := by
  intro row hrow
  refine ⟨lineFeed_not_mem_blockLines h row hrow, fun hlast => ?_⟩
  have hreturn : '\r' ∉ row := (isOver_blockLines h row hrow).not_mem (by decide) (by decide)
  exact hreturn (List.mem_of_getLast? hlast)

theorem lines_unlines_blockLines (h : declaration.IsWellNamed) :
    Text.lines (Text.unlines (blockLines declaration)) = blockLines declaration :=
  Text.lines_unlines (blockLines_unbroken h)

theorem length_blockLines (declaration : Declaration) :
    (blockLines declaration).length = 10 + declaration.fields.length := by
  simp [blockLines, openingLines, closingLines, bodyLines, listLines]
  omega

/-- The member lines of a block stand in its body. -/
theorem filter_isMemberLine_blockLines (h : declaration.IsWellNamed) :
    (blockLines declaration).filter isMemberLine = declaration.fields.map memberLineOf := by
  have hopening : (openingLines declaration).filter isMemberLine = [] := by
    simp [openingLines, isMemberLine]
  have hlist : (listLines declaration).filter isMemberLine = [] := by
    simp [listLines, isMemberLine]
  have hbrace : isMemberLine braceLine = false := by decide
  have hclose : isMemberLine "    \x7d;".toList = false := by decide
  rw [blockLines, closingLines, List.filter_append, hopening, List.nil_append,
    List.filter_cons_of_neg (Bool.eq_false_iff.mp hbrace), List.filter_append,
    filter_isMemberLine h, List.filter_cons_of_neg (Bool.eq_false_iff.mp hclose), hlist,
    List.append_nil]

/-- One line of a block opens the struct. -/
theorem count_braceLine_blockLines (declaration : Declaration) :
    (blockLines declaration).count braceLine = 1 := by
  obtain ⟨-, hopening, hclosing, -⟩ := braceLine_not_mem {} declaration
  rw [blockLines, List.count_append, List.count_cons_self, List.count_eq_zero.mpr hopening,
    List.count_eq_zero.mpr hclosing]

end Lines

/-! ## The part of the records -/

section Part

variable {settings : Settings} {declarations : List Declaration} {schema : Schema}

theorem isPlain_default : Settings.IsPlain {} :=
  ⟨rfl, rfl, by decide, by simp, by decide, by decide⟩

theorem block_eq_default (hmember : settings.memberPrefix = "m_")
    (hlist : settings.listPrefix = "list") : block settings = block {} :=
  block_congr hmember hlist

theorem toList_block (hmember : settings.memberPrefix = "m_")
    (hlist : settings.listPrefix = "list") (declaration : Declaration) (line : Nat) :
    (block settings (declaration.toRecord .standard line)).toList
      = Text.unlines (blockLines declaration) := by
  rw [block_eq_default hmember hlist]
  exact blockOf_eq isPlain_default declaration

theorem toList_join_blocks_eq (hmember : settings.memberPrefix = "m_")
    (hlist : settings.listPrefix = "list")
    (h : List.Forall₂
      (fun declaration record => ∃ line, record = declaration.toRecord .standard line)
      declarations schema.records) :
    (String.join (blocks settings schema)).toList
      = Text.unlines (declarations.flatMap blockLines) := by
  have hblocks : blocks settings schema = blocks {} schema := by
    rw [blocks, blocks, block_eq_default hmember hlist]
  rw [hblocks, toList_join_blocks {} h, flatMap_blockOf isPlain_default]

/-- The first blocks are those of the first declarations. -/
theorem toList_join_take_blocks (hmember : settings.memberPrefix = "m_")
    (hlist : settings.listPrefix = "list")
    (h : List.Forall₂
      (fun declaration record => ∃ line, record = declaration.toRecord .standard line)
      declarations schema.records) (n : Nat) :
    (String.join ((blocks settings schema).take n)).toList
      = Text.unlines ((declarations.take n).flatMap blockLines) := by
  have htake : (blocks settings schema).take n
      = blocks settings { schema with records := schema.records.take n } := by
    rw [blocks, blocks, List.map_take]
  rw [htake, toList_join_blocks_eq hmember hlist (List.forall₂_take n h)]

theorem isNested_unlines_blockLines
    (h : ∀ declaration ∈ declarations, declaration.IsWellNamed) :
    IsNested (Text.unlines (declarations.flatMap blockLines)) := by
  rw [Text.unlines, List.flatMap_assoc]
  exact IsNested.flatMap fun declaration hdeclaration =>
    isNested_blockLines (h declaration hdeclaration)

theorem isOver_unlines_blockLines
    (h : ∀ declaration ∈ declarations, declaration.IsWellNamed) :
    IsOver blockCharacters (Text.unlines (declarations.flatMap blockLines)) := by
  refine IsOver.unlines (by decide) fun row hrow => ?_
  obtain ⟨declaration, hdeclaration, hrow⟩ := List.mem_flatMap.mp hrow
  exact isOver_blockLines (h declaration hdeclaration) row hrow

theorem lines_unlines_flatMap (h : ∀ declaration ∈ declarations, declaration.IsWellNamed) :
    Text.lines (Text.unlines (declarations.flatMap blockLines))
      = declarations.flatMap blockLines := by
  refine Text.lines_unlines fun row hrow => ?_
  obtain ⟨declaration, hdeclaration, hrow⟩ := List.mem_flatMap.mp hrow
  exact blockLines_unbroken (h declaration hdeclaration) row hrow

theorem count_braceLine_flatMap (declarations : List Declaration) :
    (declarations.flatMap blockLines).count braceLine = declarations.length := by
  induction declarations with
  | nil => rfl
  | cons declaration declarations ih =>
      rw [List.flatMap_cons, List.count_append, count_braceLine_blockLines, ih, List.length_cons]
      omega

theorem filter_isMemberLine_flatMap
    (h : ∀ declaration ∈ declarations, declaration.IsWellNamed) :
    (declarations.flatMap blockLines).filter isMemberLine
      = (declarations.flatMap Declaration.fields).map memberLineOf := by
  rw [List.filter_flatMap, List.map_flatMap]
  exact List.flatMap_congr fun declaration hdeclaration =>
    filter_isMemberLine_blockLines (h declaration hdeclaration)

theorem exists_declaration_of_mem
    (h : List.Forall₂
      (fun declaration record => ∃ line, record = declaration.toRecord .standard line)
      declarations schema.records) {record : Record} (hmem : record ∈ schema.records) :
    ∃ declaration ∈ declarations, ∃ line, record = declaration.toRecord .standard line := by
  generalize schema.records = records at h hmem
  induction h with
  | nil => cases hmem
  | @cons declaration _ declarations _ hrecord _ ih =>
      rcases List.mem_cons.mp hmem with rfl | hmem
      · exact ⟨declaration, List.mem_cons_self, hrecord⟩
      · obtain ⟨found, hfound, hline⟩ := ih hmem
        exact ⟨found, List.mem_cons_of_mem _ hfound, hline⟩

theorem flatMap_fields
    (h : List.Forall₂
      (fun declaration record => ∃ line, record = declaration.toRecord .standard line)
      declarations schema.records) :
    schema.records.flatMap Record.fields
      = (declarations.flatMap Declaration.fields).map fun field =>
          Field.ofDeclared .standard field.1 field.2 := by
  generalize schema.records = records at h
  induction h with
  | nil => rfl
  | cons hrecord _ ih =>
      obtain ⟨line, rfl⟩ := hrecord
      rw [List.flatMap_cons, List.flatMap_cons, List.map_append, ih]
      rfl

end Part

/-- **Definitions cannot break the frame of a header.** Let a text be accepted under settings with
the standard prefixes.  Between preamble and footer, the header has the blocks of the records, as
many as are counted.  They hold ASCII letters, digits, underscores and `blockCharacters`.  Brackets
of each kind are balanced there, and all of them are closed at the end of each block.  The block of
a record has ten lines and one more for each field.  Each block opens one struct, and the lines that
look like members are those of the fields, as many as are counted. -/
theorem records_keep_frame (settings : Settings) (text : String) (rendered : Rendered)
    (hmember : settings.memberPrefix = "m_") (hlist : settings.listPrefix = "list")
    (h : Job.result { settings } text = .ok rendered) :
    ∃ (schema : Schema) (part : List Char), Schema.parse .standard text = .ok schema ∧
      part = (String.join (blocks settings schema)).toList ∧
      rendered.artifact.toList = (preamble settings).toList ++ part ++ (footer settings).toList ∧
      IsOver blockCharacters part ∧
      (∀ bracket ∈ Bracket.all, bracket.IsBalanced part ∧
        ∀ n, bracket.IsBalanced (String.join ((blocks settings schema).take n)).toList) ∧
      (∀ record ∈ schema.records,
        (Text.lines (block settings record).toList).length = 10 + record.fields.length) ∧
      (blocks settings schema).length = rendered.records ∧
      (Text.lines part).count braceLine = rendered.records ∧
      ((Text.lines part).filter isMemberLine).length = rendered.fields ∧
      Text.unlines ((Text.lines part).filter isMemberLine) = (String.join
        ((schema.records.flatMap Record.fields).map (memberLine settings))).toList := by
  obtain ⟨schema, hparse, -, rfl⟩ := Job.result_eq_ok_iff.mp h
  obtain ⟨declared, hdeclared, hrecords⟩ := Schema.exists_declares_of_parse hparse
  have hwell := hdeclared.isWellNamed
  have hpart := toList_join_blocks_eq hmember hlist hrecords
  have hlines := lines_unlines_flatMap hwell
  have hmembers := filter_isMemberLine_flatMap hwell
  have hfields := flatMap_fields hrecords
  refine ⟨schema, Text.unlines (declared.flatMap blockLines), hparse, hpart.symm, ?_,
    isOver_unlines_blockLines hwell, ?_, ?_, ?_, ?_, ?_, ?_⟩
  · show (Header.text settings schema).toList = _
    rw [Header.text, String.toList_append, String.toList_append, hpart]
  · intro bracket hbracket
    refine ⟨(isNested_unlines_blockLines hwell).isBalanced hbracket, fun n => ?_⟩
    -- the first blocks are balanced for the same reason as all of them
    have hfirst : ∀ declaration ∈ declared.take n, declaration.IsWellNamed :=
      fun declaration hdeclaration => hwell declaration (List.mem_of_mem_take hdeclaration)
    rw [toList_join_take_blocks hmember hlist hrecords]
    exact (isNested_unlines_blockLines hfirst).isBalanced hbracket
  · intro record hrecord
    obtain ⟨declaration, hdeclaration, line, rfl⟩ := exists_declaration_of_mem hrecords hrecord
    rw [toList_block hmember hlist, lines_unlines_blockLines (hwell declaration hdeclaration),
      length_blockLines]
    simp [Declaration.toRecord]
  · exact List.length_map _
  · rw [hlines, count_braceLine_flatMap]
    exact hrecords.length_eq
  · rw [hlines, hmembers]
    show _ = (schema.records.flatMap Record.fields).length
    rw [hfields, List.length_map, List.length_map]
  · have hmemberLine : memberLine settings = memberLine {} := by
      funext field
      rw [memberLine, memberLine, Settings.member, Settings.member, hmember]
    rw [hlines, hmembers, hfields, hmemberLine, toList_members isPlain_default]

/-- Brackets in the settings and behind the end of the definitions, and white space of other sorts
between these. -/
theorem records_keep_frame_stray_brackets :
    ∃ (settings : Settings) (rendered : Rendered) (part : List Char),
      settings.fileName = "\x7d)>" ∧ settings.includes = ["<\x7b("] ∧
      Job.result { settings } "\u2003A\u00a0x:string y:A\r\nB x:int\n\n\x7d ) > \x7b ("
        = .ok rendered ∧
      rendered.artifact.toList = (preamble settings).toList ++ part ++ (footer settings).toList ∧
      (∀ bracket ∈ Bracket.all, bracket.IsBalanced part) ∧
      (Text.lines part).count braceLine = 2 ∧
      ((Text.lines part).filter isMemberLine).length = 3 := by
  have hresult : Job.result { settings := { fileName := "\x7d)>", includes := ["<\x7b("] } }
      "\u2003A\u00a0x:string y:A\r\nB x:int\n\n\x7d ) > \x7b (" = .ok _ :=
    Job.result_of_ok rfl rfl
  obtain ⟨schema, part, -, -, hartifact, -, hbalanced, -, -, hstructs, hmembers, -⟩ :=
    records_keep_frame _ _ _ rfl rfl hresult
  exact ⟨_, _, part, rfl, rfl, hresult, hartifact, fun bracket hbracket =>
    (hbalanced bracket hbracket).1, hstructs, hmembers⟩

end Header

end RecordHeader
