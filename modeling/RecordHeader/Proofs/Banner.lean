import RecordHeader.CommandLine
import RecordHeader.Proofs.HeaderLines
import Mathlib.Tactic

set_option autoImplicit false

/-! # Where the comment at the start of a header ends

A header starts with a comment, the banner, that holds the file name.  A file name may hold
asterisks, line feeds and much else.  The comment ends at the first asterisk with a slash behind it,
and all that follows is code.

The banner is made to end the comment with the last asterisk of its third rule.  Before that one,
no asterisk has a slash behind it unless one in the file name has (`Header.commentEnd_infix_iff`),
and the file name that a command line gives is one part of a path, which holds no slash.  What
follows depends on the file name only through the guard (`Header.below_congr`).
-/

namespace RecordHeader

/-! ## File names -/

namespace Path

theorem slash_not_mem_of_mem_segments {path segment : String} (h : segment ∈ segments path) :
    '/' ∉ segment.toList := by
  obtain ⟨row, hrow, rfl⟩ := List.mem_map.mp h
  rw [String.toList_ofList]
  exact Text.not_mem_of_mem_splitOn (List.mem_filter.mp hrow).1

theorem mem_segments_of_mem_parts {path part : String} (h : part ∈ parts path) :
    part ∈ segments path := by
  unfold parts at h
  split at h
  · cases h
  · next first rest hsegments =>
      rw [hsegments]
      have hothers : ∀ name ∈ rest.filter (fun segment => segment != "."), name ∈ first :: rest :=
        fun name hname => List.mem_cons_of_mem _ (List.mem_filter.mp hname).1
      dsimp only at h
      split at h
      · exact hothers part h
      · rcases List.mem_cons.mp h with rfl | h
        · exact List.mem_cons_self
        · exact hothers part h

/-- A file name is one part of its path. -/
theorem slash_not_mem_fileName {path name : String} (h : fileName? path = some name) :
    '/' ∉ name.toList := by
  obtain ⟨hlast, -⟩ := Option.filter_eq_some_iff.mp h
  exact slash_not_mem_of_mem_segments (mem_segments_of_mem_parts (List.mem_of_getLast? hlast))

end Path

theorem Invocation.slash_not_mem_fileName (invocation : Invocation) :
    '/' ∉ invocation.settings.fileName.toList := by
  have hdefault : '/' ∉ "builder_data.hpp".toList := by decide
  unfold settings
  cases hname : Path.fileName? invocation.output with
  | none => exact hdefault
  | some name => exact Path.slash_not_mem_fileName hname

/-! ## The parts of a header around the end of the comment -/

/-- Settings that agree on all that stands below the banner: the names and the includes.  They can
differ in the file name if they have the same guard, given or made. -/
structure Settings.AgreesBelow (settings other : Settings) : Prop where
  guard_eq : other.guard = settings.guard
  aggregate_eq : other.aggregate = settings.aggregate
  memberPrefix_eq : other.memberPrefix = settings.memberPrefix
  listPrefix_eq : other.listPrefix = settings.listPrefix
  includes_eq : other.includes = settings.includes

/-- Another file name, where the guard is given or comes out the same. -/
theorem Settings.agreesBelow_fileName {settings : Settings} {fileName : String}
    (h : settings.explicitGuard ≠ none ∨
      Guard.ofFileName fileName = Guard.ofFileName settings.fileName) :
    settings.AgreesBelow { settings with fileName } := by
  refine ⟨?_, rfl, rfl, rfl, rfl⟩
  unfold guard
  cases hguard : settings.explicitGuard with
  | none => exact h.resolve_left (not_not.mpr hguard)
  | some given => rfl

namespace Header

/-- What closes a comment. -/
def commentEnd : List Char := ['*', '/']

/-- The banner between its first slash and the file name. -/
def beforeName : List Char :=
  ("*" ++ rule ++ "\n" ++ " * ").toList

/-- The banner between the file name and the third rule. -/
def afterName : List Char :=
  ("\n" ++ " *" ++ rule ++ "\n" ++
    " * Data holders filled by the skin XML builder.\n" ++ " *").toList

/-- The banner up to its third rule. -/
def beforeRule (settings : Settings) : List Char :=
  '/' :: (beforeName ++ (settings.fileName.toList ++ afterName))

/-- The header from the end of the line with the third rule. -/
def below (settings : Settings) (schema : Schema) : List Char :=
  ("\n" ++ opening settings ++ String.join (blocks settings schema) ++ footer settings).toList

section Parts

variable {settings other : Settings} {schema : Schema}

/-- The last asterisk of a rule, apart from the others. -/
theorem dropLast_rule : rule.toList.dropLast ++ ['*'] = rule.toList := by
  have hne : rule.toList ≠ [] := by
    rw [toList_rule]
    exact List.cons_ne_nil _ _
  have hcut := List.dropLast_concat_getLast hne
  rwa [eq_of_mem_rule (List.getLast_mem hne)] at hcut

/-- The header, cut at the third rule of its banner. -/
theorem toList_text_eq (settings : Settings) (schema : Schema) :
    (text settings schema).toList
      = beforeRule settings ++ (rule.toList ++ '/' :: below settings schema) := by
  have hopen : "/*".toList = '/' :: "*".toList := by decide
  have hclose : "/\n".toList = '/' :: "\n".toList := by decide
  unfold text preamble banner below beforeRule beforeName afterName
  simp only [String.toList_append, List.append_assoc, List.cons_append, hopen, hclose]

/-- Below the banner, the file name counts only through the guard. -/
theorem below_congr (h : settings.AgreesBelow other) (schema : Schema) :
    below other schema = below settings schema := by
  have hblocks : blocks other schema = blocks settings schema := by
    rw [blocks, blocks, block_congr h.memberPrefix_eq h.listPrefix_eq]
  have hopening : opening other = opening settings := by
    unfold opening
    rw [h.guard_eq, h.includes_eq, h.aggregate_eq]
  have hfooter : footer other = footer settings := by
    unfold footer
    rw [h.guard_eq]
  rw [below, below, hblocks, hopening, hfooter]

/-- Before its last asterisk, the banner closes the comment only if the file name does: the other
parts have no slash but the first one, which nothing precedes, and a blank stands before the
name. -/
theorem commentEnd_infix_iff :
    commentEnd <:+: beforeRule settings ++ rule.toList.dropLast ↔
      commentEnd <:+: settings.fileName.toList := by
  have hrule : '/' ∉ rule.toList := fun h => absurd (eq_of_mem_rule h) (by decide)
  have hdrop : '/' ∉ rule.toList.dropLast := fun h => hrule (List.dropLast_subset _ h)
  have hbefore : '/' ∉ beforeName := by
    unfold beforeName
    simp only [String.toList_append, List.mem_append, not_or]
    exact ⟨⟨⟨by decide, hrule⟩, by decide⟩, by decide⟩
  have hblank : beforeName.getLast? = some ' ' := by
    unfold beforeName
    rw [String.toList_append, List.getLast?_append]
    rfl
  have hafter : '/' ∉ afterName ++ rule.toList.dropLast := by
    unfold afterName
    simp only [String.toList_append, List.mem_append, not_or]
    exact ⟨⟨⟨⟨⟨⟨by decide, by decide⟩, hrule⟩, by decide⟩, by decide⟩, by decide⟩, hdrop⟩
  have hcut : beforeRule settings ++ rule.toList.dropLast = '/' :: (beforeName ++
      (settings.fileName.toList ++ (afterName ++ rule.toList.dropLast))) := by
    simp only [beforeRule, List.append_assoc, List.cons_append]
  rw [hcut]
  constructor
  · intro h
    rcases List.infix_cons_iff.mp h with hstart | hrest
    · exact absurd (List.cons_prefix_cons.mp hstart).1 (by decide)
    · exact Text.pair_infix_of_append hbefore (by simp [hblank]) hafter hrest
  · -- what stands in the name stands in the banner
    rintro ⟨front, back, hname⟩
    rw [← hname]
    refine ⟨'/' :: (beforeName ++ front), back ++ (afterName ++ rule.toList.dropLast), ?_⟩
    simp only [List.append_assoc, List.cons_append]

/-- **The comment ends with the third rule** of the banner, unless the file name closes it. -/
theorem dropInfix?_commentEnd_iff :
    (text settings schema).toList.dropInfix? commentEnd
        = some (beforeRule settings ++ rule.toList.dropLast, below settings schema) ↔
      ¬ commentEnd <:+: settings.fileName.toList := by
  have htext : (text settings schema).toList
      = (beforeRule settings ++ rule.toList.dropLast) ++ (commentEnd ++ below settings schema) := by
    calc (text settings schema).toList
        = beforeRule settings ++ (rule.toList ++ '/' :: below settings schema) :=
          toList_text_eq settings schema
      _ = beforeRule settings ++
            ((rule.toList.dropLast ++ ['*']) ++ '/' :: below settings schema) := by
          rw [dropLast_rule]
      _ = (beforeRule settings ++ rule.toList.dropLast) ++
            (commentEnd ++ below settings schema) := by
          simp only [commentEnd, List.append_assoc, List.cons_append, List.nil_append]
  rw [htext, ← commentEnd_infix_iff]
  exact Text.dropInfix?_pair_iff (by decide)

end Parts

/-- **No file name closes the banner early.** For all accepted arguments and all schemas, the first
asterisk of the header with a slash behind it is the last one of the banner's third rule.  What
follows the rule is the same for all settings with the same guard, aggregate, prefixes and includes,
whatever their file names, and the comment ends there unless such a name closes it itself. -/
theorem comment_ends_with_banner (arguments : List String) (settings : Settings) (schema : Schema)
    (h : (Invocation.ofArguments arguments).map Invocation.settings = .ok settings) :
    (text settings schema).toList.dropInfix? commentEnd
      = some (beforeRule settings ++ rule.toList.dropLast, below settings schema) ∧
    ∀ other : Settings, settings.AgreesBelow other →
      (text other schema).toList
        = beforeRule other ++ (rule.toList ++ '/' :: below settings schema) ∧
      ((text other schema).toList.dropInfix? commentEnd
          = some (beforeRule other ++ rule.toList.dropLast, below settings schema) ↔
        ¬ commentEnd <:+: other.fileName.toList) := by
  constructor
  · cases harguments : Invocation.ofArguments arguments with
    | error stop =>
        rw [harguments] at h
        cases h
    | ok invocation =>
        rw [harguments] at h
        obtain rfl : invocation.settings = settings := Except.ok.inj h
        apply dropInfix?_commentEnd_iff.mpr
        intro hearly
        exact invocation.slash_not_mem_fileName (hearly.subset (by decide))
  · intro other hother
    rw [← below_congr hother schema]
    exact ⟨toList_text_eq other schema, dropInfix?_commentEnd_iff⟩

/-- An output whose name has asterisks on two lines, and a name with the same guard that no path
has. -/
theorem comment_ends_with_banner_asterisks :
    ∃ (settings other : Settings) (schema : Schema),
      (Invocation.ofArguments ["skin.def", "out/*\n*.hpp"]).map Invocation.settings = .ok settings ∧
      schema.records.map Record.name = ["A"] ∧
      settings.fileName = "*\n*.hpp" ∧ other.fileName = "*/*.hpp" ∧
      other.guard = settings.guard ∧
      (text settings schema).toList.dropInfix? commentEnd
        = some (beforeRule settings ++ rule.toList.dropLast, below settings schema) ∧
      (text other schema).toList
        = beforeRule other ++ (rule.toList ++ '/' :: below settings schema) ∧
      (text other schema).toList.dropInfix? commentEnd
        ≠ some (beforeRule other ++ rule.toList.dropLast, below settings schema) := by
  have harguments : Invocation.ofArguments ["skin.def", "out/*\n*.hpp"]
      = .ok { input := "skin.def", output := "out/*\n*.hpp" } := by
    decide +kernel
  have hsettings : (Invocation.ofArguments ["skin.def", "out/*\n*.hpp"]).map Invocation.settings
      = .ok { fileName := "*\n*.hpp" } := by
    rw [harguments]
    decide +kernel
  have hguard : Guard.ofFileName "*/*.hpp" = Guard.ofFileName "*\n*.hpp" := by decide
  have hagrees : Settings.AgreesBelow { fileName := "*\n*.hpp" } { fileName := "*/*.hpp" } :=
    Settings.agreesBelow_fileName (Or.inr hguard)
  obtain ⟨hfirst, hother⟩ := comment_ends_with_banner _ _
    { records := [⟨"A", 1, [⟨"x", "int", ⟨"int", "int"⟩⟩]⟩] } hsettings
  obtain ⟨htext, hiff⟩ := hother _ hagrees
  have hearly : commentEnd <:+: "*/*.hpp".toList := ⟨[], "*.hpp".toList, by decide⟩
  exact ⟨_, _, _, hsettings, rfl, rfl, rfl, hagrees.guard_eq, hfirst, htext,
    fun hlate => hiff.mp hlate hearly⟩

end Header

end RecordHeader
