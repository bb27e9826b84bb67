import RecordHeader.Proofs.Arguments
import RecordHeader.Proofs.Blocks
import RecordHeader.Proofs.Names
import Mathlib.Tactic

set_option autoImplicit false

/-! # All names of a header are usable

A header declares an aggregate, a guard, a struct and a list for each record, and a parameter and a
member for each field.  `Header.HasUsableNames` says that C++ takes all their names: they are
identifiers, none is reserved, and those that stand side by side are distinct.  That these are the
names in the header is part of it: a reader finds them in the text of each block.

The names come from three places.  Those that options give are tested when the arguments are read,
and reading keeps what was tested (`Draft.isClosed_keepsUsable`); a guard made from a file name
needs no test.  Those of the definitions are identifiers because the text was parsed, and not
reserved and distinct because its schema is valid.  Those of the members are made of these by a
prefix, with which no reserved word starts (`Name.isUsable_member`).
-/

namespace RecordHeader

/-- A type that a member can have: the string type of the library, or an identifier that C++
keeps for itself only if it is one of its own types. -/
def Name.IsUsableType (type : String) : Prop :=
  type = "std::string" ∨
    isIdentifier type = true ∧ (type ∈ reservedWords → type ∈ builtinTypes)

/-- The names in the block of a record are usable. -/
structure Record.HasUsableNames (settings : Settings) (record : Record) : Prop where
  /-- The names are those that a reader finds in the text of the block. -/
  reads : Header.readBlock? (Header.block settings record).toList
    = some (Header.view settings record)
  name : Name.IsUsable record.name
  listMember : Name.IsUsable (settings.listMember record.name)
  /-- A parameter has the name of its field. -/
  parameter : ∀ field ∈ record.fields, Name.IsUsable field.name
  member : ∀ field ∈ record.fields, Name.IsUsable (settings.member field.name)
  storage : ∀ field ∈ record.fields, Name.IsUsableType field.spelling.storage
  parameters_nodup : (record.fields.map Field.name).Nodup
  members_nodup : (record.fields.map fun field => settings.member field.name).Nodup
  parameters_ne_nil : (Header.view settings record).parameters ≠ []
  initializers_ne_nil : (Header.view settings record).initializers ≠ []
  members_ne_nil : (Header.view settings record).members ≠ []

/-- All names that the header of some records declares are usable. -/
structure Header.HasUsableNames (settings : Settings) (records : List Record) : Prop where
  aggregate : Name.IsUsable settings.aggregate
  guard : Name.IsUsable settings.guard
  block : ∀ record ∈ records, record.HasUsableNames settings
  records_nodup : (records.map Record.name).Nodup
  aggregate_not_mem : settings.aggregate ∉ records.map Record.name
  listMembers_nodup : (records.map fun record => settings.listMember record.name).Nodup

/-! ## Names with a prefix -/

namespace Name

/-- The prefix of members makes a usable name of whatever an identifier can go on with. -/
theorem isUsable_member {rest : String} (h : ∀ c ∈ rest.toList, isPart c = true) :
    IsUsable ("m_" ++ rest) := by
  have hchars : ("m_" ++ rest).toList = 'm' :: '_' :: rest.toList := String.toList_append
  constructor
  · have hall : rest.toList.all isPart = true := List.all_eq_true.mpr h
    rw [isIdentifier, hchars, isIdentifierChars, List.all_cons, hall]
    decide
  · intro hreserved
    have hnone : ∀ word ∈ reservedWords, ¬ "m_".toList <+: word.toList := by decide +kernel
    apply hnone _ hreserved
    rw [hchars]
    exact List.prefix_append "m_".toList rest.toList

/-- A prefix keeps distinct names distinct. -/
theorem nodup_map_append (front : String) {names : List String} (h : names.Nodup) :
    (names.map (front ++ ·)).Nodup := by
  refine h.map fun first second heq => ?_
  have hchars := congrArg String.toList heq
  simp only [String.toList_append, List.append_cancel_left_eq] at hchars
  exact String.toList_inj.mp hchars

end Name

/-! ## Names given by options -/

namespace CommandLine.Draft

/-- The names that have been given are usable. -/
def HasUsableNames (draft : Draft) : Prop :=
  (∀ name, draft.aggregate = some name → Name.IsUsable name) ∧
    ∀ name, draft.guard = some name → Name.IsUsable name

/-- A change that adds no other names. -/
def KeepsUsable (change : Draft → Except Stop Draft) : Prop :=
  ∀ draft next, change draft = .ok next → draft.HasUsableNames → next.HasUsableNames

theorem isUsable_of_checkName {option value : String} {earlier : Option String}
    (h : checkName option value earlier = .ok ()) : Name.IsUsable value := by
  unfold checkName at h
  split_ifs at h
  apply Name.isUsable_of_check
  cases hcheck : Name.check value with
  | ok => rfl
  | error refusal =>
      rw [hcheck] at h
      cases h

/-- Reading adds no names that are not usable. -/
theorem isClosed_keepsUsable : IsClosed KeepsUsable where
  ok := by
    intro draft next h husable
    obtain rfl := Except.ok.inj h
    exact husable
  error stop := by
    intro draft next h
    cases h
  bind := by
    intro first second hfirst hsecond draft next h husable
    cases hmiddle : first draft with
    | error stop =>
        simp only [hmiddle] at h
        cases h
    | ok middle =>
        simp only [hmiddle] at h
        exact hsecond middle next h (hfirst draft middle hmiddle husable)
  addPath path := by
    intro draft next h husable
    simp only [Draft.addPath] at h
    split_ifs at h
    obtain rfl := Except.ok.inj h
    exact husable
  addFlag flag := by
    intro draft next h husable
    cases flag with
    | check =>
        simp only [Draft.addFlag] at h
        split_ifs at h
        obtain rfl := Except.ok.inj h
        exact husable
    | print =>
        simp only [Draft.addFlag] at h
        split_ifs at h
        obtain rfl := Except.ok.inj h
        exact husable
    | verbose =>
        obtain rfl := Except.ok.inj h
        exact husable
    | help => cases h
    | version => cases h
  addName value option := by
    intro draft next h husable
    cases option with
    | aggregate =>
        cases hcheck : checkName "--aggregate" value draft.aggregate with
        | error stop => simp [Draft.addName, hcheck, bind, Except.bind] at h
        | ok =>
            simp only [Draft.addName, hcheck] at h
            obtain rfl := Except.ok.inj h
            refine ⟨fun name hname => ?_, husable.2⟩
            obtain rfl := Option.some.inj hname
            exact isUsable_of_checkName hcheck
    | guard =>
        cases hcheck : checkName "--guard" value draft.guard with
        | error stop => simp [Draft.addName, hcheck, bind, Except.bind] at h
        | ok =>
            simp only [Draft.addName, hcheck] at h
            obtain rfl := Except.ok.inj h
            refine ⟨husable.1, fun name hname => ?_⟩
            obtain rfl := Option.some.inj hname
            exact isUsable_of_checkName hcheck

end CommandLine.Draft

namespace Invocation

open CommandLine

theorem names_of_finish {draft : Draft} {invocation : Invocation}
    (h : draft.finish = .ok invocation) :
    invocation.aggregate = draft.aggregate ∧ invocation.guard = draft.guard := by
  unfold Draft.finish at h
  split at h
  · cases h
  · obtain rfl := Except.ok.inj h
    exact ⟨rfl, rfl⟩

/-- The names that accepted arguments give are usable. -/
theorem isUsable_of_ofArguments {arguments : List String} {invocation : Invocation}
    (h : ofArguments arguments = .ok invocation) :
    (∀ name, invocation.aggregate = some name → Name.IsUsable name) ∧
    ∀ name, invocation.guard = some name → Name.IsUsable name := by
  obtain ⟨draft, hread, hfinish⟩ := exists_draft h
  have hnone : Draft.HasUsableNames {} := ⟨by simp, by simp⟩
  have husable := Draft.isClosed_keepsUsable.readAll arguments {} draft hread hnone
  obtain ⟨haggregate, hguard⟩ := names_of_finish hfinish
  rw [haggregate, hguard]
  exact husable

/-- Aggregate and guard of the header are usable, by an option or without one. -/
theorem isUsable_settings {arguments : List String} {invocation : Invocation}
    (h : ofArguments arguments = .ok invocation) :
    Name.IsUsable invocation.settings.aggregate ∧ Name.IsUsable invocation.settings.guard := by
  obtain ⟨haggregate, hguard⟩ := isUsable_of_ofArguments h
  constructor
  · cases hname : invocation.aggregate with
    | none =>
        have hdefault : invocation.settings.aggregate = "BuilderData" := by simp [settings, hname]
        rw [hdefault]
        exact Name.isUsable_of_check (by decide)
    | some name =>
        have hgiven : invocation.settings.aggregate = name := by simp [settings, hname]
        rw [hgiven]
        exact haggregate name hname
  · cases hname : invocation.guard with
    | none =>
        have hmade : invocation.settings.guard = Guard.ofFileName invocation.settings.fileName := by
          simp [settings, Settings.guard, hname]
        rw [hmade]
        exact Guard.isUsable_ofFileName _
    | some name =>
        have hgiven : invocation.settings.guard = name := by
          simp [settings, Settings.guard, hname]
        rw [hgiven]
        exact hguard name hname

end Invocation

/-! ## Names of the definitions -/

section Definitions

variable {settings : Settings} {schema : Schema} {record : Record}

/-- The storage types under the standard table. -/
theorem Name.isUsableType_resolve {declared : String} (h : isIdentifier declared = true)
    (hbuiltin : (TypeTable.standard.resolve declared).storage ∈ reservedWords →
      (TypeTable.standard.resolve declared).storage ∈ builtinTypes) :
    IsUsableType (TypeTable.standard.resolve declared).storage := by
  rw [Header.resolve_standard_storage] at hbuiltin ⊢
  split_ifs at hbuiltin ⊢ with hstring
  · exact Or.inl rfl
  · exact Or.inr ⟨h, hbuiltin⟩

/-- What a parsed record names are identifiers, and its types are spelled as the table says. -/
theorem Record.identifiers_of_parse {table : TypeTable} {text : String}
    (hparse : Schema.parse table text = .ok schema) (hrecord : record ∈ schema.records) :
    Name.isIdentifier record.name = true ∧
    ∀ field ∈ record.fields, Name.isIdentifier field.name = true ∧
      Name.isIdentifier field.declared = true ∧
      field.spelling = table.resolve field.declared := by
  obtain ⟨i, hi⟩ := List.getElem?_of_mem hrecord
  obtain ⟨-, declaration, -, ⟨-, hname, hfields⟩, rfl⟩ :=
    Schema.exists_standsIn_of_parse hparse hi
  refine ⟨hname, fun field hfield => ?_⟩
  obtain ⟨found, hfound, rfl⟩ := List.mem_map.mp hfield
  exact ⟨(hfields found hfound).1, (hfields found hfound).2, rfl⟩

theorem Settings.isUsable_member (hmember : settings.memberPrefix = "m_") {name : String}
    (h : Name.isIdentifier name = true) : Name.IsUsable (settings.member name) := by
  rw [member, hmember]
  exact Name.isUsable_member fun c hc => Name.isPart_of_mem h hc

theorem Settings.isUsable_listMember (hmember : settings.memberPrefix = "m_")
    (hlist : settings.listPrefix = "list") {name : String} (h : Name.isIdentifier name = true) :
    Name.IsUsable (settings.listMember name) := by
  rw [listMember, hmember, hlist, String.append_assoc]
  exact Name.isUsable_member (Name.isPart_of_mem_append (by decide) h)

/-- The block of a record of a valid schema, with the standard prefixes. -/
theorem Record.hasUsableNames_of_isValid {text : String}
    (hmember : settings.memberPrefix = "m_") (hlist : settings.listPrefix = "list")
    (hparse : Schema.parse .standard text = .ok schema) (hvalid : schema.IsValid)
    (hrecord : record ∈ schema.records) : record.HasUsableNames settings := by
  obtain ⟨hname, hfields⟩ := Record.identifiers_of_parse hparse hrecord
  have hne := hvalid.fields_ne_nil record hrecord
  have hnodup := hvalid.fieldNames_nodup record hrecord
  refine
    { reads := Header.readBlock?_of_parse hmember hlist hparse hrecord hne
      name := ⟨hname, hvalid.name_not_reserved record hrecord⟩
      listMember := settings.isUsable_listMember hmember hlist hname
      parameter := fun field hfield => ⟨(hfields field hfield).1,
        hvalid.fieldName_not_reserved record hrecord field hfield⟩
      member := fun field hfield => settings.isUsable_member hmember (hfields field hfield).1
      storage := ?_
      parameters_nodup := hnodup
      members_nodup := ?_
      parameters_ne_nil := by simpa [Header.view] using hne
      initializers_ne_nil := by simpa [Header.view] using hne
      members_ne_nil := by simpa [Header.view] using hne }
  · intro field hfield
    obtain ⟨-, hdeclared, hspelling⟩ := hfields field hfield
    have hbuiltin := hvalid.storage_isBuiltin record hrecord field hfield
    rw [hspelling] at hbuiltin ⊢
    exact Name.isUsableType_resolve hdeclared hbuiltin
  · have hmembers := Name.nodup_map_append settings.memberPrefix hnodup
    rw [List.map_map] at hmembers
    exact hmembers

end Definitions

namespace Invocation

/-- **Every name that a header declares is usable.** For all arguments that describe an invocation
and all texts that its job accepts, the header is that of the schema which the text parses to, and
its names are usable: those of the aggregate and the guard, and in each block those of the struct,
the parameters, the members and the list.  These are what a reader finds in the text of the block,
where each struct has a parameter, an initializer and a member. -/
theorem header_names_usable (arguments : List String) (invocation : Invocation) (text : String)
    (rendered : Rendered) (harguments : ofArguments arguments = .ok invocation)
    (h : Job.result { settings := invocation.settings } text = .ok rendered) :
    ∃ schema, Schema.parse .standard text = .ok schema ∧
      rendered.artifact = Header.text invocation.settings schema ∧
      Header.HasUsableNames invocation.settings schema.records := by
  obtain ⟨schema, hparse, hjudge, rfl⟩ := Job.result_eq_ok_iff.mp h
  obtain ⟨hvalid, hfree⟩ := Job.judge_eq_ok_iff.mp hjudge
  obtain ⟨haggregate, hguard⟩ := isUsable_settings harguments
  refine ⟨schema, hparse, rfl,
    { aggregate := haggregate
      guard := hguard
      block := fun record hrecord =>
        Record.hasUsableNames_of_isValid rfl rfl hparse hvalid hrecord
      records_nodup := hvalid.names_nodup
      aggregate_not_mem := ?_
      listMembers_nodup := ?_ }⟩
  · intro hmem
    obtain ⟨record, hrecord, hname⟩ := List.mem_map.mp hmem
    exact hfree record hrecord hname
  · have hlists := Name.nodup_map_append
      (invocation.settings.memberPrefix ++ invocation.settings.listPrefix) hvalid.names_nodup
    rw [List.map_map] at hlists
    exact hlists

/-- An output whose name starts with a digit and holds other characters than letters, and records
that differ from reserved words by little. -/
theorem header_names_usable_odd_file_name :
    ∃ invocation schema,
      ofArguments ["skin.def", "out/7 skins-\u00e9.hpp", "--aggregate", "Data"] = .ok invocation ∧
      invocation.settings.guard = "_7_SKINS___HPP" ∧
      Schema.parse .standard "If int_:int m_:string\nlist m_:If" = .ok schema ∧
      schema.records.map Record.name = ["If", "list"] ∧
      Header.HasUsableNames invocation.settings schema.records := by
  have hschema : Schema.parse .standard "If int_:int m_:string\nlist m_:If" = .ok _ := rfl
  have hresult : Job.result
      { settings := { fileName := "7 skins-\u00e9.hpp", aggregate := "Data" } }
      "If int_:int m_:string\nlist m_:If" = .ok _ := Job.result_of_ok hschema rfl
  have harguments : ofArguments ["skin.def", "out/7 skins-\u00e9.hpp", "--aggregate", "Data"] =
      .ok { input := "skin.def"
            output := "out/7 skins-\u00e9.hpp"
            aggregate := some "Data" } := by
    decide +kernel
  obtain ⟨schema, hparse, -, husable⟩ := header_names_usable _ _ _ _ harguments hresult
  obtain rfl := Except.ok.inj (hschema.symm.trans hparse)
  exact ⟨_, _, harguments, by decide +kernel, hschema, rfl, husable⟩

end Invocation

end RecordHeader
