import RecordHeader.Proofs.Clashes
import RecordHeader.Proofs.Printing
import RecordHeader.Proofs.UsableNames
import Mathlib.Tactic

set_option autoImplicit false

/-! # Keywords among the types of a header

A table spells a declared type twice, for the member and for the parameter of a field.  A schema is
judged by the first of these spellings alone.  So no keyword is ever the type of a member, but the
type of a parameter can be one: `keyword_parameter_accepted` gives a table and a text.

`keyword_types_exact` says when this happens.  A declared type that the table does not list is
spelled by itself in both places, and is judged for both; so a keyword can come only from an entry
of the table whose two spellings differ, and it does come from every such entry that a text can ask
for (`exists_keyword_parameter`).
-/

namespace RecordHeader

namespace Header

/-- Some member has a keyword as its type that is no type of the language. -/
def HasKeywordMember (records : List Record) : Prop :=
  ∃ record ∈ records, ∃ field ∈ record.fields,
    Name.isUnusableType field.spelling.storage = true

/-- Some parameter has a keyword as its type that is no type of the language. -/
def HasKeywordParameter (records : List Record) : Prop :=
  ∃ record ∈ records, ∃ field ∈ record.fields,
    Name.isUnusableType field.spelling.param = true

instance (records : List Record) : Decidable (HasKeywordParameter records) :=
  inferInstanceAs (Decidable (∃ record ∈ records, ∃ field ∈ record.fields, _ = _))

end Header

/-! ## Where a keyword can come from -/

/-- In a valid schema, members are stored under types that C++ takes. -/
theorem Schema.IsValid.not_hasKeywordMember {schema : Schema} (h : schema.IsValid) :
    ¬ Header.HasKeywordMember schema.records := by
  rintro ⟨record, hrecord, field, hfield, hkeyword⟩
  obtain ⟨hreserved, hbuiltin⟩ := Name.isUnusableType_iff.mp hkeyword
  exact hbuiltin (h.storage_isBuiltin record hrecord field hfield hreserved)

namespace TypeTable

theorem resolve_of_get? {table : TypeTable} {word : String} {entry : TypeEntry}
    (h : table.get? word = some entry) : table.resolve word = entry.spelling := by
  rw [resolve, h]

/-- A word whose two spellings differ is listed. -/
theorem exists_get?_of_ne {table : TypeTable} {word : String}
    (h : (table.resolve word).param ≠ (table.resolve word).storage) :
    ∃ entry, table.get? word = some entry ∧ table.resolve word = entry.spelling := by
  cases hget : table.get? word with
  | none =>
      have hself : table.resolve word = ⟨word, word⟩ := by rw [resolve, hget]
      rw [hself] at h
      exact absurd rfl h
  | some entry => exact ⟨entry, rfl, resolve_of_get? hget⟩

end TypeTable

section Accepted

variable {job : Job} {text : String} {schema : Schema}

theorem spelling_eq_resolve (hparse : Schema.parse job.table text = .ok schema) {record : Record}
    (hrecord : record ∈ schema.records) {field : Field} (hfield : field ∈ record.fields) :
    field.spelling = job.table.resolve field.declared :=
  ((Record.identifiers_of_parse hparse hrecord).2 field hfield).2.2

/-- The type of a parameter that is a keyword is not the type of its member, which was judged, so
the table lists it. -/
theorem exists_entry_of_keyword (hparse : Schema.parse job.table text = .ok schema)
    (hvalid : schema.IsValid) {record : Record} (hrecord : record ∈ schema.records) {field : Field}
    (hfield : field ∈ record.fields) (hkeyword : Name.isUnusableType field.spelling.param = true) :
    ∃ entry, job.table.get? field.declared = some entry ∧ field.spelling = entry.spelling := by
  have hne : field.spelling.param ≠ field.spelling.storage := by
    intro hsame
    rw [hsame] at hkeyword
    exact hvalid.not_hasKeywordMember ⟨record, hrecord, field, hfield, hkeyword⟩
  rw [spelling_eq_resolve hparse hrecord hfield] at hne ⊢
  exact TypeTable.exists_get?_of_ne hne

/-- **A keyword that is written for a parameter stands in an entry of the table**, and the text
declares a field with the word of that entry. -/
theorem hasKeywordParameter_iff (hparse : Schema.parse job.table text = .ok schema)
    (hvalid : schema.IsValid) :
    Header.HasKeywordParameter schema.records ↔
      ∃ number name rest, TokensAt text number (name :: rest) ∧
        ∃ token ∈ rest, ∃ side declared entry, HasSides token side declared ∧
          job.table.get? declared = some entry ∧
          Name.isUnusableType entry.spelling.param = true := by
  have hentries : Header.HasKeywordParameter schema.records ↔
      ∃ record ∈ schema.records, ∃ field ∈ record.fields, ∃ entry,
        job.table.get? field.declared = some entry ∧
        Name.isUnusableType entry.spelling.param = true := by
    constructor
    · rintro ⟨record, hrecord, field, hfield, hkeyword⟩
      obtain ⟨entry, hentry, hspelling⟩ :=
        exists_entry_of_keyword hparse hvalid hrecord hfield hkeyword
      exact ⟨record, hrecord, field, hfield, entry, hentry, hspelling ▸ hkeyword⟩
    · rintro ⟨record, hrecord, field, hfield, entry, hentry, hkeyword⟩
      refine ⟨record, hrecord, field, hfield, ?_⟩
      rw [spelling_eq_resolve hparse hrecord hfield, TypeTable.resolve_of_get? hentry]
      exact hkeyword
  -- said of declared words, the property can be carried from records to lines and back
  rw [hentries]
  apply exists_mem_records_iff hparse
  rintro record name rest ⟨-, hfields⟩
  constructor
  · rintro ⟨field, hfield, entry, hentry, hkeyword⟩
    obtain ⟨token, htoken, hsides⟩ := (hfields _ _).mp ⟨field, hfield, rfl, rfl⟩
    exact ⟨token, htoken, _, _, entry, hsides, hentry, hkeyword⟩
  · rintro ⟨token, htoken, side, declared, entry, hsides, hentry, hkeyword⟩
    obtain ⟨field, hfield, -, rfl⟩ := (hfields side declared).mpr ⟨token, htoken, hsides⟩
    exact ⟨field, hfield, entry, hentry, hkeyword⟩

end Accepted

/-! ## A text that asks for an entry -/

/-- One blank between words, and nothing behind the last line. -/
def Layout.bare : Layout where
  line _ :=
    { before := ⟨[], by decide, by decide⟩
      separator := fun _ => ⟨⟨[' '], by decide, by decide⟩, by decide⟩
      after := ⟨[], by decide, by decide⟩
      ending := .lineFeed }
  closing := .unended

/-- A schema of one record with one field, whose member's type passes. -/
theorem Schema.isValid_of_field {name declared : String} {spelling : Spelling}
    (hname : name ∉ Name.reservedWords)
    (hstorage : Name.isUnusableType spelling.storage = false) :
    IsValid { records := [⟨name, 1, [⟨"x", declared, spelling⟩]⟩] } where
  names_nodup := List.nodup_singleton _
  name_not_reserved record hrecord := by
    rw [List.mem_singleton.mp hrecord]
    exact hname
  fields_ne_nil record hrecord := by
    rw [List.mem_singleton.mp hrecord]
    exact List.cons_ne_nil _ _
  fieldNames_nodup record hrecord := by
    rw [List.mem_singleton.mp hrecord]
    exact List.nodup_singleton _
  fieldName_not_reserved record hrecord field hfield := by
    have hx : "x" ∉ Name.reservedWords := by decide
    rw [List.mem_singleton.mp hrecord] at hfield
    rw [List.mem_singleton.mp hfield]
    exact hx
  storage_isBuiltin record hrecord field hfield hreserved := by
    rw [List.mem_singleton.mp hrecord] at hfield
    rw [List.mem_singleton.mp hfield] at hreserved ⊢
    by_contra hbuiltin
    rw [Name.isUnusableType_iff.mpr ⟨hreserved, hbuiltin⟩] at hstorage
    cases hstorage

/-- **Every entry that a text can ask for is asked for by one.** If the member's type passes, the
text is accepted, whatever the parameter's type is. -/
theorem exists_keyword_parameter {job : Job} {declared : String} {entry : TypeEntry}
    (hdeclared : Name.isIdentifier declared = true) (hentry : job.table.get? declared = some entry)
    (hparam : Name.isUnusableType entry.spelling.param = true)
    (hstorage : Name.isUnusableType entry.spelling.storage = false) :
    ∃ text schema, Schema.parse job.table text = .ok schema ∧ job.judge schema = .ok () ∧
      Header.HasKeywordParameter schema.records := by
  -- the record must not be called like the aggregate
  obtain ⟨name, husable, hne⟩ : ∃ name, Name.IsUsable name ∧ name ≠ job.settings.aggregate := by
    by_cases haggregate : job.settings.aggregate = "A"
    · exact ⟨"B", Name.isUsable_of_check (by decide), by rw [haggregate]; decide⟩
    · exact ⟨"A", Name.isUsable_of_check (by decide), Ne.symm haggregate⟩
  have hnamed : ∀ declaration ∈ [⟨name, [("x", declared)]⟩],
      Declaration.IsWellNamed declaration := by
    intro declaration hdeclaration
    have hx : Name.isIdentifier "x" = true := by decide
    rw [List.mem_singleton.mp hdeclaration]
    exact ⟨husable.1, List.forall_mem_singleton.mpr ⟨hx, hdeclared⟩⟩
  have hparse : Schema.parse job.table
      (String.ofList (Layout.bare.print [⟨name, [("x", declared)]⟩]))
        = .ok { records := [⟨name, 1, [⟨"x", declared, entry.spelling⟩]⟩] } := by
    rw [Schema.parse, String.toList_ofList, ← TypeTable.resolve_of_get? hentry]
    exact Layout.bare.ofLines_print job.table hnamed 1
  have hfree : ∀ record ∈ [(⟨name, 1, [⟨"x", declared, entry.spelling⟩]⟩ : Record)],
      record.name ≠ job.settings.aggregate :=
    List.forall_mem_singleton.mpr hne
  exact ⟨_, _, hparse,
    Job.judge_eq_ok_iff.mpr ⟨Schema.isValid_of_field husable.2 hstorage, hfree⟩,
    _, List.mem_singleton_self _, _, List.mem_singleton_self _, hparam⟩

namespace Header

/-- **Which keywords become types of a header.** Whatever the settings and the table are, the header
of an accepted text has no keyword as the type of a member.  It has one as the type of a parameter
if and only if some word of the text declares a field with a type for which the table lists that
spelling.  And there is such a text if and only if the table lists, for some identifier, a keyword
as the parameter's type beside a member's type that passes. -/
theorem keyword_types_exact (job : Job) :
    (∀ text rendered, job.result text = .ok rendered →
      ∃ schema, Schema.parse job.table text = .ok schema ∧
        rendered.artifact = Header.text job.settings schema ∧
        ¬ HasKeywordMember schema.records ∧
        (HasKeywordParameter schema.records ↔
          ∃ number name rest, TokensAt text number (name :: rest) ∧
            ∃ token ∈ rest, ∃ side declared entry, HasSides token side declared ∧
              job.table.get? declared = some entry ∧
              Name.isUnusableType entry.spelling.param = true)) ∧
    ((∃ text schema, Schema.parse job.table text = .ok schema ∧
        job.result text = .ok (job.rendered schema) ∧ HasKeywordParameter schema.records) ↔
      ∃ declared entry, Name.isIdentifier declared = true ∧
        job.table.get? declared = some entry ∧
        Name.isUnusableType entry.spelling.param = true ∧
        Name.isUnusableType entry.spelling.storage = false) := by
  constructor
  · intro text rendered h
    obtain ⟨schema, hparse, hjudge, rfl⟩ := Job.result_eq_ok_iff.mp h
    have hvalid := (Job.judge_eq_ok_iff.mp hjudge).1
    exact ⟨schema, hparse, rfl, hvalid.not_hasKeywordMember,
      hasKeywordParameter_iff hparse hvalid⟩
  · constructor
    · rintro ⟨text, schema, hparse, hresult, record, hrecord, field, hfield, hkeyword⟩
      obtain ⟨parsed, hparsed, hjudge, -⟩ := Job.result_eq_ok_iff.mp hresult
      obtain rfl := Except.ok.inj (hparse.symm.trans hparsed)
      have hvalid := (Job.judge_eq_ok_iff.mp hjudge).1
      have hdeclared := ((Record.identifiers_of_parse hparse hrecord).2 field hfield).2.1
      obtain ⟨entry, hentry, hspelling⟩ :=
        exists_entry_of_keyword hparse hvalid hrecord hfield hkeyword
      -- the same entry spells the member, which was judged
      have hstorage : Name.isUnusableType field.spelling.storage = false := by
        by_contra hmember
        rw [Bool.not_eq_false] at hmember
        exact hvalid.not_hasKeywordMember ⟨record, hrecord, field, hfield, hmember⟩
      exact ⟨field.declared, entry, hdeclared, hentry, hspelling ▸ hkeyword,
        hspelling ▸ hstorage⟩
    · rintro ⟨declared, entry, hdeclared, hentry, hparam, hstorage⟩
      obtain ⟨text, schema, hparse, hjudge, hkeyword⟩ :=
        exists_keyword_parameter hdeclared hentry hparam hstorage
      exact ⟨text, schema, hparse, Job.result_of_ok hparse hjudge, hkeyword⟩

/-- A table with a keyword in each of its places.  The text that is accepted asks for the entry with
a keyword for the parameter, and for no other. -/
theorem keyword_types_exact_parameter :
    ∃ (table : TypeTable) (rendered : Rendered) (schema : Schema),
      table.entries = [⟨"mark", ⟨"Mark", "class"⟩⟩, ⟨"gap", ⟨"void", "Gap"⟩⟩,
        ⟨"class", ⟨"Class", "Class"⟩⟩] ∧
      Job.result { table } "A x:class\nB y:int z:mark" = .ok rendered ∧
      Schema.parse table "A x:class\nB y:int z:mark" = .ok schema ∧
      ¬ HasKeywordMember schema.records ∧ HasKeywordParameter schema.records ∧
      ∃ number name rest, TokensAt "A x:class\nB y:int z:mark" number (name :: rest) ∧
        ∃ token ∈ rest, ∃ side declared entry, HasSides token side declared ∧
          table.get? declared = some entry ∧
          Name.isUnusableType entry.spelling.param = true := by
  have hschema : Schema.parse ⟨[⟨"mark", ⟨"Mark", "class"⟩⟩, ⟨"gap", ⟨"void", "Gap"⟩⟩,
      ⟨"class", ⟨"Class", "Class"⟩⟩]⟩ "A x:class\nB y:int z:mark" = .ok _ := rfl
  have hresult : Job.result { table := ⟨[⟨"mark", ⟨"Mark", "class"⟩⟩, ⟨"gap", ⟨"void", "Gap"⟩⟩,
      ⟨"class", ⟨"Class", "Class"⟩⟩]⟩ } "A x:class\nB y:int z:mark" = .ok _ :=
    Job.result_of_ok hschema rfl
  obtain ⟨schema, hparse, -, hmember, hparameter⟩ := (keyword_types_exact _).1 _ _ hresult
  obtain rfl := Except.ok.inj (hschema.symm.trans hparse)
  refine ⟨_, _, _, rfl, hresult, hschema, hmember, ?_, hparameter.mp ?_⟩
  · decide +kernel
  · decide +kernel

/-- A table and a text that is accepted with it, although a parameter of its header has a keyword
as its type. -/
theorem keyword_parameter_accepted :
    ∃ (rendered : Rendered) (schema : Schema),
      Job.result { table := TypeTable.standard.insert ⟨"foo", ⟨"Foo", "class"⟩⟩ } "A x:foo"
        = .ok rendered ∧
      Schema.parse (TypeTable.standard.insert ⟨"foo", ⟨"Foo", "class"⟩⟩) "A x:foo" = .ok schema ∧
      rendered.artifact = Header.text {} schema ∧
      (schema.records.map fun record => record.fields.map parameter) = [["class x"]] ∧
      "class" ∈ Name.reservedWords ∧ "class" ∉ Name.builtinTypes := by
  have hschema : Schema.parse (TypeTable.standard.insert ⟨"foo", ⟨"Foo", "class"⟩⟩) "A x:foo"
    = .ok _ := rfl
  exact ⟨_, _, Job.result_of_ok hschema rfl, hschema, rfl, by decide +kernel, by decide, by decide⟩

end Header

end RecordHeader
