import RecordHeader.Proofs.Culprits
import Mathlib.Data.List.MinMax
import Mathlib.Tactic

set_option autoImplicit false

/-! # Clashes of names in a header

A header makes names of its own from those of the definitions: a member for each field, a list for
each record, and a guard.  Records are compared with each other and with the aggregate before a
header is written, but not with these made names, so an accepted text can have a header that C++
refuses: `clashing_definitions` gives one for each kind of clash.

`clashes_exact` says which texts these are, on their words alone.  A record whose name is that of a
member, or of a list, gives a clash, and so does any word that is the guard; nothing else does.
To go from records to words, `Record.IsSpelledBy` says how a record reads in its line.

Inside one constructor, the names of members and of parameters are meant to stay apart by the
prefix of members.  `shadowing_exact` says that they do so for all but the fields that another field
of the record repeats with the prefix in front, and `shadowed_definitions` gives a record with such
a field.
-/

namespace RecordHeader

namespace Header

/-- A struct has a member with its own name, which only a constructor may have. -/
def HasMemberClash (settings : Settings) (records : List Record) : Prop :=
  ∃ record ∈ records, ∃ field ∈ record.fields, settings.member field.name = record.name

/-- A list in the aggregate has the name of a struct in the aggregate. -/
def HasListClash (settings : Settings) (records : List Record) : Prop :=
  ∃ record ∈ records, ∃ other ∈ records, settings.listMember record.name = other.name

/-- The guard, which is defined as nothing, is also a name that the header goes on to use. -/
def HasGuardClash (settings : Settings) (records : List Record) : Prop :=
  settings.guard = settings.aggregate ∨
    ∃ record ∈ records, settings.guard = record.name ∨
      ∃ field ∈ record.fields, settings.guard = field.name ∨ settings.guard = field.declared

instance (settings : Settings) (records : List Record) :
    Decidable (HasMemberClash settings records) :=
  inferInstanceAs (Decidable (∃ record ∈ records, ∃ field ∈ record.fields, _ = _))

instance (settings : Settings) (records : List Record) :
    Decidable (HasListClash settings records) :=
  inferInstanceAs (Decidable (∃ record ∈ records, ∃ other ∈ records, _ = _))

instance (settings : Settings) (records : List Record) :
    Decidable (HasGuardClash settings records) :=
  inferInstanceAs (Decidable (_ = _ ∨ ∃ record ∈ records, _ = _ ∨
    ∃ field ∈ record.fields, _ = _ ∨ _ = _))

end Header

/-- The member of a field has the name of a parameter of the constructor. -/
def Record.IsShadowed (settings : Settings) (record : Record) (field : Field) : Prop :=
  ∃ other ∈ record.fields, other.name = settings.member field.name

instance (settings : Settings) (record : Record) (field : Field) :
    Decidable (record.IsShadowed settings field) :=
  inferInstanceAs (Decidable (∃ other ∈ record.fields, _ = _))

/-! ## Records and their lines -/

/-- The sides of a token are found again. -/
theorem HasSides.unique {token name type name' type' : String} (h : HasSides token name type)
    (h' : HasSides token name' type') : name = name' ∧ type = type' := by
  have hchars : name.toList ++ ':' :: type.toList = name'.toList ++ ':' :: type'.toList := by
    have htoken := congrArg String.toList (h.token_eq.symm.trans h'.token_eq)
    simpa using htoken
  obtain ⟨hname, -, htype⟩ :=
    (List.append_cons_inj_of_notMem h.name_not_mem h.type_not_mem).mp hchars
  exact ⟨String.toList_inj.mp hname, String.toList_inj.mp htype⟩

/-- A record has the given name, and its fields are those that the given tokens declare. -/
structure Record.IsSpelledBy (record : Record) (name : String) (tokens : List String) : Prop where
  name_eq : record.name = name
  field_iff : ∀ side type, (∃ field ∈ record.fields, field.name = side ∧ field.declared = type) ↔
    ∃ token ∈ tokens, HasSides token side type

theorem Declaration.isSpelledBy_toRecord {declaration : Declaration}
    (h : declaration.IsWellNamed) (table : TypeTable) (line : Nat) :
    (declaration.toRecord table line).IsSpelledBy declaration.name declaration.fieldTokens where
  name_eq := rfl
  field_iff side type := by
    constructor
    · rintro ⟨field, hfield, rfl, rfl⟩
      obtain ⟨declared, hdeclared, rfl⟩ := List.mem_map.mp hfield
      exact ⟨fieldToken declared, List.mem_map_of_mem hdeclared,
        hasSides_fieldToken (h.2 declared hdeclared)⟩
    · rintro ⟨token, htoken, hsides⟩
      obtain ⟨declared, hdeclared, rfl⟩ := List.mem_map.mp htoken
      obtain ⟨rfl, rfl⟩ := hsides.unique (hasSides_fieldToken (h.2 declared hdeclared))
      exact ⟨_, List.mem_map_of_mem hdeclared, rfl, rfl⟩

section Lines

variable {job : Job} {text : String} {schema : Schema}

/-- A record is spelled by the line that it has as its number. -/
theorem exists_isSpelledBy (hparse : Schema.parse job.table text = .ok schema) {record : Record}
    (hrecord : record ∈ schema.records) :
    ∃ rest, TokensAt text record.line (record.name :: rest) ∧
      record.IsSpelledBy record.name rest := by
  obtain ⟨i, hi⟩ := List.mem_iff_getElem?.mp hrecord
  obtain ⟨declaration, rfl, hnamed, htokens⟩ := exists_tokensAt hparse hi
  exact ⟨declaration.fieldTokens, htokens, declaration.isSpelledBy_toRecord hnamed _ _⟩

/-- A line that counts has a record, which it spells. -/
theorem exists_isSpelledBy_of_tokensAt (hparse : Schema.parse job.table text = .ok schema)
    {number : Nat} {name : String} {rest : List String}
    (h : TokensAt text number (name :: rest)) :
    ∃ record ∈ schema.records, record.IsSpelledBy name rest := by
  obtain ⟨i, line, hline, -, hwords⟩ := tokensAt_iff.mp h
  obtain ⟨declaration, ⟨hdeclared, hnamed⟩, hfound⟩ :=
    (Schema.isOf_of_ofLines hparse).record_eq i line hline
  have htokens : declaration.name :: declaration.fieldTokens = name :: rest := by
    apply List.map_injective_iff.mpr fun _ _ => String.toList_injective
    rw [declaration.map_toList_tokens]
    exact (Text.words_of_wordsOf hdeclared).symm.trans (Text.words_of_wordsOf hwords)
  obtain ⟨rfl, rfl⟩ := List.cons.inj htokens
  exact ⟨_, List.mem_of_getElem? hfound, declaration.isSpelledBy_toRecord hnamed _ _⟩

/-- **What some record is like, some line is like.** -/
theorem exists_mem_records_iff (hparse : Schema.parse job.table text = .ok schema)
    {property : Record → Prop} {spelling : String → List String → Prop}
    (hspelled : ∀ record name rest, record.IsSpelledBy name rest →
      (property record ↔ spelling name rest)) :
    (∃ record ∈ schema.records, property record) ↔
      ∃ number name rest, TokensAt text number (name :: rest) ∧ spelling name rest := by
  constructor
  · rintro ⟨record, hmem, hproperty⟩
    obtain ⟨rest, htokens, hrecord⟩ := exists_isSpelledBy hparse hmem
    exact ⟨record.line, record.name, rest, htokens,
      (hspelled record record.name rest hrecord).mp hproperty⟩
  · rintro ⟨number, name, rest, htokens, hspelling⟩
    obtain ⟨record, hmem, hrecord⟩ := exists_isSpelledBy_of_tokensAt hparse htokens
    exact ⟨record, hmem, (hspelled record name rest hrecord).mpr hspelling⟩

/-- The names of the records are the first words of the lines. -/
theorem exists_name_eq_iff (hparse : Schema.parse job.table text = .ok schema) (name : String) :
    (∃ record ∈ schema.records, record.name = name) ↔
      ∃ number rest, TokensAt text number (name :: rest) := by
  have hfirst : ∀ (record : Record) first rest, record.IsSpelledBy first rest →
      (record.name = name ↔ first = name) := by
    rintro record first rest ⟨rfl, -⟩
    rfl
  rw [exists_mem_records_iff hparse hfirst]
  constructor
  · rintro ⟨number, _, rest, htokens, rfl⟩
    exact ⟨number, rest, htokens⟩
  · rintro ⟨number, rest, htokens⟩
    exact ⟨number, name, rest, htokens, rfl⟩

end Lines

/-! ## Clashes by the words of the text -/

section Clashes

variable {job : Job} {text : String} {schema : Schema}

theorem hasMemberClash_iff (hparse : Schema.parse job.table text = .ok schema) :
    Header.HasMemberClash job.settings schema.records ↔
      ∃ number name rest, TokensAt text number (name :: rest) ∧
        ∃ token ∈ rest, ∃ side type, HasSides token side type ∧
          name = job.settings.memberPrefix ++ side := by
  apply exists_mem_records_iff hparse
  rintro record name rest ⟨rfl, hfields⟩
  constructor
  · rintro ⟨field, hfield, hmember⟩
    obtain ⟨token, htoken, hsides⟩ := (hfields _ _).mp ⟨field, hfield, rfl, rfl⟩
    exact ⟨token, htoken, _, _, hsides, hmember.symm⟩
  · rintro ⟨token, htoken, side, type, hsides, hname⟩
    obtain ⟨field, hfield, rfl, -⟩ := (hfields side type).mpr ⟨token, htoken, hsides⟩
    exact ⟨field, hfield, hname.symm⟩

theorem hasListClash_iff (hparse : Schema.parse job.table text = .ok schema) :
    Header.HasListClash job.settings schema.records ↔
      ∃ word, (∃ number rest, TokensAt text number (word :: rest)) ∧
        ∃ number rest, TokensAt text number (job.settings.listMember word :: rest) := by
  constructor
  · rintro ⟨record, hrecord, other, hother, hname⟩
    exact ⟨record.name, (exists_name_eq_iff hparse _).mp ⟨record, hrecord, rfl⟩,
      (exists_name_eq_iff hparse _).mp ⟨other, hother, hname.symm⟩⟩
  · rintro ⟨word, hword, hlist⟩
    obtain ⟨record, hrecord, rfl⟩ := (exists_name_eq_iff hparse word).mpr hword
    obtain ⟨other, hother, hname⟩ := (exists_name_eq_iff hparse _).mpr hlist
    exact ⟨record, hrecord, other, hother, hname.symm⟩

theorem hasGuardClash_iff (hparse : Schema.parse job.table text = .ok schema) :
    Header.HasGuardClash job.settings schema.records ↔
      job.settings.guard = job.settings.aggregate ∨
      ∃ number name rest, TokensAt text number (name :: rest) ∧
        (name = job.settings.guard ∨ ∃ token ∈ rest, ∃ side type, HasSides token side type ∧
          (side = job.settings.guard ∨ type = job.settings.guard)) := by
  apply or_congr_right
  apply exists_mem_records_iff hparse
  rintro record name rest ⟨rfl, hfields⟩
  refine or_congr eq_comm ⟨?_, ?_⟩
  · rintro ⟨field, hfield, hguard⟩
    obtain ⟨token, htoken, hsides⟩ := (hfields _ _).mp ⟨field, hfield, rfl, rfl⟩
    exact ⟨token, htoken, _, _, hsides, hguard.imp Eq.symm Eq.symm⟩
  · rintro ⟨token, htoken, side, type, hsides, hguard⟩
    obtain ⟨field, hfield, rfl, rfl⟩ := (hfields side type).mpr ⟨token, htoken, hsides⟩
    exact ⟨field, hfield, hguard.imp Eq.symm Eq.symm⟩

end Clashes

namespace Header

/-- **Which accepted texts have clashes.** The header of an accepted text is that of the schema
which the text parses to.  With the usual settings, a struct has a member with its own name if and
only if in some line the first word is `m_` and the name of one of its fields; a list has the name
of a struct if and only if some line starts with `m_list` and the first word of a line; and the
guard is used as a name if and only if `BUILDER_DATA_HPP` is the first word of a line, the name of a
field or its type. -/
theorem clashes_exact (text : String) (rendered : Rendered)
    (h : Job.result {} text = .ok rendered) :
    ∃ schema, Schema.parse .standard text = .ok schema ∧
      rendered.artifact = Header.text {} schema ∧
      (HasMemberClash {} schema.records ↔
        ∃ number name rest, TokensAt text number (name :: rest) ∧
          ∃ token ∈ rest, ∃ side type, HasSides token side type ∧ name = "m_" ++ side) ∧
      (HasListClash {} schema.records ↔
        ∃ word, (∃ number rest, TokensAt text number (word :: rest)) ∧
          ∃ number rest, TokensAt text number (("m_list" ++ word) :: rest)) ∧
      (HasGuardClash {} schema.records ↔
        ∃ number name rest, TokensAt text number (name :: rest) ∧
          (name = "BUILDER_DATA_HPP" ∨ ∃ token ∈ rest, ∃ side type, HasSides token side type ∧
            (side = "BUILDER_DATA_HPP" ∨ type = "BUILDER_DATA_HPP"))) := by
  -- that the schema is valid plays no part: no check looks at a name with a prefix, or at the guard
  obtain ⟨schema, hparse, -, rfl⟩ := Job.result_eq_ok_iff.mp h
  have hguard : Settings.guard {} = "BUILDER_DATA_HPP" := by decide +kernel
  have hfree : Settings.guard {} ≠ Settings.aggregate {} := by decide +kernel
  have hclash := hasGuardClash_iff hparse
  rw [or_iff_right hfree, hguard] at hclash
  exact ⟨schema, hparse, rfl, hasMemberClash_iff hparse, hasListClash_iff hparse, hclash⟩

/-- A record that is called like the member of its field is accepted.  A name with the prefix of
members is no clash in itself, and neither is a field with the name of a member or a list. -/
theorem clashes_exact_member :
    ∃ rendered schema, Job.result {} "m_x x:int\nm_y x:m_x m_listm_x:int" = .ok rendered ∧
      Schema.parse .standard "m_x x:int\nm_y x:m_x m_listm_x:int" = .ok schema ∧
      HasMemberClash {} schema.records ∧
      (¬ ∃ word,
        (∃ number rest, TokensAt "m_x x:int\nm_y x:m_x m_listm_x:int" number (word :: rest)) ∧
        ∃ number rest, TokensAt "m_x x:int\nm_y x:m_x m_listm_x:int" number
          (("m_list" ++ word) :: rest)) ∧
      ¬ HasGuardClash {} schema.records := by
  have hschema : Schema.parse .standard "m_x x:int\nm_y x:m_x m_listm_x:int" = .ok _ := rfl
  have hresult : Job.result {} "m_x x:int\nm_y x:m_x m_listm_x:int" = .ok _ :=
    Job.result_of_ok hschema rfl
  obtain ⟨schema, hparse, -, -, hlist, -⟩ := clashes_exact _ _ hresult
  obtain rfl := Except.ok.inj (hschema.symm.trans hparse)
  exact ⟨_, _, hresult, hschema, by decide +kernel, fun hwords => absurd (hlist.mpr hwords)
    (by decide +kernel), by decide +kernel⟩

/-- Without a name of its own, the guard is defined as nothing before all else. -/
theorem exists_opening_default :
    ∃ rest, opening {} = "\n// File generated by skinsgen\n// DO NOT EDIT\n\n" ++
      "#ifndef BUILDER_DATA_HPP\n#define BUILDER_DATA_HPP\n" ++ rest := by
  have hguard : Settings.guard {} = "BUILDER_DATA_HPP" := by decide +kernel
  unfold opening
  rw [hguard]
  refine ⟨"\n" ++ String.join ((Settings.includes {}).map includeLine) ++ "\n" ++
    "/// Structure for mapping data from XML file\n" ++ "struct " ++ Settings.aggregate {} ++
    "\n" ++ "\x7b\n", ?_⟩
  simp only [← String.append_assoc]
  rfl

/-- Accepted texts with a clash of each kind, and the blocks that are emitted for them: a struct
`m_x` with a member `m_x`, a struct `m_listA` beside the list `m_listA`, and a struct with the name
that the header has defined as nothing. -/
theorem clashing_definitions :
    (∃ rendered schema, Job.result {} "m_x x:int" = .ok rendered ∧
      Schema.parse .standard "m_x x:int" = .ok schema ∧ HasMemberClash {} schema.records ∧
      rendered.artifact = text {} schema ∧
      blocks {} schema =
        ["\n    /// Type definition\n    struct m_x\n    \x7b\n" ++
          "        m_x( int x ):\n            m_x( x ) \x7b\x7d\n\n" ++
          "        int m_x;\n    \x7d;\n    /// List\n    std::list<m_x> m_listm_x;\n"]) ∧
    (∃ rendered schema, Job.result {} "A x:int\nm_listA y:int" = .ok rendered ∧
      Schema.parse .standard "A x:int\nm_listA y:int" = .ok schema ∧
      HasListClash {} schema.records ∧
      rendered.artifact = text {} schema ∧
      blocks {} schema =
        ["\n    /// Type definition\n    struct A\n    \x7b\n" ++
          "        A( int x ):\n            m_x( x ) \x7b\x7d\n\n" ++
          "        int m_x;\n    \x7d;\n    /// List\n    std::list<A> m_listA;\n",
        "\n    /// Type definition\n    struct m_listA\n    \x7b\n" ++
          "        m_listA( int y ):\n            m_y( y ) \x7b\x7d\n\n" ++
          "        int m_y;\n    \x7d;\n    /// List\n    std::list<m_listA> m_listm_listA;\n"]) ∧
    ∃ rendered schema, Job.result {} "BUILDER_DATA_HPP x:int" = .ok rendered ∧
      Schema.parse .standard "BUILDER_DATA_HPP x:int" = .ok schema ∧
      HasGuardClash {} schema.records ∧
      rendered.artifact = text {} schema ∧
      (∃ rest, opening {} = "\n// File generated by skinsgen\n// DO NOT EDIT\n\n" ++
        "#ifndef BUILDER_DATA_HPP\n#define BUILDER_DATA_HPP\n" ++ rest) ∧
      blocks {} schema =
        ["\n    /// Type definition\n    struct BUILDER_DATA_HPP\n    \x7b\n" ++
          "        BUILDER_DATA_HPP( int x ):\n            m_x( x ) \x7b\x7d\n\n" ++
          "        int m_x;\n    \x7d;\n    /// List\n" ++
          "    std::list<BUILDER_DATA_HPP> m_listBUILDER_DATA_HPP;\n"] := by
  have hmember : Schema.parse .standard "m_x x:int" = .ok _ := rfl
  have hlist : Schema.parse .standard "A x:int\nm_listA y:int" = .ok _ := rfl
  have hguard : Schema.parse .standard "BUILDER_DATA_HPP x:int" = .ok _ := rfl
  refine ⟨⟨_, _, Job.result_of_ok hmember rfl, hmember, ?_, rfl, ?_⟩,
    ⟨_, _, Job.result_of_ok hlist rfl, hlist, ?_, rfl, ?_⟩,
    _, _, Job.result_of_ok hguard rfl, hguard, ?_, rfl, exists_opening_default, ?_⟩
  all_goals decide +kernel

end Header

/-! ## Members and parameters -/

section Shadowing

variable {settings : Settings} {record : Record}

/-- A prefix makes a name longer. -/
theorem Settings.length_lt_length_member (hnonempty : 0 < settings.memberPrefix.length)
    (name : String) : name.length < (settings.member name).length := by
  rw [Settings.member, String.length_append]
  omega

/-- A shadowed field has another one beside it, with a longer name. -/
theorem Record.IsShadowed.exists_longer {field : Field} (h : record.IsShadowed settings field)
    (hnonempty : 0 < settings.memberPrefix.length) :
    ∃ other ∈ record.fields, field.name.length < other.name.length := by
  obtain ⟨other, hother, hname⟩ := h
  refine ⟨other, hother, ?_⟩
  rw [hname]
  exact Settings.length_lt_length_member hnonempty field.name

/-- The field with the longest name is not shadowed. -/
theorem Record.exists_not_isShadowed (hnonempty : 0 < settings.memberPrefix.length)
    (hne : record.fields ≠ []) : ∃ field ∈ record.fields, ¬ record.IsShadowed settings field := by
  have hsome : record.fields.argmax (fun field => field.name.length) ≠ none := by
    rw [Ne, List.argmax_eq_none]
    exact hne
  obtain ⟨longest, hlongest⟩ := Option.ne_none_iff_exists'.mp hsome
  refine ⟨longest, List.argmax_mem hlongest, fun hshadowed => ?_⟩
  obtain ⟨other, hother, hlonger⟩ := hshadowed.exists_longer hnonempty
  have hle : other.name.length ≤ longest.name.length :=
    List.le_of_mem_argmax (f := fun field : Field => field.name.length) hother hlongest
  omega

/-- By the words of its line, a field is shadowed if and only if one of them declares its name with
the prefix in front. -/
theorem Record.IsSpelledBy.isShadowed_iff {name : String} {rest : List String}
    (h : record.IsSpelledBy name rest) (field : Field) :
    record.IsShadowed settings field ↔
      ∃ token ∈ rest, ∃ type, HasSides token (settings.memberPrefix ++ field.name) type := by
  constructor
  · rintro ⟨other, hother, hname⟩
    obtain ⟨token, htoken, hsides⟩ := (h.field_iff _ _).mp ⟨other, hother, hname, rfl⟩
    exact ⟨token, htoken, _, hsides⟩
  · rintro ⟨token, htoken, type, hsides⟩
    obtain ⟨other, hother, hname, -⟩ := (h.field_iff _ _).mpr ⟨token, htoken, hsides⟩
    exact ⟨other, hother, hname⟩

end Shadowing

namespace Header

/-- **Which members are shadowed.** The header of an accepted text is that of the schema which the
text parses to.  With the usual settings, no member has the name of its own parameter, and in every
record some member has the name of no parameter.  A member has the name of another field's parameter
if and only if a word of the record's line declares the name of its field with `m_` in front. -/
theorem shadowing_exact (text : String) (rendered : Rendered)
    (h : Job.result {} text = .ok rendered) :
    ∃ schema, Schema.parse .standard text = .ok schema ∧
      rendered.artifact = Header.text {} schema ∧
      ∀ record ∈ schema.records,
        (∀ field ∈ record.fields, Settings.member {} field.name ≠ field.name) ∧
        (∃ field ∈ record.fields, ¬ record.IsShadowed {} field) ∧
        ∃ rest, TokensAt text record.line (record.name :: rest) ∧
          record.IsSpelledBy record.name rest ∧
          ∀ field ∈ record.fields, record.IsShadowed {} field ↔
            ∃ token ∈ rest, ∃ type, HasSides token ("m_" ++ field.name) type := by
  obtain ⟨schema, hparse, hjudge, rfl⟩ := Job.result_eq_ok_iff.mp h
  have hvalid := (Job.judge_eq_ok_iff.mp hjudge).1
  have hnonempty : 0 < (Settings.memberPrefix {}).length := by decide
  refine ⟨schema, hparse, rfl, fun record hrecord => ⟨?_, ?_, ?_⟩⟩
  · intro field _ hname
    have hlonger := Settings.length_lt_length_member hnonempty field.name
    rw [hname] at hlonger
    omega
  · exact Record.exists_not_isShadowed hnonempty (hvalid.fields_ne_nil record hrecord)
  · obtain ⟨rest, htokens, hspelled⟩ := exists_isSpelledBy hparse hrecord
    exact ⟨rest, htokens, hspelled, fun field _ => hspelled.isShadowed_iff field⟩

/-- A name with the prefix in front shadows nothing by itself, nor a field of another record. -/
theorem shadowing_exact_chain :
    ∃ rendered schema, Job.result {} "A x:int m_y:int\nB m_m_x:int m_x:A x:int" = .ok rendered ∧
      Schema.parse .standard "A x:int m_y:int\nB m_m_x:int m_x:A x:int" = .ok schema ∧
      (schema.records.map fun record =>
        (record.fields.filter fun field => record.IsShadowed {} field).map Field.name)
          = [[], ["m_x", "x"]] ∧
      ∀ record ∈ schema.records, ∃ field ∈ record.fields, ¬ record.IsShadowed {} field := by
  have hschema : Schema.parse .standard "A x:int m_y:int\nB m_m_x:int m_x:A x:int"
    = .ok _ := rfl
  have hresult : Job.result {} "A x:int m_y:int\nB m_m_x:int m_x:A x:int" = .ok _ :=
    Job.result_of_ok hschema rfl
  obtain ⟨schema, hparse, -, hrecords⟩ := shadowing_exact _ _ hresult
  obtain rfl := Except.ok.inj (hschema.symm.trans hparse)
  exact ⟨_, _, hresult, hschema, by decide +kernel, fun record hrecord =>
    (hrecords record hrecord).2.1⟩

/-- An accepted text with a member that has the name of a parameter, and the block that is emitted
for it: in the initializer of `m_m_x`, `m_x` is the parameter and not the member. -/
theorem shadowed_definitions :
    ∃ rendered schema, Job.result {} "A x:int m_x:int" = .ok rendered ∧
      Schema.parse .standard "A x:int m_x:int" = .ok schema ∧
      (∃ record ∈ schema.records, ∃ field ∈ record.fields, record.IsShadowed {} field) ∧
      rendered.artifact = text {} schema ∧
      blocks {} schema =
        ["\n    /// Type definition\n    struct A\n    \x7b\n" ++
          "        A( int x, int m_x ):\n            m_x( x ), m_m_x( m_x ) \x7b\x7d\n\n" ++
          "        int m_x;\n        int m_m_x;\n    \x7d;\n" ++
          "    /// List\n    std::list<A> m_listA;\n"] := by
  have hschema : Schema.parse .standard "A x:int m_x:int" = .ok _ := rfl
  refine ⟨_, _, Job.result_of_ok hschema rfl, hschema, ?_, rfl, ?_⟩
  · decide +kernel
  · decide +kernel

end Header

end RecordHeader
