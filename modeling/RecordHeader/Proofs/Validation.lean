import RecordHeader.Validity
import Mathlib.Tactic

set_option autoImplicit false

/-! # Which schemas are valid, and what is said of the others

`Schema.IsValid` says which schemas make a header, without any order of looking: names are
distinct, names and types are not words that C++ keeps for itself, and no record is empty.
For the other schemas, `Field.HasIssue` and `Record.HasIssue` say what is wrong with one
member of a row, given the members before it, and `IsFirstIssue` picks the first member with
which something is wrong.

Both searches, through the fields of a record and through the records of a schema, are one
recursion (`firstIssueIn?`).  What it finds is stated once, by index
(`firstIssueIn?_eq_some_iff`, `firstIssueIn?_eq_none_iff`), and `validate_exact` puts the
levels together.
-/

namespace RecordHeader

/-! ## The first issue in a row -/

section FirstIssue

variable {α β : Type}

/-- The issue of the first member of a row that has one, where `issue` says what is wrong
with a member, given the members before it. -/
def IsFirstIssue (issue : List α → α → β → Prop) (row : List α) (found : β) : Prop :=
  ∃ (i : Nat) (x : α), row[i]? = some x ∧
    (∀ j < i, ∀ earlier, row[j]? = some earlier →
      ∀ other, ¬ issue (row.take j) earlier other) ∧
    issue (row.take i) x found

/-- What stands behind the first issue does not change it. -/
theorem IsFirstIssue.append {issue : List α → α → β → Prop} {row : List α} {found : β}
    (h : IsFirstIssue issue row found) (rest : List α) :
    IsFirstIssue issue (row ++ rest) found := by
  obtain ⟨i, x, hx, hbefore, hissue⟩ := h
  have hi : i < row.length := (List.getElem?_eq_some_iff.mp hx).1
  refine ⟨i, x, ?_, ?_, ?_⟩
  · rw [List.getElem?_append_left hi]
    exact hx
  · intro j hj earlier hearlier
    rw [List.getElem?_append_left (by omega)] at hearlier
    rw [List.take_append_of_le_length (by omega)]
    exact hbefore j hj earlier hearlier
  · rw [List.take_append_of_le_length (by omega)]
    exact hissue

/-- Looks through a row for the first issue, with the members before the row at hand. -/
def firstIssueIn? (issue? : List α → α → Option β) (before : List α) : List α → Option β
  | [] => none
  | x :: rest =>
    match issue? before x with
    | some found => some found
    | none => firstIssueIn? issue? (before ++ [x]) rest

variable {issue? : List α → α → Option β}

theorem firstIssueIn?_cons_of_some {before : List α} {x : α} {found : β}
    (h : issue? before x = some found) (rest : List α) :
    firstIssueIn? issue? before (x :: rest) = some found := by
  simp only [firstIssueIn?, h]

theorem firstIssueIn?_cons_of_none {before : List α} {x : α} (h : issue? before x = none)
    (rest : List α) :
    firstIssueIn? issue? before (x :: rest) = firstIssueIn? issue? (before ++ [x]) rest := by
  simp only [firstIssueIn?, h]

/-- Nothing is found when no member has an issue. -/
theorem firstIssueIn?_eq_none_iff {before row : List α} :
    firstIssueIn? issue? before row = none ↔
      ∀ (i : Nat) (x : α), row[i]? = some x → issue? (before ++ row.take i) x = none := by
  induction row generalizing before with
  | nil => simp [firstIssueIn?]
  | cons x rest ih =>
      cases hx : issue? before x with
      | some found =>
          rw [firstIssueIn?_cons_of_some hx]
          constructor
          · intro h
            cases h
          · intro h
            have hhead := h 0 x rfl
            rw [List.take_zero, List.append_nil, hx] at hhead
            exact hhead
      | none =>
          rw [firstIssueIn?_cons_of_none hx, ih]
          constructor
          · intro h i y hy
            cases i with
            | zero =>
                obtain rfl : x = y := by simpa using hy
                simpa using hx
            | succ i => simpa using h i y (by simpa using hy)
          · intro h i y hy
            simpa using h (i + 1) y (by simpa using hy)

/-- What is found is the issue of the first member that has one. -/
theorem firstIssueIn?_eq_some_iff {before row : List α} {found : β} :
    firstIssueIn? issue? before row = some found ↔
      ∃ (i : Nat) (x : α), row[i]? = some x ∧
        (∀ j < i, ∀ earlier, row[j]? = some earlier →
          issue? (before ++ row.take j) earlier = none) ∧
        issue? (before ++ row.take i) x = some found := by
  induction row generalizing before with
  | nil => simp [firstIssueIn?]
  | cons x rest ih =>
      cases hx : issue? before x with
      | some other =>
          rw [firstIssueIn?_cons_of_some hx]
          constructor
          · rintro h
            obtain rfl := Option.some.inj h
            exact ⟨0, x, rfl, by omega, by simpa using hx⟩
          · rintro ⟨i, y, hy, hbefore, hfound⟩
            cases i with
            | zero =>
                obtain rfl : x = y := by simpa using hy
                rw [List.take_zero, List.append_nil, hx] at hfound
                exact hfound
            | succ i =>
                have hhead := hbefore 0 (by omega) x rfl
                rw [List.take_zero, List.append_nil, hx] at hhead
                cases hhead
      | none =>
          rw [firstIssueIn?_cons_of_none hx, ih]
          constructor
          · rintro ⟨i, y, hy, hbefore, hfound⟩
            refine ⟨i + 1, y, by simpa using hy, ?_, by simpa using hfound⟩
            intro j hj earlier hearlier
            cases j with
            | zero =>
                obtain rfl : x = earlier := by simpa using hearlier
                simpa using hx
            | succ j => simpa using hbefore j (by omega) earlier (by simpa using hearlier)
          · rintro ⟨i, y, hy, hbefore, hfound⟩
            cases i with
            | zero =>
                obtain rfl : x = y := by simpa using hy
                rw [List.take_zero, List.append_nil, hx] at hfound
                cases hfound
            | succ i =>
                refine ⟨i, y, by simpa using hy, ?_, by simpa using hfound⟩
                intro j hj earlier hearlier
                simpa using hbefore (j + 1) (by omega) earlier (by simpa using hearlier)

/-- The search through a row finds the first issue, if it tells the issues of each member. -/
theorem firstIssueIn?_eq_some_iff_isFirstIssue {issue : List α → α → β → Prop} {row : List α}
    {found : β} (h : ∀ before x other, issue? before x = some other ↔ issue before x other) :
    firstIssueIn? issue? [] row = some found ↔ IsFirstIssue issue row found := by
  have hnone : ∀ before x, issue? before x = none ↔ ∀ other, ¬ issue before x other := by
    intro before x
    simp only [← h, Option.eq_none_iff_forall_ne_some, ne_eq]
  simp only [firstIssueIn?_eq_some_iff, IsFirstIssue, List.nil_append, h, hnone]

/-- The names in a row are distinct when none is that of an earlier member. -/
theorem nodup_map_iff_forall_take {f : α → β} {row : List α} :
    (row.map f).Nodup ↔ ∀ (i : Nat) (x : α), row[i]? = some x →
      ∀ earlier ∈ row.take i, f earlier ≠ f x := by
  rw [List.Nodup, List.pairwise_map, List.pairwise_iff_getElem]
  constructor
  · intro h i x hx earlier hearlier
    obtain ⟨hi, rfl⟩ := List.getElem?_eq_some_iff.mp hx
    obtain ⟨j, hj, rfl⟩ := List.getElem_of_mem hearlier
    have hji : j < i := by simp at hj; omega
    rw [List.getElem_take]
    exact h j i (by omega) hi hji
  · intro h i j hi hj hij
    refine h j row[j] (List.getElem?_eq_getElem hj) row[i] ?_
    exact List.mem_take_iff_getElem.mpr ⟨i, by omega, rfl⟩

end FirstIssue

/-! ## What can be wrong -/

/-- What is wrong with a field of the record `record`, given the fields before it.  A
reserved name comes first, then a type that C++ keeps for something else, then a repeated
name. -/
inductive Field.HasIssue (record : String) (before : List Field) (field : Field) :
    SchemaIssue → Prop
  /-- The name is reserved. -/
  | name : field.name ∈ Name.reservedWords →
      HasIssue record before field (.reservedWord field.name .fieldName)
  /-- The storage type is a reserved word and no type of the language; the declared type is
  reported. -/
  | type : field.name ∉ Name.reservedWords → field.spelling.storage ∈ Name.reservedWords →
      field.spelling.storage ∉ Name.builtinTypes →
      HasIssue record before field (.reservedWord field.declared .fieldType)
  /-- An earlier field has the name. -/
  | duplicate : field.name ∉ Name.reservedWords →
      (field.spelling.storage ∈ Name.reservedWords →
        field.spelling.storage ∈ Name.builtinTypes) →
      (∃ other ∈ before, other.name = field.name) →
      HasIssue record before field (.duplicateField record field.name)

/-- What is wrong with a record, given the records before it.  A repeated name comes first,
then a reserved name, then the lack of fields, then the first field with an issue. -/
inductive Record.HasIssue (before : List Record) (record : Record) : SchemaIssue → Prop
  /-- Earlier records have the name; the line of the first of them is reported. -/
  | duplicate {i : Nat} {first : Record} : before[i]? = some first →
      first.name = record.name →
      (∀ j < i, ∀ other, before[j]? = some other → other.name ≠ record.name) →
      HasIssue before record (.duplicateRecord record.name first.line)
  /-- The name is reserved. -/
  | name : (∀ other ∈ before, other.name ≠ record.name) → record.name ∈ Name.reservedWords →
      HasIssue before record (.reservedWord record.name .recordName)
  /-- There is no field. -/
  | empty : (∀ other ∈ before, other.name ≠ record.name) →
      record.name ∉ Name.reservedWords → record.fields = [] →
      HasIssue before record (.emptyRecord record.name)
  /-- A field has an issue. -/
  | field {issue : SchemaIssue} : (∀ other ∈ before, other.name ≠ record.name) →
      record.name ∉ Name.reservedWords →
      IsFirstIssue (Field.HasIssue record.name) record.fields issue →
      HasIssue before record issue

/-- The error of the first record that has an issue, given the records before it. -/
def SchemaError.IsFirstOf (records : List Record) (error : SchemaError) : Prop :=
  IsFirstIssue (fun before record (found : SchemaError) =>
    found.line = record.line ∧ record.HasIssue before found.issue) records error

/-- A schema that C++ does not refuse. -/
structure Schema.IsValid (schema : Schema) : Prop where
  /-- No two records have the same name. -/
  names_nodup : (schema.records.map Record.name).Nodup
  /-- No record has a reserved name. -/
  name_not_reserved : ∀ record ∈ schema.records, record.name ∉ Name.reservedWords
  /-- Every record has a field. -/
  fields_ne_nil : ∀ record ∈ schema.records, record.fields ≠ []
  /-- No two fields of a record have the same name. -/
  fieldNames_nodup : ∀ record ∈ schema.records, (record.fields.map Field.name).Nodup
  /-- No field has a reserved name. -/
  fieldName_not_reserved : ∀ record ∈ schema.records, ∀ field ∈ record.fields,
    field.name ∉ Name.reservedWords
  /-- A reserved word that is the storage type of a field is a type of the language. -/
  storage_isBuiltin : ∀ record ∈ schema.records, ∀ field ∈ record.fields,
    field.spelling.storage ∈ Name.reservedWords → field.spelling.storage ∈ Name.builtinTypes

namespace Name

theorem isReserved_iff {word : String} : isReserved word = true ↔ word ∈ reservedWords := by
  simp [isReserved]

theorem isUnusableType_iff {word : String} :
    isUnusableType word = true ↔ word ∈ reservedWords ∧ word ∉ builtinTypes := by
  simp [isUnusableType, isReserved, isBuiltinType]

end Name

/-! ## Fields -/

namespace Field

theorem contains_map_name {before : List Field} {name : String} :
    (before.map Field.name).contains name = true ↔ ∃ other ∈ before, other.name = name := by
  simp

/-- The check of a field tells its issue. -/
theorem issue?_eq_some_iff (record : String) (before : List Field) (field : Field)
    (issue : SchemaIssue) :
    field.issue? record (before.map Field.name) = some issue ↔
      field.HasIssue record before issue := by
  unfold issue?
  by_cases hname : field.name ∈ Name.reservedWords
  · rw [if_pos (Name.isReserved_iff.mpr hname)]
    constructor
    · intro h
      obtain rfl := Option.some.inj h
      exact .name hname
    · intro h
      cases h with
      | name _ => rfl
      | type hfree _ _ => exact absurd hname hfree
      | duplicate hfree _ _ => exact absurd hname hfree
  rw [if_neg (mt Name.isReserved_iff.mp hname)]
  by_cases htype : field.spelling.storage ∈ Name.reservedWords ∧
      field.spelling.storage ∉ Name.builtinTypes
  · rw [if_pos (Name.isUnusableType_iff.mpr htype)]
    constructor
    · intro h
      obtain rfl := Option.some.inj h
      exact .type hname htype.1 htype.2
    · intro h
      cases h with
      | name hreserved => exact absurd hreserved hname
      | type _ _ _ => rfl
      | duplicate _ husable _ => exact absurd (husable htype.1) htype.2
  rw [if_neg (mt Name.isUnusableType_iff.mp htype)]
  have husable : field.spelling.storage ∈ Name.reservedWords →
      field.spelling.storage ∈ Name.builtinTypes := by
    intro hreserved
    by_contra hbuiltin
    exact htype ⟨hreserved, hbuiltin⟩
  by_cases hrepeated : ∃ other ∈ before, other.name = field.name
  · rw [if_pos (contains_map_name.mpr hrepeated)]
    constructor
    · intro h
      obtain rfl := Option.some.inj h
      exact .duplicate hname husable hrepeated
    · intro h
      cases h with
      | name hreserved => exact absurd hreserved hname
      | type _ hreserved hbuiltin => exact absurd (husable hreserved) hbuiltin
      | duplicate _ _ _ => rfl
  · rw [if_neg (mt contains_map_name.mp hrepeated)]
    constructor
    · intro h
      cases h
    · intro h
      cases h with
      | name hreserved => exact absurd hreserved hname
      | type _ hreserved hbuiltin => exact absurd (husable hreserved) hbuiltin
      | duplicate _ _ hrepeated' => exact absurd hrepeated' hrepeated

/-- The check of a field passes one with a name of its own and a type that can be used. -/
theorem issue?_eq_none_iff (record : String) (before : List Field) (field : Field) :
    field.issue? record (before.map Field.name) = none ↔
      field.name ∉ Name.reservedWords ∧
      (field.spelling.storage ∈ Name.reservedWords →
        field.spelling.storage ∈ Name.builtinTypes) ∧
      ∀ other ∈ before, other.name ≠ field.name := by
  rw [Option.eq_none_iff_forall_ne_some]
  simp only [ne_eq, issue?_eq_some_iff]
  constructor
  · intro h
    have hname : field.name ∉ Name.reservedWords := fun hreserved => h _ (.name hreserved)
    have husable : field.spelling.storage ∈ Name.reservedWords →
        field.spelling.storage ∈ Name.builtinTypes := by
      intro hreserved
      by_contra hbuiltin
      exact h _ (.type hname hreserved hbuiltin)
    exact ⟨hname, husable, fun other hother heq =>
      h _ (.duplicate hname husable ⟨other, hother, heq⟩)⟩
  · rintro ⟨hname, husable, hfresh⟩ issue h
    cases h with
    | name hreserved => exact hname hreserved
    | type _ hreserved hbuiltin => exact hbuiltin (husable hreserved)
    | duplicate _ _ hrepeated =>
        obtain ⟨other, hother, heq⟩ := hrepeated
        exact hfresh other hother heq

/-- The search through fields keeps their names; it is the general search. -/
theorem firstIssue?_eq (record : String) (before fields : List Field) :
    firstIssue? record (before.map Field.name) fields =
      firstIssueIn? (fun before field => field.issue? record (before.map Field.name))
        before fields := by
  induction fields generalizing before with
  | nil => rfl
  | cons field rest ih =>
      have hnext := ih (before ++ [field])
      rw [List.map_append, List.map_singleton] at hnext
      cases hissue : field.issue? record (before.map Field.name) with
      | some issue => simp only [firstIssue?, firstIssueIn?, hissue]
      | none => simp only [firstIssue?, firstIssueIn?, hissue, hnext]

theorem firstIssue?_eq_some_iff {record : String} {fields : List Field} {issue : SchemaIssue} :
    firstIssue? record [] fields = some issue ↔
      IsFirstIssue (HasIssue record) fields issue := by
  rw [show ([] : List String) = ([] : List Field).map Field.name from rfl, firstIssue?_eq]
  exact firstIssueIn?_eq_some_iff_isFirstIssue (issue?_eq_some_iff record)

theorem firstIssue?_eq_none_iff {record : String} {fields : List Field} :
    firstIssue? record [] fields = none ↔
      (fields.map Field.name).Nodup ∧
      (∀ field ∈ fields, field.name ∉ Name.reservedWords) ∧
      ∀ field ∈ fields, field.spelling.storage ∈ Name.reservedWords →
        field.spelling.storage ∈ Name.builtinTypes := by
  rw [show ([] : List String) = ([] : List Field).map Field.name from rfl, firstIssue?_eq,
    firstIssueIn?_eq_none_iff, nodup_map_iff_forall_take]
  simp only [List.nil_append, issue?_eq_none_iff]
  constructor
  · intro h
    refine ⟨fun i field hfield => (h i field hfield).2.2, ?_, ?_⟩
    · intro field hfield
      obtain ⟨i, hi⟩ := List.mem_iff_getElem?.mp hfield
      exact (h i field hi).1
    · intro field hfield
      obtain ⟨i, hi⟩ := List.mem_iff_getElem?.mp hfield
      exact (h i field hi).2.1
  · rintro ⟨hfresh, hname, husable⟩ i field hfield
    have hmem := List.mem_of_getElem? hfield
    exact ⟨hname field hmem, husable field hmem, hfresh i field hfield⟩

end Field

/-! ## Records -/

namespace Record

/-- The first earlier record of a name, by its index. -/
theorem find?_name_eq_some_iff {before : List Record} {name : String} {first : Record} :
    (before.find? fun other => other.name == name) = some first ↔
      ∃ i : Nat, before[i]? = some first ∧ first.name = name ∧
        ∀ j < i, ∀ other : Record, before[j]? = some other → other.name ≠ name := by
  rw [List.find?_eq_some_iff_getElem]
  constructor
  · rintro ⟨hname, i, hi, rfl, hbefore⟩
    refine ⟨i, List.getElem?_eq_getElem hi, by simpa using hname, ?_⟩
    intro j hj other hother
    obtain ⟨hj', rfl⟩ := List.getElem?_eq_some_iff.mp hother
    simpa using hbefore j hj
  · rintro ⟨i, hfirst, hname, hbefore⟩
    obtain ⟨hi, rfl⟩ := List.getElem?_eq_some_iff.mp hfirst
    refine ⟨by simpa using hname, i, hi, rfl, ?_⟩
    intro j hj
    simpa using hbefore j hj _ (List.getElem?_eq_getElem (by omega))

theorem find?_name_eq_none_iff {before : List Record} {name : String} :
    (before.find? fun other => other.name == name) = none ↔
      ∀ other ∈ before, other.name ≠ name := by
  simp [List.find?_eq_none]

theorem issue?_of_find?_eq_some {before : List Record} {record first : Record}
    (h : (before.find? fun other => other.name == record.name) = some first) :
    record.issue? before = some (.duplicateRecord record.name first.line) := by
  simp only [issue?, h]

theorem issue?_of_find?_eq_none {before : List Record} {record : Record}
    (h : (before.find? fun other => other.name == record.name) = none) :
    record.issue? before =
      if Name.isReserved record.name then some (.reservedWord record.name .recordName)
      else if record.fields.isEmpty then some (.emptyRecord record.name)
      else Field.firstIssue? record.name [] record.fields := by
  simp only [issue?, h]

/-- The check of a record tells its issue. -/
theorem issue?_eq_some_iff (before : List Record) (record : Record) (issue : SchemaIssue) :
    record.issue? before = some issue ↔ record.HasIssue before issue := by
  cases hfind : before.find? fun other => other.name == record.name with
  | some first =>
      obtain ⟨i, hfirst, hname, hbefore⟩ := find?_name_eq_some_iff.mp hfind
      have hmem : first ∈ before := List.mem_of_getElem? hfirst
      rw [issue?_of_find?_eq_some hfind]
      constructor
      · intro h
        obtain rfl := Option.some.inj h
        exact .duplicate hfirst hname hbefore
      · intro h
        cases h with
        | duplicate hfirst' hname' hbefore' =>
            -- both are the first record of the name, so they are one
            have hfind' := find?_name_eq_some_iff.mpr ⟨_, hfirst', hname', hbefore'⟩
            obtain rfl := Option.some.inj (hfind.symm.trans hfind')
            rfl
        | name hfresh _ => exact absurd hname (hfresh first hmem)
        | empty hfresh _ _ => exact absurd hname (hfresh first hmem)
        | field hfresh _ _ => exact absurd hname (hfresh first hmem)
  | none =>
      have hfresh := find?_name_eq_none_iff.mp hfind
      have hsingle : ∀ {i : Nat} {first : Record}, before[i]? = some first →
          first.name ≠ record.name := fun hfirst => hfresh _ (List.mem_of_getElem? hfirst)
      rw [issue?_of_find?_eq_none hfind]
      by_cases hname : record.name ∈ Name.reservedWords
      · rw [if_pos (Name.isReserved_iff.mpr hname)]
        constructor
        · intro h
          obtain rfl := Option.some.inj h
          exact .name hfresh hname
        · intro h
          cases h with
          | duplicate hfirst heq _ => exact absurd heq (hsingle hfirst)
          | name _ _ => rfl
          | empty _ hfree _ => exact absurd hname hfree
          | field _ hfree _ => exact absurd hname hfree
      rw [if_neg (mt Name.isReserved_iff.mp hname)]
      by_cases hempty : record.fields = []
      · rw [if_pos (by simp [hempty])]
        constructor
        · intro h
          obtain rfl := Option.some.inj h
          exact .empty hfresh hname hempty
        · intro h
          cases h with
          | duplicate hfirst heq _ => exact absurd heq (hsingle hfirst)
          | name _ hreserved => exact absurd hreserved hname
          | empty _ _ _ => rfl
          | field _ _ hissue =>
              obtain ⟨i, field, hfield, -⟩ := hissue
              simp [hempty] at hfield
      · rw [if_neg (by simp [hempty]), Field.firstIssue?_eq_some_iff]
        constructor
        · intro h
          exact .field hfresh hname h
        · intro h
          cases h with
          | duplicate hfirst heq _ => exact absurd heq (hsingle hfirst)
          | name _ hreserved => exact absurd hreserved hname
          | empty _ _ hnil => exact absurd hnil hempty
          | field _ _ hissue => exact hissue

theorem issue?_eq_none_iff {before : List Record} {record : Record} :
    record.issue? before = none ↔
      (∀ other ∈ before, other.name ≠ record.name) ∧ record.name ∉ Name.reservedWords ∧
      record.fields ≠ [] ∧ Field.firstIssue? record.name [] record.fields = none := by
  cases hfind : before.find? fun other => other.name == record.name with
  | some first =>
      have hsome : ¬ ∀ other ∈ before, other.name ≠ record.name := by
        rw [← find?_name_eq_none_iff, hfind]
        simp
      rw [issue?_of_find?_eq_some hfind]
      simp [hsome]
  | none =>
      have hfresh := find?_name_eq_none_iff.mp hfind
      rw [issue?_of_find?_eq_none hfind]
      by_cases hname : record.name ∈ Name.reservedWords
      · rw [if_pos (Name.isReserved_iff.mpr hname)]
        simp [hname]
      · rw [if_neg (mt Name.isReserved_iff.mp hname)]
        by_cases hempty : record.fields = []
        · simp [hempty]
        · rw [if_neg (by simp [hempty])]
          simp only [hname, hempty, ne_eq, not_false_eq_true, true_and]
          exact ⟨fun h => ⟨hfresh, h⟩, fun h => h.2⟩

/-- The search through records is the general search, with the line of a record beside its
issue. -/
theorem checkAll_eq (before records : List Record) :
    checkAll before records =
      match firstIssueIn? (fun before record =>
          (record.issue? before).map (SchemaError.mk record.line)) before records with
      | some error => .error error
      | none => .ok () := by
  induction records generalizing before with
  | nil => rfl
  | cons record rest ih =>
      cases hissue : record.issue? before with
      | some issue => simp only [checkAll, firstIssueIn?, hissue, Option.map_some]
      | none => simp only [checkAll, firstIssueIn?, hissue, Option.map_none, ih]

end Record

/-! ## Schemas -/

namespace Schema

theorem validate_eq_ok_iff {schema : Schema} :
    schema.validate = .ok () ↔ ∀ (i : Nat) (record : Record),
      schema.records[i]? = some record → record.issue? (schema.records.take i) = none := by
  have hnone : firstIssueIn? (fun before record =>
        (record.issue? before).map (SchemaError.mk record.line)) [] schema.records = none ↔
      ∀ (i : Nat) (record : Record), schema.records[i]? = some record →
        record.issue? (schema.records.take i) = none := by
    rw [firstIssueIn?_eq_none_iff]
    simp only [List.nil_append, Option.map_eq_none_iff]
  rw [← hnone, validate, Record.checkAll_eq]
  cases firstIssueIn? _ [] schema.records <;> simp

theorem validate_eq_error_iff {schema : Schema} {error : SchemaError} :
    schema.validate = .error error ↔ error.IsFirstOf schema.records := by
  have hissue : ∀ (before : List Record) (record : Record) (found : SchemaError),
      (record.issue? before).map (SchemaError.mk record.line) = some found ↔
        found.line = record.line ∧ record.HasIssue before found.issue := by
    intro before record found
    rw [Option.map_eq_some_iff]
    constructor
    · rintro ⟨issue, h, rfl⟩
      exact ⟨rfl, (Record.issue?_eq_some_iff before record issue).mp h⟩
    · rintro ⟨hline, h⟩
      refine ⟨found.issue, (Record.issue?_eq_some_iff before record found.issue).mpr h, ?_⟩
      rw [← hline]
  rw [SchemaError.IsFirstOf, ← firstIssueIn?_eq_some_iff_isFirstIssue hissue, validate,
    Record.checkAll_eq]
  cases firstIssueIn? _ [] schema.records <;> simp

/-- Of the issues that no record may have, only the repeated name depends on the others. -/
theorem isValid_iff {schema : Schema} :
    schema.IsValid ↔ ∀ (i : Nat) (record : Record),
      schema.records[i]? = some record → record.issue? (schema.records.take i) = none := by
  simp only [Record.issue?_eq_none_iff, Field.firstIssue?_eq_none_iff]
  constructor
  · intro h i record hrecord
    have hmem := List.mem_of_getElem? hrecord
    exact ⟨nodup_map_iff_forall_take.mp h.names_nodup i record hrecord,
      h.name_not_reserved record hmem, h.fields_ne_nil record hmem,
      h.fieldNames_nodup record hmem, h.fieldName_not_reserved record hmem,
      h.storage_isBuiltin record hmem⟩
  · intro h
    have hall : ∀ record ∈ schema.records, record.name ∉ Name.reservedWords ∧
        record.fields ≠ [] ∧ (record.fields.map Field.name).Nodup ∧
        (∀ field ∈ record.fields, field.name ∉ Name.reservedWords) ∧
        ∀ field ∈ record.fields, field.spelling.storage ∈ Name.reservedWords →
          field.spelling.storage ∈ Name.builtinTypes := by
      intro record hmem
      obtain ⟨i, hi⟩ := List.mem_iff_getElem?.mp hmem
      exact (h i record hi).2
    exact
      { names_nodup :=
          nodup_map_iff_forall_take.mpr fun i record hrecord => (h i record hrecord).1
        name_not_reserved := fun record hmem => (hall record hmem).1
        fields_ne_nil := fun record hmem => (hall record hmem).2.1
        fieldNames_nodup := fun record hmem => (hall record hmem).2.2.1
        fieldName_not_reserved := fun record hmem => (hall record hmem).2.2.2.1
        storage_isBuiltin := fun record hmem => (hall record hmem).2.2.2.2 }

/-- **Validation is exact.** A schema passes if and only if it is valid.  Otherwise the answer
is the error of the first record that has an issue, given the records before it, and so it
stays the answer whatever records are appended. -/
theorem validate_exact (schema : Schema) :
    (schema.validate = .ok () ↔ schema.IsValid) ∧
    (∀ error, schema.validate = .error error ↔ error.IsFirstOf schema.records) ∧
    ∀ error, schema.validate = .error error →
      ∀ (longer : Schema) (rest : List Record), longer.records = schema.records ++ rest →
        longer.validate = .error error := by
  refine ⟨?_, fun error => validate_eq_error_iff, ?_⟩
  · rw [validate_eq_ok_iff, isValid_iff]
  · intro error herror longer rest hrecords
    have hfirst := (validate_eq_error_iff.mp herror).append rest
    rw [← hrecords] at hfirst
    exact validate_eq_error_iff.mpr hfirst

end Schema

end RecordHeader
