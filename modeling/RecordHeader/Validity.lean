import RecordHeader.Name
import RecordHeader.Schema

set_option autoImplicit false

/-! # Which schemas make a header

A schema that was read without a fault can still declare something that C++
would refuse: one record twice, a field called `class`, a record without a
field.  `Schema.validate` looks for the first such issue in source order, and
`Schema.validateAggregate` for a record that takes the name of the struct that
encloses all records.

Within one record a repeated name comes first, then a reserved name, then the
lack of fields, then the fields from first to last.  Within one field a
reserved name comes first, then a reserved type, then a repeated name.
-/

namespace RecordHeader

/-- What a reserved word was used as. -/
inductive Role where
  | recordName
  | fieldName
  | fieldType
  /-- Any other use, by its description. -/
  | described (text : String)
deriving DecidableEq

/-- The description of a use. -/
def Role.text : Role → String
  | recordName => "record name"
  | fieldName => "field name"
  | fieldType => "field type"
  | described text => text

/-- What can be wrong with a record. -/
inductive SchemaIssue where
  /-- An earlier record, declared on `firstLine`, has the name. -/
  | duplicateRecord (name : String) (firstLine : Nat)
  /-- The record has no fields. -/
  | emptyRecord (name : String)
  /-- An earlier field of the record has the name. -/
  | duplicateField (record field : String)
  /-- A word that C++ reserves is used as a name or a type. -/
  | reservedWord (token : String) (role : Role)
  /-- The record has the name of the enclosing struct. -/
  | aggregateCollision (name : String)
deriving DecidableEq

/-- An issue, with the line of the record in which it lies. -/
structure SchemaError where
  line : Nat
  issue : SchemaIssue
deriving DecidableEq

/-- What is said of an issue. -/
def SchemaError.message (error : SchemaError) : String :=
  match error.issue with
  | .duplicateRecord name firstLine =>
    s!"line {error.line}: duplicate record '{name}' (first declared on line {firstLine})"
  | .emptyRecord name => s!"line {error.line}: record '{name}' declares no fields"
  | .duplicateField record field =>
    s!"line {error.line}: duplicate field '{field}' in record '{record}'"
  | .reservedWord token role =>
    s!"line {error.line}: '{token}' is a reserved word and cannot be used as a {role.text}"
  | .aggregateCollision name =>
    s!"line {error.line}: record '{name}' has the same name as the enclosing aggregate"

namespace Field

/-- The issue of a field of the record `record`, given the names of the fields
before it. -/
def issue? (record : String) (earlier : List String) (field : Field) : Option SchemaIssue :=
  if Name.isReserved field.name then some (.reservedWord field.name .fieldName)
  else if Name.isUnusableType field.spelling.storage then
    some (.reservedWord field.declared .fieldType)
  else if earlier.contains field.name then some (.duplicateField record field.name)
  else none

/-- The first issue in a row of fields. -/
def firstIssue? (record : String) (earlier : List String) : List Field → Option SchemaIssue
  | [] => none
  | field :: rest =>
    match field.issue? record earlier with
    | some issue => some issue
    | none => firstIssue? record (earlier ++ [field.name]) rest

end Field

namespace Record

/-- The issue of a record, given the records before it. -/
def issue? (earlier : List Record) (record : Record) : Option SchemaIssue :=
  match earlier.find? fun other => other.name == record.name with
  | some first => some (.duplicateRecord record.name first.line)
  | none =>
    if Name.isReserved record.name then some (.reservedWord record.name .recordName)
    else if record.fields.isEmpty then some (.emptyRecord record.name)
    else Field.firstIssue? record.name [] record.fields

/-- Looks for the first issue in a row of records, given the records before. -/
def checkAll (earlier : List Record) : List Record → Except SchemaError Unit
  | [] => .ok ()
  | record :: rest =>
    match record.issue? earlier with
    | some issue => .error ⟨record.line, issue⟩
    | none => checkAll (earlier ++ [record]) rest

end Record

namespace Schema

/-- Looks for the first issue in the records of a schema. -/
def validate (schema : Schema) : Except SchemaError Unit :=
  Record.checkAll [] schema.records

/-- Looks for the first record that has the name of the enclosing struct. -/
def validateAggregate (schema : Schema) (aggregate : String) : Except SchemaError Unit :=
  match schema.record? aggregate with
  | some record => .error ⟨record.line, .aggregateCollision record.name⟩
  | none => .ok ()

end Schema

end RecordHeader
