import RecordHeader.TypeTable

set_option autoImplicit false

/-! # Records and schemas

A schema is what a definition text declares: records in source order, each with
its fields in source order.  It also remembers where reading stopped and how
many lines were passed over after that.
-/

namespace RecordHeader

/-- A field: its name, the type that the definition declares, and how the
header spells that type. -/
structure Field where
  name : String
  declared : String
  spelling : Spelling
deriving DecidableEq

/-- The field whose type is spelled as a table says. -/
def Field.ofDeclared (table : TypeTable) (name declared : String) : Field :=
  ⟨name, declared, table.resolve declared⟩

/-- A record: its name, the line that declares it, and its fields. -/
structure Record where
  name : String
  line : Nat
  fields : List Field
deriving DecidableEq

namespace Record

/-- The first field with a name. -/
def field? (record : Record) (name : String) : Option Field :=
  record.fields.find? fun field => field.name == name

/-- The record with one more field at the end. -/
def addField (record : Record) (field : Field) : Record :=
  { record with fields := record.fields ++ [field] }

end Record

/-- What a definition text declares. -/
structure Schema where
  /-- The records in source order. -/
  records : List Record := []
  /-- The line of the blank line that ended the definitions. -/
  terminatedAt : Option Nat := none
  /-- How many lines that are not blank follow it. -/
  ignoredLines : Nat := 0
deriving DecidableEq

namespace Schema

/-- The schema with one more record at the end. -/
def addRecord (schema : Schema) (record : Record) : Schema :=
  { schema with records := schema.records ++ [record] }

/-- The first record with a name. -/
def record? (schema : Schema) (name : String) : Option Record :=
  schema.records.find? fun record => record.name == name

/-- The schema with the record at an index changed. -/
def modifyRecord (schema : Schema) (index : Nat) (f : Record → Record) : Schema :=
  { schema with records := schema.records.modify index f }

/-- The number of records. -/
def size (schema : Schema) : Nat :=
  schema.records.length

/-- Whether there is no record. -/
def isEmpty (schema : Schema) : Bool :=
  schema.records.isEmpty

/-- The number of fields in all records. -/
def fieldCount (schema : Schema) : Nat :=
  (schema.records.flatMap Record.fields).length

end Schema

end RecordHeader
