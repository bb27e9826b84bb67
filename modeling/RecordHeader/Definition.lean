import RecordHeader.Name
import RecordHeader.Schema
import RecordHeader.Text.Lines
import RecordHeader.Text.WhiteSpace

set_option autoImplicit false

/-! # Definition texts

One line declares one record: the record's name, then a word `name:type` for
each field.  The first blank line ends the definitions, and what follows it is
passed over and only counted.  Lines are numbered from one.

`Declaration.read` reads one line and `Schema.parse` a whole text.  Both report
the first fault in reading order.
-/

namespace RecordHeader

/-- What can be wrong with a word of a definition line. -/
inductive LineFault where
  /-- A field is not two non-empty sides around one colon. -/
  | malformedField
  /-- A record name or the name side of a field is not an identifier. -/
  | invalidIdentifier
  /-- The type side of a field is not an identifier. -/
  | invalidTypeName
deriving DecidableEq

/-- A fault, with the line and the whole word in which it lies. -/
structure LineError where
  line : Nat
  token : String
  fault : LineFault
deriving DecidableEq

/-- What is said of a fault in a definition line. -/
def LineError.message (error : LineError) : String :=
  match error.fault with
  | .malformedField =>
    s!"line {error.line}: malformed field '{error.token}', expected 'name:type'"
  | .invalidIdentifier => s!"line {error.line}: invalid identifier '{error.token}'"
  | .invalidTypeName => s!"line {error.line}: invalid type name '{error.token}'"

/-- A record as one line declares it: a name, and the name and declared type of
each field. -/
structure Declaration where
  name : String
  fields : List (String × String)
deriving DecidableEq

namespace Declaration

/-- Reads the word of one field.  The sides are judged only when the word has
one colon and neither side is empty, the name before the type. -/
def readField (line : Nat) (word : List Char) : Except LineError (String × String) :=
  let refuse := fun fault => .error ⟨line, String.ofList word, fault⟩
  match word.splitOn ':' with
  | [name, type] =>
    if name.isEmpty || type.isEmpty then refuse .malformedField
    else if !Name.isIdentifierChars name then refuse .invalidIdentifier
    else if !Name.isIdentifierChars type then refuse .invalidTypeName
    else .ok (String.ofList name, String.ofList type)
  | _ => refuse .malformedField

/-- Reads the words of the fields, up to the first fault. -/
def readFields (line : Nat) : List (List Char) → Except LineError (List (String × String))
  | [] => .ok []
  | word :: rest => do
    let field ← readField line word
    let fields ← readFields line rest
    return field :: fields

/-- Reads the words of a line; a line without words declares nothing. -/
def readWords (line : Nat) : List (List Char) → Except LineError (Option Declaration)
  | [] => .ok none
  | name :: rest =>
    if !Name.isIdentifierChars name then
      .error ⟨line, String.ofList name, .invalidIdentifier⟩
    else do
      let fields ← readFields line rest
      return some ⟨String.ofList name, fields⟩

/-- Reads a definition line; a blank line declares nothing. -/
def read (line : Nat) (text : List Char) : Except LineError (Option Declaration) :=
  readWords line (Text.words text)

/-- The declared record, with its types spelled as a table says. -/
def toRecord (table : TypeTable) (line : Nat) (declaration : Declaration) : Record where
  name := declaration.name
  line := line
  fields := declaration.fields.map fun field => Field.ofDeclared table field.1 field.2

end Declaration

namespace Schema

/-- Reads lines from a given line number on. -/
def ofLines (table : TypeTable) (line : Nat) : List (List Char) → Except LineError Schema
  | [] => .ok {}
  | text :: rest => do
    match ← Declaration.read line text with
    | none =>
      return { terminatedAt := some line
               ignoredLines := rest.countP fun text => !Text.isBlank text }
    | some declaration =>
      let schema ← ofLines table (line + 1) rest
      return { schema with records := declaration.toRecord table line :: schema.records }

/-- Reads a definition text. -/
def parse (table : TypeTable) (text : String) : Except LineError Schema :=
  ofLines table 1 (Text.lines text.toList)

end Schema

end RecordHeader
