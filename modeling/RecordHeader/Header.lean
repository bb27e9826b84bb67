import RecordHeader.Schema
import RecordHeader.Settings

set_option autoImplicit false

/-! # The text of a header

A header is a banner with guard and includes, the opening of the enclosing
struct, one block for each record in source order, and the closing of struct
and guard.  A block declares a struct whose constructor takes all fields and
stores each of them, and a list of such structs.
-/

namespace RecordHeader.Header

/-- The rule of the banner: 77 asterisks. -/
def rule : String :=
  String.ofList (List.replicate 77 '*')

/-- The comment block that names the file. -/
def banner (settings : Settings) : String :=
  "/*" ++ rule ++ "\n" ++
  " * " ++ settings.fileName ++ "\n" ++
  " *" ++ rule ++ "\n" ++
  " * Data holders filled by the skin XML builder.\n" ++
  " *" ++ rule ++ "/\n"

/-- The line that includes a file. -/
def includeLine (file : String) : String :=
  "#include <" ++ file ++ ">\n"

/-- From the note that the file is generated to the brace that opens the
enclosing struct. -/
def opening (settings : Settings) : String :=
  "\n" ++
  "// File generated by skinsgen\n" ++
  "// DO NOT EDIT\n" ++
  "\n" ++
  "#ifndef " ++ settings.guard ++ "\n" ++
  "#define " ++ settings.guard ++ "\n" ++
  "\n" ++
  String.join (settings.includes.map includeLine) ++
  "\n" ++
  "/// Structure for mapping data from XML file\n" ++
  "struct " ++ settings.aggregate ++ "\n" ++
  "\x7b\n"

/-- Everything before the first record. -/
def preamble (settings : Settings) : String :=
  banner settings ++ opening settings

/-- Everything after the last record. -/
def footer (settings : Settings) : String :=
  "\x7d;\n\n#endif // " ++ settings.guard ++ "\n"

/-- The constructor's parameter for a field. -/
def parameter (field : Field) : String :=
  field.spelling.param ++ " " ++ field.name

/-- The constructor's initializer for a field. -/
def initializer (settings : Settings) (field : Field) : String :=
  settings.member field.name ++ "( " ++ field.name ++ " )"

/-- The line that declares the member for a field. -/
def memberLine (settings : Settings) (field : Field) : String :=
  "        " ++ field.spelling.storage ++ " " ++ settings.member field.name ++ ";\n"

/-- The block of a record. -/
def block (settings : Settings) (record : Record) : String :=
  "\n" ++
  "    /// Type definition\n" ++
  "    struct " ++ record.name ++ "\n" ++
  "    \x7b\n" ++
  "        " ++ record.name ++ "( " ++ ", ".intercalate (record.fields.map parameter) ++ " ):\n" ++
  "            " ++ ", ".intercalate (record.fields.map (initializer settings)) ++ " \x7b\x7d\n" ++
  "\n" ++
  String.join (record.fields.map (memberLine settings)) ++
  "    \x7d;\n" ++
  "    /// List\n" ++
  "    std::list<" ++ record.name ++ "> " ++ settings.listMember record.name ++ ";\n"

/-- The blocks of all records. -/
def blocks (settings : Settings) (schema : Schema) : List String :=
  schema.records.map (block settings)

/-- The text of the header. -/
def text (settings : Settings) (schema : Schema) : String :=
  preamble settings ++ String.join (blocks settings schema) ++ footer settings

end RecordHeader.Header
