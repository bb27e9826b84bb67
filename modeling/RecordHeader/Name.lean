set_option autoImplicit false

/-! # Names of the generated C++

A definition names records, fields and types, and the header declares C++
entities under those names.  This file says which texts are identifiers, which
identifiers C++ keeps for itself, and which of those are types all the same.

`Name.check` is the test for a name that a user chooses for the aggregate or
the include guard: an identifier that is not reserved.
-/

namespace RecordHeader.Name

/-- Identifiers start with an ASCII letter or an underscore. -/
def isStart (c : Char) : Bool :=
  c.isAlpha || c == '_'

/-- Identifiers go on with ASCII letters, digits and underscores. -/
def isPart (c : Char) : Bool :=
  c.isAlphanum || c == '_'

/-- Whether a row of characters is an identifier. -/
def isIdentifierChars : List Char → Bool
  | [] => false
  | c :: cs => isStart c && cs.all isPart

/-- Whether a text is an identifier. -/
def isIdentifier (name : String) : Bool :=
  isIdentifierChars name.toList

/-- The words that C++ reserves, with the alternative spellings of operators. -/
def reservedWords : List String :=
  ["alignas", "alignof", "and", "and_eq", "asm", "auto", "bitand", "bitor", "bool", "break",
   "case", "catch", "char", "char8_t", "char16_t", "char32_t", "class", "compl", "concept",
   "const", "const_cast", "consteval", "constexpr", "constinit", "continue", "co_await",
   "co_return", "co_yield", "decltype", "default", "delete", "do", "double", "dynamic_cast",
   "else", "enum", "explicit", "export", "extern", "false", "float", "for", "friend", "goto",
   "if", "inline", "int", "long", "mutable", "namespace", "new", "noexcept", "not", "not_eq",
   "nullptr", "operator", "or", "or_eq", "private", "protected", "public", "register",
   "reinterpret_cast", "requires", "return", "short", "signed", "sizeof", "static",
   "static_assert", "static_cast", "struct", "switch", "template", "this", "thread_local",
   "throw", "true", "try", "typedef", "typeid", "typename", "union", "unsigned", "using",
   "virtual", "void", "volatile", "wchar_t", "while", "xor", "xor_eq"]

/-- The reserved words that name a type on their own. -/
def builtinTypes : List String :=
  ["bool", "char", "char8_t", "char16_t", "char32_t", "double", "float", "int", "long", "short",
   "signed", "unsigned", "wchar_t"]

/-- Whether C++ reserves a word. -/
def isReserved (word : String) : Bool :=
  reservedWords.contains word

/-- Whether a word is a type of the language itself. -/
def isBuiltinType (word : String) : Bool :=
  builtinTypes.contains word

/-- A reserved word that cannot stand as a type. -/
def isUnusableType (word : String) : Bool :=
  isReserved word && !isBuiltinType word

/-- Why a chosen name is refused. -/
inductive Refusal where
  | notIdentifier
  | keyword
deriving DecidableEq

/-- What is said of a refused name. -/
def Refusal.message (name : String) : Refusal → String
  | notIdentifier => s!"'{name}' is not a valid C++ identifier"
  | keyword => s!"'{name}' is a C++ keyword"

/-- Tests a name that a user chooses: it must be an identifier, and then not a
reserved word. -/
def check (name : String) : Except Refusal Unit :=
  if !isIdentifier name then .error .notIdentifier
  else if isReserved name then .error .keyword
  else .ok ()

end RecordHeader.Name
