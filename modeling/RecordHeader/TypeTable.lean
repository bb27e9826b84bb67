set_option autoImplicit false

/-! # The type table

A field declares its type by a short word.  The table says how that word is
spelled in the header: once as the type of the stored member and once as the
type of the constructor's parameter.  A word that the table does not list
stands for itself in both places.

Entries keep the place of their first insertion; inserting a word again changes
its spelling in place.
-/

namespace RecordHeader

/-- How a declared type is spelled in the header. -/
structure Spelling where
  /-- The type of the stored member. -/
  storage : String
  /-- The type of the constructor's parameter. -/
  param : String
deriving DecidableEq

/-- Whether the parameter has the very type of the member. -/
def Spelling.isByValue (spelling : Spelling) : Bool :=
  spelling.storage == spelling.param

/-- One row of the table. -/
structure TypeEntry where
  /-- The word that a definition uses. -/
  declared : String
  /-- How the header spells it. -/
  spelling : Spelling
deriving DecidableEq

/-- The rows in the order of their first insertion. -/
structure TypeTable where
  entries : List TypeEntry
deriving DecidableEq

namespace TypeTable

/-- The table without a row. -/
def empty : TypeTable :=
  ⟨[]⟩

/-- Strings are stored by value and passed by constant reference. -/
def standard : TypeTable :=
  ⟨[⟨"string", ⟨"std::string", "const std::string &"⟩⟩]⟩

/-- Puts an entry in the place of the first one for the same word, or at the end. -/
def insertEntry (entry : TypeEntry) : List TypeEntry → List TypeEntry
  | [] => [entry]
  | other :: rest =>
    if other.declared = entry.declared then entry :: rest else other :: insertEntry entry rest

/-- Sets the spelling of a declared word. -/
def insert (table : TypeTable) (entry : TypeEntry) : TypeTable :=
  ⟨insertEntry entry table.entries⟩

/-- Inserts a row of entries, from the first to the last. -/
def insertAll (table : TypeTable) (entries : List TypeEntry) : TypeTable :=
  entries.foldl insert table

/-- The entry for a declared word. -/
def get? (table : TypeTable) (declared : String) : Option TypeEntry :=
  table.entries.find? fun entry => entry.declared == declared

/-- The spelling of a declared word; a word without an entry spells itself. -/
def resolve (table : TypeTable) (declared : String) : Spelling :=
  match table.get? declared with
  | some entry => entry.spelling
  | none => ⟨declared, declared⟩

end TypeTable

end RecordHeader
