set_option autoImplicit false

/-! # Settings of a header

What a header is called, how its members are named, what it includes and which
macro guards it.  A guard that is not given is made from the file name.
-/

namespace RecordHeader

namespace Guard

/-- The character of a guard for one of a file name: ASCII letters in upper
case, ASCII digits as they are, an underscore for everything else. -/
def ofChar (c : Char) : Char :=
  if c.isAlphanum then c.toUpper else '_'

/-- Puts an underscore in front of a text that could not start a macro name. -/
def lead : List Char → List Char
  | [] => ['_']
  | c :: cs => if c.isDigit then '_' :: c :: cs else c :: cs

/-- The guard made from a file name. -/
def ofFileName (fileName : String) : String :=
  String.ofList (lead (fileName.toList.map ofChar))

end Guard

/-- The settings of a header. -/
structure Settings where
  /-- The file name in the banner. -/
  fileName : String := "builder_data.hpp"
  /-- The struct that encloses all records. -/
  aggregate : String := "BuilderData"
  /-- What every member's name starts with. -/
  memberPrefix : String := "m_"
  /-- What the name of a list of records goes on with. -/
  listPrefix : String := "list"
  /-- The guard, if one is given. -/
  explicitGuard : Option String := none
  /-- The included files, in order. -/
  includes : List String := ["vlc_common.h", "list", "map", "string"]
deriving DecidableEq

namespace Settings

/-- The guard of the header. -/
def guard (settings : Settings) : String :=
  settings.explicitGuard.getD (Guard.ofFileName settings.fileName)

/-- The member that stores a field. -/
def member (settings : Settings) (field : String) : String :=
  settings.memberPrefix ++ field

/-- The member that lists the values of a record. -/
def listMember (settings : Settings) (record : String) : String :=
  settings.memberPrefix ++ settings.listPrefix ++ record

end Settings

end RecordHeader
