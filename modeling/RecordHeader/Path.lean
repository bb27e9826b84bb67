set_option autoImplicit false

/-! # Paths as they are written

A path is a text whose segments are parted by slashes.  Two readings of it are
used.  `Path.steps` is how a file system walks it: every `.` and `..` is a step,
and a slash at the end asks for a directory.  `Path.parts` is the reading by
its spelling alone: a `.` counts only at the front of a relative path, and
slashes at the end do not count.  The file name of a path is its last part, and
its directory is the text in front of that part, spelled as in the path.
-/

namespace RecordHeader.Path

/-- The non-empty segments between the slashes. -/
def segments (path : String) : List String :=
  ((path.toList.splitOn '/').filter fun segment => !segment.isEmpty).map String.ofList

/-- Whether a path starts at the root. -/
def isAbsolute (path : String) : Bool :=
  path.toList.head? == some '/'

/-- Whether a path ends in a slash. -/
def hasTrailingSlash (path : String) : Bool :=
  path.toList.getLast? == some '/'

/-- The steps of a walk along a path.  A slash at the end is a step that stays
in place, which only a directory allows. -/
def steps (path : String) : List String :=
  if hasTrailingSlash path then segments path ++ ["."] else segments path

/-- The parts of a path by its spelling. -/
def parts (path : String) : List String :=
  match segments path with
  | [] => []
  | first :: rest =>
    let others := rest.filter fun segment => segment != "."
    if first == "." && isAbsolute path then others else first :: others

/-- The last part, if it is a name and not a `.` or `..`. -/
def fileName? (path : String) : Option String :=
  (parts path).getLast?.filter fun name => name != "." && name != ".."

/-- Whether a segment changes nothing about where a path leads. -/
def isIdle (segment : List Char) : Bool :=
  segment.isEmpty || segment == ['.']

/-- The directory that a path's last part is in: the path as it is spelled, up
to the end of the part before the last, and the working directory if there is
no such part. -/
def directory (path : String) : String :=
  match path.toList.splitOn '/' with
  | [] => "."
  | first :: rest =>
    match rest.reverse.dropWhile isIdle with
    | [] => "."
    | _ :: before =>
      let front := first :: (before.dropWhile isIdle).reverse
      if front == [[]] then "/" else String.ofList (['/'].intercalate front)

/-- A path that leads from the root where a path leads from a directory. -/
def startingAt (directory path : String) : String :=
  if isAbsolute path then path else directory ++ "/" ++ path

end RecordHeader.Path
