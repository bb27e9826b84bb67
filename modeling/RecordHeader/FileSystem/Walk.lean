import RecordHeader.Failure
import RecordHeader.FileSystem.Basic
import RecordHeader.Path

set_option autoImplicit false

/-! # From paths to locations

A walk takes the steps of a path one by one.  It stays at `.`, goes up at `..`,
enters directories, and goes on along the target of a symbolic link.  A run of
more than forty links is given up as a loop.

There are two ways to use a path.  `locate` follows it to the end, through a
link at its last step too: this is how files are read.  `slot` goes to the
directory of the last step and gives the place of that name, whatever stands
there: this is how entries are replaced.

All files and directories belong to the user.  A file can be read if its mode
lets the owner read it.  Directories are assumed to be open to their owner: no
operation refuses one for its mode, and what is said of all file systems is
said under this assumption.
-/

namespace RecordHeader.FileSystem

/-- How many symbolic links one walk may pass. -/
def maxLinks : Nat := 40

/-- How many bytes a name may have. -/
def maxNameLength : Nat := 255

/-- How many bytes a path may have. -/
def maxPathLength : Nat := 4095

/-- Where the walk along a path starts. -/
def origin (path : String) (here : Location) : Location :=
  if Path.isAbsolute path then [] else here

/-- Takes steps from a directory.  At a symbolic link, the steps of its target
come before the steps that are left, and `follow` takes them. -/
def descend (fs : FileSystem) (follow : Location → List String → Except Fault Location)
    (here : Location) : List String → Except Fault Location
  | [] => .ok here
  | name :: rest =>
    if name = "." then descend fs follow here rest
    else if name = ".." then descend fs follow here.dropLast rest
    else if maxNameLength < name.utf8ByteSize then .error .nameTooLong
    else
      match fs.lookup (here ++ [name]) with
      | none => .error .notFound
      | some (.directory _) => descend fs follow (here ++ [name]) rest
      | some (.file _ _) => if rest.isEmpty then .ok (here ++ [name]) else .error .notDirectory
      | some (.link target) => follow (origin target here) (Path.steps target ++ rest)

/-- Takes steps from a directory, passing at most `links` symbolic links. -/
def walk (fs : FileSystem) : (links : Nat) → Location → List String → Except Fault Location
  | 0 => fs.descend fun _ _ => .error .linkLoop
  | links + 1 => fs.descend (fs.walk links)

/-- Refuses the paths that no file system takes. -/
def acceptPath (path : String) : Except Fault Unit :=
  if path.toList.contains '\x00' then .error .nulInPath
  else if path.isEmpty then .error .notFound
  else if maxPathLength < path.utf8ByteSize then .error .nameTooLong
  else .ok ()

/-- The path of the working directory. -/
def workingPath (fs : FileSystem) : String :=
  "/" ++ "/".intercalate fs.workingDirectory

/-- The location that a path leads to. -/
def locate (fs : FileSystem) (path : String) : Except Fault Location := do
  acceptPath path
  fs.walk maxLinks (origin path fs.workingDirectory) (Path.steps path)

/-- The place of the last name of a path, whatever stands there.  The root and
the steps `.` and `..` are no names that an entry could have. -/
def slot (fs : FileSystem) (path : String) : Except Fault Location := do
  acceptPath path
  match (Path.segments path).getLast? with
  | none => .error .busy
  | some name =>
    let front := (Path.segments path).dropLast ++ ["."]
    let here ← fs.walk maxLinks (origin path fs.workingDirectory) front
    if name = "." ∨ name = ".." then .error .busy
    else if maxNameLength < name.utf8ByteSize then .error .nameTooLong
    else .ok (here ++ [name])

/-- The bytes of the file that a path leads to. -/
def read (fs : FileSystem) (path : String) : Except Fault Bytes := do
  let location ← fs.locate path
  match fs.lookup location with
  | some (.file mode bytes) => if mode.isReadable then .ok bytes else .error .permissionDenied
  | some (.directory _) => .error .isDirectory
  | _ => .error .notFound

/-- The mode of the file or directory that a path leads to. -/
def mode (fs : FileSystem) (path : String) : Except Fault Mode := do
  let location ← fs.locate path
  match fs.lookup location with
  | some (.file mode _) => .ok mode
  | some (.directory mode) => .ok mode
  | _ => .error .notFound

end RecordHeader.FileSystem
