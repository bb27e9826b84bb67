import RecordHeader.FileSystem.Walk

set_option autoImplicit false

/-! # Setting up and listing a file system

The everyday operations by which a user arranges files: writing a file in
place, making directories and links, removing entries, and listing what there
is below the working directory.
-/

namespace RecordHeader.FileSystem

/-- The location of the file that writing along some steps fills.  A link at
the last step leads on, also when nothing stands yet where it leads. -/
def writeLocation (fs : FileSystem) : (links : Nat) → Location → List String →
    Except Fault Location
  | links, start, steps =>
    match steps.getLast? with
    | none => .error .isDirectory
    | some name => do
      let here ← fs.walk maxLinks start (steps.dropLast ++ ["."])
      if name = "." ∨ name = ".." then .error .isDirectory
      else if maxNameLength < name.utf8ByteSize then .error .nameTooLong
      else
        match fs.lookup (here ++ [name]), links with
        | some (.directory _), _ => .error .isDirectory
        | some (.link _), 0 => .error .linkLoop
        | some (.link target), links + 1 =>
          fs.writeLocation links (origin target here) (Path.steps target)
        | _, _ => .ok (here ++ [name])

/-- Writes a file in place, or creates it, and sets its mode. -/
def writeFile (fs : FileSystem) (path : String) (mode : Mode) (bytes : Bytes) :
    Except Fault FileSystem := do
  acceptPath path
  let start := origin path fs.workingDirectory
  let location ← fs.writeLocation maxLinks start (Path.steps path)
  return fs.put location (.file mode bytes)

/-- Makes the directories of a row of names, each in the one before. -/
def makeDirectoriesFrom (fs : FileSystem) (front : String) : List String →
    Except Fault FileSystem
  | [] => .ok fs
  | name :: rest =>
    let path := front ++ name
    match fs.locate (path ++ "/") with
    | .ok _ => fs.makeDirectoriesFrom (path ++ "/") rest
    | .error .notFound => do
      let location ← fs.slot path
      match fs.lookup location with
      | none => (fs.put location (.directory .directory)).makeDirectoriesFrom (path ++ "/") rest
      | some _ => .error .alreadyExists
    | .error fault => .error fault

/-- Makes a directory and those above it that are missing. -/
def makeDirectories (fs : FileSystem) (path : String) : Except Fault FileSystem := do
  acceptPath path
  fs.makeDirectoriesFrom (if Path.isAbsolute path then "/" else "") (Path.segments path)

/-- Makes a symbolic link. -/
def makeLink (fs : FileSystem) (target path : String) : Except Fault FileSystem := do
  let location ← fs.slot path
  match fs.lookup location with
  | none => return fs.put location (.link target)
  | some _ => .error .alreadyExists

/-- Removes an entry and everything below it. -/
def remove (fs : FileSystem) (path : String) : Except Fault FileSystem := do
  let location ← fs.slot path
  match fs.lookup location with
  | none => .error .notFound
  | some _ =>
    return { fs with entries := fs.entries.filter fun entry => !location.isPrefixOf entry.1 }

/-- The line of a node in a listing. -/
def listingLine (name : String) : Node → String
  | .file mode _ => name ++ " " ++ mode.octal
  | .directory _ => name ++ "/"
  | .link target => name ++ " -> " ++ target

/-- The entries below the working directory, a directory before what is in it
and siblings by their names. -/
def listing (fs : FileSystem) : List String :=
  let below := fs.entries.filterMap fun entry =>
    if fs.workingDirectory.isPrefixOf entry.1 && entry.1 != fs.workingDirectory then
      some (entry.1.drop fs.workingDirectory.length, entry.2)
    else none
  let sorted := below.mergeSort fun a b => (compare a.1 b.1).isLE
  sorted.map fun entry => listingLine ("/".intercalate entry.1) entry.2

end RecordHeader.FileSystem
