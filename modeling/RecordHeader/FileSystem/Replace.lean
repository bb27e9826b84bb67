import RecordHeader.FileSystem.Walk

set_option autoImplicit false

/-! # Replacing a file in one step

A file is never written in place.  Its new contents go to a temporary file in
the same directory, that file gets the mode of the one it replaces, and then it
takes the other's name.  Whoever looks at the path sees the old file or the new
one, and a step that fails leaves the old one.  A symbolic link at the path is
itself replaced; its target stays as it is.

The directory of the path is assumed to be open to its owner, as for a walk, so
that a file can be created in it and take another name there.
-/

namespace RecordHeader.FileSystem

/-- The names that occur in a file system: in its working directory, in its
locations and in the targets of its links. -/
def names (fs : FileSystem) : List String :=
  fs.workingDirectory ++ fs.entries.flatMap fun entry =>
    match entry.2 with
    | .link target => entry.1 ++ Path.steps target
    | _ => entry.1

/-- A name that is longer than every name of a list, and so is none of them. -/
def newName (used : List String) : String :=
  ".tmp" ++ String.ofList (List.replicate ((used.map String.length).foldr max 0) '0')

/-- The name of the temporary file for a path: none that the file system or the
path mentions. -/
def temporaryName (fs : FileSystem) (path : String) : String :=
  newName (fs.names ++ Path.segments path)

/-- The path of a temporary file for a path, with the form of its name in the
place of the name: four fixed characters and six that vary. -/
def temporaryPath (fs : FileSystem) (path : String) : String :=
  Path.startingAt fs.workingPath (Path.directory path) ++ "/.tmpXXXXXX"

/-- Where the temporary file for a path is created: in the directory of the
path's last part.  It is created by its path from the root, which can be too
long where the path itself is not. -/
def temporaryLocation (fs : FileSystem) (path : String) : Except Fault Location := do
  acceptPath (fs.temporaryPath path)
  let here ← fs.locate (Path.directory path ++ "/")
  return here ++ [fs.temporaryName path]

/-- The mode that a file at a path will have: that of the file which it
replaces, or the usual one when there is none. -/
def modeOrNew (fs : FileSystem) (path : String) : Except Fault Mode :=
  match fs.mode path with
  | .error .notFound => .ok .file
  | result => result

/-- Gives the file at a location the name that a path says.  A file cannot take
the place of a directory, nor a name that asks for one. -/
def rename (fs : FileSystem) (source : Location) (path : String) : Except Fault FileSystem := do
  let target ← fs.slot path
  if Path.hasTrailingSlash path then .error .notDirectory
  else
    match fs.lookup source, fs.lookup target with
    | none, _ => .error .notFound
    | some _, some (.directory _) => .error .isDirectory
    | some node, _ => .ok ((fs.erase source).put target node)

/-- Replaces the file at a path, or creates it. -/
def replace (fs : FileSystem) (path : String) (bytes : Bytes) :
    Except FileError Unit × FileSystem :=
  match fs.temporaryLocation path with
  | .error fault =>
    (.error { path, fault, temporary := some (fs.temporaryPath path) }, fs)
  | .ok temporary =>
    let created := fs.put temporary (.file .temporary bytes)
    match created.modeOrNew path with
    | .error fault => (.error { path, fault }, created.erase temporary)
    | .ok mode =>
      let ready := created.put temporary (.file mode bytes)
      match ready.rename temporary path with
      | .error fault => (.error { path, fault }, ready.erase temporary)
      | .ok renamed => (.ok (), renamed)

end RecordHeader.FileSystem
