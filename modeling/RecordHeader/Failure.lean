import RecordHeader.Definition
import RecordHeader.Validity

set_option autoImplicit false

/-! # Failures

A run fails because of its definitions or because of the files it works on.
A definition failure ends the program with status 65, a file failure with 74.
-/

namespace RecordHeader

/-- Why a file or a stream could not be used. -/
inductive Fault where
  | notFound
  | permissionDenied
  | busy
  | alreadyExists
  | notDirectory
  | isDirectory
  | noSpace
  | nameTooLong
  | linkLoop
  /-- A path holds a NUL, which no file name can. -/
  | nulInPath
  /-- A source text is not well-formed UTF-8. -/
  | invalidUtf8
  /-- A stream took no byte of what was left to write. -/
  | writeZero
  | brokenPipe
  /-- Any other reason, by its description. -/
  | described (text : String)
deriving DecidableEq

/-- What is said of a fault; the faults that the system reports carry its number. -/
def Fault.message : Fault → String
  | notFound => "No such file or directory (os error 2)"
  | permissionDenied => "Permission denied (os error 13)"
  | busy => "Device or resource busy (os error 16)"
  | alreadyExists => "File exists (os error 17)"
  | notDirectory => "Not a directory (os error 20)"
  | isDirectory => "Is a directory (os error 21)"
  | noSpace => "No space left on device (os error 28)"
  | nameTooLong => "File name too long (os error 36)"
  | linkLoop => "Too many levels of symbolic links (os error 40)"
  | nulInPath => "file name contained an unexpected NUL byte"
  | invalidUtf8 => "stream did not contain valid UTF-8"
  | writeZero => "failed to write whole buffer"
  | brokenPipe => "broken pipe"
  | described text => text

/-- A fault, with the path of the file that the run was about.  When it befell
a temporary file made on behalf of that file, `temporary` is its path. -/
structure FileError where
  path : String
  fault : Fault
  temporary : Option String := none
deriving DecidableEq

/-- What is said of a fault of a file. -/
def FileError.message (error : FileError) : String :=
  match error.temporary with
  | none => s!"IO error on '{error.path}': {error.fault.message}"
  | some temporary =>
    s!"IO error on '{error.path}': {error.fault.message} at path \"{temporary}\""

/-- Why a run failed. -/
inductive Failure where
  | definition (error : LineError)
  | schema (error : SchemaError)
  | file (error : FileError)
deriving DecidableEq

namespace Failure

/-- What is said of a failure. -/
def message : Failure → String
  | definition error => s!"definition error: {error.message}"
  | schema error => s!"schema error: {error.message}"
  | file error => error.message

/-- Whether the definitions are at fault, and not the files. -/
def isDefinition : Failure → Bool
  | definition _ | schema _ => true
  | file _ => false

/-- The exit status of a program that ends with a failure. -/
def exitCode (failure : Failure) : Nat :=
  if failure.isDefinition then 65 else 74

end Failure

end RecordHeader
