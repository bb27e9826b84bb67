import RecordHeader.Program

set_option autoImplicit false

/-! # The command line program

The program on the files of a computer.  All decisions are made elsewhere; this
file reads, writes and prints.
-/

namespace RecordHeader

/-- The fault that a number of the system stands for.  Some operations report
the number negated. -/
def Fault.ofNumber (number : UInt32) (details : String) : Fault :=
  match (min number (0 - number)).toNat with
  | 2 => .notFound
  | 13 => .permissionDenied
  | 16 => .busy
  | 17 => .alreadyExists
  | 20 => .notDirectory
  | 21 => .isDirectory
  | 28 => .noSpace
  | 36 => .nameTooLong
  | 40 => .linkLoop
  | _ => .described details

/-- The fault that an error of the system stands for. -/
def Fault.ofError : IO.Error → Fault
  | .alreadyExists _ number details
  | .otherError number details
  | .resourceBusy number details
  | .resourceVanished number details
  | .unsupportedOperation number details
  | .hardwareFault number details
  | .unsatisfiedConstraints number details
  | .illegalOperation number details
  | .protocolError number details
  | .timeExpired number details
  | .interrupted _ number details
  | .noFileOrDirectory _ number details
  | .invalidArgument _ number details
  | .permissionDenied _ number details
  | .resourceExhausted _ number details
  | .inappropriateType _ number details
  | .noSuchThing _ number details => .ofNumber number details
  | .unexpectedEof => .described "unexpected end of file"
  | .userError details => .described details

/-- Does something, with a fault as the answer where the system reports an error. -/
def attempt {α : Type} (act : IO α) : IO (Except Fault α) :=
  try
    return .ok (← act)
  catch error =>
    return .error (.ofError error)

/-- The rights of a new file: read by all, written by the owner. -/
def newFileRights : IO.FileRight where
  user := { read := true, write := true }
  group := { read := true }
  other := { read := true }

/-- Replaces a file by way of a temporary file in its directory.  The new file
gets the rights of a new file, since the rights of the old one cannot be asked
for. -/
def replaceFile (path : String) (bytes : Bytes) : IO (Except FileError Unit) := do
  let here := (← IO.currentDir).toString
  let name := ".tmp" ++ toString (← IO.rand 100000 999999)
  let temporary := Path.startingAt here (Path.directory path) ++ "/" ++ name
  match ← attempt (IO.FS.Handle.mk temporary .writeNew) with
  | .error fault => return .error { path, fault, temporary := some temporary }
  | .ok handle =>
    let written ← attempt do
      handle.write ⟨bytes.toArray⟩
      handle.flush
      IO.setAccessRights temporary newFileRights
      IO.FS.rename temporary path
    match written with
    | .ok () => return .ok ()
    | .error fault =>
      let _ ← attempt (IO.FS.removeFile temporary)
      return .error { path, fault }

instance : Storage IO where
  read path := attempt do return (← IO.FS.readBinFile path).data.toList
  replace := replaceFile

/-- Writes a text to standard output. -/
def printText (text : String) : IO (Except Fault Unit) := do
  let stdout ← IO.getStdout
  attempt do
    stdout.write text.toUTF8
    stdout.flush

end RecordHeader

open RecordHeader in
/-- Runs the program on the files of the computer. -/
def main (arguments : List String) : IO UInt32 := do
  match Invocation.ofArguments arguments with
  | .error stop =>
    IO.eprint (Program.refusalText stop)
    let _ ← printText (Program.requestedText stop)
    return stop.exitCode.toUInt32
  | .ok invocation =>
    let environment := (← IO.getEnv "RUST_LOG").bind Level.ofText?
    let run : IO (Except Failure Outcome × List Event) := Run.perform invocation.run
    let (performed, events) ← run
    let delivery ← match performed with
      | .ok (.printed artifact) => printText artifact
      | _ => pure (.ok ())
    let result := Program.settle delivery performed
    IO.eprint (Program.errorText (environment.getD invocation.level) invocation events result)
    return (Program.exitCode result).toUInt32
