import RecordHeader.CommandLine
import RecordHeader.Sink

set_option autoImplicit false

/-! # The program as a whole

From arguments, files and standard output to an exit status.  What the program
says goes to standard error: the shown events in their order, and then a line
for a failure or for a header that is out of date.
-/

namespace RecordHeader.Program

/-- What `--version` prints. -/
def versionText : String :=
  "skinsgen 0.3.0\n"

/-- What `--help` prints. -/
def helpText : String :=
  "Generates C++ builder data headers from line-oriented record definitions\n\n" ++
  "Usage: skinsgen [OPTIONS] [INPUT] [OUTPUT]\n\n" ++
  "Arguments:\n" ++
  "  [INPUT]   Record definition file [default: builder_data.def]\n" ++
  "  [OUTPUT]  Generated header [default: builder_data.hpp]\n\n" ++
  "Options:\n" ++
  "      --check             " ++
  "Exit with status 1 if the header is out of date instead of writing it\n" ++
  "      --stdout            Print the header to stdout instead of writing it\n" ++
  "      --aggregate <NAME>  Name of the enclosing aggregate struct\n" ++
  "      --guard <NAME>      Include guard macro\n" ++
  "  -v, --verbose...        Increase log verbosity (-v info, -vv debug)\n" ++
  "  -h, --help              Print help\n" ++
  "  -V, --version           Print version\n"

/-- The text that a command line without an invocation asks for. -/
def requestedText : Stop → String
  | .help => helpText
  | .version => versionText
  | _ => ""

/-- What is said on standard error of a command line that cannot be carried out. -/
def refusalText : Stop → String
  | .help | .version => ""
  | stop => "error: " ++ stop.message ++ "\n"

/-- All events of an invocation: those of its run, and one for a written header. -/
def eventsOf (events : List Event) : Except Failure Outcome → List Event
  | .ok (.written summary) => events ++ [.generated summary.records summary.fields]
  | _ => events

/-- What is said at the end of an invocation. -/
def closing (invocation : Invocation) : Except Failure Outcome → String
  | .ok .stale => invocation.output ++ " is out of date\n"
  | .ok _ => ""
  | .error failure => "skinsgen: " ++ failure.message ++ "\n"

/-- Everything that an invocation says on standard error, at a level of the log. -/
def errorText (level : Level) (invocation : Invocation) (events : List Event)
    (result : Except Failure Outcome) : String :=
  level.log (eventsOf events result) ++ closing invocation result

/-- The exit status of an invocation. -/
def exitCode : Except Failure Outcome → Nat
  | .ok outcome => outcome.exitCode
  | .error failure => failure.exitCode

/-- The final result of an invocation, once the text of a `printed` outcome has
been offered to standard output: it fails when that failed. -/
def settle (delivery : Except Fault Unit) : Except Failure Outcome → Except Failure Outcome
  | .ok (.printed artifact) =>
    match delivery with
    | .ok () => .ok (.printed artifact)
    | .error fault => .error (.ofStandardOutput fault)
  | result => result

/-- What a program leaves behind, where standard output is a stream of type `σ`. -/
structure Exit (σ : Type) where
  code : Nat
  /-- Standard output after the program. -/
  stdout : σ
  /-- What was said on standard error. -/
  stderr : String
  /-- The files after the program. -/
  files : FileSystem
deriving DecidableEq

variable {σ : Type} [OutputStream σ]

/-- Offers the text of a `printed` outcome to standard output. -/
def deliver (stdout : σ) : Except Failure Outcome → Except Fault Unit × σ
  | .ok (.printed artifact) => OutputStream.emit stdout artifact
  | _ => (.ok (), stdout)

/-- Runs the program.  A level from the environment comes before the one that
the arguments ask for. -/
def run (files : FileSystem) (stdout : σ) (environment : Option Level)
    (arguments : List String) : Exit σ :=
  match Invocation.ofArguments arguments with
  | .error stop =>
    { code := stop.exitCode
      stdout := (OutputStream.emit stdout (requestedText stop)).2
      stderr := refusalText stop
      files }
  | .ok invocation =>
    let ((performed, progress), files) := Run.on invocation.run {} files
    let (delivery, stdout) := deliver stdout performed
    let result := settle delivery performed
    { code := exitCode result
      stdout
      stderr := errorText (environment.getD invocation.level) invocation progress.events result
      files }

end RecordHeader.Program
