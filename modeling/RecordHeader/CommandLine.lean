import RecordHeader.Job
import RecordHeader.Name
import RecordHeader.Path

set_option autoImplicit false

/-! # The command line

An invocation names the definition file and the header file, says what to do
with them, and may set the names of the aggregate and of the guard.

Arguments are read from left to right, and the first one that is wrong, or that
asks for help or the version, ends the reading.  Only that checking and
printing exclude each other is looked at when all arguments have been read.
Flags and paths mix freely; after `--` every argument is a path.
-/

namespace RecordHeader

/-- What to do with the header. -/
inductive Action where
  /-- Bring the header file up to date. -/
  | write
  /-- Say whether the header file is up to date. -/
  | check
  /-- Write the header to standard output. -/
  | print
deriving DecidableEq

/-- What a command line asks for. -/
structure Invocation where
  input : String := "builder_data.def"
  output : String := "builder_data.hpp"
  action : Action := .write
  aggregate : Option String := none
  guard : Option String := none
  /-- How often more of the log was asked for, up to 255. -/
  verbosity : Nat := 0
deriving DecidableEq

/-- Why a command line gives no invocation. -/
inductive Stop where
  | help
  | version
  /-- An argument is no known flag, or is a third path. -/
  | unknownArgument (argument : String)
  /-- An option stands without the value that it needs. -/
  | missingValue (option : String)
  /-- A path is empty. -/
  | emptyPath
  /-- The value of an option is not a name that can be used. -/
  | refusedName (option value : String) (refusal : Name.Refusal)
  /-- A flag or an option that may occur once occurs again. -/
  | repeated (option : String)
  /-- Both checking and printing are asked for. -/
  | checkAndPrint
  /-- A flag has a value. -/
  | unexpectedValue (option : String)
deriving DecidableEq

/-- The exit status of a program that has no invocation to carry out. -/
def Stop.exitCode : Stop → Nat
  | help | version => 0
  | _ => 2

/-- What is said of a command line that cannot be carried out. -/
def Stop.message : Stop → String
  | help => "help was asked for"
  | version => "the version was asked for"
  | unknownArgument argument => s!"unexpected argument '{argument}'"
  | missingValue option => s!"option '{option}' needs a value"
  | emptyPath => "a path is empty"
  | refusedName option value refusal =>
    s!"invalid value '{value}' for '{option}': {refusal.message value}"
  | repeated option => s!"option '{option}' cannot be used multiple times"
  | checkAndPrint => "option '--check' cannot be used with '--stdout'"
  | unexpectedValue option => s!"option '{option}' takes no value"

namespace CommandLine

/-- The flags, which take no value. -/
inductive Flag where
  | check
  | print
  | verbose
  | help
  | version
deriving DecidableEq

/-- The flag with a long name. -/
def Flag.ofLong? : String → Option Flag
  | "check" => some check
  | "stdout" => some print
  | "verbose" => some verbose
  | "help" => some help
  | "version" => some version
  | _ => none

/-- The flag with a short name. -/
def Flag.ofShort? : Char → Option Flag
  | 'v' => some verbose
  | 'h' => some help
  | 'V' => some version
  | _ => none

/-- The options, which take a name as their value. -/
inductive NameOption where
  | aggregate
  | guard
deriving DecidableEq

/-- The option with a long name. -/
def NameOption.ofLong? : String → Option NameOption
  | "aggregate" => some aggregate
  | "guard" => some guard
  | _ => none

/-- What has been read so far. -/
structure Draft where
  paths : List String := []
  check : Bool := false
  print : Bool := false
  aggregate : Option String := none
  guard : Option String := none
  verbosity : Nat := 0
deriving DecidableEq

namespace Draft

/-- Takes a path; there are at most two. -/
def addPath (draft : Draft) (path : String) : Except Stop Draft :=
  if 2 ≤ draft.paths.length then .error (.unknownArgument path)
  else if path.isEmpty then .error .emptyPath
  else .ok { draft with paths := draft.paths ++ [path] }

/-- Takes a flag. -/
def addFlag (draft : Draft) : Flag → Except Stop Draft
  | .check =>
    if draft.check then .error (.repeated "--check") else .ok { draft with check := true }
  | .print =>
    if draft.print then .error (.repeated "--stdout") else .ok { draft with print := true }
  | .verbose => .ok { draft with verbosity := min 255 (draft.verbosity + 1) }
  | .help => .error .help
  | .version => .error .version

/-- Tests the name that an option sets. -/
def checkName (option value : String) (earlier : Option String) : Except Stop Unit :=
  if earlier.isSome then .error (.repeated option)
  else (Name.check value).mapError (.refusedName option value)

/-- Takes an option with its value. -/
def addName (draft : Draft) (value : String) : NameOption → Except Stop Draft
  | .aggregate => do
    checkName "--aggregate" value draft.aggregate
    return { draft with aggregate := some value }
  | .guard => do
    checkName "--guard" value draft.guard
    return { draft with guard := some value }

/-- Takes a cluster of short flags. -/
def addCluster (draft : Draft) : List Char → Except Stop Draft
  | [] => .ok draft
  | c :: cs =>
    match Flag.ofShort? c with
    | none => .error (.unknownArgument (String.ofList ['-', c]))
    | some flag => do (← draft.addFlag flag).addCluster cs

/-- Takes arguments that are all paths. -/
def addPaths (draft : Draft) : List String → Except Stop Draft
  | [] => .ok draft
  | path :: rest => do (← draft.addPath path).addPaths rest

/-- The invocation that the arguments describe. -/
def finish (draft : Draft) : Except Stop Invocation :=
  if draft.check && draft.print then .error .checkAndPrint
  else
    let defaults : Invocation := {}
    .ok { input := draft.paths[0]?.getD defaults.input
          output := draft.paths[1]?.getD defaults.output
          action := if draft.check then .check else if draft.print then .print else .write
          aggregate := draft.aggregate
          guard := draft.guard
          verbosity := draft.verbosity }

end Draft

/-- An argument by its form. -/
inductive Argument where
  /-- The argument `--`, after which there are only paths. -/
  | separator
  /-- A long flag or option, with the value after its equals sign. -/
  | long (name : String) (value : Option String)
  /-- A cluster of short flags. -/
  | cluster (flags : List Char)
  /-- Any other argument; a dash alone is one too. -/
  | path
deriving DecidableEq

/-- The form of an argument. -/
def Argument.ofText (text : String) : Argument :=
  match text.toList with
  | ['-', '-'] => .separator
  | '-' :: '-' :: rest =>
    let name := String.ofList (rest.takeWhile fun c => c != '=')
    match rest.dropWhile fun c => c != '=' with
    | [] => .long name none
    | _ :: value => .long name (some (String.ofList value))
  | '-' :: c :: cs => .cluster (c :: cs)
  | _ => .path

/-- Reads arguments from left to right. -/
def readAll (draft : Draft) : List String → Except Stop Draft
  | [] => .ok draft
  | text :: rest =>
    match Argument.ofText text with
    | .separator => draft.addPaths rest
    | .cluster flags => do readAll (← draft.addCluster flags) rest
    | .path => do readAll (← draft.addPath text) rest
    | .long name value =>
      match Flag.ofLong? name, NameOption.ofLong? name, value with
      | some _, _, some _ => .error (.unexpectedValue text)
      | some flag, _, none => do readAll (← draft.addFlag flag) rest
      | none, none, _ => .error (.unknownArgument text)
      | none, some option, some value => do readAll (← draft.addName value option) rest
      | none, some option, none =>
        match rest with
        | [] => .error (.missingValue text)
        | value :: others =>
          if Argument.ofText value = .path then do
            readAll (← draft.addName value option) others
          else .error (.missingValue text)

end CommandLine

namespace Invocation

/-- The invocation that the arguments of a program describe. -/
def ofArguments (arguments : List String) : Except Stop Invocation := do
  let draft ← CommandLine.readAll {} arguments
  draft.finish

/-- The settings of the header: its file name is that of the output, where the
output has one. -/
def settings (invocation : Invocation) : Settings :=
  let defaults : Settings := {}
  { fileName := (Path.fileName? invocation.output).getD defaults.fileName
    aggregate := invocation.aggregate.getD defaults.aggregate
    explicitGuard := invocation.guard }

/-- How much of the log is shown. -/
def level (invocation : Invocation) : Level :=
  match invocation.verbosity with
  | 0 => .warn
  | 1 => .info
  | _ => .debug

end Invocation

/-- What came of an invocation. -/
inductive Outcome where
  | written (summary : Summary)
  | printed (artifact : String)
  | current
  | stale
deriving DecidableEq

/-- The exit status for an outcome. -/
def Outcome.exitCode : Outcome → Nat
  | stale => 1
  | _ => 0

/-- Carries out an invocation.  The text that is to be printed is its outcome. -/
def Invocation.run {m : Type → Type} [Monad m] [Storage m] (invocation : Invocation) :
    Run m Outcome := do
  let job : Job := { settings := invocation.settings }
  match invocation.action with
  | .check =>
    let current ← job.isCurrent invocation.input invocation.output
    return if current then .current else .stale
  | .print =>
    let rendered ← job.renderFile invocation.input
    return .printed rendered.artifact
  | .write =>
    let summary ← job.update invocation.input invocation.output
    return .written summary

end RecordHeader
