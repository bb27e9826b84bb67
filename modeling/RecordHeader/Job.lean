import RecordHeader.Header
import RecordHeader.Run

set_option autoImplicit false

/-! # Jobs

A job turns definitions into a header under some settings and a type table.
It can render a text or a file, say whether a header file is up to date with
its definitions, and bring it up to date.

Every one of these is a run: it may fail, and it reports its stages and what it
does on the way.
-/

namespace RecordHeader

/-- A rendered header, with the number of its records and of their fields. -/
structure Rendered where
  artifact : String
  records : Nat
  fields : Nat
deriving DecidableEq

/-- What came of bringing a file up to date. -/
structure Summary where
  records : Nat
  fields : Nat
  /-- The length of the header in UTF-8. -/
  bytes : Nat
  /-- Whether the file already held the header. -/
  unchanged : Bool
deriving DecidableEq

/-- What is reported about definitions that were read. -/
def Schema.events (schema : Schema) : List Event :=
  let parsed := Event.parsed schema.size schema.fieldCount
  match schema.terminatedAt with
  | some line =>
    if 0 < schema.ignoredLines then [.ignoredLines schema.ignoredLines line, parsed]
    else [parsed]
  | none => [parsed]

/-- Settings and type table of a header. -/
structure Job where
  settings : Settings := {}
  table : TypeTable := .standard
deriving DecidableEq

namespace Job

variable {m : Type → Type} [Monad m]

/-- Judges a schema, its records first and then the name of the aggregate. -/
def judge (job : Job) (schema : Schema) : Except SchemaError Unit := do
  schema.validate
  schema.validateAggregate job.settings.aggregate

/-- The header of a schema. -/
def rendered (job : Job) (schema : Schema) : Rendered where
  artifact := Header.text job.settings schema
  records := schema.size
  fields := schema.fieldCount

/-- Renders a text as far as the stage of emitting. -/
def emit (job : Job) (text : String) : Run m Rendered := do
  let schema ← Run.ofExcept .definition (Schema.parse job.table text)
  Run.report schema.events
  Run.advance .validating
  Run.ofExcept .schema (job.judge schema)
  Run.advance .emitting
  return job.rendered schema

/-- Renders a text. -/
def render (job : Job) (text : String) : Run m Rendered := do
  let rendered ← job.emit text
  Run.advance .done
  return rendered

variable [Storage m]

/-- The text of a definition file. -/
def readText (path : String) : Run m String := do
  let bytes ← Run.ofExcept (fun fault => .file { path, fault }) (← Run.read path)
  match Text.ofUtf8? bytes with
  | some text => return text
  | none => throw (.file { path, fault := .invalidUtf8 })

/-- Whether the file at a path holds a text.  A missing file holds none. -/
def holds (path text : String) : Run m Bool := do
  match ← Run.read path with
  | .ok bytes => return bytes == Text.utf8 text
  | .error .notFound => return false
  | .error fault => throw (.file { path, fault })

/-- Replaces the file at a path by a text. -/
def store (path text : String) : Run m Unit := do
  let bytes := Text.utf8 text
  Run.ofExcept .file (← Run.replace path bytes)
  Run.report [.wrote bytes.length path]

/-- Makes the file at a path hold a text; says whether it did so already. -/
def refresh (path text : String) : Run m Bool := do
  if ← holds path text then
    Run.report [.upToDate path]
    return true
  else
    store path text
    return false

/-- Renders a definition file. -/
def renderFile (job : Job) (input : String) : Run m Rendered := do
  let text ← readText input
  job.render text

/-- Whether the file at `output` is up to date with the definitions at `input`. -/
def isCurrent (job : Job) (input output : String) : Run m Bool := do
  let text ← readText input
  let rendered ← job.emit text
  let current ← holds output rendered.artifact
  Run.advance .done
  return current

/-- Brings the file at `output` up to date with the definitions at `input`. -/
def update (job : Job) (input output : String) : Run m Summary := do
  let text ← readText input
  let rendered ← job.emit text
  Run.advance .writing
  let unchanged ← refresh output rendered.artifact
  Run.advance .done
  return { records := rendered.records
           fields := rendered.fields
           bytes := (Text.utf8 rendered.artifact).length
           unchanged }

end Job

end RecordHeader
