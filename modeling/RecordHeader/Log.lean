import RecordHeader.Text.Escape

set_option autoImplicit false

/-! # Stages and events of a run

A run goes through the stages in their order and reports what it does as
events.  Each event has a level, and a log shows the events at its own level
and at the more severe ones.
-/

namespace RecordHeader

/-- The stages of a run, in their order. -/
inductive Stage where
  | parsing
  | validating
  | emitting
  | writing
  | done
deriving DecidableEq

namespace Stage

/-- The place of a stage in the order. -/
def rank : Stage → Nat
  | parsing => 0
  | validating => 1
  | emitting => 2
  | writing => 3
  | done => 4

/-- Stages are ordered as a run goes through them. -/
instance : LT Stage :=
  ⟨fun a b => a.rank < b.rank⟩

instance (a b : Stage) : Decidable (a < b) :=
  inferInstanceAs (Decidable (a.rank < b.rank))

/-- The name of a stage. -/
def name : Stage → String
  | parsing => "parsing"
  | validating => "validating"
  | emitting => "emitting"
  | writing => "writing"
  | done => "done"

/-- For each stage of a row but the last, whether it comes before the next one. -/
def rises : List Stage → List Bool
  | a :: b :: rest => decide (a < b) :: rises (b :: rest)
  | _ => []

/-- A row of stages in the order of the stages. -/
def sorted (stages : List Stage) : List Stage :=
  stages.mergeSort fun a b => a.rank ≤ b.rank

end Stage

/-- How much a log shows. -/
inductive Level where
  | off
  | error
  | warn
  | info
  | debug
  | trace
deriving DecidableEq

namespace Level

/-- The levels from few events to many. -/
def all : List Level :=
  [off, error, warn, info, debug, trace]

/-- The place of a level among all. -/
def rank : Level → Nat
  | off => 0
  | error => 1
  | warn => 2
  | info => 3
  | debug => 4
  | trace => 5

/-- The name of a level. -/
def name : Level → String
  | off => "off"
  | error => "error"
  | warn => "warn"
  | info => "info"
  | debug => "debug"
  | trace => "trace"

/-- The level with a name, in whichever case, or with a number. -/
def ofText? (text : String) : Option Level :=
  all.find? fun level => level.name == text.toLower || toString level.rank == text

/-- The label of an event in a log line. -/
def label : Level → String
  | off => "OFF"
  | error => "ERROR"
  | warn => "WARN"
  | info => "INFO"
  | debug => "DEBUG"
  | trace => "TRACE"

end Level

/-- What a run reports. -/
inductive Event where
  /-- Lines that are not blank follow the blank line that ended the definitions. -/
  | ignoredLines (count blankLine : Nat)
  /-- The definitions were read. -/
  | parsed (records fields : Nat)
  /-- The run went from one stage to the next. -/
  | advanced (source target : Stage)
  /-- The file at a path already holds the header. -/
  | upToDate (path : String)
  /-- The file at a path was replaced. -/
  | wrote (bytes : Nat) (path : String)
  /-- The program is done with writing a header. -/
  | generated (records fields : Nat)
deriving DecidableEq

namespace Event

/-- The level of an event. -/
def level : Event → Level
  | ignoredLines .. => .warn
  | parsed .. | advanced .. => .debug
  | upToDate .. | wrote .. | generated .. => .info

/-- The part of the program that reports an event. -/
def source : Event → String
  | ignoredLines .. | parsed .. => "skinsgen_schema::parser"
  | advanced .. | upToDate .. => "skinsgen_codegen::pipeline"
  | wrote .. => "skinsgen_codegen::writer"
  | generated .. => "skinsgen"

/-- What an event says. -/
def message : Event → String
  | ignoredLines count blankLine =>
    s!"Ignoring {count} line(s) after the blank line at line {blankLine}"
  | parsed records fields => s!"Parsed {records} record(s) with {fields} field(s)"
  | advanced source target => s!"Pipeline stage {source.name} -> {target.name}"
  | upToDate path => s!"{path} is up to date"
  | wrote bytes path => s!"Wrote {bytes} bytes to {path}"
  | generated records fields => s!"Generated {records} record(s), {fields} field(s)"

/-- The line of an event in a log. -/
def line (event : Event) : String :=
  event.level.label ++ " " ++ event.source ++ ": " ++ Text.escape event.message ++ "\n"

end Event

/-- The events that a log shows at a level. -/
def Level.shown (level : Level) (events : List Event) : List Event :=
  events.filter fun event => event.level.rank ≤ level.rank

/-- The text of a log at a level. -/
def Level.log (level : Level) (events : List Event) : String :=
  String.join ((level.shown events).map Event.line)

end RecordHeader
