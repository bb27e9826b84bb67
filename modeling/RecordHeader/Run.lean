import RecordHeader.Log
import RecordHeader.Storage

set_option autoImplicit false

/-! # Runs

A run may fail, works on files through `Storage`, and reports its stages and
what it does as events, also when it fails.

`Run.perform` carries a run out wherever there is storage.  `Run.on` is the
view of a run on the file systems of `FileSystem.Basic`: a function from the
files before to the result, the progress and the files after.  The lemmas of
this file say what each building block of a run does in that view.
-/

namespace RecordHeader

/-- How far a run has come, and what it has reported so far. -/
structure Progress where
  stage : Stage := .parsing
  events : List Event := []

/-- The progress after reporting events. -/
def Progress.report (progress : Progress) (events : List Event) : Progress :=
  { progress with events := progress.events ++ events }

/-- The progress after going on to a stage. -/
def Progress.advance (progress : Progress) (target : Stage) : Progress :=
  { stage := target, events := progress.events ++ [.advanced progress.stage target] }

/-- A computation that can fail and that reports its progress. -/
abbrev Run (m : Type → Type) (α : Type) : Type :=
  ExceptT Failure (StateT Progress m) α

namespace Run

section Blocks

variable {m : Type → Type} [Monad m] {α ε : Type}

/-- Reports events. -/
def report (events : List Event) : Run m Unit :=
  ExceptT.mk fun progress => pure (.ok (), progress.report events)

/-- Goes on to a stage and reports it. -/
def advance (target : Stage) : Run m Unit :=
  ExceptT.mk fun progress => pure (.ok (), progress.advance target)

/-- Goes on with a result, or fails for the reason that it gives. -/
def ofExcept (failure : ε → Failure) (result : Except ε α) : Run m α :=
  ExceptT.mk fun progress => pure (result.mapError failure, progress)

/-- The bytes of a file, or the fault that kept them from being read. -/
def read [Storage m] (path : String) : Run m (Except Fault Bytes) :=
  liftM (Storage.read path : m (Except Fault Bytes))

/-- Replaces a file; the result says whether that worked. -/
def replace [Storage m] (path : String) (bytes : Bytes) : Run m (Except FileError Unit) :=
  liftM (Storage.replace path bytes : m (Except FileError Unit))

/-- Carries out a run from its start; gives its result and all that it reported. -/
def perform (run : Run m α) : m (Except Failure α × List Event) := do
  let (result, progress) ← run.run.run {}
  return (result, progress.events)

end Blocks

/-! ## Runs on a file system -/

variable {α β ε : Type}

/-- What a run does from some progress on some files. -/
def on (run : Run (StateM FileSystem) α) (progress : Progress) (files : FileSystem) :
    (Except Failure α × Progress) × FileSystem :=
  (run.run.run progress).run files

@[simp]
theorem on_pure (value : α) (progress : Progress) (files : FileSystem) :
    on (pure value) progress files = ((.ok value, progress), files) :=
  rfl

@[simp]
theorem on_throw (failure : Failure) (progress : Progress) (files : FileSystem) :
    on (throw failure : Run (StateM FileSystem) α) progress files =
      ((.error failure, progress), files) :=
  rfl

/-- A run goes on from where the one before it ended, unless that one failed. -/
@[simp]
theorem on_bind (first : Run (StateM FileSystem) α) (next : α → Run (StateM FileSystem) β)
    (progress : Progress) (files : FileSystem) :
    on (first >>= next) progress files =
      match on first progress files with
      | ((.ok value, after), left) => on (next value) after left
      | ((.error failure, after), left) => ((.error failure, after), left) := by
  simp only [on, ExceptT.run_bind, StateT.run_bind]
  cases h : (first.run.run progress).run files with
  | mk performed left =>
    obtain ⟨result, after⟩ := performed
    cases result with
    | ok value => rfl
    | error failure => rfl

@[simp]
theorem on_report (events : List Event) (progress : Progress) (files : FileSystem) :
    on (report events) progress files = ((.ok (), progress.report events), files) :=
  rfl

@[simp]
theorem on_advance (target : Stage) (progress : Progress) (files : FileSystem) :
    on (advance target) progress files = ((.ok (), progress.advance target), files) :=
  rfl

@[simp]
theorem on_ofExcept (failure : ε → Failure) (result : Except ε α) (progress : Progress)
    (files : FileSystem) :
    on (ofExcept failure result) progress files = ((result.mapError failure, progress), files) :=
  rfl

@[simp]
theorem on_read (path : String) (progress : Progress) (files : FileSystem) :
    on (read path) progress files = ((.ok (files.read path), progress), files) :=
  rfl

@[simp]
theorem on_replace (path : String) (bytes : Bytes) (progress : Progress) (files : FileSystem) :
    on (replace path bytes) progress files =
      ((.ok (files.replace path bytes).1, progress), (files.replace path bytes).2) := by
  unfold on replace
  rfl

end Run

end RecordHeader
