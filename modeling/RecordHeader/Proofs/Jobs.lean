import RecordHeader.Job
import RecordHeader.Proofs.Validation
import Mathlib.Tactic

set_option autoImplicit false

/-! # What the runs of a job come to

A job is written as runs, so that one text serves the files of a computer and the file systems
about which one reasons.  This file opens these runs once: on a file system, each is equal to a
plain function of the files, the texts and the progress.

* `Job.result` is what rendering a text comes to, and `Job.progressAt` how far the run has come
  when the header is ready or the definitions are refused.
* `Job.textAt` and `Job.held` are what the two looks at the files give.
* `on_readText`, `on_emit`, `on_holds`, `on_refresh`, `on_renderFile`, `on_isCurrent` and
  `on_update` are the equations.  Only `on_refresh`, and `on_update` through it, can change the
  files.
-/

namespace RecordHeader

/-! ## Building blocks of a run, in any monad -/

namespace Run

section Blocks

variable {m : Type → Type} [Monad m] {α ε : Type}

@[simp]
theorem run_report (events : List Event) (progress : Progress) :
    StateT.run (ExceptT.run (report events : Run m Unit)) progress
      = pure (.ok (), progress.report events) :=
  rfl

@[simp]
theorem run_advance (target : Stage) (progress : Progress) :
    StateT.run (ExceptT.run (advance target : Run m Unit)) progress
      = pure (.ok (), progress.advance target) :=
  rfl

@[simp]
theorem run_ofExcept (failure : ε → Failure) (result : Except ε α) (progress : Progress) :
    StateT.run (ExceptT.run (ofExcept failure result : Run m α)) progress
      = pure (result.mapError failure, progress) :=
  rfl

end Blocks

end Run

namespace Job

/-! ## Rendering a text -/

/-- What rendering a text comes to.  It needs no files, so it is carried out without any. -/
def result (job : Job) (text : String) : Except Failure Rendered :=
  (Id.run (Run.perform (job.render text))).1

/-- The progress when the header of a text is ready, or its definitions are refused. -/
def progressAt (job : Job) (text : String) (progress : Progress) : Progress :=
  match Schema.parse job.table text with
  | .error _ => progress
  | .ok schema =>
    let validating := (progress.report schema.events).advance .validating
    match job.judge schema with
    | .error _ => validating
    | .ok () => validating.advance .emitting

section Emit

variable {m : Type → Type} [Monad m] [LawfulMonad m] {job : Job} {text : String}

theorem run_emit_of_parse_error {error : LineError}
    (h : Schema.parse job.table text = .error error) (progress : Progress) :
    StateT.run (ExceptT.run (job.emit text : Run m Rendered)) progress
      = pure (.error (.definition error), job.progressAt text progress) := by
  simp [emit, progressAt, h, ExceptT.run_bind, Except.mapError]

theorem run_emit_of_judge_error {schema : Schema} {error : SchemaError}
    (h : Schema.parse job.table text = .ok schema) (hjudge : job.judge schema = .error error)
    (progress : Progress) :
    StateT.run (ExceptT.run (job.emit text : Run m Rendered)) progress
      = pure (.error (.schema error), job.progressAt text progress) := by
  simp [emit, progressAt, h, hjudge, ExceptT.run_bind, Except.mapError]

theorem run_emit_of_ok {schema : Schema} (h : Schema.parse job.table text = .ok schema)
    (hjudge : job.judge schema = .ok ()) (progress : Progress) :
    StateT.run (ExceptT.run (job.emit text : Run m Rendered)) progress
      = pure (.ok (job.rendered schema), job.progressAt text progress) := by
  simp [emit, progressAt, h, hjudge, ExceptT.run_bind, Except.mapError, Except.map]

end Emit

theorem result_of_parse_error {job : Job} {text : String} {error : LineError}
    (h : Schema.parse job.table text = .error error) :
    job.result text = .error (.definition error) := by
  have hemit := run_emit_of_parse_error (m := Id) h {}
  simp [result, Run.perform, render, ExceptT.run_bind, hemit]

theorem result_of_judge_error {job : Job} {text : String} {schema : Schema}
    {error : SchemaError} (h : Schema.parse job.table text = .ok schema)
    (hjudge : job.judge schema = .error error) :
    job.result text = .error (.schema error) := by
  have hemit := run_emit_of_judge_error (m := Id) h hjudge {}
  simp [result, Run.perform, render, ExceptT.run_bind, hemit]

theorem result_of_ok {job : Job} {text : String} {schema : Schema}
    (h : Schema.parse job.table text = .ok schema) (hjudge : job.judge schema = .ok ()) :
    job.result text = .ok (job.rendered schema) := by
  have hemit := run_emit_of_ok (m := Id) h hjudge {}
  simp [result, Run.perform, render, ExceptT.run_bind, hemit, Except.map]

/-- A schema passes when it is valid and no record has the name of the aggregate. -/
theorem judge_eq_ok_iff {job : Job} {schema : Schema} :
    job.judge schema = .ok () ↔
      schema.IsValid ∧ ∀ record ∈ schema.records, record.name ≠ job.settings.aggregate := by
  have haggregate : schema.validateAggregate job.settings.aggregate = .ok () ↔
      ∀ record ∈ schema.records, record.name ≠ job.settings.aggregate := by
    rw [← Record.find?_name_eq_none_iff, Schema.validateAggregate, Schema.record?]
    split
    · next hfind => simp [hfind]
    · next hfind => simp [hfind]
  rw [← haggregate, Schema.isValid_iff, ← Schema.validate_eq_ok_iff, judge]
  cases schema.validate with
  | error error => simp [bind, Except.bind]
  | ok => simp [bind, Except.bind]

/-- **Rendering succeeds on the texts that parse to a schema without issues**, and gives the
header of that schema. -/
theorem result_eq_ok_iff {job : Job} {text : String} {rendered : Rendered} :
    job.result text = .ok rendered ↔
      ∃ schema, Schema.parse job.table text = .ok schema ∧ job.judge schema = .ok () ∧
        rendered = job.rendered schema := by
  constructor
  · intro h
    cases hparse : Schema.parse job.table text with
    | error error => rw [result_of_parse_error hparse] at h; cases h
    | ok schema =>
        cases hjudge : job.judge schema with
        | error error => rw [result_of_judge_error hparse hjudge] at h; cases h
        | ok _ =>
            rw [result_of_ok hparse hjudge] at h
            exact ⟨schema, rfl, hjudge, (Except.ok.inj h).symm⟩
  · rintro ⟨schema, hparse, hjudge, rfl⟩
    exact result_of_ok hparse hjudge

/-- Rendering on a file system gives the same result, and leaves the files alone. -/
theorem on_emit (job : Job) (text : String) (progress : Progress) (files : FileSystem) :
    Run.on (job.emit text) progress files
      = ((job.result text, job.progressAt text progress), files) := by
  unfold Run.on
  cases hparse : Schema.parse job.table text with
  | error error => rw [run_emit_of_parse_error hparse, result_of_parse_error hparse]; rfl
  | ok schema =>
      cases hjudge : job.judge schema with
      | error error =>
          rw [run_emit_of_judge_error hparse hjudge, result_of_judge_error hparse hjudge]; rfl
      | ok _ => rw [run_emit_of_ok hparse hjudge, result_of_ok hparse hjudge]; rfl

/-! ## Looking at the files -/

/-- The text of the definition file at a path. -/
def textAt (files : FileSystem) (path : String) : Except Failure String :=
  match files.read path with
  | .error fault => .error (.file { path, fault })
  | .ok bytes =>
    match Text.ofUtf8? bytes with
    | some text => .ok text
    | none => .error (.file { path, fault := .invalidUtf8 })

/-- Whether the file at a path holds a text, where that can be told. -/
def held (files : FileSystem) (path text : String) : Except Failure Bool :=
  match files.read path with
  | .ok bytes => .ok (bytes == Text.utf8 text)
  | .error .notFound => .ok false
  | .error fault => .error (.file { path, fault })

theorem on_readText (path : String) (progress : Progress) (files : FileSystem) :
    Run.on (readText path) progress files = ((textAt files path, progress), files) := by
  unfold readText textAt
  cases hread : files.read path with
  | error fault => simp [hread, Except.mapError]
  | ok bytes =>
      cases htext : Text.ofUtf8? bytes with
      | none => simp [hread, Except.mapError, htext]
      | some text => simp [hread, Except.mapError, htext]

theorem on_holds (path text : String) (progress : Progress) (files : FileSystem) :
    Run.on (holds path text) progress files = ((held files path text, progress), files) := by
  unfold holds held
  cases hread : files.read path with
  | ok bytes => simp [hread]
  | error fault => cases fault <;> simp [hread]

/-! ## Jobs on files -/

/-- Refreshing changes the files only where they do not hold the text yet. -/
theorem on_refresh (path text : String) (progress : Progress) (files : FileSystem) :
    Run.on (refresh path text) progress files =
      match held files path text with
      | .error failure => ((.error failure, progress), files)
      | .ok true => ((.ok true, progress.report [.upToDate path]), files)
      | .ok false =>
        match files.replace path (Text.utf8 text) with
        | (.error error, after) => ((.error (.file error), progress), after)
        | (.ok (), after) =>
          ((.ok false, progress.report [.wrote (Text.utf8 text).length path]), after) := by
  unfold refresh store
  cases hheld : held files path text with
  | error failure => simp only [Run.on_bind, on_holds, hheld]
  | ok current =>
      simp only [Run.on_bind, on_holds, hheld]
      cases current with
      | true => rfl
      | false =>
          simp only [Bool.false_eq_true, if_false, Run.on_bind, Run.on_replace, Run.on_ofExcept]
          rcases files.replace path (Text.utf8 text) with ⟨answer, after⟩
          cases answer <;> rfl

theorem on_renderFile (job : Job) (input : String) (progress : Progress)
    (files : FileSystem) :
    Run.on (job.renderFile input) progress files =
      match textAt files input with
      | .error failure => ((.error failure, progress), files)
      | .ok text =>
        match job.result text with
        | .error failure => ((.error failure, job.progressAt text progress), files)
        | .ok rendered =>
          ((.ok rendered, (job.progressAt text progress).advance .done), files) := by
  unfold renderFile render
  cases htext : textAt files input with
  | error failure => simp only [Run.on_bind, on_readText, htext]
  | ok text =>
      simp only [Run.on_bind, on_readText, htext, on_emit]
      cases job.result text <;> rfl

theorem on_isCurrent (job : Job) (input output : String) (progress : Progress)
    (files : FileSystem) :
    Run.on (job.isCurrent input output) progress files =
      match textAt files input with
      | .error failure => ((.error failure, progress), files)
      | .ok text =>
        match job.result text with
        | .error failure => ((.error failure, job.progressAt text progress), files)
        | .ok rendered =>
          match held files output rendered.artifact with
          | .error failure => ((.error failure, job.progressAt text progress), files)
          | .ok current =>
            ((.ok current, (job.progressAt text progress).advance .done), files) := by
  unfold isCurrent
  cases htext : textAt files input with
  | error failure => simp only [Run.on_bind, on_readText, htext]
  | ok text =>
      simp only [Run.on_bind, on_readText, htext, on_emit]
      cases job.result text with
      | error failure => rfl
      | ok rendered =>
          simp only [on_holds]
          cases held files output rendered.artifact <;> rfl

/-- The summary of bringing a file up to date with a rendered header. -/
def summary (rendered : Rendered) (unchanged : Bool) : Summary where
  records := rendered.records
  fields := rendered.fields
  bytes := (Text.utf8 rendered.artifact).length
  unchanged := unchanged

theorem on_update (job : Job) (input output : String) (progress : Progress)
    (files : FileSystem) :
    Run.on (job.update input output) progress files =
      match textAt files input with
      | .error failure => ((.error failure, progress), files)
      | .ok text =>
        match job.result text with
        | .error failure => ((.error failure, job.progressAt text progress), files)
        | .ok rendered =>
          match Run.on (refresh output rendered.artifact)
              ((job.progressAt text progress).advance .writing) files with
          | ((.error failure, reached), after) => ((.error failure, reached), after)
          | ((.ok unchanged, reached), after) =>
            ((.ok (summary rendered unchanged), reached.advance .done), after) := by
  unfold update
  cases htext : textAt files input with
  | error failure => simp only [Run.on_bind, on_readText, htext]
  | ok text =>
      simp only [Run.on_bind, on_readText, htext, on_emit]
      cases job.result text with
      | error failure => rfl
      | ok rendered =>
          simp only [Run.on_advance]
          rcases Run.on (refresh output rendered.artifact)
            ((job.progressAt text progress).advance .writing) files with ⟨⟨answer, reached⟩, after⟩
          cases answer <;> rfl

/-! ## What is said of a file that already holds the header -/

/-- A file that is found up to date is what an update leaves unchanged. -/
theorem update_unchanged_iff (job : Job) (input output : String) (progress progress' : Progress)
    (files : FileSystem) :
    (∃ summary, (Run.on (job.update input output) progress files).1.1 = .ok summary ∧
      summary.unchanged = true) ↔
    (Run.on (job.isCurrent input output) progress' files).1.1 = .ok true := by
  rw [on_update, on_isCurrent]
  cases textAt files input with
  | error failure => simp
  | ok text =>
      dsimp only
      cases job.result text with
      | error failure => simp
      | ok rendered =>
          simp only [on_refresh]
          cases held files output rendered.artifact with
          | error failure => simp
          | ok current =>
              cases current with
              | true => simp [summary]
              | false =>
                  dsimp only
                  rcases files.replace output (Text.utf8 rendered.artifact) with ⟨answer, after⟩
                  cases answer <;> simp [summary]

/-- The answer on a file that can be read compares its bytes with those of the header. -/
theorem isCurrent_of_read {job : Job} {input output text : String} {rendered : Rendered}
    {bytes : Bytes} {files : FileSystem} (hinput : files.read input = .ok (Text.utf8 text))
    (hresult : job.result text = .ok rendered) (houtput : files.read output = .ok bytes)
    (progress : Progress) :
    (Run.on (job.isCurrent input output) progress files).1.1
      = .ok (decide (bytes = Text.utf8 rendered.artifact)) := by
  have htext : textAt files input = .ok text := by
    rw [textAt, hinput]
    simp
  have hheld : held files output rendered.artifact
      = .ok (decide (bytes = Text.utf8 rendered.artifact)) := by
    rw [held, houtput]
    exact congrArg Except.ok (beq_eq_decide bytes _)
  rw [on_isCurrent, htext]
  simp only [hresult, hheld]

end Job

end RecordHeader
