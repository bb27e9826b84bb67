import RecordHeader.CommandLine
import RecordHeader.Proofs.Jobs
import RecordHeader.Proofs.Replacing
import Mathlib.Tactic

set_option autoImplicit false

/-! # What a run does to the files

The only step that touches files is the one that refreshes the header, and it does so by one
replacement.  `refresh_cases` and `update_cases` say what such a run can come to: a failure, a
header that was up to date, or one new file.  The first two leave all files as they were.

`run_effect` says this of every invocation.
-/

namespace RecordHeader

namespace Job

/-! ## Runs that only look -/

theorem files_renderFile (job : Job) (input : String) (progress : Progress) (files : FileSystem) :
    (Run.on (job.renderFile input) progress files).2 = files := by
  rw [on_renderFile]
  cases textAt files input with
  | error failure => rfl
  | ok text =>
      dsimp only
      cases job.result text <;> rfl

theorem files_isCurrent (job : Job) (input output : String) (progress : Progress)
    (files : FileSystem) : (Run.on (job.isCurrent input output) progress files).2 = files := by
  rw [on_isCurrent]
  cases textAt files input with
  | error failure => rfl
  | ok text =>
      dsimp only
      cases job.result text with
      | error failure => rfl
      | ok rendered =>
          dsimp only
          cases held files output rendered.artifact <;> rfl

theorem renderFile_of_result {job : Job} {input text : String} {rendered : Rendered}
    {files : FileSystem} (htext : textAt files input = .ok text)
    (hresult : job.result text = .ok rendered) (progress : Progress) :
    (Run.on (job.renderFile input) progress files).1.1 = .ok rendered := by
  rw [on_renderFile, htext]
  simp only [hresult]

/-! ## Runs that write -/

theorem read_of_held {files : FileSystem} {path text : String}
    (h : held files path text = .ok true) : files.read path = .ok (Text.utf8 text) := by
  unfold held at h
  cases hread : files.read path with
  | ok bytes =>
      rw [hread] at h
      obtain rfl : bytes = Text.utf8 text := by simpa using h
      rfl
  | error fault =>
      rw [hread] at h
      cases fault <;> simp at h

/-- What a refresh can come to. -/
theorem refresh_cases (path text : String) (progress : Progress) (files : FileSystem) :
    (∃ failure reached, Run.on (refresh path text) progress files
      = ((.error failure, reached), files)) ∨
    (∃ reached, Run.on (refresh path text) progress files = ((.ok true, reached), files) ∧
      files.read path = .ok (Text.utf8 text)) ∨
    ∃ target mode reached, files.destination path = .ok target ∧
      files.modeOrNew path = .ok mode ∧
      Run.on (refresh path text) progress files
        = ((.ok false, reached), files.put target (.file mode (Text.utf8 text))) := by
  rw [on_refresh]
  cases hheld : held files path text with
  | error failure => exact Or.inl ⟨failure, progress, rfl⟩
  | ok current =>
      cases current with
      | true => exact Or.inr (Or.inl ⟨_, rfl, read_of_held hheld⟩)
      | false =>
          rcases files.replace_cases path (Text.utf8 text) with
            ⟨error, hreplace⟩ | ⟨target, mode, htarget, hmode, hreplace⟩
          · exact Or.inl ⟨.file error, progress, by simp only [hreplace]⟩
          · exact Or.inr (Or.inr ⟨target, mode, _, htarget, hmode, by simp only [hreplace]; rfl⟩)

/-- What an update can come to. -/
theorem update_cases (job : Job) (input output : String) (progress : Progress)
    (files : FileSystem) :
    (∃ failure reached, Run.on (job.update input output) progress files
      = ((.error failure, reached), files)) ∨
    ∃ text rendered, textAt files input = .ok text ∧ job.result text = .ok rendered ∧
      ((∃ reached, Run.on (job.update input output) progress files
          = ((.ok (summary rendered true), reached), files) ∧
        files.read output = .ok (Text.utf8 rendered.artifact)) ∨
      ∃ target mode reached, files.destination output = .ok target ∧
        files.modeOrNew output = .ok mode ∧
        Run.on (job.update input output) progress files
          = ((.ok (summary rendered false), reached),
            files.put target (.file mode (Text.utf8 rendered.artifact)))) := by
  rw [on_update]
  cases htext : textAt files input with
  | error failure => exact Or.inl ⟨failure, progress, rfl⟩
  | ok text =>
      dsimp only
      cases hresult : job.result text with
      | error failure => exact Or.inl ⟨failure, _, rfl⟩
      | ok rendered =>
          dsimp only
          rcases refresh_cases output rendered.artifact
              ((job.progressAt text progress).advance .writing) files with
            ⟨failure, reached, hrefresh⟩ | ⟨reached, hrefresh, hread⟩ |
            ⟨target, mode, reached, htarget, hmode, hrefresh⟩
          · rw [hrefresh]
            exact Or.inl ⟨failure, reached, rfl⟩
          · rw [hrefresh]
            exact Or.inr ⟨text, rendered, rfl, hresult, Or.inl ⟨_, rfl, hread⟩⟩
          · rw [hrefresh]
            exact Or.inr ⟨text, rendered, rfl, hresult,
              Or.inr ⟨target, mode, _, htarget, hmode, rfl⟩⟩

end Job

/-! ## Invocations -/

theorem exists_of_map_ok {ε α β : Type} {answer : Except ε α} {f : α → β} {result : β}
    (h : answer.map f = .ok result) : ∃ value, answer = .ok value ∧ f value = result := by
  cases answer with
  | error failure => cases h
  | ok value => exact ⟨value, rfl, Except.ok.inj h⟩

theorem Run.on_bind_pure {α β : Type} (run : Run (StateM FileSystem) α) (f : α → β)
    (progress : Progress) (files : FileSystem) :
    Run.on (run >>= fun value => pure (f value)) progress files =
      (((Run.on run progress files).1.1.map f, (Run.on run progress files).1.2),
        (Run.on run progress files).2) := by
  rw [Run.on_bind]
  rcases Run.on run progress files with ⟨⟨answer, reached⟩, after⟩
  cases answer <;> rfl

/-- The action that an outcome answers. -/
def Outcome.action : Outcome → Action
  | written _ => .write
  | printed _ => .print
  | current => .check
  | stale => .check

theorem Outcome.eq_written_of_action {outcome : Outcome} (h : outcome.action = .write) :
    ∃ summary, outcome = .written summary := by
  cases outcome with
  | written summary => exact ⟨summary, rfl⟩
  | printed artifact => cases h
  | current => cases h
  | stale => cases h

namespace Invocation

/-- The job that an invocation carries out. -/
def job (invocation : Invocation) : Job :=
  { settings := invocation.settings }

theorem on_run_check {invocation : Invocation} (h : invocation.action = .check)
    (progress : Progress) (files : FileSystem) :
    Run.on invocation.run progress files =
      let answer := Run.on (invocation.job.isCurrent invocation.input invocation.output)
        progress files
      ((answer.1.1.map fun current => if current then .current else .stale, answer.1.2),
        answer.2) := by
  unfold run
  rw [h]
  exact Run.on_bind_pure _ _ progress files

theorem on_run_print {invocation : Invocation} (h : invocation.action = .print)
    (progress : Progress) (files : FileSystem) :
    Run.on invocation.run progress files =
      let answer := Run.on (invocation.job.renderFile invocation.input) progress files
      ((answer.1.1.map fun rendered => .printed rendered.artifact, answer.1.2), answer.2) := by
  unfold run
  rw [h]
  exact Run.on_bind_pure _ _ progress files

theorem on_run_write {invocation : Invocation} (h : invocation.action = .write)
    (progress : Progress) (files : FileSystem) :
    Run.on invocation.run progress files =
      let answer := Run.on (invocation.job.update invocation.input invocation.output)
        progress files
      ((answer.1.1.map .written, answer.1.2), answer.2) := by
  unfold run
  rw [h]
  exact Run.on_bind_pure _ _ progress files

/-- Checking and printing leave the files alone. -/
theorem files_run_of_ne_write {invocation : Invocation} (h : invocation.action ≠ .write)
    (progress : Progress) (files : FileSystem) :
    (Run.on invocation.run progress files).2 = files := by
  cases haction : invocation.action with
  | write => exact absurd haction h
  | check =>
      rw [on_run_check haction]
      exact Job.files_isCurrent _ _ _ progress files
  | print =>
      rw [on_run_print haction]
      exact Job.files_renderFile _ _ progress files

/-- A failure leaves the files alone. -/
theorem files_run_of_error {invocation : Invocation} {progress : Progress} {files : FileSystem}
    {failure : Failure} (h : (Run.on invocation.run progress files).1.1 = .error failure) :
    (Run.on invocation.run progress files).2 = files := by
  by_cases haction : invocation.action = .write
  · rw [on_run_write haction] at h ⊢
    rcases invocation.job.update_cases invocation.input invocation.output progress files with
      ⟨_, reached, hupdate⟩ | ⟨_, rendered, -, -, hcases⟩
    · rw [hupdate]
    · -- an update that gives a summary has not failed
      rcases hcases with ⟨reached, hupdate, -⟩ | ⟨target, mode, reached, -, -, hupdate⟩ <;>
        simp [hupdate, Except.map] at h
  · exact files_run_of_ne_write haction progress files

/-- What a run comes to tells what was asked for. -/
theorem action_of_ok {invocation : Invocation} {progress : Progress} {files : FileSystem}
    {outcome : Outcome} (h : (Run.on invocation.run progress files).1.1 = .ok outcome) :
    invocation.action = outcome.action := by
  cases haction : invocation.action with
  | write =>
      rw [on_run_write haction] at h
      obtain ⟨summary, -, rfl⟩ := exists_of_map_ok h
      rfl
  | check =>
      rw [on_run_check haction] at h
      obtain ⟨current, -, rfl⟩ := exists_of_map_ok h
      cases current <;> rfl
  | print =>
      rw [on_run_print haction] at h
      obtain ⟨rendered, -, rfl⟩ := exists_of_map_ok h
      rfl

/-- Where a header is written, it is that of the input.  The files held it already, or they now
hold it as one new file. -/
theorem written_cases {invocation : Invocation} {progress : Progress} {files : FileSystem}
    {summary : Summary}
    (h : (Run.on invocation.run progress files).1.1 = .ok (.written summary)) :
    ∃ rendered, (Run.on (invocation.job.renderFile invocation.input) {} files).1.1 = .ok rendered ∧
      ((summary = Job.summary rendered true ∧
        files.read invocation.output = .ok (Text.utf8 rendered.artifact) ∧
        (Run.on invocation.run progress files).2 = files) ∨
      (summary = Job.summary rendered false ∧
        ∃ target mode, files.destination invocation.output = .ok target ∧
          files.modeOrNew invocation.output = .ok mode ∧
          (Run.on invocation.run progress files).2
            = files.put target (.file mode (Text.utf8 rendered.artifact)))) := by
  have haction : invocation.action = .write := action_of_ok h
  rw [on_run_write haction] at h ⊢
  rcases invocation.job.update_cases invocation.input invocation.output progress files with
    ⟨failure, reached, hupdate⟩ | ⟨text, rendered, htext, hresult, hcases⟩
  · simp [hupdate, Except.map] at h
  · refine ⟨rendered, Job.renderFile_of_result htext hresult {}, ?_⟩
    rcases hcases with ⟨reached, hupdate, hread⟩ | ⟨target, mode, reached, htarget, hmode, hupdate⟩
    · rw [hupdate] at h ⊢
      obtain rfl : Job.summary rendered true = summary := by simpa [Except.map] using h
      exact Or.inl ⟨rfl, hread, rfl⟩
    · rw [hupdate] at h ⊢
      obtain rfl : Job.summary rendered false = summary := by simpa [Except.map] using h
      exact Or.inr ⟨rfl, target, mode, htarget, hmode, rfl⟩

/-- **A run that fails or only looks leaves the files exactly as they were, and one that writes
sets one entry.** This holds for all files and every invocation.  A run that reports an unchanged
header has found the header of its input there; one that reports a new header has put it, as a
regular file with the mode of the file before it, at the place that the output path names, and
all other places hold what they held.  Directories are assumed to be open to their owner, which no
run changes (`isOpen_run_iff`). -/
theorem run_effect (invocation : Invocation) (files : FileSystem) :
    let outcome := Run.on invocation.run {} files
    (∀ failure, outcome.1.1 = .error failure → outcome.2 = files) ∧
    (invocation.action ≠ .write → outcome.2 = files) ∧
    ∀ summary, outcome.1.1 = .ok (.written summary) →
      ∃ rendered,
        (Run.on (Job.renderFile { settings := invocation.settings } invocation.input) {} files).1.1
          = .ok rendered ∧
        (summary.unchanged = true →
          files.read invocation.output = .ok (Text.utf8 rendered.artifact) ∧
          outcome.2 = files) ∧
        (summary.unchanged = false →
          ∃ location mode, files.slot invocation.output = .ok location ∧
            files.modeOrNew invocation.output = .ok mode ∧
            outcome.2.lookup location = some (.file mode (Text.utf8 rendered.artifact)) ∧
            (∀ other, other ≠ location → outcome.2.lookup other = files.lookup other) ∧
            outcome.2.workingDirectory = files.workingDirectory) := by
  intro outcome
  refine ⟨fun failure h => files_run_of_error h, fun h => files_run_of_ne_write h {} files, ?_⟩
  intro summary h
  obtain ⟨rendered, hrender, hcases⟩ := written_cases h
  refine ⟨rendered, hrender, ?_⟩
  rcases hcases with ⟨rfl, hread, hafter⟩ | ⟨rfl, target, mode, htarget, hmode, hafter⟩
  · exact ⟨fun _ => ⟨hread, hafter⟩, fun hfalse => by simp [Job.summary] at hfalse⟩
  · refine ⟨fun htrue => by simp [Job.summary] at htrue, fun _ => ?_⟩
    have hafter' : outcome.2 = files.put target (.file mode (Text.utf8 rendered.artifact)) := hafter
    refine ⟨target, mode, FileSystem.slot_of_destination htarget, hmode, ?_, ?_, ?_⟩
    · rw [hafter', FileSystem.lookup_put, if_pos rfl]
    · intro other hother
      rw [hafter', FileSystem.lookup_put, if_neg hother.symm]
    · rw [hafter']
      rfl

/-- A working directory that holds definitions with one record, and no header. -/
def definitionsAlone : FileSystem :=
  FileSystem.fresh.put ["home", "developer", "a.def"] (.file .file (Text.utf8 "A x:int"))

theorem replace_definitionsAlone (bytes : Bytes) :
    definitionsAlone.replace "a.hpp" bytes
      = (.ok (), definitionsAlone.put ["home", "developer", "a.hpp"] (.file .file bytes)) := by
  have htemporary : definitionsAlone.temporaryLocation "a.hpp"
      = .ok (["home", "developer"] ++ [definitionsAlone.temporaryName "a.hpp"]) := by
    decide +kernel
  have hmode : definitionsAlone.modeOrNew "a.hpp" = .ok .file := rfl
  have htarget : definitionsAlone.destination "a.hpp" = .ok ["home", "developer", "a.hpp"] := rfl
  rw [FileSystem.replace_eq, htemporary, hmode, htarget]

/-- A run that creates the header beside its definitions. -/
theorem run_effect_new_header :
    ∃ (summary : Summary) (rendered : Rendered) (mode : Mode),
      (Run.on (run { input := "a.def", output := "a.hpp" }) {} definitionsAlone).1.1
        = .ok (.written summary) ∧
      definitionsAlone.lookup ["home", "developer", "a.hpp"] = none ∧
      (Run.on (run { input := "a.def", output := "a.hpp" }) {} definitionsAlone).2.lookup
          ["home", "developer", "a.hpp"]
        = some (.file mode (Text.utf8 rendered.artifact)) := by
  have htext : Job.textAt definitionsAlone "a.def" = .ok "A x:int" := by
    have hread : definitionsAlone.read "a.def" = .ok (Text.utf8 "A x:int") := rfl
    rw [Job.textAt, hread]
    simp
  have hheld : ∀ text, Job.held definitionsAlone "a.hpp" text = .ok false := fun _ => rfl
  obtain ⟨rendered, hresult⟩ : ∃ rendered,
      (job { input := "a.def", output := "a.hpp" }).result "A x:int" = .ok rendered :=
    ⟨_, Job.result_of_ok rfl rfl⟩
  have hwritten : (Run.on (run { input := "a.def", output := "a.hpp" }) {} definitionsAlone).1.1
      = .ok (.written (Job.summary rendered false)) := by
    rw [on_run_write rfl, Job.on_update]
    simp only [htext, hresult, Job.on_refresh, hheld, replace_definitionsAlone]
    rfl
  obtain ⟨rendered, -, -, hnew⟩ := (run_effect _ _).2.2 _ hwritten
  obtain ⟨location, mode, hslot, -, hlookup, -⟩ := hnew rfl
  obtain rfl : ["home", "developer", "a.hpp"] = location := Except.ok.inj hslot
  exact ⟨_, rendered, mode, hwritten, rfl, hlookup⟩

end Invocation

end RecordHeader
