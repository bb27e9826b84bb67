import RecordHeader.Program
import RecordHeader.Proofs.Agreement
import RecordHeader.Proofs.Delivery
import Mathlib.Tactic

set_option autoImplicit false

/-! # What the exit status says

The program ends with one of four statuses when its arguments describe an invocation.  Each of them
stands for a condition on the files, the invocation and standard output:

* 65: the input holds a text that is refused (`Invocation.IsRefused`);
* 1: a check finds that the output is not the header of the input (`Invocation.IsStale`);
* 0: what was asked for has been done (`Invocation.IsDone`);
* 74: none of these.

`code_of_isRefused`, `code_of_isStale`, `code_of_isDone` and `code_otherwise` go from the conditions
to the statuses.  Since the statuses differ, the conditions exclude each other, and each status says
which of them holds (`run_exit_exact`).
-/

namespace RecordHeader

/-- The file at a path was replaced: the replacement worked, the entry that the path names is now a
regular file with the given bytes, and all other places hold what they held. -/
structure FileSystem.IsReplaced (before : FileSystem) (path : String) (bytes : Bytes)
    (after : FileSystem) : Prop where
  replace_eq : before.replace path bytes = (.ok (), after)
  exists_entry : ∃ location mode, before.slot path = .ok location ∧
    after.lookup location = some (.file mode bytes) ∧
    ∀ other, other ≠ location → after.lookup other = before.lookup other

theorem FileSystem.isReplaced_of_replace {before after : FileSystem} {path : String}
    {bytes : Bytes} (h : before.replace path bytes = (.ok (), after)) :
    before.IsReplaced path bytes after := by
  refine ⟨h, ?_⟩
  rcases before.replace_cases path bytes with
    ⟨error, hreplace⟩ | ⟨target, mode, htarget, -, hreplace⟩
  · cases hreplace.symm.trans h
  · cases hreplace.symm.trans h
    refine ⟨target, mode, slot_of_destination htarget, ?_, ?_⟩
    · rw [lookup_put, if_pos rfl]
    · intro other hother
      rw [lookup_put, if_neg hother.symm]

namespace Job

/-! ## Looking at the output -/

theorem held_eq_ok_false_iff {files : FileSystem} {path text : String} :
    held files path text = .ok false ↔
      files.read path = .error .notFound ∨
      ∃ bytes, files.read path = .ok bytes ∧ bytes ≠ Text.utf8 text := by
  unfold held
  cases hread : files.read path with
  | ok bytes => simp
  | error fault => cases fault <;> simp

/-- A look that fails is a failure of the files. -/
theorem exitCode_of_held {files : FileSystem} {path text : String} {failure : Failure}
    (h : held files path text = .error failure) : failure.exitCode = 74 := by
  unfold held at h
  cases hread : files.read path with
  | ok bytes => simp [hread] at h
  | error fault =>
      rw [hread] at h
      cases fault <;> simp at h <;> rw [← h] <;> rfl

end Job

namespace Invocation

variable (invocation : Invocation) (files : FileSystem)

/-! ## The conditions -/

/-- The input holds a text that is refused: a line of it is out of form, or a record has an issue,
or one has the name of the aggregate. -/
def IsRefused : Prop :=
  ∃ text, files.read invocation.input = .ok (Text.utf8 text) ∧
    ((∃ error, Schema.parse .standard text = .error error) ∨
    ∃ schema, Schema.parse .standard text = .ok schema ∧
      ((∃ error, schema.validate = .error error) ∨
      ∃ error, schema.validateAggregate invocation.settings.aggregate = .error error))

/-- The input holds a text that is accepted, and this is its header. -/
def HasHeader (artifact : String) : Prop :=
  ∃ text schema, files.read invocation.input = .ok (Text.utf8 text) ∧
    Schema.parse .standard text = .ok schema ∧ schema.validate = .ok () ∧
    schema.validateAggregate invocation.settings.aggregate = .ok () ∧
    artifact = Header.text invocation.settings schema

/-- The output is not found, or holds other bytes than a header. -/
def IsOutdated (artifact : String) : Prop :=
  files.read invocation.output = .error .notFound ∨
  ∃ bytes, files.read invocation.output = .ok bytes ∧ bytes ≠ Text.utf8 artifact

/-- A check is asked for, and the output is not the header of the input. -/
def IsStale : Prop :=
  invocation.action = .check ∧
  ∃ artifact, invocation.HasHeader files artifact ∧ invocation.IsOutdated files artifact

/-- The input has a header, and what was asked for has been done with it, where `after` are the
files after the program: a check found it in the output, or standard output took all of it, or the
output held it already or was replaced by it. -/
def IsDone {σ : Type} [OutputStream σ] (stdout : σ) (after : FileSystem) : Prop :=
  ∃ artifact, invocation.HasHeader files artifact ∧
    match invocation.action with
    | .check => files.read invocation.output = .ok (Text.utf8 artifact)
    | .print => OutputStream.Accepts stdout artifact
    | .write => files.read invocation.output = .ok (Text.utf8 artifact) ∨
        (invocation.IsOutdated files artifact ∧
          files.IsReplaced invocation.output (Text.utf8 artifact) after)

variable {invocation files}

/-! ## What the input comes to -/

theorem hasHeader_iff {artifact : String} :
    invocation.HasHeader files artifact ↔
      ∃ rendered, invocation.job.renderedAt files invocation.input = .ok rendered ∧
        rendered.artifact = artifact := by
  constructor
  · rintro ⟨text, schema, hread, hparse, hvalidate, haggregate, rfl⟩
    have hjudge : invocation.job.judge schema = .ok () :=
      (Job.judge_of_validate_ok hvalidate).trans haggregate
    exact ⟨_, (Job.renderedAt_of_read hread).trans (Job.result_of_ok hparse hjudge), rfl⟩
  · rintro ⟨rendered, hrendered, rfl⟩
    obtain ⟨text, hread, hresult⟩ := Job.exists_text_of_renderedAt hrendered
    obtain ⟨schema, hparse, hjudge, rfl⟩ := Job.result_eq_ok_iff.mp hresult
    cases hvalidate : schema.validate with
    | error error =>
        rw [Job.judge_of_validate_error hvalidate] at hjudge
        cases hjudge
    | ok _ =>
        rw [Job.judge_of_validate_ok hvalidate] at hjudge
        exact ⟨text, schema, hread, hparse, hvalidate, hjudge, rfl⟩

theorem isRefused_iff :
    invocation.IsRefused files ↔
      ∃ failure, invocation.job.renderedAt files invocation.input = .error failure ∧
        failure.isDefinition = true := by
  constructor
  · rintro ⟨text, hread, ⟨error, hparse⟩ | ⟨schema, hparse, hissue⟩⟩
    · exact ⟨_, Job.renderedAt_of_refuses (.malformed hread hparse), rfl⟩
    · cases hvalidate : schema.validate with
      | error error => exact ⟨_, Job.renderedAt_of_refuses (.invalid hread hparse hvalidate), rfl⟩
      | ok _ =>
          rcases hissue with ⟨error, herror⟩ | ⟨error, herror⟩
          · rw [hvalidate] at herror
            cases herror
          · exact ⟨_, Job.renderedAt_of_refuses (.collision hread hparse hvalidate herror), rfl⟩
  · rintro ⟨failure, hrendered, hdefinition⟩
    cases Job.renderedAt_eq_error_iff.mp hrendered with
    | unreadable => cases hdefinition
    | noText => cases hdefinition
    | malformed hread hparse => exact ⟨_, hread, Or.inl ⟨_, hparse⟩⟩
    | invalid hread hparse hvalidate => exact ⟨_, hread, Or.inr ⟨_, hparse, Or.inl ⟨_, hvalidate⟩⟩⟩
    | collision hread hparse _ haggregate =>
        exact ⟨_, hread, Or.inr ⟨_, hparse, Or.inr ⟨_, haggregate⟩⟩⟩

/-! ## What the run comes to -/

section Results

variable {rendered : Rendered}

/-- What the invocation comes to where the input has no header, whatever is asked for. -/
theorem result_of_error {failure : Failure}
    (h : invocation.job.renderedAt files invocation.input = .error failure) :
    (Run.on invocation.run {} files).1.1 = .error failure := by
  cases haction : invocation.action with
  | check =>
      rw [on_run_check haction]
      dsimp only
      rw [Job.result_isCurrent, h]
      rfl
  | print =>
      rw [on_run_print haction]
      dsimp only
      rw [Job.result_renderFile, h]
      rfl
  | write =>
      rw [on_run_write haction]
      dsimp only
      rw [Job.result_update, h]
      rfl

theorem result_of_check (haction : invocation.action = .check)
    (h : invocation.job.renderedAt files invocation.input = .ok rendered) :
    (Run.on invocation.run {} files).1.1 =
      (Job.held files invocation.output rendered.artifact).map
        fun current => if current then .current else .stale := by
  rw [on_run_check haction]
  dsimp only
  rw [Job.result_isCurrent_of_renderedAt h]

theorem result_of_print (haction : invocation.action = .print)
    (h : invocation.job.renderedAt files invocation.input = .ok rendered) :
    (Run.on invocation.run {} files).1.1 = .ok (.printed rendered.artifact) := by
  rw [on_run_print haction]
  dsimp only
  rw [Job.result_renderFile, h]
  rfl

/-- Where the output cannot be compared or holds the header, nothing is written. -/
theorem result_of_write (haction : invocation.action = .write)
    (h : invocation.job.renderedAt files invocation.input = .ok rendered)
    (hheld : Job.held files invocation.output rendered.artifact ≠ .ok false) :
    (Run.on invocation.run {} files).1.1 =
      (Job.held files invocation.output rendered.artifact).map
        fun _ => .written (Job.summary rendered true) := by
  rw [on_run_write haction]
  dsimp only
  rw [Job.result_update_of_renderedAt h]
  cases hlook : Job.held files invocation.output rendered.artifact with
  | error failure => rfl
  | ok current =>
      cases current with
      | true => rfl
      | false => exact absurd hlook hheld

/-- Where the output is outdated, the answer and the files are those of the replacement. -/
theorem run_of_write (haction : invocation.action = .write)
    (h : invocation.job.renderedAt files invocation.input = .ok rendered)
    (hheld : Job.held files invocation.output rendered.artifact = .ok false) :
    let replaced := files.replace invocation.output (Text.utf8 rendered.artifact)
    (Run.on invocation.run {} files).1.1 =
      (replaced.1.mapError .file).map (fun _ => .written (Job.summary rendered false)) ∧
    (Run.on invocation.run {} files).2 = replaced.2 := by
  obtain ⟨text, hread, hresult⟩ := Job.exists_text_of_renderedAt h
  rw [on_run_write haction]
  simp only [Job.on_update, Job.textAt_of_read hread, hresult, Job.on_refresh, hheld]
  rcases files.replace invocation.output (Text.utf8 rendered.artifact) with ⟨answer, after⟩
  cases answer <;> exact ⟨rfl, rfl⟩

end Results

end Invocation

namespace Program

section Exit

variable {σ : Type} [OutputStream σ] (files : FileSystem) (stdout : σ)
  (environment : Option Level) {arguments : List String} {invocation : Invocation}

/-! ## From the run to the exit -/

theorem run_of_ofArguments (h : Invocation.ofArguments arguments = .ok invocation) :
    let performed := (Run.on invocation.run {} files).1.1
    (run files stdout environment arguments).code
      = exitCode (settle (deliver stdout performed).1 performed) ∧
    (run files stdout environment arguments).stdout = (deliver stdout performed).2 ∧
    (run files stdout environment arguments).files = (Run.on invocation.run {} files).2 := by
  unfold run
  rw [h]
  exact ⟨rfl, rfl, rfl⟩

/-- Where the run has no text to print, nothing is offered to standard output, and the status is
that of the run. -/
theorem exit_of_not_printed (h : Invocation.ofArguments arguments = .ok invocation)
    {result : Except Failure Outcome} (hresult : (Run.on invocation.run {} files).1.1 = result)
    (hnone : ∀ artifact, result ≠ .ok (.printed artifact)) :
    (run files stdout environment arguments).code = exitCode result ∧
    (run files stdout environment arguments).stdout = stdout := by
  obtain ⟨hcode, hstdout, -⟩ := run_of_ofArguments files stdout environment h
  rw [hcode, hstdout, hresult]
  cases result with
  | error failure => exact ⟨rfl, rfl⟩
  | ok outcome =>
      cases outcome with
      | printed artifact => exact absurd rfl (hnone artifact)
      | written | current | stale => exact ⟨rfl, rfl⟩

/-- A header that is to be printed is offered to standard output, and the status is that of the
delivery. -/
theorem exit_of_printed (h : Invocation.ofArguments arguments = .ok invocation) {artifact : String}
    (hresult : (Run.on invocation.run {} files).1.1 = .ok (.printed artifact)) :
    (run files stdout environment arguments).code
      = (if (OutputStream.emit stdout artifact).1 = .ok () then 0 else 74) ∧
    (run files stdout environment arguments).stdout = (OutputStream.emit stdout artifact).2 := by
  obtain ⟨hcode, hstdout, -⟩ := run_of_ofArguments files stdout environment h
  rw [hcode, hstdout, hresult]
  refine ⟨?_, rfl⟩
  simp only [deliver, settle]
  cases (OutputStream.emit stdout artifact).1 <;> rfl

end Exit

/-! ## From the conditions to the statuses -/

section Conditions

variable {σ : Type} [OutputStream σ] {files : FileSystem} {stdout : σ}
  {environment : Option Level} {arguments : List String} {invocation : Invocation}

theorem code_of_isRefused (h : Invocation.ofArguments arguments = .ok invocation)
    (hrefused : invocation.IsRefused files) :
    (run files stdout environment arguments).code = 65 := by
  obtain ⟨failure, hrendered, hdefinition⟩ := Invocation.isRefused_iff.mp hrefused
  have hcode := (exit_of_not_printed files stdout environment h
    (Invocation.result_of_error hrendered) (by simp)).1
  rw [hcode]
  simp [exitCode, Failure.exitCode, hdefinition]

theorem code_of_isStale (h : Invocation.ofArguments arguments = .ok invocation)
    (hstale : invocation.IsStale files) :
    (run files stdout environment arguments).code = 1 := by
  obtain ⟨haction, artifact, hheader, houtdated⟩ := hstale
  obtain ⟨rendered, hrendered, rfl⟩ := Invocation.hasHeader_iff.mp hheader
  have hresult := Invocation.result_of_check haction hrendered
  rw [Job.held_eq_ok_false_iff.mpr houtdated] at hresult
  exact (exit_of_not_printed files stdout environment h hresult (by simp [Except.map])).1

theorem code_of_isDone (h : Invocation.ofArguments arguments = .ok invocation)
    (hdone : invocation.IsDone files stdout (run files stdout environment arguments).files) :
    (run files stdout environment arguments).code = 0 := by
  obtain ⟨artifact, hheader, hdone⟩ := hdone
  obtain ⟨rendered, hrendered, rfl⟩ := Invocation.hasHeader_iff.mp hheader
  cases haction : invocation.action with
  | check =>
      simp only [haction] at hdone
      have hresult := Invocation.result_of_check haction hrendered
      rw [Job.held_eq_ok_true_iff.mpr hdone] at hresult
      exact (exit_of_not_printed files stdout environment h hresult (by simp [Except.map])).1
  | print =>
      simp only [haction] at hdone
      have hcode := (exit_of_printed files stdout environment h
        (Invocation.result_of_print haction hrendered)).1
      rw [hcode, if_pos (OutputStream.emit_eq_ok_iff.mpr hdone)]
  | write =>
      simp only [haction] at hdone
      rcases hdone with hread | ⟨houtdated, hreplaced⟩
      · have hheld := Job.held_eq_ok_true_iff.mpr hread
        have hresult := Invocation.result_of_write haction hrendered (by simp [hheld])
        rw [hheld] at hresult
        exact (exit_of_not_printed files stdout environment h hresult (by simp [Except.map])).1
      · have hresult := (Invocation.run_of_write haction hrendered
          (Job.held_eq_ok_false_iff.mpr houtdated)).1
        rw [hreplaced.replace_eq] at hresult
        exact (exit_of_not_printed files stdout environment h hresult
          (by simp [Except.map, Except.mapError])).1

/-- A run that fails for its files gives the status of such a failure. -/
theorem code_of_failure (h : Invocation.ofArguments arguments = .ok invocation) {failure : Failure}
    (hresult : (Run.on invocation.run {} files).1.1 = .error failure)
    (hfailure : failure.exitCode = 74) :
    (run files stdout environment arguments).code = 74 := by
  rw [(exit_of_not_printed files stdout environment h hresult (by simp)).1]
  exact hfailure

section Header

variable {rendered : Rendered} (h : Invocation.ofArguments arguments = .ok invocation)
  (hrendered : invocation.job.renderedAt files invocation.input = .ok rendered)

include h hrendered

/-- A check finds the output current or outdated, or fails to look. -/
theorem check_cases (haction : invocation.action = .check) :
    invocation.IsStale files ∨
    invocation.IsDone files stdout (run files stdout environment arguments).files ∨
    (run files stdout environment arguments).code = 74 := by
  have hheader := Invocation.hasHeader_iff.mpr ⟨rendered, hrendered, rfl⟩
  have hresult := Invocation.result_of_check haction hrendered
  cases hheld : Job.held files invocation.output rendered.artifact with
  | error failure =>
      rw [hheld] at hresult
      exact Or.inr (Or.inr (code_of_failure h hresult (Job.exitCode_of_held hheld)))
  | ok current =>
      cases current with
      | true =>
          refine Or.inr (Or.inl ⟨rendered.artifact, hheader, ?_⟩)
          simp only [haction]
          exact Job.held_eq_ok_true_iff.mp hheld
      | false => exact Or.inl ⟨haction, _, hheader, Job.held_eq_ok_false_iff.mp hheld⟩

/-- Standard output takes what is printed, or fails. -/
theorem print_cases (haction : invocation.action = .print) :
    invocation.IsDone files stdout (run files stdout environment arguments).files ∨
    (run files stdout environment arguments).code = 74 := by
  have hheader := Invocation.hasHeader_iff.mpr ⟨rendered, hrendered, rfl⟩
  have hcode := (exit_of_printed files stdout environment h
    (Invocation.result_of_print haction hrendered)).1
  by_cases hemit : (OutputStream.emit stdout rendered.artifact).1 = .ok ()
  · refine Or.inl ⟨rendered.artifact, hheader, ?_⟩
    simp only [haction]
    exact OutputStream.emit_eq_ok_iff.mp hemit
  · rw [hcode, if_neg hemit]
    exact Or.inr rfl

/-- The output holds the header, or is replaced by it, or the look or the replacement fails. -/
theorem write_cases (haction : invocation.action = .write) :
    invocation.IsDone files stdout (run files stdout environment arguments).files ∨
    (run files stdout environment arguments).code = 74 := by
  have hheader := Invocation.hasHeader_iff.mpr ⟨rendered, hrendered, rfl⟩
  cases hheld : Job.held files invocation.output rendered.artifact with
  | error failure =>
      have hresult := Invocation.result_of_write haction hrendered (by simp [hheld])
      rw [hheld] at hresult
      exact Or.inr (code_of_failure h hresult (Job.exitCode_of_held hheld))
  | ok current =>
      cases current with
      | true =>
          refine Or.inl ⟨rendered.artifact, hheader, ?_⟩
          simp only [haction]
          exact Or.inl (Job.held_eq_ok_true_iff.mp hheld)
      | false =>
          obtain ⟨hresult, hafter⟩ := Invocation.run_of_write haction hrendered hheld
          rcases hreplace : files.replace invocation.output (Text.utf8 rendered.artifact) with
            ⟨_ | _, after⟩
          · rw [hreplace] at hresult
            exact Or.inr (code_of_failure h hresult rfl)
          · have hfiles := (run_of_ofArguments files stdout environment h).2.2
            rw [hfiles, hafter, hreplace]
            refine Or.inl ⟨rendered.artifact, hheader, ?_⟩
            simp only [haction]
            exact Or.inr ⟨Job.held_eq_ok_false_iff.mp hheld,
              FileSystem.isReplaced_of_replace hreplace⟩

end Header

/-- Under none of the conditions, a file or a stream has failed. -/
theorem code_otherwise (h : Invocation.ofArguments arguments = .ok invocation)
    (hrefused : ¬ invocation.IsRefused files) (hstale : ¬ invocation.IsStale files)
    (hdone : ¬ invocation.IsDone files stdout (run files stdout environment arguments).files) :
    (run files stdout environment arguments).code = 74 := by
  cases hrendered : invocation.job.renderedAt files invocation.input with
  | error failure =>
      refine code_of_failure h (Invocation.result_of_error hrendered) ?_
      cases hdefinition : failure.isDefinition with
      | true =>
          exact absurd (Invocation.isRefused_iff.mpr ⟨failure, hrendered, hdefinition⟩) hrefused
      | false => simp [Failure.exitCode, hdefinition]
  | ok rendered =>
      cases haction : invocation.action with
      | check => exact ((check_cases h hrendered haction).resolve_left hstale).resolve_left hdone
      | print => exact (print_cases h hrendered haction).resolve_left hdone
      | write => exact (write_cases h hrendered haction).resolve_left hdone

/-- What reaches standard output where a header is printed. -/
theorem received_of_print (h : Invocation.ofArguments arguments = .ok invocation)
    (haction : invocation.action = .print) {artifact : String}
    (hheader : invocation.HasHeader files artifact) :
    ∃ part, part <+: Text.utf8 artifact ∧
      OutputStream.received (run files stdout environment arguments).stdout
        = OutputStream.received stdout ++ part ∧
      ((run files stdout environment arguments).code = 0 → part = Text.utf8 artifact) := by
  obtain ⟨rendered, hrendered, rfl⟩ := Invocation.hasHeader_iff.mp hheader
  obtain ⟨hcode, hstdout⟩ := exit_of_printed files stdout environment h
    (Invocation.result_of_print haction hrendered)
  obtain ⟨part, hpart, hreceived, hall⟩ := OutputStream.received_emit stdout rendered.artifact
  refine ⟨part, hpart, by rw [hstdout, hreceived], ?_⟩
  intro hzero
  rw [hcode] at hzero
  split_ifs at hzero with hemit
  exact hall hemit

/-- Standard output is left alone where no header is to be printed. -/
theorem stdout_of_no_print (h : Invocation.ofArguments arguments = .ok invocation)
    (hnone : ¬ (invocation.action = .print ∧ ∃ artifact, invocation.HasHeader files artifact)) :
    (run files stdout environment arguments).stdout = stdout := by
  refine (exit_of_not_printed files stdout environment h rfl ?_).2
  intro artifact hprinted
  have haction : invocation.action = .print := Invocation.action_of_ok hprinted
  refine hnone ⟨haction, ?_⟩
  cases hrendered : invocation.job.renderedAt files invocation.input with
  | error failure => cases (Invocation.result_of_error hrendered).symm.trans hprinted
  | ok rendered => exact ⟨_, Invocation.hasHeader_iff.mpr ⟨rendered, hrendered, rfl⟩⟩

end Conditions

/-- **The exit status tells what happened.** Let the arguments describe an invocation.  On all
files, and for every behaviour of standard output, the status is 65 if and only if the input holds a
text that is refused; 1 if and only if a check finds the output missing or different from the header
of the input; 0 if and only if the header was found, printed or written as asked for; and 74 in all
other cases.  A header that is to be printed reaches standard output as a whole when the status is
0, and otherwise up to some point; under all other circumstances nothing is offered to standard
output.  Directories are assumed to be open to their owner. -/
theorem run_exit_exact {σ : Type} [OutputStream σ] (files : FileSystem) (stdout : σ)
    (environment : Option Level) (arguments : List String) (invocation : Invocation)
    (h : Invocation.ofArguments arguments = .ok invocation) :
    let exit := run files stdout environment arguments
    (exit.code = 65 ↔ invocation.IsRefused files) ∧
    (exit.code = 1 ↔ invocation.IsStale files) ∧
    (exit.code = 0 ↔ invocation.IsDone files stdout exit.files) ∧
    (exit.code = 74 ↔ ¬ invocation.IsRefused files ∧ ¬ invocation.IsStale files ∧
      ¬ invocation.IsDone files stdout exit.files) ∧
    (∀ artifact, invocation.action = .print → invocation.HasHeader files artifact →
      ∃ part, part <+: Text.utf8 artifact ∧
        OutputStream.received exit.stdout = OutputStream.received stdout ++ part ∧
        (exit.code = 0 → part = Text.utf8 artifact)) ∧
    (¬ (invocation.action = .print ∧ ∃ artifact, invocation.HasHeader files artifact) →
      exit.stdout = stdout) := by
  intro exit
  have hrefused : invocation.IsRefused files → exit.code = 65 := code_of_isRefused h
  have hstale : invocation.IsStale files → exit.code = 1 := code_of_isStale h
  have hdone : invocation.IsDone files stdout exit.files → exit.code = 0 := code_of_isDone h
  have hother : ¬ invocation.IsRefused files → ¬ invocation.IsStale files →
      ¬ invocation.IsDone files stdout exit.files → exit.code = 74 := code_otherwise h
  -- the four statuses differ, so each of them comes from its own condition only
  refine ⟨?_, ?_, ?_, ?_, fun artifact haction => received_of_print h haction, stdout_of_no_print h⟩
  · exact ⟨fun hcode => by grind +splitImp, hrefused⟩
  · exact ⟨fun hcode => by grind +splitImp, hstale⟩
  · exact ⟨fun hcode => by grind +splitImp, hdone⟩
  · exact ⟨fun hcode => by grind +splitImp, fun hnone => hother hnone.1 hnone.2.1 hnone.2.2⟩

/-- No header is empty: each starts with its banner. -/
theorem text_ne_empty (settings : Settings) (schema : Schema) :
    Header.text settings schema ≠ "" := by
  obtain ⟨rest, hlead⟩ : ∃ rest, Header.text settings schema = "/*" ++ rest := by
    unfold Header.text Header.preamble Header.banner
    simp only [String.append_assoc]
    exact ⟨_, rfl⟩
  intro hempty
  have hlength : ("/*" ++ rest).length = 0 := by
    rw [← hlead, hempty]
    rfl
  rw [String.length_append] at hlength
  have htwo : "/*".length = 2 := by decide
  omega

/-- A full device takes no header. -/
theorem not_accepts_full (settings : Settings) (schema : Schema) :
    ¬ OutputStream.Accepts Sink.full (Header.text settings schema) := by
  rintro ⟨last, htakes, -⟩
  have hfull : ∀ bytes, OutputStream.write Sink.full bytes = (.error .noSpace, Sink.full) := by
    intro bytes
    have hnone : Sink.full.taken bytes = 0 :=
      Nat.min_eq_zero_iff.mpr (Or.inr (Nat.min_eq_zero_iff.mpr (Or.inr rfl)))
    show Sink.full.write bytes = _
    simp only [Sink.write, hnone]
    rfl
  have hempty : Text.utf8 (Header.text settings schema) = Text.utf8 "" := by
    generalize Text.utf8 (Header.text settings schema) = bytes at htakes
    cases htakes with
    | none => rfl
    | call _ hwrite _ => cases (hfull bytes).symm.trans hwrite
  exact text_ne_empty settings schema (Text.utf8_injective hempty)

/-- Definitions without a header beside them, and a device without space as standard output: a check
finds the header missing, and printing it fails. -/
theorem run_exit_exact_full_device :
    (run Invocation.definitionsAlone Sink.full none ["--check", "a.def", "a.hpp"]).code = 1 ∧
    (run Invocation.definitionsAlone Sink.full none ["--stdout", "a.def"]).code = 74 ∧
    (run Invocation.definitionsAlone Sink.full none ["--check", "a.def", "a.hpp"]).stdout
      = Sink.full := by
  have hcheck : Invocation.ofArguments ["--check", "a.def", "a.hpp"]
      = .ok { input := "a.def", output := "a.hpp", action := .check } := by decide +kernel
  have hprint : Invocation.ofArguments ["--stdout", "a.def"]
      = .ok { input := "a.def", action := .print } := by decide +kernel
  have hread : Invocation.definitionsAlone.read "a.def" = .ok (Text.utf8 "A x:int") := rfl
  have hparse : Schema.parse .standard "A x:int"
      = .ok { records := [⟨"A", 1, [⟨"x", "int", ⟨"int", "int"⟩⟩]⟩] } := rfl
  have hchecked := run_exit_exact Invocation.definitionsAlone Sink.full none _ _ hcheck
  have hprinted := run_exit_exact Invocation.definitionsAlone Sink.full none _ _ hprint
  refine ⟨?_, ?_, ?_⟩
  · exact hchecked.2.1.mpr ⟨rfl, _, ⟨_, _, hread, rfl, rfl, rfl, rfl⟩, Or.inl rfl⟩
  · refine hprinted.2.2.2.1.mpr ⟨?_, ?_, ?_⟩
    · rintro ⟨text, htext, hissue⟩
      obtain rfl := Text.utf8_injective (Except.ok.inj (hread.symm.trans htext))
      rcases hissue with ⟨error, herror⟩ | ⟨schema, hschema, hissue⟩
      · cases hparse.symm.trans herror
      · obtain rfl := Except.ok.inj (hparse.symm.trans hschema)
        rcases hissue with ⟨error, herror⟩ | ⟨error, herror⟩ <;> cases herror
    · rintro ⟨haction, -⟩
      cases haction
    · rintro ⟨artifact, ⟨text, schema, -, -, -, -, rfl⟩, haccepts⟩
      exact not_accepts_full _ schema haccepts
  · exact hchecked.2.2.2.2.2 (by simp)

end Program

end RecordHeader
