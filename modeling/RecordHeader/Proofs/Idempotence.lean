import RecordHeader.Proofs.Agreement
import RecordHeader.Proofs.Arguments
import RecordHeader.Proofs.Trees
import Mathlib.Tactic

set_option autoImplicit false

/-! # Carrying out an invocation again

Once a header has been written, the files are up to date with the definitions: a check says so,
printing gives the very bytes that the output holds, and writing again, however often, finds
nothing to do and changes nothing.

What has to be shown is that the output reads as the header after the run (`read_of_written`).
Where the run found the header there, this is what it compared; where it put a new file there,
it is the law of replaced paths, `FileSystem.read_replace`.  From a state in which the input makes
a header and the output reads as it (`Job.IsUpToDate`) every run of the job leaves that state as
it is.
-/

namespace RecordHeader

namespace Job

/-- The definitions at `input` make a header, and the file at `output` holds it. -/
structure IsUpToDate (job : Job) (files : FileSystem) (input output : String)
    (rendered : Rendered) : Prop where
  renderedAt_eq : job.renderedAt files input = .ok rendered
  read_eq : files.read output = .ok (Text.utf8 rendered.artifact)

section UpToDate

variable {job : Job} {files : FileSystem} {input output : String} {rendered : Rendered}

/-- What a file comes to depends on its bytes alone. -/
theorem renderedAt_congr {other : FileSystem} (h : other.read input = files.read input) :
    job.renderedAt other input = job.renderedAt files input := by
  unfold renderedAt textAt
  rw [h]

theorem IsUpToDate.isCurrent (h : job.IsUpToDate files input output rendered) :
    (Run.on (job.isCurrent input output) {} files).1.1 = .ok true := by
  rw [result_isCurrent_of_renderedAt h.renderedAt_eq]
  exact held_eq_ok_true_iff.mpr h.read_eq

theorem IsUpToDate.renderFile (h : job.IsUpToDate files input output rendered) :
    (Run.on (job.renderFile input) {} files).1.1 = .ok rendered := by
  rw [result_renderFile, h.renderedAt_eq]

/-- **An update of a file that is up to date** reports so and leaves the files as they are. -/
theorem IsUpToDate.update (h : job.IsUpToDate files input output rendered) :
    (Run.on (job.update input output) {} files).1.1 = .ok (summary rendered true) ∧
    (Run.on (job.update input output) {} files).2 = files := by
  have hheld := held_eq_ok_true_iff.mpr h.read_eq
  have hanswer : (Run.on (job.update input output) {} files).1.1 = .ok (summary rendered true) := by
    rw [result_update_of_renderedAt h.renderedAt_eq, hheld]
    rfl
  refine ⟨hanswer, ?_⟩
  rcases job.update_cases input output {} files with
    ⟨failure, reached, hupdate⟩ | ⟨_, other, -, -, hcases⟩
  · rw [hupdate]
  · rcases hcases with ⟨reached, hupdate, -⟩ | ⟨target, mode, reached, -, -, hupdate⟩
    · rw [hupdate]
    · -- an update that puts a file there does not report an unchanged one
      rw [hupdate] at hanswer
      have hunchanged := congrArg Summary.unchanged (Except.ok.inj hanswer)
      cases hunchanged

end UpToDate

end Job

namespace Invocation

variable {invocation : Invocation} {files : FileSystem} {summary : Summary}

theorem update_of_written
    (h : (Run.on invocation.run {} files).1.1 = .ok (.written summary)) :
    (Run.on (invocation.job.update invocation.input invocation.output) {} files).1.1
      = .ok summary := by
  have haction : invocation.action = .write := action_of_ok h
  rw [on_run_write haction] at h
  obtain ⟨found, hfound, houtcome⟩ := exists_of_map_ok h
  obtain rfl : found = summary := Outcome.written.inj houtcome
  exact hfound

/-- Where a header is written, the output could be read before, or was not found. -/
theorem readable_of_written
    (h : (Run.on invocation.run {} files).1.1 = .ok (.written summary)) (fault : Fault)
    (hread : files.read invocation.output = .error fault) : fault = .notFound := by
  by_contra hfault
  have hupdate := update_of_written h
  cases hrendered : invocation.job.renderedAt files invocation.input with
  | error failure =>
      rw [Job.result_update, hrendered] at hupdate
      cases hupdate
  | ok rendered =>
      have hheld : Job.held files invocation.output rendered.artifact = _ :=
        Job.held_of_read_error hread hfault
      rw [Job.result_update_of_renderedAt hrendered, hheld] at hupdate
      cases hupdate

/-- **What was written is read.** After a run that wrote a header, the output holds the header of
the input. -/
theorem read_of_written {tree : FileSystem.Tree}
    (h : (Run.on invocation.run {} tree.toFileSystem).1.1 = .ok (.written summary)) :
    ∃ rendered,
      invocation.job.renderedAt tree.toFileSystem invocation.input = .ok rendered ∧
      summary = Job.summary rendered summary.unchanged ∧
      (tree.after invocation).read invocation.output = .ok (Text.utf8 rendered.artifact) := by
  obtain ⟨rendered, hrender, hcases⟩ := written_cases h
  rw [Job.result_renderFile] at hrender
  refine ⟨rendered, hrender, Job.summary_of_update hrender (update_of_written h), ?_⟩
  rw [FileSystem.Tree.toFileSystem_after]
  rcases hcases with ⟨-, hread, hafter⟩ | ⟨-, target, mode, htarget, hmode, hafter⟩
  · rw [hafter, hread]
  · rw [hafter]
    exact FileSystem.read_replace tree.isTree (readable_of_written h) htarget hmode

/-- The files after an invocation has been carried out a number of times. -/
def filesAfter (invocation : Invocation) (files : FileSystem) : Nat → FileSystem
  | 0 => files
  | n + 1 => (Run.on invocation.run {} (filesAfter invocation files n)).2

section UpToDate

variable {rendered : Rendered}

/-- One run of an invocation that is up to date. -/
theorem run_of_isUpToDate (haction : invocation.action = .write)
    (h : invocation.job.IsUpToDate files invocation.input invocation.output rendered) :
    (Run.on invocation.run {} files).1.1 = .ok (.written (Job.summary rendered true)) ∧
    (Run.on invocation.run {} files).2 = files := by
  obtain ⟨hanswer, hfiles⟩ := h.update
  rw [on_run_write haction]
  refine ⟨?_, hfiles⟩
  show Except.map Outcome.written (Run.on (invocation.job.update invocation.input
    invocation.output) {} files).1.1 = _
  rw [hanswer]
  rfl

/-- Any number of such runs. -/
theorem filesAfter_of_isUpToDate (haction : invocation.action = .write)
    (h : invocation.job.IsUpToDate files invocation.input invocation.output rendered) (n : Nat) :
    filesAfter invocation files n = files := by
  induction n with
  | zero => rfl
  | succ n ih => rw [filesAfter, ih, (run_of_isUpToDate haction h).2]

end UpToDate

/-- **Generating is idempotent.** Let arguments ask for a header to be written, let this succeed
on a tree of files, and let the input read as before afterwards.  Then in the tree that is left
the same arguments with `--check` find the header current, with `--stdout` they print the
bytes that the output holds, and carried out again any number of times they report the same
header, unchanged, and leave the files as they are.  Directories are assumed to be open to their
owner, which no run changes (`isOpen_run_iff`). -/
theorem run_idempotent (arguments : List String) (invocation : Invocation)
    (files : FileSystem.Tree) (summary : Summary)
    (harguments : ofArguments arguments = .ok invocation)
    (hwritten : (Run.on invocation.run {} files.toFileSystem).1.1 = .ok (.written summary))
    (hinput : (files.after invocation).read invocation.input = files.read invocation.input) :
    let after := (files.after invocation).toFileSystem
    (∃ checking, ofArguments ("--check" :: arguments) = .ok checking ∧
      (Run.on checking.run {} after).1.1 = .ok .current) ∧
    (∃ printing artifact, ofArguments ("--stdout" :: arguments) = .ok printing ∧
      (Run.on printing.run {} after).1.1 = .ok (.printed artifact) ∧
      after.read invocation.output = .ok (Text.utf8 artifact)) ∧
    ∀ n, filesAfter invocation after n = after ∧
      (Run.on invocation.run {} (filesAfter invocation after n)).1.1
        = .ok (.written { summary with unchanged := true }) := by
  intro after
  have haction : invocation.action = .write := action_of_ok hwritten
  obtain ⟨rendered, hrendered, hsummary, hread⟩ := read_of_written hwritten
  have hcurrent : invocation.job.IsUpToDate after invocation.input invocation.output rendered :=
    ⟨(Job.renderedAt_congr hinput).trans hrendered, hread⟩
  refine ⟨⟨_, ofArguments_cons_check harguments haction, ?_⟩,
    ⟨_, rendered.artifact, ofArguments_cons_print harguments haction, ?_, hread⟩, ?_⟩
  · -- the job does not depend on the action
    rw [on_run_check rfl]
    show Except.map _ (Run.on (invocation.job.isCurrent invocation.input invocation.output) {}
      after).1.1 = _
    rw [hcurrent.isCurrent]
    rfl
  · rw [on_run_print rfl]
    show Except.map _ (Run.on (invocation.job.renderFile invocation.input) {} after).1.1 = _
    rw [hcurrent.renderFile]
    rfl
  · intro n
    have hfixed : filesAfter invocation after n = after :=
      filesAfter_of_isUpToDate haction hcurrent n
    refine ⟨hfixed, ?_⟩
    rw [hfixed, (run_of_isUpToDate haction hcurrent).1, hsummary]
    rfl

/-- A working directory with definitions of one record, and a link to nothing in the place of the
header. -/
def danglingHeader : FileSystem.Tree :=
  let definitions := FileSystem.Tree.fresh.put ["home", "developer"] "a.def"
    (.file .file (Text.utf8 "A x:int")) ⟨_, rfl⟩ (by rintro ⟨mode, hmode⟩; cases hmode)
  definitions.put ["home", "developer"] "a.hpp" (.link "b.hpp") ⟨_, rfl⟩
    (by rintro ⟨mode, hmode⟩; cases hmode)

/-- The run on these files puts a header in the place of the link. -/
theorem run_danglingHeader : ∃ rendered,
    (Run.on (run { input := "a.def", output := "a.hpp" }) {} danglingHeader.toFileSystem).1.1
      = .ok (.written (Job.summary rendered false)) ∧
    (danglingHeader.after { input := "a.def", output := "a.hpp" }).toFileSystem
      = danglingHeader.toFileSystem.put ["home", "developer", "a.hpp"]
          (.file .file (Text.utf8 rendered.artifact)) := by
  have htext : Job.textAt danglingHeader.toFileSystem "a.def" = .ok "A x:int" := by
    have hread : danglingHeader.read "a.def" = .ok (Text.utf8 "A x:int") := rfl
    rw [Job.textAt, hread]
    simp
  obtain ⟨rendered, hresult⟩ : ∃ rendered,
      (job { input := "a.def", output := "a.hpp" }).result "A x:int" = .ok rendered :=
    ⟨_, Job.result_of_ok rfl rfl⟩
  have hheld : ∀ text, Job.held danglingHeader.toFileSystem "a.hpp" text = .ok false :=
    fun _ => rfl
  have htemporary : danglingHeader.temporaryLocation "a.hpp"
      = .ok (["home", "developer"] ++ [danglingHeader.temporaryName "a.hpp"]) := by
    decide +kernel
  have hmode : danglingHeader.modeOrNew "a.hpp" = .ok .file := rfl
  have htarget : danglingHeader.destination "a.hpp" = .ok ["home", "developer", "a.hpp"] := rfl
  refine ⟨rendered, ?_⟩
  rw [FileSystem.Tree.toFileSystem_after, on_run_write rfl, Job.on_update]
  simp only [htext, hresult, Job.on_refresh, hheld, FileSystem.replace_eq, htemporary, hmode,
    htarget]
  exact ⟨rfl, trivial⟩

/-- Where a link to nothing stood, the header is found current, and stays as it is. -/
theorem run_idempotent_dangling_link :
    ∃ after artifact checking,
      danglingHeader.lookup ["home", "developer", "a.hpp"] = some (.link "b.hpp") ∧
      (danglingHeader.after { input := "a.def", output := "a.hpp" }).toFileSystem = after ∧
      after.read "a.hpp" = .ok (Text.utf8 artifact) ∧
      ofArguments ["--check", "a.def", "a.hpp"] = .ok checking ∧
      (Run.on checking.run {} after).1.1 = .ok .current ∧
      filesAfter { input := "a.def", output := "a.hpp" } after 3 = after := by
  have harguments : ofArguments ["a.def", "a.hpp"]
      = .ok { input := "a.def", output := "a.hpp" } := by decide +kernel
  obtain ⟨rendered, hwritten, hafter⟩ := run_danglingHeader
  have hinput : (danglingHeader.after { input := "a.def", output := "a.hpp" }).read "a.def"
      = danglingHeader.read "a.def" := by
    rw [hafter]
    rfl
  obtain ⟨⟨checking, hchecking, hcurrent⟩, ⟨_, artifact, -, -, hread⟩, hagain⟩ :=
    run_idempotent _ _ _ _ harguments hwritten hinput
  exact ⟨_, artifact, checking, rfl, rfl, hread, hchecking, hcurrent, (hagain 3).1⟩

end Invocation

end RecordHeader
