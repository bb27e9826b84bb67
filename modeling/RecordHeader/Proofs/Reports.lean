import RecordHeader.Proofs.ExitStatus
import RecordHeader.Proofs.Parsing
import RecordHeader.Proofs.Storing
import Mathlib.Tactic

set_option autoImplicit false

/-! # What a run reports

A run reports the stages that it goes through, a warning for lines that it passes over, and what it
did to the header file.  `Request.reports_faithful` says that these reports are true, whatever the
files and whichever of the four runs of a job is asked for: the stages rise from the first one, the
last of them tells whether and where the run failed, and the other events stand there if and only if
what they say has happened.

* `Stage.Climbs` is a row of transitions that starts where a run starts and rises.  Reporting and
  advancing keep it (`Progress.IsOrdered`).
* `Request.Ending` lists the ways in which a run can end, each with its result, its progress and the
  files that it leaves; `Request.ending` says that there are no others.  All that is said of runs
  follows by going through the list.
* `PassedOver` says on the text alone which lines are passed over.
-/

namespace RecordHeader

/-! ## Transitions and warnings -/

/-- A row of transitions that starts at one stage and ends at another.  Each starts where the one
before it ended, and ends at a later stage. -/
inductive Stage.Climbs : Stage → List (Stage × Stage) → Stage → Prop
  | none (stage : Stage) : Climbs stage [] stage
  | step {first next last : Stage} {rest : List (Stage × Stage)} : first < next →
      Climbs next rest last → Climbs first ((first, next) :: rest) last

theorem Stage.Climbs.concat {first last next : Stage} {row : List (Stage × Stage)}
    (h : Climbs first row last) (hnext : last < next) :
    Climbs first (row ++ [(last, next)]) next := by
  induction h with
  | none stage => exact .step hnext (.none next)
  | step hfirst _ ih => exact .step hfirst (ih hnext)

namespace Event

/-- The stages between which a run went, if an event reports that. -/
def transition? : Event → Option (Stage × Stage)
  | advanced source target => some (source, target)
  | _ => none

/-- The transitions in a row of events. -/
def transitions (events : List Event) : List (Stage × Stage) :=
  events.filterMap transition?

/-- What a warning says: how many lines are passed over, and the blank line before them. -/
def warning? : Event → Option (Nat × Nat)
  | ignoredLines count blankLine => some (count, blankLine)
  | _ => none

/-- The warnings in a row of events. -/
def warnings (events : List Event) : List (Nat × Nat) :=
  events.filterMap warning?

/-- Whether an event tells what became of a header file. -/
def isAboutFile : Event → Bool
  | upToDate _ | wrote _ _ => true
  | _ => false

/-- The events that tell what became of a header file. -/
def fileEvents (events : List Event) : List Event :=
  events.filter isAboutFile

@[simp]
theorem transitions_append (first second : List Event) :
    transitions (first ++ second) = transitions first ++ transitions second :=
  List.filterMap_append

@[simp]
theorem warnings_append (first second : List Event) :
    warnings (first ++ second) = warnings first ++ warnings second :=
  List.filterMap_append

@[simp]
theorem fileEvents_append (first second : List Event) :
    fileEvents (first ++ second) = fileEvents first ++ fileEvents second :=
  List.filter_append first second

theorem mem_fileEvents (event : Event) {events : List Event} (h : event.isAboutFile = true) :
    event ∈ fileEvents events ↔ event ∈ events :=
  List.mem_filter.trans (and_iff_left h)

/-- A warning is shown by every log that an invocation asks for. -/
theorem warnings_shown (invocation : Invocation) (events : List Event) :
    warnings (invocation.level.shown events) = warnings events := by
  -- no number of flags asks for less than warnings
  have hlevel : Level.warn.rank ≤ invocation.level.rank := by
    unfold Invocation.level
    split <;> decide
  unfold warnings Level.shown
  rw [List.filterMap_filter]
  congr 1
  funext event
  cases event with
  | ignoredLines count blankLine => exact if_pos (decide_eq_true hlevel)
  | _ => exact ite_self _

end Event

open Event

/-! ## Progress -/

namespace Progress

/-- The transitions that were reported lead from the first stage to the current one, and rise. -/
def IsOrdered (progress : Progress) : Prop :=
  Stage.Climbs .parsing (transitions progress.events) progress.stage

theorem isOrdered_start : IsOrdered {} :=
  .none .parsing

@[simp]
theorem stage_report (progress : Progress) (events : List Event) :
    (progress.report events).stage = progress.stage :=
  rfl

@[simp]
theorem events_report (progress : Progress) (events : List Event) :
    (progress.report events).events = progress.events ++ events :=
  rfl

@[simp]
theorem stage_advance (progress : Progress) (target : Stage) :
    (progress.advance target).stage = target :=
  rfl

@[simp]
theorem events_advance (progress : Progress) (target : Stage) :
    (progress.advance target).events
      = progress.events ++ [.advanced progress.stage target] :=
  rfl

variable {progress : Progress}

theorem IsOrdered.report (h : progress.IsOrdered) {events : List Event}
    (hevents : transitions events = []) : (progress.report events).IsOrdered := by
  unfold IsOrdered
  rw [events_report, transitions_append, hevents, List.append_nil]
  exact h

theorem IsOrdered.advance (h : progress.IsOrdered) {target : Stage}
    (htarget : progress.stage < target) : (progress.advance target).IsOrdered := by
  unfold IsOrdered
  rw [events_advance, transitions_append]
  exact Stage.Climbs.concat h htarget

/-- The progress after going through stages. -/
def through (progress : Progress) (stages : List Stage) : Progress :=
  stages.foldl advance progress

/-- **Going through rising stages keeps the order.** -/
theorem IsOrdered.through (h : progress.IsOrdered) {stages : List Stage}
    (hstages : (progress.stage :: stages).IsChain (· < ·)) :
    (progress.through stages).IsOrdered := by
  induction stages generalizing progress with
  | nil => exact h
  | cons target stages ih =>
      obtain ⟨hfirst, hrest⟩ := List.isChain_cons_cons.mp hstages
      exact ih (h.advance hfirst) hrest

theorem stage_through (progress : Progress) (stages : List Stage) :
    (progress.through stages).stage = stages.getLastD progress.stage := by
  induction stages generalizing progress with
  | nil => rfl
  | cons target stages ih =>
      rw [List.getLastD_cons]
      exact ih (progress.advance target)

theorem events_through (progress : Progress) (stages : List Stage) :
    (progress.through stages).events = progress.events ++
      ((progress.stage :: stages).zip stages).map fun step => .advanced step.1 step.2 := by
  induction stages generalizing progress with
  | nil => simp [through]
  | cons target stages ih =>
      calc ((progress.advance target).through stages).events
          = (progress.events ++ [.advanced progress.stage target]) ++
              ((target :: stages).zip stages).map fun step => .advanced step.1 step.2 :=
            ih (progress.advance target)
        _ = _ := by simp

end Progress

/-- The progress of a run that has read a schema and gone through stages since. -/
def Schema.reached (schema : Schema) (stages : List Stage) : Progress :=
  (Progress.report {} schema.events).through stages

/-! ## Lines that are passed over -/

/-- In a text, `count` lines that are not blank follow the first blank line, which is line number
`blank`, and there is at least one of them. -/
inductive PassedOver (text : String) (count blank : Nat) : Prop
  | intro {before after : List (List Char)} {line : List Char} :
      Text.LinesOf text.toList (before ++ line :: after) →
      (∀ earlier ∈ before, Text.isBlank earlier = false) → Text.isBlank line = true →
      blank = before.length + 1 → (after.countP fun line => !Text.isBlank line) = count →
      0 < count → PassedOver text count blank

namespace Schema

/-- A schema reports what was parsed, and possibly a warning before that. -/
theorem events_cases (schema : Schema) :
    schema.events = [.parsed schema.size schema.fieldCount] ∨
    ∃ count blank, schema.events
      = [.ignoredLines count blank, .parsed schema.size schema.fieldCount] := by
  unfold events
  cases schema.terminatedAt with
  | none => exact Or.inl rfl
  | some line =>
      dsimp only
      split_ifs
      · exact Or.inr ⟨_, _, rfl⟩
      · exact Or.inl rfl

theorem transitions_events (schema : Schema) : transitions schema.events = [] := by
  rcases schema.events_cases with hevents | ⟨count, blank, hevents⟩ <;> rw [hevents] <;> rfl

theorem fileEvents_events (schema : Schema) : fileEvents schema.events = [] := by
  rcases schema.events_cases with hevents | ⟨count, blank, hevents⟩ <;> rw [hevents] <;> rfl

theorem length_warnings_events_le (schema : Schema) : (warnings schema.events).length ≤ 1 := by
  rcases schema.events_cases with hevents | ⟨count, blank, hevents⟩
  · rw [hevents]
    exact Nat.zero_le 1
  · rw [hevents]
    exact Nat.le_refl 1

theorem warnings_events (schema : Schema) :
    warnings schema.events =
      match schema.terminatedAt with
      | none => []
      | some line => if 0 < schema.ignoredLines then [(schema.ignoredLines, line)] else [] := by
  unfold events
  cases schema.terminatedAt with
  | none => rfl
  | some line =>
      dsimp only
      split_ifs <;> rfl

/-- The lines in front of the first blank line are those that count. -/
theorem definitionLines_eq_before {before after : List (List Char)} {line : List Char}
    (hbefore : ∀ earlier ∈ before, Text.isBlank earlier = false)
    (hline : Text.isBlank line = true) : definitionLines (before ++ line :: after) = before := by
  rw [definitionLines_append hbefore, definitionLines_of_isBlank hline, List.append_nil]

theorem exists_blank {lines : List (List Char)} (h : lines.any Text.isBlank = true) :
    ∃ before line after, lines = before ++ line :: after ∧
      (∀ earlier ∈ before, Text.isBlank earlier = false) ∧ Text.isBlank line = true := by
  induction lines with
  | nil => simp at h
  | cons first rest ih =>
      cases hfirst : Text.isBlank first with
      | true => exact ⟨[], first, rest, rfl, by simp, hfirst⟩
      | false =>
          rw [List.any_cons, hfirst, Bool.false_or] at h
          obtain ⟨before, line, after, rfl, hbefore, hline⟩ := ih h
          exact ⟨first :: before, line, after, rfl, by simpa [hfirst] using hbefore, hline⟩

/-- **The warning of a schema says which lines of the text were passed over.** -/
theorem warnings_events_eq_iff {table : TypeTable} {text : String} {schema : Schema}
    (h : parse table text = .ok schema) (count blank : Nat) :
    warnings schema.events = [(count, blank)] ↔ PassedOver text count blank := by
  have hof := isOf_of_ofLines h
  rw [warnings_events, hof.terminatedAt_eq, hof.ignoredLines_eq]
  generalize hlines : Text.lines text.toList = lines
  constructor
  · intro hwarning
    by_cases hany : lines.any Text.isBlank = true
    · obtain ⟨before, line, after, rfl, hbefore, hline⟩ := exists_blank hany
      rw [definitionLines_eq_before hbefore hline] at hwarning
      simp only [hany, if_true, List.drop_length_add_append, List.drop_succ_cons,
        List.drop_zero] at hwarning
      split_ifs at hwarning with hpos
      obtain ⟨hcount, hblank⟩ := Prod.mk.inj (List.singleton_inj.mp hwarning)
      exact .intro (Text.linesOf_iff.mpr hlines) hbefore hline (by omega) hcount (hcount ▸ hpos)
    · simp [hany] at hwarning
  · rintro ⟨htext, hbefore, hline, rfl, hcount, hpos⟩
    rw [← hlines, Text.lines_of_linesOf htext, definitionLines_eq_before hbefore hline]
    simp [hline, hcount, hpos, Nat.add_comm]

section Reached

variable (schema : Schema) (stages : List Stage)

theorem events_reached :
    (schema.reached stages).events = schema.events ++
      ((.parsing :: stages).zip stages).map fun step => .advanced step.1 step.2 :=
  (Progress.report {} schema.events).events_through stages

@[simp]
theorem stage_reached : (schema.reached stages).stage = stages.getLastD .parsing :=
  (Progress.report {} schema.events).stage_through stages

@[simp]
theorem transitions_reached :
    transitions (schema.reached stages).events = (.parsing :: stages).zip stages := by
  rw [events_reached, transitions_append, transitions_events, List.nil_append]
  unfold transitions
  rw [List.filterMap_map]
  exact List.filterMap_some

@[simp]
theorem warnings_reached : warnings (schema.reached stages).events = warnings schema.events := by
  have hsteps : warnings (((.parsing :: stages).zip stages).map fun step =>
      .advanced step.1 step.2) = [] := by
    unfold warnings
    rw [List.filterMap_map]
    exact List.filterMap_eq_nil_iff.mpr fun _ _ => rfl
  rw [events_reached, warnings_append, hsteps, List.append_nil]

@[simp]
theorem fileEvents_reached : fileEvents (schema.reached stages).events = [] := by
  have hsteps : fileEvents (((.parsing :: stages).zip stages).map fun step =>
      .advanced step.1 step.2) = [] := by
    unfold fileEvents
    rw [List.filter_map, List.map_eq_nil_iff]
    exact List.filter_eq_nil_iff.mpr fun _ _ => Bool.false_ne_true
  rw [events_reached, fileEvents_append, fileEvents_events, hsteps, List.append_nil]

theorem fileEvents_reached_report {event : Event} (h : event.isAboutFile = true)
    (target : Stage) :
    fileEvents (((schema.reached stages).report [event]).advance target).events = [event] := by
  simp only [Progress.events_advance, Progress.events_report, fileEvents_append,
    fileEvents_reached, List.nil_append]
  show [event].filter isAboutFile ++ [] = [event]
  simp [h]

theorem isOrdered_reached {stages : List Stage}
    (h : (.parsing :: stages).IsChain (· < ·)) : (schema.reached stages).IsOrdered :=
  Progress.IsOrdered.through (Progress.isOrdered_start.report schema.transitions_events) h

end Reached

end Schema

/-! ## Files that cannot be read or are replaced -/

/-- A path cannot be read, and not because it leads nowhere. -/
def FileSystem.IsUnreadable (files : FileSystem) (path : String) : Prop :=
  ∃ fault, files.read path = .error fault ∧ fault ≠ .notFound

theorem Job.held_eq_error_iff {files : FileSystem} {path text : String} {failure : Failure} :
    held files path text = .error failure ↔
      ∃ fault, files.read path = .error fault ∧ fault ≠ .notFound ∧
        failure = .file { path, fault } := by
  constructor
  · intro h
    by_cases hreadable : ∀ fault, files.read path = .error fault → fault = .notFound
    · obtain ⟨current, hheld⟩ := exists_held_eq_ok hreadable text
      cases h.symm.trans hheld
    · push Not at hreadable
      obtain ⟨fault, hread, hfault⟩ := hreadable
      have hfailure := h.symm.trans (held_of_read_error hread hfault)
      exact ⟨fault, hread, hfault, Except.error.inj hfailure⟩
  · rintro ⟨fault, hread, hfault, rfl⟩
    exact held_of_read_error hread hfault

theorem Job.isUnreadable_of_held {files : FileSystem} {path text : String} {failure : Failure}
    (h : held files path text = .error failure) : files.IsUnreadable path := by
  obtain ⟨fault, hread, hfault, -⟩ := held_eq_error_iff.mp h
  exact ⟨fault, hread, hfault⟩

theorem Job.not_isUnreadable_of_held {files : FileSystem} {path text : String} {current : Bool}
    (h : held files path text = .ok current) : ¬ files.IsUnreadable path := by
  rintro ⟨fault, hread, hfault⟩
  cases h.symm.trans (held_of_read_error hread hfault)

/-- A file that did not hold a text is not as it was once it is replaced by it. -/
theorem FileSystem.IsReplaced.ne_of_held {files after : FileSystem} {path text : String}
    (h : files.IsReplaced path (Text.utf8 text) after)
    (hheld : Job.held files path text = .ok false) : after ≠ files := by
  rintro rfl
  rcases after.replace_cases path (Text.utf8 text) with
    ⟨error, hreplace⟩ | ⟨target, mode, htarget, hmode, hreplace⟩
  · cases hreplace.symm.trans h.replace_eq
  -- the new file would have stood there before, where the path would have read it
  have hsame : after.put target (.file mode (Text.utf8 text)) = after :=
    (Prod.mk.inj (hreplace.symm.trans h.replace_eq)).2
  have hlookup : after.lookup target = some (.file mode (Text.utf8 text)) := by
    rw [← hsame, lookup_put, if_pos rfl]
  have hfault : ∀ fault, after.read path = .error fault → fault = .notFound := by
    intro fault hread
    by_contra hne
    exact Job.not_isUnreadable_of_held hheld ⟨fault, hread, hne⟩
  have hreadable := isReadable_of_modeOrNew hfault hmode
  obtain ⟨front, last, here, hplace, rfl⟩ := exists_isPlaceOf htarget
  have hwithout : after.ReachesWithout path (here ++ [last]) := by
    apply hplace.reachesWithout
    intro link hlink
    cases hlookup.symm.trans hlink
  have hread : after.read path = .ok (Text.utf8 text) := by
    rw [← hsame]
    exact hplace.read_put_iff.mpr ⟨hreadable, hwithout⟩
  cases hheld.symm.trans (Job.held_eq_ok_true_iff.mpr hread)

/-! ## Requests -/

/-- What can be asked of a job. -/
inductive Request where
  | render (text : String)
  | renderFile (input : String)
  | check (input output : String)
  | update (input output : String)

/-- What a request is answered. -/
inductive Answer where
  | rendered (header : Rendered)
  | checked (current : Bool)
  | updated (summary : Summary)

namespace Request

/-- Carries out a request. -/
def run {m : Type → Type} [Monad m] [Storage m] (job : Job) : Request → Run m Answer
  | render text => do return .rendered (← job.render text)
  | renderFile input => do return .rendered (← job.renderFile input)
  | check input output => do return .checked (← job.isCurrent input output)
  | update input output => do return .updated (← job.update input output)

/-- The definitions that a request is about. -/
def text (files : FileSystem) : Request → Except Failure String
  | render text => .ok text
  | renderFile input | check input _ | update input _ => Job.textAt files input

theorem exists_of_text_error {request : Request} {files : FileSystem} {failure : Failure}
    (h : request.text files = .error failure) : ∃ error, failure = .file error := by
  have hread : ∀ input, Job.textAt files input = .error failure →
      ∃ error, failure = .file error := by
    intro input hinput
    unfold Job.textAt at hinput
    split at hinput
    · exact ⟨_, (Except.error.inj hinput).symm⟩
    · split at hinput
      · cases hinput
      · exact ⟨_, (Except.error.inj hinput).symm⟩
  cases request with
  | render text => cases h
  | renderFile input | check input output | update input output => exact hread input h

/-- The header that a request is about. -/
def header (job : Job) (files : FileSystem) (request : Request) : Except Failure Rendered := do
  let text ← request.text files
  job.result text

/-- What a request does once its header is ready. -/
def finish (header : Rendered) (progress : Progress) (files : FileSystem) :
    Request → (Except Failure Answer × Progress) × FileSystem
  | render _ | renderFile _ => ((.ok (.rendered header), progress.advance .done), files)
  | check _ output =>
    match Job.held files output header.artifact with
    | .error failure => ((.error failure, progress), files)
    | .ok current => ((.ok (.checked current), progress.advance .done), files)
  | update _ output =>
    match Run.on (Job.refresh output header.artifact) (progress.advance .writing) files with
    | ((.error failure, reached), after) => ((.error failure, reached), after)
    | ((.ok unchanged, reached), after) =>
      ((.ok (.updated (Job.summary header unchanged)), reached.advance .done), after)

theorem on_render (job : Job) (text : String) (progress : Progress) (files : FileSystem) :
    Run.on (job.render text) progress files =
      match job.result text with
      | .error failure => ((.error failure, job.progressAt text progress), files)
      | .ok header => ((.ok header, (job.progressAt text progress).advance .done), files) := by
  unfold Job.render
  simp only [Run.on_bind, Job.on_emit]
  cases job.result text <;> rfl

/-- **The four runs have one front.** They read the definitions, render them and then part. -/
theorem on_run (job : Job) (files : FileSystem) (request : Request) :
    Run.on (request.run job) {} files =
      match request.text files with
      | .error failure => ((.error failure, {}), files)
      | .ok text =>
        match job.result text with
        | .error failure => ((.error failure, job.progressAt text {}), files)
        | .ok header => request.finish header (job.progressAt text {}) files := by
  cases request with
  | render text =>
      refine (Run.on_bind_pure _ _ {} files).trans ?_
      rw [on_render]
      show _ = match job.result text with
        | .error failure => _
        | .ok header => _
      cases job.result text <;> rfl
  | renderFile input =>
      refine (Run.on_bind_pure _ _ {} files).trans ?_
      rw [Job.on_renderFile]
      show _ = match Job.textAt files input with
        | .error failure => _
        | .ok text => _
      cases Job.textAt files input with
      | error failure => rfl
      | ok text =>
          dsimp only
          cases job.result text <;> rfl
  | check input output =>
      refine (Run.on_bind_pure _ _ {} files).trans ?_
      rw [Job.on_isCurrent]
      show _ = match Job.textAt files input with
        | .error failure => _
        | .ok text => _
      cases Job.textAt files input with
      | error failure => rfl
      | ok text =>
          dsimp only
          cases job.result text with
          | error failure => rfl
          | ok header =>
              dsimp only [finish]
              cases Job.held files output header.artifact <;> rfl
  | update input output =>
      refine (Run.on_bind_pure _ _ {} files).trans ?_
      rw [Job.on_update]
      show _ = match Job.textAt files input with
        | .error failure => _
        | .ok text => _
      cases Job.textAt files input with
      | error failure => rfl
      | ok text =>
          dsimp only
          cases job.result text with
          | error failure => rfl
          | ok header =>
              dsimp only [finish]
              rcases Run.on (Job.refresh output header.artifact)
                ((job.progressAt text {}).advance .writing) files with ⟨⟨answer, reached⟩, after⟩
              cases answer <;> rfl

/-! ## How a run can end -/

/-- The definitions of a request parse to a schema. -/
def Parses (job : Job) (files : FileSystem) (request : Request) (schema : Schema) : Prop :=
  ∃ text, request.text files = .ok text ∧ Schema.parse job.table text = .ok schema

/-- The ways in which the run of a request can end: with a result, at some progress, and leaving
some files. -/
inductive Ending (job : Job) (files : FileSystem) :
    Request → Except Failure Answer → Progress → FileSystem → Prop
  /-- The definitions cannot be read. -/
  | unread {request : Request} {error : FileError} : request.text files = .error (.file error) →
      Ending job files request (.error (.file error)) {} files
  /-- A line is out of form. -/
  | malformed {request : Request} {text : String} {error : LineError} :
      request.text files = .ok text → Schema.parse job.table text = .error error →
      Ending job files request (.error (.definition error)) {} files
  /-- A record has an issue. -/
  | refused {request : Request} {schema : Schema} {error : SchemaError} :
      request.Parses job files schema → job.judge schema = .error error →
      Ending job files request (.error (.schema error)) (schema.reached [.validating]) files
  /-- The header was asked for and is given. -/
  | rendered {request : Request} {schema : Schema} :
      (∀ input output, request ≠ check input output ∧ request ≠ update input output) →
      request.Parses job files schema → job.judge schema = .ok () →
      Ending job files request (.ok (.rendered (job.rendered schema)))
        (schema.reached [.validating, .emitting, .done]) files
  /-- The file to be checked cannot be compared. -/
  | incomparable {input output : String} {schema : Schema} {error : FileError} :
      Parses job files (check input output) schema → job.judge schema = .ok () →
      Job.held files output (job.rendered schema).artifact = .error (.file error) →
      Ending job files (check input output) (.error (.file error))
        (schema.reached [.validating, .emitting]) files
  /-- The file was compared. -/
  | checked {input output : String} {schema : Schema} {current : Bool} :
      Parses job files (check input output) schema → job.judge schema = .ok () →
      Job.held files output (job.rendered schema).artifact = .ok current →
      Ending job files (check input output) (.ok (.checked current))
        (schema.reached [.validating, .emitting, .done]) files
  /-- The file to be updated cannot be compared, or not be replaced. -/
  | unwritten {input output : String} {schema : Schema} {error : FileError} :
      Parses job files (update input output) schema → job.judge schema = .ok () →
      Job.held files output (job.rendered schema).artifact = .error (.file error) ∨
        Job.held files output (job.rendered schema).artifact = .ok false ∧
        (files.replace output (Text.utf8 (job.rendered schema).artifact)).1 = .error error →
      Ending job files (update input output) (.error (.file error))
        (schema.reached [.validating, .emitting, .writing]) files
  /-- The file holds the header already. -/
  | unchanged {input output : String} {schema : Schema} :
      Parses job files (update input output) schema → job.judge schema = .ok () →
      Job.held files output (job.rendered schema).artifact = .ok true →
      Ending job files (update input output)
        (.ok (.updated (Job.summary (job.rendered schema) true)))
        (((schema.reached [.validating, .emitting, .writing]).report [.upToDate output]).advance
          .done) files
  /-- The file was replaced. -/
  | replaced {input output : String} {schema : Schema} {after : FileSystem} :
      Parses job files (update input output) schema → job.judge schema = .ok () →
      Job.held files output (job.rendered schema).artifact = .ok false →
      files.IsReplaced output (Text.utf8 (job.rendered schema).artifact) after →
      Ending job files (update input output)
        (.ok (.updated (Job.summary (job.rendered schema) false)))
        (((schema.reached [.validating, .emitting, .writing]).report
          [.wrote (Text.utf8 (job.rendered schema).artifact).length output]).advance .done) after

section Ready

variable {job : Job} {files : FileSystem} {request : Request} {schema : Schema}

theorem header_of_text_error {failure : Failure} (h : request.text files = .error failure) :
    request.header job files = .error failure := by
  rw [header, h]
  rfl

theorem header_of_parse_error {text : String} {error : LineError}
    (htext : request.text files = .ok text) (hparse : Schema.parse job.table text = .error error) :
    request.header job files = .error (.definition error) := by
  rw [header, htext]
  exact Job.result_of_parse_error hparse

theorem Parses.header_of_judge_error (h : request.Parses job files schema) {error : SchemaError}
    (hjudge : job.judge schema = .error error) :
    request.header job files = .error (.schema error) := by
  obtain ⟨text, htext, hparse⟩ := h
  rw [header, htext]
  exact Job.result_of_judge_error hparse hjudge

theorem Parses.header_of_judge_ok (h : request.Parses job files schema)
    (hjudge : job.judge schema = .ok ()) :
    request.header job files = .ok (job.rendered schema) := by
  obtain ⟨text, htext, hparse⟩ := h
  rw [header, htext]
  exact Job.result_of_ok hparse hjudge

/-- A request whose header is ready ends in one of the last ways. -/
theorem ending_finish (hparses : request.Parses job files schema)
    (hjudge : job.judge schema = .ok ()) :
    let outcome := request.finish (job.rendered schema) (schema.reached [.validating, .emitting])
      files
    Ending job files request outcome.1.1 outcome.1.2 outcome.2 := by
  intro outcome
  cases request with
  | render text => exact .rendered (by simp) hparses hjudge
  | renderFile input => exact .rendered (by simp) hparses hjudge
  | check input output =>
      simp only [outcome, finish]
      cases hheld : Job.held files output (job.rendered schema).artifact with
      | error failure =>
          obtain ⟨fault, -, -, rfl⟩ := Job.held_eq_error_iff.mp hheld
          exact .incomparable hparses hjudge hheld
      | ok current => exact .checked hparses hjudge hheld
  | update input output =>
      simp only [outcome, finish, Job.on_refresh]
      cases hheld : Job.held files output (job.rendered schema).artifact with
      | error failure =>
          obtain ⟨fault, -, -, rfl⟩ := Job.held_eq_error_iff.mp hheld
          exact .unwritten hparses hjudge (Or.inl hheld)
      | ok current =>
          cases current with
          | true => exact .unchanged hparses hjudge hheld
          | false =>
              rcases files.replace_cases output (Text.utf8 (job.rendered schema).artifact) with
                ⟨error, hreplace⟩ | ⟨target, mode, -, -, hreplace⟩
              · rw [hreplace]
                exact .unwritten hparses hjudge (Or.inr ⟨hheld, by rw [hreplace]⟩)
              · rw [hreplace]
                exact .replaced hparses hjudge hheld (FileSystem.isReplaced_of_replace hreplace)

end Ready

/-- **Every run ends in one of these ways.** -/
theorem ending (job : Job) (files : FileSystem) (request : Request) :
    let outcome := Run.on (request.run job) {} files
    Ending job files request outcome.1.1 outcome.1.2 outcome.2 := by
  intro outcome
  have hrun : outcome = _ := on_run job files request
  rw [hrun]
  -- the front of the run settles the first three endings, and `finish` the others
  cases htext : request.text files with
  | error failure =>
      obtain ⟨error, rfl⟩ := exists_of_text_error htext
      exact .unread htext
  | ok text =>
      dsimp only
      cases hparse : Schema.parse job.table text with
      | error error =>
          rw [Job.result_of_parse_error hparse, Job.progressAt, hparse]
          exact .malformed htext hparse
      | ok schema =>
          cases hjudge : job.judge schema with
          | error error =>
              rw [Job.result_of_judge_error hparse hjudge, Job.progressAt, hparse]
              simp only [hjudge]
              exact .refused ⟨text, htext, hparse⟩ hjudge
          | ok _ =>
              rw [Job.result_of_ok hparse hjudge, Job.progressAt, hparse]
              simp only [hjudge]
              exact ending_finish ⟨text, htext, hparse⟩ hjudge

/-- A run has replaced the file at a path by its header, of some number of bytes. -/
structure HasWritten (job : Job) (files : FileSystem) (request : Request) (after : FileSystem)
    (count : Nat) (path : String) : Prop where
  exists_input : ∃ input, request = update input path
  exists_header : ∃ header, request.header job files = .ok header ∧
    files.IsReplaced path (Text.utf8 header.artifact) after ∧
    count = (Text.utf8 header.artifact).length
  after_ne : after ≠ files

theorem HasWritten.not_self {job : Job} {files : FileSystem} {request : Request} {count : Nat}
    {path : String} : ¬ request.HasWritten job files files count path :=
  fun h => h.after_ne rfl

/-! ## What the reports of a run say -/

namespace Ending

variable {job : Job} {files after : FileSystem} {request : Request}
  {result : Except Failure Answer} {progress : Progress}

/-- **The stages of a run rise.** -/
theorem isOrdered (h : Ending job files request result progress after) : progress.IsOrdered := by
  cases h with
  | unread | malformed => exact Progress.isOrdered_start
  | refused | rendered | incomparable | checked | unwritten =>
      exact Schema.isOrdered_reached _ (by decide)
  | unchanged | replaced =>
      apply Progress.IsOrdered.advance
      · exact (Schema.isOrdered_reached _ (by decide)).report rfl
      · rw [Progress.stage_report, Schema.stage_reached]
        decide

theorem stage_eq_done_iff (h : Ending job files request result progress after) :
    progress.stage = .done ↔ ∃ answer, result = .ok answer := by
  cases h <;> simp

/-- A run goes through no stage where its definitions cannot be read or parsed. -/
theorem transitions_eq_nil_iff (h : Ending job files request result progress after) :
    transitions progress.events = [] ↔
      (∃ failure, request.text files = .error failure) ∨
      ∃ error, result = .error (.definition error) := by
  have hparsed : ∀ {schema}, request.Parses job files schema →
      ¬ ∃ failure, request.text files = .error failure := by
    rintro schema ⟨text, htext, -⟩ ⟨failure, hfailure⟩
    cases htext.symm.trans hfailure
  cases h with
  | unread htext => exact iff_of_true rfl (Or.inl ⟨_, htext⟩)
  | malformed => exact iff_of_true rfl (Or.inr ⟨_, rfl⟩)
  | refused hparses | rendered _ hparses | incomparable hparses | checked hparses
  | unwritten hparses | unchanged hparses | replaced hparses =>
      simp [hparsed hparses]

theorem transitions_eq_validating_iff (h : Ending job files request result progress after) :
    transitions progress.events = [(.parsing, .validating)] ↔
      ∃ error, result = .error (.schema error) := by
  cases h with
  | unread | malformed => simp [transitions]
  | _ => simp

/-- The last stage is `emitting` where a header is to be checked against a file that cannot be
read. -/
theorem stage_eq_emitting_iff (h : Ending job files request result progress after) :
    progress.stage = .emitting ↔
      ∃ input output header, request = check input output ∧
        request.header job files = .ok header ∧ files.IsUnreadable output := by
  cases h with
  | unread htext => simp [header_of_text_error htext]
  | malformed htext hparse => simp [header_of_parse_error htext hparse]
  | refused hparses hjudge => simp [hparses.header_of_judge_error hjudge]
  | rendered hother =>
      refine iff_of_false (by simp) ?_
      rintro ⟨input, output, header, hrequest, -⟩
      exact (hother input output).1 hrequest
  | incomparable hparses hjudge hheld =>
      exact iff_of_true (Schema.stage_reached _ _)
        ⟨_, _, _, rfl, hparses.header_of_judge_ok hjudge, Job.isUnreadable_of_held hheld⟩
  | checked hparses hjudge hheld =>
      refine iff_of_false (by simp) ?_
      rintro ⟨_, _, header, ⟨⟩, -, hunreadable⟩
      exact Job.not_isUnreadable_of_held hheld hunreadable
  | unwritten | unchanged | replaced => simp

/-- The last stage is `writing` where a file is to be updated with a header, and cannot be read, or
does not hold the header and cannot be replaced. -/
theorem stage_eq_writing_iff (h : Ending job files request result progress after) :
    progress.stage = .writing ↔
      ∃ input output header, request = update input output ∧
        request.header job files = .ok header ∧
        (files.IsUnreadable output ∨
          files.read output ≠ .ok (Text.utf8 header.artifact) ∧
          ∃ error, (files.replace output (Text.utf8 header.artifact)).1 = .error error) := by
  cases h with
  | unread htext => simp [header_of_text_error htext]
  | malformed htext hparse => simp [header_of_parse_error htext hparse]
  | refused hparses hjudge => simp [hparses.header_of_judge_error hjudge]
  | rendered hother =>
      refine iff_of_false (by simp) ?_
      rintro ⟨input, output, header, hrequest, -⟩
      exact (hother input output).2 hrequest
  | incomparable | checked => simp
  | unwritten hparses hjudge hfailed =>
      refine iff_of_true (Schema.stage_reached _ _)
        ⟨_, _, _, rfl, hparses.header_of_judge_ok hjudge, ?_⟩
      rcases hfailed with hheld | ⟨hheld, hreplace⟩
      · exact Or.inl (Job.isUnreadable_of_held hheld)
      · refine Or.inr ⟨fun hread => ?_, _, hreplace⟩
        cases hheld.symm.trans (Job.held_eq_ok_true_iff.mpr hread)
  | unchanged hparses hjudge hheld =>
      refine iff_of_false (by simp) ?_
      rintro ⟨_, _, header, ⟨⟩, hheader, hunreadable | ⟨hread, -⟩⟩
      · exact Job.not_isUnreadable_of_held hheld hunreadable
      · obtain rfl := Except.ok.inj (hheader.symm.trans (hparses.header_of_judge_ok hjudge))
        exact hread (Job.held_eq_ok_true_iff.mp hheld)
  | replaced hparses hjudge hheld hreplaced =>
      refine iff_of_false (by simp) ?_
      rintro ⟨_, _, header, ⟨⟩, hheader, hunreadable | ⟨-, error, hreplace⟩⟩
      · exact Job.not_isUnreadable_of_held hheld hunreadable
      · obtain rfl := Except.ok.inj (hheader.symm.trans (hparses.header_of_judge_ok hjudge))
        rw [hreplaced.replace_eq] at hreplace
        cases hreplace

/-- The warnings of a run are those of its schema, if it gets to one. -/
theorem warnings_eq (h : Ending job files request result progress after) :
    (warnings progress.events = [] ∧ ¬ ∃ schema, request.Parses job files schema) ∨
    ∃ schema, request.Parses job files schema ∧
      warnings progress.events = warnings schema.events := by
  cases h with
  | unread htext =>
      refine Or.inl ⟨rfl, ?_⟩
      rintro ⟨schema, text, htext', -⟩
      cases htext.symm.trans htext'
  | malformed htext hparse =>
      refine Or.inl ⟨rfl, ?_⟩
      rintro ⟨schema, text, htext', hparse'⟩
      obtain rfl := Except.ok.inj (htext.symm.trans htext')
      cases hparse.symm.trans hparse'
  | refused hparses | rendered _ hparses | incomparable hparses | checked hparses
  | unwritten hparses => exact Or.inr ⟨_, hparses, Schema.warnings_reached _ _⟩
  | unchanged hparses | replaced hparses =>
      refine Or.inr ⟨_, hparses, ?_⟩
      simp only [Progress.events_advance, Progress.events_report, warnings_append,
        Schema.warnings_reached, List.append_assoc]
      exact List.append_nil _

/-- **A warning tells the lines that are passed over.** -/
theorem warnings_eq_iff (h : Ending job files request result progress after) (count blank : Nat) :
    warnings progress.events = [(count, blank)] ↔
      ∃ text schema, request.text files = .ok text ∧
        Schema.parse job.table text = .ok schema ∧ PassedOver text count blank := by
  rcases h.warnings_eq with ⟨hnone, hparses⟩ | ⟨schema, ⟨text, htext, hparse⟩, hwarnings⟩
  · rw [hnone]
    refine iff_of_false (by simp) ?_
    rintro ⟨text, schema, htext, hparse, -⟩
    exact hparses ⟨schema, text, htext, hparse⟩
  · rw [hwarnings, Schema.warnings_events_eq_iff hparse]
    constructor
    · intro hpassed
      exact ⟨text, schema, htext, hparse, hpassed⟩
    · rintro ⟨text', -, htext', -, hpassed⟩
      obtain rfl := Except.ok.inj (htext.symm.trans htext')
      exact hpassed

theorem length_warnings_le (h : Ending job files request result progress after) :
    (warnings progress.events).length ≤ 1 := by
  rcases h.warnings_eq with ⟨hnone, -⟩ | ⟨schema, -, hwarnings⟩
  · rw [hnone]
    exact Nat.zero_le 1
  · rw [hwarnings]
    exact schema.length_warnings_events_le

/-- A run says that it wrote a file if and only if it did. -/
theorem wrote_mem_iff (h : Ending job files request result progress after) (count : Nat)
    (path : String) :
    .wrote count path ∈ progress.events ↔ request.HasWritten job files after count path := by
  rw [← mem_fileEvents (.wrote count path) rfl]
  -- all endings but the last leave the files as they were, so that nothing was written
  cases h with
  | unread | malformed => exact iff_of_false List.not_mem_nil HasWritten.not_self
  | refused | rendered | incomparable | checked | unwritten =>
      rw [Schema.fileEvents_reached]
      exact iff_of_false List.not_mem_nil HasWritten.not_self
  | unchanged =>
      rw [Schema.fileEvents_reached_report _ _ rfl]
      exact iff_of_false (by simp) HasWritten.not_self
  | replaced hparses hjudge hheld hreplaced =>
      rw [Schema.fileEvents_reached_report _ _ rfl, List.mem_singleton]
      have hheader := hparses.header_of_judge_ok hjudge
      constructor
      · rintro ⟨⟩
        exact ⟨⟨_, rfl⟩, ⟨_, hheader, hreplaced, rfl⟩, hreplaced.ne_of_held hheld⟩
      · rintro ⟨⟨_, ⟨⟩⟩, ⟨header, hheader', -, rfl⟩, -⟩
        obtain rfl := Except.ok.inj (hheader.symm.trans hheader')
        rfl

/-- A run says that a file is up to date if and only if it answers that it left it unchanged. -/
theorem upToDate_mem_iff (h : Ending job files request result progress after) (path : String) :
    .upToDate path ∈ progress.events ↔
      ∃ input summary, request = update input path ∧ result = .ok (.updated summary) ∧
        summary.unchanged = true := by
  rw [← mem_fileEvents (.upToDate path) rfl]
  cases h with
  | unread | malformed => simp [fileEvents]
  | refused | rendered | incomparable | checked | unwritten => simp
  | unchanged =>
      rw [Schema.fileEvents_reached_report _ _ rfl, List.mem_singleton]
      constructor
      · rintro ⟨⟩
        exact ⟨_, _, rfl, rfl, rfl⟩
      · rintro ⟨_, _, ⟨⟩, -⟩
        rfl
  | replaced =>
      rw [Schema.fileEvents_reached_report _ _ rfl]
      refine iff_of_false (by simp) ?_
      rintro ⟨_, _, -, ⟨⟩, hunchanged⟩
      cases hunchanged

end Ending

/-- **What a run reports is true.** The transitions lead from the first stage to the last one and
rise.  The last stage is `done` if and only if the run succeeds; there is no transition exactly
where the definitions cannot be read or parsed, the only one is from `parsing` to `validating`
exactly where a record has an issue, and the last stage is `emitting` or `writing` exactly where the
header file cannot be compared, or not be written.  There is at most one warning, no log leaves it
out, and it tells the lines of the text that are passed over.  A file is said to be written if and
only if this run has replaced it, and to be up to date if and only if it was left unchanged.
Directories are assumed to be open to their owner. -/
theorem reports_faithful (job : Job) (files : FileSystem) (request : Request) :
    let outcome := Run.on (request.run job) {} files
    let result := outcome.1.1
    let stage := outcome.1.2.stage
    let events := outcome.1.2.events
    Stage.Climbs .parsing (transitions events) stage ∧
    (stage = .done ↔ ∃ answer, result = .ok answer) ∧
    (transitions events = [] ↔
      (∃ failure, request.text files = .error failure) ∨
      ∃ error, result = .error (.definition error)) ∧
    (transitions events = [(.parsing, .validating)] ↔
      ∃ error, result = .error (.schema error)) ∧
    (stage = .emitting ↔
      ∃ input output header, request = check input output ∧
        request.header job files = .ok header ∧ files.IsUnreadable output) ∧
    (stage = .writing ↔
      ∃ input output header, request = update input output ∧
        request.header job files = .ok header ∧
        (files.IsUnreadable output ∨
          files.read output ≠ .ok (Text.utf8 header.artifact) ∧
          ∃ error, (files.replace output (Text.utf8 header.artifact)).1 = .error error)) ∧
    (∀ count blank, warnings events = [(count, blank)] ↔
      ∃ text schema, request.text files = .ok text ∧
        Schema.parse job.table text = .ok schema ∧ PassedOver text count blank) ∧
    (warnings events).length ≤ 1 ∧
    (∀ invocation : Invocation, warnings (invocation.level.shown events) = warnings events) ∧
    (∀ count path, .wrote count path ∈ events ↔
      request.HasWritten job files outcome.2 count path) ∧
    ∀ path, .upToDate path ∈ events ↔
      ∃ input summary, request = update input path ∧ result = .ok (.updated summary) ∧
        summary.unchanged = true := by
  intro outcome result stage events
  have hending : Ending job files request result outcome.1.2 outcome.2 := ending job files request
  exact ⟨hending.isOrdered, hending.stage_eq_done_iff, hending.transitions_eq_nil_iff,
    hending.transitions_eq_validating_iff, hending.stage_eq_emitting_iff,
    hending.stage_eq_writing_iff, hending.warnings_eq_iff, hending.length_warnings_le,
    fun invocation => warnings_shown invocation events, hending.wrote_mem_iff,
    hending.upToDate_mem_iff⟩

end Request

end RecordHeader
