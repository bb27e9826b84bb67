import RecordHeader.Proofs.Effects
import Mathlib.Tactic

set_option autoImplicit false

/-! # Rendering, checking and updating agree

Three runs start from a definition file: one renders its header, one says whether a header file
is up to date, and one brings that file up to date.  Each of them reads the definitions,
renders them and, but for the first, looks at the header file.  `Job.renderedAt` is what the
common part gives, and `result_renderFile`, `result_isCurrent` and `result_update` say that the
three answers are this one, continued by the answers of the looks and the write that follow.

`Job.Refuses` says when the common part fails, by what is in the file.  `runs_agree` puts the
answers side by side.
-/

namespace RecordHeader.Job

/-! ## Definitions that make no header -/

/-- Why the definitions in a file make no header. -/
inductive Refuses (job : Job) (files : FileSystem) (input : String) : Failure → Prop
  /-- The file cannot be read. -/
  | unreadable {fault : Fault} : files.read input = .error fault →
      Refuses job files input (.file { path := input, fault })
  /-- Its bytes are the UTF-8 form of no text. -/
  | noText {bytes : Bytes} : files.read input = .ok bytes → (∀ text, Text.utf8 text ≠ bytes) →
      Refuses job files input (.file { path := input, fault := .invalidUtf8 })
  /-- A line of the text is out of form. -/
  | malformed {text : String} {error : LineError} : files.read input = .ok (Text.utf8 text) →
      Schema.parse job.table text = .error error → Refuses job files input (.definition error)
  /-- A record has an issue. -/
  | invalid {text : String} {schema : Schema} {error : SchemaError} :
      files.read input = .ok (Text.utf8 text) → Schema.parse job.table text = .ok schema →
      schema.validate = .error error → Refuses job files input (.schema error)
  /-- The records have none, but one takes the name of the enclosing struct. -/
  | collision {text : String} {schema : Schema} {error : SchemaError} :
      files.read input = .ok (Text.utf8 text) → Schema.parse job.table text = .ok schema →
      schema.validate = .ok () →
      schema.validateAggregate job.settings.aggregate = .error error →
      Refuses job files input (.schema error)

theorem judge_of_validate_error {job : Job} {schema : Schema} {error : SchemaError}
    (h : schema.validate = .error error) : job.judge schema = .error error := by
  rw [judge, h]
  rfl

theorem judge_of_validate_ok {job : Job} {schema : Schema} (h : schema.validate = .ok ()) :
    job.judge schema = schema.validateAggregate job.settings.aggregate := by
  rw [judge, h]
  rfl

/-- What the definitions in a file come to. -/
def renderedAt (job : Job) (files : FileSystem) (input : String) : Except Failure Rendered := do
  let text ← textAt files input
  job.result text

theorem textAt_of_read {files : FileSystem} {input text : String}
    (h : files.read input = .ok (Text.utf8 text)) : textAt files input = .ok text := by
  rw [textAt, h]
  simp

theorem renderedAt_of_read {job : Job} {files : FileSystem} {input text : String}
    (h : files.read input = .ok (Text.utf8 text)) :
    job.renderedAt files input = job.result text := by
  rw [renderedAt, textAt_of_read h]
  rfl

/-- A file is refused for the reasons that `Refuses` lists. -/
theorem renderedAt_of_refuses {job : Job} {files : FileSystem} {input : String}
    {failure : Failure} (h : job.Refuses files input failure) :
    job.renderedAt files input = .error failure := by
  cases h with
  | unreadable hread =>
      rw [renderedAt, textAt, hread]
      rfl
  | noText hread hnone =>
      rw [renderedAt, textAt, hread]
      simp only [Text.ofUtf8?_eq_none_iff.mpr hnone]
      rfl
  | malformed hread hparse => rw [renderedAt_of_read hread, result_of_parse_error hparse]
  | invalid hread hparse hvalidate =>
      rw [renderedAt_of_read hread,
        result_of_judge_error hparse (judge_of_validate_error hvalidate)]
  | collision hread hparse hvalidate haggregate =>
      rw [renderedAt_of_read hread,
        result_of_judge_error hparse ((judge_of_validate_ok hvalidate).trans haggregate)]

/-- A file is refused, or it holds a text whose header is what it comes to. -/
theorem refuses_or_renders (job : Job) (files : FileSystem) (input : String) :
    (∃ failure, job.Refuses files input failure) ∨
    ∃ text rendered, files.read input = .ok (Text.utf8 text) ∧ job.result text = .ok rendered ∧
      job.renderedAt files input = .ok rendered := by
  cases hread : files.read input with
  | error fault => exact Or.inl ⟨_, .unreadable hread⟩
  | ok bytes =>
      cases htext : Text.ofUtf8? bytes with
      | none => exact Or.inl ⟨_, .noText hread (Text.ofUtf8?_eq_none_iff.mp htext)⟩
      | some text =>
          obtain rfl := Text.ofUtf8?_eq_some_iff.mp htext
          cases hparse : Schema.parse job.table text with
          | error error => exact Or.inl ⟨_, .malformed hread hparse⟩
          | ok schema =>
              cases hvalidate : schema.validate with
              | error error => exact Or.inl ⟨_, .invalid hread hparse hvalidate⟩
              | ok _ =>
                  have hjudge : job.judge schema = _ := judge_of_validate_ok hvalidate
                  cases haggregate : schema.validateAggregate job.settings.aggregate with
                  | error error => exact Or.inl ⟨_, .collision hread hparse hvalidate haggregate⟩
                  | ok _ =>
                      have hresult := result_of_ok hparse (hjudge.trans haggregate)
                      exact Or.inr ⟨text, _, rfl, hresult,
                        (renderedAt_of_read hread).trans hresult⟩

/-- **What a file comes to is a failure exactly when the file is refused.** -/
theorem renderedAt_eq_error_iff {job : Job} {files : FileSystem} {input : String}
    {failure : Failure} :
    job.renderedAt files input = .error failure ↔ job.Refuses files input failure := by
  constructor
  · intro h
    rcases refuses_or_renders job files input with ⟨other, hother⟩ | ⟨_, rendered, -, -, hok⟩
    · obtain rfl := Except.error.inj ((renderedAt_of_refuses hother).symm.trans h)
      exact hother
    · rw [hok] at h
      cases h
  · exact renderedAt_of_refuses

/-- What a file comes to otherwise is the header of the text that it holds. -/
theorem exists_text_of_renderedAt {job : Job} {files : FileSystem} {input : String}
    {rendered : Rendered} (h : job.renderedAt files input = .ok rendered) :
    ∃ text, files.read input = .ok (Text.utf8 text) ∧ job.result text = .ok rendered := by
  rcases refuses_or_renders job files input with
    ⟨failure, hrefuses⟩ | ⟨text, other, hread, hresult, hok⟩
  · rw [renderedAt_of_refuses hrefuses] at h
    cases h
  · obtain rfl := Except.ok.inj (hok.symm.trans h)
    exact ⟨text, hread, hresult⟩

/-! ## The answers of the runs -/

section Answers

variable (job : Job) (input output : String) (progress : Progress) (files : FileSystem)

theorem result_renderFile :
    (Run.on (job.renderFile input) progress files).1.1 = job.renderedAt files input := by
  rw [on_renderFile, renderedAt]
  cases textAt files input with
  | error failure => rfl
  | ok text =>
      show _ = job.result text
      cases hresult : job.result text <;> simp only [hresult]

theorem result_isCurrent :
    (Run.on (job.isCurrent input output) progress files).1.1 =
      (job.renderedAt files input >>= fun rendered => held files output rendered.artifact) := by
  rw [on_isCurrent, renderedAt]
  cases textAt files input with
  | error failure => rfl
  | ok text =>
      show _ = (job.result text >>= fun rendered => held files output rendered.artifact)
      cases hresult : job.result text with
      | error failure => simp only [hresult]; rfl
      | ok rendered =>
          show _ = held files output rendered.artifact
          simp only [hresult]
          cases held files output rendered.artifact <;> rfl

/-- A store answers what the replacement answers. -/
theorem result_store (text : String) :
    (Run.on (store output text) progress files).1.1 =
      (files.replace output (Text.utf8 text)).1.mapError .file := by
  unfold store
  simp only [Run.on_bind, Run.on_replace, Run.on_ofExcept]
  cases (files.replace output (Text.utf8 text)).1 <;> rfl

/-- A refresh answers that the text is held, or what a store of the text answers. -/
theorem result_refresh (text : String) (progress' : Progress) :
    (Run.on (refresh output text) progress files).1.1 =
      (held files output text >>= fun current =>
        if current then .ok true
        else (Run.on (store output text) progress' files).1.1.map fun _ => false) := by
  rw [on_refresh, result_store]
  cases held files output text with
  | error failure => rfl
  | ok current =>
      cases current with
      | true => rfl
      | false =>
          rcases files.replace output (Text.utf8 text) with ⟨answer, after⟩
          cases answer <;> rfl

theorem result_update :
    (Run.on (job.update input output) progress files).1.1 =
      (job.renderedAt files input >>= fun rendered =>
        (Run.on (refresh output rendered.artifact) progress files).1.1.map
          (summary rendered)) := by
  rw [on_update, renderedAt]
  cases textAt files input with
  | error failure => rfl
  | ok text =>
      show _ = (job.result text >>= fun rendered =>
        (Run.on (refresh output rendered.artifact) progress files).1.1.map (summary rendered))
      cases hresult : job.result text with
      | error failure => simp only [hresult]; rfl
      | ok rendered =>
          -- the stage that a refresh starts from does not change its answer
          have hstage := result_refresh output progress files rendered.artifact progress
          rw [← result_refresh output ((job.progressAt text progress).advance .writing) files
            rendered.artifact progress] at hstage
          show _ = (Run.on (refresh output rendered.artifact) progress files).1.1.map
            (summary rendered)
          rw [hstage]
          simp only [hresult]
          rcases Run.on (refresh output rendered.artifact)
            ((job.progressAt text progress).advance .writing) files with ⟨⟨answer, reached⟩, after⟩
          cases answer <;> rfl

end Answers

/-! ## Agreement -/

theorem held_eq_ok_true_iff {files : FileSystem} {path text : String} :
    held files path text = .ok true ↔ files.read path = .ok (Text.utf8 text) := by
  constructor
  · exact read_of_held
  · intro h
    rw [held, h]
    simp

theorem held_of_read_error {files : FileSystem} {path text : String} {fault : Fault}
    (h : files.read path = .error fault) (hfault : fault ≠ .notFound) :
    held files path text = .error (.file { path, fault }) := by
  unfold held
  rw [h]
  cases fault with
  | notFound => exact absurd rfl hfault
  | _ => rfl

/-- Where a file can be compared, the comparison says yes or no. -/
theorem exists_held_eq_ok {files : FileSystem} {path : String}
    (h : ∀ fault, files.read path = .error fault → fault = .notFound) (text : String) :
    ∃ current, held files path text = .ok current := by
  unfold held
  cases hread : files.read path with
  | ok bytes => exact ⟨_, rfl⟩
  | error fault =>
      obtain rfl := h fault hread
      exact ⟨_, rfl⟩

theorem result_isCurrent_of_renderedAt {job : Job} {files : FileSystem} {input : String}
    {rendered : Rendered} (h : job.renderedAt files input = .ok rendered) (output : String)
    (progress : Progress) :
    (Run.on (job.isCurrent input output) progress files).1.1
      = held files output rendered.artifact := by
  rw [result_isCurrent, h]
  rfl

theorem result_update_of_renderedAt {job : Job} {files : FileSystem} {input : String}
    {rendered : Rendered} (h : job.renderedAt files input = .ok rendered) (output : String)
    (progress : Progress) :
    (Run.on (job.update input output) progress files).1.1 =
      (held files output rendered.artifact >>= fun current =>
        if current then .ok (summary rendered true)
        else (Run.on (store output rendered.artifact) progress files).1.1.map
          fun _ => summary rendered false) := by
  rw [result_update, h]
  show (Run.on (refresh output rendered.artifact) progress files).1.1.map (summary rendered) = _
  rw [result_refresh output progress files rendered.artifact progress]
  cases held files output rendered.artifact with
  | error failure => rfl
  | ok current =>
      cases current with
      | true => rfl
      | false => cases (Run.on (store output rendered.artifact) progress files).1.1 <;> rfl

/-- Every summary counts what was rendered. -/
theorem summary_of_update {job : Job} {files : FileSystem} {input output : String}
    {rendered : Rendered} {progress : Progress} {found : Summary}
    (h : job.renderedAt files input = .ok rendered)
    (hfound : (Run.on (job.update input output) progress files).1.1 = .ok found) :
    found = summary rendered found.unchanged := by
  rw [result_update, h] at hfound
  have hmap : (Run.on (refresh output rendered.artifact) progress files).1.1.map
      (summary rendered) = .ok found := hfound
  obtain ⟨unchanged, -, rfl⟩ := exists_of_map_ok hmap
  rfl

/-- **Rendering, checking and updating agree on all files.** They refuse the same definitions,
for the same reason, which is the one that the file gives.  On definitions that make a header, an
unreadable header file fails the check and the update alike.  Otherwise the check says `true` if
and only if the header file holds the bytes of that header, and exactly then the update leaves it
unchanged; the check says `false` if and only if the update writes, which gives a new file or the
failure of the write.  The summary of an update counts what was rendered.  Directories are assumed
to be open to their owner. -/
theorem runs_agree (job : Job) (files : FileSystem) (input output : String) :
    let render := (Run.on (job.renderFile input) {} files).1.1
    let check := (Run.on (job.isCurrent input output) {} files).1.1
    let update := (Run.on (job.update input output) {} files).1.1
    (∀ failure, render = .error failure ↔ job.Refuses files input failure) ∧
    (∀ failure, job.Refuses files input failure →
      check = .error failure ∧ update = .error failure) ∧
    ∀ rendered, render = .ok rendered →
      (∃ text, files.read input = .ok (Text.utf8 text) ∧ job.result text = .ok rendered) ∧
      (∀ fault, files.read output = .error fault → fault ≠ .notFound →
        check = .error (.file { path := output, fault }) ∧
        update = .error (.file { path := output, fault })) ∧
      ((∀ fault, files.read output = .error fault → fault = .notFound) →
        (check = .ok true ∨ check = .ok false) ∧
        (check = .ok true ↔ files.read output = .ok (Text.utf8 rendered.artifact)) ∧
        (check = .ok true ↔ ∃ summary, update = .ok summary ∧ summary.unchanged = true) ∧
        (check = .ok false ↔
          (∃ summary, update = .ok summary ∧ summary.unchanged = false) ∨
          ∃ failure, update = .error failure ∧
            (Run.on (store output rendered.artifact) {} files).1.1 = .error failure)) ∧
      ∀ summary, update = .ok summary →
        summary.records = rendered.records ∧ summary.fields = rendered.fields ∧
        summary.bytes = (Text.utf8 rendered.artifact).length := by
  intro render check update
  have hrender : render = job.renderedAt files input := result_renderFile job input {} files
  refine ⟨?_, ?_, ?_⟩
  · intro failure
    rw [hrender]
    exact renderedAt_eq_error_iff
  · intro failure hrefuses
    have herror := renderedAt_of_refuses hrefuses
    constructor
    · show (Run.on (job.isCurrent input output) {} files).1.1 = _
      rw [result_isCurrent, herror]
      rfl
    · show (Run.on (job.update input output) {} files).1.1 = _
      rw [result_update, herror]
      rfl
  · intro rendered hok
    rw [hrender] at hok
    have hcheck : check = held files output rendered.artifact :=
      result_isCurrent_of_renderedAt hok output {}
    have hupdate : update = _ := result_update_of_renderedAt hok output {}
    refine ⟨exists_text_of_renderedAt hok, ?_, ?_, ?_⟩
    · intro fault hread hfault
      have hheld : held files output rendered.artifact = _ := held_of_read_error hread hfault
      constructor
      · rw [hcheck, hheld]
      · rw [hupdate, hheld]
        rfl
    · intro hreadable
      obtain ⟨current, hcurrent⟩ := exists_held_eq_ok hreadable rendered.artifact
      rw [hcheck, hupdate, ← held_eq_ok_true_iff, hcurrent]
      cases current with
      | true => simp [bind, Except.bind, summary]
      | false =>
          simp only [bind, Except.bind]
          cases hstore : (Run.on (store output rendered.artifact) {} files).1.1 with
          | ok _ => simp [Except.map, summary]
          | error failure => simp [Except.map]
    · intro found hfound
      have hsummary : found = summary rendered found.unchanged := summary_of_update hok hfound
      rw [hsummary]
      exact ⟨rfl, rfl, rfl⟩

end RecordHeader.Job
