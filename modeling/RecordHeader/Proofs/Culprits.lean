import RecordHeader.Proofs.Agreement
import RecordHeader.Proofs.Parsing
import RecordHeader.Proofs.Validation
import Mathlib.Tactic

set_option autoImplicit false

/-! # Errors point at their cause

An error in the definitions names a line and some word of it.  `TokensAt` says on the text alone
which words stand in a line, and that the line is one of those that count.  `LineFault.Blames` and
`SchemaIssue.Blames` say for each kind of error where in its line the named word must stand, and
`Failure.PointsAtCulprit` puts them together.

A fault of one line is found in that line (`blames_of_hasFault`).  An issue of a record is first
stated of the declaration that the record comes from (`blames_of_hasIssue`); `exists_tokensAt` leads
from the record back to the line that declares it.
-/

namespace RecordHeader

/-! ## Lines by their number -/

/-- Line number `number` of a text, counted from one, and all lines before it are not blank, and
its words are `tokens`. -/
inductive TokensAt (text : String) (number : Nat) (tokens : List String) : Prop
  | intro {before rest : List (List Char)} {line : List Char} :
      Text.LinesOf text.toList (before ++ line :: rest) →
      (∀ earlier ∈ before, Text.isBlank earlier = false) → Text.isBlank line = false →
      number = before.length + 1 → Text.WordsOf line (tokens.map String.toList) →
      TokensAt text number tokens

/-- A token is two sides around its only colon. -/
structure HasSides (token name type : String) : Prop where
  token_eq : token = name ++ ":" ++ type
  name_not_mem : ':' ∉ name.toList
  type_not_mem : ':' ∉ type.toList

theorem getElem?_definitionLines_iff {lines : List (List Char)} {line : List Char} {i : Nat} :
    (definitionLines lines)[i]? = some line ↔
      ∃ before rest, lines = before ++ line :: rest ∧
        (∀ earlier ∈ before, Text.isBlank earlier = false) ∧ Text.isBlank line = false ∧
        i = before.length := by
  constructor
  · intro h
    obtain ⟨hi, hline⟩ := List.getElem?_eq_some_iff.mp h
    have hcounts : ∀ other ∈ definitionLines lines, Text.isBlank other = false := by
      intro other hother
      simpa using List.all_eq_true.mp List.all_takeWhile other hother
    have hsplit : definitionLines lines
        = (definitionLines lines).take i ++ line :: (definitionLines lines).drop (i + 1) := by
      rw [← hline, List.getElem_cons_drop, List.take_append_drop]
    refine ⟨(definitionLines lines).take i, (definitionLines lines).drop (i + 1) ++
      lines.dropWhile (fun line => !Text.isBlank line), ?_, ?_, ?_, ?_⟩
    · calc lines
          = definitionLines lines ++ lines.dropWhile (fun line => !Text.isBlank line) :=
            List.takeWhile_append_dropWhile.symm
        _ = _ := by
            conv_lhs => rw [hsplit]
            simp
    · intro earlier hearlier
      exact hcounts earlier (List.mem_of_mem_take hearlier)
    · exact hcounts line (hline ▸ List.getElem_mem hi)
    · rw [List.length_take]
      omega
  · rintro ⟨before, rest, rfl, hbefore, hline, rfl⟩
    rw [definitionLines_append hbefore, definitionLines_of_not_isBlank hline]
    simp

theorem tokensAt_iff {text : String} {number : Nat} {tokens : List String} :
    TokensAt text number tokens ↔
      ∃ i line, (definitionLines (Text.lines text.toList))[i]? = some line ∧ number = i + 1 ∧
        Text.WordsOf line (tokens.map String.toList) := by
  constructor
  · rintro ⟨hlines, hbefore, hline, rfl, hwords⟩
    have hcut := Text.lines_of_linesOf hlines
    exact ⟨_, _, getElem?_definitionLines_iff.mpr ⟨_, _, hcut, hbefore, hline, rfl⟩, rfl, hwords⟩
  · rintro ⟨i, line, hi, rfl, hwords⟩
    obtain ⟨before, rest, hlines, hbefore, hline, rfl⟩ := getElem?_definitionLines_iff.mp hi
    exact .intro (Text.linesOf_iff.mpr hlines) hbefore hline rfl hwords

namespace Declaration

/-- The word of a field, as a text. -/
def fieldToken (field : String × String) : String :=
  field.1 ++ ":" ++ field.2

/-- The words of a declaration after the name, as texts. -/
def fieldTokens (declaration : Declaration) : List String :=
  declaration.fields.map fieldToken

theorem map_toList_tokens (declaration : Declaration) :
    (declaration.name :: declaration.fieldTokens).map String.toList = declaration.words := by
  have hfield : ∀ field, (fieldToken field).toList = fieldWord field := by
    intro field
    simp [fieldToken, fieldWord]
  simp [fieldTokens, words, hfield]

theorem hasSides_fieldToken {field : String × String} (h : IsField field) :
    HasSides (fieldToken field) field.1 field.2 where
  token_eq := rfl
  name_not_mem := Name.not_mem_of_isPart_eq_false isPart_colon h.1
  type_not_mem := Name.not_mem_of_isPart_eq_false isPart_colon h.2

end Declaration

/-! ## What each error names -/

/-- Where the word that a fault names stands in a line, whose first word is `name` and whose other
words are `rest`. -/
def LineFault.Blames (name : String) (rest : List String) (token : String) : LineFault → Prop
  | .malformedField =>
    token ∈ rest ∧ ∀ side type, HasSides token side type → side = "" ∨ type = ""
  | .invalidIdentifier =>
    (token = name ∧ Name.isIdentifier name = false) ∨
    (token ∈ rest ∧ ∃ side type, HasSides token side type ∧ Name.isIdentifier side = false)
  | .invalidTypeName =>
    token ∈ rest ∧ ∃ side type, HasSides token side type ∧ Name.isIdentifier type = false

/-- Where the words that an issue names stand in line number `line` of a text, whose first word is
`name` and whose other words are `rest`, and in an earlier line if the issue names one. -/
def SchemaIssue.Blames (job : Job) (text : String) (line : Nat) (name : String)
    (rest : List String) : SchemaIssue → Prop
  | .duplicateRecord record firstLine =>
    record = name ∧ firstLine < line ∧ (∃ others, TokensAt text firstLine (name :: others)) ∧
    ∀ earlier < firstLine, ∀ others, ¬ TokensAt text earlier (name :: others)
  | .emptyRecord record => record = name ∧ rest = []
  | .duplicateField record field =>
    record = name ∧ ∃ first second type type', HasSides first field type ∧
      HasSides second field type' ∧ [first, second].Sublist rest
  | .reservedWord word .recordName => word = name ∧ word ∈ Name.reservedWords
  | .reservedWord word .fieldName =>
    word ∈ Name.reservedWords ∧ ∃ token ∈ rest, ∃ type, HasSides token word type
  | .reservedWord word .fieldType =>
    (job.table.resolve word).storage ∈ Name.reservedWords ∧
    (job.table.resolve word).storage ∉ Name.builtinTypes ∧
    ∃ token ∈ rest, ∃ side, HasSides token side word
  | .reservedWord _ (.described _) => False
  | .aggregateCollision record => record = name ∧ record = job.settings.aggregate

/-- A failure names a line of the definitions and a word that stands in it. -/
def Failure.PointsAtCulprit (job : Job) (text : String) : Failure → Prop
  | .definition error => ∃ name rest, TokensAt text error.line (name :: rest) ∧
      error.fault.Blames name rest error.token
  | .schema error => ∃ name rest, TokensAt text error.line (name :: rest) ∧
      error.issue.Blames job text error.line name rest
  | .file _ => False

/-! ## Faults of a line -/

theorem hasSides_ofList {name type : List Char} (hname : ':' ∉ name) (htype : ':' ∉ type) :
    HasSides (String.ofList (name ++ ':' :: type)) (String.ofList name) (String.ofList type) where
  token_eq := by
    rw [← String.toList_inj]
    simp
  name_not_mem := by simpa using hname
  type_not_mem := by simpa using htype

/-- A word of a field that is out of form, among the words behind the first. -/
theorem blames_of_fieldFault {word : List Char} {fault : LineFault} (h : FieldFault word fault)
    (name : String) {rest : List String} (hmem : String.ofList word ∈ rest) :
    fault.Blames name rest (String.ofList word) := by
  cases h with
  | malformed hform =>
      refine ⟨hmem, ?_⟩
      intro side type hsides
      have hword : word = side.toList ++ ':' :: type.toList := by
        have htoken := congrArg String.toList hsides.token_eq
        simpa using htoken
      subst hword
      -- there is one colon, so it stands at an edge of the word
      have hcount := Declaration.count_colon hsides.name_not_mem hsides.type_not_mem
      have hedge := hform.resolve_left (not_not_intro hcount)
      have hempty := Declaration.side_isEmpty hsides.name_not_mem hsides.type_not_mem hedge
      simpa using hempty
  | name _ _ hname htype hbad =>
      refine Or.inr ⟨hmem, _, _, hasSides_ofList hname htype, ?_⟩
      simpa [Name.isIdentifier] using hbad
  | type _ htype hgood hbad =>
      have hname := Name.not_mem_of_isPart_eq_false Declaration.isPart_colon hgood
      refine ⟨hmem, _, _, hasSides_ofList hname htype, ?_⟩
      simpa [Name.isIdentifier] using hbad

/-- The first word of a line that is out of form stands where its fault says. -/
theorem blames_of_hasFault {line : List Char} {token : String} {fault : LineFault}
    (h : HasFault line token fault) :
    ∃ name rest, Text.WordsOf line ((name :: rest).map String.toList) ∧
      fault.Blames name rest token := by
  cases h with
  | @recordName name rest hwords hname =>
      refine ⟨String.ofList name, rest.map String.ofList, ?_, Or.inl ⟨rfl, ?_⟩⟩
      · simpa using hwords
      · simpa [Name.isIdentifier] using hname
  | @field word rest front _ hwords hfront hfault =>
      refine ⟨front.name, front.fieldTokens ++ String.ofList word :: rest.map String.ofList, ?_,
        blames_of_fieldFault hfault _ (by simp)⟩
      have htokens := front.map_toList_tokens
      rw [← List.cons_append, List.map_append, htokens]
      simpa using hwords

/-! ## Issues of a record -/

section Issues

variable {job : Job} {text : String} {schema : Schema}

/-- A record comes from the line with its number. -/
theorem exists_tokensAt (hparse : Schema.parse job.table text = .ok schema) {i : Nat}
    {record : Record} (hrecord : schema.records[i]? = some record) :
    ∃ declaration : Declaration, record = declaration.toRecord job.table (i + 1) ∧
      declaration.IsWellNamed ∧
      TokensAt text (i + 1) (declaration.name :: declaration.fieldTokens) := by
  obtain ⟨line, declaration, hline, hdeclared, rfl⟩ :=
    Schema.exists_standsIn_of_parse hparse hrecord
  refine ⟨declaration, rfl, hdeclared.2, tokensAt_iff.mpr ⟨i, line, hline, rfl, ?_⟩⟩
  rw [declaration.map_toList_tokens]
  exact hdeclared.1

/-- A line that counts has a record, which takes the line's first word as its name. -/
theorem exists_record_of_tokensAt (hparse : Schema.parse job.table text = .ok schema) {number : Nat}
    {name : String} {others : List String} (h : TokensAt text number (name :: others)) :
    ∃ i record, number = i + 1 ∧ schema.records[i]? = some record ∧ record.name = name := by
  obtain ⟨i, line, hline, rfl, hwords⟩ := tokensAt_iff.mp h
  have hof := Schema.isOf_of_ofLines hparse
  obtain ⟨declaration, ⟨hdeclared, -⟩, hfound⟩ := hof.record_eq i line hline
  refine ⟨i, _, rfl, hfound, ?_⟩
  have hsame := (Text.words_of_wordsOf hdeclared).symm.trans (Text.words_of_wordsOf hwords)
  have hname : declaration.name.toList = name.toList := (List.cons.inj hsame).1
  exact String.toList_inj.mp hname

/-- The issue of a field is named by the word that declares it. -/
theorem blames_of_field_hasIssue {declaration : Declaration} (hnamed : declaration.IsWellNamed)
    {line : Nat} {issue : SchemaIssue}
    (h : IsFirstIssue (Field.HasIssue declaration.name)
      (declaration.toRecord job.table line).fields issue) (number : Nat) :
    issue.Blames job text number declaration.name declaration.fieldTokens := by
  obtain ⟨k, found, hfound, -, hissue⟩ := h
  -- the field of the record at an index is that of the declaration
  have hfields : (declaration.toRecord job.table line).fields
      = declaration.fields.map fun field => Field.ofDeclared job.table field.1 field.2 := rfl
  rw [hfields, List.getElem?_map] at hfound
  obtain ⟨field, hfield, rfl⟩ := Option.map_eq_some_iff.mp hfound
  have hmem : field ∈ declaration.fields := List.mem_of_getElem? hfield
  have hsides := Declaration.hasSides_fieldToken (hnamed.2 field hmem)
  have htoken : Declaration.fieldToken field ∈ declaration.fieldTokens := List.mem_map_of_mem hmem
  generalize hspelled : Field.ofDeclared job.table field.1 field.2 = spelled at hissue
  have hname : spelled.name = field.1 := by rw [← hspelled]; rfl
  have hdeclared : spelled.declared = field.2 := by rw [← hspelled]; rfl
  have hstorage : spelled.spelling = job.table.resolve field.2 := by rw [← hspelled]; rfl
  cases hissue with
  | name hreserved =>
      rw [hname] at hreserved ⊢
      exact ⟨hreserved, _, htoken, _, hsides⟩
  | type _ hreserved hbuiltin =>
      rw [hstorage] at hreserved hbuiltin
      rw [hdeclared]
      exact ⟨hreserved, hbuiltin, _, htoken, _, hsides⟩
  | duplicate _ _ hrepeated =>
      obtain ⟨other, hother, hsame⟩ := hrepeated
      rw [hfields, ← List.map_take] at hother
      obtain ⟨earlier, hearlier, rfl⟩ := List.mem_map.mp hother
      have hsides' := Declaration.hasSides_fieldToken
        (hnamed.2 earlier (List.mem_of_mem_take hearlier))
      have hearlierName : earlier.1 = field.1 := hsame.trans hname
      rw [hearlierName] at hsides'
      rw [hname]
      refine ⟨rfl, _, _, _, _, hsides', hsides, ?_⟩
      -- the earlier field stands in front of the index, and the other one behind it
      have hlater : field ∈ declaration.fields.drop k := by
        obtain ⟨hk, rfl⟩ := List.getElem?_eq_some_iff.mp hfield
        exact List.mem_drop_iff_getElem.mpr ⟨0, by omega, by simp⟩
      have hpair :
          [earlier, field].Sublist (declaration.fields.take k ++ declaration.fields.drop k) :=
        (List.singleton_sublist.mpr hearlier).append (List.singleton_sublist.mpr hlater)
      rw [List.take_append_drop] at hpair
      exact hpair.map Declaration.fieldToken

/-- The issue of a record is named by the words of the line that declares it. -/
theorem blames_of_hasIssue (hparse : Schema.parse job.table text = .ok schema) {i : Nat}
    {declaration : Declaration} (hnamed : declaration.IsWellNamed) {issue : SchemaIssue}
    (h : (declaration.toRecord job.table (i + 1)).HasIssue (schema.records.take i) issue) :
    issue.Blames job text (i + 1) declaration.name declaration.fieldTokens := by
  generalize hfound : declaration.toRecord job.table (i + 1) = record at h
  have hname : record.name = declaration.name := by rw [← hfound]; rfl
  cases h with
  | @duplicate j first hfirst hsame hbefore =>
      have hj : j < i := by
        have hshort := (List.getElem?_eq_some_iff.mp hfirst).1
        rw [List.length_take] at hshort
        omega
      have hfirst' : schema.records[j]? = some first := by
        rwa [List.getElem?_take_of_lt hj] at hfirst
      obtain ⟨other, rfl, -, htokens⟩ := exists_tokensAt hparse hfirst'
      have hother : other.name = declaration.name := hsame.trans hname
      rw [hname]
      refine ⟨rfl, Nat.succ_lt_succ hj, ⟨_, hother ▸ htokens⟩, ?_⟩
      intro earlier hearlier others hline
      obtain ⟨m, found, rfl, hm, hfoundName⟩ := exists_record_of_tokensAt hparse hline
      have hmj : m < j := Nat.lt_of_succ_lt_succ hearlier
      refine hbefore m hmj found ?_ (hfoundName.trans hname.symm)
      rw [List.getElem?_take_of_lt (by omega)]
      exact hm
  | name _ hreserved =>
      rw [hname] at hreserved ⊢
      exact ⟨rfl, hreserved⟩
  | empty _ _ hempty =>
      rw [hname]
      refine ⟨rfl, ?_⟩
      rw [← hfound] at hempty
      simpa [Declaration.toRecord, Declaration.fieldTokens] using hempty
  | field _ _ hissue =>
      rw [← hfound] at hissue
      exact blames_of_field_hasIssue hnamed hissue (i + 1)

/-- The record with the name of the aggregate, by its index. -/
theorem exists_of_validateAggregate_error {aggregate : String} {error : SchemaError}
    (h : schema.validateAggregate aggregate = .error error) :
    ∃ (i : Nat) (record : Record), schema.records[i]? = some record ∧ record.name = aggregate ∧
      error = ⟨record.line, .aggregateCollision record.name⟩ := by
  unfold Schema.validateAggregate at h
  cases hfind : schema.record? aggregate with
  | none => simp [hfind] at h
  | some record =>
      obtain ⟨i, hi, hname, -⟩ := Record.find?_name_eq_some_iff.mp hfind
      simp only [hfind] at h
      exact ⟨i, record, hi, hname, (Except.error.inj h).symm⟩

end Issues

/-- **Errors point at their cause.** Where the definitions in a text are refused, under any settings
and any type table, the failure names a line of the text that lies before the first blank one, and
the words of that very line hold what the failure names, in the place that it says: the first word,
a later one, or the name side or the type side of a later one. -/
theorem Job.failure_points_at_culprit (job : Job) (text : String) (failure : Failure)
    (h : job.result text = .error failure) : failure.PointsAtCulprit job text := by
  cases hparse : Schema.parse job.table text with
  | error error =>
      obtain rfl := Except.error.inj ((Job.result_of_parse_error hparse).symm.trans h)
      obtain ⟨i, line, hline, -, hnumber, hfault⟩ := Schema.isFirstOf_of_ofLines hparse
      obtain ⟨name, rest, hwords, hblames⟩ := blames_of_hasFault hfault
      exact ⟨name, rest, tokensAt_iff.mpr ⟨i, line, hline, by omega, hwords⟩, hblames⟩
  | ok schema =>
      cases hvalidate : schema.validate with
      | error error =>
          have hjudge : job.judge schema = .error error := Job.judge_of_validate_error hvalidate
          obtain rfl := Except.error.inj ((Job.result_of_judge_error hparse hjudge).symm.trans h)
          obtain ⟨i, record, hrecord, -, hnumber, hissue⟩ :=
            Schema.validate_eq_error_iff.mp hvalidate
          obtain ⟨declaration, rfl, hnamed, htokens⟩ := exists_tokensAt hparse hrecord
          have hline : error.line = i + 1 := hnumber
          rw [← hline] at htokens
          refine ⟨_, _, htokens, ?_⟩
          rw [hline]
          exact blames_of_hasIssue hparse hnamed hissue
      | ok _ =>
          cases haggregate : schema.validateAggregate job.settings.aggregate with
          | error error =>
              have hjudge : job.judge schema = .error error :=
                (Job.judge_of_validate_ok hvalidate).trans haggregate
              obtain rfl :=
                Except.error.inj ((Job.result_of_judge_error hparse hjudge).symm.trans h)
              obtain ⟨i, record, hrecord, hname, rfl⟩ :=
                exists_of_validateAggregate_error haggregate
              obtain ⟨declaration, rfl, -, htokens⟩ := exists_tokensAt hparse hrecord
              exact ⟨_, _, htokens, rfl, hname⟩
          | ok _ =>
              have hjudge : job.judge schema = .ok () :=
                (Job.judge_of_validate_ok hvalidate).trans haggregate
              cases (Job.result_of_ok hparse hjudge).symm.trans h

/-- A type whose spelling as a member is reserved, declared by a word that is not: the error names
the declared word, in the second line. -/
theorem Job.failure_points_at_culprit_spelling :
    ∃ (job : Job) (name : String) (rest : List String),
      job.table = TypeTable.standard.insert ⟨"handle", ⟨"class", "int"⟩⟩ ∧
      job.result "A x:int\r\n\tB y:int z:handle\n\nC w:handle\n"
        = .error (.schema ⟨2, .reservedWord "handle" .fieldType⟩) ∧
      TokensAt "A x:int\r\n\tB y:int z:handle\n\nC w:handle\n" 2 (name :: rest) ∧
      ∃ token ∈ rest, ∃ side, HasSides token side "handle" := by
  have hresult : Job.result { table := TypeTable.standard.insert ⟨"handle", ⟨"class", "int"⟩⟩ }
      "A x:int\r\n\tB y:int z:handle\n\nC w:handle\n"
      = .error (.schema ⟨2, .reservedWord "handle" .fieldType⟩) :=
    Job.result_of_judge_error rfl rfl
  obtain ⟨name, rest, htokens, -, -, hmem⟩ := Job.failure_points_at_culprit _ _ _ hresult
  exact ⟨_, name, rest, rfl, hresult, htokens, hmem⟩

end RecordHeader
