import RecordHeader.Proofs.Grammar
import Mathlib.Tactic

set_option autoImplicit false

/-! # What the parser accepts, and what it reports

A text is cut into lines, and the lines before the first blank one (`definitionLines`) are
the ones that count.  `Schema.IsOf` says which schema they declare when all of them are in
form, and `LineError.IsFirstOf` which error they are refused with when one is not.  The two
are stated on the lines by their index, without the parser's recursion; the number of the
first line is a parameter, because the recursion moves it.

`ofLines_ok_iff` and `ofLines_error_iff` say that the parser gives exactly these answers, and
`parse_exact` puts the two together for whole texts.
-/

namespace RecordHeader

/-- The lines before the first blank one. -/
def definitionLines (lines : List (List Char)) : List (List Char) :=
  lines.takeWhile fun line => !Text.isBlank line

/-- The schema that lines declare, the first of them being line number `first`. -/
structure Schema.IsOf (table : TypeTable) (first : Nat) (lines : List (List Char))
    (schema : Schema) : Prop where
  /-- There is one record for each line before the first blank one. -/
  length_eq : schema.records.length = (definitionLines lines).length
  /-- The record of each line is the one that the line declares, with that line's number,
  its fields in their order and each type spelled as the table resolves it. -/
  record_eq : ∀ (i : Nat) (line : List Char), (definitionLines lines)[i]? = some line →
    ∃ declaration, Declaration.StandsIn line declaration ∧
      schema.records[i]? = some
        { name := declaration.name
          line := first + i
          fields := declaration.fields.map fun field =>
            { name := field.1, declared := field.2, spelling := table.resolve field.2 } }
  /-- The line that ended the definitions is the first blank one, if there is one. -/
  terminatedAt_eq : schema.terminatedAt =
    if lines.any Text.isBlank then some (first + (definitionLines lines).length) else none
  /-- The ignored lines are those after it that are not blank. -/
  ignoredLines_eq : schema.ignoredLines =
    (lines.drop ((definitionLines lines).length + 1)).countP fun line => !Text.isBlank line

/-- The error of the first line, among those before the first blank one, that declares no
record. -/
def LineError.IsFirstOf (first : Nat) (lines : List (List Char)) (error : LineError) : Prop :=
  ∃ (i : Nat) (line : List Char), (definitionLines lines)[i]? = some line ∧
    (∀ j < i, ∀ earlier, (definitionLines lines)[j]? = some earlier →
      ∃ declaration, Declaration.StandsIn earlier declaration) ∧
    error.line = first + i ∧ HasFault line error.token error.fault

/-- What a text declares: one record for each line before the first blank one. -/
def Declares (text : String) (declarations : List Declaration) : Prop :=
  ∃ lines, Text.LinesOf text.toList lines ∧
    List.Forall₂ Declaration.StandsIn (definitionLines lines) declarations

theorem declares_iff {text : String} {declarations : List Declaration} :
    Declares text declarations ↔
      List.Forall₂ Declaration.StandsIn (definitionLines (Text.lines text.toList))
        declarations := by
  simp [Declares, Text.linesOf_iff]

instance (text : String) : DecidablePred (Declares text) := fun _ =>
  decidable_of_iff _ declares_iff.symm

/-! ## The lines that count -/

theorem definitionLines_of_isBlank {line : List Char} (h : Text.isBlank line = true)
    (rest : List (List Char)) : definitionLines (line :: rest) = [] := by
  simp [definitionLines, h]

theorem definitionLines_of_not_isBlank {line : List Char} (h : Text.isBlank line = false)
    (rest : List (List Char)) :
    definitionLines (line :: rest) = line :: definitionLines rest := by
  simp [definitionLines, h]

theorem definitionLines_append {before : List (List Char)}
    (h : ∀ line ∈ before, Text.isBlank line = false) (rest : List (List Char)) :
    definitionLines (before ++ rest) = before ++ definitionLines rest :=
  List.takeWhile_append_of_pos (by simpa using h)

/-- **Induction along the definitions.** Reading stops at a blank line and at a line with a
fault; it goes on behind a line that declares a record. -/
theorem definition_induction {motive : List (List Char) → Prop} (nil : motive [])
    (blank : ∀ line rest, Text.isBlank line = true → motive (line :: rest))
    (fault : ∀ line rest token fault, Text.isBlank line = false →
      HasFault line token fault → motive (line :: rest))
    (record : ∀ line rest declaration, Text.isBlank line = false →
      Declaration.StandsIn line declaration → motive rest → motive (line :: rest))
    (lines : List (List Char)) : motive lines := by
  induction lines with
  | nil => exact nil
  | cons line rest ih =>
      cases hblank : Text.isBlank line with
      | true => exact blank line rest hblank
      | false =>
          rcases Declaration.standsIn_or_hasFault hblank with
            ⟨declaration, hline⟩ | ⟨token, kind, hline⟩
          · exact record line rest declaration hblank hline ih
          · exact fault line rest token kind hblank hline

namespace Schema

/-! ## One step of the parser -/

variable {table : TypeTable} {first : Nat}

theorem ofLines_of_isBlank {line : List Char} (h : Text.isBlank line = true)
    (rest : List (List Char)) :
    ofLines table first (line :: rest) =
      .ok { terminatedAt := some first
            ignoredLines := rest.countP fun line => !Text.isBlank line } := by
  rw [ofLines, Declaration.read_of_isBlank first h]
  rfl

theorem ofLines_of_standsIn {line : List Char} {declaration : Declaration}
    (h : Declaration.StandsIn line declaration) (rest : List (List Char)) :
    ofLines table first (line :: rest) =
      (ofLines table (first + 1) rest).map fun schema =>
        { schema with records := declaration.toRecord table first :: schema.records } := by
  rw [ofLines, Declaration.read_of_standsIn first h]
  show (ofLines table (first + 1) rest >>= _) = _
  cases ofLines table (first + 1) rest <;> rfl

theorem ofLines_of_hasFault {line : List Char} {token : String} {fault : LineFault}
    (h : HasFault line token fault) (rest : List (List Char)) :
    ofLines table first (line :: rest) = .error ⟨first, token, fault⟩ := by
  rw [ofLines, Declaration.read_of_hasFault first h]
  rfl

/-- Lines that are accepted behind a record are accepted for themselves. -/
theorem exists_ofLines_of_standsIn {line : List Char} {declaration : Declaration}
    {rest : List (List Char)} {schema : Schema} (hline : Declaration.StandsIn line declaration)
    (h : ofLines table first (line :: rest) = .ok schema) :
    ∃ tail, ofLines table (first + 1) rest = .ok tail ∧
      schema = { tail with records := declaration.toRecord table first :: tail.records } := by
  rw [ofLines_of_standsIn hline] at h
  cases hrest : ofLines table (first + 1) rest with
  | error error => rw [hrest] at h; cases h
  | ok tail =>
      rw [hrest] at h
      exact ⟨tail, rfl, (Except.ok.inj h).symm⟩

/-- An error behind a record is the error of the lines behind it. -/
theorem ofLines_error_of_standsIn {line : List Char} {declaration : Declaration}
    {rest : List (List Char)} {error : LineError} (hline : Declaration.StandsIn line declaration) :
    ofLines table first (line :: rest) = .error error ↔
      ofLines table (first + 1) rest = .error error := by
  rw [ofLines_of_standsIn hline]
  cases ofLines table (first + 1) rest <;> simp [Except.map]

/-! ## The answer that is given -/

theorem isOf_nil : IsOf table first [] {} where
  length_eq := rfl
  record_eq := by simp [definitionLines]
  terminatedAt_eq := rfl
  ignoredLines_eq := rfl

theorem isOf_of_isBlank {line : List Char} (h : Text.isBlank line = true)
    (rest : List (List Char)) :
    IsOf table first (line :: rest)
      { terminatedAt := some first
        ignoredLines := rest.countP fun line => !Text.isBlank line } where
  length_eq := by rw [definitionLines_of_isBlank h]; rfl
  record_eq := by simp [definitionLines_of_isBlank h]
  terminatedAt_eq := by simp [definitionLines_of_isBlank h, h]
  ignoredLines_eq := by simp [definitionLines_of_isBlank h]

/-- A line in form in front of lines that declare a schema puts its record in front. -/
theorem isOf_cons {line : List Char} {declaration : Declaration} {rest : List (List Char)}
    {schema : Schema} (hblank : Text.isBlank line = false)
    (hline : Declaration.StandsIn line declaration) (h : IsOf table (first + 1) rest schema) :
    IsOf table first (line :: rest)
      { schema with records := declaration.toRecord table first :: schema.records } where
  length_eq := by
    rw [definitionLines_of_not_isBlank hblank, List.length_cons, List.length_cons, h.length_eq]
  record_eq := by
    intro i other hother
    rw [definitionLines_of_not_isBlank hblank] at hother
    cases i with
    | zero =>
        obtain rfl : line = other := by simpa using hother
        exact ⟨declaration, hline, rfl⟩
    | succ i =>
        obtain ⟨found, hfound, hrecord⟩ := h.record_eq i other (by simpa using hother)
        refine ⟨found, hfound, ?_⟩
        rw [List.getElem?_cons_succ, hrecord, show first + 1 + i = first + (i + 1) by omega]
  terminatedAt_eq := by
    rw [definitionLines_of_not_isBlank hblank, List.length_cons, List.any_cons, hblank,
      Bool.false_or, h.terminatedAt_eq,
      show first + 1 + (definitionLines rest).length
        = first + ((definitionLines rest).length + 1) by omega]
  ignoredLines_eq := by
    rw [definitionLines_of_not_isBlank hblank, List.length_cons, List.drop_succ_cons,
      h.ignoredLines_eq]

/-- What is accepted is the schema that the lines declare. -/
theorem isOf_of_ofLines {lines : List (List Char)} {schema : Schema}
    (h : ofLines table first lines = .ok schema) : IsOf table first lines schema := by
  induction lines using definition_induction generalizing first schema with
  | nil =>
      obtain rfl := Except.ok.inj h
      exact isOf_nil
  | blank line rest hblank =>
      rw [ofLines_of_isBlank hblank] at h
      obtain rfl := Except.ok.inj h
      exact isOf_of_isBlank hblank rest
  | fault line rest token kind _ hline =>
      rw [ofLines_of_hasFault hline] at h
      cases h
  | record line rest declaration hblank hline ih =>
      obtain ⟨tail, hrest, rfl⟩ := exists_ofLines_of_standsIn hline h
      exact isOf_cons hblank hline (ih hrest)

/-- What is refused is refused for the first line out of form. -/
theorem isFirstOf_of_ofLines {lines : List (List Char)} {error : LineError}
    (h : ofLines table first lines = .error error) : error.IsFirstOf first lines := by
  induction lines using definition_induction generalizing first with
  | nil => cases h
  | blank line rest hblank => rw [ofLines_of_isBlank hblank] at h; cases h
  | fault line rest token kind hblank hline =>
      rw [ofLines_of_hasFault hline] at h
      obtain rfl := Except.error.inj h
      refine ⟨0, line, ?_, by omega, rfl, hline⟩
      rw [definitionLines_of_not_isBlank hblank]
      rfl
  | record line rest declaration hblank hline ih =>
      obtain ⟨i, bad, hbad, hbefore, hnumber, hfault⟩ :=
        ih ((ofLines_error_of_standsIn hline).mp h)
      refine ⟨i + 1, bad, ?_, ?_, by omega, hfault⟩
      · rw [definitionLines_of_not_isBlank hblank]
        simpa using hbad
      · intro j hj earlier hearlier
        rw [definitionLines_of_not_isBlank hblank] at hearlier
        cases j with
        | zero =>
            obtain rfl : line = earlier := by simpa using hearlier
            exact ⟨declaration, hline⟩
        | succ j => exact hbefore j (by omega) earlier (by simpa using hearlier)

/-! ## There is one answer -/

/-- Lines declare at most one schema. -/
theorem IsOf.unique {lines : List (List Char)} {schema other : Schema}
    (h : IsOf table first lines schema) (h' : IsOf table first lines other) :
    schema = other := by
  have hrecords : schema.records = other.records := by
    apply List.ext_getElem?
    intro i
    cases hline : (definitionLines lines)[i]? with
    | none =>
        have hlong : (definitionLines lines).length ≤ i := List.getElem?_eq_none_iff.mp hline
        rw [List.getElem?_eq_none_iff.mpr (by rw [h.length_eq]; exact hlong),
          List.getElem?_eq_none_iff.mpr (by rw [h'.length_eq]; exact hlong)]
    | some line =>
        obtain ⟨found, hfound, hrecord⟩ := h.record_eq i line hline
        obtain ⟨found', hfound', hrecord'⟩ := h'.record_eq i line hline
        rw [hrecord, hrecord', hfound.unique hfound']
  have hterminated := h.terminatedAt_eq.trans h'.terminatedAt_eq.symm
  have hignored := h.ignoredLines_eq.trans h'.ignoredLines_eq.symm
  cases schema
  cases other
  simp only at hrecords hterminated hignored
  rw [hrecords, hterminated, hignored]

/-- Lines that declare a schema have no first fault. -/
theorem IsOf.not_isFirstOf {lines : List (List Char)} {schema : Schema} {error : LineError}
    (h : IsOf table first lines schema) : ¬ error.IsFirstOf first lines := by
  rintro ⟨i, line, hline, -, -, hfault⟩
  obtain ⟨declaration, hdeclared, -⟩ := h.record_eq i line hline
  exact hdeclared.not_hasFault hfault

/-- **The parser accepts what the lines declare**, and nothing else. -/
theorem ofLines_ok_iff {lines : List (List Char)} {schema : Schema} :
    ofLines table first lines = .ok schema ↔ IsOf table first lines schema := by
  constructor
  · exact isOf_of_ofLines
  · intro h
    cases hread : ofLines table first lines with
    | error error => exact absurd (isFirstOf_of_ofLines hread) h.not_isFirstOf
    | ok found => rw [(isOf_of_ofLines hread).unique h]

end Schema

/-- Lines have at most one first fault. -/
theorem LineError.IsFirstOf.unique {first : Nat} {lines : List (List Char)}
    {error other : LineError} (h : error.IsFirstOf first lines)
    (h' : other.IsFirstOf first lines) : error = other := by
  obtain ⟨i, line, hline, hbefore, hnumber, hfault⟩ := h
  obtain ⟨i', line', hline', hbefore', hnumber', hfault'⟩ := h'
  -- a smaller index on either side would be that of a line in form
  obtain rfl : i = i' := by
    rcases Nat.lt_trichotomy i i' with hlt | heq | hgt
    · obtain ⟨declaration, hdeclared⟩ := hbefore' i hlt line hline
      exact absurd hfault hdeclared.not_hasFault
    · exact heq
    · obtain ⟨declaration, hdeclared⟩ := hbefore i' hgt line' hline'
      exact absurd hfault' hdeclared.not_hasFault
  obtain rfl : line = line' := Option.some.inj (hline.symm.trans hline')
  obtain ⟨htoken, hkind⟩ := hfault.unique hfault'
  cases error
  cases other
  simp only at hnumber hnumber' htoken hkind
  rw [hnumber, hnumber', htoken, hkind]

namespace Schema

/-- **The parser reports the first line out of form**, and fails for no other reason. -/
theorem ofLines_error_iff {table : TypeTable} {first : Nat} {lines : List (List Char)}
    {error : LineError} :
    ofLines table first lines = .error error ↔ error.IsFirstOf first lines := by
  constructor
  · exact isFirstOf_of_ofLines
  · intro h
    cases hread : ofLines table first lines with
    | ok schema => exact absurd h (isOf_of_ofLines hread).not_isFirstOf
    | error found => rw [(isFirstOf_of_ofLines hread).unique h]

/-- Lines are accepted when all before the first blank one declare a record. -/
theorem exists_ofLines_iff {table : TypeTable} {first : Nat} {lines : List (List Char)} :
    (∃ schema, ofLines table first lines = .ok schema) ↔
      ∀ line ∈ definitionLines lines, ∃ declaration, Declaration.StandsIn line declaration := by
  constructor
  · rintro ⟨schema, hread⟩ line hline
    obtain ⟨i, hi⟩ := List.mem_iff_getElem?.mp hline
    obtain ⟨declaration, hdeclared, -⟩ := (isOf_of_ofLines hread).record_eq i line hi
    exact ⟨declaration, hdeclared⟩
  · intro hall
    cases hread : ofLines table first lines with
    | ok schema => exact ⟨schema, rfl⟩
    | error error =>
        obtain ⟨i, line, hline, -, -, hfault⟩ := isFirstOf_of_ofLines hread
        obtain ⟨declaration, hdeclared⟩ := hall line (List.mem_of_getElem? hline)
        exact absurd hfault hdeclared.not_hasFault

/-- The records of an accepted text are those of its declarations, in their order. -/
theorem exists_forall₂_of_ofLines {table : TypeTable} {first : Nat}
    {lines : List (List Char)} {schema : Schema}
    (h : ofLines table first lines = .ok schema) :
    ∃ declarations, List.Forall₂ Declaration.StandsIn (definitionLines lines) declarations ∧
      List.Forall₂ (fun declaration record => ∃ line, record = declaration.toRecord table line)
        declarations schema.records := by
  induction lines using definition_induction generalizing first schema with
  | nil =>
      obtain rfl := Except.ok.inj h
      exact ⟨[], .nil, .nil⟩
  | blank line rest hblank =>
      rw [ofLines_of_isBlank hblank] at h
      obtain rfl := Except.ok.inj h
      rw [definitionLines_of_isBlank hblank]
      exact ⟨[], .nil, .nil⟩
  | fault line rest token kind _ hline => rw [ofLines_of_hasFault hline] at h; cases h
  | record line rest declaration hblank hline ih =>
      obtain ⟨tail, hrest, rfl⟩ := exists_ofLines_of_standsIn hline h
      obtain ⟨declarations, hdeclared, hrecords⟩ := ih hrest
      rw [definitionLines_of_not_isBlank hblank]
      exact ⟨declaration :: declarations, .cons hline hdeclared, .cons ⟨first, rfl⟩ hrecords⟩

theorem exists_declares_of_parse {table : TypeTable} {text : String} {schema : Schema}
    (h : parse table text = .ok schema) :
    ∃ declarations, Declares text declarations ∧
      List.Forall₂ (fun declaration record => ∃ line, record = declaration.toRecord table line)
        declarations schema.records := by
  obtain ⟨declarations, hdeclared, hrecords⟩ := exists_forall₂_of_ofLines h
  exact ⟨declarations, ⟨_, Text.linesOf_lines text.toList, hdeclared⟩, hrecords⟩

/-- The record at an index is the one that the line of that index declares. -/
theorem exists_standsIn_of_parse {table : TypeTable} {text : String} {schema : Schema}
    (h : parse table text = .ok schema) {i : Nat} {record : Record}
    (hrecord : schema.records[i]? = some record) :
    ∃ line declaration, (definitionLines (Text.lines text.toList))[i]? = some line ∧
      Declaration.StandsIn line declaration ∧ record = declaration.toRecord table (i + 1) := by
  have hof := isOf_of_ofLines h
  have hi : i < (definitionLines (Text.lines text.toList)).length := by
    rw [← hof.length_eq]
    exact (List.getElem?_eq_some_iff.mp hrecord).1
  obtain ⟨declaration, hdeclared, hfound⟩ := hof.record_eq i _ (List.getElem?_eq_getElem hi)
  refine ⟨_, declaration, List.getElem?_eq_getElem hi, hdeclared, ?_⟩
  rw [hrecord] at hfound
  rw [Option.some.inj hfound, Nat.add_comm 1 i]
  rfl

/-- **The parser is exact.** Every text is made of lines in one way.  The text is accepted if
and only if each of its lines before the first blank one declares a record; then the answer is
the schema that these lines declare, and otherwise it is the error of the first line that
declares none. -/
theorem parse_exact (table : TypeTable) (text : String) :
    (∃ lines, Text.LinesOf text.toList lines) ∧
    ∀ lines, Text.LinesOf text.toList lines →
      ((∃ schema, parse table text = .ok schema) ↔
        ∀ line ∈ definitionLines lines,
          ∃ declaration, Declaration.StandsIn line declaration) ∧
      (∀ schema, parse table text = .ok schema ↔ schema.IsOf table 1 lines) ∧
      ∀ error, parse table text = .error error ↔ error.IsFirstOf 1 lines := by
  refine ⟨⟨_, Text.linesOf_lines text.toList⟩, ?_⟩
  intro lines hlines
  have hparse : parse table text = ofLines table 1 lines := by
    rw [parse, Text.lines_of_linesOf hlines]
  rw [hparse]
  exact ⟨exists_ofLines_iff, fun schema => ofLines_ok_iff, fun error => ofLines_error_iff⟩

end Schema

/-- A text declares at most one row of records. -/
theorem Declares.unique {text : String} {declarations others : List Declaration}
    (h : Declares text declarations) (h' : Declares text others) : declarations = others := by
  obtain ⟨lines, hlines, hdeclared⟩ := h
  obtain ⟨lines', hlines', hdeclared'⟩ := h'
  obtain rfl : lines = lines' :=
    (Text.lines_of_linesOf hlines).symm.trans (Text.lines_of_linesOf hlines')
  exact List.right_unique_forall₂' (fun _ _ _ hd hd' => hd.unique hd') hdeclared hdeclared'

/-- All that a text declares is named by identifiers. -/
theorem Declares.isWellNamed {text : String} {declarations : List Declaration}
    (h : Declares text declarations) :
    ∀ declaration ∈ declarations, declaration.IsWellNamed := by
  obtain ⟨lines, -, hdeclared⟩ := h
  generalize definitionLines lines = front at hdeclared
  induction hdeclared with
  | nil => simp
  | cons hline _ ih =>
      intro declaration hmem
      rcases List.mem_cons.mp hmem with rfl | hmem
      · exact hline.2
      · exact ih declaration hmem

end RecordHeader
