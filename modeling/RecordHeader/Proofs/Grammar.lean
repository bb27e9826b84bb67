import RecordHeader.Definition
import RecordHeader.Proofs.Layout
import Mathlib.Tactic

set_option autoImplicit false

/-! # The grammar of definition lines

What a definition line may look like, and what is wrong with one that looks otherwise, stated
on its words alone:

* `Declaration.StandsIn line d`: the words of the line are an identifier and then words
  `name:type` of two identifiers each, and `d` is what they declare.
* `HasFault line token fault`: `token` is the first word of the line that is out of this
  form, and `fault` says how.

Every line that is not blank is of exactly one of the two kinds (`standsIn_or_hasFault`,
`StandsIn.not_hasFault`), and `Declaration.read` tells which (`read_of_standsIn`,
`read_of_hasFault`).
-/

namespace RecordHeader

/-! ## Characters of an identifier -/

namespace Name

theorem isPart_of_isStart {c : Char} (h : isStart c = true) : isPart c = true := by
  simp only [isStart, isPart, Char.isAlphanum, Bool.or_eq_true] at h ⊢
  tauto

theorem isPart_of_mem {name : List Char} {c : Char} (h : isIdentifierChars name = true)
    (hc : c ∈ name) : isPart c = true := by
  cases name with
  | nil => cases hc
  | cons first rest =>
      obtain ⟨hfirst, hrest⟩ : isStart first = true ∧ rest.all isPart = true := by
        simpa [isIdentifierChars] using h
      rcases List.mem_cons.mp hc with rfl | hc
      · exact isPart_of_isStart hfirst
      · exact List.all_eq_true.mp hrest c hc

/-- A character that no identifier goes on with is in none. -/
theorem not_mem_of_isPart_eq_false {name : List Char} {c : Char} (hc : isPart c = false)
    (h : isIdentifierChars name = true) : c ∉ name := by
  intro hmem
  rw [isPart_of_mem h hmem] at hc
  exact Bool.noConfusion hc

theorem ne_nil_of_isIdentifierChars {name : List Char} (h : isIdentifierChars name = true) :
    name ≠ [] := by
  rintro rfl
  exact Bool.noConfusion h

end Name

/-! ## The form of a line -/

namespace Declaration

/-- The word of a field: its name and its declared type around a colon. -/
def fieldWord (field : String × String) : List Char :=
  field.1.toList ++ ':' :: field.2.toList

/-- The words of a declaration: the name of the record, then one word for each field. -/
def words (declaration : Declaration) : List (List Char) :=
  declaration.name.toList :: declaration.fields.map fieldWord

/-- Both sides of a field are identifiers. -/
def IsField (field : String × String) : Prop :=
  Name.isIdentifier field.1 = true ∧ Name.isIdentifier field.2 = true

/-- All that a declaration names are identifiers. -/
def IsWellNamed (declaration : Declaration) : Prop :=
  Name.isIdentifier declaration.name = true ∧ ∀ field ∈ declaration.fields, IsField field

/-- A line declares a record when its words are those of a declaration by identifiers. -/
def StandsIn (line : List Char) (declaration : Declaration) : Prop :=
  Text.WordsOf line declaration.words ∧ declaration.IsWellNamed

instance : DecidablePred IsField := fun _ => inferInstanceAs (Decidable (_ ∧ _))

instance : DecidablePred IsWellNamed := fun _ => inferInstanceAs (Decidable (_ ∧ _))

instance (line : List Char) : DecidablePred (StandsIn line) := fun declaration =>
  decidable_of_iff (Text.words line = declaration.words ∧ declaration.IsWellNamed)
    (and_congr_left' Text.wordsOf_iff.symm)

end Declaration

/-- What is wrong with the word of a field.  Its sides are looked at only when there are two
of them and neither is empty, the name before the type. -/
inductive FieldFault : List Char → LineFault → Prop
  /-- There is not exactly one colon, or nothing before it, or nothing after it. -/
  | malformed {word : List Char} :
      word.count ':' ≠ 1 ∨ word.head? = some ':' ∨ word.getLast? = some ':' →
      FieldFault word .malformedField
  /-- The name is not an identifier. -/
  | name {name type : List Char} : name ≠ [] → type ≠ [] → ':' ∉ name → ':' ∉ type →
      Name.isIdentifierChars name = false → FieldFault (name ++ ':' :: type) .invalidIdentifier
  /-- The name is an identifier and the type is not. -/
  | type {name type : List Char} : type ≠ [] → ':' ∉ type →
      Name.isIdentifierChars name = true → Name.isIdentifierChars type = false →
      FieldFault (name ++ ':' :: type) .invalidTypeName

/-- The first word of a line that is out of form, and what is wrong with it. -/
inductive HasFault : List Char → String → LineFault → Prop
  /-- The first word, which names the record, is not an identifier. -/
  | recordName {line name : List Char} {rest : List (List Char)} :
      Text.WordsOf line (name :: rest) → Name.isIdentifierChars name = false →
      HasFault line (String.ofList name) .invalidIdentifier
  /-- The words before this one declare a record, and this one is not the word of a field. -/
  | field {line word : List Char} {rest : List (List Char)} {front : Declaration}
      {fault : LineFault} :
      Text.WordsOf line (front.words ++ word :: rest) → front.IsWellNamed →
      FieldFault word fault → HasFault line (String.ofList word) fault

namespace Declaration

/-! ## Reading one field -/

theorem isPart_colon : Name.isPart ':' = false := by decide

/-- A word has no colon, one, or more. -/
theorem colon_cases (word : List Char) :
    ':' ∉ word ∨
    (∃ name type, word = name ++ ':' :: type ∧ ':' ∉ name ∧ ':' ∉ type) ∨
    ∃ first second third, word = first ++ ':' :: (second ++ ':' :: third) ∧
      ':' ∉ first ∧ ':' ∉ second := by
  by_cases hword : ':' ∈ word
  · obtain ⟨first, rest, rfl, hfirst⟩ := List.eq_append_cons_of_mem hword
    by_cases hrest : ':' ∈ rest
    · obtain ⟨second, third, rfl, hsecond⟩ := List.eq_append_cons_of_mem hrest
      exact Or.inr (Or.inr ⟨first, second, third, rfl, hfirst, hsecond⟩)
    · exact Or.inr (Or.inl ⟨first, rest, rfl, hfirst, hrest⟩)
  · exact Or.inl hword

theorem count_colon {name type : List Char} (hname : ':' ∉ name) (htype : ':' ∉ type) :
    (name ++ ':' :: type).count ':' = 1 := by
  rw [List.count_append, List.count_cons_self, List.count_eq_zero.mpr hname,
    List.count_eq_zero.mpr htype]

/-- A word without exactly one colon is refused as a whole. -/
theorem readField_of_count_ne {word : List Char} (line : Nat) (h : word.count ':' ≠ 1) :
    readField line word = .error ⟨line, String.ofList word, .malformedField⟩ := by
  rcases colon_cases word with hnone | ⟨name, type, rfl, hname, htype⟩ |
    ⟨first, second, third, rfl, hfirst, hsecond⟩
  · rw [readField, List.splitOn_eq_singleton hnone]
  · exact absurd (count_colon hname htype) h
  · obtain ⟨piece, pieces, hpieces⟩ :=
      List.exists_cons_of_ne_nil (List.splitOn_ne_nil ':' third)
    rw [readField, List.splitOn_append_cons_self_of_not_mem hfirst,
      List.splitOn_append_cons_self_of_not_mem hsecond, hpieces]

/-- A word with exactly one colon is judged by its two sides. -/
theorem readField_of_sides {name type : List Char} (line : Nat) (hname : ':' ∉ name)
    (htype : ':' ∉ type) :
    readField line (name ++ ':' :: type) =
      if name.isEmpty || type.isEmpty then
        .error ⟨line, String.ofList (name ++ ':' :: type), .malformedField⟩
      else if !Name.isIdentifierChars name then
        .error ⟨line, String.ofList (name ++ ':' :: type), .invalidIdentifier⟩
      else if !Name.isIdentifierChars type then
        .error ⟨line, String.ofList (name ++ ':' :: type), .invalidTypeName⟩
      else .ok (String.ofList name, String.ofList type) := by
  rw [readField, List.splitOn_append_cons_self_of_not_mem hname, List.splitOn_eq_singleton htype]

/-- The word of a field reads as the field. -/
theorem readField_fieldWord {field : String × String} (line : Nat) (h : IsField field) :
    readField line (fieldWord field) = .ok field := by
  obtain ⟨hname, htype⟩ := h
  have hsides := readField_of_sides line (Name.not_mem_of_isPart_eq_false isPart_colon hname)
    (Name.not_mem_of_isPart_eq_false isPart_colon htype)
  have hne : field.1.toList ≠ [] := Name.ne_nil_of_isIdentifierChars hname
  have hne' : field.2.toList ≠ [] := Name.ne_nil_of_isIdentifierChars htype
  have hname' : Name.isIdentifierChars field.1.toList = true := hname
  have htype' : Name.isIdentifierChars field.2.toList = true := htype
  rw [fieldWord, hsides]
  simp [hne, hne', hname', htype']

/-- A colon at an edge of a word with one colon leaves nothing on that side. -/
theorem side_isEmpty {name type : List Char} (hname : ':' ∉ name) (htype : ':' ∉ type)
    (h : (name ++ ':' :: type).head? = some ':' ∨ (name ++ ':' :: type).getLast? = some ':') :
    (name.isEmpty || type.isEmpty) = true := by
  rcases h with h | h
  · cases name with
    | nil => rfl
    | cons c name => simp at h; simp [h] at hname
  · cases hlast : type.getLast? with
    | none => simp [List.getLast?_eq_none_iff.mp hlast]
    | some c =>
        have hc : c = ':' := by
          simpa [List.getLast?_append, List.getLast?_cons, hlast] using h
        exact absurd (hc ▸ List.mem_of_getLast? hlast) htype

/-- A word that is out of form is refused for its fault. -/
theorem readField_of_fieldFault {word : List Char} {fault : LineFault} (line : Nat)
    (h : FieldFault word fault) :
    readField line word = .error ⟨line, String.ofList word, fault⟩ := by
  cases h with
  | malformed h =>
      by_cases hcount : word.count ':' = 1
      · rcases colon_cases word with hnone | ⟨name, type, rfl, hname, htype⟩ |
          ⟨first, second, third, rfl, hfirst, hsecond⟩
        · rw [List.count_eq_zero.mpr hnone] at hcount
          omega
        · have hedge := h.resolve_left (not_not_intro hcount)
          rw [readField_of_sides line hname htype, if_pos (side_isEmpty hname htype hedge)]
        · simp only [List.count_append, List.count_cons_self] at hcount
          omega
      · exact readField_of_count_ne line hcount
  | @name name type hne hne' hname htype hbad =>
      rw [readField_of_sides line hname htype]
      simp [hne, hne', hbad]
  | @type name type hne htype hgood hbad =>
      have hname : ':' ∉ name := Name.not_mem_of_isPart_eq_false isPart_colon hgood
      rw [readField_of_sides line hname htype]
      simp [Name.ne_nil_of_isIdentifierChars hgood, hne, hgood, hbad]

/-- Every word is the word of a field or out of form. -/
theorem isField_or_fieldFault (word : List Char) :
    (∃ field, word = fieldWord field ∧ IsField field) ∨ ∃ fault, FieldFault word fault := by
  rcases colon_cases word with hnone | ⟨name, type, rfl, hname, htype⟩ |
    ⟨first, second, third, rfl, -, -⟩
  · exact Or.inr ⟨_, .malformed (Or.inl (by rw [List.count_eq_zero.mpr hnone]; omega))⟩
  · by_cases hne : name = []
    · exact Or.inr ⟨_, .malformed (Or.inr (Or.inl (by rw [hne]; rfl)))⟩
    by_cases hne' : type = []
    · exact Or.inr ⟨_, .malformed (Or.inr (Or.inr (by rw [hne']; simp)))⟩
    cases hgood : Name.isIdentifierChars name with
    | false => exact Or.inr ⟨_, .name hne hne' hname htype hgood⟩
    | true =>
        cases hgood' : Name.isIdentifierChars type with
        | false => exact Or.inr ⟨_, .type hne' htype hgood hgood'⟩
        | true =>
            refine Or.inl ⟨(String.ofList name, String.ofList type), ?_, ?_, ?_⟩
            · simp [fieldWord]
            · simpa [Name.isIdentifier] using hgood
            · simpa [Name.isIdentifier] using hgood'
  · refine Or.inr ⟨_, .malformed (Or.inl ?_)⟩
    simp only [List.count_append, List.count_cons_self]
    omega

/-! ## Reading one line -/

/-- Words of fields in front of others are read one by one. -/
theorem readFields_append {fields : List (String × String)} (line : Nat)
    (h : ∀ field ∈ fields, IsField field) (rest : List (List Char)) :
    readFields line (fields.map fieldWord ++ rest)
      = (readFields line rest).map (fields ++ ·) := by
  induction fields with
  | nil =>
      show readFields line rest = (readFields line rest).map id
      rw [Except.map_id]
      rfl
  | cons field fields ih =>
      have hfield := readField_fieldWord line (h field (by simp))
      have hfields := ih fun other hother => h other (by simp [hother])
      simp only [List.map_cons, List.cons_append, readFields, hfield, hfields]
      cases readFields line rest <;> rfl

/-- A row of words is one of fields, or has a first word that is out of form. -/
theorem fields_or_fieldFault (words : List (List Char)) :
    (∃ fields : List (String × String),
      words = fields.map fieldWord ∧ ∀ field ∈ fields, IsField field) ∨
    ∃ (fields : List (String × String)) (word : List Char) (rest : List (List Char))
      (fault : LineFault), words = fields.map fieldWord ++ word :: rest ∧
      (∀ field ∈ fields, IsField field) ∧ FieldFault word fault := by
  induction words with
  | nil => exact Or.inl ⟨[], rfl, by simp⟩
  | cons word words ih =>
      rcases isField_or_fieldFault word with ⟨field, rfl, hfield⟩ | ⟨fault, hfault⟩
      · rcases ih with ⟨fields, rfl, hfields⟩ | ⟨fields, bad, rest, fault, rfl, hfields, hfault⟩
        · exact Or.inl ⟨field :: fields, rfl, by simpa [hfield] using hfields⟩
        · exact Or.inr ⟨field :: fields, bad, rest, fault, rfl,
            by simpa [hfield] using hfields, hfault⟩
      · exact Or.inr ⟨[], word, words, fault, rfl, by simp, hfault⟩

theorem readWords_of_name {name : String} (line : Nat) (h : Name.isIdentifier name = true)
    (rest : List (List Char)) :
    readWords line (name.toList :: rest)
      = (readFields line rest).map fun fields => some ⟨name, fields⟩ := by
  have hname : Name.isIdentifierChars name.toList = true := h
  simp only [readWords, hname, String.ofList_toList]
  cases readFields line rest <;> rfl

/-- A line that declares a record reads as the declaration. -/
theorem read_of_standsIn {text : List Char} {declaration : Declaration} (line : Nat)
    (h : StandsIn text declaration) : read line text = .ok (some declaration) := by
  obtain ⟨hwords, hname, hfields⟩ := h
  have hread := readFields_append line hfields []
  rw [List.append_nil] at hread
  rw [read, Text.words_of_wordsOf hwords, words, readWords_of_name line hname, hread]
  simp [readFields, Except.map]

/-- A line that is out of form is refused for its first fault. -/
theorem read_of_hasFault {text : List Char} {token : String} {fault : LineFault} (line : Nat)
    (h : HasFault text token fault) : read line text = .error ⟨line, token, fault⟩ := by
  cases h with
  | recordName hwords hname =>
      rw [read, Text.words_of_wordsOf hwords, readWords, hname]
      rfl
  | field hwords hfront hfault =>
      have hword := readField_of_fieldFault line hfault
      rw [read, Text.words_of_wordsOf hwords, words, List.cons_append,
        readWords_of_name line hfront.1, readFields_append line hfront.2, readFields, hword]
      rfl

/-- A blank line reads as no declaration. -/
theorem read_of_isBlank {text : List Char} (line : Nat) (h : Text.isBlank text = true) :
    read line text = .ok none := by
  rw [read, Text.words_of_isBlank h]
  rfl

/-- Every line that is not blank declares a record or has a fault. -/
theorem standsIn_or_hasFault {text : List Char} (h : Text.isBlank text = false) :
    (∃ declaration, StandsIn text declaration) ∨ ∃ token fault, HasFault text token fault := by
  have hwords := Text.wordsOf_words text
  cases hcut : Text.words text with
  | nil => rw [Text.words_eq_nil_iff.mp hcut] at h; cases h
  | cons name rest =>
      rw [hcut] at hwords
      cases hname : Name.isIdentifierChars name with
      | false => exact Or.inr ⟨_, _, .recordName hwords hname⟩
      | true =>
          have hname' : Name.isIdentifier (String.ofList name) = true := by
            simpa [Name.isIdentifier] using hname
          rcases fields_or_fieldFault rest with
            ⟨fields, rfl, hfields⟩ | ⟨fields, word, rest, fault, rfl, hfields, hfault⟩
          · refine Or.inl ⟨⟨String.ofList name, fields⟩, ?_, hname', hfields⟩
            simpa [words] using hwords
          · have hfront : Text.WordsOf text
                ((⟨String.ofList name, fields⟩ : Declaration).words ++ word :: rest) := by
              simpa [words] using hwords
            exact Or.inr ⟨_, fault, .field hfront ⟨hname', hfields⟩ hfault⟩

/-- A line declares at most one record. -/
theorem StandsIn.unique {text : List Char} {first second : Declaration}
    (h : StandsIn text first) (h' : StandsIn text second) : first = second := by
  have hread := read_of_standsIn 0 h
  rw [read_of_standsIn 0 h'] at hread
  exact (Option.some.inj (Except.ok.inj hread)).symm

/-- No line is in form and out of form at once. -/
theorem StandsIn.not_hasFault {text : List Char} {declaration : Declaration} {token : String}
    {fault : LineFault} (h : StandsIn text declaration) : ¬ HasFault text token fault := by
  intro hfault
  have hread := read_of_standsIn 0 h
  rw [read_of_hasFault 0 hfault] at hread
  cases hread

end Declaration

/-- A line has at most one first fault. -/
theorem HasFault.unique {text : List Char} {token token' : String} {fault fault' : LineFault}
    (h : HasFault text token fault) (h' : HasFault text token' fault') :
    token = token' ∧ fault = fault' := by
  have hread := Declaration.read_of_hasFault 0 h
  rw [Declaration.read_of_hasFault 0 h'] at hread
  obtain ⟨-, htoken, hfault⟩ := LineError.mk.inj (Except.error.inj hread)
  exact ⟨htoken.symm, hfault.symm⟩

end RecordHeader
