import RecordHeader.Proofs.Jobs
import Mathlib.Tactic

set_option autoImplicit false

/-! # What a type table holds

A table is made from the empty or the standard one by inserting entries.  Its *history* is the row
of these entries from the first to the last; those of the standard table count as inserted before
all others.  `IsMadeBy` says which tables come from which history.

Inserting looks for the entry of a word and changes it where it stands, or adds one at the end.  So
an insertion does two things to what can be seen of a table: `get?_insert` for its answers and
`words_insert` for the order of its words.  A history says the same of itself (`latest?_concat`,
`firstPlace_concat_of_mem`), and hence a table *reflects* its history: it answers with the latest
entry, and lists words by their first place (`IsMadeBy.reflects`).

Nothing else of a table is ever used but its answers, so tables with the same latest entries give
the same schemas and the same headers, however they were made.
-/

namespace RecordHeader

namespace TypeTable

/-! ## Tables and their histories -/

/-- The declared words of a table, in its order. -/
def words (table : TypeTable) : List String :=
  table.entries.map TypeEntry.declared

/-- The tables that can be made, each with all entries that were inserted, from the first to the
last. -/
inductive IsMadeBy : TypeTable → List TypeEntry → Prop
  | empty : IsMadeBy .empty []
  | standard : IsMadeBy .standard standard.entries
  | insert {table : TypeTable} {history : List TypeEntry} (h : IsMadeBy table history)
      (entry : TypeEntry) : IsMadeBy (table.insert entry) (history ++ [entry])

/-- The entry that was inserted last for a word. -/
def latest? (history : List TypeEntry) (word : String) : Option TypeEntry :=
  (history.filter fun entry => entry.declared == word).getLast?

/-- The place in a history where a word was inserted first. -/
def firstPlace (history : List TypeEntry) (word : String) : Nat :=
  history.findIdx fun entry => entry.declared == word

/-- A table answers with the latest entry of a history, and lists the words of that history once
each, by their first places. -/
structure Reflects (table : TypeTable) (history : List TypeEntry) : Prop where
  get?_eq : ∀ word, table.get? word = latest? history word
  mem_words_iff : ∀ word, word ∈ table.words ↔ ∃ entry ∈ history, entry.declared = word
  words_sorted : table.words.Pairwise fun first second =>
    firstPlace history first < firstPlace history second

/-! ## One insertion -/

section Insertion

variable (table : TypeTable) (entry : TypeEntry) (word : String)

/-- Behind an insertion, only the answer for the inserted word is a new one. -/
theorem get?_insert :
    (table.insert entry).get? word =
      if entry.declared = word then some entry else table.get? word := by
  show (insertEntry entry table.entries).find? (fun other => other.declared == word) =
    if entry.declared = word then some entry
    else table.entries.find? fun other => other.declared == word
  induction table.entries with
  | nil =>
      by_cases hword : entry.declared = word
      · simp [insertEntry, hword]
      · simp [insertEntry, hword]
  | cons other rest ih =>
      rw [insertEntry]
      by_cases hsame : other.declared = entry.declared
      · -- the entry is put in the place of `other`, which was found for the same word
        rw [if_pos hsame]
        by_cases hword : entry.declared = word
        · simp [hword]
        · simp [hsame, hword]
      · rw [if_neg hsame]
        by_cases hother : other.declared = word
        · have hword : entry.declared ≠ word := fun h => hsame (hother.trans h.symm)
          simp [hother, hword]
        · rw [List.find?_cons_of_neg (by simpa using hother), ih,
            List.find?_cons_of_neg (by simpa using hother)]

/-- A new word goes to the end; one that is there keeps its place. -/
theorem words_insert :
    (table.insert entry).words =
      if entry.declared ∈ table.words then table.words else table.words ++ [entry.declared] := by
  show (insertEntry entry table.entries).map TypeEntry.declared =
    if entry.declared ∈ table.entries.map TypeEntry.declared
    then table.entries.map TypeEntry.declared
    else table.entries.map TypeEntry.declared ++ [entry.declared]
  induction table.entries with
  | nil => simp [insertEntry]
  | cons other rest ih =>
      rw [insertEntry]
      by_cases hsame : other.declared = entry.declared
      · rw [if_pos hsame]
        simp [hsame]
      · rw [if_neg hsame, List.map_cons, ih]
        have hne : entry.declared ≠ other.declared := Ne.symm hsame
        by_cases hmem : entry.declared ∈ rest.map TypeEntry.declared
        · rw [if_pos hmem, List.map_cons, if_pos (List.mem_cons_of_mem _ hmem)]
        · rw [if_neg hmem, List.map_cons, if_neg (by simpa [hne] using hmem)]
          rfl

end Insertion

/-! ## One more entry in a history -/

section History

variable {history : List TypeEntry} {entry : TypeEntry} {word : String}

theorem latest?_concat (history : List TypeEntry) (entry : TypeEntry) (word : String) :
    latest? (history ++ [entry]) word =
      if entry.declared = word then some entry else latest? history word := by
  unfold latest?
  rw [List.filter_append]
  by_cases hword : entry.declared = word
  · simp [hword]
  · simp [hword]

/-- A word is in a history if and only if its first place is. -/
theorem firstPlace_lt_length_iff :
    firstPlace history word < history.length ↔ ∃ entry ∈ history, entry.declared = word := by
  simp [firstPlace, List.findIdx_lt_length]

/-- Words that have a place keep it. -/
theorem firstPlace_concat_of_mem (h : ∃ earlier ∈ history, earlier.declared = word) :
    firstPlace (history ++ [entry]) word = firstPlace history word := by
  have hlt := firstPlace_lt_length_iff.mpr h
  unfold firstPlace at hlt ⊢
  rw [List.findIdx_append, if_pos hlt]

/-- A word without a place comes behind all that have one. -/
theorem length_le_firstPlace_concat (h : ¬ ∃ earlier ∈ history, earlier.declared = word) :
    history.length ≤ firstPlace (history ++ [entry]) word := by
  rw [← firstPlace_lt_length_iff] at h
  unfold firstPlace at h ⊢
  rw [List.findIdx_append, if_neg h]
  omega

end History

/-! ## Tables reflect their histories -/

theorem reflects_empty : Reflects .empty [] where
  get?_eq word := rfl
  mem_words_iff word := by simp [words, empty]
  words_sorted := .nil

theorem reflects_standard : Reflects .standard standard.entries where
  get?_eq word := by
    by_cases hword : "string" = word
    · simp [get?, latest?, standard, hword]
    · simp [get?, latest?, standard, hword]
  mem_words_iff word := by simp [words]
  words_sorted := List.pairwise_singleton _ _

/-- **An insertion is reflected.** -/
theorem Reflects.insert {table : TypeTable} {history : List TypeEntry}
    (h : table.Reflects history) (entry : TypeEntry) :
    (table.insert entry).Reflects (history ++ [entry]) where
  get?_eq word := by rw [get?_insert, latest?_concat, h.get?_eq]
  mem_words_iff word := by
    have hold := h.mem_words_iff word
    rw [words_insert]
    by_cases hmem : entry.declared ∈ table.words
    · rw [if_pos hmem, hold]
      constructor
      · rintro ⟨earlier, hearlier, hword⟩
        exact ⟨earlier, List.mem_append_left _ hearlier, hword⟩
      · rintro ⟨found, hfound, hword⟩
        rcases List.mem_append.mp hfound with hfound | hfound
        · exact ⟨found, hfound, hword⟩
        · rw [List.mem_singleton.mp hfound] at hword
          exact hold.mp (hword ▸ hmem)
    · rw [if_neg hmem, List.mem_append, hold, List.mem_singleton]
      simp [or_and_right, exists_or, eq_comm]
  words_sorted := by
    have hplace : ∀ word ∈ table.words,
        firstPlace (history ++ [entry]) word = firstPlace history word := fun word hword =>
      firstPlace_concat_of_mem ((h.mem_words_iff word).mp hword)
    -- the places of the words that are there do not move
    have hkept : table.words.Pairwise fun first second =>
        firstPlace (history ++ [entry]) first < firstPlace (history ++ [entry]) second := by
      refine h.words_sorted.imp_of_mem fun hfirst hsecond hlt => ?_
      rw [hplace _ hfirst, hplace _ hsecond]
      exact hlt
    rw [words_insert]
    by_cases hmem : entry.declared ∈ table.words
    · rw [if_pos hmem]
      exact hkept
    · rw [if_neg hmem, List.pairwise_append]
      refine ⟨hkept, List.pairwise_singleton _ _, ?_⟩
      intro word hword last hlast
      rw [List.mem_singleton.mp hlast, hplace word hword]
      have hlt := firstPlace_lt_length_iff.mpr ((h.mem_words_iff word).mp hword)
      have hle : history.length ≤ firstPlace (history ++ [entry]) entry.declared :=
        length_le_firstPlace_concat fun hfound => hmem ((h.mem_words_iff _).mpr hfound)
      omega

/-- **A table reflects its history**, however long that is. -/
theorem IsMadeBy.reflects {table : TypeTable} {history : List TypeEntry}
    (h : table.IsMadeBy history) : table.Reflects history := by
  induction h with
  | empty => exact reflects_empty
  | standard => exact reflects_standard
  | insert _ entry ih => exact ih.insert entry

theorem IsMadeBy.insertAll {table : TypeTable} {history : List TypeEntry}
    (h : table.IsMadeBy history) (entries : List TypeEntry) :
    (table.insertAll entries).IsMadeBy (history ++ entries) := by
  induction entries generalizing table history with
  | nil =>
      rw [List.append_nil]
      exact h
  | cons entry entries ih =>
      rw [List.append_cons]
      exact ih (h.insert entry)

theorem Reflects.resolve_eq {table : TypeTable} {history : List TypeEntry}
    (h : table.Reflects history) (word : String) :
    table.resolve word = ((latest? history word).map TypeEntry.spelling).getD ⟨word, word⟩ := by
  rw [resolve, h.get?_eq]
  cases latest? history word with
  | none => rfl
  | some entry => rfl

end TypeTable

/-! ## Only the answers of a table count -/

section Answers

variable {table other : TypeTable}

theorem Declaration.toRecord_congr (h : ∀ word, table.resolve word = other.resolve word)
    (line : Nat) (declaration : Declaration) :
    declaration.toRecord table line = declaration.toRecord other line := by
  simp only [toRecord, Field.ofDeclared, h]

/-- Tables with the same answers read lines alike. -/
theorem Schema.ofLines_congr (h : ∀ word, table.resolve word = other.resolve word)
    (lines : List (List Char)) (first : Nat) :
    ofLines table first lines = ofLines other first lines := by
  induction lines generalizing first with
  | nil => rfl
  | cons line rest ih => simp only [ofLines, ih, Declaration.toRecord_congr h]

theorem Schema.parse_congr (h : ∀ word, table.resolve word = other.resolve word) (text : String) :
    parse table text = parse other text :=
  ofLines_congr h (Text.lines text.toList) 1

/-- They render texts alike, step by step. -/
theorem Job.render_congr {m : Type → Type} [Monad m]
    (h : ∀ word, table.resolve word = other.resolve word) (settings : Settings) (text : String) :
    (render { settings, table } text : Run m Rendered)
      = render { settings, table := other } text := by
  have hparse := Schema.parse_congr h text
  unfold render emit
  simp only [hparse]
  rfl

end Answers

namespace TypeTable

/-- **The last insertion wins, and the first one gives the place.** Let a table be made by a
history.  It lists the words of that history once each, in the order of their first places, and
answers for a word with the latest entry, which it spells the word by; a word without one spells
itself.  Any other table whose history has the same latest entries gives the same spellings, so all
texts are read and rendered alike with the two. -/
theorem last_insertion_wins (table : TypeTable) (history : List TypeEntry)
    (h : table.IsMadeBy history) :
    table.words.Nodup ∧
    (∀ word, word ∈ table.words ↔ ∃ entry ∈ history, entry.declared = word) ∧
    (table.words.Pairwise fun first second =>
      firstPlace history first < firstPlace history second) ∧
    (∀ word, table.get? word = latest? history word) ∧
    (∀ word, table.resolve word =
      ((latest? history word).map TypeEntry.spelling).getD ⟨word, word⟩) ∧
    ∀ (other : TypeTable) (history' : List TypeEntry), other.IsMadeBy history' →
      (∀ word, latest? history word = latest? history' word) →
      (∀ word, table.resolve word = other.resolve word) ∧
      (∀ text, Schema.parse table text = Schema.parse other text) ∧
      ∀ settings text,
        Job.result { settings, table } text = Job.result { settings, table := other } text := by
  have hreflects := h.reflects
  have hnodup : table.words.Nodup :=
    hreflects.words_sorted.imp fun hlt heq => absurd (heq ▸ hlt) (Nat.lt_irrefl _)
  refine ⟨hnodup, hreflects.mem_words_iff, hreflects.words_sorted, hreflects.get?_eq,
    hreflects.resolve_eq, ?_⟩
  intro other history' hother hlatest
  have hresolve : ∀ word, table.resolve word = other.resolve word := by
    intro word
    rw [hreflects.resolve_eq, hother.reflects.resolve_eq, hlatest]
  refine ⟨hresolve, Schema.parse_congr hresolve, ?_⟩
  intro settings text
  unfold Job.result
  rw [Job.render_congr hresolve]

/-- A table in which one word was inserted twice and the standard one was changed, and a table that
was made from the empty one in the other order. -/
theorem last_insertion_wins_other_order :
    ∃ table other : TypeTable,
      table.IsMadeBy (standard.entries ++ [⟨"path", ⟨"char", "char"⟩⟩,
        ⟨"string", ⟨"Text", "Text"⟩⟩, ⟨"path", ⟨"Path", "const Path &"⟩⟩]) ∧
      other.IsMadeBy [⟨"path", ⟨"Path", "const Path &"⟩⟩, ⟨"string", ⟨"Text", "Text"⟩⟩] ∧
      table.words = ["string", "path"] ∧ other.words = ["path", "string"] ∧
      table.resolve "path" = ⟨"Path", "const Path &"⟩ ∧ table.resolve "int" = ⟨"int", "int"⟩ ∧
      ∀ settings text,
        Job.result { settings, table } text = Job.result { settings, table := other } text := by
  have hmade := IsMadeBy.standard.insertAll [⟨"path", ⟨"char", "char"⟩⟩,
    ⟨"string", ⟨"Text", "Text"⟩⟩, ⟨"path", ⟨"Path", "const Path &"⟩⟩]
  have hother := IsMadeBy.empty.insertAll
    [⟨"path", ⟨"Path", "const Path &"⟩⟩, ⟨"string", ⟨"Text", "Text"⟩⟩]
  obtain ⟨-, -, -, -, hresolve, hsame⟩ := last_insertion_wins _ _ hmade
  refine ⟨_, _, hmade, hother, rfl, rfl, hresolve "path", hresolve "int", ?_⟩
  refine (hsame _ _ hother fun word => ?_).2.2
  by_cases hpath : "path" = word
  · subst hpath
    rfl
  · by_cases hstring : "string" = word
    · subst hstring
      rfl
    · simp [latest?, standard, hpath, hstring]

end TypeTable

end RecordHeader
