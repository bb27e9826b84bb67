import RecordHeader.Proofs.Grammar
import RecordHeader.Settings
import Mathlib.Tactic

set_option autoImplicit false

/-! # The characters of names

Identifiers are made of few characters, which are bounds on code points (`Name.isPart_iff`).  So no
identifier holds white space, and the guard that is made from a file name is an identifier whatever
the file is called (`Guard.isIdentifier_ofFileName`).  It is in upper case and no reserved word is,
so it can be declared (`Guard.isUsable_ofFileName`).
-/

namespace RecordHeader

namespace Name

/-- A name that a header can declare: an identifier that C++ does not keep for itself. -/
def IsUsable (name : String) : Prop :=
  isIdentifier name = true ∧ name ∉ reservedWords

/-- An identifier without lower-case letters. -/
def IsUpperCase (name : String) : Prop :=
  isIdentifier name = true ∧ ∀ c ∈ name.toList, c.isLower = false

-- through `List.all`, since `∀ c ∈ _` over characters could be decided by trying all characters
instance (name : String) : Decidable (IsUpperCase name) :=
  decidable_of_iff (isIdentifier name = true ∧ (name.toList.all fun c => !c.isLower) = true) <| by
    simp [IsUpperCase, List.all_eq_true]

/-! ## Code points -/

theorem isUpper_iff {c : Char} : c.isUpper = true ↔ 65 ≤ c.toNat ∧ c.toNat ≤ 90 := by
  have hupper : c.isUpper = decide (c.val ≥ 'A'.val ∧ c.val ≤ 'Z'.val) := rfl
  rw [hupper, decide_eq_true_eq]
  exact Iff.rfl

theorem isLower_iff {c : Char} : c.isLower = true ↔ 97 ≤ c.toNat ∧ c.toNat ≤ 122 := by
  have hlower : c.isLower = (decide (c.val ≥ 'a'.val) && decide (c.val ≤ 'z'.val)) := rfl
  rw [hlower, Bool.and_eq_true, decide_eq_true_eq, decide_eq_true_eq]
  exact Iff.rfl

theorem isDigit_iff {c : Char} : c.isDigit = true ↔ 48 ≤ c.toNat ∧ c.toNat ≤ 57 := by
  have hdigit : c.isDigit = (decide (c.val ≥ '0'.val) && decide (c.val ≤ '9'.val)) := rfl
  rw [hdigit, Bool.and_eq_true, decide_eq_true_eq, decide_eq_true_eq]
  exact Iff.rfl

theorem eq_underscore_iff {c : Char} : c = '_' ↔ c.toNat = 95 := by
  rw [← Char.toNat_inj]
  rfl

theorem isStart_iff {c : Char} : isStart c = true ↔
    (65 ≤ c.toNat ∧ c.toNat ≤ 90) ∨ c.toNat = 95 ∨ (97 ≤ c.toNat ∧ c.toNat ≤ 122) := by
  have hstart : isStart c = (c.isUpper || c.isLower || c == '_') := rfl
  rw [hstart]
  simp only [Bool.or_eq_true, beq_iff_eq, isUpper_iff, isLower_iff, eq_underscore_iff]
  omega

theorem isPart_iff {c : Char} : isPart c = true ↔
    (48 ≤ c.toNat ∧ c.toNat ≤ 57) ∨ (65 ≤ c.toNat ∧ c.toNat ≤ 90) ∨ c.toNat = 95 ∨
      (97 ≤ c.toNat ∧ c.toNat ≤ 122) := by
  have hpart : isPart c = (c.isUpper || c.isLower || c.isDigit || c == '_') := rfl
  rw [hpart]
  simp only [Bool.or_eq_true, beq_iff_eq, isUpper_iff, isLower_iff, isDigit_iff, eq_underscore_iff]
  omega

theorem isWhiteSpace_of_isPart {c : Char} (h : isPart c = true) :
    Text.isWhiteSpace c = false := by
  rw [isPart_iff] at h
  simp [Text.isWhiteSpace, Text.whiteSpaceRanges]
  omega

/-- What an identifier goes on with can start one, digits apart. -/
theorem isStart_of_isPart {c : Char} (h : isPart c = true) (hdigit : c.isDigit = false) :
    isStart c = true := by
  have hpart : isPart c = (c.isAlpha || c.isDigit || c == '_') := rfl
  rw [hpart, hdigit, Bool.or_false] at h
  exact h

/-- Digits cannot. -/
theorem isDigit_of_isStart {c : Char} (h : isStart c = true) : c.isDigit = false := by
  rw [isStart_iff] at h
  rw [← Bool.not_eq_true, isDigit_iff]
  omega

/-! ## Identifiers -/

/-- What can stand inside an identifier can stand before one. -/
theorem isPart_of_mem_append {lead name : String} (hlead : lead.toList.all isPart = true)
    (h : isIdentifier name = true) : ∀ c ∈ (lead ++ name).toList, isPart c = true := by
  intro c hc
  rw [String.toList_append, List.mem_append] at hc
  rcases hc with hc | hc
  · exact List.all_eq_true.mp hlead c hc
  · exact isPart_of_mem h hc

/-- The first and the last character of an identifier. -/
theorem exists_ends {name : List Char} (h : isIdentifierChars name = true) :
    (∃ c, name.head? = some c ∧ isPart c = true) ∧
    ∃ c, name.getLast? = some c ∧ isPart c = true := by
  have hne := ne_nil_of_isIdentifierChars h
  exact ⟨⟨_, List.head?_eq_some_head hne, isPart_of_mem h (List.head_mem hne)⟩,
    ⟨_, List.getLast?_eq_some_getLast hne, isPart_of_mem h (List.getLast_mem hne)⟩⟩

theorem isUsable_of_check {name : String} (h : check name = .ok ()) : IsUsable name := by
  unfold check at h
  split_ifs at h with hnot hreserved
  refine ⟨by simpa using hnot, ?_⟩
  simpa [isReserved] using hreserved

theorem IsUsable.isReserved_eq_false {name : String} (h : IsUsable name) :
    isReserved name = false := by
  simpa [isReserved] using h.2

theorem check_eq_ok_iff {name : String} : check name = .ok () ↔ IsUsable name := by
  refine ⟨isUsable_of_check, fun h => ?_⟩
  rw [check, h.1, h.isReserved_eq_false]
  rfl

/-- Every reserved word has a lower-case letter. -/
theorem exists_isLower_of_mem_reservedWords {word : String} (h : word ∈ reservedWords) :
    ∃ c ∈ word.toList, c.isLower = true := by
  have hall : (reservedWords.all fun word => word.toList.any Char.isLower) = true := by
    decide +kernel
  exact List.any_eq_true.mp (List.all_eq_true.mp hall word h)

/-- So an upper-case identifier is not reserved. -/
theorem IsUpperCase.isUsable {name : String} (h : IsUpperCase name) : IsUsable name := by
  refine ⟨h.1, fun hreserved => ?_⟩
  obtain ⟨c, hc, hlower⟩ := exists_isLower_of_mem_reservedWords hreserved
  rw [h.2 c hc] at hlower
  exact Bool.noConfusion hlower

end Name

/-! ## Guards made from file names -/

namespace Guard

theorem toUpper_of_isLower_eq_false {c : Char} (h : c.isLower = false) : c.toUpper = c := by
  have hbounds : ¬('a'.val ≤ c.val ∧ c.val ≤ 'z'.val) := by
    rw [← Bool.not_eq_true, Name.isLower_iff] at h
    exact h
  exact dif_neg hbounds

theorem toNat_toUpper_of_isLower {c : Char} (h : c.isLower = true) :
    c.toUpper.toNat = c.toNat - 32 := by
  rw [Name.isLower_iff] at h
  have hbounds : 'a'.val ≤ c.val ∧ c.val ≤ 'z'.val := h
  -- 32 is taken away by adding 2 ^ 32 - 32 to a word of 32 bits
  have hoffset : ('A'.val - 'a'.val).toNat = 2 ^ 32 - 32 := by decide
  have hval : c.val.toNat = c.toNat := rfl
  unfold Char.toUpper
  rw [dif_pos hbounds]
  show (c.val + ('A'.val - 'a'.val)).toNat = c.toNat - 32
  rw [UInt32.toNat_add, hoffset, hval]
  omega

/-- The characters of a guard can stand in an identifier, and none is a lower-case letter. -/
theorem isPart_ofChar (c : Char) :
    Name.isPart (ofChar c) = true ∧ (ofChar c).isLower = false := by
  unfold ofChar
  split
  · next halphanum =>
      have hpart : Name.isPart c = true := by rw [Name.isPart, halphanum, Bool.true_or]
      cases hlower : c.isLower with
      | false =>
          rw [toUpper_of_isLower_eq_false hlower]
          exact ⟨hpart, hlower⟩
      | true =>
          have hupper := toNat_toUpper_of_isLower hlower
          rw [Name.isLower_iff] at hlower
          rw [← Bool.not_eq_true, Name.isLower_iff, Name.isPart_iff]
          omega
  · decide

/-- What `lead` puts in front makes a row of such characters an identifier. -/
theorem isIdentifierChars_lead {cs : List Char} (h : ∀ c ∈ cs, Name.isPart c = true) :
    Name.isIdentifierChars (lead cs) = true := by
  cases cs with
  | nil => decide
  | cons first rest =>
      have hrest : rest.all Name.isPart = true :=
        List.all_eq_true.mpr fun c hc => h c (List.mem_cons_of_mem _ hc)
      have hfirst := h first List.mem_cons_self
      rw [lead]
      split_ifs with hdigit
      · rw [Name.isIdentifierChars, List.all_cons, hfirst, hrest]
        decide
      · have hstart := Name.isStart_of_isPart hfirst (Bool.eq_false_of_not_eq_true hdigit)
        rw [Name.isIdentifierChars, hstart, hrest, Bool.true_and]

/-- `lead` adds nothing but an underscore. -/
theorem mem_lead {cs : List Char} {c : Char} (h : c ∈ lead cs) : c = '_' ∨ c ∈ cs := by
  cases cs with
  | nil => exact Or.inl (List.mem_singleton.mp h)
  | cons first rest =>
      rw [lead] at h
      split_ifs at h
      · exact List.mem_cons.mp h
      · exact Or.inr h

theorem isIdentifier_ofFileName (fileName : String) :
    Name.isIdentifier (ofFileName fileName) = true := by
  rw [Name.isIdentifier, ofFileName, String.toList_ofList]
  apply isIdentifierChars_lead
  intro c hc
  obtain ⟨found, -, rfl⟩ := List.mem_map.mp hc
  exact (isPart_ofChar found).1

theorem isLower_of_mem_ofFileName {fileName : String} {c : Char}
    (h : c ∈ (ofFileName fileName).toList) : c.isLower = false := by
  rw [ofFileName, String.toList_ofList] at h
  rcases mem_lead h with rfl | h
  · rfl
  · obtain ⟨found, -, rfl⟩ := List.mem_map.mp h
    exact (isPart_ofChar found).2

theorem isUpperCase_ofFileName (fileName : String) : Name.IsUpperCase (ofFileName fileName) :=
  ⟨isIdentifier_ofFileName fileName, fun _ hc => isLower_of_mem_ofFileName hc⟩

/-- Whatever a file is called, the guard made from its name can be declared. -/
theorem isUsable_ofFileName (fileName : String) : Name.IsUsable (ofFileName fileName) :=
  (isUpperCase_ofFileName fileName).isUsable

end Guard

end RecordHeader
