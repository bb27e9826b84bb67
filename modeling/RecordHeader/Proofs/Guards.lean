import RecordHeader.CommandLine
import RecordHeader.Proofs.Names
import Mathlib.Tactic

set_option autoImplicit false

/-! # Which guards are made from file names

The guard that is made from a file name is an upper-case identifier (`Name.IsUpperCase`).  There is
no other condition on it: the upper-case identifiers are exactly the texts that making a guard
leaves as they are (`Guard.ofFileName_eq_self_iff`).  So each of them is a guard, made from itself,
and making a guard of a guard changes nothing.

A guard can also be given by an option.  What is made from a file name passes the test for it, and
no name that passes is taken for a flag (`Invocation.ofArguments_guard`).
-/

namespace RecordHeader

namespace Guard

/-! ## What a guard leaves as it is -/

/-- A guard keeps the characters of upper-case identifiers, and no others. -/
theorem ofChar_eq_self_iff {c : Char} :
    ofChar c = c ↔ Name.isPart c = true ∧ c.isLower = false := by
  constructor
  · intro h
    rw [← h]
    exact isPart_ofChar c
  · rintro ⟨hpart, hlower⟩
    unfold ofChar
    split
    · exact toUpper_of_isLower_eq_false hlower
    · next halphanum =>
        rw [Name.isPart, Bool.eq_false_of_not_eq_true halphanum, Bool.false_or] at hpart
        exact (eq_of_beq hpart).symm

/-- An identifier needs no underscore in front: it does not start with a digit. -/
theorem lead_of_isIdentifierChars {cs : List Char} (h : Name.isIdentifierChars cs = true) :
    lead cs = cs := by
  cases cs with
  | nil => exact Bool.noConfusion h
  | cons first rest =>
      have hstart : Name.isStart first = true := (Bool.and_eq_true_iff.mp h).1
      have hdigit : first.isDigit = false := Name.isDigit_of_isStart hstart
      rw [lead, hdigit]
      rfl

/-- **The upper-case identifiers are their own guards**, and nothing else is. -/
theorem ofFileName_eq_self_iff {name : String} :
    ofFileName name = name ↔ Name.IsUpperCase name := by
  constructor
  · intro h
    rw [← h]
    exact isUpperCase_ofFileName name
  · rintro ⟨hidentifier, hlower⟩
    have hkept : name.toList.map ofChar = name.toList := by
      refine (List.map_congr_left fun c hc => ?_).trans (List.map_id _)
      exact ofChar_eq_self_iff.mpr ⟨Name.isPart_of_mem hidentifier hc, hlower c hc⟩
    rw [ofFileName, hkept, lead_of_isIdentifierChars hidentifier, String.ofList_toList]

end Guard

/-! ## Guards given by an option -/

namespace Invocation

open CommandLine

/-- A usable name is no flag, since it does not start with a dash. -/
theorem ofText_of_isIdentifier {name : String} (h : Name.isIdentifier name = true) :
    Argument.ofText name = .path := by
  have hdash : '-' ∉ name.toList := Name.not_mem_of_isPart_eq_false (by decide) h
  unfold Argument.ofText
  split
  · next heq => simp [heq] at hdash
  · next heq => simp [heq] at hdash
  · next heq => simp [heq] at hdash
  · rfl

/-- Every usable name is taken as a guard. -/
theorem ofArguments_guard {name : String} (h : Name.IsUsable name) :
    ofArguments ["--guard", name] = .ok { guard := some name } := by
  have hoption : Argument.ofText "--guard" = .long "guard" none := by decide
  have hflag : Flag.ofLong? "guard" = none := by decide
  have htakes : NameOption.ofLong? "guard" = some .guard := by decide
  have hvalue : Argument.ofText name = .path := ofText_of_isIdentifier h.1
  have hcheck : Name.check name = .ok () := Name.check_eq_ok_iff.mpr h
  have hname : Draft.addName {} name .guard = .ok { guard := some name } := by
    simp only [Draft.addName, Draft.checkName, hcheck]
    rfl
  simp only [ofArguments, readAll, hoption, hflag, htakes, hvalue, if_true, hname]
  rfl

end Invocation

namespace Guard

/-- **The guards made from file names are the upper-case identifiers.** Every one is an upper-case
identifier and no reserved word, so it passes the test for a chosen name and can be given by the
option; a guard made of it is the same.  A text is made from some file name exactly if it is an
upper-case identifier, and then it is made from itself. -/
theorem ofFileName_exact :
    (∀ fileName,
      Name.IsUpperCase (ofFileName fileName) ∧
      Name.isReserved (ofFileName fileName) = false ∧
      Name.check (ofFileName fileName) = .ok () ∧
      Invocation.ofArguments ["--guard", ofFileName fileName]
        = .ok { guard := some (ofFileName fileName) } ∧
      ofFileName (ofFileName fileName) = ofFileName fileName) ∧
    ∀ guard,
      ((∃ fileName, ofFileName fileName = guard) ↔ Name.IsUpperCase guard) ∧
      (Name.IsUpperCase guard ↔ ofFileName guard = guard) := by
  constructor
  · intro fileName
    have hupper : Name.IsUpperCase (ofFileName fileName) := isUpperCase_ofFileName fileName
    have husable : Name.IsUsable (ofFileName fileName) := isUsable_ofFileName fileName
    exact ⟨hupper, husable.isReserved_eq_false, Name.check_eq_ok_iff.mpr husable,
      Invocation.ofArguments_guard husable, ofFileName_eq_self_iff.mpr hupper⟩
  · intro guard
    refine ⟨⟨?_, fun hupper => ⟨guard, ofFileName_eq_self_iff.mpr hupper⟩⟩,
      ofFileName_eq_self_iff.symm⟩
    rintro ⟨fileName, rfl⟩
    exact isUpperCase_ofFileName fileName

example : ofFileName "3d.h" = "_3D_H" ∧ Name.IsUpperCase "_3D_H" ∧ ¬ Name.IsUpperCase "_3d_H" ∧
    ¬ Name.IsUpperCase "3D_H" := by
  decide

end Guard

end RecordHeader
