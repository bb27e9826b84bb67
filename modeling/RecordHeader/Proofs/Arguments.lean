import RecordHeader.CommandLine
import Mathlib.Tactic

set_option autoImplicit false

/-! # The same arguments with another action

Arguments that ask for a header to be written can be given again with `--check` or `--stdout` in
front, and then ask for the same header to be checked or printed: nothing else of the invocation
changes (`ofArguments_cons_check`, `ofArguments_cons_print`).

Reading goes from left to right and changes a draft.  What holds of each single change and of two
in a row (`Draft.IsClosed`) holds of reading a row of arguments (`IsClosed.readAll`).  Here it is
that a change that leaves an action unset does the same to the draft with that action set
(`Draft.KeepsUnset`).
-/

namespace RecordHeader

namespace CommandLine

namespace Draft

/-! ## Properties of reading -/

/-- A property of changes that each single change has, and two changes in a row if both have it. -/
structure IsClosed (property : (Draft → Except Stop Draft) → Prop) : Prop where
  ok : property .ok
  error : ∀ stop, property fun _ => .error stop
  bind : ∀ {first second : Draft → Except Stop Draft}, property first → property second →
    property fun draft => first draft >>= second
  addPath : ∀ path, property (addPath · path)
  addFlag : ∀ flag, property (addFlag · flag)
  addName : ∀ value option, property (addName · value option)

namespace IsClosed

variable {property : (Draft → Except Stop Draft) → Prop}

theorem addCluster (h : IsClosed property) (flags : List Char) :
    property (addCluster · flags) := by
  induction flags with
  | nil => exact h.ok
  | cons c cs ih =>
      simp only [Draft.addCluster]
      cases Flag.ofShort? c with
      | none => exact h.error _
      | some flag => exact h.bind (h.addFlag flag) ih

theorem addPaths (h : IsClosed property) (paths : List String) :
    property (addPaths · paths) := by
  induction paths with
  | nil => exact h.ok
  | cons path paths ih =>
      simp only [Draft.addPaths]
      exact h.bind (h.addPath path) ih

/-- **Induction along the arguments.** Such a property holds of reading any row of them. -/
theorem readAll (h : IsClosed property) (arguments : List String) :
    property (readAll · arguments) := by
  -- on the number of arguments, since an option takes the one behind it as its value
  induction hn : arguments.length using Nat.strong_induction_on generalizing arguments with
  | _ n ih =>
      cases arguments with
      | nil =>
          simp only [CommandLine.readAll]
          exact h.ok
      | cons text rest =>
          have hrest : property (CommandLine.readAll · rest) :=
            ih rest.length (by simp at hn; omega) rest rfl
          cases hform : Argument.ofText text with
          | separator =>
              simp only [CommandLine.readAll, hform]
              exact h.addPaths rest
          | cluster flags =>
              simp only [CommandLine.readAll, hform]
              exact h.bind (h.addCluster flags) hrest
          | path =>
              simp only [CommandLine.readAll, hform]
              exact h.bind (h.addPath text) hrest
          | long name value =>
              cases hflag : Flag.ofLong? name with
              | some flag =>
                  cases value with
                  | some value =>
                      simp only [CommandLine.readAll, hform, hflag]
                      exact h.error _
                  | none =>
                      simp only [CommandLine.readAll, hform, hflag]
                      exact h.bind (h.addFlag flag) hrest
              | none =>
                  cases hoption : NameOption.ofLong? name with
                  | none =>
                      simp only [CommandLine.readAll, hform, hflag, hoption]
                      exact h.error _
                  | some option =>
                      cases value with
                      | some value =>
                          simp only [CommandLine.readAll, hform, hflag, hoption]
                          exact h.bind (h.addName value option) hrest
                      | none =>
                          cases rest with
                          | nil =>
                              simp only [CommandLine.readAll, hform, hflag, hoption]
                              exact h.error _
                          | cons value others =>
                              simp only [CommandLine.readAll, hform, hflag, hoption]
                              by_cases hvalue : Argument.ofText value = .path
                              · simp only [hvalue, if_true]
                                have hothers : property (CommandLine.readAll · others) :=
                                  ih others.length (by simp at hn; omega) others rfl
                                exact h.bind (h.addName value option) hothers
                              · simp only [hvalue, if_false]
                                exact h.error _

end IsClosed

/-! ## An action set from the start -/

/-- Whether an action has been asked for; writing is what happens without one. -/
def isSet (draft : Draft) : Action → Bool
  | .check => draft.check
  | .print => draft.print
  | .write => false

/-- The draft with an action asked for. -/
def set (draft : Draft) : Action → Draft
  | .check => { draft with check := true }
  | .print => { draft with print := true }
  | .write => draft

/-- A change that, where it leaves an action unset, found it unset and would have made the same
change with the action set. -/
def KeepsUnset (action : Action) (change : Draft → Except Stop Draft) : Prop :=
  ∀ draft next, change draft = .ok next → next.isSet action = false →
    draft.isSet action = false ∧ change (draft.set action) = .ok (next.set action)

variable {action : Action}

theorem KeepsUnset.ok : KeepsUnset action .ok := by
  intro draft next h hunset
  obtain rfl := Except.ok.inj h
  exact ⟨hunset, rfl⟩

/-- Two such changes in a row are one. -/
theorem KeepsUnset.bind {first second : Draft → Except Stop Draft}
    (hfirst : KeepsUnset action first) (hsecond : KeepsUnset action second) :
    KeepsUnset action fun draft => first draft >>= second := by
  intro draft next h hunset
  cases hmiddle : first draft with
  | error stop =>
      simp only [hmiddle] at h
      cases h
  | ok middle =>
      simp only [hmiddle] at h
      obtain ⟨hunset', hnext⟩ := hsecond middle next h hunset
      obtain ⟨hunset'', hmiddle'⟩ := hfirst draft middle hmiddle hunset'
      refine ⟨hunset'', ?_⟩
      simp only [hmiddle']
      exact hnext

theorem KeepsUnset.error {stop : Stop} : KeepsUnset action fun _ => .error stop := by
  intro draft next h
  cases h

theorem keepsUnset_addPath (path : String) : KeepsUnset action (addPath · path) := by
  intro draft next h hunset
  simp only [addPath] at h ⊢
  split_ifs at h with hmany hempty
  obtain rfl := Except.ok.inj h
  cases action <;> exact ⟨hunset, by simp [set, hmany, hempty]⟩

theorem keepsUnset_addFlag (flag : Flag) : KeepsUnset action (addFlag · flag) := by
  intro draft next h hunset
  cases flag with
  | check =>
      simp only [addFlag] at h ⊢
      split_ifs at h with hset
      obtain rfl := Except.ok.inj h
      cases action with
      | write => exact ⟨rfl, by simp [set, hset]⟩
      | check => exact absurd hunset (by simp [isSet])
      | print => exact ⟨hunset, by simp [set, hset]⟩
  | print =>
      simp only [addFlag] at h ⊢
      split_ifs at h with hset
      obtain rfl := Except.ok.inj h
      cases action with
      | write => exact ⟨rfl, by simp [set, hset]⟩
      | check => exact ⟨hunset, by simp [set, hset]⟩
      | print => exact absurd hunset (by simp [isSet])
  | verbose =>
      obtain rfl := Except.ok.inj h
      cases action <;> exact ⟨hunset, rfl⟩
  | help => cases h
  | version => cases h

theorem keepsUnset_addName (value : String) (option : NameOption) :
    KeepsUnset action (addName · value option) := by
  intro draft next h hunset
  cases option with
  | aggregate =>
      simp only [addName] at h ⊢
      cases hcheck : checkName "--aggregate" value draft.aggregate with
      | error stop => simp [hcheck, bind, Except.bind] at h
      | ok _ =>
          rw [hcheck] at h
          obtain rfl := Except.ok.inj h
          cases action <;> exact ⟨hunset, by simp only [set, hcheck]; rfl⟩
  | guard =>
      simp only [addName] at h ⊢
      cases hcheck : checkName "--guard" value draft.guard with
      | error stop => simp [hcheck, bind, Except.bind] at h
      | ok _ =>
          rw [hcheck] at h
          obtain rfl := Except.ok.inj h
          cases action <;> exact ⟨hunset, by simp only [set, hcheck]; rfl⟩

/-- Reading with an action set from the start changes nothing but that action, where the arguments
do not ask for it themselves. -/
theorem isClosed_keepsUnset : IsClosed (KeepsUnset action) where
  ok := .ok
  error _ := .error
  bind := .bind
  addPath := keepsUnset_addPath
  addFlag := keepsUnset_addFlag
  addName := keepsUnset_addName

end Draft

end CommandLine

namespace Invocation

open CommandLine

/-- Accepted arguments are read into a draft that describes the invocation. -/
theorem exists_draft {arguments : List String} {invocation : Invocation}
    (h : ofArguments arguments = .ok invocation) :
    ∃ draft, readAll {} arguments = .ok draft ∧ draft.finish = .ok invocation := by
  unfold ofArguments at h
  cases hread : readAll {} arguments with
  | error stop =>
      rw [hread] at h
      cases h
  | ok draft =>
      rw [hread] at h
      exact ⟨draft, rfl, h⟩

/-- An invocation that writes comes from a draft that asks for nothing else. -/
theorem unset_of_write {draft : Draft} {invocation : Invocation}
    (h : draft.finish = .ok invocation) (haction : invocation.action = .write) :
    draft.check = false ∧ draft.print = false := by
  unfold Draft.finish at h
  split_ifs at h with hboth hcheck hprint
  · obtain rfl := Except.ok.inj h
    cases haction
  · obtain rfl := Except.ok.inj h
    cases haction
  · exact ⟨Bool.eq_false_of_not_eq_true hcheck, Bool.eq_false_of_not_eq_true hprint⟩

/-- A draft that asks for nothing and then for one action gives that action to its invocation. -/
theorem finish_set {draft : Draft} {invocation : Invocation} (hcheck : draft.check = false)
    (hprint : draft.print = false) (h : draft.finish = .ok invocation) (action : Action) :
    (draft.set action).finish = .ok { invocation with action := action } := by
  simp only [Draft.finish, hcheck, hprint] at h
  obtain rfl := Except.ok.inj h
  cases action <;> simp [Draft.finish, Draft.set, hcheck, hprint]

/-- Arguments that ask for a header to be written, read by a draft that asks for another
action. -/
theorem readAll_set {arguments : List String} {invocation : Invocation}
    (h : ofArguments arguments = .ok invocation) (haction : invocation.action = .write)
    (action : Action) :
    (readAll (Draft.set {} action) arguments >>= Draft.finish)
      = .ok { invocation with action := action } := by
  obtain ⟨draft, hread, hfinish⟩ := exists_draft h
  obtain ⟨hcheck, hprint⟩ := unset_of_write hfinish haction
  have hunset : draft.isSet action = false := by
    cases action with
    | write => rfl
    | check => exact hcheck
    | print => exact hprint
  obtain ⟨-, hset⟩ := Draft.isClosed_keepsUnset.readAll arguments {} draft hread hunset
  simp only [hset]
  exact finish_set hcheck hprint hfinish action

/-- **The same arguments with `--check`** ask for the same header to be checked. -/
theorem ofArguments_cons_check {arguments : List String} {invocation : Invocation}
    (h : ofArguments arguments = .ok invocation) (haction : invocation.action = .write) :
    ofArguments ("--check" :: arguments) = .ok { invocation with action := .check } :=
  readAll_set h haction .check

/-- **The same arguments with `--stdout`** ask for the same header to be printed. -/
theorem ofArguments_cons_print {arguments : List String} {invocation : Invocation}
    (h : ofArguments arguments = .ok invocation) (haction : invocation.action = .write) :
    ofArguments ("--stdout" :: arguments) = .ok { invocation with action := .print } :=
  readAll_set h haction .print

end Invocation

end RecordHeader
