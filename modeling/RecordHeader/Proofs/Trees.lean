import RecordHeader.Proofs.Effects
import RecordHeader.Proofs.Walks
import Mathlib.Tactic

set_option autoImplicit false

/-! # Trees of files, and what runs leave of them

`Invocation.files_run_cases` says what the files are after a run: as before, or with one file put
at the place that the output path names.  No directory stands at such a place, so a run neither
makes nor removes a directory, and changes the mode of none (`lookup_directory_run`).

Two properties of file systems are kept for this reason.  The entries still form a tree:
`FileSystem.Tree` is a file system that carries this fact, and `Tree.after` is the tree that a run
leaves.  And directories are still open to their owner (`isOpen_run_iff`).  Walks and replacements
take this for granted and look at no mode of a directory, so it has to be assumed of the files at
the start and of no others.
-/

namespace RecordHeader

/-- Whether the owner of a directory may list, change and enter it. -/
def Mode.isOpen (mode : Mode) : Bool :=
  mode.bits.testBit 8 && mode.bits.testBit 7 && mode.bits.testBit 6

namespace FileSystem

/-- Every directory is open to its owner. -/
def IsOpen (fs : FileSystem) : Prop :=
  ∀ location mode, fs.lookup location = some (.directory mode) → mode.isOpen = true

section Destinations

variable {fs : FileSystem} {path : String} {target : Location}

theorem not_isDirectory_of_destination (h : fs.destination path = .ok target) :
    ¬ fs.IsDirectory target := by
  obtain ⟨front, last, here, hplace, rfl⟩ := exists_isPlaceOf h
  exact hplace.not_isDirectory

/-- A file that is put where a path says leaves all directories, and adds none. -/
theorem lookup_directory_put (h : fs.destination path = .ok target) (mode : Mode) (bytes : Bytes)
    (location : Location) (other : Mode) :
    (fs.put target (.file mode bytes)).lookup location = some (.directory other) ↔
      fs.lookup location = some (.directory other) := by
  rw [lookup_put]
  split_ifs with heq
  · -- a file stands at the place now, and no directory stood there before
    subst heq
    refine iff_of_false (by simp) fun hlookup => ?_
    exact not_isDirectory_of_destination h ⟨other, hlookup⟩
  · exact Iff.rfl

theorem IsTree.put_destination (htree : fs.IsTree) (h : fs.destination path = .ok target)
    (node : Node) : (fs.put target node).IsTree := by
  obtain ⟨front, last, here, hplace, rfl⟩ := exists_isPlaceOf h
  have hstart := htree.origin htree.working path
  exact htree.put (hplace.leads.goes_on.2 htree hstart) hplace.not_isDirectory node

end Destinations

end FileSystem

namespace Invocation

/-- **The files after a run** are those before it, or have one file put where the output path
says. -/
theorem files_run_cases (invocation : Invocation) (progress : Progress) (files : FileSystem) :
    (Run.on invocation.run progress files).2 = files ∨
    ∃ target mode bytes, files.destination invocation.output = .ok target ∧
      (Run.on invocation.run progress files).2 = files.put target (.file mode bytes) := by
  cases hanswer : (Run.on invocation.run progress files).1.1 with
  | error failure => exact Or.inl (files_run_of_error hanswer)
  | ok outcome =>
      -- only a run that was asked to write can have put a file
      by_cases haction : outcome.action = .write
      · obtain ⟨summary, rfl⟩ := Outcome.eq_written_of_action haction
        obtain ⟨rendered, -, hcases⟩ := written_cases hanswer
        rcases hcases with ⟨-, -, hafter⟩ | ⟨-, target, mode, htarget, -, hafter⟩
        · exact Or.inl hafter
        · exact Or.inr ⟨target, mode, _, htarget, hafter⟩
      · rw [← action_of_ok hanswer] at haction
        exact Or.inl (files_run_of_ne_write haction progress files)

/-- A run makes, removes and changes no directory. -/
theorem lookup_directory_run (invocation : Invocation) (progress : Progress) (files : FileSystem)
    (location : Location) (mode : Mode) :
    (Run.on invocation.run progress files).2.lookup location = some (.directory mode) ↔
      files.lookup location = some (.directory mode) := by
  rcases invocation.files_run_cases progress files with
    hafter | ⟨target, kept, bytes, htarget, hafter⟩
  · rw [hafter]
  · rw [hafter]
    exact FileSystem.lookup_directory_put htarget kept bytes location mode

/-- **What is assumed of directories lasts.** Walks and replacements are those of a system whose
directories are open to their owner, and a run neither opens nor closes one. -/
theorem isOpen_run_iff (invocation : Invocation) (progress : Progress) (files : FileSystem) :
    (Run.on invocation.run progress files).2.IsOpen ↔ files.IsOpen := by
  unfold FileSystem.IsOpen
  simp only [lookup_directory_run]

theorem isTree_run (invocation : Invocation) (progress : Progress) {files : FileSystem}
    (htree : files.IsTree) : (Run.on invocation.run progress files).2.IsTree := by
  rcases invocation.files_run_cases progress files with
    hafter | ⟨target, mode, bytes, htarget, hafter⟩
  · rw [hafter]
    exact htree
  · rw [hafter]
    exact htree.put_destination htarget _

end Invocation

namespace FileSystem

/-- A file system whose entries form a tree. -/
structure Tree extends FileSystem where
  isTree : toFileSystem.IsTree

namespace Tree

/-- The tree of an empty working directory. -/
def fresh : Tree :=
  ⟨FileSystem.fresh, isTree_fresh⟩

/-- The tree with a node put into a directory, and not in the place of one. -/
def put (tree : Tree) (place : Location) (name : String) (node : Node)
    (hplace : tree.IsDirectory place) (hnot : ¬ tree.IsDirectory (place ++ [name])) : Tree :=
  ⟨tree.toFileSystem.put (place ++ [name]) node, tree.isTree.put hplace hnot node⟩

/-- The tree that a run leaves. -/
def after (tree : Tree) (invocation : Invocation) : Tree :=
  ⟨(Run.on invocation.run {} tree.toFileSystem).2, invocation.isTree_run {} tree.isTree⟩

theorem toFileSystem_after (tree : Tree) (invocation : Invocation) :
    (tree.after invocation).toFileSystem = (Run.on invocation.run {} tree.toFileSystem).2 :=
  rfl

end Tree

end FileSystem

end RecordHeader
