import RecordHeader.FileSystem.Replace

set_option autoImplicit false

/-! # Storage

A run reads files and replaces files, and nothing else.  `Storage` names these
two operations, so that one and the same run works on the files of a computer
and on the file systems of `FileSystem.Basic`, about which one can reason.
-/

namespace RecordHeader

/-- The operations on files that a run needs. -/
class Storage (m : Type → Type) where
  /-- The bytes of the file that a path leads to. -/
  read : String → m (Except Fault Bytes)
  /-- Replaces the file at a path in one step, or creates it. -/
  replace : String → Bytes → m (Except FileError Unit)

instance : Storage (StateM FileSystem) where
  read path := fun fs => (fs.read path, fs)
  replace path bytes := fun fs => fs.replace path bytes

end RecordHeader
