import RecordHeader.Text.Bytes

set_option autoImplicit false

/-! # File systems

A file system is a finite map from locations to nodes: files with a mode and
bytes, directories, and symbolic links.  A location is the row of names from
the root, so it is free of links, of `.` and of `..`; how a path leads to a
location is the matter of `FileSystem.Walk`.

`lookup` is the view of a file system.  The lemmas of this file say what `put`
and `erase` do to it.
-/

namespace RecordHeader

/-- The permission bits of a file or a directory. -/
structure Mode where
  bits : Nat
deriving DecidableEq

namespace Mode

/-- Files that a program creates: read by all, written by the owner. -/
def file : Mode := ⟨0o644⟩

/-- Directories: entered and read by all, changed by the owner. -/
def directory : Mode := ⟨0o755⟩

/-- Temporary files: for the owner alone. -/
def temporary : Mode := ⟨0o600⟩

/-- Whether the owner may read. -/
def isReadable (mode : Mode) : Bool :=
  mode.bits.testBit 8

/-- The permission bits in octal. -/
def octal (mode : Mode) : String :=
  String.ofList (Nat.toDigits 8 (mode.bits % 0o1000))

/-- The mode with the given octal digits. -/
def ofOctal? (digits : String) : Option Mode :=
  (digits.toList.foldlM (fun bits c =>
    if '0' ≤ c ∧ c ≤ '7' then some (8 * bits + (c.toNat - '0'.toNat)) else none) 0).map Mode.mk

end Mode

/-- The names on the way from the root to an entry. -/
abbrev Location := List String

/-- What stands at a location. -/
inductive Node where
  | file (mode : Mode) (bytes : Bytes)
  | directory (mode : Mode)
  | link (target : String)
deriving DecidableEq

/-- The entries of a file system, and the directory where relative paths start. -/
structure FileSystem where
  entries : List (Location × Node)
  workingDirectory : Location
deriving DecidableEq

namespace FileSystem

/-- An empty working directory, in a home directory below the root. -/
def fresh : FileSystem where
  entries :=
    [([], .directory .directory), (["home"], .directory .directory),
     (["home", "developer"], .directory .directory)]
  workingDirectory := ["home", "developer"]

/-- The first node for a location in a list of entries. -/
def lookupEntry (location : Location) : List (Location × Node) → Option Node
  | [] => none
  | entry :: rest => if entry.1 = location then some entry.2 else lookupEntry location rest

/-- The node at a location. -/
def lookup (fs : FileSystem) (location : Location) : Option Node :=
  lookupEntry location fs.entries

/-- Sets the node of a location in a list of entries, in the place of the one
that stands there or at the end. -/
def putEntry (location : Location) (node : Node) :
    List (Location × Node) → List (Location × Node)
  | [] => [(location, node)]
  | entry :: rest =>
    if entry.1 = location then (location, node) :: rest
    else entry :: putEntry location node rest

/-- Sets the node at a location. -/
def put (fs : FileSystem) (location : Location) (node : Node) : FileSystem :=
  { fs with entries := putEntry location node fs.entries }

/-- Removes a location from a list of entries. -/
def eraseEntry (location : Location) (entries : List (Location × Node)) :
    List (Location × Node) :=
  entries.filter fun entry => entry.1 ≠ location

/-- Removes the node at a location. -/
def erase (fs : FileSystem) (location : Location) : FileSystem :=
  { fs with entries := eraseEntry location fs.entries }

/-! ## What the operations do to the view -/

theorem lookupEntry_putEntry (location other : Location) (node : Node)
    (entries : List (Location × Node)) :
    lookupEntry other (putEntry location node entries) =
      if location = other then some node else lookupEntry other entries := by
  induction entries with
  | nil => rfl
  | cons entry rest ih =>
    by_cases h : entry.1 = location
    · by_cases ho : location = other <;> simp [putEntry, lookupEntry, h, ho]
    · by_cases ho : location = other
      · subst ho
        simpa [putEntry, lookupEntry, h] using ih
      · simp [putEntry, lookupEntry, h, ih, ho]

theorem lookupEntry_eraseEntry_of_ne {location other : Location} (h : other ≠ location)
    (entries : List (Location × Node)) :
    lookupEntry other (eraseEntry location entries) = lookupEntry other entries := by
  induction entries with
  | nil => rfl
  | cons entry rest ih =>
    by_cases hk : entry.1 = location
    · have ho : entry.1 ≠ other := fun e => h (e.symm.trans hk)
      simpa [eraseEntry, lookupEntry, hk, hk ▸ ho] using ih
    · by_cases ho : entry.1 = other
      · simp [eraseEntry, lookupEntry, ho, h]
      · simpa [eraseEntry, lookupEntry, hk, ho] using ih

theorem lookupEntry_eraseEntry_self (location : Location) (entries : List (Location × Node)) :
    lookupEntry location (eraseEntry location entries) = none := by
  induction entries with
  | nil => rfl
  | cons entry rest ih =>
    by_cases hk : entry.1 = location
    · simpa [eraseEntry, hk] using ih
    · simpa [eraseEntry, lookupEntry, hk] using ih

theorem eraseEntry_putEntry_of_lookupEntry_eq_none {location : Location} (node : Node)
    {entries : List (Location × Node)} (h : lookupEntry location entries = none) :
    eraseEntry location (putEntry location node entries) = entries := by
  induction entries with
  | nil => simp [putEntry, eraseEntry]
  | cons entry rest ih =>
    by_cases hk : entry.1 = location
    · simp [lookupEntry, hk] at h
    · simp only [lookupEntry, if_neg hk] at h
      simpa [putEntry, eraseEntry, hk] using ih h

/-- What a location holds after a node was put somewhere. -/
theorem lookup_put (fs : FileSystem) (location other : Location) (node : Node) :
    (fs.put location node).lookup other =
      if location = other then some node else fs.lookup other :=
  lookupEntry_putEntry location other node fs.entries

/-- Erasing a node changes no other location. -/
theorem lookup_erase_of_ne (fs : FileSystem) {location other : Location}
    (h : other ≠ location) : (fs.erase location).lookup other = fs.lookup other :=
  lookupEntry_eraseEntry_of_ne h fs.entries

/-- Nothing stands where a node was erased. -/
theorem lookup_erase_self (fs : FileSystem) (location : Location) :
    (fs.erase location).lookup location = none :=
  lookupEntry_eraseEntry_self location fs.entries

/-- A new entry that is erased again leaves no trace. -/
theorem erase_put_of_lookup_eq_none (fs : FileSystem) {location : Location} (node : Node)
    (h : fs.lookup location = none) : (fs.put location node).erase location = fs := by
  have entries := eraseEntry_putEntry_of_lookupEntry_eq_none node h
  simp only [put, erase, entries]

end FileSystem

end RecordHeader
