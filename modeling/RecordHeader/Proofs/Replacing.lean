import RecordHeader.FileSystem.Replace
import Mathlib.Tactic

set_option autoImplicit false

/-! # A replacement, seen from outside

A file is replaced through a temporary file in the same directory, which gets the mode of the
old file and then takes its name.  `replace_eq` says what is seen of this from outside: either
nothing has happened, or the one entry that the path names is now a file with the new contents.

The temporary file leaves no trace because its name is new.  No location of the file system
ends in it (`lookup_of_not_mem_names`), so what is created can be removed again; and no walk ever
takes a step of that name (`walk_put`), so a path leads to the same place, and finds the same
there, whether the temporary file stands or not.
-/

namespace RecordHeader.FileSystem

/-- What was computed in two steps that both succeeded. -/
theorem exists_of_bind_ok {α β : Type} {first : Except Fault α} {next : α → Except Fault β}
    {result : β} (h : (first >>= next) = .ok result) :
    ∃ value, first = .ok value ∧ next value = .ok result := by
  cases first with
  | error fault => cases h
  | ok value => exact ⟨value, rfl, h⟩

/-! ## A name that occurs nowhere -/

theorem length_newName (used : List String) :
    (newName used).length = 4 + (used.map String.length).foldr max 0 := by
  have hstart : ".tmp".length = 4 := rfl
  simp [newName, String.length_append, hstart]

/-- A new name is longer than all names in use. -/
theorem newName_not_mem (used : List String) : newName used ∉ used := by
  intro h
  have hle : (newName used).length ≤ (used.map String.length).foldr max 0 :=
    List.le_max_of_le' 0 (List.mem_map_of_mem h) le_rfl
  rw [length_newName] at hle
  omega

theorem newName_ne_dot (used : List String) : newName used ≠ "." := by
  intro h
  have hlength := length_newName used
  rw [h] at hlength
  have hdot : ".".length = 1 := rfl
  omega

theorem temporaryName_not_mem_names (fs : FileSystem) (path : String) :
    fs.temporaryName path ∉ fs.names := by
  intro h
  exact newName_not_mem _ (List.mem_append_left _ h)

theorem temporaryName_not_mem_segments (fs : FileSystem) (path : String) :
    fs.temporaryName path ∉ Path.segments path := by
  intro h
  exact newName_not_mem _ (List.mem_append_right _ h)

theorem mem_entries_of_lookupEntry {location : Location} {node : Node}
    {entries : List (Location × Node)} (h : lookupEntry location entries = some node) :
    (location, node) ∈ entries := by
  induction entries with
  | nil => simp [lookupEntry] at h
  | cons entry rest ih =>
      by_cases hk : entry.1 = location
      · simp only [lookupEntry, if_pos hk, Option.some.injEq] at h
        rw [← hk, ← h]
        exact List.mem_cons_self
      · simp only [lookupEntry, if_neg hk] at h
        exact List.mem_cons_of_mem _ (ih h)

/-- The names of a location at which something stands occur in the file system. -/
theorem mem_names_of_lookup {fs : FileSystem} {location : Location} {node : Node}
    (h : fs.lookup location = some node) {name : String} (hname : name ∈ location) :
    name ∈ fs.names := by
  refine List.mem_append_right _ (List.mem_flatMap.mpr ⟨_, mem_entries_of_lookupEntry h, ?_⟩)
  cases node <;> simp [hname]

/-- The steps of the target of a link occur in the file system. -/
theorem mem_names_of_lookup_link {fs : FileSystem} {location : Location} {target : String}
    (h : fs.lookup location = some (.link target)) {name : String}
    (hname : name ∈ Path.steps target) : name ∈ fs.names := by
  refine List.mem_append_right _ (List.mem_flatMap.mpr ⟨_, mem_entries_of_lookupEntry h, ?_⟩)
  simp [hname]

theorem lookup_of_not_mem_names {fs : FileSystem} {name : String} (h : name ∉ fs.names)
    {location : Location} (hname : name ∈ location) : fs.lookup location = none := by
  cases hlookup : fs.lookup location with
  | none => rfl
  | some node => exact absurd (mem_names_of_lookup hlookup hname) h

/-! ## Walks past an entry of that name -/

section Walks

variable {fs : FileSystem} {name : String} {place : Location} {node : Node}

theorem lookup_put_step {step : String} (h : step ≠ name) (here : Location) :
    (fs.put (place ++ [name]) node).lookup (here ++ [step]) = fs.lookup (here ++ [step]) := by
  rw [lookup_put, if_neg]
  intro heq
  have hlast : name = step := by simpa using congrArg List.getLast? heq
  exact h hlast.symm

/-- Steps of other names do not find the entry, if the links that are followed do not. -/
theorem descend_put (hname : name ∉ fs.names)
    {follow follow' : Location → List String → Except Fault Location}
    (hfollow : ∀ here steps, name ∉ steps → follow' here steps = follow here steps)
    (here : Location) {steps : List String} (hsteps : name ∉ steps) :
    (fs.put (place ++ [name]) node).descend follow' here steps = fs.descend follow here steps := by
  induction steps generalizing here with
  | nil => rfl
  | cons step rest ih =>
      have hstep : step ≠ name := fun h => hsteps (by simp [h])
      have hrest : name ∉ rest := fun h => hsteps (by simp [h])
      unfold descend
      rw [lookup_put_step hstep here]
      rw [ih here hrest, ih here.dropLast hrest]
      cases hlookup : fs.lookup (here ++ [step]) with
      | none => rfl
      | some found =>
          cases found with
          | file mode bytes => rfl
          | directory mode => simp only [ih (here ++ [step]) hrest]
          | link target =>
              -- the target of a link is made of names of the file system
              have htarget : name ∉ Path.steps target ++ rest := by
                intro hmem
                rcases List.mem_append.mp hmem with hin | hleft
                · exact hname (mem_names_of_lookup_link hlookup hin)
                · exact hrest hleft
              simp only [hfollow _ _ htarget]

/-- **No walk sees an entry whose name it never steps on.** -/
theorem walk_put (hname : name ∉ fs.names) (links : Nat) (here : Location) {steps : List String}
    (hsteps : name ∉ steps) :
    (fs.put (place ++ [name]) node).walk links here steps = fs.walk links here steps := by
  -- on the links that may still be passed: `descend` follows a link with one link less
  induction links generalizing here steps with
  | zero => exact descend_put hname (fun _ _ _ => rfl) here hsteps
  | succ links ih => exact descend_put hname (fun here _ hmem => ih here hmem) here hsteps

/-- What one step of a walk that arrives can be: it stays, goes up, or finds a node. -/
theorem descend_cons_ok {follow : Location → List String → Except Fault Location}
    {here location : Location} {step : String} {rest : List String}
    (h : fs.descend follow here (step :: rest) = .ok location) :
    (step = "." ∧ fs.descend follow here rest = .ok location) ∨
    (step = ".." ∧ fs.descend follow here.dropLast rest = .ok location) ∨
    ∃ found, fs.lookup (here ++ [step]) = some found ∧
      match found with
      | .file _ _ => rest = [] ∧ location = here ++ [step]
      | .directory _ => fs.descend follow (here ++ [step]) rest = .ok location
      | .link target => follow (origin target here) (Path.steps target ++ rest) = .ok location := by
  unfold descend at h
  by_cases hdot : step = "."
  · exact Or.inl ⟨hdot, by simpa [hdot] using h⟩
  by_cases hup : step = ".."
  · exact Or.inr (Or.inl ⟨hup, by simpa [hup] using h⟩)
  by_cases hlong : maxNameLength < step.utf8ByteSize
  · simp [hdot, hup, hlong] at h
  rw [if_neg hdot, if_neg hup, if_neg hlong] at h
  cases hlookup : fs.lookup (here ++ [step]) with
  | none => simp [hlookup] at h
  | some found =>
      refine Or.inr (Or.inr ⟨found, rfl, ?_⟩)
      rw [hlookup] at h
      cases found with
      | file mode bytes =>
          cases rest with
          | nil => exact ⟨rfl, (Except.ok.inj h).symm⟩
          | cons next rest => simp at h
      | directory mode => exact h
      | link target => exact h

theorem not_mem_origin (path : String) {here : Location} (hhere : name ∉ here) :
    name ∉ origin path here := by
  unfold origin
  split_ifs
  · simp
  · exact hhere

/-- Steps lead only to places whose names the file system has, or the start. -/
theorem not_mem_of_descend (hname : name ∉ fs.names)
    {follow : Location → List String → Except Fault Location}
    (hfollow : ∀ here steps location, name ∉ here → follow here steps = .ok location →
      name ∉ location)
    {here location : Location} {steps : List String} (hhere : name ∉ here)
    (h : fs.descend follow here steps = .ok location) : name ∉ location := by
  induction steps generalizing here with
  | nil =>
      obtain rfl : here = location := Except.ok.inj h
      exact hhere
  | cons step rest ih =>
      rcases descend_cons_ok h with ⟨-, hstay⟩ | ⟨-, hup⟩ | ⟨found, hlookup, hfound⟩
      · exact ih hhere hstay
      · exact ih (fun hmem => hhere (List.mem_of_mem_dropLast hmem)) hup
      · have hnew : name ∉ here ++ [step] :=
          fun hmem => hname (mem_names_of_lookup hlookup hmem)
        cases found with
        | file mode bytes =>
            obtain ⟨-, rfl⟩ := hfound
            exact hnew
        | directory mode => exact ih hnew hfound
        | link target => exact hfollow _ _ _ (not_mem_origin target hhere) hfound

theorem not_mem_of_walk (hname : name ∉ fs.names) {links : Nat} {here location : Location}
    {steps : List String} (hhere : name ∉ here) (h : fs.walk links here steps = .ok location) :
    name ∉ location := by
  induction links generalizing here steps location with
  | zero =>
      refine not_mem_of_descend hname ?_ hhere h
      intro here steps location _ hfollow
      simp at hfollow
  | succ links ih =>
      refine not_mem_of_descend hname ?_ hhere h
      intro here steps location hmem hfollow
      exact ih hmem hfollow

/-! ## Paths past an entry of that name -/

theorem not_mem_steps {path : String} (hdot : name ≠ ".") (h : name ∉ Path.segments path) :
    name ∉ Path.steps path := by
  unfold Path.steps
  split_ifs <;> simp [h, hdot]

theorem not_mem_workingDirectory (hname : name ∉ fs.names) : name ∉ fs.workingDirectory := by
  intro h
  exact hname (List.mem_append_left _ h)

theorem not_mem_of_locate (hname : name ∉ fs.names) {path : String} {location : Location}
    (h : fs.locate path = .ok location) : name ∉ location := by
  obtain ⟨-, -, hwalk⟩ := exists_of_bind_ok h
  exact not_mem_of_walk hname (not_mem_origin path (not_mem_workingDirectory hname)) hwalk

theorem locate_put (hname : name ∉ fs.names) {path : String} (hpath : name ∉ Path.steps path) :
    (fs.put (place ++ [name]) node).locate path = fs.locate path := by
  unfold locate
  rw [walk_put hname _ _ hpath]
  rfl

/-- The mode that a path finds does not depend on the entry. -/
theorem mode_put (hname : name ∉ fs.names) {path : String} (hpath : name ∉ Path.steps path) :
    (fs.put (place ++ [name]) node).mode path = fs.mode path := by
  unfold mode
  rw [locate_put hname hpath]
  cases hlocate : fs.locate path with
  | error fault => rfl
  | ok location =>
      have hlocation : place ++ [name] ≠ location := by
        rintro rfl
        exact not_mem_of_locate hname hlocate (by simp)
      have hlookup : (fs.put (place ++ [name]) node).lookup location = fs.lookup location := by
        rw [lookup_put, if_neg hlocation]
      simp only [bind, Except.bind, hlookup]

theorem slot_put (hname : name ∉ fs.names) (hdot : name ≠ ".") {path : String}
    (hpath : name ∉ Path.segments path) :
    (fs.put (place ++ [name]) node).slot path = fs.slot path := by
  have hfront : name ∉ (Path.segments path).dropLast ++ ["."] := by
    simp only [List.mem_append, List.mem_singleton, not_or]
    exact ⟨fun hmem => hpath (List.mem_of_mem_dropLast hmem), hdot⟩
  unfold slot
  dsimp only
  rw [walk_put hname _ _ hfront]
  rfl

/-- A slot is a place for the last name of its path. -/
theorem slot_ok {path : String} {target : Location} (h : fs.slot path = .ok target) :
    ∃ (here : Location) (last : String), (Path.segments path).getLast? = some last ∧
      fs.walk maxLinks (origin path fs.workingDirectory) ((Path.segments path).dropLast ++ ["."])
        = .ok here ∧
      target = here ++ [last] := by
  obtain ⟨-, -, hslot⟩ := exists_of_bind_ok h
  cases hlast : (Path.segments path).getLast? with
  | none => simp [hlast] at hslot
  | some last =>
      rw [hlast] at hslot
      obtain ⟨here, hwalk, htarget⟩ := exists_of_bind_ok hslot
      split_ifs at htarget
      exact ⟨here, last, rfl, hwalk, (Except.ok.inj htarget).symm⟩

end Walks

/-! ## The replacement -/

theorem putEntry_putEntry (location : Location) (first second : Node)
    (entries : List (Location × Node)) :
    putEntry location second (putEntry location first entries)
      = putEntry location second entries := by
  induction entries with
  | nil => simp [putEntry]
  | cons entry rest ih =>
      by_cases hk : entry.1 = location
      · simp [putEntry, hk]
      · simp [putEntry, hk, ih]

/-- Of two nodes put at one location, the second stays. -/
theorem put_put (fs : FileSystem) (location : Location) (first second : Node) :
    (fs.put location first).put location second = fs.put location second := by
  unfold put
  rw [putEntry_putEntry]

/-- Where a file takes the name that a path says: not at a directory, nor at a name that asks
for one. -/
def destination (fs : FileSystem) (path : String) : Except Fault Location := do
  let target ← fs.slot path
  if Path.hasTrailingSlash path then .error .notDirectory
  else
    match fs.lookup target with
    | some (.directory _) => .error .isDirectory
    | _ => .ok target

theorem slot_of_destination {fs : FileSystem} {path : String} {target : Location}
    (h : fs.destination path = .ok target) : fs.slot path = .ok target := by
  obtain ⟨place, hslot, hplace⟩ := exists_of_bind_ok h
  split_ifs at hplace
  split at hplace
  · cases hplace
  · obtain rfl := Except.ok.inj hplace
    exact hslot

section Temporary

variable (fs : FileSystem) (path : String) (place : Location) (node : Node)

theorem lookup_temporary : fs.lookup (place ++ [fs.temporaryName path]) = none :=
  lookup_of_not_mem_names (temporaryName_not_mem_names fs path) (by simp)

theorem erase_put_temporary :
    (fs.put (place ++ [fs.temporaryName path]) node).erase (place ++ [fs.temporaryName path])
      = fs :=
  erase_put_of_lookup_eq_none fs node (lookup_temporary fs path place)

theorem modeOrNew_put_temporary :
    (fs.put (place ++ [fs.temporaryName path]) node).modeOrNew path = fs.modeOrNew path := by
  unfold modeOrNew
  rw [mode_put (temporaryName_not_mem_names fs path)
    (not_mem_steps (newName_ne_dot _) (temporaryName_not_mem_segments fs path))]

theorem lookup_put_temporary_of_slot {target : Location} (h : fs.slot path = .ok target) :
    (fs.put (place ++ [fs.temporaryName path]) node).lookup target = fs.lookup target := by
  obtain ⟨here, last, hlast, -, rfl⟩ := slot_ok h
  have hne : last ≠ fs.temporaryName path := by
    rintro rfl
    exact temporaryName_not_mem_segments fs path (List.mem_of_getLast? hlast)
  exact lookup_put_step hne here

theorem temporaryLocation_ok {fs : FileSystem} {path : String} {temporary : Location}
    (h : fs.temporaryLocation path = .ok temporary) :
    ∃ place, temporary = place ++ [fs.temporaryName path] := by
  obtain ⟨-, -, hlocated⟩ := exists_of_bind_ok h
  obtain ⟨place, -, hplace⟩ := exists_of_bind_ok hlocated
  exact ⟨place, (Except.ok.inj hplace).symm⟩

/-- The temporary file takes its final name as if it had been put there at once. -/
theorem rename_temporary :
    (fs.put (place ++ [fs.temporaryName path]) node).rename
        (place ++ [fs.temporaryName path]) path
      = (fs.destination path).map fun target => fs.put target node := by
  unfold rename destination
  rw [slot_put (temporaryName_not_mem_names fs path) (newName_ne_dot _)
    (temporaryName_not_mem_segments fs path)]
  cases hslot : fs.slot path with
  | error fault => rfl
  | ok target =>
      simp only [bind, Except.bind]
      split_ifs
      · rfl
      · rw [lookup_put, if_pos rfl, lookup_put_temporary_of_slot fs path place node hslot,
          erase_put_temporary]
        cases hlookup : fs.lookup target with
        | none => rfl
        | some found => cases found <;> rfl

end Temporary

/-- **A replacement, seen from outside.** The temporary file has to be possible, the mode of the
old file has to be found, and the path has to name a place for a file.  Then the new file stands
there, and nothing else has changed; otherwise nothing has. -/
theorem replace_eq (fs : FileSystem) (path : String) (bytes : Bytes) :
    fs.replace path bytes =
      match fs.temporaryLocation path with
      | .error fault => (.error { path, fault, temporary := some (fs.temporaryPath path) }, fs)
      | .ok _ =>
        match fs.modeOrNew path with
        | .error fault => (.error { path, fault }, fs)
        | .ok mode =>
          match fs.destination path with
          | .error fault => (.error { path, fault }, fs)
          | .ok target => (.ok (), fs.put target (.file mode bytes)) := by
  unfold replace
  cases htemporary : fs.temporaryLocation path with
  | error fault => rfl
  | ok temporary =>
      obtain ⟨place, rfl⟩ : ∃ place, temporary = place ++ [fs.temporaryName path] :=
        temporaryLocation_ok htemporary
      dsimp only
      rw [modeOrNew_put_temporary]
      cases fs.modeOrNew path with
      | error fault =>
          dsimp only
          rw [erase_put_temporary]
      | ok mode =>
          dsimp only
          rw [put_put, rename_temporary]
          cases fs.destination path with
          | error fault =>
              show (_, (fs.put _ _).erase _) = _
              rw [erase_put_temporary]
          | ok target => rfl

/-- A replacement fails and changes nothing, or it sets the one entry that the path names. -/
theorem replace_cases (fs : FileSystem) (path : String) (bytes : Bytes) :
    (∃ error, fs.replace path bytes = (.error error, fs)) ∨
    ∃ target mode, fs.destination path = .ok target ∧ fs.modeOrNew path = .ok mode ∧
      fs.replace path bytes = (.ok (), fs.put target (.file mode bytes)) := by
  rw [replace_eq]
  cases fs.temporaryLocation path with
  | error fault => exact Or.inl ⟨_, rfl⟩
  | ok _ =>
      cases fs.modeOrNew path with
      | error fault => exact Or.inl ⟨_, rfl⟩
      | ok mode =>
          cases fs.destination path with
          | error fault => exact Or.inl ⟨_, rfl⟩
          | ok target => exact Or.inr ⟨target, mode, rfl, rfl, rfl⟩

end RecordHeader.FileSystem
