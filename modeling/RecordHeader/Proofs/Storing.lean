import RecordHeader.Proofs.Agreement
import RecordHeader.Proofs.Walks
import Mathlib.Tactic

set_option autoImplicit false

/-! # Storing a text is an exact put

A text is stored at a path by putting a new file in the place of the path's last name.  Following
the path and naming its place are two things: the mode of the new file is the one that following
the path found, through a link at its end too, but what is replaced is the entry that the path
names, which may be that very link.

`Job.store_puts` says what holds after a store: the new file stands in its place, the target of a
link that stood there is as it was, and so is every other entry.  It also says when the text is
read back.  This asks for two things.  The mode has to allow it, since the new file keeps the old
one's mode.  And the steps before the last name must not pass the entry that is replaced
(`ReachesWithout`), as those of `l/../l` do when `l` is a link to a directory: such a path
leads nowhere once a file stands at `l`.

A walk to a directory does not depend on what stands at a location, unless a directory or a link
stands there (`Leads.past`).  So it is the same with the new file as with no entry at all.
-/

namespace RecordHeader.FileSystem

/-! ## Walks past a location -/

section Past

variable {fs other : FileSystem} {links : Nat} {here place location : Location}

/-- A directory or a link stands at a location, so that a walk can go on from it. -/
def IsPassable (fs : FileSystem) (location : Location) : Prop :=
  ∃ node, fs.lookup location = some node ∧ ∀ mode bytes, node ≠ .file mode bytes

theorem not_isPassable_of_lookup_eq_none (h : fs.lookup location = none) :
    ¬ fs.IsPassable location := by
  rintro ⟨node, hlookup, -⟩
  rw [h] at hlookup
  cases hlookup

theorem not_isPassable_of_lookup_file {mode : Mode} {bytes : Bytes}
    (h : fs.lookup location = some (.file mode bytes)) : ¬ fs.IsPassable location := by
  rintro ⟨node, hlookup, hnode⟩
  rw [h] at hlookup
  exact hnode mode bytes (Option.some.inj hlookup).symm

/-- **A walk to a directory sees no location that it cannot pass.** It leads to the same place in
all file systems that differ there only. -/
theorem Leads.past (hplace : ¬ fs.IsPassable location)
    (hothers : ∀ spot, spot ≠ location → other.lookup spot = fs.lookup spot)
    {front : List String} (h : fs.Leads links here (front ++ ["."]) place) :
    other.Leads links here (front ++ ["."]) place := by
  generalize hsteps : front ++ ["."] = steps at h ⊢
  induction h generalizing front with
  | done => exact .done
  | @stay links here place rest hrest ih =>
      cases front with
      | nil =>
          obtain rfl : [] = rest := (List.cons.inj hsteps).2
          cases hrest
          exact .stay .done
      | cons first front => exact .stay (ih (List.cons.inj hsteps).2)
  | @up links here place rest _ ih =>
      cases front with
      | nil => exact absurd (List.cons.inj hsteps).1 (by decide)
      | cons first front => exact .up (ih (List.cons.inj hsteps).2)
  | @enter links here place name rest mode hname hlookup _ ih =>
      cases front with
      | nil => exact absurd (List.cons.inj hsteps).1.symm hname.ne_dot
      | cons first front =>
          have hne : here ++ [name] ≠ location := by
            rintro rfl
            exact hplace ⟨_, hlookup, by simp⟩
          have hlookup' := (hothers _ hne).trans hlookup
          exact .enter hname hlookup' (ih (List.cons.inj hsteps).2)
  | @arrive links here name mode bytes hname hlookup =>
      -- a walk to a directory ends in a step that stays, so it does not stop at a file
      cases front with
      | nil => exact absurd (List.cons.inj hsteps).1.symm hname.ne_dot
      | cons first front => exact absurd (List.cons.inj hsteps).2 (by simp)
  | @follow links here place name target rest hname hlookup _ ih =>
      cases front with
      | nil => exact absurd (List.cons.inj hsteps).1.symm hname.ne_dot
      | cons first front =>
          obtain ⟨-, htail⟩ := List.cons.inj hsteps
          have hne : here ++ [name] ≠ location := by
            rintro rfl
            exact hplace ⟨_, hlookup, by simp⟩
          have hfront : (Path.steps target ++ front) ++ ["."] = Path.steps target ++ rest := by
            rw [List.append_assoc]
            exact congrArg (Path.steps target ++ ·) htail
          exact .follow hname ((hothers _ hne).trans hlookup) (ih hfront)

/-- A walk to a directory leads to the same place with a file at a location and with nothing
there. -/
theorem leads_put_iff {front : List String} {mode : Mode} {bytes : Bytes} :
    (fs.put location (.file mode bytes)).Leads links here (front ++ ["."]) place ↔
      (fs.erase location).Leads links here (front ++ ["."]) place := by
  have hput : (fs.put location (.file mode bytes)).lookup location
      = some (.file mode bytes) := by
    rw [lookup_put, if_pos rfl]
  have hothers : ∀ spot, spot ≠ location →
      (fs.put location (.file mode bytes)).lookup spot = (fs.erase location).lookup spot := by
    intro spot hne
    rw [lookup_put, if_neg hne.symm, lookup_erase_of_ne fs hne]
  constructor
  · exact Leads.past (not_isPassable_of_lookup_file hput) fun spot hne => (hothers spot hne).symm
  · exact Leads.past (not_isPassable_of_lookup_eq_none (lookup_erase_self fs _)) hothers

/-- What leads to a directory without an entry leads there with it. -/
theorem Leads.of_erase {front : List String}
    (h : (fs.erase location).Leads links here (front ++ ["."]) place) :
    fs.Leads links here (front ++ ["."]) place :=
  h.past (not_isPassable_of_lookup_eq_none (lookup_erase_self fs location))
    fun _ hne => (lookup_erase_of_ne fs hne).symm

/-- A walk that starts outside a link's place does not end in it. -/
theorem Leads.not_prefix_of_link {steps : List String} {target : String} (hne : place ≠ [])
    (hlink : fs.lookup place = some (.link target)) (h : fs.Leads links here steps location)
    (hhere : ¬ place <+: here) : ¬ place <+: location := by
  have hstep : ∀ {here : Location} {name : String} {node : Node}, ¬ place <+: here →
      fs.lookup (here ++ [name]) = some node → node ≠ .link target →
      ¬ place <+: here ++ [name] := by
    intro here name node hhere hlookup hnode hinside
    rcases List.prefix_concat_iff.mp hinside with rfl | hinside
    · rw [hlink] at hlookup
      exact hnode (Option.some.inj hlookup).symm
    · exact hhere hinside
  induction h with
  | done => exact hhere
  | stay _ ih => exact ih hhere
  | up _ ih => exact ih fun hinside => hhere (hinside.trans (List.dropLast_prefix _))
  | enter _ hlookup _ ih => exact ih (hstep hhere hlookup (by simp))
  | arrive _ hlookup => exact hstep hhere hlookup (by simp)
  | @follow links here location name target rest _ _ _ ih =>
      apply ih
      unfold origin
      split_ifs
      · rwa [List.prefix_nil]
      · exact hhere

end Past

/-! ## A path and its own place -/

/-- A path names a location also when nothing stands there: the steps before its last name do not
pass that location. -/
def ReachesWithout (fs : FileSystem) (path : String) (location : Location) : Prop :=
  (fs.erase location).slot path = .ok location

section Place

variable {fs : FileSystem} {path : String} {front : List String} {last : String}
  {here : Location} {mode : Mode} {bytes : Bytes}

theorem IsPlaceOf.segments_eq (h : fs.IsPlaceOf path front last here) :
    Path.segments path = front ++ [last] := by
  have hsteps := h.steps_eq
  unfold Path.steps at hsteps
  split_ifs at hsteps
  · -- a slash at the end would be a last step that stays
    obtain ⟨-, hlast⟩ := List.append_inj' hsteps rfl
    exact absurd (List.singleton_inj.mp hlast).symm h.isName.ne_dot
  · exact hsteps

/-- The place of a path is where the steps before its last name lead. -/
theorem IsPlaceOf.slot_eq_iff (h : fs.IsPlaceOf path front last here) (other : FileSystem)
    (hworking : other.workingDirectory = fs.workingDirectory) :
    other.slot path = .ok (here ++ [last]) ↔
      other.Leads maxLinks (origin path fs.workingDirectory) (front ++ ["."]) here := by
  have hname : ¬ (last = "." ∨ last = "..") := not_or.mpr ⟨h.isName.ne_dot, h.isName.ne_dots⟩
  have hlength : ¬ maxNameLength < last.utf8ByteSize := Nat.not_lt.mpr h.isName.length_le
  have hslot : other.slot path =
      (other.walk maxLinks (origin path fs.workingDirectory) (front ++ ["."])).map
        (· ++ [last]) := by
    unfold slot
    rw [h.accepted, h.segments_eq, List.getLast?_concat, List.dropLast_concat, hworking]
    show (other.walk maxLinks (origin path fs.workingDirectory) (front ++ ["."]) >>= _) = _
    simp only [hname, hlength, if_false]
    cases other.walk maxLinks (origin path fs.workingDirectory) (front ++ ["."]) <;> rfl
  rw [hslot, leads_iff]
  cases other.walk maxLinks (origin path fs.workingDirectory) (front ++ ["."]) with
  | error fault => simp [Except.map]
  | ok found => simp [Except.map]

/-- Only a link can stand where a path passes its own place. -/
theorem IsPlaceOf.reachesWithout (h : fs.IsPlaceOf path front last here)
    (hlink : ∀ target, fs.lookup (here ++ [last]) ≠ some (.link target)) :
    fs.ReachesWithout path (here ++ [last]) := by
  have hplace : ¬ fs.IsPassable (here ++ [last]) := by
    rintro ⟨node, hlookup, hfile⟩
    cases node with
    | file mode bytes => exact hfile mode bytes rfl
    | directory mode => exact h.not_isDirectory ⟨mode, hlookup⟩
    | link target => exact hlink target hlookup
  apply (h.slot_eq_iff (fs.erase (here ++ [last])) rfl).mpr
  exact h.leads.past hplace fun spot hspot => lookup_erase_of_ne fs hspot

/-- **When a new file is read back.** The path leads to the file that was put in its place if and
only if the steps before its last name do not pass that place; and the mode has to allow it. -/
theorem IsPlaceOf.read_put_iff (h : fs.IsPlaceOf path front last here) :
    (fs.put (here ++ [last]) (.file mode bytes)).read path = .ok bytes ↔
      mode.isReadable = true ∧ fs.ReachesWithout path (here ++ [last]) := by
  set after := fs.put (here ++ [last]) (.file mode bytes) with hafter
  have hlookup : after.lookup (here ++ [last]) = some (.file mode bytes) := by
    rw [hafter, lookup_put, if_pos rfl]
  have hlocate : after.locate path
      = after.walk maxLinks (origin path fs.workingDirectory) (front ++ [last]) := by
    rw [locate_of_accepted h.accepted, h.steps_eq]
    rfl
  have hreaches : fs.ReachesWithout path (here ++ [last]) ↔
      after.Leads maxLinks (origin path fs.workingDirectory) (front ++ ["."]) here :=
    (h.slot_eq_iff (fs.erase (here ++ [last])) rfl).trans leads_put_iff.symm
  rw [hreaches]
  constructor
  · intro hread
    obtain ⟨found, hfound, hbytes⟩ := exists_of_bind_ok hread
    rw [hlocate] at hfound
    -- the walk is one along the front and a last step, and the front leads where it led before
    obtain ⟨left, middle, -, hwalk, -⟩ := (leads_of_walk hfound).split (by simp)
    have hmiddle : after.Leads maxLinks (origin path fs.workingDirectory) (front ++ ["."])
        middle := by
      apply leads_of_walk
      rw [hwalk _ (by simp), walk_dot, walk_nil]
    have hbefore := (leads_put_iff.mp hmiddle).of_erase
    obtain rfl : middle = here :=
      Except.ok.inj (hbefore.walk_eq_ok.symm.trans h.leads.walk_eq_ok)
    obtain rfl : middle ++ [last] = found := by
      rw [hwalk _ (by simp), walk_file h.isName hlookup] at hfound
      exact Except.ok.inj hfound
    refine ⟨?_, hmiddle⟩
    by_contra hunreadable
    simp [hlookup, hunreadable] at hbytes
  · rintro ⟨hreadable, hleads⟩
    obtain ⟨left, hwalk⟩ := hleads.goes_on.1 [last] (by simp)
    unfold read
    rw [hlocate, hwalk, walk_file h.isName hlookup]
    simp only [bind, Except.bind, hlookup, hreadable, if_true]

/-- A path whose last name is a link leads somewhere else. -/
theorem IsPlaceOf.locate_ne_of_link (h : fs.IsPlaceOf path front last here) {target : String}
    (hlink : fs.lookup (here ++ [last]) = some (.link target)) {reached : Location}
    (hreached : fs.locate path = .ok reached) : reached ≠ here ++ [last] := by
  obtain ⟨left, hwalk⟩ := h.leads.goes_on.1 [last] (by simp)
  rw [locate_of_accepted h.accepted, h.steps_eq, hwalk] at hreached
  cases left with
  | zero =>
      rw [walk_zero_link h.isName hlink] at hreached
      cases hreached
  | succ left =>
      rw [walk_link h.isName hlink] at hreached
      have houtside : ¬ here ++ [last] <+: origin target here := by
        intro hinside
        have hlength := hinside.length_le
        unfold origin at hlength
        split_ifs at hlength <;> simp at hlength
      have hnot := (leads_of_walk hreached).not_prefix_of_link (by simp) hlink houtside
      rintro rfl
      exact hnot (List.prefix_refl _)

end Place

/-- The mode of a new file is the one that its path reached, or the usual one. -/
theorem mode_of_modeOrNew {fs : FileSystem} {path : String} {mode : Mode}
    (h : fs.modeOrNew path = .ok mode) :
    fs.mode path = .ok mode ∨ fs.mode path = .error .notFound ∧ mode = .file := by
  unfold modeOrNew at h
  cases hmode : fs.mode path with
  | ok found =>
      rw [hmode] at h
      exact Or.inl h
  | error fault =>
      rw [hmode] at h
      cases fault with
      | notFound => exact Or.inr ⟨rfl, (Except.ok.inj h).symm⟩
      | _ => cases h

end RecordHeader.FileSystem

namespace RecordHeader.Job

open FileSystem

/-! ## Stored texts -/

theorem on_store (path text : String) (progress : Progress) (files : FileSystem) :
    (Run.on (store path text) progress files).2 = (files.replace path (Text.utf8 text)).2 := by
  unfold store
  simp only [Run.on_bind, Run.on_replace, Run.on_ofExcept]
  rcases files.replace path (Text.utf8 text) with ⟨answer, after⟩
  cases answer <;> rfl

/-- What a store that succeeds has done. -/
theorem exists_of_store_ok {path text : String} {progress : Progress} {files : FileSystem}
    (h : (Run.on (store path text) progress files).1.1 = .ok ()) :
    ∃ target mode temporary, files.destination path = .ok target ∧
      files.modeOrNew path = .ok mode ∧ files.temporaryLocation path = .ok temporary ∧
      (Run.on (store path text) progress files).2
        = files.put target (.file mode (Text.utf8 text)) := by
  rw [on_store, replace_eq]
  rw [result_store, replace_eq] at h
  cases htemporary : files.temporaryLocation path with
  | error fault => simp [htemporary, Except.mapError] at h
  | ok temporary =>
      cases hmode : files.modeOrNew path with
      | error fault => simp [htemporary, hmode, Except.mapError] at h
      | ok mode =>
          cases htarget : files.destination path with
          | error fault => simp [htemporary, hmode, htarget, Except.mapError] at h
          | ok target => exact ⟨target, mode, temporary, rfl, rfl, rfl, rfl⟩

/-- A store succeeds where the temporary file is possible, the mode is found and the path names a
place for a file. -/
theorem store_of_destination {path : String} {files : FileSystem} {target temporary : Location}
    {mode : Mode} (htarget : files.destination path = .ok target)
    (hmode : files.modeOrNew path = .ok mode)
    (htemporary : files.temporaryLocation path = .ok temporary) (text : String)
    (progress : Progress) :
    (Run.on (store path text) progress files).1.1 = .ok () ∧
    (Run.on (store path text) progress files).2
      = files.put target (.file mode (Text.utf8 text)) := by
  rw [on_store, result_store, replace_eq, htemporary, hmode, htarget]
  exact ⟨rfl, rfl⟩

/-- A file compares with all texts as a text does if that text is read there. -/
theorem held_eq_iff {files : FileSystem} {path contents : String} :
    (∀ text, held files path text = .ok (text == contents)) ↔
      files.read path = .ok (Text.utf8 contents) := by
  constructor
  · intro h
    apply read_of_held
    rw [h contents, beq_self_eq_true]
  · intro h text
    rw [held, h]
    refine congrArg Except.ok ?_
    rw [Bool.eq_iff_iff, beq_iff_eq, beq_iff_eq]
    exact ⟨fun heq => (Text.utf8_injective heq).symm, fun heq => heq ▸ rfl⟩

/-- **Storing a text is an exact put.** Let a text be stored at a path.  Then the entry that the
path names is a file that holds the bytes of the text.  Its mode is the one that following the path
reached before, or 644 where that found nothing.  A link that stood there is itself replaced, and
what it led to is as it was.  All other entries are as they were, and no temporary file remains.
The path compares as equal with this text alone if and only if the mode lets the file be read and
the path does not pass its own place, which it can only where a link stood there.  Directories are
assumed to be open to their owner. -/
theorem store_puts (path contents : String) (progress : Progress) (files : FileSystem)
    (h : (Run.on (store path contents) progress files).1.1 = .ok ()) :
    let after := (Run.on (store path contents) progress files).2
    ∃ location mode, files.slot path = .ok location ∧
      after.lookup location = some (.file mode (Text.utf8 contents)) ∧
      (files.mode path = .ok mode ∨ files.mode path = .error .notFound ∧ mode = ⟨0o644⟩) ∧
      ((∀ text, (Run.on (holds path text) {} after).1.1 = .ok (text == contents)) ↔
        mode.isReadable = true ∧ files.ReachesWithout path location) ∧
      (¬ files.ReachesWithout path location →
        ∃ target, files.lookup location = some (.link target)) ∧
      (∀ target, files.lookup location = some (.link target) →
        ∀ reached, files.locate path = .ok reached →
          reached ≠ location ∧ after.lookup reached = files.lookup reached) ∧
      (∀ other, other ≠ location → after.lookup other = files.lookup other) ∧
      after.workingDirectory = files.workingDirectory ∧
      ∃ temporary, files.temporaryLocation path = .ok temporary ∧
        after.lookup temporary = none := by
  intro after
  obtain ⟨location, mode, temporary, hlocation, hmode, htemporary, hafter⟩ := exists_of_store_ok h
  obtain ⟨front, last, here, hplace, rfl⟩ := exists_isPlaceOf hlocation
  have hafter' : after = files.put (here ++ [last]) (.file mode (Text.utf8 contents)) := hafter
  have hslot := slot_of_destination hlocation
  have hothers : ∀ other, other ≠ here ++ [last] → after.lookup other = files.lookup other := by
    intro other hne
    rw [hafter', lookup_put, if_neg hne.symm]
  refine ⟨here ++ [last], mode, hslot, ?_, mode_of_modeOrNew hmode, ?_, ?_, ?_, hothers, ?_,
    temporary, htemporary, ?_⟩
  · rw [hafter', lookup_put, if_pos rfl]
  · simp only [on_holds]
    rw [held_eq_iff, hafter']
    exact hplace.read_put_iff
  · intro hpasses
    by_contra hnone
    exact hpasses (hplace.reachesWithout fun target hlink => hnone ⟨target, hlink⟩)
  · intro target hlink reached hreached
    have hne := hplace.locate_ne_of_link hlink hreached
    exact ⟨hne, hothers reached hne⟩
  · rw [hafter']
    rfl
  · -- the temporary file has a name of its own, so it stands elsewhere
    obtain ⟨place, rfl⟩ := temporaryLocation_ok htemporary
    have hne : place ++ [files.temporaryName path] ≠ here ++ [last] := by
      intro heq
      obtain ⟨-, hname⟩ := List.append_inj' heq rfl
      apply temporaryName_not_mem_segments files path
      rw [hplace.segments_eq, List.singleton_inj.mp hname]
      simp
    rw [hothers _ hne, lookup_temporary]

/-- A working directory with a header that only its owner may read, and a link to it. -/
def linkedHeader : FileSystem :=
  (fresh.put ["home", "developer", "t.h"] (.file ⟨0o600⟩ (Text.utf8 "old"))).put
    ["home", "developer", "o.h"] (.link "t.h")

/-- A store at the link puts a file in its place, with the mode of the header that it led to, and
leaves that header as it is. -/
theorem store_puts_over_link :
    (Run.on (store "o.h" "new") {} linkedHeader).1.1 = .ok () ∧
    ∃ after, after = (Run.on (store "o.h" "new") {} linkedHeader).2 ∧
      after.lookup ["home", "developer", "o.h"] = some (.file ⟨0o600⟩ (Text.utf8 "new")) ∧
      after.lookup ["home", "developer", "t.h"] = some (.file ⟨0o600⟩ (Text.utf8 "old")) ∧
      ∀ text, (Run.on (holds "o.h" text) {} after).1.1 = .ok (text == "new") := by
  have htemporary : linkedHeader.temporaryLocation "o.h"
      = .ok (["home", "developer"] ++ [linkedHeader.temporaryName "o.h"]) := by
    decide +kernel
  obtain ⟨hstore, -⟩ := store_of_destination rfl rfl htemporary "new" {}
  obtain ⟨location, mode, hslot, hnew, hmode, hread, -, hlink, -⟩ :=
    store_puts "o.h" "new" {} linkedHeader hstore
  obtain rfl : ["home", "developer", "o.h"] = location := Except.ok.inj hslot
  obtain rfl : ⟨0o600⟩ = mode := by
    rcases hmode with hmode | ⟨hmode, -⟩
    · exact Except.ok.inj hmode
    · cases hmode
  refine ⟨hstore, _, rfl, hnew, ?_, hread.mpr ⟨by decide, rfl⟩⟩
  exact (hlink "t.h" rfl ["home", "developer", "t.h"] rfl).2

/-- A working directory with a directory and a link to it. -/
def linkedDirectory : FileSystem :=
  (fresh.put ["home", "developer", "d"] (.directory .directory)).put
    ["home", "developer", "l"] (.link "d")

/-- A working directory with a file that may be written but not read. -/
def hiddenFile : FileSystem :=
  fresh.put ["home", "developer", "f"] (.file ⟨0o200⟩ (Text.utf8 "x"))

/-- What was stored is not always read back.  A path that passes the link which it replaces leads
nowhere afterwards, and a file that keeps a mode without reading cannot be compared. -/
theorem store_not_read_back :
    ((Run.on (store "l/../l" "y") {} linkedDirectory).1.1 = .ok () ∧
      (Run.on (holds "l/../l" "y") {} (Run.on (store "l/../l" "y") {} linkedDirectory).2).1.1
        = .error (.file { path := "l/../l", fault := .notDirectory })) ∧
    (Run.on (store "f" "y") {} hiddenFile).1.1 = .ok () ∧
      (Run.on (holds "f" "y") {} (Run.on (store "f" "y") {} hiddenFile).2).1.1
        = .error (.file { path := "f", fault := .permissionDenied }) := by
  have hlinked : linkedDirectory.temporaryLocation "l/../l"
      = .ok (["home", "developer"] ++ [linkedDirectory.temporaryName "l/../l"]) := by
    decide +kernel
  have hhidden : hiddenFile.temporaryLocation "f"
      = .ok (["home", "developer"] ++ [hiddenFile.temporaryName "f"]) := by
    decide +kernel
  obtain ⟨hstore, hafter⟩ :=
    store_of_destination rfl rfl hlinked "y" {}
  obtain ⟨hstore', hafter'⟩ := store_of_destination rfl rfl hhidden "y" {}
  refine ⟨⟨hstore, ?_⟩, hstore', ?_⟩
  · rw [hafter, on_holds]
    rfl
  · rw [hafter', on_holds]
    rfl

end RecordHeader.Job
