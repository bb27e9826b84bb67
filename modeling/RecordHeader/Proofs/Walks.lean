import RecordHeader.Proofs.Replacing
import Mathlib.Tactic

set_option autoImplicit false

/-! # Where walks lead, and what a replaced path reads

A walk that arrives is a row of steps: it stays, goes up, enters a directory, stops at a file or
goes on along a link.  `Leads` has one rule for each of them, and `leads_iff` says that these are
the walks that arrive.  What is said of walks is then proved by induction along the rules.

The entries of a file system form a tree (`IsTree`) when each stands in a directory.  In a tree a
walk goes on only from directories (`Leads.split`), and so a link that a walk has passed on
its way leads to a directory.  This is why a path still leads to its own last name after a file
was put there (`IsPlaceOf.locate_put`): on the way to it the walk can have passed that very
place only if a link to a directory stood there, and then the path read as a directory.
`read_replace` is the law that follows: what was put at a path is read there.
-/

namespace RecordHeader.FileSystem

/-! ## One step of a walk -/

/-- A step that names an entry. -/
structure IsName (name : String) : Prop where
  ne_dot : name ≠ "."
  ne_dots : name ≠ ".."
  length_le : name.utf8ByteSize ≤ maxNameLength

section Steps

variable {fs : FileSystem} {links : Nat} {here : Location} {name : String} {rest : List String}

theorem walk_nil : fs.walk links here [] = .ok here := by
  cases links <;> rfl

theorem walk_dot : fs.walk links here ("." :: rest) = fs.walk links here rest := by
  cases links <;> rfl

theorem walk_dots : fs.walk links here (".." :: rest) = fs.walk links here.dropLast rest := by
  cases links <;> rfl

theorem walk_directory {mode : Mode} (hname : IsName name)
    (h : fs.lookup (here ++ [name]) = some (.directory mode)) :
    fs.walk links here (name :: rest) = fs.walk links (here ++ [name]) rest := by
  have hlength : ¬ maxNameLength < name.utf8ByteSize := Nat.not_lt.mpr hname.length_le
  cases links <;> simp only [walk, descend, hname.ne_dot, hname.ne_dots, hlength, h, if_false]

theorem walk_file {mode : Mode} {bytes : Bytes} (hname : IsName name)
    (h : fs.lookup (here ++ [name]) = some (.file mode bytes)) :
    fs.walk links here [name] = .ok (here ++ [name]) := by
  have hlength : ¬ maxNameLength < name.utf8ByteSize := Nat.not_lt.mpr hname.length_le
  cases links <;>
    simp [walk, descend, hname.ne_dot, hname.ne_dots, hlength, h]

theorem walk_missing (hname : IsName name) (h : fs.lookup (here ++ [name]) = none) :
    fs.walk links here (name :: rest) = .error .notFound := by
  have hlength : ¬ maxNameLength < name.utf8ByteSize := Nat.not_lt.mpr hname.length_le
  cases links <;> simp only [walk, descend, hname.ne_dot, hname.ne_dots, hlength, h, if_false]

theorem walk_beyond_file {mode : Mode} {bytes : Bytes} {next : String} (hname : IsName name)
    (h : fs.lookup (here ++ [name]) = some (.file mode bytes)) :
    fs.walk links here (name :: next :: rest) = .error .notDirectory := by
  have hlength : ¬ maxNameLength < name.utf8ByteSize := Nat.not_lt.mpr hname.length_le
  cases links <;> simp [walk, descend, hname.ne_dot, hname.ne_dots, hlength, h]

theorem walk_link {target : String} (hname : IsName name)
    (h : fs.lookup (here ++ [name]) = some (.link target)) :
    fs.walk (links + 1) here (name :: rest) =
      fs.walk links (origin target here) (Path.steps target ++ rest) := by
  have hlength : ¬ maxNameLength < name.utf8ByteSize := Nat.not_lt.mpr hname.length_le
  simp only [walk, descend, hname.ne_dot, hname.ne_dots, hlength, h, if_false]

/-- A walk that may pass no link is given up at one. -/
theorem walk_zero_link {target : String} (hname : IsName name)
    (h : fs.lookup (here ++ [name]) = some (.link target)) :
    fs.walk 0 here (name :: rest) = .error .linkLoop := by
  have hlength : ¬ maxNameLength < name.utf8ByteSize := Nat.not_lt.mpr hname.length_le
  simp only [walk, descend, hname.ne_dot, hname.ne_dots, hlength, h, if_false]

end Steps

/-! ## The walks that arrive -/

/-- From a directory, steps lead to a location along at most `links` symbolic links. -/
inductive Leads (fs : FileSystem) : Nat → Location → List String → Location → Prop
  /-- No step is left. -/
  | done {links : Nat} {here : Location} : Leads fs links here [] here
  /-- A step that stays. -/
  | stay {links : Nat} {here location : Location} {rest : List String} :
      Leads fs links here rest location → Leads fs links here ("." :: rest) location
  /-- A step up. -/
  | up {links : Nat} {here location : Location} {rest : List String} :
      Leads fs links here.dropLast rest location → Leads fs links here (".." :: rest) location
  /-- A step into a directory. -/
  | enter {links : Nat} {here location : Location} {name : String} {rest : List String}
      {mode : Mode} : IsName name → fs.lookup (here ++ [name]) = some (.directory mode) →
      Leads fs links (here ++ [name]) rest location → Leads fs links here (name :: rest) location
  /-- A last step to a file. -/
  | arrive {links : Nat} {here : Location} {name : String} {mode : Mode} {bytes : Bytes} :
      IsName name → fs.lookup (here ++ [name]) = some (.file mode bytes) →
      Leads fs links here [name] (here ++ [name])
  /-- A step onto a link, whose target comes before the steps that are left. -/
  | follow {links : Nat} {here location : Location} {name target : String} {rest : List String} :
      IsName name → fs.lookup (here ++ [name]) = some (.link target) →
      Leads fs links (origin target here) (Path.steps target ++ rest) location →
      Leads fs (links + 1) here (name :: rest) location

section Arriving

variable {fs : FileSystem} {links : Nat} {here location : Location} {steps : List String}

theorem Leads.walk_eq_ok (h : fs.Leads links here steps location) :
    fs.walk links here steps = .ok location := by
  induction h with
  | done => exact walk_nil
  | stay _ ih => rw [walk_dot, ih]
  | up _ ih => rw [walk_dots, ih]
  | enter hname hlookup _ ih => rw [walk_directory hname hlookup, ih]
  | arrive hname hlookup => exact walk_file hname hlookup
  | follow hname hlookup _ ih => rw [walk_link hname hlookup, ih]

/-- A first step that is neither of the two that go nowhere by name is a name of an entry. -/
theorem isName_of_walk {name : String} {rest : List String} (hdot : name ≠ ".")
    (hdots : name ≠ "..") (h : fs.walk links here (name :: rest) = .ok location) :
    IsName name := by
  refine ⟨hdot, hdots, ?_⟩
  by_contra hlong
  cases links <;> simp [walk, descend, hdot, hdots, Nat.lt_of_not_le hlong] at h

theorem leads_of_walk (h : fs.walk links here steps = .ok location) :
    fs.Leads links here steps location := by
  -- on the links that are left, and for each number of them on the steps
  induction links using Nat.strong_induction_on generalizing here steps with
  | _ links ihLinks =>
      induction steps generalizing here with
      | nil =>
          rw [walk_nil] at h
          obtain rfl := Except.ok.inj h
          exact .done
      | cons name rest ihSteps =>
          by_cases hdot : name = "."
          · subst hdot
            rw [walk_dot] at h
            exact .stay (ihSteps h)
          by_cases hdots : name = ".."
          · subst hdots
            rw [walk_dots] at h
            exact .up (ihSteps h)
          have hname : IsName name := isName_of_walk hdot hdots h
          cases hlookup : fs.lookup (here ++ [name]) with
          | none =>
              rw [walk_missing hname hlookup] at h
              cases h
          | some node =>
              cases node with
              | directory mode =>
                  rw [walk_directory hname hlookup] at h
                  exact .enter hname hlookup (ihSteps h)
              | file mode bytes =>
                  cases rest with
                  | nil =>
                      rw [walk_file hname hlookup] at h
                      obtain rfl := Except.ok.inj h
                      exact .arrive hname hlookup
                  | cons next rest =>
                      rw [walk_beyond_file hname hlookup] at h
                      cases h
              | link target =>
                  cases links with
                  | zero =>
                      rw [walk_zero_link hname hlookup] at h
                      cases h
                  | succ left =>
                      rw [walk_link hname hlookup] at h
                      exact .follow hname hlookup (ihLinks left (by omega) h)

/-- **The walks that arrive** are those that the rules describe. -/
theorem leads_iff : fs.Leads links here steps location ↔
    fs.walk links here steps = .ok location :=
  ⟨Leads.walk_eq_ok, leads_of_walk⟩

/-- With another number of links a walk leads to the same place, unless it is given up. -/
theorem Leads.walk_eq_or (h : fs.Leads links here steps location) (other : Nat) :
    fs.walk other here steps = .ok location ∨ fs.walk other here steps = .error .linkLoop := by
  induction h generalizing other with
  | done => exact Or.inl walk_nil
  | stay _ ih =>
      rw [walk_dot]
      exact ih other
  | up _ ih =>
      rw [walk_dots]
      exact ih other
  | enter hname hlookup _ ih =>
      rw [walk_directory hname hlookup]
      exact ih other
  | arrive hname hlookup => exact Or.inl (walk_file hname hlookup)
  | follow hname hlookup _ ih =>
      cases other with
      | zero => exact Or.inr (walk_zero_link hname hlookup)
      | succ other =>
          rw [walk_link hname hlookup]
          exact ih other

end Arriving

/-! ## Trees -/

/-- Whether a directory stands at a location. -/
def IsDirectory (fs : FileSystem) (location : Location) : Prop :=
  ∃ mode, fs.lookup location = some (.directory mode)

/-- The entries of a file system form a tree: the root and the working directory are
directories, and every entry stands in one. -/
structure IsTree (fs : FileSystem) : Prop where
  root : fs.IsDirectory []
  working : fs.IsDirectory fs.workingDirectory
  parent : ∀ place name node, fs.lookup (place ++ [name]) = some node → fs.IsDirectory place

section Trees

variable {fs : FileSystem} {links : Nat} {here location place : Location}

theorem IsTree.dropLast (htree : fs.IsTree) (h : fs.IsDirectory here) :
    fs.IsDirectory here.dropLast := by
  rcases List.eq_nil_or_concat here with rfl | ⟨place, name, rfl⟩
  · exact h
  · obtain ⟨mode, hlookup⟩ := h
    rw [List.concat_eq_append] at hlookup ⊢
    rw [List.dropLast_concat]
    exact htree.parent place name _ hlookup

theorem IsTree.origin (htree : fs.IsTree) (h : fs.IsDirectory here) (path : String) :
    fs.IsDirectory (origin path here) := by
  unfold FileSystem.origin
  split_ifs
  · exact htree.root
  · exact h

/-- A node that is put into a directory, and not in the place of one, leaves a tree. -/
theorem IsTree.put (htree : fs.IsTree) {name : String} (hplace : fs.IsDirectory place)
    (hnot : ¬ fs.IsDirectory (place ++ [name])) (node : Node) :
    (fs.put (place ++ [name]) node).IsTree := by
  have hkept : ∀ {location : Location}, fs.IsDirectory location →
      (fs.put (place ++ [name]) node).IsDirectory location := by
    rintro location ⟨mode, hlookup⟩
    refine ⟨mode, ?_⟩
    rw [lookup_put, if_neg, hlookup]
    rintro rfl
    exact hnot ⟨mode, hlookup⟩
  refine ⟨hkept htree.root, hkept htree.working, ?_⟩
  intro above entry found hfound
  rw [lookup_put] at hfound
  split_ifs at hfound with heq
  · obtain ⟨rfl, -⟩ := List.append_inj' heq rfl
    exact hkept hplace
  · exact hkept (htree.parent above entry found hfound)

theorem isTree_fresh : fresh.IsTree := by
  refine ⟨⟨_, rfl⟩, ⟨_, rfl⟩, ?_⟩
  intro place name node h
  have hentry := mem_entries_of_lookupEntry h
  simp only [fresh, List.mem_cons, Prod.mk.injEq, List.not_mem_nil, or_false] at hentry
  rcases hentry with ⟨hnil, -⟩ | ⟨hhome, -⟩ | ⟨hdeveloper, -⟩
  · simp at hnil
  · have hplace : place ++ [name] = [] ++ ["home"] := hhome
    obtain ⟨rfl, -⟩ := List.append_inj' hplace rfl
    exact ⟨_, rfl⟩
  · have hplace : place ++ [name] = ["home"] ++ ["developer"] := hdeveloper
    obtain ⟨rfl, -⟩ := List.append_inj' hplace rfl
    exact ⟨_, rfl⟩

/-- **A walk is one along its front and another from there on**, with the links that are left.
In a tree, the front leads to a directory. -/
theorem Leads.split {front rest : List String} (h : fs.Leads links here (front ++ rest) location)
    (hrest : rest ≠ []) :
    ∃ left middle, fs.Leads links here front middle ∧
      (∀ back, back ≠ [] → fs.walk links here (front ++ back) = fs.walk left middle back) ∧
      (fs.IsTree → fs.IsDirectory here → fs.IsDirectory middle) := by
  generalize hsteps : front ++ rest = steps at h
  induction h generalizing front with
  | @done links here =>
      exact absurd (List.append_eq_nil_iff.mp hsteps).2 hrest
  | @stay links here location tail _ ih =>
      cases front with
      | nil => exact ⟨links, here, .done, fun _ _ => rfl, fun _ hhere => hhere⟩
      | cons first front =>
          obtain ⟨rfl, htail⟩ := List.cons.inj hsteps
          obtain ⟨left, middle, hleads, hwalk, hmiddle⟩ := ih htail
          refine ⟨left, middle, .stay hleads, fun back hback => ?_, hmiddle⟩
          rw [List.cons_append, walk_dot, hwalk back hback]
  | @up links here location tail _ ih =>
      cases front with
      | nil => exact ⟨links, here, .done, fun _ _ => rfl, fun _ hhere => hhere⟩
      | cons first front =>
          obtain ⟨rfl, htail⟩ := List.cons.inj hsteps
          obtain ⟨left, middle, hleads, hwalk, hmiddle⟩ := ih htail
          refine ⟨left, middle, .up hleads, fun back hback => ?_, fun htree hhere => ?_⟩
          · rw [List.cons_append, walk_dots, hwalk back hback]
          · exact hmiddle htree (htree.dropLast hhere)
  | @enter links here location name tail mode hname hlookup _ ih =>
      cases front with
      | nil => exact ⟨links, here, .done, fun _ _ => rfl, fun _ hhere => hhere⟩
      | cons first front =>
          obtain ⟨rfl, htail⟩ := List.cons.inj hsteps
          obtain ⟨left, middle, hleads, hwalk, hmiddle⟩ := ih htail
          refine ⟨left, middle, .enter hname hlookup hleads, fun back hback => ?_,
            fun htree _ => hmiddle htree ⟨mode, hlookup⟩⟩
          rw [List.cons_append, walk_directory hname hlookup, hwalk back hback]
  | @arrive links here name mode bytes hname hlookup =>
      cases front with
      | nil => exact ⟨links, here, .done, fun _ _ => rfl, fun _ hhere => hhere⟩
      | cons first front =>
          obtain ⟨-, htail⟩ := List.cons.inj hsteps
          exact absurd (List.append_eq_nil_iff.mp htail).2 hrest
  | @follow links here location name target tail hname hlookup _ ih =>
      cases front with
      | nil => exact ⟨links + 1, here, .done, fun _ _ => rfl, fun _ hhere => hhere⟩
      | cons first front =>
          obtain ⟨rfl, htail⟩ := List.cons.inj hsteps
          -- the target's steps belong to the front
          have hfront : (Path.steps target ++ front) ++ rest = Path.steps target ++ tail := by
            rw [List.append_assoc]
            exact congrArg (Path.steps target ++ ·) htail
          obtain ⟨left, middle, hleads, hwalk, hmiddle⟩ := ih hfront
          refine ⟨left, middle, .follow hname hlookup hleads, fun back hback => ?_,
            fun htree hhere => hmiddle htree (htree.origin hhere target)⟩
          rw [List.cons_append, walk_link hname hlookup, ← List.append_assoc, hwalk back hback]

/-- A walk goes on from where its front leads, and that is a directory. -/
theorem Leads.goes_on {front : List String} (h : fs.Leads links here (front ++ ["."]) place) :
    (∀ back, back ≠ [] → ∃ left, fs.walk links here (front ++ back) = fs.walk left place back) ∧
    (fs.IsTree → fs.IsDirectory here → fs.IsDirectory place) := by
  obtain ⟨left, middle, -, hwalk, hmiddle⟩ := h.split (by simp)
  have hdot : fs.walk links here (front ++ ["."]) = .ok middle := by
    rw [hwalk _ (by simp), walk_dot, walk_nil]
  obtain rfl : middle = place := Except.ok.inj (hdot.symm.trans h.walk_eq_ok)
  exact ⟨fun back hback => ⟨left, hwalk back hback⟩, hmiddle⟩

end Trees

/-! ## Walks to a place where a file is put -/

/-- The place of a link that leads to a directory. -/
def IsDirectoryLink (fs : FileSystem) (location : Location) : Prop :=
  ∃ place name target links directory, location = place ++ [name] ∧
    fs.lookup location = some (.link target) ∧
    fs.Leads links (origin target place) (Path.steps target) directory ∧
    fs.IsDirectory directory

section Placing

variable {fs : FileSystem} {links : Nat} {here location place : Location}

/-- A file that is put in the place of something other than a directory changes no walk to a
directory, unless a link to a directory stood there. -/
theorem Leads.put_file (htree : fs.IsTree) (hhere : fs.IsDirectory here)
    (hplace : ¬ fs.IsDirectory location) (hlink : ¬ fs.IsDirectoryLink location)
    {front : List String} (h : fs.Leads links here (front ++ ["."]) place) (mode : Mode)
    (bytes : Bytes) :
    (fs.put location (.file mode bytes)).Leads links here (front ++ ["."]) place := by
  generalize hsteps : front ++ ["."] = steps at h ⊢
  induction h generalizing front with
  | done => exact .done
  | @stay links here place rest hrest ih =>
      cases front with
      | nil =>
          obtain rfl : [] = rest := (List.cons.inj hsteps).2
          cases hrest
          exact .stay .done
      | cons first front => exact .stay (ih hhere (List.cons.inj hsteps).2)
  | @up links here place rest _ ih =>
      cases front with
      | nil => exact absurd (List.cons.inj hsteps).1 (by decide)
      | cons first front => exact .up (ih (htree.dropLast hhere) (List.cons.inj hsteps).2)
  | @enter links here place name rest mode' hname hlookup _ ih =>
      cases front with
      | nil => exact absurd (List.cons.inj hsteps).1.symm hname.ne_dot
      | cons first front =>
          have hne : location ≠ here ++ [name] := by
            rintro rfl
            exact hplace ⟨mode', hlookup⟩
          have hlookup' : (fs.put location (.file mode bytes)).lookup (here ++ [name])
              = some (.directory mode') := by
            rw [lookup_put, if_neg hne, hlookup]
          exact .enter hname hlookup' (ih ⟨mode', hlookup⟩ (List.cons.inj hsteps).2)
  | @arrive links here name mode' bytes' hname hlookup =>
      cases front with
      | nil => exact absurd (List.cons.inj hsteps).1.symm hname.ne_dot
      | cons first front => exact absurd (List.cons.inj hsteps).2 (by simp)
  | @follow links here place name target rest hname hlookup hrest ih =>
      cases front with
      | nil => exact absurd (List.cons.inj hsteps).1.symm hname.ne_dot
      | cons first front =>
          obtain ⟨-, htail⟩ := List.cons.inj hsteps
          have htarget := htree.origin hhere target
          have hfront : (Path.steps target ++ front) ++ ["."] = Path.steps target ++ rest := by
            rw [List.append_assoc]
            exact congrArg (Path.steps target ++ ·) htail
          have hne : location ≠ here ++ [name] := by
            rintro rfl
            -- the walk has steps left behind the link, so the link leads to a directory
            have hne' : rest ≠ [] := by
              rintro rfl
              simp at htail
            obtain ⟨-, directory, hleads, -, hdirectory⟩ := hrest.split hne'
            exact hlink ⟨here, name, target, links, directory, rfl, hlookup, hleads,
              hdirectory htree htarget⟩
          have hlookup' : (fs.put location (.file mode bytes)).lookup (here ++ [name])
              = some (.link target) := by
            rw [lookup_put, if_neg hne, hlookup]
          exact .follow hname hlookup' (ih htarget hfront)

end Placing

/-! ## Reading a path after a replacement -/

/-- Where a replaced path puts its file: at the last name of the path, in the directory that the
steps before it lead to. -/
structure IsPlaceOf (fs : FileSystem) (path : String) (front : List String) (last : String)
    (here : Location) : Prop where
  accepted : acceptPath path = .ok ()
  steps_eq : Path.steps path = front ++ [last]
  isName : IsName last
  leads : fs.Leads maxLinks (origin path fs.workingDirectory) (front ++ ["."]) here
  not_isDirectory : ¬ fs.IsDirectory (here ++ [last])

section Reading

variable {fs : FileSystem} {path : String} {front : List String} {last : String}
  {here target : Location} {mode : Mode} {bytes : Bytes}

theorem exists_isPlaceOf (h : fs.destination path = .ok target) :
    ∃ front last here, fs.IsPlaceOf path front last here ∧ target = here ++ [last] := by
  obtain ⟨place, hslot, hplace⟩ := exists_of_bind_ok h
  split_ifs at hplace with htrailing
  have hnot : ¬ fs.IsDirectory place := by
    rintro ⟨mode, hlookup⟩
    rw [hlookup] at hplace
    cases hplace
  obtain rfl : place = target := by
    split at hplace
    · cases hplace
    · exact Except.ok.inj hplace
  obtain ⟨⟨⟩, haccepted, hslot⟩ := exists_of_bind_ok hslot
  cases hlast : (Path.segments path).getLast? with
  | none => simp [hlast] at hslot
  | some last =>
      rw [hlast] at hslot
      obtain ⟨here, hwalk, htarget⟩ := exists_of_bind_ok hslot
      split_ifs at htarget with hdots hlong
      obtain rfl := Except.ok.inj htarget
      refine ⟨(Path.segments path).dropLast, last, here, ⟨haccepted, ?_, ?_, ?_, hnot⟩, rfl⟩
      · rw [Path.steps, if_neg htrailing]
        exact (List.dropLast_append_getLast? last hlast).symm
      · exact ⟨fun hdot => hdots (Or.inl hdot), fun hdots' => hdots (Or.inr hdots'),
          Nat.le_of_not_lt hlong⟩
      · exact leads_of_walk hwalk

theorem locate_of_accepted (h : acceptPath path = .ok ()) :
    fs.locate path = fs.walk maxLinks (origin path fs.workingDirectory) (Path.steps path) := by
  rw [locate, h]
  rfl

/-- The path leads to the file that was put at its last name. -/
theorem IsPlaceOf.locate_put (htree : fs.IsTree) (h : fs.IsPlaceOf path front last here)
    (hlink : ¬ fs.IsDirectoryLink (here ++ [last])) :
    (fs.put (here ++ [last]) (.file mode bytes)).locate path = .ok (here ++ [last]) := by
  have hstart := htree.origin htree.working path
  have hfront := h.leads.put_file htree hstart h.not_isDirectory hlink mode bytes
  obtain ⟨left, hwalk⟩ := hfront.goes_on.1 [last] (by simp)
  have hlookup : (fs.put (here ++ [last]) (.file mode bytes)).lookup (here ++ [last])
      = some (.file mode bytes) := by
    rw [lookup_put, if_pos rfl]
  rw [locate_of_accepted h.accepted, h.steps_eq]
  calc (fs.put (here ++ [last]) (.file mode bytes)).walk maxLinks
        (origin path fs.workingDirectory) (front ++ [last])
      = (fs.put (here ++ [last]) (.file mode bytes)).walk left here [last] := hwalk
    _ = .ok (here ++ [last]) := walk_file h.isName hlookup

/-- A path whose last name is a link to a directory reads as a directory, or is given up. -/
theorem IsPlaceOf.read_of_isDirectoryLink (h : fs.IsPlaceOf path front last here)
    (hlink : fs.IsDirectoryLink (here ++ [last])) :
    fs.read path = .error .isDirectory ∨ fs.read path = .error .linkLoop := by
  obtain ⟨place, name, target, links, directory, heq, hlookup, hleads, mode, hdirectory⟩ := hlink
  obtain ⟨rfl, hname⟩ := List.append_inj' heq rfl
  obtain rfl : last = name := List.singleton_inj.mp hname
  obtain ⟨left, hwalk⟩ := h.leads.goes_on.1 [last] (by simp)
  have hlocate : fs.locate path = fs.walk left here [last] := by
    rw [locate_of_accepted h.accepted, h.steps_eq, hwalk]
  unfold read
  rw [hlocate]
  cases left with
  | zero =>
      rw [walk_zero_link h.isName hlookup]
      exact Or.inr rfl
  | succ left =>
      rw [walk_link h.isName hlookup, List.append_nil]
      rcases hleads.walk_eq_or left with harrived | hgivenUp
      · rw [harrived]
        refine Or.inl ?_
        simp only [bind, Except.bind, hdirectory]
      · rw [hgivenUp]
        exact Or.inr rfl

/-- A new file can be read, if the path could be read or found nothing before. -/
theorem isReadable_of_modeOrNew (hread : ∀ fault, fs.read path = .error fault → fault = .notFound)
    (h : fs.modeOrNew path = .ok mode) : mode.isReadable = true := by
  unfold modeOrNew FileSystem.mode at h
  unfold read at hread
  cases hlocate : fs.locate path with
  | error fault =>
      obtain rfl : fault = .notFound := hread fault (by rw [hlocate]; rfl)
      rw [hlocate] at h
      obtain rfl := Except.ok.inj h
      decide
  | ok location =>
      rw [hlocate] at h hread
      simp only [bind, Except.bind] at h hread
      cases hlookup : fs.lookup location with
      | none =>
          rw [hlookup] at h
          obtain rfl := Except.ok.inj h
          decide
      | some node =>
          rw [hlookup] at h hread
          cases node with
          | file mode' bytes =>
              obtain rfl := Except.ok.inj h
              by_contra hunreadable
              have hdenied := hread .permissionDenied (by simp [hunreadable])
              cases hdenied
          | directory mode' =>
              have hdirectory := hread .isDirectory rfl
              cases hdirectory
          | link target =>
              obtain rfl := Except.ok.inj h
              decide

/-- **What was put at a path is read there.** The path could be read before, or found nothing. -/
theorem read_replace (htree : fs.IsTree)
    (hread : ∀ fault, fs.read path = .error fault → fault = .notFound)
    (htarget : fs.destination path = .ok target) (hmode : fs.modeOrNew path = .ok mode) :
    (fs.put target (.file mode bytes)).read path = .ok bytes := by
  obtain ⟨front, last, here, hplace, rfl⟩ := exists_isPlaceOf htarget
  have hlink : ¬ fs.IsDirectoryLink (here ++ [last]) := by
    intro hlink
    rcases hplace.read_of_isDirectoryLink hlink with hfault | hfault
    · exact absurd (hread _ hfault) (by decide)
    · exact absurd (hread _ hfault) (by decide)
  have hreadable := isReadable_of_modeOrNew hread hmode
  unfold read
  rw [hplace.locate_put htree hlink]
  simp only [bind, Except.bind, lookup_put, if_true, hreadable]

end Reading

end RecordHeader.FileSystem
