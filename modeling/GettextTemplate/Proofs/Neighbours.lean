import GettextTemplate.Proofs.Confinement
import GettextTemplate.Proofs.Directories

/-!
Templates side by side. Without slashes in their names all packages have their templates in one
directory, the folder of the destination (`directory_path`), each under a name of its own that no
staged file has. Where a template goes depends on the directories of a disk only (`target_congr`), so
it does not matter which files other runs have put there.
-/

namespace GettextTemplate

namespace Disk

/-- Whether two disks have the same directories, and paths begin at the same place. -/
structure SameDirectories (disk later : Disk) : Prop where
  here : later.here = disk.here
  directory : ∀ place,
    later.item? place = some .directory ↔ disk.item? place = some .directory

theorem SameDirectories.refl (disk : Disk) : SameDirectories disk disk := ⟨rfl, fun _ => Iff.rfl⟩

variable {disk later : Disk}

theorem SameDirectories.keeps (h : SameDirectories disk later) : KeepsDirectories disk later :=
  ⟨h.here, fun place => (h.directory place).mpr⟩

theorem target_eq (disk : Disk) (path : Path) :
    disk.target path =
      if path.hasNull then .error .invalidArgument
      else (disk.find path).bind fun place =>
        if disk.item? place = some .directory then .error .isDirectory else .ok place := by
  unfold target
  split
  · rfl
  · cases disk.find path with
    | error e => rfl
    | ok place =>
      simp only [bind, Except.bind]
      split
      · next hdirectory => rw [if_pos hdirectory]
      · next hother => rw [if_neg hother]

/-- A name in a directory is found wherever the directories are the same. -/
theorem find_congr (h : SameDirectories disk later) {fromRoot : Bool} {lead : List Step}
    {name : String} {top : Place}
    (hlead : disk.walk (if fromRoot then [] else disk.here) lead = .ok top)
    (htop : disk.item? top = some .directory) :
    later.find ⟨fromRoot, lead ++ [.enter name]⟩ = disk.find ⟨fromRoot, lead ++ [.enter name]⟩ := by
  have hwalk : later.walk (if fromRoot then [] else later.here) (lead ++ [.enter name]) =
      disk.walk (if fromRoot then [] else disk.here) (lead ++ [.enter name]) := by
    have hlater := h.keeps.walk hlead
    rw [h.here, walk_append, walk_append, hlead, hlater]
    change later.walk top [.enter name] = disk.walk top [.enter name]
    rw [walk_cons htop, walk_cons ((h.directory top).mpr htop)]
    rfl
  unfold find
  rw [hwalk]

theorem item?_remove {place : Place} (hplace : place ≠ []) (other : Place) :
    (disk.remove place).item? other = if other = place then none else disk.item? other := by
  by_cases hother : other = place
  · rw [if_pos hother, hother, item?_eq_none_iff hplace, remove]
    simp
  · have hlookup := lookup_filter_ne hother disk.items
    rw [if_neg hother, item?, item?, remove, hlookup]

/-- Whether a place has a name that staged files have. -/
def IsStagedName (place : Place) : Prop := ∃ n top, place = stagedName n :: top

theorem isStagedName_of_stage {directory : Path} {content : Json.Bytes} {staged : Place}
    {next : Disk} (h : disk.stage directory content = .ok (staged, next)) :
    IsStagedName staged := by
  unfold stage at h
  cases hfind : disk.find directory with
  | error e => rw [hfind] at h; cases h
  | ok place =>
    rw [hfind] at h
    match hitem : disk.item? place with
    | none => simp [bind, Except.bind, hitem] at h
    | some (.file _) => simp [bind, Except.bind, hitem] at h
    | some .directory =>
      simp only [bind, Except.bind, hitem] at h
      cases h
      exact ⟨_, place, rfl⟩

/-- No staged file has the name of a template. -/
theorem IsStagedName.ne_template {place top : Place} (h : IsStagedName place) (package : String) :
    place ≠ (package ++ ".pot") :: top := by
  obtain ⟨n, folder, rfl⟩ := h
  intro heq
  have htemplate : (package ++ ".pot").toList.getLast? = some 't' := by
    simp
  have hstaged : (stagedName n).toList.getLast? ≠ some 't' := by
    cases n with
    | zero => decide
    | succ n =>
      have hname : (stagedName (n + 1)).toList = ".tmp".toList ++ List.replicate (n + 1) '0' :=
        String.toList_ofList
      rw [hname, List.replicate_succ', ← List.append_assoc, List.getLast?_concat]
      decide
  rw [(List.cons.inj heq).1] at hstaged
  exact hstaged htemplate

end Disk

namespace Path

/-- Behind a slash the name of a file is the last step, and the way to it is that of the text before
the slash. -/
theorem exists_ofText_slash (front : List Char) :
    ∃ fromRoot lead, ∀ text : String, ∀ part, '/' ∉ part →
      text.toList = front ++ '/' :: (part ++ ".pot".toList) →
      ofText text = ⟨fromRoot, lead ++ [.enter (String.ofList (part ++ ".pot".toList))]⟩ := by
  cases front with
  | nil =>
    refine ⟨true, [], fun text part hpart htext => ?_⟩
    rw [ofText, htext]
    exact congrArg _ (stepsOf_file hpart)
  | cons c rest =>
    by_cases hc : c = '/'
    · subst hc
      refine ⟨true, stepsOf rest, fun text part hpart htext => ?_⟩
      rw [ofText, htext, ← stepsOf_file hpart, ← stepsOf_slash]
      rfl
    · refine ⟨false, stepsOf (c :: rest), fun text part hpart htext => ?_⟩
      rw [ofText, htext, ← stepsOf_file hpart, ← stepsOf_slash]
      split
      · next hnil => cases hnil
      · next hslash =>
        obtain ⟨rfl, -⟩ := List.cons.inj hslash
        exact absurd rfl hc
      · rfl

/-- The directory of a file is the way to it. -/
theorem moves_directory (fromRoot : Bool) (lead : List Step) (name : String) :
    (directory ⟨fromRoot, lead ++ [.enter name]⟩).fromRoot = fromRoot ∧
      (directory ⟨fromRoot, lead ++ [.enter name]⟩).moves =
        lead.filter fun step => !step.isIdle := by
  have hidle (steps : List Step) : (steps.dropWhile Step.isIdle).reverse.filter
      (fun step => !step.isIdle) = steps.reverse.filter fun step => !step.isIdle := by
    induction steps with
    | nil => rfl
    | cons step rest ih =>
      rw [List.dropWhile_cons]
      split
      · rw [ih, List.reverse_cons, List.filter_append]
        simp [*]
      · rfl
  have houtward : ((lead ++ [Step.enter name]).reverse.dropWhile Step.isIdle).tail.dropWhile
      Step.isIdle = lead.reverse.dropWhile Step.isIdle := by
    simp [Step.isIdle]
  have hmoves := hidle lead.reverse
  rw [List.reverse_reverse] at hmoves
  rw [directory, houtward]
  split
  · next hhere =>
    simp only [Bool.and_eq_true, List.isEmpty_iff, Bool.not_eq_true'] at hhere
    rw [hhere.1] at hmoves
    exact ⟨hhere.2.symm, hmoves⟩
  · exact ⟨rfl, hmoves⟩

end Path

namespace Destination

variable {destination : Destination} {package : String}

/-- The templates of packages without slashes in their names have a common way. -/
theorem exists_lead (hextension : destination.format.extension = "pot") :
    ∃ fromRoot lead, ∀ package, '/' ∉ package.toList →
      destination.path package = ⟨fromRoot, lead ++ [.enter (package ++ ".pot")]⟩ := by
  obtain ⟨fromRoot, lead, hlead⟩ := Path.exists_ofText_slash (Path.unslashed destination.directory)
  have hfile (package : String) : (package ++ "." ++ "pot").toList =
      package.toList ++ ".pot".toList := by
    simp
  have hname (package : String) : String.ofList (package.toList ++ ".pot".toList) =
      package ++ ".pot" := by
    rw [← String.toList_inj]
    simp
  have hhead {package : String} (hpackage : '/' ∉ package.toList) :
      (package ++ "." ++ "pot").toList.head? ≠ some '/' := by
    intro hroot
    rw [hfile] at hroot
    have hmem := List.mem_of_mem_head? hroot
    simp [hpackage] at hmem
  by_cases hempty : destination.directory = ""
  · refine ⟨false, [], fun package hpackage => ?_⟩
    rw [path, pathText, hextension, hempty, Path.joinText_empty (hhead hpackage), List.nil_append,
      ← hname, ← Path.stepsOf_file hpackage]
    have hroot := hhead hpackage
    rw [hfile] at hroot
    rw [Path.ofText, hfile]
    split
    · next hnil => simp at hnil
    · next hslash =>
      rw [hslash] at hroot
      exact absurd rfl hroot
    · rfl
  · refine ⟨fromRoot, lead, fun package hpackage => ?_⟩
    rw [path, pathText, hextension, ← hname]
    apply hlead _ _ hpackage
    rw [Path.toList_joinText hempty (hhead hpackage), hfile]

/-- The directory that templates are written into. -/
def folder (destination : Destination) : Path := (destination.path "").directory

theorem directory_path (hextension : destination.format.extension = "pot")
    (hpackage : '/' ∉ package.toList) : (destination.path package).directory = destination.folder := by
  obtain ⟨fromRoot, lead, hlead⟩ := exists_lead hextension
  have hdirectory (name : String) : Path.directory ⟨fromRoot, lead ++ [.enter name]⟩ =
      Path.directory ⟨fromRoot, lead ++ [.enter (package ++ ".pot")]⟩ := by
    simp [Path.directory, Step.isIdle]
  rw [folder, hlead package hpackage, hlead "" (by simp)]
  exact (hdirectory _).symm

open Disk

variable {disk later : Disk} {top : Place}

/-- All files that are found on the way of the templates are found in the folder. -/
theorem walk_lead {fromRoot : Bool} {lead : List Step}
    (hlead : destination.path "" = ⟨fromRoot, lead ++ [.enter ("" ++ ".pot")]⟩)
    (hfolder : disk.find destination.folder = .ok top)
    (htop : disk.item? top = some .directory) :
    disk.walk (if fromRoot then [] else disk.here) lead = .ok top := by
  obtain ⟨hroot, hmoves⟩ := Path.moves_directory fromRoot lead ("" ++ ".pot")
  rw [folder, hlead] at hfolder
  obtain ⟨-, -, -, hwalk⟩ := find_eq_ok_iff.mp hfolder
  have hwalk := walk_moves hwalk
  rw [← Path.moves, hmoves, hroot] at hwalk
  exact walk_of_moves htop hwalk

/-- Where the template of a package goes depends on the directories of the disk alone. -/
theorem target_congr (hextension : destination.format.extension = "pot")
    (hpackage : '/' ∉ package.toList) (hfolder : disk.isDirectory destination.folder = true)
    (h : SameDirectories disk later) :
    later.target (destination.path package) = disk.target (destination.path package) := by
  obtain ⟨fromRoot, lead, hlead⟩ := exists_lead hextension
  obtain ⟨top, hfind, htop⟩ := isDirectory_iff.mp hfolder
  have hwalk := walk_lead (hlead "" (by simp)) hfind htop
  rw [target_eq, target_eq, hlead package hpackage, find_congr h hwalk htop]
  simp only [h.directory]

/-- The template of a package has the name of the package. -/
theorem eq_of_target (hextension : destination.format.extension = "pot")
    (hpackage : '/' ∉ package.toList) {place : Place}
    (hfolder : disk.find destination.folder = .ok top) (htop : disk.item? top = some .directory)
    (h : disk.target (destination.path package) = .ok place) :
    place = (package ++ ".pot") :: top := by
  obtain ⟨fromRoot, lead, hlead⟩ := exists_lead hextension
  obtain ⟨-, hfind, -⟩ := target_eq_ok_iff.mp h
  rw [hlead package hpackage] at hfind
  obtain ⟨-, -, -, hwalk⟩ := find_eq_ok_iff.mp hfind
  rw [walk_append, walk_lead (hlead "" (by simp)) hfolder htop] at hwalk
  exact walk_enter [package ++ ".pot"] hwalk

end Destination

end GettextTemplate
