import GettextTemplate.Proofs.Disks
import GettextTemplate.Proofs.Outcomes

/-!
What a run leaves on a disk when it fails. Making directories grows the disk along their path, step by
step (`growsAlong_makeDirectoriesAlong`), and what is staged after that is taken back, so the files
are those from before the run (`publish_fails_cleanly`).
-/

namespace GettextTemplate

/-- Whether operations do on a disk what `Disk` says, or refuse to. A refusal leaves the disk as it
is, except that a staged file that is not moved is removed. -/
structure Disk.Serves (files : Files (StateM Disk) Place) : Prop where
  isDirectory : ∀ path disk, ((files.isDirectory path).run disk).2 = disk
  now : ∀ disk, (files.now.run disk).2 = disk
  made : ∀ {path disk next}, outcome (files.makeDirectory path) disk = (.ok (), next) →
    disk.makeDirectory path = .ok next
  notMade : ∀ {path disk e next}, outcome (files.makeDirectory path) disk = (.error e, next) →
    next = disk
  staged : ∀ {directory content disk place next},
    outcome (files.stage directory content) disk = (.ok place, next) →
      disk.stage directory content = .ok (place, next)
  notStaged : ∀ {directory content disk e next},
    outcome (files.stage directory content) disk = (.error e, next) → next = disk
  notCommitted : ∀ {place target disk e next},
    outcome (files.commit place target) disk = (.error e, next) → next = disk.remove place

theorem Disk.outcome_makeDirectory (now : Int) (path : Path) (disk : Disk) :
    outcome ((Disk.files now).makeDirectory path) disk =
      match disk.makeDirectory path with
      | .ok next => (.ok (), next)
      | .error e => (.error e, disk) := rfl

theorem Disk.outcome_stage (now : Int) (directory : Path) (content : Json.Bytes) (disk : Disk) :
    outcome ((Disk.files now).stage directory content) disk =
      match disk.stage directory content with
      | .ok (staged, next) => (.ok staged, next)
      | .error e => (.error e, disk) := rfl

/-- The operations on a disk itself serve it. -/
theorem Disk.serves_files (now : Int) : Disk.Serves (Disk.files now) where
  isDirectory _ _ := rfl
  now _ := rfl
  made {path disk next} h := by
    rw [outcome_makeDirectory] at h
    split at h
    · cases h
      assumption
    · cases h
  notMade {path disk e next} h := by
    rw [outcome_makeDirectory] at h
    split at h
    · cases h
    · cases h
      rfl
  staged {directory content disk place next} h := by
    rw [outcome_stage] at h
    split at h
    · cases h
      assumption
    · cases h
  notStaged {directory content disk e next} h := by
    rw [outcome_stage] at h
    split at h
    · cases h
    · cases h
      rfl
  notCommitted {place target disk e next} h := by
    change disk.commit place target = _ at h
    unfold Disk.commit at h
    split at h
    · cases h
      rfl
    · cases h
      rfl
    · cases h

namespace Files

open Disk

variable {files : Files (StateM Disk) Place}

theorem growsAlong_makeDirectory (hfiles : Serves files) (path : Path) (disk : Disk) :
    GrowsAlong path disk (outcome (files.makeDirectory path) disk).2 := by
  match hrun : outcome (files.makeDirectory path) disk with
  | (.ok (), next) => exact Disk.growsAlong_makeDirectory (hfiles.made hrun)
  | (.error e, next) =>
    rw [hfiles.notMade hrun]
    exact GrowsAlong.refl

theorem outcome_unlessDirectory (hfiles : Serves files) (path : Path) (e : FileError) (disk : Disk) :
    (outcome (files.unlessDirectory path e) disk).2 = disk := by
  have hkept := hfiles.isDirectory path disk
  unfold unlessDirectory
  rw [outcome_bind, outcome_lift, hkept]
  cases ((files.isDirectory path).run disk).1 <;> rfl

section

variable {path : Path} {α β : Type} {x : ExceptT FileError (StateM Disk) α}

theorem growsAlong_bind {f : α → ExceptT FileError (StateM Disk) β}
    (hx : ∀ disk, GrowsAlong path disk (outcome x disk).2)
    (hf : ∀ a disk, GrowsAlong path disk (outcome (f a) disk).2) (disk : Disk) :
    GrowsAlong path disk (outcome (x >>= f) disk).2 := by
  have hfirst := hx disk
  rw [outcome_bind]
  rcases hrun : outcome x disk with ⟨_ | a, next⟩
  · rw [hrun] at hfirst
    exact hfirst
  · rw [hrun] at hfirst
    exact hfirst.trans (hf a next)

theorem growsAlong_tryCatch {handler : FileError → ExceptT FileError (StateM Disk) α}
    (hx : ∀ disk, GrowsAlong path disk (outcome x disk).2)
    (hhandler : ∀ e disk, GrowsAlong path disk (outcome (handler e) disk).2) (disk : Disk) :
    GrowsAlong path disk (outcome (tryCatch x handler) disk).2 := by
  have hfirst := hx disk
  rw [outcome_tryCatch]
  rcases hrun : outcome x disk with ⟨e | _, next⟩
  · rw [hrun] at hfirst
    exact hfirst.trans (hhandler e next)
  · rw [hrun] at hfirst
    exact hfirst

end

theorem growsAlong_makeDirectoriesAlong (hfiles : Serves files) (fromRoot : Bool)
    (steps : List Step) (disk : Disk) :
    GrowsAlong ⟨fromRoot, steps.reverse⟩ disk
      (outcome (files.makeDirectoriesAlong fromRoot steps) disk).2 := by
  induction steps generalizing disk with
  | nil => exact GrowsAlong.refl
  | cons last before ih =>
    have hbefore : ∀ disk, GrowsAlong ⟨fromRoot, (last :: before).reverse⟩ disk
        (outcome (files.makeDirectoriesAlong fromRoot before) disk).2 := by
      intro disk
      apply GrowsAlong.of_upTo before.length
      have hbegin : Path.upTo ⟨fromRoot, (last :: before).reverse⟩ before.length =
          ⟨fromRoot, before.reverse⟩ := by
        simp [Path.upTo]
      rw [hbegin]
      exact ih disk
    have hunless : ∀ e disk, GrowsAlong ⟨fromRoot, (last :: before).reverse⟩ disk
        (outcome (files.unlessDirectory ⟨fromRoot, (last :: before).reverse⟩ e) disk).2 := by
      intro e disk
      rw [outcome_unlessDirectory hfiles]
      exact GrowsAlong.refl
    have hmake := growsAlong_makeDirectory hfiles ⟨fromRoot, (last :: before).reverse⟩
    rw [makeDirectoriesAlong]
    by_cases hidle : last.isIdle = true
    · rw [if_pos hidle]
      exact hbefore disk
    · rw [if_neg hidle]
      refine growsAlong_tryCatch hmake (fun e => ?_) disk
      split
      · -- The directories before the last one are made, as far as that goes, and then the last.
        exact growsAlong_bind hbefore fun _ => growsAlong_tryCatch hmake hunless
      · exact hunless _

theorem growsAlong_makeDirectories (hfiles : Serves files) (path : Path) (disk : Disk) :
    GrowsAlong path disk (outcome (files.makeDirectories path) disk).2 := by
  have hgrows := growsAlong_makeDirectoriesAlong hfiles path.fromRoot path.steps.reverse disk
  rw [List.reverse_reverse] at hgrows
  exact hgrows

/-- A file that cannot be replaced is as it was, and so is all else apart from new directories. -/
theorem growsAlong_of_replaceFile (hfiles : Serves files) {target : Path} {text : String}
    {disk after : Disk} {e : FileError}
    (h : outcome (files.replaceFile target text) disk = (.error e, after)) :
    GrowsAlong target.directory disk after := by
  have hmake := growsAlong_makeDirectories hfiles target.directory disk
  rcases outcome_bind_eq_error h with hfailed | ⟨_, made, hmade, hlater⟩
  · rw [hfailed] at hmake
    exact hmake
  · rw [hmade] at hmake
    rcases outcome_bind_eq_error hlater with hfailed | ⟨staged, held, hstaged, hcommit⟩
    · rw [hfiles.notStaged hfailed]
      exact hmake
    · obtain ⟨hfree, rfl⟩ := stage_eq_ok (hfiles.staged hstaged)
      rw [hfiles.notCommitted hcommit, remove_put hfree]
      exact hmake

end Files

namespace Destination

open Disk

variable {files : Files (StateM Disk) Place} {destination : Destination} {source : Source}
  {package : String} {disk after : Disk} {e : RunError}

/-- A run fails before it touches the disk, or in writing its file. -/
theorem publish_eq_error (hfiles : Serves files)
    (h : outcome (destination.publish files source package) disk = (.error e, after)) :
    source.collection package = .error e ∧ after = disk ∨
      ∃ text failure, e = .file failure.message ∧
        outcome (files.replaceFile (destination.path package) text) disk =
          (.error failure, after) := by
  rw [outcome_publish (hfiles.now disk)] at h
  cases hcollection : source.collection package with
  | error e' =>
    rw [hcollection] at h
    cases h
    exact .inl ⟨rfl, rfl⟩
  | ok c =>
    rw [hcollection] at h
    obtain ⟨failure, hfailure, hreplace⟩ := outcome_reportAfter_eq_error h
    exact .inr ⟨_, failure, hfailure, hreplace⟩

/-- A run that fails leaves every file as it was, and nothing that it staged. If it did not fail in
writing its file the disk is the same, and otherwise it has at most new directories, each of them on
the way to the directory of the target. -/
theorem publish_fails_cleanly (hfiles : Serves files)
    (h : outcome (destination.publish files source package) disk = (.error e, after)) :
    (∀ place content,
      after.item? place = some (.file content) ↔ disk.item? place = some (.file content)) ∧
    ((∀ reason, e ≠ .file reason) → after = disk) ∧
    after.here = disk.here ∧
    ∀ place, after.item? place ≠ disk.item? place →
      disk.item? place = none ∧ after.item? place = some .directory ∧
        ∃ count, after.find ((destination.path package).directory.upTo count) = .ok place := by
  have hgrows : GrowsAlong (destination.path package).directory disk after := by
    rcases publish_eq_error hfiles h with ⟨_, rfl⟩ | ⟨text, failure, _, hreplace⟩
    · exact GrowsAlong.refl
    · exact Files.growsAlong_of_replaceFile hfiles hreplace
  refine ⟨hgrows.item?_eq_file_iff, ?_, hgrows.here, hgrows.changed⟩
  intro hother
  rcases publish_eq_error hfiles h with ⟨_, hsame⟩ | ⟨text, failure, hfailure, _⟩
  · exact hsame
  · exact absurd hfailure (hother _)

/-- A disk with a directory where the template of `P` would be written. -/
def blockedDisk : Disk where
  items := [(["P.pot"], .directory), (["kept"], .file [1])]

/-- Templates are written here, by way of a directory that is not there yet. -/
def detour : Destination where
  format := { hasHeader := false }
  directory := "new/.."

def commentedTree : ModelTree where
  packages := [{ kind := .container, ident := "P", comment := "c" }]

theorem publish_blockedDisk_fails_cleanly :
    ∃ after, outcome (detour.publish (Disk.files 0) commentedTree.source "P") blockedDisk =
        (.error (.file "Is a directory (os error 21)"), after) ∧
      after.item? ["new"] = some .directory ∧
      (∀ place content, after.item? place = some (.file content) ↔
        blockedDisk.item? place = some (.file content)) ∧
      ∃ count, after.find ((detour.path "P").directory.upTo count) = .ok ["new"] := by
  have h : outcome (detour.publish (Disk.files 0) commentedTree.source "P") blockedDisk =
      (.error (.file "Is a directory (os error 21)"),
        { items := [(["new"], .directory), (["P.pot"], .directory), (["kept"], .file [1])] }) := by
    rfl
  obtain ⟨hfiles, _, _, hchanged⟩ := publish_fails_cleanly (Disk.serves_files 0) h
  obtain ⟨_, hnew, hway⟩ := hchanged ["new"] (by decide)
  exact ⟨_, h, hnew, hfiles, hway⟩

end Destination

end GettextTemplate
