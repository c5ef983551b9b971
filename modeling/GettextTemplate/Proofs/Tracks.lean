import GettextTemplate.Proofs.FinishedRuns
import GettextTemplate.Proofs.Interleavings
import GettextTemplate.Proofs.Neighbours

/-!
The way of a run whose disk may change under it. What it collects, and whether it can write, is told
by the disk at the beginning. A run is on track if it has come from there to its phase with nothing
in between but its own steps (`OnTrack`), and a step keeps it on track wherever the disk answers as it
did at the beginning.
-/

namespace GettextTemplate

/-- The tree that a run opens. -/
def Disk.opened (disk : Disk) (path : String) : Except SourceFailure ModelTree := do
  let content ← (disk.read (.ofText path)).mapError fun e =>
    SourceFailure.unavailable (path ++ ": " ++ e.message)
  ModelTree.ofJson content

/-- What a run collects. -/
def Disk.gathered (disk : Disk) (path package : String) : Except RunError Collection := do
  let tree ← (disk.opened path).mapError RunError.ofSource
  tree.source.collection package

theorem Files.outcome_openTree (now : Int) (path : String) (disk : Disk) :
    outcome ((Disk.files now).openTree path) disk = (disk.opened path, disk) := by
  have hread : outcome ((Disk.files now).read (.ofText path)) disk =
      (disk.read (.ofText path), disk) := rfl
  rw [openTree, outcome_bind, outcome_adapt, hread, Disk.opened]
  cases disk.read (.ofText path) <;> rfl

namespace Disk

variable {disk : Disk} {path package : String}

theorem opened_congr {later : Disk}
    (h : later.read (.ofText path) = disk.read (.ofText path)) :
    later.opened path = disk.opened path := by
  rw [opened, opened, h]

theorem gathered_of_opened {tree : ModelTree} (h : disk.opened path = .ok tree) (package : String) :
    disk.gathered path package = tree.source.collection package := by
  rw [gathered, h]
  rfl

theorem gathered_of_unopened {e : SourceFailure} (h : disk.opened path = .error e)
    (package : String) : disk.gathered path package = .error (.ofSource e) := by
  rw [gathered, h]
  rfl

theorem exists_file_of_gathered {c : Collection} (h : disk.gathered path package = .ok c) :
    ∃ place content, disk.find (.ofText path) = .ok place ∧
      disk.item? place = some (.file content) := by
  unfold gathered opened read at h
  cases hfind : disk.find (.ofText path) with
  | error e =>
    rw [hfind] at h
    cases h
  | ok place =>
    rw [hfind] at h
    rcases hitem : disk.item? place with _ | _ | content
    · simp [bind, Except.bind, hitem, Except.mapError] at h
    · simp [bind, Except.bind, hitem, Except.mapError] at h
    · exact ⟨place, content, rfl, hitem⟩

-- To compare two of them by what they compute would be to read the file.
attribute [irreducible] opened gathered

/-- Whether something can be staged does not depend on what it is. -/
theorem stage_eq_error {disk : Disk} {directory : Path} (h : disk.isDirectory directory = false) :
    ∃ e, ∀ content, disk.stage directory content = .error e := by
  unfold isDirectory at h
  unfold stage
  cases hfind : disk.find directory with
  | error e => exact ⟨e, fun _ => rfl⟩
  | ok place =>
    rw [hfind] at h
    rcases hitem : disk.item? place with _ | _ | content
    · exact ⟨.notFound, fun _ => by simp [bind, Except.bind, hitem]⟩
    · simp [hitem] at h
    · exact ⟨.notDirectory, fun _ => by simp [bind, Except.bind, hitem]⟩

end Disk

namespace Destination

/-- An attempt to make the folder. -/
def attempted (destination : Destination) (disk : Disk) : Except FileError Unit × Disk :=
  outcome ((Disk.files 0).makeDirectories destination.folder) disk

theorem outcome_makeDirectories (destination : Destination) (now : Int) (disk : Disk) :
    outcome ((Disk.files now).makeDirectories destination.folder) disk =
      destination.attempted disk :=
  Files.outcome_makeDirectories_now now 0 destination.folder disk

attribute [irreducible] attempted

/-- What an attempt to make the folder comes to. -/
def attempt (destination : Destination) (disk : Disk) : Except FileError Unit :=
  (destination.attempted disk).1

/-- The disk after an attempt to make the folder. -/
def prepared (destination : Destination) (disk : Disk) : Disk :=
  (destination.attempted disk).2

/-- Whether the folder can be made and written into. -/
def IsOpen (destination : Destination) (disk : Disk) : Prop :=
  destination.attempt (destination.prepared disk) = .ok () ∧
    (destination.prepared disk).isDirectory destination.folder = true

/-- The text that is written for a collection, at whatever time. -/
def textOf (destination : Destination) (c : Collection) : String :=
  Template.compose destination.format c.catalog 0

/-- What an attempt to put a template into the folder comes to: its place. -/
def placed (destination : Destination) (disk : Disk) (package : String) : Except FileError Place := do
  let _ ← disk.stage destination.folder []
  disk.target (destination.path package)

theorem placed_of_isDirectory {destination : Destination} {disk : Disk}
    (h : disk.isDirectory destination.folder = true) (package : String) :
    destination.placed disk package = disk.target (destination.path package) := by
  obtain ⟨staged, -, hstage⟩ := Disk.exists_stage_eq_ok [] h
  rw [placed, hstage]
  rfl

theorem placed_of_stage {destination : Destination} {disk : Disk} {e : FileError}
    (h : disk.stage destination.folder [] = .error e) (package : String) :
    destination.placed disk package = .error e := by
  rw [placed, h]
  rfl

attribute [irreducible] placed

/-- What a run comes to whose attempt to make the folder came to `made`. -/
def ending (destination : Destination) (path : String) (disk : Disk) (made : Except FileError Unit)
    (package : String) : Except RunError Report :=
  match disk.gathered path package with
  | .error e => .error e
  | .ok c =>
    match made.bind fun () => destination.placed (destination.prepared disk) package with
    | .error e => .error (.file e.message)
    | .ok _ => .ok (destination.report package c.counts)

variable {destination : Destination} {path package : String} {disk : Disk}

theorem prepared_prepared : destination.prepared (destination.prepared disk) =
    destination.prepared disk := by
  obtain ⟨result, hagain, -⟩ := Files.makeDirectories_again 0 destination.folder disk
  rw [outcome_makeDirectories, outcome_makeDirectories] at hagain
  have hprepared := congrArg Prod.snd hagain
  exact hprepared

theorem eq_ok_iff {made : Except FileError Unit} : made = .ok () ↔ made.isOk = true := by
  cases made <;> simp [Except.isOk, Except.toBool]

theorem isOk_attempt_prepared : (destination.attempt (destination.prepared disk)).isOk =
    (destination.attempt disk).isOk := by
  obtain ⟨result, hagain, hisOk⟩ := Files.makeDirectories_again 0 destination.folder disk
  rw [outcome_makeDirectories] at hagain hisOk
  rw [outcome_makeDirectories] at hagain
  have hresult : destination.attempt (destination.prepared disk) = result :=
    congrArg Prod.fst hagain
  rw [hresult]
  exact hisOk

theorem grows_prepared : Disk.Grows disk (destination.prepared disk) := by
  have hgrows := Files.growsAlong_makeDirectories (Disk.serves_files 0) destination.folder disk
  rw [outcome_makeDirectories] at hgrows
  exact hgrows.grows

/-- Whether a run of a package has come where it should, if `made?` is what its attempt to make the
folder came to. -/
inductive OnTrack (destination : Destination) (path : String) (disk : Disk)
    (made? : Option (Except FileError Unit)) (package : String) : Phase Place → Prop
  | opening : OnTrack destination path disk made? package (.opening path)
  | collecting {tree : ModelTree} (opens : disk.opened path = .ok tree) :
      OnTrack destination path disk made? package (.collecting tree.source)
  | preparing {c : Collection} (gathers : disk.gathered path package = .ok c) :
      OnTrack destination path disk made? package (.preparing c.counts (destination.textOf c))
  | staging {c : Collection} (gathers : disk.gathered path package = .ok c)
      (makes : made? = some (.ok ())) :
      OnTrack destination path disk made? package (.staging c.counts (destination.textOf c))
  | committing {c : Collection} {staged : Place} (gathers : disk.gathered path package = .ok c)
      (makes : made? = some (.ok ())) (isOpen : destination.IsOpen disk) :
      OnTrack destination path disk made? package (.committing c.counts staged)
  | refused {e : RunError} (refuses : disk.gathered path package = .error e) :
      OnTrack destination path disk made? package (.finished (.error e))
  | finished {c : Collection} {made : Except FileError Unit}
      (gathers : disk.gathered path package = .ok c) (makes : made? = some made) :
      OnTrack destination path disk made? package
        (.finished (destination.ending path disk made package))

namespace OnTrack

/-- As long as a run has not tried to make the folder it does not matter what that comes to. -/
theorem of_none {phase : Phase Place} (h : OnTrack destination path disk none package phase)
    (made? : Option (Except FileError Unit)) :
    OnTrack destination path disk made? package phase := by
  cases h with
  | opening => exact .opening
  | collecting opens => exact .collecting opens
  | preparing gathers => exact .preparing gathers
  | staging _ makes => cases makes
  | committing _ makes => cases makes
  | refused refuses => exact .refused refuses
  | finished _ makes => cases makes

/-- Who ends without an attempt to make the folder has collected nothing. -/
theorem refuses {result : Except RunError Report}
    (h : OnTrack destination path disk none package (.finished result)) :
    ∃ e, disk.gathered path package = .error e := by
  generalize hphase : Phase.finished result = phase at h
  cases h with
  | refused refuses => exact ⟨_, refuses⟩
  | finished _ makes => cases makes
  | _ => cases hphase

theorem ending_eq {made : Except FileError Unit} {result : Except RunError Report}
    (h : OnTrack destination path disk (some made) package (.finished result)) :
    result = destination.ending path disk made package := by
  generalize hphase : Phase.finished result = phase at h
  cases h with
  | refused refuses =>
    cases hphase
    rw [ending, refuses]
  | finished gathers makes =>
    cases hphase
    rw [Option.some.inj makes]
  | _ => cases hphase

end OnTrack

variable {later : Disk}

theorem step_opening (now : Int) (hread : later.read (.ofText path) = disk.read (.ofText path)) :
    ∃ next, destination.step now package (.opening path) later = (next, later) ∧
      OnTrack destination path disk none package next := by
  rw [step, Phase.advance, Phase.run_goOn, Files.outcome_openTree, Disk.opened_congr hread]
  refine ⟨_, rfl, ?_⟩
  cases htree : disk.opened path with
  | error e =>
    exact .refused (Disk.gathered_of_unopened htree package)
  | ok tree => exact .collecting htree

theorem step_collecting (now : Int) (hheader : destination.format.hasHeader = false)
    {tree : ModelTree} (hopened : disk.opened path = .ok tree) :
    ∃ next, destination.step now package (.collecting tree.source) later = (next, later) ∧
      OnTrack destination path disk none package next := by
  refine ⟨_, rfl, ?_⟩
  have hgathered := Disk.gathered_of_opened hopened package
  change OnTrack destination path disk none package (Phase.goOn id
    (fun c => .preparing c.counts (Template.compose destination.format c.catalog now))
    (tree.source.collection package))
  cases hcollection : tree.source.collection package with
  | error e => exact .refused (hgathered.trans hcollection)
  | ok c =>
    rw [Phase.goOn, Template.compose_of_noHeader hheader c.catalog now 0]
    exact .preparing (hgathered.trans hcollection)

theorem step_preparing (now : Int) (hextension : destination.format.extension = "pot")
    (hpackage : '/' ∉ package.toList) (counts : Counts) (text : String) :
    destination.step now package (.preparing counts text) later =
      (Phase.goOn (.file ·.message) (fun () => .staging counts text) (destination.attempt later),
        destination.prepared later) := by
  rw [step, Phase.advance, Phase.run_goOn, directory_path hextension hpackage,
    outcome_makeDirectories]
  rfl

theorem OnTrack.of_made {c : Collection} (hgathers : disk.gathered path package = .ok c)
    (made : Except FileError Unit) :
    OnTrack destination path disk (some made) package
      (Phase.goOn (.file ·.message) (fun () => .staging c.counts (destination.textOf c)) made) := by
  cases made with
  | error e =>
    have hending : destination.ending path disk (.error e) package = .error (.file e.message) := by
      rw [ending, hgathers]
      rfl
    dsimp only [Phase.goOn]
    rw [← hending]
    exact .finished hgathers rfl
  | ok _ => exact .staging hgathers rfl

open Disk

/-- What comes of a run that finds the folder made is what comes of its attempt to put its template
into it. -/
theorem ending_of_made {c : Collection} (hgathers : disk.gathered path package = .ok c) :
    destination.ending path disk (.ok ()) package =
      match destination.placed (destination.prepared disk) package with
      | .error e => .error (.file e.message)
      | .ok _ => .ok (destination.report package c.counts) := by
  rw [ending, hgathers]
  rfl

theorem step_staging (now : Int) (hextension : destination.format.extension = "pot")
    (hpackage : '/' ∉ package.toList) (hopen : destination.IsOpen disk)
    (hsame : SameDirectories (destination.prepared disk) later) (counts : Counts) (text : String) :
    ∃ staged, later.item? staged = none ∧ IsStagedName staged ∧
      destination.step now package (.staging counts text) later =
        (.committing counts staged, later.put staged (.file (utf8 text))) := by
  obtain ⟨staged, hfree, hstage⟩ :=
    exists_stage_eq_ok (utf8 text) (hsame.keeps.isDirectory hopen.2)
  refine ⟨staged, hfree, isStagedName_of_stage hstage, ?_⟩
  rw [step, Phase.advance, Phase.run_goOn, directory_path hextension hpackage, outcome_stage, hstage]
  rfl

/-- A run that finds the folder made but no directory ends here. -/
theorem step_staging_closed (now : Int) (hextension : destination.format.extension = "pot")
    (hpackage : '/' ∉ package.toList) {c : Collection}
    (hgathers : disk.gathered path package = .ok c)
    (hclosed : (destination.prepared disk).isDirectory destination.folder = false) :
    ∃ e, destination.ending path disk (.ok ()) package = .error e ∧
      destination.step now package (.staging c.counts (destination.textOf c))
        (destination.prepared disk) = (.finished (.error e), destination.prepared disk) := by
  obtain ⟨e, hstage⟩ := stage_eq_error hclosed
  refine ⟨.file e.message, ?_, ?_⟩
  · rw [ending_of_made hgathers, placed_of_stage (hstage [])]
  · rw [step, Phase.advance, Phase.run_goOn, directory_path hextension hpackage, outcome_stage,
      hstage]
    rfl

theorem step_committing (now : Int) (hextension : destination.format.extension = "pot")
    (hpackage : '/' ∉ package.toList) {c : Collection}
    (hgathers : disk.gathered path package = .ok c) (hopen : destination.IsOpen disk)
    (hsame : SameDirectories (destination.prepared disk) later) {staged : Place}
    {content : Json.Bytes} (hstaged : later.item? staged = some (.file content)) :
    destination.step now package (.committing c.counts staged) later =
      (.finished (destination.ending path disk (.ok ()) package),
        match (destination.prepared disk).target (destination.path package) with
        | .ok place => (later.remove staged).put place (.file content)
        | .error _ => later.remove staged) := by
  have hcommit : outcome ((Disk.files now).commit staged (destination.path package)) later =
      later.commit staged (destination.path package) := rfl
  rw [step, Phase.advance, Phase.run_goOn, hcommit, commit,
    target_congr hextension hpackage hopen.2 hsame, ending_of_made hgathers,
    placed_of_isDirectory hopen.2]
  cases (destination.prepared disk).target (destination.path package) with
  | error e => rfl
  | ok place =>
    rw [hstaged]
    rfl

end Destination

end GettextTemplate
