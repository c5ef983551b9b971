import GettextTemplate.Proofs.FailedRuns

/-!
What becomes of a file that is replaced. A disk is ready for a file when its directory is there and
nothing else stands in its way. To replace a file is to make directories until the disk is ready
and then to put the file at its place (`takes_iff`), and the first of these steps that fails is the
refusal (`refuses_iff`). On a disk that is ready no directory is made (`replaceFile_of_ready`), and the
disk stays ready, so whoever replaces a file twice by the same text might have done so once.
-/

namespace GettextTemplate

theorem Path.size_le_of_concat (fromRoot : Bool) (before : List Step) (last : Step) :
    Path.size ⟨fromRoot, before⟩ ≤ Path.size ⟨fromRoot, before ++ [last]⟩ := by
  simp only [Path.size, Path.text, String.utf8ByteSize_append, List.map_append, List.map_singleton]
  cases before with
  | nil => simp
  | cons first rest =>
    rw [String.intercalate_append_of_ne_nil (by simp) (by simp)]
    simp only [String.utf8ByteSize_append]
    omega

namespace Disk

theorem put_put (disk : Disk) (place : Place) (item item' : Item) :
    (disk.put place item).put place item' = disk.put place item' := by
  simp [put]

theorem walk_append (disk : Disk) (place : Place) (steps later : List Step) :
    disk.walk place (steps ++ later) =
      disk.walk place steps >>= fun middle => disk.walk middle later := by
  induction steps generalizing place with
  | nil => rfl
  | cons step rest ih =>
    rw [List.cons_append, walk.eq_def, walk.eq_def disk place (step :: rest)]
    rcases disk.item? place with _ | _ | _
    · rfl
    · cases step with
      | blank => exact ih place
      | stay => exact ih place
      | up => exact ih place.tail
      | enter name =>
        by_cases hname : name.utf8ByteSize > maxName
        · simp only [hname, if_true]
          rfl
        · simp only [hname, if_false]
          exact ih (name :: place)
    · rfl

/-- Each step is taken in a directory. -/
theorem directory_of_walk_cons {disk : Disk} {place last : Place} {step : Step} {rest : List Step}
    (hwalk : disk.walk place (step :: rest) = .ok last) : disk.item? place = some .directory := by
  rw [walk.eq_def] at hwalk
  rcases hitem : disk.item? place with _ | _ | _
  · rw [hitem] at hwalk
    cases hwalk
  · rfl
  · rw [hitem] at hwalk
    cases hwalk

theorem walk_cons {disk : Disk} {place : Place} (hplace : disk.item? place = some .directory)
    (step : Step) (rest : List Step) :
    disk.walk place (step :: rest) =
      match step with
      | .blank | .stay => disk.walk place rest
      | .up => disk.walk place.tail rest
      | .enter name =>
        if name.utf8ByteSize > maxName then .error .nameTooLong
        else disk.walk (name :: place) rest := by
  have hwalk := walk.eq_def disk place (step :: rest)
  rw [hplace] at hwalk
  exact hwalk

theorem isDirectory_iff {disk : Disk} {path : Path} :
    disk.isDirectory path = true ↔
      ∃ place, disk.find path = .ok place ∧ disk.item? place = some .directory := by
  unfold isDirectory
  cases disk.find path <;> simp

theorem KeepsDirectories.isDirectory {disk later : Disk} (h : KeepsDirectories disk later)
    {path : Path} (hpath : disk.isDirectory path = true) : later.isDirectory path = true := by
  obtain ⟨place, hfind, hitem⟩ := isDirectory_iff.mp hpath
  exact isDirectory_iff.mpr ⟨place, h.find hfind, h.directory place hitem⟩

theorem makeDirectory_of_isDirectory {disk : Disk} {path : Path}
    (h : disk.isDirectory path = true) : disk.makeDirectory path = .error .exists := by
  obtain ⟨place, hfind, hitem⟩ := isDirectory_iff.mp h
  simp [makeDirectory, hfind, bind, Except.bind, hitem]

/-- The last step is taken in a directory. -/
theorem isDirectory_of_find_concat {disk : Disk} {fromRoot : Bool} {before : List Step}
    {last : Step} {place : Place} (hbefore : before ≠ [])
    (h : disk.find ⟨fromRoot, before ++ [last]⟩ = .ok place) :
    disk.isDirectory ⟨fromRoot, before⟩ = true := by
  obtain ⟨hnull, -, hsize, hwalk⟩ := find_eq_ok_iff.mp h
  have hnull' : Path.hasNull ⟨fromRoot, before⟩ = false := by
    simp only [Path.hasNull, List.any_append, Bool.or_eq_false_iff] at hnull ⊢
    exact hnull.1
  have hsize' := Nat.lt_of_le_of_lt (Path.size_le_of_concat fromRoot before last) hsize
  rw [walk_append] at hwalk
  cases hmiddle : disk.walk (if fromRoot then [] else disk.here) before with
  | error e =>
    rw [hmiddle] at hwalk
    cases hwalk
  | ok middle =>
    rw [hmiddle] at hwalk
    have hfind' := find_eq_ok_iff.mpr ⟨hnull', .inr hbefore, hsize', hmiddle⟩
    exact isDirectory_iff.mpr ⟨middle, hfind', directory_of_walk_cons hwalk⟩

theorem isDirectory_of_concat {disk : Disk} {fromRoot : Bool} {before : List Step} {last : Step}
    (hbefore : before ≠ []) (h : disk.isDirectory ⟨fromRoot, before ++ [last]⟩ = true) :
    disk.isDirectory ⟨fromRoot, before⟩ = true := by
  obtain ⟨place, hfind, -⟩ := isDirectory_iff.mp h
  exact isDirectory_of_find_concat hbefore hfind

theorem target_eq_ok_iff {disk : Disk} {path : Path} {place : Place} :
    disk.target path = .ok place ↔
      path.hasNull = false ∧ disk.find path = .ok place ∧ disk.item? place ≠ some .directory := by
  unfold target
  cases path.hasNull with
  | true => simp
  | false =>
    cases disk.find path with
    | error e => simp [bind, Except.bind]
    | ok found =>
      simp only [bind, Except.bind, Except.ok.injEq, true_and, Bool.false_eq_true, if_false]
      constructor
      · intro h
        split at h
        · cases h
        case h_2 hitem =>
          cases h
          exact ⟨rfl, hitem⟩
      · rintro ⟨rfl, hitem⟩
        split
        case h_1 hdirectory => exact absurd hdirectory hitem
        · rfl

/-- What is moved to its target is taken from its place before. -/
theorem commit_eq_ok {disk after : Disk} {staged : Place} {path : Path}
    (h : disk.commit staged path = (.ok (), after)) :
    ∃ place item, disk.target path = .ok place ∧ disk.item? staged = some item ∧
      after = (disk.remove staged).put place item := by
  unfold commit at h
  cases htarget : disk.target path with
  | error e =>
    rw [htarget] at h
    cases h
  | ok place =>
    cases hitem : disk.item? staged with
    | none =>
      rw [htarget, hitem] at h
      cases h
    | some item =>
      rw [htarget, hitem] at h
      cases h
      exact ⟨place, item, rfl, rfl, rfl⟩

/-- Whether a file can be put at a place, to which a path leads, without any more directories. -/
structure Ready (target : Path) (place : Place) (disk : Disk) : Prop where
  noNull : target.hasNull = false
  found : disk.find target = .ok place
  notDirectory : disk.item? place ≠ some .directory
  parent : disk.isDirectory target.directory = true

section PutFile

variable {disk : Disk} {place : Place} (content : Json.Bytes)

theorem item?_putFile (hplace : disk.item? place ≠ some .directory) (other : Place) :
    (disk.put place (.file content)).item? other =
      if other = place then some (.file content) else disk.item? other := by
  apply item?_put
  rintro rfl
  exact hplace rfl

/-- No directory is in the place of a file. -/
theorem directory_putFile_iff (hplace : disk.item? place ≠ some .directory) (other : Place) :
    (disk.put place (.file content)).item? other = some .directory ↔
      disk.item? other = some .directory := by
  rw [item?_putFile content hplace]
  split
  case isTrue heq => simpa [heq] using hplace
  case isFalse => rfl

theorem keepsDirectories_putFile (hplace : disk.item? place ≠ some .directory) :
    KeepsDirectories disk (disk.put place (.file content)) :=
  ⟨rfl, fun other => (directory_putFile_iff content hplace other).mpr⟩

theorem keepsDirectories_of_putFile (hplace : disk.item? place ≠ some .directory) :
    KeepsDirectories (disk.put place (.file content)) disk :=
  ⟨rfl, fun other => (directory_putFile_iff content hplace other).mp⟩

/-- A disk is ready for a file after it was put there. -/
theorem Ready.putFile {target : Path} (h : Ready target place disk) :
    Ready target place (disk.put place (.file content)) where
  noNull := h.noNull
  found := (keepsDirectories_putFile content h.notDirectory).find h.found
  notDirectory := (directory_putFile_iff content h.notDirectory place).not.mpr h.notDirectory
  parent := (keepsDirectories_putFile content h.notDirectory).isDirectory h.parent

end PutFile

/-- Whether operations do on a disk what `Disk` says, or refuse to, also when they read a file or
move one to its target. -/
structure Obeys (files : Files (StateM Disk) Place) : Prop extends Serves files where
  read : ∀ {path disk content next}, outcome (files.read path) disk = (.ok content, next) →
    disk.read path = .ok content ∧ next = disk
  notRead : ∀ {path disk e next}, outcome (files.read path) disk = (.error e, next) → next = disk
  committed : ∀ {place target disk next},
    outcome (files.commit place target) disk = (.ok (), next) →
      disk.commit place target = (.ok (), next)

theorem obeys_files (now : Int) : Obeys (Disk.files now) where
  toServes := serves_files now
  read {path disk content next} h := by
    obtain ⟨hread, rfl⟩ := Prod.mk.inj h
    exact ⟨hread, rfl⟩
  notRead {path disk e next} h := by
    obtain ⟨-, rfl⟩ := Prod.mk.inj h
    rfl
  committed h := h

theorem isDirectory_of_stage {disk : Disk} {directory : Path} {content : Json.Bytes}
    {staged : Place × Disk} (h : disk.stage directory content = .ok staged) :
    disk.isDirectory directory = true := by
  unfold stage at h
  cases hfind : disk.find directory with
  | error e => rw [hfind] at h; cases h
  | ok place =>
    rw [hfind] at h
    rcases hitem : disk.item? place with _ | _ | _
    · simp [bind, Except.bind, hitem] at h
    · exact isDirectory_iff.mpr ⟨place, hfind, hitem⟩
    · simp [bind, Except.bind, hitem] at h

theorem exists_stage_eq_ok {disk : Disk} {directory : Path} (content : Json.Bytes)
    (h : disk.isDirectory directory = true) :
    ∃ staged, disk.item? staged = none ∧
      disk.stage directory content = .ok (staged, disk.put staged (.file content)) := by
  obtain ⟨place, hfind, hitem⟩ := isDirectory_iff.mp h
  refine ⟨disk.freshName place :: place, disk.item?_freshName place, ?_⟩
  simp [stage, hfind, bind, Except.bind, hitem]

/-- A content that is staged beside a target and moved to it is put at the place of the target, for
which the disk was ready. -/
theorem exists_ready_of_moved {made held after : Disk} {target : Path} {staged : Place}
    {content : Json.Bytes} (hstage : made.stage target.directory content = .ok (staged, held))
    (hmoved : held.commit staged target = (.ok (), after)) :
    ∃ place, Ready target place made ∧ after = made.put place (.file content) := by
  obtain ⟨hfree, rfl⟩ := stage_eq_ok hstage
  obtain ⟨place, item, htarget, hitem, rfl⟩ := commit_eq_ok hmoved
  obtain ⟨hnull, hfind, hplace⟩ := target_eq_ok_iff.mp htarget
  have hstaged : made.item? staged ≠ some .directory := by
    rw [hfree]
    nofun
  have hcontent : item = .file content := by
    rw [item?_putFile _ hstaged, if_pos rfl] at hitem
    exact (Option.some.inj hitem).symm
  -- The staged file is no directory, so the target is found as if it were not there.
  have hready : Ready target place made := by
    refine ⟨hnull, (keepsDirectories_of_putFile _ hstaged).find hfind, ?_,
      isDirectory_of_stage hstage⟩
    intro hdirectory
    exact hplace ((directory_putFile_iff _ hstaged place).mpr hdirectory)
  exact ⟨place, hready, by rw [hcontent, remove_put hfree]⟩

end Disk

namespace Files

open Disk

variable {files : Files (StateM Disk) Place} {target : Path} {disk after : Disk}

/-- How a target refuses a content: its directories cannot be made, nothing can be staged in the last
of them, or what is staged cannot be moved to it. -/
inductive Refuses (files : Files (StateM Disk) Place) (target : Path) (content : Json.Bytes)
    (disk : Disk) (e : FileError) : Prop where
  | unmade {after : Disk}
      (directories : outcome (files.makeDirectories target.directory) disk = (.error e, after))
  | unstaged {made after : Disk}
      (directories : outcome (files.makeDirectories target.directory) disk = (.ok (), made))
      (staging : outcome (files.stage target.directory content) made = (.error e, after))
  | unmoved {made held after : Disk} {staged : Place}
      (directories : outcome (files.makeDirectories target.directory) disk = (.ok (), made))
      (staging : outcome (files.stage target.directory content) made = (.ok staged, held))
      (moving : outcome (files.commit staged target) held = (.error e, after))

/-- How a target takes a content: once its directories have been made, the disk is ready for a file
at some place, and there the content is put. -/
inductive Takes (files : Files (StateM Disk) Place) (target : Path) (content : Json.Bytes)
    (disk after : Disk) : Prop where
  | put {made held : Disk} {staged place : Place}
      (directories : outcome (files.makeDirectories target.directory) disk = (.ok (), made))
      (ready : Ready target place made)
      (staging : outcome (files.stage target.directory content) made = (.ok staged, held))
      (moving : outcome (files.commit staged target) held = (.ok (), after))
      (result : after = made.put place (.file content))

theorem refuses_iff {text : String} {e : FileError} :
    files.Refuses target (utf8 text) disk e ↔
      ∃ after, outcome (files.replaceFile target text) disk = (.error e, after) := by
  constructor
  · rintro (⟨directories⟩ | ⟨directories, staging⟩ | ⟨directories, staging, moving⟩)
    · exact ⟨_, outcome_bind_of_error directories⟩
    · exact ⟨_, (outcome_bind_of_ok directories).trans (outcome_bind_of_error staging)⟩
    · exact ⟨_, (outcome_bind_of_ok directories).trans ((outcome_bind_of_ok staging).trans moving)⟩
  · rintro ⟨after, h⟩
    rcases outcome_bind_eq_error h with directories | ⟨_, made, directories, hlater⟩
    · exact .unmade directories
    rcases outcome_bind_eq_error hlater with staging | ⟨staged, held, staging, moving⟩
    · exact .unstaged directories staging
    · exact .unmoved directories staging moving

/-- A file is replaced only after its directories have been made, and then it stands at its
place. -/
theorem takes_iff (hfiles : Obeys files) {text : String} :
    files.Takes target (utf8 text) disk after ↔
      outcome (files.replaceFile target text) disk = (.ok (), after) := by
  refine ⟨fun ⟨directories, _, staging, moving, _⟩ =>
    (outcome_bind_of_ok directories).trans ((outcome_bind_of_ok staging).trans moving), fun h => ?_⟩
  obtain ⟨_, made, directories, hlater⟩ := outcome_bind_eq_ok h
  obtain ⟨staged, held, staging, moving⟩ := outcome_bind_eq_ok hlater
  obtain ⟨place, ready, result⟩ :=
    exists_ready_of_moved (hfiles.staged staging) (hfiles.committed moving)
  exact .put directories ready staging moving result

theorem replaceFile_eq_ok (hfiles : Obeys files) {text : String}
    (h : outcome (files.replaceFile target text) disk = (.ok (), after)) :
    ∃ made place, outcome (files.makeDirectories target.directory) disk = (.ok (), made) ∧
      Ready target place made ∧ after = made.put place (.file (utf8 text)) := by
  obtain ⟨directories, ready, -, -, result⟩ := (takes_iff hfiles).mpr h
  exact ⟨_, _, directories, ready, result⟩

theorem unlessDirectory_of_isDirectory (now : Int) {path : Path}
    (h : disk.isDirectory path = true) (e : FileError) :
    outcome ((Disk.files now).unlessDirectory path e) disk = (.ok (), disk) := by
  have hanswer : ((Disk.files now).isDirectory path).run disk = (true, disk) := by
    rw [← h]
    rfl
  rw [unlessDirectory, outcome_bind, outcome_lift, hanswer]
  rfl

/-- Where the directories are, none is made. -/
theorem makeDirectoriesAlong_of_isDirectory (now : Int) {fromRoot : Bool} {steps : List Step}
    (h : steps = [] ∨ disk.isDirectory ⟨fromRoot, steps.reverse⟩ = true) :
    outcome ((Disk.files now).makeDirectoriesAlong fromRoot steps) disk = (.ok (), disk) := by
  induction steps with
  | nil => rfl
  | cons last before ih =>
    have hlast : disk.isDirectory ⟨fromRoot, (last :: before).reverse⟩ = true :=
      h.resolve_left (List.cons_ne_nil _ _)
    rw [makeDirectoriesAlong]
    by_cases hidle : last.isIdle = true
    · rw [if_pos hidle]
      apply ih
      by_cases hbefore : before = []
      · exact .inl hbefore
      · rw [List.reverse_cons] at hlast
        exact .inr (isDirectory_of_concat (by simpa using hbefore) hlast)
    · rw [if_neg hidle, outcome_tryCatch, outcome_makeDirectory, makeDirectory_of_isDirectory hlast]
      exact unlessDirectory_of_isDirectory now hlast .exists

/-- When the directories of a file have been made and the disk is ready, the file is put at its
place and that is all. -/
theorem replaceFile_of_made (now : Int) {made : Disk} {place : Place}
    (hmade : outcome ((Disk.files now).makeDirectories target.directory) disk = (.ok (), made))
    (h : Ready target place made) (text : String) :
    outcome ((Disk.files now).replaceFile target text) disk =
      (.ok (), made.put place (.file (utf8 text))) := by
  obtain ⟨staged, hfree, hstage⟩ := exists_stage_eq_ok (utf8 text) h.parent
  have hstaged : made.item? staged ≠ some .directory := by
    rw [hfree]
    nofun
  have htarget : (made.put staged (.file (utf8 text))).target target = .ok place :=
    target_eq_ok_iff.mpr ⟨h.noNull, (keepsDirectories_putFile _ hstaged).find h.found,
      (directory_putFile_iff _ hstaged place).not.mpr h.notDirectory⟩
  have hcommit : (made.put staged (.file (utf8 text))).commit staged target =
      (.ok (), made.put place (.file (utf8 text))) := by
    rw [Disk.commit, htarget, item?_putFile _ hstaged, if_pos rfl, remove_put hfree]
  have hstaging : outcome ((Disk.files now).stage target.directory (utf8 text)) made =
      (.ok staged, made.put staged (.file (utf8 text))) := by
    rw [outcome_stage, hstage]
  exact (outcome_bind_of_ok hmade).trans ((outcome_bind_of_ok hstaging).trans hcommit)

theorem replaceFile_of_ready (now : Int) {place : Place} (h : Ready target place disk)
    (text : String) :
    outcome ((Disk.files now).replaceFile target text) disk =
      (.ok (), disk.put place (.file (utf8 text))) := by
  apply replaceFile_of_made now _ h
  apply makeDirectoriesAlong_of_isDirectory
  rw [List.reverse_reverse]
  exact .inr h.parent

/-- Whether a file can be written does not depend on what is written. -/
theorem isOk_replaceFile_iff (now : Int) (text : String) :
    (outcome ((Disk.files now).replaceFile target text) disk).1.isOk = true ↔
      ∃ made place,
        outcome ((Disk.files now).makeDirectories target.directory) disk = (.ok (), made) ∧
          Ready target place made := by
  constructor
  · intro h
    rcases hwrite : outcome ((Disk.files now).replaceFile target text) disk with ⟨_ | _, after⟩
    · rw [hwrite] at h
      cases h
    · obtain ⟨made, place, hmade, hready, -⟩ := replaceFile_eq_ok (obeys_files now) hwrite
      exact ⟨made, place, hmade, hready⟩
  · rintro ⟨made, place, hmade, hready⟩
    rw [replaceFile_of_made now hmade hready text]
    rfl

end Files

end GettextTemplate
