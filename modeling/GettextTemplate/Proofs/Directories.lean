import GettextTemplate.Proofs.Replacements

/-!
Directories that are made again. One attempt leaves a disk on which further attempts change nothing
and succeed exactly if it did (`makeDirectories_again`), so the first of several runs that share a
directory makes it for all of them. What fails a second time may do so for another reason, because
the first attempt can leave directories on the way.
-/

namespace GettextTemplate

namespace Disk

/-- Whether the directory at the end of some steps, given last first, is there. Idle steps at the
end do not count, and without any others nothing has to be made. -/
def IsMade (disk : Disk) (fromRoot : Bool) : List Step → Prop
  | [] => True
  | last :: before =>
    if last.isIdle then disk.IsMade fromRoot before
    else disk.isDirectory ⟨fromRoot, (last :: before).reverse⟩ = true

theorem isMade_of_isDirectory {disk : Disk} {fromRoot : Bool} {steps : List Step}
    (h : steps = [] ∨ disk.isDirectory ⟨fromRoot, steps.reverse⟩ = true) :
    disk.IsMade fromRoot steps := by
  induction steps with
  | nil => trivial
  | cons last before ih =>
    have hlast := h.resolve_left (List.cons_ne_nil _ _)
    rw [IsMade]
    split
    · apply ih
      by_cases hbefore : before = []
      · exact .inl hbefore
      · rw [List.reverse_cons] at hlast
        exact .inr (isDirectory_of_concat (by simpa using hbefore) hlast)
    · exact hlast

/-- Where something can be looked for in a directory, the directory is there. -/
theorem isMade_of_find {disk : Disk} {fromRoot : Bool} {last : Step} {before : List Step}
    {place : Place} (h : disk.find ⟨fromRoot, (last :: before).reverse⟩ = .ok place) :
    disk.IsMade fromRoot before := by
  apply isMade_of_isDirectory
  by_cases hbefore : before = []
  · exact .inl hbefore
  · rw [List.reverse_cons] at h
    exact .inr (isDirectory_of_find_concat (by simpa using hbefore) h)

theorem IsMade.keep {disk later : Disk} (hkeeps : KeepsDirectories disk later) {fromRoot : Bool}
    {steps : List Step} (h : disk.IsMade fromRoot steps) : later.IsMade fromRoot steps := by
  induction steps with
  | nil => trivial
  | cons last before ih =>
    rw [IsMade] at h ⊢
    split
    · rw [if_pos ‹_›] at h
      exact ih h
    · rw [if_neg ‹_›] at h
      exact hkeeps.isDirectory h

/-- What becomes of a directory that cannot be made: nothing, or it is there. -/
def unlessMade (disk : Disk) (path : Path) (e : FileError) : Except FileError Unit :=
  if disk.isDirectory path then .ok () else .error e

end Disk

namespace Files

open Disk

variable {fromRoot : Bool} {disk made : Disk}

theorem outcome_unlessDirectory_files (now : Int) (path : Path) (e : FileError) (disk : Disk) :
    outcome ((Disk.files now).unlessDirectory path e) disk = (disk.unlessMade path e, disk) := by
  have hanswer : ((Disk.files now).isDirectory path).run disk = (disk.isDirectory path, disk) :=
    rfl
  rw [unlessDirectory, outcome_bind, outcome_lift, hanswer, unlessMade]
  cases disk.isDirectory path <;> rfl

/-- How the directory at the end of some steps is made, with the disk told at each point. -/
theorem outcome_makeDirectoriesAlong_cons (now : Int) {last : Step} (hidle : last.isIdle = false)
    (before : List Step) (disk : Disk) :
    outcome ((Disk.files now).makeDirectoriesAlong fromRoot (last :: before)) disk =
      let path : Path := ⟨fromRoot, (last :: before).reverse⟩
      match disk.makeDirectory path with
      | .ok next => (.ok (), next)
      | .error .notFound =>
        match outcome ((Disk.files now).makeDirectoriesAlong fromRoot before) disk with
        | (.error e, made) => (.error e, made)
        | (.ok (), made) =>
          match made.makeDirectory path with
          | .ok next => (.ok (), next)
          | .error e => (made.unlessMade path e, made)
      | .error e => (disk.unlessMade path e, disk) := by
  rw [makeDirectoriesAlong, if_neg (by simp [hidle]), outcome_tryCatch, outcome_makeDirectory]
  dsimp only
  cases hmake : disk.makeDirectory ⟨fromRoot, (last :: before).reverse⟩ with
  | ok next => rfl
  | error e =>
    cases e with
    | notFound =>
      dsimp only
      rw [outcome_bind]
      rcases outcome ((Disk.files now).makeDirectoriesAlong fromRoot before) disk
        with ⟨e | _, made⟩
      · rfl
      · dsimp only
        rw [outcome_tryCatch, outcome_makeDirectory]
        cases made.makeDirectory ⟨fromRoot, (last :: before).reverse⟩ with
        | ok next => rfl
        | error e => exact outcome_unlessDirectory_files now _ e made
    | _ => exact outcome_unlessDirectory_files now _ _ disk

theorem makeDirectoriesAlong_of_isMade (now : Int) {steps : List Step}
    (h : disk.IsMade fromRoot steps) :
    outcome ((Disk.files now).makeDirectoriesAlong fromRoot steps) disk = (.ok (), disk) := by
  induction steps with
  | nil => rfl
  | cons last before ih =>
    rw [IsMade] at h
    by_cases hidle : last.isIdle = true
    · rw [if_pos hidle] at h
      rw [makeDirectoriesAlong, if_pos hidle]
      exact ih h
    · rw [if_neg hidle] at h
      exact makeDirectoriesAlong_of_isDirectory now (.inr h)

theorem unlessMade_eq_ok {path : Path} {e : FileError} :
    disk.unlessMade path e = .ok () ↔ disk.isDirectory path = true := by
  rw [unlessMade]
  split <;> simp [*]

theorem unlessMade_eq_error {path : Path} {e e' : FileError} :
    disk.unlessMade path e = .error e' ↔ disk.isDirectory path = false ∧ e = e' := by
  rw [unlessMade]
  split <;> simp [*]

theorem isDirectory_of_makeDirectory {path : Path} (h : disk.makeDirectory path = .ok made) :
    made.isDirectory path = true := by
  obtain ⟨place, hfind, hfree, rfl⟩ := makeDirectory_eq_ok h
  have hgrows := Disk.growsAlong_makeDirectory h
  refine isDirectory_iff.mpr ⟨place, hgrows.grows.keepsDirectories.find hfind, ?_⟩
  rw [item?_put disk (ne_nil_of_item?_eq_none hfree), if_pos rfl]

/-- What an attempt that succeeds has made is there. -/
theorem isMade_of_makeDirectoriesAlong (now : Int) {steps : List Step}
    (h : outcome ((Disk.files now).makeDirectoriesAlong fromRoot steps) disk = (.ok (), made)) :
    made.IsMade fromRoot steps := by
  induction steps with
  | nil => trivial
  | cons last before ih =>
    rw [IsMade]
    by_cases hidle : last.isIdle = true
    · rw [makeDirectoriesAlong, if_pos hidle] at h
      rw [if_pos hidle]
      exact ih h
    · rw [if_neg hidle]
      rw [outcome_makeDirectoriesAlong_cons now (by simpa using hidle)] at h
      dsimp only at h
      split at h
      · next hmake =>
        cases h
        exact isDirectory_of_makeDirectory hmake
      · split at h
        · cases h
        · split at h
          · next hmake =>
            cases h
            exact isDirectory_of_makeDirectory hmake
          · obtain ⟨hunless, rfl⟩ := Prod.mk.inj h
            exact unlessMade_eq_ok.mp hunless
      · obtain ⟨hunless, rfl⟩ := Prod.mk.inj h
        exact unlessMade_eq_ok.mp hunless

/-- A directory cannot be made where it cannot be made at the first try, nor with the directories
before it there or past making. -/
theorem makeDirectoriesAlong_cons_fails (now : Int) {last : Step} (hidle : last.isIdle = false)
    {before : List Step} {e : FileError}
    (hmissing : disk.isDirectory ⟨fromRoot, (last :: before).reverse⟩ = false)
    (hmake : disk.makeDirectory ⟨fromRoot, (last :: before).reverse⟩ = .error e)
    (hbefore : e = .notFound → disk.IsMade fromRoot before ∨
      ∃ e', outcome ((Disk.files now).makeDirectoriesAlong fromRoot before) disk =
        (.error e', disk)) :
    ∃ e', outcome ((Disk.files now).makeDirectoriesAlong fromRoot (last :: before)) disk =
      (.error e', disk) := by
  have hunless (e : FileError) :
      disk.unlessMade ⟨fromRoot, (last :: before).reverse⟩ e = .error e := by
    rw [unlessMade, hmissing]
    rfl
  rw [outcome_makeDirectoriesAlong_cons now hidle]
  dsimp only
  rw [hmake]
  cases e with
  | notFound =>
    rcases hbefore rfl with hmade | ⟨e', hfails⟩
    · rw [makeDirectoriesAlong_of_isMade now hmade]
      dsimp only
      rw [hmake]
      exact ⟨_, congrArg (·, disk) (hunless _)⟩
    · rw [hfails]
      exact ⟨e', rfl⟩
  | _ => exact ⟨_, congrArg (·, disk) (hunless _)⟩

/-- What cannot be made cannot be made later either, and a second attempt leaves no more behind than
the first did. -/
theorem makeDirectoriesAlong_fails_again (now : Int) {steps : List Step} {e : FileError}
    (h : outcome ((Disk.files now).makeDirectoriesAlong fromRoot steps) disk = (.error e, made)) :
    ∃ e', outcome ((Disk.files now).makeDirectoriesAlong fromRoot steps) made =
      (.error e', made) := by
  induction steps generalizing e made with
  | nil => cases h
  | cons last before ih =>
    by_cases hidle : last.isIdle = true
    · rw [makeDirectoriesAlong, if_pos hidle] at h ⊢
      exact ih h
    · have hidle : last.isIdle = false := by simpa using hidle
      rw [outcome_makeDirectoriesAlong_cons now hidle] at h
      dsimp only at h
      split at h
      case h_1 => cases h
      case h_2 hmake =>
        rcases hbefore : outcome ((Disk.files now).makeDirectoriesAlong fromRoot before) disk
          with ⟨e₁ | _, made₁⟩
        · -- The directories before the last one fail again, so it cannot be looked for in them.
          rw [hbefore] at h
          cases h
          obtain ⟨e', hagain⟩ := ih hbefore
          cases hfind : made.find ⟨fromRoot, (last :: before).reverse⟩ with
          | ok place =>
            rw [makeDirectoriesAlong_of_isMade now (isMade_of_find hfind)] at hagain
            cases hagain
          | error e₂ =>
            have hmissing : made.isDirectory ⟨fromRoot, (last :: before).reverse⟩ = false := by
              rw [Disk.isDirectory, hfind]
            have hmake : made.makeDirectory ⟨fromRoot, (last :: before).reverse⟩ = .error e₂ := by
              rw [Disk.makeDirectory, hfind]
              rfl
            exact makeDirectoriesAlong_cons_fails now hidle hmissing hmake fun _ =>
              .inr ⟨e', hagain⟩
        · rw [hbefore] at h
          dsimp only at h
          split at h
          · cases h
          · next hmake =>
            obtain ⟨hunless, rfl⟩ := Prod.mk.inj h
            exact makeDirectoriesAlong_cons_fails now hidle (unlessMade_eq_error.mp hunless).1 hmake
              fun _ => .inl (isMade_of_makeDirectoriesAlong now hbefore)
      case h_3 hother hmake =>
        obtain ⟨hunless, rfl⟩ := Prod.mk.inj h
        exact makeDirectoriesAlong_cons_fails now hidle (unlessMade_eq_error.mp hunless).1 hmake
          fun hnotFound => absurd hnotFound hother

/-- Directories are made in the same way at any time. -/
theorem outcome_makeDirectories_now (now later : Int) (path : Path) (disk : Disk) :
    outcome ((Disk.files now).makeDirectories path) disk =
      outcome ((Disk.files later).makeDirectories path) disk := by
  have halong (steps : List Step) :
      outcome ((Disk.files now).makeDirectoriesAlong path.fromRoot steps) disk =
        outcome ((Disk.files later).makeDirectoriesAlong path.fromRoot steps) disk := by
    induction steps with
    | nil => rfl
    | cons last before ih =>
      by_cases hidle : last.isIdle = true
      · rw [makeDirectoriesAlong, makeDirectoriesAlong, if_pos hidle, if_pos hidle]
        exact ih
      · have hidle : last.isIdle = false := by simpa using hidle
        rw [outcome_makeDirectoriesAlong_cons now hidle,
          outcome_makeDirectoriesAlong_cons later hidle, ih]
  exact halong path.steps.reverse

/-- A second attempt changes nothing and succeeds exactly if the first did. -/
theorem makeDirectories_again (now : Int) (path : Path) (disk : Disk) :
    ∃ result, outcome ((Disk.files now).makeDirectories path)
        (outcome ((Disk.files now).makeDirectories path) disk).2 =
          (result, (outcome ((Disk.files now).makeDirectories path) disk).2) ∧
      result.isOk = (outcome ((Disk.files now).makeDirectories path) disk).1.isOk := by
  rcases hfirst : outcome ((Disk.files now).makeDirectories path) disk with ⟨e | _, made⟩
  · obtain ⟨e', hagain⟩ := makeDirectoriesAlong_fails_again now hfirst
    exact ⟨.error e', hagain, rfl⟩
  · exact ⟨.ok (), makeDirectoriesAlong_of_isMade now (isMade_of_makeDirectoriesAlong now hfirst),
      rfl⟩

/-- Directories that have been made are there as long as no directory goes. -/
theorem makeDirectories_of_keepsDirectories (now later : Int) {path : Path} {after : Disk}
    (hmade : outcome ((Disk.files now).makeDirectories path) disk = (.ok (), made))
    (hkeeps : KeepsDirectories made after) :
    outcome ((Disk.files later).makeDirectories path) after = (.ok (), after) :=
  makeDirectoriesAlong_of_isMade later ((isMade_of_makeDirectoriesAlong now hmade).keep hkeeps)

end Files

end GettextTemplate
