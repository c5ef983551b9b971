import GettextTemplate.Disk
import Mathlib.Data.List.Perm.Subperm

/-!
How the operations change a disk. Directories that are made along a path let the disk grow: all that
was there stays, and each new place is a directory that the path leads through (`GrowsAlong`). A
staged file stands at a place that was free, so removing it brings the disk back (`remove_put`).
-/

namespace GettextTemplate

/-- The first steps of a path. -/
def Path.upTo (path : Path) (count : Nat) : Path := { path with steps := path.steps.take count }

namespace Disk

theorem lookup_filter_ne {place other : Place} (hne : other ≠ place) (items : List (Place × Item)) :
    (items.filter fun entry => entry.1 ≠ place).lookup other = items.lookup other := by
  induction items with
  | nil => rfl
  | cons entry rest ih =>
    by_cases hentry : entry.1 = place
    · have hother : (other == entry.1) = false := by simpa [hentry] using hne
      rw [List.filter_cons_of_neg (by simpa using hentry), List.lookup_cons, hother]
      exact ih
    · rw [List.filter_cons_of_pos (by simpa using hentry), List.lookup_cons, List.lookup_cons, ih]

theorem item?_put (disk : Disk) {place : Place} (hplace : place ≠ []) (item : Item) (other : Place) :
    (disk.put place item).item? other = if other = place then some item else disk.item? other := by
  by_cases hother : other = place
  · rw [if_pos hother, item?, if_neg (hother ▸ hplace), put, List.lookup_cons, hother]
    simp
  · have hlookup : (disk.put place item).items.lookup other = disk.items.lookup other := by
      have hbeq : (other == place) = false := by simpa using hother
      rw [put, List.lookup_cons, hbeq]
      exact lookup_filter_ne hother disk.items
    rw [if_neg hother, item?, item?, hlookup]

theorem ne_nil_of_item?_eq_none {disk : Disk} {place : Place} (h : disk.item? place = none) :
    place ≠ [] := by
  rintro rfl
  simp [item?] at h

/-- A place other than the root is free exactly if nothing is recorded for it. -/
theorem item?_eq_none_iff {disk : Disk} {place : Place} (hplace : place ≠ []) :
    disk.item? place = none ↔ place ∉ disk.items.map Prod.fst := by
  rw [item?, if_neg hplace, List.lookup_eq_none_iff]
  constructor
  · intro h hmem
    obtain ⟨entry, hentry, rfl⟩ := List.mem_map.mp hmem
    simpa using h entry hentry
  · intro hmem entry hentry
    have hne : place ≠ entry.1 := fun heq => hmem (heq ▸ List.mem_map_of_mem hentry)
    simpa using hne

/-- What is put at a free place can be taken back. -/
theorem remove_put {disk : Disk} {place : Place} (hfree : disk.item? place = none) (item : Item) :
    (disk.put place item).remove place = disk := by
  have hnew := (item?_eq_none_iff (ne_nil_of_item?_eq_none hfree)).mp hfree
  have hitems : (disk.items.filter fun entry => entry.1 ≠ place) = disk.items := by
    rw [List.filter_eq_self]
    intro entry hentry
    have hne : entry.1 ≠ place := by
      rintro rfl
      exact hnew (List.mem_map_of_mem hentry)
    simpa using hne
  have hput : (disk.put place item).items.filter (fun entry => entry.1 ≠ place) = disk.items := by
    rw [put, List.filter_cons_of_neg (by simp), hitems, hitems]
  unfold remove
  rw [hput]
  rfl

theorem stagedName_inj {a b : Nat} (h : stagedName a = stagedName b) : a = b := by
  have hlists := String.ofList_inj.mp h
  have hlengths := congrArg List.length hlists
  simpa using hlengths

/-- Not all of the names that are tried can be taken. -/
theorem item?_freshName (disk : Disk) (place : Place) :
    disk.item? (disk.freshName place :: place) = none := by
  let names := (List.range (disk.items.length + 1)).map fun n => stagedName n :: place
  have hnodup : names.Nodup := by
    apply List.Pairwise.map _ _ List.nodup_range
    intro a b hne heq
    exact hne (stagedName_inj (List.cons.inj heq).1)
  have hsomeFree : ∃ n ∈ List.range (disk.items.length + 1),
      (disk.item? (stagedName n :: place)).isNone = true := by
    apply Decidable.byContradiction
    intro hnone
    have hsubset : names ⊆ disk.items.map Prod.fst := by
      intro name hname
      obtain ⟨n, hn, rfl⟩ := List.mem_map.mp hname
      apply Decidable.byContradiction
      intro hmem
      have hfree := (item?_eq_none_iff (List.cons_ne_nil _ _)).mpr hmem
      exact hnone ⟨n, hn, by rw [hfree]; rfl⟩
    have hlength := (hnodup.subperm hsubset).length_le
    simp only [names, List.length_map, List.length_range] at hlength
    omega
  obtain ⟨n, hn⟩ := Option.isSome_iff_exists.mp (List.find?_isSome.mpr hsomeFree)
  have hfree := List.find?_some hn
  rw [freshName, hn]
  exact Option.isNone_iff_eq_none.mp hfree

/-- Whether all that a disk holds is there later and paths begin at the same place. -/
structure Grows (disk later : Disk) : Prop where
  here : later.here = disk.here
  kept : ∀ place item, disk.item? place = some item → later.item? place = some item

/-- Whether each directory of a disk is one later, and paths begin at the same place. -/
structure KeepsDirectories (disk later : Disk) : Prop where
  here : later.here = disk.here
  directory : ∀ place, disk.item? place = some .directory → later.item? place = some .directory

/-- The way of a path leads through directories only, so it takes no more than these. -/
theorem KeepsDirectories.walk {disk later : Disk} (h : KeepsDirectories disk later)
    {steps : List Step} {place last : Place} (hwalk : disk.walk place steps = .ok last) :
    later.walk place steps = .ok last := by
  induction steps generalizing place with
  | nil => exact hwalk
  | cons step rest ih =>
    rw [walk.eq_def] at hwalk ⊢
    match hitem : disk.item? place with
    | none => rw [hitem] at hwalk; cases hwalk
    | some (.file _) => rw [hitem] at hwalk; cases hwalk
    | some .directory =>
      rw [hitem] at hwalk
      rw [h.directory place hitem]
      cases step with
      | blank => exact ih hwalk
      | stay => exact ih hwalk
      | up => exact ih hwalk
      | enter name =>
        by_cases hname : name.utf8ByteSize > maxName
        · simp only [hname, if_true] at hwalk
          cases hwalk
        · simp only [hname, if_false] at hwalk ⊢
          exact ih hwalk

/-- A path leads somewhere if no name on it is impossible, it has a step unless it begins at the
root, it is not too long, and all that it goes through is there. -/
theorem find_eq_ok_iff {disk : Disk} {path : Path} {place : Place} :
    disk.find path = .ok place ↔
      path.hasNull = false ∧ (path.fromRoot = true ∨ path.steps ≠ []) ∧ path.size < maxPath ∧
        disk.walk (if path.fromRoot then [] else disk.here) path.steps = .ok place := by
  unfold find
  cases hnull : path.hasNull with
  | true => simp
  | false =>
    cases hroot : path.fromRoot <;> cases hsteps : path.steps <;>
      by_cases hsize : path.size ≥ maxPath <;> simp [hsize] <;> omega

theorem KeepsDirectories.find {disk later : Disk} (h : KeepsDirectories disk later) {path : Path}
    {place : Place} (hfind : disk.find path = .ok place) : later.find path = .ok place := by
  rw [find_eq_ok_iff] at hfind ⊢
  rw [h.here]
  obtain ⟨hnull, hsteps, hsize, hwalk⟩ := hfind
  exact ⟨hnull, hsteps, hsize, h.walk hwalk⟩

theorem Grows.keepsDirectories {disk later : Disk} (h : Grows disk later) :
    KeepsDirectories disk later :=
  ⟨h.here, fun place => h.kept place .directory⟩

/-- Whether a disk differs from an earlier one only in directories that are new and that a path leads
through. -/
structure GrowsAlong (path : Path) (disk later : Disk) : Prop where
  here : later.here = disk.here
  changed : ∀ place, later.item? place ≠ disk.item? place →
    disk.item? place = none ∧ later.item? place = some .directory ∧
      ∃ count, later.find (path.upTo count) = .ok place

namespace GrowsAlong

variable {path : Path} {disk later : Disk}

theorem refl : GrowsAlong path disk disk := ⟨rfl, fun _ h => absurd rfl h⟩

theorem grows (h : GrowsAlong path disk later) : Grows disk later := by
  refine ⟨h.here, ?_⟩
  intro place item hitem
  apply Decidable.byContradiction
  intro hne
  have hnone := (h.changed place fun heq => hne (heq.trans hitem)).1
  rw [hnone] at hitem
  cases hitem

theorem trans {last : Disk} (h : GrowsAlong path disk later) (h' : GrowsAlong path later last) :
    GrowsAlong path disk last := by
  refine ⟨h'.here.trans h.here, ?_⟩
  intro place hne
  by_cases hlater : later.item? place = disk.item? place
  · rw [← hlater]
    rw [← hlater] at hne
    exact h'.changed place hne
  · obtain ⟨hnone, hdirectory, count, hfind⟩ := h.changed place hlater
    exact ⟨hnone, h'.grows.kept place _ hdirectory, count, h'.grows.keepsDirectories.find hfind⟩

/-- To grow along the beginning of a path is to grow along the path. -/
theorem of_upTo (count : Nat) (h : GrowsAlong (path.upTo count) disk later) :
    GrowsAlong path disk later := by
  refine ⟨h.here, ?_⟩
  intro place hne
  obtain ⟨hnone, hdirectory, shorter, hfind⟩ := h.changed place hne
  refine ⟨hnone, hdirectory, min shorter count, ?_⟩
  rw [← hfind, Path.upTo, Path.upTo, Path.upTo, List.take_take]

/-- A disk that grows has the files that it had. -/
theorem item?_eq_file_iff (h : GrowsAlong path disk later) (place : Place) (content : Json.Bytes) :
    later.item? place = some (.file content) ↔ disk.item? place = some (.file content) := by
  constructor
  · intro hlater
    apply Decidable.byContradiction
    intro hne
    have hdirectory := (h.changed place fun heq => hne (heq ▸ hlater)).2.1
    rw [hlater] at hdirectory
    cases hdirectory
  · exact h.grows.kept place _

end GrowsAlong

/-- A directory is made where nothing was. -/
theorem makeDirectory_eq_ok {disk next : Disk} {path : Path} (h : disk.makeDirectory path = .ok next) :
    ∃ place, disk.find path = .ok place ∧ disk.item? place = none ∧
      next = disk.put place .directory := by
  unfold makeDirectory at h
  cases hfind : disk.find path with
  | error e => rw [hfind] at h; cases h
  | ok place =>
    rw [hfind] at h
    cases hitem : disk.item? place with
    | some item => simp [bind, Except.bind, hitem] at h
    | none =>
      simp only [bind, Except.bind, hitem] at h
      cases h
      exact ⟨place, rfl, hitem, rfl⟩

theorem growsAlong_makeDirectory {disk next : Disk} {path : Path}
    (h : disk.makeDirectory path = .ok next) : GrowsAlong path disk next := by
  obtain ⟨place, hfind, hfree, rfl⟩ := makeDirectory_eq_ok h
  have hplace := ne_nil_of_item?_eq_none hfree
  have hgrows : Grows disk (disk.put place .directory) := by
    refine ⟨rfl, ?_⟩
    intro other item hitem
    have hne : other ≠ place := by
      rintro rfl
      rw [hfree] at hitem
      cases hitem
    rw [item?_put disk hplace, if_neg hne, hitem]
  refine ⟨rfl, ?_⟩
  intro other hchanged
  rw [item?_put disk hplace] at hchanged ⊢
  by_cases hother : other = place
  · subst hother
    refine ⟨hfree, if_pos rfl, path.steps.length, ?_⟩
    rw [Path.upTo, List.take_length]
    exact hgrows.keepsDirectories.find hfind
  · rw [if_neg hother] at hchanged
    exact absurd rfl hchanged

/-- A staged file is put at a place that was free. -/
theorem stage_eq_ok {disk next : Disk} {directory : Path} {content : Json.Bytes} {staged : Place}
    (h : disk.stage directory content = .ok (staged, next)) :
    disk.item? staged = none ∧ next = disk.put staged (.file content) := by
  unfold stage at h
  cases hfind : disk.find directory with
  | error e => rw [hfind] at h; cases h
  | ok place =>
    rw [hfind] at h
    match hitem : disk.item? place with
    | none => simp [bind, Except.bind, hitem] at h
    | some (.file _) => simp [bind, Except.bind, hitem] at h
    | some .directory =>
      simp only [bind, Except.bind, hitem] at h
      cases h
      exact ⟨disk.item?_freshName place, rfl⟩

end Disk

end GettextTemplate
