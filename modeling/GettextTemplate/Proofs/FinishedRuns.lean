import GettextTemplate.Proofs.Collections
import GettextTemplate.Proofs.Replacements

/-!
What a run leaves on a disk when it succeeds: its template at the target, directories on the way to
it that were not there, and all else as it was. A second run finds the disk ready. Without a header
its template does not depend on the time, so it changes nothing (`publish_puts_the_template`).
-/

namespace GettextTemplate

namespace Template

/-- Only the header tells the time. -/
theorem compose_of_noHeader {format : Format} (h : format.hasHeader = false) (catalog : Catalog)
    (created later : Int) : compose format catalog created = compose format catalog later := by
  simp only [compose, h, Bool.false_eq_true, if_false]

end Template

namespace Disk

theorem read_eq_ok {disk : Disk} {path : Path} {place : Place} {content : Json.Bytes}
    (hfind : disk.find path = .ok place) (hitem : disk.item? place = some (.file content)) :
    disk.read path = .ok content := by
  unfold read
  rw [hfind]
  simp only [bind, Except.bind, hitem]

/-- Whether a disk differs from an earlier one in a file at a place, in directories that are new and
that a path leads through, and in nothing else. -/
structure Frames (path : Path) (place : Place) (disk after : Disk) : Prop where
  here : after.here = disk.here
  files : ∀ other ≠ place, ∀ content,
    after.item? other = some (.file content) ↔ disk.item? other = some (.file content)
  changed : ∀ other ≠ place, after.item? other ≠ disk.item? other →
    disk.item? other = none ∧ after.item? other = some .directory ∧
      ∃ count, after.find (path.upTo count) = .ok other

theorem GrowsAlong.frames_put {path : Path} {place : Place} {disk made : Disk}
    (h : GrowsAlong path disk made) (hplace : made.item? place ≠ some .directory)
    (content : Json.Bytes) : Frames path place disk (made.put place (.file content)) := by
  have hother {other : Place} (hne : other ≠ place) :
      (made.put place (.file content)).item? other = made.item? other := by
    rw [item?_putFile content hplace, if_neg hne]
  refine ⟨h.here, fun other hne found => ?_, fun other hne hchanged => ?_⟩
  · rw [hother hne]
    exact h.item?_eq_file_iff other found
  · rw [hother hne] at hchanged ⊢
    obtain ⟨hnone, hdirectory, count, hfind⟩ := h.changed other hchanged
    exact ⟨hnone, hdirectory, count, (keepsDirectories_putFile content hplace).find hfind⟩

end Disk

namespace Destination

open Disk

variable {files : Files (StateM Disk) Place} {destination : Destination} {source : Source}
  {package : String} {disk after : Disk} {report : Report}

theorem publish_eq_ok (hnow : (files.now.run disk).2 = disk)
    (h : outcome (destination.publish files source package) disk = (.ok report, after)) :
    ∃ c, source.collection package = .ok c ∧ report = destination.report package c.counts ∧
      outcome (files.replaceFile (destination.path package)
        (Template.compose destination.format c.catalog (files.now.run disk).1)) disk =
          (.ok (), after) := by
  rw [outcome_publish hnow] at h
  cases hcollection : source.collection package with
  | error e =>
    rw [hcollection] at h
    cases h
  | ok c =>
    rw [hcollection] at h
    exact ⟨c, rfl, outcome_reportAfter_eq_ok.mp h⟩

/-- A run that succeeds reports the counts of the collection and the path of the target, where its
template is then found in whole. All other files are as they were, and so is all else apart from new
directories, each of them on the way to the directory of the target. If the template has no header,
another run from the same source succeeds at any time with the same report and changes nothing. -/
theorem publish_puts_the_template (hfiles : Obeys files)
    (h : outcome (destination.publish files source package) disk = (.ok report, after)) :
    ∃ (c : Collection) (place : Place),
      source.collection package = .ok c ∧
      report = ⟨package, destination.pathText package, c.counts⟩ ∧
      after.find (destination.path package) = .ok place ∧
      after.read (destination.path package) =
        .ok (utf8 (Template.compose destination.format c.catalog (files.now.run disk).1)) ∧
      Frames (destination.path package).directory place disk after ∧
      (destination.format.hasHeader = false → ∀ later,
        outcome (destination.publish (Disk.files later) source package) after =
          (.ok report, after)) := by
  obtain ⟨c, hcollection, rfl, hreplace⟩ := publish_eq_ok (hfiles.now disk) h
  obtain ⟨made, place, hmade, hready, rfl⟩ := Files.replaceFile_eq_ok hfiles hreplace
  have hgrows := Files.growsAlong_makeDirectories hfiles.toServes
    (destination.path package).directory disk
  rw [hmade] at hgrows
  have hagain := hready.putFile
    (utf8 (Template.compose destination.format c.catalog (files.now.run disk).1))
  refine ⟨c, place, hcollection, rfl, hagain.found, ?_, ?_, ?_⟩
  · apply read_eq_ok hagain.found
    rw [item?_putFile _ hready.notDirectory, if_pos rfl]
  · exact hgrows.frames_put hready.notDirectory _
  · intro hheader later
    rw [outcome_publish rfl, hcollection]
    apply outcome_reportAfter_eq_ok.mpr
    rw [Files.replaceFile_of_ready later hagain, put_put,
      Template.compose_of_noHeader hheader c.catalog _ (files.now.run disk).1]
    exact ⟨rfl, rfl⟩

/-- A disk with an older template of `P`, which is longer than a new one. -/
def staleDisk : Disk where
  items := [(["P.pot"], .file (List.replicate 100 0)), (["kept"], .file [1])]

theorem publish_staleDisk_puts_the_template :
    ∃ report after,
      outcome (detour.publish (Disk.files 0) commentedTree.source "P") staleDisk =
        (.ok report, after) ∧
      report = ⟨"P", "new/../P.pot", ⟨1, 1, 1, 0⟩⟩ ∧
      after.item? ["new"] = some .directory ∧
      after.item? ["kept"] = some (.file [1]) ∧
      after.read (detour.path "P") = .ok (utf8 "msgctxt \"P\"\nmsgid \"c\"\nmsgstr \"\"\n") ∧
      outcome (detour.publish (Disk.files 60) commentedTree.source "P") after =
        (.ok report, after) := by
  let catalog := Catalog.ofList [⟨"P", "c"⟩]
  have hcatalog : catalog.messages = [⟨"P", "c"⟩] :=
    Catalog.messages_ofList_of_ascending (List.pairwise_singleton _ _)
  have hcollection : commentedTree.source.collection "P" =
      .ok ⟨catalog, ⟨1, 1, catalog.size, 0⟩⟩ := by rfl
  have hrun : outcome (detour.publish (Disk.files 0) commentedTree.source "P") staleDisk =
      (.ok ⟨"P", "new/../P.pot", ⟨1, 1, catalog.size, 0⟩⟩,
        { items := [(["P.pot"], .file (utf8 (Template.compose detour.format catalog 0))),
            (["new"], .directory), (["kept"], .file [1])] }) := by rfl
  obtain ⟨c, place, hc, _, _, hread, _, hagain⟩ := publish_puts_the_template (obeys_files 0) hrun
  obtain rfl := Except.ok.inj (hcollection.symm.trans hc)
  refine ⟨_, _, hrun, ?_, by rfl, by rfl, ?_, hagain rfl 60⟩
  · rw [Catalog.size, hcatalog]
    rfl
  · rw [hread, Template.compose, hcatalog]
    rfl

end Destination

end GettextTemplate
