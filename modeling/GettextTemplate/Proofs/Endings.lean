import GettextTemplate.Program
import GettextTemplate.Proofs.Faults
import GettextTemplate.Proofs.Phases
import GettextTemplate.Proofs.Replacements

/-!
How runs from a stored tree end. `Destination.Ends` lists the ends: the first thing in the way
decides, and a fault is in the way at the package alone. Every run comes to one of the ends
(`exists_ends`) and to no other (`outcome_of_ends`), and the program prints what its run came to
(`run_of_parse`).
-/

namespace GettextTemplate

variable {files : Files (StateM Disk) Place} {destination : Destination} {path package : String}
  {disk : Disk}

/-- Whether a file can be read and holds a tree. -/
def Files.Stores (files : Files (StateM Disk) Place) (path : String) (disk : Disk)
    (tree : ModelTree) : Prop :=
  ∃ content, outcome (files.read (.ofText path)) disk = (.ok content, disk) ∧
    ModelTree.readJson content = .ok tree

namespace Destination

/-- The template of an extraction, written at the present time. -/
def template (destination : Destination) (files : Files (StateM Disk) Place) (disk : Disk)
    (x : Extraction) : String :=
  Template.compose destination.format x.collection.catalog (files.now.run disk).1

/-- The ends of a run from the file at a path. Each one takes for granted that nothing was in the
way of what is done before. -/
inductive Ends (files : Files (StateM Disk) Place) (destination : Destination)
    (path package : String) (disk : Disk) : Except RunError Report → Prop where
  | unreadable {e : FileError}
      (unread : outcome (files.read (.ofText path)) disk = (.error e, disk)) :
      Ends files destination path package disk
        (.error (.sourceUnavailable (path ++ ": " ++ e.message)))
  | senseless {content : Json.Bytes} {e : Json.Error}
      (read : outcome (files.read (.ofText path)) disk = (.ok content, disk))
      (malformed : ModelTree.readJson content = .error e) :
      Ends files destination path package disk (.error (.unexpected e.message))
  | missing {tree : ModelTree} (stored : files.Stores path disk tree)
      (notFound : tree.find? package = none) :
      Ends files destination path package disk (.error (.packageNotFound package))
  | faulty {tree : ModelTree} {node : Node} {fault : String} (stored : files.Stores path disk tree)
      (found : tree.find? package = some node) (broken : node.fault = some fault) :
      Ends files destination path package disk
        (.error (.sourceReported (node.ident ++ ": " ++ fault)))
  | unwritable {tree : ModelTree} {node : Node} {x : Extraction} {e : FileError}
      (stored : files.Stores path disk tree) (found : tree.find? package = some node)
      (sound : node.fault = none) (extracted : node.toEntity.extract package = .ok x)
      (refused : files.Refuses (destination.path package)
        (utf8 (destination.template files disk x)) disk e) :
      Ends files destination path package disk (.error (.file e.message))
  | written {tree : ModelTree} {node : Node} {x : Extraction} {after : Disk}
      (stored : files.Stores path disk tree) (found : tree.find? package = some node)
      (sound : node.fault = none) (extracted : node.toEntity.extract package = .ok x)
      (taken : files.Takes (destination.path package)
        (utf8 (destination.template files disk x)) disk after) :
      Ends files destination path package disk
        (.ok ⟨package, destination.pathText package, x.collection.counts⟩)

theorem exists_ends (hfiles : Disk.Obeys files) (destination : Destination) (path package : String)
    (disk : Disk) : ∃ result, Ends files destination path package disk result := by
  -- In the order of a run, so that each case has all that the one after it takes for granted.
  rcases hread : outcome (files.read (.ofText path)) disk with ⟨e | content, next⟩
  · obtain rfl := hfiles.notRead hread
    exact ⟨_, .unreadable hread⟩
  obtain ⟨-, rfl⟩ := hfiles.read hread
  rcases hjson : ModelTree.readJson content with e | tree
  · exact ⟨_, .senseless hread hjson⟩
  have hstored : files.Stores path next tree := ⟨content, hread, hjson⟩
  rcases hfind : tree.find? package with _ | node
  · exact ⟨_, .missing hstored hfind⟩
  rcases hfault : node.fault with _ | fault
  · obtain ⟨x, hextract⟩ := Node.extract_of_sound hfault package
    rcases hwrite : outcome (files.replaceFile (destination.path package)
      (destination.template files next x)) next with ⟨e | _, after⟩
    · exact ⟨_, .unwritable hstored hfind hfault hextract (Files.refuses_iff.mpr ⟨_, hwrite⟩)⟩
    · exact ⟨_, .written hstored hfind hfault hextract ((Files.takes_iff hfiles).mpr hwrite)⟩
  · exact ⟨_, .faulty hstored hfind hfault⟩

theorem outcome_publishFrom (destination : Destination) (path package : String) (disk : Disk) :
    outcome (destination.publishFrom files path package) disk =
      match outcome (files.read (.ofText path)) disk with
      | (.error e, next) => (.error (.sourceUnavailable (path ++ ": " ++ e.message)), next)
      | (.ok content, next) =>
        match ModelTree.readJson content with
        | .error e => (.error (.unexpected e.message), next)
        | .ok tree => outcome (destination.publish files tree.source package) next := by
  rw [publishFrom, outcome_bind, outcome_adapt, Files.openTree, outcome_bind, outcome_adapt]
  rcases outcome (files.read (.ofText path)) disk with ⟨e | content, next⟩
  · rfl
  · simp only [Except.mapError, outcome_liftExcept, ModelTree.ofJson]
    rcases ModelTree.readJson content with e | tree <;> rfl

theorem outcome_publishFrom_of_stores {tree : ModelTree} (hstored : files.Stores path disk tree)
    (destination : Destination) (package : String) :
    outcome (destination.publishFrom files path package) disk =
      outcome (destination.publish files tree.source package) disk := by
  obtain ⟨content, hread, hjson⟩ := hstored
  rw [outcome_publishFrom, hread]
  simp only [hjson]

/-- A run from a package without a fault of its own comes to what the writing comes to. -/
theorem outcome_publish_of_sound {tree : ModelTree} {node : Node} {x : Extraction}
    (hnow : (files.now.run disk).2 = disk) (hfind : tree.find? package = some node)
    (hextract : node.toEntity.extract package = .ok x) :
    outcome (destination.publish files tree.source package) disk =
      outcome (destination.reportAfter package x.collection.counts
        (files.replaceFile (destination.path package) (destination.template files disk x)))
        disk := by
  rw [outcome_publish hnow, ModelTree.collection_of_extract hfind hextract]
  rfl

theorem outcome_of_ends (hfiles : Disk.Obeys files) {result : Except RunError Report}
    (h : Ends files destination path package disk result) :
    (outcome (destination.publishFrom files path package) disk).1 = result := by
  have hnow := hfiles.now disk
  cases h with
  | unreadable unread => rw [outcome_publishFrom, unread]
  | senseless read malformed =>
    rw [outcome_publishFrom, read]
    simp only [malformed]
  | missing stored notFound =>
    rw [outcome_publishFrom_of_stores stored, outcome_publish hnow,
      ModelTree.collection_of_missing notFound]
  | faulty stored found broken =>
    rw [outcome_publishFrom_of_stores stored, outcome_publish hnow,
      ModelTree.collection_of_faulty found broken]
  | unwritable stored found sound extracted refused =>
    obtain ⟨after, hwrite⟩ := Files.refuses_iff.mp refused
    rw [outcome_publishFrom_of_stores stored, outcome_publish_of_sound hnow found extracted,
      outcome_reportAfter, hwrite]
  | written stored found sound extracted taken =>
    rw [outcome_publishFrom_of_stores stored, outcome_publish_of_sound hnow found extracted,
      outcome_reportAfter, (Files.takes_iff hfiles).mp taken]
    rfl

/-- Where the package has no fault of its own, only the writing can fail. -/
theorem isOk_publishFrom_of_sound (now : Int) {tree : ModelTree} {node : Node}
    (hstored : (Disk.files now).Stores path disk tree) (hfind : tree.find? package = some node)
    (hfault : node.fault = none) :
    (outcome (destination.publishFrom (Disk.files now) path package) disk).1.isOk = true ↔
      ∃ made place,
        outcome ((Disk.files now).makeDirectories (destination.path package).directory) disk =
          (.ok (), made) ∧
        Disk.Ready (destination.path package) place made := by
  obtain ⟨x, hextract⟩ := Node.extract_of_sound hfault package
  let text := destination.template (Disk.files now) disk x
  rw [outcome_publishFrom_of_stores hstored, outcome_publish_of_sound rfl hfind hextract,
    outcome_reportAfter, ← Files.isOk_replaceFile_iff now text]
  rcases outcome ((Disk.files now).replaceFile _ _) disk with ⟨_ | _, _⟩ <;> rfl

theorem isOk_publishFrom_mend (now : Int) {tree : ModelTree} {node : Node} {mended : String}
    (hstored : (Disk.files now).Stores path disk tree)
    (hmended : (Disk.files now).Stores mended disk tree.mend)
    (hfind : tree.find? package = some node) (hfault : node.fault = none) :
    (outcome (destination.publishFrom (Disk.files now) path package) disk).1.isOk =
      (outcome (destination.publishFrom (Disk.files now) mended package) disk).1.isOk := by
  have hfind' : tree.mend.find? package = some node.mend := by
    rw [ModelTree.find?_mend, hfind]
    rfl
  rw [Bool.eq_iff_iff, isOk_publishFrom_of_sound now hstored hfind hfault,
    isOk_publishFrom_of_sound now hmended hfind' node.fault_mend]

theorem eq_file_of_sound (hnow : (files.now.run disk).2 = disk) {tree : ModelTree} {node : Node}
    (hstored : files.Stores path disk tree) (hfind : tree.find? package = some node)
    (hfault : node.fault = none) {e : RunError}
    (h : (outcome (destination.publishFrom files path package) disk).1 = .error e) :
    ∃ reason, e = .file reason := by
  obtain ⟨x, hextract⟩ := Node.extract_of_sound hfault package
  rcases hrun : outcome (destination.publishFrom files path package) disk with ⟨result, after⟩
  obtain rfl : result = .error e := by rwa [hrun] at h
  rw [outcome_publishFrom_of_stores hstored, outcome_publish_of_sound hnow hfind hextract] at hrun
  obtain ⟨failure, he, -⟩ := outcome_reportAfter_eq_error hrun
  exact ⟨_, he⟩

end Destination

namespace Program

theorem run_of_parse {arguments : List String} {directory : String} {hasHeader : Bool}
    (h : CommandLine.parse arguments = .ok (.run path package directory hasHeader)) (disk : Disk) :
    ((Program.run files arguments).run disk).1 =
      .ofOutcome (outcome
        (Destination.publishFrom ⟨{ hasHeader }, directory⟩ files path package) disk).1 := by
  rw [Program.run, h]
  rfl

end Program

namespace Destination

/-- A run from a stored tree comes to exactly one of the ends, also when it goes step by step under
a limit. Faults neither hide a package nor show another one, and a run whose package has no fault of
its own fails only in writing. On a disk that refuses nothing it ends well exactly if the directories
of its target can be made and leave the disk ready for a file there, whatever faults there are in the
rest of the tree. The program prints the path of the template and returns 0 if its run
ends well, and otherwise prints the error and returns 1. -/
theorem publishFrom_ends_iff (hfiles : Disk.Obeys files) (destination : Destination)
    (path package : String) (disk : Disk) :
    (∀ result, (outcome (destination.publishFrom files path package) disk).1 = result ↔
      Ends files destination path package disk result) ∧
    (∀ permits > 0, (destination.publishAll files permits path [package]).run disk =
      ([some (outcome (destination.publishFrom files path package) disk).1],
        (outcome (destination.publishFrom files path package) disk).2)) ∧
    (∀ tree : ModelTree, tree.mend.find? package = (tree.find? package).map Node.mend) ∧
    (∀ tree node, files.Stores path disk tree → tree.find? package = some node →
      node.fault = none → ∀ e,
      (outcome (destination.publishFrom files path package) disk).1 = .error e →
        ∃ reason, e = .file reason) ∧
    (∀ now tree node, (Disk.files now).Stores path disk tree → tree.find? package = some node →
      node.fault = none →
      ((outcome (destination.publishFrom (Disk.files now) path package) disk).1.isOk = true ↔
        ∃ made place,
          outcome ((Disk.files now).makeDirectories (destination.path package).directory) disk =
            (.ok (), made) ∧
          Disk.Ready (destination.path package) place made)) ∧
    (∀ now tree node mended, (Disk.files now).Stores path disk tree →
      (Disk.files now).Stores mended disk tree.mend → tree.find? package = some node →
      node.fault = none →
      (outcome (destination.publishFrom (Disk.files now) path package) disk).1.isOk =
        (outcome (destination.publishFrom (Disk.files now) mended package) disk).1.isOk) ∧
    ∀ arguments hasHeader directory result,
      CommandLine.parse arguments = .ok (.run path package directory hasHeader) →
      Ends files ⟨{ hasHeader }, directory⟩ path package disk result →
      ((Program.run files arguments).run disk).1 =
        match result with
        | .ok _ =>
          { exitCode := 0, stdout := pathText ⟨{ hasHeader }, directory⟩ package ++ "\n" }
        | .error e => { exitCode := 1, stderr := "Error: " ++ e.message ++ "\n" } := by
  refine ⟨fun result => ⟨?_, outcome_of_ends hfiles⟩, fun permits hpermits => ?_,
    fun tree => tree.find?_mend package, ?_, ?_, ?_, ?_⟩
  · rintro rfl
    obtain ⟨result, hends⟩ := exists_ends hfiles destination path package disk
    rw [outcome_of_ends hfiles hends]
    exact hends
  · exact publishAll_single hfiles.now hpermits path disk
  · intro tree node hstored hfind hfault e he
    exact eq_file_of_sound (hfiles.now disk) hstored hfind hfault he
  · intro now tree node hstored hfind hfault
    exact isOk_publishFrom_of_sound now hstored hfind hfault
  · intro now tree node mended hstored hmended hfind hfault
    exact isOk_publishFrom_mend now hstored hmended hfind hfault
  · intro arguments hasHeader directory result hparse hends
    rw [Program.run_of_parse hparse, outcome_of_ends hfiles hends]
    cases hends <;> rfl

/-- A tree with faults above the package `A.B` and below it. -/
def patchyText : String :=
  "[[[\"container\",\"A\",\"\",false,[[\"container\",\"B\",\"c\",false,[" ++
  "[\"parameter\",\"k\",\"\",false,[],\x7b\x7d,\"y\"]]]],\x7b\x7d,\"x\"]]]"

theorem readJson_patchyText : ∃ tree, ModelTree.readJson (utf8 patchyText) = .ok tree ∧
    (tree.find? "A").map (fun node => (node.ident, node.fault)) = some ("A", some "x") ∧
    (tree.find? "A.B").map Node.fault = some none := by
  have hfound : (ModelTree.readJson (utf8 patchyText)).toOption.map (fun tree =>
      ((tree.find? "A").map fun node => (node.ident, node.fault),
        (tree.find? "A.B").map Node.fault)) = some (some ("A", some "x"), some none) := by
    decide +kernel
  cases hjson : ModelTree.readJson (utf8 patchyText) with
  | error e =>
    rw [hjson] at hfound
    cases hfound
  | ok tree =>
    rw [hjson] at hfound
    exact ⟨tree, rfl, Prod.mk.inj (Option.some.inj hfound)⟩

def patchyDisk : Disk where
  items := [(["t"], .file (utf8 patchyText))]

def headerless : Destination where
  format := { hasHeader := false }

theorem publishFrom_patchyDisk_ends :
    ∃ counts,
      ((headerless.publishAll (Disk.files 0) 3 "t" ["A.B"]).run patchyDisk).1 =
        [some (.ok ⟨"A.B", "./A.B.pot", counts⟩)] ∧
      (outcome (headerless.publishFrom (Disk.files 0) "t" "A") patchyDisk).1 =
        .error (.sourceReported "A: x") ∧
      ((Program.run (Disk.files 0) ["-s", "t", "--no-header", "A.B"]).run patchyDisk).1 =
        { exitCode := 0, stdout := "./A.B.pot\n" } := by
  obtain ⟨tree, hjson, houter, hinner⟩ := readJson_patchyText
  have hstored : (Disk.files 0).Stores "t" patchyDisk tree := ⟨utf8 patchyText, by rfl, hjson⟩
  obtain ⟨outer, hfindOuter, houter⟩ := Option.map_eq_some_iff.mp houter
  obtain ⟨hident, hbroken⟩ := Prod.mk.inj houter
  obtain ⟨inner, hfind, hsound⟩ := Option.map_eq_some_iff.mp hinner
  obtain ⟨x, hextract⟩ := Node.extract_of_sound hsound "A.B"
  have hready : Disk.Ready (headerless.path "A.B") ["A.B.pot"] patchyDisk :=
    ⟨by rfl, by rfl, by decide, by rfl⟩
  have hends : Ends (Disk.files 0) headerless "t" "A.B" patchyDisk _ :=
    .written hstored hfind hsound hextract
      ((Files.takes_iff (Disk.obeys_files 0)).mpr (Files.replaceFile_of_ready 0 hready _))
  have hparse : CommandLine.parse ["-s", "t", "--no-header", "A.B"] =
      .ok (.run "t" "A.B" "." false) := by decide +kernel
  obtain ⟨hresult, hlimit, -, -, -, -, hprogram⟩ :=
    publishFrom_ends_iff (Disk.obeys_files 0) headerless "t" "A.B" patchyDisk
  obtain ⟨hresult', -⟩ := publishFrom_ends_iff (Disk.obeys_files 0) headerless "t" "A" patchyDisk
  refine ⟨x.collection.counts, ?_, ?_, hprogram _ false "." _ hparse hends⟩
  · rw [hlimit 3 (by decide), (hresult _).mpr hends]
    rfl
  · rw [(hresult' _).mpr (.faulty hstored hfindOuter hbroken), hident]
    rfl

end Destination

end GettextTemplate
