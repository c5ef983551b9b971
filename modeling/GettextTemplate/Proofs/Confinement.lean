import GettextTemplate.Proofs.FinishedRuns
import GettextTemplate.Proofs.Subpackages

/-!
Where templates are written. The template of a package lies inside the output directory unless a
part of the package's name before its last slash leads up, or the name begins with a slash and takes
the place of the directory (`publish_is_inside_iff`). Nothing in a name is refused by the search
for packages: for each name there is a tree in which it is found (`exists_collection`).
-/

namespace GettextTemplate

namespace Path

/-- The steps that lead to another place. -/
def moves (path : Path) : List Step := path.steps.filter fun step => !step.isIdle

/-- A path lies inside a directory if it is the directory and then only names. -/
def IsInside (path directory : Path) : Prop :=
  path.fromRoot = directory.fromRoot ∧
    ∃ names, names ≠ [] ∧ path.moves = directory.moves ++ names.map Step.enter

/-- The parts of a name in front of its last slash. -/
def folders (name : String) : List String :=
  ((name.toList.splitOn '/').map String.ofList).dropLast

def movesOf (chars : List Char) : List Step := (stepsOf chars).filter fun step => !step.isIdle

theorem stepsOf_slash (before after : List Char) :
    stepsOf (before ++ '/' :: after) = stepsOf before ++ stepsOf after := by
  rw [stepsOf, List.splitOn_append_cons_self, List.map_append]
  rfl

theorem movesOf_slash (before after : List Char) :
    movesOf (before ++ '/' :: after) = movesOf before ++ movesOf after := by
  rw [movesOf, stepsOf_slash, List.filter_append]
  rfl

theorem moves_ofText (text : String) : (ofText text).moves = movesOf text.toList := by
  unfold ofText
  split
  · next h => rw [h]; rfl
  · next rest h => rw [h]; exact (movesOf_slash [] rest).symm
  · rfl

theorem fromRoot_ofText (text : String) :
    (ofText text).fromRoot = true ↔ text.toList.head? = some '/' := by
  unfold ofText
  split
  · next h => simp [h]
  · next rest h => simp [h]
  · next hnil hslash =>
    cases hchars : text.toList with
    | nil => exact absurd hchars hnil
    | cons c rest =>
      have hc : c ≠ '/' := by
        rintro rfl
        exact hslash rest hchars
      simpa using hc

/-- A directory without a slash at its end. -/
def unslashed (directory : String) : List Char :=
  if directory.toList.getLast? = some '/' then directory.toList.dropLast else directory.toList

theorem unslashed_cases (directory : String) :
    directory.toList = unslashed directory ∨ directory.toList = unslashed directory ++ ['/'] := by
  by_cases hslash : directory.toList.getLast? = some '/'
  · obtain ⟨front, hfront⟩ := List.getLast?_eq_some_iff.mp hslash
    rw [unslashed, if_pos hslash, hfront, List.dropLast_concat]
    exact .inr rfl
  · rw [unslashed, if_neg hslash]
    exact .inl rfl

/-- A file that does not begin at the root stands behind the directory and a slash. -/
theorem toList_joinText {directory file : String} (hdirectory : directory ≠ "")
    (h : file.toList.head? ≠ some '/') :
    (joinText directory file).toList = unslashed directory ++ '/' :: file.toList := by
  rw [joinText, if_neg h, unslashed]
  by_cases hslash : directory.toList.getLast? = some '/'
  · obtain ⟨front, hfront⟩ := List.getLast?_eq_some_iff.mp hslash
    rw [if_pos (by simp [hslash]), if_pos hslash, String.toList_append, hfront,
      List.dropLast_concat, List.append_assoc]
    rfl
  · rw [if_neg (by simp [hdirectory, hslash]), if_neg hslash]
    simp

theorem joinText_empty {file : String} (h : file.toList.head? ≠ some '/') :
    joinText "" file = file := by
  rw [joinText, if_neg h, if_pos (by rfl), String.empty_append]

/-- A file that does not begin at the root is looked for in the directory. -/
theorem ofText_joinText (directory : String) {file : String} (h : file.toList.head? ≠ some '/') :
    (ofText (joinText directory file)).moves =
        (ofText directory).moves ++ (ofText file).moves ∧
      (ofText (joinText directory file)).fromRoot = (ofText directory).fromRoot := by
  rw [moves_ofText, moves_ofText, moves_ofText]
  by_cases hempty : directory = ""
  · subst hempty
    have hfile : (ofText file).fromRoot = false := by
      rw [← Bool.not_eq_true, fromRoot_ofText]
      exact h
    rw [joinText_empty h]
    exact ⟨rfl, hfile⟩
  · have hjoined := toList_joinText hempty h
    have hmoves : movesOf directory.toList = movesOf (unslashed directory) := by
      rcases unslashed_cases directory with hsame | hslash
      · rw [hsame]
      · rw [hslash, movesOf_slash]
        exact List.append_nil _
    have hhead : (unslashed directory ++ '/' :: file.toList).head? = directory.toList.head? := by
      have hne : directory.toList ≠ [] := by simpa using hempty
      rcases unslashed_cases directory with hsame | hslash
      · rw [← hsame, List.head?_append_of_ne_nil _ hne]
      · rw [hslash]
        cases unslashed directory <;> rfl
    refine ⟨?_, ?_⟩
    · rw [hjoined, movesOf_slash, hmoves]
    · rw [Bool.eq_iff_iff, fromRoot_ofText, fromRoot_ofText, hjoined, hhead]

theorem exists_last_slash (chars : List Char) :
    '/' ∉ chars ∨ ∃ front last, chars = front ++ '/' :: last ∧ '/' ∉ last := by
  by_cases hmem : '/' ∈ chars
  · obtain ⟨last, front, hsplit, hlast⟩ := List.eq_append_cons_of_mem (List.mem_reverse.mpr hmem)
    refine .inr ⟨front.reverse, last.reverse, ?_, by simpa using hlast⟩
    rw [← List.reverse_reverse chars, hsplit]
    simp
  · exact .inl hmem

/-- With an extension a name without slashes is the name of a file, whatever it is by itself. -/
theorem stepsOf_file {part : List Char} (hpart : '/' ∉ part) :
    stepsOf (part ++ ".pot".toList) = [.enter (String.ofList (part ++ ".pot".toList))] := by
  have hsplit : (part ++ ".pot".toList).splitOn '/' = [part ++ ".pot".toList] := by
    apply List.splitOn_eq_singleton
    simp [hpart]
  have hlong : 4 ≤ (String.ofList (part ++ ".pot".toList)).length := by
    rw [String.length_ofList, List.length_append]
    exact Nat.le_add_left 4 part.length
  rw [stepsOf, hsplit, List.map_singleton, Step.ofPart, if_neg, if_neg, if_neg]
  all_goals
    intro heq
    rw [heq] at hlong
    revert hlong
    decide

theorem exists_movesOf_file (package : String) :
    ∃ last, movesOf (package ++ "." ++ "pot").toList =
      (((folders package).map Step.ofPart).filter fun step => !step.isIdle) ++ [.enter last] := by
  have hfile {part : List Char} (hpart : '/' ∉ part) :
      movesOf (part ++ ".pot".toList) = [.enter (String.ofList (part ++ ".pot".toList))] := by
    rw [movesOf, stepsOf_file hpart]
    rfl
  have htext : (package ++ "." ++ "pot").toList = package.toList ++ ".pot".toList := by
    simp
  rw [htext]
  rcases exists_last_slash package.toList with hplain | ⟨front, last, hsplit, hlast⟩
  · have hfolders : folders package = [] := by
      rw [folders, List.splitOn_eq_singleton hplain]
      rfl
    rw [hfolders]
    exact ⟨_, hfile hplain⟩
  · have hfolders : folders package = (front.splitOn '/').map String.ofList := by
      rw [folders, hsplit, List.splitOn_append_cons_self, List.splitOn_eq_singleton hlast,
        List.map_append]
      exact List.dropLast_concat
    rw [hsplit, hfolders, List.append_assoc, List.cons_append, movesOf_slash, hfile hlast,
      movesOf, stepsOf, List.map_map]
    exact ⟨_, rfl⟩

/-- Parts of which none leads up are steps to names, as far as they are steps at all. -/
theorem exists_names {parts : List String} (h : ".." ∉ parts) :
    ∃ names : List String, ((parts.map Step.ofPart).filter fun step => !step.isIdle) =
      names.map Step.enter := by
  induction parts with
  | nil => exact ⟨[], rfl⟩
  | cons part rest ih =>
    obtain ⟨names, hnames⟩ := ih fun hmem => h (List.mem_cons_of_mem part hmem)
    have hup : part ≠ ".." := fun heq => h (heq ▸ List.mem_cons_self)
    rw [List.map_cons, Step.ofPart, if_neg hup]
    by_cases hblank : part = ""
    · exact ⟨names, by rw [if_pos hblank]; exact hnames⟩
    by_cases hstay : part = "."
    · exact ⟨names, by rw [if_neg hblank, if_pos hstay]; exact hnames⟩
    · refine ⟨part :: names, ?_⟩
      rw [if_neg hblank, if_neg hstay, List.map_cons, ← hnames]
      rfl

theorem isInside_joinText_iff (directory : String) {package : String}
    (h : package.toList.head? ≠ some '/') :
    (ofText (joinText directory (package ++ "." ++ "pot"))).IsInside (ofText directory) ↔
      ".." ∉ folders package := by
  have hhead : (package ++ "." ++ "pot").toList.head? ≠ some '/' := by
    cases hchars : package.toList with
    | nil => simp [hchars]
    | cons c rest => simpa [hchars] using h
  obtain ⟨hmoves, hroot⟩ := ofText_joinText directory hhead
  obtain ⟨last, hlast⟩ := exists_movesOf_file package
  rw [IsInside, hmoves, moves_ofText (package ++ "." ++ "pot"), hlast]
  constructor
  · rintro ⟨-, names, -, hnames⟩ hup
    have hstep : Step.up ∈ names.map Step.enter := by
      rw [← List.append_cancel_left hnames]
      refine List.mem_append_left _ (List.mem_filter.mpr ⟨?_, rfl⟩)
      exact List.mem_map.mpr ⟨"..", hup, rfl⟩
    obtain ⟨name, -, hname⟩ := List.mem_map.mp hstep
    cases hname
  · intro hup
    obtain ⟨names, hnames⟩ := exists_names hup
    refine ⟨hroot, names ++ [last], by simp, ?_⟩
    rw [hnames, List.map_append]
    rfl

end Path

namespace Disk

/-- A path leads to a place. The path without steps leads to where one stands. -/
def Leads (disk : Disk) (path : Path) (place : Place) : Prop :=
  disk.walk (if path.fromRoot then [] else disk.here) path.steps = .ok place

variable {disk : Disk}

/-- Idle steps can be left out of a walk. -/
theorem walk_moves {place last : Place} {steps : List Step}
    (hwalk : disk.walk place steps = .ok last) :
    disk.walk place (steps.filter fun step => !step.isIdle) = .ok last := by
  induction steps generalizing place with
  | nil => exact hwalk
  | cons step rest ih =>
    have hplace := directory_of_walk_cons hwalk
    rw [walk_cons hplace] at hwalk
    cases step with
    | blank => exact ih hwalk
    | stay => exact ih hwalk
    | up =>
      rw [List.filter_cons_of_pos rfl, walk_cons hplace]
      exact ih hwalk
    | enter name =>
      rw [List.filter_cons_of_pos rfl, walk_cons hplace]
      simp only at hwalk ⊢
      split at hwalk
      · cases hwalk
      · rw [if_neg ‹_›]
        exact ih hwalk

/-- Idle steps can be put into a walk to a directory. -/
theorem walk_of_moves {place last : Place} (hlast : disk.item? last = some .directory)
    {steps : List Step}
    (hwalk : disk.walk place (steps.filter fun step => !step.isIdle) = .ok last) :
    disk.walk place steps = .ok last := by
  induction steps generalizing place with
  | nil => exact hwalk
  | cons step rest ih =>
    have hplace : disk.item? place = some .directory := by
      cases hsteps : (step :: rest).filter fun step => !step.isIdle with
      | nil =>
        rw [hsteps] at hwalk
        cases hwalk
        exact hlast
      | cons next later =>
        rw [hsteps] at hwalk
        exact directory_of_walk_cons hwalk
    rw [walk_cons hplace]
    cases step with
    | blank => exact ih hwalk
    | stay => exact ih hwalk
    | up =>
      rw [List.filter_cons_of_pos rfl, walk_cons hplace] at hwalk
      exact ih hwalk
    | enter name =>
      rw [List.filter_cons_of_pos rfl, walk_cons hplace] at hwalk
      simp only at hwalk ⊢
      split at hwalk
      · cases hwalk
      · rw [if_neg ‹_›]
        exact ih hwalk

theorem walk_enter (names : List String) {place last : Place}
    (hwalk : disk.walk place (names.map Step.enter) = .ok last) : last = names.reverse ++ place := by
  induction names generalizing place with
  | nil =>
    cases hwalk
    rfl
  | cons name rest ih =>
    rw [List.map_cons, walk_cons (directory_of_walk_cons hwalk)] at hwalk
    simp only at hwalk
    split at hwalk
    · cases hwalk
    · rw [ih hwalk]
      simp

/-- What a path inside a directory leads to stands below that directory. -/
theorem below_of_isInside {path directory : Path} {place : Place}
    (hinside : path.IsInside directory) (hfind : disk.find path = .ok place) :
    ∃ top names, names ≠ [] ∧ disk.Leads directory top ∧
      disk.item? top = some .directory ∧ place = names.reverse ++ top := by
  obtain ⟨hroot, names, hne, hmoves⟩ := hinside
  obtain ⟨-, -, -, hwalk⟩ := find_eq_ok_iff.mp hfind
  have hwalk := walk_moves hwalk
  rw [← Path.moves, hmoves, walk_append] at hwalk
  cases htop : disk.walk (if path.fromRoot then [] else disk.here) directory.moves with
  | error e =>
    rw [htop] at hwalk
    cases hwalk
  | ok top =>
    rw [htop] at hwalk
    change disk.walk top (names.map Step.enter) = _ at hwalk
    obtain ⟨name, rest, rfl⟩ := List.exists_cons_of_ne_nil hne
    have hdirectory := directory_of_walk_cons hwalk
    refine ⟨top, name :: rest, hne, ?_, hdirectory, walk_enter _ hwalk⟩
    rw [hroot] at htop
    exact walk_of_moves hdirectory htop

end Disk

namespace ModelTree

/-- Packages with the given idents, each inside the one before. -/
def packageAlong (ident : String) : List String → Node
  | [] => .plain .container ident
  | next :: rest => (Node.plain .container ident).addChild (packageAlong next rest)

theorem isPackage_packageAlong (ident : String) (idents : List String) :
    (packageAlong ident idents).isPackage ident = true := by
  cases idents <;> simp [packageAlong, Node.addChild, Node.plain, Node.isPackage, Kind.isContainer]

theorem exists_descend_packageAlong (ident : String) (idents : List String) :
    ∃ node, descend (packageAlong ident idents) idents = some node ∧ node.fault = none := by
  induction idents generalizing ident with
  | nil => exact ⟨_, rfl, rfl⟩
  | cons next rest ih =>
    obtain ⟨node, hnode, hfault⟩ := ih next
    refine ⟨node, ?_, hfault⟩
    have hnext : (packageAlong ident (next :: rest)).subpackage? next =
        some (packageAlong next rest) :=
      List.find?_cons_of_pos (isPackage_packageAlong next rest)
    rw [descend, hnext]
    exact hnode

/-- Every name is the name of a package of some tree. -/
theorem exists_collection (name : String) :
    ∃ (tree : ModelTree) (c : Collection), tree.source.collection name = .ok c := by
  obtain ⟨first, rest, hparts⟩ := List.exists_cons_of_ne_nil (nameParts_ne_nil name)
  obtain ⟨node, hnode, hfault⟩ := exists_descend_packageAlong first rest
  obtain ⟨x, hextract⟩ := Node.extract_of_sound hfault name
  let tree : ModelTree := ⟨[packageAlong first rest]⟩
  have hfirst : tree.packages.find? (Node.isPackage first) = some (packageAlong first rest) :=
    List.find?_cons_of_pos (isPackage_packageAlong first rest)
  have hfind : tree.find? name = some node := by
    rw [find?, hparts]
    simp only [hfirst]
    exact hnode
  exact ⟨tree, _, collection_of_extract hfind hextract⟩

end ModelTree

namespace Destination

open Disk

/-- A template that is written lies inside the output directory exactly if no part of the package's
name before its last slash leads up. A name that begins with a slash takes the place of the
directory. -/
theorem publish_is_inside_iff {files : Files (StateM Disk) Place} {destination : Destination}
    {source : Source} {package : String} {disk after : Disk} {report : Report}
    (hfiles : Obeys files) (hextension : destination.format.extension = "pot")
    (h : outcome (destination.publish files source package) disk = (.ok report, after)) :
    (package.toList.head? = some '/' → report.path = package ++ ".pot") ∧
      (package.toList.head? ≠ some '/' →
        ((Path.ofText report.path).IsInside (.ofText destination.directory) ↔
          ".." ∉ Path.folders package)) ∧
      ((Path.ofText report.path).IsInside (.ofText destination.directory) →
        ∃ top names, names ≠ [] ∧ after.Leads (.ofText destination.directory) top ∧
          after.item? top = some .directory ∧
          after.find (.ofText report.path) = .ok (names.reverse ++ top) ∧
          ∃ content, after.item? (names.reverse ++ top) = some (.file content)) := by
  obtain ⟨c, -, rfl, hreplace⟩ := publish_eq_ok (hfiles.now disk) h
  obtain ⟨made, place, -, hready, rfl⟩ := Files.replaceFile_eq_ok hfiles hreplace
  have hpath : (destination.report package c.counts).path =
      Path.joinText destination.directory (package ++ "." ++ "pot") := by
    rw [report, pathText, hextension]
  have hfile : package ++ "." ++ "pot" = package ++ ".pot" := by
    rw [String.append_assoc]
    rfl
  refine ⟨fun hroot => ?_, fun hroot => ?_, fun hinside => ?_⟩
  · have hhead : (package ++ ".pot").toList.head? = some '/' := by
      rw [String.toList_append, List.head?_append, hroot]
      rfl
    rw [hpath, hfile, Path.joinText, if_pos hhead]
  · rw [hpath]
    exact Path.isInside_joinText_iff _ hroot
  · have hagain := hready.putFile (utf8 (Template.compose destination.format c.catalog
      (files.now.run disk).1))
    obtain ⟨top, names, hne, hleads, hdirectory, rfl⟩ := below_of_isInside hinside hagain.found
    refine ⟨top, names, hne, hleads, hdirectory, hagain.found, utf8 (Template.compose
      destination.format c.catalog (files.now.run disk).1), ?_⟩
    rw [item?_putFile _ hready.notDirectory, if_pos rfl]

/-- Templates are written into a directory, which need not be there. -/
def intoSub : Destination where
  format := { hasHeader := false }
  directory := "sub"

/-- A package whose name goes through a folder, and one whose name leads out of the directory. -/
def slashedTree : ModelTree where
  packages := [
    { kind := .container, ident := "a//P", comment := "c" },
    { kind := .container, ident := "", children := [
      { kind := .container, ident := "", children := [
        { kind := .container, ident := "/P", comment := "c" }] }] }]

theorem publish_slashedTree_is_inside :
    ∃ report after,
      outcome (intoSub.publish (Disk.files 0) slashedTree.source "a//P") {} =
        (.ok report, after) ∧
      report.path = "sub/a//P.pot" ∧
      (Path.ofText report.path).IsInside (.ofText "sub") ∧
      ∃ top names, names ≠ [] ∧ after.find (.ofText "sub/a//P.pot") = .ok (names.reverse ++ top) ∧
        after.Leads (.ofText "sub") top := by
  let catalog := Catalog.ofList [⟨"a//P", "c"⟩]
  have hrun : outcome (intoSub.publish (Disk.files 0) slashedTree.source "a//P") {} =
      (.ok ⟨"a//P", "sub/a//P.pot", ⟨1, 1, catalog.size, 0⟩⟩,
        { items := [(["P.pot", "a", "sub"],
              .file (utf8 (Template.compose intoSub.format catalog 0))),
            (["a", "sub"], .directory), (["sub"], .directory)] }) := by rfl
  obtain ⟨-, hiff, hbelow⟩ := publish_is_inside_iff (obeys_files 0) rfl hrun
  have hinside := (hiff (by decide)).mpr (by decide)
  obtain ⟨top, names, hne, hleads, -, hfind, -⟩ := hbelow hinside
  exact ⟨_, _, hrun, rfl, hinside, top, names, hne, hfind, hleads⟩

theorem publish_slashedTree_is_outside :
    ∃ report after,
      outcome (intoSub.publish (Disk.files 0) slashedTree.source "../P") {} =
        (.ok report, after) ∧
      report.path = "sub/../P.pot" ∧
      ¬ (Path.ofText report.path).IsInside (.ofText "sub") ∧
      after.Leads (.ofText "sub") ["sub"] ∧
      after.find (.ofText report.path) = .ok ["P.pot"] ∧
      after.read (.ofText report.path) =
        .ok (utf8 "msgctxt \"../P\"\nmsgid \"c\"\nmsgstr \"\"\n") := by
  let catalog := Catalog.ofList [⟨"../P", "c"⟩]
  have hcatalog : catalog.messages = [⟨"../P", "c"⟩] :=
    Catalog.messages_ofList_of_ascending (List.pairwise_singleton _ _)
  have hrun : outcome (intoSub.publish (Disk.files 0) slashedTree.source "../P") {} =
      (.ok ⟨"../P", "sub/../P.pot", ⟨1, 1, catalog.size, 0⟩⟩,
        { items := [(["P.pot"], .file (utf8 (Template.compose intoSub.format catalog 0))),
            (["sub"], .directory)] }) := by rfl
  have hname : "../P".toList.head? ≠ some '/' := by decide
  -- Stated for any content, since the text of the template does not reduce.
  have hfind (content : Json.Bytes) : Disk.find
      { items := [(["P.pot"], .file content), (["sub"], .directory)] }
      (.ofText "sub/../P.pot") = .ok ["P.pot"] := by rfl
  refine ⟨_, _, hrun, rfl, ?_, by rfl, hfind _, ?_⟩
  · intro hinside
    exact (Path.isInside_joinText_iff "sub" hname).mp hinside (by decide)
  · have hread : Disk.read
        { items := [(["P.pot"], .file (utf8 (Template.compose intoSub.format catalog 0))),
            (["sub"], .directory)] } (.ofText "sub/../P.pot") =
        .ok (utf8 (Template.compose intoSub.format catalog 0)) := by rfl
    rw [hread, Template.compose, hcatalog]
    rfl

end Destination

end GettextTemplate
