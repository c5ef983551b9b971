import GettextTemplate.Node
import GettextTemplate.Proofs.Extraction
import GettextTemplate.Proofs.Walk

/-!
The extraction of a tree, told without recursion. A walk goes down from the containers whose
questions are all answered. What it comes to, in pre-order, decides everything: the first fatal
failure below the root ends the extraction, and without one each complete entity adds its messages
and each lost one adds to the losses.
-/

namespace GettextTemplate

namespace Visit

/-- The scope that an entity speaks in. The root is found in a given scope and a leaf in the scope
of the container around it, while a container below the root speaks in its own. -/
def scope (initial : String) (visit : Visit) : String :=
  match visit.parent with
  | none => initial
  | some parent =>
    if visit.entity.answers.isContainer then visit.entity.answers.name else parent.name

def messages (initial : String) (visit : Visit) : List Message :=
  visit.entity.answers.ownMessages (visit.scope initial)

def isComplete (visit : Visit) : Bool := visit.entity.answers.isComplete

def isLost (visit : Visit) : Bool := visit.entity.answers.isLost

def fatal? (visit : Visit) : Option SourceFailure := visit.entity.answers.fatal?

variable {visit : Visit} (index : Nat)

@[simp] theorem messages_under (initial : String) :
    (visit.under index).messages initial = visit.messages initial := rfl

@[simp] theorem isComplete_under : (visit.under index).isComplete = visit.isComplete := rfl

@[simp] theorem isLost_under : (visit.under index).isLost = visit.isLost := rfl

@[simp] theorem fatal?_under : (visit.under index).fatal? = visit.fatal? := rfl

end Visit

namespace Extraction

/-- What visits add up to when none of them is fatal. -/
def gather (initial : String) (visits : List Visit) : Extraction where
  messages := (visits.filter Visit.isComplete).flatMap (Visit.messages initial)
  visited := visits.countP Visit.isComplete
  skipped := visits.countP Visit.isLost

/-- The outcome of visits: the first fatal failure, or what they add up to. -/
def ofVisits (initial : String) (visits : List Visit) : Answer Extraction :=
  match visits.findSome? Visit.fatal? with
  | some e => .error e
  | none => .ok (gather initial visits)

variable {initial : String}

theorem gather_append (a b : List Visit) :
    gather initial (a ++ b) = gather initial a ++ gather initial b := by
  change _ = append (gather initial a) (gather initial b)
  simp only [gather, append, List.filter_append, List.flatMap_append, List.countP_append]

theorem ofVisits_append (a b : List Visit) :
    ofVisits initial (a ++ b) = do
      let first ← ofVisits initial a
      let later ← ofVisits initial b
      return first ++ later := by
  simp only [ofVisits, List.findSome?_append, gather_append]
  cases a.findSome? Visit.fatal? with
  | some e => rfl
  | none => cases b.findSome? Visit.fatal? <;> rfl

/-- The outcome of a single visit depends on the first failure of its entity. -/
theorem ofVisits_singleton (visit : Visit) :
    ofVisits initial [visit] =
      match visit.entity.answers.failure? with
      | some e => if e.isReported then .ok .lost else .error e
      | none => .ok (.single (visit.messages initial)) := by
  cases hfailure : visit.entity.answers.failure? with
  | none =>
    simp [ofVisits, gather, single, Visit.fatal?, Answers.fatal?, Visit.isComplete,
      Answers.isComplete, Visit.isLost, Answers.isLost, hfailure]
  | some e =>
    cases hreported : e.isReported <;>
      simp [ofVisits, gather, lost, Visit.fatal?, Answers.fatal?, Visit.isComplete,
        Answers.isComplete, Visit.isLost, Answers.isLost, hfailure, hreported, Option.filter_some]

/-- The outcome does not depend on where the visits are seen from. -/
theorem ofVisits_map_under (index : Nat) (visits : List Visit) :
    ofVisits initial (visits.map (Visit.under index)) = ofVisits initial visits := by
  simp [ofVisits, gather, List.findSome?_map, List.filter_map, List.flatMap_map, List.countP_map,
    Function.comp_def]

end Extraction

namespace Entity

open Extraction

theorem visits_eq_append (parent : Option Answers) (answers : Answers) (children : List Entity) :
    visits Answers.isOpen parent (.mk answers children) =
      [⟨[], parent, .mk answers children⟩] ++
        if answers.isOpen then visitsAll Answers.isOpen answers 0 children else [] := rfl

mutual

/-- Below the root, the extraction of an entity is the outcome of the visits to its subtree. -/
theorem extractWithin_eq_ofVisits (initial : String) (parent : Answers) : ∀ child : Entity,
    child.extractWithin parent.name =
      ofVisits initial (child.visits Answers.isOpen (some parent))
  | .mk answers children => by
    rw [extractWithin_eq, visits_eq_append, ofVisits_append, ofVisits_singleton]
    change (match answers.failure? with | some e => _ | none => _) =
      (match answers.failure? with | some e => _ | none => _) >>= _
    cases hfailure : answers.failure? with
    | some e =>
      simp only [Answers.isOpen_of_failure hfailure]
      cases hreported : e.isReported <;> rfl
    | none =>
      simp only
      rw [extract_eq, hfailure]
      cases hopen : answers.isOpen with
      | true =>
        simp only [if_true]
        rw [extractAll_eq_ofVisits initial answers 0 children]
        rfl
      | false => rfl

theorem extractAll_eq_ofVisits (initial : String) (parent : Answers) (index : Nat) :
    ∀ children : List Entity,
    extractAll parent.name children =
      ofVisits initial (visitsAll Answers.isOpen parent index children)
  | [] => rfl
  | child :: rest => by
    rw [extractAll_cons, visitsAll, ofVisits_append, ofVisits_map_under,
      extractWithin_eq_ofVisits initial parent child,
      extractAll_eq_ofVisits initial parent (index + 1) rest]

end

/-- The extraction of a tree, where only a failure of the root itself is not told by the visits. -/
theorem extract_eq_ofVisits (scope : String) (root : Entity) :
    root.extract scope =
      match root.answers.failure? with
      | some e => .error e
      | none => ofVisits scope (root.visits Answers.isOpen none) := by
  obtain ⟨answers, children⟩ := root
  rw [extract_eq, visits_eq_append, ofVisits_append, ofVisits_singleton]
  change (match answers.failure? with | some e => _ | none => _) =
    (match answers.failure? with
      | some e => _
      | none => (match answers.failure? with | some e => _ | none => _) >>= _)
  cases hfailure : answers.failure? with
  | some e => rfl
  | none =>
    cases hopen : answers.isOpen with
    | true =>
      simp only [if_true]
      rw [extractAll_eq_ofVisits scope answers 0 children]
      rfl
    | false => rfl

/-- What an extraction reaches: the root and each child of a reached container, provided that all
questions about it are answered. -/
inductive Reached (root : Entity) : Visit → Prop
  | root (complete : root.answers.isComplete = true) : Reached root ⟨[], none, root⟩
  | child {position : Position} {parent : Option Answers} {entity child : Entity} {index : Nat}
      (above : Reached root ⟨position, parent, entity⟩)
      (container : entity.answers.isContainer = true)
      (listed : entity.children[index]? = some child)
      (complete : child.answers.isComplete = true) :
      Reached root ⟨position ++ [index], some entity.answers, child⟩

theorem reached_iff {root : Entity} {visit : Visit} :
    root.Reached visit ↔ root.Visited Answers.isOpen visit ∧ visit.isComplete = true := by
  constructor
  · intro h
    induction h with
    | root complete => exact ⟨.root, complete⟩
    | child _ container listed complete ih =>
      obtain ⟨hvisited, habove⟩ := ih
      have hopen := Bool.and_eq_true_iff.mpr ⟨container, habove⟩
      exact ⟨.child hvisited hopen listed, complete⟩
  · rintro ⟨hvisited, hcomplete⟩
    induction hvisited with
    | root => exact .root hcomplete
    | child _ opened listed ih =>
      obtain ⟨hcontainer, habove⟩ := Bool.and_eq_true_iff.mp opened
      exact .child (ih habove) hcontainer listed hcomplete

/-- An extraction that succeeds met no fatal failure, and is what its visits add up to. -/
theorem eq_gather_of_extract {scope : String} {root : Entity} {x : Extraction}
    (h : root.extract scope = .ok x) :
    (∀ visit ∈ root.visits Answers.isOpen none, visit.fatal? = none) ∧
      x = gather scope (root.visits Answers.isOpen none) := by
  rw [extract_eq_ofVisits] at h
  cases hfailure : root.answers.failure? with
  | some e =>
    rw [hfailure] at h
    cases h
  | none =>
    rw [hfailure] at h
    simp only [ofVisits] at h
    split at h
    · cases h
    case h_2 hnone =>
      cases h
      exact ⟨List.findSome?_eq_none_iff.mp hnone, rfl⟩

/-- The messages of an extraction are those of the reached entities, one after the other in
depth-first pre-order, which is the lexicographic order of positions. -/
theorem messages_extract_in_preorder {scope : String} {root : Entity} {x : Extraction}
    (h : root.extract scope = .ok x) :
    ∃ reached : List Visit,
      reached.Pairwise (fun a b => a.position < b.position) ∧
      (∀ visit, visit ∈ reached ↔ root.Reached visit) ∧
      x.messages = reached.flatMap (Visit.messages scope) := by
  obtain ⟨_, hgather⟩ := eq_gather_of_extract h
  refine ⟨(root.visits Answers.isOpen none).filter Visit.isComplete, ?_, ?_, ?_⟩
  · exact (pairwise_visits none root).filter _
  · intro visit
    rw [List.mem_filter, mem_visits, reached_iff]
  · rw [hgather]
    rfl

end Entity

/-- A package with annotations under all keys. The built-in type gives the text of its definition and
keeps its comment and its dialog to itself, and its part has no definition to speak of. -/
def labelledPackage : Entity :=
  Node.toEntity {
    kind := .container
    ident := "Lib"
    comment := "a \"b\""
    annotations := Annotations.empty
      |>.insert "Dialog.tab" "Main"
      |>.insert "unassignedMessage" "unassigned"
      |>.insert "missingInnerMessage" "missing"
      |>.insert "obsolete" "\"\""
      |>.insert "Documentation.revisions" "\"1\\\""
      |>.insert "Documentation.info" "\"<p>\\\"x\\\" \"y\"</p>\""
    children := [
      { kind := .container, ident := "Real", builtIn := true, comment := "hidden",
        annotations := Annotations.empty
          |>.insert "obsolete" "\"old\""
          |>.insert "Dialog.tab" "hidden",
        children := [
          { kind := .parameter, ident := "unit", comment := "Unit",
            annotations := Annotations.empty
              |>.insert "obsolete" "hidden"
              |>.insert "Dialog.saveSelector.caption" "Save"
              |>.insert "Dialog.saveSelector.filter" "*.s"
              |>.insert "Dialog.loadSelector.caption" "Load"
              |>.insert "Dialog.loadSelector.filter" "*.l"
              |>.insert "Dialog.group" "\"SI \"unit\"\""
              |>.insert "Dialog.tab" "\"" }] },
      { kind := .container, ident := "Broken", comment := "lost", fault := some "E_FAIL" }] }

def labelledMessages : List Message :=
  [⟨"P.Lib", "a \\\"b\\\""⟩, ⟨"Lib", "<p>\\\"x\\\" \\\"y\\\"</p>"⟩, ⟨"Lib", "1\\\\"⟩,
    ⟨"Lib", "missing"⟩, ⟨"Lib", "unassigned"⟩, ⟨"Lib", "Main"⟩, ⟨"Real", "old"⟩, ⟨"Real", "Unit"⟩,
    ⟨"Real", "SI \\\"unit\\\""⟩, ⟨"Real", "*.l"⟩, ⟨"Real", "Load"⟩, ⟨"Real", "*.s"⟩,
    ⟨"Real", "Save"⟩]

theorem extract_labelledPackage :
    labelledPackage.extract "P.Lib" = .ok ⟨labelledMessages, 3, 1⟩ := rfl

theorem messages_labelledPackage_in_preorder :
    ∃ reached : List Visit,
      reached.Pairwise (fun a b => a.position < b.position) ∧
      (∀ visit, visit ∈ reached ↔ labelledPackage.Reached visit) ∧
      labelledMessages = reached.flatMap (Visit.messages "P.Lib") :=
  Entity.messages_extract_in_preorder extract_labelledPackage

/-- A package with a comment in need of escapes, a built-in type whose only part speaks in its
stead, and a part that cannot be read. -/
def faultyPackage : Entity :=
  Node.toEntity {
    kind := .container
    ident := "Lib"
    comment := "a \"b\""
    children := [
      { kind := .container, ident := "Real", builtIn := true, comment := "hidden",
        children := [{ kind := .parameter, ident := "unit", comment := "Unit" }] },
      { kind := .container, ident := "Broken", fault := some "E_FAIL" }] }

theorem extract_faultyPackage :
    faultyPackage.extract "P.Lib" =
      .ok ⟨[⟨"P.Lib", "a \\\"b\\\""⟩, ⟨"Real", "Unit"⟩], 3, 1⟩ := rfl

end GettextTemplate
