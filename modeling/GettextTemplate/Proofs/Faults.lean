import GettextTemplate.ModelTree
import GettextTemplate.Proofs.Collections
import GettextTemplate.Proofs.Failures

/-!
Faults in stored trees. A fault is always a reported failure, so it is fatal only at the root of an
extraction: whether a package can be extracted depends on its own fault alone (`extract_of_sound`).
Looking for a package takes no notice of faults at all (`find?_mend`).
-/

namespace GettextTemplate

namespace Node

theorem toEntities_eq_map (nodes : List Node) : toEntities nodes = nodes.map toEntity := by
  induction nodes with
  | nil => rfl
  | cons node rest ih => rw [toEntities, ih, List.map_cons]

theorem answers_toEntity (node : Node) : node.toEntity.answers = node.answers := by
  cases node
  rfl

theorem children_toEntity (node : Node) : node.toEntity.children = node.children.map toEntity := by
  cases node
  exact toEntities_eq_map _

/-- The failure that a fault is told as. -/
def failure? (node : Node) : Option SourceFailure :=
  node.fault.map fun fault => .reported (node.ident ++ ": " ++ fault)

theorem failureOf_answer {α : Type} (node : Node) (value : α) :
    failureOf (node.answer value) = node.failure? := by
  unfold answer failure?
  cases node.fault <;> rfl

/-- A node fails every question in the same way, the first one included. -/
theorem failure?_answers (node : Node) : node.answers.failure? = node.failure? := by
  have hquestion (question : Question) : node.answers.failureAt? question = node.failure? := by
    cases question <;> exact failureOf_answer node _
  obtain ⟨rest, hquestions⟩ := node.answers.questions_start
  rw [Answers.failure?, hquestions]
  cases hfailure : node.failure? with
  | some e => rw [List.findSome?_cons, hquestion, hfailure]
  | none =>
    rw [List.findSome?_eq_none_iff]
    intro question _
    rw [hquestion, hfailure]

/-- All that is visited below a node is made of nodes. -/
theorem exists_of_visited {isOpen : Answers → Bool} {node : Node} {visit : Visit}
    (h : node.toEntity.Visited isOpen visit) : ∃ inner : Node, visit.entity = inner.toEntity := by
  induction h with
  | root => exact ⟨node, rfl⟩
  | child _ _ listed ih =>
    obtain ⟨inner, hinner⟩ := ih
    simp only at hinner
    rw [hinner, children_toEntity, List.getElem?_map, Option.map_eq_some_iff] at listed
    obtain ⟨child, _, rfl⟩ := listed
    exact ⟨child, rfl⟩

theorem extract_of_faulty {node : Node} {fault : String} (hfault : node.fault = some fault)
    (scope : String) :
    node.toEntity.extract scope = .error (.reported (node.ident ++ ": " ++ fault)) := by
  apply Entity.extract_of_failure
  rw [answers_toEntity, failure?_answers, failure?, hfault]
  rfl

/-- Without a fault of its own a node can be extracted, whatever is the matter with those below. -/
theorem extract_of_sound {node : Node} (hfault : node.fault = none) (scope : String) :
    ∃ x, node.toEntity.extract scope = .ok x := by
  cases hextract : node.toEntity.extract scope with
  | ok x => exact ⟨x, rfl⟩
  | error e =>
    exfalso
    rcases Entity.extract_eq_error.mp hextract with hroot | ⟨_, visit, hends⟩
    · rw [answers_toEntity, failure?_answers, failure?, hfault] at hroot
      cases hroot
    · obtain ⟨inner, hinner⟩ := exists_of_visited hends.visited
      have hfailure := hends.failure
      rw [hinner, answers_toEntity, failure?_answers, failure?, Option.map_eq_some_iff] at hfailure
      obtain ⟨fault, _, rfl⟩ := hfailure
      cases hends.notReported

mutual

/-- A node without its fault and without those below it. -/
def mend : Node → Node
  | ⟨kind, ident, comment, builtIn, children, annotations, _⟩ =>
    ⟨kind, ident, comment, builtIn, mendAll children, annotations, none⟩

def mendAll : List Node → List Node
  | [] => []
  | node :: rest => node.mend :: mendAll rest

end

theorem mendAll_eq_map (nodes : List Node) : mendAll nodes = nodes.map mend := by
  induction nodes with
  | nil => rfl
  | cons node rest ih => rw [mendAll, ih, List.map_cons]

@[simp] theorem fault_mend (node : Node) : node.mend.fault = none := by
  cases node
  rfl

theorem find?_mendAll (nodes : List Node) (ident : String) :
    (mendAll nodes).find? (isPackage ident) = (nodes.find? (isPackage ident)).map mend := by
  have hsame : isPackage ident ∘ mend = isPackage ident := by
    funext node
    cases node
    rfl
  rw [mendAll_eq_map, List.find?_map, hsame]

theorem subpackage?_mend (node : Node) (ident : String) :
    node.mend.subpackage? ident = (node.subpackage? ident).map mend := by
  cases node
  exact find?_mendAll _ ident

end Node

namespace ModelTree

/-- A tree without any faults. -/
def mend (tree : ModelTree) : ModelTree := ⟨Node.mendAll tree.packages⟩

theorem descend_mend (node : Node) (idents : List String) :
    descend node.mend idents = (descend node idents).map Node.mend := by
  induction idents generalizing node with
  | nil => rfl
  | cons ident rest ih =>
    rw [descend, descend, Node.subpackage?_mend]
    cases node.subpackage? ident with
    | none => rfl
    | some next => exact ih next

/-- Faults neither hide a package nor put another one in its place. -/
theorem find?_mend (tree : ModelTree) (name : String) :
    tree.mend.find? name = (tree.find? name).map Node.mend := by
  unfold find?
  cases nameParts name with
  | nil => rfl
  | cons first rest =>
    change ((Node.mendAll tree.packages).find? _).bind _ =
      ((tree.packages.find? _).bind _).map Node.mend
    rw [Node.find?_mendAll]
    cases tree.packages.find? (Node.isPackage first) with
    | none => rfl
    | some package => exact descend_mend package rest

variable {tree : ModelTree} {package : String}

theorem find_source (tree : ModelTree) (name : String) :
    tree.source.find name = .ok ((tree.find? name).map Node.toEntity) := rfl

theorem collection_of_missing (hfind : tree.find? package = none) :
    tree.source.collection package = .error (.packageNotFound package) := by
  rw [Source.collection, find_source, hfind]
  rfl

variable {node : Node}

theorem find_source_of_find? (hfind : tree.find? package = some node) :
    tree.source.find package = .ok (some node.toEntity) := by
  rw [find_source, hfind]
  rfl

theorem collection_of_faulty {fault : String} (hfind : tree.find? package = some node)
    (hfault : node.fault = some fault) :
    tree.source.collection package = .error (.sourceReported (node.ident ++ ": " ++ fault)) := by
  rw [Source.collection_of_find (find_source_of_find? hfind), Node.extract_of_faulty hfault]
  rfl

theorem collection_of_extract {x : Extraction} (hfind : tree.find? package = some node)
    (hextract : node.toEntity.extract package = .ok x) :
    tree.source.collection package = .ok x.collection :=
  Source.collection_eq_ok_iff.mpr ⟨_, x, find_source_of_find? hfind, hextract, rfl⟩

end ModelTree

end GettextTemplate
