import GettextTemplate.Node

/-!
Stored model trees. A package is named by the idents on the way to it, with dots between them.
-/

namespace GettextTemplate

structure ModelTree where
  packages : List Node := []

namespace ModelTree

/-- What a stored tree is called among the kinds of sources. -/
def sourceKind : String := "snapshot"

def descend (node : Node) : List String → Option Node
  | [] => some node
  | ident :: rest => (node.subpackage? ident).bind fun next => descend next rest

/-- The parts of a dotted name. There is always a first one, which may be empty. -/
def nameParts (name : String) : List String :=
  (name.toList.splitOn '.').map String.ofList

/-- The package with a dotted name. Faults do not hinder the search. -/
def find? (tree : ModelTree) (name : String) : Option Node :=
  match nameParts name with
  | [] => none
  | first :: rest =>
    (tree.packages.find? (Node.isPackage first)).bind fun package => descend package rest

/-- A tree as a source of entities. Looking for a package in it never fails. -/
def source (tree : ModelTree) : Source where
  find name := .ok ((tree.find? name).map Node.toEntity)

end ModelTree

end GettextTemplate
