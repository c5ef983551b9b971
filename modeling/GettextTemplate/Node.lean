import GettextTemplate.Annotations
import GettextTemplate.Entity

/-!
Nodes of a stored model tree. A node answers as an entity does; one that carries a fault answers
every question with it.
-/

namespace GettextTemplate

structure Node where
  kind : Kind
  ident : String
  comment : String := ""
  builtIn : Bool := false
  children : List Node := []
  annotations : Annotations := .empty
  fault : Option String := none

namespace Node

def plain (kind : Kind) (ident : String) : Node := { kind, ident }

def setComment (node : Node) (comment : String) : Node := { node with comment }

def annotate (node : Node) (key value : String) : Node :=
  { node with annotations := node.annotations.insert key value }

def markBuiltIn (node : Node) : Node := { node with builtIn := true }

def setFault (node : Node) (fault : String) : Node := { node with fault := some fault }

def addChild (node child : Node) : Node := { node with children := node.children ++ [child] }

/-- Whether a node is a container with a given ident. -/
def isPackage (ident : String) (node : Node) : Bool :=
  node.kind.isContainer && node.ident == ident

/-- The first container with an ident among the children. -/
def subpackage? (node : Node) (ident : String) : Option Node :=
  node.children.find? (isPackage ident)

/-- An answer of the node: its fault, if it has one, and else the value. -/
def answer {α : Type} (node : Node) (value : α) : Answer α :=
  match node.fault with
  | some fault => .error (.reported (node.ident ++ ": " ++ fault))
  | none => .ok value

def answers (node : Node) : Answers where
  kind := node.answer node.kind
  ident := node.answer node.ident
  comment := node.answer node.comment
  builtIn := node.answer node.builtIn
  annotation key := node.answer (node.annotations.get? key)
  listing := node.answer ()

mutual

def toEntity : Node → Entity
  | ⟨kind, ident, comment, builtIn, children, annotations, fault⟩ =>
    .mk (answers ⟨kind, ident, comment, builtIn, children, annotations, fault⟩)
      (toEntities children)

def toEntities : List Node → List Entity
  | [] => []
  | node :: rest => node.toEntity :: toEntities rest

end

end Node

end GettextTemplate
