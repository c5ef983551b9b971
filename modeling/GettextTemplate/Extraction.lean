import GettextTemplate.Entity
import GettextTemplate.Literal
import GettextTemplate.Message

/-!
The messages in a model tree. `Answers.share` is the part of one entity, asked for in a fixed
order, and `Entity.extract` adds up the shares of a tree in pre-order. A failure that the source
reports for an entity below the root costs that entity's subtree and nothing else; any other
failure ends the extraction.
-/

namespace GettextTemplate

/-- Annotations that belong to the definition of a container. -/
def definitionKeys : List String :=
  ["Documentation.info", "Documentation.revisions", "obsolete", "missingInnerMessage",
    "unassignedMessage"]

/-- Annotations for dialogs, which any entity may carry. -/
def dialogKeys : List String :=
  ["Dialog.tab", "Dialog.group", "Dialog.loadSelector.filter", "Dialog.loadSelector.caption",
    "Dialog.saveSelector.filter", "Dialog.saveSelector.caption"]

/-- What one entity gives by itself: its messages and, for a container, the scope of its
children. -/
structure Share where
  messages : List Message
  inner : Option String

namespace Answers

/-- A comment is plain text, so each of its quotes is escaped. An empty one gives no message. -/
def commentMessages (answers : Answers) (scope : String) : Answer (List Message) := do
  let comment ← answers.comment
  return if comment.isEmpty then []
    else [⟨scope, String.ofList (Literal.escapeEveryQuote comment.toList)⟩]

/-- The message in a raw annotation value. An empty literal gives none. -/
def annotationMessage (scope raw : String) : Option Message :=
  let text := Literal.content raw.toList
  if text.isEmpty then none else some ⟨scope, String.ofList (Literal.escapeUnpaired text)⟩

def annotationMessages (answers : Answers) (scope : String) :
    List String → Answer (List Message)
  | [] => .ok []
  | key :: keys => do
    let raw ← answers.annotation key
    let later ← answers.annotationMessages scope keys
    return (raw.bind (annotationMessage scope)).toList ++ later

/-- A container speaks in its own scope, except that its comment belongs to the scope it is
found in. A built-in one gives only the annotations of its definition. -/
def containerShare (answers : Answers) (scope ident : String) : Answer Share := do
  let builtIn ← answers.builtIn
  let speaks := Kind.container.hasOwnText builtIn
  let comment ← if speaks then answers.commentMessages scope else .ok []
  let definition ← answers.annotationMessages ident definitionKeys
  let dialog ← if speaks then answers.annotationMessages ident dialogKeys else .ok []
  answers.listing
  return ⟨comment ++ definition ++ dialog, some ident⟩

/-- A leaf speaks in the scope it is found in, and nobody asks whether it is built-in. -/
def leafShare (answers : Answers) (scope : String) : Answer Share := do
  let comment ← answers.commentMessages scope
  let dialog ← answers.annotationMessages scope dialogKeys
  return ⟨comment ++ dialog, none⟩

/-- The part of one entity. The first failing answer is the failure of the share. -/
def share (answers : Answers) (scope : String) : Answer Share := do
  let kind ← answers.kind
  let ident ← answers.ident
  if kind.isContainer then answers.containerShare scope ident else answers.leafShare scope

/-- The scope in which an entity below the root is extracted: a container's own, and for a leaf
the one around it. -/
def scopeWithin (answers : Answers) (scope : String) : Answer String := do
  let kind ← answers.kind
  if kind.isContainer then answers.ident else return scope

end Answers

/-- Messages in the order found, with repetitions, and what was counted on the way. -/
structure Extraction where
  messages : List Message
  /-- Entities that gave their share. -/
  visited : Nat
  /-- Subtrees given up after a reported failure. -/
  skipped : Nat
deriving DecidableEq

namespace Extraction

def empty : Extraction := ⟨[], 0, 0⟩

def append (a b : Extraction) : Extraction :=
  ⟨a.messages ++ b.messages, a.visited + b.visited, a.skipped + b.skipped⟩

instance : Append Extraction := ⟨append⟩

def lost : Extraction := ⟨[], 0, 1⟩

def single (messages : List Message) : Extraction := ⟨messages, 1, 0⟩

/-- A failure below the root that the source itself reports becomes a loss. -/
def tolerate : Answer Extraction → Answer Extraction
  | .error e => if e.isReported then .ok lost else .error e
  | found => found

end Extraction

mutual

/-- The extraction of a tree whose root is found in a scope. -/
def Entity.extract (scope : String) : Entity → Answer Extraction
  | .mk answers children => do
    let share ← answers.share scope
    match share.inner with
    | none => return .single share.messages
    | some inner =>
      let below ← Entity.extractAll inner children
      return .single share.messages ++ below

def Entity.extractAll (scope : String) : List Entity → Answer Extraction
  | [] => .ok .empty
  | child :: rest => do
    let first ← Extraction.tolerate do
      let inner ← child.answers.scopeWithin scope
      child.extract inner
    let later ← Entity.extractAll scope rest
    return first ++ later

end

end GettextTemplate
