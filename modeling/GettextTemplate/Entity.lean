/-!
Entities of a model tree as a remote or local source answers for them. Each answer may be a
failure of the source, and the children of an entity are known apart from the question whether
the source can list them.
-/

namespace GettextTemplate

/-- What an entity is. Containers (packages, models) hold other entities and give a scope. -/
inductive Kind where
  | container
  | component
  | parameter
  | variable
  | other
deriving DecidableEq

namespace Kind

def isContainer : Kind → Bool
  | .container => true
  | _ => false

def all : List Kind := [.container, .component, .parameter, .variable, .other]

def name : Kind → String
  | .container => "container"
  | .component => "component"
  | .parameter => "parameter"
  | .variable => "variable"
  | .other => "other"

def ofName? (name : String) : Option Kind :=
  all.find? fun kind => kind.name == name

/-- Whether an entity may have texts of its own that are worth a message. Only a built-in container
has none. -/
def hasOwnText (kind : Kind) (builtIn : Bool) : Bool :=
  !(kind.isContainer && builtIn)

end Kind

inductive SourceFailure where
  /-- The source could not be reached. -/
  | unavailable (reason : String)
  /-- The source answered, and its answer reports a failure. -/
  | reported (reason : String)
  /-- The source answered with data that makes no sense. -/
  | malformed (reason : String)
deriving DecidableEq

namespace SourceFailure

def message : SourceFailure → String
  | .unavailable reason => "source unavailable: " ++ reason
  | .reported reason => "source reported failure: " ++ reason
  | .malformed reason => "malformed source data: " ++ reason

/-- A reported failure concerns one entity, and its siblings can still be asked. -/
def isReported : SourceFailure → Bool
  | .reported _ => true
  | _ => false

end SourceFailure

abbrev Answer (α : Type) := Except SourceFailure α

/-- All that a source says about one entity, apart from its children. -/
structure Answers where
  kind : Answer Kind
  ident : Answer String
  comment : Answer String
  builtIn : Answer Bool
  /-- The raw value under a key, if there is one. -/
  annotation : String → Answer (Option String)
  /-- Whether the children can be listed. -/
  listing : Answer Unit

inductive Entity where
  | mk (answers : Answers) (children : List Entity)

namespace Entity

def answers : Entity → Answers
  | .mk answers _ => answers

def children : Entity → List Entity
  | .mk _ children => children

end Entity

/-- A source finds the entity that has a name, if there is one. -/
structure Source where
  find : String → Answer (Option Entity)

end GettextTemplate
