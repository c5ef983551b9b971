import GettextTemplate.Json.Record
import GettextTemplate.Message
import GettextTemplate.ModelTree

/-!
Reading stored model trees from JSON texts. At most 127 brackets may be open at a time.
-/

namespace GettextTemplate

open Json

/-- The number of brackets that may be open at a time. -/
def maxDepth : Nat := 127

namespace Kind

def ofKey (name : String) : Except Error Kind :=
  match ofName? name with
  | some kind => .ok kind
  | none => .error (.unknownVariant name (all.map Kind.name))

/-- Reads a kind from its name, or from an object with the name as its only key and no value under
it. -/
def reader (room : Nat) : Reader Kind := fun bytes =>
  match token? bytes with
  | none => .error .endInValue
  | some t =>
    if t.value = ascii '"' then do
      let name ← readText t.rest
      let kind ← ofKey name.value
      return t.andThen (name.map fun _ => kind)
    else if t.value = ascii '{' then
      if room = 0 then .error .tooDeep else
      match token? t.rest with
      | none => .error .endInObject
      | some quote =>
        if quote.value = ascii '}' then .error .expectedValue
        else if quote.value ≠ ascii '"' then .error .keyNotString
        else do
          let name ← readText quote.rest
          let kind ← ofKey name.value
          let separator ← colon name.rest
          let value ← readUnit separator.rest
          match token? value.rest with
          | none => .error .endInObject
          | some close =>
            if close.value = ascii '}' then
              return t.andThen (quote.andThen (name.andThen (separator.andThen (value.andThen
                (close.map fun _ => kind)))))
            else .error .expectedValue
    else .error .expectedValue

end Kind

namespace Annotations

/-- The annotations of a list of pairs. Of two with the same key the later counts. -/
def ofList (pairs : List (String × String)) : Annotations :=
  pairs.foldl (fun annotations (key, value) => annotations.insert key value) .empty

end Annotations

namespace Node

/-- A node while it is read: its kind and its ident may still be missing. -/
structure Draft where
  kind : Option Kind := none
  ident : Option String := none
  comment : String := ""
  builtIn : Bool := false
  children : List Node := []
  annotations : Annotations := .empty
  fault : Option String := none

namespace Draft

def complete (draft : Draft) : Except String Node :=
  match draft.kind, draft.ident with
  | none, _ => .error "kind"
  | _, none => .error "ident"
  | some kind, some ident =>
    .ok ⟨kind, ident, draft.comment, draft.builtIn, draft.children, draft.annotations,
      draft.fault⟩

end Draft

/-- A field whose value is read and then put into a draft. -/
def field {α : Type} (name : String) (reader : Reader α) (put : α → Draft → Draft) :
    RecordField Draft where
  name := name
  read bytes := return (← reader bytes).map put

/-- The fields of a node, inside whose bracket `room` others may be opened. -/
def schema (room : Nat) (children : Reader (List Node)) : Schema Draft Node where
  fields := [
    field "kind" (Kind.reader room) fun kind draft => { draft with kind := some kind },
    field "ident" readString fun ident draft => { draft with ident := some ident },
    field "comment" readString fun comment draft => { draft with comment },
    field "built_in" readBool fun builtIn draft => { draft with builtIn },
    field "children" children fun children draft => { draft with children },
    field "annotations" (readMap (if room = 0 then none else some readString))
      fun pairs draft => { draft with annotations := .ofList pairs },
    field "fault" (readOptional readString) fun fault draft => { draft with fault }]
  blank := {}
  complete := Draft.complete

mutual

/-- Reads a node where `room` brackets may be opened. -/
def reader : (room : Nat) → Reader Node
  | 0 => readRecord (δ := Draft) "struct ModelNode" none
  | room + 1 => readRecord "struct ModelNode" (some (schema room (listReader room)))

/-- Reads a list of nodes where `room` brackets may be opened. -/
def listReader : (room : Nat) → Reader (List Node)
  | 0 => readList none
  | room + 1 => readList (some (reader room))

end

def ofJson (text : Bytes) : Except Error Node := readWhole (reader maxDepth) text

end Node

namespace Kind

def ofJson (text : Bytes) : Except Error Kind := readWhole (reader maxDepth) text

end Kind

namespace Message

def schema : Schema (Option String × Option String) Message where
  fields := [
    ⟨"scope", fun bytes => return (← readString bytes).map fun scope draft =>
      (some scope, draft.2)⟩,
    ⟨"text", fun bytes => return (← readString bytes).map fun text draft =>
      (draft.1, some text)⟩]
  blank := (none, none)
  complete
    | (some scope, some text) => .ok ⟨scope, text⟩
    | (none, _) => .error "scope"
    | (_, none) => .error "text"

def ofJson (text : Bytes) : Except Error Message :=
  readWhole (readRecord "struct TranslationEntry" (some schema)) text

end Message

namespace ModelTree

/-- The only field of a stored tree, which may be left out. -/
def schema (packages : Reader (List Node)) : Schema (List Node) ModelTree where
  fields := [⟨"packages", fun bytes => return (← packages bytes).map fun nodes _ => nodes⟩]
  blank := []
  complete packages := .ok ⟨packages⟩

def readJson (text : Bytes) : Except Error ModelTree :=
  readWhole (readRecord "struct SnapshotSource" (some (schema (Node.listReader (maxDepth - 1)))))
    text

/-- The tree in a text, which makes no sense to a run when it cannot be read. -/
def ofJson (text : Bytes) : Answer ModelTree :=
  (readJson text).mapError fun e => .malformed e.message

end ModelTree

end GettextTemplate
