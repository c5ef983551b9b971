import GettextTemplate.Json.Text
import GettextTemplate.Message
import GettextTemplate.ModelTree

/-!
Writing stored model trees as compact JSON texts. All members are written, in a fixed order,
except a fault that is not there.
-/

namespace GettextTemplate

open Json

def commaSeparated (items : List String) : String := ",".intercalate items

/-- A member of an object whose value is written already. -/
def written (key value : String) : String := quoted key ++ ":" ++ value

def bracketed (opening : String) (items : List String) (closing : String) : String :=
  opening ++ commaSeparated items ++ closing

namespace Kind

def toJson (kind : Kind) : String := quoted kind.name

end Kind

namespace Annotations

def toJson (annotations : Annotations) : String :=
  bracketed "\x7b" (annotations.pairs.map fun (key, value) => written key (quoted value)) "\x7d"

end Annotations

namespace Node

mutual

def toJson : Node → String
  | ⟨kind, ident, comment, builtIn, children, annotations, fault⟩ =>
    bracketed "\x7b" ([
      written "kind" kind.toJson,
      written "ident" (quoted ident),
      written "comment" (quoted comment),
      written "built_in" (if builtIn then "true" else "false"),
      written "children" (bracketed "[" (toJsons children) "]"),
      written "annotations" annotations.toJson] ++
      (fault.map fun text => written "fault" (quoted text)).toList) "\x7d"

def toJsons : List Node → List String
  | [] => []
  | node :: rest => node.toJson :: toJsons rest

end

end Node

namespace Message

def toJson (m : Message) : String :=
  bracketed "\x7b" [written "scope" (quoted m.scope), written "text" (quoted m.text)] "\x7d"

end Message

namespace ModelTree

def toJson (tree : ModelTree) : String :=
  bracketed "\x7b"
    [written "packages" (bracketed "[" (Node.toJsons tree.packages) "]")] "\x7d"

end ModelTree

end GettextTemplate
