import GettextTemplate.Catalog
import GettextTemplate.Extraction

/-!
Collections: the distinct messages of a package, together with the counts of the work. A package
is looked up in a source, its entities are extracted, and repeated messages are dropped.
-/

namespace GettextTemplate

inductive RunError where
  | packageNotFound (name : String)
  | sourceUnavailable (reason : String)
  | sourceReported (reason : String)
  | unexpected (reason : String)
  | file (reason : String)
deriving DecidableEq

namespace RunError

def message : RunError → String
  | .packageNotFound name => "Package " ++ name ++ " not found."
  | .sourceUnavailable reason => "Tree source unavailable: " ++ reason
  | .sourceReported reason => "Tree source error: " ++ reason
  | .unexpected reason => "Unexpected failure: " ++ reason
  | .file reason => "I/O error: " ++ reason

def ofSource : SourceFailure → RunError
  | .unavailable reason => .sourceUnavailable reason
  | .reported reason => .sourceReported reason
  | .malformed reason => .unexpected reason

end RunError

structure Counts where
  visited : Nat
  /-- Messages found, repetitions included. -/
  collected : Nat
  /-- Distinct messages. -/
  unique : Nat
  skipped : Nat
deriving DecidableEq

structure Collection where
  catalog : Catalog
  counts : Counts

namespace Extraction

/-- The distinct messages of an extraction, with its counts. -/
def collection (extraction : Extraction) : Collection :=
  let catalog := Catalog.ofList extraction.messages
  ⟨catalog, ⟨extraction.visited, extraction.messages.length, catalog.size, extraction.skipped⟩⟩

end Extraction

/-- The collection of a package. Its root is extracted in the scope of the name asked for. -/
def Source.collection (source : Source) (package : String) : Except RunError Collection := do
  match ← (source.find package).mapError RunError.ofSource with
  | none => .error (.packageNotFound package)
  | some root => return (← (root.extract package).mapError RunError.ofSource).collection

end GettextTemplate
