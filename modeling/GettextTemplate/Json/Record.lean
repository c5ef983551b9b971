import GettextTemplate.Json.Reader

/-!
Records with named fields. A record is read from an object, whose members may come in any order
and may have unknown names, or from an array that holds the fields in the order of their
declaration.
-/

namespace GettextTemplate.Json

/-- A field of a record. What its reader yields is put into a draft `δ` of the record. -/
structure RecordField (δ : Type) where
  name : String
  read : Reader (δ → δ)

/-- A record that is drafted as `δ` and completed as `α`. Completion fails with the name of the
first required field that the draft lacks, and required fields are declared before the others. -/
structure Schema (δ α : Type) where
  fields : List (RecordField δ)
  blank : δ
  complete : δ → Except String α

namespace Schema

variable {δ α : Type}

/-- Reads the members of an object up to its closing bracket. A name seen before is refused before
its colon is read, and the value of an unknown name is passed over. -/
def fromObject (schema : Schema δ α) (isFirst : Bool) (seen : List String) (draft : δ) :
    Reader δ := fun bytes => do
  let next ← nextKey isFirst bytes
  match next with
  | ⟨none, rest, fewer⟩ => return ⟨draft, rest, fewer⟩
  | ⟨some name, rest, fewer⟩ =>
    match schema.fields.find? (·.name == name) with
    | some field =>
      if seen.contains name then throw (.repeatedField name)
      let separator ← colon rest
      let value ← field.read separator.rest
      let later ← schema.fromObject false (name :: seen) (value.value draft) value.rest
      return later.within (by
        have := value.fewer
        have := separator.fewer
        omega)
    | none =>
      let separator ← colon rest
      let value ← skipValue separator.rest
      let later ← schema.fromObject false seen draft value.rest
      return later.within (by
        have := value.fewer
        have := separator.fewer
        omega)
termination_by bytes => bytes.length
decreasing_by
  all_goals
    have := value.fewer
    have := separator.fewer
    omega

/-- Reads the closing bracket of an array that holds all fields. -/
def closeArray : Reader Unit := fun bytes =>
  match token? bytes with
  | none => .error .endInList
  | some t =>
    if t.value = ascii ']' then .ok (t.map fun _ => ())
    else if t.value = ascii ',' then
      match token? t.rest with
      | some next =>
        if next.value = ascii ']' then .error .trailingComma else .error .trailingCharacters
      | none => .error .trailingCharacters
    else .error .trailingCharacters

/-- Reads the given fields from an array, and its closing bracket. An array that ends early leaves
the other fields as they are. The number tells how many fields were read. -/
def fromArray (isFirst : Bool) (count : Nat) (draft : δ) :
    List (RecordField δ) → Reader (Nat × δ)
  | [], bytes => return (← closeArray bytes).map fun _ => (count, draft)
  | field :: fields, bytes => do
    let next ← nextElement field.read isFirst bytes
    match next with
    | ⟨none, rest, fewer⟩ => return ⟨(count, draft), rest, fewer⟩
    | ⟨some set, rest, fewer⟩ =>
      let later ← fromArray false (count + 1) (set draft) fields rest
      return later.within (Nat.le_of_lt fewer)

end Schema

/-- Reads a record, given what its fields are inside the bracket. -/
def readRecord {δ α : Type} (name : String) (inside : Option (Schema δ α)) : Reader α :=
  fun bytes =>
  match token? bytes with
  | none => .error .endInValue
  | some t =>
    if t.value = ascii '{' then
      match inside with
      | none => .error .tooDeep
      | some schema => do
        let read ← schema.fromObject true [] schema.blank t.rest
        match schema.complete read.value with
        | .ok value => return t.andThen (read.map fun _ => value)
        | .error missing => .error (.missingField missing)
    else if t.value = ascii '[' then
      match inside with
      | none => .error .tooDeep
      | some schema => do
        let read ← Schema.fromArray true 0 schema.blank schema.fields t.rest
        match schema.complete read.value.2 with
        | .ok value => return t.andThen (read.map fun _ => value)
        | .error _ => .error (.wrongLength read.value.1
            (name ++ " with " ++ schema.fields.length.repr ++ " elements"))
    else .error (mismatch name t.value t.rest)

end GettextTemplate.Json
