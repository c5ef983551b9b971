import GettextTemplate.Json.Skip

/-!
Readers of values of a given shape. Each names what it expects when it meets a value of another
type. A reader of lists, maps or records is given the reader of what is inside, or nothing if no
more brackets may be opened.
-/

namespace GettextTemplate.Json

/-- Names a value at its first byte. Scalars are read to their end, and their own errors come
first. -/
def found (first : UInt8) (rest : Bytes) : Except Error Found :=
  if first = ascii 'n' then (word first ['u', 'l', 'l'] rest).map fun _ => .null
  else if first = ascii 't' then (word first ['r', 'u', 'e'] rest).map fun _ => .boolean true
  else if first = ascii 'f' then
    (word first ['a', 'l', 's', 'e'] rest).map fun _ => .boolean false
  else if first = ascii '"' then (readText rest).map fun text => .string text.value
  else if first = ascii '-' then Number.read true rest
  else if isDigit first then Number.read false (first :: rest)
  else if first = ascii '[' then .ok .sequence
  else if first = ascii '{' then .ok .map
  else .error .expectedValue

def mismatch (expected : String) (first : UInt8) (rest : Bytes) : Error :=
  match found first rest with
  | .ok value => .wrongType value expected
  | .error e => e

def readString : Reader String := fun bytes =>
  match token? bytes with
  | none => .error .endInValue
  | some t =>
    if t.value = ascii '"' then return t.andThen (← readText t.rest)
    else .error (mismatch "a string" t.value t.rest)

/-- Reads a word at its first letter, which has been found after white space. -/
def wordAt {α : Type} {bytes : Bytes} (t : Taken UInt8 bytes) (letters : List Char) (value : α) :
    Except Error (Taken α bytes) := do
  let last ← word t.value letters t.rest
  return ⟨value, last.rest, by
    have := last.fewer
    have := t.fewer
    simp only [List.length_cons] at *; omega⟩

def readBool : Reader Bool := fun bytes =>
  match token? bytes with
  | none => .error .endInValue
  | some t =>
    if t.value = ascii 't' then wordAt t ['r', 'u', 'e'] true
    else if t.value = ascii 'f' then wordAt t ['a', 'l', 's', 'e'] false
    else .error (mismatch "a boolean" t.value t.rest)

def readUnit : Reader Unit := fun bytes =>
  match token? bytes with
  | none => .error .endInValue
  | some t =>
    if t.value = ascii 'n' then wordAt t ['u', 'l', 'l'] ()
    else .error (mismatch "unit" t.value t.rest)

def readOptional {α : Type} (reader : Reader α) : Reader (Option α) := fun bytes =>
  match token? bytes with
  | none => .error .endInValue
  | some t =>
    if t.value = ascii 'n' then wordAt t ['u', 'l', 'l'] none
    else return (← reader bytes).map some

/-- Reads the next element of an array, or none at its closing bracket. All but the first follow a
comma. -/
def nextElement {α : Type} (element : Reader α) (isFirst : Bool) : Reader (Option α) :=
  fun bytes =>
  match token? bytes with
  | none => .error .endInList
  | some t =>
    if t.value = ascii ']' then .ok (t.map fun _ => none)
    else if isFirst then return (← element bytes).map some
    else if t.value = ascii ',' then
      match token? t.rest with
      | none => .error .endInValue
      | some next =>
        if next.value = ascii ']' then .error .trailingComma
        else return t.andThen ((← element t.rest).map some)
    else .error .expectedListComma

/-- Reads the next key of an object, or none at its closing bracket. All but the first follow a
comma. -/
def nextKey (isFirst : Bool) : Reader (Option String) := fun bytes =>
  match token? bytes with
  | none => .error .endInObject
  | some t =>
    if t.value = ascii '}' then .ok (t.map fun _ => none)
    else if isFirst then
      if t.value = ascii '"' then return t.andThen ((← readText t.rest).map some)
      else .error .keyNotString
    else if t.value = ascii ',' then
      match token? t.rest with
      | none => .error .endInValue
      | some next =>
        if next.value = ascii '"' then
          return t.andThen (next.andThen ((← readText next.rest).map some))
        else if next.value = ascii '}' then .error .trailingComma
        else .error .keyNotString
    else .error .expectedObjectComma

/-- Reads the elements of an array up to its closing bracket. Those read so far are held last
first. -/
def elements {α : Type} (element : Reader α) (isFirst : Bool) (done : List α) : Reader (List α) :=
  fun bytes => do
  let next ← nextElement element isFirst bytes
  match next with
  | ⟨none, rest, fewer⟩ => return ⟨done.reverse, rest, fewer⟩
  | ⟨some value, rest, fewer⟩ =>
    let later ← elements element false (value :: done) rest
    return later.within (Nat.le_of_lt fewer)
termination_by bytes => bytes.length

/-- Reads the pairs of an object up to its closing bracket, in the order of the text. -/
def members {α : Type} (value : Reader α) (isFirst : Bool) (done : List (String × α)) :
    Reader (List (String × α)) := fun bytes => do
  let next ← nextKey isFirst bytes
  match next with
  | ⟨none, rest, fewer⟩ => return ⟨done.reverse, rest, fewer⟩
  | ⟨some key, rest, fewer⟩ =>
    let separator ← colon rest
    let read ← value separator.rest
    let later ← members value false ((key, read.value) :: done) read.rest
    return later.within (by
      have := read.fewer
      have := separator.fewer
      omega)
termination_by bytes => bytes.length
decreasing_by
  have := read.fewer
  have := separator.fewer
  omega

/-- Reads an array whose elements are read by `inside`. -/
def readList {α : Type} (inside : Option (Reader α)) : Reader (List α) := fun bytes =>
  match token? bytes with
  | none => .error .endInValue
  | some t =>
    if t.value = ascii '[' then
      match inside with
      | none => .error .tooDeep
      | some element => return t.andThen (← elements element true [] t.rest)
    else .error (mismatch "a sequence" t.value t.rest)

/-- Reads an object with any keys, whose values are read by `inside`. -/
def readMap {α : Type} (inside : Option (Reader α)) : Reader (List (String × α)) := fun bytes =>
  match token? bytes with
  | none => .error .endInValue
  | some t =>
    if t.value = ascii '{' then
      match inside with
      | none => .error .tooDeep
      | some value => return t.andThen (← members value true [] t.rest)
    else .error (mismatch "a map" t.value t.rest)

/-- Reads a text: a value with nothing but white space around it. -/
def readWhole {α : Type} (reader : Reader α) (bytes : Bytes) : Except Error α := do
  let t ← reader bytes
  match token? t.rest with
  | none => return t.value
  | some _ => .error .trailingCharacters

end GettextTemplate.Json
