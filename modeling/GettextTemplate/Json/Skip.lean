import GettextTemplate.Json.Number
import GettextTemplate.Json.Text

/-!
Passing over a value that nobody asked for. The value is checked for its form and not decoded.
The brackets that are open are held as a list, innermost first, so their number has no limit.
-/

namespace GettextTemplate.Json

inductive Bracket where
  | list
  | object
deriving DecidableEq

namespace Bracket

def closing : Bracket → UInt8
  | .list => ascii ']'
  | .object => ascii '}'

def endInside : Bracket → Error
  | .list => .endInList
  | .object => .endInObject

def expectedComma : Bracket → Error
  | .list => .expectedListComma
  | .object => .expectedObjectComma

end Bracket

/-- Where a value ends that may close brackets: either all brackets are closed, or another value
is due inside those still open. -/
structure Due (bytes : Bytes) where
  stillOpen : Option (List Bracket)
  rest : Bytes
  notMore : rest.length ≤ bytes.length

def skipKey : Reader Unit := fun bytes =>
  match token? bytes with
  | none => .error .endInObject
  | some t =>
    if t.value = ascii '"' then do
      let text ← skipText t.rest
      let next ← colon text.rest
      return t.andThen (text.andThen next)
    else .error .keyNotString

/-- Reads on after a value: a comma makes another one due, and a closing bracket ends the value
around it. -/
def afterValue : (stillOpen : List Bracket) → (bytes : Bytes) → Except Error (Due bytes)
  | [], bytes => .ok ⟨none, bytes, Nat.le_refl _⟩
  | bracket :: outer, bytes =>
    match token? bytes with
    | none => .error bracket.endInside
    | some t =>
      if t.value = ascii ',' then
        match bracket with
        | .list => .ok ⟨some (.list :: outer), t.rest, Nat.le_of_lt t.fewer⟩
        | .object => do
          let key ← skipKey t.rest
          return ⟨some (.object :: outer), key.rest,
            Nat.le_of_lt (Nat.lt_trans key.fewer t.fewer)⟩
      else if t.value = bracket.closing then do
        let due ← afterValue outer t.rest
        return ⟨due.stillOpen, due.rest, Nat.le_trans due.notMore (Nat.le_of_lt t.fewer)⟩
      else .error bracket.expectedComma

/-- Reads on after an opening bracket. An empty list or object is a value at once. -/
def afterOpening (bracket : Bracket) (outer : List Bracket) (bytes : Bytes) :
    Except Error (Due bytes) :=
  match token? bytes with
  | none => .error bracket.endInside
  | some t =>
    if t.value = bracket.closing then do
      let due ← afterValue outer t.rest
      return ⟨due.stillOpen, due.rest, Nat.le_trans due.notMore (Nat.le_of_lt t.fewer)⟩
    else
      match bracket with
      | .list => .ok ⟨some (.list :: outer), bytes, Nat.le_refl _⟩
      | .object => do
        let key ← skipKey bytes
        return ⟨some (.object :: outer), key.rest, Nat.le_of_lt key.fewer⟩

def skipScalar : Reader Unit := fun bytes =>
  match token? bytes with
  | none => .error .endInValue
  | some ⟨b, rest, fewer⟩ =>
    let here {α : Type} (t : Except Error (Taken α (b :: rest))) :
        Except Error (Taken Unit bytes) :=
      t.map fun t => (t.map fun _ => ()).within (by simp only [List.length_cons]; omega)
    if b = ascii 'n' then here (word b ['u', 'l', 'l'] rest)
    else if b = ascii 't' then here (word b ['r', 'u', 'e'] rest)
    else if b = ascii 'f' then here (word b ['a', 'l', 's', 'e'] rest)
    else if b = ascii '"' then here ((skipText rest).map Taken.behind)
    else if b = ascii '-' then here ((skipNumber rest).map Taken.behind)
    else if isDigit b then here (skipNumber (b :: rest))
    else .error .expectedValue

def opening? (b : UInt8) : Option Bracket :=
  if b = ascii '[' then some .list else if b = ascii '{' then some .object else none

/-- Reads a scalar or an opening bracket, and what stands after it up to the next value. -/
def skipStep (stillOpen : List Bracket) (bytes : Bytes) :
    Except Error (Taken (Option (List Bracket)) bytes) := do
  let opened := (token? bytes).bind fun t =>
    (opening? t.value).map fun bracket => t.map fun _ => bracket
  match opened with
  | some t =>
    let due ← afterOpening t.value stillOpen t.rest
    return ⟨due.stillOpen, due.rest, Nat.lt_of_le_of_lt due.notMore t.fewer⟩
  | none =>
    let t ← skipScalar bytes
    let due ← afterValue stillOpen t.rest
    return ⟨due.stillOpen, due.rest, Nat.lt_of_le_of_lt due.notMore t.fewer⟩

/-- Passes over the values that are due inside open brackets, to the last bracket's end. -/
def skipWithin (stillOpen : List Bracket) : Reader Unit := fun bytes => do
  let step ← skipStep stillOpen bytes
  match step with
  | ⟨none, rest, fewer⟩ => return ⟨(), rest, fewer⟩
  | ⟨some brackets, rest, fewer⟩ =>
    let last ← skipWithin brackets rest
    return last.within (Nat.le_of_lt fewer)
termination_by bytes => bytes.length

def skipValue : Reader Unit := skipWithin []

end GettextTemplate.Json
