import GettextTemplate.Json.Error

/-!
Reading from the front of a list of bytes. A reader that succeeds leaves fewer bytes than it was
given, and says so in its type, so a loop over readers ends.
-/

namespace GettextTemplate.Json

abbrev Bytes := List UInt8

/-- A value taken from the front of some bytes, and the bytes after it. -/
structure Taken (α : Type) (bytes : Bytes) where
  value : α
  rest : Bytes
  fewer : rest.length < bytes.length

namespace Taken

variable {α β : Type} {bytes : Bytes}

/-- The outcome of reading on where a first reader has stopped. -/
def andThen (first : Taken α bytes) (second : Taken β first.rest) : Taken β bytes :=
  ⟨second.value, second.rest, Nat.lt_trans second.fewer first.fewer⟩

def map (f : α → β) (taken : Taken α bytes) : Taken β bytes :=
  ⟨f taken.value, taken.rest, taken.fewer⟩

/-- The same outcome, seen from further in front. -/
def within {shorter : Bytes} (taken : Taken α shorter) (h : shorter.length ≤ bytes.length) :
    Taken α bytes :=
  ⟨taken.value, taken.rest, Nat.lt_of_lt_of_le taken.fewer h⟩

/-- The first byte alone, taken for a value. -/
def one {b : UInt8} (value : α) : Taken α (b :: bytes) :=
  ⟨value, bytes, Nat.lt_succ_self _⟩

/-- The same outcome, seen from one byte further in front. -/
def behind {b : UInt8} (taken : Taken α bytes) : Taken α (b :: bytes) :=
  taken.within (Nat.le_succ _)

end Taken

abbrev Reader (α : Type) := (bytes : Bytes) → Except Error (Taken α bytes)

def ascii (c : Char) : UInt8 := c.toUInt8

def isSpace (b : UInt8) : Bool :=
  b = ascii ' ' || b = ascii '\t' || b = ascii '\n' || b = ascii '\r'

def isDigit (b : UInt8) : Bool := ascii '0' ≤ b && b ≤ ascii '9'

/-- The first byte that is not white space, if there is one. -/
def token? : (bytes : Bytes) → Option (Taken UInt8 bytes)
  | [] => none
  | b :: rest =>
    if isSpace b then (token? rest).map Taken.behind else some (.one b)

/-- Reads the letters of a word whose first letter has been read. -/
def word (first : UInt8) :
    List Char → (bytes : Bytes) → Except Error (Taken Unit (first :: bytes))
  | [], _ => .ok (.one ())
  | _ :: _, [] => .error .endInValue
  | c :: letters, b :: rest =>
    if b = ascii c then return (← word b letters rest).behind else .error .expectedWord

def colon : Reader Unit := fun bytes =>
  match token? bytes with
  | none => .error .endInObject
  | some t => if t.value = ascii ':' then .ok (t.map fun _ => ()) else .error .expectedColon

end GettextTemplate.Json
