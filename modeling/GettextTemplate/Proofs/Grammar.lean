import GettextTemplate.Proofs.Values

/-!
The texts of JSON values. A syntax tree holds all that a writer is free to choose: the white space
between tokens, how each character of a string is written, and the members of an object with their
order and repetitions. So the texts of all trees are all JSON texts.
-/

namespace GettextTemplate.Json

/-- White space. -/
structure Blank where
  chars : List Char
  only : ∀ c ∈ chars, c ∈ [' ', '\t', '\n', '\r']

namespace Blank

def empty : Blank := ⟨[], by simp⟩

def bytes (blank : Blank) : Bytes := blank.chars.map ascii

def append (blank more : Blank) : Blank where
  chars := blank.chars ++ more.chars
  only c hc := (List.mem_append.mp hc).elim (blank.only c) (more.only c)

theorem bytes_empty : empty.bytes = [] := rfl

theorem bytes_append (blank more : Blank) :
    (blank.append more).bytes = blank.bytes ++ more.bytes := List.map_append

theorem isSpace_of_mem {blank : Blank} {b : UInt8} (h : b ∈ blank.bytes) : isSpace b = true := by
  have hspaces : ∀ c ∈ [' ', '\t', '\n', '\r'], isSpace (ascii c) = true := by simp [isSpace]
  obtain ⟨c, hc, rfl⟩ := List.mem_map.mp h
  exact hspaces c (blank.only c hc)

end Blank

/-- White space is passed over on the way to a token. -/
theorem first?_blank (blank : Blank) (bytes : Bytes) :
    first? (blank.bytes ++ bytes) = first? bytes := by
  have hspaces : ∀ b ∈ blank.bytes, isSpace b = true := fun b => Blank.isSpace_of_mem
  generalize blank.bytes = spaces at hspaces
  induction spaces with
  | nil => rfl
  | cons b spaces ih =>
    rw [List.forall_mem_cons] at hspaces
    rw [List.cons_append, first?_space hspaces.1, ih hspaces.2]

/-- Something with white space around it. -/
structure Spaced (α : Type) where
  before : Blank
  inside : α
  after : Blank

def Spaced.bytes {α : Type} (text : α → Bytes) (spaced : Spaced α) : Bytes :=
  spaced.before.bytes ++ text spaced.inside ++ spaced.after.bytes

theorem Spaced.bytes_append {α : Type} (text : α → Bytes) (spaced : Spaced α) (rest : Bytes) :
    spaced.bytes text ++ rest =
      spaced.before.bytes ++ (text spaced.inside ++ (spaced.after.bytes ++ rest)) := by
  simp only [bytes, List.append_assoc]

structure HexDigit where
  value : Fin 16
  isUpper : Bool := false

def HexDigit.byte (digit : HexDigit) : UInt8 :=
  ascii (if digit.isUpper then (Nat.digitChar digit.value).toUpper else Nat.digitChar digit.value)

/-- Sixteen bits, written as four digits. -/
structure CodeUnit where
  first : HexDigit
  second : HexDigit
  third : HexDigit
  fourth : HexDigit

namespace CodeUnit

def bytes (unit : CodeUnit) : Bytes :=
  [unit.first.byte, unit.second.byte, unit.third.byte, unit.fourth.byte]

def value (unit : CodeUnit) : Nat :=
  4096 * unit.first.value + 256 * unit.second.value + 16 * unit.third.value + unit.fourth.value

/-- The first half of a surrogate pair. -/
def isLeading (unit : CodeUnit) : Bool := 0xD800 ≤ unit.value && unit.value ≤ 0xDBFF

/-- The second half of a surrogate pair. -/
def isTrailing (unit : CodeUnit) : Bool := 0xDC00 ≤ unit.value && unit.value ≤ 0xDFFF

/-- The character of a surrogate pair. -/
def pair (leading trailing : CodeUnit) : Char :=
  Char.ofNat ((leading.value - 0xD800) * 0x400 + (trailing.value - 0xDC00) + 0x10000)

end CodeUnit

/-- The letters that stand for a character after a backslash. -/
def escapes : List (Char × Char) :=
  [('"', '"'), ('\\', '\\'), ('/', '/'), ('b', '\x08'), ('f', '\x0c'), ('n', '\n'), ('r', '\r'),
    ('t', '\t')]

/-- A part of a string: a character that stands for itself, one that is escaped by a letter, or a
code unit, which is a character or half of one. -/
inductive Piece where
  | plain (c : Char) (isUnescaped : c ≠ '"' ∧ c ≠ '\\' ∧ ¬ c.toNat < 0x20)
  | escape (letter c : Char) (isEscape : (letter, c) ∈ escapes)
  | coded (unit : CodeUnit)

namespace Piece

def bytes : Piece → Bytes
  | .plain c _ => String.utf8EncodeChar c
  | .escape letter _ _ => [ascii '\\', ascii letter]
  | .coded unit => ascii '\\' :: ascii 'u' :: unit.bytes

/-- The characters that pieces stand for. There are none if half of a surrogate pair stands alone. -/
def decode : List Piece → Option (List Char)
  | [] => some []
  | .plain c _ :: rest => (decode rest).map (c :: ·)
  | .escape _ c _ :: rest => (decode rest).map (c :: ·)
  | .coded unit :: rest =>
    if unit.isLeading then
      match rest with
      | .coded trailing :: later =>
        if trailing.isTrailing then (decode later).map (unit.pair trailing :: ·) else none
      | _ => none
    else if unit.isTrailing then none
    else (decode rest).map (Char.ofNat unit.value :: ·)

end Piece

/-- A string as it is written. -/
structure Literal where
  pieces : List Piece

namespace Literal

/-- The bytes of a string after its opening quote. -/
def rest (literal : Literal) : Bytes := literal.pieces.flatMap Piece.bytes ++ [ascii '"']

def bytes (literal : Literal) : Bytes := ascii '"' :: literal.rest

/-- The text that a string stands for, if it is one. -/
def text? (literal : Literal) : Option String :=
  (Piece.decode literal.pieces).map String.ofList

end Literal

/-- One or more decimal digits. -/
structure Digits where
  first : Fin 10
  others : List (Fin 10)

def digitByte (digit : Fin 10) : UInt8 := ascii (Nat.digitChar digit)

def Digits.bytes (digits : Digits) : Bytes := (digits.first :: digits.others).map digitByte

structure Exponent where
  letter : Char
  isLetter : letter ∈ ['e', 'E']
  sign : Option Char
  isSign : ∀ c ∈ sign, c ∈ ['+', '-']
  digits : Digits

def Exponent.bytes (exponent : Exponent) : Bytes :=
  ascii exponent.letter :: (exponent.sign.map ascii).toList ++ exponent.digits.bytes

/-- A number as it is written. Its integer part begins with a zero only if it is zero. -/
structure Numeral where
  isNegative : Bool
  integer : Digits
  isShort : integer.first = 0 → integer.others = []
  fraction : Option Digits
  exponent : Option Exponent

namespace Numeral

def fractionBytes (numeral : Numeral) : Bytes :=
  (numeral.fraction.map fun digits => ascii '.' :: digits.bytes).getD []

def exponentBytes (numeral : Numeral) : Bytes := (numeral.exponent.map Exponent.bytes).getD []

/-- The number without its sign. -/
def magnitude (numeral : Numeral) : Bytes :=
  numeral.integer.bytes ++ numeral.fractionBytes ++ numeral.exponentBytes

def bytes (numeral : Numeral) : Bytes :=
  if numeral.isNegative then ascii '-' :: numeral.magnitude else numeral.magnitude

theorem bytes_of_isNegative {numeral : Numeral} (h : numeral.isNegative = true) :
    numeral.bytes = ascii '-' :: numeral.magnitude := if_pos h

theorem bytes_of_not_isNegative {numeral : Numeral} (h : numeral.isNegative = false) :
    numeral.bytes = numeral.magnitude := if_neg (Bool.eq_false_iff.mp h)

end Numeral

/-- A member of an object, with white space around its name and its value. -/
structure Entry (α : Type) where
  key : Spaced Literal
  value : Spaced α

def Entry.bytes {α : Type} (text : α → Bytes) (entry : Entry α) : Bytes :=
  entry.key.bytes Literal.bytes ++ ascii ':' :: entry.value.bytes text

/-- The name of a member, if its key is a text. -/
def Entry.name? {α : Type} (entry : Entry α) : Option String := entry.key.inside.text?

/-- A member begins with the quote of its key, and its value stands after a colon. -/
theorem Entry.bytes_append {α : Type} (text : α → Bytes) (entry : Entry α) (gap : Blank)
    (rest : Bytes) :
    gap.bytes ++ (entry.bytes text ++ rest) =
      (gap.append entry.key.before).bytes ++ ascii '"' :: (entry.key.inside.rest ++
        (entry.key.after.bytes ++ ascii ':' :: (entry.value.before.bytes ++
          (text entry.value.inside ++ (entry.value.after.bytes ++ rest))))) := by
  simp only [bytes, Spaced.bytes, Literal.bytes, Blank.bytes_append, List.append_assoc,
    List.cons_append]

/-- A JSON value as it is written. Lists and objects may have white space after their opening bracket,
also if there is nothing in them. -/
inductive Value where
  | null
  | boolean (value : Bool)
  | number (numeral : Numeral)
  | string (literal : Literal)
  | list (inside : Blank) (items : List (Spaced Value))
  | object (inside : Blank) (entries : List (Entry Value))

namespace Value

mutual

def bytes : Value → Bytes
  | .null => ['n', 'u', 'l', 'l'].map ascii
  | .boolean true => ['t', 'r', 'u', 'e'].map ascii
  | .boolean false => ['f', 'a', 'l', 's', 'e'].map ascii
  | .number numeral => numeral.bytes
  | .string literal => literal.bytes
  | .list inside items => ascii '[' :: inside.bytes ++ listed true (itemTexts items) ++ [ascii ']']
  | .object inside entries =>
    ascii '{' :: inside.bytes ++ listed true (entryTexts entries) ++ [ascii '}']

def itemTexts : List (Spaced Value) → List Bytes
  | [] => []
  | ⟨before, value, after⟩ :: items =>
    (before.bytes ++ value.bytes ++ after.bytes) :: itemTexts items

def entryTexts : List (Entry Value) → List Bytes
  | [] => []
  | ⟨key, ⟨before, value, after⟩⟩ :: entries =>
    (key.bytes Literal.bytes ++ ascii ':' :: (before.bytes ++ value.bytes ++ after.bytes)) ::
      entryTexts entries

end

theorem itemTexts_eq (items : List (Spaced Value)) :
    itemTexts items = items.map (Spaced.bytes bytes) := by
  induction items with
  | nil => rfl
  | cons item items ih => rw [itemTexts, ih, List.map_cons, Spaced.bytes]

theorem entryTexts_eq (entries : List (Entry Value)) :
    entryTexts entries = entries.map (Entry.bytes bytes) := by
  induction entries with
  | nil => rfl
  | cons entry entries ih => rw [entryTexts, ih, List.map_cons, Entry.bytes, Spaced.bytes, Spaced.bytes]

theorem bytes_list_append (inside : Blank) (items : List (Spaced Value)) (rest : Bytes) :
    (Value.list inside items).bytes ++ rest =
      ascii '[' :: (inside.bytes ++ (listed true (items.map (Spaced.bytes bytes)) ++
        ascii ']' :: rest)) := by
  rw [bytes, itemTexts_eq]
  simp only [List.cons_append, List.append_assoc, List.nil_append]

theorem bytes_object_append (inside : Blank) (entries : List (Entry Value)) (rest : Bytes) :
    (Value.object inside entries).bytes ++ rest =
      ascii '\x7b' :: (inside.bytes ++ (listed true (entries.map (Entry.bytes bytes)) ++
        ascii '\x7d' :: rest)) := by
  rw [bytes, entryTexts_eq]
  simp only [List.cons_append, List.append_assoc, List.nil_append]

end Value

end GettextTemplate.Json
