import GettextTemplate.Decimal.Shortest
import GettextTemplate.Text.Quoted

/-!
Why a JSON text cannot be read as a value of a given shape, and the wording of each cause without the
place where it was met.
-/

namespace GettextTemplate.Json

/-- A value of the wrong type, as far as it is named in a message. -/
inductive Found where
  | null
  | boolean (value : Bool)
  | integer (value : Int)
  | floating (value : Float)
  | string (value : String)
  | sequence
  | map

inductive Error where
  | endInValue
  | endInList
  | endInObject
  | endInString
  | expectedValue
  | expectedWord
  | expectedColon
  | expectedListComma
  | expectedObjectComma
  | keyNotString
  | trailingComma
  | trailingCharacters
  | invalidNumber
  | numberOutOfRange
  | controlCharacter
  | invalidEscape
  | loneSurrogate
  | endOfSurrogatePair
  | invalidUnicode
  /-- More brackets are open than the reader admits. -/
  | tooDeep
  | wrongType (found : Found) (expected : String)
  /-- An array that is too short for the fields of a record. -/
  | wrongLength (length : Nat) (expected : String)
  | missingField (name : String)
  | repeatedField (name : String)
  | unknownVariant (name : String) (known : List String)

namespace Found

/-- Numbers with a fraction are positional from the fifth place after the point to the sixteenth
before it. -/
def numberLayout : Decimal.Layout where
  leastPlace := -5
  greatestPlace := 15

def message : Found → String
  | .null => "null"
  | .boolean value => "boolean `" ++ (if value then "true" else "false") ++ "`"
  | .integer value => "integer `" ++ value.repr ++ "`"
  | .floating value => "floating point `" ++ numberLayout.text value ++ "`"
  | .string value => "string " ++ Text.quoted value
  | .sequence => "sequence"
  | .map => "map"

end Found

namespace Error

/-- The wording of a cause. Where it was met in the text, a line and a column that are told after the
wording (` at line 1 column 7`), is left out. -/
def message : Error → String
  | .endInValue => "EOF while parsing a value"
  | .endInList => "EOF while parsing a list"
  | .endInObject => "EOF while parsing an object"
  | .endInString => "EOF while parsing a string"
  | .expectedValue => "expected value"
  | .expectedWord => "expected ident"
  | .expectedColon => "expected `:`"
  | .expectedListComma => "expected `,` or `]`"
  | .expectedObjectComma => "expected `,` or `\x7d`"
  | .keyNotString => "key must be a string"
  | .trailingComma => "trailing comma"
  | .trailingCharacters => "trailing characters"
  | .invalidNumber => "invalid number"
  | .numberOutOfRange => "number out of range"
  | .controlCharacter => "control character (\\u0000-\\u001F) found while parsing a string"
  | .invalidEscape => "invalid escape"
  | .loneSurrogate => "lone leading surrogate in hex escape"
  | .endOfSurrogatePair => "unexpected end of hex escape"
  | .invalidUnicode => "invalid unicode code point"
  | .tooDeep => "recursion limit exceeded"
  | .wrongType found expected => "invalid type: " ++ found.message ++ ", expected " ++ expected
  | .wrongLength length expected => "invalid length " ++ length.repr ++ ", expected " ++ expected
  | .missingField name => "missing field `" ++ name ++ "`"
  | .repeatedField name => "duplicate field `" ++ name ++ "`"
  | .unknownVariant name known =>
    "unknown variant `" ++ name ++ "`, expected one of " ++
      ", ".intercalate (known.map fun k => "`" ++ k ++ "`")

end Error

end GettextTemplate.Json
