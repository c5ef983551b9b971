import GettextTemplate.Json.Bytes

/-!
Strings of a JSON text. `readText` decodes a string, `skipText` only finds its end, and `quoted`
writes one.
-/

namespace GettextTemplate.Json

def hexDigit? (b : UInt8) : Option Nat :=
  if isDigit b then some (b.toNat - 48)
  else if ascii 'a' ≤ b && b ≤ ascii 'f' then some (b.toNat - 87)
  else if ascii 'A' ≤ b && b ≤ ascii 'F' then some (b.toNat - 55)
  else none

def codeUnit : Reader Nat
  | a :: b :: c :: d :: rest =>
    match hexDigit? a, hexDigit? b, hexDigit? c, hexDigit? d with
    | some a, some b, some c, some d =>
      .ok ⟨4096 * a + 256 * b + 16 * c + d, rest, by simp only [List.length_cons]; omega⟩
    | _, _, _, _ => .error .invalidEscape
  | _ => .error .endInString

/-- Reads the second half of a surrogate pair, a backslash and a code unit. -/
def trailingUnit : Reader Nat
  | [] => .error .endInString
  | b :: rest =>
    if b ≠ ascii '\\' then .error .endOfSurrogatePair else
    match rest with
    | [] => .error .endInString
    | c :: digits =>
      if c ≠ ascii 'u' then .error .endOfSurrogatePair
      else return (← codeUnit digits).behind.behind

def codePoint : Reader Char := fun bytes => do
  let unit ← codeUnit bytes
  if 0xDC00 ≤ unit.value && unit.value ≤ 0xDFFF then .error .loneSurrogate
  else if 0xD800 ≤ unit.value && unit.value ≤ 0xDBFF then
    let trailing ← trailingUnit unit.rest
    if 0xDC00 ≤ trailing.value && trailing.value ≤ 0xDFFF then
      return unit.andThen (trailing.map fun low =>
        Char.ofNat ((unit.value - 0xD800) * 0x400 + (low - 0xDC00) + 0x10000))
    else .error .loneSurrogate
  else return unit.map Char.ofNat

def simpleEscape? (b : UInt8) : Option Char :=
  if b = ascii '"' then some '"'
  else if b = ascii '\\' then some '\\'
  else if b = ascii '/' then some '/'
  else if b = ascii 'b' then some '\x08'
  else if b = ascii 'f' then some '\x0c'
  else if b = ascii 'n' then some '\n'
  else if b = ascii 'r' then some '\r'
  else if b = ascii 't' then some '\t'
  else none

def escapedChar : Reader Char
  | [] => .error .endInString
  | b :: rest =>
    match simpleEscape? b with
    | some c => .ok (.one c)
    | none =>
      if b = ascii 'u' then return (← codePoint rest).behind
      else .error .invalidEscape

/-- Reads on to the closing quote. The bytes of the content so far are held last first. -/
def contentFrom (done : Bytes) : Reader Bytes
  | [] => .error .endInString
  | b :: rest =>
    if b = ascii '"' then .ok (.one done.reverse)
    else if b = ascii '\\' then do
      let escaped ← escapedChar rest
      let encoded := String.utf8EncodeChar escaped.value
      let content ← contentFrom (encoded.reverse ++ done) escaped.rest
      return (escaped.andThen content).behind
    else if b < 0x20 then .error .controlCharacter
    else return (← contentFrom (b :: done) rest).behind
termination_by bytes => bytes.length
decreasing_by
  · have := escaped.fewer
    simp only [List.length_cons]; omega
  · exact Nat.lt_succ_self _

/-- Reads a string whose opening quote has been read. -/
def readText : Reader String := fun bytes => do
  let content ← contentFrom [] bytes
  match String.fromUTF8? content.value.toByteArray with
  | some text => return content.map fun _ => text
  | none => .error .invalidUnicode

/-- Finds the end of a string whose opening quote has been read. Escapes must be well formed, but
need not make characters. -/
def skipText : Reader Unit
  | [] => .error .endInString
  | b :: rest =>
    if b = ascii '"' then .ok (.one ())
    else if b = ascii '\\' then
      match rest with
      | [] => .error .endInString
      | c :: after =>
        if (simpleEscape? c).isSome then return (← skipText after).behind.behind
        else if c = ascii 'u' then do
          let unit ← codeUnit after
          return (unit.andThen (← skipText unit.rest)).behind.behind
        else .error .invalidEscape
    else if b < 0x20 then .error .controlCharacter
    else return (← skipText rest).behind
termination_by bytes => bytes.length
decreasing_by
  · simp only [List.length_cons]; omega
  · have := unit.fewer
    simp only [List.length_cons]; omega
  · exact Nat.lt_succ_self _

/-- A character inside a string. Quotes, backslashes and controls are escaped, all else stands for
itself. -/
def escape (c : Char) : List Char :=
  if c = '"' then ['\\', '"']
  else if c = '\\' then ['\\', '\\']
  else if c = '\x08' then ['\\', 'b']
  else if c = '\x0c' then ['\\', 'f']
  else if c = '\n' then ['\\', 'n']
  else if c = '\r' then ['\\', 'r']
  else if c = '\t' then ['\\', 't']
  else if c.toNat < 0x20 then
    ['\\', 'u', '0', '0', Nat.digitChar (c.toNat / 16), Nat.digitChar (c.toNat % 16)]
  else [c]

def quoted (text : String) : String :=
  String.ofList ('"' :: text.toList.flatMap escape ++ ['"'])

end GettextTemplate.Json
