import GettextTemplate.Json.Bytes

/-!
Numbers of a JSON text. No field holds a number, so one is read only to be named in a message, or
skipped. The magnitude is a significand of sixty-four bits and a power of ten; digits that do not
fit into the significand any more are not looked at.
-/

namespace GettextTemplate.Json

namespace Number

def maxSignificand : Nat := 0xffffffffffffffff

def digitValue (b : UInt8) : Nat := b.toNat - 48

/-- Appends digits to a significand as long as it stays in range. The second part counts the
digits left over. -/
def absorb (significand : Nat) : Bytes → Nat × Nat
  | [] => (significand, 0)
  | b :: digits =>
    let next := 10 * significand + digitValue b
    if next > maxSignificand then (significand, digits.length + 1) else absorb next digits

/-- A power of ten with an exponent of at most 308. -/
def power (exponent : Nat) : Float := Float.ofScientific 1 false exponent

/-- Scales a number by a power of ten, in steps that the powers allow. -/
def scale (x : Float) (exponent : Int) : Except Error Float :=
  if exponent > 308 then
    if x == 0.0 then .ok x else .error .numberOutOfRange
  else if exponent ≥ 0 then
    let y := x * power exponent.toNat
    if y.isInf then .error .numberOutOfRange else .ok y
  else if exponent ≥ -308 then .ok (x / power (-exponent).toNat)
  else if x == 0.0 then .ok x
  else scale (x / power 308) (exponent + 308)
termination_by exponent.natAbs

def signed (negative : Bool) (x : Float) : Float := if negative then -x else x

def magnitude (negative : Bool) (significand : Nat) (exponent : Int) : Except Error Found := do
  return .floating (signed negative (← scale (Float.ofNat significand) exponent))

/-- The greatest exponent that is not simply beyond all numbers. -/
def maxExponent : Nat := 0x7fffffff

def withExponent (negative : Bool) (significand : Nat) (start : Int) (bytes : Bytes) :
    Except Error Found :=
  let (down, digits) : Bool × Bytes :=
    match bytes with
    | b :: rest =>
      if b = ascii '+' then (false, rest)
      else if b = ascii '-' then (true, rest)
      else (false, bytes)
    | [] => (false, [])
  match digits with
  | [] => .error .endInValue
  | b :: _ =>
    if !isDigit b then .error .invalidNumber else
    let exponent := (digits.takeWhile isDigit).foldl (fun n b => 10 * n + digitValue b) 0
    if exponent > maxExponent then
      if significand ≠ 0 && !down then .error .numberOutOfRange
      else .ok (.floating (signed negative 0.0))
    else magnitude negative significand (if down then start - exponent else start + exponent)

def isExponent : Bytes → Bool
  | b :: _ => b = ascii 'e' || b = ascii 'E'
  | [] => false

def withFraction (negative : Bool) (significand : Nat) (start : Int) (bytes : Bytes) :
    Except Error Found :=
  match bytes with
  | [] => .error .endInValue
  | b :: _ =>
    if !isDigit b then .error .invalidNumber else
    let digits := bytes.takeWhile isDigit
    let (significand, left) := absorb significand digits
    let start := start - (digits.length - left : Nat)
    let after := bytes.dropWhile isDigit
    if isExponent after then withExponent negative significand start after.tail
    else magnitude negative significand start

/-- The number that its digits give without a point and an exponent. Minus zero is no integer, nor
is a number that leaves the range of 64 bits. -/
def whole (negative : Bool) (significand left : Nat) : Except Error Found :=
  if left ≠ 0 then magnitude negative significand left
  else if !negative then .ok (.integer significand)
  else if significand = 0 || significand > 0x8000000000000000 then
    .ok (.floating (-Float.ofNat significand))
  else .ok (.integer (-(significand : Int)))

def read (negative : Bool) (bytes : Bytes) : Except Error Found :=
  match bytes with
  | [] => .error .endInValue
  | b :: rest =>
    if !isDigit b then .error .invalidNumber
    else if b = ascii '0' && (rest.head?.map isDigit).getD false then .error .invalidNumber
    else
      let (significand, left) := absorb 0 (bytes.takeWhile isDigit)
      let after := bytes.dropWhile isDigit
      if after.head? = some (ascii '.') then withFraction negative significand left after.tail
      else if isExponent after then withExponent negative significand left after.tail
      else whole negative significand left

end Number

theorem length_dropWhile_le (p : UInt8 → Bool) (bytes : Bytes) :
    (bytes.dropWhile p).length ≤ bytes.length :=
  (List.dropWhile_suffix p).length_le

def skipDigits : Reader Unit
  | [] => .error .invalidNumber
  | b :: rest =>
    if isDigit b then
      .ok ⟨(), rest.dropWhile isDigit, by
        have := length_dropWhile_le isDigit rest
        simp only [List.length_cons]; omega⟩
    else .error .invalidNumber

/-- Passes over the integer digits, of which a leading zero must be the only one. -/
def skipInteger : Reader Unit
  | [] => .error .invalidNumber
  | b :: rest =>
    if b = ascii '0' then
      if (rest.head?.map isDigit).getD false then .error .invalidNumber
      else .ok (.one ())
    else skipDigits (b :: rest)

/-- Passes over the sign and the digits of an exponent. -/
def skipExponent : Reader Unit
  | [] => .error .invalidNumber
  | b :: rest =>
    if b = ascii '+' || b = ascii '-' then return (← skipDigits rest).behind
    else skipDigits (b :: rest)

def skipExponentAfter {bytes : Bytes} (taken : Taken Unit bytes) :
    Except Error (Taken Unit bytes) :=
  match taken with
  | ⟨_, e :: rest, fewer⟩ =>
    if e = ascii 'e' || e = ascii 'E' then do
      let exponent ← skipExponent rest
      return exponent.within (by simp only [List.length_cons] at fewer; omega)
    else .ok taken
  | _ => .ok taken

def skipNumber : Reader Unit := fun bytes => do
  let integer ← skipInteger bytes
  match integer with
  | ⟨_, point :: rest, fewer⟩ =>
    if point = ascii '.' then
      let fraction ← skipDigits rest
      skipExponentAfter (fraction.within (by simp only [List.length_cons] at fewer; omega))
    else skipExponentAfter integer
  | _ => return integer

end GettextTemplate.Json
