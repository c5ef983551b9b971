/-!
Shortest decimal text of a floating point number. A positive finite number stands for an interval
of reals, those that round to it. The coarsest grid of powers of ten that has a point in the
interval gives the digits, and the point nearest to the number is taken.
-/

namespace GettextTemplate.Decimal

/-- The number `digits * 10 ^ exponent`. -/
structure Scaled where
  digits : Nat
  exponent : Int
deriving DecidableEq

/-- A positive finite number, `significand * 2 ^ exponent`. The gap below it is half as wide as
the one above when its significand is the least of a binade. -/
structure Binary where
  significand : Nat
  exponent : Int
  narrowBelow : Bool
deriving DecidableEq

namespace Binary

def ofBits (bits : UInt64) : Binary :=
  let fraction : Nat := bits.toNat % 0x10000000000000
  let biased : Nat := bits.toNat / 0x10000000000000 % 0x800
  if biased = 0 then ⟨fraction, -1074, false⟩
  else ⟨fraction + 0x10000000000000, (biased : Int) - 1075, fraction = 0 && biased > 1⟩

/-- The point of the grid `10 ^ k` that lies in the interval of a number and nearest to it, if
the grid has one. Of two points that are equally near the even one is taken, and zero never. -/
def gridPoint? (x : Binary) (k : Int) : Option Nat :=
  let shift := x.exponent - 2
  let point := Nat.pow 10 k.toNat * Nat.pow 2 (-shift).toNat
  let quarter := Nat.pow 2 shift.toNat * Nat.pow 10 (-k).toNat
  let middle := 4 * x.significand * quarter
  let low := (4 * x.significand - if x.narrowBelow then 1 else 2) * quarter
  let high := (4 * x.significand + 2) * quarter
  let inside (n : Nat) : Bool :=
    if x.significand % 2 = 0 then low ≤ n * point && n * point ≤ high
    else low < n * point && n * point < high
  let below := middle / point
  let above := below + 1
  let toBelow := middle - below * point
  let toAbove := above * point - middle
  let takeBelow := toBelow < toAbove || toBelow = toAbove && below % 2 = 0
  let (nearer, other) := if takeBelow then (below, above) else (above, below)
  if nearer ≠ 0 && inside nearer then some nearer
  else if other ≠ 0 && inside other then some other
  else none

/-- The grids on which a number may have its shortest digits, coarsest first. -/
def grids : List Int :=
  (List.range 634).map fun i : Nat => (309 : Int) - i

def shortest (x : Binary) : Scaled :=
  ((grids.findSome? fun k => (x.gridPoint? k).map fun n => ⟨n, k⟩)).getD ⟨0, 0⟩

end Binary

/-- How a number is laid out. It is positional while the place of its leading digit lies in a
range, and has a digit on each side of the point; outside the range it has an exponent with a
sign and no leading zeros. -/
structure Layout where
  leastPlace : Int
  greatestPlace : Int

namespace Layout

def magnitude (layout : Layout) (x : Scaled) : String :=
  let digits := Nat.toDigits 10 x.digits
  let place := x.exponent + digits.length - 1
  String.ofList <|
    if layout.leastPlace ≤ place && place ≤ layout.greatestPlace then
      if 0 ≤ x.exponent then digits ++ List.replicate x.exponent.toNat '0' ++ ['.', '0']
      else if 0 ≤ place then
        digits.take (place.toNat + 1) ++ '.' :: digits.drop (place.toNat + 1)
      else '0' :: '.' :: List.replicate (-place - 1).toNat '0' ++ digits
    else
      digits.take 1 ++ (if digits.length > 1 then '.' :: digits.drop 1 else []) ++
        ['e', if place < 0 then '-' else '+'] ++ Nat.toDigits 10 place.natAbs

/-- A finite number. Zero keeps its sign. -/
def text (layout : Layout) (x : Float) : String :=
  let bits := x.toBits
  let sign := if bits.toNat ≥ 0x8000000000000000 then "-" else ""
  if bits.toNat % 0x8000000000000000 = 0 then sign ++ "0.0"
  else sign ++ layout.magnitude (Binary.ofBits bits).shortest

end Layout

end GettextTemplate.Decimal
