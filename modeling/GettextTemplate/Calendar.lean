/-!
Minutes of the proleptic Gregorian calendar, in UTC. A day count is turned into a date by eras
of four hundred years, whose years begin in March, so that a leap day is the last of its year.
-/

namespace GettextTemplate

/-- A minute of a civil day. Year zero exists and is a leap year. -/
structure Minute where
  year : Int
  month : Nat
  day : Nat
  hour : Nat
  minute : Nat
deriving DecidableEq

namespace Minute

/-- The date of a day, counted from 1970-01-01: year, month and day of the month. -/
def civil (days : Int) : Int × Nat × Nat :=
  let shifted := days + 719468
  let era := shifted / 146097
  let dayOfEra := (shifted % 146097).toNat
  let yearOfEra :=
    (dayOfEra - dayOfEra / 1460 + dayOfEra / 36524 - dayOfEra / 146096) / 365
  let dayOfYear := dayOfEra - (365 * yearOfEra + yearOfEra / 4 - yearOfEra / 100)
  let march := (5 * dayOfYear + 2) / 153
  let day := dayOfYear - (153 * march + 2) / 5 + 1
  let month := if march < 10 then march + 3 else march - 9
  let year := era * 400 + yearOfEra + (if month ≤ 2 then 1 else 0)
  (year, month, day)

/-- The minute in which a second lies, counted from 1970-01-01 00:00. Seconds before that are
negative, and belong to the minute that began before them. -/
def ofUnixSeconds (seconds : Int) : Minute :=
  let minutes := seconds / 60
  let (year, month, day) := civil (minutes / 1440)
  let rest := (minutes % 1440).toNat
  ⟨year, month, day, rest / 60, rest % 60⟩

/-- Decimal digits, filled up with zeros to a width. -/
def padded (width n : Nat) : String :=
  let digits := Nat.toDigits 10 n
  String.ofList (List.replicate (width - digits.length) '0' ++ digits)

/-- A year has at least four digits. It carries a sign when it lies outside 0 to 9999. -/
def yearText (year : Int) : String :=
  if year < 0 then "-" ++ padded 4 year.natAbs
  else if year > 9999 then "+" ++ padded 4 year.natAbs
  else padded 4 year.natAbs

/-- Writes a minute by a layout, in which a percent sign and a letter stand for a field: `Y`, `m`,
`d`, `H` and `M` for year, month, day, hour and minute. All else is copied. -/
def format (m : Minute) : List Char → String
  | '%' :: 'Y' :: rest => yearText m.year ++ m.format rest
  | '%' :: 'm' :: rest => padded 2 m.month ++ m.format rest
  | '%' :: 'd' :: rest => padded 2 m.day ++ m.format rest
  | '%' :: 'H' :: rest => padded 2 m.hour ++ m.format rest
  | '%' :: 'M' :: rest => padded 2 m.minute ++ m.format rest
  | c :: rest => c.toString ++ m.format rest
  | [] => ""

/-- The layout of creation dates. The offset is fixed, because minutes are in UTC. -/
def stampLayout : String := "%Y-%m-%d %H:%M+0000"

/-- The stamp of a minute, such as `2024-02-29 12:30+0000`. -/
def stamp (m : Minute) : String :=
  m.format stampLayout.toList

end Minute

end GettextTemplate
