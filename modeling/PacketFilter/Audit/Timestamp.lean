import PacketFilter.Text.Decimal
import PacketFilter.Text.Line

/-! # Points in time

A `Timestamp` is a number of seconds and nanoseconds since the start of 1970 in universal time. It is written
as a date and a time with the letter Z; what is read may have any offset from universal time, blanks before
numbers, and fewer digits than are written. A leap second is kept as the second before it with more than a
second's worth of nanoseconds. -/

namespace PacketFilter

/-- A point in time. -/
structure Timestamp where
  /-- Seconds since the start of 1970 in universal time. -/
  seconds : Int
  /-- Nanoseconds on top of them. -/
  nanos : Nat
deriving DecidableEq

namespace Timestamp

/-! ### The calendar -/

/-- Whether a year has a twenty-ninth of February. -/
def isLeap (year : Int) : Bool :=
  year % 4 == 0 && (year % 100 != 0 || year % 400 == 0)

/-- The number of days in a month. -/
def monthLength (year : Int) (month : Nat) : Nat :=
  if month = 2 then (if isLeap year then 29 else 28)
  else if month = 4 ∨ month = 6 ∨ month = 9 ∨ month = 11 then 30 else 31

/-- The days from the start of 1970 to a date. Years are counted from March, so that the leap day is the
last of its year; each era of 400 years has 146097 days. -/
def dayNumber (year : Int) (month day : Nat) : Int :=
  let y := if month ≤ 2 then year - 1 else year
  let era := Int.fdiv y 400
  let yearOfEra := y - era * 400
  let shifted := (month + 9) % 12
  let dayOfYear : Int := ((153 * shifted + 2) / 5 + day - 1 : Nat)
  let dayOfEra := yearOfEra * 365 + yearOfEra / 4 - yearOfEra / 100 + dayOfYear
  era * 146097 + dayOfEra - 719468

/-- The year, month and day of a day counted from the start of 1970. -/
def dateOf (dayNumber : Int) : Int × Nat × Nat :=
  let z := dayNumber + 719468
  let era := Int.fdiv z 146097
  let dayOfEra := (z - era * 146097).toNat
  let yearOfEra := (dayOfEra - dayOfEra / 1460 + dayOfEra / 36524 - dayOfEra / 146096) / 365
  let dayOfYear := dayOfEra - (365 * yearOfEra + yearOfEra / 4 - yearOfEra / 100)
  let shifted := (5 * dayOfYear + 2) / 153
  let day := dayOfYear - (153 * shifted + 2) / 5 + 1
  let month := if shifted < 10 then shifted + 3 else shifted - 9
  let year := (yearOfEra : Int) + era * 400
  (if month ≤ 2 then year + 1 else year, month, day)

/-! ### Writing -/

/-- A number with at least `width` digits. -/
def padded (width n : Nat) : String :=
  let digits := Nat.toDigits 10 n
  String.ofList (List.replicate (width - digits.length) '0' ++ digits)

/-- A year: four digits, or a sign and at least four digits outside the years 0 to 9999. -/
def yearText (year : Int) : String :=
  if 0 ≤ year ∧ year ≤ 9999 then padded 4 year.toNat
  else if year < 0 then "-" ++ padded 4 year.natAbs
  else "+" ++ padded 4 year.natAbs

/-- A fraction of a second with three, six or nine digits, as many as it takes; nothing if it is zero. -/
def fractionText (nanos : Nat) : String :=
  if nanos = 0 then ""
  else if nanos % 1000000 = 0 then "." ++ padded 3 (nanos / 1000000)
  else if nanos % 1000 = 0 then "." ++ padded 6 (nanos / 1000)
  else "." ++ padded 9 nanos

/-- The date and time in universal time. -/
def text (t : Timestamp) : String :=
  let days := Int.fdiv t.seconds 86400
  let rest := (t.seconds - days * 86400).toNat
  let (year, month, day) := dateOf days
  yearText year ++ "-" ++ padded 2 month ++ "-" ++ padded 2 day ++ "T" ++ padded 2 (rest / 3600) ++
    ":" ++ padded 2 (rest / 60 % 60) ++ ":" ++ padded 2 (rest % 60 + t.nanos / 1000000000) ++
    fractionText (t.nanos % 1000000000) ++ "Z"

/-! ### Reading -/

/-- What is read from the start of a list of characters, and the rest of it. -/
abbrev Scan (α : Type) := List Char → Option (α × List Char)

def skipBlanks (cs : List Char) : List Char :=
  cs.dropWhile Text.isBlank

/-- A number of one to `width` digits after any blanks. -/
def number (width : Nat) : Scan Nat := fun cs =>
  let cs := skipBlanks cs
  let digits := (cs.take width).takeWhile Char.isDigit
  if digits.isEmpty then none else some (Text.Decimal.value digits, cs.drop digits.length)

/-- A year after any blanks: up to four digits, or a sign and any number of digits. -/
def year : Scan Int := fun cs =>
  match skipBlanks cs with
  | '-' :: rest => (digitRun rest).map fun (n, rest) => (- (n : Int), rest)
  | '+' :: rest => (digitRun rest).map fun (n, rest) => ((n : Int), rest)
  | cs => (number 4 cs).map fun (n, rest) => ((n : Int), rest)
where
  /-- One or more digits. -/
  digitRun (cs : List Char) : Option (Nat × List Char) :=
    let digits := cs.takeWhile Char.isDigit
    if digits.isEmpty then none else some (Text.Decimal.value digits, cs.dropWhile Char.isDigit)

def mark (c : Char) (cs : List Char) : Option (List Char) :=
  Text.dropStart? [c] (skipBlanks cs)

/-- A fraction of a second in nanoseconds, if there is a point; digits after the ninth do not count. -/
def fraction : Scan Nat
  | '.' :: cs =>
    let digits := cs.takeWhile Char.isDigit
    if digits.isEmpty then none
    else
      let kept := digits.take 9
      some (Text.Decimal.value kept * Nat.pow 10 (9 - kept.length), cs.dropWhile Char.isDigit)
  | cs => some (0, cs)

/-- Two digits, the first of which is at most `tens`. -/
def twoDigits (tens : Nat) : Scan Nat
  | a :: b :: cs =>
    if a.isDigit && b.isDigit && Text.Decimal.digit a ≤ tens then
      some (Text.Decimal.value [a, b], cs)
    else none
  | _ => none

/-- Whether a list of characters begins with the letters UTC, in any case. -/
def startsWithUtc (cs : List Char) : Bool :=
  (cs.take 3).map Char.toUpper == ['U', 'T', 'C']

/-- An offset from universal time in seconds: the letter Z, the letters UTC, or a sign, hours and minutes
with any colons and blanks between them. -/
def offset : Scan Int := fun cs =>
  let cs := skipBlanks cs
  if startsWithUtc cs then some (0, cs.drop 3)
  else
    match cs with
    | 'Z' :: rest => some (0, rest)
    | 'z' :: rest => some (0, rest)
    | '+' :: rest => signed 1 rest
    | '-' :: rest => signed (-1) rest
    | '\u2212' :: rest => signed (-1) rest
    | _ => none
where
  /-- Hours and minutes. -/
  signed (sign : Int) (cs : List Char) : Option (Int × List Char) := do
    let (hours, cs) ← twoDigits 9 cs
    let (minutes, cs) ← twoDigits 5 (cs.dropWhile fun c => c == ':' || Text.isBlank c)
    return (sign * (hours * 3600 + minutes * 60 : Nat), cs)

/-- The first year that can be told. -/
def firstYear : Int := -262143

/-- The last year that can be told. -/
def lastYear : Int := 262142

/-- Whether a number of seconds since the start of 1970 lies in the years that can be told. -/
def isTellable (seconds : Int) : Bool :=
  dayNumber firstYear 1 1 * 86400 ≤ seconds && seconds < dayNumber (lastYear + 1) 1 1 * 86400

/-- The point in time that a date, a time and an offset give, if there is such a date and time, and it can be
told in local as in universal time. -/
def ofParts? (year : Int) (month day hour minute second nanos : Nat) (offset : Int) :
    Option Timestamp :=
  if 1 ≤ month ∧ month ≤ 12 ∧ 1 ≤ day ∧ day ≤ monthLength year month ∧ hour < 24 ∧ minute < 60 ∧
      second ≤ 60 ∧ offset.natAbs < 86400 then
    let here := dayNumber year month day * 86400 + (hour * 3600 + minute * 60 + min second 59 : Nat)
    if isTellable here && isTellable (here - offset) then
      some ⟨here - offset, if second = 60 then nanos + 1000000000 else nanos⟩
    else none
  else none

/-- The point in time that a text writes. -/
def ofText? (s : String) : Option Timestamp := do
  let (year, cs) ← year s.toList
  let (month, cs) ← number 2 (← mark '-' cs)
  let (day, cs) ← number 2 (← mark '-' cs)
  let cs ← match cs with
    | 'T' :: cs => some cs
    | 't' :: cs => some cs
    | ' ' :: cs => some cs
    | _ => none
  let (hour, cs) ← number 2 cs
  let (minute, cs) ← number 2 (← mark ':' cs)
  let (second, cs) ← number 2 (← mark ':' cs)
  let (nanos, cs) ← fraction cs
  let (offset, cs) ← offset cs
  if (skipBlanks cs).isEmpty then ofParts? year month day hour minute second nanos offset else none

end Timestamp

end PacketFilter
