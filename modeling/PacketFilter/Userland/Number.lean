import PacketFilter.Text.Decimal
import PacketFilter.Text.Line

/-! # Numbers of scripts

The numbers that programs read and print. `whole?` reads the whole number that a text is, with an optional sign and
spacing around it. A `Binary` is a number with at most 53 binary digits and a limited exponent, `Numeral.read?` reads a
decimal or hexadecimal numeral with fraction and exponent, and a `Layout` says how a number is written out. Everything
is computed exactly, with natural numbers. -/

namespace PacketFilter.Number

/-- Whether a character may stand around a number. -/
def isSpacing (c : Char) : Bool :=
  c == ' ' || ('\t' ≤ c && c ≤ '\r')

/-- A whole number with an optional sign. -/
def signed? : List Char → Option Int
  | '-' :: cs => if Text.Decimal.isNumeral cs then some (- (Text.Decimal.value cs : Int)) else none
  | '+' :: cs => if Text.Decimal.isNumeral cs then some (Text.Decimal.value cs) else none
  | cs => if Text.Decimal.isNumeral cs then some (Text.Decimal.value cs) else none

/-- A whole number with an optional sign and spacing around it. -/
def whole? (text : String) : Option Int :=
  signed? (Text.trimWhile isSpacing text.toList)

/-- The whole number that a text is, if it is one of 64 bits. -/
def word? (text : String) : Option Int :=
  (whole? text).filter fun n => -9223372036854775808 ≤ n && n ≤ 9223372036854775807

/-! ## Binary numbers

`Binary.ofRatio` is the number next to a given ratio: of two that are equally near, the one with an even number of
units. -/

/-- A number with 53 binary digits, or what stands in its place where no number fits. -/
inductive Binary where
  /-- So many units, which are a power of two. -/
  | finite (isNegative : Bool) (units : Nat) (exponent : Int)
  | infinite (isNegative : Bool)
  | notNumber (isNegative : Bool)
deriving DecidableEq

/-- How a number that is written fits into the numbers that there are. -/
inductive Fit where
  | exact
  | rounded
  /-- It is beyond the greatest number. -/
  | tooGreat
  /-- It is below the least number that has all its digits, and not exact. -/
  | tooSmall
deriving DecidableEq

namespace Binary

/-- How many binary digits a number has. -/
def digits : Nat := 53

/-- The least exponent of a unit. -/
def minExponent : Int := -1074

def maxExponent : Int := 971

def power (base n : Nat) : Nat := Nat.pow base n

/-- A ratio in units that are a power of two, and whether it is exact: rounded to the nearest, and to the even one
of two that are equally near. -/
def inUnits (numerator denominator : Nat) (exponent : Int) : Nat × Bool :=
  let n := numerator * power 2 (-exponent).toNat
  let d := denominator * power 2 exponent.toNat
  let q := n / d
  let r := n % d
  let up := d < 2 * r || (2 * r == d && q % 2 == 1)
  (if up then q + 1 else q, r == 0)

/-- The number next to a ratio, and how it fits. -/
def ofRatio (isNegative : Bool) (numerator denominator : Nat) : Binary × Fit :=
  if numerator = 0 then (finite isNegative 0 0, .exact)
  else
    -- The ratio has one binary digit more than this, or as many.
    let size : Int := (numerator.log2 : Int) - denominator.log2
    let isAbove := power 2 size.toNat * denominator ≤ numerator * power 2 (-size).toNat
    let size := if isAbove then size else size - 1
    let exponent := max minExponent (size + 1 - digits)
    let (units, isExact) := inUnits numerator denominator exponent
    let (units, exponent) :=
      if units = power 2 digits then (power 2 (digits - 1), exponent + 1) else (units, exponent)
    if maxExponent < exponent then (infinite isNegative, .tooGreat)
    else
      let isSmall := units < power 2 (digits - 1)
      (finite isNegative units exponent,
        if isExact then .exact else if isSmall then .tooSmall else .rounded)

/-- The number next to so many units of a power of ten, and how it fits. `length` is the number of digits of the
units. -/
def ofDecimal (isNegative : Bool) (units length : Nat) (ten : Int) : Binary × Fit :=
  if units = 0 then (finite isNegative 0 0, .exact)
  else if 400 < ten + length then (infinite isNegative, .tooGreat)
  else if ten + length < -400 then (finite isNegative 0 0, .tooSmall)
  else ofRatio isNegative (units * power 10 ten.toNat) (power 10 (-ten).toNat)

/-- The number next to so many units of a power of two, and how it fits. -/
def ofPower (isNegative : Bool) (units : Nat) (two : Int) : Binary × Fit :=
  if units = 0 then (finite isNegative 0 0, .exact)
  else if 1100 < two + units.log2 then (infinite isNegative, .tooGreat)
  else if two + units.log2 < -1200 then (finite isNegative 0 0, .tooSmall)
  else ofRatio isNegative (units * power 2 two.toNat) (power 2 (-two).toNat)

/-- Whether two numbers are the same. Zero has one sign here, and what is no number is the same as nothing. -/
def isSame : Binary → Binary → Bool
  | finite _ 0 _, finite _ 0 _ => true
  | finite s m e, finite t n f =>
    let low := min e f
    s == t && m * power 2 (e - low).toNat == n * power 2 (f - low).toNat
  | infinite s, infinite t => s == t
  | _, _ => false

end Binary

/-! ## Numerals with fractions

A numeral is a decimal number with an optional fraction and exponent, a hexadecimal one with an exponent of two, or a
name for what is no number. -/

/-- A number that is written, and how it fits into the numbers that there are. -/
structure Numeral where
  value : Binary
  fit : Fit := .exact

namespace Numeral

/-- The value of a digit in bases up to sixteen. -/
def digit? (c : Char) : Option Nat :=
  if '0' ≤ c && c ≤ '9' then some (c.toNat - 48)
  else if 'a' ≤ c && c ≤ 'f' then some (c.toNat - 87)
  else if 'A' ≤ c && c ≤ 'F' then some (c.toNat - 55)
  else none

/-- Whether a character is a digit in a base. -/
def isDigit (base : Nat) (c : Char) : Bool :=
  (digit? c).any (· < base)

/-- The number that digits in a base write. -/
def inBase (base : Nat) (cs : List Char) : Nat :=
  cs.foldl (fun n c => base * n + (digit? c).getD 0) 0

/-- A sign at the start of a list of characters, as whether it is negative, and what follows it. -/
def sign : List Char → Bool × List Char
  | '-' :: cs => (true, cs)
  | '+' :: cs => (false, cs)
  | cs => (false, cs)

/-- The greatest exponent that is told from others. -/
def maxExponent : Nat := 1000000

/-- The exponent behind one of two letters at the start of a list of characters, and what follows it. Without
digits there is none. -/
def exponent (low high : Char) (cs : List Char) : Int × List Char :=
  match cs with
  | [] => (0, [])
  | c :: rest =>
    if c = low ∨ c = high then
      let (isNegative, rest) := sign rest
      let digits := rest.takeWhile (isDigit 10)
      if digits.isEmpty then (0, cs)
      else
        let n : Nat := min maxExponent (inBase 10 digits)
        (if isNegative then -(n : Int) else n, rest.drop digits.length)
    else (0, cs)

/-- The digits in a base at the start of a list of characters, those behind a point, and what follows. -/
def fraction (base : Nat) (cs : List Char) : List Char × List Char × List Char :=
  let whole := cs.takeWhile (isDigit base)
  match cs.drop whole.length with
  | '.' :: rest =>
    let part := rest.takeWhile (isDigit base)
    if whole.isEmpty && part.isEmpty then ([], [], cs) else (whole, part, rest.drop part.length)
  | rest => (whole, [], rest)

/-- The decimal numeral at the start of a list of characters. -/
def decimal? (isNegative : Bool) (cs : List Char) : Option (Numeral × List Char) :=
  let (whole, part, rest) := fraction 10 cs
  if whole.isEmpty && part.isEmpty then none
  else
    let (ten, rest) := exponent 'e' 'E' rest
    let digits := (whole ++ part).dropWhile (· == '0')
    let (value, fit) := Binary.ofDecimal isNegative (inBase 10 digits) digits.length (ten - part.length)
    some (⟨value, fit⟩, rest)

/-- The hexadecimal numeral at the start of a list of characters, behind its mark. -/
def hexadecimal? (isNegative : Bool) (cs : List Char) : Option (Numeral × List Char) :=
  let (whole, part, rest) := fraction 16 cs
  if whole.isEmpty && part.isEmpty then none
  else
    let (two, rest) := exponent 'p' 'P' rest
    let (value, fit) := Binary.ofPower isNegative (inBase 16 (whole ++ part)) (two - 4 * part.length)
    some (⟨value, fit⟩, rest)

/-- What follows a word at the start of a list of characters; capitals do not count. -/
def after? (word : String) (cs : List Char) : Option (List Char) :=
  if (cs.take word.length).map Char.toLower == word.toList then some (cs.drop word.length) else none

/-- The name at the start of a list of characters for what is no number. -/
def named? (isNegative : Bool) (cs : List Char) : Option (Numeral × List Char) :=
  match (after? "infinity" cs).orElse fun _ => after? "inf" cs with
  | some rest => some (⟨.infinite isNegative, .exact⟩, rest)
  | none => (after? "nan" cs).map fun rest => (⟨.notNumber isNegative, .exact⟩, rest)

/-- The numeral at the start of a list of characters, with an optional sign and spacing before it, and what
follows it. -/
def read? (cs : List Char) : Option (Numeral × List Char) :=
  let (isNegative, cs) := sign (cs.dropWhile isSpacing)
  let marked? :=
    match cs with
    | '0' :: x :: rest => if x = 'x' ∨ x = 'X' then hexadecimal? isNegative rest else none
    | _ => none
  marked?.orElse fun _ => (decimal? isNegative cs).orElse fun _ => named? isNegative cs

/-- The numeral that a list of characters is, with gaps around it. It has to be a number that fits, and to end in a
decimal digit or a point. -/
def whole? (isGap : Char → Bool) (cs : List Char) : Option Binary :=
  let cs := Text.trimWhile isGap cs
  if cs.head?.any isSpacing || ! cs.getLast?.any (fun c => c.isDigit || c == '.') then none
  else
    match read? cs with
    | some (⟨.finite s m e, fit⟩, []) =>
      if fit != .tooGreat && fit != .tooSmall then some (.finite s m e) else none
    | _ => none

end Numeral

/-! ## Printed numbers

A number is written out with a fixed number of decimal places, with one digit before the point and an exponent, in the
shorter of these two ways, or in hexadecimal. All digits are exact; where some are left out, the nearest number is
written, and the even one of two that are equally near. -/

/-- How digits are laid out. -/
structure Layout where
  /-- How many digits there are behind the point, if that is said. -/
  precision : Option Nat := none
  /-- The point stays even if nothing is behind it, and zeros at the end stay as well. -/
  keepsPoint : Bool := false
  /-- Letters are capitals. -/
  isUpper : Bool := false

namespace Layout

/-- How many digits there are behind the point if that is not said. -/
def usualPrecision : Nat := 6

/-- The digits of a number, at least so many. -/
def digitsOf (base least n : Nat) : List Char :=
  let digits := Nat.toDigits base n
  List.replicate (least - digits.length) '0' ++ digits

/-- A ratio as a whole number: the nearest, and the even one of two that are equally near. -/
def nearest (numerator denominator : Nat) : Nat :=
  (Binary.inUnits numerator denominator 0).1

/-- A point and what stands behind it; without digits the point may be left out. -/
def behindPoint (l : Layout) (digits : List Char) : List Char :=
  if digits.isEmpty && ! l.keepsPoint then [] else '.' :: digits

/-- An exponent with a sign and at least so many digits. -/
def exponentText (l : Layout) (mark : Char) (least : Nat) (n : Int) : List Char :=
  (if l.isUpper then mark.toUpper else mark) :: (if n < 0 then '-' else '+') :: digitsOf 10 least n.natAbs

/-- So many units of a power of two, as a ratio. -/
def ratio (units : Nat) (exponent : Int) : Nat × Nat :=
  (units * Binary.power 2 exponent.toNat, Binary.power 2 (-exponent).toNat)

/-- A number with so many places behind the point. -/
def fixed (l : Layout) (places units : Nat) (exponent : Int) : List Char :=
  let (n, d) := ratio units exponent
  let digits := digitsOf 10 (places + 1) (nearest (n * Binary.power 10 places) d)
  digits.take (digits.length - places) ++ l.behindPoint (digits.drop (digits.length - places))

/-- A ratio divided by a power of ten. -/
def scaled (n d : Nat) (ten : Int) : Nat × Nat :=
  (n * Binary.power 10 (-ten).toNat, d * Binary.power 10 ten.toNat)

/-- The greatest power of ten that is at most a ratio, which is not zero. -/
def tenOf (n d : Nat) : Int :=
  let guess : Int := (Nat.toDigits 10 n).length - (Nat.toDigits 10 d).length
  let (a, b) := scaled n d guess
  if b ≤ a then guess else guess - 1

/-- The digits of a number with one of them before the point, and the power of ten of that digit. -/
def leadingDigits (places units : Nat) (exponent : Int) : List Char × Int :=
  if units = 0 then (digitsOf 10 (places + 1) 0, 0)
  else
    let (n, d) := ratio units exponent
    let ten := tenOf n d
    let (a, b) := scaled n d (ten - places)
    let digits := digitsOf 10 (places + 1) (nearest a b)
    if places + 1 < digits.length then (digits.take (places + 1), ten + 1) else (digits, ten)

/-- A number with one digit before the point, so many behind it, and an exponent. -/
def scientific (l : Layout) (places units : Nat) (exponent : Int) : List Char :=
  let (digits, ten) := leadingDigits places units exponent
  digits.take 1 ++ l.behindPoint (digits.drop 1) ++ l.exponentText 'e' 2 ten

/-- Digits without the zeros at their end. -/
def withoutZeros (digits : List Char) : List Char :=
  (digits.reverse.dropWhile (· == '0')).reverse

/-- A number in the shorter way, with so many digits in all. -/
def shorter (l : Layout) (count units : Nat) (exponent : Int) : List Char :=
  let count := max 1 count
  let (digits, ten) := leadingDigits (count - 1) units exponent
  let stripped (digits : List Char) : List Char := if l.keepsPoint then digits else withoutZeros digits
  if ten < -4 ∨ (count : Int) ≤ ten then
    digits.take 1 ++ l.behindPoint (stripped (digits.drop 1)) ++ l.exponentText 'e' 2 ten
  else if ten < 0 then
    '0' :: l.behindPoint (stripped (List.replicate ((-ten).toNat - 1) '0' ++ digits))
  else
    digits.take (ten.toNat + 1) ++ l.behindPoint (stripped (digits.drop (ten.toNat + 1)))

/-- A number in hexadecimal, with an exponent of two; the digit before the point is zero if the number is too small
to have all its digits. Without a precision all digits are written. -/
def hexadecimal (l : Layout) (units : Nat) (exponent : Int) : List Char :=
  let two : Int := if units = 0 then 0 else exponent + (Binary.digits - 1 : Nat)
  let letters (cs : List Char) : List Char := if l.isUpper then cs.map Char.toUpper else cs
  match l.precision with
  | none =>
    let digits := digitsOf 16 14 units
    letters (digits.take 1) ++ l.behindPoint (letters (withoutZeros (digits.drop 1))) ++ l.exponentText 'p' 1 two
  | some places =>
    let digits :=
      if 13 ≤ places then digitsOf 16 14 units ++ List.replicate (places - 13) '0'
      else digitsOf 16 (places + 1) (nearest units (Binary.power 16 (13 - places)))
    letters (digits.take 1) ++ l.behindPoint (letters (digits.drop 1)) ++ l.exponentText 'p' 1 two

end Layout

end PacketFilter.Number
