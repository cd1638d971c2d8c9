import PacketFilter.Text.Line
import PacketFilter.Userland.Number

/-! # Printing in scripts

What the commands `echo` and `printf` write. Both replace escapes behind a backslash; `echo` stops at the
escape `c`, and `printf` uses its format again as long as arguments are left. All texts are octets. -/

namespace PacketFilter.Shell

open PacketFilter.Number

/-! ### Escapes -/

/-- The octet that a letter or mark stands for behind a backslash. -/
def escaped? (c : Char) : Option Char :=
  [('\\', '\\'), ('a', '\x07'), ('b', '\x08'), ('e', '\x1b'), ('f', '\x0c'), ('n', '\n'), ('r', '\r'),
    ('t', '\t'), ('v', '\x0b')].lookup c

/-- The octet that the start of a list of characters stands for behind a backslash, and how many characters that
start has. With `zero`, a zero may stand before three octal digits. -/
def escape? (zero : Bool) (cs : List Char) : Option (Char × Nat) :=
  match cs with
  | [] => none
  | c :: rest =>
    match escaped? c with
    | some o => some (o, 1)
    | none =>
      let skipped := if zero && c == '0' && rest.head?.any (Numeral.isDigit 8) then 1 else 0
      let digits := ((cs.drop skipped).take 3).takeWhile (Numeral.isDigit 8)
      if digits.isEmpty then none
      else some (Char.ofNat (Numeral.inBase 8 digits % 256), skipped + digits.length)

/-- A text with escapes replaced, and whether all of it was written: the escape `c` ends it. -/
def unescaped (cs : List Char) : List Char × Bool :=
  match cs with
  | [] => ([], true)
  | '\\' :: 'c' :: _ => ([], false)
  | c :: rest =>
    if c = '\\' then
      match escape? true rest with
      | some (o, length) =>
        let (more, whole) := unescaped (rest.drop length)
        (o :: more, whole)
      | none =>
        let (more, whole) := unescaped rest
        (c :: more, whole)
    else
      let (more, whole) := unescaped rest
      (c :: more, whole)
termination_by cs.length
decreasing_by
  all_goals (simp only [List.length_drop, List.length_cons]; omega)

/-- What `echo` writes: its arguments with spaces between them, and a line end unless the first one is `-n`. -/
def echoed (args : List String) : String :=
  let (args, ending) := if args.head? = some "-n" then (args.drop 1, "") else (args, "\n")
  let (text, whole) := unescaped (Text.unwords args).toList
  String.ofList text ++ (if whole then ending else "")

/-! ### Numbers -/

/-- The whole number at the start of a list of characters, and what follows it. After a zero it is octal, after a zero
and an `x` hexadecimal, and after a zero and a `b` binary. -/
def wholeNumber? (cs : List Char) : Option (Nat × List Char) :=
  let taken (base : Nat) (cs : List Char) :=
    let digits := cs.takeWhile (Numeral.isDigit base)
    some (Numeral.inBase base digits, cs.drop digits.length)
  match cs with
  | '0' :: x :: c :: rest =>
    if (x == 'x' || x == 'X') && Numeral.isDigit 16 c then taken 16 (c :: rest)
    else if (x == 'b' || x == 'B') && Numeral.isDigit 2 c then taken 2 (c :: rest)
    else taken 8 cs
  | '0' :: _ => taken 8 cs
  | c :: _ => if c.isDigit then taken 10 cs else none
  | [] => none

/-- The number of the character behind a quote, if a text begins with one. -/
def quotedNumber? (arg : String) : Option Nat :=
  match arg.toList with
  | q :: cs => if q = '\'' ∨ q = '"' then some (cs.head?.elim 0 Char.toNat) else none
  | [] => none

/-- What is said about an argument that should be a number, of which `rest` is left. -/
def numberComplaint (arg : String) (rest : List Char) (isBeyond : Bool) : List String :=
  if rest.isEmpty then if isBeyond then [arg ++ ": Numerical result out of range"] else []
  else if rest.length = arg.length then [arg ++ ": expected numeric value"]
  else [arg ++ ": not completely converted"]

/-- The number that an argument writes, as a word of 64 bits with a sign or without one, and what is said about
it. A quote stands before a character whose number is meant. -/
def argumentNumber (isSigned : Bool) (arg : String) : Int × List String :=
  match quotedNumber? arg with
  | some n => (n, [])
  | none =>
    let (isNegative, cs) := Numeral.sign (arg.toList.dropWhile isSpacing)
    match wholeNumber? cs with
    | none => (0, numberComplaint arg arg.toList false)
    | some (n, rest) =>
      let greatest : Int := if isSigned then 9223372036854775807 else 18446744073709551615
      let least : Int := if isSigned then -9223372036854775808 else -18446744073709551615
      let n : Int := if isNegative then -(n : Int) else n
      if n < least then (if isSigned then least else greatest, numberComplaint arg rest true)
      else if greatest < n then (greatest, numberComplaint arg rest true)
      else (n, numberComplaint arg rest false)

/-- The number with a fraction that an argument writes, and what is said about it. -/
def argumentFraction (arg : String) : Binary × List String :=
  match quotedNumber? arg with
  | some n => ((Binary.ofRatio false n 1).1, [])
  | none =>
    match Numeral.read? arg.toList with
    | none => (.finite false 0 0, numberComplaint arg arg.toList false)
    | some (n, rest) =>
      (n.value, numberComplaint arg rest (n.fit == .tooGreat || n.fit == .tooSmall))

/-! ### Directives -/

/-- How a directive writes its argument. -/
structure Style where
  /-- The marks that stand first. -/
  marks : List Char := []
  width : Nat := 0
  precision : Option Nat := none

namespace Style

def has (s : Style) (mark : Char) : Bool :=
  s.marks.contains mark

/-- A text with as many spaces as the width asks for. -/
def padded (s : Style) (cs : List Char) : List Char :=
  let spaces := List.replicate (s.width - cs.length) ' '
  if s.has '-' then cs ++ spaces else spaces ++ cs

/-- What stands between a sign or the like and digits, so that zeros fill the width if that is asked for. -/
def filled (s : Style) (front digits : List Char) : List Char :=
  let zeros := if s.has '0' && ! s.has '-' then s.width - front.length - digits.length else 0
  s.padded (front ++ List.replicate zeros '0' ++ digits)

/-- The sign in front of a number. -/
def sign (s : Style) (isNegative : Bool) : List Char :=
  if isNegative then ['-'] else if s.has '+' then ['+'] else if s.has ' ' then [' '] else []

/-- A whole number with a sign or the like in front of its digits. The precision is the least number of digits. -/
def number (s : Style) (front digits : List Char) : List Char :=
  match s.precision with
  | none => s.filled front digits
  | some n =>
    let digits := if n = 0 ∧ digits = ['0'] then [] else digits
    s.padded (front ++ List.replicate (n - digits.length) '0' ++ digits)

/-- An octal number. If its kind is to be seen, it begins with a zero. -/
def octal (s : Style) (n : Nat) : List Char :=
  let digits := Nat.toDigits 8 n
  let isShort := s.precision.all (· ≤ digits.length)
  if s.has '#' && isShort && digits != ['0'] then s.number [] ('0' :: digits)
  else if s.has '#' && digits == ['0'] then { s with precision := s.precision.map (max 1) }.number [] digits
  else s.number [] digits

/-- A number with a fraction, as a directive writes it. -/
def fraction (s : Style) (directive : Char) (x : Binary) : List Char :=
  let isUpper := directive.isUpper
  let layout : Layout := { precision := s.precision, keepsPoint := s.has '#', isUpper }
  let named (isNegative : Bool) (name : String) : List Char :=
    let name := if isUpper then name.map Char.toUpper else name
    s.padded (s.sign isNegative ++ name.toList)
  let places := s.precision.getD Layout.usualPrecision
  match x with
  | .infinite isNegative => named isNegative "inf"
  | .notNumber isNegative => named isNegative "nan"
  | .finite isNegative units exponent =>
    let front := s.sign isNegative
    match directive.toLower with
    | 'a' => s.filled (front ++ ['0', if isUpper then 'X' else 'x']) (layout.hexadecimal units exponent)
    | 'e' => s.filled front (layout.scientific places units exponent)
    | 'f' => s.filled front (layout.fixed places units exponent)
    | _ => s.filled front (layout.shorter places units exponent)

end Style

/-- The number of a negative one as a word of 64 bits. -/
def asWord (n : Int) : Nat :=
  (n % 18446744073709551616).toNat

def directives : List Char :=
  ['s', 'b', 'c', 'd', 'i', 'u', 'o', 'x', 'X', 'a', 'A', 'e', 'E', 'f', 'F', 'g', 'G']

/-- What a directive writes for an argument, whether the format goes on, and what is said about the argument. -/
def filledIn (s : Style) (directive : Char) (arg : String) : List Char × Bool × List String :=
  let limited (cs : List Char) : List Char := cs.take (s.precision.getD cs.length)
  match directive with
  | 'b' =>
    let (cs, whole) := unescaped arg.toList
    (s.padded (limited cs), whole, [])
  | 'c' => (s.padded [arg.toList.headD '\x00'], true, [])
  | 's' => (s.padded (limited arg.toList), true, [])
  | 'd' | 'i' =>
    let (n, complaints) := argumentNumber true arg
    (s.number (s.sign (n < 0)) (Nat.toDigits 10 n.natAbs), true, complaints)
  | 'u' | 'o' | 'x' | 'X' =>
    let (n, complaints) := argumentNumber false arg
    let n := asWord n
    let written :=
      match directive with
      | 'o' => s.octal n
      | 'u' => s.number [] (Nat.toDigits 10 n)
      | _ =>
        let raise (cs : List Char) : List Char := if directive = 'X' then cs.map Char.toUpper else cs
        s.number (if s.has '#' && n != 0 then raise ['0', 'x'] else []) (raise (Nat.toDigits 16 n))
    (written, true, complaints)
  | _ =>
    let (x, complaints) := argumentFraction arg
    (s.fraction directive x, true, complaints)

/-! ### Formats -/

/-- What a use of a format writes, with what it leaves of the arguments and what it says. -/
structure Formatted where
  text : List Char := []
  args : List String
  complaints : List String := []
  /-- A directive was not known. -/
  invalid : Bool := false
  /-- Nothing more is written. -/
  isOver : Bool := false

/-- A number of 64 bits as one of 32 bits. -/
def asInt (n : Int) : Int :=
  Int.bmod n 4294967296

/-- The number at the start of a format, or the one that the next argument writes if a star stands there. -/
def formatNumber (cs : List Char) (args : List String) : Int × List Char × List String × List String :=
  match cs with
  | '*' :: rest =>
    let (n, complaints) := argumentNumber true (args.headD "")
    (asInt n, rest, args.drop 1, complaints)
  | cs =>
    let digits := cs.takeWhile Char.isDigit
    (Numeral.inBase 10 digits, cs.drop digits.length, args, [])

/-- The style at the start of a format, the rest of the format, the arguments that are left, and what is said. A
negative width stands for a mark, and a negative precision for none. -/
def styleOf (cs : List Char) (args : List String) : Style × List Char × List String × List String :=
  let isMark (c : Char) : Bool := ['#', '-', '+', ' ', '0'].contains c
  let marks := cs.takeWhile isMark
  let (width, rest, args, complaints) := formatNumber (cs.drop marks.length) args
  let style : Style := { marks := if width < 0 then '-' :: marks else marks, width := width.natAbs }
  match rest with
  | '.' :: rest =>
    let (precision, rest, args, more) := formatNumber rest args
    ({ style with precision := if precision < 0 then none else some precision.toNat }, rest, args,
      complaints ++ more)
  | rest => (style, rest, args, complaints)

/-- Uses a format once; it has less than `fuel` characters. A directive that is not known ends the writing. -/
def useFormat (fuel : Nat) (cs : List Char) (args : List String) : Formatted :=
  match fuel with
  | 0 => { args }
  | fuel + 1 =>
    -- What is written when `text` comes first.
    let after (text : List Char) (rest : List Char) (args : List String) : Formatted :=
      let f := useFormat fuel rest args
      { f with text := text ++ f.text }
    match cs with
    | [] => { args }
    | '%' :: '%' :: rest => after ['%'] rest args
    | '%' :: rest =>
      let (style, behind, args, said) := styleOf rest args
      match behind with
      | [] => { args := [], complaints := said ++ ["missing format character"], invalid := true }
      | d :: behind =>
        if directives.contains d then
          let (text, whole, complaints) := filledIn style d (args.headD "")
          if whole then
            let f := after text behind (args.drop 1)
            { f with complaints := said ++ complaints ++ f.complaints }
          else { text, args := args.drop 1, complaints := said, isOver := true }
        else
          let directive := rest.take (rest.length - behind.length)
          { args := []
            complaints := said ++ ["%" ++ String.ofList directive ++ ": invalid directive"]
            invalid := true }
    | c :: rest =>
      if c = '\\' then
        match escape? false rest with
        | some (o, length) => after [o] (rest.drop length) args
        | none => after [c] rest args
      else after [c] rest args

/-- Uses a format until no arguments are left, at most `fuel` times. A format without directives is used
once. -/
def formatted (fuel : Nat) (format : List Char) (args : List String) : Formatted :=
  match fuel with
  | 0 => { args }
  | fuel + 1 =>
    let f := useFormat (format.length + 1) format args
    if f.isOver || f.invalid || f.args.isEmpty || f.args.length == args.length then f
    else
      let more := formatted fuel format f.args
      { more with text := f.text ++ more.text, complaints := f.complaints ++ more.complaints }

end PacketFilter.Shell
