import PacketFilter.Json
import PacketFilter.Text.Decimal

/-! # JSON as text

How JSON tokens are written and read. A string is written with the shortest escapes, so it never holds a control
character; `readString?` reads every escape, and puts the two halves of a surrogate pair together. `lex?` splits a text
into its tokens. `Json.compact` writes a value on one line without blanks. `Json.pretty` gives every item and member a
line of its own, two spaces deeper than the array or object around it; empty ones stay on one line. -/

/-! ## The range of numbers

A number may be beyond the greatest floating-point number of 64 bits, and then it cannot be kept. The number that is
kept is the leading digits that fit into 64 bits times a power of ten. Both are rounded to 53 bits, and so is their
product; `isHuge` says when that product has more than 1024 bits. -/

namespace PacketFilter.Json.Range

/-- The first number that has too many bits for a word. -/
def wordLimit : Nat := 18446744073709551616

/-- The nearest number with at most 53 significant bits. Halfway between two, it is the even one. -/
def rounded (n : Nat) : Nat :=
  let unit := Nat.pow 2 (n.log2 + 1 - 53)
  let below := n / unit
  let rest := n % unit
  if unit < 2 * rest ∨ (unit = 2 * rest ∧ below % 2 = 1) then (below + 1) * unit else below * unit

/-- The number written by as many leading digits as can follow `n` within a word, and how many digits that
are. -/
def leading (n : Nat) : List Char → Nat × Nat
  | [] => (n, 0)
  | c :: cs =>
    let next := 10 * n + Text.Decimal.digit c
    if next < wordLimit then
      let (m, count) := leading next cs
      (m, count + 1)
    else (n, 0)

/-- The greatest power of ten that is a floating-point number. -/
def maxPower : Int := 308

/-- Whether `n` times a power of ten is beyond every floating-point number. -/
def isHugeProduct (n : Nat) (power : Int) : Bool :=
  n != 0 && (maxPower < power ||
    (0 ≤ power && Nat.pow 2 1024 ≤ rounded (rounded n * rounded (Nat.pow 10 power.toNat))))

/-- Whether the number with the given digits before and after the point, times a power of ten, is beyond
every floating-point number. -/
def isHuge (whole fraction : List Char) (power : Int) : Bool :=
  let (n, taken) := leading 0 whole
  let (n, added) := leading n fraction
  isHugeProduct n (power + (whole.length - taken : Nat) - added)

end PacketFilter.Json.Range

/-! ## Tokens -/

namespace PacketFilter.Json

/-! ### Writing -/

/-- A hexadecimal digit, in lower case. -/
def hexDigit (n : Nat) : Char :=
  if n < 10 then Char.ofNat (48 + n) else Char.ofNat (87 + n)

def escapeChar (c : Char) : List Char :=
  if c = '"' then ['\\', '"']
  else if c = '\\' then ['\\', '\\']
  else if c = '\n' then ['\\', 'n']
  else if c = '\r' then ['\\', 'r']
  else if c = '\t' then ['\\', 't']
  else if c = '\x08' then ['\\', 'b']
  else if c = '\x0c' then ['\\', 'f']
  else if c.toNat < 32 then ['\\', 'u', '0', '0', hexDigit (c.toNat / 16), hexDigit (c.toNat % 16)]
  else [c]

def stringChars (s : String) : List Char :=
  '"' :: s.toList.flatMap escapeChar ++ ['"']

/-- The text of a value that is neither an array nor an object. -/
def scalarChars : Json → List Char
  | .bool true => "true".toList
  | .bool false => "false".toList
  | .int n => (toString n).toList
  | .real text => text.toList
  | .str s => stringChars s
  | _ => "null".toList

def Token.chars : Token → List Char
  | .openArray => ['[']
  | .closeArray => [']']
  | .openObject => ['{']
  | .closeObject => ['}']
  | .comma => [',']
  | .colon => [':']
  | .scalar v => scalarChars v

/-! ### Reading strings -/

/-- A character of a string, or the half of a surrogate pair that an escape names. -/
inductive Unit16 where
  | char (c : Char)
  | half (n : Nat)

def hexValue? (c : Char) : Option Nat :=
  if c.isDigit then some (c.toNat - 48)
  else if 'a' ≤ c ∧ c ≤ 'f' then some (c.toNat - 87)
  else if 'A' ≤ c ∧ c ≤ 'F' then some (c.toNat - 55)
  else none

/-- The unit that an escape with four hexadecimal digits names. -/
def unit? (a b c d : Char) : Option Unit16 := do
  let n := ((← hexValue? a) * 16 + (← hexValue? b)) * 256 + (← hexValue? c) * 16 + (← hexValue? d)
  return if 0xD800 ≤ n ∧ n < 0xE000 then .half n else .char (Char.ofNat n)

/-- The character that a letter names after a backslash. -/
def shortEscape? : Char → Option Char
  | '"' => some '"'
  | '\\' => some '\\'
  | '/' => some '/'
  | 'b' => some '\x08'
  | 'f' => some '\x0c'
  | 'n' => some '\n'
  | 'r' => some '\r'
  | 't' => some '\t'
  | _ => none

/-- The units of a string up to its closing quote, and what follows the quote. -/
def scanString? : List Char → Option (List Unit16 × List Char)
  | [] => none
  | '"' :: cs => some ([], cs)
  | '\\' :: 'u' :: a :: b :: c :: d :: cs => do
    let u ← unit? a b c d
    let (us, rest) ← scanString? cs
    return (u :: us, rest)
  | '\\' :: c :: cs => do
    let e ← shortEscape? c
    let (us, rest) ← scanString? cs
    return (.char e :: us, rest)
  | c :: cs =>
    if c.toNat < 32 ∨ c = '\\' then none
    else do
      let (us, rest) ← scanString? cs
      return (.char c :: us, rest)

/-- The characters of a list of units, if every half stands in a pair. -/
def joinUnits? : List Unit16 → Option (List Char)
  | [] => some []
  | .char c :: us => (joinUnits? us).map (c :: ·)
  | .half hi :: .half lo :: us =>
    if hi < 0xDC00 ∧ 0xDC00 ≤ lo then
      (joinUnits? us).map (Char.ofNat (0x10000 + (hi - 0xD800) * 0x400 + (lo - 0xDC00)) :: ·)
    else none
  | .half _ :: _ => none

/-- The string after an opening quote, and what follows its closing quote. -/
def readString? (cs : List Char) : Option (Json × List Char) := do
  let (us, rest) ← scanString? cs
  return ((joinUnits? us).elim .damaged fun s => .str (String.ofList s), rest)

theorem scanString?_length {cs : List Char} {us : List Unit16} {rest : List Char}
    (h : scanString? cs = some (us, rest)) : rest.length < cs.length := by
  fun_induction scanString? cs generalizing us rest with
  | case1 => simp at h
  | case2 cs => simp_all
  | case3 a b c d cs ih =>
    simp only [Option.bind_eq_bind, Option.bind_eq_some_iff, Option.pure_def, Option.some.injEq,
      Prod.mk.injEq, Prod.exists] at h
    obtain ⟨u, _, us', rest', h', _, rfl⟩ := h
    have := ih h'
    simp; omega
  | case4 c cs _ ih =>
    simp only [Option.bind_eq_bind, Option.bind_eq_some_iff, Option.pure_def, Option.some.injEq,
      Prod.mk.injEq, Prod.exists] at h
    obtain ⟨e, _, us', rest', h', _, rfl⟩ := h
    have := ih h'
    simp; omega
  | case5 => simp at h
  | case6 c cs _ _ _ _ ih =>
    simp only [Option.bind_eq_bind, Option.bind_eq_some_iff, Option.pure_def, Option.some.injEq,
      Prod.mk.injEq, Prod.exists] at h
    obtain ⟨us', rest', h', _, rfl⟩ := h
    have := ih h'
    simp; omega

theorem readString?_length {cs rest : List Char} {v : Json} (h : readString? cs = some (v, rest)) :
    rest.length < cs.length := by
  simp only [readString?, Option.bind_eq_bind, Option.bind_eq_some_iff, Option.pure_def,
    Option.some.injEq, Prod.mk.injEq, Prod.exists] at h
  obtain ⟨us, rest', h', _, rfl⟩ := h
  exact scanString?_length h'

/-! ### Reading numbers and names -/

/-- The characters that numbers are made of. -/
def isNumberChar (c : Char) : Bool :=
  c.isDigit || c == '-' || c == '+' || c == '.' || c == 'e' || c == 'E'

/-- The exponent of a number: a letter, perhaps a sign, and digits; or nothing. -/
def isExponent : List Char → Bool
  | [] => true
  | e :: cs =>
    (e == 'e' || e == 'E') &&
      match cs with
      | '+' :: ds => Text.Decimal.isNumeral ds
      | '-' :: ds => Text.Decimal.isNumeral ds
      | ds => Text.Decimal.isNumeral ds

/-- What follows the whole part of a number: a fraction, an exponent, both or neither. -/
def isTail : List Char → Bool
  | '.' :: cs => ! (cs.takeWhile Char.isDigit).isEmpty && isExponent (cs.dropWhile Char.isDigit)
  | cs => isExponent cs

/-- Whether `ds` writes a whole number: digits without leading zeros. -/
def isWhole (ds : List Char) : Bool :=
  Text.Decimal.isNumeral ds && (ds.length == 1 || ds.head? != some '0')

/-- The digits of the fraction at the start of what follows the whole part of a number. -/
def fractionDigits : List Char → List Char
  | '.' :: cs => cs.takeWhile Char.isDigit
  | _ => []

/-- The power of ten that what follows the whole part of a number ends with. -/
def power (tail : List Char) : Int :=
  match tail.dropWhile fun c => c == '.' || c.isDigit with
  | _ :: '-' :: ds => - (Text.Decimal.value ds : Int)
  | _ :: '+' :: ds => Text.Decimal.value ds
  | _ :: ds => Text.Decimal.value ds
  | [] => 0

/-- The value of a number whose characters are `cs`; `negative` says that a minus sign stood before. -/
def unsignedNumber? (negative : Bool) (cs : List Char) : Option Json :=
  let whole := cs.takeWhile Char.isDigit
  let tail := cs.dropWhile Char.isDigit
  if ! isWhole whole || ! isTail tail then none
  else if Range.isHuge whole (fractionDigits tail) (power tail) then some .huge
  else
    let n := Text.Decimal.value whole
    if tail.isEmpty && ! (negative && n == 0) then
      some (.int (if negative then - (n : Int) else n))
    else some (.real (String.ofList (if negative then '-' :: cs else cs)))

/-- The value of a number whose characters are `cs`. -/
def number? : List Char → Option Json
  | '-' :: cs => unsignedNumber? true cs
  | cs => unsignedNumber? false cs

/-- The value that a name stands for. -/
def name? (cs : List Char) : Option Json :=
  if cs = "null".toList then some .null
  else if cs = "true".toList then some (.bool true)
  else if cs = "false".toList then some (.bool false)
  else none

/-! ### Reading tokens -/

/-- The blanks between tokens. -/
def isGap (c : Char) : Bool :=
  c == ' ' || c == '\t' || c == '\n' || c == '\r'

/-- The token that one character stands for. -/
def mark? : Char → Option Token
  | '[' => some .openArray
  | ']' => some .closeArray
  | '{' => some .openObject
  | '}' => some .closeObject
  | ',' => some .comma
  | ':' => some .colon
  | _ => none

/-- The tokens of a list of characters. -/
def lex? : List Char → Option (List Token)
  | [] => some []
  | c :: cs =>
    if isGap c then lex? cs
    else match mark? c with
      | some t => (lex? cs).map (t :: ·)
      | none =>
        if c = '"' then
          match _h : readString? cs with
          | none => none
          | some (v, rest) => (lex? rest).map (.scalar v :: ·)
        else if isNumberChar c && c != 'e' && c != 'E' then do
          let v ← number? (c :: cs.takeWhile isNumberChar)
          (lex? (cs.dropWhile isNumberChar)).map (.scalar v :: ·)
        else do
          let v ← name? (c :: cs.takeWhile Char.isAlpha)
          (lex? (cs.dropWhile Char.isAlpha)).map (.scalar v :: ·)
termination_by cs => cs.length
decreasing_by
  · simp
  · simp
  · have := readString?_length _h
    simp; omega
  · exact Nat.lt_succ_of_le (List.dropWhile_sublist _).length_le
  · exact Nat.lt_succ_of_le (List.dropWhile_sublist _).length_le

/-! ## Values -/

/-- A value on one line. -/
def compact (v : Json) : String :=
  String.ofList (v.tokens.flatMap Token.chars)

/-- A line break and the indentation of a given level. -/
def newLine (level : Nat) : List Char :=
  '\n' :: List.replicate (2 * level) ' '

mutual

/-- The characters of a value whose own lines are indented to `level`. -/
def prettyChars (level : Nat) : Json → List Char
  | .arr [] => ['[', ']']
  | .arr items => '[' :: (prettyItems (level + 1) items ++ newLine level ++ [']'])
  | .obj [] => ['{', '}']
  | .obj members => '{' :: (prettyMembers (level + 1) members ++ newLine level ++ ['}'])
  | v => scalarChars v

/-- The characters of the items of an array. -/
def prettyItems (level : Nat) : List Json → List Char
  | [] => []
  | [v] => newLine level ++ prettyChars level v
  | v :: vs => newLine level ++ prettyChars level v ++ ',' :: prettyItems level vs

/-- The characters of the members of an object. -/
def prettyMembers (level : Nat) : List (String × Json) → List Char
  | [] => []
  | [(name, v)] => newLine level ++ stringChars name ++ ':' :: ' ' :: prettyChars level v
  | (name, v) :: ms =>
    newLine level ++ stringChars name ++ ':' :: ' ' :: (prettyChars level v ++ ',' :: prettyMembers level ms)

end

/-- A value with a line for every item and member. -/
def pretty (v : Json) : String :=
  String.ofList (prettyChars 0 v)

end PacketFilter.Json
