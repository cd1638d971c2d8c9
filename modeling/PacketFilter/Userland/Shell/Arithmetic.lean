import PacketFilter.Userland.Number
import PacketFilter.Userland.Shell.Printing
import PacketFilter.Userland.Shell.State

/-! # Arithmetic in scripts

Expressions over whole numbers of 64 bits, with parameters that may be set on the way. `evaluate` finds the value of
the expression that a text writes, from left to right, so that what is wrong with the end of an expression shows only
after the start of it has been evaluated. An operand that does not count changes nothing. -/

namespace PacketFilter.Shell

open PacketFilter.Number

/-- An operation with two operands. -/
inductive Operation where
  | or | xor | and | equal | different | less | atMost | greater | atLeast
  | shiftLeft | shiftRight | add | subtract | multiply | divide | remainder
deriving DecidableEq

namespace Operation

/-- How strongly an operation binds its operands; the strongest ones have the least number. -/
def level : Operation → Nat
  | multiply | divide | remainder => 0
  | add | subtract => 1
  | shiftLeft | shiftRight => 2
  | less | atMost | greater | atLeast => 3
  | equal | different => 4
  | and => 5
  | xor => 6
  | or => 7

/-- One for what holds and zero for what does not. -/
def truth (holds : Bool) : Int64 :=
  if holds then 1 else 0

def least : Int64 := -9223372036854775808

/-- The result of an operation. There is none if the divisor is zero, or if the quotient is beyond all numbers. -/
def result? (op : Operation) (x y : Int64) : Option Int64 :=
  match op with
  | or => some (x ||| y)
  | xor => some (x ^^^ y)
  | and => some (x &&& y)
  | equal => some (truth (x == y))
  | different => some (truth (x != y))
  | less => some (truth (decide (x < y)))
  | atMost => some (truth (decide (x ≤ y)))
  | greater => some (truth (decide (y < x)))
  | atLeast => some (truth (decide (y ≤ x)))
  | shiftLeft => some (x <<< y)
  | shiftRight => some (x >>> y)
  | add => some (x + y)
  | subtract => some (x - y)
  | multiply => some (x * y)
  | divide => if y = 0 ∨ (x = least ∧ y = -1) then none else some (x / y)
  | remainder => if y = 0 ∨ (x = least ∧ y = -1) then none else some (x % y)

end Operation

namespace Expression

/-! ### Pieces -/

/-- A token of an expression. -/
inductive Piece where
  | number (n : Int64)
  | name (text : String)
  | sign (text : String)
  /-- A character that has no place in an expression. -/
  | other
deriving DecidableEq

/-- The signs of expressions, longer ones first. -/
def signs : List String :=
  ["<<=", ">>=", "<<", ">>", "<=", ">=", "==", "!=", "&&", "||", "+=", "-=", "*=", "/=", "%=", "&=", "|=",
    "^=", "+", "-", "*", "/", "%", "&", "|", "^", "<", ">", "=", "!", "~", "?", ":", "(", ")"]

def greatest : Nat := 9223372036854775807

/-- A number as it counts: none is beyond the greatest. -/
def limited (n : Nat) : Int64 :=
  Int64.ofNat (min n greatest)

/-- The number that a text writes that is the value of a parameter: an optional sign and a number, perhaps octal,
hexadecimal or binary, with spacing around it. Nothing is zero. -/
def valueNumber? (text : String) : Option Int64 :=
  let (isNegative, cs) := Numeral.sign (text.toList.dropWhile isSpacing)
  match wholeNumber? cs with
  | some (n, rest) =>
    if ! rest.all isSpacing then none
    else if isNegative then if n ≤ greatest + 1 then some (-(Int64.ofNat n)) else none
    else if n ≤ greatest then some (Int64.ofNat n) else none
  | none => if text.toList.all isSpacing then some 0 else none

/-- The piece at the start of a list of characters, and what follows it. -/
def piece (c : Char) (rest : List Char) : Piece × List Char :=
  let cs := c :: rest
  match wholeNumber? cs with
  | some (n, rest) => (.number (limited n), rest)
  | none =>
    if startsName c then (.name (String.ofList (cs.takeWhile isNameChar)), cs.dropWhile isNameChar)
    else
      let sign := signs.findSome? fun text =>
        (Text.dropStart? text.toList cs).map fun rest => (.sign text, rest)
      sign.getD (.other, rest)

/-- The pieces of a list of characters; there are at most `fuel`. -/
def pieces (fuel : Nat) (cs : List Char) : List Piece :=
  match fuel, cs.dropWhile fun c => c == ' ' || c == '\t' || c == '\n' with
  | 0, _ => []
  | _, [] => []
  | fuel + 1, c :: rest =>
    let (first, rest) := piece c rest
    first :: pieces fuel rest

/-! ### Values -/

/-- What finds the value of a part of an expression from the pieces that are left. -/
abbrev Reckoning := StateT (List Piece) Run

/-- Something is wrong with the expression that a text writes. -/
def fail (text what : String) : Reckoning α :=
  Run.fail ("arithmetic expression: " ++ what ++ ": \"" ++ text ++ "\"")

/-- Drops a sign if it stands here. -/
def skip (sign : String) : Reckoning Bool := do
  if (← get).head? = some (.sign sign) then
    modify (·.drop 1)
    return true
  else return false

/-- The operations with two operands, by their signs. -/
def operations : List (String × Operation) :=
  [("|", .or), ("^", .xor), ("&", .and), ("==", .equal), ("!=", .different), ("<", .less), ("<=", .atMost),
    (">", .greater), (">=", .atLeast), ("<<", .shiftLeft), (">>", .shiftRight), ("+", .add),
    ("-", .subtract), ("*", .multiply), ("/", .divide), ("%", .remainder)]

/-- The signs that set a parameter, with the operation that counts first. -/
def assigning : List (String × Option Operation) :=
  [("=", none), ("+=", some .add), ("-=", some .subtract), ("*=", some .multiply), ("/=", some .divide),
    ("%=", some .remainder), ("&=", some .and), ("|=", some .or), ("^=", some .xor),
    ("<<=", some .shiftLeft), (">>=", some .shiftRight)]

/-- The operation whose sign stands here. -/
def operation? : Reckoning (Option Operation) := do
  match (← get).head? with
  | some (.sign sign) => return operations.lookup sign
  | _ => return none

/-- The signal that stops a script at a quotient that is beyond all numbers. -/
def overflowSignal : Nat := 8

/-- The value of a parameter as a number. -/
def parameter (name : String) : Reckoning Int64 := do
  let text := (← (Run.value? name : Run (Option String))).getD ""
  match valueNumber? text with
  | some n => return n
  | none => Run.fail ("Illegal number: " ++ text)

/-- Carries out an operation, unless it does not count. -/
def combine (text : String) (counts : Bool) (op : Operation) (x y : Int64) : Reckoning Int64 :=
  if ! counts then return y
  else
    match op.result? x y with
    | some n => return n
    | none => if y = 0 then fail text "division by zero" else throw (.killed overflowSignal)

mutual

/-- A number, a parameter, an expression between parentheses, or one of these behind a sign. -/
def operand (text : String) (fuel : Nat) (counts : Bool) : Reckoning Int64 :=
  match fuel with
  | 0 => fail text "expecting primary"
  | fuel + 1 => do
    let ps ← get
    set (ps.drop 1)
    match ps.head? with
    | some (.number n) => return n
    | some (.name name) => if counts then parameter name else return 0
    | some (.sign "(") =>
      let n ← whole text fuel counts
      if ← skip ")" then return n else fail text "expecting ')'"
    | some (.sign "+") => operand text fuel counts
    | some (.sign "-") => return -(← operand text fuel counts)
    | some (.sign "!") => return Operation.truth ((← operand text fuel counts) == 0)
    | some (.sign "~") => return ~~~(← operand text fuel counts)
    | _ => fail text "expecting primary"

/-- The rest of operations behind the sign of `op`, whose first operand is given. Operations of `level` and weaker
ones are left. -/
def operationsRest (text : String) (fuel : Nat) (counts : Bool) (first : Int64) (op : Operation) (level : Nat) :
    Reckoning Int64 :=
  match fuel with
  | 0 => return first
  | fuel + 1 => do
    modify (·.drop 1)
    let mut second ← operand text fuel counts
    match ← operation? with
    | some next =>
      if next.level < op.level then second ← operationsRest text fuel counts second next op.level
    | none => pure ()
    let n ← combine text counts op first second
    match ← operation? with
    | some next =>
      if level ≤ next.level then return n else operationsRest text fuel counts n next level
    | none => return n

/-- Operations, of which both have to hold if `&&` stands between them, and one of them if `||` does. -/
def alternatives (text : String) (fuel : Nat) (counts : Bool) (isEither : Bool) : Reckoning Int64 :=
  match fuel with
  | 0 => fail text "expecting primary"
  | fuel + 1 => do
    if isEither then
      let a ← alternatives text fuel counts false
      if ← skip "||" then
        let b ← alternatives text fuel (counts && a == 0) true
        return Operation.truth (a != 0 || b != 0)
      else return a
    else
      let n ← operand text fuel counts
      let a ←
        match ← operation? with
        | some op => operationsRest text fuel counts n op 8
        | none => pure n
      if ← skip "&&" then
        let b ← alternatives text fuel (counts && a != 0) false
        return Operation.truth (a != 0 && b != 0)
      else return a

/-- A choice between two expressions, or operations. -/
def choices (text : String) (fuel : Nat) (counts : Bool) : Reckoning Int64 :=
  match fuel with
  | 0 => fail text "expecting primary"
  | fuel + 1 => do
    let a ← alternatives text fuel counts true
    if ← skip "?" then
      let b ← whole text fuel (counts && a != 0)
      if ← skip ":" then
        let c ← choices text fuel (counts && a == 0)
        return if a != 0 then b else c
      else fail text "expecting ':'"
    else return a

/-- A whole expression: an assignment, a choice or operations. -/
def whole (text : String) (fuel : Nat) (counts : Bool) : Reckoning Int64 :=
  match fuel with
  | 0 => fail text "expecting primary"
  | fuel + 1 => do
    match (← get) with
    | .name name :: .sign sign :: rest =>
      match assigning.lookup sign with
      | some op =>
        set rest
        let b ← whole text fuel counts
        if ! counts then return b
        else
          let n ←
            match op with
            | none => pure b
            | some op => combine text true op (← parameter name) b
          Run.assign name (toString n.toInt)
          return n
      | none => choices text fuel counts
    | _ => choices text fuel counts

end

end Expression

/-- The value of the expression that a text writes. -/
def evaluate (text : String) : Run String := do
  let ps := Expression.pieces text.length text.toList
  let (n, rest) ← (Expression.whole text (8 * ps.length + 8) true).run ps
  if rest.isEmpty then return toString n.toInt
  else Run.fail ("arithmetic expression: expecting EOF: \"" ++ text ++ "\"")

end PacketFilter.Shell
