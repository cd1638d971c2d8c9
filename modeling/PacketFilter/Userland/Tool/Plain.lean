import PacketFilter.Userland.Number
import PacketFilter.Userland.Shell.Printing
import PacketFilter.Userland.Tool.Files

/-! # Small programs

`true`, `false`, `echo`, `pwd`, `basename`, `dirname`, `seq`, `sleep`, `printenv`, `id`, `whoami` and `expr`. -/

namespace PacketFilter.Tool

/-! ### Texts -/

/-- What the options of `echo` say: whether a line end follows, whether escapes count, and the arguments behind them. -/
def echoOptions (ends escapes : Bool) : List String → Bool × Bool × List String
  | [] => (ends, escapes, [])
  | arg :: args =>
    match arg.toList with
    | '-' :: c :: cs =>
      if (c :: cs).all ['n', 'e', 'E'].contains then
        let last := ((c :: cs).filter (· != 'n')).getLast?
        echoOptions (ends && ! (c :: cs).contains 'n') (last.elim escapes (· == 'e')) args
      else (ends, escapes, arg :: args)
    | _ => (ends, escapes, arg :: args)

def echo (args : List String) : Tool Nat := do
  let (ends, escapes, args) := echoOptions true false args
  let text := Text.unwords args
  let (shown, goesOn) := if escapes then Shell.unescaped text.toList else (text.toList, true)
  put "echo" (String.ofList shown ++ (if ends && goesOn then "\n" else ""))
  return 0

def pwd (_ : List String) : Tool Nat := do
  let t ← get
  put "pwd" (t.world.files.pathOf Files.maxSteps t.process.directory ++ "\n")
  return 0

def basename (args : List String) : Tool Nat := do
  match args with
  | [] => missingOperand "basename" "operand"
  | path :: rest =>
    let name := if path.isEmpty then "" else if path.all (· == '/') then "/" else lastName path
    let ending := rest.headD ""
    let isCut := ! ending.isEmpty && name != ending && name.endsWith ending
    put "basename" ((if isCut then String.ofList (name.toList.take (name.length - ending.length)) else name) ++ "\n")
    return 0

/-- The directory that a path names something in. -/
def directoryOf (path : String) : String :=
  let cs := Text.dropEndWhile (· == '/') path.toList
  let outer := Text.dropEndWhile (· != '/') cs
  let trimmed := Text.dropEndWhile (· == '/') outer
  if ! trimmed.isEmpty then String.ofList trimmed
  else if isAbsolute path then "/"
  else "."

def dirname (args : List String) : Tool Nat := do
  if args.isEmpty then missingOperand "dirname" "operand"
  put "dirname" (unlines (args.map directoryOf))
  return 0

/-! ### Numbers -/

/-- Numbers from one to another, of which there are so many at most. -/
def numbers (step last : Int) : Nat → Int → List Int
  | 0, _ => []
  | fuel + 1, n =>
    if (0 ≤ step ∧ n ≤ last) ∨ (step < 0 ∧ last ≤ n) then n :: numbers step last fuel (n + step) else []

/-- The program `seq`, for whole numbers. -/
def seq (args : List String) : Tool Nat := do
  let values ← args.mapM fun arg =>
    match Number.whole? arg with
    | some n => return n
    | none => fail 1 ("seq: invalid floating point argument: " ++ inQuotes arg ++
        "\nTry 'seq --help' for more information.")
  let shown (first step last : Int) : Tool Nat := do
    if step = 0 then
      fail 1 "seq: invalid Zero increment value: '0'\nTry 'seq --help' for more information."
    put "seq" (unlines ((numbers step last ((last - first).natAbs + 1) first).map toString))
    return 0
  match values with
  | [last] => shown 1 1 last
  | [first, last] => shown first 1 last
  | [first, step, last] => shown first step last
  | _ => missingOperand "seq" "operand"

/-- The number of milliseconds that a text says, with a unit or without one. -/
def duration? (text : String) : Option Nat :=
  let cs := text.toList
  let units := [('s', 1), ('m', 60), ('h', 3600), ('d', 86400)]
  let (cs, unit) :=
    match cs.getLast?.bind fun c => units.lookup c with
    | some unit => (cs.dropLast, unit)
    | none => (cs, 1)
  let whole := cs.takeWhile Char.isDigit
  let rest := cs.drop whole.length
  let digits := rest.drop 1
  if (whole.isEmpty && digits.isEmpty) || ! digits.all Char.isDigit || ! (rest.isEmpty || rest.head? == some '.') then
    none
  else
    let thousandths := (digits ++ ['0', '0', '0']).take 3
    some ((Text.Decimal.value whole * 1000 + Text.Decimal.value thousandths) * unit)

/-- The program `sleep`. Time goes by. -/
def sleep (args : List String) : Tool Nat := do
  if args.isEmpty then missingOperand "sleep" "operand"
  let times ← args.mapM fun arg => do
    match duration? arg with
    | some time => return time
    | none => fail 1 ("sleep: invalid time interval " ++ inQuotes arg ++ "\nTry 'sleep --help' for more information.")
  modify fun t => { t with world := { t.world with clock := t.world.clock + times.foldl (· + ·) 0 } }
  return 0

/-! ### Users and settings -/

def printenv (args : List String) : Tool Nat := do
  let environment := (← get).process.environment
  if args.isEmpty then
    put "printenv" (unlines (environment.map fun (name, value) => name ++ "=" ++ value))
    return 0
  else
    let values := args.map fun name => environment.lookup name
    put "printenv" (unlines (values.filterMap id))
    return statusOf (values.all Option.isSome)

/-- The program `id`, for a user who may do everything. -/
def identity (args : List String) : Tool Nat := do
  let (os, _) ← options "id" "unrgG" 1 args
  let has (c : Char) : Bool := os.any (·.1 == c)
  let isShort := has 'u' || has 'g' || has 'G'
  put "id" (if ! isShort then "uid=0(root) gid=0(root) groups=0(root)\n" else if has 'n' then "root\n" else "0\n")
  return 0

/-- The program `whoami`, for the same user. -/
def whoami (_ : List String) : Tool Nat := do
  put "whoami" "root\n"
  return 0

/-! ### Expressions -/

/-- What two operands of `expr` give, or why there is nothing. -/
def exprOf (a op b : String) : Except String String :=
  let truth (holds : Bool) : Except String String := .ok (if holds then "1" else "0")
  let isNothing (s : String) : Bool := s.isEmpty || s = "0"
  let compared (ofNumbers : Int → Int → Bool) (ofTexts : String → String → Bool) : Except String String :=
    match Number.whole? a, Number.whole? b with
    | some x, some y => truth (ofNumbers x y)
    | _, _ => truth (ofTexts a b)
  let number (f : Int → Int → Except String Int) : Except String String :=
    match Number.whole? a, Number.whole? b with
    | some x, some y => (f x y).map toString
    | _, _ => .error "non-integer argument"
  let divided (f : Int → Int → Int) (x y : Int) : Except String Int :=
    if y = 0 then .error "division by zero" else .ok (f x y)
  match op with
  | "+" => number fun x y => .ok (x + y)
  | "-" => number fun x y => .ok (x - y)
  | "*" => number fun x y => .ok (x * y)
  | "/" => number (divided Int.tdiv)
  | "%" => number (divided Int.tmod)
  | "=" | "==" => compared (· == ·) (· == ·)
  | "!=" => compared (· != ·) (· != ·)
  | "<" => compared (· < ·) (· < ·)
  | "<=" => compared (· ≤ ·) (· ≤ ·)
  | ">" => compared (· > ·) (· > ·)
  | ">=" => compared (· ≥ ·) (· ≥ ·)
  | "|" => .ok (if isNothing a then if isNothing b then "0" else b else a)
  | "&" => .ok (if isNothing a || isNothing b then "0" else a)
  | _ => .error "syntax error"

/-- The program `expr`, for operations that are carried out from the left. -/
def expr (args : List String) : Tool Nat := do
  let rec go (a : String) : List String → Tool String
    | op :: b :: rest =>
      match exprOf a op b with
      | .ok value => go value rest
      | .error why => fail 2 ("expr: " ++ why)
    | [op] => fail 2 ("expr: syntax error: missing argument after " ++ inQuotes op)
    | [] => return a
  match args with
  | [] => fail 2 "expr: missing operand\nTry 'expr --help' for more information."
  | ["length", text] =>
    put "expr" (toString text.length ++ "\n")
    return statusOf (! text.isEmpty)
  | first :: rest =>
    let value ← go first rest
    put "expr" (value ++ "\n")
    return if value.isEmpty ∨ value = "0" then 1 else 0

end PacketFilter.Tool
