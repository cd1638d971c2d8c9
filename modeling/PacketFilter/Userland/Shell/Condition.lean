import PacketFilter.Userland.Shell.State

/-! # Conditions

The command `test` finds out whether a condition holds: tests of texts, numbers and files, which can be negated, put
together and enclosed in parentheses. Whether an argument is an operation or a text depends on what follows it. -/

namespace PacketFilter.Shell.Condition

/-- What an argument of a condition is. -/
inductive Sign where
  | ending
  | operand
  | unary (name : String)
  | binary (name : String)
  | not
  | both
  | either
  | opening
  | closing
deriving DecidableEq

def unaryNames : List String :=
  ["-r", "-w", "-x", "-e", "-f", "-d", "-c", "-b", "-p", "-u", "-g", "-k", "-s", "-t", "-z", "-n", "-h", "-O",
    "-G", "-L", "-S"]

def binaryNames : List String :=
  ["=", "!=", "<", ">", "-eq", "-ne", "-ge", "-gt", "-le", "-lt", "-nt", "-ot", "-ef"]

def operation? (text : String) : Option Sign :=
  if unaryNames.contains text then some (.unary text)
  else if binaryNames.contains text then some (.binary text)
  else [("!", Sign.not), ("-a", .both), ("-o", .either), ("(", .opening), (")", .closing)].lookup text

/-- Whether a text is a test with two operands. -/
def isBinary (text : String) : Bool :=
  binaryNames.contains text

/-- What the first of some arguments is. A test with one operand is a text if nothing follows it, or if a test with
two operands does. -/
def signOf : List String → Sign
  | [] => .ending
  | text :: rest =>
    match operation? text, rest with
    | some (.unary _), [] => .operand
    | some (.unary name), [_] => .unary name
    | some (.unary name), next :: _ => if isBinary next then .operand else .unary name
    | some .opening, [] => .operand
    | some sign, _ => sign
    | none, _ => .operand

/-- What finds out whether a part of a condition holds. The state is the arguments that are left, from the last one
on that was looked at. -/
abbrev Test := StateT (List String) Run

/-- Something is wrong with the condition. -/
def fail (text what : String) : Test α :=
  Run.fail (if text.isEmpty then what else text ++ ": " ++ what)

def numberOf (text : String) : Test Int :=
  match Number.word? text with
  | some n => return n
  | none => Run.fail ("Illegal number: " ++ text)

/-- Goes on to the next argument. -/
def advance : Test Unit :=
  modify (·.drop 1)

/-- What the argument is that so many places on. -/
def signAhead (n : Nat) : Test Sign := do
  return signOf ((← get).drop n)

/-! ### Tests -/

/-- The node that a path leads to. -/
def node? (path : String) : Run (Option (Nat × Node)) := do
  let sh ← get
  match sh.world.files.find sh.process.directory path with
  | .ok n => return some (n, sh.world.files.node n)
  | .error _ => return none

/-- Whether a path leads to a link. -/
def isLink (path : String) : Run Bool := do
  let sh ← get
  match sh.world.files.findLink sh.process.directory path with
  | .ok n =>
    match sh.world.files.node n with
    | .link _ => return true
    | _ => return false
  | .error _ => return false

/-- Whether a test of a file holds. -/
def holdsOfFile (name path : String) : Run Bool := do
  if name = "-h" ∨ name = "-L" then isLink path
  else
    match ← node? path with
    | none => return false
    | some (_, node) =>
      match name with
      | "-f" => return node.isRegular
      | "-d" => return node.isDirectory
      | "-x" => return node.isDirectory || node.isRunnable
      | "-s" => return node.size != 0
      | "-c" =>
        match node with
        | .device _ => return true
        | _ => return false
      | "-u" => return node.mode &&& 0o4000 != 0
      | "-g" => return node.mode &&& 0o2000 != 0
      | "-k" => return node.mode &&& 0o1000 != 0
      | "-b" | "-p" | "-S" => return false
      | _ => return true

/-- Whether a test with one operand holds. -/
def holdsUnary (name operand : String) : Test Bool := do
  match name with
  | "-z" => return operand.isEmpty
  | "-n" => return ! operand.isEmpty
  | "-t" =>
    let _ ← numberOf operand
    return false
  | name => holdsOfFile name operand

/-- Whether a test with two operands holds. -/
def holdsBinary (name a b : String) : Test Bool := do
  let numbers (holds : Int → Int → Bool) : Test Bool := do
    let x ← numberOf a
    return holds x (← numberOf b)
  let nodes (holds : World → Nat → Nat → Bool) : Test Bool := do
    match ← (node? a : Run _), ← (node? b : Run _) with
    | some (m, _), some (n, _) => return holds (← (get : Run _)).world m n
    | _, _ => return false
  match name with
  | "=" => return a == b
  | "!=" => return a != b
  | "<" => return decide (a < b)
  | ">" => return decide (b < a)
  | "-eq" => numbers fun x y => x == y
  | "-ne" => numbers fun x y => x != y
  | "-ge" => numbers fun x y => decide (y ≤ x)
  | "-gt" => numbers fun x y => decide (y < x)
  | "-le" => numbers fun x y => decide (x ≤ y)
  | "-lt" => numbers fun x y => decide (x < y)
  | "-ef" => nodes fun _ m n => m == n
  | "-nt" => nodes fun w m n => decide (w.changedAt n < w.changedAt m)
  | _ => nodes fun w m n => decide (w.changedAt m < w.changedAt n)

/-! ### Grammar -/

mutual

/-- A condition that begins with the given sign; parts of it are enough. -/
def either (fuel : Nat) (sign : Sign) : Test Bool :=
  match fuel with
  | 0 => return false
  | fuel + 1 => do
    let holds ← both fuel sign
    if (← signAhead 1) = .either then
      modify (·.drop 2)
      let more ← either fuel (← signAhead 0)
      return holds || more
    else return holds

/-- A condition of which all parts are needed. -/
def both (fuel : Nat) (sign : Sign) : Test Bool :=
  match fuel with
  | 0 => return false
  | fuel + 1 => do
    let holds ← negated fuel sign
    if (← signAhead 1) = .both then
      modify (·.drop 2)
      let more ← both fuel (← signAhead 0)
      return holds && more
    else return holds

/-- A condition that may be negated. -/
def negated (fuel : Nat) (sign : Sign) : Test Bool :=
  match fuel with
  | 0 => return false
  | fuel + 1 => do
    if sign = .not then
      let next ← signAhead 1
      if next != .ending then advance
      return ! (← negated fuel next)
    else primary fuel sign

/-- A single test, or a condition between parentheses. -/
def primary (fuel : Nat) (sign : Sign) : Test Bool :=
  match fuel with
  | 0 => return false
  | fuel + 1 => do
    match sign with
    | .ending => return false
    | .opening =>
      advance
      let next ← signAhead 0
      if next = .closing then return false
      else
        let holds ← either fuel next
        advance
        if (← signAhead 0) != .closing then fail "" "closing paren expected" else return holds
    | .unary name =>
      advance
      match (← get).head? with
      | none => fail name "argument expected"
      | some operand => holdsUnary name operand
    | _ =>
      match ← signAhead 1, ← get with
      | .binary name, a :: _ :: b :: _ =>
        modify (·.drop 2)
        holdsBinary name a b
      | .binary name, _ => fail name "argument expected"
      | _, args => return args.head?.any fun text => ! text.isEmpty

end

/-- Whether the condition holds that arguments write. `isNegated` says that a negation stands in front of it, or several
of them: they count as one. -/
def holdsFrom (isNegated : Bool) : Nat → List String → Run Bool
  | 0, _ => return isNegated
  | fuel + 1, args => do
    -- Whether a condition holds that begins with a sign.
    let whole (sign : Sign) (args : List String) : Run Bool := do
      let (holds, rest) ← (either (5 * args.length + 5) sign).run args
      match rest with
      | text :: _ :: _ =>
        if text.isEmpty then Run.fail "unexpected operator" else Run.fail (text ++ ": unexpected operator")
      | _ => return holds != isNegated
    match args with
    | [] => return isNegated
    | [_, op, _] =>
      if isBinary op then whole .operand args
      else enclosed whole fuel args
    | [_, _, _, _] => enclosed whole fuel args
    | args => whole (signOf args) args
where
  /-- Three or four arguments, which may be between parentheses or negated. -/
  enclosed (whole : Sign → List String → Run Bool) (fuel : Nat) (args : List String) : Run Bool := do
    if args.head? = some "(" ∧ args.getLast? = some ")" then
      let inner := (args.drop 1).dropLast
      whole (signOf inner) inner
    else if args.head? = some "!" then holdsFrom true fuel (args.drop 1)
    else whole (signOf args) args

/-- The command `test`, which is called by its name or by an opening bracket. -/
def run (name : String) (args : List String) : Run Nat := do
  let args ←
    if name = "[" then
      if (args.getLast?.getD name).toList.head? = some ']' then pure args.dropLast
      else Run.fail "missing ]"
    else pure args
  return if ← holdsFrom false (args.length + 1) args then 0 else 1

end PacketFilter.Shell.Condition
