import PacketFilter.Userland.Shell.Token

/-! # Words of scripts

`Lexing.readWord` reads a word from the characters of a script. What a character means depends on the quotes around
it; a use of a parameter between braces and an expression have quotes of their own, so there are `Level`s. A word
may hold a script, and `Grammar` says how that is read. -/

namespace PacketFilter.Shell

/-- The kinds of quotes that a character may stand between. -/
inductive Quoting where
  | none
  | double
  | single
  /-- No quotes, but an expression. -/
  | expression
deriving DecidableEq

/-- What a character does. -/
inductive Effect where
  | plain
  /-- The character stands for itself. -/
  | literal
  | newline
  | backslash
  | singleQuote
  | doubleQuote
  | quoteEnd
  | dollar
  | backquote
  | brace
  | opening
  | closing
  /-- The character ends a word. -/
  | special
  | ending
deriving DecidableEq

/-- The octets that have no plain place in a word. -/
def isReserved (c : Char) : Bool :=
  0x81 ≤ c.toNat && c.toNat ≤ 0x88

/-- The characters that mean something in patterns, in lists of paths and in settings. -/
def isPatternMark (c : Char) : Bool :=
  ['!', '*', '?', '[', '=', '~', ':', '/', '-', ']'].contains c

/-- What a character between quotes does. -/
def Quoting.effect (q : Quoting) : Option Char → Effect
  | Option.none => .ending
  | some '\n' => .newline
  | some c =>
    if isReserved c then .literal
    else
      match q with
      | .none =>
        match c with
        | '\\' => .backslash
        | '\'' => .singleQuote
        | '"' => .doubleQuote
        | '\x60' => .backquote
        | '$' => .dollar
        | '}' => .brace
        | '<' | '>' | '(' | ')' | ';' | '&' | '|' | ' ' | '\t' => .special
        | _ => .plain
      | .double =>
        match c with
        | '\\' => .backslash
        | '"' => .quoteEnd
        | '\x60' => .backquote
        | '$' => .dollar
        | '}' => .brace
        | c => if isPatternMark c then .literal else .plain
      | .single =>
        if c = '\'' then .quoteEnd
        else if isPatternMark c || c == '\\' then .literal
        else .plain
      | .expression =>
        match c with
        | '\\' => .backslash
        | '\x60' => .backquote
        | '$' => .dollar
        | '}' => .brace
        | '(' => .opening
        | ')' => .closing
        | _ => .plain

/-- A part of a word with quotes of its own. -/
structure Level where
  quoting : Quoting
  /-- The characters are between double quotes, or in an expression. -/
  isDouble : Bool := false
  /-- How many uses of parameters are open. -/
  opened : Nat := 0
  /-- How many of them are between double quotes. -/
  openedDouble : Nat := 0
  /-- How many parentheses are open. -/
  parentheses : Nat := 0
  /-- There are double quotes inside of a use of a parameter. -/
  innerDouble : Bool := false
  /-- The level ends with the last use of a parameter. -/
  endsWithUse : Bool := false

/-- What is open in a word: a use of a parameter or an expression. -/
inductive Opened where
  | parameter (name : String) (use : Use) (orEmpty : Bool)
  | expression

/-- What ends a word. -/
inductive WordEnd where
  /-- A character that is no part of a word. -/
  | special
  /-- The end of the script. -/
  | script
  /-- A line with a mark. -/
  | mark (cs : List Char) (dropsTabs : Bool)

/-- A word that is being read. -/
structure Lexing where
  level : Level
  /-- The levels around this one, from the inside out. -/
  outer : List Level := []
  /-- What is open, with the atoms before it, the last of them first. -/
  opened : List (Opened × List Atom) := []
  /-- The atoms that have been read, the last one first. -/
  atoms : List Atom := []
  isQuoted : Bool := false
  /-- The word is a part of a command. -/
  isCommand : Bool

/-- How the parts of a script are read that may hold others. -/
structure Grammar where
  /-- Reads commands: those of one line, those up to a keyword that ends them, or perhaps none. -/
  commands : (inLine mayBeNone : Bool) → Parse Script
  /-- Reads one command. -/
  command : Parse Script
  /-- Reads a token. -/
  token : Parse Token
  /-- How many characters a word has at most. -/
  limit : Nat

namespace Lexing

def add (l : Lexing) (a : Atom) : Lexing :=
  { l with atoms := a :: l.atoms }

/-- Adds a mark for quotes; texts that are no parts of commands have none. -/
def addQuote (l : Lexing) : Lexing :=
  if l.isCommand then l.add .quote else l

/-- Opens a use of a parameter or an expression. -/
def enter (l : Lexing) (o : Opened) : Lexing :=
  { l with opened := (o, l.atoms) :: l.opened, atoms := [] }

/-- Closes what was opened last. -/
def leave (l : Lexing) : Lexing :=
  match l.opened with
  | [] => l
  | (o, before) :: opened =>
    let inside := l.atoms.reverse
    let atom : Atom :=
      match o with
      | .parameter name use orEmpty => .parameter name use orEmpty inside
      | .expression => .expression inside
    { l with opened, atoms := atom :: before }

/-- Goes on with a new level. -/
def push (l : Lexing) (level : Level) : Lexing :=
  { l with level, outer := l.level :: l.outer }

/-- Goes on with the level around this one. -/
def pop (l : Lexing) : Lexing :=
  match l.outer with
  | [] => l
  | level :: outer => { l with level, outer }

/-- Takes a character; outside of single quotes, line ends behind a backslash are left out. -/
def next (G : Grammar) (l : Lexing) : Parse (Option Char) :=
  if l.level.quoting = .single then Parse.next else Parse.nextJoined G.limit

/-! ### Quotes -/

/-- Double quotes change from outside to inside or back. -/
def toggled (l : Lexing) : Lexing :=
  if l.level.opened = 0 then l
  else { l with level := { l.level with innerDouble := ! l.level.innerDouble } }

/-- The word behind double quotes that open. -/
def doubleQuoted (l : Lexing) : Lexing :=
  let l := { l with level := { l.level with quoting := .double, isDouble := true } }
  l.toggled.addQuote

/-- The word behind quotes that close. In a text that is no part of a command, double quotes stand for
themselves. -/
def unquoted (l : Lexing) (c : Char) : Lexing :=
  if ! l.isCommand && l.level.opened = 0 then l.add (.char c)
  else
    let level :=
      if l.level.openedDouble = 0 then { l.level with quoting := .none, isDouble := false } else l.level
    let l := { l with level, isQuoted := true }
    (if c = '"' then l.toggled else l).addQuote

/-- The word behind a backslash and a character. -/
def escaped (l : Lexing) (c : Char) : Lexing :=
  let stays : Bool :=
    l.level.isDouble && c != '\\' && c != '\x60' && c != '$' &&
      (c != '"' || (! l.isCommand && l.level.opened = 0)) && (c != '}' || l.level.opened = 0)
  let l := if stays then l.add (.escaped '\\') else l
  { l.add (.escaped c) with isQuoted := true }

def closedBrace (l : Lexing) : Lexing :=
  if ! l.level.innerDouble && 0 < l.level.opened then
    let level := { l.level with opened := l.level.opened - 1 }
    let l := { l with level }
    let l :=
      if level.opened = 0 ∧ level.endsWithUse then l.pop
      else { l with level := { level with openedDouble := level.openedDouble - 1 } }
    l.leave
  else l.add (.char '}')

/-! ### Scripts in words -/

/-- Reads a script up to a closing parenthesis. Texts that come at the end of a line of it must have come. -/
def readOutput (G : Grammar) : Parse Atom := do
  let awaited := (← get).awaited
  modify fun r => { r with awaited := [] }
  let script ← G.commands false true
  if (← G.token) != .closed then Parse.unexpected (some .closed)
  modify fun r => { r with awaited }
  return .output script

/-- Reads characters up to a backquote. A backslash is left out in front of some of them. -/
def readBackquoted (G : Grammar) (isDouble : Bool) : Nat → List Char → Parse (List Char)
  | 0, cs => return cs.reverse
  | fuel + 1, cs => do
    match ← Parse.nextJoined G.limit with
    | none => Parse.fail "EOF in backquote substitution"
    | some '\x60' => return cs.reverse
    | some '\\' =>
      let c ← Parse.next
      let isDropped :=
        c == some '\\' || c == some '\x60' || c == some '$' || (isDouble && c == some '"')
      let cs := if isDropped then cs else '\\' :: cs
      readBackquoted G isDouble fuel (c.toList ++ cs)
    | some c =>
      if c = '\n' then Parse.nextLine
      readBackquoted G isDouble fuel (c :: cs)

def readBackquote (G : Grammar) (isDouble : Bool) : Parse Atom := do
  let cs ← readBackquoted G isDouble G.limit []
  let r ← get
  set { r with source := Source.ofText (String.ofList cs), awaited := [] }
  let script ← G.commands false true
  modify fun inner => { inner with source := r.source, awaited := r.awaited, isBack := false }
  return .output script

/-! ### Parameters -/

/-- Takes characters of a kind, of which the first is given. The result has the first other character. -/
def readWhile (G : Grammar) (holds : Char → Bool) :
    Nat → Option Char → List Char → Parse (List Char × Option Char)
  | fuel + 1, some c, cs => do
    if holds c then readWhile G holds fuel (← Parse.nextJoined G.limit) (c :: cs)
    else return (cs.reverse, some c)
  | _, c, cs => return (cs.reverse, c)

/-- What is known of a use of a parameter: its name, whether its length is meant, the character behind the name,
and whether that can say what the use is. -/
structure NameRead where
  name : List Char
  isLength : Bool := false
  behind : Option Char
  isKnown : Bool := true

/-- Reads the name of a parameter between braces if it is made of letters or digits. -/
def readPlainName? (G : Grammar) (c : Option Char) : Parse (Option (List Char × Option Char)) := do
  if c.any startsName then return some (← readWhile G isNameChar G.limit c [])
  else if c.any Char.isDigit then return some (← readWhile G Char.isDigit G.limit c [])
  else return none

/-- Reads the name of a parameter between braces. A number sign in front of a name asks for the length. -/
def readName (G : Grammar) : Parse NameRead := do
  let c ← Parse.nextJoined G.limit
  match ← readPlainName? G c with
  | some (name, behind) => return { name, behind }
  | none =>
    if c = some '}' then return { name := [], behind := c, isKnown := false }
    let behind ← Parse.nextJoined G.limit
    let marked (isLength : Bool) (c behind : Option Char) : NameRead :=
      match c with
      | some c =>
        if isMark c || c.isDigit then { name := [c], isLength, behind }
        else { name := [], behind, isKnown := false }
      | none => { name := [], behind, isKnown := false }
    if c = some '#' then
      match ← readPlainName? G behind with
      | some (name, behind) => return { name, isLength := true, behind }
      | none =>
        let after ← Parse.nextJoined G.limit
        if behind = some '}' ∨ after ≠ some '}' then
          Parse.giveBack after
          return marked false c behind
        else return marked true behind after
    else return marked false c behind

/-- The use that a character behind the name of a parameter stands for. -/
def useOf : Option Char → Use
  | some '}' => .value
  | some '-' => .orElse
  | some '+' => .ifSet
  | some '?' => .required
  | some '=' => .assigned
  | _ => .meaningless

/-- Reads what is done with a parameter. -/
def readUse (G : Grammar) (n : NameRead) : Parse (Use × Bool) := do
  if ! n.isKnown then
    Parse.giveBack n.behind
    return (.meaningless, false)
  else if n.isLength then
    Parse.giveBack n.behind
    return (if n.behind = some '}' then .length else .meaningless, false)
  else
    match n.behind with
    | some ':' => return (useOf (← Parse.nextJoined G.limit), true)
    | some c =>
      if c = '%' ∨ c = '#' then
        let d ← Parse.nextJoined G.limit
        let longest := d == some c
        if ! longest then Parse.giveBack d
        return (if c = '#' then .withoutStart longest else .withoutEnd longest, false)
      else return (useOf (some c), false)
    | none => return (.meaningless, false)

/-- The word behind the start of a use of a parameter between braces. A pattern has quotes of its own. -/
def entered (l : Lexing) (name : String) (use : Use) (orEmpty : Bool) : Lexing :=
  if use = .value ∧ ! orEmpty then l.add (.parameter name use orEmpty [])
  else
    let quoting : Quoting :=
      match use with
      | .withoutStart _ | .withoutEnd _ => .none
      | _ => if l.level.quoting = .expression then .double else l.level.quoting
    let l :=
      if quoting != l.level.quoting || l.level.innerDouble then
        l.push { quoting, isDouble := quoting != .none, endsWithUse := true }
      else l
    let openedDouble := l.level.openedDouble + (if l.level.isDouble then 1 else 0)
    let level := { l.level with opened := l.level.opened + 1, openedDouble }
    { l with level }.enter (.parameter name use orEmpty)

def readDollar (G : Grammar) (l : Lexing) : Parse Lexing := do
  let isMarkWord := (← get).checks.isMark
  match ← Parse.nextJoined G.limit with
  | some c =>
    if isMarkWord then
      Parse.giveBack c
      return l.add (.char '$')
    else if c = '(' then
      let d ← Parse.nextJoined G.limit
      if d = some '(' then
        return (l.push { quoting := .expression, isDouble := true }).enter .expression
      else
        Parse.giveBack d
        return l.add (← readOutput G)
    else if c = '\x7b' then
      let n ← readName G
      let (use, orEmpty) ← readUse G n
      return l.entered (String.ofList n.name) use orEmpty
    else if startsName c then
      let (name, behind) ← readWhile G isNameChar G.limit c []
      Parse.giveBack behind
      return l.add (.parameter (String.ofList name) .value false [])
    else if isMark c || c.isDigit then return l.add (.parameter c.toString .value false [])
    else
      Parse.giveBack c
      return l.add (.char '$')
  | none =>
    Parse.giveBack none
    return l.add (.char '$')

/-! ### Words -/

/-- Takes the characters of a mark, of which the first one to compare is given; `taken` has those before it, the
last one first. The result is the character to go on with, which is none if the mark has been read. -/
def readMark (c : Option Char) (taken : List (Option Char)) : List Char → Parse (Option Char)
  | [] =>
    if c = none ∨ c = some '\n' then do
      Parse.nextLine
      return none
    else back
  | m :: mark => do if c = some m then readMark (← Parse.next) (c :: taken) mark else back
where
  /-- Gives everything back but the first character. -/
  back : Parse (Option Char) := do
    let all := c :: taken
    all.dropLast.forM Parse.giveBack
    return all.getLastD none

/-- Takes tabs, of which the first is given. The result is the first other character. -/
def skipTabs : Nat → Option Char → Parse (Option Char)
  | fuel + 1, some '\t' => do skipTabs fuel (← Parse.next)
  | _, c => return c

/-- The first character of a line; there is none if the line ends the word. -/
def startLine (G : Grammar) (ending : WordEnd) (c : Option Char) : Parse (Option Char) := do
  match ending with
  | .mark mark dropsTabs =>
    let c ← if dropsTabs then skipTabs G.limit c else pure c
    readMark c [] mark
  | _ => return c

/-- The word behind a character that does not end it. -/
def step (G : Grammar) (l : Lexing) (c : Char) : Parse Lexing := do
  match l.level.quoting.effect (some c) with
  | .literal => return l.add (if l.isCommand || l.level.isDouble then .escaped c else .char c)
  | .backslash =>
    match ← Parse.next with
    | none =>
      Parse.giveBack none
      return l.add (.escaped '\\')
    | some c => return l.escaped c
  | .singleQuote => return { l with level := { l.level with quoting := .single } }.addQuote
  | .doubleQuote => return l.doubleQuoted
  | .quoteEnd => return l.unquoted c
  | .dollar => readDollar G l
  | .brace => return l.closedBrace
  | .opening =>
    return { l.add (.char c) with level := { l.level with parentheses := l.level.parentheses + 1 } }
  | .closing =>
    if 0 < l.level.parentheses then
      return { l.add (.char c) with level := { l.level with parentheses := l.level.parentheses - 1 } }
    else
      let d ← Parse.nextJoined G.limit
      if d = some ')' then return l.leave.pop
      else
        Parse.giveBack d
        return l.add (.char c)
  | .backquote =>
    if (← get).checks.isMark then return { l.add (.char c) with isQuoted := true }
    else return l.add (← readBackquote G l.level.isDouble)
  | _ => return l.add (.char c)

def isEnd (l : Lexing) (c : Option Char) : Bool :=
  match l.level.quoting.effect c with
  | .ending => true
  | .special => l.level.opened == 0
  | .newline => l.level.quoting == .none && l.level.opened == 0
  | _ => false

/-- Reads a word up to its end, from a character that is the first of a line if `isFirst` holds. The result has the
character at the end. -/
def readRest (G : Grammar) (ending : WordEnd) :
    Nat → Bool → Lexing → Option Char → Parse (Lexing × Option Char)
  | 0, _, l, _ => return (l, none)
  | fuel + 1, isFirst, l, c => do
    let c ← if isFirst then startLine G ending c else pure c
    match c with
    | none => return (l, none)
    | some c =>
      if l.isEnd c then return (l, c)
      else if c = '\n' then
        Parse.nextLine
        readRest G ending fuel true (l.add (.char c)) (← l.next G)
      else
        let l ← l.step G c
        readRest G ending fuel false l (← l.next G)

/-- Refuses a word in which something is still open. -/
def check (l : Lexing) : Parse Unit := do
  if l.level.quoting = .expression then Parse.fail "Missing '))'"
  if l.level.quoting != .none && l.isCommand then Parse.fail "Unterminated quoted string"
  if l.level.opened != 0 then Parse.fail "Missing '\x7d'"

/-- Reads what a redirection does, behind its first sign. -/
def readRedirection (G : Grammar) (isOutput : Bool) (stream : Option Nat) : Parse Redirecting := do
  let c ← Parse.nextJoined G.limit
  if isOutput then
    let stream := stream.getD 1
    match c with
    | some '>' => return .file stream .appended
    | some '|' => return .file stream .replacement
    | some '&' => return .same stream
    | c =>
      Parse.giveBack c
      return .file stream .output
  else
    let stream := stream.getD 0
    match c with
    | some '<' =>
      let d ← Parse.nextJoined G.limit
      let dropsTabs := d == some '-'
      if ! dropsTabs then Parse.giveBack d
      return .inset stream dropsTabs
    | some '&' => return .same stream
    | some '>' => return .file stream .both
    | c =>
      Parse.giveBack c
      return .file stream .input

/-- Reads a word from its first character. A sign behind at most one digit starts a redirection instead. -/
def readWord (G : Grammar) (c : Option Char) : Parse Token := do
  let (l, c) ← readRest G .special G.limit true { level := { quoting := .none }, isCommand := true } c
  l.check
  let word := l.atoms.reverse
  let stream? : Option (Option Nat) :=
    match word.mapM fun | Atom.char c => some c | _ => none with
    | some [] => some none
    | some [d] => if d.isDigit then some (some (d.toNat - '0'.toNat)) else none
    | _ => none
  match stream? with
  | some stream =>
    if ! l.isQuoted ∧ (c = some '>' ∨ c = some '<') then
      let redirecting ← readRedirection G (c == some '>') stream
      modify fun r => { r with redirecting, token := .redirection }
      return .redirection
  | none => pure ()
  Parse.giveBack c
  modify fun r => { r with word, isQuoted := l.isQuoted, token := .word }
  return .word

/-- Reads a text that is no part of a command. -/
def readText (G : Grammar) (isFilled : Bool) (ending : WordEnd) : Parse Word := do
  let c ← if isFilled then Parse.nextJoined G.limit else Parse.next
  let level : Level := { quoting := if isFilled then .double else .single, isDouble := isFilled }
  let (l, _) ← readRest G ending G.limit true { level, isCommand := false } c
  l.check
  return l.atoms.reverse

end Lexing

end PacketFilter.Shell
