import PacketFilter.Userland.Shell.Lexeme

/-! # Commands of scripts

`Grammar.of` reads tokens and commands. Commands hold others, so what reads the inner ones is given as a `Grammar`,
and a grammar of some depth is made from one that is less deep. `Reading.line?` reads the commands of one line. -/

namespace PacketFilter.Shell

namespace Grammar

variable (G : Grammar)

/-! ### Tokens -/

/-- Reads the texts that come at the end of a line. -/
def readAwaited : Parse Unit := do
  let awaited := (← get).awaited
  modify fun r => { r with awaited := [] }
  for a in awaited do
    let text ← Lexing.readText G a.isFilled (.mark a.mark a.dropsTabs)
    modify fun r => { r with insets := r.insets.setIfInBounds a.number ⟨text, a.isFilled⟩ }

def skipComment : Nat → Parse Unit
  | 0 => return
  | fuel + 1 => do
    let c ← Parse.next
    if c = none ∨ c = some '\n' then Parse.giveBack c else skipComment fuel

/-- The token that a sign stands for, or a longer one if the sign stands twice. -/
def readSign (c : Char) (one two : Token) : Parse Token := do
  let d ← Parse.nextJoined G.limit
  if d = some c then return two
  else
    Parse.giveBack d
    return one

/-- Reads a token that is not in an alias. -/
def readRaw : Nat → Parse Token
  | 0 => return .ending
  | fuel + 1 => do
    let done (t : Token) : Parse Token := do
      modify fun r => { r with token := t }
      return t
    match ← Parse.nextJoined G.limit with
    | none =>
      Parse.giveBack none
      done .ending
    | some ' ' | some '\t' => readRaw fuel
    | some '#' =>
      skipComment G.limit
      readRaw fuel
    | some '\n' =>
      Parse.nextLine
      done .newline
    | some '&' => done (← readSign G '&' .ampersand .both)
    | some '|' => done (← readSign G '|' .bar .either)
    | some ';' => done (← readSign G ';' .semicolon .caseEnd)
    | some '(' => done .opened
    | some ')' => done .closed
    | some c => Lexing.readWord G c

/-- Reads a token, or the last one again. -/
def readAny : Parse Token := do
  let r ← get
  if r.isBack then
    set { r with isBack := false }
    return r.token
  else readRaw G G.limit

/-- Leaves out line ends behind a first token. -/
def skipNewlines : Nat → Token → Parse Token
  | fuel + 1, .newline => do
    readAwaited G
    Parse.look .none
    skipNewlines fuel (← readAny G)
  | _, t => return t

/-- Reads a token and looks for what the checks say. The text of an alias is read in its place. -/
def readToken (checks : Checks) : Nat → Parse Token
  | 0 => return .ending
  | fuel + 1 => do
    let t ← readAny G
    let t ← if checks.newlines then skipNewlines G G.limit t else pure t
    let r ← get
    let checks := checks.or r.checks
    Parse.look .none
    let plain := String.ofList r.word.unquoted
    if t != .word || r.isQuoted || r.word.plain?.isNone then return t
    else if checks.keywords && Token.keywords.contains plain then
      let t := Token.keyword plain
      modify fun r => { r with token := t }
      return t
    else
      match if checks.aliases && r.source.allows plain then r.aliases.lookup plain else none with
      | some text =>
        if ! text.isEmpty then modify fun r => { r with source := r.source.withAlias plain text }
        readToken checks fuel
      | none => return t

/-- Reads a token and looks for what the reading says. -/
def next : Parse Token := do
  readToken G (← get).checks G.limit

/-- Reads a token, which has to be a given one. -/
def expect (t : Token) : Parse Unit := do
  if (← next G) != t then Parse.unexpected (some t)

/-! ### Redirections -/

/-- The redirection that a word behind a sign gives. -/
def redirection : Redirecting → Parse Redirection
  | .file stream direction => do return .file stream direction (← get).word
  | .same stream => do
    match (← get).word with
    | [.char c] =>
      if c.isDigit then return .same stream (some (c.toNat - '0'.toNat))
      else if c = '-' then return .same stream none
      else return .sameAs stream [.char c]
    | word => return .sameAs stream word
  | .inset stream dropsTabs =>
    modifyGet fun r =>
      let number := r.insets.size
      let isFilled := ! r.isQuoted
      let awaited := r.awaited ++ [⟨number, r.word.unquoted, dropsTabs, isFilled⟩]
      (.inset stream number, { r with insets := r.insets.push ⟨[], isFilled⟩, awaited })

/-- Reads the word behind the sign of a redirection. -/
def readRedirection : Parse Redirection := do
  let redirecting := (← get).redirecting
  match redirecting with
  | .inset .. => Parse.look { isMark := true }
  | _ => pure ()
  if (← next G) != .word then Parse.unexpected none
  redirection redirecting

def readRedirections : Nat → Parse (List Redirection)
  | 0 => return []
  | fuel + 1 => do
    if (← next G) = .redirection then
      let r ← readRedirection G
      return r :: (← readRedirections fuel)
    else
      Parse.back
      return []

/-! ### Commands -/

/-- The commands that need no others and keep what is set in front of them. -/
def specialNames : List String :=
  [".", ":", "break", "continue", "eval", "exec", "exit", "export", "local", "readonly", "return", "set", "shift",
    "times", "trap", "unset"]

/-- Reads the words of a simple command. With `isStart`, words may still set parameters, and the first other word
may be an alias. A parenthesis behind a single word defines a command. -/
def readSimple (line : Nat) :
    Nat → Bool → List Word → List Word → List Redirection → Parse Script
  | 0, _, settings, words, redirections =>
    return .simple line settings.reverse words.reverse redirections.reverse
  | fuel + 1, isStart, settings, words, redirections => do
    Parse.look { aliases := isStart }
    match ← next G with
    | .word =>
      let w := (← get).word
      if isStart && w.isSetting then readSimple line fuel true (w :: settings) words redirections
      else readSimple line fuel false settings (w :: words) redirections
    | .redirection =>
      let r ← readRedirection G
      readSimple line fuel isStart settings words (r :: redirections)
    | t =>
      match t, settings, words, redirections with
      | .opened, [], [w], [] =>
        expect G .closed
        match w.plain? with
        | some name =>
          let text := String.ofList name
          if ! isName name || specialNames.contains text then Parse.fail "Bad function name"
          else
            Parse.look .nextCommand
            let line := (← get).source.line
            return .define line text (← G.command)
        | none => Parse.fail "Bad function name"
      | _, _, _, _ =>
        Parse.back
        return .simple line settings.reverse words.reverse redirections.reverse

def readWords : Nat → Parse (List Word)
  | 0 => return []
  | fuel + 1 => do
    if (← next G) = .word then
      let w := (← get).word
      return w :: (← readWords fuel)
    else return []

/-- Reads the patterns of a case. The last word counts even if what stands here is no word. -/
def readPatterns : Nat → Parse (List Word)
  | 0 => return []
  | fuel + 1 => do
    let w := (← get).word
    if (← next G) = .bar then
      let _ ← next G
      return w :: (← readPatterns fuel)
    else return [w]

def readCases : Nat → Parse (List (List Word × Script))
  | 0 => return []
  | fuel + 1 => do
    Parse.look .nextCase
    let t ← next G
    if t = .keyword "esac" then return []
    else
      if t = .opened then
        let _ ← next G
      let patterns ← readPatterns G G.limit
      if (← get).token != .closed then Parse.unexpected (some .closed)
      let body ← G.commands false true
      Parse.look .nextCase
      let t ← next G
      if t = .keyword "esac" then return [(patterns, body)]
      else if t != .caseEnd then Parse.unexpected (some .caseEnd)
      else return (patterns, body) :: (← readCases fuel)

/-- Reads a condition behind its keyword, up to the keyword at its end. -/
def readBranch : Nat → Parse Script
  | 0 => return .nothing
  | fuel + 1 => do
    let condition ← G.commands false false
    expect G (.keyword "then")
    let yes ← G.commands false false
    let t ← next G
    if t = .keyword "elif" then return .branch condition yes (← readBranch fuel)
    else if t = .keyword "else" then return .branch condition yes (← G.commands false false)
    else
      Parse.back
      return .branch condition yes .nothing

/-- Reads a loop over words behind its keyword, up to the keyword at its end. -/
def readEach (line : Nat) : Parse Script := do
  let t ← next G
  let r ← get
  match if t = .word ∧ ! r.isQuoted then r.word.plain? else none with
  | some name =>
    if ! isName name then Parse.fail "Bad for loop variable"
    Parse.look .nextCommand
    let words ←
      if (← next G) = .keyword "in" then
        let words ← readWords G G.limit
        let t := (← get).token
        if t != .newline && t != .semicolon then Parse.unexpected none
        pure words
      else
        if (← get).token != .semicolon then Parse.back
        pure [[.quote, .parameter "@" .value false [], .quote]]
    Parse.look .nextCommand
    expect G (.keyword "do")
    return .each line (String.ofList name) words (← G.commands false false)
  | none => Parse.fail "Bad for loop variable"

def redirected (line : Nat) (s : Script) : List Redirection → Script
  | [] => s
  | rs =>
    match s with
    | .subshell line body _ => .subshell line body rs
    | s => .redirected line s rs

def readCommand : Parse Script := do
  let line := (← get).source.line
  let closed (t : Token) (s : Script) : Parse Script := do
    expect G t
    return s
  match ← next G with
  | .word | .redirection =>
    Parse.back
    let line := (← get).source.line
    readSimple G line G.limit true [] [] []
  | t =>
    let s ←
      match t with
      | .keyword "if" => closed (.keyword "fi") (← readBranch G G.limit)
      | .keyword "while" | .keyword "until" =>
        let condition ← G.commands false false
        expect G (.keyword "do")
        closed (.keyword "done") (.loop (t == .keyword "while") condition (← G.commands false false))
      | .keyword "for" => closed (.keyword "done") (← readEach G line)
      | .keyword "case" =>
        expect G .word
        let word := (← get).word
        Parse.look .nextCommand
        expect G (.keyword "in")
        pure (.choose line word (← readCases G G.limit))
      | .opened => closed .closed (.subshell line (← G.commands false false) [])
      | .keyword "\x7b" => closed (.keyword "\x7d") (← G.commands false false)
      | _ => Parse.unexpected none
    Parse.look .command
    return redirected line s (← readRedirections G G.limit)

def readPipe : Nat → Parse (List Script)
  | 0 => return []
  | fuel + 1 => do
    if (← next G) = .bar then
      Parse.look .nextCommand
      let s ← G.command
      return s :: (← readPipe fuel)
    else return []

def readPiped : Parse Script := do
  let isNegated := (← next G) == .keyword "!"
  if isNegated then Parse.look .command else Parse.back
  let first ← G.command
  let others ← readPipe G G.limit
  Parse.back
  let s := if others.isEmpty then first else .piped (first :: others) false
  return if isNegated then .negated s else s

/-- Reads what follows a command on which it depends. -/
def readChain : Nat → Script → Parse Script
  | 0, s => return s
  | fuel + 1, s => do
    match ← next G with
    | .both =>
      Parse.look .nextCommand
      readChain fuel (.both s (← readPiped G))
    | .either =>
      Parse.look .nextCommand
      readChain fuel (.either s (← readPiped G))
    | _ =>
      Parse.back
      return s

/-- The command as it runs on its own. -/
def inBackground : Script → Script
  | .piped parts _ => .piped parts true
  | .redirected line body redirections => .background line body redirections
  | s => .background 0 s []

def following (before s : Script) : Script :=
  if before.isNothing then s else .sequence before s

/-- Reads commands: with `inLine` up to the end of a line, and otherwise up to a token that ends a list. With
`mayBeNone` that token may come at once. -/
def readCommands (inLine : Bool) : Nat → Bool → Script → Parse Script
  | 0, _, before => return before
  | fuel + 1, mayBeNone, before => do
    Parse.look { Checks.command with newlines := ! inLine }
    match ← next G with
    | .newline =>
      readAwaited G
      return before
    | .ending =>
      readAwaited G
      Parse.back
      return before
    | t =>
      Parse.back
      if ! inLine && mayBeNone && t.endsList then return before
      let s ← readChain G G.limit (← readPiped G)
      let t ← next G
      let s := following before (if t = .ampersand then inBackground s else s)
      match t with
      | .newline | .ending =>
        Parse.back
        readCommands inLine fuel true s
      | .ampersand | .semicolon => readCommands inLine fuel true s
      | _ =>
        if inLine then Parse.unexpected none
        Parse.back
        return s

end Grammar

/-- A grammar with a depth and a limit for the lengths of words. -/
def Grammar.of (limit : Nat) : Nat → Grammar
  | 0 =>
    { commands := fun _ _ => Parse.fail "too deep"
      command := Parse.fail "too deep"
      token := Parse.fail "too deep"
      limit }
  | depth + 1 =>
    { commands := fun inLine mayBeNone => (Grammar.of limit depth).readCommands inLine limit mayBeNone .nothing
      command := (Grammar.of limit depth).readCommand
      token := (Grammar.of limit depth).next
      limit }

namespace Reading

/-- How deep commands may stand in others. -/
def maxDepth : Nat := 1000

/-- How many characters words may have. -/
def maxLength : Nat := 1000000

/-- How scripts are read. -/
def grammar : Grammar :=
  Grammar.of maxLength maxDepth

def ofSource (source : Source) (aliases : List (String × String)) (insets : Array Inset) : Reading :=
  { source, aliases, insets }

/-- Reads the commands of one line. There are none at the end of the script. -/
def line : Parse (Option Script) := do
  modify fun r => { r with isBack := false, checks := .none, awaited := [] }
  let s ← grammar.commands true false
  let r ← get
  return if s.isNothing && r.isBack && r.token == .ending then none else some s

/-- Whether nothing follows the commands that have been read. -/
def isLast (r : Reading) : Bool :=
  r.isBack && r.token == .ending

end Reading

end PacketFilter.Shell
