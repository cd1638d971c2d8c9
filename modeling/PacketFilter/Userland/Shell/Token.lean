import PacketFilter.Userland.Shell.Script

/-! # Tokens

What the commands of a script are made of. A word that is not quoted may be a keyword or an alias, but only in some
places: `Checks` says what is looked for. `Reading` is where the reading of a script is. -/

/-! ## Sources

A `Source` is a script as far as it has not been read. Characters are taken from it one by one with `Source.next` and
may be given back. The text of an alias is a layer that is read before what follows the alias; the alias does not count
again until a character behind that text has been taken. -/

namespace PacketFilter.Shell

/-- A text that is read in the place of an alias. -/
structure Layer where
  /-- The alias, and those whose texts had just been read before it. -/
  aliases : List String
  rest : List Char
  /-- The text ends with a blank, so that the word behind the alias may be an alias as well. -/
  endsBlank : Bool
  /-- What had been given back before. -/
  behind : List (Option Char)

/-- What is left of a script. -/
structure Source where
  rest : List Char
  /-- What was taken and given back; the end of the script counts as a character. -/
  back : List (Option Char) := []
  /-- The aliases whose texts are read first, from the inside out. -/
  layers : List Layer := []
  /-- The aliases whose texts have just been read. -/
  ended : List String := []
  line : Nat := 1

namespace Source

def ofText (text : String) : Source :=
  { rest := text.toList }

def isBlank (c : Char) : Bool :=
  c == ' ' || c == '\t'

/-- Takes a character from layers that have been read up or from what is behind them. The result has the aliases
that have ended and whether the text of one of them ends with a blank. -/
def nextBehind (s : Source) (ended : List String) (endsBlank : Bool) :
    List Layer → Option Char × Bool × Source
  | [] =>
    match s.rest with
    | c :: rest => (some c, endsBlank, { s with layers := [], ended, rest })
    | [] => (none, endsBlank, { s with layers := [], ended })
  | layer :: layers =>
    match layer.rest with
    | c :: rest => (some c, endsBlank, { s with layers := { layer with rest } :: layers, ended })
    | [] =>
      let ended := ended ++ layer.aliases
      let endsBlank := endsBlank || layer.endsBlank
      match layer.behind with
      | c :: back => (c, endsBlank, { s with layers, ended, back })
      | [] => nextBehind s ended endsBlank layers

/-- Takes a character; there is none at the end of the script. The second part of the result says whether a text
that ends with a blank has been left. -/
def next (s : Source) : Option Char × Bool × Source :=
  match s.back with
  | c :: back => (c, false, { s with back })
  | [] => s.nextBehind [] false s.layers

def giveBack (s : Source) (c : Option Char) : Source :=
  { s with back := c :: s.back }

/-- Counts a line end. -/
def nextLine (s : Source) : Source :=
  { s with line := s.line + 1 }

/-- The same source with a text in front, which stands for the alias with a name. -/
def withAlias (s : Source) (name text : String) : Source :=
  let layer : Layer :=
    { aliases := name :: s.ended
      rest := text.toList
      endsBlank := (text.toList.getLast?).any isBlank
      behind := s.back }
  { s with layers := layer :: s.layers, back := [], ended := [] }

/-- Whether an alias counts: its text is not being read. -/
def allows (s : Source) (name : String) : Bool :=
  ! s.ended.contains name && s.layers.all fun layer => ! layer.aliases.contains name

end Source

/-! ## Words and marks -/

/-- A part of a command. -/
inductive Token where
  | ending
  | newline
  | semicolon
  | ampersand
  | both
  | either
  | bar
  | opened
  | closed
  | caseEnd
  | redirection
  | word
  | keyword (text : String)
deriving DecidableEq, Inhabited

namespace Token

/-- The words that have a meaning of their own. -/
def keywords : List String :=
  ["!", "case", "do", "done", "elif", "else", "esac", "fi", "for", "if", "in", "then", "until", "while",
    "\x7b", "\x7d"]

/-- How a token shows in messages. -/
def name : Token → String
  | ending => "end of file"
  | newline => "newline"
  | semicolon => "\";\""
  | ampersand => "\"&\""
  | both => "\"&&\""
  | either => "\"||\""
  | bar => "\"|\""
  | opened => "\"(\""
  | closed => "\")\""
  | caseEnd => "\";;\""
  | redirection => "redirection"
  | word => "word"
  | keyword text => "\"" ++ text ++ "\""

/-- Whether a token ends a list of commands. -/
def endsList : Token → Bool
  | ending | closed | caseEnd => true
  | keyword text => ["do", "done", "elif", "else", "esac", "fi", "then", "\x7d"].contains text
  | _ => false

end Token

/-- What is looked for when a token is read. -/
structure Checks where
  /-- Line ends are left out. -/
  newlines : Bool := false
  keywords : Bool := false
  aliases : Bool := false
  /-- The word ends a text of the script, so that nothing in it is filled in. -/
  isMark : Bool := false

namespace Checks

/-- Nothing is looked for. -/
def none : Checks := {}

/-- Keywords and aliases. -/
def command : Checks := { keywords := true, aliases := true }

/-- Keywords and aliases behind line ends. -/
def nextCommand : Checks := { newlines := true, keywords := true, aliases := true }

/-- Keywords behind line ends. -/
def nextCase : Checks := { newlines := true, keywords := true }

/-- Everything that one of two looks for. -/
def or (a b : Checks) : Checks :=
  { newlines := a.newlines || b.newlines
    keywords := a.keywords || b.keywords
    aliases := a.aliases || b.aliases
    isMark := a.isMark || b.isMark }

end Checks

/-- A text of a script that comes at the end of the line. -/
structure Awaited where
  number : Nat
  mark : List Char
  /-- Tabs at the starts of lines do not count. -/
  dropsTabs : Bool
  isFilled : Bool

/-- What a redirection needs next: the name of a file, a stream, or the mark at the end of a text. -/
inductive Redirecting where
  | file (stream : Nat) (direction : Direction)
  | same (stream : Nat)
  | inset (stream : Nat) (dropsTabs : Bool)
deriving Inhabited

/-- A script that is not well-formed: the line where that shows, and the reason. -/
structure SyntaxError where
  line : Nat
  reason : String

/-- Where the reading of a script is. -/
structure Reading where
  source : Source
  aliases : List (String × String) := []
  checks : Checks := {}
  /-- The last token counts again. -/
  isBack : Bool := false
  token : Token := .newline
  /-- The last word. -/
  word : Word := []
  /-- Something in the last word is quoted. -/
  isQuoted : Bool := false
  redirecting : Redirecting := default
  /-- The texts that come at the end of the line. -/
  awaited : List Awaited := []
  /-- The texts that have been read. -/
  insets : Array Inset := #[]

/-- What reads a part of a script. -/
abbrev Parse := EStateM SyntaxError Reading

namespace Parse

/-- A script that is not well-formed at this place. -/
def fail (reason : String) : Parse α := do
  throw ⟨(← get).source.line, reason⟩

/-- The greatest length of a message about a token. -/
def maxMessage : Nat := 63

/-- The last token has no place here, and perhaps another one has. -/
def unexpected (expected : Option Token) : Parse α := do
  let found := (← get).token.name ++ " unexpected"
  let message := found ++ expected.elim "" fun t => " (expecting " ++ t.name ++ ")"
  fail (String.ofList (message.toList.take maxMessage))

def next : Parse (Option Char) :=
  modifyGet fun r =>
    let (c, endsBlank, source) := r.source.next
    (c, { r with source, checks := { r.checks with aliases := r.checks.aliases || endsBlank } })

def giveBack (c : Option Char) : Parse Unit :=
  modify fun r => { r with source := r.source.giveBack c }

/-- Counts a line end. -/
def nextLine : Parse Unit :=
  modify fun r => { r with source := r.source.nextLine }

/-- Takes a character; line ends behind a backslash are left out, at most `fuel` of them. -/
def nextJoined (fuel : Nat) : Parse (Option Char) := do
  match fuel with
  | 0 => next
  | fuel + 1 =>
    let c ← next
    if c != some '\\' then return c
    else
      let d ← next
      if d = some '\n' then
        nextLine
        nextJoined fuel
      else
        giveBack d
        return c

def look (checks : Checks) : Parse Unit :=
  modify fun r => { r with checks }

/-- The last token counts again. -/
def back : Parse Unit :=
  modify fun r => { r with isBack := true }

end Parse

end PacketFilter.Shell
