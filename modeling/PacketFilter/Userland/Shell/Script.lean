/-! # Scripts

A `Script` is a tree of commands: simple ones, sequences, conditions, loops and the like. Its words are lists of
atoms, which say what a word is made of before parameters have values. Commands keep the line that they stand on,
which messages name. All texts are octets. -/

namespace PacketFilter.Shell

/-- What is done with the value of a parameter. -/
inductive Use where
  | value
  /-- A word is taken if there is no value. -/
  | orElse
  /-- A word is taken if there is a value. -/
  | ifSet
  /-- The script ends if there is no value. -/
  | required
  /-- The parameter is set to a word if it has no value. -/
  | assigned
  /-- What a pattern matches at the start is taken away. -/
  | withoutStart (longest : Bool)
  /-- What a pattern matches at the end is taken away. -/
  | withoutEnd (longest : Bool)
  | length
  /-- No use that there is. -/
  | meaningless
deriving DecidableEq, Inhabited

/-- What a file is opened for. -/
inductive Direction where
  | input
  | output
  /-- What is in the file is dropped even if scripts must not do that. -/
  | replacement
  | appended
  | both
deriving DecidableEq, Inhabited

mutual

/-- A part of a word. -/
inductive Atom where
  | char (c : Char)
  /-- A character that stands for itself. -/
  | escaped (c : Char)
  /-- What follows is between quotes, or no longer. -/
  | quote
  /-- The value of a parameter; with `orEmpty` an empty one is none. -/
  | parameter (name : String) (use : Use) (orEmpty : Bool) (word : List Atom)
  /-- The output of a script. -/
  | output (script : Script)
  /-- The value of an expression. -/
  | expression (text : List Atom)

/-- A redirection of a stream. -/
inductive Redirection where
  /-- The stream is a file. -/
  | file (stream : Nat) (direction : Direction) (name : List Atom)
  /-- The stream is the same as another one, or closed. -/
  | same (stream : Nat) (source : Option Nat)
  /-- The stream is the same as the one that a word gives. -/
  | sameAs (stream : Nat) (source : List Atom)
  /-- The stream is a text of the script, which has a number. -/
  | inset (stream number : Nat)

/-- A command, or several that belong together. -/
inductive Script where
  | nothing
  /-- Sets parameters and carries out the command that the words give. -/
  | simple (line : Nat) (settings words : List (List Atom)) (redirections : List Redirection)
  | redirected (line : Nat) (body : Script) (redirections : List Redirection)
  | subshell (line : Nat) (body : Script) (redirections : List Redirection)
  | background (line : Nat) (body : Script) (redirections : List Redirection)
  /-- The output of each one is the input of the next one. -/
  | piped (parts : List Script) (inBackground : Bool)
  | negated (body : Script)
  | sequence (first second : Script)
  /-- Goes on only if the first one succeeds. -/
  | both (first second : Script)
  /-- Goes on only if the first one fails. -/
  | either (first second : Script)
  | branch (condition yes no : Script)
  /-- Repeats the body as long as the condition succeeds, or as long as it fails. -/
  | loop (success : Bool) (condition body : Script)
  /-- Repeats the body for every word. -/
  | each (line : Nat) (name : String) (words : List (List Atom)) (body : Script)
  /-- Carries out the body of the first case with a pattern that the word matches. -/
  | choose (line : Nat) (word : List Atom) (cases : List (List (List Atom) × Script))
  /-- Gives a name to a command. -/
  | define (line : Nat) (name : String) (body : Script)

end

instance : Inhabited Atom := ⟨.quote⟩
instance : Inhabited Script := ⟨.nothing⟩

abbrev Word := List Atom

namespace Script

/-- Whether nothing is done. -/
def isNothing : Script → Bool
  | nothing => true
  | _ => false

end Script

/-- A text of a script that a stream is redirected to: its words, and whether they are filled in. -/
structure Inset where
  text : Word
  isFilled : Bool

namespace Word

/-- The characters of a word, if nothing in it is quoted or filled in. -/
def plain? (w : Word) : Option (List Char) :=
  w.mapM fun
    | .char c => some c
    | _ => none

/-- The characters that a word is written with at its start, up to the first that is quoted or filled in. -/
def start (w : Word) : List Char :=
  match w with
  | .char c :: rest => c :: start rest
  | _ => []

/-- The characters of a word without quotes. -/
def unquoted (w : Word) : List Char :=
  w.filterMap fun
    | .char c | .escaped c => some c
    | _ => none

end Word

/-! ### Names -/

/-- Whether a name may start with a character. -/
def startsName (c : Char) : Bool :=
  c.isAlpha || c == '_'

/-- Whether a character may stand in a name. -/
def isNameChar (c : Char) : Bool :=
  c.isAlphanum || c == '_'

def isName : List Char → Bool
  | [] => false
  | c :: cs => startsName c && cs.all isNameChar

/-- The parameters that have a mark for a name. -/
def isMark (c : Char) : Bool :=
  ['!', '#', '$', '*', '-', '?', '@'].contains c

/-- Whether a word sets a parameter: it begins with a name and an equals sign. -/
def Word.isSetting (w : Word) : Bool :=
  let cs := w.start
  isName (cs.takeWhile isNameChar) && (cs.dropWhile isNameChar).head? == some '='

end PacketFilter.Shell
