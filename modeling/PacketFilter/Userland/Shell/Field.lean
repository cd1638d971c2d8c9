import PacketFilter.Userland.Files

/-! # Fields and patterns

When a word of a script has been filled in, it is a list of glyphs: characters, characters that stand for themselves
because of quotes, and the quotes. Parts of it come from values, and these are split into fields at certain characters.
`fields` splits a word, `patternOf` makes the pattern of a word and `textOf` its text. -/

/-! ## Patterns

A pattern is a list of characters: `*` is any text, `?` is any character, brackets are one of several, and a character
behind a backslash stands for itself. A bracket that is not closed stands for itself as well. `Pattern.isMatch` says
whether a pattern is the whole of a text, `withoutStart` and `withoutEnd` drop a part that it matches. Octets from 128
on come before the others. -/

namespace PacketFilter.Shell.Pattern

/-- The place of an octet in the order of octets. -/
def order (c : Char) : Int :=
  if c.toNat < 128 then c.toNat else (c.toNat : Int) - 256

/-- Whether a character is in a class that has a name. -/
def classes : List (String × (Char → Bool)) :=
  let isGraph (c : Char) : Bool := '!' ≤ c && c ≤ '~'
  [("alnum", Char.isAlphanum), ("cntrl", fun c => c < ' ' || c == '\x7f'), ("lower", Char.isLower),
    ("space", fun c => c == ' ' || ('\t' ≤ c && c ≤ '\r')), ("alpha", Char.isAlpha), ("digit", Char.isDigit),
    ("print", fun c => c == ' ' || isGraph c), ("upper", Char.isUpper), ("blank", fun c => c == ' ' || c == '\t'),
    ("graph", isGraph), ("punct", fun c => isGraph c && ! c.isAlphanum),
    ("xdigit", fun c => c.isDigit || ('a' ≤ c && c ≤ 'f') || ('A' ≤ c && c ≤ 'F'))]

/-- The class that is named behind a bracket, with what follows it. -/
def class? (cs : List Char) : Option ((Char → Bool) × List Char) :=
  classes.findSome? fun (name, holds) =>
    let written := ':' :: name.toList ++ [':', ']']
    if written.isPrefixOf cs then some (holds, cs.drop written.length) else none

/-- Whether a character is one of those that stand behind a bracket, of which `first` is the first, and what follows
the closing bracket. There is no result if that is missing. -/
def inBracket (c : Char) : Nat → Bool → Char → List Char → Option (Bool × List Char)
  | 0, _, _, _ => none
  | fuel + 1, isFound, first, cs =>
    -- Goes on behind an element.
    let next (isFound : Bool) (cs : List Char) : Option (Bool × List Char) :=
      match cs with
      | [] => none
      | ']' :: cs => some (isFound, cs)
      | d :: cs => inBracket c fuel isFound d cs
    match if first = '[' then class? cs else none with
    | some (holds, cs) => next (isFound || holds c) cs
    | none =>
      let element? : Option (Char × List Char) :=
        if first = '\\' then
          match cs with
          | [] => none
          | d :: cs => some (d, cs)
        else some (first, cs)
      match element? with
      | none => none
      | some (low, cs) =>
        let single := next (isFound || c == low) cs
        match cs with
        | '-' :: ']' :: _ => single
        | '-' :: '\\' :: high :: cs =>
          next (isFound || (order low ≤ order c && order c ≤ order high)) cs
        | '-' :: high :: cs => next (isFound || (order low ≤ order c && order c ≤ order high)) cs
        | ['-'] => none
        | _ => single

/-- Whether a character is accepted by what stands behind an opening bracket, and what follows the closing one. An
exclamation mark in the first place turns the choice around. -/
def bracket? (c : Char) (cs : List Char) : Option (Bool × List Char) :=
  let (isNegated, inner) : Bool × List Char :=
    match cs with
    | '!' :: rest => (true, rest)
    | cs => (false, cs)
  match inner with
  | [] => none
  | first :: rest =>
    (inBracket c (rest.length + 1) false first rest).map fun (isFound, rest) => (isFound != isNegated, rest)

/-- The texts that are left when some characters at the start of a text are left out. -/
def tails : List Char → List (List Char)
  | [] => [[]]
  | c :: cs => (c :: cs) :: tails cs

/-- Whether a pattern is the whole of a text, in so many steps at most. -/
def isMatchIn : Nat → List Char → List Char → Bool
  | 0, p, cs => p.isEmpty && cs.isEmpty
  | fuel + 1, p, cs =>
    match p, cs with
    | [], cs => cs.isEmpty
    | '*' :: p, cs =>
      let p := p.dropWhile (· == '*')
      (tails cs).any fun cs => isMatchIn fuel p cs
    | '?' :: _, [] => false
    | '?' :: p, _ :: cs => isMatchIn fuel p cs
    | '[' :: _, [] => false
    | '[' :: p, c :: cs =>
      match bracket? c p with
      | some (isAccepted, p) => isAccepted && isMatchIn fuel p cs
      | none => c == '[' && isMatchIn fuel p cs
    | '\\' :: d :: p, c :: cs => c == d && isMatchIn fuel p cs
    | d :: p, c :: cs => c == d && isMatchIn fuel p cs
    | _ :: _, [] => false

/-- Whether a pattern is the whole of a text. -/
def isMatch (p cs : List Char) : Bool :=
  isMatchIn (p.length + 1) p cs

/-- The lengths from nothing to all, the longest first if asked for. -/
def lengths (longest : Bool) (cs : List Char) : List Nat :=
  if longest then (List.range (cs.length + 1)).reverse else List.range (cs.length + 1)

/-- A list without the shortest or longest start that a pattern matches. -/
def withoutStart (longest : Bool) (p cs : List Char) : List Char :=
  match (lengths longest cs).find? fun n => isMatch p (cs.take n) with
  | some n => cs.drop n
  | none => cs

/-- A list without the shortest or longest end that a pattern matches. -/
def withoutEnd (longest : Bool) (p cs : List Char) : List Char :=
  match (lengths longest cs).find? fun n => isMatch p (cs.drop (cs.length - n)) with
  | some n => cs.take (cs.length - n)
  | none => cs

/-- Whether a character means something in a pattern. -/
def isWild (c : Char) : Bool :=
  c == '*' || c == '?' || c == '['

end PacketFilter.Shell.Pattern

/-! ## Paths that match patterns

Slashes divide a pattern of paths, and each part is matched by the names in a directory; names that begin with a dot are
matched only if the part does as well. `Glob.paths` gives the paths in order. -/

namespace PacketFilter.Shell.Glob

/-- Whether a bracket is closed before a slash. -/
def closes : Nat → List Char → Bool
  | 0, _ => false
  | fuel + 1, cs =>
    let cs := if cs.head? = some '\\' then cs.drop 1 else cs
    match cs with
    | [] | '/' :: _ => false
    | _ :: ']' :: _ => true
    | _ :: cs => closes fuel cs

/-- Whether a bracket is closed that has something in it. -/
def isBracket (cs : List Char) : Bool :=
  match cs with
  | '!' :: rest => closes (rest.length + 1) rest
  | cs => closes (cs.length + 1) cs

/-- A pattern that is cut at the slash behind its first part with a wildcard: the parts before that one, the part
itself, and what follows the slash, if there is one. -/
structure Cut where
  before : List Char
  part : List Char
  rest : Option (List Char)

/-- Cuts a pattern. `before` and `part` are what has been seen, the last character first. -/
def cut? (hasWild : Bool) (before part : List Char) (cs : List Char) : Option Cut :=
  match cs with
  | [] => if hasWild then some ⟨before.reverse, part.reverse, none⟩ else none
  | '/' :: cs =>
    if hasWild then some ⟨before.reverse, part.reverse, some cs⟩
    else cut? false ('/' :: part ++ before) [] cs
  | '\\' :: c :: cs =>
    if c = '/' then
      if hasWild then some ⟨before.reverse, part.reverse, some cs⟩
      else cut? false ('/' :: part ++ before) [] cs
    else cut? hasWild before (c :: '\\' :: part) cs
  | c :: cs =>
    cut? (hasWild || c == '*' || c == '?' || (c == '[' && isBracket cs)) before (c :: part) cs
termination_by cs.length

/-- The characters of a pattern without the backslashes in front of them. -/
def plain : List Char → List Char
  | '\\' :: c :: cs => c :: plain cs
  | c :: cs => c :: plain cs
  | [] => []

/-- The names in a directory that match a part of a pattern. -/
def names (f : Files) (directory : Nat) (part : List Char) : List String :=
  let withDots := (plain (part.take 2)).head? == some '.'
  (("." :: ".." :: (f.entries directory).map Prod.fst)).filter fun name =>
    (withDots || name.toList.head? != some '.') && Pattern.isMatch part name.toList

/-- The paths that match a pattern, as seen from a directory. `directory` is the path that leads to the place of the
pattern. -/
def pathsBelow (f : Files) (here : Nat) : Nat → List Char → List Char → List String
  | 0, _, _ => []
  | fuel + 1, directory, pattern =>
    match cut? false [] [] pattern with
    | none =>
      let path := String.ofList (directory ++ plain pattern)
      if directory.isEmpty then []
      else
        match f.findLink here path with
        | .ok _ => [path]
        | .error _ => []
    | some c =>
      let directory := directory ++ plain c.before
      match f.find here (if directory.isEmpty then "." else String.ofList directory) with
      | .error _ => []
      | .ok n =>
        (names f n c.part).flatMap fun name =>
          match c.rest with
          | none => [String.ofList directory ++ name]
          | some rest => pathsBelow f here fuel (directory ++ name.toList ++ ['/']) rest

/-- The paths that match a pattern, in order. -/
def paths (f : Files) (here : Nat) (pattern : List Char) : List String :=
  (pathsBelow f here (pattern.length + 1) [] pattern).mergeSort fun a b => decide (a ≤ b)

end PacketFilter.Shell.Glob

/-! ## Fields -/

namespace PacketFilter.Shell

/-- A character of a word that has been filled in. -/
inductive Glyph where
  | char (c : Char)
  /-- A character that stands for itself. -/
  | escaped (c : Char)
  | quote
deriving DecidableEq

namespace Glyph

/-- The character of a glyph; a quote has none. -/
def char? : Glyph → Option Char
  | char c | escaped c => some c
  | quote => none

end Glyph

/-- How a part of a word is split. -/
inductive Splitting where
  | none
  /-- At the characters that separate fields. -/
  | atSeparators
  /-- Only between the values that it was made of. -/
  | betweenValues
deriving DecidableEq

/-- A part of a word. -/
structure Part where
  glyphs : List Glyph
  splitting : Splitting := .none

def charsOf (gs : List Glyph) : List Char :=
  gs.filterMap Glyph.char?

def textOf (gs : List Glyph) : String :=
  String.ofList (charsOf gs)

/-- The pattern that glyphs write. What stands for itself is behind a backslash; a bare backslash does that as well
for what follows it. -/
def patternFrom (isQuoted isBare : Bool) : List Glyph → List Char
  | [] => []
  | .quote :: gs => patternFrom (! isQuoted) isBare gs
  | .char c :: gs => c :: patternFrom isQuoted (c != '\\') gs
  | .escaped c :: gs =>
    (if isBare then ['\\'] else if isQuoted then ['\\', '\\'] else []) ++ c :: patternFrom isQuoted true gs

def patternOf (gs : List Glyph) : List Char :=
  patternFrom false true gs

/-! ### Splitting -/

/-- The character between the values of a word that is split between them. -/
def valueEnd : Char := '\x00'

/-- The separators that count as nothing at the ends of a text. -/
def isSpaceSeparator (c : Char) : Bool :=
  c == ' ' || c == '\t' || c == '\n' || c == valueEnd

/-- A word that is being split. -/
structure Cutting where
  /-- The fields so far, the last one first. -/
  fields : List (List Glyph) := []
  /-- The glyphs of the present field, the last one first. -/
  field : List Glyph := []
  /-- A field has just ended with a space. -/
  afterSpace : Bool := false
  /-- How many fields may still end, if that is bounded. -/
  left : Option Nat := none
  /-- How many glyphs of the present field count, if not all of them do. -/
  counted : Option Nat := none

namespace Cutting

/-- The next glyph when all that is left is one field: separators at its end do not count. -/
def last (c : Cutting) (g : Glyph) (isSeparator isSpace : Bool) : Cutting :=
  if isSpace then
    { c with field := g :: c.field, counted := some (c.counted.getD c.field.length) }
  else
    let counted := if isSeparator && c.afterSpace then c.counted else none
    { c with field := g :: c.field, counted, afterSpace := false }

/-- The next glyph at which a field may end. `endsSpace` says that a space ends a field together with what
follows. -/
def glyph (c : Cutting) (g : Glyph) (isSeparator isSpace endsSpace : Bool) : Cutting :=
  if c.left = some 0 then c.last g isSeparator isSpace
  else if c.afterSpace && isSeparator then { c with field := [], afterSpace := isSpace }
  else if c.afterSpace then { c with field := [g], afterSpace := false }
  else if ! isSeparator then { c with field := g :: c.field }
  else
    let afterSpace := endsSpace && isSpace
    if c.field.isEmpty && afterSpace then c
    else if c.left = some 1 then
      { c with field := g :: c.field, afterSpace, left := some 0, counted := some c.field.length }
    else
      { c with
        fields := c.field :: c.fields, field := [], afterSpace
        left := c.left.map (· - 1) }

/-- The next part of a word. `separators` are those that are set; `before` says how the last part that is split at
all was split. -/
def part (c : Cutting) (separators : List Char) (before : Splitting) (p : Part) : Cutting :=
  if p.splitting = .none then { c with field := p.glyphs.reverse ++ c.field }
  else
    let isBetween := p.splitting == .betweenValues
    let endsSpace := ! isBetween && before != .betweenValues
    p.glyphs.foldl (fun c g =>
      let char := g.char?
      let isSeparator := char.any fun d => d == valueEnd || (! isBetween && separators.contains d)
      let isSpace := isSeparator && char.any isSpaceSeparator
      c.glyph g isSeparator isSpace endsSpace) { c with afterSpace := false }

/-- The parts of a word, and how the last part that is split at all is split. -/
def parts (separators : List Char) : Cutting → Splitting → List Part → Cutting × Splitting
  | c, before, [] => (c, before)
  | c, before, p :: ps =>
    parts separators (c.part separators before p) (if p.splitting = .none then before else p.splitting) ps

/-- The fields, when no part is left. An empty field at the end counts only behind values that are kept apart. -/
def finished (c : Cutting) (last : Splitting) : List (List Glyph) :=
  let field :=
    match c.counted with
    | some n => c.field.drop (c.field.length - n)
    | none => c.field
  let fields := if last = .betweenValues ∨ ! field.isEmpty then field :: c.fields else c.fields
  (fields.map List.reverse).reverse

end Cutting

/-- The fields of a word; if a number is given, there are no more than that. -/
def fields (separators : List Char) (most : Option Nat) (ps : List Part) : List (List Glyph) :=
  let (c, last) := Cutting.parts separators { left := most } .none ps
  c.finished last

end PacketFilter.Shell
