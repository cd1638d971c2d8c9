import PacketFilter.Userland.Shell.Arithmetic
import PacketFilter.Userland.Shell.Engine
import PacketFilter.Userland.Shell.Field

/-! # Filling in words

A word of a script is filled in from left to right: parameters give their values, scripts their output, expressions
their results, and a tilde the directory of a user. Quotes count on the way, and what came from outside of quotes is
split later. `Word.fields` gives the fields of a word, and `Word.text` the text of a word that is not split. -/

namespace PacketFilter.Shell

/-- How a word is filled in. -/
structure Manner where
  /-- The word is split, and patterns in it stand for paths. -/
  splits : Bool := false
  /-- A tilde at the start is the directory of a user. -/
  tilde : Bool := false
  /-- The word sets a parameter, so that a tilde counts behind signs as well. -/
  setting : Bool := false
  /-- The equals sign of the setting has been seen. -/
  behindSign : Bool := false
  /-- The word is a pattern. -/
  isPattern : Bool := false
  /-- The word belongs to a use of a parameter, so that what is written in it is split as well. -/
  inUse : Bool := false
  isQuoted : Bool := false
  /-- The word does not count. -/
  isDropped : Bool := false

namespace Manner

/-- Whether it has to be known later what is quoted. -/
def keepsQuotes (m : Manner) : Bool :=
  m.splits || m.isPattern

/-- The glyph of a character of a value. Between quotes it stands for itself if it could mean something. -/
def glyph (m : Manner) (c : Char) : Glyph :=
  let isSpecial := isReserved c || (m.isQuoted && (isPatternMark c || c == '\\'))
  if m.keepsQuotes && isSpecial then .escaped c else .char c

def glyphs (m : Manner) (text : String) : List Glyph :=
  text.toList.map m.glyph

end Manner

variable (E : Engine)

/-! ### Values -/

/-- The value of a parameter: texts that stand apart from each other, and the character between them, if there is
one. -/
structure Value where
  texts : List String
  between : Option Char := none

namespace Value

def single (text : String) : Value := { texts := [text] }

def chars (v : Value) : List Char :=
  match v.between with
  | none => v.texts.flatMap String.toList
  | some c => List.intercalate [c] (v.texts.map String.toList)

def glyphs (v : Value) (m : Manner) : List Glyph :=
  match v.between with
  | none => v.texts.flatMap m.glyphs
  | some c => List.intercalate [if c = valueEnd then .char c else m.glyph c] (v.texts.map m.glyphs)

end Value

/-- The characters that separate fields unless others are set. -/
def usualSeparators : List Char := [' ', '\t', '\n']

/-- The character between arguments that are put together: the first separator, or a space if none are set. -/
def joining (separators : Option String) : Option Char :=
  match separators with
  | none => some ' '
  | some cs => cs.toList.head?

/-- All arguments as a value. -/
def argumentsValue (sh : State) (m : Manner) (name : String) : Value :=
  let separators := (sh.parameters.lookup "IFS").bind Parameter.value
  let between : Option Char :=
    if ! m.splits then joining separators
    else if m.isQuoted then if name = "@" then some valueEnd else joining separators
    else if separators.isNone then some ' '
    else some valueEnd
  { texts := sh.args, between }

/-- The value of a parameter, if it has one. -/
def valueOf (sh : State) (m : Manner) (name : String) : Option Value :=
  match name with
  | "$" => some (.single (toString sh.root))
  | "?" => some (.single (toString sh.status))
  | "#" => some (.single (toString sh.args.length))
  | "!" => sh.lastBeside.map fun n => .single (toString n)
  | "-" => some (.single (Switch.letters sh.switches))
  | "@" | "*" => some (argumentsValue sh m name)
  | name =>
    if name.toList.all Char.isDigit && ! name.isEmpty then
      match Text.Decimal.value name.toList with
      | 0 => some (.single sh.name)
      | n + 1 => (sh.args[n]?).map .single
    else ((sh.parameters.lookup name).bind Parameter.value).map .single

/-! ### Tildes -/

def userHomes : List (String × String) :=
  [("root", "/root"), ("daemon", "/usr/sbin"), ("bin", "/bin"), ("sys", "/dev"), ("sync", "/bin"),
    ("games", "/usr/games"), ("man", "/var/cache/man"), ("lp", "/var/spool/lpd"), ("mail", "/var/mail"),
    ("news", "/var/spool/news"), ("uucp", "/var/spool/uucp"), ("proxy", "/bin"), ("www-data", "/var/www"),
    ("backup", "/var/backups"), ("list", "/var/list"), ("irc", "/run/ircd"), ("nobody", "/nonexistent")]

/-- The name behind a tilde, and what follows it. Something that is quoted makes it no name. -/
def tildeName? (setting : Bool) : Word → Option (List Char × Word)
  | [] => some ([], [])
  | .char c :: w =>
    if c = '/' ∨ (c = ':' ∧ setting) then some ([], .char c :: w)
    else (tildeName? setting w).map fun (name, rest) => (c :: name, rest)
  | _ => none

/-- The directory that a tilde stands for, and what follows it. -/
def tildeHome? (m : Manner) (w : Word) : Run (Option (String × Word)) := do
  match w with
  | .char '~' :: w =>
    match tildeName? m.setting w with
    | none => return none
    | some (name, rest) =>
      let home ← if name.isEmpty then Run.value? "HOME" else pure (userHomes.lookup (String.ofList name))
      return home.map (·, rest)
  | _ => return none

/-! ### Output -/

/-- A text without line ends at its end. -/
def withoutLineEnds (text : String) : String :=
  String.ofList (Text.dropEndWhile (· == '\n') text.toList)

/-- A process whose output goes to an opening. -/
def Process.leading (stream opening : Nat) (p : Process) : Process :=
  { p with streams := (stream, opening) :: p.streams.filter (·.1 != stream) }

/-- The output of a script that runs on its own. Zero bytes are left out of it. -/
def outputOf (script : Script) : Run String := do
  if script.isNothing then return ""
  else
    let (channel, writing) ← modifyGet fun sh =>
      let (channel, writing, _, world) := sh.world.withChannel
      ((channel, writing), { sh with world })
    let ending ← inChild E (Process.leading 1 writing) (E.run { isLast := true } script)
    reportEnding ending
    modify fun sh => { sh with innerStatus := ending.status }
    let octets := Text.Octets.ofBytes ((← get).world.contentOf channel)
    return String.ofList (octets.toList.filter (· != '\x00'))

/-! ### Parts of words -/

/-- The end of a script that needs the value of a parameter. -/
def lacking (name : String) (message : Option String) (orEmpty : Bool) : Run α :=
  match message with
  | some text => Run.fail (name ++ ": " ++ text)
  | none => Run.fail (name ++ ": parameter not set" ++ (if orEmpty then " or null" else ""))

/-- The part of a word that comes from a value. Values between quotes are not split, but arguments stay apart. -/
def valuePart (sh : State) (m : Manner) (name : String) (glyphs : List Glyph) : Part :=
  let splitting : Splitting :=
    if ! m.isQuoted then .atSeparators
    else if name.toList.head? = some '@' ∧ ! sh.args.isEmpty then .betweenValues
    else .none
  { glyphs, splitting }

/-- Adds a glyph that is written in a word. What is next to each other and split in the same way is one part. -/
def addGlyph (g : Glyph) (splitting : Splitting) (joins : Bool) : List Part → List Part
  | p :: ps =>
    if joins && p.splitting = splitting then { p with glyphs := p.glyphs ++ [g] } :: ps
    else ⟨[g], splitting⟩ :: p :: ps
  | [] => [⟨[g], splitting⟩]

/-- A word that is being filled in. -/
structure Filled where
  /-- The parts so far, the last one first. -/
  parts : List Part := []
  /-- What follows is between quotes. -/
  inQuotes : Bool := false
  /-- The last part was written in the word itself, so that more of it belongs to it. -/
  joins : Bool := false

namespace Filled

def add (f : Filled) (ps : List Part) : Filled :=
  { f with parts := ps.reverse ++ f.parts, joins := false }

/-- Adds a glyph that is not split. -/
def glyph (f : Filled) (m : Manner) (g : Glyph) : Filled :=
  if m.isDropped then f else { f with parts := addGlyph g .none false f.parts, joins := false }

/-- Adds a character as it is written. -/
def char (f : Filled) (m : Manner) (c : Char) : Filled :=
  if m.isDropped then f
  else
    let splitting : Splitting :=
      if m.inUse && ! m.isQuoted && ! f.inQuotes then .atSeparators else .none
    { f with parts := addGlyph (.char c) splitting f.joins f.parts, joins := true }

end Filled

/-- What fills in a word. -/
abbrev Filler := Manner → Word → Run (List Part)

/-- The value of a parameter to which something is done. -/
def useParts (fill : Filler) (m : Manner) (name : String) (use : Use) (orEmpty : Bool) (word : Word) :
    Run (List Part) := do
  let sh ← get
  let drops : Manner := { m with isDropped := true }
  if use = .meaningless then
    if m.isDropped then fill drops word else Run.fail "Bad substitution"
  else
    let value := valueOf sh (if use = .length then { m with splits := false, isPattern := false } else m) name
    let value := value.filter fun v => ! (orEmpty && v.chars.isEmpty)
    let parts (v : Option Value) : Run (List Part) := do
      match v with
      | some v => if m.isDropped then return [] else return [valuePart (← get) m name (v.glyphs m)]
      | none => return []
    -- The word counts in the place of the value.
    let inner : Manner := { m with tilde := true, inUse := true }
    let needsValue : Run Unit := do
      if value.isNone && ! m.isDropped && (← Run.isOn .needsValues) then lacking name none false
    match use with
    | .ifSet =>
      if value.isSome then fill inner word
      else fill { inner with isDropped := true } word
    | .orElse =>
      if value.isNone then fill inner word
      else
        let _ ← fill { inner with isDropped := true } word
        parts value
    | .assigned | .required =>
      let isDropped := m.isDropped || value.isSome
      let text ← fill { tilde := true, isQuoted := false, isDropped } word
      if isDropped then parts value
      else if use = .required then
        lacking name (if word.isEmpty then none else some (textOf (text.flatMap Part.glyphs))) orEmpty
      else
        Run.assign name (textOf (text.flatMap Part.glyphs))
        parts (valueOf (← get) m name)
    | .length =>
      needsValue
      if m.isDropped then return []
      else
        let n := value.elim 0 fun v => v.chars.length
        return [valuePart sh m name (m.glyphs (toString n))]
    | .withoutStart longest | .withoutEnd longest =>
      needsValue
      let isDropped := m.isDropped || value.isNone
      let pattern := patternOf ((← fill { tilde := true, isPattern := true, isDropped } word).flatMap Part.glyphs)
      match value with
      | none => return []
      | some v =>
        if isDropped then return []
        else
          let cs := v.chars
          let cs :=
            match use with
            | .withoutStart _ => Pattern.withoutStart longest pattern cs
            | _ => Pattern.withoutEnd longest pattern cs
          let kept (c : Char) : Glyph := if c = valueEnd then .char c else m.glyph c
          return [valuePart (← get) m name (cs.map kept)]
    | _ =>
      needsValue
      parts value

def expressionParts (fill : Filler) (m : Manner) (text : Word) : Run (List Part) := do
  let ps ← fill { isDropped := m.isDropped } text
  if m.isDropped then return []
  else
    let value ← evaluate (textOf (ps.flatMap Part.glyphs))
    return [{ glyphs := m.glyphs value, splitting := if m.isQuoted then .none else .atSeparators }]

/-- Fills in a word. `f` is what has been filled in of it. -/
def fillFrom (fill : Filler) : Nat → Manner → Filled → Word → Run Filled
  | 0, _, f, _ => return f
  | fuel + 1, m, f, w => do
    let quoted : Manner := { m with isQuoted := m.isQuoted || f.inQuotes, tilde := false }
    match w with
    | [] => return f
    | .char c :: rest =>
      let m := { m with tilde := false }
      let f := f.char m c
      if m.setting && ((c == '=' && ! m.behindSign) || c == ':') then
        let m := { m with behindSign := m.behindSign || c == '=' }
        match ← tildeHome? m rest with
        | some (home, rest) =>
          let f := if m.isDropped then f else f.add [⟨{ m with isQuoted := true }.glyphs home, .none⟩]
          fillFrom fill fuel m f rest
        | none => fillFrom fill fuel m { f with joins := false } rest
      else fillFrom fill fuel m f rest
    | .escaped c :: rest =>
      let f := f.glyph m (if m.keepsQuotes then .escaped c else .char c)
      fillFrom fill fuel { m with tilde := false } f rest
    | .quote :: rest =>
      let m := { m with tilde := false }
      match f.inQuotes, rest with
      | false, .parameter "@" .value false [] :: .quote :: rest =>
        let ps ← useParts fill { quoted with isQuoted := true } "@" .value false []
        fillFrom fill fuel m (f.add ps) rest
      | _, _ =>
        let f := if m.keepsQuotes then f.glyph m .quote else { f with joins := false }
        fillFrom fill fuel m { f with inQuotes := ! f.inQuotes } rest
    | .parameter name use orEmpty word :: rest =>
      let ps ← useParts fill quoted name use orEmpty word
      fillFrom fill fuel { m with tilde := false } (f.add ps) rest
    | .output script :: rest =>
      let f ←
        if m.isDropped then pure f
        else
          let text := withoutLineEnds (← outputOf E script)
          let splitting : Splitting := if quoted.isQuoted then .none else .atSeparators
          pure (f.add [⟨quoted.glyphs text, splitting⟩])
      fillFrom fill fuel { m with tilde := false } f rest
    | .expression text :: rest =>
      let ps ← expressionParts fill quoted text
      fillFrom fill fuel { m with tilde := false } (f.add ps) rest

/-- The words inside of a word are less deep than this. -/
def maxWordDepth : Nat := 1000

/-- Fills in a word. -/
def fillIn : Nat → Filler
  | 0, _, _ => return []
  | depth + 1, m, w => do
    let fuel := w.length + 1
    let home? ← if m.tilde then tildeHome? m w else pure none
    let m := { m with tilde := false }
    match home? with
    | some (home, rest) =>
      let first : List Part := if m.isDropped then [] else [⟨{ m with isQuoted := true }.glyphs home, .none⟩]
      return (← fillFrom E (fillIn depth) fuel m { parts := first } rest).parts.reverse
    | none => return (← fillFrom E (fillIn depth) fuel m {} w).parts.reverse

namespace Word

def glyphs (m : Manner) (w : Word) : Run (List Glyph) := do
  return (← fillIn E maxWordDepth m w).flatMap Part.glyphs

/-- The text of a word that is not split. -/
def text (m : Manner) (w : Word) : Run String := do
  return textOf (← glyphs E m w)

/-- The fields of a word: it is split, and patterns stand for the paths that match them. -/
def fields (w : Word) : Run (List String) := do
  let parts ← fillIn E maxWordDepth { splits := true, tilde := true } w
  let sh ← get
  let separators := ((sh.parameters.lookup "IFS").bind Parameter.value).elim usualSeparators String.toList
  let noPaths := sh.switches.contains .noPaths
  return (Shell.fields separators none parts).flatMap fun field =>
    if noPaths || ! (charsOf field).any Pattern.isWild then [textOf field]
    else
      match Glob.paths sh.world.files sh.process.directory (patternOf field) with
      | [] => [textOf field]
      | paths => paths

end Word

end PacketFilter.Shell
