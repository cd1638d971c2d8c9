import PacketFilter.Userland.Shell.Builtin.Settings
import PacketFilter.Userland.Shell.Field
import PacketFilter.Userland.Shell.Printing

/-! # Commands about streams and directories

`echo`, `printf` and `read`, `cd` and `pwd`. -/

/-! ## Reading and writing -/

namespace PacketFilter.Shell.Builtin

def runEcho (args : List String) : Run Nat := do
  Run.print (echoed args)
  return 0

def runPrintf (args : List String) : Run Nat := do
  let (_, args) ← options "" args
  match args with
  | [] => Run.fail "usage: printf format [arg ...]"
  | format :: args =>
    let f := formatted (args.length + 1) format.toList args
    Run.print (String.ofList f.text)
    if f.invalid then
      f.complaints.dropLast.forM Run.warn
      Run.fail (f.complaints.getLastD "")
    else
      f.complaints.forM Run.warn
      return if f.complaints.isEmpty then 0 else 1

/-! ### Reading -/

/-- A line that is being read: the parts of it that may be split and the characters that may not, and the characters
of the present part. The last of each come first. -/
structure LineRead where
  parts : List Part := []
  present : List Glyph := []

namespace LineRead

/-- Ends the present part. -/
def cut (l : LineRead) : LineRead :=
  { parts := ⟨l.present.reverse, .atSeparators⟩ :: l.parts }

/-- Adds a character that is not split. -/
def fixed (l : LineRead) (c : Char) : LineRead :=
  { parts := ⟨[.char c], .none⟩ :: l.cut.parts }

def char (l : LineRead) (c : Char) : LineRead :=
  { l with present := .char c :: l.present }

end LineRead

/-- Takes a character from the input. -/
def readChar : Run (Option Char) := do
  let sh ← get
  match sh.process.streams.lookup 0 with
  | none => return none
  | some opening =>
    match sh.world.read opening 1 with
    | .error _ => return none
    | .ok (bytes, world) =>
      set { sh with world }
      return (Text.Octets.ofBytes bytes).toList.head?

/-- Reads a line of at most so many characters. A backslash keeps what follows it as it is, and goes on behind a line
end; with `isRaw` it means nothing. The second part of the result says whether the line has an end. -/
def readLine (isRaw : Bool) : Nat → LineRead → Run (LineRead × Bool)
  | 0, l => return (l, false)
  | fuel + 1, l => do
    match ← readChar with
    | none => return (l, false)
    | some '\x00' => readLine isRaw fuel l
    | some '\n' => return (l, true)
    | some c =>
      if c = '\\' ∧ ! isRaw then
        match ← readChar with
        | none => return (l, false)
        | some '\n' => readLine isRaw fuel l.cut
        | some d => readLine isRaw fuel (l.fixed d)
      else readLine isRaw fuel (l.char c)

/-- Gives the fields of a line to parameters. -/
def giveFields : List (List Glyph) → List String → Run Unit
  | _, [] => return
  | field :: fields, name :: names => do
    Run.assign name (textOf field)
    giveFields fields names
  | [], names => names.forM fun name => Run.assign name ""

def maxLine : Nat := 1000000

def runRead (args : List String) : Run Nat := do
  let (os, names) ← options "p:r" args
  if names.isEmpty then Run.fail "arg count"
  let (l, hasEnd) ← readLine (os.any (·.1 == 'r')) maxLine {}
  let separators := (← Run.value? "IFS").elim [' ', '\t', '\n'] String.toList
  giveFields (fields separators (some names.length) l.cut.parts.reverse) names
  return if hasEnd then 0 else 1

/-! ## The present directory

The path of the present directory is followed by its names, so that `..` leaves the last of them even if it is a link;
the option `P` asks for the directories that really are around it. -/

/-- The names of a path behind others, the last one first, when names are followed one by one. -/
def followed (before : List String) (path : String) : List String :=
  (pathNames path).foldl (fun names name =>
    if name = "" ∨ name = "." then names
    else if name = ".." then names.drop 1
    else name :: names) before

/-- The path that a path leads to from another one. Two slashes in front are kept. -/
def pathFrom (place path : String) : String :=
  let start (path : String) : String :=
    match path.toList with
    | '/' :: '/' :: '/' :: _ => "/"
    | '/' :: '/' :: _ => "//"
    | _ => "/"
  if isAbsolute path then start path ++ "/".intercalate (followed [] path).reverse
  else start place ++ "/".intercalate (followed (followed [] place) path).reverse

/-- The path of a directory from the root. -/
def realPath (sh : State) : String :=
  sh.world.files.pathOf maxSteps sh.process.directory
where
  /-- How deep directories are at most. -/
  maxSteps : Nat := 4096

/-- Goes to a directory. The result says whether that is possible. -/
def go (isReal : Bool) (path : String) : Run Bool := do
  let sh ← get
  let path := if isReal then path else pathFrom sh.place path
  match sh.world.files.find sh.process.directory path with
  | .error _ => return false
  | .ok n =>
    if ! (sh.world.files.node n).isDirectory then return false
    else
      let before := sh.place
      let sh := { sh with process := { sh.process with directory := n } }
      let place := if isReal then realPath sh else path
      let found := sh.found.map fun f => { f with isOld := f.isOld || ! isAbsolute f.path }
      set { sh with place, found }
      Run.change "OLDPWD" (some before) true false
      Run.change "PWD" (some place) true false
      return true

/-- Whether a path says itself where it starts. -/
def isFixed (path : String) : Bool :=
  match path.toList with
  | '/' :: _ | ['.'] | '.' :: '/' :: _ | ['.', '.'] | '.' :: '.' :: '/' :: _ => true
  | _ => false

/-- Whether a path leads to a directory. -/
def isDirectory (path : String) : Run Bool := do
  let sh ← get
  match sh.world.files.find sh.process.directory path with
  | .ok n => return (sh.world.files.node n).isDirectory
  | .error _ => return false

/-- Goes to the first directory below one of several. The result says whether there is one, and whether its path is
shown. -/
def goBelow (isReal : Bool) (path : String) : List String → Run (Option Bool)
  | [] => return none
  | directory :: directories => do
    let below := World.programIn directory path
    if ← isDirectory below then
      return if ← go isReal below then some (! directory.isEmpty) else none
    else goBelow isReal path directories

def runCd (args : List String) : Run Nat := do
  let (os, args) ← options "LP" args
  let isReal := (os.getLast?.map Prod.fst) == some 'P'
  let isBack := args.head? == some "-"
  let path ←
    match args.head? with
    | none => pure ((← Run.value? "HOME").getD "")
    | some path => if isBack then pure ((← Run.value? "OLDPWD").getD "") else pure path
  let show? ←
    if isFixed path then pure (if ← go isReal path then some false else none)
    else
      let path := if path.isEmpty then "." else path
      let directories := World.searchPath ((← Run.value? "CDPATH").getD "")
      match ← goBelow isReal path directories with
      | some isShown => pure (some isShown)
      | none => pure (if ← go isReal path then some false else none)
  match show? with
  | none => Run.fail ("can't cd to " ++ path)
  | some isShown =>
    if isShown || isBack then Run.print ((← get).place ++ "\n")
    return 0

def runPwd (args : List String) : Run Nat := do
  let (os, _) ← options "LP" args
  let sh ← get
  let isReal := (os.getLast?.map Prod.fst) == some 'P'
  Run.print ((if isReal then realPath sh else sh.place) ++ "\n")
  return 0

end PacketFilter.Shell.Builtin
