import PacketFilter.Userland.Shell.Builtin
import PacketFilter.Userland.Shell.Engine
import PacketFilter.Userland.Shell.Expansion

/-! # Simple commands

A simple command sets parameters, redirects streams and carries out what its words stand for: a definition of the
script, a command that needs no program, or a program. `runSimple` does this in the right order: the first word that is
not empty says what the command is, and so how the other words are filled in; then streams are redirected, then
parameters are set, and then the command is carried out. -/

/-! ## Redirections

Before a command is carried out, its streams may be made to lead elsewhere. `Redirection.fill` fills in the words of
redirections, `redirectAll` opens what they lead to, and `restoreStreams` gives the streams back that were there
before. -/

namespace PacketFilter.Shell

/-- A redirection whose words have been filled in. -/
inductive Redirected where
  | file (stream : Nat) (direction : Direction) (name : String)
  | same (stream : Nat) (source : Option Nat)
  | inset (stream number : Nat)

/-- A stream, and what it led to before. -/
abbrev StreamBefore := Nat × Option Nat

variable (E : Engine)

/-- How a word is filled in that says where a stream leads. -/
def Redirection.manner : Manner := { tilde := true }

/-- Fills in the words of a redirection. -/
def Redirection.fill : Redirection → Run Redirected
  | .file stream direction name => do
    return .file stream direction (← Word.text E manner name)
  | .same stream source => return .same stream source
  | .inset stream number => return .inset stream number
  | .sameAs stream source => do
    match (← Word.text E manner source).toList with
    | [c] =>
      if c.isDigit then return .same stream (some (c.toNat - '0'.toNat))
      else if c = '-' then return .same stream none
      else wrong
    | _ => wrong
where
  /-- The script ends as if it were not well-formed where it has been read up to. -/
  wrong : Run Redirected := do
    modify fun sh => { sh with line := sh.lineRead }
    Run.fail "Syntax error: Bad fd number"

/-- What is said about a file that cannot be opened. -/
def openingReason (e : FileError) (creates : Bool) : String :=
  match e with
  | .missing | .notDirectory => if creates then "Directory nonexistent" else "No such file"
  | e => e.text

/-- How a file is opened, and whether it is made. Files that are there may have to be kept. -/
def accessOf (direction : Direction) (keepsFiles : Bool) : Access × Bool :=
  match direction with
  | .input => (.read, false)
  | .both => ({ reads := true, writes := true, creates := true }, true)
  | .output => (if keepsFiles then { Access.write with isNew := true } else .write, true)
  | .replacement => (.write, true)
  | .appended => (.append, true)

/-- Makes a stream lead to an opening, or closes it. -/
def lead (stream : Nat) (opening : Option Nat) : Run Unit :=
  modify fun sh =>
    let others := sh.process.streams.filter (·.1 != stream)
    { sh with process := { sh.process with streams := (opening.map (stream, ·)).toList ++ others } }

def openFile (direction : Direction) (name : String) : Run Nat := do
  let (access, creates) := accessOf direction (← Run.isOn .keepsFiles)
  let sh ← get
  match sh.world.openFile sh.process name access with
  | .ok (opening, world) =>
    set { sh with world }
    return opening
  | .error e =>
    let what := if creates then "cannot create " else "cannot open "
    Run.fail (what ++ name ++ ": " ++ openingReason e creates)

/-- An opening from which octets are read. -/
def openText (octets : String) : Run Nat :=
  modifyGet fun sh =>
    let (_, writing, reading, world) := sh.world.withChannel
    match world.write writing (Text.Octets.bytes octets) with
    | .ok world => (reading, { sh with world })
    | .error _ => (reading, { sh with world })

/-- The text of a script that has a number. -/
def insetText (number : Nat) : Run String := do
  match (← get).insets[number]? with
  | none => return ""
  | some inset =>
    if inset.isFilled then Word.text E { isQuoted := true } inset.text
    else return String.ofList inset.text.unquoted

/-- What a redirection makes its stream lead to, if that changes anything. -/
def Redirected.opening? : Redirected → Run (Option (Nat × Option Nat))
  | .file stream direction name => do return some (stream, some (← openFile direction name))
  | .inset stream number => do return some (stream, some (← openText (← insetText E number)))
  | .same stream source => do
    if source = some stream then return none
    else
      match source with
      | none => return some (stream, none)
      | some source =>
        match (← get).process.streams.lookup source with
        | some opening => return some (stream, some opening)
        | none => Run.fail (toString source ++ ": " ++ FileError.badStream.text)

/-- Redirects streams one after the other, up to the first that cannot be. The result has what the streams led to
before, and whether all is well. -/
def redirectAll : List StreamBefore → List Redirected → Run (List StreamBefore × Bool)
  | before, [] => return (before, true)
  | before, r :: rs => do
    let result : Except Unit (Option (Nat × Option Nat)) ←
      tryCatch (do return .ok (← r.opening? E)) fun stop => do
        if stop = .error then return .error () else throw stop
    match result with
    | .error () => return (before, false)
    | .ok none => redirectAll before rs
    | .ok (some (stream, opening)) =>
      let old := (← get).process.streams.lookup stream
      lead stream opening
      redirectAll (if before.any (·.1 == stream) then before else (stream, old) :: before) rs

def restoreStreams (before : List StreamBefore) : Run Unit :=
  before.forM fun (stream, opening) => lead stream opening

end PacketFilter.Shell

/-! ## Words and commands -/

namespace PacketFilter.Shell

variable (E : Engine)

/-! ### Words -/

/-- The words of a command as far as they have been filled in. -/
structure Words where
  /-- All fields so far. -/
  shown : List String := []
  /-- The fields from the name of the command on. -/
  fields : List String := []
  /-- The words that are left. -/
  rest : List Word

namespace Words

/-- Fills in words up to the first that is not empty. -/
def fillOne : Nat → Words → Run Words
  | 0, ws => return ws
  | fuel + 1, ws => do
    match ws.rest with
    | [] => return ws
    | w :: rest =>
      let fields ← Word.fields E w
      let ws := { shown := ws.shown ++ fields, fields := ws.fields ++ fields, rest }
      if fields.isEmpty then fillOne fuel ws else return ws

/-- Fills in words until there are more fields than a number, if that is possible. -/
def fillBeyond (n : Nat) (ws : Words) : Run Words :=
  if ws.fields.length ≤ n then fillOne E (ws.rest.length + 1) ws else return ws

/-- Fills in the words that are left. If parameters are set by the words of the command, these are not split. -/
def fillAll (sets : Bool) (ws : Words) : Run Words := do
  let fields ← ws.rest.mapM fun w =>
    if sets && w.isSetting then do return [← Word.text E { setting := true } w] else Word.fields E w
  return { shown := ws.shown ++ fields.flatten, fields := ws.fields ++ fields.flatten, rest := [] }

/-- The words behind the name `command` and its options, if these ask for nothing else than another search for
programs; the second part of the result says whether they do. `n` fields have been looked at. -/
def behindCommand (usual : Bool) : Nat → Nat → Words → Run (Words × Option Bool)
  | 0, _, ws => return (ws, none)
  | fuel + 1, n, ws => do
    let ws ← fillBeyond E n ws
    match ws.fields[n]? with
    | none => return (ws, none)
    | some field =>
      let found (n : Nat) : Words × Option Bool := ({ ws with fields := ws.fields.drop n }, some usual)
      match field.toList with
      | ['-', '-'] =>
        let ws ← fillBeyond E (n + 1) ws
        if ws.fields.length ≤ n + 1 then return (ws, none)
        else return ({ ws with fields := ws.fields.drop (n + 1) }, some usual)
      | '-' :: 'p' :: cs =>
        if cs.all (· == 'p') then behindCommand true fuel (n + 1) ws else return (ws, none)
      | '-' :: _ :: _ => return (ws, none)
      | _ => return found n

end Words

/-- What a command is, before it has been looked for among programs. -/
structure Chosen where
  words : Words
  search : Search := {}
  /-- The command stands for this, unless it is a program. -/
  isBuiltin : Bool := false
  /-- The first name is one of those that keep what is set in front of them. -/
  isSpecial : Bool := false
  /-- What is set in front of the command is given back at its end. -/
  givesBack : Bool := false
  sets : Bool := false
  isExec : Bool := false

/-- Finds out what a command is. The name `command` says that definitions do not count for what follows. -/
def choose : Nat → Bool → Chosen → Run Chosen
  | 0, _, c => return c
  | fuel + 1, isFirst, c => do
    match c.words.fields with
    | [] => return c
    | name :: _ =>
      match ← lookup { c.search with noPrograms := true } name with
      | .builtin kind =>
        let c :=
          { c with
            isBuiltin := true
            sets := kind.sets
            isExec := name == "exec"
            isSpecial := if isFirst then kind.isSpecial else c.isSpecial
            givesBack := ! isFirst || ! kind.isSpecial }
        if name != "command" then return c
        else
          let (words, found) ← Words.behindCommand E c.search.usualPath (c.words.rest.length + 1000) 1 c.words
          match found with
          | none => return { c with words }
          | some usualPath =>
            choose fuel false { c with words, search := { noDefinitions := true, usualPath } }
      | _ => return { c with isBuiltin := false, sets := false, isExec := false, givesBack := true }

/-! ### Settings -/

/-- Sets a parameter in front of a command. The result is the text that does. -/
def setInFront (givesBack exports : Bool) (w : Word) : Run String := do
  let text ← Word.text E { setting := true } w
  let (name, value) := Run.setting text
  if givesBack then Run.keepSetting text true
  else Run.change name value exports false
  return text

/-- The text that a text gives when it is filled in as if it stood between double quotes. -/
def filledText (text : String) : Run String := do
  let sh ← get
  match (Lexing.readText Reading.grammar true .script).run
      (Reading.ofSource (Source.ofText text) sh.aliases sh.insets) with
  | .error .. => return text
  | .ok w _ => tryCatch (Word.text E { isQuoted := true } w) fun _ => return text

/-- Shows a command before it is carried out. -/
def showCommand (stream : Option Nat) (settings words : List String) : Run Unit := do
  let sh ← get
  if sh.switches.contains .traced && ! sh.isShowing then
    set { sh with isShowing := true }
    let start ← filledText E ((← Run.value? "PS4").getD "")
    modify fun sh => { sh with isShowing := false }
    let text := start ++ " ".intercalate (settings ++ words) ++ "\n"
    modify fun sh =>
      match stream.map fun o => sh.world.write o (Text.Octets.bytes text) with
      | some (.ok world) => { sh with world }
      | _ => sh

/-! ### Carrying out -/

/-- How deep definitions are carried out inside of each other at most. -/
def maxCalls : Nat := 1000

def call (mode : Mode) (body : Script) (args : List String) : Run Unit := do
  let sh ← get
  if maxCalls ≤ sh.depth then
    Run.fail ("Maximum function recursion depth (" ++ toString maxCalls ++ ") reached")
  set { sh with args, optionIndex := 1, optionPlace := none, loops := 0, depth := sh.depth + 1 }
  let restored : Run Unit :=
    modify fun after =>
      { after with
        args := sh.args, optionIndex := sh.optionIndex, optionPlace := sh.optionPlace
        loops := sh.loops, depth := sh.depth
        skip :=
          match after.skip with
          | .definition | .definitionOnly => .nothing
          | skip => skip }
  tryCatch (do let _ ← E.run { isTested := mode.isTested } body) fun stop => do
    restored
    throw stop
  restored

/-- Whether something is to be carried out when a signal arrives. -/
def hasTraps (sh : State) : Bool :=
  sh.traps.any fun t => ! t.2.isEmpty

/-- Runs a program in a process of its own. -/
def runProgram (path : String) (fields : List String) : Run Unit := do
  startQuickJobs
  let number ← newProcess
  let sh ← get
  match E.launch sh.world (programProcess sh number sh.process.number) path fields with
  | .ok (world, ending) =>
    comeBack number world
    settle sh.world.clock
    reportEnding ending
    modify fun sh => { sh with status := ending.status }
  | .error why =>
    Run.warn (fields.headD "" ++ ": " ++ programReason why)
    comeBack number (← get).world
    modify fun sh => { sh with status := programStatus why }
where
  /-- The process that a program is run in. -/
  programProcess := Builtin.programProcess

/-- Carries out a command that needs no program. If something is wrong with it that does not end the script, what it
has changed on the way is given back. -/
def runBuiltin (mode : Mode) (name : Option String) (isSpecial : Bool) (args : List String) : Run Unit := do
  let sh ← get
  let step : Run Nat :=
    match name with
    | none => return (← get).innerStatus
    | some name => Builtin.act E mode name args
  match ← Builtin.within name step with
  | .ok _ => return
  | .error stop =>
    if stop = .error && ! isSpecial then
      Run.giveBackTo sh.kept.length
      modify fun after =>
        { after with process := { after.process with streams := sh.process.streams }, lineRead := sh.lineRead }
    else throw stop

/-- Carries out a command whose words have been filled in. -/
def perform (mode : Mode) (c : Chosen) (fields : List String) : Run Unit := do
  match fields with
  | [] => runBuiltin E mode none false []
  | name :: args =>
    if c.isBuiltin then runBuiltin E mode (some name) c.isSpecial args
    else
      match ← lookup c.search name with
      | .definition body => call E mode body args
      | .builtin _ => runBuiltin E mode (some name) c.isSpecial args
      | .nothing why =>
        Run.warn (name ++ ": " ++ programReason why)
        modify fun sh => { sh with status := 127 }
      | .program path =>
        if mode.isLast && ! hasTraps (← get) then Builtin.become E path fields
        else runProgram E path fields

/-- Runs a simple command. -/
def runSimple (mode : Mode) (line : Nat) (settings words : List Word) (rs : List Redirection) : Run Nat := do
  modify fun sh => { sh with line, innerStatus := 0 }
  let filled ← Words.fillOne E (words.length + 1) { rest := words }
  let c ← choose E (words.length + filled.fields.length + 1) true { words := filled }
  let ws ← c.words.fillAll E c.sets
  let exports := c.isExec && 1 < ws.fields.length
  let kept := (← get).kept.length
  if c.givesBack then modify fun sh => { sh with kept := [] :: sh.kept }
  let rs ← rs.mapM (Redirection.fill E)
  let errors := (← get).process.streams.lookup 2
  let (before, isWell) ← redirectAll E [] rs
  if isWell then
    let settings ← settings.mapM (setInFront E c.givesBack exports)
    showCommand E errors settings ws.shown
    perform E mode c ws.fields
  else
    modify fun sh => { sh with status := 2 }
    if c.isSpecial then throw .error
  if ! c.isExec || ! isWell then restoreStreams before
  Run.giveBackTo kept
  return (← get).status

end PacketFilter.Shell
