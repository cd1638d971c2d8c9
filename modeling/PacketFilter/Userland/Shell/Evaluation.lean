import PacketFilter.Userland.Shell.Command

/-! # Running scripts

`carryOut` runs a command of any kind, with an engine for the commands inside of it. Loops go on as long as their
conditions say, subshells and the parts of a pipeline are processes of their own, and a command that fails may end the
script. `called` gives what comes of a call of the shell. -/

namespace PacketFilter.Shell

variable (E : Engine)

/-! ### Loops -/

/-- How a loop goes on after a turn: `none` if with the next turn, and otherwise not; the loops around it may be left
as well. -/
def afterTurn : Run Bool := do
  let sh ← get
  match sh.skip with
  | .nothing => return true
  | .loops n =>
    set { sh with skip := if n ≤ 1 then .nothing else .loops (n - 1) }
    return false
  | .turn n =>
    set { sh with skip := if n ≤ 1 then .nothing else .turn (n - 1) }
    return n ≤ 1
  | _ => return false

/-- Runs the turns of a loop that depends on a condition, of which there are so many at most. The result is the
status of the last one. -/
def runLoop (mode : Mode) (success : Bool) (condition body : Script) : Nat → Nat → Run Nat
  | 0, status => return status
  | fuel + 1, status => do
    let tested ← E.run { isTested := true } condition
    let skipped := (← get).skip
    let goesOn ← afterTurn
    if skipped != .nothing then
      if goesOn then runLoop mode success condition body fuel status
      else return if skipped = .definition then tested else status
    else if (tested == 0) != success then return status
    else
      let status ← E.run { isTested := mode.isTested } body
      if ← afterTurn then runLoop mode success condition body fuel status else return status

/-- Runs the turns of a loop over fields. -/
def runEach (mode : Mode) (name : String) (body : Script) : List String → Nat → Run Nat
  | [], status => return status
  | field :: fields, _ => do
    Run.assign name field
    let status ← E.run { isTested := mode.isTested } body
    if ← afterTurn then runEach mode name body fields status else return status

/-- Takes a step as a loop. -/
def asLoop (step : Run Nat) : Run Nat := do
  modify fun sh => { sh with loops := sh.loops + 1 }
  let status ← step
  modify fun sh => { sh with loops := sh.loops - 1 }
  return status

/-! ### Cases -/

/-- Whether a text is matched by one of several patterns. -/
def isChosen (text : String) : List Word → Run Bool
  | [] => return false
  | w :: ws => do
    let pattern := patternOf (← Word.glyphs E { tilde := true, isPattern := true } w)
    if Pattern.isMatch pattern text.toList then return true else isChosen text ws

/-- The body of the first case with a pattern that matches a text. -/
def chosenCase (text : String) : List (List Word × Script) → Run Script
  | [] => return .nothing
  | (patterns, body) :: cases => do
    if ← isChosen E text patterns then return body else chosenCase text cases

/-! ### Processes -/

/-- Redirects streams for good. -/
def redirectAlways (rs : List Redirected) : Run Unit := do
  let (_, isWell) ← redirectAll E [] rs
  if ! isWell then throw .error

/-- Runs a command to its end in a process of its own. -/
def runApart (mode : Mode) (body : Script) (rs : List Redirected) : Run Nat := do
  redirectAlways E rs
  E.run { isTested := mode.isTested, isLast := true } body

/-- Runs a command in a process of its own, and waits for it. -/
def runSubshell (mode : Mode) (line : Nat) (body : Script) (rs : List Redirection) : Run Nat := do
  modify fun sh => { sh with line }
  let rs ← rs.mapM (Redirection.fill E)
  if mode.isLast && ! hasTraps (← get) then
    modify fun sh => { sh with lineRead := 1 }
    runApart E mode body rs
  else
    let since := (← get).world.clock
    let ending ← inChild E id (runApart E mode body rs)
    settle since
    reportEnding ending
    return ending.status

/-- A new process for a job. Its input is empty. -/
def besideShell (sh : State) (number : Nat) : Run State := do
  let sh := apart sh number
  let ignored := ignoredBeside ++ sh.process.ignored
  match sh.world.openFile sh.process "/dev/null" .read with
  | .ok (opening, world) =>
    modify fun outer => { outer with world }
    return { sh with process := (Process.leading 0 opening { sh.process with ignored }), world }
  | .error _ => return { sh with process := { sh.process with ignored } }

/-- Starts a command beside the script. -/
def runBeside (line : Nat) (body : Script) (rs : List Redirection) : Run Nat := do
  modify fun sh => { sh with line }
  let rs ← rs.mapM (Redirection.fill E)
  let number ← newProcess
  let child ← besideShell (← get) number
  addJob [number] fun world =>
    (finish E ((runApart E {} body rs).run { child with world })).swap
  return 0

/-! ### Pipelines -/

/-- A part of a pipeline: what it runs, its process, and the openings that it reads from and writes to. -/
structure Piped where
  body : Script
  number : Nat
  input : Option Nat
  output : Option Nat
  /-- The programs that have been found when the part starts. -/
  found : List Found

/-- The name of the program that a command runs, if it is written plainly. -/
def plainName? : Script → Option String
  | .simple _ _ (w :: _) _ =>
    match Word.plain? w with
    | some cs => if isName cs then some (String.ofList cs) else none
    | none => none
  | _ => none

/-- A part of a pipeline with a process. -/
def startPart (body : Script) (input output : Option Nat) : Run Piped := do
  let number ← newProcess
  return { body, number, input, output, found := (← get).found }

/-- The parts of a pipeline with channels between them. `input` is what the first of them reads from. The program of a
part is looked for before the part starts, so that the parts behind it know where it is. -/
def piped : Option Nat → List Script → Run (List Piped)
  | _, [] => return []
  | input, body :: bodies => do
    if let some name := plainName? body then
      let _ ← lookup {} name
    if bodies.isEmpty then return [← startPart body input none]
    else
      let (writing, reading) ← modifyGet fun sh =>
        let (_, writing, reading, world) := sh.world.withChannel
        ((writing, reading), { sh with world })
      let part ← startPart body input (some writing)
      return part :: (← piped (some reading) bodies)

/-- The streams of a part of a pipeline. -/
def Piped.change (part : Piped) (p : Process) : Process :=
  let p := part.input.elim p fun o => Process.leading 0 o p
  part.output.elim p fun o => Process.leading 1 o p

/-- What comes of the parts of a pipeline in some world. -/
def runParts (mode : Mode) (sh : State) : List Piped → World → List Ending → World × List Ending
  | [], world, endings => (world, endings.reverse)
  | part :: parts, world, endings =>
    let step := E.run { isTested := mode.isTested, isLast := true } part.body
    let (world, ending) := childIn E { sh with process := part.change sh.process, found := part.found } part.number step world
    runParts mode sh parts world (ending :: endings)

/-- Runs a pipeline. -/
def runPiped (mode : Mode) (bodies : List Script) (inBackground : Bool) : Run Nat := do
  if inBackground then
    let parts ← piped none bodies
    let sh ← get
    let child ← besideShell sh sh.process.number
    addJob (parts.map Piped.number) fun world =>
      let (world, endings) := runParts E {} { child with world } parts world []
      (world, endings.getLastD (.exited 0))
    return 0
  else
    startQuickJobs
    let parts ← piped none bodies
    let sh ← get
    let (world, endings) := runParts E mode sh parts sh.world []
    modify fun sh => { sh with world }
    for part in parts do
      comeBack part.number (← get).world
    settle sh.world.clock
    endings.forM reportEnding
    return (endings.getLastD (.exited 0)).status

/-! ### Commands -/

/-- Runs a command whose streams are redirected. -/
def runRedirected (mode : Mode) (line : Nat) (body : Script) (rs : List Redirection) : Run Nat := do
  modify fun sh => { sh with line }
  let rs ← rs.mapM (Redirection.fill E)
  let (before, isWell) ← redirectAll E [] rs
  let status ← if isWell then E.run { isTested := mode.isTested } body else pure 2
  restoreStreams before
  return status

/-- Runs a command that follows another one, unless the rest is left out; `goesOn` says for which status it is
run. -/
def runSecond (mode : Mode) (goesOn : Nat → Bool) (status : Nat) (second : Script) : Run (Option Nat) := do
  if ! goesOn status || (← get).skip != .nothing then return none
  else return some (← E.run mode second)

/-- Runs a command. The result is its status, if it has one of its own, and whether the script may end because of
it. -/
def runKind (mode : Mode) (s : Script) : Run (Option Nat × Bool) := do
  let tested : Mode := { isTested := true }
  match s with
  | .nothing => return (none, false)
  | .simple line settings words rs => return (some (← runSimple E mode line settings words rs), true)
  | .subshell line body rs => return (some (← runSubshell E mode line body rs), true)
  | .background line body rs => return (some (← runBeside E line body rs), true)
  | .piped bodies inBackground => return (some (← runPiped E mode bodies inBackground), true)
  | .redirected line body rs => return (some (← runRedirected E mode line body rs), false)
  | .negated body =>
    let status ← E.run tested body
    if (← get).skip != .nothing then return (some status, false)
    else return (some (if status = 0 then 1 else 0), false)
  | .sequence first second =>
    let status ← E.run { isTested := mode.isTested } first
    return (← runSecond E mode (fun _ => true) status second, false)
  | .both first second =>
    let status ← E.run tested first
    return (← runSecond E mode (· == 0) status second, false)
  | .either first second =>
    let status ← E.run tested first
    return (← runSecond E mode (· != 0) status second, false)
  | .branch condition yes no =>
    let status ← E.run tested condition
    if (← get).skip != .nothing then return (none, false)
    else if status = 0 then return (some (← E.run mode yes), false)
    else if no.isNothing then return (some 0, false)
    else return (some (← E.run mode no), false)
  | .loop success condition body =>
    return (some (← asLoop (runLoop E mode success condition body E.turns 0)), false)
  | .each line name words body =>
    modify fun sh => { sh with line }
    let fields ← words.mapM (Word.fields E)
    return (some (← asLoop (runEach E mode name body fields.flatten 0)), false)
  | .choose line word cases =>
    modify fun sh => { sh with line }
    let text ← Word.text E { tilde := true } word
    let body ← chosenCase E text cases
    if body.isNothing then return (some 0, false) else return (some (← E.run mode body), false)
  | .define _ name body =>
    modify fun sh => { sh with definitions := (name, body) :: sh.definitions.filter (·.1 != name) }
    return (some 0, false)

/-- Runs a command and deals with the signals that arrive. The result is the status of the script. -/
def carryOut (mode : Mode) (s : Script) : Run Nat := do
  let endsScript ←
    if (← Run.isOn .nothing) || s.isNothing then pure false
    else
      answer E
      let (status, mayEnd) ← runKind E mode s
      status.forM fun status => modify fun sh => { sh with status }
      answer E
      let isStrict ← Run.isOn .failing
      pure (isStrict && ! mode.isTested && mayEnd && status.any (· != 0))
  if endsScript || mode.isLast then throw .done
  return (← get).status

end PacketFilter.Shell

/-! ## Calls of the shell

The arguments of the shell are options, the script or the file that holds it, and the arguments of the script. The
script may be an argument, a file, or the input of the shell. -/

namespace PacketFilter.Shell

/-- What the options of a shell say. -/
structure Call where
  /-- The script is an argument. -/
  isArgument : Bool := false
  switches : List Switch := []
  /-- The arguments behind the options. -/
  rest : List String := []
  /-- What is printed about the switches. -/
  printed : String := ""

namespace Call

/-- Turns a switch on or off. -/
def turn (c : Call) (on : Bool) (s : Switch) : Call :=
  let others := c.switches.filter (· != s)
  { c with switches := if on then s :: others else others }

/-- What the letters of one option say. The letter `o` takes a name from the other arguments. -/
def letters (on : Bool) : List Char → List String → Call → Except String (Call × List String)
  | [], rest, c => .ok (c, rest)
  | 'c' :: cs, rest, c => letters on cs rest { c with isArgument := true }
  | 'l' :: cs, rest, c => letters on cs rest c
  | 'o' :: cs, rest, c =>
    match rest with
    | [] =>
      let every := Switch.all.map Prod.fst
      let list := if on then Switch.listed every else Switch.commands every
      letters on cs [] { c with printed := c.printed ++ list }
    | name :: rest =>
      match Switch.ofName? name with
      | some s => letters on cs rest (c.turn on s)
      | none => .error ("Illegal option -o " ++ name)
  | letter :: cs, rest, c =>
    match Switch.ofLetter? letter with
    | some s => letters on cs rest (c.turn on s)
    | none => .error (Options.illegal letter)

/-- Reads the options at the front of arguments, of which there are so many at most. -/
def readIn : Nat → List String → Call → Except String Call
  | 0, rest, c => .ok { c with rest }
  | fuel + 1, args, c =>
    match args with
    | [] => .ok { c with rest := [] }
    | arg :: rest =>
      match arg.toList with
      | ['-'] | ['-', '-'] => .ok { c with rest }
      | '-' :: cs => do
        let (c, rest) ← letters true cs rest c
        readIn fuel rest c
      | '+' :: cs => do
        let (c, rest) ← letters false cs rest c
        readIn fuel rest c
      | _ => .ok { c with rest := args }

def ofArgs (args : List String) : Except String Call :=
  readIn (args.length + 1) args {}

end Call

variable (E : Engine)

/-- The parameters that a shell has at the start. Those that it is given are handed on. -/
def startingParameters (p : Process) (place : String) : List (String × Parameter) :=
  let given := (p.environment.filter fun e => isName e.1.toList && e.1 != "IFS" && e.1 != "PWD").map
    fun (name, value) => (name, { value := some value, isExported := true : Parameter })
  let own (name value : String) : List (String × Parameter) :=
    if (given.lookup name).isSome then [] else [(name, { value := some value })]
  given ++ own "PATH" World.usualPath ++ own "PS1" "# " ++ own "PS2" "> " ++ own "PS4" "+ " ++
    own "OPTIND" "1" ++ [("IFS", { value := some " \t\n" }), ("PPID", { value := some (toString p.parent) }),
      ("PWD", { value := some place, isExported := true })]

def starting (world : World) (p : Process) (name : String) : State :=
  let place := world.files.pathOf 4096 p.directory
  { world, process := p, name, place, root := p.number, parameters := startingParameters p place }

/-- Runs a script that is read from a source, and not an argument. -/
def runLines (text : String) : Run Unit := do
  let _ ← runText E {} text

/-- Runs the script in the input of the shell. -/
def runInput : Run Unit := do
  let sh ← get
  match sh.process.streams.lookup 0 with
  | none => return
  | some opening =>
    match sh.world.readAll opening with
    | .error _ => return
    | .ok (bytes, world) =>
      set { sh with world }
      runLines E (Text.Octets.ofBytes bytes)

def runScriptFile (path : String) (args : List String) : Run Unit := do
  if Builtin.isProgramFile (← get) path then Builtin.become E path (path :: args)
  else
    let text ← Builtin.scriptText path
    modify fun sh => { sh with name := path, args }
    runLines E text

def runCall (c : Call) : Run Unit := do
  modify fun sh => { sh with switches := c.switches, printed := [c.printed] }
  let _ ← Run.flush
  match c.isArgument, c.rest with
  | true, [] => Run.fail "-c requires an argument"
  | true, script :: rest =>
    let readsInput := c.switches.contains .standardInput
    modify fun sh => { sh with name := rest.headD sh.name, args := rest.drop 1 }
    let _ ← runText E { isLast := ! readsInput } script
    if readsInput && (← get).skip = .nothing then runInput E
  | false, rest =>
    if c.switches.contains .standardInput || rest.isEmpty then
      if rest.isEmpty then Run.turn .standardInput true
      modify fun sh => { sh with args := rest }
      runInput E
    else
      match rest with
      | [] => return
      | path :: args => runScriptFile E path args

/-- What comes of calling the shell in a process. The arguments begin with the name of the shell. -/
def called (world : World) (p : Process) (args : List String) : World × Ending :=
  let step : Run Unit :=
    match Call.ofArgs (args.drop 1) with
    | .ok c => runCall E c
    | .error what => Run.fail what
  (finish E (step.run (starting world p (args.headD "sh")))).swap

end PacketFilter.Shell
