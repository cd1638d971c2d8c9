import PacketFilter.Userland.Shell.Builtin.Places
import PacketFilter.Userland.Shell.Builtin.Processes
import PacketFilter.Userland.Shell.Builtin.Settings
import PacketFilter.Userland.Shell.Condition
import PacketFilter.Userland.Shell.Engine

/-! # Commands that need no program

`Builtin.run` carries out such a command and writes what it prints. -/

/-! ## How a script goes on

`break`, `continue`, `return`, `exit`, `trap`, `eval`, `.` and `exec`. -/

namespace PacketFilter.Shell.Builtin

variable (E : Engine)

def runBreak (isContinue : Bool) (args : List String) : Run Nat := do
  let n ← args.head?.elim (pure 1) Run.number
  if n = 0 then Run.fail ("Illegal number: " ++ args.headD "")
  let n := min n (← get).loops
  if 0 < n then modify fun sh => { sh with skip := if isContinue then .turn n else .loops n }
  return 0

def runReturn (args : List String) : Run Nat := do
  match args with
  | [] =>
    modify fun sh => { sh with skip := .definitionOnly }
    return (← get).status
  | text :: _ =>
    let n ← Run.number text
    modify fun sh => { sh with skip := .definition }
    return n

def runExit (args : List String) : Run Nat := do
  match args with
  | [] => pure ()
  | text :: _ =>
    let n ← Run.number text
    modify fun sh => { sh with savedStatus := some n }
  throw .exit

/-! ### Traps -/

/-- Sets what is carried out when a signal arrives, or that nothing is. The result is whether the signal is known. -/
def setTrap (action : Option String) (text : String) : Run Bool := do
  match Signal.number? 0 text with
  | none =>
    Run.writeError ("trap: " ++ text ++ ": bad trap\n")
    return false
  | some signal =>
    modify fun sh =>
      let others := sh.traps.filter (·.1 != signal)
      { sh with traps := (action.toList.map (signal, ·)) ++ others }
    return true

/-- Sets traps, up to the first signal that is not known. -/
def setTraps (action : Option String) : List String → Run Nat
  | [] => return 0
  | text :: texts => do
    if ← setTrap action text then setTraps action texts else return 1

def runTrap (args : List String) : Run Nat := do
  let (_, args) ← options "" args
  match args with
  | [] =>
    let traps := (← get).traps.mergeSort fun a b => a.1 ≤ b.1
    for (signal, action) in traps do
      Run.print ("trap -- " ++ quoted action ++ " " ++ Signal.name signal ++ "\n")
    return 0
  | [text] => setTraps none [text]
  | action :: texts => setTraps (if action = "-" then none else some action) texts

/-! ### Scripts -/

def runEval (mode : Mode) (args : List String) : Run Nat :=
  if args.isEmpty then return 0
  else runText E { isTested := mode.isTested } (" ".intercalate args)

/-- The path of a file with commands: one without slashes is looked for in several directories. -/
def scriptPath (name : String) : Run String := do
  if name.toList.contains '/' then return name
  else
    let sh ← get
    let path? := (← searchPath {}).findSome? fun directory =>
      let path := World.programIn directory name
      match sh.world.files.find sh.process.directory path with
      | .ok n => if (sh.world.files.node n).isRegular then some path else none
      | .error _ => none
    match path? with
    | some path => return path
    | none => Run.fail (name ++ ": not found")

/-- The text of a file with commands. -/
def scriptText (path : String) : Run String := do
  let sh ← get
  match sh.world.openFile sh.process path .read with
  | .error e =>
    let why :=
      match e with
      | .missing | .notDirectory => "No such file"
      | e => e.text
    Run.fail ("cannot open " ++ path ++ ": " ++ why)
  | .ok (opening, world) =>
    match world.readAll opening with
    | .error _ => return ""
    | .ok (bytes, world) =>
      set { sh with world }
      return Text.Octets.ofBytes bytes

/-! ### Programs -/

def environment (sh : State) : List (String × String) :=
  (sortedParameters sh.parameters).filterMap fun (name, p) =>
    if p.isExported then p.value.map (name, ·) else none

/-- The process that a program is run in. -/
def programProcess (sh : State) (number parent : Nat) : Process :=
  let ignored := (sh.traps.filter fun t => t.1 != 0 && t.2.isEmpty).map Prod.fst
  { sh.process with
    number, parent, environment := environment sh, ignored := ignored ++ sh.process.ignored }

/-- Goes on as a program. Nothing of the script is left. -/
def become (path : String) (args : List String) : Run α := do
  let sh ← get
  match E.launch sh.world (programProcess sh sh.process.number sh.process.parent) path args with
  | .ok (world, ending) =>
    set { sh with world, traps := [] }
    match ending with
    | .killed signal => throw (.killed signal)
    | .exited status =>
      modify fun sh => { sh with status }
      throw .done
  | .error why =>
    modify fun sh => { sh with status := programStatus why }
    Run.warn (args.headD "" ++ ": " ++ programReason why)
    throw .done

/-- Whether a file is a program that is no script, and so is run instead of being read. -/
def isProgramFile (sh : State) (path : String) : Bool :=
  match sh.world.files.find sh.process.directory path with
  | .ok n =>
    match sh.world.files.node n with
    | .program _ => true
    | _ => false
  | .error _ => false

def runFile (args : List String) : Run Nat := do
  let (_, args) ← options "" args
  match args with
  | [] => return 0
  | name :: _ =>
    let path ← scriptPath name
    if isProgramFile (← get) path then become E path (path :: (← get).args)
    let text ← scriptText path
    modify fun sh => { sh with context := some path }
    let status ← runText E {} text
    modify fun sh =>
      { sh with
        skip :=
          match sh.skip with
          | .definition | .definitionOnly => .nothing
          | skip => skip }
    return status

/-- The command `exec`, which has no options. -/
def runExec (args : List String) : Run Nat := do
  match args with
  | [] => return 0
  | name :: _ =>
    let found ← if name.toList.contains '/' then pure (Meaning.program name) else findProgram {} name
    match found with
    | .program path => become E path args
    | .nothing why =>
      modify fun sh => { sh with status := programStatus why }
      Run.warn (name ++ ": " ++ programReason why)
      throw .done
    | _ => return 0

end PacketFilter.Shell.Builtin

/-! ## All commands -/

namespace PacketFilter.Shell.Builtin

variable (E : Engine)

def act (mode : Mode) (name : String) (args : List String) : Run Nat :=
  match name with
  | "." => runFile E args
  | ":" | "true" => return 0
  | "false" => return 1
  | "[" | "test" => Condition.run name args
  | "alias" => runAlias args
  | "bg" | "fg" => runResume args
  | "break" => runBreak false args
  | "continue" => runBreak true args
  | "cd" | "chdir" => runCd args
  | "command" => runCommand args
  | "echo" => runEcho args
  | "eval" => runEval E mode args
  | "exec" => runExec E args
  | "exit" => runExit args
  | "export" => runMark true args
  | "getopts" => runGetopts args
  | "hash" => runHash args
  | "jobs" => runJobs args
  | "kill" => runKill args
  | "local" => runLocal args
  | "printf" => runPrintf args
  | "pwd" => runPwd args
  | "read" => runRead args
  | "readonly" => runMark false args
  | "return" => runReturn args
  | "set" => runSet args
  | "shift" => runShift args
  | "times" => runTimes args
  | "trap" => runTrap args
  | "type" => runType args
  | "ulimit" => runUlimit args
  | "umask" => runUmask args
  | "unalias" => runUnalias args
  | "unset" => runUnset args
  | _ => runWait args

/-- Takes a step as the command with a name: messages name it, and what it prints is written when it ends. The result
is its status, or how it stopped. -/
def within (name : Option String) (step : Run Nat) : Run (Except Stop Nat) := do
  let before := (← get).context
  modify fun sh => { sh with context := name }
  let result : Except Stop Nat ←
    tryCatch (do return .ok (← step)) fun stop => return .error stop
  let written ← Run.flush
  let status ←
    match result, written with
    | .ok status, .ok () => pure status
    | .ok status, .error _ =>
      Run.warn (name.getD "" ++ ": I/O error")
      pure (status ||| 1)
    | .error _, _ => pure (← get).status
  modify fun sh => { sh with context := before, status }
  return result.map fun _ => status

end PacketFilter.Shell.Builtin
