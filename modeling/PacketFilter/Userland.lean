import PacketFilter.Backend.Machine
import PacketFilter.Userland.Shell.Evaluation
import PacketFilter.Userland.Tool.Plain

/-! # The programs of a system

A stand-in for the programs of a system, so that a `Machine` can be run where there are none. What is proved of machines
holds for all `Programs`, and no proof elsewhere depends on these.

`Userland.start` runs the program with a path in a process. A file that can be run is a program that is known by its
name, or a script whose first line may say what reads it. Scripts run programs, and programs run scripts: `engine` is
what runs both, up to a depth. `Userland.files` are the files of a system on which nothing has been done. -/

/-! ## Programs and scripts -/

namespace PacketFilter.Userland

open PacketFilter.Shell (Engine)

/-! ### Programs -/

/-- The programs that need no other programs. -/
def tools : List (String × (List String → Tool Nat)) :=
  [("basename", Tool.basename), ("cat", Tool.cat), ("chmod", Tool.chmod), ("cp", Tool.cp), ("cut", Tool.cut),
    ("dirname", Tool.dirname), ("echo", Tool.echo), ("expr", Tool.expr), ("false", fun _ => return 1),
    ("head", Tool.head), ("id", Tool.identity), ("ln", Tool.ln), ("ls", Tool.ls), ("mkdir", Tool.mkdir),
    ("mv", Tool.mv), ("printenv", Tool.printenv), ("pwd", Tool.pwd), ("rev", Tool.rev), ("rm", Tool.rm),
    ("rmdir", Tool.rmdir), ("seq", Tool.seq), ("sleep", Tool.sleep), ("sort", Tool.sort), ("tac", Tool.tac),
    ("tail", Tool.tail), ("tee", Tool.tee), ("touch", Tool.touch), ("tr", Tool.tr), ("true", fun _ => return 0),
    ("uniq", Tool.uniq), ("wc", Tool.wc), ("whoami", Tool.whoami)]

/-- The programs that do what commands of scripts with their names do. -/
def commandNames : List String :=
  ["[", "kill", "printf", "test"]

/-- The names of the shell. -/
def shellNames : List String :=
  ["dash", "sh"]

def reply (r : Reply) : Tool Nat := do
  let _ ← Tool.write? 1 r.output
  Tool.complain r.errors
  return r.status

/-- The program that changes the live rules. -/
def changeRules (args : List String) : Tool Nat := do
  let t ← get
  let (r, rules) := t.world.rules.callChanger args
  set { t with world := { t.world with rules } }
  reply r

/-- The program that lists the live rules. -/
def listRules (_ : List String) : Tool Nat := do
  reply { output := (← get).world.rules.listing }

/-- The program `env`: settings, and then a program for which they hold. -/
def runWith (launch : Launcher) (args : List String) : Tool Nat := do
  let isEmpty := args.head? == some "-i" || args.head? == some "-"
  let args := if isEmpty then args.drop 1 else args
  let settings := args.takeWhile fun arg => arg.toList.contains '='
  let t ← get
  let before := if isEmpty then [] else t.process.environment
  let environment := settings.foldl (fun found text =>
    let (name, value) := Shell.Run.setting text
    found.filter (·.1 != name) ++ [(name, value.getD "")]) before
  match args.drop settings.length with
  | [] =>
    Tool.put "env" (Tool.unlines (environment.map fun (name, value) => name ++ "=" ++ value))
    return 0
  | name :: rest =>
    let p := { t.process with environment }
    let directories := World.searchPath ((environment.lookup "PATH").getD World.usualPath)
    let path :=
      if name.toList.contains '/' then .ok name
      else (t.world.programIn? p name .missing directories).map Prod.fst
    match path.bind fun path => launch t.world p path (name :: rest) with
    | .ok (world, .exited status) =>
      set { t with world }
      return status
    | .ok (world, ending) =>
      set { t with world }
      throw ending
    | .error why =>
      Tool.complain ("env: " ++ Tool.inQuotes name ++ ": " ++ why.text ++ "\n")
      return if why = .missing then 127 else 126

/-- A program that is called by a path and needs the shell, which has to be found by its name. -/
def withShell (path : String) (tool : Tool Nat) : Tool Nat := do
  let t ← get
  let directories := World.searchPath ((t.process.environment.lookup "PATH").getD World.usualPath)
  match t.world.programIn? t.process "sh" .missing directories with
  | .ok _ => tool
  | .error why => Tool.fail (Shell.programStatus why) (path ++ ": 2: exec: sh: " ++ Shell.programReason why)

/-- What the program with a name does in a process, if there is one. It is called by a path, and the arguments begin
with the name under which it was called. -/
def program? (E : Engine) (name : String) :
    Option (World → Process → String → List String → World × Ending) :=
  let ofTool (tool : String → List String → Tool Nat) (w : World) (p : Process) (path : String)
      (args : List String) : World × Ending :=
    Tool.outcome w p (tool path (args.drop 1))
  if shellNames.contains name then some fun w p _ args => Shell.called E w p args
  else if commandNames.contains name then
    some fun w p _ args =>
      let step := Shell.runBuiltin E {} (some name) false (args.drop 1)
      (Shell.finish E (step.run (Shell.starting w p name))).swap
  else if name = Programs.changerName then some (ofTool fun path args => withShell path (changeRules args))
  else if name = Programs.listerName then some (ofTool fun path args => withShell path (listRules args))
  else if name = "env" then some (ofTool fun _ args => runWith E.launch args)
  else (tools.lookup name).map fun tool => ofTool fun _ args => tool args

/-! ### Files that are run -/

/-- The path of what reads a script, and perhaps an argument for it: the first line says that behind a mark. -/
def reader? (content : ByteArray) : Option (String × List String) :=
  match Text.Octets.ofBytes (content.extract 0 255) |>.toList with
  | '#' :: '!' :: cs =>
    let line := Text.trimWhile (fun c => c == ' ' || c == '\t') (cs.takeWhile (· != '\n'))
    let path := line.takeWhile fun c => c != ' ' && c != '\t'
    let argument := (line.drop path.length).dropWhile fun c => c == ' ' || c == '\t'
    some (String.ofList path, if argument.isEmpty then [] else [String.ofList argument])
  | _ => none

/-- How often a script may be read by what is a script itself. -/
def maxReaders : Nat := 5

/-- Runs the program with a path in a process. -/
def startIn (E : Engine) : Nat → Launcher
  | 0, _, _, _, _ => .error .tooManyLinks
  | fuel + 1, w, p, path, args => do
    let n ← w.programAt p path
    match w.files.node n with
    | .program name =>
      match program? E name with
      | some run => return run w p path args
      | none => throw .notExecutable
    | .file content _ =>
      match reader? content with
      | some ("", _) | none => throw .notExecutable
      | some (reader, between) => startIn E fuel w p reader (reader :: between ++ path :: args.drop 1)
    | _ => throw .denied

/-- Runs the program with a path in a process. -/
def startWith (E : Engine) : Launcher :=
  startIn E maxReaders

/-- The path of the shell. -/
def shellPath : String := "/bin/sh"

/-- Runs the program with a path in a process. A file that says nothing about what reads it is read by the shell. -/
def startOrRead (E : Engine) : Launcher := fun w p path args =>
  match startWith E w p path args with
  | .error .notExecutable => startWith E w p shellPath (shellPath :: path :: args.drop 1)
  | result => result

/-! ### The engine -/

/-- How many turns a loop has at most. -/
def maxTurns : Nat := 1000000

/-- What runs scripts and programs, in scripts and programs up to a depth. -/
def engine : Nat → Engine
  | 0 => { run := fun _ _ => throw (.killed 11), launch := fun _ _ _ _ => .error .busy, turns := 0 }
  | depth + 1 =>
    let E := engine depth
    { run := Shell.carryOut E, launch := startOrRead E, turns := maxTurns }

/-- How deep commands are carried out inside of each other at most. -/
def maxDepth : Nat := 20000

/-- Runs the program with a path in a process. -/
def start : Launcher := fun w p path args =>
  startWith (engine maxDepth) w p path args

/-! ### Files -/

/-- The names of all programs that every system has. -/
def programNames : List String :=
  shellNames ++ commandNames ++ ["env"] ++ tools.map Prod.fst

/-- The files of a system on which nothing has been done. -/
def files : Files :=
  let directories := ["usr/bin", "usr/sbin", "usr/lib", "usr/local/bin", "usr/local/sbin", "boot", "dev/fd", "etc",
    "home", "media", "mnt", "opt", "proc", "root", "run", "srv", "sys", "var"]
  let f := directories.foldl (fun f path => (f.withDirectories 0 (pathNames path)).2) Files.empty
  let (_, f) := f.add 0 "tmp" (.directory [] 0 0o1777)
  let f := programNames.foldl (fun f name => f.put 0 ("usr/bin/" ++ name) (.program name)) f
  let links := [("bin", "usr/bin"), ("lib", "usr/lib"), ("sbin", "usr/sbin")]
  let f := links.foldl (fun f (name, target) => f.put 0 name (.link target)) f
  let devices : List (String × Device) :=
    [("null", .null), ("zero", .zero), ("full", .full), ("tty", .terminal), ("stdin", .stream 0),
      ("stdout", .stream 1), ("stderr", .stream 2)]
  let f := devices.foldl (fun f (name, d) => f.put 0 ("dev/" ++ name) (.device d)) f
  (List.range 10).foldl (fun f n => f.put 0 ("dev/fd/" ++ toString n) (.device (.stream n))) f

end PacketFilter.Userland

/-! ## Calls

`World.locate` finds the program that is meant by a name or a path, and `World.execute` runs a program in a world: what
it writes is kept, and its input is empty. The two programs for the live rules are called by what they do, without a
process, when there is nothing else in their place. -/

namespace PacketFilter.World

/-- The path and the node of a program. A name without slashes is looked for in the usual directories. -/
def locate (w : World) (p : Process) (program : String) : Except FileError (String × Nat) :=
  if program.toList.contains '/' then (w.programAt p program).map fun n => (program, n)
  else if program.isEmpty then .error .missing
  else w.programIn? p program .missing (searchPath usualPath)

/-- How many milliseconds it takes at least to start a program. -/
def startingTime : Nat := 10

/-- The world with a process in it that is in the home directory. -/
def withProcess (w : World) : Process × World :=
  let number := w.nextProcess
  ({ number, directory := w.home, environment := [("PATH", usualPath)] },
    { w with nextProcess := number + 1, alive := number :: w.alive, clock := w.clock + startingTime })

/-- The world without what processes had that are all gone. -/
def settled (w : World) : World :=
  { w with channels := #[], openings := #[], alive := [], signals := [] }

/-- Runs a program. -/
def execute (c : Invocation) (w : World) : Execution × World :=
  let (p, world) := w.withProcess
  let (_, _, input, world) := world.withChannel
  let (outputs, output, _, world) := world.withChannel
  let (errors, error, _, world) := world.withChannel
  let p := { p with streams := [(0, input), (1, output), (2, error)] }
  let octets := c.toList.map Text.Octets.ofText
  let ended : Except FileError (World × Ending) := do
    let (path, _) ← world.locate p (octets.headD "")
    Userland.start world p path octets
  match ended with
  | .error why => (.notStarted why.message, w)
  | .ok (world, ending) =>
    let text (channel : Nat) : String := Text.Utf8.decode (world.contentOf channel)
    let exitCode :=
      match ending with
      | .exited status => some (status : Int)
      | .killed _ => none
    (.ended exitCode (text outputs) (text errors), world.settled)

/-- Why the program with a name cannot be called by a path: it is not there, or something else is in its place. -/
def obstacle? (w : World) (name path : String) : Option FileError :=
  match w.locate w.withProcess.1 (Text.Octets.ofText path) with
  | .error why => some why
  | .ok (_, n) =>
    match w.files.node n with
    | .program found => if found = name then none else some .notExecutable
    | _ => some .notExecutable

/-- What comes of a program that replies. -/
def execution (r : Reply) : Execution :=
  .ended (some r.status) (Text.Octets.toText r.output) (Text.Octets.toText r.errors)

/-- Calls the program that changes the rules. -/
def callChanger (c : Invocation) (w : World) : Execution × World :=
  match w.obstacle? Programs.changerName c.program with
  | some why => (.notStarted why.message, w)
  | none =>
    let (r, rules) := w.rules.callChanger (c.args.map Text.Octets.ofText)
    (execution r, { w with rules })

/-- Calls the program that lists the rules. -/
def callLister (c : Invocation) (w : World) : Execution :=
  match w.obstacle? Programs.listerName c.program with
  | some why => .notStarted why.message
  | none => execution { output := w.rules.listing }

theorem length_lines_of_callChanger {w w' : World} {program table option output errors : String}
    {args : List String}
    (h : w.callChanger ⟨program, "-t" :: table :: ("-D" ++ option) :: args⟩ =
      (.ended (some 0) output errors, w')) :
    w'.rules.lines.length + 1 = w.rules.lines.length := by
  have htable : Text.Octets.ofText "-t" = "-t" := by decide
  have hoption : Text.Octets.ofText ("-D" ++ option) ≠ "-A" := fun happend => by
    have hletters := congrArg String.toList (Text.Octets.ofText_eq_appendOption happend)
    simp at hletters
  simp only [callChanger] at h
  split at h
  · simp at h
  · simp only [execution, List.map_cons, htable, Prod.mk.injEq, Execution.ended.injEq, Option.some.injEq] at h
    obtain ⟨⟨hstatus, -, -⟩, rfl⟩ := h
    exact LiveRules.length_lines_callChanger (by simpa using hoption) (by simpa using hstatus)

instance : Programs World where
  change := callChanger
  list := callLister
  call := execute
  size w := w.rules.lines.length
  size_delete h := by have := length_lines_of_callChanger h; omega

/-! ### Worlds to begin with -/

/-- Files with the two programs in a directory, which is taken from another one. Without a name for it, the programs are
among those that are found by their names. -/
def installed (files : Files) (home : Nat) (directory : String) : Files :=
  let directory := if directory.isEmpty then "/usr/sbin" else directory
  [Programs.changerName, Programs.listerName].foldl (fun files name =>
    let path := joinPath (Text.Octets.ofText directory) name
    files.put (if isAbsolute path then 0 else home) path (.program name)) files

def lines (w : World) : List String :=
  w.rules.lines.map Text.Octets.toText

/-- The same world with other live rules. -/
def withLines (w : World) (lines : List String) : World :=
  { w with rules := { w.rules with lines := LiveRules.splitLines (lines.map Text.Octets.ofText) } }

/-- The same world with calls refused whose arguments hold a text. -/
def refusing (w : World) (text : String) : World :=
  { w with rules := w.rules.refusing (Text.Octets.ofText text) }

end PacketFilter.World
