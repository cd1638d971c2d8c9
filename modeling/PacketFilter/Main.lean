import Std.Time.DateTime.Timestamp
import PacketFilter.Audit.Log
import PacketFilter.CommandLine
import PacketFilter.Userland

/-! # The command line

Reads the files that a request needs, carries the request out on a machine whose live rules are kept in a file and whose
programs are stand-ins, and writes back what has changed: the rules, and the log of runs. The file with the live rules
is named by the variable `IPTSYNC_RULES`; without it, it stands beside the log. -/

namespace PacketFilter.Main

/-- What is at a path. What is there but cannot be read is taken for a directory. -/
def readDocument (path : String) : IO Document := do
  try
    return .ofBytes (← IO.FS.readBinFile path)
  catch
    | .noFileOrDirectory .. => return .missing
    | .inappropriateType _ 20 _ => return .absent .notDirectory
    | .invalidArgument _ 36 _ => return .absent .nameTooLong
    | _ => return .directory

/-- The directories of the user, which are made if they are not there. -/
def directories : IO (Option Directories) := do
  let user : UserSettings :=
    { home := ← IO.getEnv "HOME"
      configHome := ← IO.getEnv "XDG_CONFIG_HOME"
      stateHome := ← IO.getEnv "XDG_STATE_HOME" }
  let found := Directories.of user
  if let some d := found then
    try
      IO.FS.createDirAll d.config
      IO.FS.createDirAll d.state
    catch _ => pure ()
  return found

/-- The configuration at a path, or the default one. -/
def readConfig : Option String → IO Config
  | some path => return .load (← readDocument path)
  | none => return {}

/-- The manifest that a request is about. -/
def manifest? : Request → Option String
  | .check manifest | .compare manifest | .apply manifest _ => some manifest
  | .show | .version => none

/-- The surroundings of a request: the files that it may read, under their paths. -/
def surroundings (config : Config) (request : Request) (options : Options) : IO Surroundings := do
  let base : Surroundings := { resolve := Resolver.literal, document := fun _ => .missing, config }
  let paths := (manifest? request).toList ++
    [CommandLine.preFile base options, CommandLine.postFile base options]
  let documents ← paths.mapM fun path => do return (path, ← readDocument path)
  let system ← readDocument "/etc/os-release"
  return { base with
    document := fun path => (documents.lookup path).getD .missing
    savingCommand := system.content.toOption.bind SystemDescription.savingCommand? }

/-- The lines of a file; none if it cannot be read. -/
def readLines (path : String) : IO (List String) := do
  return (((← readDocument path).content).toOption.map Text.lines).getD []

/-- A random run id. -/
def randomRun : IO String := do
  let digits ← (List.range 32).mapM fun _ => do return (Nat.toDigits 16 (← IO.rand 0 15))
  let cs := digits.flatten
  let group (start length : Nat) := String.ofList ((cs.drop start).take length)
  return "-".intercalate [group 0 8, group 8 4, "4" ++ group 13 3, "a" ++ group 17 3, group 20 12]

/-- Writes the event of a run to the log, if it has one and the log can be written. -/
def writeLog (path : String) (checksum : String) (outcome : Except Failure Report) : IO Unit := do
  let now := (← Std.Time.Timestamp.now).val
  let time : Timestamp := ⟨now.second.val, now.nano.val.toNat⟩
  if let some event := Event.ofOutcome time (← randomRun) checksum outcome then
    try
      IO.FS.withFile path .append fun file => file.putStr (event.line ++ "\n")
    catch _ => pure ()

/-- Prints an output, and gives the exit code. -/
def print (output : Output) : IO UInt32 := do
  (← IO.getStdout).putStr output.text
  (← IO.getStderr).putStr output.errors
  return output.exitCode.toUInt32

/-- Carries out a request. -/
def perform (request : Request) (options : Options) : IO UInt32 := do
  let found ← directories
  let config ← readConfig (options.config.orElse fun _ => found.map Directories.configFile)
  let env ← surroundings config request options
  let state := (found.map Directories.state).getD ""
  let rules := (← IO.getEnv "IPTSYNC_RULES").getD (joinPath state "rules")
  let directory := config.directory.getD ""
  let outside := ({ files := World.installed Userland.files 0 directory } : World).withLines (← readLines rules)
  let (output, after) := CommandLine.answer env options request ({ directory, outside } : Machine World)
  if after.outside.lines != outside.lines then
    IO.FS.writeFile rules (joinLines after.outside.lines)
  if let some (checksum, outcome) := output.logged then
    writeLog (joinPath state "audit.log") checksum outcome
  print output

end PacketFilter.Main

/-- Carries out the request that the arguments make, or says why they make none. -/
def main (args : List String) : IO UInt32 :=
  match PacketFilter.Request.ofArgs args with
  | .ok (request, options) => PacketFilter.Main.perform request options
  | .error stop => PacketFilter.Main.print stop.output
