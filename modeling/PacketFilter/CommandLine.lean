import PacketFilter.CommandLine.Display
import PacketFilter.CommandLine.Refusal
import PacketFilter.CommandLine.Request
import PacketFilter.Config
import PacketFilter.Json.Text
import PacketFilter.Manifest
import PacketFilter.RuleFile

/-! # The program

`answer` carries out a request on any backend and gives what the program prints and how it exits. Files are
looked up in the `Surroundings` of the program, so that the only thing that changes is the state of the
backend. The outcome of a run that has to be logged is part of what is given. Arguments that make no request give what
`Stop.output` says. -/

namespace PacketFilter

/-- What the program finds around it. -/
structure Surroundings where
  resolve : Resolver
  /-- What is at a path. -/
  document : String → Document
  config : Config
  /-- The command that saves the rules on this system. -/
  savingCommand : Option Invocation := none

/-- What the program prints, and how it exits. -/
structure Output where
  exitCode : Nat := 0
  text : String := ""
  errors : String := ""
  /-- The checksum of the declared rules and the outcome of the run, if they have to be logged. -/
  logged : Option (String × Except Failure Report) := none

/-- The output of a program that failed. -/
def Output.failed (e : Failure) : Output :=
  { exitCode := 1, errors := joinLines e.display }

def versionText : String :=
  Scope.program.label ++ " 0.4.0\n"

/-- The output of a program whose arguments make no request. -/
def Stop.output : Stop → Output
  | page scope => { text := joinLines scope.page }
  | version => { text := versionText }
  | noArguments => { exitCode := 2, errors := joinLines Scope.program.page }
  | refused r => { exitCode := 2, errors := joinLines r.lines }

namespace CommandLine

variable {σ : Type} [Backend σ]

/-- An action that depends on no state. -/
def lift {α : Type} : Except Failure α → Action σ α
  | .ok a => pure a
  | .error e => throw e

variable (env : Surroundings) (options : Options)

/-- How a listing writes networks: as the options say, or as the version of the backend does. -/
def addressMode : Action σ AddressMode :=
  match options.addressMode with
  | some mode => pure mode
  | none => do return AddressMode.ofVersion (← Backend.version)

/-- The file of rules before the declared ones. -/
def preFile : String := options.pre.getD env.config.preFile

/-- The file of rules after the declared ones. -/
def postFile : String := options.post.getD env.config.postFile

/-- A session with the rules of a manifest, and how many it declares. -/
def prepare (manifest : String) (dryRun : Bool) : Action σ (Session × Nat) := do
  let specs ← lift ((Manifest.load manifest (env.document manifest)).mapError .manifest)
  let mode ← addressMode options
  let pre ← lift (RuleFile.load .pre (env.document (preFile env options)))
  let post ← lift (RuleFile.load .post (env.document (postFile env options)))
  let persist := env.config.savingCommand? env.savingCommand
  let session : Session := { mode, settings := { dryRun, persist, pre, post } }
  return (session.declareAll env.resolve specs, specs.length)

/-- Shows the rules of a session, and those it rejected. -/
def checkOutput (session : Session) : Output where
  exitCode := if session.rejected.isEmpty then 0 else 1
  text := joinLines session.preview.display
  errors := joinLines (session.rejected.map fun r => "rejected " ++ r.display)

/-- What is logged about a run. -/
def logged (session : Session) (outcome : Except Failure Report) :
    Option (String × Except Failure Report) :=
  if env.config.audit then some (session.preview.checksum, outcome) else none

/-- Converges a session with so many declared rules. -/
def converge (session : Session) (specs : Nat) : Action σ Output := fun s =>
  match session.converge s with
  | .ok r s => .ok { text := joinLines (r.display specs), logged := logged env session (.ok r) } s
  | .error e s => .ok { Output.failed e with logged := logged env session (.error e) } s

/-- Carries out a request. -/
def run : Request → Action σ Output
  | .check manifest => do
    let (session, _) ← prepare env options manifest true
    return checkOutput session
  | .compare manifest => do
    let (session, _) ← prepare env options manifest true
    let live ← Session.listing false session.mode
    return { text := comparison session.preview live }
  | .apply manifest dryRun => do
    let (session, specs) ← prepare env options manifest dryRun
    converge env session specs
  | .show => do
    let mode ← addressMode options
    let live ← Session.listing true mode
    return { text := live.toJson.pretty ++ "\n" }
  | .version => return { text := versionText }

/-- Carries out a request; a failure is part of the output. -/
def answer (request : Request) (s : σ) : Output × σ :=
  match run env options request s with
  | .ok output s => (output, s)
  | .error e s => (.failed e, s)

end CommandLine

end PacketFilter
