import PacketFilter.Command
import PacketFilter.Text.Lowercase

/-! # Running programs with privileges

The programs that read and change live rules need privileges. `elevate` puts the program that grants them
in front: none for the superuser, the one that is asked for, or the first that is there. -/

namespace PacketFilter

/-- A program that runs another one with privileges. -/
inductive Elevator where
  | bySudo | byRun0 | byPkexec
deriving DecidableEq

namespace Elevator

def all : List Elevator := [.bySudo, .byRun0, .byPkexec]

/-- The program of an elevator. -/
def name : Elevator → String
  | bySudo => "sudo"
  | byRun0 => "run0"
  | byPkexec => "pkexec"

def ofName? (s : String) : Option Elevator :=
  all.find? (·.name == s)

end Elevator

/-- Why a program cannot be run with privileges. -/
inductive ElevationError where
  /-- The elevator of last resort is not installed. -/
  | noElevator
  /-- The elevator that is asked for is not installed. -/
  | notInstalled (method : String)
  /-- What is asked for is no elevator. -/
  | unknownMethod (method : String)
  | io (reason : String)
deriving DecidableEq

/-- What is said about a program that cannot be run with privileges. -/
def ElevationError.message : ElevationError → String
  | noElevator => "pkexec not found - please install PolicyKit or run iptsync as root"
  | notInstalled method => "Elevation method '" ++ method ++ "' is not available (binary not found)"
  | unknownMethod method =>
    "Invalid IPTSYNC_ELEVATION_METHOD '" ++ method ++ "'. Valid options: sudo, run0, pkexec"
  | io reason => "I/O error: " ++ reason

/-- What decides how a program gets its privileges. -/
structure Privileges where
  /-- The superuser asks. -/
  superuser : Bool
  /-- Nothing is to be put in front of a program, whoever asks. -/
  bypass : Bool := false
  /-- The elevator that is asked for, by name. -/
  method : Option String := none
  /-- The programs that can be found. -/
  installed : List String := []
  /-- Someone can answer a question at a terminal. -/
  terminal : Bool := false

/-- A program with an elevator in front. -/
def Elevator.wrap (e : Elevator) (c : Invocation) : Invocation :=
  ⟨e.name, c.toList⟩

namespace Privileges

variable (p : Privileges)

/-- Whether the program of an elevator can be found. -/
def has (e : Elevator) : Bool :=
  p.installed.contains e.name

/-- The elevator with the given name, if there is one and it is installed. -/
def chosen (method : String) : Except ElevationError Elevator :=
  match Elevator.ofName? method with
  | none => .error (.unknownMethod method)
  | some e => if p.has e then .ok e else .error (.notInstalled method)

/-- The elevator to use when none is asked for. -/
def found : Except ElevationError Elevator :=
  if p.has .byRun0 then .ok .byRun0
  else if p.terminal then .ok .bySudo
  else if p.has .byPkexec then .ok .byPkexec
  else .error .noElevator

/-- The elevator to put in front of a program, or none. An empty name asks for no elevator. -/
def elevator? : Except ElevationError (Option Elevator) :=
  if p.bypass || p.superuser then .ok none
  else
    match p.method.map Text.lower with
    | none => p.found.map some
    | some method => if method.isEmpty then p.found.map some else (p.chosen method).map some

/-- The program to run in place of `c` so that it has privileges. -/
def elevate (c : Invocation) : Except ElevationError Invocation := do
  match ← p.elevator? with
  | none => return c
  | some e => return e.wrap c

end Privileges

end PacketFilter
