import PacketFilter.Text.Decimal
import PacketFilter.Userland.Shell.Script
import PacketFilter.Userland.World

/-! # What scripts have at hand

A `State` is what a script has at hand while it runs: the world around it, its parameters, definitions and switches, and
what it has asked for. A `Run` is a step of a script. It may end the script, and `Stop` says how. -/

/-! ## Options of commands

Commands take options: letters behind a dash, some of them with an argument. `Options.read` reads them from the front of
the arguments of a command. Scripts have switches, which have letters and names; `Switch.all` lists them. -/

namespace PacketFilter.Shell

namespace Options

/-- What is said about a letter that is no option. -/
def illegal (c : Char) : String :=
  "Illegal option -" ++ c.toString

/-- Reads the letters of one argument. `known` has the letters, and whether they have an argument. -/
def letters (known : List (Char × Bool)) (rest : List String) :
    List Char → Except String (List (Char × String) × List String)
  | [] => .ok ([], rest)
  | c :: cs =>
    match known.lookup c with
    | none => .error (illegal c)
    | some false => do
      let (options, rest) ← letters known rest cs
      return ((c, "") :: options, rest)
    | some true =>
      match cs, rest with
      | [], [] => .error ("No arg for -" ++ c.toString ++ " option")
      | [], arg :: rest => .ok ([(c, arg)], rest)
      | cs, rest => .ok ([(c, String.ofList cs)], rest)

/-- Reads options in so many arguments at most. The result has the options and the arguments behind them. -/
def readIn (known : List (Char × Bool)) : Nat → List String → Except String (List (Char × String) × List String)
  | 0, args => .ok ([], args)
  | fuel + 1, args =>
    match args with
    | [] => .ok ([], [])
    | arg :: rest =>
      match arg.toList with
      | ['-', '-'] => .ok ([], rest)
      | '-' :: c :: cs => do
        let (options, rest) ← letters known rest (c :: cs)
        let (more, rest) ← readIn known fuel rest
        return (options ++ more, rest)
      | _ => .ok ([], args)

/-- Reads the options at the front of arguments. A colon behind a letter says that it has an argument. -/
def read (known : String) (args : List String) : Except String (List (Char × String) × List String) :=
  let rec pairs : List Char → List (Char × Bool)
    | c :: ':' :: cs => (c, true) :: pairs cs
    | c :: cs => (c, false) :: pairs cs
    | [] => []
  readIn (pairs known.toList) (args.length + 1) args

end Options

/-- Something that a script can turn on or off. -/
inductive Switch where
  /-- The script ends at a command that fails. -/
  | failing
  /-- Patterns do not stand for paths. -/
  | noPaths
  | ignoredEnd
  | interactive
  | jobs
  /-- Nothing is carried out. -/
  | nothing
  | standardInput
  /-- Commands are shown before they are carried out. -/
  | traced
  | verbose
  | viKeys
  | emacsKeys
  /-- Files are not replaced. -/
  | keepsFiles
  /-- Every parameter that is set is handed on. -/
  | exporting
  | notices
  /-- The script ends at a parameter without a value. -/
  | needsValues
  | privileged
  | noLog
  | debug
deriving DecidableEq

namespace Switch

/-- The switches, in the order of their list, with their names and letters. -/
def all : List (Switch × String × Option Char) :=
  [(failing, "errexit", some 'e'), (noPaths, "noglob", some 'f'), (ignoredEnd, "ignoreeof", some 'I'),
    (interactive, "interactive", some 'i'), (jobs, "monitor", some 'm'), (nothing, "noexec", some 'n'),
    (standardInput, "stdin", some 's'), (traced, "xtrace", some 'x'), (verbose, "verbose", some 'v'),
    (viKeys, "vi", some 'V'), (emacsKeys, "emacs", some 'E'), (keepsFiles, "noclobber", some 'C'),
    (exporting, "allexport", some 'a'), (notices, "notify", some 'b'), (needsValues, "nounset", some 'u'),
    (privileged, "privileged", some 'p'), (noLog, "nolog", none), (debug, "debug", none)]

def ofLetter? (c : Char) : Option Switch :=
  (all.find? fun s => s.2.2 == some c).map Prod.fst

def ofName? (name : String) : Option Switch :=
  (all.find? fun s => s.2.1 == name).map Prod.fst

/-- The letters of the switches that are on, the last one first. -/
def letters (on : List Switch) : String :=
  String.ofList ((all.reverse.filter fun s => on.contains s.1).filterMap fun s => s.2.2)

/-- A name with spaces behind it, as it stands in the list of switches. -/
def padded (name : String) : String :=
  name ++ String.ofList (List.replicate (16 - name.length) ' ')

def listed (on : List Switch) : String :=
  "Current option settings\n" ++
    String.join (all.map fun s => padded s.2.1 ++ (if on.contains s.1 then "on\n" else "off\n"))

/-- The commands that turn all switches to where they are. -/
def commands (on : List Switch) : String :=
  String.join (all.map fun s => "set " ++ (if on.contains s.1 then "-o " else "+o ") ++ s.2.1 ++ "\n")

end Switch

end PacketFilter.Shell

/-! ## Signals

Signals have numbers up to 64 and most of them names. `Signal.number?` reads either, and `Signal.stopped?` says what is
said about a program that a signal stopped. -/

namespace PacketFilter.Shell.Signal

/-- The names of the first signals, the first of which has the number one. One of them has only its number. -/
def names : List String :=
  ["HUP", "INT", "QUIT", "ILL", "TRAP", "ABRT", "BUS", "FPE", "KILL", "USR1", "SEGV", "USR2", "PIPE", "ALRM",
    "TERM", "16", "CHLD", "CONT", "STOP", "TSTP", "TTIN", "TTOU", "URG", "XCPU", "XFSZ", "VTALRM", "PROF",
    "WINCH", "IO", "PWR", "SYS", "32", "33", "RTMIN"]

def maxNumber : Nat := 64

/-- The name of the end of a script, which can be waited for in the way of a signal. -/
def exitName : String := "EXIT"

def name (n : Nat) : String :=
  if n = 0 then exitName
  else if n = maxNumber then "RTMAX"
  else if 50 ≤ n then "RTMAX-" ++ toString (maxNumber - n)
  else (names[n - 1]?).getD ("RTMIN+" ++ toString (n - 34))

/-- The number of a signal that is given by its number or its name; capitals do not count. Names of numbers
below `least` are not known. -/
def number? (least : Nat) (text : String) : Option Nat :=
  let cs := text.toList
  if Text.Decimal.isNumeral cs then
    let n := Text.Decimal.value cs
    if n ≤ maxNumber then some n else none
  else (List.range (maxNumber + 1)).find? fun n => least ≤ n && name n == text.map Char.toUpper

/-- The signal that stops a script unless another one is named. -/
def usual : Nat := 15

/-- The signal that nothing can be done about. -/
def kill : Nat := 9

/-- Signals that stop nobody who does not ask for them. -/
def isHarmless (n : Nat) : Bool :=
  [0, 17, 18, 23, 28].contains n

/-- The names of all signals, one to a line. -/
def all : String :=
  "0\n" ++ String.join ((List.range maxNumber).map fun n => name (n + 1) ++ "\n")

/-- The name of the signal with a number, or of the one that a status is about. -/
def listed? (n : Nat) : Option String :=
  let n := if 128 < n then n - 128 else n
  if 0 < n ∧ n ≤ maxNumber then some (name n) else none

/-- What is said about a program that a signal stopped. -/
def stopped? (n : Nat) : Option String :=
  match ["Hangup", "", "Quit", "Illegal instruction", "Trace/breakpoint trap", "Aborted", "Bus error",
    "Floating point exception", "Killed", "User defined signal 1", "Segmentation fault",
    "User defined signal 2", "", "Alarm clock", "Terminated", "Stack fault", "", "", "", "", "", "", "",
    "CPU time limit exceeded", "File size limit exceeded", "Virtual timer expired", "Profiling timer expired", "",
    "I/O possible", "Power failure", "Bad system call"][n - 1]? with
  | some "" => none
  | some what => some what
  | none => some (if n < 34 then "Unknown signal " ++ toString n else "Real-time signal " ++ toString (n - 34))

end PacketFilter.Shell.Signal

/-! ## States and steps -/

namespace PacketFilter.Shell

/-- How a script stops in the middle. -/
inductive Stop where
  /-- Something is wrong with a command that no others can follow. -/
  | error
  /-- The script asked for it. -/
  | exit
  /-- Nothing is left to do. -/
  | done
  /-- A signal stopped it. -/
  | killed (signal : Nat)
deriving DecidableEq

/-- What is left out after a command. -/
inductive Skip where
  | nothing
  /-- The rest of so many loops. -/
  | loops (n : Nat)
  /-- The rest of a turn of a loop, after leaving the loops inside of it. -/
  | turn (n : Nat)
  /-- The rest of a definition or a file. -/
  | definition
  /-- The same, when no status was asked for. -/
  | definitionOnly
deriving DecidableEq

/-- A parameter. -/
structure Parameter where
  value : Option String
  isExported : Bool := false
  isFixed : Bool := false

/-- Processes that run beside a script. They are started as soon as the script waits for something, starts another
process or ends, and then run to their end at once, at the times at which they would have run. If they take time, it is
not enough that the script starts another process. -/
structure Job where
  number : Nat
  /-- The processes; the last one has the status. -/
  processes : List Nat
  startsAt : Nat
  /-- What the processes do, if they have not been started. -/
  start : Option (World → World × Ending)
  /-- What the processes do takes time. -/
  takesTime : Bool := false
  ending : Option Ending := none
  /-- When the job ends. -/
  endsAt : Nat := 0
  /-- The script has learnt how the job ended. -/
  isKnown : Bool := false
  /-- The script has waited for the job. -/
  isWaitedFor : Bool := false

/-- What is kept when a definition is carried out: a parameter as it was, or the switches. -/
inductive Kept where
  | parameter (name : String) (before : Option Parameter)
  | switches (on : List Switch)

/-- A program that has been found. -/
structure Found where
  name : String
  path : String
  /-- The path leads elsewhere now, because it starts from the present directory. -/
  isOld : Bool := false

/-- What a script has at hand. -/
structure State where
  world : World
  process : Process
  /-- The name that messages begin with. -/
  name : String
  /-- The command that is carried out, as messages name it. -/
  context : Option String := none
  /-- The line of the present command. -/
  line : Nat := 0
  /-- The line up to which the script has been read. -/
  lineRead : Nat := 1
  args : List String := []
  /-- The path of the present directory. -/
  place : String := "/"
  /-- The next argument that is looked at for options, and the place in it. -/
  optionIndex : Nat := 1
  optionPlace : Option Nat := none
  parameters : List (String × Parameter) := []
  definitions : List (String × Script) := []
  aliases : List (String × String) := []
  /-- The programs that have been found. -/
  found : List Found := []
  /-- What is given back at the end of the commands that are carried out, from the inside out. -/
  kept : List (List Kept) := []
  switches : List Switch := []
  /-- The status of the last command. -/
  status : Nat := 0
  /-- The status that counts at the end, if another one than the last. -/
  savedStatus : Option Nat := none
  /-- The status of the last script whose output was filled in. -/
  innerStatus : Nat := 0
  /-- The process of the script itself; a part that runs on its own has another one. -/
  root : Nat
  /-- The last process that was started to run beside the script. -/
  lastBeside : Option Nat := none
  /-- The commands are those of a part of a script that runs on its own. -/
  isApart : Bool := false
  /-- How many definitions are carried out. -/
  depth : Nat := 0
  /-- How many loops the command stands in. -/
  loops : Nat := 0
  skip : Skip := .nothing
  /-- What is carried out when signals arrive; 0 is the end of the script. -/
  traps : List (Nat × String) := []
  /-- The signals that have arrived and are to be dealt with. -/
  arrived : List Nat := []
  jobs : List Job := []
  /-- What commands that are shown begin with is being filled in. -/
  isShowing : Bool := false
  /-- Texts of scripts that streams are redirected to. -/
  insets : Array Inset := #[]
  /-- What a command has printed that has not been written. -/
  printed : List String := []

abbrev Run := EStateM Stop State

namespace Run

/-! ### Streams -/

/-- Writes octets to a stream, unless that is not possible. -/
def write? (stream : Nat) (octets : String) : Run (Except FileError Unit) :=
  modifyGet fun sh =>
    match sh.process.streams.lookup stream with
    | none => (.error .badStream, sh)
    | some o =>
      match sh.world.write o (Text.Octets.bytes octets) with
      | .ok world => (.ok (), { sh with world })
      | .error e => (.error e, sh)

def writeError (octets : String) : Run Unit := do
  let _ ← write? 2 octets

/-- Prints octets; they are written when the command ends. -/
def print (octets : String) : Run Unit :=
  modify fun sh => { sh with printed := octets :: sh.printed }

def flush : Run (Except FileError Unit) := do
  let octets := String.join (← get).printed.reverse
  modify fun sh => { sh with printed := [] }
  if octets.isEmpty then return .ok () else write? 1 octets

/-! ### Messages -/

def warn (what : String) : Run Unit := do
  let sh ← get
  let context := sh.context.elim "" (· ++ ": ")
  writeError (sh.name ++ ": " ++ toString sh.line ++ ": " ++ context ++ what ++ "\n")

/-- Ends the command, and perhaps the script, because something is wrong. -/
def fail (what : String) : Run α := do
  modify fun sh => { sh with status := 2 }
  warn what
  throw .error

/-- The result of a step that may go wrong. -/
def orFail (result : Except String α) : Run α :=
  match result with
  | .ok a => return a
  | .error what => fail what

/-! ### Switches -/

def isOn (s : Switch) : Run Bool := do
  return (← get).switches.contains s

/-- Turns a switch on or off. -/
def turn (s : Switch) (on : Bool) : Run Unit :=
  modify fun sh =>
    let others := sh.switches.filter (· != s)
    { sh with switches := if on then s :: others else others }

/-! ### Numbers -/

def maxNumber : Int := 2147483647

/-- The number that a text writes, perhaps with a sign and spacing around it. -/
def number? (text : String) : Option Nat :=
  ((Number.whole? text).filter fun n => 0 ≤ n && n ≤ maxNumber).map Int.toNat

/-- The number that a text has to write. -/
def number (text : String) : Run Nat :=
  match number? text with
  | some n => return n
  | none => fail ("Illegal number: " ++ text)

/-! ### Parameters -/

def parameter? (name : String) : Run (Option Parameter) := do
  return (← get).parameters.lookup name

/-- The value of a parameter with a name. -/
def value? (name : String) : Run (Option String) := do
  return (← parameter? name).bind Parameter.value

/-- Puts a parameter in the place of the one with its name. -/
def put (name : String) (p : Option Parameter) : Run Unit :=
  modify fun sh =>
    let others := sh.parameters.filter (·.1 != name)
    { sh with parameters := p.toList.map (name, ·) ++ others }

/-- What follows from a new value of a parameter. -/
def noticed (name : String) (value : Option String) : Run Unit := do
  if name = "PATH" then modify fun sh => { sh with found := [] }
  else if name = "OPTIND" then
    let n ← number (value.getD "1")
    modify fun sh => { sh with optionIndex := max 1 n, optionPlace := none }

/-- Changes a parameter, unless it has to stay as it is. One that has no value and is not to be kept otherwise is
dropped. -/
def change (name : String) (value : Option String) (exports fixes : Bool) : Run Unit := do
  let exports := exports || (← isOn .exporting)
  let before ← parameter? name
  if before.any Parameter.isFixed then fail (name ++ ": is read only")
  noticed name value
  if value.isNone && ! exports && ! fixes then put name none
  else
    put name (some
      { value
        isExported := exports || before.any Parameter.isExported
        isFixed := fixes || before.any Parameter.isFixed })

/-- The name at the start of a text, as a message shows it. -/
def shownName (cs : List Char) : String :=
  String.ofList (cs.takeWhile (· != '='))

/-- Changes a parameter whose name may be no name. -/
def changeChecked (name : String) (value : Option String) (exports fixes : Bool) : Run Unit := do
  if isName name.toList then change name value exports fixes
  else fail (shownName name.toList ++ ": bad variable name")

def assign (name value : String) : Run Unit :=
  changeChecked name (some value) false false

/-- The name and the value that a text sets. -/
def setting (text : String) : String × Option String :=
  let cs := text.toList
  let name := cs.takeWhile (· != '=')
  (String.ofList name, if name.length < cs.length then some (String.ofList (cs.drop (name.length + 1))) else none)

/-! ### What is kept -/

/-- Keeps something as it is, to give it back later. -/
def keep (k : Kept) : Run Unit :=
  modify fun sh =>
    match sh.kept with
    | [] => sh
    | frame :: frames => { sh with kept := (k :: frame) :: frames }

/-- Keeps a parameter and perhaps sets it, or keeps the switches. That a name with a value is no name is found out when
the parameter is given back. -/
def keepSetting (text : String) (exports : Bool) : Run Unit := do
  if text = "-" then keep (.switches (← get).switches)
  else
    let (name, value) := setting text
    let isNamed := isName name.toList
    if ! isNamed && value.isNone then fail (shownName text.toList ++ ": bad variable name")
    let before ← parameter? name
    keep (.parameter name before)
    match before, value with
    | none, value =>
      if ! isNamed then pure ()
      else if (← isOn .exporting) || exports || value.isSome then change name value exports false
      else put name (some { value := none })
    | some _, some value => change name (some value) exports false
    | some _, none => pure ()

def giveBack : Kept → Run Unit
  | .switches on => modify fun sh => { sh with switches := on }
  | .parameter name before => do
    if ! isName name.toList then fail (shownName name.toList ++ ": bad variable name")
    noticed name (before.bind Parameter.value)
    put name before

/-- Gives back what is kept beyond so many commands. -/
def giveBackTo (count : Nat) : Run Unit := do
  let kept := (← get).kept
  let (inner, outer) := (kept.take (kept.length - count), kept.drop (kept.length - count))
  modify fun sh => { sh with kept := outer }
  inner.forM fun frame => frame.forM giveBack

end Run

end PacketFilter.Shell
