import PacketFilter.Userland.Files
import PacketFilter.Userland.Shell.Builtin.Settings
import PacketFilter.Userland.Shell.Engine

/-! # Commands about processes

`jobs`, `wait`, `kill`, `fg` and `bg`, and `times`, `umask` and `ulimit`. -/

namespace PacketFilter.Shell.Builtin

/-! ### Jobs -/

def job (name : Option String) : Run Job := do
  let jobs := (← get).jobs
  let orFail (j : Option Job) (why : String) : Run Job :=
    match j with
    | some j => return j
    | none => Run.fail why
  let text := name.getD ""
  let unknown := "No such job: " ++ text
  match text.toList with
  | [] | ['%'] | ['%', '+'] | ['%', '%'] => orFail jobs.head? "No current job"
  | ['%', '-'] => orFail (jobs.drop 1).head? "No previous job"
  | '%' :: cs =>
    let n := if ! cs.isEmpty && cs.all Char.isDigit then Text.Decimal.value cs else 0
    orFail (jobs.find? fun j => n != 0 && j.number == n) unknown
  | _ => Run.fail unknown

/-- Shows how a job is. One that has ended is forgotten then. -/
def showJob (j : Job) (withProcess onlyProcess : Bool) : Run Unit := do
  if onlyProcess then Run.print (toString (j.processes.headD 0) ++ "\n")
  else
    let jobs := (← get).jobs
    let mark :=
      if jobs.head?.any (·.number == j.number) then '+'
      else if (jobs.drop 1).head?.any (·.number == j.number) then '-'
      else ' '
    Run.print (j.line mark withProcess)
    if j.isKnown then modify fun sh => { sh with jobs := sh.jobs.filter (·.number != j.number) }

def runJobs (args : List String) : Run Nat := do
  let (os, names) ← options "lp" args
  learn
  let last := os.getLast?.map Prod.fst
  let js ← if names.isEmpty then pure (← get).jobs else names.mapM fun name => job (some name)
  js.forM fun j => showJob j (last == some 'l') (last == some 'p')
  return 0

/-- Waits for a job. The result is its status. -/
def waitFor (j : Job) : Run Nat := do
  startJobs
  match (← get).jobs.find? (·.number == j.number) with
  | none => return 127
  | some j =>
    waitUntil j.endsAt
    if ! j.isKnown then j.ending.forM reportEnding
    putJob { j with isWaitedFor := true }
    learn
    return j.ending.elim 0 Ending.status

/-- The job with the process that a text gives, or the one that it names. -/
def waitedJob? (text : String) : Run (Option Job) := do
  if text.toList.head? = some '%' then return some (← job (some text))
  else
    let n ← Run.number text
    return (← get).jobs.find? fun j => j.processes.getLast? == some n

def runWait (args : List String) : Run Nat := do
  let (_, names) ← options "" args
  if names.isEmpty then
    startJobs
    let jobs := (← get).jobs
    waitUntil (jobs.foldl (fun clock j => max clock j.endsAt) 0)
    learn
    modify fun sh => { sh with jobs := sh.jobs.map fun j => { j with isWaitedFor := true } }
    return 0
  else
    names.foldlM (fun _ text => do
      match ← waitedJob? text with
      | none => return 127
      | some j => waitFor j) 127

/-- The commands `fg` and `bg`, which work only where a user sits. -/
def runResume (args : List String) : Run Nat := do
  let (_, names) ← options "" args
  let _ ← job names.head?
  Run.fail ("job " ++ names.head?.getD "(null)" ++ " not created under job control")

/-! ### Signals -/

/-- How the command `kill` is called. -/
def killUsage : String :=
  "Usage: kill [-s sigspec | -signum | -sigspec] [pid | job]... or\nkill -l [exitstatus]"

/-- The command `kill` when signals are to be listed. -/
def listSignals (args : List String) : Run Nat := do
  match args with
  | [] =>
    Run.print Signal.all
    return 0
  | text :: _ =>
    let n ← Run.number text
    match Signal.listed? n with
    | some name =>
      Run.print (name ++ "\n")
      return 0
    | none => Run.fail ("invalid signal number or exit status: " ++ text)

/-- The process that a text gives. The processes of jobs are no groups, so that there is none for the name of a
job. -/
def killed (text : String) : Run (Option Int) := do
  match text.toList with
  | '%' :: _ =>
    let _ ← job (some text)
    return none
  | '-' :: cs =>
    let _ ← Run.number (String.ofList cs)
    return none
  | _ => return some (Int.ofNat (← Run.number text))

/-- Sends a signal to the processes that texts give. The result is one if one of them is not there. -/
def sendTo (signal : Nat) (texts : List String) : Run Nat := do
  let results ← texts.mapM fun text => do
    let isThere ← (← killed text).elim (pure false) fun n => sendSignal n signal
    if ! isThere then Run.warn "No such process\n"
    return isThere
  return if results.all id then 0 else 1

/-- The signal and the arguments behind the options of the command `kill`; the first result says that signals are to
be listed. -/
def killOptions (args : List String) : Run (Bool × Option Nat × List String) := do
  let short? : Option Nat :=
    match (args.headD "").toList with
    | '-' :: cs => Signal.number? 1 (String.ofList cs)
    | _ => none
  if ! (args.headD "").startsWith "-" then return (false, none, args)
  else
    match short? with
    | some n => return (false, some n, args.drop 1)
    | none =>
      let (os, rest) ← options "ls:" args
      let signals ← os.filterMapM fun (c, text) => do
        if c = 'l' then return none
        else
          match Signal.number? 1 text with
          | some n => return some n
          | none => Run.fail ("invalid signal number or name: " ++ text)
      return (os.any (·.1 == 'l'), signals.getLast?, rest)

def runKill (args : List String) : Run Nat := do
  if args.isEmpty then Run.fail killUsage
  let (isList, signal, rest) ← killOptions args
  match isList, signal, rest with
  | true, none, rest => listSignals rest
  | false, signal, text :: texts => sendTo (signal.getD Signal.usual) (text :: texts)
  | _, _, _ => Run.fail killUsage

/-! ### Other commands -/

def runTimes (_ : List String) : Run Nat := do
  Run.print "0m0.000000s 0m0.000000s\n0m0.000000s 0m0.000000s\n"
  return 0

/-- The permissions that a mask leaves, as letters. -/
def maskLetters (mask : Nat) : String :=
  let left := 0o777 &&& (0o777 ^^^ mask)
  "u=" ++ Permissions.letters (left / 64 % 8) ++ ",g=" ++ Permissions.letters (left / 8 % 8) ++ ",o=" ++ Permissions.letters (left % 8)

/-- A number in octal digits, four of them at least. -/
def octal (n : Nat) : String :=
  let digits := Nat.toDigits 8 n
  String.ofList (List.replicate (4 - digits.length) '0' ++ digits)

def runUmask (args : List String) : Run Nat := do
  let (os, rest) ← options "S" args
  let mask := (← get).process.mask
  let setMask (mask : Nat) : Run Nat := do
    modify fun sh => { sh with process := { sh.process with mask } }
    return 0
  match rest with
  | [] =>
    Run.print ((if os.isEmpty then octal mask else maskLetters mask) ++ "\n")
    return 0
  | text :: _ =>
    let cs := text.toList
    if cs.head?.any Char.isDigit then
      if cs.all (Number.Numeral.isDigit 8) then setMask (Number.Numeral.inBase 8 cs % 512)
      else Run.fail ("Illegal number: " ++ text)
    else
      match Permissions.changed (cs.length + 1) cs (0o777 &&& (0o777 ^^^ mask)) with
      | some mode => setMask (0o777 &&& (0o777 ^^^ mode))
      | none => Run.fail ("Illegal mode: " ++ text)

/-- What is limited, with the letter that stands for it and the limit. -/
def limits : List (Char × String × String) :=
  [('t', "time(seconds)", "unlimited"), ('f', "file(blocks)", "unlimited"), ('d', "data(kbytes)", "unlimited"),
    ('s', "stack(kbytes)", "8192"), ('c', "coredump(blocks)", "0"), ('m', "memory(kbytes)", "unlimited"),
    ('l', "locked memory(kbytes)", "8192"), ('p', "process", "unlimited"), ('n', "nofiles", "1048576"),
    ('v', "vmemory(kbytes)", "unlimited"), ('w', "locks", "unlimited"), ('r', "rtprio", "0")]

/-- The command `ulimit`. Limits can be set, but nothing is ever limited. -/
def runUlimit (args : List String) : Run Nat := do
  let (os, rest) ← options "HSatfdsmcnpvlwr" args
  if os.any (·.1 == 'a') then
    for (_, name, limit) in limits do
      Run.print (name ++ String.ofList (List.replicate (20 - name.length) ' ') ++ " " ++ limit ++ "\n")
    return 0
  else
    let letters := (os.map Prod.fst).filter fun c => c != 'H' && c != 'S'
    let letter := letters.getLast?.getD 'f'
    match rest with
    | [] =>
      Run.print ((((limits.find? (·.1 == letter)).map fun l => l.2.2).getD "unlimited") ++ "\n")
      return 0
    | _ :: _ :: _ => Run.fail "too many arguments"
    | [text] =>
      if text = "unlimited" ∨ (! text.isEmpty ∧ text.toList.all Char.isDigit) then return 0
      else Run.fail "bad number"

end PacketFilter.Shell.Builtin
