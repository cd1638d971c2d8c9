import PacketFilter.Userland.Shell.Grammar
import PacketFilter.Userland.Shell.State
import PacketFilter.Userland.World

/-! # Scripts inside of scripts

Running a script means running others: the ones that it is made of, those that are given as texts, and those that run on
their own. An `Engine` is what runs the parts. Here are the steps that need nothing else: texts are read line by line
and run (`runText`), signals that have arrived are dealt with (`answer`), a part of a script runs as a process of its
own (`inChild`), and a script comes to its end (`finish`). -/

namespace PacketFilter.Shell

/-- What is to be known about the place of a command. -/
structure Mode where
  /-- It matters elsewhere whether the command fails. -/
  isTested : Bool := false
  /-- Nothing follows in this process. -/
  isLast : Bool := false

/-- What runs the parts of scripts. -/
structure Engine where
  /-- Runs a command. The result is its status. -/
  run : Mode → Script → Run Nat
  /-- Runs programs. -/
  launch : Launcher
  /-- How many turns a loop has at most. -/
  turns : Nat

variable (E : Engine)

/-! ### Texts -/

/-- Runs what is left of a source, of which there are so many lines at most. The result is the status of the last
command. -/
def runSource (mode : Mode) : Nat → Source → Nat → Run Nat
  | 0, _, status => return status
  | fuel + 1, source, status => do
    let sh ← get
    match Reading.line.run (Reading.ofSource source sh.aliases sh.insets) with
    | .error e reading =>
      set { sh with insets := reading.insets, line := e.line }
      Run.fail ("Syntax error: " ++ e.reason)
    | .ok none reading =>
      set { sh with insets := reading.insets }
      return status
    | .ok (some script) reading =>
      set { sh with insets := reading.insets, lineRead := reading.source.line }
      let result ← E.run { mode with isLast := mode.isLast && reading.isLast } script
      let status := if script.isNothing then status else result
      if (← get).skip != .nothing then return status else runSource mode fuel reading.source status

/-- Runs a text. The result is the status of its last command. -/
def runText (mode : Mode) (text : String) : Run Nat := do
  let lineRead := (← get).lineRead
  let status ← runSource E mode (text.length + 2) (Source.ofText text) 0
  modify fun sh => { sh with lineRead }
  return status

/-! ### Signals -/

/-- Takes a signal: it may stop the script, and it may have to be dealt with. -/
def receive (signal : Nat) : Run Unit := do
  let sh ← get
  if signal = Signal.kill then throw (.killed signal)
  else
    match sh.traps.lookup signal with
    | some action =>
      if ! action.isEmpty then
        set { sh with arrived := signal :: sh.arrived.filter (· != signal) }
    | none =>
      if ! sh.process.ignored.contains signal && ! Signal.isHarmless signal then throw (.killed signal)

/-- Takes the signals that have been sent to the script. -/
def receiveAll : Run Unit := do
  let sh ← get
  let (own, others) := sh.world.signals.partition fun s => s.1 == sh.process.number
  set { sh with world := { sh.world with signals := others } }
  own.forM fun s => receive s.2

/-- Deals with the signals that have arrived, the least of so many first. -/
def answerAll (status : Nat) : Nat → Run Unit
  | 0 => return
  | fuel + 1 => do
    let sh ← get
    match sh.arrived.min? with
    | none => return
    | some signal =>
      if sh.skip != .nothing then return
      else
        set { sh with arrived := sh.arrived.filter (· != signal) }
        match sh.traps.lookup signal with
        | none => answerAll status fuel
        | some action =>
          let _ ← runText E {} action
          modify fun sh =>
            { sh with
              status :=
                match sh.skip with
                | .definition => sh.status
                | _ => status }
          answerAll status fuel

/-- Deals with the signals that have arrived. -/
def answer : Run Unit := do
  let sh ← get
  if ! sh.arrived.isEmpty then
    let before := sh.savedStatus
    let status := before.getD sh.status
    set { sh with savedStatus := some status }
    answerAll E status (Signal.maxNumber + 1)
    modify fun sh => { sh with savedStatus := before }

/-! ### The end -/

/-- What a script is left with when it has stopped. -/
def reset (stop : Option Stop) (sh : State) : State :=
  let status :=
    match sh.savedStatus with
    | some status => if stop = some .exit ∨ sh.skip = .definitionOnly then status else sh.status
    | none => sh.status
  { sh with status, savedStatus := none, skip := .nothing, loops := 0, isShowing := false, context := none }

/-- Carries out what is set for the end of a script. The result is the status of the script. -/
def leave (sh : State) : Ending × State :=
  let sh := { sh with savedStatus := some sh.status }
  match sh.traps.lookup 0 with
  | none => (.ofStatus sh.status, sh)
  | some action =>
    let inside := { sh with traps := sh.traps.filter (·.1 != 0), skip := .nothing }
    match (runText E {} action).run inside with
    | .ok _ after =>
      let after := reset none { after with skip := .definitionOnly }
      (.ofStatus after.status, after)
    | .error (.killed signal) after => (.killed signal, after)
    | .error stop after =>
      let after := reset (some stop) after
      (.ofStatus after.status, after)

/-- The world when all jobs have run that have not been started, the oldest first. -/
def letJobsRun (sh : State) : World :=
  sh.jobs.foldr (fun j world =>
    match j.start with
    | none => world
    | some start => { (start { world with clock := j.startsAt }).1 with clock := world.clock }) sh.world

/-- How a script ends that has come so far. What runs beside it goes on. -/
def finish (result : EStateM.Result Stop State α) : Ending × World :=
  let (ending, sh) : Ending × State :=
    match result with
    | .ok _ sh => leave E (reset none sh)
    | .error (.killed signal) sh => (.killed signal, sh)
    | .error stop sh => leave E (reset (some stop) sh)
  (ending, letJobsRun sh)

/-! ### Jobs -/

/-- Replaces a job. -/
def putJob (j : Job) : Run Unit :=
  modify fun sh => { sh with jobs := sh.jobs.map fun k => if k.number == j.number then j else k }

/-- Lets a job run that has not been started. -/
def startJob (j : Job) : Run Unit := do
  match j.start with
  | none => return
  | some start =>
    let sh ← get
    let clock := sh.world.clock
    let (world, ending) := start { sh.world with clock := j.startsAt }
    set { sh with world := { world with clock } }
    putJob { j with start := none, ending := some ending, endsAt := max j.startsAt world.clock }
    receiveAll

/-- Lets all jobs run that have not been started, the oldest first. -/
def startJobs : Run Unit := do
  (← get).jobs.reverse.forM startJob

/-- Lets the jobs run that have not been started and take no time, the oldest first. -/
def startQuickJobs : Run Unit := do
  for j in (← get).jobs.reverse do
    if let some start := j.start then
      if ! j.takesTime then
        let world := (start { (← get).world with clock := j.startsAt }).1
        if world.clock = j.startsAt then startJob j else putJob { j with takesTime := true }

/-! ### Processes -/

def newProcess : Run Nat :=
  modifyGet fun sh =>
    let n := sh.world.nextProcess
    (n, { sh with world := { sh.world with nextProcess := n + 1, alive := n :: sh.world.alive } })

/-- The shell of a part of a script that runs on its own as a process: it does not deal with signals, apart from those
that do nothing. -/
def apart (sh : State) (number : Nat) : State :=
  let ignored := (sh.traps.filter fun t => t.1 != 0 && t.2.isEmpty).map Prod.fst
  { sh with
    process :=
      { sh.process with number, parent := sh.process.number, ignored := ignored ++ sh.process.ignored }
    isApart := true
    lineRead := 1
    traps := sh.traps.filter fun t => t.2.isEmpty
    arrived := []
    jobs := []
    printed := [] }

/-- Takes over the world that a process leaves behind, which is gone then. -/
def comeBack (number : Nat) (world : World) : Run Unit := do
  modify fun sh => { sh with world := { world with alive := world.alive.filter (· != number) } }
  if ((← get).traps.lookup 17).isSome then receive 17
  receiveAll

/-- What comes of a step that a process of its own takes in some world. -/
def childIn (sh : State) (number : Nat) (step : Run α) (world : World) : World × Ending :=
  (finish E (step.run { apart sh number with world })).swap

/-- Takes a step in a process of its own, whose streams are changed before. The result says how that ends. -/
def inChild (change : Process → Process) (step : Run α) : Run Ending := do
  startQuickJobs
  let number ← newProcess
  let sh ← get
  let (world, ending) := childIn E { sh with process := change sh.process } number step sh.world
  comeBack number world
  return ending

/-- Says that a signal stopped a process, unless that needs no words. -/
def reportEnding : Ending → Run Unit
  | .exited _ => return
  | .killed signal =>
    match Signal.stopped? signal with
    | some what => Run.writeError (what ++ "\n")
    | none => return

end PacketFilter.Shell

/-! ## Jobs

A job is what a script starts to run beside it. `startJobs` lets jobs run that have not been started, `learn` tells the
script which of them have ended by now, and `sendSignal` sends signals to processes, which may be those of jobs. -/

namespace PacketFilter.Shell

namespace Job

/-- Whether a job has ended at a time. -/
def hasEnded (j : Job) (clock : Nat) : Bool :=
  j.ending.isSome && j.endsAt ≤ clock

/-- What is said about how a job is. -/
def state (j : Job) : String :=
  match if j.isKnown then j.ending else none with
  | none => "Running"
  | some (.exited 0) => "Done"
  | some (.exited n) => "Done(" ++ toString n ++ ")"
  | some (.killed signal) => (Signal.stopped? signal).getD ""

/-- The line about a job, behind its number and mark. -/
def line (j : Job) (mark : Char) (withProcess : Bool) : String :=
  let start := "[" ++ toString j.number ++ "] " ++ mark.toString ++ " "
  let process := if withProcess then toString (j.processes.headD 0) ++ " " else ""
  let text := start ++ process ++ j.state
  let padding := String.ofList (List.replicate (max 1 (33 - text.length)) ' ')
  let others := j.processes.drop 1
  text ++ padding ++
    (if withProcess then
      String.join (others.map fun n => "\n" ++ String.ofList (List.replicate start.length ' ') ++ toString n ++
        String.ofList (List.replicate (max 1 (33 - start.length - (toString n).length - 1)) ' '))
    else String.join (others.map fun _ => " | ")) ++ "\n"

end Job

/-- Learns which jobs have ended by now. -/
def learn : Run Unit :=
  modify fun sh =>
    let ended := sh.jobs.filter fun j => j.hasEnded sh.world.clock && ! j.isKnown
    let gone := ended.flatMap Job.processes
    { sh with
      jobs := sh.jobs.map fun j => { j with isKnown := j.isKnown || j.hasEnded sh.world.clock }
      world := { sh.world with alive := sh.world.alive.filter fun n => ! gone.contains n } }

/-- Goes on to a time that is not before the present one. -/
def waitUntil (clock : Nat) : Run Unit :=
  modify fun sh => { sh with world := { sh.world with clock := max clock sh.world.clock } }

/-- What a script learns about its jobs when it has waited since the given time for something else. -/
def settle (since : Nat) : Run Unit := do
  if since < (← get).world.clock then startJobs
  learn

/-- The least number that no job has. -/
def freeNumber (jobs : List Job) : Nat :=
  ((List.range (jobs.length + 1)).find? fun n => jobs.all (·.number != n + 1)).elim 1 (· + 1)

/-- Starts a job that runs beside the script. The processes have numbers already. -/
def addJob (processes : List Nat) (start : World → World × Ending) : Run Unit :=
  modify fun sh =>
    let jobs := sh.jobs.filter fun j => ! (j.isKnown && j.isWaitedFor)
    let job : Job :=
      { number := freeNumber jobs, processes, startsAt := sh.world.clock, start := some start }
    { sh with jobs := job :: jobs, lastBeside := processes.getLast? }

/-! ### Signals -/

/-- The signals that processes beside a script do not care for. -/
def ignoredBeside : List Nat := [2, 3]

/-- Sends a signal to a job: it ends there, if it has not ended before. -/
def signalJob (j : Job) (signal : Nat) : Run Unit := do
  let clock := (← get).world.clock
  if signal = Signal.kill ∨ (! Signal.isHarmless signal ∧ ! ignoredBeside.contains signal) then
    if ! j.hasEnded clock then
      putJob { j with start := none, ending := some (.killed signal), endsAt := clock }

/-- Sends a signal to a process. The result says whether there is such a process. -/
def sendSignal (process : Int) (signal : Nat) : Run Bool := do
  let sh ← get
  let isOwn := process == Int.ofNat sh.process.number || process == 0
  if isOwn then
    if signal != 0 then receive signal
    return true
  else
    match sh.jobs.find? fun j => ! j.isKnown && j.processes.any fun (n : Nat) => process == Int.ofNat n with
    | some j =>
      signalJob j signal
      return true
    | none =>
      match sh.world.alive.find? fun (n : Nat) => process == Int.ofNat n with
      | none => return false
      | some n =>
        if signal != 0 then
          modify fun sh => { sh with world := { sh.world with signals := sh.world.signals ++ [(n, signal)] } }
        return true

end PacketFilter.Shell
