import PacketFilter.Userland.Files
import PacketFilter.Userland.LiveRules

/-! # What programs have in common

A `World` is everything that a program leaves behind for the next one: the files, what stands in the channels between
programs, the live rules, the time and the signals that are on their way. A `Process` is what a program has for itself:
its number, its directory and its streams. A stream is the number of an `Opening`, which may be shared with other
processes, so that all of them go on where one of them stopped. A `Tool` is what a program does in a process: it reads
and writes streams, changes files, and ends with a status. -/

namespace PacketFilter

/-- What an open stream leads to. -/
inductive Target where
  | node (n : Nat)
  | channel (n : Nat)
deriving DecidableEq

/-- A file or channel that is open, and where reading or writing goes on. -/
structure Opening where
  target : Target
  position : Nat := 0
  canRead : Bool := false
  canWrite : Bool := false
  /-- Everything is written to the end. -/
  appends : Bool := false

/-- What has been written by one program to be read by another. -/
structure Channel where
  content : ByteArray := .empty
  /-- How much of it has been read. -/
  start : Nat := 0

/-- What all programs see. -/
structure World where
  files : Files
  /-- The directory in which programs are started. -/
  home : Nat := 0
  channels : Array Channel := #[]
  openings : Array Opening := #[]
  rules : LiveRules := {}
  /-- How many milliseconds have gone by. -/
  clock : Nat := 0
  /-- When nodes were changed, apart from those that are as they were at the start. -/
  changes : List (Nat × Nat) := []
  /-- The number of the next process. -/
  nextProcess : Nat := 1000
  /-- The processes that there are. -/
  alive : List Nat := []
  /-- The signals that were sent to processes which have not dealt with them. -/
  signals : List (Nat × Nat) := []

/-- What a program has for itself. -/
structure Process where
  number : Nat
  /-- The process that started this one. -/
  parent : Nat := 1
  /-- The streams that are open: 0 is the input, 1 the output and 2 the errors. -/
  streams : List (Nat × Nat) := []
  directory : Nat := 0
  /-- The permissions that new files do not get. -/
  mask : Nat := 0o022
  /-- The parameters that are handed on to programs. -/
  environment : List (String × String) := []
  /-- The signals that do nothing. -/
  ignored : List Nat := []

/-- How a program ends. -/
inductive Ending where
  | exited (status : Nat)
  /-- A signal stopped the program. -/
  | killed (signal : Nat)
deriving DecidableEq

namespace Ending

/-- A program that ends by itself. Of its status only the lowest byte is seen. -/
def ofStatus (status : Nat) : Ending :=
  exited (status % 256)

/-- The status that a script sees. -/
def status : Ending → Nat
  | exited status => status
  | killed signal => 128 + signal

end Ending

/-- How a file is opened. -/
structure Access where
  reads : Bool := false
  writes : Bool := false
  appends : Bool := false
  /-- The file is made if it is not there. -/
  creates : Bool := false
  /-- What is in the file is dropped. -/
  empties : Bool := false
  /-- The file must not be there. -/
  isNew : Bool := false

namespace Access

/-- For reading. -/
def read : Access := { reads := true }

/-- For writing from the beginning. -/
def write : Access := { writes := true, creates := true, empties := true }

/-- For writing to the end. -/
def append : Access := { writes := true, creates := true, appends := true }

end Access

namespace World

/-! ### Channels and openings -/

/-- A new opening, with its number. -/
def withOpening (w : World) (o : Opening) : Nat × World :=
  (w.openings.size, { w with openings := w.openings.push o })

/-- A new channel, with its number and the openings that write to it and read from it. -/
def withChannel (w : World) : Nat × Nat × Nat × World :=
  let n := w.channels.size
  let w := { w with channels := w.channels.push {} }
  let (writing, w) := w.withOpening { target := .channel n, canWrite := true }
  let (reading, w) := w.withOpening { target := .channel n, canRead := true }
  (n, writing, reading, w)

/-- Everything that has been written to a channel. -/
def contentOf (w : World) (channel : Nat) : ByteArray :=
  (w.channels[channel]?).elim .empty Channel.content

/-- Moves the place where an opening goes on. -/
def moved (w : World) (opening position : Nat) : World :=
  { w with openings := w.openings.modify opening fun o => { o with position } }

/-! ### Reading and writing -/

/-- Takes down that a node has been changed now. -/
def stamp (w : World) (n : Nat) : World :=
  { w with changes := (n, w.clock) :: w.changes.filter (·.1 != n) }

/-- When a node was changed. -/
def changedAt (w : World) (n : Nat) : Nat :=
  (w.changes.lookup n).getD 0

/-- Bytes with others put in at a position; what is missing before it is zero. -/
def overwritten (content : ByteArray) (position : Nat) (bytes : ByteArray) : ByteArray :=
  let zeros : ByteArray := ⟨(List.replicate (position - content.size) (0 : UInt8)).toArray⟩
  content.extract 0 position ++ zeros ++ bytes ++
    content.extract (position + bytes.size) content.size

def write (w : World) (opening : Nat) (bytes : ByteArray) : Except FileError World :=
  match w.openings[opening]? with
  | none => .error .badStream
  | some o =>
    if ! o.canWrite then .error .badStream
    else
      match o.target with
      | .channel n =>
        .ok { w with channels := w.channels.modify n fun c => { c with content := c.content ++ bytes } }
      | .node n =>
        match w.files.node n with
        | .file content mode =>
          let position := if o.appends then content.size else o.position
          let content := overwritten content position bytes
          let w := { w with files := w.files.set n (.file content mode) }
          .ok ((w.stamp n).moved opening (position + bytes.size))
        | .device .full => if bytes.isEmpty then .ok w else .error .noSpace
        | _ => .ok w

/-- How many bytes a device without an end gives at once. -/
def deviceLimit : Nat := 65536

/-- What can be read from an opening, and how much of it has been read. -/
def readable (w : World) (opening : Nat) : Except FileError (ByteArray × Nat) :=
  match w.openings[opening]? with
  | none => .error .badStream
  | some o =>
    if ! o.canRead then .error .badStream
    else
      match o.target with
      | .channel n => .ok ((w.channels[n]?).elim (.empty, 0) fun c => (c.content, c.start))
      | .node n =>
        match w.files.node n with
        | .file content _ => .ok (content, o.position)
        | .directory .. => .error .isDirectory
        | .device .zero | .device .full => .ok (⟨Array.replicate deviceLimit 0⟩, 0)
        | .program _ => .ok ("#!/bin/sh\n".toUTF8, o.position)
        | _ => .ok (.empty, 0)

/-- Goes on at another place of what an opening reads. -/
def readUpTo (w : World) (opening position : Nat) : World :=
  match (w.openings[opening]?).map Opening.target with
  | some (.channel n) => { w with channels := w.channels.modify n fun c => { c with start := position } }
  | some (.node _) => w.moved opening position
  | none => w

/-- Reads at most `count` bytes from an opening. -/
def read (w : World) (opening count : Nat) : Except FileError (ByteArray × World) := do
  let (content, start) ← w.readable opening
  let bytes := content.extract start (start + count)
  return (bytes, w.readUpTo opening (start + bytes.size))

/-- Reads all that is left in an opening. -/
def readAll (w : World) (opening : Nat) : Except FileError (ByteArray × World) := do
  let (content, start) ← w.readable opening
  return (content.extract start content.size, w.readUpTo opening (max start content.size))

/-! ### Opening -/

/-- Opens a node. A device that stands for a stream leads where the stream of the process does. -/
def openNode (w : World) (p : Process) (n : Nat) (a : Access) : Except FileError (Nat × World) :=
  let o : Opening := { target := .node n, canRead := a.reads, canWrite := a.writes, appends := a.appends }
  match w.files.node n with
  | .directory .. => if a.writes then .error .isDirectory else .ok (w.withOpening o)
  | .file _ mode =>
    let w := if a.empties then { w with files := w.files.set n (.file .empty mode) }.stamp n else w
    .ok (w.withOpening o)
  | .device (.stream s) =>
    match (p.streams.lookup s).bind fun i => w.openings[i]? with
    | none => .error .missing
    | some other => .ok (w.withOpening { o with target := other.target })
  | .device .terminal => .error .noDevice
  | _ => .ok (w.withOpening o)

/-- Opens the file with a path, as seen by a process. -/
def openFile (w : World) (p : Process) (path : String) (a : Access) : Except FileError (Nat × World) :=
  match w.files.find p.directory path with
  | .ok n => if a.isNew && (w.files.node n).isRegular then .error .alreadyThere else w.openNode p n a
  | .error .missing =>
    if ! a.creates then .error .missing
    else do
      let (directory, name) ← w.files.findPlace p.directory path
      if name = "" ∨ name = "." ∨ name = ".." then throw .isDirectory
      else
        let mode := 0o666 &&& (0o777 ^^^ p.mask)
        let (n, files) := w.files.add directory name (.file .empty mode)
        ({ w with files }.stamp n).openNode p n a
  | .error e => .error e

/-- The bytes of a file, as seen by a process. -/
def fileContent (w : World) (p : Process) (path : String) : Except FileError ByteArray := do
  let (opening, w) ← w.openFile p path .read
  return (← w.readAll opening).1

/-! ### Programs -/

/-- The directories in which programs are looked for by their names. -/
def usualPath : String :=
  "/usr/local/sbin:/usr/local/bin:/usr/sbin:/usr/bin:/sbin:/bin"

/-- The directories of a search path; nothing between colons is the present directory. -/
def searchPath (path : String) : List String :=
  (Text.splitAt (· == ':') path.toList).map String.ofList

/-- The path of a program in a directory of a search path. -/
def programIn (directory name : String) : String :=
  if directory.isEmpty then name else joinPath directory name

/-- The node of the program with a path, or why it cannot be run. -/
def programAt (w : World) (p : Process) (path : String) : Except FileError Nat := do
  let n ← w.files.find p.directory path
  if (w.files.node n).isRunnable then return n else throw .denied

/-- The path and the node of the program with a name in one of several directories, or why there is none. -/
def programIn? (w : World) (p : Process) (name : String) (reason : FileError) :
    List String → Except FileError (String × Nat)
  | [] => .error reason
  | directory :: directories =>
    match w.programAt p (programIn directory name) with
    | .ok n => .ok (programIn directory name, n)
    | .error .missing | .error .notDirectory => w.programIn? p name reason directories
    | .error e => w.programIn? p name e directories

end World

/-! ## What programs do -/

/-- What runs the program with a path in a process. The arguments begin with the name of the program. -/
abbrev Launcher := World → Process → String → List String → Except FileError (World × Ending)

/-- Where a program runs. -/
structure Task where
  world : World
  process : Process

/-- A step of a program. It may end the program. -/
abbrev Tool := EStateM Ending Task

namespace Tool

/-- What comes of a program that ends with a status. -/
def outcome (world : World) (process : Process) (tool : Tool Nat) : World × Ending :=
  match tool.run { world, process } with
  | .ok status t => (t.world, .ofStatus status)
  | .error ending t => (t.world, ending)

def exit (status : Nat) : Tool α :=
  throw (.ofStatus status)

/-- Writes octets to a stream, unless that is not possible. -/
def write? (stream : Nat) (octets : String) : Tool (Except FileError Unit) :=
  modifyGet fun t =>
    match t.process.streams.lookup stream with
    | none => (.error .badStream, t)
    | some o =>
      match t.world.write o (Text.Octets.bytes octets) with
      | .ok world => (.ok (), { t with world })
      | .error e => (.error e, t)

def complain (octets : String) : Tool Unit := do
  let _ ← write? 2 octets

/-- Says what is wrong, and ends the program. -/
def fail (status : Nat) (what : String) : Tool α := do
  complain (what ++ "\n")
  exit status

/-- Writes octets to the output. The program with the given name ends if that is not possible. -/
def put (name octets : String) : Tool Unit := do
  if ! octets.isEmpty then
    match ← write? 1 octets with
    | .ok () => return
    | .error e => fail 1 (name ++ ": write error: " ++ e.text)

/-- Everything that is left of the input. -/
def input : Tool (Except FileError String) :=
  modifyGet fun t =>
    match t.process.streams.lookup 0 with
    | none => (.error .badStream, t)
    | some o =>
      match t.world.readAll o with
      | .ok (bytes, world) => (.ok (Text.Octets.ofBytes bytes), { t with world })
      | .error e => (.error e, t)

/-- The content of a file; a dash stands for the input. -/
def content (path : String) : Tool (Except FileError String) := do
  if path = "-" then input
  else
    let t ← get
    return (t.world.fileContent t.process path).map Text.Octets.ofBytes

def node? (path : String) : Tool (Except FileError (Nat × Node)) := do
  let t ← get
  return (t.world.files.find t.process.directory path).map fun n => (n, t.world.files.node n)

def changeFiles (change : Files → Files) : Tool Unit :=
  modify fun t =>
    let before := t.world.files.nodes.size
    let world := { t.world with files := change t.world.files }
    let made := (List.range (world.files.nodes.size - before)).map (before + ·)
    { t with world := made.foldl World.stamp world }

/-- Takes a step for each of several arguments. The result is whether it succeeded for all of them. -/
def forAll (args : List String) (step : String → Tool Bool) : Tool Bool := do
  return (← args.mapM step).all id

/-- The status for a step that succeeded or not. -/
def statusOf (isWell : Bool) : Nat :=
  if isWell then 0 else 1

end Tool

end PacketFilter
