import PacketFilter.System.Document
import PacketFilter.Userland.Octets

/-! # Files

`Files` is everything that a system keeps under names: files, directories with named entries, devices, programs and
links. Each of them is a `Node` with a number, and the node 0 is the root. `Files.find` follows a path from a directory:
names are followed one by one, where `.` and nothing stay in a directory and `..` leaves it. Only directories can be
followed, so a path that goes on below a file leads nowhere, even if only a slash follows. Names and paths are octets.
-/

/-! ## Permissions

Permissions are numbers with a digit in base eight for each class of users: the owner, the group and others. A text of
clauses changes them, where each clause names classes of users and what these may do. -/

namespace PacketFilter.Permissions

/-- The permissions of a class of users as letters. -/
def letters (n : Nat) : String :=
  (if n &&& 4 != 0 then "r" else "") ++ (if n &&& 2 != 0 then "w" else "") ++ (if n &&& 1 != 0 then "x" else "")

/-- Changes permissions as a clause says, for the classes of users that have been named, of which `classes` has the
places. -/
def changedBy (classes : List Nat) : List Char → Nat → Option (Nat × List Char)
  | op :: cs, mode =>
    if ['=', '+', '-'].contains op then
      let letters := cs.takeWhile ['r', 'w', 'x', 'X', 's', 't'].contains
      let bits := letters.foldl (fun n c => n ||| (([('r', 4), ('w', 2), ('x', 1), ('X', 1)].lookup c).getD 0)) 0
      let all := if classes.isEmpty then [64, 8, 1] else classes
      let chosen := all.foldl (fun n place => n ||| bits * place) 0
      let cleared := all.foldl (fun n place => n ||| 7 * place) 0
      let mode :=
        if op = '=' then (mode &&& (0o777 ^^^ cleared)) ||| chosen
        else if op = '+' then mode ||| chosen
        else mode &&& (0o777 ^^^ chosen)
      some (mode, cs.drop letters.length)
    else none
  | [], _ => none

/-- Permissions that clauses with commas between them change. -/
def changed : Nat → List Char → Nat → Option Nat
  | 0, _, mode => some mode
  | fuel + 1, cs, mode =>
    let letters := cs.takeWhile ['u', 'g', 'o', 'a'].contains
    let classes := letters.flatMap fun c =>
      if c = 'a' then [64, 8, 1] else ([('u', 64), ('g', 8), ('o', 1)].lookup c).toList
    match changedBy classes (cs.drop letters.length) mode with
    | none => none
    | some (mode, []) => some mode
    | some (mode, ',' :: cs) => changed fuel cs mode
    | some (mode, cs) => changed fuel cs mode

end PacketFilter.Permissions

/-! ## Nodes and paths -/

namespace PacketFilter

/-- What is not kept anywhere but can be read and written like a file. -/
inductive Device where
  /-- Empty, and takes everything. -/
  | null
  /-- Zero bytes without an end. -/
  | zero
  /-- Zero bytes without an end, and takes nothing. -/
  | full
  | terminal
  /-- What an open stream leads to. -/
  | stream (n : Nat)
deriving DecidableEq

/-- Something that has a name. -/
inductive Node where
  | file (content : ByteArray) (mode : Nat)
  /-- Named entries, and the directory around them. -/
  | directory (entries : List (String × Nat)) (outer : Nat) (mode : Nat)
  | device (d : Device)
  /-- A program that can be run, by the name of what it does. -/
  | program (name : String)
  /-- Stands for another path. -/
  | link (target : String)
deriving Inhabited

namespace Node

def isDirectory : Node → Bool
  | directory .. => true
  | _ => false

/-- Whether a node is a file or a program. -/
def isRegular : Node → Bool
  | file .. | program _ => true
  | _ => false

def mode : Node → Nat
  | file _ mode => mode
  | directory _ _ mode => mode
  | device _ => 0o666
  | program _ => 0o755
  | link _ => 0o777

/-- Whether a node can be run as a program. -/
def isRunnable : Node → Bool
  | file _ mode => mode &&& 0o111 != 0
  | program _ => true
  | _ => false

/-- How many bytes a node holds. -/
def size : Node → Nat
  | file content _ => content.size
  | directory .. => 4096
  | program _ => 100
  | link target => target.length
  | device _ => 0

/-- The document that is found in a node. -/
def document : Node → Document
  | file content _ => .ofBytes content
  | directory .. => .directory
  | program _ => .text "#!/bin/sh\n"
  | _ => .text ""

end Node

/-- Everything that has a name. -/
structure Files where
  nodes : Array Node

namespace Files

def node (f : Files) (n : Nat) : Node :=
  f.nodes[n]?.getD (.directory [] 0 0o755)

/-! ### Paths -/

/-- How many names and links are followed at most. -/
def maxSteps : Nat := 8192

/-- The greatest number of links that are followed. -/
def maxLinks : Nat := 40

/-- Follows names from a directory. A link in the last place is followed if `last` says so. -/
def follow (f : Files) (fuel links : Nat) (last : Bool) (here : Nat) (names : List String) :
    Except FileError Nat :=
  match fuel, names with
  | _, [] => .ok here
  | 0, _ => .error .tooManyLinks
  | fuel + 1, name :: names =>
    match f.node here with
    | .directory entries outer _ =>
      if name = "" ∨ name = "." then follow f fuel links last here names
      else if name = ".." then follow f fuel links last outer names
      else if maxNameLength < name.length then .error .nameTooLong
      else
        match entries.lookup name with
        | none => .error .missing
        | some n =>
          match f.node n with
          | .link target =>
            if names.isEmpty && ! last then .ok n
            else if links = 0 then .error .tooManyLinks
            else
              follow f fuel (links - 1) last (if isAbsolute target then 0 else here)
                (pathNames target ++ names)
          | _ => follow f fuel links last n names
    | _ => .error .notDirectory

/-- What names lead to from a directory. -/
def findNames (f : Files) (last : Bool) (here : Nat) (path : String) (names : List String) :
    Except FileError Nat :=
  if path.isEmpty then .error .missing
  else if pathLimit ≤ path.length then .error .nameTooLong
  else follow f maxSteps maxLinks last (if isAbsolute path then 0 else here) names

/-- The node that a path leads to from a directory. An empty path leads nowhere. -/
def find (f : Files) (here : Nat) (path : String) : Except FileError Nat :=
  f.findNames true here path (pathNames path)

/-- The node that a path leads to, which may be a link. -/
def findLink (f : Files) (here : Nat) (path : String) : Except FileError Nat :=
  f.findNames false here path (pathNames path)

/-- The directory that a path leads into, and the last name of the path. -/
def findPlace (f : Files) (here : Nat) (path : String) : Except FileError (Nat × String) := do
  let names := pathNames path
  let name := names.getLastD ""
  let directory ← f.findNames true here path names.dropLast
  if maxNameLength < name.length then throw .nameTooLong
  else if (f.node directory).isDirectory then return (directory, name)
  else throw .notDirectory

/-- The entry of a directory with a name. -/
def entry? (f : Files) (directory : Nat) (name : String) : Option Nat :=
  match f.node directory with
  | .directory entries .. => entries.lookup name
  | _ => none

def entries (f : Files) (directory : Nat) : List (String × Nat) :=
  match f.node directory with
  | .directory entries .. => entries
  | _ => []

/-- The document that a path leads to from a directory. -/
def document (f : Files) (here : Nat) (path : String) : Document :=
  match f.find here (Text.Octets.ofText path) with
  | .ok n => (f.node n).document
  | .error why => .absent why

/-- The path of a directory from the root; `fuel` bounds its length. -/
def pathOf (f : Files) (fuel : Nat) (directory : Nat) : String :=
  match fuel, f.node directory with
  | fuel + 1, .directory _ outer _ =>
    if directory = 0 then "/"
    else
      let name := ((f.entries outer).find? (·.2 == directory)).elim "" Prod.fst
      joinPath (pathOf f fuel outer) name
  | _, _ => "/"

/-! ### Changes -/

def set (f : Files) (n : Nat) (node : Node) : Files :=
  { nodes := f.nodes.setIfInBounds n node }

def setEntries (f : Files) (directory : Nat) (entries : List (String × Nat)) : Files :=
  match f.node directory with
  | .directory _ outer mode => f.set directory (.directory entries outer mode)
  | _ => f

/-- Puts a new node under a name into a directory. The result has the number of the node. -/
def add (f : Files) (directory : Nat) (name : String) (node : Node) : Nat × Files :=
  let n := f.nodes.size
  let f : Files := { nodes := f.nodes.push node }
  (n, f.setEntries directory (f.entries directory ++ [(name, n)]))

/-- Takes a name out of a directory. -/
def remove (f : Files) (directory : Nat) (name : String) : Files :=
  f.setEntries directory ((f.entries directory).filter (·.1 != name))

/-- Puts a node that is there already under another name into a directory; nothing else keeps that name. A
directory is then in that directory. -/
def place (f : Files) (directory : Nat) (name : String) (n : Nat) : Files :=
  let f := f.setEntries directory ((f.entries directory).filter (·.1 != name) ++ [(name, n)])
  match f.node n with
  | .directory entries _ mode => f.set n (.directory entries directory mode)
  | _ => f

/-- Everything that a path leads through is made a directory if it is not there. The result has the number of
the last one; what is no directory in the way is replaced. -/
def withDirectories (f : Files) (here : Nat) : List String → Nat × Files
  | [] => (here, f)
  | name :: names =>
    match f.entry? here name with
    | some n => withDirectories f n names
    | none =>
      let (n, f) := f.add here name (.directory [] here 0o755)
      withDirectories f n names

/-- Puts a new node at the end of a path from a directory. -/
def put (f : Files) (here : Nat) (path : String) (node : Node) : Files :=
  let names := pathNames path
  let (directory, f) := f.withDirectories here names.dropLast
  (f.add directory (names.getLastD "") node).2

def empty : Files :=
  { nodes := #[.directory [] 0 0o755] }

end Files

end PacketFilter
