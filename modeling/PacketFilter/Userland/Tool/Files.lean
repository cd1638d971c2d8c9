import PacketFilter.Userland.Files
import PacketFilter.Userland.Tool.Text

/-! # Programs for files

`ls`, `touch`, `mkdir`, `rmdir`, `rm`, `cp`, `mv`, `ln` and `chmod`. -/

namespace PacketFilter.Tool

/-- What a path leads to. If it ends in a link, that is what is found. -/
def linkOrNode? (path : String) : Tool (Except FileError (Nat × Node)) := do
  let t ← get
  return (t.world.files.findLink t.process.directory path).map fun n => (n, t.world.files.node n)

/-- The directory that a path leads into, and the last name of the path; slashes at its end do not count. -/
def place? (path : String) : Tool (Except FileError (Nat × String)) := do
  let t ← get
  let trimmed := String.ofList (Text.dropEndWhile (· == '/') path.toList)
  return t.world.files.findPlace t.process.directory trimmed

def missingOperand (name what : String) : Tool α :=
  fail 1 (name ++ ": missing " ++ what ++ "\nTry '" ++ name ++ " --help' for more information.")

def refuse (name what : String) (why : FileError) : Tool Bool := do
  complain (name ++ ": " ++ what ++ ": " ++ why.text ++ "\n")
  return false

def inQuotes (text : String) : String :=
  "'" ++ text ++ "'"

/-! ### Looking -/

/-- The names in a directory that are shown. -/
def shownNames (all : Bool) (entries : List (String × Nat)) : List String :=
  let names := (entries.map Prod.fst).filter fun name => all || name.toList.head? != some '.'
  (if all then [".", ".."] ++ names else names).mergeSort (· ≤ ·)

def ls (args : List String) : Tool Nat := do
  let (os, paths) ← options "ls" "aA1dlR" 2 args
  let all := os.any (·.1 == 'a')
  let asFiles := os.any (·.1 == 'd')
  let paths := if paths.isEmpty then ["."] else paths.mergeSort (· ≤ ·)
  let found ← paths.mapM fun path => do
    match ← node? path with
    | .ok (n, node) => return some (path, n, node)
    | .error e =>
      let _ ← refuse "ls" ("cannot access " ++ inQuotes path) e
      return none
  let isDirectory (f : String × Nat × Node) : Bool := f.2.2.isDirectory && ! asFiles
  let there := found.filterMap id
  let files := there.filter (! isDirectory ·)
  let directories := there.filter isDirectory
  put "ls" (unlines (files.map Prod.fst))
  let t ← get
  let lists := directories.map fun (path, n, _) =>
    (if 1 < paths.length then path ++ ":\n" else "") ++ unlines (shownNames all (t.world.files.entries n))
  if ! files.isEmpty && ! lists.isEmpty then put "ls" "\n"
  put "ls" ("\n".intercalate lists)
  return if found.all Option.isSome then 0 else 2

/-! ### Making -/

/-- Makes a node with a path. -/
def make (path : String) (node : Nat → Process → Node) : Tool (Except FileError Unit) := do
  match ← place? path with
  | .error e => return .error e
  | .ok (directory, name) =>
    let t ← get
    if (t.world.files.entry? directory name).isSome ∨ name = "" ∨ name = "." ∨ name = ".." then
      return .error .alreadyThere
    else
      changeFiles fun files => (files.add directory name (node directory t.process)).2
      return .ok ()

def newDirectory (outer : Nat) (p : Process) : Node :=
  .directory [] outer (0o777 &&& (0o777 ^^^ p.mask))

def newFile (_ : Nat) (p : Process) : Node :=
  .file .empty (0o666 &&& (0o777 ^^^ p.mask))

def touch (args : List String) : Tool Nat := do
  let (os, paths) ← options "touch" "acmd:t:r:" 1 args
  if paths.isEmpty then missingOperand "touch" "file operand"
  let isWell ← forAll paths fun path => do
    match ← node? path with
    | .ok (n, _) =>
      modify fun t => { t with world := t.world.stamp n }
      return true
    | .error .missing =>
      if os.any (·.1 == 'c') then return true
      else
        let made ← if path.endsWith "/" then pure (.error .missing) else make path newFile
        match made with
        | .ok () => return true
        | .error e => refuse "touch" ("cannot touch " ++ inQuotes path) e
    | .error e => refuse "touch" ("cannot touch " ++ inQuotes path) e
  return statusOf isWell

/-- All directories around a path, from the outside in, and the path itself. -/
def around (path : String) : List String :=
  let names := pathNames (String.ofList (Text.dropEndWhile (· == '/') path.toList))
  (List.range names.length).map fun i => "/".intercalate (names.take (i + 1))

def mkdir (args : List String) : Tool Nat := do
  let (os, paths) ← options "mkdir" "pvm:" 1 args
  if paths.isEmpty then missingOperand "mkdir" "operand"
  let isWell ← forAll paths fun path => do
    if os.any (·.1 == 'p') then
      forAll ((around path).filter (! ·.isEmpty)) fun path => do
        match ← node? path with
        | .ok (_, .directory ..) => return true
        | _ =>
          match ← make path newDirectory with
          | .ok () => return true
          | .error e => refuse "mkdir" ("cannot create directory " ++ inQuotes path) e
    else
      match ← make path newDirectory with
      | .ok () => return true
      | .error e => refuse "mkdir" ("cannot create directory " ++ inQuotes path) e
  return statusOf isWell

/-! ### Removing -/

def rmdir (args : List String) : Tool Nat := do
  let (_, paths) ← options "rmdir" "pv" 1 args
  if paths.isEmpty then missingOperand "rmdir" "operand"
  let isWell ← forAll paths fun path => do
    match ← linkOrNode? path, ← place? path with
    | .ok (_, .directory [] ..), .ok (directory, name) =>
      changeFiles fun files => files.remove directory name
      return true
    | .ok (_, .directory ..), _ => refuse "rmdir" ("failed to remove " ++ inQuotes path) .notEmpty
    | .ok _, _ => refuse "rmdir" ("failed to remove " ++ inQuotes path) .notDirectory
    | .error e, _ => refuse "rmdir" ("failed to remove " ++ inQuotes path) e
  return statusOf isWell

def rm (args : List String) : Tool Nat := do
  let (os, paths) ← options "rm" "frRidv" 1 args
  let has (c : Char) : Bool := os.any (·.1 == c)
  let isDeep := has 'r' || has 'R'
  if paths.isEmpty then if has 'f' then exit 0 else missingOperand "rm" "operand"
  let isWell ← forAll paths fun path => do
    let cannot := "cannot remove " ++ inQuotes path
    match ← linkOrNode? path, ← place? path with
    | .error .missing, _ => if has 'f' then return true else refuse "rm" cannot .missing
    | .error .notDirectory, _ => if has 'f' then return true else refuse "rm" cannot .notDirectory
    | .error e, _ => refuse "rm" cannot e
    | .ok (_, node), place =>
      let name := (pathNames (String.ofList (Text.dropEndWhile (· == '/') path.toList))).getLastD ""
      if node.isDirectory && ! isDeep && ! has 'd' then refuse "rm" cannot .isDirectory
      else if name = "." ∨ name = ".." then
        complain ("rm: refusing to remove '.' or '..' directory: skipping " ++ inQuotes path ++ "\n")
        return false
      else
        match node, place with
        | .directory (_ :: _) .., .ok (directory, name) =>
          if isDeep then
            changeFiles fun files => files.remove directory name
            return true
          else refuse "rm" cannot .notEmpty
        | _, .ok (directory, name) =>
          changeFiles fun files => files.remove directory name
          return true
        | _, .error e => refuse "rm" cannot e
  return statusOf isWell

/-! ### Moving -/

def lastName (path : String) : String :=
  (pathNames (String.ofList (Text.dropEndWhile (· == '/') path.toList))).getLastD ""

/-- Where each of several sources goes: a directory takes all of them under their names, and any other target is the
new path of a single one. -/
def destinations (name : String) (paths : List String) : Tool (List (String × String)) := do
  match paths with
  | [] => missingOperand name "file operand"
  | [path] => missingOperand name ("destination file operand after " ++ inQuotes path)
  | paths =>
    let target := paths.getLastD ""
    let sources := paths.dropLast
    match ← node? target with
    | .ok (_, .directory ..) => return sources.map fun s => (s, joinPath target (lastName s))
    | found =>
      match sources with
      | [source] => return [(source, target)]
      | _ =>
        let why :=
          match found with
          | .ok _ => FileError.notDirectory
          | .error e => e
        fail 1 (name ++ ": target " ++ inQuotes target ++ ": " ++ why.text)

/-- Files in which a copy of a node, and of what is in it, stands under a name in a directory. -/
def copied (files : Files) (directory : Nat) (name : String) : Nat → Nat → Files
  | 0, _ => files
  | fuel + 1, n =>
    match files.node n with
    | .directory entries _ mode =>
      let (here, files) :=
        match files.entry? directory name with
        | some here => (here, files)
        | none => files.add directory name (.directory [] directory mode)
      entries.foldl (fun files e => copied files here e.1 fuel e.2) files
    | .file content mode =>
      match files.entry? directory name with
      | some there =>
        match files.node there with
        | .file _ mode => files.set there (.file content mode)
        | _ => files
      | none => (files.add directory name (.file content mode)).2
    | .program _ => (files.add directory name (files.node n)).2
    | node => (files.add directory name node).2

def cp (args : List String) : Tool Nat := do
  let (os, paths) ← options "cp" "rRafpvidLPn" 1 args
  let isDeep := os.any fun o => o.1 == 'r' || o.1 == 'R' || o.1 == 'a'
  let isWell ← (← destinations "cp" paths).mapM fun (source, target) => do
    match ← node? source with
    | .error e => refuse "cp" ("cannot stat " ++ inQuotes source) e
    | .ok (n, node) =>
      if node.isDirectory && ! isDeep then
        complain ("cp: -r not specified; omitting directory " ++ inQuotes source ++ "\n")
        return false
      else
        match ← node? target, ← place? target with
        | .ok (m, there), place =>
          if m = n then
            complain ("cp: " ++ inQuotes source ++ " and " ++ inQuotes target ++ " are the same file\n")
            return false
          else if there.isDirectory && ! node.isDirectory then
            complain ("cp: cannot overwrite directory " ++ inQuotes target ++ " with non-directory\n")
            return false
          else
            match place with
            | .ok (directory, name) =>
              changeFiles fun files => copied files directory name Files.maxSteps n
              return true
            | .error e => refuse "cp" ("cannot create regular file " ++ inQuotes target) e
        | .error .missing, .ok (directory, name) =>
          if target.endsWith "/" && ! node.isDirectory then
            refuse "cp" ("cannot create regular file " ++ inQuotes target) .notDirectory
          else
            changeFiles fun files => copied files directory name Files.maxSteps n
            return true
        | .error e, _ => refuse "cp" ("cannot create regular file " ++ inQuotes target) e
  return statusOf (isWell.all id)

def mv (args : List String) : Tool Nat := do
  let (_, paths) ← options "mv" "fivnT" 1 args
  let isWell ← (← destinations "mv" paths).mapM fun (source, target) => do
    let cannot := "cannot move " ++ inQuotes source ++ " to " ++ inQuotes target
    match ← linkOrNode? source, ← place? source with
    | .error e, _ => refuse "mv" ("cannot stat " ++ inQuotes source) e
    | .ok _, .error e => refuse "mv" cannot e
    | .ok (n, node), .ok (directory, name) =>
      match ← linkOrNode? target, ← place? target with
      | .error .missing, .ok (directory', name') =>
        if target.endsWith "/" && ! node.isDirectory then refuse "mv" cannot .notDirectory
        else
          changeFiles fun files => (files.remove directory name).place directory' name' n
          return true
      | .error e, _ => refuse "mv" cannot e
      | .ok _, .error e => refuse "mv" cannot e
      | .ok (m, there), .ok (directory', name') =>
        if m = n then
          complain ("mv: " ++ inQuotes source ++ " and " ++ inQuotes target ++ " are the same file\n")
          return false
        else if there.isDirectory && ! node.isDirectory then
          complain ("mv: cannot overwrite directory " ++ inQuotes target ++ " with non-directory\n")
          return false
        else if node.isDirectory && ! there.isDirectory then
          complain ("mv: cannot overwrite non-directory " ++ inQuotes target ++ " with directory " ++
            inQuotes source ++ "\n")
          return false
        else
          changeFiles fun files => (files.remove directory name).place directory' name' n
          return true
  return statusOf (isWell.all id)

def ln (args : List String) : Tool Nat := do
  let (os, paths) ← options "ln" "sfnvr" 1 args
  let isSoft := os.any (·.1 == 's')
  let paths :=
    match paths with
    | [path] => [path, lastName path]
    | paths => paths
  let isWell ← (← destinations "ln" paths).mapM fun (source, target) => do
    match ← place? target with
    | .error e =>
      refuse "ln" ("failed to create " ++ (if isSoft then "symbolic" else "hard") ++ " link " ++ inQuotes target) e
    | .ok (directory, name) =>
      if os.any (·.1 == 'f') then changeFiles fun files => files.remove directory name
      if isSoft then
        match ← make target fun _ _ => .link source with
        | .ok () => return true
        | .error e => refuse "ln" ("failed to create symbolic link " ++ inQuotes target) e
      else
        match ← linkOrNode? source with
        | .error e => refuse "ln" ("failed to access " ++ inQuotes source) e
        | .ok (n, node) =>
          let t ← get
          if node.isDirectory then
            complain ("ln: " ++ source ++ ": hard link not allowed for directory\n")
            return false
          else if (t.world.files.entry? directory name).isSome then
            refuse "ln" ("failed to create hard link " ++ inQuotes target) .alreadyThere
          else
            changeFiles fun files => files.place directory name n
            return true
  return statusOf (isWell.all id)

/-! ### Permissions -/

/-- The permissions that a text asks for, from those that there are. -/
def modeFrom? (text : String) (mode : Nat) : Option Nat :=
  let cs := text.toList
  if ! cs.isEmpty && cs.all (Number.Numeral.isDigit 8) && cs.length ≤ 4 then some (Number.Numeral.inBase 8 cs)
  else Permissions.changed (cs.length + 1) cs mode

def chmod (args : List String) : Tool Nat := do
  match args with
  | [] => missingOperand "chmod" "operand"
  | [mode] => missingOperand "chmod" ("operand after " ++ inQuotes mode)
  | text :: paths =>
    match modeFrom? text 0 with
    | none =>
      fail 1 ("chmod: invalid mode: " ++ inQuotes text ++ "\nTry 'chmod --help' for more information.")
    | some _ =>
      let isWell ← forAll paths fun path => do
        match ← node? path with
        | .error e => refuse "chmod" ("cannot access " ++ inQuotes path) e
        | .ok (n, node) =>
          let mode := (modeFrom? text node.mode).getD node.mode
          changeFiles fun files =>
            match node with
            | .file content _ => files.set n (.file content mode)
            | .directory entries outer _ => files.set n (.directory entries outer mode)
            | _ => files
          return true
      return statusOf isWell

end PacketFilter.Tool
