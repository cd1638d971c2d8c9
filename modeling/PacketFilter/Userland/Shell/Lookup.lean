import PacketFilter.Userland.Shell.Grammar
import PacketFilter.Userland.Shell.State

/-! # What names stand for

A command is a definition of the script, a command that needs no program, or a program that is found in one of several
directories. `lookup` finds it, and `describe` says what was found. -/

namespace PacketFilter.Shell

/-- What is to be known about a command that needs no program. -/
structure BuiltinKind where
  /-- What is set in front of the command stays set, and what is wrong with the command ends the script. -/
  isSpecial : Bool := false
  /-- Words of the command that set parameters are not split. -/
  sets : Bool := false

def builtinKinds : List (String × BuiltinKind) :=
  let special : BuiltinKind := { isSpecial := true }
  let plain : BuiltinKind := {}
  [(".", special), (":", special), ("[", plain), ("alias", { sets := true }), ("bg", plain), ("break", special),
    ("cd", plain), ("chdir", plain), ("command", plain), ("continue", special), ("echo", plain), ("eval", special),
    ("exec", special), ("exit", special), ("export", { isSpecial := true, sets := true }), ("false", plain),
    ("fg", plain), ("getopts", plain), ("hash", plain), ("jobs", plain), ("kill", plain),
    ("local", { isSpecial := true, sets := true }), ("printf", plain), ("pwd", plain), ("read", plain),
    ("readonly", { isSpecial := true, sets := true }), ("return", special), ("set", special), ("shift", special),
    ("test", plain), ("times", special), ("trap", special), ("true", plain), ("type", plain), ("ulimit", plain),
    ("umask", plain), ("unalias", plain), ("unset", special), ("wait", plain)]

/-- What a name stands for. -/
inductive Meaning where
  | definition (body : Script)
  | builtin (kind : BuiltinKind)
  | program (path : String)
  /-- Nothing, and the reason. -/
  | nothing (why : FileError)

/-- How a name is looked up. -/
structure Search where
  /-- Definitions do not count. -/
  noDefinitions : Bool := false
  /-- Programs do not count. -/
  noPrograms : Bool := false
  /-- The usual directories are searched, and not those that are set. -/
  usualPath : Bool := false
  /-- A path has to lead somewhere. -/
  checksPaths : Bool := false

/-- The directories in which programs are looked for. -/
def searchPath (s : Search) : Run (List String) := do
  if s.usualPath then return World.searchPath World.usualPath
  else return World.searchPath ((← Run.value? "PATH").getD "")

def remember (name path : String) : Run Unit :=
  modify fun sh => { sh with found := ⟨name, path, false⟩ :: sh.found.filter (·.name != name) }

def findProgram (s : Search) (name : String) : Run Meaning := do
  let sh ← get
  match if s.usualPath then none else sh.found.find? fun f => f.name == name && ! f.isOld with
  | some f => return .program f.path
  | none =>
    match sh.world.programIn? sh.process name .missing (← searchPath s) with
    | .ok (path, _) =>
      if ! s.usualPath then remember name path
      return .program path
    | .error why =>
      modify fun sh => { sh with found := sh.found.filter (·.name != name) }
      return .nothing why

/-- Finds what a name stands for. -/
def lookup (s : Search) (name : String) : Run Meaning := do
  let sh ← get
  if name.toList.contains '/' then
    if ! s.checksPaths then return .program name
    else
      match sh.world.files.find sh.process.directory name with
      | .ok _ => return .program name
      | .error why => return .nothing why
  else
    match if s.noDefinitions then none else sh.definitions.lookup name with
    | some body => return .definition body
    | none =>
      match builtinKinds.lookup name with
      | some kind => return .builtin kind
      | none => if s.noPrograms then return .nothing .missing else findProgram s name

/-- What is said about a program that cannot be run. -/
def programReason (why : FileError) : String :=
  match why with
  | .missing | .notDirectory => "not found"
  | why => why.text

/-- The status of a program that cannot be run. -/
def programStatus (why : FileError) : Nat :=
  match why with
  | .missing | .notDirectory | .nameTooLong | .tooManyLinks => 127
  | _ => 126

/-! ### Descriptions -/

/-- A text between quotes, so that it can be read again. Quotes in it stand between quotes of the other kind. -/
def quoted (text : String) : String :=
  let rec go : Nat → List Char → List Char
    | 0, _ => []
    | fuel + 1, cs =>
      let plain := cs.takeWhile (· != '\'')
      let rest := cs.drop plain.length
      let quotes := rest.takeWhile (· == '\'')
      let rest := rest.drop quotes.length
      ['\''] ++ plain ++ ['\''] ++
        (if quotes.isEmpty then []
        else ['"'] ++ quotes ++ ['"'] ++ if rest.isEmpty then [] else go fuel rest)
  String.ofList (go (text.length + 1) text.toList)

def aliasLine (name text : String) : String :=
  name ++ "=" ++ quoted text ++ "\n"

/-- Describes what a name stands for, with many words or few. The result is the status of that. -/
def describe (usualPath isLong : Bool) (name : String) : Run Nat := do
  let done (long short : String) : Run Nat := do
    Run.print (if isLong then name ++ long ++ "\n" else short ++ "\n")
    return 0
  let sh ← get
  if Token.keywords.contains name then done " is a shell keyword" name
  else
    match sh.aliases.lookup name with
    | some text =>
      if isLong then done (" is an alias for " ++ text) name
      else
        Run.print ("alias " ++ aliasLine name text)
        return 0
    | none =>
      let tracked := if usualPath then none else sh.found.find? (·.name == name)
      match tracked, ← lookup { usualPath, checksPaths := true } name with
      | _, .definition _ => done " is a shell function" name
      | _, .builtin kind => done (if kind.isSpecial then " is a special shell builtin" else " is a shell builtin") name
      | some f, _ => done (" is a tracked alias for " ++ f.path) f.path
      | none, .program path => done (" is " ++ path) path
      | none, .nothing _ =>
        if isLong then Run.print (name ++ ": not found\n")
        return 127

end PacketFilter.Shell
