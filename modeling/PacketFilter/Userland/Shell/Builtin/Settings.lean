import PacketFilter.Userland.Shell.Lookup

/-! # Commands that change what a script has at hand

Parameters, arguments, switches, aliases and the reading of options: `export`, `readonly`, `local`, `unset`, `set`,
`shift`, `getopts`, `alias` and `unalias`; and the commands about names: `type`, `command` and `hash`. Each of them
gives its status. -/

namespace PacketFilter.Shell.Builtin

def options (known : String) (args : List String) : Run (List (Char × String) × List String) :=
  Run.orFail (Options.read known args)

/-! ### Parameters -/

/-- Parameters in the order of their names. -/
def sortedParameters (ps : List (String × Parameter)) : List (String × Parameter) :=
  ps.mergeSort fun a b => decide (a.1 ≤ b.1)

/-- Lists parameters, with a word in front of each of them. -/
def listParameters (word : String) (counts : Parameter → Bool) : Run Unit := do
  let ps := sortedParameters ((← get).parameters.filter fun p => counts p.2)
  for (name, p) in ps do
    let start := if word.isEmpty then "" else word ++ " "
    Run.print (start ++ name ++ p.value.elim "" (fun v => "=" ++ quoted v) ++ "\n")

/-- Marks a parameter so that it is handed on or stays as it is, and perhaps sets it. -/
def mark (exports : Bool) (text : String) : Run Unit := do
  let (name, value) := Run.setting text
  match value, ← Run.parameter? name with
  | none, some p =>
    Run.put name (some { p with isExported := p.isExported || exports, isFixed := p.isFixed || ! exports })
  | value, _ => Run.changeChecked name value exports (! exports)

def runMark (exports : Bool) (args : List String) : Run Nat := do
  let (os, texts) ← options "p" args
  if os.isEmpty && ! texts.isEmpty then texts.forM (mark exports)
  else
    listParameters (if exports then "export" else "readonly")
      fun p => if exports then p.isExported else p.isFixed
  return 0

def runLocal (args : List String) : Run Nat := do
  if (← get).kept.isEmpty then Run.fail "not in a function"
  args.forM fun text => Run.keepSetting text false
  return 0

def runUnset (args : List String) : Run Nat := do
  let (os, names) ← options "vf" args
  let isDefinition := (os.getLast?.map Prod.fst) == some 'f'
  for name in names do
    if isDefinition then
      modify fun sh => { sh with definitions := sh.definitions.filter (·.1 != name) }
    else Run.changeChecked name none false false
  return 0

/-! ### Arguments and switches -/

def setArguments (args : List String) : Run Unit :=
  modify fun sh => { sh with args, optionIndex := 1, optionPlace := none }

/-- Turns the switch with a letter on or off. -/
def turnLetter (on : Bool) (c : Char) : Run Unit :=
  match Switch.ofLetter? c with
  | some s => do
    Run.turn s on
    if on && s = .viKeys then Run.turn .emacsKeys false
    if on && s = .emacsKeys then Run.turn .viKeys false
  | none => Run.fail (Options.illegal c)

/-- Turns the switch with a name on or off. -/
def turnName (on : Bool) (name : String) : Run Unit :=
  match Switch.ofName? name with
  | some s => Run.turn s on
  | none => Run.fail ("Illegal option -o " ++ name)

/-- Turns switches on or off by letters. The letter `o` takes a name from the other arguments, or lists all switches
if there are none. -/
def turnLetters (on : Bool) : List Char → List String → Run (List String)
  | [], rest => return rest
  | 'o' :: cs, rest => do
    match rest with
    | [] =>
      let switches := (← get).switches
      Run.print (if on then Switch.listed switches else Switch.commands switches)
      turnLetters on cs []
    | name :: rest =>
      turnName on name
      turnLetters on cs rest
  | c :: cs, rest => do
    turnLetter on c
    turnLetters on cs rest

/-- Turns switches on or off as arguments say, of which there are so many at most. -/
def turnAll : Nat → List String → Run (List String)
  | 0, args => return args
  | fuel + 1, args => do
    match args with
    | [] => return []
    | arg :: rest =>
      match arg.toList with
      | ['-'] =>
        Run.turn .traced false
        Run.turn .verbose false
        return rest
      | ['-', '-'] =>
        if rest.isEmpty then setArguments []
        return rest
      | '-' :: cs => turnAll fuel (← turnLetters true cs rest)
      | '+' :: cs => turnAll fuel (← turnLetters false cs rest)
      | _ => return args

def runSet (args : List String) : Run Nat := do
  if args.isEmpty then
    listParameters "" fun p => p.value.isSome
    return 0
  else
    let rest ← turnAll (args.length + 1) args
    if ← Run.isOn .jobs then
      Run.warn "can't access tty; job control turned off"
      Run.turn .jobs false
    if ! rest.isEmpty then setArguments rest
    return 0

def runShift (args : List String) : Run Nat := do
  let n ← args.head?.elim (pure 1) Run.number
  let sh ← get
  if sh.args.length < n then Run.fail "can't shift that many"
  setArguments (sh.args.drop n)
  return 0

/-! ### Options of scripts -/

/-- What comes of looking for the next option: its letter, which is a mark if something is wrong, its argument, and
the place where it goes on. -/
structure NextOption where
  letter : Char := '?'
  /-- What becomes of the parameter for arguments of options, if anything. -/
  argument : Option (Option String) := none
  index : Nat
  place : Option Nat := none
  complaint : Option String := none
  isOver : Bool := false

/-- The letters that are left of the argument in which the last option was, and the place of the first of them. -/
def lettersLeft (args : List String) (index : Nat) (place : Option Nat) : Option (List Char × Nat) :=
  match place with
  | none => none
  | some place =>
    if index ≤ 1 then none
    else
      let left := ((args[index - 2]?).getD "").toList.drop place
      if left.isEmpty then none else some (left, place)

/-- Whether a letter is one of those that are known, and whether it has an argument. -/
def known? (c : Char) : List Char → Option Bool
  | d :: ':' :: cs => if c = d then some true else known? c cs
  | d :: cs => if c = d then some false else known? c cs
  | [] => none

/-- The next option of arguments. `letters` are those that are known; a colon in front of them says that nothing is
said about options that are wrong. -/
def nextOption (letters : List Char) (args : List String) (index : Nat) (place : Option Nat) : NextOption :=
  let isSilent := letters.head? == some ':'
  -- Goes on with a letter, behind which there are others at a place of the argument before `index`.
  let letter (c : Char) (rest : List Char) (index place : Nat) : NextOption :=
    let wrong (sign : Char) (complaint : String) : NextOption :=
      if isSilent then
        { letter := sign, argument := some (some c.toString), index, place := some place }
      else { argument := some none, index, place := some place, complaint := some complaint }
    match known? c letters with
    | none => wrong '?' ("Illegal option -" ++ c.toString ++ "\n")
    | some false => { letter := c, argument := some (some ""), index, place := some place }
    | some true =>
      if ! rest.isEmpty then { letter := c, argument := some (some (String.ofList rest)), index }
      else
        match args[index - 1]? with
        | some text => { letter := c, argument := some (some text), index := index + 1 }
        | none => { wrong ':' ("No arg for -" ++ c.toString ++ " option\n") with place := none }
  match lettersLeft args index place with
  | some (c :: rest, place) => letter c rest index (place + 1)
  | _ =>
    match ((args[index - 1]?).getD "").toList with
    | ['-', '-'] => { index := index + 1, isOver := true }
    | '-' :: c :: rest => letter c rest (index + 1) 2
    | _ => { index, isOver := true }

def runGetopts (args : List String) : Run Nat := do
  let (_, args) ← options "" args
  match args with
  | letters :: name :: others =>
    let sh ← get
    let args := if others.isEmpty then sh.args else others
    let isPast := args.length + 1 < sh.optionIndex
    let index := if isPast then 1 else sh.optionIndex
    let place := if isPast then none else sh.optionPlace
    let n := nextOption letters.toList args index place
    n.complaint.forM Run.writeError
    n.argument.forM fun text => Run.changeChecked "OPTARG" text false false
    Run.change "OPTIND" (some (toString n.index)) false false
    Run.assign name n.letter.toString
    modify fun sh => { sh with optionIndex := n.index, optionPlace := n.place }
    return if n.isOver then 1 else 0
  | _ => Run.fail "Usage: getopts optstring var [arg...]"

/-! ### Aliases -/

/-- The place of a name among so many. -/
def placeOfName (places : Nat) (name : String) : Nat :=
  (name.toList.foldl (fun n c => n + c.toNat) (16 * (name.toList.head?.elim 0 Char.toNat))) % places

/-- Names in the order in which they are listed: by their places, of which there are so many. -/
def inPlaces (places : Nat) (name : α → String) (as : List α) : List α :=
  as.mergeSort fun a b => placeOfName places (name a) ≤ placeOfName places (name b)

def aliasPlaces : Nat := 39

/-- Sets an alias, or shows it. The result is one if there is no such alias. -/
def setOrShowAlias (text : String) : Run Nat := do
  let cs := text.toList
  -- The sign behind the first character.
  let name := cs.take 1 ++ (cs.drop 1).takeWhile (· != '=')
  let aliases := (← get).aliases
  if name.length < cs.length then
    let value := String.ofList (cs.drop (name.length + 1))
    let name := String.ofList name
    let aliases :=
      if (aliases.lookup name).isSome then aliases.map fun a => if a.1 == name then (name, value) else a
      else aliases ++ [(name, value)]
    modify fun sh => { sh with aliases }
    return 0
  else
    match aliases.lookup text with
    | some value =>
      Run.print (aliasLine text value)
      return 0
    | none =>
      Run.writeError ("alias: " ++ text ++ " not found\n")
      return 1

def runAlias (args : List String) : Run Nat := do
  if args.isEmpty then
    for (name, text) in inPlaces aliasPlaces Prod.fst (← get).aliases do
      Run.print (aliasLine name text)
    return 0
  else
    let results ← args.mapM setOrShowAlias
    return if results.any (· != 0) then 1 else 0

def runUnalias (args : List String) : Run Nat := do
  let (os, names) ← options "a" args
  if ! os.isEmpty then
    modify fun sh => { sh with aliases := [] }
    return 0
  else
    let results ← names.mapM fun name => do
      if ((← get).aliases.lookup name).isSome then
        modify fun sh => { sh with aliases := sh.aliases.filter (·.1 != name) }
        return 0
      else
        Run.writeError ("unalias: " ++ name ++ " not found\n")
        return 1
    return if results.any (· != 0) then 1 else 0

/-! ## Names -/

def runType (args : List String) : Run Nat := do
  let results ← args.mapM (describe false true)
  return results.foldl (· ||| ·) 0

/-- The command `command` when it is asked what a name stands for. -/
def runCommand (args : List String) : Run Nat := do
  let (os, names) ← options "pvV" args
  let asks := os.any fun o => o.1 != 'p'
  match asks, names with
  | true, name :: _ => describe (os.any (·.1 == 'p')) (os.any (·.1 == 'V')) name
  | _, _ => return 0

def commandPlaces : Nat := 31

/-- Finds a program once more. The result says whether it is there. -/
def refind (name : String) : Run Bool := do
  modify fun sh => { sh with found := sh.found.filter (·.name != name) }
  match ← lookup {} name with
  | .nothing why =>
    Run.warn (name ++ ": " ++ programReason why)
    return false
  | _ => return true

def runHash (args : List String) : Run Nat := do
  let (os, names) ← options "r" args
  if ! os.isEmpty then
    modify fun sh => { sh with found := [] }
    return 0
  else if names.isEmpty then
    for f in inPlaces commandPlaces Found.name (← get).found.reverse do
      Run.print (f.path ++ (if f.isOld then "*" else "") ++ "\n")
    return 0
  else
    let results ← names.mapM refind
    return if results.all id then 0 else 1

end PacketFilter.Shell.Builtin
