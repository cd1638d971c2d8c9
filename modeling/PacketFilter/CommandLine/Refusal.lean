import PacketFilter.CommandLine.Scope

/-! # Refused arguments and help

Why arguments are refused, and what is said about it: the fault, what may have been meant, how the arguments are used,
and where there is help. A page of help says what a part of the arguments does, how it is used, and what there is to
choose. -/

namespace PacketFilter

/-- What may have been meant. -/
inductive Tip where
  | similarOption (name : String)
  | similarVerbs (names : List String)
  /-- An option of this name belongs to a verb. -/
  | optionOf (v : Verb) (name : String)
  /-- The argument can be a word. -/
  | asWord (arg : String)
  /-- The argument is a verb, but stands behind two hyphens. -/
  | asVerb (arg : String)
deriving DecidableEq

/-- Names in quotes. -/
def quotedNames (names : List String) : String :=
  ", ".intercalate (names.map fun name => "'" ++ name ++ "'")

def Tip.text : Tip → String
  | similarOption name => "a similar argument exists: '--" ++ name ++ "'"
  | similarVerbs [name] => "a similar subcommand exists: '" ++ name ++ "'"
  | similarVerbs names => "some similar subcommands exist: " ++ quotedNames names
  | optionOf v name => "'" ++ v.name ++ " --" ++ name ++ "' exists"
  | asWord arg => "to pass '" ++ arg ++ "' as a value, use '-- " ++ arg ++ "'"
  | asVerb arg => "subcommand '" ++ arg ++ "' exists; to use it, remove the '--' before it"

/-- What is wrong with arguments. -/
inductive Fault where
  | unexpected (arg : String) (tips : List Tip)
  | unknownVerb (word : String) (similar : List String)
  | noVerb
  /-- A flag has a value. -/
  | unexpectedValue (value : String) (p : Parameter)
  | noValue (p : Parameter)
  /-- A value is none of the names that there are. -/
  | unknownName (value : String) (p : Parameter)
  | repeated (p : Parameter)
  | conflicting (p q : Parameter)
  | missing (p : Parameter)
deriving DecidableEq

namespace Fault

/-- What is said about a fault. -/
def message : Fault → List String
  | unexpected arg _ => ["unexpected argument '" ++ arg ++ "' found"]
  | unknownVerb word _ => ["unrecognized subcommand '" ++ word ++ "'"]
  | noVerb =>
    ["'" ++ Scope.program.label ++ "' requires a subcommand but one was not provided",
      "  [subcommands: " ++ ", ".intercalate (Verb.all.map Verb.name) ++ "]"]
  | unexpectedValue value p =>
    ["unexpected value '" ++ value ++ "' for '" ++ p.label ++ "' found; no more were expected"]
  | noValue p => ["a value is required for '" ++ p.label ++ "' but none was supplied"]
  | unknownName value p =>
    ["invalid value '" ++ value ++ "' for '" ++ p.label ++ "': Matching variant not found"]
  | repeated p => ["the argument '" ++ p.label ++ "' cannot be used multiple times"]
  | conflicting p q => ["the argument '" ++ p.label ++ "' cannot be used with '" ++ q.label ++ "'"]
  | missing p => ["the following required arguments were not provided:", "  " ++ p.label]

/-- What may have been meant instead. -/
def tips : Fault → List Tip
  | unexpected _ tips => tips
  | unknownVerb _ similar => if similar.isEmpty then [] else [.similarVerbs similar]
  | _ => []

/-- Whether a fault lies in a value alone, so that it does not help to say how the arguments are used. -/
def isOfValue : Fault → Bool
  | noValue _ | unknownName _ _ => true
  | _ => false

end Fault

/-- A fault in a part of the arguments, where the given options may be used. -/
structure Refusal where
  scope : Scope
  fault : Fault
  used : List Parameter := []
deriving DecidableEq

/-- What is said about refused arguments. -/
def Refusal.lines (r : Refusal) : List String :=
  let tips := r.fault.tips.map fun tip => "  tip: " ++ tip.text
  let parts :=
    [tips, if r.fault.isOfValue then [] else [r.scope.usage r.used],
      if Parameter.help ∈ r.scope.parameters then ["For more information, try '--help'."] else []]
  match r.fault.message with
  | [] => []
  | first :: more =>
    ("error: " ++ first) :: more ++ (parts.filter (! ·.isEmpty)).flatMap fun part => "" :: part

/-- A text with spaces behind it, so that it has at least the given width. -/
def padded (width : Nat) (s : String) : String :=
  s ++ String.ofList (List.replicate (width - s.length) ' ')

/-- A titled list of names with what they mean, in two columns. -/
def columns (title : String) (entries : List (String × String)) : List String :=
  if entries.isEmpty then []
  else
    let width := (entries.map fun (name, _) => name.length).foldl max 0
    "" :: (title ++ ":") :: entries.map fun (name, about) => "  " ++ padded (width + 2) name ++ about

/-- An option as it stands in a list, with its letter if it has one. -/
def Parameter.entry (p : Parameter) : String :=
  (match p.short? with
    | some c => "-" ++ c.toString ++ ", "
    | none => "    ") ++ p.label

namespace Scope

/-- What is done. -/
def about : Scope → String
  | program => "Declarative iptables rule convergence"
  | verb v => v.about

/-- What a word means; only where rules are applied there is something to say about it. -/
def aboutWord (s : Scope) (p : Parameter) : String :=
  if s = verb .check ∨ s = verb .compare then "" else p.about

/-- The options, as they are listed. -/
def options (s : Scope) : List Parameter :=
  [.config, .dryRun, .pre, .post, .addressMode, .verbose, .quiet, .help, .version].filter
    (s.parameters.contains ·)

def page (s : Scope) : List String :=
  [s.about, "", s.usage []] ++
    columns "Commands" (if s = program then Verb.all.map fun v => (v.name, v.about) else []) ++
    columns "Arguments" (s.word?.toList.map fun p => (p.label, s.aboutWord p)) ++
    columns "Options" (s.options.map fun p => (p.entry, p.about))

end Scope

end PacketFilter
