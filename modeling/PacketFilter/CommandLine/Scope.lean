import PacketFilter.Address

/-! # Verbs and parameters

The arguments of the program come in two parts: those before the verb, which belong to the program, and those after it,
which belong to the verb. A `Scope` is one of these parts, and a `Parameter` is what its arguments may set: options with
a value, flags, and words that stand for themselves. -/

namespace PacketFilter

/-- What an argument may set. -/
inductive Parameter where
  /-- The file with the declared rules. -/
  | manifest
  | dryRun
  | config
  /-- The file of rules before the declared ones. -/
  | pre
  /-- The file of rules after the declared ones. -/
  | post
  | addressMode
  | verbose
  | quiet
  | help
  | version
  /-- The words that help is asked about. -/
  | topics
deriving DecidableEq

namespace Parameter

def long? : Parameter → Option String
  | dryRun => some "dry-run"
  | config => some "config"
  | pre => some "pre"
  | post => some "post"
  | addressMode => some "address-mode"
  | verbose => some "verbose"
  | quiet => some "quiet"
  | help => some "help"
  | version => some "version"
  | manifest | topics => none

def short? : Parameter → Option Char
  | verbose => some 'v'
  | quiet => some 'q'
  | help => some 'h'
  | version => some 'V'
  | _ => none

/-- What stands for the value of an option. -/
def value? : Parameter → Option String
  | config | pre | post => some "PATH"
  | addressMode => some "MODE"
  | _ => none

/-- Whether a parameter is set by a word alone. -/
def isWord (p : Parameter) : Bool :=
  p.long?.isNone

/-- A parameter as it is written in descriptions. -/
def label (p : Parameter) : String :=
  match p.long?, p.value? with
  | some name, some value => "--" ++ name ++ " <" ++ value ++ ">"
  | some name, none => "--" ++ name
  | none, _ => if p = topics then "[COMMAND]..." else "<MANIFEST>"

/-- What a parameter is for. -/
def about : Parameter → String
  | manifest => "JSON array of rule specs"
  | dryRun => "Report the commands without running them"
  | config => "Config file (default: $XDG_CONFIG_HOME/iptsync/config.json)"
  | pre => "Rules placed before the declared rules of each table"
  | post => "Rules placed after the declared rules of each table"
  | addressMode =>
    "Address rendering (cidr or legacy); probed from `iptables --version` if unset"
  | verbose => "Debug logging"
  | quiet => "Warnings and errors only"
  | help => "Print help"
  | version => "Print version"
  | topics => "Print help for the subcommand(s)"

def shared : List Parameter :=
  [config, pre, post, addressMode, verbose, quiet]

end Parameter

/-- What the program can do. -/
inductive Verb where
  | apply | check | compare | show | version | help
deriving DecidableEq

namespace Verb

/-- All verbs, as they are listed. -/
def all : List Verb := [.apply, .check, .compare, .show, .version, .help]

def name : Verb → String
  | .apply => "apply"
  | .check => "check"
  | .compare => "diff"
  | .show => "show"
  | .version => "version"
  | .help => "help"

def ofName? (s : String) : Option Verb :=
  all.find? fun v => v.name == s

/-- What a verb does. -/
def about : Verb → String
  | .apply => "Converge the live firewall to a rule manifest"
  | .check => "Compile a manifest and print the ordered rule set"
  | .compare => "Show a unified diff of live vs declared rules"
  | .show => "Print the live rules as JSON"
  | .version => "Print build information"
  | .help => "Print this message or the help of the given subcommand(s)"

def parameters : Verb → List Parameter
  | .apply => [.manifest, .dryRun] ++ Parameter.shared ++ [.help]
  | .check | .compare => .manifest :: Parameter.shared ++ [.help]
  | .show | .version => Parameter.shared ++ [.help]
  | .help => [.topics]

end Verb

/-- A part of the arguments. -/
inductive Scope where
  /-- The arguments before the verb. -/
  | program
  /-- The arguments after a verb. -/
  | verb (v : Verb)
deriving DecidableEq

namespace Scope

/-- How a part of the arguments begins. -/
def label : Scope → String
  | program => "iptsync"
  | verb v => "iptsync " ++ v.name

def parameters : Scope → List Parameter
  | program => Parameter.shared ++ [.help, .version]
  | verb v => v.parameters

def longs (s : Scope) : List String :=
  s.parameters.filterMap Parameter.long?

/-- The parameter that a word sets, if there is one. -/
def word? (s : Scope) : Option Parameter :=
  s.parameters.find? Parameter.isWord

/-- The verb that a word chooses, where there is one to choose. -/
def verb? : Scope → String → Option Verb
  | program, word => Verb.ofName? word
  | verb _, _ => none

/-- How a part of the arguments is used: with the given options, or with any if none are given. -/
def usage (s : Scope) (used : List Parameter) : String :=
  let options := (used.filter fun p => ! p.isWord).eraseDups.map Parameter.label
  let any := if used.isEmpty && ! s.longs.isEmpty then ["[OPTIONS]"] else []
  let verb := if s = program then ["<COMMAND>"] else []
  " ".intercalate ("Usage:" :: s.label :: any ++ options ++ (s.word?.toList.map Parameter.label) ++ verb)

end Scope

end PacketFilter
