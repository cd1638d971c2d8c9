/-! # Flags of rule text

The options that rules are written with. Every flag has the spelling that listings use (`Flag.text`) and
some have longer ones; `Flag.ofText?` reads all of them (`ofText?_eq_some_iff`). -/

namespace PacketFilter

/-- An option of rule text that takes a value. -/
inductive Flag where
  | append | delete | table | source | destination | inInterface | outInterface | protocol | module
  | jump | sourcePort | sourcePorts | destinationPort | destinationPorts | icmpType | state | comment
  | limit | limitBurst | toDestination | toSource | toPorts | rejectWith | logLevel | logPrefix
deriving DecidableEq

namespace Flag

def all : List Flag :=
  [append, delete, table, source, destination, inInterface, outInterface, protocol, module, jump,
    sourcePort, sourcePorts, destinationPort, destinationPorts, icmpType, state, comment, limit,
    limitBurst, toDestination, toSource, toPorts, rejectWith, logLevel, logPrefix]

/-- The spelling of a flag in a listing. -/
def text : Flag → String
  | append => "-A"
  | delete => "-D"
  | table => "-t"
  | source => "-s"
  | destination => "-d"
  | inInterface => "-i"
  | outInterface => "-o"
  | protocol => "-p"
  | module => "-m"
  | jump => "-j"
  | sourcePort => "--sport"
  | sourcePorts => "--sports"
  | destinationPort => "--dport"
  | destinationPorts => "--dports"
  | icmpType => "--icmp-type"
  | state => "--state"
  | comment => "--comment"
  | limit => "--limit"
  | limitBurst => "--limit-burst"
  | toDestination => "--to-destination"
  | toSource => "--to-source"
  | toPorts => "--to-ports"
  | rejectWith => "--reject-with"
  | logLevel => "--log-level"
  | logPrefix => "--log-prefix"

/-- The longer spellings of a flag. -/
def aliases : Flag → List String
  | append => ["--append"]
  | delete => ["--delete"]
  | table => ["--table"]
  | source => ["--source", "--src"]
  | destination => ["--destination", "--dst"]
  | inInterface => ["--in-interface"]
  | outInterface => ["--out-interface"]
  | protocol => ["--protocol"]
  | module => ["--match"]
  | jump => ["--jump"]
  | sourcePort => ["--source-port"]
  | sourcePorts => ["--source-ports"]
  | destinationPort => ["--destination-port"]
  | destinationPorts => ["--destination-ports"]
  | _ => []

/-- Every spelling of a flag. -/
def spellings (f : Flag) : List String :=
  f.text :: f.aliases

def ofText? (s : String) : Option Flag :=
  all.find? fun f => f.spellings.contains s

theorem mem_all (f : Flag) : f ∈ all := by cases f <;> decide

theorem ofText?_spelling : ∀ f ∈ all, ∀ s ∈ f.spellings, ofText? s = some f := by decide

/-- A text spells a flag exactly if it is one of the spellings of that flag. -/
theorem ofText?_eq_some_iff {s : String} {f : Flag} : ofText? s = some f ↔ s ∈ f.spellings := by
  constructor
  · intro h
    have := List.find?_some h
    simpa using this
  · intro h
    exact ofText?_spelling f (mem_all f) s h

theorem ofText?_text (f : Flag) : ofText? f.text = some f :=
  ofText?_eq_some_iff.mpr (List.mem_cons_self ..)

/-- Whether the value of a flag is written in quotes whatever it holds. -/
def quotesValue : Flag → Bool
  | comment | logPrefix => true
  | _ => false

theorem any_quotesValue_iff {s : String} :
    (ofText? s).any quotesValue = true ↔ s = "--comment" ∨ s = "--log-prefix" := by
  constructor
  · intro h
    have hspellings : ∀ f ∈ all, f.quotesValue = true → f.spellings ⊆ ["--comment", "--log-prefix"] := by decide
    obtain ⟨f, hf, hq⟩ := (Option.any_eq_true _ _).mp h
    have := hspellings f (mem_all f) hq (ofText?_eq_some_iff.mp hf)
    simpa using this
  · rintro (rfl | rfl) <;> decide

end Flag

end PacketFilter
