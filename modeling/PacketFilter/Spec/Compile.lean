import PacketFilter.Address.Host
import PacketFilter.Rule
import PacketFilter.Spec
import PacketFilter.Spec.Check

/-! # From declared rules to rule text

`Spec.compile` turns a declared rule into one rule for each of its sources, or one rule if it has none. The
clauses of a rule come in the order in which a listing writes them:

    -A CHAIN [-s SOURCE] [-d DESTINATION] [-i INTERFACE] [-o INTERFACE] [-p PROTOCOL [-m MODULE]]
      [source ports] [destination ports] [--icmp-type TYPE] [-m state --state STATES]
      -m comment --comment "NAME" [-m limit --limit RATE] [--limit-burst N] -j JUMP [options]

The first value that is not allowed, in the order of the checks, is what the rule is refused for. -/

namespace PacketFilter

/-- Why a declared rule has no rule text. -/
inductive CompileError where
  /-- It breaks a rule of the packet filter. -/
  | violation (v : Violation)
  /-- One of its addresses cannot be read. -/
  | address (e : AddressError)
deriving DecidableEq

namespace Spec

variable (s : Spec)

/-! ### Clauses -/

/-- The destination. -/
def destinationClauses (resolve : Resolver) (mode : AddressMode) :
    Except AddressError (List Clause) :=
  match s.destination with
  | none => .ok []
  | some value => (normalize resolve mode value).map fun text => [⟨.destination, text⟩]

/-- An interface, which the chain has to see. -/
def interfaceClause (flag : Flag) (seen : Bool) (unseen : Violation) :
    Option String → Except Violation (List Clause)
  | none => .ok []
  | some name => do
    require seen unseen
    Check.interface name
    return [⟨flag, name⟩]

/-- The interfaces that a packet came in and goes out by. -/
def interfaceClauses : Except Violation (List Clause) := do
  let ins ← interfaceClause .inInterface s.chain.seesInInterface .inInterfaceUnseen s.inInterface
  let outs ← interfaceClause .outInterface s.chain.seesOutInterface .outInterfaceUnseen s.outInterface
  return ins ++ outs

def protocolClauses : List Clause :=
  (if s.protocol = .all then [] else [⟨.protocol, s.protocol.name⟩]) ++
    (if s.protocol.hasModule then [.module s.protocol.name] else [])

/-- A choice of ports: one entry has the flag `single`, a list has the flag `several` and its own module. -/
def portsClause (field : String) (single several : Flag) :
    Option Ports → Except Violation (List Clause)
  | none => .ok []
  | some ports => do
    require s.protocol.hasPorts (.portsWithoutProtocol field)
    match ports with
    | .single entry =>
      Check.portEntry entry
      return [⟨single, entry⟩]
    | .list entries =>
      require (entries.length ≤ maxPortEntries) .tooManyPorts
      entries.forM Check.portEntry
      return [.module "multiport", ⟨several, ",".intercalate entries⟩]

/-- The ports that a packet comes from and goes to. -/
def portClauses : Except Violation (List Clause) := do
  let from_ ← s.portsClause "sport" .sourcePort .sourcePorts s.sourcePorts
  let to_ ← s.portsClause "dport" .destinationPort .destinationPorts s.destinationPorts
  return from_ ++ to_

/-- The type of a control message; a type that is set for another protocol is not looked at. -/
def icmpClauses : Except Violation (List Clause) :=
  if s.protocol = .icmp then
    match s.icmpType with
    | none => .ok [⟨.icmpType, "any"⟩]
    | some name =>
      match Icmp.code? name with
      | some code => .ok [⟨.icmpType, code⟩]
      | none => .error (.unknownIcmpType name)
  else .ok []

def stateClauses : Except Violation (List Clause) :=
  if s.states.isEmpty then .ok []
  else do
    let states ← Check.states s.states
    return [.module "state", ⟨.state, ",".intercalate states⟩]

/-- The name of the rule, as a comment. -/
def commentClauses : List Clause :=
  [.module "comment", ⟨.comment, Word.quote s.name⟩]

/-- The rate and how much it may be exceeded at once. -/
def limitClauses : Except Violation (List Clause) := do
  let rate ← match s.limit with
    | none => pure []
    | some limit => do
      Check.limit limit
      pure [Clause.module "limit", ⟨.limit, limit⟩]
  let burst ← match s.burst with
    | none => pure []
    | some burst => do
      Check.burst burst s.limit
      pure [Clause.mk .limitBurst burst]
  return rate ++ burst

/-- The jump belongs to the table `nat`. -/
def requireNat : Except Violation Unit :=
  require (s.table == .nat) (.jumpOutsideNat s.jump)

/-- An option that the jump cannot do without. -/
def requiredOption (flag : Flag) (field : String) : Option String → Except Violation (List Clause)
  | none => .error (.missingOption s.jump field)
  | some value => do
    Check.option field value
    return [⟨flag, value⟩]

/-- How many bytes of a log prefix are kept. -/
def maxLogPrefix : Nat := 27

/-- The longest part of `cs`, from its start, that takes at most `room` bytes. -/
def fitting : Nat → List Char → List Char
  | _, [] => []
  | room, c :: cs => if c.utf8Size ≤ room then c :: fitting (room - c.utf8Size) cs else []

/-- A log prefix in quotes, cut to the bytes that are kept and followed by a colon and a space. -/
def logPrefixValue (s : String) : String :=
  "\"" ++ String.ofList (fitting maxLogPrefix s.toList) ++ ": \""

/-- The options of a jump that writes log lines. -/
def logOptions : Except Violation (List Clause) := do
  let level ← match s.logLevel with
    | none => pure []
    | some level => do
      Check.option "log_level" level
      pure [Clause.mk .logLevel level]
  let start ← match s.logPrefix with
    | none => pure []
    | some start => do
      Check.logPrefix start
      pure [Clause.mk .logPrefix (logPrefixValue start)]
  return level ++ start

/-- How a packet is rejected if nothing else is said. -/
def defaultReject : String := "icmp-port-unreachable"

def jumpOptions : Except Violation (List Clause) :=
  match s.jump with
  | .dnat => do
    s.requireNat
    s.requiredOption .toDestination "todest" s.toDestination
  | .snat => do
    s.requireNat
    s.requiredOption .toSource "tosource" s.toSource
  | .redirect => s.requiredOption .toPorts "toports" s.toPorts
  | .masquerade => do
    s.requireNat
    return []
  | .reject => do
    let reject := s.rejectWith.getD defaultReject
    Check.option "reject" reject
    return [⟨.rejectWith, reject⟩]
  | .log => s.logOptions
  | .accept | .drop => .ok []

/-- The clauses that follow the destination. -/
def matchClauses : Except Violation (List Clause) := do
  let interfaces ← s.interfaceClauses
  let ports ← s.portClauses
  let icmp ← s.icmpClauses
  let states ← s.stateClauses
  let limits ← s.limitClauses
  let options ← s.jumpOptions
  return interfaces ++ s.protocolClauses ++ ports ++ icmp ++ states ++ s.commentClauses ++ limits ++
    ⟨.jump, s.jump.name⟩ :: options

/-! ### Rules -/

/-- The checks that come before any address is read. -/
def checkPlacement : Except Violation Unit := do
  Check.name s.name
  require (s.chain.isIn s.table) (.chainNotInTable s.chain s.table)

/-- The rule for one source, where no text stands for no source. -/
def ruleFor (clauses : List Clause) (source : Option String) : Rule where
  table := s.table
  chain := s.chain.name
  priority := s.chain.rank
  name := s.name
  source := source.getD ""
  text := ruleText s.chain.name ((source.map (Clause.mk .source)).toList ++ clauses)

/-- The sources that rules are made for: each normal address, or none at all. -/
def sourceChoices (sources : List String) : List (Option String) :=
  if sources.isEmpty then [none] else sources.map some

/-- The rules of a declared rule, one for each source. -/
def compile (resolve : Resolver) (mode : AddressMode) : Except CompileError (List Rule) := do
  s.checkPlacement.mapError .violation
  let sources ← (s.sources.mapM (normalize resolve mode)).mapError .address
  let destination ← (s.destinationClauses resolve mode).mapError .address
  let clauses ← s.matchClauses.mapError .violation
  return (sourceChoices sources).map (s.ruleFor (destination ++ clauses))

end Spec

end PacketFilter
