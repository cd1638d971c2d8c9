import PacketFilter.Table

/-! # Declared rules

A `Spec` is one rule as its author declares it: where it belongs, what it matches (with a `Protocol`), and where
matching packets go (the `Jump`), with the options of that jump. Nothing is checked here. -/

namespace PacketFilter

/-- A protocol that a rule can match. -/
inductive Protocol where
  | tcp | udp | icmp | esp | ah | vrrp | igmp
  /-- Every protocol: rule text says nothing about it. -/
  | all
deriving DecidableEq, Inhabited

namespace Protocol

/-- Every protocol a rule can name. -/
def every : List Protocol := [.tcp, .udp, .icmp, .esp, .ah, .vrrp, .igmp, .all]

def name : Protocol → String
  | tcp => "tcp"
  | udp => "udp"
  | icmp => "icmp"
  | esp => "esp"
  | ah => "ah"
  | vrrp => "vrrp"
  | igmp => "igmp"
  | all => "all"

def ofName? (s : String) : Option Protocol :=
  every.find? (·.name == s)

/-- Whether packets of a protocol have ports. -/
def hasPorts : Protocol → Bool
  | tcp | udp => true
  | _ => false

/-- Whether a listing names a match module of the same name after the protocol. -/
def hasModule : Protocol → Bool
  | all | vrrp | igmp => false
  | _ => true

end Protocol

/-- What happens to the packets that a rule matches. -/
inductive Jump where
  | accept | drop | reject | dnat | snat | log | masquerade | redirect
deriving DecidableEq, Inhabited

namespace Jump

def all : List Jump := [.accept, .drop, .reject, .dnat, .snat, .log, .masquerade, .redirect]

def name : Jump → String
  | accept => "ACCEPT"
  | drop => "DROP"
  | reject => "REJECT"
  | dnat => "DNAT"
  | snat => "SNAT"
  | log => "LOG"
  | masquerade => "MASQUERADE"
  | redirect => "REDIRECT"

def ofName? (s : String) : Option Jump :=
  all.find? (·.name == s)

end Jump

/-- The ports that a rule matches: one entry, or a list for the module that matches several. An entry is a
port or a range. -/
inductive Ports where
  | single (entry : String)
  | list (entries : List String)
deriving DecidableEq

/-- The entries of a choice of ports. -/
def Ports.entries : Ports → List String
  | single entry => [entry]
  | list entries => entries

/-- One declared rule. -/
structure Spec where
  name : String := ""
  chain : Chain := .input
  table : Table := .filter
  protocol : Protocol := .tcp
  jump : Jump := .accept
  /-- Every source gives a rule of its own. -/
  sources : List String := []
  destination : Option String := none
  sourcePorts : Option Ports := none
  destinationPorts : Option Ports := none
  inInterface : Option String := none
  outInterface : Option String := none
  toSource : Option String := none
  toDestination : Option String := none
  toPorts : Option String := none
  rejectWith : Option String := none
  logLevel : Option String := none
  logPrefix : Option String := none
  icmpType : Option String := none
  states : List String := []
  limit : Option String := none
  burst : Option String := none
deriving DecidableEq

end PacketFilter
