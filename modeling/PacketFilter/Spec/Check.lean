import PacketFilter.Spec
import PacketFilter.Table
import PacketFilter.Text.Decimal
import PacketFilter.Text.Line

/-! # Checks of single values

Every value of a declared rule that ends up in rule text passes one of these checks first. What they refuse would change
the words of the text, or would be listed back in another form. A `Violation` is a way in which a declared rule can
break the rules of the packet filter. -/

namespace PacketFilter

/-- The connection states, in the order of a listing. -/
def connectionStates : List String := ["INVALID", "NEW", "RELATED", "ESTABLISHED"]

/-- The units of a rate. -/
def rateUnits : List String := ["sec", "min", "hour", "day"]

/-- How many entries a list of ports may have. -/
def maxPortEntries : Nat := 15

/-- Why a declared rule is refused. -/
inductive Violation where
  | emptyName
  | malformedName
  | chainNotInTable (chain : Chain) (table : Table)
  | inInterfaceUnseen
  | outInterfaceUnseen
  | emptyInterface
  | longInterface
  | reservedInterface
  | malformedInterface
  /-- The protocol has no ports. -/
  | portsWithoutProtocol (field : String)
  | tooManyPorts
  | malformedPort (entry : String)
  | portOutOfRange
  | portsDescending
  | unknownIcmpType (name : String)
  | unknownState
  | limitWithoutUnit
  | malformedLimit
  | unknownRateUnit
  | burstWithoutLimit
  | malformedBurst
  /-- The jump belongs to the table `nat`. -/
  | jumpOutsideNat (jump : Jump)
  | missingOption (jump : Jump) (field : String)
  | malformedOption (field : String)
  | malformedLogPrefix
deriving DecidableEq

/-- What is said about a violation. -/
def Violation.message : Violation → String
  | emptyName => "Rule name must not be empty"
  | malformedName =>
    "Not a valid rule name. Use ASCII alphanumerics, spaces, hyphens or underscores"
  | chainNotInTable chain table => chain.name ++ " cannot be used in table '" ++ table.name ++ "'"
  | inInterfaceUnseen => "--in-interface only applies to INPUT/FORWARD/PREROUTING"
  | outInterfaceUnseen => "--out-interface only applies to OUTPUT/FORWARD/POSTROUTING"
  | emptyInterface => "Interface name must not be empty"
  | longInterface => "Interface name too long (max 15 characters)"
  | reservedInterface => "Invalid interface name"
  | malformedInterface => "Interface name contains invalid characters"
  | portsWithoutProtocol field => "'" ++ field ++ "' only applies to tcp/udp"
  | tooManyPorts => "multiport module only accepts <= " ++ toString maxPortEntries ++ " ports"
  | malformedPort entry => "Invalid port '" ++ entry ++ "' (use numbers, not service names)"
  | portOutOfRange => "Port must be between 1 and 65535"
  | portsDescending => "Start port must be less than or equal to end port"
  | unknownIcmpType name => "unknown icmp type '" ++ name ++ "'"
  | unknownState =>
    "'state' accepts any of the following states: " ++ ", ".intercalate connectionStates
  | limitWithoutUnit =>
    "Please append a valid suffix (sec/min/hour/day) to the value passed to 'limit'"
  | malformedLimit => "'limit' values must be numeric"
  | unknownRateUnit => "Please use only sec/min/hour/day suffixes with 'limit'"
  | burstWithoutLimit => "'burst' makes no sense without 'limit'"
  | malformedBurst => "'burst' accepts only numeric values"
  | jumpOutsideNat jump => jump.name ++ " only applies to table 'nat'"
  | missingOption jump field => jump.name ++ " missing mandatory '" ++ field ++ "' parameter"
  | malformedOption field => "'" ++ field ++ "' must not contain whitespace or quotes"
  | malformedLogPrefix =>
    "'log_prefix' must not contain quotes, backslashes or control characters"

/-- Accepts if `condition` holds, and otherwise gives the violation. -/
def require (condition : Bool) (violation : Violation) : Except Violation Unit :=
  if condition then .ok () else .error violation

@[simp] theorem require_eq_ok_iff {condition : Bool} {v : Violation} {u : Unit} :
    require condition v = .ok u ↔ condition = true := by
  cases condition <;> simp [require]

end PacketFilter

namespace PacketFilter.Check

/-- ASCII letters and digits. -/
def isAlphanumeric (c : Char) : Bool :=
  c.isAlphanum

/-- The name of a rule: letters, digits, spaces, hyphens and underscores. -/
def name (s : String) : Except Violation Unit := do
  require (! s.toList.isEmpty) .emptyName
  require (s.toList.all fun c => isAlphanumeric c || c == ' ' || c == '-' || c == '_') .malformedName

/-- A port is not zero. -/
def port (n : Nat) : Except Violation Unit :=
  require (n != 0) .portOutOfRange

/-- The first port of a range is not greater than the last. -/
def portRange (first last : Nat) : Except Violation Unit := do
  port first
  port last
  require (first ≤ last) .portsDescending

/-- The number of a port. `entry` is the whole entry, for the violation. -/
def portNumber (entry : String) (digits : List Char) : Except Violation Nat :=
  match Text.Decimal.readBounded? 65535 digits with
  | some n => .ok n
  | none => .error (.malformedPort entry)

/-- A port, or the first and the last port of a range with a colon between them. -/
def portEntry (entry : String) : Except Violation Unit :=
  match Text.cutList ':' entry.toList with
  | some (first, last) => do
    let m ← portNumber entry first
    let n ← portNumber entry last
    portRange m n
  | none => do
    let n ← portNumber entry entry.toList
    port n

/-- The name of an interface without the plus sign that may stand at its end for all longer names. -/
def interfaceStem (s : String) : List Char :=
  if s.toList.getLast? = some '+' then s.toList.dropLast else s.toList

/-- The name of an interface: at most fifteen bytes of letters, digits, points, hyphens and underscores. -/
def interface (s : String) : Except Violation Unit := do
  require (! s.toList.isEmpty) .emptyInterface
  require (s.utf8ByteSize ≤ 15) .longInterface
  let stem := interfaceStem s
  require (stem != ['.'] && stem != ['.', '.']) .reservedInterface
  require (stem.all fun c => isAlphanumeric c || c == '.' || c == '-' || c == '_') .malformedInterface

/-- An option of a jump: no blanks and no quotes. -/
def option (field s : String) : Except Violation Unit :=
  require (! s.toList.any fun c => Text.isBlank c || c == '"' || c == '\'') (.malformedOption field)

/-- The prefix of log lines: no double quotes, no backslashes and no control characters. -/
def logPrefix (s : String) : Except Violation Unit :=
  require (! s.toList.any fun c => Text.isControl c || c == '"' || c == '\\') .malformedLogPrefix

/-- A rate: a number, a slash and a unit. -/
def limit (s : String) : Except Violation Unit :=
  match Text.cut '/' s with
  | none => .error .limitWithoutUnit
  | some (count, unit) => do
    require (Text.Decimal.isNumeral count.toList) .malformedLimit
    require (rateUnits.contains unit) .unknownRateUnit

/-- How much a rate may be exceeded at once: a number, and there is a rate. -/
def burst (s : String) (limit : Option String) : Except Violation Unit := do
  require limit.isSome .burstWithoutLimit
  require (Text.Decimal.isNumeral s.toList) .malformedBurst

/-- Connection states, in the order of a listing and without repetition. -/
def states (ss : List String) : Except Violation (List String) := do
  require (ss.all connectionStates.contains) .unknownState
  return connectionStates.filter ss.contains

end PacketFilter.Check

/-! ## Types of control messages

The names of ICMP types and the numbers that a listing writes for them. -/

namespace PacketFilter.Icmp

/-- The names of the types, each with its code in a listing. -/
def names : List (String × String) :=
  [("any", "any"), ("echo-reply", "0"), ("pong", "0"), ("destination-unreachable", "3"),
    ("network-unreachable", "3/0"), ("host-unreachable", "3/1"), ("protocol-unreachable", "3/2"),
    ("port-unreachable", "3/3"), ("fragmentation-needed", "3/4"), ("source-route-failed", "3/5"),
    ("network-unknown", "3/6"), ("host-unknown", "3/7"), ("network-prohibited", "3/9"),
    ("host-prohibited", "3/10"), ("TOS-network-unreachable", "3/11"),
    ("TOS-host-unreachable", "3/12"), ("communication-prohibited", "3/13"),
    ("host-precedence-violation", "3/14"), ("precedence-cutoff", "3/15"), ("source-quench", "4"),
    ("redirect", "5"), ("network-redirect", "5/0"), ("host-redirect", "5/1"),
    ("TOS-network-redirect", "5/2"), ("TOS-host-redirect", "5/3"), ("echo-request", "8"),
    ("ping", "8"), ("router-advertisement", "9"), ("router-solicitation", "10"),
    ("time-exceeded", "11"), ("ttl-exceeded", "11"), ("ttl-zero-during-transit", "11/0"),
    ("ttl-zero-during-reassembly", "11/1"), ("parameter-problem", "12"), ("ip-header-bad", "12/0"),
    ("required-option-missing", "12/1"), ("timestamp-request", "13"), ("timestamp-reply", "14"),
    ("address-mask-request", "17"), ("address-mask-reply", "18")]

/-- One to three digits. -/
def isNumber (cs : List Char) : Bool :=
  Text.Decimal.isNumeral cs && cs.length ≤ 3

/-- A type in numbers: `type` or `type/code`. -/
def isNumeric (s : String) : Bool :=
  match Text.cutList '/' s.toList with
  | none => isNumber s.toList
  | some (type, code) => isNumber type && isNumber code

/-- Whether two texts are equal but for the case of ASCII letters. -/
def sameName (s t : String) : Bool :=
  s.toList.map Char.toLower == t.toList.map Char.toLower

/-- The code of a type: numbers stand for themselves, names are looked up without regard to case. -/
def code? (s : String) : Option String :=
  if isNumeric s then some s
  else (names.find? fun entry => sameName entry.1 s).map Prod.snd

end PacketFilter.Icmp
