import PacketFilter.Address

/-! # Host names

A rule may name a host instead of an address. How host names are looked up is a parameter, a `Resolver`. `normalize`
gives the one text of a host, address or network, and `normalizeListed` does the same for what stands in a listing,
where no host names occur. -/

/-! ## Lookups

`Resolver.literal` answers the names that need no name server: `localhost`, addresses written with fewer or with octal
and hexadecimal parts, and addresses of the other family, which are no answer here. Such an address may name the link it
belongs to, its zone, behind a percent sign. -/

namespace PacketFilter

/-- What is known about a host name. -/
inductive Lookup where
  /-- The host has this address. -/
  | found (address : Address)
  /-- The host has addresses of the other family only. -/
  | otherFamily
  /-- The host cannot be looked up. -/
  | unknown (reason : String)
deriving DecidableEq

/-- How host names are looked up. -/
abbrev Resolver := String → Lookup

namespace Resolver

/-! ### Addresses with unusual parts -/

/-- The value of a digit in bases up to sixteen. -/
def digitValue? (c : Char) : Option Nat :=
  if c.isDigit then some (c.toNat - 48)
  else if 'a' ≤ c ∧ c ≤ 'f' then some (c.toNat - 87)
  else if 'A' ≤ c ∧ c ≤ 'F' then some (c.toNat - 55)
  else none

/-- The number that digits below `base` write. -/
def inBase? (base : Nat) (cs : List Char) : Option Nat :=
  if cs.isEmpty then none
  else cs.foldlM (fun n c => do
    let d ← digitValue? c
    if d < base then some (base * n + d) else none) 0

/-- A number that is hexadecimal after `0x`, octal after `0` and decimal otherwise. -/
def part? : List Char → Option Nat
  | '0' :: 'x' :: cs => inBase? 16 cs
  | '0' :: 'X' :: cs => inBase? 16 cs
  | '0' :: cs => if cs.isEmpty then some 0 else inBase? 8 cs
  | cs => inBase? 10 cs

/-- The number whose octets are `parts`, all but the last of which give one octet each; the last gives the
`octets` that remain. -/
def joinParts? (octets : Nat) (acc : Nat) : List Nat → Option Nat
  | [] => none
  | [last] => if last < Nat.pow 256 octets then some (acc * Nat.pow 256 octets + last) else none
  | part :: parts =>
    if part < 256 ∧ 1 < octets then joinParts? (octets - 1) (acc * 256 + part) parts else none

/-- The address that one to four numbers between points write; the last one fills the octets that the
others leave. -/
def shortForm? (s : String) : Option Address := do
  let parts ← (Text.splitAt (· == '.') s.toList).mapM part?
  let n ← joinParts? 4 0 parts
  if h : n < 4294967296 then some ⟨n, h⟩ else none

/-! ### Addresses of the other family -/

/-- One to four hexadecimal digits. -/
def isGroup (cs : List Char) : Bool :=
  ! cs.isEmpty && cs.length ≤ 4 && cs.all fun c => (digitValue? c).isSome

/-- How many groups of sixteen bits the pieces between colons give. If `dotted`, the last piece may be a
dotted quad, which counts for two. -/
def groups? (dotted : Bool) : List (List Char) → Option Nat
  | [] => some 0
  | [last] =>
    if isGroup last then some 1
    else if dotted && (Address.ofText? (String.ofList last)).isSome then some 2 else none
  | group :: rest => if isGroup group then (groups? dotted rest).map (· + 1) else none

/-- The parts before and after the first pair of colons. -/
def cutColons : List Char → Option (List Char × List Char)
  | ':' :: ':' :: cs => some ([], cs)
  | c :: cs => (cutColons cs).map fun (before, after) => (c :: before, after)
  | [] => none

/-- The groups of one side of a pair of colons, where nothing at all is no group. -/
def sideGroups? (dotted : Bool) (cs : List Char) : Option Nat :=
  if cs.isEmpty then some 0 else groups? dotted (Text.splitAt (· == ':') cs)

/-- Whether `cs` writes an address of eight groups, or of at most seven with a pair of colons for the zero
groups left out. -/
def isLongAddress (cs : List Char) : Bool :=
  match cutColons cs with
  | none => groups? true (Text.splitAt (· == ':') cs) == some 8
  | some (before, after) =>
    match sideGroups? false before, sideGroups? true after with
    | some m, some n => m + n ≤ 7
    | _, _ => false

def maxLink : Nat := 4294967295

/-- The only link that every machine has. -/
def loopback : List Char := ['l', 'o']

/-- Whether an address is only good on one link: its first ten bits are those of `fe80`, or it is a group of
the nodes on a link (`ff02`) or on one node (`ff01`). -/
def isLinkLocal (cs : List Char) : Bool :=
  match inBase? 16 (cs.takeWhile (· != ':')) with
  | none => false
  | some first =>
    first / 64 == 0x3FA || (first / 256 == 0xFF && (first % 16 == 1 || first % 16 == 2))

/-- Whether a zone names a link: by its number, or by its name if the address is good on one link only. -/
def isZone (address zone : List Char) : Bool :=
  (isLinkLocal address && zone == loopback) ||
    (Text.Decimal.isNumeral zone && Text.Decimal.value zone ≤ maxLink)

/-- Whether `s` writes an address of the other family, alone or with its zone. -/
def isOtherFamily (s : String) : Bool :=
  let address := s.toList.takeWhile (· != '%')
  isLongAddress address &&
    match s.toList.dropWhile (· != '%') with
    | [] => true
    | _ :: zone => isZone address zone

/-- What is said about a name that needs a name server. -/
def unansweredReason : String :=
  "failed to lookup address information: Name or service not known"

/-- What is said about a name with a zero byte in it. -/
def zeroReason : String := "file name contained an unexpected NUL byte"

/-- Looks up what needs no name server. Host names compare without regard to case. -/
def literal : Resolver := fun host =>
  match Address.ofText? host with
  | some x => .found x
  | none =>
    if isOtherFamily host then .otherFamily
    else match shortForm? host with
      | some x => .found x
      | none =>
        if host.toList.map Char.toLower = "localhost".toList then
          .found (Address.ofOctets 127 0 0 1)
        else .unknown (if host.toList.contains '\x00' then zeroReason else unansweredReason)

end Resolver

/-! ## Normal texts -/

/-- The address of a host: a dotted quad stands for itself, other names are looked up. -/
def hostAddress (resolve : Resolver) (host : String) : Except AddressError Address :=
  match Address.ofText? host with
  | some x => .ok x
  | none =>
    match resolve host with
    | .found x => .ok x
    | .otherFamily => .error (.noSuchFamily host)
    | .unknown reason => .error (.unknownHost host reason)

/-- The network that a value of a rule names: a network, or one host. -/
def networkOf (resolve : Resolver) (value : String) : Except AddressError Network :=
  if value.toList.contains '/' then Network.ofText? value
  else (hostAddress resolve value).map Network.host

/-- The network that a value in a listing names: a network, or one address. -/
def listedNetwork (value : String) : Except AddressError Network :=
  if value.toList.contains '/' then Network.ofText? value
  else match Address.ofText? value with
    | some x => .ok (Network.host x)
    | none => .error (.malformedAddress value)

/-- The one text of the network that a value of a rule names. -/
def normalize (resolve : Resolver) (mode : AddressMode) (value : String) :
    Except AddressError String :=
  (networkOf resolve value).map (Network.render mode)

/-- The one text of the network that a value in a listing names. -/
def normalizeListed (mode : AddressMode) (value : String) : Except AddressError String :=
  (listedNetwork value).map (Network.render mode)

end PacketFilter
