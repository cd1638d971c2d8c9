import PacketFilter.Text.Decimal
import PacketFilter.Text.Line

/-! # Addresses and networks

An IPv4 `Address` is a number of 32 bits, of which there are 4294967296. Its text is the dotted quad: four octets in
decimal with no leading zeros. A `Network` is a block of addresses that share their first `length` bits.
`Network.ofText?` reads `address/length` and `address/netmask`; `Network.render` writes the block in one of the two
forms that a listing uses (`AddressMode`), so that equal blocks have equal text. -/

namespace PacketFilter

/-- An IPv4 address, most significant octet first. -/
structure Address where
  toNat : Nat
  toNat_lt : toNat < 4294967296
deriving DecidableEq

namespace Address

/-- The address with the given octets. -/
def ofOctets (a b c d : Fin 256) : Address where
  toNat := ((a.val * 256 + b.val) * 256 + c.val) * 256 + d.val
  toNat_lt := by have := a.isLt; have := b.isLt; have := c.isLt; have := d.isLt; omega

def octets (x : Address) : List Nat :=
  [x.toNat / 16777216, x.toNat / 65536 % 256, x.toNat / 256 % 256, x.toNat % 256]

/-- The dotted quad of an address. -/
def toText (x : Address) : String :=
  ".".intercalate (x.octets.map toString)

/-- A decimal octet: one to three digits, none of them a leading zero, at most 255. -/
def octet? (cs : List Char) : Option (Fin 256) :=
  if Text.Decimal.isNumeral cs && cs.length ≤ 3 && (cs.length == 1 || cs.head? != some '0') then
    if h : Text.Decimal.value cs < 256 then some ⟨Text.Decimal.value cs, h⟩ else none
  else none

/-- The address that a dotted quad writes. -/
def ofText? (s : String) : Option Address :=
  match Text.splitAt (· == '.') s.toList with
  | [a, b, c, d] => do return ofOctets (← octet? a) (← octet? b) (← octet? c) (← octet? d)
  | _ => none

end Address

/-- Why a text names no address or network. -/
inductive AddressError where
  /-- Nothing after the address says how long the network is. -/
  | missingMask (value : String)
  /-- The address is no dotted quad. -/
  | malformedAddress (text : String)
  /-- The netmask is no dotted quad. -/
  | malformedNetmask (text : String)
  /-- The one bits of the netmask do not all come first. -/
  | scatteredNetmask (text : String)
  /-- The length is no number below 256. -/
  | malformedLength (text : String)
  /-- The length is greater than 32. -/
  | lengthTooBig (value : String)
  /-- The host name cannot be looked up. -/
  | unknownHost (host reason : String)
  /-- The host has addresses, but none of this kind. -/
  | noSuchFamily (host : String)
deriving DecidableEq

/-- What is said about a text that names no address or network. -/
def AddressError.message : AddressError → String
  | missingMask value => "missing mask in '" ++ value ++ "'"
  | malformedAddress text => "invalid address '" ++ text ++ "'"
  | malformedNetmask text => "invalid netmask '" ++ text ++ "'"
  | scatteredNetmask text => "bad netmask bit pattern '" ++ text ++ "'"
  | malformedLength text => "invalid prefix length '" ++ text ++ "'"
  | lengthTooBig value => "invalid network '" ++ value ++ "': invalid prefix"
  | unknownHost host reason => "cannot resolve '" ++ host ++ "': " ++ reason
  | noSuchFamily host => "'" ++ host ++ "' has no IPv4 address"

/-- How many addresses share their first `length` bits. -/
def blockSize (length : Nat) : Nat := Nat.pow 2 (32 - length)

theorem blockSize_pos (length : Nat) : 0 < blockSize length := Nat.two_pow_pos _

/-- The addresses whose first `length` bits are those of `address`, which is the lowest of them. -/
structure Network where
  address : Address
  length : Nat
  length_le : length ≤ 32
  aligned : address.toNat % blockSize length = 0
deriving DecidableEq

namespace Network

/-- The netmask with `length` one bits in front. -/
def netmask (length : Nat) : Nat :=
  4294967296 - blockSize length

theorem netmask_lt (length : Nat) : netmask length < 4294967296 := by
  have := blockSize_pos length
  unfold netmask
  omega

/-- How many one bits a netmask has, if all of them come first. -/
def maskLength? (mask : Address) : Option Nat :=
  (List.range 33).find? (netmask · == mask.toNat)

theorem maskLength?_le {mask : Address} {n : Nat} (h : maskLength? mask = some n) : n ≤ 32 := by
  have := List.mem_of_find?_eq_some h
  rw [List.mem_range] at this
  omega

/-- The network of the given length around an address: the bits after the first `length` are cleared. -/
def around (x : Address) (length : Nat) (h : length ≤ 32) : Network where
  address :=
    { toNat := x.toNat / blockSize length * blockSize length
      toNat_lt := Nat.lt_of_le_of_lt (Nat.div_mul_le_self _ _) x.toNat_lt }
  length := length
  length_le := h
  aligned := Nat.mul_mod_left _ _

/-- The network that holds one address only. -/
def host (x : Address) : Network :=
  around x 32 (Nat.le_refl 32)

/-- The number of leading bits that a mask text gives: a dotted netmask or a decimal length. -/
def maskBits? (value mask : String) : Except AddressError { n : Nat // n ≤ 32 } :=
  if mask.toList.contains '.' then
    match Address.ofText? mask with
    | none => .error (.malformedNetmask mask)
    | some bits =>
      match h : maskLength? bits with
      | none => .error (.scatteredNetmask mask)
      | some n => .ok ⟨n, maskLength?_le h⟩
  else
    match Text.Decimal.readBounded? 255 mask.toList with
    | none => .error (.malformedLength mask)
    | some n => if h : n ≤ 32 then .ok ⟨n, h⟩ else .error (.lengthTooBig value)

/-- The network that `address/length` or `address/netmask` names. The address may be any of the block. -/
def ofText? (value : String) : Except AddressError Network :=
  match Text.cut '/' value with
  | none => .error (.missingMask value)
  | some (address, mask) =>
    match Address.ofText? address with
    | none => .error (.malformedAddress address)
    | some x => (maskBits? value mask).map fun n => around x n.val n.property

end Network

/-- How a listing writes networks. -/
inductive AddressMode where
  /-- The length after a slash, always: `10.0.0.0/24`, `10.0.0.1/32`. -/
  | cidr
  /-- The netmask after a slash, left out for a single address: `10.0.0.0/255.255.255.0`, `10.0.0.1`. -/
  | legacy
deriving DecidableEq, Inhabited

namespace AddressMode

def all : List AddressMode := [.cidr, .legacy]

def name : AddressMode → String
  | cidr => "cidr"
  | legacy => "legacy"

def ofName? (s : String) : Option AddressMode :=
  all.find? (·.name == s)

/-- The greatest number in a version. -/
def maxVersionPart : Nat := 4294967295

/-- The major and minor number in the first word of `s` that starts with `v`. -/
def version? (s : String) : Option (Nat × Nat) :=
  match (Text.fields s).findSome? (Text.afterStart? "v") with
  | none => none
  | some version =>
    match Text.splitAt (· == '.') version.toList with
    | major :: minor :: _ => do
      return (← Text.Decimal.readBounded? maxVersionPart major,
        ← Text.Decimal.readBounded? maxVersionPart minor)
    | _ => none

/-- The mode of the tool that describes its version as `s`: releases before 1.4 print netmasks, and a text
without a version is taken for a later one. -/
def ofVersion (s : String) : AddressMode :=
  match version? s with
  | some (major, minor) => if major < 1 || (major == 1 && minor < 4) then legacy else cidr
  | none => cidr

end AddressMode

/-- The text of a network in a listing. -/
def Network.render (mode : AddressMode) (n : Network) : String :=
  match mode with
  | .cidr => n.address.toText ++ "/" ++ toString n.length
  | .legacy =>
    if n.length = 32 then n.address.toText
    else n.address.toText ++ "/" ++ (Address.mk (netmask n.length) (netmask_lt _)).toText

end PacketFilter
