import PacketFilter.Address.Host
import PacketFilter.Rule.Word
import PacketFilter.Table

/-! # Live rules

What one line of a listing says about the rule it lists. Every flag that is known takes the next word as its
value; words that are no such flag say nothing, and a flag at the end of the line has no value. When a flag
comes twice, the later value counts. -/

namespace PacketFilter

/-- The attributes of a rule as it is listed. Attributes that a line does not mention are empty. -/
structure LiveRule where
  /-- The line itself. -/
  line : String
  table : Table
  chain : String := ""
  /-- The comment, which holds the name of a declared rule. -/
  name : String := ""
  protocol : String := "all"
  jump : String := ""
  source : Option String := none
  destination : Option String := none
  sourcePort : String := ""
  destinationPort : String := ""
  inInterface : String := ""
  outInterface : String := ""
  toDestination : String := ""
  toSource : String := ""
  toPorts : String := ""
  rejectWith : String := ""
  logLevel : String := ""
  logPrefix : String := ""
  icmpType : String := ""
  state : String := ""
  limit : String := ""
  burst : String := ""
deriving DecidableEq

namespace LiveRule

/-- The one text of an address in a listing; what is no address stays as it is. -/
def listedAddress (mode : AddressMode) (value : String) : String :=
  match normalizeListed mode value with
  | .ok text => text
  | .error _ => value

/-- A live rule with the value of one flag. -/
def set (mode : AddressMode) (r : LiveRule) (flag : Flag) (value : String) : LiveRule :=
  match flag with
  | .append | .delete => { r with chain := value }
  | .source => { r with source := some (listedAddress mode value) }
  | .destination => { r with destination := some (listedAddress mode value) }
  | .inInterface => { r with inInterface := value }
  | .outInterface => { r with outInterface := value }
  | .protocol => { r with protocol := value }
  | .jump => { r with jump := value }
  | .sourcePort | .sourcePorts => { r with sourcePort := value }
  | .destinationPort | .destinationPorts => { r with destinationPort := value }
  | .icmpType => { r with icmpType := value }
  | .state => { r with state := value }
  | .comment => { r with name := value }
  | .limit => { r with limit := value }
  | .limitBurst => { r with burst := value }
  | .toDestination => { r with toDestination := value }
  | .toSource => { r with toSource := value }
  | .toPorts => { r with toPorts := value }
  | .rejectWith => { r with rejectWith := value }
  | .logLevel => { r with logLevel := value }
  | .logPrefix => { r with logPrefix := value }
  | .module | .table => r

/-- The flags among some words with their values. A flag takes the next word, whatever it is. -/
def flagValues : List Word → List (Flag × String)
  | w :: value :: rest =>
    match w.flag? with
    | none => flagValues (value :: rest)
    | some flag => (flag, value.text) :: flagValues rest
  | _ => []

/-- The live rule that a line of a table lists. -/
def ofLine (mode : AddressMode) (table : Table) (line : String) : LiveRule :=
  (flagValues (Word.read line)).foldl (fun r (flag, value) => r.set mode flag value) { line, table }

end LiveRule

end PacketFilter
