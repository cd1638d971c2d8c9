import PacketFilter.Json
import PacketFilter.Json.Reader
import PacketFilter.Spec
import PacketFilter.System.Document

/-! # Manifests

A manifest is a JSON array of declared rules. The fields of a rule are texts or numbers without sign and
fraction; sources and states may be one value or an array, and so may ports, for which that makes a
difference. Null and empty texts are no values, except in a list of ports. No two rules may share a name.

Every manifest that is accepted is in normal form: no value of a rule is an empty text, and no list of ports
is empty. -/

namespace PacketFilter

/-- Why there is no manifest. -/
inductive ManifestError where
  | notFound (path : String)
  | duplicateName (name : String)
  | io (reason : String)
  /-- It is no JSON text, or it does not say what rules there are. -/
  | invalid
deriving DecidableEq

/-- What is said about a manifest that cannot be had. -/
def ManifestError.message : ManifestError → String
  | notFound path => "Manifest not found: " ++ path
  | duplicateName name => "Duplicate rule name '" ++ name ++ "'"
  | io reason => "I/O error: " ++ reason
  | invalid => "Invalid manifest"

namespace Manifest

/-! ### Values -/

/-- The first number that is too great for a value: a value has 64 bits. -/
def numberLimit : Int := 18446744073709551616

/-- A text, or a number that is written out. -/
def scalar? : Json → Option String
  | .str s => some s
  | .int n => if 0 ≤ n ∧ n < numberLimit then some (toString n) else none
  | _ => none

/-- One value, or a list of values. -/
inductive OneOrMany where
  | one (value : String)
  | many (values : List String)

/-- One value or an array of values. -/
def oneOrMany? : Json → Option OneOrMany
  | .arr items => (items.mapM scalar?).map .many
  | v => (scalar? v).map .one

def nonempty? (s : String) : Option String :=
  if s.toList.isEmpty then none else some s

def option? (v : Json) : Option (Option String) :=
  (Json.asOptional? scalar? v).map fun value => value.bind nonempty?

/-- The values of a list, without the empty ones. -/
def OneOrMany.texts : OneOrMany → List String
  | one value => [value].filterMap nonempty?
  | many values => values.filterMap nonempty?

def list? (v : Json) : Option (List String) :=
  (Json.asOptional? oneOrMany? v).map fun values => (values.map OneOrMany.texts).getD []

/-- A choice of ports; an empty text and an empty list choose none. -/
def OneOrMany.ports : OneOrMany → Option Ports
  | one value => (nonempty? value).map .single
  | many values => if values.isEmpty then none else some (.list values)

/-- A choice of ports that may be missing. -/
def ports? (v : Json) : Option (Option Ports) :=
  (Json.asOptional? oneOrMany? v).map fun values => values.bind OneOrMany.ports

/-! ### Rules -/

/-- The fields of a declared rule, in order. -/
def fieldNames : List String :=
  ["name", "chain", "table", "proto", "jump", "source", "destination", "sport", "dport", "iniface",
    "outiface", "tosource", "todest", "toports", "reject", "log_level", "log_prefix", "icmp",
    "state", "limit", "burst"]

/-- The declared rule that a record describes. -/
def spec? (v : Json) : Option Spec := do
  let fields ← Json.fields? fieldNames false v
  let text (name : String) : Option (Option String) := Json.fieldD fields name none option?
  return {
    name := ← Json.field? fields "name" Json.asText?
    chain := ← Json.fieldD fields "chain" .input (Json.asName? Chain.ofName?)
    table := ← Json.fieldD fields "table" .filter (Json.asName? Table.ofName?)
    protocol := ← Json.fieldD fields "proto" .tcp (Json.asName? Protocol.ofName?)
    jump := ← Json.fieldD fields "jump" .accept (Json.asName? Jump.ofName?)
    sources := ← Json.fieldD fields "source" [] list?
    destination := ← text "destination"
    sourcePorts := ← Json.fieldD fields "sport" none ports?
    destinationPorts := ← Json.fieldD fields "dport" none ports?
    inInterface := ← text "iniface"
    outInterface := ← text "outiface"
    toSource := ← text "tosource"
    toDestination := ← text "todest"
    toPorts := ← text "toports"
    rejectWith := ← text "reject"
    logLevel := ← text "log_level"
    logPrefix := ← text "log_prefix"
    icmpType := ← text "icmp"
    states := ← Json.fieldD fields "state" [] list?
    limit := ← text "limit"
    burst := ← text "burst" }

/-- The rules that a JSON value declares. -/
def specs? (v : Json) : Option (List Spec) :=
  Json.asList? spec? v

/-- The first text of a list that stands in it before. `seen` has the texts that came earlier. -/
def firstRepeated (seen : List String) : List String → Option String
  | [] => none
  | s :: ss => if seen.contains s then some s else firstRepeated (s :: seen) ss

/-- The rules that a manifest declares. -/
def parse (text : String) : Except ManifestError (List Spec) :=
  match (Json.ofText? text).bind specs? with
  | none => .error .invalid
  | some specs =>
    match firstRepeated [] (specs.map Spec.name) with
    | some name => .error (.duplicateName name)
    | none => .ok specs

/-- The rules that the manifest at a path declares. -/
def load (path : String) (document : Document) : Except ManifestError (List Spec) :=
  match document with
  | .absent .missing => .error (.notFound path)
  | document =>
    match document.content with
    | .ok text => parse text
    | .error reason => .error (.io reason)

end Manifest

end PacketFilter
