import PacketFilter.Command
import PacketFilter.Json
import PacketFilter.Json.Reader
import PacketFilter.System.Document

/-! # Configuration

The configuration says which rule files to use, where the programs of the packet filter are, how rules are
saved, and whether runs are logged. Every field has a default; a configuration that cannot be read says
nothing. -/

namespace PacketFilter

/-- A configuration. -/
structure Config where
  /-- The file of rules before the declared ones. -/
  preFile : String := "/etc/iptsync/pre.iptables"
  /-- The file of rules after the declared ones. -/
  postFile : String := "/etc/iptsync/post.iptables"
  /-- The directory of the programs; without one they are looked up by name. -/
  directory : Option String := none
  /-- The command that saves the rules; without one the system decides. -/
  persistCommand : Option (List String) := none
  /-- Whether runs are logged. -/
  audit : Bool := true
deriving DecidableEq

namespace Config

/-- The fields of a configuration, in order. -/
def fieldNames : List String :=
  ["pre_file", "post_file", "iptables_dir", "persist_command", "audit"]

/-- The configuration that a record describes. Fields of other names say nothing. -/
def ofJson? (v : Json) : Option Config := do
  let fields ← Json.fields? fieldNames true v
  let default : Config := {}
  return {
    preFile := ← Json.fieldD fields "pre_file" default.preFile Json.asText?
    postFile := ← Json.fieldD fields "post_file" default.postFile Json.asText?
    directory := ← Json.fieldD fields "iptables_dir" none (Json.asOptional? Json.asText?)
    persistCommand :=
      ← Json.fieldD fields "persist_command" none (Json.asOptional? (Json.asList? Json.asText?))
    audit := ← Json.fieldD fields "audit" true Json.asBool? }

/-- The configuration that a document holds, or the default one. -/
def load (document : Document) : Config :=
  match document.content with
  | .ok text => ((Json.ofText? text).bind ofJson?).getD {}
  | .error _ => {}

/-- The path of one of the programs. -/
def program (c : Config) (name : String) : String :=
  match c.directory with
  | some directory => joinPath directory name
  | none => name

/-- The command that saves the rules, where `detected` is the one of the system. -/
def savingCommand? (c : Config) (detected : Option Invocation) : Option Invocation :=
  match c.persistCommand with
  | some argv => Invocation.ofList? argv
  | none => detected

end Config

end PacketFilter
