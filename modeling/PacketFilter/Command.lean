import PacketFilter.Rule.Word
import PacketFilter.Table
import PacketFilter.Text.Line

/-! # Commands

The commands that change the live rules, or save them across restarts. `Command.text` is how a command shows in
messages, and `Command.arguments` is what the program that carries it out is called with. An `Invocation` is any program
with its arguments; `savingCommand?` finds the one that saves the live rules from the description that a system gives of
itself. -/

/-! ## Invocations of programs -/

namespace PacketFilter

/-- A program with its arguments. -/
structure Invocation where
  program : String
  args : List String
deriving DecidableEq

namespace Invocation

/-- A program and its arguments in one list; an empty list names no program. -/
def ofList? : List String → Option Invocation
  | [] => none
  | program :: args => some ⟨program, args⟩

/-- The program and its arguments in one list. -/
def toList (c : Invocation) : List String :=
  c.program :: c.args

/-- The program and its arguments, with a space before each argument. -/
def text (c : Invocation) : String :=
  Text.unwords c.toList

end Invocation

namespace SystemDescription

/-- A value without the quotes around it: any number of double quotes, then any number of single ones. -/
def unquoted (s : String) : String :=
  let cs := Text.trimWhile (· == '"') (Text.trimWhile Text.isBlank s.toList)
  String.ofList (Text.trimWhile (· == '\'') cs)

/-- The value of a key in a description of lines `KEY=value`. The first line for the key counts. -/
def value? (content key : String) : Option String :=
  (Text.lines content).findSome? fun line =>
    (Text.afterStart? (key ++ "=") line).map unquoted

/-- The command that saves the live rules on a given system. -/
def savingCommandFor? : String → Option Invocation
  | "rhel" | "centos" | "fedora" | "rocky" | "almalinux" | "amzn" =>
    some ⟨"service", ["iptables", "save"]⟩
  | "debian" | "ubuntu" => some ⟨"netfilter-persistent", ["save"]⟩
  | "arch" => some ⟨"iptables-save", ["-f", "/etc/iptables/iptables.rules"]⟩
  | "gentoo" => some ⟨"/etc/init.d/iptables", ["save"]⟩
  | _ => none

/-- The names of a system: its own, then those of the systems it is like. -/
def names (content : String) : List String :=
  (value? content "ID").toList ++ ((value? content "ID_LIKE").map Text.fields).getD []

/-- The command that saves the live rules, from the description of a system. -/
def savingCommand? (content : String) : Option Invocation :=
  (names content).findSome? savingCommandFor?

end SystemDescription

/-! ## Commands on live rules -/

/-- A command that changes the live rules or saves them. -/
inductive Command where
  /-- Puts a rule at the end of the chain that its text names. -/
  | append (table : Table) (rule : String)
  /-- Deletes the first rule with the arguments of a text; the text is the one that appends the rule. -/
  | delete (table : Table) (rule : String)
  /-- Deletes the rule at a position of a chain, from 1. -/
  | deleteAt (table : Table) (chain : String) (position : Nat)
  /-- Saves the live rules. -/
  | persist (call : Invocation)
deriving DecidableEq

namespace Command

/-- The arguments that append a rule to a table. -/
def appendArguments (table : Table) (rule : String) : List String :=
  "-t" :: table.name :: PacketFilter.arguments rule

/-- The arguments that delete a rule of a table by its text. -/
def deleteArguments (table : Table) (rule : String) : List String :=
  appendArguments table (deletion rule)

/-- The arguments that delete a rule of a table by its position in a chain. -/
def deleteAtArguments (table : Table) (chain : String) (position : Nat) : List String :=
  ["-t", table.name, "-D", chain, toString position]

/-- How a command shows in messages. -/
def text : Command → String
  | append table rule => "iptables -t " ++ table.name ++ " " ++ rule
  | delete table rule => "iptables -t " ++ table.name ++ " " ++ deletion rule
  | deleteAt table chain position =>
    "iptables -t " ++ table.name ++ " -D " ++ chain ++ " " ++ toString position
  | persist call => call.text

/-- What the program that carries out a command is called with; for a command that saves the rules, the
program itself comes first. -/
def arguments : Command → List String
  | append table rule => appendArguments table rule
  | delete table rule => deleteArguments table rule
  | deleteAt table chain position => deleteAtArguments table chain position
  | persist call => call.toList

end Command

end PacketFilter
