import PacketFilter.Digest.Sha256
import PacketFilter.Registry

/-! # Rule sets

A `RuleSet` says which rules each table is to hold, in order. A registry becomes one when its rules are arranged
between those of files (`Registry.finalize`), and `RuleSet.assemble` makes one from declared rules and the rules of
files at once. The `checksum` of a set is a digest of every rule with its table and position. -/

namespace PacketFilter

/-- The rules of every table, in order. -/
structure RuleSet where
  rules : Table → List Rule

/-- The set of the rules that were collected, between the rules that come before and after them. -/
def Registry.finalize (reg : Registry) (pre post : List Rule) : RuleSet :=
  let arranged := reg.arrange pre post
  ⟨arranged.rules⟩

theorem Registry.rules_finalize (reg : Registry) (pre post : List Rule) (t : Table) :
    (reg.finalize pre post).rules t =
      rulesOf t pre ++ (reg.rules t).mergeSort Rule.precedes ++ rulesOf t post :=
  reg.rules_arrange pre post t

namespace RuleSet

/-- The set of the declared rules, in sorted order, between the rules that come before and after them. -/
def assemble (declared pre post : List Rule) : RuleSet :=
  (Registry.empty.insert declared).finalize pre post

theorem rules_assemble (declared pre post : List Rule) (t : Table) :
    (assemble declared pre post).rules t =
      rulesOf t pre ++ (rulesOf t declared).mergeSort Rule.precedes ++ rulesOf t post := by
  rw [assemble, Registry.rules_finalize, Registry.rules_insert, Registry.rules_empty, List.nil_append]

variable (s : RuleSet)

/-- The rules of a table with their positions. -/
def placed (t : Table) : List PlacedRule :=
  ((s.rules t).zipIdx 1).map fun (rule, position) => ⟨position, rule⟩

/-- The tables that have rules, in order. -/
def tables : List Table :=
  Table.all.filter fun t => ! (s.rules t).isEmpty

/-- Every rule with its position, table by table. -/
def all : List PlacedRule :=
  Table.all.flatMap s.placed

def size : Nat := s.all.length

/-- The texts of the rules of a table. -/
def texts (t : Table) : List String :=
  (s.rules t).map Rule.text

/-- The line of a rule in the record of a set. -/
def recordLine (p : PlacedRule) : String :=
  p.rule.table.name ++ " " ++ p.key ++ "\n"

/-- A line for every rule, with its table, its position and its text. -/
def record : String :=
  String.join (s.all.map recordLine)

/-- The digest of the record of a set. Sets with the same rules in the same places share it. -/
def checksum : String :=
  Sha256.hex s.record.toUTF8.toList

end RuleSet

end PacketFilter
