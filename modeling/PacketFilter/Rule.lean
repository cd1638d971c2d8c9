import PacketFilter.Rule.Word
import PacketFilter.Table

/-! # Rules

A `Rule` is a line of rule text that is to stand in a table, with what is known about where it comes from.
In a table that is complete, each rule has its position from 1; the key of a `PlacedRule` says both. -/

namespace PacketFilter

/-- Where a rule comes from. -/
inductive Origin where
  | declared
  /-- A file of rules that come before the declared ones. -/
  | pre
  /-- A file of rules that come after the declared ones. -/
  | post
deriving DecidableEq, Inhabited

namespace Origin

def all : List Origin := [.declared, .pre, .post]

def name : Origin → String
  | declared => "declared"
  | pre => "pre"
  | post => "post"

def ofName? (s : String) : Option Origin :=
  all.find? (·.name == s)

end Origin

/-- A rule in its canonical form. -/
structure Rule where
  table : Table
  chain : String
  /-- What it is sorted by first; unless something else is said, the place of its chain in a listing. -/
  priority : Nat := Chain.rankOf chain
  /-- The name it was declared by; empty for the rules of files. -/
  name : String := ""
  /-- The source address it was made for; empty if it has none. -/
  source : String := ""
  /-- Its text, which begins by appending to the chain. -/
  text : String
  origin : Origin := .declared
deriving DecidableEq

/-- The place of the chain of a rule in a listing. -/
def Rule.rank (r : Rule) : Nat :=
  Chain.rankOf r.chain

/-- The key of a rule text at a position of its table. -/
def numberedKey (position : Nat) (text : String) : String :=
  toString position ++ " " ++ text

/-- A rule at a position of its table. -/
structure PlacedRule where
  position : Nat
  rule : Rule
deriving DecidableEq

/-- The key by which a rule is found at its exact position. -/
def PlacedRule.key (p : PlacedRule) : String :=
  numberedKey p.position p.rule.text

end PacketFilter
