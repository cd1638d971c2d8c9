/-! # Tables and chains

The four tables of the filter and the five built-in chains. Rules run in the order of their chain;
`Chain.rankOf` gives that order also for chains that users define, which come last. Not every table has
every chain (`Chain.absentFrom`), and only some chains see the interface a packet came in or goes out by. -/

namespace PacketFilter

/-- A table of the packet filter. -/
inductive Table where
  | filter | nat | mangle | raw
deriving DecidableEq, Inhabited

namespace Table

/-- Every table, in the order in which they are listed, applied and flushed. -/
def all : List Table := [.filter, .nat, .mangle, .raw]

/-- The place of a table in that order. -/
def rank : Table → Nat
  | filter => 1
  | nat => 2
  | mangle => 3
  | raw => 4

def name : Table → String
  | filter => "filter"
  | nat => "nat"
  | mangle => "mangle"
  | raw => "raw"

def ofName? (s : String) : Option Table :=
  all.find? (·.name == s)

theorem mem_all (t : Table) : t ∈ all := by cases t <;> decide

theorem eq_of_rank {t u : Table} (h : t.rank = u.rank) : t = u := by
  revert h
  cases t <;> cases u <;> decide

theorem ofName?_name (t : Table) : ofName? t.name = some t := by cases t <;> decide

theorem ofName?_eq_some_iff {name : String} {t : Table} : ofName? name = some t ↔ name = t.name := by
  constructor
  · intro h
    exact (beq_iff_eq.mp (List.find?_some (p := fun u : Table => u.name == name) h)).symm
  · rintro rfl
    exact ofName?_name t

end Table

/-- A built-in chain. -/
inductive Chain where
  | prerouting | input | forward | output | postrouting
deriving DecidableEq, Inhabited

namespace Chain

/-- Every built-in chain, in listing order. -/
def all : List Chain := [.prerouting, .input, .forward, .output, .postrouting]

def name : Chain → String
  | prerouting => "PREROUTING"
  | input => "INPUT"
  | forward => "FORWARD"
  | output => "OUTPUT"
  | postrouting => "POSTROUTING"

/-- The built-in chain with a given name. -/
def ofName? (s : String) : Option Chain :=
  all.find? (·.name == s)

theorem ofName?_name (c : Chain) : ofName? c.name = some c := by cases c <;> decide

/-- The place of a chain in a listing, from 1. -/
def rank : Chain → Nat
  | prerouting => 1
  | input => 2
  | forward => 3
  | output => 4
  | postrouting => 5

/-- The place in a listing of the chain with a given name; chains that are not built in share the last
place, 255. -/
def rankOf (chain : String) : Nat :=
  match ofName? chain with
  | some c => c.rank
  | none => 255

theorem rankOf_name (c : Chain) : rankOf c.name = c.rank := by
  rw [rankOf, ofName?_name]

/-- The built-in chains that a table does not have. -/
def absentFrom : Table → List Chain
  | .filter => [prerouting, postrouting]
  | .nat => [input, forward]
  | .raw => [input, forward, postrouting]
  | .mangle => []

/-- Whether a table has a chain. -/
def isIn (c : Chain) (t : Table) : Bool :=
  ! (absentFrom t).contains c

/-- Whether the packets of a chain came in by an interface. -/
def seesInInterface : Chain → Bool
  | input | forward | prerouting => true
  | output | postrouting => false

/-- Whether the packets of a chain go out by an interface. -/
def seesOutInterface : Chain → Bool
  | output | forward | postrouting => true
  | input | prerouting => false

end Chain

end PacketFilter
