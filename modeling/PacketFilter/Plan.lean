import PacketFilter.Command
import PacketFilter.Listing
import PacketFilter.RuleSet

/-! # Plans

What has to be done so that the live rules become the declared ones. `surplus` are the live rules that no
declared rule of their table has the text of. `Plan.between` compares positions: if every declared rule
stands at its exact position there is nothing to do, and otherwise the plan is to append every declared rule
and to delete every rule that was live before. -/

namespace PacketFilter

/-- The keys of the live rules, each with its table, that no declared rule of the table has as its text. -/
def surplus (declared : RuleSet) (live : LiveState) : List (Table × String) :=
  Table.all.flatMap fun t =>
    ((live.entries t).filter fun e => ! (declared.texts t).contains e.key).map fun e => (t, e.key)

theorem appends_of_mem_surplus {declared : RuleSet} {mode : AddressMode} {raw : String}
    {d : Table × String} (h : d ∈ surplus declared (Listing.parse false mode raw)) : appends d.2 := by
  simp only [surplus, List.mem_flatMap, List.mem_map, List.mem_filter] at h
  obtain ⟨t, _, e, ⟨he, _⟩, rfl⟩ := h
  exact Listing.appends_key he

/-- A live rule that a plan deletes. -/
structure Stale where
  table : Table
  chain : String
  key : String
deriving DecidableEq

/-- What to append and what to delete. -/
structure Plan where
  toAdd : List PlacedRule
  toDelete : List Stale
deriving DecidableEq

/-- Whether every declared rule is live at its exact position. -/
def RuleSet.isPlacedIn (declared : RuleSet) (live : LiveState) : Bool :=
  Table.all.all fun t => (declared.placed t).all fun p => live.contains t p.key

/-- Every live rule, table by table. -/
def LiveState.stale (live : LiveState) : List Stale :=
  Table.all.flatMap fun t => (live.entries t).map fun e => ⟨t, e.rule.chain, e.key⟩

namespace Plan

/-- The plan that makes the live rules of a numbered listing the declared ones, if one is needed. -/
def between (declared : RuleSet) (live : LiveState) : Option Plan :=
  if declared.isPlacedIn live then none else some ⟨declared.all, live.stale⟩

/-- The commands that carry out a plan. The old rules stand first in their chains, so each of them is
deleted at position 1. -/
def commands (p : Plan) : List Command :=
  (p.toAdd.map fun placed => .append placed.rule.table placed.rule.text) ++
    p.toDelete.map fun old => .deleteAt old.table old.chain 1

end Plan

end PacketFilter
