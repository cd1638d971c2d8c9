import PacketFilter.Listing.LiveRule
import PacketFilter.Rule

/-! # Listings

A listing of the live rules has a section for each table: a header `*table`, the rules of the table as lines
that begin with `-A `, and other lines. Rules before any header belong to the table `filter`, and the
sections of tables that are not known are passed over. In each section rules are numbered from 1.

`Listing.parse` gives the entries of each table. An entry is found by its key: the canonical text of its line,
or that text behind its number. Of entries with the same key only the first is kept. -/

namespace PacketFilter

/-- A live rule and the key it is found by. -/
structure Entry where
  key : String
  rule : LiveRule
deriving DecidableEq

namespace Listing

/-- What a line of a listing is. -/
inductive Line where
  /-- The header of a section, with its table if that is known. -/
  | header (table : Option Table)
  | rule (text : String)
  | other
deriving DecidableEq

/-- What a line, without the blanks around it, is. -/
def Line.ofText (line : String) : Line :=
  match Text.afterStart? "*" line with
  | some name => .header (Table.ofName? name)
  | none => if (Text.afterStart? "-A " line).isSome then .rule line else .other

theorem Line.ofText_eq_rule {line text : String} (h : Line.ofText line = .rule text) :
    (Text.afterStart? "-A " text).isSome := by
  unfold Line.ofText at h
  split at h
  · simp at h
  · split at h
    · simp_all
    · simp at h

def lines (raw : String) : List Line :=
  (Text.lines raw).map fun line => Line.ofText (Text.trim line)

/-- A rule of a listing: its table, its number in the section, and its line. -/
structure ListedRule where
  table : Table
  number : Nat
  line : String
deriving DecidableEq

/-- The rules among the lines of a listing, of which some have been read already: `current` is the table of
the section, if it is known, and `count` rules of the section have been seen. -/
def listedRules (current : Option Table) (count : Nat) : List Line → List ListedRule
  | [] => []
  | .header table :: ls => listedRules table 0 ls
  | .other :: ls => listedRules current count ls
  | .rule text :: ls =>
    match current with
    | none => listedRules current count ls
    | some table => ⟨table, count + 1, text⟩ :: listedRules current (count + 1) ls

theorem rule_mem_of_mem_listedRules {current : Option Table} {count : Nat} {ls : List Line}
    {r : ListedRule} (h : r ∈ listedRules current count ls) : .rule r.line ∈ ls := by
  fun_induction listedRules current count ls <;> simp_all
  rcases h with rfl | h <;> simp_all

/-- The rules of a listing, in order. -/
def rules (raw : String) : List ListedRule :=
  listedRules (some .filter) 0 (lines raw)

theorem afterStart?_of_mem_rules {raw : String} {r : ListedRule} (h : r ∈ rules raw) :
    (Text.afterStart? "-A " r.line).isSome := by
  have := rule_mem_of_mem_listedRules h
  simp only [lines, List.mem_map] at this
  obtain ⟨line, _, hl⟩ := this
  exact Line.ofText_eq_rule hl

def entry (numbered : Bool) (mode : AddressMode) (r : ListedRule) : Entry where
  key := if numbered then numberedKey r.number (canonical r.line) else canonical r.line
  rule := LiveRule.ofLine mode r.table r.line

/-- The entries whose key no earlier entry has. `seen` are the keys of entries that came before. -/
def firstByKey (seen : List String) : List Entry → List Entry
  | [] => []
  | e :: es => if seen.contains e.key then firstByKey seen es else e :: firstByKey (e.key :: seen) es

theorem mem_of_mem_firstByKey {seen : List String} {es : List Entry} {e : Entry}
    (h : e ∈ firstByKey seen es) : e ∈ es := by
  fun_induction firstByKey seen es <;> simp_all
  rcases h with h | h <;> simp_all

end Listing

/-- The entries of each table that a listing has a header or a rule for. -/
structure LiveState where
  entries? : Table → Option (List Entry)

namespace LiveState

variable (live : LiveState)

/-- The entries of a table; none if the listing does not mention the table. -/
def entries (t : Table) : List Entry :=
  (live.entries? t).getD []

/-- The entry of a table with a given key. -/
def find? (t : Table) (key : String) : Option Entry :=
  (live.entries t).find? (·.key == key)

/-- Whether a table has an entry with a given key. -/
def contains (t : Table) (key : String) : Bool :=
  (live.entries t).any (·.key == key)

/-- The tables that the listing mentions, in order. -/
def tables : List Table :=
  Table.all.filter fun t => (live.entries? t).isSome

def size : Nat :=
  (Table.all.flatMap live.entries).length

end LiveState

/-- The live state that a listing shows. -/
def Listing.parse (numbered : Bool) (mode : AddressMode) (raw : String) : LiveState where
  entries? t :=
    let found := (Listing.rules raw).filter (·.table == t)
    if (Listing.lines raw).contains (.header (some t)) || ! found.isEmpty then
      some (Listing.firstByKey [] (found.map (Listing.entry numbered mode)))
    else none

/-- The keys of a listing that is read without numbers begin by appending. -/
theorem Listing.appends_key {mode : AddressMode} {raw : String} {t : Table} {e : Entry}
    (h : e ∈ (Listing.parse false mode raw).entries t) : appends e.key := by
  simp only [LiveState.entries, Listing.parse] at h
  split at h
  · have h := mem_of_mem_firstByKey h
    simp only [List.mem_map, List.mem_filter] at h
    obtain ⟨r, ⟨hr, _⟩, rfl⟩ := h
    exact appends_canonical (afterStart?_of_mem_rules hr)
  · simp at h

end PacketFilter
