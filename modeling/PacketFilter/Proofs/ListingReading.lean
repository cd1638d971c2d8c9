import PacketFilter.Proofs.ListingEntries

/-! # Reading a listing line by line

A listing can be read in one pass (`Listing.Reading`): a header changes the table and starts the numbers again, and a
rule becomes an entry unless its key is in the index of the table already. The invariant of a pass is that the index
has the first place of every key (`Listing.Indexed.index_eq`), so that looking a key up in the index and searching the
entries for it come to the same (`Listing.Indexed.find?_eq`). `Listing.tables_read` says that a pass finds what
`Listing.parse` gives. -/

namespace PacketFilter

namespace Listing

/-! ### Entries with an index -/

theorem firstByKey_congr {seen seen' : List String} (h : ∀ k, k ∈ seen ↔ k ∈ seen') (es : List Entry) :
    firstByKey seen es = firstByKey seen' es := by
  induction es generalizing seen seen' with
  | nil => rfl
  | cons e es ih =>
      have hcons : ∀ k, k ∈ e.key :: seen ↔ k ∈ e.key :: seen' := fun k => by
        rw [List.mem_cons, List.mem_cons, h]
      have hseen : seen.contains e.key = seen'.contains e.key := by
        rw [Bool.eq_iff_iff, List.contains_iff_mem, List.contains_iff_mem, h]
      rw [firstByKey, firstByKey, ih h, ih hcons, hseen]

/-- Collected entries, and for each key the place of its entry. -/
structure Indexed where
  entries : List Entry
  index : String → Option Nat
  index_eq : ∀ key, index key = entries.findIdx? (·.key == key)

namespace Indexed

def empty : Indexed where
  entries := []
  index _ := none
  index_eq _ := rfl

/-- With one more entry at the end, unless there is one with its key already. -/
def insert (c : Indexed) (e : Entry) : Indexed :=
  match h : c.index e.key with
  | some _ => c
  | none =>
    { entries := c.entries ++ [e]
      index := fun key => if e.key = key then some c.entries.length else c.index key
      index_eq := by
        intro key
        rw [List.findIdx?_append, ← c.index_eq, List.findIdx?_singleton]
        by_cases he : e.key = key
        · subst he
          simp [h]
        · simp [he] }

/-- Whether a key is in the index. -/
def contains (c : Indexed) (key : String) : Bool :=
  (c.index key).isSome

def find? (c : Indexed) (key : String) : Option Entry :=
  (c.index key).bind fun i => c.entries[i]?

theorem contains_eq (c : Indexed) (key : String) : c.contains key = c.entries.any (·.key == key) := by
  rw [contains, c.index_eq, List.findIdx?_isSome]

theorem find?_eq (c : Indexed) (key : String) : c.find? key = c.entries.find? (·.key == key) := by
  rw [find?, c.index_eq]
  cases hi : c.entries.findIdx? (·.key == key) with
  | none =>
      rw [List.findIdx?_eq_none_iff] at hi
      exact (List.find?_eq_none.mpr fun e he => by simp [hi e he]).symm
  | some i =>
      obtain ⟨hlt, hkey, hfirst⟩ := List.findIdx?_eq_some_iff_getElem.mp hi
      rw [Option.bind_some, List.getElem?_eq_getElem hlt]
      have hfound : c.entries.find? (·.key == key) = some c.entries[i] :=
        List.find?_eq_some_iff_getElem.mpr ⟨hkey, i, hlt, rfl, fun j hj => by simpa using hfirst j hj⟩
      exact hfound.symm

theorem entries_insert (c : Indexed) (e : Entry) :
    (c.insert e).entries = if (c.entries.map Entry.key).contains e.key then c.entries else c.entries ++ [e] := by
  have hkeys : (c.entries.map Entry.key).contains e.key = c.contains e.key := by
    rw [contains_eq, Bool.eq_iff_iff, List.contains_iff_mem, List.mem_map, List.any_eq_true]
    simp only [beq_iff_eq]
  unfold insert
  split
  · rename_i h
    exact (if_pos (by rw [hkeys, contains, h]; rfl)).symm
  · rename_i h
    exact (if_neg (by rw [hkeys, contains, h]; exact Bool.false_ne_true)).symm

/-- What is collected one entry at a time are the first entries of their keys, in order. -/
theorem entries_foldl_insert (es : List Entry) (c : Indexed) :
    (es.foldl insert c).entries = c.entries ++ firstByKey (c.entries.map Entry.key) es := by
  induction es generalizing c with
  | nil => rw [List.foldl_nil, firstByKey, List.append_nil]
  | cons e es ih =>
      rw [List.foldl_cons, ih, entries_insert, firstByKey]
      split
      · rfl
      · rw [List.append_assoc, List.singleton_append, List.map_append, List.map_singleton]
        congr 2
        exact firstByKey_congr (fun k => by simp [or_comm]) es

theorem entries_foldl_insert_empty (es : List Entry) : (es.foldl insert empty).entries = firstByKey [] es := by
  rw [entries_foldl_insert]
  rfl

end Indexed

/-! ### One pass -/

/-- What has been read: the table of the section, if it is known, the number of rules of the section so far, and the
entries of the tables. -/
structure Reading where
  current : Option Table
  count : Nat
  tables : Table → Option Indexed

namespace Reading

def start : Reading where
  current := some .filter
  count := 0
  tables _ := none

/-- The entries of a table; none if nothing was said about it. -/
def indexed (r : Reading) (t : Table) : Indexed :=
  (r.tables t).getD .empty

/-- After one more line. -/
def step (numbered : Bool) (mode : AddressMode) (r : Reading) : Line → Reading
  | .header none => { r with current := none, count := 0 }
  | .header (some t) =>
    { current := some t
      count := 0
      tables := fun u => if u = t then some (r.indexed t) else r.tables u }
  | .other => r
  | .rule text =>
    match r.current with
    | none => r
    | some t =>
      { r with
        count := r.count + 1
        tables := fun u =>
          if u = t then some ((r.indexed t).insert (entry numbered mode ⟨t, r.count + 1, text⟩)) else r.tables u }

variable {numbered : Bool} {mode : AddressMode}

/-- Whether lines mention a table, read on from what has been read. -/
def mentions (r : Reading) (t : Table) (ls : List Line) : Prop :=
  (r.tables t).isSome ∨ .header (some t) ∈ ls ∨ (listedRules r.current r.count ls).filter (·.table == t) ≠ []

theorem indexed_step_header (r : Reading) (table : Option Table) (t : Table) :
    (r.step numbered mode (.header table)).indexed t = r.indexed t := by
  cases table with
  | none => rfl
  | some u =>
      by_cases h : t = u
      · subst h
        simp [step, indexed]
      · simp [step, indexed, h]

theorem step_rule_of_none {r : Reading} (h : r.current = none) (text : String) :
    r.step numbered mode (.rule text) = r := by
  simp [step, h]

theorem step_rule_of_some {r : Reading} {u : Table} (h : r.current = some u) (text : String) :
    r.step numbered mode (.rule text) =
      { r with
        count := r.count + 1
        tables := fun t =>
          if t = u then some ((r.indexed u).insert (entry numbered mode ⟨u, r.count + 1, text⟩)) else r.tables t } := by
  simp [step, h]

theorem indexed_foldl_step (ls : List Line) (r : Reading) (t : Table) :
    (ls.foldl (step numbered mode) r).indexed t =
      (((listedRules r.current r.count ls).filter (·.table == t)).map (entry numbered mode)).foldl Indexed.insert
        (r.indexed t) := by
  induction ls generalizing r with
  | nil => rfl
  | cons line ls ih =>
      rw [List.foldl_cons, ih]
      cases line with
      | header table => rw [indexed_step_header]; cases table <;> rfl
      | other => rfl
      | rule text =>
          cases hcurrent : r.current with
          | none => rw [step_rule_of_none hcurrent, hcurrent, listedRules]
          | some u =>
              rw [step_rule_of_some hcurrent, listedRules, List.filter_cons]
              by_cases ht : t = u
              · subst ht
                simp [indexed, hcurrent]
              · simp [indexed, hcurrent, ht, Ne.symm ht]

/-- A table has entries after some lines, maybe none, exactly if the lines mention it. -/
theorem isSome_tables_foldl_step (ls : List Line) (r : Reading) (t : Table) :
    ((ls.foldl (step numbered mode) r).tables t).isSome ↔ r.mentions t ls := by
  induction ls generalizing r with
  | nil => simp [mentions, listedRules]
  | cons line ls ih =>
      rw [List.foldl_cons, ih, mentions, mentions, List.mem_cons]
      cases line with
      | header table =>
          cases table with
          | none => simp [step, listedRules]
          | some u => by_cases ht : t = u <;> simp [step, listedRules, ht]
      | other => simp [step, listedRules]
      | rule text =>
          cases hcurrent : r.current with
          | none => rw [step_rule_of_none hcurrent, hcurrent, listedRules]; simp
          | some u =>
              rw [step_rule_of_some hcurrent, listedRules, List.filter_cons]
              by_cases ht : t = u
              · subst ht
                simp
              · simp [hcurrent, ht, Ne.symm ht]

end Reading

/-- A listing, read in one pass. -/
def read (numbered : Bool) (mode : AddressMode) (raw : String) : Reading :=
  (lines raw).foldl (Reading.step numbered mode) .start

theorem entries_indexed_read (numbered : Bool) (mode : AddressMode) (raw : String) (t : Table) :
    ((read numbered mode raw).indexed t).entries = (parse numbered mode raw).entries t := by
  rw [entries_parse, read, Reading.indexed_foldl_step]
  exact Indexed.entries_foldl_insert_empty _

theorem isSome_tables_read (numbered : Bool) (mode : AddressMode) (raw : String) (t : Table) :
    ((read numbered mode raw).tables t).isSome = ((parse numbered mode raw).entries? t).isSome := by
  rw [Bool.eq_iff_iff, read, Reading.isSome_tables_foldl_step]
  simp [Reading.mentions, Reading.start, parse, rules]

theorem tables_read (numbered : Bool) (mode : AddressMode) (raw : String) (t : Table) :
    ((read numbered mode raw).tables t).map Indexed.entries = (parse numbered mode raw).entries? t := by
  have hentries := entries_indexed_read numbered mode raw t
  have hsome := isSome_tables_read numbered mode raw t
  rw [Reading.indexed, LiveState.entries] at hentries
  cases hread : (read numbered mode raw).tables t <;> cases hparse : (parse numbered mode raw).entries? t <;>
    simp_all

theorem contains_read (numbered : Bool) (mode : AddressMode) (raw : String) (t : Table) (key : String) :
    ((read numbered mode raw).indexed t).contains key = (parse numbered mode raw).contains t key := by
  rw [Indexed.contains_eq, entries_indexed_read, LiveState.contains]

theorem find?_read (numbered : Bool) (mode : AddressMode) (raw : String) (t : Table) (key : String) :
    ((read numbered mode raw).indexed t).find? key = (parse numbered mode raw).find? t key := by
  rw [Indexed.find?_eq, entries_indexed_read, LiveState.find?]

end Listing

end PacketFilter
