import PacketFilter.Proofs.ListingReading

/-! # Sections of a listing

The lines of a listing, without the blanks around them, are the lines in front of the first header and then sections,
each with its header (`Listing.Outline`). The rules of a table are the rule lines of its sections, numbered from 1 in
each of them, and for the table `filter` also those in front of any header; this is what reading line by line finds
(`Listing.rules_filter`). From there `Listing.parse_sections` says which entries a table has, by which keys they are
found, and what in a listing does not matter. -/

namespace PacketFilter

namespace Listing

/-! ### Outlines -/

/-- A line that begins a section. -/
def IsHeader (line : String) : Prop :=
  ∃ name, line = "*" ++ name

/-- A section of a listing: the name in its header, and the lines up to the next header. -/
structure Section where
  name : String
  body : List String
  plain : ∀ line ∈ body, ¬ IsHeader line

/-- The lines of a section with its header. -/
def Section.lines (s : Section) : List String :=
  ("*" ++ s.name) :: s.body

/-- The lines in front of the first header, and the sections. -/
@[ext]
structure Outline where
  lead : List String
  sections : List Section
  plain : ∀ line ∈ lead, ¬ IsHeader line

namespace Outline

/-- All lines, in order. -/
def lines (o : Outline) : List String :=
  o.lead ++ o.sections.flatMap Section.lines

/-- The outline with a header in front, which makes a section of the lines that had none. -/
def headed (name : String) (o : Outline) : Outline where
  lead := []
  sections := ⟨name, o.lead, o.plain⟩ :: o.sections
  plain := List.forall_mem_nil _

/-- The outline with one more line in front. -/
def cons (line : String) (o : Outline) : Outline :=
  match h : Text.afterStart? "*" line with
  | some name => o.headed name
  | none =>
    { lead := line :: o.lead
      sections := o.sections
      plain := by
        intro l hl
        rcases List.mem_cons.mp hl with rfl | hl
        · rintro ⟨name, hname⟩
          rw [Text.afterStart?_eq_some_iff.mpr hname] at h
          cases h
        · exact o.plain l hl }

theorem lines_cons (line : String) (o : Outline) : (o.cons line).lines = line :: o.lines := by
  unfold cons
  split
  · rename_i name h
    simp [headed, lines, Section.lines, Text.afterStart?_eq_some_iff.mp h]
  · rfl

/-- The outline of the given lines. -/
def ofLines : List String → Outline
  | [] => { lead := [], sections := [], plain := List.forall_mem_nil _ }
  | line :: rest => (ofLines rest).cons line

/-- An outline has all lines, in order. -/
theorem lines_ofLines (ls : List String) : (ofLines ls).lines = ls := by
  induction ls with
  | nil => rfl
  | cons line rest ih => rw [ofLines, lines_cons, ih]

theorem cons_header (name : String) (o : Outline) : o.cons ("*" ++ name) = o.headed name := by
  unfold cons
  split
  · rename_i found h
    obtain rfl := (String.append_right_inj "*").mp (Text.afterStart?_eq_some_iff.mp h)
    rfl
  · rename_i h
    rw [Text.afterStart?_eq_some_iff.mpr rfl] at h
    cases h

theorem cons_plain {line : String} (h : ¬ IsHeader line) (o : Outline) :
    o.cons line =
      { lead := line :: o.lead, sections := o.sections, plain := List.forall_mem_cons.mpr ⟨h, o.plain⟩ } := by
  unfold cons
  split
  · rename_i name hname
    exact absurd ⟨name, Text.afterStart?_eq_some_iff.mp hname⟩ h
  · rfl

/-- Lines without a header stand in front of all sections. -/
theorem ofLines_append {ls : List String} (h : ∀ line ∈ ls, ¬ IsHeader line) (rest : List String) :
    (ofLines (ls ++ rest)).lead = ls ++ (ofLines rest).lead ∧
      (ofLines (ls ++ rest)).sections = (ofLines rest).sections := by
  induction ls with
  | nil => exact ⟨rfl, rfl⟩
  | cons line ls ih =>
      obtain ⟨hlead, hsections⟩ := ih fun l hl => h l (List.mem_cons_of_mem _ hl)
      rw [List.cons_append, ofLines, cons_plain (h line List.mem_cons_self)]
      exact ⟨congrArg (line :: ·) hlead, hsections⟩

theorem ofLines_sections (ss : List Section) :
    (ofLines (ss.flatMap Section.lines)).lead = [] ∧ (ofLines (ss.flatMap Section.lines)).sections = ss := by
  induction ss with
  | nil => exact ⟨rfl, rfl⟩
  | cons s ss ih =>
      obtain ⟨hlead, hsections⟩ := ofLines_append s.plain (ss.flatMap Section.lines)
      rw [ih.1, List.append_nil] at hlead
      rw [ih.2] at hsections
      rw [List.flatMap_cons, Section.lines, List.cons_append, ofLines, cons_header]
      refine ⟨rfl, ?_⟩
      simp only [headed, hlead, hsections]

/-- The lines of an outline have no other outline. -/
theorem ofLines_lines (o : Outline) : ofLines o.lines = o := by
  obtain ⟨hlead, hsections⟩ := ofLines_append o.plain (o.sections.flatMap Section.lines)
  rw [(ofLines_sections o.sections).1, List.append_nil] at hlead
  rw [(ofLines_sections o.sections).2] at hsections
  exact Outline.ext hlead hsections

end Outline

/-- The lines of a listing without the blanks around them. -/
def trimmedLines (raw : String) : List String :=
  (Text.lines raw).map Text.trim

/-- The outline of a listing. -/
def outline (raw : String) : Outline :=
  .ofLines (trimmedLines raw)

theorem lines_outline (raw : String) : (outline raw).lines = trimmedLines raw :=
  Outline.lines_ofLines _

/-! ### Rules of an outline -/

/-- Whether a line shows a rule. -/
def isRule (line : String) : Bool :=
  "-A ".toList.isPrefixOf line.toList

/-- The lines that show a rule, numbered from 1. -/
def numberedRules (ls : List String) : List (String × Nat) :=
  (ls.filter isRule).zipIdx 1

/-- The rule lines of a table with their numbers: those of its sections, which are numbered each for itself. Lines in
front of any header belong to the table `filter`. -/
def Outline.rulesOf (o : Outline) (t : Table) : List (String × Nat) :=
  (if t = .filter then numberedRules o.lead else []) ++
    (o.sections.filter (·.name == t.name)).flatMap fun s => numberedRules s.body

theorem isRule_eq (line : String) : isRule line = (Text.afterStart? "-A " line).isSome := by
  rw [Bool.eq_iff_iff, isRule, List.isPrefixOf_iff_prefix, Option.isSome_iff_exists]
  constructor
  · rintro ⟨rest, hrest⟩
    refine ⟨String.ofList rest, Text.afterStart?_eq_some_iff.mpr ?_⟩
    rw [← String.toList_inj, String.toList_append, @String.toList_ofList rest]
    exact hrest.symm
  · rintro ⟨rest, hrest⟩
    exact ⟨rest.toList, by rw [Text.afterStart?_eq_some_iff.mp hrest, String.toList_append]⟩

theorem ofText_of_plain {line : String} (h : ¬ IsHeader line) :
    Line.ofText line = if isRule line then .rule line else .other := by
  have hstar : Text.afterStart? "*" line = none := by
    rw [Option.eq_none_iff_forall_ne_some]
    intro name hname
    exact h ⟨name, Text.afterStart?_eq_some_iff.mp hname⟩
  rw [Line.ofText, hstar, isRule_eq]

theorem ofText_header (name : String) : Line.ofText ("*" ++ name) = .header (Table.ofName? name) := by
  rw [Line.ofText, Text.afterStart?_eq_some_iff.mpr rfl]

/-- The rules that lines show in a section of the given table, if that is known, with numbers from `n` on. -/
def rulesIn (current : Option Table) (n : Nat) (ls : List String) : List ListedRule :=
  match current with
  | none => []
  | some t => ((ls.filter isRule).zipIdx n).map fun (line, i) => ⟨t, i, line⟩

theorem rulesIn_rule {line : String} (h : isRule line = true) (t : Table) (n : Nat) (ls : List String) :
    rulesIn (some t) n (line :: ls) = ⟨t, n, line⟩ :: rulesIn (some t) (n + 1) ls := by
  rw [rulesIn, List.filter_cons_of_pos h, List.zipIdx_cons, List.map_cons, rulesIn]

theorem rulesIn_other {line : String} (h : isRule line ≠ true) (current : Option Table) (n : Nat)
    (ls : List String) : rulesIn current n (line :: ls) = rulesIn current n ls := by
  cases current with
  | none => rfl
  | some t => rw [rulesIn, List.filter_cons_of_neg h, rulesIn]

/-- Lines without a header show their rules in the section that they stand in. -/
theorem listedRules_plain {ls : List String} (h : ∀ line ∈ ls, ¬ IsHeader line) (current : Option Table) (n : Nat)
    (rest : List Line) :
    ∃ m, listedRules current n (ls.map Line.ofText ++ rest) =
      rulesIn current (n + 1) ls ++ listedRules current m rest := by
  induction ls generalizing n with
  | nil => exact ⟨n, by cases current <;> rfl⟩
  | cons line ls ih =>
      have ih := ih fun l hl => h l (List.mem_cons_of_mem _ hl)
      rw [List.map_cons, List.cons_append, ofText_of_plain (h line List.mem_cons_self)]
      by_cases hrule : isRule line = true
      · rw [if_pos hrule]
        cases current with
        | none => exact ih n
        | some t =>
            obtain ⟨m, hm⟩ := ih (n + 1)
            exact ⟨m, by rw [listedRules, hm, rulesIn_rule hrule, List.cons_append]⟩
      · rw [if_neg hrule]
        obtain ⟨m, hm⟩ := ih n
        exact ⟨m, by rw [listedRules, hm, rulesIn_other hrule]⟩

/-- Sections show their rules one after the other, whatever was read before them. -/
theorem listedRules_sections (ss : List Section) (current : Option Table) (n : Nat) :
    listedRules current n ((ss.flatMap Section.lines).map Line.ofText) =
      ss.flatMap fun s => rulesIn (Table.ofName? s.name) 1 s.body := by
  induction ss generalizing current n with
  | nil => rfl
  | cons s ss ih =>
      obtain ⟨m, hm⟩ := listedRules_plain s.plain (Table.ofName? s.name) 0
        ((ss.flatMap Section.lines).map Line.ofText)
      rw [List.flatMap_cons, List.map_append, Section.lines, List.map_cons, ofText_header, List.cons_append,
        listedRules, hm, ih, List.flatMap_cons]

theorem lines_eq (raw : String) : lines raw = (trimmedLines raw).map Line.ofText := by
  rw [lines, trimmedLines, List.map_map, Function.comp_def]

theorem rules_eq (raw : String) :
    rules raw = rulesIn (some .filter) 1 (outline raw).lead ++
      (outline raw).sections.flatMap fun s => rulesIn (Table.ofName? s.name) 1 s.body := by
  obtain ⟨m, hm⟩ := listedRules_plain (outline raw).plain (some .filter) 0
    (((outline raw).sections.flatMap Section.lines).map Line.ofText)
  rw [rules, lines_eq, ← lines_outline, Outline.lines, List.map_append, hm, listedRules_sections]

theorem rulesIn_filter (current : Option Table) (t : Table) (ls : List String) :
    (rulesIn current 1 ls).filter (·.table == t) =
      if current = some t then (numberedRules ls).map fun (line, i) => ⟨t, i, line⟩ else [] := by
  cases current with
  | none => rfl
  | some u =>
      split
      · rename_i h
        obtain rfl := Option.some.inj h
        refine List.filter_eq_self.mpr fun r hr => ?_
        obtain ⟨_, -, rfl⟩ := List.mem_map.mp hr
        exact beq_self_eq_true _
      · rename_i h
        rw [List.filter_eq_nil_iff]
        intro r hr htable
        obtain ⟨_, -, rfl⟩ := List.mem_map.mp hr
        exact h (congrArg some (beq_iff_eq.mp htable))

/-- The rules that are found for a table are the rule lines of its sections with their numbers. -/
theorem rules_filter (raw : String) (t : Table) :
    (rules raw).filter (·.table == t) = ((outline raw).rulesOf t).map fun (line, i) => ⟨t, i, line⟩ := by
  have hlead : (rulesIn (some .filter) 1 (outline raw).lead).filter (·.table == t) =
      (if t = .filter then numberedRules (outline raw).lead else []).map fun (line, i) => ⟨t, i, line⟩ := by
    rw [rulesIn_filter]
    cases t <;> rfl
  have hsections (ss : List Section) :
      (ss.flatMap fun s => rulesIn (Table.ofName? s.name) 1 s.body).filter (·.table == t) =
        ((ss.filter (·.name == t.name)).flatMap fun s => numberedRules s.body).map
          fun (line, i) => ⟨t, i, line⟩ := by
    induction ss with
    | nil => rfl
    | cons s ss ih =>
        rw [List.flatMap_cons, List.filter_append, ih, rulesIn_filter, List.filter_cons]
        simp only [Table.ofName?_eq_some_iff, beq_iff_eq]
        split
        · rw [List.flatMap_cons, List.map_append]
        · rfl
  rw [rules_eq, List.filter_append, hlead, hsections, Outline.rulesOf, List.map_append]

-- each section counts anew, so one number may stand in a table twice
example : (outline "-A INPUT -j DROP\n*nat\n*filter\n-A INPUT -j LOG\n").rulesOf .filter =
    [("-A INPUT -j DROP", 1), ("-A INPUT -j LOG", 1)] := by decide +kernel

/-! ### Entries of an outline -/

theorem header_mem_lines_iff {raw : String} {t : Table} :
    .header (some t) ∈ lines raw ↔ "*" ++ t.name ∈ trimmedLines raw := by
  rw [lines_eq, List.mem_map]
  constructor
  · rintro ⟨line, hline, hheader⟩
    by_cases h : IsHeader line
    · obtain ⟨name, rfl⟩ := h
      rw [ofText_header, Line.header.injEq, Table.ofName?_eq_some_iff] at hheader
      exact hheader ▸ hline
    · rw [ofText_of_plain h] at hheader
      split at hheader <;> cases hheader
  · intro h
    exact ⟨_, h, by rw [ofText_header, Table.ofName?_name]⟩

variable {numbered : Bool} {mode : AddressMode} {raw : String} {t : Table}

/-- The entries that the rules of a table would make if none of them had the key of another one. -/
def shown (numbered : Bool) (mode : AddressMode) (raw : String) (t : Table) : List Entry :=
  ((outline raw).rulesOf t).map fun (line, i) => entry numbered mode ⟨t, i, line⟩

/-- A table has entries if the listing has a header or a rule for it. -/
theorem entries?_eq :
    (parse numbered mode raw).entries? t =
      if "*" ++ t.name ∈ trimmedLines raw ∨ (outline raw).rulesOf t ≠ [] then
        some (firstByKey [] (shown numbered mode raw t))
      else none := by
  have hshown : ((rules raw).filter (·.table == t)).map (entry numbered mode) = shown numbered mode raw t := by
    rw [rules_filter, List.map_map]
    rfl
  rw [parse, ← hshown]
  simp [rules_filter, ← header_mem_lines_iff]

theorem isSome_entries?_iff :
    ((parse numbered mode raw).entries? t).isSome ↔
      "*" ++ t.name ∈ trimmedLines raw ∨ (outline raw).rulesOf t ≠ [] := by
  rw [entries?_eq]
  split <;> simp_all

theorem entries_eq : (parse numbered mode raw).entries t = firstByKey [] (shown numbered mode raw t) := by
  rw [entries_parse, rules_filter, List.map_map]
  rfl

/-- A table has entries as its rules say: the first one of each key, in order, and they are found by their keys. -/
structure ReadsTable (live : LiveState) (t : Table) (shown : List Entry) : Prop where
  order : (live.entries t).Sublist shown
  distinct : ((live.entries t).map Entry.key).Nodup
  first : ∀ e, e ∈ live.entries t ↔ shown.find? (·.key == e.key) = some e
  contains : ∀ key, live.contains t key = true ↔ key ∈ (live.entries t).map Entry.key
  find : ∀ key e, live.find? t key = some e ↔ e ∈ live.entries t ∧ e.key = key

theorem readsTable_parse : ReadsTable (parse numbered mode raw) t (shown numbered mode raw t) := by
  constructor
  · rw [entries_eq]
    exact firstByKey_sublist _ _
  · rw [entries_eq]
    exact nodup_keys_firstByKey _ _
  · intro e
    rw [entries_eq, mem_firstByKey_iff]
    simp
  · exact fun key => LiveState.contains_iff
  · intro key e
    rw [LiveState.find?, entries_eq]
    exact find?_key_eq_some_iff (nodup_keys_firstByKey _ _)

theorem contains_parse_iff {key : String} :
    (parse numbered mode raw).contains t key = true ↔
      ∃ line i, (line, i) ∈ (outline raw).rulesOf t ∧ (entry numbered mode ⟨t, i, line⟩).key = key := by
  rw [LiveState.contains_iff, entries_eq, mem_keys_firstByKey, shown, List.map_map, List.mem_map]
  constructor
  · rintro ⟨-, ⟨line, i⟩, hmem, hkey⟩
    exact ⟨line, i, hmem, hkey⟩
  · rintro ⟨line, i, hmem, hkey⟩
    exact ⟨List.not_mem_nil, (line, i), hmem, hkey⟩

/-- The keys without numbers are the numbered ones, each without its number. -/
theorem contains_unnumbered_iff {key : String} :
    (parse false mode raw).contains t key = true ↔
      ∃ n, (parse true mode raw).contains t (numberedKey n key) = true := by
  rw [contains_parse_iff]
  constructor
  · rintro ⟨line, n, hmem, rfl⟩
    exact ⟨n, contains_parse_iff.mpr ⟨line, n, hmem, rfl⟩⟩
  · rintro ⟨n, hcontains⟩
    obtain ⟨line, i, hmem, hkey⟩ := contains_parse_iff.mp hcontains
    exact ⟨line, i, hmem, (numberedKey_inj.mp hkey).2⟩

/-! ### What does not matter -/

/-- A section without the lines that show no rule. -/
def Section.shorten (s : Section) : String × List String :=
  (s.name, s.body.filter isRule)

/-- The rule lines in front of the first header, and the sections of known tables with their rule lines. -/
def Outline.shorten (o : Outline) : List String × List (String × List String) :=
  (o.lead.filter isRule, (o.sections.filter fun s => (Table.ofName? s.name).isSome).map Section.shorten)

/-- The rules of a table are among what is left of an outline. -/
theorem Outline.rulesOf_eq (o : Outline) (t : Table) :
    o.rulesOf t = (if t = .filter then o.shorten.1.zipIdx 1 else []) ++
      (o.shorten.2.filter (·.1 == t.name)).flatMap fun s => s.2.zipIdx 1 := by
  have hknown (s : Section) : (s.name == t.name && (Table.ofName? s.name).isSome) = (s.name == t.name) := by
    by_cases h : s.name = t.name
    · rw [h, Table.ofName?_name, Option.isSome_some, Bool.and_true]
    · rw [beq_false_of_ne h, Bool.false_and]
  have hsections : o.shorten.2.filter (·.1 == t.name) =
      (o.sections.filter (·.name == t.name)).map Section.shorten := by
    rw [shorten, List.filter_map, List.filter_filter]
    congr 2
    funext s
    exact hknown s
  rw [hsections, List.flatMap_map]
  rfl

theorem Outline.header_mem_lines_iff {o : Outline} {t : Table} :
    "*" ++ t.name ∈ o.lines ↔ ∃ s ∈ o.shorten.2, s.1 = t.name := by
  rw [lines, List.mem_append, List.mem_flatMap]
  constructor
  · rintro (hlead | ⟨s, hs, hmem⟩)
    · exact absurd ⟨t.name, rfl⟩ (o.plain _ hlead)
    · rcases List.mem_cons.mp hmem with hname | hbody
      · have hname : s.name = t.name := (String.append_right_inj "*").mp hname.symm
        refine ⟨s.shorten, List.mem_map_of_mem (List.mem_filter.mpr ⟨hs, ?_⟩), hname⟩
        rw [hname, Table.ofName?_name, Option.isSome_some]
      · exact absurd ⟨t.name, rfl⟩ (s.plain _ hbody)
  · rintro ⟨p, hp, hname⟩
    obtain ⟨s, hs, rfl⟩ := List.mem_map.mp hp
    refine .inr ⟨s, (List.mem_filter.mp hs).1, ?_⟩
    rw [Section.lines, List.mem_cons]
    exact .inl (congrArg ("*" ++ ·) hname.symm)

/-- Lines of other tables and lines that show no rule are not seen in the result. -/
theorem parse_congr {other : String} (h : (outline other).shorten = (outline raw).shorten) :
    parse numbered mode other = parse numbered mode raw := by
  have hentries (t : Table) :
      (parse numbered mode other).entries? t = (parse numbered mode raw).entries? t := by
    rw [entries?_eq, entries?_eq, shown, shown, ← lines_outline other, ← lines_outline raw]
    simp only [Outline.header_mem_lines_iff, Outline.rulesOf_eq, h]
  exact congrArg LiveState.mk (funext hentries)

/-! ### Listings with one section for each table -/

/-- No table has two sections, and no rule stands in front of the sections. -/
def Outline.IsPlain (o : Outline) : Prop :=
  o.lead.filter isRule = [] ∧ ∀ t : Table, (o.sections.filter (·.name == t.name)).length ≤ 1

/-- The rule lines of a table. -/
def Outline.linesOf (o : Outline) (t : Table) : List String :=
  (o.rulesOf t).map Prod.fst

theorem Outline.IsPlain.rulesOf_eq {o : Outline} (h : o.IsPlain) (t : Table) :
    o.rulesOf t = (o.linesOf t).zipIdx 1 := by
  have hrules : ∃ ls, o.rulesOf t = numberedRules ls := by
    have hlead : (if t = .filter then numberedRules o.lead else []) = [] := by
      split
      · rw [numberedRules, h.1, List.zipIdx_nil]
      · rfl
    rw [Outline.rulesOf, hlead, List.nil_append]
    have hle := h.2 t
    cases hss : o.sections.filter (·.name == t.name) with
    | nil => exact ⟨[], rfl⟩
    | cons s rest =>
        rw [hss, List.length_cons] at hle
        obtain rfl : rest = [] := List.length_eq_zero_iff.mp (by omega)
        exact ⟨s.body, by rw [List.flatMap_singleton]⟩
  obtain ⟨ls, hls⟩ := hrules
  rw [linesOf, hls, numberedRules, List.zipIdx_map_fst]

/-- Each rule line of a plain listing is an entry with its number. -/
theorem numbers_of_isPlain (h : (outline raw).IsPlain) :
    (parse true mode raw).Numbers mode (outline raw).linesOf := by
  intro t
  rw [entries_eq, shown, h.rulesOf_eq, firstByKey_numbered]

/-! ### The grammar of listings -/

/-- How a listing is read. It has one outline, and the sections of a table and their rule lines decide on its entries
and their numbers; nothing else does. A pass over the lines with an index finds the same entries. Keys without numbers
are found exactly if they are found with some number, and of a listing with one section for each table no rule is
dropped. -/
theorem parse_sections (raw : String) (mode : AddressMode) :
    (∀ o : Outline, o.lines = trimmedLines raw ↔ o = outline raw) ∧
    (∀ (numbered : Bool) (t : Table),
      (((parse numbered mode raw).entries? t).isSome ↔
        "*" ++ t.name ∈ trimmedLines raw ∨ (outline raw).rulesOf t ≠ []) ∧
      ReadsTable (parse numbered mode raw) t
        (((outline raw).rulesOf t).map fun (line, i) => entry numbered mode ⟨t, i, line⟩) ∧
      ((read numbered mode raw).tables t).map Indexed.entries = (parse numbered mode raw).entries? t ∧
      ∀ key, ((read numbered mode raw).indexed t).contains key = (parse numbered mode raw).contains t key ∧
        ((read numbered mode raw).indexed t).find? key = (parse numbered mode raw).find? t key) ∧
    (∀ other, (outline other).shorten = (outline raw).shorten →
      ∀ numbered, parse numbered mode other = parse numbered mode raw) ∧
    (∀ t key, (parse false mode raw).contains t key = true ↔
      ∃ n, (parse true mode raw).contains t (numberedKey n key) = true) ∧
    ((outline raw).IsPlain → ∀ t, (parse true mode raw).entries t =
      (((outline raw).linesOf t).zipIdx 1).map fun (line, i) =>
        ⟨numberedKey i (canonical line), LiveRule.ofLine mode t line⟩) := by
  refine ⟨fun o => ⟨fun h => ?_, fun h => ?_⟩, fun numbered t => ?_, fun other h numbered => parse_congr h,
    fun t key => contains_unnumbered_iff, fun h t => numbers_of_isPlain h t⟩
  · rw [← Outline.ofLines_lines o, h, outline]
  · rw [h, lines_outline]
  · exact ⟨isSome_entries?_iff, readsTable_parse, tables_read numbered mode raw t, fun key =>
      ⟨contains_read numbered mode raw t key, find?_read numbered mode raw t key⟩⟩

/-- A section of an unknown table does not matter, and two equal rules are two entries. -/
theorem parse_sections_of_two :
    parse true .cidr "*security\n-A INPUT -j DROP\n*filter\n -A INPUT -j LOG\nCOMMIT\n-A INPUT -j LOG\n" =
        parse true .cidr "*filter\n-A INPUT -j LOG\n-A INPUT -j LOG\n" ∧
      ((parse true .cidr "*filter\n-A INPUT -j LOG\n-A INPUT -j LOG\n").entries .filter).map Entry.key =
        ["1 -A INPUT -j LOG", "2 -A INPUT -j LOG"] := by
  obtain ⟨-, -, hcongr, -, hplain⟩ :=
    parse_sections "*filter\n-A INPUT -j LOG\n-A INPUT -j LOG\n" .cidr
  have hentries := hplain ⟨by decide +kernel, fun t => by cases t <;> decide +kernel⟩ .filter
  exact ⟨hcongr _ (by decide +kernel) true, (congrArg (List.map Entry.key) hentries).trans (by decide +kernel)⟩

end Listing

end PacketFilter
