import PacketFilter.Manifest

/-! # Manifests in normal form

Every declared rule of a manifest that is accepted is in normal form (`Manifest.isNormal_of_parse`): none of
its values is an empty text, and where it chooses ports there are some. -/

namespace PacketFilter

namespace Spec

/-- The values of a declared rule that may be missing. -/
def optionalTexts (s : Spec) : List (Option String) :=
  [s.destination, s.inInterface, s.outInterface, s.toSource, s.toDestination, s.toPorts, s.rejectWith,
    s.logLevel, s.logPrefix, s.icmpType, s.limit, s.burst]

/-- No value of a declared rule is an empty text, and no list of ports is empty. -/
structure IsNormal (s : Spec) : Prop where
  optional : ∀ value ∈ s.optionalTexts, value ≠ some ""
  sources : "" ∉ s.sources
  states : "" ∉ s.states
  ports : ∀ p ∈ [s.sourcePorts, s.destinationPorts], p ≠ some (.single "") ∧ p ≠ some (.list [])

/-- No optional value of a declared rule is an empty text, and no list of ports is empty: what is there has something
in it. -/
structure IsFilled (s : Spec) : Prop where
  optional : ∀ value ∈ s.optionalTexts, value ≠ some ""
  ports : ∀ p ∈ [s.sourcePorts, s.destinationPorts], p ≠ some (.list [])

theorem IsNormal.isFilled {s : Spec} (h : s.IsNormal) : s.IsFilled where
  optional := h.optional
  ports p hp := (h.ports p hp).2

end Spec

namespace Manifest

/-! ### Values -/

theorem nonempty?_eq_some {s value : String} (h : nonempty? s = some value) : value ≠ "" := by
  rw [nonempty?] at h
  split at h
  · cases h
  · rename_i hne
    rw [← Option.some_inj.mp h]
    rintro rfl
    exact hne rfl

theorem ne_some_empty_of_option? {v : Json} {value : Option String} (h : option? v = some value) :
    value ≠ some "" := by
  obtain ⟨read, -, rfl⟩ := Option.map_eq_some_iff.mp h
  intro he
  obtain ⟨s, -, hs⟩ := Option.bind_eq_some_iff.mp he
  exact nonempty?_eq_some hs rfl

theorem empty_not_mem_texts (values : OneOrMany) : "" ∉ values.texts := by
  intro h
  cases values with
  | one value =>
      obtain ⟨s, -, hs⟩ := List.mem_filterMap.mp h
      exact nonempty?_eq_some hs rfl
  | many values =>
      obtain ⟨s, -, hs⟩ := List.mem_filterMap.mp h
      exact nonempty?_eq_some hs rfl

theorem empty_not_mem_of_list? {v : Json} {values : List String} (h : list? v = some values) : "" ∉ values := by
  obtain ⟨read, -, rfl⟩ := Option.map_eq_some_iff.mp h
  cases read with
  | none => simp
  | some values => exact empty_not_mem_texts values

theorem ports_ne_empty (values : OneOrMany) :
    values.ports ≠ some (.single "") ∧ values.ports ≠ some (.list []) := by
  cases values with
  | one value =>
      constructor
      · intro h
        obtain ⟨s, hs, he⟩ := Option.map_eq_some_iff.mp h
        exact nonempty?_eq_some hs (Ports.single.inj he)
      · intro h
        obtain ⟨s, -, he⟩ := Option.map_eq_some_iff.mp h
        cases he
  | many values =>
      rw [OneOrMany.ports]
      split
      · simp
      · rename_i hne
        simpa using hne

theorem ports_ne_empty_of_ports? {v : Json} {ports : Option Ports} (h : ports? v = some ports) :
    ports ≠ some (.single "") ∧ ports ≠ some (.list []) := by
  obtain ⟨read, -, rfl⟩ := Option.map_eq_some_iff.mp h
  cases read with
  | none => simp
  | some values => exact ports_ne_empty values

/-! ### Rules -/

/-- What holds of the default of a field and of whatever its reader gives holds of the field. -/
theorem of_fieldD {α : Type} {fields : List (String × Json)} {name : String} {default a : α}
    {read : Json → Option α} {P : α → Prop} (hd : P default) (hr : ∀ v b, read v = some b → P b)
    (h : Json.fieldD fields name default read = some a) : P a := by
  rw [Json.fieldD] at h
  split at h
  · exact Option.some_inj.mp h ▸ hd
  · exact hr _ _ h

theorem isNormal_of_spec? {v : Json} {s : Spec} (h : spec? v = some s) : s.IsNormal := by
  obtain ⟨fields, -, h⟩ := Option.bind_eq_some_iff.mp h
  obtain ⟨name, -, h⟩ := Option.bind_eq_some_iff.mp h
  obtain ⟨chain, -, h⟩ := Option.bind_eq_some_iff.mp h
  obtain ⟨table, -, h⟩ := Option.bind_eq_some_iff.mp h
  obtain ⟨protocol, -, h⟩ := Option.bind_eq_some_iff.mp h
  obtain ⟨jump, -, h⟩ := Option.bind_eq_some_iff.mp h
  obtain ⟨sources, hsources, h⟩ := Option.bind_eq_some_iff.mp h
  obtain ⟨destination, hdestination, h⟩ := Option.bind_eq_some_iff.mp h
  obtain ⟨sourcePorts, hsourcePorts, h⟩ := Option.bind_eq_some_iff.mp h
  obtain ⟨destinationPorts, hdestinationPorts, h⟩ := Option.bind_eq_some_iff.mp h
  obtain ⟨inInterface, hin, h⟩ := Option.bind_eq_some_iff.mp h
  obtain ⟨outInterface, hout, h⟩ := Option.bind_eq_some_iff.mp h
  obtain ⟨toSource, htoSource, h⟩ := Option.bind_eq_some_iff.mp h
  obtain ⟨toDestination, htoDestination, h⟩ := Option.bind_eq_some_iff.mp h
  obtain ⟨toPorts, htoPorts, h⟩ := Option.bind_eq_some_iff.mp h
  obtain ⟨rejectWith, hreject, h⟩ := Option.bind_eq_some_iff.mp h
  obtain ⟨logLevel, hlevel, h⟩ := Option.bind_eq_some_iff.mp h
  obtain ⟨logPrefix, hprefix, h⟩ := Option.bind_eq_some_iff.mp h
  obtain ⟨icmpType, hicmp, h⟩ := Option.bind_eq_some_iff.mp h
  obtain ⟨states, hstates, h⟩ := Option.bind_eq_some_iff.mp h
  obtain ⟨limit, hlimit, h⟩ := Option.bind_eq_some_iff.mp h
  obtain ⟨burst, hburst, h⟩ := Option.bind_eq_some_iff.mp h
  obtain rfl := Option.some_inj.mp h
  have htext : ∀ {name : String} {value : Option String},
      Json.fieldD fields name none option? = some value → value ≠ some "" :=
    of_fieldD (P := (· ≠ some "")) (by simp) fun _ _ => ne_some_empty_of_option?
  have hlist : ∀ {name : String} {values : List String},
      Json.fieldD fields name [] list? = some values → "" ∉ values :=
    of_fieldD (P := ("" ∉ ·)) (by simp) fun _ _ => empty_not_mem_of_list?
  have hports : ∀ {name : String} {ports : Option Ports}, Json.fieldD fields name none ports? = some ports →
      ports ≠ some (.single "") ∧ ports ≠ some (.list []) :=
    of_fieldD (P := fun p => p ≠ some (Ports.single "") ∧ p ≠ some (Ports.list [])) (by simp)
      fun _ _ => ports_ne_empty_of_ports?
  constructor
  · simp only [Spec.optionalTexts, List.forall_mem_cons]
    exact ⟨htext hdestination, htext hin, htext hout, htext htoSource, htext htoDestination, htext htoPorts,
      htext hreject, htext hlevel, htext hprefix, htext hicmp, htext hlimit, htext hburst, by simp⟩
  · exact hlist hsources
  · exact hlist hstates
  · exact List.forall_mem_cons.mpr ⟨hports hsourcePorts, List.forall_mem_singleton.mpr (hports hdestinationPorts)⟩

theorem mem_mapM {α β : Type} {f : α → Option β} {xs : List α} {ys : List β} (h : xs.mapM f = some ys) :
    ∀ y ∈ ys, ∃ x ∈ xs, f x = some y := by
  induction xs generalizing ys with
  | nil =>
      cases h
      simp
  | cons x xs ih =>
      simp only [List.mapM_cons, bind, pure, Option.bind_eq_some_iff, Option.some_inj] at h
      obtain ⟨y, hy, zs, hz, rfl⟩ := h
      intro z hz'
      rcases List.mem_cons.mp hz' with rfl | hz'
      · exact ⟨x, List.mem_cons_self, hy⟩
      · obtain ⟨x', hx', h'⟩ := ih hz z hz'
        exact ⟨x', List.mem_cons_of_mem _ hx', h'⟩

theorem isNormal_of_specs? {v : Json} {specs : List Spec} (h : specs? v = some specs) : ∀ s ∈ specs, s.IsNormal := by
  rw [specs?, Json.asList?.eq_def] at h
  split at h
  · intro s hs
    obtain ⟨item, -, hitem⟩ := mem_mapM h s hs
    exact isNormal_of_spec? hitem
  · cases h

theorem isNormal_of_parse {text : String} {specs : List Spec} (h : parse text = .ok specs) :
    ∀ s ∈ specs, s.IsNormal := by
  rw [parse] at h
  split at h
  · cases h
  · rename_i declared hd
    split at h
    · cases h
    · cases h
      obtain ⟨v, -, hv⟩ := Option.bind_eq_some_iff.mp hd
      exact isNormal_of_specs? hv

theorem exists_parse_of_load {path : String} {document : Document} {specs : List Spec}
    (h : load path document = .ok specs) : ∃ content, parse content = .ok specs := by
  rw [load.eq_def] at h
  split at h
  · cases h
  · split at h
    · exact ⟨_, h⟩
    · cases h

end Manifest

end PacketFilter
