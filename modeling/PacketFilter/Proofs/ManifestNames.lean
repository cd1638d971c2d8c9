import PacketFilter.Proofs.NormalForm

/-! # Names in a manifest

What a text declares is a manifest exactly if all of its rules have different names. Otherwise the text is refused for
the first rule whose name occurs before it. With the normal form of declared rules, this says what every manifest is
like that is accepted (`Manifest.parse_normal_form`). -/

namespace PacketFilter

namespace Manifest

/-! ### Repeated names -/

theorem firstRepeated_eq_none_iff {seen names : List String} :
    firstRepeated seen names = none ↔ names.Nodup ∧ ∀ name ∈ names, name ∉ seen := by
  induction names generalizing seen with
  | nil => simp [firstRepeated]
  | cons s names ih =>
      by_cases hs : s ∈ seen
      · simp [firstRepeated, hs]
      · simp only [firstRepeated, List.contains_iff_mem, hs, if_false, ih]
        grind

/-- The first name that is repeated stands behind new names that are all different, and it is one of them or is not
new itself. -/
theorem firstRepeated_eq_some_iff {seen names : List String} {name : String} :
    firstRepeated seen names = some name ↔ ∃ before after, names = before ++ name :: after ∧
      before.Nodup ∧ (∀ other ∈ before, other ∉ seen) ∧ (name ∈ seen ∨ name ∈ before) := by
  induction names generalizing seen with
  | nil => simp [firstRepeated]
  | cons s names ih =>
      by_cases hs : s ∈ seen
      · simp only [firstRepeated, List.contains_iff_mem, hs, if_true, Option.some.injEq]
        constructor
        · rintro rfl
          exact ⟨[], names, rfl, List.nodup_nil, by simp, .inl hs⟩
        · -- no name stands before it, since the first one is not new
          rintro ⟨before, after, hnames, -, hunseen, -⟩
          cases before with
          | nil => exact (List.cons.inj hnames).1
          | cons b before =>
              obtain ⟨rfl, -⟩ := List.cons.inj hnames
              exact absurd hs (hunseen s List.mem_cons_self)
      · simp only [firstRepeated, List.contains_iff_mem, hs, if_false, ih]
        constructor
        · rintro ⟨before, after, rfl, hnodup, hunseen, hname⟩
          exact ⟨s :: before, after, rfl, by grind⟩
        · rintro ⟨before, after, hnames, hnodup, hunseen, hname⟩
          cases before with
          | nil => grind
          | cons b before =>
              obtain ⟨rfl, hrest⟩ := List.cons.inj hnames
              exact ⟨before, after, hrest, by grind⟩

/-! ### Manifests -/

/-- The rules that a text declares, whether or not it is accepted as a manifest. -/
def declared? (text : String) : Option (List Spec) :=
  (Json.ofText? text).bind specs?

variable {text : String} {specs : List Spec}

theorem parse_of_declared (h : declared? text = some specs) :
    parse text = (firstRepeated [] (specs.map Spec.name)).elim (.ok specs) fun name => .error (.duplicateName name) := by
  unfold declared? at h
  simp only [parse, h]
  cases firstRepeated [] (specs.map Spec.name) <;> rfl

theorem parse_eq_ok_iff : parse text = .ok specs ↔ declared? text = some specs ∧ (specs.map Spec.name).Nodup := by
  have hdistinct : firstRepeated [] (specs.map Spec.name) = none ↔ (specs.map Spec.name).Nodup := by
    rw [firstRepeated_eq_none_iff]
    exact and_iff_left fun _ _ => List.not_mem_nil
  constructor
  · intro h
    cases hdeclared : declared? text with
    | none =>
        unfold declared? at hdeclared
        rw [parse, hdeclared] at h
        cases h
    | some declared =>
        rw [parse_of_declared hdeclared] at h
        cases hfirst : firstRepeated [] (declared.map Spec.name) with
        | some name =>
            rw [hfirst] at h
            cases h
        | none =>
            rw [hfirst] at h
            obtain rfl := Except.ok.inj h
            exact ⟨rfl, hdistinct.mp hfirst⟩
  · rintro ⟨hdeclared, hnodup⟩
    rw [parse_of_declared hdeclared, hdistinct.mpr hnodup, Option.elim_none]

theorem parse_of_repeated (h : declared? text = some specs) (hrepeated : ¬ (specs.map Spec.name).Nodup) :
    ∃ before s after, specs = before ++ s :: after ∧ (before.map Spec.name).Nodup ∧
      s.name ∈ before.map Spec.name ∧ parse text = .error (.duplicateName s.name) := by
  cases hfirst : firstRepeated [] (specs.map Spec.name) with
  | none => exact absurd (firstRepeated_eq_none_iff.mp hfirst).1 hrepeated
  | some name =>
      obtain ⟨names, rest, hnames, hnodup, -, hname⟩ := firstRepeated_eq_some_iff.mp hfirst
      obtain ⟨before, behind, rfl, rfl, hbehind⟩ := List.map_eq_append_iff.mp hnames
      obtain ⟨s, after, rfl, rfl, -⟩ := List.map_eq_cons_iff.mp hbehind
      refine ⟨before, s, after, rfl, hnodup, hname.resolve_left List.not_mem_nil, ?_⟩
      rw [parse_of_declared h, hfirst, Option.elim_some]

/-- A text is accepted exactly if it declares rules with different names, and then none of their values is an empty text
and no list of ports is empty. A text that declares rules with a repeated name is refused for the first rule whose name
occurs before it. -/
theorem parse_normal_form (text : String) :
    (∀ specs, parse text = .ok specs ↔ declared? text = some specs ∧ (specs.map Spec.name).Nodup) ∧
      (∀ specs, parse text = .ok specs → ∀ s ∈ specs, s.IsNormal) ∧
      ∀ specs, declared? text = some specs → ¬ (specs.map Spec.name).Nodup →
        ∃ before s after, specs = before ++ s :: after ∧ (before.map Spec.name).Nodup ∧
          s.name ∈ before.map Spec.name ∧ parse text = .error (.duplicateName s.name) :=
  ⟨fun _ => parse_eq_ok_iff, fun _ h => isNormal_of_parse h, fun _ h hrepeated => parse_of_repeated h hrepeated⟩

/-- A manifest with a rule that is an object, and one that is an array of its fields in order. -/
def mixedManifest : String :=
  "[\x7b\"name\":\"web\",\"source\":[\"10.0.0.0/8\",\"\"],\"dport\":[80,\"\"],\"sport\":[],\"iniface\":\"\"\x7d," ++
    "[\"dns\",\"INPUT\",\"filter\",\"udp\",\"ACCEPT\",\"\",null,\"\",53]]"

def mixedSpecs : List Spec :=
  [{ name := "web", sources := ["10.0.0.0/8"], destinationPorts := some (.list ["80", ""]) },
    { name := "dns", protocol := .udp, destinationPorts := some (.single "53") }]

/-- A manifest in which the names of two rules are repeated. -/
def repeatedManifest : String :=
  "[\x7b\"name\":\"a\"\x7d,\x7b\"name\":\"b\"\x7d,[\"b\"],\x7b\"name\":\"a\"\x7d]"

/-- The first of these manifests is accepted in normal form, and the second is refused for the name that is repeated
first. -/
theorem parse_normal_form_mixed :
    (parse mixedManifest = .ok mixedSpecs ∧ (mixedSpecs.map Spec.name).Nodup ∧ ∀ s ∈ mixedSpecs, s.IsNormal) ∧
      ∃ before s after, [{ name := "a" }, { name := "b" }, { name := "b" }, { name := "a" }] = before ++ s :: after ∧
        s.name ∈ before.map Spec.name ∧ parse repeatedManifest = .error (.duplicateName s.name) := by
  have hmixed : declared? mixedManifest = some mixedSpecs := by decide +kernel
  have hrepeated : declared? repeatedManifest =
      some [{ name := "a" }, { name := "b" }, { name := "b" }, { name := "a" }] := by decide +kernel
  obtain ⟨haccepted, hnormal, -⟩ := parse_normal_form mixedManifest
  have hparse := (haccepted mixedSpecs).mpr ⟨hmixed, by decide⟩
  obtain ⟨before, s, after, hspecs, -, hname, hrefused⟩ :=
    (parse_normal_form repeatedManifest).2.2 _ hrepeated (by decide)
  exact ⟨⟨hparse, ((haccepted _).mp hparse).2, hnormal _ hparse⟩, before, s, after, hspecs, hname, hrefused⟩

end Manifest

end PacketFilter
