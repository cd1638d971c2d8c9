import PacketFilter.Failure
import PacketFilter.Proofs.AcceptedClauses

/-! # When a declared rule is accepted

A declared rule is compiled exactly if it is placed, its addresses can be read and its values are allowed, and then
there is one rule for each of its sources. If it is not compiled, an address is to blame exactly if its name and its
chain are in order and one of its addresses cannot be read: the other values are looked at last
(`Spec.compile_accepts_iff`). -/

namespace PacketFilter

theorem bind_eq_error {ε α β : Type} {x : Except ε α} {f : α → Except ε β} {e : ε} :
    (x >>= f) = .error e ↔ x = .error e ∨ ∃ a, x = .ok a ∧ f a = .error e := by
  cases x <;> simp [bind, Except.bind]

theorem exists_mapM_iff {ε α β : Type} {f : α → Except ε β} {xs : List α} :
    (∃ ys, xs.mapM f = .ok ys) ↔ ∀ x ∈ xs, ∃ y, f x = .ok y := by
  simp only [mapM_eq_ok_iff]
  induction xs with
  | nil => simp
  | cons x xs ih =>
      rw [List.forall_mem_cons, ← ih]
      constructor
      · rintro ⟨_, h⟩
        cases h with
        | cons hy hys => exact ⟨⟨_, hy⟩, ⟨_, hys⟩⟩
      · rintro ⟨⟨y, hy⟩, ys, hys⟩
        exact ⟨y :: ys, .cons hy hys⟩

theorem exists_option_mapM_iff {ε α β : Type} {f : α → Except ε β} {value : Option α} :
    (∃ result, value.mapM f = .ok result) ↔ ∀ a ∈ value, ∃ b, f a = .ok b := by
  cases value with
  | none => simp [pure, Except.pure]
  | some a => cases ha : f a <;> simp [ha, Functor.map, Except.map]

namespace Spec

variable {s : Spec} {resolve : Resolver} {mode : AddressMode} {rules : List Rule} {e : CompileError}

theorem mapError_eq_error {ε ε' α : Type} {f : ε → ε'} {x : Except ε α} {e : ε'} :
    x.mapError f = .error e ↔ ∃ e', x = .error e' ∧ f e' = e := by
  cases x <;> simp [Except.mapError]

/-! ### Acceptance -/

/-- Every address of a declared rule can be read. -/
structure Resolves (s : Spec) (resolve : Resolver) (mode : AddressMode) : Prop where
  sources : ∀ value ∈ s.sources, ∃ text, normalize resolve mode value = .ok text
  destination : ∀ value ∈ s.destination, ∃ text, normalize resolve mode value = .ok text

theorem resolves_iff :
    s.Resolves resolve mode ↔
      (∃ sources, s.sources.mapM (normalize resolve mode) = .ok sources) ∧
        ∃ destination, s.destination.mapM (normalize resolve mode) = .ok destination := by
  rw [exists_mapM_iff, exists_option_mapM_iff]
  exact ⟨fun h => ⟨h.sources, h.destination⟩, fun h => ⟨h.1, h.2⟩⟩

theorem exists_compile_iff :
    (∃ rules, s.compile resolve mode = .ok rules) ↔ s.IsPlaced ∧ s.Resolves resolve mode ∧ s.IsAdmissible := by
  simp only [compile_eq_ok_iff, resolves_iff]
  constructor
  · rintro ⟨_, hplaced, hadmissible, sources, destination, hsources, hdestination, -⟩
    exact ⟨hplaced, ⟨⟨sources, hsources⟩, ⟨destination, hdestination⟩⟩, hadmissible⟩
  · rintro ⟨hplaced, ⟨⟨sources, hsources⟩, ⟨destination, hdestination⟩⟩, hadmissible⟩
    exact ⟨_, hplaced, hadmissible, sources, destination, hsources, hdestination, rfl⟩

/-- The rules of a declared rule: one for each of its sources, in their order, or a single one without a source. -/
structure IsExpanded (s : Spec) (resolve : Resolver) (mode : AddressMode) (rules : List Rule) : Prop where
  length : rules.length = max 1 s.sources.length
  place : ∀ rule ∈ rules, rule.name = s.name ∧ rule.table = s.table ∧ rule.chain = s.chain.name
  sources : if s.sources = [] then rules.map Rule.source = [""]
    else List.Forall₂ (fun value rule => normalize resolve mode value = .ok rule.source) s.sources rules

theorem isExpanded_of_compile (h : s.compile resolve mode = .ok rules) : s.IsExpanded resolve mode rules := by
  obtain ⟨-, -, sources, destination, hsources, -, rfl⟩ := compile_eq_ok_iff.mp h
  have hnormal := mapM_eq_ok_iff.mp hsources
  have hlength := hnormal.length_eq
  refine ⟨?_, fun rule hrule => ?_, ?_⟩
  · unfold sourceChoices
    cases sources with
    | nil => simp [hlength]
    | cons text texts => simp [hlength]
  · obtain ⟨source, -, rfl⟩ := List.mem_map.mp hrule
    exact ⟨rfl, rfl, rfl⟩
  · cases hdeclared : s.sources with
    | nil =>
        rw [hdeclared] at hnormal
        cases hnormal
        rfl
    | cons value values =>
        rw [hdeclared] at hnormal
        obtain ⟨text, texts, -, -, rfl⟩ := List.forall₂_cons_left_iff.mp hnormal
        have hchoices : sourceChoices (text :: texts) = (text :: texts).map some := rfl
        rw [if_neg (List.cons_ne_nil _ _), hchoices, List.map_map, List.forall₂_map_right_iff]
        exact hnormal

/-! ### Failures -/

/-- An address is what a declared rule is refused for exactly if its name and its chain are in order and one of its
addresses cannot be read. -/
theorem exists_address_iff (h : s.compile resolve mode = .error e) :
    (∃ a, e = .address a) ↔ s.IsPlaced ∧ ¬ s.Resolves resolve mode := by
  unfold compile at h
  simp only [bind_eq_error, mapError_eq_error, mapError_eq_ok, pure, Except.pure] at h
  rw [resolves_iff]
  -- the error comes from the name or the chain, from a source, from the destination or from another value
  rcases h with ⟨v, hplace, rfl⟩ | ⟨_, hplace, ⟨a, ha, rfl⟩ | ⟨sources, hsources, ⟨a, ha, rfl⟩ |
    ⟨_, hclauses, ⟨v, hv, rfl⟩ | ⟨_, _, h⟩⟩⟩⟩
  · have hplaced : ¬ s.IsPlaced := by
      rw [← checkPlacement_eq_ok_iff, hplace]
      simp
    simp [hplaced]
  · simp [checkPlacement_eq_ok_iff.mp hplace, ha]
  · have hdestination : ¬ ∃ destination, s.destination.mapM (normalize resolve mode) = .ok destination := by
      rintro ⟨destination, hdestination⟩
      rw [destinationClauses_eq_ok_iff.mpr ⟨destination, hdestination, rfl⟩] at ha
      cases ha
    simp [checkPlacement_eq_ok_iff.mp hplace, hdestination]
  · obtain ⟨destination, hdestination, -⟩ := destinationClauses_eq_ok_iff.mp hclauses
    simp [hsources, hdestination]
  · cases h

theorem exists_format_iff : (∃ reason, e.failure s.name = .format reason) ↔ ∃ a, e = .address a := by
  cases e <;> simp [CompileError.failure]

theorem exists_refused_iff : (∃ reason, e.failure s.name = .refused s.name reason) ↔ ¬ ∃ a, e = .address a := by
  cases e <;> simp [CompileError.failure]

/-- A declared rule is compiled exactly if its name and its chain are in order, its addresses can be read and its
values are allowed; its rules are one for each source, in the order of the sources. Otherwise it fails for the format
of an address exactly if its name and its chain are in order and one of its addresses cannot be read, and else the
declared rule is refused by its name. -/
theorem compile_accepts_iff (s : Spec) (resolve : Resolver) (mode : AddressMode) :
    ((∃ rules, s.compile resolve mode = .ok rules) ↔ s.IsPlaced ∧ s.Resolves resolve mode ∧ s.IsAdmissible) ∧
      (∀ rules, s.compile resolve mode = .ok rules → s.IsExpanded resolve mode rules) ∧
      ∀ e, s.compile resolve mode = .error e →
        ((∃ reason, e.failure s.name = .format reason) ↔ s.IsPlaced ∧ ¬ s.Resolves resolve mode) ∧
          ((∃ reason, e.failure s.name = .refused s.name reason) ↔ ¬ (s.IsPlaced ∧ ¬ s.Resolves resolve mode)) := by
  refine ⟨exists_compile_iff, fun rules h => isExpanded_of_compile h, fun e h => ⟨?_, ?_⟩⟩
  · rw [exists_format_iff, exists_address_iff h]
  · rw [exists_refused_iff, exists_address_iff h]

/-- A rule that most of the conditions are about, for its sources. -/
def forwardingSpec (sources : List String) : Spec where
  name := "web 80-8080_fwd"
  chain := .prerouting
  table := .nat
  jump := .dnat
  sources := sources
  destination := some "198.51.100.4/30"
  destinationPorts := some (.list ["80", "8000:8080"])
  inInterface := some "br+"
  toDestination := some "10.1.2.3:80"
  states := ["NEW"]
  limit := some "3/min"
  burst := some "5"

/-- With two sources that can be read there are two rules, and with a source that cannot be read there is none. -/
theorem compile_accepts_iff_forwarding :
    (∃ rules, (forwardingSpec ["10.0.0.0/8", "192.168.1.7"]).compile .literal .cidr = .ok rules ∧
      rules.length = 2) ∧
    (forwardingSpec ["10.0.0.0/8", "192.168.1.7"]).IsAdmissible ∧
    ∃ e reason, (forwardingSpec ["10.0.0.0/33"]).compile .literal .cidr = .error e ∧
      e.failure "web 80-8080_fwd" = .format reason := by
  have haccepted : ((forwardingSpec ["10.0.0.0/8", "192.168.1.7"]).compile .literal .cidr).toOption.isSome = true := by
    decide +kernel
  have hunread : (normalize .literal .cidr "10.0.0.0/33").toOption = none := by decide +kernel
  obtain ⟨hiff, hrules, -⟩ := compile_accepts_iff (forwardingSpec ["10.0.0.0/8", "192.168.1.7"]) .literal .cidr
  obtain ⟨hiff', -, hfails⟩ := compile_accepts_iff (forwardingSpec ["10.0.0.0/33"]) .literal .cidr
  have hresolves : ¬ (forwardingSpec ["10.0.0.0/33"]).Resolves .literal .cidr := by
    intro h
    obtain ⟨text, htext⟩ := h.sources _ (List.mem_singleton.mpr rfl)
    rw [htext] at hunread
    cases hunread
  cases hcompile : (forwardingSpec ["10.0.0.0/8", "192.168.1.7"]).compile .literal .cidr with
  | error e =>
      rw [hcompile] at haccepted
      cases haccepted
  | ok rules =>
      obtain ⟨hplaced, -, hadmissible⟩ := hiff.mp ⟨rules, hcompile⟩
      refine ⟨⟨rules, rfl, (hrules rules hcompile).length⟩, hadmissible, ?_⟩
      cases hcompile' : (forwardingSpec ["10.0.0.0/33"]).compile .literal .cidr with
      | ok rules' => exact absurd (hiff'.mp ⟨rules', hcompile'⟩).2.1 hresolves
      | error e =>
          -- the two declarations differ in their sources only
          obtain ⟨reason, hreason⟩ := (hfails e hcompile').1.mpr ⟨⟨hplaced.name, hplaced.chain⟩, hresolves⟩
          exact ⟨e, reason, rfl, hreason⟩

end Spec

end PacketFilter
