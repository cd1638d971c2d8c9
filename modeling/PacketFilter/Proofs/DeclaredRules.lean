import Mathlib.Data.Prod.Lex
import Mathlib.Data.String.Basic
import PacketFilter.Proofs.CompiledClauses
import PacketFilter.Session

/-! # Declared rule sets

`Rule.precedes` compares the keys of rules (`Rule.sortKey`), so it is a total order up to rules that agree in priority,
name and source. The priority of a declared rule is the place of its chain (`Spec.priority_eq_rank`), so declared rules
stand in the order in which they would be listed (`RuleSet.pairwise_rank_assemble`). The rules that a session collects are the rules its declarations are compiled to
(`Session.collected_declareAll`). -/

namespace PacketFilter

/-! ### The order of declared rules -/

/-- What declared rules are sorted by: the priority, then the name, then the source. -/
def Rule.sortKey (r : Rule) : ℕ ×ₗ String ×ₗ String :=
  toLex (r.priority, toLex (r.name, r.source))

theorem Rule.precedes_eq_true {a b : Rule} :
    a.precedes b = true ↔ a.priority < b.priority ∨ a.priority = b.priority ∧
      (a.name < b.name ∨ a.name = b.name ∧ a.source ≤ b.source) := by
  simp only [Rule.precedes, Bool.or_eq_true, Bool.and_eq_true, decide_eq_true_eq, beq_iff_eq, Bool.not_eq_true',
    decide_eq_false_iff_not, String.not_lt]

theorem Rule.precedes_iff_sortKey_le {a b : Rule} : a.precedes b = true ↔ a.sortKey ≤ b.sortKey := by
  rw [Rule.precedes_eq_true, Rule.sortKey, Rule.sortKey, Prod.Lex.toLex_le_toLex, Prod.Lex.toLex_le_toLex]

theorem Rule.precedes_trans (a b c : Rule) (hab : a.precedes b = true) (hbc : b.precedes c = true) :
    a.precedes c = true := by
  rw [Rule.precedes_iff_sortKey_le] at *
  exact hab.trans hbc

theorem Rule.precedes_total (a b : Rule) : (a.precedes b || b.precedes a) = true := by
  rw [Bool.or_eq_true, Rule.precedes_iff_sortKey_le, Rule.precedes_iff_sortKey_le]
  exact le_total a.sortKey b.sortKey

theorem Rule.eq_of_precedes {a b : Rule} (hab : a.precedes b = true) (hba : b.precedes a = true) :
    a.name = b.name ∧ a.source = b.source := by
  have hkey : a.sortKey = b.sortKey :=
    le_antisymm (Rule.precedes_iff_sortKey_le.mp hab) (Rule.precedes_iff_sortKey_le.mp hba)
  exact Prod.mk.inj (Prod.mk.inj hkey).2

/-! ### Rules of declarations only -/

namespace RuleSet

theorem mem_assemble {declared pre post : List Rule} {t : Table} {r : Rule} :
    r ∈ (assemble declared pre post).rules t ↔ (r ∈ pre ∨ r ∈ declared ∨ r ∈ post) ∧ r.table = t := by
  simp only [rules_assemble, List.mem_append, (List.mergeSort_perm _ _).mem_iff, rulesOf, List.mem_filter, beq_iff_eq,
    or_and_right, or_assoc]

/-- Declared rules whose priorities are the places of their chains stand in the order of their chains. -/
theorem pairwise_rank_assemble {declared : List Rule} (h : ∀ r ∈ declared, r.priority = r.rank) (t : Table) :
    ((assemble declared [] []).rules t).Pairwise fun a b => a.rank ≤ b.rank := by
  have hsorted : ((assemble declared [] []).rules t).Pairwise fun a b => a.precedes b = true := by
    rw [rules_assemble, rulesOf, rulesOf, List.filter_nil, List.nil_append, List.append_nil]
    exact List.pairwise_mergeSort Rule.precedes_trans Rule.precedes_total _
  have hrank : ∀ r ∈ (assemble declared [] []).rules t, r.priority = r.rank := by
    intro r hr
    exact h r (by simpa using (mem_assemble.mp hr).1)
  refine hsorted.imp_of_mem fun {a b} ha hb hab => ?_
  rw [← hrank a ha, ← hrank b hb]
  rcases Rule.precedes_eq_true.mp hab with hlt | ⟨heq, -⟩
  · exact Nat.le_of_lt hlt
  · exact Nat.le_of_eq heq

end RuleSet

/-! ### Sessions -/

/-- The rules that a declaration is compiled to; there are none if it is rejected. -/
def Spec.rules (resolve : Resolver) (mode : AddressMode) (s : Spec) : List Rule :=
  match s.compile resolve mode with
  | .ok rules => rules
  | .error _ => []

theorem Spec.mem_rules {resolve : Resolver} {mode : AddressMode} {s : Spec} {r : Rule} :
    r ∈ s.rules resolve mode ↔ ∃ rules, s.compile resolve mode = .ok rules ∧ r ∈ rules := by
  rw [Spec.rules]
  cases s.compile resolve mode <;> simp

theorem Spec.priority_eq_rank {resolve : Resolver} {mode : AddressMode} {s : Spec} {r : Rule}
    (h : r ∈ s.rules resolve mode) : r.priority = r.rank := by
  obtain ⟨rules, hcompile, hr⟩ := Spec.mem_rules.mp h
  obtain ⟨-, -, sources, destination, -, -, rfl⟩ := Spec.compile_eq_ok_iff.mp hcompile
  obtain ⟨source, -, rfl⟩ := List.mem_map.mp hr
  exact (Chain.rankOf_name s.chain).symm

namespace Session

variable {resolve : Resolver} {session : Session}

theorem declare_mode (spec : Spec) : (declare resolve session spec).mode = session.mode := by
  rw [declare]
  split <;> rfl

theorem declare_settings (spec : Spec) : (declare resolve session spec).settings = session.settings := by
  rw [declare]
  split <;> rfl

theorem declareAll_settings (specs : List Spec) :
    (declareAll resolve session specs).settings = session.settings := by
  induction specs generalizing session with
  | nil => rfl
  | cons spec specs ih => exact ih.trans (declare_settings spec)

theorem declareAll_withSettings (resolve : Resolver) (session : Session) (settings : Settings) (specs : List Spec) :
    { declareAll resolve session specs with settings } = declareAll resolve { session with settings } specs := by
  induction specs generalizing session with
  | nil => rfl
  | cons spec specs ih =>
      refine (ih (declare resolve session spec)).trans ?_
      have hstep : { declare resolve session spec with settings } =
          declare resolve { session with settings } spec := by
        unfold declare
        cases spec.compile resolve session.mode <;> rfl
      exact congrArg (declareAll resolve · specs) hstep

theorem collected_declare (spec : Spec) :
    (declare resolve session spec).collected = session.collected ++ spec.rules resolve session.mode := by
  rw [declare, Spec.rules]
  cases spec.compile resolve session.mode <;> simp

theorem collected_declareAll (specs : List Spec) :
    (declareAll resolve session specs).collected =
      session.collected ++ specs.flatMap (Spec.rules resolve session.mode) := by
  induction specs generalizing session with
  | nil => exact (List.append_nil _).symm
  | cons spec specs ih =>
      refine ih.trans ?_
      rw [collected_declare, declare_mode, List.append_assoc, List.flatMap_cons]

/-- A session that makes the rules of a manifest the live ones. -/
def ofSpecs (resolve : Resolver) (mode : AddressMode) (persist : Option Invocation) (specs : List Spec) : Session :=
  declareAll resolve { mode, settings := { persist } } specs

end Session

/-- A rule set whose rules are read back, table by table in the order of a listing. -/
structure RuleSet.IsReadBack (declared : RuleSet) : Prop where
  rule : ∀ t, ∀ r ∈ declared.rules t, r.IsReadBack
  table : ∀ t, ∀ r ∈ declared.rules t, r.table = t
  sorted : ∀ t, (declared.rules t).Pairwise fun a b => a.rank ≤ b.rank

namespace Session

variable {resolve : Resolver} {mode : AddressMode} {persist : Option Invocation} {specs : List Spec}

theorem settings_ofSpecs : (ofSpecs resolve mode persist specs).settings = { persist } :=
  declareAll_settings specs

theorem dryRun_ofSpecs : (ofSpecs resolve mode persist specs).settings.dryRun = false := by
  rw [settings_ofSpecs]

theorem exists_spec_of_mem_preview {t : Table} {r : Rule}
    (h : r ∈ (ofSpecs resolve mode persist specs).preview.rules t) :
    r.table = t ∧ ∃ s ∈ specs, ∃ rules, s.compile resolve mode = .ok rules ∧ r ∈ rules := by
  rw [preview, settings_ofSpecs, RuleSet.mem_assemble, ofSpecs, collected_declareAll] at h
  obtain ⟨hmem, ht⟩ := h
  simp only [List.not_mem_nil, false_or, or_false, List.nil_append] at hmem
  obtain ⟨s, hs, hr⟩ := List.mem_flatMap.mp hmem
  exact ⟨ht, s, hs, Spec.mem_rules.mp hr⟩

theorem isReadBack_preview (hn : ∀ s ∈ specs, s.IsNormal) :
    (ofSpecs resolve mode persist specs).preview.IsReadBack where
  rule t r hr := by
    obtain ⟨-, s, hs, rules, hrules, hmem⟩ := exists_spec_of_mem_preview hr
    exact Spec.isReadBack_of_compile (hn s hs) hrules r hmem
  table t r hr := (exists_spec_of_mem_preview hr).1
  sorted t := by
    rw [preview, settings_ofSpecs]
    refine RuleSet.pairwise_rank_assemble (fun r hr => ?_) t
    rw [ofSpecs, collected_declareAll, List.nil_append] at hr
    obtain ⟨s, -, hr⟩ := List.mem_flatMap.mp hr
    exact Spec.priority_eq_rank hr

theorem isReadBack_of_parse {text : String} (h : Manifest.parse text = .ok specs) :
    (ofSpecs resolve mode persist specs).preview.IsReadBack :=
  isReadBack_preview (Manifest.isNormal_of_parse h)

theorem isStable_preview (hn : ∀ s ∈ specs, s.IsNormal) (ha : ∀ s ∈ specs, s.AvoidsQuoting) :
    ∀ t, ∀ r ∈ (ofSpecs resolve mode persist specs).preview.rules t, r.IsStable := by
  intro t r hr
  obtain ⟨-, s, hs, rules, hrules, hmem⟩ := exists_spec_of_mem_preview hr
  exact Spec.isStable_of_compile (hn s hs) (ha s hs) hrules r hmem

theorem preview_ofSpecs (persist : Option Invocation) :
    (ofSpecs resolve mode persist specs).preview = (ofSpecs resolve mode none specs).preview := by
  have h := declareAll_withSettings resolve { mode, settings := {} } { persist } specs
  rw [ofSpecs, ofSpecs, ← h]
  simp only [preview, declareAll_settings]

end Session

end PacketFilter
