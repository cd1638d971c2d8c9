import Mathlib.Data.List.Nodup
import PacketFilter.Proofs.DeclaredRules

/-! # The order of declarations

Declared rules are sorted by chain, name and source. Two of them that tie in this order come from one declaration, if
declarations have different names, and then they are the same rule; so a rule set does not depend on the order in which
its rules were collected (`RuleSet.assemble_congr`). The sources of a declaration give a rule each, and its states are
put in the order of a listing, so their order does not matter either, and a declaration that is rejected gives no rules
at all (`Session.preview_of_restated`). -/

namespace PacketFilter

/-- Sorting has one result for the same rules in any order, if rules that agree in name and source are the same. -/
theorem RuleSet.assemble_congr {declared declared' : List Rule} (pre post : List Rule) (h : declared.Perm declared')
    (hties : ∀ a ∈ declared, ∀ b ∈ declared, a.name = b.name → a.source = b.source → a = b) :
    assemble declared pre post = assemble declared' pre post := by
  have hsort : ∀ t, (rulesOf t declared).mergeSort Rule.precedes = (rulesOf t declared').mergeSort Rule.precedes := by
    intro t
    have hsorted := List.pairwise_mergeSort Rule.precedes_trans Rule.precedes_total
    have hperm : ((rulesOf t declared).mergeSort Rule.precedes).Perm
        ((rulesOf t declared').mergeSort Rule.precedes) :=
      (List.mergeSort_perm _ _).trans ((h.filter _).trans (List.mergeSort_perm _ _).symm)
    refine hperm.eq_of_pairwise (fun a b ha hb hab hba => ?_) (hsorted _) (hsorted _)
    have hmem : ∀ r ∈ (rulesOf t declared).mergeSort Rule.precedes, r ∈ declared := fun r hr =>
      (List.mem_filter.mp (List.mem_mergeSort.mp hr)).1
    obtain ⟨hname, hsource⟩ := Rule.eq_of_precedes hab hba
    exact hties a (hmem a ha) b (hmem b (hperm.mem_iff.mpr hb)) hname hsource
  have hrules : (assemble declared pre post).rules = (assemble declared' pre post).rules :=
    funext fun t => by rw [rules_assemble, rules_assemble, hsort]
  exact congrArg RuleSet.mk hrules

/-! ### One declaration -/

theorem perm_mapM {α β ε : Type} {f : α → Except ε β} {xs ys : List α} {bs : List β} (h : xs.Perm ys)
    (hbs : xs.mapM f = .ok bs) : ∃ cs, ys.mapM f = .ok cs ∧ bs.Perm cs := by
  induction h generalizing bs with
  | nil => exact ⟨bs, hbs, .refl bs⟩
  | cons x h ih =>
      simp only [List.mapM_cons, bind_eq_ok, pure, Except.pure, Except.ok.injEq] at hbs ⊢
      obtain ⟨b, hb, rest, hrest, rfl⟩ := hbs
      obtain ⟨cs, hcs, hperm⟩ := ih hrest
      exact ⟨b :: cs, ⟨b, hb, cs, hcs, rfl⟩, hperm.cons b⟩
  | swap x y xs =>
      simp only [List.mapM_cons, bind_eq_ok, pure, Except.pure, Except.ok.injEq] at hbs ⊢
      obtain ⟨b, hb, _, ⟨c, hc, rest, hrest, rfl⟩, rfl⟩ := hbs
      exact ⟨c :: b :: rest, ⟨c, hc, b :: rest, ⟨b, hb, rest, hrest, rfl⟩, rfl⟩, .swap c b rest⟩
  | trans h h' ih ih' =>
      obtain ⟨cs, hcs, hperm⟩ := ih hbs
      obtain ⟨ds, hds, hperm'⟩ := ih' hcs
      exact ⟨ds, hds, hperm.trans hperm'⟩

namespace Spec

variable {s s' : Spec} {resolve : Resolver} {mode : AddressMode} {r r' : Rule}

/-- The same declaration with its sources in another order and its states in another order or repeated. -/
inductive Restates (s : Spec) : Spec → Prop
  | intro {sources states : List String} :
    sources.Perm s.sources → (∀ state, state ∈ states ↔ state ∈ s.states) → Restates s { s with sources, states }

theorem Restates.symm (h : s.Restates s') : s'.Restates s := by
  cases h with
  | @intro sources states hsources hstates => exact .intro hsources.symm fun state => (hstates state).symm

theorem stateClauses_congr {sources states : List String} (h : ∀ state, state ∈ states ↔ state ∈ s.states) :
    { s with sources, states }.stateClauses = s.stateClauses := by
  have hempty : states.isEmpty = s.states.isEmpty := by
    rw [Bool.eq_iff_iff, List.isEmpty_iff, List.isEmpty_iff, List.eq_nil_iff_forall_not_mem,
      List.eq_nil_iff_forall_not_mem]
    exact forall_congr' fun state => not_congr (h state)
  have hstates : Check.states states = Check.states s.states := by
    have hall : states.all connectionStates.contains = s.states.all connectionStates.contains := by
      rw [Bool.eq_iff_iff, List.all_eq_true, List.all_eq_true]
      exact forall_congr' fun state => imp_congr_left (h state)
    have hcontains : states.contains = s.states.contains := by
      funext state
      rw [Bool.eq_iff_iff, List.contains_iff_mem, List.contains_iff_mem]
      exact h state
    rw [Check.states, Check.states, hall, hcontains]
  simp only [stateClauses, hempty, hstates]

theorem matchClauses_congr {sources states : List String} (h : ∀ state, state ∈ states ↔ state ∈ s.states) :
    { s with sources, states }.matchClauses = s.matchClauses := by
  rw [matchClauses, stateClauses_congr h]
  rfl

theorem sourceChoices_perm {texts texts' : List String} (h : texts.Perm texts') :
    (sourceChoices texts).Perm (sourceChoices texts') := by
  rw [sourceChoices, sourceChoices, h.isEmpty_eq]
  split
  · exact .refl _
  · exact h.map some

/-- A declaration that is restated is compiled to the same rules, in another order. -/
theorem Restates.compile_eq_ok (h : s.Restates s') {rules : List Rule} (hok : s.compile resolve mode = .ok rules) :
    ∃ rules', s'.compile resolve mode = .ok rules' ∧ rules.Perm rules' := by
  cases h with
  | @intro sources states hsources hstates =>
      simp only [compile, bind_eq_ok, mapError_eq_ok, pure, Except.pure, Except.ok.injEq] at hok ⊢
      obtain ⟨_, hplace, texts, htexts, destination, hdestination, clauses, hclauses, rfl⟩ := hok
      obtain ⟨texts', htexts', hperm⟩ := perm_mapM hsources.symm htexts
      have hclauses' : { s with sources, states }.matchClauses = .ok clauses :=
        (matchClauses_congr hstates).trans hclauses
      exact ⟨_, ⟨_, hplace, texts', htexts', destination, hdestination, clauses, hclauses', rfl⟩,
        (sourceChoices_perm hperm).map _⟩

theorem Restates.rules_perm (h : s.Restates s') : (s.rules resolve mode).Perm (s'.rules resolve mode) := by
  cases hs : s.compile resolve mode with
  | ok rules =>
      obtain ⟨rules', hs', hperm⟩ := h.compile_eq_ok hs
      rwa [Spec.rules, Spec.rules, hs, hs']
  | error e =>
      cases hs' : s'.compile resolve mode with
      | ok rules' =>
          -- restated once more, the declaration would be compiled
          obtain ⟨rules, hok, -⟩ := h.symm.compile_eq_ok hs'
          rw [hs] at hok
          cases hok
      | error e' => rw [Spec.rules, Spec.rules, hs, hs']

theorem name_of_mem_rules (h : r ∈ s.rules resolve mode) : r.name = s.name := by
  obtain ⟨rules, hrules, hr⟩ := mem_rules.mp h
  obtain ⟨-, -, _, _, -, -, rfl⟩ := compile_eq_ok_iff.mp hrules
  obtain ⟨source, -, rfl⟩ := List.mem_map.mp hr
  rfl

theorem eq_of_mem_rules (h : r ∈ s.rules resolve mode) (h' : r' ∈ s.rules resolve mode)
    (hsource : r.source = r'.source) : r = r' := by
  obtain ⟨rules, hrules, hr⟩ := mem_rules.mp h
  obtain ⟨rules', hrules', hr'⟩ := mem_rules.mp h'
  rw [hrules] at hrules'
  obtain rfl := Except.ok.inj hrules'
  obtain ⟨-, -, texts, destination, -, -, rfl⟩ := compile_eq_ok_iff.mp hrules
  obtain ⟨source, hmem, rfl⟩ := List.mem_map.mp hr
  obtain ⟨source', hmem', rfl⟩ := List.mem_map.mp hr'
  suffices source = source' by rw [this]
  rcases mem_sourceChoices hmem with ⟨hnil, rfl⟩ | ⟨text, htext, rfl⟩
  · rcases mem_sourceChoices hmem' with ⟨-, rfl⟩ | ⟨text', htext', rfl⟩
    · rfl
    · rw [hnil] at htext'
      cases htext'
  · rcases mem_sourceChoices hmem' with ⟨hnil, rfl⟩ | ⟨text', -, rfl⟩
    · rw [hnil] at htext
      cases htext
    · exact congrArg some hsource

end Spec

/-! ### All declarations -/

namespace Session

variable {resolve : Resolver} {mode : AddressMode} {settings : Settings} {specs specs' : List Spec}

/-- The same declarations in any order, each of them restated, and without some of those that are rejected. -/
def Restated (resolve : Resolver) (mode : AddressMode) (specs specs' : List Spec) : Prop :=
  ∃ kept dropped, specs.Perm (kept ++ dropped) ∧ (∀ s ∈ dropped, ∃ e, s.compile resolve mode = .error e) ∧
    List.Forall₂ Spec.Restates kept specs'

theorem Restated.perm (h : Restated resolve mode specs specs') :
    (specs.flatMap (Spec.rules resolve mode)).Perm (specs'.flatMap (Spec.rules resolve mode)) := by
  obtain ⟨kept, dropped, hperm, hdropped, hrestates⟩ := h
  have hnone : dropped.flatMap (Spec.rules resolve mode) = [] := by
    refine List.flatMap_eq_nil_iff.mpr fun s hs => ?_
    obtain ⟨e, he⟩ := hdropped s hs
    rw [Spec.rules, he]
  have hkept : (kept.flatMap (Spec.rules resolve mode)).Perm (specs'.flatMap (Spec.rules resolve mode)) := by
    clear hperm
    induction hrestates with
    | nil => exact .refl _
    | cons h _ ih => exact h.rules_perm.append ih
  have hall := hperm.flatMap_right (Spec.rules resolve mode)
  rw [List.flatMap_append, hnone, List.append_nil] at hall
  exact hall.trans hkept

/-- If declarations have different names, their rules with the same name and the same source are the same. -/
theorem eq_of_ties (hnames : (specs.map Spec.name).Nodup) :
    ∀ a ∈ specs.flatMap (Spec.rules resolve mode), ∀ b ∈ specs.flatMap (Spec.rules resolve mode),
      a.name = b.name → a.source = b.source → a = b := by
  intro a ha b hb hname hsource
  obtain ⟨s, hs, ha⟩ := List.mem_flatMap.mp ha
  obtain ⟨s', hs', hb⟩ := List.mem_flatMap.mp hb
  rw [Spec.name_of_mem_rules ha, Spec.name_of_mem_rules hb] at hname
  obtain rfl := List.inj_on_of_nodup_map hnames hs hs' hname
  exact Spec.eq_of_mem_rules ha hb hsource

/-- Neither the order of declarations with different names matters, nor the order of their sources, nor how their states
are written, nor whether rejected ones are declared at all: the rule set that a run would establish is the same, and so
is its checksum. -/
theorem preview_of_restated (hnames : (specs.map Spec.name).Nodup) (h : Restated resolve mode specs specs') :
    (declareAll resolve { mode, settings } specs').preview = (declareAll resolve { mode, settings } specs).preview ∧
      (declareAll resolve { mode, settings } specs').preview.checksum =
        (declareAll resolve { mode, settings } specs).preview.checksum := by
  have hsame : (declareAll resolve { mode, settings } specs').preview =
      (declareAll resolve { mode, settings } specs).preview := by
    rw [preview, preview, declareAll_settings, declareAll_settings, collected_declareAll, collected_declareAll,
      List.nil_append, List.nil_append]
    exact (RuleSet.assemble_congr _ _ h.perm (eq_of_ties hnames)).symm
  exact ⟨hsame, congrArg RuleSet.checksum hsame⟩

/-- A declaration for two sources. -/
def hostsSpec : Spec :=
  { name := "hosts", sources := ["10.0.0.1", "10.0.0.2"], states := ["NEW", "ESTABLISHED"] }

def hostsSpecRestated : Spec :=
  { hostsSpec with sources := ["10.0.0.2", "10.0.0.1"], states := ["ESTABLISHED", "NEW", "NEW"] }

def webSpec : Spec :=
  { name := "web", destinationPorts := some (.single "80") }

/-- A declaration without a name is rejected, so it may be left out; the other two may change their places. -/
theorem preview_of_restated_hosts :
    ([hostsSpec, {}, webSpec].map Spec.name).Nodup ∧
      Restated .literal .cidr [hostsSpec, {}, webSpec] [webSpec, hostsSpecRestated] ∧
      (declareAll .literal { mode := .cidr, settings := {} } [webSpec, hostsSpecRestated]).preview =
        (declareAll .literal { mode := .cidr, settings := {} } [hostsSpec, {}, webSpec]).preview := by
  have hnames : ([hostsSpec, {}, webSpec].map Spec.name).Nodup := by
    decide
  have hrejected : ({} : Spec).compile .literal .cidr = .error (.violation .emptyName) := by
    decide +kernel
  have hhosts : hostsSpec.Restates hostsSpecRestated :=
    .intro (.swap "10.0.0.1" "10.0.0.2" []) (by simp [hostsSpec, or_comm])
  have hweb : webSpec.Restates webSpec := .intro (.refl _) fun _ => .rfl
  have hrestated : Restated .literal .cidr [hostsSpec, {}, webSpec] [webSpec, hostsSpecRestated] :=
    ⟨[webSpec, hostsSpec], [{}], by decide, by simpa using ⟨_, hrejected⟩, .cons hweb (.cons hhosts .nil)⟩
  exact ⟨hnames, hrestated, (preview_of_restated hnames hrestated).1⟩

end Session

end PacketFilter
