import Mathlib.Data.List.Perm.Basic
import PacketFilter.Proofs.DeclaredRules

/-! # The order of a rule set

Rules are put into a registry in any number of calls, table by table. What is finalized holds exactly them and the rules
of files, with nothing lost, doubled or altered: the rules of each table are those before the declared ones, the
declared ones in stable order of priority, name and source, and those behind them, numbered from 1
(`Registry.finalize_inserts`). The registry itself then has one bucket for each table that has rules, and no other. -/

namespace PacketFilter

/-! ### Stable sorting -/

/-- `ys` are `xs` in the order of a key, where elements with the same key keep their order. -/
structure IsStableSort {α κ : Type} [LinearOrder κ] (key : α → κ) (xs ys : List α) : Prop where
  perm : ys.Perm xs
  sorted : ys.Pairwise fun a b => key a ≤ key b
  stable : ∀ k, ys.filter (fun a => key a = k) = xs.filter (fun a => key a = k)

theorem isStableSort_mergeSort (rules : List Rule) :
    IsStableSort Rule.sortKey rules (rules.mergeSort Rule.precedes) where
  perm := List.mergeSort_perm _ _
  sorted := (List.pairwise_mergeSort Rule.precedes_trans Rule.precedes_total rules).imp
    Rule.precedes_iff_sortKey_le.mp
  stable k := by
    -- rules with one key are a sorted part of the list, so that sorting keeps them together
    have hpart : (rules.filter fun r => r.sortKey = k).Pairwise fun a b => a.precedes b = true := by
      refine List.pairwise_of_forall_mem_list fun a ha b hb => Rule.precedes_iff_sortKey_le.mpr ?_
      rw [of_decide_eq_true (List.mem_filter.mp ha).2, of_decide_eq_true (List.mem_filter.mp hb).2]
    have hsub := (List.sublist_mergeSort Rule.precedes_trans Rule.precedes_total hpart List.filter_sublist).filter
      fun r => r.sortKey = k
    rw [List.filter_filter] at hsub
    simp only [Bool.and_self] at hsub
    exact (hsub.eq_of_length ((List.mergeSort_perm _ _).filter _).length_eq.symm).symm

/-! ### Buckets -/

namespace Registry

variable {reg : Registry} {t : Table}

theorem rules_of_mem {b : Bucket} (h : b ∈ reg.buckets) : reg.rules b.1 = b.2 := by
  obtain ⟨buckets, ordered⟩ := reg
  rw [rules]
  induction buckets with
  | nil => cases h
  | cons c buckets ih =>
      obtain ⟨hfirst, hbuckets⟩ := List.pairwise_cons.mp ordered
      rw [lookup_cons]
      rcases List.mem_cons.mp h with rfl | h
      · rw [if_pos rfl, Option.getD_some]
      · have hne : b.1 ≠ c.1 := fun heq => Nat.lt_irrefl _ (heq ▸ hfirst b h)
        rw [if_neg hne]
        exact ih hbuckets h

theorem mem_of_rules_ne_nil (h : reg.rules t ≠ []) : (t, reg.rules t) ∈ reg.buckets := by
  rw [rules] at h ⊢
  cases hlookup : reg.buckets.lookup t with
  | none => simp [hlookup] at h
  | some rules =>
      obtain ⟨before, after, hbuckets, -⟩ := List.lookup_eq_some_iff.mp hlookup
      rw [hbuckets]
      simp

theorem mem_buckets_arrange {pre post : List Rule} {b : Bucket} :
    b ∈ (reg.arrange pre post).buckets ↔ b.2 ≠ [] ∧ (reg.finalize pre post).rules b.1 = b.2 := by
  constructor
  · intro h
    refine ⟨fun hnil => ?_, rules_of_mem h⟩
    have hkept := (List.mem_filter.mp h).2
    rw [hnil] at hkept
    cases hkept
  · rintro ⟨hne, hrules⟩
    replace hrules : (reg.arrange pre post).rules b.1 = b.2 := hrules
    have hmem : (b.1, (reg.arrange pre post).rules b.1) ∈ (reg.arrange pre post).buckets :=
      mem_of_rules_ne_nil (hrules.symm ▸ hne)
    rwa [hrules] at hmem

theorem eq_of_ordered {bs cs : List Bucket} (hb : bs.Pairwise fun a b => a.1.rank < b.1.rank)
    (hc : cs.Pairwise fun a b => a.1.rank < b.1.rank) (h : ∀ b, b ∈ bs ↔ b ∈ cs) : bs = cs := by
  have hne : ∀ {a b : Bucket}, a.1.rank < b.1.rank → a ≠ b := by
    rintro a b hlt rfl
    exact Nat.lt_irrefl _ hlt
  refine List.Perm.eq_of_pairwise (fun a b _ _ hab hba => absurd hba (Nat.lt_asymm hab)) hb hc ?_
  exact (List.perm_ext_iff_of_nodup (hb.imp hne) (hc.imp hne)).mpr h

/-- In the end a registry has just the tables of the rule set, in their order, with their rules. -/
theorem buckets_arrange (reg : Registry) (pre post : List Rule) :
    (reg.arrange pre post).buckets =
      (reg.finalize pre post).tables.map fun t => (t, (reg.finalize pre post).rules t) := by
  have hordered : Table.all.Pairwise fun t u => t.rank < u.rank := by decide
  refine eq_of_ordered (reg.arrange pre post).ordered (List.pairwise_map.mpr (hordered.filter _)) fun b => ?_
  rw [mem_buckets_arrange, List.mem_map]
  constructor
  · rintro ⟨hne, hrules⟩
    refine ⟨b.1, List.mem_filter.mpr ⟨Table.mem_all _, ?_⟩, Prod.ext rfl hrules⟩
    simpa [hrules] using hne
  · rintro ⟨t, ht, rfl⟩
    exact ⟨by simpa using (List.mem_filter.mp ht).2, rfl⟩

/-! ### Rule sets -/

theorem foldl_insert (reg : Registry) (calls : List (List Rule)) :
    calls.foldl insert reg = reg.insert calls.flatten := by
  induction calls generalizing reg with
  | nil => rfl
  | cons rules calls ih =>
      rw [List.foldl_cons, ih, List.flatten_cons, insert, insert, insert, List.foldl_append]

end Registry

namespace RuleSet

variable (s : RuleSet) (t : Table)

theorem map_rule_placed : (s.placed t).map PlacedRule.rule = s.rules t := by
  rw [placed, List.map_map]
  exact List.zipIdx_map_fst 1 (s.rules t)

theorem map_position_placed : (s.placed t).map PlacedRule.position = List.range' 1 (s.rules t).length := by
  rw [placed, List.map_map]
  exact List.zipIdx_map_snd 1 (s.rules t)

theorem mem_tables_iff : t ∈ s.tables ↔ s.rules t ≠ [] := by
  simp [tables, Table.mem_all]

theorem all_eq_flatMap_tables : s.all = s.tables.flatMap s.placed := by
  rw [all, tables]
  induction Table.all with
  | nil => rfl
  | cons u us ih =>
      rw [List.flatMap_cons, List.filter_cons, ih]
      split
      · rw [List.flatMap_cons]
      · rename_i hu
        have hnil : s.rules u = [] := by simpa using hu
        rw [placed, hnil]
        rfl

end RuleSet

/-- What is finalized holds exactly the rules that were put in and those of files. In each table the rules before the
declared ones come first, then the declared ones, sorted stably, and then those behind them; they are numbered from 1.
A table is there exactly if it has rules, and tables come in order. -/
theorem Registry.finalize_inserts (calls : List (List Rule)) (pre post : List Rule) :
    let reg := calls.foldl Registry.insert Registry.empty
    let s := reg.finalize pre post
    (∀ t, ∃ sorted, IsStableSort Rule.sortKey (rulesOf t calls.flatten) sorted ∧
      (s.placed t).map PlacedRule.rule = rulesOf t pre ++ sorted ++ rulesOf t post ∧
      (s.placed t).map PlacedRule.position = List.range' 1 (rulesOf t pre ++ sorted ++ rulesOf t post).length ∧
      (t ∈ s.tables ↔ rulesOf t pre ++ sorted ++ rulesOf t post ≠ [])) ∧
    (reg.arrange pre post).buckets = s.tables.map (fun t => (t, s.rules t)) ∧
    s.tables.Sublist [.filter, .nat, .mangle, .raw] ∧ s.all = s.tables.flatMap s.placed := by
  intro reg s
  refine ⟨fun t => ?_, reg.buckets_arrange pre post, List.filter_sublist, s.all_eq_flatMap_tables⟩
  have hrules : s.rules t =
      rulesOf t pre ++ (rulesOf t calls.flatten).mergeSort Rule.precedes ++ rulesOf t post := by
    rw [rules_finalize, show reg = empty.insert calls.flatten from foldl_insert empty calls, rules_insert,
      rules_empty, List.nil_append]
  refine ⟨_, isStableSort_mergeSort _, ?_, ?_, ?_⟩
  · rw [s.map_rule_placed, hrules]
  · rw [s.map_position_placed, hrules]
  · rw [s.mem_tables_iff, hrules]

end PacketFilter
