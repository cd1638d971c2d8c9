import PacketFilter.Proofs.FirewallListing
import PacketFilter.Proofs.ListingSections
import PacketFilter.Proofs.Rebuilding

/-! # Numbers of rules and positions in a listing

`Plan.between` looks every declared rule up by its number and its text. Of a listing with one section for each table
no rule is dropped and no two rules have the same number, so that all lookups succeed exactly if the declared texts are
the first ones of their tables (`between_parse`). Otherwise the plan names every declared rule and every listed one,
also those that stand where they should.

The rules of a set are numbered table by table in their own order, while a listing goes through a table chain by chain.
When a whole set has been appended to an empty firewall, every rule is listed at its number exactly if the rules of
each table stand in the order of their chains (`RuleSet.between_assemble_iff`). Declared rules are sorted that way, but
the rules of files are put in front of them and behind them as they are (`RuleSet.not_between_assemble`). -/

namespace PacketFilter

namespace LiveState

variable {live : LiveState} {mode : AddressMode} {lines : Table → List String}

theorem Numbers.stale_eq (h : live.Numbers mode lines) :
    live.stale = Table.all.flatMap fun t => ((lines t).zipIdx 1).map fun (line, i) =>
      ⟨t, (LiveRule.ofLine mode t line).chain, numberedKey i (canonical line)⟩ := by
  rw [stale]
  refine congrArg Table.all.flatMap (funext fun t => ?_)
  rw [h, List.map_map]
  rfl

end LiveState

open Listing

/-- There is nothing to do exactly if the declared texts of each table are the first texts of its section. Otherwise
all declared rules are to be appended, and all rules of the listing are to be deleted. -/
theorem between_parse (declared : RuleSet) (mode : AddressMode) {raw : String} (h : (outline raw).IsPlain) :
    (Plan.between declared (parse true mode raw) = none ↔
      ∀ t, declared.texts t <+: ((outline raw).linesOf t).map canonical) ∧
    ∀ plan, Plan.between declared (parse true mode raw) = some plan ↔
      (¬ ∀ t, declared.texts t <+: ((outline raw).linesOf t).map canonical) ∧
      plan.toAdd = ([.filter, .nat, .mangle, .raw].flatMap fun t =>
        ((declared.rules t).zipIdx 1).map fun (rule, position) => ⟨position, rule⟩) ∧
      plan.toDelete = [.filter, .nat, .mangle, .raw].flatMap fun t =>
        (((outline raw).linesOf t).zipIdx 1).map fun (line, i) =>
          ⟨t, (LiveRule.ofLine mode t line).chain, numberedKey i (canonical line)⟩ := by
  have hnumbers : (parse true mode raw).Numbers mode (outline raw).linesOf := numbers_of_isPlain h
  have hplaced : declared.isPlacedIn (parse true mode raw) = true ↔
      ∀ t, declared.texts t <+: ((outline raw).linesOf t).map canonical := hnumbers.isPlacedIn_iff
  refine ⟨RuleSet.between_eq_none_iff.trans hplaced, fun plan => ?_⟩
  rw [RuleSet.between_eq_some_iff, ← Bool.not_eq_true, hplaced, hnumbers.stale_eq, RuleSet.all, ← Table.all]
  obtain ⟨toAdd, toDelete⟩ := plan
  rw [Plan.mk.injEq]
  rfl

/-- A rule that stands alone is at its place, and behind another rule it is not. -/
theorem between_parse_of_one :
    let log : Rule := { table := .filter, chain := "INPUT", text := "-A INPUT -j LOG" }
    Plan.between (.assemble [log] [] []) (parse true .cidr "*filter\n-A INPUT -j LOG\n") = none ∧
      Plan.between (.assemble [log] [] []) (parse true .cidr "*filter\n-A INPUT -j DROP\n-A INPUT -j LOG\n") =
        some ⟨[⟨1, log⟩], [⟨.filter, "INPUT", "1 -A INPUT -j DROP"⟩, ⟨.filter, "INPUT", "2 -A INPUT -j LOG"⟩]⟩ := by
  intro log
  refine ⟨(between_parse _ .cidr ⟨by decide +kernel, fun t => by cases t <;> decide +kernel⟩).1.mpr fun t => ?_,
    ((between_parse _ .cidr ⟨by decide +kernel, fun t => by cases t <;> decide +kernel⟩).2 _).mpr ⟨fun hall => ?_, ?_⟩⟩
  · cases t <;> decide +kernel
  · exact absurd (hall .filter) (by decide +kernel)
  · decide +kernel

end PacketFilter

namespace PacketFilter

/-! ### Rules that are listed as they are -/

/-- A rule of the chain that it appends to, which is found under its own text when it is the only live rule. -/
structure Rule.IsListedAsIs (r : Rule) : Prop where
  chain : appendedChain? r.text = some r.chain
  keys : ∀ w mode, Backend.run (.append r.table r.text) ({} : Firewall) = .ok () w →
    ((Listing.parse false mode w.listing).entries r.table).map Entry.key = [r.text]

theorem Rule.isListedAsIs_iff {r : Rule} :
    r.IsListedAsIs ↔ appendedChain? r.text = some r.chain ∧ IsRuleLine r.text ∧ r.IsStable := by
  constructor
  · rintro ⟨hchain, hkeys⟩
    obtain ⟨w, hrun, hslots⟩ := Firewall.exists_run_append r.table hchain
    have hkeys := hkeys w .cidr hrun
    obtain ⟨e, he, hkey⟩ := List.mem_map.mp (hkeys ▸ List.mem_singleton_self r.text)
    have hline : IsRuleLine r.text := hkey ▸ Firewall.isRuleLine_key he
    refine ⟨hchain, hline, ?_⟩
    rw [Firewall.entries_of_run_append hline hchain hslots, List.map_singleton, List.singleton_inj] at hkeys
    exact hkeys
  · rintro ⟨hchain, hline, hstable⟩
    refine ⟨hchain, fun w mode hrun => ?_⟩
    obtain ⟨v, hv, hslots⟩ := Firewall.exists_run_append r.table hchain
    rw [hv] at hrun
    obtain ⟨-, rfl⟩ := EStateM.Result.ok.inj hrun
    rw [Firewall.entries_of_run_append hline hchain hslots, List.map_singleton]
    exact congrArg ([·]) hstable

instance (r : Rule) : Decidable r.IsListedAsIs :=
  decidable_of_decidable_of_iff Rule.isListedAsIs_iff.symm

/-! ### Order of chains -/

namespace Firewall

theorem eq_of_map_text {slots slots' : List Slot} (h : ∀ s ∈ slots, appendedChain? s.text = some s.chain)
    (h' : ∀ s ∈ slots', appendedChain? s.text = some s.chain) (heq : slots.map Slot.text = slots'.map Slot.text) :
    slots = slots' := by
  have hof : ∀ xs : List Slot, (∀ s ∈ xs, appendedChain? s.text = some s.chain) →
      (xs.map Slot.text).map (fun text => ⟨(appendedChain? text).getD "", text⟩) = xs := by
    intro xs hxs
    rw [List.map_map]
    refine (List.map_congr_left fun s hs => ?_).trans (List.map_id xs)
    rw [Function.comp_apply, hxs s hs]
    rfl
  rw [← hof slots h, heq, hof slots' h']

end Firewall

namespace RuleSet

variable {declared : RuleSet}

/-- Live rules that are the rules of a set carry the numbers of the set exactly if the set is in the order of a
listing. -/
theorem texts_isPrefix_iff {w : Firewall} {t : Table} (hslots : w.slots t = declared.slots t)
    (h : ∀ r ∈ declared.rules t, r.IsListedAsIs) :
    declared.texts t <+: (w.rules t).map Firewall.listedKey ↔
      (declared.rules t).Pairwise fun a b => a.rank ≤ b.rank := by
  have hchain : ∀ s ∈ w.slots t, appendedChain? s.text = some s.chain := by
    rw [hslots]
    exact List.forall_mem_map.mpr fun r hr => (h r hr).chain
  have hkeys : (w.rules t).map Firewall.listedKey = (Firewall.inListingOrder (w.slots t)).map Slot.text := by
    rw [Firewall.rules, List.map_map]
    refine List.map_congr_left fun s hs => ?_
    rw [Firewall.mem_inListingOrder, hslots] at hs
    obtain ⟨r, hr, rfl⟩ := List.mem_map.mp hs
    exact (Rule.isListedAsIs_iff.mp (h r hr)).2.2
  have htexts : declared.texts t = (w.slots t).map Slot.text := by
    rw [hslots, slots, List.map_map]
    rfl
  have hsorted : (declared.rules t).Pairwise (fun a b => a.rank ≤ b.rank) ↔
      Firewall.inListingOrder (w.slots t) = w.slots t := by
    rw [Firewall.inListingOrder_eq_self_iff, hslots, slots, List.pairwise_map]
    rfl
  rw [hkeys, htexts, hsorted]
  constructor
  · intro hstarts
    have hlength : ((w.slots t).map Slot.text).length =
        ((Firewall.inListingOrder (w.slots t)).map Slot.text).length := by
      simp [Firewall.inListingOrder]
    refine Firewall.eq_of_map_text (fun s hs => ?_) hchain (hstarts.eq_of_length hlength).symm
    exact hchain s (Firewall.mem_inListingOrder.mp hs)
  · intro horder
    exact horder.symm ▸ List.prefix_rfl

section assemble
variable {declared pre post : List Rule}

/-- Rules that are listed as they are can be appended to an empty firewall, and then they are all found at their numbers
exactly if the rules of each table stand in the order of their chains. -/
theorem exists_runAll_assemble (h : ∀ r ∈ pre ++ declared ++ post, r.IsListedAsIs) (mode : AddressMode) :
    ∃ w, Backend.runAll (Firewall.appendsOf (assemble declared pre post).every) ({} : Firewall) = .ok () w ∧
      ((assemble declared pre post).isPlacedIn (Listing.parse true mode w.listing) = true ↔
        ∀ t, ((assemble declared pre post).rules t).Pairwise fun a b => a.rank ≤ b.rank) := by
  have hrules : ∀ t, ∀ r ∈ (assemble declared pre post).rules t, r.table = t ∧ r.IsListedAsIs := by
    intro t r hr
    obtain ⟨hmem, ht⟩ := mem_assemble.mp hr
    exact ⟨ht, h r (by simpa [or_assoc] using hmem)⟩
  have hchain : ∀ r ∈ (assemble declared pre post).every, appendedChain? r.text = some r.chain := by
    intro r hr
    obtain ⟨t, -, hr⟩ := List.mem_flatMap.mp hr
    exact (hrules t r hr).2.chain
  obtain ⟨w, hrun⟩ := Firewall.exists_runAll_appends (w := {}) rfl hchain
  have hslots : ∀ t, w.slots t = (assemble declared pre post).slots t := by
    intro t
    rw [(Firewall.reaches_of_runAll hrun).slots_appends hchain t, every, rulesOf,
      Table.filter_flatMap_all fun t r hr => (hrules t r hr).1]
    rfl
  have hw : w.HoldsRules := by
    intro t s hs
    rw [hslots t] at hs
    obtain ⟨r, hr, rfl⟩ := List.mem_map.mp hs
    obtain ⟨hchain, hline, -⟩ := Rule.isListedAsIs_iff.mp (hrules t r hr).2
    exact ⟨hline, hchain⟩
  refine ⟨w, hrun, ?_⟩
  rw [hw.isPlacedIn_listing]
  exact forall_congr' fun t => texts_isPrefix_iff (hslots t) fun r hr => (hrules t r hr).2

/-- A set of rules that are listed as they are can be appended to an empty firewall. Then every rule is found under its
number, and there is nothing to plan, exactly if the rules of each table stand in the order of their chains. -/
theorem between_assemble_iff (h : ∀ r ∈ pre ++ declared ++ post, r.IsListedAsIs) (mode : AddressMode) :
    ∃ w, Backend.runAll (Firewall.appendsOf (assemble declared pre post).every) ({} : Firewall) = .ok () w ∧
      ((∀ t, ∀ p ∈ (assemble declared pre post).placed t,
          (Listing.parse true mode w.listing).contains t p.key = true) ↔
        ∀ t, ((assemble declared pre post).rules t).Pairwise fun a b => a.rank ≤ b.rank) ∧
      (Plan.between (assemble declared pre post) (Listing.parse true mode w.listing) = none ↔
        ∀ t, ((assemble declared pre post).rules t).Pairwise fun a b => a.rank ≤ b.rank) := by
  obtain ⟨w, hrun, hplaced⟩ := exists_runAll_assemble h mode
  refine ⟨w, hrun, ?_, ?_⟩
  · rw [← hplaced, isPlacedIn, List.all_eq_true]
    simp [Table.mem_all]
  · rw [← hplaced, between_eq_none_iff]

/-- A rule that a file puts in front. -/
def loopbackRule : Rule :=
  { table := .filter, chain := "INPUT", text := "-A INPUT -i lo -j ACCEPT", origin := .pre }

def sshRule : Rule :=
  { table := .filter, chain := "INPUT", name := "ssh",
    text := "-A INPUT -p tcp -m tcp --dport 22 -m comment --comment \"ssh\" -j ACCEPT" }

/-- A rule of a later chain. -/
def forwardRule : Rule :=
  { table := .filter, chain := "FORWARD", text := "-A FORWARD -j ACCEPT", origin := .post }

/-- Behind the declared rules, the rule of the later chain is listed at its number. -/
theorem between_assemble_iff_forward :
    (∀ r ∈ [loopbackRule] ++ [sshRule] ++ [forwardRule], r.IsListedAsIs) ∧ ∃ w,
      Backend.runAll (Firewall.appendsOf (assemble [sshRule] [loopbackRule] [forwardRule]).every) ({} : Firewall) =
        .ok () w ∧
      Plan.between (assemble [sshRule] [loopbackRule] [forwardRule]) (Listing.parse true .cidr w.listing) = none := by
  have hlisted : ∀ r ∈ [loopbackRule] ++ [sshRule] ++ [forwardRule], r.IsListedAsIs := by decide +kernel
  have hsorted : ∀ t, ((assemble [sshRule] [loopbackRule] [forwardRule]).rules t).Pairwise
      fun a b => a.rank ≤ b.rank := by
    intro t
    cases t <;> decide +kernel
  obtain ⟨w, hrun, -, hbetween⟩ := between_assemble_iff hlisted .cidr
  exact ⟨hlisted, w, hrun, hbetween.mpr hsorted⟩

/-- In front of the declared rules it is not: a listing shows the rules of the earlier chain first. -/
theorem not_between_assemble :
    ¬ ∀ (declared pre post : List Rule) (mode : AddressMode),
      (∀ r ∈ pre ++ declared ++ post,
        r.IsListedAsIs ∧ (Chain.ofName? r.chain).isSome ∧ r.priority = Chain.rankOf r.chain) →
        ∃ w, Backend.runAll (Firewall.appendsOf (assemble declared pre post).every) ({} : Firewall) = .ok () w ∧
          Plan.between (assemble declared pre post) (Listing.parse true mode w.listing) = none := by
  intro h
  have hlisted : ∀ r ∈ [{ forwardRule with origin := .pre }] ++ [sshRule] ++ [],
      r.IsListedAsIs ∧ (Chain.ofName? r.chain).isSome ∧ r.priority = Chain.rankOf r.chain := by
    decide +kernel
  obtain ⟨w, hrun, hbetween⟩ := h [sshRule] [{ forwardRule with origin := .pre }] [] .cidr hlisted
  obtain ⟨w', hrun', hplaced⟩ := exists_runAll_assemble (fun r hr => (hlisted r hr).1) .cidr
  rw [hrun] at hrun'
  obtain ⟨-, rfl⟩ := EStateM.Result.ok.inj hrun'
  have hsorted := hplaced.mp (between_eq_none_iff.mp hbetween) .filter
  revert hsorted
  decide +kernel

end assemble

end RuleSet

end PacketFilter
