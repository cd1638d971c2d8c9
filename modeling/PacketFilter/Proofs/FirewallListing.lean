import PacketFilter.Proofs.ListingEntries
import PacketFilter.Proofs.TextLines

/-! # The listing of a firewall

A firewall whose rules are rule lines (`Firewall.HoldsRules`) is listed so that its rules are read back, table
by table and in order (`Firewall.rules_listing`). What a listing without numbers finds are the keys of the live
rules, and a listing with numbers finds each rule at its position. -/

namespace PacketFilter

/-- A live rule that can be listed: its text is a rule line and appends to its chain. -/
structure Slot.IsRule (s : Slot) : Prop where
  line : IsRuleLine s.text
  chain : appendedChain? s.text = some s.chain

theorem IsRuleLine.appendedChain?_eq {text : String} (h : IsRuleLine text) :
    ∃ chain rest, arguments text = "-A" :: chain :: rest ∧ appendedChain? text = some chain := by
  obtain ⟨chain, ws, hr⟩ := h.exists_read_eq
  refine ⟨chain.text, ws.map Word.text, ?_, ?_⟩
  · rw [arguments, hr]
    rfl
  · rw [appendedChain?, hr]
    rfl

theorem Table.filter_flatMap_all {α : Type} {table : α → Table} {f : Table → List α}
    (h : ∀ t, ∀ a ∈ f t, table a = t) (t : Table) :
    (Table.all.flatMap f).filter (fun a => table a == t) = f t := by
  have hof : ∀ u, (f u).filter (fun a => table a == t) = if u = t then f u else [] := by
    intro u
    by_cases hu : u = t
    · rw [if_pos hu, List.filter_eq_self]
      intro a ha
      rw [h u a ha, hu, beq_self_eq_true]
    · rw [if_neg hu, List.filter_eq_nil_iff]
      intro a ha
      rw [h u a ha, beq_iff_eq]
      exact hu
  rw [List.filter_flatMap]
  simp only [hof]
  cases t <;> simp [Table.all]

/-- There is nothing to plan exactly if every declared rule is live at its position. -/
theorem RuleSet.between_eq_none_iff {declared : RuleSet} {live : LiveState} :
    Plan.between declared live = none ↔ declared.isPlacedIn live = true := by
  rw [Plan.between]
  split <;> simp_all

theorem RuleSet.between_eq_some_iff {declared : RuleSet} {live : LiveState} {plan : Plan} :
    Plan.between declared live = some plan ↔
      declared.isPlacedIn live = false ∧ plan = ⟨declared.all, live.stale⟩ := by
  rw [Plan.between]
  cases declared.isPlacedIn live <;> simp [eq_comm]

namespace Firewall

/-- Every live rule can be listed. -/
def HoldsRules (w : Firewall) : Prop :=
  ∀ t, ∀ s ∈ w.slots t, s.IsRule

theorem isRuleLine_of_mem_rules {raw : String} {r : Listing.ListedRule} (h : r ∈ Listing.rules raw) :
    IsRuleLine r.line := by
  obtain ⟨rest, hrest⟩ := Option.isSome_iff_exists.mp (Listing.afterStart?_of_mem_rules h)
  obtain ⟨cs, hcs, -⟩ := Option.map_eq_some_iff.mp hrest
  have hline := Listing.rule_mem_of_mem_listedRules h
  obtain ⟨line, hl, hof⟩ := List.mem_map.mp hline
  have htext : r.line = Text.trim line := by
    unfold Listing.Line.ofText at hof
    split at hof
    · cases hof
    · split at hof
      · exact (Listing.Line.rule.inj hof).symm
      · cases hof
  constructor
  · exact ⟨cs, Text.dropStart?_eq_some_iff.mp hcs⟩
  · rw [htext]
    exact Text.newline_not_mem_trim hl
  · rw [htext]
    exact Text.endsInk_trim line

theorem isRuleLine_key {mode : AddressMode} {raw : String} {t : Table} {e : Entry}
    (h : e ∈ (Listing.parse false mode raw).entries t) : IsRuleLine e.key := by
  rw [Listing.entries_parse] at h
  obtain ⟨r, hr, rfl⟩ := List.mem_map.mp (Listing.mem_of_mem_firstByKey h)
  exact (isRuleLine_of_mem_rules (List.mem_filter.mp hr).1).canonical

theorem holdsRules_ofListing (raw : String) : (ofListing raw).HoldsRules := by
  intro t s hs
  obtain ⟨r, hr, rfl⟩ := List.mem_map.mp hs
  have hline := isRuleLine_of_mem_rules (List.mem_filter.mp hr).1
  obtain ⟨chain, -, -, hchain⟩ := hline.appendedChain?_eq
  exact ⟨hline, by simp [hchain]⟩

/-! ### Listing order -/

theorem mem_inListingOrder {s : Slot} {slots : List Slot} : s ∈ inListingOrder slots ↔ s ∈ slots :=
  (List.mergeSort_perm _ _).mem_iff

theorem rankOf_trans (a b c : Slot) (hab : decide (Chain.rankOf a.chain ≤ Chain.rankOf b.chain) = true)
    (hbc : decide (Chain.rankOf b.chain ≤ Chain.rankOf c.chain) = true) :
    decide (Chain.rankOf a.chain ≤ Chain.rankOf c.chain) = true :=
  decide_eq_true (Nat.le_trans (of_decide_eq_true hab) (of_decide_eq_true hbc))

theorem rankOf_total (a b : Slot) :
    (decide (Chain.rankOf a.chain ≤ Chain.rankOf b.chain) || decide (Chain.rankOf b.chain ≤ Chain.rankOf a.chain)) =
      true := by
  simp only [Bool.or_eq_true, decide_eq_true_eq]
  exact Nat.le_total _ _

theorem pairwise_inListingOrder (slots : List Slot) :
    (inListingOrder slots).Pairwise fun a b => Chain.rankOf a.chain ≤ Chain.rankOf b.chain :=
  (List.pairwise_mergeSort rankOf_trans rankOf_total slots).imp fun h => of_decide_eq_true h

theorem append_inj_of_forall {α : Type} {p : α → Bool} {xs ys xs' ys' : List α} (h : xs ++ ys = xs' ++ ys')
    (hxs : ∀ x ∈ xs, p x = true) (hys : ∀ y ∈ ys, p y = false)
    (hxs' : ∀ x ∈ xs', p x = true) (hys' : ∀ y ∈ ys', p y = false) : xs = xs' ∧ ys = ys' := by
  have hfilter := congrArg (List.filter p) h
  rw [List.filter_append, List.filter_append, List.filter_eq_self.mpr hxs, List.filter_eq_self.mpr hxs',
    List.filter_eq_nil_iff.mpr fun y hy => by simp [hys y hy],
    List.filter_eq_nil_iff.mpr fun y hy => by simp [hys' y hy], List.append_nil, List.append_nil] at hfilter
  subst hfilter
  exact ⟨rfl, List.append_cancel_left h⟩

theorem inListingOrder_cons (s : Slot) (slots : List Slot) :
    ∃ before after, inListingOrder slots = before ++ after ∧ inListingOrder (s :: slots) = before ++ s :: after ∧
      (∀ x ∈ before, Chain.rankOf x.chain < Chain.rankOf s.chain) ∧
      ∀ x ∈ after, Chain.rankOf s.chain ≤ Chain.rankOf x.chain := by
  obtain ⟨before, after, hcons, hslots, hbefore⟩ := List.mergeSort_cons rankOf_trans rankOf_total s slots
  refine ⟨before, after, hslots, hcons, fun x hx => by simpa using hbefore x hx, ?_⟩
  have hsorted := pairwise_inListingOrder (s :: slots)
  rw [inListingOrder, hcons] at hsorted
  exact (List.pairwise_cons.mp (List.pairwise_append.mp hsorted).2.1).1

/-- The order of a listing is stable: rules that are left out do not move the others. -/
theorem inListingOrder_filter (p : Slot → Bool) (slots : List Slot) :
    inListingOrder (slots.filter p) = (inListingOrder slots).filter p := by
  induction slots with
  | nil => simp [inListingOrder]
  | cons s slots ih =>
      obtain ⟨before, after, hslots, hcons, hbefore, hafter⟩ := inListingOrder_cons s slots
      rw [hslots, List.filter_append] at ih
      rw [hcons, List.filter_append]
      cases hs : p s with
      | false => rw [List.filter_cons_of_neg (by simp [hs]), List.filter_cons_of_neg (by simp [hs]), ih]
      | true =>
          obtain ⟨before', after', hslots', hcons', hbefore', hafter'⟩ := inListingOrder_cons s (slots.filter p)
          rw [List.filter_cons_of_pos hs, List.filter_cons_of_pos hs, hcons']
          -- both times the other rules are cut where the earlier chains end
          obtain ⟨hb, ha⟩ : before' = before.filter p ∧ after' = after.filter p :=
            append_inj_of_forall (p := fun x : Slot => decide (Chain.rankOf x.chain < Chain.rankOf s.chain))
              (hslots'.symm.trans ih) (by simpa using hbefore') (by simpa using hafter')
              (fun x hx => by simpa using hbefore x (List.mem_filter.mp hx).1)
              (fun x hx => by simpa using hafter x (List.mem_filter.mp hx).1)
          rw [hb, ha]

theorem rules_filter {w v : Firewall} {t : Table} {p : String → Bool}
    (h : v.slots t = (w.slots t).filter fun s => p s.text) : v.rules t = (w.rules t).filter p := by
  rw [rules, h, inListingOrder_filter, rules, List.filter_map]
  rfl

theorem inListingOrder_eq_self_iff {slots : List Slot} :
    inListingOrder slots = slots ↔ slots.Pairwise fun a b => Chain.rankOf a.chain ≤ Chain.rankOf b.chain := by
  constructor
  · intro h
    rw [← h]
    exact pairwise_inListingOrder slots
  · intro h
    exact List.mergeSort_of_pairwise (h.imp fun h => decide_eq_true h)

theorem rules_perm (w : Firewall) (t : Table) : (w.rules t).Perm ((w.slots t).map Slot.text) :=
  (List.mergeSort_perm _ _).map _

theorem length_rules (w : Firewall) (t : Table) : (w.rules t).length = (w.slots t).length := by
  rw [(w.rules_perm t).length_eq, List.length_map]

theorem mem_rules {w : Firewall} {t : Table} {text : String} :
    text ∈ w.rules t ↔ ∃ s ∈ w.slots t, s.text = text := by
  rw [(w.rules_perm t).mem_iff, List.mem_map]

/-! ### Lines of the listing -/

variable {w : Firewall}

theorem HoldsRules.isRuleLine (hw : w.HoldsRules) {t : Table} {text : String} (h : text ∈ w.rules t) :
    IsRuleLine text := by
  obtain ⟨s, hs, rfl⟩ := mem_rules.mp h
  exact (hw t s hs).line

theorem lineOf_listedText {text : String} (h : IsRuleLine text) :
    Listing.Line.ofText (Text.trim (listedText text)) = .rule (listedText text) := by
  obtain ⟨rest, ht⟩ := h.listedText.starts
  have htrim : Text.trim (listedText text) = listedText text := by
    refine Text.trim_eq_self (fun c hc => ?_) h.listedText.ends
    rw [ht, List.head?_cons, Option.some_inj] at hc
    rw [← hc]
    decide
  have hstar : Text.afterStart? "*" (listedText text) = none := by
    rw [Text.afterStart?, ht]
    rfl
  have hrule : (Text.afterStart? "-A " (listedText text)).isSome := by
    rw [Text.afterStart?, Option.isSome_map, Option.isSome_iff_exists]
    exact ⟨rest, Text.dropStart?_eq_some_iff.mpr ht⟩
  rw [htrim, Listing.Line.ofText, hstar]
  exact if_pos hrule

/-- What stands in front of the rules in the section of a table. -/
def sectionHead (t : Table) : List String :=
  ("*" ++ t.name) :: (Chain.all.filter (·.isIn t)).map fun c => ":" ++ c.name ++ " ACCEPT [0:0]"

theorem lines_sectionHead (t : Table) :
    ∃ others, (sectionHead t).map (fun l => Listing.Line.ofText (Text.trim l)) = .header (some t) :: others ∧
      ∀ l ∈ others, l = .other := by
  cases t <;> exact ⟨_, rfl, by decide⟩

theorem sectionLines_eq (w : Firewall) (t : Table) :
    w.sectionLines t = sectionHead t ++ (w.rules t).map listedText ++ ["COMMIT"] := rfl

theorem HoldsRules.isLine (hw : w.HoldsRules) :
    ∀ l ∈ w.listingLines, '\n' ∉ l.toList ∧ l.toList.getLast? ≠ some '\r' := by
  have hhead : ∀ t, ∀ l ∈ sectionHead t, '\n' ∉ l.toList ∧ l.toList.getLast? ≠ some '\r' := by
    intro t
    cases t <;> decide
  intro l hl
  rw [listingLines, List.mem_cons, List.mem_flatMap] at hl
  rcases hl with rfl | ⟨t, -, hl⟩
  · decide
  · rw [sectionLines_eq, List.mem_append, List.mem_append, List.mem_singleton] at hl
    rcases hl with (hl | hl) | rfl
    · exact hhead t l hl
    · obtain ⟨text, htext, rfl⟩ := List.mem_map.mp hl
      have hline := (hw.isRuleLine htext).listedText
      refine ⟨hline.newline, fun hr => ?_⟩
      have := hline.ends _ hr
      revert this
      decide
    · decide

theorem HoldsRules.lines_listing (hw : w.HoldsRules) :
    Listing.lines w.listing = w.listingLines.map fun l => Listing.Line.ofText (Text.trim l) := by
  rw [Listing.lines, listing, Text.lines_join hw.isLine]

def listedRulesOf (w : Firewall) (t : Table) : List Listing.ListedRule :=
  ((w.rules t).zipIdx 1).map fun (text, i) => ⟨t, i, listedText text⟩

theorem HoldsRules.listedRules_section (hw : w.HoldsRules) (t : Table) (current : Option Table) (n : Nat)
    (rest : List Listing.Line) :
    ∃ m, Listing.listedRules current n
        ((w.sectionLines t).map (fun l => Listing.Line.ofText (Text.trim l)) ++ rest) =
      w.listedRulesOf t ++ Listing.listedRules (some t) m rest := by
  obtain ⟨others, hhead, hothers⟩ := lines_sectionHead t
  have hrules : ((w.rules t).map listedText).map (fun l => Listing.Line.ofText (Text.trim l)) =
      ((w.rules t).map listedText).map .rule := by
    rw [List.map_map, List.map_map]
    refine List.map_congr_left fun text h => ?_
    simp only [Function.comp_apply]
    exact lineOf_listedText (hw.isRuleLine h)
  have hcommit : Listing.Line.ofText (Text.trim "COMMIT") = .other := by decide
  refine ⟨0 + ((w.rules t).map listedText).length, ?_⟩
  rw [sectionLines_eq, List.map_append, List.map_append, hhead, hrules, List.map_singleton, hcommit,
    List.append_assoc, List.append_assoc, List.cons_append, Listing.listedRules,
    Listing.listedRules_others hothers, Listing.listedRules_rules, List.singleton_append, Listing.listedRules,
    listedRulesOf, List.zipIdx_map, List.map_map]
  rfl

theorem HoldsRules.listedRules_sections (hw : w.HoldsRules) (ts : List Table) (current : Option Table) (n : Nat) :
    Listing.listedRules current n
        ((ts.flatMap w.sectionLines).map fun l => Listing.Line.ofText (Text.trim l)) =
      ts.flatMap w.listedRulesOf := by
  induction ts generalizing current n with
  | nil => rfl
  | cons t ts ih =>
      rw [List.flatMap_cons, List.map_append]
      obtain ⟨m, hm⟩ := hw.listedRules_section t current n
        ((ts.flatMap w.sectionLines).map fun l => Listing.Line.ofText (Text.trim l))
      rw [hm, ih, List.flatMap_cons]

/-- The listing of a firewall shows its rules, numbered in each table. -/
theorem HoldsRules.rules_listing (hw : w.HoldsRules) (t : Table) :
    (Listing.rules w.listing).filter (·.table == t) = w.listedRulesOf t := by
  have hhead : Listing.Line.ofText (Text.trim "# Generated by iptables-save v1.8.9") = .other := by decide
  rw [Listing.rules, hw.lines_listing, listingLines, List.map_cons, hhead, Listing.listedRules,
    hw.listedRules_sections, Table.filter_flatMap_all]
  intro u r hr
  obtain ⟨_, -, rfl⟩ := List.mem_map.mp hr
  rfl

/-! ### What a listing finds -/

theorem map_key_listedRulesOf (w : Firewall) (mode : AddressMode) (t : Table) :
    ((w.listedRulesOf t).map (Listing.entry false mode)).map Entry.key = (w.rules t).map listedKey := by
  have h := congrArg (List.map listedKey) (List.zipIdx_map_fst 1 (w.rules t))
  rw [List.map_map] at h
  rw [listedRulesOf, List.map_map, List.map_map]
  exact h

theorem HoldsRules.keys_sublist (hw : w.HoldsRules) (mode : AddressMode) (t : Table) :
    (((Listing.parse false mode w.listing).entries t).map Entry.key).Sublist ((w.rules t).map listedKey) := by
  rw [Listing.entries_parse, hw.rules_listing, ← map_key_listedRulesOf w mode]
  exact (Listing.firstByKey_sublist [] _).map Entry.key

theorem HoldsRules.mem_keys (hw : w.HoldsRules) (mode : AddressMode) (t : Table) (k : String) :
    k ∈ ((Listing.parse false mode w.listing).entries t).map Entry.key ↔
      ∃ s ∈ w.slots t, listedKey s.text = k := by
  rw [Listing.entries_parse, hw.rules_listing, Listing.mem_keys_firstByKey, map_key_listedRulesOf,
    ((w.rules_perm t).map listedKey).mem_iff, List.map_map, List.mem_map]
  simp

theorem HoldsRules.contains_listing (hw : w.HoldsRules) (mode : AddressMode) (t : Table) (k : String) :
    (Listing.parse false mode w.listing).contains t k = true ↔ ∃ s ∈ w.slots t, listedKey s.text = k := by
  rw [← hw.mem_keys mode t k, LiveState.contains_iff]

/-- A listing with numbers finds every live rule at its position. -/
theorem HoldsRules.entries_numbered (hw : w.HoldsRules) (mode : AddressMode) (t : Table) :
    (Listing.parse true mode w.listing).entries t =
      ((w.rules t).zipIdx 1).map fun (text, i) => Listing.entry true mode ⟨t, i, listedText text⟩ := by
  have h := Listing.firstByKey_numbered mode t 1 ((w.rules t).map listedText)
  rw [List.zipIdx_map, List.map_map] at h
  rw [Listing.entries_parse, hw.rules_listing, listedRulesOf, List.map_map]
  exact h

theorem HoldsRules.numbers (hw : w.HoldsRules) (mode : AddressMode) :
    (Listing.parse true mode w.listing).Numbers mode fun t => (w.rules t).map listedText := by
  intro t
  rw [hw.entries_numbered, List.zipIdx_map, List.map_map]
  rfl

theorem HoldsRules.entries_single (hw : w.HoldsRules) (mode : AddressMode) {t : Table} {s : Slot}
    (hs : w.slots t = [s]) :
    (Listing.parse false mode w.listing).entries t =
      [⟨listedKey s.text, LiveRule.ofLine mode t (listedText s.text)⟩] := by
  have hrules : w.rules t = [s.text] := by
    rw [rules, hs, inListingOrder, List.mergeSort_singleton, List.map_singleton]
  rw [Listing.entries_parse, hw.rules_listing, listedRulesOf, hrules]
  rfl

/-! ### Comparing with declared rules -/

/-- Every declared rule is found at its position exactly if the declared texts come first among the keys. -/
theorem HoldsRules.isPlacedIn_listing (hw : w.HoldsRules) (mode : AddressMode) (declared : RuleSet) :
    declared.isPlacedIn (Listing.parse true mode w.listing) = true ↔
      ∀ t, declared.texts t <+: (w.rules t).map listedKey := by
  refine (hw.numbers mode).isPlacedIn_iff.trans (forall_congr' fun t => ?_)
  rw [List.map_map]
  rfl

theorem HoldsRules.mem_surplus (hw : w.HoldsRules) {mode : AddressMode} {declared : RuleSet} {t : Table}
    {k : String} :
    (t, k) ∈ surplus declared (Listing.parse false mode w.listing) ↔
      (∃ s ∈ w.slots t, listedKey s.text = k) ∧ k ∉ declared.texts t := by
  rw [← hw.mem_keys mode t k, surplus, List.mem_flatMap, List.mem_map]
  constructor
  · rintro ⟨u, -, hu⟩
    obtain ⟨e, he, heq⟩ := List.mem_map.mp hu
    obtain ⟨rfl, rfl⟩ := Prod.mk.inj heq
    obtain ⟨he, hk⟩ := List.mem_filter.mp he
    exact ⟨⟨e, he, rfl⟩, by simpa using hk⟩
  · rintro ⟨⟨e, he, rfl⟩, hk⟩
    exact ⟨t, Table.mem_all t, List.mem_map.mpr ⟨e, List.mem_filter.mpr ⟨he, by simpa using hk⟩, rfl⟩⟩

theorem HoldsRules.surplus_eq_nil_iff (hw : w.HoldsRules) {mode : AddressMode} {declared : RuleSet} :
    surplus declared (Listing.parse false mode w.listing) = [] ↔
      ∀ t, ∀ s ∈ w.slots t, listedKey s.text ∈ declared.texts t := by
  rw [List.eq_nil_iff_forall_not_mem]
  constructor
  · intro h t s hs
    refine Decidable.byContradiction fun hk => h (t, listedKey s.text) ?_
    exact hw.mem_surplus.mpr ⟨⟨s, hs, rfl⟩, hk⟩
  · rintro h ⟨t, k⟩ hm
    obtain ⟨⟨s, hs, rfl⟩, hk⟩ := hw.mem_surplus.mp hm
    exact hk (h t s hs)

theorem HoldsRules.surplus_sublist (hw : w.HoldsRules) (mode : AddressMode) (declared : RuleSet) (t : Table) :
    (((surplus declared (Listing.parse false mode w.listing)).filter (·.1 == t)).map Prod.snd).Sublist
      ((w.rules t).map listedKey) := by
  have hof : ((surplus declared (Listing.parse false mode w.listing)).filter (·.1 == t)).map Prod.snd =
      (((Listing.parse false mode w.listing).entries t).filter
        fun e => ! (declared.texts t).contains e.key).map Entry.key := by
    rw [surplus, Table.filter_flatMap_all, List.map_map]
    · rfl
    · rintro u ⟨v, k⟩ hm
      obtain ⟨e, -, he⟩ := List.mem_map.mp hm
      exact (Prod.mk.inj he).1.symm
  rw [hof]
  exact (List.filter_sublist.map Entry.key).trans (hw.keys_sublist mode t)

/-- The positional deletions of a plan, one for each live rule. -/
theorem HoldsRules.map_stale (hw : w.HoldsRules) (mode : AddressMode) :
    ((Listing.parse true mode w.listing).stale.map fun old => Command.deleteAt old.table old.chain 1) =
      Table.all.flatMap fun t => (inListingOrder (w.slots t)).map fun s =>
        .deleteAt t (LiveRule.ofLine mode t (listedText s.text)).chain 1 := by
  rw [LiveState.stale, List.map_flatMap]
  refine congrArg Table.all.flatMap (funext fun t => ?_)
  rw [hw.entries_numbered, List.map_map, List.map_map, rules, List.zipIdx_map, List.map_map]
  have h := congrArg
    (List.map fun s : Slot => Command.deleteAt t (LiveRule.ofLine mode t (listedText s.text)).chain 1)
    (List.zipIdx_map_fst 1 (inListingOrder (w.slots t)))
  rw [List.map_map] at h
  rw [← h]
  rfl

end Firewall

end PacketFilter
