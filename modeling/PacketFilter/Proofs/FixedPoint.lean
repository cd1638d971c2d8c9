import PacketFilter.Proofs.Pruning

/-! # The fixed point of pruning

Pruning lists the live rules and deletes what is surplus, pass after pass, until a pass finds nothing
(`Firewall.Prunes`). Every pass but the last one deletes something, so there is at most one listing more than there
are deletions (`Firewall.Prunes.listed_le`). Each deletion takes out one live rule, and in the end the key of every live
rule is declared; if rules with the same arguments are listed alike, the rules that are left are exactly those that were
declared from the start (`Firewall.prune_reaches_fixed_point`). -/

namespace PacketFilter.Firewall

variable {w v : Firewall} {declared : RuleSet} {mode : AddressMode} {targets : List (Table × String)}

/-! ### Passes -/

/-- What the first pass deletes is deleted first. -/
theorem Prunes.passTargets_prefix (h : Prunes declared mode w targets v) : passTargets declared mode w <+: targets := by
  cases h with
  | done h => exact List.prefix_nil.mpr h
  | pass _ _ _ => exact List.prefix_append _ _

theorem Prunes.eq_nil_iff (h : Prunes declared mode w targets v) :
    targets = [] ↔ passTargets declared mode w = [] := by
  cases h with
  | done h => exact iff_of_true rfl h
  | pass hs _ _ => exact iff_of_false (fun hnil => hs (List.append_eq_nil_iff.mp hnil).1) hs

theorem listed_runAll {cs : List Command} (h : Backend.runAll cs w = .ok () v) : v.listed = w.listed := by
  have hsame := runAll_listed h w.listed
  rw [h] at hsame
  have hstate := (EStateM.Result.ok.inj hsame).2
  rw [hstate]

/-- Every listing but the last one is followed by a deletion. -/
theorem Prunes.listed_le (h : Prunes declared mode w targets v) : v.listed ≤ w.listed + targets.length + 1 := by
  induction h with
  | done _ => exact Nat.le_refl _
  | @pass w m v more hs hpass _ ih =>
      have hlisted : m.listed = w.listed + 1 := listed_runAll hpass
      have hpos := List.length_pos_of_ne_nil hs
      rw [List.length_append]
      omega

/-! ### What is left -/

theorem Reaches.size_deletions (h : w.Reaches (Backend.deletions targets) v) : v.size + targets.length = w.size := by
  induction targets generalizing w with
  | nil =>
      rw [size, size, h.slots_of_nil]
      rfl
  | cons p ps ih =>
      obtain ⟨m, hm, h⟩ := h.cons
      have hrest := ih h
      have hone := size_run_delete hm
      rw [List.length_cons]
      omega

theorem HoldsRules.settled_iff (hw : w.HoldsRules) (mode : AddressMode) :
    Settled declared w ↔
      ∀ t, ∀ e ∈ (Listing.parse false mode w.listing).entries t, e.key ∈ declared.texts t := by
  refine forall_congr' fun t => ?_
  constructor
  · intro h e he
    obtain ⟨s, hs, hkey⟩ := (hw.mem_keys mode t e.key).mp (List.mem_map_of_mem he)
    exact hkey ▸ h s hs
  · intro h s hs
    obtain ⟨e, he, hkey⟩ := List.mem_map.mp ((hw.mem_keys mode t (listedKey s.text)).mpr ⟨s, hs, rfl⟩)
    exact hkey ▸ h e he

/-- If rules with the same arguments are listed alike, pruning leaves just the rules that were declared before, in their
order. -/
theorem Prunes.slots_eq (hw : w.HoldsRules) (ha : w.ListsAlike) (h : Prunes declared mode w targets v) (t : Table) :
    v.slots t = (w.slots t).filter fun s => (declared.texts t).contains (listedKey s.text) := by
  rw [← h.reaches.filter_declared hw ha (h.undeclared hw) (fun t => List.Sublist.refl _) t, eq_comm,
    List.filter_eq_self]
  exact fun s hs => List.contains_iff_mem.mpr (h.settled hw t s hs)

/-- Pruning the live rules of a listing comes to an end. It lists the rules at most once more often than it deletes one,
no deletion fails, and each takes out one live rule. In the end every key is declared, and nothing is deleted exactly
if that was so before. If rules with the same arguments are listed alike, the rules that were declared are left as
they were, and no others. -/
theorem prune_reaches_fixed_point (raw : String) (declared : RuleSet) (mode : AddressMode) :
    ∃ targets w, Session.prune false mode declared (ofListing raw) = .ok (Backend.deletions targets) w ∧
      w.log = Backend.deletions targets ∧
      w.listed ≤ targets.length + 1 ∧
      w.size + targets.length = (ofListing raw).size ∧
      (∀ t, ∀ e ∈ (Listing.parse false mode w.listing).entries t, e.key ∈ declared.texts t) ∧
      (targets = [] ↔
        ∀ t, ∀ e ∈ (Listing.parse false mode (ofListing raw).listing).entries t, e.key ∈ declared.texts t) ∧
      ((ofListing raw).ListsAlike → ∀ t,
        w.slots t = ((ofListing raw).slots t).filter fun s => (declared.texts t).contains (listedKey s.text)) := by
  have hw := holdsRules_ofListing raw
  obtain ⟨targets, w, hprune, hpasses⟩ := exists_prunes hw rfl declared mode
  have hreach := hpasses.reaches
  refine ⟨targets, w, hprune, ?_, ?_, hreach.size_deletions, ?_, ?_, fun ha => ?_⟩
  · rw [hreach.frame.1]
    rfl
  · have := hpasses.listed_le
    rwa [show (ofListing raw).listed = 0 from rfl, Nat.zero_add] at this
  · exact ((hw.of_sublist hreach.sublist).settled_iff mode).mp (hpasses.settled hw)
  · rw [hpasses.eq_nil_iff, ← hw.settled_iff mode]
    exact hw.surplus_eq_nil_iff
  · exact hpasses.slots_eq hw ha

def loRule : Rule :=
  { table := .filter, chain := "INPUT", text := "-A INPUT -i lo -j ACCEPT", origin := .pre }

/-- A listing that holds the rule of the file among others, one of them twice. -/
def doubledListing : String :=
  "*filter\n-A INPUT -j DROP\n-A INPUT -j DROP\n-A INPUT -i lo -j ACCEPT\n-A OUTPUT -j LOG\nCOMMIT\n"

/-- Both copies are deleted, and the rule of the file stays. -/
theorem prune_reaches_fixed_point_doubled :
    (ofListing doubledListing).ListsAlike ∧ ∃ targets w,
      Session.prune false .cidr (RuleSet.assemble [] [loRule] []) (ofListing doubledListing) =
        .ok (Backend.deletions targets) w ∧
      targets.length = 3 ∧ ∀ t, w.slots t = if t = .filter then [⟨"INPUT", loRule.text⟩] else [] := by
  have hrules : Listing.rules doubledListing =
      [⟨.filter, 1, "-A INPUT -j DROP"⟩, ⟨.filter, 2, "-A INPUT -j DROP"⟩, ⟨.filter, 3, loRule.text⟩,
        ⟨.filter, 4, "-A OUTPUT -j LOG"⟩] := by
    decide +kernel
  have hslots : ∀ t, (ofListing doubledListing).slots t = if t = .filter then
      [⟨"INPUT", "-A INPUT -j DROP"⟩, ⟨"INPUT", "-A INPUT -j DROP"⟩, ⟨"INPUT", loRule.text⟩,
        ⟨"OUTPUT", "-A OUTPUT -j LOG"⟩] else [] := by
    simp only [ofListing, hrules]
    intro t
    cases t <;> decide +kernel
  have ha : (ofListing doubledListing).ListsAlike := by
    simp only [ListsAlike, hslots]
    intro t
    cases t <;> decide +kernel
  obtain ⟨targets, w, hprune, -, -, hcount, -, -, hleft⟩ :=
    prune_reaches_fixed_point doubledListing (RuleSet.assemble [] [loRule] []) .cidr
  have hw : ∀ t, w.slots t = if t = .filter then [⟨"INPUT", loRule.text⟩] else [] := by
    intro t
    rw [hleft ha, hslots]
    cases t <;> decide +kernel
  refine ⟨ha, targets, w, hprune, ?_, hw⟩
  have hfour : (ofListing doubledListing).size = 4 := by simp [size, Table.all, hslots]
  have hone : w.size = 1 := by simp [size, Table.all, hw]
  omega

end PacketFilter.Firewall
