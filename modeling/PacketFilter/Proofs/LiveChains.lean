import PacketFilter.Proofs.FirewallListing
import PacketFilter.Proofs.RuleWords

/-! # The chains of live rules

A rule stands in the chain behind the `-A` that begins its line, but the chain of a live rule is the one that its line
names last: whatever follows an unknown option is read like a flag of the rule, so that a value that spells `-A` or `-D`
names another chain. A live rule is in its chain exactly if that does not happen, or the same chain is named again
(`Listing.chain_of_parse`). -/

namespace PacketFilter

/-- A word that names a chain: the flag of an appending or a deleting command. -/
def Word.NamesChain (w : Word) : Prop :=
  w.Spells ["-A", "--append", "-D", "--delete"]

instance (w : Word) : Decidable w.NamesChain :=
  inferInstanceAs (Decidable (w.Spells _))

theorem Word.namesChain_of_flag? {w : Word} {f : Flag} (hf : f = .append ∨ f = .delete) (h : w.flag? = some f) :
    w.NamesChain := by
  obtain ⟨hquoted, htext⟩ := Word.flag?_eq_some_iff.mp h
  refine ⟨hquoted, ?_⟩
  rcases hf with rfl | rfl
  · exact List.mem_append_left ["-D", "--delete"] htext
  · exact List.mem_append_right ["-A", "--append"] htext

namespace LiveRule

theorem exists_flag?_of_mem_flagValues {ws : List Word} {v : Flag × String} (h : v ∈ flagValues ws) :
    ∃ w ∈ ws, w.flag? = some v.1 := by
  fun_induction flagValues ws with
  | case1 w value rest hnone ih =>
      obtain ⟨u, hu, hflag⟩ := ih h
      exact ⟨u, List.mem_cons_of_mem _ hu, hflag⟩
  | case2 w value rest flag hflag ih =>
      rcases List.mem_cons.mp h with rfl | h
      · exact ⟨w, List.mem_cons_self, hflag⟩
      · obtain ⟨u, hu, hflag⟩ := ih h
        exact ⟨u, List.mem_cons_of_mem _ (List.mem_cons_of_mem _ hu), hflag⟩
  | case3 => cases h

theorem namedChain?_flagValues {ws : List Word} (h : ∀ w ∈ ws, ¬ w.NamesChain) :
    namedChain? (flagValues ws) = none := by
  refine namedChain?_eq_none fun v hv => not_or.mp fun hf => ?_
  obtain ⟨w, hw, hflag⟩ := exists_flag?_of_mem_flagValues hv
  exact h w hw (Word.namesChain_of_flag? hf hflag)

/-- The chain of a live rule is the one that the words behind its chain name last, or else its chain. -/
theorem chain_ofLine_of_read {line : String} {chain : Word} {behind : List Word}
    (h : Word.read line = ⟨"-A", false⟩ :: chain :: behind) (mode : AddressMode) (t : Table) :
    (ofLine mode t line).chain = (namedChain? (flagValues behind)).getD chain.text := by
  have hvalues : flagValues (Word.read line) = (.append, chain.text) :: flagValues behind := by
    rw [h]
    rfl
  rw [chain_ofLine_eq, hvalues, namedChain?_append, Option.getD_some]

theorem line_ofLine (mode : AddressMode) (t : Table) (line : String) : (ofLine mode t line).line = line := by
  have hset : ∀ (r : LiveRule) (flag : Flag) (value : String), (r.set mode flag value).line = r.line := by
    intro r flag value
    cases flag <;> rfl
  have hfold : ∀ (values : List (Flag × String)) (r : LiveRule),
      (values.foldl (fun r v => r.set mode v.1 v.2) r).line = r.line := by
    intro values
    induction values with
    | nil => exact fun r => rfl
    | cons v values ih => exact fun r => (ih _).trans (hset r v.1 v.2)
  exact hfold _ _

end LiveRule

namespace Listing

variable {numbered : Bool} {mode : AddressMode} {raw : String} {t : Table} {e : Entry}

theorem exists_rule_of_mem_entries (h : e ∈ (parse numbered mode raw).entries t) :
    ∃ r ∈ rules raw, e = entry numbered mode r := by
  rw [entries_parse] at h
  obtain ⟨r, hr, rfl⟩ := List.mem_map.mp (mem_of_mem_firstByKey h)
  exact ⟨r, (List.mem_filter.mp hr).1, rfl⟩

/-- The line of a live rule appends to the chain behind its `-A`, and the live rule has the chain that is named last
behind that, or else the chain of its line. So it has the chain of its line exactly if no other chain is named last, and
certainly if no word behind the chain names one. -/
theorem chain_of_parse (h : e ∈ (parse numbered mode raw).entries t) :
    ∃ chain behind, Word.read e.rule.line = ⟨"-A", false⟩ :: chain :: behind ∧
      appendedChain? e.rule.line = some chain.text ∧
      e.rule.chain = (LiveRule.namedChain? (LiveRule.flagValues behind)).getD chain.text ∧
      (appendedChain? e.rule.line = some e.rule.chain ↔
        ∀ c ∈ LiveRule.namedChain? (LiveRule.flagValues behind), c = chain.text) ∧
      ((∀ w ∈ behind, ¬ w.NamesChain) → appendedChain? e.rule.line = some e.rule.chain) := by
  obtain ⟨r, hr, rfl⟩ := exists_rule_of_mem_entries h
  obtain ⟨chain, behind, hread⟩ := (Firewall.isRuleLine_of_mem_rules hr).exists_read_eq
  have happended : appendedChain? r.line = some chain.text := by
    rw [appendedChain?, hread]
    rfl
  have hchain : (entry numbered mode r).rule.chain =
      (LiveRule.namedChain? (LiveRule.flagValues behind)).getD chain.text :=
    LiveRule.chain_ofLine_of_read hread mode r.table
  have hline : (entry numbered mode r).rule.line = r.line := LiveRule.line_ofLine mode r.table r.line
  rw [hline, hchain, happended, Option.some_inj]
  refine ⟨chain, behind, hread, rfl, rfl, ?_, fun hnone => ?_⟩
  · cases LiveRule.namedChain? (LiveRule.flagValues behind) <;> simp [eq_comm]
  · rw [LiveRule.namedChain?_flagValues hnone, Option.getD_none]

/-- A listing with one rule, which keeps source addresses in a list with the given name. -/
def recentListing (name : String) : String :=
  "*filter\n-A INPUT -m recent --set --name " ++ name ++ " --rsource -j DROP\nCOMMIT\n"

def recentEntry (name : String) : Entry :=
  entry true .cidr ⟨.filter, 1, "-A INPUT -m recent --set --name " ++ name ++ " --rsource -j DROP"⟩

/-- The options of the rule are not known, but none of its words names a chain. -/
theorem chain_of_parse_recent :
    recentEntry "ssh" ∈ (parse true .cidr (recentListing "ssh")).entries .filter ∧
      appendedChain? (recentEntry "ssh").rule.line = some (recentEntry "ssh").rule.chain := by
  have hmem : recentEntry "ssh" ∈ (parse true .cidr (recentListing "ssh")).entries .filter := by decide +kernel
  have hnone : ∀ w ∈ (Word.read (recentEntry "ssh").rule.line).drop 2, ¬ w.NamesChain := by decide +kernel
  obtain ⟨chain, behind, hread, -, -, -, hchain⟩ := chain_of_parse hmem
  rw [hread] at hnone
  exact ⟨hmem, hchain hnone⟩

/-- Not every live rule has the chain of its line: a list by the name of `-D` makes the next word the chain. -/
theorem not_chain_of_parse :
    ¬ ∀ (numbered : Bool) (mode : AddressMode) (raw : String) (t : Table) (e : Entry),
      e ∈ (parse numbered mode raw).entries t → appendedChain? e.rule.line = some e.rule.chain := by
  intro h
  have hmem : recentEntry "-D" ∈ (parse true .cidr (recentListing "-D")).entries .filter := by decide +kernel
  have hchain : appendedChain? (recentEntry "-D").rule.line ≠ some (recentEntry "-D").rule.chain := by decide +kernel
  exact hchain (h true .cidr _ .filter _ hmem)

end Listing

end PacketFilter
