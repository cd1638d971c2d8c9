import PacketFilter.Proofs.CompiledClauses
import PacketFilter.Proofs.FileRules

/-! # Texts on one line

No text that a declared rule is compiled to holds a newline, whatever the declared rule holds
(`Spec.newline_not_mem_of_compile`), and neither does a text that is read from a file. Most values are single words, so
that no newline can be in them; the others are looked at one by one. -/

namespace PacketFilter

/-! ### Clauses on one line -/

namespace Text

theorem newline_not_mem_intercalate {sep : String} {ps : List String} (hsep : '\n' ∉ sep.toList)
    (h : ∀ p ∈ ps, '\n' ∉ p.toList) : '\n' ∉ (sep.intercalate ps).toList := by
  induction ps with
  | nil => simp
  | cons p ps ih =>
      obtain ⟨hp, hps⟩ := List.forall_mem_cons.mp h
      cases ps with
      | nil => simpa using hp
      | cons q qs =>
          have hrest := ih hps
          simp only [String.toList_intercalate, List.map_cons, List.intercalate_cons_cons, List.mem_append, not_or]
            at hrest ⊢
          exact ⟨⟨hp, hsep⟩, hrest⟩

end Text

namespace Clause

def IsOneLine (c : Clause) : Prop :=
  '\n' ∉ c.value.toList

instance (c : Clause) : Decidable c.IsOneLine :=
  inferInstanceAs (Decidable (_ ∉ _))

theorem IsSpelled.isOneLine {c : Clause} (h : c.IsSpelled) : c.IsOneLine := h.newline

theorem isOneLine_toList {flag : Flag} {value : Option String} (h : ∀ text ∈ value, '\n' ∉ text.toList) :
    ∀ c ∈ (value.map (Clause.mk flag)).toList, c.IsOneLine := by
  cases value with
  | none => simp
  | some text => exact List.forall_mem_singleton.mpr (h text rfl)

theorem newline_not_mem_ruleText {chain : String} {clauses : List Clause} (hc : '\n' ∉ chain.toList)
    (h : ∀ c ∈ clauses, c.IsOneLine) : '\n' ∉ (ruleText chain clauses).toList := by
  refine Text.newline_not_mem_intercalate (by decide) (List.forall_mem_map.mpr fun c hmem => ?_)
  have hclauses : ∀ c ∈ mk .append chain :: clauses, c.IsOneLine := List.forall_mem_cons.mpr ⟨hc, h⟩
  have hvalue : '\n' ∉ c.value.toList := hclauses c hmem
  have hflag : '\n' ∉ c.flag.text.toList := (isToken_flag c.flag).newline
  simp [Clause.text, hvalue, hflag]

end Clause

theorem IsOptionText.newline_not_mem {value : String} (h : IsOptionText value) : '\n' ∉ value.toList := by
  intro hn
  have := (h _ hn).1
  revert this
  decide

/-! ### Texts of declared rules -/

namespace Spec

variable {s : Spec} {resolve : Resolver} {mode : AddressMode} {rules : List Rule}

theorem isOneLine_of_isSound {clauses : List Clause} (h : ∀ c ∈ clauses, c.IsSound s) :
    ∀ c ∈ clauses, c.IsOneLine :=
  fun c hc => (h c hc).spelled.isOneLine

/-- Unlike other values, a choice of ports may be written with nothing in it. -/
theorem isOneLine_ports {single several : Flag} {ports : Option Ports} (h : ∀ p ∈ ports, s.AllowsPorts p) :
    ∀ c ∈ ports.elim [] (Ports.parts single several), c.IsOneLine := by
  cases ports with
  | none => simp
  | some p =>
      have hvalue : '\n' ∉ p.value.toList :=
        Text.newline_not_mem_intercalate (by decide) fun entry hentry =>
          (isOperand_of_portEntry ((h p rfl).entries entry hentry)).isToken.newline
      cases p with
      | single => exact List.forall_mem_singleton.mpr hvalue
      | list => exact List.forall_mem_cons.mpr ⟨by decide, List.forall_mem_singleton.mpr hvalue⟩

theorem isOneLine_jumpParts (h : s.AllowsJump) : ∀ c ∈ s.jumpParts.map Clause.written, c.IsOneLine := by
  unfold AllowsJump at h
  unfold jumpParts
  cases hjump : s.jump with
  | accept | drop | masquerade => simp
  | dnat | snat =>
      simp only [hjump] at h
      rw [(Clause.arePlain_toList rfl).map_written]
      obtain ⟨-, value, hvalue, hoption⟩ := h
      exact Clause.isOneLine_toList fun text htext => Option.mem_unique hvalue htext ▸ hoption.newline_not_mem
  | redirect =>
      simp only [hjump] at h
      rw [(Clause.arePlain_toList rfl).map_written]
      obtain ⟨value, hvalue, hoption⟩ := h
      exact Clause.isOneLine_toList fun text htext => Option.mem_unique hvalue htext ▸ hoption.newline_not_mem
  | reject =>
      simp only [hjump] at h
      refine List.forall_mem_singleton.mpr ?_
      cases hreject : s.rejectWith with
      | none => decide
      | some reject => exact (h reject hreject).newline_not_mem
  | log =>
      simp only [hjump] at h
      rw [List.map_append, (Clause.arePlain_toList rfl).map_written]
      refine List.forall_mem_append.mpr ⟨Clause.isOneLine_toList fun text htext => (h.1 text htext).newline_not_mem, ?_⟩
      cases hstart : s.logPrefix with
      | none => simp
      | some start =>
          have hnewline := (logPrefixValue_eq_quote (Check.logPrefix_eq_ok_iff.mpr (h.2 start hstart))).2
          exact List.forall_mem_singleton.mpr (Clause.isSpelled_quote rfl hnewline).isOneLine

theorem isOneLine_matchParts (hname : IsRuleName s.name) (h : s.IsAdmissible) :
    ∀ c ∈ s.matchParts.map Clause.written, c.IsOneLine := by
  have hports : ∀ c ∈ s.portParts, c.IsOneLine :=
    List.forall_mem_append.mpr ⟨isOneLine_ports h.sourcePorts, isOneLine_ports h.destinationPorts⟩
  have hjump : (Clause.mk .jump s.jump.name).IsOneLine := (isOperand_jump s.jump).isToken.newline
  rw [map_written_matchParts]
  simp only [List.forall_mem_append, List.forall_mem_cons]
  exact ⟨⟨⟨⟨⟨⟨⟨isOneLine_of_isSound (isSound_interfaceParts h), isOneLine_of_isSound isSound_protocolParts⟩,
    hports⟩, isOneLine_of_isSound (isSound_icmpParts h)⟩, isOneLine_of_isSound (isSound_stateParts h)⟩,
    isOneLine_of_isSound (isSound_commentClauses hname)⟩, isOneLine_of_isSound (isSound_limitParts h)⟩, hjump,
    isOneLine_jumpParts h.jump⟩

/-- No text that a declared rule is compiled to holds a newline, whatever the declared rule holds. -/
theorem newline_not_mem_of_compile (h : s.compile resolve mode = .ok rules) :
    ∀ r ∈ rules, '\n' ∉ r.text.toList := by
  obtain ⟨hplaced, hadmissible, sources, destination, hsources, hdestination, rfl⟩ := compile_eq_ok_iff.mp h
  refine List.forall_mem_map.mpr fun source hsource => ?_
  refine Clause.newline_not_mem_ruleText (isOperand_chain s.chain).isToken.newline ?_
  refine List.forall_mem_append.mpr ⟨?_, List.forall_mem_append.mpr ⟨?_, ?_⟩⟩
  · refine Clause.isOneLine_toList fun text htext => ?_
    rcases mem_sourceChoices hsource with ⟨-, rfl⟩ | ⟨text', hmem, rfl⟩
    · cases htext
    · obtain ⟨value, -, hvalue⟩ := exists_of_mem_mapM hsources text' hmem
      exact Option.some_inj.mp htext ▸ (isOperand_of_normalize hvalue).isToken.newline
  · refine Clause.isOneLine_toList fun text htext => ?_
    obtain ⟨value, -, hvalue⟩ := exists_of_mapM_eq_some (htext ▸ hdestination)
    exact (isOperand_of_normalize hvalue).isToken.newline
  · exact isOneLine_matchParts hplaced.name hadmissible

end Spec

/-! ### Texts that were made -/

/-- A text that a declared rule is compiled to, or that is read from a file. -/
inductive IsMadeText : String → Prop
  | compiled {s : Spec} {resolve : Resolver} {mode : AddressMode} {rules : List Rule} {r : Rule} :
      s.compile resolve mode = .ok rules → r ∈ rules → IsMadeText r.text
  | read {origin : Origin} {content : String} {r : Rule} : r ∈ RuleFile.parse origin content → IsMadeText r.text

theorem IsMadeText.newline_not_mem {text : String} (h : IsMadeText text) : '\n' ∉ text.toList := by
  cases h with
  | compiled hcompile hr => exact Spec.newline_not_mem_of_compile hcompile _ hr
  | read hr => exact (RuleFile.canonical_of_parse hr).1

end PacketFilter
