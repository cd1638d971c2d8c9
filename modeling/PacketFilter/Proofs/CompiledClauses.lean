import PacketFilter.Proofs.AcceptedClauses
import PacketFilter.Proofs.NormalForm

/-! # The clauses of a declared rule

Every clause that a declared rule is compiled to is spelled out and names no chain, if what the rule sets has something
in it (`Spec.writes_parts`). So the rules it is compiled to have texts that are read back as they were
written (`Spec.exists_clauses_of_compile`). -/

namespace PacketFilter

/-- No interface and no log level of a declared rule is a flag whose value is quoted. -/
def Spec.AvoidsQuoting (s : Spec) : Prop :=
  ∀ value ∈ [s.inInterface, s.outInterface, s.logLevel], value ≠ some "--comment" ∧ value ≠ some "--log-prefix"

/-- No value of a declared rule that is written in front of another clause is a flag whose value is quoted: no
interface is one, and no log level that has a log prefix behind it. -/
structure Spec.IsUnconfused (s : Spec) : Prop where
  interfaces : ∀ name ∈ [s.inInterface, s.outInterface], name ≠ some "--comment" ∧ name ≠ some "--log-prefix"
  level : s.jump = .log → s.logPrefix ≠ none → s.logLevel ≠ some "--comment" ∧ s.logLevel ≠ some "--log-prefix"

theorem Spec.AvoidsQuoting.isUnconfused {s : Spec} (h : s.AvoidsQuoting) : s.IsUnconfused where
  interfaces name hname := h name (by
    simp only [List.mem_cons, List.not_mem_nil, or_false] at hname ⊢
    exact hname.imp_right .inl)
  level _ _ := h s.logLevel (by simp)

/-- A clause that is spelled out and names no chain, and whose value is not taken for a flag with a quoted value
unless the rule has such a value. -/
structure Clause.IsSound (s : Spec) (c : Clause) : Prop where
  spelled : c.IsSpelled
  flag : c.flag ≠ .append ∧ c.flag ≠ .delete
  inert : s.IsUnconfused → c.IsInert

namespace Spec

/-- Clauses that a declared rule can be written with. -/
structure Writes (s : Spec) (clauses : List Clause) : Prop where
  spelled : ∀ c ∈ clauses, c.IsSpelled
  flag : ∀ c ∈ clauses, c.flag ≠ .append ∧ c.flag ≠ .delete
  unconfused : s.IsUnconfused → Clause.Unconfused clauses

variable {s : Spec}

theorem Writes.append {cs ds : List Clause} (h : ∀ c ∈ cs, c.IsSound s) (hd : s.Writes ds) :
    s.Writes (cs ++ ds) where
  spelled := List.forall_mem_append.mpr ⟨fun c hc => (h c hc).spelled, hd.spelled⟩
  flag := List.forall_mem_append.mpr ⟨fun c hc => (h c hc).flag, hd.flag⟩
  unconfused ha := (hd.unconfused ha).append fun c hc => (h c hc).inert ha

theorem Writes.cons {c : Clause} {cs : List Clause} (h : c.IsSound s) (hs : s.Writes cs) : s.Writes (c :: cs) :=
  Writes.append (List.forall_mem_singleton.mpr h) hs

theorem Writes.of_isSound {cs : List Clause} (h : ∀ c ∈ cs, c.IsSound s) : s.Writes cs := by
  have := Writes.append h ⟨by simp, by simp, fun _ => .nil⟩
  rwa [List.append_nil] at this

theorem Writes.singleton {f : Flag} {value : String} (hq : f.quotesValue = false)
    (hf : f ≠ .append ∧ f ≠ .delete) (h : IsToken value) : s.Writes [⟨f, value⟩] where
  spelled := List.forall_mem_singleton.mpr (Clause.isSpelled_of_isToken hq h)
  flag := List.forall_mem_singleton.mpr hf
  unconfused _ := .last _

theorem isSound_operand {f : Flag} {value : String} (hq : f.quotesValue = false)
    (hf : f ≠ .append ∧ f ≠ .delete) (h : IsOperand value) : (Clause.mk f value).IsSound s where
  spelled := Clause.isSpelled_of_isToken hq h.isToken
  flag := hf
  inert _ := Clause.isInert_of_head h.isToken h.head?_ne

theorem isSound_token {f : Flag} {value : String} (hq : f.quotesValue = false)
    (hf : f ≠ .append ∧ f ≠ .delete) (h : IsToken value)
    (hv : s.IsUnconfused → value ≠ "--comment" ∧ value ≠ "--log-prefix") : (Clause.mk f value).IsSound s where
  spelled := Clause.isSpelled_of_isToken hq h
  flag := hf
  inert ha := Clause.isInert_of_ofText? h (Clause.quotesValue_ofText? (hv ha).1 (hv ha).2)

theorem isSound_quote {f : Flag} {text : String} (hq : f.quotesValue = true) (hn : '\n' ∉ text.toList) :
    (Clause.mk f (Word.quote text)).IsSound s where
  spelled := Clause.isSpelled_quote hq hn
  flag := by cases f <;> simp_all [Flag.quotesValue]
  inert _ := Clause.isInert_of_quotesValue (Clause.isSpelled_quote hq hn) hq

theorem isSound_toList {α : Type} {clause : α → Clause} {value : Option α}
    (h : ∀ a, value = some a → (clause a).IsSound s) : ∀ c ∈ (value.map clause).toList, c.IsSound s := by
  cases value with
  | none => simp
  | some a => exact List.forall_mem_singleton.mpr (h a rfl)

theorem isSound_module {name : String} (h : IsOperand name) : (Clause.module name).IsSound s :=
  isSound_operand rfl (by decide) h

/-! ### Clauses of matches -/

theorem isSound_interface {flag : Flag} {name : Option String} (hq : flag.quotesValue = false)
    (hf : flag ≠ .append ∧ flag ≠ .delete)
    (hv : s.IsUnconfused → name ≠ some "--comment" ∧ name ≠ some "--log-prefix")
    (h : ∀ value ∈ name, Check.interface value = .ok ()) :
    ∀ c ∈ (name.map (Clause.mk flag)).toList, c.IsSound s := by
  refine isSound_toList fun value hvalue => ?_
  exact isSound_token hq hf (isToken_of_interface (h value hvalue)) fun hu => by simpa [hvalue] using hv hu

theorem isSound_interfaceParts (h : s.IsAdmissible) : ∀ c ∈ s.interfaceParts, c.IsSound s := by
  refine List.forall_mem_append.mpr ⟨?_, ?_⟩
  · exact isSound_interface rfl (by decide) (fun hu => hu.interfaces _ (by simp)) fun name hname =>
      (h.inInterface name hname).2
  · exact isSound_interface rfl (by decide) (fun hu => hu.interfaces _ (by simp)) fun name hname =>
      (h.outInterface name hname).2

theorem isSound_protocolParts : ∀ c ∈ s.protocolParts, c.IsSound s := by
  have hname : IsOperand s.protocol.name := by
    cases s.protocol <;> decide
  refine List.forall_mem_append.mpr ⟨?_, ?_⟩
  · split
    · simp
    · exact List.forall_mem_singleton.mpr (isSound_operand rfl (by decide) hname)
  · split
    · simp
    · exact List.forall_mem_singleton.mpr (isSound_module hname)

theorem isSound_ports {single several : Flag} {ports : Option Ports}
    (hq : single.quotesValue = false ∧ several.quotesValue = false)
    (hf : ∀ f ∈ [single, several], f ≠ .append ∧ f ≠ .delete) (hne : ports ≠ some (.list []))
    (h : ∀ p ∈ ports, s.AllowsPorts p) : ∀ c ∈ ports.elim [] (Ports.parts single several), c.IsSound s := by
  obtain ⟨hsingle, hseveral⟩ := hq
  cases ports with
  | none => simp
  | some p =>
      have hentries : ∀ entry ∈ p.entries, IsOperand entry := fun entry hentry =>
        isOperand_of_portEntry ((h p rfl).entries entry hentry)
      have hvalue : IsOperand p.value := by
        refine IsOperand.intercalate ?_ hentries (by decide)
        cases p <;> simp_all [Ports.entries]
      cases p with
      | single => exact List.forall_mem_singleton.mpr (isSound_operand hsingle (hf _ (by simp)) hvalue)
      | list =>
          exact List.forall_mem_cons.mpr ⟨isSound_module (by decide),
            List.forall_mem_singleton.mpr (isSound_operand hseveral (hf _ (by simp)) hvalue)⟩

theorem isSound_portParts (hf : s.IsFilled) (h : s.IsAdmissible) : ∀ c ∈ s.portParts, c.IsSound s := by
  refine List.forall_mem_append.mpr ⟨?_, ?_⟩
  · exact isSound_ports ⟨rfl, rfl⟩ (by decide) (hf.ports _ (by simp)) h.sourcePorts
  · exact isSound_ports ⟨rfl, rfl⟩ (by decide) (hf.ports _ (by simp)) h.destinationPorts

theorem isSound_icmpParts (h : s.IsAdmissible) : ∀ c ∈ s.icmpParts, c.IsSound s := by
  unfold icmpParts
  split
  · rename_i hicmp
    have hvalue : IsOperand s.icmpValue := by
      unfold icmpValue
      cases hname : s.icmpType with
      | none => decide
      | some name =>
          obtain ⟨code, hcode⟩ := Icmp.exists_code?_iff.mpr (h.icmpType hicmp name hname)
          have hoperand := isOperand_of_code? hcode
          simpa [hcode] using hoperand
    exact List.forall_mem_singleton.mpr (isSound_operand rfl (by decide) hvalue)
  · simp

theorem isSound_stateParts (h : s.IsAdmissible) : ∀ c ∈ s.stateParts, c.IsSound s := by
  unfold stateParts
  split
  · simp
  · rename_i hne
    have hvalue := isOperand_of_states hne (Check.states_eq_ok_iff.mpr ⟨h.states, rfl⟩)
    exact List.forall_mem_cons.mpr ⟨isSound_module (by decide),
      List.forall_mem_singleton.mpr (isSound_operand rfl (by decide) hvalue)⟩

theorem isSound_commentClauses (h : IsRuleName s.name) : ∀ c ∈ s.commentClauses, c.IsSound s :=
  List.forall_mem_cons.mpr ⟨isSound_module (by decide),
    List.forall_mem_singleton.mpr (isSound_quote rfl h.newline_not_mem)⟩

theorem isSound_limitParts (h : s.IsAdmissible) : ∀ c ∈ s.limitParts, c.IsSound s := by
  refine List.forall_mem_append.mpr ⟨?_, isSound_toList fun burst hburst => ?_⟩
  · cases hlimit : s.limit with
    | none => simp
    | some limit =>
        have hvalue := (h.limit limit hlimit).isOperand
        exact List.forall_mem_cons.mpr ⟨isSound_module (by decide),
          List.forall_mem_singleton.mpr (isSound_operand rfl (by decide) hvalue)⟩
  · exact isSound_operand rfl (by decide) (h.burst burst hburst).1.isOperand

/-! ### Options of the jump -/

theorem isOperand_jump (j : Jump) : IsOperand j.name := by
  cases j <;> decide

theorem writes_option {flag : Flag} {value : Option String} (hq : flag.quotesValue = false)
    (hf : flag ≠ .append ∧ flag ≠ .delete) (hne : value ≠ some "") (h : ∀ text ∈ value, IsOptionText text) :
    s.Writes (value.map (Clause.mk flag)).toList := by
  cases value with
  | none => exact .of_isSound (by simp)
  | some text => exact .singleton hq hf ((h text rfl).isToken (by simpa using hne))

theorem writes_logParts (hf : s.IsFilled) (hjump : s.jump = .log)
    (hlevel : ∀ level ∈ s.logLevel, IsOptionText level) (hstart : ∀ start ∈ s.logPrefix, IsLogText start) :
    s.Writes ((s.logLevel.map (Clause.mk .logLevel)).toList ++
      (s.logPrefix.map fun start => ⟨.logPrefix, Word.quote (keptPrefix start)⟩).toList) := by
  have hne := hf.optional s.logLevel (by simp [optionalTexts])
  cases hs : s.logPrefix with
  | none =>
      have hw : s.Writes (s.logLevel.map (Clause.mk .logLevel)).toList := writes_option rfl (by decide) hne hlevel
      simpa using hw
  | some start =>
      have hnewline := (logPrefixValue_eq_quote (Check.logPrefix_eq_ok_iff.mpr (hstart start hs))).2
      refine .append (isSound_toList fun level hl => ?_)
        (.of_isSound (List.forall_mem_singleton.mpr (isSound_quote rfl hnewline)))
      have htoken := (hlevel level hl).isToken (by simpa [hl] using hne)
      refine isSound_token rfl (by decide) htoken fun hu => ?_
      simpa [hl] using hu.level hjump (by simp [hs])

theorem writes_jumpParts (hf : s.IsFilled) (h : s.AllowsJump) : s.Writes (s.jumpParts.map Clause.written) := by
  unfold AllowsJump at h
  unfold jumpParts
  cases hjump : s.jump with
  | accept | drop | masquerade => exact .of_isSound (by simp)
  | dnat | snat =>
      simp only [hjump] at h
      rw [(Clause.arePlain_toList rfl).map_written]
      refine writes_option rfl (by decide) (hf.optional _ (by simp [optionalTexts])) fun text htext => ?_
      obtain ⟨-, value, hvalue, hoption⟩ := h
      exact Option.mem_unique hvalue htext ▸ hoption
  | redirect =>
      simp only [hjump] at h
      rw [(Clause.arePlain_toList rfl).map_written]
      refine writes_option rfl (by decide) (hf.optional _ (by simp [optionalTexts])) fun text htext => ?_
      obtain ⟨value, hvalue, hoption⟩ := h
      exact Option.mem_unique hvalue htext ▸ hoption
  | reject =>
      simp only [hjump] at h
      have hne := hf.optional s.rejectWith (by simp [optionalTexts])
      refine .singleton rfl (by decide) ?_
      cases hreject : s.rejectWith with
      | none => decide
      | some reject => exact (h reject hreject).isToken (by simpa [hreject] using hne)
  | log =>
      simp only [hjump] at h
      rw [List.map_append, (Clause.arePlain_toList rfl).map_written]
      have hw := writes_logParts hf hjump h.1 h.2
      cases hs : s.logPrefix with
      | none => simpa [hs] using hw
      | some start => simpa [hs, Clause.written, Flag.quotesValue] using hw

/-! ### Rules -/

theorem writes_matchParts (hf : s.IsFilled) (hname : IsRuleName s.name) (h : s.IsAdmissible) :
    s.Writes (s.matchParts.map Clause.written) := by
  have hjump : (Clause.mk .jump s.jump.name).IsSound s :=
    isSound_operand rfl (by decide) (isOperand_jump s.jump)
  rw [map_written_matchParts]
  refine Writes.append ?_ (.cons hjump (writes_jumpParts hf h.jump))
  simp only [List.forall_mem_append]
  exact ⟨⟨⟨⟨⟨⟨isSound_interfaceParts h, isSound_protocolParts⟩, isSound_portParts hf h⟩, isSound_icmpParts h⟩,
    isSound_stateParts h⟩, isSound_commentClauses hname⟩, isSound_limitParts h⟩

/-- Behind every interface, and behind a log level with a log prefix, another clause follows. -/
theorem isUnconfused_of_matchParts (hu : Clause.Unconfused (s.matchParts.map Clause.written)) : s.IsUnconfused := by
  rw [map_written_matchParts] at hu
  obtain ⟨hinert, hu⟩ := Clause.unconfused_append_cons.mp hu
  have hvalue : ∀ (flag : Flag) (value : Option String),
      (∀ c ∈ (value.map (Clause.mk flag)).toList, c.IsInert) →
        value ≠ some "--comment" ∧ value ≠ some "--log-prefix" := by
    intro flag value hinert
    cases value with
    | none => simp
    | some value => simpa using Clause.ne_of_isInert (hinert _ List.mem_cons_self)
  simp only [List.forall_mem_append, interfaceParts] at hinert
  obtain ⟨⟨⟨⟨⟨⟨⟨hin, hout⟩, -⟩, -⟩, -⟩, -⟩, -⟩, -⟩ := hinert
  constructor
  · exact List.forall_mem_cons.mpr ⟨hvalue .inInterface _ hin,
      List.forall_mem_singleton.mpr (hvalue .outInterface _ hout)⟩
  · intro hjump hstart
    obtain ⟨start, hstart⟩ := Option.ne_none_iff_exists'.mp hstart
    have hparts : s.jumpParts.map Clause.written =
        (s.logLevel.map (Clause.mk .logLevel)).toList ++ [⟨.logPrefix, Word.quote (keptPrefix start)⟩] := by
      simp only [jumpParts, hjump, hstart, List.map_append]
      rw [(Clause.arePlain_toList rfl).map_written]
      rfl
    rw [hparts, ← List.cons_append] at hu
    obtain ⟨hinert, -⟩ := Clause.unconfused_append_cons.mp hu
    exact hvalue .logLevel _ fun c hc => hinert c (List.mem_cons_of_mem _ hc)

theorem exists_of_mem_mapM {α β ε : Type} {f : α → Except ε β} {xs : List α} {ys : List β}
    (h : xs.mapM f = .ok ys) : ∀ y ∈ ys, ∃ x ∈ xs, f x = .ok y := by
  replace h := mapM_eq_ok_iff.mp h
  induction h with
  | nil => simp
  | cons hy _ ih =>
      refine List.forall_mem_cons.mpr ⟨⟨_, List.mem_cons_self, hy⟩, fun z hz => ?_⟩
      obtain ⟨x, hx, hz⟩ := ih z hz
      exact ⟨x, List.mem_cons_of_mem _ hx, hz⟩

theorem exists_of_mapM_eq_some {α β ε : Type} {f : α → Except ε β} {value : Option α} {b : β}
    (h : value.mapM f = .ok (some b)) : ∃ a ∈ value, f a = .ok b := by
  cases value with
  | none => cases h
  | some a =>
      refine ⟨a, rfl, ?_⟩
      cases ha : f a <;> simp_all [Functor.map, Except.map]

theorem mem_sourceChoices {sources : List String} {source : Option String} (h : source ∈ sourceChoices sources) :
    (sources = [] ∧ source = none) ∨ ∃ text ∈ sources, source = some text := by
  rw [sourceChoices] at h
  split at h
  · rename_i hnil
    exact .inl ⟨List.isEmpty_iff.mp hnil, List.mem_singleton.mp h⟩
  · obtain ⟨text, htext, rfl⟩ := List.mem_map.mp h
    exact .inr ⟨text, htext, rfl⟩

theorem isSound_address {flag : Flag} {resolve : Resolver} {mode : AddressMode} {value text : String}
    (hq : flag.quotesValue = false) (hf : flag ≠ .append ∧ flag ≠ .delete)
    (h : normalize resolve mode value = .ok text) : (Clause.mk flag text).IsSound s :=
  isSound_operand hq hf (isOperand_of_normalize h)

theorem writes_parts {resolve : Resolver} {mode : AddressMode} {sources : List String}
    {source destination : Option String} (hf : s.IsFilled) (hname : IsRuleName s.name) (h : s.IsAdmissible)
    (hsources : s.sources.mapM (normalize resolve mode) = .ok sources) (hsource : source ∈ sourceChoices sources)
    (hdestination : s.destination.mapM (normalize resolve mode) = .ok destination) :
    s.Writes ((source.map (Clause.mk .source)).toList ++
      ((destination.map (Clause.mk .destination)).toList ++ s.matchParts.map Clause.written)) := by
  refine .append (isSound_toList fun text htext => ?_) (.append (isSound_toList fun text htext => ?_)
    (writes_matchParts hf hname h))
  · rcases mem_sourceChoices hsource with ⟨-, rfl⟩ | ⟨text', hmem, rfl⟩
    · cases htext
    · obtain ⟨value, -, hvalue⟩ := exists_of_mem_mapM hsources text' hmem
      exact isSound_address rfl (by decide) (Option.some_inj.mp htext ▸ hvalue)
  · obtain ⟨value, -, hvalue⟩ := exists_of_mapM_eq_some (htext ▸ hdestination)
    exact isSound_address rfl (by decide) hvalue

/-- Every rule that a declared rule in normal form is compiled to is written with clauses that are read back, and
whether they could be confused is known from the declared rule. -/
theorem exists_clauses_of_compile {resolve : Resolver} {mode : AddressMode} (hn : s.IsNormal)
    {rules : List Rule} (h : s.compile resolve mode = .ok rules) :
    ∀ r ∈ rules, r.chain = s.chain.name ∧ r.table = s.table ∧
      ∃ clauses, r.text = ruleText r.chain clauses ∧ s.Writes clauses ∧
        (Clause.Unconfused clauses → s.IsUnconfused) := by
  obtain ⟨hplaced, hadmissible, sources, destination, hsources, hdestination, rfl⟩ := compile_eq_ok_iff.mp h
  intro r hr
  obtain ⟨source, hsource, rfl⟩ := List.mem_map.mp hr
  refine ⟨rfl, rfl, _, rfl, ?_, fun hu => ?_⟩
  · exact writes_parts hn.isFilled hplaced.name hadmissible hsources hsource hdestination
  · rw [← List.append_assoc] at hu
    exact isUnconfused_of_matchParts hu.of_append

end Spec

/-! ### Rules that are read back -/

theorem isOperand_chain (c : Chain) : IsOperand c.name := by
  cases c <;> decide

/-- A rule whose text is a rule line of its chain, and is read as a rule of its chain wherever it is listed. -/
structure Rule.IsReadBack (r : Rule) : Prop where
  line : IsRuleLine r.text
  arguments : ∃ rest, arguments r.text = "-A" :: r.chain :: rest
  chain_ofLine : ∀ mode t line, '\n' ∉ line.toList → canonical line = r.text →
    (LiveRule.ofLine mode t line).chain = r.chain

/-- The text of a rule is the key under which the rule is listed. -/
def Rule.IsStable (r : Rule) : Prop :=
  Firewall.listedKey r.text = r.text

instance (r : Rule) : Decidable r.IsStable :=
  inferInstanceAs (Decidable (_ = _))

namespace Spec

variable {s : Spec} {resolve : Resolver} {mode : AddressMode} {rules : List Rule}

theorem isReadBack_of_compile (hn : s.IsNormal) (h : s.compile resolve mode = .ok rules) :
    ∀ r ∈ rules, r.IsReadBack := by
  intro r hr
  obtain ⟨hchain, -, clauses, htext, hw, -⟩ := exists_clauses_of_compile hn h r hr
  have hc : IsToken r.chain := hchain ▸ (isOperand_chain s.chain).isToken
  constructor
  · rw [htext]
    exact isRuleLine_ruleText hc hw.spelled
  · rw [htext]
    exact arguments_ruleText hc hw.spelled
  · intro mode t line hl hk
    exact chain_ofLine hl hc hw.spelled hw.flag (hk.trans htext) mode t

/-- A rule is its own canonical text, and is listed under its text, exactly if its declaration is unconfused. -/
theorem canonical_iff_of_compile (hn : s.IsNormal) (h : s.compile resolve mode = .ok rules) :
    ∀ r ∈ rules, ∀ line ∈ [r.text, Firewall.listedText r.text], canonical line = r.text ↔ s.IsUnconfused := by
  intro r hr
  obtain ⟨hchain, -, clauses, htext, hw, hunconfused⟩ := exists_clauses_of_compile hn h r hr
  have hc : IsOperand r.chain := hchain ▸ isOperand_chain s.chain
  rw [htext]
  intro line hline
  rw [canonical_ruleText hc.isToken hw.spelled line hline]
  constructor
  · exact fun hu => hunconfused hu.tail
  · exact fun hu => .cons (Clause.isInert_of_head hc.isToken hc.head?_ne) (hw.unconfused hu)

theorem isStable_of_compile (hn : s.IsNormal) (ha : s.AvoidsQuoting) (h : s.compile resolve mode = .ok rules) :
    ∀ r ∈ rules, r.IsStable :=
  fun r hr => (canonical_iff_of_compile hn h r hr _ (by simp)).mpr ha.isUnconfused

end Spec

end PacketFilter
