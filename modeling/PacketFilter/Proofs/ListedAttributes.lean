import PacketFilter.Proofs.AddressText
import PacketFilter.Proofs.CompiledClauses

/-! # The attributes of a declared rule

The values of a declared rule are read back from the rules that it is compiled to, as they stand in rule text and as
they are listed (`Spec.ofLine_of_compile`). Every group of clauses sets the attributes that it is about and leaves the
others alone; a clause that is spelled out sets an attribute to its value, whatever the value looks like. -/

namespace PacketFilter

/-! ### What was declared -/

namespace Spec

variable (s : Spec)

/-- The value of an option that belongs to one jump; rules with another jump have the value `other`. -/
def optionFor (jump : Jump) (value : Option String) (other : String) : String :=
  if s.jump = jump then value.getD other else other

/-- The attributes that a declared rule has for one of its sources: what it leaves out is empty, and so are the
options of other jumps. -/
def attributes (source destination : Option String) (line : String) : LiveRule where
  line := line
  table := s.table
  chain := s.chain.name
  name := s.name
  protocol := s.protocol.name
  jump := s.jump.name
  source := source
  destination := destination
  sourcePort := (s.sourcePorts.map Ports.value).getD ""
  destinationPort := (s.destinationPorts.map Ports.value).getD ""
  inInterface := s.inInterface.getD ""
  outInterface := s.outInterface.getD ""
  toDestination := s.optionFor .dnat s.toDestination ""
  toSource := s.optionFor .snat s.toSource ""
  toPorts := s.optionFor .redirect s.toPorts ""
  rejectWith := s.optionFor .reject (some (s.rejectWith.getD defaultReject)) ""
  logLevel := s.optionFor .log s.logLevel ""
  logPrefix := s.optionFor .log (s.logPrefix.map keptPrefix) ""
  icmpType := if s.protocol = .icmp then s.icmpValue else ""
  state := ",".intercalate (connectionStates.filter s.states.contains)
  limit := s.limit.getD ""
  burst := s.burst.getD ""

end Spec

/-! ### Reading clauses -/

namespace LiveRule

theorem listedAddress_of_normalize {resolve : Resolver} {mode : AddressMode} {value text : String}
    (h : normalize resolve mode value = .ok text) : listedAddress mode text = text := by
  rw [listedAddress, normalizeListed_of_normalize h]

variable {mode : AddressMode} {r : LiveRule} {c : Clause} {cs ds : List Clause}

/-- A live rule with the values of some clauses. -/
def withClauses (mode : AddressMode) (r : LiveRule) (cs : List Clause) : LiveRule :=
  cs.foldl (fun r c => r.set mode c.flag c.word.text) r

theorem withClauses_append : r.withClauses mode (cs ++ ds) = (r.withClauses mode cs).withClauses mode ds :=
  List.foldl_append

/-- The value of a clause that is spelled out becomes an attribute as it stands. -/
theorem withClauses_cons (hs : c.IsSpelled) (hq : c.flag.quotesValue = false) :
    r.withClauses mode (c :: cs) = (r.set mode c.flag c.value).withClauses mode cs := by
  rw [withClauses, List.foldl_cons, hs.text_word hq]
  rfl

theorem withClauses_cons_quote {f : Flag} {text : String} :
    r.withClauses mode (⟨f, Word.quote text⟩ :: cs) = (r.set mode f text).withClauses mode cs := by
  rw [withClauses, List.foldl_cons, Clause.word_quote]
  rfl

theorem withClauses_toList {f : Flag} {value : Option String} (hq : f.quotesValue = false)
    (hs : ∀ c ∈ (value.map (Clause.mk f)).toList, c.IsSpelled) :
    r.withClauses mode (value.map (Clause.mk f)).toList = value.elim r (r.set mode f) := by
  cases value with
  | none => rfl
  | some value => exact withClauses_cons (hs _ List.mem_cons_self) hq

theorem withClauses_module {name : String} :
    r.withClauses mode (.module name :: cs) = r.withClauses mode cs := rfl

theorem ofLine_eq_withClauses {table : Table} {line chain : String}
    (h : flagValues (Word.read line) = (ruleClauses chain cs).map fun c => (c.flag, c.word.text)) :
    ofLine mode table line = withClauses mode { line, table } (ruleClauses chain cs) := by
  rw [ofLine, h, List.foldl_map, withClauses]

end LiveRule

/-! ### Attributes of matches -/

namespace Spec

variable {s : Spec} {mode : AddressMode} {r : LiveRule} {clauses : List Clause}

open LiveRule

theorem withClauses_interfaceParts (hs : ∀ c ∈ s.interfaceParts, c.IsSpelled) :
    r.withClauses mode s.interfaceParts = { r with
      inInterface := s.inInterface.getD r.inInterface
      outInterface := s.outInterface.getD r.outInterface } := by
  obtain ⟨hsin, hsout⟩ := List.forall_mem_append.mp hs
  rw [interfaceParts, withClauses_append, withClauses_toList rfl hsin, withClauses_toList rfl hsout]
  cases s.inInterface <;> cases s.outInterface <;> rfl

theorem withClauses_protocolParts (hr : r.protocol = "all") (hs : ∀ c ∈ s.protocolParts, c.IsSpelled) :
    r.withClauses mode s.protocolParts = { r with protocol := s.protocol.name } := by
  obtain ⟨hsname, -⟩ := List.forall_mem_append.mp hs
  rw [protocolParts, withClauses_append]
  have hname : r.withClauses mode (if s.protocol = .all then [] else [⟨.protocol, s.protocol.name⟩]) =
      { r with protocol := s.protocol.name } := by
    split
    · rename_i hall
      have hr' : r.protocol = s.protocol.name := by rw [hall, hr]; rfl
      rw [← hr']
      rfl
    · rename_i hne
      rw [if_neg hne] at hsname
      exact withClauses_cons (hsname _ List.mem_cons_self) rfl
  rw [hname]
  split <;> rfl

theorem withClauses_ports (single several : Flag) {ports : Option Ports}
    (hq : single.quotesValue = false ∧ several.quotesValue = false)
    (hset : ∀ value, r.set mode several value = r.set mode single value)
    (hs : ∀ c ∈ ports.elim [] (Ports.parts single several), c.IsSpelled) :
    r.withClauses mode (ports.elim [] (Ports.parts single several)) =
      (ports.map Ports.value).elim r (r.set mode single) := by
  cases ports with
  | none => rfl
  | some ports =>
      cases ports with
      | single entry => exact withClauses_cons (hs _ List.mem_cons_self) hq.1
      | list entries =>
          have hlist := hs ⟨several, (Ports.list entries).value⟩ (List.mem_cons_of_mem _ List.mem_cons_self)
          exact (withClauses_cons hlist hq.2).trans (hset _)

theorem withClauses_portParts (hs : ∀ c ∈ s.portParts, c.IsSpelled) :
    r.withClauses mode s.portParts = { r with
      sourcePort := (s.sourcePorts.map Ports.value).getD r.sourcePort
      destinationPort := (s.destinationPorts.map Ports.value).getD r.destinationPort } := by
  obtain ⟨hsfrom, hsto⟩ := List.forall_mem_append.mp hs
  rw [portParts, withClauses_append,
    withClauses_ports .sourcePort .sourcePorts ⟨rfl, rfl⟩ (fun _ => rfl) hsfrom,
    withClauses_ports .destinationPort .destinationPorts ⟨rfl, rfl⟩ (fun _ => rfl) hsto]
  cases s.sourcePorts <;> cases s.destinationPorts <;> rfl

theorem withClauses_icmpParts (hs : ∀ c ∈ s.icmpParts, c.IsSpelled) :
    r.withClauses mode s.icmpParts = { r with
      icmpType := if s.protocol = .icmp then s.icmpValue else r.icmpType } := by
  unfold icmpParts at hs ⊢
  split
  · rename_i hicmp
    rw [if_pos hicmp] at hs
    exact withClauses_cons (hs _ List.mem_cons_self) rfl
  · rfl

theorem withClauses_stateParts (hr : r.state = "") (hs : ∀ c ∈ s.stateParts, c.IsSpelled) :
    r.withClauses mode s.stateParts = { r with
      state := ",".intercalate (connectionStates.filter s.states.contains) } := by
  unfold stateParts at hs ⊢
  split
  · rename_i hnil
    have hstates : ",".intercalate (connectionStates.filter s.states.contains) = r.state := by
      rw [hnil, hr]
      decide
    rw [hstates]
    rfl
  · rename_i hne
    rw [if_neg hne] at hs
    rw [withClauses_module]
    exact withClauses_cons (hs _ (by simp)) rfl

theorem withClauses_commentClauses : r.withClauses mode s.commentClauses = { r with name := s.name } := by
  rw [commentClauses, withClauses_module, withClauses_cons_quote]
  rfl

theorem withClauses_limitParts (hs : ∀ c ∈ s.limitParts, c.IsSpelled) :
    r.withClauses mode s.limitParts = { r with
      limit := s.limit.getD r.limit
      burst := s.burst.getD r.burst } := by
  obtain ⟨hsrate, hsburst⟩ := List.forall_mem_append.mp hs
  have hrate : r.withClauses mode (s.limit.elim [] fun limit => [.module "limit", ⟨.limit, limit⟩]) =
      { r with limit := s.limit.getD r.limit } := by
    cases hlimit : s.limit with
    | none => rfl
    | some limit =>
        rw [hlimit] at hsrate
        exact withClauses_cons (hsrate ⟨.limit, limit⟩ (by simp)) rfl
  rw [limitParts, withClauses_append, hrate, withClauses_toList rfl hsburst]
  cases s.burst <;> rfl

/-! ### Options of the jump -/

theorem withClauses_logParts
    (hs : ∀ c ∈ (s.logLevel.map (Clause.mk .logLevel)).toList, c.IsSpelled) :
    r.withClauses mode ((s.logLevel.map (Clause.mk .logLevel)).toList ++
      ((s.logPrefix.map fun start => Clause.mk .logPrefix (keptPrefix start)).toList.map Clause.written)) = { r with
      logLevel := s.logLevel.getD r.logLevel
      logPrefix := (s.logPrefix.map keptPrefix).getD r.logPrefix } := by
  rw [withClauses_append, withClauses_toList rfl hs]
  cases s.logPrefix with
  | none => cases s.logLevel <;> rfl
  | some start =>
      have hquote : (Clause.mk .logPrefix (keptPrefix start)).written =
          ⟨.logPrefix, Word.quote (keptPrefix start)⟩ := rfl
      rw [Option.map_some, Option.toList_some, List.map_singleton, hquote, withClauses_cons_quote]
      cases s.logLevel <;> rfl

/-- A rule has the options of its own jump and no others. -/
theorem withClauses_jumpParts (hs : ∀ c ∈ s.jumpParts.map Clause.written, c.IsSpelled) :
    r.withClauses mode (s.jumpParts.map Clause.written) = { r with
      toDestination := s.optionFor .dnat s.toDestination r.toDestination
      toSource := s.optionFor .snat s.toSource r.toSource
      toPorts := s.optionFor .redirect s.toPorts r.toPorts
      rejectWith := s.optionFor .reject (some (s.rejectWith.getD defaultReject)) r.rejectWith
      logLevel := s.optionFor .log s.logLevel r.logLevel
      logPrefix := s.optionFor .log (s.logPrefix.map keptPrefix) r.logPrefix } := by
  unfold jumpParts at hs ⊢
  simp only [optionFor]
  cases hjump : s.jump with
  | accept | drop | masquerade => rfl
  | dnat | snat | redirect =>
      simp only [hjump] at hs
      rw [(Clause.arePlain_toList rfl).map_written] at hs ⊢
      rw [withClauses_toList rfl hs]
      first | cases s.toDestination <;> rfl | cases s.toSource <;> rfl | cases s.toPorts <;> rfl
  | reject =>
      simp only [hjump] at hs
      exact withClauses_cons (hs _ List.mem_cons_self) rfl
  | log =>
      simp only [hjump, List.map_append] at hs
      rw [(Clause.arePlain_toList rfl).map_written] at hs
      rw [List.map_append, (Clause.arePlain_toList rfl).map_written]
      exact withClauses_logParts (List.forall_mem_append.mp hs).1

/-! ### Attributes of rules -/

theorem withClauses_matchParts {source destination : Option String} {line : String}
    (hs : ∀ c ∈ s.matchParts.map Clause.written, c.IsSpelled) :
    withClauses mode { line, table := s.table, chain := s.chain.name, source, destination }
      (s.matchParts.map Clause.written) = s.attributes source destination line := by
  rw [map_written_matchParts] at hs ⊢
  obtain ⟨hs, hsjump⟩ := List.forall_mem_append.mp hs
  obtain ⟨hsjump, hsoptions⟩ := List.forall_mem_cons.mp hsjump
  simp only [List.forall_mem_append] at hs
  obtain ⟨⟨⟨⟨⟨⟨hsinterfaces, hsprotocol⟩, hsports⟩, hsicmp⟩, hsstates⟩, -⟩, hslimits⟩ := hs
  simp only [withClauses_append]
  rw [withClauses_interfaceParts hsinterfaces, withClauses_protocolParts rfl hsprotocol,
    withClauses_portParts hsports, withClauses_icmpParts hsicmp, withClauses_stateParts rfl hsstates,
    withClauses_commentClauses, withClauses_limitParts hslimits, withClauses_cons hsjump rfl,
    withClauses_jumpParts hsoptions]
  rfl

theorem listed_of_destination {resolve : Resolver} {destination : Option String}
    (h : s.destination.mapM (normalize resolve mode) = .ok destination) :
    destination.map (listedAddress mode) = destination := by
  cases destination with
  | none => rfl
  | some text =>
      obtain ⟨value, -, hvalue⟩ := exists_of_mapM_eq_some h
      exact congrArg some (listedAddress_of_normalize hvalue)

/-- The source that a rule was made for is known from the rule, and it is listed as it stands there. -/
theorem source_of_mem_sourceChoices {resolve : Resolver} {sources : List String} {source : Option String}
    (h : s.sources.mapM (normalize resolve mode) = .ok sources) (hs : source ∈ sourceChoices sources) :
    source = (if s.sources = [] then none else some (source.getD "")) ∧
      source.map (listedAddress mode) = source := by
  rcases mem_sourceChoices hs with ⟨hnil, rfl⟩ | ⟨text, htext, rfl⟩
  · cases hsources : s.sources with
    | nil => exact ⟨by simp, rfl⟩
    | cons value values =>
        rw [hsources, hnil] at h
        simp [bind_eq_ok, pure, Except.pure] at h
  · obtain ⟨value, hvalue, htext⟩ := exists_of_mem_mapM h text htext
    exact ⟨by rw [if_neg (List.ne_nil_of_mem hvalue), Option.getD_some],
      congrArg some (listedAddress_of_normalize htext)⟩

/-- The line that a rule is compiled to, and the line that it is listed as, are read as the attributes that the rule
was declared with. -/
theorem ofLine_of_compile {resolve : Resolver} {rules : List Rule} (hn : s.IsNormal)
    (h : s.compile resolve mode = .ok rules) :
    ∃ destination, s.destination.mapM (normalize resolve mode) = .ok destination ∧
      ∀ rule ∈ rules, ∀ line ∈ [rule.text, Firewall.listedText rule.text],
        ofLine mode rule.table line =
          s.attributes (if s.sources = [] then none else some rule.source) destination line := by
  obtain ⟨hplaced, hadmissible, sources, destination, hsources, hdestination, rfl⟩ := compile_eq_ok_iff.mp h
  refine ⟨destination, hdestination, fun rule hrule line hline => ?_⟩
  obtain ⟨source, hsource, rfl⟩ := List.mem_map.mp hrule
  obtain ⟨hdeclared, hslisted⟩ := source_of_mem_sourceChoices hsources hsource
  have hdlisted := listed_of_destination hdestination
  have hc : IsToken s.chain.name := (isOperand_chain s.chain).isToken
  have hw := writes_parts hn.isFilled hplaced.name hadmissible hsources hsource hdestination
  obtain ⟨hssource, hs⟩ := List.forall_mem_append.mp hw.spelled
  obtain ⟨hsdestination, hsclauses⟩ := List.forall_mem_append.mp hs
  -- both lines have the flags and values of the clauses
  have hread : ofLine mode s.table line = withClauses mode { line, table := s.table }
      (ruleClauses s.chain.name ((source.map (Clause.mk .source)).toList ++
        ((destination.map (Clause.mk .destination)).toList ++ s.matchParts.map Clause.written))) :=
    ofLine_eq_withClauses (flagValues_ruleText hc hw.spelled line hline)
  calc ofLine mode s.table line
      = withClauses mode
          { line
            table := s.table
            chain := s.chain.name
            source := source.map (listedAddress mode)
            destination := destination.map (listedAddress mode) } (s.matchParts.map Clause.written) := by
        rw [hread, ruleClauses, withClauses_cons (Clause.isSpelled_of_isToken rfl hc) rfl, withClauses_append,
          withClauses_toList rfl hssource, withClauses_append, withClauses_toList rfl hsdestination]
        cases source <;> cases destination <;> rfl
    _ = s.attributes source destination line := by
        rw [hslisted, hdlisted, withClauses_matchParts hsclauses]
    _ = s.attributes (if s.sources = [] then none else some (source.getD "")) destination line := by
        rw [← hdeclared]

end Spec

namespace Manifest

open LiveRule

/-- Every rule of a manifest that is compiled is read back with its attributes, from its text and from the line that
it is listed as. -/
theorem ofLine_of_parse {text : String} {specs : List Spec} {s : Spec} {resolve : Resolver} {mode : AddressMode}
    {rules : List Rule} (hparse : parse text = .ok specs) (hs : s ∈ specs)
    (hcompile : s.compile resolve mode = .ok rules) :
    ∃ destination, s.destination.mapM (normalize resolve mode) = .ok destination ∧
      ∀ rule ∈ rules, ∀ line ∈ [rule.text, Firewall.listedText rule.text],
        ofLine mode rule.table line =
          s.attributes (if s.sources = [] then none else some rule.source) destination line :=
  s.ofLine_of_compile (isNormal_of_parse hparse s hs) hcompile

/-- A manifest with a rule whose values look like flags. -/
def flagsManifest : String :=
  "[\x7b\"name\":\"-j\",\"iniface\":\"--comment\",\"source\":[\"10.0.0.0/8\",\"192.168.1.7\"]," ++
    "\"destination\":\"10.1.2.3/16\",\"dport\":22,\"state\":[\"ESTABLISHED\",\"RELATED\"]," ++
    "\"jump\":\"LOG\",\"log_level\":\"-D\",\"log_prefix\":\"in\"\x7d]"

def flagsSpec : Spec where
  name := "-j"
  jump := .log
  sources := ["10.0.0.0/8", "192.168.1.7"]
  destination := some "10.1.2.3/16"
  destinationPorts := some (.single "22")
  inInterface := some "--comment"
  logLevel := some "-D"
  logPrefix := some "in"
  states := ["ESTABLISHED", "RELATED"]

def flagsClauses : String :=
  "-d 10.1.0.0/255.255.0.0 -i --comment -p tcp -m tcp --dport 22 -m state --state RELATED,ESTABLISHED " ++
    "-m comment --comment \"-j\" -j LOG --log-level -D --log-prefix \"in: \""

def flagsRules : List Rule :=
  [{ table := .filter, chain := "INPUT", name := "-j", source := "10.0.0.0/255.0.0.0",
     text := "-A INPUT -s 10.0.0.0/255.0.0.0 " ++ flagsClauses },
    { table := .filter, chain := "INPUT", name := "-j", source := "192.168.1.7",
      text := "-A INPUT -s 192.168.1.7 " ++ flagsClauses }]

/-- The values of that rule are read back, although most of them look like flags. -/
theorem ofLine_of_parse_flags :
    parse flagsManifest = .ok [flagsSpec] ∧ flagsSpec.compile .literal .legacy = .ok flagsRules ∧
      ∀ rule ∈ flagsRules, ∀ line ∈ [rule.text, Firewall.listedText rule.text],
        ofLine .legacy .filter line = flagsSpec.attributes (some rule.source) (some "10.1.0.0/255.255.0.0") line := by
  have hparse : parse flagsManifest = .ok [flagsSpec] := by decide +kernel
  have hcompile : flagsSpec.compile .literal .legacy = .ok flagsRules := by decide +kernel
  obtain ⟨destination, hdestination, hread⟩ := ofLine_of_parse hparse (List.mem_singleton.mpr rfl) hcompile
  have hnormal : flagsSpec.destination.mapM (normalize .literal .legacy) = .ok (some "10.1.0.0/255.255.0.0") := by
    decide +kernel
  rw [hnormal] at hdestination
  obtain rfl := Except.ok.inj hdestination
  have htable : ∀ rule ∈ flagsRules, rule.table = .filter := by decide
  refine ⟨hparse, hcompile, fun rule hrule line hline => ?_⟩
  rw [← htable rule hrule]
  exact hread rule hrule line hline

end Manifest

end PacketFilter
