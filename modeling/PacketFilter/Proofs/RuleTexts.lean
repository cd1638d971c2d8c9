import PacketFilter.Proofs.CommandRuns
import PacketFilter.Proofs.CompiledClauses

/-! # The texts of declared rules

A rule that is compiled from a manifest should be found in a listing under its own text. It is, and it is its own
canonical text, exactly if no flag whose value is quoted is written where another clause follows it
(`Manifest.canonical_iff_of_parse`): in a line, an interface with the name `--comment` is taken for that flag
(`Manifest.not_canonical_of_parse`).

The arguments of a rule text are its flags and values in turn, and the values are the plain ones: what stands in quotes
is one argument without them (`arguments_written`). So the arguments of the rules that a declared rule is compiled to
are known from its values alone, one argument for each, whatever the values look like (`Spec.arguments_of_compile`). -/

/-! ## Canonical form -/

namespace PacketFilter.Manifest

variable {text : String} {specs : List Spec} {s : Spec} {resolve : Resolver} {mode : AddressMode} {rules : List Rule}

/-- The rules of a manifest are their own canonical texts, and so are the lines that they are listed as and the keys
they are found by, exactly if their declaration is unconfused. -/
theorem canonical_iff_of_parse (hparse : parse text = .ok specs) (hs : s ∈ specs)
    (hcompile : s.compile resolve mode = .ok rules) :
    ∀ r ∈ rules,
      (canonical r.text = r.text ↔ s.IsUnconfused) ∧
      (canonical (Firewall.listedText r.text) = r.text ↔ s.IsUnconfused) ∧
      ∃ w, Backend.run (.append r.table r.text) ({} : Firewall) = .ok () w ∧
        (((Listing.parse false mode w.listing).entries r.table).map Entry.key = [r.text] ↔ s.IsUnconfused) := by
  intro r hr
  have hn := isNormal_of_parse hparse s hs
  have hcanonical := s.canonical_iff_of_compile hn hcompile r hr
  have hread := s.isReadBack_of_compile hn hcompile r hr
  obtain ⟨chain, -, -, hchain⟩ := hread.line.appendedChain?_eq
  obtain ⟨w, hrun, hslots⟩ := Firewall.exists_run_append r.table hchain
  refine ⟨hcanonical _ (by simp), hcanonical _ (by simp), w, hrun, ?_⟩
  rw [Firewall.entries_of_run_append hread.line hchain hslots, ← hcanonical (Firewall.listedText r.text) (by simp),
    List.map_singleton, List.singleton_inj, Firewall.listedKey]

/-- A manifest with a rule whose log level is named like a flag. -/
def levelManifest : String :=
  "[\x7b\"name\":\"a\",\"jump\":\"LOG\",\"log_level\":\"--comment\"\x7d]"

def levelSpec : Spec :=
  { name := "a", jump := .log, logLevel := some "--comment" }

def levelRule : Rule :=
  { table := .filter, chain := "INPUT", name := "a",
    text := "-A INPUT -p tcp -m tcp -m comment --comment \"a\" -j LOG --log-level --comment" }

/-- Behind that log level nothing follows that it could be a flag for. -/
theorem canonical_iff_of_parse_level :
    parse levelManifest = .ok [levelSpec] ∧ levelSpec.compile .literal .cidr = .ok [levelRule] ∧
      canonical levelRule.text = levelRule.text ∧ canonical (Firewall.listedText levelRule.text) = levelRule.text ∧
      ∃ w, Backend.run (.append .filter levelRule.text) ({} : Firewall) = .ok () w ∧
        ((Listing.parse false .cidr w.listing).entries .filter).map Entry.key = [levelRule.text] := by
  have hparse : parse levelManifest = .ok [levelSpec] := by decide +kernel
  have hcompile : levelSpec.compile .literal .cidr = .ok [levelRule] := by decide +kernel
  have hunconfused : levelSpec.IsUnconfused := ⟨by decide, fun _ h => absurd rfl h⟩
  obtain ⟨htext, hlisted, w, hrun, hkeys⟩ :=
    canonical_iff_of_parse hparse (List.mem_singleton.mpr rfl) hcompile levelRule (List.mem_singleton.mpr rfl)
  exact ⟨hparse, hcompile, htext.mpr hunconfused, hlisted.mpr hunconfused, w, hrun, hkeys.mpr hunconfused⟩

/-- A manifest with a rule for an interface that is named like a flag. -/
def commentManifest : String :=
  "[\x7b\"name\":\"a\",\"iniface\":\"--comment\"\x7d]"

def commentSpec : Spec :=
  { name := "a", inInterface := some "--comment" }

def commentRule : Rule :=
  { table := .filter, chain := "INPUT", name := "a",
    text := "-A INPUT -i --comment -p tcp -m tcp -m comment --comment \"a\" -j ACCEPT" }

/-- A rule that is compiled need not be its own canonical text. -/
theorem not_canonical_of_parse :
    ¬ ∀ (text : String) (specs : List Spec) (s : Spec) (resolve : Resolver) (mode : AddressMode) (rules : List Rule),
      parse text = .ok specs → s ∈ specs → s.compile resolve mode = .ok rules →
        ∀ r ∈ rules, canonical r.text = r.text := by
  intro h
  have hparse : parse commentManifest = .ok [commentSpec] := by decide +kernel
  have hcompile : commentSpec.compile .literal .cidr = .ok [commentRule] := by decide +kernel
  have hcanonical : canonical commentRule.text ≠ commentRule.text := by decide +kernel
  have hmem : commentSpec ∈ [commentSpec] := List.mem_singleton.mpr rfl
  exact hcanonical (h _ _ _ _ _ _ hparse hmem hcompile commentRule (List.mem_singleton.mpr rfl))

end PacketFilter.Manifest

/-! ## Arguments -/

namespace PacketFilter

/-! ### Arguments of clauses -/

namespace Clause

theorem text_word_written {c : Clause} (h : c.written.IsSpelled) : c.written.word.text = c.value := by
  unfold written at h ⊢
  cases hq : c.flag.quotesValue with
  | true => exact congrArg Word.text (word_quote c.flag c.value)
  | false =>
      simp only [hq, Bool.false_eq_true, if_false] at h ⊢
      exact h.text_word hq

theorem map_text_words_written {c : Clause} (h : c.written.IsSpelled) :
    c.written.words.map Word.text = c.pieces := by
  have hflag : c.written.flag = c.flag := by
    unfold written
    split <;> rfl
  simp [words, pieces, hflag, text_word_written h]

end Clause

theorem arguments_written {chain : String} {parts : List Clause} (hc : IsToken chain)
    (h : ∀ c ∈ parts.map Clause.written, c.IsSpelled) :
    arguments (ruleText chain (parts.map Clause.written)) = "-A" :: chain :: parts.flatMap Clause.pieces := by
  have hparts : ((parts.map Clause.written).flatMap Clause.words).map Word.text = parts.flatMap Clause.pieces := by
    rw [List.flatMap_map, List.map_flatMap]
    refine List.flatMap_congr fun c hmem => ?_
    exact Clause.map_text_words_written (h _ (List.mem_map_of_mem hmem))
  rw [arguments, read_ruleText hc h, ruleClauses, List.flatMap_cons, List.map_append, hparts, Clause.words,
    word_chain hc]
  rfl

/-! ### Arguments of declared rules -/

namespace Spec

variable {s : Spec} {resolve : Resolver} {mode : AddressMode} {rules : List Rule}

/-- What a declared rule says for one of its sources, as flags with plain values in the order of a listing. -/
def parts (s : Spec) (source destination : Option String) : List Clause :=
  (source.map (Clause.mk .source)).toList ++ (destination.map (Clause.mk .destination)).toList ++ s.matchParts

theorem map_written_parts (s : Spec) (source destination : Option String) :
    (s.parts source destination).map Clause.written =
      (source.map (Clause.mk .source)).toList ++
        ((destination.map (Clause.mk .destination)).toList ++ s.matchParts.map Clause.written) := by
  unfold parts
  rw [List.map_append, List.map_append, (Clause.arePlain_toList rfl).map_written,
    (Clause.arePlain_toList rfl).map_written, List.append_assoc]

/-- The arguments of the rules that a declared rule is compiled to, one rule for each normal source or one without: the
chain, the source, the normal destination, and then a flag and a value for everything that the rule declares. Every
value is one argument, as it was declared, or in the one form in which a listing has it. -/
theorem arguments_of_compile (hf : s.IsFilled) (h : s.compile resolve mode = .ok rules) :
    ∃ sources destination, s.sources.mapM (normalize resolve mode) = .ok sources ∧
      s.destination.mapM (normalize resolve mode) = .ok destination ∧
      rules.map (fun rule => arguments rule.text) = (sourceChoices sources).map fun source =>
        "-A" :: s.chain.name :: (s.parts source destination).flatMap Clause.pieces := by
  obtain ⟨hplaced, hadmissible, sources, destination, hsources, hdestination, rfl⟩ := compile_eq_ok_iff.mp h
  refine ⟨sources, destination, hsources, hdestination, ?_⟩
  rw [List.map_map]
  refine List.map_congr_left fun source hsource => ?_
  have hw := writes_parts hf hplaced.name hadmissible hsources hsource hdestination
  rw [← map_written_parts] at hw
  have harguments := arguments_written (isOperand_chain s.chain).isToken hw.spelled
  rw [map_written_parts] at harguments
  exact harguments

/-- A rule whose values look like further arguments. -/
def flagLikeSpec : Spec where
  name := "-D INPUT -j DROP"
  jump := .log
  sources := ["10.1.2.3/8", "192.168.1.7"]
  sourcePorts := some (.list ["22", "8000:8080"])
  inInterface := some "--comment"
  logLevel := some "-j"
  logPrefix := some "-s 0.0.0.0/0 -j DROP -p all -d 0.0.0.0/0"
  states := ["NEW", "INVALID"]
  limit := some "3/min"
  burst := some "5"

/-- What the rules of that declaration say behind their source. -/
def flagLikeArguments : List String :=
  ["-i", "--comment", "-p", "tcp", "-m", "tcp", "-m", "multiport", "--sports", "22,8000:8080", "-m", "state",
    "--state", "INVALID,NEW", "-m", "comment", "--comment", "-D INPUT -j DROP", "-m", "limit", "--limit", "3/min",
    "--limit-burst", "5", "-j", "LOG", "--log-level", "-j", "--log-prefix", "-s 0.0.0.0/0 -j DROP -p all: "]

/-- No value of that declaration becomes another argument. -/
theorem arguments_of_compile_flags :
    flagLikeSpec.IsFilled ∧ ∃ rules, flagLikeSpec.compile .literal .cidr = .ok rules ∧
      rules.map (fun rule => arguments rule.text) =
        ["10.0.0.0/8", "192.168.1.7/32"].map fun source => "-A" :: "INPUT" :: "-s" :: source :: flagLikeArguments := by
  have hf : flagLikeSpec.IsFilled := ⟨by decide, by decide⟩
  have hsome : (flagLikeSpec.compile .literal .cidr).toOption.isSome = true := by decide +kernel
  have hnormal : flagLikeSpec.sources.mapM (normalize .literal .cidr) = .ok ["10.0.0.0/8", "192.168.1.7/32"] := by
    decide +kernel
  cases hcompile : flagLikeSpec.compile .literal .cidr with
  | error e =>
      rw [hcompile] at hsome
      cases hsome
  | ok rules =>
      obtain ⟨sources, destination, hsources, hdestination, harguments⟩ := arguments_of_compile hf hcompile
      rw [hnormal] at hsources
      obtain rfl := Except.ok.inj hsources
      obtain rfl := Except.ok.inj hdestination
      refine ⟨hf, rules, rfl, harguments.trans ?_⟩
      decide +kernel

end Spec

end PacketFilter
