import PacketFilter.Proofs.Converging

/-! # What a run achieves

The runs here start from a firewall that is seeded with a listing, for the declared rules of a manifest.

* `Session.converge_twice`: a second run changes nothing.
* `Session.converge_exact`: the declared rules come first in their order, and whatever else is live is a further
  copy of one of them; if rules were rebuilt there is nothing else.
* `Session.converge_rebuilds`: a run that rebuilds deletes by position exactly the rules that pruning had left,
  and never one that it has appended itself. -/

namespace PacketFilter.Session

open Firewall

variable {session : Session} {w v : Firewall}

/-! ### Runs that find everything in place -/

/-- Live rules that are all declared and stand in their places are left as they are. -/
theorem converge_of_settled (hw : w.HoldsRules) (hdry : session.settings.dryRun = false)
    (hsettled : Settled session.preview w) (hplaced : ∀ t, session.preview.texts t <+: (w.rules t).map listedKey) :
    session.converge w = .ok (session.pruneReport []) { w with listed := w.listed + 1 + 1 } := by
  have hprune : prune false session.mode session.preview w =
      .ok (Backend.deletions []) { w with listed := w.listed + 1 } :=
    prune_of_settled (hw.surplus_eq_nil_iff.mpr hsettled)
  exact converge_of_placed hdry hprune ((hw.isPlacedIn_listing _ _).mpr hplaced)

theorem holdsRules_of_slots_eq {declared : RuleSet} (hd : declared.IsReadBack) (h : w.slots = declared.slots) :
    w.HoldsRules := by
  intro t s hs
  rw [h] at hs
  obtain ⟨r, hr, rfl⟩ := List.mem_map.mp hs
  exact ⟨(hd.rule t r hr).line, (hd.rule t r hr).appendedChain?_eq⟩

/-- After a run everything is in place, if declared rules are listed under their own texts. -/
theorem converge_settles (hw : w.HoldsRules) (hd : session.preview.IsReadBack)
    (hstable : ∀ t, ∀ r ∈ session.preview.rules t, r.IsStable) (hdry : session.settings.dryRun = false)
    (hr : w.refused = none) :
    ∃ report v, session.converge w = .ok report v ∧ report.checksum = session.preview.checksum ∧ v.HoldsRules ∧
      Settled session.preview v ∧ ∀ t, session.preview.texts t <+: (v.rules t).map listedKey := by
  rcases converge_eq_ok hw hd hdry hr with
    ⟨targets, v, hok, hreach, hsettled, hplaced⟩ | ⟨targets, left, v, hok, -, -, hreach⟩
  · exact ⟨_, v, hok, rfl, hw.of_sublist hreach.sublist, hsettled, hplaced⟩
  · have hslots := hreach.slots_rebuild hd
    refine ⟨_, v, hok, rfl, holdsRules_of_slots_eq hd hslots, fun t s hs => ?_, fun t => ?_⟩
    · rw [hslots] at hs
      obtain ⟨r, hr, rfl⟩ := List.mem_map.mp hs
      rw [show listedKey r.slot.text = r.text from hstable t r hr]
      exact List.mem_map_of_mem hr
    · have hkeys : (session.preview.texts t).map listedKey = session.preview.texts t := by
        rw [RuleSet.texts, List.map_map]
        exact List.map_congr_left fun r hr => hstable t r hr
      simp only [rules_rebuild hd hreach, hkeys, List.prefix_rfl]

/-! ### A sample -/

/-- What a manifest and a listing hold: the declared rules with their texts, and live rules of one chain. -/
structure Sample (manifest raw : String) (specs : List Spec) (texts : Table → List String)
    (table : Table) (chain : String) (rules : List Listing.ListedRule) : Prop where
  parse_eq : Manifest.parse manifest = .ok specs
  texts_eq : ∀ t, (ofSpecs .literal .cidr none specs).preview.texts t = texts t
  rules_eq : Listing.rules raw = rules
  of_chain : ∀ r ∈ rules, r.table = table ∧ appendedChain? r.line = some chain

theorem Sample.slots {manifest raw chain : String} {specs : List Spec} {texts : Table → List String} {table : Table}
    {rules : List Listing.ListedRule} (h : Sample manifest raw specs texts table chain rules) (t : Table) :
    (Firewall.ofListing raw).slots t = if t = table then rules.map fun r => ⟨chain, r.line⟩ else [] := by
  simp only [Firewall.ofListing, h.rules_eq]
  by_cases ht : t = table
  · rw [if_pos ht, List.filter_eq_self.mpr fun r hr => beq_iff_eq.mpr ((h.of_chain r hr).1.trans ht.symm)]
    exact List.map_congr_left fun r hr => by rw [(h.of_chain r hr).2, Option.getD_some]
  · rw [if_neg ht, List.filter_eq_nil_iff.mpr fun r hr he => ht ((beq_iff_eq.mp he).symm.trans (h.of_chain r hr).1),
      List.map_nil]

/-- The text of the first rule of the sample. -/
def sshText : String :=
  "-A INPUT -i eth0 -p tcp -m tcp --dport 22 -m comment --comment \"ssh\" -j ACCEPT"

def seenText : String :=
  "-A FORWARD -p tcp -m tcp -m comment --comment \"seen\" -j LOG --log-level info --log-prefix \"in: \""

/-- A manifest of two rules, in two tables. -/
def sampleManifest : String :=
  "[\x7b\"name\":\"ssh\",\"dport\":22,\"iniface\":\"eth0\"\x7d," ++
    "\x7b\"table\":\"mangle\",\"chain\":\"FORWARD\",\"name\":\"seen\",\"jump\":\"LOG\"," ++
    "\"log_level\":\"info\",\"log_prefix\":\"in\"\x7d]"

def sampleSpecs : List Spec :=
  [{ name := "ssh", destinationPorts := some (.single "22"), inInterface := some "eth0" },
    { table := .mangle, chain := .forward, name := "seen", jump := .log, logLevel := some "info",
      logPrefix := some "in" }]

/-- A listing of the first rule of the sample, behind one that the sample does not declare. -/
def sampleListing : String :=
  "*filter\n-A INPUT -j DROP\n" ++ sshText ++ "\nCOMMIT\n"

def sampleCall : Invocation :=
  ⟨"service", ["iptables", "save"]⟩

/-- The manifest declares two rules, and one of them is live in the listing. -/
theorem sample : Sample sampleManifest sampleListing sampleSpecs
    (fun | .filter => [sshText] | .mangle => [seenText] | _ => [])
    .filter "INPUT" [⟨.filter, 1, "-A INPUT -j DROP"⟩, ⟨.filter, 2, sshText⟩] := by
  constructor
  · decide +kernel
  · intro t
    cases t <;> decide +kernel
  · decide +kernel
  · decide +kernel

theorem parse_sampleManifest : Manifest.parse sampleManifest = .ok sampleSpecs :=
  Sample.parse_eq sample

theorem texts_sampleSpecs (t : Table) :
    (ofSpecs .literal .cidr none sampleSpecs).preview.texts t =
      match t with
      | .filter => [sshText]
      | .mangle => [seenText]
      | _ => [] :=
  Sample.texts_eq sample t

theorem slots_sampleListing (t : Table) :
    (Firewall.ofListing sampleListing).slots t =
      if t = .filter then [⟨"INPUT", "-A INPUT -j DROP"⟩, ⟨"INPUT", sshText⟩] else [] :=
  Sample.slots sample t

section manifest
variable {text raw : String} {specs : List Spec} {resolve : Resolver} {mode : AddressMode}
  {persist persist' : Option Invocation}

/-- A run that is repeated changes nothing, whatever the live rules were before the first run. -/
theorem converge_twice (hparse : Manifest.parse text = .ok specs) (havoid : ∀ s ∈ specs, s.AvoidsQuoting) :
    ∃ report w report' w',
      (ofSpecs resolve mode persist specs).converge (Firewall.ofListing raw) = .ok report w ∧
      (ofSpecs resolve mode persist' specs).converge w = .ok report' w' ∧
      report'.changed = false ∧ report'.pruned = 0 ∧ report'.commands = [] ∧
      w'.log = w.log ∧ w'.slots = w.slots ∧ report'.checksum = report.checksum := by
  obtain ⟨report, w, hok, hsum, hw, hsettled, hplaced⟩ := converge_settles (holdsRules_ofListing raw)
    (isReadBack_of_parse hparse) (isStable_preview (Manifest.isNormal_of_parse hparse) havoid) dryRun_ofSpecs rfl
  have hsame : (ofSpecs resolve mode persist specs).preview = (ofSpecs resolve mode persist' specs).preview :=
    (preview_ofSpecs persist).trans (preview_ofSpecs persist').symm
  rw [hsame] at hsettled hplaced hsum
  exact ⟨report, w, _, _, hok, converge_of_settled hw dryRun_ofSpecs hsettled hplaced, rfl, rfl, rfl, rfl, rfl,
    hsum.symm⟩

/-- The sample is accepted, and it can be made the live rules in place of others. -/
theorem converge_twice_sample :
    Manifest.parse sampleManifest = .ok sampleSpecs ∧ (∀ s ∈ sampleSpecs, s.AvoidsQuoting) ∧
      ∃ report w report' w',
        (ofSpecs .literal .cidr none sampleSpecs).converge (Firewall.ofListing sampleListing) = .ok report w ∧
        (ofSpecs .literal .cidr none sampleSpecs).converge w = .ok report' w' ∧
        report'.changed = false ∧ report'.pruned = 0 ∧ report'.commands = [] ∧
        w'.log = w.log ∧ w'.slots = w.slots ∧ report'.checksum = report.checksum := by
  have havoid : ∀ s ∈ sampleSpecs, s.AvoidsQuoting := by
    simp [sampleSpecs, Spec.AvoidsQuoting]
  exact ⟨parse_sampleManifest, havoid, converge_twice parse_sampleManifest havoid⟩

/-! ### What is live after a run -/

theorem arguments_of_keys (hw : w.HoldsRules) {t : Table} {keys : List String}
    (h : (w.rules t).map listedKey = keys) : (w.rules t).map arguments = keys.map arguments := by
  rw [← h, List.map_map]
  exact List.map_congr_left fun text hmem => (arguments_listedKey (hw.isRuleLine hmem).readable).symm

/-- After a run every table lists the declared rules in their order, and behind them nothing but further copies of
them. If the rules were rebuilt there are no such copies; otherwise the run has only deleted rules. -/
theorem converge_exact (hparse : Manifest.parse text = .ok specs) :
    ∃ report w,
      (ofSpecs resolve mode persist specs).converge (Firewall.ofListing raw) = .ok report w ∧
      (∀ t, ∃ copies,
        (w.rules t).map arguments =
          ((ofSpecs resolve mode persist specs).preview.texts t ++ copies).map arguments ∧
        (∀ copy ∈ copies, copy ∈ (ofSpecs resolve mode persist specs).preview.texts t) ∧
        (report.changed = true → copies = [])) ∧
      (report.changed = false → ∀ t, (w.slots t).Sublist ((Firewall.ofListing raw).slots t)) := by
  have hw := holdsRules_ofListing raw
  have hd : (ofSpecs resolve mode persist specs).preview.IsReadBack := isReadBack_of_parse hparse
  rcases converge_eq_ok hw hd dryRun_ofSpecs rfl with
    ⟨targets, v, hok, hreach, hsettled, hplaced⟩ | ⟨targets, left, v, hok, -, -, hreach⟩
  · refine ⟨_, v, hok, fun t => ?_, fun _ => hreach.sublist⟩
    have hv := hw.of_sublist hreach.sublist
    obtain ⟨copies, hkeys⟩ := hplaced t
    refine ⟨copies, arguments_of_keys hv hkeys.symm, fun copy hcopy => ?_, fun hc => by cases hc⟩
    have hmem : copy ∈ (v.rules t).map listedKey := hkeys ▸ List.mem_append_right _ hcopy
    obtain ⟨text', htext', rfl⟩ := List.mem_map.mp hmem
    obtain ⟨s, hs, rfl⟩ := mem_rules.mp htext'
    exact hsettled t s hs
  · refine ⟨_, v, hok, fun t => ⟨[], ?_, by simp, fun _ => rfl⟩, fun hc => by cases hc⟩
    rw [rules_rebuild hd hreach, List.append_nil]

theorem converge_exact_sample :
    Manifest.parse sampleManifest = .ok sampleSpecs ∧
      ∃ report w,
        (ofSpecs .literal .cidr none sampleSpecs).converge (Firewall.ofListing sampleListing) = .ok report w ∧
        (∀ t, ∃ copies,
          (w.rules t).map arguments =
            ((ofSpecs .literal .cidr none sampleSpecs).preview.texts t ++ copies).map arguments ∧
          (∀ copy ∈ copies, copy ∈ (ofSpecs .literal .cidr none sampleSpecs).preview.texts t) ∧
          (report.changed = true → copies = [])) ∧
        (report.changed = false → ∀ t, (w.slots t).Sublist ((Firewall.ofListing sampleListing).slots t)) :=
  ⟨parse_sampleManifest, converge_exact parse_sampleManifest⟩

/-- The text of the rule that the manifest `copiesManifest` declares. -/
def copyText : String :=
  "-A INPUT -m comment --comment \"all\" -j DROP"

def copiesManifest : String :=
  "[\x7b\"name\":\"all\",\"proto\":\"all\",\"jump\":\"DROP\"\x7d]"

/-- A listing with two copies of the declared rule. -/
def copiesListing : String :=
  "*filter\n" ++ copyText ++ "\n" ++ copyText ++ "\nCOMMIT\n"

def copiesSpecs : List Spec :=
  [{ name := "all", protocol := .all, jump := .drop }]

/-- The manifest declares one rule, and the listing holds it twice. -/
theorem copies : Sample copiesManifest copiesListing copiesSpecs (fun t => if t = .filter then [copyText] else [])
    .filter "INPUT" [⟨.filter, 1, copyText⟩, ⟨.filter, 2, copyText⟩] := by
  constructor
  · decide +kernel
  · intro t
    cases t <;> decide +kernel
  · decide +kernel
  · decide +kernel

theorem parse_copiesManifest : Manifest.parse copiesManifest = .ok copiesSpecs :=
  Sample.parse_eq copies

theorem texts_copiesSpecs (t : Table) :
    (ofSpecs .literal .cidr none copiesSpecs).preview.texts t = if t = .filter then [copyText] else [] :=
  Sample.texts_eq copies t

theorem slots_copiesListing (t : Table) :
    (Firewall.ofListing copiesListing).slots t =
      if t = .filter then [⟨"INPUT", copyText⟩, ⟨"INPUT", copyText⟩] else [] :=
  Sample.slots copies t

theorem rules_copiesListing (t : Table) :
    (Firewall.ofListing copiesListing).rules t = if t = .filter then [copyText, copyText] else [] := by
  rw [Firewall.rules, slots_copiesListing]
  by_cases ht : t = .filter
  · rw [if_pos ht, if_pos ht, inListingOrder, List.mergeSort_of_pairwise (by decide)]
    rfl
  · rw [if_neg ht, if_neg ht, inListingOrder, List.mergeSort_nil, List.map_nil]

theorem converge_copies :
    ∃ report w,
      (ofSpecs .literal .cidr none copiesSpecs).converge (Firewall.ofListing copiesListing) = .ok report w ∧
      w.slots = (Firewall.ofListing copiesListing).slots := by
  have hkey : listedKey copyText = copyText := by
    decide +kernel
  refine ⟨_, _, converge_of_settled (holdsRules_ofListing copiesListing) rfl (fun t s hs => ?_) (fun t => ?_), rfl⟩
  · rw [slots_copiesListing] at hs
    rw [texts_copiesSpecs]
    by_cases ht : t = .filter
    · rw [if_pos ht] at hs ⊢
      obtain rfl : s = ⟨"INPUT", copyText⟩ := by simpa using hs
      simp [hkey]
    · rw [if_neg ht] at hs
      cases hs
  · rw [texts_copiesSpecs, rules_copiesListing]
    by_cases ht : t = .filter
    · rw [if_pos ht, if_pos ht, List.map_cons, hkey]
      exact List.prefix_append [copyText] _
    · rw [if_neg ht]
      exact List.nil_prefix

/-- A copy of a declared rule that stands behind all declared rules stays, so the live rules need not be exactly
the declared ones. -/
theorem not_converge_without_copies :
    ¬ ∀ (text raw : String) (specs : List Spec) (resolve : Resolver) (mode : AddressMode)
      (persist : Option Invocation), Manifest.parse text = .ok specs →
        ∃ report w,
          (ofSpecs resolve mode persist specs).converge (Firewall.ofListing raw) = .ok report w ∧
          ∀ t, (w.rules t).map arguments =
            ((ofSpecs resolve mode persist specs).preview.texts t).map arguments := by
  intro h
  obtain ⟨report, w, hok, hexact⟩ := h copiesManifest copiesListing _ .literal .cidr none parse_copiesManifest
  obtain ⟨report', w', hok', hslots⟩ := converge_copies
  rw [hok] at hok'
  obtain ⟨-, rfl⟩ := EStateM.Result.ok.inj hok'
  have hlength := congrArg List.length (hexact .filter)
  rw [List.length_map, List.length_map, length_rules, hslots, slots_copiesListing, texts_copiesSpecs] at hlength
  cases hlength

/-! ### Rebuilding in detail -/

/-- A declared rule that is not live before a run makes the run rebuild the rules. -/
theorem changed_of_not_live (hparse : Manifest.parse text = .ok specs) {t : Table} {rule : String}
    (hrule : rule ∈ (ofSpecs resolve mode persist specs).preview.texts t)
    (hlive : ∀ s ∈ (Firewall.ofListing raw).slots t, listedKey s.text ≠ rule) :
    ∃ report w,
      (ofSpecs resolve mode persist specs).converge (Firewall.ofListing raw) = .ok report w ∧
      report.changed = true := by
  rcases converge_eq_ok (holdsRules_ofListing raw) (isReadBack_of_parse hparse) dryRun_ofSpecs rfl with
    ⟨targets, v, hok, hreach, -, hplaced⟩ | ⟨targets, left, v, hok, -, -, -⟩
  · obtain ⟨text', htext', hkey⟩ := List.mem_map.mp ((hplaced t).subset hrule)
    obtain ⟨s, hs, rfl⟩ := mem_rules.mp htext'
    exact absurd hkey (hlive s ((hreach.sublist t).subset hs))
  · exact ⟨_, v, hok, rfl⟩

theorem changed_sample (persist : Option Invocation) :
    ∃ report w,
      (ofSpecs .literal .cidr persist sampleSpecs).converge (Firewall.ofListing sampleListing) = .ok report w ∧
      report.changed = true := by
  have hdeclared : seenText ∈ (ofSpecs .literal .cidr persist sampleSpecs).preview.texts .mangle := by
    rw [preview_ofSpecs, texts_sampleSpecs]
    exact List.mem_singleton_self _
  have hmissing : ∀ s ∈ (Firewall.ofListing sampleListing).slots .mangle, listedKey s.text ≠ seenText := by
    simp [slots_sampleListing]
  exact changed_of_not_live parse_sampleManifest hdeclared hmissing

/-- While rules are rebuilt, the next deletion at position 1 takes out a rule that was left, from in front of the
declared rules. -/
theorem exists_flush {declared : RuleSet} (hd : declared.IsReadBack) {cs : List Command} {left : Firewall}
    {n : Nat} (hleft : Backend.runAll cs w = .ok () { left with listed := n })
    (hreach : left.Reaches (rebuildOf declared left persist) v) {done rest : List (Table × String)} {t : Table}
    {chain : String} (hplaces : left.places = done ++ (t, chain) :: rest) :
    ∃ u u' before s after,
      Backend.runAll (cs ++ appendsOf declared.every ++ flushesOf done) w = .ok () u ∧
      Backend.run (.deleteAt t chain 1) u = .ok () u' ∧
      (before ++ s :: after).Sublist (left.slots t) ∧
      u.slots t = before ++ s :: after ++ declared.slots t ∧
      u'.slots t = before ++ after ++ declared.slots t := by
  have hsplit : rebuildOf declared left persist = (appendsOf declared.every ++ flushesOf done) ++
      .deleteAt t chain 1 :: (flushesOf rest ++ persist.toList.map .persist) := by
    simp [rebuildOf, hplaces, flushesOf]
  rw [hsplit] at hreach
  obtain ⟨u, hu, hnext⟩ := hreach.split
  obtain ⟨u', hu', -⟩ := hnext.cons
  obtain ⟨before, s, after, hsub, hslots, happly⟩ := (reaches_of_runAll hu).next_flush hd hplaces
  refine ⟨_, _, before, s, after, ?_, run_listed hu' n, hsub, hslots, ?_⟩
  · rw [List.append_assoc]
    exact runAll_append_eq_ok.mpr ⟨_, hleft, runAll_listed hu n⟩
  · obtain ⟨-, x, hx, rfl⟩ := run_eq_ok.mp hu'
    rw [happly] at hx
    obtain rfl := Except.ok.inj hx
    exact slots_setSlots_self u t _

/-- A run that reports a change has carried out all of its commands: deletions of rules that are not declared,
appends of all declared rules, as many deletions at position 1 as pruning had left rules, and what saves the result.
Each deletion at position 1 takes out a rule that was live before the first append, from in front of those that
the run has appended. In the end exactly the declared rules are live. -/
theorem converge_rebuilds (hparse : Manifest.parse text = .ok specs) :
    ∃ report w,
      (ofSpecs resolve mode persist specs).converge (Firewall.ofListing raw) = .ok report w ∧
      (report.changed = true → ∃ pruned left flushed,
        report.commands = Backend.deletions pruned ++
          appendsOf (ofSpecs resolve mode persist specs).preview.every ++ flushesOf flushed ++
          persist.toList.map .persist ∧
        w.log = report.commands ∧
        Backend.runAll (Backend.deletions pruned) (Firewall.ofListing raw) = .ok () left ∧
        flushed.length = left.size ∧
        (∀ done t chain rest, flushed = done ++ (t, chain) :: rest → ∃ v v' before s after,
          Backend.runAll (Backend.deletions pruned ++
            appendsOf (ofSpecs resolve mode persist specs).preview.every ++ flushesOf done)
            (Firewall.ofListing raw) = .ok () v ∧
          Backend.run (.deleteAt t chain 1) v = .ok () v' ∧
          (before ++ s :: after).Sublist (left.slots t) ∧
          v.slots t = before ++ s :: after ++ (ofSpecs resolve mode persist specs).preview.slots t ∧
          v'.slots t = before ++ after ++ (ofSpecs resolve mode persist specs).preview.slots t) ∧
        ∀ t, w.rules t = (ofSpecs resolve mode persist specs).preview.texts t) := by
  have hd : (ofSpecs resolve mode persist specs).preview.IsReadBack := isReadBack_of_parse hparse
  have hsettings : (ofSpecs resolve mode persist specs).settings = { persist } := settings_ofSpecs
  rcases converge_eq_ok (holdsRules_ofListing raw) hd dryRun_ofSpecs rfl with
    ⟨targets, v, hok, -, -, -⟩ | ⟨targets, left, v, hok, hleft, -, hreach⟩
  · exact ⟨_, v, hok, fun hc => by cases hc⟩
  · refine ⟨_, v, hok, fun _ => ?_⟩
    obtain ⟨n, hpruned⟩ := hleft
    have hleft := reaches_of_runAll hpruned
    have hlog : v.log = Backend.deletions targets ++ rebuildOf (ofSpecs resolve mode persist specs).preview left
        (ofSpecs resolve mode persist specs).settings.persist := by
      rw [hreach.frame.1, show left.log = _ from hleft.frame.1]
      rfl
    rw [hsettings] at hreach hlog
    refine ⟨targets, _, left.places, ?_, ?_, hpruned, left.length_places, ?_, rules_rebuild hd hreach⟩
    · simp only [rebuildReport, hsettings, rebuildOf, List.append_assoc]
    · rw [hlog]
      simp only [rebuildReport, hsettings]
    · intro done t chain rest hplaces
      exact exists_flush hd hpruned hreach hplaces

/-- The second rule of the sample is not live, so the rules are rebuilt, and then both of them are. -/
theorem converge_rebuilds_sample :
    Manifest.parse sampleManifest = .ok sampleSpecs ∧ ∃ report w,
      (ofSpecs .literal .cidr none sampleSpecs).converge (Firewall.ofListing sampleListing) = .ok report w ∧
      report.changed = true ∧ w.log = report.commands ∧ w.rules .filter = [sshText] ∧
      w.rules .mangle = [seenText] := by
  obtain ⟨report, w, hok, hchanged⟩ := changed_sample none
  obtain ⟨report', w', hok', hrebuilt⟩ := converge_rebuilds parse_sampleManifest
  rw [hok] at hok'
  obtain ⟨rfl, rfl⟩ := EStateM.Result.ok.inj hok'
  obtain ⟨-, -, -, -, hlog, -, -, -, hrules⟩ := hrebuilt hchanged
  refine ⟨parse_sampleManifest, report, w, hok, hchanged, hlog, ?_, ?_⟩
  · rw [hrules, texts_sampleSpecs]
  · rw [hrules, texts_sampleSpecs]

end manifest

end PacketFilter.Session
