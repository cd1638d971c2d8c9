import PacketFilter.CommandLine
import PacketFilter.Proofs.FileRules
import PacketFilter.Proofs.Forecast
import PacketFilter.Proofs.Saving

/-! # Comparing and applying

A comparison reads a listing without numbers, where every rule is found once, and it shows no differences if the first
occurrences of the live rules are the declared rules (`CommandLine.findsNone_iff`). Applying reads positions: it
carries out no command if the declared rules come first and only further copies of them behind
(`CommandLine.appliesNone_iff`). The two agree unless a rule is live more than once. Then a rule that is declared twice
is a difference that applying never removes, and a further copy in front of a declared rule is none, though applying
rebuilds the rules for it (`CommandLine.comparison_agrees`, `CommandLine.not_comparison_agrees`). -/

namespace PacketFilter

/-! ### First occurrences -/

theorem nodup_eraseDups {α : Type} [BEq α] [LawfulBEq α] : ∀ xs : List α, xs.eraseDups.Nodup
  | [] => List.nodup_nil
  | x :: xs => by
      rw [List.eraseDups_cons, List.nodup_cons]
      exact ⟨by simp, nodup_eraseDups (xs.filter fun y => !y == x)⟩
termination_by xs => xs.length
decreasing_by exact Nat.lt_succ_of_le (List.length_filter_le _ _)

theorem eraseDups_eq_self_iff {α : Type} [BEq α] [LawfulBEq α] {xs : List α} : xs.eraseDups = xs ↔ xs.Nodup := by
  constructor
  · intro h
    rw [← h]
    exact nodup_eraseDups xs
  · intro h
    induction xs with
    | nil => rfl
    | cons x xs ih =>
        obtain ⟨hx, hxs⟩ := List.nodup_cons.mp h
        have hkept : xs.filter (fun y => !y == x) = xs := List.filter_eq_self.mpr fun y hy => by
          simpa using fun hyx : y = x => hx (hyx ▸ hy)
        rw [List.eraseDups_cons, hkept, ih hxs]

theorem eraseDups_append_of_subset {α : Type} [BEq α] [LawfulBEq α] {xs ys : List α} (h : ys ⊆ xs) :
    (xs ++ ys).eraseDups = xs.eraseDups := by
  have hnone : ys.removeAll xs = [] := List.filter_eq_nil_iff.mpr fun y hy => by simpa using h hy
  rw [List.eraseDups_append, hnone]
  exact List.append_nil _

theorem Listing.map_key_firstByKey (seen : List String) (es : List Entry) :
    (firstByKey seen es).map Entry.key = ((es.map Entry.key).removeAll seen).eraseDups := by
  fun_induction firstByKey seen es with
  | case1 => rfl
  | case2 seen e es hseen ih =>
      rw [ih, List.map_cons, List.removeAll, List.removeAll, List.filter_cons_of_neg]
      simpa using hseen
  | case3 seen e es hseen ih =>
      have hfilter : (es.map Entry.key).removeAll (e.key :: seen) =
          ((es.map Entry.key).removeAll seen).filter fun k => !k == e.key := by
        rw [List.removeAll, List.removeAll, List.filter_filter]
        refine List.filter_congr fun k _ => ?_
        rw [List.elem_cons]
        cases k == e.key <;> rfl
      rw [List.map_cons, ih, hfilter, List.map_cons, List.removeAll, List.removeAll, List.filter_cons_of_pos,
        List.eraseDups_cons]
      simpa using hseen

namespace Firewall

variable {w v : Firewall}

/-- The keys of the live rules of a table, as often as they are live. -/
def keys (w : Firewall) (t : Table) : List String :=
  (w.rules t).map listedKey

theorem HoldsRules.map_key_entries (hw : w.HoldsRules) (mode : AddressMode) (t : Table) :
    ((Listing.parse false mode w.listing).entries t).map Entry.key = (w.keys t).eraseDups := by
  have hall : (w.keys t).removeAll [] = w.keys t := List.filter_eq_self.mpr fun _ _ => rfl
  rw [Listing.entries_parse, hw.rules_listing, Listing.map_key_firstByKey, map_key_listedRulesOf]
  exact congrArg List.eraseDups hall

end Firewall

/-! ### Lines -/

theorem splitAt_ruleLines {rules : List String} (h : ∀ r ∈ rules, '\n' ∉ r.toList) :
    Text.splitAt (· == '\n') (ruleLines rules).toList = rules.map String.toList ++ [[]] := by
  have hjoin : (ruleLines rules).toList = (rules.map String.toList).flatMap (· ++ ['\n']) := by
    simp [ruleLines, String.toList_join, List.flatMap_map]
  rw [hjoin]
  clear hjoin
  induction rules with
  | nil => rfl
  | cons r rules ih =>
      have hr : ∀ c ∈ r.toList, (c == '\n') = false := by
        intro c hc
        rw [beq_eq_false_iff_ne]
        rintro rfl
        exact h r List.mem_cons_self hc
      rw [List.map_cons, List.flatMap_cons, List.append_assoc, List.singleton_append, Text.splitAt_append hr rfl,
        ih fun q hq => h q (List.mem_cons_of_mem _ hq)]
      rfl

theorem ruleLines_inj {rules rules' : List String} (h : ∀ r ∈ rules, '\n' ∉ r.toList)
    (h' : ∀ r ∈ rules', '\n' ∉ r.toList) : ruleLines rules = ruleLines rules' ↔ rules = rules' := by
  refine ⟨fun heq => ?_, congrArg ruleLines⟩
  have hpieces := splitAt_ruleLines h
  rw [heq, splitAt_ruleLines h'] at hpieces
  exact List.map_inj_right (fun _ _ => String.toList_injective) |>.mp (List.append_cancel_right hpieces).symm

theorem Diff.head_unified (oldName newName oldText newText : String) :
    ∀ c ∈ (unified oldName newName oldText newText).toList.head?, c = '-' := by
  rw [unified]
  split
  · simp
  · simp [String.toList_append]

theorem head_join {c : Char} {texts : List String} (h : ∀ s ∈ texts, ∀ d ∈ s.toList.head?, d = c) :
    ∀ d ∈ (String.join texts).toList.head?, d = c := by
  induction texts with
  | nil => simp
  | cons s texts ih =>
      rw [String.join_cons, String.toList_append, List.head?_append]
      intro d hd
      cases hs : s.toList.head? with
      | none =>
          rw [hs, Option.none_or] at hd
          exact ih (fun u hu => h u (List.mem_cons_of_mem _ hu)) d hd
      | some e =>
          rw [hs, Option.some_or] at hd
          exact h s List.mem_cons_self d (hs ▸ hd)

/-- The comparison says that there are no differences exactly if no table differs. -/
theorem comparison_eq_iff {declared : RuleSet} {live : LiveState} :
    comparison declared live = "No differences\n" ↔ ∀ t, live.ruleLines t = declared.ruleLines t := by
  have hnone : Table.all.filter (differs declared live) = [] ↔ ∀ t, live.ruleLines t = declared.ruleLines t := by
    rw [List.filter_eq_nil_iff]
    refine ⟨fun h t => ?_, fun h t _ => ?_⟩
    · simpa [differs] using h t t.mem_all
    · simp [differs, h t]
  rw [← hnone, comparison]
  cases Table.all.filter (differs declared live) with
  | nil => exact iff_of_true rfl rfl
  | cons t tables =>
      refine iff_of_false (fun htext => ?_) (List.cons_ne_nil t tables)
      have hhead : ∀ s ∈ (t :: tables).map (tableComparison declared live), ∀ c ∈ s.toList.head?, c = '-' := by
        intro s hs
        obtain ⟨u, -, rfl⟩ := List.mem_map.mp hs
        exact Diff.head_unified _ _ _ _
      have hminus := head_join hhead
      rw [show String.join _ = _ from htext] at hminus
      cases hminus 'N' rfl

/-- Compared with rules of one line each, live rules show no differences exactly if the first occurrences of their keys
are those rules. -/
theorem Firewall.HoldsRules.comparison_listing_iff {w : Firewall} {declared : RuleSet} (hw : w.HoldsRules)
    (mode : AddressMode) (h : ∀ r ∈ declared.every, '\n' ∉ r.text.toList) :
    comparison declared (Listing.parse false mode w.listing) = "No differences\n" ↔
      ∀ t, (w.keys t).eraseDups = declared.texts t := by
  refine comparison_eq_iff.trans (forall_congr' fun t => ?_)
  have hkeys : ∀ k ∈ ((Listing.parse false mode w.listing).entries t).map Entry.key, '\n' ∉ k.toList := by
    intro k hk
    obtain ⟨e, he, rfl⟩ := List.mem_map.mp hk
    exact (isRuleLine_key he).newline
  have htexts : ∀ text ∈ declared.texts t, '\n' ∉ text.toList := by
    intro text htext
    obtain ⟨r, hr, rfl⟩ := List.mem_map.mp htext
    exact h r (List.mem_flatMap.mpr ⟨t, t.mem_all, hr⟩)
  rw [LiveState.ruleLines, RuleSet.ruleLines, ruleLines_inj hkeys htexts, hw.map_key_entries]

/-! ### Runs without commands -/

namespace Session

open Firewall

variable {session : Session} {w v : Firewall} {targets : List (Table × String)}

theorem exists_first_append {plan : Plan} (hplan : session.plan? v = some plan) :
    ∃ r ∈ session.preview.every, ∃ rest, session.commandsOf (some plan) = .append r.table r.text :: rest := by
  obtain ⟨t, rule, hmem⟩ := Plan.exists_append hplan
  have hcommands := commands_of_toAdd (congrArg Plan.toAdd (RuleSet.between_eq_some_iff.mp hplan).2)
  rw [commandsOf, hcommands]
  cases hevery : session.preview.every with
  | nil =>
      rw [hcommands, hevery, List.mem_append] at hmem
      rcases hmem with hmem | hmem
      · cases hmem
      · obtain ⟨place, -, hplace⟩ := List.mem_map.mp hmem
        cases hplace
  | cons r rules => exact ⟨r, List.mem_cons_self, _, rfl⟩

theorem exists_log_of_plan {plan : Plan} (hdry : session.settings.dryRun = false)
    (hprune : prune false session.mode session.preview w = .ok (Backend.deletions targets) v)
    (hplan : session.plan? v = some plan) (hr : v.refused = none)
    (hd : ∀ r ∈ session.preview.every, appendedChain? r.text = some r.chain) :
    ∃ c more, (session.stateAfter w).log = v.log ++ c :: more := by
  obtain ⟨r, hmem, rest, hcommands⟩ := exists_first_append hplan
  obtain ⟨u, hu⟩ := exists_runAll_appends (w := { v with listed := v.listed + 1 }) hr
    (List.forall_mem_singleton.mpr (hd r hmem))
  obtain ⟨m, hfirst, -⟩ := Backend.runAll_cons_eq_ok.mp hu
  rw [← hdry] at hprune
  rw [stateAfter, converge_of_plan_some hprune hplan, hdry, perform, if_neg Bool.false_ne_true, hcommands]
  rcases runAll_cases (.append r.table r.text :: rest) { v with listed := v.listed + 1 } with
    ⟨u, hu⟩ | ⟨done, c, rest', e, u, hsplit, hdone, hc, hu⟩
  · rw [hu]
    exact ⟨_, _, (reaches_of_runAll_listed hu).frame.1⟩
  · rw [hu]
    cases done with
    | nil =>
        -- the first command does not fail
        obtain ⟨-, rfl⟩ := EStateM.Result.ok.inj hdone
        obtain ⟨rfl, -⟩ := List.cons.inj hsplit
        cases hc.symm.trans hfirst
    | cons d done => exact ⟨_, _, (reaches_of_runAll_listed hdone).frame.1⟩

theorem subset_keys_iff {declared : RuleSet} : (∀ t, w.keys t ⊆ declared.texts t) ↔ Settled declared w := by
  constructor
  · intro h t s hs
    exact h t (List.mem_map_of_mem (mem_rules.mpr ⟨s, hs, rfl⟩))
  · intro h t k hk
    obtain ⟨text, htext, rfl⟩ := List.mem_map.mp hk
    obtain ⟨s, hs, rfl⟩ := mem_rules.mp htext
    exact h t s hs

/-- A run carries out no command exactly if the declared rules come first in every table and each rule behind them is a
further copy of one of them. -/
theorem log_stateAfter_eq_iff (hw : w.HoldsRules) (hr : w.refused = none) (hdry : session.settings.dryRun = false)
    (hd : ∀ r ∈ session.preview.every, appendedChain? r.text = some r.chain) :
    (session.stateAfter w).log = w.log ↔
      (∀ t, session.preview.texts t <+: w.keys t) ∧ ∀ t, w.keys t ⊆ session.preview.texts t := by
  obtain ⟨targets, left, hprune, hpasses⟩ := exists_prunes hw hr session.preview session.mode
  have hreach := hpasses.reaches
  have hsettled : targets = [] ↔ ∀ t, w.keys t ⊆ session.preview.texts t := by
    rw [hpasses.eq_nil_iff, subset_keys_iff]
    exact hw.surplus_eq_nil_iff
  have hplaced : session.plan? left = none ↔ ∀ t, session.preview.texts t <+: left.keys t :=
    RuleSet.between_eq_none_iff.trans ((hw.of_sublist hreach.sublist).isPlacedIn_listing _ _)
  by_cases hnil : targets = []
  · -- pruning leaves the rules as they are, so all depends on the plan for them
    have hkeys : left.keys = w.keys := by
      rw [hnil] at hreach
      funext t
      rw [keys, keys, Firewall.rules, Firewall.rules, hreach.slots_of_nil]
    have hlog : left.log = w.log := by
      rw [hreach.frame.1, hnil]
      exact List.append_nil _
    rw [and_iff_left (hsettled.mp hnil), ← hkeys, ← hplaced, ← hlog]
    cases hplan : session.plan? left with
    | none =>
        rw [← hdry] at hprune
        rw [stateAfter, converge_of_plan_none hprune hplan]
        exact iff_of_true rfl rfl
    | some plan =>
        obtain ⟨c, more, hstate⟩ := exists_log_of_plan hdry hprune hplan (hreach.frame.2.trans hr) hd
        rw [hstate]
        exact iff_of_false (by simp) (by simp)
  · obtain ⟨done, -, hstate⟩ := exists_log_stateAfter hdry hprune
    refine iff_of_false (fun hlog => hnil ?_) fun h => hnil (hsettled.mpr h.2)
    rw [hstate, hreach.frame.1, List.append_assoc, List.append_right_eq_self, List.append_eq_nil_iff] at hlog
    exact List.map_eq_nil_iff.mp hlog.1

end Session

/-! ### The program -/

namespace CommandLine

open Firewall Session

variable {env : Surroundings} {options : Options} {manifest : String} {w u : Firewall} {session : Session} {count : Nat}
  {dryRun : Bool}

/-- A session of the program with the rules of a manifest and of the files around it. -/
def sessionOf (env : Surroundings) (mode : AddressMode) (dryRun : Bool) (specs : List Spec) (pre post : List Rule) :
    Session :=
  let persist := env.config.savingCommand? env.savingCommand
  Session.declareAll env.resolve { mode, settings := { dryRun, persist, pre, post } } specs

theorem lift_eq_ok {α : Type} {x : Except Failure α} {a : α} :
    (lift x : Action Firewall α) w = .ok a u ↔ x = .ok a ∧ u = w := by
  cases x with
  | ok b => simp [lift, pure, EStateM.pure, eq_comm]
  | error e =>
      have hthrow : (lift (.error e) : Action Firewall α) w = .error e w := rfl
      simp [hthrow]

def modeFor (options : Options) (w : Firewall) : AddressMode :=
  options.addressMode.getD (AddressMode.ofVersion w.version)

theorem addressMode_eq (options : Options) (w : Firewall) :
    (addressMode options : Action Firewall AddressMode) w = .ok (modeFor options w) w := by
  rw [addressMode, modeFor]
  cases options.addressMode <;> rfl

theorem prepare_eq_ok : prepare env options manifest dryRun w = .ok (session, count) u ↔
    ∃ specs pre post, Manifest.load manifest (env.document manifest) = .ok specs ∧
      RuleFile.load .pre (env.document (preFile env options)) = .ok pre ∧
      RuleFile.load .post (env.document (postFile env options)) = .ok post ∧
      session = sessionOf env (modeFor options w) dryRun specs pre post ∧
      count = specs.length ∧ u = w := by
  simp only [prepare, Action.bind_eq_ok, lift_eq_ok, Spec.mapError_eq_ok, addressMode_eq]
  constructor
  · rintro ⟨specs, _, ⟨hspecs, rfl⟩, mode, _, hmode, pre, _, ⟨hpre, rfl⟩, post, _, ⟨hpost, rfl⟩, hsession⟩
    obtain ⟨rfl, rfl⟩ := EStateM.Result.ok.inj hmode
    obtain ⟨hpair, rfl⟩ := EStateM.Result.ok.inj hsession
    exact ⟨specs, pre, post, hspecs, hpre, hpost, (Prod.mk.inj hpair).1.symm, (Prod.mk.inj hpair).2.symm, rfl⟩
  · rintro ⟨specs, pre, post, hspecs, hpre, hpost, rfl, rfl, rfl⟩
    exact ⟨specs, _, ⟨hspecs, rfl⟩, _, _, rfl, pre, _, ⟨hpre, rfl⟩, post, _, ⟨hpost, rfl⟩, rfl⟩

variable {mode : AddressMode} {specs : List Spec} {pre post : List Rule}

theorem prepare_of_load (dryRun : Bool) (hspecs : Manifest.load manifest (env.document manifest) = .ok specs)
    (hpre : RuleFile.load .pre (env.document (preFile env options)) = .ok pre)
    (hpost : RuleFile.load .post (env.document (postFile env options)) = .ok post) :
    prepare env options manifest dryRun w =
      .ok (sessionOf env (modeFor options w) dryRun specs pre post, specs.length) w :=
  prepare_eq_ok.mpr ⟨specs, pre, post, hspecs, hpre, hpost, rfl, rfl, rfl⟩

theorem preview_sessionOf : (sessionOf env mode dryRun specs pre post).preview =
    RuleSet.assemble (specs.flatMap (Spec.rules env.resolve mode)) pre post := by
  rw [Session.preview, sessionOf, Session.collected_declareAll, Session.declareAll_settings]
  rfl

theorem line_of_mem_preview (mode : AddressMode) (dryRun : Bool)
    (hspecs : Manifest.load manifest (env.document manifest) = .ok specs)
    (hpre : RuleFile.load .pre (env.document (preFile env options)) = .ok pre)
    (hpost : RuleFile.load .post (env.document (postFile env options)) = .ok post) :
    ∀ r ∈ (sessionOf env mode dryRun specs pre post).preview.every,
      '\n' ∉ r.text.toList ∧ appendedChain? r.text = some r.chain := by
  have hfile : ∀ {origin document rules}, RuleFile.load origin document = .ok rules →
      ∀ r ∈ rules, '\n' ∉ r.text.toList ∧ appendedChain? r.text = some r.chain := by
    intro origin document rules hload r hr
    obtain ⟨content, hsub⟩ := RuleFile.exists_parse_of_load hload
    obtain ⟨hn, -, hchain⟩ := RuleFile.canonical_of_parse (hsub hr)
    exact ⟨hn, hchain⟩
  obtain ⟨content, hparse⟩ := Manifest.exists_parse_of_load hspecs
  intro r hr
  obtain ⟨t, -, hr⟩ := List.mem_flatMap.mp hr
  rw [preview_sessionOf, RuleSet.mem_assemble] at hr
  rcases hr.1 with hr | hr | hr
  · exact hfile hpre r hr
  · obtain ⟨spec, hspec, hr⟩ := List.mem_flatMap.mp hr
    obtain ⟨rules, hrules, hr⟩ := Spec.mem_rules.mp hr
    have hback := Spec.isReadBack_of_compile (Manifest.isNormal_of_parse hparse spec hspec) hrules r hr
    exact ⟨hback.line.newline, hback.appendedChain?_eq⟩
  · exact hfile hpost r hr

/-- The program finds no differences between the live rules and the declared ones. -/
def FindsNone (env : Surroundings) (options : Options) (manifest : String) (w : Firewall) : Prop :=
  (answer env options (.compare manifest) w).1.text = "No differences\n"

/-- The program carries out no command to make the live rules the declared ones. -/
def AppliesNone (env : Surroundings) (options : Options) (manifest : String) (w : Firewall) : Prop :=
  (answer env options (.apply manifest false) w).2.log = w.log

theorem text_compare (h : prepare env options manifest true w = .ok (session, count) u) :
    (answer env options (.compare manifest) w).1.text =
      comparison session.preview (Listing.parse false session.mode u.listing) := by
  have hrun : run env options (.compare manifest) w =
      .ok { text := comparison session.preview (Listing.parse false session.mode u.listing) }
        { u with listed := u.listed + 1 } :=
    Action.bind_eq_ok.mpr ⟨_, _, h, rfl⟩
  rw [answer, hrun]

theorem state_apply (h : prepare env options manifest dryRun w = .ok (session, count) u) :
    (answer env options (.apply manifest dryRun) w).2 = session.stateAfter u := by
  have hrun : run env options (.apply manifest dryRun) w = converge env session count u := by
    simp only [run, bind, EStateM.bind, h]
  rw [answer, hrun, converge, Session.stateAfter]
  cases session.converge u <;> rfl

theorem findsNone_iff (hw : w.HoldsRules) (h : prepare env options manifest false w = .ok (session, count) u) :
    FindsNone env options manifest w ↔ ∀ t, (w.keys t).eraseDups = session.preview.texts t := by
  obtain ⟨specs, pre, post, hspecs, hpre, hpost, rfl, rfl, rfl⟩ := prepare_eq_ok.mp h
  have hdry := prepare_of_load (w := u) true hspecs hpre hpost
  have hlines := line_of_mem_preview (modeFor options u) true hspecs hpre hpost
  rw [FindsNone, text_compare hdry, hw.comparison_listing_iff _ fun r hr => (hlines r hr).1, preview_sessionOf,
    preview_sessionOf]

theorem appliesNone_iff (hw : w.HoldsRules) (hr : w.refused = none)
    (h : prepare env options manifest false w = .ok (session, count) u) :
    AppliesNone env options manifest w ↔
      (∀ t, session.preview.texts t <+: w.keys t) ∧ ∀ t, w.keys t ⊆ session.preview.texts t := by
  obtain ⟨specs, pre, post, hspecs, hpre, hpost, rfl, rfl, rfl⟩ := prepare_eq_ok.mp h
  have hlines := line_of_mem_preview (modeFor options u) false hspecs hpre hpost
  rw [AppliesNone, state_apply h]
  exact Session.log_stateAfter_eq_iff hw hr (by rw [sessionOf, Session.declareAll_settings]) fun r hr => (hlines r hr).2

/-- Where no command would be carried out, no differences are found exactly if no rule is declared twice. Where no
differences are found, no command would be carried out exactly if the further copies of live rules come behind all the
declared ones. Without further copies of live rules the comparison tells what applying does. -/
theorem comparison_agrees (hw : w.HoldsRules) (hr : w.refused = none)
    (h : prepare env options manifest false w = .ok (session, count) u) :
    (AppliesNone env options manifest w → (FindsNone env options manifest w ↔ ∀ t, (session.preview.texts t).Nodup)) ∧
      (FindsNone env options manifest w →
        (AppliesNone env options manifest w ↔ ∀ t, session.preview.texts t <+: w.keys t)) ∧
      ((∀ t, (w.keys t).Nodup) → (FindsNone env options manifest w ↔ AppliesNone env options manifest w)) := by
  rw [findsNone_iff hw h, appliesNone_iff hw hr h]
  have hfirst : (∀ t, session.preview.texts t <+: w.keys t) → (∀ t, w.keys t ⊆ session.preview.texts t) →
      ∀ t, (w.keys t).eraseDups = (session.preview.texts t).eraseDups := by
    intro hplaced hdeclared t
    obtain ⟨copies, hcopies⟩ := hplaced t
    rw [← hcopies]
    exact eraseDups_append_of_subset fun k hk => hdeclared t (hcopies ▸ List.mem_append_right _ hk)
  refine ⟨?_, ?_, fun hnodup => ⟨?_, ?_⟩⟩
  · rintro ⟨hplaced, hdeclared⟩
    refine forall_congr' fun t => ?_
    rw [hfirst hplaced hdeclared, eraseDups_eq_self_iff]
  · intro hfinds
    refine and_iff_left fun t k hk => ?_
    rw [← hfinds t]
    exact List.mem_eraseDups.mpr hk
  · intro hfinds
    have hkeys : ∀ t, w.keys t = session.preview.texts t := fun t =>
      (eraseDups_eq_self_iff.mpr (hnodup t)).symm.trans (hfinds t)
    exact ⟨fun t => hkeys t ▸ List.prefix_rfl, fun t => hkeys t ▸ List.Subset.refl _⟩
  · rintro ⟨hplaced, hdeclared⟩ t
    rw [hfirst hplaced hdeclared, eraseDups_eq_self_iff]
    exact (hplaced t).sublist.nodup (hnodup t)

/-- A manifest that declares the rule which the listing holds twice, and a file before it. -/
def copiesAround (file : Document) : Surroundings where
  resolve := .literal
  document path :=
    if path = "rules.json" then .text copiesManifest
    else if path = "pre.iptables" then file
    else .missing
  config := { preFile := "pre.iptables", postFile := "post.iptables" }

theorem prepare_copiesAround {file : Document} {pre : List Rule} (hpre : RuleFile.load .pre file = .ok pre) :
    prepare (copiesAround file) {} "rules.json" false (ofListing copiesListing) =
      .ok (sessionOf (copiesAround file) .cidr false copiesSpecs pre [], 1) (ofListing copiesListing) :=
  prepare_of_load false parse_copiesManifest hpre rfl

theorem keys_copiesListing (t : Table) :
    (ofListing copiesListing).keys t = if t = .filter then [copyText, copyText] else [] := by
  have hkey : listedKey copyText = copyText := by
    decide +kernel
  rw [Firewall.keys, rules_copiesListing]
  split <;> simp [hkey]

/-- Without a file the rule is declared once, and neither finds anything to do. -/
theorem comparison_agrees_copies :
    (ofListing copiesListing).HoldsRules ∧ (ofListing copiesListing).refused = none ∧
      prepare (copiesAround .missing) {} "rules.json" false (ofListing copiesListing) =
        .ok (sessionOf (copiesAround .missing) .cidr false copiesSpecs [] [], 1) (ofListing copiesListing) ∧
      FindsNone (copiesAround .missing) {} "rules.json" (ofListing copiesListing) ∧
      AppliesNone (copiesAround .missing) {} "rules.json" (ofListing copiesListing) := by
  have hw : (ofListing copiesListing).HoldsRules := holdsRules_ofListing copiesListing
  have hprepare : prepare (copiesAround .missing) {} "rules.json" false (ofListing copiesListing) = _ :=
    prepare_copiesAround rfl
  have htexts : ∀ t, (sessionOf (copiesAround .missing) .cidr false copiesSpecs [] []).preview.texts t =
      if t = .filter then [copyText] else [] := by
    intro t
    rw [preview_sessionOf]
    cases t <;> decide +kernel
  obtain ⟨-, hagrees, -⟩ := comparison_agrees hw rfl hprepare
  have hfinds : FindsNone (copiesAround .missing) {} "rules.json" (ofListing copiesListing) := by
    refine (findsNone_iff hw hprepare).mpr fun t => ?_
    rw [keys_copiesListing, htexts]
    cases t <;> decide
  refine ⟨hw, rfl, hprepare, hfinds, (hagrees hfinds).mpr fun t => ?_⟩
  rw [keys_copiesListing, htexts]
  split <;> simp

/-- With the rule in the file too there are differences, though no command would be carried out. -/
theorem not_comparison_agrees :
    ¬ ∀ (env : Surroundings) (options : Options) (manifest : String) (w : Firewall) (session : Session) (count : Nat),
      w.HoldsRules → w.refused = none → prepare env options manifest false w = .ok (session, count) w →
      (FindsNone env options manifest w ↔ AppliesNone env options manifest w) := by
  intro h
  let env := copiesAround (.text (ruleLines [copyText]))
  let pre : List Rule := [{ table := .filter, chain := "INPUT", text := copyText, origin := .pre }]
  have hw : (ofListing copiesListing).HoldsRules := holdsRules_ofListing copiesListing
  have hpre : RuleFile.load .pre (.text (ruleLines [copyText])) = .ok pre := by
    decide +kernel
  have hprepare := prepare_copiesAround hpre
  have htexts : ∀ t, (sessionOf env .cidr false copiesSpecs pre []).preview.texts t =
      if t = .filter then [copyText, copyText] else [] := by
    intro t
    rw [preview_sessionOf]
    cases t <;> decide +kernel
  have happlies : AppliesNone env {} "rules.json" (ofListing copiesListing) := by
    have hlive : ∀ t, _ = (ofListing copiesListing).keys t := fun t => (htexts t).trans (keys_copiesListing t).symm
    exact (appliesNone_iff hw rfl hprepare).mpr
      ⟨fun t => hlive t ▸ List.prefix_rfl, fun t => hlive t ▸ List.Subset.refl _⟩
  have hfinds := (findsNone_iff hw hprepare).mp ((h _ _ _ _ _ _ hw rfl hprepare).mpr happlies) .filter
  rw [keys_copiesListing, htexts] at hfinds
  revert hfinds
  decide

end CommandLine

end PacketFilter
