import PacketFilter.Proofs.Continuity
import PacketFilter.Proofs.FixedPoint

/-! # What a run saves

A run saves the rules at the end of its plan, so what it has changed is saved exactly if there was a plan or nothing
to do at all (`Session.converge_saves_iff`). A run that has pruned rules and then finds every declared rule in its place
ends without a plan: the rules that it has deleted are live again after a restart
(`Session.not_converge_saves`). -/

namespace PacketFilter

/-- Whether a command changes the live rules. -/
def Command.changesRules : Command → Bool
  | .persist _ => false
  | _ => true

theorem Plan.exists_append {declared : RuleSet} {live : LiveState} {plan : Plan}
    (h : Plan.between declared live = some plan) : ∃ t rule, .append t rule ∈ plan.commands := by
  obtain ⟨hplaced, rfl⟩ := RuleSet.between_eq_some_iff.mp h
  obtain ⟨t, -, hmissing⟩ := List.all_eq_false.mp hplaced
  obtain ⟨p, hp, -⟩ := List.all_eq_false.mp (Bool.eq_false_iff.mpr hmissing)
  exact ⟨_, _, List.mem_append_left _ (List.mem_map_of_mem (List.mem_flatMap.mpr ⟨t, t.mem_all, hp⟩))⟩

namespace Session

open Firewall

variable {session : Session} {w v : Firewall} {call : Invocation} {report : Report}
  {targets : List (Table × String)}

/-- Every change is saved: if commands that were carried out have changed a rule, the last of them saves the rules and
the report says so, and otherwise none of them saves anything. -/
structure SavesChanges (call : Invocation) (executed : List Command) (report : Report) : Prop where
  saved : (∃ c ∈ executed, c.changesRules = true) →
    executed.getLast? = some (.persist call) ∧ report.persisted = true
  unsaved : (∀ c ∈ executed, c.changesRules = false) → ∀ other, .persist other ∉ executed

theorem savesChanges_deletions_iff :
    SavesChanges call (Backend.deletions targets) report ↔ Backend.deletions targets = [] := by
  constructor
  · intro h
    by_contra hne
    have hlast := List.getLast?_eq_some_getLast hne
    obtain ⟨d, -, hd⟩ := List.mem_map.mp (List.getLast_mem hne)
    have hsaved := h.saved ⟨_, List.getLast_mem hne, by rw [← hd]; rfl⟩
    rw [hlast, ← hd] at hsaved
    cases hsaved.1
  · intro h
    rw [h]
    constructor
    · rintro ⟨c, hc, -⟩
      cases hc
    · exact fun _ other => List.not_mem_nil

/-- Commands that append a rule and end with saving have saved every change. -/
theorem savesChanges_of_append {commands : List Command} {t : Table} {rule : String}
    (hmem : .append t rule ∈ commands) (hsaved : report.persisted = true) :
    SavesChanges call (commands ++ [.persist call]) report where
  saved _ := ⟨List.getLast?_concat, hsaved⟩
  unsaved h := by
    have hchanges := h _ (List.mem_append_left _ hmem)
    cases hchanges

/-- The report of a run that succeeds lists the commands that were carried out. Every change is saved exactly if the run
had a plan or did nothing; a run without a plan has deleted rules and saved nothing. -/
theorem converge_saves_iff (hdry : session.settings.dryRun = false) (hsave : session.settings.persist = some call)
    (h : session.converge w = .ok report v) :
    v.log = w.log ++ report.commands ∧
      (SavesChanges call report.commands report ↔ report.changed = true ∨ report.commands = []) ∧
      (report.changed = false →
        report.persisted = false ∧ ∀ c ∈ report.commands, ∃ t rule, c = .delete t rule) := by
  obtain ⟨targets, left, hpasses, rfl, hreach⟩ := exists_prunes_of_converge hdry h
  refine ⟨(hpasses.reaches.trans hreach).frame.1, ?_⟩
  cases hplan : session.plan? left with
  | none =>
      have hcommands : (session.reportOf (Backend.deletions targets) none).commands = Backend.deletions targets :=
        List.append_nil _
      rw [hcommands]
      refine ⟨savesChanges_deletions_iff.trans ?_, fun _ => ⟨rfl, fun c hc => ?_⟩⟩
      · simp [reportOf]
      · obtain ⟨⟨t, rule⟩, -, rfl⟩ := List.mem_map.mp hc
        exact ⟨t, rule, rfl⟩
  | some plan =>
      obtain ⟨t, rule, hmem⟩ := Plan.exists_append hplan
      have hcommands : (session.reportOf (Backend.deletions targets) (some plan)).commands =
          (Backend.deletions targets ++ plan.commands) ++ [.persist call] := by
        simp [reportOf, commandsOf, hsave]
      have hsaved : (session.reportOf (Backend.deletions targets) (some plan)).persisted = true := by
        simp [reportOf, hsave, hdry]
      rw [hcommands]
      refine ⟨iff_of_true (savesChanges_of_append (List.mem_append_right _ hmem) hsaved) (.inl rfl), fun hc => ?_⟩
      cases hc

/-- A rule of the sample is not live, so a run makes a plan and saves what it has changed. -/
theorem converge_saves_iff_sample :
    (ofSpecs .literal .cidr (some sampleCall) sampleSpecs).settings.dryRun = false ∧
      (ofSpecs .literal .cidr (some sampleCall) sampleSpecs).settings.persist = some sampleCall ∧
      ∃ report v,
        (ofSpecs .literal .cidr (some sampleCall) sampleSpecs).converge (ofListing sampleListing) = .ok report v ∧
        report.changed = true ∧ v.log = report.commands ∧ SavesChanges sampleCall v.log report := by
  have hdry : (ofSpecs .literal .cidr (some sampleCall) sampleSpecs).settings.dryRun = false := dryRun_ofSpecs
  have hsave : (ofSpecs .literal .cidr (some sampleCall) sampleSpecs).settings.persist = some sampleCall := by
    rw [settings_ofSpecs]
  obtain ⟨report, v, hok, hchanged⟩ := changed_sample (some sampleCall)
  obtain ⟨hlog, hsaves, -⟩ := converge_saves_iff hdry hsave hok
  rw [show (ofListing sampleListing).log = [] from rfl, List.nil_append] at hlog
  exact ⟨hdry, hsave, report, v, hok, hchanged, hlog, hlog ▸ hsaves.mpr (.inl hchanged)⟩

/-- The first rule of the sample alone, which is live behind a rule that is not declared. -/
def sshSpecs : List Spec :=
  [{ name := "ssh", destinationPorts := some (.single "22"), inInterface := some "eth0" }]

theorem texts_sshSpecs (persist : Option Invocation) (t : Table) :
    (ofSpecs .literal .cidr persist sshSpecs).preview.texts t = if t = .filter then [sshText] else [] := by
  rw [(preview_ofSpecs persist).trans (preview_ofSpecs none).symm]
  cases t <;> decide +kernel

theorem converge_ssh (call : Invocation) :
    ∃ targets v, targets ≠ [] ∧
      (ofSpecs .literal .cidr (some call) sshSpecs).converge (ofListing sampleListing) =
        .ok ((ofSpecs .literal .cidr (some call) sshSpecs).pruneReport targets) v ∧
      v.log = Backend.deletions targets := by
  have hdry : (ofSpecs .literal .cidr (some call) sshSpecs).settings.dryRun = false := dryRun_ofSpecs
  have hw := holdsRules_ofListing sampleListing
  have ha : (ofListing sampleListing).ListsAlike := seeded_none sampleListing ▸ listsAlike_sampleListing none
  have hkeys : listedKey sshText = sshText ∧ listedKey "-A INPUT -j DROP" ≠ sshText := by
    decide +kernel
  obtain ⟨targets, left, hprune, hpasses⟩ := exists_prunes hw rfl
    (ofSpecs .literal .cidr (some call) sshSpecs).preview (ofSpecs .literal .cidr (some call) sshSpecs).mode
  have hslots : ∀ t, left.slots t = if t = .filter then [⟨"INPUT", sshText⟩] else [] := by
    intro t
    rw [hpasses.slots_eq hw ha, slots_sampleListing, texts_sshSpecs]
    cases t <;> simp [hkeys]
  have hplaced : ∀ t, (ofSpecs .literal .cidr (some call) sshSpecs).preview.texts t <+:
      (left.rules t).map listedKey := by
    intro t
    rw [texts_sshSpecs, Firewall.rules, hslots]
    cases t <;> simp [inListingOrder, hkeys]
  refine ⟨targets, _, fun hnil => ?_, converge_of_placed hdry hprune
    (((hw.of_sublist hpasses.reaches.sublist).isPlacedIn_listing _ _).mpr hplaced), hpasses.reaches.frame.1⟩
  have hbefore := hw.surplus_eq_nil_iff.mp (hpasses.eq_nil_iff.mp hnil)
  have hstale := hbefore .filter ⟨"INPUT", "-A INPUT -j DROP"⟩ (by simp [slots_sampleListing])
  rw [texts_sshSpecs, if_pos rfl, List.mem_singleton] at hstale
  exact hkeys.2 hstale

/-- A run that only deletes rules does not save the result. -/
theorem not_converge_saves :
    ¬ ∀ (session : Session) (call : Invocation) (w v : Firewall) (report : Report) (executed : List Command),
      session.settings.dryRun = false → session.settings.persist = some call →
      session.converge w = .ok report v → v.log = w.log ++ executed → SavesChanges call executed report := by
  intro h
  obtain ⟨targets, v, hne, hok, hlog⟩ := converge_ssh sampleCall
  have hdry : (ofSpecs .literal .cidr (some sampleCall) sshSpecs).settings.dryRun = false := dryRun_ofSpecs
  have hsave : (ofSpecs .literal .cidr (some sampleCall) sshSpecs).settings.persist = some sampleCall := by
    rw [settings_ofSpecs]
  have hsaves := h _ _ _ _ _ _ hdry hsave hok hlog
  exact hne (List.map_eq_nil_iff.mp (savesChanges_deletions_iff.mp hsaves))

end Session
end PacketFilter
