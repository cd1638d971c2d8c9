import PacketFilter.Proofs.Continuity
import PacketFilter.Proofs.FixedPoint

/-! # Dry runs

A dry run lists the rules, makes one pass of the pruning, and then makes its plan for the rules as they are. The run
that it stands for goes on pruning and makes its plan for the rules that are left. Pruning moves no rule that is in its
place, so there is a plan for them only if there was one before; it appends the same rules, and its deletions are
among those of the dry run. Every command of the run is therefore in the report of the dry run
(`Session.dryRun_forecasts`). -/

namespace PacketFilter

/-- Whether a command deletes a rule by its text. -/
def Command.deletesByText : Command → Bool
  | .delete _ _ => true
  | _ => false

namespace Firewall

variable {w v : Firewall} {declared : RuleSet} {targets : List (Table × String)}

theorem HoldsRules.mem_passTargets (hw : w.HoldsRules) (mode : AddressMode) (hu : Undeclared declared w targets)
    {p : Table × String} (hp : p ∈ targets) : p ∈ passTargets declared mode w :=
  hw.mem_surplus.mpr (hu p hp)

/-- Declared rules that are in their places stay there when the rules that are not declared are taken out. -/
theorem placed_of_pruned {t : Table} (h : declared.texts t <+: (w.rules t).map listedKey)
    (hslots : v.slots t = (w.slots t).filter fun s => (declared.texts t).contains (listedKey s.text)) :
    declared.texts t <+: (v.rules t).map listedKey := by
  obtain ⟨rest, hrest⟩ := h
  refine ⟨rest.filter (declared.texts t).contains, ?_⟩
  calc declared.texts t ++ rest.filter (declared.texts t).contains
      = (declared.texts t ++ rest).filter (declared.texts t).contains := by
        rw [List.filter_append, List.filter_eq_self.mpr fun k hk => List.contains_iff_mem.mpr hk]
    _ = ((w.rules t).map listedKey).filter (declared.texts t).contains := by rw [hrest]
    _ = (v.rules t).map listedKey := by
        rw [List.filter_map, rules_filter (p := fun text => (declared.texts t).contains (listedKey text)) hslots]
        rfl

theorem HoldsRules.map_stale_subset (hw : w.HoldsRules) (hsub : ∀ t, (v.slots t).Sublist (w.slots t))
    (mode : AddressMode) :
    ((Listing.parse true mode v.listing).stale.map fun old => Command.deleteAt old.table old.chain 1) ⊆
      (Listing.parse true mode w.listing).stale.map fun old => Command.deleteAt old.table old.chain 1 := by
  rw [(hw.of_sublist hsub).map_stale, hw.map_stale]
  intro c hc
  obtain ⟨t, ht, hc⟩ := List.mem_flatMap.mp hc
  obtain ⟨s, hs, rfl⟩ := List.mem_map.mp hc
  have hlive := mem_inListingOrder.mpr ((hsub t).subset (mem_inListingOrder.mp hs))
  exact List.mem_flatMap.mpr ⟨t, ht, List.mem_map_of_mem hlive⟩

end Firewall

namespace Session

open Firewall

variable {session : Session} {w v : Firewall} {targets : List (Table × String)}

/-- The same declarations for a run that is a dry run or not. -/
def withDryRun (session : Session) (dryRun : Bool) : Session :=
  { session with settings := { session.settings with dryRun } }

/-! ### Reports -/

/-- A dry run reports the deletions of one pass and the plan for the rules as they are, and changes nothing. -/
theorem converge_dryRun (hdry : session.settings.dryRun = true) :
    session.converge w =
      .ok (session.reportOf (Backend.deletions (passTargets session.preview session.mode w)) (session.plan? w))
        { w with listed := w.listed + 2 } := by
  have hprune := prune_dryRun session.preview session.mode w
  rw [← hdry] at hprune
  cases hplan : session.plan? w with
  | none => exact converge_of_plan_none hprune hplan
  | some plan =>
      rw [converge_of_plan_some hprune hplan, hdry]
      rfl

theorem filter_deletions : (Backend.deletions targets).filter Command.deletesByText = Backend.deletions targets := by
  rw [List.filter_eq_self]
  intro c hc
  obtain ⟨p, -, rfl⟩ := List.mem_map.mp hc
  rfl

theorem filter_commandsOf (plan : Option Plan) : (session.commandsOf plan).filter Command.deletesByText = [] := by
  rw [List.filter_eq_nil_iff]
  cases plan with
  | none => exact fun c hc => absurd hc List.not_mem_nil
  | some plan =>
      intro c hc
      rw [commandsOf, Plan.commands, List.mem_append, List.mem_append, List.mem_map, List.mem_map, List.mem_map] at hc
      rcases hc with (⟨p, -, rfl⟩ | ⟨old, -, rfl⟩) | ⟨call, -, rfl⟩ <;> exact Bool.false_ne_true

/-! ### Plans before and after pruning -/

/-- If pruning takes out the rules that are not declared, there is a plan afterwards only if there was one before. -/
theorem plan?_eq_none_of_pruned (hw : w.HoldsRules)
    (hslots : ∀ t, v.slots t = (w.slots t).filter fun s => (session.preview.texts t).contains (listedKey s.text))
    (h : session.plan? w = none) : session.plan? v = none := by
  have hsub : ∀ t, (v.slots t).Sublist (w.slots t) := fun t => hslots t ▸ List.filter_sublist
  have hplaced := (hw.isPlacedIn_listing _ _).mp (RuleSet.between_eq_none_iff.mp h)
  exact RuleSet.between_eq_none_iff.mpr (((hw.of_sublist hsub).isPlacedIn_listing _ _).mpr fun t =>
    placed_of_pruned (hplaced t) (hslots t))

theorem commandsOf_subset (hw : w.HoldsRules) (hsub : ∀ t, (v.slots t).Sublist (w.slots t))
    (hnone : session.plan? w = none → session.plan? v = none) :
    session.commandsOf (session.plan? v) ⊆ session.commandsOf (session.plan? w) := by
  cases hplan : session.plan? v with
  | none => exact List.nil_subset _
  | some plan =>
      cases hplan' : session.plan? w with
      | none =>
          rw [hnone hplan'] at hplan
          cases hplan
      | some plan' =>
          obtain ⟨-, rfl⟩ := RuleSet.between_eq_some_iff.mp hplan
          obtain ⟨-, rfl⟩ := RuleSet.between_eq_some_iff.mp hplan'
          have hflushes := hw.map_stale_subset hsub session.mode
          intro c hc
          simp only [commandsOf, Plan.commands, List.mem_append] at hc ⊢
          exact hc.imp_left (Or.imp_right fun h => hflushes h)

/-! ### The run that is forecast -/

theorem exists_log_stateAfter (hdry : session.settings.dryRun = false)
    (hprune : prune false session.mode session.preview w = .ok (Backend.deletions targets) v) :
    ∃ done, done <+: session.commandsOf (session.plan? v) ∧ (session.stateAfter w).log = v.log ++ done := by
  rw [← hdry] at hprune
  rw [stateAfter]
  cases hplan : session.plan? v with
  | none =>
      rw [converge_of_plan_none hprune hplan]
      exact ⟨[], List.nil_prefix, (List.append_nil _).symm⟩
  | some plan =>
      rw [converge_of_plan_some hprune hplan, hdry]
      rcases runAll_cases (session.commandsOf (some plan)) { v with listed := v.listed + 1 } with
        ⟨u, hu⟩ | ⟨done, c, rest, e, u, hsplit, hdone, -, hu⟩
      · rw [perform, if_neg Bool.false_ne_true, hu]
        exact ⟨_, List.prefix_refl _, (reaches_of_runAll_listed hu).frame.1⟩
      · rw [perform, if_neg Bool.false_ne_true, hu]
        exact ⟨done, ⟨c :: rest, hsplit.symm⟩, (reaches_of_runAll_listed hdone).frame.1⟩

/-- A report is a sound forecast of a run: every command that the run carries out is in it, its deletions by text are
the first ones of the run, and if it reports no change, the run succeeds and reports none. -/
structure IsForecast (session : Session) (w : Firewall) (forecast : Report) : Prop where
  commands : ∀ c ∈ (session.stateAfter w).log, c ∈ forecast.commands
  deletions : forecast.commands.filter Command.deletesByText <+:
    (session.stateAfter w).log.filter Command.deletesByText
  unchanged : forecast.changed = false → ∃ report v, session.converge w = .ok report v ∧ report.changed = false

/-- The deletions of the first pass and the plan for the rules as they are forecast a run that no command is refused. -/
theorem isForecast_reportOf (hw : w.HoldsRules) (ha : w.ListsAlike) (hr : w.refused = none) (hlog : w.log = [])
    (hdry : session.settings.dryRun = false) :
    session.IsForecast w
      (session.reportOf (Backend.deletions (passTargets session.preview session.mode w)) (session.plan? w)) := by
  obtain ⟨targets, left, hprune, hpasses⟩ := exists_prunes hw hr session.preview session.mode
  have hreach := hpasses.reaches
  have hnone : session.plan? w = none → session.plan? left = none :=
    plan?_eq_none_of_pruned hw (hpasses.slots_eq hw ha)
  obtain ⟨done, hdone, hstate⟩ := exists_log_stateAfter hdry hprune
  have hexecuted : (session.stateAfter w).log = Backend.deletions targets ++ done := by
    rw [hstate, hreach.frame.1, hlog, List.nil_append]
  constructor
  · intro c hc
    rw [hexecuted, List.mem_append] at hc
    rcases hc with hc | hc
    · obtain ⟨p, hp, rfl⟩ := List.mem_map.mp hc
      exact List.mem_append_left _ (List.mem_map_of_mem (hw.mem_passTargets session.mode (hpasses.undeclared hw) hp))
    · exact List.mem_append_right _ (commandsOf_subset hw hreach.sublist hnone (hdone.subset hc))
  · have hfilter : done.filter Command.deletesByText = [] := by
      have hprefix := hdone.filter Command.deletesByText
      rwa [filter_commandsOf, List.prefix_nil] at hprefix
    rw [hexecuted, reportOf, List.filter_append, List.filter_append, filter_commandsOf, hfilter, List.append_nil,
      List.append_nil, filter_deletions, filter_deletions]
    exact hpasses.passTargets_prefix.map _
  · intro hchanged
    have hplan : session.plan? w = none :=
      Option.isNone_iff_eq_none.mp (Option.isSome_eq_false_iff.mp hchanged)
    rw [← hdry] at hprune
    exact ⟨_, _, converge_of_plan_none hprune (hnone hplan), rfl⟩

/-- If live rules with the same arguments are listed alike, a dry run is a sound forecast. It succeeds, it only lists
the rules, and it saves nothing. Every command that the run itself carries out is one of those that it reports, its
deletions by text are the first ones of the run, in their order, and if it reports no change the run has none to make
either. -/
theorem dryRun_forecasts (raw : String) (session : Session) (ha : (ofListing raw).ListsAlike) :
    ∃ forecast,
      (session.withDryRun true).converge (ofListing raw) = .ok forecast { ofListing raw with listed := 2 } ∧
      forecast.persisted = false ∧ (session.withDryRun false).IsForecast (ofListing raw) forecast := by
  have hforecast : (session.withDryRun false).IsForecast (ofListing raw) _ :=
    isForecast_reportOf (holdsRules_ofListing raw) ha rfl rfl rfl
  exact ⟨_, converge_dryRun rfl, Bool.and_false _, hforecast.commands, hforecast.deletions, hforecast.unchanged⟩

/-- The dry run of the sample reports that the rule which is not declared would be deleted. -/
theorem dryRun_forecasts_sample :
    (ofListing sampleListing).ListsAlike ∧ ∃ forecast,
      ((ofSpecs .literal .cidr (some sampleCall) sampleSpecs).withDryRun true).converge (ofListing sampleListing) =
        .ok forecast { ofListing sampleListing with listed := 2 } ∧
      .delete .filter "-A INPUT -j DROP" ∈ forecast.commands ∧ forecast.persisted = false ∧
      ((ofSpecs .literal .cidr (some sampleCall) sampleSpecs).withDryRun false).IsForecast (ofListing sampleListing)
        forecast := by
  have ha : (ofListing sampleListing).ListsAlike := seeded_none sampleListing ▸ listsAlike_sampleListing none
  have hkey : listedKey "-A INPUT -j DROP" = "-A INPUT -j DROP" ∧ "-A INPUT -j DROP" ≠ sshText := by
    decide +kernel
  have hundeclared : "-A INPUT -j DROP" ∉
      (ofSpecs .literal .cidr (some sampleCall) sampleSpecs).preview.texts .filter := by
    rw [preview_ofSpecs, texts_sampleSpecs, List.mem_singleton]
    exact hkey.2
  have hlive : (⟨"INPUT", "-A INPUT -j DROP"⟩ : Slot) ∈ (ofListing sampleListing).slots .filter := by
    simp [slots_sampleListing]
  obtain ⟨forecast, hok, hsaved, hforecast⟩ := dryRun_forecasts sampleListing
    (ofSpecs .literal .cidr (some sampleCall) sampleSpecs) ha
  refine ⟨ha, forecast, hok, ?_, hsaved, hforecast⟩
  rw [converge_dryRun rfl] at hok
  obtain ⟨rfl, -⟩ := EStateM.Result.ok.inj hok
  have htarget : (.filter, "-A INPUT -j DROP") ∈ passTargets
      (ofSpecs .literal .cidr (some sampleCall) sampleSpecs).preview .cidr (ofListing sampleListing) :=
    (holdsRules_ofListing sampleListing).mem_surplus.mpr ⟨⟨_, hlive, hkey.1⟩, hundeclared⟩
  exact List.mem_append_left _ (List.mem_map_of_mem htarget)

end Session

end PacketFilter
