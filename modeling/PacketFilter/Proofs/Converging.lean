import PacketFilter.Proofs.Rebuilding

/-! # Runs of a session

A run that is no dry run has one of four outcomes (`Session.outcome_converge`): pruning stops at a command that
is refused; the declared rules are in their places after pruning; the rules are rebuilt; or rebuilding stops at
a command that is refused. -/

namespace PacketFilter.Session

open Firewall

/-- The report of a run that has pruned the live rules and has nothing else to do. -/
def pruneReport (session : Session) (targets : List (Table × String)) : Report where
  declared := session.preview.size
  rejected := session.rejected
  checksum := session.preview.checksum
  pruned := targets.length
  commands := Backend.deletions targets

/-- The report of a run that has rebuilt the live rules which pruning had left. -/
def rebuildReport (session : Session) (targets : List (Table × String)) (left : Firewall) : Report where
  declared := session.preview.size
  rejected := session.rejected
  checksum := session.preview.checksum
  pruned := targets.length
  changed := true
  added := session.preview.size
  deleted := left.size
  persisted := session.settings.persist.isSome
  persistUnavailable := session.settings.persist.isNone
  commands := Backend.deletions targets ++ rebuildOf session.preview left session.settings.persist

/-- How a run from the live rules of `w` can end. -/
inductive Outcome (session : Session) (w : Firewall) : EStateM.Result Failure Firewall Report → Prop
  | pruneRefused {targets : List (Table × String)} {e : Failure} {v : Firewall} :
    Undeclared session.preview w targets → w.Reaches (Backend.deletions targets) v → w.refused ≠ none →
      Outcome session w (.error e v)
  | unchanged {targets : List (Table × String)} {v : Firewall} :
    Undeclared session.preview w targets → w.Reaches (Backend.deletions targets) v →
      Settled session.preview v → (∀ t, session.preview.texts t <+: (v.rules t).map listedKey) →
      Outcome session w (.ok (session.pruneReport targets) v)
  | rebuilt {targets : List (Table × String)} {left v : Firewall} :
    Undeclared session.preview w targets → w.Reaches (Backend.deletions targets) left →
      Settled session.preview left →
      left.Reaches (rebuildOf session.preview left session.settings.persist) v →
      Outcome session w (.ok (session.rebuildReport targets left) v)
  | rebuildRefused {targets : List (Table × String)} {left : Firewall} {done : List Command} {e : Failure}
      {v : Firewall} :
    Undeclared session.preview w targets → w.Reaches (Backend.deletions targets) left →
      Settled session.preview left →
      done <+: rebuildOf session.preview left session.settings.persist → left.Reaches done v →
      w.refused ≠ none → Outcome session w (.error e v)

variable {session : Session} {w v : Firewall} {targets : List (Table × String)}

/-! ### Equations -/

/-- What there is to do about the live rules of a firewall that have been pruned. -/
def plan? (session : Session) (w : Firewall) : Option Plan :=
  Plan.between session.preview (Listing.parse true session.mode w.listing)

/-- The commands that carry out a plan, if there is one, and save the result. -/
def commandsOf (session : Session) : Option Plan → List Command
  | none => []
  | some plan => plan.commands ++ session.settings.persist.toList.map .persist

/-- The report of a run with the commands of its pruning and the plan that it had, if there was one. -/
def reportOf (session : Session) (pruned : List Command) (plan : Option Plan) : Report where
  dryRun := session.settings.dryRun
  declared := session.preview.size
  rejected := session.rejected
  checksum := session.preview.checksum
  pruned := pruned.length
  changed := plan.isSome
  added := plan.elim 0 fun plan => plan.toAdd.length
  deleted := plan.elim 0 fun plan => plan.toDelete.length
  persisted := plan.isSome && session.settings.persist.isSome && ! session.settings.dryRun
  persistUnavailable := plan.isSome && session.settings.persist.isNone
  commands := pruned ++ session.commandsOf plan

theorem converge_of_prune_error {e : Failure}
    (h : prune session.settings.dryRun session.mode session.preview w = .error e v) :
    session.converge w = .error e v := by
  simp only [converge, bind, EStateM.bind, h]

theorem converge_of_plan_none {pruned : List Command}
    (h : prune session.settings.dryRun session.mode session.preview w = .ok pruned v)
    (hplan : session.plan? v = none) :
    session.converge w = .ok (session.reportOf pruned none) { v with listed := v.listed + 1 } := by
  have hlist : (Backend.list : Action Firewall String) v = .ok v.listing { v with listed := v.listed + 1 } := rfl
  rw [plan?] at hplan
  simp only [converge, bind, EStateM.bind, h, listing, hlist, hplan, pure, EStateM.pure, reportOf, Option.isSome,
    Option.elim, Bool.false_and, commandsOf, List.append_nil]

theorem converge_of_plan_some {pruned : List Command} {plan : Plan}
    (h : prune session.settings.dryRun session.mode session.preview w = .ok pruned v)
    (hplan : session.plan? v = some plan) :
    session.converge w =
      match perform session.settings.dryRun (session.commandsOf (some plan)) { v with listed := v.listed + 1 } with
      | .error e u => .error e u
      | .ok () u => .ok (session.reportOf pruned (some plan)) u := by
  have hlist : (Backend.list : Action Firewall String) v = .ok v.listing { v with listed := v.listed + 1 } := rfl
  rw [plan?] at hplan
  simp only [converge, bind, EStateM.bind, h, listing, hlist, hplan, pure, EStateM.pure, commandsOf]
  cases perform session.settings.dryRun (plan.commands ++ session.settings.persist.toList.map .persist)
    { v with listed := v.listed + 1 } with
  | error e u => rfl
  | ok a u => rfl

theorem converge_of_placed (hdry : session.settings.dryRun = false)
    (h : prune false session.mode session.preview w = .ok (Backend.deletions targets) v)
    (hplaced : session.preview.isPlacedIn (Listing.parse true session.mode v.listing) = true) :
    session.converge w = .ok (session.pruneReport targets) { v with listed := v.listed + 1 } := by
  rw [← hdry] at h
  rw [converge_of_plan_none h (RuleSet.between_eq_none_iff.mpr hplaced)]
  simp [reportOf, commandsOf, pruneReport, hdry, Backend.deletions]

theorem length_stale (hw : v.HoldsRules) (mode : AddressMode) :
    (Listing.parse true mode v.listing).stale.length = v.size := by
  have hentries : ∀ t, ((Listing.parse true mode v.listing).entries t).length = (v.slots t).length := by
    intro t
    rw [hw.entries_numbered, List.length_map, List.length_zipIdx, length_rules]
  simp only [LiveState.stale, Firewall.size, List.length_flatMap, List.length_map, hentries]

theorem converge_of_unplaced (hdry : session.settings.dryRun = false)
    (h : prune false session.mode session.preview w = .ok (Backend.deletions targets) v) (hv : v.HoldsRules)
    (hd : session.preview.IsReadBack) (hsettled : Settled session.preview v)
    (hplaced : session.preview.isPlacedIn (Listing.parse true session.mode v.listing) = false) :
    session.converge w =
      match Backend.runAll (rebuildOf session.preview v session.settings.persist)
        { v with listed := v.listed + 1 } with
      | .error e u => .error e u
      | .ok () u => .ok (session.rebuildReport targets v) u := by
  rw [← hdry] at h
  have hplan : session.plan? v = some ⟨session.preview.all, (Listing.parse true session.mode v.listing).stale⟩ :=
    RuleSet.between_eq_some_iff.mpr ⟨hplaced, rfl⟩
  have hcommands := hsettled.commands_plan hv hd session.mode
  rw [converge_of_plan_some h hplan]
  simp [commandsOf, reportOf, rebuildReport, rebuildOf, perform, hcommands, hdry, length_stale hv, Backend.deletions,
    RuleSet.size]

theorem converge_of_prune {targets : List (Table × String)} {left : Firewall} (hdry : session.settings.dryRun = false)
    (h : prune false session.mode session.preview w = .ok (Backend.deletions targets) left) :
    session.converge w =
      match Backend.runAll (session.commandsOf (session.plan? left)) { left with listed := left.listed + 1 } with
      | .error e u => .error e u
      | .ok () u => .ok (session.reportOf (Backend.deletions targets) (session.plan? left)) u := by
  rw [← hdry] at h
  cases hplan : session.plan? left with
  | none => exact converge_of_plan_none h hplan
  | some plan =>
      rw [converge_of_plan_some h hplan, hdry]
      rfl

theorem exists_runAll_of_converge {report : Report} (hdry : session.settings.dryRun = false)
    (h : session.converge w = .ok report v) :
    ∃ targets left, Prunes session.preview session.mode w targets left ∧
      report = session.reportOf (Backend.deletions targets) (session.plan? left) ∧
      Backend.runAll (session.commandsOf (session.plan? left)) { left with listed := left.listed + 1 } = .ok () v := by
  cases hprune : prune session.settings.dryRun session.mode session.preview w with
  | error e m =>
      rw [converge_of_prune_error hprune] at h
      cases h
  | ok pruned left =>
      rw [hdry] at hprune
      obtain ⟨targets, rfl, hpasses⟩ := prunes_of_prune hprune
      rw [converge_of_prune hdry hprune] at h
      split at h
      · cases h
      · rename_i u hrun
        obtain ⟨rfl, rfl⟩ := EStateM.Result.ok.inj h
        exact ⟨targets, left, hpasses, rfl, hrun⟩

/-- A run that succeeds has pruned the live rules and then carried out its plan, if it had one. -/
theorem exists_prunes_of_converge {report : Report} (hdry : session.settings.dryRun = false)
    (h : session.converge w = .ok report v) :
    ∃ targets left, Prunes session.preview session.mode w targets left ∧
      report = session.reportOf (Backend.deletions targets) (session.plan? left) ∧
      left.Reaches (session.commandsOf (session.plan? left)) v := by
  obtain ⟨targets, left, hpasses, hreport, hrun⟩ := exists_runAll_of_converge hdry h
  exact ⟨targets, left, hpasses, hreport, reaches_of_runAll_listed hrun⟩

/-! ### Outcomes -/

/-- A run that is no dry run ends in one of four ways. -/
theorem outcome_converge (hw : w.HoldsRules) (hd : session.preview.IsReadBack)
    (hdry : session.settings.dryRun = false) : session.Outcome w (session.converge w) := by
  cases hprune : prune false session.mode session.preview w with
  | error e v =>
      obtain ⟨targets, hreach, hund, href⟩ := stopped_of_prune hw hprune
      rw [← hdry] at hprune
      rw [converge_of_prune_error hprune]
      exact .pruneRefused hund hreach href
  | ok commands v =>
      obtain ⟨targets, rfl, hpasses⟩ := prunes_of_prune hprune
      have hreach := hpasses.reaches
      have hund := hpasses.undeclared hw
      have hsettled := hpasses.settled hw
      have hv : v.HoldsRules := hw.of_sublist hreach.sublist
      by_cases hplaced : session.preview.isPlacedIn (Listing.parse true session.mode v.listing) = true
      · rw [converge_of_placed hdry hprune hplaced]
        exact .unchanged hund (hreach.listed _) hsettled ((hv.isPlacedIn_listing _ _).mp hplaced)
      · rw [Bool.not_eq_true] at hplaced
        rw [converge_of_unplaced hdry hprune hv hd hsettled hplaced]
        rcases runAll_cases (rebuildOf session.preview v session.settings.persist)
          { v with listed := v.listed + 1 } with ⟨u, hu⟩ | ⟨done, c, rest, e, u, hsplit, hdone, -, hu⟩
        · rw [hu]
          exact .rebuilt hund hreach hsettled (reaches_of_runAll_listed hu)
        · rw [hu]
          have hstop := reaches_of_runAll_listed hdone
          refine .rebuildRefused hund hreach hsettled ⟨c :: rest, hsplit.symm⟩ hstop fun hr => ?_
          obtain ⟨u', hu'⟩ := exists_runAll_rebuild hd (hreach.frame.2.trans hr) session.settings.persist
          rw [runAll_listed hu'] at hu
          cases hu

/-- If no command is refused, a run leaves the rules as they are after pruning or rebuilds them. -/
theorem converge_eq_ok (hw : w.HoldsRules) (hd : session.preview.IsReadBack)
    (hdry : session.settings.dryRun = false) (hr : w.refused = none) :
    (∃ targets v, session.converge w = .ok (session.pruneReport targets) v ∧
      w.Reaches (Backend.deletions targets) v ∧ Settled session.preview v ∧
      ∀ t, session.preview.texts t <+: (v.rules t).map listedKey) ∨
    (∃ targets left v, session.converge w = .ok (session.rebuildReport targets left) v ∧
      w.Reaches (Backend.deletions targets) left ∧ Settled session.preview left ∧
      left.Reaches (rebuildOf session.preview left session.settings.persist) v) := by
  have hout := outcome_converge hw hd hdry
  generalize hresult : session.converge w = result at hout
  cases hout with
  | pruneRefused _ _ href => exact absurd hr href
  | unchanged _ hreach hsettled hplaced => exact .inl ⟨_, _, rfl, hreach, hsettled, hplaced⟩
  | rebuilt _ hleft hsettled hreach => exact .inr ⟨_, _, _, rfl, hleft, hsettled, hreach⟩
  | rebuildRefused _ _ _ _ _ href => exact absurd hr href

theorem rules_rebuild {declared : RuleSet} {persist : Option Invocation} (hd : declared.IsReadBack)
    (h : w.Reaches (rebuildOf declared w persist) v) (t : Table) : v.rules t = declared.texts t := by
  rw [Firewall.rules, h.slots_rebuild hd, hd.inListingOrder_slots, RuleSet.slots, List.map_map]
  rfl

end PacketFilter.Session
