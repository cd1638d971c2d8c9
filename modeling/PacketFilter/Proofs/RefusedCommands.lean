import PacketFilter.Proofs.Forecast

/-! # Runs with refused commands

A firewall that refuses the commands which hold a piece of text behaves like one that refuses none up to the first
such command, and there the run ends (`Firewall.runAll_refusing`, `Firewall.runAll_refusing_of_split`). What a run is
going to do depends on the live rules only, so this goes for its passes of pruning (`Firewall.Prunes.refusing`) as for
the commands of its plan, and with that for the whole run: it carries out the same commands, one after the other, and
stops in front of the first that is refused (`Session.converge_refusing`). The report of a run that succeeds lists its
commands and counts them by their kinds (`Session.IsAccount`). -/

namespace PacketFilter

def Command.appendsRule : Command → Bool
  | .append _ _ => true
  | _ => false

/-- Whether a command deletes a rule by its position. -/
def Command.deletesByPosition : Command → Bool
  | .deleteAt _ _ _ => true
  | _ => false

theorem append_eq_append_cons {α : Type} {xs ys done rest : List α} {c : α} (h : xs ++ ys = done ++ c :: rest) :
    (∃ rest', xs = done ++ c :: rest' ∧ rest = rest' ++ ys) ∨
      ∃ done', done = xs ++ done' ∧ ys = done' ++ c :: rest := by
  rcases List.append_eq_append_iff.mp h with ⟨done', hdone, hys⟩ | ⟨tail, hxs, htail⟩
  · exact .inr ⟨done', hdone, hys⟩
  · cases tail with
    | nil => exact .inr ⟨[], by rw [hxs, List.append_nil, List.append_nil], htail.symm⟩
    | cons d tail =>
        obtain ⟨rfl, rfl⟩ := List.cons.inj htail
        exact .inl ⟨tail, hxs, rfl⟩

namespace Firewall

variable {w v : Firewall} {c : Command} {cs done rest : List Command} {piece : String}

/-- The same live rules, where the commands that hold a piece of text are refused, if one is given. -/
def refusing (w : Firewall) (piece : Option String) : Firewall :=
  { w with refused := piece }

theorem refusing_none (h : w.refused = none) : w.refusing none = w := by
  rw [refusing, ← h]

def refusal (c : Command) : Failure :=
  failed c "iptables: simulated failure."

/-! ### Commands -/

theorem apply_refusing (w : Firewall) (piece : Option String) (c : Command) :
    (w.refusing piece).apply c = (w.apply c).map (·.refusing piece) := by
  cases c with
  | append t rule =>
      rw [apply, apply]
      cases appendedChain? rule <;> rfl
  | delete t rule =>
      rw [apply, apply, show (w.refusing piece).slots = w.slots from rfl]
      cases eraseNth (fun slot => arguments slot.text == arguments rule) 0 (w.slots t) <;> rfl
  | deleteAt t chain position =>
      rw [apply, apply, show (w.refusing piece).slots = w.slots from rfl]
      cases eraseNth (fun slot => slot.chain == chain) (position - 1) (w.slots t) <;> rfl
  | persist call => rfl

theorem run_refusing (h : run c w = .ok () v) (hc : Text.contains piece c.text = false) :
    run c (w.refusing (some piece)) = .ok () (v.refusing (some piece)) := by
  obtain ⟨-, u, hu, rfl⟩ := run_eq_ok.mp h
  refine run_eq_ok.mpr ⟨hc, u.refusing (some piece), ?_, rfl⟩
  rw [apply_refusing, hu]
  rfl

theorem run_refusing_of_contains (w : Firewall) (hc : Text.contains piece c.text = true) :
    run c (w.refusing (some piece)) = .error (refusal c) (w.refusing (some piece)) := by
  rw [run]
  exact if_pos hc

/-- Commands of which none is refused are carried out as if none could be. -/
theorem runAll_refusing (h : Backend.runAll cs w = .ok () v) (hcs : ∀ c ∈ cs, Text.contains piece c.text = false) :
    Backend.runAll cs (w.refusing (some piece)) = .ok () (v.refusing (some piece)) := by
  induction cs generalizing w with
  | nil =>
      obtain ⟨-, rfl⟩ := EStateM.Result.ok.inj h
      rfl
  | cons c cs ih =>
      obtain ⟨m, hm, hrest⟩ := Backend.runAll_cons_eq_ok.mp h
      have hrun := run_refusing hm (hcs c List.mem_cons_self)
      exact Backend.runAll_cons_eq_ok.mpr ⟨_, hrun, ih hrest fun d hd => hcs d (List.mem_cons_of_mem _ hd)⟩

/-- A run stops in front of the first command that is refused. -/
theorem runAll_refusing_of_split (h : Backend.runAll done w = .ok () v)
    (hdone : ∀ d ∈ done, Text.contains piece d.text = false) (hc : Text.contains piece c.text = true)
    (rest : List Command) :
    Backend.runAll (done ++ c :: rest) (w.refusing (some piece)) =
      .error (refusal c) (v.refusing (some piece)) := by
  induction done generalizing w with
  | nil =>
      obtain ⟨-, rfl⟩ := EStateM.Result.ok.inj h
      exact Backend.runAll_cons_eq_error.mpr (.inl (run_refusing_of_contains w hc))
  | cons d done ih =>
      obtain ⟨m, hm, hrest⟩ := Backend.runAll_cons_eq_ok.mp h
      have hrun := run_refusing hm (hdone d List.mem_cons_self)
      have hstop := ih hrest fun e he => hdone e (List.mem_cons_of_mem _ he)
      exact Backend.runAll_cons_eq_error.mpr (.inr ⟨_, hrun, hstop⟩)

/-! ### Pruning -/

section prune
variable {declared : RuleSet} {mode : AddressMode} {targets : List (Table × String)}

theorem passTargets_refusing (declared : RuleSet) (mode : AddressMode) (w : Firewall) (piece : Option String) :
    passTargets declared mode (w.refusing piece) = passTargets declared mode w :=
  rfl

theorem runAll_passTargets {result : EStateM.Result Failure Firewall Unit}
    (h : Backend.runAll (Backend.deletions (passTargets declared mode w))
      (Firewall.refusing { w with listed := w.listed + 1 } (some piece)) = result) :
    Backend.runAll (Backend.deletions (passTargets declared mode (w.refusing (some piece))))
      { w.refusing (some piece) with listed := (w.refusing (some piece)).listed + 1 } = result := by
  rw [passTargets_refusing]
  exact h

/-- Pruning of which no deletion is refused goes on to its end. -/
theorem Prunes.refusing (h : Prunes declared mode w targets v)
    (hcs : ∀ c ∈ Backend.deletions targets, Text.contains piece c.text = false) :
    Session.prune false mode declared (w.refusing (some piece)) =
      .ok (Backend.deletions targets) (v.refusing (some piece)) := by
  induction h with
  | done hs => exact prune_of_settled hs
  | @pass w m v more hs hpass _ ih =>
      rw [← deletions_append, List.forall_mem_append] at hcs
      have hpass' := runAll_passTargets (runAll_refusing hpass hcs.1)
      rw [← passTargets_refusing declared mode w (some piece)] at hs
      rw [prune_of_surplus hs, hpass']
      dsimp only
      rw [ih hcs.2, ← deletions_append, passTargets_refusing]

/-- Pruning stops in front of the first deletion that is refused, in whichever pass that is. -/
theorem Prunes.refusing_of_split (h : Prunes declared mode w targets v)
    (hsplit : Backend.deletions targets = done ++ c :: rest)
    (hdone : ∀ d ∈ done, Text.contains piece d.text = false) (hc : Text.contains piece c.text = true) :
    ∃ u, Session.prune false mode declared (w.refusing (some piece)) =
        .error (refusal c) (u.refusing (some piece)) ∧ w.Reaches done u := by
  induction h generalizing done with
  | done _ => exact absurd hsplit.symm (by simp [Backend.deletions])
  | @pass w m v more hs hpass _ ih =>
      rw [← deletions_append] at hsplit
      rcases append_eq_append_cons hsplit with ⟨rest', hfirst, -⟩ | ⟨done', hstart, hlater⟩
      · -- the command belongs to this pass
        rw [hfirst] at hpass
        obtain ⟨u, hu, -⟩ := runAll_append_eq_ok.mp hpass
        have hstop := runAll_refusing_of_split hu hdone hc rest'
        rw [← hfirst] at hstop
        refine ⟨u, ?_, reaches_of_runAll_listed hu⟩
        rw [← passTargets_refusing declared mode w (some piece)] at hs
        rw [prune_of_surplus hs, runAll_passTargets hstop]
      · -- this pass is carried out, and the command belongs to a later one
        rw [hstart, List.forall_mem_append] at hdone
        rw [hstart]
        obtain ⟨u, hprune, hreach⟩ := ih hlater hdone.2
        have hpass' := runAll_passTargets (runAll_refusing hpass hdone.1)
        refine ⟨u, ?_, (reaches_of_runAll_listed hpass).trans hreach⟩
        rw [← passTargets_refusing declared mode w (some piece)] at hs
        rw [prune_of_surplus hs, hpass']
        dsimp only
        rw [hprune]

end prune

end Firewall

namespace Session

open Firewall

variable {session : Session} {w v : Firewall} {report : Report}

/-! ### Whole runs -/

/-- A report accounts for its commands. They are deletions by text and, if rules have changed, an append for every
declared rule in its order, deletions at position 1, and what saves the result; the counts are those of the commands of
each kind. -/
structure IsAccount (session : Session) (report : Report) : Prop where
  shape : ∃ pruned flushed, report.commands = Backend.deletions pruned ++
    if report.changed then
      appendsOf session.preview.every ++ flushesOf flushed ++ session.settings.persist.toList.map .persist
    else []
  pruned : report.pruned = report.commands.countP Command.deletesByText
  added : report.added = report.commands.countP Command.appendsRule
  deleted : report.deleted = report.commands.countP Command.deletesByPosition

theorem countP_map_kind {α : Type} (f : α → Command) (kind : Command → Bool) (b : Bool) (h : ∀ a, kind (f a) = b)
    (as : List α) : (as.map f).countP kind = if b then as.length else 0 := by
  rw [List.countP_map, List.countP_congr fun a _ => by rw [Function.comp_apply, h]]
  cases b <;> simp

/-- The report of pruned rules and a plan accounts for its commands, if the plan appends the declared rules. -/
theorem isAccount_reportOf {targets : List (Table × String)} {plan? : Option Plan}
    (hplan : ∀ plan, plan? = some plan → plan.toAdd = session.preview.all) :
    session.IsAccount (session.reportOf (Backend.deletions targets) plan?) := by
  have hpruned : ∀ kind b, (∀ t rule, kind (.delete t rule) = b) →
      (Backend.deletions targets).countP kind = if b then targets.length else 0 := by
    intro kind b h
    rw [Backend.deletions, countP_map_kind _ kind b fun _ => h _ _]
  cases plan? with
  | none =>
      have hcommands : (session.reportOf (Backend.deletions targets) none).commands = Backend.deletions targets :=
        List.append_nil _
      refine ⟨⟨targets, [], rfl⟩, ?_, ?_, ?_⟩
      · rw [hcommands, hpruned _ true fun _ _ => rfl]
        exact List.length_map _
      · rw [hcommands, hpruned _ false fun _ _ => rfl]
        rfl
      · rw [hcommands, hpruned _ false fun _ _ => rfl]
        rfl
  | some plan =>
      have hcommands : (session.reportOf (Backend.deletions targets) (some plan)).commands =
          Backend.deletions targets ++ (plan.commands ++ session.settings.persist.toList.map .persist) :=
        rfl
      have hkinds : ∀ (kind : Command → Bool) (added deleted : Bool), (∀ t rule, kind (.append t rule) = added) →
          (∀ t chain position, kind (.deleteAt t chain position) = deleted) → (∀ call, kind (.persist call) = false) →
          (plan.commands ++ session.settings.persist.toList.map Command.persist).countP kind =
            (if added then plan.toAdd.length else 0) + if deleted then plan.toDelete.length else 0 := by
        intro kind added deleted hadd hdelete hsave
        rw [Plan.commands, List.countP_append, List.countP_append, countP_map_kind _ kind added fun _ => hadd _ _,
          countP_map_kind _ kind deleted fun _ => hdelete _ _ _, countP_map_kind _ kind false hsave]
        rfl
      refine ⟨⟨targets, plan.toDelete.map fun old => (old.table, old.chain), ?_⟩, ?_, ?_, ?_⟩
      · rw [hcommands, commands_of_toAdd (hplan plan rfl)]
        rfl
      · rw [hcommands, List.countP_append, hpruned _ true fun _ _ => rfl,
          hkinds _ false false (fun _ _ => rfl) (fun _ _ _ => rfl) fun _ => rfl]
        exact List.length_map _
      · rw [hcommands, List.countP_append, hpruned _ false fun _ _ => rfl,
          hkinds _ true false (fun _ _ => rfl) (fun _ _ _ => rfl) fun _ => rfl]
        exact (Nat.zero_add _).symm
      · rw [hcommands, List.countP_append, hpruned _ false fun _ _ => rfl,
          hkinds _ false true (fun _ _ => rfl) (fun _ _ _ => rfl) fun _ => rfl]
        simp [reportOf]

/-- A run in which no command is refused accounts for its commands in its report, and they are what it adds to the log.
Where the commands that hold a piece of text are refused, the run is the same if there is none among its commands.
Otherwise it ends with the failure of the first one, when it has carried out those before it and nothing else. -/
theorem converge_refusing (hdry : session.settings.dryRun = false)
    (h : session.converge (w.refusing none) = .ok report v) :
    session.IsAccount report ∧ v.log = w.log ++ report.commands ∧
      ∀ piece,
        ((∀ c ∈ report.commands, Text.contains piece c.text = false) →
          session.converge (w.refusing (some piece)) = .ok report (v.refusing (some piece))) ∧
        ∀ done c rest, report.commands = done ++ c :: rest → (∀ d ∈ done, Text.contains piece d.text = false) →
          Text.contains piece c.text = true →
            ∃ u, session.converge (w.refusing (some piece)) = .error (refusal c) (u.refusing (some piece)) ∧
              (w.refusing none).Reaches done u ∧ u.log = w.log ++ done := by
  obtain ⟨targets, left, hpasses, rfl, hrun⟩ := exists_runAll_of_converge hdry h
  have hlog := (hpasses.reaches.trans (reaches_of_runAll_listed hrun)).frame.1
  refine ⟨isAccount_reportOf fun p hp => ?_, hlog, fun piece => ⟨fun hcs => ?_, fun done c rest hsplit hdone hc => ?_⟩⟩
  · rw [(RuleSet.between_eq_some_iff.mp hp).2]
  · rw [reportOf, List.forall_mem_append] at hcs
    have hrest : Backend.runAll (session.commandsOf (session.plan? (left.refusing (some piece))))
        { left.refusing (some piece) with listed := (left.refusing (some piece)).listed + 1 } =
          .ok () (v.refusing (some piece)) :=
      runAll_refusing hrun hcs.2
    have hprune : prune false session.mode session.preview (w.refusing (some piece)) = _ := hpasses.refusing hcs.1
    rw [converge_of_prune hdry hprune, hrest]
    rfl
  · rcases append_eq_append_cons hsplit with ⟨rest', hpruned, -⟩ | ⟨done', hstart, hplanned⟩
    · -- the command is one of the pruning
      obtain ⟨u, hprune, hreach⟩ := hpasses.refusing_of_split hpruned hdone hc
      rw [← hdry] at hprune
      exact ⟨u, converge_of_prune_error hprune, hreach, hreach.frame.1⟩
    · -- the command is one of the plan
      rw [hstart, List.forall_mem_append] at hdone
      rw [hplanned] at hrun
      obtain ⟨u, hu, -⟩ := runAll_append_eq_ok.mp hrun
      have hstop := runAll_refusing_of_split hu hdone.2 hc rest
      have hreach := hpasses.reaches.trans (reaches_of_runAll_listed hu)
      refine ⟨u, ?_, hstart ▸ hreach, hstart ▸ hreach.frame.1⟩
      rw [← hplanned] at hstop
      have hrest : Backend.runAll (session.commandsOf (session.plan? (left.refusing (some piece))))
          { left.refusing (some piece) with listed := (left.refusing (some piece)).listed + 1 } =
            .error (refusal c) (u.refusing (some piece)) :=
        hstop
      have hprune : prune false session.mode session.preview (w.refusing (some piece)) = _ :=
        hpasses.refusing hdone.1
      rw [converge_of_prune hdry hprune, hrest]

theorem appendsOf_every {declared : RuleSet} (hd : declared.IsReadBack) :
    appendsOf declared.every = Table.all.flatMap fun t => (declared.texts t).map (.append t) := by
  rw [appendsOf, RuleSet.every, List.map_flatMap]
  congr 1
  funext t
  rw [RuleSet.texts, List.map_map]
  exact List.map_congr_left fun r hr => by rw [Function.comp_apply, hd.table t r hr]

theorem appendsOf_sampleSpecs (persist : Option Invocation) :
    appendsOf (ofSpecs .literal .cidr persist sampleSpecs).preview.every =
      [.append .filter sshText, .append .mangle seenText] := by
  rw [appendsOf_every (isReadBack_of_parse parse_sampleManifest), preview_ofSpecs]
  simp [Table.all, texts_sampleSpecs]

theorem commands_sample {left : Firewall} {targets : List (Table × String)}
    (hpasses : Prunes (ofSpecs .literal .cidr (some sampleCall) sampleSpecs).preview .cidr (ofListing sampleListing)
      targets left)
    (hchanged : ((ofSpecs .literal .cidr (some sampleCall) sampleSpecs).plan? left).isSome = true) :
    (∀ p ∈ targets, p = (.filter, "-A INPUT -j DROP")) ∧
      ∃ rest, (ofSpecs .literal .cidr (some sampleCall) sampleSpecs).commandsOf
        ((ofSpecs .literal .cidr (some sampleCall) sampleSpecs).plan? left) =
          .append .filter sshText :: .append .mangle seenText :: rest := by
  have hkeys : listedKey sshText = sshText ∧ listedKey "-A INPUT -j DROP" = "-A INPUT -j DROP" := by
    decide +kernel
  constructor
  · rintro ⟨t, rule⟩ hp
    obtain ⟨⟨s, hs, rfl⟩, hundeclared⟩ := hpasses.undeclared (holdsRules_ofListing sampleListing) _ hp
    rw [preview_ofSpecs, texts_sampleSpecs] at hundeclared
    rw [slots_sampleListing] at hs
    by_cases ht : t = .filter
    · subst ht
      rw [if_pos rfl, List.mem_cons, List.mem_singleton] at hs
      rcases hs with rfl | rfl
      · rw [hkeys.2]
      · exact absurd (List.mem_singleton.mpr hkeys.1) hundeclared
    · rw [if_neg ht] at hs
      cases hs
  · obtain ⟨plan, hplan⟩ := Option.isSome_iff_exists.mp hchanged
    have hadd := congrArg Plan.toAdd (RuleSet.between_eq_some_iff.mp hplan).2
    rw [hplan, commandsOf, commands_of_toAdd hadd, appendsOf_sampleSpecs]
    exact ⟨_, rfl⟩

/-- If the second rule of the sample is refused, its run still deletes the rule that is not declared and appends the
first rule of the sample, and nothing else. -/
theorem converge_refusing_sample :
    (ofSpecs .literal .cidr (some sampleCall) sampleSpecs).settings.dryRun = false ∧ ∃ report v,
      (ofSpecs .literal .cidr (some sampleCall) sampleSpecs).converge ((ofListing sampleListing).refusing none) =
        .ok report v ∧
      ∃ targets, ∃ u : Firewall, (∀ p ∈ targets, p = (.filter, "-A INPUT -j DROP")) ∧
        (ofSpecs .literal .cidr (some sampleCall) sampleSpecs).converge
          ((ofListing sampleListing).refusing (some "--log-level")) =
            .error (refusal (.append .mangle seenText)) (u.refusing (some "--log-level")) ∧
        u.log = Backend.deletions targets ++ [.append .filter sshText] := by
  have hdry : (ofSpecs .literal .cidr (some sampleCall) sampleSpecs).settings.dryRun = false := dryRun_ofSpecs
  obtain ⟨report, v, hok, hchanged⟩ := changed_sample (some sampleCall)
  obtain ⟨targets, left, hpasses, hreport, -⟩ := exists_prunes_of_converge hdry hok
  obtain ⟨htargets, rest, hplanned⟩ := commands_sample hpasses (by rw [hreport] at hchanged; exact hchanged)
  have hsplit : report.commands =
      (Backend.deletions targets ++ [.append .filter sshText]) ++ .append .mangle seenText :: rest := by
    rw [hreport, List.append_assoc]
    exact congrArg _ hplanned
  have hrefused : Text.contains "--log-level" (Command.append .mangle seenText).text = true ∧
      Text.contains "--log-level" (Command.append .filter sshText).text = false ∧
      Text.contains "--log-level" (Command.delete .filter "-A INPUT -j DROP").text = false := by
    decide +kernel
  have hdone : ∀ d ∈ Backend.deletions targets ++ [.append .filter sshText],
      Text.contains "--log-level" d.text = false := by
    intro d hd
    rcases List.mem_append.mp hd with hd | hd
    · obtain ⟨p, hp, rfl⟩ := List.mem_map.mp hd
      rw [htargets p hp]
      exact hrefused.2.2
    · rw [List.mem_singleton.mp hd]
      exact hrefused.2.1
  rw [← refusing_none (show (ofListing sampleListing).refused = none from rfl)] at hok
  obtain ⟨-, -, hruns⟩ := converge_refusing hdry hok
  obtain ⟨u, hstop, -, hlog⟩ := (hruns "--log-level").2 _ _ _ hsplit hdone hrefused.1
  exact ⟨hdry, report, v, hok, targets, u, htargets, hstop, hlog⟩

end Session

end PacketFilter
