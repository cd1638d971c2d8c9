import Mathlib.Data.List.Perm.Subperm
import PacketFilter.Proofs.CommandRuns
import PacketFilter.Session

/-! # Pruning

A pass of the pruning deletes each surplus key once. Every deletion takes out one live rule with the arguments
of its key, and the surplus keys of a table can be matched with different rules of the table, so no deletion of
a pass fails by itself (`Firewall.exists_runAll_deletions`). Pruning that succeeds is a sequence of passes
(`Firewall.Prunes`), which ends with live rules that are all declared; it fails only at a command that is
refused (`Firewall.stopped_of_prune`). -/

namespace PacketFilter.Firewall

variable {w v : Firewall} {declared : RuleSet} {targets : List (Table × String)}

/-- Keys of live rules, each with its table, that are not declared. -/
def Undeclared (declared : RuleSet) (w : Firewall) (targets : List (Table × String)) : Prop :=
  ∀ p ∈ targets, (∃ s ∈ w.slots p.1, listedKey s.text = p.2) ∧ p.2 ∉ declared.texts p.1

/-- Every live rule is declared. -/
def Settled (declared : RuleSet) (w : Firewall) : Prop :=
  ∀ t, ∀ s ∈ w.slots t, listedKey s.text ∈ declared.texts t

/-! ### What deletions leave -/

theorem sublist_of_run_delete {t : Table} {rule : String} (h : run (.delete t rule) w = .ok () v) (t' : Table) :
    (v.slots t').Sublist (w.slots t') := by
  obtain ⟨-, u, hu, rfl⟩ := run_eq_ok.mp h
  rcases slots_of_apply hu t' with hsub | ⟨_, _, hc, -⟩
  · exact hsub
  · cases hc

theorem Reaches.sublist (h : w.Reaches (Backend.deletions targets) v) (t : Table) :
    (v.slots t).Sublist (w.slots t) := by
  induction targets generalizing w with
  | nil => rw [h.slots_of_nil]
  | cons p ps ih =>
      obtain ⟨m, hm, h⟩ := h.cons
      exact (ih h).trans (sublist_of_run_delete hm t)

theorem HoldsRules.of_sublist (hw : w.HoldsRules) (h : ∀ t, (v.slots t).Sublist (w.slots t)) : v.HoldsRules :=
  fun t s hs => hw t s ((h t).subset hs)

theorem Undeclared.of_sublist (hu : Undeclared declared v targets) (h : ∀ t, (v.slots t).Sublist (w.slots t)) :
    Undeclared declared w targets := by
  intro p hp
  obtain ⟨⟨s, hs, hk⟩, hd⟩ := hu p hp
  exact ⟨⟨s, (h p.1).subset hs, hk⟩, hd⟩

/-- Live rules that have the same arguments are listed with the same text. -/
def ListsAlike (w : Firewall) : Prop :=
  ∀ t, ∀ s ∈ w.slots t, ∀ s' ∈ w.slots t, arguments s.text = arguments s'.text →
    listedText s.text = listedText s'.text

/-- If rules with the same arguments are listed alike, a deletion takes out the rule that was meant. -/
theorem listedKey_of_arguments_eq (hw : w.HoldsRules) (ha : w.ListsAlike) {t : Table} {s : Slot}
    (hs : s ∈ w.slots t) {k : String} (hk : ∃ s' ∈ w.slots t, listedKey s'.text = k)
    (harg : arguments s.text = arguments k) : listedKey s.text = k := by
  obtain ⟨s', hs', rfl⟩ := hk
  rw [arguments_listedKey (hw t s' hs').line.readable] at harg
  rw [listedKey, listedKey, ha t s hs s' hs' harg]

theorem Reaches.filter_declared (hw : w.HoldsRules) (ha : w.ListsAlike) (hu : Undeclared declared w targets)
    {u : Firewall} (hsub : ∀ t, (u.slots t).Sublist (w.slots t))
    (h : u.Reaches (Backend.deletions targets) v) (t : Table) :
    (v.slots t).filter (fun s => (declared.texts t).contains (listedKey s.text)) =
      (u.slots t).filter fun s => (declared.texts t).contains (listedKey s.text) := by
  induction targets generalizing u with
  | nil => rw [h.slots_of_nil]
  | cons p ps ih =>
      obtain ⟨t', k⟩ := p
      obtain ⟨m, hm, h⟩ := h.cons
      rw [ih (fun q hq => hu q (List.mem_cons_of_mem _ hq))
        (fun t => (sublist_of_run_delete hm t).trans (hsub t)) h]
      obtain ⟨-, _, hu', rfl⟩ := run_eq_ok.mp hm
      obtain ⟨before, s, after, hsplit, -, hs, rfl⟩ := apply_delete_eq_ok.mp hu'
      by_cases ht : t = t'
      · subst ht
        have hmem : s ∈ w.slots t := (hsub t).subset (by simp [hsplit])
        obtain ⟨hlive, hnot⟩ := hu _ List.mem_cons_self
        have hkey := listedKey_of_arguments_eq hw ha hmem hlive hs
        rw [slots_setSlots_self, hsplit, List.filter_append, List.filter_append, List.filter_cons_of_neg]
        simpa [hkey] using hnot
      · rw [slots_setSlots_of_ne ht]

/-! ### Passes succeed -/

theorem exists_runAll_deletions (hr : w.refused = none)
    (h : ∀ t, ((targets.filter (·.1 == t)).map fun p => arguments p.2).Subperm
      ((w.slots t).map fun s => arguments s.text)) :
    ∃ v, Backend.runAll (Backend.deletions targets) w = .ok () v := by
  induction targets generalizing w with
  | nil => exact ⟨w, rfl⟩
  | cons p ps ih =>
      obtain ⟨t, k⟩ := p
      have ht := h t
      rw [List.filter_cons_of_pos (by simp), List.map_cons] at ht
      obtain ⟨s, hs, hk⟩ := List.mem_map.mp (ht.subset List.mem_cons_self)
      obtain ⟨rest, hrest⟩ := exists_eraseNth_zero (p := fun slot : Slot => arguments slot.text == arguments k)
        ⟨s, hs, beq_iff_eq.mpr hk⟩
      obtain ⟨before, x, after, hsplit, hbefore, hx, rfl⟩ := eraseNth_zero_eq_some_iff.mp hrest
      have hx' : arguments x.text = arguments k := beq_iff_eq.mp hx
      have happly : w.apply (.delete t k) = .ok (w.setSlots t (before ++ after)) := by
        refine apply_delete_eq_ok.mpr ⟨before, x, after, hsplit, fun y hy => ?_, hx', rfl⟩
        simpa using hbefore y hy
      have hrun := run_eq_ok.mpr ⟨refuses_eq_false hr (.delete t k), _, happly, rfl⟩
      have hnext : ∀ t', ((ps.filter (·.1 == t')).map fun p => arguments p.2).Subperm
          (((w.setSlots t (before ++ after)).slots t').map fun s => arguments s.text) := by
        intro t'
        by_cases ht' : t' = t
        · subst ht'
          have hperm : ((w.slots t').map fun s => arguments s.text).Perm
              (arguments k :: (before ++ after).map fun s => arguments s.text) := by
            rw [hsplit, ← hx']
            exact List.perm_middle.map fun s : Slot => arguments s.text
          rw [hperm.subperm_left, List.subperm_cons] at ht
          rwa [slots_setSlots_self]
        · have := h t'
          rw [List.filter_cons_of_neg (by simpa using Ne.symm ht')] at this
          rwa [slots_setSlots_of_ne ht']
      obtain ⟨v, hv⟩ := ih (w := { w.setSlots t (before ++ after) with log := w.log ++ [.delete t k] }) hr hnext
      exact ⟨v, Backend.runAll_cons_eq_ok.mpr ⟨_, hrun, hv⟩⟩

theorem HoldsRules.subperm_surplus (hw : w.HoldsRules) (mode : AddressMode) (declared : RuleSet) (t : Table) :
    (((surplus declared (Listing.parse false mode w.listing)).filter (·.1 == t)).map
      fun p => arguments p.2).Subperm ((w.slots t).map fun s => arguments s.text) := by
  have hsub := ((hw.surplus_sublist mode declared t).map arguments).subperm
  have hkeys : ((w.rules t).map listedKey).map arguments = (w.rules t).map arguments := by
    rw [List.map_map]
    exact List.map_congr_left fun text h => arguments_listedKey (hw.isRuleLine h).readable
  rw [List.map_map, hkeys] at hsub
  have hperm := (w.rules_perm t).map arguments
  rw [List.map_map] at hperm
  exact hsub.trans hperm.subperm

/-! ### The whole pruning -/

section prune
variable {mode : AddressMode}

/-- The rules that a pass deletes. -/
def passTargets (declared : RuleSet) (mode : AddressMode) (w : Firewall) : List (Table × String) :=
  surplus declared (Listing.parse false mode w.listing)

theorem HoldsRules.undeclared_passTargets (hw : w.HoldsRules) (declared : RuleSet) (mode : AddressMode) :
    Undeclared declared w (passTargets declared mode w) :=
  fun _ hp => hw.mem_surplus.mp hp

theorem prune_of_settled (h : passTargets declared mode w = []) :
    Session.prune false mode declared w = .ok [] { w with listed := w.listed + 1 } := by
  rw [Session.prune.eq_1]
  split
  · rename_i e s₁ hl
    cases hl
  · rename_i raw s₁ hl
    cases hl
    exact dif_pos h

theorem prune_dryRun (declared : RuleSet) (mode : AddressMode) (w : Firewall) :
    Session.prune true mode declared w =
      .ok (Backend.deletions (passTargets declared mode w)) { w with listed := w.listed + 1 } := by
  rw [Session.prune.eq_1]
  split
  · rename_i e s₁ hl
    cases hl
  · rename_i raw s₁ hl
    cases hl
    by_cases hs : passTargets declared mode w = []
    · rw [hs]
      exact dif_pos hs
    · exact (dif_neg hs).trans (if_pos rfl)

theorem prune_of_surplus (h : passTargets declared mode w ≠ []) :
    Session.prune false mode declared w =
      match Backend.runAll (Backend.deletions (passTargets declared mode w)) { w with listed := w.listed + 1 } with
      | .error e v => .error e v
      | .ok () v =>
        match Session.prune false mode declared v with
        | .error e u => .error e u
        | .ok more u => .ok (Backend.deletions (passTargets declared mode w) ++ more) u := by
  rw [Session.prune.eq_1]
  split
  · rename_i e s₁ hl
    cases hl
  · rename_i raw s₁ hl
    cases hl
    refine (dif_neg h).trans ((if_neg Bool.false_ne_true).trans ?_)
    split
    · rename_i e s₂ hrun
      rw [show Backend.runAll (Backend.deletions (passTargets declared mode w)) _ = _ from hrun]
    · rename_i s₂ hrun
      rw [show Backend.runAll (Backend.deletions (passTargets declared mode w)) _ = _ from hrun]
      dsimp only
      cases Session.prune false mode declared s₂ <;> rfl

theorem deletions_append (ps qs : List (Table × String)) :
    Backend.deletions ps ++ Backend.deletions qs = Backend.deletions (ps ++ qs) :=
  (List.map_append ..).symm

theorem exists_take_deletions {done rest : List Command} (h : Backend.deletions targets = done ++ rest) :
    ∃ ps qs, targets = ps ++ qs ∧ done = Backend.deletions ps := by
  obtain ⟨ps, qs, hsplit, hps, -⟩ := List.map_eq_append_iff.mp h
  exact ⟨ps, qs, hsplit, hps.symm⟩

/-- A pass deletes all of its targets, or it stops behind a first part of them at a command that is refused. -/
theorem pass_cases (hw : w.HoldsRules) (declared : RuleSet) (mode : AddressMode) :
    (∃ v, Backend.runAll (Backend.deletions (passTargets declared mode w)) { w with listed := w.listed + 1 } =
        .ok () v ∧ w.Reaches (Backend.deletions (passTargets declared mode w)) v) ∨
      ∃ targets e v, Backend.runAll (Backend.deletions (passTargets declared mode w))
        { w with listed := w.listed + 1 } = .error e v ∧ w.Reaches (Backend.deletions targets) v ∧
        Undeclared declared w targets ∧ w.refused ≠ none := by
  rcases runAll_cases (Backend.deletions (passTargets declared mode w)) { w with listed := w.listed + 1 } with
    ⟨v, hpass⟩ | ⟨done, c, rest, e, v, hsplit, hdone, -, hpass⟩
  · exact .inl ⟨v, hpass, reaches_of_runAll_listed hpass⟩
  · obtain ⟨ps, qs, htargets, rfl⟩ := exists_take_deletions hsplit
    refine .inr ⟨ps, e, v, hpass, reaches_of_runAll_listed hdone, fun p hp => ?_, fun href => ?_⟩
    · exact hw.undeclared_passTargets declared mode p (htargets ▸ List.mem_append_left qs hp)
    · obtain ⟨u, hu⟩ := exists_runAll_deletions href (hw.subperm_surplus mode declared)
      rw [passTargets, runAll_listed hu] at hpass
      cases hpass

theorem size_pass_lt (h : passTargets declared mode w ≠ [])
    (hpass : Backend.runAll (Backend.deletions (passTargets declared mode w)) { w with listed := w.listed + 1 } =
      .ok () v) : v.size < w.size := by
  have hlist : Backend.list w = .ok w.listing { w with listed := w.listed + 1 } := rfl
  exact Backend.rank_runAll_lt (fun _ => appends_of_mem_surplus) hlist h hpass

/-- From the live rules of a firewall, passes delete the targets one after the other and leave another firewall. The
last pass finds nothing to delete. -/
inductive Prunes (declared : RuleSet) (mode : AddressMode) : Firewall → List (Table × String) → Firewall → Prop
  | done {w : Firewall} :
    passTargets declared mode w = [] → Prunes declared mode w [] { w with listed := w.listed + 1 }
  | pass {w v u : Firewall} {more : List (Table × String)} :
    passTargets declared mode w ≠ [] →
    Backend.runAll (Backend.deletions (passTargets declared mode w)) { w with listed := w.listed + 1 } = .ok () v →
    Prunes declared mode v more u → Prunes declared mode w (passTargets declared mode w ++ more) u

/-- Pruning that succeeds is a sequence of passes. -/
theorem prunes_of_prune {commands : List Command} (h : Session.prune false mode declared w = .ok commands v) :
    ∃ targets, commands = Backend.deletions targets ∧ Prunes declared mode w targets v := by
  induction hn : w.size using Nat.strongRecOn generalizing w commands with
  | ind n ih =>
      by_cases hs : passTargets declared mode w = []
      · rw [prune_of_settled hs] at h
        obtain ⟨rfl, rfl⟩ := EStateM.Result.ok.inj h
        exact ⟨[], rfl, .done hs⟩
      · rw [prune_of_surplus hs] at h
        split at h
        · cases h
        · rename_i m hpass
          split at h
          · cases h
          · rename_i more u hmore
            obtain ⟨rfl, rfl⟩ := EStateM.Result.ok.inj h
            obtain ⟨later, rfl, hlater⟩ := ih m.size (hn ▸ size_pass_lt hs hpass) hmore rfl
            exact ⟨_, deletions_append _ _, .pass hs hpass hlater⟩

theorem Prunes.reaches (h : Prunes declared mode w targets v) : w.Reaches (Backend.deletions targets) v := by
  induction h with
  | @done w _ => exact Reaches.refl w _
  | pass _ hpass _ ih =>
      rw [← deletions_append]
      exact (reaches_of_runAll_listed hpass).trans ih

/-- Every target of every pass is the key of a rule that was live from the start and is not declared. -/
theorem Prunes.undeclared (hw : w.HoldsRules) (h : Prunes declared mode w targets v) :
    Undeclared declared w targets := by
  induction h with
  | done _ => exact fun p hp => absurd hp List.not_mem_nil
  | pass _ hpass _ ih =>
      have hsub := (reaches_of_runAll_listed hpass).sublist
      exact List.forall_mem_append.mpr
        ⟨hw.undeclared_passTargets declared _, (ih (hw.of_sublist hsub)).of_sublist hsub⟩

theorem Prunes.settled (hw : w.HoldsRules) (h : Prunes declared mode w targets v) : Settled declared v := by
  induction h with
  | done h => exact hw.surplus_eq_nil_iff.mp h
  | pass _ hpass _ ih => exact ih (hw.of_sublist (reaches_of_runAll_listed hpass).sublist)

/-- Pruning that fails has deleted rules that are not declared, up to a command that was refused. -/
theorem stopped_of_prune {e : Failure} (hw : w.HoldsRules)
    (h : Session.prune false mode declared w = .error e v) :
    ∃ targets, w.Reaches (Backend.deletions targets) v ∧ Undeclared declared w targets ∧ w.refused ≠ none := by
  induction hn : w.size using Nat.strongRecOn generalizing w with
  | ind n ih =>
      by_cases hs : passTargets declared mode w = []
      · rw [prune_of_settled hs] at h
        cases h
      · rw [prune_of_surplus hs] at h
        rcases pass_cases hw declared mode with ⟨m, hpass, hreach⟩ | ⟨targets, e', m, hpass, hstop⟩
        · rw [hpass] at h
          dsimp only at h
          split at h
          · -- the pass has deleted something, so the induction hypothesis is about what it has left
            rename_i e' u hmore
            obtain ⟨rfl, rfl⟩ := EStateM.Result.error.inj h
            have hsub := hreach.sublist
            obtain ⟨more, hreach', hund, href⟩ :=
              ih m.size (hn ▸ size_pass_lt hs hpass) (hw.of_sublist hsub) hmore rfl
            refine ⟨passTargets declared mode w ++ more, ?_, ?_, hreach.frame.2 ▸ href⟩
            · rw [← deletions_append]
              exact hreach.trans hreach'
            · exact List.forall_mem_append.mpr
                ⟨hw.undeclared_passTargets declared mode, hund.of_sublist hsub⟩
          · cases h
        · rw [hpass] at h
          obtain ⟨rfl, rfl⟩ := EStateM.Result.error.inj h
          exact ⟨targets, hstop⟩

/-- Pruning rules that can be listed succeeds if no command is refused. -/
theorem exists_prunes (hw : w.HoldsRules) (hr : w.refused = none) (declared : RuleSet) (mode : AddressMode) :
    ∃ targets v, Session.prune false mode declared w = .ok (Backend.deletions targets) v ∧
      Prunes declared mode w targets v := by
  cases hprune : Session.prune false mode declared w with
  | ok commands v =>
      obtain ⟨targets, rfl, hpasses⟩ := prunes_of_prune hprune
      exact ⟨targets, v, rfl, hpasses⟩
  | error e v =>
      obtain ⟨_, -, -, href⟩ := stopped_of_prune hw hprune
      exact absurd hr href

end prune

end PacketFilter.Firewall
