import PacketFilter.Proofs.Convergence

/-! # Declared rules stay live

Pruning deletes the rules that it means to delete, so it leaves every declared rule, and rebuilding appends all
declared rules before it deletes anything. A declared rule that is live before a run is therefore live after each
command of the run (`Session.converge_keeps_declared`), also if the run is ended by a command that is refused. -/

namespace PacketFilter

namespace Firewall

variable {w v u : Firewall} {declared : RuleSet}

/-- The firewall of a listing, which refuses all commands that hold a piece of text. -/
def seeded (raw : String) (needle : Option String) : Firewall :=
  { ofListing raw with refused := needle }

theorem seeded_none (raw : String) : seeded raw none = ofListing raw :=
  rfl

theorem slots_seeded (raw : String) (needle : Option String) : (seeded raw needle).slots = (ofListing raw).slots :=
  rfl

theorem holdsRules_seeded (raw : String) (needle : Option String) : (seeded raw needle).HoldsRules :=
  holdsRules_ofListing raw

/-- Declared texts that are keys of live rules before are keys of live rules afterwards. -/
def KeepsDeclared (declared : RuleSet) (w v : Firewall) : Prop :=
  ∀ t, ∀ k ∈ declared.texts t, (∃ s ∈ w.slots t, listedKey s.text = k) → ∃ s ∈ v.slots t, listedKey s.text = k

theorem KeepsDeclared.trans (h : KeepsDeclared declared w v) (h' : KeepsDeclared declared v u) :
    KeepsDeclared declared w u :=
  fun t k hk hs => h' t k hk (h t k hk hs)

theorem Reaches.keepsDeclared_deletions (hw : w.HoldsRules) (ha : w.ListsAlike)
    {targets : List (Table × String)} (hu : Undeclared declared w targets)
    (h : w.Reaches (Backend.deletions targets) v) : KeepsDeclared declared w v := by
  rintro t k hk ⟨s, hs, rfl⟩
  have hfilter := h.filter_declared hw ha hu (fun t => List.Sublist.refl _) t
  have hmem : s ∈ (w.slots t).filter fun s => (declared.texts t).contains (listedKey s.text) :=
    List.mem_filter.mpr ⟨hs, List.contains_iff_mem.mpr hk⟩
  rw [← hfilter] at hmem
  exact ⟨s, (List.mem_filter.mp hmem).1, rfl⟩

/-- While rules are rebuilt the declared ones that were live are kept, or all declared ones are live. -/
theorem Reaches.keepsDeclared_rebuild (hw : w.HoldsRules) (hd : declared.IsReadBack)
    {persist : Option Invocation} {done : List Command} (hdone : done <+: rebuildOf declared w persist)
    (h : w.Reaches done v) : KeepsDeclared declared w v := by
  rintro t k hk ⟨s, hs, hkey⟩
  rcases h.old_or_new hd hdone with hold | hnew
  · exact ⟨s, (hold t).subset hs, hkey⟩
  · obtain ⟨r, hr, rfl⟩ := List.mem_map.mp hk
    refine ⟨r.slot, (hnew t).subset (List.mem_map_of_mem hr), ?_⟩
    -- the text is a key already, so it is listed under itself
    calc listedKey r.text = listedKey (listedKey s.text) := by rw [hkey]
      _ = listedKey s.text := listedKey_listedKey (hw t s hs).line.readable
      _ = r.text := hkey

/-- A run that deletes undeclared rules and then begins to rebuild keeps the declared rules all the time. -/
theorem Reaches.keepsDeclared (hw : w.HoldsRules) (ha : w.ListsAlike) (hd : declared.IsReadBack)
    {targets : List (Table × String)} {persist : Option Invocation} {more done : List Command} {left : Firewall}
    (hu : Undeclared declared w targets) (hleft : w.Reaches (Backend.deletions targets) left)
    (hmore : more <+: rebuildOf declared left persist) (hdone : done <+: Backend.deletions targets ++ more)
    (h : w.Reaches done v) : KeepsDeclared declared w v := by
  obtain ⟨rest, hsplit⟩ := hdone
  rcases List.append_eq_append_iff.mp hsplit with ⟨later, hdel, -⟩ | ⟨begun, rfl, hbegun⟩
  · -- the run is still pruning
    obtain ⟨ps, qs, htargets, rfl⟩ := exists_take_deletions hdel
    exact h.keepsDeclared_deletions hw ha fun p hp => hu p (htargets ▸ List.mem_append_left _ hp)
  · obtain ⟨m, hm, hbegin⟩ := h.split
    have hm := reaches_of_runAll hm
    have hsame : rebuildOf declared m persist = rebuildOf declared left persist := by
      rw [rebuildOf, rebuildOf, places, places, hm.slots_eq hleft]
    have hprefix : begun <+: rebuildOf declared m persist :=
      hsame ▸ List.IsPrefix.trans ⟨rest, hbegun.symm⟩ hmore
    exact (hm.keepsDeclared_deletions hw ha hu).trans
      (hbegin.keepsDeclared_rebuild (hw.of_sublist hm.sublist) hd hprefix)

theorem isRuleLine_of_append_mem {targets : List (Table × String)} {persist : Option Invocation}
    {done : List Command} (hd : declared.IsReadBack) (hdone : done <+: rebuildOf declared w persist) {t : Table}
    {rule : String} (h : .append t rule ∈ Backend.deletions targets ++ done) : IsRuleLine rule := by
  rcases List.mem_append.mp h with h | h
  · obtain ⟨p, -, hp⟩ := List.mem_map.mp h
    cases hp
  · have h := hdone.subset h
    rw [rebuildOf, List.mem_append, List.mem_append] at h
    rcases h with (h | h) | h
    · obtain ⟨r, hr, heq⟩ := List.mem_map.mp h
      obtain ⟨-, rfl⟩ := Command.append.inj heq
      exact (hd.of_mem_every r hr).line
    · obtain ⟨p, -, hp⟩ := List.mem_map.mp h
      cases hp
    · obtain ⟨p, -, hp⟩ := List.mem_map.mp h
      cases hp

end Firewall

namespace Session

open Firewall

/-- The firewall after a run, also after one that was ended by a failure. -/
def stateAfter (session : Session) (w : Firewall) : Firewall :=
  match session.converge w with
  | .ok _ v => v
  | .error _ v => v

/-- However a run ends, it has deleted some undeclared rules and then begun to rebuild. -/
theorem reaches_stateAfter {session : Session} {w : Firewall} (hw : w.HoldsRules)
    (hd : session.preview.IsReadBack) (hdry : session.settings.dryRun = false) :
    ∃ targets left done, Undeclared session.preview w targets ∧ w.Reaches (Backend.deletions targets) left ∧
      done <+: rebuildOf session.preview left session.settings.persist ∧
      left.Reaches done (session.stateAfter w) := by
  have hout := outcome_converge hw hd hdry
  rw [stateAfter]
  generalize session.converge w = result at hout
  cases hout with
  | @pruneRefused targets e v hund hreach _ =>
      exact ⟨targets, v, [], hund, hreach, List.nil_prefix, Reaches.refl v v.listed⟩
  | @unchanged targets v hund hreach _ _ =>
      exact ⟨targets, v, [], hund, hreach, List.nil_prefix, Reaches.refl v v.listed⟩
  | rebuilt hund hleft _ hreach => exact ⟨_, _, _, hund, hleft, List.prefix_refl _, hreach⟩
  | rebuildRefused hund hleft _ hdone hreach _ => exact ⟨_, _, _, hund, hleft, hdone, hreach⟩

/-- A declared rule that is live before a run stays live: after any first part of the commands that the run carries
out, its text is a key of its table if it was one before. A run that is ended by a command that is refused is no
exception. -/
theorem converge_keeps_declared {text raw : String} {specs : List Spec} {resolve : Resolver} {mode : AddressMode}
    {persist : Option Invocation} {needle : Option String} (hparse : Manifest.parse text = .ok specs)
    (ha : (seeded raw needle).ListsAlike) :
    ∀ done, done <+: ((ofSpecs resolve mode persist specs).stateAfter (seeded raw needle)).log →
      ∃ v, Backend.runAll done (seeded raw needle) = .ok () v ∧
        (done = ((ofSpecs resolve mode persist specs).stateAfter (seeded raw needle)).log →
          v.slots = ((ofSpecs resolve mode persist specs).stateAfter (seeded raw needle)).slots) ∧
        ∀ t, ∀ r ∈ (ofSpecs resolve mode persist specs).preview.rules t,
          (Listing.parse false mode (seeded raw needle).listing).contains t r.text = true →
            (Listing.parse false mode v.listing).contains t r.text = true := by
  have hw := holdsRules_seeded raw needle
  have hd : (ofSpecs resolve mode persist specs).preview.IsReadBack := isReadBack_of_parse hparse
  have hdry : (ofSpecs resolve mode persist specs).settings.dryRun = false := dryRun_ofSpecs
  generalize ofSpecs resolve mode persist specs = session at *
  obtain ⟨targets, left, more, hund, hleft, hmore, hstate⟩ := reaches_stateAfter hw hd hdry
  have hrun := hleft.trans hstate
  have hlog : (session.stateAfter (seeded raw needle)).log = Backend.deletions targets ++ more := hrun.frame.1
  rw [hlog]
  intro done hdone
  obtain ⟨rest, hsplit⟩ := hdone
  rw [← hsplit] at hrun
  obtain ⟨v, hv, hrest⟩ := hrun.split
  refine ⟨v, hv, fun hall => ?_, fun t r hr => ?_⟩
  · have hnil : rest = [] := by
      rw [← List.append_cancel_left_eq done, hsplit, hall, List.append_nil]
    rw [hnil] at hrest
    exact hrest.slots_of_nil.symm
  · have hreach := reaches_of_runAll hv
    have hlines : ∀ t rule, .append t rule ∈ done → IsRuleLine rule := fun t rule hmem =>
      isRuleLine_of_append_mem hd hmore (hsplit ▸ List.mem_append_left _ hmem)
    rw [hw.contains_listing, (hw.reaches hlines hreach).contains_listing]
    have hkeeps := Reaches.keepsDeclared hw ha hd hund hleft hmore ⟨rest, hsplit⟩ hreach
    exact hkeeps t r.text (List.mem_map_of_mem hr)

theorem listsAlike_sampleListing (needle : Option String) : (seeded sampleListing needle).ListsAlike := by
  have hne : arguments "-A INPUT -j DROP" ≠ arguments sshText := by
    decide +kernel
  intro t s hs s' hs' harg
  rw [slots_seeded, slots_sampleListing] at hs hs'
  by_cases ht : t = .filter
  · rw [if_pos ht, List.mem_pair] at hs hs'
    rcases hs with rfl | rfl <;> rcases hs' with rfl | rfl
    · rfl
    · exact absurd harg hne
    · exact absurd harg.symm hne
    · rfl
  · rw [if_neg ht] at hs
    cases hs

/-- The rule of the sample that is live stays live in a run in which its old copy cannot be deleted by position. -/
theorem converge_keeps_declared_sample :
    Manifest.parse sampleManifest = .ok sampleSpecs ∧ (seeded sampleListing (some "-D INPUT 1")).ListsAlike ∧
      ∀ done, done <+: ((ofSpecs .literal .cidr none sampleSpecs).stateAfter
          (seeded sampleListing (some "-D INPUT 1"))).log →
        ∃ v, Backend.runAll done (seeded sampleListing (some "-D INPUT 1")) = .ok () v ∧
          (Listing.parse false .cidr v.listing).contains .filter sshText = true := by
  have ha := listsAlike_sampleListing (some "-D INPUT 1")
  refine ⟨parse_sampleManifest, ha, fun done hdone => ?_⟩
  obtain ⟨v, hv, -, hkeeps⟩ := converge_keeps_declared parse_sampleManifest ha done hdone
  have hdeclared : sshText ∈ (ofSpecs .literal .cidr none sampleSpecs).preview.texts .filter := by
    simp [texts_sampleSpecs]
  obtain ⟨r, hr, htext⟩ := List.mem_map.mp hdeclared
  rw [← htext]
  refine ⟨v, hv, hkeeps .filter r hr ?_⟩
  have hlive : (⟨"INPUT", sshText⟩ : Slot) ∈ (seeded sampleListing (some "-D INPUT 1")).slots .filter := by
    simp [slots_seeded, slots_sampleListing]
  have hkey : listedKey sshText = sshText := by
    decide +kernel
  exact ((holdsRules_seeded _ _).contains_listing _ _ _).mpr ⟨_, hlive, hkey.trans htext.symm⟩

end Session

end PacketFilter
