import PacketFilter.Proofs.DeclaredRules
import PacketFilter.Proofs.Pruning

/-! # Rebuilding

After the appends of a plan every table holds its old rules and then the declared ones
(`Firewall.Reaches.slots_appends`). A deletion at position 1 of the chain of an old rule takes out an old rule,
since those stand in front (`Firewall.apply_flush`). As the plan has one such deletion for each old rule, with
the chain of that rule, what is left in the end are the declared rules (`Firewall.Reaches.slots_rebuild`). -/

namespace PacketFilter

/-- The live rules that the rules of a table become. -/
def Rule.slot (r : Rule) : Slot :=
  ⟨r.chain, r.text⟩

theorem Rule.IsReadBack.appendedChain?_eq {r : Rule} (h : r.IsReadBack) :
    appendedChain? r.text = some r.chain := by
  obtain ⟨chain, rest, harg, hchain⟩ := h.line.appendedChain?_eq
  obtain ⟨rest', harg'⟩ := h.arguments
  rw [harg', List.cons.injEq, List.cons.injEq] at harg
  rw [hchain, harg.2.1]

theorem Slot.IsRule.chain_eq {s : Slot} (h : s.IsRule) {first chain : String} {rest : List String}
    (harg : arguments s.text = first :: chain :: rest) : s.chain = chain := by
  obtain ⟨chain', rest', harg', hchain⟩ := h.line.appendedChain?_eq
  rw [harg', List.cons.injEq, List.cons.injEq] at harg
  rw [h.chain, Option.some_inj] at hchain
  exact hchain.trans harg.2.1

namespace Firewall

variable {w v : Firewall} {declared : RuleSet} {old new : Table → List Slot}

/-! ### Appending -/

def appendsOf (rules : List Rule) : List Command :=
  rules.map fun r => .append r.table r.text

theorem exists_runAll_appends {rules : List Rule} (hr : w.refused = none)
    (h : ∀ r ∈ rules, appendedChain? r.text = some r.chain) :
    ∃ v, Backend.runAll (appendsOf rules) w = .ok () v := by
  induction rules generalizing w with
  | nil => exact ⟨w, rfl⟩
  | cons r rs ih =>
      have happly : w.apply (.append r.table r.text) = .ok (w.setSlots r.table (w.slots r.table ++ [r.slot])) :=
        apply_append_eq_ok.mpr ⟨r.chain, h r List.mem_cons_self, rfl⟩
      have hrun := run_eq_ok.mpr ⟨refuses_eq_false hr _, _, happly, rfl⟩
      obtain ⟨v, hv⟩ := ih (w := { w.setSlots r.table _ with log := w.log ++ [_] }) hr
        fun q hq => h q (List.mem_cons_of_mem _ hq)
      exact ⟨v, Backend.runAll_cons_eq_ok.mpr ⟨_, hrun, hv⟩⟩

theorem Reaches.slots_appends {rules : List Rule} (h : w.Reaches (appendsOf rules) v)
    (hrules : ∀ r ∈ rules, appendedChain? r.text = some r.chain) (t : Table) :
    v.slots t = w.slots t ++ (rulesOf t rules).map Rule.slot := by
  induction rules generalizing w with
  | nil => rw [h.slots_of_nil, rulesOf, List.filter_nil, List.map_nil, List.append_nil]
  | cons r rs ih =>
      obtain ⟨m, hm, h⟩ := h.cons
      rw [ih h fun r hr => hrules r (List.mem_cons_of_mem _ hr)]
      obtain ⟨-, u, hu, rfl⟩ := run_eq_ok.mp hm
      obtain ⟨chain, hchain, rfl⟩ := apply_append_eq_ok.mp hu
      rw [hrules r List.mem_cons_self, Option.some_inj] at hchain
      subst hchain
      by_cases ht : t = r.table
      · subst ht
        rw [slots_setSlots_self, rulesOf, rulesOf, List.filter_cons_of_pos (by simp), List.map_cons,
          List.append_assoc]
        rfl
      · rw [slots_setSlots_of_ne ht, rulesOf, rulesOf, List.filter_cons_of_neg (by simpa using Ne.symm ht)]

/-! ### Deleting the old rules -/

/-- The commands that delete at position 1 of chains. -/
def flushesOf (places : List (Table × String)) : List Command :=
  places.map fun (t, chain) => .deleteAt t chain 1

theorem apply_flush {t : Table} {chain : String} {olds news : List Slot} (hw : w.slots t = olds ++ news)
    (hc : chain ∈ olds.map Slot.chain) :
    ∃ before s after, olds = before ++ s :: after ∧ s.chain = chain ∧
      w.apply (.deleteAt t chain 1) = .ok (w.setSlots t (before ++ after ++ news)) := by
  obtain ⟨s, hs, hchain⟩ := List.mem_map.mp hc
  obtain ⟨rest, hrest⟩ := exists_eraseNth_zero (p := fun slot : Slot => slot.chain == chain)
    ⟨s, hs, beq_iff_eq.mpr hchain⟩
  obtain ⟨before, x, after, hsplit, hbefore, hx, rfl⟩ := eraseNth_zero_eq_some_iff.mp hrest
  refine ⟨before, x, after, hsplit, beq_iff_eq.mp hx, apply_deleteAt_eq_ok.mpr ⟨before, x, after ++ news, ?_, ?_⟩⟩
  · rw [hw, hsplit, List.append_assoc, List.cons_append]
  · refine ⟨fun y hy => by simpa using hbefore y hy, beq_iff_eq.mp hx, ?_⟩
    rw [List.append_assoc]

/-- Every table holds old rules and then new ones, and deletions are to come for just the chains of the old ones. -/
structure Flushing (new : Table → List Slot) (places : List (Table × String)) (old : Table → List Slot)
    (w : Firewall) : Prop where
  slots : ∀ t, w.slots t = old t ++ new t
  chains : ∀ t, ((places.filter (·.1 == t)).map Prod.snd).Perm ((old t).map Slot.chain)

/-- One deletion at position 1 takes out an old rule, and leaves the others for the deletions to come. -/
theorem Flushing.step {t : Table} {chain : String} {places : List (Table × String)}
    (h : Flushing new ((t, chain) :: places) old w) :
    ∃ before s after, old t = before ++ s :: after ∧
      w.apply (.deleteAt t chain 1) = .ok (w.setSlots t (before ++ after ++ new t)) ∧
      Flushing new places (fun u => if u = t then before ++ after else old u)
        (w.setSlots t (before ++ after ++ new t)) := by
  have ht := h.chains t
  rw [List.filter_cons_of_pos (by simp), List.map_cons] at ht
  obtain ⟨before, s, after, hsplit, hs, happly⟩ := apply_flush (h.slots t) (ht.subset List.mem_cons_self)
  refine ⟨before, s, after, hsplit, happly, ?_, ?_⟩
  · intro u
    by_cases hu : u = t
    · subst hu
      rw [slots_setSlots_self, if_pos rfl]
    · rw [slots_setSlots_of_ne hu, if_neg hu, h.slots u]
  · intro u
    by_cases hu : u = t
    · subst hu
      have hmiddle : ((old u).map Slot.chain).Perm (chain :: (before ++ after).map Slot.chain) := by
        rw [hsplit, ← show s.chain = chain from hs]
        exact List.perm_middle.map Slot.chain
      rw [if_pos rfl]
      exact List.Perm.cons_inv (ht.trans hmiddle)
    · rw [if_neg hu]
      have := h.chains u
      rwa [List.filter_cons_of_neg (by simpa using Ne.symm hu)] at this

theorem Flushing.exists_runAll {places : List (Table × String)} (h : Flushing new places old w)
    (hr : w.refused = none) : ∃ v, Backend.runAll (flushesOf places) w = .ok () v := by
  induction places generalizing w old with
  | nil => exact ⟨w, rfl⟩
  | cons p ps ih =>
      obtain ⟨before, s, after, -, happly, hnext⟩ := h.step
      have hrun := run_eq_ok.mpr ⟨refuses_eq_false hr (.deleteAt p.1 p.2 1), _, happly, rfl⟩
      obtain ⟨v, hv⟩ := ih
        (w := { w.setSlots p.1 (before ++ after ++ new p.1) with log := w.log ++ [.deleteAt p.1 p.2 1] })
        ⟨hnext.slots, hnext.chains⟩ hr
      exact ⟨v, Backend.runAll_cons_eq_ok.mpr ⟨_, hrun, hv⟩⟩

/-- While the old rules are deleted every table holds some of its old rules and then all of the new ones. -/
theorem Flushing.run {done places : List (Table × String)} (h : Flushing new (done ++ places) old w)
    (hv : w.Reaches (flushesOf done) v) :
    ∃ old', (∀ t, (old' t).Sublist (old t)) ∧ Flushing new places old' v := by
  induction done generalizing w old with
  | nil =>
      refine ⟨old, fun t => List.Sublist.refl _, fun t => ?_, h.chains⟩
      rw [← h.slots t, hv.slots_of_nil]
  | cons p ps ih =>
      obtain ⟨m, hm, hv⟩ := hv.cons
      obtain ⟨before, s, after, hsplit, happly, hnext⟩ := h.step
      obtain ⟨-, u, hu, rfl⟩ := run_eq_ok.mp hm
      rw [happly] at hu
      obtain rfl := Except.ok.inj hu
      have hnext' : Flushing new (ps ++ places) (fun u => if u = p.1 then before ++ after else old u)
          { w.setSlots p.1 (before ++ after ++ new p.1) with log := w.log ++ [.deleteAt p.1 p.2 1] } :=
        ⟨hnext.slots, hnext.chains⟩
      obtain ⟨old', hold, hlast⟩ := ih hnext' hv
      refine ⟨old', fun t => (hold t).trans ?_, hlast⟩
      by_cases ht : t = p.1
      · subst ht
        rw [if_pos rfl, hsplit]
        exact (List.Sublist.refl _).append (List.sublist_cons_self s after)
      · rw [if_neg ht]

theorem Flushing.slots_eq (h : Flushing new [] old w) (t : Table) : w.slots t = new t := by
  have hold : old t = [] := by
    have := (h.chains t).symm.eq_nil
    simpa using this
  rw [h.slots t, hold, List.nil_append]

/-! ### The whole rebuilding -/

/-- The places of the live rules, table by table in the order of a listing. -/
def places (w : Firewall) : List (Table × String) :=
  Table.all.flatMap fun t => (inListingOrder (w.slots t)).map fun s => (t, s.chain)

theorem length_places (w : Firewall) : w.places.length = w.size := by
  have hlength : ∀ t, (inListingOrder (w.slots t)).length = (w.slots t).length := fun t =>
    (List.mergeSort_perm _ _).length_eq
  simp only [places, size, List.length_flatMap, List.length_map, hlength]

theorem chains_places (w : Firewall) (t : Table) :
    ((w.places.filter (·.1 == t)).map Prod.snd).Perm ((w.slots t).map Slot.chain) := by
  rw [places, Table.filter_flatMap_all, List.map_map]
  · exact (List.mergeSort_perm _ _).map Slot.chain
  · intro u p hp
    obtain ⟨s, -, rfl⟩ := List.mem_map.mp hp
    rfl

end Firewall

namespace RuleSet

variable {declared : RuleSet}

def slots (declared : RuleSet) (t : Table) : List Slot :=
  (declared.rules t).map Rule.slot

def every (declared : RuleSet) : List Rule :=
  Table.all.flatMap declared.rules

theorem IsReadBack.rulesOf_every (hd : declared.IsReadBack) (t : Table) :
    rulesOf t declared.every = declared.rules t :=
  Table.filter_flatMap_all hd.table t

theorem IsReadBack.of_mem_every (hd : declared.IsReadBack) : ∀ r ∈ declared.every, r.IsReadBack := by
  intro r hr
  obtain ⟨t, -, hr⟩ := List.mem_flatMap.mp hr
  exact hd.rule t r hr

theorem IsReadBack.appendedChain?_eq (hd : declared.IsReadBack) :
    ∀ r ∈ declared.every, appendedChain? r.text = some r.chain :=
  fun r hr => (hd.of_mem_every r hr).appendedChain?_eq

theorem map_rule_all (declared : RuleSet) : declared.all.map PlacedRule.rule = declared.every := by
  rw [all, every, List.map_flatMap]
  congr 1
  funext t
  rw [placed, List.map_map]
  exact List.zipIdx_map_fst 1 (declared.rules t)

theorem IsReadBack.inListingOrder_slots (hd : declared.IsReadBack) (t : Table) :
    Firewall.inListingOrder (declared.slots t) = declared.slots t := by
  rw [Firewall.inListingOrder_eq_self_iff, slots, List.pairwise_map]
  exact hd.sorted t

end RuleSet

namespace Firewall

variable {w v : Firewall} {declared : RuleSet} {persist : Option Invocation}

/-- The commands that append all declared rules, delete the old rules, and save the result. -/
def rebuildOf (declared : RuleSet) (w : Firewall) (persist : Option Invocation) : List Command :=
  appendsOf declared.every ++ flushesOf w.places ++ persist.toList.map .persist

/-- When all declared rules have been appended, the old rules stand in front of them. -/
theorem Reaches.flushing (h : w.Reaches (appendsOf declared.every) v) (hd : declared.IsReadBack) :
    Flushing declared.slots w.places w.slots v where
  slots t := by
    rw [h.slots_appends hd.appendedChain?_eq t, hd.rulesOf_every]
    rfl
  chains := w.chains_places

theorem exists_runAll_persist (hr : w.refused = none) (persist : Option Invocation) :
    ∃ v, Backend.runAll (persist.toList.map .persist) w = .ok () v := by
  cases persist with
  | none => exact ⟨w, rfl⟩
  | some call =>
      have hrun := run_eq_ok.mpr ⟨refuses_eq_false hr (.persist call), w, rfl, rfl⟩
      exact ⟨_, Backend.runAll_cons_eq_ok.mpr ⟨_, hrun, rfl⟩⟩

theorem exists_runAll_rebuild (hd : declared.IsReadBack) (hr : w.refused = none) (persist : Option Invocation) :
    ∃ v, Backend.runAll (rebuildOf declared w persist) w = .ok () v := by
  obtain ⟨v₁, h₁⟩ := exists_runAll_appends hr hd.appendedChain?_eq
  have hr₁ := (reaches_of_runAll h₁).frame.2.trans hr
  obtain ⟨v₂, h₂⟩ := ((reaches_of_runAll h₁).flushing hd).exists_runAll hr₁
  have hr₂ := (reaches_of_runAll h₂).frame.2.trans hr₁
  obtain ⟨v₃, h₃⟩ := exists_runAll_persist hr₂ persist
  exact ⟨v₃, runAll_append_eq_ok.mpr ⟨v₂, runAll_append_eq_ok.mpr ⟨v₁, h₁, h₂⟩, h₃⟩⟩

theorem Reaches.slots_persist {calls : List Invocation} (h : w.Reaches (calls.map .persist) v) :
    v.slots = w.slots := by
  induction calls generalizing w with
  | nil => exact h.slots_of_nil
  | cons call calls ih =>
      obtain ⟨m, hm, h⟩ := h.cons
      obtain ⟨-, u, hu, rfl⟩ := run_eq_ok.mp hm
      obtain rfl := Except.ok.inj hu
      exact (ih h).trans rfl

/-- While rules are rebuilt, the old rules are all there or the declared ones are. -/
theorem Reaches.old_or_new (hd : declared.IsReadBack) {done : List Command}
    (hdone : done <+: rebuildOf declared w persist) (h : w.Reaches done v) :
    (∀ t, w.slots t <+: v.slots t) ∨ ∀ t, declared.slots t <:+ v.slots t := by
  obtain ⟨rest, hsplit⟩ := hdone
  rw [rebuildOf, List.append_assoc, List.append_eq_append_iff] at hsplit
  rcases hsplit with ⟨more, happends, -⟩ | ⟨flushed, rfl, hrest⟩
  · -- appending is not finished yet
    obtain ⟨rs, qs, hrules, hrs, -⟩ := List.map_eq_append_iff.mp happends
    refine .inl fun t => ?_
    have hchain : ∀ r ∈ rs, appendedChain? r.text = some r.chain := fun r hr =>
      hd.appendedChain?_eq r (hrules ▸ List.mem_append_left _ hr)
    rw [← hrs] at h
    rw [h.slots_appends hchain t]
    exact List.prefix_append _ _
  · obtain ⟨m, hm, hflush⟩ := h.split
    have hflushing := (reaches_of_runAll hm).flushing hd
    refine .inr ?_
    rw [List.append_eq_append_iff] at hrest
    rcases hrest with ⟨saved, rfl, hsaved⟩ | ⟨more, hplaces, -⟩
    · obtain ⟨u, hu, hpersist⟩ := hflush.split
      obtain ⟨calls, _, -, hcalls, -⟩ := List.map_eq_append_iff.mp hsaved
      rw [← hcalls] at hpersist
      rw [← List.append_nil w.places] at hflushing
      obtain ⟨old, -, hold⟩ := hflushing.run (reaches_of_runAll hu)
      rw [hpersist.slots_persist]
      exact fun t => ⟨old t, (hold.slots t).symm⟩
    · -- some old rules may be left
      obtain ⟨ps, qs, hplaces, hps, -⟩ := List.map_eq_append_iff.mp hplaces
      rw [← hps] at hflush
      rw [hplaces] at hflushing
      obtain ⟨old, -, hold⟩ := hflushing.run hflush
      exact fun t => ⟨old t, (hold.slots t).symm⟩

/-- The next deletion at position 1 takes out a rule that was live before the first append, from in front of the
declared rules. -/
theorem Reaches.next_flush (hd : declared.IsReadBack) {done rest : List (Table × String)} {t : Table}
    {chain : String} (hplaces : w.places = done ++ (t, chain) :: rest)
    (h : w.Reaches (appendsOf declared.every ++ flushesOf done) v) :
    ∃ before s after, (before ++ s :: after).Sublist (w.slots t) ∧
      v.slots t = before ++ s :: after ++ declared.slots t ∧
      v.apply (.deleteAt t chain 1) = .ok (v.setSlots t (before ++ after ++ declared.slots t)) := by
  obtain ⟨m, hm, hflush⟩ := h.split
  have hflushing := (reaches_of_runAll hm).flushing hd
  rw [hplaces] at hflushing
  obtain ⟨old, hsub, hold⟩ := hflushing.run hflush
  obtain ⟨before, s, after, hsplit, happly, -⟩ := hold.step
  refine ⟨before, s, after, hsplit ▸ hsub t, ?_, happly⟩
  rw [hold.slots t, hsplit]

theorem Reaches.slots_rebuild (hd : declared.IsReadBack) (h : w.Reaches (rebuildOf declared w persist) v) :
    v.slots = declared.slots := by
  obtain ⟨u, hu, hpersist⟩ := h.split
  obtain ⟨m, hm, hflush⟩ := (reaches_of_runAll hu).split
  have hflushing := (reaches_of_runAll hm).flushing hd
  rw [← List.append_nil w.places] at hflushing
  obtain ⟨old, -, hold⟩ := hflushing.run hflush
  rw [hpersist.slots_persist]
  exact funext hold.slots_eq

/-! ### The commands of a plan -/

theorem Settled.chain_ofLine (hw : w.HoldsRules) (hd : declared.IsReadBack) (hs : Settled declared w)
    (mode : AddressMode) (t : Table) :
    ∀ s ∈ w.slots t, (LiveRule.ofLine mode t (listedText s.text)).chain = s.chain := by
  intro s hmem
  obtain ⟨r, hr, hkey⟩ := List.mem_map.mp (hs t s hmem)
  have hline := (hw t s hmem).line
  have hback := hd.rule t r hr
  obtain ⟨rest, harg⟩ := hback.arguments
  rw [hback.chain_ofLine mode t _ hline.listedText.newline hkey.symm]
  rw [hkey, arguments_listedKey hline.readable] at harg
  exact ((hw t s hmem).chain_eq harg).symm

theorem commands_of_toAdd {plan : Plan} (h : plan.toAdd = declared.all) :
    plan.commands = appendsOf declared.every ++ flushesOf (plan.toDelete.map fun old => (old.table, old.chain)) := by
  rw [Plan.commands, h, appendsOf, ← declared.map_rule_all, flushesOf, List.map_map, List.map_map]
  rfl

/-- The plan for live rules that are all declared appends the declared rules, and then deletes as many rules as
there are, chain by chain. -/
theorem Settled.commands_plan (hw : w.HoldsRules) (hd : declared.IsReadBack) (hs : Settled declared w)
    (mode : AddressMode) :
    (Plan.mk declared.all (Listing.parse true mode w.listing).stale).commands =
      appendsOf declared.every ++ flushesOf w.places := by
  have hflushes : ((Listing.parse true mode w.listing).stale.map fun old =>
      Command.deleteAt old.table old.chain 1) = flushesOf w.places := by
    rw [hw.map_stale, flushesOf, places, List.map_flatMap]
    refine congrArg Table.all.flatMap (funext fun t => ?_)
    rw [List.map_map]
    exact List.map_congr_left fun s hmem =>
      congrArg (Command.deleteAt t · 1) (hs.chain_ofLine hw hd mode t s (mem_inListingOrder.mp hmem))
  rw [Plan.commands, hflushes, appendsOf, ← declared.map_rule_all, List.map_map]
  rfl

end Firewall

end PacketFilter
