import PacketFilter.Proofs.FirewallListing

/-! # Running commands on a firewall

What a command that succeeds does to the rules (`Firewall.apply_append_eq_ok` and the lemmas behind it), and
that a command which fails leaves everything as it was (`Firewall.eq_of_run_eq_error`). Listing the rules in
between makes no difference to commands, so `Firewall.Reaches` speaks of runs up to how often the rules were
listed; runs can be joined and cut. -/

namespace PacketFilter

theorem eraseNth_zero {α : Type} (p : α → Bool) (xs : List α) :
    eraseNth p 0 xs = if xs.any p then some (xs.eraseP p) else none := by
  induction xs with
  | nil => rfl
  | cons x xs ih =>
      rw [eraseNth, ih, List.any_cons, List.eraseP_cons]
      cases p x with
      | true => simp
      | false => cases xs.any p <;> simp

theorem eraseNth_zero_eq_some_iff {α : Type} {p : α → Bool} {xs ys : List α} :
    eraseNth p 0 xs = some ys ↔
      ∃ before x after, xs = before ++ x :: after ∧ (∀ y ∈ before, p y = false) ∧ p x = true ∧
        ys = before ++ after := by
  rw [eraseNth_zero]
  constructor
  · intro h
    split at h
    · rename_i hany
      obtain ⟨x, hx, hp⟩ := List.any_eq_true.mp hany
      obtain ⟨x, before, after, hbefore, hx, hsplit, herase⟩ := List.exists_of_eraseP hx hp
      refine ⟨before, x, after, hsplit, fun y hy => by simpa using hbefore y hy, hx, ?_⟩
      rw [← Option.some_inj.mp h, herase]
    · cases h
  · rintro ⟨before, x, after, rfl, hbefore, hx, rfl⟩
    rw [if_pos (List.any_eq_true.mpr ⟨x, by simp, hx⟩), List.eraseP_append_right _ (by simpa using hbefore),
      List.eraseP_cons_of_pos hx]

theorem exists_eraseNth_zero {α : Type} {p : α → Bool} {xs : List α} (h : ∃ x ∈ xs, p x = true) :
    ∃ ys, eraseNth p 0 xs = some ys := by
  rw [eraseNth_zero, if_pos (List.any_eq_true.mpr h)]
  exact ⟨_, rfl⟩

theorem eraseNth_sublist {α : Type} {p : α → Bool} {skip : Nat} {xs ys : List α}
    (h : eraseNth p skip xs = some ys) : ys.Sublist xs := by
  induction xs generalizing skip ys with
  | nil => cases h
  | cons x xs ih =>
      rw [eraseNth] at h
      split at h
      · split at h
        · rw [← Option.some_inj.mp h]
          exact List.sublist_cons_self x xs
        · obtain ⟨zs, hz, rfl⟩ := Option.map_eq_some_iff.mp h
          exact (ih hz).cons_cons x
      · obtain ⟨zs, hz, rfl⟩ := Option.map_eq_some_iff.mp h
        exact (ih hz).cons_cons x

namespace Firewall

variable {w v u : Firewall} {c : Command} {cs ds : List Command} {t : Table}

/-! ### Single commands -/

@[simp] theorem slots_setSlots_self (w : Firewall) (t : Table) (slots : List Slot) :
    (w.setSlots t slots).slots t = slots := by
  simp [setSlots]

theorem slots_setSlots_of_ne {t t' : Table} (h : t' ≠ t) (w : Firewall) (slots : List Slot) :
    (w.setSlots t slots).slots t' = w.slots t' := by
  simp [setSlots, h]

theorem apply_append_eq_ok {rule : String} :
    w.apply (.append t rule) = .ok v ↔
      ∃ chain, appendedChain? rule = some chain ∧ v = w.setSlots t (w.slots t ++ [⟨chain, rule⟩]) := by
  rw [apply]
  cases appendedChain? rule with
  | none => simp
  | some chain => simp [eq_comm]

theorem apply_delete_eq_ok {rule : String} :
    w.apply (.delete t rule) = .ok v ↔
      ∃ before s after, w.slots t = before ++ s :: after ∧
        (∀ x ∈ before, arguments x.text ≠ arguments rule) ∧ arguments s.text = arguments rule ∧
        v = w.setSlots t (before ++ after) := by
  rw [apply]
  constructor
  · intro h
    split at h
    · rename_i rest hrest
      obtain ⟨before, s, after, hsplit, hbefore, hs, rfl⟩ := eraseNth_zero_eq_some_iff.mp hrest
      refine ⟨before, s, after, hsplit, fun x hx => by simpa using hbefore x hx, by simpa using hs, ?_⟩
      exact (Except.ok.inj h).symm
    · cases h
  · rintro ⟨before, s, after, hsplit, hbefore, hs, rfl⟩
    rw [eraseNth_zero_eq_some_iff.mpr ⟨before, s, after, hsplit, by simpa using hbefore, by simpa using hs, rfl⟩]

theorem apply_deleteAt_eq_ok {chain : String} :
    w.apply (.deleteAt t chain 1) = .ok v ↔
      ∃ before s after, w.slots t = before ++ s :: after ∧ (∀ x ∈ before, x.chain ≠ chain) ∧
        s.chain = chain ∧ v = w.setSlots t (before ++ after) := by
  rw [apply]
  constructor
  · intro h
    split at h
    · rename_i rest hrest
      obtain ⟨before, s, after, hsplit, hbefore, hs, rfl⟩ := eraseNth_zero_eq_some_iff.mp hrest
      refine ⟨before, s, after, hsplit, fun x hx => by simpa using hbefore x hx, by simpa using hs, ?_⟩
      exact (Except.ok.inj h).symm
    · cases h
  · rintro ⟨before, s, after, hsplit, hbefore, hs, rfl⟩
    rw [Nat.sub_self,
      eraseNth_zero_eq_some_iff.mpr ⟨before, s, after, hsplit, by simpa using hbefore, by simpa using hs, rfl⟩]

/-- Commands change nothing but the rules. -/
theorem frame_of_apply (h : w.apply c = .ok v) : v.log = w.log ∧ v.refused = w.refused := by
  cases c with
  | append t rule =>
      obtain ⟨_, _, rfl⟩ := apply_append_eq_ok.mp h
      exact ⟨rfl, rfl⟩
  | delete t rule =>
      obtain ⟨_, _, _, _, _, _, rfl⟩ := apply_delete_eq_ok.mp h
      exact ⟨rfl, rfl⟩
  | deleteAt t chain position =>
      rw [apply] at h
      split at h
      · cases h
        exact ⟨rfl, rfl⟩
      · cases h
  | persist call =>
      cases h
      exact ⟨rfl, rfl⟩

theorem run_eq_ok :
    run c w = .ok () v ↔ w.refuses c = false ∧ ∃ u, w.apply c = .ok u ∧ v = { u with log := w.log ++ [c] } := by
  rw [run]
  cases w.refuses c with
  | true => simp
  | false =>
      cases w.apply c with
      | error e => simp
      | ok u => simp [eq_comm]

theorem eq_of_run_eq_error {e : Failure} (h : run c w = .error e v) :
    v = w ∧ (w.refuses c = false → ∀ u, w.apply c ≠ .ok u) := by
  rw [run] at h
  split at h
  · rename_i hr
    obtain ⟨-, rfl⟩ := EStateM.Result.error.inj h
    exact ⟨rfl, fun hr' => absurd hr (by simp [hr'])⟩
  · split at h
    · rename_i he
      obtain ⟨-, rfl⟩ := EStateM.Result.error.inj h
      exact ⟨rfl, fun _ u hu => by rw [he] at hu; cases hu⟩
    · cases h

theorem refuses_eq_false (h : w.refused = none) (c : Command) : w.refuses c = false := by
  rw [refuses, h]
  rfl

theorem exists_run_append {text chain : String} (t : Table) (h : appendedChain? text = some chain) :
    ∃ v, Backend.run (.append t text) ({} : Firewall) = .ok () v ∧
      ∀ u, v.slots u = if u = t then [⟨chain, text⟩] else [] := by
  have happly := apply_append_eq_ok (w := {}) (t := t).mpr ⟨chain, h, rfl⟩
  refine ⟨_, run_eq_ok.mpr ⟨refuses_eq_false rfl _, _, happly, rfl⟩, fun u => ?_⟩
  by_cases hu : u = t
  · subst hu
    rw [if_pos rfl]
    exact slots_setSlots_self _ u _
  · rw [if_neg hu]
    exact slots_setSlots_of_ne hu _ _

theorem entries_of_run_append {text chain : String} {t : Table} (hline : IsRuleLine text)
    (hchain : appendedChain? text = some chain) (hv : ∀ u, v.slots u = if u = t then [⟨chain, text⟩] else [])
    (mode : AddressMode) :
    (Listing.parse false mode v.listing).entries t =
      [⟨listedKey text, LiveRule.ofLine mode t (listedText text)⟩] := by
  have hrules : v.HoldsRules := by
    intro u s hs
    rw [hv u] at hs
    split at hs
    · rw [List.mem_singleton.mp hs]
      exact ⟨hline, hchain⟩
    · cases hs
  have hslots : v.slots t = [⟨chain, text⟩] := by rw [hv t, if_pos rfl]
  rw [hrules.entries_single mode hslots]

/-! ### Listing in between -/

theorem apply_listed (w : Firewall) (c : Command) (n : Nat) :
    apply { w with listed := n } c = (w.apply c).map fun v => { v with listed := n } := by
  cases c with
  | append t rule =>
      rw [apply, apply]
      cases appendedChain? rule <;> rfl
  | delete t rule =>
      rw [apply, apply]
      cases eraseNth (fun slot => arguments slot.text == arguments rule) 0 (w.slots t) <;> rfl
  | deleteAt t chain position =>
      rw [apply, apply]
      cases eraseNth (fun slot => slot.chain == chain) (position - 1) (w.slots t) <;> rfl
  | persist call => rfl

theorem run_listed (h : run c w = .ok () v) (n : Nat) :
    run c { w with listed := n } = .ok () { v with listed := n } := by
  obtain ⟨hr, u, hu, rfl⟩ := run_eq_ok.mp h
  refine run_eq_ok.mpr ⟨hr, { u with listed := n }, ?_, rfl⟩
  rw [apply_listed, hu]
  rfl

theorem runAll_listed (h : Backend.runAll cs w = .ok () v) (n : Nat) :
    Backend.runAll cs { w with listed := n } = .ok () { v with listed := n } := by
  induction cs generalizing w with
  | nil =>
      obtain ⟨-, rfl⟩ := EStateM.Result.ok.inj h
      rfl
  | cons c cs ih =>
      obtain ⟨m, hm, hrest⟩ := Backend.runAll_cons_eq_ok.mp h
      exact Backend.runAll_cons_eq_ok.mpr ⟨_, run_listed hm n, ih hrest⟩

/-! ### Runs -/

theorem runAll_append_eq_ok :
    Backend.runAll (cs ++ ds) w = .ok () u ↔
      ∃ v, Backend.runAll cs w = .ok () v ∧ Backend.runAll ds v = .ok () u := by
  induction cs generalizing w with
  | nil =>
      constructor
      · exact fun h => ⟨w, rfl, h⟩
      · rintro ⟨v, hv, h⟩
        obtain ⟨-, rfl⟩ := EStateM.Result.ok.inj hv
        exact h
  | cons c cs ih =>
      rw [List.cons_append, Backend.runAll_cons_eq_ok]
      constructor
      · rintro ⟨m, hm, h⟩
        obtain ⟨v, hv, hu⟩ := ih.mp h
        exact ⟨v, Backend.runAll_cons_eq_ok.mpr ⟨m, hm, hv⟩, hu⟩
      · rintro ⟨v, hv, hu⟩
        obtain ⟨m, hm, hv⟩ := Backend.runAll_cons_eq_ok.mp hv
        exact ⟨m, hm, ih.mpr ⟨v, hv, hu⟩⟩

/-- A run succeeds, or it stops at a command that fails. -/
theorem runAll_cases (cs : List Command) (w : Firewall) :
    (∃ v, Backend.runAll cs w = .ok () v) ∨
      ∃ done c rest e v, cs = done ++ c :: rest ∧ Backend.runAll done w = .ok () v ∧ run c v = .error e v ∧
        Backend.runAll cs w = .error e v := by
  induction cs generalizing w with
  | nil => exact .inl ⟨w, rfl⟩
  | cons c cs ih =>
      cases hc : run c w with
      | error e v =>
          obtain rfl := (eq_of_run_eq_error hc).1
          exact .inr ⟨[], c, cs, e, v, rfl, rfl, hc, Backend.runAll_cons_eq_error.mpr (.inl hc)⟩
      | ok a m =>
          rcases ih m with ⟨v, hv⟩ | ⟨done, d, rest, e, v, rfl, hdone, hd, hrest⟩
          · exact .inl ⟨v, Backend.runAll_cons_eq_ok.mpr ⟨m, hc, hv⟩⟩
          · exact .inr ⟨c :: done, d, rest, e, v, rfl, Backend.runAll_cons_eq_ok.mpr ⟨m, hc, hdone⟩, hd,
              Backend.runAll_cons_eq_error.mpr (.inr ⟨m, hc, hrest⟩)⟩

/-- From `w` the commands lead to `v`, however often the rules were listed. -/
def Reaches (w : Firewall) (cs : List Command) (v : Firewall) : Prop :=
  ∃ n, Backend.runAll cs w = .ok () { v with listed := n }

theorem Reaches.refl (w : Firewall) (n : Nat) : w.Reaches [] { w with listed := n } :=
  ⟨w.listed, rfl⟩

theorem reaches_of_runAll (h : Backend.runAll cs w = .ok () v) : w.Reaches cs v :=
  ⟨v.listed, h⟩

theorem reaches_of_runAll_listed {n : Nat} (h : Backend.runAll cs { w with listed := n } = .ok () v) :
    w.Reaches cs v :=
  ⟨w.listed, runAll_listed h w.listed⟩

theorem Reaches.listed (h : w.Reaches cs v) (n : Nat) : w.Reaches cs { v with listed := n } := by
  obtain ⟨m, h⟩ := h
  exact ⟨m, h⟩

theorem Reaches.trans (h : w.Reaches cs v) (h' : v.Reaches ds u) : w.Reaches (cs ++ ds) u := by
  obtain ⟨n, h⟩ := h
  obtain ⟨m, h'⟩ := h'
  exact ⟨n, runAll_append_eq_ok.mpr ⟨_, h, runAll_listed h' n⟩⟩

/-- A run leads through the states after each of its prefixes. -/
theorem Reaches.split (h : w.Reaches (cs ++ ds) u) :
    ∃ v, Backend.runAll cs w = .ok () v ∧ v.Reaches ds u := by
  obtain ⟨n, h⟩ := h
  obtain ⟨v, hv, hu⟩ := runAll_append_eq_ok.mp h
  exact ⟨v, hv, n, hu⟩

theorem Reaches.cons (h : w.Reaches (c :: cs) u) : ∃ v, run c w = .ok () v ∧ v.Reaches cs u := by
  obtain ⟨n, h⟩ := h
  obtain ⟨v, hv, hu⟩ := Backend.runAll_cons_eq_ok.mp h
  exact ⟨v, hv, n, hu⟩

theorem Reaches.slots_of_nil (h : w.Reaches [] v) : v.slots = w.slots := by
  obtain ⟨n, h⟩ := h
  exact (Firewall.mk.inj (EStateM.Result.ok.inj h).2).1.symm

theorem Reaches.frame (h : w.Reaches cs v) : v.log = w.log ++ cs ∧ v.refused = w.refused := by
  induction cs generalizing w with
  | nil =>
      obtain ⟨n, h⟩ := h
      obtain ⟨-, rfl⟩ := EStateM.Result.ok.inj h
      simp
  | cons c cs ih =>
      obtain ⟨m, hm, h⟩ := h.cons
      obtain ⟨-, u, hu, rfl⟩ := run_eq_ok.mp hm
      obtain ⟨hlog, href⟩ := ih h
      exact ⟨by rw [hlog, List.append_assoc, List.singleton_append], href.trans (frame_of_apply hu).2⟩

/-- The rules after a run are determined by its commands. -/
theorem Reaches.slots_eq (h : w.Reaches cs v) (h' : w.Reaches cs u) : v.slots = u.slots := by
  obtain ⟨n, h⟩ := h
  obtain ⟨m, h'⟩ := h'
  rw [h] at h'
  exact (Firewall.mk.inj (EStateM.Result.ok.inj h').2).1

/-! ### Rules that can be listed -/

/-- A command leaves the rules of a table, takes some away, or appends one. -/
theorem slots_of_apply (h : w.apply c = .ok v) (t : Table) :
    (v.slots t).Sublist (w.slots t) ∨
      ∃ rule chain, c = .append t rule ∧ appendedChain? rule = some chain ∧
        v.slots t = w.slots t ++ [⟨chain, rule⟩] := by
  have hset : ∀ {t' : Table} {rest : List Slot}, rest.Sublist (w.slots t') →
      ((w.setSlots t' rest).slots t).Sublist (w.slots t) := by
    intro t' rest hrest
    by_cases ht : t = t'
    · subst ht
      rwa [slots_setSlots_self]
    · simp only [slots_setSlots_of_ne ht, List.Sublist.refl]
  cases c with
  | append t' rule =>
      obtain ⟨chain, hchain, rfl⟩ := apply_append_eq_ok.mp h
      by_cases ht : t = t'
      · subst ht
        exact .inr ⟨rule, chain, rfl, hchain, slots_setSlots_self w t _⟩
      · exact .inl (by simp only [slots_setSlots_of_ne ht, List.Sublist.refl])
  | delete t' rule =>
      obtain ⟨before, s, after, hsplit, -, -, rfl⟩ := apply_delete_eq_ok.mp h
      refine .inl (hset ?_)
      rw [hsplit]
      exact (List.Sublist.refl _).append (List.sublist_cons_self s after)
  | deleteAt t' chain position =>
      rw [apply] at h
      split at h
      · rename_i rest hrest
        obtain rfl := Except.ok.inj h
        exact .inl (hset (eraseNth_sublist hrest))
      · cases h
  | persist call =>
      obtain rfl := Except.ok.inj h
      exact .inl (List.Sublist.refl _)

/-- Commands that append only rule lines leave rules that can be listed. -/
theorem HoldsRules.reaches (hw : w.HoldsRules) (hc : ∀ t rule, .append t rule ∈ cs → IsRuleLine rule)
    (h : w.Reaches cs v) : v.HoldsRules := by
  induction cs generalizing w with
  | nil =>
      rw [HoldsRules, h.slots_of_nil]
      exact hw
  | cons c cs ih =>
      obtain ⟨m, hm, h⟩ := h.cons
      refine ih (fun t s hs => ?_) (fun t rule hmem => hc t rule (List.mem_cons_of_mem _ hmem)) h
      obtain ⟨-, u, hu, rfl⟩ := run_eq_ok.mp hm
      rcases slots_of_apply hu t with hsub | ⟨rule, chain, rfl, hchain, hslots⟩
      · exact hw t s (hsub.subset hs)
      · rw [show u.slots t = _ from hslots, List.mem_append, List.mem_singleton] at hs
        rcases hs with hs | rfl
        · exact hw t s hs
        · exact ⟨hc t rule List.mem_cons_self, hchain⟩

end Firewall

end PacketFilter
