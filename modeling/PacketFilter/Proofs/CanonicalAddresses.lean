import PacketFilter.Proofs.NetworkText

/-! # The one text of a network

A value of a rule stands for a network (`Denotes`), and the text it is given is what is written for that network. So
values have the same text exactly if they stand for the same network, the text is its own text, in rules and in
listings, and it can be read again to be written in the other form (`normalize_canonical`). -/

namespace PacketFilter

/-- The network that a value of a rule stands for. A value with a slash writes a network, and one without a slash names
a single address: itself if it is a dotted quad, and otherwise the one that is found for it. -/
inductive Denotes (resolve : Resolver) : String → Network → Prop
  | network {value : String} {x : Address} {length : Nat} {n : Network} (text : IsNetworkText value x length)
      (network : n.IsAround x length) : Denotes resolve value n
  | address {x : Address} {n : Network} (network : n.IsAround x 32) : Denotes resolve x.toText n
  | host {name : String} {x : Address} {n : Network} (slash : '/' ∉ name.toList)
      (quad : ∀ y : Address, name ≠ y.toText) (found : resolve name = .found x) (network : n.IsAround x 32) :
      Denotes resolve name n

section Values

variable {resolve : Resolver} {mode : AddressMode} {value text : String} {n m : Network} {x : Address}

theorem Network.isAround_host_iff : n.IsAround x 32 ↔ n = .host x :=
  ⟨fun h => h.eq (Network.isAround_around x _), fun h => h ▸ Network.isAround_around x _⟩

theorem IsNetworkText.slash_mem {length : Nat} (h : IsNetworkText value x length) : '/' ∈ value.toList := by
  obtain ⟨mask, rfl, -⟩ := h.text
  simp

theorem map_eq_ok_iff {ε α β : Type} {f : α → β} {r : Except ε α} {b : β} :
    r.map f = .ok b ↔ ∃ a, r = .ok a ∧ f a = b := by
  cases r <;> simp [Except.map]

theorem hostAddress_eq_ok_iff :
    hostAddress resolve value = .ok x ↔
      value = x.toText ∨ (∀ y : Address, value ≠ y.toText) ∧ resolve value = .found x := by
  unfold hostAddress
  split
  · rename_i y hy
    have hquad := Address.ofText?_eq_some_iff.mp hy
    rw [Except.ok.injEq, ← Address.ofText?_eq_some_iff, hy, Option.some.injEq]
    exact (or_iff_left fun h => h.1 y hquad).symm
  · rename_i hnone
    have hquad : ∀ y : Address, value ≠ y.toText := by
      intro y hy
      rw [Address.ofText?_eq_some_iff.mpr hy] at hnone
      cases hnone
    rw [or_iff_right (hquad x), and_iff_right hquad]
    cases resolve value <;> simp

/-- What is read for a value is the network that the value stands for. -/
theorem networkOf_eq_ok_iff : networkOf resolve value = .ok n ↔ Denotes resolve value n := by
  unfold networkOf
  split
  · rename_i hslash
    rw [List.contains_iff_mem] at hslash
    rw [Network.ofText?_eq_ok_iff]
    constructor
    · rintro ⟨x, length, htext, hn⟩
      exact .network htext hn
    · rintro (⟨htext, hn⟩ | hn | ⟨hno, -, -, -⟩)
      · exact ⟨_, _, htext, hn⟩
      · exact absurd hslash (Address.slash_not_mem_toText _)
      · exact absurd hslash hno
  · rename_i hslash
    rw [List.contains_iff_mem] at hslash
    simp only [map_eq_ok_iff, hostAddress_eq_ok_iff]
    constructor
    · rintro ⟨x, rfl | ⟨hquad, hfound⟩, rfl⟩
      · exact .address (Network.isAround_host_iff.mpr rfl)
      · exact .host hslash hquad hfound (Network.isAround_host_iff.mpr rfl)
    · rintro (⟨htext, -⟩ | hn | ⟨-, hquad, hfound, hn⟩)
      · exact absurd htext.slash_mem hslash
      · exact ⟨_, .inl rfl, (Network.isAround_host_iff.mp hn).symm⟩
      · exact ⟨_, .inr ⟨hquad, hfound⟩, (Network.isAround_host_iff.mp hn).symm⟩

theorem normalize_eq_ok_iff :
    normalize resolve mode value = .ok text ↔ ∃ n, Denotes resolve value n ∧ n.render mode = text := by
  simp only [normalize, map_eq_ok_iff, networkOf_eq_ok_iff]

theorem normalize_of_normalizeListed (h : normalizeListed mode value = .ok text) :
    normalize resolve mode value = .ok text := by
  obtain ⟨n, hn, rfl⟩ := map_eq_ok_iff.mp h
  refine map_eq_ok_iff.mpr ⟨n, ?_, rfl⟩
  unfold listedNetwork at hn
  unfold networkOf hostAddress
  split at hn
  · rename_i hslash
    rw [if_pos hslash, hn]
  · rename_i hslash
    rw [if_neg hslash]
    split at hn
    · rename_i x hx
      cases hn
      rfl
    · cases hn

/-- What is written for a network in one form is read as the network, and then written in the other form. -/
theorem normalizeListed_render (n : Network) (mode mode' : AddressMode) :
    normalizeListed mode' (n.render mode) = .ok (n.render mode') := by
  rw [normalizeListed, listedNetwork_render]
  rfl

theorem Network.render_inj : n.render mode = m.render mode ↔ n = m := by
  constructor
  · intro h
    have hread := listedNetwork_render mode n
    rw [h, listedNetwork_render] at hread
    exact (Except.ok.inj hread).symm
  · rintro rfl
    rfl

/-- The text of a value is its own text, in a rule and in a listing, and read with the other form it gives what is
written for the same network. A value of a listing has the same text in a rule. Values have the same text exactly if
they stand for the same network. -/
theorem normalize_canonical (resolve : Resolver) (mode mode' : AddressMode) (value : String) :
    (∀ text, normalize resolve mode value = .ok text →
        normalize resolve mode text = .ok text ∧ normalizeListed mode text = .ok text ∧
          ∃ n, Denotes resolve value n ∧ text = n.render mode ∧
            normalize resolve mode' text = .ok (n.render mode')) ∧
      (∀ text, normalizeListed mode value = .ok text → normalize resolve mode value = .ok text) ∧
      ∀ value', (∃ text, normalize resolve mode value = .ok text ∧ normalize resolve mode value' = .ok text) ↔
        ∃ n, Denotes resolve value n ∧ Denotes resolve value' n := by
  refine ⟨fun text h => ?_, fun text => normalize_of_normalizeListed, fun value' => ?_⟩
  · obtain ⟨n, hn, rfl⟩ := normalize_eq_ok_iff.mp h
    have hlisted := normalizeListed_render n mode mode
    have hother := normalizeListed_render n mode mode'
    exact ⟨normalize_of_normalizeListed hlisted, hlisted, n, hn, rfl, normalize_of_normalizeListed hother⟩
  · simp only [normalize_eq_ok_iff]
    constructor
    · rintro ⟨_, ⟨n, hn, rfl⟩, m, hm, htext⟩
      exact ⟨n, hn, Network.render_inj.mp htext ▸ hm⟩
    · rintro ⟨n, hn, hn'⟩
      exact ⟨n.render mode, ⟨n, hn, rfl⟩, n, hn', rfl⟩

/-- A host written as a network, in the form without lengths: its text is a dotted quad, which is a network of one
address in the other form. -/
theorem normalize_canonical_host :
    normalize .literal .legacy "10.0.0.1/255.255.255.255" = .ok "10.0.0.1" ∧
      normalize .literal .legacy "10.0.0.1" = .ok "10.0.0.1" ∧ normalizeListed .legacy "10.0.0.1" = .ok "10.0.0.1" ∧
      ∃ n, Denotes .literal "10.0.0.1/255.255.255.255" n ∧ Denotes .literal "10.0.0.1" n ∧
        n.render .legacy = "10.0.0.1" ∧ normalize .literal .cidr "10.0.0.1" = .ok (n.render .cidr) := by
  have hmasked : normalize .literal .legacy "10.0.0.1/255.255.255.255" = .ok "10.0.0.1" := by decide +kernel
  obtain ⟨htext, -, hsame⟩ := normalize_canonical .literal .legacy .cidr "10.0.0.1/255.255.255.255"
  obtain ⟨hrule, hlisted, n, hn, hrender, hother⟩ := htext _ hmasked
  obtain ⟨m, hm, hm'⟩ := (hsame "10.0.0.1").mp ⟨_, hmasked, hrule⟩
  have hread : networkOf .literal "10.0.0.1/255.255.255.255" = .ok m := networkOf_eq_ok_iff.mpr hm
  obtain rfl : n = m := Except.ok.inj ((networkOf_eq_ok_iff.mpr hn).symm.trans hread)
  exact ⟨hmasked, hrule, hlisted, n, hn, hm', hrender.symm, hother⟩

end Values

end PacketFilter
