import PacketFilter.Address.Host
import PacketFilter.Proofs.TextLines

/-! # Reading written addresses

What is written for an address or a network is read as the same address (`Address.ofText?_toText`) and the same
network (`listedNetwork_render`). So the one text of a value of a rule is also its own text in a listing
(`normalizeListed_of_normalize`). -/

namespace PacketFilter

namespace Address

theorem octet?_toString : ∀ n : Fin 256, octet? (toString n.val).toList = some n := by
  decide +kernel

theorem exists_octets (x : Address) :
    ∃ a b c d : Fin 256, x.octets = [a.val, b.val, c.val, d.val] ∧ ofOctets a b c d = x := by
  have hlt := x.toNat_lt
  refine ⟨⟨x.toNat / 16777216, by omega⟩, ⟨x.toNat / 65536 % 256, by omega⟩, ⟨x.toNat / 256 % 256, by omega⟩,
    ⟨x.toNat % 256, by omega⟩, rfl, ?_⟩
  obtain ⟨n, hn⟩ := x
  simp only [ofOctets, Address.mk.injEq]
  omega

theorem toList_toText {x : Address} {a b c d : Nat} (h : x.octets = [a, b, c, d]) :
    x.toText.toList = (toString a).toList ++ '.' :: ((toString b).toList ++ '.' ::
      ((toString c).toList ++ '.' :: (toString d).toList)) := by
  simp [toText, h]

theorem isDigit_or_of_mem_toText {x : Address} {c : Char} (h : c ∈ x.toText.toList) :
    c.isDigit = true ∨ c = '.' := by
  obtain ⟨a, b, d, e, hoctets, -⟩ := x.exists_octets
  rw [toList_toText hoctets] at h
  simp only [List.mem_append, List.mem_cons] at h
  rcases h with h | h | h | h | h | h | h
  all_goals first | exact .inr h | exact .inl (Text.Decimal.isDigit_of_mem_toString h)

theorem slash_not_mem_toText (x : Address) : '/' ∉ x.toText.toList := by
  intro h
  rcases isDigit_or_of_mem_toText h with h | h <;> cases h

theorem dot_mem_toText (x : Address) : '.' ∈ x.toText.toList := by
  obtain ⟨a, b, d, e, hoctets, -⟩ := x.exists_octets
  rw [toList_toText hoctets]
  simp

theorem ofText?_toText (x : Address) : ofText? x.toText = some x := by
  obtain ⟨a, b, c, d, hoctets, hx⟩ := x.exists_octets
  have hdigits : ∀ n : Nat, ∀ e ∈ (toString n).toList, (e == '.') = false := by
    intro n e he
    rw [beq_eq_false_iff_ne]
    rintro rfl
    exact Text.Decimal.not_mem_toString rfl n he
  have hsplit : Text.splitAt (· == '.') x.toText.toList =
      [(toString a.val).toList, (toString b.val).toList, (toString c.val).toList, (toString d.val).toList] := by
    rw [toList_toText hoctets, Text.splitAt_append (hdigits a) rfl, Text.splitAt_append (hdigits b) rfl,
      Text.splitAt_append (hdigits c) rfl, Text.splitAt_of_forall (hdigits d)]
  rw [ofText?, hsplit]
  simp only [octet?_toString, bind, Option.bind, pure]
  rw [hx]

end Address

namespace Network

theorem around_address (n : Network) : around n.address n.length n.length_le = n := by
  obtain ⟨⟨x, hx⟩, length, hle, haligned⟩ := n
  have hblock : x / blockSize length * blockSize length = x :=
    Nat.div_mul_cancel (Nat.dvd_of_mod_eq_zero haligned)
  simp only [around, hblock]

theorem host_address {n : Network} (h : n.length = 32) : host n.address = n := by
  obtain ⟨x, length, hle, haligned⟩ := n
  obtain rfl : length = 32 := h
  exact around_address ⟨x, 32, hle, haligned⟩

theorem maskLength?_netmask {n : Nat} (h : n ≤ 32) :
    maskLength? ⟨netmask n, netmask_lt n⟩ = some n := by
  have hall : ∀ m : Fin 33, maskLength? ⟨netmask m.val, netmask_lt m.val⟩ = some m.val := by
    decide
  exact hall ⟨n, Nat.lt_succ_of_le h⟩

theorem maskBits?_toString (value : String) {n : Nat} (h : n ≤ 32) :
    maskBits? value (toString n) = .ok ⟨n, h⟩ := by
  have hdot : '.' ∉ (toString n).toList := Text.Decimal.not_mem_toString rfl n
  rw [maskBits?, if_neg (by simpa using hdot), Text.Decimal.readBounded?_toString (by omega)]
  exact dif_pos h

theorem maskBits?_netmask (value : String) {n : Nat} (h : n ≤ 32) :
    maskBits? value (Address.mk (netmask n) (netmask_lt n)).toText = .ok ⟨n, h⟩ := by
  rw [maskBits?, if_pos (by simpa using Address.dot_mem_toText _), Address.ofText?_toText]
  dsimp only
  split
  · rename_i hnone
    rw [maskLength?_netmask h] at hnone
    cases hnone
  · rename_i m hm
    rw [maskLength?_netmask h, Option.some_inj] at hm
    simp only [hm]

theorem ofText?_append {n : Network} {mask : String}
    (h : ∀ value, maskBits? value mask = .ok ⟨n.length, n.length_le⟩) :
    ofText? (n.address.toText ++ "/" ++ mask) = .ok n := by
  have hcut : Text.cut '/' (n.address.toText ++ "/" ++ mask) = some (n.address.toText, mask) :=
    Text.cut_eq_some_iff.mpr ⟨rfl, n.address.slash_not_mem_toText⟩
  rw [ofText?, hcut]
  dsimp only
  rw [Address.ofText?_toText, h]
  exact congrArg Except.ok n.around_address

/-- What is written for a network is a network with its mask, or the dotted quad of a single address. -/
theorem render_cases (mode : AddressMode) (n : Network) :
    ((n.render mode).toList.contains '/' = true ∧ ofText? (n.render mode) = .ok n) ∨
      ((n.render mode).toList.contains '/' = false ∧ Address.ofText? (n.render mode) = some n.address ∧
        host n.address = n) := by
  have hslash : ∀ mask : String, (n.address.toText ++ "/" ++ mask).toList.contains '/' = true := by
    simp
  cases mode with
  | cidr => exact .inl ⟨hslash _, ofText?_append fun _ => maskBits?_toString _ n.length_le⟩
  | legacy =>
      rw [render]
      split
      · rename_i h
        exact .inr ⟨by simpa using n.address.slash_not_mem_toText, Address.ofText?_toText _, host_address h⟩
      · exact .inl ⟨hslash _, ofText?_append fun _ => maskBits?_netmask _ n.length_le⟩

end Network

theorem listedNetwork_render (mode : AddressMode) (n : Network) : listedNetwork (n.render mode) = .ok n := by
  rw [listedNetwork]
  rcases n.render_cases mode with ⟨hslash, h⟩ | ⟨hslash, h, hhost⟩
  · rw [if_pos hslash, h]
  · rw [if_neg (by simpa using hslash), h]
    exact congrArg Except.ok hhost

/-- The one text of a value of a rule is its own text in a listing. -/
theorem normalizeListed_of_normalize {resolve : Resolver} {mode : AddressMode} {value text : String}
    (h : normalize resolve mode value = .ok text) : normalizeListed mode text = .ok text := by
  rw [normalize] at h
  cases hn : networkOf resolve value with
  | error e =>
      rw [hn] at h
      cases h
  | ok n =>
      rw [hn] at h
      cases h
      rw [normalizeListed, listedNetwork_render]
      rfl

end PacketFilter
