import PacketFilter.Failure
import PacketFilter.Proofs.AcceptedClauses
import PacketFilter.Proofs.AddressText

/-! # Texts that are read as addresses and networks

An address is read from its dotted quad and from no other text (`Address.ofText?_eq_some_iff`). A netmask is an address
whose bits are ones at the front and zeros behind (`Address.IsNetmask`), and the network of an address has its first
bits and zeros behind (`Network.IsAround`). With these, `Network.ofText?_accepts_iff` says which texts are read as
networks, and as which. -/

namespace PacketFilter

namespace Text

theorem intercalate_splitAt (c : Char) (cs : List Char) : [c].intercalate (splitAt (· == c) cs) = cs := by
  induction cs with
  | nil => rfl
  | cons d cs ih =>
      rw [splitAt]
      cases hs : splitAt (· == c) cs with
      | nil => exact absurd hs (splitAt_ne_nil _ cs)
      | cons piece pieces =>
          rw [hs] at ih
          split
          · rename_i hd
            rw [List.intercalate_cons_cons, ih, beq_iff_eq.mp hd]
            rfl
          · cases pieces with
            | nil => simpa using ih
            | cons q qs =>
                rw [List.intercalate_cons_cons] at ih ⊢
                rw [List.cons_append, List.cons_append, ih]

end Text

namespace Address

theorem octet?_eq_some_iff {cs : List Char} {n : Fin 256} : octet? cs = some n ↔ cs = (toString n.val).toList := by
  constructor
  · intro h
    unfold octet? at h
    split at h
    · rename_i hform
      split at h
      · cases h
        simp only [Bool.and_eq_true, Bool.or_eq_true, decide_eq_true_eq, beq_iff_eq, bne_iff_ne] at hform
        exact (Text.Decimal.toList_toString_value hform.1.1 hform.2).symm
      · cases h
    · cases h
  · rintro rfl
    exact octet?_toString n

theorem octets_ofOctets (a b c d : Fin 256) : (ofOctets a b c d).octets = [a.val, b.val, c.val, d.val] := by
  have := a.isLt
  have := b.isLt
  have := c.isLt
  have := d.isLt
  simp only [octets, ofOctets, List.cons.injEq, and_true]
  omega

theorem ofText?_eq_some_iff {s : String} {x : Address} : ofText? s = some x ↔ s = x.toText := by
  constructor
  · intro h
    unfold ofText? at h
    split at h
    · rename_i p q r t hsplit
      simp only [bind, Option.bind_eq_some_iff, pure, Option.some.injEq, octet?_eq_some_iff] at h
      obtain ⟨a, rfl, b, rfl, c, rfl, d, rfl, rfl⟩ := h
      have hs := Text.intercalate_splitAt '.' s.toList
      rw [hsplit] at hs
      rw [← String.toList_inj, toList_toText (octets_ofOctets a b c d), ← hs]
      simp [List.intercalate]
    · cases h
  · rintro rfl
    exact ofText?_toText x

/-! ### Bits -/

theorem eq_of_testBit {x y : Address} (h : ∀ i < 32, x.toNat.testBit i = y.toNat.testBit i) : x = y := by
  obtain ⟨x, hx⟩ := x
  obtain ⟨y, hy⟩ := y
  have hbits : x = y := by
    apply Nat.eq_of_testBit_eq
    intro i
    by_cases hi : i < 32
    · exact h i hi
    · have hpow : 2 ^ 32 ≤ 2 ^ i := Nat.pow_le_pow_right (by decide) (Nat.le_of_not_lt hi)
      rw [Nat.testBit_lt_two_pow (Nat.lt_of_lt_of_le hx hpow), Nat.testBit_lt_two_pow (Nat.lt_of_lt_of_le hy hpow)]
  simp only [hbits]

/-- The first `length` of the 32 bits are ones and all others are zeros. Bit 0 is the last one. -/
def IsNetmask (x : Address) (length : Nat) : Prop :=
  ∀ i < 32, x.toNat.testBit i = decide (32 - length ≤ i)

/-! ### Leading ones -/

def word (x : Address) : BitVec 32 := .ofNatLT x.toNat x.toNat_lt

/-- The number of one bits at the front of an address: these are the zero bits at the front of its complement. -/
def leadingOnes (x : Address) : Nat :=
  (~~~x.word).clz.toNat

theorem leadingOnes_le (x : Address) : x.leadingOnes ≤ 32 :=
  BitVec.clz_le (x := ~~~x.word)

theorem getLsbD_not_word (x : Address) {i : Nat} (hi : i < 32) :
    (~~~x.word).getLsbD i = ! x.toNat.testBit i := by
  rw [BitVec.getLsbD_not, decide_eq_true hi, Bool.true_and]
  rfl

theorem testBit_of_leadingOnes (x : Address) {i : Nat} (hi : i < 32) (h : 32 - x.leadingOnes ≤ i) :
    x.toNat.testBit i = true := by
  have hlt : (~~~x.word).toNat < 2 ^ i :=
    Nat.lt_of_lt_of_le BitVec.toNat_lt_two_pow_sub_clz (Nat.pow_le_pow_right (by decide) h)
  have hzero : (~~~x.word).getLsbD i = false := Nat.testBit_lt_two_pow hlt
  rw [getLsbD_not_word x hi] at hzero
  simpa using hzero

theorem testBit_leadingOnes (x : Address) (h : x.leadingOnes < 32) :
    x.toNat.testBit (31 - x.leadingOnes) = false := by
  have hne : ~~~x.word ≠ 0#32 := BitVec.clz_lt_iff_ne_zero.mp h
  have hone : (~~~x.word).getLsbD (31 - x.leadingOnes) = true :=
    BitVec.getLsbD_true_clz_of_ne_zero (by decide) hne
  rw [getLsbD_not_word x (by omega)] at hone
  simpa using hone

theorem leadingOnes_eq {x : Address} {length : Nat} (h : x.IsNetmask length) (hle : length ≤ 32) :
    x.leadingOnes = length := by
  have hones := leadingOnes_le x
  rcases Nat.lt_trichotomy x.leadingOnes length with hlt | heq | hgt
  · have hbit := h (31 - x.leadingOnes) (by omega)
    rw [testBit_leadingOnes x (by omega), eq_comm, decide_eq_false_iff_not] at hbit
    omega
  · exact heq
  · have hbit := h (31 - length) (by omega)
    rw [testBit_of_leadingOnes x (by omega) (by omega), eq_comm, decide_eq_true_iff] at hbit
    omega

/-- The leading ones are a netmask exactly if nothing is left when they are shifted out. -/
theorem isNetmask_leadingOnes_iff (x : Address) :
    x.IsNetmask x.leadingOnes ↔ x.word <<< x.leadingOnes = 0#32 := by
  have hbits : ∀ i, (x.word <<< x.leadingOnes).getLsbD i =
      (decide (i < 32) && ! decide (i < x.leadingOnes) && x.toNat.testBit (i - x.leadingOnes)) :=
    fun i => BitVec.getLsbD_shiftLeft x.word _
  rw [BitVec.zero_iff_eq_false]
  constructor
  · intro h i
    rw [hbits]
    by_cases hi : i < 32 ∧ ¬ i < x.leadingOnes
    · rw [h _ (by omega)]
      simp
      omega
    · simp at hi ⊢
      omega
  · intro h i hi
    by_cases hi' : 32 - x.leadingOnes ≤ i
    · rw [testBit_of_leadingOnes x hi hi', decide_eq_true hi']
    · have hzero := h (i + x.leadingOnes)
      rw [hbits, Nat.add_sub_cancel] at hzero
      rw [decide_eq_false hi']
      simpa [show i + x.leadingOnes < 32 by omega] using hzero

end Address

namespace Network

/-! ### Netmasks and lengths -/

theorem testBit_netmask {length : Nat} (h : length ≤ 32) {i : Nat} (hi : i < 32) :
    (netmask length).testBit i = decide (32 - length ≤ i) := by
  have hmask : netmask length = 2 ^ (32 - length) * (2 ^ length - 1) := by
    have hpow : 2 ^ (32 - length) * 2 ^ length = 4294967296 := by
      rw [← Nat.pow_add, Nat.sub_add_cancel h]
    rw [Nat.mul_sub, hpow, Nat.mul_one]
    rfl
  rw [hmask, Nat.testBit_two_pow_mul, Nat.testBit_two_pow_sub_one, ← Bool.decide_and]
  apply decide_eq_decide.mpr
  omega

theorem maskLength?_eq_some_iff {mask : Address} {length : Nat} :
    maskLength? mask = some length ↔ length ≤ 32 ∧ mask.IsNetmask length := by
  constructor
  · intro h
    have hle := maskLength?_le h
    have hmask : netmask length = mask.toNat := by simpa using List.find?_some h
    exact ⟨hle, fun i hi => hmask ▸ testBit_netmask hle hi⟩
  · rintro ⟨hle, hmask⟩
    obtain rfl : mask = ⟨netmask length, netmask_lt length⟩ :=
      Address.eq_of_testBit fun i hi => (hmask i hi).trans (testBit_netmask hle hi).symm
    exact maskLength?_netmask hle

/-- The netmask is looked for among all netmasks. It comes to the same to count the one bits at the front, and to see
whether nothing is left when these are shifted out. -/
theorem maskLength?_eq_leadingOnes (mask : Address) :
    maskLength? mask = if mask.word <<< mask.leadingOnes = 0#32 then some (mask.leadingOnes) else none := by
  ext length
  rw [maskLength?_eq_some_iff]
  constructor
  · rintro ⟨hle, hmask⟩
    have hcount := Address.leadingOnes_eq hmask hle
    have hshift := (Address.isNetmask_leadingOnes_iff mask).mp (hcount.symm ▸ hmask)
    rw [if_pos hshift, hcount]
  · intro h
    split at h
    · rename_i hshift
      obtain rfl := Option.some.inj h
      exact ⟨mask.leadingOnes_le, (Address.isNetmask_leadingOnes_iff mask).mpr hshift⟩
    · cases h

/-- The network of the first `length` bits of an address: these are its bits, and behind them are zeros. -/
structure IsAround (n : Network) (x : Address) (length : Nat) : Prop where
  length_eq : n.length = length
  bits : ∀ i < 32, n.address.toNat.testBit i = (decide (32 - length ≤ i) && x.toNat.testBit i)

theorem isAround_around (x : Address) {length : Nat} (h : length ≤ 32) :
    (around x length h).IsAround x length where
  length_eq := rfl
  bits i hi := by
    have haddress : (around x length h).address.toNat = x.toNat / 2 ^ (32 - length) * 2 ^ (32 - length) := rfl
    rw [haddress, Nat.testBit_mul_two_pow, Nat.testBit_div_two_pow]
    by_cases hle : 32 - length ≤ i
    · rw [Nat.sub_add_cancel hle]
    · simp [hle]

theorem IsAround.eq {n m : Network} {x : Address} {length : Nat} (hn : n.IsAround x length)
    (hm : m.IsAround x length) : n = m := by
  have haddress : n.address = m.address :=
    Address.eq_of_testBit fun i hi => (hn.bits i hi).trans (hm.bits i hi).symm
  have hlength := hn.length_eq.trans hm.length_eq.symm
  cases n
  cases m
  simp only [Network.mk.injEq]
  exact ⟨haddress, hlength⟩

end Network

/-! ### Texts of networks -/

/-- Digits that write a number. Zeros may stand in front, and a plus sign in front of all digits. -/
def IsNumeralOf (s : String) (n : Nat) : Prop :=
  ∃ digits, (s = digits ∨ s = "+" ++ digits) ∧ IsDigits digits ∧ Text.Decimal.value digits.toList = n

theorem readBounded?_eq_some_iff_isNumeralOf {limit n : Nat} {s : String} :
    Text.Decimal.readBounded? limit s.toList = some n ↔ IsNumeralOf s n ∧ n ≤ limit := by
  rw [Text.Decimal.readBounded?_eq_some_iff, ← and_assoc]
  refine and_congr_left fun _ => ?_
  constructor
  · rintro ⟨hdigits, hvalue⟩
    have hs : s = String.ofList (Text.Decimal.unsigned s.toList) ∨
        s = "+" ++ String.ofList (Text.Decimal.unsigned s.toList) := by
      simp only [← String.toList_inj, String.toList_append, String.toList_ofList]
      unfold Text.Decimal.unsigned
      split
      · rename_i cs hcs
        exact .inr hcs
      · exact .inl rfl
    refine ⟨_, hs, isNumeral_iff_isDigits.mp ?_, ?_⟩
    · rwa [String.toList_ofList]
    · rwa [String.toList_ofList]
  · rintro ⟨digits, hs, hdigits, hvalue⟩
    have hunsigned : Text.Decimal.unsigned s.toList = digits.toList := by
      rcases hs with rfl | rfl
      · unfold Text.Decimal.unsigned
        split
        · rename_i cs hcs
          have := hdigits.2 '+' (hcs ▸ List.mem_cons_self)
          cases this
        · rfl
      · simp [Text.Decimal.unsigned]
    rw [hunsigned]
    exact ⟨isNumeral_iff_isDigits.mpr hdigits, hvalue⟩

theorem IsNumeralOf.dot_not_mem {s : String} {n : Nat} (h : IsNumeralOf s n) : '.' ∉ s.toList := by
  obtain ⟨digits, hs, hdigits, -⟩ := h
  have hdot : '.' ∉ digits.toList := by
    intro hc
    have := hdigits.2 _ hc
    cases this
  rcases hs with rfl | rfl
  · exact hdot
  · simpa using hdot

/-- What may stand behind the slash of a network for a length: the dotted quad of the netmask, or the length itself. -/
def IsMaskText (mask : String) (length : Nat) : Prop :=
  (∃ bits : Address, mask = bits.toText ∧ bits.IsNetmask length) ∨ IsNumeralOf mask length

/-- A text for the first `length` bits of an address: the dotted quad, which holds no slash, a slash and the mask. -/
structure IsNetworkText (value : String) (x : Address) (length : Nat) : Prop where
  text : ∃ mask, value = x.toText ++ "/" ++ mask ∧ IsMaskText mask length
  length_le : length ≤ 32

namespace Network

theorem maskBits?_eq_ok_iff {value mask : String} {bits : { n : Nat // n ≤ 32 }} :
    maskBits? value mask = .ok bits ↔ IsMaskText mask bits := by
  obtain ⟨length, hle⟩ := bits
  unfold maskBits? IsMaskText
  split
  · rename_i hdot
    have hnumeral : ¬ IsNumeralOf mask length := fun h => h.dot_not_mem (by simpa using hdot)
    rw [or_iff_left hnumeral]
    split
    · rename_i hnone
      simp only [reduceCtorEq, false_iff]
      rintro ⟨quad, hquad, -⟩
      rw [Address.ofText?_eq_some_iff.mpr hquad] at hnone
      cases hnone
    · rename_i quad hquad
      have hmask : (∃ bits : Address, mask = bits.toText ∧ bits.IsNetmask length) ↔
          maskLength? quad = some length := by
        simp only [← Address.ofText?_eq_some_iff, hquad, Option.some.injEq, exists_eq_left',
          maskLength?_eq_some_iff, hle, true_and]
      rw [hmask]
      split
      · rename_i hnone
        simp [hnone]
      · rename_i n hn
        simp [hn]
  · rename_i hdot
    have hquad : ¬ ∃ bits : Address, mask = bits.toText ∧ bits.IsNetmask length := by
      rintro ⟨quad, rfl, -⟩
      exact hdot (by simpa using quad.dot_mem_toText)
    have hnumeral : IsNumeralOf mask length ↔ Text.Decimal.readBounded? 255 mask.toList = some length := by
      rw [readBounded?_eq_some_iff_isNumeralOf]
      exact (and_iff_left (by omega)).symm
    rw [or_iff_right hquad, hnumeral]
    split
    · rename_i hnone
      simp [hnone]
    · rename_i n hn
      rw [hn]
      split
      · simp
      · rename_i hlong
        simp only [reduceCtorEq, Option.some.injEq, false_iff]
        rintro rfl
        exact hlong hle

/-- A network is read exactly from the texts that are written for an address and a length. -/
theorem ofText?_eq_ok_iff {value : String} {n : Network} :
    ofText? value = .ok n ↔ ∃ x length, IsNetworkText value x length ∧ n.IsAround x length := by
  constructor
  · intro h
    unfold ofText? at h
    split at h
    · cases h
    · rename_i address mask hcut
      split at h
      · cases h
      · rename_i x hx
        cases hbits : maskBits? value mask with
        | error e =>
            rw [hbits] at h
            cases h
        | ok bits =>
            rw [hbits] at h
            cases h
            obtain ⟨hvalue, -⟩ := Text.cut_eq_some_iff.mp hcut
            refine ⟨x, bits.val, ⟨⟨mask, ?_, maskBits?_eq_ok_iff.mp hbits⟩, bits.property⟩, isAround_around x _⟩
            rw [hvalue, Address.ofText?_eq_some_iff.mp hx]
            rfl
  · rintro ⟨x, length, ⟨⟨mask, rfl, hmask⟩, hle⟩, hn⟩
    have hcut : Text.cut '/' (x.toText ++ "/" ++ mask) = some (x.toText, mask) :=
      Text.cut_eq_some_iff.mpr ⟨rfl, x.slash_not_mem_toText⟩
    have hbits : maskBits? (x.toText ++ "/" ++ mask) mask = .ok ⟨length, hle⟩ := maskBits?_eq_ok_iff.mpr hmask
    unfold ofText?
    rw [hcut]
    dsimp only
    rw [Address.ofText?_toText, hbits]
    exact congrArg Except.ok ((isAround_around x hle).eq hn)

/-- A text names a network exactly if it is the dotted quad of an address, a slash, and a mask for one of the lengths 0
to 32. The network has that length; its address has the first bits of the one that is written, and zeros behind them.
Every other text is a failure of its format. The length of a netmask is the number of its leading ones, if nothing is
left when these are shifted out. -/
theorem ofText?_accepts_iff (value : String) :
    ((∃ n, ofText? value = .ok n) ↔ ∃ x length, IsNetworkText value x length) ∧
      (∀ x length, IsNetworkText value x length → ∃ n, ofText? value = .ok n ∧ n.IsAround x length) ∧
      ((¬ ∃ x length, IsNetworkText value x length) →
        ∃ e, ofText? value = .error e ∧ ∀ name, (CompileError.address e).failure name = .format e.message) ∧
      ∀ mask : Address, maskLength? mask =
        if mask.word <<< mask.leadingOnes = 0#32 then some mask.leadingOnes else none := by
  have hread : ∀ x length, IsNetworkText value x length → ∃ n, ofText? value = .ok n ∧ n.IsAround x length := by
    intro x length h
    have hn := isAround_around x h.length_le
    exact ⟨_, ofText?_eq_ok_iff.mpr ⟨x, length, h, hn⟩, hn⟩
  have haccepted : (∃ n, ofText? value = .ok n) ↔ ∃ x length, IsNetworkText value x length := by
    constructor
    · rintro ⟨n, h⟩
      obtain ⟨x, length, htext, -⟩ := ofText?_eq_ok_iff.mp h
      exact ⟨x, length, htext⟩
    · rintro ⟨x, length, htext⟩
      obtain ⟨n, h, -⟩ := hread x length htext
      exact ⟨n, h⟩
  refine ⟨haccepted, hread, fun hnone => ?_, maskLength?_eq_leadingOnes⟩
  cases h : ofText? value with
  | ok n => exact absurd (haccepted.mp ⟨n, h⟩) hnone
  | error e => exact ⟨e, rfl, fun _ => rfl⟩

instance (x : Address) (length : Nat) : Decidable (x.IsNetmask length) :=
  inferInstanceAs (Decidable (∀ i < 32, x.toNat.testBit i = decide (32 - length ≤ i)))

/-- A netmask and a length with a plus sign and a leading zero give the same network. Ones that do not all come first
are no netmask. -/
theorem ofText?_accepts_iff_masks :
    IsNetworkText "192.168.1.77/255.255.252.0" (.ofOctets 192 168 1 77) 22 ∧
      IsNetworkText "192.168.3.5/+022" (.ofOctets 192 168 3 5) 22 ∧
      (∃ n, ofText? "192.168.1.77/255.255.252.0" = .ok n ∧ ofText? "192.168.3.5/+022" = .ok n ∧ n.length = 22 ∧
        n.address = .ofOctets 192 168 0 0) ∧
      (¬ ∃ x length, IsNetworkText "10.0.0.0/255.0.255.0" x length) ∧
      ∃ e, ofText? "10.0.0.0/255.0.255.0" = .error e := by
  have hdotted : IsNetworkText "192.168.1.77/255.255.252.0" (.ofOctets 192 168 1 77) 22 :=
    ⟨⟨"255.255.252.0", by decide, .inl ⟨.ofOctets 255 255 252 0, by decide, by decide⟩⟩, by decide⟩
  have hdecimal : IsNetworkText "192.168.3.5/+022" (.ofOctets 192 168 3 5) 22 :=
    ⟨⟨"+022", by decide, .inr ⟨"022", .inr rfl, isNumeral_iff_isDigits.mp (by decide), by decide⟩⟩, by decide⟩
  obtain ⟨n, hn, haround⟩ := (ofText?_accepts_iff "192.168.1.77/255.255.252.0").2.1 _ _ hdotted
  obtain ⟨m, hm, haround'⟩ := (ofText?_accepts_iff "192.168.3.5/+022").2.1 _ _ hdecimal
  obtain ⟨hscattered, -, hrefused, -⟩ := ofText?_accepts_iff "10.0.0.0/255.0.255.0"
  -- the two addresses differ in their last ten bits only
  have hbits : ∀ i < 32, (decide (32 - 22 ≤ i) && (Address.ofOctets 192 168 3 5).toNat.testBit i) =
      (decide (32 - 22 ≤ i) && (Address.ofOctets 192 168 1 77).toNat.testBit i) := by
    decide
  obtain rfl : m = n :=
    IsAround.eq ⟨haround'.length_eq, fun i hi => (haround'.bits i hi).trans (hbits i hi)⟩ haround
  have haddress : m.address = .ofOctets 192 168 0 0 := by
    have hcleared : ∀ i < 32, (decide (32 - 22 ≤ i) && (Address.ofOctets 192 168 1 77).toNat.testBit i) =
        (Address.ofOctets 192 168 0 0).toNat.testBit i := by
      decide
    exact Address.eq_of_testBit fun i hi => (haround.bits i hi).trans (hcleared i hi)
  have hnone : ¬ ∃ x length, IsNetworkText "10.0.0.0/255.0.255.0" x length := by
    have herror : (ofText? "10.0.0.0/255.0.255.0").toOption = none := by decide
    rw [← hscattered]
    rintro ⟨k, hk⟩
    rw [hk] at herror
    cases herror
  obtain ⟨e, he, -⟩ := hrefused hnone
  exact ⟨hdotted, hdecimal, ⟨m, hn, hm, haround.length_eq, haddress⟩, hnone, e, he⟩

end Network
end PacketFilter
