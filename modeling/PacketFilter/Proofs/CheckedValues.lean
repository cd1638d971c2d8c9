import PacketFilter.Proofs.RuleWords
import PacketFilter.Spec.Compile

/-! # Checked values as words

What a check accepts can stand in rule text. Most values are operands: letters, digits and a few marks, of
which none is a dash, so that they are single words and never taken for flags. Names of interfaces are at least
single words. -/

namespace PacketFilter

/-! ### Operands -/

def isOperandChar (c : Char) : Bool :=
  c.isAlphanum || c == '.' || c == '/' || c == ',' || c == ':' || c == '+'

/-- A value that is one word and does not begin like a flag. -/
def IsOperand (s : String) : Prop :=
  s.toList ≠ [] ∧ ∀ c ∈ s.toList, isOperandChar c = true

instance (s : String) : Decidable (IsOperand s) :=
  decidable_of_decidable_of_iff (p := s.toList ≠ [] ∧ s.toList.all isOperandChar = true) (by simp [IsOperand])

theorem isOperandChar_of_isDigit {c : Char} (h : c.isDigit = true) : isOperandChar c = true := by
  simp [isOperandChar, Char.isAlphanum, h]

theorem isAlphanum_ink {c : Char} (h : c.isAlphanum = true) : Text.isBlank c = false ∧ c ≠ '"' := by
  refine ⟨Word.isBlank_of_isAlphanum h, ?_⟩
  rintro rfl
  cases h

namespace IsOperand

variable {s : String}

theorem isToken (h : IsOperand s) : IsToken s := by
  refine ⟨h.1, fun c hc => ?_⟩
  have := h.2 c hc
  simp only [isOperandChar, Bool.or_eq_true, beq_iff_eq] at this
  rcases this with ((((h | rfl) | rfl) | rfl) | rfl) | rfl
  · exact isAlphanum_ink h
  all_goals decide

theorem head?_ne (h : IsOperand s) : s.toList.head? ≠ some '-' := by
  intro hd
  have := h.2 _ (List.mem_of_head? hd)
  revert this
  decide

theorem append {t : String} (h : IsOperand s) (ht : IsOperand t) : IsOperand (s ++ t) := by
  constructor
  · rw [String.toList_append]
    exact List.append_ne_nil_of_left_ne_nil h.1 _
  · intro c hc
    rw [String.toList_append, List.mem_append] at hc
    exact hc.elim (h.2 c) (ht.2 c)

theorem intercalate {sep : String} {ps : List String} (hne : ps ≠ []) (h : ∀ p ∈ ps, IsOperand p)
    (hsep : IsOperand sep) : IsOperand (sep.intercalate ps) := by
  induction ps with
  | nil => exact absurd rfl hne
  | cons p ps ih =>
      cases ps with
      | nil => simpa using h p List.mem_cons_self
      | cons q qs =>
          have hrest := ih (List.cons_ne_nil q qs) fun r hr => h r (List.mem_cons_of_mem _ hr)
          rw [String.intercalate_cons_cons, String.append_assoc]
          exact (h p List.mem_cons_self).append (hsep.append hrest)

end IsOperand

/-! ### Numbers and addresses -/

theorem isOperandChar_of_isNumeral {cs : List Char} (h : Text.Decimal.isNumeral cs = true) :
    cs ≠ [] ∧ ∀ c ∈ cs, isOperandChar c = true := by
  simp only [Text.Decimal.isNumeral, Bool.and_eq_true, Bool.not_eq_true', List.isEmpty_eq_false_iff,
    List.all_eq_true] at h
  exact ⟨h.1, fun c hc => isOperandChar_of_isDigit (h.2 c hc)⟩

theorem isOperand_toString (n : Nat) : IsOperand (toString n) :=
  isOperandChar_of_isNumeral (Text.Decimal.isNumeral_toString n)

theorem isOperand_toText (x : Address) : IsOperand x.toText := by
  refine IsOperand.intercalate (by simp [Address.octets]) (fun p hp => ?_) (by decide)
  obtain ⟨n, -, rfl⟩ := List.mem_map.mp hp
  exact isOperand_toString n

theorem isOperand_render (mode : AddressMode) (n : Network) : IsOperand (n.render mode) := by
  have hslash : ∀ t : String, IsOperand t → IsOperand (n.address.toText ++ "/" ++ t) := fun t ht =>
    ((isOperand_toText n.address).append (by decide)).append ht
  cases mode with
  | cidr => exact hslash _ (isOperand_toString _)
  | legacy =>
      rw [Network.render]
      split
      · exact isOperand_toText _
      · exact hslash _ (isOperand_toText _)

/-- The one text of an address or network is an operand. -/
theorem isOperand_of_normalize {resolve : Resolver} {mode : AddressMode} {value text : String}
    (h : normalize resolve mode value = .ok text) : IsOperand text := by
  rw [normalize] at h
  cases hn : networkOf resolve value with
  | error e =>
      rw [hn] at h
      cases h
  | ok n =>
      rw [hn] at h
      cases h
      exact isOperand_render mode n

/-! ### Values of matches -/

theorem bind_eq_ok {ε α β : Type} {x : Except ε α} {f : α → Except ε β} {b : β} :
    (x >>= f) = .ok b ↔ ∃ a, x = .ok a ∧ f a = .ok b := by
  cases x <;> simp [bind, Except.bind]

theorem mapM_eq_ok_iff {ε α β : Type} {f : α → Except ε β} {xs : List α} {ys : List β} :
    xs.mapM f = .ok ys ↔ List.Forall₂ (fun x y => f x = .ok y) xs ys := by
  induction xs generalizing ys with
  | nil =>
      rw [List.mapM_nil, List.forall₂_nil_left_iff]
      exact ⟨fun h => (Except.ok.inj h).symm, fun h => congrArg Except.ok h.symm⟩
  | cons x xs ih =>
      simp only [List.mapM_cons, bind_eq_ok, ih, List.forall₂_cons_left_iff, pure, Except.pure, Except.ok.injEq]
      constructor
      · rintro ⟨y, hy, zs, hzs, rfl⟩
        exact ⟨y, zs, hy, hzs, rfl⟩
      · rintro ⟨y, zs, hy, hzs, rfl⟩
        exact ⟨y, hy, zs, hzs, rfl⟩

theorem exists_unit_iff {p : Unit → Prop} : (∃ u, p u) ↔ p () :=
  ⟨fun ⟨(), h⟩ => h, fun h => ⟨(), h⟩⟩

theorem isOperandChar_of_portNumber {entry : String} {cs : List Char} {n : Nat}
    (h : Check.portNumber entry cs = .ok n) : cs ≠ [] ∧ ∀ c ∈ cs, isOperandChar c = true := by
  rw [Check.portNumber] at h
  split at h
  · rename_i m hm
    have hd := isOperandChar_of_isNumeral (Text.Decimal.readBounded?_eq_some_iff.mp hm).1
    unfold Text.Decimal.unsigned at hd
    split at hd
    · exact ⟨List.cons_ne_nil _ _, List.forall_mem_cons.mpr ⟨by decide, hd.2⟩⟩
    · exact hd
  · cases h

theorem isOperand_of_portEntry {entry : String} (h : Check.portEntry entry = .ok ()) : IsOperand entry := by
  rw [Check.portEntry] at h
  split at h
  · rename_i first last hcut
    simp only [bind_eq_ok] at h
    obtain ⟨m, hm, n, hn, -⟩ := h
    obtain ⟨ht, -⟩ := Text.cutList_eq_some_iff.mp hcut
    rw [IsOperand, ht]
    refine ⟨List.append_ne_nil_of_right_ne_nil _ (List.cons_ne_nil _ _), fun c hc => ?_⟩
    rcases List.mem_append.mp hc with hc | hc
    · exact (isOperandChar_of_portNumber hm).2 c hc
    · exact List.forall_mem_cons.mpr ⟨by decide, (isOperandChar_of_portNumber hn).2⟩ c hc
  · simp only [bind_eq_ok] at h
    obtain ⟨n, hn, -⟩ := h
    exact isOperandChar_of_portNumber hn

theorem isOperand_of_code? {s code : String} (h : Icmp.code? s = some code) : IsOperand code := by
  have hnumber : ∀ cs, Icmp.isNumber cs = true → cs ≠ [] ∧ ∀ c ∈ cs, isOperandChar c = true := by
    intro cs hcs
    rw [Icmp.isNumber, Bool.and_eq_true] at hcs
    exact isOperandChar_of_isNumeral hcs.1
  have hnames : ∀ entry ∈ Icmp.names, IsOperand entry.2 := by decide
  rw [Icmp.code?] at h
  split at h
  · rename_i hn
    cases h
    rw [Icmp.isNumeric] at hn
    split at hn
    · exact hnumber _ hn
    · rename_i type code' hcut
      obtain ⟨ht, -⟩ := Text.cutList_eq_some_iff.mp hcut
      rw [Bool.and_eq_true] at hn
      rw [IsOperand, ht]
      refine ⟨List.append_ne_nil_of_right_ne_nil _ (List.cons_ne_nil _ _), fun c hc => ?_⟩
      rcases List.mem_append.mp hc with hc | hc
      · exact (hnumber _ hn.1).2 c hc
      · exact List.forall_mem_cons.mpr ⟨by decide, (hnumber _ hn.2).2⟩ c hc
  · obtain ⟨entry, hentry, rfl⟩ := Option.map_eq_some_iff.mp h
    exact hnames _ (List.mem_of_find?_eq_some hentry)

theorem isOperand_of_states {ss states : List String} (hne : ss ≠ []) (h : Check.states ss = .ok states) :
    IsOperand (",".intercalate states) := by
  have hknown : ∀ t ∈ connectionStates, IsOperand t := by decide
  simp only [Check.states, bind_eq_ok, require_eq_ok_iff, pure, Except.pure, Except.ok.injEq] at h
  obtain ⟨-, hall, rfl⟩ := h
  refine IsOperand.intercalate ?_ (fun p hp => hknown p (List.mem_filter.mp hp).1) (by decide)
  obtain ⟨t, ts, rfl⟩ := List.exists_cons_of_ne_nil hne
  have ht : t ∈ connectionStates := by
    simpa using List.all_eq_true.mp hall t List.mem_cons_self
  exact List.ne_nil_of_mem (List.mem_filter.mpr ⟨ht, by simp⟩)

/-! ### Tokens and quoted values -/

theorem isToken_of_interface {s : String} (h : Check.interface s = .ok ()) : IsToken s := by
  simp only [Check.interface, bind_eq_ok, require_eq_ok_iff, List.all_eq_true] at h
  obtain ⟨-, hne, -, -, -, -, hstem⟩ := h
  refine ⟨by simpa using hne, fun c hc => ?_⟩
  have hmem : c ∈ Check.interfaceStem s ∨ c = '+' := by
    rw [Check.interfaceStem]
    split
    · rename_i hlast
      obtain ⟨cs, hcs⟩ := List.getLast?_eq_some_iff.mp hlast
      rw [hcs, List.mem_append, List.mem_singleton] at hc
      rwa [hcs, List.dropLast_concat]
    · exact .inl hc
  rcases hmem with hmem | rfl
  · have := hstem c hmem
    simp only [Check.isAlphanumeric, Bool.or_eq_true, beq_iff_eq] at this
    rcases this with ((h | rfl) | rfl) | rfl
    · exact isAlphanum_ink h
    all_goals decide
  · decide

theorem mem_of_mem_fitting {room : Nat} {cs : List Char} {c : Char} (h : c ∈ Spec.fitting room cs) : c ∈ cs := by
  fun_induction Spec.fitting room cs <;> simp_all
  rcases h with rfl | h <;> simp_all

theorem escape_eq_self {cs : List Char} (h : ∀ c ∈ cs, c ≠ '"' ∧ c ≠ '\\') : Word.escape cs = cs := by
  induction cs with
  | nil => rfl
  | cons c cs ih =>
      obtain ⟨hq, hb⟩ := h c List.mem_cons_self
      rw [Word.escape, if_neg (by simp [hq, hb]), ih fun d hd => h d (List.mem_cons_of_mem _ hd)]

/-- What a log prefix is cut to, with the colon and the space behind it. -/
def Spec.keptPrefix (s : String) : String :=
  String.ofList (Spec.fitting Spec.maxLogPrefix s.toList ++ [':', ' '])

/-- A log prefix that is accepted holds nothing that quotes would change. -/
theorem logPrefixValue_eq_quote {s : String} (h : Check.logPrefix s = .ok ()) :
    Spec.logPrefixValue s = Word.quote (Spec.keptPrefix s) ∧ '\n' ∉ (Spec.keptPrefix s).toList := by
  simp only [Check.logPrefix, require_eq_ok_iff, Bool.not_eq_true', List.any_eq_false, Bool.or_eq_true,
    beq_iff_eq, not_or] at h
  have hkept : ∀ c ∈ Spec.fitting Spec.maxLogPrefix s.toList ++ [':', ' '],
      Text.isControl c = false ∧ c ≠ '"' ∧ c ≠ '\\' := by
    intro c hc
    rcases List.mem_append.mp hc with hc | hc
    · obtain ⟨⟨hctl, hq⟩, hb⟩ := h c (mem_of_mem_fitting hc)
      exact ⟨by simpa using hctl, hq, hb⟩
    · rcases List.mem_cons.mp hc with rfl | hc
      · decide
      · rw [List.mem_singleton.mp hc]
        decide
  constructor
  · rw [← String.toList_inj, Word.quote, Spec.keptPrefix, String.toList_ofList, String.toList_ofList,
      escape_eq_self fun c hc => (hkept c hc).2]
    simp [Spec.logPrefixValue]
  · rw [Spec.keptPrefix, String.toList_ofList]
    intro hn
    have := (hkept _ hn).1
    revert this
    decide

end PacketFilter
