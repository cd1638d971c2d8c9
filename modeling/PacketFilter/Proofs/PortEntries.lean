import PacketFilter.Proofs.NetworkText

/-! # Entries of ports

An entry is a port or a range of ports, and a listing writes their numbers in decimal. The check of an entry reads every
numeral, also one with a plus sign or with zeros in front, which a listing would write without them. So an entry that is
accepted stands in a rule text as a listing writes it exactly if its numbers begin plainly, and so do the ports of every
rule (`Check.portEntry_accepts_iff`, `Check.not_portEntry_accepts`). -/

namespace PacketFilter

/-! ### Numbers that begin plainly -/

/-- The marks between the numbers of ports. -/
def isPortMark (c : Char) : Bool :=
  c == ':' || c == ','

/-- No number of an entry, or of entries with commas between them, begins with a plus sign or a zero. -/
def BeginsPlainly (ports : String) : Prop :=
  ∀ number ∈ Text.splitAt isPortMark ports.toList, number.head? ≠ some '+' ∧ number.head? ≠ some '0'

instance (ports : String) : Decidable (BeginsPlainly ports) :=
  inferInstanceAs (Decidable (∀ number ∈ Text.splitAt isPortMark ports.toList,
    number.head? ≠ some '+' ∧ number.head? ≠ some '0'))

theorem beginsPlainly_append {mark s t : String} {c : Char} (hmark : mark.toList = [c]) (hc : isPortMark c = true) :
    BeginsPlainly (s ++ mark ++ t) ↔ BeginsPlainly s ∧ BeginsPlainly t := by
  have hpieces : Text.splitAt isPortMark (s ++ mark ++ t).toList =
      Text.splitAt isPortMark s.toList ++ Text.splitAt isPortMark t.toList := by
    rw [← Text.splitAt_append_cons s.toList hc, String.toList_append, String.toList_append, hmark,
      List.append_assoc, List.singleton_append]
  simp only [BeginsPlainly, hpieces, List.forall_mem_append]

theorem beginsPlainly_intercalate {entries : List String} :
    BeginsPlainly (",".intercalate entries) ↔ ∀ entry ∈ entries, BeginsPlainly entry := by
  induction entries with
  | nil => exact iff_of_true (by decide) (by simp)
  | cons entry entries ih =>
      cases entries with
      | nil => simp
      | cons next rest =>
          rw [String.intercalate_cons_cons, beginsPlainly_append (c := ',') (by decide) (by decide), ih]
          exact List.forall_mem_cons.symm

theorem IsNumeralOf.isPortMark_eq_false {s : String} {n : Nat} (h : IsNumeralOf s n) :
    ∀ c ∈ s.toList, isPortMark c = false := by
  obtain ⟨digits, hs, hdigits, -⟩ := h
  have hplain : ∀ c ∈ digits.toList, isPortMark c = false := by
    intro c hc
    have hdigit := hdigits.2 c hc
    have hne : c ≠ ':' ∧ c ≠ ',' := by
      constructor <;> rintro rfl <;> cases hdigit
    simp [isPortMark, hne]
  rcases hs with rfl | rfl
  · exact hplain
  · simpa [isPortMark] using hplain

theorem isNumeralOf_toString (n : Nat) : IsNumeralOf (toString n) n :=
  ⟨toString n, .inl rfl, isNumeral_iff_isDigits.mp (Text.Decimal.isNumeral_toString n), Text.Decimal.value_toString n⟩

/-- A numeral of a number that is not zero is its decimal form exactly if it begins plainly. -/
theorem IsNumeralOf.eq_toString_iff {s : String} {n : Nat} (h : IsNumeralOf s n) (hn : 0 < n) :
    s = toString n ↔ BeginsPlainly s := by
  have hpieces : BeginsPlainly s ↔ s.toList.head? ≠ some '+' ∧ s.toList.head? ≠ some '0' := by
    rw [BeginsPlainly, Text.splitAt_of_forall h.isPortMark_eq_false, List.forall_mem_singleton]
  rw [hpieces]
  obtain ⟨digits, hs, hdigits, hvalue⟩ := h
  constructor
  · rintro rfl
    refine ⟨fun hplus => ?_, Text.Decimal.head?_toString_ne hn⟩
    exact Text.Decimal.not_mem_toString rfl n (List.mem_of_head? hplus)
  · rintro ⟨hplus, hzero⟩
    rcases hs with rfl | rfl
    · have hdecimal := Text.Decimal.toList_toString_value (isNumeral_iff_isDigits.mpr hdigits) (.inr hzero)
      rw [hvalue] at hdecimal
      exact (String.toList_inj.mp hdecimal).symm
    · simp at hplus

/-! ### Entries -/

/-- A port, or an ascending range of ports with a colon between them; `writes` says which texts write a number. -/
def IsPortEntry (writes : String → Nat → Prop) (entry : String) : Prop :=
  (∃ n, writes entry n ∧ 1 ≤ n ∧ n ≤ 65535) ∨
    ∃ first last m n, entry = first ++ ":" ++ last ∧ writes first m ∧ writes last n ∧ 1 ≤ m ∧ m ≤ n ∧ n ≤ 65535

/-- A port entry as a listing writes it: its numbers are in decimal, without signs and leading zeros. -/
def IsListedEntry (entry : String) : Prop :=
  IsPortEntry (fun s n => s = toString n) entry

namespace Check

theorem portNumber_eq_ok_iff {entry s : String} {n : Nat} :
    portNumber entry s.toList = .ok n ↔ IsNumeralOf s n ∧ n ≤ 65535 := by
  rw [← readBounded?_eq_some_iff_isNumeralOf, portNumber]
  cases Text.Decimal.readBounded? 65535 s.toList <;> simp

theorem portRange_eq_ok_iff {m n : Nat} : portRange m n = .ok () ↔ 1 ≤ m ∧ m ≤ n := by
  simp only [portRange, port, bind_eq_ok, exists_unit_iff, require_eq_ok_iff, bne_iff_ne, decide_eq_true_eq]
  omega

theorem portEntry_eq_ok_iff {entry : String} : portEntry entry = .ok () ↔ IsPortEntry IsNumeralOf entry := by
  have hnumber : ∀ (cs : List Char) (n : Nat),
      portNumber entry cs = .ok n ↔ IsNumeralOf (String.ofList cs) n ∧ n ≤ 65535 := by
    intro cs n
    rw [← portNumber_eq_ok_iff, String.toList_ofList]
  unfold portEntry IsPortEntry
  cases hcut : Text.cutList ':' entry.toList with
  | none =>
      have hcolon : ':' ∉ entry.toList := Text.cutList_eq_none_iff.mp hcut
      have hrange : ¬ ∃ first last m n, entry = first ++ ":" ++ last ∧ IsNumeralOf first m ∧ IsNumeralOf last n ∧
          1 ≤ m ∧ m ≤ n ∧ n ≤ 65535 := by
        rintro ⟨first, last, m, n, rfl, -⟩
        simp at hcolon
      simp only [bind_eq_ok, portNumber_eq_ok_iff, port, require_eq_ok_iff, bne_iff_ne, or_iff_left hrange]
      constructor
      · rintro ⟨n, ⟨hn, hle⟩, hne⟩
        exact ⟨n, hn, by omega, hle⟩
      · rintro ⟨n, hn, hpos, hle⟩
        exact ⟨n, ⟨hn, hle⟩, by omega⟩
  | some parts =>
      obtain ⟨first, last⟩ := parts
      obtain ⟨hentry, hfirst⟩ := Text.cutList_eq_some_iff.mp hcut
      have hport : ¬ ∃ n, IsNumeralOf entry n ∧ 1 ≤ n ∧ n ≤ 65535 := by
        rintro ⟨n, hn, -⟩
        have hmark := hn.isPortMark_eq_false ':' (hentry ▸ by simp)
        cases hmark
      simp only [bind_eq_ok, hnumber, portRange_eq_ok_iff, or_iff_right hport]
      constructor
      · rintro ⟨m, ⟨hm, -⟩, n, ⟨hn, hle⟩, hpos, hmn⟩
        refine ⟨String.ofList first, String.ofList last, m, n, String.toList_inj.mp ?_, hm, hn, hpos, hmn, hle⟩
        simpa using hentry
      · rintro ⟨first', last', m, n, rfl, hm, hn, hpos, hmn, hle⟩
        have hcolon : ':' ∉ first'.toList := fun hc => by cases hm.isPortMark_eq_false ':' hc
        have hcut' : Text.cutList ':' (first' ++ ":" ++ last').toList = some (first'.toList, last'.toList) :=
          Text.cutList_eq_some_iff.mpr ⟨by simp, hcolon⟩
        rw [hcut] at hcut'
        obtain ⟨rfl, rfl⟩ := Prod.mk.inj (Option.some.inj hcut')
        simp only [String.ofList_toList]
        exact ⟨m, ⟨hm, by omega⟩, n, ⟨hn, hle⟩, hpos, hmn⟩

end Check

/-- An entry is as a listing writes it exactly if it is accepted and its numbers begin plainly. -/
theorem isListedEntry_iff {entry : String} :
    IsListedEntry entry ↔ Check.portEntry entry = .ok () ∧ BeginsPlainly entry := by
  have hcolon : ∀ first last : String,
      BeginsPlainly (first ++ ":" ++ last) ↔ BeginsPlainly first ∧ BeginsPlainly last := fun first last =>
    beginsPlainly_append (c := ':') (by decide) (by decide)
  rw [Check.portEntry_eq_ok_iff]
  constructor
  · rintro (⟨n, rfl, hpos, hle⟩ | ⟨first, last, m, n, rfl, rfl, rfl, hpos, hmn, hle⟩)
    · have hn := isNumeralOf_toString n
      exact ⟨.inl ⟨n, hn, hpos, hle⟩, (hn.eq_toString_iff hpos).mp rfl⟩
    · have hm := isNumeralOf_toString m
      have hn := isNumeralOf_toString n
      refine ⟨.inr ⟨_, _, m, n, rfl, hm, hn, hpos, hmn, hle⟩, ?_⟩
      rw [hcolon]
      exact ⟨(hm.eq_toString_iff hpos).mp rfl, (hn.eq_toString_iff (by omega)).mp rfl⟩
  · rintro ⟨⟨n, hn, hpos, hle⟩ | ⟨first, last, m, n, rfl, hm, hn, hpos, hmn, hle⟩, hplain⟩
    · exact .inl ⟨n, (hn.eq_toString_iff hpos).mpr hplain, hpos, hle⟩
    · obtain ⟨hfirst, hlast⟩ := (hcolon first last).mp hplain
      exact .inr ⟨first, last, m, n, rfl, (hm.eq_toString_iff hpos).mpr hfirst,
        (hn.eq_toString_iff (by omega)).mpr hlast, hpos, hmn, hle⟩

/-! ### Ports of declared rules -/

/-- Ports as a listing writes them: one or more entries with commas between them. -/
def IsListedPorts (ports : String) : Prop :=
  ∃ entries, entries ≠ [] ∧ ports = ",".intercalate entries ∧ ∀ entry ∈ entries, IsListedEntry entry

theorem isListedPorts_iff {entries : List String} (h : ∀ entry ∈ entries, Check.portEntry entry = .ok ()) :
    IsListedPorts (",".intercalate entries) ↔
      ",".intercalate entries ≠ "" ∧ BeginsPlainly (",".intercalate entries) := by
  constructor
  · rintro ⟨listed, hne, hports, hlisted⟩
    rw [hports, beginsPlainly_intercalate]
    have hoperand : IsOperand (",".intercalate listed) :=
      IsOperand.intercalate hne (fun entry he => isOperand_of_portEntry (isListedEntry_iff.mp (hlisted entry he)).1)
        (by decide)
    refine ⟨fun hempty => hoperand.1 (by rw [hempty]; rfl), fun entry he => ?_⟩
    exact (isListedEntry_iff.mp (hlisted entry he)).2
  · rintro ⟨hne, hplain⟩
    rw [beginsPlainly_intercalate] at hplain
    refine ⟨entries, ?_, rfl, fun entry he => isListedEntry_iff.mpr ⟨h entry he, hplain entry he⟩⟩
    rintro rfl
    exact hne (by decide)

namespace Spec

variable {s : Spec} {resolve : Resolver} {mode : AddressMode} {rules : List Rule}

theorem isListedPorts_parts {single several : Flag} {ports : Option Ports} (h : ∀ p ∈ ports, s.AllowsPorts p) :
    ∀ c ∈ ports.elim [] (Ports.parts single several), c = .module "multiport" ∨
      (IsListedPorts c.value ↔ c.value ≠ "" ∧ BeginsPlainly c.value) := by
  cases ports with
  | none => simp
  | some p =>
      have hvalue : IsListedPorts p.value ↔ p.value ≠ "" ∧ BeginsPlainly p.value := isListedPorts_iff (h p rfl).entries
      intro c hc
      cases p with
      | single entry =>
          rw [List.mem_singleton.mp hc]
          exact .inr hvalue
      | list entries =>
          rcases List.mem_cons.mp hc with rfl | hc
          · exact .inl rfl
          · rw [List.mem_singleton.mp hc]
            exact .inr hvalue

theorem exists_ruleText_of_compile (h : s.compile resolve mode = .ok rules) :
    ∀ rule ∈ rules, ∃ front back, rule.text = ruleText s.chain.name (front ++ s.portParts ++ back) := by
  obtain ⟨-, -, sources, destination, -, -, rfl⟩ := compile_eq_ok_iff.mp h
  intro rule hrule
  obtain ⟨source, -, rfl⟩ := List.mem_map.mp hrule
  rw [map_written_matchParts]
  refine ⟨(source.map (Clause.mk .source)).toList ++ (destination.map (Clause.mk .destination)).toList ++
    s.interfaceParts ++ s.protocolParts, s.icmpParts ++ s.stateParts ++ s.commentClauses ++ s.limitParts ++
    ⟨.jump, s.jump.name⟩ :: s.jumpParts.map Clause.written, ?_⟩
  simp only [ruleFor, List.append_assoc]

end Spec

namespace Check

/-- A port entry is accepted exactly if it is a port or an ascending range, in numerals of any form; it is as a listing
writes it exactly if the numbers of an accepted entry begin with no plus sign and no zero. The ports of a declared rule
that is compiled stand in all of its rules, and they too are as a listing writes them exactly if there are any and their
numbers begin plainly. -/
theorem portEntry_accepts_iff (entry : String) (s : Spec) (resolve : Resolver) (mode : AddressMode) :
    (portEntry entry = .ok () ↔ IsPortEntry IsNumeralOf entry) ∧
      (IsListedEntry entry ↔ portEntry entry = .ok () ∧ BeginsPlainly entry) ∧
      ∀ rules, s.compile resolve mode = .ok rules → ∀ rule ∈ rules, ∃ front back,
        rule.text = ruleText s.chain.name (front ++ s.portParts ++ back) ∧
        ∀ c ∈ s.portParts, c = .module "multiport" ∨
          (IsListedPorts c.value ↔ c.value ≠ "" ∧ BeginsPlainly c.value) := by
  refine ⟨portEntry_eq_ok_iff, isListedEntry_iff, ?_⟩
  intro rules h rule hrule
  obtain ⟨front, back, htext⟩ := Spec.exists_ruleText_of_compile h rule hrule
  obtain ⟨-, hadmissible, -⟩ := Spec.compile_eq_ok_iff.mp h
  refine ⟨front, back, htext, List.forall_mem_append.mpr ⟨?_, ?_⟩⟩
  · exact Spec.isListedPorts_parts hadmissible.sourcePorts
  · exact Spec.isListedPorts_parts hadmissible.destinationPorts

/-- A rule whose port is written with a zero in front, and whose source ports are as a listing writes them. -/
def paddedPortSpec : Spec where
  name := "ssh"
  sourcePorts := some (.list ["1024:65535", "80"])
  destinationPorts := some (.single "022")

theorem not_beginsPlainly_padded : ¬ BeginsPlainly "022" := by
  decide +kernel

/-- A port entry with a zero in front is accepted, but it is not as a listing writes it. A rule with that port is
compiled; its source ports are as a listing writes them, but its port is not. -/
theorem portEntry_accepts_iff_padded :
    (portEntry "022" = .ok () ∧ ¬ IsListedEntry "022") ∧
      ∃ rule rules, paddedPortSpec.compile .literal .cidr = .ok (rule :: rules) ∧ ∃ front back,
        rule.text = ruleText "INPUT" (front ++ [.module "multiport", ⟨.sourcePorts, "1024:65535,80"⟩,
          ⟨.destinationPort, "022"⟩] ++ back) ∧
        IsListedPorts "1024:65535,80" ∧ ¬ IsListedPorts "022" := by
  obtain ⟨-, hentry, hrules⟩ := portEntry_accepts_iff "022" paddedPortSpec .literal .cidr
  refine ⟨⟨by decide +kernel, fun hlisted => not_beginsPlainly_padded (hentry.mp hlisted).2⟩, ?_⟩
  have hcompiled : ((paddedPortSpec.compile .literal .cidr).toOption.getD []).isEmpty = false := by decide +kernel
  have hparts : paddedPortSpec.portParts =
      [.module "multiport", ⟨.sourcePorts, "1024:65535,80"⟩, ⟨.destinationPort, "022"⟩] := by decide +kernel
  cases hcompile : paddedPortSpec.compile .literal .cidr with
  | error e =>
      rw [hcompile] at hcompiled
      cases hcompiled
  | ok rules =>
      rw [hcompile] at hcompiled
      cases rules with
      | nil => cases hcompiled
      | cons rule rules =>
          obtain ⟨front, back, htext, hlisted⟩ := hrules _ hcompile rule List.mem_cons_self
          rw [hparts] at htext hlisted
          have hsource := (hlisted ⟨.sourcePorts, "1024:65535,80"⟩ (by simp)).resolve_left (by decide)
          have hport := (hlisted ⟨.destinationPort, "022"⟩ (by simp)).resolve_left (by decide)
          refine ⟨rule, rules, rfl, front, back, htext, hsource.mpr (by decide +kernel), ?_⟩
          exact fun hlisted => not_beginsPlainly_padded (hport.mp hlisted).2

/-- A port with a zero in front is accepted, but no listing writes it so. -/
theorem not_portEntry_accepts : ¬ ∀ entry, portEntry entry = .ok () ↔ IsListedEntry entry := by
  intro h
  have hlisted : IsListedEntry "022" := (h "022").mp (by decide +kernel)
  exact not_beginsPlainly_padded (isListedEntry_iff.mp hlisted).2

end Check

end PacketFilter
