/-! # Decimal numerals

`isNumeral` recognises the non-empty runs of ASCII digits, `value` is the number that digits write, and
`readBounded?` reads a numeral of at most `limit`, with any number of leading zeros and one optional
leading plus sign. The digits that are written for a number are read as that number
(`readBounded?_toString`), and a numeral without leading zeros is what is written for its number
(`toList_toString_value`). -/

namespace PacketFilter.Text.Decimal

/-- The number an ASCII digit stands for. -/
def digit (c : Char) : Nat :=
  c.toNat - 48

/-- The number written by a list of digits, most significant first. -/
def value (cs : List Char) : Nat :=
  cs.foldl (fun n c => 10 * n + digit c) 0

/-- One or more ASCII digits. -/
def isNumeral (cs : List Char) : Bool :=
  ! cs.isEmpty && cs.all Char.isDigit

/-- The digits of a numeral, without the plus sign that may stand before them. -/
def unsigned : List Char → List Char
  | '+' :: cs => cs
  | cs => cs

/-- The number that `cs` writes, if it writes one of at most `limit`. -/
def readBounded? (limit : Nat) (cs : List Char) : Option Nat :=
  let digits := unsigned cs
  if isNumeral digits && value digits ≤ limit then some (value digits) else none

theorem readBounded?_eq_some_iff {limit n : Nat} {cs : List Char} :
    readBounded? limit cs = some n ↔
      isNumeral (unsigned cs) = true ∧ value (unsigned cs) = n ∧ n ≤ limit := by
  simp only [readBounded?, Bool.and_eq_true, decide_eq_true_eq]
  split
  · rename_i h
    simp only [Option.some.injEq]
    constructor
    · rintro rfl; exact ⟨h.1, rfl, h.2⟩
    · rintro ⟨_, e, _⟩; exact e
  · rename_i h
    simp only [reduceCtorEq, false_iff]
    rintro ⟨hn, rfl, hl⟩
    exact h ⟨hn, hl⟩

/-! ### Written numbers -/

theorem toList_toString (n : Nat) : (toString n).toList = Nat.toDigits 10 n := by
  simp [Nat.toString_eq_repr, Nat.repr]

theorem isDigit_of_mem_toString {n : Nat} {c : Char} (h : c ∈ (toString n).toList) : c.isDigit = true := by
  rw [toList_toString] at h
  exact Nat.isDigit_of_mem_toDigits (by decide) (by decide) h

theorem not_mem_toString {c : Char} (h : c.isDigit = false) (n : Nat) : c ∉ (toString n).toList := by
  intro hc
  rw [isDigit_of_mem_toString hc] at h
  cases h

theorem isNumeral_toString (n : Nat) : isNumeral (toString n).toList = true := by
  have hne : (toString n).toList ≠ [] := by
    rw [toList_toString]
    exact Nat.toDigits_ne_nil
  simp only [isNumeral, Bool.and_eq_true, Bool.not_eq_true', List.isEmpty_eq_false_iff, List.all_eq_true]
  exact ⟨hne, fun c hc => isDigit_of_mem_toString hc⟩

/-- The digits of a number write that number. -/
theorem value_toString (n : Nat) : value (toString n).toList = n := by
  rw [toList_toString]
  exact Nat.ofDigitChars_toDigits (by decide) (by decide)

theorem unsigned_toString (n : Nat) : unsigned (toString n).toList = (toString n).toList := by
  have hplus : '+' ∉ (toString n).toList := not_mem_toString rfl n
  rw [unsigned.eq_def]
  split
  · rename_i cs hcs
    exact absurd (hcs ▸ List.mem_cons_self) hplus
  · rfl

theorem readBounded?_toString {limit n : Nat} (h : n ≤ limit) :
    readBounded? limit (toString n).toList = some n := by
  rw [readBounded?_eq_some_iff, unsigned_toString]
  exact ⟨isNumeral_toString n, value_toString n, h⟩

/-! ### Numerals without leading zeros -/

/-- What is written for a number that is not zero does not begin with a zero. -/
theorem head?_toString_ne {n : Nat} (hn : 0 < n) : (toString n).toList.head? ≠ some '0' := by
  rw [toList_toString]
  induction n using Nat.strongRecOn with
  | ind n ih =>
      rcases Nat.lt_or_ge n 10 with hlt | hge
      · have hdigit : ∀ n < 10, 0 < n → some (Nat.digitChar n) ≠ some '0' := by decide
        rw [Nat.toDigits_of_lt_base hlt]
        exact hdigit n hlt hn
      · rw [Nat.toDigits_of_base_le (by decide) hge, List.head?_append,
          Option.or_of_isSome (List.isSome_head?.mpr Nat.toDigits_ne_nil)]
        exact ih (n / 10) (by omega) (by omega)

theorem digitChar_digit {c : Char} (h : c.isDigit = true) : digit c < 10 ∧ Nat.digitChar (digit c) = c := by
  obtain ⟨hlow, hhigh⟩ : 48 ≤ c.toNat ∧ c.toNat ≤ 57 := Char.isDigit_iff_toNat.mp h
  have hlt : digit c < 10 := by
    unfold digit
    omega
  refine ⟨hlt, Char.toNat_inj.mp ?_⟩
  rw [Nat.toNat_digitChar_of_lt_ten hlt]
  unfold digit
  omega

/-- Further digits are written behind those of a number that is not zero. -/
theorem toDigits_foldl {cs : List Char} (h : ∀ c ∈ cs, c.isDigit = true) {n : Nat} (hn : 0 < n) :
    Nat.toDigits 10 (cs.foldl (fun n c => 10 * n + digit c) n) = Nat.toDigits 10 n ++ cs := by
  induction cs generalizing n with
  | nil => simp
  | cons c cs ih =>
      obtain ⟨hlt, hc⟩ := digitChar_digit (h c List.mem_cons_self)
      have hstep := Nat.toDigits_append_toDigits (b := 10) (by decide) hn hlt
      rw [Nat.toDigits_of_lt_base hlt, hc] at hstep
      rw [List.foldl_cons, ih (fun d hd => h d (List.mem_cons_of_mem _ hd)) (by omega), ← hstep,
        List.append_assoc, List.singleton_append]

/-- A numeral without leading zeros is what is written for its number. -/
theorem toList_toString_value {cs : List Char} (h : isNumeral cs = true)
    (hzero : cs.length = 1 ∨ cs.head? ≠ some '0') : (toString (value cs)).toList = cs := by
  simp only [isNumeral, Bool.and_eq_true, Bool.not_eq_true', List.isEmpty_eq_false_iff, List.all_eq_true] at h
  obtain ⟨c, cs, rfl⟩ := List.exists_cons_of_ne_nil h.1
  obtain ⟨hlt, hc⟩ := digitChar_digit (h.2 c List.mem_cons_self)
  have hvalue : value (c :: cs) = cs.foldl (fun n c => 10 * n + digit c) (digit c) := by simp [value]
  rw [toList_toString, hvalue]
  by_cases hpos : 0 < digit c
  · rw [toDigits_foldl (fun d hd => h.2 d (List.mem_cons_of_mem _ hd)) hpos, Nat.toDigits_of_lt_base hlt, hc]
    rfl
  · -- the first digit is zero, so there is no other one
    have hnil : cs = [] := by
      rcases hzero with hlength | hhead
      · exact List.length_eq_zero_iff.mp (Nat.succ.inj hlength)
      · have hfirst : c = '0' := by
          rw [← hc, Nat.eq_zero_of_not_pos hpos]
          rfl
        exact absurd (congrArg some hfirst) hhead
    rw [hnil, List.foldl_nil, Nat.toDigits_of_lt_base hlt, hc]

end PacketFilter.Text.Decimal
