import PacketFilter.Proofs.CheckedValues

/-! # Log prefixes

A log prefix is cut to the bytes that are kept: what is left of it is its longest start of whole characters that fits
(`Spec.isLongestStart_fitting`), and the place of the cut, counted in bytes, never falls inside a character
(`Spec.isValid_cutPosition`). A prefix that is accepted holds nothing that would end the quotes around it, so what is
written for it is read as a single quoted word (`Spec.read_logPrefixValue`). -/

namespace PacketFilter

/-! ### Starts of a text -/

theorem exists_eq_append_iff {s start : String} : (∃ rest, s = start ++ rest) ↔ start.toList <+: s.toList := by
  constructor
  · rintro ⟨rest, rfl⟩
    exact ⟨rest.toList, String.toList_append.symm⟩
  · rintro ⟨rest, hrest⟩
    refine ⟨String.ofList rest, String.toList_inj.mp ?_⟩
    rw [String.toList_append, String.toList_ofList, hrest]

/-- A text starts another one and takes at most `room` bytes, and so does no longer start of it. -/
structure IsLongestStart (room : Nat) (kept s : String) : Prop where
  starts : ∃ rest, s = kept ++ rest
  fits : kept.utf8ByteSize ≤ room
  longest : ∀ other rest, s = other ++ rest → other.utf8ByteSize ≤ room → ∃ more, kept = other ++ more

theorem IsLongestStart.eq_self {room : Nat} {kept s : String} (h : IsLongestStart room kept s)
    (hs : s.utf8ByteSize ≤ room) : kept = s := by
  obtain ⟨rest, hrest⟩ := h.starts
  obtain ⟨more, hmore⟩ := h.longest s "" String.append_empty.symm hs
  have hsize := congrArg String.utf8ByteSize hrest
  have hsize' := congrArg String.utf8ByteSize hmore
  rw [String.utf8ByteSize_append] at hsize hsize'
  have hnone : rest = "" := String.utf8ByteSize_eq_zero_iff.mp (by omega)
  rw [hrest, hnone, String.append_empty]

theorem utf8ByteSize_ofList_cons (c : Char) (cs : List Char) :
    (String.ofList (c :: cs)).utf8ByteSize = c.utf8Size + (String.ofList cs).utf8ByteSize := by
  simp

namespace Spec

variable {room : Nat} {cs : List Char}

/-! ### What fits -/

theorem utf8ByteSize_fitting_le (room : Nat) (cs : List Char) :
    (String.ofList (fitting room cs)).utf8ByteSize ≤ room := by
  fun_induction fitting room cs with
  | case1 room => simp
  | case2 room c cs hfits ih =>
      rw [utf8ByteSize_ofList_cons]
      omega
  | case3 room c cs hfits => simp

theorem fitting_isPrefix (room : Nat) (cs : List Char) : fitting room cs <+: cs := by
  fun_induction fitting room cs with
  | case1 room => exact List.nil_prefix
  | case2 room c cs hfits ih => exact (List.prefix_cons_inj c).mpr ih
  | case3 room c cs hfits => exact List.nil_prefix

/-- A start that fits is part of what is kept: it cannot reach beyond the first character that does not fit. -/
theorem isPrefix_fitting {start : List Char} (h : start <+: cs)
    (hsize : (String.ofList start).utf8ByteSize ≤ room) : start <+: fitting room cs := by
  fun_induction fitting room cs generalizing start with
  | case1 room => exact h
  | case2 room c cs hfits ih =>
      cases start with
      | nil => exact List.nil_prefix
      | cons d start =>
          obtain ⟨rfl, hrest⟩ := List.cons_prefix_cons.mp h
          rw [utf8ByteSize_ofList_cons] at hsize
          exact (List.prefix_cons_inj d).mpr (ih hrest (by omega))
  | case3 room c cs hfits =>
      cases start with
      | nil => exact List.nil_prefix
      | cons d start =>
          obtain ⟨rfl, -⟩ := List.cons_prefix_cons.mp h
          rw [utf8ByteSize_ofList_cons] at hsize
          omega

theorem isLongestStart_fitting (room : Nat) (s : String) :
    IsLongestStart room (String.ofList (fitting room s.toList)) s := by
  constructor
  · rw [exists_eq_append_iff, String.toList_ofList]
    exact fitting_isPrefix room s.toList
  · exact utf8ByteSize_fitting_le room s.toList
  · intro other rest hs hsize
    have hstart : other.toList <+: s.toList := exists_eq_append_iff.mp ⟨rest, hs⟩
    rw [exists_eq_append_iff, String.toList_ofList]
    exact isPrefix_fitting hstart (by rwa [String.ofList_toList])

/-! ### The place of the cut -/

/-- Where the characters of a list end, in bytes, if the first one begins at `start`. -/
def charEnds : Nat → List Char → List Nat
  | _, [] => []
  | start, c :: cs => (start + c.utf8Size) :: charEnds (start + c.utf8Size) cs

/-- Where a text is cut so that at most `room` bytes are left: at the last end of a character that is not behind
them. -/
def cutPosition (room : Nat) (s : String) : Nat :=
  ((charEnds 0 s.toList).takeWhile (· ≤ room)).getLastD 0

/-- The last end of a character within the room is where that ends which fits, wherever the bytes are counted from. -/
theorem getLastD_charEnds (start room : Nat) (cs : List Char) :
    ((charEnds start cs).takeWhile (· ≤ start + room)).getLastD start =
      start + (String.ofList (fitting room cs)).utf8ByteSize := by
  fun_induction fitting room cs generalizing start with
  | case1 room => simp [charEnds]
  | case2 room c cs hfits ih =>
      have hends := ih (start + c.utf8Size)
      have hroom : start + c.utf8Size + (room - c.utf8Size) = start + room := by omega
      rw [hroom] at hends
      rw [charEnds, List.takeWhile_cons_of_pos (by simpa using hfits), List.getLastD_cons, hends,
        utf8ByteSize_ofList_cons]
      omega
  | case3 room c cs hfits =>
      rw [charEnds, List.takeWhile_cons_of_neg (by simpa using hfits)]
      simp

/-- A text is never cut inside a character, and the bytes in front of the cut are those of what is kept. -/
theorem isValid_cutPosition (room : Nat) (s : String) :
    (String.Pos.Raw.mk (cutPosition room s)).IsValid s ∧
      s.toByteArray.extract 0 (cutPosition room s) = (String.ofList (fitting room s.toList)).toByteArray := by
  have hcut : cutPosition room s = (String.ofList (fitting room s.toList)).utf8ByteSize := by
    have hends := getLastD_charEnds 0 room s.toList
    simpa only [cutPosition, Nat.zero_add] using hends
  obtain ⟨rest, hrest⟩ := (isLongestStart_fitting room s).starts
  generalize String.ofList (fitting room s.toList) = kept at hcut hrest ⊢
  constructor
  · rw [String.Pos.Raw.isValid_iff_exists_append]
    exact ⟨kept, rest, hrest, congrArg String.Pos.Raw.mk hcut⟩
  · rw [hrest, String.toByteArray_append]
    exact ByteArray.extract_append_eq_left (by rw [String.size_toByteArray, ← hrest, hcut])

/-! ### Written log prefixes -/

/-- What is written for an accepted log prefix is a single quoted word: the longest start of the prefix that takes at
most 27 bytes, with a colon and a space behind it. So the word has at most 29 bytes, a prefix that fits is kept, and the
prefix is cut between two characters. -/
theorem read_logPrefixValue {p : String} (h : Check.logPrefix p = .ok ()) :
    ∃ kept, Word.read (logPrefixValue p) = [⟨kept ++ ": ", true⟩] ∧ IsLongestStart 27 kept p ∧
      (kept ++ ": ").utf8ByteSize ≤ 29 ∧ (p.utf8ByteSize ≤ 27 → kept = p) ∧
      (String.Pos.Raw.mk (cutPosition 27 p)).IsValid p ∧
      p.toByteArray.extract 0 (cutPosition 27 p) = kept.toByteArray := by
  have hlongest : IsLongestStart 27 (String.ofList (fitting 27 p.toList)) p := isLongestStart_fitting 27 p
  have hkept : keptPrefix p = String.ofList (fitting 27 p.toList) ++ ": " := by
    rw [keptPrefix, String.ofList_append]
    rfl
  refine ⟨_, ?_, hlongest, ?_, hlongest.eq_self, isValid_cutPosition 27 p⟩
  · rw [(logPrefixValue_eq_quote h).1, hkept, Word.read, (Word.spelledBy_quote _).readList_eq]
  · have hfits := hlongest.fits
    have hcolon : ": ".utf8ByteSize = 2 := by decide
    rw [String.utf8ByteSize_append]
    omega

/-- Thirteen characters of two bytes, and one of three bytes that ends behind the twenty-seventh byte. -/
def wideLogPrefix : String :=
  "ééééééééééééé€ dropped"

/-- Of that prefix the first thirteen characters are kept, which are 26 bytes. -/
theorem read_logPrefixValue_wide :
    Check.logPrefix wideLogPrefix = .ok () ∧ ∃ kept,
      Word.read (logPrefixValue wideLogPrefix) = [⟨kept ++ ": ", true⟩] ∧ IsLongestStart 27 kept wideLogPrefix ∧
      kept.toByteArray = wideLogPrefix.toByteArray.extract 0 26 := by
  have haccepted : Check.logPrefix wideLogPrefix = .ok () := by decide +kernel
  have hcut : cutPosition 27 wideLogPrefix = 26 := by decide +kernel
  obtain ⟨kept, hread, hlongest, -, -, -, hbytes⟩ := read_logPrefixValue haccepted
  rw [hcut] at hbytes
  exact ⟨haccepted, kept, hread, hlongest, hbytes.symm⟩

end Spec

end PacketFilter
