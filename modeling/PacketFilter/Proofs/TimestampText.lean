import Mathlib.Algebra.Group.Nat.Defs
import Mathlib.Data.List.TakeWhile
import PacketFilter.Audit.Timestamp

/-! # The text of a point in time

A point in time is read back from its text, to the nanosecond, leap seconds included (`Timestamp.ofText?_text`). The
date in the text is one of the calendar and belongs to that day only (`Timestamp.dateOf_spec`): the days of an era of
400 years are split into centuries, runs of four years, years and days (`Timestamp.exists_dayOfYear`). -/

namespace PacketFilter.Timestamp

/-! ### The calendar -/

/-- A day of an era of 400 years is a day of a year, of a run of up to four years, of a century. The last day of a leap
year comes last in its run, and the last run of a century has one only at the end of the era. -/
theorem exists_dayOfYear {n : Nat} (h : n < 146097) : ∃ century run year day, century < 4 ∧ run < 25 ∧ year < 4 ∧
    day ≤ 365 ∧ (day = 365 → year = 3 ∧ (run = 24 → century = 3)) ∧
    n = 36524 * century + 1461 * run + 365 * year + day := by
  obtain ⟨century, ofCentury, hcentury, hbound, hn⟩ :
      ∃ c r, c < 4 ∧ (r < 36524 ∨ (r = 36524 ∧ c = 3)) ∧ n = 36524 * c + r :=
    ⟨min (n / 36524) 3, n - 36524 * min (n / 36524) 3, by omega, by omega, by omega⟩
  obtain ⟨run, ofRun, hrun, hofRun, hofCentury⟩ : ∃ q r, q < 25 ∧ r < 1461 ∧ ofCentury = 1461 * q + r :=
    ⟨ofCentury / 1461, ofCentury % 1461, by omega, by omega, by omega⟩
  obtain ⟨year, day, hyear, hday, hofYear⟩ :
      ∃ y d, y < 4 ∧ (d < 365 ∨ (d = 365 ∧ y = 3)) ∧ ofRun = 365 * y + d :=
    ⟨min (ofRun / 365) 3, ofRun - 365 * min (ofRun / 365) 3, by omega, by omega, by omega⟩
  exact ⟨century, run, year, day, hcentury, hrun, hyear, by omega, by omega, by omega⟩

theorem div_1460 {century run : Nat} (rest : Nat) (hcentury : century < 4) (hrun : run < 25) (hrest : rest ≤ 1460) :
    (36524 * century + 1461 * run + rest) / 1460 =
      25 * century + run + if 1460 ≤ 24 * century + run + rest then 1 else 0 := by
  have hsplit : 36524 * century + 1461 * run + rest =
      24 * century + run + rest + 1460 * (25 * century + run) := by omega
  rw [hsplit, Nat.add_mul_div_left _ _ (by decide)]
  split <;> omega

theorem yearOfEra_eq {century run year day n : Nat} (hcentury : century < 4) (hrun : run < 25) (hyear : year < 4)
    (hday : day ≤ 365) (hleap : day = 365 → year = 3 ∧ (run = 24 → century = 3))
    (hn : n = 36524 * century + 1461 * run + 365 * year + day) :
    (n - n / 1460 + n / 36524 - n / 146096) / 365 = 100 * century + 4 * run + year := by
  have hruns := div_1460 (365 * year + day) hcentury hrun (by omega)
  rw [← Nat.add_assoc, ← hn] at hruns
  by_cases hlast : n = 146096
  · subst hlast
    omega
  · have hcenturies : n / 36524 = century := by omega
    have hera : n / 146096 = 0 := by omega
    rw [hcenturies, hera]
    split at hruns <;> omega

/-- A day of an era by its year, counted from March on, and its day in that year. -/
theorem exists_yearOfEra {n : Nat} (h : n < 146097) : ∃ year day, year < 400 ∧ day ≤ 365 ∧
    (day = 365 → (year + 1) % 4 = 0 ∧ ((year + 1) % 100 = 0 → year = 399)) ∧
    n = 365 * year + year / 4 - year / 100 + day ∧
    (n - n / 1460 + n / 36524 - n / 146096) / 365 = year := by
  obtain ⟨century, run, year, day, hcentury, hrun, hyear, hday, hleap, hsum⟩ := exists_dayOfYear h
  refine ⟨100 * century + 4 * run + year, day, by omega, hday, fun h365 => ?_, ?_,
    yearOfEra_eq hcentury hrun hyear hday hleap hsum⟩
  · obtain ⟨rfl, hlast⟩ := hleap h365
    omega
  · have hfours : (100 * century + 4 * run + year) / 4 = 25 * century + run := by omega
    have hhundreds : (100 * century + 4 * run + year) / 100 = century := by omega
    rw [hfours, hhundreds]
    omega

def monthAfterMarch (shifted : Nat) : Nat :=
  if shifted < 10 then shifted + 3 else shifted - 9

theorem exists_dateOf (days : Int) : ∃ (era : Int) (year day : Nat), year < 400 ∧ day ≤ 365 ∧
    (day = 365 → isLeap (year + era * 400 + 1) = true) ∧
    days + 719468 = era * 146097 + (365 * year + year / 4 - year / 100 + day : Nat) ∧
    dateOf days =
      (if monthAfterMarch ((5 * day + 2) / 153) ≤ 2 then year + era * 400 + 1 else year + era * 400,
        monthAfterMarch ((5 * day + 2) / 153), day - (153 * ((5 * day + 2) / 153) + 2) / 5 + 1) := by
  have hera : Int.fdiv (days + 719468) 146097 = (days + 719468) / 146097 :=
    Int.fdiv_eq_ediv_of_nonneg _ (by decide)
  obtain ⟨n, hn, hlt⟩ : ∃ n : Nat, (days + 719468 - (days + 719468) / 146097 * 146097).toNat = n ∧ n < 146097 :=
    ⟨_, rfl, by omega⟩
  obtain ⟨year, day, hyear, hday, hleap, hsum, hyears⟩ := exists_yearOfEra hlt
  have hstart : n - (365 * year + year / 4 - year / 100) = day := by
    clear hyears
    omega
  refine ⟨(days + 719468) / 146097, year, day, hyear, hday, fun h => ?_, ?_, ?_⟩
  · obtain ⟨hfour, hhundred⟩ := hleap h
    clear hsum hyears hstart hn
    simp only [isLeap, Bool.and_eq_true, Bool.or_eq_true, beq_iff_eq, bne_iff_ne]
    omega
  · rw [← hsum, ← hn]
    omega
  · simp only [dateOf, hera, hn, hyears, hstart, monthAfterMarch]
    rfl

theorem monthLength_afterMarch {year : Int} : ∀ shifted < 11,
    monthLength year (monthAfterMarch shifted) = (153 * (shifted + 1) + 2) / 5 - (153 * shifted + 2) / 5 := by
  intro shifted h
  have hcases : shifted = 0 ∨ shifted = 1 ∨ shifted = 2 ∨ shifted = 3 ∨ shifted = 4 ∨ shifted = 5 ∨ shifted = 6 ∨
      shifted = 7 ∨ shifted = 8 ∨ shifted = 9 ∨ shifted = 10 := by
    omega
  rcases hcases with rfl | rfl | rfl | rfl | rfl | rfl | rfl | rfl | rfl | rfl | rfl <;> rfl

/-- The date of a day is one of the calendar, and it is the date of that day only. -/
theorem dateOf_spec {days year : Int} {month day : Nat} (h : dateOf days = (year, month, day)) :
    1 ≤ month ∧ month ≤ 12 ∧ 1 ≤ day ∧ day ≤ monthLength year month ∧ dayNumber year month day = days := by
  obtain ⟨era, march, ofYear, hyear, hday, hleap, hdays, hdate⟩ := exists_dateOf days
  obtain ⟨shifted, hshifted, hlt⟩ : ∃ s, (5 * ofYear + 2) / 153 = s ∧ s < 12 := ⟨_, rfl, by omega⟩
  rw [hdate, hshifted] at h
  obtain ⟨rfl, rfl, rfl⟩ : _ ∧ _ ∧ _ := by simpa only [Prod.mk.injEq] using h
  have hmonth : 1 ≤ monthAfterMarch shifted ∧ monthAfterMarch shifted ≤ 12 ∧
      (monthAfterMarch shifted + 9) % 12 = shifted := by
    rw [monthAfterMarch]
    split <;> omega
  refine ⟨hmonth.1, hmonth.2.1, by omega, ?_, ?_⟩
  · by_cases hfeb : shifted = 11
    · subst hfeb
      show ofYear - 337 + 1 ≤ monthLength (march + era * 400 + 1) 2
      rw [monthLength, if_pos rfl]
      by_cases hlong : isLeap (march + era * 400 + 1) = true
      · rw [if_pos hlong]
        omega
      · have hne : ofYear ≠ 365 := fun h365 => hlong (hleap h365)
        rw [if_neg hlong]
        omega
    · rw [monthLength_afterMarch shifted (by omega)]
      omega
  · have hback : (if monthAfterMarch shifted ≤ 2
        then (if monthAfterMarch shifted ≤ 2 then (march : Int) + era * 400 + 1 else march + era * 400) - 1
        else if monthAfterMarch shifted ≤ 2 then (march : Int) + era * 400 + 1 else march + era * 400) =
          march + era * 400 := by
      split <;> omega
    have hera : Int.fdiv (march + era * 400) 400 = era := by
      rw [Int.fdiv_eq_ediv_of_nonneg _ (by decide)]
      omega
    have hofYear : (153 * shifted + 2) / 5 + (ofYear - (153 * shifted + 2) / 5 + 1) - 1 = ofYear := by omega
    simp only [dayNumber, hback, hera, hmonth.2.2, hofYear]
    omega

/-! ### Numbers -/

theorem isBlank_of_isDigit {c : Char} (h : c.isDigit = true) : Text.isBlank c = false := by
  obtain ⟨hlow, hhigh⟩ := Char.isDigit_iff_toNat.mp h
  have hzero : '0'.toNat = 48 := rfl
  have hnine : '9'.toNat = 57 := rfl
  simp only [Text.isBlank, Bool.or_eq_false_iff, Bool.and_eq_false_iff, decide_eq_false_iff_not, beq_eq_false_iff_ne]
  omega

theorem skipBlanks_cons {c : Char} (h : Text.isBlank c = false) (cs : List Char) : skipBlanks (c :: cs) = c :: cs := by
  rw [skipBlanks, List.dropWhile_cons, h]
  rfl

theorem toList_padded (width n : Nat) : (padded width n).toList =
    List.replicate (width - (Nat.toDigits 10 n).length) '0' ++ Nat.toDigits 10 n := by
  rw [padded, String.toList_ofList]

theorem isDigit_padded (width n : Nat) {c : Char} (h : c ∈ (padded width n).toList) : c.isDigit = true := by
  rw [toList_padded, List.mem_append] at h
  rcases h with h | h
  · rw [List.eq_of_mem_replicate h]
    rfl
  · exact Nat.isDigit_of_mem_toDigits (by decide) (by decide) h

theorem padded_ne_nil (width n : Nat) : (padded width n).toList ≠ [] := by
  rw [toList_padded]
  exact List.append_ne_nil_of_right_ne_nil _ Nat.toDigits_ne_nil

theorem length_padded {width n : Nat} (hwidth : 0 < width) (h : n < 10 ^ width) :
    (padded width n).toList.length = width := by
  have hle := (Nat.length_toDigits_le_iff (by decide) hwidth).mpr h
  rw [toList_padded, List.length_append, List.length_replicate]
  omega

theorem value_padded (width n : Nat) : Text.Decimal.value (padded width n).toList = n := by
  have hzeros : ∀ k, (List.replicate k '0').foldl (fun n c => 10 * n + Text.Decimal.digit c) 0 = 0 := by
    intro k
    induction k with
    | zero => rfl
    | succ k ih => exact ih
  rw [toList_padded, Text.Decimal.value, List.foldl_append, hzeros, ← Text.Decimal.toList_toString]
  exact Text.Decimal.value_toString n

theorem number_padded {width n : Nat} (hwidth : 0 < width) (h : n < 10 ^ width) (rest : List Char) :
    number width ((padded width n).toList ++ rest) = some (n, rest) := by
  have hlength := length_padded hwidth h
  have hdigits : (padded width n).toList.takeWhile Char.isDigit = (padded width n).toList :=
    List.takeWhile_eq_self_iff.mpr fun c => isDigit_padded width n
  have hskip : skipBlanks ((padded width n).toList ++ rest) = (padded width n).toList ++ rest := by
    cases hcs : (padded width n).toList with
    | nil => exact absurd hcs (padded_ne_nil width n)
    | cons c cs => exact skipBlanks_cons (isBlank_of_isDigit (isDigit_padded width n (hcs ▸ List.mem_cons_self))) _
  rw [number, hskip, List.take_left' hlength, hdigits, List.drop_left, value_padded]
  exact if_neg fun hempty => padded_ne_nil width n (List.isEmpty_iff.mp hempty)

theorem mark_cons {c : Char} (h : Text.isBlank c = false) (cs : List Char) : mark c (c :: cs) = some cs := by
  rw [mark, skipBlanks_cons h, Text.dropStart?, if_pos rfl]
  rfl

theorem digitRun_padded (width n : Nat) {rest : List Char} (hrest : ∀ c ∈ rest.head?, c.isDigit = false) :
    year.digitRun ((padded width n).toList ++ rest) = some (n, rest) := by
  obtain ⟨htake, hdrop⟩ := Text.span_append (fun c => isDigit_padded width n) hrest
  rw [year.digitRun, htake, hdrop, value_padded]
  exact if_neg fun hempty => padded_ne_nil width n (List.isEmpty_iff.mp hempty)

theorem year_minus (width n : Nat) {rest : List Char} (hrest : ∀ c ∈ rest.head?, c.isDigit = false) :
    year ('-' :: ((padded width n).toList ++ rest)) = some (-(n : Int), rest) := by
  rw [year, skipBlanks_cons rfl]
  simp only [digitRun_padded width n hrest, Option.map_some]

theorem year_plus (width n : Nat) {rest : List Char} (hrest : ∀ c ∈ rest.head?, c.isDigit = false) :
    year ('+' :: ((padded width n).toList ++ rest)) = some ((n : Int), rest) := by
  rw [year, skipBlanks_cons rfl]
  simp only [digitRun_padded width n hrest, Option.map_some]

theorem year_padded {n : Nat} (h : n < 10 ^ 4) (rest : List Char) :
    year ((padded 4 n).toList ++ rest) = some ((n : Int), rest) := by
  have hread := number_padded (by decide) h rest
  cases hcs : (padded 4 n).toList with
  | nil => exact absurd hcs (padded_ne_nil 4 n)
  | cons c cs =>
      have hdigit : c.isDigit = true := isDigit_padded 4 n (hcs ▸ List.mem_cons_self)
      rw [hcs, List.cons_append] at hread
      rw [List.cons_append, year, skipBlanks_cons (isBlank_of_isDigit hdigit)]
      split
      · rename_i heq
        obtain ⟨rfl, -⟩ := List.cons.inj heq
        cases hdigit
      · rename_i heq
        obtain ⟨rfl, -⟩ := List.cons.inj heq
        cases hdigit
      · rw [hread]
        rfl

theorem year_yearText (y : Int) {rest : List Char} (hrest : ∀ c ∈ rest.head?, c.isDigit = false) :
    year ((yearText y).toList ++ rest) = some (y, rest) := by
  rw [yearText]
  split
  · rw [year_padded (by omega), Int.toNat_of_nonneg (by omega)]
  · split
    · rw [String.toList_append, List.append_assoc, show "-".toList = ['-'] from rfl, List.singleton_append,
        year_minus 4 _ hrest, show -(y.natAbs : Int) = y by omega]
    · rw [String.toList_append, List.append_assoc, show "+".toList = ['+'] from rfl, List.singleton_append,
        year_plus 4 _ hrest, show (y.natAbs : Int) = y by omega]

theorem fraction_padded {width n : Nat} (hwidth : 0 < width) (hnine : width ≤ 9) (h : n < 10 ^ width) {rest : List Char}
    (hrest : ∀ c ∈ rest.head?, c.isDigit = false) :
    fraction ('.' :: ((padded width n).toList ++ rest)) = some (n * 10 ^ (9 - width), rest) := by
  have hlength := length_padded hwidth h
  obtain ⟨htake, hdrop⟩ := Text.span_append (fun c => isDigit_padded width n) hrest
  rw [fraction, htake, hdrop, List.take_of_length_le (by omega),
    if_neg fun hempty => padded_ne_nil width n (List.isEmpty_iff.mp hempty)]
  dsimp only
  rw [value_padded, hlength]
  rfl

theorem fraction_fractionText {nanos : Nat} (h : nanos < 1000000000) {rest : List Char}
    (hrest : ∀ c ∈ rest.head?, c.isDigit = false ∧ c ≠ '.') :
    fraction ((fractionText nanos).toList ++ rest) = some (nanos, rest) := by
  have hdigits := fun c hc => (hrest c hc).1
  have hpoint : ∀ width n, ("." ++ padded width n).toList ++ rest = '.' :: ((padded width n).toList ++ rest) := by
    intro width n
    rw [String.toList_append, List.append_assoc]
    rfl
  rw [fractionText]
  split
  · rename_i hzero
    rw [hzero, show ("" : String).toList ++ rest = rest from rfl, fraction.eq_def]
    split
    · exact absurd rfl (hrest '.' rfl).2
    · rfl
  · split
    · rename_i hmillis
      rw [hpoint, fraction_padded (by decide) (by decide) (by omega) hdigits, show 10 ^ (9 - 3) = 1000000 from rfl,
        Nat.div_mul_cancel (Nat.dvd_of_mod_eq_zero hmillis)]
    · split
      · rename_i hmicros
        rw [hpoint, fraction_padded (by decide) (by decide) (by omega) hdigits, show 10 ^ (9 - 6) = 1000 from rfl,
          Nat.div_mul_cancel (Nat.dvd_of_mod_eq_zero hmicros)]
      · rw [hpoint, fraction_padded (by decide) (by decide) h hdigits, show 10 ^ (9 - 9) = 1 from rfl, Nat.mul_one]

/-! ### Points in time -/

/-- A point in time that can be told: in the years that can be told, with less than a second's worth of nanoseconds
unless it is in a leap second. -/
structure IsTold (t : Timestamp) : Prop where
  tellable : isTellable t.seconds = true
  nanos : t.nanos < 1000000000 ∨ (t.nanos < 2000000000 ∧ t.seconds % 60 = 59)

theorem ofText?_parts (year : Int) {month day hour minute second nanos : Nat} (hmonth : month < 100)
    (hday : day < 100) (hhour : hour < 100) (hminute : minute < 100) (hsecond : second < 100)
    (hnanos : nanos < 1000000000) :
    ofText? (yearText year ++ "-" ++ padded 2 month ++ "-" ++ padded 2 day ++ "T" ++ padded 2 hour ++ ":" ++
      padded 2 minute ++ ":" ++ padded 2 second ++ fractionText nanos ++ "Z") =
        ofParts? year month day hour minute second nanos 0 := by
  have htwo : ∀ n < 100, ∀ cs, number 2 ((padded 2 n).toList ++ cs) = some (n, cs) :=
    fun n h cs => number_padded (by decide) h cs
  have hfraction : fraction ((fractionText nanos).toList ++ ['Z']) = some (nanos, ['Z']) :=
    fraction_fractionText hnanos (by simp)
  have hzone : offset ['Z'] = some (0, []) := by decide
  have hmarks : "-".toList = ['-'] ∧ "T".toList = ['T'] ∧ ":".toList = [':'] ∧ "Z".toList = ['Z'] :=
    ⟨rfl, rfl, rfl, rfl⟩
  have hdash : ∀ cs, ∀ c ∈ ('-' :: cs : List Char).head?, c.isDigit = false := by simp
  simp only [ofText?, String.toList_append, List.append_assoc, hmarks, List.cons_append, List.nil_append,
    year_yearText _ (hdash _), mark_cons (show Text.isBlank '-' = false from rfl),
    mark_cons (show Text.isBlank ':' = false from rfl), htwo _ hmonth, htwo _ hday, htwo _ hhour, htwo _ hminute,
    htwo _ hsecond, hfraction, hzone, Option.bind_eq_bind, Option.bind_some]
  exact if_pos rfl

/-- A point in time is read back from its text. -/
theorem ofText?_text {t : Timestamp} (h : t.IsTold) : ofText? t.text = some t := by
  obtain ⟨seconds, nanos⟩ := t
  obtain ⟨htellable, hnanos⟩ := h
  dsimp only at htellable hnanos
  have hfloor : Int.fdiv seconds 86400 = seconds / 86400 := Int.fdiv_eq_ediv_of_nonneg _ (by decide)
  obtain ⟨rest, hrest, hlt⟩ : ∃ n : Nat, (seconds - seconds / 86400 * 86400).toNat = n ∧ n < 86400 := ⟨_, rfl, by omega⟩
  obtain ⟨year, month, day, hdate⟩ : ∃ year month day, dateOf (seconds / 86400) = (year, month, day) := ⟨_, _, _, rfl⟩
  obtain ⟨hmonth, hmonth', hday, hday', hnumber⟩ := dateOf_spec hdate
  have hlength : monthLength year month ≤ 31 := by
    rw [monthLength]
    split
    · split <;> decide
    · split <;> decide
  have hread := ofText?_parts year (show month < 100 by omega) (show day < 100 by omega)
    (show rest / 3600 < 100 by omega) (show rest / 60 % 60 < 100 by omega)
    (show rest % 60 + nanos / 1000000000 < 100 by omega) (show nanos % 1000000000 < 1000000000 by omega)
  have htext : text ⟨seconds, nanos⟩ = yearText year ++ "-" ++ padded 2 month ++ "-" ++ padded 2 day ++ "T" ++
      padded 2 (rest / 3600) ++ ":" ++ padded 2 (rest / 60 % 60) ++ ":" ++
        padded 2 (rest % 60 + nanos / 1000000000) ++ fractionText (nanos % 1000000000) ++ "Z" := by
    rw [text]
    simp only [hfloor, hrest, hdate]
  rw [htext, hread, ofParts?]
  have hsum : dayNumber year month day * 86400 +
      (rest / 3600 * 3600 + rest / 60 % 60 * 60 + min (rest % 60 + nanos / 1000000000) 59 : Nat) = seconds := by
    rw [hnumber]
    omega
  rw [if_pos (by omega)]
  have hback : (if rest % 60 + nanos / 1000000000 = 60 then nanos % 1000000000 + 1000000000
      else nanos % 1000000000) = nanos := by
    split <;> omega
  simp only [hsum, Int.sub_zero, htellable, Bool.and_self, if_true, hback]

end PacketFilter.Timestamp
