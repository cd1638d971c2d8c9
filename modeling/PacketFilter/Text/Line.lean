/-! # Blanks, lines and separators

`isBlank` is the Unicode property White_Space; `trim` drops blanks at both ends of a text, and `fields` gives the
maximal runs of other characters. `lines` cuts a text at its newlines and `cut` at the first occurrence of a character,
`contains` looks for a piece of text inside another, and `afterStart?` gives what follows a given beginning. The work is
done on lists of characters; `String` versions stand beside those that callers use on whole texts. -/

namespace PacketFilter.Text

/-- The characters with the Unicode property White_Space: U+0009 to U+000D, U+0020, U+0085, U+00A0,
U+1680, U+2000 to U+200A, U+2028, U+2029, U+202F, U+205F and U+3000. -/
def isBlank (c : Char) : Bool :=
  let n := c.toNat
  (9 ≤ n && n ≤ 13) || n == 32 || n == 0x85 || n == 0xA0 || n == 0x1680 ||
    (0x2000 ≤ n && n ≤ 0x200A) || n == 0x2028 || n == 0x2029 || n == 0x202F || n == 0x205F ||
    n == 0x3000

/-- The characters of general category Cc. -/
def isControl (c : Char) : Bool :=
  c.toNat < 32 || (127 ≤ c.toNat && c.toNat < 160)

/-- The characters of `cs` after the last one that satisfies `p` have been dropped. -/
def dropEndWhile {α : Type} (p : α → Bool) (cs : List α) : List α :=
  (cs.reverse.dropWhile p).reverse

/-- The characters between the first and the last one that does not satisfy `p`. -/
def trimWhile {α : Type} (p : α → Bool) (cs : List α) : List α :=
  dropEndWhile p (cs.dropWhile p)

/-- A text without the blanks at its ends. -/
def trim (s : String) : String :=
  String.ofList (trimWhile isBlank s.toList)

/-- A text without the blanks at its end. -/
def trimEnd (s : String) : String :=
  String.ofList (dropEndWhile isBlank s.toList)

/-- The pieces between the characters that satisfy `p`: one more than there are such characters. -/
def splitAt (p : Char → Bool) : List Char → List (List Char)
  | [] => [[]]
  | c :: cs =>
    if p c then [] :: splitAt p cs
    else match splitAt p cs with
      | [] => [[c]]
      | piece :: pieces => (c :: piece) :: pieces

theorem splitAt_ne_nil (p : Char → Bool) (cs : List Char) : splitAt p cs ≠ [] := by
  cases cs with
  | nil => simp [splitAt]
  | cons c cs =>
    rw [splitAt]
    split
    · simp
    · split <;> simp

/-- The longest start of characters that satisfy `p` ends where the first one stands that does not. -/
theorem span_append {p : Char → Bool} {cs rest : List Char} (hcs : ∀ c ∈ cs, p c = true)
    (hrest : ∀ c ∈ rest.head?, p c = false) :
    (cs ++ rest).takeWhile p = cs ∧ (cs ++ rest).dropWhile p = rest := by
  have hnone : rest.takeWhile p = [] ∧ rest.dropWhile p = rest := by
    cases rest with
    | nil => exact ⟨rfl, rfl⟩
    | cons c rest => simp [hrest c rfl]
  rw [List.takeWhile_append_of_pos hcs, List.dropWhile_append_of_pos hcs, hnone.1, hnone.2, List.append_nil]
  exact ⟨rfl, rfl⟩

/-- The maximal runs of characters that are not blank. -/
def fields (s : String) : List String :=
  ((splitAt isBlank s.toList).filter (! ·.isEmpty)).map String.ofList

/-- A line without the one carriage return that may stand before its newline. -/
def chomp (cs : List Char) : List Char :=
  if cs.getLast? = some '\r' then cs.dropLast else cs

/-- The lines among the pieces between newlines: every piece but the last was ended by a newline,
and an empty last piece is no line. -/
def linesOfPieces : List (List Char) → List (List Char)
  | [] => []
  | [last] => if last.isEmpty then [] else [last]
  | piece :: pieces => chomp piece :: linesOfPieces pieces

/-- The lines of a text, without their ends `\n` or `\r\n`. -/
def lines (s : String) : List String :=
  (linesOfPieces (splitAt (· == '\n') s.toList)).map String.ofList

/-- The parts before and after the first `c`. -/
def cutList (c : Char) : List Char → Option (List Char × List Char)
  | [] => none
  | d :: ds =>
    if d = c then some ([], ds)
    else (cutList c ds).map fun (before, after) => (d :: before, after)

/-- The parts of a text before and after the first `c`. -/
def cut (c : Char) (s : String) : Option (String × String) :=
  (cutList c s.toList).map fun (before, after) => (String.ofList before, String.ofList after)

theorem cutList_eq_none_iff {c : Char} {cs : List Char} : cutList c cs = none ↔ c ∉ cs := by
  induction cs with
  | nil => simp [cutList]
  | cons d ds ih =>
    by_cases h : d = c
    · simp [cutList, h]
    · simp [cutList, h, ih, Ne.symm h]

theorem cutList_eq_some_iff {c : Char} {cs before after : List Char} :
    cutList c cs = some (before, after) ↔ cs = before ++ c :: after ∧ c ∉ before := by
  induction cs generalizing before after with
  | nil => simp [cutList]
  | cons d ds ih =>
    by_cases h : d = c
    · subst h
      cases before with
      | nil => simp [cutList]
      | cons b bs =>
        simp only [cutList, if_true, Option.some.injEq, Prod.mk.injEq, reduceCtorEq, false_and,
          List.cons_append, List.cons.injEq, List.mem_cons, not_or, false_iff, not_and]
        intro hd hb
        exact absurd hd.1 hb
    · cases before with
      | nil => simp [cutList, h]
      | cons b bs =>
        simp only [cutList, h, if_false, Option.map_eq_some_iff, Prod.mk.injEq, Prod.exists,
          List.cons.injEq, List.cons_append, List.mem_cons, not_or]
        constructor
        · rintro ⟨x, y, hxy, ⟨rfl, rfl⟩, rfl⟩
          obtain ⟨e, hx⟩ := ih.mp hxy
          exact ⟨⟨rfl, e⟩, Ne.symm h, hx⟩
        · rintro ⟨⟨rfl, e⟩, _, hb⟩
          exact ⟨bs, after, ih.mpr ⟨e, hb⟩, ⟨rfl, rfl⟩, rfl⟩

theorem cut_eq_some_iff {c : Char} {s before after : String} :
    cut c s = some (before, after) ↔ s = before ++ String.singleton c ++ after ∧ c ∉ before.toList := by
  unfold cut
  constructor
  · intro h
    obtain ⟨⟨cs, ds⟩, hcut, heq⟩ := Option.map_eq_some_iff.mp h
    obtain ⟨rfl, rfl⟩ := Prod.mk.inj heq
    obtain ⟨htext, hc⟩ := cutList_eq_some_iff.mp hcut
    refine ⟨String.toList_inj.mp ?_, by simpa using hc⟩
    simpa using htext
  · rintro ⟨rfl, hc⟩
    have hcut : cutList c (before ++ String.singleton c ++ after).toList = some (before.toList, after.toList) :=
      cutList_eq_some_iff.mpr ⟨by simp, hc⟩
    rw [hcut]
    simp

/-- Whether `needle` occurs in a list of characters. -/
def containsList (needle : List Char) : List Char → Bool
  | [] => needle.isEmpty
  | c :: cs => needle.isPrefixOf (c :: cs) || containsList needle cs

/-- Whether `needle` occurs in `s`; the empty text occurs in every text. -/
def contains (needle s : String) : Bool :=
  containsList needle.toList s.toList

/-- What follows `start` in a list of characters that begins with it. -/
def dropStart? : List Char → List Char → Option (List Char)
  | [], cs => some cs
  | _ :: _, [] => none
  | d :: ds, c :: cs => if d = c then dropStart? ds cs else none

/-- What follows `start` in a text that begins with it. -/
def afterStart? (start s : String) : Option String :=
  (dropStart? start.toList s.toList).map String.ofList

theorem dropStart?_eq_some_iff {start cs rest : List Char} :
    dropStart? start cs = some rest ↔ cs = start ++ rest := by
  induction start generalizing cs with
  | nil => simp [dropStart?, eq_comm]
  | cons d ds ih =>
    cases cs with
    | nil => simp [dropStart?]
    | cons c cs =>
      by_cases h : d = c
      · simp [dropStart?, h, ih]
      · simp [dropStart?, h, Ne.symm h]

theorem afterStart?_eq_some_iff {start s rest : String} : afterStart? start s = some rest ↔ s = start ++ rest := by
  rw [afterStart?, Option.map_eq_some_iff, ← String.toList_inj, String.toList_append]
  constructor
  · rintro ⟨cs, hcs, rfl⟩
    rw [String.toList_ofList]
    exact dropStart?_eq_some_iff.mp hcs
  · intro h
    exact ⟨rest.toList, dropStart?_eq_some_iff.mpr h, String.ofList_toList⟩

/-- The pieces of a text joined with one space between neighbours. -/
def unwords (pieces : List String) : String :=
  " ".intercalate pieces

theorem exists_toList_unwords_cons (w : String) (ws : List String) :
    ∃ rest, (unwords (w :: ws)).toList = w.toList ++ rest := by
  cases ws <;> simp [unwords, String.toList_intercalate, List.intercalate]

end PacketFilter.Text
