import Mathlib.Data.List.TakeWhile
import PacketFilter.Json.Reader
import PacketFilter.Json.Text
import PacketFilter.Text.Line

/-! # JSON text

A value is read back from its text if all of its numbers are integers of a word (`Json.ofText?_compact`). The text is
split into the tokens that it was written for (`Json.reads_tokens`), and these lead the machine to the value
(`Json.ofTokens?_tokens`). The text has no line break, whatever its strings hold (`Json.printable_compact`). -/

namespace PacketFilter.Json

/-! ### Strings -/

theorem hexValue?_hexDigit : ∀ n < 16, hexValue? (hexDigit n) = some n := by
  decide

theorem unit?_hexDigits {c : Char} (h : c.toNat < 32) :
    unit? '0' '0' (hexDigit (c.toNat / 16)) (hexDigit (c.toNat % 16)) = some (.char c) := by
  have hhigh := hexValue?_hexDigit (c.toNat / 16) (by omega)
  have hlow := hexValue?_hexDigit (c.toNat % 16) (by omega)
  have hzero : hexValue? '0' = some 0 := rfl
  have hsum : (0 * 16 + 0) * 256 + c.toNat / 16 * 16 + c.toNat % 16 = c.toNat := by omega
  simp only [unit?, hzero, hhigh, hlow, Option.bind_eq_bind, Option.bind_some, hsum, Option.pure_def]
  rw [if_neg (by omega), Char.ofNat_toNat]

theorem scanString?_short {d c : Char} (h : shortEscape? d = some c) (cs : List Char) :
    scanString? ('\\' :: d :: cs) = (scanString? cs).map fun (us, rest) => (.char c :: us, rest) := by
  have hu : d ≠ 'u' := by
    rintro rfl
    cases h
  rw [scanString?.eq_4 _ _ (fun _ _ _ _ _ hd _ => hu hd), h]
  cases scanString? cs <;> rfl

theorem scanString?_plain {c : Char} (h32 : 32 ≤ c.toNat) (hquote : c ≠ '"') (hback : c ≠ '\\') (cs : List Char) :
    scanString? (c :: cs) = (scanString? cs).map fun (us, rest) => (.char c :: us, rest) := by
  rw [scanString?.eq_5 _ _ hquote (fun _ _ _ _ _ hc _ => hback hc) (fun _ _ hc _ => hback hc),
    if_neg (not_or.mpr ⟨by omega, hback⟩)]
  cases scanString? cs <;> rfl

theorem scanString?_escapeChar (c : Char) (cs : List Char) :
    scanString? (escapeChar c ++ cs) = (scanString? cs).map fun (us, rest) => (.char c :: us, rest) := by
  fun_cases escapeChar c with
  | case1 h => subst h; exact scanString?_short rfl cs
  | case2 _ h => subst h; exact scanString?_short rfl cs
  | case3 _ _ h => subst h; exact scanString?_short rfl cs
  | case4 _ _ _ h => subst h; exact scanString?_short rfl cs
  | case5 _ _ _ _ h => subst h; exact scanString?_short rfl cs
  | case6 _ _ _ _ _ h => subst h; exact scanString?_short rfl cs
  | case7 _ _ _ _ _ _ h => subst h; exact scanString?_short rfl cs
  | case8 _ _ _ _ _ _ _ h =>
      simp only [List.cons_append, List.nil_append, scanString?, unit?_hexDigits h, Option.bind_eq_bind,
        Option.bind_some]
      cases scanString? cs <;> rfl
  | case9 hquote hback _ _ _ _ _ h => exact scanString?_plain (by omega) hquote hback cs

theorem printable_escapeChar (c : Char) : ∀ d ∈ escapeChar c, 32 ≤ d.toNat := by
  have hhex : ∀ n < 16, 32 ≤ (hexDigit n).toNat := by decide
  fun_cases escapeChar c with
  | case8 _ _ _ _ _ _ _ h =>
      simp only [List.forall_mem_cons]
      exact ⟨by decide, by decide, by decide, by decide, hhex _ (by omega), hhex _ (by omega), by simp⟩
  | case9 _ _ _ _ _ _ _ h => simpa using h
  | _ => simp

theorem scanString?_chars (s rest : List Char) :
    scanString? (s.flatMap escapeChar ++ '"' :: rest) = some (s.map .char, rest) := by
  induction s with
  | nil => rfl
  | cons c s ih =>
      rw [List.flatMap_cons, List.append_assoc, scanString?_escapeChar, ih]
      rfl

theorem joinUnits?_chars (s : List Char) : joinUnits? (s.map .char) = some s := by
  induction s with
  | nil => rfl
  | cons c s ih =>
      rw [List.map_cons, joinUnits?, ih]
      rfl

theorem readString?_chars (s : String) (rest : List Char) :
    readString? (s.toList.flatMap escapeChar ++ '"' :: rest) = some (.str s, rest) := by
  simp only [readString?, scanString?_chars, Option.bind_eq_bind, Option.bind_some, joinUnits?_chars, Option.elim,
    Option.pure_def, String.ofList_toList]

/-! ### Integers -/

section range
open Range

theorem rounded_le (n : Nat) : rounded n ≤ 2 * n := by
  rcases Nat.eq_zero_or_pos n with rfl | hn
  · decide
  · have hunit : Nat.pow 2 (n.log2 + 1 - 53) ≤ n :=
      (Nat.pow_le_pow_right (by decide) (by omega)).trans (Nat.log2_self_le hn.ne')
    have hbelow := Nat.div_mul_le_self n (Nat.pow 2 (n.log2 + 1 - 53))
    rw [rounded]
    split
    · rw [Nat.add_mul]
      omega
    · omega

theorem rounded_word {n bits : Nat} (h : n < wordLimit) (hbits : 66 ≤ bits) :
    ¬ Nat.pow 2 bits ≤ rounded (rounded n * 1) := by
  have hpower : 2 ^ 66 ≤ 2 ^ bits := Nat.pow_le_pow_right Nat.two_pos hbits
  have houter := rounded_le (rounded n * 1)
  have hinner := rounded_le n
  have hlimit : 4 * wordLimit = 2 ^ 66 := rfl
  exact Nat.not_le_of_gt (Nat.lt_of_lt_of_le (by omega) hpower)

theorem isHugeProduct_word {n : Nat} (h : n < wordLimit) : isHugeProduct n 0 = false := by
  have hpower : ¬ maxPower < 0 := by decide
  have hone : rounded (Nat.pow 10 (Int.toNat 0)) = 1 := by decide
  rw [isHugeProduct, hone]
  generalize hbits : 1024 = bits
  have hfits := rounded_word h (show 66 ≤ bits by omega)
  rw [decide_eq_false hfits, decide_eq_false hpower, Bool.and_false, Bool.or_false, Bool.and_false]

theorem leading_eq {n : Nat} {ds : List Char}
    (h : ds.foldl (fun n c => 10 * n + Text.Decimal.digit c) n < wordLimit) :
    leading n ds = (ds.foldl (fun n c => 10 * n + Text.Decimal.digit c) n, ds.length) := by
  induction ds generalizing n with
  | nil => rfl
  | cons d ds ih =>
      have hgrows : ∀ (ds : List Char) (n : Nat), n ≤ ds.foldl (fun n c => 10 * n + Text.Decimal.digit c) n := by
        intro ds
        induction ds with
        | nil => exact Nat.le_refl
        | cons d ds ih => exact fun n => Nat.le_trans (by dsimp only; omega) (ih _)
      rw [List.foldl_cons] at h
      rw [leading, if_pos (Nat.lt_of_le_of_lt (hgrows ds _) h), ih h]
      rfl

theorem isHuge_word {ds : List Char} (h : Text.Decimal.value ds < wordLimit) : isHuge ds [] 0 = false := by
  have hleading := leading_eq h
  rw [isHuge, hleading]
  simp only [leading, Nat.sub_self]
  exact isHugeProduct_word h

end range

theorem isWhole_toString (n : Nat) : isWhole (toString n).toList = true := by
  rw [isWhole, Text.Decimal.isNumeral_toString, Bool.true_and, Bool.or_eq_true]
  rcases Nat.eq_zero_or_pos n with rfl | hn
  · exact .inl rfl
  · exact .inr (bne_iff_ne.mpr (Text.Decimal.head?_toString_ne hn))

theorem unsignedNumber?_toString {n : Nat} (h : n < Range.wordLimit) (negative : Bool)
    (hzero : negative = true → n ≠ 0) :
    unsignedNumber? negative (toString n).toList = some (.int (if negative then -(n : Int) else n)) := by
  have hdigits : ∀ c ∈ (toString n).toList, c.isDigit = true := fun c hc => Text.Decimal.isDigit_of_mem_toString hc
  have hwhole : (toString n).toList.takeWhile Char.isDigit = (toString n).toList :=
    List.takeWhile_eq_self_iff.mpr hdigits
  have htail : (toString n).toList.dropWhile Char.isDigit = [] :=
    List.dropWhile_eq_nil_iff.mpr hdigits
  have hvalue := Text.Decimal.value_toString n
  have hhuge : Range.isHuge (toString n).toList (fractionDigits []) (power []) = false :=
    isHuge_word (hvalue.symm ▸ h)
  have hint : (negative && n == 0) = false := by
    cases negative with
    | false => rfl
    | true => exact beq_false_of_ne (hzero rfl)
  simp only [unsignedNumber?, hwhole, htail, isWhole_toString, hhuge, hvalue, hint]
  rfl

theorem number?_toString {n : Int} (h : n.natAbs < Range.wordLimit) : number? (toString n).toList = some (.int n) := by
  cases n with
  | ofNat n =>
      have hminus : ∀ cs, (toString n).toList ≠ '-' :: cs :=
        fun cs hcs => Text.Decimal.not_mem_toString (c := '-') rfl n (hcs ▸ List.mem_cons_self)
      rw [show (toString (Int.ofNat n)).toList = (toString n).toList from rfl, number?.eq_2 _ hminus]
      exact unsignedNumber?_toString h false fun hneg => by cases hneg
  | negSucc n =>
      have htext : (toString (Int.negSucc n)).toList = '-' :: (toString (n + 1)).toList := String.toList_append
      have hdigits := unsignedNumber?_toString (n := n + 1) h true fun _ => n.succ_ne_zero
      rw [htext, number?, hdigits]
      rfl

/-! ### Tokens -/

/-- No number and no name goes on with a text. -/
def Delimits (rest : List Char) : Prop :=
  ∀ c ∈ rest.head?, isNumberChar c = false ∧ c.isAlpha = false

theorem lex?_mark {c : Char} {t : Token} (hgap : isGap c = false) (h : mark? c = some t) (cs : List Char) :
    lex? (c :: cs) = (lex? cs).map (t :: ·) := by
  rw [lex?, if_neg (Bool.eq_false_iff.mp hgap), h]

theorem lex?_quote {cs rest : List Char} {v : Json} (h : readString? cs = some (v, rest)) :
    lex? ('"' :: cs) = (lex? rest).map (.scalar v :: ·) := by
  rw [lex?, if_neg (by decide)]
  simp only [show mark? '"' = none from rfl, if_true]
  split
  · rename_i hnone
    cases hnone.symm.trans h
  · rename_i v' rest' hsome
    obtain ⟨rfl, rfl⟩ := Prod.mk.inj (Option.some.inj (hsome.symm.trans h))
    rfl

theorem isGap_of_isNumberChar {c : Char} (h : isNumberChar c = true) : isGap c = false := by
  by_contra hgap
  rw [Bool.not_eq_false, isGap, Bool.or_eq_true, Bool.or_eq_true, Bool.or_eq_true, beq_iff_eq, beq_iff_eq, beq_iff_eq,
    beq_iff_eq] at hgap
  rcases hgap with ((rfl | rfl) | rfl) | rfl <;> cases h

theorem mark?_of_isNumberChar {c : Char} (h : isNumberChar c = true) : mark? c = none := by
  rw [mark?.eq_def]
  split <;> first | rfl | cases h

/-- A number that a text goes on after is read as far as it goes. -/
theorem lex?_number {c : Char} {cs rest : List Char} {v : Json} (hcs : ∀ d ∈ c :: cs, isNumberChar d = true)
    (hexponent : c ≠ 'e' ∧ c ≠ 'E') (hrest : Delimits rest) (h : number? (c :: cs) = some v) :
    lex? (c :: cs ++ rest) = (lex? rest).map (.scalar v :: ·) := by
  have hc := hcs c List.mem_cons_self
  obtain ⟨htake, hdrop⟩ := Text.span_append (fun d hd => hcs d (List.mem_cons_of_mem _ hd)) fun d hd => (hrest d hd).1
  have hquote : c ≠ '"' := by
    rintro rfl
    cases hc
  rw [List.cons_append, lex?, if_neg (Bool.eq_false_iff.mp (isGap_of_isNumberChar hc)), mark?_of_isNumberChar hc]
  simp only [if_neg hquote, hc, bne_iff_ne.mpr hexponent.1, bne_iff_ne.mpr hexponent.2, Bool.and_self, if_true, htake,
    hdrop, h, Option.bind_eq_bind, Option.bind_some]

theorem isDigit_or_eq_of_mem_toString {n : Int} {c : Char} (hc : c ∈ (toString n).toList) :
    c.isDigit = true ∨ c = '-' := by
  cases n with
  | ofNat n => exact .inl (Text.Decimal.isDigit_of_mem_toString hc)
  | negSucc n =>
      have htext : (toString (Int.negSucc n)).toList = '-' :: (toString (n + 1)).toList := String.toList_append
      rw [htext] at hc
      rcases List.mem_cons.mp hc with rfl | hc
      · exact .inr rfl
      · exact .inl (Text.Decimal.isDigit_of_mem_toString hc)

theorem lex?_int {n : Int} (h : n.natAbs < Range.wordLimit) {rest : List Char} (hrest : Delimits rest) :
    lex? ((toString n).toList ++ rest) = (lex? rest).map (.scalar (.int n) :: ·) := by
  have hchars : ∀ c ∈ (toString n).toList, c.isDigit = true ∨ c = '-' := fun c => isDigit_or_eq_of_mem_toString
  have hread := number?_toString h
  cases hcs : (toString n).toList with
  | nil =>
      rw [hcs] at hread
      cases hread
  | cons c cs =>
      rw [hcs] at hread hchars
      refine lex?_number (fun d hd => ?_) ?_ hrest hread
      · rcases hchars d hd with hd | rfl
        · rw [isNumberChar, hd]
          rfl
        · rfl
      · rcases hchars c List.mem_cons_self with hc | rfl
        · constructor <;> rintro rfl <;> cases hc
        · decide

theorem lex?_name {c : Char} {cs rest : List Char} {v : Json} (hc : isNumberChar c = false) (hgap : isGap c = false)
    (hmark : mark? c = none) (hquote : c ≠ '"') (hcs : cs.all Char.isAlpha = true) (hrest : Delimits rest)
    (h : name? (c :: cs) = some v) : lex? (c :: cs ++ rest) = (lex? rest).map (.scalar v :: ·) := by
  obtain ⟨htake, hdrop⟩ := Text.span_append (List.all_eq_true.mp hcs) fun d hd => (hrest d hd).2
  rw [List.cons_append, lex?, if_neg (Bool.eq_false_iff.mp hgap), hmark]
  simp only [if_neg hquote, hc, Bool.false_and, htake, hdrop, h, Option.bind_eq_bind, Option.bind_some]
  rfl

/-! ### Values -/

mutual

/-- Whether all numbers in a value are integers of a word, and all texts are Unicode. -/
def isPlain : Json → Bool
  | .null | .bool _ | .str _ => true
  | .int n => n.natAbs < Range.wordLimit
  | .arr items => itemsPlain items
  | .obj members => membersPlain members
  | .real _ | .huge | .damaged => false

/-- Whether all values of a list are plain. -/
def itemsPlain : List Json → Bool
  | [] => true
  | v :: vs => isPlain v && itemsPlain vs

def membersPlain : List (String × Json) → Bool
  | [] => true
  | (_, v) :: ms => isPlain v && membersPlain ms

end

/-- The text of some tokens has no control characters, and is split into them again, whatever goes on after it. -/
structure Reads (ts : List Token) : Prop where
  lex : ∀ rest, Delimits rest → lex? (ts.flatMap Token.chars ++ rest) = (lex? rest).map (ts ++ ·)
  printable : ∀ c ∈ ts.flatMap Token.chars, 32 ≤ c.toNat

/-- Whether a token is one character. -/
def Token.isMark : Token → Bool
  | .scalar _ => false
  | _ => true

theorem Token.exists_char {t : Token} (h : t.isMark = true) :
    ∃ c, t.chars = [c] ∧ 32 ≤ c.toNat ∧ isGap c = false ∧ mark? c = some t ∧ Delimits [c] := by
  cases t with
  | scalar v => cases h
  | _ => exact ⟨_, rfl, by decide, rfl, rfl, fun c hc => by cases hc; decide⟩

theorem Reads.nil : Reads [] where
  lex _ _ := Option.map_id'.symm
  printable _ hc := absurd hc List.not_mem_nil

theorem Reads.mark {t : Token} {ts : List Token} (ht : t.isMark = true) (h : Reads ts) : Reads (t :: ts) := by
  obtain ⟨c, hchars, hprint, hgap, hmark, -⟩ := Token.exists_char ht
  constructor
  · intro rest hrest
    rw [List.flatMap_cons, hchars, List.append_assoc, List.singleton_append, lex?_mark hgap hmark, h.lex rest hrest,
      Option.map_map]
    rfl
  · rw [List.flatMap_cons, hchars]
    exact List.forall_mem_cons.mpr ⟨hprint, h.printable⟩

theorem Reads.append {ts ts' : List Token} {t : Token} (h : Reads ts) (ht : t.isMark = true) (h' : Reads (t :: ts')) :
    Reads (ts ++ t :: ts') := by
  constructor
  · intro rest hrest
    have hdelimits : Delimits ((t :: ts').flatMap Token.chars ++ rest) := by
      obtain ⟨c, hchars, -, -, -, hends⟩ := Token.exists_char ht
      rw [List.flatMap_cons, hchars]
      exact hends
    rw [List.flatMap_append, List.append_assoc, h.lex _ hdelimits, h'.lex rest hrest, Option.map_map]
    congr 1
    funext more
    exact (List.append_assoc ts (t :: ts') more).symm
  · rw [List.flatMap_append]
    exact List.forall_mem_append.mpr ⟨h.printable, h'.printable⟩

theorem printable_scalarChars {v : Json} (hv : v.isPlain = true) : ∀ c ∈ scalarChars v, 32 ≤ c.toNat := by
  cases v with
  | bool b => cases b <;> simp [scalarChars]
  | int n =>
      intro c hc
      rcases isDigit_or_eq_of_mem_toString hc with hc | rfl
      · exact Nat.le_trans (by decide) (Char.isDigit_iff_toNat.mp hc).1
      · decide
  | str s =>
      rw [scalarChars, stringChars, List.cons_append]
      have hchars := List.forall_mem_flatMap.mpr fun c (_ : c ∈ s.toList) => printable_escapeChar c
      exact List.forall_mem_cons.mpr ⟨by decide, List.forall_mem_append.mpr ⟨hchars, by simp⟩⟩
  | real text => cases hv
  | _ => simp [scalarChars]

theorem Reads.scalar {v : Json} (hv : v.isPlain = true) (htokens : v.tokens = [.scalar v]) : Reads [.scalar v] := by
  rw [← htokens]
  constructor
  · intro rest hrest
    rw [htokens, List.flatMap_singleton, Token.chars]
    cases v with
    | null => exact lex?_name (by decide) (by decide) rfl (by decide) (by decide) hrest rfl
    | bool b => cases b <;> exact lex?_name (by decide) (by decide) rfl (by decide) (by decide) hrest rfl
    | int n => exact lex?_int (of_decide_eq_true hv) hrest
    | str s =>
        rw [scalarChars, stringChars, List.cons_append, List.cons_append, List.append_assoc]
        exact lex?_quote (readString?_chars s rest)
    | arr items => cases htokens
    | obj members => cases htokens
    | real text => cases hv
    | huge => cases hv
    | damaged => cases hv
  · rw [htokens, List.flatMap_singleton]
    exact printable_scalarChars hv

mutual

/-- The text of a plain value is split into the tokens of the value. -/
theorem reads_tokens : ∀ {v : Json}, v.isPlain = true → Reads v.tokens
  | .null, h => Reads.scalar h rfl
  | .bool _, h => Reads.scalar h rfl
  | .int _, h => Reads.scalar h rfl
  | .str _, h => Reads.scalar h rfl
  | .arr _, h => .mark rfl ((reads_itemTokens h).append rfl (.mark rfl .nil))
  | .obj _, h => .mark rfl ((reads_memberTokens h).append rfl (.mark rfl .nil))

theorem reads_itemTokens : ∀ {vs : List Json}, itemsPlain vs = true → Reads (itemTokens vs)
  | [], _ => .nil
  | [_], h => reads_tokens (Bool.and_eq_true_iff.mp h).1
  | _ :: _ :: _, h =>
    have h := Bool.and_eq_true_iff.mp h
    (reads_tokens h.1).append rfl (.mark rfl (reads_itemTokens h.2))

theorem reads_memberTokens : ∀ {ms : List (String × Json)}, membersPlain ms = true → Reads (memberTokens ms)
  | [], _ => .nil
  | [(_, _)], h =>
    (Reads.scalar rfl rfl).append rfl (.mark rfl (reads_tokens (Bool.and_eq_true_iff.mp h).1))
  | (_, _) :: _ :: _, h =>
    have h := Bool.and_eq_true_iff.mp h
    (Reads.scalar rfl rfl).append rfl
      (.mark rfl ((reads_tokens h.1).append rfl (.mark rfl (reads_memberTokens h.2))))

end

/-! ### The machine -/

theorem itemTokens_cons_cons (v u : Json) (vs : List Json) :
    itemTokens (v :: u :: vs) = v.tokens ++ .comma :: itemTokens (u :: vs) :=
  rfl

theorem memberTokens_cons_cons (name : String) (v : Json) (m : String × Json) (ms : List (String × Json)) :
    memberTokens ((name, v) :: m :: ms) =
      .scalar (.str name) :: .colon :: (v.tokens ++ .comma :: memberTokens (m :: ms)) :=
  rfl

theorem run_cons {t : Token} {s s' : State} (h : step s t = some s') (ts : List Token) :
    (t :: ts).foldlM step s = ts.foldlM step s' := by
  rw [List.foldlM_cons, h]
  rfl

theorem run_append {ts : List Token} {s s' : State} (h : ts.foldlM step s = some s') (ts' : List Token) :
    (ts ++ ts').foldlM step s = ts'.foldlM step s' := by
  rw [List.foldlM_append, h]
  rfl

theorem run_firstItem (v : Json) (ts : List Token) (frames : List Frame) :
    (v.tokens ++ ts).foldlM step (.reading .firstItem frames) =
      (v.tokens ++ ts).foldlM step (.reading .value frames) := by
  cases v <;> rfl

theorem run_items_first (vs : List Json) (hvs : vs ≠ []) (frames : List Frame) :
    (itemTokens vs).foldlM step (.reading .firstItem frames) =
      (itemTokens vs).foldlM step (.reading .value frames) := by
  cases vs with
  | nil => exact absurd rfl hvs
  | cons v vs =>
      cases vs with
      | nil =>
          have hfirst := run_firstItem v [] frames
          rw [List.append_nil] at hfirst
          exact hfirst
      | cons u vs => exact run_firstItem v _ frames

theorem run_members_first (ms : List (String × Json)) (hms : ms ≠ []) (frames : List Frame) :
    (memberTokens ms).foldlM step (.reading .firstName frames) =
      (memberTokens ms).foldlM step (.reading .name frames) := by
  cases ms with
  | nil => exact absurd rfl hms
  | cons m ms => cases ms <;> rfl

mutual

/-- The tokens of a value lead the machine to that value. -/
theorem run_tokens : ∀ (v : Json) (frames : List Frame),
    v.tokens.foldlM step (.reading .value frames) = some (supply v frames)
  | .null, _ => rfl
  | .bool _, _ => rfl
  | .int _, _ => rfl
  | .real _, _ => rfl
  | .huge, _ => rfl
  | .str _, _ => rfl
  | .damaged, _ => rfl
  | .arr vs, frames => by
      by_cases hvs : vs = []
      · rw [hvs]
        rfl
      · have hitems := run_itemTokens vs hvs [] frames
        rw [← run_items_first vs hvs] at hitems
        rw [tokens, run_cons rfl, run_append hitems, run_cons rfl, List.append_nil, List.reverse_reverse]
        rfl
  | .obj ms, frames => by
      by_cases hms : ms = []
      · rw [hms]
        rfl
      · have hmembers := run_memberTokens ms hms [] frames
        rw [← run_members_first ms hms] at hmembers
        rw [tokens, run_cons rfl, run_append hmembers, run_cons rfl, List.append_nil, closeObject, if_pos rfl,
          List.reverse_reverse]
        rfl

theorem run_itemTokens : ∀ vs : List Json, vs ≠ [] → ∀ (done : List Json) (frames : List Frame),
    (itemTokens vs).foldlM step (.reading .value (.items done :: frames)) =
      some (.reading .rest (.items (vs.reverse ++ done) :: frames))
  | [], h, _, _ => absurd rfl h
  | [v], _, done, frames => run_tokens v (.items done :: frames)
  | v :: u :: vs, _, done, frames => by
      have hrest := run_itemTokens (u :: vs) (List.cons_ne_nil u vs) (v :: done) frames
      rw [itemTokens_cons_cons, run_append (run_tokens v _), run_cons rfl, List.reverse_cons, List.append_assoc]
      exact hrest

theorem run_memberTokens : ∀ ms : List (String × Json), ms ≠ [] → ∀ (done : List (String × Json)) (frames : List Frame),
    (memberTokens ms).foldlM step (.reading .name (.members true done :: frames)) =
      some (.reading .rest (.members true (ms.reverse ++ done) :: frames))
  | [], h, _, _ => absurd rfl h
  | [(name, v)], _, done, frames => run_tokens v (.member true done name :: frames)
  | (name, v) :: m :: ms, _, done, frames => by
      have hrest := run_memberTokens (m :: ms) (List.cons_ne_nil m ms) ((name, v) :: done) frames
      rw [memberTokens_cons_cons, run_cons rfl, run_cons rfl, run_append (run_tokens v _), run_cons rfl,
        List.reverse_cons, List.append_assoc]
      exact hrest

end

theorem ofTokens?_tokens (v : Json) : ofTokens? v.tokens = some v := by
  rw [ofTokens?, run_tokens]
  rfl

/-- A plain value is read back from its text. -/
theorem ofText?_compact {v : Json} (h : v.isPlain = true) : ofText? v.compact = some v := by
  have hlex := (reads_tokens h).lex [] fun c hc => by cases hc
  rw [List.append_nil] at hlex
  rw [ofText?, compact, String.toList_ofList, hlex]
  simp only [lex?, Option.map_some, List.append_nil, Option.bind_eq_bind, Option.bind_some, ofTokens?_tokens]

theorem printable_compact {v : Json} (h : v.isPlain = true) : ∀ c ∈ v.compact.toList, 32 ≤ c.toNat := by
  rw [compact, String.toList_ofList]
  exact (reads_tokens h).printable

mutual

theorem isIntact_of_isPlain : ∀ {v : Json}, v.isPlain = true → v.isIntact = true
  | .null, _ | .bool _, _ | .int _, _ | .str _, _ => rfl
  | .arr _, h => itemsIntact_of_itemsPlain h
  | .obj _, h => membersIntact_of_membersPlain h

theorem itemsIntact_of_itemsPlain : ∀ {vs : List Json}, itemsPlain vs = true → itemsIntact vs = true
  | [], _ => rfl
  | _ :: _, h =>
    have h := Bool.and_eq_true_iff.mp h
    Bool.and_eq_true_iff.mpr ⟨isIntact_of_isPlain h.1, itemsIntact_of_itemsPlain h.2⟩

theorem membersIntact_of_membersPlain : ∀ {ms : List (String × Json)}, membersPlain ms = true → membersIntact ms = true
  | [], _ => rfl
  | (_, _) :: _, h =>
    have h := Bool.and_eq_true_iff.mp h
    Bool.and_eq_true_iff.mpr ⟨isIntact_of_isPlain h.1, membersIntact_of_membersPlain h.2⟩

end

end PacketFilter.Json
