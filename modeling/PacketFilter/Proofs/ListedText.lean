import PacketFilter.Backend.Memory
import PacketFilter.Proofs.WordReading

/-! # Rules as they are listed

A live rule is a line (`IsRuleLine`): it begins with `-A `, holds no newline and does not end with a blank. The
firewall lists it word by word, and plain words lose their quotes (`Word.asListed`). What is listed is a line
again (`IsRuleLine.listedText`) with the same arguments, and the `key` under which a listing finds the rule is
its canonical text. A key is the key of itself (`Firewall.listedKey_listedKey`). -/

namespace PacketFilter

namespace Text

theorem mem_unwords {c : Char} {ps : List String} (h : c ∈ (unwords ps).toList) :
    c = ' ' ∨ ∃ p ∈ ps, c ∈ p.toList := by
  induction ps with
  | nil => simp at h
  | cons p ps ih =>
      cases ps with
      | nil =>
          rw [unwords_singleton] at h
          exact .inr ⟨p, List.mem_cons_self, h⟩
      | cons q qs =>
          rw [toList_unwords_cons_cons, List.mem_append, List.mem_cons] at h
          rcases h with h | rfl | h
          · exact .inr ⟨p, List.mem_cons_self, h⟩
          · exact .inl rfl
          · exact (ih h).imp_right fun ⟨r, hr, hc⟩ => ⟨r, List.mem_cons_of_mem _ hr, hc⟩

theorem getLast?_unwords {p : String} {ps : List String} (hp : p.toList ≠ []) :
    (unwords (ps ++ [p])).toList.getLast? = p.toList.getLast? := by
  induction ps with
  | nil => rw [List.nil_append, unwords_singleton]
  | cons q qs ih =>
      obtain ⟨r, rs, hrs⟩ : ∃ r rs, qs ++ [p] = r :: rs :=
        List.exists_cons_of_ne_nil (List.append_ne_nil_of_right_ne_nil qs (List.cons_ne_nil p []))
      have hne : (unwords (qs ++ [p])).toList ≠ [] := by
        intro h
        rw [h, List.getLast?_nil] at ih
        exact hp (List.getLast?_eq_none_iff.mp ih.symm)
      rw [List.cons_append, hrs, toList_unwords_cons_cons, ← hrs, List.getLast?_append, List.getLast?_cons,
        ih]
      simp [List.getLast?_eq_some_getLast hp]

def EndsInk (cs : List Char) : Prop :=
  ∀ c, cs.getLast? = some c → isBlank c = false

instance (cs : List Char) : Decidable (EndsInk cs) :=
  decidable_of_decidable_of_iff (p := cs.getLast?.all (fun c => ! isBlank c) = true)
    (by cases h : cs.getLast? <;> simp [EndsInk, h])

theorem EndsInk.of_suffix {cs ds : List Char} (h : EndsInk cs) (hs : ds <:+ cs) : EndsInk ds := by
  intro c hc
  apply h c
  obtain ⟨front, rfl⟩ := hs
  rw [List.getLast?_append, hc, Option.some_or]

theorem endsInk_of_forall {cs : List Char} (h : ∀ c ∈ cs, isBlank c = false) : EndsInk cs :=
  fun c hc => h c (List.mem_of_getLast? hc)

end Text

/-! ### Words as they are listed -/

namespace Word

/-- The word that a listed word is read as: plain words lose their quotes. -/
def asListed (w : Word) : Word :=
  { w with quoted := w.quoted && ! Firewall.isPlain w.text }

theorem isBlank_of_isSeparator {c : Char} (h : isSeparator c = true) : Text.isBlank c = true := by
  simp only [isSeparator, Bool.or_eq_true, beq_iff_eq] at h
  rcases h with (((rfl | rfl) | rfl) | rfl) | rfl <;> decide

theorem isBare_of_isAlphanum {c : Char} (h : c.isAlphanum = true) : isBare c = true := by
  have hne : ∀ d : Char, d.isAlphanum = false → c ≠ d := by
    rintro d hd rfl
    rw [h] at hd
    cases hd
  simp [isBare, isSeparator, hne _ (show (' ' : Char).isAlphanum = false by decide),
    hne _ (show '\t'.isAlphanum = false by decide), hne _ (show '\r'.isAlphanum = false by decide),
    hne _ (show '\n'.isAlphanum = false by decide), hne _ (show '\x0c'.isAlphanum = false by decide),
    hne _ (show '"'.isAlphanum = false by decide)]

theorem isBare_of_isPlain {s : String} (h : Firewall.isPlain s = true) :
    s.toList ≠ [] ∧ ∀ c ∈ s.toList, isBare c = true := by
  simp only [Firewall.isPlain, Bool.and_eq_true, Bool.not_eq_true', List.isEmpty_eq_false_iff,
    List.all_eq_true, Bool.or_eq_true, beq_iff_eq] at h
  refine ⟨h.1, fun c hc => ?_⟩
  rcases h.2 c hc with (h | rfl) | rfl
  · exact isBare_of_isAlphanum h
  · decide
  · decide

theorem isBlank_of_isAlphanum {c : Char} (h : c.isAlphanum = true) : Text.isBlank c = false := by
  have hranges : (decide (c.val ≥ 65 ∧ c.val ≤ 90) || (c.val ≥ 97 && c.val ≤ 122) ||
      (c.val ≥ 48 && c.val ≤ 57)) = true := h
  have hc : (65 ≤ c.toNat ∧ c.toNat ≤ 90) ∨ (97 ≤ c.toNat ∧ c.toNat ≤ 122) ∨ (48 ≤ c.toNat ∧ c.toNat ≤ 57) := by
    simpa [UInt32.le_iff_toNat_le, or_assoc] using hranges
  simp [Text.isBlank]
  omega

theorem isBlank_of_isPlain {s : String} (h : Firewall.isPlain s = true) :
    ∀ c ∈ s.toList, Text.isBlank c = false := by
  simp only [Firewall.isPlain, Bool.and_eq_true, List.all_eq_true, Bool.or_eq_true, beq_iff_eq] at h
  intro c hc
  rcases h.2 c hc with (h | rfl) | rfl
  · exact isBlank_of_isAlphanum h
  · decide
  · decide

/-- What stands between the quotes of a listing. -/
def listedInside (cs : List Char) : List Char :=
  cs.flatMap fun c => if c = '"' ∨ c = '\\' ∨ c = '\'' then ['\\', c] else [c]

theorem encloses_listedInside (cs : List Char) : Encloses (listedInside cs) := by
  induction cs with
  | nil => exact encloses_nil
  | cons c cs ih =>
      rw [listedInside, List.flatMap_cons]
      split
      · rename_i h
        refine ih.escaped ?_
        rcases h with rfl | rfl | rfl <;> decide
      · rename_i h
        simp only [not_or] at h
        exact ih.cons h.1 h.2.1

theorem unescape_listedInside (cs : List Char) : unescape (listedInside cs) = cs := by
  induction cs with
  | nil => rfl
  | cons c cs ih =>
      rw [listedInside, List.flatMap_cons]
      split
      · rw [List.cons_append, List.singleton_append, unescape]
        exact congrArg _ ih
      · rename_i h
        simp only [not_or] at h
        rw [List.singleton_append, unescape.eq_def]
        split <;> simp_all [listedInside]

theorem spelledBy_listedQuote (s : String) : SpelledBy ⟨s, true⟩ (Firewall.listedQuote s).toList := by
  have h := spelledBy_quoted (encloses_listedInside s.toList)
  rw [unescape_listedInside, String.ofList_toList] at h
  simpa [Firewall.listedQuote, listedInside] using h

theorem IsClosed.spelledBy_listedWord {w : Word} (h : w.IsClosed) :
    w.asListed.SpelledBy (Firewall.listedWord w).toList := by
  obtain ⟨text, quoted⟩ := w
  cases quoted with
  | false =>
      obtain ⟨hne, hb⟩ := h.resolve_left (by simp)
      have := spelledBy_bare hne hb
      rwa [String.ofList_toList] at this
  | true =>
      by_cases hp : Firewall.isPlain text = true
      · obtain ⟨hne, hb⟩ := isBare_of_isPlain hp
        have := spelledBy_bare hne hb
        rw [String.ofList_toList] at this
        simpa [asListed, Firewall.listedWord, hp] using this
      · simpa [asListed, Firewall.listedWord, hp] using spelledBy_listedQuote text

theorem mem_listedWord {w : Word} {c : Char} (h : c ∈ (Firewall.listedWord w).toList) :
    c = '"' ∨ c = '\\' ∨ c ∈ w.text.toList := by
  rw [Firewall.listedWord] at h
  split at h
  · exact .inr (.inr h)
  · simp only [Firewall.listedQuote, String.toList_ofList, List.cons_append, List.mem_cons, List.mem_append,
      List.mem_flatMap, List.not_mem_nil, or_false] at h
    rcases h with rfl | ⟨d, hd, hc⟩ | rfl
    · exact .inl rfl
    · split at hc
      · rcases List.mem_cons.mp hc with rfl | hc
        · exact .inr (.inl rfl)
        · exact .inr (.inr (List.mem_singleton.mp hc ▸ hd))
      · exact .inr (.inr (List.mem_singleton.mp hc ▸ hd))
    · exact .inl rfl

theorem mem_escape {c : Char} {cs : List Char} (h : c ∈ escape cs) : c = '\\' ∨ c ∈ cs := by
  fun_induction escape cs with
  | case1 => exact .inr h
  | case2 d cs _ ih =>
      rcases List.mem_cons.mp h with rfl | h
      · exact .inl rfl
      · rcases List.mem_cons.mp h with rfl | h
        · exact .inr List.mem_cons_self
        · exact (ih h).imp_right (List.mem_cons_of_mem d)
  | case3 d cs _ ih =>
      rcases List.mem_cons.mp h with rfl | h
      · exact .inr List.mem_cons_self
      · exact (ih h).imp_right (List.mem_cons_of_mem d)

theorem mem_written {w : Word} {c : Char} (h : c ∈ w.written.toList) : c = '"' ∨ c = '\\' ∨ c ∈ w.text.toList := by
  rw [written] at h
  split at h
  · simp only [quote, String.toList_ofList, List.cons_append, List.mem_cons, List.mem_append, List.not_mem_nil,
      or_false] at h
    rcases h with rfl | h | rfl
    · exact .inl rfl
    · exact .inr (mem_escape h)
    · exact .inl rfl
  · exact .inr (.inr h)

theorem endsInk_written {w : Word} (h : w.quoted = true ∨ Text.EndsInk w.text.toList) :
    Text.EndsInk w.written.toList := by
  rw [written]
  split
  · intro c hc
    simp only [quote, String.toList_ofList, List.getLast?_concat, Option.some_inj] at hc
    rw [← hc]
    decide
  · rename_i hq
    exact h.resolve_left hq

theorem getLast?_markValues {forced : Bool} {ws : List Word} {v : Word}
    (h : (markValues forced ws).getLast? = some v) :
    ∃ w, ws.getLast? = some w ∧ v.text = w.text ∧ (w.quoted = true → v.quoted = true) := by
  induction ws generalizing forced with
  | nil => cases h
  | cons w ws ih =>
      rw [markValues_cons] at h
      cases ws with
      | nil =>
          rw [markValues, List.getLast?_singleton, Option.some_inj] at h
          exact ⟨w, rfl, by rw [← h], fun hq => by rw [← h]; simp [hq]⟩
      | cons x xs =>
          rw [List.getLast?_cons_cons]
          rw [markValues_cons, List.getLast?_cons_cons, ← markValues_cons] at h
          exact ih h

theorem endsInk_listedWord {w : Word} (h : w.quoted = true ∨ Text.EndsInk w.text.toList) :
    Text.EndsInk (Firewall.listedWord w).toList := by
  obtain ⟨text, quoted⟩ := w
  by_cases hp : Firewall.isPlain text = true
  · have hw : Firewall.listedWord ⟨text, quoted⟩ = text := by simp [Firewall.listedWord, hp]
    rw [hw]
    exact Text.endsInk_of_forall (isBlank_of_isPlain hp)
  · cases quoted with
    | false => exact h.resolve_left (by simp)
    | true =>
        intro c hc
        simp only [Firewall.listedWord, hp, Bool.not_true, Bool.or_self, Bool.false_eq_true, if_false,
          Firewall.listedQuote, String.toList_ofList, List.getLast?_concat, Option.some_inj] at hc
        rw [← hc]
        decide

theorem IsOpen.readList_listedWord {w : Word} (h : w.IsOpen) :
    readList (Firewall.listedWord w).toList = [w.asListed] := by
  have hw : w.asListed = w := by
    cases w
    simp_all [asListed, IsOpen]
  rw [Firewall.listedWord, if_pos (by simp [h.1]), hw]
  exact h.2

theorem Readable.readList_listedWord {ws : List Word} (h : Readable ws) :
    ∀ w ∈ ws, readList (Firewall.listedWord w).toList = [w.asListed] := by
  induction h with
  | nil => simp
  | cons hw _ ih => exact List.forall_mem_cons.mpr ⟨hw.spelledBy_listedWord.readList_eq, ih⟩
  | lastOpen hw => exact List.forall_mem_singleton.mpr hw.readList_listedWord

theorem Readable.asListed {ws : List Word} (h : Readable ws) : Readable (ws.map asListed) := by
  induction h with
  | nil => exact .nil
  | @cons w ws hw _ ih =>
      refine .cons ?_ ih
      by_cases hq : w.asListed.quoted = true
      · exact .inl hq
      · rcases hw with hq' | hb
        · have hp : Firewall.isPlain w.text = true := by simpa [Word.asListed, hq'] using hq
          exact .inr (isBare_of_isPlain hp)
        · exact .inr hb
  | @lastOpen w hw =>
      have hw' : w.asListed = w := by
        cases w
        simp_all [Word.asListed, IsOpen]
      rw [List.map_singleton, hw']
      exact .lastOpen hw

/-- Words that have been listed and marked are listed again as the same words, up to the marks, which come
back when they are marked again. -/
theorem markValues_map_asListed (forced : Bool) (ws : List Word) :
    markValues forced ((markValues forced (ws.map asListed)).map asListed) =
      markValues forced (ws.map asListed) := by
  induction ws generalizing forced with
  | nil => rfl
  | cons w ws ih =>
      rw [List.map_cons, markValues_cons, List.map_cons, markValues_cons]
      cases forced with
      | true =>
          simp only [Bool.or_true, Bool.not_true, Bool.false_and]
          rw [ih false]
          rfl
      | false =>
          have hw : w.asListed.asListed = w.asListed := by
            simp [asListed]
          simp only [Bool.or_false]
          rw [hw, ih]

theorem eq_nil_of_readList_eq_nil {cs : List Char} (he : Text.EndsInk cs) (h : readList cs = []) : cs = [] := by
  cases cs with
  | nil => rfl
  | cons c cs =>
      exfalso
      have hlast := List.getLast?_eq_some_getLast (List.cons_ne_nil c cs)
      have hsep := isSeparator_of_readList_eq_nil h _ (List.mem_of_getLast? hlast)
      have hink := he _ hlast
      rw [isBlank_of_isSeparator hsep] at hink
      cases hink

theorem endsInk_getLast?_readList {cs : List Char} (hn : '\n' ∉ cs) (he : Text.EndsInk cs) {w : Word}
    (hw : (readList cs).getLast? = some w) : w.quoted = true ∨ Text.EndsInk w.text.toList := by
  fun_induction readList cs with
  | case1 => simp at hw
  | case2 c cs _ ih =>
      exact ih (fun h => hn (List.mem_cons_of_mem _ h)) (he.of_suffix (List.suffix_cons _ _)) hw
  | case3 cs q hs ih =>
      have hcs : '\n' ∉ cs := fun h => hn (List.mem_cons_of_mem _ h)
      have hsuf : q.rest <:+ '"' :: cs := (Quotation.rest_scan_suffix cs).trans (List.suffix_cons _ _)
      cases hr : readList q.rest with
      | nil =>
          rw [hr, List.getLast?_singleton, Option.some_inj] at hw
          subst hw
          by_cases hclosed : q.closed = true
          · exact .inl (by rw [if_pos hclosed])
          · rcases Quotation.scan_closed_or_rest hcs with h | ⟨hbody, _⟩
            · exact absurd h hclosed
            · rw [if_neg hclosed, String.toList_ofList, show q.body = cs from hbody]
              exact .inr he
      | cons x xs =>
          rw [List.getLast?_cons, hr, List.getLast?_cons, Option.getD_some, ← List.getLast?_cons, ← hr] at hw
          exact ih (fun h => hcs ((Quotation.rest_scan_suffix cs).mem h)) (he.of_suffix hsuf) hw
  | case4 c cs hs hq ih =>
      have hsuf : cs.dropWhile isBare <:+ c :: cs := (List.dropWhile_suffix _).trans (List.suffix_cons _ _)
      cases hr : readList (cs.dropWhile isBare) with
      | nil =>
          rw [hr, List.getLast?_singleton, Option.some_inj] at hw
          subst hw
          -- nothing but separators could follow, and the text does not end with one
          have hnil := eq_nil_of_readList_eq_nil (he.of_suffix hsuf) hr
          have hall := List.takeWhile_append_dropWhile (p := isBare) (l := cs)
          rw [hnil, List.append_nil] at hall
          rw [String.toList_ofList, hall]
          exact .inr he
      | cons x xs =>
          rw [List.getLast?_cons, hr, List.getLast?_cons, Option.getD_some, ← List.getLast?_cons, ← hr] at hw
          exact ih (fun h => hn (hsuf.mem h)) (he.of_suffix hsuf) hw

theorem read_listedText {text : String} (h : Readable (read text)) :
    read (Firewall.listedText text) = (read text).map asListed :=
  (h.reads (fun _ hw => hw.spelledBy_listedWord) fun _ hw => hw.readList_listedWord).read_unwords

end Word

/-! ### Lines -/

/-- A line that lists a rule: it begins with `-A `, it is one line, and no blank ends it. -/
structure IsRuleLine (text : String) : Prop where
  starts : ∃ rest, text.toList = '-' :: 'A' :: ' ' :: rest
  newline : '\n' ∉ text.toList
  ends : Text.EndsInk text.toList

instance (text : String) : Decidable (IsRuleLine text) :=
  decidable_of_decidable_of_iff
    (p := (Text.dropStart? ['-', 'A', ' '] text.toList).isSome = true ∧ '\n' ∉ text.toList ∧
      Text.EndsInk text.toList)
    (by
      simp only [Option.isSome_iff_exists, Text.dropStart?_eq_some_iff]
      exact ⟨fun ⟨hstarts, hnewline, hends⟩ => ⟨hstarts, hnewline, hends⟩, fun h => ⟨h.starts, h.newline, h.ends⟩⟩)

namespace IsRuleLine

variable {text : String}

theorem readable (h : IsRuleLine text) : Word.Readable (Word.read text) :=
  Word.readable_read h.newline

theorem exists_read_eq (h : IsRuleLine text) :
    ∃ chain ws, Word.read text = ⟨"-A", false⟩ :: chain :: ws := by
  obtain ⟨rest, ht⟩ := h.starts
  cases hr : Word.readList (' ' :: rest) with
  | nil =>
      have hsuf : ' ' :: rest <:+ text.toList := ⟨['-', 'A'], ht.symm⟩
      cases Word.eq_nil_of_readList_eq_nil (h.ends.of_suffix hsuf) hr
  | cons chain ws =>
      refine ⟨chain, ws, ?_⟩
      rw [Word.read, ht, Word.readList_append, hr]

/-- Pieces of text behind `-A` make up a line if none of them holds a newline and no blank ends the last one. -/
theorem of_unwords {p : String} {ps : List String} (hnewline : ∀ q ∈ p :: ps, '\n' ∉ q.toList)
    (hlast : ∀ q, (p :: ps).getLast? = some q → q.toList ≠ [] ∧ Text.EndsInk q.toList) :
    IsRuleLine (Text.unwords ("-A" :: p :: ps)) where
  starts := ⟨_, Text.toList_unwords_cons_cons "-A" p ps⟩
  newline := by
    intro hn
    rcases Text.mem_unwords hn with h | ⟨q, hq, hc⟩
    · cases h
    · rcases List.mem_cons.mp hq with rfl | hq
      · revert hc
        decide
      · exact hnewline q hq hc
  ends := by
    have hne : p :: ps ≠ [] := List.cons_ne_nil p ps
    obtain ⟨hpiece, hends⟩ := hlast _ (List.getLast?_eq_some_getLast hne)
    rw [← List.dropLast_concat_getLast hne, ← List.cons_append]
    intro c hc
    rw [Text.getLast?_unwords hpiece] at hc
    exact hends c hc

theorem of_words {w : Word} {ws : List Word} {f : Word → String} (hf : f ⟨"-A", false⟩ = "-A")
    (hread : ∀ v ∈ w :: ws, Word.readList (f v).toList ≠ []) (hnewline : ∀ v ∈ w :: ws, '\n' ∉ (f v).toList)
    (hlast : ∀ v, (w :: ws).getLast? = some v → Text.EndsInk (f v).toList) :
    IsRuleLine (Text.unwords ((⟨"-A", false⟩ :: w :: ws).map f)) := by
  have hpieces : ∀ q ∈ (w :: ws).map f, '\n' ∉ q.toList := List.forall_mem_map.mpr hnewline
  rw [List.map_cons, hf]
  refine of_unwords hpieces fun q hq => ?_
  rw [← List.map_cons, List.getLast?_map] at hq
  obtain ⟨v, hv, rfl⟩ := Option.map_eq_some_iff.mp hq
  refine ⟨fun hnil => hread v (List.mem_of_getLast? hv) ?_, hlast v hv⟩
  rw [hnil, Word.readList_nil]

theorem listedText (h : IsRuleLine text) : IsRuleLine (Firewall.listedText text) := by
  obtain ⟨chain, ws, hr⟩ := h.exists_read_eq
  have hmem : ∀ w ∈ chain :: ws, w ∈ Word.read text := fun w hw => hr ▸ List.mem_cons_of_mem _ hw
  rw [Firewall.listedText, hr]
  refine of_words rfl (fun w hw => ?_) (fun w hw hn => ?_) fun w hw => ?_
  · rw [h.readable.readList_listedWord w (hmem w hw)]
    exact List.cons_ne_nil _ _
  · rcases Word.mem_listedWord hn with hc | hc | hc
    · cases hc
    · cases hc
    · exact h.newline (Word.mem_of_mem_readList (hmem w hw) hc)
  · have hlast : (Word.read text).getLast? = some w := by rw [hr, List.getLast?_cons_cons, hw]
    exact Word.endsInk_listedWord (Word.endsInk_getLast?_readList h.newline h.ends hlast)

theorem canonical (h : IsRuleLine text) : IsRuleLine (canonical text) := by
  obtain ⟨chain, ws, hr⟩ := h.exists_read_eq
  have hmarked : Word.markValues false (Word.read text) = ⟨"-A", false⟩ :: Word.markValues false (chain :: ws) := by
    rw [hr, Word.markValues_cons]
    rfl
  have hne : Word.markValues false (chain :: ws) ≠ [] := by
    rw [Word.markValues_cons]
    exact List.cons_ne_nil _ _
  obtain ⟨w, vs, hvs⟩ := List.exists_cons_of_ne_nil hne
  have hreadable := h.readable.markValues false
  rw [hmarked, hvs] at hreadable
  rw [PacketFilter.canonical, Word.render, hmarked, hvs]
  refine of_words rfl (fun v hv => ?_) (fun v hv hn => ?_) fun v hv => ?_
  · rw [hreadable.readList_written v (List.mem_cons_of_mem _ hv)]
    exact List.cons_ne_nil _ _
  · have htext : v.text ∈ (Word.read text).map Word.text := by
      rw [← Word.map_text_markValues false, hmarked, hvs]
      exact List.mem_map_of_mem (List.mem_cons_of_mem _ hv)
    obtain ⟨x, hx, htext⟩ := List.mem_map.mp htext
    rcases Word.mem_written hn with hc | hc | hc
    · cases hc
    · cases hc
    · exact h.newline (Word.mem_of_mem_readList hx (htext ▸ hc))
  · rw [← hvs] at hv
    obtain ⟨x, hx, htext, hquoted⟩ := Word.getLast?_markValues hv
    have hlast : (Word.read text).getLast? = some x := by rw [hr, List.getLast?_cons_cons, hx]
    refine Word.endsInk_written ((Word.endsInk_getLast?_readList h.newline h.ends hlast).imp hquoted fun hends => ?_)
    rwa [htext]

end IsRuleLine

/-! ### Keys -/

namespace Firewall

/-- The key under which a listing without numbers finds a rule. -/
def listedKey (text : String) : String :=
  canonical (listedText text)

variable {text : String}

theorem read_listedKey (h : Word.Readable (Word.read text)) :
    Word.read (listedKey text) = Word.markValues false ((Word.read text).map Word.asListed) := by
  have hl := Word.read_listedText h
  rw [listedKey, canonical, Word.read_render (by rw [hl]; exact h.asListed), hl]

/-- A rule is deleted by its key: the key has the arguments of the rule. -/
theorem arguments_listedKey (h : Word.Readable (Word.read text)) : arguments (listedKey text) = arguments text := by
  rw [arguments, read_listedKey h, Word.map_text_markValues, List.map_map]
  rfl

/-- A key is listed under itself. -/
theorem listedKey_listedKey (h : Word.Readable (Word.read text)) : listedKey (listedKey text) = listedKey text := by
  have hr := read_listedKey h
  have hk : Word.Readable (Word.read (listedKey text)) := by
    rw [hr]
    exact h.asListed.markValues false
  calc listedKey (listedKey text)
      = Text.unwords ((Word.read (listedKey (listedKey text))).map Word.written) := by
        rw [read_listedKey hk, listedKey, canonical, Word.read_listedText hk, Word.render]
    _ = Text.unwords ((Word.read (listedKey text)).map Word.written) := by
        rw [read_listedKey hk, hr, Word.markValues_map_asListed]
    _ = listedKey text := by
        rw [hr, listedKey, canonical, Word.read_listedText h, Word.render]

end Firewall

end PacketFilter
