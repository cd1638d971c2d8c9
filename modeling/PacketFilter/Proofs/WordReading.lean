import PacketFilter.Rule.Word

/-! # Reading back what is written

Rule text is written word by word and read again, by this program and by the listing. A piece of text is
`SpelledBy` a word if reading it, in front of a space or of the end, gives that word and goes on behind it.
Bare texts, quoted texts and the quotes of a listing are such spellings, so joined spellings are read back as
the words they spell (`Reads.read_unwords`).

What is read from a text without newlines is `Readable`: every word is bare or was closed by its quote, except
that the last one may be a quote that was never closed. For such words `canonical` only marks words as quoted
(`read_render`), and so does not change the arguments (`arguments_canonical`). -/

namespace PacketFilter

namespace Text

theorem toList_unwords_cons_cons (p q : String) (ps : List String) :
    (unwords (p :: q :: ps)).toList = p.toList ++ ' ' :: (unwords (q :: ps)).toList := by
  simp [unwords, String.toList_intercalate, List.intercalate]

@[simp] theorem unwords_singleton (p : String) : unwords [p] = p := by
  simp [unwords]

@[simp] theorem unwords_nil : unwords [] = "" := rfl

end Text

namespace Word

/-! ### Spellings -/

/-- A text that ends or goes on with a space. -/
def Stops (rest : List Char) : Prop :=
  rest = [] ∨ ∃ more, rest = ' ' :: more

/-- Reading `cs` in front of the end or a space gives the word `w` and goes on behind it. -/
def SpelledBy (w : Word) (cs : List Char) : Prop :=
  ∀ rest, Stops rest → readList (cs ++ rest) = w :: readList rest

@[simp] theorem readList_nil : readList [] = [] := by rw [readList]

@[simp] theorem readList_space (cs : List Char) : readList (' ' :: cs) = readList cs := by
  rw [readList, if_pos (by decide)]

theorem SpelledBy.readList_eq {w : Word} {cs : List Char} (h : w.SpelledBy cs) : readList cs = [w] := by
  have := h [] (.inl rfl)
  rwa [List.append_nil, readList_nil] at this

theorem takeWhile_isBare {cs rest : List Char} (hb : ∀ c ∈ cs, isBare c = true) (hr : Stops rest) :
    (cs ++ rest).takeWhile isBare = cs ∧ (cs ++ rest).dropWhile isBare = rest := by
  have hrest : rest.takeWhile isBare = [] ∧ rest.dropWhile isBare = rest := by
    rcases hr with rfl | ⟨more, rfl⟩
    · exact ⟨rfl, rfl⟩
    · have hs : isBare ' ' = false := by decide
      constructor
      · rw [List.takeWhile_cons_of_neg (by simp [hs])]
      · rw [List.dropWhile_cons_of_neg (by simp [hs])]
  constructor
  · rw [List.takeWhile_append_of_pos hb, hrest.1, List.append_nil]
  · rw [List.dropWhile_append_of_pos hb, hrest.2]

theorem spelledBy_bare {cs : List Char} (hne : cs ≠ []) (hb : ∀ c ∈ cs, isBare c = true) :
    SpelledBy ⟨String.ofList cs, false⟩ cs := by
  intro rest hr
  obtain ⟨c, cs, rfl⟩ := List.exists_cons_of_ne_nil hne
  have hc := hb c List.mem_cons_self
  have hc' : isSeparator c = false ∧ c ≠ '"' := by simpa [isBare] using hc
  obtain ⟨htake, hdrop⟩ := takeWhile_isBare (fun d hd => hb d (List.mem_cons_of_mem _ hd)) hr
  rw [List.cons_append, readList, if_neg (by simp [hc'.1]), if_neg hc'.2, htake, hdrop]

/-- The inside of a quoted word: in front of a closing quote it is all that stands between the quotes. -/
def Encloses (body : List Char) : Prop :=
  ∀ rest, Quotation.scan (body ++ '"' :: rest) = ⟨true, body, rest⟩

theorem encloses_nil : Encloses [] := by
  intro rest
  rw [List.nil_append, Quotation.scan]

theorem Encloses.cons {body : List Char} (h : Encloses body) {c : Char} (hq : c ≠ '"') (hb : c ≠ '\\') :
    Encloses (c :: body) := by
  intro rest
  rw [List.cons_append, Quotation.scan.eq_def]
  split
  · simp_all
  · simp_all
  · simp_all
  · rename_i heq
    obtain ⟨rfl, rfl⟩ := List.cons.inj heq
    rw [h rest]
    rfl

theorem Encloses.escaped {body : List Char} (h : Encloses body) {c : Char} (hc : c ≠ '\n') :
    Encloses ('\\' :: c :: body) := by
  intro rest
  rw [List.cons_append, List.cons_append, Quotation.scan, if_neg hc, h rest]
  rfl

theorem spelledBy_quoted {body : List Char} (h : Encloses body) :
    SpelledBy ⟨String.ofList (unescape body), true⟩ ('"' :: (body ++ ['"'])) := by
  intro rest _
  rw [List.cons_append, List.append_assoc, List.singleton_append, readList, if_neg (by decide), if_pos rfl,
    h rest]
  rfl

theorem encloses_escape (cs : List Char) : Encloses (escape cs) := by
  induction cs with
  | nil => exact encloses_nil
  | cons c cs ih =>
      rw [escape]
      split
      · rename_i h
        refine ih.escaped ?_
        rcases h with rfl | rfl <;> decide
      · rename_i h
        simp only [not_or] at h
        exact ih.cons h.1 h.2

theorem spelledBy_quote (s : String) : SpelledBy ⟨s, true⟩ (quote s).toList := by
  have h := spelledBy_quoted (encloses_escape s.toList)
  rw [unescape_escape, String.ofList_toList] at h
  simpa [quote] using h

/-! ### Joined spellings -/

/-- Pieces that, joined with spaces, are read as the given words. Only the last one need not be a spelling
that can be read in front of others. -/
inductive Reads : List String → List Word → Prop
  | nil : Reads [] []
  | last {p : String} {w : Word} : readList p.toList = [w] → Reads [p] [w]
  | cons {p : String} {w : Word} {ps : List String} {ws : List Word} :
      w.SpelledBy p.toList → Reads ps ws → Reads (p :: ps) (w :: ws)

theorem Reads.read_unwords {ps : List String} {ws : List Word} (h : Reads ps ws) :
    read (Text.unwords ps) = ws := by
  induction h with
  | nil => rw [read, Text.unwords_nil, String.toList_empty, readList_nil]
  | last h => rwa [Text.unwords_singleton]
  | @cons p w ps ws hp hps ih =>
      cases ps with
      | nil =>
          rw [Text.unwords_nil, read, String.toList_empty, readList_nil] at ih
          rw [Text.unwords_singleton, read, hp.readList_eq, ← ih]
      | cons q qs =>
          rw [read, Text.toList_unwords_cons_cons, hp _ (.inr ⟨_, rfl⟩), readList_space]
          rw [read] at ih
          rw [ih]

/-! ### What reading gives -/

/-- A word that ends where its text or its quote says: it may stand anywhere in a text. -/
def IsClosed (w : Word) : Prop :=
  w.quoted = true ∨ (w.text.toList ≠ [] ∧ ∀ c ∈ w.text.toList, isBare c = true)

/-- A quote that is not closed up to the end of the text, kept as it stands. -/
def IsOpen (w : Word) : Prop :=
  w.quoted = false ∧ readList w.text.toList = [w]

/-- Words that can be the words of a text without newlines. -/
inductive Readable : List Word → Prop
  | nil : Readable []
  | cons {w : Word} {ws : List Word} : w.IsClosed → Readable ws → Readable (w :: ws)
  | lastOpen {w : Word} : w.IsOpen → Readable [w]

theorem readable_of_forall {ws : List Word} (h : ∀ w ∈ ws, w.IsClosed) : Readable ws := by
  induction ws with
  | nil => exact .nil
  | cons w ws ih => exact .cons (h w List.mem_cons_self) (ih fun v hv => h v (List.mem_cons_of_mem _ hv))

theorem Readable.of_sublist {ws vs : List Word} (h : Readable ws) (hs : vs.Sublist ws) : Readable vs := by
  induction h generalizing vs with
  | nil =>
      rw [List.sublist_nil.mp hs]
      exact .nil
  | cons hw _ ih =>
      cases hs with
      | cons _ hs => exact ih hs
      | cons_cons _ hs => exact .cons hw (ih hs)
  | lastOpen hw =>
      cases hs with
      | cons _ hs =>
          rw [List.sublist_nil.mp hs]
          exact .nil
      | cons_cons _ hs =>
          rw [List.sublist_nil.mp hs]
          exact .lastOpen hw

theorem Quotation.scan_closed_or_rest {cs : List Char} (h : '\n' ∉ cs) :
    (scan cs).closed = true ∨ ((scan cs).body = cs ∧ (scan cs).rest = []) := by
  fun_induction scan cs with
  | case1 => exact .inr ⟨rfl, rfl⟩
  | case2 cs => exact .inl rfl
  | case3 cs =>
      exact absurd (List.mem_cons_of_mem _ List.mem_cons_self) h
  | case4 c cs hc ih =>
      have hcs : '\n' ∉ cs := fun hn => h (List.mem_cons_of_mem _ (List.mem_cons_of_mem _ hn))
      rcases ih hcs with hclosed | ⟨hbody, hrest⟩
      · exact .inl hclosed
      · exact .inr ⟨by simp [after, hbody], hrest⟩
  | case5 c cs _ _ ih =>
      have hcs : '\n' ∉ cs := fun hn => h (List.mem_cons_of_mem _ hn)
      rcases ih hcs with hclosed | ⟨hbody, hrest⟩
      · exact .inl hclosed
      · exact .inr ⟨by simp [after, hbody], hrest⟩

theorem Quotation.rest_scan_suffix (cs : List Char) : (scan cs).rest <:+ cs := by
  fun_induction scan cs with
  | case1 => exact List.suffix_refl _
  | case2 cs => exact List.suffix_cons _ _
  | case3 cs => exact List.suffix_cons _ _
  | case4 c cs _ ih => exact ih.trans ((List.suffix_cons _ _).trans (List.suffix_cons _ _))
  | case5 c cs _ _ ih => exact ih.trans (List.suffix_cons _ _)

theorem readList_open {cs : List Char} (h : Quotation.scan cs = ⟨false, cs, []⟩) :
    readList ('"' :: cs) = [⟨String.ofList ('"' :: cs), false⟩] := by
  rw [readList, if_neg (by decide), if_pos rfl, h]
  simp

theorem readable_readList {cs : List Char} (h : '\n' ∉ cs) : Readable (readList cs) := by
  fun_induction readList cs with
  | case1 => exact .nil
  | case2 c cs _ ih => exact ih fun hn => h (List.mem_cons_of_mem _ hn)
  | case3 cs q hs ih =>
      have hcs : '\n' ∉ cs := fun hn => h (List.mem_cons_of_mem _ hn)
      rcases Quotation.scan_closed_or_rest hcs with hclosed | ⟨hbody, hrest⟩
      · rw [if_pos hclosed]
        exact .cons (.inl rfl) (ih fun hn => hcs ((Quotation.rest_scan_suffix cs).mem hn))
      · by_cases hclosed : q.closed = true
        · rw [if_pos hclosed]
          exact .cons (.inl rfl) (ih fun hn => hcs ((Quotation.rest_scan_suffix cs).mem hn))
        · -- the quote swallows the rest of the text
          have hscan : Quotation.scan cs = ⟨false, cs, []⟩ := by
            rw [← Bool.eq_false_iff.mpr hclosed, ← hrest]
            exact congrArg (Quotation.mk _ · _) hbody
          rw [if_neg hclosed, show q.body = cs from hbody, show q.rest = [] from hrest, readList_nil]
          refine .lastOpen ⟨rfl, ?_⟩
          rw [String.toList_ofList]
          exact readList_open hscan
  | case4 c cs hs hq ih =>
      refine .cons (.inr ⟨by simp, ?_⟩) (ih fun hn => h ?_)
      · intro d hd
        rw [String.toList_ofList, List.mem_cons] at hd
        rcases hd with rfl | hd
        · simp [isBare, hs, hq]
        · exact List.all_eq_true.mp List.all_takeWhile d hd
      · exact List.mem_cons_of_mem _ ((List.dropWhile_sublist _).subset hn)

/-- The words of a text without newlines are bare or closed by their quote, up to the last one. -/
theorem readable_read {s : String} (h : '\n' ∉ s.toList) : Readable (read s) :=
  readable_readList h

/-- Closed words may be written in any way that spells them, and an open word in any way that is read as one
word: what is written is read back. -/
theorem Readable.reads {ws : List Word} (h : Readable ws) {f : Word → String} {g : Word → Word}
    (hclosed : ∀ w, w.IsClosed → (g w).SpelledBy (f w).toList)
    (hopen : ∀ w, w.IsOpen → readList (f w).toList = [g w]) : Reads (ws.map f) (ws.map g) := by
  induction h with
  | nil => exact .nil
  | cons hw _ ih => exact .cons (hclosed _ hw) ih
  | lastOpen hw => exact .last (hopen _ hw)

/-! ### Marking words as quoted -/

theorem IsClosed.spelledBy_written {w : Word} (h : w.IsClosed) : w.SpelledBy w.written.toList := by
  obtain ⟨text, quoted⟩ := w
  cases quoted with
  | true => exact spelledBy_quote text
  | false =>
      obtain ⟨hne, hb⟩ := h.resolve_left (by simp)
      have := spelledBy_bare hne hb
      rwa [String.ofList_toList] at this

theorem IsOpen.readList_written {w : Word} (h : w.IsOpen) : readList w.written.toList = [w] := by
  rw [written, if_neg (by simp [h.1])]
  exact h.2

theorem Readable.readList_written {ws : List Word} (h : Readable ws) :
    ∀ w ∈ ws, readList w.written.toList = [w] := by
  induction h with
  | nil => simp
  | cons hw _ ih => exact List.forall_mem_cons.mpr ⟨hw.spelledBy_written.readList_eq, ih⟩
  | lastOpen hw => exact List.forall_mem_singleton.mpr hw.readList_written

theorem markValues_cons (forced : Bool) (w : Word) (ws : List Word) :
    markValues forced (w :: ws) =
      { w with quoted := w.quoted || forced } ::
        markValues (! (w.quoted || forced) && w.flag?.any Flag.quotesValue) ws := by
  rw [markValues]
  by_cases h : (w.quoted || forced) = true
  · rw [if_pos h, h]
    rfl
  · obtain ⟨hq, hf⟩ : w.quoted = false ∧ forced = false := by simpa using h
    rw [if_neg h, hq, hf]
    cases w
    simp_all

@[simp] theorem map_text_markValues (forced : Bool) (ws : List Word) :
    (markValues forced ws).map text = ws.map text := by
  induction ws generalizing forced with
  | nil => rfl
  | cons w ws ih => rw [markValues_cons, List.map_cons, List.map_cons, ih]

theorem markValues_markValues (forced : Bool) (ws : List Word) :
    markValues forced (markValues forced ws) = markValues forced ws := by
  induction ws generalizing forced with
  | nil => rfl
  | cons w ws ih =>
      rw [markValues_cons, markValues_cons]
      cases hq : w.quoted || forced with
      | true => simp [ih]
      | false =>
          obtain ⟨hquoted, rfl⟩ := Bool.or_eq_false_iff.mp hq
          simp [hquoted, ih, flag?]

theorem Readable.markValues {ws : List Word} (h : Readable ws) (forced : Bool) :
    Readable (markValues forced ws) := by
  induction h generalizing forced with
  | nil => exact .nil
  | cons hw _ ih =>
      rw [markValues_cons]
      refine .cons ?_ (ih _)
      rcases hw with hq | hb
      · exact .inl (by simp [hq])
      · exact .inr hb
  | @lastOpen w hw =>
      rw [markValues_cons]
      cases forced with
      | true => exact .cons (.inl (by simp)) .nil
      | false =>
          rw [Bool.or_false]
          exact .lastOpen hw

/-- Rendered words are read back with the marks that rendering puts on them. -/
theorem read_render {ws : List Word} (h : Readable ws) : read (render ws) = Word.markValues false ws := by
  have := (h.markValues false).reads (f := written) (g := id) (fun _ hw => hw.spelledBy_written)
    (fun _ hw => hw.readList_written)
  rw [List.map_id] at this
  exact this.read_unwords

/-! ### Characters of words -/

theorem mem_of_mem_unescape {c : Char} {cs : List Char} (h : c ∈ unescape cs) : c ∈ cs := by
  fun_induction unescape cs <;> simp_all
  all_goals rcases h with rfl | h <;> simp_all

theorem Quotation.mem_of_mem_body_scan {c : Char} {cs : List Char} (h : c ∈ (scan cs).body) : c ∈ cs := by
  fun_induction scan cs with
  | case1 => simp at h
  | case2 cs => simp at h
  | case3 cs => simp_all
  | case4 d cs _ ih =>
      simp only [after, List.cons_append, List.nil_append, List.mem_cons] at h ⊢
      exact h.imp_right (Or.imp_right ih)
  | case5 d cs _ _ ih =>
      simp only [after, List.cons_append, List.nil_append, List.mem_cons] at h ⊢
      exact h.imp_right ih

theorem mem_of_mem_readList {cs : List Char} {w : Word} (hw : w ∈ readList cs) {c : Char}
    (hc : c ∈ w.text.toList) : c ∈ cs := by
  fun_induction readList cs with
  | case1 => simp at hw
  | case2 d cs _ ih => exact List.mem_cons_of_mem _ (ih hw)
  | case3 cs q hs ih =>
      rcases List.mem_cons.mp hw with rfl | hw
      · by_cases hclosed : q.closed = true
        · rw [if_pos hclosed, String.toList_ofList] at hc
          exact List.mem_cons_of_mem _ (Quotation.mem_of_mem_body_scan (mem_of_mem_unescape hc))
        · rw [if_neg hclosed, String.toList_ofList, List.mem_cons] at hc
          rcases hc with rfl | hc
          · exact List.mem_cons_self
          · exact List.mem_cons_of_mem _ (Quotation.mem_of_mem_body_scan hc)
      · exact List.mem_cons_of_mem _ ((Quotation.rest_scan_suffix cs).mem (ih hw))
  | case4 d cs hs hq ih =>
      rcases List.mem_cons.mp hw with rfl | hw
      · rw [String.toList_ofList, List.mem_cons] at hc
        rcases hc with rfl | hc
        · exact List.mem_cons_self
        · exact List.mem_cons_of_mem _ ((List.takeWhile_sublist _).subset hc)
      · exact List.mem_cons_of_mem _ ((List.dropWhile_sublist _).subset (ih hw))

theorem isSeparator_of_readList_eq_nil {cs : List Char} (h : readList cs = []) :
    ∀ c ∈ cs, isSeparator c = true := by
  fun_induction readList cs with
  | case1 => simp
  | case2 c cs hc ih =>
      intro d hd
      rcases List.mem_cons.mp hd with rfl | hd
      · exact hc
      · exact ih h d hd
  | case3 => simp at h
  | case4 => simp at h

end Word

theorem arguments_canonical {s : String} (h : '\n' ∉ s.toList) : arguments (canonical s) = arguments s := by
  rw [arguments, canonical, Word.read_render (Word.readable_read h), Word.map_text_markValues]
  rfl

/-- Rule text that is written word by word is the canonical text of a line exactly if the words of the line, marked,
are its words. -/
theorem canonical_eq_iff {line text : String} (hl : '\n' ∉ line.toList)
    (ht : Text.unwords ((Word.read text).map Word.written) = text) :
    canonical line = text ↔ Word.markValues false (Word.read line) = Word.read text := by
  constructor
  · rintro rfl
    exact (Word.read_render (Word.readable_read hl)).symm
  · intro h
    rw [canonical, Word.render, h, ht]

end PacketFilter
