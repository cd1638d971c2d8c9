import PacketFilter.Command
import PacketFilter.Proofs.WordReading

/-! # Rendering words and reading them back

Rendering writes quoted words in quotes, and besides them every word that directly follows `--comment` or
`--log-prefix`. What is rendered is read back as the same words with exactly these marks (`Word.read_render_iff`). The
words of a line without newlines can be rendered again, so the canonical text of the line has the same arguments and is
its own canonical text, and deleting by it means the arguments of the line (`canonical_keeps_arguments`). -/

namespace PacketFilter

namespace Word

/-! ### Marks -/

/-- A flag whose value is put in quotes, whatever the value is. A word in quotes is no flag. -/
def QuotesNext (w : Word) : Prop :=
  w.quoted = false ∧ (w.text = "--comment" ∨ w.text = "--log-prefix")

theorem any_quotesValue_flag?_iff {w : Word} : w.flag?.any Flag.quotesValue = true ↔ w.QuotesNext := by
  unfold flag? QuotesNext
  cases w.quoted with
  | true => simp
  | false => simp [Flag.any_quotesValue_iff]

/-- The words `vs` are the words `ws`, where besides those that were in quotes exactly the words are in quotes that
directly follow a flag of `vs` whose value is put in quotes. A flag that is in quotes itself is not followed by such
a value. -/
structure IsMarking (ws vs : List Word) : Prop where
  text : vs.map Word.text = ws.map Word.text
  quoted : ∀ (i : Nat) (w v : Word), ws[i]? = some w → vs[i]? = some v →
    (v.quoted = true ↔ w.quoted = true ∨ ∃ j u, i = j + 1 ∧ vs[j]? = some u ∧ u.QuotesNext)

theorem quoted_markValues {forced : Bool} {ws : List Word} {i : Nat} {w v : Word} (hw : ws[i]? = some w)
    (hv : (markValues forced ws)[i]? = some v) :
    v.quoted = true ↔ w.quoted = true ∨ (i = 0 ∧ forced = true) ∨
      ∃ j u, i = j + 1 ∧ (markValues forced ws)[j]? = some u ∧ u.QuotesNext := by
  induction ws generalizing forced i with
  | nil => simp at hw
  | cons a ws ih =>
      rw [markValues_cons] at hv ⊢
      cases i with
      | zero =>
          simp only [List.getElem?_cons_zero, Option.some.injEq] at hw hv
          subst hw hv
          simp
      | succ k =>
          rw [List.getElem?_cons_succ] at hw hv
          rw [ih hw hv]
          -- the word in front is the head of the list, or it is in front within the tail
          have hfirst : (! (a.quoted || forced) && a.flag?.any Flag.quotesValue) = true ↔
              QuotesNext { a with quoted := a.quoted || forced } := by
            rw [Bool.and_eq_true, any_quotesValue_flag?_iff]
            unfold QuotesNext
            cases a.quoted <;> cases forced <;> simp
          cases k with
          | zero =>
              rw [hfirst]
              simp
          | succ k => simp

theorem isMarking_markValues (ws : List Word) : IsMarking ws (markValues false ws) where
  text := map_text_markValues false ws
  quoted i w v hw hv := by
    rw [quoted_markValues hw hv]
    simp

/-- The marks are determined from the first word to the last. -/
theorem IsMarking.eq {ws vs vs' : List Word} (h : IsMarking ws vs) (h' : IsMarking ws vs') : vs = vs' := by
  have htexts : vs.map Word.text = vs'.map Word.text := h.text.trans h'.text.symm
  have hlength : vs.length = ws.length := by simpa using congrArg List.length h.text
  apply List.ext_getElem?
  intro i
  induction i using Nat.strongRecOn with
  | ind i ih =>
      have htext := congrArg (·[i]?) htexts
      simp only [List.getElem?_map] at htext
      cases hv : vs[i]? with
      | none =>
          rw [hv] at htext
          rw [Option.map_eq_none_iff.mp htext.symm]
      | some v =>
          rw [hv] at htext
          obtain ⟨v', hv', htext⟩ := Option.map_eq_some_iff.mp htext.symm
          obtain ⟨w, hw⟩ : ∃ w, ws[i]? = some w := by
            have hi := (List.getElem?_eq_some_iff.mp hv).1
            exact ⟨ws[i], List.getElem?_eq_getElem (hlength ▸ hi)⟩
          have hquoted : v.quoted = v'.quoted := by
            rw [Bool.eq_iff_iff, h.quoted i w v hw hv, h'.quoted i w v' hw hv']
            apply or_congr_right
            constructor
            · rintro ⟨j, u, rfl, hu, hnext⟩
              exact ⟨j, u, rfl, ih j (Nat.lt_succ_self j) ▸ hu, hnext⟩
            · rintro ⟨j, u, rfl, hu, hnext⟩
              exact ⟨j, u, rfl, (ih j (Nat.lt_succ_self j)).symm ▸ hu, hnext⟩
          rw [hv']
          cases v
          cases v'
          simp_all

/-! ### Reading what was rendered -/

/-- Words that are not empty and hold no separator and no double quote, unless they are in quotes, are read back from
the text they are rendered to, with just the marks of rendering. Any text in quotes is read back as that one word. -/
theorem read_render_iff {ws : List Word}
    (h : ∀ w ∈ ws, w.quoted = false →
      w.text ≠ "" ∧ ∀ c ∈ w.text.toList, c ∉ [' ', '\t', '\r', '\n', '\x0c', '"']) :
    (∀ vs, read (render ws) = vs ↔ IsMarking ws vs) ∧ ∀ s : String, read (quote s) = [⟨s, true⟩] := by
  have hclosed : ∀ w ∈ ws, w.IsClosed := by
    intro w hw
    cases hq : w.quoted with
    | true => exact .inl hq
    | false =>
        obtain ⟨hne, hchars⟩ := h w hw hq
        refine .inr ⟨fun hnil => hne (String.toList_inj.mp hnil), fun c hc => ?_⟩
        have := hchars c hc
        simp_all [isBare, isSeparator]
  have hread : read (render ws) = markValues false ws := read_render (readable_of_forall hclosed)
  constructor
  · intro vs
    rw [hread]
    constructor
    · rintro rfl
      exact isMarking_markValues ws
    · exact fun hvs => (isMarking_markValues ws).eq hvs
  · intro s
    exact (spelledBy_quote s).readList_eq

/-- Words of which the second is a flag, but stands behind another flag. -/
def flagWords : List Word :=
  [⟨"--comment", false⟩, ⟨"--log-prefix", false⟩, ⟨"a\\", false⟩, ⟨"say \"hi\"\n", true⟩]

/-- A flag that is put in quotes itself does not put the next word in quotes. -/
theorem read_render_iff_flags :
    (∀ w ∈ flagWords, w.quoted = false →
      w.text ≠ "" ∧ ∀ c ∈ w.text.toList, c ∉ [' ', '\t', '\r', '\n', '\x0c', '"']) ∧
    read (render flagWords) =
      [⟨"--comment", false⟩, ⟨"--log-prefix", true⟩, ⟨"a\\", false⟩, ⟨"say \"hi\"\n", true⟩] := by
  have hwords : ∀ w ∈ flagWords, w.quoted = false →
      w.text ≠ "" ∧ ∀ c ∈ w.text.toList, c ∉ [' ', '\t', '\r', '\n', '\x0c', '"'] := by
    simp [flagWords]
  have hmarks : markValues false flagWords =
      [⟨"--comment", false⟩, ⟨"--log-prefix", true⟩, ⟨"a\\", false⟩, ⟨"say \"hi\"\n", true⟩] := by decide
  have hread := ((read_render_iff hwords).1 _).mpr (isMarking_markValues flagWords)
  exact ⟨hwords, hread.trans hmarks⟩

end Word

/-! ### Canonical texts -/

theorem canonical_canonical {line : String} (h : '\n' ∉ line.toList) :
    canonical (canonical line) = canonical line := by
  have hread : Word.read (canonical line) = Word.markValues false (Word.read line) :=
    Word.read_render (Word.readable_read h)
  unfold canonical at hread ⊢
  rw [hread]
  unfold Word.render
  rw [Word.markValues_markValues]

/-- The canonical text of a line that begins with `-A` and a space begins with that word. -/
theorem exists_toList_canonical {line : String} (h : "-A ".toList <+: line.toList) :
    ∃ rest, (canonical line).toList = '-' :: 'A' :: rest ∧ Word.Stops rest := by
  obtain ⟨cs, hcs⟩ := h
  have hread : Word.read line = ⟨"-A", false⟩ :: Word.readList (' ' :: cs) := by
    rw [Word.read, ← hcs]
    exact Word.readList_append cs
  unfold canonical Word.render
  rw [hread, Word.markValues_cons, List.map_cons]
  cases Word.markValues _ (Word.readList (' ' :: cs)) with
  | nil => exact ⟨[], by simp [Word.written], .inl rfl⟩
  | cons w ws =>
      rw [List.map_cons, Text.toList_unwords_cons_cons]
      exact ⟨_, rfl, .inr ⟨_, rfl⟩⟩

theorem arguments_deletion {text : String} {rest : List Char} (ht : text.toList = '-' :: 'A' :: rest)
    (hr : Word.Stops rest) :
    arguments text = "-A" :: (Word.readList rest).map Word.text ∧
      arguments (deletion text) = "-D" :: (Word.readList rest).map Word.text := by
  have hspelled : ∀ flag : Char, Word.isBare flag = true →
      Word.readList ('-' :: flag :: rest) = ⟨String.ofList ['-', flag], false⟩ :: Word.readList rest := by
    intro flag hflag
    have hbare : ∀ c ∈ ['-', flag], Word.isBare c = true :=
      List.forall_mem_cons.mpr ⟨by decide, List.forall_mem_singleton.mpr hflag⟩
    exact Word.spelledBy_bare (List.cons_ne_nil _ _) hbare rest hr
  constructor
  · rw [arguments, Word.read, ht, hspelled 'A' (by decide)]
    rfl
  · rw [arguments, deletion, ht, deleteFirstAppend, Word.read, String.toList_ofList, hspelled 'D' (by decide)]
    rfl

/-- The canonical text of a line has the arguments of the line, also where quotes are not closed, and it is canonical
itself. So a rule is deleted by its canonical text with the arguments of its line, in which only the first is
replaced. -/
theorem canonical_keeps_arguments {line : String} (h : '\n' ∉ line.toList) :
    arguments (canonical line) = arguments line ∧ canonical (canonical line) = canonical line ∧
      ("-A ".toList <+: line.toList → ∃ rest, arguments line = "-A" :: rest ∧
        ∀ table, Command.deleteArguments table (canonical line) = "-t" :: table.name :: "-D" :: rest) := by
  have harguments := arguments_canonical h
  refine ⟨harguments, canonical_canonical h, fun happend => ?_⟩
  obtain ⟨rest, htext, hstops⟩ := exists_toList_canonical happend
  obtain ⟨hline, hdelete⟩ := arguments_deletion htext hstops
  refine ⟨_, harguments ▸ hline, fun table => ?_⟩
  unfold Command.deleteArguments Command.appendArguments
  rw [hdelete]

/-- A line with quotes inside of words, an escaped quote, and a quote that is never closed. -/
def openLine : String :=
  "-A INPUT -m comment --comment a\"b \\\" c\"d --log-prefix \"never closed"

theorem canonical_keeps_arguments_open :
    '\n' ∉ openLine.toList ∧ "-A ".toList <+: openLine.toList ∧
      arguments (canonical openLine) = arguments openLine ∧ canonical (canonical openLine) = canonical openLine ∧
      Command.deleteArguments .nat (canonical openLine) =
        ["-t", "nat", "-D", "INPUT", "-m", "comment", "--comment", "a", "b \" c", "d", "--log-prefix",
          "\"never closed"] := by
  have hnewline : '\n' ∉ openLine.toList := by decide +kernel
  have happend : "-A ".toList <+: openLine.toList := by decide +kernel
  have harguments : arguments openLine =
      ["-A", "INPUT", "-m", "comment", "--comment", "a", "b \" c", "d", "--log-prefix", "\"never closed"] := by
    decide +kernel
  obtain ⟨hkept, hcanonical, hdelete⟩ := canonical_keeps_arguments hnewline
  obtain ⟨rest, hrest, hdelete⟩ := hdelete happend
  rw [harguments] at hrest
  obtain rfl := (List.cons.inj hrest).2
  exact ⟨hnewline, happend, hkept, hcanonical, hdelete .nat⟩

/-- Where a newline ends a quote that is not closed, the canonical text reads otherwise. -/
example : arguments (canonical "\"a\\\nb") ≠ arguments "\"a\\\nb" := by decide +kernel

end PacketFilter
