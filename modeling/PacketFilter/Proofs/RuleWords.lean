import Mathlib.Data.List.Forall2
import PacketFilter.Listing.LiveRule
import PacketFilter.Proofs.ListedText

/-! # The words of a rule text

A clause is spelled out (`Clause.IsSpelled`) if its value is one word of rule text, in quotes exactly after the
flags whose values always are. The text of a rule with such clauses is read as the flags and values in turn
(`read_ruleText`), and a listing that is read back gives its text again exactly if no value but the last could
be taken for a flag with a quoted value (`canonical_ruleText`). The attributes of a line that has this text as
its key are the values of the clauses (`flagValues_of_canonical`), and so are those of the line that the text is
listed as (`flagValues_ruleText`). -/

namespace PacketFilter

/-! ### Tokens -/

/-- A text without blanks and double quotes that is not empty. -/
def IsToken (s : String) : Prop :=
  s.toList ≠ [] ∧ ∀ c ∈ s.toList, Text.isBlank c = false ∧ c ≠ '"'

instance (s : String) : Decidable (IsToken s) :=
  decidable_of_decidable_of_iff
    (p := s.toList ≠ [] ∧ s.toList.all (fun c => Text.isBlank c == false && c != '"') = true) (by simp [IsToken])

namespace IsToken

variable {s : String}

theorem isBare (h : IsToken s) : ∀ c ∈ s.toList, Word.isBare c = true := by
  intro c hc
  obtain ⟨hb, hq⟩ := h.2 c hc
  have hs : Word.isSeparator c = false := by
    rw [← Bool.not_eq_true]
    intro hs
    rw [Word.isBlank_of_isSeparator hs] at hb
    cases hb
  simp [Word.isBare, hs, hq]

theorem spelledBy (h : IsToken s) : Word.SpelledBy ⟨s, false⟩ s.toList := by
  have := Word.spelledBy_bare h.1 h.isBare
  rwa [String.ofList_toList] at this

theorem endsInk (h : IsToken s) : Text.EndsInk s.toList :=
  Text.endsInk_of_forall fun c hc => (h.2 c hc).1

theorem newline (h : IsToken s) : '\n' ∉ s.toList := by
  intro hn
  have := (h.2 _ hn).1
  revert this
  decide

theorem piece (h : IsToken s) : s.toList ≠ [] ∧ Text.EndsInk s.toList ∧ '\n' ∉ s.toList :=
  ⟨h.1, h.endsInk, h.newline⟩

end IsToken

/-! ### Words of flags -/

/-- A word that is one of some texts and not in quotes. -/
def Word.Spells (texts : List String) (w : Word) : Prop :=
  w.quoted = false ∧ w.text ∈ texts

instance (texts : List String) (w : Word) : Decidable (w.Spells texts) :=
  inferInstanceAs (Decidable (_ ∧ _))

theorem Word.flag?_eq_some_iff {w : Word} {f : Flag} : w.flag? = some f ↔ w.Spells f.spellings := by
  rw [flag?, Spells, ← Flag.ofText?_eq_some_iff]
  cases w.quoted <;> simp

/-! ### Clauses -/

namespace Clause

def word (c : Clause) : Word :=
  (Word.read c.value).head?.getD ⟨"", false⟩

def words (c : Clause) : List Word :=
  [⟨c.flag.text, false⟩, c.word]

/-- The value of a clause is one word, in quotes exactly if the flag asks for them. -/
structure IsSpelled (c : Clause) : Prop where
  spelledBy : c.word.SpelledBy c.value.toList
  written : c.word.written = c.value
  quoted : c.word.quoted = c.flag.quotesValue
  ends : Text.EndsInk c.value.toList
  newline : '\n' ∉ c.value.toList

theorem word_eq {c : Clause} {w : Word} (h : w.SpelledBy c.value.toList) : c.word = w := by
  rw [word, Word.read, h.readList_eq]
  rfl

theorem isSpelled_of_isToken {f : Flag} {value : String} (hf : f.quotesValue = false) (h : IsToken value) :
    (Clause.mk f value).IsSpelled := by
  have hw : (Clause.mk f value).word = ⟨value, false⟩ := word_eq h.spelledBy
  constructor
  · rw [hw]
    exact h.spelledBy
  · rw [hw]
    rfl
  · rw [hw, hf]
  · exact h.endsInk
  · exact h.newline

theorem word_quote (f : Flag) (text : String) : (Clause.mk f (Word.quote text)).word = ⟨text, true⟩ :=
  word_eq (Word.spelledBy_quote text)

theorem IsSpelled.text_word {c : Clause} (h : c.IsSpelled) (hf : c.flag.quotesValue = false) :
    c.word.text = c.value := by
  rw [← h.written, Word.written, h.quoted, hf]
  rfl

theorem isSpelled_quote {f : Flag} {text : String} (hf : f.quotesValue = true) (hn : '\n' ∉ text.toList) :
    (Clause.mk f (Word.quote text)).IsSpelled := by
  constructor
  · rw [word_quote]
    exact Word.spelledBy_quote text
  · rw [word_quote]
    rfl
  · rw [word_quote, hf]
  · exact Word.endsInk_written (w := ⟨text, true⟩) (.inl rfl)
  · intro h
    rcases Word.mem_written (w := ⟨text, true⟩) h with h | h | h
    · cases h
    · cases h
    · exact hn h

theorem isToken_flag (f : Flag) : IsToken f.text := by
  cases f <;> decide

theorem spelledBy_flag (f : Flag) : Word.SpelledBy ⟨f.text, false⟩ f.text.toList :=
  (isToken_flag f).spelledBy

/-! ### Rule texts -/

/-- The pieces of rule text that a clause is written with. -/
def pieces (c : Clause) : List String :=
  [c.flag.text, c.value]

theorem unwords_pieces (clauses : List Clause) :
    Text.unwords (clauses.map Clause.text) = Text.unwords (clauses.flatMap pieces) := by
  rw [← String.toList_inj]
  induction clauses with
  | nil => rfl
  | cons c cs ih =>
      cases cs with
      | nil => simp [pieces, Clause.text, Text.toList_unwords_cons_cons]
      | cons d ds =>
          rw [List.map_cons, List.map_cons, Text.toList_unwords_cons_cons, ← List.map_cons, ih]
          simp [pieces, Clause.text, Text.toList_unwords_cons_cons]

theorem IsSpelled.piece {c : Clause} (h : c.IsSpelled) :
    ∀ q ∈ c.pieces, q.toList ≠ [] ∧ Text.EndsInk q.toList ∧ '\n' ∉ q.toList := by
  have hne : c.value.toList ≠ [] := by
    intro hnil
    have := h.spelledBy.readList_eq
    rw [hnil, Word.readList_nil] at this
    cases this
  rw [pieces, List.forall_mem_cons, List.forall_mem_singleton]
  exact ⟨(isToken_flag c.flag).piece, hne, h.ends, h.newline⟩

theorem reads_pieces {clauses : List Clause} (h : ∀ c ∈ clauses, c.IsSpelled) :
    Word.Reads (clauses.flatMap pieces) (clauses.flatMap words) := by
  induction clauses with
  | nil => exact .nil
  | cons c cs ih =>
      rw [List.flatMap_cons, List.flatMap_cons]
      exact .cons (spelledBy_flag c.flag) (.cons (h c List.mem_cons_self).spelledBy
        (ih fun d hd => h d (List.mem_cons_of_mem _ hd)))

theorem map_written_words {clauses : List Clause} (h : ∀ c ∈ clauses, c.IsSpelled) :
    (clauses.flatMap words).map Word.written = clauses.flatMap pieces := by
  induction clauses with
  | nil => rfl
  | cons c cs ih =>
      rw [List.flatMap_cons, List.flatMap_cons, List.map_append, ih fun d hd => h d (List.mem_cons_of_mem _ hd)]
      congr 1
      simp [words, pieces, Word.written, (h c List.mem_cons_self).written.symm]

/-! ### Values that could be taken for flags -/

theorem flag?_text (f : Flag) : Word.flag? ⟨f.text, false⟩ = some f :=
  Flag.ofText?_text f

/-- The value of a clause does not read as a flag whose value is quoted. -/
def IsInert (c : Clause) : Prop :=
  c.word.flag?.any Flag.quotesValue = false

/-- Clauses of which only the last one may have a value that reads as a flag with a quoted value. -/
inductive Unconfused : List Clause → Prop
  | nil : Unconfused []
  | last (c : Clause) : Unconfused [c]
  | cons {c : Clause} {cs : List Clause} : c.IsInert → Unconfused cs → Unconfused (c :: cs)

theorem Unconfused.append {cs ds : List Clause} (h : ∀ c ∈ cs, c.IsInert) (hd : Unconfused ds) :
    Unconfused (cs ++ ds) := by
  induction cs with
  | nil => exact hd
  | cons c cs ih => exact .cons (h c List.mem_cons_self) (ih fun e he => h e (List.mem_cons_of_mem _ he))

theorem unconfused_cons_cons {c d : Clause} {cs : List Clause} :
    Unconfused (c :: d :: cs) ↔ c.IsInert ∧ Unconfused (d :: cs) := by
  constructor
  · intro h
    obtain _ | _ | ⟨hi, h⟩ := h
    exact ⟨hi, h⟩
  · exact fun ⟨hi, h⟩ => .cons hi h

theorem Unconfused.tail {c : Clause} {cs : List Clause} (h : Unconfused (c :: cs)) : Unconfused cs := by
  cases h with
  | last => exact .nil
  | cons _ h => exact h

theorem Unconfused.of_append {cs ds : List Clause} (h : Unconfused (cs ++ ds)) : Unconfused ds := by
  induction cs with
  | nil => exact h
  | cons c cs ih => exact ih h.tail

theorem unconfused_append_cons {cs ds : List Clause} {d : Clause} :
    Unconfused (cs ++ d :: ds) ↔ (∀ c ∈ cs, c.IsInert) ∧ Unconfused (d :: ds) := by
  induction cs with
  | nil => simp
  | cons c cs ih =>
      obtain ⟨e, es, he⟩ : ∃ e es, cs ++ d :: ds = e :: es :=
        List.exists_cons_of_ne_nil (List.append_ne_nil_of_right_ne_nil cs (List.cons_ne_nil d ds))
      rw [List.cons_append, he, unconfused_cons_cons, ← he, ih, List.forall_mem_cons, and_assoc]

theorem isInert_of_quotesValue {c : Clause} (hs : c.IsSpelled) (hf : c.flag.quotesValue = true) : c.IsInert := by
  rw [IsInert, Word.flag?, hs.quoted, hf]
  rfl

theorem isInert_of_ofText? {f : Flag} {value : String} (h : IsToken value)
    (hv : (Flag.ofText? value).any Flag.quotesValue = false) : (Clause.mk f value).IsInert := by
  rw [IsInert, word_eq (c := ⟨f, value⟩) h.spelledBy]
  exact hv

theorem ofText?_eq_none {value : String} (h : value.toList.head? ≠ some '-') : Flag.ofText? value = none := by
  have hdash : ∀ f ∈ Flag.all, ∀ s ∈ f.spellings, s.toList.head? = some '-' := by decide
  cases hv : Flag.ofText? value with
  | none => rfl
  | some f => exact absurd (hdash f (Flag.mem_all f) value (Flag.ofText?_eq_some_iff.mp hv)) h

/-- A value that does not begin with a dash is not taken for a flag. -/
theorem isInert_of_head {f : Flag} {value : String} (h : IsToken value) (hd : value.toList.head? ≠ some '-') :
    (Clause.mk f value).IsInert := by
  refine isInert_of_ofText? h ?_
  rw [ofText?_eq_none hd]
  rfl

theorem quotesValue_ofText? {value : String} (hc : value ≠ "--comment") (hp : value ≠ "--log-prefix") :
    (Flag.ofText? value).any Flag.quotesValue = false := by
  rw [← Bool.not_eq_true, Flag.any_quotesValue_iff, not_or]
  exact ⟨hc, hp⟩

theorem ne_of_isInert {f : Flag} {value : String} (h : (Clause.mk f value).IsInert) :
    value ≠ "--comment" ∧ value ≠ "--log-prefix" := by
  have hflag : ∀ g : Flag, g.quotesValue = true → value ≠ g.text := by
    rintro g hg rfl
    rw [IsInert, word_eq (c := ⟨f, g.text⟩) (spelledBy_flag g), flag?_text, Option.any_some, hg] at h
    cases h
  exact ⟨hflag .comment rfl, hflag .logPrefix rfl⟩

end Clause

/-! ### Reading rule texts -/

section ruleText
variable {chain : String} {clauses : List Clause}

/-- The clauses of a rule text, the one that names the chain included. -/
def ruleClauses (chain : String) (clauses : List Clause) : List Clause :=
  ⟨.append, chain⟩ :: clauses

theorem isSpelled_ruleClauses (hc : IsToken chain) (h : ∀ c ∈ clauses, c.IsSpelled) :
    ∀ c ∈ ruleClauses chain clauses, c.IsSpelled :=
  List.forall_mem_cons.mpr ⟨Clause.isSpelled_of_isToken rfl hc, h⟩

theorem ruleText_eq (chain : String) (clauses : List Clause) :
    ruleText chain clauses = Text.unwords ((ruleClauses chain clauses).flatMap Clause.pieces) :=
  Clause.unwords_pieces _

/-- The text of a rule whose clauses are spelled out is read as their flags and values in turn. -/
theorem read_ruleText (hc : IsToken chain) (h : ∀ c ∈ clauses, c.IsSpelled) :
    Word.read (ruleText chain clauses) = (ruleClauses chain clauses).flatMap Clause.words := by
  rw [ruleText_eq]
  exact (Clause.reads_pieces (isSpelled_ruleClauses hc h)).read_unwords

theorem ruleText_eq_unwords (hc : IsToken chain) (h : ∀ c ∈ clauses, c.IsSpelled) :
    ruleText chain clauses =
      Text.unwords (((ruleClauses chain clauses).flatMap Clause.words).map Word.written) := by
  rw [Clause.map_written_words (isSpelled_ruleClauses hc h), ruleText_eq]

theorem word_chain (hc : IsToken chain) : (Clause.mk .append chain).word = ⟨chain, false⟩ :=
  Clause.word_eq hc.spelledBy

theorem arguments_ruleText (hc : IsToken chain) (h : ∀ c ∈ clauses, c.IsSpelled) :
    ∃ rest, arguments (ruleText chain clauses) = "-A" :: chain :: rest := by
  rw [arguments, read_ruleText hc h, ruleClauses, List.flatMap_cons, Clause.words, word_chain hc]
  exact ⟨_, rfl⟩

theorem isRuleLine_ruleText (hc : IsToken chain) (h : ∀ c ∈ clauses, c.IsSpelled) :
    IsRuleLine (ruleText chain clauses) := by
  have hpieces : ∀ q ∈ chain :: clauses.flatMap Clause.pieces,
      q.toList ≠ [] ∧ Text.EndsInk q.toList ∧ '\n' ∉ q.toList := by
    refine List.forall_mem_cons.mpr ⟨hc.piece, fun q hq => ?_⟩
    obtain ⟨c, hmem, hq⟩ := List.mem_flatMap.mp hq
    exact (h c hmem).piece q hq
  rw [ruleText_eq]
  refine .of_unwords (fun q hq => (hpieces q hq).2.2) fun q hq => ?_
  obtain ⟨hne, hends, -⟩ := hpieces q (List.mem_of_getLast? hq)
  exact ⟨hne, hends⟩

/-! ### Listing rule texts -/

/-- The words have the same text, and the first is in quotes only if the second is. -/
def Word.SpeaksFor (w v : Word) : Prop :=
  w.text = v.text ∧ (v.quoted = false → w.quoted = false)

theorem Word.speaksFor_asListed (w : Word) : w.asListed.SpeaksFor w :=
  ⟨rfl, fun h => by rw [Word.asListed, h, Bool.false_and]⟩

theorem Word.forall₂_markValues (forced : Bool) (ws : List Word) :
    List.Forall₂ Word.SpeaksFor ws (Word.markValues forced ws) := by
  induction ws generalizing forced with
  | nil => exact .nil
  | cons w ws ih =>
      rw [Word.markValues_cons]
      exact .cons ⟨rfl, fun h => by simp_all⟩ (ih _)

theorem markValues_words {c : Clause} (hs : c.IsSpelled) {w v : Word} (hw : w.SpeaksFor ⟨c.flag.text, false⟩)
    (hv : v.SpeaksFor c.word) (ws : List Word) :
    Word.markValues false (w :: v :: ws) =
      c.words ++ Word.markValues (c.word.flag?.any Flag.quotesValue) ws := by
  have hflag : w = ⟨c.flag.text, false⟩ := by
    obtain ⟨text, quoted⟩ := w
    obtain ⟨rfl, hq⟩ := hw
    rw [show quoted = false from hq rfl]
  have hq := hs.quoted
  rw [hflag, Word.markValues_cons, Word.markValues_cons, Clause.flag?_text, Option.any_some, Clause.words,
    List.cons_append, List.singleton_append]
  cases hf : c.flag.quotesValue with
  | true =>
      rw [hf] at hq
      have hvalue : (⟨v.text, true⟩ : Word) = c.word := by rw [hv.1, ← hq]
      simp [Word.flag?, hq, hvalue]
  | false =>
      rw [hf] at hq
      have hvalue : v = c.word := by
        obtain ⟨text, quoted⟩ := v
        rw [show quoted = c.word.quoted from (hv.2 hq).trans hq.symm, show text = c.word.text from hv.1]
      have hbare : (⟨c.word.text, false⟩ : Word) = c.word := by rw [← hq]
      simp [hvalue, hq, hbare]

/-- Marking words that speak for the words of clauses gives those words back exactly if no value but the last is taken
for a flag with a quoted value. -/
theorem markValues_eq_iff {cs : List Clause} (hs : ∀ c ∈ cs, c.IsSpelled) {ws : List Word}
    (h : List.Forall₂ Word.SpeaksFor ws (cs.flatMap Clause.words)) :
    Word.markValues false ws = cs.flatMap Clause.words ↔ Clause.Unconfused cs := by
  induction cs generalizing ws with
  | nil =>
      cases h
      exact iff_of_true rfl .nil
  | cons c cs ih =>
      obtain ⟨hsc, hscs⟩ := List.forall_mem_cons.mp hs
      rw [List.flatMap_cons, Clause.words, List.cons_append, List.singleton_append] at h
      obtain _ | ⟨hw, h⟩ := h
      obtain _ | ⟨hv, h⟩ := h
      rw [markValues_words hsc hw hv, List.flatMap_cons, List.append_cancel_left_eq]
      cases cs with
      | nil =>
          cases h
          exact iff_of_true rfl (.last c)
      | cons d ds =>
          rw [Clause.unconfused_cons_cons]
          by_cases hi : c.IsInert
          · rw [show c.word.flag?.any Flag.quotesValue = false from hi, ih hscs h]
            exact (and_iff_right hi).symm
          · -- the flag of the next clause is put in quotes
            rw [show c.word.flag?.any Flag.quotesValue = true from eq_true_of_ne_false hi]
            refine iff_of_false (fun heq => ?_) fun h => hi h.1
            rw [List.flatMap_cons, Clause.words, List.cons_append] at h heq
            obtain _ | ⟨_, _⟩ := h
            rw [Word.markValues_cons, List.cons.injEq] at heq
            have hquoted := congrArg Word.quoted heq.1
            simp at hquoted

theorem forall₂_speaksFor (hc : IsToken chain) (h : ∀ c ∈ clauses, c.IsSpelled) :
    ∀ line ∈ [ruleText chain clauses, Firewall.listedText (ruleText chain clauses)],
      List.Forall₂ Word.SpeaksFor (Word.read line) ((ruleClauses chain clauses).flatMap Clause.words) := by
  simp only [List.forall_mem_cons]
  refine ⟨?_, ?_, by simp⟩
  · rw [read_ruleText hc h]
    exact List.forall₂_same.mpr fun _ _ => ⟨rfl, id⟩
  · rw [Word.read_listedText (isRuleLine_ruleText hc h).readable, read_ruleText hc h]
    exact List.forall₂_map_left_iff.mpr (List.forall₂_same.mpr fun w _ => w.speaksFor_asListed)

/-- The canonical text of a rule text, and of the line it is listed as, is the rule text exactly if no value but the
last could be taken for a flag with a quoted value. -/
theorem canonical_ruleText (hc : IsToken chain) (h : ∀ c ∈ clauses, c.IsSpelled) :
    ∀ line ∈ [ruleText chain clauses, Firewall.listedText (ruleText chain clauses)],
      canonical line = ruleText chain clauses ↔ Clause.Unconfused (ruleClauses chain clauses) := by
  intro line hline
  have hread := read_ruleText hc h
  have hnewline : '\n' ∉ line.toList := by
    have hrule := isRuleLine_ruleText hc h
    simp only [List.mem_cons, List.not_mem_nil, or_false] at hline
    rcases hline with rfl | rfl
    · exact hrule.newline
    · exact hrule.listedText.newline
  rw [canonical_eq_iff hnewline (by rw [hread, ← ruleText_eq_unwords hc h]), hread]
  exact markValues_eq_iff (isSpelled_ruleClauses hc h) (forall₂_speaksFor hc h line hline)

/-! ### Attributes of listed rules -/

theorem flagValues_of_forall₂ {cs : List Clause} {ws : List Word}
    (h : List.Forall₂ Word.SpeaksFor ws (cs.flatMap Clause.words)) :
    LiveRule.flagValues ws = cs.map fun c => (c.flag, c.word.text) := by
  induction cs generalizing ws with
  | nil =>
      cases h
      rfl
  | cons c cs ih =>
      rw [List.flatMap_cons, Clause.words, List.cons_append, List.singleton_append] at h
      cases h with
      | @cons w _ _ _ hw h =>
          have hflag : w.flag? = some c.flag := by
            rw [Word.flag?, if_neg (by simp [hw.2 rfl]), hw.1, Flag.ofText?_text]
          cases h with
          | @cons v _ ws _ hv h => rw [LiveRule.flagValues, hflag, ih h, List.map_cons, ← hv.1]

/-- The flags and values of a line whose key is the text of a rule are the clauses of that rule. -/
theorem flagValues_of_canonical {line : String} (hl : '\n' ∉ line.toList) (hc : IsToken chain)
    (h : ∀ c ∈ clauses, c.IsSpelled) (hk : canonical line = ruleText chain clauses) :
    LiveRule.flagValues (Word.read line) =
      (ruleClauses chain clauses).map fun c => (c.flag, c.word.text) := by
  have hmarked : Word.markValues false (Word.read line) = (ruleClauses chain clauses).flatMap Clause.words := by
    rw [← read_ruleText hc h, ← hk, canonical, Word.read_render (Word.readable_read hl)]
  exact flagValues_of_forall₂ (hmarked ▸ Word.forall₂_markValues false _)

/-- The flags and values of a rule text, and of the line it is listed as, are the clauses of the rule, even if one of
the values looks like a flag. -/
theorem flagValues_ruleText (hc : IsToken chain) (h : ∀ c ∈ clauses, c.IsSpelled) :
    ∀ line ∈ [ruleText chain clauses, Firewall.listedText (ruleText chain clauses)],
      LiveRule.flagValues (Word.read line) =
        (ruleClauses chain clauses).map fun c => (c.flag, c.word.text) :=
  fun line hline => flagValues_of_forall₂ (forall₂_speaksFor hc h line hline)

/-- The chain that is named last among some flags and their values. -/
def LiveRule.namedChain? (values : List (Flag × String)) : Option String :=
  ((values.filter fun v => v.1 = .append ∨ v.1 = .delete).getLast?).map Prod.snd

theorem chain_foldl_set {mode : AddressMode} {values : List (Flag × String)} {r : LiveRule} :
    (values.foldl (fun r (flag, value) => r.set mode flag value) r).chain =
      (LiveRule.namedChain? values).getD r.chain := by
  induction values generalizing r with
  | nil => rfl
  | cons v vs ih =>
      obtain ⟨flag, value⟩ := v
      rw [List.foldl_cons, ih]
      by_cases hf : flag = .append ∨ flag = .delete
      · rw [LiveRule.namedChain?, LiveRule.namedChain?, List.filter_cons_of_pos (by simpa using hf),
          List.getLast?_cons]
        cases (vs.filter fun v => v.1 = .append ∨ v.1 = .delete).getLast? with
        | none => rcases hf with rfl | rfl <;> rfl
        | some v => rfl
      · rw [LiveRule.namedChain?, LiveRule.namedChain?, List.filter_cons_of_neg (by simpa using hf)]
        congr 1
        cases flag <;> first | rfl | simp at hf

theorem LiveRule.namedChain?_append (c : String) (values : List (Flag × String)) :
    LiveRule.namedChain? ((.append, c) :: values) = some ((LiveRule.namedChain? values).getD c) := by
  rw [LiveRule.namedChain?, LiveRule.namedChain?, List.filter_cons_of_pos (by simp), List.getLast?_cons]
  cases (values.filter fun v => v.1 = .append ∨ v.1 = .delete).getLast? <;> rfl

theorem LiveRule.namedChain?_eq_none {values : List (Flag × String)}
    (h : ∀ v ∈ values, v.1 ≠ .append ∧ v.1 ≠ .delete) : LiveRule.namedChain? values = none := by
  have hnone : values.filter (fun v => v.1 = .append ∨ v.1 = .delete) = [] := by
    rw [List.filter_eq_nil_iff]
    intro v hv
    simpa using h v hv
  rw [LiveRule.namedChain?, hnone]
  rfl

theorem chain_ofLine_eq (mode : AddressMode) (t : Table) (line : String) :
    (LiveRule.ofLine mode t line).chain = (LiveRule.namedChain? (LiveRule.flagValues (Word.read line))).getD "" :=
  chain_foldl_set

theorem chain_ofLine {line : String} (hl : '\n' ∉ line.toList) (hc : IsToken chain)
    (h : ∀ c ∈ clauses, c.IsSpelled) (hf : ∀ c ∈ clauses, c.flag ≠ .append ∧ c.flag ≠ .delete)
    (hk : canonical line = ruleText chain clauses) (mode : AddressMode) (t : Table) :
    (LiveRule.ofLine mode t line).chain = chain := by
  have hnone : LiveRule.namedChain? (clauses.map fun c => (c.flag, c.word.text)) = none :=
    LiveRule.namedChain?_eq_none (List.forall_mem_map.mpr hf)
  rw [chain_ofLine_eq, flagValues_of_canonical hl hc h hk, ruleClauses, List.map_cons, LiveRule.namedChain?_append,
    hnone, word_chain hc]
  rfl

end ruleText

end PacketFilter
