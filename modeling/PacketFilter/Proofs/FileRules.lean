import Mathlib.Data.List.Chain
import PacketFilter.Proofs.CommandRuns
import PacketFilter.Proofs.RuleWords
import PacketFilter.RuleFile

/-! # Rules of files

The text of a rule of a file is its own canonical text (`RuleFile.canonical_of_parse`), but unlike declared rules the
rules of files are not checked, and a listing may show them in another form. A rule that is the only live one is found
under its own text and in its own chain exactly if it is listable (`RuleFile.entries_of_parse`): it has to be written
with the short flag `-A`, no blank may end it, quotes may stand only where a listing keeps them, and no later word may
be taken for another chain. -/

namespace PacketFilter

/-! ### Quotes in a listing -/

namespace Word

/-- A listing keeps quotes around a plain word only behind a flag whose value is always quoted. -/
def KeepsQuotes (w v : Word) : Prop :=
  v.quoted = true → Firewall.isPlain v.text = true → w.flag?.any Flag.quotesValue = true

instance (w v : Word) : Decidable (w.KeepsQuotes v) :=
  inferInstanceAs (Decidable (_ → _ → _))

/-- Marked words that are listed and marked again are the same words exactly if all quotes are kept. `forced` says that
a flag with a quoted value stood before. -/
theorem markValues_map_asListed_iff {forced : Bool} {ws : List Word} (hm : markValues forced ws = ws) :
    markValues forced (ws.map asListed) = ws ↔
      (∀ v, ws.head? = some v → v.quoted = true → Firewall.isPlain v.text = true → forced = true) ∧
        ws.IsChain KeepsQuotes := by
  induction ws generalizing forced with
  | nil => simp [markValues]
  | cons w ws ih =>
      rw [markValues_cons, List.cons.injEq] at hm
      obtain ⟨hw, hm⟩ := hm
      have hforced : (w.quoted || forced) = w.quoted := congrArg Word.quoted hw
      have hflag : w.quoted = true → w.flag? = none := fun hq => by rw [flag?, if_pos hq]
      have hnext : (! w.quoted && w.flag?.any Flag.quotesValue) = w.flag?.any Flag.quotesValue := by
        cases hq : w.quoted with
        | true => simp [hflag hq]
        | false => rfl
      rw [hforced, hnext] at hm
      rw [List.map_cons, markValues_cons, List.cons.injEq, List.isChain_cons]
      by_cases hkept : (w.asListed.quoted || forced) = w.quoted
      · have hlisted : (! w.quoted && w.asListed.flag?.any Flag.quotesValue) = w.flag?.any Flag.quotesValue := by
          cases hq : w.quoted with
          | true => simp [hflag hq]
          | false => simp [flag?, asListed, hq]
        have hhead : w.quoted = true → Firewall.isPlain w.text = true → forced = true := by
          intro hq hp
          simpa [asListed, hq, hp] using hkept
        rw [hkept, hlisted, ih hm]
        constructor
        · rintro ⟨-, hnext, hchain⟩
          refine ⟨fun v hv => ?_, fun v hv => hnext v hv, hchain⟩
          rw [← Option.some_inj.mp hv]
          exact hhead
        · rintro ⟨-, hnext, hchain⟩
          exact ⟨rfl, fun v hv => hnext v hv, hchain⟩
      · refine iff_of_false (fun h => hkept (congrArg Word.quoted h.1)) fun h => hkept ?_
        have hhead := h.1 w rfl
        cases hq : w.quoted <;> cases hp : Firewall.isPlain w.text <;> simp_all [asListed]

end Word

namespace RuleFile

/-! ### Texts of rules -/

theorem sublist_of_chooseTable {ws rest : List Word} {t : Table} (h : chooseTable ws = some (t, rest)) :
    rest.Sublist ws := by
  fun_induction chooseTable ws generalizing t rest with
  | case1 =>
      cases h
      exact .slnil
  | case2 w _ => cases h
  | case3 w _ name ws =>
      obtain ⟨_, -, h⟩ := Option.map_eq_some_iff.mp h
      obtain ⟨-, rfl⟩ := Prod.mk.inj h
      exact ((List.Sublist.refl ws).cons name).cons w
  | case4 w ws _ ih =>
      obtain ⟨⟨_, rest'⟩, h', h⟩ := Option.map_eq_some_iff.mp h
      obtain ⟨-, rfl⟩ := Prod.mk.inj h
      exact (ih h').cons_cons w

/-- The text of a rule of a file is one line, it is its own canonical text, and it appends to the chain of the rule. -/
theorem canonical_of_parse {origin : Origin} {content : String} {r : Rule} (h : r ∈ parse origin content) :
    '\n' ∉ r.text.toList ∧ canonical r.text = r.text ∧ appendedChain? r.text = some r.chain := by
  obtain ⟨line, hline, h⟩ := List.mem_filterMap.mp h
  rw [ruleOfLine] at h
  split at h
  · cases h
  · obtain ⟨⟨table, ws⟩, htable, h⟩ := Option.bind_eq_some_iff.mp h
    obtain ⟨chain, hchain, h⟩ := Option.bind_eq_some_iff.mp h
    obtain rfl := Option.some_inj.mp h
    have hsub := sublist_of_chooseTable htable
    have hnewline := Text.newline_not_mem_trim hline
    have hreadable := (Word.readable_read hnewline).of_sublist hsub
    refine ⟨fun hn => ?_, ?_, hchain⟩
    · rcases Text.mem_unwords hn with h | ⟨p, hp, hc⟩
      · cases h
      · obtain ⟨v, hv, rfl⟩ := List.mem_map.mp hp
        rcases Word.mem_written hc with h | h | h
        · cases h
        · cases h
        · have hv := List.mem_map_of_mem (f := Word.text) hv
          rw [Word.map_text_markValues] at hv
          obtain ⟨w, hw, htext⟩ := List.mem_map.mp hv
          exact hnewline (Word.mem_of_mem_readList (hsub.subset hw) (htext ▸ h))
    · rw [canonical, Word.read_render hreadable, Word.render, Word.markValues_markValues]
      rfl

theorem exists_parse_of_load {origin : Origin} {document : Document} {rules : List Rule}
    (h : load origin document = .ok rules) : ∃ content, rules ⊆ parse origin content := by
  rw [load.eq_def] at h
  split at h
  · cases h
    exact ⟨"", List.nil_subset _⟩
  · split at h
    · cases h
      exact ⟨_, List.Subset.refl _⟩
    · cases h

end RuleFile

/-! ### Rules that are listed as they are -/

/-- A rule that a listing shows as it is. -/
structure Rule.IsListable (r : Rule) : Prop where
  /-- Its text begins with the flag `-A`. -/
  first : (Word.read r.text).head? = some ⟨"-A", false⟩
  /-- No blank ends it. -/
  ends : Text.EndsInk r.text.toList
  /-- Quotes stand where a listing keeps them. -/
  quotes : (Word.read r.text).IsChain Word.KeepsQuotes
  /-- Its chain is the last that is named in the listing. -/
  chain : LiveRule.namedChain? (LiveRule.flagValues ((Word.read r.text).map Word.asListed)) = some r.chain

instance (r : Rule) : Decidable r.IsListable :=
  decidable_of_iff
    ((Word.read r.text).head? = some ⟨"-A", false⟩ ∧ Text.EndsInk r.text.toList ∧
      (Word.read r.text).IsChain Word.KeepsQuotes ∧
      LiveRule.namedChain? (LiveRule.flagValues ((Word.read r.text).map Word.asListed)) = some r.chain)
    ⟨fun ⟨hfirst, hends, hquotes, hchain⟩ => ⟨hfirst, hends, hquotes, hchain⟩,
      fun h => ⟨h.first, h.ends, h.quotes, h.chain⟩⟩

section canonical
variable {text chain : String}

theorem unwords_written (hn : '\n' ∉ text.toList) (hc : canonical text = text) :
    Word.markValues false (Word.read text) = Word.read text ∧
      Text.unwords ((Word.read text).map Word.written) = text := by
  have hread : Word.markValues false (Word.read text) = Word.read text := by
    rw [← Word.read_render (Word.readable_read hn)]
    exact congrArg Word.read hc
  refine ⟨hread, ?_⟩
  rw [← hread]
  exact hc

theorem isRuleLine_of_canonical (hn : '\n' ∉ text.toList) (hc : canonical text = text)
    (hchain : appendedChain? text = some chain) (hfirst : (Word.read text).head? = some ⟨"-A", false⟩)
    (hends : Text.EndsInk text.toList) : IsRuleLine text := by
  refine ⟨?_, hn, hends⟩
  obtain ⟨ws, hread⟩ := List.head?_eq_some_iff.mp hfirst
  cases ws with
  | nil => simp [appendedChain?, hread] at hchain
  | cons w ws =>
      rw [← (unwords_written hn hc).2, hread, List.map_cons, List.map_cons, Text.toList_unwords_cons_cons]
      exact ⟨_, rfl⟩

/-- The key of a canonical text is that text exactly if a listing keeps its quotes. -/
theorem listedKey_canonical (hl : IsRuleLine text) (hc : canonical text = text) :
    Firewall.listedKey text = text ↔ (Word.read text).IsChain Word.KeepsQuotes := by
  obtain ⟨hmarked, hwritten⟩ := unwords_written hl.newline hc
  obtain ⟨w, ws, hread⟩ := hl.exists_read_eq
  rw [Firewall.listedKey, canonical_eq_iff hl.listedText.newline hwritten, Word.read_listedText hl.readable,
    Word.markValues_map_asListed_iff hmarked, hread]
  simp

/-- A rule line is listed as a rule of the chain that is named last where it is listed. -/
theorem chain_listedText (hl : IsRuleLine text) (mode : AddressMode) (t : Table) :
    (LiveRule.ofLine mode t (Firewall.listedText text)).chain = chain ↔
      LiveRule.namedChain? (LiveRule.flagValues ((Word.read text).map Word.asListed)) = some chain := by
  obtain ⟨w, ws, hread⟩ := hl.exists_read_eq
  have hfirst : LiveRule.flagValues ((Word.read text).map Word.asListed) =
      (.append, w.text) :: LiveRule.flagValues (ws.map Word.asListed) := by
    rw [hread]
    rfl
  rw [chain_ofLine_eq, Word.read_listedText hl.readable, hfirst, LiveRule.namedChain?_append, Option.getD_some,
    Option.some_inj]

end canonical

namespace RuleFile

/-- A rule of a file that is the only live rule is the only entry of its table, under its own text and with its own
chain, exactly if it is listable. -/
theorem entries_of_parse {origin : Origin} {content : String} {r : Rule} (h : r ∈ parse origin content)
    (mode : AddressMode) :
    ∃ w, Backend.run (.append r.table r.text) ({} : Firewall) = .ok () w ∧
      (((Listing.parse false mode w.listing).entries r.table).map (fun e => (e.key, e.rule.chain)) =
        [(r.text, r.chain)] ↔ r.IsListable) := by
  obtain ⟨hn, hc, hchain⟩ := canonical_of_parse h
  obtain ⟨w, hrun, hslots⟩ := Firewall.exists_run_append r.table hchain
  refine ⟨w, hrun, ?_⟩
  have hentries : IsRuleLine r.text →
      (((Listing.parse false mode w.listing).entries r.table).map (fun e => (e.key, e.rule.chain)) =
        [(r.text, r.chain)] ↔ (Word.read r.text).IsChain Word.KeepsQuotes ∧
          LiveRule.namedChain? (LiveRule.flagValues ((Word.read r.text).map Word.asListed)) = some r.chain) := by
    intro hl
    rw [Firewall.entries_of_run_append hl hchain hslots, List.map_singleton, List.singleton_inj, Prod.mk.injEq,
      listedKey_canonical hl hc, chain_listedText hl]
  constructor
  · intro hfound
    obtain ⟨e, he, hkey⟩ := List.mem_map.mp (hfound ▸ List.mem_singleton_self (r.text, r.chain))
    obtain ⟨hkey, -⟩ := Prod.mk.inj hkey
    have hl : IsRuleLine r.text := hkey ▸ Firewall.isRuleLine_key he
    obtain ⟨hquotes, hnamed⟩ := (hentries hl).mp hfound
    obtain ⟨v, ws, hread⟩ := hl.exists_read_eq
    exact ⟨by rw [hread, List.head?_cons], hl.ends, hquotes, hnamed⟩
  · intro hlistable
    have hl := isRuleLine_of_canonical hn hc hchain hlistable.first hlistable.ends
    exact (hentries hl).mpr ⟨hlistable.quotes, hlistable.chain⟩

def natFile : String :=
  "# local\n-t nat -A POSTROUTING -m comment --comment \"out going\" -j MASQUERADE\n"

def natRule : Rule :=
  { table := .nat, chain := "POSTROUTING", origin := .post,
    text := "-A POSTROUTING -m comment --comment \"out going\" -j MASQUERADE" }

/-- The rule of that file is found as it stands there. -/
theorem entries_of_parse_nat :
    natRule ∈ parse .post natFile ∧ ∃ w, Backend.run (.append .nat natRule.text) ({} : Firewall) = .ok () w ∧
      ((Listing.parse false .cidr w.listing).entries .nat).map (fun e => (e.key, e.rule.chain)) =
        [(natRule.text, "POSTROUTING")] := by
  have hmem : natRule ∈ parse .post natFile := by decide +kernel
  have hlistable : natRule.IsListable := by decide +kernel
  obtain ⟨w, hrun, hentries⟩ := entries_of_parse hmem .cidr
  exact ⟨hmem, w, hrun, hentries.mpr hlistable⟩

/-- A rule that is written with the long flag. -/
def appendRule : Rule :=
  { table := .filter, chain := "INPUT", origin := .pre, text := "--append INPUT -j ACCEPT" }

/-- Not every rule of a file is found in a listing: a rule that is written with the long flag is not. -/
theorem not_entries_of_parse :
    ¬ ∀ (origin : Origin) (content : String) (r : Rule) (mode : AddressMode), r ∈ parse origin content →
      ∃ w, Backend.run (.append r.table r.text) ({} : Firewall) = .ok () w ∧
        ((Listing.parse false mode w.listing).entries r.table).map (fun e => (e.key, e.rule.chain)) =
          [(r.text, r.chain)] := by
  intro h
  have hmem : appendRule ∈ parse .pre "--append INPUT -j ACCEPT\n" := by decide +kernel
  obtain ⟨w, -, hentries⟩ := h .pre _ appendRule .cidr hmem
  obtain ⟨e, he, hkey⟩ := List.mem_map.mp (hentries ▸ List.mem_singleton_self (appendRule.text, appendRule.chain))
  obtain ⟨rest, hstarts⟩ := (Firewall.isRuleLine_key he).starts
  rw [(Prod.mk.inj hkey).1] at hstarts
  cases hstarts

end RuleFile

end PacketFilter
