import PacketFilter.Command
import PacketFilter.Proofs.FileRules

/-! # The arguments of file rules

A rule of a file is passed on as its line has it: the arguments that append it are those of the line, with the choice of
a table moved to the front (`RuleFile.parse_verbatim`). The text of the rule is not the line, since its words are
written anew, but rendering words only puts quotes around some of them, and these are taken off again. -/

namespace PacketFilter

namespace RuleFile

/-! ### The choice of a table -/

/-- A word that chooses a table. -/
def Selects (w : Word) : Prop :=
  w.Spells ["-t", "--table"]

/-- The words of a line, the table that they choose, and the words without the choice. The first word that chooses a
table counts, and the name of the table stands behind it; without such a word it is `filter`. -/
inductive Chooses : List Word → Table → List Word → Prop
  | filter {ws : List Word} : (∀ w ∈ ws, ¬ Selects w) → Chooses ws .filter ws
  | named {front back : List Word} {selector name : Word} {t : Table} :
      (∀ w ∈ front, ¬ Selects w) → Selects selector → name.text = t.name →
        Chooses (front ++ selector :: name :: back) t (front ++ back)

theorem flag?_eq_table_iff {w : Word} : w.flag? = some .table ↔ Selects w :=
  Word.flag?_eq_some_iff

theorem Chooses.cons {w : Word} {ws rest : List Word} {t : Table} (hw : ¬ Selects w) (h : Chooses ws t rest) :
    Chooses (w :: ws) t (w :: rest) := by
  cases h with
  | filter hws => exact .filter (List.forall_mem_cons.mpr ⟨hw, hws⟩)
  | named hfront hselector hname => exact .named (List.forall_mem_cons.mpr ⟨hw, hfront⟩) hselector hname

theorem chooseTable_cons {w : Word} (hw : ¬ Selects w) (ws : List Word) :
    chooseTable (w :: ws) = (chooseTable ws).map fun (t, rest) => (t, w :: rest) := by
  rw [chooseTable.eq_def]
  exact if_neg fun hf => hw (flag?_eq_table_iff.mp hf)

theorem chooseTable_cons_cons {w : Word} (hw : Selects w) (name : Word) (ws : List Word) :
    chooseTable (w :: name :: ws) = (Table.ofName? name.text).map fun t => (t, ws) := by
  rw [chooseTable.eq_def]
  exact if_pos (flag?_eq_table_iff.mpr hw)

theorem chooseTable_eq_some_iff {ws rest : List Word} {t : Table} :
    chooseTable ws = some (t, rest) ↔ Chooses ws t rest := by
  constructor
  · intro h
    fun_induction chooseTable ws generalizing t rest with
    | case1 =>
        obtain ⟨rfl, rfl⟩ := Prod.mk.inj (Option.some_inj.mp h)
        exact .filter (List.forall_mem_nil _)
    | case2 w _ => cases h
    | case3 w hw name back =>
        obtain ⟨u, hu, h⟩ := Option.map_eq_some_iff.mp h
        obtain ⟨rfl, rfl⟩ := Prod.mk.inj h
        rw [← List.nil_append (w :: name :: back), ← List.nil_append back]
        exact .named (List.forall_mem_nil _) (flag?_eq_table_iff.mp hw) (Table.ofName?_eq_some_iff.mp hu)
    | case4 w ws hw ih =>
        obtain ⟨⟨u, rest'⟩, h', h⟩ := Option.map_eq_some_iff.mp h
        obtain ⟨rfl, rfl⟩ := Prod.mk.inj h
        exact (ih h').cons fun hs => hw (flag?_eq_table_iff.mpr hs)
  · intro h
    cases h with
    | filter hws =>
        induction ws with
        | nil => rfl
        | cons w ws ih =>
            obtain ⟨hw, hws⟩ := List.forall_mem_cons.mp hws
            rw [chooseTable_cons hw, ih hws, Option.map_some]
    | @named front _ _ _ _ hfront hselector hname =>
        induction front with
        | nil =>
            rw [List.nil_append, chooseTable_cons_cons hselector, Table.ofName?_eq_some_iff.mpr hname, Option.map_some]
            rfl
        | cons w front ih =>
            obtain ⟨hw, hfront⟩ := List.forall_mem_cons.mp hfront
            rw [List.cons_append, chooseTable_cons hw, ih hfront, Option.map_some]
            rfl

/-! ### Words that are written anew -/

def Appends (w : Word) : Prop :=
  w.Spells ["-A", "--append"]

instance (w : Word) : Decidable (Appends w) :=
  inferInstanceAs (Decidable (w.Spells _))

theorem flag?_eq_append_iff {w : Word} : w.flag? = some .append ↔ Appends w :=
  Word.flag?_eq_some_iff

theorem arguments_render {ws : List Word} (h : Word.Readable ws) :
    PacketFilter.arguments (Word.render ws) = ws.map Word.text := by
  rw [PacketFilter.arguments, Word.read_render h, Word.map_text_markValues]

theorem appendedChain?_render {ws : List Word} (h : Word.Readable ws) {c : String} :
    appendedChain? (Word.render ws) = some c ↔
      ∃ flag chain more, ws = flag :: chain :: more ∧ Appends flag ∧ chain.text = c := by
  rw [appendedChain?, Word.read_render h]
  cases ws with
  | nil => simp [Word.markValues]
  | cons flag ws =>
      cases ws with
      | nil =>
          rw [Word.markValues_cons]
          simp [Word.markValues]
      | cons chain more =>
          simp [Word.markValues_cons, ← flag?_eq_append_iff, Word.flag?]

/-- The words of a line give a rule exactly if they append to a chain when the choice of a table is taken out. -/
theorem ruleOfWords_eq_some_iff {origin : Origin} {ws : List Word} (h : Word.Readable ws) {r : Rule} :
    ruleOfWords origin ws = some r ↔
      ∃ t flag chain more, Chooses ws t (flag :: chain :: more) ∧ Appends flag ∧
        ({ table := t, chain := chain.text, text := Word.render (flag :: chain :: more), origin } : Rule) = r := by
  unfold ruleOfWords
  constructor
  · intro hr
    obtain ⟨⟨t, rest⟩, hchoose, hr⟩ := Option.bind_eq_some_iff.mp hr
    obtain ⟨c, hchain, hr⟩ := Option.bind_eq_some_iff.mp hr
    have hreadable := h.of_sublist (sublist_of_chooseTable hchoose)
    obtain ⟨flag, chain, more, rfl, hflag, rfl⟩ := (appendedChain?_render hreadable).mp hchain
    exact ⟨t, flag, chain, more, chooseTable_eq_some_iff.mp hchoose, hflag, Option.some_inj.mp hr⟩
  · rintro ⟨t, flag, chain, more, hchoose, hflag, rfl⟩
    rw [← chooseTable_eq_some_iff] at hchoose
    have hreadable := h.of_sublist (sublist_of_chooseTable hchoose)
    have hchain := (appendedChain?_render hreadable).mpr ⟨flag, chain, more, rfl, hflag, rfl⟩
    simp [hchoose, hchain]

/-! ### Lines -/

/-- A line of a file, without the blanks around it, asks to append: it is neither empty nor a comment, and without its
choice of a table its words are a flag that appends, a chain, and whatever follows. -/
structure Asks (line : String) (t : Table) (flag chain : Word) (more : List Word) : Prop where
  nonempty : line ≠ ""
  noComment : line.toList.head? ≠ some '#'
  chooses : Chooses (Word.read line) t (flag :: chain :: more)
  appends : Appends flag

/-- A line that asks to append to some chain. -/
def IsAppending (line : String) : Prop :=
  ∃ t flag chain more, Asks line t flag chain more

theorem isAppending_iff {line : String} :
    IsAppending line ↔ line ≠ "" ∧ line.toList.head? ≠ some '#' ∧
      ∃ choice ∈ chooseTable (Word.read line), 1 < choice.2.length ∧ choice.2.head?.any Appends := by
  constructor
  · rintro ⟨t, flag, chain, more, hasks⟩
    exact ⟨hasks.nonempty, hasks.noComment, _, chooseTable_eq_some_iff.mpr hasks.chooses, by simp,
      by simpa using hasks.appends⟩
  · rintro ⟨hne, hcomment, ⟨t, rest⟩, hchoose, hlength, hflag⟩
    match rest, hlength, hflag, hchoose with
    | flag :: chain :: more, _, hflag, hchoose =>
        exact ⟨t, flag, chain, more, hne, hcomment, chooseTable_eq_some_iff.mp hchoose, by simpa using hflag⟩

instance (line : String) : Decidable (IsAppending line) :=
  decidable_of_iff _ isAppending_iff.symm

/-- The rule of a line without the blanks around it. -/
def ruleOfTrimmed (origin : Origin) (line : String) : Option Rule :=
  if line.isEmpty || line.toList.head? == some '#' then none else ruleOfWords origin (Word.read line)

theorem parse_eq (origin : Origin) (content : String) :
    parse origin content = ((Text.lines content).map Text.trim).filterMap (ruleOfTrimmed origin) := by
  have hrule : ruleOfLine origin = ruleOfTrimmed origin ∘ Text.trim :=
    funext fun line => by rw [ruleOfLine, Function.comp_apply, ruleOfTrimmed]
  rw [parse, hrule, List.filterMap_map]

theorem ruleOfTrimmed_eq_some_iff {origin : Origin} {line : String} (h : '\n' ∉ line.toList) {r : Rule} :
    ruleOfTrimmed origin line = some r ↔
      ∃ t flag chain more, Asks line t flag chain more ∧
        ({ table := t, chain := chain.text, text := Word.render (flag :: chain :: more), origin } : Rule) = r := by
  unfold ruleOfTrimmed
  split
  · rename_i hskip
    simp only [Bool.or_eq_true, String.isEmpty_iff, beq_iff_eq] at hskip
    refine iff_of_false (Option.some_ne_none r).symm ?_
    rintro ⟨t, flag, chain, more, hasks, -⟩
    exact hskip.elim hasks.nonempty hasks.noComment
  · rename_i hkept
    simp only [Bool.or_eq_true, String.isEmpty_iff, beq_iff_eq, not_or] at hkept
    rw [ruleOfWords_eq_some_iff (Word.readable_read h)]
    constructor
    · rintro ⟨t, flag, chain, more, hchoose, hflag, rfl⟩
      exact ⟨t, flag, chain, more, ⟨hkept.1, hkept.2, hchoose, hflag⟩, rfl⟩
    · rintro ⟨t, flag, chain, more, hasks, rfl⟩
      exact ⟨t, flag, chain, more, hasks.chooses, hasks.appends, rfl⟩

theorem forall₂_filter_filterMap {α β : Type} {p : α → Prop} [DecidablePred p] {f : α → Option β}
    {related : α → β → Prop} {xs : List α} (hp : ∀ a ∈ xs, p a ↔ ∃ b, f a = some b)
    (h : ∀ a ∈ xs, ∀ b, f a = some b → related a b) :
    List.Forall₂ related (xs.filter p) (xs.filterMap f) := by
  induction xs with
  | nil => exact .nil
  | cons a xs ih =>
      obtain ⟨hpa, hpxs⟩ := List.forall_mem_cons.mp hp
      obtain ⟨ha, hxs⟩ := List.forall_mem_cons.mp h
      cases hf : f a with
      | none =>
          rw [List.filterMap_cons_none hf, List.filter_cons_of_neg (by simp [hpa, hf])]
          exact ih hpxs hxs
      | some b =>
          rw [List.filterMap_cons_some hf, List.filter_cons_of_pos (by simp [hpa, hf])]
          exact .cons (ha b hf) (ih hpxs hxs)

/-- A file gives one rule for each of its lines that asks to append, in their order, and none for the others. The rule
belongs to the table that its line chooses and to the chain that it names, and it is appended with the arguments of the
line, of which only the choice of the table has moved to the front. -/
theorem parse_verbatim (origin : Origin) (content : String) :
    List.Forall₂
      (fun line r => ∃ t flag chain more, Asks line t flag chain more ∧ r.table = t ∧ r.chain = chain.text ∧
        Command.appendArguments r.table r.text = "-t" :: t.name :: (flag :: chain :: more).map Word.text ∧
        r.name = "" ∧ r.source = "" ∧ r.origin = origin)
      (((Text.lines content).map Text.trim).filter IsAppending) (parse origin content) := by
  have hnewline : ∀ line ∈ (Text.lines content).map Text.trim, '\n' ∉ line.toList :=
    List.forall_mem_map.mpr fun line hline => Text.newline_not_mem_trim hline
  rw [parse_eq]
  refine forall₂_filter_filterMap (fun line hline => ?_) fun line hline r hr => ?_
  · simp only [ruleOfTrimmed_eq_some_iff (hnewline line hline)]
    constructor
    · rintro ⟨t, flag, chain, more, hasks⟩
      exact ⟨_, t, flag, chain, more, hasks, rfl⟩
    · rintro ⟨r, t, flag, chain, more, hasks, -⟩
      exact ⟨t, flag, chain, more, hasks⟩
  · obtain ⟨t, flag, chain, more, hasks, rfl⟩ := (ruleOfTrimmed_eq_some_iff (hnewline line hline)).mp hr
    have hreadable := (Word.readable_read (hnewline line hline)).of_sublist
      (sublist_of_chooseTable (chooseTable_eq_some_iff.mpr hasks.chooses))
    have harguments := arguments_render hreadable
    refine ⟨t, flag, chain, more, hasks, rfl, rfl, ?_, rfl, rfl, rfl⟩
    rw [Command.appendArguments, harguments]

/-- A table may be chosen behind the chain, and a word in quotes chooses none. -/
example : (parse .pre "#-A A\n -A A -m \"-t\" -t \"raw\" \"b c\n-D A").map
    (fun r => Command.appendArguments r.table r.text) = [["-t", "raw", "-A", "A", "-m", "-t", "\"b c"]] := by
  decide +kernel

end RuleFile

end PacketFilter
