import PacketFilter.Rule.Flag
import PacketFilter.Text.Line

/-! # Words of rule text

Rule text is a sequence of words between separators. A word in double quotes may hold anything; inside
the quotes a backslash stands before a character that is meant literally. `Word.read` splits a text into
its words and never fails, since a quote that is not closed is kept as it stands; `Word.render` joins words
back, and `canonical` is the two in turn. -/

namespace PacketFilter

/-- A word of rule text, without its quotes. -/
structure Word where
  text : String
  quoted : Bool
deriving DecidableEq

namespace Word

/-- The five characters that separate words: space, tab, carriage return, newline and form feed. -/
def isSeparator (c : Char) : Bool :=
  c == ' ' || c == '\t' || c == '\r' || c == '\n' || c == '\x0c'

/-- The characters of words without quotes. -/
def isBare (c : Char) : Bool :=
  ! isSeparator c && c != '"'

/-- What follows an opening quote: whether the quote is closed, the characters up to its end, and the rest
of the text after it. -/
structure Quotation where
  closed : Bool
  body : List Char
  rest : List Char

namespace Quotation

/-- The same quotation with a longer body. -/
def after (body : List Char) (q : Quotation) : Quotation :=
  { q with body := body ++ q.body }

/-- Reads on from an opening quote. A backslash takes the next character with it; one before a newline
ends the quotation unclosed, and so does the end of the text. -/
def scan : List Char → Quotation
  | [] => ⟨false, [], []⟩
  | '"' :: cs => ⟨true, [], cs⟩
  | '\\' :: c :: cs =>
    if c = '\n' then ⟨false, ['\\'], c :: cs⟩ else (scan cs).after ['\\', c]
  | c :: cs => (scan cs).after [c]

theorem length_rest_scan (cs : List Char) : (scan cs).rest.length ≤ cs.length := by
  fun_induction scan cs <;> simp_all [after] <;> omega

end Quotation

/-- The characters that the inside of a quoted word stands for. -/
def unescape : List Char → List Char
  | '\\' :: c :: cs => c :: unescape cs
  | ['\\'] => []
  | c :: cs => c :: unescape cs
  | [] => []

/-- The inside of a quoted word that stands for `cs`: a backslash is put before each quote and each
backslash. -/
def escape : List Char → List Char
  | [] => []
  | c :: cs => if c = '"' ∨ c = '\\' then '\\' :: c :: escape cs else c :: escape cs

theorem unescape_escape (cs : List Char) : unescape (escape cs) = cs := by
  induction cs with
  | nil => rfl
  | cons c cs ih =>
    rw [escape]
    split
    · simp [unescape, ih]
    · rename_i h
      simp only [not_or] at h
      rw [unescape.eq_def]
      split <;> simp_all

/-- The words of a list of characters. -/
def readList : List Char → List Word
  | [] => []
  | c :: cs =>
    if isSeparator c then readList cs
    else if c = '"' then
      let q := Quotation.scan cs
      (if q.closed then ⟨String.ofList (unescape q.body), true⟩
        else ⟨String.ofList ('"' :: q.body), false⟩) :: readList q.rest
    else ⟨String.ofList (c :: cs.takeWhile isBare), false⟩ :: readList (cs.dropWhile isBare)
termination_by cs => cs.length
decreasing_by
  · simp
  · exact Nat.lt_succ_of_le (Quotation.length_rest_scan cs)
  · exact Nat.lt_succ_of_le (List.dropWhile_sublist _).length_le

theorem readList_append (rest : List Char) :
    readList ('-' :: 'A' :: ' ' :: rest) = ⟨"-A", false⟩ :: readList (' ' :: rest) := by
  rw [readList.eq_def]
  simp [isSeparator, isBare]

/-- The words of a text. -/
def read (s : String) : List Word :=
  readList s.toList

/-- The flag that a word names; a quoted word names none. -/
def flag? (w : Word) : Option Flag :=
  if w.quoted then none else Flag.ofText? w.text

/-- Whether a word has the shape of an option: a dash and something after it, not in quotes. -/
def looksLikeOption (w : Word) : Bool :=
  ! w.quoted && 1 < w.text.utf8ByteSize && w.text.toList.head? == some '-'

def quote (s : String) : String :=
  String.ofList ('"' :: escape s.toList ++ ['"'])

/-- A word as it stands in rule text. -/
def written (w : Word) : String :=
  if w.quoted then quote w.text else w.text

/-- Marks as quoted the words that are written in quotes: those that are quoted already, and each word
after a flag whose value is always quoted. `forced` says that such a flag stood before. -/
def markValues : Bool → List Word → List Word
  | _, [] => []
  | forced, w :: ws =>
    if w.quoted || forced then { w with quoted := true } :: markValues false ws
    else w :: markValues (w.flag?.any Flag.quotesValue) ws

/-- The rule text of a list of words. -/
def render (ws : List Word) : String :=
  Text.unwords ((markValues false ws).map written)

end Word

/-- The words of rule text as arguments of a command. -/
def arguments (text : String) : List String :=
  (Word.read text).map Word.text

/-- The one text of a rule line, however a listing quotes it. -/
def canonical (text : String) : String :=
  Word.render (Word.read text)

/-- The first `-A` in a list of characters is replaced by `-D`. -/
def deleteFirstAppend : List Char → List Char
  | '-' :: 'A' :: cs => '-' :: 'D' :: cs
  | c :: cs => c :: deleteFirstAppend cs
  | [] => []

/-- The rule text that deletes what a text appends: the first `-A` in it becomes `-D`. -/
def deletion (text : String) : String :=
  String.ofList (deleteFirstAppend text.toList)

/-- Whether a text begins like the rules of a listing, with `-A`. -/
def appends (text : String) : Bool :=
  (Text.dropStart? ['-', 'A'] text.toList).isSome

theorem appends_iff {text : String} : appends text ↔ ∃ rest, text.toList = '-' :: 'A' :: rest := by
  simp [appends, Option.isSome_iff_exists, Text.dropStart?_eq_some_iff]

/-- A rule that begins with `-A` begins with that word in its canonical text too. -/
theorem appends_canonical {text : String} (h : (Text.afterStart? "-A " text).isSome) :
    appends (canonical text) := by
  simp only [Text.afterStart?, Option.isSome_map, Option.isSome_iff_exists] at h
  obtain ⟨rest, h⟩ := h
  have ht : text.toList = '-' :: 'A' :: ' ' :: rest := Text.dropStart?_eq_some_iff.mp h
  rw [appends_iff]
  simp only [canonical, Word.render, Word.read, ht, Word.readList_append, Word.markValues, Bool.or_self,
    Bool.false_eq_true, if_false, List.map_cons]
  obtain ⟨tail, h⟩ := Text.exists_toList_unwords_cons (Word.written ⟨"-A", false⟩)
    ((Word.markValues (Option.any Flag.quotesValue (Word.flag? ⟨"-A", false⟩))
      (Word.readList (' ' :: rest))).map Word.written)
  exact ⟨tail, h⟩

/-- The words of a deletion begin with `-D`. -/
theorem arguments_deletion_of_appends {text : String} (h : appends text) :
    ∃ option rest, arguments (deletion text) = ("-D" ++ option) :: rest := by
  obtain ⟨rest, ht⟩ := appends_iff.mp h
  have hread : Word.read (deletion text) =
      ⟨String.ofList ('-' :: 'D' :: rest.takeWhile Word.isBare), false⟩ ::
        Word.readList (rest.dropWhile Word.isBare) := by
    rw [Word.read, deletion, ht, deleteFirstAppend, String.toList_ofList, Word.readList.eq_def]
    simp [Word.isSeparator, Word.isBare]
  have hfirst : String.ofList ('-' :: 'D' :: rest.takeWhile Word.isBare) =
      "-D" ++ String.ofList (rest.takeWhile Word.isBare) :=
    @String.ofList_append ['-', 'D'] _
  exact ⟨_, _, by rw [arguments, hread, List.map_cons, hfirst]⟩

/-- The chain that a rule text appends to, if it begins with an append flag and a word after it. -/
def appendedChain? (text : String) : Option String :=
  match Word.read text with
  | first :: chain :: _ => if first.flag? = some .append then some chain.text else none
  | _ => none

/-- A flag and its value. -/
structure Clause where
  flag : Flag
  value : String
deriving DecidableEq

namespace Clause

/-- The clause that names a match module. -/
def module (name : String) : Clause := ⟨.module, name⟩

def text (c : Clause) : String :=
  c.flag.text ++ " " ++ c.value

end Clause

/-- The rule text that appends to a chain and then has the given clauses. Values stand in it as they are. -/
def ruleText (chain : String) (clauses : List Clause) : String :=
  Text.unwords ((Clause.mk .append chain :: clauses).map Clause.text)

end PacketFilter
