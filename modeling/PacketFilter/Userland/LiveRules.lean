import PacketFilter.Backend
import PacketFilter.Table
import PacketFilter.Userland.Number
import PacketFilter.Userland.Shell.Printing

/-! # Live rules as programs see them

The live rules of a machine are lines of text, and two programs use them: one changes the rules and the other lists
them. `LiveRules.callChanger` and `LiveRules.listing` say what these programs do and write. All texts are octets.

The program that changes the rules finds the rules of a chain in a way of its own: escapes in what it looks for are
replaced, and two names are the same if both write the same number. -/

/-! ## Backslash escapes

`unescape` replaces the escapes in a text of octets by the octets they stand for: a letter or mark after the backslash,
one to three octal digits, or `x` with one or two hexadecimal digits. A backslash before anything else stands for
itself. -/

namespace PacketFilter.Text.Escape

open PacketFilter.Number (Numeral)

/-- The octet that one character after a backslash stands for. -/
def single? (c : Char) : Option Char :=
  [('\\', '\\'), ('"', '"'), ('a', '\x07'), ('b', '\x08'), ('f', '\x0c'), ('n', '\n'), ('r', '\r'), ('t', '\t'),
    ('v', '\x0b')].lookup c

/-- The octet with the number that digits of a base write, and how many digits that are, if there are any. Of a number
that is too great the last eight bits count. -/
def number? (base : Nat) (cs : List Char) : Option (Char × Nat) :=
  let digits := cs.takeWhile (Numeral.isDigit base)
  if digits.isEmpty then none
  else some (Char.ofNat (Numeral.inBase base digits % 256), digits.length)

/-- The octet that the start of `cs` stands for after a backslash, and how many characters that start has. -/
def escape? (cs : List Char) : Option (Char × Nat) :=
  match cs with
  | [] => none
  | c :: rest =>
    match single? c with
    | some o => some (o, 1)
    | none =>
      match number? 8 (cs.take 3) with
      | some found => some found
      | none =>
        if c = 'x' then (number? 16 (rest.take 2)).map fun (o, length) => (o, length + 1)
        else none

/-- The text with every escape replaced by what it stands for. -/
def unescape : List Char → List Char
  | [] => []
  | c :: cs =>
    if c = '\\' then
      match escape? cs with
      | some (o, length) => o :: unescape (cs.drop length)
      | none => c :: unescape cs
    else c :: unescape cs
termination_by cs => cs.length
decreasing_by
  all_goals (simp only [List.length_drop, List.length_cons]; omega)

end PacketFilter.Text.Escape

/-! ## The two programs -/

namespace PacketFilter

/-- The live rules of a machine. -/
structure LiveRules where
  /-- For each rule the table, the chain and the text, with tabs between them. -/
  lines : List String := []
  /-- Calls whose arguments hold this are refused. -/
  refused : Option String := none
  /-- How often the version was asked for. -/
  probes : Nat := 0

/-- What a program writes, and its status. -/
structure Reply where
  status : Nat := 0
  output : String := ""
  errors : String := ""

/-- A program that fails with a line of errors. -/
def Reply.failure (status : Nat) (what : String) : Reply :=
  { status, errors := Shell.echoed [what] }

namespace LiveRules

/-- The lines of rules; a text with line ends is several of them. -/
def splitLines (texts : List String) : List String :=
  texts.flatMap fun text => (Text.splitAt (· == '\n') text.toList).map String.ofList

/-- The same rules, of which calls are refused whose arguments hold a text. Null characters in the text and line ends
at its end do not count. -/
def refusing (r : LiveRules) (text : String) : LiveRules :=
  let cs := text.toList.filter (· != '\x00')
  { r with refused := some (String.ofList (Text.dropEndWhile (· == '\n') cs)) }

/-! ### Lines -/

/-- A field of a line, from 0; a field that is not there is empty. -/
def field (line : String) (n : Nat) : String :=
  String.ofList ((Text.splitAt (· == '\t') line.toList)[n]?.getD [])

/-- Whether a line is a rule of the given chain of a table. -/
def isOf (table chain line : String) : Bool :=
  field line 0 == table && field line 1 == chain

/-- The texts of the rules of a chain. -/
def texts (r : LiveRules) (table chain : String) : List String :=
  (r.lines.filter (isOf table chain)).map fun line => field line 2

/-- The section of a table in a listing. -/
def sectionLines (r : LiveRules) (t : Table) : List String :=
  ("*" ++ t.name) :: (Chain.all.flatMap fun c => r.texts t.name c.name) ++ ["COMMIT"]

/-- The listing of the live rules. -/
def listing (r : LiveRules) : String :=
  let lines := "# Generated by mock iptables-save" :: Table.all.flatMap r.sectionLines
  String.join (lines.map (· ++ "\n"))

/-! ### Changes -/

/-- Arguments as they stand in the text of a rule: comments and log prefixes are in quotes. `quoted` says
that this holds of the first argument. -/
def written (quoted : Bool) : List String → List String
  | [] => []
  | a :: as =>
    (if quoted then "\"" ++ a ++ "\"" else a) :: written (a == "--comment" || a == "--log-prefix") as

/-- The text of the rule that the arguments after a chain give. -/
def ruleOf (chain : String) (args : List String) : String :=
  Text.unwords ("-A" :: chain :: written false args)

/-- The position that is meant by the arguments after a chain, if they are one number of 64 bits. -/
def position? : List String → Option Int
  | [arg] => Number.word? arg
  | _ => none

/-- What is looked for: a text with escapes replaced, so that a rule that holds a backslash is rarely found by its
text. -/
def wanted (text : String) : String :=
  String.ofList (Text.Escape.unescape text.toList)

/-- The number that a field of a line writes, with blanks around it. -/
def fieldNumber? (text : String) : Option Number.Binary :=
  Number.Numeral.whole? (fun c => c == ' ' || c == '\t') text.toList

/-- The number that a text which is looked for writes, with any spacing around it but line ends. -/
def wantedNumber? (text : String) : Option Number.Binary :=
  Number.Numeral.whole? (fun c => Number.isSpacing c && c != '\n') text.toList

/-- Whether a field of a line is what is looked for: they are equal, or they write the same number. -/
def isName (field wanted : String) : Bool :=
  field == wanted ||
    match fieldNumber? field, wantedNumber? wanted with
    | some x, some y => x.isSame y
    | _, _ => false

/-- Whether a line is a rule of the chain that is looked for in a table. -/
def isWanted (table chain line : String) : Bool :=
  isName (field line 0) table && isName (field line 1) chain

/-- The lines without the rule at a position of a chain. -/
def withoutNth (r : LiveRules) (table chain : String) (position : Int) : Option (List String) :=
  if position ≤ 0 then none
  else eraseNth (isWanted (wanted table) (wanted chain)) (position.toNat - 1) r.lines

/-- The lines without the first rule of a chain that has the given text. -/
def withoutText (r : LiveRules) (table chain text : String) : Option (List String) :=
  let table := wanted table
  let chain := wanted chain
  let text := wanted text
  eraseNth (fun line => isWanted table chain line && field line 2 == text) 0 r.lines

/-- Deletes a rule by its position or by its text. -/
def delete (r : LiveRules) (table chain : String) (args : List String) : Reply × LiveRules :=
  match position? args with
  | some n =>
    match r.withoutNth table chain n with
    | some rest => ({}, { r with lines := rest })
    | none => (.failure 1 "iptables: Index of deletion too big.", r)
  | none =>
    match r.withoutText table chain (ruleOf chain args) with
    | some rest => ({}, { r with lines := rest })
    | none => (.failure 1 "iptables: Bad rule (does a matching rule exist in that chain?).", r)

def append (r : LiveRules) (table chain : String) (args : List String) : LiveRules :=
  { r with lines := r.lines ++ splitLines [table ++ "\t" ++ chain ++ "\t" ++ ruleOf chain args] }

/-- Does what the arguments after the choice of a table ask for. There have to be an option and a chain. -/
def change (r : LiveRules) (table : String) : List String → Reply × LiveRules
  | op :: chain :: args =>
    if op = "-A" then ({}, r.append table chain args)
    else if op = "-D" then r.delete table chain args
    else (.failure 2 ("iptables: unsupported option '" ++ op ++ "'"), r)
  | _ => (.failure 2 "shift: can't shift that many", r)

/-- Whether a call is refused. -/
def refuses (r : LiveRules) (args : List String) : Bool :=
  r.refused.any fun piece => Text.contains piece (Text.unwords args)

/-- Calls the program that changes the rules. -/
def callChanger (r : LiveRules) (args : List String) : Reply × LiveRules :=
  if args.head? = some "--version" then
    ({ output := "iptables v1.8.9 (legacy)\n" }, { r with probes := r.probes + 1 })
  else if r.refuses args then (.failure 1 "iptables: simulated failure.", r)
  else
    match args with
    | "-t" :: table :: rest => r.change table rest
    | rest => r.change "filter" rest

/-! ### Deletions -/

theorem length_lines_delete {r : LiveRules} {table chain : String} {args : List String}
    (h : (r.delete table chain args).1.status = 0) :
    (r.delete table chain args).2.lines.length + 1 = r.lines.length := by
  unfold delete at h ⊢
  split at h
  · split at h
    · rename_i hn
      simp only [withoutNth] at hn
      split at hn
      · simp at hn
      · exact length_eraseNth hn
    · simp [Reply.failure] at h
  · split at h
    · rename_i ht
      exact length_eraseNth ht
    · simp [Reply.failure] at h

theorem length_lines_change {r : LiveRules} {table : String} {args : List String}
    (hop : args.head? ≠ some "-A") (h : (r.change table args).1.status = 0) :
    (r.change table args).2.lines.length + 1 = r.lines.length := by
  unfold change at h ⊢
  split at h
  · rename_i op chain rest
    have hne : op ≠ "-A" := by simpa using hop
    simp only [if_neg hne] at h ⊢
    split at h
    · rename_i hd
      simp only [if_pos hd]
      exact length_lines_delete h
    · simp [Reply.failure] at h
  · simp [Reply.failure] at h

/-- A call that succeeds without appending anything takes out one rule. -/
theorem length_lines_callChanger {r : LiveRules} {table : String} {args : List String}
    (hop : args.head? ≠ some "-A") (h : (r.callChanger ("-t" :: table :: args)).1.status = 0) :
    (r.callChanger ("-t" :: table :: args)).2.lines.length + 1 = r.lines.length := by
  unfold callChanger at h ⊢
  split at h
  · rename_i hv
    simp at hv
  · rename_i hv
    split at h
    · simp [Reply.failure] at h
    · rename_i hr
      simp only [if_neg hv, if_neg hr]
      exact length_lines_change hop h

end LiveRules

end PacketFilter
