import PacketFilter.Failure
import PacketFilter.Rule
import PacketFilter.System.Document

/-! # Rule files

A rule file has a rule on each line, as arguments of a command that appends it. Blank lines and lines that
begin with `#` say nothing. A table may be chosen anywhere in a line; the choice is taken out of the rule,
whose text is otherwise passed on word by word. A line that chooses no known table, or that does not append
to a chain, gives no rule. A file that is not there has no rules. -/

namespace PacketFilter.RuleFile

/-- The table that a line chooses, and its words without the choice. The first flag for a table counts; a
line without one belongs to the table `filter`. -/
def chooseTable : List Word → Option (Table × List Word)
  | [] => some (.filter, [])
  | w :: ws =>
    if w.flag? = some .table then
      match ws with
      | [] => none
      | name :: rest => (Table.ofName? name.text).map fun t => (t, rest)
    else (chooseTable ws).map fun (t, rest) => (t, w :: rest)

/-- The rule of the words of a line. -/
def ruleOfWords (origin : Origin) (ws : List Word) : Option Rule := do
  let (table, rest) ← chooseTable ws
  let text := Word.render rest
  let chain ← appendedChain? text
  return { table, chain, priority := Chain.rankOf chain, text, origin }

/-- The rule of a line, if it has one. -/
def ruleOfLine (origin : Origin) (line : String) : Option Rule :=
  let line := Text.trim line
  if line.isEmpty || line.toList.head? == some '#' then none
  else ruleOfWords origin (Word.read line)

/-- The rules of a file, in order. -/
def parse (origin : Origin) (content : String) : List Rule :=
  (Text.lines content).filterMap (ruleOfLine origin)

/-- The rules of the file that a document is. A file that is not there has none. -/
def load (origin : Origin) : Document → Except Failure (List Rule)
  | .absent .missing => .ok []
  | document =>
    match document.content with
    | .ok content => .ok (parse origin content)
    | .error reason => .error (.io reason)

end PacketFilter.RuleFile
