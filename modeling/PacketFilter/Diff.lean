import PacketFilter.Diff.Slide

/-! # Unified diffs

The differences between two texts, as a unified diff: hunks of lines that begin with a blank if they are kept, with a
minus sign if only the old text has them, and with a plus sign if only the new text has them. A settled script is seen
as blocks, in which lines are kept or replaced. The blocks come in groups, the hunks, with up to three kept lines before
and after the changes; a group ends where more than twice as many lines are kept. -/

namespace PacketFilter

/-- Adjacent lines that are kept or replaced. Where only one of the lists has lines, the place in the other
one is that of the first edit. -/
structure Block where
  kept : Bool
  old : Nat
  oldLength : Nat
  new : Nat
  newLength : Nat
deriving DecidableEq

namespace Block

def ofEdit (e : Edit) : Block :=
  match e.kind with
  | .keep => ⟨true, e.old, e.length, e.new, e.length⟩
  | .delete => ⟨false, e.old, e.length, e.new, 0⟩
  | .insert => ⟨false, e.old, 0, e.new, e.length⟩

/-- Two adjacent blocks of one kind as one. A side without lines takes the place of the other block. -/
def join (a b : Block) : Block where
  kept := a.kept
  old := if a.oldLength = 0 ∧ b.oldLength ≠ 0 then b.old else a.old
  oldLength := a.oldLength + b.oldLength
  new := if a.newLength = 0 ∧ b.newLength ≠ 0 then b.new else a.new
  newLength := a.newLength + b.newLength

/-- A block in front of others; it becomes one with the first of them if both are of one kind. -/
def cons (b : Block) : List Block → List Block
  | [] => [b]
  | c :: cs => if b.kept = c.kept then b.join c :: cs else b :: c :: cs

def ofScript (script : List Edit) : List Block :=
  script.foldr (fun e blocks => cons (ofEdit e) blocks) []

/-- The last lines of a kept block, at most `n`. -/
def takeEnd (n : Nat) (b : Block) : Block :=
  let skipped := b.oldLength - n
  { b with
    old := b.old + skipped, oldLength := b.oldLength - skipped
    new := b.new + skipped, newLength := b.newLength - skipped }

/-- The first lines of a kept block, at most `n`. -/
def takeStart (n : Nat) (b : Block) : Block :=
  { b with oldLength := min n b.oldLength, newLength := min n b.newLength }

/-- How many kept lines stand on each side of a change. -/
def context : Nat := 3

/-- The blocks with the kept lines at both ends cut to those that are shown. -/
def trimFirst : List Block → List Block
  | [] => []
  | b :: bs => if b.kept then b.takeEnd context :: bs else b :: bs

/-- The blocks with the kept lines at the end cut to those that are shown. -/
def trimLast : List Block → List Block
  | [] => []
  | [b] => if b.kept then [b.takeStart context] else [b]
  | b :: bs => b :: trimLast bs

/-- The groups of blocks: `group` is the one that is being made. -/
def split (group : List Block) : List Block → List (List Block)
  | [] => [group]
  | b :: bs =>
    if b.kept ∧ 2 * context < b.oldLength then
      (group ++ [b.takeStart context]) :: split [b.takeEnd context] bs
    else split (group ++ [b]) bs

/-- The changes of a script with the kept lines around them. A group in which nothing changes is none. -/
def hunks (blocks : List Block) : List (List Block) :=
  (split [] (trimLast (trimFirst blocks))).filter fun group => group.any (! ·.kept)

end Block

end PacketFilter

namespace PacketFilter.Diff

/-- The lines of a list of characters with their ends: a newline, a carriage return, or both. -/
def linesList : List Char → List (List Char)
  | [] => []
  | '\r' :: '\n' :: cs => ['\r', '\n'] :: linesList cs
  | c :: cs =>
    if c = '\n' ∨ c = '\r' then [c] :: linesList cs
    else
      match linesList cs with
      | [] => [[c]]
      | l :: ls => (c :: l) :: ls

/-- The lines of a text with their ends. -/
def lines (s : String) : Array String :=
  ((linesList s.toList).map String.ofList).toArray

/-- A range of lines as the head of a hunk gives it: the number of the first line, and how many there are
unless there is one. Of no lines, the line before them is given. -/
def rangeText (start stop : Nat) : String :=
  match stop - start with
  | 0 => toString start ++ ",0"
  | 1 => toString (start + 1)
  | n => toString (start + 1) ++ "," ++ toString n

/-- The head of a hunk, from where its first block begins to where its last one ends. -/
def headText (first last : Block) : String :=
  "@@ -" ++ rangeText first.old (last.old + last.oldLength) ++ " +" ++
    rangeText first.new (last.new + last.newLength) ++ " @@\n"

/-- Lines with a sign in front of each. -/
def signed (sign : String) (text : Array String) (start length : Nat) : List String :=
  ((text.toList.drop start).take length).map (sign ++ ·)

variable (old new : Array String)

def blockLines (b : Block) : List String :=
  if b.kept then signed " " old b.old b.oldLength
  else signed "-" old b.old b.oldLength ++ signed "+" new b.new b.newLength

def hunkText (hunk : List Block) : String :=
  match hunk, hunk.getLast? with
  | first :: _, some last =>
    headText first last ++ String.join (hunk.flatMap (blockLines old new))
  | _, _ => ""

/-- The hunks between two lists of lines. -/
def hunksBetween : List (List Block) :=
  Block.hunks (Block.ofScript (Edit.settle old new (Edit.script old new)))

/-- The unified diff between two texts with the given names; equal texts have none. -/
def unified (oldName newName oldText newText : String) : String :=
  let old := lines oldText
  let new := lines newText
  match hunksBetween old new with
  | [] => ""
  | hunks =>
    "--- " ++ oldName ++ "\n+++ " ++ newName ++ "\n" ++ String.join (hunks.map (hunkText old new))

end PacketFilter.Diff
