/-! # Edit scripts

How one list of lines becomes another one with as few changes as possible. `Edit.script` finds such a script
by divide and conquer: lines that both lists begin or end with are kept, and what remains is split at the
middle of a shortest path through the grid of both lists, found by searching from both of its corners at once
in linear space. -/

namespace PacketFilter

/-- What an edit does with lines. -/
inductive EditKind where
  | keep | delete | insert
deriving DecidableEq

/-- An edit of adjacent lines. -/
structure Edit where
  kind : EditKind
  /-- Where the lines begin in the old list; of inserted lines, the place in front of which they come. -/
  old : Nat
  /-- Where the lines begin in the new list; of deleted lines, the place in front of which they were. -/
  new : Nat
  length : Nat
deriving DecidableEq

namespace Edit

/-- A part of the old list and a part of the new list. -/
structure Window where
  old : Nat
  oldLength : Nat
  new : Nat
  newLength : Nat

namespace Window

/-- How many lines a window has in all. -/
def size (w : Window) : Nat := w.oldLength + w.newLength

/-- A window without `a` pairs of lines in front and `b` pairs of lines at the end. -/
def trimmed (w : Window) (a b : Nat) : Window :=
  ⟨w.old + a, w.oldLength - a - b, w.new + a, w.newLength - a - b⟩

/-- The part of a window before a point of its grid. -/
def before (w : Window) (x y : Nat) : Window :=
  ⟨w.old, x, w.new, y⟩

/-- The part of a window after a point of its grid. -/
def after (w : Window) (x y : Nat) : Window :=
  ⟨w.old + x, w.oldLength - x, w.new + y, w.newLength - y⟩

end Window

variable (old new : Array String)

/-- How many lines from `i` and from `j` on are equal, of at most so many lines. -/
def commonStart (i j : Nat) : Nat → Nat → Nat
  | m + 1, n + 1 => if old[i]? = new[j]? then commonStart (i + 1) (j + 1) m n + 1 else 0
  | _, _ => 0

/-- How many lines before `i` and before `j` are equal, of at most so many lines. -/
def commonEnd (i j : Nat) : Nat → Nat → Nat
  | m + 1, n + 1 => if old[i - 1]? = new[j - 1]? then commonEnd (i - 1) (j - 1) m n + 1 else 0
  | _, _ => 0

/-! ### The middle of a shortest path -/

/-- How far one of the two searches has come on each diagonal; the diagonals are numbered from `-shift`. -/
structure Front where
  shift : Nat
  reached : Array Nat

namespace Front

/-- No diagonal has been searched. -/
def start (shift : Nat) : Front :=
  ⟨shift, .replicate (2 * shift + 1) 0⟩

/-- How far the search has come on a diagonal. -/
def get (f : Front) (k : Int) : Nat :=
  f.reached[(k + f.shift).toNat]?.getD 0

/-- The search has come to `x` on a diagonal. -/
def set (f : Front) (k : Int) (x : Nat) : Front :=
  { f with reached := f.reached.setIfInBounds (k + f.shift).toNat x }

/-- Where a path with one more change enters a diagonal: from the neighbour that has come further. -/
def entry (f : Front) (changes : Nat) (k : Int) : Nat :=
  if k = -changes ∨ (k ≠ changes ∧ f.get (k - 1) < f.get (k + 1)) then f.get (k + 1)
  else f.get (k - 1) + 1

end Front

/-- The diagonals that paths with so many changes can end on. -/
def diagonals (changes : Nat) : List Int :=
  (List.range (changes + 1)).map fun (i : Nat) => (changes : Int) - 2 * (i : Int)

variable (w : Window)

/-- The diagonal that the corner after the last lines is on. -/
def corner : Int :=
  (w.oldLength : Int) - w.newLength

/-- One round of the search from the first lines: the new front, and where its last step began if it met the
other search. -/
def stepForward (back : Front) (changes : Nat) : Front → List Int → Front × Option (Nat × Nat)
  | front, [] => (front, none)
  | front, k :: ks =>
    let x := front.entry changes k
    let y := ((x : Int) - k).toNat
    let far := x + commonStart old new (w.old + x) (w.new + y) (w.oldLength - x) (w.newLength - y)
    let front := front.set k far
    let opposite := corner w - k
    if corner w % 2 ≠ 0 ∧ opposite.natAbs < changes ∧ w.oldLength ≤ far + back.get opposite then
      (front, some (x, y))
    else stepForward back changes front ks

/-- One round of the search from the last lines: the new front, and where its last step ended if it met the
other search. -/
def stepBackward (front : Front) (changes : Nat) : Front → List Int → Front × Option (Nat × Nat)
  | back, [] => (back, none)
  | back, k :: ks =>
    let x := back.entry changes k
    let y := ((x : Int) - k).toNat
    let run := commonEnd old new (w.old + w.oldLength - x) (w.new + w.newLength - y)
      (w.oldLength - x) (w.newLength - y)
    let back := back.set k (x + run)
    let opposite := corner w - k
    if corner w % 2 = 0 ∧ opposite.natAbs ≤ changes ∧ w.oldLength ≤ x + run + front.get opposite then
      (back, some (w.oldLength - (x + run), w.newLength - (y + run)))
    else stepBackward front changes back ks

/-- The point where both searches meet, in at most so many more rounds. -/
def meeting? (front back : Front) (changes : Nat) : Nat → Option (Nat × Nat)
  | 0 => none
  | rounds + 1 =>
    match stepForward old new w back changes front (diagonals changes) with
    | (_, some p) => some p
    | (front, none) =>
      match stepBackward old new w front changes back (diagonals changes) with
      | (_, some p) => some p
      | (back, none) => meeting? front back (changes + 1) rounds

/-- A point in the middle of a shortest path. -/
def middle? : Option (Nat × Nat) :=
  let rounds := (w.size + 1) / 2 + 1
  meeting? old new w (.start (rounds + 1)) (.start (rounds + 1)) 0 rounds

/-! ### Scripts -/

/-- An edit, unless it is one of no lines. -/
def some? (e : Edit) : List Edit :=
  if e.length = 0 then [] else [e]

/-- A script for the lines of a window. -/
def scriptIn (w : Window) : List Edit :=
  let a := commonStart old new w.old w.new w.oldLength w.newLength
  let b := commonEnd old new (w.old + w.oldLength) (w.new + w.newLength) (w.oldLength - a) (w.newLength - a)
  let v := w.trimmed a b
  let inner :=
    if v.oldLength = 0 ∨ v.newLength = 0 then
      some? ⟨.delete, v.old, v.new, v.oldLength⟩ ++ some? ⟨.insert, v.old, v.new, v.newLength⟩
    else
      match middle? old new v with
      | none => [⟨.delete, v.old, v.new, v.oldLength⟩, ⟨.insert, v.old, v.new, v.newLength⟩]
      | some (x, y) =>
        if _h : (v.before x y).size < w.size ∧ (v.after x y).size < w.size then
          scriptIn (v.before x y) ++ scriptIn (v.after x y)
        else [⟨.delete, v.old, v.new, v.oldLength⟩, ⟨.insert, v.old, v.new, v.newLength⟩]
  some? ⟨.keep, w.old, w.new, a⟩ ++ inner ++ some? ⟨.keep, v.old + v.oldLength, v.new + v.newLength, b⟩
termination_by w.size
decreasing_by
  · exact _h.1
  · exact _h.2

/-- A shortest script that makes the old lines the new ones. -/
def script : List Edit :=
  scriptIn old new ⟨0, old.size, 0, new.size⟩

end Edit

end PacketFilter
