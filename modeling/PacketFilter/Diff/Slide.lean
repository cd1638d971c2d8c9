import PacketFilter.Diff.Script

/-! # Sliding insertions

One change can often be shown at several places: where a line is inserted next to an equal one, either of the
two may count as the new one. `Edit.settle` shows every insertion as late as it can be shown, after it has
been moved as early as it can be, so that insertions which meet on the way become one. Between kept lines
there is then at most one deletion, followed by at most one insertion.

An edit that moves along kept lines moves in both lists. Edits that pass each other keep the places that they
have. -/

namespace PacketFilter.Edit

/-! ### Deletions -/

/-- A deletion in front of a settled list: it moves behind the insertions that follow, and takes in the
deletion behind them. -/
def placeDeletion (d : Edit) : List Edit → List Edit
  | [] => [d]
  | e :: es =>
    match e.kind with
    | .insert => e :: placeDeletion d es
    | .delete => { d with length := d.length + e.length } :: es
    | .keep => d :: e :: es

/-- A script with one deletion, the last edit, between any kept lines. -/
def gatherDeletions : List Edit → List Edit
  | [] => []
  | e :: es =>
    if e.kind = .delete then placeDeletion e (gatherDeletions es) else e :: gatherDeletions es

/-! ### Insertions -/

def inserts (e : Edit) : Bool :=
  e.kind == .insert

/-- An edit one line earlier in both lists. -/
def earlier (e : Edit) : Edit :=
  { e with old := e.old - 1, new := e.new - 1 }

/-- An edit one line later in both lists. -/
def later (e : Edit) : Edit :=
  { e with old := e.old + 1, new := e.new + 1 }

def longer (e : Edit) (n : Nat) : Edit :=
  { e with length := e.length + n }

def shorter (e : Edit) : Edit :=
  { e with length := e.length - 1 }

/-- How many steps an insertion can at most take along some edits: one for each line, and one for each
edit. -/
def weight : List Edit → Nat
  | [] => 0
  | e :: es => e.length + 1 + weight es

/-- An insertion among the edits of a script. -/
structure Place where
  /-- The edits before it, the nearest first. -/
  before : List Edit
  edit : Edit
  after : List Edit

/-- A kept line more in front of some edits. -/
def keepInFront (old new : Nat) : List Edit → List Edit
  | [] => [⟨.keep, old, new, 1⟩]
  | e :: es =>
    if e.kind = .keep then (e.earlier.longer 1) :: es else ⟨.keep, old, new, 1⟩ :: e :: es

/-- A kept line more behind some edits, the last of which is given first. -/
def keepBehind (old new : Nat) : List Edit → List Edit
  | [] => [⟨.keep, old, new, 1⟩]
  | e :: es => if e.kind = .keep then e.longer 1 :: es else ⟨.keep, old, new, 1⟩ :: e :: es

variable (old new : Array String)

/-- Moves an insertion as early as it can be. -/
def rise (before : List Edit) (edit : Edit) (after : List Edit) : Place :=
  match before with
  | [] => ⟨[], edit, after⟩
  | e :: es =>
    match e.kind with
    | .delete => rise es edit (e :: after)
    | .insert => rise es (e.longer edit.length) after
    | .keep =>
      if _h : e.length = 0 then rise es edit after
      else if old[e.old + e.length - 1]? = new[edit.new + edit.length - 1]? then
        rise (e.shorter :: es) edit.earlier
          (keepInFront (e.old + e.length - 1) (edit.new + edit.length - 1) after)
      else ⟨e :: es, edit, after⟩
termination_by weight before
decreasing_by
  all_goals simp only [weight, shorter]; omega

/-- Moves an insertion as late as it can be. -/
def sink (before : List Edit) (edit : Edit) (after : List Edit) : Place :=
  match after with
  | [] => ⟨before, edit, []⟩
  | e :: es =>
    match e.kind with
    | .delete => sink (e :: before) edit es
    | .insert => sink before (edit.longer e.length) es
    | .keep =>
      if _h : e.length = 0 then sink before edit es
      else if old[e.old]? = new[edit.new]? then
        sink (keepBehind e.old edit.new before) edit.later (e.later.shorter :: es)
      else ⟨before, edit, e :: es⟩
termination_by weight after
decreasing_by
  all_goals simp only [weight, later, shorter]; omega

/-- Moves an insertion first up and then down. -/
def slide (before : List Edit) (edit : Edit) (after : List Edit) : Place :=
  let p := rise old new before edit after
  sink old new p.before p.edit p.after

theorem countP_keepInFront {i j : Nat} {es : List Edit} :
    (keepInFront i j es).countP inserts = es.countP inserts := by
  cases es with
  | nil => simp [keepInFront, inserts]
  | cons e es =>
    rw [keepInFront]
    split <;> simp [List.countP_cons, inserts, earlier, longer]

theorem countP_after_rise {before after : List Edit} {edit : Edit} :
    (rise old new before edit after).after.countP inserts = after.countP inserts := by
  fun_induction rise old new before edit after <;> simp_all [inserts, countP_keepInFront]

theorem countP_after_sink {before after : List Edit} {edit : Edit} :
    (sink old new before edit after).after.countP inserts ≤ after.countP inserts := by
  fun_induction sink old new before edit after <;> simp_all [inserts, later, shorter]
  omega

/-- Sliding an insertion leaves no more insertions behind it than there were. -/
theorem countP_after_slide {before after : List Edit} {edit : Edit} :
    (slide old new before edit after).after.countP inserts ≤ after.countP inserts :=
  Nat.le_trans (countP_after_sink old new) (Nat.le_of_eq (countP_after_rise old new))

/-- Slides every insertion of a script, where the edits of `before`, the nearest first, are done. -/
def slideAll (before : List Edit) : List Edit → List Edit
  | [] => before.reverse
  | e :: es =>
    if e.kind = .insert then
      let p := slide old new before e es
      slideAll (p.edit :: p.before) p.after
    else slideAll (e :: before) es
termination_by es => (es.countP inserts, es.length)
decreasing_by
  · rename_i he
    have := @countP_after_slide old new before es e
    simp only [List.countP_cons, inserts, he, beq_self_eq_true, if_true] at this ⊢
    exact Prod.Lex.left _ _ (by omega)
  · rename_i he
    simp only [List.countP_cons, inserts, List.length_cons, beq_iff_eq, he, if_false]
    exact Prod.Lex.right _ (by omega)

/-- A script with its insertions where they are shown. -/
def settle (script : List Edit) : List Edit :=
  slideAll old new [] (gatherDeletions script)

end PacketFilter.Edit
