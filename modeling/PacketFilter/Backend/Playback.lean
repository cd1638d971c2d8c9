import PacketFilter.Backend

/-! # Listings played back

A `Playback` shows given listings one after the other, whatever is done in between, and the last of them
again and again up to a given number of times. Commands are noted by the arguments they have; one of them
can be made to fail. -/

namespace PacketFilter

/-- Given listings, and what was called so far. -/
structure Playback where
  listings : List String
  /-- How many listings there are in all. -/
  maxListed : Nat
  /-- The number of the command that fails, from 1; none does if it is zero. -/
  failAt : Nat
  /-- How often a listing was asked for. -/
  listed : Nat := 0
  /-- The arguments of the commands so far. -/
  calls : List (List String) := []

namespace Playback

/-- The listing with a given number, from 0: the last one if there are not as many. -/
def nth? (p : Playback) (n : Nat) : Option String :=
  match p.listings[n]? with
  | some text => some text
  | none => p.listings.getLast?

/-- Shows the next listing. -/
def list : Action Playback String := fun p =>
  let next := { p with listed := p.listed + 1 }
  if p.maxListed ≤ p.listed then
    .error (.command "iptables-save" "no more listings" none) next
  else
    match p.nth? p.listed with
    | some text => .ok text next
    | none => .error (.command "iptables-save" "no more listings" none) next

/-- Notes a command. -/
def run (c : Command) : Action Playback Unit := fun p =>
  let next := { p with calls := p.calls ++ [c.arguments] }
  if next.calls.length = p.failAt then
    .error (.command (Text.unwords c.arguments) "scripted failure" (some 4)) next
  else .ok () next

/-- How many listings are left. -/
def left (p : Playback) : Nat :=
  p.maxListed - p.listed

theorem left_run {p p' : Playback} {c : Command} (h : run c p = .ok () p') : p'.left = p.left := by
  simp only [run] at h
  split at h
  · simp at h
  · simp only [EStateM.Result.ok.injEq, true_and] at h
    subst h
    rfl

theorem left_list {p p' : Playback} {text : String} (h : list p = .ok text p') :
    p'.left < p.left := by
  simp only [list] at h
  split at h
  · simp at h
  · split at h
    · simp only [EStateM.Result.ok.injEq] at h
      rw [← h.2]
      simp only [left]
      omega
    · simp at h

instance : Backend Playback where
  version p := .ok "iptables v1.8.9 (legacy)" p
  list := list
  run := run
  rank := left
  rank_delete _ h := Nat.le_of_eq (left_run h)
  rank_lt _ hl h := by rw [left_run h]; exact left_list hl

end Playback

end PacketFilter
