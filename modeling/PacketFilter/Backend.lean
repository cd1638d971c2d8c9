import PacketFilter.Command
import PacketFilter.Failure

/-! # Backends

Live rules are read and changed through a `Backend`: a state with a listing, with commands that act on it, and with a
version of the program that carries them out. Every backend has a rank that bounds how often a listing can be followed
by a deletion that succeeds, so that deleting what is listed comes to an end. Only rules in the form of a listing count
for that. What a deletion takes out of a list of rules is said by `eraseNth`: the first rule that fits, or the one at a
position among those that fit. -/

namespace PacketFilter

/-! ### Taking out one element -/

/-- What is left of a list without the element that satisfies `p` after `skip` others do. -/
def eraseNth {α : Type} (p : α → Bool) : Nat → List α → Option (List α)
  | _, [] => none
  | skip, x :: xs =>
    if p x then
      if skip = 0 then some xs else (eraseNth p (skip - 1) xs).map (x :: ·)
    else (eraseNth p skip xs).map (x :: ·)

theorem length_eraseNth {α : Type} {p : α → Bool} {skip : Nat} {xs ys : List α}
    (h : eraseNth p skip xs = some ys) : ys.length + 1 = xs.length := by
  induction xs generalizing skip ys with
  | nil => simp [eraseNth] at h
  | cons x xs ih =>
    rw [eraseNth] at h
    split at h
    · split at h
      · simp_all
      · obtain ⟨zs, hz, rfl⟩ := Option.map_eq_some_iff.mp h
        simp [← ih hz]
    · obtain ⟨zs, hz, rfl⟩ := Option.map_eq_some_iff.mp h
      simp [← ih hz]

/-! ### Actions on a state -/

/-- Something that depends on a state, changes it, and may fail. -/
abbrev Action (σ α : Type) := EStateM Failure σ α

namespace Action

variable {σ α β : Type} {x : Action σ α} {f : α → Action σ β} {s s' : σ}

theorem bind_eq_ok {b : β} : (x >>= f) s = .ok b s' ↔ ∃ a m, x s = .ok a m ∧ f a m = .ok b s' := by
  simp only [bind, EStateM.bind]
  cases x s <;> simp [and_assoc]

theorem bind_eq_error {e : Failure} :
    (x >>= f) s = .error e s' ↔ x s = .error e s' ∨ ∃ a m, x s = .ok a m ∧ f a m = .error e s' := by
  simp only [bind, EStateM.bind]
  cases x s <;> simp [and_assoc]

end Action

/-- A state of live rules. -/
class Backend (σ : Type) where
  /-- How the program that changes the live rules describes its version. -/
  version : Action σ String
  /-- The listing of the live rules. -/
  list : Action σ String
  /-- Carries out a command. -/
  run : Command → Action σ Unit
  /-- A bound on the deletions that can follow a listing. -/
  rank : σ → Nat
  rank_delete : ∀ {s s' : σ} {t : Table} {rule : String}, appends rule →
    run (.delete t rule) s = .ok () s' → rank s' ≤ rank s
  rank_lt : ∀ {s₀ s₁ s₂ : σ} {text rule : String} {t : Table}, appends rule →
    list s₀ = .ok text s₁ → run (.delete t rule) s₁ = .ok () s₂ → rank s₂ < rank s₀

namespace Backend

variable {σ : Type} [Backend σ]

/-- Carries out commands in order, up to the first that fails. -/
def runAll : List Command → Action σ Unit
  | [] => pure ()
  | c :: cs => do
    run c
    runAll cs

/-- The commands that delete the given rules. -/
def deletions (targets : List (Table × String)) : List Command :=
  targets.map fun (t, rule) => .delete t rule

theorem runAll_cons_eq_ok {c : Command} {cs : List Command} {s s' : σ} :
    runAll (c :: cs) s = .ok () s' ↔ ∃ m, run c s = .ok () m ∧ runAll cs m = .ok () s' := by
  rw [runAll, Action.bind_eq_ok]
  exact ⟨fun ⟨_, h⟩ => h, fun h => ⟨(), h⟩⟩

theorem runAll_cons_eq_error {c : Command} {cs : List Command} {s s' : σ} {e : Failure} :
    runAll (c :: cs) s = .error e s' ↔
      run c s = .error e s' ∨ ∃ m, run c s = .ok () m ∧ runAll cs m = .error e s' := by
  rw [runAll, Action.bind_eq_error]
  exact or_congr_right ⟨fun ⟨_, h⟩ => h, fun h => ⟨(), h⟩⟩

theorem rank_runAll_deletions {targets : List (Table × String)} {s s' : σ}
    (ha : ∀ d ∈ targets, appends d.2) (h : runAll (deletions targets) s = .ok () s') : rank s' ≤ rank s := by
  induction targets generalizing s with
  | nil =>
    simp only [deletions, List.map_nil, runAll, pure, EStateM.pure, EStateM.Result.ok.injEq,
      true_and] at h
    exact Nat.le_of_eq (h ▸ rfl)
  | cons d ds ih =>
    obtain ⟨m, hm, hrest⟩ := runAll_cons_eq_ok.mp h
    exact Nat.le_trans (ih (fun d hd => ha d (List.mem_cons_of_mem _ hd)) hrest)
      (rank_delete (ha d List.mem_cons_self) hm)

/-- Deleting anything at all after a listing lowers the rank. -/
theorem rank_runAll_lt {targets : List (Table × String)} {s₀ s₁ s₂ : σ} {text : String}
    (ha : ∀ d ∈ targets, appends d.2) (hl : list s₀ = .ok text s₁) (hne : targets ≠ [])
    (h : runAll (deletions targets) s₁ = .ok () s₂) : rank s₂ < rank s₀ := by
  cases targets with
  | nil => exact absurd rfl hne
  | cons d ds =>
    obtain ⟨m, hm, hrest⟩ := runAll_cons_eq_ok.mp h
    exact Nat.lt_of_le_of_lt
      (rank_runAll_deletions (fun d hd => ha d (List.mem_cons_of_mem _ hd)) hrest)
      (rank_lt (ha d List.mem_cons_self) hl hm)

end Backend

end PacketFilter
