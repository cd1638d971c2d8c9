import PacketFilter.Backend
import PacketFilter.Failure
import PacketFilter.Plan

/-! # Sessions

A `Session` collects declared rules and then makes the live rules of a backend the declared ones, in two
phases. First it deletes the live rules that are not declared, listing them again until there are none
(`Session.prune`). Then it compares positions; if some declared rule is not in its place it appends all of
them, deletes the old ones, and saves the result (`Session.converge`). The first command that fails ends the
run, and what was done stays done. A dry run only reports the commands.

A declared rule without rule text is rejected and kept for the report; it does not hinder the others. -/

namespace PacketFilter

/-- How a run is to be made. -/
structure Settings where
  /-- Commands are reported and not carried out. -/
  dryRun : Bool := false
  /-- The command that saves the rules, if one is known. -/
  persist : Option Invocation := none
  /-- The rules before the declared ones. -/
  pre : List Rule := []
  /-- The rules after the declared ones. -/
  post : List Rule := []

/-- A declared rule that was refused. -/
structure Rejection where
  name : String
  reason : String
deriving DecidableEq

/-- What a run did, or would have done. -/
structure Report where
  dryRun : Bool := false
  /-- The number of rules in the set, those of files included. -/
  declared : Nat := 0
  rejected : List Rejection := []
  checksum : String := ""
  pruned : Nat := 0
  changed : Bool := false
  added : Nat := 0
  deleted : Nat := 0
  persisted : Bool := false
  /-- Rules changed, but no command that saves them is known. -/
  persistUnavailable : Bool := false
  commands : List Command := []
deriving DecidableEq

/-- Declared rules on their way to a backend. -/
structure Session where
  mode : AddressMode
  settings : Settings
  /-- The rules of the declarations so far, in the order of their declaration. -/
  collected : List Rule := []
  rejected : List Rejection := []

namespace Session

def declare (resolve : Resolver) (session : Session) (spec : Spec) : Session :=
  match spec.compile resolve session.mode with
  | .ok rules => { session with collected := session.collected ++ rules }
  | .error e =>
    { session with
      rejected := session.rejected ++ [⟨spec.name, (e.failure spec.name).message⟩] }

def declareAll (resolve : Resolver) (session : Session) (specs : List Spec) : Session :=
  specs.foldl (declare resolve) session

/-- The rule set that a run would establish. -/
def preview (session : Session) : RuleSet :=
  RuleSet.assemble session.collected session.settings.pre session.settings.post

section run
variable {σ : Type} [Backend σ]

def listing (numbered : Bool) (mode : AddressMode) : Action σ LiveState := do
  return Listing.parse numbered mode (← Backend.list)

/-- Carries out commands, unless they are only to be reported. -/
def perform (dryRun : Bool) (commands : List Command) : Action σ Unit :=
  if dryRun then pure () else Backend.runAll commands

/-- Deletes the live rules that are not declared, and gives the commands that did. Rules that are listed
alike are one entry, so every further copy of a rule takes another round. A dry run changes nothing and
makes one round only. -/
def prune (dryRun : Bool) (mode : AddressMode) (declared : RuleSet) : Action σ (List Command) :=
  fun s =>
    match _listed : Backend.list s with
    | .error e s₁ => .error e s₁
    | .ok raw s₁ =>
      let targets := surplus declared (Listing.parse false mode raw)
      let commands := Backend.deletions targets
      if _nonempty : targets = [] then .ok [] s₁
      else if dryRun then .ok commands s₁
      else match _ran : Backend.runAll commands s₁ with
        | .error e s₂ => .error e s₂
        | .ok () s₂ =>
          match prune dryRun mode declared s₂ with
          | .error e s₃ => .error e s₃
          | .ok more s₃ => .ok (commands ++ more) s₃
termination_by s => Backend.rank s
decreasing_by
  exact Backend.rank_runAll_lt (fun _ => appends_of_mem_surplus) _listed _nonempty _ran

/-- Makes the live rules the declared ones. -/
def converge (session : Session) : Action σ Report := do
  let settings := session.settings
  let declared := session.preview
  let pruned ← prune settings.dryRun session.mode declared
  let live ← listing true session.mode
  let report : Report :=
    { dryRun := settings.dryRun
      declared := declared.size
      rejected := session.rejected
      checksum := declared.checksum
      pruned := pruned.length
      commands := pruned }
  match Plan.between declared live with
  | none => return report
  | some plan =>
    let commands := plan.commands ++ settings.persist.toList.map .persist
    perform settings.dryRun commands
    return { report with
      changed := true
      added := plan.toAdd.length
      deleted := plan.toDelete.length
      persisted := settings.persist.isSome && ! settings.dryRun
      persistUnavailable := settings.persist.isNone
      commands := pruned ++ commands }

end run

end Session

end PacketFilter
