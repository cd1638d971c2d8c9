import PacketFilter.Backend
import PacketFilter.System.Document

/-! # A machine with the programs of the packet filter

The live rules of a `Machine` are changed by one program and listed by another, which are in a directory of its own, and
any program at all may save them. What these programs do is not said here: `Programs` is what a state of the
surroundings has to give, which is what comes of calling each of them, and that a deletion which succeeds takes away a
rule. Commands are carried out by such calls, and fail as the programs do. -/

namespace PacketFilter

/-! ## Running programs -/

namespace Invocation

/-- How an invocation shows in failures. -/
def label (c : Invocation) : String :=
  Text.trimEnd c.text

/-- Whether there is a zero byte in a program or its arguments. -/
def hasZero (c : Invocation) : Bool :=
  c.toList.any fun text => text.toList.contains '\x00'

end Invocation

/-- What comes of running a program. -/
inductive Execution where
  /-- The program ran. It has no exit code if it was stopped from outside. -/
  | ended (exitCode : Option Int) (output errors : String)
  /-- The program could not be run. -/
  | notStarted (reason : String)
deriving DecidableEq

namespace Execution

/-- What is said about a program that is given a zero byte. -/
def zeroReason : String := "nul byte found in provided data"

/-- The output of a program that succeeded, or the failure of the command with the given label. -/
def result (label : String) : Execution → Except Failure String
  | ended exitCode output errors =>
    if exitCode = some 0 then .ok output else .error (.command label (Text.trim errors) exitCode)
  | notStarted reason => .error (.command label reason none)

theorem result_eq_ok {e : Execution} {label output : String} (h : e.result label = .ok output) :
    ∃ errors, e = .ended (some 0) output errors := by
  cases e with
  | ended exitCode output' errors =>
    simp only [result] at h
    split at h
    · rename_i hcode
      rw [Except.ok.injEq] at h
      exact ⟨errors, by rw [hcode, h]⟩
    · simp at h
  | notStarted reason => simp [result] at h

end Execution

/-- The programs that there are in a state `σ`. -/
class Programs (σ : Type) where
  /-- Calls the program that changes the live rules. -/
  change : Invocation → σ → Execution × σ
  /-- Calls the program that lists the live rules. -/
  list : Invocation → σ → Execution
  /-- Calls any program. -/
  call : Invocation → σ → Execution × σ
  /-- The number of the live rules. -/
  size : σ → Nat
  size_delete : ∀ {program table option output errors : String} {args : List String} {s s' : σ},
    change ⟨program, "-t" :: table :: ("-D" ++ option) :: args⟩ s = (.ended (some 0) output errors, s') →
      size s' < size s

namespace Programs

/-- The name of the program that changes the live rules. -/
def changerName : String := "iptables"

/-- The name of the program that lists the live rules. -/
def listerName : String := "iptables-save"

end Programs

/-! ## Machines -/

/-- A machine with the programs of the packet filter. -/
structure Machine (σ : Type) where
  /-- The directory of the programs. -/
  directory : String
  outside : σ

namespace Machine

variable {σ : Type} [Programs σ]

def changer (m : Machine σ) : String :=
  joinPath m.directory Programs.changerName

def lister (m : Machine σ) : String :=
  joinPath m.directory Programs.listerName

/-- The outcome of a call as that of an action. No program can be called with a zero byte. -/
def outcome (call : Invocation → σ → Execution × σ) (c : Invocation) : Action (Machine σ) String := fun m =>
  let (execution, outside) :=
    if c.hasZero then (.notStarted Execution.zeroReason, m.outside) else call c m.outside
  match execution.result c.label with
  | .ok output => .ok output { m with outside }
  | .error failure => .error failure { m with outside }

/-- What the program that changes the rules says about its version. -/
def versionOutput : Action (Machine σ) String := fun m =>
  outcome Programs.change ⟨m.changer, ["--version"]⟩ m

def list : Action (Machine σ) String := fun m =>
  outcome (fun c s => (Programs.list c s, s)) ⟨m.lister, []⟩ m

/-- Carries out a command, and gives the output of the program that does. -/
def runCommand (c : Command) : Action (Machine σ) String := fun m =>
  match c with
  | .persist call => outcome Programs.call call m
  | c => outcome Programs.change ⟨m.changer, c.arguments⟩ m

/-- Carries out a command. -/
def run (c : Command) : Action (Machine σ) Unit := do
  let _ ← runCommand c

/-! ### Rank -/

omit [Programs σ] in
theorem outcome_eq_ok {call : Invocation → σ → Execution × σ} {c : Invocation} {output : String}
    {m m' : Machine σ} (h : outcome call c m = .ok output m') :
    ∃ errors, call c m.outside = (.ended (some 0) output errors, m'.outside) := by
  unfold outcome at h
  split at h
  rename_i execution outside hcall
  split at h
  · rename_i output' hresult
    simp only [EStateM.Result.ok.injEq] at h
    obtain ⟨rfl, rfl⟩ := h
    obtain ⟨errors, rfl⟩ := Execution.result_eq_ok hresult
    -- without an exit code, as a call with a zero byte ends, there is no result
    split at hcall
    · simp at hcall
    · exact ⟨errors, hcall⟩
  · simp at h

theorem outside_of_list {m m' : Machine σ} {text : String} (h : list m = .ok text m') :
    m'.outside = m.outside := by
  obtain ⟨errors, hcall⟩ := outcome_eq_ok h
  exact (congrArg Prod.snd hcall).symm

/-- A deletion of a rule in the form of a listing takes away a rule. -/
theorem size_run_delete {m m' : Machine σ} {t : Table} {rule : String} (ha : appends rule)
    (h : run (.delete t rule) m = .ok () m') : Programs.size m'.outside < Programs.size m.outside := by
  obtain ⟨output, m', hrun, hdone⟩ := Action.bind_eq_ok.mp h
  obtain ⟨-, rfl⟩ := EStateM.Result.ok.inj hdone
  have hout : outcome Programs.change ⟨m.changer, Command.deleteArguments t rule⟩ m = .ok output m' := hrun
  obtain ⟨errors, hcall⟩ := outcome_eq_ok hout
  obtain ⟨option, rest, hargs⟩ := arguments_deletion_of_appends ha
  rw [Command.deleteArguments, Command.appendArguments, hargs] at hcall
  exact Programs.size_delete hcall

instance : Backend (Machine σ) where
  version := do return Text.trim (← versionOutput)
  list := list
  run := run
  rank m := Programs.size m.outside
  rank_delete ha h := Nat.le_of_lt (size_run_delete ha h)
  rank_lt ha hl h := outside_of_list hl ▸ size_run_delete ha h

end Machine

end PacketFilter
