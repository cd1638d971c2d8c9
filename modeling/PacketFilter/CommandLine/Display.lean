import PacketFilter.Diff
import PacketFilter.Failure
import PacketFilter.Json
import PacketFilter.Listing
import PacketFilter.RuleSet
import PacketFilter.Session

/-! # What the program shows

The lines that the program prints about rule sets, reports and failures, the live rules as a JSON value, and the live
rules beside the declared ones. -/

/-! ## Messages -/

namespace PacketFilter

/-- A text with a line for each of the given ones. -/
def joinLines (lines : List String) : String :=
  String.join (lines.map (· ++ "\n"))

/-- A rule set: the numbered rules of each table under its name, and the checksum. -/
def RuleSet.display (s : RuleSet) : List String :=
  (s.tables.flatMap fun t => ("*" ++ t.name) :: (s.placed t).map PlacedRule.key) ++
    ["checksum: " ++ s.checksum]

def Rejection.display (r : Rejection) : String :=
  r.name ++ ": " ++ r.reason

namespace Report

variable (r : Report)

/-- What a run came to. -/
def headline : List String :=
  if r.dryRun then
    ("Dry run, " ++ toString r.commands.length ++ " command(s) would be issued:") ::
      r.commands.map fun c => "  " ++ c.text
  else if r.changed then
    ["✓ Rules converged: " ++ toString r.added ++ " added, " ++ toString r.deleted ++ " flushed, " ++
      toString r.pruned ++ " pruned"]
  else if 0 < r.pruned then ["✓ Pruned " ++ toString r.pruned ++ " undeclared rule(s)"]
  else ["✓ Rules unchanged"]

/-- That the rules were not saved, if they were not. -/
def persistNote : List String :=
  if r.persistUnavailable then
    ["! Rules were not saved: no persistence command known for this platform"]
  else []

/-- The declared rules that were refused, of so many in the manifest. -/
def rejectionNote (specs : Nat) : List String :=
  if r.rejected.isEmpty then []
  else
    ("! " ++ toString r.rejected.length ++ " of " ++ toString specs ++ " spec(s) rejected:") ::
      r.rejected.map fun rejection => "  " ++ rejection.display

/-- A report about a manifest with so many declared rules. -/
def display (specs : Nat) : List String :=
  r.headline ++ r.persistNote ++ r.rejectionNote specs

end Report

/-- What may help after a failure: the diagnosis of what a command said. -/
def Failure.help : Failure → List String
  | .command _ stderr _ =>
    let d := diagnose stderr
    d.meaning :: d.advice.map ("  - " ++ ·)
  | _ => []

def Failure.display (e : Failure) : List String :=
  ("Error: " ++ e.message) :: e.help

/-! ## Live rules as JSON

What a listing shows is an object with a member for each table, which has the entries of the table with their keys and
the attributes of their rules. -/

/-- A live rule as a JSON object; addresses that the line does not mention are null. -/
def LiveRule.toJson (r : LiveRule) : Json :=
  .obj [("line", .str r.line), ("table", .str r.table.name), ("chain", .str r.chain),
    ("name", .str r.name), ("proto", .str r.protocol), ("jump", .str r.jump),
    ("source", .textOrNull r.source), ("destination", .textOrNull r.destination),
    ("sport", .str r.sourcePort), ("dport", .str r.destinationPort), ("iniface", .str r.inInterface),
    ("outiface", .str r.outInterface), ("todest", .str r.toDestination), ("tosource", .str r.toSource),
    ("toports", .str r.toPorts), ("reject", .str r.rejectWith), ("log_level", .str r.logLevel),
    ("log_prefix", .str r.logPrefix), ("icmp", .str r.icmpType), ("state", .str r.state),
    ("limit", .str r.limit), ("burst", .str r.burst)]

def Entry.toJson (e : Entry) : Json :=
  .obj [("key", .str e.key), ("rule", e.rule.toJson)]

/-- The entries of a table as an array. -/
def LiveState.entriesJson (live : LiveState) (t : Table) : Json :=
  .arr ((live.entries t).map Entry.toJson)

/-- A live state as a JSON object with a member for each table that the listing mentions. -/
def LiveState.toJson (live : LiveState) : Json :=
  .obj (live.tables.map fun t => (t.name, .obj [("entries", live.entriesJson t)]))

/-! ## Live rules beside declared ones

The rules of a table are two texts with a line for each rule: the ones that are live, by their keys, and the ones that
are declared. A table `differs` if the texts do, and `comparison` shows how. -/

/-- A line for each of the given rules. -/
def ruleLines (rules : List String) : String :=
  String.join (rules.map (· ++ "\n"))

def LiveState.ruleLines (live : LiveState) (t : Table) : String :=
  PacketFilter.ruleLines ((live.entries t).map Entry.key)

def RuleSet.ruleLines (declared : RuleSet) (t : Table) : String :=
  PacketFilter.ruleLines (declared.texts t)

variable (declared : RuleSet) (live : LiveState)

/-- Whether the live rules of a table, read without numbers, are other than the declared ones. -/
def differs (t : Table) : Bool :=
  live.ruleLines t != declared.ruleLines t

/-- How the live rules of a table differ from the declared ones. -/
def tableComparison (t : Table) : String :=
  Diff.unified ("live/" ++ t.name) ("declared/" ++ t.name) (live.ruleLines t) (declared.ruleLines t)

/-- How the live rules differ from the declared ones, table by table. -/
def comparison : String :=
  match Table.all.filter (differs declared live) with
  | [] => "No differences\n"
  | tables => String.join (tables.map (tableComparison declared live))

end PacketFilter
