import PacketFilter.Manifest
import PacketFilter.Spec.Compile
import PacketFilter.System.Elevation
import PacketFilter.Text.Line
import PacketFilter.Text.Lowercase

/-! # Failures

What a run can fail with, and the text of each failure. A `Diagnosis` says what the messages of the packet filter's own
programs mean to their user, and what may help. A message is recognised by a phrase it holds, in any case of its
letters; the first diagnosis that knows a phrase of the message is given, and a general one if none does. -/

namespace PacketFilter

/-- Why something was not done. -/
inductive Failure where
  | io (reason : String)
  /-- A declared rule is refused. -/
  | refused (rule reason : String)
  /-- An address, network or mask cannot be read. -/
  | format (reason : String)
  /-- A command did not succeed; without an exit code it did not run to its end. -/
  | command (text stderr : String) (exitCode : Option Int)
  | elevation (e : ElevationError)
  /-- There is no manifest. -/
  | manifest (e : ManifestError)
  | internal (reason : String)
deriving DecidableEq

/-- What is said about a failure. -/
def Failure.message : Failure → String
  | io reason => "I/O error: " ++ reason
  | refused rule reason => "Invalid rule '" ++ rule ++ "': " ++ reason
  | format reason => "Format error: " ++ reason
  | command text stderr _ => "Command failed: " ++ text ++ ": " ++ stderr
  | elevation e => "Elevation error: " ++ e.message
  | manifest e => e.message
  | internal reason => "Internal error: " ++ reason

/-- The failure that a declared rule without rule text gives. -/
def CompileError.failure (rule : String) : CompileError → Failure
  | violation v => .refused rule v.message
  | address e => .format e.message

/-- The meaning of a message, with advice. -/
structure Diagnosis where
  meaning : String
  advice : List String
deriving DecidableEq

/-- A diagnosis with the phrases, in lower case, that it is known by. -/
structure Symptom where
  phrases : List String
  diagnosis : Diagnosis

/-- The symptoms, in the order in which they are looked for. -/
def symptoms : List Symptom :=
  [⟨["permission denied", "operation not permitted"],
      ⟨"Insufficient permissions to modify firewall rules",
        ["Run iptsync as root or configure sudo/run0 for iptables",
          "Check if CAP_NET_ADMIN capability is available"]⟩⟩,
    ⟨["xtables lock", "resource temporarily unavailable"],
      ⟨"Another process holds the xtables lock",
        ["Another firewall manager may be running (firewalld, ufw, docker)",
          "Wait a moment and re-run iptsync"]⟩⟩,
    ⟨["no such file", "command not found"],
      ⟨"iptables is not installed or not found in PATH",
        ["Install iptables: sudo apt install iptables  (Debian/Ubuntu)",
          "Or: sudo dnf install iptables  (Fedora/RHEL)",
          "Or set \"iptables_dir\" in the iptsync config"]⟩⟩,
    ⟨["bad rule", "does a matching rule exist"],
      ⟨"The rule to delete no longer exists",
        ["The firewall changed during the run; re-run iptsync to converge"]⟩⟩,
    ⟨["index of deletion too big"],
      ⟨"Rule position out of range while flushing a chain",
        ["The firewall changed during the run; re-run iptsync to converge"]⟩⟩,
    ⟨["no chain/target/match by that name", "couldn't load target", "couldn't load match"],
      ⟨"Unknown chain, target or match extension",
        ["Check that the required kernel modules are loaded (lsmod | grep xt_)",
          "NAT targets need the 'nat' table (DNAT, SNAT, MASQUERADE)"]⟩⟩,
    ⟨["table does not exist", "can't initialize iptables table"],
      ⟨"Firewall table is not available",
        ["Load the table module: sudo modprobe iptable_nat (or iptable_mangle, iptable_raw)"]⟩⟩]

/-- The diagnosis of a message that no symptom is known for. -/
def generalDiagnosis (message : String) : Diagnosis :=
  ⟨"Firewall error: " ++ message,
    ["Check the detailed error message for more information",
      "Verify iptables is working: sudo iptables-save"]⟩

/-- The diagnosis of a message. -/
def diagnose (message : String) : Diagnosis :=
  match symptoms.find? fun s => s.phrases.any fun phrase => Text.contains phrase (Text.lower message) with
  | some s => s.diagnosis
  | none => generalDiagnosis message

end PacketFilter
