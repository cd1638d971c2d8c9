import PacketFilter.Audit.Timestamp
import PacketFilter.Json
import PacketFilter.Json.Reader
import PacketFilter.Json.Text
import PacketFilter.Session
import PacketFilter.System.Document

/-! # The audit log

The log of runs is a file with an event on each line, the latest at the end. An event says when a run was, of which
kind, and whether it succeeded, with details. It is one JSON object on one line (`Event.line`), which `Event.ofLine?`
reads back. Writing to the log never makes a run fail: if the directory of the file is not there, nothing is written. -/

namespace PacketFilter

/-- The kinds of events. -/
inductive EventKind where
  /-- A run that rebuilt the live rules, or that failed. -/
  | changed
  /-- A run that found the declared rules at their places, whatever else it has pruned. -/
  | unchanged
deriving DecidableEq

namespace EventKind

/-- The name of a kind in the log. -/
def name : EventKind → String
  | changed => "converge_rules"
  | unchanged => "converge_unchanged"

/-- The kind with a given name. -/
def ofName? (s : String) : Option EventKind :=
  [changed, unchanged].find? (·.name == s)

end EventKind

/-- What is logged about a run. -/
structure Event where
  time : Timestamp
  kind : EventKind
  success : Bool
  details : Json
  error : Option String

namespace Event

/-- The event of a run with a report. Its details are in the order of their names. -/
def ofReport (time : Timestamp) (run : String) (r : Report) : Event where
  time := time
  kind := if r.changed then .changed else .unchanged
  success := true
  details := .obj [("added", .nat r.added), ("checksum", .str r.checksum), ("declared", .nat r.declared),
    ("deleted", .nat r.deleted), ("persisted", .bool r.persisted), ("pruned", .nat r.pruned),
    ("rejected", .nat r.rejected.length), ("run_id", .str run)]
  error := none

/-- The event of a run that failed. -/
def ofFailure (time : Timestamp) (run checksum error : String) : Event where
  time := time
  kind := .changed
  success := false
  details := .obj [("checksum", .str checksum), ("run_id", .str run)]
  error := some error

/-- The event of a run with a given outcome. Dry runs have none. -/
def ofOutcome (time : Timestamp) (run checksum : String) : Except Failure Report → Option Event
  | .ok r => if r.dryRun then none else some (ofReport time run r)
  | .error e => some (ofFailure time run checksum e.message)

/-! ### Lines -/

/-- The fields of an event, in order. -/
def fieldNames : List String :=
  ["timestamp", "event_type", "success", "details", "error"]

def toJson (e : Event) : Json :=
  .obj [("timestamp", .str e.time.text), ("event_type", .str e.kind.name),
    ("success", .bool e.success), ("details", e.details), ("error", .textOrNull e.error)]

/-- An event as a line of the log, without its end. -/
def line (e : Event) : String :=
  e.toJson.compact

/-- How deep the details of an event may be nested. -/
def maxDepth : Nat := 126

/-- Details of any shape, as long as they are intact and not nested too deep. -/
def details? (v : Json) : Option Json :=
  if v.isIntact && v.depth ≤ maxDepth then some v else none

/-- The event that a JSON value describes. An event written as an array has all of its fields; otherwise
an error need not be mentioned, and fields of other names say nothing. -/
def ofJson? (v : Json) : Option Event := do
  let fields ← Json.fields? fieldNames true v
  let error ← match v with
    | .arr _ => Json.field? fields "error" (Json.asOptional? Json.asText?)
    | _ => Json.fieldD fields "error" none (Json.asOptional? Json.asText?)
  return {
    time := ← Json.field? fields "timestamp" fun v => (Json.asText? v).bind Timestamp.ofText?
    kind := ← Json.field? fields "event_type" (Json.asName? EventKind.ofName?)
    success := ← Json.field? fields "success" Json.asBool?
    details := ← Json.field? fields "details" details?
    error := error }

/-- The event that a line of the log holds, if it holds one. -/
def ofLine? (line : String) : Option Event :=
  (Json.ofText? line).bind ofJson?

end Event

/-- The file of a log. -/
structure AuditLog where
  /-- The directory of the file is there. -/
  writable : Bool
  /-- The text of the file, if there is one. -/
  content : Option String := none
deriving DecidableEq

namespace AuditLog

/-- The text of a log with one more event. -/
def appendLine (content : String) (e : Event) : String :=
  content ++ e.line ++ "\n"

def write (log : AuditLog) (e : Event) : AuditLog :=
  if log.writable then { log with content := some (appendLine (log.content.getD "") e) } else log

/-- Writes the event of a run, if it has one. -/
def record (log : AuditLog) (time : Timestamp) (run checksum : String)
    (outcome : Except Failure Report) : AuditLog :=
  match Event.ofOutcome time run checksum outcome with
  | some e => log.write e
  | none => log

/-- The events in the last `count` lines of a log, the latest first. Lines that hold no event are passed
over, and count. -/
def recent (count : Nat) (content : String) : List Event :=
  ((Text.lines content).reverse.take count).filterMap Event.ofLine?

/-- The document that a log is. -/
def document (log : AuditLog) : Document :=
  match log.content with
  | some content => .text content
  | none => .missing

/-- The events in the last `count` lines of a document, or why it cannot be read. -/
def readRecent (count : Nat) (document : Document) : Except String (List Event) :=
  document.content.map (recent count)

end AuditLog

end PacketFilter
