import PacketFilter.Proofs.AuditTrail

/-! # Recent events

Reading the latest events of a log looks at its last lines and passes over those that hold no event. So it gives the
latest events, but fewer than it was asked for when a damaged line stands among the last lines and there are events in
front of them: it gives as many as asked for exactly if that does not happen (`AuditLog.readRecent_latest_iff`,
`AuditLog.not_readRecent_latest`). -/

namespace PacketFilter

/-! ### Lists that are partly read -/

section lists
variable {α β : Type} (f : α → Option β) (xs : List α) (n : Nat)

theorem filterMap_take_eq :
    (xs.take n).filterMap f = (xs.filterMap f).take ((xs.take n).countP fun x => (f x).isSome) := by
  have hall : xs.filterMap f = (xs.take n).filterMap f ++ (xs.drop n).filterMap f := by
    rw [← List.filterMap_append, List.take_append_drop]
  rw [hall, ← List.length_filterMap_eq_countP, List.take_left]

/-- The first `n` values give the first `n` of what all values give, unless one of them gives nothing while a later
value gives something. -/
theorem filterMap_take_eq_iff :
    (xs.take n).filterMap f = (xs.filterMap f).take n ↔
      (∀ x ∈ xs.take n, (f x).isSome = true) ∨ ∀ x ∈ xs.drop n, f x = none := by
  have hall : xs.filterMap f = (xs.take n).filterMap f ++ (xs.drop n).filterMap f := by
    rw [← List.filterMap_append, List.take_append_drop]
  have htake : (xs.take n).length = min n xs.length := List.length_take
  have hlength := List.length_filterMap_le f (xs.take n)
  have hmissing : (xs.take n).filterMap f = (xs.filterMap f).take n ↔
      n ≤ ((xs.take n).filterMap f).length ∨ (xs.drop n).filterMap f = [] := by
    have hstart : ((xs.take n).filterMap f).take n = (xs.take n).filterMap f :=
      List.take_of_length_le (by omega)
    rw [hall, List.take_append, hstart, List.self_eq_append_right, List.take_eq_nil_iff]
    exact or_congr_left (by omega)
  rw [hmissing, List.filterMap_eq_nil_iff, ← List.filterMap_length_eq_length]
  constructor
  · rintro (hfull | hnone)
    · exact .inl (by omega)
    · exact .inr hnone
  · rintro (hintact | hnone)
    · rcases Nat.le_total n xs.length with hn | hn
      · exact .inl (by omega)
      · rw [List.drop_eq_nil_of_le hn]
        exact .inr (by simp)
    · exact .inr hnone

end lists

namespace AuditLog

/-! ### Lines of a log -/

/-- Whether a line of a log holds an event. Other lines are damaged. -/
def holdsEvent (line : String) : Bool :=
  (Event.ofLine? line).isSome

/-- The last `count` lines of a log, the latest first. -/
def lastLines (count : Nat) (content : String) : List String :=
  (Text.lines content).reverse.take count

/-- The lines in front of the last `count` lines of a log, the latest first. -/
def earlierLines (count : Nat) (content : String) : List String :=
  (Text.lines content).reverse.drop count

/-- All events of a log, the latest first. -/
def events (content : String) : List Event :=
  (Text.lines content).reverse.filterMap Event.ofLine?

theorem holdsEvent_line {e : Event} (h : e.IsWritable) : holdsEvent e.line = true := by
  rw [holdsEvent, Event.ofLine?_line h]
  rfl

theorem recent_eq_take (count : Nat) (content : String) :
    recent count content = (events content).take ((lastLines count content).countP holdsEvent) :=
  filterMap_take_eq Event.ofLine? (Text.lines content).reverse count

/-- As many events as asked for are read exactly if no damaged line hides an earlier event. -/
theorem recent_eq_take_iff (count : Nat) (content : String) :
    recent count content = (events content).take count ↔
      (∀ line ∈ lastLines count content, holdsEvent line = true) ∨
        ∀ line ∈ earlierLines count content, holdsEvent line = false := by
  have hiff := filterMap_take_eq_iff Event.ofLine? (Text.lines content).reverse count
  simpa only [recent, events, lastLines, earlierLines, holdsEvent, Option.isSome_eq_false_iff,
    Option.isNone_iff_eq_none] using hiff

/-! ### Logs as files -/

theorem fromUTF8?_toUTF8 (content : String) : String.fromUTF8? content.toUTF8 = some content := by
  simp only [String.fromUTF8?, String.toUTF8_eq_toByteArray, dif_pos content.isValidUTF8]
  rfl

theorem readRecent_ofBytes {bytes : ByteArray} {content : String} (h : String.fromUTF8? bytes = some content)
    (count : Nat) : readRecent count (.ofBytes bytes) = .ok (recent count content) := by
  rw [Document.ofBytes, h]
  rfl

/-- A log that is no text cannot be read. What is read of any other log are its latest events, as many as the last
`count` lines hold. These are the `count` latest events, or all if there are fewer, exactly if none of the last lines is
damaged or there is no event in front of them. -/
theorem readRecent_latest_iff (bytes : ByteArray) (count : Nat) :
    (String.fromUTF8? bytes = none →
      readRecent count (.ofBytes bytes) = .error "stream did not contain valid UTF-8") ∧
    ∀ content, String.fromUTF8? bytes = some content →
      readRecent count (.ofBytes bytes) =
        .ok ((events content).take ((lastLines count content).countP holdsEvent)) ∧
      (readRecent count (.ofBytes bytes) = .ok ((events content).take count) ↔
        (∀ line ∈ lastLines count content, holdsEvent line = true) ∨
          ∀ line ∈ earlierLines count content, holdsEvent line = false) := by
  constructor
  · intro h
    rw [Document.ofBytes, h]
    rfl
  · intro content h
    rw [readRecent_ofBytes h, Except.ok.injEq, Except.ok.injEq]
    exact ⟨recent_eq_take count content, recent_eq_take_iff count content⟩

/-- The event of a run that could not lock the tables. -/
def lockedEvent (second : Int) : Event :=
  .ofFailure ⟨second, 0⟩ "run" "" "Another app is currently holding the xtables lock."

/-- The start of an event, which a crash has torn. -/
def tornLine : String :=
  "\x7b\"timestamp\":\"2025"

def tornLines : List String :=
  [(lockedEvent 1753522244).line, tornLine, (lockedEvent 1753522245).line]

/-- A log with a torn line between two events. -/
def tornLog : String :=
  String.join (tornLines.map (· ++ "\n"))

theorem isWritable_lockedEvent {second : Int} (h : second ∈ [1753522244, 1753522245]) :
    (lockedEvent second).IsWritable := by
  simp only [List.mem_cons, List.not_mem_nil, or_false] at h
  refine ⟨?_, rfl, show 1 ≤ 126 by decide⟩
  rcases h with rfl | rfl <;> exact ⟨by decide, .inl (by decide)⟩

theorem lines_tornLog : Text.lines tornLog = tornLines := by
  have holder : (lockedEvent 1753522244).IsWritable := isWritable_lockedEvent (by simp)
  have hnewer : (lockedEvent 1753522245).IsWritable := isWritable_lockedEvent (by simp)
  refine Text.lines_join ?_
  simp only [tornLines, List.forall_mem_cons]
  exact ⟨Event.newline_not_mem_line holder, by decide, Event.newline_not_mem_line hnewer, by simp⟩

theorem lastLines_tornLog : lastLines 2 tornLog = [(lockedEvent 1753522245).line, tornLine] := by
  rw [lastLines, lines_tornLog]
  rfl

theorem holdsEvent_tornLine : holdsEvent tornLine = false := by
  decide +kernel

theorem hidden_tornLog :
    ¬ ((∀ line ∈ lastLines 2 tornLog, holdsEvent line = true) ∨
      ∀ line ∈ earlierLines 2 tornLog, holdsEvent line = false) := by
  have hearlier : earlierLines 2 tornLog = [(lockedEvent 1753522244).line] := by
    rw [earlierLines, lines_tornLog]
    rfl
  rw [lastLines_tornLog, hearlier]
  rintro (hintact | hnone)
  · have htorn := hintact tornLine (by simp)
    rw [holdsEvent_tornLine] at htorn
    cases htorn
  · have holder := hnone _ (List.mem_singleton.mpr rfl)
    rw [holdsEvent_line (isWritable_lockedEvent (by simp))] at holder
    cases holder

/-- One event is read of that log if two are asked for, but all if three are. -/
theorem readRecent_latest_iff_torn :
    String.fromUTF8? tornLog.toUTF8 = some tornLog ∧
      readRecent 2 (.ofBytes tornLog.toUTF8) = .ok ((events tornLog).take 1) ∧
      readRecent 2 (.ofBytes tornLog.toUTF8) ≠ .ok ((events tornLog).take 2) ∧
      readRecent 3 (.ofBytes tornLog.toUTF8) = .ok ((events tornLog).take 3) := by
  have htext := fromUTF8?_toUTF8 tornLog
  obtain ⟨hread, htwo⟩ := (readRecent_latest_iff tornLog.toUTF8 2).2 tornLog htext
  obtain ⟨-, hthree⟩ := (readRecent_latest_iff tornLog.toUTF8 3).2 tornLog htext
  have hnewer : (lockedEvent 1753522245).IsWritable := isWritable_lockedEvent (by simp)
  have hcount : (lastLines 2 tornLog).countP holdsEvent = 1 := by
    rw [lastLines_tornLog]
    simp [holdsEvent_tornLine, holdsEvent_line hnewer]
  have hearlier : earlierLines 3 tornLog = [] := by
    rw [earlierLines, lines_tornLog]
    rfl
  rw [hcount] at hread
  refine ⟨htext, hread, fun hlatest => hidden_tornLog (htwo.mp hlatest), hthree.mpr (.inr ?_)⟩
  rw [hearlier]
  simp

/-- The first event of that log is hidden by the damaged line behind it. -/
theorem not_readRecent_latest :
    ¬ ∀ (bytes : ByteArray) (content : String) (count : Nat), String.fromUTF8? bytes = some content →
      readRecent count (.ofBytes bytes) = .ok ((events content).take count) := by
  intro h
  have htext := fromUTF8?_toUTF8 tornLog
  have hlatest := h _ _ 2 htext
  rw [readRecent_ofBytes htext, Except.ok.injEq] at hlatest
  exact hidden_tornLog ((recent_eq_take_iff 2 tornLog).mp hlatest)

end AuditLog

end PacketFilter
