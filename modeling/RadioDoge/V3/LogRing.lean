/-
# The log

`addLog` writes an entry of at most 200 bytes into a ring of 100. Two handlers read the ring from
the oldest entry on, one as JSON and one as plain text. Both show the latest entries:
`logs_show_latest`.
-/

import RadioDoge.Lib.RingLog
import RadioDoge.V3.JsonEscape
import RadioDoge.V3.SerialOutput
import RadioDoge.V3.WebReplies

namespace RadioDoge.V3

/-! ## The buffer and its readers -/

/-- `MAX_LOG_ENTRIES`. -/
abbrev maxLogEntries : Nat := 100

/-- `logBuffer`, with `logIndex` and `logCount`. -/
abbrev LogBuffer := RingLog Bytes maxLogEntries

/-- The buffer when the firmware starts. -/
def LogBuffer.boot : LogBuffer := RingLog.empty (by decide) []

/-- `addLog`: what it stores. -/
def addLog (millis : UInt32) (message : Bytes) (logs : LogBuffer) : LogBuffer :=
  logs.push (logEntry millis message)

/-- How the answer of `handleApiLogs` begins. -/
def logsHead (millis : UInt32) (logCount : Nat) : Bytes :=
  WebAnswer.apiHead millis ++ ascii "\"action\":\"logs_retrieve\"," ++ ascii "\"total_logs\":" ++
    decimal logCount ++ ascii "," ++ ascii "\"logs\":"

/-- `handleApiLogs`: the text that it sends. -/
def handleApiLogs (millis : UInt32) (logs : LogBuffer) : Bytes :=
  let entries :=
    if logs.count > 0 then
      let startIndex := if logs.count < maxLogEntries then 0 else logs.index
      let entriesToShow := min logs.count maxLogEntries
      (List.range entriesToShow).flatMap fun i =>
        let actualIndex := (startIndex + i) % maxLogEntries
        (if i > 0 then ascii "," else []) ++ ascii "\"" ++
          escapeJsonString (logs.slotAt actualIndex) ++ ascii "\""
    else []
  logsHead millis logs.count ++ ascii "[" ++ entries ++ ascii "]\x7d"

/-- `handleApiLogsText`: the text that it sends. -/
def handleApiLogsText (logs : LogBuffer) : Bytes :=
  if logs.count > 0 then
    let startIndex := if logs.count < maxLogEntries then 0 else logs.index
    let entriesToShow := min logs.count maxLogEntries
    (List.range entriesToShow).flatMap fun i =>
      let actualIndex := (startIndex + i) % maxLogEntries
      logs.slotAt actualIndex ++ ascii "\n"
  else ascii "No logs available\n"

/-! ## What they should show -/

/-- The entry of a call: the time and the message, cut behind 197 bytes if they are too long. -/
def entryOf (call : UInt32 × Bytes) : Bytes :=
  let line := ascii "[" ++ decimal call.1.toNat ++ ascii "] " ++ call.2
  if line.length ≤ 200 then line else line.take 197 ++ ascii "..."

/-- The latest entries of the calls, the oldest first. -/
def latestEntries (calls : List (UInt32 × Bytes)) : List Bytes := (calls.rtake 100).map entryOf

/-- The buffer behind calls of `addLog`, each with its time and message. -/
def addLogs (calls : List (UInt32 × Bytes)) : LogBuffer :=
  calls.foldl (fun logs call => addLog call.1 call.2 logs) LogBuffer.boot

/-- A text as a JSON string. -/
def jsonString (text : Bytes) : Json.Value :=
  .string ⟨escapeJsonString text, isBody_escapeJsonString text⟩

/-! ## The buffer holds the latest entries -/

theorem logEntry_eq (millis : UInt32) (message : Bytes) :
    logEntry millis message = entryOf (millis, message) := by
  rw [logEntry, entryOf]
  split
  · rename_i hlong
    exact (if_neg (Nat.not_le_of_lt hlong)).symm
  · rename_i hshort
    exact (if_pos (Nat.le_of_not_lt hshort)).symm

/-- **The ring.** What is read are the latest entries. -/
theorem read_addLogs (calls : List (UInt32 × Bytes)) :
    (addLogs calls).read = latestEntries calls := by
  have hpush : addLogs calls = LogBuffer.boot.pushAll (calls.map entryOf) := by
    rw [addLogs, RingLog.pushAll, List.foldl_map]
    simp only [addLog, logEntry_eq]
  rw [hpush, RingLog.read_pushAll, LogBuffer.boot, RingLog.read_empty, List.nil_append,
    latestEntries, List.rtake, List.rtake, List.length_map, List.map_drop]

theorem length_latestEntries (calls : List (UInt32 × Bytes)) :
    (latestEntries calls).length = min calls.length 100 := by
  rw [latestEntries, List.length_map, List.rtake, List.length_drop]
  omega

theorem count_addLogs (calls : List (UInt32 × Bytes)) :
    (addLogs calls).count = min calls.length 100 := by
  rw [← RingLog.length_read, read_addLogs, length_latestEntries]

/-! ## The readers -/

section Readers

variable (logs : LogBuffer)

/-- The slot that a reader looks at. -/
theorem slotAt_actualIndex (i : Nat) :
    logs.slotAt (((if logs.count < maxLogEntries then 0 else logs.index) + i) % maxLogEntries) =
      logs.slotAt (logs.start + i) :=
  logs.slotAt_congr (Nat.mod_mod _ _)

/-- Entries with commas between them are the elements of an array. -/
theorem flatMap_quoted (slot : Nat → Bytes) (n : Nat) :
    ((List.range n).flatMap fun i => (if i > 0 then ascii "," else []) ++ ascii "\"" ++
      escapeJsonString (slot i) ++ ascii "\"") =
      Json.Value.elementsText (((List.range n).map slot).map jsonString) := by
  have hquoted : ∀ text : Bytes,
      ascii "\"" ++ escapeJsonString text ++ ascii "\"" = (jsonString text).text := fun _ => rfl
  cases n with
  | zero => rfl
  | succ n =>
      rw [List.range_succ_eq_map, List.flatMap_cons, List.map_cons, List.map_cons,
        Json.Value.elementsText_cons, ← hquoted, List.flatMap_map, List.map_map, List.map_map,
        List.flatMap_map]
      rfl

/-- The JSON answer lists what is read from the ring. -/
theorem handleApiLogs_eq (now : UInt32) :
    handleApiLogs now logs = logsHead now logs.count ++
      (Json.Value.array (logs.read.map jsonString)).text ++ ascii "\x7d" := by
  have hentries : (if logs.count > 0 then
      (List.range (min logs.count maxLogEntries)).flatMap fun i =>
        (if i > 0 then ascii "," else []) ++ ascii "\"" ++
          escapeJsonString (logs.slotAt (((if logs.count < maxLogEntries then 0 else logs.index) +
            i) % maxLogEntries)) ++ ascii "\""
      else []) = Json.Value.elementsText (logs.read.map jsonString) := by
    simp only [slotAt_actualIndex]
    split
    · rw [flatMap_quoted, RingLog.read]
    · rename_i hempty
      rw [RingLog.read, Nat.eq_zero_of_not_pos hempty, Nat.zero_min]
      rfl
  rw [handleApiLogs]
  simp only
  rw [hentries, Json.Value.text]
  simp only [List.append_assoc]
  rfl

/-- So does the plain text. -/
theorem handleApiLogsText_eq :
    handleApiLogsText logs =
      if logs.count = 0 then ascii "No logs available\n"
      else logs.read.flatMap fun entry => entry ++ ascii "\n" := by
  rw [handleApiLogsText]
  by_cases hempty : logs.count = 0
  · rw [if_pos hempty, if_neg (Nat.not_lt.mpr hempty.le)]
  · rw [if_neg hempty, if_pos (Nat.pos_of_ne_zero hempty), RingLog.read, List.flatMap_map]
    simp only [slotAt_actualIndex]

end Readers

/-- **The log.** Both handlers show the entries of the latest hundred calls, the oldest first. -/
theorem logs_show_latest (calls : List (UInt32 × Bytes)) (now : UInt32) :
    (latestEntries calls).length = min calls.length 100 ∧
      handleApiLogs now (addLogs calls) = logsHead now (min calls.length 100) ++
        (Json.Value.array ((latestEntries calls).map jsonString)).text ++ ascii "\x7d" ∧
      handleApiLogsText (addLogs calls) =
        if calls = [] then ascii "No logs available\n"
        else (latestEntries calls).flatMap fun entry => entry ++ ascii "\n" := by
  refine ⟨length_latestEntries calls, ?_, ?_⟩
  · rw [handleApiLogs_eq, count_addLogs, read_addLogs]
  · rw [handleApiLogsText_eq, count_addLogs, read_addLogs]
    cases calls with
    | nil => rfl
    | cons call rest =>
        have hcount : min (call :: rest).length 100 ≠ 0 := by
          rw [List.length_cons]
          omega
        rw [if_neg hcount, if_neg (List.cons_ne_nil call rest)]

end RadioDoge.V3
