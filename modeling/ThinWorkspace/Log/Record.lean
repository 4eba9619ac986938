/-
# The line of a removal record

Source: the head of `append_removal_record` in
`crates/thinws-adapter-linux/src/operation_log.rs` and
`crates/thinws-adapter-macos/src/operation_log.rs`, which is the same in both, with the
names of the two files.

`recordLine` is the line a record becomes, its terminator included.  The serializer is
`serde_json::to_vec`, a parameter: `SingleLine` is what the log relies on, that a printed
value holds no newline.
-/

import ThinWorkspace.Application.RemovalLog
import ThinWorkspace.Lib.Json
import ThinWorkspace.Linux.Document

namespace ThinWorkspace
namespace Log

open ThinWorkspace.Core Lib Ports
open Application (checkRemovalRecord)

/-- `b'\n'`: the terminator of a line. -/
def newline : UInt8 := UInt8.ofNat 10

/-! ### Names

The words of the log, one for each constructor, and the spelling of what need not be text.
-/

/-- `event_name`: the word for an event. -/
def eventName : RemovalLogEvent → String
  | .refused => "refused"
  | .started => "started"
  | .completed => "completed"
  | .failed => "failed"

/-- `git_state_name`: the word for the state of the repositories. -/
def gitStateName : GitState → String
  | .notApplicable => "not-applicable"
  | .clean => "clean"
  | .dirty => "dirty"
  | .unknown => "unknown"

/-- `process_use_name`: the word for what a scan found. -/
def processUseName : ProcessUse → String
  | .noEvidence => "no-evidence"
  | .scanIncomplete => "scan-incomplete"
  | .confirmedInUse => "confirmed-in-use"

/-- `refusal_name`: the word for a reason to refuse. -/
def refusalName : RemovalRefusal → String
  | .confirmedInUse => "confirmed-in-use"
  | .gitCheckIncomplete => "git-check-incomplete"
  | .trackedChanges => "tracked-changes"

/-- `hex_bytes`: paths are logged in hexadecimal, since they need not be text. -/
def hexBytes (bytes : List UInt8) : String := Linux.encodeHex bytes

/-! ### Values

The JSON value of a record, with the keys in the order of the source.  What is missing is
`null`. -/

/-- A value that may be missing, `null` where it is. -/
def optional {α : Type} (f : α → Json) : Option α → Json
  | none => .null
  | some a => f a

/-- A count of the source's type `usize`, as a JSON number. -/
def count (n : ℕ) : Json := .num (UInt64.ofNat n)

/-- `RepositoryState::tracked_change_count`: an unknown state has no count, and a clean one has the
count zero. -/
def trackedChangeCount : RepositoryState → Option ℕ
  | .clean => some 0
  | .dirty trackedChanges => some trackedChanges.val
  | .unknown => none

/-- The entry of a repository; its path is shown where it is text. -/
def repositoryValue (repository : RepositoryInspection) : Json :=
  let bytes := repository.relativePath
  let display := if bytes.isEmpty then some "." else Linux.fromUtf8 bytes
  .obj [("relative_path", optional .str display),
    ("relative_path_hex", .str (hexBytes bytes)),
    ("tracked_changes", optional count (trackedChangeCount repository.state))]

/-- The fields `result` and `removed_root_entries` of an outcome: both are absent as long as there
is none. -/
def outcomeFields : Option WorkspaceRemoval → Option String × Option ℕ
  | some .alreadyAbsent => (some "already-absent", none)
  | some (.removed rootEntries) => (some "removed", some rootEntries)
  | none => (none, none)

/-- The value of a record, with its keys in the order of the source. -/
def recordValue (record : RemovalLogRecord) : Json :=
  let (result, removedRootEntries) := outcomeFields record.outcome
  .obj [("timestamp_utc_unix_ms", count record.occurredAt.get.toNat),
    ("operation_id", .str record.operationId.toText),
    ("workspace_id", .str record.workspaceId.toText),
    ("event", .str (eventName record.event)),
    ("force", .bool (record.mode = .force)),
    ("git_state", .str (gitStateName record.gitState)),
    ("git_check_complete", .bool record.gitCheckComplete),
    ("repositories", .arr (record.repositories.map repositoryValue)),
    ("process_use", optional (fun state => .str (processUseName state)) record.processUse),
    ("protection_reason", optional (fun reason => .str (refusalName reason)) record.protection),
    ("error_code", optional (fun code => .str code.asStr) record.errorCode),
    ("result", optional .str result),
    ("removed_root_entries", optional count removedRootEntries)]

/-! ### The line

The serializer is a parameter, of which `SingleLine` is asked: it prints no newline.  A
record whose fields are at odds with each other is refused before it is printed; any other
line is the printed value with a newline. -/

/-- `serde_json::to_vec`: the bytes of a value, or a failure. -/
abbrev Serializer := Json → Option (List UInt8)

/-- A serializer that prints every value on one line. -/
def SingleLine (toVec : Serializer) : Prop :=
  ∀ value text, toVec value = some text → newline ∉ text

/-- The bytes a record is appended as, from the checks to the push of the newline. -/
def recordLine (toVec : Serializer) (record : RemovalLogRecord) :
    Except PortError (List UInt8) := do
  checkRemovalRecord record
  match toVec (recordValue record) with
  | some bytes => pure (bytes ++ [newline])
  | none => throw (.new .invalidData "serialize cleanup log event")

/-- A line is a printed value and the newline behind it. -/
theorem recordLine_ok {toVec : Serializer} {record : RemovalLogRecord} {line : List UInt8}
    (h : recordLine toVec record = .ok line) :
    ∃ text, toVec (recordValue record) = some text ∧ line = text ++ [newline] := by
  obtain ⟨_, _, h⟩ := Fallible.bind_eq_ok.mp h
  split at h
  · rename_i text htext
    cases h
    exact ⟨text, htext, rfl⟩
  · cases h

end Log
end ThinWorkspace
