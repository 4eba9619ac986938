/-
# Appending to the removal log

Source: `append_removal_record` in `crates/thinws-adapter-linux/src/operation_log.rs`
and `crates/thinws-adapter-macos/src/operation_log.rs`, with what they use of
`lock.rs` and `publication.rs`, and of `filesystem.rs`.

A `LogFile` is the file `operations.jsonl` and the descriptor the append holds, with its
position and whether it was opened with `O_APPEND`: Linux opens the file so in every
case, macOS creates it without.  A `LogCall` is one system call.  What the calls that look
at names, owners and identities show is left to the world, so that the checks may pass or
fail in every way.

`Appended` says what a text has gained at its end when one line was appended to it, and
`append_keeps_lines` that this is what either platform leaves behind a success.
-/

import ThinWorkspace.Lib.Lines
import ThinWorkspace.Linux.Publication
import ThinWorkspace.Log.Compact
import ThinWorkspace.Log.Record
import ThinWorkspace.Metadata.Change

namespace ThinWorkspace
namespace Log

open ThinWorkspace.Core Lib Ports
open Linux (Errno FileKind PrivateDirectory Stat joinPath privateFileFactsMatch)
open Program (Only Returns Safe)

/-! ### Calls

An append talks to the file system by these calls.  Each returns a value of its own type or
fails in its own way, which the types `LogCall.Value` and `LogCall.Error` say; the source's
helper functions are programs over them. -/

/-- `ValidatedDirectory` of macOS: a directory that was opened and checked, with the identity it
then had. -/
structure ValidatedDirectory where
  path : List UInt8
  identity : FileIdentity
deriving DecidableEq

/-- A system call of an append.  The held file is the log, and a named one is the entry
`operations.jsonl` of the log directory. -/
inductive LogCall where
  | openPrivateDirectory (path : List UInt8)
  | openValidatedDirectory (path : List UInt8)
  | openLog
  | createLog (append : Bool)
  | fstat
  | statat
  | length
  | seekEnd (back : ℕ)
  | readExact (n : ℕ)
  | writeAll (bytes : List UInt8)
  | syncAll
  | syncDirectory
deriving DecidableEq

/-- What a call returns when it succeeds; a directory may be missing. -/
@[reducible] def LogCall.Value : LogCall → Type
  | .openPrivateDirectory _ => Option PrivateDirectory
  | .openValidatedDirectory _ => Option ValidatedDirectory
  | .fstat | .statat => Stat
  | .length => ℕ
  | .readExact _ => List UInt8
  | _ => Unit

/-- What a call fails with: opening a directory reports an error of its own, the other calls an
`errno` that the caller words. -/
@[reducible] def LogCall.Error : LogCall → Type
  | .openPrivateDirectory _ | .openValidatedDirectory _ => PortError
  | _ => Errno

/-- What a call returns: its value, or a failure of the kind that this call has. -/
@[reducible] def LogCall.Result (c : LogCall) : Type := Except c.Error c.Value

/-- An append, or a part of one: a program over these calls that fails with a port error. -/
abbrev LogUse (α : Type) := Program LogCall LogCall.Result PortError α

/-- Makes a call.  Its failure is a value of the answer, so that the program can react to it as the
source does with a `match`. -/
abbrev call (c : LogCall) : LogUse c.Result := Program.perform c

/-- A call whose failure is reported in other terms. -/
abbrev callOr (c : LogCall) (f : c.Error → PortError) : LogUse c.Value :=
  Program.orFail f (call c)

/-- `error` unless `p` holds: the form of the source's checks that return early. -/
def ensure (p : Prop) [Decidable p] (error : PortError) : LogUse Unit :=
  if p then pure () else throw error

/-- A value that may be missing, or `open private directory` not found. -/
def orNotFound {α : Type} : Option α → LogUse α
  | some a => pure a
  | none => throw (.new .notFound "open private directory")

/-- `LOG_NAME`: the one file of the log, a line for each record. -/
def logName : String := "operations.jsonl"

/-! ### The record

What both platforms share: the length, the last byte where there is one, the separator if
that byte is no newline, the line, and the synchronisation. -/

/-- The newline that separates a record from a tail another write left. -/
def tailSeparator (length : ℕ) : LogUse (List UInt8) :=
  if length ≠ 0 then do
    callOr (.seekEnd 1) fun _ => .new .io "inspect cleanup log tail"
    let tail ← callOr (.readExact 1) fun _ => .new .io "read cleanup log tail"
    pure (if tail ≠ [newline] then [newline] else [])
  else pure []

/-- From the length of the file to `sync_all`: the part of `append_removal_record` that
is the same on both platforms. -/
def writeRecord (bytes : List UInt8) : LogUse Unit := do
  let length ← callOr .length fun _ => .new .io "inspect cleanup log length"
  let separator ← tailSeparator length
  callOr (.writeAll (separator ++ bytes)) fun _ => .new .io "append cleanup log event"
  callOr .syncAll fun _ => .new .io "sync cleanup log event"

/-! ### Linux

Linux opens the log with `O_APPEND`, and looks at the directory and the file before the
write and behind it. -/

namespace OnLinux

variable (toVec : Serializer) (euid : UInt32)

/-- `revalidate_private_directory`: the path still leads to the private directory that is held. -/
def revalidatePrivateDirectory (directory : PrivateDirectory) : LogUse Unit := do
  let found ← callOr (.openPrivateDirectory directory.path) id
  let current ← orNotFound found
  ensure (current.identity = directory.identity)
    (.new .invalidLayout "private directory identity changed")

/-- `validate_private_file` of Linux: the held file and the one under the name of the log are the
expected file, private to the user. -/
def validatePrivateFile (parent : PrivateDirectory) (expected : FileIdentity) : LogUse Unit := do
  revalidatePrivateDirectory parent
  let held ← callOr .fstat fun _ => .new .io "inspect held Linux private file"
  let named ← callOr .statat fun _ => .new .invalidLayout "inspect named Linux private file"
  ensure (privateFileFactsMatch euid held named expected)
    (.new .invalidLayout "Linux private file identity or mode changed")
  revalidatePrivateDirectory parent

/-- `open_or_create_log`: the identity of the file that is held afterwards. -/
def openOrCreateLog : LogUse FileIdentity := do
  match ← call .openLog with
  | .ok () => pure ()
  | .error .noent => callOr (.createLog true) fun _ => .new .io "create cleanup log file"
  | .error _ => throw (.new .io "open cleanup log file")
  let stat ← callOr .fstat fun _ => .new .io "inspect cleanup log file"
  pure stat.identity

/-- `append_removal_record` of Linux: the line is encoded before anything is opened, and written
between two checks of the file. -/
def appendRemovalRecord (logs : PrivateDirectory) (record : RemovalLogRecord) :
    LogUse AbsolutePath := do
  let bytes ← Program.ofExcept id (recordLine toVec record)
  revalidatePrivateDirectory logs
  let identity ← openOrCreateLog
  validatePrivateFile euid logs identity
  writeRecord bytes
  validatePrivateFile euid logs identity
  callOr .syncDirectory fun _ => .new .io "sync Linux control directory"
  revalidatePrivateDirectory logs
  Program.ofExcept (fun _ => .new .invalidLayout "derive cleanup log path")
    (AbsolutePath.tryFromBytes (joinPath logs.path logName))

end OnLinux

/-! ### macOS

macOS creates a missing log without `O_APPEND` and moves the descriptor to the end itself.
The branches of `openOrCreateLog` are those of the source, with the errors that each wording
stands for. -/

namespace OnMacOs

variable (toVec : Serializer) (euid : UInt32)

/-- `revalidate_directory`: the path still leads to the directory that is held. -/
def revalidateDirectory (directory : ValidatedDirectory) : LogUse Unit := do
  let found ← callOr (.openValidatedDirectory directory.path) id
  let current ← orNotFound found
  ensure (current.identity = directory.identity)
    (.new .invalidData "private directory identity changed")

/-- `validate_private_file` of macOS: the held file is a regular one of the user, with no other
link to it. -/
def validatePrivateFile (operation : String) : LogUse FileIdentity := do
  let stat ← callOr .fstat fun _ => .new .io operation
  ensure (stat.kind = .regular ∧ stat.uid = euid ∧ stat.mode = 0o600 ∧ stat.nlink = 1)
    (.new .invalidData operation)
  pure stat.identity

/-- `sync_directory`: the name of a new log is made to last before anything is appended. -/
def syncDirectory : LogUse Unit := callOr .syncDirectory fun _ => .new .io "sync private directory"

/-- `create_private_file`, which does not open the new file with `O_APPEND`. -/
def createPrivateFile : LogUse FileIdentity := do
  callOr (.createLog false) fun _ => .new .io "create controlled file"
  let identity ← validatePrivateFile euid "validate controlled file"
  callOr .syncAll fun _ => .new .io "sync controlled file"
  syncDirectory
  pure identity

/-- `secure_open_error` with `InvalidData` for a missing file: the four errors next to
`ENOENT` are `ENOTDIR`, `ELOOP`, `EACCES` and `EPERM`. -/
def secureOpenError (operation : String) : Errno → PortError
  | .noent => .new .invalidData operation
  | .other code => .new (if code ∈ [20, 62, 13, 1] then .invalidData else .io) operation
  | .exist => .new .io operation

/-- `validate_file_entry`: the file that is held is still the one under the name of the log. -/
def validateFileEntry (expected : FileIdentity) : LogUse Unit := do
  let held ← validatePrivateFile euid "revalidate held private file"
  let current ← callOr .statat (secureOpenError "revalidate private file entry")
  ensure (held = expected ∧ current.identity = expected ∧ current.kind = .regular)
    (.new .invalidData "private file identity changed")

/-- `entry_identity`: the file that has the name of the log at this moment. -/
def entryIdentity : LogUse FileIdentity := do
  let stat ← callOr .statat fun _ => .new .io "inspect private file entry"
  ensure (stat.kind = .regular) (.new .invalidData "private file entry is not regular")
  pure stat.identity

/-- The log, opened or created: the identity of the file that is held afterwards. -/
def openOrCreateLog : LogUse FileIdentity := do
  match ← call .openLog with
  | .ok () => validatePrivateFile euid "validate cleanup log file"
  | .error .noent => createPrivateFile euid
  | .error _ => throw (.new .io "open cleanup log file")

/-- `append_removal_record` of macOS: the entry is compared with the held file before the line is
written. -/
def appendRemovalRecord (logs : ValidatedDirectory) (record : RemovalLogRecord) :
    LogUse AbsolutePath := do
  let bytes ← Program.ofExcept id (recordLine toVec record)
  revalidateDirectory logs
  let identity ← openOrCreateLog euid
  let entry ← entryIdentity
  ensure (entry = identity) (.new .invalidLayout "cleanup log file entry changed before append")
  writeRecord bytes
  validateFileEntry euid identity
  syncDirectory
  revalidateDirectory logs
  Program.ofExcept (fun _ => .new .invalidData "derive cleanup log path")
    (AbsolutePath.tryFromBytes (joinPath logs.path logName))

end OnMacOs

/-! ### The file

The world of the log is the file and the descriptor that an append holds.  A write may fail
with some of the bytes written; nobody else writes, since the caller holds the lock. -/

/-- A descriptor of the log: whether it was opened with `O_APPEND`, and where its next plain write
goes. -/
structure Handle where
  append : Bool
  position : ℕ
deriving DecidableEq

/-- The log, if there is one, and the descriptor an append holds. -/
structure LogFile where
  bytes : Option (List UInt8)
  handle : Option Handle
deriving DecidableEq

/-- The bytes behind a write at a position; a hole reads as zeros. -/
def overwrite (bytes : List UInt8) (position : ℕ) (data : List UInt8) : List UInt8 :=
  bytes.take position ++ List.replicate (position - bytes.length) 0 ++ data ++
    bytes.drop (position + data.length)

/-- The file behind a write: `O_APPEND` moves to the end first. -/
def written (bytes : List UInt8) (handle : Handle) (data : List UInt8) : LogFile :=
  let position := if handle.append then bytes.length else handle.position
  ⟨some (overwrite bytes position data),
    some { handle with position := position + data.length }⟩

/-- What a call that succeeds does to the file, and what it returns. -/
def LogCall.effect (s : LogFile) : (c : LogCall) → c.Value → LogFile → Prop
  | .openLog, _, s' => s.bytes ≠ none ∧ s' = { s with handle := some ⟨true, 0⟩ }
  | .createLog append, _, s' => s.bytes = none ∧ s' = ⟨some [], some ⟨append, 0⟩⟩
  | .length, value, s' => s' = s ∧ ∃ bytes, s.bytes = some bytes ∧ value = bytes.length
  | .seekEnd back, _, s' => ∃ bytes handle, s.bytes = some bytes ∧ s.handle = some handle ∧
      back ≤ bytes.length ∧
      s' = { s with handle := some { handle with position := bytes.length - back } }
  | .readExact n, read, s' => ∃ bytes handle, s.bytes = some bytes ∧ s.handle = some handle ∧
      handle.position + n ≤ bytes.length ∧ read = (bytes.drop handle.position).take n ∧
      s' = { s with handle := some { handle with position := handle.position + n } }
  | .writeAll data, _, s' => ∃ bytes handle, s.bytes = some bytes ∧ s.handle = some handle ∧
      s' = written bytes handle data
  | _, _, s' => s' = s

/-- A write that failed part of the way: some beginning of the line has been written. -/
def LogCall.partialEffect (s : LogFile) : LogCall → LogFile → Prop
  | .writeAll data, s' => ∃ bytes handle part, s.bytes = some bytes ∧ s.handle = some handle ∧
      part <+: data ∧ s' = written bytes handle part
  | _, _ => False

/-- The world of the log: nobody else writes to the file. -/
def logEnvironment : Environment LogCall LogCall.Result LogFile where
  step s c r s' :=
    match r with
    | .ok value => c.effect s value s'
    | .error _ => s' = s ∨ (∃ value, c.effect s value s') ∨ c.partialEffect s s'

/-! ### What a success tells

`Ensures` is the specification of a part that returns, with the file in front of it and
behind it.  Its rules follow the code. -/

section Ensures

variable {α β : Type} {s : LogFile} {P : α → LogFile → Prop} {Q : β → LogFile → Prop}

/-- Whenever the part returns, its value and the file behind it are related by `P`. -/
def Ensures (P : α → LogFile → Prop) (x : LogUse α) (s : LogFile) : Prop :=
  Safe logEnvironment (fun _ _ => True) (fun outcome s' => ∀ a, outcome = .ok a → P a s') x s

/-- What a part ensures of its success is what the rest starts from. -/
theorem Ensures.bind {x : LogUse α} {f : α → LogUse β} (hx : Ensures P x s)
    (hf : ∀ a s', P a s' → Ensures Q (f a) s') : Ensures Q (x >>= f) s := by
  refine Safe.bind hx (fun a s' h => hf a s' (h a rfl)) fun e s' _ b hb => ?_
  cases hb

/-- A value at hand ensures what holds of it already. -/
theorem ensures_pure {a : α} (h : P a s) : Ensures P (pure a) s := by
  rintro _ ⟨⟩
  exact h

/-- A failure ensures anything, since it is no success. -/
theorem ensures_throw {error : PortError} : Ensures P (throw error) s := by
  rintro _ ⟨⟩

/-- A call that is reported in other terms has its effect where it returns. -/
theorem ensures_callOr {c : LogCall} {f : c.Error → PortError} :
    Ensures (fun value s' => c.effect s value s') (callOr c f) s := by
  refine ⟨trivial, fun r s' hstep => ?_⟩
  cases r with
  | ok value =>
    rintro _ ⟨⟩
    exact hstep
  | error e => rintro _ ⟨⟩

/-- A pure step that succeeds has succeeded with its value, and left the log alone. -/
theorem ensures_ofExcept {ε : Type} {f : ε → PortError} {r : Except ε α} :
    Ensures (fun a s' => r = .ok a ∧ s' = s) (Program.ofExcept f r) s := by
  cases r with
  | ok a =>
    rintro _ ⟨⟩
    exact ⟨rfl, rfl⟩
  | error e => rintro _ ⟨⟩

end Ensures

/-! ### Calls that only look

Most of the code of an append looks at identities and permissions.  One frame lemma says
that a part of such calls leaves the file and the descriptor as they were, so the proofs
about the text do not mention them. -/

/-- The calls that neither open nor move the descriptor nor write. -/
def LogCall.looks : LogCall → Bool
  | .openLog | .createLog _ | .seekEnd _ | .readExact _ | .writeAll _ => false
  | _ => true

/-- A call that only looks leaves the log as it is. -/
theorem LogCall.looks_effect {c : LogCall} (h : c.looks = true) {s s' : LogFile} {value : c.Value}
    (heffect : c.effect s value s') : s' = s := by
  cases c with
  | openLog | createLog | seekEnd | readExact | writeAll => cases h
  | length => exact heffect.1
  | openPrivateDirectory | openValidatedDirectory | fstat | statat | syncAll | syncDirectory =>
    exact heffect

/-- A call that only looks leaves it so when it fails too. -/
theorem LogCall.looks_partialEffect {c : LogCall} (h : c.looks = true) {s s' : LogFile} :
    ¬c.partialEffect s s' := by
  cases c with
  | writeAll => cases h
  | _ => exact id

/-- A part that only looks leaves the file as it was. -/
theorem ensures_of_looks {α : Type} {x : LogUse α} (hx : Only (fun c => c.looks = true) x)
    (s : LogFile) : Ensures (fun _ s' => s' = s) x s := by
  have hkept : Safe logEnvironment (fun _ _ => True) (fun _ s' => s = s') x s := by
    refine Only.safe (fun _ => rfl) (fun _ _ _ h h' => h.trans h') (fun _ _ _ => trivial) ?_ hx
    intro s₁ c r s₂ hlooks hstep
    cases r with
    | ok value => exact (LogCall.looks_effect hlooks hstep).symm
    | error e =>
      rcases hstep with hsame | ⟨value, heffect⟩ | hpartial
      · exact hsame.symm
      · exact (LogCall.looks_effect hlooks heffect).symm
      · exact (LogCall.looks_partialEffect hlooks hpartial).elim
  exact hkept.mono fun _ _ h _ _ => h.symm

/-- A single looking call only looks, also where its failure is reported in other terms. -/
theorem looks_callOr {c : LogCall} {f : c.Error → PortError} (h : c.looks = true) :
    Only (fun c => c.looks = true) (callOr c f) :=
  Only.orFail (Program.only_perform h)

/-- A check of values at hand makes no call. -/
theorem looks_ensure {p : Prop} [Decidable p] {error : PortError} :
    Only (fun c => c.looks = true) (ensure p error) := by
  unfold ensure
  split <;> trivial

/-- Requiring a value that was found makes no call. -/
theorem looks_orNotFound {α : Type} {found : Option α} :
    Only (fun c => c.looks = true) (orNotFound found) := by
  cases found <;> trivial

section Looks

variable {euid : UInt32} {expected : FileIdentity}

/-- Revalidating the directory only looks, on Linux: it is opened again and compared. -/
theorem looks_revalidatePrivateDirectory {directory : PrivateDirectory} :
    Only (fun c => c.looks = true) (OnLinux.revalidatePrivateDirectory directory) :=
  (looks_callOr rfl).bind fun _ => looks_orNotFound.bind fun _ => looks_ensure

/-- Validating the file only looks, on Linux: both its handle and its name are asked. -/
theorem looks_linux_validatePrivateFile {parent : PrivateDirectory} :
    Only (fun c => c.looks = true) (OnLinux.validatePrivateFile euid parent expected) :=
  looks_revalidatePrivateDirectory.bind fun _ => (looks_callOr rfl).bind fun _ =>
    (looks_callOr rfl).bind fun _ => looks_ensure.bind fun _ =>
      looks_revalidatePrivateDirectory

/-- Revalidating the directory only looks, on macOS: it is opened again and compared. -/
theorem looks_revalidateDirectory {directory : ValidatedDirectory} :
    Only (fun c => c.looks = true) (OnMacOs.revalidateDirectory directory) :=
  (looks_callOr rfl).bind fun _ => looks_orNotFound.bind fun _ => looks_ensure

/-- Validating the file only looks, on macOS: its handle is asked. -/
theorem looks_macOs_validatePrivateFile {operation : String} :
    Only (fun c => c.looks = true) (OnMacOs.validatePrivateFile euid operation) :=
  (looks_callOr rfl).bind fun _ => looks_ensure.bind fun _ => Program.only_pure

/-- Comparing the entry with the held file only looks. -/
theorem looks_validateFileEntry :
    Only (fun c => c.looks = true) (OnMacOs.validateFileEntry euid expected) :=
  looks_macOs_validatePrivateFile.bind fun _ => (looks_callOr rfl).bind fun _ => looks_ensure

/-- Asking for the entry's identity only looks, at what has the name now. -/
theorem looks_entryIdentity : Only (fun c => c.looks = true) OnMacOs.entryIdentity :=
  (looks_callOr rfl).bind fun _ => looks_ensure.bind fun _ => Program.only_pure

end Looks

/-! ### The end of the file

The descriptor is at the end of the text, and the last byte tells whether the last line is
torn: these two facts make a write of the separator and the line an append of one line
(`writeRecord_ensures`). -/

/-- The log holds these bytes, and a write through the descriptor goes behind them. -/
def AtEnd (bytes : List UInt8) (s : LogFile) : Prop :=
  s.bytes = some bytes ∧
    ∃ handle, s.handle = some handle ∧ (handle.append = true ∨ handle.position = bytes.length)

/-- Writing from the end of a text on appends to it. -/
theorem overwrite_length (bytes data : List UInt8) :
    overwrite bytes bytes.length data = bytes ++ data := by
  simp [overwrite]

/-- A write at the end appends, whether the descriptor appends by itself or stands there. -/
theorem AtEnd.written {bytes data : List UInt8} {s s' : LogFile} (h : AtEnd bytes s)
    (heffect : (LogCall.writeAll data).effect s () s') : s'.bytes = some (bytes ++ data) := by
  obtain ⟨hbytes, handle, hhandle, hend⟩ := h
  obtain ⟨bytes', handle', hbytes', hhandle', rfl⟩ := heffect
  obtain rfl : bytes = bytes' := Option.some.inj (hbytes.symm.trans hbytes')
  obtain rfl : handle = handle' := Option.some.inj (hhandle.symm.trans hhandle')
  have hposition : (if handle.append then bytes.length else handle.position) = bytes.length := by
    split
    · rfl
    · rename_i happend
      exact hend.resolve_left happend
  simp only [Log.written, hposition, overwrite_length]

/-- The separator a text needs before a new line. -/
def separatorOf (bytes : List UInt8) : List UInt8 :=
  if remainder newline bytes = [] then [] else [newline]

/-- **The tail.**  The last byte tells whether the text has a remainder. -/
theorem separatorOf_last {bytes : List UInt8} (hne : bytes ≠ []) :
    separatorOf bytes = if bytes.drop (bytes.length - 1) ≠ [newline] then [newline] else [] := by
  have hlast : bytes.getLast? = some (bytes.getLast hne) := List.getLast?_eq_some_getLast hne
  rw [List.drop_length_sub_one hne]
  unfold separatorOf
  by_cases h : bytes.getLast hne = newline
  · have hnil : remainder newline bytes = [] := remainder_eq_nil (h ▸ hlast)
    simp [hnil, h]
  · have hnot : remainder newline bytes ≠ [] := remainder_ne_nil hlast h
    simp [hnot, h]

/-- The separator that is computed is the one the text needs: a newline behind a torn last line,
and nothing behind a complete one. -/
theorem tailSeparator_ensures {bytes : List UInt8} {s : LogFile} (h : AtEnd bytes s) :
    Ensures (fun separator s' => separator = separatorOf bytes ∧ AtEnd bytes s')
      (tailSeparator bytes.length) s := by
  unfold tailSeparator
  split
  · rename_i hlength
    have hne : bytes ≠ [] := fun he => hlength (he ▸ rfl)
    refine ensures_callOr.bind fun _ s₁ hseek => ?_
    refine ensures_callOr.bind fun tail s₂ hread => ?_
    obtain ⟨hbytes, handle, hhandle, hend⟩ := h
    obtain ⟨bytes₁, handle₁, hbytes₁, hhandle₁, hback, rfl⟩ := hseek
    obtain rfl : bytes = bytes₁ := Option.some.inj (hbytes.symm.trans hbytes₁)
    obtain ⟨bytes₂, handle₂, hbytes₂, hhandle₂, hinside, rfl, rfl⟩ := hread
    obtain rfl : bytes = bytes₂ := Option.some.inj (hbytes.symm.trans hbytes₂)
    cases Option.some.inj hhandle₂
    have htail : (bytes.drop (bytes.length - 1)).take 1 = bytes.drop (bytes.length - 1) := by
      refine List.take_of_length_le ?_
      rw [List.length_drop]
      omega
    have hposition : bytes.length - 1 + 1 = bytes.length := by omega
    refine ensures_pure ⟨?_, hbytes, _, rfl, .inr hposition⟩
    rw [separatorOf_last hne]
    simp only [htail]
  · rename_i hlength
    obtain rfl : bytes = [] := List.length_eq_zero_iff.mp (not_not.mp hlength)
    exact ensures_pure ⟨rfl, h⟩

/-- The record goes behind the text and the separator it needs. -/
theorem writeRecord_ensures {bytes data : List UInt8} {s : LogFile} (h : AtEnd bytes s) :
    Ensures (fun _ s' => s'.bytes = some (bytes ++ (separatorOf bytes ++ data)))
      (writeRecord data) s := by
  refine ensures_callOr.bind fun length s₁ hlength => ?_
  obtain ⟨rfl, bytes', hbytes', rfl⟩ := hlength
  obtain rfl : bytes = bytes' := Option.some.inj (h.1.symm.trans hbytes')
  refine (tailSeparator_ensures h).bind fun separator s₂ hseparator => ?_
  obtain ⟨rfl, hend⟩ := hseparator
  refine ensures_callOr.bind fun _ s₃ hwrite => ?_
  refine (ensures_of_looks (looks_callOr rfl) s₃).mono fun outcome s₄ hsync a ha => ?_
  rw [hsync a ha]
  exact hend.written hwrite

/-! ### Opening

The two platforms reach the end of the file in different ways, by `O_APPEND` and by moving
the descriptor; behind the opening they are in the same situation, `AtEnd`. -/

/-- What a log holds that may be missing: nothing, before it is created. -/
def contents (before : Option (List UInt8)) : List UInt8 := before.getD []

/-- Opening an existing log, or creating one, leaves the descriptor at its end. -/
theorem atEnd_of_openLog {before : Option (List UInt8)} {s s' : LogFile} (h : s.bytes = before)
    (heffect : LogCall.openLog.effect s () s') : AtEnd (contents before) s' := by
  obtain ⟨hbytes, rfl⟩ := heffect
  obtain ⟨bytes, hsome⟩ := Option.ne_none_iff_exists'.mp hbytes
  refine ⟨?_, _, rfl, .inl rfl⟩
  rw [← h, contents, hsome, Option.getD_some]

/-- A log that has just been created is at its end. -/
theorem atEnd_of_createLog {before : Option (List UInt8)} {append : Bool} {s s' : LogFile}
    (h : s.bytes = before) (heffect : (LogCall.createLog append).effect s () s') :
    AtEnd (contents before) s' := by
  obtain ⟨hnone, rfl⟩ := heffect
  rw [← h, hnone]
  exact ⟨rfl, _, rfl, .inr rfl⟩

/-- A failed open leaves the bytes of the log. -/
theorem bytes_of_openLog_error {error : Errno} {s s' : LogFile}
    (hstep : logEnvironment.step s .openLog (.error error) s') : s'.bytes = s.bytes := by
  rcases hstep with rfl | ⟨_, _, rfl⟩ | hpartial
  · rfl
  · rfl
  · exact False.elim hpartial

/-- Behind the opening on Linux the log has what it had, and the next write goes to its end.  A log
that is missing is created empty, and one that is there keeps its bytes; on Linux the descriptor
appends by itself. -/
theorem linux_openOrCreateLog_ensures {s : LogFile} :
    Ensures (fun _ s' => AtEnd (contents s.bytes) s') OnLinux.openOrCreateLog s := by
  have hstat : ∀ s₁, AtEnd (contents s.bytes) s₁ →
      Ensures (fun _ s' => AtEnd (contents s.bytes) s') (do
        let stat ← callOr .fstat fun _ => .new .io "inspect cleanup log file"
        pure stat.identity) s₁ := by
    intro s₁ h
    refine ensures_callOr.bind fun stat s₂ hsame => ensures_pure ?_
    rw [show s₂ = s₁ from hsame]
    exact h
  refine ⟨trivial, fun r s₁ hstep => ?_⟩
  rcases r with error | ⟨⟩
  · have hkept := bytes_of_openLog_error hstep
    cases error with
    | noent =>
      refine ensures_callOr.bind fun _ s₂ hcreate => hstat s₂ ?_
      exact atEnd_of_createLog hkept hcreate
    | exist => rintro _ ⟨⟩
    | other code => rintro _ ⟨⟩
  · exact hstat s₁ (atEnd_of_openLog rfl hstep)

/-- Behind the opening on macOS too: the descriptor is moved to the end, since it does not append
by itself.  A log that is missing is created empty, and one that is there keeps its bytes. -/
theorem macOs_openOrCreateLog_ensures {euid : UInt32} {s : LogFile} :
    Ensures (fun _ s' => AtEnd (contents s.bytes) s') (OnMacOs.openOrCreateLog euid) s := by
  refine ⟨trivial, fun r s₁ hstep => ?_⟩
  rcases r with error | ⟨⟩
  · have hkept := bytes_of_openLog_error hstep
    cases error with
    | noent =>
      refine ensures_callOr.bind fun _ s₂ hcreate => ?_
      have hlooks : Only (fun c => c.looks = true) (do
          let identity ← OnMacOs.validatePrivateFile euid "validate controlled file"
          callOr .syncAll fun _ => .new .io "sync controlled file"
          OnMacOs.syncDirectory
          pure identity) :=
        looks_macOs_validatePrivateFile.bind fun _ => (looks_callOr rfl).bind fun _ =>
          (looks_callOr rfl).bind fun _ => Program.only_pure
      refine (ensures_of_looks hlooks s₂).mono fun outcome s₃ hsame a ha => ?_
      rw [hsame a ha]
      exact atEnd_of_createLog hkept hcreate
    | exist => exact ensures_throw
    | other code => exact ensures_throw
  · refine (ensures_of_looks looks_macOs_validatePrivateFile s₁).mono fun _ s₂ hsame a ha => ?_
    rw [hsame a ha]
    exact atEnd_of_openLog rfl hstep

/-! ### Appending

The text behind a success is the text before, a separator where one was needed, and the
line.  Read as lines, this is the old lines, the torn remainder as a line of its own, and
one new line. -/

/-- What a text has become when a line was appended to it: the earlier bytes stand, the
remainder became a line of its own, and the line is the last one. -/
structure Appended (before line after : List UInt8) : Prop where
  kept : before <+: after
  lines : lines newline after = lines newline before ++
    (if remainder newline before = [] then [] else [remainder newline before]) ++ [line]
  terminated : remainder newline after = []

/-- A separator where one is needed, and the line behind it. -/
theorem appended_of_separator {before line : List UInt8} (hline : newline ∉ line) :
    Appended before line (before ++ (separatorOf before ++ (line ++ [newline]))) := by
  unfold separatorOf
  split
  · rename_i hnil
    refine ⟨List.prefix_append _ _, ?_, ?_⟩
    · rw [List.nil_append, lines_append_line hline hnil, if_pos hnil, List.append_nil]
    · rw [List.nil_append, ← List.append_assoc, remainder_append_terminator]
  · rename_i hsome
    have hended : remainder newline (before ++ [newline]) = [] := remainder_append_terminator
    refine ⟨List.prefix_append _ _, ?_, ?_⟩
    · rw [← List.append_assoc, lines_append_line hline hended, lines_append_terminator,
        if_neg hsome]
    · rw [← List.append_assoc, ← List.append_assoc, remainder_append_terminator]

section Platforms

variable {toVec : Serializer} {euid : UInt32} {record : RemovalLogRecord} {s : LogFile}

/-- The log behind a success, in bytes: what it held, a separator if its last line was torn, and
the record's line. -/
def Recorded (toVec : Serializer) (record : RemovalLogRecord) (before : Option (List UInt8))
    (s' : LogFile) : Prop :=
  ∃ line, recordLine toVec record = .ok line ∧
    s'.bytes = some (contents before ++ (separatorOf (contents before) ++ line))

/-- **An append on Linux that succeeds has recorded its line**, whatever its checks were shown.
The checks before and behind the write only look; the write puts the separator that is needed and
the line to the end. -/
theorem linux_appendRemovalRecord_ensures {logs : PrivateDirectory} :
    Ensures (fun _ s' => Recorded toVec record s.bytes s')
      (OnLinux.appendRemovalRecord toVec euid logs record) s := by
  refine ensures_ofExcept.bind fun line s₁ h₁ => ?_
  obtain ⟨hline, rfl⟩ := h₁
  refine (ensures_of_looks looks_revalidatePrivateDirectory s₁).bind ?_
  rintro _ s₂ rfl
  refine linux_openOrCreateLog_ensures.bind fun identity s₃ hopen => ?_
  refine (ensures_of_looks looks_linux_validatePrivateFile s₃).bind ?_
  rintro _ s₄ rfl
  refine (writeRecord_ensures hopen).bind fun _ s₅ hwritten => ?_
  have hlooks : Only (fun c => c.looks = true) (do
      OnLinux.validatePrivateFile euid logs identity
      callOr .syncDirectory fun _ => .new .io "sync Linux control directory"
      OnLinux.revalidatePrivateDirectory logs
      Program.ofExcept (fun _ => .new .invalidLayout "derive cleanup log path")
        (AbsolutePath.tryFromBytes (joinPath logs.path logName))) :=
    looks_linux_validatePrivateFile.bind fun _ => (looks_callOr rfl).bind fun _ =>
      looks_revalidatePrivateDirectory.bind fun _ => Program.only_ofExcept
  refine (ensures_of_looks hlooks s₅).mono fun _ s₆ hsame path hpath => ?_
  rw [hsame path hpath]
  exact ⟨line, hline, hwritten⟩

/-- **An append on macOS that succeeds has recorded its line**, behind the same separator.  The
checks before and behind the write only look. -/
theorem macOs_appendRemovalRecord_ensures {logs : ValidatedDirectory} :
    Ensures (fun _ s' => Recorded toVec record s.bytes s')
      (OnMacOs.appendRemovalRecord toVec euid logs record) s := by
  refine ensures_ofExcept.bind fun line s₁ h₁ => ?_
  obtain ⟨hline, rfl⟩ := h₁
  refine (ensures_of_looks looks_revalidateDirectory s₁).bind ?_
  rintro _ s₂ rfl
  refine macOs_openOrCreateLog_ensures.bind fun identity s₃ hopen => ?_
  refine (ensures_of_looks looks_entryIdentity s₃).bind ?_
  rintro entry s₄ rfl
  refine (ensures_of_looks looks_ensure s₄).bind ?_
  rintro _ s₅ rfl
  refine (writeRecord_ensures hopen).bind fun _ s₆ hwritten => ?_
  have hlooks : Only (fun c => c.looks = true) (do
      OnMacOs.validateFileEntry euid identity
      OnMacOs.syncDirectory
      OnMacOs.revalidateDirectory logs
      Program.ofExcept (fun _ => .new .invalidData "derive cleanup log path")
        (AbsolutePath.tryFromBytes (joinPath logs.path logName))) :=
    looks_validateFileEntry.bind fun _ => (looks_callOr rfl).bind fun _ =>
      looks_revalidateDirectory.bind fun _ => Program.only_ofExcept
  refine (ensures_of_looks hlooks s₆).mono fun _ s₇ hsame path hpath => ?_
  rw [hsame path hpath]
  exact ⟨line, hline, hwritten⟩

end Platforms

/-- A recorded record is one line of the log. -/
theorem Recorded.appended {toVec : Serializer} {record : RemovalLogRecord}
    {before : Option (List UInt8)} {s' : LogFile} (htoVec : SingleLine toVec)
    (h : Recorded toVec record before s') :
    ∃ text after, toVec (recordValue record) = some text ∧ s'.bytes = some after ∧
      Appended (contents before) text after := by
  obtain ⟨line, hline, hbytes⟩ := h
  obtain ⟨text, htext, rfl⟩ := recordLine_ok hline
  exact ⟨text, _, htext, hbytes, appended_of_separator (htoVec _ _ htext)⟩

/-- **An append adds one line.**  Whatever the log held, missing, empty, or ending in the
middle of a record, a successful append on either platform leaves every earlier line as
it was, the torn remainder as a line of its own, and the new record as the last line. -/
theorem append_keeps_lines (toVec : Serializer) (euid : UInt32) (htoVec : SingleLine toVec)
    (record : RemovalLogRecord) (s s' : LogFile) (path : AbsolutePath) :
    (∀ logs, Returns logEnvironment (OnLinux.appendRemovalRecord toVec euid logs record) s
        (.ok path) s' →
      ∃ text after, toVec (recordValue record) = some text ∧ s'.bytes = some after ∧
        Appended (contents s.bytes) text after) ∧
    (∀ logs, Returns logEnvironment (OnMacOs.appendRemovalRecord toVec euid logs record) s
        (.ok path) s' →
      ∃ text after, toVec (recordValue record) = some text ∧ s'.bytes = some after ∧
        Appended (contents s.bytes) text after) := by
  constructor
  · intro logs run
    exact (linux_appendRemovalRecord_ensures.of_returns run path rfl).appended htoVec
  · intro logs run
    exact (macOs_appendRemovalRecord_ensures.of_returns run path rfl).appended htoVec

/-! ### A torn log

A log whose last record was cut off by a crash.  The answers of the sample world are
computed from the file, so both appends are evaluated to the text they leave. -/

/-- The log directory `/l` of the sample, as it is held. -/
def logsDirectory : PrivateDirectory := ⟨(samplePath 11).asBytes, ⟨⟨1, 2⟩, 1, 0⟩⟩

/-- The same directory as it is held on macOS. -/
def validatedLogs : ValidatedDirectory := ⟨logsDirectory.path, logsDirectory.identity.file⟩

/-- The log file, which belongs to the user. -/
def logStat : Stat := ⟨⟨1, 3⟩, .regular, 0o600, 0, 1⟩

/-- A world where every call on the log succeeds that can. -/
def respond (s : LogFile) : (c : LogCall) → c.Result × LogFile
  | .openPrivateDirectory _ => (.ok (some logsDirectory), s)
  | .openValidatedDirectory _ => (.ok (some validatedLogs), s)
  | .openLog =>
    match s.bytes with
    | some _ => (.ok (), { s with handle := some ⟨true, 0⟩ })
    | none => (.error .noent, s)
  | .createLog append =>
    match s.bytes with
    | some _ => (.error .exist, s)
    | none => (.ok (), ⟨some [], some ⟨append, 0⟩⟩)
  | .fstat | .statat => (.ok logStat, s)
  | .length =>
    match s.bytes with
    | some bytes => (.ok bytes.length, s)
    | none => (.error (.other 0), s)
  | .seekEnd back =>
    match s.bytes, s.handle with
    | some bytes, some handle =>
      if back ≤ bytes.length then
        (.ok (), { s with handle := some { handle with position := bytes.length - back } })
      else (.error (.other 0), s)
    | _, _ => (.error (.other 0), s)
  | .readExact n =>
    match s.bytes, s.handle with
    | some bytes, some handle =>
      if handle.position + n ≤ bytes.length then
        (.ok ((bytes.drop handle.position).take n),
          { s with handle := some { handle with position := handle.position + n } })
      else (.error (.other 0), s)
    | _, _ => (.error (.other 0), s)
  | .writeAll data =>
    match s.bytes, s.handle with
    | some bytes, some handle => (.ok (), written bytes handle data)
    | _, _ => (.error (.other 0), s)
  | .syncAll | .syncDirectory => (.ok (), s)

/-- The answers of the sample world are steps of the environment.  There is one case for each call.
-/
theorem respond_step (s : LogFile) (c : LogCall) :
    logEnvironment.step s c (respond s c).1 (respond s c).2 := by
  obtain ⟨bytes, handle⟩ := s
  cases c with
  | openPrivateDirectory | openValidatedDirectory | fstat | statat | syncAll | syncDirectory => rfl
  | openLog =>
    cases bytes with
    | none => exact .inl rfl
    | some bytes => exact ⟨nofun, rfl⟩
  | createLog append =>
    cases bytes with
    | none => exact ⟨rfl, rfl⟩
    | some bytes => exact .inl rfl
  | length =>
    cases bytes with
    | none => exact .inl rfl
    | some bytes => exact ⟨rfl, bytes, rfl, rfl⟩
  | seekEnd back =>
    rcases bytes with _ | bytes <;> rcases handle with _ | handle <;> try exact .inl rfl
    simp only [respond]
    split
    · rename_i h
      exact ⟨bytes, handle, rfl, rfl, h, rfl⟩
    · exact .inl rfl
  | readExact n =>
    rcases bytes with _ | bytes <;> rcases handle with _ | handle <;> try exact .inl rfl
    simp only [respond]
    split
    · rename_i h
      exact ⟨bytes, handle, rfl, rfl, h, rfl, rfl⟩
    · exact .inl rfl
  | writeAll data =>
    rcases bytes with _ | bytes <;> rcases handle with _ | handle <;> try exact .inl rfl
    exact ⟨bytes, handle, rfl, rfl, rfl⟩

/-- The record of a removal that starts, with nothing inspected yet. -/
def startedRecord : RemovalLogRecord where
  occurredAt := sampleStart
  operationId := ⟨sampleUuid 4⟩
  workspaceId := sampleReservation.workspaceId
  event := .started
  mode := .force
  gitState := .unknown
  gitCheckComplete := false
  repositories := []
  processUse := none
  protection := none
  errorCode := none
  outcome := none

/-- A line and the beginning of a record behind it. -/
def tornText : List UInt8 := asBytes "\x7b\x7d\n\x7b\"event\":"

/-- The line of the record, as a compact printer would write it. -/
def startedText : List UInt8 := compact (recordValue startedRecord)

/-- The log behind the append: the torn line closed by a newline, and the new line after it. -/
def repairedLog : LogFile :=
  written tornText ⟨true, tornText.length⟩ (newline :: startedText ++ [newline])

/-- The line of the sample record is its compact document and a newline. -/
theorem recordLine_started :
    recordLine compactSerializer startedRecord = .ok (startedText ++ [newline]) := rfl

/-- The directory of the sample and the name of the log are proper components. -/
theorem normal_logName : ∀ c ∈ [[(108 : UInt8)], asBytes logName], AbsolutePath.Normal c := by
  simp only [List.forall_mem_cons, List.not_mem_nil, false_implies, implies_true, and_true]
  exact ⟨⟨by decide, by decide, by decide⟩, ⟨by decide, by decide, by decide⟩⟩

/-- The path of the sample log is an absolute path. -/
theorem validatePath_logPath : validatePath (joinPath logsDirectory.path logName) = .ok () := by
  have hjoin := AbsolutePath.validatePath_join normal_logName (List.cons_ne_nil _ _)
  exact hjoin

/-- The path of the log in that directory. -/
def logPath : AbsolutePath := ⟨joinPath logsDirectory.path logName, validatePath_logPath⟩

/-- On Linux the sample append returns the log's path and leaves the repaired log. -/
theorem execute_torn :
    Program.execute respond
      (OnLinux.appendRemovalRecord compactSerializer 0 logsDirectory startedRecord)
      ⟨some tornText, none⟩ = (.ok logPath, repairedLog) := by
  have hpath : AbsolutePath.tryFromBytes (joinPath logsDirectory.path logName) = .ok logPath :=
    AbsolutePath.tryFromBytes_asBytes logPath
  unfold OnLinux.appendRemovalRecord
  rw [recordLine_started, hpath]
  rfl

/-- The append to a log that ends in the middle of a record. -/
theorem returns_torn :
    Returns logEnvironment
      (OnLinux.appendRemovalRecord compactSerializer 0 logsDirectory startedRecord)
      ⟨some tornText, none⟩ (.ok logPath) repairedLog := by
  have hrun := Program.returns_execute respond_step
    (OnLinux.appendRemovalRecord compactSerializer 0 logsDirectory startedRecord)
    ⟨some tornText, none⟩
  rwa [execute_torn] at hrun

/-- On macOS the sample append does the same: the torn line is closed, and the record stands behind
it. -/
theorem execute_torn_macOs :
    Program.execute respond
      (OnMacOs.appendRemovalRecord compactSerializer 0 validatedLogs startedRecord)
      ⟨some tornText, none⟩ = (.ok logPath, repairedLog) := by
  have hpath : AbsolutePath.tryFromBytes (joinPath validatedLogs.path logName) = .ok logPath :=
    AbsolutePath.tryFromBytes_asBytes logPath
  unfold OnMacOs.appendRemovalRecord
  rw [recordLine_started, hpath]
  rfl

/-- The same append on macOS, which leaves the same log. -/
theorem returns_torn_macOs :
    Returns logEnvironment
      (OnMacOs.appendRemovalRecord compactSerializer 0 validatedLogs startedRecord)
      ⟨some tornText, none⟩ (.ok logPath) repairedLog := by
  have hrun := Program.returns_execute respond_step
    (OnMacOs.appendRemovalRecord compactSerializer 0 validatedLogs startedRecord)
    ⟨some tornText, none⟩
  rwa [execute_torn_macOs] at hrun

/-- The beginning of the record becomes a line of its own, on either platform, and the record that
is appended is the line behind it. -/
theorem append_keeps_lines_torn :
    (∃ text after, compactSerializer (recordValue startedRecord) = some text ∧
      repairedLog.bytes = some after ∧ Appended tornText text after) ∧
    ∃ text after, compactSerializer (recordValue startedRecord) = some text ∧
      repairedLog.bytes = some after ∧ Appended tornText text after := by
  obtain ⟨hlinux, hmacOs⟩ := append_keeps_lines compactSerializer 0 compact_singleLine
    startedRecord ⟨some tornText, none⟩ repairedLog logPath
  exact ⟨hlinux logsDirectory returns_torn, hmacOs validatedLogs returns_torn_macOs⟩

end Log
end ThinWorkspace
