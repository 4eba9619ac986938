/-
# Workspace records and their state machine

Source: `crates/thinws-core/src/workspace.rs`, `time.rs`, `installation.rs` and
the error codes of `diagnostic.rs`.  `WorkspaceState.transition` is the decision
table of the source, row by row; `transition_eq_ok_iff` says once what it allows.

A record carries the two relations that its constructor checks, so that no later step proves
them again.
-/

import Mathlib.Data.Int.Notation
import ThinWorkspace.Core.Id
import ThinWorkspace.Core.Name
import ThinWorkspace.Core.Path

namespace ThinWorkspace
namespace Core

/-! ### Time

A time is a count of milliseconds that is not negative; the bounds are fields of
`UnixMillis`, so a record cannot hold a time that the schema would refuse. -/

/-- `i64::MAX`: the last moment that can be represented, in milliseconds. -/
def i64Max : ℤ := 9223372036854775807

/-- `UnixMillis`: a signed 64-bit millisecond count that is not negative. -/
structure UnixMillis where
  get : ℤ
  nonneg : 0 ≤ get
  le_i64Max : get ≤ i64Max
deriving DecidableEq

/-- `UnixMillis::new`, on a value of the source's type `i64`. -/
def UnixMillis.new (value : ℤ) : Option UnixMillis :=
  if h : 0 ≤ value ∧ value ≤ i64Max then some ⟨value, h.1, h.2⟩ else none

/-- A time is accepted as itself, since its bounds are part of it. -/
@[simp] theorem UnixMillis.new_get (t : UnixMillis) : UnixMillis.new t.get = some t := by
  rw [UnixMillis.new, dif_pos ⟨t.nonneg, t.le_i64Max⟩]

/-! ### Error codes

The codes are a closed list, each with the text that it is printed and stored by.  Reading
the text of a code gives the code back, which is an evaluation over the list. -/

/-- `ErrorCode`: what a user is told went wrong, as a fixed list that other programs may rely on.
-/
inductive ErrorCode where
  | usage | notInitialized | capabilityUnavailable | cowUnavailable | nameConflict
  | workspaceNotFound | workspaceNotReady | workspaceDirty | workspaceBusy
  | gitCheckIncomplete | git | filesystem | controlUnavailable | controlLayout
  | controlNotEmpty | targetLayout | targetConflict | targetExists | metadata
  | targetMissing | targetIdentity | workspaceIncomplete | lockTimeout
deriving DecidableEq

namespace ErrorCode

/-- `ErrorCode::ALL`, in the documented order; no code is missing from it. -/
def all : List ErrorCode :=
  [usage, notInitialized, capabilityUnavailable, cowUnavailable, nameConflict,
    workspaceNotFound, workspaceNotReady, workspaceDirty, workspaceBusy, gitCheckIncomplete,
    git, filesystem, controlUnavailable, controlLayout, controlNotEmpty, targetLayout,
    targetConflict, targetExists, metadata, targetMissing, targetIdentity,
    workspaceIncomplete, lockTimeout]

/-- `ErrorCode::as_str`: the text under which a code is printed and stored. -/
def asStr : ErrorCode → String
  | usage => "E_USAGE"
  | notInitialized => "E_NOT_INITIALIZED"
  | capabilityUnavailable => "E_CAPABILITY_UNAVAILABLE"
  | cowUnavailable => "E_COW_UNAVAILABLE"
  | nameConflict => "E_NAME_CONFLICT"
  | workspaceNotFound => "E_WORKSPACE_NOT_FOUND"
  | workspaceNotReady => "E_WORKSPACE_NOT_READY"
  | workspaceDirty => "E_WORKSPACE_DIRTY"
  | workspaceBusy => "E_WORKSPACE_BUSY"
  | gitCheckIncomplete => "E_GIT_CHECK_INCOMPLETE"
  | git => "E_GIT"
  | filesystem => "E_FILESYSTEM"
  | controlUnavailable => "E_CONTROL_UNAVAILABLE"
  | controlLayout => "E_CONTROL_LAYOUT"
  | controlNotEmpty => "E_CONTROL_NOT_EMPTY"
  | targetLayout => "E_TARGET_LAYOUT"
  | targetConflict => "E_TARGET_CONFLICT"
  | targetExists => "E_TARGET_EXISTS"
  | metadata => "E_METADATA"
  | targetMissing => "E_TARGET_MISSING"
  | targetIdentity => "E_TARGET_IDENTITY"
  | workspaceIncomplete => "E_WORKSPACE_INCOMPLETE"
  | lockTimeout => "E_LOCK_TIMEOUT"

/-- `FromStr for ErrorCode`: the first code of the list that has this text. -/
def fromStr (value : String) : Option ErrorCode :=
  all.find? fun code => code.asStr == value

/-- A code is read back from its text, so that what is stored in a row can be read again. -/
@[simp] theorem fromStr_asStr (code : ErrorCode) : fromStr code.asStr = some code := by
  cases code <;> decide

end ErrorCode

/-! ### Lifecycle state

The state machine of a workspace, as the domain has it.  The schema has the same machine as
a trigger on the column of the state; that the two agree is a theorem about the store, and
the three lemmas here are the rows of the table that it and the callers use. -/

/-- `WorkspaceState`: where a workspace is in its life.  A deleted workspace has no state, only a
tombstone. -/
inductive WorkspaceState where
  | creating
  | ready
  | deleting
  | error
deriving DecidableEq

/-- `RemovalMode`: whether a removal respects what the inspection finds, or is forced. -/
inductive RemovalMode where
  | normal
  | force
deriving DecidableEq

/-- `WorkspaceEvent`: what can happen to a workspace, as far as its state is concerned. -/
inductive WorkspaceEvent where
  | materialized
  | failed
  | beginRemoval (mode : RemovalMode)
deriving DecidableEq

/-- `WorkspaceTransitionError`: the event that the state does not allow. -/
structure WorkspaceTransitionError where
  current : WorkspaceState
  event : WorkspaceEvent
deriving DecidableEq

namespace WorkspaceState

/-- `WorkspaceState::as_str`: the text in the column of the row. -/
def asStr : WorkspaceState → String
  | creating => "creating"
  | ready => "ready"
  | deleting => "deleting"
  | error => "error"

/-- `FromStr for WorkspaceState`: the four texts, and no other spelling of them. -/
def fromStr (value : String) : Option WorkspaceState :=
  if value = "creating" then some creating
  else if value = "ready" then some ready
  else if value = "deleting" then some deleting
  else if value = "error" then some error
  else none

/-- A state is read back from its text, as a code is. -/
@[simp] theorem fromStr_asStr (state : WorkspaceState) : fromStr state.asStr = some state := by
  cases state <;> decide

/-- Different states have different texts, since each is read back from its own. -/
theorem asStr_injective : Function.Injective asStr := fun a b h => by
  have := congrArg fromStr h
  simpa using this

/-- States are equal exactly if their texts are: a comparison of columns is one of states. -/
@[simp] theorem asStr_inj {a b : WorkspaceState} : a.asStr = b.asStr ↔ a = b :=
  asStr_injective.eq_iff

/-- `WorkspaceState::transition`: the table of the source, row by row.  A removal that is forced
may begin in any state, another one only in Ready. -/
def transition (current : WorkspaceState) (event : WorkspaceEvent) :
    Except WorkspaceTransitionError WorkspaceState :=
  match current, event with
  | creating, .materialized => .ok ready
  | creating, .failed => .ok error
  | ready, .failed => .ok error
  | deleting, .failed => .ok error
  | ready, .beginRemoval _ => .ok deleting
  | creating, .beginRemoval .force => .ok deleting
  | deleting, .beginRemoval .force => .ok deleting
  | error, .beginRemoval .force => .ok deleting
  | current, event => .error ⟨current, event⟩

/-- A failure is recorded from every state but `error`. -/
theorem transition_failed {current next : WorkspaceState}
    (h : current.transition .failed = .ok next) : next = error ∧ current ≠ error := by
  cases current <;> cases h <;> simp

/-- Removal always leads to `deleting`; without force only from `ready`. -/
theorem transition_beginRemoval {current next : WorkspaceState} {mode : RemovalMode}
    (h : current.transition (.beginRemoval mode) = .ok next) :
    next = deleting ∧ (mode = .normal → current = ready) := by
  cases current <;> cases mode <;> simp_all [transition]

/-- Only a workspace being created becomes ready. -/
theorem transition_materialized {current next : WorkspaceState}
    (h : current.transition .materialized = .ok next) : current = creating ∧ next = ready := by
  cases current <;> simp_all [transition]

end WorkspaceState

/-! ### Records

The records that the store hands out.  A `WorkspaceRecord` carries the two relations that
its constructor checks, that of the code to the state and that of the two times, so whoever
holds a record need not check them again. -/

/-- `InstallationIdentity`: the installation, the directory of its data, and the volume that this
directory lies on. -/
structure InstallationIdentity where
  instanceId : InstanceId
  dataRoot : AbsolutePath
  volumeId : VolumeId
deriving DecidableEq

/-- `InstallationRecord`: the identity with the moment of its creation. -/
structure InstallationRecord where
  identity : InstallationIdentity
  createdAt : UnixMillis
deriving DecidableEq

/-- `WorkspaceReservation`: what is fixed before anything is materialized, and never changes
afterwards. -/
structure WorkspaceReservation where
  workspaceId : WorkspaceId
  instanceId : InstanceId
  name : WorkspaceName
  sourcePath : AbsolutePath
  targetPath : AbsolutePath
  sourceVolumeId : VolumeId
  targetVolumeId : VolumeId
  allowFullCopy : Bool
  createdAt : UnixMillis
deriving DecidableEq

/-- `WorkspaceRecordError`: which of the two relations between the fields of a record fails. -/
inductive WorkspaceRecordError where
  | timestampRegression
  | errorCodeMismatch
deriving DecidableEq

/-- `WorkspaceRecord`: an active row, with the two relations its constructor
checks. -/
structure WorkspaceRecord where
  reservation : WorkspaceReservation
  state : WorkspaceState
  lastErrorCode : Option ErrorCode
  updatedAt : UnixMillis
  created_le_updated : reservation.createdAt.get ≤ updatedAt.get
  error_iff : state = .error ↔ lastErrorCode.isSome
deriving DecidableEq

/-- `WorkspaceRecord::new`: the only way to make a record; the two relations it checks are fields
of the record. -/
def WorkspaceRecord.new (reservation : WorkspaceReservation) (state : WorkspaceState)
    (lastErrorCode : Option ErrorCode) (updatedAt : UnixMillis) :
    Except WorkspaceRecordError WorkspaceRecord :=
  if ht : updatedAt.get < reservation.createdAt.get then .error .timestampRegression
  else if he : state = .error ↔ lastErrorCode.isSome then
    .ok ⟨reservation, state, lastErrorCode, updatedAt, Int.not_lt.mp ht, he⟩
  else .error .errorCodeMismatch

/-- `DeletionTombstone`: the workspace that was deleted, of which installation, and when. -/
structure DeletionTombstone where
  workspaceId : WorkspaceId
  instanceId : InstanceId
  deletedAt : UnixMillis
deriving DecidableEq

end Core
end ThinWorkspace
