/-
# Collecting the output of a child

Source: `collect_command`, `drain_pipe` and `cleanup_direct_child` in
`crates/thinws-adapter-git-cli/src/git_query.rs`, with the failures of
`crates/thinws-ports/src/git.rs`.

A `CollectCall` is a system call together with what is retained when it is made.  The
answers are those of any world (`pipes`): a read returns any chunk up to the length asked
for, an end of file or any error, and the clock, the child and `fcntl` answer as they like.
The world keeps what each pipe has delivered.

`Whole` is the invariant of the loop: what is retained of a stream is all that was read of
it.  A read past the limit ends it, with `Kept` left: a prefix no longer than the limit.
The loop has no bound of its own, so it is followed for any number of rounds.
`collect_never_truncates` is about every run.
-/

import ThinWorkspace.Git.Calls
import Mathlib.Logic.Function.Basic

namespace ThinWorkspace
namespace Git
namespace Collect

open ThinWorkspace.Lib
open Program (Issues Returns Safe)

/-! ### Failures

A failure carries what was retained of both streams and how the child ended, so nothing that
was read is lost with it. -/

/-- `OutputStream`: the two pipes of a child, which are collected side by side. -/
inductive OutputStream where
  | stdout | stderr
deriving DecidableEq

/-- `IoOperation`: the step at which a collection met an error. -/
inductive IoOperation where
  | configureStdout | configureStderr | readStdout | readStderr | pollExit
deriving DecidableEq

/-- `io::ErrorKind`, as far as it is told apart here. -/
inductive ErrorKind where
  | notFound | permissionDenied | other
deriving DecidableEq

/-- `io::Error`, as far as a failure reports it. -/
structure IoError where
  kind : ErrorKind
  rawOsError : Option Int32
deriving DecidableEq

/-- `GitQueryFailureKind`, without the failures before the start: which part of the collection
failed, or which limit it met. -/
inductive GitQueryFailureKind where
  | start (errorKind : ErrorKind) (rawOsError : Option Int32)
  | io (operation : IoOperation) (errorKind : ErrorKind) (rawOsError : Option Int32)
  | timedOut
  | outputLimitExceeded (stream : OutputStream) (limit : ℕ)
deriving DecidableEq

/-- `DirectChildExit`: whether the child was seen to end, and how. -/
inductive DirectChildExit where
  | notStarted
  | confirmed (exit : GitExit)
  | unconfirmed
deriving DecidableEq

/-- `CleanupOperation`: the step of a cleanup that met an error. -/
inductive CleanupOperation where
  | initialPoll | kill | confirmPoll
deriving DecidableEq

/-- `CleanupIoFailure`: the first error that a cleanup met. -/
structure CleanupIoFailure where
  operation : CleanupOperation
  errorKind : ErrorKind
  rawOsError : Option Int32
deriving DecidableEq

/-- `GitQueryFailure`: the failure with what was retained of both streams. -/
structure GitQueryFailure where
  kind : GitQueryFailureKind
  stdout : List UInt8
  stderr : List UInt8
  directChildExit : DirectChildExit
  cleanupIo : Option CleanupIoFailure
deriving DecidableEq

/-- `GitQueryOutput`, with both streams as they were collected. -/
structure GitQueryOutput where
  exit : GitExit
  stdout : List UInt8
  stderr : List UInt8
deriving DecidableEq

/-- `Budget`, its durations in nanoseconds: how long a child may run and be waited for, and how
much it may print. -/
structure Budget where
  runTimeout : ℕ
  cleanupTimeout : ℕ
  pollInterval : ℕ
  stdoutLimit : ℕ
  stderrLimit : ℕ

/-- The limit of a stream, past which a collection fails. -/
def Budget.limit (budget : Budget) : OutputStream → ℕ
  | .stdout => budget.stdoutLimit
  | .stderr => budget.stderrLimit

/-! ### Calls

The system calls of the loop.  Each call is recorded with what was collected when it was
made, so the history of a run shows the buffers at every moment. -/

/-- `ExitStatus`: a code, or the signal that ended the child. -/
structure ExitStatus where
  code : Option Int32
  signal : Option Int32
deriving DecidableEq

/-- What a read of a pipe fails with: an interruption and an empty pipe are no errors to the loop.
-/
inductive ReadErrno where
  | intr | again
  | other (error : IoError)

/-- A system call of a collection, as its loop makes it. -/
inductive SystemCall where
  | now
  | spawn
  | setNonblocking (stream : OutputStream)
  | read (stream : OutputStream) (length : ℕ)
  | tryWait
  | kill
  | sleep (duration : ℕ)

/-- What a call returns: reads and waits may fail, and a wait may find the child still running. -/
@[reducible] def SystemCall.Result : SystemCall → Type
  | .now => ℕ
  | .spawn | .setNonblocking _ | .kill => Except IoError Unit
  | .read _ _ => Except ReadErrno (List UInt8)
  | .tryWait => Except IoError (Option ExitStatus)
  | .sleep _ => Unit

/-- The pipe of a stream, as long as it is held, and the vector it is drained into. -/
structure Channel where
  pipe : Bool
  output : List UInt8

/-- Both streams, each with its pipe and what is retained of it. -/
abbrev Channels := OutputStream → Channel

/-- A call with what is retained when it is made. -/
structure CollectCall where
  call : SystemCall
  retained : Channels

/-- What a run ends with besides an output: a failure, or nothing yet after the rounds for
which it was followed. -/
inductive Stop where
  | failed (failure : GitQueryFailure)
  | unfinished

/-- A collection, or a part of one: it ends with an output, with a failure, or because the rounds
of the model are over. -/
abbrev Collecting (α : Type) := Program CollectCall (fun c => c.call.Result) Stop α

/-- Makes a call, and records beside it what was collected at that moment. -/
abbrev ask (channels : Channels) (c : SystemCall) : Collecting c.Result :=
  Program.perform (CollectCall.mk c channels)

/-! ### The child after a failure

A child that has not ended is killed and waited for, and the first error that the cleanup
meets is kept. -/

/-- `git_exit`: the exit as it is reported, with the code or the signal. -/
def gitExit (status : ExitStatus) : GitExit := ⟨status.code, status.signal⟩

/-- `retain_cleanup_io_error`: the first error is kept, since the later ones may follow from it. -/
def retainCleanupIoError (retained : Option CleanupIoFailure) (operation : CleanupOperation)
    (error : IoError) : Option CleanupIoFailure :=
  match retained with
  | some failure => some failure
  | none => some ⟨operation, error.kind, error.rawOsError⟩

/-- `CleanupEvidence`: how the child ended and what the cleanup met. -/
structure CleanupEvidence where
  exit : DirectChildExit
  ioFailure : Option CleanupIoFailure

/-- The error of a poll, if it is the first. -/
def retainPollError (retained : Option CleanupIoFailure) (operation : CleanupOperation) :
    Except IoError (Option ExitStatus) → Option CleanupIoFailure
  | .ok _ => retained
  | .error error => retainCleanupIoError retained operation error

/-- The loop of `cleanup_direct_child` after the kill: it polls until the child is seen to end, or
its deadline. -/
def confirmExit (budget : Budget) (channels : Channels) (deadline : ℕ) :
    ℕ → Option CleanupIoFailure → Collecting CleanupEvidence
  | 0, _ => throw .unfinished
  | rounds + 1, ioFailure => do
    let polled ← ask channels .tryWait
    match polled with
    | .ok (some status) => pure ⟨.confirmed (gitExit status), ioFailure⟩
    | _ => do
      let now ← ask channels .now
      if deadline ≤ now then
        pure ⟨.unconfirmed, retainPollError ioFailure .confirmPoll polled⟩
      else do
        ask channels (.sleep (min budget.pollInterval (deadline - now)))
        confirmExit budget channels deadline rounds
          (retainPollError ioFailure .confirmPoll polled)

/-- `cleanup_direct_child`: a child that has not ended is killed and waited for, and what is
reported says whether its end was seen. -/
def cleanupDirectChild (budget : Budget) (rounds : ℕ) (channels : Channels) :
    Option ExitStatus → Collecting CleanupEvidence
  | some status => pure ⟨.confirmed (gitExit status), none⟩
  | none => do
    let polled ← ask channels .tryWait
    match polled with
    | .ok (some status) => pure ⟨.confirmed (gitExit status), none⟩
    | _ => do
      let polledFailure := retainPollError none .initialPoll polled
      let killed ← ask channels .kill
      let ioFailure := match killed with
        | .ok () => polledFailure
        | .error error => retainCleanupIoError polledFailure .kill error
      let now ← ask channels .now
      confirmExit budget channels (now + budget.cleanupTimeout) rounds ioFailure

/-- `fail_after_child`: the child is cleaned up, and the failure carries everything that was
collected before it. -/
def failAfterChild {α : Type} (budget : Budget) (rounds : ℕ) (channels : Channels)
    (status : Option ExitStatus) (kind : GitQueryFailureKind) : Collecting α := do
  let cleanup ← cleanupDirectChild budget rounds channels status
  throw (.failed ⟨kind, (channels .stdout).output, (channels .stderr).output, cleanup.exit,
    cleanup.ioFailure⟩)

/-- `fail_with_io`: the same, for an operation of the collection that failed. -/
def failWithIo {α : Type} (budget : Budget) (rounds : ℕ) (channels : Channels)
    (status : Option ExitStatus) (operation : IoOperation) (error : IoError) : Collecting α :=
  failAfterChild budget rounds channels status (.io operation error.kind error.rawOsError)

/-! ### Draining

One pipe is drained for a bounded number of reads, so that the other has its turn.  A read
that would exceed the limit ends the collection. -/

/-- `MAX_DRAIN_READS`: so many reads of one pipe follow one another before the other pipe has its
turn. -/
def maxDrainReads : ℕ := 16

/-- The length of the buffer of `drain_pipe`, which bounds what one read returns. -/
def bufferLength : ℕ := 8192

/-- `DrainResult`: whether the pipe may deliver more, has ended, or delivered too much. -/
inductive DrainResult where
  | open | closed | limitExceeded
deriving DecidableEq

/-- The end of file was read: the pipe is dropped, and its output stays. -/
def Channels.close (channels : Channels) (stream : OutputStream) : Channels :=
  Function.update channels stream ⟨false, (channels stream).output⟩

/-- `output.extend_from_slice`: what was read is added to what was collected. -/
def Channels.extend (channels : Channels) (stream : OutputStream) (bytes : List UInt8) :
    Channels :=
  Function.update channels stream ⟨(channels stream).pipe, (channels stream).output ++ bytes⟩

/-- The loop of `drain_pipe`, with the reads that are left.  No sum saturates below the
length of the buffer. -/
def drainPipe (stream : OutputStream) (limit : ℕ) :
    ℕ → Channels → Collecting (Except IoError DrainResult × Channels)
  | 0, channels => pure (.ok .open, channels)
  | reads + 1, channels => do
    let remaining := limit - (channels stream).output.length
    let readLength := min (remaining + 1) bufferLength
    if (channels stream).pipe = false then pure (.ok .closed, channels)
    else do
      let result ← ask channels (.read stream readLength)
      match result with
      | .ok [] => pure (.ok .closed, channels.close stream)
      | .ok (byte :: bytes) =>
        let read := (byte :: bytes).length
        let extended := channels.extend stream ((byte :: bytes).take (min read remaining))
        if remaining < read then pure (.ok .limitExceeded, extended)
        else drainPipe stream limit reads extended
      | .error .intr => drainPipe stream limit reads channels
      | .error .again => pure (.ok .open, channels)
      | .error (.other error) => pure (.error error, channels)

/-! ### `collect_command`

The rounds of the loop: both pipes, the poll of the child, and the deadline.  The number of
rounds is a parameter; a collection that needs more of them has not returned yet, which is
an outcome of its own. -/

/-- The operation that reads a stream, as a failure names it. -/
def OutputStream.readOperation : OutputStream → IoOperation
  | .stdout => .readStdout
  | .stderr => .readStderr

/-- The operation that configures a stream, as a failure names it. -/
def OutputStream.configureOperation : OutputStream → IoOperation
  | .stdout => .configureStdout
  | .stderr => .configureStderr

/-- `drain_pipe` of one stream, and what is made of its result. -/
def drainStream (budget : Budget) (rounds : ℕ) (exitStatus : Option ExitStatus)
    (stream : OutputStream) (channels : Channels) : Collecting Channels := do
  let drained ← drainPipe stream (budget.limit stream) maxDrainReads channels
  match drained.1 with
  | .ok .limitExceeded =>
    failAfterChild budget rounds drained.2 exitStatus
      (.outputLimitExceeded stream (budget.limit stream))
  | .ok _ => pure drained.2
  | .error error => failWithIo budget rounds drained.2 exitStatus stream.readOperation error

/-- The poll of the child, as long as it has not exited. -/
def pollExit (budget : Budget) (rounds : ℕ) (channels : Channels) :
    Option ExitStatus → Collecting (Option ExitStatus)
  | some status => pure (some status)
  | none => do
    let polled ← ask channels .tryWait
    match polled with
    | .ok status => pure status
    | .error error => failWithIo budget rounds channels none .pollExit error

/-- The loop of `collect_command`: both pipes are drained, the child is polled, and the loop ends
with the child and both pipes, at the deadline, or with a failure. -/
def collectLoop (budget : Budget) (deadline : ℕ) :
    ℕ → Channels → Option ExitStatus → Collecting GitQueryOutput
  | 0, _, _ => throw .unfinished
  | rounds + 1, channels, exitStatus => do
    let afterStdout ← drainStream budget rounds exitStatus .stdout channels
    let drained ← drainStream budget rounds exitStatus .stderr afterStdout
    let status ← pollExit budget rounds drained exitStatus
    let now ← ask drained .now
    if deadline ≤ now then failAfterChild budget rounds drained status .timedOut
    else
      match (drained .stdout).pipe, (drained .stderr).pipe, status with
      | false, false, some status =>
        pure ⟨gitExit status, (drained .stdout).output, (drained .stderr).output⟩
      | _, _, _ => do
        ask drained (.sleep (min budget.pollInterval (deadline - now)))
        collectLoop budget deadline rounds drained status

/-- Both pipes are held and nothing is retained. -/
def started : Channels := fun _ => ⟨true, []⟩

/-- `start_failure`: the child was never started, so nothing was collected and nothing has to be
cleaned up. -/
def startFailure (error : IoError) : GitQueryFailure :=
  ⟨.start error.kind error.rawOsError, [], [], .notStarted, none⟩

/-- `set_nonblocking` of one pipe, and what is made of its result. -/
def configure (budget : Budget) (rounds : ℕ) (stream : OutputStream) : Collecting Unit := do
  let configured ← ask started (.setNonblocking stream)
  match configured with
  | .ok () => pure ()
  | .error error => failWithIo budget rounds started none stream.configureOperation error

/-- `collect_command`, for a number of rounds of its loops. -/
def collectCommand (budget : Budget) (rounds : ℕ) : Collecting GitQueryOutput := do
  let begun ← ask started .now
  let spawned ← ask started .spawn
  match spawned with
  | .error error => throw (.failed (startFailure error))
  | .ok () => do
    configure budget rounds .stdout
    configure budget rounds .stderr
    collectLoop budget (begun + budget.runTimeout) rounds started none

/-! ### The world of the pipes

The world delivers bytes through two pipes, in chunks of any size, and everything else may
answer anything.  `Whole` and `Kept` compare what is retained with what was delivered: all
of it, or a beginning within the limit. -/

/-- What a pipe has delivered so far, and whether it has ended. -/
structure Heard where
  bytes : List UInt8
  ended : Bool

/-- What both pipes have delivered so far, whatever the collection made of it. -/
abbrev World := OutputStream → Heard

/-- A read returned these bytes, or an end of file without any. -/
def World.hear (w : World) (stream : OutputStream) (chunk : List UInt8) : World :=
  Function.update w stream ⟨(w stream).bytes ++ chunk, (w stream).ended || chunk.isEmpty⟩

/-- What a call may return and leave: a read returns at most the bytes asked for, and
every other call anything. -/
inductive PipeStep (w : World) : (c : SystemCall) → c.Result → World → Prop
  | delivered {stream : OutputStream} {length : ℕ} {chunk : List UInt8}
      (h : chunk.length ≤ length) :
      PipeStep w (.read stream length) (.ok chunk) (w.hear stream chunk)
  | refused {stream : OutputStream} {length : ℕ} {error : ReadErrno} :
      PipeStep w (.read stream length) (.error error) w
  | other {c : SystemCall} {r : c.Result} (h : ∀ stream length, c ≠ .read stream length) :
      PipeStep w c r w

/-- Any world that delivers bytes through two pipes. -/
def pipes : Environment CollectCall (fun c => c.call.Result) World where
  step w c r w' := PipeStep w c.call r w'

/-- Nothing was read yet, from either pipe. -/
def silence : World := fun _ => ⟨[], false⟩

/-- What is retained is a prefix of what was read, and no longer than the limit. -/
def Kept (budget : Budget) (channels : Channels) (w : World) : Prop :=
  ∀ stream, (channels stream).output <+: (w stream).bytes ∧
    (channels stream).output.length ≤ budget.limit stream

/-- What is retained is all that was read, and a pipe is let go only at its end. -/
def Whole (budget : Budget) (channels : Channels) (w : World) : Prop :=
  ∀ stream, (channels stream).output = (w stream).bytes ∧
    (channels stream).output.length ≤ budget.limit stream ∧
    ((channels stream).pipe = false → (w stream).ended = true)

/-- The retained bytes are bounded when a call is made, and a read asks for at least one
byte and for at most one more than the limit leaves. -/
def Bounded (budget : Budget) (c : CollectCall) (w : World) : Prop :=
  Kept budget c.retained w ∧ ∀ stream length, c.call = .read stream length →
    0 < length ∧ length ≤ budget.limit stream - (c.retained stream).output.length + 1

/-- One stream of an output, so that both can be spoken of at once. -/
def GitQueryOutput.stream (output : GitQueryOutput) : OutputStream → List UInt8
  | .stdout => output.stdout
  | .stderr => output.stderr

/-- One stream of a failure, so that both can be spoken of at once. -/
def GitQueryFailure.stream (failure : GitQueryFailure) : OutputStream → List UInt8
  | .stdout => failure.stdout
  | .stderr => failure.stderr

/-- An output is complete: both pipes were read to their end, and all that was read is
returned. -/
def Complete (budget : Budget) (output : GitQueryOutput) (w : World) : Prop :=
  ∀ stream, (w stream).ended = true ∧ output.stream stream = (w stream).bytes ∧
    (output.stream stream).length ≤ budget.limit stream

/-- A failure holds prefixes of what was read, no longer than the limits. -/
def FailedWith (budget : Budget) : Stop → World → Prop
  | .failed failure, w => ∀ stream, failure.stream stream <+: (w stream).bytes ∧
      (failure.stream stream).length ≤ budget.limit stream
  | .unfinished, _ => True

/-- A part that returned leaves `P`, one that failed a bounded failure. -/
def Ends {α : Type} (budget : Budget) (P : α → World → Prop) : Except Stop α → World → Prop
  | .ok a, w => P a w
  | .error stop, w => FailedWith budget stop w

/-- Every call of a part is bounded, and it ends so. -/
abbrev Ensures {α : Type} (budget : Budget) (P : α → World → Prop) (x : Collecting α)
    (w : World) : Prop :=
  Safe pipes (Bounded budget) (Ends budget P) x w

variable {α β : Type} {budget : Budget} {channels : Channels} {w : World}

/-- What is whole is a kept prefix of what was read. -/
theorem Whole.kept (h : Whole budget channels w) : Kept budget channels w := by
  intro stream
  obtain ⟨hbytes, hlimit, -⟩ := h stream
  exact ⟨hbytes ▸ List.prefix_refl _, hlimit⟩

/-- What a part ensures of its success is what the rest starts from; a failure ensures what
failures do. -/
theorem Ensures.bind {P : α → World → Prop} {Q : β → World → Prop} {x : Collecting α}
    {f : α → Collecting β} (hx : Ensures budget P x w)
    (hf : ∀ a w', P a w' → Ensures budget Q (f a) w') : Ensures budget Q (x >>= f) w :=
  Safe.bind hx hf fun _ _ h => h

/-- The rule for a call other than a read: it changes nothing. -/
theorem ensures_ask {Q : β → World → Prop} {c : SystemCall} {f : c.Result → Collecting β}
    (hc : ∀ stream length, c ≠ .read stream length) (h : Kept budget channels w)
    (hf : ∀ r, Ensures budget Q (f r) w) : Ensures budget Q (ask channels c >>= f) w := by
  refine Program.safe_perform_bind.mpr ⟨⟨h, fun stream length he => absurd he (hc _ _)⟩, ?_⟩
  intro r w' step
  cases step with
  | delivered _ => exact absurd rfl (hc _ _)
  | refused => exact absurd rfl (hc _ _)
  | other _ => exact hf r

/-! ### Failures keep what was retained

The cleanup behind a failure reads nothing, so a failure reports a beginning of what each
pipe delivered. -/

/-- Waiting for the exit reads nothing, so what is retained stays a kept prefix. -/
theorem ensures_confirmExit (h : Kept budget channels w) (deadline rounds : ℕ)
    (ioFailure : Option CleanupIoFailure) :
    Ensures budget (fun _ w' => Kept budget channels w')
      (confirmExit budget channels deadline rounds ioFailure) w := by
  induction rounds generalizing ioFailure with
  | zero => trivial
  | succ rounds ih =>
    refine ensures_ask nofun h fun polled => ?_
    have hagain : Ensures budget (fun _ w' => Kept budget channels w') (do
        let now ← ask channels .now
        if deadline ≤ now then
          pure ⟨.unconfirmed, retainPollError ioFailure .confirmPoll polled⟩
        else do
          ask channels (.sleep (min budget.pollInterval (deadline - now)))
          confirmExit budget channels deadline rounds
            (retainPollError ioFailure .confirmPoll polled)) w := by
      refine ensures_ask nofun h fun now => ?_
      split
      · exact h
      · exact ensures_ask nofun h fun _ => ih _
    rcases polled with error | status | status
    · exact hagain
    · exact hagain
    · exact h

/-- The cleanup reads nothing either, so what is retained stays what was heard. -/
theorem ensures_cleanupDirectChild (h : Kept budget channels w) (rounds : ℕ)
    (status : Option ExitStatus) :
    Ensures budget (fun _ w' => Kept budget channels w')
      (cleanupDirectChild budget rounds channels status) w := by
  cases status with
  | some status => exact h
  | none =>
    refine ensures_ask nofun h fun polled => ?_
    have hkill : Ensures budget (fun _ w' => Kept budget channels w') (do
        let polledFailure := retainPollError none .initialPoll polled
        let killed ← ask channels .kill
        let ioFailure := match killed with
          | .ok () => polledFailure
          | .error error => retainCleanupIoError polledFailure .kill error
        let now ← ask channels .now
        confirmExit budget channels (now + budget.cleanupTimeout) rounds ioFailure) w :=
      ensures_ask nofun h fun _ => ensures_ask nofun h fun _ => ensures_confirmExit h _ _ _
    rcases polled with error | status | status
    · exact hkill
    · exact hkill
    · exact h

/-- A failure reports what is retained, which is a beginning of what was heard. -/
theorem ensures_failAfterChild {P : α → World → Prop} (h : Kept budget channels w) (rounds : ℕ)
    (status : Option ExitStatus) (kind : GitQueryFailureKind) :
    Ensures budget P (failAfterChild budget rounds channels status kind) w := by
  refine Ensures.bind (ensures_cleanupDirectChild h rounds status) fun cleanup w' hkept => ?_
  intro stream
  cases stream with
  | stdout => exact hkept .stdout
  | stderr => exact hkept .stderr

/-- A failure after an error reports what is retained, whatever the caller expected. -/
theorem ensures_failWithIo {P : α → World → Prop} (h : Kept budget channels w) (rounds : ℕ)
    (status : Option ExitStatus) (operation : IoOperation) (error : IoError) :
    Ensures budget P (failWithIo budget rounds channels status operation error) w :=
  ensures_failAfterChild h rounds status _

/-! ### One read

A read adds a chunk to one stream and leaves the other.  Draining is an induction on the
reads that are left: everything stays whole, unless the limit would be exceeded, and then
the collection fails. -/

section Read

variable {stream : OutputStream}

/-- A pipe that is let go keeps what was retained of it. -/
@[simp] theorem close_self : channels.close stream stream = ⟨false, (channels stream).output⟩ :=
  Function.update_self ..

/-- Letting go of one pipe leaves the other stream. -/
theorem close_of_ne {other : OutputStream} (h : other ≠ stream) :
    channels.close stream other = channels other := Function.update_of_ne h ..

/-- Bytes that are retained stand behind those before, in the order in which they were read. -/
@[simp] theorem extend_self (bytes : List UInt8) : channels.extend stream bytes stream =
    ⟨(channels stream).pipe, (channels stream).output ++ bytes⟩ := Function.update_self ..

/-- Retaining bytes of one stream leaves the other, so the two can be spoken of apart. -/
theorem extend_of_ne {other : OutputStream} (h : other ≠ stream) (bytes : List UInt8) :
    channels.extend stream bytes other = channels other := Function.update_of_ne h ..

/-- The world remembers what a pipe has delivered, and whether it ended. -/
@[simp] theorem hear_self (chunk : List UInt8) : w.hear stream chunk stream =
    ⟨(w stream).bytes ++ chunk, (w stream).ended || chunk.isEmpty⟩ := Function.update_self ..

/-- A read of one pipe says nothing of the other. -/
theorem hear_of_ne {other : OutputStream} (h : other ≠ stream) (chunk : List UInt8) :
    w.hear stream chunk other = w other := Function.update_of_ne h ..

/-- At the end of file the pipe is let go. -/
theorem Whole.close (h : Whole budget channels w) :
    Whole budget (channels.close stream) (w.hear stream []) := by
  intro other
  obtain ⟨hbytes, hlimit, hended⟩ := h other
  by_cases hother : other = stream
  · subst hother
    rw [close_self, hear_self]
    exact ⟨by rw [hbytes, List.append_nil], hlimit, fun _ => by simp⟩
  · rw [close_of_ne hother, hear_of_ne hother]
    exact ⟨hbytes, hlimit, hended⟩

/-- A chunk within the limit is retained whole, so nothing of the stream is lost. -/
theorem Whole.extend (h : Whole budget channels w) {chunk : List UInt8}
    (hchunk : chunk.length ≤ budget.limit stream - (channels stream).output.length) :
    Whole budget (channels.extend stream (chunk.take (min chunk.length
      (budget.limit stream - (channels stream).output.length)))) (w.hear stream chunk) := by
  intro other
  obtain ⟨hbytes, hlimit, hended⟩ := h other
  by_cases hother : other = stream
  · subst hother
    have htake : chunk.take (min chunk.length
        (budget.limit other - (channels other).output.length)) = chunk := by
      rw [Nat.min_eq_left hchunk, List.take_length]
    rw [extend_self, hear_self, htake]
    refine ⟨by rw [hbytes], ?_, fun hpipe => by simp [hended hpipe]⟩
    rw [List.length_append]
    omega
  · rw [extend_of_ne hother, hear_of_ne hother]
    exact ⟨hbytes, hlimit, hended⟩

/-- Of any chunk, what the limit leaves is retained. -/
theorem Whole.kept_extend (h : Whole budget channels w) (chunk : List UInt8) :
    Kept budget (channels.extend stream (chunk.take (min chunk.length
      (budget.limit stream - (channels stream).output.length)))) (w.hear stream chunk) := by
  intro other
  obtain ⟨hbytes, hlimit, -⟩ := h other
  by_cases hother : other = stream
  · subst hother
    rw [extend_self, hear_self]
    constructor
    · show (channels other).output ++ _ <+: (w other).bytes ++ chunk
      rw [hbytes]
      exact (List.prefix_append_right_inj _).mpr (List.take_prefix _ _)
    · show ((channels other).output ++ _).length ≤ budget.limit other
      rw [List.length_append, List.length_take]
      omega
  · rw [extend_of_ne hother, hear_of_ne hother]
    exact ⟨hbytes ▸ List.prefix_refl _, hlimit⟩

/-- What draining a pipe leaves. -/
def Drained (budget : Budget) (drained : Except IoError DrainResult × Channels) (w : World) :
    Prop :=
  if drained.1 = .ok .limitExceeded then Kept budget drained.2 w else Whole budget drained.2 w

/-- **Draining keeps everything** unless the limit is exceeded, which it then reports: by induction
on the reads. -/
theorem ensures_drainPipe (h : Whole budget channels w) (reads : ℕ) :
    Ensures budget (Drained budget) (drainPipe stream (budget.limit stream) reads channels) w := by
  induction reads generalizing channels w with
  | zero => exact h
  | succ reads ih =>
    rw [drainPipe]
    split
    · exact h
    · refine Program.safe_perform_bind.mpr ⟨⟨h.kept, fun other length he => ?_⟩, ?_⟩
      · cases he
        simp only [bufferLength]
        omega
      · intro r w' step
        cases step with
        | @delivered _ _ chunk hlength =>
          cases chunk with
          | nil => exact h.close
          | cons byte bytes =>
            dsimp only
            split
            · exact h.kept_extend _
            · exact ih (h.extend (by omega))
        | refused =>
          rename_i error
          rcases error with _ | _ | error
          · exact ih h
          · exact h
          · exact h
        | other hc => exact absurd rfl (hc _ _)

/-- Draining a stream leaves everything whole, or fails: the loop ends at an empty pipe, an end of
file or the limit. -/
theorem ensures_drainStream (h : Whole budget channels w) (rounds : ℕ)
    (exitStatus : Option ExitStatus) :
    Ensures budget (Whole budget) (drainStream budget rounds exitStatus stream channels) w := by
  refine Ensures.bind (ensures_drainPipe h maxDrainReads) fun drained w' hdrained => ?_
  obtain ⟨result, channels'⟩ := drained
  rcases result with error | result
  · have hwhole : Whole budget channels' w' := hdrained
    exact ensures_failWithIo hwhole.kept _ _ _ _
  · cases result with
    | limitExceeded =>
      have hkept : Kept budget channels' w' := hdrained
      exact ensures_failAfterChild hkept _ _ _
    | «open» => exact hdrained
    | closed => exact hdrained

end Read

/-! ### A whole run

The rounds put the two pipes together, and the loop returns only when both were read to
their end.  So an output is complete, or there is none. -/

/-- Polling the child reads nothing, so what is retained stays what was heard. -/
theorem ensures_pollExit (h : Whole budget channels w) (rounds : ℕ)
    (exitStatus : Option ExitStatus) :
    Ensures budget (fun _ w' => Whole budget channels w')
      (pollExit budget rounds channels exitStatus) w := by
  cases exitStatus with
  | some status => exact h
  | none =>
    refine ensures_ask nofun h.kept fun polled => ?_
    rcases polled with error | status
    · exact ensures_failWithIo h.kept _ _ _ _
    · exact h

/-- With both pipes at their end, what is retained is complete. -/
theorem Whole.complete (h : Whole budget channels w) (hstdout : (channels .stdout).pipe = false)
    (hstderr : (channels .stderr).pipe = false) (exit : GitExit) :
    Complete budget ⟨exit, (channels .stdout).output, (channels .stderr).output⟩ w := by
  intro stream
  obtain ⟨hbytes, hlimit, hended⟩ := h stream
  cases stream with
  | stdout => exact ⟨hended hstdout, hbytes, hlimit⟩
  | stderr => exact ⟨hended hstderr, hbytes, hlimit⟩

/-- **Every round keeps everything**, and the loop returns only what is complete. -/
theorem ensures_collectLoop (h : Whole budget channels w) (deadline rounds : ℕ)
    (exitStatus : Option ExitStatus) :
    Ensures budget (Complete budget)
      (collectLoop budget deadline rounds channels exitStatus) w := by
  induction rounds generalizing channels w exitStatus with
  | zero => trivial
  | succ rounds ih =>
    refine Ensures.bind (ensures_drainStream h rounds exitStatus) fun afterStdout w₁ h₁ => ?_
    refine Ensures.bind (ensures_drainStream h₁ rounds exitStatus) fun drained w₂ h₂ => ?_
    refine Ensures.bind (ensures_pollExit h₂ rounds exitStatus) fun status w₃ h₃ => ?_
    refine ensures_ask nofun h₃.kept fun now => ?_
    split
    · exact ensures_failAfterChild h₃.kept _ _ _
    · split
      · rename_i hstdout hstderr
        exact h₃.complete hstdout hstderr _
      · exact ensures_ask nofun h₃.kept fun _ => ih h₃ _

/-- Before anything was read nothing is retained, which is whole. -/
theorem whole_started : Whole budget started silence :=
  fun _ => ⟨rfl, Nat.zero_le _, nofun⟩

/-- Configuring a pipe reads nothing, so the collection begins in silence. -/
theorem ensures_configure (rounds : ℕ) (stream : OutputStream) :
    Ensures budget (fun _ w' => w' = silence) (configure budget rounds stream) silence := by
  refine ensures_ask nofun whole_started.kept fun configured => ?_
  rcases configured with error | _
  · exact ensures_failWithIo whole_started.kept _ _ _ _
  · exact rfl

/-- **A whole collection**: where it returns, both streams are complete and within their limits. -/
theorem ensures_collectCommand (rounds : ℕ) :
    Ensures budget (Complete budget) (collectCommand budget rounds) silence := by
  refine ensures_ask nofun whole_started.kept fun begun => ?_
  refine ensures_ask nofun whole_started.kept fun spawned => ?_
  rcases spawned with error | _
  · intro stream
    cases stream <;> exact ⟨List.nil_prefix, Nat.zero_le _⟩
  · refine Ensures.bind (ensures_configure rounds .stdout) fun _ w₁ h₁ => ?_
    subst h₁
    refine Ensures.bind (ensures_configure rounds .stderr) fun _ w₂ h₂ => ?_
    subst h₂
    exact ensures_collectLoop whole_started _ _ _

/-- **Output is never silently truncated.**  Whatever the reads, the polls and the clock
answer, an output is complete and within the limits, no run that read more than a limit
returns one, a failure holds prefixes within the limits, and so does every moment of a
run. -/
theorem collect_never_truncates (budget : Budget) (rounds : ℕ) :
    (∀ output w, Returns pipes (collectCommand budget rounds) silence (.ok output) w →
      Complete budget output w) ∧
    (∀ output w stream, Returns pipes (collectCommand budget rounds) silence (.ok output) w →
      ¬budget.limit stream < (w stream).bytes.length) ∧
    (∀ stop w, Returns pipes (collectCommand budget rounds) silence (.error stop) w →
      FailedWith budget stop w) ∧
    (∀ c w, Issues pipes (collectCommand budget rounds) silence c w → Bounded budget c w) := by
  have hsafe := @ensures_collectCommand budget rounds
  refine ⟨fun output w run => hsafe.of_returns run, fun output w stream run => ?_,
    fun stop w run => hsafe.of_returns run, fun c w run => hsafe.of_issues run⟩
  obtain ⟨-, hbytes, hlimit⟩ := hsafe.of_returns run stream
  rw [hbytes] at hlimit
  omega

/-! ### A stream of exactly the limit

One byte is written and one is allowed, so that the limit is reached and not exceeded.  The
run is computed from the answers of the pipes. -/

/-- A child that writes one byte and exits. -/
def oneByte (w : World) (c : CollectCall) : c.call.Result × World :=
  match c.call with
  | .now => (0, w)
  | .spawn | .setNonblocking _ | .kill => (.ok (), w)
  | .read stream length =>
    if stream = .stdout ∧ (w stream).bytes = [] ∧ 0 < length then
      (.ok [120], w.hear stream [120])
    else (.ok [], w.hear stream [])
  | .tryWait => (.ok (some ⟨some 0, none⟩), w)
  | .sleep _ => ((), w)

/-- The answers of the sample world are those of pipes. -/
theorem pipes_oneByte (w : World) (c : CollectCall) :
    pipes.step w c (oneByte w c).1 (oneByte w c).2 := by
  obtain ⟨c, retained⟩ := c
  cases c with
  | read stream length =>
    by_cases h : stream = .stdout ∧ (w stream).bytes = [] ∧ 0 < length
    · have hanswer : oneByte w ⟨.read stream length, retained⟩ =
          (.ok [120], w.hear stream [120]) := if_pos h
      rw [hanswer]
      exact .delivered h.2.2
    · have hanswer : oneByte w ⟨.read stream length, retained⟩ = (.ok [], w.hear stream []) :=
        if_neg h
      rw [hanswer]
      exact .delivered (Nat.zero_le _)
  | now | spawn | setNonblocking | tryWait | kill | sleep => exact .other nofun

/-- With a limit of one byte, that byte is returned, and is all there was. -/
theorem collect_never_truncates_oneByte :
    ∃ w, Returns pipes (collectCommand ⟨1, 1, 1, 1, 0⟩ 1) silence
        (.ok ⟨⟨some 0, none⟩, [120], []⟩) w ∧
      Complete ⟨1, 1, 1, 1, 0⟩ ⟨⟨some 0, none⟩, [120], []⟩ w :=
  have run := Program.returns_execute pipes_oneByte (collectCommand ⟨1, 1, 1, 1, 0⟩ 1) silence
  ⟨_, run, (collect_never_truncates ⟨1, 1, 1, 1, 0⟩ 1).1 _ _ run⟩

end Collect
end Git
end ThinWorkspace
