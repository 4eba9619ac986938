/-
# The process scan on macOS

Source: `crates/thinws-adapter-macos/src/process.rs`, from `scan_visible_processes` to
`vnode_matches_container`, and `process_vnode_fds` of `ffi.rs`.

A `ProcCall` is one query of libproc, of the file system or of the clock.  A `ProcessTable`
says which process has a number at which moment, a moment for each call of a run: a number
may pass to another process between any two calls, and a process that has ended does not
come back.

The scan reads the identity of a process once, and a second time only behind a match.
`no_evidence_one_process_iff` says what a run without evidence has read all the same, and that its
reads were of one process exactly where no number passed on under the scan.
-/

import ThinWorkspace.Core.Components
import ThinWorkspace.Core.Removal
import ThinWorkspace.Lib.Trace

namespace ThinWorkspace
namespace MacOs
namespace Scan

open ThinWorkspace.Core Lib

/-! ### Calls

The queries of the scan, with the flag by which a list says that it was cut off. -/

/-- `RawProcessIdentity`: the process by its number, its user and its start, and how many files it
has open. -/
structure RawProcessIdentity where
  pid : ℤ
  uid : ℕ
  startSeconds : ℕ
  startMicroseconds : ℕ
  openFileCount : ℕ
deriving DecidableEq

/-- `RawProcessVnode`: the path of an open file, with the device and the inode of the file that is
open. -/
structure RawProcessVnode where
  path : List UInt8
  device : UInt64
  inode : UInt64
deriving DecidableEq

/-- `dev` and `ino` of `fs::Metadata`: what the path leads to now. -/
structure VnodeMetadata where
  device : UInt64
  inode : UInt64
deriving DecidableEq

/-- One query: of the clock, the list of processes, one of them, or one of its files. -/
inductive ProcCall where
  | now
  | visibleUserPids
  | ownPid
  | euid
  | processIdentity (pid : ℤ)
  | processCwd (pid : ℤ)
  | listFds (pid : ℤ)
  | processVnodeFd (pid fd : ℤ)
  | metadata (path : List UInt8)
  | canonicalize (path : List UInt8)
deriving DecidableEq

/-- What a query returns, nothing where it failed.  The lists come with the flag that they
were cut off. -/
@[reducible] def ProcCall.Result : ProcCall → Type
  | .now | .ownPid | .euid => ℕ
  | .visibleUserPids | .listFds _ => Option (List ℤ × Bool)
  | .processIdentity _ => Option RawProcessIdentity
  | .processCwd _ | .processVnodeFd _ _ => Option (Option RawProcessVnode)
  | .metadata _ => Option VnodeMetadata
  | .canonicalize _ => Option (List UInt8)

/-- A scan, or a part of one; it does not fail. -/
abbrev ProcScan (α : Type) := Program ProcCall ProcCall.Result Empty α

/-- A run of a scan: the queries it made, with the answers they had. -/
abbrev ProcTrace := List (Exchange ProcCall ProcCall.Result)

/-- Makes a call.  Every answer is possible at any moment, since processes come and go. -/
abbrev call (c : ProcCall) : ProcScan c.Result := Program.perform c

/-! ### One process

The identity of a process is queried once before its files, and again only behind a match.
-/

/-- `same_process`: number, user and start agree; the count of open files may have changed. -/
def sameProcess (before after : RawProcessIdentity) : Bool :=
  before.pid == after.pid && before.uid == after.uid &&
    before.startSeconds == after.startSeconds &&
    before.startMicroseconds == after.startMicroseconds

/-- `vnode_matches_container`: whether the vnode matches, and the flag that was passed. -/
def vnodeMatchesContainer (vnode : RawProcessVnode) (container : List UInt8)
    (incomplete : Bool) : ProcScan (Bool × Bool) :=
  if startsWith vnode.path container = false then pure (false, incomplete)
  else do
    match ← call (.metadata vnode.path) with
    | none => pure (false, true)
    | some metadata =>
      if metadata.device ≠ vnode.device ∨ metadata.inode ≠ vnode.inode then pure (false, true)
      else do
        match ← call (.canonicalize vnode.path) with
        | some actual => pure (startsWith actual container, incomplete)
        | none => pure (false, true)

/-- What follows a query for a vnode, the same for the working directory and a descriptor:
the flag it leaves, nothing where use is confirmed. -/
def inspectVnode (pid : ℤ) (identity : RawProcessIdentity) (container : List UInt8)
    (found : Option (Option RawProcessVnode)) (incomplete : Bool) : ProcScan (Option Bool) :=
  match found with
  | some (some vnode) => do
    let (matched, incomplete) ← vnodeMatchesContainer vnode container incomplete
    if matched then do
      let current ← call (.processIdentity pid)
      if current.any (sameProcess identity) then pure none else pure (some true)
    else pure (some incomplete)
  | _ => pure (some true)

/-- `process_vnode_fds`: the descriptors that lead to files, and whether the list was cut off; a
process with no open files is not asked. -/
def processVnodeFds (pid : ℤ) (expected : ℕ) : ProcScan (Option (List ℤ × Bool)) :=
  if expected = 0 then pure (some ([], false)) else call (.listFds pid)

/-- The loop over the descriptors: it ends with the first one that confirms use, or says whether
any of them could not be judged. -/
def inspectFds (pid : ℤ) (identity : RawProcessIdentity) (container : List UInt8)
    (deadline : ℕ) : List ℤ → Bool → ProcScan (Option Bool)
  | [], incomplete => pure (some incomplete)
  | fd :: fds, incomplete => do
    let now ← call .now
    if deadline ≤ now then pure (some true)
    else do
      let found ← call (.processVnodeFd pid fd)
      match ← inspectVnode pid identity container found incomplete with
      | none => pure none
      | some incomplete => inspectFds pid identity container deadline fds incomplete

/-- `inspect_process`: the working directory first, then the descriptors; the first that lies in
the container confirms use. -/
def inspectProcess (pid : ℤ) (identity : RawProcessIdentity) (container : List UInt8)
    (deadline : ℕ) : ProcScan ProcessUse := do
  let cwd ← call (.processCwd pid)
  match ← inspectVnode pid identity container cwd false with
  | none => pure .confirmedInUse
  | some incomplete =>
    match ← processVnodeFds pid identity.openFileCount with
    | none => pure .scanIncomplete
    | some (fds, truncated) =>
      match ← inspectFds pid identity container deadline fds (incomplete || truncated) with
      | none => pure .confirmedInUse
      | some incomplete => pure (if incomplete then .scanIncomplete else .noEvidence)

/-! ### The scan

The processes are looked at one after the other, until the time is over or use is confirmed.
-/

/-- `matches_scan_identity`: the answer is about the process that was asked for, of the user of the
scan. -/
def matchesScanIdentity (identity : RawProcessIdentity) (pid : ℤ) (uid : ℕ) : Bool :=
  identity.pid == pid && identity.uid == uid

/-- `SCAN_BUDGET`, two seconds in nanoseconds, after which a scan is incomplete. -/
def scanBudget : ℕ := 2000000000

/-- The loop over the numbers of the visible processes. -/
def scanProcesses (container : List UInt8) (deadline ownPid ownUid : ℕ) :
    List ℤ → Bool → ProcScan ProcessUse
  | [], incomplete => pure (if incomplete then .scanIncomplete else .noEvidence)
  | pid :: pids, incomplete => do
    let now ← call .now
    if deadline ≤ now then pure .scanIncomplete
    else if pid = ownPid then scanProcesses container deadline ownPid ownUid pids incomplete
    else do
      match ← call (.processIdentity pid) with
      | none => scanProcesses container deadline ownPid ownUid pids true
      | some identity =>
        if matchesScanIdentity identity pid ownUid = false then
          scanProcesses container deadline ownPid ownUid pids true
        else do
          match ← inspectProcess pid identity container deadline with
          | .confirmedInUse => pure .confirmedInUse
          | .scanIncomplete => scanProcesses container deadline ownPid ownUid pids true
          | .noEvidence => scanProcesses container deadline ownPid ownUid pids incomplete

/-- `scan_visible_processes`: the processes of the user but the scan itself, one after the other,
up to the deadline. -/
def scanVisibleProcesses (container : List UInt8) : ProcScan ProcessUse := do
  let start ← call .now
  match ← call .visibleUserPids with
  | none => pure .scanIncomplete
  | some (pids, incomplete) => do
    let ownPid ← call .ownPid
    let ownUid ← call .euid
    scanProcesses container (start + scanBudget) ownPid ownUid pids incomplete

/-! ### Processes

A number may pass from one process to another at any time.  `ProcessTable` says which
process has it when, and `PassedOn` that some read met another process than the one whose
identity was read. -/

/-- Which process has a number at which moment. -/
structure ProcessTable where
  holder : ℕ → ℤ → Option RawProcessIdentity
  /-- A process that has ended does not come back. -/
  ended : ∀ pid (identity : RawProcessIdentity) first moment last, first ≤ moment →
    moment ≤ last → (holder first pid).any (sameProcess identity) = true →
    (holder last pid).any (sameProcess identity) = true →
    (holder moment pid).any (sameProcess identity) = true

/-- The process still has its number: whoever holds the number at that moment is the same process.
-/
def ProcessTable.Holds (table : ProcessTable) (moment : ℕ) (pid : ℤ)
    (identity : RawProcessIdentity) : Prop :=
  (table.holder moment pid).any (sameProcess identity) = true

/-- The identities a run read are those of the processes of the table. -/
def Consistent (table : ProcessTable) (t : ProcTrace) : Prop :=
  ∀ before pid identity after, t = before ++ ⟨.processIdentity pid, some identity⟩ :: after →
    table.Holds before.length pid identity

/-- The working directory or the descriptors of the process are read. -/
def ProcCall.reads : ProcCall → ℤ → Prop
  | .processCwd pid, other | .listFds pid, other | .processVnodeFd pid _, other => pid = other
  | _, _ => False

/-- The exchange is a read of the process whose identity was read last for its number. -/
def ReadBehind (t before : ProcTrace) (pid : ℤ) (identity : RawProcessIdentity)
    (middle : ProcTrace) : Prop :=
  ∃ exchange after, t = before ++ ⟨.processIdentity pid, some identity⟩ ::
      (middle ++ exchange :: after) ∧
    exchange.op.reads pid ∧ ∀ e ∈ middle, e.op ≠ .processIdentity pid

/-- Some read of a number met another process than the one whose identity was read. -/
def PassedOn (table : ProcessTable) (t : ProcTrace) : Prop :=
  ∃ before pid identity middle, ReadBehind t before pid identity middle ∧
    ¬table.Holds (before.length + 1 + middle.length) pid identity

/-! ### What a run read

What a run has read, in terms of its answers and the table. -/

/-- The vnode is not in the container: by its path as reported, or by the path that this
resolves to. -/
def Clear (container : List UInt8) (vnode : RawProcessVnode) (part : ProcTrace) : Prop :=
  (part = [] ∧ startsWith vnode.path container = false) ∨
    ∃ actual, part = [⟨.metadata vnode.path, some ⟨vnode.device, vnode.inode⟩⟩,
        ⟨.canonicalize vnode.path, some actual⟩] ∧ startsWith actual container = false

/-- Every descriptor was read and is not in the container. -/
def DescriptorsClear (container : List UInt8) (pid : ℤ) : List ℤ → ProcTrace → Prop
  | [], part => part = []
  | fd :: fds, part => ∃ now vnode resolved rest,
      part = ⟨.now, now⟩ :: ⟨.processVnodeFd pid fd, some (some vnode)⟩ :: (resolved ++ rest) ∧
      Clear container vnode resolved ∧ DescriptorsClear container pid fds rest

/-- The descriptors of the process were listed in full; a process with no open file has
none. -/
def FdsListed (pid : ℤ) (identity : RawProcessIdentity) (fds : List ℤ) (part : ProcTrace) :
    Prop :=
  (part = [] ∧ identity.openFileCount = 0 ∧ fds = []) ∨ part = [⟨.listFds pid, some (fds, false)⟩]

/-- Behind the identity every read of the process succeeded, and none of its vnodes is in
the container. -/
def FullyRead (container : List UInt8) (pid : ℤ) (ownUid : ℕ) (part : ProcTrace) : Prop :=
  ∃ identity cwd resolved fds listed descriptors,
    part = ⟨.processIdentity pid, some identity⟩ :: ⟨.processCwd pid, some (some cwd)⟩ ::
      (resolved ++ (listed ++ descriptors)) ∧
    matchesScanIdentity identity pid ownUid = true ∧ Clear container cwd resolved ∧
    FdsListed pid identity fds listed ∧ DescriptorsClear container pid fds descriptors

/-- Every process the scan listed, itself apart, was read in full, with nothing in the
container; and from the identity of a process to the last read of it, its number belonged
to this process. -/
structure Honest (container : List UInt8) (table : ProcessTable) (t : ProcTrace) : Prop where
  listed : ∃ start pids ownPid ownUid rest,
    t = ⟨.now, start⟩ :: ⟨.visibleUserPids, some (pids, false)⟩ :: ⟨.ownPid, ownPid⟩ ::
      ⟨.euid, ownUid⟩ :: rest ∧
    ∀ pid ∈ pids, pid ≠ (ownPid : ℤ) → ∃ part, part <:+: rest ∧ FullyRead container pid ownUid part
  same : ∀ before pid identity middle, ReadBehind t before pid identity middle →
    ∀ moment, before.length ≤ moment → moment ≤ before.length + 1 + middle.length →
      table.Holds moment pid identity

/-! ### One vnode

Each function is followed with what its flag says at the end.  Where no number passed on,
all reads of a number met one process; where one did, the scan claims what it did not see.
-/

section Parts

variable {container : List UInt8} {pid : ℤ} {identity : RawProcessIdentity} {t : ProcTrace}
variable {deadline ownPid ownUid : ℕ} {incomplete flag : Bool}

open Program (Traces traces_bind_ok traces_perform_bind)

/-- **One vnode**: it matches, or it is clear, or the flag is raised. -/
theorem vnodeMatchesContainer_traces {vnode : RawProcessVnode} {matched : Bool}
    (h : Traces (vnodeMatchesContainer vnode container incomplete) t (.ok (matched, flag))) :
    matched = true ∨ (flag = incomplete ∧ Clear container vnode t) ∨ flag = true := by
  unfold vnodeMatchesContainer at h
  split at h
  · rename_i haway
    obtain ⟨rfl, hresult⟩ := h
    cases hresult
    exact .inr (.inl ⟨rfl, .inl ⟨rfl, haway⟩⟩)
  · obtain ⟨metadata, rest, rfl, hmetadata⟩ := traces_perform_bind.mp h
    cases metadata with
    | none =>
      cases hmetadata.2
      exact .inr (.inr rfl)
    | some metadata =>
      dsimp only at hmetadata
      split at hmetadata
      · cases hmetadata.2
        exact .inr (.inr rfl)
      · rename_i hsame
        rw [not_or, not_not, not_not] at hsame
        obtain ⟨actual, rest, rfl, hactual⟩ := traces_perform_bind.mp hmetadata
        cases actual with
        | none =>
          cases hactual.2
          exact .inr (.inr rfl)
        | some actual =>
          obtain ⟨rfl, hresult⟩ := hactual
          cases hresult
          by_cases hinside : startsWith actual container = true
          · exact .inl hinside
          · refine .inr (.inl ⟨rfl, .inr ⟨actual, ?_, eq_false_of_ne_true hinside⟩⟩)
            rw [← hsame.1, ← hsame.2]

/-- Without a flag behind a query for a vnode, there was none before it, the query found a
vnode, and this is clear. -/
theorem inspectVnode_traces {found : Option (Option RawProcessVnode)}
    (h : Traces (inspectVnode pid identity container found incomplete) t (.ok (some false))) :
    incomplete = false ∧ ∃ vnode, found = some (some vnode) ∧ Clear container vnode t := by
  unfold inspectVnode at h
  split at h
  · rename_i vnode
    obtain ⟨⟨matched, flag⟩, resolved, rest, rfl, hvnode, hrest⟩ := traces_bind_ok.mp h
    dsimp only at hrest
    split at hrest
    · obtain ⟨current, rest, rfl, hcurrent⟩ := traces_perform_bind.mp hrest
      split at hcurrent
      · cases hcurrent.2
      · cases hcurrent.2
    · rename_i hmatched
      obtain ⟨rfl, hresult⟩ := hrest
      cases hresult
      rw [List.append_nil]
      rcases vnodeMatchesContainer_traces hvnode with htrue | ⟨hflag, hclear⟩ | hraised
      · exact absurd htrue hmatched
      · exact ⟨hflag.symm, vnode, rfl, hclear⟩
      · cases hraised
  · cases h.2

/-- **The descriptors**: without a flag at the end, all of them are clear. -/
theorem inspectFds_traces {fds : List ℤ}
    (h : Traces (inspectFds pid identity container deadline fds incomplete) t
      (.ok (some false))) :
    incomplete = false ∧ DescriptorsClear container pid fds t := by
  induction fds generalizing incomplete t with
  | nil =>
    obtain ⟨rfl, hresult⟩ := h
    cases hresult
    exact ⟨rfl, rfl⟩
  | cons fd fds ih =>
    obtain ⟨now, rest, rfl, hnow⟩ := traces_perform_bind.mp h
    split at hnow
    · cases hnow.2
    · obtain ⟨found, rest, rfl, hfound⟩ := traces_perform_bind.mp hnow
      obtain ⟨result, resolved, rest, rfl, hvnode, hrest⟩ := traces_bind_ok.mp hfound
      rcases result with _ | flag
      · cases hrest.2
      · obtain ⟨rfl, hfds⟩ := ih hrest
        obtain ⟨hflag, vnode, rfl, hclear⟩ := inspectVnode_traces hvnode
        exact ⟨hflag, now, vnode, resolved, rest, rfl, hclear, hfds⟩

/-- Descriptors that are returned as complete are those of one listing that was not cut off. -/
theorem processVnodeFds_traces {fds : List ℤ} {expected : ℕ}
    (hexpected : identity.openFileCount = expected)
    (h : Traces (processVnodeFds pid expected) t (.ok (some (fds, false)))) :
    FdsListed pid identity fds t := by
  unfold processVnodeFds at h
  split at h
  · rename_i hzero
    obtain ⟨rfl, hresult⟩ := h
    cases hresult
    exact .inl ⟨rfl, hexpected.trans hzero, rfl⟩
  · obtain ⟨listed, rfl, hresult⟩ := Program.traces_perform.mp h
    cases hresult
    exact .inr rfl

/-- **One process**: where the scan of a process has no evidence, the process was read in full.
The working directory comes first and then the descriptors, and a part of it that cannot be read
makes the scan incomplete. -/
theorem inspectProcess_traces (hidentity : matchesScanIdentity identity pid ownUid = true)
    (h : Traces (inspectProcess pid identity container deadline) t (.ok .noEvidence)) :
    FullyRead container pid ownUid (⟨.processIdentity pid, some identity⟩ :: t) := by
  obtain ⟨cwd, rest, rfl, hcwd⟩ := traces_perform_bind.mp h
  obtain ⟨result, resolved, rest, rfl, hvnode, h₁⟩ := traces_bind_ok.mp hcwd
  rcases result with _ | incomplete
  · cases h₁.2
  · obtain ⟨fds, listed, rest, rfl, hlisted, h₂⟩ := traces_bind_ok.mp h₁
    rcases fds with _ | ⟨fds, truncated⟩
    · cases h₂.2
    · obtain ⟨result, descriptors, rest, rfl, hfds, h₃⟩ := traces_bind_ok.mp h₂
      rcases result with _ | flag
      · cases h₃.2
      · obtain ⟨rfl, hresult⟩ := h₃
        split at hresult
        · cases hresult
        · rename_i hflag
          obtain rfl : flag = false := eq_false_of_ne_true hflag
          obtain ⟨hnone, hdescriptors⟩ := inspectFds_traces hfds
          obtain ⟨rfl, rfl⟩ := Bool.or_eq_false_iff.mp hnone
          obtain ⟨-, vnode, rfl, hclear⟩ := inspectVnode_traces hvnode
          exact ⟨identity, vnode, resolved, fds, listed, descriptors, by simp, hidentity, hclear,
            processVnodeFds_traces rfl hlisted, hdescriptors⟩

/-- **The loop**: a scan without evidence has read every process in full.  The induction is on the
processes, and what is carried along is that nothing so far has made the scan incomplete. -/
theorem scanProcesses_traces {pids : List ℤ}
    (h : Traces (scanProcesses container deadline ownPid ownUid pids incomplete) t
      (.ok .noEvidence)) :
    incomplete = false ∧ ∀ pid ∈ pids, pid ≠ (ownPid : ℤ) →
      ∃ part, part <:+: t ∧ FullyRead container pid ownUid part := by
  induction pids generalizing incomplete t with
  | nil =>
    obtain ⟨rfl, hresult⟩ := h
    split at hresult
    · cases hresult
    · rename_i hflag
      exact ⟨eq_false_of_ne_true hflag, fun _ hmem => absurd hmem List.not_mem_nil⟩
  | cons pid pids ih =>
    obtain ⟨now, rest, rfl, hnow⟩ := traces_perform_bind.mp h
    -- The reads of one process, in front of the rest of the loop.
    have hnext : ∀ flag part tail, rest = part ++ tail →
        (pid ≠ (ownPid : ℤ) → FullyRead container pid ownUid part) →
        Traces (scanProcesses container deadline ownPid ownUid pids flag) tail (.ok .noEvidence) →
        flag = false ∧ ∀ p ∈ pid :: pids, p ≠ (ownPid : ℤ) →
          ∃ q, q <:+: ⟨.now, now⟩ :: rest ∧ FullyRead container p ownUid q := by
      rintro flag part tail rfl hpart hloop
      obtain ⟨hflag, hread⟩ := ih hloop
      refine ⟨hflag, List.forall_mem_cons.mpr ⟨fun hne => ?_, fun p hp hne => ?_⟩⟩
      · exact ⟨part, ⟨[⟨.now, now⟩], tail, rfl⟩, hpart hne⟩
      · obtain ⟨q, hq, hfull⟩ := hread p hp hne
        exact ⟨q, hq.trans ((List.suffix_append part tail).trans (List.suffix_cons _ _)).isInfix,
          hfull⟩
    split at hnow
    · cases hnow.2
    · split at hnow
      · rename_i hown
        exact hnext _ [] rest rfl (fun hne => absurd hown hne) hnow
      · obtain ⟨result, rest, rfl, hidentity⟩ := traces_perform_bind.mp hnow
        cases result with
        | none => exact absurd (ih hidentity).1 (by decide)
        | some identity =>
          dsimp only at hidentity
          split at hidentity
          · exact absurd (ih hidentity).1 (by decide)
          · rename_i hmatches
            obtain ⟨use, part, tail, rfl, hprocess, hloop⟩ := traces_bind_ok.mp hidentity
            cases use with
            | confirmedInUse => cases hloop.2
            | scanIncomplete => exact absurd (ih hloop).1 (by decide)
            | noEvidence =>
              refine hnext _ (⟨.processIdentity pid, some identity⟩ :: part) tail rfl (fun _ => ?_)
                hloop
              exact inspectProcess_traces (eq_true_of_ne_false hmatches) hprocess

end Parts

/-- Where no number passed on under a read, it belonged to one process throughout. -/
theorem same_of_not_passedOn {table : ProcessTable} {t : ProcTrace}
    (hconsistent : Consistent table t) (hno : ¬PassedOn table t) {before : ProcTrace} {pid : ℤ}
    {identity : RawProcessIdentity} {middle : ProcTrace}
    (hread : ReadBehind t before pid identity middle) {moment : ℕ}
    (hfirst : before.length ≤ moment) (hlast : moment ≤ before.length + 1 + middle.length) :
    table.Holds moment pid identity := by
  have hend : table.Holds (before.length + 1 + middle.length) pid identity :=
    Classical.byContradiction fun hpassed => hno ⟨before, pid, identity, middle, hread, hpassed⟩
  obtain ⟨exchange, after, ht, -⟩ := hread
  exact table.ended pid identity before.length moment _ hfirst hlast
    (hconsistent before pid identity _ ht) hend

/-- **When the scan is honest.**  A run that reports no evidence has read every process of
the user in full and found nothing of it in the container; its reads of a process were of
this one process exactly where no number passed on to another one under a read. -/
theorem no_evidence_one_process_iff (container : List UInt8) (table : ProcessTable) (t : ProcTrace)
    (outcome : ProcessUse) (hconsistent : Consistent table t)
    (h : Program.Traces (scanVisibleProcesses container) t (.ok outcome)) :
    (¬PassedOn table t → outcome = .noEvidence → Honest container table t) ∧
      (PassedOn table t → outcome = .noEvidence → ¬Honest container table t) := by
  constructor
  · rintro hno rfl
    obtain ⟨start, _, rfl, h₁⟩ := Program.traces_perform_bind.mp h
    obtain ⟨pids, _, rfl, h₂⟩ := Program.traces_perform_bind.mp h₁
    rcases pids with _ | ⟨pids, incomplete⟩
    · cases h₂.2
    · obtain ⟨ownPid, _, rfl, h₃⟩ := Program.traces_perform_bind.mp h₂
      obtain ⟨ownUid, rest, rfl, h₄⟩ := Program.traces_perform_bind.mp h₃
      obtain ⟨rfl, hread⟩ := scanProcesses_traces h₄
      exact ⟨⟨start, pids, ownPid, ownUid, rest, rfl, hread⟩,
        fun _ _ _ _ hbehind _ => same_of_not_passedOn hconsistent hno hbehind⟩
  · rintro ⟨before, pid, identity, middle, hbehind, hpassed⟩ - hhonest
    have hlater : before.length ≤ before.length + 1 + middle.length := by omega
    exact hpassed (hhonest.same before pid identity middle hbehind _ hlater (Nat.le_refl _))

/-! ### Two runs

One run, and two tables that it is consistent with.  In one of them the number keeps its
process; in the other it passes on behind the identity, and the working directory that was
read is another process's. -/

section Sample

/-- The container `/c`, of whose use the sample process is suspected. -/
def scannedContainer : List UInt8 := slash :: pathBytes [asBytes "c"]

/-- The process `7` of user 5, without an open file, that started at the given time. -/
def scannedProcess (startSeconds : ℕ) : RawProcessIdentity := ⟨7, 5, startSeconds, 0, 0⟩

/-- The root directory, as a vnode that lies outside the container. -/
def scannedVnode : RawProcessVnode := ⟨[slash], 1, 2⟩

/-- The process `7` works in the root directory. -/
def scannedRun : ProcTrace :=
  [⟨.now, (0 : ℕ)⟩, ⟨.visibleUserPids, some ([7], false)⟩, ⟨.ownPid, (1 : ℕ)⟩, ⟨.euid, (5 : ℕ)⟩,
    ⟨.now, (0 : ℕ)⟩, ⟨.processIdentity 7, some (scannedProcess 1)⟩,
    ⟨.processCwd 7, some (some scannedVnode)⟩]

/-- The path of the sample process is not in the container. -/
theorem startsWith_scanned : startsWith scannedVnode.path scannedContainer = false :=
  startsWith_root (List.forall_mem_singleton.mpr (by decide)) (List.cons_ne_nil _ _)

/-- The sample run reports no evidence. -/
theorem traces_scanned :
    Program.Traces (scanVisibleProcesses scannedContainer) scannedRun (.ok .noEvidence) := by
  have hvnode : Program.Traces
      (inspectVnode 7 (scannedProcess 1) scannedContainer (some (some scannedVnode)) false) []
      (.ok (some false)) := by
    refine Program.traces_bind_ok.mpr ⟨(false, false), [], [], rfl, ?_, rfl, rfl⟩
    rw [vnodeMatchesContainer, if_pos startsWith_scanned]
    exact ⟨rfl, rfl⟩
  have hprocess : Program.Traces
      (inspectProcess 7 (scannedProcess 1) scannedContainer (0 + scanBudget))
      [⟨.processCwd 7, some (some scannedVnode)⟩] (.ok .noEvidence) := by
    refine Program.traces_perform_bind.mpr ⟨some (some scannedVnode), [], rfl, ?_⟩
    exact Program.traces_bind_ok.mpr ⟨some false, [], [], rfl, hvnode, rfl, rfl⟩
  refine ⟨_, _, rfl, _, _, rfl, _, _, rfl, _, _, rfl, _, _, rfl, _, _, rfl, ?_⟩
  change Program.Traces
    (inspectProcess 7 (scannedProcess 1) scannedContainer (0 + scanBudget) >>= _) _ _
  exact Program.traces_bind_ok.mpr ⟨_, _, [], (List.append_nil _).symm, hprocess, rfl, rfl⟩

/-- A table of one process. -/
theorem ended_one (process : RawProcessIdentity) (pid : ℤ) (identity : RawProcessIdentity)
    (first moment last : ℕ) (_ : first ≤ moment) (_ : moment ≤ last)
    (h : (if pid = 7 then some process else none).any (sameProcess identity) = true)
    (_ : (if pid = 7 then some process else none).any (sameProcess identity) = true) :
    (if pid = 7 then some process else none).any (sameProcess identity) = true := h

/-- The number 7 belongs to one process at every moment, and to no other. -/
def quietTable : ProcessTable where
  holder _ pid := if pid = 7 then some (scannedProcess 1) else none
  ended := ended_one (scannedProcess 1)

/-- Who has the number 7: another process from the call behind the identity on. -/
def reusedHolder (moment : ℕ) (pid : ℤ) : Option RawProcessIdentity :=
  if pid = 7 then some (scannedProcess (if moment ≤ 5 then 1 else 2)) else none

/-- Who has the number 7 in the reused table depends on the moment. -/
theorem reusedHolder_any {moment : ℕ} {pid : ℤ} {identity : RawProcessIdentity}
    (h : (reusedHolder moment pid).any (sameProcess identity) = true) :
    pid = 7 ∧ identity.startSeconds = if moment ≤ 5 then 1 else 2 := by
  unfold reusedHolder at h
  split at h
  · rename_i hpid
    simp only [Option.any_some, sameProcess, scannedProcess, Bool.and_eq_true, beq_iff_eq] at h
    exact ⟨hpid, h.1.2⟩
  · cases h

/-- In the reused table a process that ended does not come back. -/
theorem ended_reused (pid : ℤ) (identity : RawProcessIdentity) (first moment last : ℕ)
    (hfirst : first ≤ moment) (hlast : moment ≤ last)
    (h : (reusedHolder first pid).any (sameProcess identity) = true)
    (h' : (reusedHolder last pid).any (sameProcess identity) = true) :
    (reusedHolder moment pid).any (sameProcess identity) = true := by
  have hseconds := (reusedHolder_any h).2.symm.trans (reusedHolder_any h').2
  have hmoment : (if moment ≤ 5 then 1 else 2) = if first ≤ 5 then 1 else 2 := by
    split at hseconds <;> split at hseconds <;> split <;> omega
  rw [reusedHolder, hmoment]
  exact h

/-- The number 7 passes on behind the identity. -/
def reusedTable : ProcessTable := ⟨reusedHolder, ended_reused⟩

/-- The only identity of the run is the one at its sixth call.  The run has seven calls, so the
position of the identity in it is found by looking at each. -/
theorem identity_scanned {before after : ProcTrace} {pid : ℤ} {identity : RawProcessIdentity}
    (h : scannedRun = before ++ ⟨.processIdentity pid, some identity⟩ :: after) :
    before.length = 5 ∧ pid = 7 ∧ identity = scannedProcess 1 := by
  have hget : scannedRun[before.length]? = some ⟨.processIdentity pid, some identity⟩ := by
    rw [h, List.getElem?_append_right (Nat.le_refl _), Nat.sub_self]
    rfl
  have hlength : before.length < 7 := by
    have hall : scannedRun.length = 7 := rfl
    rw [h, List.length_append, List.length_cons] at hall
    omega
  generalize before.length = n at hget hlength
  rcases n with _ | _ | _ | _ | _ | _ | _ | n
  · cases hget
  · cases hget
  · cases hget
  · cases hget
  · cases hget
  · cases hget
    exact ⟨rfl, rfl, rfl⟩
  · cases hget
  · omega

/-- The sample run is consistent with every table in which the process holds its number throughout.
-/
theorem consistent_scanned (table : ProcessTable) (h : table.Holds 5 7 (scannedProcess 1)) :
    Consistent table scannedRun := by
  intro before pid identity after ht
  obtain ⟨hlength, rfl, rfl⟩ := identity_scanned ht
  rwa [hlength]

/-- In the quiet table the number stays with its process. -/
theorem not_passedOn_quiet : ¬PassedOn quietTable scannedRun := by
  rintro ⟨before, pid, identity, middle, ⟨exchange, after, ht, -⟩, hpassed⟩
  obtain ⟨-, rfl, rfl⟩ := identity_scanned ht
  exact hpassed rfl

/-- In the reused table the number passes to another process during the scan. -/
theorem passedOn_reused : PassedOn reusedTable scannedRun := by
  refine ⟨scannedRun.take 5, 7, scannedProcess 1, [], ⟨_, [], rfl, rfl, by simp⟩, ?_⟩
  intro hholds
  have hholder : (reusedHolder 6 7).any (sameProcess (scannedProcess 1)) = true := hholds
  cases hholder

end Sample

/-- The scan reports no evidence though it read the working directory of another process than the
one whose identity it had checked. -/
theorem no_evidence_of_reused_pid :
    ¬∀ container table t, Consistent table t →
      Program.Traces (scanVisibleProcesses container) t (.ok .noEvidence) →
      Honest container table t := by
  intro h
  have hhonest := h scannedContainer reusedTable scannedRun (consistent_scanned reusedTable rfl)
    traces_scanned
  obtain ⟨before, pid, identity, middle, hbehind, hpassed⟩ := passedOn_reused
  refine hpassed (hhonest.same before pid identity middle hbehind _ ?_ (Nat.le_refl _))
  omega

/-- The condition tells the two tables apart: the run is the same, and it is honest only where the
number stays with its process. -/
theorem no_evidence_one_process_iff_tables :
    Honest scannedContainer quietTable scannedRun ∧
      ¬Honest scannedContainer reusedTable scannedRun :=
  ⟨(no_evidence_one_process_iff _ _ _ _ (consistent_scanned quietTable rfl) traces_scanned).1
      not_passedOn_quiet rfl,
    (no_evidence_one_process_iff _ _ _ _ (consistent_scanned reusedTable rfl) traces_scanned).2
      passedOn_reused rfl⟩

end Scan
end MacOs
end ThinWorkspace
