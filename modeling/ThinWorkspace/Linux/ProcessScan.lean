/-
# The process scan on Linux

Source: `crates/thinws-adapter-linux/src/process.rs`, from `scan_visible_processes` to
`process_link_evidence_conflicts`.

A `ProcCall` is one read of `/proc`, of a path a link reported, of the clock or of the
process itself.  A directory is read entry by entry; here the call that opens it returns
every entry the loop will meet, with a missing one for an entry that could not be read.
Nothing ties the results of two calls together: processes may start and end and their
numbers be used again between any two of them.
-/

import ThinWorkspace.Core.Components
import ThinWorkspace.Core.Materialization
import ThinWorkspace.Core.Removal
import ThinWorkspace.Core.Status
import ThinWorkspace.Core.Workspace
import ThinWorkspace.Lib.Trace

namespace ThinWorkspace
namespace Linux
namespace Scan

open ThinWorkspace.Core Lib

/-! ### Texts

What the scan reads of the files of `/proc`: a number, the user, and the start time of a
process. -/

/-- `slice::split`: the parts between the bytes that separate them, the empty ones included. -/
def splitBytes (separates : UInt8 → Bool) : List UInt8 → List (List UInt8)
  | [] => [[]]
  | byte :: bytes =>
    if separates byte then [] :: splitBytes separates bytes
    else match splitBytes separates bytes with
      | [] => [[byte]]
      | part :: parts => (byte :: part) :: parts

/-- `str::parse` of an unsigned type with the given number of values. -/
def parseUnsigned (size : ℕ) (text : List UInt8) : Option ℕ :=
  let digits := if text.head? = some (UInt8.ofNat 43) then text.tail else text
  let value := digits.foldl (fun value digit => value * 10 + (digit.toNat - 48)) 0
  if digits.isEmpty ∨ digits.all isDigit = false ∨ size ≤ value then none else some value

/-- The number a name of `/proc` is, if it is one. -/
def processId (name : List UInt8) : Option ℕ := parseUnsigned 4294967296 name

/-- The rest of a line behind `Uid:`, if it begins so. -/
def uidLine? (line : List UInt8) : Option (List UInt8) :=
  if line.take 4 = asBytes "Uid:" then some (line.drop 4) else none

/-- The effective user of a `status` file: the second number of its `Uid:` line. -/
def statusUid (status : List UInt8) : Option ℕ := do
  let line ← (splitBytes (fun byte => byte.toNat == 10) status).findSome? uidLine?
  let words := (splitBytes (fun byte => byte.toNat == 9 || byte.toNat == 32) line).filter
    fun word => !word.isEmpty
  let word ← words[1]?
  parseUnsigned 4294967296 word

/-- The text behind the last `) `, since the name of a process may itself have brackets. -/
def afterName? (stat : List UInt8) : Option (List UInt8) :=
  ((stat.tails.filter fun rest => rest.take 2 == asBytes ") ").getLast?).map (·.drop 2)

/-- The start time of a `stat` file: the twentieth word behind the name. -/
def startTicks (stat : List UInt8) : Option ℕ := do
  let rest ← afterName? stat
  let word ← (splitBytes (fun byte => byte.toNat == 32) rest)[19]?
  parseUnsigned 18446744073709551616 word

/-! ### Calls

Every read may be answered in any way at any time, since processes come and go.  A read that
failed returns nothing. -/

/-- A link of a process directory: its working directory, or one of its descriptors. -/
inductive ProcLink where
  | cwd
  | fd (name : List UInt8)
deriving DecidableEq

/-- One read; a process directory is named by its entry in `/proc`. -/
inductive ProcCall where
  | now
  | readProc
  | ownPid
  | euid
  | readStatus (dir : List UInt8)
  | readStat (dir : List UInt8)
  | readFds (dir : List UInt8)
  | readLink (dir : List UInt8) (link : ProcLink)
  | linkMetadata (dir : List UInt8) (link : ProcLink)
  | metadata (path : List UInt8)
  | canonicalize (path : List UInt8)
deriving DecidableEq

/-- What a read returns, nothing where it failed. -/
@[reducible] def ProcCall.Result : ProcCall → Type
  | .now | .ownPid | .euid => ℕ
  | .readProc | .readFds _ => Option (List (Option (List UInt8)))
  | .linkMetadata _ _ | .metadata _ => Option FileIdentity
  | _ => Option (List UInt8)

/-- A scan, or a part of one; it does not fail. -/
abbrev ProcScan (α : Type) := Program ProcCall ProcCall.Result Empty α

/-- A run of a scan: the calls it made, with the answers they had. -/
abbrev ProcTrace := List (Exchange ProcCall ProcCall.Result)

/-- Makes a call.  Every answer is possible at any moment, since processes come and go. -/
abbrev call (c : ProcCall) : ProcScan c.Result := Program.perform c

/-! ### One process

A process is told from a later one with its number by its user and its start.  A link
matches when its text and what it opens lead into the container. -/

/-- `ProcessIdentity`: what tells a process from a later one with its number. -/
structure ProcessIdentity where
  uid : ℕ
  startTicks : ℕ
deriving DecidableEq

/-- `read_process_identity`: the user and the start time, from two files that may belong to
different processes. -/
def readProcessIdentity (dir : List UInt8) : ProcScan (Option ProcessIdentity) := do
  match (← call (.readStatus dir)).bind statusUid with
  | none => pure none
  | some uid =>
    let stat ← call (.readStat dir)
    pure ((stat.bind startTicks).map fun ticks => ⟨uid, ticks⟩)

/-- `process_link_evidence_conflicts`: the link and the path it reports lead to different files, or
the path is not in the container after all. -/
def processLinkEvidenceConflicts (throughProc throughPath : FileIdentity)
    (canonical container : List UInt8) : Bool :=
  throughProc.device != throughPath.device || throughProc.inode != throughPath.inode ||
    !startsWith canonical container

/-- `matches_process_link`: whether the link matches, and the flag that was passed. -/
def matchesProcessLink (dir : List UInt8) (link : ProcLink) (container : List UInt8)
    (incomplete : Bool) : ProcScan (Bool × Bool) := do
  match ← call (.readLink dir link) with
  | none => pure (false, true)
  | some reported =>
    if startsWith reported container = false then pure (false, incomplete)
    else do
      let throughProc ← call (.linkMetadata dir link)
      let throughPath ← call (.metadata reported)
      let canonical ← call (.canonicalize reported)
      match throughProc, throughPath, canonical with
      | some throughProc, some throughPath, some canonical =>
        if processLinkEvidenceConflicts throughProc throughPath canonical container then
          pure (false, true)
        else pure (true, incomplete)
      | _, _, _ => pure (false, true)

/-- The loop over the descriptors: the flag it leaves, nothing where use is confirmed. -/
def inspectFds (dir : List UInt8) (identity : ProcessIdentity) (container : List UInt8)
    (deadline : ℕ) : List (Option (List UInt8)) → Bool → ProcScan (Option Bool)
  | [], incomplete => pure (some incomplete)
  | entry :: fds, incomplete => do
    let now ← call .now
    if deadline ≤ now then pure (some true)
    else match entry with
      | none => inspectFds dir identity container deadline fds true
      | some name => do
        let (matched, incomplete) ← matchesProcessLink dir (.fd name) container incomplete
        if matched then do
          let current ← readProcessIdentity dir
          if current = some identity then pure none
          else inspectFds dir identity container deadline fds true
        else inspectFds dir identity container deadline fds incomplete

/-- The second operand of the `&&` behind the working directory. -/
def confirmsIdentity (dir : List UInt8) (identity : ProcessIdentity) (matched : Bool) :
    ProcScan Bool :=
  if matched then do
    let current ← readProcessIdentity dir
    pure (decide (current = some identity))
  else pure false

/-- `inspect_process`: a match of the working directory counts where the identity is confirmed,
then the descriptors are looked at, and the identity is compared at the end. -/
def inspectProcess (dir : List UInt8) (identity : ProcessIdentity) (container : List UInt8)
    (deadline : ℕ) : ProcScan ProcessUse := do
  let (matched, incomplete) ← matchesProcessLink dir .cwd container false
  let confirmed ← confirmsIdentity dir identity matched
  if confirmed then pure .confirmedInUse
  else match ← call (.readFds dir) with
    | none => pure .scanIncomplete
    | some fds =>
      match ← inspectFds dir identity container deadline fds incomplete with
      | none => pure .confirmedInUse
      | some incomplete => do
        let current ← readProcessIdentity dir
        pure (if incomplete ∨ current ≠ some identity then .scanIncomplete else .noEvidence)

/-! ### The scan

The processes are looked at one after the other, until the time is over or use is confirmed.
-/

/-- `SCAN_BUDGET`, two seconds in nanoseconds, after which a scan is incomplete. -/
def scanBudget : ℕ := 2000000000

/-- The loop over the entries of `/proc`, which stops at the deadline or at a confirmed use. -/
def scanProcesses (container : List UInt8) (deadline ownPid ownUid : ℕ) :
    List (Option (List UInt8)) → Bool → ProcScan ProcessUse
  | [], incomplete => pure (if incomplete then .scanIncomplete else .noEvidence)
  | entry :: processes, incomplete => do
    let now ← call .now
    if deadline ≤ now then pure .scanIncomplete
    else match entry with
      | none => scanProcesses container deadline ownPid ownUid processes true
      | some name =>
        match processId name with
        | none => scanProcesses container deadline ownPid ownUid processes incomplete
        | some pid =>
          if pid = ownPid then scanProcesses container deadline ownPid ownUid processes incomplete
          else do
            match ← readProcessIdentity name with
            | none => scanProcesses container deadline ownPid ownUid processes true
            | some before =>
              if before.uid ≠ ownUid then
                scanProcesses container deadline ownPid ownUid processes incomplete
              else match ← inspectProcess name before container deadline with
                | .confirmedInUse => pure .confirmedInUse
                | .scanIncomplete => scanProcesses container deadline ownPid ownUid processes true
                | .noEvidence =>
                  scanProcesses container deadline ownPid ownUid processes incomplete

/-- `scan_visible_processes`: the processes of the user other than the program itself. -/
def scanVisibleProcesses (container : List UInt8) : ProcScan ProcessUse := do
  let start ← call .now
  match ← call .readProc with
  | none => pure .scanIncomplete
  | some processes => do
    let ownPid ← call .ownPid
    let ownUid ← call .euid
    scanProcesses container (start + scanBudget) ownPid ownUid processes false

/-! ### What a run read

What a run has read, in terms of its answers alone: `Honest` is the meaning of a scan
without evidence, and `Overlooked` the one way in which it fails. -/

/-- The identity of the process was read, with this result. -/
def IdentityRead (dir : List UInt8) (result : Option ProcessIdentity) (part : ProcTrace) : Prop :=
  Program.Traces (readProcessIdentity dir) part (.ok result)

/-- A link was read, and what it reports is not in the container. -/
def LeadsAway (container dir : List UInt8) (link : ProcLink) (part : ProcTrace) : Prop :=
  ∃ reported, part = [⟨.readLink dir link, some reported⟩] ∧ startsWith reported container = false

/-- A link was read that leads into the container, by its text and by what it opens. -/
def LeadsIn (container dir : List UInt8) (link : ProcLink) (part : ProcTrace) : Prop :=
  ∃ reported throughProc throughPath canonical,
    part = [⟨.readLink dir link, some reported⟩, ⟨.linkMetadata dir link, some throughProc⟩,
      ⟨.metadata reported, some throughPath⟩, ⟨.canonicalize reported, some canonical⟩] ∧
    startsWith reported container = true ∧
    processLinkEvidenceConflicts throughProc throughPath canonical container = false

/-- Every descriptor was listed by name and leads away. -/
def DescriptorsAway (container dir : List UInt8) :
    List (Option (List UInt8)) → ProcTrace → Prop
  | [], part => part = []
  | entry :: fds, part => ∃ name now link rest, entry = some name ∧
      part = ⟨.now, now⟩ :: (link ++ rest) ∧ LeadsAway container dir (.fd name) link ∧
      DescriptorsAway container dir fds rest

/-- The process was read in full, from one reading of its identity to another with the same
result, and none of its links leads into the container. -/
def FullyRead (container dir : List UInt8) (ownUid : ℕ) (part : ProcTrace) : Prop :=
  ∃ identity first cwd fds descriptors last,
    part = first ++ (cwd ++ ⟨.readFds dir, some fds⟩ :: (descriptors ++ last)) ∧
    identity.uid = ownUid ∧ IdentityRead dir (some identity) first ∧
    LeadsAway container dir .cwd cwd ∧ DescriptorsAway container dir fds descriptors ∧
    IdentityRead dir (some identity) last

/-- The process belongs to somebody else, so its links are not looked at. -/
def OtherUser (dir : List UInt8) (ownUid : ℕ) (part : ProcTrace) : Prop :=
  ∃ identity, identity.uid ≠ ownUid ∧ IdentityRead dir (some identity) part

/-- No link into the container was seen in the run. -/
def Unseen (container : List UInt8) (t : ProcTrace) : Prop :=
  ∀ dir link reported, ⟨.readLink dir link, some reported⟩ ∈ t →
    startsWith reported container = false

/-- An entry of `/proc` was read as far as it has to be: an entry that is a process other
than the scan itself is somebody else's or was read in full. -/
def EntryRead (container : List UInt8) (ownPid ownUid : ℕ) (t : ProcTrace)
    (entry : Option (List UInt8)) : Prop :=
  ∃ name, entry = some name ∧ ∀ pid, processId name = some pid → pid ≠ ownPid →
    ∃ part, part <:+: t ∧ (OtherUser name ownUid part ∨ FullyRead container name ownUid part)

/-- Every process the scan listed, itself and other users' processes apart, was read in
full, and no link into the container was seen. -/
structure Honest (container : List UInt8) (t : ProcTrace) : Prop where
  listed : ∃ start processes ownPid ownUid rest,
    t = ⟨.now, start⟩ :: ⟨.readProc, some processes⟩ :: ⟨.ownPid, ownPid⟩ ::
      ⟨.euid, ownUid⟩ :: rest ∧
    ∀ entry ∈ processes, EntryRead container ownPid ownUid rest entry
  unseen : Unseen container t

/-- The working directory of a process leads into the container, and the identity that is
read next is not the one read before. -/
def Overlooks (container : List UInt8) (part : ProcTrace) : Prop :=
  ∃ dir identity current first cwd again, part = first ++ (cwd ++ again) ∧
    IdentityRead dir (some identity) first ∧ LeadsIn container dir .cwd cwd ∧
    IdentityRead dir current again ∧ current ≠ some identity

/-- Somewhere in the run a match is overlooked, its identity not being confirmed. -/
def Overlooked (container : List UInt8) (t : ProcTrace) : Prop :=
  ∃ part, part <:+: t ∧ Overlooks container part

/-! ### One link

Each function is followed with what its flag says at the end.  The loop is an induction on
the entries, and the equivalence follows because an overlooked match has seen a link into
the container. -/

section Parts

variable {container dir : List UInt8} {link : ProcLink} {t t' : ProcTrace}
variable {identity : ProcessIdentity} {deadline ownPid ownUid : ℕ} {incomplete flag : Bool}

open Program (Traces Only traces_bind_ok traces_perform_bind traces_pure)

/-- Nothing was seen in two parts exactly if nothing was seen in either. -/
theorem unseen_append : Unseen container (t ++ t') ↔ Unseen container t ∧ Unseen container t' := by
  constructor
  · intro h
    exact ⟨fun dir link reported hmem => h dir link reported (List.mem_append_left _ hmem),
      fun dir link reported hmem => h dir link reported (List.mem_append_right _ hmem)⟩
  · rintro ⟨hleft, hright⟩ dir link reported hmem
    rcases List.mem_append.mp hmem with hmem | hmem
    · exact hleft dir link reported hmem
    · exact hright dir link reported hmem

/-- Nothing is seen in no part at all. -/
theorem unseen_nil : Unseen container [] := fun _ _ _ h => absurd h List.not_mem_nil

/-- A call that reads no link shows none, so nothing is seen in what it begins if nothing is in the
rest. -/
theorem unseen_cons {exchange : Exchange ProcCall ProcCall.Result}
    (h : ∀ dir link, exchange.op ≠ .readLink dir link) (ht : Unseen container t) :
    Unseen container (exchange :: t) := by
  intro dir link reported hmem
  rcases List.mem_cons.mp hmem with rfl | hmem
  · exact absurd rfl (h dir link)
  · exact ht dir link reported hmem

/-- A link that leads away is not one into the container. -/
theorem LeadsAway.unseen (h : LeadsAway container dir link t) : Unseen container t := by
  obtain ⟨reported, rfl, haway⟩ := h
  intro dir' link' reported' hmem
  cases List.mem_singleton.mp hmem
  exact haway

/-- A link that leads in has been seen, so a part that has seen nothing followed none. -/
theorem LeadsIn.not_unseen (h : LeadsIn container dir link t) : ¬Unseen container t := by
  obtain ⟨reported, _, _, _, rfl, hinside, -⟩ := h
  intro hunseen
  have haway := hunseen dir link reported List.mem_cons_self
  rw [hinside] at haway
  cases haway

/-- Reading an identity reads no link, so nothing can be seen in it. -/
theorem IdentityRead.unseen {result : Option ProcessIdentity} (h : IdentityRead dir result t) :
    Unseen container t := by
  have honly : Only (fun c => ∀ dir link, c ≠ .readLink dir link) (readProcessIdentity dir) := by
    refine Only.bind (Program.only_perform fun _ _ => by simp) fun status => ?_
    split
    · exact Program.only_pure
    · exact Only.bind (Program.only_perform fun _ _ => by simp) fun _ => Program.only_pure
  intro dir' link' reported hmem
  exact absurd rfl (honly.traces h _ hmem dir' link')

/-- **One link**: it leads away, or into the container, or the flag is raised. -/
theorem matchesProcessLink_traces {matched : Bool}
    (h : Traces (matchesProcessLink dir link container incomplete) t (.ok (matched, flag))) :
    (matched = false ∧ flag = incomplete ∧ LeadsAway container dir link t) ∨
      (matched = true ∧ flag = incomplete ∧ LeadsIn container dir link t) ∨
      (matched = false ∧ flag = true) := by
  obtain ⟨reported, rest, rfl, hread⟩ := traces_perform_bind.mp h
  cases reported with
  | none =>
    cases hread.2
    exact .inr (.inr ⟨rfl, rfl⟩)
  | some reported =>
    dsimp only at hread
    split at hread
    · rename_i haway
      obtain ⟨rfl, hresult⟩ := hread
      cases hresult
      exact .inl ⟨rfl, rfl, reported, rfl, haway⟩
    · rename_i hinside
      obtain ⟨throughProc, _, rfl, h₁⟩ := traces_perform_bind.mp hread
      obtain ⟨throughPath, _, rfl, h₂⟩ := traces_perform_bind.mp h₁
      obtain ⟨canonical, _, rfl, h₃⟩ := traces_perform_bind.mp h₂
      split at h₃
      · rename_i throughProc throughPath canonical
        split at h₃
        · cases h₃.2
          exact .inr (.inr ⟨rfl, rfl⟩)
        · rename_i hagree
          obtain ⟨rfl, hresult⟩ := h₃
          cases hresult
          exact .inr (.inl ⟨rfl, rfl, reported, throughProc, throughPath, canonical, rfl,
            eq_true_of_ne_false hinside, eq_false_of_ne_true hagree⟩)
      · cases h₃.2
        exact .inr (.inr ⟨rfl, rfl⟩)

/-- **The descriptors**: without a flag at the end, there was none before, and all of them
lead away. -/
theorem inspectFds_traces {fds : List (Option (List UInt8))}
    (h : Traces (inspectFds dir identity container deadline fds incomplete) t
      (.ok (some false))) :
    incomplete = false ∧ DescriptorsAway container dir fds t := by
  induction fds generalizing incomplete t with
  | nil =>
    obtain ⟨rfl, hresult⟩ := h
    cases hresult
    exact ⟨rfl, rfl⟩
  | cons entry fds ih =>
    obtain ⟨now, rest, rfl, hnow⟩ := traces_perform_bind.mp h
    dsimp only at hnow
    split at hnow
    · cases hnow.2
    · cases entry with
      | none => exact absurd (ih hnow).1 (by decide)
      | some name =>
        obtain ⟨⟨matched, flag⟩, link, rest, rfl, hlink, hrest⟩ := traces_bind_ok.mp hnow
        rcases matchesProcessLink_traces hlink with
          ⟨rfl, rfl, haway⟩ | ⟨rfl, rfl, -⟩ | ⟨rfl, rfl⟩
        · obtain ⟨hflag, hfds⟩ := ih hrest
          exact ⟨hflag, name, now, link, rest, rfl, rfl, haway, hfds⟩
        · obtain ⟨current, _, _, rfl, -, hcurrent⟩ := traces_bind_ok.mp hrest
          split at hcurrent
          · cases hcurrent.2
          · exact absurd (ih hcurrent).1 (by decide)
        · exact absurd (ih hrest).1 (by decide)

/-- Descriptors that all lead away show nothing of the container. -/
theorem DescriptorsAway.unseen {fds : List (Option (List UInt8))}
    (h : DescriptorsAway container dir fds t) : Unseen container t := by
  induction fds generalizing t with
  | nil =>
    cases h
    exact unseen_nil
  | cons entry fds ih =>
    obtain ⟨name, now, link, rest, rfl, rfl, haway, hrest⟩ := h
    exact unseen_cons (fun _ _ => by simp) (unseen_append.mpr ⟨haway.unseen, ih hrest⟩)

/-- **One process**: where the scan of a process has no evidence, the process was read in
full, or its working directory was overlooked. -/
theorem inspectProcess_traces {first : ProcTrace} (hfirst : IdentityRead dir (some identity) first)
    (huid : identity.uid = ownUid)
    (h : Traces (inspectProcess dir identity container deadline) t (.ok .noEvidence)) :
    (FullyRead container dir ownUid (first ++ t) ∧ Unseen container t) ∨
      ∃ part rest, t = part ++ rest ∧ Overlooks container (first ++ part) := by
  obtain ⟨⟨matched, flag⟩, cwd, rest, rfl, hcwd, h₁⟩ := traces_bind_ok.mp h
  obtain ⟨confirmed, again, rest, rfl, hagain, h₂⟩ := traces_bind_ok.mp h₁
  rcases matchesProcessLink_traces hcwd with ⟨rfl, rfl, haway⟩ | ⟨rfl, rfl, hin⟩ | ⟨rfl, rfl⟩
  · obtain ⟨rfl, hconfirmed⟩ := hagain
    cases hconfirmed
    obtain ⟨fds, rest, rfl, h₃⟩ := traces_perform_bind.mp h₂
    cases fds with
    | none => cases h₃.2
    | some fds =>
      obtain ⟨result, descriptors, rest, rfl, hfds, h₄⟩ := traces_bind_ok.mp h₃
      rcases result with _ | flag
      · cases h₄.2
      · obtain ⟨current, last, rest, rfl, hlast, hend, hresult⟩ := traces_bind_ok.mp h₄
        subst hend
        split at hresult
        · cases hresult
        · rename_i hclean
          rw [not_or, not_not] at hclean
          obtain ⟨hflag, rfl⟩ := hclean
          obtain rfl : flag = false := eq_false_of_ne_true hflag
          obtain ⟨-, hdescriptors⟩ := inspectFds_traces hfds
          refine .inl ⟨⟨identity, first, cwd, fds, descriptors, last, by simp, huid, hfirst, haway,
            hdescriptors, hlast⟩, ?_⟩
          refine unseen_append.mpr ⟨haway.unseen, ?_⟩
          refine unseen_cons (fun _ _ => by simp) (unseen_append.mpr ⟨hdescriptors.unseen, ?_⟩)
          rw [List.append_nil]
          exact IdentityRead.unseen hlast
  · -- The identity that is read behind a match decides what becomes of it.
    obtain ⟨current, last, _, rfl, hlast, hend, hconfirmed⟩ := traces_bind_ok.mp hagain
    subst hend
    cases hconfirmed
    rw [List.append_nil] at *
    by_cases hsame : current = some identity
    · rw [if_pos (decide_eq_true hsame)] at h₂
      cases h₂.2
    · refine .inr ⟨cwd ++ last, rest, by simp, ?_⟩
      exact ⟨dir, identity, current, first, cwd, last, rfl, hfirst, hin, hlast, hsame⟩
  · obtain ⟨rfl, hconfirmed⟩ := hagain
    cases hconfirmed
    obtain ⟨fds, rest, rfl, h₃⟩ := traces_perform_bind.mp h₂
    cases fds with
    | none => cases h₃.2
    | some fds =>
      obtain ⟨result, descriptors, rest, rfl, hfds, h₄⟩ := traces_bind_ok.mp h₃
      rcases result with _ | flag
      · cases h₄.2
      · obtain ⟨current, last, rest, rfl, -, -, hresult⟩ := traces_bind_ok.mp h₄
        split at hresult
        · cases hresult
        · rename_i hclean
          rw [not_or] at hclean
          obtain rfl : flag = false := eq_false_of_ne_true hclean.1
          exact absurd (inspectFds_traces hfds).1 (by decide)

/-- What a part overlooks the run overlooks, whatever stands around the part. -/
theorem Overlooked.mono (h : Overlooked container t) (hsub : t <:+: t') :
    Overlooked container t' := by
  obtain ⟨part, hpart, hoverlooks⟩ := h
  exact ⟨part, hpart.trans hsub, hoverlooks⟩

/-- So it does with one exchange in front, as a run is built up. -/
theorem Overlooked.cons {exchange : Exchange ProcCall ProcCall.Result}
    (h : Overlooked container t) : Overlooked container (exchange :: t) :=
  h.mono (List.suffix_cons exchange t).isInfix

/-- So it does with another part in front, as a run is built up. -/
theorem Overlooked.right (h : Overlooked container t') : Overlooked container (t ++ t') :=
  h.mono (List.suffix_append t t').isInfix

/-- What was read of an entry in a part was read in the run. -/
theorem EntryRead.mono {entry : Option (List UInt8)}
    (h : EntryRead container ownPid ownUid t entry) (hsub : t <:+: t') :
    EntryRead container ownPid ownUid t' entry := by
  obtain ⟨name, hname, hread⟩ := h
  refine ⟨name, hname, fun pid hpid hne => ?_⟩
  obtain ⟨part, hpart, hpassed⟩ := hread pid hpid hne
  exact ⟨part, hpart.trans hsub, hpassed⟩

/-- **The loop**: a scan without evidence that overlooked nothing has read every entry. -/
theorem scanProcesses_traces {processes : List (Option (List UInt8))}
    (hno : ¬Overlooked container t)
    (h : Traces (scanProcesses container deadline ownPid ownUid processes incomplete) t
      (.ok .noEvidence)) :
    incomplete = false ∧ Unseen container t ∧
      ∀ entry ∈ processes, EntryRead container ownPid ownUid t entry := by
  induction processes generalizing incomplete t with
  | nil =>
    obtain ⟨rfl, hresult⟩ := h
    split at hresult
    · cases hresult
    · rename_i hflag
      exact ⟨eq_false_of_ne_true hflag, unseen_nil, fun _ hmem => absurd hmem List.not_mem_nil⟩
  | cons entry processes ih =>
    obtain ⟨now, rest, rfl, hnow⟩ := traces_perform_bind.mp h
    -- The reads of one entry, in front of the rest of the loop.
    have hentry : ∀ flag part tail, rest = part ++ tail → Unseen container part →
        EntryRead container ownPid ownUid part entry →
        Traces (scanProcesses container deadline ownPid ownUid processes flag) tail
          (.ok .noEvidence) →
        flag = false ∧ Unseen container (⟨.now, now⟩ :: rest) ∧
          ∀ e ∈ entry :: processes, EntryRead container ownPid ownUid (⟨.now, now⟩ :: rest) e := by
      rintro flag part tail rfl hpart hread hloop
      have htail : tail <:+: ⟨.now, now⟩ :: (part ++ tail) :=
        ((List.suffix_append part tail).trans (List.suffix_cons _ _)).isInfix
      have hfront : part <:+: ⟨.now, now⟩ :: (part ++ tail) :=
        (List.prefix_append part tail).isInfix.trans (List.suffix_cons _ _).isInfix
      obtain ⟨hflag, hunseen, hreads⟩ := ih (fun hover => hno (hover.mono htail)) hloop
      refine ⟨hflag, unseen_cons (fun _ _ => by simp) (unseen_append.mpr ⟨hpart, hunseen⟩), ?_⟩
      exact List.forall_mem_cons.mpr ⟨hread.mono hfront, fun e he => (hreads e he).mono htail⟩
    split at hnow
    · cases hnow.2
    · cases entry with
      | none =>
        obtain ⟨hflag, -⟩ := ih (fun hover => hno hover.cons) hnow
        cases hflag
      | some name =>
        dsimp only at hnow
        split at hnow
        · rename_i hnone
          refine hentry _ [] rest rfl unseen_nil ⟨name, rfl, fun pid hpid => ?_⟩ hnow
          rw [hnone] at hpid
          cases hpid
        · rename_i pid hpid
          split at hnow
          · rename_i hown
            refine hentry _ [] rest rfl unseen_nil ⟨name, rfl, fun pid' hpid' hne => ?_⟩ hnow
            rw [hpid] at hpid'
            cases hpid'
            exact absurd hown hne
          · obtain ⟨result, first, tail, rfl, hfirst, hrest⟩ := traces_bind_ok.mp hnow
            have hread : IdentityRead name result first := hfirst
            cases result with
            | none =>
              obtain ⟨hflag, -⟩ := ih (fun hover => hno hover.right.cons) hrest
              cases hflag
            | some before =>
              dsimp only at hrest
              split at hrest
              · rename_i hother
                refine hentry _ first tail rfl hread.unseen ⟨name, rfl, fun _ _ _ => ?_⟩ hrest
                exact ⟨first, List.infix_rfl, .inl ⟨before, hother, hread⟩⟩
              · rename_i hsame
                obtain ⟨use, part, tail, rfl, hprocess, hloop⟩ := traces_bind_ok.mp hrest
                cases use with
                | confirmedInUse => cases hloop.2
                | scanIncomplete =>
                  obtain ⟨hflag, -⟩ := ih (fun hover => hno hover.right.right.cons) hloop
                  cases hflag
                | noEvidence =>
                  rcases inspectProcess_traces hread (not_not.mp hsame) hprocess with
                    ⟨hfull, hunseen⟩ | ⟨front, back, rfl, hoverlooks⟩
                  · refine hentry _ (first ++ part) tail (by simp)
                      (unseen_append.mpr ⟨hread.unseen, hunseen⟩) ⟨name, rfl, fun _ _ _ => ?_⟩ hloop
                    exact ⟨first ++ part, List.infix_rfl, .inr hfull⟩
                  · refine absurd ⟨first ++ front, ?_, hoverlooks⟩ hno
                    exact ⟨[⟨.now, now⟩], back ++ tail, by simp⟩

/-- A run that overlooked a working directory has seen a link into the container. -/
theorem Overlooked.not_unseen (h : Overlooked container t) : ¬Unseen container t := by
  obtain ⟨_, ⟨before, after, rfl⟩, dir, _, _, first, cwd, again, rfl, -, hin, -⟩ := h
  intro hunseen
  have hmiddle := (unseen_append.mp (unseen_append.mp hunseen).1).2
  exact hin.not_unseen (unseen_append.mp (unseen_append.mp hmiddle).2).1

end Parts

/-- **When the scan is honest.**  A run that reports no evidence has read every process of
the user in full, with one identity and without a link into the container, where it
overlooked no working directory; where it did, it has seen a link into the container. -/
theorem no_evidence_iff (container : List UInt8) (t : ProcTrace) (outcome : ProcessUse)
    (h : Program.Traces (scanVisibleProcesses container) t (.ok outcome)) :
    (¬Overlooked container t → outcome = .noEvidence → Honest container t) ∧
      (Overlooked container t → outcome = .noEvidence → ¬Honest container t) := by
  constructor
  · rintro hno rfl
    obtain ⟨start, _, rfl, h₁⟩ := Program.traces_perform_bind.mp h
    obtain ⟨processes, _, rfl, h₂⟩ := Program.traces_perform_bind.mp h₁
    cases processes with
    | none => cases h₂.2
    | some processes =>
      obtain ⟨ownPid, _, rfl, h₃⟩ := Program.traces_perform_bind.mp h₂
      obtain ⟨ownUid, rest, rfl, h₄⟩ := Program.traces_perform_bind.mp h₃
      have hnoRest : ¬Overlooked container rest := fun hover => hno hover.cons.cons.cons.cons
      obtain ⟨-, hunseen, hread⟩ := scanProcesses_traces hnoRest h₄
      refine ⟨⟨start, processes, ownPid, ownUid, rest, rfl, hread⟩, ?_⟩
      refine unseen_cons (fun _ _ => by simp) (unseen_cons (fun _ _ => by simp) ?_)
      exact unseen_cons (fun _ _ => by simp) (unseen_cons (fun _ _ => by simp) hunseen)
  · rintro hover - hhonest
    exact hover.not_unseen hhonest.unseen

/-! ### Two runs

Two runs that both report no evidence: in one of them there was none, and in the other a
match was overlooked. -/

section Sample

/-- The entry `7` of `/proc`, which is a process. -/
def scannedName : List UInt8 := asBytes "7"

/-- Its `status`, of user 5, as the kernel prints it. -/
def scannedStatus : List UInt8 := asBytes "Name:\tx\nUid:\t0\t5\t0\t0\n"

/-- Its `stat`, with the start time 9 as the twenty-second field. -/
def scannedStat : List UInt8 := asBytes "7 (x) S 1 1 1 1 1 1 1 1 1 1 1 1 1 1 1 1 1 1 9 0\n"

/-- The container `/c`, of whose use the sample process is suspected. -/
def scannedContainer : List UInt8 := asBytes "/c"

/-- The reads of the identity of that process. -/
def scannedIdentity : ProcTrace :=
  [⟨.readStatus scannedName, some scannedStatus⟩, ⟨.readStat scannedName, some scannedStat⟩]

/-- Those reads show the user 5 and the start time 9. -/
theorem identityRead_scanned :
    IdentityRead scannedName (some ⟨5, 9⟩) scannedIdentity :=
  ⟨_, _, rfl, _, _, rfl, rfl, rfl⟩

/-- A link that leads into the container matches, and does not make the scan incomplete. -/
theorem matchesProcessLink_in {container dir : List UInt8} {link : ProcLink} {t : ProcTrace}
    {incomplete : Bool} (h : LeadsIn container dir link t) :
    Program.Traces (matchesProcessLink dir link container incomplete) t
      (.ok (true, incomplete)) := by
  obtain ⟨reported, throughProc, throughPath, canonical, rfl, hinside, hagree⟩ := h
  refine ⟨_, _, rfl, ?_⟩
  change Program.Traces (if startsWith reported container = false then _ else _) _ _
  rw [if_neg (by simp [hinside])]
  refine ⟨_, _, rfl, _, _, rfl, _, _, rfl, ?_⟩
  change Program.Traces (if processLinkEvidenceConflicts throughProc throughPath canonical container
    then _ else _) _ _
  rw [if_neg (by simp [hagree])]
  exact ⟨rfl, rfl⟩

/-- The working directory of the process is the container. -/
def scannedCwd : ProcTrace :=
  [⟨.readLink scannedName .cwd, some scannedContainer⟩,
    ⟨.linkMetadata scannedName .cwd, some ⟨1, 2⟩⟩, ⟨.metadata scannedContainer, some ⟨1, 2⟩⟩,
    ⟨.canonicalize scannedContainer, some scannedContainer⟩]

/-- The working directory of the sample process leads into the container. -/
theorem leadsIn_scanned : LeadsIn scannedContainer scannedName .cwd scannedCwd := by
  have hconflict : processLinkEvidenceConflicts ⟨1, 2⟩ ⟨1, 2⟩ scannedContainer scannedContainer =
      false := by
    rw [processLinkEvidenceConflicts, startsWith_self]
    rfl
  exact ⟨scannedContainer, ⟨1, 2⟩, ⟨1, 2⟩, scannedContainer, rfl, startsWith_self _, hconflict⟩

/-- The root directory is not in the container, so its link leads away. -/
theorem startsWith_scanned : startsWith [slash] scannedContainer = false :=
  startsWith_root (List.forall_mem_singleton.mpr (by decide)) (List.cons_ne_nil (asBytes "c") [])

/-- A link to the root directory does not match. -/
theorem matchesProcessLink_root {link : ProcLink} {incomplete : Bool} :
    Program.Traces (matchesProcessLink scannedName link scannedContainer incomplete)
      [⟨.readLink scannedName link, some [slash]⟩] (.ok (false, incomplete)) := by
  refine Program.traces_perform_bind.mpr ⟨some [slash], [], rfl, ?_⟩
  dsimp only
  rw [if_pos startsWith_scanned]
  exact ⟨rfl, rfl⟩

/-- The reads of descriptors that are open on the root directory. -/
def scannedFds : List (List UInt8) → ProcTrace
  | [] => []
  | name :: names =>
    ⟨.now, (0 : ℕ)⟩ :: ⟨.readLink scannedName (.fd name), some [slash]⟩ :: scannedFds names

/-- Descriptors that all lead to the root directory show nothing. -/
theorem inspectFds_scanned (names : List (List UInt8)) :
    Program.Traces
      (inspectFds scannedName ⟨5, 9⟩ scannedContainer scanBudget (names.map some) false)
      (scannedFds names) (.ok (some false)) := by
  induction names with
  | nil => exact ⟨rfl, rfl⟩
  | cons name names ih =>
    refine ⟨_, _, rfl, ?_⟩
    change Program.Traces (matchesProcessLink scannedName (.fd name) scannedContainer false >>= _)
      _ _
    exact Program.traces_bind_ok.mpr
      ⟨(false, false), [⟨.readLink scannedName (.fd name), some [slash]⟩], _, rfl,
        matchesProcessLink_root, ih⟩

/-- The names of the three descriptors that the process has. -/
def scannedNames : List (List UInt8) := [asBytes "0", asBytes "1", asBytes "3"]

/-- The reads of the descriptors, and of the identity behind them. -/
def scannedEnd : ProcTrace :=
  ⟨.readFds scannedName, some (scannedNames.map some)⟩ ::
    (scannedFds scannedNames ++ scannedIdentity)

/-- What a scan reads before the first entry of `/proc`. -/
def scannedStart (processes : List (Option (List UInt8))) : ProcTrace :=
  [⟨.now, (0 : ℕ)⟩, ⟨.readProc, some processes⟩, ⟨.ownPid, (1 : ℕ)⟩, ⟨.euid, (5 : ℕ)⟩]

/-- An inspection that does not confirm the working directory goes on with the descriptors, and
finds nothing there. -/
theorem inspectProcess_ends {cwd check : ProcTrace} {matched : Bool}
    (hcwd : Program.Traces (matchesProcessLink scannedName .cwd scannedContainer false) cwd
      (.ok (matched, false)))
    (hcheck : Program.Traces (confirmsIdentity scannedName ⟨5, 9⟩ matched) check (.ok false)) :
    Program.Traces (inspectProcess scannedName ⟨5, 9⟩ scannedContainer scanBudget)
      (cwd ++ (check ++ scannedEnd)) (.ok .noEvidence) := by
  refine Program.traces_bind_ok.mpr ⟨(matched, false), cwd, _, rfl, hcwd, ?_⟩
  refine Program.traces_bind_ok.mpr ⟨false, check, scannedEnd, rfl, hcheck, ?_⟩
  refine ⟨_, _, rfl, ?_⟩
  change Program.Traces (inspectFds scannedName ⟨5, 9⟩ scannedContainer scanBudget
    (scannedNames.map some) false >>= _) _ _
  refine Program.traces_bind_ok.mpr
    ⟨some false, scannedFds scannedNames, scannedIdentity, rfl, inspectFds_scanned _, ?_⟩
  exact ⟨_, _, rfl, _, _, rfl, rfl, rfl⟩

/-- The process `7` works in the container; its `status` cannot be read the second time. -/
def overlookingRun : ProcTrace :=
  scannedStart [some scannedName] ++ ⟨.now, (0 : ℕ)⟩ :: (scannedIdentity ++ (scannedCwd ++
    (⟨.readStatus scannedName, none⟩ :: scannedEnd)))

/-- The inspection overlooks the working directory where the identity cannot be read once. -/
theorem inspects_overlooking :
    Program.Traces (inspectProcess scannedName ⟨5, 9⟩ scannedContainer scanBudget)
      (scannedCwd ++ (⟨.readStatus scannedName, none⟩ :: scannedEnd)) (.ok .noEvidence) := by
  have hagain : Program.Traces (confirmsIdentity scannedName ⟨5, 9⟩ true)
      [⟨.readStatus scannedName, none⟩] (.ok false) := ⟨_, _, rfl, rfl, rfl⟩
  exact inspectProcess_ends (matchesProcessLink_in leadsIn_scanned) hagain

/-- The scan then reports no evidence, though one of its links leads into the container. -/
theorem traces_overlooking :
    Program.Traces (scanVisibleProcesses scannedContainer) overlookingRun (.ok .noEvidence) := by
  refine ⟨_, _, rfl, _, _, rfl, _, _, rfl, _, _, rfl, _, _, rfl, ?_⟩
  change Program.Traces (readProcessIdentity scannedName >>= _) _ _
  refine Program.traces_bind_ok.mpr ⟨_, scannedIdentity, _, rfl, identityRead_scanned, ?_⟩
  change Program.Traces
    (inspectProcess scannedName ⟨5, 9⟩ scannedContainer (0 + scanBudget) >>= _) _ _
  exact Program.traces_bind_ok.mpr
    ⟨_, _, [], (List.append_nil _).symm, inspects_overlooking, rfl, rfl⟩

/-- The process `7` works in the root directory, so there is nothing to find. -/
def quietRun : ProcTrace :=
  scannedStart [some scannedName] ++ ⟨.now, (0 : ℕ)⟩ :: (scannedIdentity ++
    (⟨.readLink scannedName .cwd, some [slash]⟩ :: scannedEnd))

/-- The scan of that run reports no evidence too. -/
theorem traces_quiet :
    Program.Traces (scanVisibleProcesses scannedContainer) quietRun (.ok .noEvidence) := by
  refine ⟨_, _, rfl, _, _, rfl, _, _, rfl, _, _, rfl, _, _, rfl, ?_⟩
  change Program.Traces (readProcessIdentity scannedName >>= _) _ _
  refine Program.traces_bind_ok.mpr ⟨_, scannedIdentity, _, rfl, identityRead_scanned, ?_⟩
  change Program.Traces
    (inspectProcess scannedName ⟨5, 9⟩ scannedContainer (0 + scanBudget) >>= _) _ _
  have hnone : Program.Traces (confirmsIdentity scannedName ⟨5, 9⟩ false) [] (.ok false) :=
    ⟨rfl, rfl⟩
  exact Program.traces_bind_ok.mpr ⟨.noEvidence, _, [], (List.append_nil _).symm,
    inspectProcess_ends matchesProcessLink_root hnone, rfl, rfl⟩

/-- A working directory that leads into the container is overlooked only where one was seen. -/
theorem not_overlooked_quiet : ¬Overlooked scannedContainer quietRun := by
  intro hover
  refine hover.not_unseen fun dir link reported hmem => ?_
  have hroot : reported = [slash] := by
    simp [quietRun, scannedStart, scannedEnd, scannedNames, scannedFds, scannedIdentity] at hmem
    rcases hmem with ⟨-, hroot⟩ | ⟨-, hroot⟩ | ⟨-, hroot⟩ | ⟨-, hroot⟩ <;> exact hroot
  rw [hroot]
  exact startsWith_scanned

/-- The first run overlooks its match: the link leads in, and the read behind it failed. -/
theorem overlooked_overlooking : Overlooked scannedContainer overlookingRun := by
  have hagain : IdentityRead scannedName none [⟨.readStatus scannedName, none⟩] :=
    ⟨none, [], rfl, rfl, rfl⟩
  refine ⟨scannedIdentity ++ (scannedCwd ++ [⟨.readStatus scannedName, none⟩]), ?_, scannedName,
    ⟨5, 9⟩, none, _, _, _, rfl, identityRead_scanned, leadsIn_scanned, hagain, by simp⟩
  exact ⟨scannedStart [some scannedName] ++ [⟨.now, (0 : ℕ)⟩],
    scannedEnd, rfl⟩

end Sample

/-- The scan reports no evidence behind a link into the container that it followed: the read of the
identity that should have confirmed it failed, and no flag was set. -/
theorem no_evidence_not_honest :
    ¬∀ container t, Program.Traces (scanVisibleProcesses container) t (.ok .noEvidence) →
      Honest container t := by
  intro h
  have hunseen := (h _ _ traces_overlooking).unseen scannedName .cwd scannedContainer (by
    simp [overlookingRun, scannedCwd])
  rw [startsWith_self] at hunseen
  cases hunseen

/-- The condition tells the two runs apart: both report no evidence, and only the one in which
nothing was overlooked is honest. -/
theorem no_evidence_iff_runs :
    Honest scannedContainer quietRun ∧ ¬Honest scannedContainer overlookingRun :=
  ⟨(no_evidence_iff _ _ _ traces_quiet).1 not_overlooked_quiet rfl,
    (no_evidence_iff _ _ _ traces_overlooking).2 overlooked_overlooking rfl⟩

end Scan
end Linux
end ThinWorkspace
