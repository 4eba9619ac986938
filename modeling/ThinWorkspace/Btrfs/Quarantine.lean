/-
# What the loop of a rollback does

Source: `detach_to_trash` and the loop of `rollback_created` in
`crates/thinws-adapter-linux/src/materializer.rs`.

`Rolled` is everything a run of the loop can be: it stops with nothing moved, or with an
object moved that is not the registered one, which it moves back or lists, or it moves
one entry, sees it in the trash, and goes on.  `rollbackEntries_rolled` says that there
are no other runs; every fact about the loop is an induction over `Rolled`.
-/

import ThinWorkspace.Btrfs.Frame

namespace ThinWorkspace
namespace Btrfs

open ThinWorkspace.Core Lib Ports
open Program

variable {ε α : Type}

/-- One call with its result, as a trace of a run lists them. -/
abbrev FsExchange := Exchange FsCall FsCall.Result

/-- A rename that took: the object is under its new name behind it. -/
def moved (source : Fd) (name : FileName) (target : Fd) (targetName : FileName) : FsExchange :=
  ⟨.renameNoReplace source name target targetName, .ok ()⟩

/-- An exchange that moved an object, wherever it came from and went to. -/
def Moves (exchange : FsExchange) : Prop :=
  ∃ source name target targetName, exchange = moved source name target targetName

/-- What moved an object was a rename. -/
theorem Moves.renames {exchange : FsExchange} (h : Moves exchange) : exchange.op.Renames := by
  obtain ⟨source, name, target, targetName, rfl⟩ := h
  trivial

/-- The directory that was moved is the registered one and empty. -/
def ConfirmsEmpty (trash : Fd) (quarantine : FileName) (identity : FileIdentity)
    (check : List FsExchange) : Prop :=
  ∃ directory opened entries,
    check = [⟨.openDirectory trash quarantine, .ok directory⟩, ⟨.fstat directory, .ok opened⟩,
      ⟨.readDir directory, .ok entries⟩] ∧
    opened.identity = identity ∧ opened.kind = .directory ∧ sortedNames entries = []

/-- The check of a moved object sees the identity and the kind, a directory empty. -/
def Confirms (trash : Fd) (quarantine : FileName) (identity : FileIdentity)
    (kind : MaterializedEntryKind) (check : List FsExchange) : Prop :=
  ∃ seen rest, check = ⟨.statat trash quarantine, .ok seen⟩ :: rest ∧ seen.identity = identity ∧
    seen.kind = entryNodeKind kind ∧
    if kind = .directory then ConfirmsEmpty trash quarantine identity rest else rest = []

/-! ### Runs of the parts

What a run of each part consists of when it returns.  A call is one exchange, and a part
that reads has only reading exchanges. -/

/-- A run of a single call is one exchange. -/
theorem traces_call {c : FsCall} {t : List FsExchange} {r : c.Result} :
    Traces (call c : Settled ε c.Result) t (.ok r) ↔ t = [⟨c, r⟩] := by
  rw [traces_perform]
  constructor
  · rintro ⟨r', rfl, hr⟩
    cases hr
    rfl
  · rintro rfl
    exact ⟨r, rfl, rfl⟩

/-- A condition that is required holds where the part returns, without a call. -/
theorem traces_require {p : Prop} [Decidable p] {failure : TreeFailure} {t : List FsExchange}
    {u : Unit} : Traces (require p failure) t (.ok u) ↔ p ∧ t = [] := by
  unfold require
  split
  · rename_i h
    exact ⟨fun ht => ⟨h, ht.1⟩, fun ht => ⟨ht.2, rfl⟩⟩
  · rename_i h
    exact ⟨fun ht => (nomatch ht.2), fun ht => absurd ht.1 h⟩

/-- A node that is returned is what one `fstat` returned. -/
theorem traces_node {fd : Fd} {t : List FsExchange} {a : Node} :
    Traces (node fd) t (.ok a) ↔ t = [⟨.fstat fd, .ok a⟩] := by
  unfold node
  rw [traces_orFail]
  exact traces_call

/-- A node that is returned for a name is what one `statat` returned. -/
theorem traces_nodeAt {parent : Fd} {name : FileName} {t : List FsExchange} {a : Node} :
    Traces (nodeAt parent name) t (.ok a) ↔ t = [⟨.statat parent name, .ok a⟩] := by
  unfold nodeAt
  rw [traces_orFail]
  exact traces_call

/-- A directory that is opened is what one call opened. -/
theorem traces_openDirectory {parent : Fd} {name : FileName} {t : List FsExchange} {fd : Fd} :
    Traces (openDirectory parent name) t (.ok fd) ↔ t = [⟨.openDirectory parent name, .ok fd⟩] := by
  unfold openDirectory
  rw [traces_orFail]
  exact traces_call

/-- Names that are returned are the sorted ones of one listing.  The one listing is the only call,
and what is returned is computed from its answer. -/
theorem traces_directoryNames {fd : Fd} {t : List FsExchange} {names : List FileName} :
    Traces (directoryNames fd) t (.ok names) ↔
      ∃ entries, t = [⟨.readDir fd, .ok entries⟩] ∧ sortedNames entries = names := by
  unfold directoryNames
  rw [traces_bind]
  constructor
  · rintro (⟨entries, t₁, t₂, rfl, hread, rfl, hnames⟩ | ⟨_, h, _⟩)
    · rw [traces_orFail] at hread
      obtain rfl := traces_call.mp hread
      cases hnames
      exact ⟨entries, rfl, rfl⟩
    · cases h
  · rintro ⟨entries, rfl, rfl⟩
    exact .inl ⟨entries, _, [], rfl, traces_orFail.mpr (traces_call.mpr rfl), rfl, rfl⟩

/-- Everything a run of `detach_to_trash` can be: which exchanges it consists of, and with which
outcome it ends. -/
inductive Detached (parent : Fd) (name : FileName) (trash : Fd) (identity : FileIdentity)
    (kind : MaterializedEntryKind) (sequence : ℕ) : List FsExchange → DetachOutcome → Prop
  /-- Nothing was moved. -/
  | still {t : List FsExchange} (still : ∀ exchange ∈ t, ¬Moves exchange) :
      Detached parent name trash identity kind sequence t .notDetached
  /-- The registered object was moved and seen. -/
  | confirmed {before check : List FsExchange} {collision : ℕ}
      (still : ∀ exchange ∈ before, ¬Moves exchange)
      (reads : ∀ exchange ∈ check, ¬exchange.op.Renames)
      (confirms : Confirms trash (quarantineName identity sequence collision) identity kind
        check) :
      Detached parent name trash identity kind sequence
        (before ++ moved parent name trash (quarantineName identity sequence collision) :: check)
        (.confirmed (quarantinePath (quarantineName identity sequence collision)))
  /-- Another object was moved, and moved back. -/
  | back {before check : List FsExchange} {collision : ℕ}
      (still : ∀ exchange ∈ before, ¬Moves exchange)
      (reads : ∀ exchange ∈ check, ¬exchange.op.Renames)
      (wrong : ¬Confirms trash (quarantineName identity sequence collision) identity kind check) :
      Detached parent name trash identity kind sequence
        (before ++ moved parent name trash (quarantineName identity sequence collision) ::
          (check ++ [moved trash (quarantineName identity sequence collision) parent name]))
        .notDetached
  /-- Another object was moved and is still in the trash. -/
  | unconfirmed {before check : List FsExchange} {collision : ℕ} {error : Linux.Errno}
      (still : ∀ exchange ∈ before, ¬Moves exchange)
      (reads : ∀ exchange ∈ check, ¬exchange.op.Renames)
      (wrong : ¬Confirms trash (quarantineName identity sequence collision) identity kind check) :
      Detached parent name trash identity kind sequence
        (before ++ moved parent name trash (quarantineName identity sequence collision) ::
          (check ++ [⟨.renameNoReplace trash (quarantineName identity sequence collision) parent
            name, .error error⟩]))
        (.unconfirmed (quarantinePath (quarantineName identity sequence collision)))

variable {parent trash : Fd} {name : FileName} {identity : FileIdentity}
variable {kind : MaterializedEntryKind} {sequence : ℕ} {t before : List FsExchange}
variable {outcome : DetachOutcome}

/-- Exchanges that moved nothing may stand before a detachment.  The four ways in which an attempt
can end stay what they are, with the earlier exchanges before the quiet part of each. -/
theorem Detached.prepend (h : Detached parent name trash identity kind sequence t outcome)
    (hbefore : ∀ exchange ∈ before, ¬Moves exchange) :
    Detached parent name trash identity kind sequence (before ++ t) outcome := by
  have hboth : ∀ {still : List FsExchange}, (∀ exchange ∈ still, ¬Moves exchange) →
      ∀ exchange ∈ before ++ still, ¬Moves exchange := by
    intro still hstill exchange hmem
    exact (List.mem_append.mp hmem).elim (hbefore exchange) (hstill exchange)
  cases h with
  | still still => exact .still (hboth still)
  | confirmed still reads confirms =>
    rw [← List.append_assoc]
    exact .confirmed (hboth still) reads confirms
  | back still reads wrong =>
    rw [← List.append_assoc]
    exact .back (hboth still) reads wrong
  | unconfirmed still reads wrong =>
    rw [← List.append_assoc]
    exact .unconfirmed (hboth still) reads wrong

/-- What renames nothing moves nothing. -/
theorem still_of_renames (h : ∀ exchange ∈ t, ¬exchange.op.Renames) :
    ∀ exchange ∈ t, ¬Moves exchange :=
  fun exchange hmem hmoves => h exchange hmem hmoves.renames

/-- The progress after an entry that was moved and seen. -/
def Progress.confirm (progress : Progress) (entry : TrackedCreated) (path : RelativePath) :
    Progress :=
  { progress with
    quarantined := progress.quarantined ++ [path]
    removed := progress.removed ++ [entry.evidence.path]
    activeCount := progress.activeCount - 1 }

/-- The progress after an object that could not be moved back. -/
def Progress.leave (progress : Progress) (path : RelativePath) : Progress :=
  { progress with unconfirmed := progress.unconfirmed ++ [path] }

/-- Everything a run of the loop can be. -/
inductive Rolled (trash : Fd) :
    List TrackedCreated → Progress → List FsExchange → Progress → Prop
  /-- Nothing was moved. -/
  | stopped {rest : List TrackedCreated} {progress : Progress} {t : List FsExchange}
      (still : ∀ exchange ∈ t, ¬Moves exchange) : Rolled trash rest progress t progress
  /-- The object did not stay in the trash. -/
  | notDetached {entry : TrackedCreated} {rest : List TrackedCreated} {progress : Progress}
      {t : List FsExchange} {parent : Fd} {identity : FileIdentity}
      (hidentity : entry.identity = some identity)
      (h : Detached parent (entry.path.getLast entry.nonempty) trash identity entry.kind
        progress.removed.length t .notDetached) : Rolled trash (entry :: rest) progress t progress
  /-- Another object is in the trash. -/
  | unconfirmed {entry : TrackedCreated} {rest : List TrackedCreated} {progress : Progress}
      {t : List FsExchange} {parent : Fd} {identity : FileIdentity} {path : RelativePath}
      (hidentity : entry.identity = some identity)
      (h : Detached parent (entry.path.getLast entry.nonempty) trash identity entry.kind
        progress.removed.length t (.unconfirmed path)) :
      Rolled trash (entry :: rest) progress t (progress.leave path)
  /-- The entry is in the trash, and the loop goes on. -/
  | confirmed {entry : TrackedCreated} {rest : List TrackedCreated}
      {progress progress' : Progress} {t t' : List FsExchange} {parent : Fd}
      {identity : FileIdentity} {path : RelativePath} (hidentity : entry.identity = some identity)
      (h : Detached parent (entry.path.getLast entry.nonempty) trash identity entry.kind
        progress.removed.length t (.confirmed path))
      (next : Rolled trash rest (progress.confirm entry path) t' progress') :
      Rolled trash (entry :: rest) progress (t ++ t') progress'

variable {frames : ℕ} {paths : BoundPaths} {request : MaterializeRequest}
variable {created rest : List TrackedCreated} {entry : TrackedCreated}
variable {progress progress' : Progress}

/-- The entry was moved into the trash under that path and seen there. -/
def SeenInTrash (trash : Fd) (t : List FsExchange) (entry : TrackedCreated)
    (path : RelativePath) : Prop :=
  ∃ identity quarantine parent check rest, entry.identity = some identity ∧
    path = quarantinePath quarantine ∧ Confirms trash quarantine identity entry.kind check ∧
    moved parent (entry.path.getLast entry.nonempty) trash quarantine :: (check ++ rest) <:+ t

/-- What was seen in the trash was seen whatever happened before. -/
theorem SeenInTrash.prepend {path : RelativePath} (h : SeenInTrash trash t entry path) :
    SeenInTrash trash (before ++ t) entry path := by
  obtain ⟨identity, quarantine, parent, check, rest, hidentity, hpath, hconfirms, hsuffix⟩ := h
  exact ⟨identity, quarantine, parent, check, rest, hidentity, hpath, hconfirms,
    hsuffix.trans (List.suffix_append _ _)⟩

/-- What was seen in the trash was seen whatever happened afterwards. -/
theorem SeenInTrash.append {path : RelativePath} {after : List FsExchange}
    (h : SeenInTrash trash t entry path) : SeenInTrash trash (t ++ after) entry path := by
  obtain ⟨identity, quarantine, parent, check, rest, hidentity, hpath, hconfirms, start, rfl⟩ := h
  refine ⟨identity, quarantine, parent, check, rest ++ after, hidentity, hpath, hconfirms,
    start, ?_⟩
  simp

/-- A confirmed detachment has seen the entry in the trash, under the path it reports. -/
theorem Detached.seen {path : RelativePath} (hidentity : entry.identity = some identity)
    (h : Detached parent (entry.path.getLast entry.nonempty) trash identity entry.kind sequence t
      (.confirmed path)) : SeenInTrash trash t entry path := by
  cases h with
  | @confirmed before check collision still reads confirms =>
    exact ⟨identity, _, parent, check, [], hidentity, rfl, confirms, before, by simp⟩

/-- The quarantine names of a loop that has moved `n` entries before. -/
def NumberedFrom : ℕ → List RelativePath → Prop
  | _, [] => True
  | n, path :: paths =>
    (∃ identity collision, path = quarantinePath (quarantineName identity n collision)) ∧
      NumberedFrom (n + 1) paths

/-- The number of a quarantine name is read back. -/
theorem quarantinePath_number {identity identity' : FileIdentity} {n n' collision collision' : ℕ}
    (h : quarantinePath (quarantineName identity n collision) =
      quarantinePath (quarantineName identity' n' collision')) : n = n' := by
  have hpath := TreePath.bytes_injective (List.cons_ne_nil _ _) (List.cons_ne_nil _ _)
    (congrArg RelativePath.asBytes h)
  have hname := congrArg FileName.bytes (List.cons.inj hpath).1
  have hnumbers := numbered_injective _ hname (List.cons_ne_nil _ _) (List.cons_ne_nil _ _)
  simp only [List.cons.injEq] at hnumbers
  exact hnumbers.2.2.1

/-- A quarantine path of the loop carries a number between the first and the next one.  The
induction is on the paths: the first one carries the first number, and the others begin one higher.
-/
theorem NumberedFrom.bounds {n : ℕ} {paths : List RelativePath} (h : NumberedFrom n paths)
    {path : RelativePath} (hmem : path ∈ paths) :
    ∃ m identity collision, n ≤ m ∧ m < n + paths.length ∧
      path = quarantinePath (quarantineName identity m collision) := by
  induction paths generalizing n with
  | nil => cases hmem
  | cons first rest ih =>
    rw [List.length_cons]
    rcases List.mem_cons.mp hmem with rfl | hmem
    · obtain ⟨⟨identity, collision, rfl⟩, _⟩ := h
      exact ⟨n, identity, collision, by omega, by omega, rfl⟩
    · obtain ⟨m, identity, collision, hle, hlt, hpath⟩ := ih h.2 hmem
      exact ⟨m, identity, collision, by omega, by omega, hpath⟩

/-- The next quarantine path carries the next number. -/
theorem NumberedFrom.append {n : ℕ} {paths : List RelativePath} (h : NumberedFrom n paths)
    (identity : FileIdentity) (collision : ℕ) :
    NumberedFrom n (paths ++ [quarantinePath (quarantineName identity (n + paths.length)
      collision)]) := by
  induction paths generalizing n with
  | nil => exact ⟨⟨identity, collision, rfl⟩, trivial⟩
  | cons first rest ih =>
    refine ⟨h.1, ?_⟩
    have hrest := ih h.2
    rwa [Nat.add_right_comm, Nat.add_assoc] at hrest

/-- **Quarantine names are distinct.** -/
theorem NumberedFrom.nodup {n : ℕ} {paths : List RelativePath} (h : NumberedFrom n paths) :
    paths.Nodup := by
  induction paths generalizing n with
  | nil => exact List.nodup_nil
  | cons first rest ih =>
    obtain ⟨⟨identity, collision, rfl⟩, hrest⟩ := h
    refine List.nodup_cons.mpr ⟨fun hmem => ?_, ih hrest⟩
    obtain ⟨m, _, _, hle, _, heq⟩ := hrest.bounds hmem
    have := quarantinePath_number heq
    omega

/-- The lists of a loop: the entries it moved, those that are left, and the names. -/
structure RolledLists (trash : Fd) (rest : List TrackedCreated) (progress : Progress)
    (t : List FsExchange) (progress' : Progress) (done left : List TrackedCreated)
    (names : List RelativePath) : Prop where
  split : rest = done ++ left
  removed : progress'.removed = progress.removed ++ done.map (·.evidence.path)
  quarantined : progress'.quarantined = progress.quarantined ++ names
  activeCount : progress'.activeCount = progress.activeCount - done.length
  unconfirmed : progress'.unconfirmed = progress.unconfirmed ∨ left ≠ []
  seen : List.Forall₂ (SeenInTrash trash t) done names
  numbered : NumberedFrom progress.removed.length names
  complete : left = [] → ∀ parent name quarantine, moved parent name trash quarantine ∈ t →
    quarantinePath quarantine ∈ names

/-- Every run of the loop splits the entries into those it moved, with their names, and those that
are left.  The induction is on the run of the loop.  Only a confirmed move extends the lists of
those that were moved, and each other way to end leaves the current entry among those that are
left. -/
theorem Rolled.lists (h : Rolled trash rest progress t progress') :
    ∃ done left names, RolledLists trash rest progress t progress' done left names := by
  induction h with
  | @stopped rest progress t still =>
    refine ⟨[], rest, [], rfl, by simp, by simp, rfl, .inl rfl, .nil, trivial, ?_⟩
    intro _ parent name quarantine hmem
    exact absurd ⟨parent, name, trash, quarantine, rfl⟩ (still _ hmem)
  | @notDetached entry rest progress t _ _ _ _ =>
    exact ⟨[], entry :: rest, [], rfl, by simp, by simp, rfl, .inl rfl, .nil, trivial, nofun⟩
  | @unconfirmed entry rest progress t _ _ path _ _ =>
    exact ⟨[], entry :: rest, [], rfl, by simp [Progress.leave], by simp [Progress.leave], rfl,
      .inr (List.cons_ne_nil _ _), .nil, trivial, nofun⟩
  | @confirmed entry rest progress progress' t t' parent identity path hidentity h next ih =>
    obtain ⟨done, left, names, hlists⟩ := ih
    have hfirst : SeenInTrash trash (t ++ t') entry path := (h.seen hidentity).append
    have hrest : List.Forall₂ (SeenInTrash trash (t ++ t')) done names :=
      hlists.seen.imp fun _ _ hseen => hseen.prepend
    have hmoves : ∀ parent name quarantine, moved parent name trash quarantine ∈ t →
        quarantinePath quarantine = path := by
      intro parent' name' quarantine' hmem
      have hmoves : Moves (moved parent' name' trash quarantine') := ⟨_, _, _, _, rfl⟩
      cases h with
      | confirmed still reads confirms =>
        rcases List.mem_append.mp hmem with hmem | hmem
        · exact absurd hmoves (still _ hmem)
        · rcases List.mem_cons.mp hmem with he | hmem
          · cases he
            rfl
          · exact absurd hmoves.renames (reads _ hmem)
    have hnumber : ∃ identity collision,
        path = quarantinePath (quarantineName identity progress.removed.length collision) := by
      cases h with
      | confirmed => exact ⟨_, _, rfl⟩
    refine ⟨entry :: done, left, path :: names, ?_, ?_, ?_, ?_, hlists.unconfirmed,
      .cons hfirst hrest, ⟨hnumber, ?_⟩, ?_⟩
    · rw [hlists.split, List.cons_append]
    · rw [hlists.removed]
      simp [Progress.confirm]
    · rw [hlists.quarantined]
      simp [Progress.confirm]
    · rw [hlists.activeCount]
      simp only [Progress.confirm, List.length_cons]
      omega
    · have hnumbered := hlists.numbered
      simpa [Progress.confirm] using hnumbered
    · intro hleft parent name quarantine hmem
      rcases List.mem_append.mp hmem with hmem | hmem
      · exact List.mem_cons.mpr (.inl (hmoves _ _ _ hmem))
      · exact List.mem_cons_of_mem _ (hlists.complete hleft _ _ _ hmem)

/-- What follows a move into the trash from another directory: the check sees the
registered object, or the object is moved back or listed, and nothing else is moved. -/
def MoveSettled (trash : Fd) (created : List TrackedCreated)
    (quarantined unconfirmed : List RelativePath) (exchange : FsExchange)
    (after : List FsExchange) : Prop :=
  ∀ parent name quarantine, exchange = moved parent name trash quarantine → parent ≠ trash →
    ∃ entry ∈ created, ∃ identity check rest, entry.identity = some identity ∧
      name = entry.path.getLast entry.nonempty ∧ (∀ c ∈ check, ¬c.op.Renames) ∧
      (Confirms trash quarantine identity entry.kind check ∧ after = check ++ rest ∧
          quarantinePath quarantine ∈ quarantined ∨
        ¬Confirms trash quarantine identity entry.kind check ∧
          quarantinePath quarantine ∉ quarantined ∧
          ∃ back, after = check ++ ⟨.renameNoReplace trash quarantine parent name, back⟩ :: rest ∧
            (∀ c ∈ rest, ¬c.op.Renames) ∧
            (back = .ok () ∧ unconfirmed = [] ∨
              (∃ error, back = .error error) ∧ unconfirmed = [quarantinePath quarantine]))

variable {quarantined unconfirmed : List RelativePath} {later : List FsExchange}

/-- Exchanges that move nothing may stand before moves that are settled. -/
theorem each_still (still : ∀ exchange ∈ before, ¬Moves exchange)
    (h : Each (MoveSettled trash created quarantined unconfirmed) later) :
    Each (MoveSettled trash created quarantined unconfirmed) (before ++ later) := by
  induction before with
  | nil => exact h
  | cons exchange before ih =>
    refine ⟨fun parent name quarantine he _ => ?_,
      ih fun c hc => still c (List.mem_cons_of_mem _ hc)⟩
    exact absurd ⟨parent, name, trash, quarantine, he⟩ (still exchange List.mem_cons_self)

/-- The names of a loop so far: as many as entries were removed, and numbered in turn. -/
structure NamedSoFar (progress : Progress) : Prop where
  numbered : NumberedFrom 0 progress.quarantined
  length : progress.quarantined.length = progress.removed.length

/-- An entry that is confirmed leaves the names numbered. -/
theorem NamedSoFar.confirm (h : NamedSoFar progress) {collision : ℕ} :
    NamedSoFar (progress.confirm entry
      (quarantinePath (quarantineName identity progress.removed.length collision))) := by
  have hnumbered := h.numbered.append identity collision
  rw [Nat.zero_add, h.length] at hnumbered
  refine ⟨hnumbered, ?_⟩
  simp [Progress.confirm, h.length]

/-- The name of the next move is a new one. -/
theorem NamedSoFar.notMem (h : NamedSoFar progress) {collision : ℕ} :
    quarantinePath (quarantineName identity progress.removed.length collision) ∉
      progress.quarantined := by
  intro hmem
  obtain ⟨m, _, _, _, hlt, heq⟩ := h.numbered.bounds hmem
  have hm := quarantinePath_number heq
  rw [h.length] at hlt
  omega

/-- A move of another object is settled by the move back and what follows.  The move into the trash
is settled by the move back and its answer, and the move back itself is none into the trash. -/
theorem each_wrong {collision : ℕ} {check : List FsExchange} {back : Except Linux.Errno Unit}
    (hentry : entry ∈ created) (hidentity : entry.identity = some identity)
    (reads : ∀ exchange ∈ check, ¬exchange.op.Renames)
    (wrong : ¬Confirms trash (quarantineName identity sequence collision) identity entry.kind check)
    (hnew : quarantinePath (quarantineName identity sequence collision) ∉ quarantined)
    (hlater : ∀ exchange ∈ later, ¬exchange.op.Renames)
    (hback : back = .ok () ∧ unconfirmed = [] ∨ (∃ error, back = .error error) ∧
      unconfirmed = [quarantinePath (quarantineName identity sequence collision)]) :
    Each (MoveSettled trash created quarantined unconfirmed)
      (moved parent (entry.path.getLast entry.nonempty) trash
          (quarantineName identity sequence collision) ::
        (check ++ ⟨.renameNoReplace trash (quarantineName identity sequence collision) parent
          (entry.path.getLast entry.nonempty), back⟩ :: later)) := by
  have hend : Each (MoveSettled trash created quarantined unconfirmed) later := by
    rw [← List.append_nil later]
    exact each_still (still_of_renames hlater) trivial
  refine ⟨fun parent' name' quarantine' he _ => ?_, each_still (still_of_renames reads) ⟨?_, hend⟩⟩
  · cases he
    exact ⟨entry, hentry, identity, check, later, hidentity, rfl, reads,
      .inr ⟨wrong, hnew, back, rfl, hlater, hback⟩⟩
  · intro parent' name' quarantine' he hne
    -- The move back leaves the trash, so it is a move into the trash only from the trash.
    cases he
    exact absurd rfl hne

/-- **Every move of a loop is settled** before the next one.  The induction is on the run of the
loop.  What it carries along is that the quarantine names so far are numbered in turn, so that the
name of the next move is a new one. -/
theorem Rolled.settled (h : Rolled trash rest progress t progress')
    (hcreated : ∀ entry ∈ rest, entry ∈ created) (hnone : progress.unconfirmed = [])
    (hnamed : NamedSoFar progress) (hlater : ∀ exchange ∈ later, ¬exchange.op.Renames) :
    Each (MoveSettled trash created progress'.quarantined progress'.unconfirmed) (t ++ later) := by
  have hend : ∀ {quarantined unconfirmed : List RelativePath},
      Each (MoveSettled trash created quarantined unconfirmed) later := by
    intro quarantined unconfirmed
    rw [← List.append_nil later]
    exact each_still (still_of_renames hlater) trivial
  induction h with
  | stopped still => exact each_still still hend
  | @notDetached entry rest progress t parent identity hidentity h =>
    cases h with
    | still still => exact each_still still hend
    | @back before check collision still reads wrong =>
      rw [List.append_assoc, List.cons_append, List.append_assoc]
      exact each_still still (each_wrong (hcreated entry List.mem_cons_self) hidentity reads wrong
        hnamed.notMem hlater (.inl ⟨rfl, hnone⟩))
  | @unconfirmed entry rest progress t parent identity path hidentity h =>
    cases h with
    | @unconfirmed before check collision error still reads wrong =>
      rw [List.append_assoc, List.cons_append, List.append_assoc]
      refine each_still still (each_wrong (hcreated entry List.mem_cons_self) hidentity reads wrong
        hnamed.notMem hlater (.inr ⟨⟨error, rfl⟩, ?_⟩))
      simp [Progress.leave, hnone]
  | @confirmed entry rest progress progress' t t' parent identity path hidentity h next ih =>
    obtain ⟨done, left, names, hlists⟩ := next.lists
    cases h with
    | @confirmed before check collision still reads confirms =>
      have hrest := ih (fun e he => hcreated e (List.mem_cons_of_mem _ he)) hnone hnamed.confirm
      have hlisted : quarantinePath (quarantineName identity progress.removed.length collision) ∈
          progress'.quarantined := by
        rw [hlists.quarantined]
        simp [Progress.confirm]
      rw [List.append_assoc, List.append_assoc, List.cons_append]
      refine each_still still ⟨fun parent' name' quarantine' he _ => ?_,
        each_still (still_of_renames reads) hrest⟩
      cases he
      exact ⟨entry, hcreated entry List.mem_cons_self, identity, check, t' ++ later, hidentity, rfl,
        reads, .inl ⟨confirms, rfl, hlisted⟩⟩

end Btrfs
end ThinWorkspace
