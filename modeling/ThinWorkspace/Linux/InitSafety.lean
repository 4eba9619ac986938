/-
# Initialization is safe at every moment

Source: the publication order of `crates/thinws-application/src/lib.rs` and
`crates/thinws-adapter-linux/src/publication.rs`.

`careful` says what each call of an initialization may touch; a careful call keeps
`Published`, that a config stands only beside a Ready marker and a database of its
identity, and keeps a config that stands (`published_step`).  `init_careful`: every
call of `init` is careful.  In a control root with leftovers `init` makes no call that
writes (`init_calm`).
-/

import ThinWorkspace.Linux.Init
import ThinWorkspace.Metadata.Change

namespace ThinWorkspace
namespace Linux

open ThinWorkspace.Core Lib Ports
open Program (Only Passes Safe Returns Visits)

/-! ### Names

An installation consists of five names, and everything that is staged has a longer one. -/

/-- The names that an installation consists of: the marker, the config, the metadata, the logs and
the lock file.  Every other name in the control root is that of something staged. -/
def fixedNames : List String := [markerName, configName, metadataName, logsName, lockName]

/-- Each is shorter than a staged name, which has an identifier of 36 characters behind its stem.
-/
theorem length_fixedNames : ∀ name ∈ fixedNames, name.length < 41 := by decide

/-- So nothing that is staged stands in for a part of the installation. -/
theorem stagedName_not_fixed (stem : String) (id : UuidV7) : stagedName stem id ∉ fixedNames := by
  intro h
  have hshort := length_fixedNames _ h
  have hid : id.toText.length = 36 := by
    unfold UuidV7.toText Uuid.hyphenated
    rw [String.length_ofList]
    exact id.asUuid.length_hyphenatedChars
  unfold stagedName at hshort
  simp only [String.length_append, hid] at hshort
  have htmp : ".tmp-".length = 5 := by decide
  omega

/-! ### Kinds of calls

A call is judged by the fixed names it may change.  A part that changes none of them, or
only those of a list, is passed over by a frame lemma. -/

/-- The call only reads.  Whatever it returns, the control root is as it was. -/
def ControlCall.calm : ControlCall → Prop
  | .create _ | .write _ _ | .unlink _ | .rmdir _ | .mkdir _ | .renameNoreplace _ _
  | .renameExchange _ _ | .createDatabase | .migrate _ | .acquireBootstrap => False
  | _ => True

/-- Of the fixed names the call changes only those of a list, and exchanges none.  A call on staged
names is within every list. -/
def ControlCall.within (names : List String) : ControlCall → Prop
  | .create name | .write name _ | .unlink name | .rmdir name | .mkdir name => name ∉ fixedNames
  | .renameNoreplace source target => source ∉ fixedNames ∧ target ∈ names
  | .createDatabase | .migrate _ => metadataName ∈ names
  | .renameExchange _ _ | .acquireBootstrap => False
  | _ => True

/-- What only reads changes none of them, whichever names they are. -/
theorem ControlCall.calm.within {c : ControlCall} (h : c.calm) (names : List String) :
    c.within names := by
  cases c <;> trivial

variable {root root' root₁ root₂ : ControlRoot} {α β : Type}

/-- A calm call leaves the control root as it is, also where it fails.  There is one case for each
calm call; the calls that write are not calm. -/
theorem calm_step {c : ControlCall} {r : c.Result} (h : c.calm)
    (hstep : controlEnvironment.step root c r root') : root' = root := by
  have heffect : ∀ value, c.effect root value root' → root' = root := by
    intro value hvalue
    cases c
    case readPrivateDocument => exact hvalue.1
    case readDirectory => exact hvalue.1
    case readApplicationId => exact hvalue.1
    case readUserVersion => exact hvalue.1
    case readUserTableCount => exact hvalue.1
    case readInstallation => exact hvalue.1
    all_goals first | exact hvalue | exact h.elim
  cases r with
  | ok value => exact heffect value hstep
  | error e =>
    rcases hstep with hsame | ⟨value, hvalue⟩ | hpart
    · exact hsame
    · exact heffect value hvalue
    · cases c <;> first | exact hpart.elim | exact h.elim

/-- The names outside of a list are as they were.  Staged names do not count: they may come and go.
-/
def KeptBut (names : List String) (root root' : ControlRoot) : Prop :=
  ∀ name ∈ fixedNames, name ∉ names → root' name = root name

/-- Nothing has changed where nothing has happened, so any names may be excepted. -/
theorem KeptBut.refl (names : List String) (root : ControlRoot) : KeptBut names root root :=
  fun _ _ _ => rfl

/-- Two parts that each keep all but these names keep them together. -/
theorem KeptBut.trans {names : List String} (h₁ : KeptBut names root root₁)
    (h₂ : KeptBut names root₁ root₂) : KeptBut names root root₂ := fun name hname hnot =>
  (h₂ name hname hnot).trans (h₁ name hname hnot)

/-- What keeps all but a few names keeps all but more of them. -/
theorem KeptBut.mono {names names' : List String} (h : KeptBut names root root')
    (hsub : ∀ name ∈ names, name ∈ names') : KeptBut names' root root' := fun name hname hnot =>
  h name hname fun hin => hnot (hsub name hin)

/-- An entry that is staged, or of the list, may be set. -/
theorem keptBut_set {names : List String} {name : String} {entry : Option Entry}
    (h : name ∉ fixedNames ∨ name ∈ names) : KeptBut names root (root.set name entry) :=
  fun _ hother hnot => ControlRoot.set_other root entry fun heq =>
    h.elim (fun hn => hn (heq ▸ hother)) fun hn => hnot (heq ▸ hn)

/-- **What a call of a list may change.**  One step of a call within the list keeps every fixed
name outside of it, whatever the call returns. -/
theorem within_step {names : List String} {c : ControlCall} {r : c.Result} (h : c.within names)
    (hstep : controlEnvironment.step root c r root') : KeptBut names root root' := by
  by_cases hcalm : c.calm
  · rw [calm_step hcalm hstep]
    exact .refl names root
  · have heffect : ∀ value, c.effect root value root' → KeptBut names root root' := by
      intro value hvalue
      cases c
      case create =>
        obtain ⟨-, _, rfl⟩ := hvalue
        exact keptBut_set (.inl h)
      case write =>
        obtain ⟨_, _, -, rfl⟩ := hvalue
        exact keptBut_set (.inl h)
      case unlink =>
        obtain ⟨-, rfl⟩ := hvalue
        exact keptBut_set (.inl h)
      case mkdir =>
        obtain ⟨-, _, rfl⟩ := hvalue
        exact keptBut_set (.inl h)
      case rmdir =>
        obtain ⟨-, rfl⟩ := hvalue
        exact keptBut_set (.inl h)
      case renameNoreplace =>
        obtain ⟨-, _, -, rfl⟩ := hvalue
        exact (keptBut_set (.inl h.1)).trans (keptBut_set (.inr h.2))
      case createDatabase =>
        obtain ⟨_, -, rfl⟩ := hvalue
        exact keptBut_set (.inr h)
      case migrate =>
        obtain ⟨_, _, -, -, rfl⟩ := hvalue
        exact keptBut_set (.inr h)
      all_goals first | exact h.elim | exact absurd trivial hcalm
    cases r with
    | ok value => exact heffect value hstep
    | error e =>
      rcases hstep with rfl | ⟨value, hvalue⟩ | hpart
      · exact .refl names root'
      · exact heffect value hvalue
      · cases c
        case write =>
          obtain ⟨_, _, _, -, -, rfl⟩ := hpart
          exact keptBut_set (.inl h)
        all_goals exact hpart.elim

/-- A call on staged names keeps every fixed name. -/
theorem scratch_step {c : ControlCall} {r : c.Result} (h : c.within [])
    (hstep : controlEnvironment.step root c r root') : KeptBut [] root root' :=
  within_step h hstep

/-! ### What stands in the control root

The invariant: a config stands only beside a Ready marker and a database of its identity.
`careful` is the guard that keeps it, and it permits the publication of the config only
where the rest is complete. -/

variable (toml : TomlLibrary)

/-- The identity that `config.toml` shows.  It is what other commands go by: without a config there
is no installation for them. -/
def visible (root : ControlRoot) : Option InstallationIdentity :=
  (root.bytes configName).bind fun bytes => (decodeConfig toml bytes).toOption

/-- A Ready marker and a metadata database of the identity.  These are the two parts that a config
must not stand without. -/
structure Complete (root : ControlRoot) (identity : InstallationIdentity) : Prop where
  marker : ∃ bytes, root.bytes markerName = some bytes ∧
    decodeMarker toml bytes = .ok ⟨identity, .ready⟩
  database : ∃ schema record, root.database = some schema ∧ schema.installation = some record ∧
    record.identity = identity

/-- A config stands only beside the rest of its installation.  This is the invariant of every run
of `init`, stopped or not. -/
def Published (root : ControlRoot) : Prop :=
  root configName ≠ none → ∃ identity, visible toml root = some identity ∧
    Complete toml root identity

/-- What a call may touch: staged names, and the published ones in their order.  The config may be
published only with the contents of a config whose installation is complete, and a published
document may be exchanged only while no config stands. -/
def careful (c : ControlCall) (root : ControlRoot) : Prop :=
  match c with
  | .create name | .write name _ | .unlink name | .rmdir name | .mkdir name => name ∉ fixedNames
  | .renameNoreplace source target => source ∉ fixedNames ∧ (target = configName →
      ∃ bytes identity, root.bytes source = some bytes ∧ decodeConfig toml bytes = .ok identity ∧
        Complete toml root identity)
  | .renameExchange source target => source ∉ fixedNames ∧ target ≠ configName ∧
      root configName = none
  | _ => True

variable {toml} {identity : InstallationIdentity}

/-- What a name holds depends on its entry alone. -/
theorem bytes_congr {name : String} (h : root' name = root name) :
    root'.bytes name = root.bytes name := by
  unfold ControlRoot.bytes
  rw [h]

/-- And so does the database, which lies in the directory of the metadata. -/
theorem database_congr (h : root' metadataName = root metadataName) :
    root'.database = root.database := by
  unfold ControlRoot.database
  rw [h]

/-- An installation that is complete stays so while its marker and its metadata stay. -/
theorem Complete.congr (h : Complete toml root identity)
    (hmarker : root' markerName = root markerName)
    (hmetadata : root' metadataName = root metadataName) : Complete toml root' identity := by
  obtain ⟨hm, hd⟩ := h
  rw [← bytes_congr hmarker] at hm
  rw [← database_congr hmetadata] at hd
  exact ⟨hm, hd⟩

/-- The logs and the lock file do not count. -/
theorem Published.congr (h : Published toml root)
    (hkept : KeptBut [logsName, lockName] root root') : Published toml root' := by
  have hconfig : root' configName = root configName := hkept _ (by decide) (by decide)
  intro hstands
  rw [hconfig] at hstands
  obtain ⟨identity, hvisible, hcomplete⟩ := h hstands
  refine ⟨identity, ?_, hcomplete.congr (hkept _ (by decide) (by decide))
    (hkept _ (by decide) (by decide))⟩
  unfold visible at hvisible ⊢
  rwa [bytes_congr hconfig]

/-! ### One step

One careful call keeps the invariant, and a config that stands stays.  The cases are the
calls that touch a fixed name. -/

/-- The publication of a document: of the config, which must be complete, or of another name, which
leaves a config where it stands. -/
theorem published_rename {source target : String} {value : Unit}
    (hcare : careful toml (.renameNoreplace source target) root) (h : Published toml root)
    (heffect : ControlCall.effect root (.renameNoreplace source target) value root') :
    Published toml root' ∧ (root configName ≠ none → root' configName = root configName) := by
  obtain ⟨hsource, hready⟩ := hcare
  obtain ⟨htarget, entry, hentry, rfl⟩ := heffect
  have hother : ∀ name ∈ fixedNames, name ≠ target →
      (root.set source none).set target (some entry) name = root name := by
    intro name hname hne
    have hstaged : name ≠ source := fun heq => hsource (heq ▸ hname)
    rw [ControlRoot.set_other _ _ hne, ControlRoot.set_other _ _ hstaged]
  by_cases hconfig : target = configName
  · subst hconfig
    refine ⟨fun _ => ?_, fun hstands => absurd htarget hstands⟩
    obtain ⟨bytes, identity, hbytes, hdecode, hcomplete⟩ := hready rfl
    have hmoved : ((root.set source none).set configName (some entry)).bytes configName =
        some bytes := by
      unfold ControlRoot.bytes at hbytes ⊢
      rwa [hentry] at hbytes
    refine ⟨identity, ?_, hcomplete.congr (hother _ (by decide) (by decide))
      (hother _ (by decide) (by decide))⟩
    unfold visible
    rw [hmoved, Option.bind_some, hdecode]
    rfl
  · have hsame := hother configName (by decide) (Ne.symm hconfig)
    refine ⟨fun hstands => ?_, fun _ => hsame⟩
    rw [hsame] at hstands
    obtain ⟨identity, hvisible, hcomplete⟩ := h hstands
    -- The marker and the database stand, so they are not what was renamed to.
    have hmarker : markerName ≠ target := by
      rintro rfl
      obtain ⟨bytes, hbytes, -⟩ := hcomplete.marker
      unfold ControlRoot.bytes at hbytes
      rw [htarget] at hbytes
      cases hbytes
    have hmetadata : metadataName ≠ target := by
      rintro rfl
      obtain ⟨schema, record, hschema, -⟩ := hcomplete.database
      unfold ControlRoot.database at hschema
      rw [htarget] at hschema
      cases hschema
    refine ⟨identity, ?_, hcomplete.congr (hother _ (by decide) hmarker)
      (hother _ (by decide) hmetadata)⟩
    unfold visible at hvisible ⊢
    rwa [bytes_congr hsame]

/-- A write to a database that holds no installation yet.  A config that stands has a database that
does, so none stands. -/
theorem published_database {stat : Stat} {before after : Option Schema} (h : Published toml root)
    (hentry : root metadataName = some (.directory stat before))
    (hinstalled : ∀ schema, before = some schema → schema.installation = none) :
    Published toml (root.set metadataName (some (.directory stat after))) ∧
      (root configName ≠ none →
        root.set metadataName (some (.directory stat after)) configName = root configName) := by
  have hsame : root.set metadataName (some (.directory stat after)) configName = root configName :=
    ControlRoot.set_other _ _ (by decide)
  refine ⟨fun hstands => ?_, fun _ => hsame⟩
  rw [hsame] at hstands
  obtain ⟨identity, -, hcomplete⟩ := h hstands
  obtain ⟨schema, record, hschema, hrecord, -⟩ := hcomplete.database
  unfold ControlRoot.database at hschema
  rw [hentry] at hschema
  rw [hinstalled schema hschema] at hrecord
  cases hrecord

/-- The calls that do touch a fixed name, one after the other; the others are `scratch_step`.  The
two renames, the creation and the migration of the database and the lock file are what is left. -/
theorem published_effect {c : ControlCall} {value : c.Value} (hcare : careful toml c root)
    (h : Published toml root) (heffect : c.effect root value root') (hwithin : ¬c.within []) :
    Published toml root' ∧ (root configName ≠ none → root' configName = root configName) := by
  cases c
  case renameNoreplace => exact published_rename hcare h heffect
  case renameExchange source target =>
    obtain ⟨hsource, htarget, hnone⟩ := hcare
    obtain ⟨a, b, -, -, rfl⟩ := heffect
    have hstaged : configName ≠ source := fun heq => hsource (heq ▸ by decide)
    have hconfig : (root.set source (some b)).set target (some a) configName = none := by
      rw [ControlRoot.set_other _ _ (Ne.symm htarget), ControlRoot.set_other _ _ hstaged, hnone]
    exact ⟨fun hstands => absurd hconfig hstands, fun hstands => absurd hnone hstands⟩
  case createDatabase =>
    obtain ⟨stat, hentry, rfl⟩ := heffect
    exact published_database h hentry fun _ => nofun
  case migrate installation =>
    obtain ⟨stat, schema, hentry, hcount, rfl⟩ := heffect
    refine published_database h hentry fun other heq => ?_
    obtain rfl := Option.some.inj heq
    exact schema.row_in_table hcount
  case acquireBootstrap =>
    obtain ⟨-, stat, bytes, rfl⟩ := heffect
    have hkept : KeptBut [logsName, lockName] root (root.set lockName (some (.file stat bytes))) :=
      keptBut_set (.inr (by decide))
    exact ⟨h.congr hkept, fun _ => hkept _ (by decide) (by decide)⟩
  all_goals first | exact absurd trivial hwithin | exact absurd hcare hwithin

/-- **The step lemma.**  A careful call keeps the invariant, and where a config stands it stays the
same one. -/
theorem published_step {c : ControlCall} {r : c.Result} (hcare : careful toml c root)
    (h : Published toml root) (hstep : controlEnvironment.step root c r root') :
    Published toml root' ∧ (root configName ≠ none → root' configName = root configName) := by
  by_cases hwithin : c.within []
  · have hkept := within_step hwithin hstep
    exact ⟨h.congr (hkept.mono fun _ => nofun), fun _ => hkept _ (by decide) (by decide)⟩
  · cases r with
    | ok value => exact published_effect hcare h hstep hwithin
    | error e =>
      rcases hstep with rfl | ⟨value, hvalue⟩ | hpart
      · exact ⟨h, fun _ => rfl⟩
      · exact published_effect hcare h hvalue hwithin
      · cases c <;> first | exact hpart.elim | exact absurd hcare hwithin

/-! ### Parts that only read

The parts that only read, with one lemma for each function of the source. -/

variable {P : ControlCall → Prop} {directory : PrivateDirectory} {euid : UInt32}
  {controlRoot : AbsolutePath}

/-- A call with its failure mapped is that call. -/
theorem only_callOr {c : ControlCall} {f : c.Error → PortError} (h : P c) : Only P (callOr c f) :=
  Only.orFail (Program.only_perform h)

/-- A check takes no call, so it is of every kind. -/
theorem only_ensure {p : Prop} [Decidable p] {error : PortError} : Only P (ensure p error) := by
  unfold ensure
  split <;> trivial

/-- A value that must be there takes no call. -/
theorem only_orMissing {error : PortError} {found : Option α} :
    Only P (orMissing error found) := by
  cases found <;> trivial

/-- A result that is already known takes no call. -/
theorem only_liftExcept {ε : Type} {f : ε → PortError} {r : Except ε α} :
    Only P (liftExcept f r) :=
  Program.only_ofExcept

/-- The control root is opened and looked at, which changes no entry of it. -/
theorem calm_openPrivateDirectory {path : List UInt8} :
    Only ControlCall.calm (openPrivateDirectory path) :=
  Only.bind (only_callOr trivial) fun _ => only_orMissing

/-- The control root is looked at again behind its handle. -/
theorem calm_revalidatePrivateDirectory :
    Only ControlCall.calm (revalidatePrivateDirectory directory) :=
  Only.bind calm_openPrivateDirectory fun _ => only_ensure

/-- A sync changes no entry: it only makes what is there last. -/
theorem calm_syncDirectory : Only ControlCall.calm syncDirectory := only_callOr trivial

/-- A file is looked at by its handle and by its name. -/
theorem calm_validatePrivateFile {file name : String} {expected : FileIdentity} :
    Only ControlCall.calm (validatePrivateFile euid directory file name expected) :=
  Only.bind calm_revalidatePrivateDirectory fun _ => Only.bind (only_callOr trivial) fun _ =>
    Only.bind (only_callOr trivial) fun _ => Only.bind only_ensure fun _ =>
      calm_revalidatePrivateDirectory

/-- The entries of a directory are compared with the name of the lock file. -/
theorem calm_requireUnclaimedEntries {names : List String} :
    Only ControlCall.calm (requireUnclaimedEntries euid names) := by
  induction names with
  | nil => trivial
  | cons name names ih =>
    exact Only.bind (Only.bind only_ensure fun _ => Only.bind (only_callOr trivial) fun _ =>
      only_ensure) fun _ => ih

/-- The control root is listed, and each entry looked at; nothing is written. -/
theorem calm_requireUnclaimedControlRoot :
    Only ControlCall.calm (requireUnclaimedControlRoot euid directory) :=
  Only.bind (only_callOr trivial) fun _ => Only.bind calm_requireUnclaimedEntries fun _ =>
    calm_revalidatePrivateDirectory

/-- A prepared data root is listed again, and its filesystem is identified again. -/
theorem calm_revalidatePrepared {prepared : PreparedDataRoot} :
    Only ControlCall.calm prepared.revalidate :=
  Only.bind calm_revalidatePrivateDirectory fun _ => Only.bind (only_callOr trivial) fun _ =>
    only_ensure

/-- Decoding takes no call, whether there is a document or not. -/
theorem calm_decodeOptional {decode : List UInt8 → Except DocumentError α}
    {found : Option (List UInt8)} : Only P (decodeOptional decode found) := by
  cases found with
  | none => trivial
  | some bytes => exact Only.bind only_liftExcept fun _ => Program.only_pure

/-- `read_config` reads one document, and a directory that is missing is no failure. -/
theorem calm_readConfig : Only ControlCall.calm (readConfig controlRoot toml) := by
  refine Only.bind (only_callOr trivial) fun found => ?_
  cases found with
  | none => trivial
  | some directory => exact Only.bind (only_callOr trivial) fun _ => calm_decodeOptional

/-- `read_root_marker` reads one document, of the fixed control root. -/
theorem calm_readRootMarker {dataRoot : AbsolutePath} :
    Only ControlCall.calm (readRootMarker controlRoot toml dataRoot) := by
  refine Only.bind only_ensure fun _ => Only.bind (only_callOr trivial) fun found => ?_
  cases found with
  | none => trivial
  | some directory => exact Only.bind (only_callOr trivial) fun _ => calm_decodeOptional

/-- The lock is compared with the directory it was taken for. -/
theorem calm_validateBootstrapLock {lock : LockGuard} :
    Only ControlCall.calm (validateBootstrapLock controlRoot lock directory) :=
  Only.bind only_ensure fun _ => only_callOr trivial

/-- The proof of an initialization reads the marker again and compares it. -/
theorem calm_revalidateProof {proof : InitializingProof} :
    Only ControlCall.calm (proof.revalidate euid toml) :=
  Only.bind calm_revalidatePrivateDirectory fun _ => Only.bind calm_validatePrivateFile fun _ =>
    Only.bind (only_callOr trivial) fun _ => Only.bind only_orMissing fun _ =>
      Only.bind only_liftExcept fun _ => only_ensure

/-- Where the publication of the config has failed, the config is read for what really stands. -/
theorem calm_reconcile {error : PortError} :
    Only ControlCall.calm (reconcileConfigPublicationError controlRoot toml error identity) :=
  Only.bind only_ensure fun _ => Only.bind calm_readConfig fun _ =>
    Only.bind only_ensure fun _ => Program.only_pure

/-- A database that is there is read for its installation. -/
theorem calm_validateExistingDatabase {expected : InstallationRecord} :
    Only ControlCall.calm (validateExistingDatabase expected) :=
  Only.bind (only_callOr trivial) fun _ => Only.bind (only_callOr trivial) fun _ =>
    Only.bind only_ensure fun _ => Only.bind only_ensure fun _ =>
      Only.bind (only_callOr trivial) fun _ => Only.bind (only_callOr trivial) fun _ => only_ensure

/-! ### Frames

The frame rules: a part that reads, a part that stays within some names, and a part that
touches staged names only are careful as a whole. -/

/-- What changes only names other than the config is careful, in whatever state. -/
theorem careful_of_within {names : List String} {c : ControlCall} (h : c.within names)
    (hconfig : configName ∉ names) : careful toml c root := by
  cases c
  case renameNoreplace source target =>
    exact ⟨h.1, fun heq => absurd (heq ▸ h.2) hconfig⟩
  all_goals trivial

variable {ε : Type} {x : Program ControlCall ControlCall.Result ε α}
  {f : α → Program ControlCall ControlCall.Result ε β} {names : List String}
  {guard : ControlCall → ControlRoot → Prop}

/-- The frame rule for a part that only reads: it leaves the control root as it was, and every
guard that allows calm calls holds along it. -/
theorem safe_calm (hguard : ∀ c root, c.calm → guard c root) (hx : Only ControlCall.calm x) :
    Safe controlEnvironment guard (fun _ root' => root' = root) x root :=
  hx.safe (R := fun a b => b = a) (fun _ => rfl) (fun _ _ _ h₁ h₂ => h₂.trans h₁) hguard
    fun _ _ _ _ hc hstep => calm_step hc hstep

/-- What only reads is careful: it touches neither the marker nor the config nor the database. -/
theorem careful_calm (c : ControlCall) (root : ControlRoot) (h : c.calm) : careful toml c root :=
  careful_of_within (h.within []) (by decide)

/-- The frame rule for a part that changes a few names, none of them the config. -/
theorem safe_within (hconfig : configName ∉ names) (hx : Only (ControlCall.within names) x) :
    Safe controlEnvironment (careful toml) (fun _ root' => KeptBut names root root') x root :=
  hx.safe (.refl names) (fun _ _ _ => .trans) (fun _ _ h => careful_of_within h hconfig)
    fun _ _ _ _ hc hstep => within_step hc hstep

/-- The frame rule for a part that changes staged names only. -/
theorem safe_scratch (hx : Only (ControlCall.within []) x) :
    Safe controlEnvironment (careful toml) (fun _ root' => KeptBut [] root root') x root :=
  safe_within (by decide) hx

/-- A part that only reads, and the rest.  What holds of the rest holds from the state before the
part on, as the part has changed nothing. -/
theorem safe_calm_bind {post : Except ε β → ControlRoot → Prop}
    (hguard : ∀ c root, c.calm → guard c root) (hx : Only ControlCall.calm x)
    (hf : ∀ a, Safe controlEnvironment guard post (f a) root) (herror : ∀ e, post (.error e) root) :
    Safe controlEnvironment guard post (x >>= f) root :=
  Safe.bind (safe_calm hguard hx) (fun a _ h => h ▸ hf a) fun e _ h => h ▸ herror e

/-! ### What is read

A document is read up to a limit, one byte beyond the longest; what is read decodes as the
whole document does.  So what a run has read is what stands. -/

/-- A document is read up to one byte more than it may have, so a longer one is still too long. -/
theorem decodeToml_take {T : Type} {ofTable : TomlTable → Option T} (bytes : List UInt8) :
    decodeToml toml ofTable (bytes.take readLimit) = decodeToml toml ofTable bytes := by
  by_cases h : bytes.length ≤ readLimit
  · rw [List.take_of_length_le h]
  · have hlong : bytes.length > maxDocumentBytes := by
      unfold readLimit at h
      omega
    have htake : (bytes.take readLimit).length > maxDocumentBytes := by
      rw [List.length_take]
      unfold readLimit at h ⊢
      omega
    unfold decodeToml
    rw [if_pos hlong, if_pos htake]

/-- A config that is read up to the limit decodes as the whole one does. -/
theorem decodeConfig_take (bytes : List UInt8) :
    decodeConfig toml (bytes.take readLimit) = decodeConfig toml bytes := by
  unfold decodeConfig
  rw [decodeToml_take]

/-- A marker that is read up to the limit decodes as the whole one does. -/
theorem decodeMarker_take (bytes : List UInt8) :
    decodeMarker toml (bytes.take readLimit) = decodeMarker toml bytes := by
  unfold decodeMarker
  rw [decodeToml_take]

/-- What a part that reads one document found, where nothing was changed.  The document is read up
to a limit, behind which no decoder looks. -/
theorem safe_readDocument {name : String} {decode : List UInt8 → Except DocumentError α}
    (hguard : ∀ c root, c.calm → guard c root)
    (htake : ∀ bytes, decode (bytes.take readLimit) = decode bytes) :
    Safe controlEnvironment guard
      (fun outcome root' => root' = root ∧ ∀ value, outcome = .ok (some value) →
        ∃ bytes, root.bytes name = some bytes ∧ decode bytes = .ok value)
      (callOr (.readPrivateDocument directory name) id >>= decodeOptional decode) root := by
  refine ⟨hguard _ _ trivial, fun r root' hstep => ?_⟩
  have hsame := calm_step (c := .readPrivateDocument directory name) trivial hstep
  cases r with
  | error e => exact ⟨hsame, nofun⟩
  | ok found =>
    obtain ⟨-, hfound⟩ := hstep
    cases found with
    | none => exact ⟨hsame, nofun⟩
    | some part =>
      obtain ⟨bytes, hbytes, rfl⟩ := hfound
      change Safe controlEnvironment guard _
        (liftExcept documentError (decode (bytes.take readLimit)) >>= fun value =>
          pure (some value)) root'
      rw [htake]
      cases hdecode : decode bytes with
      | error e => exact ⟨hsame, nofun⟩
      | ok value =>
        refine ⟨hsame, fun other heq => ⟨bytes, hbytes, ?_⟩⟩
        obtain rfl := Option.some.inj (Except.ok.inj heq)
        exact hdecode

/-- The identity that `read_config` returns is the one that is visible. -/
theorem safe_readConfig (hguard : ∀ c root, c.calm → guard c root) :
    Safe controlEnvironment guard
      (fun outcome root' => root' = root ∧ ∀ identity, outcome = .ok (some identity) →
        visible toml root = some identity) (readConfig controlRoot toml) root := by
  unfold readConfig
  refine safe_calm_bind hguard (only_callOr trivial) (fun found => ?_) fun e => ⟨rfl, nofun⟩
  cases found with
  | none => exact ⟨rfl, nofun⟩
  | some directory =>
    refine (safe_readDocument hguard decodeConfig_take).mono fun outcome root' h => ?_
    refine ⟨h.1, fun identity hok => ?_⟩
    obtain ⟨bytes, hbytes, hdecode⟩ := h.2 identity hok
    unfold visible
    rw [hbytes, Option.bind_some, hdecode]
    rfl

/-- The marker that `read_root_marker` returns is the one that stands. -/
theorem safe_readRootMarker {dataRoot : AbsolutePath} (hguard : ∀ c root, c.calm → guard c root) :
    Safe controlEnvironment guard
      (fun outcome root' => root' = root ∧ ∀ marker, outcome = .ok (some marker) →
        ∃ bytes, root.bytes markerName = some bytes ∧ decodeMarker toml bytes = .ok marker)
      (readRootMarker controlRoot toml dataRoot) root := by
  unfold readRootMarker
  refine safe_calm_bind hguard only_ensure (fun _ => ?_) fun e => ⟨rfl, nofun⟩
  refine safe_calm_bind hguard (only_callOr trivial) (fun found => ?_) fun e => ⟨rfl, nofun⟩
  cases found with
  | none => exact ⟨rfl, nofun⟩
  | some directory => exact safe_readDocument hguard decodeMarker_take

/-! ### Staging

A document is staged under a fresh name and filled.  Behind a success the file holds the
bytes; behind a failure nothing but staged names has changed. -/

variable {temporary : PrivateTemp} {bytes : List UInt8}

/-- Dropping what is staged removes a staged name, which is none of the fixed ones. -/
theorem within_drop (h : temporary.name ∉ fixedNames) :
    Only (ControlCall.within names) temporary.drop := by
  refine ⟨trivial, fun r => ?_⟩
  cases r with
  | error e => trivial
  | ok named =>
    change Only _ (if named.identity = temporary.identity then _ else _)
    split
    · exact ⟨h, fun _ => ⟨trivial, fun _ => trivial⟩⟩
    · trivial

/-- A part that only reads is within every list. -/
theorem within_of_calm (hx : Only ControlCall.calm x) : Only (ControlCall.within names) x :=
  hx.mono fun _ h => h.within names

/-- What is staged is in the file, unless the part fails.  Where it fails nothing but staged names
has changed. -/
def Staged (bytes : List UInt8) (root : ControlRoot) (outcome : Except PortError PrivateTemp)
    (root' : ControlRoot) : Prop :=
  KeptBut [] root root' ∧ ∀ temporary, outcome = .ok temporary →
    temporary.name ∉ fixedNames ∧ root'.bytes temporary.name = some bytes

/-- A part that fails has to keep the fixed names, and nothing else. -/
theorem staged_error {e : PortError} (h : KeptBut [] root root') :
    Staged bytes root (.error e) root' := ⟨h, nofun⟩

/-- `fill` writes a staged file, and what it has written is what the file holds.  The write puts
the bytes under the staged name, and what follows checks and syncs it. -/
theorem fill_safe (hname : temporary.name ∉ fixedNames) :
    Safe controlEnvironment (careful toml)
      (fun outcome root' => KeptBut [] root root' ∧ ∀ u, outcome = .ok u →
        root'.bytes temporary.name = some bytes) (temporary.fill euid directory bytes) root := by
  refine ⟨hname, fun r root₁ hstep => ?_⟩
  have hkept := scratch_step (c := .write temporary.name bytes) hname hstep
  cases r with
  | error e => exact ⟨hkept, nofun⟩
  | ok _ =>
    obtain ⟨stat, before, -, rfl⟩ := hstep
    have hcalm : Only ControlCall.calm (do
        callOr (.sync temporary.name) fun _ => .new .io "sync staged Linux control document"
        syncDirectory
        validatePrivateFile euid directory temporary.name temporary.name temporary.identity) :=
      Only.bind (only_callOr trivial) fun _ => Only.bind calm_syncDirectory fun _ =>
        calm_validatePrivateFile
    refine (safe_calm careful_calm hcalm).mono fun outcome root' hsame => ?_
    rw [hsame]
    refine ⟨hkept, fun _ _ => ?_⟩
    unfold ControlRoot.bytes
    rw [ControlRoot.set_same]

/-- The same where a failure drops the file again. -/
theorem fillOrDrop_safe (hname : temporary.name ∉ fixedNames) :
    Safe controlEnvironment (careful toml)
      (fun outcome root' => KeptBut [] root root' ∧ ∀ u, outcome = .ok u →
        root'.bytes temporary.name = some bytes)
      (onFailure temporary.drop (temporary.fill euid directory bytes)) root := by
  refine Safe.handle (fill_safe hname) (fun _ _ h => h) fun e root₁ h₁ => ?_
  refine Safe.bind (safe_scratch (within_drop hname))
    (fun _ root₂ h₂ => ?_) fun e root₂ h₂ => ?_
  · exact ⟨h₁.1.trans h₂, nofun⟩
  · exact ⟨h₁.1.trans h₂, nofun⟩

/-- `adopt` takes a name that was just created and fills it. -/
theorem adopt_safe {name : String} (hname : name ∉ fixedNames) :
    Safe controlEnvironment (careful toml) (Staged bytes root)
      (PrivateTemp.adopt euid directory name bytes) root := by
  refine safe_calm_bind careful_calm (only_callOr trivial) (fun stat => ?_)
    fun e => staged_error (.refl [] root)
  refine Safe.bind (x := onFailure (PrivateTemp.drop ⟨name, stat.identity⟩) _)
    (fillOrDrop_safe hname) (fun _ root₁ h₁ => ?_) fun e root₁ h₁ => staged_error h₁.1
  refine ⟨h₁.1, fun temporary heq => ?_⟩
  obtain rfl := Except.ok.inj heq
  exact ⟨hname, h₁.2 _ rfl⟩

/-- What was staged behind another part was staged by both. -/
theorem Staged.after {outcome : Except PortError PrivateTemp} (hkept : KeptBut [] root root₁)
    (h : Staged bytes root₁ outcome root₂) : Staged bytes root outcome root₂ :=
  ⟨hkept.trans h.1, h.2⟩

/-- The attempts of `stage`, by induction: a name that is taken costs one, and the next has another
name. -/
theorem stage_safe {stem : String} {attempts : ℕ} :
    Safe controlEnvironment (careful toml) (Staged bytes root)
      (PrivateTemp.stage euid directory stem bytes attempts) root := by
  induction attempts generalizing root with
  | zero => exact staged_error (.refl [] root)
  | succ attempts ih =>
    refine ⟨trivial, fun r root₁ hstep => ?_⟩
    obtain rfl := calm_step (c := .newUuid) trivial hstep
    cases r with
    | error e => cases e
    | ok id =>
      have hname := stagedName_not_fixed stem id
      refine ⟨hname, fun r root₂ hstep => ?_⟩
      have hkept := scratch_step (c := .create (stagedName stem id)) hname hstep
      cases r with
      | ok _ => exact (adopt_safe hname).mono fun _ _ h => h.after hkept
      | error e =>
        cases e with
        | exist => exact ih.mono fun _ _ h => h.after hkept
        | noent => exact staged_error hkept
        | other code => exact staged_error hkept

/-- **A staged document** is in its file, and nothing else was touched.  Where `create` fails it
has left no more than staged names. -/
theorem create_safe {stem : String} :
    Safe controlEnvironment (careful toml) (Staged bytes root)
      (PrivateTemp.create euid directory stem bytes) root :=
  safe_calm_bind careful_calm calm_revalidatePrivateDirectory
    (fun _ => safe_calm_bind careful_calm (only_callOr trivial) (fun _ => stage_safe)
      fun _ => staged_error (.refl [] root)) fun _ => staged_error (.refl [] root)

/-! ### Publication

The rename that publishes is the only call on a fixed name, and it replaces nothing. -/

/-- A rename of a staged name changes at most its target. -/
theorem renameNoreplace_kept {source target : String} {r : Except Errno Unit}
    (hsource : source ∉ fixedNames)
    (hstep : controlEnvironment.step root (.renameNoreplace source target) r root') :
    KeptBut [target] root root' :=
  within_step (c := .renameNoreplace source target) ⟨hsource, List.mem_singleton_self _⟩ hstep

/-- **A published document** is what was staged, and the rename is the only call that touches a
fixed name.  A rename that fails has moved nothing, or everything, as a failing call may; in both
cases only the target name can have changed. -/
theorem publishNoreplace_safe {target : String} (hname : temporary.name ∉ fixedNames)
    (hbytes : root.bytes temporary.name = some bytes)
    (hcare : careful toml (.renameNoreplace temporary.name target) root) :
    Safe controlEnvironment (careful toml)
      (fun outcome root' => KeptBut [target] root root' ∧ ∀ u, outcome = .ok u →
        root'.bytes target = some bytes) (temporary.publishNoreplace target) root := by
  refine ⟨hcare, fun r root₁ hstep => ?_⟩
  have hkept := renameNoreplace_kept hname hstep
  cases r with
  | ok _ =>
    obtain ⟨-, entry, hentry, rfl⟩ := hstep
    refine (safe_calm careful_calm calm_syncDirectory).mono fun outcome root' hsame => ?_
    rw [hsame]
    refine ⟨hkept, fun _ _ => ?_⟩
    unfold ControlRoot.bytes at hbytes ⊢
    rw [hentry] at hbytes
    rwa [ControlRoot.set_same]
  | error e =>
    have hfails : ∀ error : PortError, Safe controlEnvironment (careful toml)
        (fun outcome root' => KeptBut [target] root root' ∧ ∀ u : Unit, outcome = .ok u →
          root'.bytes target = some bytes) (temporary.drop >>= fun _ => throw error) root₁ := by
      intro error
      refine Safe.bind (safe_scratch (within_drop hname))
        (fun _ root₂ h₂ => ?_) fun e root₂ h₂ => ?_
      · exact ⟨hkept.trans (h₂.mono fun _ => nofun), nofun⟩
      · exact ⟨hkept.trans (h₂.mono fun _ => nofun), nofun⟩
    cases e with
    | exist => exact hfails _
    | noent => exact hfails _
    | other code => exact hfails _

variable {lock : LockGuard} {proof : InitializingProof}

/-- `create_initializing` touches the marker.  The proof it returns is that of an initializing one.
The checks before it are calm, and then the marker is staged and published. -/
theorem createInitializing_safe {prepared : PreparedDataRoot} :
    Safe controlEnvironment (careful toml)
      (fun outcome root' => KeptBut [markerName] root root' ∧ ∀ proof, outcome = .ok proof →
        proof.marker = ⟨identity, .initializing⟩)
      (createInitializing euid controlRoot toml lock prepared identity) root := by
  have hfails : ∀ e : PortError, KeptBut [markerName] root root ∧ ∀ proof : InitializingProof,
      Except.error e = .ok proof → proof.marker = ⟨identity, .initializing⟩ :=
    fun e => ⟨.refl _ root, nofun⟩
  refine safe_calm_bind careful_calm calm_validateBootstrapLock (fun _ => ?_) hfails
  refine safe_calm_bind careful_calm calm_revalidatePrepared (fun _ => ?_) hfails
  refine safe_calm_bind careful_calm only_ensure (fun _ => ?_) hfails
  refine safe_calm_bind careful_calm calm_requireUnclaimedControlRoot (fun _ => ?_) hfails
  refine safe_calm_bind careful_calm only_liftExcept (fun bytes => ?_) hfails
  refine Safe.bind create_safe (fun temporary root₁ h₁ => ?_) fun e root₁ h₁ =>
    ⟨h₁.1.mono fun _ => nofun, nofun⟩
  obtain ⟨hkept, hstaged⟩ := h₁
  obtain ⟨hname, hbytes⟩ := hstaged temporary rfl
  have hcare : careful toml (.renameNoreplace temporary.name markerName) root₁ :=
    ⟨hname, fun heq => absurd heq (by decide)⟩
  refine Safe.bind (publishNoreplace_safe hname hbytes hcare) (fun _ root₂ h₂ => ?_)
    fun e root₂ h₂ => ⟨(hkept.mono fun _ => nofun).trans h₂.1, nofun⟩
  have hmoved : KeptBut [markerName] root root₂ := (hkept.mono fun _ => nofun).trans h₂.1
  refine safe_calm_bind careful_calm calm_revalidateProof (fun _ => ?_) fun e => ⟨hmoved, nofun⟩
  refine ⟨hmoved, fun proof heq => ?_⟩
  rw [← Except.ok.inj heq]

/-! ### Layout

The layout consists of two directories and the database file, none of which a config depends
on before it is complete. -/

/-- A staged directory is removed under its own name. -/
theorem within_cleanupStagedChild {name : String} {expected : FileIdentity}
    (h : name ∉ fixedNames) :
    Only (ControlCall.within names) (cleanupStagedChild name expected) := by
  refine ⟨trivial, fun r => ?_⟩
  cases r with
  | error e => trivial
  | ok named =>
    change Only _ (if named.identity = expected ∧ named.kind = .directory then _ else _)
    split
    · exact ⟨h, fun _ => ⟨trivial, fun _ => trivial⟩⟩
    · trivial

/-- A staged directory gets its name: the two names are the only entries that change. -/
theorem within_publishChild {staged name : String} (hstaged : staged ∉ fixedNames)
    (hname : name ∈ names) :
    Only (ControlCall.within names) (publishChild directory staged name) := by
  refine Only.bind (within_of_calm calm_syncDirectory) fun _ =>
    Only.bind (within_of_calm calm_openPrivateDirectory) fun child =>
    Only.bind (within_of_calm calm_revalidatePrivateDirectory) fun _ => ?_
  refine ⟨⟨hstaged, hname⟩, fun r => ?_⟩
  cases r with
  | error e =>
    change Only _ (cleanupStagedChild _ _ >>= fun _ => throw _)
    exact Only.bind (within_cleanupStagedChild hstaged) fun _ => Program.only_throw
  | ok _ =>
    change Only _ (syncDirectory >>= fun _ => revalidatePrivateDirectory _ >>= fun _ =>
      revalidatePrivateDirectory _ >>= fun _ => pure _)
    exact Only.bind (within_of_calm calm_syncDirectory) fun _ =>
      Only.bind (within_of_calm calm_revalidatePrivateDirectory) fun _ =>
      Only.bind (within_of_calm calm_revalidatePrivateDirectory) fun _ => Program.only_pure

/-- The attempts to stage a directory, by induction on those that are left.  A name that is taken
leads to the next attempt with another identifier. -/
theorem within_stageChild {name : String} {attempts : ℕ} (hname : name ∈ names) :
    Only (ControlCall.within names) (stageChild directory name attempts) := by
  induction attempts with
  | zero => trivial
  | succ attempts ih =>
    refine ⟨trivial, fun r => ?_⟩
    cases r with
    | error e => cases e
    | ok id =>
      have hstaged := stagedName_not_fixed "thinws-dir" id
      refine ⟨hstaged, fun r => ?_⟩
      cases r with
      | ok _ => exact within_publishChild hstaged hname
      | error e =>
        cases e with
        | exist => exact ih
        | noent => trivial
        | other code => trivial

/-- `create_private_child`: a directory is staged and gets its name. -/
theorem within_createPrivateChild {name : String} (hname : name ∈ names) :
    Only (ControlCall.within names) (createPrivateChild directory name) :=
  Only.bind (within_of_calm calm_revalidatePrivateDirectory) fun _ => within_stageChild hname

/-- The database file is created below `metadata`, so it changes that entry alone. -/
theorem within_createDatabaseFile (h : metadataName ∈ names) :
    Only (ControlCall.within names) (createDatabaseFile euid directory) :=
  Only.bind (within_of_calm calm_revalidatePrivateDirectory) fun _ =>
    Only.bind (only_callOr h) fun _ => Only.bind (only_callOr trivial) fun _ =>
      Only.bind (within_of_calm calm_validatePrivateFile) fun _ =>
        Only.bind (only_callOr trivial) fun _ => within_of_calm calm_syncDirectory

/-- `initialize_layout` touches `metadata` and `logs`, and the names that it stages them under. -/
theorem within_initializeLayout : Only (ControlCall.within [metadataName, logsName])
    (initializeLayout euid controlRoot toml lock proof) :=
  Only.bind (within_of_calm calm_validateBootstrapLock) fun _ =>
    Only.bind (within_of_calm calm_revalidateProof) fun _ =>
    Only.bind (within_createPrivateChild (by decide)) fun _ =>
    Only.bind (within_createPrivateChild (by decide)) fun _ =>
    Only.bind (within_createDatabaseFile (by decide)) fun _ =>
    Only.bind (only_callOr trivial) fun _ => Only.bind (only_callOr trivial) fun _ =>
    Only.bind only_ensure fun _ => Only.bind (only_callOr trivial) fun _ =>
      within_of_calm calm_revalidateProof

/-! ### Metadata

The database is initialized or validated, and in both cases holds the installation that is
returned. -/

/-- The database holds this installation, so that a later run would find it there. -/
def Holds (root : ControlRoot) (record : InstallationRecord) : Prop :=
  ∃ schema, root.database = some schema ∧ schema.installation = some record

/-- What is read of a database is what it holds. -/
theorem safe_readInstallation (hguard : ∀ c root, c.calm → guard c root) :
    Safe controlEnvironment guard
      (fun outcome root' => root' = root ∧ ∀ record, outcome = .ok record → Holds root record)
      (callOr .readInstallation id) root := by
  refine ⟨hguard _ _ trivial, fun r root' hstep => ?_⟩
  have hsame := calm_step (c := .readInstallation) trivial hstep
  cases r with
  | error e => exact ⟨hsame, nofun⟩
  | ok record =>
    obtain ⟨-, schema, hschema, hrecord⟩ := hstep
    refine ⟨hsame, fun other heq => ?_⟩
    rw [← Except.ok.inj heq]
    exact ⟨schema, hschema, hrecord⟩

/-- A migration writes to the database only, and a validation reads it. -/
theorem within_migrateOrValidate {expected : InstallationRecord} {fresh : Bool} :
    Only (ControlCall.within [metadataName]) (migrateOrValidate expected fresh) := by
  cases fresh with
  | true => exact Only.bind (only_callOr trivial) fun _ => only_callOr (List.mem_singleton_self _)
  | false =>
    exact Only.bind (within_of_calm calm_validateExistingDatabase) fun _ => only_callOr trivial

/-- `initialize` leaves a database of the installation it returns, and the identity of that is the
one it was asked for.  A database file that is there is opened and read, and a new one is filled
within one transaction; in both cases the record is read at the end. -/
theorem initializeMetadata_safe {expected : InstallationRecord} :
    Safe controlEnvironment (careful toml)
      (fun outcome root' => KeptBut [metadataName] root root' ∧ ∀ record, outcome = .ok record →
        record.identity = expected.identity ∧ Holds root' record)
      (initializeMetadata expected) root := by
  have hfails : ∀ e : PortError, KeptBut [metadataName] root root ∧ ∀ record : InstallationRecord,
      Except.error e = .ok record → record.identity = expected.identity ∧ Holds root record :=
    fun e => ⟨.refl _ root, nofun⟩
  refine safe_calm_bind careful_calm (only_callOr trivial) (fun _ => ?_) hfails
  refine safe_calm_bind careful_calm (only_callOr trivial) (fun _ => ?_) hfails
  refine safe_calm_bind careful_calm (only_callOr trivial) (fun _ => ?_) hfails
  have hopened : Safe controlEnvironment (careful toml)
      (fun outcome root' => KeptBut [metadataName] root root' ∧ ∀ record, outcome = .ok record →
        record.identity = expected.identity ∧ Holds root' record)
      (openOrInitialize expected) root := by
    refine safe_calm_bind careful_calm (only_callOr trivial) (fun _ => ?_) hfails
    refine safe_calm_bind careful_calm (only_callOr trivial) (fun _ => ?_) hfails
    refine safe_calm_bind careful_calm (only_callOr trivial) (fun _ => ?_) hfails
    refine safe_calm_bind careful_calm only_liftExcept (fun fresh => ?_) hfails
    refine Safe.bind (safe_within (by decide) within_migrateOrValidate) (fun _ root₁ h₁ => ?_)
      fun e root₁ h₁ => ⟨h₁, nofun⟩
    refine Safe.bind (safe_readInstallation careful_calm) (fun record root₂ h₂ => ?_)
      fun e root₂ h₂ => ⟨h₂.1 ▸ h₁, nofun⟩
    obtain ⟨rfl, hholds⟩ := h₂
    unfold ensure
    split
    · rename_i hidentity
      refine ⟨h₁, fun other heq => ?_⟩
      rw [← Except.ok.inj heq]
      exact ⟨hidentity, hholds record rfl⟩
    · exact ⟨h₁, nofun⟩
  refine Safe.bind hopened (fun record root₁ h₁ => ?_) fun e root₁ h₁ => ⟨h₁.1, nofun⟩
  refine safe_calm_bind careful_calm (only_callOr trivial) (fun _ => ?_) fun e => ⟨h₁.1, nofun⟩
  refine ⟨h₁.1, fun other heq => ?_⟩
  rw [← Except.ok.inj heq]
  exact h₁.2 record rfl

/-! ### The Ready marker

The Ready marker is exchanged with the initializing one while no config stands.  That none
does is known from the listing of the control root. -/

/-- An exchange of a staged name changes at most its target. -/
theorem exchange_kept {source target : String} {r : Except Errno Unit}
    (hsource : source ∉ fixedNames)
    (hstep : controlEnvironment.step root (.renameExchange source target) r root') :
    KeptBut [target] root root' := by
  have heffect : ∀ value, ControlCall.effect root (.renameExchange source target) value root' →
      KeptBut [target] root root' := by
    rintro _ ⟨a, b, -, -, rfl⟩
    exact (keptBut_set (.inl hsource)).trans (keptBut_set (.inr (List.mem_singleton_self _)))
  cases r with
  | ok value => exact heffect value hstep
  | error e =>
    rcases hstep with rfl | ⟨value, hvalue⟩ | hpart
    · exact .refl _ root'
    · exact heffect value hvalue
    · exact hpart.elim

/-- `exchange_with` of the marker, while no config stands: the exchange is careful, since nothing
published depends on the marker yet. -/
theorem exchangeWith_safe (hname : temporary.name ∉ fixedNames) (hnone : root configName = none) :
    Safe controlEnvironment (careful toml) (fun _ root' => KeptBut [markerName] root root')
      (temporary.exchangeWith markerName) root := by
  refine ⟨⟨hname, by decide, hnone⟩, fun r root₁ hstep => ?_⟩
  have hkept := exchange_kept hname hstep
  cases r with
  | ok _ => exact (safe_calm careful_calm calm_syncDirectory).mono fun _ _ hsame => hsame ▸ hkept
  | error e =>
    refine Safe.bind (x := temporary.drop) (safe_scratch (within_drop hname))
      (fun _ root₂ h₂ => ?_) fun e root₂ h₂ => ?_
    · exact hkept.trans (h₂.mono fun _ => nofun)
    · exact hkept.trans (h₂.mono fun _ => nofun)

/-- Behind the exchange both files are read and compared; nothing is written. -/
theorem calm_verifyExchange {ready : RootMarker} :
    Only ControlCall.calm (verifyExchange euid toml proof temporary ready) :=
  Only.bind calm_validatePrivateFile fun _ => Only.bind calm_validatePrivateFile fun _ =>
    Only.bind (only_callOr trivial) fun _ => Only.bind only_orMissing fun _ =>
    Only.bind (only_callOr trivial) fun _ => Only.bind only_orMissing fun _ =>
    Only.bind only_liftExcept fun _ => only_ensure

/-- `publish_ready` touches the marker, and only while no config stands.  That none does is known
from the prepared data root, which had no entries. -/
theorem publishReady_safe (hnone : root configName = none) :
    Safe controlEnvironment (careful toml) (fun _ root' => KeptBut [markerName] root root')
      (publishReady euid controlRoot toml lock proof) root := by
  have hfails : ∀ e : PortError, KeptBut [markerName] root root := fun _ => .refl _ root
  refine safe_calm_bind careful_calm calm_validateBootstrapLock (fun _ => ?_) hfails
  refine safe_calm_bind careful_calm calm_revalidateProof (fun _ => ?_) hfails
  refine safe_calm_bind careful_calm only_ensure (fun _ => ?_) hfails
  refine safe_calm_bind careful_calm only_liftExcept (fun bytes => ?_) hfails
  refine Safe.bind create_safe (fun temporary root₁ h₁ => ?_) fun e root₁ h₁ =>
    h₁.1.mono fun _ => nofun
  obtain ⟨hkept, hstaged⟩ := h₁
  have hname := (hstaged temporary rfl).1
  have hnone₁ : root₁ configName = none := (hkept _ (by decide) nofun).trans hnone
  refine Safe.bind (exchangeWith_safe hname hnone₁) (fun _ root₂ h₂ => ?_) fun e root₂ h₂ => ?_
  · have hmoved : KeptBut [markerName] root root₂ := (hkept.mono fun _ => nofun).trans h₂
    refine safe_calm_bind careful_calm calm_verifyExchange (fun _ => ?_) fun _ => hmoved
    refine safe_calm_bind careful_calm calm_validateBootstrapLock (fun _ => ?_) fun _ => hmoved
    have hunlink : Only (ControlCall.within [])
        (callOr (.unlink temporary.name) fun _ => .new .io "remove old Linux control marker") :=
      only_callOr hname
    refine Safe.bind (safe_scratch hunlink) (fun _ root₃ h₃ => ?_) fun e root₃ h₃ => ?_
    · have hend : KeptBut [markerName] root root₃ := hmoved.trans (h₃.mono fun _ => nofun)
      exact safe_calm_bind careful_calm calm_syncDirectory (fun _ => hend) fun _ => hend
    · exact hmoved.trans (h₃.mono fun _ => nofun)
  · exact (hkept.mono fun _ => nofun).trans h₂

/-! ### The config

The config is published behind the Ready marker and the filled database, which makes the
installation complete at that moment. -/

/-- `publish_config` from the staged document on is careful where the rest of the installation
stands. -/
theorem publishStagedConfig_safe (hname : temporary.name ∉ fixedNames)
    (hbytes : root.bytes temporary.name = some bytes)
    (hdecode : decodeConfig toml bytes = .ok identity) (hcomplete : Complete toml root identity) :
    Safe controlEnvironment (careful toml) (fun _ _ => True)
      (publishStagedConfig euid controlRoot toml lock identity directory temporary) root := by
  have hcare : careful toml (.renameNoreplace temporary.name configName) root :=
    ⟨hname, fun _ => ⟨bytes, identity, hbytes, hdecode, hcomplete⟩⟩
  refine Safe.bind (publishNoreplace_safe hname hbytes hcare).attempt (fun outcome root₁ _ => ?_)
    fun _ _ _ => trivial
  cases outcome with
  | error e => exact (safe_calm careful_calm calm_reconcile).mono fun _ _ _ => trivial
  | ok _ =>
    refine safe_calm_bind careful_calm calm_validateBootstrapLock (fun _ => ?_) fun _ => trivial
    refine safe_calm_bind careful_calm calm_validatePrivateFile (fun _ => ?_) fun _ => trivial
    refine safe_calm_bind careful_calm calm_readConfig (fun _ => ?_) fun _ => trivial
    exact safe_calm_bind careful_calm only_ensure (fun _ => trivial) fun _ => trivial

/-- `publish_config` is careful where the database is of its identity.  It reads the marker before
it stages the config, so the rest of the installation is known to be complete when the config gets
its name. -/
theorem publishConfig_safe (hread : toml.ReadsBack (configDocument identity).toTable)
    {record : InstallationRecord} (hholds : Holds root record)
    (hrecord : record.identity = identity) :
    Safe controlEnvironment (careful toml) (fun _ _ => True)
      (publishConfig euid controlRoot toml lock identity) root := by
  refine safe_calm_bind careful_calm calm_openPrivateDirectory (fun directory => ?_)
    fun _ => trivial
  refine safe_calm_bind careful_calm calm_validateBootstrapLock (fun _ => ?_) fun _ => trivial
  refine safe_calm_bind careful_calm only_ensure (fun _ => ?_) fun _ => trivial
  refine Safe.bind (safe_readRootMarker careful_calm) (fun marker root₁ h₁ => ?_)
    fun _ _ _ => trivial
  obtain ⟨rfl, hmarker⟩ := h₁
  by_cases hready : marker = some ⟨identity, .ready⟩
  · obtain ⟨markerBytes, hbytes, hdecode⟩ := hmarker _ (congrArg _ hready)
    obtain ⟨schema, hschema, hinstalled⟩ := hholds
    have hcomplete : Complete toml root₁ identity :=
      ⟨⟨markerBytes, hbytes, hdecode⟩, schema, record, hschema, hinstalled, hrecord⟩
    refine safe_calm_bind careful_calm only_ensure (fun _ => ?_) fun _ => trivial
    refine safe_calm_bind careful_calm calm_readConfig (fun current => ?_) fun _ => trivial
    cases current with
    | some current =>
      exact safe_calm_bind careful_calm only_ensure (fun _ => trivial) fun _ => trivial
    | none =>
      change Safe controlEnvironment (careful toml) _
        (liftExcept documentError (encodeConfig toml identity) >>= fun bytes => _) root₁
      cases hencode : encodeConfig toml identity with
      | error e => exact trivial
      | ok bytes =>
        refine Safe.bind (x := PrivateTemp.create euid directory "bootstrap-config" bytes)
          create_safe (fun temporary root₂ h₂ => ?_) fun _ _ _ => trivial
        obtain ⟨hname, hstaged⟩ := h₂.2 temporary rfl
        have hstands := hcomplete.congr (h₂.1 _ (by decide) nofun) (h₂.1 _ (by decide) nofun)
        exact publishStagedConfig_safe hname hstaged (decodeConfig_encodeConfig hread hencode)
          hstands
  · unfold ensure
    rw [if_neg hready]
    exact trivial

/-! ### Every call of an initialization is careful

The composition along `init`: each branch keeps to the guard, and the branch that found a
config only reads. -/

variable {request : InitRequest}

/-- A part of the adapter in the use case: its failure gets the stage, and its calls are the same.
-/
theorem safe_atStage {stage : Application.Stage} {y : Control α}
    (post : Except Application.UseCaseError α → ControlRoot → Prop)
    (h : Safe controlEnvironment guard
      (fun outcome root' => post (outcome.mapError (Application.mapPort stage)) root') y root) :
    Safe controlEnvironment guard post (atStage stage y) root :=
  Safe.mapError h

/-- A check of the use case takes no call. -/
theorem only_require {p : Prop} [Decidable p] {error : Application.UseCaseError} :
    Only P (require p error) := by
  unfold require
  split <;> trivial

/-- `init` from the metadata on, where no config stands: the database first, then the Ready marker,
and the config last.  The three documents are written in this order, and each step leaves the ones
before it as they are. -/
theorem publishInstallation_careful (htoml : ∀ identity, toml.ReadsBack
    (configDocument identity).toTable) {expected : InstallationRecord}
    (hnone : root configName = none) :
    Safe controlEnvironment (careful toml) (fun _ _ => True)
      (publishInstallation euid controlRoot toml lock proof expected) root := by
  refine Safe.bind (safe_atStage (fun outcome root' => KeptBut [metadataName] root root' ∧
      ∀ record, outcome = .ok record → Holds root' record) (initializeMetadata_safe.mono
        fun outcome root' h => ⟨h.1, fun record heq => ?_⟩)) (fun record root₁ h₁ => ?_)
    fun _ _ _ => trivial
  · cases outcome with
    | ok other =>
      obtain rfl := Except.ok.inj heq
      exact (h.2 other rfl).2
    | error e => cases heq
  · have hnone₁ : root₁ configName = none := (h₁.1 _ (by decide) (by decide)).trans hnone
    refine safe_calm_bind careful_calm (Only.mapError (only_callOr trivial)) (fun _ => ?_)
      fun _ => trivial
    refine Safe.bind (safe_atStage (fun _ root' => KeptBut [markerName] root₁ root')
      (publishReady_safe hnone₁)) (fun ready root₂ h₂ => ?_) fun _ _ _ => trivial
    refine safe_calm_bind careful_calm only_require (fun _ => ?_) fun _ => trivial
    have hholds : Holds root₂ record := by
      obtain ⟨schema, hschema, hrecord⟩ := h₁.2 record rfl
      refine ⟨schema, ?_, hrecord⟩
      rw [database_congr (h₂ _ (by decide) (by decide)), hschema]
    refine Safe.bind (safe_atStage (fun _ _ => True)
      (publishConfig_safe (htoml _) hholds rfl)) (fun _ _ _ => trivial) fun _ _ _ => trivial

/-- The directory entries that `prepare_data_root` accepts: the lock file at most. -/
def Unclaimed (root : ControlRoot) : Prop := ∀ name, root name ≠ none → name = lockName

/-- Where the entries are accepted, each is the lock file. -/
theorem requireUnclaimedEntries_safe {entries : List String}
    (hguard : ∀ c root, c.calm → guard c root) :
    Safe controlEnvironment guard (fun outcome root' => root' = root ∧
      ∀ u, outcome = .ok u → ∀ name ∈ entries, name = lockName)
      (requireUnclaimedEntries euid entries) root := by
  induction entries with
  | nil => exact ⟨rfl, fun _ _ _ h => absurd h List.not_mem_nil⟩
  | cons entry entries ih =>
    by_cases hentry : entry = lockName
    · have hcalm : Only ControlCall.calm (requireUnclaimedEntry euid entry) :=
        Only.bind only_ensure fun _ => Only.bind (only_callOr trivial) fun _ => only_ensure
      refine safe_calm_bind hguard hcalm (fun _ => ?_) fun e => ⟨rfl, nofun⟩
      exact ih.mono fun outcome root' h =>
        ⟨h.1, fun u hok => List.forall_mem_cons.mpr ⟨hentry, h.2 u hok⟩⟩
    · unfold requireUnclaimedEntries requireUnclaimedEntry ensure
      rw [if_neg hentry]
      exact ⟨rfl, nofun⟩

/-- Where the control root is accepted, it is unclaimed. -/
theorem requireUnclaimed_safe (hguard : ∀ c root, c.calm → guard c root) :
    Safe controlEnvironment guard (fun outcome root' => root' = root ∧
      ∀ u, outcome = .ok u → Unclaimed root) (requireUnclaimedControlRoot euid directory) root := by
  refine ⟨hguard _ _ trivial, fun r root' hstep => ?_⟩
  have hsame := calm_step (c := .readDirectory) trivial hstep
  cases r with
  | error e => exact ⟨hsame, nofun⟩
  | ok entries =>
    obtain ⟨rfl, hentries⟩ := hstep
    refine Safe.bind (x := requireUnclaimedEntries euid entries)
      (requireUnclaimedEntries_safe hguard) (fun _ root₁ h₁ => ?_) fun e root₁ h₁ => ⟨h₁.1, nofun⟩
    obtain ⟨rfl, hall⟩ := h₁
    refine (safe_calm hguard calm_revalidatePrivateDirectory).mono fun outcome root' hsame => ?_
    exact ⟨hsame, fun _ _ name hname => hall () rfl name ((hentries name).mpr hname)⟩

/-- A prepared data root was unclaimed when it was listed, and the listing has changed nothing. -/
theorem prepareDataRoot_safe {dataRoot : AbsolutePath}
    (hguard : ∀ c root, c.calm → guard c root) :
    Safe controlEnvironment guard (fun outcome root' => root' = root ∧
      ∀ prepared, outcome = .ok prepared → Unclaimed root)
      (prepareDataRoot euid controlRoot dataRoot) root := by
  refine safe_calm_bind hguard only_ensure (fun _ => ?_) fun e => ⟨rfl, nofun⟩
  refine safe_calm_bind hguard (only_callOr trivial) (fun directory => ?_) fun e => ⟨rfl, nofun⟩
  refine Safe.bind (requireUnclaimed_safe hguard) (fun _ root₁ h₁ => ?_)
    fun e root₁ h₁ => ⟨h₁.1, nofun⟩
  obtain ⟨rfl, hunclaimed⟩ := h₁
  refine safe_calm_bind hguard (only_callOr trivial) (fun found => ?_) fun e => ⟨rfl, nofun⟩
  obtain ⟨volumeId, mountId⟩ := found
  refine safe_calm_bind hguard calm_revalidatePrepared (fun _ => ?_) fun e => ⟨rfl, nofun⟩
  exact ⟨rfl, fun _ _ => hunclaimed () rfl⟩

/-- The branch of `init` where no config was found: the directory is prepared, the marker is
created, the layout is made, and the installation is published. -/
theorem initializeNew_careful (htoml : ∀ identity, toml.ReadsBack
    (configDocument identity).toTable) :
    Safe controlEnvironment (careful toml) (fun _ _ => True)
      (initializeNew euid controlRoot toml request lock) root := by
  refine Safe.bind (safe_atStage (fun outcome root' => root' = root ∧
    ∀ prepared, outcome = .ok prepared → Unclaimed root) ((prepareDataRoot_safe careful_calm).mono
      fun outcome root' h => ⟨h.1, fun prepared heq => ?_⟩)) (fun prepared root₁ h₁ => ?_)
    fun _ _ _ => trivial
  · cases outcome with
    | ok other => exact h.2 other rfl
    | error e => cases heq
  · obtain ⟨rfl, hunclaimed⟩ := h₁
    have hnone : root₁ configName = none := by
      by_contra hstands
      exact absurd (hunclaimed prepared rfl _ hstands) (by decide)
    refine ⟨trivial, fun r root₂ hstep => ?_⟩
    obtain rfl := calm_step (c := .newUuid) trivial hstep
    cases r with
    | error e => cases e
    | ok instanceId =>
      refine Safe.bind (x := atStage .control (createInitializing _ _ _ _ _ _))
        (safe_atStage (fun _ root' => KeptBut [markerName] root₂ root')
          (createInitializing_safe.mono fun _ _ h => h.1)) (fun proof root₃ h₃ => ?_)
        fun _ _ _ => trivial
      have hnone₃ : root₃ configName = none := (h₃ _ (by decide) (by decide)).trans hnone
      refine Safe.bind (safe_atStage
        (fun _ root' => KeptBut [metadataName, logsName] root₃ root')
        (safe_within (by decide) within_initializeLayout)) (fun _ root₄ h₄ => ?_)
        fun _ _ _ => trivial
      exact publishInstallation_careful htoml ((h₄ _ (by decide) (by decide)).trans hnone₃)

/-- The marker of an existing installation is read, and nothing is written. -/
theorem calm_requireReadyMarker :
    Only ControlCall.calm (requireReadyMarker controlRoot toml identity) :=
  Only.bind (Only.mapError calm_readRootMarker) fun _ => only_require

/-- The database of an existing installation is read, and nothing is written to it. -/
theorem calm_inspectInstallation {expected : InstallationRecord} :
    Only ControlCall.calm (inspectInstallation expected) :=
  Only.bind (only_callOr trivial) fun _ => Only.bind (only_callOr trivial) fun _ =>
    Only.bind (only_callOr trivial) fun _ => Only.bind calm_validateExistingDatabase fun _ =>
    Only.bind (only_callOr trivial) fun _ => Only.bind (only_callOr trivial) fun _ =>
    Only.bind (only_callOr trivial) fun _ => Program.only_pure

/-- The branch of `init` where a config was found only reads. -/
theorem calm_verifyExisting :
    Only ControlCall.calm (verifyExisting controlRoot toml request identity) :=
  Only.bind only_require fun _ =>
    Only.bind (Only.bind (Only.mapError (only_callOr trivial)) fun _ =>
    Only.bind calm_requireReadyMarker fun _ => Only.bind (Only.mapError calm_inspectInstallation)
      fun _ => Only.bind (Only.mapError (only_callOr trivial)) fun _ =>
        Only.bind calm_requireReadyMarker fun _ => Program.only_pure) fun _ => Program.only_pure

/-- **Every call of `init` is careful**, in any control root.  The TOML library must read back the
config it has printed: otherwise the document that is published could show another identity than
the one whose installation is complete. -/
theorem init_careful (htoml : ∀ identity, toml.ReadsBack (configDocument identity).toTable) :
    Safe controlEnvironment (careful toml) (fun _ _ => True)
      (init euid controlRoot toml request) root := by
  refine safe_calm_bind careful_calm (Only.mapError (only_callOr trivial)) (fun _ => ?_)
    fun _ => trivial
  have hacquire : Safe controlEnvironment (careful toml) (fun _ _ => True)
      (callOr .acquireBootstrap id) root :=
    ⟨trivial, fun r _ _ => by cases r <;> trivial⟩
  refine Safe.bind (safe_atStage (fun _ _ => True) hacquire) (fun lock root₁ _ => ?_)
    fun _ _ _ => trivial
  refine safe_calm_bind careful_calm (Only.mapError calm_readConfig) (fun current => ?_)
    fun _ => trivial
  refine safe_calm_bind careful_calm (Only.mapError (only_callOr trivial)) (fun _ => ?_)
    fun _ => trivial
  cases current with
  | some identity =>
    exact (safe_calm careful_calm calm_verifyExisting).mono fun _ _ _ => trivial
  | none => exact initializeNew_careful htoml

/-! ### Leftovers

With leftovers of an earlier run, or of someone else, an initialization writes nothing but
the lock file.  It answers with the installation that is visible, or fails. -/

/-- Only the lock file may be written: the guard of a run that finds an installation. -/
def untouched (c : ControlCall) (_ : ControlRoot) : Prop := c.calm ∨ c = .acquireBootstrap

/-- All but the lock file is as it was. -/
def SameBut (root root' : ControlRoot) : Prop := ∀ name, name ≠ lockName → root' name = root name

/-- Nothing has changed where nothing has happened, so the two control roots are the same but for
the lock file. -/
theorem SameBut.refl (root : ControlRoot) : SameBut root root := fun _ _ => rfl

/-- The lock file says nothing about the identity, which is visible by config, marker and database.
-/
theorem SameBut.visible (h : SameBut root root') : visible toml root' = visible toml root := by
  unfold Linux.visible
  rw [bytes_congr (h configName (by decide))]

/-- Something of an earlier run is there, or of someone else. -/
def HasLeftovers (root : ControlRoot) : Prop := ∃ name, name ≠ lockName ∧ root name ≠ none

/-- It is there as long as all but the lock file stays. -/
theorem HasLeftovers.congr (h : HasLeftovers root) (hsame : SameBut root root') :
    HasLeftovers root' := by
  obtain ⟨name, hname, hentry⟩ := h
  exact ⟨name, hname, hsame name hname ▸ hentry⟩

/-- Taking the bootstrap lock creates the lock file at most. -/
theorem acquire_step {r : Except PortError LockGuard}
    (hstep : controlEnvironment.step root .acquireBootstrap r root') : SameBut root root' := by
  have heffect : ∀ value, ControlCall.effect root .acquireBootstrap value root' →
      SameBut root root' := by
    rintro _ ⟨-, stat, bytes, rfl⟩ name hname
    exact ControlRoot.set_other root _ hname
  cases r with
  | ok value => exact heffect value hstep
  | error e =>
    rcases hstep with rfl | ⟨value, hvalue⟩ | hpart
    · exact .refl root'
    · exact heffect value hvalue
    · exact hpart.elim

/-- What only reads touches nothing, and so is permitted to a run that finds an installation. -/
theorem untouched_calm (c : ControlCall) (root : ControlRoot) (h : c.calm) : untouched c root :=
  .inl h

/-- One step among leftovers: all but the lock file is as it was. -/
theorem untouched_step {c : ControlCall} {r : c.Result} (h : untouched c root)
    (hstep : controlEnvironment.step root c r root') : SameBut root root' := by
  rcases h with hcalm | rfl
  · rw [calm_step hcalm hstep]
    exact .refl root
  · exact acquire_step hstep

/-- A database holds one installation, so two records that it holds are the same. -/
theorem Holds.unique {record record' : InstallationRecord} (h : Holds root record)
    (h' : Holds root record') : record' = record := by
  obtain ⟨schema, hschema, hrecord⟩ := h
  obtain ⟨schema', hschema', hrecord'⟩ := h'
  obtain rfl := Option.some.inj (hschema.symm.trans hschema')
  exact Option.some.inj (hrecord'.symm.trans hrecord)

/-- A database that passes holds the identity it is asked for.  The checks of the file come first,
then the record is read and its identity compared. -/
theorem validateExistingDatabase_safe {expected : InstallationRecord}
    (hguard : ∀ c root, c.calm → guard c root) :
    Safe controlEnvironment guard (fun outcome root' => root' = root ∧ ∀ u, outcome = .ok u →
      ∃ record, Holds root record ∧ record.identity = expected.identity)
      (validateExistingDatabase expected) root := by
  refine safe_calm_bind hguard (only_callOr trivial) (fun _ => ?_) fun e => ⟨rfl, nofun⟩
  refine safe_calm_bind hguard (only_callOr trivial) (fun _ => ?_) fun e => ⟨rfl, nofun⟩
  refine safe_calm_bind hguard only_ensure (fun _ => ?_) fun e => ⟨rfl, nofun⟩
  refine safe_calm_bind hguard only_ensure (fun _ => ?_) fun e => ⟨rfl, nofun⟩
  refine safe_calm_bind hguard (only_callOr trivial) (fun _ => ?_) fun e => ⟨rfl, nofun⟩
  refine Safe.bind (safe_readInstallation hguard) (fun record root₁ h₁ => ?_)
    fun e root₁ h₁ => ⟨h₁.1, nofun⟩
  obtain ⟨rfl, hholds⟩ := h₁
  unfold ensure
  split
  · rename_i hidentity
    exact ⟨rfl, fun _ _ => ⟨record, hholds record rfl, hidentity⟩⟩
  · exact ⟨rfl, nofun⟩

/-- The installation a snapshot shows is the one it was asked for.  The file is validated and then
read once more, and both times it holds the same record. -/
theorem inspectInstallation_safe {expected : InstallationRecord}
    (hguard : ∀ c root, c.calm → guard c root) :
    Safe controlEnvironment guard (fun outcome root' => root' = root ∧ ∀ record,
      outcome = .ok record → record.identity = expected.identity)
      (inspectInstallation expected) root := by
  refine safe_calm_bind hguard (only_callOr trivial) (fun _ => ?_) fun e => ⟨rfl, nofun⟩
  refine safe_calm_bind hguard (only_callOr trivial) (fun _ => ?_) fun e => ⟨rfl, nofun⟩
  refine safe_calm_bind hguard (only_callOr trivial) (fun _ => ?_) fun e => ⟨rfl, nofun⟩
  refine Safe.bind (validateExistingDatabase_safe hguard) (fun _ root₁ h₁ => ?_)
    fun e root₁ h₁ => ⟨h₁.1, nofun⟩
  obtain ⟨rfl, hvalid⟩ := h₁
  obtain ⟨checked, hchecked, hidentity⟩ := hvalid () rfl
  refine Safe.bind (safe_readInstallation hguard) (fun record root₂ h₂ => ?_)
    fun e root₂ h₂ => ⟨h₂.1, nofun⟩
  obtain ⟨rfl, hholds⟩ := h₂
  refine safe_calm_bind hguard (only_callOr trivial) (fun _ => ?_) fun e => ⟨rfl, nofun⟩
  refine safe_calm_bind hguard (only_callOr trivial) (fun _ => ?_) fun e => ⟨rfl, nofun⟩
  refine ⟨rfl, fun other heq => ?_⟩
  rw [← Except.ok.inj heq, hchecked.unique (hholds record rfl), hidentity]

/-- An existing installation is reported with the identity of its config, and as one that was there
already.  Its own calls only read, and the identity it reports is the one it was given. -/
theorem verifyExisting_safe (hguard : ∀ c root, c.calm → guard c root) :
    Safe controlEnvironment guard (fun outcome _ => ∀ o, outcome = .ok o →
      o.result = .alreadyInitialized ∧ o.installation.identity = identity)
      (verifyExisting controlRoot toml request identity) root := by
  refine safe_calm_bind hguard only_require (fun _ => ?_) fun e => nofun
  have hinspect : Safe controlEnvironment guard (fun outcome _ => ∀ record,
      outcome = .ok record → record.identity = identity)
      (inspectExisting controlRoot toml identity request.now) root := by
    refine safe_calm_bind hguard (Only.mapError (only_callOr trivial)) (fun _ => ?_) fun e => nofun
    refine safe_calm_bind hguard calm_requireReadyMarker (fun _ => ?_) fun e => nofun
    refine Safe.bind (safe_atStage (fun outcome root' => root' = root ∧ ∀ record,
      outcome = .ok record → record.identity = identity) ((inspectInstallation_safe hguard).mono
        fun outcome root' h => ⟨h.1, fun record heq => ?_⟩)) (fun record root₁ h₁ => ?_)
      fun e root₁ _ => nofun
    · cases outcome with
      | ok other =>
        obtain rfl := Except.ok.inj heq
        exact h.2 other rfl
      | error e => cases heq
    · refine safe_calm_bind hguard (Only.mapError (only_callOr trivial)) (fun _ => ?_)
        fun e => nofun
      refine safe_calm_bind hguard calm_requireReadyMarker (fun _ => ?_) fun e => nofun
      intro other heq
      rw [← Except.ok.inj heq]
      exact h₁.2 record rfl
  refine Safe.bind hinspect (fun record root₁ h₁ => ?_) fun e root₁ _ => nofun
  intro o heq
  rw [← Except.ok.inj heq]
  exact ⟨rfl, h₁ record rfl⟩

/-- What `init` answers in a control root with leftovers: an error, or that the installation whose
identity is visible is there already. -/
def Recognized (toml : TomlLibrary) (root : ControlRoot)
    (outcome : Except Application.UseCaseError InitOutcome) : Prop :=
  ∀ o, outcome = .ok o →
    o.result = .alreadyInitialized ∧ visible toml root = some o.installation.identity

/-- Among leftovers nothing is initialized: the listing of the control root comes before the first
write. -/
theorem initializeNew_refuses (hguard : ∀ c root, c.calm → guard c root)
    (hleft : HasLeftovers root) :
    Safe controlEnvironment guard (fun outcome _ => ∀ o, outcome ≠ .ok o)
      (initializeNew euid controlRoot toml request lock) root := by
  refine Safe.bind (safe_atStage (fun outcome _ => ∀ prepared, outcome ≠ .ok prepared)
    ((prepareDataRoot_safe hguard).mono fun outcome root' h prepared heq => ?_))
    (fun prepared root₁ h₁ => absurd rfl (h₁ prepared)) fun e root₁ _ => nofun
  cases outcome with
  | ok other =>
    obtain ⟨name, hname, hentry⟩ := hleft
    exact hname (h.2 other rfl name hentry)
  | error e => cases heq

/-- **Leftovers are not touched**: `init` makes no call that writes to them, and reports what is
visible or fails.  The run is followed from the lock on: where a config is visible it is verified,
and otherwise the leftovers make it fail before it writes. -/
theorem init_untouched (hleft : HasLeftovers root) :
    Safe controlEnvironment untouched (fun outcome _ => Recognized toml root outcome)
      (init euid controlRoot toml request) root := by
  refine safe_calm_bind untouched_calm (Only.mapError (only_callOr trivial)) (fun _ => ?_)
    fun e => nofun
  have hacquire : Safe controlEnvironment untouched (fun _ root' => SameBut root root')
      (callOr .acquireBootstrap id) root :=
    ⟨.inr rfl, fun r root' hstep => by cases r <;> exact acquire_step hstep⟩
  refine Safe.bind (safe_atStage (fun _ root' => SameBut root root') hacquire)
    (fun lock root₁ h₁ => ?_) fun e root₁ _ => nofun
  refine Safe.bind (safe_atStage (fun outcome root' => root' = root₁ ∧ ∀ identity,
    outcome = .ok (some identity) → visible toml root₁ = some identity)
      ((safe_readConfig untouched_calm).mono fun outcome root' h =>
        ⟨h.1, fun identity heq => ?_⟩)) (fun current root₂ h₂ => ?_) fun e root₂ _ => nofun
  · cases outcome with
    | ok other =>
      obtain rfl := Except.ok.inj heq
      exact h.2 identity rfl
    | error e => cases heq
  · obtain ⟨rfl, hvisible⟩ := h₂
    refine safe_calm_bind untouched_calm (Only.mapError (only_callOr trivial)) (fun _ => ?_)
      fun e => nofun
    cases current with
    | some identity =>
      refine (verifyExisting_safe untouched_calm).mono fun outcome _ h o heq => ?_
      obtain ⟨hresult, hidentity⟩ := h o heq
      exact ⟨hresult, by rw [← h₁.visible, hvisible identity rfl, hidentity]⟩
    | none =>
      exact (initializeNew_refuses untouched_calm (hleft.congr h₁)).mono
        fun outcome _ h o heq => absurd heq (h o)

/-! ### Sequences of runs

A sequence of runs, each of them complete or stopped anywhere.  All of its moments are taken
together, those of one run as well as those of different runs: a config that stands at one
of them stays at every later one, so no two moments show different identities. -/

/-- The states a sequence of runs of `init` can reach, one run at a time: a run that failed or was
killed leaves the control root as it was at one of its moments. -/
inductive InitRuns (euid : UInt32) (controlRoot : AbsolutePath) (toml : TomlLibrary)
    (start : ControlRoot) : ControlRoot → Prop
  | start : InitRuns euid controlRoot toml start start
  | run {root root' : ControlRoot} {request : InitRequest}
      (before : InitRuns euid controlRoot toml start root)
      (visits : Visits controlEnvironment (init euid controlRoot toml request) root root') :
      InitRuns euid controlRoot toml start root'

variable {start : ControlRoot}

/-- **The run lemma.**  By induction over the sequence, with `published_step` along each run: what
stands at a moment stays, beside the rest of its installation. -/
theorem InitRuns.published (htoml : ∀ identity, toml.ReadsBack (configDocument identity).toTable)
    (h : InitRuns euid controlRoot toml start root) (hstart : Published toml start) :
    Published toml root ∧ (start configName ≠ none → root configName = start configName) := by
  induction h with
  | start => exact ⟨hstart, fun _ => rfl⟩
  | @run root root' request _ visits ih =>
    have hnext := (init_careful htoml).of_visits
      (fun s => Published toml s ∧ (root configName ≠ none → s configName = root configName))
      ⟨ih.1, fun _ => rfl⟩ (fun s c r s' hcare hinv hstep => ?_) visits
    · refine ⟨hnext.1, fun hstands => ?_⟩
      have hroot := ih.2 hstands
      rw [hnext.2 (hroot ▸ hstands), hroot]
    · obtain ⟨hpublished, hkept⟩ := published_step hcare hinv.1 hstep
      refine ⟨hpublished, fun hstands => ?_⟩
      have hs := hinv.2 hstands
      rw [hkept (hs ▸ hstands), hs]

/-- All the moments of such a sequence, in their order, and the last of them.  A run adds the
states behind each of its calls, up to the moment where it stops. -/
inductive InitMoments (euid : UInt32) (controlRoot : AbsolutePath) (toml : TomlLibrary)
    (start : ControlRoot) : List ControlRoot → ControlRoot → Prop
  | start : InitMoments euid controlRoot toml start [start] start
  | run {moments run : List ControlRoot} {root root' : ControlRoot} {request : InitRequest}
      (before : InitMoments euid controlRoot toml start moments root)
      (passes : Passes controlEnvironment (init euid controlRoot toml request) root run root') :
      InitMoments euid controlRoot toml start (moments ++ run) root'

/-- A config that stands at one moment is the same at a later one. -/
def ConfigStays (root later : ControlRoot) : Prop :=
  root configName ≠ none → later configName = root configName

/-- It is then the same at a moment that is later still. -/
theorem ConfigStays.trans {root root₁ root₂ : ControlRoot} (h : ConfigStays root root₁)
    (h₁ : ConfigStays root₁ root₂) : ConfigStays root root₂ := by
  intro hstands
  have hsame := h hstands
  rw [h₁ (hsame ▸ hstands), hsame]

/-- What was visible stays visible: the config stays, and with it the marker and the database of
its identity. -/
theorem ConfigStays.visible {root later : ControlRoot} (h : ConfigStays root later)
    {identity : InstallationIdentity} (hvisible : Linux.visible toml root = some identity) :
    Linux.visible toml later = some identity := by
  have hstands : root configName ≠ none := by
    intro hnone
    unfold Linux.visible ControlRoot.bytes at hvisible
    rw [hnone] at hvisible
    cases hvisible
  unfold Linux.visible at hvisible ⊢
  rwa [bytes_congr (h hstands)]

/-- **The sequence.**  A config that stands at one moment stays at every later one, of the same run
or of another.  The moments of one run are in order by the step lemma, and those of two runs by the
state in between. -/
theorem InitMoments.ordered (htoml : ∀ identity, toml.ReadsBack (configDocument identity).toTable)
    {moments : List ControlRoot} (h : InitMoments euid controlRoot toml start moments root)
    (hstart : Published toml start) :
    Published toml root ∧ (∀ m ∈ moments, ConfigStays m root) ∧ moments.Pairwise ConfigStays := by
  induction h with
  | start =>
    refine ⟨hstart, fun m hm _ => ?_, List.pairwise_singleton _ _⟩
    rw [List.mem_singleton.mp hm]
  | @run moments run root root' request _ passes ih =>
    obtain ⟨hpublished, hbefore, hordered⟩ := ih
    have hrun := (init_careful htoml).of_passes (Published toml) (R := ConfigStays)
      (fun _ _ => rfl) (fun _ _ _ => ConfigStays.trans) hpublished
      (fun s c r s' hcare hinv hstep => published_step hcare hinv hstep) passes
    obtain ⟨hlast, hmoments, hacross, hlater⟩ := hrun
    refine ⟨hlast, fun m hm => ?_, List.pairwise_append.mpr ⟨hordered, hlater, ?_⟩⟩
    · rcases List.mem_append.mp hm with hm | hm
      · exact (hbefore m hm).trans hacross
      · exact (hmoments m hm).2
    · exact fun m hm m' hm' => (hbefore m hm).trans (hmoments m' hm').1

/-- What holds over every sequence of runs: `complete` at every moment, `stays` and `one` over all
of its moments, `kept` and `reported` of a run among leftovers. -/
structure InitSafe (euid : UInt32) (controlRoot : AbsolutePath) (toml : TomlLibrary)
    (start : ControlRoot) : Prop where
  /-- A config stands beside a Ready marker and a database of the identity it shows. -/
  complete : ∀ root, InitRuns euid controlRoot toml start root → root configName ≠ none →
    ∃ identity, visible toml root = some identity ∧ Complete toml root identity
  /-- The identity that is visible at one moment of the sequence is so at every later one, of
  the same run or of another. -/
  stays : ∀ moments last, InitMoments euid controlRoot toml start moments last →
    moments.Pairwise fun root later => ∀ identity, visible toml root = some identity →
      visible toml later = some identity
  /-- Over the whole sequence at most one identity becomes visible. -/
  one : ∀ moments last, InitMoments euid controlRoot toml start moments last →
    ∀ root ∈ moments, ∀ other ∈ moments, ∀ identity identity',
      visible toml root = some identity → visible toml other = some identity' →
        identity' = identity
  /-- At every moment of a run among leftovers, all but the lock file is as it was. -/
  kept : ∀ root moment request, InitRuns euid controlRoot toml start root → HasLeftovers root →
    Visits controlEnvironment (init euid controlRoot toml request) root moment →
      SameBut root moment
  /-- Such a run fails, or reports the installation that is visible. -/
  reported : ∀ root last request outcome, InitRuns euid controlRoot toml start root →
    HasLeftovers root →
    Returns controlEnvironment (init euid controlRoot toml request) root outcome last →
      (∃ error, outcome = .error error) ∨ ∃ installation,
        outcome = .ok ⟨.alreadyInitialized, installation⟩ ∧
          visible toml root = some installation.identity

/-- **Publication is safe** over every sequence of runs of `init` that begins without a config,
wherever each of them stops.  It may begin with any other leftovers. -/
theorem init_publication_safe (euid : UInt32) (controlRoot : AbsolutePath) (toml : TomlLibrary)
    (start : ControlRoot) (htoml : ∀ identity, toml.ReadsBack (configDocument identity).toTable)
    (hstart : start configName = none) : InitSafe euid controlRoot toml start := by
  have hpublished : Published toml start := fun hstands => absurd hstart hstands
  constructor
  case complete =>
    intro root hroot hstands
    exact (hroot.published htoml hpublished).1 hstands
  case stays =>
    intro moments last hmoments
    exact (hmoments.ordered htoml hpublished).2.2.imp fun hstays identity => hstays.visible
  case one =>
    intro moments last hmoments
    have hordered : moments.Pairwise fun root other => ∀ identity identity',
        visible toml root = some identity → visible toml other = some identity' →
          identity' = identity := by
      refine (hmoments.ordered htoml hpublished).2.2.imp fun hstays identity identity' h h' => ?_
      exact Option.some.inj (h'.symm.trans (hstays.visible h))
    have hself : ∀ root ∈ moments, ∀ identity identity', visible toml root = some identity →
        visible toml root = some identity' → identity' = identity :=
      fun _ _ _ _ h h' => Option.some.inj (h'.symm.trans h)
    have hflipped := hordered.imp fun h identity identity' h₁ h₂ =>
      (h identity' identity h₂ h₁).symm
    exact fun root hroot other hother =>
      hordered.forall_of_forall_of_flip hself hflipped hroot hother
  case kept =>
    intro root moment request _ hleft visits
    refine (init_untouched hleft).of_visits (SameBut root) (.refl root) ?_ visits
    intro s c r s' hguard hinv hstep name hname
    rw [untouched_step hguard hstep name hname, hinv name hname]
  case reported =>
    intro root last request outcome _ hleft returns
    have hrecognized := (init_untouched hleft).of_returns returns
    cases outcome with
    | error error => exact .inl ⟨error, rfl⟩
    | ok o =>
      obtain ⟨hresult, hvisible⟩ := hrecognized o rfl
      obtain ⟨result, installation⟩ := o
      obtain rfl : result = .alreadyInitialized := hresult
      exact .inr ⟨installation, rfl, hvisible⟩

/-! ### A library that knows three documents

A library that prints and parses three documents stands for the real one, and the theorem is
applied to every sequence of runs on an empty directory. -/

/-- A line of a table without characters to escape. -/
def tomlLine : String × Toml → String
  | (key, .int n) => key ++ " = " ++ toString n ++ "\n"
  | (key, .str text) => key ++ " = \"" ++ text ++ "\"\n"

/-- A printed table, one line for each of its entries. -/
def tomlText (table : TomlTable) : String := String.join (table.map tomlLine)

/-- The config and the two markers of one installation. -/
def documentsOf (identity : InstallationIdentity) : List TomlTable :=
  [(configDocument identity).toTable,
    MarkerDocument.toTable ⟨configDocument identity, .initializing⟩,
    MarkerDocument.toTable ⟨configDocument identity, .ready⟩]

/-- The library that prints and parses the documents of one installation, and no others. -/
def libraryOf (identity : InstallationIdentity) : TomlLibrary where
  toText table := if table ∈ documentsOf identity then some (tomlText table) else none
  fromText text := (documentsOf identity).find? fun table => tomlText table == text

/-- It reads back every config it prints, and it prints no config but that of its installation. -/
theorem libraryOf_readsBack (identity other : InstallationIdentity) :
    (libraryOf identity).ReadsBack (configDocument other).toTable := by
  intro text htext
  simp only [libraryOf] at htext ⊢
  split at htext
  · rename_i hmem
    obtain rfl := Option.some.inj htext
    have hmarker : ∀ state, (configDocument other).toTable ≠
        MarkerDocument.toTable ⟨configDocument identity, state⟩ := by
      intro state h
      have hlength := congrArg List.length h
      simp [ConfigDocument.toTable, MarkerDocument.toTable] at hlength
    have hconfig : (configDocument other).toTable = (configDocument identity).toTable := by
      simpa [documentsOf, hmarker] using hmem
    rw [hconfig, documentsOf, List.find?_cons_of_pos (by simp)]
  · cases htext

/-- Every sequence of runs on an empty directory, with a library that really prints and parses: its
publication is safe. -/
theorem init_publication_safe_empty :
    InitSafe 1000 (samplePath 2)
      (libraryOf sampleInstallation.identity) (fun _ => none) :=
  init_publication_safe _ _ _ _ (libraryOf_readsBack _) rfl

end Linux
end ThinWorkspace
