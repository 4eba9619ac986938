/-
# What the probe digest hashes

Source: `crates/thinws-adapter-linux/src/probe.rs`, `digest` and its helpers.

The digest of a probe is all that a later step compares with a fresh probe, so the
bytes it hashes must say which four path reports and which two candidates they come
from.  `reportBytes` and `candidateBytes` follow the two loops of `digest`; each can
be read off the front of any transcript (`delimited_reportBytes`,
`delimited_candidateBytes`), whatever texts, lists and options its fields hold.
-/

import ThinWorkspace.Btrfs.Transcript
import ThinWorkspace.Core.Materialization

namespace ThinWorkspace
namespace Linux

open ThinWorkspace.Core Lib
open Lib.Transcript (Delimited counted delimited_symbol)
open Btrfs (leBytes lengthAndBytes optionBytes InMemory delimited_leBytes delimited_count
  delimited_u64 delimited_u32 delimited_lengthAndBytes delimited_optionBytes)

namespace Probe

/-! ### The bytes of a report

Everything that `digest` writes, function by function.  Texts and lists stand behind their
lengths, optional values behind a mark. -/

/-- `digest_count`: a number of elements, before the elements themselves. -/
def digestCount (count : ℕ) : List UInt8 := leBytes 8 count

/-- `digest_bytes`: a text behind its length, so that it can be read back. -/
def digestBytes (bytes : List UInt8) : List UInt8 := lengthAndBytes bytes

/-- The bytes of an `i32`, by its two's complement. -/
def i32Bytes (value : Int32) : List UInt8 := leBytes 4 value.toUInt32.toNat

/-- `digest_optional_i32`: a byte that says whether there is a value, and the value. -/
def digestOptionalI32 (value : Option Int32) : List UInt8 := optionBytes i32Bytes value

/-- `state_byte`: one byte for each state of support. -/
def stateByte : SupportState → UInt8
  | .supported => 1
  | .unsupported => 2
  | .unknown => 3

/-- The byte of a resolution in `digest`, one for each. -/
def resolutionByte : PathResolution → UInt8
  | .existingDirectory => 1
  | .missingTarget => 2

/-- The byte of a candidate's kind in `digest`. -/
def candidateKindByte : MaterializerKind → UInt8
  | .apfsFileClone => 1
  | .fullCopy => 2
  | .btrfsReflink => 3

/-- One directory of an ancestry: its path and its identity. -/
def ancestryBytes (entry : DirectoryIdentityEvidence) : List UInt8 :=
  digestBytes entry.path.asBytes ++ leBytes 8 entry.identity.device.toNat ++
    leBytes 8 entry.identity.inode.toNat

/-- The volume of a report, or the reason for which it is not known. -/
def volumeBytes : Evidence VolumeId → List UInt8
  | .known volume => 1 :: digestBytes (asBytes volume.toText)
  | .unknown reason errno => 2 :: (digestBytes (asBytes reason) ++ digestOptionalI32 errno)

/-- The filesystem of a report: its type, its two numbers and its volume. -/
def filesystemBytes (filesystem : FileSystemIdentity) : List UInt8 :=
  digestBytes (asBytes filesystem.typeName) ++ i32Bytes filesystem.fsid.1 ++
    i32Bytes filesystem.fsid.2 ++ volumeBytes filesystem.volumeId

/-- The mount of a report: its flags, whether it is writable, and its number if there is one. -/
def mountBytes (mount : MountEvidence) : List UInt8 :=
  leBytes 4 mount.rawFlags.toNat ++ [if mount.writable then 1 else 0] ++
    optionBytes (fun id : UInt64 => leBytes 8 id.toNat) mount.mountId

/-- One round of the loop of `digest` over the four roles. -/
def reportBytes (role : String) (report : PathCapabilityReport) : List UInt8 :=
  digestBytes (asBytes role) ++ digestBytes report.requestedPath.asBytes ++
    [resolutionByte report.resolution] ++ digestBytes report.nearestExistingAncestor.asBytes ++
    counted digestCount digestBytes report.missingComponents ++
    counted digestCount ancestryBytes report.ancestry ++
    filesystemBytes report.filesystem ++ mountBytes report.mount ++
    [stateByte report.readability] ++ [stateByte report.writability] ++
    [stateByte report.cowClone]

/-- One round of the loop of `digest` over the two candidates. -/
def candidateBytes (candidate : CandidateEvidence) : List UInt8 :=
  [candidateKindByte candidate.kind] ++ [stateByte candidate.state] ++
    counted digestCount (fun reason => digestBytes (asBytes reason)) candidate.reasons

/-- The arguments of `digest`: the four reports and the two candidates of a probe. -/
structure Outcome where
  source : PathCapabilityReport
  target : PathCapabilityReport
  staging : PathCapabilityReport
  trash : PathCapabilityReport
  cow : CandidateEvidence
  copy : CandidateEvidence
deriving DecidableEq

/-- The bytes that `digest` hashes: a tag for the format, the four reports under their labels, and
the candidates. -/
def Outcome.transcript (outcome : Outcome) : List UInt8 :=
  asBytes "thinws-linux-btrfs-probe-v1" ++ [0] ++ reportBytes "source" outcome.source ++
    reportBytes "target" outcome.target ++ reportBytes "staging" outcome.staging ++
    reportBytes "trash" outcome.trash ++ candidateBytes outcome.cow ++ candidateBytes outcome.copy

/-- `digest`, with the hash function as a parameter. -/
def Outcome.digest (blake3 : List UInt8 → ProbeEvidenceDigest) (outcome : Outcome) :
    ProbeEvidenceDigest := blake3 outcome.transcript

/-- The report that `inspect_materialization_paths` makes of a probe, with the digest as its
evidence. -/
def Outcome.report (blake3 : List UInt8 → ProbeEvidenceDigest) (outcome : Outcome) :
    MaterializationPathReport where
  source := outcome.source
  targetRoot := outcome.target
  staging := outcome.staging
  trash := outcome.trash
  cowClone := outcome.cow
  fullCopy := outcome.copy
  evidenceDigest := outcome.digest blake3

/-! ### Lengths

A length is written as eight bytes, so it has to be one of a `usize`.  The three structures
say so of the parts of a probe. -/

/-- The texts and lists of a report have lengths of a `usize`. -/
structure ReportFits (report : PathCapabilityReport) : Prop where
  requestedPath : InMemory report.requestedPath.asBytes.length
  nearestExistingAncestor : InMemory report.nearestExistingAncestor.asBytes.length
  missing : InMemory report.missingComponents.length ∧
    ∀ component ∈ report.missingComponents, InMemory component.length
  ancestry : InMemory report.ancestry.length ∧
    ∀ entry ∈ report.ancestry, InMemory entry.path.asBytes.length
  typeName : InMemory (asBytes report.filesystem.typeName).length
  volume : ∀ reason errno, report.filesystem.volumeId = .unknown reason errno →
    InMemory (asBytes reason).length

/-- The reasons of a candidate have lengths of a `usize`. -/
structure CandidateFits (candidate : CandidateEvidence) : Prop where
  count : InMemory candidate.reasons.length
  reasons : ∀ reason ∈ candidate.reasons, InMemory (asBytes reason).length

/-- The lengths of a probe are those of a `usize`. -/
structure Outcome.Fits (outcome : Outcome) : Prop where
  source : ReportFits outcome.source
  target : ReportFits outcome.target
  staging : ReportFits outcome.staging
  trash : ReportFits outcome.trash
  cow : CandidateFits outcome.cow
  copy : CandidateFits outcome.copy

/-! ### Reading a transcript back

Each part of the transcript can be read off its front, and so can the whole. -/

/-- An `i32` can be read off the front of a transcript. -/
theorem delimited_i32 : Delimited (fun _ => True) i32Bytes := by
  refine delimited_u32.comap (fun _ _ => trivial) fun a b _ _ h => ?_
  cases a
  cases b
  exact congrArg Int32.ofUInt32 h

/-- A path can be read off the front, since its length stands before it. -/
theorem delimited_path : Delimited (fun path : AbsolutePath => InMemory path.asBytes.length)
    (fun path => digestBytes path.asBytes) :=
  delimited_lengthAndBytes.comap (fun _ h => h) fun _ _ _ _ h => AbsolutePath.asBytes_injective h

/-- A text can be read off the front, for the same reason. -/
theorem delimited_text : Delimited (fun text : String => InMemory (asBytes text).length)
    (fun text => digestBytes (asBytes text)) :=
  delimited_lengthAndBytes.comap (fun _ h => h) fun _ _ _ _ h => asBytes_text_injective h

/-- Different states of support have different bytes, so the byte tells the state. -/
theorem stateByte_inj {a b : SupportState} (h : stateByte a = stateByte b) : a = b := by
  cases a <;> cases b <;> first | rfl | (revert h; decide)

/-- A state of support can be read off the front. -/
theorem delimited_state : Delimited (fun _ => True) (fun state => [stateByte state]) :=
  delimited_symbol fun _ _ => stateByte_inj

/-- Different resolutions have different bytes, so the byte tells the resolution. -/
theorem resolutionByte_inj {a b : PathResolution} (h : resolutionByte a = resolutionByte b) :
    a = b := by
  cases a <;> cases b <;> first | rfl | (revert h; decide)

/-- Different materializers have different bytes, so the byte tells the materializer. -/
theorem candidateKindByte_inj {a b : MaterializerKind}
    (h : candidateKindByte a = candidateKindByte b) : a = b := by
  cases a <;> cases b <;> first | rfl | (revert h; decide)

/-- The byte for a writable mount is not the one for a mount that is not. -/
theorem writableByte_inj (a b : Bool) (h : (if a then 1 else 0 : UInt8) = if b then 1 else 0) :
    a = b := by
  revert a b
  decide

/-- A directory of an ancestry can be read off the front. -/
theorem delimited_ancestry :
    Delimited (fun entry : DirectoryIdentityEvidence => InMemory entry.path.asBytes.length)
      ancestryBytes := by
  intro a b s t ha hb h
  simp only [ancestryBytes, List.append_assoc] at h
  obtain ⟨hpath, h⟩ := delimited_path ha hb h
  obtain ⟨hdevice, h⟩ := delimited_u64 trivial trivial h
  obtain ⟨hinode, hrest⟩ := delimited_u64 trivial trivial h
  obtain ⟨_, _, _⟩ := a
  obtain ⟨_, _, _⟩ := b
  simp only at hpath hdevice hinode
  exact ⟨by rw [hpath, hdevice, hinode], hrest⟩

/-- The text of a known volume is that of a UUID, and short. -/
theorem inMemory_volume (volume : VolumeId) : InMemory (asBytes volume.toText).length := by
  have hchars : ∀ chars : List Char,
      (chars.flatMap String.utf8EncodeChar).length ≤ 4 * chars.length := by
    intro chars
    induction chars with
    | nil => simp
    | cons c chars ih =>
      have hsize := c.utf8Size_le_four
      simp only [List.flatMap_cons, List.length_append, String.length_utf8EncodeChar,
        List.length_cons]
      omega
  have htext := hchars volume.asUuid.hyphenatedChars
  rw [Uuid.length_hyphenatedChars] at htext
  rw [InMemory, VolumeId.toText, Uuid.hyphenated, asBytes_ofList]
  omega

/-- A volume, or the reason for which it is unknown, can be read off the front. -/
theorem delimited_volume :
    Delimited (fun volume : Evidence VolumeId => ∀ reason errno,
      volume = .unknown reason errno → InMemory (asBytes reason).length) volumeBytes := by
  rintro (volume | ⟨reason, errno⟩) (volume' | ⟨reason', errno'⟩) s t ha hb h
  · obtain ⟨htext, hrest⟩ := delimited_text (inMemory_volume volume) (inMemory_volume volume')
      (List.cons.inj h).2
    exact ⟨by rw [VolumeId.toText_injective htext], hrest⟩
  · exact absurd (List.cons.inj h).1 (by decide)
  · exact absurd (List.cons.inj h).1 (by decide)
  · have htail := (List.cons.inj h).2
    simp only [List.append_eq, List.append_assoc] at htail
    obtain ⟨hreason, htail⟩ := delimited_text (ha _ _ rfl) (hb _ _ rfl) htail
    obtain ⟨herrno, hrest⟩ := delimited_optionBytes delimited_i32 (fun _ _ => trivial)
      (fun _ _ => trivial) htail
    exact ⟨by rw [hreason, herrno], hrest⟩

/-- A report is its data fields: the proofs it carries add nothing. -/
theorem report_ext {a b : PathCapabilityReport} (hrequested : a.requestedPath = b.requestedPath)
    (hresolution : a.resolution = b.resolution)
    (hnearest : a.nearestExistingAncestor = b.nearestExistingAncestor)
    (hmissing : a.missingComponents = b.missingComponents) (hancestry : a.ancestry = b.ancestry)
    (hfilesystem : a.filesystem = b.filesystem) (hmount : a.mount = b.mount)
    (hreadability : a.readability = b.readability) (hwritability : a.writability = b.writability)
    (hcow : a.cowClone = b.cowClone) : a = b := by
  cases a
  cases b
  rw [PathCapabilityReport.mk.injEq]
  exact ⟨hrequested, hresolution, hnearest, hmissing, hancestry, hfilesystem, hmount, hreadability,
    hwritability, hcow⟩

/-- A filesystem can be read off the front, if its texts fit into memory: each part of it can. -/
theorem delimited_filesystem :
    Delimited (fun filesystem => InMemory (asBytes filesystem.typeName).length ∧
      ∀ reason errno, filesystem.volumeId = .unknown reason errno →
        InMemory (asBytes reason).length) filesystemBytes := by
  intro a b s t ha hb h
  simp only [filesystemBytes, List.append_assoc] at h
  obtain ⟨htype, h⟩ := delimited_text ha.1 hb.1 h
  obtain ⟨hfsid₁, h⟩ := delimited_i32 trivial trivial h
  obtain ⟨hfsid₂, h⟩ := delimited_i32 trivial trivial h
  obtain ⟨hvolume, hrest⟩ := delimited_volume ha.2 hb.2 h
  have hfsid := Prod.ext hfsid₁ hfsid₂
  refine ⟨?_, hrest⟩
  cases a
  cases b
  simp only at htype hfsid hvolume
  rw [htype, hfsid, hvolume]

/-- A mount can be read off the front, since each part of it can. -/
theorem delimited_mount : Delimited (fun _ => True) mountBytes := by
  intro a b s t _ _ h
  simp only [mountBytes, List.append_assoc] at h
  obtain ⟨hflags, h⟩ := delimited_u32 trivial trivial h
  obtain ⟨hwritable, h⟩ := delimited_symbol writableByte_inj trivial trivial h
  obtain ⟨hmount, hrest⟩ := delimited_optionBytes delimited_u64 (fun _ _ => trivial)
    (fun _ _ => trivial) h
  refine ⟨?_, hrest⟩
  cases a
  cases b
  simp only at hflags hwritable hmount
  rw [hflags, hwritable, hmount]

/-- A report can be read off the front of any transcript. -/
theorem delimited_reportBytes (role : String) : Delimited ReportFits (reportBytes role) := by
  intro a b s t ha hb h
  simp only [reportBytes, List.append_assoc, List.append_cancel_left_eq] at h
  obtain ⟨hrequested, h⟩ := delimited_path ha.requestedPath hb.requestedPath h
  obtain ⟨hresolution, h⟩ := delimited_symbol (fun _ _ => resolutionByte_inj) trivial trivial h
  obtain ⟨hnearest, h⟩ := delimited_path ha.nearestExistingAncestor hb.nearestExistingAncestor h
  obtain ⟨hmissing, h⟩ := (delimited_count.counted delimited_lengthAndBytes) ha.missing hb.missing h
  obtain ⟨hancestry, h⟩ := (delimited_count.counted delimited_ancestry) ha.ancestry hb.ancestry h
  obtain ⟨hfilesystem, h⟩ := delimited_filesystem ⟨ha.typeName, ha.volume⟩
    ⟨hb.typeName, hb.volume⟩ h
  obtain ⟨hmount, h⟩ := delimited_mount trivial trivial h
  obtain ⟨hreadability, h⟩ := delimited_state trivial trivial h
  obtain ⟨hwritability, h⟩ := delimited_state trivial trivial h
  obtain ⟨hcow, hrest⟩ := delimited_state trivial trivial h
  exact ⟨report_ext hrequested hresolution hnearest hmissing hancestry hfilesystem hmount
    hreadability hwritability hcow, hrest⟩

/-- A candidate can be read off the front of any transcript. -/
theorem delimited_candidateBytes : Delimited CandidateFits candidateBytes := by
  intro a b s t ha hb h
  simp only [candidateBytes, List.append_assoc] at h
  obtain ⟨hkind, h⟩ := delimited_symbol (fun _ _ => candidateKindByte_inj) trivial trivial h
  obtain ⟨hstate, h⟩ := delimited_state trivial trivial h
  obtain ⟨hreasons, hrest⟩ := (delimited_count.counted delimited_text) ⟨ha.count, ha.reasons⟩
    ⟨hb.count, hb.reasons⟩ h
  obtain ⟨_, _, _⟩ := a
  obtain ⟨_, _, _⟩ := b
  simp only at hkind hstate hreasons
  exact ⟨by rw [hkind, hstate, hreasons], hrest⟩

/-! ### The digest

Equal transcripts come from equal probes.  The sample moves the trash under another mount,
and the transcript changes. -/

/-- A transcript comes from one probe: each of its parts can be read off in turn. -/
theorem Outcome.transcript_inj {outcome other : Outcome} (hfits : outcome.Fits)
    (hfits' : other.Fits) (h : outcome.transcript = other.transcript) : outcome = other := by
  simp only [Outcome.transcript, List.append_assoc, List.append_cancel_left_eq] at h
  obtain ⟨hsource, h⟩ := delimited_reportBytes "source" hfits.source hfits'.source h
  obtain ⟨htarget, h⟩ := delimited_reportBytes "target" hfits.target hfits'.target h
  obtain ⟨hstaging, h⟩ := delimited_reportBytes "staging" hfits.staging hfits'.staging h
  obtain ⟨htrash, h⟩ := delimited_reportBytes "trash" hfits.trash hfits'.trash h
  obtain ⟨hcow, h⟩ := delimited_candidateBytes hfits.cow hfits'.cow h
  have hcopy := delimited_candidateBytes.inj hfits.copy hfits'.copy h
  cases outcome
  cases other
  simp only at hsource htarget hstaging htrash hcow hcopy
  rw [hsource, htarget, hstaging, htrash, hcow, hcopy]

/-- **A probe digest describes one probe.**  Equal transcripts come from equal reports and
candidates, and two reports of the probe that share a digest are the same report unless the
hash collides on their transcripts. -/
theorem evidence_digest_injective {outcome other : Outcome} (hfits : outcome.Fits)
    (hfits' : other.Fits) :
    (outcome.transcript = other.transcript ↔ outcome = other) ∧
      ∀ blake3 : List UInt8 → ProbeEvidenceDigest,
        (outcome.report blake3).evidenceDigest = (other.report blake3).evidenceDigest →
          (blake3 outcome.transcript = blake3 other.transcript →
            outcome.transcript = other.transcript) →
          outcome.report blake3 = other.report blake3 := by
  constructor
  · constructor
    · exact Outcome.transcript_inj hfits hfits'
    · exact congrArg Outcome.transcript
  · intro blake3 hdigest hcollision
    rw [Outcome.transcript_inj hfits hfits' (hcollision hdigest)]

/-- The root directory has an absolute path, of which the sample reports are. -/
theorem validatePath_probed : validatePath [slash] = .ok () := by decide

/-- The ancestry of the sample report is not empty. -/
theorem probed_ancestry :
    [DirectoryIdentityEvidence.mk ⟨[slash], validatePath_probed⟩ ⟨1, 256⟩] ≠ [] :=
  List.cons_ne_nil _ _

/-- A report without missing components is one of an existing directory. -/
theorem probed_existing :
    PathResolution.existingDirectory = .existingDirectory ↔ ([] : List (List UInt8)) = [] :=
  iff_of_true rfl rfl

/-- The ancestry of the sample report ends with its own path. -/
theorem probed_last :
    [DirectoryIdentityEvidence.mk ⟨[slash], validatePath_probed⟩ ⟨1, 256⟩].getLast?.map (·.path) =
      some ⟨[slash], validatePath_probed⟩ := rfl

/-- The root directory, under the given mount, as a probe reports it. -/
def probedRoot (mountId : UInt64) : PathCapabilityReport where
  requestedPath := ⟨[slash], validatePath_probed⟩
  resolution := .existingDirectory
  nearestExistingAncestor := ⟨[slash], validatePath_probed⟩
  missingComponents := []
  ancestry := [⟨⟨[slash], validatePath_probed⟩, ⟨1, 256⟩⟩]
  filesystem := ⟨"btrfs", (0, 0), .unknown "fsid" (some 95)⟩
  mount := ⟨0, true, some mountId⟩
  readability := .supported
  writability := .supported
  cowClone := .unknown
  ancestry_ne_nil := probed_ancestry
  existing_iff := probed_existing
  last_ancestry := probed_last

/-- A probe whose trash lies under the given mount. -/
def probed (mountId : UInt64) : Outcome where
  source := probedRoot 1
  target := probedRoot 1
  staging := probedRoot 1
  trash := probedRoot mountId
  cow := ⟨.btrfsReflink, .unknown, ["clone_capability_unknown"]⟩
  copy := ⟨.fullCopy, .supported, []⟩

/-- The sample report is within the widths of the source. -/
theorem reportFits_probedRoot (mountId : UInt64) : ReportFits (probedRoot mountId) where
  requestedPath := by simp [probedRoot, InMemory]
  nearestExistingAncestor := by simp [probedRoot, InMemory]
  missing := by simp [probedRoot, InMemory]
  ancestry := by simp [probedRoot, InMemory]
  typeName := by
    change InMemory (asBytes "btrfs").length
    decide
  volume := by
    rintro reason errno h
    cases h
    decide

/-- The sample probe is within the widths of the source. -/
theorem fits_probed (mountId : UInt64) : (probed mountId).Fits where
  source := reportFits_probedRoot 1
  target := reportFits_probedRoot 1
  staging := reportFits_probedRoot 1
  trash := reportFits_probedRoot mountId
  cow := by
    refine ⟨by simp [probed, InMemory], ?_⟩
    simp only [probed, List.forall_mem_singleton]
    decide
  copy := ⟨by simp [probed, InMemory], by simp [probed]⟩

/-- A trash under another mount changes the transcript, since the mount is part of what is hashed.
-/
theorem evidence_digest_injective_remounted : (probed 1).transcript ≠ (probed 2).transcript :=
  fun h => absurd ((evidence_digest_injective (fits_probed 1) (fits_probed 2)).1.mp h) (by decide)

end Probe
end Linux
end ThinWorkspace
