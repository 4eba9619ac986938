/-
# What the walk creates

Source: `materialize_directory` and `stage_and_publish` in
`crates/thinws-adapter-linux/src/materializer.rs`.

The walk lists every entry it publishes in `context.created`.  `Made` is what a run did to
make one: it created an object in staging, saw its kind and its identity there and renamed
it.  `materializeDirectory_adds` says that a walk that returned adds entries it made, each
under a path of its own.  The kernel lists no name of a directory twice (`ListsOnce`).
-/

import ThinWorkspace.Btrfs.Quarantine
import ThinWorkspace.Core.Forest

namespace ThinWorkspace
namespace Btrfs

open ThinWorkspace.Core Lib
open Program

/-- Every enumeration of the run lists a name once. -/
def ListsOnce (t : List FsExchange) : Prop :=
  ∀ (directory : Fd) (listed : List DirEntry),
    (⟨.readDir directory, .ok listed⟩ : FsExchange) ∈ t → (listed.filterMap DirEntry.name?).Nodup

/-- A call that created an object of the kind in staging. -/
inductive Stages (staging : Fd) (stagedName : FileName) : MaterializedEntryKind → FsExchange → Prop
  | directory {mode : UInt32} : Stages staging stagedName .directory
      ⟨.mkdir staging stagedName mode, .ok ()⟩
  | file {mode : UInt32} : Stages staging stagedName .regularFile
      ⟨.create staging stagedName mode, .ok ()⟩
  | symlink {text : List UInt8} : Stages staging stagedName .symbolicLink
      ⟨.symlink text staging stagedName, .ok ()⟩

/-- The run made the entry: it created an object in staging, saw its kind and its identity
there, and renamed it to the name of the entry. -/
def Made (staging : Fd) (t : List FsExchange) (path : TreePath) (kind : MaterializedEntryKind)
    (identity : Option FileIdentity) : Prop :=
  ∃ stagedName created seen parent name, Stages staging stagedName kind created ∧
    seen.kind = entryNodeKind kind ∧ identity = some seen.identity ∧
    path.getLast? = some name ∧
    [created, ⟨.statat staging stagedName, .ok seen⟩,
      moved staging stagedName parent name].Sublist t

/-- The part adds entries it made, with paths that `P` allows, each once. -/
def Adds (staging : Fd) (P : TreePath → Prop) (context : ExecutionContext) (t : List FsExchange)
    (context' : ExecutionContext) : Prop :=
  ∃ added, context'.created = context.created ++ added ∧
    (∀ entry ∈ added, Made staging t entry.path entry.kind entry.identity ∧ P entry.path) ∧
    (added.map (·.path)).Nodup

variable {staging : Fd} {P Q : TreePath → Prop} {context context₁ context' : ExecutionContext}
  {t t' : List FsExchange} {path : TreePath} {kind : MaterializedEntryKind}
  {identity : Option FileIdentity}

/-- In a part of a run every listing is made once if it is in the run. -/
theorem ListsOnce.sublist (h : ListsOnce t') (hsub : t.Sublist t') : ListsOnce t :=
  fun directory listed hmem => h directory listed (hsub.subset hmem)

/-- An entry that was made in a part was made in the run. -/
theorem Made.mono (h : Made staging t path kind identity) (hsub : t.Sublist t') :
    Made staging t' path kind identity := by
  obtain ⟨stagedName, created, seen, parent, name, hstages, hkind, hidentity, hname, hcalls⟩ := h
  exact ⟨stagedName, created, seen, parent, name, hstages, hkind, hidentity, hname,
    hcalls.trans hsub⟩

/-- What a part adds it adds to the run, and its paths may be described less precisely. -/
theorem Adds.mono (h : Adds staging P context t context') (hsub : t.Sublist t')
    (hpaths : ∀ path, P path → Q path) : Adds staging Q context t' context' := by
  obtain ⟨added, hcreated, hmade, hnodup⟩ := h
  exact ⟨added, hcreated,
    fun entry hmem => ⟨(hmade entry hmem).1.mono hsub, hpaths _ (hmade entry hmem).2⟩, hnodup⟩

/-- Exchanges before a part do not change what it adds. -/
theorem Adds.prepend (h : Adds staging P context t context') (before : List FsExchange) :
    Adds staging P context (before ++ t) context' :=
  h.mono (List.sublist_append_right before t) fun _ => id

/-- Exchanges after a part do not change what it added. -/
theorem Adds.append (h : Adds staging P context t context') (after : List FsExchange) :
    Adds staging P context (t ++ after) context' :=
  h.mono (List.sublist_append_left t after) fun _ => id

/-- A part that leaves the context has added nothing. -/
theorem Adds.refl (context : ExecutionContext) : Adds staging P context t context :=
  ⟨[], (List.append_nil _).symm, by simp, List.nodup_nil⟩

/-- Two parts that add entries under different paths add both.  The new entries are those of both
parts in their order, and no path is listed twice because the parts have no path in common. -/
theorem Adds.trans (h : Adds staging P context t context₁)
    (h' : Adds staging Q context₁ t' context') (hdisjoint : ∀ path, P path → ¬Q path) :
    Adds staging (fun path => P path ∨ Q path) context (t ++ t') context' := by
  obtain ⟨added, hcreated, hmade, hnodup⟩ := h
  obtain ⟨added', hcreated', hmade', hnodup'⟩ := h'
  refine ⟨added ++ added', by rw [hcreated', hcreated, List.append_assoc], fun entry hmem => ?_, ?_⟩
  · rcases List.mem_append.mp hmem with hmem | hmem
    · obtain ⟨hentry, hpath⟩ := hmade entry hmem
      exact ⟨hentry.mono (List.sublist_append_left t t'), .inl hpath⟩
    · obtain ⟨hentry, hpath⟩ := hmade' entry hmem
      exact ⟨hentry.mono (List.sublist_append_right t t'), .inr hpath⟩
  · rw [List.map_append]
    refine hnodup.append hnodup' fun path hmem hmem' => ?_
    obtain ⟨entry, hentry, rfl⟩ := List.mem_map.mp hmem
    obtain ⟨entry', hentry', hpath⟩ := List.mem_map.mp hmem'
    have hQ := (hmade' entry' hentry').2
    rw [hpath] at hQ
    exact hdisjoint _ (hmade entry hentry).2 hQ

/-! ### One entry

A publication that returned has created its object in staging under a name that nobody had,
and moved it into the target by its one rename. -/

/-- A part that returns does so in whatever context a failure would have carried. -/
theorem traces_within {α : Type} {x : Fs α} {a : α} :
    Traces (within context x) t (.ok a) ↔ Traces x t (.ok a) := traces_mapError_ok

/-- A call that creates a staged object, where it returns. -/
def CreatesStaged (staging : Fd) (kind : MaterializedEntryKind)
    (create : FileName → Fs (Except Linux.Errno Unit)) : Prop :=
  ∀ ⦃stagedName t⦄, Traces (create stagedName) t (.ok (.ok ())) →
    ∃ created, t = [created] ∧ Stages staging stagedName kind created

/-- A staged name that is returned is one under which the object was created in the run.  The
induction is on the attempts: a name that exists leads to the next one, any other failure ends the
search, and a success is the creation itself. -/
theorem createStaged_stages {create : FileName → Fs (Except Linux.Errno Unit)}
    (hcreate : CreatesStaged staging kind create) {attempts : ℕ} {stagedName : FileName}
    (h : Traces (createStaged create attempts) t (.ok stagedName)) :
    ∃ created ∈ t, Stages staging stagedName kind created := by
  induction attempts generalizing t with
  | zero => cases h.2
  | succ attempts ih =>
    obtain ⟨sequence, _, _, rfl, -, h₁⟩ := traces_bind_ok.mp h
    obtain ⟨processId, _, _, rfl, -, h₂⟩ := traces_bind_ok.mp h₁
    obtain ⟨result, t₁, t₂, rfl, hrun, h₃⟩ := traces_bind_ok.mp h₂
    cases result with
    | ok _ =>
      obtain ⟨rfl, he⟩ := traces_pure.mp h₃
      cases he
      obtain ⟨created, rfl, hstages⟩ := hcreate hrun
      exact ⟨created, by simp, hstages⟩
    | error error =>
      cases error with
      | exist =>
        obtain ⟨created, hmem, hstages⟩ := ih h₃
        exact ⟨created, by simp [hmem], hstages⟩
      | noent => cases h₃.2
      | other code => cases h₃.2

/-- A publication that returned moved the staged object, in its only call. -/
theorem publishStaged_moved {target : Fd} {stagedName name : FileName}
    (h : Traces (publishStaged staging stagedName target name) t (.ok ())) :
    t = [moved staging stagedName target name] := by
  obtain ⟨result, rest, rfl, hnext⟩ := traces_perform_bind.mp h
  cases result with
  | ok _ =>
    obtain ⟨rfl, -⟩ := traces_pure.mp hnext
    rfl
  | error error => cases error <;> cases hnext.2

/-- **A publication that returned** made the entry it lists.  The object is staged, prepared and
moved to its place without replacing anything; the three calls that matter are the creation, the
look at the staged object and the rename. -/
theorem stageAndPublish_made {target : Fd} {base : TreePath} {name : FileName}
    {create : FileName → Fs (Except Linux.Errno Unit)} {prepare : FileName → Fs UInt64}
    {result : FileIdentity × ExecutionContext} (hcreate : CreatesStaged staging kind create)
    (h : Traces (stageAndPublish staging target base name kind create prepare context) t
      (.ok result)) :
    Adds staging (fun path => path = base ++ [name]) context t result.2 := by
  unfold stageAndPublish at h
  obtain ⟨stagedName, t₁, _, rfl, hstaged, h₁⟩ := traces_bind_ok.mp h
  obtain ⟨seen, t₂, _, rfl, hseen, h₂⟩ := traces_bind_ok.mp h₁
  obtain ⟨_, t₃, _, rfl, hrequire, h₃⟩ := traces_bind_ok.mp h₂
  obtain ⟨clones, t₄, _, rfl, -, h₄⟩ := traces_bind_ok.mp h₃
  obtain ⟨prepared, t₅, _, rfl, -, h₅⟩ := traces_bind_ok.mp h₄
  obtain ⟨_, t₆, _, rfl, -, h₆⟩ := traces_bind_ok.mp h₅
  obtain ⟨_, t₇, _, rfl, hpublish, h₇⟩ := traces_bind_ok.mp h₆
  obtain ⟨published, t₈, _, rfl, -, h₈⟩ := traces_bind_ok.mp h₇
  obtain ⟨_, t₉, _, rfl, -, h₉⟩ := traces_bind_ok.mp h₈
  obtain ⟨rfl, he⟩ := traces_pure.mp h₉
  cases he
  obtain ⟨created, hmem, hstages⟩ := createStaged_stages hcreate (traces_within.mp hstaged)
  obtain rfl := traces_nodeAt.mp (traces_within.mp hseen)
  obtain ⟨hkind, rfl⟩ := traces_require.mp (traces_within.mp hrequire)
  obtain rfl := publishStaged_moved (traces_within.mp hpublish)
  refine ⟨_, rfl, ?_, List.nodup_singleton _⟩
  intro entry hentry
  obtain rfl := List.mem_singleton.mp hentry
  refine ⟨⟨stagedName, created, seen, target, name, hstages, hkind, rfl, by simp, ?_⟩, rfl⟩
  have hrenamed : [moved staging stagedName target name].Sublist
      (t₄ ++ (t₅ ++ (t₆ ++ ([moved staging stagedName target name] ++ (t₈ ++ (t₉ ++ [])))))) :=
    List.singleton_sublist.mpr (by simp)
  exact (List.singleton_sublist.mpr hmem).append (hrenamed.cons_cons _)

/-! ### The walk

The walk adds what lies at or below the paths it goes over.  Since a listing has no name
twice, the paths of different rounds are apart, and each entry is added once. -/

/-- What the walk of a directory adds lies below it. -/
def Descends (staging : Fd)
    (descend : Fd → Fd → TreePath → ExecutionContext → Attempt ExecutionContext) : Prop :=
  ∀ ⦃source target base context t context'⦄, ListsOnce t →
    Traces (descend source target base context) t (.ok context') →
    Adds staging (fun path => ∃ name, (base ++ [name]) <+: path) context t context'

section Entry

variable {backend : Backend} {expected : TreeSnapshot} {source target : Fd} {base : TreePath}
  {name : FileName} {before : Node}
  {descend : Fd → Fd → TreePath → ExecutionContext → Attempt ExecutionContext}

/-- No path is that of an entry and lies below the entry. -/
theorem not_below {path : TreePath} (hpath : path = base ++ [name]) :
    ¬∃ other, (base ++ [name] ++ [other]) <+: path := by
  rintro ⟨other, hbelow⟩
  have hlength := hbelow.length_le
  rw [hpath, List.length_append, List.length_singleton] at hlength
  omega

/-- Making a directory adds it and what is in it, all at or below its path.  The directory itself
is published before the walk goes into it, so its own entry and those below it are disjoint: theirs
have longer paths. -/
theorem materializeChild_adds (hdescend : Descends staging descend) (honce : ListsOnce t)
    (h : Traces (materializeChild staging descend source target base name before context) t
      (.ok context')) :
    Adds staging (fun path => (base ++ [name]) <+: path) context t context' := by
  unfold materializeChild at h
  obtain ⟨sourceChild, t₁, _, rfl, -, h₁⟩ := traces_bind_ok.mp h
  obtain ⟨opened, t₂, _, rfl, -, h₂⟩ := traces_bind_ok.mp h₁
  obtain ⟨_, t₃, _, rfl, -, h₃⟩ := traces_bind_ok.mp h₂
  obtain ⟨⟨identity, context₁⟩, t₄, _, rfl, hpublished, h₄⟩ := traces_bind_ok.mp h₃
  obtain ⟨targetChild, t₅, _, rfl, -, h₅⟩ := traces_bind_ok.mp h₄
  obtain ⟨published, t₆, _, rfl, -, h₆⟩ := traces_bind_ok.mp h₅
  obtain ⟨_, t₇, _, rfl, -, h₇⟩ := traces_bind_ok.mp h₆
  obtain ⟨context₂, t₈, _, rfl, hinner, h₈⟩ := traces_bind_ok.mp h₇
  obtain ⟨_, t₉, _, rfl, -, h₉⟩ := traces_bind_ok.mp h₈
  obtain ⟨after, t₁₀, _, rfl, -, h₁₀⟩ := traces_bind_ok.mp h₉
  obtain ⟨_, t₁₁, _, rfl, -, h₁₁⟩ := traces_bind_ok.mp h₁₀
  obtain ⟨rfl, he⟩ := traces_pure.mp h₁₁
  cases he
  have hcreate : CreatesStaged staging .directory
      (fun stagedName => call (.mkdir staging stagedName 0o700)) :=
    fun _ _ hcall => ⟨_, traces_call.mp hcall, .directory⟩
  have hself := stageAndPublish_made hcreate hpublished
  have hsub : t₈.Sublist (t₁ ++ (t₂ ++ (t₃ ++ (t₄ ++ (t₅ ++ (t₆ ++ (t₇ ++ (t₈ ++ (t₉ ++
      (t₁₀ ++ (t₁₁ ++ []))))))))))) := by
    refine List.IsInfix.sublist ⟨t₁ ++ t₂ ++ t₃ ++ t₄ ++ t₅ ++ t₆ ++ t₇, t₉ ++ (t₁₀ ++ t₁₁), ?_⟩
    simp
  have hbelow := hdescend (honce.sublist hsub) hinner
  have hrest := (((hbelow.append (t₉ ++ (t₁₀ ++ (t₁₁ ++ [])))).prepend t₇).prepend t₆).prepend t₅
  have hentry := hself.trans hrest fun path hpath => not_below hpath
  refine (((hentry.prepend t₃).prepend t₂).prepend t₁).mono (List.Sublist.refl _) ?_
  rintro path (rfl | ⟨other, hpath⟩)
  · exact List.prefix_rfl
  · exact (List.prefix_append _ _).trans hpath

/-- Making a file adds an entry at its path.  Only the publication adds an entry; the calls before
and after it open, clone and check. -/
theorem materializeFile_adds
    (h : Traces (materializeFile backend staging source target base name before context) t
      (.ok context')) :
    Adds staging (fun path => (base ++ [name]) <+: path) context t context' := by
  unfold materializeFile at h
  obtain ⟨sourceFile, t₁, _, rfl, -, h₁⟩ := traces_bind_ok.mp h
  obtain ⟨opened, t₂, _, rfl, -, h₂⟩ := traces_bind_ok.mp h₁
  obtain ⟨_, t₃, _, rfl, -, h₃⟩ := traces_bind_ok.mp h₂
  obtain ⟨⟨identity, context₁⟩, t₄, _, rfl, hpublished, h₄⟩ := traces_bind_ok.mp h₃
  obtain ⟨targetFile, t₅, _, rfl, -, h₅⟩ := traces_bind_ok.mp h₄
  obtain ⟨published, t₆, _, rfl, -, h₆⟩ := traces_bind_ok.mp h₅
  obtain ⟨_, t₇, _, rfl, -, h₇⟩ := traces_bind_ok.mp h₆
  obtain ⟨_, t₈, _, rfl, -, h₈⟩ := traces_bind_ok.mp h₇
  obtain ⟨after, t₉, _, rfl, -, h₉⟩ := traces_bind_ok.mp h₈
  obtain ⟨_, t₁₀, _, rfl, -, h₁₀⟩ := traces_bind_ok.mp h₉
  obtain ⟨rfl, he⟩ := traces_pure.mp h₁₀
  cases he
  have hcreate : CreatesStaged staging .regularFile
      (fun stagedName => call (.create staging stagedName 0o600)) :=
    fun _ _ hcall => ⟨_, traces_call.mp hcall, .file⟩
  have hself := stageAndPublish_made hcreate hpublished
  refine ((((hself.append _).prepend t₃).prepend t₂).prepend t₁).mono (List.Sublist.refl _) ?_
  rintro path rfl
  exact List.prefix_rfl

/-- Making a symbolic link adds an entry at its path.  Only the publication adds an entry; the
calls before it read the text of the link. -/
theorem materializeSymlink_adds {entry : SnapshotEntry}
    (h : Traces (materializeSymlink staging source target base name entry context) t
      (.ok context')) :
    Adds staging (fun path => (base ++ [name]) <+: path) context t context' := by
  unfold materializeSymlink at h
  obtain ⟨text, t₁, _, rfl, -, h₁⟩ := traces_bind_ok.mp h
  obtain ⟨_, t₂, _, rfl, -, h₂⟩ := traces_bind_ok.mp h₁
  obtain ⟨after, t₃, _, rfl, -, h₃⟩ := traces_bind_ok.mp h₂
  obtain ⟨_, t₄, _, rfl, -, h₄⟩ := traces_bind_ok.mp h₃
  obtain ⟨⟨identity, context₁⟩, t₅, _, rfl, hpublished, h₅⟩ := traces_bind_ok.mp h₄
  obtain ⟨rfl, he⟩ := traces_pure.mp h₅
  cases he
  have hcreate : CreatesStaged staging .symbolicLink
      (fun stagedName => call (.symlink text staging stagedName)) :=
    fun _ _ hcall => ⟨_, traces_call.mp hcall, .symlink⟩
  have hself := stageAndPublish_made hcreate hpublished
  refine (((((hself.append _).prepend t₄).prepend t₃).prepend t₂).prepend t₁).mono
    (List.Sublist.refl _) ?_
  rintro path rfl
  exact List.prefix_rfl

/-- Making an entry adds what is at or below its path.  There is one case for each kind of the
source entry, and an unsupported kind fails. -/
theorem materializeEntry_adds (hdescend : Descends staging descend) (honce : ListsOnce t)
    (h : Traces (materializeEntry backend expected staging descend source target base context name)
      t (.ok context')) :
    Adds staging (fun path => (base ++ [name]) <+: path) context t context' := by
  unfold materializeEntry at h
  obtain ⟨entry, t₁, _, rfl, -, h₁⟩ := traces_bind_ok.mp h
  obtain ⟨before, t₂, _, rfl, -, h₂⟩ := traces_bind_ok.mp h₁
  obtain ⟨_, t₃, t₄, rfl, -, h₃⟩ := traces_bind_ok.mp h₂
  have hround : Adds staging (fun path => (base ++ [name]) <+: path) context t₄ context' := by
    have hsub : t₄.Sublist (t₁ ++ (t₂ ++ (t₃ ++ t₄))) :=
      List.IsInfix.sublist ⟨t₁ ++ t₂ ++ t₃, [], by simp⟩
    cases hkind : before.kind with
    | directory =>
      simp only [hkind] at h₃
      exact materializeChild_adds hdescend (honce.sublist hsub) h₃
    | file =>
      simp only [hkind] at h₃
      exact materializeFile_adds h₃
    | symlink =>
      simp only [hkind] at h₃
      exact materializeSymlink_adds h₃
    | unsupported =>
      simp only [hkind] at h₃
      cases (traces_within.mp h₃).2
  exact ((hround.prepend t₃).prepend t₂).prepend t₁

/-- Two entries of a directory share no path. -/
theorem prefix_apart {other : FileName} {path : TreePath} (h : (base ++ [name]) <+: path)
    (h' : (base ++ [other]) <+: path) : name = other := by
  have hle : (base ++ [name]).length ≤ (base ++ [other]).length := by simp
  have hinitial := List.prefix_of_prefix_length_le h h' hle
  exact name_inj (hinitial.eq_of_length (by simp))

/-- Going over the names of a directory adds what is at or below their paths.  The induction is on
the names.  The paths of two rounds are disjoint because they begin with different names, which is
where the names have to be listed once. -/
theorem foldlM_adds (hdescend : Descends staging descend) {names : List FileName}
    (hnames : names.Nodup) (honce : ListsOnce t)
    (h : Traces (names.foldlM (materializeEntry backend expected staging descend source target
      base) context) t (.ok context')) :
    Adds staging (fun path => ∃ name ∈ names, (base ++ [name]) <+: path) context t context' := by
  induction names generalizing context t with
  | nil =>
    obtain ⟨rfl, he⟩ := traces_pure.mp h
    cases he
    exact .refl _
  | cons name names ih =>
    rw [List.foldlM_cons] at h
    obtain ⟨hnotMem, hnodup⟩ := List.nodup_cons.mp hnames
    obtain ⟨context₁, t₁, t₂, rfl, hentry, hrest⟩ := traces_bind_ok.mp h
    have hfirst := materializeEntry_adds hdescend
      (honce.sublist (List.sublist_append_left t₁ t₂)) hentry
    have hothers := ih hnodup (honce.sublist (List.sublist_append_right t₁ t₂)) hrest
    refine (hfirst.trans hothers ?_).mono (List.Sublist.refl _) ?_
    · rintro path hpath ⟨other, hmem, hother⟩
      rw [prefix_apart hpath hother] at hnotMem
      exact hnotMem hmem
    · rintro path (hpath | ⟨other, hmem, hother⟩)
      · exact ⟨name, List.mem_cons_self, hpath⟩
      · exact ⟨other, List.mem_cons_of_mem _ hmem, hother⟩

/-- **A walk that returned** adds entries it made, below its directory and each once.  The
induction is on the nesting that is left, and the names of one directory are those of one listing,
sorted. -/
theorem materializeDirectory_adds (frames : ℕ) :
    Descends staging (materializeDirectory backend expected staging frames) := by
  induction frames with
  | zero => exact fun _ _ _ _ _ _ _ h => nomatch h.choose
  | succ frames ih =>
    intro source target base context t context' honce h
    obtain ⟨names, t₁, t₂, rfl, hnames, hloop⟩ := traces_bind_ok.mp h
    obtain ⟨listed, rfl, rfl⟩ := traces_directoryNames.mp (traces_within.mp hnames)
    have hnodup : (sortedNames listed).Nodup :=
      (List.mergeSort_perm _ _).nodup_iff.mpr (honce source listed (by simp))
    have hadds := foldlM_adds ih hnodup (honce.sublist (List.sublist_append_right _ t₂)) hloop
    exact (hadds.prepend _).mono (List.Sublist.refl _)
      fun path ⟨name, _, hpath⟩ => ⟨name, hpath⟩

end Entry

end Btrfs
end ThinWorkspace
