/-
# The sibling paths of the Linux adapter

Source: `crates/thinws-adapter-linux/src/document.rs` (`parent_path_bytes`,
`sibling_path_bytes`, the path checks of `decode_workspace_ownership`) and
`workspace.rs` (the paths `prepare_workspace` creates and `registered_target`
isolates to, `contains_path`).  The first works on bytes, the second with `std::path`;
both give the paths that the application protects (`siblings_eq`).
-/

import Mathlib.Data.List.Nodup
import ThinWorkspace.Application.Siblings
import ThinWorkspace.Linux.Document

namespace ThinWorkspace
namespace Linux

open ThinWorkspace.Core Lib Ports
open Application (lastSlash siblingNames)

/-! ### `std::path`

The two operations of the standard library that the adapter derives paths with. -/

/-- `Path::parent` of a canonical absolute path: the path without its final
component, none for the root. -/
def pathParent (path : AbsolutePath) : Option (List UInt8) :=
  if path.asBytes = [slash] then none
  else some (AbsolutePath.text (path.asBytes.tail.splitOn slash).dropLast)

/-- `Path::join`: an absolute part replaces the path, any other is appended after a
separator, which is added where the path does not end in one. -/
def pathJoin (path part : List UInt8) : List UInt8 :=
  if part.head? = some slash then part
  else if path = [] ∨ path.getLast? = some slash then path ++ part
  else path ++ [slash] ++ part

/-! ### `workspace.rs`

The paths that the adapter creates directories at and registers. -/

/-- `absolute`: bytes that were derived from a path are validated like any path. -/
def absolute (path : List UInt8) : Except PortError AbsolutePath :=
  (AbsolutePath.tryFromBytes path).mapError fun _ =>
    .new .invalidData "derive Workspace path"

/-- The staging and the trash root of `prepare_workspace`. -/
def preparedSiblings (target : AbsolutePath) (id : WorkspaceId) :
    Except PortError (AbsolutePath × AbsolutePath) :=
  match pathParent target with
  | none => .error (.new .invalidData "target has no parent")
  | some parentPath => do
    let stagingRoot ← absolute (pathJoin parentPath (asBytes (".thinws-staging-" ++ id.toText)))
    let trashRoot ← absolute (pathJoin parentPath (asBytes (".thinws-trash-" ++ id.toText)))
    pure (stagingRoot, trashRoot)

/-- The isolated path of `registered_target`, as it is registered. -/
def registeredIsolated (target : AbsolutePath) (id : WorkspaceId) :
    Except PortError AbsolutePath :=
  match pathParent target with
  | none => .error (.new .invalidLayout "registered target has no parent")
  | some parentPath => absolute (pathJoin parentPath (asBytes (".thinws-remove-" ++ id.toText)))

/-- `contains_path`: the child is the parent, or begins with it and a separator. -/
def containsPath (parent child : List UInt8) : Bool :=
  parent == child ||
    (parent.isPrefixOf child && (parent == [slash] || child[parent.length]? == some slash))

/-! ### `document.rs`

The paths that the ownership document expects, derived from bytes. -/

/-- `parent_path_bytes`: the path up to its last separator; the root has no parent. -/
def parentPathBytes (path : AbsolutePath) : Option (List UInt8) :=
  if path.asBytes = [slash] then none
  else (lastSlash path.asBytes).map fun index =>
    if index = 0 then [slash] else path.asBytes.take index

/-- `sibling_path_bytes`: a name below the parent, behind a separator unless the parent is the
root. -/
def siblingPathBytes (parent : List UInt8) (leaf : String) : List UInt8 :=
  (if parent ≠ [slash] then parent ++ [slash] else parent) ++ asBytes leaf

/-- The checks of `decode_workspace_ownership` on the decoded paths. -/
def requireSiblings (id : WorkspaceId) (target staging trash : AbsolutePath)
    (isolated : Option AbsolutePath) : Except DocumentError Unit :=
  match parentPathBytes target with
  | none => .error .invalidIdentity
  | some parent =>
    if staging.asBytes ≠ siblingPathBytes parent (".thinws-staging-" ++ id.toText) ∨
        trash.asBytes ≠ siblingPathBytes parent (".thinws-trash-" ++ id.toText) then
      .error .invalidIdentity
    else if isolated.any fun path =>
        path.asBytes != siblingPathBytes parent (".thinws-remove-" ++ id.toText) then
      .error .invalidIdentity
    else .ok ()

/-! ### Agreement

The adapter derives its siblings in two ways, and the application in a third.  All of them
are the children of the target's parent with the same names. -/

variable {target p : AbsolutePath}

/-- The parent that the adapter takes is the path's. -/
theorem pathParent_eq (h : target.asBytes ≠ [slash]) :
    pathParent target = some target.parent.asBytes := by
  rw [pathParent, if_neg h, ← AbsolutePath.components_of_ne h,
    ← AbsolutePath.text_components target.parent, AbsolutePath.components_parent]

/-- So is the parent in an ownership document. -/
theorem parentPathBytes_eq (h : target.asBytes ≠ [slash]) :
    parentPathBytes target = some target.parent.asBytes := by
  obtain ⟨init, leaf, hleaf, hbytes, hparent⟩ := Application.asBytes_parent h
  have htake : target.asBytes.take init.length = init := by
    rw [hbytes]
    exact List.take_left
  rw [parentPathBytes, if_neg h, Application.lastSlash_asBytes hleaf hbytes, Option.map_some,
    htake, hparent]

/-- Joining a name appends it, after a `/` except below the root. -/
theorem pathJoin_eq {name : List UInt8} (h : AbsolutePath.Normal name) :
    pathJoin p.asBytes name = (p.child name h).asBytes := by
  have hhead : name.head? ≠ some slash := fun he => h.no_slash (List.mem_of_head? he)
  have hne : p.asBytes ≠ [] := by
    intro he
    have hp := p.head_asBytes
    rw [he] at hp
    cases hp
  rw [pathJoin, if_neg hhead, AbsolutePath.asBytes_child]
  by_cases hroot : p.asBytes = [slash]
  · rw [if_pos hroot, hroot]
    rfl
  · -- The last component is not empty, so the text does not end in a `/`.
    have hlast : p.asBytes.getLast? ≠ some slash := by
      obtain ⟨leaf, hleaf, hbytes⟩ := AbsolutePath.exists_leaf hroot
      obtain ⟨byte, hbyte⟩ : ∃ byte, leaf.getLast? = some byte :=
        ⟨_, List.getLast?_eq_some_getLast hleaf.ne_nil⟩
      rw [hbytes, List.append_cons, List.getLast?_append, hbyte, Option.some_or]
      intro he
      rw [Option.some.inj he] at hbyte
      exact hleaf.no_slash (List.mem_of_getLast? hbyte)
    rw [if_neg (not_or.mpr ⟨hne, hlast⟩), if_neg hroot]

/-- The sibling in an ownership document is the child of that name. -/
theorem siblingPathBytes_eq {leaf : String} (h : AbsolutePath.Normal (asBytes leaf)) :
    siblingPathBytes p.asBytes leaf = (p.child (asBytes leaf) h).asBytes := by
  rw [siblingPathBytes, AbsolutePath.asBytes_child, ite_not]

/-- The paths that the Linux adapter derives from a target and an identifier are
the given ones: those it creates, the one it isolates to, and the only ones that
it accepts in an ownership document. -/
structure DerivesSiblings (target : AbsolutePath) (id : WorkspaceId)
    (staging trash isolated : AbsolutePath) : Prop where
  prepared : preparedSiblings target id = .ok (staging, trash)
  registered : registeredIsolated target id = .ok isolated
  documented : ∀ staging' trash' isolated',
    requireSiblings id target staging' trash' isolated' = .ok () ↔
      staging' = staging ∧ trash' = trash ∧ ∀ path ∈ isolated', path = isolated

/-- A path is accepted as itself. -/
theorem absolute_asBytes (path : AbsolutePath) : absolute path.asBytes = .ok path := by
  rw [absolute, AbsolutePath.tryFromBytes_asBytes]
  rfl

/-- The names of the three siblings are components. -/
theorem normal_kinds (id : WorkspaceId) :
    AbsolutePath.Normal (asBytes (".thinws-staging-" ++ id.toText)) ∧
      AbsolutePath.Normal (asBytes (".thinws-trash-" ++ id.toText)) ∧
      AbsolutePath.Normal (asBytes (".thinws-remove-" ++ id.toText)) := by
  have hnormal : ∀ kind ∈ Application.siblingKinds,
      AbsolutePath.Normal (asBytes (kind ++ id.toText)) := fun kind hkind =>
    Application.normal_siblingName (Application.mem_siblingNames.mpr
      ⟨kind, hkind, asBytes_append _ _⟩)
  simp only [Application.siblingKinds, List.forall_mem_cons] at hnormal
  exact ⟨hnormal.1, hnormal.2.1, hnormal.2.2.1⟩

/-- The adapter derives the children of the parent of the target with these names: with
`std::path` where it creates and isolates, and on bytes where it reads an ownership document. -/
theorem derivesSiblings {id : WorkspaceId} (h : target.asBytes ≠ [slash])
    (hstaging : AbsolutePath.Normal (asBytes (".thinws-staging-" ++ id.toText)))
    (htrash : AbsolutePath.Normal (asBytes (".thinws-trash-" ++ id.toText)))
    (hisolated : AbsolutePath.Normal (asBytes (".thinws-remove-" ++ id.toText))) :
    DerivesSiblings target id (target.parent.child _ hstaging) (target.parent.child _ htrash)
      (target.parent.child _ hisolated) where
  prepared := by
    unfold preparedSiblings
    rw [pathParent_eq h]
    simp only [pathJoin_eq hstaging, pathJoin_eq htrash, absolute_asBytes]
    rfl
  registered := by
    unfold registeredIsolated
    rw [pathParent_eq h]
    simp only [pathJoin_eq hisolated, absolute_asBytes]
  documented staging' trash' isolated' := by
    unfold requireSiblings
    rw [parentPathBytes_eq h]
    simp only [siblingPathBytes_eq hstaging, siblingPathBytes_eq htrash,
      siblingPathBytes_eq hisolated, Ne, AbsolutePath.asBytes_inj]
    by_cases hfirst : staging' = target.parent.child _ hstaging ∧
        trash' = target.parent.child _ htrash
    · obtain ⟨rfl, rfl⟩ := hfirst
      rw [if_neg (by simp)]
      cases isolated' with
      | none => simp
      | some path => simp
    · rw [if_pos (not_and_or.mp hfirst)]
      constructor
      · rintro ⟨⟩
      · rintro ⟨hs, ht, -⟩
        exact absurd ⟨hs, ht⟩ hfirst

/-- **One set of siblings.**  The application's protected paths are the target and
the siblings of the Linux adapter. -/
theorem siblings_eq (id : WorkspaceId) (h : target.asBytes ≠ [slash]) : ∃ staging trash isolated,
    Application.protectedPaths target id = [target, staging, trash, isolated] ∧
      DerivesSiblings target id staging trash isolated := by
  obtain ⟨hstaging, htrash, hisolated⟩ := normal_kinds id
  exact ⟨_, _, _, rfl, derivesSiblings h hstaging htrash hisolated⟩

/-! ### The algebra of paths

Both comparisons of paths are the prefix order on components, and the siblings are distinct
from each other and from the target. -/

variable {q : AbsolutePath}

/-- Every path begins with the root. -/
theorem root_isPrefixOf (q : AbsolutePath) : ([slash] : List UInt8).isPrefixOf q.asBytes := by
  obtain ⟨tail, htail⟩ := List.head?_eq_some_iff.mp q.head_asBytes
  rw [List.isPrefixOf_iff_prefix, htail]
  exact ⟨tail, rfl⟩

/-- The adapter's comparison is that of the application. -/
theorem containsPath_eq :
    containsPath p.asBytes q.asBytes = Application.pathContains p.asBytes q.asBytes := by
  by_cases hroot : p.asBytes = [slash]
  · rw [containsPath, Application.pathContains, hroot, root_isPrefixOf q]
    simp
  · have hne : (p.asBytes == [slash]) = false := beq_eq_false_iff_ne.mpr hroot
    rw [containsPath, Application.pathContains, hne, Bool.false_or, Bool.false_or, Bool.beq_comm]

/-- Two derived names of one workspace differ. -/
theorem nodup_siblingNames (id : WorkspaceId) : (siblingNames id).Nodup := by
  have hkinds : (Application.siblingKinds.map asBytes).Nodup := by decide
  have hnames : siblingNames id =
      (Application.siblingKinds.map asBytes).map (· ++ asBytes id.toText) := by
    simp [siblingNames, Application.siblingKinds, Application.stagingName, Application.trashName,
      Application.isolatedName, asBytes_append]
  rw [hnames]
  exact List.Nodup.map (fun a b h => List.append_cancel_right h) hkinds

/-- A path that the application and the ownership document derive alike: its bytes are those
that the document expects, and it lies in the parent of the target. -/
structure DerivedAlike (target : AbsolutePath) (id : WorkspaceId) (kind : String)
    (path : AbsolutePath) : Prop where
  application : (do
    let parent ← Application.targetParent target
    Application.derivedPath parent [asBytes (kind ++ id.toText)]) = .ok path
  document : (parentPathBytes target).map (siblingPathBytes · (kind ++ id.toText)) =
    some path.asBytes
  components : path.components = target.components.dropLast ++ [asBytes (kind ++ id.toText)]
  parent : Application.targetParent path = Application.targetParent target

/-- A sibling below the root is derived alike on both sides. -/
theorem derivedAlike {id : WorkspaceId} {kind : String} (h : target.asBytes ≠ [slash])
    (hnormal : AbsolutePath.Normal (asBytes (kind ++ id.toText))) :
    DerivedAlike target id kind (target.parent.child _ hnormal) where
  application := by
    rw [Application.targetParent_eq h]
    exact Application.derivedPath_single hnormal
  document := by
    rw [parentPathBytes_eq h, Option.map_some, siblingPathBytes_eq hnormal]
  components := by
    rw [AbsolutePath.components_child, AbsolutePath.components_parent]
  parent := by
    have hchild : (target.parent.child _ hnormal).asBytes ≠ [slash] := by
      intro hroot
      have hnil := AbsolutePath.components_root hroot
      rw [AbsolutePath.components_child] at hnil
      exact List.append_ne_nil_of_right_ne_nil _ (List.cons_ne_nil _ _) hnil
    have hparent : (target.parent.child _ hnormal).parent = target.parent := by
      apply AbsolutePath.components_injective
      rw [AbsolutePath.components_parent, AbsolutePath.components_child, List.dropLast_concat]
    rw [Application.targetParent_eq h, Application.targetParent_eq hchild, hparent]

/-- **Paths behave as lists of components.**  Both comparisons are the prefix order, and
the three siblings of a target below the root are derived alike on both sides: the application
protects them with the target, and an ownership document is accepted with these and no others. -/
theorem path_algebra :
    (∀ left right : AbsolutePath, Application.pathsOverlap left right = true ↔
      left.components <+: right.components ∨ right.components <+: left.components) ∧
    (∀ parent child : AbsolutePath, containsPath parent.asBytes child.asBytes = true ↔
      parent.components <+: child.components) ∧
    (∀ (source target : AbsolutePath) (id : WorkspaceId), target.asBytes ≠ [slash] →
      ∃ staging trash isolated,
        DerivedAlike target id ".thinws-staging-" staging ∧
        DerivedAlike target id ".thinws-trash-" trash ∧
        DerivedAlike target id ".thinws-remove-" isolated ∧
        [staging, trash, isolated].Nodup ∧
        (do
          let parent ← Application.targetParent target
          Application.provisionalMaterializationPaths source target parent id) =
          .ok ⟨source, target, staging, trash⟩ ∧
        (∀ reservation : WorkspaceReservation, reservation.targetPath = target →
          reservation.workspaceId = id → Application.activeWorkspaceProtectedPaths reservation =
            .ok [target, staging, trash, isolated]) ∧
        DerivesSiblings target id staging trash isolated) := by
  refine ⟨fun left right => ?_, fun parent child => ?_, fun source target id h => ?_⟩
  · rw [Application.pathsOverlap, Bool.or_eq_true, Application.pathContains_iff,
      Application.pathContains_iff]
  · rw [containsPath_eq, Application.pathContains_iff]
  · obtain ⟨hstaging, htrash, hisolated⟩ := normal_kinds id
    refine ⟨_, _, _, derivedAlike h hstaging, derivedAlike h htrash, derivedAlike h hisolated,
      ?_, ?_, ?_, derivesSiblings h hstaging htrash hisolated⟩
    · -- The components end in the names, which differ.
      have hnames := nodup_siblingNames id
      have hlast : [target.parent.child _ hstaging, target.parent.child _ htrash,
          target.parent.child _ hisolated].map (·.components.getLast?) =
          (siblingNames id).map some := by
        simp [AbsolutePath.components_child, siblingNames, Application.stagingName,
          Application.trashName, Application.isolatedName]
      refine List.Nodup.of_map (·.components.getLast?) ?_
      rw [hlast]
      exact List.Nodup.map (fun a b h => Option.some.inj h) hnames
    · rw [Application.targetParent_eq h]
      have hs := Application.derivedPath_single (p := target.parent) hstaging
      have ht := Application.derivedPath_single (p := target.parent) htrash
      unfold Application.provisionalMaterializationPaths Application.stagingName
        Application.trashName
      simp only [bind, Except.bind, hs, ht]
      rfl
    · rintro reservation rfl rfl
      exact Application.activeWorkspaceProtectedPaths_eq h

end Linux
end ThinWorkspace
